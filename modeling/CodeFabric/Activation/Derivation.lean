import CodeFabric.Activation.Chain
import CodeFabric.Support.Follow

/-! # Which histories are accepted

**`ValidChain`** says what a line of events is, by positions.

The three passes have a spec each: `index_eq_ok`, `link_eq_ok` with `exists_link`, and
`walk_eq_follow`. -/

namespace CodeFabric.Activation

open Fallible SortedKeys Command Following ActivationEvent List

/-! ## Valid chains -/

/-- A line of events from the empty workspace. -/
structure ValidChain (workspaceId : WorkspaceId) (events : List ActivationEvent) : Prop where
  workspace : ∀ event ∈ events, event.workspaceId = workspaceId
  event_nodup : (events.map ActivationEvent.eventId).Nodup
  operation_nodup : (events.map ActivationEvent.operationId).Nodup
  selection_nodup : (events.map fun event => event.commit.operationSelection).Nodup
  transaction_nodup : (events.map fun event => event.commit.transaction).Nodup
  first : ∀ event, events[0]? = some event →
    event.predecessorEventId = none ∧ event.predecessorEpoch = .empty
  ordinal : ∀ (i : Nat) event, events[i]? = some event → event.ordinal.get = i + 1
  follows : ∀ (i : Nat) before event, events[i]? = some before → events[i + 1]? = some event →
    event.predecessorEventId = some before.eventId ∧
    event.predecessorEpoch = .epoch before.pins.epoch ∧
    before.executionFence.generation.get ≤ event.executionFence.generation.get

/-! ## Indexing -/

/-- Events whose identities are pairwise different. -/
structure Distinct (events : List ActivationEvent) : Prop where
  event_nodup : (events.map ActivationEvent.eventId).Nodup
  operation_nodup : (events.map ActivationEvent.operationId).Nodup
  selection_nodup : (events.map fun event => event.commit.operationSelection).Nodup
  transaction_nodup : (events.map fun event => event.commit.transaction).Nodup

variable {events : List ActivationEvent} {events' : List ActivationEvent}

theorem Distinct.perm (h : Distinct events) (hp : events.Perm events') : Distinct events' where
  event_nodup := (hp.map _).nodup_iff.1 h.event_nodup
  operation_nodup := (hp.map _).nodup_iff.1 h.operation_nodup
  selection_nodup := (hp.map _).nodup_iff.1 h.selection_nodup
  transaction_nodup := (hp.map _).nodup_iff.1 h.transaction_nodup

theorem Distinct.sublist (h : Distinct events)
    (hsub : events'.Sublist events) : Distinct events' where
  event_nodup := h.event_nodup.sublist (hsub.map _)
  operation_nodup := h.operation_nodup.sublist (hsub.map _)
  selection_nodup := h.selection_nodup.sublist (hsub.map _)
  transaction_nodup := h.transaction_nodup.sublist (hsub.map _)

/-- The index of the events seen so far, the last one first. -/
def indexOf (seen : List ActivationEvent) : EventIndex where
  byId := seen
  operations := seen.map ActivationEvent.operationId
  selections := seen.map fun event => event.commit.operationSelection
  transactions := seen.map fun event => event.commit.transaction

variable {index : EventIndex} {event : ActivationEvent} {workspaceId : WorkspaceId}

theorem insert_eq_ok {seen : List ActivationEvent} (hsn : Distinct seen) :
    (indexOf seen).insert workspaceId event = .ok index ↔
      event.workspaceId = workspaceId ∧ Distinct (event :: seen) ∧
        index = indexOf (event :: seen) := by
  have hd : Distinct (event :: seen) ↔ event.eventId ∉ seen.map ActivationEvent.eventId ∧
      event.operationId ∉ seen.map ActivationEvent.operationId ∧
      event.commit.operationSelection ∉ seen.map (fun event => event.commit.operationSelection) ∧
      event.commit.transaction ∉ seen.map fun event => event.commit.transaction := by
    constructor
    · intro h
      exact ⟨(List.nodup_cons.1 h.event_nodup).1, (List.nodup_cons.1 h.operation_nodup).1,
        (List.nodup_cons.1 h.selection_nodup).1, (List.nodup_cons.1 h.transaction_nodup).1⟩
    · rintro ⟨hev, hop, hsel, htx⟩
      exact ⟨List.nodup_cons.2 ⟨hev, hsn.event_nodup⟩, List.nodup_cons.2 ⟨hop, hsn.operation_nodup⟩,
        List.nodup_cons.2 ⟨hsel, hsn.selection_nodup⟩,
        List.nodup_cons.2 ⟨htx, hsn.transaction_nodup⟩⟩
  rw [hd]
  simp only [EventIndex.insert, ok_iff]
  constructor
  · rintro ⟨-, hws, -, hev, -, hop, -, hsel, -, htx, rfl⟩
    exact ⟨hws, ⟨hev, hop, hsel, htx⟩, rfl⟩
  · rintro ⟨hws, ⟨hev, hop, hsel, htx⟩, rfl⟩
    exact ⟨(), hws, (), hev, (), hop, (), hsel, (), htx, rfl⟩

/-- **Indexing** succeeds for events of the workspace with distinct identities. -/
theorem index_eq_ok {seen : List ActivationEvent} (hs : Distinct seen) :
    events.foldlM (EventIndex.insert workspaceId) (indexOf seen) = .ok index ↔
      (∀ event ∈ events, event.workspaceId = workspaceId) ∧ Distinct (events.reverse ++ seen) ∧
        index = indexOf (events.reverse ++ seen) := by
  induction events generalizing seen with
  | nil =>
    simp only [foldlM_nil, pure_eq_ok, reverse_nil, nil_append]
    exact ⟨fun h => ⟨by simp, hs, h.symm⟩, fun h => h.2.2.symm⟩
  | cons event events ih =>
    rw [foldlM_cons, bind_eq_ok, reverse_cons, append_assoc, singleton_append]
    simp only [insert_eq_ok hs, forall_mem_cons]
    constructor
    · rintro ⟨_, ⟨hws, hd, rfl⟩, hr⟩
      obtain ⟨hwor, hall, rfl⟩ := (ih hd).1 hr
      exact ⟨⟨hws, hwor⟩, hall, rfl⟩
    · rintro ⟨⟨hws, hwor⟩, hall, rfl⟩
      have hd := hall.sublist (sublist_append_right _ _)
      exact ⟨_, ⟨hws, hd, rfl⟩, (ih hd).2 ⟨hwor, hall, rfl⟩⟩

/-! ## Linking -/

/-- An event can come right after another. -/
structure Follows (before event : ActivationEvent) : Prop where
  predecessor : event.predecessorEventId = some before.eventId
  epoch : event.predecessorEpoch = .epoch before.pins.epoch
  ordinal : event.ordinal.get = before.ordinal.get + 1
  generation : before.executionFence.generation.get ≤ event.executionFence.generation.get

section

variable {index : EventIndex} {children after : ActivationEventId → Option ActivationEventId}
  {event : ActivationEvent} {values : List ActivationEvent}

section

variable (hnd : (index.byId.map ActivationEvent.eventId).Nodup)
include hnd

theorem get_eq_some {id : ActivationEventId} :
    index.get id = some event ↔ event ∈ index.byId ∧ event.eventId = id := by
  constructor
  · intro h
    exact ⟨mem_of_find?_eq_some h, by simpa using find?_some h⟩
  · rintro ⟨hmem, rfl⟩
    obtain ⟨found, hfd⟩ : ∃ found, index.get event.eventId = some found := by
      rw [← Option.isSome_iff_exists, EventIndex.get, find?_isSome]
      exact ⟨event, hmem, by simp⟩
    have hs : found.eventId = event.eventId := by simpa using find?_some hfd
    rw [hfd, inj_on_of_nodup_map hnd (mem_of_find?_eq_some hfd) hmem hs]

theorem linkChild_eq_ok : linkChild index children event = .ok after ↔
    (event.predecessorEventId = none ∧ after = children) ∨
    ∃ parent ∈ index.byId, Follows parent event ∧ children parent.eventId = none ∧
      after = Function.update children parent.eventId (some event.eventId) := by
  unfold linkChild
  cases hp : event.predecessorEventId with
  | none =>
    simp only [Except.ok.injEq, true_and]
    refine ⟨fun h => .inl h.symm, ?_⟩
    rintro (h | ⟨parent, -, hfol, -⟩)
    · exact h.symm
    · rw [hfol.predecessor] at hp
      cases hp
  | some =>
    simp only [ok_iff, checkedAdd_eq_some, get_eq_some hnd, reduceCtorEq, false_and, false_or]
    constructor
    · rintro ⟨parent, ⟨hmem, rfl⟩, -, hfr, -, he, _, ⟨-, rfl⟩, -, hord, -, hgen, rfl⟩
      exact ⟨parent, hmem, ⟨hp, he, hord, hgen⟩, hfr, rfl⟩
    · rintro ⟨parent, hmem, hfol, hfr, rfl⟩
      cases hp.symm.trans hfol.predecessor
      -- the ordinal of the event itself shows that the addition fits
      have hft := event.ordinal.lt_width
      rw [hfol.ordinal] at hft
      exact ⟨parent, ⟨hmem, rfl⟩, (), hfr, (), hfol.epoch, _, ⟨hft, rfl⟩, (),
        hfol.ordinal, (), hfol.generation, rfl⟩

/-- **Linked events**: each is a root or follows an event, and the map records the children. -/
theorem link_eq_ok (h : values.foldlM (linkChild index) children = .ok after) :
    (∀ event ∈ values, event.predecessorEventId = none ∨ ∃ parent ∈ index.byId,
      Follows parent event) ∧
    ∀ parentId childId, after parentId = some childId ↔ children parentId = some childId ∨
      ∃ event ∈ values, event.predecessorEventId = some parentId ∧ event.eventId = childId := by
  induction values generalizing children with
  | nil =>
    obtain rfl : children = after := by simpa using h
    exact ⟨by simp, by simp⟩
  | cons event values ih =>
    rw [foldlM_cons, bind_eq_ok] at h
    obtain ⟨_, hl, hrs⟩ := h
    obtain ⟨hfl, hchi⟩ := ih hrs
    rw [linkChild_eq_ok hnd] at hl
    obtain ⟨hrt, rfl⟩ | ⟨parent, hpar, hfol, hfr, rfl⟩ := hl
    · refine ⟨List.forall_mem_cons.2 ⟨.inl hrt, hfl⟩, fun parentId childId => ?_⟩
      rw [hchi]
      simp [hrt]
    · refine ⟨List.forall_mem_cons.2 ⟨.inr ⟨parent, hpar, hfol⟩, hfl⟩, fun parentId childId => ?_⟩
      rw [hchi]
      by_cases hid : parentId = parent.eventId
      · subst hid
        simp [hfr, hfol.predecessor]
      · simp [hid, hfol.predecessor, Ne.symm hid]

theorem exists_link (hfl : ∀ event ∈ values, event.predecessorEventId = none ∨
      ∃ parent ∈ index.byId, Follows parent event)
    (hfr : (values.filterMap predecessorEventId).Nodup)
    (hfresh : ∀ event ∈ values, ∀ parentId, event.predecessorEventId = some parentId →
      children parentId = none) :
    ∃ after, values.foldlM (linkChild index) children = .ok after := by
  induction values generalizing children with
  | nil => exact ⟨children, rfl⟩
  | cons event values ih =>
    obtain ⟨hh, ht⟩ := List.forall_mem_cons.1 hfl
    obtain ⟨hfreshHead, hfreshTail⟩ := List.forall_mem_cons.1 hfresh
    obtain hr | ⟨parent, hpar, hfol⟩ := hh
    · rw [filterMap_cons_none hr] at hfr
      have hl : linkChild index children event = .ok children :=
        (linkChild_eq_ok hnd).2 (.inl ⟨hr, rfl⟩)
      rw [foldlM_cons, hl]
      exact ih ht hfr hfreshTail
    · rw [filterMap_cons_some hfol.predecessor, nodup_cons] at hfr
      have hfreshParent := hfreshHead _ hfol.predecessor
      have hl := (linkChild_eq_ok hnd).2 (.inr ⟨parent, hpar, hfol, hfreshParent, rfl⟩)
      rw [foldlM_cons, hl]
      refine ih ht hfr.2 fun other ho parentId ho' => ?_
      -- another child of the same parent would be a fork
      have hne : parentId ≠ parent.eventId := by
        rintro rfl
        exact hfr.1 (List.mem_filterMap.2 ⟨other, ho, ho'⟩)
      rw [Function.update_of_ne hne]
      exact hfreshTail other ho parentId ho'

end

/-! ## Walking -/

def childOf (index : EventIndex) (children : ActivationEventId → Option ActivationEventId)
    (event : ActivationEvent) : Option ActivationEvent :=
  (children event.eventId).bind index.get

/-- **The walk follows the children.** -/
theorem walk_eq_follow (hp : ∀ parentId childId, children parentId = some childId →
      ∃ child, index.get childId = some child ∧ child.eventId = childId)
    (visits : Nat) (hev : index.get event.eventId = some event) (ordered : List ActivationEvent) :
    walk index children visits event.eventId ordered =
      match follow (childOf index children) visits event with
      | none => .error .diverges
      | some visited => .ok (ordered ++ visited) := by
  induction visits generalizing event ordered with
  | zero => rfl
  | succ visits ih =>
    rw [walk, follow, childOf, hev]
    cases hc : children event.eventId with
    | none => rfl
    | some childId =>
      obtain ⟨child, hget, rfl⟩ := hp _ _ hc
      show walk index children visits child.eventId (ordered ++ [event]) = _
      rw [ih hget]
      simp only [Option.bind_some, hget]
      cases follow (childOf index children) visits child <;> simp

end

/-! ## Linked histories -/

/-- What the first two passes leave: distinct events, each a root or after another, and the map of
their children. -/
structure Linked (index : EventIndex)
    (children : ActivationEventId → Option ActivationEventId) : Prop where
  event_nodup : (index.byId.map ActivationEvent.eventId).Nodup
  follows : ∀ event ∈ index.byId, event.predecessorEventId = none ∨
    ∃ parent ∈ index.byId, Follows parent event
  children_iff : ∀ parentId childId, children parentId = some childId ↔
    ∃ event ∈ index.byId, event.predecessorEventId = some parentId ∧ event.eventId = childId

section

variable {index : EventIndex} {children : ActivationEventId → Option ActivationEventId}
  {event : ActivationEvent}

theorem Linked.get (h : Linked index children) (hmem : event ∈ index.byId) :
    index.get event.eventId = some event :=
  (get_eq_some h.event_nodup).2 ⟨hmem, rfl⟩

theorem Linked.childOf_eq_some (h : Linked index children) {child : ActivationEvent} :
    childOf index children event = some child ↔
      child ∈ index.byId ∧ child.predecessorEventId = some event.eventId := by
  rw [childOf, Option.bind_eq_some_iff]
  constructor
  · rintro ⟨_, hc, hget⟩
    obtain ⟨hmem, rfl⟩ := (get_eq_some h.event_nodup).1 hget
    obtain ⟨_, ho, hp, hid⟩ := (h.children_iff _ _).1 hc
    rw [inj_on_of_nodup_map h.event_nodup ho hmem hid] at hp
    exact ⟨hmem, hp⟩
  · rintro ⟨hmem, hp⟩
    exact ⟨child.eventId, (h.children_iff _ _).2 ⟨child, hmem, hp, rfl⟩, h.get hmem⟩

theorem Linked.follows_of_childOf (h : Linked index children) {child : ActivationEvent}
    (hev : event ∈ index.byId) (hc : childOf index children event = some child) :
    Follows event child := by
  obtain ⟨hmem, hpr⟩ := h.childOf_eq_some.1 hc
  obtain hr | ⟨_, hpar, hfol⟩ := h.follows child hmem
  · rw [hpr] at hr
    cases hr
  · have hid := Option.some.inj (hpr.symm.trans hfol.predecessor)
    rwa [inj_on_of_nodup_map h.event_nodup hev hpar hid]

/-- **The walk ends**: ordinals increase along it. -/
theorem Linked.exists_walk (h : Linked index children) (hev : event ∈ index.byId) :
    ∃ visited, Path (childOf index children) event visited ∧
      walk index children index.byId.length event.eventId [] = .ok visited := by
  have hcl : ∀ item ∈ index.byId, ∀ successor,
      childOf index children item = some successor → successor ∈ index.byId :=
    fun item _ successor hs => (h.childOf_eq_some.1 hs).1
  have hr : ∀ item ∈ index.byId, ∀ successor, childOf index children item = some successor →
      item.ordinal.get < successor.ordinal.get := by
    intro item hi successor hs
    rw [(h.follows_of_childOf hi hs).ordinal]
    exact Nat.lt_succ_self _
  have hpr : ∀ parentId childId, children parentId = some childId →
      ∃ child, index.get childId = some child ∧ child.eventId = childId := by
    intro parentId childId hch
    obtain ⟨child, hmem, -, rfl⟩ := (h.children_iff _ _).1 hch
    exact ⟨child, h.get hmem, rfl⟩
  obtain ⟨visited, hpt, hlen⟩ := exists_path hcl hr hev
  refine ⟨visited, hpt, ?_⟩
  rw [walk_eq_follow hpr _ (h.get hev), follow_eq_some.2 ⟨hpt, hlen⟩]
  rfl

end

theorem values_perm (index : EventIndex) : index.values.Perm index.byId :=
  perm_insertionSort _ _

theorem mem_of_roots {root : ActivationEvent}
    (h : index.values.filter (fun event => event.predecessorEventId = none) = [root]) :
    root ∈ index.byId ∧ root.predecessorEventId = none := by
  have hmem : root ∈ [root] := mem_singleton_self root
  rw [← h, mem_filter, decide_eq_true_eq, (values_perm index).mem_iff] at hmem
  exact hmem

variable {children : ActivationEventId → Option ActivationEventId}

theorem linked_of_link (hnd : (index.byId.map eventId).Nodup)
    (h : index.values.foldlM (linkChild index) (fun _ => none) = .ok children) :
    Linked index children := by
  obtain ⟨hfol, hchi⟩ := link_eq_ok hnd h
  refine ⟨hnd, fun event hev => ?_, fun _ _ => ?_⟩
  · exact hfol event ((values_perm index).mem_iff.2 hev)
  · rw [hchi]
    simp only [reduceCtorEq, false_or, (values_perm index).mem_iff]

/-! ## Accepted histories are valid chains -/

section

variable {index : EventIndex} {children : ActivationEventId → Option ActivationEventId}
  {root : ActivationEvent} {visited : List ActivationEvent}

theorem Linked.follows_of_path (h : Linked index children) (hr : root ∈ index.byId)
    (hp : Path (childOf index children) root visited) {i : Nat} {before : ActivationEvent}
    (hbef : visited[i]? = some before) (hev : visited[i + 1]? = some event) :
    Follows before event := by
  have hmem : before ∈ index.byId := by
    refine hp.subset (fun _ _ _ hs => ?_) hr (List.mem_of_getElem? hbef)
    exact (h.childOf_eq_some.1 hs).1
  obtain ⟨hi, rfl⟩ := List.getElem?_eq_some_iff.1 hev
  obtain ⟨_, rfl⟩ := List.getElem?_eq_some_iff.1 hbef
  exact h.follows_of_childOf hmem (List.isChain_iff_getElem.1 hp.isChain i hi)

theorem Linked.ordinal_of_path (h : Linked index children) (hr : root ∈ index.byId)
    (hfst : root.ordinal.get = 1) (hp : Path (childOf index children) root visited) (i : Nat)
    (hev : visited[i]? = some event) : event.ordinal.get = i + 1 := by
  induction i generalizing event with
  | zero =>
    rw [← List.head?_eq_getElem?, hp.head] at hev
    cases hev
    exact hfst
  | succ i ih =>
    obtain ⟨_, -⟩ := List.getElem?_eq_some_iff.1 hev
    have hbef : visited[i]? = some visited[i] := List.getElem?_eq_getElem (by omega)
    rw [(h.follows_of_path hr hp hbef hev).ordinal, ih hbef]

/-- **A complete walk is a valid chain.** -/
theorem Linked.validChain (h : Linked index children)
    (hws : ∀ event ∈ index.byId, event.workspaceId = workspaceId)
    (hds : Distinct index.byId) (hr : root ∈ index.byId)
    (hsta : root.predecessorEventId = none) (hemp : root.predecessorEpoch = .empty)
    (hfst : root.ordinal.get = 1) (hpt : Path (childOf index children) root visited)
    (hlen : visited.length = index.byId.length) :
    visited.Perm index.byId ∧ ValidChain workspaceId visited := by
  have hsub : visited ⊆ index.byId := by
    refine hpt.subset (fun item _ successor hsc => ?_) hr
    exact (h.childOf_eq_some.1 hsc).1
  have hnd : visited.Nodup := by
    refine hpt.nodup (fun event => event.ordinal.get) fun item hi successor hnx => ?_
    have hord := (h.follows_of_childOf (hsub hi) hnx).ordinal
    omega
  -- as many distinct events as there are: all of them
  have hpr : visited.Perm index.byId :=
    (subperm_of_subset hnd hsub).perm_of_length_le hlen.ge
  have hd' := hds.perm hpr.symm
  refine ⟨hpr, ⟨fun event hev => hws event (hsub hev), hd'.event_nodup,
    hd'.operation_nodup, hd'.selection_nodup, hd'.transaction_nodup, ?_,
    fun i event hev => h.ordinal_of_path hr hfst hpt i hev, ?_⟩⟩
  · intro event hev
    rw [← head?_eq_getElem?, hpt.head] at hev
    cases hev
    exact ⟨hsta, hemp⟩
  · intro i _ event hbef hev
    have hfol := h.follows_of_path hr hpt hbef hev
    exact ⟨hfol.predecessor, hfol.epoch, hfol.generation⟩

end

/-! ## Valid chains are accepted -/

section

variable {workspaceId : WorkspaceId} {events : List ActivationEvent} {event : ActivationEvent}

section

variable (h : ValidChain workspaceId events)
include h

theorem ValidChain.distinct : Distinct events :=
  ⟨h.event_nodup, h.operation_nodup, h.selection_nodup, h.transaction_nodup⟩

theorem ValidChain.cases {i : Nat} (hev : events[i]? = some event) :
    (i = 0 ∧ event.predecessorEventId = none) ∨
      ∃ before, events[i - 1]? = some before ∧ 0 < i ∧ Follows before event := by
  cases i with
  | zero => exact .inl ⟨rfl, (h.first event hev).1⟩
  | succ i =>
    obtain ⟨_, -⟩ := List.getElem?_eq_some_iff.1 hev
    have hbef : events[i]? = some events[i] := List.getElem?_eq_getElem (by omega)
    obtain ⟨hp, hep, hgen⟩ := h.follows i _ event hbef hev
    refine .inr ⟨_, hbef, Nat.succ_pos i, hp, hep, ?_, hgen⟩
    rw [h.ordinal _ _ hev, h.ordinal _ _ hbef]

theorem ValidChain.follows_of_mem (hmem : event ∈ events) :
    event.predecessorEventId = none ∨ ∃ before ∈ events, Follows before event := by
  obtain ⟨i, hi⟩ := List.mem_iff_getElem?.1 hmem
  obtain ⟨-, hr⟩ | ⟨before, hbef, -, hfol⟩ := h.cases hi
  · exact .inl hr
  · exact .inr ⟨before, mem_of_getElem? hbef, hfol⟩

theorem ValidChain.pairwise_ordinal :
    events.Pairwise fun before after => before.ordinal.get < after.ordinal.get := by
  rw [pairwise_iff_getElem]
  intro i j hi hj _
  rw [h.ordinal i _ (getElem?_eq_getElem hi), h.ordinal j _ (getElem?_eq_getElem hj)]
  omega

theorem ValidChain.predecessor_nodup : (events.filterMap predecessorEventId).Nodup := by
  refine List.pairwise_filterMap.2 (h.pairwise_ordinal.imp_of_mem ?_)
  rintro _ _ hbef haf _ parentId hpar _ hpar' rfl
  -- both would have the ordinal after that predecessor's
  have hs : ∀ {event : ActivationEvent}, event ∈ events → event.predecessorEventId = some parentId →
        ∃ parent ∈ events, parent.eventId = parentId ∧
          event.ordinal.get = parent.ordinal.get + 1 := by
    intro event hev hpr
    obtain hr | ⟨parent, hmem, hfol⟩ := h.follows_of_mem hev
    · rw [hr] at hpr
      cases hpr
    · rw [hfol.predecessor] at hpr
      exact ⟨parent, hmem, Option.some.inj hpr, hfol.ordinal⟩
  obtain ⟨parent, hmem, hid, _⟩ := hs hbef hpar
  obtain ⟨_, hmem', hid', _⟩ := hs haf hpar'
  obtain rfl := inj_on_of_nodup_map h.event_nodup hmem hmem' (hid.trans hid'.symm)
  omega

end

theorem ValidChain.filter_root {rest : List ActivationEvent}
    (h : ValidChain workspaceId (event :: rest)) :
    (event :: rest).filter (fun event => event.predecessorEventId = none) = [event] := by
  have hrt : event.predecessorEventId = none := (h.first event rfl).1
  have hrs : rest.filter (fun event => event.predecessorEventId = none) = [] := by
    refine List.filter_eq_nil_iff.2 fun other ho => ?_
    obtain ⟨i, _⟩ := List.mem_iff_getElem?.1 ho
    have hi' : (event :: rest)[i + 1]? = some other := by rwa [getElem?_cons_succ]
    obtain ⟨_, -⟩ | ⟨_, -, -, hfol⟩ := h.cases hi'
    · omega
    · simp [hfol.predecessor]
  rw [filter_cons_of_pos (by simpa using hrt), hrs]

/-- **The walk over a linked valid chain is the chain.** -/
theorem ValidChain.path {rest : List ActivationEvent} (h : ValidChain workspaceId (event :: rest))
    (hlnk : Linked index children) (hpr : (event :: rest).Perm index.byId) :
    Path (childOf index children) event (event :: rest) := by
  refine path_of_isChain (List.isChain_iff_getElem.2 fun i hi => ?_) fun _ hls => ?_
  · have hbef := List.getElem?_eq_getElem (Nat.lt_of_succ_lt hi)
    have haf := List.getElem?_eq_getElem hi
    have hpred := (h.follows i _ _ hbef haf).1
    exact hlnk.childOf_eq_some.2 ⟨hpr.mem_iff.1 (List.getElem_mem hi), hpred⟩
  · -- a child of the last event would have an ordinal beyond the last
    rw [Option.eq_none_iff_forall_ne_some]
    intro child hch
    have hmem := hpr.mem_iff.1 (List.mem_of_getLast? hls)
    have hord := (hlnk.follows_of_childOf hmem hch).ordinal
    obtain ⟨i, hi⟩ :=
      List.mem_iff_getElem?.1 (hpr.mem_iff.2 (hlnk.childOf_eq_some.1 hch).1)
    obtain ⟨_, -⟩ := List.getElem?_eq_some_iff.1 hi
    rw [List.getLast?_eq_getElem?] at hls
    have hlastOrdinal := h.ordinal _ _ hls
    have hchildOrdinal := h.ordinal i child hi
    omega

end

/-! ## Derivation -/

section

variable {workspaceId : WorkspaceId} {events ordered : List ActivationEvent}
  {chain : ActivationChain}

theorem distinct_nil : Distinct [] :=
  ⟨nodup_nil, nodup_nil, nodup_nil, nodup_nil⟩

theorem index_events_eq_ok :
    events.foldlM (EventIndex.insert workspaceId) ⟨[], [], [], []⟩ = .ok index ↔
      (∀ event ∈ events, event.workspaceId = workspaceId) ∧ Distinct events.reverse ∧
        index = indexOf events.reverse := by
  have hidx := (index_eq_ok distinct_nil :
    events.foldlM (EventIndex.insert workspaceId) (indexOf []) = .ok index ↔ _)
  rwa [append_nil] at hidx

theorem orderEvents_eq_ok : orderEvents index = .ok ordered ↔ ∃ root children,
    index.values.filter (fun event => event.predecessorEventId = none) = [root] ∧
    root.predecessorEpoch = .empty ∧ root.ordinal.get = 1 ∧
    index.values.foldlM (linkChild index) (fun _ => none) = .ok children ∧
    walk index children index.byId.length root.eventId [] = .ok ordered ∧
    ordered.length = index.byId.length := by
  unfold orderEvents
  split
  · rename_i root hrts
    simp only [ok_iff, hrts]
    constructor
    · rintro ⟨-, ⟨hemp, hfst⟩, children, hln, _, hw, -, hlen, rfl⟩
      exact ⟨root, children, rfl, hemp, hfst, hln, hw, hlen⟩
    · rintro ⟨_, children, ⟨⟩, hemp, hfst, hln, hw, hlen⟩
      exact ⟨(), ⟨hemp, hfst⟩, children, hln, ordered, hw, (), hlen, rfl⟩
  · rename_i hrts
    simp only [reduceCtorEq, false_iff]
    rintro ⟨root, _, hrt, -⟩
    exact hrts root hrt

theorem validChain_of_orderEvents (hd : Distinct index.byId)
    (hws : ∀ event ∈ index.byId, event.workspaceId = workspaceId)
    (h : orderEvents index = .ok ordered) :
    ordered.Perm index.byId ∧ ValidChain workspaceId ordered := by
  obtain ⟨_, _, hrts, hemp, hfst, hln, hwl, hlen⟩ := orderEvents_eq_ok.1 h
  have hlnk := linked_of_link hd.event_nodup hln
  obtain ⟨hmem, hrt⟩ := mem_of_roots hrts
  obtain ⟨_, hp, hvis⟩ := hlnk.exists_walk hmem
  cases hwl.symm.trans hvis
  exact hlnk.validChain hws hd hmem hrt hemp hfst hp hlen

theorem orderEvents_of_validChain {root : ActivationEvent} {rest : List ActivationEvent}
    (hv : ValidChain workspaceId (root :: rest)) (hpr : (root :: rest).Perm index.byId) :
    orderEvents index = .ok (root :: rest) := by
  have hd := hv.distinct.perm hpr
  have hvs := hpr.trans (values_perm index).symm
  have hrts : index.values.filter (fun event => event.predecessorEventId = none) = [root] := by
    have hflt := hvs.filter fun event => decide (event.predecessorEventId = none)
    rw [hv.filter_root] at hflt
    exact List.perm_singleton.1 hflt.symm
  have hfol : ∀ event ∈ index.values, event.predecessorEventId = none ∨
      ∃ parent ∈ index.byId, Follows parent event := by
    intro event hev
    obtain hrt | ⟨before, hbef, hfl⟩ := hv.follows_of_mem (hvs.mem_iff.2 hev)
    · exact .inl hrt
    · exact .inr ⟨before, hpr.mem_iff.1 hbef, hfl⟩
  have hfr := (hvs.filterMap _).nodup_iff.1 hv.predecessor_nodup
  obtain ⟨children, hln⟩ :=
    exists_link hd.event_nodup hfol hfr fun _ _ _ _ => rfl
  have hlnk := linked_of_link hd.event_nodup hln
  obtain ⟨_, hpt, hw⟩ := hlnk.exists_walk (hpr.mem_iff.1 mem_cons_self)
  obtain rfl := hpt.unique (hv.path hlnk hpr)
  exact orderEvents_eq_ok.2 ⟨root, children, hrts, (hv.first root rfl).2,
    hv.ordinal 0 root rfl, hln, hw, hpr.length_eq⟩

theorem validChain_of_derive (h : derive workspaceId events = .ok chain) :
    chain.workspaceId = workspaceId ∧ chain.orderedEvents.Perm events ∧
      ValidChain workspaceId chain.orderedEvents := by
  rw [derive, bind_eq_ok] at h
  obtain ⟨_, hidx, h⟩ := h
  obtain ⟨hws, hd, rfl⟩ := index_events_eq_ok.1 hidx
  split at h
  · rename_i hemp
    obtain rfl : events = [] := by simpa [indexOf] using hemp
    cases h
    exact ⟨rfl, .nil, by simp, nodup_nil, nodup_nil, nodup_nil, nodup_nil,
      by simp, by simp, by simp⟩
  · rw [bind_eq_ok] at h
    obtain ⟨_, ho, h⟩ := h
    cases h
    obtain ⟨hp, hv⟩ := validChain_of_orderEvents hd
      (fun event hev => hws event (List.mem_reverse.1 hev)) ho
    exact ⟨rfl, hp.trans events.reverse_perm, hv⟩

theorem derive_of_validChain (hpr : ordered.Perm events) (hv : ValidChain workspaceId ordered) :
    derive workspaceId events = .ok ⟨workspaceId, ordered⟩ := by
  have hp' : ordered.Perm events.reverse := hpr.trans events.reverse_perm.symm
  have hidx := index_events_eq_ok.2
    ⟨fun event hev => hv.workspace event (hpr.mem_iff.2 hev), hv.distinct.perm hp', rfl⟩
  rw [derive, hidx]
  show (if events.reverse.isEmpty then _ else _) = _
  cases ordered with
  | nil =>
    obtain rfl := List.nil_perm.1 hpr
    rfl
  | cons =>
    have hnon : events.reverse.isEmpty = false := by
      rw [isEmpty_eq_false_iff]
      rintro hemp
      rw [hemp] at hp'
      exact cons_ne_nil _ _ (List.perm_nil.1 hp')
    rw [hnon, orderEvents_of_validChain hv hp']
    rfl

/-! ## Termination -/

/-- A failure other than of the walk itself. -/
def DeriveFailure.Checked (failure : DeriveFailure) : Prop :=
  failure ≠ .missingEvent ∧ failure ≠ .diverges

theorem checked_error (error : ActivationError) : (DeriveFailure.error error).Checked :=
  ⟨nofun, nofun⟩

section

variable {failure : DeriveFailure} {P : DeriveFailure → Prop}
  (herr : ∀ error, P (.error error))
include herr

/-- A failed check is a failure of the source's own. -/
theorem of_ensure {p : Prop} [Decidable p] {error : ActivationError} {α : Type}
    {next : Unit → Except DeriveFailure α} (h : (ensure p (.error error) >>= next) = .error failure)
    (hn : next () = .error failure → P failure) : P failure := by
  obtain he | ⟨_, -, h⟩ := bind_eq_error h
  · exact (ensure_eq_error he).1 ▸ herr _
  · exact hn h

theorem of_insert (h : index.insert workspaceId event = .error failure) : P failure := by
  refine of_ensure herr h fun h => ?_
  refine of_ensure herr h fun h => ?_
  refine of_ensure herr h fun h => ?_
  refine of_ensure herr h fun h => ?_
  refine of_ensure herr h fun h => ?_
  cases h

/-- The addition is made for an event whose predecessor is indexed. -/
theorem of_linkChild (hov : ∀ parent ∈ index.byId,
      event.predecessorEventId = some parent.eventId → 2 ^ 64 ≤ parent.ordinal.get + 1 →
        P .ordinalOverflow)
    (h : linkChild index children event = .error failure) : P failure := by
  unfold linkChild at h
  split at h
  · cases h
  rename_i parentId hpar
  obtain hmis | ⟨parent, hget, h⟩ := bind_eq_error h
  · exact (okOr_eq_error hmis).1 ▸ herr _
  refine of_ensure herr h fun h => ?_
  refine of_ensure herr h fun h => ?_
  obtain ho | ⟨_, -, h⟩ := bind_eq_error h
  · obtain ⟨rfl, hnone⟩ := okOr_eq_error ho
    have hfd := okOr_eq_ok.1 hget
    have hid : parent.eventId = parentId := by simpa using find?_some hfd
    refine hov parent (mem_of_find?_eq_some hfd) (hid ▸ hpar) ?_
    simpa [checkedAdd] using hnone
  refine of_ensure herr h fun h => ?_
  refine of_ensure herr h fun h => ?_
  cases h

theorem of_orderEvents (hd : Distinct index.byId)
    (hov : ∀ parent ∈ index.byId, ∀ child ∈ index.byId,
      child.predecessorEventId = some parent.eventId → 2 ^ 64 ≤ parent.ordinal.get + 1 →
        P .ordinalOverflow)
    (h : orderEvents index = .error failure) : P failure := by
  unfold orderEvents at h
  split at h
  · rename_i root hrts
    refine of_ensure herr h fun h => ?_
    obtain hl | ⟨_, hl, h⟩ := bind_eq_error h
    · obtain ⟨_, child, hc, hf⟩ := foldlM_eq_error hl
      have hmem := (values_perm index).mem_iff.1 hc
      exact of_linkChild herr (fun parent hp => hov parent hp child hmem) hf
    obtain ⟨_, -, hw⟩ :=
      (linked_of_link hd.event_nodup hl).exists_walk (mem_of_roots hrts).1
    obtain hf | ⟨_, -, h⟩ := bind_eq_error h
    · rw [hw] at hf
      cases hf
    refine of_ensure herr h fun h => ?_
    cases h
  · cases h
    exact herr _

theorem of_derive (hov : ∀ parent ∈ events, ∀ child ∈ events,
      child.predecessorEventId = some parent.eventId → 2 ^ 64 ≤ parent.ordinal.get + 1 →
        P .ordinalOverflow)
    (h : derive workspaceId events = .error failure) : P failure := by
  obtain hidx | ⟨_, hidx, h⟩ := bind_eq_error h
  · obtain ⟨_, _, -, hf⟩ := foldlM_eq_error hidx
    exact of_insert herr hf
  · obtain ⟨-, hd, rfl⟩ := index_events_eq_ok.1 hidx
    split at h
    · cases h
    · obtain ho | ⟨_, -, h⟩ := bind_eq_error h
      · refine of_orderEvents herr hd (fun parent hp child hc => ?_) ho
        exact hov parent (mem_reverse.1 hp) child (mem_reverse.1 hc)
      · cases h

end

theorem checked_of_derive {failure : DeriveFailure}
    (h : derive workspaceId events = .error failure) : failure.Checked :=
  of_derive checked_error (fun _ _ _ _ _ _ => ⟨nofun, nofun⟩) h

end

/-- **Derivation accepts exactly the valid chains**, in any order of their events, with the chain as
its result; and it ends on every input. -/
theorem derive_iff (workspaceId : WorkspaceId) (events : List ActivationEvent) :
    (∀ chain, derive workspaceId events = .ok chain ↔
      chain.workspaceId = workspaceId ∧ chain.orderedEvents.Perm events ∧
        ValidChain workspaceId chain.orderedEvents) ∧
    (∀ ordered ordered', ordered.Perm events → ValidChain workspaceId ordered →
      ordered'.Perm events → ValidChain workspaceId ordered' → ordered = ordered') ∧
    (∀ events', events.Perm events' → ∀ chain,
      derive workspaceId events = .ok chain ↔ derive workspaceId events' = .ok chain) ∧
    derive workspaceId events ≠ .error .diverges ∧
    derive workspaceId events ≠ .error .missingEvent := by
  have hiff : ∀ events chain, derive workspaceId events = .ok chain ↔
      chain.workspaceId = workspaceId ∧ chain.orderedEvents.Perm events ∧
        ValidChain workspaceId chain.orderedEvents := by
    intro events chain
    refine ⟨validChain_of_derive, ?_⟩
    rintro ⟨rfl, hpr, hv⟩
    exact derive_of_validChain hpr hv
  refine ⟨hiff events, fun ordered ordered' hpr hv hp' hv' => ?_,
    fun events' hevs chain => ?_, fun h => (checked_of_derive h).2 rfl,
    fun h => (checked_of_derive h).1 rfl⟩
  · have hs := (derive_of_validChain hpr hv).symm.trans (derive_of_validChain hp' hv')
    exact congrArg ActivationChain.orderedEvents (Except.ok.inj hs)
  · rw [hiff, hiff]
    exact and_congr_right fun _ => and_congr_left fun _ =>
      ⟨fun h => h.trans hevs, fun h => h.trans hevs.symm⟩

/-! ## A history -/

def sampleWorkspace : WorkspaceId := ⟨Vector.replicate 16 1⟩

def samplePins (seed : UInt8) : FabricEpochPins where
  epoch := ⟨Vector.replicate 16 seed⟩
  inputRelease := ⟨Vector.replicate 32 2⟩
  programRelease := ⟨Vector.replicate 32 3⟩
  applicationRelease := ⟨Vector.replicate 32 4⟩
  sourceAuthority := ⟨Vector.replicate 32 5⟩
  sourceGeneration := ⟨6⟩
  providerRelease := ⟨Vector.replicate 32 7⟩
  providerSet := ⟨Vector.replicate 32 8⟩
  tableVersions := ⟨Vector.replicate 32 9⟩
  overlaySegments := ⟨Vector.replicate 32 10⟩
  policySet := ⟨Vector.replicate 32 11⟩
  resourceEnvelope := ⟨Vector.replicate 32 12⟩
  proofReceipt := ⟨Vector.replicate 32 13⟩

def sampleEvent (seed : UInt8) (predecessorEventId : Option ActivationEventId)
    (predecessorEpoch : ExpectedHead) (ordinal : ActivationOrdinal) : ActivationEvent where
  eventId := ⟨Vector.replicate 32 seed⟩
  workspaceId := sampleWorkspace
  operationId := ⟨Vector.replicate 16 seed⟩
  predecessorEventId := predecessorEventId
  predecessorEpoch := predecessorEpoch
  ordinal := ordinal
  executionFence := ⟨⟨Vector.replicate 16 14⟩, ⟨7, by decide, by decide⟩⟩
  pins := samplePins seed
  compatibility := ⟨Vector.replicate 32 15⟩
  retention := ⟨Vector.replicate 32 16⟩
  commit := ⟨⟨Vector.replicate 32 seed⟩, ⟨Vector.replicate 32 seed⟩, ⟨Vector.replicate 32 17⟩,
    ⟨Vector.replicate 32 18⟩⟩

def sampleFirst : ActivationEvent := sampleEvent 30 none .empty ⟨1, Nat.one_ne_zero, one_lt_width⟩

def sampleSecond : ActivationEvent :=
  sampleEvent 20 (some sampleFirst.eventId) (.epoch sampleFirst.pins.epoch)
    ⟨2, by decide, by decide⟩

theorem sampleSecond_derived : derive sampleWorkspace [sampleSecond, sampleFirst] =
      .ok ⟨sampleWorkspace, [sampleFirst, sampleSecond]⟩ ∧
    ValidChain sampleWorkspace [sampleFirst, sampleSecond] := by
  have hd : derive sampleWorkspace [sampleSecond, sampleFirst] =
      .ok ⟨sampleWorkspace, [sampleFirst, sampleSecond]⟩ := by
    decide +kernel
  exact ⟨hd, (((derive_iff sampleWorkspace [sampleSecond, sampleFirst]).1 _).1 hd).2.2⟩

/-! ## The unchecked addition -/

section

variable {workspaceId : WorkspaceId} {events values : List ActivationEvent}

/-- The events in the order of the map by event identity. -/
def inMapOrder (events : List ActivationEvent) : List ActivationEvent :=
  sortOn (fun event => event.eventId.asBytes.toList) events

/-- The events on which the successor of the last ordinal is computed: they are indexed, have one
root, and every event before a child of an event at the last ordinal is linked without an error. -/
structure Overflows (workspaceId : WorkspaceId) (events : List ActivationEvent) : Prop where
  workspace : ∀ event ∈ events, event.workspaceId = workspaceId
  distinct : Distinct events
  root : ∃ root, events.filter (fun event => event.predecessorEventId = none) = [root] ∧
    root.predecessorEpoch = .empty ∧ root.ordinal.get = 1
  reached : ∃ before child after, inMapOrder events = before ++ child :: after ∧
    (∀ event ∈ before, event.predecessorEventId = none ∨ ∃ other ∈ events, Follows other event) ∧
    ((before ++ [child]).filterMap predecessorEventId).Nodup ∧
    ∃ parent ∈ events, parent.ordinal.get = 2 ^ 64 - 1 ∧
      child.predecessorEventId = some parent.eventId ∧
      child.predecessorEpoch = .epoch parent.pins.epoch

theorem values_indexOf_reverse (hd : Distinct events) :
    (indexOf events.reverse).values = inMapOrder events := by
  have hperm : (indexOf events.reverse).values.Perm (inMapOrder events) :=
    (perm_insertionSort _ _).trans (events.reverse_perm.trans (perm_insertionSort _ _).symm)
  refine hperm.eq_of_pairwise (fun event other hev hot hle hge => ?_)
    (ascending_sortOn _ _) (ascending_sortOn _ _)
  have hmem : ∀ {event}, event ∈ (indexOf events.reverse).values → event ∈ events := fun h =>
    mem_reverse.1 ((perm_insertionSort _ _).mem_iff.1 h)
  refine inj_on_of_nodup_map hd.event_nodup (hmem hev) (hmem (hperm.mem_iff.2 hot)) ?_
  have hbytes := Vector.toList_inj.1 (List.le_antisymm hle hge)
  exact congrArg ActivationIdentity.mk hbytes

/-- Linking never meets two events after one predecessor. -/
theorem nodup_of_link (hnd : (index.byId.map ActivationEvent.eventId).Nodup)
    {children after : ActivationEventId → Option ActivationEventId}
    (h : values.foldlM (linkChild index) children = .ok after) :
    (values.filterMap predecessorEventId).Nodup ∧
      ∀ id ∈ values.filterMap predecessorEventId, children id = none := by
  induction values generalizing children with
  | nil => exact ⟨nodup_nil, by simp⟩
  | cons event values ih =>
    rw [foldlM_cons, bind_eq_ok] at h
    obtain ⟨_, hl, hrest⟩ := h
    obtain ⟨hnodup, hfree⟩ := ih hrest
    obtain ⟨hroot, rfl⟩ | ⟨parent, -, hfol, hnone, rfl⟩ := (linkChild_eq_ok hnd).1 hl
    · rw [filterMap_cons_none hroot]
      exact ⟨hnodup, hfree⟩
    · rw [filterMap_cons_some hfol.predecessor]
      have hne : ∀ id ∈ values.filterMap predecessorEventId, id ≠ parent.eventId := by
        rintro id hid rfl
        have hupdated := hfree _ hid
        rw [Function.update_self] at hupdated
        cases hupdated
      refine ⟨nodup_cons.2 ⟨fun hid => hne _ hid rfl, hnodup⟩, ?_⟩
      refine forall_mem_cons.2 ⟨hnone, fun id hid => ?_⟩
      rw [← Function.update_of_ne (hne id hid) (some event.eventId) children]
      exact hfree id hid

theorem linkChild_overflows (hnd : (index.byId.map ActivationEvent.eventId).Nodup) :
    linkChild index children event = .error .ordinalOverflow ↔
      ∃ parent ∈ index.byId, event.predecessorEventId = some parent.eventId ∧
        children parent.eventId = none ∧ event.predecessorEpoch = .epoch parent.pins.epoch ∧
        parent.ordinal.get = 2 ^ 64 - 1 := by
  constructor
  · intro h
    unfold linkChild at h
    split at h
    · cases h
    rename_i parentId hparent
    obtain hmissing | ⟨parent, hget, h⟩ := bind_eq_error h
    · cases (okOr_eq_error hmissing).1
    obtain ⟨hmem, rfl⟩ := (get_eq_some hnd).1 (okOr_eq_ok.1 hget)
    obtain hfork | ⟨_, hfree, h⟩ := bind_eq_error h
    · cases (ensure_eq_error hfork).1
    obtain hepoch | ⟨_, hepoch, h⟩ := bind_eq_error h
    · cases (ensure_eq_error hepoch).1
    obtain hover | ⟨_, -, h⟩ := bind_eq_error h
    · refine ⟨parent, hmem, hparent, ensure_eq_ok.1 hfree, ensure_eq_ok.1 hepoch, ?_⟩
      have hnone : checkedAdd 64 parent.ordinal.get 1 = none := (okOr_eq_error hover).2
      have hge : 2 ^ 64 ≤ parent.ordinal.get + 1 := by simpa [checkedAdd] using hnone
      have hlt := parent.ordinal.lt_width
      omega
    obtain hgap | ⟨_, -, h⟩ := bind_eq_error h
    · cases (ensure_eq_error hgap).1
    obtain hregression | ⟨_, -, h⟩ := bind_eq_error h
    · cases (ensure_eq_error hregression).1
    cases h
  · rintro ⟨parent, hmem, hparent, hfree, hepoch, hlast⟩
    have hnone : checkedAdd 64 parent.ordinal.get 1 = none := by simp [checkedAdd, hlast]
    simp only [linkChild, hparent, (get_eq_some hnd).2 ⟨hmem, rfl⟩, okOr, ensure, hfree, hepoch,
      bind, Except.bind, hnone, if_true]

/-- Linking reaches the addition at the first event whose predecessor has the last ordinal. -/
theorem link_overflows (hnd : (index.byId.map ActivationEvent.eventId).Nodup) :
    values.foldlM (linkChild index) (fun _ => none) = .error .ordinalOverflow ↔
      ∃ before child after, values = before ++ child :: after ∧
        (∀ event ∈ before, event.predecessorEventId = none ∨
          ∃ other ∈ index.byId, Follows other event) ∧
        ((before ++ [child]).filterMap predecessorEventId).Nodup ∧
        ∃ parent ∈ index.byId, parent.ordinal.get = 2 ^ 64 - 1 ∧
          child.predecessorEventId = some parent.eventId ∧
          child.predecessorEpoch = .epoch parent.pins.epoch := by
  rw [foldlM_eq_error_iff]
  refine exists_congr fun before => exists_congr fun child => exists_congr fun after => ?_
  rw [exists_and_left]
  refine and_congr_right fun _ => ?_
  have hfilter {parent : ActivationEvent} (h : child.predecessorEventId = some parent.eventId) :
      (before ++ [child]).filterMap predecessorEventId =
        before.filterMap predecessorEventId ++ [parent.eventId] := by
    rw [filterMap_append, filterMap_cons_some h, filterMap_nil]
  constructor
  · rintro ⟨children, hlink, hchild⟩
    obtain ⟨parent, hmem, hparent, hfree, hepoch, hlast⟩ := (linkChild_overflows hnd).1 hchild
    obtain ⟨hfol, hchildren⟩ := link_eq_ok hnd hlink
    refine ⟨hfol, ?_, parent, hmem, hlast, hparent, hepoch⟩
    rw [hfilter hparent, nodup_append_comm, singleton_append, nodup_cons]
    refine ⟨fun hid => ?_, (nodup_of_link hnd hlink).1⟩
    obtain ⟨event, hev, hpred⟩ := mem_filterMap.1 hid
    have hsome := (hchildren parent.eventId event.eventId).2 (.inr ⟨event, hev, hpred, rfl⟩)
    rw [hfree] at hsome
    cases hsome
  · rintro ⟨hfol, hnodup, parent, hmem, hlast, hparent, hepoch⟩
    rw [hfilter hparent, nodup_append_comm, singleton_append, nodup_cons] at hnodup
    obtain ⟨children, hlink⟩ := exists_link hnd hfol hnodup.2 fun _ _ _ _ => rfl
    refine ⟨children, hlink, (linkChild_overflows hnd).2
      ⟨parent, hmem, hparent, Option.eq_none_iff_forall_ne_some.2 fun id hid => ?_, hepoch, hlast⟩⟩
    obtain hfalse | ⟨event, hev, hpred, -⟩ := ((link_eq_ok hnd hlink).2 _ _).1 hid
    · cases hfalse
    · exact hnodup.1 (mem_filterMap.2 ⟨event, hev, hpred⟩)

/-- After one valid root, ordering overflows exactly if linking does. -/
theorem orderEvents_overflows (hd : Distinct index.byId) :
    orderEvents index = .error .ordinalOverflow ↔
      (∃ root, index.values.filter (fun event => event.predecessorEventId = none) = [root] ∧
        root.predecessorEpoch = .empty ∧ root.ordinal.get = 1) ∧
      index.values.foldlM (linkChild index) (fun _ => none) = .error .ordinalOverflow := by
  constructor
  · intro h
    unfold orderEvents at h
    split at h
    · rename_i root hroots
      obtain hinvalid | ⟨_, hvalid, h⟩ := bind_eq_error h
      · cases (ensure_eq_error hinvalid).1
      obtain hlink | ⟨children, hlink, h⟩ := bind_eq_error h
      · exact ⟨⟨root, hroots, ensure_eq_ok.1 hvalid⟩, hlink⟩
      obtain ⟨_, -, hwalk⟩ :=
        (linked_of_link hd.event_nodup hlink).exists_walk (mem_of_roots hroots).1
      obtain hfail | ⟨_, -, h⟩ := bind_eq_error h
      · rw [hwalk] at hfail
        cases hfail
      obtain hshort | ⟨_, -, h⟩ := bind_eq_error h
      · cases (ensure_eq_error hshort).1
      · cases h
    · cases h
  · rintro ⟨⟨root, hroots, hvalid⟩, hlink⟩
    simp only [orderEvents, hroots, ensure, if_pos hvalid, bind, Except.bind, hlink]

theorem derive_overflows :
    derive workspaceId events = .error .ordinalOverflow ↔ Overflows workspaceId events := by
  constructor
  · intro h
    obtain hindex | ⟨index, hindex, h⟩ := bind_eq_error h
    · obtain ⟨_, _, -, hinsert⟩ := foldlM_eq_error hindex
      cases of_insert (P := fun failure => failure ≠ .ordinalOverflow) (fun _ h => by cases h)
        hinsert rfl
    obtain ⟨hworkspace, hdistinct, rfl⟩ := index_events_eq_ok.1 hindex
    have hd : Distinct events := hdistinct.perm events.reverse_perm
    split at h
    · cases h
    obtain hfail | ⟨_, -, h⟩ := bind_eq_error h
    · obtain ⟨⟨root, hroots, hvalid⟩, hlink⟩ := (orderEvents_overflows hdistinct).1 hfail
      rw [values_indexOf_reverse hd] at hroots hlink
      refine ⟨hworkspace, hd, ⟨root, ?_, hvalid⟩, ?_⟩
      · refine perm_singleton.1 (hroots ▸ (Perm.filter _ ?_))
        exact (perm_insertionSort _ _).symm
      · obtain ⟨before, child, after, hsplit, hfol, hnodup, parent, hmem, hparent⟩ :=
          (link_overflows hdistinct.event_nodup).1 hlink
        refine ⟨before, child, after, hsplit, fun event hev => ?_, hnodup, parent,
          mem_reverse.1 hmem, hparent⟩
        refine (hfol event hev).imp_right ?_
        rintro ⟨other, hother, h⟩
        exact ⟨other, mem_reverse.1 hother, h⟩
    · cases h
  · intro h
    have hdistinct : Distinct events.reverse := h.distinct.perm events.reverse_perm.symm
    have hindex := index_events_eq_ok.2 ⟨h.workspace, hdistinct, rfl⟩
    obtain ⟨root, hroots, hvalid⟩ := h.root
    obtain ⟨before, child, after, hsplit, hfol, hnodup, parent, hmem, hparent⟩ := h.reached
    have horder : orderEvents (indexOf events.reverse) = .error .ordinalOverflow := by
      refine (orderEvents_overflows hdistinct).2 ?_
      rw [values_indexOf_reverse h.distinct]
      refine ⟨⟨root, perm_singleton.1 (hroots ▸ Perm.filter _ (perm_insertionSort _ _)), hvalid⟩,
        (link_overflows hdistinct.event_nodup).2 ⟨before, child, after, hsplit, fun event hev => ?_,
          hnodup, parent, mem_reverse.2 hmem, hparent⟩⟩
      refine (hfol event hev).imp_right ?_
      rintro ⟨other, hother, h⟩
      exact ⟨other, mem_reverse.2 hother, h⟩
    have hnonempty : (indexOf events.reverse).byId.isEmpty = false := by
      rw [isEmpty_eq_false_iff]
      exact ne_nil_of_mem (mem_reverse.2 hmem)
    rw [derive, hindex]
    simp only [bind, Except.bind, hnonempty, horder]
    rfl

end

/-- **Derivation ends in a chain or an explicit error** exactly if the events do not make it compute
the successor of the last ordinal: that addition is made before any ordinal has been checked. -/
theorem derive_explicit_iff (workspaceId : WorkspaceId) (events : List ActivationEvent) :
    ((∃ chain, derive workspaceId events = .ok chain) ∨
      ∃ error, derive workspaceId events = .error (.error error)) ↔
    ¬Overflows workspaceId events := by
  rw [← derive_overflows]
  cases h : derive workspaceId events with
  | ok chain => simp
  | error failure =>
    have hchecked := checked_of_derive h
    cases failure with
    | error => simp
    | ordinalOverflow => simp
    | missingEvent => exact absurd rfl hchecked.1
    | diverges => exact absurd rfl hchecked.2

/-- An event at the last ordinal that names itself as its predecessor. -/
def sampleLast : ActivationEvent :=
  sampleEvent 20 (some ⟨Vector.replicate 32 20⟩) (.epoch ⟨Vector.replicate 16 20⟩)
    ⟨2 ^ 64 - 1, by decide, by decide⟩

theorem sampleLast_overflows :
    derive sampleWorkspace [sampleFirst, sampleLast] = .error .ordinalOverflow := by
  decide +kernel

end CodeFabric.Activation
