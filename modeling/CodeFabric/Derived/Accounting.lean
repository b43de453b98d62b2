import CodeFabric.Derived.Staging

/-! # Accounting of the common derived analysis

Every stage settles the units its families requested: it completes them or counts them as unknown.
-/

namespace CodeFabric.Derived

open Fallible Worklist List AnalysisState

/-! ## Loops -/

variable {α : Type} {items : List α}

theorem forEach_induct {σ : Type} {body : α → σ → σ} {P : σ → Prop} {s : σ}
    (hs : P s) (hbd : ∀ a ∈ items, ∀ s, P s → P (body a s)) : P (forEach items body s) := by
  induction items generalizing s with
  | nil => exact hs
  | cons a items ih =>
    exact ih (hbd a mem_cons_self s hs) fun b hb => hbd b (mem_cons_of_mem _ hb)

theorem forEach_cons {σ : Type} (a : α) (items : List α) (body : α → σ → σ) (s : σ) :
    forEach (a :: items) body s = forEach items body (body a s) := rfl

/-- A loop that comes to an item keeps what the item's body establishes. -/
theorem forEach_reaches {σ : Type} {body : α → σ → σ} {P Q : σ → Prop} {s : σ} {a : α}
    (ha : a ∈ items) (hs : Q s) (hQ : ∀ b s, Q s → Q (body b s)) (hP : ∀ s, Q s → P (body a s))
    (hk : ∀ b s, P s → P (body b s)) : P (forEach items body s) := by
  obtain ⟨before, after, rfl⟩ := append_of_mem ha
  have hb : Q (forEach before body s) := forEach_induct hs fun b _ => hQ b
  rw [forEach, foldl_append]
  have hafter : P (forEach after body (body a (forEach before body s))) :=
    forEach_induct (hP _ hb) fun b _ => hk b
  exact hafter

/-! ## Primitive changes of the state -/

namespace AnalysisState

variable {s : AnalysisState} {bounds : CommonAnalysisBounds} {family f : Family} (row : FactRow)
  (rows : List FactRow)

@[simp] theorem progress_insertFact : (s.insertFact row bounds).progress = s.progress := by
  unfold insertFact
  split <;> rfl

@[simp] theorem unknowns_insertFact : (s.insertFact row bounds).unknowns = s.unknowns := by
  unfold insertFact
  split <;> rfl

@[simp] theorem iterations_insertFact : (s.insertFact row bounds).iterations = s.iterations := by
  unfold insertFact
  split <;> rfl

theorem insertFacts_frame (s : AnalysisState) : (s.insertFacts rows bounds).progress = s.progress ∧
    (s.insertFacts rows bounds).unknowns = s.unknowns ∧
    (s.insertFacts rows bounds).iterations = s.iterations := by
  induction rows generalizing s with
  | nil => exact ⟨rfl, rfl, rfl⟩
  | cons row rows ih =>
    obtain ⟨hp, hu, hi⟩ := ih (s.insertFact row bounds)
    exact ⟨hp.trans (progress_insertFact row), hu.trans (unknowns_insertFact row),
      hi.trans (iterations_insertFact row)⟩

@[simp] theorem progress_insertFacts :
    (s.insertFacts rows bounds).progress = s.progress := (insertFacts_frame rows s).1

@[simp] theorem unknowns_insertFacts :
    (s.insertFacts rows bounds).unknowns = s.unknowns := (insertFacts_frame rows s).2.1

@[simp] theorem iterations_insertFacts :
    (s.insertFacts rows bounds).iterations = s.iterations := (insertFacts_frame rows s).2.2

@[simp] theorem progress_unknown (subject : Option String) (reason : String)
    (detail : Option String) (iteration : Nat) :
    (s.unknown family subject reason detail iteration).progress = s.progress := rfl

@[simp] theorem mem_unknown {row : UnknownRow} {subject : Option String} {reason : String}
    {detail : Option String} {iteration : Nat} :
    row ∈ (s.unknown family subject reason detail iteration).unknowns ↔
      row = ⟨family, subject, reason, detail, iteration⟩ ∨ row ∈ s.unknowns :=
  Finset.mem_insert

section

variable (families : List Family) (subject : Option String) (reason : String)
  (detail : Option String) (iteration : Nat)

theorem unknownAll_eq (s : AnalysisState) : s.unknownAll families subject reason detail iteration =
      { s with unknowns := s.unknowns ∪
          (families.map fun family => ⟨family, subject, reason, detail, iteration⟩).toFinset } := by
  induction families generalizing s with
  | nil => simp [unknownAll]
  | cons family families ih =>
    have hs : s.unknownAll (family :: families) subject reason detail iteration =
        (s.unknown family subject reason detail iteration).unknownAll families subject reason
          detail iteration := rfl
    rw [hs, ih]
    simp only [unknown, map_cons, toFinset_cons]
    congr 1
    ext row
    simp

@[simp] theorem progress_unknownAll :
    (s.unknownAll families subject reason detail iteration).progress = s.progress := by
  rw [unknownAll_eq]

@[simp] theorem facts_unknownAll :
    (s.unknownAll families subject reason detail iteration).facts = s.facts := by
  rw [unknownAll_eq]

@[simp] theorem iterations_unknownAll :
    (s.unknownAll families subject reason detail iteration).iterations = s.iterations := by
  rw [unknownAll_eq]

@[simp] theorem exhausted_unknownAll :
    (s.unknownAll families subject reason detail iteration).outputExhaustedFamilies =
      s.outputExhaustedFamilies := by
  rw [unknownAll_eq]

end

@[simp] theorem mem_unknownAll {row : UnknownRow} {families : List Family}
    {subject : Option String} {reason : String} {detail : Option String} {iteration : Nat} :
    row ∈ (s.unknownAll families subject reason detail iteration).unknowns ↔ row ∈ s.unknowns ∨
        ∃ family ∈ families, row = ⟨family, subject, reason, detail, iteration⟩ := by
  rw [unknownAll_eq]
  simp [eq_comm]

@[simp] theorem progress_adjust (change : Progress → Progress) :
    (s.adjust family change).progress f =
      if f = family then change (s.progress family) else s.progress f := by
  simp only [adjust, Function.update_apply]

theorem adjustAll_eq {families : List Family} (hnd : families.Nodup)
    (change : Progress → Progress) (s : AnalysisState) : s.adjustAll families change =
      { s with progress := fun f => if f ∈ families then change (s.progress f)
          else s.progress f } := by
  induction families generalizing s with
  | nil => simp [adjustAll]
  | cons family families ih =>
    have hs : s.adjustAll (family :: families) change =
        (s.adjust family change).adjustAll families change := rfl
    obtain ⟨hnot, hnd⟩ := List.nodup_cons.1 hnd
    rw [hs, ih hnd]
    simp only [adjust]
    congr 1
    funext f
    by_cases hf : f = family
    · subst hf
      simp [hnot]
    · simp [hf]

end AnalysisState

/-! ## Settling units -/

/-- A stage leaves the counters and the unknown rows of a family alone. -/
structure Frame (f : Family) (s s' : AnalysisState) : Prop where
  progress : s'.progress f = s.progress f
  unknowns : ∀ row, row.family = f → (row ∈ s'.unknowns ↔ row ∈ s.unknowns)

/-- From `s` to `s'` a family completes `n` units or counts them as unknown. -/
structure Accounts (f : Family) (n : Nat) (s s' : AnalysisState) : Prop where
  requested : (s'.progress f).requested = (s.progress f).requested
  remainder : (s'.progress f).remainder = (s.progress f).remainder
  counted : (s'.progress f).completed + (s'.progress f).unknown =
    (s.progress f).completed + (s.progress f).unknown + n
  unknown_le : (s.progress f).unknown ≤ (s'.progress f).unknown

/-- A family accounts for its units, and every new unknown row is counted. -/
structure Settles (f : Family) (n : Nat) (s s' : AnalysisState) : Prop extends
    Accounts f n s s' where
  explains : ∀ row ∈ s'.unknowns, row.family = f →
    row ∈ s.unknowns ∨ (s.progress f).unknown < (s'.progress f).unknown

variable {f : Family} {n m : Nat} {s s' s'' : AnalysisState}
  {body : α → AnalysisState → AnalysisState}

theorem Frame.refl (f : Family) (s : AnalysisState) : Frame f s s := ⟨rfl, fun _ _ => Iff.rfl⟩

theorem Frame.trans (h : Frame f s s') (h' : Frame f s' s'') : Frame f s s'' :=
  ⟨h'.progress.trans h.progress, fun row hrow => (h'.unknowns row hrow).trans (h.unknowns row hrow)⟩

theorem Frame.settles (h : Frame f s s') : Settles f 0 s s' where
  requested := by rw [h.progress]
  remainder := by rw [h.progress]
  counted := by rw [h.progress, Nat.add_zero]
  unknown_le := by rw [h.progress]
  explains row hrow hfam := .inl ((h.unknowns row hfam).1 hrow)

theorem Accounts.trans (h : Accounts f n s s') (h' : Accounts f m s' s'') :
    Accounts f (n + m) s s'' where
  requested := h'.requested.trans h.requested
  remainder := h'.remainder.trans h.remainder
  counted := by rw [h'.counted, h.counted, Nat.add_assoc]
  unknown_le := h.unknown_le.trans h'.unknown_le

theorem Settles.trans (h : Settles f n s s') (h' : Settles f m s' s'') :
    Settles f (n + m) s s'' where
  toAccounts := h.toAccounts.trans h'.toAccounts
  explains row hrow hfam := by
    obtain hrow | hlt := h'.explains row hrow hfam
    · exact (h.explains row hrow hfam).imp_right fun hlt => hlt.trans_le h'.unknown_le
    · exact .inr (h.unknown_le.trans_lt hlt)

protected theorem Frame.forEach (h : ∀ a ∈ items, ∀ s, Frame f s (body a s)) (s : AnalysisState) :
    Frame f s (forEach items body s) :=
  forEach_induct (Frame.refl f s) fun a ha _ hs => hs.trans (h a ha _)

protected theorem Settles.forEach
    {units : α → Nat} (h : ∀ a ∈ items, ∀ s, Settles f (units a) s (body a s)) (s : AnalysisState) :
    Settles f (items.map units).sum s (forEach items body s) := by
  induction items generalizing s with
  | nil => exact (Frame.refl f s).settles
  | cons a items ih =>
    rw [map_cons, sum_cons]
    exact (h a mem_cons_self s).trans (ih (fun b hb => h b (mem_cons_of_mem _ hb)) (body a s))

theorem Settles.forEach_one (h : ∀ a ∈ items, ∀ s, Settles f 1 s (body a s)) (s : AnalysisState) :
    Settles f items.length s (forEach items body s) := by
  have hl : Settles f (items.map fun _ => 1).sum s (forEach items body s) := .forEach h s
  rwa [map_const', sum_replicate, smul_eq_mul, mul_one] at hl

theorem Settles.completed (hp : s'.progress f = (s.progress f).addCompleted n)
    (hu : ∀ row ∈ s'.unknowns, row.family = f → row ∈ s.unknowns) : Settles f n s s' where
  requested := by rw [hp]; rfl
  remainder := by rw [hp]; rfl
  counted := by rw [hp]; exact Nat.add_right_comm _ _ _
  unknown_le := by rw [hp]; exact le_rfl
  explains row hrow hfam := .inl (hu row hrow hfam)

theorem accounts_unknown (hp : s'.progress f = (s.progress f).addUnknown n) :
    Accounts f n s s' where
  requested := by rw [hp]; rfl
  remainder := by rw [hp]; rfl
  counted := by rw [hp]; exact (Nat.add_assoc _ _ _).symm
  unknown_le := by rw [hp]; exact Nat.le_add_right _ _

protected theorem Settles.unknown (hp : s'.progress f = (s.progress f).addUnknown n) (hn : 0 < n) :
    Settles f n s s' where
  toAccounts := accounts_unknown hp
  explains _ _ _ := .inr (by rw [hp]; exact Nat.lt_add_of_pos_right hn)

protected theorem Settles.ite {c : Prop} [Decidable c] (h : c → Settles f n s s')
    (hn : ¬c → Frame f s s') : Settles f (if c then n else 0) s s' := by
  split
  · exact h ‹c›
  · exact (hn ‹¬c›).settles

/-! ## Control-flow families -/

section

variable {lib : Libraries} {bounds : CommonAnalysisBounds} {nodes : List CommonCfgNode}
  {edges : List CommonCfgEdge} {complete : Bool} {owner : String}
  {input : CommonDerivedAnalysisInput}

protected theorem Settles.deriveDominance (family : Family) (gap owner : String)
    (dominators : Dominators)
    (node : CommonCfgNode) (s : AnalysisState) :
    Settles family 1 s (deriveDominance family gap owner complete dominators bounds node s) := by
  unfold deriveDominance
  split
  · exact .unknown (by simp) Nat.one_pos
  · exact .completed (by simp) fun _ hrow _ => by simpa [adjust] using hrow

protected theorem Frame.deriveDominance {family : Family} (hf : f ≠ family) (gap owner : String)
    (dominators : Dominators) (node : CommonCfgNode) (s : AnalysisState) :
    Frame f s (deriveDominance family gap owner complete dominators bounds node s) := by
  unfold deriveDominance
  split
  · refine ⟨by simp [hf], fun row hrow => ?_⟩
    simp only [adjust, mem_unknown]
    exact or_iff_right fun h => hf (by rw [← hrow, h])
  · exact ⟨by simp [hf], fun row hrow => by simp [adjust]⟩

protected theorem Settles.deriveControl (post : Dominators) (nodeCount : Nat) (edge : CommonCfgEdge)
    (s : AnalysisState) :
    Settles .controlDependence 1 s (deriveControl complete post nodeCount bounds edge s) :=
  .completed (by simp [deriveControl]) fun _ hrow _ => by simpa [deriveControl, adjust] using hrow

protected theorem Frame.deriveControl (hf : f ≠ .controlDependence) (post : Dominators)
    (nodeCount : Nat)
    (edge : CommonCfgEdge) (s : AnalysisState) :
    Frame f s (deriveControl complete post nodeCount bounds edge s) :=
  ⟨by simp [deriveControl, hf], fun _ _ => by simp [deriveControl, adjust]⟩

def ownerUnits (nodes : List CommonCfgNode) (edges : List CommonCfgEdge) (owner : String) :
    Family → Nat
  | .dominator | .postDominator => (ownerNodes nodes owner).length
  | .controlDependence => (ownerEdges edges owner).length
  | _ => 0

theorem Settles.dominanceLoop (f family : Family) (gap owner : String) (dominators : Dominators)
    (items : List CommonCfgNode) (s : AnalysisState) :
    Settles f (if f = family then items.length else 0) s
      (forEach items (deriveDominance family gap owner complete dominators bounds) s) := by
  refine .ite (fun hf => ?_) fun hf => .forEach (fun node _ s => .deriveDominance hf _ _ _ node s) s
  subst hf
  exact .forEach_one (fun node _ s => .deriveDominance _ _ _ _ node s) s

theorem Settles.controlLoop (f : Family) (post : Dominators) (nodeCount : Nat)
    (items : List CommonCfgEdge) (s : AnalysisState) :
    Settles f (if f = .controlDependence then items.length else 0) s
      (forEach items (deriveControl complete post nodeCount bounds) s) := by
  refine .ite (fun hf => ?_) fun hf => .forEach (fun edge _ s => .deriveControl hf _ _ edge s) s
  subst hf
  exact .forEach_one (fun edge _ s => .deriveControl _ _ edge s) s

/-- What is said about an owner without one entry and an exit. -/
def unrootedDetail (nodes : List CommonCfgNode) (owner : String) : String :=
  let entryCount := ((ownerNodes nodes owner).filter (·.isEntry)).length
  let exitCount := ((ownerNodes nodes owner).filter (·.isExit)).length
  s!"entry_count={entryCount} exit_count={exitCount}"

def unrootedState (nodes : List CommonCfgNode) (edges : List CommonCfgEdge) (owner : String)
    (s : AnalysisState) : AnalysisState :=
  let s := s.unknownAll cfgFamilies (some owner) "CFG_ROOT_OR_EXIT_UNKNOWN"
    (some (unrootedDetail nodes owner)) 0
  let s := s.adjust .dominator (·.addUnknown (ownerNodes nodes owner).length)
  let s := s.adjust .postDominator (·.addUnknown (ownerNodes nodes owner).length)
  s.adjust .controlDependence (·.addUnknown (ownerEdges edges owner).length)

/-- What deriving an owner does: it records that the owner has no root or no exit, or it derives the
dominators, the post-dominators and the control dependences in turn. -/
theorem deriveOwner_eq_ok (h : deriveOwner lib complete nodes edges bounds s owner = .ok s') :
    (¬Rooted (ownerNodes nodes owner) ∧ s' = unrootedState nodes edges owner s) ∨
      (Rooted (ownerNodes nodes owner) ∧ ∃ dominators post, s' = forEach (ownerEdges edges owner)
          (deriveControl complete post (ownerNodes nodes owner).length bounds)
          (forEach (ownerNodes nodes owner)
            (deriveDominance .postDominator "CFG_NODE_CANNOT_REACH_EXIT" owner complete post bounds)
            (forEach (ownerNodes nodes owner) (deriveDominance .dominator
              "CFG_NODE_UNREACHABLE_FROM_ENTRY" owner complete dominators bounds) s))) := by
  unfold deriveOwner at h
  by_cases hr : Rooted (ownerNodes nodes owner)
  · simp only [hr, not_true_eq_false, if_false, ok_iff] at h
    obtain ⟨_, _, rfl⟩ := h
    exact .inr ⟨hr, _, _, rfl⟩
  · simp only [hr, not_false_eq_true, if_true, Except.ok.injEq] at h
    exact .inl ⟨hr, h.symm⟩

theorem progress_unrootedState (owner : String) (s : AnalysisState) (f : Family) :
    (unrootedState nodes edges owner s).progress f =
      (s.progress f).addUnknown (ownerUnits nodes edges owner f) := by
  cases f <;> simp [unrootedState, ownerUnits, Progress.addUnknown]

theorem mem_unrootedState {s : AnalysisState} {row : UnknownRow} :
    row ∈ (unrootedState nodes edges owner s).unknowns ↔
      row ∈ s.unknowns ∨ ∃ family ∈ cfgFamilies, row = ⟨family, some owner,
        "CFG_ROOT_OR_EXIT_UNKNOWN", some (unrootedDetail nodes owner), 0⟩ := by
  simp [unrootedState, adjust]

theorem Settles.rooted (hr : Rooted (ownerNodes nodes owner))
    (h : deriveOwner lib complete nodes edges bounds s owner = .ok s') (f : Family) :
    Settles f (ownerUnits nodes edges owner f) s s' := by
  obtain ⟨hnot, _⟩ | ⟨_, dominators, post, rfl⟩ := deriveOwner_eq_ok h
  · exact absurd hr hnot
  · have hun : ownerUnits nodes edges owner f =
        (if f = .dominator then (ownerNodes nodes owner).length else 0) +
          (if f = .postDominator then (ownerNodes nodes owner).length else 0) +
          (if f = .controlDependence then (ownerEdges edges owner).length else 0) := by
      cases f <;> simp [ownerUnits]
    rw [hun]
    exact ((Settles.dominanceLoop f _ _ owner dominators _ s).trans
      (.dominanceLoop f _ _ owner post _ _)).trans (.controlLoop f post _ _ _)

theorem accounts_deriveOwner (h : deriveOwner lib complete nodes edges bounds s owner = .ok s')
    (f : Family) : Accounts f (ownerUnits nodes edges owner f) s s' := by
  by_cases hrt : Rooted (ownerNodes nodes owner)
  · exact (Settles.rooted hrt h f).toAccounts
  · obtain ⟨_, rfl⟩ | ⟨hroot, _⟩ := deriveOwner_eq_ok h
    · exact accounts_unknown (progress_unrootedState owner s f)
    · exact absurd hroot hrt

protected theorem Frame.deriveOwner (hf : f ∉ cfgFamilies)
    (h : deriveOwner lib complete nodes edges bounds s owner = .ok s') : Frame f s s' := by
  have hne : f ≠ .dominator ∧ f ≠ .postDominator ∧ f ≠ .controlDependence := by
    simpa [cfgFamilies] using hf
  obtain ⟨_, rfl⟩ | ⟨_, _, _, rfl⟩ := deriveOwner_eq_ok h
  · refine ⟨?_, fun _ hrow => ?_⟩
    · cases f <;> simp_all [progress_unrootedState, ownerUnits, Progress.addUnknown]
    · rw [mem_unrootedState]
      refine or_iff_left ?_
      rintro ⟨_, hfam, rfl⟩
      exact hf (hrow ▸ hfam)
  · exact ((Frame.forEach (fun node _ s => .deriveDominance hne.1 _ _ _ node s) s).trans
      (.forEach (fun node _ s => .deriveDominance hne.2.1 _ _ _ node s) _)).trans
      (.forEach (fun edge _ s => .deriveControl hne.2.2 _ _ edge s) _)

theorem foldlM_accumulates {σ ε : Type} {R : Nat → σ → σ → Prop} (hrf : ∀ a, R 0 a a)
    (ht : ∀ {k l : Nat} {a b c : σ}, R k a b → R l b c → R (k + l) a c) {units : α → Nat}
    {items : List α} {body : σ → α → Except ε σ} {first last : σ}
    (hbd : ∀ a ∈ items, ∀ b c, body b a = .ok c → R (units a) b c)
    (h : items.foldlM body first = .ok last) : R (items.map units).sum first last := by
  induction items generalizing first with
  | nil =>
    cases h
    exact hrf _
  | cons a items ih =>
    rw [foldlM_cons, bind_eq_ok] at h
    obtain ⟨middle, hfst, hrs⟩ := h
    rw [map_cons, sum_cons]
    exact ht (hbd a mem_cons_self first middle hfst)
      (ih (fun b hb => hbd b (mem_cons_of_mem _ hb)) hrs)

theorem foldlM_induct {σ ε : Type} {P : σ → Prop} {items : List α} {body : σ → α → Except ε σ}
    {first last : σ} (hfst : P first) (hbd : ∀ a ∈ items, ∀ b c, body b a = .ok c → P b → P c)
    (h : items.foldlM body first = .ok last) : P last := by
  induction items generalizing first with
  | nil =>
    cases h
    exact hfst
  | cons a items ih =>
    rw [foldlM_cons, bind_eq_ok] at h
    obtain ⟨middle, hs, hr⟩ := h
    exact ih (hbd a mem_cons_self first middle hs hfst)
      (fun b hb => hbd b (mem_cons_of_mem _ hb)) hr

theorem sum_ownerUnits (hed : ∀ edge ∈ edges, edge.ownerId ∈ nodes.map (·.ownerId)) :
    ((cfgOwners nodes).map fun owner => ownerUnits nodes edges owner .dominator).sum =
        nodes.length ∧
      ((cfgOwners nodes).map fun owner => ownerUnits nodes edges owner .postDominator).sum =
        nodes.length ∧
      ((cfgOwners nodes).map fun owner => ownerUnits nodes edges owner .controlDependence).sum =
        edges.length := by
  have hnd : ∑ owner ∈ (nodes.map (·.ownerId)).toFinset, (ownerNodes nodes owner).length =
      nodes.length := by
    simp only [ownerNodes, length_insertionSort]
    exact sum_length_filter CommonCfgNode.ownerId _ nodes fun _ hnode =>
      List.mem_toFinset.2 (mem_map_of_mem hnode)
  refine ⟨(sum_inOrder _ _).trans hnd, (sum_inOrder _ _).trans hnd, (sum_inOrder _ _).trans ?_⟩
  exact sum_length_filter CommonCfgEdge.ownerId _ edges fun edge hedge =>
    List.mem_toFinset.2 (hed edge hedge)

/-- The units of a family are all settled, and none is a remainder. -/
def Settled (f : Family) (s : AnalysisState) : Prop :=
  (s.progress f).requested = (s.progress f).completed + (s.progress f).unknown ∧
    (s.progress f).remainder = 0

theorem Accounts.settled {requested : Nat} (h : Accounts f n s s')
    (hp : s.progress f = .requesting requested) (hn : n = requested) : Settled f s' := by
  have hrqd := h.requested
  have hrem := h.remainder
  have hct := h.counted
  rw [hp] at hrqd hrem hct
  refine ⟨?_, hrem⟩
  rw [hrqd, hct, hn]
  exact (Nat.zero_add _).symm

theorem progress_requestCfg (s : AnalysisState) :
    ((requestCfg input edges s).progress .dominator = .requesting input.cfgNodes.length ∧
      (requestCfg input edges s).progress .postDominator = .requesting input.cfgNodes.length ∧
      (requestCfg input edges s).progress .controlDependence = .requesting edges.length) := by
  simp [requestCfg, adjustAll]

/-- The control-flow graph is larger than the bounds allow. -/
def CfgExceeds (input : CommonDerivedAnalysisInput) (edges : List CommonCfgEdge)
    (bounds : CommonAnalysisBounds) : Prop :=
  bounds.maxCfgNodes < input.cfgNodes.length ∨ bounds.maxCfgEdges < edges.length

/-- What the control-flow stage does: it gives up on a graph that is too large, or derives the
owners in turn. -/
theorem deriveCfgFamilies_eq_ok (h : deriveCfgFamilies lib input edges bounds s = .ok s') :
    (CfgExceeds input edges bounds ∧ ∃ detail, s' =
        ((requestCfg input edges s).unknownAll cfgFamilies none "CFG_RESOURCE_BOUND_EXHAUSTED"
          (some detail) 0).adjustAll cfgFamilies
            fun progress => { progress with unknown := progress.requested }) ∨
      (¬CfgExceeds input edges bounds ∧ (cfgOwners input.cfgNodes).foldlM
        (deriveOwner lib (input.covers .cfg) input.cfgNodes edges bounds)
          (requestCfg input edges s) = .ok s') := by
  unfold deriveCfgFamilies at h
  by_cases hexc : CfgExceeds input edges bounds
  · have hcon := hexc
    unfold CfgExceeds at hcon
    simp only [hcon, if_true, Except.ok.injEq] at h
    exact .inl ⟨hexc, _, h.symm⟩
  · have hcon := hexc
    unfold CfgExceeds at hcon
    simp only [hcon, if_false] at h
    exact .inr ⟨hexc, h⟩

protected theorem Frame.requestCfg (hf : f ∉ cfgFamilies) (s : AnalysisState) :
    Frame f s (requestCfg input edges s) := by
  have hne : f ≠ .dominator ∧ f ≠ .postDominator ∧ f ≠ .controlDependence := by
    simpa [cfgFamilies] using hf
  exact ⟨by simp [requestCfg, adjustAll, hne], fun _ _ => by simp [requestCfg, adjustAll, adjust]⟩

protected theorem Frame.deriveCfgFamilies (hf : f ∉ cfgFamilies)
    (h : deriveCfgFamilies lib input edges bounds s = .ok s') : Frame f s s' := by
  obtain ⟨_, _, rfl⟩ | ⟨_, h⟩ := deriveCfgFamilies_eq_ok h
  · have hreq : Frame f s (requestCfg input edges s) := .requestCfg hf s
    refine hreq.trans ⟨?_, fun _ hrow => ?_⟩
    · rw [adjustAll_eq (by decide)]
      simp [hf]
    · rw [adjustAll_eq (by decide), mem_unknownAll]
      refine or_iff_left ?_
      rintro ⟨_, hfam, rfl⟩
      exact hf (hrow ▸ hfam)
  · exact foldlM_induct (P := Frame f s) (.requestCfg hf s)
      (fun _ _ _ _ hst hs => hs.trans (.deriveOwner hf hst)) h

/-- **The control-flow stage settles its families.** -/
theorem settled_deriveCfgFamilies (hf : f ∈ cfgFamilies)
    (he : ∀ edge ∈ edges, edge.ownerId ∈ input.cfgNodes.map (·.ownerId))
    (h : deriveCfgFamilies lib input edges bounds s = .ok s') : Settled f s' := by
  obtain ⟨hdom, hp, hcon⟩ :
      _ ∧ _ ∧ (requestCfg input edges s).progress .controlDependence = _ := progress_requestCfg s
  obtain ⟨_, _, rfl⟩ | ⟨_, h⟩ := deriveCfgFamilies_eq_ok h
  · rw [Settled, adjustAll_eq (by decide)]
    simp only [hf, if_true, progress_unknownAll]
    simp only [cfgFamilies, mem_cons, not_mem_nil, or_false] at hf
    obtain rfl | rfl | rfl := hf <;> simp [*, Progress.requesting]
  · obtain ⟨hsm, hsump, hsumc⟩ := sum_ownerUnits he
    have hl : Accounts f ((cfgOwners input.cfgNodes).map fun owner =>
        ownerUnits input.cfgNodes edges owner f).sum (requestCfg input edges s) s' :=
      foldlM_accumulates (fun s => (Frame.refl f s).settles.toAccounts)
        (fun h h' => h.trans h') (fun owner _ s s' hst => accounts_deriveOwner hst f) h
    simp only [cfgFamilies, mem_cons, not_mem_nil, or_false] at hf
    obtain rfl | rfl | rfl := hf
    · exact hl.settled hdom hsm
    · exact hl.settled hp hsump
    · exact hl.settled hcon hsumc

end

end CodeFabric.Derived
