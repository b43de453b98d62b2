import CodeFabric.Budget.Exactness
import CodeFabric.Query.Operation
import Mathlib.Data.List.MinMax
import Mathlib.Data.Prod.Lex

/-! # Workspace work scheduler

The queue and the dispatch of `fabric/child_session/resource_governance.rs`: work classes with a
priority that ages, principals that take turns within a class, slots kept for some classes, and a
budget that is asked after a class was selected.

**`FairClassQueue`**, **`SchedulerState`** and **`dispatchLocked`** follow the source; everything
happens under the scheduler's lock, so a run is a list of **`Operation`**s. A waiter that nobody
awaits any more is one whose permit cannot be sent. -/

namespace CodeFabric.Work

open List

open Command (PrincipalId)
open Budget (ResourceClass ResourceAmounts)
open TreeMaps

/-! ## Classes and policies -/

inductive EpochWorkClass
  | securityRecovery | sourceReconciliation | strictCurrentUpdate | sourceUpdate
  | interactiveQuery | semanticDerived | durableFlushArtifact | maintenance
  deriving DecidableEq, Repr

def EpochWorkClass.all : List EpochWorkClass :=
  [.securityRecovery, .sourceReconciliation, .strictCurrentUpdate, .sourceUpdate,
    .interactiveQuery, .semanticDerived, .durableFlushArtifact, .maintenance]

theorem EpochWorkClass.mem_all (workClass : EpochWorkClass) : workClass ∈ all := by
  cases workClass <;> decide

instance : Fintype EpochWorkClass := ⟨⟨EpochWorkClass.all, by decide⟩, EpochWorkClass.mem_all⟩

def EpochWorkClass.protocolIndex (workClass : EpochWorkClass) : Nat := all.idxOf workClass

/-- The rank of a class, lower ranks first, and whether it may use the reserved slots. -/
structure EpochWorkClassPolicy where
  priorityRank : Nat
  reservedHeadroomEligible : Bool

/-- A policy that `try_new` accepts, as far as scheduling is concerned. -/
structure EpochResourcePolicy where
  workClassPolicy : EpochWorkClass → EpochWorkClassPolicy
  maxConcurrentWork : Nat
  reservedUpdateSlots : Nat
  maxQueuedWork : Nat
  agingGrantsPerPriorityStep : Nat
  rank_lt : ∀ workClass, (workClassPolicy workClass).priorityRank < EpochWorkClass.all.length
  rank_injective : Function.Injective fun workClass => (workClassPolicy workClass).priorityRank
  reserved_lt : reservedUpdateSlots < maxConcurrentWork
  queued_pos : 0 < maxQueuedWork
  aging_pos : 0 < agingGrantsPerPriorityStep
  eligible : 0 < reservedUpdateSlots →
    ∃ workClass, (workClassPolicy workClass).reservedHeadroomEligible = true

open EpochResourcePolicy

/-- Recovery is charged to the control headroom, everything else to data. -/
def resourceClass (workClass : EpochWorkClass) : ResourceClass :=
  if workClass = .securityRecovery then .control else .data

/-- What the scheduler asks of a budget: a reservation of a running job and one of a queued job,
each given back when its owner is dropped. -/
structure WorkBudget (β : Type) where
  tryReserve : β → ResourceClass → Option β
  release : β → ResourceClass → β
  tryQueue : β → ResourceClass → Option β
  dequeue : β → ResourceClass → β

/-! ## Queues -/

structure Waiter where
  id : Nat
  principalId : PrincipalId
  enqueueSequence : Nat
  /-- Its receiver is alive, so that a permit can be sent. -/
  awaited : Bool
  deriving DecidableEq

/-- The waiters of a class by principal, and the principals in turn. -/
structure FairClassQueue where
  byPrincipal : Std.ExtTreeMap PrincipalId (List Waiter)
  principalRing : List PrincipalId

namespace FairClassQueue

variable (queue : FairClassQueue)

def push (waiter : Waiter) : FairClassQueue where
  byPrincipal := queue.byPrincipal.insert waiter.principalId
    (queue.byPrincipal.getD waiter.principalId [] ++ [waiter])
  principalRing := if (queue.byPrincipal.getD waiter.principalId []).isEmpty
    then queue.principalRing ++ [waiter.principalId] else queue.principalRing

def oldestSequence : Option Nat :=
  (queue.byPrincipal.toList.filterMap fun entry => entry.2.head?.map Waiter.enqueueSequence).min?

/-- The loop of `pop_fair` over the ring. -/
def popRing (queues : Std.ExtTreeMap PrincipalId (List Waiter)) :
    List PrincipalId → Option Waiter × FairClassQueue
  | [] => (none, ⟨queues, []⟩)
  | principal :: ring =>
    match queues[principal]? with
    | none => popRing queues ring
    | some [] => popRing (queues.erase principal) ring
    | some [waiter] => (some waiter, ⟨queues.erase principal, ring⟩)
    | some (waiter :: next :: rest) =>
      (some waiter, ⟨queues.insert principal (next :: rest), ring ++ [principal]⟩)

/-- The first waiter of the next principal in turn. -/
def popFair : Option Waiter × FairClassQueue :=
  popRing queue.byPrincipal queue.principalRing

def remove (waiterId : Nat) : Option FairClassQueue :=
  match queue.byPrincipal.toList.find? fun entry => entry.2.any fun waiter => waiter.id == waiterId
      with
  | none => none
  | some (principal, waiters) =>
    let rest := waiters.eraseP fun waiter => waiter.id == waiterId
    if rest.isEmpty then
      some ⟨queue.byPrincipal.erase principal, queue.principalRing.filter fun queued =>
        queued ≠ principal⟩
    else some { queue with byPrincipal := queue.byPrincipal.insert principal rest }

def abandon (waiterId : Nat) : FairClassQueue :=
  { queue with
    byPrincipal := queue.byPrincipal.map fun _ waiters => waiters.map fun waiter =>
      if waiter.id = waiterId then { waiter with awaited := false } else waiter }

def size : Nat := total List.length queue.byPrincipal

end FairClassQueue

/-! ## Dispatch -/

structure SchedulerState where
  queues : EpochWorkClass → FairClassQueue
  queuedWork : Nat
  activeWork : Nat
  activeNonReserved : Nat
  nextWaiterId : Nat
  dispatchSequence : Nat
  nextClassIndex : Nat

def SchedulerState.initial : SchedulerState :=
  ⟨fun _ => ⟨∅, []⟩, 0, 0, 0, 1, 0, 0⟩

def SchedulerState.setQueue (state : SchedulerState) (workClass : EpochWorkClass)
    (queue : FairClassQueue) : SchedulerState :=
  { state with queues := Function.update state.queues workClass queue }

namespace EpochResourcePolicy

variable (policy : EpochResourcePolicy) (state : SchedulerState)

def classHasCapacity (workClass : EpochWorkClass) : Bool :=
  decide (state.activeWork < policy.maxConcurrentWork) &&
    ((policy.workClassPolicy workClass).reservedHeadroomEligible ||
      decide (state.activeNonReserved < policy.maxConcurrentWork - policy.reservedUpdateSlots))

/-- The effective priority of a class whose oldest waiter is known, and its place in the rotation.
-/
def selectionKey (workClass : EpochWorkClass) (oldest : Nat) : ℕ ×ₗ ℕ :=
  let ageSteps := (state.dispatchSequence - oldest) / policy.agingGrantsPerPriorityStep
  toLex ((policy.workClassPolicy workClass).priorityRank - min ageSteps 255,
    (workClass.protocolIndex + EpochWorkClass.all.length - state.nextClassIndex) %
      EpochWorkClass.all.length)

/-- The first class with the least key, among those with capacity and a waiter. -/
def selectClass : Option EpochWorkClass :=
  let candidates := (EpochWorkClass.all.filter (policy.classHasCapacity state)).filterMap
    fun workClass => (state.queues workClass).oldestSequence.map fun oldest =>
      (policy.selectionKey state workClass oldest, workClass)
  (candidates.argmin Prod.fst).map Prod.snd

def activate (workClass : EpochWorkClass) : SchedulerState :=
  { state with
    queuedWork := state.queuedWork - 1
    activeWork := state.activeWork + 1
    activeNonReserved := if (policy.workClassPolicy workClass).reservedHeadroomEligible
      then state.activeNonReserved else state.activeNonReserved + 1
    dispatchSequence := min (state.dispatchSequence + 1) (2 ^ 64 - 1)
    nextClassIndex := (workClass.protocolIndex + 1) % EpochWorkClass.all.length }

def releaseActiveLocked (workClass : EpochWorkClass) : SchedulerState :=
  { state with
    activeWork := state.activeWork - 1
    activeNonReserved := if (policy.workClassPolicy workClass).reservedHeadroomEligible
      then state.activeNonReserved else state.activeNonReserved - 1 }

variable {β : Type} (budget : WorkBudget β)

/-- The loop of `dispatch_locked`; every round that goes on takes a waiter out of its queue. -/
def dispatchRounds : Nat → SchedulerState → β → SchedulerState × β
  | 0, state, held => (state, held)
  | rounds + 1, state, held =>
    if state.activeWork < policy.maxConcurrentWork then
      match policy.selectClass state with
      | none => (state, held)
      | some workClass =>
        match budget.tryReserve held (resourceClass workClass) with
        | none => (state, held)
        | some reserved =>
          match (state.queues workClass).popFair with
          | (none, queue) =>
            (state.setQueue workClass queue, budget.release reserved (resourceClass workClass))
          | (some waiter, queue) =>
            let active := policy.activate (state.setQueue workClass queue) workClass
            if waiter.awaited then
              dispatchRounds rounds active (budget.dequeue reserved (resourceClass workClass))
            else
              -- the permit comes back and is dropped under the lock
              dispatchRounds rounds (policy.releaseActiveLocked active workClass)
                (budget.dequeue (budget.release reserved (resourceClass workClass))
                  (resourceClass workClass))
    else (state, held)

end EpochResourcePolicy

def SchedulerState.waiting (state : SchedulerState) : Nat :=
  ∑ workClass, (state.queues workClass).size

def EpochResourcePolicy.dispatchLocked {β : Type} (policy : EpochResourcePolicy)
    (budget : WorkBudget β) (state : SchedulerState) (held : β) : SchedulerState × β :=
  policy.dispatchRounds budget (state.waiting + 1) state held

/-! ## Runs -/

/-- What happens under the scheduler's lock, and what others do to the budget. -/
inductive Operation (β : Type)
  | enqueue (principalId : PrincipalId) (workClass : EpochWorkClass)
  | abandon (waiterId : Nat)
  | remove (waiterId : Nat)
  | release (workClass : EpochWorkClass)
  | dispatch
  | budget (held : β)

variable {β : Type}

/-- The part of `admit` under the lock, up to its dispatch. -/
def EpochResourcePolicy.enqueue (policy : EpochResourcePolicy) (budget : WorkBudget β)
    (principalId : PrincipalId) (workClass : EpochWorkClass) (state : SchedulerState) (held : β) :
    SchedulerState × β :=
  if policy.maxQueuedWork ≤ state.queuedWork ∨ 2 ^ 64 ≤ state.nextWaiterId + 1 then (state, held)
  else
    let numbered := { state with nextWaiterId := state.nextWaiterId + 1 }
    match budget.tryQueue held (resourceClass workClass) with
    | none => (numbered, held)
    | some queued =>
      let waiter := ⟨state.nextWaiterId, principalId, state.dispatchSequence, true⟩
      ({ numbered.setQueue workClass ((state.queues workClass).push waiter) with
        queuedWork := state.queuedWork + 1 }, queued)

def SchedulerState.removeWaiter (state : SchedulerState) (waiterId : Nat) : SchedulerState :=
  match EpochWorkClass.all.findSome? fun workClass =>
      ((state.queues workClass).remove waiterId).map (workClass, ·) with
  | none => state
  | some (workClass, queue) =>
    { state.setQueue workClass queue with queuedWork := state.queuedWork - 1 }

def EpochResourcePolicy.perform (policy : EpochResourcePolicy) (budget : WorkBudget β) :
    SchedulerState × β → Operation β → SchedulerState × β
  | (state, held), .enqueue principalId workClass =>
    policy.enqueue budget principalId workClass state held
  | (state, held), .abandon waiterId =>
    ({ state with queues := fun workClass => (state.queues workClass).abandon waiterId }, held)
  | (state, held), .remove waiterId => (state.removeWaiter waiterId, held)
  | (state, held), .release workClass => (policy.releaseActiveLocked state workClass, held)
  | (state, held), .dispatch => policy.dispatchLocked budget state held
  | (state, _), .budget held => (state, held)

/-! ## Rings -/

namespace FairClassQueue

variable {queue : FairClassQueue} {waiter : Waiter} {principal : PrincipalId}

/-- The principals in turn are exactly those with waiters, each once. -/
structure Sound (queue : FairClassQueue) : Prop where
  nodup : queue.principalRing.Nodup
  mem_ring : ∀ principal : PrincipalId, principal ∈ queue.principalRing ↔
    queue.byPrincipal[principal]?.isSome
  nonempty : ∀ (principal : PrincipalId) waiters,
    queue.byPrincipal[principal]? = some waiters → waiters ≠ []

theorem sound_empty : Sound ⟨∅, []⟩ := ⟨nodup_nil, by simp, by simp⟩

/-- A change of one principal's waiters and place keeps a queue sound if it does at the principal.
-/
theorem Sound.update (h : queue.Sound) {queues : Std.ExtTreeMap PrincipalId (List Waiter)}
    {ring : List PrincipalId} (principal : PrincipalId) (hnd : ring.Nodup)
    (hs : principal ∈ ring ↔ queues[principal]?.isSome)
    (hnon : ∀ waiters, queues[principal]? = some waiters → waiters ≠ [])
    (hr : ∀ other, other ≠ principal → (other ∈ ring ↔ other ∈ queue.principalRing))
    (hq : ∀ other : PrincipalId, other ≠ principal →
      queues[other]? = queue.byPrincipal[other]?) : Sound ⟨queues, ring⟩ := by
  refine ⟨hnd, fun other => ?_, fun other waiters hfd => ?_⟩
  · by_cases heq : other = principal
    · exact heq ▸ hs
    · exact (hr other heq).trans ((h.mem_ring other).trans (by rw [hq other heq]))
  · by_cases heq : other = principal
    · exact hnon waiters (heq ▸ hfd)
    · exact h.nonempty other waiters ((hq other heq).symm.trans hfd)

theorem Sound.push (h : queue.Sound) : (queue.push waiter).Sound := by
  have hr := h.mem_ring waiter.principalId
  have hlk : ∀ other : PrincipalId, other ≠ waiter.principalId → ∀ waiters,
      (queue.byPrincipal.insert waiter.principalId waiters)[other]? = queue.byPrincipal[other]? :=
    fun other ho waiters => by rw [getElem?_insert_eq, if_neg (Ne.symm ho)]
  rw [FairClassQueue.push, Std.ExtTreeMap.getD_eq_getD_getElem?]
  cases hfd : queue.byPrincipal[waiter.principalId]? with
  | none =>
    have hnew : waiter.principalId ∉ queue.principalRing := by simpa [hfd] using hr
    refine h.update waiter.principalId ?_ (by simp) (by simp) (fun other ho => ?_) fun other
      ho => hlk other ho _
    · exact List.nodup_append.2 ⟨h.nodup, nodup_singleton _,
        fun _ hmem _ heq => by rintro rfl; exact hnew (List.mem_singleton.1 heq ▸ hmem)⟩
    · simp [ho]
  | some waiters =>
    rw [Option.getD_some, List.isEmpty_eq_false_iff.2 (h.nonempty _ _ hfd)]
    refine h.update waiter.principalId h.nodup (by simpa [hfd] using hr) (by simp)
      (fun _ _ => Iff.rfl) fun other ho => hlk other ho _

/-- **A sound queue gives its next waiter**, unless it has none. -/
theorem Sound.pop (h : queue.Sound) (hne : queue.principalRing ≠ []) :
    ∃ waiter next, queue.popFair = (some waiter, next) ∧ next.Sound ∧ next.size < queue.size := by
  obtain ⟨queues, ring⟩ := queue
  obtain ⟨principal, ring, rfl⟩ := exists_cons_of_ne_nil hne
  obtain ⟨waiters, hfd⟩ := Option.isSome_iff_exists.1 ((h.mem_ring principal).1 mem_cons_self)
  obtain ⟨hnt, hnd⟩ := List.nodup_cons.1 h.nodup
  have hr : ∀ other, other ≠ principal → (other ∈ ring ↔ other ∈ principal :: ring) :=
    fun other ho => by simp [ho]
  rw [popFair, popRing]
  cases waiters with
  | nil => exact absurd rfl (h.nonempty _ _ hfd)
  | cons waiter rest =>
    cases rest with
    | nil =>
      refine ⟨waiter, ⟨queues.erase principal, ring⟩, by rw [hfd], ?_, ?_⟩
      · exact h.update principal hnd (by simpa using hnt) (by simp) hr
          fun other ho => by rw [getElem?_erase_eq, if_neg (Ne.symm ho)]
      · have hs := total_erase (f := length) hfd
        simp only [size, length_singleton] at hs ⊢
        omega
    | cons following rest =>
      refine ⟨waiter, ⟨queues.insert principal (following :: rest), ring ++ [principal]⟩,
        by rw [hfd], ?_, ?_⟩
      · refine h.update principal ?_ (by simp) (by simp) (fun other ho => ?_)
          fun other ho => by rw [getElem?_insert_eq, if_neg (Ne.symm ho)]
        · exact List.nodup_append.2 ⟨hnd, nodup_singleton _,
            fun _ hmem _ heq => by rintro rfl; exact hnt (List.mem_singleton.1 heq ▸ hmem)⟩
        · simp [ho]
      · have hs := total_insert (f := length) (v := following :: rest) hfd
        simp only [size, length_cons] at hs ⊢
        omega

theorem Sound.remove (h : queue.Sound) {waiterId : Nat} {next : FairClassQueue}
    (hrm : queue.remove waiterId = some next) : next.Sound := by
  rw [FairClassQueue.remove] at hrm
  split at hrm
  next => cases hrm
  next principal waiters hfn =>
    have hfd : queue.byPrincipal[principal]? = some waiters :=
      Std.ExtTreeMap.mem_toList_iff_getElem?_eq_some.1 (mem_of_find?_eq_some hfn)
    simp only at hrm
    split at hrm <;> cases hrm
    next =>
      refine h.update principal (h.nodup.filter _) (by simp) (by simp) (fun other ho => ?_)
        fun other ho => by rw [getElem?_erase_eq, if_neg (Ne.symm ho)]
      simp [ho]
    next hrs =>
      refine h.update principal h.nodup ?_ ?_ (fun _ _ => Iff.rfl)
        fun other ho => by rw [getElem?_insert_eq, if_neg (Ne.symm ho)]
      · simpa [hfd] using h.mem_ring principal
      · simpa using hrs

theorem Sound.abandon (h : queue.Sound) (waiterId : Nat) : (queue.abandon waiterId).Sound := by
  refine ⟨h.nodup, fun principal => ?_, fun principal _ hfd => ?_⟩
  · rw [FairClassQueue.abandon, Std.ExtTreeMap.getElem?_map, Option.isSome_map]
    exact h.mem_ring principal
  · rw [FairClassQueue.abandon, Std.ExtTreeMap.getElem?_map, Option.map_eq_some_iff] at hfd
    obtain ⟨old, hold, rfl⟩ := hfd
    simpa using h.nonempty principal old hold

def Queued (queue : FairClassQueue) : Prop := ∃ entry ∈ queue.byPrincipal.toList, entry.2 ≠ []
  deriving Decidable

theorem oldestSequence_isSome : queue.oldestSequence.isSome ↔ queue.Queued := by
  rw [oldestSequence, Option.isSome_iff_ne_none, Ne, min?_eq_none_iff, filterMap_eq_nil_iff]
  simp [Queued]

theorem Sound.ring_ne_nil (h : queue.Sound) (hq : queue.Queued) : queue.principalRing ≠ [] := by
  obtain ⟨⟨principal, _⟩, he, -⟩ := hq
  have hfd := Std.ExtTreeMap.mem_toList_iff_getElem?_eq_some.1 he
  exact ne_nil_of_mem ((h.mem_ring principal).2 (by rw [hfd]; rfl))

end FairClassQueue

/-! ## Stopping -/

def SchedulerState.Sound (state : SchedulerState) : Prop :=
  ∀ workClass, (state.queues workClass).Sound

variable {policy : EpochResourcePolicy} {budget : WorkBudget β} {state : SchedulerState} {held : β}
  {workClass : EpochWorkClass} {queue : FairClassQueue}

theorem SchedulerState.queues_setQueue {other : EpochWorkClass} :
    (state.setQueue workClass queue).queues other =
      if other = workClass then queue else state.queues other :=
  Function.update_apply _ _ _ _

theorem SchedulerState.Sound.setQueue (h : state.Sound)
    (hq : queue.Sound) : (state.setQueue workClass queue).Sound := by
  intro other
  rw [SchedulerState.queues_setQueue]
  split
  · exact hq
  · exact h other

theorem SchedulerState.waiting_setQueue (h : queue.size < (state.queues workClass).size) :
    (state.setQueue workClass queue).waiting < state.waiting := by
  refine Finset.sum_lt_sum (fun _ _ => ?_) ⟨workClass, Finset.mem_univ _, ?_⟩
  · rw [queues_setQueue]
    split
    next heq => exact heq ▸ h.le
    next => exact le_rfl
  · rw [queues_setQueue, if_pos rfl]
    exact h

theorem mem_candidates :
    (∃ key, (key, workClass) ∈ (EpochWorkClass.all.filter (policy.classHasCapacity state)).filterMap
      fun workClass => (state.queues workClass).oldestSequence.map fun oldest =>
        (policy.selectionKey state workClass oldest, workClass)) ↔
      policy.classHasCapacity state workClass ∧ (state.queues workClass).Queued := by
  simp only [mem_filterMap, mem_filter, EpochWorkClass.mem_all, true_and,
    Option.map_eq_some_iff, Prod.mk.injEq, ← FairClassQueue.oldestSequence_isSome,
    Option.isSome_iff_exists]
  constructor
  · rintro ⟨key, _, hcap, oldest, ho, -, rfl⟩
    exact ⟨hcap, oldest, ho⟩
  · rintro ⟨hcap, oldest, ho⟩
    exact ⟨_, _, hcap, oldest, ho, rfl, rfl⟩

theorem waiting_of_selectClass (h : policy.selectClass state = some workClass) :
    policy.classHasCapacity state workClass ∧ (state.queues workClass).Queued := by
  obtain ⟨⟨key, _⟩, hmin, rfl⟩ := Option.map_eq_some_iff.1 h
  exact mem_candidates.1 ⟨key, argmin_mem hmin⟩

theorem selectClass_isSome (hcap : policy.classHasCapacity state workClass)
    (hq : (state.queues workClass).Queued) : policy.selectClass state ≠ none := by
  intro hn
  obtain ⟨_, hmem⟩ := mem_candidates.2 ⟨hcap, hq⟩
  rw [selectClass, Option.map_eq_none_iff, argmin_eq_none] at hn
  rw [hn] at hmem
  exact not_mem_nil hmem

/-- **Dispatch goes on until it cannot**: where a slot is left, the selected class is refused. -/
theorem stops_dispatchRounds {rounds : Nat} (h : state.Sound) (hrn : state.waiting < rounds) :
    (policy.dispatchRounds budget rounds state held).1.Sound ∧
      ∀ after left, policy.dispatchRounds budget rounds state held = (after, left) →
        after.activeWork < policy.maxConcurrentWork →
        ∀ selected, policy.selectClass after = some selected →
          budget.tryReserve left (resourceClass selected) = none := by
  induction rounds generalizing state held with
  | zero => omega
  | succ rounds ih =>
    rw [dispatchRounds]
    split
    case isFalse hfl =>
      refine ⟨h, ?_⟩
      rintro _ _ ⟨⟩ hfr
      exact absurd hfr hfl
    case isTrue =>
      split
      case h_1 hnn =>
        refine ⟨h, ?_⟩
        rintro _ _ ⟨⟩ - selected hsel
        rw [hnn] at hsel
        cases hsel
      case h_2 workClass hsl =>
        split
        case h_1 href =>
          refine ⟨h, ?_⟩
          rintro _ _ ⟨⟩ - selected hsel
          cases hsl.symm.trans hsel
          exact href
        case h_2 reserved _ =>
          obtain ⟨_, next, hpop, hnx, hsz⟩ :=
            (h workClass).pop ((h workClass).ring_ne_nil (waiting_of_selectClass hsl).2)
          rw [hpop]
          have hsn : (state.setQueue workClass next).Sound := h.setQueue hnx
          have hl := (SchedulerState.waiting_setQueue hsz).trans_le (Nat.lt_succ_iff.1 hrn)
          simp only
          split
          · exact ih hsn hl
          · exact ih hsn hl

theorem sound_perform {operation : Operation β} (h : state.Sound) :
    (policy.perform budget (state, held) operation).1.Sound := by
  cases operation with
  | enqueue _ workClass =>
    rw [perform, enqueue]
    split
    · exact h
    · split
      · exact h
      · exact h.setQueue (h workClass).push
  | abandon waiterId => exact fun workClass => (h workClass).abandon waiterId
  | remove waiterId =>
    rw [perform, SchedulerState.removeWaiter]
    split
    next => exact h
    next workClass queue hfd =>
      obtain ⟨_, -, ho⟩ := exists_of_findSome?_eq_some hfd
      obtain ⟨_, hrem, ⟨⟩⟩ := Option.map_eq_some_iff.1 ho
      exact h.setQueue ((h _).remove hrem)
  | release | budget => exact h
  | dispatch => exact (stops_dispatchRounds h (Nat.lt_succ_self _)).1

/-- **Every run keeps the rings of the scheduler sound.** -/
theorem sound_run (policy : EpochResourcePolicy) (budget : WorkBudget β) (held : β)
    (operations : List (Operation β)) :
    (operations.foldl (policy.perform budget) (.initial, held)).1.Sound := by
  induction operations using reverseRecOn with
  | nil => exact fun _ => FairClassQueue.sound_empty
  | append_singleton operations _ ih =>
    rw [foldl_append]
    exact sound_perform ih

/-! ## Work conservation -/

/-- A class has a waiter and capacity to run it. -/
def Waits (policy : EpochResourcePolicy) (state : SchedulerState) (workClass : EpochWorkClass) :
    Prop :=
  (state.queues workClass).Queued ∧ policy.classHasCapacity state workClass = true
  deriving Decidable

/-- A waiter of a class could run: its class has capacity and would be granted its reservation. -/
def Dispatchable (policy : EpochResourcePolicy) (budget : WorkBudget β) (state : SchedulerState)
    (held : β) (workClass : EpochWorkClass) : Prop :=
  Waits policy state workClass ∧
    (budget.tryReserve held (resourceClass workClass)).isSome = true

/-- A dispatch that returns with a slot free leaves no waiter that could run. -/
def Conserves (policy : EpochResourcePolicy) (budget : WorkBudget β) (state : SchedulerState)
    (held : β) : Prop :=
  ∀ after left, policy.dispatchLocked budget state held = (after, left) →
    after.activeWork < policy.maxConcurrentWork →
    ∀ workClass, ¬Dispatchable policy budget after left workClass

theorem waits_of_selectClass (h : policy.selectClass state = some workClass) :
    Waits policy state workClass :=
  (waiting_of_selectClass h).symm

/-- Queues are only shortened where a class was selected, and slots are only taken. -/
theorem waits_of_round {selected : EpochWorkClass} (queue : FairClassQueue) {next : SchedulerState}
    (hsel : policy.selectClass state = some selected) (h : Waits policy next workClass)
    (hqueues : next.queues = (state.setQueue selected queue).queues)
    (hactive : state.activeWork ≤ next.activeWork)
    (hplain : state.activeNonReserved ≤ next.activeNonReserved) :
    Waits policy state workClass := by
  obtain ⟨hqueued, hcapacity⟩ := h
  refine ⟨?_, ?_⟩
  · rw [hqueues, SchedulerState.queues_setQueue] at hqueued
    split at hqueued
    next heq => exact heq ▸ (waits_of_selectClass hsel).1
    next => exact hqueued
  · simp only [classHasCapacity, Bool.and_eq_true, Bool.or_eq_true, decide_eq_true_eq]
      at hcapacity ⊢
    exact ⟨hactive.trans_lt hcapacity.1, hcapacity.2.imp_right hplain.trans_lt⟩

/-- **Run lemma.** Whoever waits with capacity when dispatch returns did so before. -/
theorem waits_of_dispatchRounds (budget : WorkBudget β) (held : β) {rounds : Nat}
    (h : Waits policy (policy.dispatchRounds budget rounds state held).1 workClass) :
    Waits policy state workClass := by
  induction rounds generalizing state held with
  | zero => exact h
  | succ rounds ih =>
    rw [dispatchRounds] at h
    split at h
    case isFalse => exact h
    case isTrue =>
      split at h
      case h_1 => exact h
      case h_2 selected hsel =>
        split at h
        case h_1 => exact h
        case h_2 reserved _ =>
          split at h
          case h_1 => exact waits_of_round _ hsel h rfl le_rfl le_rfl
          case h_2 waiter queue _ =>
            simp only at h
            split at h
            · refine waits_of_round queue hsel (ih _ h) rfl (Nat.le_succ _) ?_
              simp only [activate, SchedulerState.setQueue]
              split <;> omega
            · refine waits_of_round queue hsel (ih _ h) rfl ?_ ?_
              all_goals simp only [releaseActiveLocked, activate, SchedulerState.setQueue]
              · omega
              · split <;> omega

/-- A dispatch whose first class is refused returns what it was given, so it conserves work exactly
if no waiter of the other kind could run. -/
theorem conserves_iff_of_refused {budget : WorkBudget β} {held : β} {selected : EpochWorkClass}
    (hfree : state.activeWork < policy.maxConcurrentWork)
    (hsel : policy.selectClass state = some selected)
    (hnone : budget.tryReserve held (resourceClass selected) = none) :
    Conserves policy budget state held ↔ ∀ workClass,
      resourceClass workClass ≠ resourceClass selected →
        ¬Dispatchable policy budget state held workClass := by
  have hreturn : policy.dispatchLocked budget state held = (state, held) := by
    simp only [dispatchLocked, dispatchRounds, if_pos hfree, hsel, hnone]
  constructor
  · exact fun h workClass _ => h state held hreturn hfree workClass
  · rintro h _ _ hdispatch - workClass hcould
    cases hreturn.symm.trans hdispatch
    by_cases hkind : resourceClass workClass = resourceClass selected
    · have hgranted := hcould.2
      rw [hkind, hnone] at hgranted
      cases hgranted
    · exact h workClass hkind hcould

/-- **Work conservation.** In every run, a dispatch is work-conserving whatever the budget answers
exactly if the waiters that have capacity before it are all charged to one kind of budget; and where
the class selected before it is refused, exactly if no waiter of the other kind could run then. -/
theorem work_conserving_iff (policy : EpochResourcePolicy) (budget : WorkBudget β) (initial : β)
    (operations : List (Operation β)) {state : SchedulerState} {held : β}
    (hrun : operations.foldl (policy.perform budget) (.initial, initial) = (state, held)) :
    ((∀ (γ : Type) (asked : WorkBudget γ) (given : γ), Conserves policy asked state given) ↔
      ∀ left right, Waits policy state left → Waits policy state right →
        resourceClass left = resourceClass right) ∧
    ∀ selected, state.activeWork < policy.maxConcurrentWork →
      policy.selectClass state = some selected →
      budget.tryReserve held (resourceClass selected) = none →
      (Conserves policy budget state held ↔ ∀ workClass,
        resourceClass workClass ≠ resourceClass selected →
          ¬Dispatchable policy budget state held workClass) := by
  have hsound : state.Sound := by
    have h := sound_run policy budget initial operations
    rwa [hrun] at h
  refine ⟨⟨fun h left right hleft hright => ?_, fun h γ asked given after given' hdispatch hfree
    workClass hcould => ?_⟩, fun _ => conserves_iff_of_refused⟩
  · -- a budget that refuses the kind of the selected class and grants the other
    by_contra hne
    have hfree : state.activeWork < policy.maxConcurrentWork := by
      have hcapacity := hleft.2
      simp only [classHasCapacity, Bool.and_eq_true, decide_eq_true_eq] at hcapacity
      exact hcapacity.1
    obtain ⟨selected, hsel⟩ := Option.ne_none_iff_exists'.1 (selectClass_isSome hleft.2 hleft.1)
    let asked : WorkBudget Unit :=
      ⟨fun _ kind => if kind = resourceClass selected then none else some (), fun _ _ => (),
        fun _ _ => some (), fun _ _ => ()⟩
    have hnot := (conserves_iff_of_refused hfree hsel (if_pos rfl)).1 (h Unit asked ())
    by_cases hkind : resourceClass left = resourceClass selected
    · have hother : resourceClass right ≠ resourceClass selected := fun heq =>
        hne (hkind.trans heq.symm)
      exact hnot right hother ⟨hright, by simp [asked, hother]⟩
    · exact hnot left hkind ⟨hleft, by simp [asked, hkind]⟩
  · obtain ⟨selected, hsel⟩ :=
      Option.ne_none_iff_exists'.1 (selectClass_isSome hcould.1.2 hcould.1.1)
    have hstop := (stops_dispatchRounds hsound (Nat.lt_succ_self _)).2 after given' hdispatch hfree
      selected hsel
    have hbefore {other : EpochWorkClass} (hafter : Waits policy after other) :
        Waits policy state other := by
      have hwaits : Waits policy (policy.dispatchLocked asked state given).1 other := by
        rwa [hdispatch]
      exact waits_of_dispatchRounds asked given hwaits
    have hkind := h workClass selected (hbefore hcould.1) (hbefore (waits_of_selectClass hsel))
    have hgranted := hcould.2
    rw [hkind, hstop] at hgranted
    cases hgranted

/-! ## Recovery behind a query -/

def jobAmounts (dimension : Budget.ResourceDimension) (bytes : Nat) (h : bytes < 2 ^ 64) :
    ResourceAmounts where
  values other := if other = .memoryBytes then bytes else if other = dimension then 1 else 0
  lt_width other := by split <;> [exact h; (split <;> decide)]

def ledgerBudget (token : Nat) : WorkBudget Budget.State :=
  let running := jobAmounts .runningJobs (4096 + 4096 * 512) (by decide)
  let queued := jobAmounts .queuedJobs 4096 (by decide)
  { tryReserve held kind := (held.tryReserve token kind running).toOption
    release held kind := (held.dropReservation ⟨token, kind, running⟩).toOption.getD held
    tryQueue held kind := (held.tryReserve token kind queued).toOption
    dequeue held kind := (held.dropReservation ⟨token, kind, queued⟩).toOption.getD held }

/-- Queries come first, and recovery takes their rank. -/
def samplePolicy : EpochResourcePolicy where
  workClassPolicy workClass :=
    ⟨(Equiv.swap EpochWorkClass.securityRecovery .interactiveQuery workClass).protocolIndex, false⟩
  maxConcurrentWork := 2
  reservedUpdateSlots := 0
  maxQueuedWork := 4
  agingGrantsPerPriorityStep := 1
  rank_lt := by decide
  rank_injective := by decide
  reserved_lt := Nat.two_pos
  queued_pos := by decide
  aging_pos := Nat.one_pos
  eligible := by decide

/-- A process without room for a running job of data, and with room for one of control. -/
def sampleHeld : Budget.State where
  ledger := .process ⟨.process, Vector.replicate 16 1⟩
    ⟨⟨.uniform 4000000 (by decide), .uniform 2200000 (by decide)⟩, fun _ => by
      show 2200000 < 4000000
      decide⟩
  handles := {0}
  reservations := 0
  bookkeeping := 0
  accounts := 0

/-- A query and a recovery are queued, and nothing was dispatched. -/
def sampleOperations : List (Operation Budget.State) :=
  [.enqueue ⟨Vector.replicate 16 1⟩ .interactiveQuery,
    .enqueue ⟨Vector.replicate 16 1⟩ .securityRecovery]

def sampleDispatch (operations : List (Operation Budget.State)) : SchedulerState × Budget.State :=
  let queued := operations.foldl (samplePolicy.perform (ledgerBudget 0)) (.initial, sampleHeld)
  samplePolicy.dispatchLocked (ledgerBudget 0) queued.1 queued.2

/-- A queued recovery is held back by a query that cannot get data budget. -/
theorem recovery_held_back :
    (sampleDispatch sampleOperations).1.activeWork < samplePolicy.maxConcurrentWork ∧
      samplePolicy.selectClass (sampleDispatch sampleOperations).1 = some .interactiveQuery ∧
      Dispatchable samplePolicy (ledgerBudget 0) (sampleDispatch sampleOperations).1
        (sampleDispatch sampleOperations).2 .securityRecovery := by
  refine ⟨?_, ?_, ⟨?_, ?_⟩, ?_⟩ <;> decide +kernel

/-- Queries of two principals and an update wait for data budget. -/
def dataOperations : List (Operation Budget.State) :=
  [.enqueue ⟨Vector.replicate 16 1⟩ .interactiveQuery,
    .enqueue ⟨Vector.replicate 16 2⟩ .interactiveQuery,
    .enqueue ⟨Vector.replicate 16 1⟩ .sourceUpdate]

/-- Three waiters of one kind are left waiting with both slots free, and none of them could run. -/
theorem data_conserving : (sampleDispatch dataOperations).1.waiting = 3 ∧
    (sampleDispatch dataOperations).1.activeWork = 0 ∧
    ∀ workClass, ¬Dispatchable samplePolicy (ledgerBudget 0) (sampleDispatch dataOperations).1
      (sampleDispatch dataOperations).2 workClass := by
  refine ⟨by decide +kernel, by decide +kernel, ?_⟩
  have hkinds := (work_conserving_iff samplePolicy (ledgerBudget 0) sampleHeld dataOperations
    Prod.mk.eta.symm).1.2 (by decide +kernel)
  exact hkinds _ _ _ _ _ Prod.mk.eta.symm (by decide +kernel)

end CodeFabric.Work
