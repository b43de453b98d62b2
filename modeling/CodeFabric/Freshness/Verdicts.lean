import CodeFabric.Support.Run

/-! # Freshness verdicts

The watermark barriers of `freshness.rs` and the verdicts that `fabric/workspace_updates.rs`
assembles from them: `state_for` and `source_state_for` read the availability, the published
generation and two watermarks one after another, while other calls write them.

* **`Operation.actions`** are the atomic accesses of each call, with one register for what a call
  has read; **`Step`** interleaves any number of calls.
* **`verdicts_justified_iff`**: every such verdict has an instant that justifies it exactly if no
  overlapping call publishes another generation, and none marks the source unavailable while a
  reconciliation overlaps. -/

namespace CodeFabric.Freshness

open Runs List

/-! ## Barriers -/

inductive FreshnessState
  | current | potentiallyStale | unavailable
  deriving DecidableEq, Repr

structure FreshnessBarrier where
  admitted : Nat
  reconciled : Nat
  unavailable : Bool
  deriving DecidableEq

/-- The barrier of complete reconciliations, or the one of the source alone. -/
inductive Scope
  | semantic | source
  deriving DecidableEq

structure WorkspaceObservation where
  barrier : Scope → FreshnessBarrier
  publishedGeneration : Nat
  /-- The largest watermark whose `request` has returned; no word of the program. -/
  completed : Nat

def WorkspaceObservation.new : WorkspaceObservation := ⟨fun _ => ⟨0, 0, false⟩, 0, 0⟩

def WorkspaceObservation.set (observation : WorkspaceObservation) (scope : Scope)
    (change : FreshnessBarrier → FreshnessBarrier) : WorkspaceObservation :=
  { observation with
    barrier := Function.update observation.barrier scope (change (observation.barrier scope)) }

/-! ## Calls -/

/-- One atomic access; `admitNext` is `admit`. The register holds the watermark of a request, or the
requested watermark that a reconciliation has read. -/
inductive Action
  | admitNext
  | admitThrough
  | returned
  | publish (generation : Nat)
  | restore (scope : Scope)
  | requested (scope : Scope)
  | reconcile (scope : Scope) (watermark : Nat)
  | markUnavailable (scope : Scope)
  deriving DecidableEq

def Action.perform : Action → Nat × WorkspaceObservation → Nat × WorkspaceObservation
  -- `fetch_add` wraps at the width of the counter
  | .admitNext, (_, observation) =>
    (((observation.barrier .semantic).admitted + 1) % 2 ^ 64,
      observation.set .semantic fun barrier =>
        { barrier with admitted := (barrier.admitted + 1) % 2 ^ 64 })
  | .admitThrough, (register, observation) =>
    (register, observation.set .source fun barrier =>
      { barrier with admitted := max barrier.admitted register })
  | .returned, (register, observation) =>
    (register, { observation with completed := max observation.completed register })
  | .publish generation, (register, observation) =>
    (register, { observation with publishedGeneration := generation })
  | .restore scope, (register, observation) =>
    (register, observation.set scope fun barrier => { barrier with unavailable := false })
  | .requested scope, (_, observation) => ((observation.barrier scope).admitted, observation)
  | .reconcile scope watermark, (register, observation) =>
    (register, observation.set scope fun barrier =>
      { barrier with reconciled := max barrier.reconciled (min watermark register) })
  | .markUnavailable scope, (register, observation) =>
    (register, observation.set scope fun barrier => { barrier with unavailable := true })

inductive Operation
  | request
  | sourceReconciled (watermark generation : Nat)
  | reconciled (watermark generation : Nat)
  | markUnavailable (scope : Scope)
  deriving DecidableEq

/-- `restore` publishes availability and then reconciles. -/
def restoreActions (scope : Scope) (watermark : Nat) : List Action :=
  [.restore scope, .requested scope, .reconcile scope watermark]

def Operation.actions : Operation → List Action
  | .request => [.admitNext, .admitThrough, .returned]
  | .sourceReconciled watermark generation =>
    .publish generation :: restoreActions .source watermark
  | .reconciled watermark generation =>
    .publish generation :: restoreActions .source watermark ++
      .publish generation :: restoreActions .semantic watermark
  | .markUnavailable scope => [.markUnavailable scope]

/-- A call in progress, with the accesses it has still to make. -/
structure Call where
  operation : Operation
  rest : List Action
  register : Nat

structure Config where
  observation : WorkspaceObservation
  calls : List Call

/-- The requests made so far; calls that have returned stay in the list. -/
def Config.requests (config : Config) : Nat :=
  config.calls.countP (·.operation = .request)

/-- The requests that have not been admitted yet. -/
def Config.unadmitted (config : Config) : Nat :=
  (config.calls.map (·.rest.count .admitNext)).sum

/-- A call starts, or a call in progress makes its next access. -/
inductive Step : Config → Operation → Config → Prop
  | start {observation calls} (operation : Operation) :
      Step ⟨observation, calls⟩ operation ⟨observation, ⟨operation, operation.actions, 0⟩ :: calls⟩
  | act {observation before operation action rest register after} :
      Step ⟨observation, before ++ ⟨operation, action :: rest, register⟩ :: after⟩ operation
        ⟨(action.perform (register, observation)).2,
          before ++ ⟨operation, rest, (action.perform (register, observation)).1⟩ :: after⟩

/-! ## Verdicts -/

/-- `FreshnessBarrier::state` on what its three loads return. -/
def stateOf (unavailable : Bool) (reconciled admitted : Nat) : FreshnessState :=
  if unavailable then .unavailable
  else if admitted ≤ reconciled then .current
  else .potentiallyStale

/-- `state_for`, and `source_state_for` for the other barrier, on the observations in which it reads
the availability, the generation, the availability again and the two watermarks. The first verdict
of the barrier is only compared with `Unavailable`. -/
def stateFor (scope : Scope) (generation : Nat) (first second third fourth fifth :
    WorkspaceObservation) : FreshnessState :=
  if (first.barrier scope).unavailable then .unavailable
  else if generation ≠ second.publishedGeneration then .potentiallyStale
  else stateOf (third.barrier scope).unavailable (fourth.barrier scope).reconciled
    (fifth.barrier scope).admitted

/-- What `Current` promises about one instant. -/
def Justified (scope : Scope) (generation : Nat) (observation : WorkspaceObservation) : Prop :=
  observation.publishedGeneration = generation ∧ (observation.barrier scope).unavailable = false ∧
    observation.completed ≤ (observation.barrier scope).reconciled

/-- A call of the verdict that returns a state, the calls that overlap it, and its instants, while
the requests have not exhausted the counter. -/
def Called (scope : Scope) (generation : Nat) (overlaps : Operation → Prop) (first : Config)
    (state : FreshnessState) (instants : List WorkspaceObservation) : Prop :=
  ∃ second third fourth fifth toSecond toThird toFourth toFifth,
    Run Step first toSecond second ∧ Run Step second toThird third ∧
    Run Step third toFourth fourth ∧ Run Step fourth toFifth fifth ∧ fifth.requests < 2 ^ 64 ∧
    (∀ x ∈ toSecond ++ toThird ++ toFourth ++ toFifth, overlaps x.label) ∧
    state = stateFor scope generation first.observation second.observation third.observation
      fourth.observation fifth.observation ∧
    instants = first.observation ::
      (toSecond ++ toThird ++ toFourth ++ toFifth).map fun x => x.after.observation

/-- The calls that may overlap: requests, reconciliations of some generations, and perhaps marks. -/
def Overlaps (generations : Set Nat) (marks : Prop) : Operation → Prop
  | .request => True
  | .sourceReconciled _ generation | .reconciled _ generation => generation ∈ generations
  | .markUnavailable _ => marks

def Reachable (config : Config) : Prop := ∃ steps, Run Step ⟨.new, []⟩ steps config

/-! ## Watermarks -/

variable {observation : WorkspaceObservation} {register : Nat} {action : Action}
  {rest : List Action} {operation : Operation} {scope : Scope} {overlaps : Operation → Prop}
  {s t : Config} {steps : List (Transition Config Operation)} {generations : Set Nat} {marks : Prop}
  {generation : Nat}

/-- While the counter does not wrap, no access takes back what was admitted. -/
theorem admitted_le_perform
    (hlt : action = .admitNext → (observation.barrier .semantic).admitted + 1 < 2 ^ 64) :
    (observation.barrier scope).admitted ≤
      ((action.perform (register, observation)).2.barrier scope).admitted := by
  cases action with
  | admitNext =>
    simp only [Action.perform, WorkspaceObservation.set, Nat.mod_eq_of_lt (hlt rfl)]
    cases scope <;> simp
  | _ =>
    simp only [Action.perform, WorkspaceObservation.set, Function.update_apply]
    try split
    all_goals simp_all

/-- Each request advances the counter by one at most. -/
theorem admitted_perform_le (action : Action) (register : Nat)
    (observation : WorkspaceObservation) :
    ((action.perform (register, observation)).2.barrier .semantic).admitted ≤
      (observation.barrier .semantic).admitted + if action = .admitNext then 1 else 0 := by
  cases action with
  | admitNext => simpa [Action.perform, WorkspaceObservation.set] using Nat.mod_le _ _
  | admitThrough => simp [Action.perform, WorkspaceObservation.set]
  | _ =>
    simp only [Action.perform, WorkspaceObservation.set, Function.update_apply]
    try split
    all_goals simp_all

theorem completed_perform (h : action ≠ .returned) :
    (action.perform (register, observation)).2.completed = observation.completed := by
  cases action <;> first | rfl | exact absurd rfl h

open Operation

/-- Where a call is: a request at one of its accesses, or a call that admits nothing. -/
theorem rest_cases (h : action :: rest <:+ operation.actions) :
    (action = .admitNext ∧ rest = [.admitThrough, .returned]) ∨
      (action = .admitThrough ∧ rest = [.returned]) ∨ (action = .returned ∧ rest = []) ∨
      (action ≠ .returned ∧ .returned ∉ rest) := by
  by_cases hret : .returned ∈ operation.actions
  · cases operation <;>
      simp [actions, restoreActions, suffix_cons_iff] at h hret
    rcases h with h | h | h <;> simp [h]
  · refine .inr (.inr (.inr ⟨?_, fun hmem => hret (h.subset (mem_cons_of_mem _ hmem))⟩))
    rintro rfl
    exact hret (h.subset mem_cons_self)

/-- What requests that have returned, and those about to, have admitted. -/
structure Coherent (config : Config) : Prop where
  counted : (config.observation.barrier .semantic).admitted + config.unadmitted ≤ config.requests
  completed : ∀ scope, config.observation.completed ≤ (config.observation.barrier scope).admitted
  suffix : ∀ call ∈ config.calls, call.rest <:+ call.operation.actions
  semantic : ∀ call ∈ config.calls, .returned ∈ call.rest → .admitNext ∉ call.rest →
    call.register ≤ (config.observation.barrier .semantic).admitted
  source : ∀ call ∈ config.calls, call.rest = [.returned] →
    call.register ≤ (config.observation.barrier .source).admitted

theorem requests_le_step (step : Step s operation t) : s.requests ≤ t.requests := by
  cases step with
  | start => exact (sublist_cons_self _ _).countP_le
  | act => simp [Config.requests, countP_cons]

theorem requests_le_run (hrun : Run Step s steps t) : s.requests ≤ t.requests := by
  induction hrun with
  | nil => exact le_rfl
  | cons step _ ih => exact (requests_le_step step).trans ih

/-- **Step lemma**, for the count of requests. -/
theorem counted_step (h : Coherent s) (step : Step s operation t) :
    (t.observation.barrier .semantic).admitted + t.unadmitted ≤ t.requests := by
  have hcount := h.counted
  cases step with
  | start operation =>
    simp only [Config.unadmitted, Config.requests, countP_cons, map_cons, sum_cons] at hcount ⊢
    cases operation <;> simp [actions, restoreActions] <;> omega
  | @act observation _ operation action rest register =>
    have hle := admitted_perform_le action register observation
    simp only [Config.unadmitted, Config.requests, countP_append, countP_cons, map_append, map_cons,
      sum_append, sum_cons, count_cons, beq_iff_eq] at hcount ⊢
    omega

/-- A request about to be admitted finds room in the counter. -/
theorem Coherent.admittable {before after : List Call}
    (h : Coherent ⟨observation, before ++ ⟨operation, action :: rest, register⟩ :: after⟩)
    (hbound : Config.requests ⟨observation,
      before ++ ⟨operation, action :: rest, register⟩ :: after⟩ < 2 ^ 64)
    (hnext : action = .admitNext) : (observation.barrier .semantic).admitted + 1 < 2 ^ 64 := by
  have hcount := h.counted
  subst hnext
  simp only [Config.unadmitted, map_append, map_cons, sum_append, sum_cons, count_cons_self]
    at hcount
  omega

/-- **Step lemma.** -/
theorem Coherent.step (h : Coherent s) (hbound : s.requests < 2 ^ 64)
    (step : Step s operation t) : Coherent t := by
  have hcounted := counted_step h step
  cases step with
  | start operation =>
    refine ⟨hcounted, h.completed, ?_, ?_, ?_⟩ <;> simp only [forall_mem_cons]
    · exact ⟨suffix_rfl, h.suffix⟩
    · refine ⟨fun hrtn hnx => ?_, h.semantic⟩
      cases operation <;> simp [actions, restoreActions] at hrtn hnx
    · refine ⟨fun hrs => ?_, h.source⟩
      cases operation <;> simp [actions, restoreActions] at hrs
  | @act observation _ operation action rest register =>
    have hm : ∀ scope, (observation.barrier scope).admitted ≤
        ((action.perform (register, observation)).2.barrier scope).admitted :=
      fun scope => admitted_le_perform (h.admittable hbound)
    obtain ⟨-, hcom, hsfx, hsem, hsrc⟩ := h
    simp only [forall_mem_append, forall_mem_cons] at hsfx hsem hsrc
    refine ⟨hcounted, fun scope => ?_, ?_, ?_, ?_⟩ <;>
      simp only [forall_mem_append, forall_mem_cons]
    · by_cases hrtn : action = .returned
      · -- the request returns with a watermark that both barriers have admitted
        obtain ⟨rfl, rfl⟩ : action = .returned ∧ rest = [] := by
          subst hrtn
          simpa using rest_cases hsfx.2.1
        refine max_le (hcom scope) ?_
        cases scope with
        | semantic => exact hsem.2.1 (by simp) (by simp)
        | source => exact hsrc.2.1 rfl
      · exact (completed_perform hrtn).le.trans ((hcom scope).trans (hm scope))
    · exact ⟨hsfx.1, (suffix_cons _ _).trans hsfx.2.1, hsfx.2.2⟩
    · refine ⟨fun call hcl hrtn hnx => (hsem.1 call hcl hrtn hnx).trans (hm _), fun hrtn _ => ?_,
        fun call hcl hrtn hnx => (hsem.2.2 call hcl hrtn hnx).trans (hm _)⟩
      obtain ⟨rfl, rfl⟩ | ⟨rfl, rfl⟩ | ⟨rfl, rfl⟩ | ⟨-, hnot⟩ := rest_cases hsfx.2.1
      · simp [Action.perform, WorkspaceObservation.set]
      · exact (hsem.2.1 (by simp) (by simp)).trans (hm _)
      · cases hrtn
      · exact absurd hrtn hnot
    · refine ⟨fun call hcl hrs => (hsrc.1 call hcl hrs).trans (hm _), fun hrs => ?_,
        fun call hcl hrs => (hsrc.2.2 call hcl hrs).trans (hm _)⟩
      obtain ⟨rfl, rfl⟩ | ⟨rfl, rfl⟩ | ⟨rfl, rfl⟩ | ⟨-, hnot⟩ := rest_cases hsfx.2.1
      · cases hrs
      · simp [Action.perform, WorkspaceObservation.set]
      · cases hrs
      · exact absurd (hrs ▸ mem_singleton_self _) hnot

theorem Coherent.run (h : Coherent s) (hrun : Run Step s steps t) (hbound : t.requests < 2 ^ 64) :
    Coherent t := by
  refine hrun.invariant (P := fun config => config.requests < 2 ^ 64 → Coherent config)
    (fun _ _ _ step hs hlt => ?_) (fun _ => h) hbound
  have hbefore := (requests_le_step step).trans_lt hlt
  exact (hs hbefore).step hbefore step

theorem coherent_of_reachable {config : Config} (h : Reachable config)
    (hbound : config.requests < 2 ^ 64) : Coherent config := by
  obtain ⟨_, hrun⟩ := h
  refine Coherent.run ⟨le_rfl, fun _ => le_rfl, ?_, ?_, ?_⟩ hrun hbound <;> exact forall_mem_nil _

/-! ## Calls that overlap -/

/-- **Run rule.** What every access of an overlapping call keeps is kept between two reads. -/
theorem keeps_run {P : WorkspaceObservation → Prop} (hs : Coherent s) (hrun : Run Step s steps t)
    (hbound : t.requests < 2 ^ 64) (hov : ∀ x ∈ steps, overlaps x.label)
    (hk : ∀ observation register operation, overlaps operation → ∀ action ∈ operation.actions,
      P observation → P (action.perform (register, observation)).2)
    (h : P s.observation) : P t.observation := by
  induction hrun with
  | nil => exact h
  | cons step hrest ih =>
    rw [forall_mem_cons] at hov
    have hbefore := ((requests_le_step step).trans (requests_le_run hrest)).trans_lt hbound
    refine ih (hs.step hbefore step) hbound hov.2 ?_
    cases step with
    | start => exact h
    | act =>
      have hsfx := hs.suffix _ (mem_append_right _ mem_cons_self)
      exact hk _ _ _ hov.1 _ (hsfx.subset mem_cons_self) h

section

variable (h : Overlaps generations marks operation)
include h

theorem mem_of_publish (hact : .publish generation ∈ operation.actions) :
    generation ∈ generations := by
  cases operation <;> simp [actions, restoreActions] at hact <;> exact hact ▸ h

theorem nonempty_of_restore (hact : .restore scope ∈ operation.actions ∨
    ∃ watermark, .reconcile scope watermark ∈ operation.actions) : generations.Nonempty := by
  cases operation <;> simp [actions, restoreActions] at hact <;> exact ⟨_, h⟩

theorem marks_of_mark (hact : .markUnavailable scope ∈ operation.actions) : marks := by
  cases operation <;> simp [actions, restoreActions] at hact
  exact h

theorem keeps_generation (hg : generations ⊆ {generation}) (hact : action ∈ operation.actions)
    (hpub : observation.publishedGeneration = generation) :
    (action.perform (register, observation)).2.publishedGeneration = generation := by
  cases action with
  | publish => exact hg (mem_of_publish h hact)
  | _ => exact hpub

theorem keeps_available (hm : ¬marks) (hact : action ∈ operation.actions)
    (hav : (observation.barrier scope).unavailable = false) :
    ((action.perform (register, observation)).2.barrier scope).unavailable = false := by
  cases action with
  | markUnavailable => exact absurd (marks_of_mark h hact) hm
  | _ =>
    simp only [Action.perform, WorkspaceObservation.set, Function.update_apply]
    first | exact hav | (split <;> simp_all)

end

/-- Without reconciliations the reconciled watermark stays, and so does a mark. -/
theorem keeps_reconciled (h : Overlaps ∅ marks operation) (hact : action ∈ operation.actions) :
    ((action.perform (register, observation)).2.barrier scope).reconciled =
        (observation.barrier scope).reconciled ∧
      ((observation.barrier scope).unavailable = true →
        ((action.perform (register, observation)).2.barrier scope).unavailable = true) := by
  cases action with
  | publish => exact ⟨rfl, id⟩
  | restore => exact absurd (nonempty_of_restore h (.inl hact)) Set.not_nonempty_empty
  | reconcile _ watermark =>
    exact absurd (nonempty_of_restore h (.inr ⟨watermark, hact⟩)) Set.not_nonempty_empty
  | _ =>
    simp only [Action.perform, WorkspaceObservation.set, Function.update_apply]
    first | exact ⟨trivial, id⟩ | (split <;> simp_all)

theorem mem_instants (instants : List WorkspaceObservation) (hrun : Run Step s steps t)
    (hs : s.observation ∈ instants) (hst : ∀ x ∈ steps, x.after.observation ∈ instants) :
    t.observation ∈ instants := by
  induction hrun with
  | nil => exact hs
  | cons _ _ ih =>
    rw [forall_mem_cons] at hst
    exact ih hst.1 hst.2

theorem admitted_le_run (hs : Coherent s) (hrun : Run Step s steps t)
    (hbound : t.requests < 2 ^ 64) (scope : Scope) :
    (s.observation.barrier scope).admitted ≤ (t.observation.barrier scope).admitted := by
  induction hrun with
  | nil => exact le_rfl
  | cons step hrest ih =>
    have hbefore := ((requests_le_step step).trans (requests_le_run hrest)).trans_lt hbound
    refine le_trans ?_ (ih (hs.step hbefore step) hbound)
    cases step with
    | start => exact le_rfl
    | act => exact admitted_le_perform (hs.admittable hbefore)

theorem stateFor_eq_current {first second third fourth fifth : WorkspaceObservation} :
    stateFor scope generation first second third fourth fifth = .current ↔
      (first.barrier scope).unavailable = false ∧ second.publishedGeneration = generation ∧
      (third.barrier scope).unavailable = false ∧
      (fifth.barrier scope).admitted ≤ (fourth.barrier scope).reconciled := by
  rw [stateFor, stateOf, eq_comm (a := second.publishedGeneration)]
  cases (first.barrier scope).unavailable <;> cases (third.barrier scope).unavailable <;>
    by_cases hpub : generation = second.publishedGeneration <;> simp [hpub]

/-- **A verdict is justified** while overlapping calls publish only its generation, and nothing is
marked unavailable unless nothing is reconciled. -/
theorem justified_of_current {first : Config} {instants : List WorkspaceObservation}
    (hrch : Reachable first) (hg : generations ⊆ {generation}) (hmarks : marks → generations = ∅)
    (h : Called scope generation (Overlaps generations marks) first .current instants) :
    ∃ observation ∈ instants, Justified scope generation observation := by
  obtain ⟨second, third, fourth, fifth, toSecond, toThird, toFourth, toFifth, hsnd, ht,
    hfr, hff, hbound, hov, hst, rfl⟩ := h
  obtain ⟨_, hpub, hstill, hcov⟩ := stateFor_eq_current.1 hst.symm
  simp only [forall_mem_append] at hov
  obtain ⟨⟨⟨_, hov₂⟩, hov₃⟩, _⟩ := hov
  have hbound₄ := (requests_le_run hff).trans_lt hbound
  have hbound₃ := (requests_le_run hfr).trans_lt hbound₄
  have hbound₂ := (requests_le_run ht).trans_lt hbound₃
  have hcoh₂ := (coherent_of_reachable hrch ((requests_le_run hsnd).trans_lt hbound₂)).run hsnd
    hbound₂
  have hcoh₃ := hcoh₂.run ht hbound₃
  have hmem₂ := mem_instants (first.observation ::
      (toSecond ++ toThird ++ toFourth ++ toFifth).map fun x => x.after.observation) hsnd
    mem_cons_self fun x hx => by simp; grind
  by_cases hmr : marks
  · -- nothing is reconciled: the instant of the generation's read
    obtain rfl := hmarks hmr
    have hrcl : (fourth.observation.barrier scope).reconciled =
        (second.observation.barrier scope).reconciled :=
      keeps_run hcoh₂ (ht.append hfr) hbound₄ (List.forall_mem_append.2 ⟨hov₂, hov₃⟩)
        (P := fun observation => (observation.barrier scope).reconciled =
          (second.observation.barrier scope).reconciled)
        (fun _ _ _ h _ hact hsm => (keeps_reconciled h hact).1.trans hsm) rfl
    refine ⟨second.observation, hmem₂, hpub, ?_, ?_⟩
    · by_contra hnot
      have hmk := keeps_run hcoh₂ ht hbound₃ hov₂
        (P := fun observation => (observation.barrier scope).unavailable = true)
        (fun _ _ _ h _ hact => (keeps_reconciled h hact).2) (by simpa using hnot)
      rw [hstill] at hmk
      cases hmk
    · rw [← hrcl]
      exact (hcoh₂.completed scope).trans ((admitted_le_run hcoh₂
        ((ht.append hfr).append hff) hbound scope).trans hcov)
  · -- the generation stays published and the source available: the instant of the watermark's read
    have hcoh₄ := hcoh₃.run hfr hbound₄
    refine ⟨fourth.observation, ?_, ?_, ?_, ?_⟩
    · refine mem_instants _ hfr (mem_instants _ ht hmem₂ fun x hx => ?_) fun x hx => ?_ <;>
        simp <;> grind
    · exact keeps_run hcoh₂ (ht.append hfr) hbound₄ (List.forall_mem_append.2 ⟨hov₂, hov₃⟩)
        (P := fun observation => observation.publishedGeneration = generation)
        (fun _ _ _ h _ hact => keeps_generation h hg hact) hpub
    · exact keeps_run hcoh₃ hfr hbound₄ hov₃
        (P := fun observation => (observation.barrier scope).unavailable = false)
        (fun _ _ _ h _ hact => keeps_available h hmr hact) hstill
    · exact (hcoh₄.completed scope).trans ((admitted_le_run hcoh₄ hff hbound scope).trans hcov)

/-! ## Unjustified verdicts -/

def performs (actions : List Action) (start : Nat × WorkspaceObservation) :
    Nat × WorkspaceObservation :=
  actions.foldl (fun state action => action.perform state) start

theorem performs_singleton (start : Nat × WorkspaceObservation) :
    performs [action] start = action.perform start := rfl

/-- The observations after each of some accesses. -/
def trace : List Action → Nat × WorkspaceObservation → List WorkspaceObservation
  | [], _ => []
  | action :: rest, state => (action.perform state).2 :: trace rest (action.perform state)

variable (observation : WorkspaceObservation)

/-- A call in progress may make its next accesses alone. -/
theorem run_actions (before after : List Call)
    (operation : Operation) (actions rest : List Action) (register : Nat) :
    ∃ steps, Run Step ⟨observation, before ++ ⟨operation, actions ++ rest, register⟩ :: after⟩ steps
        ⟨(performs actions (register, observation)).2, before ++
          ⟨operation, rest, (performs actions (register, observation)).1⟩ :: after⟩ ∧
      (∀ x ∈ steps, x.label = operation) ∧
      steps.map (fun x => x.after.observation) = trace actions (register, observation) := by
  induction actions generalizing register observation with
  | nil => exact ⟨[], .nil _, by simp, rfl⟩
  | cons _ actions ih =>
    obtain ⟨steps, hrun, hl, ht⟩ := ih _ _
    exact ⟨_, .cons .act hrun, by simpa using hl, by simpa [trace] using ht⟩

/-- A call may start and make its first accesses alone. -/
theorem run_call (calls : List Call) (actions : List Action)
    (h : operation.actions = actions ++ rest) :
    ∃ steps, Run Step ⟨observation, calls⟩ steps ⟨(performs actions (0, observation)).2,
        ⟨operation, rest, (performs actions (0, observation)).1⟩ :: calls⟩ ∧
      (∀ x ∈ steps, x.label = operation) ∧
      steps.map (fun x => x.after.observation) = observation :: trace actions (0, observation) := by
  obtain ⟨steps, hrun, hl, ht⟩ :=
    run_actions observation [] calls operation actions rest 0
  exact ⟨_, .cons (.start operation) (h ▸ hrun), by simpa using hl, by simpa using ht⟩

/-- A generation is published and one later request has returned. -/
def stale (generation : Nat) : WorkspaceObservation := ⟨fun _ => ⟨1, 0, false⟩, generation, 1⟩

theorem exists_reachable_stale (generation : Nat) :
    ∃ calls, Reachable ⟨stale generation, calls⟩ ∧
      Config.requests ⟨stale generation, calls⟩ = 1 := by
  obtain ⟨_, hpub, -⟩ := run_call .new [] (reconciled 0 generation).actions (append_nil _).symm
  obtain ⟨_, hreq, -⟩ := run_call _ _ Operation.request.actions (append_nil _).symm
  have hs : (performs Operation.request.actions
      (0, (performs (reconciled 0 generation).actions (0, .new)).2)).2 =
      stale generation := by
    refine congrArg (WorkspaceObservation.mk · generation 1) (funext fun scope => ?_)
    cases scope <;> rfl
  exact ⟨_, ⟨_, hs ▸ hpub.append hreq⟩, rfl⟩

/-- The generation is read, and the call that supersedes it ends before the watermarks are. -/
theorem exists_superseded (scope : Scope) {calls : List Call} {superseding : Nat}
    (hone : Config.requests ⟨stale generation, calls⟩ = 1) (h : superseding ≠ generation)
    (hov : overlaps (.reconciled 1 superseding)) :
    ∃ instants, Called scope generation overlaps ⟨stale generation, calls⟩ .current instants ∧
      ∀ observation ∈ instants, ¬Justified scope generation observation := by
  obtain ⟨steps, hrun, hl, ht⟩ := run_call (stale generation)
    calls (reconciled 1 superseding).actions (append_nil _).symm
  refine ⟨_, ⟨_, _, _, _, [], steps, [], [], .nil _, hrun, .nil _, .nil _, ?_, ?_, ?_, rfl⟩, ?_⟩
  · exact lt_of_eq_of_lt hone (by decide)
  · simpa using fun x hx => (hl x hx).symm ▸ hov
  · cases scope <;> simp [stateFor, stateOf, stale] <;> rfl
  · simp [ht, trace, actions, restoreActions, Action.perform,
      WorkspaceObservation.set, Justified, stale, h]

/-- The availability is read, and the source is marked before a reconciliation ends. -/
theorem exists_marked {calls : List Call}
    (hone : Config.requests ⟨stale generation, calls⟩ = 1)
    (hov : overlaps (.reconciled 1 generation)) (hm : overlaps (.markUnavailable scope)) :
    ∃ instants, Called scope generation overlaps ⟨stale generation, calls⟩ .current instants ∧
      ∀ observation ∈ instants, ¬Justified scope generation observation := by
  -- the reconciliation stands before the access that covers the request
  obtain ⟨done, rest, hact, hreg, hbar, hcom, hd⟩ : ∃ done rest,
        (reconciled 1 generation).actions = done ++ .reconcile scope 1 :: rest ∧
        (performs done (0, stale generation)).1 = 1 ∧
        (performs done (0, stale generation)).2.barrier scope = ⟨1, 0, false⟩ ∧
        (performs done (0, stale generation)).2.completed = 1 ∧
        ∀ observation ∈ trace done (0, stale generation),
          ¬Justified scope generation observation := by
    cases scope
    · exact ⟨.publish generation :: restoreActions .source 1 ++
        [.publish generation, .restore .semantic, .requested .semantic], [], rfl, rfl, rfl, rfl,
        by simp [trace, restoreActions, Action.perform, WorkspaceObservation.set, Justified, stale]⟩
    · exact ⟨[.publish generation, .restore .source, .requested .source], _, rfl, rfl, rfl, rfl,
        by simp [trace, Action.perform, WorkspaceObservation.set, Justified, stale]⟩
  obtain ⟨first, hfst, hfr, htr⟩ := run_call (stale generation) calls done hact
  -- the mark and that access make up the rest of the window
  obtain ⟨second, hsnd, hsec, ht'⟩ := run_call _ _ _
    (show (markUnavailable scope).actions = [.markUnavailable scope] ++ [] from rfl)
  obtain ⟨third, hth, hthirds, ht''⟩ := run_actions _ [_] calls (.reconciled 1 generation)
    [.reconcile scope 1] _ _
  refine ⟨_, ⟨_, _, _, _, [], [], first ++ second ++ third, [], .nil _, .nil _,
    (hfst.append hsnd).append hth, .nil _, ?_, ?_, ?_, rfl⟩, ?_⟩
  · exact lt_of_eq_of_lt hone (by decide)
  · simp only [nil_append, append_nil, forall_mem_append]
    exact ⟨⟨fun x hx => hfr x hx ▸ hov, fun x hx => hsec x hx ▸ hm⟩, fun x hx => hthirds x hx ▸ hov⟩
  · refine (stateFor_eq_current.2 ?_).symm
    refine ⟨rfl, rfl, rfl, ?_⟩
    simp [performs_singleton, Action.perform, WorkspaceObservation.set, hbar, hreg]
  · simp only [nil_append, append_nil, map_append, htr, ht', ht'', trace,
      forall_mem_cons, forall_mem_append, performs_singleton]
    refine ⟨by simp [Justified, stale], ⟨⟨by simp [Justified, stale], hd⟩, ?_⟩, ?_⟩ <;>
      simp [Justified, Action.perform, WorkspaceObservation.set, hbar, hcom]

/-- **When verdicts are justified.** While fewer requests are made than the counter can hold, every
verdict `Current` has an instant that justifies it exactly if the calls that may overlap it publish
no other generation, and none marks the source unavailable if one may reconcile. -/
theorem verdicts_justified_iff (scope : Scope) (generation : Nat) (generations : Set Nat)
    (marks : Prop) : (∀ start, Reachable start → ∀ instants,
      Called scope generation (Overlaps generations marks) start .current instants →
      ∃ observation ∈ instants, Justified scope generation observation) ↔
    generations ⊆ {generation} ∧ (marks → generations = ∅) := by
  refine ⟨fun h => ?_, fun h start hsta instants hc =>
    justified_of_current hsta h.1 h.2 hc⟩
  obtain ⟨calls, hst, hone⟩ := exists_reachable_stale generation
  have hsub : generations ⊆ {generation} := by
    intro _ hmem
    by_contra hne
    obtain ⟨instants, hc, hnn⟩ := exists_superseded scope hone hne
      (show Overlaps generations marks _ from hmem)
    obtain ⟨observation, hins, hjus⟩ := h _ hst _ hc
    exact hnn observation hins hjus
  refine ⟨hsub, fun hmr => Set.eq_empty_of_forall_notMem fun _ ho => ?_⟩
  obtain rfl := hsub ho
  obtain ⟨instants, hc, hnn⟩ := exists_marked hone (show Overlaps generations marks _ from ho)
    (show Overlaps _ _ (.markUnavailable scope) from hmr)
  obtain ⟨observation, hins, hjus⟩ := h _ hst _ hc
  exact hnn observation hins hjus

/-- An edit is admitted, `state_for(1)` starts, generation 2 is reconciled, and the superseded
generation 1 is labelled `Current`. -/
theorem superseded_labelled_current : ∃ calls, Reachable ⟨stale 1, calls⟩ ∧
    ∃ instants, Called .semantic 1 (· = .reconciled 1 2) ⟨stale 1, calls⟩ .current instants ∧
      ∀ observation ∈ instants, ¬Justified .semantic 1 observation := by
  obtain ⟨calls, hs, hone⟩ := exists_reachable_stale 1
  exact ⟨calls, hs, exists_superseded _ hone (by decide) rfl⟩

end CodeFabric.Freshness
