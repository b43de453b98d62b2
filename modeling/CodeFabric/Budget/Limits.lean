import CodeFabric.Budget.Exactness

/-! # Limits and control headroom

What the checks of an admission are worth. Native growth is not checked, so the limits hold in the
runs without it; in every run an admission that succeeds is within the limits of all it charges.

**`ledger_limits`**: it holds in runs without infallible growth, and control work that fits the
headroom is then never refused. -/

namespace CodeFabric.Budget

open Fallible Runs

/-! ## Limits -/

def NodeState.Within (node : NodeState) : Prop :=
  ∀ dimension, node.used dimension ≤ node.policy.limits.values dimension ∧
    node.dataUsed dimension ≤ node.dataLimit dimension

open NodeState

/-- Every node is within its limits. -/
def Ledger.Within (ledger : Ledger) : Prop :=
  ∀ token node, ledger.nodes token = some node → node.Within

open Ledger

theorem NodeState.Within.charge {node : NodeState} (h : node.Within) {resourceClass : ResourceClass}
    {amounts : Quantities} (hadm : node.Admits resourceClass amounts true) :
    (node.charge resourceClass amounts).Within := by
  intro dimension
  obtain ⟨-, hl, hd⟩ := hadm dimension
  refine ⟨hl rfl, ?_⟩
  by_cases hc : resourceClass = .data
  · simp only [NodeState.charge, if_pos hc]
    exact hd rfl hc
  · simp only [NodeState.charge, if_neg hc]
    exact (h dimension).2

theorem NodeState.Within.without {node : NodeState} (h : node.Within)
    (resourceClass : ResourceClass) (amounts : Quantities) :
    (node.without resourceClass amounts).Within := by
  intro dimension
  obtain ⟨hl, hd⟩ := h dimension
  refine ⟨(Nat.sub_le _ _).trans hl, ?_⟩
  by_cases hc : resourceClass = .data
  · simp only [NodeState.without, if_pos hc]
    exact (Nat.sub_le _ _).trans hd
  · simp only [NodeState.without, if_neg hc]
    exact hd

theorem within_fresh (owner : ResourceOwner) (parent : Option Nat) (policy : ValidPolicy) :
    (fresh owner parent policy).Within :=
  fun _ => ⟨Nat.zero_le _, Nat.zero_le _⟩

/-- **Checked moves keep the limits.** -/
theorem Ledger.Within.moves {ledger after : Ledger} (h : ledger.Within)
    (hm : ledger.Moves true after) : after.Within := by
  cases hm with
  | same => exact h
  | charged hadm =>
    intro token node hn
    obtain ⟨before, hbef, rfl⟩ := nodes_onLineage hn
    split
    · rename_i htok
      exact (h token before hbef).charge (hadm token htok before hbef)
    · exact h token before hbef
  | released =>
    intro token node hn
    obtain ⟨before, hbef, rfl⟩ := nodes_onLineage hn
    split
    · exact (h token before hbef).without _ _
    · exact h token before hbef
  | created =>
    intro token node hn
    by_cases htok : token = ledger.next
    · obtain rfl : fresh _ _ _ = node := by
        simpa [withChild, htok] using hn
      exact within_fresh _ _ _
    · exact h token node ((Function.update_of_ne htok _ _).symm.trans hn)
  | @removed dropped =>
    intro token node hn
    by_cases htok : token = dropped
    · simp [withoutScope, htok] at hn
    · exact h token node ((Function.update_of_ne htok _ _).symm.trans hn)

theorem within_tryProcess {id : Vector UInt8 16} {policy : ResourceBudgetPolicy} {state : State}
    (h : tryProcess id policy = .ok state) : state.ledger.Within := by
  simp only [tryProcess, ok_iff] at h
  obtain ⟨_, -, -, -, rfl⟩ := h
  intro token node hn
  by_cases htok : token = 0
  · obtain rfl : fresh _ _ _ = node := by simpa [process, htok] using hn
    exact within_fresh _ _ _
  · simp [process, htok] at hn

section

variable {state after : State} {steps : List (Transition State (Operation × Except Failure Unit))}

theorem State.Valid.within_run (h : state.Valid) (hwi : state.ledger.Within)
    (run : Run Step state steps after) (hchk : ∀ step ∈ steps, step.label.1.isInfallible = false) :
    after.ledger.Within := by
  induction run with
  | nil => exact hwi
  | cons step _ ih =>
    have hp := h.step step
    have hfal := hchk _ List.mem_cons_self
    rw [hfal] at hp
    exact ih hp.valid (hwi.moves hp.moves) fun other ho => hchk other (List.mem_cons_of_mem _ ho)

/-! ## Fallible admissions -/

/-- The scope a fallible admission charges, with its ancestors. -/
def State.admissionOwner (state : State) : Operation → Option Nat
  | .tryReserve token _ _ => some token
  | .tryGrow reservation _ => some reservation.owner
  | .tryGrowAccount account _ => some account.owner
  | .reserveScopeBookkeeping token =>
    -- a filled slot is not charged again
    if token ∈ state.bookkeeping.map Prod.fst then none else (state.ledger.up token).join
  | _ => none

open State

theorem settle_eq_ok {outcome : Except Failure State} :
    state.settle outcome = (.ok (), after) ↔ outcome = .ok after := by
  cases outcome <;> simp [settle]

theorem add_of_admission {operation : Operation} {owner : Nat}
    (hown : state.admissionOwner operation = some owner)
    (h : state.perform operation = (.ok (), after)) :
    ∃ resourceClass amounts, state.ledger.add owner resourceClass amounts true =
      .ok after.ledger := by
  cases operation with
  | tryReserve token resourceClass amounts =>
    obtain rfl := Option.some.inj hown
    obtain ⟨ledger, hadd, rfl⟩ : ∃ ledger,
      state.ledger.add token resourceClass amounts.values true =
        .ok ledger ∧ _ = after := by
      simpa only [perform, settle_eq_ok, tryReserve, ok_iff] using h
    exact ⟨_, _, hadd⟩
  | tryGrow =>
    obtain rfl := Option.some.inj hown
    simp only [perform, settle_eq_ok, tryGrow, ok_iff] at h
    obtain ⟨_, -, ledger, hadd, rfl⟩ := h
    exact ⟨_, _, hadd⟩
  | tryGrowAccount =>
    obtain rfl := Option.some.inj hown
    simp only [perform, settle_eq_ok, growAccount, ok_iff] at h
    obtain ⟨ledger, hadd, rfl⟩ := h
    exact ⟨_, _, hadd⟩
  | reserveScopeBookkeeping token =>
    obtain ⟨hs, hup⟩ : token ∉ state.bookkeeping.map Prod.fst ∧
        state.ledger.up token = some (some owner) := by
      simpa [admissionOwner, Option.join_eq_some_iff] using hown
    obtain ⟨_, hn, hpar⟩ := up_eq_some.1 hup
    simp only [perform, settle_eq_ok, reserveScopeBookkeeping, ok_iff, if_neg hs, hn] at h
    obtain ⟨_, ⟨⟩, -, -, amounts, -, _, hfd, ledger, hadd, rfl⟩ := h
    obtain rfl := Option.some.inj (hpar.symm.trans hfd)
    exact ⟨_, _, hadd⟩
  | _ => simp [admissionOwner] at hown

/-- **A successful admission is within the limits of every node it charges.** -/
theorem State.Valid.within_of_admission (h : state.Valid) {operation : Operation} {owner : Nat}
    (hown : state.admissionOwner operation = some owner)
    (hp : state.perform operation = (.ok (), after)) :
    ∀ ancestor ∈ state.ledger.lineage owner, ∀ node, after.ledger.nodes ancestor = some node →
      ∀ dimension, node.used dimension ≤ node.policy.limits.values dimension := by
  obtain ⟨_, _, hadd⟩ := add_of_admission hown hp
  have hl : (state.ledger.up owner).isSome := live_of_add hadd
  obtain ⟨hadm, haf⟩ := (add_eq_ok h.exact.sound.forest hl).1 hadd
  intro ancestor hanc node hn dimension
  rw [haf] at hn
  obtain ⟨before, hbef, rfl⟩ := nodes_onLineage hn
  rw [if_pos hanc]
  exact (hadm ancestor hanc before hbef dimension).2.1 rfl

/-! ## Control headroom -/

def Ledger.controlWithin (ledger : Ledger) (token owner : Nat) (resourceClass : ResourceClass) :
    Bool :=
  resourceClass = .control ∧ token ∈ ledger.lineage owner

theorem total_within (ledger : Ledger) (token : Nat) (charges : Multiset Charge)
    (dimension : ResourceDimension) : total (ledger.within token) charges dimension =
      total (ledger.dataWithin token) charges dimension +
        total (ledger.controlWithin token) charges dimension := by
  rw [total, total, total, ← Multiset.sum_map_add]
  refine congrArg Multiset.sum (Multiset.map_congr rfl fun charge _ => ?_)
  cases hc : charge.resourceClass <;>
    simp [within, dataWithin, controlWithin]

/-- **Control work that fits the headroom is admitted**, however much data is held. -/
theorem State.Valid.control_admitted (h : state.Valid) (hwi : state.ledger.Within) {token : Nat}
    (hrch : state.Reaches token) (amounts : ResourceAmounts)
    (hf : ∀ ancestor ∈ state.ledger.lineage token, ∀ node,
      state.ledger.nodes ancestor = some node → ∀ dimension,
        total (state.ledger.controlWithin ancestor) state.charges dimension +
            amounts.values dimension ≤ node.policy.controlReserve.values dimension) :
    ∃ after, state.perform (.tryReserve token .control amounts) = (.ok (), after) := by
  have hadm : ∀ ancestor ∈ state.ledger.lineage token, ∀ node,
      state.ledger.nodes ancestor = some node → node.Admits .control amounts.values true := by
    intro ancestor hanc node hn dimension
    have hu := h.exact.used_eq ancestor node hn dimension
    have hdt := h.exact.dataUsed_eq ancestor node hn dimension
    have hdataLimit := (hwi ancestor node hn dimension).2
    have hcon := hf ancestor hanc node hn dimension
    have hres := node.policy.reserve_lt dimension
    have hwd := node.policy.limits.lt_width dimension
    rw [total_within, ← hdt] at hu
    rw [dataLimit] at hdataLimit
    have hl : node.used dimension + amounts.values dimension ≤
        node.policy.limits.values dimension := by omega
    refine ⟨hl.trans_lt (hwd.trans (by decide)), fun _ => hl, ?_⟩
    rintro - ⟨⟩
  have hadd := (add_eq_ok h.exact.sound.forest (h.live_of_reaches hrch)).2 ⟨hadm, rfl⟩
  obtain ⟨after, haf⟩ : ∃ after, state.tryReserve token .control amounts = .ok after := by
    rw [tryReserve, hadd]
    exact ⟨_, rfl⟩
  exact ⟨after, settle_eq_ok.2 haf⟩

end

/-- **Resource limits and control headroom.** -/
theorem ledger_limits {id : Vector UInt8 16} {policy : ResourceBudgetPolicy} {initial state : State}
    {steps : List (Transition State (Operation × Except Failure Unit))}
    (hstart : tryProcess id policy = .ok initial) (run : Run Step initial steps state) :
    ((∀ step ∈ steps, step.label.1.isInfallible = false) →
      ∀ token node, state.ledger.nodes token = some node → ∀ dimension,
        node.used dimension ≤ node.policy.limits.values dimension ∧ node.dataUsed dimension ≤
          node.policy.limits.values dimension - node.policy.controlReserve.values dimension) ∧
    (∀ step ∈ steps, step.label.2 = .ok () → ∀ owner,
      step.before.admissionOwner step.label.1 = some owner →
        ∀ ancestor ∈ step.before.ledger.lineage owner, ∀ node,
          step.after.ledger.nodes ancestor = some node → ∀ dimension,
            node.used dimension ≤ node.policy.limits.values dimension) ∧
    ((∀ step ∈ steps, step.label.1.isInfallible = false) → ∀ token amounts, state.Reaches token →
        (∀ ancestor ∈ state.ledger.lineage token, ∀ node,
          state.ledger.nodes ancestor = some node → ∀ dimension,
            total (state.ledger.controlWithin ancestor) state.charges dimension +
                amounts.values dimension ≤ node.policy.controlReserve.values dimension) →
        ∃ after, state.perform (.tryReserve token .control amounts) = (.ok (), after)) := by
  have hini := valid_tryProcess hstart
  have hwi := hini.within_run (within_tryProcess hstart) run
  refine ⟨fun hchk token node hn => hwi hchk token node hn, ?_, ?_⟩
  · intro step hst hok owner hown
    obtain ⟨_, _, -, hps, ⟨-, hpr⟩, -⟩ := run.split_of_mem hst
    rw [hok] at hpr
    exact (hini.run hps).within_of_admission hown hpr
  · intro hchk token amounts hrch hf
    exact (hini.run run).control_admitted (hwi hchk) hrch amounts hf

/-! ## A full tree -/

/-- Data takes all it can get, and is refused more. -/
def sampleFull : List Operation :=
  [.workspace 0 sampleId samplePolicy, .tryReserve 1 .data (.memory 90 (by decide)),
    .tryReserve 1 .data (.memory 1 one_lt_width)]

theorem ledger_limits_sampleFull :
    (∃ node, (sampleRoot.performAll sampleFull).ledger.nodes 0 = some node ∧
      node.used .memoryBytes = 90 ∧ 90 ≤ node.policy.limits.values .memoryBytes) ∧
    ∃ after, (sampleRoot.performAll sampleFull).perform
      (.tryReserve 1 .control (.memory 10 (by decide))) = (.ok (), after) := by
  have hen : sampleRoot.EnabledAll sampleFull := by decide +kernel
  have hchk : ∀ step ∈ sampleRoot.transitions sampleFull, step.label.1.isInfallible = false := by
    simp [State.transitions, sampleFull, Operation.isInfallible]
  obtain ⟨hl, -, hcon⟩ := ledger_limits tryProcess_sampleRoot (run_transitions hen)
  constructor
  · obtain ⟨node, hn, hu⟩ : ∃ node, (sampleRoot.performAll sampleFull).ledger.nodes 0 = some node ∧
          node.used .memoryBytes = 90 :=
      Option.map_eq_some_iff.1 (by decide +kernel)
    exact ⟨node, hn, hu, hu ▸ (hl hchk 0 node hn .memoryBytes).1⟩
  · -- no control work yet: the whole headroom of both scopes is free
    have hfr : ∀ ancestor ∈ (sampleRoot.performAll sampleFull).ledger.lineage 1,
        ∀ dimension ∈ ResourceDimension.all,
          (((sampleRoot.performAll sampleFull).ledger.nodes ancestor).map fun node =>
            node.policy.controlReserve.values dimension) = some 10 ∧
          total ((sampleRoot.performAll sampleFull).ledger.controlWithin ancestor)
            (sampleRoot.performAll sampleFull).charges dimension + memoryOnly 10 dimension ≤
              10 := by
      decide +kernel
    refine hcon hchk 1 _ (by decide +kernel) fun ancestor hanc node hn dimension => ?_
    obtain ⟨hres, hft⟩ := hfr ancestor hanc dimension (ResourceDimension.mem_all _)
    rw [hn] at hres
    exact hft.trans (Option.some.inj hres).ge

end CodeFabric.Budget
