import CodeFabric.Activation.Admission
import CodeFabric.Activation.Derivation

/-! # Leases, generations and barriers of the admission gate

What a gate guarantees over every sequence of calls. Each call is one move of a small automaton on
the phase, the generation and the barrier counter (`moves_of_step`), and the laws are invariants of
that automaton:

* **`Moves.generation_le`**: the admission generation never decreases.
* **`Moves.outdated`**: after a selection of generation `g` no lease of `g` or before is issued.
* **`Moves.spent`**: a barrier that was published or aborted is never the closing barrier again. -/

namespace CodeFabric.Activation

open List hiding Vector

open Fallible Command Runs FabricAdmissionRuntime

/-! ## What a call does -/

/-- What a call does beyond changing the phase. -/
inductive AdmissionEffect
  | quiet
  | leases (lease : FabricQueryLease)
  | selects (epoch : EpochId)
  | publishes (barrier : ActivationBarrier) (epoch : EpochId)
  | aborts (barrier : ActivationBarrier)
  deriving DecidableEq, Repr

namespace AdmissionEffect

def lease : AdmissionEffect → Option FabricQueryLease
  | .leases lease => some lease
  | _ => none

/-- The epoch whose selection a call installs, publishes or recovers. -/
def selection : AdmissionEffect → Option EpochId
  | .selects epoch | .publishes _ epoch => some epoch
  | _ => none

def consumed : AdmissionEffect → Option ActivationBarrier
  | .publishes barrier _ | .aborts barrier => some barrier
  | _ => none

end AdmissionEffect

/-- The effect of a call, read off its request and its answer. A recovery that finds the gate
already reopened selects nothing. -/
def AdmissionCall.effect : AdmissionCall → AdmissionEffect
  | (.lease _, .ok (.lease lease)) => .leases lease
  | (.install event _ _ _, .ok _) => .selects event.pins.epoch
  | (.publish barrier _ candidate, .ok _) => .publishes barrier candidate
  | (.abort barrier _, .ok _) => .aborts barrier
  | (.recover _ _ _ event _ _, .ok (.publication .publishedClosed)) => .selects event.pins.epoch
  | _ => .quiet

def AdmissionOperation.presented : AdmissionOperation → Option ActivationBarrier
  | .publish barrier _ _ | .reopen barrier _ | .finishHandoff barrier _ | .abort barrier _ =>
    some barrier
  | _ => none

def AdmissionPhase.barrier : AdmissionPhase → Option ActivationBarrier
  | .closed barrier | .swapped barrier _ _ => some barrier
  | _ => none

/-- The head most recently selected through a gate that started with `head`. -/
def selectedAfter (head : ExpectedHead) :
    List (Transition FabricAdmissionRuntime AdmissionCall) → ExpectedHead
  | [] => head
  | x :: steps => selectedAfter ((x.label.effect.selection.map .epoch).getD head) steps

/-! ## The automaton -/

/-- The moves of a gate of one runtime instance. -/
inductive Moves (runtimeInstance : Nat) : AdmissionState → AdmissionEffect → AdmissionState → Prop
  | stay (s : AdmissionState) : Moves runtimeInstance s .quiet s
  | lease {s : AdmissionState} (epoch : EpochId) (hopen : s.phase = .open) :
      Moves runtimeInstance s (.leases ⟨epoch, s.admissionGeneration⟩) s
  | close {s : AdmissionState} {barrier : ActivationBarrier} (hopen : s.phase = .open)
      (hid : barrier.barrierId = s.nextBarrierId)
      (hinstance : barrier.runtimeInstance = runtimeInstance) :
      Moves runtimeInstance s .quiet
        { s with phase := .closed barrier, nextBarrierId := s.nextBarrierId + 1 }
  | publish {s : AdmissionState} {barrier : ActivationBarrier} (event : ActivationEventId)
      (epoch : EpochId) (hclosed : s.phase = .closed barrier) :
      Moves runtimeInstance s (.publishes barrier epoch)
        { s with phase := .swapped barrier event epoch }
  | abort {s : AdmissionState} {barrier : ActivationBarrier} (hclosed : s.phase = .closed barrier) :
      Moves runtimeInstance s (.aborts barrier) { s with phase := .open }
  | install {s : AdmissionState} {epoch : EpochId} (hphase : s.phase = .recovering (.epoch epoch)) :
      Moves runtimeInstance s (.selects epoch)
        { s with phase := .open, admissionGeneration := s.admissionGeneration + 1 }
  | recover {s : AdmissionState} {barrier : ActivationBarrier} (event : ActivationEventId)
      {epoch : EpochId}
      (hphase : s.phase = .recovering (.epoch epoch) ∨ ∃ closing, s.phase = .closed closing)
      (hid : barrier.barrierId = s.nextBarrierId)
      (hinstance : barrier.runtimeInstance = runtimeInstance) :
      Moves runtimeInstance s (.selects epoch)
        { s with phase := .swapped barrier event epoch, nextBarrierId := s.nextBarrierId + 1 }
  | republish {s : AdmissionState} {barrier : ActivationBarrier} {event : ActivationEventId}
      {epoch : EpochId} (hswapped : s.phase = .swapped barrier event epoch) :
      Moves runtimeInstance s (.selects epoch) s
  | reopen {s : AdmissionState} {barrier : ActivationBarrier} {event : ActivationEventId}
      {epoch : EpochId} (hswapped : s.phase = .swapped barrier event epoch) :
      Moves runtimeInstance s .quiet
        { s with phase := .open, admissionGeneration := s.admissionGeneration + 1 }
  | release {s : AdmissionState}
      (hphase : (∃ head, s.phase = .recovering head) ∨ ∃ barrier, s.phase = .closed barrier) :
      Moves runtimeInstance s .quiet
        { s with phase := .open, admissionGeneration := s.admissionGeneration + 1 }
  | drain {s : AdmissionState}
      (hphase : s.phase = .open ∨ ∃ barrier event epoch, s.phase = .swapped barrier event epoch) :
      Moves runtimeInstance s .quiet { s with phase := .draining }

/-! ## Every call is a move -/

theorem advanceAdmissionGeneration_eq_ok {state state' : AdmissionState}
    (h : advanceAdmissionGeneration state = .ok state') :
    state' = { state with admissionGeneration := state.admissionGeneration + 1 } := by
  simp only [advanceAdmissionGeneration, ok_iff, checkedAdd_eq_some] at h
  obtain ⟨_, ⟨_, rfl⟩, rfl⟩ := h
  rfl

variable {gate : FabricAdmissionRuntime} {barrier : ActivationBarrier}

theorem nextBarrier_eq_ok {expected : ExpectedHead} {fence : WriterFence} {state : AdmissionState}
    (h : gate.nextBarrier expected fence = .ok (barrier, state)) :
    barrier.barrierId = gate.state.nextBarrierId ∧ barrier.runtimeInstance = gate.runtimeInstance ∧
      state = { gate.state with nextBarrierId := gate.state.nextBarrierId + 1 } := by
  simp only [nextBarrier, ok_iff, checkedAdd_eq_some, Prod.mk.injEq] at h
  obtain ⟨_, ⟨_, rfl⟩, rfl, rfl⟩ := h
  exact ⟨rfl, rfl, rfl⟩

theorem requireClosedBarrier_eq_ok {u : Unit} (h : gate.requireClosedBarrier barrier = .ok u) :
    barrier.runtimeInstance = gate.runtimeInstance ∧ gate.state.phase = .closed barrier := by
  simp only [requireClosedBarrier, ok_iff] at h
  obtain ⟨_, hi, h⟩ := h
  cases hph : gate.state.phase with
  | closed =>
    simp only [hph, ensure_eq_ok] at h
    exact ⟨hi, by rw [h]⟩
  | _ => simp [hph] at h

variable {event : ActivationEvent} {chain : ActivationChain} {candidate selected : EpochId}
  {barrier : ActivationBarrier} {head : ExpectedHead} {fence active : WriterFence}
  {state : AdmissionState} {after : FabricAdmissionRuntime} {call : AdmissionCall}
  {operation : AdmissionOperation} {answer : AdmissionAnswer} {error : AdmissionError}
  {runtimeInstance : Nat} {s t : AdmissionState} {effect : AdmissionEffect}

/-- Installing a reconciled head selects its epoch. -/
theorem moves_install
    (h : gate.installReconciledSelectedHead event chain candidate active = .ok state) :
    Moves gate.runtimeInstance gate.state (.selects event.pins.epoch) state := by
  simp only [installReconciledSelectedHead, ok_iff] at h
  obtain ⟨_, _, _, _, _, _, _, _, h⟩ := h
  cases hph : gate.state.phase with
  | recovering =>
    simp only [hph, ok_iff] at h
    obtain ⟨_, hdur, _, hadv, rfl⟩ := h
    rw [advanceAdmissionGeneration_eq_ok hadv]
    exact .install (by rw [hph, hdur])
  | _ => simp [hph] at h

/-- A shutdown selects nothing. -/
theorem moves_shutdown (h : gate.closeForShutdown = .ok state) :
    Moves gate.runtimeInstance gate.state .quiet state := by
  unfold closeForShutdown at h
  cases hph : gate.state.phase with
  | «open» =>
    simp only [hph, Except.ok.injEq] at h
    rw [← h]
    exact .drain (.inl hph)
  | draining =>
    simp only [hph, Except.ok.injEq] at h
    rw [← h]
    exact .stay _
  | _ => simp [hph] at h

/-- Closing issues a barrier and selects nothing. -/
theorem moves_close (h : gate.closeAdmission head fence = .ok (barrier, state)) :
    Moves gate.runtimeInstance gate.state .quiet state := by
  simp only [closeAdmission, ok_iff, Prod.mk.injEq] at h
  obtain ⟨_, ho, ⟨_⟩, hf, rfl, rfl⟩ := h
  obtain ⟨hid, hin, rfl⟩ := nextBarrier_eq_ok hf
  exact .close ho hid hin

/-- Publishing selects the candidate and takes the barrier of this gate. -/
theorem moves_publish (h : gate.publishSelectedEpoch barrier chain candidate = .ok state) :
    barrier.runtimeInstance = gate.runtimeInstance ∧
      Moves gate.runtimeInstance gate.state (.publishes barrier candidate) state := by
  simp only [publishSelectedEpoch, ok_iff] at h
  obtain ⟨_, hbar, _, _, event, _, _, _, _, _, _, ⟨_, rfl⟩, rfl⟩ := h
  obtain ⟨hi, hcl⟩ := requireClosedBarrier_eq_ok hbar
  exact ⟨hi, .publish event.eventId event.pins.epoch hcl⟩

/-- Reopening takes the barrier of the gate and selects nothing. -/
theorem moves_reopen (h : gate.reopenAfterReconciliation barrier head = .ok state) :
    gate.state.phase.barrier = some barrier ∧
      Moves gate.runtimeInstance gate.state .quiet state := by
  unfold reopenAfterReconciliation at h
  cases hph : gate.state.phase with
  | swapped =>
    simp only [hph, ok_iff] at h
    obtain ⟨_, rfl, _, _, _, hadv, rfl⟩ := h
    rw [advanceAdmissionGeneration_eq_ok hadv]
    exact ⟨rfl, .reopen hph⟩
  | _ => simp [hph] at h

theorem moves_finishHandoff (h : gate.finishPredecessorHandoff barrier selected = .ok state) :
    gate.state.phase.barrier = some barrier ∧
      Moves gate.runtimeInstance gate.state .quiet state := by
  unfold finishPredecessorHandoff at h
  cases hph : gate.state.phase with
  | swapped =>
    simp only [hph, ok_iff] at h
    obtain ⟨_, ⟨rfl, _⟩, rfl⟩ := h
    exact ⟨rfl, .drain (.inr ⟨_, _, _, hph⟩)⟩
  | _ => simp [hph] at h

/-- An abort consumes the barrier of this gate. -/
theorem moves_abort (h : gate.abortBeforeSelection barrier chain = .ok state) :
    barrier.runtimeInstance = gate.runtimeInstance ∧
      Moves gate.runtimeInstance gate.state (.aborts barrier) state := by
  simp only [abortBeforeSelection, ok_iff] at h
  obtain ⟨_, hbar, _, _, rfl⟩ := h
  obtain ⟨hi, hcl⟩ := requireClosedBarrier_eq_ok hbar
  exact ⟨hi, .abort hcl⟩

/-- A recovery publishes the selected epoch behind a fresh barrier, finds it published already, or
finds the gate open and changes nothing. -/
theorem moves_recover {allow : Bool} {publication : RecoverySelectionPublication}
    (h : gate.recoverSelectedEpoch head fence active event chain allow = .ok (publication, state)) :
    (publication = .publishedClosed ∧
        Moves gate.runtimeInstance gate.state (.selects event.pins.epoch) state) ∨
      publication = .alreadyReopened ∧ Moves gate.runtimeInstance gate.state .quiet state := by
  simp only [recoverSelectedEpoch, ok_iff] at h
  obtain ⟨_, _, _, _, _, _, _, _, _, _, _, _, h⟩ := h
  cases hph : gate.state.phase with
  | recovering =>
    simp only [hph, ok_iff, Prod.mk.injEq] at h
    obtain ⟨_, hdur, ⟨fresh, advanced⟩, hf, rfl, rfl⟩ := h
    obtain ⟨hid, hin, rfl⟩ := nextBarrier_eq_ok hf
    exact .inl ⟨rfl, .recover event.eventId (.inl (by rw [hph, hdur])) hid hin⟩
  | closed closing =>
    simp only [hph, ok_iff, Prod.mk.injEq] at h
    obtain ⟨_, _, ⟨fresh, advanced⟩, hf, rfl, rfl⟩ := h
    obtain ⟨hid, hin, rfl⟩ := nextBarrier_eq_ok hf
    exact .inl ⟨rfl, .recover event.eventId (.inr ⟨closing, hph⟩) hid hin⟩
  | swapped closing =>
    simp only [hph, ok_iff, Prod.mk.injEq] at h
    obtain ⟨_, ⟨_, he, _⟩, rfl, rfl⟩ := h
    exact .inl ⟨rfl, .republish (he ▸ hph)⟩
  | «open» =>
    simp only [hph, ok_iff, Prod.mk.injEq] at h
    obtain ⟨_, _, rfl, rfl⟩ := h
    exact .inr ⟨rfl, .stay _⟩
  | draining => simp [hph] at h

/-- A recovery that answers `AlreadyReopened` found the gate open and left it so. -/
theorem kept_of_alreadyReopened {allow : Bool}
    (h : gate.recoverSelectedEpoch head fence active event chain allow =
      .ok (.alreadyReopened, state)) : gate.state.phase = .open ∧ state = gate.state := by
  simp only [recoverSelectedEpoch, ok_iff] at h
  obtain ⟨_, _, _, _, _, _, _, _, _, _, _, _, h⟩ := h
  cases hph : gate.state.phase with
  | «open» =>
    simp only [hph, ok_iff, Prod.mk.injEq] at h
    obtain ⟨_, _, _, rfl⟩ := h
    exact ⟨rfl, rfl⟩
  | draining => simp [hph] at h
  | _ =>
    simp only [hph, ok_iff, Prod.mk.injEq, reduceCtorEq, false_and, and_false, exists_false] at h

theorem moves_reopenRecovered (h : gate.reopenRecoveredSelection event chain active = .ok state) :
    Moves gate.runtimeInstance gate.state .quiet state := by
  simp only [reopenRecoveredSelection, ok_iff] at h
  obtain ⟨_, _, _, _, h⟩ := h
  cases hph : gate.state.phase with
  | swapped =>
    simp only [hph, ok_iff] at h
    obtain ⟨_, _, _, hadv, rfl⟩ := h
    rw [advanceAdmissionGeneration_eq_ok hadv]
    exact .reopen hph
  | «open» =>
    simp only [hph, pure_eq_ok] at h
    rw [← h]
    exact .stay _
  | _ => simp [hph] at h

theorem moves_finishRecovered (h : gate.finishRecoveredPredecessor event chain active = .ok state) :
    Moves gate.runtimeInstance gate.state .quiet state := by
  simp only [finishRecoveredPredecessor, ok_iff] at h
  obtain ⟨_, _, _, _, h⟩ := h
  cases hph : gate.state.phase with
  | swapped =>
    simp only [hph, ok_iff] at h
    obtain ⟨_, _, rfl⟩ := h
    exact .drain (.inr ⟨_, _, _, hph⟩)
  | «open» =>
    simp only [hph, pure_eq_ok] at h
    rw [← h]
    exact .drain (.inl hph)
  | _ => simp [hph] at h

theorem moves_noSelection (h : gate.recoverProvedNoSelection head fence active chain = .ok state) :
    Moves gate.runtimeInstance gate.state .quiet state := by
  simp only [recoverProvedNoSelection, ok_iff] at h
  obtain ⟨_, _, _, _, h⟩ := h
  cases hph : gate.state.phase with
  | recovering durable =>
    simp only [hph, ok_iff] at h
    obtain ⟨_, _, advanced, hadv, rfl⟩ := h
    rw [advanceAdmissionGeneration_eq_ok hadv]
    exact .release (.inl ⟨durable, hph⟩)
  | closed closing =>
    simp only [hph, ok_iff] at h
    obtain ⟨_, _, advanced, hadv, rfl⟩ := h
    rw [advanceAdmissionGeneration_eq_ok hadv]
    exact .release (.inr ⟨closing, hph⟩)
  | «open» =>
    simp only [hph, pure_eq_ok] at h
    rw [← h]
    exact .stay _
  | _ => simp [hph] at h

/-- A call fails and changes nothing, or is performed. -/
theorem admissionStep_cases (h : AdmissionStep gate call after) :
    (∃ error, call.2 = .error error ∧ after = gate) ∨
      ∃ answer state, call.1.perform gate = .ok (answer, state) ∧ call.2 = .ok answer ∧
        after = { gate with state } := by
  unfold AdmissionStep AdmissionOperation.call at h
  cases hp : call.1.perform gate with
  | error error =>
    rw [hp, Prod.mk.injEq] at h
    exact .inl ⟨error, h.1.symm, h.2.symm⟩
  | ok result =>
    rw [hp, Prod.mk.injEq] at h
    exact .inr ⟨result.1, result.2, rfl, h.1.symm, h.2.symm⟩

/-- **Every call is a move** with the effect its caller sees. -/
theorem moves_of_perform (h : operation.perform gate = .ok (answer, state)) :
    Moves gate.runtimeInstance gate.state (AdmissionCall.effect (operation, .ok answer)) state := by
  cases operation <;>
    simp only [AdmissionOperation.perform, map_eq_ok, Prod.mk.injEq, Prod.exists] at h
  case install =>
      obtain ⟨_, h, rfl, rfl⟩ := h
      exact moves_install h
  case lease epoch =>
      simp only [admitSelected, ok_iff] at h
      obtain ⟨_, ⟨_, ho, rfl⟩, rfl, rfl⟩ := h
      exact .lease epoch ho
  case shutdown =>
      obtain ⟨_, h, rfl, rfl⟩ := h
      exact moves_shutdown h
  case close =>
      obtain ⟨_, _, h, rfl, rfl⟩ := h
      exact moves_close h
  case publish =>
      obtain ⟨_, h, rfl, rfl⟩ := h
      exact (moves_publish h).2
  case reopen =>
      obtain ⟨_, h, rfl, rfl⟩ := h
      exact (moves_reopen h).2
  case finishHandoff =>
      obtain ⟨_, h, rfl, rfl⟩ := h
      exact (moves_finishHandoff h).2
  case abort =>
      obtain ⟨_, h, rfl, rfl⟩ := h
      exact (moves_abort h).2
  case recover =>
      obtain ⟨_, _, h, rfl, rfl⟩ := h
      obtain ⟨rfl, hm⟩ | ⟨rfl, hm⟩ := moves_recover h
      · exact hm
      · exact hm
  case reopenRecovered =>
      obtain ⟨_, h, rfl, rfl⟩ := h
      exact moves_reopenRecovered h
  case finishRecovered =>
      obtain ⟨_, h, rfl, rfl⟩ := h
      exact moves_finishRecovered h
  case noSelection =>
      obtain ⟨_, h, rfl, rfl⟩ := h
      exact moves_noSelection h

theorem effect_error : AdmissionCall.effect (operation, .error error) = .quiet := by
  cases operation <;> rfl

/-- **Every call is a move** of the gate's automaton, under the gate's own instance. -/
theorem moves_of_step (h : AdmissionStep gate call after) :
    after.runtimeInstance = gate.runtimeInstance ∧
      Moves gate.runtimeInstance gate.state call.effect after.state := by
  obtain ⟨_⟩ := call
  obtain ⟨_, rfl, rfl⟩ | ⟨_, _, hp, rfl, rfl⟩ := admissionStep_cases h
  · rw [effect_error]
    exact ⟨rfl, .stay _⟩
  · exact ⟨rfl, moves_of_perform hp⟩

/-! ## Invariants of the automaton -/

section

variable (h : Moves runtimeInstance s effect t)
include h

/-- The generation never decreases. -/
theorem Moves.generation_le : s.admissionGeneration ≤ t.admissionGeneration := by
  cases h <;> simp

variable {lease : FabricQueryLease}

/-- A lease is of the current generation of an open gate. -/
theorem Moves.lease_open (hl : effect.lease = some lease) :
    s.phase = .open ∧ lease.admissionGeneration = s.admissionGeneration ∧ t = s := by
  cases h with
  | lease _ ho =>
    cases hl
    exact ⟨ho, rfl, rfl⟩
  | _ => cases hl

/-- A draining gate stays draining. -/
theorem Moves.draining (hs : s.phase = .draining) : t.phase = .draining := by
  cases h <;> simp_all

/-- A gate that issues no further lease of generation `generation` or before: it is past that
generation, or it can only get past it by reopening. -/
def AdmissionState.Outdates (generation : Nat) (s : AdmissionState) : Prop :=
  generation < s.admissionGeneration ∨ generation ≤ s.admissionGeneration ∧
    (s.phase = .draining ∨ ∃ barrier event epoch, s.phase = .swapped barrier event epoch)

/-- A selection outdates the generation it is made in. -/
theorem Moves.selection_outdates
    (hsel : effect.selection.isSome) : t.Outdates s.admissionGeneration := by
  cases h with
  | publish | recover => exact .inr ⟨le_rfl, .inr ⟨_, _, _, rfl⟩⟩
  | install hph => exact .inl (Nat.lt_succ_self _)
  | republish hswp => exact .inr ⟨le_rfl, .inr ⟨_, _, _, hswp⟩⟩
  | _ => cases hsel

/-- What is outdated stays outdated. -/
theorem Moves.outdated {generation : Nat} (hs : s.Outdates generation) : t.Outdates generation := by
  have hgen := h.generation_le
  obtain hlt | ⟨hle, hph⟩ := hs
  · exact .inl (hlt.trans_le hgen)
  · cases h with
    | stay | lease | republish => exact .inr ⟨hle, hph⟩
    | recover => exact .inr ⟨hle, .inr ⟨_, _, _, rfl⟩⟩
    | drain => exact .inr ⟨hle, .inl rfl⟩
    | reopen | install | release => exact .inl (Nat.lt_succ_of_le hle)
    -- an open or a closed gate is neither draining nor swapped
    | close ho => simp [ho] at hph
    | publish _ _ hcl => simp [hcl] at hph
    | abort hcl => simp [hcl] at hph

/-- The barrier of the phase is one this gate has issued. -/
def AdmissionState.Issued (runtimeInstance : Nat) (s : AdmissionState) : Prop :=
  ∀ barrier, s.phase.barrier = some barrier →
    barrier.barrierId < s.nextBarrierId ∧ barrier.runtimeInstance = runtimeInstance

/-- The barriers of a gate are those it issued. -/
theorem Moves.issued (hs : s.Issued runtimeInstance) : t.Issued runtimeInstance := by
  intro barrier hbar
  cases h with
  | stay | lease | republish => exact hs barrier hbar
  | close _ hid hin =>
    cases hbar
    exact ⟨hid ▸ Nat.lt_succ_self _, hin⟩
  | recover event _ hid hin =>
    cases hbar
    exact ⟨hid ▸ Nat.lt_succ_self _, hin⟩
  | publish event _ hcl =>
    cases hbar
    exact hs _ (by rw [hcl]; rfl)
  | _ => cases hbar

/-- A barrier the gate can never be closed behind again. -/
def AdmissionState.Spent (barrier : ActivationBarrier) (s : AdmissionState) : Prop :=
  barrier.barrierId < s.nextBarrierId ∧ s.phase ≠ .closed barrier

/-- A consumed barrier was that of the closed gate, and is spent. -/
theorem Moves.consumed_spent (hs : s.Issued runtimeInstance)
    (hcon : effect.consumed = some barrier) : s.phase = .closed barrier ∧ t.Spent barrier := by
  cases h with
  | publish _ _ hcl =>
    cases hcon
    exact ⟨hcl, (hs _ (by rw [hcl]; rfl)).1, nofun⟩
  | abort hcl =>
    cases hcon
    exact ⟨hcl, (hs _ (by rw [hcl]; rfl)).1, nofun⟩
  | _ => cases hcon

/-- A spent barrier stays spent. -/
theorem Moves.spent (hs : s.Spent barrier) : t.Spent barrier := by
  obtain ⟨hid, hph⟩ := hs
  cases h with
  | close =>
    refine ⟨Nat.lt_succ_of_lt hid, fun hcl => ?_⟩
    cases hcl
    omega
  | recover => exact ⟨Nat.lt_succ_of_lt hid, nofun⟩
  | stay | lease | republish => exact ⟨hid, hph⟩
  | _ => exact ⟨hid, nofun⟩

end

/-! ## Barriers that are refused -/

theorem requireClosedBarrier_refused : (barrier.runtimeInstance ≠ gate.runtimeInstance →
      gate.requireClosedBarrier barrier = .error .foreignBarrier) ∧
    (barrier.runtimeInstance = gate.runtimeInstance → ∀ closing, gate.state.phase =
      .closed closing → closing ≠ barrier →
        gate.requireClosedBarrier barrier = .error .staleBarrier) := by
  unfold requireClosedBarrier ensure
  refine ⟨fun hfor => ?_, fun hown closing hcl ho => ?_⟩
  · rw [if_neg hfor]
    rfl
  · rw [if_pos hown, hcl]
    show (if closing = barrier then _ else _) = _
    rw [if_neg ho]

theorem refused_of_requireClosedBarrier
    (hop : (∃ chain candidate, operation = .publish barrier chain candidate) ∨
      ∃ chain, operation = .abort barrier chain)
    (h : gate.requireClosedBarrier barrier = .error error) :
    operation.perform gate = .error error := by
  obtain ⟨chain, candidate, rfl⟩ | ⟨chain, rfl⟩ := hop
  · simp only [AdmissionOperation.perform, publishSelectedEpoch, h]
    rfl
  · simp only [AdmissionOperation.perform, abortBeforeSelection, h]
    rfl

theorem answer_of_perform_error (h : AdmissionStep gate call after)
    (hp : call.1.perform gate = .error error) : call.2 = .error error := by
  unfold AdmissionStep AdmissionOperation.call at h
  rw [hp, Prod.mk.injEq] at h
  exact h.1.symm

theorem barrier_of_perform
    (h : operation.perform gate = .ok (answer, state)) (hp : operation.presented = some barrier) :
    gate.state.phase.barrier = some barrier := by
  cases operation <;> cases hp <;>
    simp only [AdmissionOperation.perform, map_eq_ok, Prod.mk.injEq] at h <;>
    obtain ⟨_, h, rfl, rfl⟩ := h
  case publish =>
      obtain ⟨_, hm⟩ := moves_publish h
      cases hm with
      | publish _ _ hcl => rw [hcl]; rfl
  case reopen => exact (moves_reopen h).1
  case finishHandoff => exact (moves_finishHandoff h).1
  case abort =>
      obtain ⟨_, hm⟩ := moves_abort h
      cases hm with
      | abort hcl => rw [hcl]; rfl

theorem lease_of_step (h : AdmissionStep gate call after) (hl : call.effect.lease = some
    lease) : call.1 = .lease lease.epoch := by
  obtain ⟨operation, _⟩ := call
  obtain ⟨_, rfl, rfl⟩ | ⟨_, _, hp, rfl, rfl⟩ := admissionStep_cases h
  · rw [effect_error] at hl
    cases hl
  · cases operation with
    | lease =>
      simp only [AdmissionOperation.perform, map_eq_ok, FabricAdmissionRuntime.admitSelected,
        ok_iff, Prod.mk.injEq] at hp
      obtain ⟨_, ⟨_, _, rfl⟩, rfl, _⟩ := hp
      cases hl
      rfl
    | recover =>
      simp only [AdmissionOperation.perform, map_eq_ok, Prod.mk.injEq, Prod.exists] at hp
      obtain ⟨publication, _, _, rfl, _⟩ := hp
      cases publication <;> cases hl
    | _ => cases hl

/-! ## Runs -/

variable {x y : Transition FabricAdmissionRuntime AdmissionCall} {head : ExpectedHead}

section

variable {initial final : FabricAdmissionRuntime}
  {steps : List (Transition FabricAdmissionRuntime AdmissionCall)}

theorem issued_of_starts (h : Starts initial head) :
    initial.state.Issued initial.runtimeInstance := by
  cases h with
  | fresh | unmaterialized => exact nofun

variable (run : Run AdmissionStep initial steps final)
include run

/-- What every move keeps, a run keeps. -/
theorem run_preserves {P : AdmissionState → Prop}
    (hm : ∀ runtimeInstance s effect t, Moves runtimeInstance s effect t → P s → P t)
    (hini : P initial.state) : P final.state :=
  run.invariant (P := fun gate => P gate.state)
    (fun _ _ _ hst hs => hm _ _ _ _ (moves_of_step hst).2 hs) hini

theorem generation_le_of_run :
    initial.state.admissionGeneration ≤ final.state.admissionGeneration :=
  run_preserves (P := fun s => initial.state.admissionGeneration ≤ s.admissionGeneration) run
    (fun _ _ _ _ h hs => hs.trans h.generation_le) le_rfl

theorem issued_of_run (hini : initial.state.Issued initial.runtimeInstance) :
    final.runtimeInstance = initial.runtimeInstance ∧
      final.state.Issued initial.runtimeInstance := by
  refine run.invariant (P := fun gate => gate.runtimeInstance = initial.runtimeInstance ∧
    gate.state.Issued initial.runtimeInstance) ?_ ⟨rfl, hini⟩
  rintro gate _ _ hs ⟨hin, hi⟩
  obtain ⟨haf, hm⟩ := moves_of_step hs
  rw [hin] at haf hm
  exact ⟨haf, hm.issued hi⟩

theorem issued_of_mem (hsta : Starts initial head) (hx : x ∈ steps) :
    x.before.runtimeInstance = initial.runtimeInstance ∧
      x.before.state.Issued initial.runtimeInstance ∧ AdmissionStep x.before x.label x.after := by
  obtain ⟨_, _, rfl, hp, hst, _⟩ := run.split_of_mem hx
  obtain ⟨hin, hi⟩ := issued_of_run hp (issued_of_starts hsta)
  exact ⟨hin, hi, hst⟩

theorem lease_open_of_mem (hx : x ∈ steps) (hl : x.label.effect.lease = some lease) :
    x.before.state.phase = .open ∧
      lease.admissionGeneration = x.before.state.admissionGeneration := by
  obtain ⟨_, _, rfl, _, hs, _⟩ := run.split_of_mem hx
  obtain ⟨ho, hgen, _⟩ := (moves_of_step hs).2.lease_open hl
  exact ⟨ho, hgen⟩

theorem lease_le_of_run (hx : x ∈ steps) (hl : x.label.effect.lease = some lease) :
    lease.admissionGeneration ≤ final.state.admissionGeneration := by
  obtain ⟨_, hgen⟩ := lease_open_of_mem run hx hl
  obtain ⟨_, _, rfl, _, hs, hfut⟩ := run.split_of_mem hx
  calc lease.admissionGeneration = x.before.state.admissionGeneration := hgen
    _ ≤ x.after.state.admissionGeneration := (moves_of_step hs).2.generation_le
    _ ≤ final.state.admissionGeneration := generation_le_of_run hfut

theorem lt_lease_of_outdates {generation : Nat} (hout : initial.state.Outdates generation)
    (hy : y ∈ steps) (hls : y.label.effect.lease = some lease) :
      generation < lease.admissionGeneration := by
  obtain ⟨hop, hgen⟩ := lease_open_of_mem run hy hls
  obtain ⟨_, _, rfl, hps, _, _⟩ := run.split_of_mem hy
  have hbef : y.before.state.Outdates generation :=
    run_preserves hps (fun _ _ _ _ h => h.outdated) hout
  obtain hlt | ⟨_, hph⟩ := hbef
  · exact hgen ▸ hlt
  · simp [hop] at hph

omit run in
/-- **A selection lies strictly between generations.** -/
theorem selection_separates {past future : List (Transition FabricAdmissionRuntime AdmissionCall)}
    {z : Transition FabricAdmissionRuntime AdmissionCall}
    (run : Run AdmissionStep initial (past ++ z :: future) final)
    (hsel : z.label.effect.selection.isSome) :
    (∀ x ∈ past, ∀ lease, x.label.effect.lease = some lease →
        lease.admissionGeneration ≤ z.before.state.admissionGeneration) ∧
      ∀ y ∈ future, ∀ lease, y.label.effect.lease = some lease →
        z.before.state.admissionGeneration < lease.admissionGeneration := by
  obtain ⟨hp, hst, hfut⟩ := run.split
  have hout := (moves_of_step hst).2.selection_outdates hsel
  exact ⟨fun x hx lease hl => lease_le_of_run hp hx hl,
    fun y hy lease hl => lt_lease_of_outdates hfut hout hy hl⟩

end

variable {steps : List (Transition FabricAdmissionRuntime AdmissionCall)}

theorem selectedAfter_of_no_selection (h : ∀ z ∈ steps, z.label.effect.selection = none) :
    selectedAfter head steps = head := by
  induction steps with
  | nil => rfl
  | cons z steps ih =>
    rw [selectedAfter, h z mem_cons_self]
    exact ih fun z' hz' => h z' (mem_cons_of_mem _ hz')

theorem selectedAfter_append (head : ExpectedHead)
    (past future : List (Transition FabricAdmissionRuntime AdmissionCall)) :
    selectedAfter head (past ++ future) = selectedAfter (selectedAfter head past) future := by
  induction past generalizing head with
  | nil => rfl
  | cons x past ih => exact ih _

variable {initial final : FabricAdmissionRuntime}

/-- Nothing is selected between two leases of one generation. -/
theorem selectedAfter_of_same_generation (head : ExpectedHead)
    {past middle future : List (Transition FabricAdmissionRuntime AdmissionCall)}
    {later : FabricQueryLease}
    (run : Run AdmissionStep initial (past ++ x :: (middle ++ y :: future)) final)
    (hls : x.label.effect.lease = some lease) (hlater : y.label.effect.lease = some later)
    (hsm : lease.admissionGeneration = later.admissionGeneration) :
    selectedAfter head (past ++ x :: middle) = selectedAfter head past := by
  have hmid : ∀ z ∈ middle, z.label.effect.selection = none := by
    intro z hz
    by_contra hsel
    obtain ⟨before, after, rfl⟩ := append_of_mem hz
    have run' : Run AdmissionStep initial
        ((past ++ x :: before) ++ z :: (after ++ y :: future)) final := by
      simpa using run
    obtain ⟨hbef, haf⟩ := selection_separates run' (Option.isSome_iff_ne_none.2 hsel)
    have hle := hbef x (by simp) lease hls
    have hlt := haf y (by simp) later hlater
    omega
  have hx : x.label.effect.selection = none := by
    cases heff : x.label.effect <;> simp_all [AdmissionEffect.lease, AdmissionEffect.selection]
  rw [selectedAfter_append]
  exact selectedAfter_of_no_selection (forall_mem_cons.2 ⟨hx, hmid⟩)

/-- A draining gate issues no lease. -/
theorem no_lease_of_draining (run : Run AdmissionStep initial steps final)
    (hd : initial.state.phase = .draining) (hy : y ∈ steps) : y.label.effect.lease = none := by
  obtain ⟨_, _, rfl, hp, hs, _⟩ := run.split_of_mem hy
  have hbef : y.before.state.phase = .draining :=
    run_preserves (P := fun s => s.phase = .draining) hp (fun _ _ _ _ h => h.draining) hd
  by_contra hl
  obtain ⟨_, hl⟩ := Option.ne_none_iff_exists'.1 hl
  obtain ⟨ho, _⟩ := (moves_of_step hs).2.lease_open hl
  rw [hbef] at ho
  cases ho

/-- A barrier is consumed on the gate it closed, and is spent then. -/
theorem closed_of_consumed (hsta : Starts initial head)
    (run : Run AdmissionStep initial steps final) (hx : x ∈ steps)
    (hcon : x.label.effect.consumed = some barrier) :
    x.before.state.phase = .closed barrier ∧ x.after.state.Spent barrier := by
  obtain ⟨hin, hi, hst⟩ := issued_of_mem run hsta hx
  exact (moves_of_step hst).2.consumed_spent (hin ▸ hi) hcon

/-- Only a recovery answers `AlreadyReopened`. -/
theorem kept_of_step {gate after : FabricAdmissionRuntime} {call : AdmissionCall}
    (h : AdmissionStep gate call after) (hans : call.2 = .ok (.publication .alreadyReopened)) :
    gate.state.phase = .open ∧ after = gate := by
  obtain ⟨_, herror, _⟩ | ⟨answer, state, hperf, hok, hafter⟩ := admissionStep_cases h
  · rw [herror] at hans
    cases hans
  · obtain rfl : answer = .publication .alreadyReopened := Except.ok.inj (hok.symm.trans hans)
    cases hop : call.1 with
    | recover expected fence active event chain allow =>
      rw [hop] at hperf
      simp only [AdmissionOperation.perform, map_eq_ok, Prod.exists, Prod.mk.injEq,
        AdmissionAnswer.publication.injEq] at hperf
      obtain ⟨_, _, hrec, rfl, rfl⟩ := hperf
      obtain ⟨hopen, hsame⟩ := kept_of_alreadyReopened hrec
      exact ⟨hopen, by rw [hafter, hsame]⟩
    | _ =>
      rw [hop] at hperf
      simp [AdmissionOperation.perform, map_eq_ok] at hperf

/-- **Laws of the admission gate**, over every sequence of calls from a fresh or an unmaterialized
gate. A lease is for the epoch its caller presents; the gate holds no epoch to compare it with. -/
theorem admission_gate_laws {initial final : FabricAdmissionRuntime} {head : ExpectedHead}
    {steps : List (Transition FabricAdmissionRuntime AdmissionCall)}
    (hstart : Starts initial head) (run : Run AdmissionStep initial steps final) :
    -- leases are issued only while the phase is open, for the epoch presented
    (∀ x ∈ steps, ∀ lease, x.label.effect.lease = some lease →
      x.before.state.phase = .open ∧ x.label.1 = .lease lease.epoch ∧
        lease.admissionGeneration = x.before.state.admissionGeneration) ∧
    -- the generation never decreases
    (∀ x ∈ steps, x.before.state.admissionGeneration ≤ x.after.state.admissionGeneration) ∧
    -- a selection lies strictly between generations
    (∀ past z future, steps = past ++ z :: future → z.label.effect.selection.isSome →
      (∀ x ∈ past, ∀ lease, x.label.effect.lease = some lease →
        lease.admissionGeneration ≤ z.before.state.admissionGeneration) ∧
      ∀ y ∈ future, ∀ lease, y.label.effect.lease = some lease →
        z.before.state.admissionGeneration < lease.admissionGeneration) ∧
    -- two leases of one generation are issued under one selection
    (∀ past x middle y future lease later, steps = past ++ x :: (middle ++ y :: future) →
      x.label.effect.lease = some lease → y.label.effect.lease = some later →
      lease.admissionGeneration = later.admissionGeneration →
      selectedAfter head (past ++ x :: middle) = selectedAfter head past ∧
        (.epoch lease.epoch = selectedAfter head past →
          .epoch later.epoch = selectedAfter head (past ++ x :: middle) →
          later.epoch = lease.epoch)) ∧
    -- a recovery that finds the gate reopened leaves it as it was
    (∀ x ∈ steps, x.label.2 = .ok (.publication .alreadyReopened) →
      x.before.state.phase = .open ∧ x.after = x.before) ∧
    -- once draining, no lease is issued again
    (∀ past x future, steps = past ++ x :: future → x.after.state.phase = .draining →
      ∀ y ∈ future, y.label.effect.lease = none) ∧
    -- a barrier is consumed at most once
    (∀ past x middle y future barrier, steps = past ++ x :: (middle ++ y :: future) →
      x.label.effect.consumed = some barrier → y.label.effect.consumed ≠ some barrier) ∧
    -- stale and foreign barriers are refused
    (∀ x ∈ steps, ∀ barrier, x.label.1.presented = some barrier → ∀ answer,
      x.label.2 = .ok answer → x.before.state.phase.barrier = some barrier ∧
        barrier.runtimeInstance = initial.runtimeInstance) ∧
    ∀ x ∈ steps, ∀ barrier, ((∃ chain candidate, x.label.1 = .publish barrier chain candidate) ∨
        ∃ chain, x.label.1 = .abort barrier chain) →
      (barrier.runtimeInstance ≠ initial.runtimeInstance → x.label.2 = .error .foreignBarrier) ∧
      (barrier.runtimeInstance = initial.runtimeInstance → ∀ closing,
        x.before.state.phase = .closed closing → closing ≠ barrier →
          x.label.2 = .error .staleBarrier) := by
  refine ⟨fun x hx lease hlease => ?_, fun x hx => ?_, ?_, ?_, fun x hx hans => ?_, ?_, ?_, ?_, ?_⟩
  · obtain ⟨hopen, hgen⟩ := lease_open_of_mem run hx hlease
    obtain ⟨_, _, hstep⟩ := issued_of_mem run hstart hx
    exact ⟨hopen, lease_of_step hstep hlease, hgen⟩
  · obtain ⟨_, _, hstep⟩ := issued_of_mem run hstart hx
    exact (moves_of_step hstep).2.generation_le
  · rintro past z future rfl hselec
    exact selection_separates run hselec
  · rintro past x middle y future lease later rfl hlease hlater hsame
    have hsel := selectedAfter_of_same_generation head run hlease hlater hsame
    refine ⟨hsel, fun hfst hsnd => ?_⟩
    rw [hsel, ← hfst] at hsnd
    exact ExpectedHead.epoch.inj hsnd
  · obtain ⟨_, _, hstep⟩ := issued_of_mem run hstart hx
    exact kept_of_step hstep hans
  · rintro past x future rfl hdrain y hy
    obtain ⟨_, _, hfut⟩ := run.split
    exact no_lease_of_draining hfut hdrain hy
  · rintro past x middle y future barrier rfl hx hy
    obtain ⟨_, _, hfut⟩ := run.split
    obtain ⟨hmid, _, _⟩ := hfut.split
    obtain ⟨_, hspent⟩ := closed_of_consumed hstart run (by simp) hx
    obtain ⟨hcl, _⟩ := closed_of_consumed hstart run (by simp) hy
    have hstill : y.before.state.Spent barrier :=
      run_preserves hmid (fun _ _ _ _ h => h.spent) hspent
    exact hstill.2 hcl
  · intro x hx barrier hpres answer hans
    obtain ⟨_, hissued, hstep⟩ := issued_of_mem run hstart hx
    obtain ⟨_, herror, _⟩ | ⟨_, _, hperf, _⟩ := admissionStep_cases hstep
    · rw [herror] at hans
      cases hans
    · have hbar := barrier_of_perform hperf hpres
      exact ⟨hbar, (hissued barrier hbar).2⟩
  · intro x hx barrier hop
    obtain ⟨hinst, _, hstep⟩ := issued_of_mem run hstart hx
    rw [← hinst]
    refine ⟨fun hfor => ?_, fun hown closing hcl ho => ?_⟩
    · exact answer_of_perform_error hstep
        (refused_of_requireClosedBarrier hop (requireClosedBarrier_refused.1 hfor))
    · exact answer_of_perform_error hstep (refused_of_requireClosedBarrier hop
        (requireClosedBarrier_refused.2 hown closing hcl ho))

/-- A gate closed, published and reopened between leases, with an attempt to abort with the barrier
already published, and a recovery between two leases of the second generation. -/
def sampleCalls : List AdmissionOperation :=
  let barrier : ActivationBarrier := ⟨5, 1, .empty, sampleFirst.executionFence⟩
  [.lease ⟨Vector.replicate 16 29⟩, .close .empty sampleFirst.executionFence,
    .publish barrier ⟨sampleWorkspace, [sampleFirst]⟩ sampleFirst.pins.epoch,
    .abort barrier ⟨sampleWorkspace, []⟩, .reopen barrier (.epoch sampleFirst.pins.epoch),
    .lease sampleFirst.pins.epoch,
    .recover .empty sampleFirst.executionFence sampleFirst.executionFence sampleFirst
      ⟨sampleWorkspace, [sampleFirst]⟩ true,
    .lease sampleFirst.pins.epoch, .shutdown, .lease sampleFirst.pins.epoch]

theorem sampleCalls_laws : (admissionTransitions (freshGenesis sampleWorkspace 5) sampleCalls).map
        (fun x => x.label.effect.lease.map (·.admissionGeneration)) =
      [some 1, none, none, none, none, some 2, none, some 2, none, none] ∧
    (∃ x ∈ admissionTransitions (freshGenesis sampleWorkspace 5) sampleCalls,
      x.label.2 = .ok (.publication .alreadyReopened) ∧ x.after = x.before) ∧
    ∀ x ∈ admissionTransitions (freshGenesis sampleWorkspace 5) sampleCalls,
      ∀ lease, x.label.effect.lease = some lease → x.before.state.phase = .open := by
  refine ⟨by decide +kernel, by decide +kernel, fun x hx lease hl => ?_⟩
  obtain ⟨_, run⟩ := run_admissionTransitions (freshGenesis sampleWorkspace 5) sampleCalls
  exact ((admission_gate_laws (.fresh sampleWorkspace 5) run).1 x hx lease hl).1

/-- A fresh gate leases two different epochs in its first generation, though nothing was ever
selected through it. -/
theorem freshGenesis_leases_two_epochs : ∃ final steps, ∃ x ∈ steps, ∃ y ∈ steps, ∃ lease later,
    Run AdmissionStep (freshGenesis sampleWorkspace 5) steps final ∧
    Starts (freshGenesis sampleWorkspace 5) .empty ∧
    x.label.effect.lease = some lease ∧ y.label.effect.lease = some later ∧
    lease.admissionGeneration = later.admissionGeneration ∧ lease.epoch ≠ later.epoch ∧
    selectedAfter .empty steps = .empty := by
  let operations : List AdmissionOperation :=
    [.lease sampleFirst.pins.epoch, .lease sampleSecond.pins.epoch]
  obtain ⟨final, run⟩ := run_admissionTransitions (freshGenesis sampleWorkspace 5) operations
  refine ⟨final, _, _, mem_cons_self, _, mem_cons_of_mem _ mem_cons_self,
    ⟨sampleFirst.pins.epoch, 1⟩, ⟨sampleSecond.pins.epoch, 1⟩, run, .fresh _ _, ?_⟩
  decide +kernel

end CodeFabric.Activation
