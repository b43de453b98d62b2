import CodeFabric.Command.Reducer

/-! # Invariants of a persisted command record

`validate_persisted_invariants` (`fabric/command.rs`) is what the journal checks before it writes
a record and again after it reads one back. The reducer never evaluates it: it checks owners,
fences and transactions one event at a time, while the validator states bounds between revision,
attempt and probe count and orders the admitted, execution and recovery fences. -/

namespace CodeFabric.Command

open Fallible

/-! ## The validator -/

/-- An attempt number of a started record is never zero. -/
def validatePersistedAttempt (attempt : Nat) (state : CommandStateKind) :
    Except CommandRecordInvariantError Unit :=
  if attempt = 0 then .error (.invalidAttempt state) else .ok ()

/-- The revision is at least the number of transitions the state needs. -/
def validateMinimumRevision (actual minimum : Nat) (state : CommandStateKind) :
    Except CommandRecordInvariantError Unit :=
  if actual < minimum then .error (.invalidRevision state) else .ok ()

/-- The owner holds the admitted fence or a newer generation. -/
def validatePersistedExecutionFence (admitted : WriterFence) (owner : ExecutionOwner)
    (state : CommandStateKind) : Except CommandRecordInvariantError Unit :=
  if owner.fence = admitted ∨ admitted.generation.get < owner.fence.generation.get then .ok ()
  else .error (.invalidExecutionFence state)

/-- The least revision of a `RetryReady` record, by the basis it was reached on. -/
def RetryBasis.minimumRevision (nextAttempt : Nat) : RetryBasis → Nat
  | .knownFailure _ => (nextAttempt - 1) * 2
  | .reconciledNotCommitted _ => nextAttempt * 2

/-- The least revision of a `Succeeded` record, by the way its commit was confirmed. -/
def CommitConfirmation.minimumRevision : CommitConfirmation → Nat
  | .direct => 3
  | .reconciled _ => 4

def RetryBasis.isPermanent : RetryBasis → Bool
  | .knownFailure failure => failure.failureClass = .permanent
  | .reconciledNotCommitted _ => false

/-- Check the reducer-owned structural invariants of a deserialized record. -/
def validatePersistedInvariants (record : CommandRecord) :
    Except CommandRecordInvariantError Unit :=
  let kind := record.state.kind
  let admitted := record.command.writerFence
  match record.state with
  | .admitted attempt => do
    ensure (attempt = 1) (.invalidAttempt kind)
    ensure (record.revision = 0) (.invalidRevision kind)
  | .executing attempt owner => do
    validatePersistedAttempt attempt kind
    validateMinimumRevision record.revision (attempt * 2 - 1) kind
    validatePersistedExecutionFence admitted owner kind
  | .commitPrepared attempt owner _ => do
    validatePersistedAttempt attempt kind
    validateMinimumRevision record.revision (attempt * 2) kind
    validatePersistedExecutionFence admitted owner kind
  | .awaitingReconciliation attempt executionOwner recoveryOwner _ _ probeCount lastEvidence => do
    validatePersistedAttempt attempt kind
    validateMinimumRevision record.revision (attempt * 2 + 1 + probeCount) kind
    validatePersistedExecutionFence admitted executionOwner kind
    ensure (¬(recoveryOwner ≠ executionOwner ∧
        recoveryOwner.fence.generation.get ≤ executionOwner.fence.generation.get))
      .invalidRecoveryFence
    ensure ((probeCount = 0) = (lastEvidence = none)) .invalidReconciliationEvidence
  | .retryReady nextAttempt requiredFence basis => do
    ensure (¬nextAttempt < 2) (.invalidAttempt kind)
    validateMinimumRevision record.revision (basis.minimumRevision nextAttempt) kind
    ensure (¬(requiredFence ≠ admitted ∧ requiredFence.generation.get ≤ admitted.generation.get))
      (.invalidExecutionFence kind)
    ensure (¬basis.isPermanent) .invalidRetryBasis
  | .succeeded _ result confirmation => do
    validateMinimumRevision record.revision confirmation.minimumRevision kind
    ensure (result.kind = record.command.kind) .invalidResultKind
  | .failed failure => do
    validateMinimumRevision record.revision 2 kind
    ensure (failure.failureClass = .permanent) .invalidTerminalFailure
  | .cancelled _ => validateMinimumRevision record.revision 1 kind

/-! ## The validator as a predicate -/

/-- A record satisfies every persisted invariant of its state. -/
def Persistable (record : CommandRecord) : Prop :=
  match record.state with
  | .admitted attempt => attempt = 1 ∧ record.revision = 0
  | .executing attempt owner =>
    attempt ≠ 0 ∧ attempt * 2 - 1 ≤ record.revision ∧
      owner.fence.Succeeds record.command.writerFence
  | .commitPrepared attempt owner _ =>
    attempt ≠ 0 ∧ attempt * 2 ≤ record.revision ∧ owner.fence.Succeeds record.command.writerFence
  | .awaitingReconciliation attempt executionOwner recoveryOwner _ _ probeCount lastEvidence =>
    attempt ≠ 0 ∧ attempt * 2 + 1 + probeCount ≤ record.revision ∧
      executionOwner.fence.Succeeds record.command.writerFence ∧
      recoveryOwner.Succeeds executionOwner ∧ (probeCount = 0 ↔ lastEvidence = none)
  | .retryReady nextAttempt requiredFence basis =>
    2 ≤ nextAttempt ∧ basis.minimumRevision nextAttempt ≤ record.revision ∧
      requiredFence.Succeeds record.command.writerFence ∧ basis.isPermanent = false
  | .succeeded _ result confirmation =>
    confirmation.minimumRevision ≤ record.revision ∧ result.kind = record.command.kind
  | .failed failure => 2 ≤ record.revision ∧ failure.failureClass = .permanent
  | .cancelled _ => 1 ≤ record.revision

variable {state : CommandStateKind} {done : Unit}

@[simp] theorem validatePersistedAttempt_ok {attempt : Nat} :
    validatePersistedAttempt attempt state = .ok done ↔ attempt ≠ 0 := by
  unfold validatePersistedAttempt
  split <;> simp_all

@[simp] theorem validateMinimumRevision_ok {actual minimum : Nat} :
    validateMinimumRevision actual minimum state = .ok done ↔ minimum ≤ actual := by
  unfold validateMinimumRevision
  split
  · simp only [reduceCtorEq, false_iff, not_le]; assumption
  · simp only [true_iff]; omega

@[simp] theorem validatePersistedExecutionFence_ok {admitted : WriterFence}
    {owner : ExecutionOwner} : validatePersistedExecutionFence admitted owner state = .ok done ↔
      owner.fence.Succeeds admitted := by
  unfold validatePersistedExecutionFence WriterFence.Succeeds
  split <;> simp_all

theorem succeeds_iff_not_stale (observed current : ExecutionOwner) : observed.Succeeds current ↔
    ¬(observed ≠ current ∧ observed.fence.generation.get ≤ current.fence.generation.get) := by
  unfold ExecutionOwner.Succeeds
  rw [not_and_or, not_not, not_le, eq_comm]

theorem WriterFence.succeeds_iff_not_stale (fence required : WriterFence) :
    fence.Succeeds required ↔
      ¬(fence ≠ required ∧ fence.generation.get ≤ required.generation.get) := by
  unfold WriterFence.Succeeds
  rw [not_and_or, not_not, not_le]

variable {record : CommandRecord}

theorem validatePersistedInvariants_ok :
    validatePersistedInvariants record = .ok done ↔ Persistable record := by
  unfold validatePersistedInvariants Persistable
  cases record.state with
  | awaitingReconciliation attempt executionOwner recoveryOwner transaction unknown probeCount
      lastEvidence =>
    simp only [ok_iff, validatePersistedAttempt_ok, validateMinimumRevision_ok,
      validatePersistedExecutionFence_ok, exists_and_left, exists_const,
      ← CodeFabric.Command.succeeds_iff_not_stale, eq_iff_iff]
  | retryReady =>
    simp only [ok_iff, validateMinimumRevision_ok, exists_and_left, exists_const,
      ← WriterFence.succeeds_iff_not_stale, not_lt, Bool.not_eq_true]
  | _ => simp

/-! ## The reducer keeps the invariants -/

theorem WriterFence.Succeeds.trans {newest middle oldest : WriterFence}
    (h : newest.Succeeds middle) (h' : middle.Succeeds oldest) : newest.Succeeds oldest := by
  unfold Succeeds at *
  obtain rfl | h := h
  · exact h'
  · obtain rfl | h' := h'
    · exact .inr h
    · exact .inr (h'.trans h)

theorem ExecutionOwner.Succeeds.trans {newest middle oldest : ExecutionOwner}
    (h : newest.Succeeds middle) (h' : middle.Succeeds oldest) : newest.Succeeds oldest := by
  unfold Succeeds at *
  obtain rfl | h := h
  · exact h'
  · obtain rfl | h' := h'
    · exact .inr h
    · exact .inr (h'.trans h)

theorem ExecutionOwner.Succeeds.fence {observed current : ExecutionOwner}
    (h : observed.Succeeds current) : observed.fence.Succeeds current.fence := by
  obtain rfl | h := h
  · exact .inl rfl
  · exact .inr h

/-- **Step lemma.** A material transition of a persistable record, one revision later, is
persistable. -/
theorem Advance.persistable {command : FabricCommand} {state next : DurableCommandState}
    {event : CommandEvent} {revision : Nat} (advance : Advance command state event next)
    (h : Persistable ⟨command, state, revision⟩) : Persistable ⟨command, next, revision + 1⟩ := by
  cases advance with
  | startAdmitted fence =>
    obtain ⟨rfl, hrev⟩ := h
    exact ⟨one_ne_zero, by simp only; omega, fence⟩
  | cancelAdmitted | cancelExecuting => exact Nat.le_add_left 1 revision
  | @startRetry _ _ basis _ fence =>
    obtain ⟨hatt, hrev, hfence, -⟩ := h
    refine ⟨by omega, ?_, fence.trans hfence⟩
    -- both bases leave room for the transition into `Executing`
    cases basis <;> simp only [RetryBasis.minimumRevision] at hrev ⊢ <;> omega
  | adopt newer =>
    obtain ⟨hatt, hrev, hfence⟩ := h
    exact ⟨hatt, Nat.le_succ_of_le hrev, WriterFence.Succeeds.trans (.inr newer) hfence⟩
  | prepare =>
    obtain ⟨hatt, hrev, hfence⟩ := h
    exact ⟨hatt, by simp only at hrev ⊢; omega, hfence⟩
  | failExecuting permanent =>
    obtain ⟨hatt, hrev, -⟩ := h
    exact ⟨by simp only at hrev ⊢; omega, permanent⟩
  | retryExecuting _ retryable =>
    obtain ⟨hatt, hrev, hfence⟩ := h
    refine ⟨by omega, ?_, hfence, by simp [RetryBasis.isPermanent, retryable]⟩
    simp only [RetryBasis.minimumRevision] at hrev ⊢
    omega
  | confirm kind =>
    obtain ⟨hatt, hrev, -⟩ := h
    refine ⟨?_, kind.symm⟩
    simp only [CommitConfirmation.minimumRevision] at hrev ⊢
    omega
  | failPrepared permanent =>
    obtain ⟨hatt, hrev, -⟩ := h
    exact ⟨by simp only at hrev ⊢; omega, permanent⟩
  | retryPrepared _ retryable =>
    obtain ⟨hatt, hrev, hfence⟩ := h
    refine ⟨by omega, ?_, hfence, by simp [RetryBasis.isPermanent, retryable]⟩
    simp only [RetryBasis.minimumRevision] at hrev ⊢
    omega
  | loseCommit recovery =>
    obtain ⟨hatt, hrev, hfence⟩ := h
    refine ⟨hatt, ?_, hfence, recovery, by simp⟩
    simp only at hrev ⊢
    omega
  | observeCommitted _ kind =>
    obtain ⟨hatt, hrev, -⟩ := h
    refine ⟨?_, kind.symm⟩
    simp only [CommitConfirmation.minimumRevision] at hrev ⊢
    omega
  | observeNotCommitted newer =>
    obtain ⟨hatt, hrev, hfence, hrcv, -⟩ := h
    refine ⟨by omega, ?_, (newer.trans hrcv).fence.trans hfence, rfl⟩
    simp only [RetryBasis.minimumRevision] at hrev ⊢
    omega
  | observeIndeterminate newer =>
    obtain ⟨hatt, hrev, hfence, hrcv, -⟩ := h
    refine ⟨hatt, ?_, hfence, newer.trans hrcv, by simp⟩
    simp only at hrev ⊢
    omega

theorem Reduces.persistable {event : CommandEvent} {reduction : Reduction}
    (h : Reduces record event reduction) (hrec : Persistable record) :
    Persistable reduction.record := by
  obtain rfl | ⟨_, _, advance, -, -, rfl⟩ := h
  · exact hrec
  · exact advance.persistable hrec

/-- The record after presenting one event: its reduction, or the record itself on rejection. -/
def present (record : CommandRecord) (step : CommandEvent × ReductionContext) : CommandRecord :=
  match reduce record step.1 step.2 with
  | .ok reduction => reduction.record
  | .error _ => record

/-- The records obtained from `admit` by any finite sequence of events, accepted or rejected. -/
inductive Produced : CommandRecord → Prop
  | admitted {command : FabricCommand} {context : AdmissionContext} {outcome : AdmissionOutcome}
      (h : admitCommand none command context = .ok outcome) : Produced outcome.record
  | replayed {existing : CommandRecord} {command : FabricCommand} {context : AdmissionContext}
      {outcome : AdmissionOutcome} (previous : Produced existing)
      (h : admitCommand (some existing) command context = .ok outcome) : Produced outcome.record
  | presented {record : CommandRecord} (previous : Produced record)
      (step : CommandEvent × ReductionContext) : Produced (present record step)

/-- **Run lemma.** An invariant of admitted records that material transitions keep holds of every
produced record. -/
theorem Produced.invariant (Inv : CommandRecord → Prop)
    (hadm : ∀ command, Inv ⟨command, .admitted 1, 0⟩)
    (hs : ∀ {record event reduction}, Reduces record event reduction → Inv record →
      Inv reduction.record) (h : Produced record) : Inv record := by
  induction h with
  | admitted h =>
    rw [admitCommand_none_ok h]
    exact hadm _
  | replayed _ h ih =>
    rw [(admitCommand_some_ok h).1]
    exact ih
  | presented _ _ ih =>
    unfold present
    split
    · exact hs (reduce_ok (by assumption)) ih
    · exact ih

theorem Produced.persistable (h : Produced record) : Persistable record :=
  h.invariant Persistable (fun _ => ⟨rfl, rfl⟩) Reduces.persistable

theorem Produced.revision_lt (h : Produced record) : record.revision < 2 ^ 64 := by
  refine h.invariant (fun record => record.revision < 2 ^ 64) (fun _ => by norm_num) ?_
  rintro record _ _ (rfl | ⟨_, _, -, hw, -, rfl⟩) hrec
  · exact hrec
  · exact hw

end CodeFabric.Command
