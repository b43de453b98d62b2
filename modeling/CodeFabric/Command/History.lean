import CodeFabric.Command.Journal
import CodeFabric.Support.Run

/-! # Histories of one command

Laws of whole runs of the reducer, from an admission through any sequence of accepted events:
what never changes (the command, a terminal state), what only grows (the revision, the generation
of the owner), and what the record remembers of its past (the prepared transaction and its owner
while an outcome is unknown; the evidence that released a further attempt). -/

namespace CodeFabric.Command

open Runs

/-! ## Accepted events -/

/-- An accepted event, the context it was checked in, and the effect the reducer reported. -/
structure Accepted where
  event : CommandEvent
  context : ReductionContext
  effect : ReductionEffect
  deriving DecidableEq, Repr

/-- The reducer accepts the event and moves the record. -/
def AcceptedStep (before : CommandRecord) (accepted : Accepted) (after : CommandRecord) : Prop :=
  ∃ reduction, reduce before accepted.event accepted.context = .ok reduction ∧
    reduction.record = after ∧ reduction.effect = accepted.effect

variable {before after : CommandRecord} {accepted : Accepted} {state next : DurableCommandState}
  {command : FabricCommand} {event : CommandEvent}
  {steps : List (Transition CommandRecord Accepted)} {earlier later : ExecutionOwner}
  {transaction : TransactionRef}

theorem AcceptedStep.cases (h : AcceptedStep before accepted after) :
    (accepted.effect = .idempotentReplay ∧ after = before) ∨
      (accepted.effect ≠ .idempotentReplay ∧ after.command = before.command ∧
        after.revision = before.revision + 1 ∧
        Advance before.command before.state accepted.event after.state) := by
  obtain ⟨_, hred, rfl, heff⟩ := h
  obtain rfl | ⟨_, _, advance, -, hmat, rfl⟩ := reduce_ok hred
  · exact .inl ⟨heff.symm, rfl⟩
  · exact .inr ⟨heff ▸ hmat, rfl, rfl, advance⟩

theorem AcceptedStep.preserves {P : FabricCommand → DurableCommandState → Prop}
    (hadv : ∀ {command state event next}, Advance command state event next →
      P command state → P command next)
    (h : AcceptedStep before accepted after)
    (hbef : P before.command before.state) : P after.command after.state := by
  obtain ⟨-, rfl⟩ | ⟨-, hcmd, -, advance⟩ := h.cases
  · exact hbef
  · rw [hcmd]
    exact hadv advance hbef

theorem Advance.not_isTerminal (h : Advance command state event next) :
    state.isTerminal = false := by
  cases h <;> rfl

theorem Advance.ne (h : Advance command state event next) : next ≠ state := by
  cases h with
  | adopt newer =>
    rintro ⟨⟩
    exact lt_irrefl _ newer
  | observeIndeterminate newer =>
    intro heq
    injection heq
    omega
  | _ => simp

/-! ## Owners -/

def DurableCommandState.activeOwner : DurableCommandState → Option ExecutionOwner
  | .executing _ owner | .commitPrepared _ owner _ => some owner
  | .awaitingReconciliation _ _ recoveryOwner .. => some recoveryOwner
  | _ => none

open DurableCommandState

def DurableCommandState.executionOwner : DurableCommandState → Option ExecutionOwner
  | .executing _ owner | .commitPrepared _ owner _ => some owner
  | .awaitingReconciliation _ executionOwner .. => some executionOwner
  | _ => none

def DurableCommandState.activeGeneration (command : FabricCommand) : DurableCommandState → Nat
  | .admitted _ => command.writerFence.generation.get
  | .executing _ owner | .commitPrepared _ owner _ => owner.fence.generation.get
  | .awaitingReconciliation _ _ recoveryOwner .. => recoveryOwner.fence.generation.get
  | .retryReady _ requiredFence _ => requiredFence.generation.get
  | _ => 0

/-- The generation that executes the attempt, or the least that may execute the next. -/
def DurableCommandState.executionGeneration (command : FabricCommand) : DurableCommandState → Nat
  | .awaitingReconciliation _ executionOwner .. => executionOwner.fence.generation.get
  | state => state.activeGeneration command

theorem WriterFence.Succeeds.generation_le {fence required : WriterFence}
    (h : fence.Succeeds required) : required.generation.get ≤ fence.generation.get := by
  obtain rfl | h := h
  · exact le_rfl
  · exact h.le

theorem Advance.activeGeneration_le (h : Advance command state event next) :
    next.isTerminal ∨ state.activeGeneration command ≤ next.activeGeneration command := by
  cases h with
  | startAdmitted fence => exact .inr fence.generation_le
  | startRetry fence => exact .inr fence.generation_le
  | adopt newer => exact .inr newer.le
  | loseCommit recovery => exact .inr recovery.fence.generation_le
  | observeNotCommitted newer => exact .inr newer.fence.generation_le
  | observeIndeterminate newer => exact .inr newer.fence.generation_le
  | prepare | retryExecuting | retryPrepared => exact .inr le_rfl
  | _ => exact .inl rfl

/-- A transition of a persistable record never lowers the execution generation, unless it is
terminal. -/
theorem Advance.executionGeneration_le {revision : Nat} (h : Advance command state event next)
    (hv : Persistable ⟨command, state, revision⟩) :
    next.isTerminal ∨ state.executionGeneration command ≤ next.executionGeneration command := by
  cases h with
  | startAdmitted fence => exact .inr fence.generation_le
  | startRetry fence => exact .inr fence.generation_le
  | adopt newer => exact .inr newer.le
  | observeNotCommitted newer =>
    -- the recovery owner that observed the outcome succeeds the execution owner
    obtain ⟨-, -, -, hrcv, -⟩ := hv
    exact .inr (newer.trans hrcv).fence.generation_le
  | prepare | retryExecuting | retryPrepared | loseCommit | observeIndeterminate =>
    exact .inr le_rfl
  | _ => exact .inl rfl

theorem activeOwner_le_of_run {first last : CommandRecord} (run : Run AcceptedStep first steps last)
    (hear : first.state.activeOwner = some earlier)
    (hlt : last.state.activeOwner = some later) :
    earlier.fence.generation.get ≤ later.fence.generation.get := by
  have hbd : last.state.isTerminal ∨
      earlier.fence.generation.get ≤ last.state.activeGeneration last.command := by
    refine run.invariant (P := fun record => record.state.isTerminal ∨
      earlier.fence.generation.get ≤ record.state.activeGeneration record.command) ?_ ?_
    · intro _ _ _ step
      refine step.preserves (P := fun command state => state.isTerminal ∨
        earlier.fence.generation.get ≤ state.activeGeneration command) ?_
      rintro command state _ _ advance (ht | hle)
      · simp [advance.not_isTerminal] at ht
      · exact advance.activeGeneration_le.imp_right hle.trans
    · revert hear
      cases first.state <;> simp +contextual [activeOwner, activeGeneration]
  revert hbd hlt
  cases last.state <;> simp +contextual [activeOwner, activeGeneration, isTerminal]

theorem executionOwner_le_of_run {first last : CommandRecord}
    (run : Run AcceptedStep first steps last)
    (hv : Persistable first)
    (hear : first.state.executionOwner = some earlier)
    (hlt : last.state.executionOwner = some later) :
    earlier.fence.generation.get ≤ later.fence.generation.get := by
  have hbd : Persistable last ∧ (last.state.isTerminal ∨
      earlier.fence.generation.get ≤ last.state.executionGeneration last.command) := by
    refine run.invariant (P := fun record => Persistable record ∧ (record.state.isTerminal ∨
      earlier.fence.generation.get ≤ record.state.executionGeneration record.command)) ?_
      ⟨hv, ?_⟩
    · rintro _ _ _ step ⟨hper, hbef⟩
      obtain ⟨_, hred, rfl, -⟩ := step
      have haf := (reduce_ok hred).persistable hper
      obtain rfl | ⟨_, _, advance, -, -, rfl⟩ := reduce_ok hred
      · exact ⟨haf, hbef⟩
      · refine ⟨haf, ?_⟩
        obtain ht | hle := hbef
        · simp [advance.not_isTerminal] at ht
        · exact (advance.executionGeneration_le hper).imp_right hle.trans
    · revert hear
      cases first.state <;> simp +contextual [executionOwner, executionGeneration, activeGeneration]
  obtain ⟨-, hbd⟩ := hbd
  revert hbd hlt
  cases last.state <;> simp +contextual [executionOwner, executionGeneration, activeGeneration,
    isTerminal]

/-! ## Unknown commits and further attempts -/

/-- The record awaits the outcome of a transaction prepared by `owner` in `attempt`. -/
def DurableCommandState.Awaits (attempt : Nat) (owner : ExecutionOwner)
    (transaction : TransactionRef) (state : DurableCommandState) : Prop :=
  ∃ recoveryOwner unknown probeCount lastEvidence,
    state = .awaitingReconciliation attempt owner recoveryOwner transaction unknown probeCount
      lastEvidence

theorem Advance.awaits_or_prepared {attempt : Nat} {owner : ExecutionOwner}
    (h : Advance command state event next) (hn : next.Awaits attempt owner transaction) :
    state.Awaits attempt owner transaction ∨ state = .commitPrepared attempt owner transaction := by
  obtain ⟨_, _, _, _, rfl⟩ := hn
  cases h with
  | loseCommit => exact .inr rfl
  | observeIndeterminate => exact .inl ⟨_, _, _, _, rfl⟩

/-- The attempt a record executes, or will execute next. -/
def DurableCommandState.attempt : DurableCommandState → Option Nat
  | .admitted attempt | .executing attempt _ | .commitPrepared attempt ..
  | .awaitingReconciliation attempt .. | .retryReady attempt .. => some attempt
  | _ => none

/-- The transition records proof that the prepared transaction of `attempt` did not commit: a
retryable known failure reported on the prepared record, or `NotCommitted` evidence for the same
transaction. -/
inductive Releases (attempt : Nat) (transaction : TransactionRef) :
    DurableCommandState → CommandEvent → DurableCommandState → Prop
  | knownFailure {owner failure} (retryable : failure.failureClass = .retryableBeforeCommit) :
      Releases attempt transaction (.commitPrepared attempt owner transaction)
        (.reportKnownFailure owner failure)
        (.retryReady (attempt + 1) owner.fence (.knownFailure failure))
  | notCommitted {executionOwner recoveryOwner unknown probeCount lastEvidence owner evidence} :
      Releases attempt transaction
        (.awaitingReconciliation attempt executionOwner recoveryOwner transaction unknown
          probeCount lastEvidence)
        (.observeReconciliation owner transaction (.notCommitted evidence))
        (.retryReady (attempt + 1) owner.fence (.reconciledNotCommitted evidence))

/-- The accepted event records proof that the prepared transaction did not commit. -/
def RetryEvidence (attempt : Nat) (transaction : TransactionRef)
    (step : Transition CommandRecord Accepted) : Prop :=
  Releases attempt transaction step.before.state step.label.event step.after.state

/-- The record still answers for the prepared transaction of `attempt`. -/
def DurableCommandState.Holds (attempt : Nat) (transaction : TransactionRef)
    (state : DurableCommandState) : Prop :=
  (∃ owner, state = .commitPrepared attempt owner transaction) ∨
    (∃ owner, state.Awaits attempt owner transaction) ∨ state.isTerminal

theorem Advance.holds_or_releases {attempt : Nat} (h : Advance command state event next)
    (hst : state.Holds attempt transaction) :
    next.Holds attempt transaction ∨ Releases attempt transaction state event next := by
  obtain ⟨owner, rfl⟩ | ⟨owner, recoveryOwner, unknown, probeCount, lastEvidence, rfl⟩ | ht := hst
  · cases h with
    | confirm | failPrepared => exact .inl (.inr (.inr rfl))
    | retryPrepared _ retryable => exact .inr (.knownFailure retryable)
    | loseCommit => exact .inl (.inr (.inl ⟨owner, _, _, _, _, rfl⟩))
  · cases h with
    | observeCommitted => exact .inl (.inr (.inr rfl))
    | observeNotCommitted => exact .inr .notCommitted
    | observeIndeterminate => exact .inl (.inr (.inl ⟨owner, _, _, _, _, rfl⟩))
  · simp [h.not_isTerminal] at ht

theorem AcceptedStep.holds_or_evidence {attempt : Nat} (h : AcceptedStep before accepted after)
    (hbef : before.state.Holds attempt transaction) : after.state.Holds attempt transaction ∨
      RetryEvidence attempt transaction ⟨before, accepted, after⟩ := by
  obtain ⟨-, rfl⟩ | ⟨-, -, -, advance⟩ := h.cases
  · exact .inl hbef
  · exact advance.holds_or_releases hbef

theorem DurableCommandState.Holds.attempt_le {attempt later : Nat}
    (h : state.Holds attempt transaction) (hl : state.attempt = some later) : later ≤ attempt := by
  obtain ⟨owner, rfl⟩ | ⟨owner, _, _, _, _, rfl⟩ | _ := h
  · exact (Option.some.inj hl).ge
  · exact (Option.some.inj hl).ge
  · cases state <;> simp_all [DurableCommandState.isTerminal, DurableCommandState.attempt]

/-! ## The laws -/

/-- **Laws of every history of a command.** From an admission through any sequence of accepted
events:
the command never changes; the revision counts exactly the material transitions; a terminal state
never changes; generations of successive owners never decrease; an awaited transaction and its
execution owner are those of the `CommitPrepared` the wait came from, throughout the wait; and
after a `CommitPrepared` a later attempt needs accepted retry evidence for its transaction. -/
theorem history_laws {command : FabricCommand} {context : AdmissionContext}
    {outcome : AdmissionOutcome} (haccept : admitCommand none command context = .ok outcome)
    {steps : List (Transition CommandRecord Accepted)} {record : CommandRecord}
    (run : Run AcceptedStep outcome.record steps record) : record.command = command ∧
    (∀ step ∈ steps, (step.label.effect = .idempotentReplay ∧ step.after = step.before) ∨
      (step.label.effect ≠ .idempotentReplay ∧ step.after.state ≠ step.before.state ∧
        step.after.revision = step.before.revision + 1)) ∧
    (∀ step ∈ steps, step.before.state.isTerminal → record = step.before) ∧
    (∀ step ∈ steps, ∀ earlier later,
      (step.before.state.activeOwner = some earlier → record.state.activeOwner = some later →
        earlier.fence.generation.get ≤ later.fence.generation.get) ∧
      (step.before.state.executionOwner = some earlier → record.state.executionOwner = some later →
        earlier.fence.generation.get ≤ later.fence.generation.get)) ∧
    (∀ attempt owner transaction, record.state.Awaits attempt owner transaction →
      ∃ past prepared future, steps = past ++ prepared :: future ∧
        prepared.before.state = .commitPrepared attempt owner transaction ∧
        ∀ step ∈ prepared :: future, step.after.state.Awaits attempt owner transaction) ∧
    (∀ past prepared future, steps = past ++ prepared :: future → ∀ attempt owner transaction later,
        prepared.before.state = .commitPrepared attempt owner transaction →
        record.state.attempt = some later → attempt < later →
        ∃ step ∈ prepared :: future, RetryEvidence attempt transaction step) := by
  have hfst := admitCommand_none_ok haccept
  subst hfst
  refine ⟨?_, ?_, ?_, ?_, ?_, ?_⟩
  · refine run.invariant (P := fun record => record.command = command) ?_ rfl
    intro before accepted after step
    exact step.preserves (P := fun current _ => current = command) fun _ h => h
  · intro step hstep
    obtain ⟨_, _, -, -, hacc, -⟩ := run.split_of_mem hstep
    refine hacc.cases.imp_right ?_
    rintro ⟨hmat, -, hrev, advance⟩
    exact ⟨hmat, advance.ne, hrev⟩
  · intro step hstep hterm
    obtain ⟨_, future, -, -, hacc, hrest⟩ := run.split_of_mem hstep
    refine (Run.cons hacc hrest).invariant (P := fun record => record = step.before) ?_ rfl
    rintro before accepted after hnext rfl
    obtain ⟨-, rfl⟩ | ⟨-, -, -, advance⟩ := hnext.cases
    · rfl
    · simp [advance.not_isTerminal] at hterm
  · intro step hstep earlier later
    obtain ⟨_, _, -, hpast, hacc, hfut⟩ := run.split_of_mem hstep
    have hrest := Run.cons hacc hfut
    have hv : Persistable step.before := by
      refine hpast.invariant (P := Persistable) ?_ ⟨rfl, rfl⟩
      rintro before accepted after ⟨_, hred, rfl, -⟩ hbef
      exact (reduce_ok hred).persistable hbef
    exact ⟨activeOwner_le_of_run hrest, executionOwner_le_of_run hrest hv⟩
  · intro attempt owner transaction hawaits
    obtain hsince | ⟨⟨_, _, _, _, hadm⟩, -⟩ := run.since
      (P := fun record => record.state.Awaits attempt owner transaction)
      (Q := fun step => step.before.state = .commitPrepared attempt owner transaction)
      (fun before accepted after step haf => by
        obtain ⟨-, rfl⟩ | ⟨-, -, -, advance⟩ := step.cases
        · exact .inl haf
        · exact advance.awaits_or_prepared haf) hawaits
    · exact hsince
    · cases hadm
  · rintro past prepared future rfl attempt owner transaction later hprep hlater hlt
    obtain ⟨-, hacc, hfut⟩ := run.split
    obtain hholds | hevd := (Run.cons hacc hfut).release
      (P := fun record => record.state.Holds attempt transaction)
      (fun _ _ _ step => step.holds_or_evidence) (.inl ⟨owner, hprep⟩)
    · exact absurd (hholds.attempt_le hlater) (not_le.2 hlt)
    · exact hevd

/-- The sample command with the outcome of its transaction unknown. -/
def sampleAwaiting : CommandRecord :=
  ⟨sampleCommand, .awaitingReconciliation 1 firstOwner firstOwner zeroIdentity
    ⟨.processInterrupted, zeroIdentity⟩ 0 none, 3⟩

/-- The sample command after proof that its transaction did not commit. -/
def sampleRetryReady : CommandRecord :=
  ⟨sampleCommand, .retryReady 2 firstFence (.reconciledNotCommitted zeroIdentity), 4⟩

def sampleRestarted : CommandRecord := ⟨sampleCommand, .executing 2 firstOwner, 5⟩

/-- A history with an unknown commit that is proved not committed and retried. -/
def sampleHistory : List (Transition CommandRecord Accepted) :=
  [⟨sampleAdmitted, ⟨.start firstOwner, sampleContext, .stateChanged⟩, sampleExecuting⟩,
    ⟨sampleExecuting, ⟨.prepareCommit firstOwner zeroIdentity, sampleContext, .stateChanged⟩,
      samplePrepared⟩,
    ⟨samplePrepared, ⟨.reportUnknownCommit firstOwner zeroIdentity
      ⟨.processInterrupted, zeroIdentity⟩, sampleContext, .stateChanged⟩, sampleAwaiting⟩,
    ⟨sampleAwaiting, ⟨.observeReconciliation firstOwner zeroIdentity (.notCommitted zeroIdentity),
      sampleContext, .stateChanged⟩, sampleRetryReady⟩,
    ⟨sampleRetryReady, ⟨.start firstOwner, sampleContext, .stateChanged⟩, sampleRestarted⟩]

/-- The second attempt of the sample history was released by evidence for its transaction. -/
theorem sampleHistory_laws : sampleRestarted.command = sampleCommand ∧
    ∃ step ∈ sampleHistory, RetryEvidence 1 zeroIdentity step := by
  have run : Run AcceptedStep sampleAdmitted sampleHistory sampleRestarted :=
    .cons ⟨_, rfl, rfl, rfl⟩ (.cons ⟨_, rfl, rfl, rfl⟩ (.cons ⟨_, rfl, rfl, rfl⟩
      (.cons ⟨_, rfl, rfl, rfl⟩ (.cons ⟨_, rfl, rfl, rfl⟩ (.nil _)))))
  obtain ⟨hcmd, -, -, -, -, hr⟩ := history_laws admit_sampleCommand run
  obtain ⟨step, hs, hevd⟩ :=
    hr (sampleHistory.take 2) _ _ rfl 1 firstOwner zeroIdentity 2 rfl rfl (by decide)
  have hmem : step ∈ sampleHistory := List.mem_cons_of_mem _ (List.mem_cons_of_mem _ hs)
  exact ⟨hcmd, step, hmem, hevd⟩

end CodeFabric.Command
