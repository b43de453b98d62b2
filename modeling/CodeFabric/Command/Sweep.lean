import CodeFabric.Command.Actor
import CodeFabric.Support.Execution

/-! # Recovery sweeps

After a restart the runtime visits every nonterminal record and performs the one action its state
demands (`recover_nonterminal_page` of `fabric/command_runtime.rs`). Here the sweeps of one command
are followed: the journal holds its record, and the effect of its kind keeps a state of its own.

* **`Recovery.sweep`** runs it on the record of the command, with given ports.
* **`sweep_prepared`** and **`sweep_awaiting`** say what a sweep does to an interrupted commit. -/

namespace CodeFabric.Command

open Fallible Interleaving

/-! ## The page -/

inductive FabricCommandRecoveryError
  | terminalRecord (operationId : OperationId)
  | interruptionDiagnostic (error : CommandPortError)
  | actor (error : FabricCommandActorError)
  deriving DecidableEq, Repr

structure CommandRecoveryTransition where
  operationId : OperationId
  priorObligation : CommandRecoveryObligation
  resultingRecord : CommandRecord
  deriving DecidableEq, Repr

section

variable (actorId : ActorId) (fence : WriterFence)
  (interruptionDiagnostic :
    CommandRecord → TransactionRef → WriterFence → Except CommandPortError DiagnosticRef)

def recoverRecord (record : CommandRecord) (obligation : CommandRecoveryObligation) :
    Prog Effect Response (Except FabricCommandRecoveryError CommandRecord) := do
  let operationId := record.operationId
  match obligation with
  | .resumePrecommit =>
    return (← (processResumePrecommit actorId operationId).run).mapError .actor
  | .markInterruptedCommit transaction =>
    match interruptionDiagnostic record transaction fence with
    | .error error => return .error (.interruptionDiagnostic error)
    | .ok diagnostic =>
      return (← (processMarkInterruptedCommit actorId operationId
        ⟨.processInterrupted, diagnostic⟩).run).mapError .actor
  | .reconcileCommit _ => return (← (processReconcile actorId operationId).run).mapError .actor
  | .retryProvedNotCommitted =>
    return (← (processRetry actorId operationId).run).mapError .actor

/-- Visit the records of a page in order; the first failure ends the page. -/
def recoverNonterminalPage : List CommandRecord →
    Prog Effect Response (Except FabricCommandRecoveryError (List CommandRecoveryTransition))
  | [] => return .ok []
  | record :: rest =>
    match record.recoveryObligation with
    | none => return .error (.terminalRecord record.operationId)
    | some obligation => do
      match ← recoverRecord actorId fence interruptionDiagnostic record obligation with
      | .error error => return .error error
      | .ok resulting => do
        let transitions ← recoverNonterminalPage rest
        return transitions.map (⟨record.operationId, obligation, resulting⟩ :: ·)

end

/-! ## One command -/

/-- The effect of one command kind, over a state of its own. -/
structure CommandEffect (σ : Type) where
  prepare : CommandRecord → ExecutionOwner → ReductionContext → σ →
    Except CommandPortError PrepareEffectOutcome × σ
  commit : CommandRecord → ExecutionOwner → TransactionRef → ReductionContext → σ →
    Except CommandPortError CommitEffectOutcome × σ
  reconcile : CommandRecord → ExecutionOwner → TransactionRef → ReductionContext → σ →
    Except CommandPortError ReconciliationObservation × σ

/-- What the runtime asks during recovery: its own actor and fence, the authoritative context, the
diagnostic of an interrupted commit, and the effect. -/
structure Recovery (σ : Type) where
  actorId : ActorId
  fence : WriterFence
  readContext : CommandRecord → Except CommandPortError ReductionContext
  interruptionDiagnostic :
    CommandRecord → TransactionRef → WriterFence → Except CommandPortError DiagnosticRef
  effect : CommandEffect σ

/-- The record of the command in the journal, and the state of its effect. -/
structure Journaled (σ : Type) where
  record : CommandRecord
  state : σ

namespace Recovery

variable {σ : Type} (recovery : Recovery σ)

def owner : ExecutionOwner := ⟨recovery.actorId, recovery.fence⟩

/-- The ports of an actor whose journal holds only this command. -/
def handler : (effect : Effect) → Journaled σ → Response effect × Journaled σ
  | .lookupAdmission operationId idempotencyKey, s =>
    (.ok (if s.record.operationId = operationId ∨
      s.record.command.identity.idempotencyKey = idempotencyKey then some s.record else none), s)
  | .lookupOperation operationId, s =>
    (.ok (if s.record.operationId = operationId then some s.record else none), s)
  | .insertIfAbsent _, s => (.ok (.existing s.record), s)
  | .compareAndSwap transition, s =>
    if s.record = transition.predecessor then
      (.ok (.stored transition.successor), { s with record := transition.successor })
    else (.ok (.revisionConflict (some s.record)), s)
  | .firstNonterminal, s => (.ok (if s.record.state.isTerminal then none else some s.record), s)
  | .readAdmissionContext _, s => (.error .contextUnavailable, s)
  | .readReductionContext record, s => (recovery.readContext record, s)
  | .prepare executing owner context, s =>
    let (outcome, state) := recovery.effect.prepare executing owner context s.state
    (outcome, { s with state := state })
  | .commit prepared owner transaction context, s =>
    let (outcome, state) := recovery.effect.commit prepared owner transaction context s.state
    (outcome, { s with state := state })
  | .reconcile awaiting owner transaction context, s =>
    let (observation, state) :=
      recovery.effect.reconcile awaiting owner transaction context s.state
    (observation, { s with state := state })
  | .gateIsOpen, s => (false, s)
  | .openGate, s => ((), s)
  | .closeGate, s => ((), s)

def page (s : Journaled σ) : List CommandRecord :=
  if s.record.state.isTerminal then [] else [s.record]

def sweep (s : Journaled σ) : Journaled σ :=
  ((recoverNonterminalPage recovery.actorId recovery.fence recovery.interruptionDiagnostic
    (page s)).run recovery.handler s).2.2

def sweeps (n : Nat) (s : Journaled σ) : Journaled σ :=
  recovery.sweep^[n] s

end Recovery

/-! ## What is recorded -/

section

variable {record : CommandRecord} {owner : ExecutionOwner} {transaction : TransactionRef}
  {context : ReductionContext} {unknown : UnknownCommit} {attempt : Nat}

theorem validateReductionContext_eq {event : CommandEvent}
    (hf : event.owner.fence = context.activeFence) (hh : event.requiresHead = false) :
    validateReductionContext record event context = .ok () := by
  simp [validateReductionContext, ensure, hf, hh]

theorem changed_eq {state : DurableCommandState} (hr : record.revision + 1 < 2 ^ 64) :
    changed record state = .ok (advanced record state .stateChanged) := by
  simp only [changed, checkedAdd, hr, if_true, okOr, bind, Except.bind, pure, Except.pure]
  rfl

theorem reduce_interrupted {current : ExecutionOwner}
    (hst : record.state = .commitPrepared attempt current transaction)
    (hf : owner.fence = context.activeFence) (hn : owner.Succeeds current)
    (hr : record.revision + 1 < 2 ^ 64) :
    reduce record (.reportUnknownCommit owner transaction unknown) context = .ok (advanced record
        (.awaitingReconciliation attempt current owner transaction unknown 0 none)
        .stateChanged) := by
  have hl : terminalReplay record (.reportUnknownCommit owner transaction unknown) = .ok none := by
    simp [terminalReplay, hst, DurableCommandState.isTerminal]
  have hctx : validateReductionContext record (.reportUnknownCommit owner transaction unknown)
      context = .ok () := validateReductionContext_eq hf rfl
  simp only [reduce, validateResultKind, CommandEvent.claimedResult, hl, hctx, hst,
    reducePrepared, validateRecoveryOwner, validateTransaction, ensure, if_pos hn, if_true,
    changed_eq hr, bind, Except.bind]

theorem reduce_observed {executionOwner recoveryOwner : ExecutionOwner} {probes : Nat}
    {last : Option ReconciliationEvidenceRef} {observation : ReconciliationObservation}
    {state : DurableCommandState} {effect : ReductionEffect}
    (hst : record.state = .awaitingReconciliation attempt executionOwner recoveryOwner
      transaction unknown probes last)
    (hf : owner.fence = context.activeFence) (hn : owner.Succeeds recoveryOwner)
    (hrm : record.revision + 1 < 2 ^ 64) (hk : validateResultKind record.command
      (.observeReconciliation owner transaction observation) = .ok ())
    (hrcl : reconciledState ⟨attempt, executionOwner, owner, transaction, unknown, probes⟩
      observation = .ok (state, effect)) :
    reduce record (.observeReconciliation owner transaction observation) context =
      .ok (advanced record state effect) := by
  have hl : terminalReplay record (.observeReconciliation owner transaction observation) =
      .ok none := by
    simp [terminalReplay, hst, DurableCommandState.isTerminal]
  have hctx : validateReductionContext record
      (.observeReconciliation owner transaction observation) context = .ok () :=
    validateReductionContext_eq hf rfl
  simp only [reduce, hk, hl, hctx, hst, reduceAwaitingReconciliation,
    validateRecoveryOwner, validateTransaction, ensure, if_pos hn, if_true,
    applyReconciliation, hrcl, changed_eq hrm, bind, Except.bind]
  rfl

end

/-! ## Running an actor -/

section

variable {σ α β : Type} {handler : (effect : Effect) → σ → Response effect × σ} {s : σ}

/-- The result and the final state of an actor's program. -/
def ActorM.exec (handler : (effect : Effect) → σ → Response effect × σ) (program : ActorM α)
    (s : σ) : Except FabricCommandActorError α × σ :=
  (Prog.run handler program.run s).2

open ActorM

theorem exec_pure {value : α} : exec handler (pure value) s = (.ok value, s) := rfl

theorem exec_fallible {result : Except FabricCommandActorError α} :
    exec handler (fallible result) s = (result, s) := rfl

theorem exec_bind {first : ActorM α} {next : α → ActorM β} : exec handler (first >>= next) s =
    match exec handler first s with
    | (.ok value, t) => exec handler (next value) t
    | (.error error, t) => (.error error, t) := by
  rw [exec, ExceptT.run_bind, run_bind]
  cases hfst : Prog.run handler first.run s with
  | mk _ rest =>
    obtain ⟨result, t⟩ := rest
    cases result with
    | ok value => simp only [exec, hfst]
    | error error =>
      simp only [exec, hfst]
      rfl

end

/-! ## What a sweep does -/

section

variable {σ : Type} {recovery : Recovery σ} {s : Journaled σ} {context : ReductionContext}

theorem exec_loadOperation :
    ActorM.exec recovery.handler (loadOperation s.record.operationId) s = (.ok s.record, s) := by
  have hlk : ActorM.exec recovery.handler (Records.lookupOperation s.record.operationId) s =
      (.ok (if s.record.operationId = s.record.operationId then some s.record else none), s) := rfl
  rw [loadOperation, exec_bind, hlk, if_pos rfl]
  rfl

theorem exec_readReductionContext {record : CommandRecord}
    (h : recovery.readContext record = .ok context) :
    ActorM.exec recovery.handler (Contexts.readReductionContext record) s = (.ok context, s) := by
  have hr : ActorM.exec recovery.handler (Contexts.readReductionContext record) s =
      ((recovery.readContext record).mapError .port, s) := rfl
  rw [hr, h]
  rfl

theorem exec_storeTransition {state : DurableCommandState} {effect : ReductionEffect} :
    ActorM.exec recovery.handler (storeTransition s.record (advanced s.record state effect)) s =
      (.ok (advanced s.record state effect).record,
        { s with record := (advanced s.record state effect).record }) := by
  have hs (transition : ReducerTransition) (h : s.record = transition.predecessor) :
      ActorM.exec recovery.handler (Records.compareAndSwap transition) s =
        (.ok (.stored transition.successor), { s with record := transition.successor }) := by
    have hhan : ActorM.exec recovery.handler (Records.compareAndSwap transition) s =
        ((recovery.handler (.compareAndSwap transition) s).1.mapError .port,
          (recovery.handler (.compareAndSwap transition) s).2) := rfl
    rw [hhan, Recovery.handler, if_pos h]
    rfl
  rw [storeTransition, exec_bind, exec_fallible]
  simp only [advanced, okOr, ne_eq, not_true_eq_false, or_self, if_false]
  rw [exec_bind, hs _ rfl]
  simp only [not_true_eq_false, if_false, exec_pure]

theorem exec_transition {event : CommandEvent} (h : recovery.readContext s.record = .ok context) :
    (ActorM.exec recovery.handler (transition s.record event) s).2 =
      match reduce s.record event context with
      | .ok reduction => { s with record := reduction.record }
      | .error _ => s := by
  rw [transition, exec_bind, exec_readReductionContext h]
  cases hred : reduce s.record event context with
  | error error =>
    simp only [contract, hred, exec_bind, exec_fallible]
    rfl
  | ok reduction =>
    simp only [contract, hred, exec_bind, exec_fallible, Except.mapError]
    rcases reduce_ok hred with rfl | ⟨state, effect, -, -, heff, rfl⟩
    · rfl
    · cases effect with
      | idempotentReplay => exact absurd rfl heff
      | stateChanged | reconciliationStillRequired => exact congrArg Prod.snd exec_storeTransition

theorem sweep_eq {obligation : CommandRecoveryObligation}
    (h : s.record.recoveryObligation = some obligation) :
    recovery.sweep s = ((recoverRecord recovery.actorId recovery.fence
      recovery.interruptionDiagnostic s.record obligation).run recovery.handler s).2.2 := by
  have hl : s.record.state.isTerminal = false := by
    have hs := s.record.recoveryObligation_isSome
    rw [h] at hs
    simpa using hs.symm
  have hp : Recovery.page s = [s.record] := by simp [Recovery.page, hl]
  rw [Recovery.sweep, hp, recoverNonterminalPage]
  simp only [h]
  rw [run_bind]
  -- the page ends here, whatever the action returned
  split
  · rfl
  · rfl

theorem sweep_prepared {attempt : Nat} {current : ExecutionOwner} {transaction : TransactionRef}
    (hst : s.record.state = .commitPrepared attempt current transaction)
    (hctx : recovery.readContext s.record = .ok context) : recovery.sweep s =
      match recovery.interruptionDiagnostic s.record transaction recovery.fence with
      | .error _ => s
      | .ok diagnostic =>
        match reduce s.record (.reportUnknownCommit (ownerIn recovery.actorId context) transaction
          ⟨.processInterrupted, diagnostic⟩) context with
        | .ok reduction => { s with record := reduction.record }
        | .error _ => s := by
  have hobl : s.record.recoveryObligation = some (.markInterruptedCommit transaction) := by
    simp [CommandRecord.recoveryObligation, hst]
  rw [sweep_eq hobl, recoverRecord]
  cases hd : recovery.interruptionDiagnostic s.record transaction recovery.fence with
  | error error => rfl
  | ok diagnostic =>
    dsimp only
    rw [run_bind]
    have hmk : (ActorM.exec recovery.handler (processMarkInterruptedCommit recovery.actorId
        s.record.operationId ⟨.processInterrupted, diagnostic⟩) s).2 =
        (ActorM.exec recovery.handler (transition s.record (.reportUnknownCommit
          (ownerIn recovery.actorId context) transaction ⟨.processInterrupted, diagnostic⟩))
          s).2 := by
      rw [processMarkInterruptedCommit, exec_bind, exec_loadOperation]
      simp only [hst]
      rw [exec_bind, exec_readReductionContext hctx]
    exact hmk.trans (exec_transition hctx)

/-- What a probe leaves: the record with its observation, unless it failed or is refused. -/
def recordProbe {σ : Type} (record : CommandRecord) (owner : ExecutionOwner)
    (transaction : TransactionRef) (context : ReductionContext) :
    Except CommandPortError ReconciliationObservation × σ → Journaled σ
  | (.error _, state) => ⟨record, state⟩
  | (.ok observation, state) =>
    match reduce record (.observeReconciliation owner transaction observation) context with
    | .ok reduction => ⟨reduction.record, state⟩
    | .error _ => ⟨record, state⟩

section

variable {record : CommandRecord} {owner executionOwner recoveryOwner : ExecutionOwner}
  {transaction : TransactionRef} {unknown : UnknownCommit} {attempt probes : Nat}
  {last : Option ReconciliationEvidenceRef} {evidence : ReconciliationEvidenceRef} {state : σ}
  (hst : record.state = .awaitingReconciliation attempt executionOwner recoveryOwner transaction
    unknown probes last)

include hst

theorem recordProbe_indeterminate (hf : owner.fence = context.activeFence)
    (hn : owner.Succeeds recoveryOwner) (hrev : record.revision + 1 < 2 ^ 64)
    (hp : probes + 1 < 2 ^ 32) :
    recordProbe record owner transaction context (.ok (.indeterminate evidence), state) =
      ⟨⟨record.command, .awaitingReconciliation attempt executionOwner owner transaction unknown
        (probes + 1) (some evidence), record.revision + 1⟩, state⟩ := by
  have hrcl : reconciledState
      ⟨attempt, executionOwner, owner, transaction, unknown, probes⟩ (.indeterminate evidence) =
      .ok (.awaitingReconciliation attempt executionOwner owner transaction unknown (probes + 1)
        (some evidence), .reconciliationStillRequired) := by
    simp only [reconciledState, checkedAdd, if_pos hp, okOr, bind, Except.bind]
    rfl
  rw [recordProbe, reduce_observed hst hf hn hrev rfl hrcl]
  rfl

theorem recordProbe_cases :
    recordProbe record owner transaction context (.ok (.indeterminate evidence), state) =
        ⟨record, state⟩ ∨
      recordProbe record owner transaction context (.ok (.indeterminate evidence), state) =
        ⟨⟨record.command, .awaitingReconciliation attempt executionOwner owner transaction unknown
          (probes + 1) (some evidence), record.revision + 1⟩, state⟩ := by
  rw [recordProbe]
  cases hred : reduce record (.observeReconciliation owner transaction
      (.indeterminate evidence)) context with
  | error error => exact .inl rfl
  | ok =>
    rcases reduce_ok hred with rfl | ⟨next, effect, hadv, -, -, rfl⟩
    · exact .inl rfl
    · rw [hst] at hadv
      cases hadv with
      | observeIndeterminate => exact .inr rfl

end

theorem sweep_awaiting {attempt probes : Nat} {executionOwner recoveryOwner : ExecutionOwner}
    {transaction : TransactionRef} {unknown : UnknownCommit}
    {last : Option ReconciliationEvidenceRef}
    (hst : s.record.state = .awaitingReconciliation attempt executionOwner recoveryOwner
      transaction unknown probes last)
    (hctx : recovery.readContext s.record = .ok context) : recovery.sweep s =
      recordProbe s.record (ownerIn recovery.actorId context) transaction context
        (recovery.effect.reconcile s.record (ownerIn recovery.actorId context) transaction context
          s.state) := by
  have hobl : s.record.recoveryObligation = some (.reconcileCommit transaction) := by
    simp [CommandRecord.recoveryObligation, hst]
  rw [sweep_eq hobl, recoverRecord, run_bind]
  change (ActorM.exec recovery.handler (processReconcile recovery.actorId s.record.operationId)
    s).2 = _
  rw [processReconcile, exec_bind, exec_loadOperation]
  simp only [hst]
  rw [exec_bind, exec_readReductionContext hctx]
  have hp : ActorM.exec recovery.handler (Effects.reconcile s.record
      (ownerIn recovery.actorId context) transaction context) s =
      ((recovery.effect.reconcile s.record (ownerIn recovery.actorId context) transaction context
        s.state).1.mapError .port,
      { s with state := (recovery.effect.reconcile s.record (ownerIn recovery.actorId context)
        transaction context s.state).2 }) := rfl
  dsimp only
  rw [exec_bind, hp]
  cases recovery.effect.reconcile s.record (ownerIn recovery.actorId context) transaction context
    s.state with
  | mk observed state =>
    cases observed with
    | error error => rfl
    | ok =>
      exact @exec_transition _ _ ⟨s.record, state⟩ _ _ hctx

end

end CodeFabric.Command
