import CodeFabric.Command.Store

/-! # Attempts validated for an effect

The checks every typed effect makes on the record it is called for
(`fabric/command_effect_contract.rs`): the state the record has to be in, who owns it and which
transaction it prepared. An effect works with the attempt these checks return, never with the
record itself. -/

namespace CodeFabric.Command

open Fallible

/-- Reducer-validated immutable transaction attempt shared by typed effect adapters. -/
structure ValidatedCommandAttempt where
  command : FabricCommand
  attempt : Nat
  executionOwner : ExecutionOwner
  preparedTransaction : Option TransactionRef
  deriving DecidableEq, Repr

/-- Exact transaction attempt plus the independently advancing authority for recovery reads. -/
structure ValidatedCommandRecovery where
  attempt : ValidatedCommandAttempt
  activeRecoveryOwner : ExecutionOwner
  deriving DecidableEq, Repr

/-! ## Shared checks -/

variable (record : CommandRecord) (owner : ExecutionOwner)

/-- The owner acts under the active fence and, for an execution, on the expected head. -/
def validateContext (context : ReductionContext)
    (requireExpectedHead : Bool) : Except CommandPortError Unit := do
  ensure (context.activeFence = owner.fence) .contextUnavailable
  ensure (requireExpectedHead → context.currentHead = record.command.expectedHead)
    .contextUnavailable

def validateKind (expectedKind : CommandKind) : Except CommandPortError Unit :=
  ensure (record.command.kind = expectedKind) .corruptRecord

/-- The attempt of a record, whose owner holds the admitted fence or a later one. -/
def validatedAttempt (attempt : Nat) (executionOwner : ExecutionOwner)
    (preparedTransaction : Option TransactionRef) :
    Except CommandPortError ValidatedCommandAttempt := do
  ensure (executionOwner.fence.Succeeds record.command.writerFence) .corruptRecord
  return ⟨record.command, attempt, executionOwner, preparedTransaction⟩

/-- The observed owner is the prior one or holds a newer generation. -/
def validateOwnerAdvance (prior observed : ExecutionOwner) (corruptOnFailure : Bool) :
    Except CommandPortError Unit :=
  ensure (observed.Succeeds prior)
    (if corruptOnFailure then .corruptRecord else .contextUnavailable)

/-! ## The three attempts -/

/-- Validate an `Executing` record immediately before read-only preparation. -/
def executingAttempt (context : ReductionContext)
    (expectedKind : CommandKind) : Except CommandPortError ValidatedCommandAttempt := do
  validateContext record owner context true
  validateKind record expectedKind
  match record.state with
  | .executing attempt recorded => do
    ensure (recorded = owner) .contextUnavailable
    validatedAttempt record attempt owner none
  | _ => throw .corruptRecord

/-- Validate a `CommitPrepared` record at the sole durable effect boundary. -/
def preparedAttempt (transaction : TransactionRef)
    (context : ReductionContext) (expectedKind : CommandKind) :
    Except CommandPortError ValidatedCommandAttempt := do
  validateContext record owner context true
  validateKind record expectedKind
  match record.state with
  | .commitPrepared attempt recorded prepared => do
    ensure (recorded = owner ∧ prepared = transaction) .contextUnavailable
    validatedAttempt record attempt owner (some transaction)
  | _ => throw .corruptRecord

/-- Validate an exact marker/control-history read without changing execution authority. -/
def reconciliationAttempt (activeRecoveryOwner : ExecutionOwner)
    (transaction : TransactionRef) (context : ReductionContext) (expectedKind : CommandKind) :
    Except CommandPortError ValidatedCommandRecovery := do
  validateContext record activeRecoveryOwner context false
  validateKind record expectedKind
  match record.state with
  | .awaitingReconciliation attempt executionOwner recoveryOwner prepared _ _ _ => do
    validateOwnerAdvance executionOwner recoveryOwner true
    validateOwnerAdvance recoveryOwner activeRecoveryOwner false
    ensure (prepared = transaction) .contextUnavailable
    let attempt ← validatedAttempt record attempt executionOwner (some transaction)
    return ⟨attempt, activeRecoveryOwner⟩
  | _ => throw .corruptRecord

end CodeFabric.Command
