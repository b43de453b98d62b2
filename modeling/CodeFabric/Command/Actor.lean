import CodeFabric.Command.Journal
import CodeFabric.Support.Interleaving

/-! # The command actor

The handlers of `fabric/command_actor.rs` as programs over the actor's ports: the record journal,
the authoritative context reader, the effect port and the ingress gate. Every `await` of the source
is one effect, so a crash or another actor may come between any two of them.

**`Performs`** says what each effect may answer: the journal as its functions compute, failing
before or after taking effect; contexts and effect outcomes arbitrarily. -/

namespace CodeFabric.Command

open Fallible Interleaving

/-! ## Ports -/

inductive PrepareEffectOutcome
  | prepared (transaction : TransactionRef)
  | knownFailure (failure : CommandFailure)
  | cancelled (cancellation : CommandCancellation)
  deriving DecidableEq, Repr

inductive CommitEffectOutcome
  | committed (result : CommandResult)
  | knownFailure (failure : CommandFailure)
  | unknown (reason : UnknownCommit)
  deriving DecidableEq, Repr

/-- One awaited call of the actor. -/
inductive Effect
  | lookupAdmission (operationId : OperationId) (idempotencyKey : IdempotencyKey)
  | lookupOperation (operationId : OperationId)
  | insertIfAbsent (admitted : CommandRecord)
  | compareAndSwap (transition : ReducerTransition)
  | firstNonterminal
  | readAdmissionContext (command : FabricCommand)
  | readReductionContext (record : CommandRecord)
  | prepare (executing : CommandRecord) (owner : ExecutionOwner) (context : ReductionContext)
  | commit (prepared : CommandRecord) (owner : ExecutionOwner) (transaction : TransactionRef)
      (context : ReductionContext)
  | reconcile (awaiting : CommandRecord) (owner : ExecutionOwner) (transaction : TransactionRef)
      (context : ReductionContext)
  | gateIsOpen
  | openGate
  | closeGate
  deriving DecidableEq, Repr

abbrev Response : Effect → Type
  | .lookupAdmission .. => Except CommandPortError (Option CommandRecord)
  | .lookupOperation .. => Except CommandPortError (Option CommandRecord)
  | .insertIfAbsent .. => Except CommandPortError DurableAdmissionWrite
  | .compareAndSwap .. => Except CommandPortError DurableTransitionWrite
  | .firstNonterminal => Except CommandPortError (Option CommandRecord)
  | .readAdmissionContext .. => Except CommandPortError AdmissionContext
  | .readReductionContext .. => Except CommandPortError ReductionContext
  | .prepare .. => Except CommandPortError PrepareEffectOutcome
  | .commit .. => Except CommandPortError CommitEffectOutcome
  | .reconcile .. => Except CommandPortError ReconciliationObservation
  | .gateIsOpen => Bool
  | .openGate => Unit
  | .closeGate => Unit

inductive FabricCommandActorError
  | contract (error : CommandContractError)
  | port (error : CommandPortError)
  | durableAdmissionMismatch
  | durableTransitionMismatch
  | revisionConflict (expected : Nat) (observed : Option Nat)
  | operationNotFound
  | effectStateMismatch
  | admissionClosedForRecovery
  | recoveryPending (operationId : OperationId) (obligation : CommandRecoveryObligation)
  deriving DecidableEq, Repr

/-- A fallible program over the actor's ports. -/
abbrev ActorM := ExceptT FabricCommandActorError (Prog Effect Response)

/-- Await a port call; `?` turns its failure into an actor failure. -/
def port {α : Type} (call : Prog Effect Response (Except CommandPortError α)) : ActorM α :=
  ExceptT.mk do return (← call).mapError .port

namespace Records

def lookupAdmission (operationId : OperationId) (idempotencyKey : IdempotencyKey) :
    ActorM (Option CommandRecord) :=
  port (perform (.lookupAdmission operationId idempotencyKey : Effect))

def lookupOperation (operationId : OperationId) : ActorM (Option CommandRecord) :=
  port (perform (.lookupOperation operationId : Effect))

/-- Insert revision zero or return the record that won admission. -/
def insertIfAbsent (admitted : CommandRecord) : ActorM DurableAdmissionWrite :=
  port (perform (.insertIfAbsent admitted : Effect))

/-- Persist one reducer transition against its predecessor revision. -/
def compareAndSwap (transition : ReducerTransition) : ActorM DurableTransitionWrite :=
  port (perform (.compareAndSwap transition : Effect))

end Records

namespace Contexts

def readAdmissionContext (command : FabricCommand) : ActorM AdmissionContext :=
  port (perform (.readAdmissionContext command : Effect))

def readReductionContext (record : CommandRecord) : ActorM ReductionContext :=
  port (perform (.readReductionContext record : Effect))

end Contexts

namespace Effects

def prepare (executing : CommandRecord) (owner : ExecutionOwner) (context : ReductionContext) :
    ActorM PrepareEffectOutcome :=
  port (perform (.prepare executing owner context : Effect))

/-- Initiate the target transaction of a prepared record. -/
def commit (prepared : CommandRecord) (owner : ExecutionOwner) (transaction : TransactionRef)
    (context : ReductionContext) : ActorM CommitEffectOutcome :=
  port (perform (.commit prepared owner transaction context : Effect))

/-- Read back the marker of an awaited transaction. -/
def reconcile (awaiting : CommandRecord) (owner : ExecutionOwner) (transaction : TransactionRef)
    (context : ReductionContext) : ActorM ReconciliationObservation :=
  port (perform (.reconcile awaiting owner transaction context : Effect))

end Effects

def fallible {α : Type} (result : Except FabricCommandActorError α) : ActorM α :=
  ExceptT.mk (pure result)

/-- A reducer call; its failure stays typed. -/
def contract {α : Type} (result : Except CommandContractError α) : ActorM α :=
  fallible (result.mapError .contract)

/-! ## Methods -/

/-- Return the record that already holds an admission key, if it is for this exact command. -/
def replayAdmission (existing : CommandRecord) (command : FabricCommand) :
    Except FabricCommandActorError CommandRecord := do
  let replayContext : AdmissionContext :=
    ⟨command.ownership.workspaceId, command.expectedHead, command.writerFence,
      .authorized command.ownership.authorization⟩
  let outcome ← (admitCommand (some existing) command replayContext).mapError .contract
  match outcome with
  | .existing record => if record = existing then return record else throw .durableAdmissionMismatch
  | .new _ => throw .durableAdmissionMismatch

variable (record : CommandRecord) (owner : ExecutionOwner)

/-- Re-read the context and check that the event replays the record exactly. -/
def validateIdempotent (event : CommandEvent) : ActorM ReductionContext := do
  let context ← Contexts.readReductionContext record
  let reduction ← contract (reduce record event context)
  if reduction.effect ≠ .idempotentReplay ∨ reduction.record ≠ record then
    throw .effectStateMismatch
  else
    return context

def storeTransition (reduction : Reduction) : ActorM CommandRecord := do
  let transition ← fallible (okOr reduction.transition .effectStateMismatch)
  if transition.predecessor ≠ record ∨ transition.successor ≠ reduction.record ∨
      transition.effect ≠ reduction.effect then
    throw .effectStateMismatch
  else
    match ← Records.compareAndSwap transition with
    | .stored stored =>
      if stored ≠ reduction.record then throw .durableTransitionMismatch else return stored
    | .revisionConflict observed =>
      throw (.revisionConflict record.revision (observed.map CommandRecord.revision))

/-- Reduce one event in a fresh context and persist the transition it produces. -/
def transition (event : CommandEvent) : ActorM CommandRecord := do
  let context ← Contexts.readReductionContext record
  let reduction ← contract (reduce record event context)
  match reduction.effect with
  | .idempotentReplay => return record
  | .stateChanged | .reconciliationStillRequired => storeTransition record reduction

def CommitEffectOutcome.event (transaction : TransactionRef) : CommitEffectOutcome → CommandEvent
  | .committed result => .confirmCommit owner transaction result
  | .knownFailure failure => .reportKnownFailure owner failure
  | .unknown reason => .reportUnknownCommit owner transaction reason

/-- Invoke the commit of a durably prepared record and record its outcome. -/
def commitPrepared (prepared : TransactionRef) : ActorM CommandRecord := do
  let commitContext ← validateIdempotent record (.prepareCommit owner prepared)
  let outcome ← Effects.commit record owner prepared commitContext
  transition record (outcome.event owner prepared)

def executeStarted : ActorM CommandRecord := do
  let prepareContext ← validateIdempotent record (.start owner)
  match ← Effects.prepare record owner prepareContext with
  | .knownFailure failure => transition record (.reportKnownFailure owner failure)
  | .cancelled cancellation => transition record (.cancelBeforeCommit owner cancellation)
  | .prepared prepared => do
    let record ← transition record (.prepareCommit owner prepared)
    commitPrepared record owner prepared

variable (actorId : ActorId) (command : FabricCommand)

def startInserted (record : CommandRecord) : ActorM CommandRecord := do
  let owner : ExecutionOwner := ⟨actorId, command.writerFence⟩
  let started ← transition record (.start owner)
  executeStarted started owner

/-- Admit a command whose keys were free, and run it. -/
def submitNew : ActorM CommandRecord := do
  let admissionContext ← Contexts.readAdmissionContext command
  match ← contract (admitCommand none command admissionContext) with
  | .existing _ => throw .durableAdmissionMismatch
  | .new admitted =>
    match ← Records.insertIfAbsent admitted with
    | .existing existing => fallible (replayAdmission existing command)
    | .inserted stored =>
      if stored ≠ admitted then throw .durableAdmissionMismatch
      else startInserted actorId command stored

/-- Submit: replay an admitted command, or admit and run a new one. -/
def processSubmit : ActorM CommandRecord := do
  match ← Records.lookupAdmission command.identity.operationId command.identity.idempotencyKey with
  | some existing => fallible (replayAdmission existing command)
  | none => submitNew actorId command

variable (operationId : OperationId)

def loadOperation : ActorM CommandRecord := do
  let record ← Records.lookupOperation operationId
  fallible (okOr record .operationNotFound)

def ownerIn (context : ReductionContext) : ExecutionOwner :=
  ⟨actorId, context.activeFence⟩

/-- Start a record and run its effects under an owner. -/
def startAndExecute (record : CommandRecord) (owner : ExecutionOwner) : ActorM CommandRecord := do
  let started ← transition record (.start owner)
  executeStarted started owner

/-- Re-enter effects of a record that is ready for its next attempt. -/
def processRetry : ActorM CommandRecord := do
  let record ← loadOperation operationId
  match record.state with
  | .retryReady _ requiredFence _ => do
    let context ← Contexts.readReductionContext record
    let owner := ownerIn actorId context
    if owner.fence.generation.get < requiredFence.generation.get then
      throw (.contract .recoveryFenceNotAdvanced)
    else
      startAndExecute record owner
  | _ => throw .effectStateMismatch

/-- Resume an admitted or pre-commit executing record. -/
def processResumePrecommit : ActorM CommandRecord := do
  let record ← loadOperation operationId
  match record.state with
  | .admitted _ | .executing .. => do
    let context ← Contexts.readReductionContext record
    startAndExecute record (ownerIn actorId context)
  | _ => throw .effectStateMismatch

/-- Convert a commit prepared by an interrupted writer into durable unknown state. -/
def processMarkInterruptedCommit (unknown : UnknownCommit) : ActorM CommandRecord := do
  let record ← loadOperation operationId
  match record.state with
  | .commitPrepared _ _ prepared => do
    let context ← Contexts.readReductionContext record
    transition record (.reportUnknownCommit (ownerIn actorId context) prepared unknown)
  | _ => throw .effectStateMismatch

def adoptExecuting (record : CommandRecord) (owner : ExecutionOwner) : ActorM CommandRecord :=
  match record.state with
  | .executing _ current =>
    if current ≠ owner then transition record (.start owner) else pure record
  | _ => pure record

/-- Cancel before a commit, adopting an executing record first. -/
def processCancel (cancellation : CommandCancellation) : ActorM CommandRecord := do
  let record ← loadOperation operationId
  let context ← Contexts.readReductionContext record
  let owner := ownerIn actorId context
  let record ← adoptExecuting record owner
  transition record (.cancelBeforeCommit owner cancellation)

/-- Read back the marker of an unknown commit and record the observation. -/
def processReconcile : ActorM CommandRecord := do
  let record ← loadOperation operationId
  match record.state with
  | .awaitingReconciliation _ _ _ awaited .. => do
    let context ← Contexts.readReductionContext record
    let owner := ownerIn actorId context
    let observation ← Effects.reconcile record owner awaited context
    transition record (.observeReconciliation owner awaited observation)
  | _ => throw .effectStateMismatch

/-! ## The message loop -/

inductive ActorMessage
  | submit (command : FabricCommand)
  | cancel (operationId : OperationId) (cancellation : CommandCancellation)
  | reconcile (operationId : OperationId)
  | retry (operationId : OperationId)
  | resumePrecommit (operationId : OperationId)
  | markInterruptedCommit (operationId : OperationId) (unknown : UnknownCommit)
  | openAdmission
  | shutdown
  deriving DecidableEq, Repr

inductive Reply
  | record (result : Except FabricCommandActorError CommandRecord)
  | opened (result : Except FabricCommandActorError Unit)
  | shutdown
  /-- The `expect` of `OpenAdmission` failed. -/
  | panicked
  deriving DecidableEq, Repr

/-- Whether a submission leaves recovery work, so that admission has to close. -/
def recoveryRequired : Except FabricCommandActorError CommandRecord → Bool
  | .ok record => !record.state.isTerminal
  | .error _ => true

/-- Process a submission, or refuse it behind a closed gate. -/
def submitIfOpen (isOpen : Bool) :
    Prog Effect Response (Except FabricCommandActorError CommandRecord) :=
  if isOpen then (processSubmit actorId command).run
  else pure (.error .admissionClosedForRecovery)

/-- Close the gate unless the submission ended in a terminal record, then reply. -/
def replyToSubmit (result : Except FabricCommandActorError CommandRecord) :
    Prog Effect Response Reply :=
  if recoveryRequired result then do
    perform Effect.closeGate
    return .record result
  else
    return .record result

def handleSubmit : Prog Effect Response Reply := do
  let isOpen ← perform Effect.gateIsOpen
  let result ← submitIfOpen actorId command isOpen
  replyToSubmit result

/-- The reply that names a pending recovery; a terminal record would fail the `expect`. -/
def replyRecoveryPending (record : CommandRecord) : Reply :=
  match record.recoveryObligation with
  | some obligation => .opened (.error (.recoveryPending record.operationId obligation))
  | none => .panicked

/-- Reopen admission only when no nonterminal record remains. -/
def handleOpenAdmission : Prog Effect Response Reply := do
  perform Effect.closeGate
  match ← perform Effect.firstNonterminal with
  | .ok (some record) => return replyRecoveryPending record
  | .ok none => do
    perform Effect.openGate
    return .opened (.ok ())
  | .error error => return .opened (.error (.port error))

def handle : ActorMessage → Prog Effect Response Reply
  | .submit command => handleSubmit actorId command
  | .cancel operationId cancellation =>
    return .record (← (processCancel actorId operationId cancellation).run)
  | .reconcile operationId => return .record (← (processReconcile actorId operationId).run)
  | .retry operationId => return .record (← (processRetry actorId operationId).run)
  | .resumePrecommit operationId =>
    return .record (← (processResumePrecommit actorId operationId).run)
  | .markInterruptedCommit operationId unknown =>
    return .record (← (processMarkInterruptedCommit actorId operationId unknown).run)
  | .openAdmission => handleOpenAdmission
  | .shutdown => return .shutdown

/-! ## Actors over one journal -/

/-- What happened, in order: durable writes and invoked commits, each with its actor. -/
inductive LogEntry (ι : Type)
  | inserted (actor : ι) (record : CommandRecord)
  | stored (actor : ι) (transition : ReducerTransition)
  | committed (actor : ι) (prepared : CommandRecord) (owner : ExecutionOwner)
      (transaction : TransactionRef) (context : ReductionContext)
  deriving DecidableEq, Repr

def LogEntry.actor {ι : Type} : LogEntry ι → ι
  | .inserted actor _ | .stored actor _ | .committed actor .. => actor

/-- The journal, every actor's ingress gate, and the log of what happened. -/
structure World (ι : Type) where
  table : Table
  gate : ι → Bool
  log : List (LogEntry ι)

variable {ι : Type} [DecidableEq ι]

def World.setGate (world : World ι) (actor : ι) (isOpen : Bool) : World ι :=
  { world with gate := Function.update world.gate actor isOpen }

def World.append (world : World ι) (table : Table) (entries : List (LogEntry ι)) : World ι :=
  { world with table := table, log := world.log ++ entries }

def DurableAdmissionWrite.entries (actor : ι) : DurableAdmissionWrite → List (LogEntry ι)
  | .inserted record => [.inserted actor record]
  | .existing _ => []

def DurableTransitionWrite.entries (actor : ι) (transition : ReducerTransition) :
    DurableTransitionWrite → List (LogEntry ι)
  | .stored _ => [.stored actor transition]
  | .revisionConflict _ => []

/-- A journal write either fails without effect, or takes effect and is answered or its answer is
lost. -/
def Writes {α : Type} (write : Table → Except CommandPortError (α × Table))
    (entries : α → List (LogEntry ι)) (before : World ι) (response : Except CommandPortError α)
    (after : World ι) : Prop :=
  (response = .error .durableStoreUnavailable ∧ after = before) ∨
    (∃ error, write before.table = .error error ∧ response = .error error ∧ after = before) ∨
    ∃ value table, write before.table = .ok (value, table) ∧
      (response = .ok value ∨ response = .error .durableStoreUnavailable) ∧
      after = before.append table (entries value)

/-- A journal read answers from the table or fails; it changes nothing. -/
def Reads {α : Type} (read : Table → Except CommandPortError α) (before : World ι)
    (response : Except CommandPortError α) (after : World ι) : Prop :=
  (response = read before.table ∨ response = .error .durableStoreUnavailable) ∧ after = before

/-- The responses and world changes of an effect. Contexts and effect outcomes are arbitrary. -/
def Performs (codec : RecordCodec) (actor : ι) :
    (effect : Effect) → World ι → Response effect → World ι → Prop
  | .lookupAdmission operationId idempotencyKey =>
    Reads fun table => lookupAdmission codec table operationId idempotencyKey
  | .lookupOperation operationId => Reads fun table => lookupOperation codec table operationId
  | .insertIfAbsent admitted =>
    Writes (fun table => insertIfAbsent codec table admitted)
      (DurableAdmissionWrite.entries actor)
  | .compareAndSwap transition =>
    Writes (fun table => compareAndSwap codec table transition)
      (DurableTransitionWrite.entries actor transition)
  | .firstNonterminal => Reads fun table => firstNonterminal codec table
  | .readAdmissionContext _ => fun before _ after => after = before
  | .readReductionContext _ => fun before _ after => after = before
  | .prepare .. => fun before _ after => after = before
  | .commit prepared owner transaction context => fun before _ after =>
    after = before.append before.table [.committed actor prepared owner transaction context]
  | .reconcile .. => fun before _ after => after = before
  | .gateIsOpen => fun before response after => response = before.gate actor ∧ after = before
  | .openGate => fun before _ after => after = before.setGate actor true
  | .closeGate => fun before _ after => after = before.setGate actor false

/-- Any number of command actors over one journal. The runtime may close a gate at any time; a
restarted actor begins behind a closed gate. -/
def actorSystem (codec : RecordCodec) (actorId : ι → ActorId) :
    System ι (World ι) Effect Response ActorMessage Reply where
  handler actor message := handle (actorId actor) message
  performs := Performs codec
  stops reply := reply = .shutdown ∨ reply = .panicked
  environment before after := ∃ actor, after = before.setGate actor false
  restarts actor before after := after = before.setGate actor false

/-- All actors idle, on a given journal, before anything happened. -/
def initialConfig (table : Table) (gate : ι → Bool) : Config ι (World ι) Effect Response Reply :=
  ⟨⟨table, gate, []⟩, fun _ => .idle⟩

/-! ## What a method can do by itself -/

section

variable {codec : RecordCodec} {actorId : ι → ActorId} {actor : ι} {s t : World ι}

theorem yields_port {α : Type} {call : Prog Effect Response (Except CommandPortError α)}
    {response : Except CommandPortError α}
    (h : (actorSystem codec actorId).Yields actor call s response t) :
    (actorSystem codec actorId).Yields actor (port call).run s (response.mapError .port) t :=
  h.bind (.ret _ _)

theorem yields_readReductionContext (record : CommandRecord) (context : ReductionContext) :
    (actorSystem codec actorId).Yields actor (Contexts.readReductionContext record).run s
      (.ok context) s := by
  have hr : (actorSystem codec actorId).performs actor (.readReductionContext record) s
      (.ok context) s := rfl
  exact yields_port (.perform hr)

theorem yields_validateIdempotent {record : CommandRecord} {event : CommandEvent}
    {context : ReductionContext} (h : reduce record event context = .ok (idempotent record)) :
    (actorSystem codec actorId).Yields actor (validateIdempotent record event).run s
      (.ok context) s := by
  refine (yields_readReductionContext record context).bindOk ?_
  rw [h]
  refine System.Yields.bindOk (.ret _ _) ?_
  rw [if_neg (by simp [idempotent])]
  exact .ret _ _

theorem yields_transition {record : CommandRecord} {event : CommandEvent}
    {context : ReductionContext} {state : DurableCommandState} {table : Table}
    (h : reduce record event context = .ok (advanced record state .stateChanged))
    (hs : compareAndSwap codec s.table
      ⟨record, (advanced record state .stateChanged).record, .stateChanged⟩ =
        .ok (.stored (advanced record state .stateChanged).record, table)) :
    (actorSystem codec actorId).Yields actor (transition record event).run s
      (.ok (advanced record state .stateChanged).record) (s.append table [.stored actor
        ⟨record, (advanced record state .stateChanged).record, .stateChanged⟩]) := by
  refine (yields_readReductionContext record context).bindOk ?_
  rw [h]
  refine System.Yields.bindOk (.ret _ _) ?_
  have hp : (actorSystem codec actorId).performs actor
      (.compareAndSwap ⟨record, (advanced record state .stateChanged).record, .stateChanged⟩) s
      (.ok (.stored (advanced record state .stateChanged).record))
      (s.append table [.stored actor
        ⟨record, (advanced record state .stateChanged).record, .stateChanged⟩]) :=
    .inr (.inr ⟨_, table, hs, .inl rfl, rfl⟩)
  show (actorSystem codec actorId).Yields actor
    (storeTransition record (advanced record state .stateChanged)).run s _ _
  refine System.Yields.bindOk (.ret _ _) ?_
  rw [if_neg (by simp [advanced])]
  refine (yields_port (.perform hp)).bindOk ?_
  show (actorSystem codec actorId).Yields actor (ite _ _ _ : ActorM _).run _ _ _
  rw [if_neg (by simp)]
  exact .ret _ _

end

/-! ## Rules for the actor's programs -/

section

variable {codec : RecordCodec} {actorId : ι → ActorId}
  {terms : Contract (actorSystem codec actorId)} {actor : ι} {α β : Type}
  {P : World ι → Prop} {Q : Except FabricCommandActorError β → World ι → Prop} {s : World ι}

/-- Interference by the other actors keeps an assertion. -/
def Stable (terms : Contract (actorSystem codec actorId)) (actor : ι) (P : World ι → Prop) : Prop :=
  ∀ s t, terms.Rely actor s t → P s → P t

variable {rest : α → ActorM β} {call : Prog Effect Response (Except CommandPortError α)}

theorem safe_port_bind (h : terms.Safe actor (fun response t => match response with
      | .ok value => terms.Safe actor Q (rest value).run t
      | .error error => Q (.error (.port error)) t) call s) :
    terms.Safe actor Q (port call >>= rest).run s := by
  refine Contract.Safe.bindExcept (Contract.Safe.bind (h.stable.mono ?_))
  intro response t hr u hu
  cases response with
  | ok | error => exact hr u hu

theorem safe_fallible_bind {result : Except FabricCommandActorError α}
    (hok : ∀ value, result = .ok value → terms.Safe actor Q (rest value).run s)
    (he : ∀ error, result = .error error → ∀ t, terms.Rely actor s t → Q (.error error) t) :
    terms.Safe actor Q (fallible result >>= rest).run s := by
  cases result with
  | ok value => exact hok value rfl
  | error error => exact he error rfl

theorem safe_contract_bind {result : Except CommandContractError α}
    (hok : ∀ value, result = .ok value → terms.Safe actor Q (rest value).run s)
    (he : ∀ error t, terms.Rely actor s t → Q (.error error) t) :
    terms.Safe actor Q (contract result >>= rest).run s := by
  refine safe_fallible_bind (fun value hval => hok value ?_) fun error _ => he error
  simpa using hval

variable (hqt : ∀ s, terms.Guarantee actor s s) (hP : Stable terms actor P)
include hqt hP

theorem safe_perform_read {effect : Effect}
    (hr : ∀ s response t, Performs codec actor effect s response t → t = s) (hs : P s) :
    terms.Safe actor (fun response t => P t ∧ ∃ u, P u ∧ terms.Rely actor u t ∧
      Performs codec actor effect u response u) (perform effect) s := by
  intro t ht response u hp
  obtain rfl := hr _ _ _ hp
  have hu := hP _ _ ht hs
  exact ⟨hqt u, fun v hv => ⟨hP _ _ hv hu, u, hu, hv, hp⟩⟩

theorem safe_read_bind {effect : Effect}
    (hrd : ∀ s response t, Performs codec actor effect s response t → t = s)
    (hc : terms.Safe actor (fun _ t => P t) (perform effect) s →
      terms.Safe actor (fun _ t => P t) call s)
    (he : ∀ error t, P t → Q (.error error) t)
    (hrs : ∀ value t, P t → terms.Safe actor Q (rest value).run t) (hs : P s) :
    terms.Safe actor Q (port call >>= rest).run s := by
  have hp := (safe_perform_read hqt hP hrd hs).mono fun _ _ h => h.1
  refine safe_port_bind ((hc hp).mono ?_)
  rintro (error | value) t ht
  · exact he _ t ht
  · exact hrs value t ht

variable {record : CommandRecord}

section

variable (he : ∀ error t, P t → Q (.error error) t)
include he

variable {rest : ReductionContext → ActorM β}

theorem safe_readReductionContext_bind
    (hrs : ∀ context t, P t → terms.Safe actor Q (rest context).run t) (hs : P s) :
    terms.Safe actor Q (Contexts.readReductionContext record >>= rest).run s := by
  have hrd : ∀ s response t,
      Performs codec actor (.readReductionContext record) s response t → t = s :=
    fun _ _ _ h => h
  exact safe_read_bind hqt hP hrd id he hrs hs

theorem safe_reconcile_bind {awaiting : CommandRecord} {owner : ExecutionOwner}
    {awaited : TransactionRef} {context : ReductionContext}
    {rest : ReconciliationObservation → ActorM β}
    (hrs : ∀ observation t, P t → terms.Safe actor Q (rest observation).run t) (hs : P s) :
    terms.Safe actor Q (Effects.reconcile awaiting owner awaited context >>= rest).run s := by
  have hrd : ∀ s response t,
      Performs codec actor (.reconcile awaiting owner awaited context) s response t → t = s :=
    fun _ _ _ h => h
  exact safe_read_bind hqt hP hrd id he hrs hs

theorem safe_loadOperation_bind {operationId : OperationId} {rest : CommandRecord → ActorM β}
    (hrs : ∀ record t, P t → (∃ u, P u ∧ terms.Rely actor u t ∧
        lookupOperation codec u.table operationId = .ok (some record)) →
      terms.Safe actor Q (rest record).run t) (hs : P s) :
    terms.Safe actor Q (loadOperation operationId >>= rest).run s := by
  have hrd : ∀ s response t,
      Performs codec actor (.lookupOperation operationId) s response t → t = s :=
    fun _ _ _ h => h.2
  refine Contract.Safe.bindExcept (safe_port_bind ((safe_perform_read hqt hP hrd hs).mono ?_))
  rintro (_ | found) t ⟨ht, u, hu, hrl, hp⟩
  · exact he _ t ht
  · cases found with
    | none => exact fun v hv => he _ v (hP _ _ hv ht)
    | some record =>
      intro v hv
      refine hrs record v (hP _ _ hv ht) ⟨u, hu, terms.rely_trans hrl hv, ?_⟩
      simpa [Performs, Reads, eq_comm] using hp

theorem safe_validateIdempotent_bind {event : CommandEvent}
    (hrs : ∀ context t, reduce record event context = .ok (idempotent record) → P t →
      terms.Safe actor Q (rest context).run t) (hs : P s) :
    terms.Safe actor Q (validateIdempotent record event >>= rest).run s := by
  refine Contract.Safe.bindExcept ?_
  refine safe_readReductionContext_bind hqt hP (by exact he) ?_ hs
  intro context t ht
  refine safe_contract_bind ?_ fun _ u hu => he _ u (hP _ _ hu ht)
  intro _ hred
  split
  · exact fun u hu => he _ u (hP _ _ hu ht)
  · rename_i hsm
    simp only [ne_eq, not_or, not_not] at hsm
    -- an idempotent effect is only ever reported for an exact replay
    obtain rfl | ⟨_, _, -, -, hmat, rfl⟩ := reduce_ok hred
    · exact fun u hu => hrs context u hred (hP _ _ hu ht)
    · exact absurd hsm.1 hmat

end

omit hqt in
theorem safe_storeTransition {state : DurableCommandState} {effect : ReductionEffect}
    {Q : Except FabricCommandActorError CommandRecord → World ι → Prop} (hst : ∀ t response u, P t →
      Performs codec actor (.compareAndSwap ⟨record, (advanced record state effect).record, effect⟩)
        t response u →
      terms.Guarantee actor t u ∧ ∀ v, terms.Rely actor u v → (∀ error, Q (.error error) v) ∧
        (response = .ok (.stored (advanced record state effect).record) →
          Q (.ok (advanced record state effect).record) v)) (hs : P s) :
    terms.Safe actor Q (storeTransition record (advanced record state effect)).run s := by
  unfold storeTransition
  refine safe_fallible_bind ?_ (by simp [advanced, okOr])
  rintro _ ⟨⟩
  rw [if_neg (by simp [advanced])]
  refine safe_port_bind ?_
  intro t ht response u hp
  obtain ⟨hg, haf⟩ := hst t response u (hP _ _ ht hs) hp
  refine ⟨hg, fun v hv => ?_⟩
  cases response with
  | error error => exact (haf v hv).1 _
  | ok answer =>
    cases answer with
    | revisionConflict =>
      exact fun w hw => (haf w (terms.rely_trans hv hw)).1 _
    | stored stored =>
      by_cases hsto : stored = (advanced record state effect).record
      · subst hsto
        simp only [ne_eq, not_true_eq_false, ↓reduceIte]
        exact fun w hw => (haf w (terms.rely_trans hv hw)).2 rfl
      · simp only [ne_eq, hsto, not_false_eq_true, ↓reduceIte]
        exact fun w hw => (haf w (terms.rely_trans hv hw)).1 _

/-- **Rule for `transition`.** The event replays the record, or one transition of the reducer is
presented to the journal. -/
theorem safe_transition {event : CommandEvent}
    {Q : Except FabricCommandActorError CommandRecord → World ι → Prop}
    (he : ∀ error t, P t → Q (.error error) t)
    (hrpl : ∀ context t, reduce record event context = .ok (idempotent record) → P t →
      Q (.ok record) t) (hst : ∀ state effect, Advance record.command record.state event state →
      effect ≠ .idempotentReplay → ∀ t response u, P t →
      Performs codec actor (.compareAndSwap ⟨record, (advanced record state effect).record, effect⟩)
        t response u →
      terms.Guarantee actor t u ∧ ∀ v, terms.Rely actor u v → (∀ error, Q (.error error) v) ∧
        (response = .ok (.stored (advanced record state effect).record) →
          Q (.ok (advanced record state effect).record) v)) (hs : P s) :
    terms.Safe actor Q (transition record event).run s := by
  unfold transition
  refine safe_readReductionContext_bind hqt hP he ?_ hs
  intro context t ht
  refine safe_contract_bind ?_ fun error u hu => he _ u (hP _ _ hu ht)
  intro _ hred
  obtain rfl | ⟨state, effect, advance, -, hmat, rfl⟩ := reduce_ok hred
  · exact fun u hu => hrpl context u hred (hP _ _ hu ht)
  · have hsf := safe_storeTransition hP (hst state effect advance hmat) ht
    cases effect with
    | idempotentReplay => exact absurd rfl hmat
    | stateChanged | reconciliationStillRequired => exact hsf

end

/-! ## The recovery handlers

Every handler but `Submit` and `OpenAdmission` loads one record and then only presents transitions
or runs a started attempt. An assertion that these two keep is kept by the handler. -/

section

variable {codec : RecordCodec} {actorId : ι → ActorId}
  {terms : Contract (actorSystem codec actorId)} {actor : ι} {P : World ι → Prop} {s : World ι}
  (hqt : ∀ s, terms.Guarantee actor s s) (hP : Stable terms actor P)
  (htr : ∀ record event s, P s →
    terms.Safe actor (fun _ => P) (transition record event).run s)
  (hexc : ∀ record owner s, P s →
    terms.Safe actor (fun _ => P) (executeStarted record owner).run s)

include hP in
theorem safe_result (result : Except FabricCommandActorError CommandRecord) (hs : P s) :
    terms.Safe actor (fun _ => P) (fallible result).run s :=
  fun t ht => hP s t ht hs

include htr hexc in
theorem safe_startAndExecute (record : CommandRecord) (owner : ExecutionOwner) (hs : P s) :
    terms.Safe actor (fun _ => P) (startAndExecute record owner).run s := by
  refine Contract.Safe.bindExcept ((htr record _ s hs).mono ?_)
  rintro (_ | started) t ht
  · exact ht
  · exact hexc started owner t ht

include hqt hP htr

variable (operationId : OperationId)

theorem safe_processCancel (cancellation : CommandCancellation)
    (hs : P s) : terms.Safe actor (fun _ => P)
      (processCancel (actorId actor) operationId cancellation).run s := by
  refine safe_loadOperation_bind hqt hP (fun _ _ h => h) ?_ hs
  intro record t ht _
  refine safe_readReductionContext_bind hqt hP (fun _ _ h => h) ?_ ht
  intro context u hu
  have ha : terms.Safe actor (fun _ => P)
      (adoptExecuting record (ownerIn (actorId actor) context)).run u := by
    unfold adoptExecuting
    split
    · split
      · exact htr _ _ u hu
      · exact safe_result hP (.ok record) hu
    · exact safe_result hP (.ok record) hu
  refine Contract.Safe.bindExcept (ha.mono ?_)
  rintro (_ | _) v hv
  · exact hv
  · exact htr _ _ v hv

theorem safe_processReconcile (hs : P s) :
    terms.Safe actor (fun _ => P) (processReconcile (actorId actor) operationId).run s := by
  refine safe_loadOperation_bind hqt hP (fun _ _ h => h) ?_ hs
  intro _ t ht _
  split
  · refine safe_readReductionContext_bind hqt hP (fun _ _ h => h) ?_ ht
    intro _ u hu
    refine safe_reconcile_bind hqt hP (fun _ _ h => h) ?_ hu
    intro _ v hv
    exact htr _ _ v hv
  · exact safe_result hP (.error _) ht

theorem safe_processMarkInterruptedCommit (unknown : UnknownCommit)
    (hs : P s) : terms.Safe actor (fun _ => P)
      (processMarkInterruptedCommit (actorId actor) operationId unknown).run s := by
  refine safe_loadOperation_bind hqt hP (fun _ _ h => h) ?_ hs
  intro _ t ht _
  split
  · refine safe_readReductionContext_bind hqt hP (fun _ _ h => h) ?_ ht
    intro _ u hu
    exact htr _ _ u hu
  · exact safe_result hP (.error _) ht

include hexc

theorem safe_processRetry (hs : P s) :
    terms.Safe actor (fun _ => P) (processRetry (actorId actor) operationId).run s := by
  refine safe_loadOperation_bind hqt hP (fun _ _ h => h) ?_ hs
  intro _ t ht _
  split
  · refine safe_readReductionContext_bind hqt hP (fun _ _ h => h) ?_ ht
    intro _ u hu
    show terms.Safe actor _ (ite _ _ _ : ActorM _).run u
    split
    · exact safe_result hP (.error _) hu
    · exact safe_startAndExecute htr hexc _ _ hu
  · exact safe_result hP (.error _) ht

theorem safe_processResumePrecommit (hs : P s) :
    terms.Safe actor (fun _ => P) (processResumePrecommit (actorId actor) operationId).run s := by
  refine safe_loadOperation_bind hqt hP (fun _ _ h => h) ?_ hs
  intro record t ht _
  have hr : terms.Safe actor (fun _ => P)
      (do let context ← Contexts.readReductionContext record
          startAndExecute record (ownerIn (actorId actor) context) : ActorM _).run t := by
    refine safe_readReductionContext_bind hqt hP (fun _ _ h => h) ?_ ht
    intro context u hu
    exact safe_startAndExecute htr hexc _ _ hu
  split
  · exact hr
  · exact hr
  · exact safe_result hP (.error _) ht

/-- **Rule for the recovery handlers.** The two handlers that touch the gate are left to the
caller. -/
theorem safe_handle_of {message : ActorMessage}
    (hsb : ∀ command, terms.Safe actor (fun _ => P) (handleSubmit (actorId actor) command) s)
    (ho : terms.Safe actor (fun _ => P) handleOpenAdmission s) (hs : P s) :
    terms.Safe actor (fun _ => P) (handle (actorId actor) message) s := by
  have hr : ∀ {method : ActorM CommandRecord}, terms.Safe actor (fun _ => P) method.run s →
      terms.Safe actor (fun _ => P) (method.run >>= fun result => pure (Reply.record result)) s :=
    fun h => (h.mono fun _ t ht u hu => hP t u hu ht).bind
  cases message with
  | submit command => exact hsb command
  | cancel operationId cancellation =>
    exact hr (safe_processCancel hqt hP htr operationId cancellation hs)
  | reconcile operationId =>
    exact hr (safe_processReconcile hqt hP htr operationId hs)
  | retry operationId =>
    exact hr (safe_processRetry hqt hP htr hexc operationId hs)
  | resumePrecommit operationId =>
    exact hr (safe_processResumePrecommit hqt hP htr hexc operationId hs)
  | markInterruptedCommit operationId unknown =>
    exact hr (safe_processMarkInterruptedCommit hqt hP htr operationId unknown hs)
  | openAdmission => exact ho
  | shutdown => exact fun t ht => hP s t ht hs

end

end CodeFabric.Command
