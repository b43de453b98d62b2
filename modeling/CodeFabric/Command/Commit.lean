import CodeFabric.Command.Actor
import CodeFabric.Command.History

/-! # At most one commit per attempt

Any number of actors share one journal; messages, journal operations, crashes and restarts
interleave freely, and contexts and effect outcomes are arbitrary. Nothing but the compare-and-swap
orders the actors, and an actor may act on a record that others have long moved on.

The proof splits in two. Per actor, `commitTerms` says what an effect adds to the log: a fresh
admission, a transition of the record the journal held, or a commit directly after the actor's own
`CommitPrepared`. Globally, `LogInvariant` follows the log: what a journal row decodes to is never
behind any stored transition of its operation, so an attempt is prepared at most once, and it is
only left behind with retry evidence. -/

namespace CodeFabric.Command

open Fallible Interleaving Runs List

variable {ι : Type} [DecidableEq ι] {codec : RecordCodec} {actorId : ι → ActorId} {actor : ι}

/-! ## What an actor adds to the log -/

/-- The last entry of an actor is the transition that stored `record`. -/
def LastStored (actor : ι) (record : CommandRecord) (log : List (LogEntry ι)) : Prop :=
  ∃ past transition future, log = past ++ .stored actor transition :: future ∧
    transition.successor = record ∧ ∀ entry ∈ future, entry.actor ≠ actor

/-- What one effect of an actor does to the journal and the log. -/
inductive Acts (codec : RecordCodec) (actor : ι) (s t : World ι) : Prop
  | quiet (table : t.table = s.table) (log : t.log = s.log)
  | inserts {record : CommandRecord} {encoded : List UInt8}
      (encodes : encodeRecord codec record = .ok encoded)
      (fresh : s.table.Fresh (rowOf record encoded))
      (rows : t.table.rows = s.table.rows ++ [rowOf record encoded])
      (log : t.log = s.log ++ [.inserted actor record])
  | stores {transition : ReducerTransition} {event : CommandEvent} {encoded : List UInt8}
      {row : StoredRow} (step : transition.IsStep)
      (advance : Advance transition.predecessor.command transition.predecessor.state event
        transition.successor.state)
      (encodes : encodeRecord codec transition.successor = .ok encoded) (mem : row ∈ s.table.rows)
      (decodes : decodeRow codec row = .ok transition.predecessor)
      (rows : t.table.rows = s.table.replaced (rowOf transition.successor encoded))
      (log : t.log = s.log ++ [.stored actor transition])
  | commits {prepared : CommandRecord} {owner : ExecutionOwner} {transaction : TransactionRef}
      {context : ReductionContext} {attempt : Nat}
      (state : prepared.state = .commitPrepared attempt owner transaction)
      (last : LastStored actor prepared s.log) (table : t.table = s.table)
      (log : t.log = s.log ++ [.committed actor prepared owner transaction context])

/-- The log only grew, by entries of other actors. -/
def GrewByOthers (actor : ι) (s t : World ι) : Prop :=
  ∃ entries, t.log = s.log ++ entries ∧ ∀ entry ∈ entries, entry.actor ≠ actor

theorem growsByOthers_setGate (actor other : ι) (s : World ι) (isOpen : Bool) :
    GrewByOthers actor s (s.setGate other isOpen) :=
  ⟨[], by simp [World.setGate], by simp⟩

omit [DecidableEq ι] in
theorem Acts.grewByOthers {codec : RecordCodec} {actor other : ι} {s t : World ι}
    (h : Acts codec actor s t) (hne : actor ≠ other) : GrewByOthers other s t := by
  cases h with
  | quiet _ log => exact ⟨[], by simpa using log, by simp⟩
  | inserts _ _ _ log => exact ⟨_, log, by simpa [LogEntry.actor] using hne⟩
  | stores _ _ _ _ _ _ log => exact ⟨_, log, by simpa [LogEntry.actor] using hne⟩
  | commits _ _ _ log => exact ⟨_, log, by simpa [LogEntry.actor] using hne⟩

omit [DecidableEq ι] in
theorem LastStored.of_grewByOthers {actor : ι} {record : CommandRecord} {s t : World ι}
    (h : LastStored actor record s.log) (hg : GrewByOthers actor s t) :
    LastStored actor record t.log := by
  obtain ⟨past, transition, future, hlog, hs, hos⟩ := h
  obtain ⟨entries, hg, hen⟩ := hg
  refine ⟨past, transition, future ++ entries, ?_, hs, ?_⟩
  · rw [hg, hlog, append_assoc, cons_append]
  · intro entry hentry
    rcases mem_append.1 hentry with h | h
    · exact hos entry h
    · exact hen entry h

/-- The contract under which every actor works. -/
def commitTerms (codec : RecordCodec) (actorId : ι → ActorId) :
    Contract (actorSystem codec actorId) where
  Rely := GrewByOthers
  Guarantee := Acts codec
  Idle _ _ := True
  rely_refl _ _ := ⟨[], by simp, by simp⟩
  rely_trans := by
    rintro actor s t u ⟨first, hfirst, hfirstActor⟩ ⟨second, hsecond, hsecondActor⟩
    refine ⟨first ++ second, by rw [hsecond, hfirst, append_assoc], ?_⟩
    intro entry hentry
    rcases mem_append.1 hentry with h | h
    · exact hfirstActor entry h
    · exact hsecondActor entry h
  guarantee_rely hne h := h.grewByOthers hne
  environment_rely := by
    rintro actor s t ⟨other, rfl⟩
    exact growsByOthers_setGate actor other s false
  restart_rely := by
    rintro actor other s t - rfl
    exact growsByOthers_setGate other actor s false
  restart_idle _ := trivial
  idle_stable _ _ := trivial

/-! ## The handlers keep the contract -/

omit [DecidableEq ι] in
theorem acts_refl (s : World ι) : Acts codec actor s s := .quiet rfl rfl

theorem acts_of_insertIfAbsent {admitted : CommandRecord} {s t : World ι}
    {response : Except CommandPortError DurableAdmissionWrite}
    (h : Performs codec actor (.insertIfAbsent admitted) s response t) : Acts codec actor s t := by
  obtain ⟨-, rfl⟩ | ⟨_, -, -, rfl⟩ | ⟨_, _, hw, -, rfl⟩ := h
  · exact acts_refl _
  · exact acts_refl _
  · obtain ⟨_, henc, rfl, hf, hr⟩ | ⟨⟨_, rfl⟩, rfl⟩ :=
      insertIfAbsent_ok hw
    · exact .inserts henc hf hr rfl
    · exact .quiet rfl (by simp [World.append, DurableAdmissionWrite.entries])

/-- A compare-and-swap of a reducer transition is an allowed action; once acknowledged as stored
it is the actor's last entry. -/
theorem acts_of_compareAndSwap {transition : ReducerTransition} {event : CommandEvent}
    {s t : World ι} {response : Except CommandPortError DurableTransitionWrite}
    (advance : Advance transition.predecessor.command transition.predecessor.state event
      transition.successor.state)
    (h : Performs codec actor (.compareAndSwap transition) s response t) :
    Acts codec actor s t ∧ (∀ stored, response = .ok (.stored stored) →
      LastStored actor transition.successor t.log) := by
  obtain ⟨rfl, rfl⟩ | ⟨_, -, rfl, rfl⟩ | ⟨_, _, hw, hrs, rfl⟩ := h
  · exact ⟨acts_refl _, by simp⟩
  · exact ⟨acts_refl _, by simp⟩
  · obtain ⟨⟨_, rfl⟩, rfl⟩ | ⟨rfl, hs, _, _, henc, hrow, hdec, hrw⟩ :=
      compareAndSwap_ok hw
    · refine ⟨.quiet rfl (by simp [World.append, DurableTransitionWrite.entries]), ?_⟩
      rintro stored rfl
      simp at hrs
    · refine ⟨.stores hs advance henc hrow hdec hrw rfl, fun stored _ => ?_⟩
      exact ⟨s.log, transition, [], rfl, rfl, by simp⟩

theorem safe_transition_any (record : CommandRecord) (event : CommandEvent) (s : World ι) :
    (commitTerms codec actorId).Safe actor (fun _ _ => True) (transition record event).run s := by
  refine safe_transition acts_refl (P := fun _ => True) (fun _ _ _ _ => trivial)
    (fun _ _ _ => trivial) (fun _ _ _ _ => trivial) ?_ trivial
  intro _ _ advance _ t _ u _ hp
  exact ⟨(acts_of_compareAndSwap advance hp).1, fun _ _ => ⟨fun _ => trivial, fun _ => trivial⟩⟩

theorem safe_commitPrepared {record : CommandRecord} {owner : ExecutionOwner}
    {prepared : TransactionRef} {attempt : Nat} {s : World ι}
    (hst : record.state = .commitPrepared attempt owner prepared)
    (hls : LastStored actor record s.log) : (commitTerms codec actorId).Safe actor (fun _ _ => True)
      (commitPrepared record owner prepared).run s := by
  have hstable : Stable (commitTerms codec actorId) actor fun t => LastStored actor record t.log :=
    fun _ _ hr h => h.of_grewByOthers hr
  unfold commitPrepared
  refine safe_validateIdempotent_bind acts_refl hstable (fun _ _ _ => trivial) ?_ hls
  intro _ t _ ht
  refine safe_port_bind ?_
  rintro u hu response _ rfl
  have hlastu := hstable _ _ hu ht
  refine ⟨.commits hst hlastu rfl rfl, fun v _ => ?_⟩
  cases response with
  | error error => trivial
  | ok => exact safe_transition_any _ _ v

theorem safe_executeStarted (record : CommandRecord) (owner : ExecutionOwner) (s : World ι) :
    (commitTerms codec actorId).Safe actor (fun _ _ => True)
      (executeStarted record owner).run s := by
  have hs : Stable (commitTerms codec actorId) actor fun _ => True := fun _ _ _ _ => trivial
  unfold executeStarted
  refine safe_validateIdempotent_bind acts_refl hs (fun _ _ _ => trivial) ?_ trivial
  intro context t hrpl _
  obtain ⟨attempt, he⟩ := reduce_start_replay hrpl
  refine safe_port_bind ?_
  rintro u _ response _ rfl
  refine ⟨acts_refl _, fun v _ => ?_⟩
  match response with
  | .error error => trivial
  | .ok (.knownFailure failure) => exact safe_transition_any _ _ v
  | .ok (.cancelled cancellation) => exact safe_transition_any _ _ v
  | .ok (.prepared prepared) =>
    refine Contract.Safe.bindExcept ?_
    refine safe_transition acts_refl hs (fun _ _ _ => trivial) ?_ ?_ trivial
    · intro context w hprepare _
      -- an executing record does not replay a preparation
      obtain ⟨_, hpr⟩ := reduce_prepareCommit_replay hprepare
      rw [he] at hpr
      cases hpr
    · intro state effect advance _ w response x _ hperf
      obtain ⟨ha, hl⟩ := acts_of_compareAndSwap advance hperf
      refine ⟨ha, fun y hy => ⟨fun _ => trivial, fun hrs => ?_⟩⟩
      rw [he] at advance
      cases advance with
      | prepare =>
        exact safe_commitPrepared rfl ((hl _ hrs).of_grewByOthers hy)

theorem stable_true : Stable (commitTerms codec actorId) actor fun _ => True :=
  fun _ _ _ _ => trivial

theorem safe_processSubmit (command : FabricCommand) (s : World ι) :
    (commitTerms codec actorId).Safe actor (fun _ _ => True)
      (processSubmit (actorId actor) command).run s := by
  refine safe_port_bind ?_
  rintro t _ response _ ⟨-, rfl⟩
  refine ⟨acts_refl _, fun u _ => ?_⟩
  match response with
  | .error error => trivial
  | .ok (some existing) => exact fun _ _ => trivial
  | .ok none =>
    refine safe_port_bind ?_
    rintro v _ response _ rfl
    refine ⟨acts_refl _, fun w _ => ?_⟩
    cases response with
    | error error => trivial
    | ok context =>
      refine safe_contract_bind ?_ fun _ _ _ => trivial
      rintro outcome hout
      rw [admitCommand_none_ok hout]
      refine safe_port_bind ?_
      intro x _ response y hp
      refine ⟨acts_of_insertIfAbsent hp, fun z _ => ?_⟩
      match response with
      | .error error => trivial
      | .ok (.existing existing) => exact fun _ _ => trivial
      | .ok (.inserted stored) =>
        show (commitTerms codec actorId).Safe actor _ (ite _ _ _ : ActorM _).run z
        split
        · exact fun _ _ => trivial
        · exact safe_startAndExecute (P := fun _ => True)
            (fun record event t _ => safe_transition_any record event t)
            (fun record owner t _ => safe_executeStarted record owner t) stored
            ⟨actorId actor, command.writerFence⟩ trivial

theorem safe_handleSubmit (command : FabricCommand) (s : World ι) :
    (commitTerms codec actorId).Safe actor (fun _ _ => True)
      (handleSubmit (actorId actor) command) s := by
  rintro _ _ isOpen t ⟨-, rfl⟩
  refine ⟨acts_refl _, ?_⟩
  show (commitTerms codec actorId).Safe actor _
    (submitIfOpen (actorId actor) command isOpen >>= replyToSubmit) t
  refine Contract.Safe.bind (Contract.Safe.mono (Q := fun _ _ => True) ?_ ?_)
  · unfold submitIfOpen
    split
    · exact safe_processSubmit command t
    · exact fun _ _ => trivial
  · intro _ u _
    unfold replyToSubmit
    split
    · rintro v _ _ _ rfl
      exact ⟨.quiet rfl rfl, fun _ _ => trivial⟩
    · exact fun _ _ => trivial

theorem safe_handleOpenAdmission (s : World ι) :
    (commitTerms codec actorId).Safe actor (fun _ _ => True) handleOpenAdmission s := by
  rintro t _ _ _ rfl
  refine ⟨.quiet rfl rfl, ?_⟩
  rintro u _ response _ ⟨-, rfl⟩
  refine ⟨acts_refl _, ?_⟩
  match response with
  | .error error => exact fun _ _ => trivial
  | .ok none =>
    rintro v _ _ _ rfl
    exact ⟨.quiet rfl rfl, fun _ _ => trivial⟩
  | .ok (some record) => exact fun _ _ => trivial

/-- **Every handler keeps the contract.** -/
theorem safe_handle (message : ActorMessage) (s : World ι) :
    (commitTerms codec actorId).Safe actor (fun _ _ => True) (handle (actorId actor) message) s :=
  safe_handle_of acts_refl stable_true (fun record event t _ => safe_transition_any record event t)
    (fun record owner t _ => safe_executeStarted record owner t)
    (fun command => safe_handleSubmit command s) (safe_handleOpenAdmission s) trivial

end CodeFabric.Command
