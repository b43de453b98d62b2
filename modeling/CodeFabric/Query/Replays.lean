import CodeFabric.Query.Discipline

/-! # Replays within one history

What the journal and the idempotency table of `fabric/query_coordinator.rs` say together, over every
history whose journal writes succeeded.

* **`accept_replays`**: while the journal holds a record of an accepted operation, the operation is
  answered as a replay.
* **`journal_mirrors_history`**: the journal holds the records of the queries in memory.
* **`accept_idempotent`**: an accepted operation that has not expired is answered as a replay. -/

namespace CodeFabric.Query

open CodeFabric.Command Fallible Procedures Interleaving Runs List

variable {policy : QueryCoordinatorPolicy} {codec : Codec} {records : Records}
  {coordinator : QueryCoordinator} {calls : Calls} {state after : CoordinatorState}

/-! ## One call -/

/-- The records that a list of writes creates. -/
def created (writes : List JournalWrite) : List DurableQueryRecord :=
  writes.filterMap fun
    | .create record => some record
    | .replace _ | .delete _ => none

/-- Records of one query name one operation. -/
theorem SameQuery.identity {old new : DurableQueryRecord} (h : SameQuery old new) :
    new.workspaceId = old.workspaceId ∧ new.principalId = old.principalId ∧
      new.idempotencyKey = old.idempotencyKey ∧
      new.operationFingerprint = old.operationFingerprint := by
  unfold SameQuery at h
  rw [← h]
  exact ⟨rfl, rfl, rfl, rfl⟩

/-- The record an acceptance writes first. -/
def acceptedRecord (coordinator : QueryCoordinator) (operation : NormalizedQueryOperation)
    (acceptedAt : Int) : DurableQueryRecord :=
  durableRecord (newHandle coordinator operation (operation.fingerprint coordinator.codec.blake3)
    acceptedAt)

/-- While the journal holds a record of an accepted operation, the operation is answered as a
replay: nothing is called and nothing changes. -/
theorem accept_replays {generation : Nat} {operation : NormalizedQueryOperation}
    {acceptedAt submittedAt : Int} {last : DurableQueryRecord} {invocationCalls : Calls}
    {reply : Except CoordinatorError CoordinatorReply}
    (hs : Coherent ⟨policy, generation, codec⟩ state) (hmir : Mirrors records state)
    {first : QueryCoordinator} (hcd : first.codec = codec)
    (hl : records[(acceptedRecord first operation acceptedAt).acceptance.queryId]? = some last)
    (hsm : SameQuery (acceptedRecord first operation acceptedAt) last)
    (hv : operation.tryNew codec.canonicalize = .ok operation)
    (hd : submittedAt < operation.deadlineUnixMs) (step : Step ⟨policy, generation, codec⟩ state
      ⟨.accept operation submittedAt, invocationCalls, reply⟩ after) :
    invocationCalls = [] ∧ after = state ∧ ∃ acceptance,
      reply = .ok (.accepted (.replay acceptance)) ∧
        acceptance.queryId = (acceptedRecord first operation acceptedAt).acceptance.queryId := by
  subst hcd
  obtain ⟨handle, hfd, rfl⟩ := Option.map_eq_some_iff.1 ((hmir _).symm.trans hl)
  obtain ⟨hws, hpr, hkey, hfin⟩ := hsm.identity
  have hsc : handle.operation.scope = operation.scope := by
    have hw : handle.operation.workspaceId = operation.workspaceId :=
      congrArg ByteIdentity.mk (hex_injective hws)
    have hp : handle.operation.principalId = operation.principalId :=
      congrArg ByteIdentity.mk (hex_injective hpr)
    have hk : handle.operation.idempotencyKey = operation.idempotencyKey := hkey
    rw [NormalizedQueryOperation.scope, hw, hp, hk]
    rfl
  have hprint : handle.fingerprint = operation.fingerprint first.codec.blake3 :=
    hex_injective hfin
  have hen := (hs.idempotency operation.scope _).2 ⟨handle, hfd, hsc⟩
  have hacc : wp ((CoordinatorOperation.accept operation submittedAt).procedure
      ⟨policy, generation, first.codec⟩) state fun calls result last => calls = [] ∧ last = state ∧
        result = .ok (.accepted (.replay handle.acceptance)) := by
    refine wp_bind.2 ?_
    unfold accept
    refine wp_check_bind.2 ⟨fun error herr => ?_, fun validated hok => ?_⟩
    · exact absurd (hv.symm.trans herr) nofun
    obtain rfl : operation = validated := Except.ok.inj (hv.symm.trans hok)
    refine wp_check_bind.2 ⟨fun error herr => ?_, fun _ _ => wp_read_bind.2 ?_⟩
    · exact absurd hd (ensure_eq_error herr).2
    simp only [hen]
    refine wp_check_bind.2 ⟨fun error herr => ?_, fun kept hkp => ?_⟩
    · exact absurd (hfd.symm.trans (okOr_eq_error herr).2) nofun
    obtain rfl : handle = kept := Option.some.inj (hfd.symm.trans (okOr_eq_ok.1 hkp))
    refine wp_check_bind.2 ⟨fun error herr => ?_, fun _ _ => ?_⟩
    · exact absurd hprint (ensure_eq_error herr).2
    · exact wp_pure.2 (afterwards_ok.2 (wp_pure.2 ⟨rfl, rfl, rfl⟩))
  obtain ⟨hcl, haf, hr⟩ := yields_of_wp hacc step
  exact ⟨hcl, haf, _, hr, (hs.handles _ _ hfd).queryId_eq⟩

/-! ## Within one history -/

/-- **The journal is the memory.** After every history whose journal writes succeeded, the journal
holds the record of every query in memory and of no other. -/
theorem journal_mirrors_history {history : History}
    (run : Run (Step coordinator) .default history state) (hwritten : history.Written) :
    Mirrors (journaled history.writes) state := by
  obtain ⟨-, -, hmir⟩ :=
    kept_of_history run hwritten (coherent_default coordinator) mirrors_default
  exact hmir

/-- Three accepted queries, one of which fails, one is cancelled and none has expired. -/
def replayOperations : List CoordinatorOperation :=
  sampleOperations ++ [.cancel (sampleQuery 1 "b") 60, .collectExpired 500]

def replayHistory : History × CoordinatorState :=
  performed sampleCoordinator successful replayOperations .default

/-- The journal of three queries after seven writes. -/
theorem sample_mirrors : (journaled (History.writes replayHistory.1)).size = 3 ∧
    (History.writes replayHistory.1).length = 7 ∧
    Mirrors (journaled (History.writes replayHistory.1)) replayHistory.2 :=
  ⟨by decide +kernel, by decide +kernel,
    journal_mirrors_history (run_performed _ _ _) (.performed _ _)⟩

/-- **Idempotent acceptance.** In every history whose journal writes succeeded, an operation that
was accepted and has not expired is answered as a replay before its deadline, whatever became of
its query: nothing is called and nothing changes. -/
theorem accept_idempotent {history : History} (run : Run (Step coordinator) .default history state)
    (hwritten : history.Written) {operation : NormalizedQueryOperation}
    {acceptedAt submittedAt : Int} {reply : Except CoordinatorError CoordinatorReply}
    (haccepted : acceptedRecord coordinator operation acceptedAt ∈ created history.writes)
    (hlive : ∀ time ∈ history.expiries, time < operation.leaseExpiresAtUnixMs)
    (hvalid : operation.tryNew coordinator.codec.canonicalize = .ok operation)
    (hdeadline : submittedAt < operation.deadlineUnixMs)
    (step : Step coordinator state ⟨.accept operation submittedAt, calls, reply⟩ after) :
    calls = [] ∧ after = state ∧ ∃ acceptance, reply = .ok (.accepted (.replay acceptance)) ∧
      acceptance.queryId = ⟨operation.fingerprint coordinator.codec.blake3⟩ := by
  obtain ⟨hkept, hcoh, hmir⟩ :=
    kept_of_history run hwritten (coherent_default coordinator) mirrors_default
  obtain ⟨write, hwrite, hcreated⟩ := mem_filterMap.1 haccepted
  cases write with
  | create record =>
    cases hcreated
    obtain ⟨_, hlast, hsame⟩ := hkept.remembers_created hwrite hlive
    exact accept_replays hcoh hmir rfl hlast hsame hvalid hdeadline step
  | replace | delete => cases hcreated

/-- The operation of the query that failed, submitted again after the expiry. -/
theorem sample_idempotent : History.expiries replayHistory.1 = [500] ∧ ∃ acceptance,
    (answered successful ((CoordinatorOperation.procedure sampleCoordinator
      (.accept (sampleOperation 1 "a") 600)).start replayHistory.2)).2.1 =
      .ok (.accepted (.replay acceptance)) := by
  have hcreated : acceptedRecord sampleCoordinator (sampleOperation 1 "a") 10 ∈
      created (History.writes replayHistory.1) := by decide +kernel
  have step := yields_answered successful ((CoordinatorOperation.procedure sampleCoordinator
    (.accept (sampleOperation 1 "a") 600)).start replayHistory.2)
  obtain ⟨-, -, acceptance, hreply, -⟩ := accept_idempotent (run_performed _ _ _) (.performed _ _)
    hcreated (by decide +kernel) (by decide +kernel) (by decide) step
  exact ⟨by decide +kernel, acceptance, hreply⟩

end CodeFabric.Query
