import CodeFabric.Query.Coordinator

/-! # The coordinator's books

What the counters, the queue and the idempotency table of the coordinator say about its handles,
and the moves that its operations are made of.

* **`Coherent`** is the joint invariant: every counter is a total over the handles, the queue holds
  exactly the waiting queries, the tables agree with the handles, and the policy's caps hold.
* **`Move`** is one elementary change with the journal write it makes: a query is admitted, its
  handle exchanged for a later one, or a query dropped. **`DispatchMove`** is one step of a
  dispatch: a waiting query is moved to the back, or started. **`Change`** is either. -/

namespace CodeFabric.Query

open CodeFabric.Command Fallible TreeMaps QueryExecutionPhase QueryHandle NormalizedQueryOperation

/-! ## Weights of a handle -/

namespace QueryHandle

variable (handle : QueryHandle)

def runs : Nat := if handle.phase = .running then 1 else 0

def heldBytes : Nat :=
  if handle.resultRetention = .reserved then handle.operation.maximumResultBytes else 0

def heldPages : Nat :=
  if handle.resultRetention = .reserved then handle.operation.maximumResultPages else 0

def workspace : WorkspaceId := handle.operation.workspaceId

def principal : PrincipalId := handle.operation.principalId

theorem runs_le_one : handle.runs ≤ 1 := by
  unfold runs
  split <;> omega

theorem runs_of_running {handle : QueryHandle} (h : handle.phase = .running) : handle.runs = 1 :=
  if_pos h

theorem runs_of_not_running {handle : QueryHandle} (h : handle.phase ≠ .running) :
    handle.runs = 0 :=
  if_neg h

end QueryHandle

section

variable {κ : Type} [Ord κ] [Std.TransOrd κ] [DecidableEq κ]

def scopeWeight (f : QueryHandle → κ) (key : κ) (handle : QueryHandle) : Nat :=
  if f handle = key then handle.runs else 0

/-- A counter with one running query less; a counter at zero is removed. -/
def released (values : Std.ExtTreeMap κ Nat) (key : κ) : Std.ExtTreeMap κ Nat :=
  if (values[key]?).getD 0 - 1 = 0 then values.erase key
  else values.insert key ((values[key]?).getD 0 - 1)

/-- A counter after the running weight of one of its queries has changed. -/
def recount (values : Std.ExtTreeMap κ Nat) (key : κ) (before after : Nat) : Std.ExtTreeMap κ Nat :=
  if before = after then values
  else if before < after then values.insert key ((values[key]?).getD 0 + 1)
  else released values key

/-- The counters of a scope count the running queries of each key, and none is kept at zero. -/
structure Counts (f : QueryHandle → κ) (values : Std.ExtTreeMap κ Nat)
    (handles : Std.ExtTreeMap QueryId QueryHandle) : Prop where
  count : ∀ key, (values[key]?).getD 0 = total (scopeWeight f key) handles
  positive : ∀ key : κ, values[key]? ≠ some 0

variable [Std.LawfulEqOrd κ] {values : Std.ExtTreeMap κ Nat} {key j : κ} {f : QueryHandle → κ}
  {handles : Std.ExtTreeMap QueryId QueryHandle} {queryId : QueryId} {handle next : QueryHandle}

theorem getD_recount {before after : Nat} (hbef : before ≤ 1) (haf : after ≤ 1) :
    ((recount values key before after)[j]?).getD 0 =
      if key = j then (values[key]?).getD 0 + after - before else (values[j]?).getD 0 := by
  unfold recount released
  by_cases hkey : key = j
  · subst hkey
    rw [if_pos rfl]
    split_ifs with hs hl hz
    · omega
    · rw [Std.ExtTreeMap.getElem?_insert_self, Option.getD_some]
      omega
    · rw [Std.ExtTreeMap.getElem?_erase_self, Option.getD_none]
      omega
    · rw [Std.ExtTreeMap.getElem?_insert_self, Option.getD_some]
      omega
  · rw [if_neg hkey]
    split_ifs
    · rfl
    · rw [getElem?_insert_eq, if_neg hkey]
    · rw [getElem?_erase_eq, if_neg hkey]
    · rw [getElem?_insert_eq, if_neg hkey]

/-- A recount stays within a bound that has room. -/
theorem recount_le {before after bound : Nat} (hbef : before ≤ 1) (haf : after ≤ 1)
    (h : ∀ key : κ, (values[key]?).getD 0 ≤ bound)
    (hroom : (values[key]?).getD 0 < bound ∨ after ≤ before) (j : κ) :
    ((recount values key before after)[j]?).getD 0 ≤ bound := by
  rw [getD_recount hbef haf]
  split_ifs
  · have hle := h key
    omega
  · exact h j

theorem recount_ne_zero {before after : Nat} (h : ∀ key : κ, values[key]? ≠ some 0) (j : κ) :
    (recount values key before after)[j]? ≠ some 0 := by
  unfold recount released
  split_ifs with hs hl hz
  · exact h j
  · rw [getElem?_insert_eq]
    split_ifs
    · simp
    · exact h j
  · rw [getElem?_erase_eq]
    split_ifs
    · simp
    · exact h j
  · rw [getElem?_insert_eq]
    split_ifs
    · simpa using hz
    · exact h j

/-- Counts follow the exchange of a handle. -/
theorem Counts.exchange (h : Counts f values handles) (hfd : handles[queryId]? = some handle)
    (hsc : f next = f handle) :
    Counts f (recount values (f handle) handle.runs next.runs) (handles.insert queryId next) where
  count key := by
    have htot := total_insert (f := scopeWeight f key) (v := next) hfd
    have hc := h.count key
    have hw := weight_le_total (f := scopeWeight f key) hfd
    rw [getD_recount handle.runs_le_one next.runs_le_one]
    by_cases hkey : f handle = key
    · rw [if_pos hkey, hkey]
      rw [scopeWeight, if_pos hkey] at htot hw
      rw [scopeWeight, if_pos (hsc.trans hkey)] at htot
      omega
    · rw [if_neg hkey]
      rw [scopeWeight, if_neg hkey] at htot
      rw [scopeWeight, if_neg (hsc.symm ▸ hkey)] at htot
      omega
  positive := recount_ne_zero h.positive

/-- Counts follow the removal of a handle. -/
theorem Counts.drop (h : Counts f values handles) (hfd : handles[queryId]? = some handle) :
    Counts f (recount values (f handle) handle.runs 0) (handles.erase queryId) where
  count key := by
    have htot := total_erase (f := scopeWeight f key) hfd
    have hc := h.count key
    rw [getD_recount handle.runs_le_one (Nat.zero_le 1)]
    by_cases hkey : f handle = key
    · rw [if_pos hkey, hkey]
      rw [scopeWeight, if_pos hkey] at htot
      omega
    · rw [if_neg hkey]
      rw [scopeWeight, if_neg hkey] at htot
      omega
  positive := recount_ne_zero h.positive

omit [Std.LawfulEqOrd κ] in
/-- A query that does not run yet is not counted. -/
theorem Counts.enroll (h : Counts f values handles) (hf : handles[queryId]? = none)
    (hph : next.phase ≠ .running) : Counts f values (handles.insert queryId next) where
  count key := by
    have htot := total_insert_new (f := scopeWeight f key) (v := next) hf
    have hw : scopeWeight f key next = 0 := by
      rw [scopeWeight, runs_of_not_running hph, ite_self]
    rw [h.count, htot, hw, Nat.add_zero]
  positive := h.positive

end

/-! ## The joint invariant -/

variable (coordinator : QueryCoordinator)

/-- What every kept handle satisfies by itself. -/
structure HandleValid (queryId : QueryId) (handle : QueryHandle) : Prop where
  /-- It is kept under its own identity, which is made from its fingerprint. -/
  queryId_eq : handle.acceptance.queryId = queryId
  fingerprint_eq : queryId = ⟨handle.fingerprint⟩
  lease_eq : handle.acceptance.leaseExpiresAtUnixMs = handle.operation.leaseExpiresAtUnixMs
  /-- Its owner passed the session checks. -/
  principal_ne_zero : allZero handle.operation.principalId = false
  policyGeneration_pos : 0 < handle.operation.policyGeneration
  revocationGeneration_pos : 0 < handle.operation.revocationGeneration
  /-- Its retention agrees with its phase and its events. -/
  retention : RetentionValid handle.phase handle.resultRetention handle.events
  /-- Its events are numbered from one, valid, counted and within the policy, with a slot left for
  the terminal event. -/
  sequences : handle.events.map QueryControlEvent.sequence = List.range' 1 handle.events.length
  payloads : ∀ event ∈ handle.events, PayloadValid event.payload
  bytes : handle.eventBytes = (handle.events.map coordinator.codec.eventLength).sum
  events_le : handle.events.length ≤ coordinator.policy.maxEventsPerQuery
  events_lt : ¬handle.phase.isTerminal → handle.events.length < coordinator.policy.maxEventsPerQuery
  /-- Its cancellation identities are valid and bounded. -/
  cancellations_le : handle.cancellationIds.size ≤ maxCancellationIdentitiesPerQuery
  cancellations : ∀ cancellationId ∈ handle.cancellationIds, validCancellationId cancellationId

/-- The books of a coordinator agree with its handles and with its policy. -/
structure Coherent (state : CoordinatorState) : Prop where
  handles : ∀ (queryId : QueryId) handle, state.handles[queryId]? = some handle →
    HandleValid coordinator queryId handle
  /-- The running counters are the numbers of running queries. -/
  running : state.running = total QueryHandle.runs state.handles
  byWorkspace : Counts QueryHandle.workspace state.runningByWorkspace state.handles
  byPrincipal : Counts QueryHandle.principal state.runningByPrincipal state.handles
  /-- The queue holds exactly the waiting queries, each once. -/
  queue_nodup : state.queue.Nodup
  mem_queue : ∀ queryId, queryId ∈ state.queue ↔
    ∃ handle, state.handles[queryId]? = some handle ∧ handle.phase = .queued
  /-- The reserved totals are the sums over the queries whose result is still reserved. -/
  bytes : state.reservedResultBytes = total QueryHandle.heldBytes state.handles
  pages : state.reservedResultPages = total QueryHandle.heldPages state.handles
  /-- Scopes and kept queries correspond one to one. -/
  idempotency : ∀ (scope : IdempotencyScope) queryId, state.idempotency[scope]? = some queryId ↔
    ∃ handle, state.handles[queryId]? = some handle ∧ handle.operation.scope = scope
  /-- Every query that has not ended holds a task reservation. -/
  tasks : ∀ queryId, queryId ∈ state.taskReservations ↔
    ∃ handle, state.handles[queryId]? = some handle ∧ ¬handle.phase.isTerminal
  /-- The caps of the policy. -/
  running_le : state.running ≤ coordinator.policy.maxRunning
  workspace_le : ∀ workspace : WorkspaceId, (state.runningByWorkspace[workspace]?).getD 0 ≤
    coordinator.policy.maxRunningPerWorkspace
  principal_le : ∀ principal : PrincipalId, (state.runningByPrincipal[principal]?).getD 0 ≤
    coordinator.policy.maxRunningPerPrincipal
  queue_le : state.queue.length ≤ coordinator.policy.maxQueued
  tasks_le : state.taskReservations.size ≤ coordinator.policy.maxTasks
  bytes_le : state.reservedResultBytes ≤ coordinator.policy.maxTotalResultBytes
  pages_le : state.reservedResultPages ≤ coordinator.policy.maxTotalResultPages

/-- The empty coordinator is coherent. -/
theorem coherent_default : Coherent coordinator .default where
  handles queryId handle h := by simp [CoordinatorState.default] at h
  running := rfl
  byWorkspace := ⟨fun _ => by simp [CoordinatorState.default], fun _ => by
    simp [CoordinatorState.default]⟩
  byPrincipal := ⟨fun _ => by simp [CoordinatorState.default], fun _ => by
    simp [CoordinatorState.default]⟩
  queue_nodup := List.nodup_nil
  mem_queue queryId := by simp [CoordinatorState.default]
  bytes := rfl
  pages := rfl
  idempotency scope queryId := by simp [CoordinatorState.default]
  tasks queryId := by simp [CoordinatorState.default]
  running_le := Nat.zero_le _
  workspace_le _ := by simp [CoordinatorState.default]
  principal_le _ := by simp [CoordinatorState.default]
  queue_le := Nat.zero_le _
  tasks_le := by simp [CoordinatorState.default]
  bytes_le := Nat.zero_le _
  pages_le := Nat.zero_le _

/-! ## Moves -/

/-- A handle exchanged for a later one of the same query, with every table brought up to date. -/
def CoordinatorState.exchange (state : CoordinatorState) (queryId : QueryId)
    (handle next : QueryHandle) : CoordinatorState :=
  { state with
    handles := state.handles.insert queryId next
    running := state.running + next.runs - handle.runs
    runningByWorkspace :=
      recount state.runningByWorkspace handle.workspace handle.runs next.runs
    runningByPrincipal :=
      recount state.runningByPrincipal handle.principal handle.runs next.runs
    queue := if handle.phase = .queued ∧ next.phase ≠ .queued then
      state.queue.filter (· ≠ queryId) else state.queue
    reservedResultBytes := state.reservedResultBytes + next.heldBytes - handle.heldBytes
    reservedResultPages := state.reservedResultPages + next.heldPages - handle.heldPages
    taskReservations := if next.phase.isTerminal then
      state.taskReservations.erase queryId else state.taskReservations }

def CoordinatorState.drop (state : CoordinatorState) (queryId : QueryId) (handle : QueryHandle) :
    CoordinatorState :=
  { state with
    handles := state.handles.erase queryId
    running := state.running - handle.runs
    runningByWorkspace := recount state.runningByWorkspace handle.workspace handle.runs 0
    runningByPrincipal := recount state.runningByPrincipal handle.principal handle.runs 0
    queue := state.queue.filter (· ≠ queryId)
    reservedResultBytes := state.reservedResultBytes - handle.heldBytes
    reservedResultPages := state.reservedResultPages - handle.heldPages
    taskReservations := state.taskReservations.erase queryId
    idempotency := state.idempotency.erase handle.operation.scope }

/-- The phases a query may move to: it stays, starts, or ends. -/
def PhaseFollows (phase next : QueryExecutionPhase) : Prop :=
  next = phase ∨ (phase = .queued ∧ next = .running) ∨ (¬phase.isTerminal ∧ next.isTerminal)

/-- What a later handle of a query keeps of the earlier one. -/
structure Follows (handle next : QueryHandle) : Prop where
  operation : next.operation = handle.operation
  acceptance : { next.acceptance with phase := handle.phase } = handle.acceptance
  fingerprint : next.fingerprint = handle.fingerprint
  phase : PhaseFollows handle.phase next.phase
  retention : next.resultRetention = .reserved → handle.resultRetention = .reserved

/-- The elementary changes that start no query, with the journal write each makes. -/
inductive Move : CoordinatorState → List JournalWrite → CoordinatorState → Prop
  /-- A new query enters every table. -/
  | enroll {state : CoordinatorState} {operation : NormalizedQueryOperation}
      {fingerprint : Fingerprint} {observedAt : Int} {bytes pages : Nat}
      (valid : operation.tryNew coordinator.codec.canonicalize = .ok operation)
      (free : state.idempotency[operation.scope]? = none)
      (totals : admissionTotals coordinator state operation ⟨fingerprint⟩ = .ok (bytes, pages)) :
      Move state [.create (durableRecord (newHandle coordinator operation fingerprint observedAt))]
        (state.enroll (newHandle coordinator operation fingerprint observedAt) bytes pages)
  /-- A handle is exchanged; its record is written if it has changed. -/
  | exchange {state : CoordinatorState} {queryId : QueryId} {handle next : QueryHandle}
      {writes : List JournalWrite} (found : state.handles[queryId]? = some handle)
      (valid : HandleValid coordinator queryId next) (follows : Follows handle next)
      (bounded : next.eventBytes ≤ coordinator.policy.maxEventBytesPerQuery ∨
        next.eventBytes = handle.eventBytes)
      (waits : handle.phase = .queued → next.phase ≠ .running)
      (written : writes = [.replace (durableRecord next)] ∨
        writes = [] ∧ durableRecord next = durableRecord handle) :
      Move state writes (state.exchange queryId handle next)
  /-- A query without objects is dropped. -/
  | drop {state : CoordinatorState} {queryId : QueryId} {handle : QueryHandle}
      (found : state.handles[queryId]? = some handle)
      (unowned : handle.resultRetention ≠ .cleanupPending ∧ ¬handle.stagesCleanup) :
      Move state [.delete queryId] (state.drop queryId handle)

/-- The elementary changes of a dispatch, both at the head of the queue. -/
inductive DispatchMove : CoordinatorState → List JournalWrite → CoordinatorState → Prop
  /-- A query that its workspace or principal caps is moved to the end of the queue. -/
  | rotate {state : CoordinatorState} {queryId : QueryId} {rest : List QueryId}
      {handle : QueryHandle} (queue : state.queue = queryId :: rest)
      (found : state.handles[queryId]? = some handle)
      (capped : state.Capped coordinator.policy handle.operation) :
      DispatchMove state [] { state with queue := rest ++ [queryId] }
  /-- A query that nothing caps is started. -/
  | start {state : CoordinatorState} {queryId : QueryId} {rest : List QueryId}
      {handle : QueryHandle} (queue : state.queue = queryId :: rest)
      (found : state.handles[queryId]? = some handle) (queued : handle.phase = .queued)
      (free : state.running < coordinator.policy.maxRunning)
      (uncapped : ¬state.Capped coordinator.policy handle.operation) :
      DispatchMove state [.replace (durableRecord (handle.setPhase .running))]
        (state.exchange queryId handle (handle.setPhase .running))

/-- The elementary changes of the coordinator; each makes at most one journal write. -/
inductive Change : CoordinatorState → List JournalWrite → CoordinatorState → Prop
  | move {state after : CoordinatorState} {writes : List JournalWrite}
      (move : Move coordinator state writes after) : Change state writes after
  | dispatch {state after : CoordinatorState} {writes : List JournalWrite}
      (move : DispatchMove coordinator state writes after) : Change state writes after

/-! ## Every move keeps the books -/

variable {coordinator} {state : CoordinatorState} {queryId : QueryId} {handle next : QueryHandle}

namespace Follows

section

variable (h : Follows handle next)
include h

theorem workspace : next.workspace = handle.workspace :=
  congrArg workspaceId h.operation

theorem principal : next.principal = handle.principal :=
  congrArg principalId h.operation

theorem runs_le : (handle.phase = .queued ∧ next.phase = .running) ∨ next.runs ≤ handle.runs := by
  obtain hsm | hst | ⟨-, he⟩ := h.phase
  · exact .inr (by rw [runs, hsm, runs])
  · exact .inl hst
  · refine .inr ?_
    have hrun : next.phase ≠ .running := fun hrun => by simp [hrun,
      QueryExecutionPhase.isTerminal] at he
    rw [runs_of_not_running hrun]
    exact Nat.zero_le _

theorem queued (hq : next.phase = .queued) : handle.phase = .queued := by
  obtain hs | ⟨hq', -⟩ | ⟨-, he⟩ := h.phase
  · exact hs ▸ hq
  · exact hq'
  · simp [hq, isTerminal] at he

theorem terminal (ht : handle.phase.isTerminal) : next.phase.isTerminal := by
  obtain hs | ⟨hq, -⟩ | ⟨hl, -⟩ := h.phase
  · exact hs ▸ ht
  · simp [hq, isTerminal] at ht
  · exact absurd ht hl

theorem heldBytes_le : next.heldBytes ≤ handle.heldBytes := by
  unfold heldBytes
  split
  · rename_i hr
    rw [if_pos (h.retention hr), h.operation]
  · exact Nat.zero_le _

theorem heldPages_le : next.heldPages ≤ handle.heldPages := by
  unfold heldPages
  split
  · rename_i hr
    rw [if_pos (h.retention hr), h.operation]
  · exact Nat.zero_le _

end

end Follows

variable {P : QueryHandle → Prop} {handles : Std.ExtTreeMap QueryId QueryHandle}
  {operation : NormalizedQueryOperation} {writes : List JournalWrite} {after : CoordinatorState}

theorem exists_insert_iff {other : QueryId} :
    (∃ kept, (handles.insert queryId next)[other]? = some kept ∧ P kept) ↔
      if queryId = other then P next else ∃ kept, handles[other]? = some kept ∧ P kept := by
  rw [getElem?_insert_eq]
  split_ifs <;> simp

theorem exists_erase_iff {other : QueryId} :
    (∃ kept, (handles.erase queryId)[other]? = some kept ∧ P kept) ↔
      queryId ≠ other ∧ ∃ kept, handles[other]? = some kept ∧ P kept := by
  rw [getElem?_erase_eq]
  split_ifs with hkey <;> simp [hkey]

theorem exists_found_iff (hfd : state.handles[queryId]? = some handle) :
    (∃ kept, state.handles[queryId]? = some kept ∧ P kept) ↔ P handle := by
  simp [hfd]

theorem total_exchange {f : QueryHandle → Nat} {counter : Nat} (h : counter = total f state.handles)
    (hfd : state.handles[queryId]? = some handle) :
    counter + f next - f handle = total f (state.handles.insert queryId next) := by
  have htot := total_insert (f := f) (v := next) hfd
  omega

theorem total_drop {f : QueryHandle → Nat} {counter : Nat} (h : counter = total f state.handles)
    (hfd : state.handles[queryId]? = some handle) :
    counter - f handle = total f (state.handles.erase queryId) := by
  have htot := total_erase (f := f) hfd
  omega

/-- **Exchanging a handle** for one that follows it keeps the state coherent. -/
theorem Coherent.exchange (hs : Coherent coordinator state)
    (hfd : state.handles[queryId]? = some handle) (hv : HandleValid coordinator queryId next)
    (hfol : Follows handle next) (hstarts : handle.phase = .queued → next.phase = .running →
      state.running < coordinator.policy.maxRunning ∧
        ¬state.Capped coordinator.policy handle.operation) :
    Coherent coordinator (state.exchange queryId handle next) where
  handles other kept hkept := by
    rw [CoordinatorState.exchange, getElem?_insert_eq] at hkept
    split_ifs at hkept with ho
    · cases hkept
      exact ho ▸ hv
    · exact hs.handles other kept hkept
  running := total_exchange hs.running hfd
  byWorkspace := hs.byWorkspace.exchange hfd hfol.workspace
  byPrincipal := hs.byPrincipal.exchange hfd hfol.principal
  queue_nodup := by
    simp only [CoordinatorState.exchange]
    split_ifs
    · exact hs.queue_nodup.filter _
    · exact hs.queue_nodup
  -- the query leaves the queue exactly when it no longer waits
  mem_queue other := by
    simp only [CoordinatorState.exchange]
    rw [exists_insert_iff]
    by_cases ho : queryId = other
    · subst ho
      have hmem := (hs.mem_queue queryId).trans (exists_found_iff hfd)
      rw [if_pos rfl]
      split_ifs with hleaves
      · simp [hleaves.2]
      · rw [hmem]
        refine ⟨fun hq => ?_, hfol.queued⟩
        by_contra hnext
        exact hleaves ⟨hq, hnext⟩
    · rw [if_neg ho, ← hs.mem_queue]
      split_ifs
      · simp [Ne.symm ho]
      · rfl
  bytes := total_exchange hs.bytes hfd
  pages := total_exchange hs.pages hfd
  idempotency scope other := by
    simp only [CoordinatorState.exchange]
    rw [exists_insert_iff, hs.idempotency]
    split_ifs with ho
    · rw [← ho, exists_found_iff hfd, hfol.operation]
    · rfl
  tasks other := by
    simp only [CoordinatorState.exchange]
    rw [exists_insert_iff]
    by_cases ho : queryId = other
    · subst ho
      have hmem := (hs.tasks queryId).trans (exists_found_iff hfd)
      rw [if_pos rfl]
      split_ifs with hends
      · simp [hends]
      · exact hmem.trans ⟨fun _ => hends, fun _ hterm => hends (hfol.terminal hterm)⟩
    · rw [if_neg ho, ← hs.tasks]
      split_ifs
      · simp [ho]
      · rfl
  running_le := by
    have hle := hs.running_le
    show state.running + next.runs - handle.runs ≤ _
    obtain ⟨hq, hrun⟩ | _ := hfol.runs_le
    · have hfree := (hstarts hq hrun).1
      have hone := next.runs_le_one
      omega
    · omega
  workspace_le := recount_le handle.runs_le_one next.runs_le_one hs.workspace_le <|
    hfol.runs_le.imp_left fun ⟨hq, hrun⟩ => not_le.1 fun hcap => (hstarts hq hrun).2 (.inl hcap)
  principal_le := recount_le handle.runs_le_one next.runs_le_one hs.principal_le <|
    hfol.runs_le.imp_left fun ⟨hq, hrun⟩ => not_le.1 fun hcap => (hstarts hq hrun).2 (.inr hcap)
  queue_le := by
    refine le_trans ?_ hs.queue_le
    simp only [CoordinatorState.exchange]
    split_ifs
    · exact List.length_filter_le _ _
    · exact le_rfl
  tasks_le := by
    refine le_trans ?_ hs.tasks_le
    simp only [CoordinatorState.exchange]
    split_ifs
    · exact Std.ExtTreeSet.size_erase_le
    · exact le_rfl
  bytes_le := by
    have hle := hs.bytes_le
    have hheld := hfol.heldBytes_le
    show state.reservedResultBytes + next.heldBytes - handle.heldBytes ≤ _
    omega
  pages_le := by
    have hle := hs.pages_le
    have hheld := hfol.heldPages_le
    show state.reservedResultPages + next.heldPages - handle.heldPages ≤ _
    omega

/-- Dropping a handle keeps the state coherent. -/
theorem Coherent.drop (hs : Coherent coordinator state)
    (hfd : state.handles[queryId]? = some handle) :
    Coherent coordinator (state.drop queryId handle) where
  handles other kept hkept := by
    rw [CoordinatorState.drop, getElem?_erase_eq] at hkept
    split_ifs at hkept
    exact hs.handles other kept hkept
  running := total_drop hs.running hfd
  byWorkspace := hs.byWorkspace.drop hfd
  byPrincipal := hs.byPrincipal.drop hfd
  queue_nodup := hs.queue_nodup.filter _
  mem_queue other := by
    simp only [CoordinatorState.drop]
    rw [exists_erase_iff, ← hs.mem_queue, List.mem_filter, decide_eq_true_eq, and_comm, ne_comm]
  bytes := total_drop hs.bytes hfd
  pages := total_drop hs.pages hfd
  idempotency scope other := by
    have hown : state.idempotency[handle.operation.scope]? = some queryId :=
      (hs.idempotency _ _).2 ⟨handle, hfd, rfl⟩
    simp only [CoordinatorState.drop]
    rw [exists_erase_iff, getElem?_erase_eq, ← hs.idempotency]
    -- The scope of the dropped query belongs to no other query, and it has no other scope.
    split_ifs with hsc
    · subst hsc
      simp [hown]
    · refine ⟨fun ho => ⟨?_, ho⟩, And.right⟩
      rintro rfl
      obtain ⟨kept, hkept, hkeptScope⟩ := (hs.idempotency _ _).1 ho
      obtain rfl : handle = kept := Option.some.inj (hfd.symm.trans hkept)
      exact hsc hkeptScope
  tasks other := by
    simp only [CoordinatorState.drop]
    rw [exists_erase_iff, mem_erase_iff, hs.tasks]
  running_le := (Nat.sub_le _ _).trans hs.running_le
  workspace_le :=
    recount_le handle.runs_le_one (Nat.zero_le 1) hs.workspace_le (.inr (Nat.zero_le _))
  principal_le :=
    recount_le handle.runs_le_one (Nat.zero_le 1) hs.principal_le (.inr (Nat.zero_le _))
  queue_le := (List.length_filter_le _ _).trans hs.queue_le
  tasks_le := Std.ExtTreeSet.size_erase_le.trans hs.tasks_le
  bytes_le := (Nat.sub_le _ _).trans hs.bytes_le
  pages_le := (Nat.sub_le _ _).trans hs.pages_le

theorem admissionTotals_eq_ok {bytes pages : Nat}
    (h : admissionTotals coordinator state operation queryId = .ok (bytes, pages)) :
    state.queue.length < coordinator.policy.maxQueued ∧
      state.taskReservations.size < coordinator.policy.maxTasks ∧
      bytes = state.reservedResultBytes + operation.maximumResultBytes ∧
      pages = state.reservedResultPages + operation.maximumResultPages ∧
      bytes ≤ coordinator.policy.maxTotalResultBytes ∧
      pages ≤ coordinator.policy.maxTotalResultPages ∧ state.handles[queryId]? = none := by
  simp only [admissionTotals, ok_iff, checkedAdd_eq_some, exists_const, Prod.mk.injEq, not_or,
    not_le, not_lt] at h
  obtain ⟨⟨hq, ht⟩, _, ⟨-, rfl⟩, _, ⟨-, rfl⟩, ⟨hb, hpg⟩, hf, rfl, rfl⟩ := h
  exact ⟨hq, ht, rfl, rfl, hb, hpg, hf⟩

theorem handleValid_newHandle {fingerprint : Fingerprint} {observedAt : Int}
    (h : operation.tryNew coordinator.codec.canonicalize = .ok operation) :
    HandleValid coordinator ⟨fingerprint⟩
      (newHandle coordinator operation fingerprint observedAt) where
  queryId_eq := rfl
  fingerprint_eq := rfl
  lease_eq := rfl
  principal_ne_zero := (tryNew_eq_ok h).2.1
  policyGeneration_pos := (tryNew_eq_ok h).2.2.1
  revocationGeneration_pos := (tryNew_eq_ok h).2.2.2.1
  retention := .inl (by simp [newHandle, phase, QueryExecutionPhase.isTerminal])
  sequences := rfl
  payloads event hev := by simp [newHandle] at hev
  bytes := rfl
  events_le := Nat.zero_le _
  events_lt _ := lt_of_lt_of_le (Nat.succ_pos 2) coordinator.policy.three_le_events
  cancellations_le := by simp [newHandle]
  cancellations cancellationId h := by simp [newHandle] at h

/-- Accepting a query keeps the state coherent. -/
theorem Coherent.enroll (hs : Coherent coordinator state) {fingerprint : Fingerprint}
    {observedAt : Int} {bytes pages : Nat}
    (hv : operation.tryNew coordinator.codec.canonicalize = .ok operation)
    (hfree : state.idempotency[operation.scope]? = none)
    (htotals : admissionTotals coordinator state operation ⟨fingerprint⟩ = .ok (bytes, pages)) :
    Coherent coordinator
      (state.enroll (newHandle coordinator operation fingerprint observedAt) bytes pages) := by
  obtain ⟨hqueue, htasks, rfl, rfl, hb, hpg, hfresh⟩ := admissionTotals_eq_ok htotals
  let handle := newHandle coordinator operation fingerprint observedAt
  have hph : handle.phase = .queued := rfl
  have hlive : ¬handle.phase.isTerminal := by simp [hph, QueryExecutionPhase.isTerminal]
  have hwaits : handle.phase ≠ .running := by simp [hph]
  -- the identity is new, so no table holds it yet
  have hfreshQueue : (⟨fingerprint⟩ : QueryId) ∉ state.queue := by simp [hs.mem_queue, hfresh]
  exact {
    handles := fun other kept hkept => by
      rw [CoordinatorState.enroll, getElem?_insert_eq] at hkept
      split_ifs at hkept with ho
      · cases hkept
        exact ho ▸ handleValid_newHandle hv
      · exact hs.handles other kept hkept
    running := by
      have htot := total_insert_new (f := runs) (v := handle) hfresh
      rw [runs_of_not_running hwaits] at htot
      exact hs.running.trans htot.symm
    byWorkspace := hs.byWorkspace.enroll hfresh hwaits
    byPrincipal := hs.byPrincipal.enroll hfresh hwaits
    queue_nodup := by
      refine List.nodup_append.2 ⟨hs.queue_nodup, List.nodup_singleton _, ?_⟩
      rintro _ hq other ho rfl
      rw [List.mem_singleton.1 ho] at hq
      exact hfreshQueue hq
    mem_queue := fun other => by
      simp only [CoordinatorState.enroll]
      rw [exists_insert_iff, List.mem_append, List.mem_singleton, hs.mem_queue]
      split_ifs with ho
      · exact iff_of_true (.inr ho.symm) hph
      · exact or_iff_left fun h => ho h.symm
    bytes := by
      have htot := total_insert_new (f := heldBytes) (v := handle) hfresh
      have hheld : handle.heldBytes = operation.maximumResultBytes := if_pos rfl
      rw [hheld, ← hs.bytes] at htot
      exact htot.symm
    pages := by
      have htot := total_insert_new (f := heldPages) (v := handle) hfresh
      have hheld : handle.heldPages = operation.maximumResultPages := if_pos rfl
      rw [hheld, ← hs.pages] at htot
      exact htot.symm
    idempotency := fun scope other => by
      simp only [CoordinatorState.enroll]
      rw [exists_insert_iff, getElem?_insert_eq]
      by_cases hsc : operation.scope = scope
      · rw [if_pos (show handle.operation.scope = scope from hsc), Option.some.injEq]
        refine ⟨fun ho => by rw [if_pos ho]; exact hsc, fun h => ?_⟩
        by_contra ho
        rw [if_neg ho, ← hs.idempotency, ← hsc, hfree] at h
        exact absurd h nofun
      · rw [if_neg (show handle.operation.scope ≠ scope from hsc), hs.idempotency]
        split_ifs with ho
        · refine iff_of_false ?_ hsc
          rintro ⟨kept, hkept, -⟩
          rw [← ho] at hkept
          exact Option.some_ne_none kept (hkept.symm.trans hfresh)
        · rfl
    tasks := fun other => by
      simp only [CoordinatorState.enroll]
      rw [exists_insert_iff, mem_insert_iff, hs.tasks]
      split_ifs with ho
      · exact iff_of_true (.inl ho) hlive
      · exact or_iff_right ho
    running_le := hs.running_le
    workspace_le := hs.workspace_le
    principal_le := hs.principal_le
    queue_le := by simpa [CoordinatorState.enroll] using hqueue
    tasks_le := Std.ExtTreeSet.size_insert_le.trans htasks
    bytes_le := hb
    pages_le := hpg }

/-- Moving a query to the back keeps the state coherent. -/
theorem Coherent.rotate (hs : Coherent coordinator state) {rest : List QueryId}
    (hq : state.queue = queryId :: rest) :
    Coherent coordinator { state with queue := rest ++ [queryId] } := by
  have hp : (rest ++ [queryId]).Perm state.queue := by
    rw [hq]
    exact List.perm_append_singleton queryId rest
  exact { hs with
    queue_nodup := hp.nodup_iff.2 hs.queue_nodup
    mem_queue := fun other => hp.mem_iff.trans (hs.mem_queue other)
    queue_le := hp.length_eq.trans_le hs.queue_le }

theorem Coherent.reserved_of_live (hs : Coherent coordinator state)
    (hfd : state.handles[queryId]? = some handle) (hl : ¬handle.phase.isTerminal) :
    handle.resultRetention = .reserved := by
  have hv := (hs.handles queryId handle hfd).retention
  cases hret : handle.resultRetention with
  | reserved => rfl
  | cleanupPending => exact absurd (hret ▸ hv).1 hl
  | released =>
    rw [hret] at hv
    exact absurd hv hl

theorem HandleValid.start (h : HandleValid coordinator queryId handle)
    (hl : ¬handle.phase.isTerminal) (hr : handle.resultRetention = .reserved) :
    HandleValid coordinator queryId (handle.setPhase .running) :=
  { h with
    retention := by
      rw [setPhase_resultRetention, hr]
      exact .inl (by simp [QueryExecutionPhase.isTerminal])
    events_lt := fun _ => h.events_lt hl }

theorem follows_start (h : handle.phase = .queued) : Follows handle (handle.setPhase .running) where
  operation := rfl
  acceptance := rfl
  fingerprint := rfl
  phase := .inr (.inl ⟨h, rfl⟩)
  retention := id

/-- **Every move keeps the state coherent.** -/
theorem Move.coherent (move : Move coordinator state writes after)
    (hs : Coherent coordinator state) : Coherent coordinator after := by
  cases move with
  | enroll valid free totals => exact hs.enroll valid free totals
  | exchange found valid follows _ waits _ =>
    exact hs.exchange found valid follows fun hq hrun => absurd hrun (waits hq)
  | drop found _ => exact hs.drop found

/-- A dispatch keeps the state coherent. -/
theorem DispatchMove.coherent (move : DispatchMove coordinator state writes after)
    (hs : Coherent coordinator state) : Coherent coordinator after := by
  cases move with
  | rotate queue _ _ => exact hs.rotate queue
  | start queue found queued free uncapped =>
    rename_i queryId rest handle
    have hl : ¬handle.phase.isTerminal := by simp [queued, isTerminal]
    have hr := hs.reserved_of_live found hl
    exact hs.exchange found ((hs.handles _ _ found).start hl hr)
      (follows_start queued) fun _ _ => ⟨free, uncapped⟩

/-- **Every change keeps the books.** -/
theorem Change.coherent (change : Change coordinator state writes after)
    (hs : Coherent coordinator state) : Coherent coordinator after := by
  cases change with
  | move move => exact move.coherent hs
  | dispatch move => exact move.coherent hs

/-- The journal bytes of every query are within the policy. -/
def EventBytesBounded (coordinator : QueryCoordinator) (state : CoordinatorState) : Prop :=
  ∀ (queryId : QueryId) handle, state.handles[queryId]? = some handle →
    handle.eventBytes ≤ coordinator.policy.maxEventBytesPerQuery

theorem EventBytesBounded.exchange (hs : EventBytesBounded coordinator state)
    (hfd : state.handles[queryId]? = some handle)
    (hbd : next.eventBytes ≤ coordinator.policy.maxEventBytesPerQuery ∨
      next.eventBytes = handle.eventBytes) :
    EventBytesBounded coordinator (state.exchange queryId handle next) := by
  intro other kept hk
  rw [CoordinatorState.exchange, getElem?_insert_eq] at hk
  split_ifs at hk
  · cases hk
    obtain hle | hsm := hbd
    · exact hle
    · exact hsm ▸ hs _ _ hfd
  · exact hs other kept hk

theorem Change.eventBytesBounded (change : Change coordinator state writes after)
    (hs : EventBytesBounded coordinator state) : EventBytesBounded coordinator after := by
  cases change with
  | move move =>
    cases move with
    | enroll valid free =>
      intro other kept hk
      rw [CoordinatorState.enroll, getElem?_insert_eq] at hk
      split_ifs at hk
      · cases hk
        exact Nat.zero_le _
      · exact hs other kept hk
    | exchange found valid _ bounded => exact hs.exchange found bounded
    | drop found =>
      intro other kept hk
      rw [CoordinatorState.drop, getElem?_erase_eq] at hk
      split_ifs at hk
      exact hs other kept hk
  | dispatch move =>
    cases move with
    | rotate queue found => exact hs
    | start queue found _ free => exact hs.exchange found (.inr rfl)

end CodeFabric.Query
