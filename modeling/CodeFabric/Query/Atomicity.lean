import CodeFabric.Query.Discipline

/-! # Failed journal writes

What the coordinator keeps in memory when one of its journal writes fails. Some operations undo what
they did before the write, others return early and keep it.

**`Unchanged`** compares what a retry depends on: the phase, the events and the retention of every
query, and the running and reserved counters. -/

namespace CodeFabric.Query

open List Option

open CodeFabric.Command Fallible TreeMaps Procedures Interleaving Runs QueryControlEventPayload

variable {coordinator : QueryCoordinator} {state after middle : CoordinatorState}
  {queryId : QueryId} {handle next : QueryHandle} (policy : QueryCoordinatorPolicy) {α β : Type}
  {G : CoordinatorState → Prop} {result : Except CoordinatorError α}
  {value : Except CoordinatorError α} {entry : JournalWrite} {procedure : CoordinatorM α}
  {restores : Calls → Prop} {calls : Calls} {event : QueryControlEvent} {observedAt : Int}
  {ending : QueryTerminalState} {publicCode : Option String} {payload : QueryControlEventPayload}
  {events : List QueryControlEvent} {precondition : Option PendingResultObjectSet} {other : QueryId}
  (operation : CoordinatorOperation)

/-! ## What a retry depends on -/

def CoordinatorState.summary (state : CoordinatorState) (queryId : QueryId) :
    Option (QueryExecutionPhase × List QueryControlEvent × ResultRetentionState) :=
  state.handles[queryId]?.map fun handle => (handle.phase, handle.events, handle.resultRetention)

open CoordinatorState

/-- Every query and every counter is as it was. -/
structure Unchanged (before after : CoordinatorState) : Prop where
  queries : ∀ queryId, after.summary queryId = before.summary queryId
  running : after.running = before.running
  byWorkspace : after.runningByWorkspace = before.runningByWorkspace
  byPrincipal : after.runningByPrincipal = before.runningByPrincipal
  bytes : after.reservedResultBytes = before.reservedResultBytes
  pages : after.reservedResultPages = before.reservedResultPages

theorem Unchanged.refl (state : CoordinatorState) : Unchanged state state :=
  ⟨fun _ => rfl, rfl, rfl, rfl, rfl, rfl⟩

/-- The event a query was last given is the same progress, reported at the same time. -/
def RepeatsProgress (state : CoordinatorState) (queryId : QueryId)
    (payload : QueryControlEventPayload) (observedAt : Int) : Prop :=
  payload.isProgress ∧ ∃ handle, state.handles[queryId]? = some handle ∧
    ∃ event, handle.events.getLast? = some event ∧ event.payload = payload ∧
      event.emittedAtUnixMs = observedAt

/-- The operations that leave everything as it was when a journal write fails: those that undo
their own write, if that is the write that failed, and a repeated progress report. -/
def RollsBack (state : CoordinatorState) (operation : CoordinatorOperation) (calls : Calls) :
    Prop :=
  match operation with
  | .accept _ _ | .cancelIdempotent _ _ _ | .releaseResult _ | .markResultCleanupComplete _ =>
    (journalEntries calls).length = 1
  | .appendEvent queryId payload observedAt => RepeatsProgress state queryId payload observedAt
  | .reconcilePublication .. | .terminal .. | .signal _ | .cancel .. | .collectExpired _ => False

/-! ## Dispatch keeps what has ended -/

/-- What a dispatch leaves alone, whether or not it fails. -/
structure Dispatched (state after : CoordinatorState) : Prop where
  running_le : state.running ≤ after.running
  retention : ∀ queryId : QueryId, after.handles[queryId]?.map QueryHandle.resultRetention =
    state.handles[queryId]?.map QueryHandle.resultRetention
  ended : ∀ (queryId : QueryId) handle, state.handles[queryId]? = some handle →
    handle.phase.isTerminal → after.handles[queryId]? = some handle

theorem Dispatched.refl (state : CoordinatorState) : Dispatched state state :=
  ⟨le_rfl, fun _ => rfl, fun _ _ hfd _ => hfd⟩

theorem Dispatched.trans (first : Dispatched state middle) (second : Dispatched middle after) :
    Dispatched state after where
  running_le := first.running_le.trans second.running_le
  retention queryId := (second.retention queryId).trans (first.retention queryId)
  ended queryId handle hfd he := second.ended queryId handle (first.ended queryId handle hfd he) he

theorem Dispatched.keeps (h : Dispatched state after) (hfd : state.handles[queryId]?.isSome) :
    after.handles[queryId]?.isSome := by
  have hs := congrArg isSome (h.retention queryId)
  rw [isSome_map, isSome_map] at hs
  exact hs.trans hfd

theorem dispatched_queue (queue : List QueryId) : Dispatched state { state with queue } :=
  ⟨le_rfl, fun _ => rfl, fun _ _ hfd _ => hfd⟩

theorem dispatched_start (hfd : state.handles[queryId]? = some handle)
    (hl : ¬handle.phase.isTerminal) (queue : List QueryId) :
    Dispatched state (({ state with queue }.countRunning handle.operation).setHandle queryId
      (handle.setPhase .running)) where
  running_le := Nat.le_succ _
  retention other := by
    show (state.handles.insert queryId _)[other]?.map _ = _
    rw [getElem?_insert_eq]
    split_ifs with ho
    · rw [← ho, hfd]
      rfl
    · rfl
  ended other kept hk he := by
    show (state.handles.insert queryId _)[other]? = _
    rw [getElem?_insert_eq, if_neg]
    · exact hk
    · rintro rfl
      cases hfd.symm.trans hk
      exact hl he

/-- A scan with a failed write has started a query and reports the error. -/
theorem wp_dispatchScan_failed (attempts : Nat) :
    wp (dispatchScan policy attempts) state fun calls result after => Dispatched state after ∧
      (¬Written calls → state.running < after.running ∧ ∃ error, result = .error error) := by
  induction attempts generalizing state with
  | zero => exact ⟨.refl _, fun h => absurd .nil h⟩
  | succ attempts ih =>
    rw [dispatchScan, wp_read_bind]
    split_ifs
    · cases state.queue with
      | nil => exact ⟨.refl _, fun h => absurd .nil h⟩
      | cons _ rest =>
        rw [wp_update_bind, wp_check_bind]
        refine ⟨fun error _ => ⟨dispatched_queue _, fun h => absurd .nil h⟩,
          fun _ hh => ?_⟩
        rw [okOr_eq_ok] at hh
        split_ifs with hen
        · exact wp_mono ih fun calls result after h => ⟨(dispatched_queue rest).trans h.1, h.2⟩
        · rw [wp_update_bind]
          exact wp_mono ih fun calls result after h => ⟨(dispatched_queue _).trans h.1, h.2⟩
        · simp only [wp_update_bind, wp_write_bind]
          have hsta := dispatched_start hh hen rest
          refine ⟨fun _ => ⟨hsta, fun _ => ⟨Nat.lt_succ_self _, _, rfl⟩⟩, ?_⟩
          refine wp_mono ih fun calls result after h => ⟨hsta.trans h.1, fun hwr => ?_⟩
          obtain ⟨hrun, herr⟩ := h.2 (by simpa using hwr)
          exact ⟨Nat.lt_of_succ_lt hrun, herr⟩
    · exact ⟨.refl _, fun h => absurd .nil h⟩

theorem wp_dispatchLocked_failed :
    wp (dispatchLocked policy) state fun calls result after => Dispatched state after ∧
      (¬Written calls → state.running < after.running ∧ ∃ error, result = .error error) := by
  rw [dispatchLocked, wp_read_bind]
  exact wp_dispatchScan_failed policy _

/-! ## Changes that stay -/

theorem not_unchanged_of_new (hbef : state.handles[queryId]? = none)
    (haf : after.handles[queryId]?.isSome) : ¬Unchanged state after := by
  intro h
  have hsum := h.queries queryId
  obtain ⟨_, hk⟩ := Option.isSome_iff_exists.1 haf
  rw [summary, summary, hbef, hk] at hsum
  exact absurd hsum nofun

theorem not_unchanged_of_ended (hbef : state.handles[queryId]? = some handle)
    (hl : ¬handle.phase.isTerminal) (haf : after.handles[queryId]? = some next)
    (he : next.phase.isTerminal) : ¬Unchanged state after := by
  intro h
  have hsum := h.queries queryId
  rw [summary, summary, hbef, haf] at hsum
  have hph : next.phase = handle.phase := congrArg Prod.fst (Option.some.inj hsum)
  exact hl (hph ▸ he)

/-- A query is gone, or waits for its objects to be deleted. -/
def Gone (queryId : QueryId) (state : CoordinatorState) : Prop :=
  ∀ handle, state.handles[queryId]? = some handle → handle.resultRetention = .cleanupPending

theorem not_unchanged_of_gone (hbef : state.handles[queryId]? = some handle)
    (hk : handle.resultRetention ≠ .cleanupPending) (haf : Gone queryId after) :
    ¬Unchanged state after := by
  intro h
  have hsum := h.queries queryId
  rw [summary, summary, hbef] at hsum
  obtain ⟨kept, hfd, hsm⟩ := Option.map_eq_some_iff.1 hsum
  have hret : kept.resultRetention = handle.resultRetention :=
    congrArg (fun summary => summary.2.2) hsm
  exact hk (hret ▸ haf kept hfd)

/-- A dispatch brings no query back. -/
theorem Gone.dispatched (h : Gone queryId state) (hd : Dispatched state after) :
    Gone queryId after := by
  intro _ hk
  have hret := hd.retention queryId
  rw [hk, map_some, eq_comm, map_eq_some_iff] at hret
  obtain ⟨before, hbef, hs⟩ := hret
  exact hs ▸ h before hbef

/-! ## Operations whose changes stay -/

/-- Outcomes that keep a change: success comes after successful writes only, and both success and a
failed write leave the change behind. -/
def Leaves (G : CoordinatorState → Prop) {α : Type} (calls : Calls)
    (result : Except CoordinatorError α) (after : CoordinatorState) : Prop :=
  (∀ value, result = .ok value → Written calls ∧ G after) ∧ (¬Written calls → G after)

theorem Leaves.error {error : CoordinatorError} :
    Leaves G [] (.error error : Except CoordinatorError α) after :=
  ⟨nofun, fun h => absurd .nil h⟩

theorem Leaves.ok {value : α} (h : G after) : Leaves G [] (.ok value) after :=
  ⟨fun _ _ => ⟨Written.nil, h⟩, fun _ => h⟩

protected theorem Leaves.append (calls : Calls) {calls' : Calls} (hcl : Written calls)
    (h : Leaves G calls' result after) : Leaves G (calls ++ calls') result after :=
  ⟨fun value hval => ⟨Written.append.2 ⟨hcl, (h.1 value hval).1⟩, (h.1 value hval).2⟩,
    fun hf => h.2 fun hc' => hf (Written.append.2 ⟨hcl, hc'⟩)⟩

protected theorem Leaves.bind {first : CoordinatorM α} {next : α → CoordinatorM β}
    (hfst : wp first state (Leaves G)) (hn : ∀ value t, G t → wp (next value) t (Leaves G)) :
    wp (first >>= next) state (Leaves G) := by
  rw [wp_bind]
  refine wp_mono hfst fun _ result t h => ?_
  cases result with
  | error error => exact ⟨nofun, h.2⟩
  | ok value =>
    obtain ⟨hwr, hchg⟩ := h.1 value rfl
    exact wp_mono (hn value t hchg) fun _ _ _ => .append _ hwr

protected theorem Leaves.check {next : α → CoordinatorM β}
    (hn : ∀ result, value = .ok result → wp (next result) state (Leaves G)) :
    wp (check value >>= next) state (Leaves G) := by
  rw [wp_check_bind]
  exact ⟨fun _ _ => .error, hn⟩

protected theorem Leaves.write {next : Unit → CoordinatorM α} (h : G state)
    (hn : wp (next ()) state (Leaves G)) : wp (write entry >>= next) state (Leaves G) := by
  rw [wp_write_bind]
  refine ⟨fun _ => ⟨nofun, fun _ => h⟩, wp_mono hn fun _ _ t hr => ?_⟩
  exact .append [⟨.journal entry, .ok ()⟩] (by simp) hr

theorem Leaves.write_last (h : G state) : wp (write entry) state (Leaves G) := by
  rw [write, wp_journal_bind]
  rintro (_ | ⟨⟩)
  · exact wp_check.2 ⟨by simp, fun _ => h⟩
  · exact wp_check.2 ⟨fun _ _ => ⟨Written.journal.2 ⟨rfl, .nil⟩, h⟩, fun _ => h⟩

theorem Leaves.dispatch (hchg : ∀ t, Dispatched state t → G t) :
    wp (dispatchLocked policy) state (Leaves G) := by
  refine wp_mono (wp_dispatchLocked_failed policy) fun _ _ t h => ?_
  refine ⟨fun _ hval => ⟨?_, hchg t h.1⟩, fun _ => hchg t h.1⟩
  by_contra hf
  obtain ⟨-, _, he⟩ := h.2 hf
  exact absurd (hval.symm.trans he) nofun

/-- A procedure that calls nothing and leaves the queries alone. -/
def CountsOnly (procedure : CoordinatorM α) : Prop :=
  ∀ state, wp procedure state fun calls _ after => calls = [] ∧ after.handles = state.handles

theorem Tally.only (h : Tally procedure) : CountsOnly procedure :=
  fun state => wp_mono (h state) fun _ _ _ h => ⟨h.1, h.2.1⟩

theorem Leaves.counts (hcts : CountsOnly procedure)
    (hchg : ∀ t : CoordinatorState, t.handles = state.handles → G t) :
    wp procedure state (Leaves G) := by
  refine wp_mono (hcts state) ?_
  rintro _ _ t ⟨rfl, hhs⟩
  exact ⟨fun _ _ => ⟨Written.nil, hchg t hhs⟩, fun h => absurd .nil h⟩

/-! ## Failed operations -/

/-- What an operation with a failed write returns and leaves: an error, everything as it was exactly
under a condition on its calls, and then the whole state. -/
def FailsLike (state : CoordinatorState) (restores : Calls → Prop) (calls : Calls)
    (result : Except CoordinatorError α) (after : CoordinatorState) : Prop :=
  ¬Written calls → (∃ error, result = .error error) ∧
    (Unchanged state after ↔ restores calls) ∧ (restores calls → after = state)

theorem FailsLike.written (h : Written calls) : FailsLike state restores calls result after :=
  fun hf => absurd h hf

theorem FailsLike.restored {error : CoordinatorError} (h : restores calls) :
    FailsLike state restores calls (.error error : Except CoordinatorError α) state :=
  fun _ => ⟨⟨error, rfl⟩, iff_of_true (.refl state) h, fun _ => rfl⟩

protected theorem FailsLike.check {next : α → CoordinatorM β}
    (hn : ∀ result, value = .ok result → wp (next result) state (FailsLike state restores)) :
    wp (check value >>= next) state (FailsLike state restores) := by
  rw [wp_check_bind]
  exact ⟨fun _ _ => .written .nil, hn⟩

theorem FailsLike.return {reply : α → β} (h : wp procedure state (FailsLike state restores)) :
    wp (procedure >>= fun value => pure (reply value)) state (FailsLike state restores) := by
  rw [wp_bind]
  refine wp_mono h fun _ result _ hfails => ?_
  cases result with
  | error error => exact fun hfl => ⟨⟨error, rfl⟩, (hfails hfl).2⟩
  | ok value =>
    rw [afterwards_ok, wp_pure, append_nil]
    intro hfl
    obtain ⟨⟨error, he⟩, -⟩ := hfails hfl
    exact absurd he nofun

theorem Leaves.failsLike (h : Leaves G calls result after)
    (hchg : ∀ t, G t → ¬Unchanged state t) (hnot : ¬Written calls → ¬restores calls) :
    FailsLike state restores calls result after := by
  intro hf
  refine ⟨?_, iff_of_false (hchg after (h.2 hf)) (hnot hf),
    fun hrst => absurd hrst (hnot hf)⟩
  cases result with
  | error error => exact ⟨error, rfl⟩
  | ok value => exact absurd (h.1 value rfl).1 hf

theorem journalEntries_pos (h : ¬Written calls) : 0 < (journalEntries calls).length := by
  by_contra hnn
  have hnil : journalEntries calls = [] := List.length_eq_zero_iff.1 (by omega)
  exact h fun _ he => absurd he (by simp [hnil])

theorem Leaves.failsLike_after {calls' : Calls} (h : Leaves G calls' result after) (calls : Calls)
    (hchg : ∀ t, G t → ¬Unchanged state t) (hcl : Written calls)
    (hfst : (journalEntries calls).length = 1) :
    FailsLike state (fun calls => (journalEntries calls).length = 1) (calls ++ calls') result
      after := by
  refine (Leaves.append calls hcl h).failsLike hchg fun hfl ho => ?_
  have hl : ¬Written calls' := fun hwr => hfl (Written.append.2 ⟨hcl, hwr⟩)
  have hpos := journalEntries_pos hl
  rw [journalEntries, filterMap_append, length_append] at ho
  change (journalEntries calls).length + (journalEntries calls').length = 1 at ho
  omega

/-! ### Closing -/

theorem closedHandle_shape {closed : QueryHandle}
    (h : closedHandle coordinator handle ending publicCode observedAt = .ok (closed, event)) :
    closed = { handle.setPhase (.terminal ending) with
      events := handle.events ++ [event], eventBytes := closed.eventBytes } := by
  simp only [closedHandle, ok_iff, Prod.mk.injEq] at h
  obtain ⟨_, -, _, -, _, -, rfl, rfl⟩ := h
  rfl

theorem terminalHandle_ends {actualResult : Option (Nat × Nat)}
    (h : terminalHandle coordinator handle ending publicCode actualResult observedAt =
      .ok (next, event)) : ¬handle.phase.isTerminal ∧ next.phase.isTerminal := by
  simp only [terminalHandle, ok_iff, exists_const, Prod.exists, Prod.mk.injEq] at h
  obtain ⟨hl, _, -, _, _, hcl, rfl, rfl⟩ := h
  refine ⟨hl, ?_⟩
  unfold settleRetention
  split <;> rw [closedHandle_shape hcl] <;> rfl

/-- The handle of a query, as a change. -/
def Holds (queryId : QueryId) (handle : QueryHandle) (state : CoordinatorState) : Prop :=
  state.handles[queryId]? = some handle

theorem holds_setHandle : Holds queryId handle (state.setHandle queryId handle) := by
  simp [Holds, setHandle]

theorem Leaves.closed {counts : CoordinatorM Unit} {value : α} (hcts : Tally counts)
    (policy : QueryCoordinatorPolicy) (hfd : Holds queryId next state)
    (he : next.phase.isTerminal) :
    wp (do counts; dispatchLocked policy; return value) state (Leaves (Holds queryId next)) := by
  refine Leaves.bind (Leaves.counts hcts.only fun t ht => ?_) fun _ t ht => ?_
  · rw [Holds, ht]
    exact hfd
  · refine Leaves.bind (Leaves.dispatch policy fun u hu => ?_) fun _ _ hu =>
      .ok hu
    exact hu.ended queryId next ht he

protected theorem Leaves.terminal {G : CoordinatorState → Prop} (ending : QueryTerminalState)
    (publicCode : Option String) (actualResult : Option (Nat × Nat)) (observedAt : Int)
    (hchg : ∀ handle next, state.handles[queryId]? = some handle → ¬handle.phase.isTerminal →
      next.phase.isTerminal → ∀ t, Holds queryId next t → G t) :
    wp (terminal coordinator queryId ending publicCode actualResult observedAt) state
      (Leaves G) := by
  rw [terminal, wp_read_bind]
  refine Leaves.check fun handle hh => Leaves.check ?_
  rintro ⟨next, _⟩ hn
  rw [okOr_eq_ok] at hh
  obtain ⟨hl, he⟩ := terminalHandle_ends hn
  have hk := hchg handle next hh hl he
  dsimp only
  rw [wp_update_bind]
  refine Leaves.write (hk _ holds_setHandle) (wp_mono
    (Leaves.closed (.releaseClosed _ _ _) _ holds_setHandle he) fun _ _ t h => ?_)
  exact ⟨fun value hval => ⟨(h.1 value hval).1, hk t (h.1 value hval).2⟩,
    fun hf => hk t (h.2 hf)⟩

/-- Ending a query is not rolled back. -/
theorem fails_terminal (ending : QueryTerminalState) (publicCode : Option String)
    (actualResult : Option (Nat × Nat)) (observedAt : Int) :
    wp (terminal coordinator queryId ending publicCode actualResult observedAt) state
      (FailsLike state fun _ => False) := by
  refine wp_mono (Leaves.terminal (G := fun t => ¬Unchanged state t) _ _ _ _ ?_)
    fun _ _ _ h => h.failsLike (fun _ => id) fun _ => id
  exact fun _ _ hfd hl he t ht => not_unchanged_of_ended hfd hl ht he

theorem wp_signal_flags :
    wp (signal queryId) state fun calls result t => calls = [] ∧ ∀ queued, result = .ok queued →
      ∃ handle, state.handles[queryId]? = some handle ∧
        t = state.setHandle queryId { handle with cancelled := true } := by
  rw [signal, wp_read_bind, wp_check_bind]
  refine ⟨fun _ _ => ⟨rfl, by simp⟩, fun handle hh => ?_⟩
  rw [wp_update_bind, wp_pure]
  exact ⟨rfl, fun _ _ => ⟨handle, okOr_eq_ok.1 hh, rfl⟩⟩

theorem fails_signal : wp (signal queryId) state (FailsLike state fun _ => False) := by
  refine wp_mono wp_signal_flags fun _ _ t h => .written ?_
  rw [h.1]
  exact .nil

theorem fails_cancel (observedAt : Int) :
    wp (cancel coordinator queryId observedAt) state (FailsLike state fun _ => False) := by
  rw [cancel, wp_bind]
  refine wp_mono wp_signal_flags fun _ result t ⟨hc, hsig⟩ => ?_
  subst hc
  cases result with
  | error error => exact afterwards_error.2 (.written .nil)
  | ok queued =>
    obtain ⟨handle, hfd, rfl⟩ := hsig queued rfl
    rw [afterwards_ok]
    split_ifs
    · refine wp_mono (Leaves.bind (G := fun t => ¬Unchanged state t)
        (Leaves.terminal _ _ _ _ ?_) fun _ _ h => wp_pure.2 (Leaves.ok h)) fun _ _ _ h =>
          h.failsLike (fun _ => id) fun _ => id
      intro signalled _ hsig hl he t ht
      obtain rfl : { handle with cancelled := true } = signalled := by
        simpa [setHandle] using hsig
      exact not_unchanged_of_ended hfd hl ht he
    · exact wp_pure.2 (.written .nil)

/-! ### Operations that undo their own write -/

theorem setHandle_restored (hfd : state.handles[queryId]? = some handle) :
    (state.setHandle queryId next).setHandle queryId handle = state := by
  simp only [setHandle, insert_insert, insert_eq_self hfd]

theorem FailsLike.undone {failure : JournalError} {restored : QueryHandle}
    (hfd : state.handles[queryId]? = some handle) (h : restored = handle) :
    wp (do update fun t => t.setHandle queryId restored; throw failure.report : CoordinatorM α)
      (state.setHandle queryId next) fun calls =>
        FailsLike state (fun calls => (journalEntries calls).length = 1)
          (⟨.journal entry, .error failure⟩ :: calls) := by
  rw [wp_update_bind, wp_throw, h, setHandle_restored hfd]
  exact .restored rfl

/-- A failed `accept` leaves nothing behind, unless the query was written and its dispatch failed.
-/
theorem fails_accept (operation : NormalizedQueryOperation) (observedAt : Int) :
    wp (accept coordinator operation observedAt) state
      (FailsLike state fun calls => (journalEntries calls).length = 1) := by
  refine FailsLike.check fun operation _ => FailsLike.check fun _ _ => ?_
  rw [wp_read_bind]
  cases state.idempotency[operation.scope]? with
  | some queryId =>
    refine FailsLike.check fun handle _ => FailsLike.check fun _ _ => ?_
    exact wp_pure.2 (FailsLike.written .nil)
  | none =>
    refine FailsLike.check fun _ htt => ?_
    simp only [admissionTotals, ok_iff, exists_const] at htt
    obtain ⟨-, _, -, _, -, -, hnew, -⟩ := htt
    rw [wp_childScope_bind]
    refine ⟨fun _ => .written (Written.childScope.2 .nil), ?_⟩
    rw [wp_check_bind]
    refine ⟨fun error _ => .written (Written.childScope.2 .nil),
      fun _ _ => ?_⟩
    rw [wp_reserve_bind]
    refine ⟨fun error => .written (Written.childScope.2 (Written.reserve.2 .nil)), ?_⟩
    rw [wp_write_bind]
    refine ⟨fun _ => .restored rfl, ?_⟩
    rw [wp_update_bind]
    let queryId : QueryId := ⟨operation.fingerprint coordinator.codec.blake3⟩
    let enrolled (t : CoordinatorState) : Prop := t.handles[queryId]?.isSome
    refine wp_mono (Leaves.bind (G := enrolled)
      (Leaves.dispatch _ fun t ht => ht.keeps ?_) fun _ t ht => ?_) fun calls _ t h =>
        h.failsLike_after [⟨.childScope _, Except.ok ()⟩, ⟨.reserve _, Except.ok ()⟩,
          ⟨.journal _, .ok ()⟩] (fun t ht => not_unchanged_of_new hnew ht)
          (Written.childScope.2 (Written.reserve.2 (Written.journal.2 ⟨rfl, .nil⟩))) rfl
    · simp [enroll, newHandle, queryId]
    · rw [wp_read_bind]
      exact Leaves.check fun handle _ => wp_pure.2 (Leaves.ok ht)

theorem restored_eq {cancellationId : String} {closed : QueryHandle}
    (hq : handle.phase = .queued) (hk : cancellationId ∉ handle.cancellationIds)
    (hcl : closedHandle coordinator handle ending publicCode observedAt = .ok (closed, event)) :
    ({ (closed.remember cancellationId).setPhase .queued with
      events := closed.events.dropLast
      eventBytes := handle.eventBytes
      resultRetention := handle.resultRetention
      cancellationIds := (closed.cancellationIds.insert cancellationId).erase cancellationId } :
        QueryHandle) = handle := by
  rw [closedHandle_shape hcl]
  obtain ⟨_, _, _, _, cancellationIds, events, eventBytes, _⟩ := handle
  simp only [QueryHandle.remember, QueryHandle.setPhase, dropLast_concat]
  congr 1
  · rw [← hq]
    rfl
  · exact erase_insert hk

theorem fails_cancelIdempotent (cancellationId : String) (observedAt : Int) :
    wp (cancelIdempotent coordinator queryId cancellationId observedAt) state
      (FailsLike state fun calls => (journalEntries calls).length = 1) := by
  refine FailsLike.check fun _ _ => ?_
  rw [wp_read_bind]
  refine FailsLike.check fun handle hh => ?_
  rw [okOr_eq_ok] at hh
  by_cases hk : cancellationId ∈ handle.cancellationIds
  · rw [if_pos hk]
    exact wp_pure.2 (.written .nil)
  · rw [if_neg hk]
    refine FailsLike.check fun _ _ => ?_
    split_ifs with hq
    · refine FailsLike.check fun ⟨closed, _⟩ hcl => ?_
      have hl : ¬handle.phase.isTerminal := by simp [hq, QueryExecutionPhase.isTerminal]
      have he : closed.phase.isTerminal := by
        rw [closedHandle_shape hcl]
        rfl
      rw [wp_update_bind, wp_journal_bind]
      rintro (failure | ⟨⟩)
      · exact .undone hh (restored_eq hq hk hcl)
      · show wp (update _ >>= _) _ _
        rw [wp_update_bind]
        refine wp_mono (Leaves.closed (.releaseQueued _ _) _ holds_setHandle he)
          fun calls _ t h => h.failsLike_after [⟨.journal _, .ok ()⟩]
            (fun t ht => not_unchanged_of_ended hh hl ht he) (by simp) rfl
    · rw [rememberCancellation, wp_update_bind, wp_journal_bind]
      rintro (failure | ⟨⟩)
      · refine .undone hh ?_
        simp only [QueryHandle.remember, erase_insert hk]
      · show wp (update _ >>= _) _ _
        rw [wp_update_bind]
        exact wp_pure.2 (.written (Written.journal.2 ⟨rfl, .nil⟩))

theorem fails_releaseResult : wp (releaseResult queryId) state
    (FailsLike state fun calls => (journalEntries calls).length = 1) := by
  rw [releaseResult, wp_read_bind]
  refine FailsLike.check fun handle hh => FailsLike.check fun _ _ => ?_
  rw [okOr_eq_ok] at hh
  by_cases hr : handle.resultRetention = .reserved
  · rw [if_neg (not_not.2 hr), wp_update_bind, wp_journal_bind]
    rintro (_ | ⟨⟩)
    · refine .undone hh ?_
      simp only [← hr]
    · refine wp_mono (Tally.releaseHeld handle true _) fun calls _ t h => ?_
      rw [h.1]
      exact .written (by simp)
  · rw [if_pos hr]
    exact wp_pure.2 (.written .nil)

theorem fails_markResultCleanupComplete : wp (markResultCleanupComplete queryId) state
    (FailsLike state fun calls => (journalEntries calls).length = 1) := by
  rw [markResultCleanupComplete, wp_read_bind]
  refine FailsLike.check fun handle hh => ?_
  rw [okOr_eq_ok] at hh
  cases hret : handle.resultRetention with
  | released => exact wp_pure.2 (.written .nil)
  | reserved => exact wp_throw.2 (.written .nil)
  | cleanupPending =>
    simp only [wp_update_bind, wp_journal_bind]
    rintro (_ | ⟨⟩)
    · refine .undone hh ?_
      simp only [← hret]
    · exact wp_pure.2 (.written (Written.journal.2 ⟨rfl, .nil⟩))

/-! ### Appending -/

theorem appendedHandle_shape
    (h : appendedHandle coordinator handle payload observedAt = .ok (next, event)) :
    event.payload = payload ∧ event.emittedAtUnixMs = observedAt ∧
      appendSequence handle.events payload = .ok event.sequence ∧ next = { handle with
        events := placeEvent handle.events event, eventBytes := next.eventBytes } ∧
      next.eventBytes + replacedBytes coordinator.codec handle.events payload =
        handle.eventBytes + coordinator.codec.eventLength event := by
  simp only [appendedHandle, ok_iff, checkedSub_eq_some, checkedAdd_eq_some, exists_const,
    Prod.mk.injEq] at h
  obtain ⟨_, hseq, kept, _, _, ⟨-, rfl⟩, -, rfl, rfl⟩ := h
  refine ⟨rfl, rfl, hseq, rfl, ?_⟩
  show kept + coordinator.codec.eventLength _ + _ = _
  omega

theorem lastCheckpoint_concat (front : List QueryControlEvent) (last : QueryControlEvent) :
    lastCheckpoint (front ++ [last]) =
      if last.payload.isPublicationPending then some front.length else lastCheckpoint front := by
  unfold lastCheckpoint
  rw [reverse_append, reverse_singleton, singleton_append, findIdx?_cons]
  split
  · simp
  · rw [Option.map_map]
    congr 1
    funext position
    rw [Function.comp_apply, length_append, length_singleton]
    omega

theorem intentOf_eq_none {payload : QueryControlEventPayload} (h : ¬payload.isPublicationPending) :
    intentOf payload = none := by
  cases payload <;> simp_all [intentOf, isPublicationPending]

theorem publicationIntent_of_lastCheckpoint {index : Nat}
    (h : lastCheckpoint events = some index) : ∃ event objectSet, events[index]? = some event ∧
      event.payload = .publicationPending objectSet ∧
      publicationIntent events = some objectSet := by
  induction events using List.reverseRecOn generalizing index with
  | nil => simp [lastCheckpoint] at h
  | append_singleton _ last ih =>
    rw [publicationIntent, lastEvent_concat]
    rw [lastCheckpoint_concat] at h
    split_ifs at h with hls
    · cases h
      cases hpay : last.payload with
      | publicationPending objectSet => exact ⟨last, objectSet, by simp, hpay, rfl⟩
      | _ => simp [hpay, isPublicationPending] at hls
    · obtain ⟨event, objectSet, hev, hpay, hin⟩ := ih h
      refine ⟨event, objectSet, ?_, hpay, ?_⟩
      · rwa [List.getElem?_append_left (List.getElem?_eq_some_iff.1 hev).1]
      · rw [intentOf_eq_none hls, none_or]
        exact hin

theorem placeEvent_eq_self : placeEvent events event = events ↔
    ∃ index, replacement events event.payload = some index ∧ events[index]? = some event := by
  unfold placeEvent
  cases hr : replacement events event.payload with
  | none => simp
  | some index =>
    have hlt := replacement_lt hr
    simp only [Option.some.injEq, exists_eq_left']
    constructor
    · intro hs
      rw [← hs]
      exact List.getElem?_set_self hlt
    · intro hev
      obtain ⟨-, rfl⟩ := List.getElem?_eq_some_iff.1 hev
      exact List.set_getElem_self hlt

theorem unchanged_setHandle_iff (hfd : state.handles[queryId]? = some handle)
    (hph : next.phase = handle.phase) (hret : next.resultRetention = handle.resultRetention) :
    Unchanged state (state.setHandle queryId next) ↔ next.events = handle.events := by
  constructor
  · intro h
    have hsum := h.queries queryId
    rw [summary, summary, hfd] at hsum
    simp only [setHandle, Std.ExtTreeMap.getElem?_insert_self, map_some,
      Option.some.injEq, Prod.mk.injEq] at hsum
    exact hsum.2.1
  · intro hevs
    refine ⟨fun _ => ?_, rfl, rfl, rfl, rfl, rfl⟩
    unfold summary setHandle
    rw [getElem?_insert_eq]
    split_ifs with ho
    · rw [← ho, hfd, map_some, map_some, hph, hevs, hret]
    · rfl

theorem checkPayload_publication_ne {objectSet : PendingResultObjectSet}
    (h : checkPayload handle (.publicationPending objectSet) precondition = .ok ()) :
    publicationIntent handle.events ≠ some objectSet := by
  intro hi
  simp only [checkPayload, checkPublication, ok_iff, exists_const, hi] at h
  obtain ⟨-, -, -, -, -, hfol⟩ := h
  cases precondition with
  | none => exact lt_irrefl _ hfol.1
  | some => exact lt_irrefl _ hfol.2.1

/-- When an appended event is the one it replaces. -/
theorem placeEvent_eq_self_iff (hchk : checkPayload handle payload precondition = .ok ())
    (h : appendedHandle coordinator handle payload observedAt = .ok (next, event)) :
    placeEvent handle.events event = handle.events ↔ payload.isProgress ∧
      ∃ last, handle.events.getLast? = some last ∧ last.payload = payload ∧
        last.emittedAtUnixMs = observedAt := by
  obtain ⟨hpay, ht, hseq, -⟩ := appendedHandle_shape h
  rw [placeEvent_eq_self, hpay]
  constructor
  · rintro ⟨_, hr, hev⟩
    unfold replacement at hr
    split_ifs at hr with hpn hpr
    · obtain ⟨_, _, hprev, ho, hi⟩ :=
        publicationIntent_of_lastCheckpoint hr
      cases hprev.symm.trans hev
      rw [← hpay, ho] at hchk
      exact absurd hi (checkPayload_publication_ne hchk)
    · cases hr
      rw [← getLast?_eq_getElem?] at hev
      exact ⟨(Bool.and_eq_true_iff.1 hpr).1, event, hev, hpay, ht⟩
  · rintro ⟨hpr, last, hls, rfl, rfl⟩
    have hpn : last.payload.isPublicationPending = false := by
      cases hlastPayload : last.payload <;>
        simp_all [isProgress, isPublicationPending]
    have hr : replacement handle.events last.payload = some (handle.events.length - 1) := by
      simp [replacement, hpn, hls, hpr]
    have hgetLast := hls
    rw [getLast?_eq_getElem?] at hgetLast
    rw [appendSequence, hr, bind_some, hgetLast] at hseq
    obtain rfl : last = event := by
      obtain ⟨_, _, payload⟩ := last
      obtain ⟨_⟩ := event
      simp_all
    exact ⟨_, hr, hgetLast⟩

theorem appendedHandle_eq_self
    (h : appendedHandle coordinator handle payload observedAt = .ok (next, event))
    (hs : placeEvent handle.events event = handle.events) : next = handle := by
  obtain ⟨hpay, -, -, hn, _⟩ := appendedHandle_shape h
  obtain ⟨_, hrp, hev⟩ := placeEvent_eq_self.1 hs
  rw [hpay] at hrp
  have hrep : replacedBytes coordinator.codec handle.events payload =
      coordinator.codec.eventLength event := by
    rw [replacedBytes, hrp, bind_some, hev]
  have hc : next.eventBytes = handle.eventBytes := by omega
  rw [hn, hs, hc]

theorem fails_append (payload : QueryControlEventPayload) (observedAt : Int)
    (precondition : Option PendingResultObjectSet) :
    wp (appendEventWithCleanupPrecondition coordinator queryId payload observedAt precondition)
      state (FailsLike state fun _ => RepeatsProgress state queryId payload observedAt) := by
  refine FailsLike.check fun _ _ => FailsLike.check fun _ _ => FailsLike.check fun _ _ => ?_
  rw [wp_read_bind]
  refine FailsLike.check fun handle hh => FailsLike.check fun _ _ =>
    FailsLike.check fun _ hchk => FailsLike.check fun ⟨next, event⟩ hn => ?_
  rw [okOr_eq_ok] at hh
  have hs := (appendedHandle_shape hn).2.2.2.1
  have hevs : next.events = placeEvent handle.events event := by
    rw [hs]
  have hrep : RepeatsProgress state queryId payload observedAt ↔
      placeEvent handle.events event = handle.events := by
    rw [placeEvent_eq_self_iff hchk hn, RepeatsProgress, exists_found_iff hh]
  dsimp only
  rw [wp_update_bind, wp_write_bind]
  refine ⟨fun _ _ => ⟨⟨_, rfl⟩, ?_, fun hrp => ?_⟩,
    wp_pure.2 (.written (Written.journal.2 ⟨rfl, .nil⟩))⟩
  · rw [hrep, ← hevs]
    exact unchanged_setHandle_iff hh (by rw [hs]; rfl) (by rw [hs])
  · rw [appendedHandle_eq_self hn (hrep.1 hrp), setHandle, insert_eq_self hh]

/-! ### Expiry -/

theorem gone_setHandle (h : handle.resultRetention = .cleanupPending) :
    Gone queryId (state.setHandle queryId handle) := by
  intro kept hk
  obtain rfl : handle = kept := by simpa [setHandle] using hk
  exact h

theorem Gone.setHandle (h : Gone queryId state) (hret : handle.resultRetention = .cleanupPending) :
    Gone queryId (state.setHandle other handle) := by
  intro kept hk
  rw [CoordinatorState.setHandle, getElem?_insert_eq] at hk
  split_ifs at hk
  · cases hk
    exact hret
  · exact h kept hk

theorem Gone.erase (h : Gone queryId state) :
    Gone queryId { state with handles := state.handles.erase other } := by
  intro kept hk
  rw [getElem?_erase_eq] at hk
  split_ifs at hk
  exact h kept hk

theorem Gone.of_handles (h : Gone queryId state) (hs : after.handles = state.handles) :
    Gone queryId after := by
  intro kept hk
  exact h kept (hs ▸ hk)

theorem stagedHandle_retention {staged : QueryHandle}
    (h : stagedHandle coordinator handle observedAt = .ok staged) :
    staged.resultRetention = .cleanupPending := by
  unfold stagedHandle at h
  split_ifs at h
  · cases h
    rfl
  · simp only [ok_iff, Prod.exists] at h
    obtain ⟨_, _, -, rfl⟩ := h
    rfl

theorem gone_counts {first : CoordinatorM Unit} {next : CoordinatorM α} (hcts : Tally first)
    (h : Gone queryId state) (hn : ∀ t, Gone queryId t → wp next t (Leaves (Gone queryId))) :
    wp (do first; next) state (Leaves (Gone queryId)) :=
  Leaves.bind (Leaves.counts hcts.only fun _ ht => h.of_handles ht)
    fun _ t ht => hn t ht

protected theorem Leaves.expireQuery (observedAt : Int) (h : other = queryId ∨ Gone other state) :
    wp (expireQuery coordinator queryId observedAt) state (Leaves (Gone other)) := by
  rw [expireQuery, wp_read_bind]
  refine Leaves.check fun _ _ => ?_
  split_ifs
  · refine Leaves.check fun staged hstg => ?_
    have hret := stagedHandle_retention hstg
    have hset : ∀ (t : CoordinatorState) (kept : QueryHandle), other = queryId ∨ Gone other t →
        kept.resultRetention = .cleanupPending → Gone other (t.setHandle queryId kept) := by
      rintro t kept (rfl | hg) hk
      · exact gone_setHandle hk
      · exact hg.setHandle hk
    have hg := hset state staged h hret
    rw [wp_update_bind]
    refine Leaves.write hg (Leaves.bind (Leaves.counts
      (Tally.releaseLiveSlot _ _).only fun t ht => hg.of_handles ht) fun _ t ht => ?_)
    rw [wp_update_bind]
    have hf := hset t { staged with cancelled := true } (.inr ht) hret
    exact Leaves.counts (Tally.only (.bind (.releaseHeld _ _) fun _ => .update fun _ => rfl))
      fun u hu => hf.of_handles hu
  · have hg : Gone other { state with handles := state.handles.erase queryId } := by
      rcases h with rfl | hg
      · exact fun kept hk => by simp at hk
      · exact hg.erase
    rw [dropExpired, wp_update_bind]
    refine gone_counts (.update fun _ => rfl) hg fun t ht => gone_counts
      (.releaseIfRunning _) ht fun t ht => gone_counts (.releaseHeld _ _) ht
        fun t ht => gone_counts (.update fun _ => rfl) ht fun t ht => ?_
    rw [wp_update_bind]
    exact .write_last (ht.of_handles rfl)

protected theorem Leaves.expireQueries (observedAt : Int) (expired : List QueryId)
    (h : Gone other state) :
    wp (expireQueries coordinator observedAt expired) state (Leaves (Gone other)) := by
  induction expired generalizing state with
  | nil => exact wp_pure.2 (.ok h)
  | cons _ expired ih =>
    exact Leaves.bind (Leaves.expireQuery observedAt (.inr h)) fun _ _ ht => ih ht

protected theorem Leaves.joinScopes (expired : List QueryId) (h : G state) :
    wp (joinScopes expired) state (Leaves G) := by
  induction expired with
  | nil => exact wp_pure.2 (.ok h)
  | cons queryId expired ih =>
    rw [joinScopes, wp_joinScope_bind]
    refine ⟨fun _ => ⟨by simp, fun _ => h⟩, wp_mono ih fun _ _ t hr => ?_⟩
    exact .append [⟨.joinScope queryId, Except.ok ()⟩] (Written.joinScope.2 .nil) hr

/-- Collecting expired queries is not rolled back. -/
theorem fails_collectExpired (observedAt : Int) :
    wp (collectExpired coordinator observedAt) state (FailsLike state fun _ => False) := by
  rw [collectExpired, wp_read_bind]
  cases hexp : expiredQueries state observedAt with
  | nil =>
    show wp (dispatchLocked coordinator.policy >>= _) _ _
    rw [wp_bind]
    refine wp_mono (wp_dispatchLocked_failed _) fun _ result t h => ?_
    cases result with
    | error error =>
      intro hfl
      have hrun := (h.2 hfl).1
      exact ⟨⟨error, rfl⟩, iff_of_false (fun hs => hrun.ne' hs.running) id, by simp⟩
    | ok =>
      refine wp_pure.2 (.written ?_)
      by_contra hfl
      obtain ⟨-, error, herr⟩ := h.2 (by simpa using hfl)
      cases herr
  | cons queryId rest =>
    have hmem : queryId ∈ expiredQueries state observedAt := by simp [hexp]
    obtain ⟨_, hfd, hk⟩ := expiredQueries_found hmem
    refine wp_mono (Leaves.bind (G := Gone queryId) ?_ fun _ t ht => ?_) fun _ _ _ h => h.failsLike
        (fun t ht => not_unchanged_of_gone hfd hk ht) fun _ => id
    · exact Leaves.bind (Leaves.expireQuery observedAt (.inl rfl))
        fun _ t ht => Leaves.expireQueries observedAt rest ht
    · refine Leaves.bind (Leaves.dispatch _ fun u hu => ht.dispatched hu)
        fun _ u hu => Leaves.bind (Leaves.joinScopes _ hu) fun _ _ hv =>
          wp_pure.2 (.ok hv)

/-! ## All operations -/

/-- **What a failed write leaves of an operation**: it is undone exactly if it rolls back. -/
theorem fails_operation : wp (operation.procedure coordinator) state
    (FailsLike state (RollsBack state operation)) := by
  cases operation with
  | accept operation observedAt => exact FailsLike.return (fails_accept operation observedAt)
  | appendEvent queryId payload observedAt =>
    exact FailsLike.return (fails_append payload observedAt none)
  | reconcilePublication queryId previous retained observedAt =>
    refine FailsLike.return (wp_mono (fails_append (.publicationPending retained) observedAt
      (some previous)) fun _ _ t h hf => ?_)
    -- A checkpoint is not progress.
    have hnot : ¬RepeatsProgress state queryId (.publicationPending retained) observedAt :=
      fun hrep => absurd hrep.1 nofun
    obtain ⟨he, hiff, -⟩ := h hf
    exact ⟨he, hiff.trans (iff_of_false hnot id), nofun⟩
  | terminal queryId ending publicCode actualResult observedAt =>
    exact FailsLike.return (fails_terminal ending publicCode actualResult observedAt)
  | signal queryId => exact FailsLike.return fails_signal
  | cancel queryId observedAt => exact FailsLike.return (fails_cancel observedAt)
  | cancelIdempotent queryId cancellationId observedAt =>
    exact FailsLike.return (fails_cancelIdempotent cancellationId observedAt)
  | releaseResult queryId => exact FailsLike.return fails_releaseResult
  | markResultCleanupComplete queryId => exact FailsLike.return fails_markResultCleanupComplete
  | collectExpired observedAt => exact FailsLike.return (fails_collectExpired observedAt)

/-- **Failed journal writes.** An operation with a failed journal write returns an error. It leaves
the queries and the counters as they were exactly if it rolls back, and then the whole state. -/
theorem failed_write_rolls_back_iff {invocation : Invocation}
    (step : Step coordinator state invocation after) (hfailed : ¬Written invocation.calls) :
    (∃ error, invocation.result = .error error) ∧
      (Unchanged state after ↔ RollsBack state invocation.operation invocation.calls) ∧
      (RollsBack state invocation.operation invocation.calls → after = state) :=
  yields_of_wp (fails_operation invocation.operation) step hfailed

def failing : (e : Effect) → Response e
  | .childScope _ => Except.ok ()
  | .reserve _ => Except.ok ()
  | .journal _ => Except.error JournalError.sqlite
  | .joinScope _ => Except.ok ()

/-- What an operation does when every journal write fails. -/
def failedOutcome (operation : CoordinatorOperation) (state : CoordinatorState) :
    Calls × Except CoordinatorError CoordinatorReply × CoordinatorState :=
  answered failing ((operation.procedure sampleCoordinator).start state)

theorem step_failedOutcome (state : CoordinatorState) : Step sampleCoordinator state
    ⟨operation, (failedOutcome operation state).1, (failedOutcome operation state).2.1⟩
    (failedOutcome operation state).2.2 :=
  yields_answered failing _

def sampleWaiting : CoordinatorState :=
  (performed sampleCoordinator successful
    [.accept (sampleOperation 1 "a") 10, .accept (sampleOperation 1 "b") 20] .default).2

/-- A failed `accept` rolls back, next to a running query and one that waits. -/
theorem accept_rolls_back :
    (failedOutcome (.accept (sampleOperation 1 "c") 30) sampleWaiting).2.1 = .error .sqlite ∧
      (failedOutcome (.accept (sampleOperation 1 "c") 30) sampleWaiting).2.2 = sampleWaiting := by
  have han : (journalEntries (failedOutcome (.accept (sampleOperation 1 "c") 30)
      sampleWaiting).1).map Prod.snd = [.error .sqlite] := by decide +kernel
  have hf : ¬Written (failedOutcome (.accept (sampleOperation 1 "c") 30) sampleWaiting).1 := by
    intro hwr
    obtain ⟨entry, he, hans⟩ := List.mem_map.1 (han ▸ mem_singleton_self _)
    exact absurd (hans.symm.trans (hwr entry he)) nofun
  have ho := congrArg length han
  rw [length_map] at ho
  exact ⟨by decide +kernel, (failed_write_rolls_back_iff (step_failedOutcome _ _) hf).2.2 ho⟩

def sampleEnd : CoordinatorOperation := .terminal (sampleQuery 1 "a") .failed none none 40

/-- The end of a query whose write failed stays in memory: the query counts as running for ever, a
retry is refused, and the slot is never given to the query that waits for it. -/
theorem terminal_keeps_failed_write : (∃ history : History, history.Written ∧
      Run (Step sampleCoordinator) .default history sampleWaiting) ∧
    (failedOutcome sampleEnd sampleWaiting).2.1 = .error .sqlite ∧
    ¬Unchanged sampleWaiting (failedOutcome sampleEnd sampleWaiting).2.2 ∧
    (answered successful ((sampleEnd.procedure sampleCoordinator).start
      (failedOutcome sampleEnd sampleWaiting).2.2)).2.1 = .error .alreadyTerminal ∧
    (failedOutcome sampleEnd sampleWaiting).2.2.running = 1 ∧
    (failedOutcome sampleEnd sampleWaiting).2.2.handles.toList.map (fun entry => entry.2.phase) =
      [.terminal .failed, .queued] := by
  refine ⟨⟨_, .performed _ _, run_performed _ _ _⟩, by decide +kernel, fun h => ?_,
    by decide +kernel, by decide +kernel, by decide +kernel⟩
  exact absurd (h.queries (sampleQuery 1 "a")) (by decide +kernel)

end CodeFabric.Query
