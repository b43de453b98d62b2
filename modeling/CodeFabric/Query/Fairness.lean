import CodeFabric.Query.Discipline

/-! # Fair admission

What the coordinator's dispatch promises the queries that wait.

* **`Fair`** says of a list of journal writes that no query is started while one of the same
  workspace and principal that was accepted earlier still waits.
* A dispatch that stops at the running cap can leave a query behind a later one of its owner:
  **`Strands`** decides this on the state before the dispatch. Where no dispatch does, the queue of
  every owner stays in order and every start is fair: **`fair_admission`**. -/

namespace CodeFabric.Query

open CodeFabric.Command Fallible TreeMaps Procedures Interleaving Runs JournalWrite List

variable {policy : QueryCoordinatorPolicy} {unscanned rotated : List QueryId} {records : Records}
  {order : List QueryId} {writes : List JournalWrite} {coordinator : QueryCoordinator}
  {state middle after : CoordinatorState} {queryId : QueryId} {handle : QueryHandle}

/-! ## Saturation -/

/-- The running cap is reached, or every waiting query is blocked by its workspace or principal. -/
def Saturated (policy : QueryCoordinatorPolicy) (state : CoordinatorState) : Prop :=
  policy.maxRunning ≤ state.running ∨ ∀ (queryId : QueryId) handle,
    state.handles[queryId]? = some handle → handle.phase = .queued →
      state.Capped policy handle.operation

def CappedAt (policy : QueryCoordinatorPolicy) (state : CoordinatorState) (queryId : QueryId) :
    Prop :=
  ∀ handle, state.handles[queryId]? = some handle → state.Capped policy handle.operation

/-- The running cap is reached, or the queue holds capped queries only. -/
def QueueSaturated (policy : QueryCoordinatorPolicy) (state : CoordinatorState) : Prop :=
  policy.maxRunning ≤ state.running ∨ ∀ queryId ∈ state.queue, CappedAt policy state queryId

/-- A saturated queue saturates the coordinator. -/
theorem QueueSaturated.saturated (h : QueueSaturated policy state)
    (hs : Coherent coordinator state) : Saturated policy state := by
  refine h.imp_right fun hqu queryId handle hfd hq => ?_
  exact hqu queryId ((hs.mem_queue queryId).2 ⟨handle, hfd, hq⟩) handle hfd

theorem getD_insert_ge {κ : Type} [Ord κ] [Std.TransOrd κ] [Std.LawfulEqOrd κ] [DecidableEq κ]
    {values : Std.ExtTreeMap κ Nat} {key other : κ} : (values[other]?).getD 0 ≤
      ((values.insert key ((values[key]?).getD 0 + 1))[other]?).getD 0 := by
  rw [getElem?_insert_eq]
  split_ifs with ho
  · subst ho
    exact Nat.le_succ _
  · exact le_rfl

/-- A query that is capped stays so when another starts. -/
theorem CoordinatorState.Capped.countRunning {operation started : NormalizedQueryOperation}
    (h : state.Capped policy operation) : (state.countRunning started).Capped policy operation :=
  h.imp (fun hws => hws.trans getD_insert_ge) fun hpr => hpr.trans getD_insert_ge

theorem CappedAt.start {other : QueryId} {queue : List QueryId} (h : CappedAt policy state other)
    (hfd : state.handles[queryId]? = some handle) :
    CappedAt policy (({ state with queue }.countRunning handle.operation).setHandle queryId
      (handle.setPhase .running)) other := by
  intro kept hkp
  have hk' : (state.handles.insert queryId (handle.setPhase .running))[other]? = some kept :=
    hkp
  rw [getElem?_insert_eq] at hk'
  split_ifs at hk' with ho
  · cases hk'
    exact (h handle (ho ▸ hfd)).countRunning
  · exact (h kept hk').countRunning

/-- The scan of a dispatch, from any state: what it has looked at and left in the queue is
capped. -/
theorem wp_dispatchScan_saturates (policy : QueryCoordinatorPolicy)
    (hq : state.queue = unscanned ++ rotated)
    (hcap : ∀ queryId ∈ rotated, CappedAt policy state queryId) :
    wp (dispatchScan policy unscanned.length) state fun _ result after => result = .ok () →
      QueueSaturated policy after := by
  induction unscanned generalizing state rotated with
  | nil =>
    refine wp_pure.2 fun _ => .inr ?_
    rw [hq]
    exact hcap
  | cons head unscanned ih =>
    rw [length_cons, dispatchScan, wp_read_bind]
    split_ifs with hf
    · rw [hq, cons_append]
      dsimp only
      rw [wp_update_bind, wp_check_bind]
      refine ⟨fun _ _ h => (by cases h), fun _ hh => ?_⟩
      rw [okOr_eq_ok] at hh
      split_ifs with he hb
      · exact ih rfl hcap
      · rw [wp_update_bind]
        refine ih (append_assoc unscanned rotated [head]) fun other ho => ?_
        rcases List.mem_append.1 ho with hrot | hhd
        · exact hcap other hrot
        · rw [List.mem_singleton.1 hhd]
          intro _ hk
          cases hh.symm.trans hk
          exact hb
      · rw [wp_update_bind, wp_update_bind, wp_write_bind]
        refine ⟨fun _ h => (by cases h), ih rfl fun other ho => ?_⟩
        exact (hcap other ho).start hh
    · exact wp_pure.2 fun _ => .inl (not_lt.1 hf)

/-- **A dispatch that succeeds saturates the queue.** -/
theorem dispatch_saturates (policy : QueryCoordinatorPolicy) :
    wp (dispatchLocked policy) state fun _ result after => result = .ok () →
      QueueSaturated policy after := by
  rw [dispatchLocked, wp_read_bind]
  exact wp_dispatchScan_saturates policy (append_nil _).symm (by simp)

/-! ### Operations that dispatch -/

section

variable {α β : Type} {D : Except CoordinatorError α → Prop}

/-- Results under which a procedure has dispatched and changed nothing since. -/
def Settles (policy : QueryCoordinatorPolicy) (D : Except CoordinatorError α → Prop)
    (procedure : CoordinatorM α) : Prop :=
  ∀ state, wp procedure state fun _ result after => D result → QueueSaturated policy after

variable {policy : QueryCoordinatorPolicy}

protected theorem Settles.bind {first : CoordinatorM β} {next : β → CoordinatorM α}
    (hfst : ∀ state, wp first state fun _ result _ => ∀ error, result = .error error →
      ¬D (.error error)) (hn : ∀ value, Settles policy D (next value)) :
    Settles policy D (first >>= next) := by
  intro state
  rw [wp_bind]
  refine wp_mono (hfst state) fun _ result middle he => ?_
  cases result with
  | error error => exact fun hD => absurd hD (he error rfl)
  | ok value => exact wp_mono (hn value middle) fun _ _ _ h => h

protected theorem Settles.pure {value : α} (h : ¬D (.ok value)) : Settles policy D (pure value) :=
  fun _ => wp_pure.2 fun hD => absurd hD h

theorem Settles.dispatch {next : Unit → CoordinatorM α} (he : ∀ error, D (.error error) →
      ∃ detail, error = .structuredTask detail)
    (hd : ∀ state, wp (dispatchLocked policy) state fun _ result _ =>
      ∀ detail, result ≠ .error (.structuredTask detail))
    (hn : ∀ state, wp (next ()) state fun _ _ after => after = state) :
    Settles policy D (dispatchLocked policy >>= next) := by
  intro state
  rw [wp_bind]
  refine wp_mono (wp_and (dispatch_saturates policy) (hd state))
    fun _ result middle ⟨hsat, ht⟩ => ?_
  cases result with
  | error error =>
    intro hD
    obtain ⟨detail, rfl⟩ := he error hD
    exact absurd rfl (ht detail)
  | ok =>
    rw [afterwards_ok]
    refine wp_mono (hn middle) fun _ _ after haf => ?_
    rw [haf]
    exact fun _ => hsat rfl

end

/-! ### Errors of the task scopes -/

section

variable {α β : Type}

/-- A procedure that reports no error of a task scope. -/
def Taskless (procedure : CoordinatorM α) : Prop :=
  ∀ state, wp procedure state fun _ result _ => ∀ detail, result ≠ .error (.structuredTask detail)

theorem Limited.taskless {W : JournalWrite → Prop} {procedure : CoordinatorM α}
    (h : Limited W True procedure) : Taskless procedure :=
  fun state => wp_mono (h state) fun _ _ _ h => h.2 trivial

protected theorem Taskless.dispatchLocked (policy : QueryCoordinatorPolicy) :
    Taskless (dispatchLocked policy) :=
  (Limited.dispatchLocked (W := fun _ => True) (fun _ => trivial) policy).taskless

protected theorem Taskless.expireQueries (observedAt : Int) (expired : List QueryId) :
    Taskless (expireQueries coordinator observedAt expired) :=
  (Limited.expireQueries (W := fun _ => True) (fun _ => trivial) (fun _ _ => trivial)
    observedAt).taskless

end

/-! ### All operations -/

def Waits (state : CoordinatorState) (queryId : QueryId) : Prop :=
  ∃ handle, state.handles[queryId]? = some handle ∧ handle.phase = .queued

/-- The operations that have dispatched when they return, by what they return: a new acceptance, an
end, the cancellation of a waiting query, and every expiry that did not fail before. -/
def CoordinatorOperation.Dispatches (operation : CoordinatorOperation) (before : CoordinatorState)
    (result : Except CoordinatorError CoordinatorReply) : Prop :=
  match operation, result with
  | .accept .., .ok (.accepted (.new _)) => True
  | .terminal .., .ok _ => True
  | .cancel queryId _, .ok _ => Waits before queryId
  | .cancelIdempotent queryId _ _, .ok (.cancelled outcome) =>
    Waits before queryId ∧ outcome.idempotentReplay = false
  | .collectExpired _, .ok _ => True
  | .collectExpired _, .error (.structuredTask _) => True
  | _, _ => False

def Succeeds {α : Type} (result : Except CoordinatorError α) : Prop :=
  ∃ value, result = .ok value

theorem not_succeeds_error {α : Type} {error : CoordinatorError} :
    ¬Succeeds (.error error : Except CoordinatorError α) := nofun

section

variable {α β : Type} {D : Except CoordinatorError α → Prop} (hD : ∀ error, ¬D (.error error))
include hD

theorem Settles.step {first : CoordinatorM β} {next : β → CoordinatorM α}
    (hn : ∀ value, Settles policy D (next value)) : Settles policy D (first >>= next) :=
  .bind (fun _ => wp_mono (wp_trivial _ _) fun _ _ _ _ error _ => hD error) hn

theorem Settles.then {next : Unit → CoordinatorM α}
    (hn : ∀ state, wp (next ()) state fun _ _ after => after = state) :
    Settles policy D (dispatchLocked policy >>= next) :=
  .dispatch (fun error h => absurd h (hD error)) (Taskless.dispatchLocked policy) hn

end

def AcceptsNew (result : Except CoordinatorError QueryAcceptanceOutcome) : Prop :=
  ∃ acceptance, result = .ok (.new acceptance)

protected theorem Settles.accept (operation : NormalizedQueryOperation) (observedAt : Int) :
    Settles coordinator.policy AcceptsNew (accept coordinator operation observedAt) := by
  have hD : ∀ error, ¬AcceptsNew (.error error) := fun _ => nofun
  refine .step hD fun operation => .step hD fun _ => .step hD fun state => ?_
  split
  · refine .step hD fun _ => .step hD fun _ => ?_
    exact .pure nofun
  · refine .step hD fun _ => .step hD fun _ => .step hD fun _ => .step hD fun _ =>
      .step hD fun _ => .step hD fun _ => .then hD fun state => ?_
    rw [wp_read_bind, wp_check_bind]
    exact ⟨fun _ _ => rfl, fun _ _ => wp_pure.2 rfl⟩

protected theorem Settles.terminal (queryId : QueryId) (ending : QueryTerminalState)
    (publicCode : Option String) (actualResult : Option (Nat × Nat)) (observedAt : Int) :
    Settles coordinator.policy Succeeds
      (terminal coordinator queryId ending publicCode actualResult observedAt) := by
  have hD : ∀ error, ¬Succeeds (.error error : Except CoordinatorError QueryControlEvent) :=
    fun _ => not_succeeds_error
  exact .step hD fun _ => .step hD fun _ => .step hD fun _ => .step hD fun _ =>
    .step hD fun _ => .step hD fun _ => .then hD fun _ => wp_pure.2 rfl

protected theorem Settles.cancelQueued (queryId : QueryId) (handle : QueryHandle)
    (cancellationId : String)
    (observedAt : Int) : Settles coordinator.policy Succeeds
      (cancelQueued coordinator queryId handle cancellationId observedAt) := by
  have hD : ∀ error, ¬Succeeds (.error error : Except CoordinatorError
      QueryCancellationOutcome) := fun _ => not_succeeds_error
  refine .step hD fun _ => .step hD fun _ => .step hD fun answer => ?_
  cases answer with
  | error =>
    refine .step hD fun _ => ?_
    exact fun _ => wp_throw.2 fun h => absurd h not_succeeds_error
  | ok =>
    exact .step hD fun _ => .step hD fun _ => .then hD fun _ => wp_pure.2 rfl

protected theorem Settles.collectExpired (observedAt : Int) : Settles coordinator.policy
    (fun result => Succeeds result ∨ ∃ detail, result = .error (.structuredTask detail))
    (collectExpired coordinator observedAt) := by
  refine .bind (fun state => wp_read.2 fun _ h => absurd h nofun) fun _ =>
    .bind (fun state => ?_) fun _ => .dispatch ?_ (Taskless.dispatchLocked _) fun state => ?_
  · refine wp_mono (Taskless.expireQueries observedAt _ state) fun calls result t ht => ?_
    rintro error rfl (hsuc | ⟨detail, heq⟩)
    · exact not_succeeds_error hsuc
    · exact ht detail (by rw [Except.error.inj heq])
  · rintro error (hsuc | ⟨detail, heq⟩)
    · exact absurd hsuc not_succeeds_error
    · exact ⟨detail, Except.error.inj heq⟩
  · rw [wp_bind]
    refine wp_mono (wp_joinScopes _) fun calls result t h => ?_
    cases result with
    | error error => exact h.1
    | ok =>
      rw [afterwards_ok, wp_pure]
      exact h.1

theorem cancelIdempotent_saturates {cancellationId : String} {observedAt : Int}
    (hw : Waits state queryId) :
    wp (cancelIdempotent coordinator queryId cancellationId observedAt) state
      fun _ result after => (∃ outcome, result = .ok outcome ∧ outcome.idempotentReplay = false) →
        QueueSaturated coordinator.policy after := by
  obtain ⟨handle, hfd, hq⟩ := hw
  rw [cancelIdempotent, wp_check_bind]
  refine ⟨fun _ _ h => (by simp at h), fun _ _ => ?_⟩
  rw [wp_read_bind, hfd, okOr, wp_check_bind]
  refine ⟨by simp, fun kept hkp => ?_⟩
  obtain rfl : handle = kept := Except.ok.inj hkp
  by_cases hkn : cancellationId ∈ handle.cancellationIds
  · rw [if_pos hkn]
    refine wp_pure.2 ?_
    rintro ⟨outcome, hout, hrpl⟩
    cases hout
    cases hrpl
  · rw [if_neg hkn, wp_check_bind]
    refine ⟨fun _ _ h => (by simp at h), fun _ _ => ?_⟩
    rw [if_pos hq]
    refine wp_mono (Settles.cancelQueued queryId handle cancellationId observedAt state)
      fun _ result after h => ?_
    rintro ⟨outcome, hout, -⟩
    exact h ⟨outcome, hout⟩

theorem cancel_saturates {observedAt : Int} (hw : Waits state queryId) :
    wp (cancel coordinator queryId observedAt) state fun _ result after => Succeeds result →
      QueueSaturated coordinator.policy after := by
  obtain ⟨handle, hfd, hq⟩ := hw
  have hsg : wp (signal queryId) state fun _ result _ => ∀ queued, result = .ok queued →
      queued = true := by
    rw [signal, wp_read_bind, hfd, okOr, wp_check_bind]
    refine ⟨by simp, fun kept hk => ?_⟩
    obtain rfl : handle = kept := Except.ok.inj hk
    rw [wp_update_bind, wp_pure]
    rintro queued hok
    cases hok
    exact decide_eq_true hq
  rw [cancel, wp_bind]
  refine wp_mono hsg fun _ result middle ht => ?_
  cases result with
  | error error => exact fun h => absurd h not_succeeds_error
  | ok queued =>
    rw [ht queued rfl, afterwards_ok, if_pos rfl, wp_bind]
    refine wp_mono (Settles.terminal queryId .cancelled (some "CANCELLED") none observedAt middle)
      fun _ result after h => ?_
    cases result with
    | error error => exact fun hsuc => absurd hsuc not_succeeds_error
    | ok event =>
      rw [afterwards_ok, wp_pure]
      exact fun _ => h ⟨event, rfl⟩

theorem saturates_return {α β : Type} {procedure : CoordinatorM α} {reply : α → β}
    {D : Except CoordinatorError α → Prop} {E : Except CoordinatorError β → Prop}
    (h : wp procedure state fun _ result after => D result → QueueSaturated policy after)
    (he : ∀ error, E (.error error) → D (.error error))
    (hok : ∀ value, E (.ok (reply value)) → D (.ok value)) :
    wp (procedure >>= fun value => pure (reply value)) state fun _ result after =>
      E result → QueueSaturated policy after := by
  rw [wp_bind]
  refine wp_mono h fun _ result _ hsat => ?_
  cases result with
  | error error => exact fun hD => hsat (he error hD)
  | ok value =>
    rw [afterwards_ok, wp_pure]
    exact fun hD => hsat (hok value hD)

/-- So does every operation that dispatches. -/
theorem saturates_operation (operation : CoordinatorOperation) :
    wp (operation.procedure coordinator) state fun _ result after =>
      operation.Dispatches state result → QueueSaturated coordinator.policy after := by
  cases operation with
  | accept operation observedAt =>
    refine saturates_return (Settles.accept operation observedAt state) (fun _ => False.elim) ?_
    rintro (acceptance | acceptance) hnew
    · exact ⟨acceptance, rfl⟩
    · exact hnew.elim
  | terminal queryId ending publicCode actualResult observedAt =>
    exact saturates_return (Settles.terminal queryId ending publicCode actualResult observedAt
      state) (fun _ => False.elim) fun event _ => ⟨event, rfl⟩
  | cancel queryId observedAt =>
    by_cases hw : Waits state queryId
    · exact saturates_return (cancel_saturates hw) (fun _ => False.elim) fun done _ => ⟨done, rfl⟩
    · refine wp_mono (wp_trivial _ _) fun calls result after _ hd => ?_
      cases result with
      | error error => exact hd.elim
      | ok => exact absurd hd hw
  | cancelIdempotent queryId _ observedAt =>
    by_cases hw : Waits state queryId
    · exact saturates_return (cancelIdempotent_saturates hw) (fun _ => False.elim)
        fun outcome h => ⟨outcome, rfl, h.2⟩
    · refine wp_mono (wp_trivial _ _) fun calls result after _ hd => ?_
      rcases result with error | (_ | _ | _ | _ | outcome | _ | _)
      case ok.cancelled => exact absurd hd.1 hw
      all_goals exact hd.elim
  | collectExpired observedAt =>
    refine saturates_return (Settles.collectExpired observedAt state) (fun error h => ?_)
      fun count _ => .inl ⟨count, rfl⟩
    cases error with
    | structuredTask detail => exact .inr ⟨detail, rfl⟩
    | _ => exact h.elim
  | _ =>
    refine wp_mono (wp_trivial _ _) fun calls result after _ hd => ?_
    exact hd.elim

theorem Step.saturated {invocation : Invocation} (step : Step coordinator state invocation after)
    (hd : invocation.operation.Dispatches state invocation.result) :
    QueueSaturated coordinator.policy after :=
  yields_of_wp (saturates_operation invocation.operation) step hd

/-! ## Order of acceptance -/

/-- A write starts no query while one of its owner that was accepted earlier still waits. -/
def FairWrite (records : Records) (order : List QueryId) : JournalWrite → Prop
  | .replace record =>
    (records[record.acceptance.queryId]?).any (fun kept => kept.acceptance.phase = .queued) →
    record.acceptance.phase = .running →
    ∀ earlier ∈ order, [earlier, record.acceptance.queryId].Sublist order →
      (records[earlier]?).all fun kept => ¬(kept.workspaceId = record.workspaceId ∧
        kept.principalId = record.principalId ∧ kept.acceptance.phase = .queued)
  | _ => True

instance (records : Records) (order : List QueryId) (entry : JournalWrite) :
    Decidable (FairWrite records order entry) :=
  match entry with
  | .replace _ => inferInstanceAs (Decidable (_ → _ → ∀ _ ∈ order, _ → _))
  | .create _ | .delete _ => inferInstanceAs (Decidable True)

/-- Every write is fair at its moment. -/
def FairFrom (records : Records) (order : List QueryId) : List JournalWrite → Prop
  | [] => True
  | entry :: rest => FairWrite records order entry ∧
      FairFrom (entry.apply records) (entry.enlist order) rest

instance decidableFairFrom (records : Records) (order : List QueryId) :
    (writes : List JournalWrite) → Decidable (FairFrom records order writes)
  | [] => inferInstanceAs (Decidable True)
  | entry :: rest =>
    have := decidableFairFrom (entry.apply records) (entry.enlist order) rest
    inferInstanceAs (Decidable (_ ∧ _))

abbrev Fair (writes : List JournalWrite) : Prop := FairFrom ∅ [] writes

/-- Fairness of writes in sequence. -/
theorem fairFrom_append {records : Records} {order : List QueryId}
    {writes writes' : List JournalWrite} :
    FairFrom records order (writes ++ writes') ↔ FairFrom records order writes ∧
      FairFrom (writes.foldl apply records) (writes.foldl enlist order) writes' := by
  induction writes generalizing records order with
  | nil => simp [FairFrom]
  | cons _ writes ih =>
    rw [cons_append, FairFrom, FairFrom, ih, and_assoc]
    rfl

def CoordinatorState.owner (state : CoordinatorState) (queryId : QueryId) :
    Option (WorkspaceId × PrincipalId) :=
  state.handles[queryId]?.map fun handle => (handle.workspace, handle.principal)

open CoordinatorState

/-- Two queries of one owner were accepted in this order. -/
def Before (order : List QueryId) (state : CoordinatorState) (first second : QueryId) : Prop :=
  state.owner first = state.owner second → [first, second].Sublist order
  deriving Decidable

/-- The queue holds the waiting queries of every owner in the order of acceptance. -/
def InOrder (order : List QueryId) (state : CoordinatorState) : Prop :=
  state.queue.Pairwise (Before order state)
  deriving Decidable

theorem not_sublist_both {α : Type} {a b : α} {l : List α} (hnd : l.Nodup)
    (hab : [a, b].Sublist l) : ¬[b, a].Sublist l := by
  intro hba
  induction l with
  | nil => exact absurd hab nofun
  | cons x l ih =>
    obtain ⟨hx, hl⟩ := List.nodup_cons.1 hnd
    rcases List.sublist_cons_iff.1 hab with hab' | ⟨r, hr, hr'⟩
    · rcases List.sublist_cons_iff.1 hba with hba' | ⟨r, hr, -⟩
      · exact ih hl hab' hba'
      · cases hr
        exact hx (hab'.subset (by simp))
    · cases hr
      rcases List.sublist_cons_iff.1 hba with hba' | ⟨r, hr, hr''⟩
      · exact hx (hba'.subset (by simp))
      · cases hr
        exact hx (hr'.subset (by simp))

/-! ### Moves keep the order -/

/-- A handle exchanged for one of the same operation keeps every owner. -/
theorem owner_exchange {next : QueryHandle} (hfd : state.handles[queryId]? = some handle)
    (hop : next.operation = handle.operation)
    (hhs : after.handles = state.handles.insert queryId next) (other : QueryId) :
    after.owner other = state.owner other := by
  rw [owner, owner, hhs, getElem?_insert_eq]
  split_ifs with ho
  · rw [← ho, hfd, Option.map_some, Option.map_some, QueryHandle.workspace,
      QueryHandle.principal, hop]
    rfl
  · rfl

theorem InOrder.mono {order' : List QueryId} (h : InOrder order state)
    (hq : after.queue.Sublist state.queue)
    (hown : ∀ queryId ∈ after.queue, after.owner queryId = state.owner queryId)
    (hor : ∀ first second : QueryId, first ∈ after.queue → second ∈ after.queue →
      [first, second].Sublist order → [first, second].Sublist order') : InOrder order' after := by
  refine (h.sublist hq).imp_of_mem fun hfst hsnd hbef hows => ?_
  rw [hown _ hfst, hown _ hsnd] at hows
  exact hor _ _ hfst hsnd (hbef hows)

/-- The writes of a move outside a scan are fair. -/
theorem Move.fair (move : Move coordinator state writes after) (h : Mirrors records state) :
    FairFrom records order writes := by
  cases move with
  | enroll | drop => exact ⟨trivial, trivial⟩
  | exchange found valid follows bounded waits written =>
    rename_i queryId handle next
    obtain rfl | ⟨rfl, -⟩ := written
    · refine ⟨fun hq hrun => ?_, trivial⟩
      have hkey : (durableRecord next).acceptance.queryId = queryId := valid.queryId_eq
      rw [hkey, h queryId, found] at hq
      have hph : (durableRecord handle).acceptance.phase = .queued := by simpa using hq
      exact absurd hrun (waits hph)
    · trivial

/-- A move outside a scan keeps the queue in the order of acceptance. -/
theorem Move.inOrder (move : Move coordinator state writes after)
    (h : Tracks coordinator records order state) (hor : InOrder order state) :
    InOrder (writes.foldl JournalWrite.enlist order) after := by
  cases move with
  | @enroll operation fingerprint observedAt bytes pages valid free totals =>
    have hfr := (admissionTotals_eq_ok totals).2.2.2.2.2.2
    have hne : ∀ other ∈ state.queue, (⟨fingerprint⟩ : QueryId) ≠ other := by
      rintro other ho rfl
      obtain ⟨kept, hk, -⟩ := (h.coherent.mem_queue _).1 ho
      exact absurd (hfr.symm.trans hk) nofun
    have hown : ∀ other ∈ state.queue, (state.enroll (newHandle coordinator operation
        fingerprint observedAt) bytes pages).owner other = state.owner other := by
      intro other ho
      show ((state.handles.insert ⟨fingerprint⟩ _)[other]?).map _ = _
      rw [getElem?_insert_eq, if_neg (hne other ho)]
      rfl
    refine List.pairwise_append.2 ⟨?_, pairwise_singleton _ _, fun first hfst second hsnd _ => ?_⟩
    · refine hor.imp_of_mem fun hfst hsnd hbef hows => ?_
      rw [hown _ hfst, hown _ hsnd] at hows
      exact (hbef hows).trans (sublist_append_left _ _)
    · obtain rfl := List.mem_singleton.1 hsnd
      have hmem : first ∈ order := by
        obtain ⟨kept, hk, -⟩ := (h.coherent.mem_queue _).1 hfst
        simp [h.lists.mem, hk]
      exact (List.singleton_sublist.2 hmem).append (List.Sublist.refl _)
  | @exchange queryId handle next _ found valid follows bounded waits written =>
    have hq : (state.exchange queryId handle next).queue.Sublist state.queue := by
      simp only [CoordinatorState.exchange]
      split_ifs
      · exact filter_sublist
      · exact List.Sublist.refl _
    have hown : ∀ other, (state.exchange queryId handle next).owner other = state.owner other :=
      owner_exchange found follows.operation rfl
    obtain rfl | ⟨rfl, -⟩ := written
    · exact hor.mono hq (fun other _ => hown other) fun _ _ _ _ => id
    · exact hor.mono hq (fun other _ => hown other) fun _ _ _ _ => id
  | drop found unowned =>
    rename_i queryId handle
    have hne : ∀ other ∈ (state.drop queryId handle).queue, queryId ≠ other := by
      intro other ho
      have hd := (List.mem_filter.1 ho).2
      exact Ne.symm (of_decide_eq_true hd)
    refine hor.mono filter_sublist (fun other ho => ?_) fun first second hfst hsnd hsub => ?_
    · rw [CoordinatorState.owner, CoordinatorState.drop, getElem?_erase_eq, if_neg (hne other ho)]
      rfl
    · have hk := hsub.filter fun other => decide (other ≠ queryId)
      have hflt : [first, second].filter (fun other => decide (other ≠ queryId)) =
          [first, second] := by simp [(hne first hfst).symm, (hne second hsnd).symm]
      rw [hflt] at hk
      exact hk

/-! ### Dispatches -/

/-- Whether a scan with entries before it and others it has moved to the back will stop at the
running cap with a query still before it whose owner has one among those moved. -/
def Strands (policy : QueryCoordinatorPolicy) :
    List QueryId → CoordinatorState → List QueryId → Prop
  | [], _, _ => False
  | queryId :: unscanned, state, rotated =>
    if state.running < policy.maxRunning then
      match state.handles[queryId]? with
      | none => False
      | some handle =>
        if state.Capped policy handle.operation then
          Strands policy unscanned state (rotated ++ [queryId])
        else Strands policy unscanned (state.countRunning handle.operation) rotated
    else ∃ later ∈ queryId :: unscanned, ∃ earlier ∈ rotated,
      state.owner earlier = state.owner later

/-- States with the same running counts and the same operations. -/
structure SameCounts (state after : CoordinatorState) : Prop where
  running : after.running = state.running
  workspaces : after.runningByWorkspace = state.runningByWorkspace
  principals : after.runningByPrincipal = state.runningByPrincipal
  operations : ∀ queryId : QueryId, after.handles[queryId]?.map QueryHandle.operation =
    state.handles[queryId]?.map QueryHandle.operation

theorem SameCounts.owner (h : SameCounts state after) (queryId : QueryId) :
    after.owner queryId = state.owner queryId := by
  have hop := congrArg (Option.map fun operation =>
    (operation.workspaceId, operation.principalId)) (h.operations queryId)
  rw [Option.map_map, Option.map_map] at hop
  exact hop

theorem SameCounts.countRunning (h : SameCounts state after)
    (operation : NormalizedQueryOperation) :
    SameCounts (state.countRunning operation) (after.countRunning operation) where
  running := congrArg (· + 1) h.running
  workspaces := by simp only [CoordinatorState.countRunning, h.workspaces]
  principals := by simp only [CoordinatorState.countRunning, h.principals]
  operations := h.operations

/-- Whether a scan strands a query depends on the counts only. -/
theorem SameCounts.strands (h : SameCounts state after) :
    Strands policy unscanned after rotated ↔ Strands policy unscanned state rotated := by
  induction unscanned generalizing state after rotated with
  | nil => exact Iff.rfl
  | cons queryId unscanned ih =>
    have hcapped (operation : NormalizedQueryOperation) :
        after.Capped policy operation ↔ state.Capped policy operation := by
      rw [CoordinatorState.Capped, CoordinatorState.Capped, h.workspaces, h.principals]
    have hop := h.operations queryId
    simp only [Strands, h.running, h.owner]
    split_ifs
    · cases hstate : state.handles[queryId]? with
      | none =>
        rw [hstate, Option.map_none, Option.map_eq_none_iff] at hop
        rw [hop]
      | some handle =>
        obtain ⟨next, hnext, heq⟩ := Option.map_eq_some_iff.1 (hop.trans (by rw [hstate]; rfl))
        simp only [hnext, heq, hcapped]
        split_ifs
        · exact ih h
        · exact ih (h.countRunning _)
    · exact Iff.rfl

/-- Where a scan stands: the entries it has not looked at come first in the queue, those it moved
to the back are capped, and in the order they had before, both are in order. -/
structure Scanned (policy : QueryCoordinatorPolicy) (order : List QueryId)
    (unscanned rotated : List QueryId) (state : CoordinatorState) : Prop where
  queue : state.queue = unscanned ++ rotated
  capped : ∀ queryId ∈ rotated, CappedAt policy state queryId
  inOrder : (rotated ++ unscanned).Pairwise (Before order state)

theorem scanned_initial (h : InOrder order state) : Scanned policy order state.queue [] state :=
  ⟨(append_nil _).symm, by simp, h⟩

/-- A scan that starts a query does so fairly. -/
theorem Scanned.fair (h : Scanned coordinator.policy order (queryId :: unscanned) rotated state)
    (ht : Tracks coordinator records order state) (hfd : state.handles[queryId]? = some handle)
    (hunc : ¬state.Capped coordinator.policy handle.operation) :
    FairWrite records order (.replace (durableRecord (handle.setPhase .running))) := by
  have hkey : (durableRecord (handle.setPhase .running)).acceptance.queryId = queryId :=
    (ht.coherent.handles _ _ hfd).queryId_eq
  intro _ _ earlier _ hear
  rw [hkey] at hear
  rw [ht.mirrors earlier]
  cases hkp : state.handles[earlier]? with
  | none => rfl
  | some kept =>
    refine decide_eq_true ?_
    rintro ⟨hws, hpr, hq⟩
    have hsameWorkspace : kept.workspace = handle.workspace :=
      congrArg ByteIdentity.mk (hex_injective hws)
    have hsamePrincipal : kept.principal = handle.principal :=
      congrArg ByteIdentity.mk (hex_injective hpr)
    have hown : state.owner queryId = state.owner earlier := by
      rw [owner, owner, hfd, hkp, Option.map_some, Option.map_some, hsameWorkspace, hsamePrincipal]
    have hmem : earlier ∈ (queryId :: unscanned) ++ rotated := by
      rw [← h.queue]
      exact (ht.coherent.mem_queue earlier).2 ⟨kept, hkp, hq⟩
    rcases List.mem_append.1 hmem with huns | hrot
    · rcases List.mem_cons.1 huns with rfl | hbh
      · exact not_sublist_both ht.lists.nodup hear hear
      · have hpair := List.pairwise_append.1 h.inOrder
        have hbef := (List.pairwise_cons.1 hpair.2.1).1 earlier hbh hown
        exact not_sublist_both ht.lists.nodup hear hbef
    · have hcap := h.capped earlier hrot kept hkp
      refine hunc ?_
      rw [CoordinatorState.Capped] at hcap ⊢
      rw [← show kept.operation.workspaceId = handle.operation.workspaceId from hsameWorkspace,
        ← show kept.operation.principalId = handle.operation.principalId from hsamePrincipal]
      exact hcap

/-- **Step lemma of the scan**: its writes are fair, and what is stranded stays so. -/
theorem DispatchMove.scanned (move : DispatchMove coordinator state writes after)
    (hfree : state.running < coordinator.policy.maxRunning)
    (ht : Tracks coordinator records order state)
    (h : Scanned coordinator.policy order (queryId :: unscanned) rotated state) :
    FairFrom records order writes ∧ writes.foldl enlist order = order ∧
      ∃ rotated', Scanned coordinator.policy order unscanned rotated' after ∧
        (Strands coordinator.policy (queryId :: unscanned) state rotated ↔
          Strands coordinator.policy unscanned after rotated') := by
  cases move with
  | @rotate head rest handle hqu hfd hcap =>
    obtain ⟨rfl, rfl⟩ := List.cons.inj (hqu.symm.trans h.queue)
    refine ⟨trivial, rfl, rotated ++ [head], ⟨append_assoc .., fun other ho => ?_, ?_⟩, ?_⟩
    · rcases List.mem_append.1 ho with hrot | hh
      · exact h.capped other hrot
      · rw [List.mem_singleton.1 hh]
        intro _ hk
        obtain rfl := Option.some.inj (hfd.symm.trans hk)
        exact hcap
    · rw [append_assoc]
      exact h.inOrder
    · simp only [Strands, if_pos hfree, hfd, if_pos hcap]
      refine (SameCounts.strands ?_).symm
      exact ⟨rfl, rfl, rfl, fun _ => rfl⟩
  | @start head rest handle hqu hfd hq _ hunc =>
    obtain ⟨rfl, rfl⟩ := List.cons.inj (hqu.symm.trans h.queue)
    have hsta := start_eq_exchange hqu ht.coherent.queue_nodup hq
    refine ⟨⟨h.fair ht hfd hunc, trivial⟩, rfl, rotated, ⟨?_, fun other ho => ?_, ?_⟩, ?_⟩
    · rw [← hsta]
      rfl
    · rw [← hsta]
      exact (h.capped other ho).start hfd
    · have hown : ∀ other, (state.exchange head handle (handle.setPhase .running)).owner other =
          state.owner other := owner_exchange hfd (handle.setPhase_operation _) rfl
      have hsub : (rotated ++ unscanned).Sublist (rotated ++ head :: unscanned) :=
        (List.Sublist.refl _).append (sublist_cons_self _ _)
      refine (h.inOrder.sublist hsub).imp fun hbef hows => ?_
      rw [hown, hown] at hows
      exact hbef hows
    · simp only [Strands, if_pos hfree, hfd, if_neg hunc]
      refine (SameCounts.strands ?_).symm
      rw [← hsta]
      refine ⟨rfl, rfl, rfl, fun other => ?_⟩
      show ((state.handles.insert head (handle.setPhase .running))[other]?).map _ = _
      rw [getElem?_insert_eq]
      split_ifs with ho
      · rw [← ho, Option.map_some, handle.setPhase_operation]
        exact (congrArg (Option.map QueryHandle.operation) hfd).symm
      · rfl

/-- A queue with capped entries moved to the back is in order exactly if no owner has entries on
both sides. -/
theorem Scanned.inOrder_iff (h : Scanned policy order unscanned rotated state)
    (hnd : order.Nodup) : InOrder order state ↔ ∀ later ∈ unscanned, ∀ earlier ∈ rotated,
      state.owner earlier ≠ state.owner later := by
  obtain ⟨hrotated, hunscanned, hcross⟩ := List.pairwise_append.1 h.inOrder
  rw [InOrder, h.queue, List.pairwise_append]
  constructor
  · rintro ⟨-, -, hback⟩ later hlater earlier hearlier hown
    exact not_sublist_both hnd (hcross earlier hearlier later hlater hown)
      (hback later hlater earlier hearlier hown.symm)
  · intro hne
    exact ⟨hunscanned, hrotated, fun later hlater earlier hearlier hown =>
      absurd hown.symm (hne later hlater earlier hearlier)⟩

/-- A scan is fair, and leaves the queue in order exactly if it strands no query. -/
theorem Scan.fair {attempts : Nat} (scan : Scan coordinator attempts state writes after)
    (htr : Tracks coordinator records order state)
    (h : Scanned coordinator.policy order unscanned rotated state)
    (hlen : attempts = unscanned.length) : FairFrom records order writes ∧
      Tracks coordinator (writes.foldl apply records) (writes.foldl enlist order) after ∧
      (InOrder (writes.foldl enlist order) after ↔
        ¬Strands coordinator.policy unscanned state rotated) := by
  induction scan generalizing records unscanned rotated with
  | stop hst =>
    refine ⟨trivial, htr, ?_⟩
    show InOrder order _ ↔ _
    rw [h.inOrder_iff htr.lists.nodup]
    cases hun : unscanned with
    | nil => simp [Strands]
    | cons queryId rest =>
      -- an entry is left, so the scan was stopped by the cap
      have hfull := hst.resolve_left (by rw [hlen, hun]; exact Nat.succ_ne_zero _)
      have hfull := hfull.resolve_right (by rw [h.queue, hun]; exact cons_ne_nil _ _)
      rw [Strands, if_neg (not_lt.2 hfull)]
      simp only [not_exists, not_and]
  | step hfree move _ ih =>
    cases unscanned with
    | nil => exact absurd hlen (Nat.succ_ne_zero _)
    | cons _ unscanned =>
      obtain ⟨hfair, hsm, _, hsc, hstrands⟩ := move.scanned hfree htr h
      have hmid := move.tracks htr
      rw [hsm] at hmid
      obtain ⟨hr, htracksAfter, hin⟩ := ih hmid hsc (Nat.succ.inj hlen)
      rw [foldl_append, foldl_append, fairFrom_append, hsm, hstrands]
      exact ⟨⟨hfair, hr⟩, htracksAfter, hin⟩

/-! ## Histories -/

/-- Moves outside a scan are fair and keep the order of acceptance. -/
theorem Moves.fair (moves : Moves coordinator state writes after)
    (htr : Tracks coordinator records order state) (hin : InOrder order state) :
    FairFrom records order writes ∧ Tracks coordinator (writes.foldl apply records)
        (writes.foldl enlist order) after ∧
      InOrder (writes.foldl enlist order) after := by
  obtain ⟨_, run, rfl⟩ := moves
  induction run generalizing records order with
  | nil => exact ⟨trivial, htr, hin⟩
  | cons move _ ih =>
    obtain ⟨hr, htracksAfter, hinAfter⟩ := ih (move.tracks htr) (move.inOrder htr hin)
    rw [flatMap_cons, foldl_append, foldl_append, fairFrom_append]
    exact ⟨⟨move.fair htr.mirrors, hr⟩, htracksAfter, hinAfter⟩

/-- The dispatch of an operation, from the state in which it starts, strands no query. -/
def KeepsOrder (coordinator : QueryCoordinator) (x : Transition CoordinatorState Invocation) :
    Prop :=
  ∀ moved ended middle, Moves coordinator x.before moved middle →
    Dispatch coordinator middle ended x.after → journalWrites x.label.calls = moved ++ ended →
    ¬Strands coordinator.policy middle.queue middle []

/-- One operation from a queue in order is fair, and keeps the order exactly if its dispatch strands
no query. -/
theorem fair_of_conducts {x : Transition CoordinatorState Invocation}
    (h : Conducts coordinator true x.before (journalWrites x.label.calls) x.after)
    (htr : Tracks coordinator records order x.before) (hin : InOrder order x.before) :
    FairFrom records order (journalWrites x.label.calls) ∧
      Tracks coordinator ((journalWrites x.label.calls).foldl apply records)
        ((journalWrites x.label.calls).foldl enlist order) x.after ∧
      (InOrder ((journalWrites x.label.calls).foldl enlist order) x.after ↔
        KeepsOrder coordinator x) := by
  have hdispatch {moved ended middle} (hm : Moves coordinator x.before moved middle)
      (hd : Dispatch coordinator middle ended x.after) :
      FairFrom records order (moved ++ ended) ∧
        Tracks coordinator ((moved ++ ended).foldl apply records)
          ((moved ++ ended).foldl enlist order) x.after ∧
        (InOrder ((moved ++ ended).foldl enlist order) x.after ↔
          ¬Strands coordinator.policy middle.queue middle []) := by
    obtain ⟨hf, htracksMiddle, hinMiddle⟩ := hm.fair htr hin
    obtain ⟨hr, htracksAfter, hinAfter⟩ :=
      Scan.fair hd htracksMiddle (scanned_initial hinMiddle) rfl
    rw [foldl_append, foldl_append, fairFrom_append]
    exact ⟨⟨hf, hr⟩, htracksAfter, hinAfter⟩
  obtain ⟨moved, ended, middle, hm, he, hwrites⟩ := h
  have hkeeps (hin' : InOrder ((journalWrites x.label.calls).foldl enlist order) x.after) :
      KeepsOrder coordinator x := by
    intro moved' ended' middle' hm' hd' hwrites'
    rw [hwrites'] at hin'
    exact (hdispatch hm' hd').2.2.1 hin'
  obtain ⟨rfl, hlast⟩ | ⟨-, hd⟩ := he
  · obtain ⟨hf, htracksMiddle, hinMiddle⟩ := hm.fair htr hin
    rw [append_nil] at hwrites
    rw [← hwrites] at hf htracksMiddle hinMiddle
    rw [← hlast] at htracksMiddle hinMiddle
    exact ⟨hf, htracksMiddle, hkeeps, fun _ => hinMiddle⟩
  · obtain ⟨hf, htracksAfter, hinAfter⟩ := hdispatch hm hd
    rw [← hwrites] at hf htracksAfter hinAfter
    exact ⟨hf, htracksAfter, hkeeps, fun h => hinAfter.2 (h _ _ _ hm hd hwrites)⟩

/-- After every operation the queue holds the waiting queries of every owner in the order of
acceptance, after writes already made. -/
def History.InOrderFrom (done : List JournalWrite) : History → Prop
  | [] => True
  | x :: history => InOrder (accepted (done ++ journalWrites x.label.calls)) x.after ∧
      InOrderFrom (done ++ journalWrites x.label.calls) history

instance decidableInOrderFrom (done : List JournalWrite) :
    (history : History) → Decidable (history.InOrderFrom done)
  | [] => inferInstanceAs (Decidable True)
  | x :: history =>
    have := decidableInOrderFrom (done ++ journalWrites x.label.calls) history
    inferInstanceAs (Decidable (_ ∧ _))

/-- **Run lemma.** -/
theorem fairFrom_history {history : History} (done : List JournalWrite)
    (run : Run (Step coordinator) state history after) (hwr : history.Written)
    (htr : Tracks coordinator (journaled done) (accepted done) state)
    (hin : InOrder (accepted done) state) :
    (history.InOrderFrom done ↔ ∀ x ∈ history, KeepsOrder coordinator x) ∧
      (history.InOrderFrom done → FairFrom (journaled done) (accepted done) history.writes) := by
  induction run generalizing done with
  | nil => exact ⟨⟨fun _ => by simp, fun _ => trivial⟩, fun _ => trivial⟩
  | @cons s m t invocation steps step _ ih =>
    obtain ⟨hh, htl⟩ := List.forall_mem_cons.1 hwr
    obtain ⟨hfr, htracksAfter, hkeeps⟩ :=
      fair_of_conducts (x := ⟨s, invocation, m⟩) (step.realized htr.coherent hh).1 htr hin
    have hr : (journalWrites invocation.calls).foldl apply (journaled done) =
        journaled (done ++ journalWrites invocation.calls) := (foldl_append ..).symm
    have ho : (journalWrites invocation.calls).foldl enlist (accepted done) =
        accepted (done ++ journalWrites invocation.calls) := (foldl_append ..).symm
    dsimp only at hfr htracksAfter hkeeps
    rw [hr, ho] at htracksAfter
    rw [ho] at hkeeps
    have ih' (hin' : InOrder (accepted (done ++ journalWrites invocation.calls)) m) :=
      ih _ htl htracksAfter hin'
    constructor
    · rw [List.forall_mem_cons, ← hkeeps, History.InOrderFrom]
      exact and_congr_right fun hin' => (ih' hin').1
    · rintro ⟨hin', hrest⟩
      show FairFrom _ _ (journalWrites invocation.calls ++ History.writes steps)
      rw [fairFrom_append, hr, ho]
      exact ⟨hfr, (ih' hin').2 hrest⟩

/-- **Fair admission.** In every history with successful journal writes, every operation that
dispatches leaves the running cap reached or every waiting query capped. The queue stays in the
order of acceptance for every owner exactly if no dispatch, from the state in which it starts, stops
at the running cap after it has moved a capped query behind one of the same owner; and then no query
is ever started while one of its owner that was accepted earlier still waits. -/
theorem fair_admission {history : History}
    (run : Run (Step coordinator) .default history state) (hwritten : history.Written) :
    (∀ x ∈ history, x.label.operation.Dispatches x.before x.label.result →
      Saturated coordinator.policy x.after) ∧
    (history.InOrderFrom [] ↔ ∀ x ∈ history, KeepsOrder coordinator x) ∧
    ((∀ x ∈ history, KeepsOrder coordinator x) → Fair history.writes) := by
  obtain ⟨hiff, hfair⟩ :=
    fairFrom_history [] run hwritten (tracks_default coordinator) List.Pairwise.nil
  refine ⟨fun x hx hd => ?_, hiff, fun hk => hfair (hiff.2 hk)⟩
  obtain ⟨past, _, rfl, hps, hs, -⟩ := run.split_of_mem hx
  have hpastWritten : History.Written past := fun y hy => hwritten y (by simp [hy])
  obtain ⟨-, hbef, -⟩ :=
    kept_of_history hps hpastWritten (coherent_default coordinator) mirrors_default
  have haf := (hs.realized hbef (hwritten x hx)).1.coherent hbef
  exact (hs.saturated hd).saturated haf

/-- Two queries run and two of the first owner wait; the other running query ends, then the first
owner's. -/
def waitingOperations : List CoordinatorOperation :=
  [.accept (sampleOperation 1 "a0") 10, .accept (sampleOperation 3 "c0") 20,
    .accept (sampleOperation 1 "a1") 30, .accept (sampleOperation 1 "a2") 40,
    .terminal (sampleQuery 3 "c0") .failed none none 50,
    .terminal (sampleQuery 1 "a0") .failed none none 60]

/-- The scan after the first end moves both waiting queries to the back and looks at every entry;
the scan after the second end starts the earlier of them. -/
theorem sample_fair :
    ((performed sampleCoordinator successful waitingOperations .default).2.queue =
      [sampleQuery 1 "a2"]) ∧
    Fair (History.writes
      (performed sampleCoordinator successful waitingOperations .default).1) := by
  obtain ⟨-, hiff, hfair⟩ := fair_admission
    (run_performed successful waitingOperations .default) (.performed _ _)
  exact ⟨by decide +kernel, hfair (hiff.1 (by decide +kernel))⟩

/-- Two queries run; a second and a third of the first owner wait with one of another owner between
them. The other running query ends, then the first owner's. -/
def overtakingOperations : List CoordinatorOperation :=
  [.accept (sampleOperation 1 "a0") 10, .accept (sampleOperation 3 "c0") 20,
    .accept (sampleOperation 1 "a1") 30, .accept (sampleOperation 2 "b1") 40,
    .accept (sampleOperation 1 "a2") 50,
    .terminal (sampleQuery 3 "c0") .failed none none 60,
    .terminal (sampleQuery 1 "a0") .failed none none 70]

/-- The scan after the first end moves the second query of the first owner behind the third and
stops at the running cap; the scan after the second end starts the third. -/
theorem later_query_overtakes :
    ¬Fair (History.writes (performed sampleCoordinator successful overtakingOperations
      .default).1) ∧
    ((performed sampleCoordinator successful overtakingOperations .default).2.handles[
      sampleQuery 1 "a1"]?).map QueryHandle.phase = some .queued ∧
    ((performed sampleCoordinator successful overtakingOperations .default).2.handles[
      sampleQuery 1 "a2"]?).map QueryHandle.phase = some .running := by
  decide +kernel

end CodeFabric.Query
