import CodeFabric.Query.Journal

/-! # The discipline of journal writes

What every single write of the coordinator does to the journal, seen from the journal alone: a
created query is new, a replaced record is one of the same query, and a deleted one has expired and
owns no objects.

* **`Sound`**: the journal mirrors some coherent state. **`Kept`**: it does so before and after each
  of a list of writes, all of which are **`Careful`**.
* **`kept_of_history`**: the writes of every history are kept; **`Kept.remembers`**: a record is not
  lost before it has expired. -/

namespace CodeFabric.Query

open CodeFabric.Command Fallible TreeMaps Procedures Interleaving Runs List

/-! ## Records of one query -/

/-- A later record of the same query: only its phase, its cancellation identities, its retention
and its events may differ. -/
def SameQuery (old new : DurableQueryRecord) : Prop :=
  { new with
    acceptance := { new.acceptance with phase := old.acceptance.phase }
    cancellationIds := old.cancellationIds
    resultRetention := old.resultRetention
    events := old.events } = old

theorem SameQuery.refl (record : DurableQueryRecord) : SameQuery record record := rfl

theorem SameQuery.lease {old new : DurableQueryRecord} (h : SameQuery old new) :
    new.acceptance.leaseExpiresAtUnixMs = old.acceptance.leaseExpiresAtUnixMs := by
  unfold SameQuery at h
  rw [← h]

theorem SameQuery.trans {first second third : DurableQueryRecord} (h : SameQuery first second)
    (h' : SameQuery second third) : SameQuery first third := by
  obtain ⟨⟨⟩⟩ := first
  obtain ⟨⟨⟩⟩ := second
  obtain ⟨⟨⟩⟩ := third
  simp only [SameQuery, DurableQueryRecord.mk.injEq, QueryAcceptance.mk.injEq] at h h' ⊢
  grind

theorem Follows.sameQuery {handle next : QueryHandle} (h : Follows handle next) :
    SameQuery (durableRecord handle) (durableRecord next) := by
  have hacc := h.acceptance
  unfold SameQuery durableRecord
  rw [h.operation, h.fingerprint]
  exact congrArg (fun acceptance => ({ durableRecord handle with acceptance } :
    DurableQueryRecord)) hacc

/-! ## Careful writes -/

/-- The objects of a query are gone: none was ever announced, or their deletion was
acknowledged. -/
def DurableQueryRecord.Unowned (record : DurableQueryRecord) : Prop :=
  cleanupObjectSet record.events = none ∨ record.resultRetention = .released

/-- What a write may do to the records, given the times at which queries were expired. -/
def JournalWrite.Careful (times : List Int) (records : Records) : JournalWrite → Prop
  | .create record => records[record.acceptance.queryId]? = none
  | .replace record => ∃ old, records[record.acceptance.queryId]? = some old ∧ SameQuery old record
  | .delete queryId => ∃ old, records[queryId]? = some old ∧ old.Unowned ∧
      ∃ time ∈ times, old.acceptance.leaseExpiresAtUnixMs ≤ time

open JournalWrite

/-- The journal mirrors some coherent state. -/
def Sound (coordinator : QueryCoordinator) (records : Records) : Prop :=
  ∃ state, Coherent coordinator state ∧ Mirrors records state

/-- The journal is sound before and after each of a list of writes, and each is careful. -/
def Kept (coordinator : QueryCoordinator) (times : List Int) : Records → List JournalWrite → Prop
  | records, [] => Sound coordinator records
  | records, write :: rest =>
    Sound coordinator records ∧ write.Careful times records ∧
      Kept coordinator times (write.apply records) rest

variable {coordinator : QueryCoordinator} {times times' : List Int} {records : Records}
  {writes writes' : List JournalWrite} {queryId : QueryId} {record : DurableQueryRecord}
  {state after : CoordinatorState}

section

variable (h : Kept coordinator times records writes)
include h

/-- Kept records are sound. -/
theorem Kept.sound : Sound coordinator records := by
  cases writes with
  | nil => exact h
  | cons => exact h.1

omit h in
theorem JournalWrite.Careful.mono {write : JournalWrite} (h : write.Careful times records)
    (htm : times ⊆ times') : write.Careful times' records := by
  cases write with
  | create | replace => exact h
  | delete =>
    obtain ⟨old, hold, hu, time, htime, hexp⟩ := h
    exact ⟨old, hold, hu, time, htm htime, hexp⟩

theorem Kept.mono (ht : times ⊆ times') : Kept coordinator times' records writes := by
  induction writes generalizing records with
  | nil => exact h
  | cons _ _ ih => exact ⟨h.1, h.2.1.mono ht, ih h.2.2⟩

omit h in
theorem kept_append : Kept coordinator times records (writes ++ writes') ↔
    Kept coordinator times records writes ∧
      Kept coordinator times (writes.foldl apply records) writes' := by
  induction writes generalizing records with
  | nil => exact ⟨fun h => ⟨h.sound, h⟩, And.right⟩
  | cons _ rest ih =>
    show _ ∧ _ ∧ Kept coordinator times _ (rest ++ writes') ↔ _
    rw [ih]
    exact ⟨fun ⟨hs, hw, hr, hl⟩ => ⟨⟨hs, hw, hr⟩, hl⟩, fun ⟨⟨hs, hw, hr⟩, hl⟩ => ⟨hs, hw, hr, hl⟩⟩

omit h in
/-- A careful write keeps the record of a query whose lease runs. -/
theorem JournalWrite.Careful.remembers {write : JournalWrite} (h : write.Careful times records)
    (hrec : records[queryId]? = some record)
    (hl : ∀ time ∈ times, time < record.acceptance.leaseExpiresAtUnixMs) :
    ∃ next, (write.apply records)[queryId]? = some next ∧ SameQuery record next := by
  cases write with
  | create new =>
    have hne : new.acceptance.queryId ≠ queryId := by
      rintro rfl
      exact Option.some_ne_none _ (hrec.symm.trans h)
    exact ⟨record, by rw [apply, getElem?_insert_eq, if_neg hne, hrec], .refl _⟩
  | replace new =>
    obtain ⟨old, hold, hs⟩ := h
    by_cases hid : new.acceptance.queryId = queryId
    · obtain rfl : old = record := by
        rw [hid, hrec] at hold
        exact (Option.some.inj hold).symm
      exact ⟨new, by rw [apply, getElem?_insert_eq, if_pos hid], hs⟩
    · exact ⟨record, by rw [apply, getElem?_insert_eq, if_neg hid, hrec], .refl _⟩
  | delete deleted =>
    obtain ⟨old, hold, -, time, ht, hexp⟩ := h
    have hne : deleted ≠ queryId := by
      rintro rfl
      obtain rfl : old = record := Option.some.inj (hold.symm.trans hrec)
      exact absurd hexp (not_le.2 (hl time ht))
    exact ⟨record, by rw [apply, getElem?_erase_eq, if_neg hne, hrec], .refl _⟩

/-- So do careful writes in sequence. -/
theorem Kept.remembers (hrec : records[queryId]? = some record)
    (hlv : ∀ time ∈ times, time < record.acceptance.leaseExpiresAtUnixMs) :
    ∃ last, (writes.foldl apply records)[queryId]? = some last ∧ SameQuery record last := by
  induction writes generalizing records record with
  | nil => exact ⟨record, hrec, .refl _⟩
  | cons _ _ ih =>
    obtain ⟨_, hn, hsm⟩ := h.2.1.remembers hrec hlv
    obtain ⟨last, hls, hs'⟩ := ih h.2.2 hn (by rwa [hsm.lease])
    exact ⟨last, hls, hsm.trans hs'⟩

/-- A created record is remembered until its lease ends. -/
theorem Kept.remembers_created (hcr : .create record ∈ writes)
    (hl : ∀ time ∈ times, time < record.acceptance.leaseExpiresAtUnixMs) :
    ∃ last, (writes.foldl apply records)[record.acceptance.queryId]? = some last ∧
      SameQuery record last := by
  obtain ⟨before, _, rfl⟩ := append_of_mem hcr
  have hr := (kept_append.1 h).2.2.2
  rw [foldl_append]
  have hnew : (apply (before.foldl apply records)
      (.create record))[record.acceptance.queryId]? = some record := by
    rw [apply, getElem?_insert_eq, if_pos rfl]
  exact hr.remembers hnew hl

end

/-! ## Changes are careful -/

/-- Among the writes of a change, the deleted queries have expired. -/
def Timely (times : List Int) (state : CoordinatorState) (writes : List JournalWrite) : Prop :=
  ∀ queryId, .delete queryId ∈ writes → (∀ record, .create record ∉ writes) ∧
    ∀ handle, state.handles[queryId]? = some handle →
      ∃ time ∈ times, handle.acceptance.leaseExpiresAtUnixMs ≤ time

theorem unowned_of_drop {handle : QueryHandle}
    (h : handle.resultRetention ≠ .cleanupPending ∧ ¬handle.stagesCleanup) :
    (durableRecord handle).Unowned := by
  obtain ⟨hp, hstg⟩ := h
  cases hret : handle.resultRetention with
  | reserved =>
    refine .inl (Option.not_isSome_iff_eq_none.1 fun ho => hstg ?_)
    have hevs : (cleanupObjectSet handle.events).isSome := ho
    rw [QueryHandle.stagesCleanup, hret, hevs]
    rfl
  | cleanupPending => exact absurd hret hp
  | released => exact .inr hret

theorem Mirrors.found {handle : QueryHandle} (h : Mirrors records state)
    (hfd : state.handles[queryId]? = some handle) :
    records[queryId]? = some (durableRecord handle) :=
  (h queryId).trans (congrArg _ hfd)

/-- The writes of a move are careful. -/
theorem Move.careful (move : Move coordinator state writes after) (hmir : Mirrors records state)
    (htim : Timely times state writes) : ∀ write ∈ writes, write.Careful times records := by
  cases move with
  | enroll valid _ totals =>
    intro write hw
    obtain rfl := List.mem_singleton.1 hw
    have hf := (admissionTotals_eq_ok totals).2.2.2.2.2.2
    exact (hmir _).trans (congrArg _ hf)
  | exchange found valid follows _ _ written =>
    obtain rfl | ⟨rfl, -⟩ := written
    · intro write hw
      obtain rfl := List.mem_singleton.1 hw
      refine ⟨_, hmir.found ?_, follows.sameQuery⟩
      rw [← found]
      exact congrArg (state.handles[·]?) valid.queryId_eq
    · exact nofun
  | drop found unowned =>
    intro write hw
    obtain rfl := List.mem_singleton.1 hw
    exact ⟨_, hmir.found found, unowned_of_drop unowned, (htim _ (mem_singleton_self _)).2 _ found⟩

section

variable (change : Change coordinator state writes after)
include change

theorem Change.careful (hs : Coherent coordinator state) (hmir : Mirrors records state)
    (htim : Timely times state writes) : ∀ write ∈ writes, write.Careful times records := by
  cases change with
  | move move => exact move.careful hmir htim
  | dispatch move =>
    cases move with
    | rotate queue found => exact nofun
    | start queue found queued =>
      intro write hw
      obtain rfl := List.mem_singleton.1 hw
      refine ⟨_, hmir.found ?_, (follows_start queued).sameQuery⟩
      rw [← found]
      exact congrArg (state.handles[·]?) (hs.handles _ _ found).queryId_eq

/-- **The journal mirrors the state** after every change. -/
theorem Change.mirrors (hs : Coherent coordinator state) (h : Mirrors records state) :
    Mirrors (writes.foldl apply records) after := by
  cases change with
  | move move => exact move.mirrors h
  | dispatch move => exact move.mirrors hs h

theorem Change.writes_eq : writes = [] ∨ ∃ write, writes = [write] := by
  cases change with
  | move move =>
    cases move with
    | enroll | drop => exact .inr ⟨_, rfl⟩
    | exchange _ _ _ _ _ written =>
      obtain rfl | ⟨rfl, -⟩ := written
      · exact .inr ⟨_, rfl⟩
      · exact .inl rfl
  | dispatch move =>
    cases move with
    | rotate => exact .inl rfl
    | start => exact .inr ⟨_, rfl⟩

theorem Change.timely {rest : List JournalWrite}
    (htim : Timely times state (writes ++ rest)) : Timely times after rest := by
  intro queryId hdel
  obtain ⟨hcr, hexp⟩ := htim queryId (mem_append_right _ hdel)
  refine ⟨fun record hrec => hcr record (mem_append_right _ hrec), ?_⟩
  intro _ hfd
  cases change with
  | move move =>
    cases move with
    | enroll => exact absurd (mem_append_left _ (mem_singleton_self _)) (hcr _)
    | exchange found _ follows =>
      rw [CoordinatorState.exchange, getElem?_insert_eq] at hfd
      split_ifs at hfd with hid
      · cases hfd
        have hls : (durableRecord _).acceptance.leaseExpiresAtUnixMs = _ :=
          follows.sameQuery.lease
        obtain ⟨time, htm, hle⟩ := hexp _ (hid ▸ found)
        exact ⟨time, htm, hls.le.trans hle⟩
      · exact hexp _ hfd
    | drop found =>
      rw [CoordinatorState.drop, getElem?_erase_eq] at hfd
      split_ifs at hfd with hid
      exact hexp _ hfd
  | dispatch move =>
    cases move with
    | rotate queue found => exact hexp _ hfd
    | start queue found =>
      change (state.handles.insert _ _)[queryId]? = _ at hfd
      rw [getElem?_insert_eq] at hfd
      split_ifs at hfd with hid
      · cases hfd
        obtain ⟨time, htm, hle⟩ := hexp _ (hid ▸ found)
        exact ⟨time, htm, hle⟩
      · exact hexp _ hfd

end

/-- The journal keeps its records through all changes. -/
theorem Changes.kept (changes : Changes coordinator state writes after)
    (hs : Coherent coordinator state) (hmir : Mirrors records state)
    (htim : Timely times state writes) : Kept coordinator times records writes ∧
      Mirrors (writes.foldl apply records) after := by
  obtain ⟨_, run, rfl⟩ := changes
  induction run generalizing records with
  | nil => exact ⟨⟨_, hs, hmir⟩, hmir⟩
  | @cons first _ _ label _ change run ih =>
    rw [flatMap_cons] at htim ⊢
    have hfst : Timely times first label := fun queryId hdel =>
      have h := htim queryId (mem_append_left _ hdel)
      ⟨fun record hrec => h.1 record (mem_append_left _ hrec), h.2⟩
    have hmid := change.mirrors hs hmir
    obtain ⟨hk, hl⟩ := ih (change.coherent hs) hmid (change.timely htim)
    rw [kept_append, foldl_append]
    refine ⟨⟨?_, hk⟩, hl⟩
    have hcar := change.careful hs hmir hfst
    obtain hn | ⟨write, hone⟩ := change.writes_eq
    · show Kept coordinator times records label
      rw [hn]
      exact ⟨_, hs, hmir⟩
    · show Kept coordinator times records label
      rw [hone] at hcar ⊢
      exact ⟨⟨_, hs, hmir⟩, hcar _ (mem_singleton_self _),
        ⟨_, change.coherent hs, by rwa [show label = [write] from hone] at hmid⟩⟩

/-! ## Which writes an operation makes -/

section

variable {α β : Type} {W : JournalWrite → Prop} {strict : Prop} {value : Except CoordinatorError α}
  (hrp : ∀ record, W (.replace record)) (policy : QueryCoordinatorPolicy)

/-- Every write of a procedure satisfies a condition. -/
def Writes (W : JournalWrite → Prop) (procedure : CoordinatorM α) : Prop :=
  ∀ state, wp procedure state fun calls _ _ => ∀ write ∈ journalWrites calls, W write

/-- Every write of a procedure satisfies a condition, and if `strict`, no error is of a task scope.
-/
def Limited (W : JournalWrite → Prop) (strict : Prop) (procedure : CoordinatorM α) : Prop :=
  ∀ state, wp procedure state fun calls result _ => (∀ write ∈ journalWrites calls, W write) ∧
    (strict → ∀ detail, result ≠ .error (.structuredTask detail))

theorem Limited.writesOnly {procedure : CoordinatorM α} (h : Limited W strict procedure) :
    Writes W procedure :=
  fun state => wp_mono (h state) fun _ _ _ h => h.1

protected theorem Limited.bind {first : CoordinatorM α} {next : α → CoordinatorM β}
    (h : Limited W strict first) (hn : ∀ value, Limited W strict (next value)) :
    Limited W strict (first >>= next) := by
  intro state
  refine wp_bind.2 (wp_mono (h state) ?_)
  rintro _ result middle ⟨hcl, hres⟩
  cases result with
  | error error => exact ⟨hcl, fun hs detail heq => hres hs detail (by rw [Except.error.inj heq])⟩
  | ok value =>
    refine afterwards_ok.2 (wp_mono (hn value middle) ?_)
    intro _ _ _ hc'
    refine ⟨fun write hw => ?_, hc'.2⟩
    rw [journalWrites_append] at hw
    exact (mem_append.1 hw).elim (hcl write) (hc'.1 write)

protected theorem Limited.pure (value : α) : Limited W strict (pure value) :=
  fun _ => wp_pure.2 ⟨nofun, fun _ => nofun⟩

protected theorem Limited.throw (error : CoordinatorError) :
    Limited W False (throw error : CoordinatorM α) :=
  fun _ => wp_throw.2 ⟨nofun, False.elim⟩

protected theorem Limited.check
    (h : ∀ detail, value ≠ .error (.structuredTask detail)) : Limited W strict (check value) :=
  fun _ => wp_check.2 ⟨nofun, fun _ => h⟩

protected theorem Limited.any (value : Except CoordinatorError α) : Limited W False (check value) :=
  fun _ => wp_check.2 ⟨nofun, False.elim⟩

protected theorem Limited.read : Limited W strict read := fun _ => wp_read.2 ⟨nofun, fun _ => nofun⟩

protected theorem Limited.update (f : CoordinatorState → CoordinatorState) :
    Limited W strict (update f) :=
  fun _ => wp_update.2 ⟨nofun, fun _ => nofun⟩

protected theorem Limited.journal {entry : JournalWrite} (h : W entry) :
    Limited W strict (journal entry) := by
  refine fun _ => wp_effect.2 fun _ => ⟨fun _ hw => ?_, fun _ => nofun⟩
  obtain rfl := mem_singleton.1 hw
  exact h

protected theorem Limited.write {entry : JournalWrite} (h : W entry) :
    Limited W strict (write entry) := by
  refine .bind (.journal h) fun answer => .check fun _ => ?_
  cases answer with
  | error failure => cases failure <;> rintro ⟨⟩
  | ok => rintro ⟨⟩

protected theorem Limited.childScope (queryId : QueryId) : Limited W False (childScope queryId) :=
  .bind (fun _ => wp_effect.2 fun _ => ⟨nofun, False.elim⟩) fun _ => .any _

protected theorem Limited.reserve (bytes : Nat) : Limited W False (reserve bytes) :=
  .bind (fun _ => wp_effect.2 fun _ => ⟨fun _ h => absurd h not_mem_nil, False.elim⟩) fun _ =>
    .any _

protected theorem Limited.joinScope (queryId : QueryId) : Limited W False (joinScope queryId) :=
  .bind (fun _ => wp_effect.2 fun _ => ⟨nofun, False.elim⟩) fun _ => .any _

theorem okOr_taskless {value : Option α} {error : CoordinatorError}
    (h : ∀ detail, error ≠ .structuredTask detail) (detail : String) :
    okOr value error ≠ .error (.structuredTask detail) := by
  cases value with
  | none => exact fun heq => h detail (Except.error.inj heq)
  | some => exact nofun

theorem bind_taskless {first : Except CoordinatorError α} {next : α → Except CoordinatorError β}
    {detail : String} (hfst : first ≠ .error (.structuredTask detail))
    (hn : ∀ value, next value ≠ .error (.structuredTask detail)) :
    first >>= next ≠ .error (.structuredTask detail) := by
  cases first with
  | error error => exact fun heq => hfst (by rw [Except.error.inj heq])
  | ok value => exact hn value

theorem decrementScope_taskless {κ : Type} [Ord κ] [Std.TransOrd κ]
    {values : Std.ExtTreeMap κ Nat} {key : κ} (detail : String) :
    decrementScope values key ≠ .error (.structuredTask detail) :=
  bind_taskless (okOr_taskless (by nofun) detail) fun _ =>
    bind_taskless (okOr_taskless (by nofun) detail) fun _ => nofun

theorem closedHandle_taskless {handle : QueryHandle} {ending : QueryTerminalState}
    {publicCode : Option String} {observedAt : Int} (detail : String) :
    closedHandle coordinator handle ending publicCode observedAt ≠
      .error (.structuredTask detail) := by
  refine bind_taskless ?_ fun _ => bind_taskless (okOr_taskless (by nofun) detail) fun _ =>
    bind_taskless ?_ fun _ => nofun
  · unfold nextSequence
    split
    · exact nofun
    · exact okOr_taskless (by nofun) detail
  · unfold ensure
    split <;> exact nofun

/-- A procedure that calls nothing and leaves the queries alone, with no error of a task scope. -/
def Tally (procedure : CoordinatorM α) : Prop :=
  ∀ state, wp procedure state fun calls result after => calls = [] ∧
    after.handles = state.handles ∧ ∀ detail, result ≠ .error (.structuredTask detail)

protected theorem Limited.counts {procedure : CoordinatorM α} (h : Tally procedure) :
    Limited W strict procedure := by
  refine fun state => wp_mono (h state) ?_
  rintro _ _ _ ⟨rfl, -, hres⟩
  exact ⟨nofun, fun _ => hres⟩

protected theorem Tally.pure {value : α} : Tally (pure value) := fun _ => ⟨rfl, rfl, nofun⟩

protected theorem Tally.check
    (h : ∀ detail, value ≠ .error (.structuredTask detail)) : Tally (check value) :=
  fun _ => ⟨rfl, rfl, h⟩

protected theorem Tally.read : Tally read := fun _ => ⟨rfl, rfl, nofun⟩

protected theorem Tally.update {f : CoordinatorState → CoordinatorState}
    (h : ∀ state, (f state).handles = state.handles) : Tally (update f) :=
  fun state => ⟨rfl, h state, nofun⟩

protected theorem Tally.bind {first : CoordinatorM α} {next : α → CoordinatorM β}
    (hfst : Tally first) (hn : ∀ value, Tally (next value)) : Tally (first >>= next) := by
  intro state
  rw [wp_bind]
  refine wp_mono (hfst state) ?_
  rintro _ result middle ⟨rfl, hmid, hres⟩
  cases result with
  | error error => exact ⟨rfl, hmid, fun detail heq => hres detail (by rw [Except.error.inj heq])⟩
  | ok value =>
    rw [afterwards_ok]
    exact wp_mono (hn value middle) fun _ _ _ h => ⟨h.1, h.2.1.trans hmid, h.2.2⟩

protected theorem Tally.releaseRunning (workspace : WorkspaceId) (principal : PrincipalId) :
    Tally (releaseRunning workspace principal) :=
  .bind .read fun _ => .bind (.check (okOr_taskless (by nofun))) fun _ =>
    .bind (.update fun _ => rfl) fun _ => .bind (.check decrementScope_taskless) fun _ =>
    .bind (.update fun _ => rfl) fun _ => .bind (.check decrementScope_taskless) fun _ =>
    .update fun _ => rfl

protected theorem Tally.releaseHeld (handle : QueryHandle) (release : Bool) :
    Tally (releaseHeld handle release) := by
  unfold releaseHeld
  split
  · exact .bind .read fun _ => .bind (.check (okOr_taskless (by nofun))) fun _ =>
      .bind (.update fun _ => rfl) fun _ => .bind (.check (okOr_taskless (by nofun))) fun _ =>
      .update fun _ => rfl
  · exact .pure

protected theorem Tally.releaseLiveSlot (queryId : QueryId) (handle : QueryHandle) :
    Tally (releaseLiveSlot queryId handle) := by
  unfold releaseLiveSlot
  split_ifs
  · exact .releaseRunning _ _
  · exact .update fun _ => rfl
  · exact .pure

protected theorem Tally.releaseIfRunning (handle : QueryHandle) :
    Tally (releaseIfRunning handle) := by
  unfold releaseIfRunning
  split
  · exact .releaseRunning _ _
  · exact .pure

protected theorem Tally.releaseClosed (queryId : QueryId) (handle : QueryHandle)
    (release : Bool) : Tally (releaseClosed queryId handle release) := by
  refine .bind ?_ fun _ => .bind (.releaseHeld _ _) fun _ => .update fun _ => rfl
  unfold releaseSlot
  split
  · exact .releaseRunning _ _
  · exact .update fun _ => rfl

protected theorem Tally.releaseQueued (queryId : QueryId) (handle : QueryHandle) :
    Tally (releaseQueued queryId handle) :=
  .bind (.update fun _ => rfl) fun _ => .bind (.releaseHeld _ _) fun _ => .update fun _ => rfl

protected theorem Limited.joinScopes (queries : List QueryId) :
    Limited W False (joinScopes queries) := by
  induction queries with
  | nil => exact .pure _
  | cons _ _ ih => exact .bind (.joinScope _) fun _ => ih

include hrp

protected theorem Limited.dispatchScan (attempts : Nat) :
    Limited W strict (dispatchScan policy attempts) := by
  induction attempts with
  | zero => exact .pure _
  | succ attempts ih =>
    refine .bind .read fun _ => ?_
    split
    · split
      · exact .pure _
      · refine .bind (.update _) fun _ => .bind (.check (okOr_taskless (by nofun))) fun _ => ?_
        split_ifs
        · exact ih
        · exact .bind (.update _) fun _ => ih
        · exact .bind (.update _) fun _ => .bind (.update _) fun _ =>
            .bind (.write (hrp _)) fun _ => ih
    · exact .pure _

protected theorem Limited.dispatchLocked : Limited W strict (dispatchLocked policy) :=
  .bind .read fun _ => .dispatchScan hrp _ _

protected theorem Limited.terminal (queryId : QueryId) (ending : QueryTerminalState)
    (publicCode : Option String) (actualResult : Option (Nat × Nat)) (observedAt : Int) :
    Limited W False (terminal coordinator queryId ending publicCode actualResult observedAt) :=
  .bind .read fun _ => .bind (.any _) fun _ => .bind (.any _) fun _ => .bind (.update _) fun _ =>
    .bind (.write (hrp _)) fun _ =>
    .bind (.counts (.releaseClosed _ _ _)) fun _ =>
    .bind (.dispatchLocked hrp _) fun _ => .pure _

protected theorem Limited.appendEvent (queryId : QueryId) (payload : QueryControlEventPayload)
    (observedAt : Int) (cleanupPrecondition : Option PendingResultObjectSet) :
    Limited W False (appendEventWithCleanupPrecondition coordinator queryId payload observedAt
      cleanupPrecondition) :=
  .bind (.any _) fun _ => .bind (.any _) fun _ => .bind (.any _) fun _ => .bind .read fun _ =>
    .bind (.any _) fun _ => .bind (.any _) fun _ =>
    .bind (.any _) fun _ => .bind (.any _) fun _ =>
    .bind (.update _) fun _ => .bind (.write (hrp _)) fun _ =>
    .pure _

protected theorem Limited.cancel (queryId : QueryId) (observedAt : Int) :
    Limited W False (cancel coordinator queryId observedAt) := by
  refine .bind (.bind .read fun _ => .bind (.any _) fun _ =>
    .bind (.update _) fun _ => .pure _) fun _ => ?_
  split
  · exact .bind (.terminal hrp _ _ _ _ _) fun _ => .pure _
  · exact .pure _

protected theorem Limited.cancelQueued (queryId : QueryId) (handle : QueryHandle)
    (cancellationId : String)
    (observedAt : Int) :
    Limited W False (cancelQueued coordinator queryId handle cancellationId observedAt) := by
  refine .bind (.any _) fun _ => .bind (.update _) fun _ =>
    .bind (.journal (hrp _)) fun answer => ?_
  cases answer with
  | error => exact .bind (.update _) fun _ => .throw _
  | ok =>
    exact .bind (.update _) fun _ => .bind (.counts (.releaseQueued _ _)) fun _ =>
      .bind (.dispatchLocked hrp _) fun _ => .pure _

protected theorem Limited.rememberCancellation (queryId : QueryId) (handle : QueryHandle)
    (cancellationId : String) :
    Limited W False (rememberCancellation queryId handle cancellationId) := by
  refine .bind (.update _) fun _ => .bind (.journal (hrp _)) fun answer => ?_
  cases answer with
  | error => exact .bind (.update _) fun _ => .throw _
  | ok => exact .bind (.update _) fun _ => .pure _

protected theorem Limited.cancelIdempotent (queryId : QueryId) (cancellationId : String)
    (observedAt : Int) :
    Limited W False (cancelIdempotent coordinator queryId cancellationId observedAt) := by
  refine .bind (.any _) fun _ => .bind .read fun _ => .bind (.any _) fun _ => ?_
  split
  · exact .pure _
  · refine .bind (.any _) fun _ => ?_
    split
    · exact .cancelQueued hrp _ _ _ _
    · exact .rememberCancellation hrp _ _ _

protected theorem Limited.releaseResult (queryId : QueryId) :
    Limited W False (releaseResult queryId) := by
  refine .bind .read fun _ => .bind (.any _) fun _ => .bind (.any _) fun _ => ?_
  split
  · exact .pure _
  · refine .bind (.update _) fun _ => .bind (.journal (hrp _)) fun answer => ?_
    cases answer with
    | error => exact .bind (.update _) fun _ => .throw _
    | ok => exact .counts (.releaseHeld _ _)

protected theorem Limited.markResultCleanupComplete (queryId : QueryId) :
    Limited W False (markResultCleanupComplete queryId) := by
  refine .bind .read fun _ => .bind (.any _) fun _ => ?_
  split
  · exact .pure _
  · exact .throw _
  · refine .bind (.update _) fun _ => .bind (.journal (hrp _)) fun answer => ?_
    cases answer with
    | error => exact .bind (.update _) fun _ => .throw _
    | ok => exact .pure _

protected theorem Limited.expireQuery {queryId : QueryId} (hdel : W (.delete queryId))
    (observedAt : Int) : Limited W strict (expireQuery coordinator queryId observedAt) := by
  refine .bind .read fun _ => .bind (.check (okOr_taskless (by nofun))) fun _ => ?_
  split
  · refine .bind (.check fun detail => ?_) fun _ => .bind (.update _) fun _ =>
      .bind (.write (hrp _)) fun _ => .bind (.counts (.releaseLiveSlot _ _)) fun _ =>
        .bind (.update _) fun _ =>
      .bind (.counts (.releaseHeld _ _)) fun _ => .update _
    unfold stagedHandle
    split
    · exact nofun
    · exact bind_taskless (closedHandle_taskless detail) fun _ => nofun
  · exact .bind (.update _) fun _ => .bind (.update _) fun _ =>
    .bind (.counts (.releaseIfRunning _)) fun _ =>
      .bind (.counts (.releaseHeld _ _)) fun _ => .bind (.update _) fun _ =>
      .bind (.update _) fun _ => .write hdel

protected theorem Limited.expireQueries {queries : List QueryId}
    (hdel : ∀ id ∈ queries, W (.delete id))
    (observedAt : Int) : Limited W strict (expireQueries coordinator observedAt queries) := by
  induction queries with
  | nil => exact .pure _
  | cons _ _ ih =>
    obtain ⟨hh, hrs⟩ := List.forall_mem_cons.1 hdel
    exact .bind (.expireQuery hrp hh observedAt) fun _ => ih hrs

protected theorem Limited.accept (hcr : ∀ record, W (.create record))
    (operation : NormalizedQueryOperation) (observedAt : Int) :
    Limited W False (accept coordinator operation observedAt) := by
  refine .bind (.any _) fun _ => .bind (.any _) fun _ => .bind .read fun _ => ?_
  split
  · exact .bind (.any _) fun _ => .bind (.any _) fun _ => .pure _
  · exact .bind (.any _) fun _ => .bind (.childScope _) fun _ =>
      .bind (.any _) fun _ => .bind (.reserve _) fun _ =>
      .bind (.write (hcr _)) fun _ => .bind (.update _) fun _ =>
      .bind (.dispatchLocked hrp _) fun _ => .bind .read fun _ =>
      .bind (.any _) fun _ => .pure _

end

/-! ## Histories are kept -/

def CoordinatorOperation.expires : CoordinatorOperation → Option Int
  | .collectExpired observedAt => some observedAt
  | _ => none

def JournalWrite.IsKeeping : JournalWrite → Prop
  | .create _ | .replace _ => True
  | .delete _ => False

/-- A write of an expiry: no creation, and deletions of given queries only. -/
def JournalWrite.IsExpiring (queries : List QueryId) : JournalWrite → Prop
  | .create _ => False
  | .replace _ => True
  | .delete queryId => queryId ∈ queries

/-- An operation without a clock deletes nothing. -/
protected theorem Writes.operation (operation : CoordinatorOperation)
    (h : operation.expires = none) :
    Writes JournalWrite.IsKeeping (operation.procedure coordinator) := by
  have hrp : ∀ record, JournalWrite.IsKeeping (.replace record) := fun _ => trivial
  suffices h : Limited JournalWrite.IsKeeping False
    (operation.procedure coordinator) from h.writesOnly
  cases operation with
  | accept operation observedAt =>
    exact .bind (.accept hrp (fun _ => trivial) _ _) fun _ => .pure _
  | appendEvent queryId _ observedAt =>
    exact .bind (.appendEvent hrp _ _ _ _) fun _ => .pure _
  | reconcilePublication queryId _ _ observedAt =>
    exact .bind (.appendEvent hrp _ _ _ _) fun _ => .pure _
  | terminal queryId _ _ _ observedAt =>
    exact .bind (.terminal hrp _ _ _ _ _) fun _ => .pure _
  | signal queryId =>
    exact .bind (.bind .read fun _ => .bind (.any _) fun _ =>
      .bind (.update _) fun _ => .pure _) fun _ => .pure _
  | cancel queryId observedAt =>
    exact .bind (.cancel hrp _ _) fun _ => .pure _
  | cancelIdempotent queryId _ observedAt =>
    exact .bind (.cancelIdempotent hrp _ _ _) fun _ => .pure _
  | releaseResult queryId =>
    exact .bind (.releaseResult hrp _) fun _ => .pure _
  | markResultCleanupComplete queryId =>
    exact .bind (.markResultCleanupComplete hrp _) fun _ => .pure _
  | collectExpired observedAt => exact absurd h nofun

theorem wp_collectExpired_writes (time : Int) :
    wp ((CoordinatorOperation.collectExpired time).procedure coordinator) state
      fun calls _ _ => ∀ write ∈ journalWrites calls,
        write.IsExpiring (expiredQueries state time) := by
  have hrp : ∀ record, JournalWrite.IsExpiring (expiredQueries state time)
      (.replace record) := fun _ => trivial
  have he : Limited (JournalWrite.IsExpiring (expiredQueries state time)) False
      (expireQueries coordinator time (expiredQueries state time)) :=
    .expireQueries hrp (fun _ h => h) time
  have hrs := Limited.bind he fun _ => .bind (.dispatchLocked hrp coordinator.policy) fun _ =>
    .bind (.joinScopes (expiredQueries state time)) fun _ =>
    .pure (expiredQueries state time).length
  have hcol : wp (collectExpired coordinator time) state fun calls _ _ =>
      ∀ write ∈ journalWrites calls, write.IsExpiring (expiredQueries state time) := by
    rw [collectExpired, wp_read_bind]
    exact hrs.writesOnly state
  refine wp_bind.2 (wp_mono hcol ?_)
  intro calls result _ hcl
  cases result with
  | error error => exact hcl
  | ok =>
    refine afterwards_ok.2 (wp_pure.2 ?_)
    rwa [append_nil]

/-- A step deletes only what its clock lets expire. -/
theorem Step.timely {invocation : Invocation} (step : Step coordinator state invocation after) :
    Timely invocation.operation.expires.toList state (journalWrites invocation.calls) := by
  intro queryId hdel
  cases hexp : invocation.operation.expires with
  | none => exact ((yields_of_wp (Writes.operation _ hexp state) step) _ hdel).elim
  | some observedAt =>
    obtain ⟨operation, _⟩ := invocation
    cases operation with
    | collectExpired time =>
      obtain rfl : time = observedAt := Option.some.inj hexp
      have hwrs := yields_of_wp (wp_collectExpired_writes time) step
      have hexpir : queryId ∈ expiredQueries state time := hwrs _ hdel
      refine ⟨fun _ hcr => hwrs _ hcr, fun handle hfd => ?_⟩
      refine ⟨time, mem_singleton_self _, ?_⟩
      obtain ⟨⟨_, entry⟩, hen, rfl⟩ := List.mem_map.1 hexpir
      obtain ⟨hmem, hl⟩ := List.mem_filter.1 hen
      rw [Std.ExtTreeMap.mem_toList_iff_getElem?_eq_some] at hmem
      obtain rfl : entry = handle := Option.some.inj (hmem.symm.trans hfd)
      exact of_decide_eq_true (Bool.and_eq_true_iff.1 hl).1
    | _ => exact absurd hexp nofun

def History.expiries (history : History) : List Int :=
  history.flatMap fun x => x.label.operation.expires.toList

/-- **Run lemma**: a history whose writes succeed keeps the journal. -/
theorem kept_of_history {history : History} (run : Run (Step coordinator) state history after)
    (hwr : history.Written) (hs : Coherent coordinator state) (hmir : Mirrors records state) :
    Kept coordinator history.expiries records history.writes ∧ Coherent coordinator after ∧
      Mirrors (history.writes.foldl apply records) after := by
  induction run generalizing records with
  | nil => exact ⟨⟨_, hs, hmir⟩, hs, hmir⟩
  | @cons _ _ _ _ _ step run ih =>
    obtain ⟨hh, ht⟩ := List.forall_mem_cons.1 hwr
    obtain ⟨hcon, -⟩ := step.realized hs hh
    obtain ⟨hk, hmid⟩ := hcon.changes.kept hs hmir step.timely
    obtain ⟨hr, hl⟩ := ih ht (hcon.coherent hs) hmid
    rw [History.writes, flatMap_cons, kept_append, foldl_append]
    refine ⟨⟨hk.mono ?_, hr.mono ?_⟩, hl⟩
    · exact subset_append_left _ _
    · exact subset_append_right _ _

end CodeFabric.Query
