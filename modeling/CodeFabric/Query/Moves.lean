import CodeFabric.Query.Accounting

/-! # Operations as moves

With every journal write answered by success, an operation of the coordinator takes a coherent
state along a list of moves, and perhaps through one dispatch at its end, that make exactly its
journal writes. It never reports the internal state error.

**`Moves`** are the runs of `Move` with the journal writes they make, **`Dispatch`** a whole
dispatch, and **`Changes`** the runs of both kinds of elementary changes. -/

namespace CodeFabric.Query

open CodeFabric.Command Fallible TreeMaps Procedures Interleaving Runs List

/-! ## Journal writes of a list of calls -/

abbrev Calls := List (Call Effect Response)

def journalEntry : Call Effect Response → Option (JournalWrite × Except JournalError Unit)
  | ⟨.journal entry, answer⟩ => some (entry, answer)
  | ⟨.childScope _, _⟩ | ⟨.reserve _, _⟩ | ⟨.joinScope _, _⟩ => none

/-- The journal writes of a list of calls, with their answers. -/
def journalEntries (calls : Calls) : List (JournalWrite × Except JournalError Unit) :=
  calls.filterMap journalEntry

def journalWrites (calls : Calls) : List JournalWrite := (journalEntries calls).map Prod.fst

/-- Every journal write succeeded. -/
def Written (calls : Calls) : Prop := ∀ entry ∈ journalEntries calls, entry.2 = .ok ()

@[simp] protected theorem Written.nil : Written [] := by simp [Written, journalEntries]

variable {calls : Calls} {entry : JournalWrite} {queryId : QueryId} {calls' : Calls}
  {coordinator : QueryCoordinator}

@[simp] protected theorem Written.journal {answer : Except JournalError Unit} :
    Written (⟨.journal entry, answer⟩ :: calls) ↔ answer = .ok () ∧ Written calls := by
  simp [Written, journalEntries, journalEntry]

@[simp] protected theorem Written.childScope {answer : Response (.childScope queryId)} :
    Written (⟨.childScope queryId, answer⟩ :: calls) ↔ Written calls := by
  simp [Written, journalEntries, journalEntry]

@[simp] protected theorem Written.reserve {bytes : Nat} {answer : Response (.reserve bytes)} :
    Written (⟨.reserve bytes, answer⟩ :: calls) ↔ Written calls := by
  simp [Written, journalEntries, journalEntry]

@[simp] protected theorem Written.joinScope {answer : Response (.joinScope queryId)} :
    Written (⟨.joinScope queryId, answer⟩ :: calls) ↔ Written calls := by
  simp [Written, journalEntries, journalEntry]

@[simp] protected theorem Written.append :
    Written (calls ++ calls') ↔ Written calls ∧ Written calls' := by
  simp [Written, journalEntries, or_imp, forall_and]

@[simp] theorem journalWrites_append :
    journalWrites (calls ++ calls') = journalWrites calls ++ journalWrites calls' := by
  simp [journalWrites, journalEntries]

/-! ## Preconditions of the effects -/

section

variable {α : Type} {state : CoordinatorState}
  {Q : Calls → Except CoordinatorError α → CoordinatorState → Prop}

theorem wp_journal_bind {next : Except JournalError Unit → CoordinatorM α} :
    wp (journal entry >>= next) state Q ↔ ∀ answer : Except JournalError Unit,
      wp (next answer) state fun calls => Q (⟨.journal entry, answer⟩ :: calls) :=
  wp_effect_bind

theorem forall_answer {ε : Type} {P : Except ε Unit → Prop} :
    (∀ answer, P answer) ↔ (∀ error, P (.error error)) ∧ P (.ok ()) :=
  ⟨fun h => ⟨fun _ => h _, h _⟩, fun h answer => answer.casesOn h.1 fun _ => h.2⟩

variable {next : Unit → CoordinatorM α}

theorem wp_write_bind : wp (write entry >>= next) state Q ↔ (∀ failure : JournalError,
      Q [⟨.journal entry, .error failure⟩] (.error failure.report) state) ∧
    wp (next ()) state fun calls => Q (⟨.journal entry, .ok ()⟩ :: calls) := by
  rw [write, wp_bind, wp_journal_bind]
  exact forall_answer

theorem wp_childScope_bind : wp (childScope queryId >>= next) state Q ↔ (∀ detail : String,
      Q [⟨.childScope queryId, Except.error detail⟩] (.error (.structuredTask detail)) state) ∧
    wp (next ()) state fun calls => Q (⟨.childScope queryId, Except.ok ()⟩ :: calls) := by
  rw [childScope, wp_bind]
  exact forall_answer

theorem wp_reserve_bind {bytes : Nat} : wp (reserve bytes >>= next) state Q ↔
    (∀ error : Budget.ResourceBudgetError,
      Q [⟨.reserve bytes, Except.error error⟩] (.error (.resource error)) state) ∧
    wp (next ()) state fun calls => Q (⟨.reserve bytes, Except.ok ()⟩ :: calls) := by
  rw [reserve, wp_bind]
  exact forall_answer

theorem wp_joinScope_bind : wp (joinScope queryId >>= next) state Q ↔ (∀ detail : String,
      Q [⟨.joinScope queryId, Except.error detail⟩] (.error (.structuredTask detail)) state) ∧
    wp (next ()) state fun calls => Q (⟨.joinScope queryId, Except.ok ()⟩ :: calls) := by
  rw [joinScope, wp_bind]
  exact forall_answer

end

/-! ## Runs of moves -/

/-- The runs of moves from one state to another, with the journal writes they make. -/
def Moves (coordinator : QueryCoordinator) (state : CoordinatorState)
    (entries : List JournalWrite) (after : CoordinatorState) : Prop :=
  ∃ steps, Run (Move coordinator) state steps after ∧ steps.flatMap Transition.label = entries

variable {state middle after : CoordinatorState} {entries entries' : List JournalWrite}
  {dispatches : Bool}

theorem Moves.refl (state : CoordinatorState) : Moves coordinator state [] state :=
  ⟨[], .nil _, rfl⟩

theorem Moves.head (move : Move coordinator state entries middle)
    (rest : Moves coordinator middle entries' after) :
    Moves coordinator state (entries ++ entries') after := by
  obtain ⟨_, run, rfl⟩ := rest
  exact ⟨_, .cons move run, rfl⟩

theorem Moves.single (move : Move coordinator state entries after) :
    Moves coordinator state entries after := by
  simpa using Moves.head move (.refl after)

theorem Moves.trans (first : Moves coordinator state entries middle)
    (rest : Moves coordinator middle entries' after) :
    Moves coordinator state (entries ++ entries') after := by
  obtain ⟨_, run, rfl⟩ := first
  induction run with
  | nil => exact rest
  | cons step _ ih =>
    rw [flatMap_cons, append_assoc]
    exact .head step (ih rest)

/-- Moves keep the state coherent. -/
theorem Moves.coherent (moves : Moves coordinator state entries after)
    (hs : Coherent coordinator state) : Coherent coordinator after := by
  obtain ⟨_, run, -⟩ := moves
  exact run.invariant (fun _ _ _ move => move.coherent) hs

/-! ## Dispatch -/

/-- The scan of a dispatch over at most a number of queue entries: it goes on while a slot is free
and an entry is left. -/
inductive Scan (coordinator : QueryCoordinator) :
    Nat → CoordinatorState → List JournalWrite → CoordinatorState → Prop
  | stop {attempts : Nat} {state : CoordinatorState}
      (h : attempts = 0 ∨ coordinator.policy.maxRunning ≤ state.running ∨ state.queue = []) :
      Scan coordinator attempts state [] state
  | step {attempts : Nat} {state middle after : CoordinatorState}
      {entries entries' : List JournalWrite}
      (free : state.running < coordinator.policy.maxRunning)
      (move : DispatchMove coordinator state entries middle)
      (rest : Scan coordinator attempts middle entries' after) :
      Scan coordinator (attempts + 1) state (entries ++ entries') after

/-- A whole dispatch looks at every entry of the queue at most once. -/
def Dispatch (coordinator : QueryCoordinator) (state : CoordinatorState)
    (entries : List JournalWrite) (after : CoordinatorState) : Prop :=
  Scan coordinator state.queue.length state entries after

/-- A scan keeps the state coherent. -/
theorem Scan.coherent {attempts : Nat} (scan : Scan coordinator attempts state entries after)
    (hs : Coherent coordinator state) : Coherent coordinator after := by
  induction scan with
  | stop => exact hs
  | step _ move _ ih => exact ih (move.coherent hs)

/-- The runs of elementary changes from one state to another, with the journal writes they make. -/
def Changes (coordinator : QueryCoordinator) (state : CoordinatorState)
    (entries : List JournalWrite) (after : CoordinatorState) : Prop :=
  ∃ steps, Run (Change coordinator) state steps after ∧ steps.flatMap Transition.label = entries

theorem Changes.refl (state : CoordinatorState) : Changes coordinator state [] state :=
  ⟨[], .nil _, rfl⟩

theorem Changes.head (change : Change coordinator state entries middle)
    (rest : Changes coordinator middle entries' after) :
    Changes coordinator state (entries ++ entries') after := by
  obtain ⟨_, run, rfl⟩ := rest
  exact ⟨_, .cons change run, rfl⟩

theorem Changes.trans (first : Changes coordinator state entries middle)
    (rest : Changes coordinator middle entries' after) :
    Changes coordinator state (entries ++ entries') after := by
  obtain ⟨steps, run, rfl⟩ := first
  obtain ⟨later, hl, rfl⟩ := rest
  exact ⟨steps ++ later, run.append hl, flatMap_append⟩

theorem Moves.changes (moves : Moves coordinator state entries after) :
    Changes coordinator state entries after := by
  obtain ⟨_, run, rfl⟩ := moves
  induction run with
  | nil => exact .refl _
  | cons step _ ih => exact .head (.move step) ih

theorem Scan.changes {attempts : Nat} (scan : Scan coordinator attempts state entries after) :
    Changes coordinator state entries after := by
  induction scan with
  | stop => exact .refl _
  | step _ move _ ih => exact .head (.dispatch move) ih

/-! ## The specification of an operation -/

/-- How an operation ends: where its moves left it, or, if it dispatches, after a dispatch. -/
def Ending (coordinator : QueryCoordinator) (dispatches : Bool) (state : CoordinatorState)
    (entries : List JournalWrite) (after : CoordinatorState) : Prop :=
  (entries = [] ∧ after = state) ∨ (dispatches = true ∧ Dispatch coordinator state entries after)

/-- The end of an operation keeps the state coherent. -/
theorem Ending.coherent {dispatches : Bool}
    (h : Ending coordinator dispatches state entries after) (hs : Coherent coordinator state) :
    Coherent coordinator after := by
  obtain ⟨-, rfl⟩ | ⟨-, hd⟩ := h
  · exact hs
  · exact hd.coherent hs

/-- The moves of an operation and its ending, with the writes of both. -/
def Conducts (coordinator : QueryCoordinator) (dispatches : Bool) (state : CoordinatorState)
    (entries : List JournalWrite) (after : CoordinatorState) : Prop :=
  ∃ moved ended middle, Moves coordinator state moved middle ∧
    Ending coordinator dispatches middle ended after ∧ entries = moved ++ ended

theorem Moves.conducts (moves : Moves coordinator state entries after) :
    Conducts coordinator dispatches state entries after :=
  ⟨entries, [], after, moves, .inl ⟨rfl, rfl⟩, (append_nil _).symm⟩

theorem Moves.trans_conducts (moves : Moves coordinator state entries middle)
    (rest : Conducts coordinator dispatches middle entries' after) :
    Conducts coordinator dispatches state (entries ++ entries') after := by
  obtain ⟨moved, ended, last, hm, he, rfl⟩ := rest
  exact ⟨entries ++ moved, ended, last, moves.trans hm, he, (append_assoc ..).symm⟩

section

variable (h : Conducts coordinator dispatches state entries after)
include h

/-- An operation keeps the state coherent. -/
theorem Conducts.coherent (hs : Coherent coordinator state) : Coherent coordinator after := by
  obtain ⟨_, _, _, hm, he, -⟩ := h
  exact he.coherent (hm.coherent hs)

theorem Conducts.changes : Changes coordinator state entries after := by
  obtain ⟨_, _, _, hm, ⟨rfl, rfl⟩ | ⟨-, hd⟩, rfl⟩ := h
  · exact hm.changes.trans (.refl _)
  · exact hm.changes.trans hd.changes

omit h in
/-- An operation without a dispatch is made of moves. -/
theorem Conducts.moves (h : Conducts coordinator false state entries after) :
    Moves coordinator state entries after := by
  obtain ⟨_, _, _, hm, ⟨rfl, rfl⟩ | ⟨hf, -⟩, rfl⟩ := h
  · rw [append_nil]
    exact hm
  · exact absurd hf nofun

theorem Conducts.weaken : Conducts coordinator true state entries after := by
  obtain ⟨moved, ended, middle, hm, hs | ⟨-, hd⟩, he⟩ := h
  · exact ⟨moved, ended, middle, hm, .inl hs, he⟩
  · exact ⟨moved, ended, middle, hm, .inr ⟨rfl, hd⟩, he⟩

end

/-- With its journal writes answered by success, an operation made moves, and a dispatch if it
dispatches, with exactly these writes, and did not report the internal state error. -/
def Realized (coordinator : QueryCoordinator) (dispatches : Bool) (state : CoordinatorState)
    {α : Type} (calls : Calls) (result : Except CoordinatorError α) (after : CoordinatorState) :
    Prop :=
  Written calls → Conducts coordinator dispatches state (journalWrites calls) after ∧
      result ≠ .error .coordinatorState

variable {α : Type} {result : Except CoordinatorError α}

theorem Realized.unchanged (h : result ≠ .error .coordinatorState) :
    Realized coordinator dispatches state [] result state :=
  fun _ => ⟨(Moves.refl state).conducts, h⟩

protected theorem Realized.failed {failure : JournalError} :
    Realized coordinator dispatches state
      (⟨.journal entry, .error failure⟩ :: calls) result after := by
  intro h
  simp at h

/-- Moves may come before a realized procedure. -/
theorem Realized.of_moves
    (hm : Written calls → Moves coordinator state (journalWrites calls) middle)
    (h : Realized coordinator dispatches middle calls' result after) :
    Realized coordinator dispatches state (calls ++ calls') result after := by
  intro hwr
  obtain ⟨hcl, hc'⟩ := Written.append.1 hwr
  obtain ⟨hrs, hres⟩ := h hc'
  rw [journalWrites_append]
  exact ⟨(hm hcl).trans_conducts hrs, hres⟩

variable {β : Type} {first : CoordinatorM α} {next : α → CoordinatorM β} {error : CoordinatorError}

/-- Sequencing: the rest of an operation starts from a coherent state of which the first part
established `P`. -/
protected theorem Realized.bind {P : CoordinatorState → Prop}
    (hs : Coherent coordinator state) (hfst : wp first state fun calls result middle =>
      Realized coordinator false state calls result middle ∧ (Written calls → P middle))
    (hn : ∀ value middle, Coherent coordinator middle → P middle →
      wp (next value) middle (Realized coordinator dispatches middle)) :
    wp (first >>= next) state (Realized coordinator dispatches state) := by
  rw [wp_bind]
  refine wp_mono hfst fun calls result middle ⟨hrlz, hP⟩ => ?_
  by_cases hwr : Written calls
  · obtain ⟨hcon, hres⟩ := hrlz hwr
    have hm := hcon.moves
    cases result with
    | error error => exact fun _ => ⟨hm.conducts, by simpa using hres⟩
    | ok value =>
      refine wp_mono (hn value middle (hm.coherent hs) (hP hwr)) fun calls' result after h => ?_
      exact .of_moves (fun _ => hm) h
  · cases result with
    | error error => exact fun h => absurd h hwr
    | ok value =>
      refine wp_mono (wp_trivial _ _) fun calls' result after _ h => ?_
      exact absurd (Written.append.1 h).1 hwr

/-- A realized procedure without a dispatch may come before another. -/
theorem Realized.seq (hs : Coherent coordinator state)
    (hfst : wp first state (Realized coordinator false state))
    (hn : ∀ value middle, Coherent coordinator middle →
      wp (next value) middle (Realized coordinator dispatches middle)) :
    wp (first >>= next) state (Realized coordinator dispatches state) :=
  Realized.bind (P := fun _ => True) hs (wp_mono hfst fun _ _ _ h => ⟨h, fun _ => trivial⟩)
    fun value middle hmid _ => hn value middle hmid

theorem Realized.then {P : CoordinatorState → Prop}
    (hfst : wp first state fun calls result middle =>
      Realized coordinator dispatches state calls result middle ∧ (Written calls → P middle))
    (hn : ∀ value middle, P middle → wp (next value) middle fun calls result after =>
      after = middle ∧ journalWrites calls = [] ∧ result ≠ .error .coordinatorState) :
    wp (first >>= next) state (Realized coordinator dispatches state) := by
  rw [wp_bind]
  refine wp_mono hfst fun calls result middle ⟨hrlz, hP⟩ => ?_
  cases result with
  | error error =>
    exact fun hwr => ⟨(hrlz hwr).1, by simpa using (hrlz hwr).2⟩
  | ok value =>
    by_cases hwr : Written calls
    · refine wp_mono (hn value middle (hP hwr)) fun calls' result after ⟨haf, hwrs, hres⟩ => ?_
      intro _
      rw [journalWrites_append, hwrs, append_nil, haf]
      exact ⟨(hrlz hwr).1, hres⟩
    · refine wp_mono (wp_trivial _ _) fun calls' result after _ h => ?_
      exact absurd (Written.append.1 h).1 hwr

theorem Realized.return {value : α → β}
    (hfst : wp first state (Realized coordinator dispatches state)) :
    wp (first >>= fun result => pure (value result)) state
      (Realized coordinator dispatches state) :=
  Realized.then (P := fun _ => True) (wp_mono hfst fun _ _ _ h => ⟨h, fun _ => trivial⟩)
    fun _ _ _ => wp_pure.2 ⟨rfl, rfl, nofun⟩

theorem Realized.weaken {procedure : CoordinatorM α}
    (h : wp procedure state (Realized coordinator false state)) :
    wp procedure state (Realized coordinator true state) :=
  wp_mono h fun _ _ _ hrlz hwr => ⟨(hrlz hwr).1.weaken, (hrlz hwr).2⟩

/-- A move may come before a realized procedure. -/
theorem wp_after_move {procedure : CoordinatorM α} (calls : Calls) (hs : Coherent coordinator state)
    (hm : Move coordinator state (journalWrites calls) middle)
    (h : Coherent coordinator middle →
      wp procedure middle (Realized coordinator dispatches middle)) :
    wp procedure middle fun calls' result after =>
      Realized coordinator dispatches state (calls ++ calls') result after := by
  refine wp_mono (h (hm.coherent hs)) fun calls' result after hr => ?_
  exact .of_moves (fun _ => .single hm) hr

/-! ## Checks that do not report the internal state error -/

/-- A fallible value whose error, if any, is not the internal state error. -/
def External {α : Type} (value : Except CoordinatorError α) : Prop :=
  value ≠ .error .coordinatorState

protected theorem External.ok {value : α} : External (.ok value) := nofun

protected theorem External.error (h : error ≠ .coordinatorState) :
    External (.error error : Except CoordinatorError α) := by
  simpa [External] using h

protected theorem External.ensure {condition : Prop} [Decidable condition]
    (h : error ≠ .coordinatorState) :
    External (ensure condition error) := by
  unfold ensure
  split
  · exact .ok
  · exact .error h

protected theorem External.okOr {value : Option α} (h : error ≠ .coordinatorState) :
    External (okOr value error) := by
  cases value with
  | none => exact .error h
  | some => exact .ok

protected theorem External.bind {first : Except CoordinatorError α}
    {next : α → Except CoordinatorError β}
    (hfst : External first) (hn : ∀ value, External (next value)) : External (first >>= next) := by
  cases first with
  | error error => simpa [External, bind, Except.bind] using hfst
  | ok value => exact hn value

protected theorem Realized.check {value : Except CoordinatorError α}
    (hval : External value) (hn : ∀ result, value = .ok result →
      wp (next result) state (Realized coordinator dispatches state)) :
    wp (check value >>= next) state (Realized coordinator dispatches state) := by
  rw [wp_check_bind]
  refine ⟨?_, hn⟩
  rintro _ rfl
  exact .unchanged (by simpa [External] using hval)

variable {next : Unit → CoordinatorM β}

protected theorem Realized.childScope
    (h : wp (next ()) state (Realized coordinator dispatches state)) :
    wp (childScope queryId >>= next) state (Realized coordinator dispatches state) := by
  rw [wp_childScope_bind]
  refine ⟨fun _ _ => ⟨(Moves.refl state).conducts, nofun⟩, wp_mono h fun _ _ _ hrlz => ?_⟩
  exact fun hwr => hrlz (Written.childScope.1 hwr)

protected theorem Realized.reserve {bytes : Nat}
    (h : wp (next ()) state (Realized coordinator dispatches state)) :
    wp (reserve bytes >>= next) state (Realized coordinator dispatches state) := by
  rw [wp_reserve_bind]
  refine ⟨fun _ _ => ⟨(Moves.refl state).conducts, nofun⟩, wp_mono h fun _ _ _ hrlz => ?_⟩
  exact fun hwr => hrlz (Written.reserve.1 hwr)

end CodeFabric.Query
