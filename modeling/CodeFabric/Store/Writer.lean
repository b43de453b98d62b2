import CodeFabric.Support.Fallible

/-! # The writer of the local store

The single writer lane of `fabric/owned_local_store.rs` and the reads that keep it, over unbounded
runs. Path checks, charges and the census are answers of the environment. -/

namespace CodeFabric.Store

open Fallible List

abbrev RuntimeId := Nat

inductive OwnedLocalStoreError
  | censusUnavailable
  | deniedPath
  | bound (what : String)
  | mutationBusy
  | foreignJoin
  | uploadState
  | physical (detail : String)
  | budget (detail : String)
deriving DecidableEq

abbrev Answer := Except OwnedLocalStoreError Unit

structure NativeUpload where
  (locked opened terminal : Bool)
deriving DecidableEq

structure MutationState where
  generation : Nat
  runtime : RuntimeId
  joined : Option RuntimeId
  accepting : Bool
  uploads : List NativeUpload
deriving DecidableEq

structure StoreState where
  ready : Bool
  generation : Nat
  nextRead : Nat
  pendingReads : List (Nat × RuntimeId)
  active : Option MutationState
deriving DecidableEq

structure OwnedLocalMutation where
  generation : Nat
  runtime : RuntimeId
deriving DecidableEq

def MutationState.lease (active : MutationState) : OwnedLocalMutation :=
  ⟨active.generation, active.runtime⟩

structure OwnedLocalStoreLimits where
  (maxReadBytes maxPathBytes maxPendingOperations : Nat)

/-- A read with the answers of the path check and of the memory budget. -/
structure ReadRequest where
  bytes : Nat
  validated : Answer
  reserved : Answer

/-! ## Operations -/

abbrev Outcome := Answer × StoreState

def beginMutation (runtime : RuntimeId) (state : StoreState) :
    Except OwnedLocalStoreError OwnedLocalMutation × StoreState :=
  if ¬state.ready then (.error .censusUnavailable, state)
  else if state.active.isSome then (.error .mutationBusy, state)
  else match checkedAdd 64 state.generation 1 with
    | none => (.error (.bound "mutation generations"), state)
    | some generation => (.ok ⟨generation, runtime⟩,
      { state with generation, active := some ⟨generation, runtime, none, true, []⟩ })

variable (limits : OwnedLocalStoreLimits)

def readTicket (runtime : RuntimeId) (request : ReadRequest)
    (state : StoreState) : Except OwnedLocalStoreError Nat × StoreState :=
  let admitted : Except OwnedLocalStoreError Nat := do
    ensure (request.bytes ≤ limits.maxReadBytes) (.bound "read bytes")
    request.validated
    ensure (state.pendingReads.length < limits.maxPendingOperations) (.bound "read operations")
    let metadata ← okOr (checkedMul 64 limits.maxPathBytes 3 >>= (checkedAdd 64 · 512))
      (.bound "read metadata")
    discard (okOr (checkedAdd 64 request.bytes metadata) (.bound "read metadata"))
    request.reserved
    okOr (checkedAdd 64 state.nextRead 1) (.bound "read identities")
  match admitted with
  | .error error => (.error error, state)
  | .ok id => (.ok id,
    { state with nextRead := id, pendingReads := state.pendingReads ++ [(id, runtime)] })

variable (census : Answer) (state : StoreState)

/-- A census succeeds or leaves the store unavailable. -/
def reconcileLocked : Outcome :=
  (census, { state with ready := census.isOk })

/-- Drop the native uploads up to the first that is locked or not terminal. -/
def closeUploads : List NativeUpload → Bool × List NativeUpload
  | [] => (true, [])
  | upload :: rest =>
    if upload.locked ∨ ¬upload.terminal then (false, upload :: rest)
    else ((closeUploads rest).1, { upload with opened := false } :: (closeUploads rest).2)

def OwnedLocalMutation.reconcileLockedAfterJoin (mutation : OwnedLocalMutation)
    (joined : RuntimeId) (census : Answer) (state : StoreState) : Outcome :=
  match state.active with
  | none => (.error .foreignJoin, state)
  | some active =>
    if joined ≠ mutation.runtime ∨ mutation ≠ active.lease then
      (.error .foreignJoin, state)
    else
      let closed := closeUploads active.uploads
      let active :=
        { active with joined := some joined, accepting := false, uploads := closed.2 }
      let kept := { state with active := some active }
      if ¬closed.1 then (.error .uploadState, kept)
      else
        let kept := { kept with pendingReads := kept.pendingReads.filter (·.2 ≠ joined) }
        if kept.pendingReads ≠ [] then (.ok (), kept)
        else match reconcileLocked census kept with
          | (.ok _, state) => (.ok (), { state with active := none })
          | failed => failed

/-- Reconcile for a joined writer once no read is pending. -/
def resume : Outcome :=
  match state.pendingReads, state.active with
  | [], some active =>
    match active.joined with
    | some joined => active.lease.reconcileLockedAfterJoin joined census state
    | none => (.ok (), state)
  | _, _ => (.ok (), state)

def completeRead (id : Nat) (census : Answer) (state : StoreState) : Outcome :=
  resume census { state with pendingReads := state.pendingReads.filter (·.1 ≠ id) }

def reconcileAfterJoin (joined : RuntimeId) (census : Answer) (state : StoreState) : Outcome :=
  resume census { state with pendingReads := state.pendingReads.filter (·.2 ≠ joined) }

def retryAfterJoinReconciliation : Outcome :=
  match state.active with
  | none => (.error .foreignJoin, state)
  | some active =>
    match active.joined with
    | none => (.error .foreignJoin, state)
    | some joined => active.lease.reconcileLockedAfterJoin joined census state

/-- What a native lane does once its runtime has joined. -/
def afterJoin (joined : RuntimeId) (mutation : Option OwnedLocalMutation) (census again : Answer)
    (state : StoreState) : Outcome :=
  match reconcileAfterJoin joined census state, mutation with
  | (.ok _, state), some mutation => mutation.reconcileLockedAfterJoin joined again state
  | done, _ => done

inductive Operation
  | beginMutation (runtime : RuntimeId)
  | readTicket (runtime : RuntimeId) (request : ReadRequest)
  | completeRead (id : Nat) (census : Answer)
  | afterJoin (joined : RuntimeId) (mutation : Option OwnedLocalMutation) (census again : Answer)
  | retry (census : Answer)

def Operation.perform : Operation → StoreState
  | .beginMutation runtime => (Store.beginMutation runtime state).2
  | .readTicket runtime request => (Store.readTicket limits runtime request state).2
  | .completeRead id census => (Store.completeRead id census state).2
  | .afterJoin joined mutation census again =>
    (Store.afterJoin joined mutation census again state).2
  | .retry census => (retryAfterJoinReconciliation census state).2

def Operation.CensusesSucceed : Operation → Prop
  | .completeRead _ census | .retry census => census = .ok ()
  | .afterJoin _ _ census again => census = .ok () ∧ again = .ok ()
  | .beginMutation _ | .readTicket .. => True

def stateAt (limits : OwnedLocalStoreLimits) (start : StoreState) (operations : ℕ → Operation) :
    ℕ → StoreState
  | 0 => start
  | n + 1 => (operations n).perform limits (stateAt limits start operations n)

/-- Native work of every upload has ended and none is in use. -/
def Terminal (uploads : List NativeUpload) : Prop :=
  ∀ upload ∈ uploads, ¬upload.locked ∧ upload.terminal

/-- The runtime of the active writer joins with all its uploads terminal. -/
def WriterJoins (writer : RuntimeId) (start : StoreState) (operation : Operation) : Prop :=
  ∃ active census again, start.active = some active ∧ active.runtime = writer ∧
    active.joined = none ∧ Terminal active.uploads ∧
    operation = .afterJoin writer (some active.lease) census again

/-! ## Outstanding reads -/

/-- The operation starts a read: the store answers with its ticket. -/
def Operation.Starts (operation : Operation) (state : StoreState) (read : Nat × RuntimeId) : Prop :=
  ∃ request, operation = .readTicket read.2 request ∧
    (Store.readTicket limits read.2 request state).1 = .ok read.1

/-- The operation ends a read: it completes, or its runtime has joined. A retry repeats the join of
the writer's runtime. -/
def Operation.Ends (writer : RuntimeId) (read : Nat × RuntimeId) : Operation → Prop
  | .completeRead id _ => read.1 = id
  | .afterJoin joined _ _ _ => read.2 = joined
  | .retry _ => read.2 = writer
  | .beginMutation _ | .readTicket .. => False

/-- The reads outstanding at an instant: those of the start and those started since, unless an
operation has ended them. -/
def Outstanding (writer : RuntimeId) (start : StoreState) (operations : ℕ → Operation) :
    ℕ → Nat × RuntimeId → Prop
  | 0, read => read ∈ start.pendingReads
  | n + 1, read =>
    (Outstanding writer start operations n read ∧ ¬(operations n).Ends writer read) ∨
      (operations n).Starts limits (stateAt limits start operations n) read

/-- Every read outstanding after the join ends. -/
def ReadsEnd (writer : RuntimeId) (start : StoreState) (operations : ℕ → Operation) : Prop :=
  ∀ read, Outstanding limits writer start operations 1 read →
    ∃ n ≥ 1, (operations n).Ends writer read

variable (state : StoreState)

def Admits : Prop :=
  ∀ runtime, ∃ mutation, (beginMutation runtime state).1 = .ok mutation

/-! ## Waiting for reads -/

/-- The active writer has joined, and its uploads let it be freed. -/
def Joined (writer : RuntimeId) : Prop :=
  ∃ active, state.active = some active ∧ active.runtime = writer ∧ active.joined = some writer ∧
    Terminal active.uploads ∧ state.generation + 1 < 2 ^ 64

def Waiting (writer : RuntimeId) : Prop := Joined state writer ∧ state.pendingReads ≠ []

def Freed : Prop :=
  state.active = none ∧ state.pendingReads = [] ∧ state.ready ∧ state.generation + 1 < 2 ^ 64

/-- A joined writer still waits, or has been freed. -/
def Progress (writer : RuntimeId) : Prop := Waiting state writer ∨ Freed state

variable {state : StoreState} {active : MutationState} {joined writer : RuntimeId}
  {mutation : OwnedLocalMutation} {limits : OwnedLocalStoreLimits} {operation : Operation}
  {start : StoreState} {operations : ℕ → Operation} {census : Answer} {read : Nat × RuntimeId}

theorem Terminal.closeUploads {uploads : List NativeUpload} (h : Terminal uploads) :
    (closeUploads uploads).1 ∧ Terminal (closeUploads uploads).2 := by
  induction uploads with
  | nil => exact ⟨rfl, h⟩
  | cons upload _ ih =>
    obtain ⟨hu, hr⟩ := forall_mem_cons.1 h
    have hopen : ¬(upload.locked ∨ ¬upload.terminal) := by simp_all
    rw [Store.closeUploads, if_neg hopen]
    exact ⟨(ih hr).1, forall_mem_cons.2 ⟨hu, (ih hr).2⟩⟩

/-- **Its own token** ends the reads of the writer's runtime, and frees the writer or leaves it to
the reads still pending. -/
theorem reconcile_own (hact : state.active = some active) (hup : Terminal active.uploads)
    (hgen : state.generation + 1 < 2 ^ 64) :
    Progress (active.lease.reconcileLockedAfterJoin active.runtime (.ok ()) state).2
        active.runtime ∧
      (active.lease.reconcileLockedAfterJoin active.runtime (.ok ()) state).2.pendingReads =
        state.pendingReads.filter (·.2 ≠ active.runtime) := by
  obtain ⟨hclosed, hterminal⟩ := hup.closeUploads
  rw [OwnedLocalMutation.reconcileLockedAfterJoin, hact]
  dsimp only
  rw [if_neg (by simp [MutationState.lease]), if_neg (by simp [hclosed])]
  split
  case isTrue hreads => exact ⟨.inl ⟨⟨_, rfl, rfl, rfl, hterminal, hgen⟩, hreads⟩, rfl⟩
  case isFalse hreads => exact ⟨.inr ⟨rfl, not_not.1 hreads, rfl, hgen⟩, rfl⟩

/-- The token of another writer changes nothing. -/
theorem reconcile_foreign (hforeign : ∀ active, state.active = some active →
    ¬(joined = mutation.runtime ∧ mutation = active.lease)) :
    (mutation.reconcileLockedAfterJoin joined census state).2 = state := by
  rw [OwnedLocalMutation.reconcileLockedAfterJoin]
  split
  · rfl
  · rename_i active hact
    have := hforeign active hact
    rw [if_pos (by tauto)]

theorem Joined.resume (h : Joined state writer) :
    Progress (resume (.ok ()) state).2 writer ∧
      (resume (.ok ()) state).2.pendingReads = state.pendingReads := by
  rcases hreads : state.pendingReads with _ | ⟨read, reads⟩
  · obtain ⟨_, hact, rfl, hjoined, hup, hgen⟩ := h
    simp only [Store.resume, hreads, hact, hjoined]
    obtain ⟨hprogress, hpending⟩ := reconcile_own hact hup hgen
    exact ⟨hprogress, by rw [hpending, hreads, filter_nil]⟩
  · simp only [Store.resume, hreads]
    exact ⟨.inl ⟨h, by simp [hreads]⟩, trivial⟩

/-- A join ends the reads of its runtime and nothing else. -/
theorem Waiting.afterJoin (h : Waiting state writer) (joined : RuntimeId)
    (mutation : Option OwnedLocalMutation) :
    Progress (afterJoin joined mutation (.ok ()) (.ok ()) state).2 writer ∧
      (afterJoin joined mutation (.ok ()) (.ok ()) state).2.pendingReads =
        state.pendingReads.filter (·.2 ≠ joined) := by
  have hjoined : Joined
    { state with pendingReads := state.pendingReads.filter (·.2 ≠ joined) } writer := h.1
  obtain ⟨hfirst, hpending⟩ := hjoined.resume
  dsimp only [Store.afterJoin, reconcileAfterJoin]
  generalize Store.resume (.ok ()) { state with pendingReads := _ } = first at hfirst hpending ⊢
  obtain ⟨_ | _, between⟩ := first <;> rcases mutation with _ | mutation <;>
    try exact ⟨hfirst, hpending⟩
  by_cases hown : ∃ active, between.active = some active ∧
      joined = mutation.runtime ∧ mutation = active.lease
  · obtain ⟨active, hact, rfl, rfl⟩ := hown
    rcases hfirst with ⟨⟨_, hact', rfl, -, hup, hgen⟩, -⟩ | hfreed
    · cases hact.symm.trans hact'
      obtain ⟨hprogress, hagain⟩ := reconcile_own hact hup hgen
      refine ⟨hprogress, hagain.trans ?_⟩
      rw [hpending, filter_filter]
      exact filter_congr fun read _ => Bool.and_self (decide (read.2 ≠ active.runtime))
    · cases hact.symm.trans hfreed.1
  · dsimp only
    rw [reconcile_foreign fun active hact h => hown ⟨active, hact, h⟩]
    exact ⟨hfirst, hpending⟩

/-- An accepted read enters the table under its ticket, a refused one changes nothing. -/
theorem mem_readTicket {runtime : RuntimeId} {request : ReadRequest} :
    read ∈ (readTicket limits runtime request state).2.pendingReads ↔ read ∈ state.pendingReads ∨
      read.2 = runtime ∧ (readTicket limits runtime request state).1 = .ok read.1 := by
  rw [Store.readTicket]
  split
  · simp
  · rename_i id _
    rw [mem_append, mem_singleton, Prod.ext_iff, and_comm, Except.ok.injEq, eq_comm (a := id)]

/-- **Step lemma.** A joined writer goes on waiting or is freed, and the table of pending reads
loses the reads that the operation ends and gains the one it starts. -/
theorem Waiting.perform (limits : OwnedLocalStoreLimits) (h : Waiting state writer)
    (hcensus : operation.CensusesSucceed) :
    Progress (operation.perform limits state) writer ∧
      ∀ read, read ∈ (operation.perform limits state).pendingReads ↔
        (read ∈ state.pendingReads ∧ ¬operation.Ends writer read) ∨
          operation.Starts limits state read := by
  have hjoined := h.1
  obtain ⟨_, hact, rfl, hjoin, hup, hgen⟩ := h.1
  cases operation with
  | beginMutation runtime =>
    have hkept : (beginMutation runtime state).2 = state := by
      simp only [beginMutation, hact]
      split <;> rfl
    rw [Operation.perform, hkept]
    exact ⟨.inl h, fun read => by simp [Operation.Ends, Operation.Starts]⟩
  | readTicket runtime request =>
    refine ⟨.inl ⟨?_, fun hnone => ?_⟩, fun read => ?_⟩
    · rw [Operation.perform, Store.readTicket]
      split <;> exact hjoined
    · obtain ⟨read, hread⟩ := exists_mem_of_ne_nil _ h.2
      have hkept : read ∈ (readTicket limits runtime request state).2.pendingReads :=
        mem_readTicket.2 (.inl hread)
      exact not_mem_nil (hnone ▸ hkept)
    · rw [Operation.perform, mem_readTicket]
      refine or_congr (by simp [Operation.Ends]) ?_
      simp only [Operation.Starts, Operation.readTicket.injEq]
      constructor
      · rintro ⟨rfl, hanswer⟩
        exact ⟨request, ⟨rfl, rfl⟩, hanswer⟩
      · rintro ⟨_, ⟨rfl, rfl⟩, hanswer⟩
        exact ⟨rfl, hanswer⟩
  | completeRead id census =>
    obtain rfl : census = .ok () := hcensus
    have hrest : Joined { state with pendingReads := state.pendingReads.filter (·.1 ≠ id) } _ :=
      hjoined
    obtain ⟨hprogress, hpending⟩ := hrest.resume
    refine ⟨hprogress, fun read => ?_⟩
    rw [Operation.perform, completeRead, hpending]
    simp [Operation.Ends, Operation.Starts]
  | afterJoin runtime _ census =>
    obtain ⟨rfl, rfl⟩ := hcensus
    obtain ⟨hprogress, hpending⟩ := h.afterJoin runtime _
    refine ⟨hprogress, fun read => ?_⟩
    rw [Operation.perform, hpending]
    simp [Operation.Ends, Operation.Starts]
  | retry census =>
    obtain rfl : census = .ok () := hcensus
    simp only [Operation.perform, retryAfterJoinReconciliation, hact, hjoin]
    obtain ⟨hprogress, hpending⟩ := reconcile_own hact hup hgen
    refine ⟨hprogress, fun read => ?_⟩
    rw [hpending]
    simp [Operation.Ends, Operation.Starts]

/-- The join leaves the writer waiting or frees it, and ends the reads of its runtime. -/
theorem WriterJoins.perform (limits : OwnedLocalStoreLimits)
    (h : WriterJoins writer state operation) (hcensus : operation.CensusesSucceed)
    (hgen : state.generation + 1 < 2 ^ 64) :
    Progress (operation.perform limits state) writer ∧
      ∀ read, read ∈ (operation.perform limits state).pendingReads ↔
        (read ∈ state.pendingReads ∧ ¬operation.Ends writer read) ∨
          operation.Starts limits state read := by
  obtain ⟨_, _, _, hact, rfl, hnone, hup, rfl⟩ := h
  obtain ⟨rfl, rfl⟩ := hcensus
  have hkept (reads) : resume (.ok ()) { state with pendingReads := reads } =
      (.ok (), { state with pendingReads := reads }) := by
    cases reads <;> simp [resume, hact, hnone]
  simp only [Operation.perform, afterJoin, reconcileAfterJoin, hkept]
  refine (reconcile_own ?_ hup ?_).imp_right fun hpending read => ?_
  · exact hact
  · exact hgen
  rw [hpending]
  simp [Operation.Ends, Operation.Starts]

/-- The table of pending reads is what the operations leave outstanding. -/
def Tracks (limits : OwnedLocalStoreLimits) (writer : RuntimeId) (start : StoreState)
    (operations : ℕ → Operation) (n : ℕ) : Prop :=
  ∀ read, read ∈ (stateAt limits start operations n).pendingReads ↔
    Outstanding limits writer start operations n read

/-- **Run lemma.** Up to the instant that frees the writer, it waits and the table is the reads
outstanding. -/
theorem waiting_or_freed (hjoin : WriterJoins writer start (operations 0))
    (hcensus : ∀ n, (operations n).CensusesSucceed) (hgen : start.generation + 1 < 2 ^ 64) (n : ℕ) :
    Waiting (stateAt limits start operations (n + 1)) writer ∧
        Tracks limits writer start operations (n + 1) ∨
      ∃ m, Freed (stateAt limits start operations (m + 1)) ∧
        Tracks limits writer start operations (m + 1) := by
  induction n with
  | zero =>
    obtain ⟨hprogress, hreads⟩ := hjoin.perform limits (hcensus 0) hgen
    exact hprogress.imp (⟨·, hreads⟩) fun h => ⟨0, h, hreads⟩
  | succ n ih =>
    rcases ih with ⟨hwait, htracks⟩ | hfreed
    · obtain ⟨hprogress, hreads⟩ := hwait.perform limits (hcensus (n + 1))
      have htracks' : Tracks limits writer start operations (n + 1 + 1) := fun read =>
        (hreads read).trans (or_congr_left (and_congr_left fun _ => htracks read))
      exact hprogress.imp (⟨·, htracks'⟩) fun h => ⟨n + 1, h, htracks'⟩
    · exact .inr hfreed

theorem Waiting.not_admits (h : Waiting state writer) : ¬Admits state := by
  intro hadmits
  obtain ⟨_, hact, -⟩ := h.1
  obtain ⟨_, hmutation⟩ := hadmits 0
  simp only [beginMutation, hact] at hmutation
  split at hmutation <;> simp at hmutation

theorem Freed.admits (h : Freed state) : Admits state := by
  intro _
  obtain ⟨hact, -, hready, hgen⟩ := h
  simp only [beginMutation, hact, hready, checkedAdd, if_pos hgen]
  exact ⟨_, rfl⟩

/-- **A joined writer is freed by a quiet instant**, and by nothing else: a following mutation is
admitted exactly if at some later instant every read that was started has ended. -/
theorem writer_freed_iff (hjoin : WriterJoins writer start (operations 0))
    (hcensus : ∀ n, (operations n).CensusesSucceed) (hgen : start.generation + 1 < 2 ^ 64) :
    (∃ n, Admits (stateAt limits start operations (n + 1))) ↔
      ∃ n, ∀ read, ¬Outstanding limits writer start operations (n + 1) read := by
  constructor
  · rintro ⟨n, hadmits⟩
    rcases waiting_or_freed hjoin hcensus hgen n with ⟨hwait, -⟩ | ⟨m, hfreed, htracks⟩
    · exact absurd hadmits hwait.not_admits
    · refine ⟨m, fun read hread => ?_⟩
      have hmem := (htracks read).2 hread
      rw [hfreed.2.1] at hmem
      exact not_mem_nil hmem
  · rintro ⟨n, hquiet⟩
    rcases waiting_or_freed hjoin hcensus hgen n with ⟨hwait, htracks⟩ | ⟨m, hfreed, -⟩
    · refine absurd (eq_nil_iff_forall_not_mem.2 fun read hread => ?_) hwait.2
      exact hquiet read ((htracks read).1 hread)
    · exact ⟨m, hfreed.admits⟩

def sampleStart : StoreState :=
  ⟨true, 1, 1, [(1, 2)], some ⟨1, 1, none, true, [⟨false, true, true⟩]⟩⟩

/-- The writer joins, a second read starts, the first completes, and only retries follow. -/
def sampleOperations : ℕ → Operation
  | 0 => .afterJoin 1 (some ⟨1, 1⟩) (.ok ()) (.ok ())
  | 1 => .readTicket 2 ⟨1, .ok (), .ok ()⟩
  | 2 => .completeRead 1 (.ok ())
  | _ => .retry (.ok ())

/-- The same, but the second read completes as well. -/
def quietOperations (n : ℕ) : Operation :=
  if n = 3 then .completeRead 2 (.ok ()) else sampleOperations n

theorem sampleOperations_censuses (n : ℕ) : (sampleOperations n).CensusesSucceed := by
  rcases n with _ | _ | _ | n <;> simp [sampleOperations, Operation.CensusesSucceed]

theorem writer_joins_sample : WriterJoins 1 sampleStart (sampleOperations 0) :=
  ⟨_, _, _, rfl, rfl, rfl, by simp [Terminal], rfl⟩

/-- The read outstanding at the join completes, and so does the one started after it. -/
theorem writer_freed_sample :
    ∃ n, Admits (stateAt ⟨8, 8, 8⟩ sampleStart quietOperations (n + 1)) := by
  have hjoin : WriterJoins 1 sampleStart (quietOperations 0) := writer_joins_sample
  refine (writer_freed_iff hjoin (fun n => ?_) (by decide)).2 ⟨3, ?_⟩
  · rw [quietOperations]
    split
    · rfl
    · exact sampleOperations_censuses n
  · have hticket : (readTicket ⟨8, 8, 8⟩ 2 ⟨1, .ok (), .ok ()⟩
        (stateAt ⟨8, 8, 8⟩ sampleStart quietOperations 1)).1 = .ok 2 := by decide
    rintro ⟨id, runtime⟩ hread
    simp only [Outstanding, quietOperations, sampleOperations, Operation.Ends, Operation.Starts,
      Nat.reduceEqDiff, if_true, if_false, reduceCtorEq, false_and, exists_false, or_false,
      Operation.readTicket.injEq] at hread
    obtain ⟨⟨⟨hfirst, -⟩ | ⟨_, ⟨rfl, rfl⟩, hanswer⟩, hone⟩, htwo⟩ := hread
    · exact hone (congrArg Prod.fst (mem_singleton.1 hfirst.1))
    · exact htwo (Except.ok.inj (hanswer.symm.trans hticket))

theorem writer_kept_by_later_read : ∃ limits writer start operations,
    WriterJoins writer start (operations 0) ∧ (∀ n, (operations n).CensusesSucceed) ∧
      start.generation + 1 < 2 ^ 64 ∧ ReadsEnd limits writer start operations ∧
      ∀ n, ¬Admits (stateAt limits start operations (n + 1)) := by
  refine ⟨⟨8, 8, 8⟩, 1, sampleStart, sampleOperations, writer_joins_sample,
    sampleOperations_censuses, by decide, ?_, fun n hadmits => ?_⟩
  · rintro read (⟨hread, -⟩ | ⟨_, hstart, -⟩)
    · obtain rfl : read = (1, 2) := mem_singleton.1 hread
      exact ⟨2, by decide, rfl⟩
    · cases hstart
  · have hstalled (m : ℕ) : stateAt ⟨8, 8, 8⟩ sampleStart sampleOperations (m + 3) =
        stateAt ⟨8, 8, 8⟩ sampleStart sampleOperations 3 := by
      induction m with
      | zero => rfl
      | succ m ih => rw [stateAt, ih]; rfl
    obtain ⟨_, hmutation⟩ := hadmits 0
    rcases n with _ | _ | n
    · cases hmutation
    · cases hmutation
    · rw [hstalled] at hmutation
      cases hmutation

end CodeFabric.Store
