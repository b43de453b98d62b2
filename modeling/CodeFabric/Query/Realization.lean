import CodeFabric.Query.Moves

/-! # Every operation is made of moves

One lemma per operation of the coordinator: from a coherent state, whatever its surroundings answer
as long as the journal writes succeed, the operation is a run of moves. -/

namespace CodeFabric.Query

open List hiding drop

open CodeFabric.Command Fallible TreeMaps Procedures Interleaving Runs
open CoordinatorState QueryControlEvent QueryExecutionPhase QueryHandle

variable {coordinator : QueryCoordinator} {state : CoordinatorState} {queryId : QueryId}
  {handle next : QueryHandle} {Q : Calls → Except CoordinatorError Unit → CoordinatorState → Prop}
  {events : List QueryControlEvent} {event : QueryControlEvent} {payload : QueryControlEventPayload}
  {index : Nat} {observedAt : Int} {publicCode : Option String} {ending : QueryTerminalState}
  (policy : QueryCoordinatorPolicy) {cancellationId : String}

/-! ## Giving back -/

section

variable {κ : Type} [Ord κ] [Std.TransOrd κ] {values : Std.ExtTreeMap κ Nat} {key : κ}

theorem decrementScope_eq_ok (h : 0 < (values[key]?).getD 0) :
    decrementScope values key = .ok (released values key) := by
  cases hval : values[key]? with
  | none => simp [hval] at h
  | some value =>
    rw [hval, Option.getD_some] at h
    have hsub : checkedSub value 1 = some (value - 1) := if_pos h
    rw [decrementScope, hval, released, hval, Option.getD_some]
    show (okOr (checkedSub value 1) _ >>= fun _ => pure _) = _
    rw [hsub]
    rfl

end

theorem wp_releaseRunning {workspace : WorkspaceId} {principal : PrincipalId}
    (hrun : 0 < state.running) (hws : 0 < (state.runningByWorkspace[workspace]?).getD 0)
    (hpr : 0 < (state.runningByPrincipal[principal]?).getD 0) (h : Q [] (.ok ()) { state with
      running := state.running - 1
      runningByWorkspace := released state.runningByWorkspace workspace
      runningByPrincipal := released state.runningByPrincipal principal }) :
    wp (releaseRunning workspace principal) state Q := by
  have hsub : checkedSub state.running 1 = some (state.running - 1) := if_pos hrun
  simp only [releaseRunning, wp_read_bind, wp_check_bind, wp_update_bind, hsub, okOr,
    decrementScope_eq_ok hws, decrementScope_eq_ok hpr]
  simpa using h

theorem wp_releaseResultReservation {bytes pages : Nat} (hb : bytes ≤ state.reservedResultBytes)
    (hpg : pages ≤ state.reservedResultPages) (h : Q [] (.ok ()) { state with
      reservedResultBytes := state.reservedResultBytes - bytes
      reservedResultPages := state.reservedResultPages - pages }) :
    wp (releaseResultReservation bytes pages) state Q := by
  have hsubBytes : checkedSub state.reservedResultBytes bytes =
      some (state.reservedResultBytes - bytes) := if_pos hb
  have hsubPages : checkedSub state.reservedResultPages pages =
      some (state.reservedResultPages - pages) := if_pos hpg
  simp only [releaseResultReservation, wp_read_bind, wp_check_bind, wp_update_bind, hsubBytes,
    hsubPages, okOr]
  simpa using h

namespace Coherent

section

variable (hs : Coherent coordinator state) (hfnd : state.handles[queryId]? = some handle)
include hs hfnd

/-- The counters of a running query are positive. -/
theorem running_pos (hph : handle.phase = .running) :
    0 < state.running ∧ 0 < (state.runningByWorkspace[handle.workspace]?).getD 0 ∧
      0 < (state.runningByPrincipal[handle.principal]?).getD 0 := by
  have hone := runs_of_running hph
  have hr := weight_le_total (f := runs) hfnd
  have hws := weight_le_total (f := scopeWeight workspace handle.workspace) hfnd
  have hpr := weight_le_total (f := scopeWeight principal handle.principal) hfnd
  rw [scopeWeight, if_pos rfl] at hws hpr
  rw [hs.running, hs.byWorkspace.count, hs.byPrincipal.count]
  omega

/-- What a query holds is part of the totals. -/
theorem held_le :
    handle.heldBytes ≤ state.reservedResultBytes ∧
      handle.heldPages ≤ state.reservedResultPages := by
  rw [hs.bytes, hs.pages]
  exact ⟨weight_le_total hfnd, weight_le_total hfnd⟩

/-- The queue holds exactly the queued queries. -/
theorem mem_queue_iff : queryId ∈ state.queue ↔ handle.phase = .queued :=
  (hs.mem_queue queryId).trans (exists_found_iff hfnd)

end

end Coherent

theorem recount_self {κ : Type} [Ord κ] [Std.TransOrd κ] {values : Std.ExtTreeMap κ Nat} {key : κ}
    {n : Nat} : recount values key n n = values := if_pos rfl

theorem recount_release {κ : Type} [Ord κ] [Std.TransOrd κ] {values : Std.ExtTreeMap κ Nat}
    {key : κ} : recount values key 1 0 = released values key := rfl

theorem filter_queue_eq (h : queryId ∉ state.queue) :
    state.queue.filter (· ≠ queryId) = state.queue := by
  refine List.filter_eq_self.2 fun queued hq => ?_
  simpa using fun heq : queued = queryId => h (heq ▸ hq)

section

variable (hs : Coherent coordinator state) (hfnd : state.handles[queryId]? = some handle)
include hs hfnd

theorem wp_releaseIfRunning {changed : CoordinatorState} (hrun : changed.running = state.running)
    (hws : changed.runningByWorkspace = state.runningByWorkspace)
    (hpr : changed.runningByPrincipal = state.runningByPrincipal) (h : Q [] (.ok ()) { changed with
      running := state.running - handle.runs
      runningByWorkspace := recount state.runningByWorkspace handle.workspace handle.runs 0
      runningByPrincipal := recount state.runningByPrincipal handle.principal handle.runs 0 }) :
    wp (releaseIfRunning handle) changed Q := by
  unfold releaseIfRunning
  by_cases hph : handle.phase = .running
  · rw [if_pos hph]
    obtain ⟨hpos, hposWorkspace, hposPrincipal⟩ := hs.running_pos hfnd hph
    rw [runs_of_running hph, recount_release, recount_release] at h
    refine wp_releaseRunning (hrun ▸ hpos) (hws ▸ hposWorkspace) (hpr ▸ hposPrincipal) ?_
    rw [hrun, hws, hpr]
    exact h
  · rw [if_neg hph]
    rw [runs_of_not_running hph, recount_self, recount_self, Nat.sub_zero,
      ← hrun, ← hws, ← hpr] at h
    exact h

section

variable (h : Q [] (.ok ()) { state.setHandle queryId next with
      running := state.running - handle.runs
      runningByWorkspace := recount state.runningByWorkspace handle.workspace handle.runs 0
      runningByPrincipal := recount state.runningByPrincipal handle.principal handle.runs 0
      queue := state.queue.filter (· ≠ queryId) })
include h

theorem wp_releaseLiveSlot :
    wp (releaseLiveSlot queryId handle) (state.setHandle queryId next) Q := by
  by_cases hq : handle.phase = .queued
  · have hsl : releaseLiveSlot queryId handle = unqueue queryId := by
      rw [releaseLiveSlot, if_neg (by simp [hq]), if_pos hq]
    rw [hsl]
    rw [runs_of_not_running (by simp [hq]), recount_self, recount_self, Nat.sub_zero] at h
    exact h
  · have hsl : releaseLiveSlot queryId handle = releaseIfRunning handle := by
      rw [releaseLiveSlot, if_neg hq, releaseIfRunning]
    rw [hsl]
    rw [filter_queue_eq (mt (hs.mem_queue_iff hfnd).1 hq)] at h
    exact wp_releaseIfRunning hs hfnd rfl rfl rfl h

theorem wp_releaseSlot (hl : ¬handle.phase.isTerminal) :
    wp (releaseSlot queryId handle) (state.setHandle queryId next) Q := by
  have hsl : releaseSlot queryId handle = releaseLiveSlot queryId handle := by
    rw [releaseSlot, releaseLiveSlot]
    cases hph : handle.phase with
    | queued | running => simp
    | terminal => simp [hph, isTerminal] at hl
  rw [hsl]
  exact wp_releaseLiveSlot hs hfnd h

end

theorem wp_releaseHeld (hr : handle.resultRetention = .reserved) {changed : CoordinatorState}
    (hb : changed.reservedResultBytes = state.reservedResultBytes)
    (hpg : changed.reservedResultPages = state.reservedResultPages)
    (h : Q [] (.ok ()) { changed with
      reservedResultBytes := state.reservedResultBytes - handle.heldBytes
      reservedResultPages := state.reservedResultPages - handle.heldPages }) :
    wp (releaseHeld handle true) changed Q := by
  have hhl := hs.held_le hfnd
  have hheldBytes : handle.heldBytes = handle.operation.maximumResultBytes := if_pos hr
  have hheldPages : handle.heldPages = handle.operation.maximumResultPages := if_pos hr
  rw [hheldBytes, hheldPages] at hhl h
  rw [releaseHeld, if_pos rfl]
  refine wp_releaseResultReservation (hb ▸ hhl.1) (hpg ▸ hhl.2) ?_
  rw [hb, hpg]
  exact h

/-- The exchange at the end of a query, written out. -/
theorem exchange_ends (he : next.phase.isTerminal) :
    state.exchange queryId handle next = { state.setHandle queryId next with
      running := state.running - handle.runs
      runningByWorkspace := recount state.runningByWorkspace handle.workspace handle.runs 0
      runningByPrincipal := recount state.runningByPrincipal handle.principal handle.runs 0
      queue := state.queue.filter (· ≠ queryId)
      reservedResultBytes := state.reservedResultBytes + next.heldBytes - handle.heldBytes
      reservedResultPages := state.reservedResultPages + next.heldPages - handle.heldPages
      taskReservations := state.taskReservations.erase queryId } := by
  have hrn : next.runs = 0 := runs_of_not_running fun hrun => by
    simp [hrun, isTerminal] at he
  have hqu : (if handle.phase = .queued ∧ next.phase ≠ .queued then
      state.queue.filter (· ≠ queryId) else state.queue) = state.queue.filter (· ≠ queryId) := by
    split_ifs with hl
    · rfl
    · refine (filter_queue_eq fun hmem => hl ⟨(hs.mem_queue_iff hfnd).1 hmem, ?_⟩).symm
      exact fun hq => by simp [hq, isTerminal] at he
  rw [exchange, hrn, hqu, if_pos he, Nat.add_zero]
  rfl

theorem wp_releaseClosed (hl : ¬handle.phase.isTerminal)
    (he : next.phase.isTerminal) (hop : next.operation = handle.operation)
    {release : Bool} (hrel : release = decide (next.resultRetention ≠ .reserved))
    (h : Q [] (.ok ()) (state.exchange queryId handle next)) :
    wp (releaseClosed queryId handle release) (state.setHandle queryId next) Q := by
  have hrs := hs.reserved_of_live hfnd hl
  rw [exchange_ends hs hfnd he] at h
  rw [releaseClosed, wp_bind]
  refine wp_releaseSlot hs hfnd ?_ hl
  rw [afterwards_ok, wp_bind]
  by_cases hk : next.resultRetention = .reserved
  · have hh : releaseHeld handle release = pure () := by
      rw [hrel, decide_eq_false (not_not.2 hk)]
      rfl
    have hb : next.heldBytes = handle.heldBytes := by
      rw [heldBytes, if_pos hk, hop, heldBytes, if_pos hrs]
    have hpg : next.heldPages = handle.heldPages := by
      rw [heldPages, if_pos hk, hop, heldPages, if_pos hrs]
    rw [hb, hpg, Nat.add_sub_cancel, Nat.add_sub_cancel] at h
    rw [hh]
    exact h
  · have hb : next.heldBytes = 0 := if_neg hk
    have hpg : next.heldPages = 0 := if_neg hk
    rw [hb, hpg] at h
    rw [hrel, decide_eq_true hk]
    exact wp_releaseHeld hs hfnd hrs rfl rfl h

end

/-! ## Dispatch -/

/-- A start is an exchange of the handle. -/
theorem start_eq_exchange {rest : List QueryId} (hqu : state.queue = queryId :: rest)
    (hnd : state.queue.Nodup) (hph : handle.phase = .queued) :
    ({ state with queue := rest }.countRunning handle.operation).setHandle queryId
        (handle.setPhase .running) =
      state.exchange queryId handle (handle.setPhase .running) := by
  have hrn : handle.runs = 0 := runs_of_not_running (by simp [hph])
  have hnx : (handle.setPhase .running).runs = 1 := runs_of_running rfl
  have hrs : state.queue.filter (· ≠ queryId) = rest := by
    rw [hqu] at hnd ⊢
    have hflt := List.filter_eq_self.2 fun queued hq => show decide (queued ≠ queryId) = true
      by simpa using fun heq : queued = queryId => (List.nodup_cons.1 hnd).1 (heq ▸ hq)
    rw [filter_cons_of_neg (by simp), hflt]
  have hlv : handle.phase = .queued ∧ (handle.setPhase .running).phase ≠ .queued :=
    ⟨hph, by simp⟩
  have hlive : ¬(handle.setPhase .running).phase.isTerminal := by
    simp [isTerminal]
  have hb : (handle.setPhase .running).heldBytes = handle.heldBytes := rfl
  have hpg : (handle.setPhase .running).heldPages = handle.heldPages := rfl
  rw [exchange, hrn, hnx, if_pos hlv, hrs, if_neg hlive, hb, hpg,
    Nat.add_sub_cancel, Nat.add_sub_cancel]
  rfl

theorem wp_dispatchScan (hs : Coherent coordinator state) (attempts : Nat) :
    wp (dispatchScan coordinator.policy attempts) state fun calls result after =>
      Written calls → Scan coordinator attempts state (journalWrites calls) after ∧
        result = .ok () := by
  induction attempts generalizing state with
  | zero => exact fun _ => ⟨.stop (.inl rfl), rfl⟩
  | succ attempts ih =>
    rw [dispatchScan, wp_read_bind]
    split_ifs with hfr
    · cases hq : state.queue with
      | nil => exact fun _ => ⟨.stop (.inr (.inr hq)), rfl⟩
      | cons queryId =>
        have hmem : queryId ∈ state.queue := by simp [hq]
        obtain ⟨handle, hfnd, hph⟩ := (hs.mem_queue queryId).1 hmem
        have hl : ¬handle.phase.isTerminal := by
          simp [hph, isTerminal]
        simp only [wp_update_bind, wp_check_bind, hfnd, okOr]
        refine ⟨fun _ h => (by cases h), fun kept hk => ?_⟩
        obtain rfl : handle = kept := Except.ok.inj hk
        rw [if_neg hl]
        split_ifs with hcap
        · rw [wp_update_bind]
          have move : DispatchMove coordinator state [] _ := .rotate hq hfnd hcap
          refine wp_mono (ih (move.coherent hs)) fun calls result after h hwr => ?_
          exact ⟨.step hfr move (h hwr).1, (h hwr).2⟩
        · have hsta := start_eq_exchange hq hs.queue_nodup hph
          have move : DispatchMove coordinator state [.replace _] _ :=
            .start hq hfnd hph hfr hcap
          simp only [wp_update_bind, wp_write_bind]
          refine ⟨fun _ h => by simp at h, ?_⟩
          rw [hsta]
          refine wp_mono (ih (move.coherent hs)) fun calls result after h hwr => ?_
          obtain ⟨hsc, hres⟩ := h (Written.journal.1 hwr).2
          exact ⟨.step hfr move hsc, hres⟩
    · exact fun _ => ⟨.stop (.inr (.inl (not_lt.1 hfr))), rfl⟩

theorem wp_dispatchLocked (hs : Coherent coordinator state) :
    wp (dispatchLocked coordinator.policy) state (Realized coordinator true state) := by
  rw [dispatchLocked, wp_read_bind]
  refine wp_mono (wp_dispatchScan hs _) fun _ _ _ h hwr => ?_
  obtain ⟨hsc, hres⟩ := h hwr
  exact ⟨⟨[], _, state, .refl _, .inr ⟨rfl, hsc⟩, rfl⟩, hres ▸ nofun⟩

/-! ## Later handles -/

theorem nextSequence_eq_ok {sequence : Nat}
    (hsq : events.map QueryControlEvent.sequence = range' 1 events.length)
    (h : nextSequence events = .ok sequence) : sequence = events.length + 1 := by
  rcases eq_nil_or_concat events with rfl | ⟨front, last, rfl⟩
  · exact (Except.ok.inj h).symm
  · have hl : last.sequence = front.length + 1 := by
      rw [concat_eq_append, map_append, length_append, length_singleton, range'_concat] at hsq
      have hsn := (append_inj' hsq rfl).2
      simpa [Nat.add_comm] using hsn
    simp only [nextSequence, concat_eq_append, getLast?_concat, okOr_eq_ok, checkedAdd_eq_some] at h
    rw [← h.2, hl, concat_eq_append, length_append, length_singleton]

theorem sequences_concat (hsq : events.map sequence = range' 1 events.length)
    (hev : event.sequence = events.length + 1) :
    (events ++ [event]).map sequence = range' 1 (events ++ [event]).length := by
  rw [map_append, hsq, length_append, length_singleton, range'_concat,
    map_singleton, hev, Nat.one_mul, Nat.add_comm]

theorem replacement_lt (h : replacement events payload = some index) : index < events.length := by
  unfold replacement lastCheckpoint at h
  split_ifs at h with hpn hpr
  · obtain ⟨i, hi, rfl⟩ := Option.map_eq_some_iff.1 h
    have hlt := (findIdx?_eq_some_iff_findIdx_eq.1 hi).1
    rw [length_reverse] at hlt
    omega
  · cases h
    cases events with
    | nil => simp at hpr
    | cons _ events => simp

theorem sum_set {values : List Nat} (value : Nat) (h : index < values.length) :
    (values.set index value).sum + values[index] = values.sum + value := by
  induction values generalizing index with
  | nil => simp at h
  | cons _ values ih =>
    cases index with
    | zero =>
      simp only [set_cons_zero, sum_cons, getElem_cons_zero]
      omega
    | succ index =>
      have hr := ih (Nat.lt_of_succ_lt_succ h)
      simp only [set_cons_succ, sum_cons, getElem_cons_succ]
      omega

theorem sequences_set (h : index < events.length) (hev : event.sequence = events[index].sequence) :
    (events.set index event).map sequence = events.map sequence := by
  rw [map_set, hev, ← getElem_map sequence]
  exact set_getElem_self (by simpa using h)

/-- What an appended event does to an event list: its number, and the numbers, the payloads and the
byte count with it. -/
theorem placeEvent_spec {sequence : Nat} {kept : Nat} {codec : Codec} (observedAt : Int)
    (hsq : events.map QueryControlEvent.sequence = range' 1 events.length)
    (hseq : appendSequence events payload = .ok sequence)
    (hk : kept + replacedBytes codec events payload = (events.map codec.eventLength).sum)
    (placed : List QueryControlEvent)
    (hp : placed = placeEvent events ⟨sequence, observedAt, payload⟩) :
    placed.map QueryControlEvent.sequence = range' 1 placed.length ∧
      (∀ event ∈ placed, event ∈ events ∨ event.payload = payload) ∧
      kept + codec.eventLength ⟨sequence, observedAt, payload⟩ =
        (placed.map codec.eventLength).sum := by
  unfold placeEvent at hp
  unfold appendSequence at hseq
  unfold replacedBytes at hk
  cases hr : replacement events payload with
  | none =>
    simp only [hr, Option.bind_none] at hp hseq hk
    have hn := nextSequence_eq_ok hsq hseq
    subst hp
    refine ⟨sequences_concat hsq hn, fun event hev => ?_, ?_⟩
    · rcases List.mem_append.1 hev with hmem | hmem
      · exact .inl hmem
      · exact .inr (by rw [List.mem_singleton.1 hmem])
    · rw [map_append, sum_append, ← hk, map_singleton, sum_singleton, Nat.add_zero]
  | some index =>
    have hlt := replacement_lt hr
    simp only [hr, Option.bind_some, getElem?_eq_getElem hlt, Except.ok.injEq] at hp hseq hk
    subst hp
    refine ⟨?_, fun event hev => ?_, ?_⟩
    · rw [sequences_set hlt hseq.symm, hsq, length_set]
    · rcases mem_or_eq_of_mem_set hev with hmem | rfl
      · exact .inl hmem
      · exact .inr rfl
    · have hlen : index < (events.map codec.eventLength).length := by simpa using hlt
      have hsum := sum_set (codec.eventLength ⟨sequence, observedAt, payload⟩) hlen
      rw [getElem_map] at hsum
      rw [map_set]
      omega

/-- What appending an event establishes: the events stay numbered, valid and counted, and a slot
stays free. -/
theorem appendedHandle_eq_ok (hv : HandleValid coordinator queryId handle)
    (hpay : PayloadValid payload) (hl : ¬handle.phase.isTerminal)
    (hr : handle.resultRetention = .reserved)
    (h : appendedHandle coordinator handle payload observedAt = .ok (next, event)) :
    HandleValid coordinator queryId next ∧ Follows handle next ∧ next.phase = handle.phase ∧
      next.resultRetention = handle.resultRetention ∧
      next.eventBytes ≤ coordinator.policy.maxEventBytesPerQuery := by
  simp only [appendedHandle, ok_iff, checkedSub_eq_some, checkedAdd_eq_some, exists_const,
    Prod.mk.injEq, not_or, not_le, not_lt] at h
  obtain ⟨_, hseq, kept, hk, _, ⟨_, rfl⟩, ⟨hsl, _⟩, rfl, rfl⟩ := h
  have hbd := coordinator.policy.eventBytes_lt
  obtain ⟨hsq, hpy, hc⟩ := placeEvent_spec observedAt hv.sequences hseq (hv.bytes ▸ hk) _ rfl
  refine ⟨?_, ⟨rfl, rfl, rfl, .inl rfl, fun hr => hr⟩, rfl, rfl, ?_⟩
  · exact { hv with
      retention := by
        rw [hr]
        exact .inl hl
      sequences := hsq
      payloads := fun kept hk => (hpy kept hk).elim (hv.payloads kept) fun h => h ▸ hpay
      bytes := hc
      events_le := hsl.le
      events_lt := fun _ => hsl }
  · show kept + coordinator.codec.eventLength _ ≤ _
    omega

theorem closedHandle_eq_ok {state : QueryTerminalState} {closed : QueryHandle}
    (hv : HandleValid coordinator queryId handle)
    (h : closedHandle coordinator handle state publicCode observedAt = .ok (closed, event)) :
    closed = { handle.setPhase (.terminal state) with
        events := handle.events ++ [event], eventBytes := closed.eventBytes } ∧
      event.payload = .terminal state publicCode ∧
      closed.eventBytes ≤ coordinator.policy.maxEventBytesPerQuery ∧
      ∀ retention cancelled cancellationIds,
        RetentionValid (.terminal state) retention (handle.events ++ [event]) →
        cancellationIds.size ≤ maxCancellationIdentitiesPerQuery →
        (∀ id ∈ cancellationIds, validCancellationId id) →
        HandleValid coordinator queryId { closed with
          resultRetention := retention, cancelled, cancellationIds } := by
  simp only [closedHandle, ok_iff, checkedAdd_eq_some, exists_const, Prod.mk.injEq, not_or, not_le,
    not_lt] at h
  obtain ⟨_, hseq, _, ⟨-, rfl⟩, ⟨hsl, hb⟩, rfl, rfl⟩ := h
  refine ⟨rfl, rfl, hb, fun retention cancelled cancellationIds hret hsz hids => ?_⟩
  have hn := nextSequence_eq_ok hv.sequences hseq
  exact { hv with
    retention := hret
    sequences := sequences_concat hv.sequences hn
    payloads := fun kept hk => by
      rcases List.mem_append.1 hk with hmem | hmem
      · exact hv.payloads kept hmem
      · rw [List.mem_singleton.1 hmem]
        exact ⟨rfl, rfl⟩
    bytes := by
      rw [map_append, sum_append, ← hv.bytes]
      rfl
    events_le := by simpa using hsl
    events_lt := fun hl => absurd rfl hl
    cancellations_le := hsz
    cancellations := hids }

theorem abandonedRetention_ne_reserved (events : List QueryControlEvent) :
    abandonedRetention events ≠ .reserved := by
  unfold abandonedRetention
  split <;> simp

/-- What the terminal check establishes: a query that had not ended, closed as asked, and keeping
its reservation exactly if it succeeded. -/
theorem terminalHandle_eq_ok {actualResult : Option (Nat × Nat)}
    (hv : HandleValid coordinator queryId handle)
    (hrs : ¬handle.phase.isTerminal → handle.resultRetention = .reserved)
    (h : terminalHandle coordinator handle ending publicCode actualResult observedAt =
      .ok (next, event)) :
    ¬handle.phase.isTerminal ∧ HandleValid coordinator queryId next ∧ Follows handle next ∧
      next.phase = .terminal ending ∧
      decide (ending ≠ .succeeded) = decide (next.resultRetention ≠ .reserved) ∧
      next.eventBytes ≤ coordinator.policy.maxEventBytesPerQuery := by
  simp only [terminalHandle, ok_iff, exists_const, Prod.exists, Prod.mk.injEq] at h
  obtain ⟨hlv, _, hend, closed, _, hcl, rfl, rfl⟩ := h
  obtain ⟨hsh, -, hb, hvalidNext⟩ := closedHandle_eq_ok hv hcl
  have hen : PhaseFollows handle.phase (.terminal ending) := .inr (.inr ⟨hlv, rfl⟩)
  have hk : closed.resultRetention = .reserved := by
    rw [hsh]
    exact hrs hlv
  by_cases hsuc : ending = .succeeded
  · subst hsuc
    have hloc : (retainedLocator handle.events).isSome := by
      simp only [checkEnd, if_true, checkSucceeded, ok_iff, exists_const] at hend
      obtain ⟨_, -, -, hloc⟩ := hend
      exact hloc
    have hret : RetentionValid (.terminal .succeeded) .reserved closed.events := by
      refine .inr ⟨rfl, ?_⟩
      rw [hsh]
      obtain ⟨found, hfnd, hsm⟩ := lastEvent_isSome.1 hloc
      exact lastEvent_isSome.2 ⟨found, mem_append_left _ hfnd, hsm⟩
    have hn := hvalidNext .reserved closed.cancelled closed.cancellationIds
      (by rw [hsh] at hret; exact hret)
      (by rw [hsh]; exact hv.cancellations_le) (by rw [hsh]; exact hv.cancellations)
    refine ⟨hlv, ?_, ?_, ?_, ?_, hb⟩
    · rw [settleRetention, if_pos rfl]
      rw [← hk] at hn
      exact hn
    · rw [settleRetention, if_pos rfl, hsh]
      exact ⟨rfl, rfl, rfl, hen, fun _ => hrs hlv⟩
    · rw [settleRetention, if_pos rfl, hsh]
      rfl
    · rw [settleRetention, if_pos rfl, hk]
      rfl
  · have hn := hvalidNext (abandonedRetention closed.events) closed.cancelled
      closed.cancellationIds (by rw [hsh]; exact retentionValid_abandoned ending)
      (by rw [hsh]; exact hv.cancellations_le) (by rw [hsh]; exact hv.cancellations)
    refine ⟨hlv, ?_, ?_, ?_, ?_, ?_⟩
    · rw [settleRetention, if_neg hsuc]
      exact hn
    · rw [settleRetention, if_neg hsuc]
      refine ⟨by rw [hsh]; rfl, by rw [hsh]; rfl, by rw [hsh]; rfl, ?_, fun hk => ?_⟩
      · rw [hsh]
        exact hen
      · exact absurd hk (abandonedRetention_ne_reserved _)
    · rw [settleRetention, if_neg hsuc, hsh]
      rfl
    · rw [settleRetention, if_neg hsuc, decide_eq_true hsuc]
      exact (decide_eq_true (abandonedRetention_ne_reserved _)).symm
    · rw [settleRetention, if_neg hsuc]
      exact hb

/-! ## Checks -/

section

open NormalizedQueryOperation

protected theorem External.validateFields (fields : List (String × String)) :
    External (validateFields fields) := by
  induction fields with
  | nil => exact .ok
  | cons _ fields ih =>
    rw [validateFields]
    split
    · exact ih
    · exact .error nofun

protected theorem External.tryNew {canonicalize : List UInt8 → Option (List UInt8)}
    (operation : NormalizedQueryOperation) : External (operation.tryNew canonicalize) := by
  unfold tryNew
  exact .bind (.ensure nofun) fun _ => .bind (.ensure nofun)
    fun _ => .bind (.validateFields _) fun _ => .bind
      (.ensure nofun) fun _ => .bind (.okOr nofun) fun _ => .bind (.ensure nofun) fun _ => .ok

protected theorem External.admissionTotals {operation : NormalizedQueryOperation} :
    External (admissionTotals coordinator state operation queryId) := by
  unfold admissionTotals
  exact .bind (.ensure nofun) fun _ => .bind (.okOr nofun)
    fun _ => .bind (.okOr nofun) fun _ => .bind (.ensure nofun)
      fun _ => .bind (.ensure nofun) fun _ => .ok

protected theorem External.validateResultReadyPayload (payload : QueryControlEventPayload) :
    External (validateResultReadyPayload payload) := by
  cases payload with
  | resultReady =>
    exact .bind (.ensure nofun) fun _ => .ensure nofun
  | _ => exact .ok

protected theorem External.validatePublicationPending (payload : QueryControlEventPayload) :
    External (validatePublicationPending payload) := by
  cases payload with
  | publicationPending => exact .ensure nofun
  | _ => exact .ok

protected theorem External.checkPayload {precondition : Option PendingResultObjectSet} :
    External (checkPayload handle payload precondition) := by
  cases payload with
  | publicationPending =>
    refine .bind (.ensure nofun) fun _ => .bind (.ensure nofun) fun _ => ?_
    cases publicationIntent handle.events with
    | none | some => exact .ensure nofun
  | resultReady =>
    exact .bind (.okOr nofun) fun _ => .bind (.ensure nofun) fun _ => .ensure nofun
  | _ => exact .ok

protected theorem External.nextSequence (events : List QueryControlEvent) :
    External (nextSequence events) := by
  unfold nextSequence
  split
  · exact .ok
  · exact .okOr nofun

protected theorem External.appendedHandle :
    External (appendedHandle coordinator handle payload observedAt) := by
  refine .bind ?_ fun _ => .bind (.okOr nofun) fun _ =>
    .bind (.okOr nofun) fun _ => .bind (.ensure nofun) fun _ => .ok
  unfold appendSequence
  split
  · exact .ok
  · exact .nextSequence _

protected theorem External.closedHandle :
    External (closedHandle coordinator handle ending publicCode observedAt) :=
  .bind (.nextSequence _) fun _ => .bind (.okOr nofun) fun _ => .bind (.ensure nofun) fun _ => .ok

protected theorem External.terminalHandle {actualResult : Option (Nat × Nat)} :
    External (terminalHandle coordinator handle ending publicCode actualResult observedAt) := by
  refine .bind (.ensure nofun) fun _ => .bind ?_ fun _ => .bind .closedHandle fun _ => .ok
  unfold checkEnd
  split
  · exact .bind (.okOr nofun) fun _ => .bind (.ensure nofun) fun _ => .ensure nofun
  · exact .ok

protected theorem External.stagedHandle :
    External (stagedHandle coordinator handle observedAt) := by
  unfold stagedHandle
  split
  · exact .ok
  · exact .bind .closedHandle fun _ => .ok

end

/-! ## Operations -/

theorem wp_dispatchScan_keeps (attempts : Nat) :
    wp (dispatchScan policy attempts) state fun _ _ after =>
      ∀ queryId : QueryId, state.handles[queryId]?.isSome → after.handles[queryId]?.isSome := by
  induction attempts generalizing state with
  | zero => exact fun _ => id
  | succ attempts ih =>
    rw [dispatchScan, wp_read_bind]
    split_ifs
    · cases state.queue with
      | nil => exact fun _ => id
      | cons queryId =>
        rw [wp_update_bind, wp_check_bind]
        refine ⟨fun _ _ _ => id, fun handle _ => ?_⟩
        split_ifs
        · exact ih
        · rw [wp_update_bind]
          exact ih
        · simp only [wp_update_bind, wp_write_bind]
          have hk : ∀ other : QueryId, state.handles[other]?.isSome →
              (state.handles.insert queryId (handle.setPhase .running))[other]?.isSome := by
            intro other ho
            rw [getElem?_insert_eq]
            split_ifs
            · rfl
            · exact ho
          refine ⟨fun _ => hk, wp_mono ih fun _ _ after haf other ho => ?_⟩
          exact haf other (hk other ho)
    · exact fun _ => id

theorem wp_dispatchLocked_keeps : wp (dispatchLocked policy) state fun _ _ after =>
    ∀ queryId : QueryId, state.handles[queryId]?.isSome → after.handles[queryId]?.isSome := by
  rw [dispatchLocked, wp_read_bind]
  exact wp_dispatchScan_keeps policy _

section

variable (hs : Coherent coordinator state)
include hs

theorem wp_accept (operation : NormalizedQueryOperation) (observedAt : Int) :
    wp (accept coordinator operation observedAt) state (Realized coordinator true state) := by
  refine Realized.check (.tryNew operation) fun validated hval => ?_
  obtain ⟨rfl, -⟩ := NormalizedQueryOperation.tryNew_eq_ok hval
  refine Realized.check (.ensure (by simp)) fun _ _ => ?_
  rw [wp_read_bind]
  cases hsc : state.idempotency[validated.scope]? with
  | some queryId =>
    obtain ⟨handle, hfnd, -⟩ := (hs.idempotency _ _).1 hsc
    have hh : External (okOr state.handles[queryId]? .coordinatorState) := by
      rw [hfnd]
      exact .ok
    refine Realized.check hh fun _ _ => Realized.check (.ensure (by simp)) fun _ _ => ?_
    exact Realized.unchanged (by simp)
  | none =>
    refine Realized.check .admissionTotals fun _ ht => ?_
    refine Realized.childScope (Realized.check (.okOr (by simp)) fun _ _ => ?_)
    refine Realized.reserve ?_
    rw [wp_write_bind]
    refine ⟨fun _ => .failed, ?_⟩
    rw [wp_update_bind]
    refine wp_after_move [⟨.journal (.create _), .ok ()⟩] hs (.enroll hval hsc ht) fun hmid => ?_
    refine Realized.then (P := fun after =>
      after.handles[(⟨validated.fingerprint coordinator.codec.blake3⟩ : QueryId)]?.isSome)
      ?_ fun _ after hk => ?_
    · refine wp_mono (wp_and (wp_dispatchLocked hmid) (wp_dispatchLocked_keeps _))
        fun _ _ after h => ⟨h.1, fun _ => h.2 _ ?_⟩
      simp [enroll, newHandle]
    · obtain ⟨handle, hfnd⟩ := Option.isSome_iff_exists.1 hk
      rw [wp_read_bind, hfnd, okOr, wp_check_bind]
      exact ⟨by simp, fun _ _ => wp_pure.2 ⟨rfl, rfl, by simp⟩⟩

theorem setHandle_eq_exchange
    (hfnd : state.handles[queryId]? = some handle) (hph : next.phase = handle.phase)
    (hb : next.heldBytes = handle.heldBytes) (hpg : next.heldPages = handle.heldPages) :
    state.setHandle queryId next = state.exchange queryId handle next := by
  have hr : next.runs = handle.runs := by rw [runs, hph, runs]
  have hq : ¬(handle.phase = .queued ∧ next.phase ≠ .queued) := fun h => h.2 (hph.trans h.1)
  have ht : (if next.phase.isTerminal then state.taskReservations.erase queryId
      else state.taskReservations) = state.taskReservations := by
    split_ifs with he
    · refine erase_eq_self fun hmem => ?_
      have hl := ((hs.tasks queryId).trans (exists_found_iff hfnd)).1 hmem
      exact hl (hph ▸ he)
    · rfl
  rw [exchange, hr, recount_self, recount_self, if_neg hq, hb, hpg,
    ht, Nat.add_sub_cancel, Nat.add_sub_cancel, Nat.add_sub_cancel]
  rfl

theorem wp_appendEvent (payload : QueryControlEventPayload)
    (observedAt : Int) (precondition : Option PendingResultObjectSet) :
    wp (appendEventWithCleanupPrecondition coordinator queryId payload observedAt precondition)
      state (Realized coordinator false state) := by
  refine Realized.check (.ensure nofun) fun _ _ => ?_
  refine Realized.check (.validateResultReadyPayload payload) fun _ hrdy => ?_
  refine Realized.check (.validatePublicationPending payload) fun _ hpn => ?_
  rw [wp_read_bind]
  refine Realized.check (.okOr nofun) fun handle hh => ?_
  refine Realized.check (.ensure nofun) fun _ hl => ?_
  refine Realized.check .checkPayload fun _ _ => ?_
  refine Realized.check .appendedHandle fun ⟨next, event⟩ hn => ?_
  rw [okOr_eq_ok] at hh
  rw [ensure_eq_ok] at hl
  obtain ⟨hv, hfol, hph, hret, hb⟩ := appendedHandle_eq_ok
    (hs.handles queryId handle hh) ⟨hrdy, hpn⟩ hl
    (hs.reserved_of_live hh hl) hn
  have hxc := setHandle_eq_exchange hs hh hph (by rw [heldBytes, hret, hfol.operation, heldBytes])
    (by rw [heldPages, hret, hfol.operation, heldPages])
  dsimp only
  rw [wp_update_bind, wp_write_bind, hxc]
  refine ⟨fun _ => .failed, ?_⟩
  refine wp_after_move [⟨.journal (.replace _), .ok ()⟩] hs ?_ fun _ => .unchanged nofun
  refine .exchange hh hv hfol (.inl hb) (fun hq hrun => ?_) (.inl rfl)
  exact absurd (hph.symm.trans hrun) (by simp [hq])

theorem wp_terminal (ending : QueryTerminalState)
    (publicCode : Option String) (actualResult : Option (Nat × Nat)) (observedAt : Int) :
    wp (terminal coordinator queryId ending publicCode actualResult observedAt) state
      (Realized coordinator true state) := by
  rw [terminal, wp_read_bind]
  refine Realized.check (.okOr nofun) fun handle hh => ?_
  refine Realized.check .terminalHandle fun ⟨next, _⟩ hn => ?_
  rw [okOr_eq_ok] at hh
  obtain ⟨hl, hv, hfol, hph, hrel, hb⟩ := terminalHandle_eq_ok
    (hs.handles queryId handle hh) (hs.reserved_of_live hh) hn
  have he : next.phase.isTerminal := by rw [hph]; rfl
  dsimp only
  rw [wp_update_bind, wp_write_bind]
  refine ⟨fun _ => .failed, ?_⟩
  rw [wp_bind]
  refine wp_releaseClosed hs hh hl he hfol.operation hrel ?_
  refine wp_after_move [⟨.journal (.replace _), .ok ()⟩] hs ?_ fun hmid => ?_
  · refine .exchange hh hv hfol (.inl hb) (fun _ hrun => ?_) (.inl rfl)
    rw [hrun] at hph
    exact absurd hph nofun
  · exact Realized.return (wp_dispatchLocked hmid)

theorem wp_signal : wp (signal queryId) state (Realized coordinator false state) := by
  rw [signal, wp_read_bind]
  refine Realized.check (.okOr nofun) fun handle hh => ?_
  rw [okOr_eq_ok] at hh
  have hv : HandleValid coordinator queryId { handle with cancelled := true } :=
    { hs.handles queryId handle hh with }
  have hxc : state.setHandle queryId { handle with cancelled := true } =
      state.exchange queryId handle { handle with cancelled := true } :=
    setHandle_eq_exchange hs hh rfl rfl rfl
  rw [wp_update_bind, hxc]
  refine wp_after_move [] hs (.exchange hh hv ⟨rfl, rfl, rfl, .inl rfl, id⟩ (.inr rfl) ?_
    (.inr ⟨rfl, rfl⟩)) fun _ => .unchanged nofun
  intro hq hrun
  exact absurd (hq.symm.trans hrun) nofun

theorem wp_cancel (observedAt : Int) :
    wp (cancel coordinator queryId observedAt) state (Realized coordinator true state) := by
  refine Realized.seq hs (wp_signal hs) fun _ _ hmid => ?_
  split_ifs
  · exact Realized.return (wp_terminal hmid _ _ _ _)
  · exact .unchanged nofun

end

theorem remember_valid (hv : HandleValid coordinator queryId handle)
    (hid : validCancellationId cancellationId)
    (hsz : handle.cancellationIds.size < maxCancellationIdentitiesPerQuery) :
    (handle.remember cancellationId).cancellationIds.size ≤ maxCancellationIdentitiesPerQuery ∧
      ∀ known ∈ (handle.remember cancellationId).cancellationIds, validCancellationId known := by
  refine ⟨Std.ExtTreeSet.size_insert_le.trans hsz, fun known hk => ?_⟩
  rcases mem_insert_iff.1 hk with rfl | hmem
  · exact hid
  · exact hv.cancellations known hmem

section

variable (hs : Coherent coordinator state)
include hs

theorem wp_rememberCancellation
    (hfnd : state.handles[queryId]? = some handle) (hid : validCancellationId cancellationId)
    (hsz : handle.cancellationIds.size < maxCancellationIdentitiesPerQuery) :
    wp (rememberCancellation queryId handle cancellationId) state
      (Realized coordinator false state) := by
  rw [rememberCancellation, wp_update_bind, wp_journal_bind]
  rintro (_ | ⟨⟩)
  · exact wp_mono (wp_trivial _ _) fun _ _ _ _ => .failed
  · let next : QueryHandle := { handle.remember cancellationId with
      cancelled := handle.cancelled || decide (handle.phase = .running) }
    have hv := hs.handles queryId handle hfnd
    obtain ⟨hc, hids⟩ := remember_valid hv hid hsz
    have hn : HandleValid coordinator queryId next :=
      { hv with cancellations_le := hc, cancellations := hids }
    have hxc : state.setHandle queryId next = state.exchange queryId handle next :=
      setHandle_eq_exchange hs hfnd rfl rfl rfl
    have ht : (state.setHandle queryId (handle.remember cancellationId)).setHandle queryId next =
        state.exchange queryId handle next := by
      rw [← hxc, setHandle, setHandle, insert_insert]
      rfl
    rw [wp_update_bind]
    rw [ht]
    refine wp_after_move [⟨.journal (.replace _), .ok ()⟩] hs ?_ fun _ => .unchanged nofun
    refine .exchange hfnd hn ⟨rfl, rfl, rfl, .inl rfl, id⟩ (.inr rfl) (fun hq hrun => ?_) (.inl rfl)
    exact absurd (hq.symm.trans hrun) nofun

theorem wp_cancelQueued (hfnd : state.handles[queryId]? = some handle) (hq : handle.phase = .queued)
    (hid : validCancellationId cancellationId)
    (hsize : handle.cancellationIds.size < maxCancellationIdentitiesPerQuery) (observedAt : Int) :
    wp (cancelQueued coordinator queryId handle cancellationId observedAt) state
      (Realized coordinator true state) := by
  refine Realized.check .closedHandle fun ⟨closed, event⟩ hcl => ?_
  have hv := hs.handles queryId handle hfnd
  obtain ⟨hshape, -, hb, hvalidNext⟩ := closedHandle_eq_ok hv hcl
  obtain ⟨hcount, hids⟩ := remember_valid hv hid hsize
  have hlive : ¬handle.phase.isTerminal := by simp [hq, isTerminal]
  rw [wp_update_bind, wp_journal_bind]
  rintro (_ | ⟨⟩)
  · exact wp_mono (wp_trivial _ _) fun _ _ _ _ => .failed
  · let cancelled : QueryHandle := { closed.remember cancellationId with
      resultRetention := abandonedRetention closed.events }
    let next : QueryHandle := { cancelled with cancelled := true }
    have hnext : HandleValid coordinator queryId next := by
      have hret : RetentionValid (.terminal .cancelled) (abandonedRetention closed.events)
          (handle.events ++ [event]) := by
        rw [hshape]
        exact retentionValid_abandoned _
      refine hvalidNext _ true (closed.remember cancellationId).cancellationIds hret ?_ ?_
      · rw [hshape]
        exact hcount
      · rw [hshape]
        exact hids
    have hfol : Follows handle next := by
      refine ⟨?_, ?_, ?_, .inr (.inr ⟨hlive, ?_⟩), fun hkept => ?_⟩
      · show closed.operation = _
        rw [hshape]
        rfl
      · show { closed.acceptance with phase := handle.phase } = _
        rw [hshape]
        rfl
      · show closed.fingerprint = _
        rw [hshape]
        rfl
      · show closed.phase.isTerminal
        rw [hshape]
        rfl
      · exact absurd hkept (abandonedRetention_ne_reserved _)
    have hends : next.phase.isTerminal := by
      show closed.phase.isTerminal
      rw [hshape]
      rfl
    have htwice : (state.setHandle queryId cancelled).setHandle queryId next =
        state.setHandle queryId next := by
      rw [setHandle, setHandle, insert_insert]
      rfl
    have hrel : releaseQueued queryId handle = releaseClosed queryId handle true := by
      rw [releaseClosed, releaseSlot, if_neg (by simp [hq])]
      rfl
    rw [wp_update_bind]
    rw [htwice, hrel, wp_bind]
    refine wp_releaseClosed hs hfnd hlive hends hfol.operation ?_ ?_
    · exact (decide_eq_true (abandonedRetention_ne_reserved _)).symm
    · refine wp_after_move [⟨.journal (.replace _), .ok ()⟩] hs ?_ fun hmid => ?_
      · refine .exchange hfnd hnext hfol (.inl hb) (fun _ hrun => ?_) (.inl rfl)
        simp [hrun, isTerminal] at hends
      · exact Realized.return (wp_dispatchLocked hmid)

theorem wp_cancelIdempotent (cancellationId : String) (observedAt : Int) :
    wp (cancelIdempotent coordinator queryId cancellationId observedAt) state
      (Realized coordinator true state) := by
  refine Realized.check (.ensure nofun) fun _ hid => ?_
  rw [wp_read_bind]
  refine Realized.check (.okOr nofun) fun handle hh => ?_
  rw [okOr_eq_ok] at hh
  rw [ensure_eq_ok] at hid
  by_cases hk : cancellationId ∈ handle.cancellationIds
  · rw [if_pos hk]
    exact .unchanged nofun
  · rw [if_neg hk]
    refine Realized.check (.ensure nofun) fun _ hsz => ?_
    rw [ensure_eq_ok] at hsz
    split_ifs with hq
    · exact wp_cancelQueued hs hh hq hid hsz observedAt
    · exact Realized.weaken (wp_rememberCancellation hs hh hid hsz)

theorem wp_releaseResult : wp (releaseResult queryId) state (Realized coordinator false state) := by
  rw [releaseResult, wp_read_bind]
  refine Realized.check (.okOr (by simp)) fun handle hh => ?_
  refine Realized.check (.ensure (by simp)) fun _ hsuc => ?_
  rw [okOr_eq_ok] at hh
  rw [ensure_eq_ok] at hsuc
  by_cases hrs : handle.resultRetention = .reserved
  · rw [if_neg (not_not.2 hrs), wp_update_bind, wp_journal_bind]
    rintro (_ | ⟨⟩)
    · exact wp_mono (wp_trivial _ _) fun _ _ _ _ => .failed
    · let next : QueryHandle := { handle with resultRetention := .cleanupPending }
      have hv := hs.handles queryId handle hh
      have he : handle.phase.isTerminal := by rw [hsuc]; rfl
      have hloc : (retainedLocator handle.events).isSome := by
        have hret := hv.retention
        rw [hrs] at hret
        exact (hret.resolve_left (not_not.2 he)).2
      have hnx : HandleValid coordinator queryId next :=
        { hv with retention := ⟨he, cleanupObjectSet_isSome_of_locator hloc⟩ }
      have hnt : state.taskReservations.erase queryId = state.taskReservations := by
        refine erase_eq_self fun hmem => ?_
        exact ((hs.tasks queryId).trans (exists_found_iff hh)).1 hmem he
      have hqu : ¬(handle.phase = .queued ∧ next.phase ≠ .queued) := fun h => h.2 h.1
      have hxc : ({ state.setHandle queryId next with
          reservedResultBytes := state.reservedResultBytes - handle.heldBytes
          reservedResultPages := state.reservedResultPages - handle.heldPages } :
            CoordinatorState) = state.exchange queryId handle next := by
        have hrn : next.runs = handle.runs := rfl
        have hb : next.heldBytes = 0 := rfl
        have hpg : next.heldPages = 0 := rfl
        rw [exchange, hrn, recount_self, recount_self, if_neg hqu, hb,
          hpg, if_pos (show next.phase.isTerminal from he), hnt, Nat.add_sub_cancel]
        rfl
      refine wp_releaseHeld hs hh hrs rfl rfl ?_
      show Realized coordinator false state ([_] ++ []) _ { state.setHandle queryId next with
          reservedResultBytes := _, reservedResultPages := _ }
      rw [hxc]
      refine .of_moves (fun _ => .single ?_) (.unchanged (by simp))
      refine .exchange hh hnx ⟨rfl, rfl, rfl, .inl rfl, by simp⟩ (.inr rfl)
        (fun hq _ => ?_) (.inl rfl)
      simp [hq, isTerminal] at he
  · rw [if_pos hrs]
    exact .unchanged (by simp)

theorem wp_markResultCleanupComplete :
    wp (markResultCleanupComplete queryId) state (Realized coordinator false state) := by
  rw [markResultCleanupComplete, wp_read_bind]
  refine Realized.check (.okOr nofun) fun handle hh => ?_
  rw [okOr_eq_ok] at hh
  cases hret : handle.resultRetention with
  | released | reserved => exact .unchanged nofun
  | cleanupPending =>
    simp only [wp_update_bind, wp_journal_bind]
    rintro (_ | ⟨⟩)
    · exact wp_mono (wp_trivial _ _) fun _ _ _ _ => .failed
    · let next : QueryHandle := { handle with resultRetention := .released }
      have hv := hs.handles queryId handle hh
      have he : handle.phase.isTerminal := by
        have hvalidRetention := hv.retention
        rw [hret] at hvalidRetention
        exact hvalidRetention.1
      have hn : HandleValid coordinator queryId next := { hv with retention := he }
      have hb : handle.heldBytes = 0 := if_neg (by simp [hret])
      have hpg : handle.heldPages = 0 := if_neg (by simp [hret])
      have hxc : state.setHandle queryId next = state.exchange queryId handle next :=
        setHandle_eq_exchange hs hh rfl hb.symm hpg.symm
      show Realized coordinator false state ([_] ++ []) _ (state.setHandle queryId next)
      rw [hxc]
      refine .of_moves (fun _ => .single ?_) (.unchanged nofun)
      refine .exchange hh hn ⟨rfl, rfl, rfl, .inl rfl, nofun⟩ (.inr rfl) (fun hq _ => ?_) (.inl rfl)
      simp [hq, isTerminal] at he

end

/-! ## Expiry -/

theorem stagedHandle_eq_ok {staged : QueryHandle} (hv : HandleValid coordinator queryId handle)
    (hstg : handle.stagesCleanup) (h : stagedHandle coordinator handle observedAt = .ok staged) :
    HandleValid coordinator queryId { staged with cancelled := true } ∧
      Follows handle { staged with cancelled := true } ∧ staged.phase.isTerminal ∧
      staged.resultRetention = .cleanupPending ∧
      (staged.eventBytes ≤ coordinator.policy.maxEventBytesPerQuery ∨
        staged.eventBytes = handle.eventBytes) := by
  obtain ⟨hr, hob⟩ : handle.resultRetention = .reserved ∧
      (cleanupObjectSet handle.events).isSome := by
    simpa [stagesCleanup] using hstg
  unfold stagedHandle at h
  split_ifs at h with he
  · cases h
    refine ⟨{ hv with retention := ⟨he, hob⟩ }, ?_, he, rfl, .inr rfl⟩
    exact ⟨rfl, rfl, rfl, .inl rfl, nofun⟩
  · simp only [ok_iff, Prod.exists] at h
    obtain ⟨closed, event, hcl, rfl⟩ := h
    obtain ⟨hsh, -, hb, hvalidNext⟩ := closedHandle_eq_ok hv hcl
    have ho' : (cleanupObjectSet (handle.events ++ [event])).isSome := by
      obtain ⟨found, hfnd, hsm⟩ := lastEvent_isSome.1 hob
      exact lastEvent_isSome.2 ⟨found, mem_append_left _ hfnd, hsm⟩
    refine ⟨?_, ⟨?_, ?_, ?_, .inr (.inr ⟨he, ?_⟩), nofun⟩, ?_, rfl, .inl hb⟩
    · refine hvalidNext .cleanupPending true closed.cancellationIds ⟨rfl, ho'⟩ ?_ ?_
      · rw [hsh]
        exact hv.cancellations_le
      · rw [hsh]
        exact hv.cancellations
    all_goals
      rw [hsh]
      rfl

/-- What the rest of an expiry can rely on: the other handles are as they were. -/
def Frames (state : CoordinatorState) (queryId : QueryId) (after : CoordinatorState) : Prop :=
  ∀ other : QueryId, queryId ≠ other → after.handles[other]? = state.handles[other]?

section

variable (hs : Coherent coordinator state) (hfnd : state.handles[queryId]? = some handle)
include hs hfnd

theorem wp_stageExpired (hstg : handle.stagesCleanup) (observedAt : Int) :
    wp (stageExpired coordinator queryId handle observedAt) state fun calls result after =>
      Realized coordinator false state calls result after ∧
        (Written calls → Frames state queryId after) := by
  have hrs : handle.resultRetention = .reserved := by
    simp only [stagesCleanup, Bool.and_eq_true, beq_iff_eq] at hstg
    exact hstg.1
  rw [stageExpired, wp_check_bind]
  refine ⟨fun _ herr => ⟨Realized.unchanged ?_, fun _ _ _ => rfl⟩, fun staged hst => ?_⟩
  · rintro ⟨⟩
    exact External.stagedHandle herr
  obtain ⟨hnx, hfol, hen, hret, hbd⟩ :=
    stagedHandle_eq_ok (hs.handles queryId handle hfnd) hstg hst
  let next : QueryHandle := { staged with cancelled := true }
  rw [wp_update_bind, wp_write_bind]
  refine ⟨fun _ => ⟨Realized.failed, fun h => by simp at h⟩, ?_⟩
  rw [wp_bind]
  refine wp_releaseLiveSlot hs hfnd ?_
  rw [afterwards_ok, wp_update_bind, wp_bind]
  refine wp_releaseHeld hs hfnd hrs rfl rfl ?_
  let final : CoordinatorState := { state with
    handles := (state.handles.insert queryId staged).insert queryId next
    running := state.running - handle.runs
    runningByWorkspace := recount state.runningByWorkspace handle.workspace handle.runs 0
    runningByPrincipal := recount state.runningByPrincipal handle.principal handle.runs 0
    queue := state.queue.filter (· ≠ queryId)
    reservedResultBytes := state.reservedResultBytes - handle.heldBytes
    reservedResultPages := state.reservedResultPages - handle.heldPages
    taskReservations := state.taskReservations.erase queryId }
  have hfn : final = state.exchange queryId handle next := by
    have hb : next.heldBytes = 0 := if_neg (by simp [next, hret])
    have hpg : next.heldPages = 0 := if_neg (by simp [next, hret])
    have hnextEnds : next.phase.isTerminal := hen
    rw [exchange_ends hs hfnd hnextEnds, hb, hpg]
    simp only [final, insert_insert]
    rfl
  show Realized coordinator false state [⟨.journal (.replace (durableRecord staged)), .ok ()⟩]
    (.ok ())
    final ∧ (Written _ → Frames state queryId final)
  rw [hfn]
  refine ⟨fun _ => ⟨(Moves.single ?_).conducts, by simp⟩, fun _ _ ho => ?_⟩
  · refine .exchange hfnd hnx hfol hbd (fun _ hrun => ?_) (.inl rfl)
    have hph : staged.phase = .running := hrun
    simp [hph, isTerminal] at hen
  · rw [exchange, getElem?_insert_eq, if_neg ho]

theorem wp_dropExpired (hu : handle.resultRetention ≠ .cleanupPending ∧ ¬handle.stagesCleanup) :
    wp (dropExpired queryId handle) state fun calls result after =>
      Realized coordinator false state calls result after ∧
        (Written calls → Frames state queryId after) := by
  -- The result reservation is given back exactly if the query still held it.
  have hh : ∀ {changed : CoordinatorState}
      {Q : Calls → Except CoordinatorError Unit → CoordinatorState → Prop},
      changed.reservedResultBytes = state.reservedResultBytes →
      changed.reservedResultPages = state.reservedResultPages → Q [] (.ok ()) { changed with
        reservedResultBytes := state.reservedResultBytes - handle.heldBytes
        reservedResultPages := state.reservedResultPages - handle.heldPages } →
      wp (releaseHeld handle (handle.resultRetention = .reserved)) changed Q := by
    intro changed Q hb hpg h
    by_cases hr : handle.resultRetention = .reserved
    · rw [decide_eq_true hr]
      exact wp_releaseHeld hs hfnd hr hb hpg h
    · have hzeroBytes : handle.heldBytes = 0 := if_neg hr
      have hzeroPages : handle.heldPages = 0 := if_neg hr
      rw [hzeroBytes, hzeroPages, Nat.sub_zero, Nat.sub_zero, ← hb, ← hpg] at h
      rw [decide_eq_false hr]
      exact h
  rw [dropExpired, wp_update_bind, unqueue, wp_update_bind, wp_bind]
  refine wp_releaseIfRunning hs hfnd rfl rfl rfl ?_
  rw [afterwards_ok, wp_bind]
  refine hh rfl rfl ?_
  rw [afterwards_ok, releaseTask, wp_update_bind, wp_update_bind]
  have hd : ∀ answer, Realized coordinator false state
      [⟨.journal (.delete queryId), answer⟩] (answer.mapError JournalError.report)
        (state.drop queryId handle) ∧
      (Written [⟨.journal (.delete queryId), answer⟩] →
        Frames state queryId (state.drop queryId handle)) := by
    rintro (_ | ⟨⟩)
    · exact ⟨Realized.failed, fun h => by simp at h⟩
    · refine ⟨fun _ => ⟨(Moves.single (.drop hfnd hu)).conducts, nofun⟩, fun _ _ ho => ?_⟩
      rw [drop, getElem?_erase_eq, if_neg ho]
  exact hd

theorem wp_expireQuery (hk : handle.resultRetention ≠ .cleanupPending) (observedAt : Int) :
    wp (expireQuery coordinator queryId observedAt) state fun calls result after =>
      Realized coordinator false state calls result after ∧
        (Written calls → Frames state queryId after) := by
  rw [expireQuery, wp_read_bind, hfnd, okOr, wp_check_bind]
  refine ⟨fun _ h => (by cases h), fun found hok => ?_⟩
  obtain rfl : handle = found := Except.ok.inj hok
  split_ifs with hstg
  · exact wp_stageExpired hs hfnd hstg observedAt
  · exact wp_dropExpired hs hfnd ⟨hk, hstg⟩

omit hfnd in
theorem wp_expireQueries (observedAt : Int) {expired : List QueryId} (hnd : expired.Nodup)
    (hexp : ∀ queryId ∈ expired, ∃ handle, state.handles[queryId]? = some handle ∧
      handle.resultRetention ≠ .cleanupPending) :
    wp (expireQueries coordinator observedAt expired) state (Realized coordinator false state) := by
  induction expired generalizing state with
  | nil => exact .unchanged nofun
  | cons queryId expired ih =>
    obtain ⟨hfresh, hnd⟩ := List.nodup_cons.1 hnd
    obtain ⟨⟨handle, hfnd, hk⟩, hexp⟩ := List.forall_mem_cons.1 hexp
    refine Realized.bind hs (wp_expireQuery hs hfnd hk observedAt)
      fun _ _ hmid hfr => ih hmid hnd fun other ho => ?_
    rw [hfr other fun heq => hfresh (heq ▸ ho)]
    exact hexp other ho

end

theorem wp_joinScopes (expired : List QueryId) :
    wp (joinScopes expired) state fun calls result after =>
      after = state ∧ journalWrites calls = [] ∧ result ≠ .error .coordinatorState := by
  induction expired with
  | nil => exact wp_pure.2 ⟨rfl, rfl, nofun⟩
  | cons _ expired ih =>
    rw [joinScopes, wp_joinScope_bind]
    exact ⟨fun _ => ⟨rfl, rfl, nofun⟩, ih⟩

theorem expiredQueries_found {observedAt : Int} (h : queryId ∈ expiredQueries state observedAt) :
    ∃ handle, state.handles[queryId]? = some handle ∧ handle.resultRetention ≠ .cleanupPending := by
  obtain ⟨⟨_, handle⟩, hen, rfl⟩ := List.mem_map.1 h
  obtain ⟨hmem, hexp⟩ := List.mem_filter.1 hen
  refine ⟨handle, Std.ExtTreeMap.mem_toList_iff_getElem?_eq_some.1 hmem, ?_⟩
  simpa using (Bool.and_eq_true_iff.1 hexp).2

theorem wp_collectExpired (hs : Coherent coordinator state) (observedAt : Int) :
    wp (collectExpired coordinator observedAt) state (Realized coordinator true state) := by
  rw [collectExpired, wp_read_bind]
  have hnd : (expiredQueries state observedAt).Nodup := by
    refine List.Nodup.map_on ?_ ((nodup_toList _).filter _)
    rintro ⟨_⟩ hlf ⟨_⟩ hrg rfl
    have hl := Std.ExtTreeMap.mem_toList_iff_getElem?_eq_some.1 (List.mem_filter.1 hlf).1
    have hr := Std.ExtTreeMap.mem_toList_iff_getElem?_eq_some.1 (List.mem_filter.1 hrg).1
    rw [Option.some.inj (hl.symm.trans hr)]
  refine Realized.seq hs (wp_expireQueries hs observedAt hnd fun _ => expiredQueries_found)
    fun _ _ hmid => ?_
  refine Realized.then (P := fun _ => True)
    (wp_mono (wp_dispatchLocked hmid) fun _ _ _ h => ⟨h, fun _ => trivial⟩) fun _ _ _ => ?_
  rw [wp_bind]
  refine wp_mono (wp_joinScopes _) fun _ result _ ⟨haf, hwrs, hres⟩ => ?_
  cases result with
  | error error => exact ⟨haf, hwrs, by simpa using hres⟩
  | ok =>
    rw [afterwards_ok, wp_pure, append_nil]
    exact ⟨haf, hwrs, nofun⟩

end CodeFabric.Query
