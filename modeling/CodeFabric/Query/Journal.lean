import CodeFabric.Query.Histories

/-! # What the journal holds

The contents of the control journal after a list of successful writes, and how they follow the
coordinator's state: at every moment between two changes the journal holds the record of every
query and of no other.

* **`journaled`** are the records after a list of writes, **`accepted`** the live queries in the
  order they were accepted.
* **`Tracks`** relates both to a state; **`Change.tracks`**: every change keeps the relation. -/

namespace CodeFabric.Query

open CodeFabric.Command Fallible TreeMaps Procedures Interleaving Runs List

/-! ## Contents -/

abbrev Records := Std.ExtTreeMap QueryId DurableQueryRecord

def JournalWrite.apply (records : Records) : JournalWrite → Records
  | .create record => records.insert record.acceptance.queryId record
  | .replace record => records.insert record.acceptance.queryId record
  | .delete queryId => records.erase queryId

open JournalWrite

def journaled (writes : List JournalWrite) : Records := writes.foldl JournalWrite.apply ∅

def JournalWrite.enlist (order : List QueryId) : JournalWrite → List QueryId
  | .create record => order ++ [record.acceptance.queryId]
  | .replace _ => order
  | .delete queryId => order.filter (· ≠ queryId)

def accepted (writes : List JournalWrite) : List QueryId := writes.foldl JournalWrite.enlist []

/-! ## The journal follows the state -/

variable {coordinator : QueryCoordinator} {state after : CoordinatorState} {records : Records}
  {order : List QueryId} {writes : List JournalWrite} {queryId : QueryId}

/-- The journal holds the record of every query. -/
def Mirrors (records : Records) (state : CoordinatorState) : Prop :=
  ∀ queryId : QueryId, records[queryId]? = state.handles[queryId]?.map durableRecord

theorem mirrors_default : Mirrors ∅ .default := fun _ => by simp [CoordinatorState.default]

theorem Mirrors.insert (h : Mirrors records state) {next : QueryHandle}
    (hid : next.acceptance.queryId = queryId) (hhs : after.handles =
      state.handles.insert queryId next) :
    Mirrors (records.insert (durableRecord next).acceptance.queryId (durableRecord next))
      after := by
  intro other
  have hkey : (durableRecord next).acceptance.queryId = queryId := hid
  rw [hkey, hhs, getElem?_insert_eq, getElem?_insert_eq]
  split_ifs
  · rfl
  · exact h other

theorem Move.mirrors (move : Move coordinator state writes after) (h : Mirrors records state) :
    Mirrors (writes.foldl JournalWrite.apply records) after := by
  cases move with
  | enroll valid free totals => exact h.insert rfl rfl
  | exchange found valid follows bounded waits written =>
    obtain rfl | ⟨rfl, hs⟩ := written
    · exact h.insert valid.queryId_eq rfl
    · intro other
      rw [CoordinatorState.exchange, getElem?_insert_eq]
      split_ifs with ho
      · rw [Option.map_some, hs, ← ho]
        exact (h _).trans (congrArg _ found)
      · exact h other
  | drop found unowned =>
    rename_i queryId handle
    intro other
    show (records.erase queryId)[other]? = _
    rw [CoordinatorState.drop, getElem?_erase_eq, getElem?_erase_eq]
    split_ifs
    · rfl
    · exact h other

theorem DispatchMove.mirrors (move : DispatchMove coordinator state writes after)
    (hs : Coherent coordinator state) (h : Mirrors records state) :
    Mirrors (writes.foldl apply records) after := by
  cases move with
  | rotate queue found => exact h
  | start queue found =>
    exact h.insert (hs.handles _ _ found).queryId_eq rfl

/-- The order of acceptance lists every query once. -/
structure Lists (order : List QueryId) (state : CoordinatorState) : Prop where
  nodup : order.Nodup
  mem : ∀ queryId : QueryId, queryId ∈ order ↔ state.handles[queryId]?.isSome

theorem lists_default : Lists [] .default :=
  ⟨nodup_nil, fun _ => by simp [CoordinatorState.default]⟩

theorem Lists.insert (h : Lists order state) {handle next : QueryHandle}
    (hfd : state.handles[queryId]? = some handle)
    (hhs : after.handles = state.handles.insert queryId next) : Lists order after where
  nodup := h.nodup
  mem other := by
    rw [h.mem, hhs, getElem?_insert_eq]
    split_ifs with ho
    · rw [← ho, hfd]
      simp
    · rfl

theorem Move.lists (move : Move coordinator state writes after) (h : Lists order state) :
    Lists (writes.foldl JournalWrite.enlist order) after := by
  cases move with
  | @enroll _ fingerprint _ _ _ valid _ totals =>
    have hf := (admissionTotals_eq_ok totals).2.2.2.2.2.2
    have hnew : (⟨fingerprint⟩ : QueryId) ∉ order := by simp [h.mem, hf]
    constructor
    · refine nodup_append.2 ⟨h.nodup, nodup_singleton _, ?_⟩
      rintro _ hl other ho rfl
      rw [mem_singleton.1 ho] at hl
      exact hnew hl
    · intro other
      show other ∈ order ++ [(⟨fingerprint⟩ : QueryId)] ↔ _
      rw [mem_append, mem_singleton, h.mem]
      show _ ↔ ((state.handles.insert _ _)[other]?).isSome
      rw [getElem?_insert_eq]
      split_ifs with ho
      · exact iff_of_true (.inr ho.symm) rfl
      · exact or_iff_left fun heq => ho heq.symm
  | exchange found valid _ _ _ written =>
    obtain rfl | ⟨rfl, -⟩ := written
    · exact h.insert found rfl
    · exact h.insert found rfl
  | drop found =>
    rename_i queryId handle
    refine ⟨h.nodup.filter _, fun other => ?_⟩
    show other ∈ order.filter _ ↔ _
    rw [mem_filter, h.mem, CoordinatorState.drop, getElem?_erase_eq]
    split_ifs with ho
    · simp [ho]
    · simp [Ne.symm ho]

theorem DispatchMove.lists (move : DispatchMove coordinator state writes after)
    (h : Lists order state) : Lists (writes.foldl enlist order) after := by
  cases move with
  | rotate queue found => exact ⟨h.nodup, h.mem⟩
  | start queue found => exact h.insert found rfl

/-- A coherent state, its journal and its order of acceptance. -/
structure Tracks (coordinator : QueryCoordinator) (records : Records) (order : List QueryId)
    (state : CoordinatorState) : Prop where
  coherent : Coherent coordinator state
  mirrors : Mirrors records state
  lists : Lists order state

theorem tracks_default (coordinator : QueryCoordinator) : Tracks coordinator ∅ [] .default :=
  ⟨coherent_default coordinator, mirrors_default, lists_default⟩

theorem Move.tracks (move : Move coordinator state writes after)
    (h : Tracks coordinator records order state) :
    Tracks coordinator (writes.foldl apply records) (writes.foldl enlist order) after :=
  ⟨move.coherent h.coherent, move.mirrors h.mirrors, move.lists h.lists⟩

theorem DispatchMove.tracks (move : DispatchMove coordinator state writes after)
    (h : Tracks coordinator records order state) :
    Tracks coordinator (writes.foldl apply records) (writes.foldl enlist order) after :=
  ⟨move.coherent h.coherent, move.mirrors h.coherent h.mirrors, move.lists h.lists⟩

end CodeFabric.Query
