import CodeFabric.Command.Persisted
import CodeFabric.Support.BigEndian

/-! # The durable command-record journal

The SQLite journal of `fabric/command_record_sqlite.rs`: one row per operation, with the identity,
revision and state columns next to the canonical JSON of the whole record. A read trusts nothing:
it re-validates the decoded record, re-encodes it, and compares every column with it.

The serializer (`serde_json_canonicalizer::to_vec`) and the parser (`serde_json::from_slice`) are
a parameter, `RecordCodec`. A failing SQLite statement (`DurableStoreUnavailable`) is not part of
these functions; the actor system adds such failures to every store operation. -/

namespace CodeFabric.Command

open Fallible List

/-- Closed infrastructure failures exposed by the actor's ports. -/
inductive CommandPortError
  | durableStoreUnavailable | corruptRecord | contextUnavailable | effectUnavailable
  deriving DecidableEq, Repr

/-- Atomic insert outcome for revision-zero admission. -/
inductive DurableAdmissionWrite
  | inserted (record : CommandRecord)
  | existing (record : CommandRecord)
  deriving DecidableEq, Repr

/-- Durable compare-and-swap outcome for one reducer transition. -/
inductive DurableTransitionWrite
  | stored (record : CommandRecord)
  | revisionConflict (observed : Option CommandRecord)
  deriving DecidableEq, Repr

/-! ## Rows -/

structure StoredRow where
  operationId : List UInt8
  idempotencyKey : List UInt8
  workspaceId : List UInt8
  revision : List UInt8
  stateKind : String
  isTerminal : Int
  recordJcs : List UInt8
  deriving DecidableEq, Repr

/-- The external JSON libraries: the canonical serializer and the parser. -/
structure RecordCodec where
  /-- `serde_json_canonicalizer::to_vec`. -/
  toVec : CommandRecord → Option (List UInt8)
  /-- `serde_json::from_slice`. -/
  fromSlice : List UInt8 → Option CommandRecord

def maxRecordBytes : Nat := 64 * 1024

variable {name : IdentityName} {codec : RecordCodec} {record : CommandRecord} {encoded : List UInt8}
  {row : StoredRow}

def ByteIdentity.bytes {width : Nat} (identity : ByteIdentity name width) : List UInt8 :=
  identity.asBytes.toList

/-- The text of the `state_kind` column. -/
def stateKindName : CommandStateKind → String
  | .admitted => "ADMITTED"
  | .executing => "EXECUTING"
  | .commitPrepared => "COMMIT_PREPARED"
  | .awaitingReconciliation => "AWAITING_RECONCILIATION"
  | .retryReady => "RETRY_READY"
  | .succeeded => "SUCCEEDED"
  | .failed => "FAILED"
  | .cancelled => "CANCELLED"

def encodeRecord (codec : RecordCodec) (record : CommandRecord) :
    Except CommandPortError (List UInt8) := do
  (validatePersistedInvariants record).mapError fun _ => .corruptRecord
  let bytes ← okOr (codec.toVec record) .corruptRecord
  ensure (2 ≤ bytes.length ∧ bytes.length ≤ maxRecordBytes) .corruptRecord
  return bytes

/-- Decode one row, rejecting every row whose columns and canonical bytes do not agree. -/
def decodeRow (codec : RecordCodec) (row : StoredRow) : Except CommandPortError CommandRecord := do
  ensure (row.operationId.length = 16 ∧ row.idempotencyKey.length = 32 ∧
      row.workspaceId.length = 16 ∧ row.revision.length = 8 ∧
      row.recordJcs.length ≤ maxRecordBytes ∧ (row.isTerminal = 0 ∨ row.isTerminal = 1))
    .corruptRecord
  let record ← okOr (codec.fromSlice row.recordJcs) .corruptRecord
  (validatePersistedInvariants record).mapError fun _ => .corruptRecord
  let encoded ← encodeRecord codec record
  ensure (encoded = row.recordJcs) .corruptRecord
  ensure (record.operationId.bytes = row.operationId ∧
      record.command.identity.idempotencyKey.bytes = row.idempotencyKey ∧
      record.command.ownership.workspaceId.bytes = row.workspaceId ∧
      record.revision = BigEndian.decode row.revision ∧
      stateKindName record.state.kind = row.stateKind ∧
      (record.state.isTerminal ↔ row.isTerminal = 1))
    .corruptRecord
  return record

/-- The row a write binds for a record and its encoded bytes. -/
def rowOf (record : CommandRecord) (encoded : List UInt8) : StoredRow where
  operationId := record.operationId.bytes
  idempotencyKey := record.command.identity.idempotencyKey.bytes
  workspaceId := record.command.ownership.workspaceId.bytes
  revision := BigEndian.encode 8 record.revision
  stateKind := stateKindName record.state.kind
  isTerminal := if record.state.isTerminal then 1 else 0
  recordJcs := encoded

theorem encodeRecord_ok : encodeRecord codec record = .ok encoded ↔
    Persistable record ∧ codec.toVec record = some encoded ∧
      2 ≤ encoded.length ∧ encoded.length ≤ maxRecordBytes := by
  unfold encodeRecord
  simp only [ok_iff, mapError_eq_ok, validatePersistedInvariants_ok]
  constructor
  · rintro ⟨-, hv, _, hb, -, hlen, rfl⟩
    exact ⟨hv, hb, hlen⟩
  · rintro ⟨hv, hb, hlen⟩
    exact ⟨(), hv, encoded, hb, (), hlen, rfl⟩

@[simp] theorem ByteIdentity.length_bytes {width : Nat}
    (identity : ByteIdentity name width) : identity.bytes.length = width := by
  simp [bytes]

theorem ByteIdentity.bytes_inj {width : Nat}
    {left right : ByteIdentity name width} : left.bytes = right.bytes ↔ left = right := by
  cases left
  cases right
  simp [bytes, Vector.toList_inj]

/-- A row decodes to a record exactly when it is the row a write of that record binds, and the
parser reads the record back from the serialized bytes. -/
theorem decodeRow_ok : decodeRow codec row = .ok record ↔
    encodeRecord codec record = .ok row.recordJcs ∧
      codec.fromSlice row.recordJcs = some record ∧ record.revision < 2 ^ 64 ∧
      row = rowOf record row.recordJcs := by
  unfold decodeRow
  simp only [ok_iff, mapError_eq_ok]
  constructor
  · rintro ⟨-, ⟨-, -, -, hwd, -, _⟩, _, hp, -, -, _, henc, -, rfl, -,
      ⟨hop, hkey, hws, hrev, hkn, ht⟩, rfl⟩
    refine ⟨henc, hp, ?_, ?_⟩
    · have hlt := BigEndian.decode_lt row.revision
      rw [hwd] at hlt
      rw [hrev]
      exact hlt
    · have hb := BigEndian.encode_decode row.revision
      rw [hwd, ← hrev] at hb
      cases row
      simp only [rowOf, StoredRow.mk.injEq] at *
      refine ⟨hop.symm, hkey.symm, hws.symm, hb.symm, hkn.symm, ?_, trivial⟩
      -- the flag column is 0 or 1, and it is 1 exactly for a terminal record
      split <;> simp_all
  · rintro ⟨henc, hp, hrev, hrow⟩
    obtain ⟨hv, -, -, hlen⟩ := encodeRecord_ok.1 henc
    rw [hrow] at henc hp hlen ⊢
    refine ⟨(), ⟨by simp [rowOf], by simp [rowOf], by simp [rowOf], by simp [rowOf], hlen, ?_⟩,
      record, hp, (), validatePersistedInvariants_ok.2 hv, _, henc, (), rfl,
      (), ⟨rfl, rfl, rfl, ?_, rfl, ?_⟩, rfl⟩
    · simp only [rowOf]
      split <;> simp
    · exact (BigEndian.decode_encode hrev).symm
    · simp [rowOf]

theorem decodeRow_rowOf (henc : encodeRecord codec record = .ok encoded)
    (hp : codec.fromSlice encoded = some record) (hrev : record.revision < 2 ^ 64) :
    decodeRow codec (rowOf record encoded) = .ok record :=
  decodeRow_ok.2 ⟨henc, hp, hrev, rfl⟩

/-! ## The table -/

/-- The journal table, with its primary key and its unique column. -/
structure Table where
  rows : List StoredRow
  operationId_nodup : (rows.map StoredRow.operationId).Nodup
  idempotencyKey_nodup : (rows.map StoredRow.idempotencyKey).Nodup

def Table.empty : Table := ⟨[], .nil, .nil⟩

variable (table : Table)

/-- The rows in the order of `ORDER BY operation_id`: blobs compare byte by byte. -/
def Table.ordered : List StoredRow :=
  table.rows.mergeSort fun left right => decide (left.operationId ≤ right.operationId)

/-- `INSERT OR IGNORE`: the row is added unless it violates a unique key. -/
def Table.insertOrIgnore (row : StoredRow) : Table × Nat :=
  if h : row.operationId ∉ table.rows.map StoredRow.operationId ∧
      row.idempotencyKey ∉ table.rows.map StoredRow.idempotencyKey then
    (⟨table.rows ++ [row],
      by simpa [List.nodup_append, table.operationId_nodup] using h.1,
      by simpa [List.nodup_append, table.idempotencyKey_nodup] using h.2⟩, 1)
  else (table, 0)

/-- The condition `operation_id = ?1 AND revision = ?8` of the update. -/
def StoredRow.Matches (row : StoredRow) (operationId revision : List UInt8) : Prop :=
  row.operationId = operationId ∧ row.revision = revision
  deriving Decidable

/-- The columns an update sets; the primary key is not among them. -/
def StoredRow.set (row columns : StoredRow) : StoredRow :=
  { columns with operationId := row.operationId }

/-- `UPDATE … WHERE operation_id = ?1 AND revision = ?8`, with the number of affected rows.
`none` is the violation of the unique idempotency key. -/
def Table.update (operationId revision : List UInt8) (columns : StoredRow) : Option (Table × Nat) :=
  let rows := table.rows.map fun row =>
    if row.Matches operationId revision then row.set columns else row
  if h : (rows.map StoredRow.idempotencyKey).Nodup then
    some (⟨rows, by
        have hsame : rows.map StoredRow.operationId = table.rows.map StoredRow.operationId := by
          simp only [rows, List.map_map]
          refine List.map_congr_left fun row _ => ?_
          simp only [Function.comp_apply, StoredRow.set]
          split <;> rfl
        rw [hsame]
        exact table.operationId_nodup, h⟩,
      (table.rows.filter fun row => row.Matches operationId revision).length)
  else none

/-! ## Reads -/

def lookupAdmission (codec : RecordCodec) (table : Table) (operationId : OperationId)
    (idempotencyKey : IdempotencyKey) : Except CommandPortError (Option CommandRecord) := do
  let records ← (table.ordered.filter fun row =>
    row.operationId = operationId.bytes ∨ row.idempotencyKey = idempotencyKey.bytes).mapM
      (decodeRow codec)
  match records with
  | [] => return none
  | [record] => return some record
  | _ => throw .corruptRecord

def lookupOperation (codec : RecordCodec) (table : Table) (operationId : OperationId) :
    Except CommandPortError (Option CommandRecord) :=
  match table.rows.find? fun row => row.operationId = operationId.bytes with
  | none => .ok none
  | some row => do return some (← decodeRow codec row)

/-- Decode rows in order until `target` nonterminal records are found. -/
def decodeNonterminalRows (codec : RecordCodec) (target : Nat) :
    List StoredRow → List CommandRecord → Except CommandPortError (List CommandRecord)
  | [], records => .ok records
  | row :: rows, records => do
    let record ← decodeRow codec row
    if record.state.isTerminal then
      decodeNonterminalRows codec target rows records
    else if records.length + 1 = target then
      return records ++ [record]
    else
      decodeNonterminalRows codec target rows (records ++ [record])

/-- Bounded number of nonterminal records returned by one recovery read. -/
structure CommandRecoveryPageSize where
  get : Nat
  pos : 0 < get
  le_max : get ≤ 1024

structure CommandRecoveryPage where
  records : List CommandRecord
  nextAfter : Option OperationId
  deriving DecidableEq, Repr

/-- Read one bounded page of nonterminal records, after an exclusive operation cursor. -/
def loadNonterminalPage (codec : RecordCodec) (table : Table) (after : Option OperationId)
    (pageSize : CommandRecoveryPageSize) : Except CommandPortError CommandRecoveryPage := do
  let rows := match after with
    | some after => table.ordered.filter fun row => after.bytes < row.operationId
    | none => table.ordered
  let records ← decodeNonterminalRows codec (pageSize.get + 1) rows []
  if pageSize.get < records.length then
    let records := records.dropLast
    return ⟨records, records.getLast?.map CommandRecord.operationId⟩
  else
    return ⟨records, none⟩

/-- The first nonterminal record in the order of operation identities. -/
def firstNonterminal (codec : RecordCodec) (table : Table) :
    Except CommandPortError (Option CommandRecord) := do
  let page ← loadNonterminalPage codec table none ⟨1, by decide, by decide⟩
  return page.records.head?

/-! ## Writes -/

/-- Insert a record unless a unique key is taken, with the number of affected rows. -/
def insertRecord (codec : RecordCodec) (table : Table) (record : CommandRecord) :
    Except CommandPortError (Table × Nat) := do
  let encoded ← encodeRecord codec record
  return table.insertOrIgnore (rowOf record encoded)

/-- Atomically insert revision zero or return the record that won admission. -/
def insertIfAbsent (codec : RecordCodec) (table : Table) (admitted : CommandRecord) :
    Except CommandPortError (DurableAdmissionWrite × Table) := do
  ensure (admitted.revision = 0) .corruptRecord
  let (table, affected) ← insertRecord codec table admitted
  if affected = 1 then
    return (.inserted admitted, table)
  else
    let observed ← lookupAdmission codec table admitted.operationId
      admitted.command.identity.idempotencyKey
    let existing ← okOr observed .corruptRecord
    return (.existing existing, table)

/-- Persist exactly one reducer transition against its predecessor revision. -/
def compareAndSwap (codec : RecordCodec) (table : Table) (transition : ReducerTransition) :
    Except CommandPortError (DurableTransitionWrite × Table) := do
  let predecessor := transition.predecessor
  let successor := transition.successor
  let operationId := predecessor.operationId
  let nextRevision ← okOr (checkedAdd 64 predecessor.revision 1) .corruptRecord
  match ← lookupOperation codec table operationId with
  | none => return (.revisionConflict none, table)
  | some current =>
    if current.revision ≠ predecessor.revision then
      return (.revisionConflict (some current), table)
    else
      ensure (current = predecessor) .corruptRecord
      ensure (¬(transition.effect = .idempotentReplay ∨ successor.command ≠ current.command ∨
        successor.operationId ≠ operationId ∨ successor.revision ≠ nextRevision)) .corruptRecord
      let encoded ← encodeRecord codec successor
      let (table, affected) ← okOr
        (table.update operationId.bytes (BigEndian.encode 8 predecessor.revision)
          (rowOf successor encoded)) .durableStoreUnavailable
      ensure (affected = 1) .corruptRecord
      return (.stored successor, table)

/-! ## What the operations do -/

/-- The table after a record replaced the row of its operation. -/
def Table.replaced (row : StoredRow) : List StoredRow :=
  table.rows.map fun other => if other.operationId = row.operationId then row else other

theorem Table.eq_of_operationId_eq {left right : StoredRow}
    (hl : left ∈ table.rows) (hr : right ∈ table.rows)
    (h : left.operationId = right.operationId) : left = right :=
  inj_on_of_nodup_map table.operationId_nodup hl hr h

variable {table : Table}

theorem Table.update_of_mem {columns : StoredRow} (hrow : row ∈ table.rows)
    (hop : columns.operationId = row.operationId)
    (hkey : columns.idempotencyKey = row.idempotencyKey) :
    ∃ next : Table, table.update row.operationId row.revision columns = some (next, 1) ∧
      next.rows = table.replaced columns := by
  have hmat : ∀ other ∈ table.rows, other.Matches row.operationId row.revision ↔ other = row := by
    intro other ho
    refine ⟨fun h => table.eq_of_operationId_eq ho hrow h.1, ?_⟩
    rintro rfl
    exact ⟨rfl, rfl⟩
  have hset : row.set columns = columns := by
    simp only [StoredRow.set, ← hop]
  have hrw : (table.rows.map fun other =>
      if other.Matches row.operationId row.revision then other.set columns else other) =
        table.replaced columns := by
    refine map_congr_left fun other ho => ?_
    have hiff : other.operationId = columns.operationId ↔ other = row := by
      rw [hop]
      exact ⟨table.eq_of_operationId_eq ho hrow, congrArg _⟩
    simp only [hmat other ho, hiff]
    split
    · rename_i h
      rw [h, hset]
    · rfl
  have hnd : ((table.replaced columns).map StoredRow.idempotencyKey).Nodup := by
    have hsm : (table.replaced columns).map StoredRow.idempotencyKey =
        table.rows.map StoredRow.idempotencyKey := by
      simp only [replaced, map_map]
      refine map_congr_left fun other ho => ?_
      simp only [Function.comp_apply]
      split
      · rename_i h
        rw [table.eq_of_operationId_eq ho hrow (h.trans hop), hkey]
      · rfl
    rw [hsm]
    exact table.idempotencyKey_nodup
  have hc : (table.rows.filter fun other =>
      other.Matches row.operationId row.revision).length = 1 := by
    have hflt : (table.rows.filter fun other =>
        other.Matches row.operationId row.revision) = table.rows.filter fun other => other = row :=
      filter_congr fun other ho => by simp only [hmat other ho]
    have hd : table.rows.Nodup := table.operationId_nodup.of_map _
    rw [hflt, ← countP_eq_length_filter]
    exact (count_eq_one_of_mem hd hrow)
  unfold update
  simp only [hrw, hnd, dif_pos, hc]
  exact ⟨_, rfl, rfl⟩

theorem lookupOperation_some {operationId : OperationId} :
    lookupOperation codec table operationId = .ok (some record) ↔
      ∃ row ∈ table.rows, row.operationId = operationId.bytes ∧
        decodeRow codec row = .ok record := by
  unfold lookupOperation
  constructor
  · intro h
    split at h
    · simp at h
    · rename_i row hf
      refine ⟨row, mem_of_find?_eq_some hf, by simpa using find?_some hf, ?_⟩
      simpa only [ok_iff, Option.some.injEq, exists_eq_right] using h
  · rintro ⟨row, hrow, hop, hdec⟩
    have hf : (table.rows.find? fun other => other.operationId = operationId.bytes) = some row := by
      cases h : table.rows.find? fun other => other.operationId = operationId.bytes with
      | none => simpa [hop] using find?_eq_none.1 h row hrow
      | some other =>
        have ho : other.operationId = operationId.bytes := by simpa using find?_some h
        rw [table.eq_of_operationId_eq (mem_of_find?_eq_some h) hrow (ho.trans hop.symm)]
    simp [hf, hdec]

/-- Whether a row takes neither of the unique keys of the table. -/
def Table.Fresh (table : Table) (row : StoredRow) : Prop :=
  row.operationId ∉ table.rows.map StoredRow.operationId ∧
    row.idempotencyKey ∉ table.rows.map StoredRow.idempotencyKey

theorem Table.insertOrIgnore_of_fresh (h : table.Fresh row) :
    ∃ next : Table, table.insertOrIgnore row = (next, 1) ∧ next.rows = table.rows ++ [row] :=
  ⟨_, dif_pos h, rfl⟩

theorem Table.insertOrIgnore_of_not_fresh (h : ¬table.Fresh row) :
    table.insertOrIgnore row = (table, 0) :=
  dif_neg h

/-- What an acknowledged insertion did: it appended the admitted row under two fresh keys, or it
left the table alone and returned the record that holds one of the keys. -/
theorem insertIfAbsent_ok {next : Table} {admitted : CommandRecord} {write : DurableAdmissionWrite}
    (h : insertIfAbsent codec table admitted = .ok (write, next)) :
    (∃ encoded, encodeRecord codec admitted = .ok encoded ∧ write = .inserted admitted ∧
        table.Fresh (rowOf admitted encoded) ∧ next.rows = table.rows ++ [rowOf admitted encoded]) ∨
      ((∃ existing, write = .existing existing) ∧ next = table) := by
  unfold insertIfAbsent insertRecord at h
  simp only [ok_iff] at h
  obtain ⟨-, -, _, ⟨encoded, henc, rfl⟩, h⟩ := h
  by_cases hf : table.Fresh (rowOf admitted encoded)
  · obtain ⟨_, hins, hr⟩ := Table.insertOrIgnore_of_fresh hf
    simp only [hins, ↓reduceIte, pure_eq_ok, Prod.mk.injEq] at h
    obtain ⟨rfl, rfl⟩ := h
    exact .inl ⟨encoded, henc, rfl, hf, hr⟩
  · simp only [Table.insertOrIgnore_of_not_fresh hf, zero_ne_one, ↓reduceIte, ok_iff,
      Prod.mk.injEq] at h
    obtain ⟨_, -, existing, -, rfl, rfl⟩ := h
    exact .inr ⟨⟨existing, rfl⟩, rfl⟩

theorem insertIfAbsent_of_fresh {admitted : CommandRecord} (hrev : admitted.revision = 0)
    (henc : encodeRecord codec admitted = .ok encoded) (hf : table.Fresh (rowOf admitted encoded)) :
    ∃ next : Table, insertIfAbsent codec table admitted = .ok (.inserted admitted, next) ∧
      next.rows = table.rows ++ [rowOf admitted encoded] := by
  obtain ⟨next, hins, hrw⟩ := Table.insertOrIgnore_of_fresh hf
  refine ⟨next, ?_, hrw⟩
  unfold insertIfAbsent insertRecord
  simp only [ok_iff]
  refine ⟨(), hrev, _, ⟨encoded, henc, rfl⟩, ?_⟩
  simp only [hins, ↓reduceIte, pure_eq_ok]

/-- What makes a transition a legal single step of its record. -/
structure ReducerTransition.IsStep (transition : ReducerTransition) : Prop where
  command_eq : transition.successor.command = transition.predecessor.command
  revision_eq : transition.successor.revision = transition.predecessor.revision + 1
  revision_lt : transition.predecessor.revision + 1 < 2 ^ 64
  material : transition.effect ≠ .idempotentReplay

theorem rowKeys_of_decodeRow (h : decodeRow codec row = .ok record) :
    row.operationId = record.operationId.bytes ∧
      row.idempotencyKey = record.command.identity.idempotencyKey.bytes ∧
      row.revision = BigEndian.encode 8 record.revision := by
  obtain ⟨-, -, -, hrow⟩ := decodeRow_ok.1 h
  rw [hrow]
  exact ⟨rfl, rfl, rfl⟩

theorem Table.update_of_isStep (transition : ReducerTransition) (encoded : List UInt8)
    (hrow : row ∈ table.rows) (hdec : decodeRow codec row = .ok transition.predecessor)
    (hcmd : transition.successor.command = transition.predecessor.command) :
    ∃ next : Table, table.update transition.predecessor.operationId.bytes
        (BigEndian.encode 8 transition.predecessor.revision)
        (rowOf transition.successor encoded) = some (next, 1) ∧
      next.rows = table.replaced (rowOf transition.successor encoded) := by
  obtain ⟨hop, hkey, hrev⟩ := rowKeys_of_decodeRow hdec
  rw [← hop, ← hrev]
  refine update_of_mem hrow ?_ ?_
  · rw [hop, rowOf, CommandRecord.operationId, CommandRecord.operationId, hcmd]
  · rw [hkey, rowOf, hcmd]

/-- What an acknowledged compare-and-swap did: it left the table alone and reported a conflict, or
it replaced the row that decodes to the predecessor by the row of the successor. -/
theorem compareAndSwap_ok {next : Table} {transition : ReducerTransition}
    {write : DurableTransitionWrite}
    (h : compareAndSwap codec table transition = .ok (write, next)) :
    ((∃ observed, write = .revisionConflict observed) ∧ next = table) ∨
      (write = .stored transition.successor ∧ transition.IsStep ∧ ∃ encoded row,
        encodeRecord codec transition.successor = .ok encoded ∧ row ∈ table.rows ∧
        decodeRow codec row = .ok transition.predecessor ∧
        next.rows = table.replaced (rowOf transition.successor encoded)) := by
  unfold compareAndSwap at h
  simp only [ok_iff, checkedAdd_eq_some] at h
  obtain ⟨_, ⟨hf, rfl⟩, observed, hlk, h⟩ := h
  cases observed with
  | none =>
    simp only [pure_eq_ok, Prod.mk.injEq] at h
    exact .inl ⟨⟨none, h.1.symm⟩, h.2.symm⟩
  | some current =>
    by_cases hrev : current.revision = transition.predecessor.revision
    · simp only [hrev, ne_eq, not_true_eq_false, ↓reduceIte, ok_iff, Prod.mk.injEq, not_or,
        not_not] at h
      obtain ⟨-, rfl, -, ⟨hmat, hcmd, -, hn⟩, encoded, henc, ⟨_⟩, hu, -, -, rfl, rfl⟩ := h
      obtain ⟨row, hrow, -, hdec⟩ := lookupOperation_some.1 hlk
      obtain ⟨_, hres, hrw⟩ :=
        Table.update_of_isStep transition encoded hrow hdec hcmd
      cases hu.symm.trans hres
      exact .inr ⟨rfl, ⟨hcmd, hn, hf, hmat⟩, encoded, row, henc, hrow, hdec, hrw⟩
    · simp only [hrev, ne_eq, not_false_eq_true, ↓reduceIte, pure_eq_ok, Prod.mk.injEq] at h
      exact .inl ⟨⟨_, h.1.symm⟩, h.2.symm⟩

theorem compareAndSwap_of_isStep {transition : ReducerTransition} (hs : transition.IsStep)
    (hrow : row ∈ table.rows) (hdec : decodeRow codec row = .ok transition.predecessor)
    (henc : encodeRecord codec transition.successor = .ok encoded) : ∃ next : Table,
      compareAndSwap codec table transition = .ok (.stored transition.successor, next) ∧
      next.rows = table.replaced (rowOf transition.successor encoded) := by
  obtain ⟨next, hu, hrw⟩ :=
    Table.update_of_isStep transition encoded hrow hdec hs.command_eq
  have hlk : lookupOperation codec table transition.predecessor.operationId =
      .ok (some transition.predecessor) :=
    lookupOperation_some.2 ⟨row, hrow, (rowKeys_of_decodeRow hdec).1, hdec⟩
  have hop : transition.successor.operationId = transition.predecessor.operationId := by
    rw [CommandRecord.operationId, CommandRecord.operationId, hs.command_eq]
  refine ⟨next, ?_, hrw⟩
  unfold compareAndSwap
  simp only [ok_iff, checkedAdd_eq_some]
  refine ⟨_, ⟨hs.revision_lt, rfl⟩, _, hlk, ?_⟩
  simp [ensure, okOr, hs.command_eq, hs.revision_eq, hs.material, hop, henc, hu]

end CodeFabric.Command
