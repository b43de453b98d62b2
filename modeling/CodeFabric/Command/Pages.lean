import CodeFabric.Command.Journal

/-! # Recovery pages

Recovery reads the nonterminal records in pages, each from the cursor the page before it returned.
-/

namespace CodeFabric.Command

open Fallible List

/-- The pages from a cursor on, each read at the `next_after` of the one before, up to the last. -/
inductive ReadPages (codec : RecordCodec) (table : Table) (pageSize : CommandRecoveryPageSize) :
    Option OperationId → List CommandRecord → Prop
  | last {after records} (h : loadNonterminalPage codec table after pageSize =
    .ok ⟨records, none⟩) :
      ReadPages codec table pageSize after records
  | more {after records next rest}
      (h : loadNonterminalPage codec table after pageSize = .ok ⟨records, some next⟩)
      (hrest : ReadPages codec table pageSize (some next) rest) :
      ReadPages codec table pageSize after (records ++ rest)

/-- The record of a row, when it is to be recovered. -/
def liveRecord (codec : RecordCodec) (row : StoredRow) : Option CommandRecord :=
  (decodeRow codec row).toOption.filter fun record => !record.state.isTerminal

/-- The records to be recovered after a cursor, in the order of the table. -/
def Table.liveAfter (codec : RecordCodec) (table : Table) (after : Option OperationId) :
    List CommandRecord :=
  (table.ordered.filterMap (liveRecord codec)).filter fun record =>
    after.all fun id => id.bytes < record.operationId.bytes

variable {codec : RecordCodec} {table : Table} {record : CommandRecord} {row : StoredRow}

theorem liveRecord_eq_some : liveRecord codec row = some record ↔
    decodeRow codec row = .ok record ∧ ¬record.state.isTerminal := by
  cases h : decodeRow codec row <;> simp [liveRecord, h, Except.toOption, Option.filter_eq_some_iff]

theorem operationId_of_liveRecord (h : liveRecord codec row = some record) :
    record.operationId.bytes = row.operationId := by
  obtain ⟨-, -, -, hrow⟩ := decodeRow_ok.1 (liveRecord_eq_some.1 h).1
  rw [hrow, rowOf]

/-- The primary key orders the rows strictly. -/
theorem pairwise_ordered (table : Table) :
    table.ordered.Pairwise fun left right => left.operationId < right.operationId := by
  have hle : table.ordered.Pairwise fun left right => left.operationId ≤ right.operationId := by
    refine (pairwise_mergeSort ?_ ?_ table.rows).imp of_decide_eq_true
    · simp only [decide_eq_true_eq]
      exact fun _ _ _ => List.le_trans
    · simpa using fun a b : StoredRow => List.le_total a.operationId b.operationId
  have hne : table.ordered.Pairwise fun left right => left.operationId ≠ right.operationId :=
    pairwise_map.1 (((mergeSort_perm _ _).map _).nodup_iff.2 table.operationId_nodup)
  exact hle.imp₂ (fun _ _ hle hne => List.not_le.1 fun h => hne (List.le_antisymm hle h)) hne

theorem pairwise_live : (table.ordered.filterMap (liveRecord codec)).Pairwise fun left right =>
    left.operationId.bytes < right.operationId.bytes := by
  refine (pairwise_ordered table).filterMap _ fun _ _ hlt _ hl _ hr => ?_
  rwa [operationId_of_liveRecord hl, operationId_of_liveRecord hr]

/-- Past one of the records, what follows it is left. -/
theorem liveAfter_of_append {after : Option OperationId} {front rest : List CommandRecord}
    (h : table.liveAfter codec after = front ++ record :: rest) :
    table.liveAfter codec (some record.operationId) = rest := by
  have hpast : record ∈ table.liveAfter codec after := h ▸ mem_append_right _ mem_cons_self
  -- what is past the record is past the cursor
  have hsub : table.liveAfter codec (some record.operationId) = (table.liveAfter codec after).filter
        fun other => record.operationId.bytes < other.operationId.bytes := by
    rw [Table.liveAfter, Table.liveAfter, filter_filter]
    refine filter_congr fun other _ => ?_
    cases after with
    | none => simp
    | some id =>
      have hlt : id.bytes < record.operationId.bytes := by simpa using (mem_filter.1 hpast).2
      simpa using fun h => List.lt_trans hlt h
  have hsorted : (table.liveAfter codec after).Pairwise _ := pairwise_live.filter _
  rw [h, pairwise_append, pairwise_cons] at hsorted
  obtain ⟨-, ⟨hrest, -⟩, hfront⟩ := hsorted
  rw [hsub, h, filter_append, filter_cons, filter_eq_nil_iff.2, filter_eq_self.2]
  · simp [List.lt_irrefl]
  · exact fun other ho => decide_eq_true (hrest other ho)
  · intro other ho
    simpa using List.le_of_lt (hfront other ho record mem_cons_self)

theorem decodeNonterminalRows_eq {target : Nat} {rows : List StoredRow}
    {collected : List CommandRecord}
    (hdec : ∀ row ∈ rows, ∃ record, decodeRow codec row = .ok record)
    (hlt : collected.length < target) : decodeNonterminalRows codec target rows collected =
      .ok (collected ++ (rows.filterMap (liveRecord codec)).take (target - collected.length)) := by
  induction rows generalizing collected with
  | nil => simp [decodeNonterminalRows]
  | cons row rows ih =>
    obtain ⟨⟨record, hrow⟩, hrows⟩ := forall_mem_cons.1 hdec
    rw [decodeNonterminalRows, hrow]
    show ite _ _ _ = _
    split
    · rename_i ht
      have hnone : liveRecord codec row = none := by
        simp [liveRecord, hrow, ht, Except.toOption, Option.filter]
      rw [ih hrows hlt, filterMap_cons_none hnone]
    · rename_i ht
      rw [filterMap_cons_some (liveRecord_eq_some.2 ⟨hrow, ht⟩)]
      obtain ⟨left, hleft⟩ := Nat.exists_eq_add_of_lt hlt
      split
      · obtain rfl : left = 0 := by omega
        simp [hleft, pure, Except.pure]
      · have hlen : (collected ++ [record]).length = collected.length + 1 := length_append
        rw [ih hrows (by omega), hlen, append_assoc, hleft]
        simp [Nat.add_assoc, Nat.add_sub_add_left]

theorem filterMap_after (after : OperationId) :
    (table.ordered.filter fun row => after.bytes < row.operationId).filterMap (liveRecord codec) =
      table.liveAfter codec (some after) := by
  rw [Table.liveAfter, filter_filterMap, filterMap_filter]
  refine filterMap_congr fun row _ => ?_
  cases h : liveRecord codec row with
  | none => simp
  | some record => simp [← operationId_of_liveRecord h, Option.filter]

section

variable {pageSize : CommandRecoveryPageSize}
  (hdec : ∀ row ∈ table.rows, ∃ record, decodeRow codec row = .ok record)
include hdec

/-- **One page** is the last one, or leaves exactly what is past its last record. -/
theorem page_cases (pageSize : CommandRecoveryPageSize) (after : Option OperationId) :
    loadNonterminalPage codec table after pageSize = .ok ⟨table.liveAfter codec after, none⟩ ∨
    ∃ front record, loadNonterminalPage codec table after pageSize =
        .ok ⟨front ++ [record], some record.operationId⟩ ∧
      table.liveAfter codec after =
        front ++ record :: table.liveAfter codec (some record.operationId) := by
  have hall : ∀ row ∈ table.ordered, ∃ record, decodeRow codec row = .ok record :=
    fun row hrow => hdec row (mem_mergeSort.1 hrow)
  have hpos : ([] : List CommandRecord).length < pageSize.get + 1 := Nat.succ_pos _
  have hload : loadNonterminalPage codec table after pageSize =
      let records := (table.liveAfter codec after).take (pageSize.get + 1)
      if pageSize.get < records.length then
        .ok ⟨records.dropLast, records.dropLast.getLast?.map CommandRecord.operationId⟩
      else .ok ⟨records, none⟩ := by
    unfold loadNonterminalPage
    cases after with
    | none =>
      dsimp only
      rw [decodeNonterminalRows_eq hall hpos]
      simp [Table.liveAfter, bind, Except.bind, pure, Except.pure]
    | some id =>
      dsimp only
      rw [decodeNonterminalRows_eq (fun row hrow => hall row (mem_of_mem_filter hrow)) hpos,
        filterMap_after]
      simp [bind, Except.bind, pure, Except.pure]
  rw [hload]
  generalize hleft : table.liveAfter codec after = left
  dsimp only
  rw [length_take]
  split
  · have hdrop : (left.take (pageSize.get + 1)).dropLast = left.take pageSize.get := by
      rw [dropLast_eq_take, length_take, min_eq_left (by omega), Nat.add_sub_cancel, take_take,
        min_eq_left (Nat.le_succ _)]
    obtain hnil | ⟨front, record, hfront⟩ := eq_nil_or_concat' (left.take pageSize.get)
    · have hlen := congrArg length hnil
      have hsize := pageSize.pos
      rw [length_take, length_nil] at hlen
      omega
    have hsplit : left = front ++ record :: left.drop pageSize.get := by
      rw [append_cons, ← hfront, take_append_drop]
    refine .inr ⟨front, record, ?_, ?_⟩
    · simp [hdrop, hfront]
    · rw [liveAfter_of_append (hleft.trans hsplit)]
      exact hsplit
  · rw [take_of_length_le (by omega)]
    exact .inl rfl

/-- Whatever the page size, a complete read of the pages returns what is past the cursor. -/
theorem readPages_iff {after : Option OperationId} {records : List CommandRecord} :
    ReadPages codec table pageSize after records ↔ records = table.liveAfter codec after := by
  constructor
  · intro h
    induction h with
    | last h =>
      obtain hp | ⟨_, _, hp, -⟩ := page_cases hdec pageSize _
      all_goals cases h.symm.trans hp
      rfl
    | more h _ ih =>
      obtain hp | ⟨_, _, hp, hall⟩ := page_cases hdec pageSize _
      all_goals cases h.symm.trans hp
      rw [ih, hall, append_assoc, singleton_append]
  · rintro rfl
    -- by the number of records left
    generalize hn : (table.liveAfter codec after).length = n
    induction n using Nat.strong_induction_on generalizing after with
    | h n ih =>
      obtain hp | ⟨front, record, hp, hall⟩ := page_cases hdec pageSize after
      · exact .last hp
      · rw [hall, append_cons]
        refine .more hp (ih _ ?_ rfl)
        rw [← hn, hall, length_append, length_cons]
        omega

end

/-- **Recovery pagination**: from the start, the chain of pages ends, and returns every nonterminal
record once, in increasing order of the operation identities, and no terminal one. -/
theorem recovery_pages (codec : RecordCodec) (table : Table) (pageSize : CommandRecoveryPageSize)
    (hdec : ∀ row ∈ table.rows, ∃ record, decodeRow codec row = .ok record) :
    ∃ records, (∀ read, ReadPages codec table pageSize none read ↔ read = records) ∧
      records.Pairwise (fun left right => left.operationId.bytes < right.operationId.bytes) ∧
      ∀ record, record ∈ records ↔
        (∃ row ∈ table.rows, decodeRow codec row = .ok record) ∧ ¬record.state.isTerminal := by
  refine ⟨_, fun _ => readPages_iff hdec, pairwise_live.filter _, fun record => ?_⟩
  simp only [Table.liveAfter, Option.all_none, filter_true, mem_filterMap, liveRecord_eq_some,
    Table.ordered, mem_mergeSort, ← and_assoc, exists_and_right]

/-! ## Four rows -/

/-- A record of the sample command under an identity that repeats one byte. -/
def numbered (number : UInt8) (state : DurableCommandState) (revision : Nat) : CommandRecord :=
  ⟨{ sampleCommand with
      identity := ⟨⟨Vector.replicate 16 number⟩, ⟨Vector.replicate 32 number⟩⟩ }, state, revision⟩

def jsonFilled (digit : String) (width : Nat) : List UInt8 :=
  utf8 "[" ++ List.intercalate (utf8 ",") (List.replicate width (utf8 digit)) ++ utf8 "]"

def jsonNumbered (digit revision : String) (state : List UInt8) : List UInt8 :=
  jsonObject [("command", jsonCommandUnder (jsonFilled digit 32) (jsonFilled digit 16)),
    ("revision", utf8 revision), ("state", state)]

/-- Four records, not in the order of their operations; the second operation is cancelled. -/
def pageSamples : List (CommandRecord × List UInt8) :=
  [(numbered 3 (.executing 1 firstOwner) 1, jsonNumbered "3" "1"
      (jsonObject [("Executing", jsonObject [("attempt", utf8 "1"), ("owner", jsonOwner)])])),
    (numbered 2 (.cancelled ⟨zeroIdentity⟩) 1, jsonNumbered "2" "1" (jsonObject [("Cancelled",
      jsonObject [("cancellation", jsonObject [("diagnostic", jsonZeros 32)])])])),
    (numbered 4 (.admitted 1) 0, jsonNumbered "4" "0"
      (jsonObject [("Admitted", jsonObject [("attempt", utf8 "1")])])),
    (numbered 1 (.admitted 1) 0, jsonNumbered "1" "0"
      (jsonObject [("Admitted", jsonObject [("attempt", utf8 "1")])]))]

def pageCodec : RecordCodec where
  toVec record := pageSamples.lookup record
  fromSlice bytes := (pageSamples.find? fun sample => sample.2 = bytes).map Prod.fst

def pageTable : Table :=
  ⟨pageSamples.map fun sample => rowOf sample.1 sample.2, by decide +kernel, by decide +kernel⟩

theorem decodeRow_pageSamples : ∀ sample ∈ pageSamples,
    decodeRow pageCodec (rowOf sample.1 sample.2) = .ok sample.1 := by
  decide +kernel

/-- Three pages of one record, each read at the cursor of the page before, without the cancelled
operation. -/
theorem recovery_pages_sample : pageTable.rows.length = 4 ∧
    ∀ read, ReadPages pageCodec pageTable ⟨1, by decide, by decide⟩ none read ↔
      read = [numbered 1 (.admitted 1) 0, numbered 3 (.executing 1 firstOwner) 1,
        numbered 4 (.admitted 1) 0] := by
  have hrows (record : CommandRecord) : (∃ row ∈ pageTable.rows,
      decodeRow pageCodec row = .ok record) ↔ record ∈ pageSamples.map Prod.fst := by
    simp only [pageTable, mem_map, exists_exists_and_eq_and]
    refine exists_congr fun sample => and_congr_right fun hsample => ?_
    rw [decodeRow_pageSamples sample hsample, Except.ok.injEq]
  obtain ⟨records, hread, hsorted, hmem⟩ :=
    recovery_pages pageCodec pageTable ⟨1, by decide, by decide⟩ fun row hrow => by
      obtain ⟨sample, hsample, rfl⟩ := mem_map.1 hrow
      exact ⟨_, decodeRow_pageSamples sample hsample⟩
  have hperm : records ~
      (pageSamples.map Prod.fst).filter fun record => !record.state.isTerminal := by
    refine (perm_ext_iff_of_nodup ?_ (by decide +kernel)).2 fun record => ?_
    · refine hsorted.imp ?_
      rintro record _ hlt rfl
      exact List.lt_irrefl _ hlt
    · rw [hmem, hrows, mem_filter, Bool.not_eq_true', Bool.not_eq_true]
  have hlisted : records = [numbered 1 (.admitted 1) 0, numbered 3 (.executing 1 firstOwner) 1,
      numbered 4 (.admitted 1) 0] := by
    refine (hperm.trans (by decide +kernel)).eq_of_pairwise ?_ hsorted (by decide +kernel)
    exact fun _ _ _ _ hlt hgt => absurd hgt (List.lt_asymm hlt)
  exact ⟨rfl, fun read => hlisted ▸ hread read⟩

end CodeFabric.Command
