import CodeFabric.Command.Commit

/-! # The log of durable writes and commits

The global half of the at-most-once argument. Every record has a rank, its attempt and its phase in
the attempt, which no transition lowers. What the journal holds for an operation is therefore never
behind any transition ever stored for it, so each attempt is prepared at most once, and a later
attempt is prepared only after the earlier one was released by stored retry evidence.

The JSON libraries enter by one assumption, `RecordCodec.KeepsProgress`: a record that is written
and read back keeps its attempt number and its transaction. The identity, the revision and the kind
of state are columns that every read compares. -/

namespace CodeFabric.Command

open Fallible Interleaving Runs System.Yields Table List

variable {ι : Type} {left right : DurableCommandState}

/-! ## Progress -/

def DurableCommandState.transaction : DurableCommandState → Option TransactionRef
  | .commitPrepared _ _ transaction => some transaction
  | .awaitingReconciliation _ _ _ transaction .. => some transaction
  | .succeeded transaction .. => some transaction
  | _ => none

open DurableCommandState

/-- Two states of one kind, attempt and transaction. -/
structure DurableCommandState.SameProgress (left right : DurableCommandState) : Prop where
  kind : left.kind = right.kind
  attempt : left.attempt = right.attempt
  transaction : left.transaction = right.transaction

/-- The attempt and the phase within the attempt, as one number; terminal states come last. -/
def DurableCommandState.rank : DurableCommandState → WithTop ℕ
  | .admitted attempt | .retryReady attempt .. => (4 * attempt : ℕ)
  | .executing attempt _ => (4 * attempt + 1 : ℕ)
  | .commitPrepared attempt .. => (4 * attempt + 2 : ℕ)
  | .awaitingReconciliation attempt .. => (4 * attempt + 3 : ℕ)
  | .succeeded .. | .failed .. | .cancelled .. => ⊤

theorem DurableCommandState.SameProgress.rank_eq
    (h : left.SameProgress right) : left.rank = right.rank := by
  obtain ⟨_, _, -⟩ := h
  cases left <;> cases right <;>
    simp_all [DurableCommandState.kind, DurableCommandState.attempt, DurableCommandState.rank]

variable {transaction : TransactionRef} {attempt : Nat} {event : CommandEvent}
  {command : FabricCommand} {owner : ExecutionOwner} {codec : RecordCodec} {encoded : List UInt8}
  {operationId : OperationId} {world : World ι} {s : World ι} {t : World ι} {entry : LogEntry ι}
  {stored : ReducerTransition} {prepared : TransactionRef}

theorem DurableCommandState.SameProgress.holds
    (h : left.SameProgress right) (hr : right.Holds attempt transaction) :
    left.Holds attempt transaction := by
  obtain ⟨_⟩ := h
  obtain ⟨owner, rfl⟩ | ⟨owner, _, _, _, _, rfl⟩ | _ := hr
  · cases left <;> simp_all [DurableCommandState.kind, DurableCommandState.attempt,
      DurableCommandState.transaction, DurableCommandState.Holds]
  · cases left <;> simp_all [DurableCommandState.kind, DurableCommandState.attempt,
      DurableCommandState.transaction, DurableCommandState.Holds, DurableCommandState.Awaits]
  · refine .inr (.inr ?_)
    cases left <;> cases right <;>
      simp_all [DurableCommandState.kind, DurableCommandState.isTerminal]

theorem Advance.rank_le {state next : DurableCommandState}
    (h : Advance command state event next) : state.rank ≤ next.rank := by
  cases h <;> simp only [rank, le_top, le_refl] <;>
    exact Nat.cast_le.2 (by omega)

theorem Advance.executing_of_prepared {state : DurableCommandState}
    (h : Advance command state event (.commitPrepared attempt owner transaction)) :
    state = .executing attempt owner := by
  cases h
  rfl

/-! ## The codec -/

/-- The JSON libraries keep the attempt number and the transaction of a record. -/
def RecordCodec.KeepsProgress (codec : RecordCodec) : Prop :=
  ∀ record encoded decoded, codec.toVec record = some encoded →
    codec.fromSlice encoded = some decoded → decoded.state.attempt = record.state.attempt ∧
        decoded.state.transaction = record.state.transaction

theorem stateKindName_injective : Function.Injective stateKindName := by
  intro left right
  cases left <;> cases right <;> simp [stateKindName]

theorem sameProgress_of_decodeRow (hc : codec.KeepsProgress) {record decoded : CommandRecord}
    (henc : encodeRecord codec record = .ok encoded)
    (hdec : decodeRow codec (rowOf record encoded) = .ok decoded) :
    decoded.operationId = record.operationId ∧ decoded.state.SameProgress record.state := by
  obtain ⟨-, hp, -, hrow⟩ := decodeRow_ok.1 hdec
  obtain ⟨-, hser, -⟩ := encodeRecord_ok.1 henc
  obtain ⟨hatt, htx⟩ := hc _ _ _ hser hp
  refine ⟨?_, ⟨?_, hatt, htx⟩⟩
  · exact (ByteIdentity.bytes_inj.1 (congrArg StoredRow.operationId hrow)).symm
  · exact (stateKindName_injective (congrArg StoredRow.stateKind hrow)).symm

/-- The journal holds `record` for an operation. -/
def Current (codec : RecordCodec) (table : Table) (operationId : OperationId)
    (record : CommandRecord) : Prop :=
  ∃ row ∈ table.rows, decodeRow codec row = .ok record ∧ record.operationId = operationId

theorem current_of_inserts {table next : Table} {record current : CommandRecord}
    (hrw : next.rows = table.rows ++ [rowOf record encoded])
    (h : Current codec next operationId current) :
    Current codec table operationId current ∨ operationId = record.operationId := by
  obtain ⟨row, hrow, hdec, rfl⟩ := h
  rw [hrw, mem_append, mem_singleton] at hrow
  rcases hrow with hrow | rfl
  · exact .inl ⟨row, hrow, hdec, rfl⟩
  · exact .inr (ByteIdentity.bytes_inj.1 (rowKeys_of_decodeRow hdec).1).symm

/-- After a stored transition the journal holds the successor's progress for its operation, and
what it held for the others. -/
theorem current_of_stores (hc : codec.KeepsProgress) {table next : Table}
    {successor current : CommandRecord} (henc : encodeRecord codec successor = .ok encoded)
    (hrw : next.rows = table.replaced (rowOf successor encoded))
    (h : Current codec next operationId current) :
    (operationId = successor.operationId ∧ current.state.SameProgress successor.state) ∨
      (operationId ≠ successor.operationId ∧ Current codec table operationId current) := by
  obtain ⟨_, hrow, hdec, rfl⟩ := h
  rw [hrw, replaced, mem_map] at hrow
  obtain ⟨old, hold, hrep⟩ := hrow
  split at hrep
  · subst hrep
    exact .inl (sameProgress_of_decodeRow hc henc hdec)
  · rename_i ho
    subst hrep
    refine .inr ⟨fun hs => ho ?_, old, hold, hdec, rfl⟩
    rw [(rowKeys_of_decodeRow hdec).1, hs, rowOf]

/-! ## Entries -/

/-- The entry stored `CommitPrepared` for an attempt and transaction. -/
def LogEntry.Prepares (operationId : OperationId) (attempt : Nat) (transaction : TransactionRef) :
    LogEntry ι → Prop
  | .stored _ write => write.successor.operationId = operationId ∧
      ∃ owner, write.successor.state = .commitPrepared attempt owner transaction
  | _ => False

/-- The entry stored retry evidence for an attempt and transaction: a retryable known failure or a
`NotCommitted` observation. -/
def LogEntry.ProvesRetry (operationId : OperationId) (attempt : Nat)
    (transaction : TransactionRef) : LogEntry ι → Prop
  | .stored _ write => write.predecessor.operationId = operationId ∧
      ∃ event, Releases attempt transaction write.predecessor.state event write.successor.state
  | _ => False

def LogEntry.Commits (operationId : OperationId) (attempt : Nat) (transaction : TransactionRef) :
    LogEntry ι → Prop
  | .committed _ prepared _ invoked _ => prepared.operationId = operationId ∧
      prepared.state.attempt = some attempt ∧ invoked = transaction
  | _ => False

theorem split_concat {α : Type} {log past future : List α} {last entry : α}
    (h : log ++ [last] = past ++ entry :: future) :
    (∃ rest, future = rest ++ [last] ∧ log = past ++ entry :: rest) ∨
      (future = [] ∧ entry = last ∧ past = log) := by
  rcases eq_nil_or_concat future with rfl | ⟨rest, other, rfl⟩
  · obtain ⟨hlog, hls⟩ := append_inj' h rfl
    exact .inr ⟨rfl, (List.singleton_inj.1 hls).symm, hlog.symm⟩
  · rw [concat_eq_append, ← cons_append, ← append_assoc] at h
    obtain ⟨hlog, hls⟩ := append_inj' h rfl
    rw [singleton_inj] at hls
    exact .inl ⟨rest, by rw [hls, concat_eq_append], hlog⟩

theorem pairwise_of_splits {α : Type} {R : α → α → Prop} {log : List α}
    (h : ∀ past first between second future,
      log = (past ++ first :: between) ++ second :: future → R first second) : log.Pairwise R := by
  induction log with
  | nil => exact .nil
  | cons entry log ih =>
    refine List.pairwise_cons.2 ⟨fun second hsnd => ?_, ih ?_⟩
    · obtain ⟨between, future, rfl⟩ := append_of_mem hsnd
      exact h [] entry between second future rfl
    · rintro past first between second future rfl
      exact h (entry :: past) first between second future rfl

/-! ## The invariant -/

/-- What holds of the journal and the log after any interleaving. -/
structure LogInvariant (codec : RecordCodec) (world : World ι) : Prop where
  /-- A stored operation keeps a row. -/
  held : ∀ actor stored, .stored actor stored ∈ world.log →
    stored.successor.operationId.bytes ∈ world.table.rows.map StoredRow.operationId
  /-- What the journal holds is not behind any stored transition. -/
  not_behind : ∀ actor stored, .stored actor stored ∈ world.log → ∀ current,
    Current codec world.table stored.successor.operationId current →
      stored.successor.state.rank ≤ current.state.rank
  /-- An attempt is prepared at most once. -/
  prepared_once : world.log.Pairwise fun first second => ∀ operationId attempt transaction other,
    first.Prepares operationId attempt transaction → ¬second.Prepares operationId attempt other
  /-- A prepared transaction is what the journal still answers for, or was released. -/
  held_or_released : ∀ entry ∈ world.log, ∀ operationId attempt transaction,
    entry.Prepares operationId attempt transaction →
      (∀ current, Current codec world.table operationId current →
        current.state.Holds attempt transaction) ∨
      ∃ proof ∈ world.log, proof.ProvesRetry operationId attempt transaction
  /-- A later attempt is prepared only after the earlier ones were released. -/
  released_before : ∀ past entry future, world.log = past ++ entry :: future →
    ∀ operationId later transaction, entry.Prepares operationId later transaction →
      ∀ other ∈ world.log, ∀ earlier prepared, other.Prepares operationId earlier prepared →
        earlier < later → ∃ proof ∈ past, proof.ProvesRetry operationId earlier prepared
  /-- A commit is the actor's next entry after it stored the prepared record. -/
  committed : ∀ past actor prepared owner transaction context future,
    world.log = past ++ .committed actor prepared owner transaction context :: future →
      (∃ attempt, prepared.state = .commitPrepared attempt owner transaction) ∧
        LastStored actor prepared past

theorem logInvariant_nil (h : world.log = []) : LogInvariant codec world := by
  constructor <;> simp [h]

theorem LogInvariant.congr (h : LogInvariant codec s) (ht : t.table = s.table)
    (hlog : t.log = s.log) : LogInvariant codec t := by
  obtain ⟨_⟩ := h
  constructor <;> rw [hlog] <;> try rw [ht]
  all_goals assumption

theorem LogInvariant.prepares_ahead (h : LogInvariant codec s) {row : StoredRow} {earlier : Nat}
    (advance : Advance stored.predecessor.command stored.predecessor.state event
      stored.successor.state) (hrow : row ∈ s.table.rows)
    (hdec : decodeRow codec row = .ok stored.predecessor)
    (hop : stored.predecessor.operationId = operationId)
    (hst : stored.successor.state = .commitPrepared attempt owner transaction)
    (he : entry ∈ s.log)
    (hpr : entry.Prepares operationId earlier prepared) : earlier < attempt := by
  cases entry with
  | stored actor old =>
    obtain ⟨hold, _, hprepared⟩ := hpr
    have hrn := h.not_behind actor old he stored.predecessor ⟨row, hrow, hdec, hop.trans hold.symm⟩
    rw [hst] at advance
    rw [hprepared, advance.executing_of_prepared, rank, rank, Nat.cast_le] at hrn
    omega
  | inserted | committed => exact hpr.elim

theorem LogInvariant.concat_other (h : LogInvariant codec s)
    (hlog : t.log = s.log ++ [entry]) (hprepares : ∀ operationId attempt transaction,
      ¬entry.Prepares operationId attempt transaction)
    (hsto : ∀ actor stored, entry ≠ .stored actor stored)
    (hcom : ∀ actor prepared owner transaction context,
      entry = .committed actor prepared owner transaction context →
        (∃ attempt, prepared.state = .commitPrepared attempt owner transaction) ∧
          LastStored actor prepared s.log)
    (hhl : ∀ operationId : OperationId, operationId.bytes ∈ s.table.rows.map StoredRow.operationId →
        operationId.bytes ∈ t.table.rows.map StoredRow.operationId ∧
          ∀ current, Current codec t.table operationId current →
            Current codec s.table operationId current) :
    LogInvariant codec t := by
  have hold : ∀ actor stored, LogEntry.stored actor stored ∈ t.log →
      LogEntry.stored actor stored ∈ s.log := by
    intro actor stored hmem
    rw [hlog, mem_append, mem_singleton] at hmem
    exact hmem.resolve_right fun heq => hsto _ _ heq.symm
  constructor
  · intro actor stored hmem
    exact (hhl _ (h.held actor stored (hold _ _ hmem))).1
  · intro actor stored hmem current hcur
    have hmem := hold _ _ hmem
    exact h.not_behind actor stored hmem current ((hhl _ (h.held _ _ hmem)).2 current hcur)
  · rw [hlog, pairwise_append]
    refine ⟨h.prepared_once, pairwise_singleton _ _, ?_⟩
    intro first _ _ hsnd operationId attempt transaction other _
    rw [List.mem_singleton.1 hsnd]
    exact hprepares _ _ _
  · intro other ho operationId attempt transaction hpr
    rw [hlog, mem_append, mem_singleton] at ho
    rcases ho with ho | rfl
    · rcases h.held_or_released other ho _ _ _ hpr with hholds | ⟨proof, hproof, hprv⟩
      · refine .inl fun current hcur => hholds current ?_
        cases other with
        | stored actor stored =>
          obtain ⟨rfl, -⟩ := hpr
          exact (hhl _ (h.held _ _ ho)).2 current hcur
        | inserted | committed => exact hpr.elim
      · exact .inr ⟨proof, by rw [hlog]; exact mem_append_left _ hproof, hprv⟩
    · exact absurd hpr (hprepares _ _ _)
  · intro past first future hspl operationId _ transaction hfst other ho _ prepared hpr hlt
    rw [hlog] at hspl ho
    rcases split_concat hspl with ⟨rest, rfl, hps⟩ | ⟨-, rfl, -⟩
    · rw [mem_append, mem_singleton] at ho
      rcases ho with ho | rfl
      · exact h.released_before past first rest hps _ _ _ hfst other ho _ _ hpr hlt
      · exact absurd hpr (hprepares _ _ _)
    · exact absurd hfst (hprepares _ _ _)
  · intro past actor prepared owner transaction context future hspl
    rw [hlog] at hspl
    rcases split_concat hspl with ⟨rest, rfl, hps⟩ | ⟨-, heq, rfl⟩
    · exact h.committed past actor prepared owner transaction context rest hps
    · exact hcom _ _ _ _ _ heq.symm

theorem LogInvariant.concat_stored (hcodec : codec.KeepsProgress)
    (h : LogInvariant codec s) {actor : ι} {row : StoredRow}
    (hstep : stored.IsStep)
    (advance : Advance stored.predecessor.command stored.predecessor.state event
      stored.successor.state) (henc : encodeRecord codec stored.successor = .ok encoded)
    (hrow : row ∈ s.table.rows) (hdec : decodeRow codec row = .ok stored.predecessor)
    (hrows : t.table.rows = s.table.replaced (rowOf stored.successor encoded))
    (hlog : t.log = s.log ++ [.stored actor stored]) : LogInvariant codec t := by
  have hsame : stored.successor.operationId = stored.predecessor.operationId := by
    rw [CommandRecord.operationId, CommandRecord.operationId, hstep.command_eq]
  have hpred : Current codec s.table stored.successor.operationId stored.predecessor :=
    ⟨row, hrow, hdec, hsame.symm⟩
  have hiden : t.table.rows.map StoredRow.operationId = s.table.rows.map StoredRow.operationId := by
    rw [hrows, Table.replaced, map_map]
    refine map_congr_left fun other _ => ?_
    simp only [Function.comp_apply]
    split
    · rename_i heq
      exact heq.symm
    · rfl
  -- an old preparation of the operation is of an earlier attempt than a new one
  have hahead : ∀ {other : LogEntry ι} {attempt earlier owner transaction prepared},
      other ∈ s.log → stored.successor.state = .commitPrepared attempt owner transaction →
      other.Prepares stored.successor.operationId earlier prepared → earlier < attempt :=
    fun ho hst hprep => h.prepares_ahead advance hrow hdec hsame.symm hst ho hprep
  constructor
  -- a write exchanges a row for one of the same operation
  · intro actor' old hmem
    rw [hiden]
    rw [hlog, mem_append, mem_singleton] at hmem
    rcases hmem with hmem | heq
    · exact h.held actor' old hmem
    · cases heq
      exact List.mem_map.2 ⟨row, hrow, by rw [(rowKeys_of_decodeRow hdec).1, hsame]⟩
  -- no row falls behind the log, since a step never lowers the rank
  · intro actor' old hmem current hcur
    rw [hlog, mem_append, mem_singleton] at hmem
    rcases current_of_stores hcodec henc hrows hcur with ⟨hop, hprog⟩ | ⟨hop, hcur⟩
    · rw [hprog.rank_eq]
      rcases hmem with hmem | heq
      · exact (h.not_behind actor' old hmem _ (hop ▸ hpred)).trans advance.rank_le
      · cases heq
        exact le_rfl
    · rcases hmem with hmem | heq
      · exact h.not_behind actor' old hmem _ hcur
      · cases heq
        exact absurd rfl hop
  · rw [hlog, pairwise_append]
    refine ⟨h.prepared_once, pairwise_singleton _ _, ?_⟩
    intro first hfst _ hsnd operationId attempt transaction other hprep
    rw [List.mem_singleton.1 hsnd]
    rintro ⟨rfl, owner, hst⟩
    exact lt_irrefl _ (hahead hfst hst hprep)
  -- only a step of the operation itself ends a hold, and its own entry is then the proof
  · intro other ho operationId attempt transaction hprep
    rw [hlog, mem_append, mem_singleton] at ho
    rcases ho with ho | rfl
    · rcases h.held_or_released other ho _ _ _ hprep with hholds | ⟨proof, hproof, hprv⟩
      · by_cases hop : operationId = stored.successor.operationId
        · rcases advance.holds_or_releases (hholds _ (hop ▸ hpred)) with hnext | hrel
          · refine .inl fun current hcur => ?_
            rcases current_of_stores hcodec henc hrows hcur with ⟨-, hprog⟩ | ⟨hne, -⟩
            · exact hprog.holds hnext
            · exact absurd hop hne
          · refine .inr ⟨.stored actor stored, ?_, (hop.trans hsame).symm, event, hrel⟩
            rw [hlog]
            exact mem_append_right _ (mem_singleton_self _)
        · refine .inl fun current hcur => hholds current ?_
          rcases current_of_stores hcodec henc hrows hcur with ⟨heq, -⟩ | ⟨-, hcur⟩
          · exact absurd heq hop
          · exact hcur
      · exact .inr ⟨proof, by rw [hlog]; exact mem_append_left _ hproof, hprv⟩
    · obtain ⟨rfl, owner, hst⟩ := hprep
      refine .inl fun current hcur => ?_
      rcases current_of_stores hcodec henc hrows hcur with ⟨-, hprog⟩ | ⟨hne, -⟩
      · exact hprog.holds (.inl ⟨owner, hst⟩)
      · exact absurd rfl hne
  -- the later preparation is an old entry or the new one; only the latter needs the row
  · intro past first future hspl operationId later transaction hfst other ho earlier
      prepared hprep hlt
    rw [hlog] at hspl ho
    rw [mem_append, mem_singleton] at ho
    rcases split_concat hspl with ⟨rest, rfl, hpast⟩ | ⟨-, rfl, rfl⟩
    · rcases ho with ho | rfl
      · exact h.released_before past first rest hpast _ _ _ hfst other ho _ _ hprep hlt
      · obtain ⟨rfl, owner, hst⟩ := hprep
        have hmem : first ∈ s.log := by rw [hpast]; simp
        exact absurd (hahead hmem hst hfst) (not_lt.2 hlt.le)
    · obtain ⟨rfl, owner, hst⟩ := hfst
      rcases ho with ho | rfl
      · rcases h.held_or_released other ho _ _ _ hprep with hholds | hproof
        · -- the journal would still answer for the earlier attempt
          rw [hst] at advance
          have hle := (hholds _ hpred).attempt_le
            (show stored.predecessor.state.attempt = some later by
              rw [advance.executing_of_prepared, DurableCommandState.attempt])
          exact absurd hle (not_le.2 hlt)
        · exact hproof
      · obtain ⟨-, _, hst'⟩ := hprep
        rw [hst] at hst'
        cases hst'
        exact absurd hlt (lt_irrefl _)
  -- the new entry is no commit
  · intro past actor' prepared owner transaction context future hspl
    rw [hlog] at hspl
    rcases split_concat hspl with ⟨rest, rfl, hpast⟩ | ⟨-, heq, -⟩
    · exact h.committed past actor' prepared owner transaction context rest hpast
    · cases heq

/-- **Step lemma.** Whatever an actor does, the invariant is kept. -/
theorem LogInvariant.acts (hcd : codec.KeepsProgress) {actor : ι}
    (h : LogInvariant codec s) (ha : Acts codec actor s t) : LogInvariant codec t := by
  cases ha with
  | quiet table log => exact h.congr table log
  | @inserts _ _ encodes fresh rows log =>
    refine h.concat_other log (fun _ _ _ => id) (by simp) (by simp) ?_
    intro operationId hh
    refine ⟨by rw [rows, map_append]; exact mem_append_left _ hh, ?_⟩
    intro _ hcur
    refine (current_of_inserts rows hcur).resolve_right ?_
    rintro rfl
    exact fresh.1 hh
  | stores step advance encodes mem decodes rows log =>
    exact h.concat_stored hcd step advance encodes mem decodes rows log
  | commits state last table log =>
    refine h.concat_other log (fun _ _ _ => id) (by simp) ?_ ?_
    · rintro _ _ _ _ _ ⟨⟩
      exact ⟨⟨_, state⟩, last⟩
    · intro operationId hh
      rw [table]
      exact ⟨hh, fun _ hcur => hcur⟩

/-! ## The result -/

theorem LastStored.prepares {actor : ι} {prepared : CommandRecord} {log : List (LogEntry ι)}
    (h : LastStored actor prepared log)
    (hst : prepared.state = .commitPrepared attempt owner transaction) :
    ∃ past stored future, log = past ++ .stored actor stored :: future ∧
      (LogEntry.stored actor stored).Prepares prepared.operationId attempt transaction ∧
      stored.successor = prepared ∧ ∀ entry ∈ future, entry.actor ≠ actor := by
  obtain ⟨past, stored, future, hlog, rfl, hos⟩ := h
  exact ⟨past, stored, future, hlog, ⟨rfl, owner, hst⟩, rfl, hos⟩

theorem LogEntry.Commits.eq_committed (h : entry.Commits operationId attempt transaction) :
    ∃ actor prepared owner context, entry = .committed actor prepared owner transaction context ∧
      prepared.operationId = operationId ∧ prepared.state.attempt = some attempt := by
  cases entry with
  | inserted | stored => exact h.elim
  | committed actor prepared owner _ context =>
    obtain ⟨hop, hatt, rfl⟩ := h
    exact ⟨actor, prepared, owner, context, rfl, hop, hatt⟩

theorem LogInvariant.not_prepares (h : LogInvariant codec world)
    {past future : List (LogEntry ι)} {other : LogEntry ι}
    (hlog : past ++ entry :: future <+: world.log)
    (he : entry.Prepares operationId attempt transaction)
    (ho : other ∈ past ∨ other ∈ future) : ¬other.Prepares operationId attempt prepared := by
  obtain ⟨_, hfut, hc⟩ :=
    List.pairwise_append.1 (h.prepared_once.sublist hlog.sublist)
  rcases ho with ho | ho
  · exact fun hpr => hc other ho entry mem_cons_self _ _ _ _ hpr he
  · exact (List.pairwise_cons.1 hfut).1 other ho _ _ _ _ he

theorem LogInvariant.committed_once (h : LogInvariant codec world)
    {past between future : List (LogEntry ι)} {first second : LogEntry ι}
    (hlog : world.log = (past ++ first :: between) ++ second :: future) {other : TransactionRef}
    (hfst : first.Commits operationId attempt transaction) :
    ¬second.Commits operationId attempt other := by
  intro hsnd
  obtain ⟨actor, _, _, _, rfl, hop, hatt⟩ := hfst.eq_committed
  obtain ⟨actor', _, _, _, rfl, hop', hatt'⟩ := hsnd.eq_committed
  obtain ⟨⟨_, hst⟩, hls⟩ := h.committed past _ _ _ _ _ _ (hlog.trans (append_assoc _ _ _))
  obtain ⟨⟨_, hst'⟩, hl'⟩ := h.committed _ _ _ _ _ _ _ hlog
  obtain ⟨before, stored, after, rfl, hpr, -, -⟩ := hls.prepares hst
  obtain ⟨before', stored', after', hspl, hp', -, hos'⟩ := hl'.prepares hst'
  rw [hst, DurableCommandState.attempt, Option.some.injEq] at hatt
  rw [hst', DurableCommandState.attempt, Option.some.injEq] at hatt'
  rw [hop, hatt] at hpr
  rw [hop', hatt'] at hp'
  have hprefix : before' ++ .stored actor' stored' :: after' <+: world.log := by
    rw [hlog, hspl]
    exact prefix_append _ _
  have hsto : LogEntry.stored actor stored ∈ before ++ .stored actor stored :: after := by simp
  rcases List.append_eq_append_iff.1 hspl with ⟨rest, rfl, -⟩ | ⟨rest, hbef, hr⟩
  · -- the second preparation is logged after the first commit
    exact h.not_prepares hprefix hp' (.inl (mem_append_left _ hsto)) hpr
  · -- the first commit is logged after the second preparation
    rcases List.cons_eq_append_iff.1 hr with ⟨-, hc⟩ | ⟨rest, rfl, rfl⟩
    · cases hc
    · rw [hbef, mem_append, mem_cons] at hsto
      rcases hsto with hsto | heq | hsto
      · exact h.not_prepares hprefix hp' (.inl hsto) hpr
      · cases heq
        exact hos' _ (mem_append_right _ mem_cons_self) rfl
      · exact h.not_prepares hprefix hp' (.inr (mem_append_left _ hsto)) hpr

variable [DecidableEq ι] {actorId : ι → ActorId}

theorem logInvariant_of_run (hc : codec.KeepsProgress) {table : Table} {gate : ι → Bool}
    {steps : List (Transition _ _)} {config : Config ι (World ι) Effect Response Reply}
    (run : Run (actorSystem codec actorId).Step (initialConfig table gate) steps config) :
    LogInvariant codec config.world := by
  have hh : (commitTerms codec actorId).Holds (initialConfig table gate) := fun _ => trivial
  refine hh.run_invariant (fun _ message s _ => safe_handle message s) ?_ (logInvariant_nil rfl) run
  rintro s t (rfl | ⟨actor, ha⟩ | ⟨actor, rfl⟩ | ⟨actor, rfl⟩) h
  · exact h
  · exact h.acts hc ha
  · exact h.congr rfl rfl
  · exact h.congr rfl rfl

/-- **At most one commit per attempt.** For any number of actors over one journal, with any initial
content, any interleaving, crashes, and outcomes of the ports:
the commit of an attempt of an operation is invoked at most once; only after the invoking actor
stored `CommitPrepared` for that attempt and transaction; and the commit of a later attempt only
after retry evidence for the earlier one was stored. -/
theorem commit_at_most_once (hcodec : codec.KeepsProgress) {table : Table} {gate : ι → Bool}
    {steps : List (Transition _ _)} {config : Config ι (World ι) Effect Response Reply}
    (run : Run (actorSystem codec actorId).Step (initialConfig table gate) steps config) :
    (config.world.log.Pairwise fun first second => ∀ operationId attempt transaction other,
      first.Commits operationId attempt transaction → ¬second.Commits operationId attempt other) ∧
    (∀ past actor prepared owner transaction context future,
      config.world.log = past ++ .committed actor prepared owner transaction context :: future →
        ∃ attempt stored, prepared.state = .commitPrepared attempt owner transaction ∧
          .stored actor stored ∈ past ∧ stored.successor = prepared) ∧
    (∀ past later future, config.world.log = past ++ later :: future →
      ∀ operationId attempt transaction, later.Commits operationId attempt transaction →
        ∀ other ∈ config.world.log, ∀ earlier prepared,
          other.Commits operationId earlier prepared → earlier < attempt →
            ∃ proof ∈ past, proof.ProvesRetry operationId earlier prepared) := by
  have h := logInvariant_of_run hcodec run
  refine ⟨?_, ?_, ?_⟩
  · refine pairwise_of_splits fun past first _ second future hlog => ?_
    exact fun _ _ _ _ hfst => h.committed_once hlog hfst
  · intro past actor prepared owner transaction context future hlog
    obtain ⟨⟨attempt, hst⟩, hls⟩ := h.committed _ _ _ _ _ _ _ hlog
    obtain ⟨before, stored, after, rfl, -, hsc, -⟩ := hls.prepares hst
    exact ⟨attempt, stored, hst, by simp, hsc⟩
  · intro past later future hlog operationId attempt transaction hlater other ho earlier
      prepared hear hlt
    obtain ⟨actor, record, owner, context, rfl, hop, hatt⟩ := hlater.eq_committed
    obtain ⟨actor', _, _, _, rfl, hop', hatt'⟩ := hear.eq_committed
    obtain ⟨_, _, hlog'⟩ := append_of_mem ho
    obtain ⟨⟨_, hst⟩, hls⟩ := h.committed _ _ _ _ _ _ _ hlog
    obtain ⟨⟨_, hst'⟩, hl'⟩ := h.committed _ _ _ _ _ _ _ hlog'
    obtain ⟨before, stored, after, rfl, hpr, -, -⟩ := hls.prepares hst
    obtain ⟨_, stored', _, rfl, hp', -, -⟩ := hl'.prepares hst'
    rw [hst, DurableCommandState.attempt, Option.some.injEq] at hatt
    rw [hst', DurableCommandState.attempt, Option.some.injEq] at hatt'
    rw [hop, hatt] at hpr
    rw [hop', hatt'] at hp'
    have hsto' : LogEntry.stored actor' stored' ∈ config.world.log := by rw [hlog']; simp
    obtain ⟨proof, hproof, hprv⟩ := h.released_before before (.stored actor stored)
      (after ++ .committed actor record owner transaction context :: future)
      (by rw [hlog]; simp) _ _ _ hpr _ hsto' _ _ hp' hlt
    exact ⟨proof, mem_append_left _ hproof, hprv⟩

theorem sampleCodec_keepsProgress : sampleCodec.KeepsProgress := by
  intro record encoded _ hser hp
  obtain ⟨sample, hsm, hrec, henc⟩ :
      ∃ sample ∈ jsonSamples, sample.1 = record ∧ sample.2 = encoded := by
    obtain ⟨_, _, hsam, -⟩ := List.lookup_eq_some_iff.1 hser
    exact ⟨(record, encoded), by rw [hsam]; simp, rfl, rfl⟩
  subst hrec henc
  rw [(sampleCodec_writes sample hsm).parses] at hp
  cases hp
  exact ⟨rfl, rfl⟩

/-- One actor behind an open gate, with the sample journal. -/
abbrev sampleSystem : System Unit (World Unit) Effect Response ActorMessage Reply :=
  actorSystem sampleCodec fun _ => zeroIdentity

theorem sample_commitPrepared_yields (s : World Unit) :
    sampleSystem.Yields () (commitPrepared samplePrepared firstOwner zeroIdentity).run s
      (.error (.port .effectUnavailable))
      (s.append s.table [.committed () samplePrepared firstOwner zeroIdentity sampleContext]) := by
  have hc : sampleSystem.performs ()
      (.commit samplePrepared firstOwner zeroIdentity sampleContext) s (.error .effectUnavailable)
      (s.append s.table [.committed () samplePrepared firstOwner zeroIdentity sampleContext]) := rfl
  exact (yields_validateIdempotent (by decide)).bindOk (yields_port (.perform hc)).bindError

theorem sample_executeStarted_yields {s : World Unit} {table : Table}
    (hs : compareAndSwap sampleCodec s.table
      ⟨sampleExecuting, samplePrepared, .stateChanged⟩ = .ok (.stored samplePrepared, table)) :
    ∃ t : World Unit, sampleSystem.Yields () (executeStarted sampleExecuting firstOwner).run s
        (.error (.port .effectUnavailable)) t ∧
      t.log = s.log ++ [.stored () ⟨sampleExecuting, samplePrepared, .stateChanged⟩,
        .committed () samplePrepared firstOwner zeroIdentity sampleContext] := by
  have hpr : sampleSystem.performs () (.prepare sampleExecuting firstOwner sampleContext) s
      (.ok (.prepared zeroIdentity)) s := rfl
  have hprepared : reduce sampleExecuting (.prepareCommit firstOwner zeroIdentity) sampleContext =
      .ok (advanced sampleExecuting samplePrepared.state .stateChanged) := by
    decide
  refine ⟨_, (yields_validateIdempotent (by decide)).bindOk ((yields_port (.perform hpr)).bindOk
      ((yields_transition hprepared hs).bindOk (sample_commitPrepared_yields _))), ?_⟩
  simp [World.append, advanced, samplePrepared, sampleExecuting]

theorem sample_startInserted_yields {s : World Unit} {started prepared : Table}
    (hst : compareAndSwap sampleCodec s.table
      ⟨sampleAdmitted, sampleExecuting, .stateChanged⟩ = .ok (.stored sampleExecuting, started))
    (hp : compareAndSwap sampleCodec started
      ⟨sampleExecuting, samplePrepared, .stateChanged⟩ = .ok (.stored samplePrepared, prepared)) :
    ∃ t : World Unit, sampleSystem.Yields ()
        (startInserted zeroIdentity sampleCommand sampleAdmitted).run s
        (.error (.port .effectUnavailable)) t ∧
      ∃ past, t.log =
        past ++ [.committed () samplePrepared firstOwner zeroIdentity sampleContext] := by
  have hsta : reduce sampleAdmitted (.start firstOwner) sampleContext =
      .ok (advanced sampleAdmitted sampleExecuting.state .stateChanged) := by
    decide
  have hfst : sampleSystem.Yields () (transition sampleAdmitted (.start firstOwner)).run s
      (.ok sampleExecuting)
      (s.append started [.stored () ⟨sampleAdmitted, sampleExecuting, .stateChanged⟩]) :=
    yields_transition hsta hst
  obtain ⟨t, hyld, hlog⟩ := sample_executeStarted_yields
    (s := s.append started [.stored () ⟨sampleAdmitted, sampleExecuting, .stateChanged⟩]) hp
  rw [append_cons] at hlog
  exact ⟨t, hfst.bindOk hyld, _, hlog⟩

theorem sample_submit_yields : ∃ (reply : Reply) (t : World Unit),
    sampleSystem.Yields () (handle zeroIdentity (.submit sampleCommand))
      ⟨empty, fun _ => true, []⟩ reply t ∧
    ∃ past, t.log =
      past ++ [.committed () samplePrepared firstOwner zeroIdentity sampleContext] := by
  obtain ⟨inserted, _, _, hins, hst, hp⟩ := sample_writes
  let s₀ : World Unit := ⟨empty, fun _ => true, []⟩
  let s₁ := s₀.append inserted [.inserted () sampleAdmitted]
  obtain ⟨t, hyld, hlog⟩ := sample_startInserted_yields (s := s₁) hst hp
  have hg : sampleSystem.performs () .gateIsOpen s₀ true s₀ := ⟨rfl, rfl⟩
  have hemp : lookupAdmission sampleCodec empty sampleCommand.identity.operationId
      sampleCommand.identity.idempotencyKey = .ok none := by
    simp [lookupAdmission, ordered, empty, pure, Except.pure]
  have hlk : sampleSystem.performs () (.lookupAdmission sampleCommand.identity.operationId
      sampleCommand.identity.idempotencyKey) s₀ (.ok none) s₀ := ⟨.inl hemp.symm, rfl⟩
  have hctx : sampleSystem.performs () (.readAdmissionContext sampleCommand) s₀
      (.ok ⟨zeroIdentity, .empty, firstFence, .authorized zeroIdentity⟩) s₀ := rfl
  have hin : sampleSystem.performs () (.insertIfAbsent sampleAdmitted) s₀
      (.ok (.inserted sampleAdmitted)) s₁ :=
    .inr (.inr ⟨_, _, hins, .inl rfl, rfl⟩)
  have hcl : sampleSystem.performs () .closeGate t () (t.setGate () false) := rfl
  have hnew : sampleSystem.Yields () (submitNew zeroIdentity sampleCommand).run s₀
      (.error (.port .effectUnavailable)) t := by
    refine (yields_port (.perform hctx)).bindOk ?_
    rw [admit_sampleCommand]
    refine bindOk (.ret _ _) ((yields_port (.perform hin)).bindOk ?_)
    show sampleSystem.Yields () (ite _ _ _ : ActorM _).run _ _ _
    rw [if_neg (by simp)]
    exact hyld
  have hsb : sampleSystem.Yields () (processSubmit zeroIdentity sampleCommand).run s₀
      (.error (.port .effectUnavailable)) t :=
    (yields_port (.perform hlk)).bindOk hnew
  exact ⟨_, t.setGate () false, (perform hg).bind (hsb.bind ((perform hcl).bind (.ret _ _))), hlog⟩

/-- In a run of one actor that reaches its commit, the commit is the only one of its attempt and
follows the actor's own preparation. -/
theorem sample_commit_at_most_once : ∃ steps config past,
    Run sampleSystem.Step (initialConfig Table.empty fun _ => true) steps config ∧
    config.world.log =
      past ++ [.committed () samplePrepared firstOwner zeroIdentity sampleContext] ∧
    (config.world.log.Pairwise fun first second => ∀ operationId attempt transaction other,
      first.Commits operationId attempt transaction → ¬second.Commits operationId attempt other) ∧
    ∃ stored, .stored () stored ∈ past ∧ stored.successor = samplePrepared := by
  obtain ⟨reply, t, hyld, past, hlog⟩ := sample_submit_yields
  have hhr : sampleSystem.Yields () (sampleSystem.handler () (.submit sampleCommand))
      (initialConfig empty fun _ => true).world reply t := hyld
  obtain ⟨steps, hrun⟩ := run_handler _ rfl hhr
  obtain ⟨ho, haf, -⟩ := commit_at_most_once sampleCodec_keepsProgress hrun
  obtain ⟨_, stored, -, hmem, hsto⟩ := haf past () samplePrepared firstOwner zeroIdentity
    sampleContext [] hlog
  exact ⟨steps, _, past, hrun, hlog, ho, stored, hmem, hsto⟩

end CodeFabric.Command
