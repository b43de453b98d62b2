import CodeFabric.Command.Store

/-! # Reducer products survive the journal

The journal rejects a record as corrupt when it does not satisfy the persisted invariants, when
its canonical JSON is out of bounds or not read back, or when a transition does not continue the
stored record. None of this can happen to a record the reducer produced: at every point of a run
the record can be written, read back after a restart, and replaced by its next transition. -/

namespace CodeFabric.Command

open Fallible List

/-- The external JSON libraries write the record within the bounds of a row, and read it back. -/
structure RecordCodec.Writes (codec : RecordCodec) (record : CommandRecord)
    (encoded : List UInt8) : Prop where
  serializes : codec.toVec record = some encoded
  two_le_length : 2 ≤ encoded.length
  length_le_max : encoded.length ≤ maxRecordBytes
  parses : codec.fromSlice encoded = some record

variable {record : CommandRecord} {reduction : Reduction} {event : CommandEvent}

theorem Reduces.isStep {transition : ReducerTransition} (h : Reduces record event reduction)
    (htr : reduction.transition = some transition) :
    transition.IsStep ∧ transition.predecessor = record ∧
      transition.successor = reduction.record := by
  obtain rfl | ⟨state, effect, -, hw, heff, rfl⟩ := h
  · simp [idempotent] at htr
  · simp only [advanced, Option.some.injEq] at htr
    subst htr
    exact ⟨⟨rfl, rfl, hw, heff⟩, rfl, rfl⟩

variable {encoded : List UInt8} {codec : RecordCodec}

theorem Produced.encodeRecord (h : Produced record) (hwrs : codec.Writes record encoded) :
    Command.encodeRecord codec record = .ok encoded :=
  encodeRecord_ok.2 ⟨h.persistable, hwrs.serializes, hwrs.two_le_length, hwrs.length_le_max⟩

theorem Produced.decodeRow (h : Produced record) (hwrs : codec.Writes record encoded) :
    Command.decodeRow codec (rowOf record encoded) = .ok record :=
  decodeRow_rowOf (h.encodeRecord hwrs) hwrs.parses h.revision_lt

theorem Produced.reduced {context : ReductionContext}
    (h : Produced record) (hred : reduce record event context = .ok reduction) :
    Produced reduction.record := by
  have hp := h.presented (event, context)
  simpa only [present, hred] using hp

theorem Produced.inserted {table : Table} (h : Produced record)
    (hwrs : codec.Writes record encoded) (hrev : record.revision = 0)
    (hf : table.Fresh (rowOf record encoded)) :
    ∃ next, insertIfAbsent codec table record = .ok (.inserted record, next) ∧
      lookupOperation codec next record.operationId = .ok (some record) := by
  obtain ⟨next, hins, hrw⟩ :=
    insertIfAbsent_of_fresh hrev (h.encodeRecord hwrs) hf
  refine ⟨next, hins, lookupOperation_some.2 ⟨rowOf record encoded, ?_, rfl, h.decodeRow hwrs⟩⟩
  rw [hrw]
  simp

theorem Produced.swapped {context : ReductionContext}
    {transition : ReducerTransition} {table : Table} (h : Produced record)
    (hrd : reduce record event context = .ok reduction)
    (htr : reduction.transition = some transition) (hwrs : codec.Writes reduction.record encoded)
    (hlk : lookupOperation codec table record.operationId = .ok (some record)) :
    ∃ next, compareAndSwap codec table transition = .ok (.stored reduction.record, next) ∧
      lookupOperation codec next record.operationId = .ok (some reduction.record) := by
  obtain ⟨hst, rfl, hsc⟩ := (reduce_ok hrd).isStep htr
  have hred := h.reduced hrd
  obtain ⟨row, hrow, hop, hdec⟩ := lookupOperation_some.1 hlk
  rw [← hsc] at hwrs hred ⊢
  obtain ⟨next, hsw, hrw⟩ :=
    compareAndSwap_of_isStep hst hrow hdec (hred.encodeRecord hwrs)
  have hsm : transition.successor.operationId = transition.predecessor.operationId := by
    rw [CommandRecord.operationId, CommandRecord.operationId, hst.command_eq]
  refine ⟨next, hsw, lookupOperation_some.2 ⟨rowOf transition.successor encoded, ?_, ?_,
    hred.decodeRow hwrs⟩⟩
  · -- the replaced row is the row of the operation, which the table held
    rw [hrw, Table.replaced, mem_map]
    refine ⟨row, hrow, if_pos ?_⟩
    rw [hop, rowOf, hsm]
  · rw [rowOf, hsm]

/-- **A record the reducer produced is never rejected as corrupt.** It satisfies the persisted
invariants; it is encoded and decoded again; a fresh admission is inserted; and any transition of
the stored record is stored and read back. -/
theorem produced_never_corrupt (codec : RecordCodec) {record : CommandRecord}
    (h : Produced record) : validatePersistedInvariants record = .ok () ∧
    (∀ encoded, codec.Writes record encoded → encodeRecord codec record = .ok encoded ∧
      decodeRow codec (rowOf record encoded) = .ok record) ∧
    (∀ encoded (table : Table), codec.Writes record encoded → record.revision = 0 →
      table.Fresh (rowOf record encoded) →
      ∃ next, insertIfAbsent codec table record = .ok (.inserted record, next) ∧
        lookupOperation codec next record.operationId = .ok (some record)) ∧
    (∀ event context reduction transition encoded (table : Table),
      reduce record event context = .ok reduction → reduction.transition = some transition →
      codec.Writes reduction.record encoded →
      lookupOperation codec table record.operationId = .ok (some record) →
      ∃ next, compareAndSwap codec table transition = .ok (.stored reduction.record, next) ∧
        lookupOperation codec next record.operationId = .ok (some reduction.record)) := by
  refine ⟨validatePersistedInvariants_ok.2 h.persistable, ?_, ?_, ?_⟩
  · exact fun encoded hwrs => ⟨h.encodeRecord hwrs, h.decodeRow hwrs⟩
  · exact fun encoded table hwrs => h.inserted hwrs
  · exact fun event context reduction transition encoded table => h.swapped

/-! ## A concrete run

One administrative command with all-zero identities, submitted by the first writer generation,
with the canonical JSON of its records. -/

def zeroIdentity {name : IdentityName} {width : Nat} : ByteIdentity name width :=
  ⟨Vector.replicate width 0⟩

def firstFence : WriterFence := ⟨zeroIdentity, ⟨1, by decide, by decide⟩⟩

def firstOwner : ExecutionOwner := ⟨zeroIdentity, firstFence⟩

def sampleCommand : FabricCommand where
  identity := ⟨zeroIdentity, zeroIdentity⟩
  ownership := ⟨zeroIdentity, zeroIdentity, zeroIdentity⟩
  expectedHead := .empty
  writerFence := firstFence
  pins := ⟨zeroIdentity, zeroIdentity, zeroIdentity, zeroIdentity, ⟨0⟩, zeroIdentity, zeroIdentity⟩
  resources := zeroIdentity
  payload := .administer .rebuildCandidate zeroIdentity

def sampleAdmitted : CommandRecord := ⟨sampleCommand, .admitted 1, 0⟩

def sampleExecuting : CommandRecord := ⟨sampleCommand, .executing 1 firstOwner, 1⟩

def samplePrepared : CommandRecord :=
  ⟨sampleCommand, .commitPrepared 1 firstOwner zeroIdentity, 2⟩

def sampleCancelled : CommandRecord := ⟨sampleCommand, .cancelled ⟨zeroIdentity⟩, 1⟩

/-- The head and fence under which every event of the sample command is legal. -/
def sampleContext : ReductionContext := ⟨.empty, firstFence⟩

def utf8 (text : String) : List UInt8 := text.toUTF8.data.toList

def jsonObject (members : List (String × List UInt8)) : List UInt8 :=
  utf8 "\x7b" ++ List.intercalate (utf8 ",") (members.map fun member =>
      utf8 "\"" ++ utf8 member.1 ++ utf8 "\":" ++ member.2) ++ utf8 "\x7d"

def jsonZeros (width : Nat) : List UInt8 :=
  utf8 "[" ++ List.intercalate (utf8 ",") (List.replicate width (utf8 "0")) ++ utf8 "]"

/-- The JSON of `firstFence`. -/
def jsonFence : List UInt8 := jsonObject [("generation", utf8 "1"), ("lease_id", jsonZeros 16)]

/-- The JSON of `firstOwner`. -/
def jsonOwner : List UInt8 := jsonObject [("actor_id", jsonZeros 16), ("fence", jsonFence)]

/-- The JSON of `sampleCommand` under an identity, its members in canonical order. -/
def jsonCommandUnder (idempotencyKey operationId : List UInt8) : List UInt8 :=
  jsonObject [("expected_head", utf8 "\"Empty\""),
    ("identity", jsonObject [("idempotency_key", idempotencyKey), ("operation_id", operationId)]),
    ("ownership", jsonObject [("authorization", jsonZeros 32), ("principal_id", jsonZeros 16),
      ("workspace_id", jsonZeros 16)]),
    ("payload", jsonObject [("Administer", jsonObject [("action", utf8 "\"RebuildCandidate\""),
      ("request", jsonZeros 32)])]),
    ("pins", jsonObject [("application_release", jsonZeros 32), ("input_release", jsonZeros 32),
      ("program_release", jsonZeros 32), ("provider_release", jsonZeros 32),
      ("provider_set", jsonZeros 32), ("source_authority", jsonZeros 32),
      ("source_generation", utf8 "0")]),
    ("resources", jsonZeros 32), ("writer_fence", jsonFence)]

def jsonCommand : List UInt8 := jsonCommandUnder (jsonZeros 32) (jsonZeros 16)

/-- The JSON of a record of `sampleCommand`. -/
def jsonRecord (revision state : List UInt8) : List UInt8 :=
  jsonObject [("command", jsonCommand), ("revision", revision), ("state", state)]

def jsonSamples : List (CommandRecord × List UInt8) :=
  [(sampleAdmitted, jsonRecord (utf8 "0")
      (jsonObject [("Admitted", jsonObject [("attempt", utf8 "1")])])),
    (sampleExecuting, jsonRecord (utf8 "1")
      (jsonObject [("Executing", jsonObject [("attempt", utf8 "1"), ("owner", jsonOwner)])])),
    (samplePrepared, jsonRecord (utf8 "2")
      (jsonObject [("CommitPrepared", jsonObject [("attempt", utf8 "1"), ("owner", jsonOwner),
        ("transaction", jsonZeros 32)])])),
    (sampleCancelled, jsonRecord (utf8 "1") (jsonObject [("Cancelled", jsonObject [("cancellation",
        jsonObject [("diagnostic", jsonZeros 32)])])]))]

def sampleCodec : RecordCodec where
  toVec record := jsonSamples.lookup record
  fromSlice bytes := (jsonSamples.find? fun sample => sample.2 = bytes).map Prod.fst

theorem sampleCodec_writes : ∀ sample ∈ jsonSamples, sampleCodec.Writes sample.1 sample.2 := by
  intro sample hs
  have hlk : jsonSamples.lookup sample.1 = some sample.2 := by
    simp only [jsonSamples, mem_cons, not_mem_nil, or_false] at hs
    obtain rfl | rfl | rfl | rfl := hs <;> rfl
  have hlen : 2 ≤ sample.2.length ∧ sample.2.length ≤ maxRecordBytes := by
    revert sample
    decide +kernel
  have hf : (jsonSamples.find? fun other => other.2 = sample.2).map Prod.fst = some sample.1 := by
    revert sample
    decide +kernel
  exact ⟨hlk, hlen.1, hlen.2, hf⟩

theorem admit_sampleCommand : admitCommand none sampleCommand
    ⟨zeroIdentity, .empty, firstFence, .authorized zeroIdentity⟩ = .ok (.new sampleAdmitted) := by
  decide

theorem sampleAdmitted_produced : Produced sampleAdmitted := .admitted admit_sampleCommand

theorem sampleExecuting_produced : Produced sampleExecuting :=
  sampleAdmitted_produced.reduced
    (by decide : reduce sampleAdmitted (.start firstOwner) sampleContext =
      .ok (advanced sampleAdmitted sampleExecuting.state .stateChanged))

theorem sampleCancelled_produced : Produced sampleCancelled :=
  sampleAdmitted_produced.reduced
    (by decide : reduce sampleAdmitted (.cancelBeforeCommit firstOwner ⟨zeroIdentity⟩)
      sampleContext = .ok (advanced sampleAdmitted sampleCancelled.state .stateChanged))

theorem sample_writes : ∃ inserted started prepared,
    insertIfAbsent sampleCodec Table.empty sampleAdmitted =
      .ok (.inserted sampleAdmitted, inserted) ∧
    compareAndSwap sampleCodec inserted ⟨sampleAdmitted, sampleExecuting, .stateChanged⟩ =
      .ok (.stored sampleExecuting, started) ∧
    compareAndSwap sampleCodec started ⟨sampleExecuting, samplePrepared, .stateChanged⟩ =
      .ok (.stored samplePrepared, prepared) := by
  obtain ⟨inserted, hins, hr⟩ := sampleAdmitted_produced.inserted
    (sampleCodec_writes _ mem_cons_self) rfl
    (⟨not_mem_nil, not_mem_nil⟩ : Table.empty.Fresh _)
  obtain ⟨started, hs, hr⟩ := sampleAdmitted_produced.swapped
    (by decide : reduce sampleAdmitted (.start firstOwner) sampleContext =
      .ok (advanced sampleAdmitted sampleExecuting.state .stateChanged)) rfl
    (sampleCodec_writes _ (mem_cons_of_mem _ mem_cons_self)) hr
  obtain ⟨prepared, hp, -⟩ := sampleExecuting_produced.swapped
    (by decide : reduce sampleExecuting (.prepareCommit firstOwner zeroIdentity) sampleContext =
      .ok (advanced sampleExecuting samplePrepared.state .stateChanged)) rfl
    (sampleCodec_writes _ (mem_cons_of_mem _ (mem_cons_of_mem _ mem_cons_self)))
    hr
  exact ⟨inserted, started, prepared, hins, hs, hp⟩

/-- The admitted sample is inserted into the empty journal, and its start is stored. -/
theorem sampleAdmitted_never_corrupt : validatePersistedInvariants sampleAdmitted = .ok () ∧
    ∃ inserted started, insertIfAbsent sampleCodec Table.empty sampleAdmitted =
        .ok (.inserted sampleAdmitted, inserted) ∧
      compareAndSwap sampleCodec inserted ⟨sampleAdmitted, sampleExecuting, .stateChanged⟩ =
        .ok (.stored sampleExecuting, started) ∧
      lookupOperation sampleCodec started sampleCommand.identity.operationId =
        .ok (some sampleExecuting) := by
  obtain ⟨hv, -, hins, hsw⟩ :=
    produced_never_corrupt sampleCodec sampleAdmitted_produced
  obtain ⟨inserted, hin, hlk⟩ := hins _ Table.empty
    (sampleCodec_writes _ mem_cons_self) rfl ⟨not_mem_nil, not_mem_nil⟩
  obtain ⟨started, hst, hr⟩ := hsw (.start firstOwner) sampleContext
    ⟨sampleExecuting, .stateChanged, some ⟨sampleAdmitted, sampleExecuting, .stateChanged⟩⟩ _ _
    inserted (by decide) rfl
    (sampleCodec_writes _ (mem_cons_of_mem _ mem_cons_self)) hlk
  exact ⟨hv, inserted, started, hin, hst, hr⟩

end CodeFabric.Command
