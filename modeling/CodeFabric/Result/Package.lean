import CodeFabric.Query.Events
import CodeFabric.Result.Outcomes

/-! # Streamed result packages

The manifest of a result package and its validation, the bounds of a package, the names of its
objects and the cutting of record batches into pages (`fabric/streamed_result_package.rs`).

* **`validateManifest`** is the check made before a manifest is written and when it is reopened.
* Arrow, JSON and BLAKE3 are given by **`Encodings`**. A processing summary keeps only what is read
  here, and whether the rest of it is valid. -/

namespace CodeFabric.Result

open Fallible
open Query (hex textBytes)

/-! ## Bounds -/

/-- Bounds that cover every page-local and package-wide allocation. -/
structure StreamedResultPackageLimits where
  maxRelations : ℕ+
  maxPages : ℕ+
  maxPageRows : ℕ+
  maxPageBytes : ℕ+
  maxTotalRows : ℕ+
  maxTotalBytes : ℕ+
  maxManifestBytes : ℕ+
  maxProvenanceEntries : ℕ+
  maxProvenanceBytes : ℕ+

/-- A sum that stops at the largest 64-bit number (`saturating_add`). -/
def saturatingAdd (left right : Nat) : Nat := min (left + right) (2 ^ 64 - 1)

def enforcePackageTotals (pages rows bytes : Nat) (limits : StreamedResultPackageLimits) :
    Except StreamedResultPackageError Unit := do
  ensure (pages ≤ limits.maxPages) (.pageLimit pages limits.maxPages)
  ensure (rows ≤ limits.maxTotalRows) (.totalRowLimit rows limits.maxTotalRows)
  ensure (bytes ≤ limits.maxTotalBytes) (.totalByteLimit bytes limits.maxTotalBytes)

/-- Add the length of an entry and of a separator to the length of the manifest. -/
def addManifestEntrySize (length total limit : Nat) : Except StreamedResultPackageError Nat := do
  ensure (length ≤ limit) (.manifestLimit (saturatingAdd limit 1) limit)
  let total ← okOr ((checkedAdd 64 total length).bind (checkedAdd 64 · 1)) .counterOverflow
  ensure (total ≤ limit) (.manifestLimit total limit)
  return total

/-! ## Relations -/

/-- A bounded, non-empty relation identifier. -/
structure RelationId where
  text : String
  nonempty : text ≠ ""
  bounded : text.utf8ByteSize ≤ 240
  deriving DecidableEq

structure ResultProvenance where
  kind : String
  identity : String
  deriving DecidableEq, Repr

/-- One entry of a provenance list; an entry may occur once. -/
def addProvenance (limits : StreamedResultPackageLimits)
    (seen : List ResultProvenance) (entry : ResultProvenance) :
    Except StreamedResultPackageError (List ResultProvenance) := do
  ensure (¬(entry.kind.isEmpty ∨ entry.identity.isEmpty ∨
    (limits.maxProvenanceBytes : Nat) <
      saturatingAdd entry.kind.utf8ByteSize entry.identity.utf8ByteSize ∨ entry ∈ seen))
    .invalidProvenance
  return entry :: seen

/-- The provenance of a relation is bounded and without repetition. -/
def validateProvenance (provenance : List ResultProvenance) (limits : StreamedResultPackageLimits) :
    Except StreamedResultPackageError Unit := do
  ensure (provenance.length ≤ limits.maxProvenanceEntries) .provenanceLimit
  let _ ← provenance.foldlM (addProvenance limits) []

inductive ResultCompleteness
  | complete | unfinished | unknown
  deriving DecidableEq, Repr

def completenessName : ResultCompleteness → String
  | .complete => "complete"
  | .unfinished => "partial"
  | .unknown => "unknown"

structure ResultCoverage where
  state : ResultCompleteness
  requestedUnits : Nat
  completedUnits : Nat
  remainderUnits : Nat
  unknownCause : Option String
  deriving DecidableEq, Repr

structure StreamedRowSelection where
  queryId : String
  maximumRows : Nat
  exhaustionProbe : Bool
  deriving DecidableEq, Repr

/-- The processing summary of a query; `summaryValid` says whether the parts that are not modelled
are valid. -/
structure QueryProcessing where
  queryId : String
  summaryValid : Bool
  maximumRows : Option Nat
  additionalRows : Option Bool
  deriving DecidableEq, Repr

def QueryProcessing.validate (processing : QueryProcessing) : Bool :=
  !processing.queryId.isEmpty && processing.summaryValid && processing.maximumRows != some 0

/-- One streamed relation, with everything its stream will yield. -/
structure StreamedRelationInput (Schema Batch : Type) where
  relationId : RelationId
  schema : Schema
  streamSchema : Schema
  stream : List (Except DataFusionError Batch)
  maxRows : Nat
  coverage : ResultCoverage
  provenance : List ResultProvenance
  rowSelection : Option StreamedRowSelection

/-! ## The manifest -/

def streamedResultPackageFormat : String := "codefabric.streamed-result-package.v1"

structure ResultPageManifestEntry where
  relationId : String
  pageOrdinal : Nat
  objectPath : String
  rowCount : Nat
  batchCount : Nat
  byteLength : Nat
  schemaChecksum : String
  contentChecksum : String
  deriving DecidableEq, Repr

/-- One relation of a package and its run of pages. -/
structure ResultRelationManifestEntry where
  relationId : String
  pageStart : Nat
  pageCount : Nat
  rowCount : Nat
  coverageState : String
  requestedUnits : Nat
  completedUnits : Nat
  remainderUnits : Nat
  unknownCause : Option String
  provenance : List ResultProvenance
  deriving DecidableEq, Repr

/-- The semantic response and the ordered inventory of pages. -/
structure StreamedResultPackageManifest where
  format : String
  epochId : String
  queryExecution : String
  canonicalSemanticResponse : SemanticResponse
  processing : List QueryProcessing
  totalRows : Nat
  totalPages : Nat
  totalBytes : Nat
  relations : List ResultRelationManifestEntry
  pages : List ResultPageManifestEntry
  deriving DecidableEq, Repr

def decimalDigits : Nat → Nat → List Char
  | 0, _ => []
  | width + 1, value => decimalDigits width (value / 10) ++ [Nat.digitChar (value % 10)]

/-- The path of a page. A 64-bit ordinal has at most 20 digits, so that padding is the same as
writing 20 digits. -/
def pagePath (epochHex queryHex relation : String) (ordinal : Nat) : String :=
  Query.pageRoot epochHex queryHex ++ hex (textBytes relation) ++ "/" ++
    String.ofList (decimalDigits 20 ordinal) ++ ".arrow"

variable (manifest : StreamedResultPackageManifest) (limits : StreamedResultPackageLimits)

/-- The outcomes of a manifest, which must be those of its relations. -/
def StreamedResultPackageManifest.queryResults :
    Except StreamedResultPackageError (Option (List QueryBlockOutcome)) := do
  match ← QueryBlockOutcomes.parse manifest.canonicalSemanticResponse with
  | none => return none
  | some outcomes =>
    outcomes.validateRelations (manifest.relations.map ResultRelationManifestEntry.relationId)
    return some outcomes.outcomes

def checkedTotal (values : List Nat) : Except StreamedResultPackageError Nat :=
  values.foldlM (fun total value => okOr (checkedAdd 64 total value) .counterOverflow) 0

/-- One relation of a manifest follows the one before, with a name of its own and its own pages. -/
def validateRelation (seen : List String × Nat) (relation : ResultRelationManifestEntry) :
    Except StreamedResultPackageError (List String × Nat) := do
  ensure (relation.relationId ∉ seen.1) (.duplicateRelation relation.relationId)
  let stop ← okOr (checkedAdd 64 relation.pageStart relation.pageCount) .counterOverflow
  ensure (relation.pageStart = seen.2) .manifestShape
  ensure (stop ≤ manifest.pages.length) .manifestShape
  let selected := (manifest.pages.drop relation.pageStart).take relation.pageCount
  ensure (¬(selected.isEmpty ∨ (∃ page ∈ selected, page.relationId ≠ relation.relationId) ∨
    (selected.map ResultPageManifestEntry.rowCount).sum ≠ relation.rowCount)) .manifestShape
  validateProvenance relation.provenance limits
  return (relation.relationId :: seen.1, stop)

def validChecksum (checksum : String) : Bool :=
  checksum.utf8ByteSize == 64 &&
    checksum.toList.all fun c => c.isDigit || (decide ('a' ≤ c) && decide (c ≤ 'f'))

def ValidPage (ordinal : Nat) (page : ResultPageManifestEntry) : Prop :=
  page.pageOrdinal = ordinal ∧ page.byteLength ≤ limits.maxPageBytes ∧
    page.rowCount ≤ limits.maxPageRows ∧ page.batchCount = 1 ∧
    page.objectPath =
      pagePath manifest.epochId manifest.queryExecution page.relationId page.pageOrdinal ∧
    validChecksum page.schemaChecksum ∧ validChecksum page.contentChecksum
  deriving Decidable

def validateManifest : Except StreamedResultPackageError Unit := do
  let results ← manifest.queryResults
  let allFailed := results.any (·.all (·.executionState != .complete))
  ensure (¬(manifest.format ≠ streamedResultPackageFormat ∨
    (manifest.relations.isEmpty ∧ ¬allFailed) ∨
    (limits.maxRelations : Nat) < manifest.relations.length ∨
    (manifest.pages.isEmpty ∧ ¬allFailed) ∨
    (limits.maxPages : Nat) < manifest.pages.length ∨
    manifest.relations.length < manifest.processing.length ∨
    ∃ processing ∈ manifest.processing, ¬processing.validate)) .manifestShape
  ensure (manifest.processing.map QueryProcessing.queryId).Nodup .manifestShape
  let totalRows ← checkedTotal (manifest.pages.map ResultPageManifestEntry.rowCount)
  let totalBytes ← checkedTotal (manifest.pages.map ResultPageManifestEntry.byteLength)
  ensure (totalRows = manifest.totalRows ∧ totalBytes = manifest.totalBytes ∧
    manifest.totalPages = manifest.pages.length) .manifestTotals
  enforcePackageTotals manifest.pages.length totalRows totalBytes limits
  let (_, nextPage) ← manifest.relations.foldlM (validateRelation manifest limits) ([], 0)
  ensure (nextPage = manifest.pages.length) .manifestShape
  ensure (∀ entry ∈ manifest.pages.zipIdx, ValidPage manifest limits entry.2 entry.1)
    .manifestShape

/-! ## Pages -/

inductive BoundedEncodingError
  | pageByteLimit
  | other (error : StreamedResultPackageError)
  deriving DecidableEq, Repr

/-- Arrow record batches and their IPC encoding, JSON and BLAKE3. -/
structure Encodings (Schema Batch : Type) where
  /-- The schema of a batch. -/
  schemaOf : Batch → Schema
  /-- The number of rows of a batch. -/
  numRows : Batch → Nat
  /-- The memory of a batch (`get_array_memory_size`). -/
  memorySize : Batch → Nat
  /-- Some rows of a batch, from an offset. -/
  slice : Batch → Nat → Nat → Batch
  /-- The batch without rows. -/
  newEmpty : Schema → Batch
  preflightSchema : Schema → Nat → Except StreamedResultPackageError Unit
  encodePage : Schema → List Batch → Nat → Except StreamedResultPackageError (List UInt8)
  pageSize : Schema → List Batch → Nat → Except BoundedEncodingError Nat
  /-- Decode a page again and compare it with its entry. -/
  validatePage : ResultPageManifestEntry → List UInt8 → Nat → Except StreamedResultPackageError Unit
  digest : List UInt8 → Vector UInt8 32
  /-- The decoded members of a response. -/
  decodeResponse : List UInt8 → Option SemanticResponse
  /-- The canonical text of a decoded response. -/
  canonicalize : List UInt8 → Option (List UInt8)
  /-- The length of the JSON of a page entry, of a relation entry, and of a manifest whose other
  response members are those of a text. -/
  pageLength : ResultPageManifestEntry → Nat
  relationLength : ResultRelationManifestEntry → Nat
  manifestLength : List UInt8 → StreamedResultPackageManifest → Nat
  /-- The canonical bytes of a manifest. -/
  manifestBytes : List UInt8 → StreamedResultPackageManifest →
    Except StreamedResultPackageError (List UInt8)

variable {Schema Batch : Type} (encodings : Encodings Schema Batch)

/-- The binary search for the longest slice that fits, for a number of rounds. -/
def searchSlice (schema : Schema) (batch : Batch) (offset maxBytes : Nat) :
    Nat → Nat → Nat → Option Batch → Except StreamedResultPackageError (Option Batch)
  | 0, _, _, best => .ok best
  | rounds + 1, low, high, best =>
    if high < low then .ok best
    else
      let rows := low + (high - low) / 2
      let slice := encodings.slice batch offset rows
      match encodings.pageSize schema [slice] maxBytes with
      | .ok _ => searchSlice schema batch offset maxBytes rounds (rows + 1) high (some slice)
      | .error .pageByteLimit =>
        if rows = 1 then .ok best
        else searchSlice schema batch offset maxBytes rounds low (rows - 1) best
      | .error (.other error) => .error error

variable {encodings} in
theorem searchSlice_rounds {schema : Schema} {batch : Batch} {offset maxBytes : Nat}
    {rounds low high : Nat} {best : Option Batch} (hlow : 0 < low)
    (hr : high + 1 - low ≤ rounds) (more : Nat) :
    searchSlice encodings schema batch offset maxBytes (rounds + more) low high best =
      searchSlice encodings schema batch offset maxBytes rounds low high best := by
  induction rounds generalizing low high best with
  | zero =>
    have hemp : high < low := by omega
    cases more with
    | zero => rfl
    | succ more => rw [Nat.zero_add, searchSlice, searchSlice, if_pos hemp]
  | succ rounds ih =>
    rw [Nat.succ_add, searchSlice, searchSlice]
    split
    · rfl
    · have hh : (high - low) / 2 ≤ high - low := Nat.div_le_self _ _
      dsimp only
      split
      · exact ih (by omega) (by omega)
      · split
        · rfl
        · exact ih hlow (by omega)
      · rfl

/-- The longest slice from an offset that fits a page, and its encoding. -/
def largestFittingSlice (schema : Schema) (batch : Batch) (offset candidateRows maxBytes : Nat) :
    Except StreamedResultPackageError (Batch × List UInt8) := do
  let found ← searchSlice encodings schema batch offset maxBytes candidateRows 1 candidateRows none
  let best ← okOr found (.pageByteLimit (saturatingAdd maxBytes 1) maxBytes)
  let bytes ← encodings.encodePage schema [best] maxBytes
  return (best, bytes)

/-- The slices of a batch from an offset. Each has a row, so that there are at most as many as the
batch has rows. -/
def slicesFrom (schema : Schema) (batch : Batch) (maxRows maxBytes : Nat) :
    Nat → Nat → List (Except StreamedResultPackageError (Batch × List UInt8))
  | 0, _ => []
  | count + 1, offset =>
    match largestFittingSlice encodings schema batch offset
        (min maxRows (encodings.numRows batch - offset)) maxBytes with
    | .error error => [.error error]
    | .ok (slice, bytes) =>
      .ok (slice, bytes) ::
        if offset + encodings.numRows slice = encodings.numRows batch then []
        else slicesFrom schema batch maxRows maxBytes count (offset + encodings.numRows slice)

/-- The pages of a batch, in order; the first failure ends them. A batch without rows is one
page. -/
def boundedBatchSlices (schema : Schema) (batch : Batch) (maxRows maxBytes : Nat) :
    Except StreamedResultPackageError
      (List (Except StreamedResultPackageError (Batch × List UInt8))) := do
  encodings.preflightSchema schema maxBytes
  if encodings.numRows batch = 0 then
    return [(encodings.encodePage schema [batch] maxBytes).map (batch, ·)]
  else
    return slicesFrom encodings schema batch maxRows maxBytes (encodings.numRows batch) 0

/-- The entry of a page and its object, checked by decoding it again (`prepare_page`). -/
def preparePage (limits : StreamedResultPackageLimits) (epochHex queryHex : String)
    (relation : RelationId) (schema : Schema) (pageOrdinal : Nat) (batch : Batch)
    (encoded : List UInt8) : Except StreamedResultPackageError ResultPageManifestEntry := do
  ensure (encoded.length ≤ limits.maxPageBytes)
    (.pageByteLimit encoded.length limits.maxPageBytes)
  let schemaBytes ← encodings.encodePage schema [] limits.maxPageBytes
  let entry : ResultPageManifestEntry :=
    { relationId := relation.text
      pageOrdinal
      objectPath := pagePath epochHex queryHex relation.text pageOrdinal
      rowCount := encodings.numRows batch
      batchCount := 1
      byteLength := encoded.length
      schemaChecksum := hex (encodings.digest schemaBytes).toList
      contentChecksum := hex (encodings.digest encoded).toList }
  encodings.validatePage entry encoded limits.maxPageBytes
  return entry

/-- The bytes of a manifest, within their bound (`bounded_manifest_bytes`). -/
def boundedManifestBytes (response : List UInt8) (manifest : StreamedResultPackageManifest)
    (limit : Nat) : Except StreamedResultPackageError (List UInt8) := do
  let _ ← addManifestEntrySize (encodings.manifestLength response manifest) 0 limit
  let bytes ← encodings.manifestBytes response manifest
  ensure (bytes.length ≤ limit) (.manifestLimit bytes.length limit)
  return bytes

end CodeFabric.Result
