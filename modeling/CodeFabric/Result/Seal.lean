import CodeFabric.Query.Coordinator
import CodeFabric.Result.Package
import CodeFabric.Support.Observer
import CodeFabric.Support.SortedKeys

/-! # Sealing a result package

The manifest-last sealer (`StreamedResultPackageBuilder::seal_with_processing`) and the exact-path
storage ledger below it (`storage_ledger.rs`).

* Every `await` is one effect, and storage, the recorder, the clock and the budget may answer it in
  any way. The private state survives an error as it is, as the locals of the source do.
* The ledger is used for the paths of this seal by this seal only, so that an entry found is still
  current when its lock is taken. -/

namespace CodeFabric.Result

open Fallible Procedures
open Query (hex PendingResultObjectSet)
open Budget (ResourceClass ResourceBudgetError)

/-! ## Effects -/

/-- Why a seal is stopped from outside. -/
inductive Interruption
  | cancelled | deadlineExceeded
  deriving DecidableEq, Repr

/-- What the storage answers when asked for a length. -/
inductive SizeAnswer
  | found (length : Nat) | notFound | failed
  deriving DecidableEq, Repr

inductive DeleteAnswer
  | deleted | notFound | failed
  deriving DecidableEq, Repr

/-- What a seal asks of its surroundings. A reservation names its memory, its stored bytes and its
objects. -/
inductive SealEffect
  | checkCancelDeadline
  | awaitBatch
  | reserve (resourceClass : ResourceClass) (memoryBytes storedBytes objects : Nat)
  | shrink (retainedMemoryBytes : Nat)
  | recordPublicationIntent (intent : PendingResultObjectSet)
  | reconcileAfterCleanup (previous retained : PendingResultObjectSet)
  | create (path : String) (bytes : List UInt8)
  | size (path : String)
  | delete (path : String)
  deriving DecidableEq

/-- The answers. A recorder and a write answer whether they succeeded. -/
def SealResponse : SealEffect → Type
  | .checkCancelDeadline | .awaitBatch => Option Interruption
  | .reserve .. | .shrink _ => Except ResourceBudgetError Unit
  | .recordPublicationIntent _ | .reconcileAfterCleanup .. | .create .. => Bool
  | .size _ => SizeAnswer
  | .delete _ => DeleteAnswer

/-- The state of a seal: the ledger's lengths, and the locals of the source that outlive one
relation. -/
structure SealState where
  objects : Std.ExtTreeMap String Nat
  created : List String
  pages : List ResultPageManifestEntry
  relationEntries : List ResultRelationManifestEntry
  metadataBytes : Nat
  totalRows : Nat
  totalBytes : Nat
  publicationRecorded : Bool
  outcomes : Option QueryBlockOutcomes
  processing : List QueryProcessing

abbrev SealM := Procedure SealEffect SealResponse SealState StreamedResultPackageError

def interrupted : Option Interruption → Except StreamedResultPackageError Unit
  | none => .ok ()
  | some .cancelled => .error .cancelled
  | some .deadlineExceeded => .error .deadlineExceeded

/-- Stop when cancelled or late (`check_cancel_deadline`). -/
def checkCancelDeadline : SealM Unit := do
  let answer : Option Interruption ← effect SealEffect.checkCancelDeadline
  check (interrupted answer)

/-- Wait for the next batch, until cancelled or late (`next_batch`). -/
def awaitBatch : SealM Unit := do
  let answer : Option Interruption ← effect SealEffect.awaitBatch
  check (interrupted answer)

def reserve (resourceClass : ResourceClass) (memoryBytes storedBytes objects : Nat) :
    SealM Unit := do
  let answer : Except ResourceBudgetError Unit ←
    effect (SealEffect.reserve resourceClass memoryBytes storedBytes objects)
  check (answer.mapError .resource)

/-- Give back metadata memory, down to what the manifest retains. -/
def shrink (retainedMemoryBytes : Nat) : SealM Unit := do
  let answer : Except ResourceBudgetError Unit ← effect (SealEffect.shrink retainedMemoryBytes)
  check (answer.mapError .resource)

def recordPublicationIntent (intent : PendingResultObjectSet) : SealM Unit := do
  let accepted : Bool ← effect (SealEffect.recordPublicationIntent intent)
  check (ensure (accepted = true) .publicationIntent)

/-- Record a shorter intent after the pages it drops were deleted. -/
def reconcileAfterCleanup (previous retained : PendingResultObjectSet) : SealM Unit := do
  let accepted : Bool ← effect (SealEffect.reconcileAfterCleanup previous retained)
  check (ensure (accepted = true) .publicationIntent)

/-! ## The storage ledger -/

variable (path : String)

def ledgerAdmit (byteLength : Nat) (resourceClass : ResourceClass) : SealM Unit := do
  let state ← read
  match state.objects[path]? with
  | some existing => check (ensure (existing = byteLength) .objectLength)
  | none => do
    let metadataBytes ← check (okOr
      ((checkedMul 64 path.utf8ByteSize 2).bind (checkedAdd 64 · 1024)) .counterOverflow)
    reserve resourceClass metadataBytes byteLength 1
    update fun state => { state with objects := state.objects.insert path byteLength }

/-- Create an object. A failed write keeps its reservation: the object may exist. -/
def ledgerCreate (bytes : List UInt8) : SealM Unit := do
  ledgerAdmit path bytes.length .data
  let stored : Bool ← effect (SealEffect.create path bytes)
  check (ensure (stored = true) .objectStore)

/-- Delete an accounted object, which may be gone already. -/
def ledgerRemove : SealM Unit := do
  let answer : DeleteAnswer ← effect (SealEffect.delete path)
  match answer with
  | .deleted | .notFound =>
    update fun state => { state with objects := state.objects.erase path }
  | .failed => throw .objectStore

/-- Delete an object. One that is not accounted for is looked up first. -/
def ledgerDelete (maximumBytes : Nat) : SealM Unit := do
  let state ← read
  match state.objects[path]? with
  | some _ => ledgerRemove path
  | none => do
    let answer : SizeAnswer ← effect (SealEffect.size path)
    match answer with
    | .notFound => return ()
    | .failed => throw .objectStore
    | .found length => do
      check (ensure (length ≤ maximumBytes) .objectLength)
      ledgerAdmit path length .control
      ledgerRemove path

/-- Delete objects in order, stopping at the first failure. -/
def deleteAll (maximumBytes : Nat) : List String → SealM Unit
  | [] => return ()
  | path :: paths => do
    ledgerDelete path maximumBytes
    deleteAll maximumBytes paths

def deleteAnyway (maximumBytes : Nat) : List String → SealM Unit
  | [] => return ()
  | path :: paths => do
    let _ ← attempt (ledgerDelete path maximumBytes)
    deleteAnyway maximumBytes paths

/-! ## Publishing pages -/

/-- A seal: the storage-independent parts of a builder, the pins of the package, and the text of
the semantic response. -/
structure Sealer (Schema Batch : Type) where
  encodings : Encodings Schema Batch
  limits : StreamedResultPackageLimits
  epochId : Vector UInt8 16
  queryExecution : Vector UInt8 32
  response : List UInt8

structure RelationProgress where
  relationRows : Nat
  observedRows : Nat
  relationPages : Nat
  sawBatch : Bool

namespace Sealer

variable {Schema Batch : Type} [DecidableEq Schema] (sealer : Sealer Schema Batch)
  (pages : List ResultPageManifestEntry) (relation : StreamedRelationInput Schema Batch)
  (outcomes : Option QueryBlockOutcomes) (relations : List (StreamedRelationInput Schema Batch))

def epochHex : String := hex sealer.epochId.toList

def queryHex : String := hex sealer.queryExecution.toList

def manifestPath : String := Query.manifestPath sealer.epochHex sealer.queryHex

def intent : PendingResultObjectSet :=
  ⟨sealer.manifestPath, pages.map ResultPageManifestEntry.objectPath, sealer.epochHex,
    sealer.queryHex⟩

def pageBytes : Nat := sealer.limits.maxPageBytes

/-- Publish the last of the pages: first the intent, then the object (`publish_page`). -/
def publishPage (path : String) (bytes : List UInt8) : SealM Unit := do
  recordPublicationIntent (sealer.intent pages)
  ledgerCreate path bytes

/-- Count a page against the package and the manifest, and publish it. -/
def appendPage (page : ResultPageManifestEntry) (encoded : List UInt8)
    (totalRows totalBytes : Nat) :
    SealM Unit := do
  let state ← read
  check (enforcePackageTotals (saturatingAdd state.pages.length 1) totalRows totalBytes
    sealer.limits)
  let metadataBytes ← check (addManifestEntrySize (sealer.encodings.pageLength page)
    state.metadataBytes sealer.limits.maxManifestBytes)
  update fun state => { state with
    totalRows, totalBytes, metadataBytes, pages := state.pages ++ [page] }
  publishPage sealer (state.pages ++ [page]) page.objectPath encoded
  update fun state => { state with
    created := state.created ++ [page.objectPath], publicationRecorded := true }

def publishSlice (progress : RelationProgress)
    (slice : Batch) (encoded : List UInt8) : SealM RelationProgress := do
  checkCancelDeadline
  let state ← read
  check (ensure (state.pages.length < 2 ^ 64) .counterOverflow)
  let page ← check (preparePage sealer.encodings sealer.limits sealer.epochHex sealer.queryHex
    relation.relationId relation.schema state.pages.length slice encoded)
  let relationRows ← check (okOr (checkedAdd 64 progress.relationRows page.rowCount)
    .counterOverflow)
  check (ensure (relationRows ≤ relation.maxRows)
    (.relationRowLimit relation.relationId.text relationRows relation.maxRows))
  let totalRows ← check (okOr (checkedAdd 64 state.totalRows page.rowCount) .counterOverflow)
  let totalBytes ← check (okOr (checkedAdd 64 state.totalBytes page.byteLength) .counterOverflow)
  let relationPages ← check (okOr (checkedAdd 64 progress.relationPages 1) .counterOverflow)
  sealer.appendPage page encoded totalRows totalBytes
  return { progress with relationRows, relationPages }

def publishSlices (relation : StreamedRelationInput Schema Batch) :
    RelationProgress → List (Except StreamedResultPackageError (Batch × List UInt8)) →
      SealM RelationProgress
  | progress, [] => return progress
  | progress, slice :: slices => do
    let (batch, encoded) ← check slice
    let progress ← sealer.publishSlice relation progress batch encoded
    publishSlices relation progress slices

/-- The rows of a batch that a selection still takes; nothing if it takes none of some. -/
def selectedRows (progress : RelationProgress) (batch : Batch) : Option Batch :=
  match relation.rowSelection with
  | none => some batch
  | some selection =>
    let rows := sealer.encodings.numRows batch
    let selected := min rows (selection.maximumRows - progress.relationRows)
    if selected = 0 ∧ rows ≠ 0 then none else some (sealer.encodings.slice batch 0 selected)

def consumeBatch (progress : RelationProgress) (batch : Batch) : SealM RelationProgress := do
  reserve .data (sealer.encodings.memorySize batch) 0 0
  check (ensure (sealer.encodings.schemaOf batch = relation.schema)
    (.streamSchemaDrift relation.relationId.text))
  let observedRows ← check (okOr
    (checkedAdd 64 progress.observedRows (sealer.encodings.numRows batch)) .counterOverflow)
  check (ensure (observedRows ≤ relation.maxRows)
    (.relationRowLimit relation.relationId.text observedRows relation.maxRows))
  let progress := { progress with observedRows, sawBatch := true }
  match sealer.selectedRows relation progress batch with
  | none => return progress
  | some batch => do
    let slices ← check (boundedBatchSlices sealer.encodings relation.schema batch
      sealer.limits.maxPageRows sealer.limits.maxPageBytes)
    sealer.publishSlices relation progress slices

/-- The rest of a stream. It ends with nothing where the block failed by itself, which is told
apart only if the response has outcomes. -/
def consumeStream (relation : StreamedRelationInput Schema Batch) :
    RelationProgress → List (Except DataFusionError Batch) → SealM (Option RelationProgress)
  | progress, [] => do
    awaitBatch
    return some progress
  | progress, next :: rest => do
    awaitBatch
    checkCancelDeadline
    match next with
    | .error error => do
      let state ← read
      if state.outcomes.isSome && isolatedExecutionError error then
        return none
      else
        throw (.dataFusion error)
    | .ok batch => do
      let progress ← sealer.consumeBatch relation progress batch
      consumeStream relation progress rest

/-! ## Relations -/

/-- The pages, totals and lengths before a relation, to which a failed block goes back. -/
structure Checkpoint where
  pageOffset : Nat
  createdOffset : Nat
  totalRows : Nat
  totalBytes : Nat
  metadataBytes : Nat

def shortenIntent (pages : List ResultPageManifestEntry) (offset : Nat) : SealM Unit :=
  if offset < pages.length then
    reconcileAfterCleanup (sealer.intent pages) (sealer.intent (pages.take offset))
  else
    return ()

/-- Mark a block that failed when it was executed; only a response with outcomes has one. -/
def markFailed (outcomes : Option QueryBlockOutcomes) (relation : String) :
    Except StreamedResultPackageError (Option QueryBlockOutcomes) :=
  match outcomes with
  | some outcomes => (outcomes.failExecution relation).map some
  | none => .error .manifestShape

/-- Delete the pages of a failed block, shorten the intent, and mark the block. -/
def dropRelation (before : Checkpoint) : SealM Unit := do
  let state ← read
  deleteAll sealer.pageBytes (state.created.drop before.createdOffset).reverse
  sealer.shortenIntent state.pages before.pageOffset
  update fun state => { state with
    created := state.created.take before.createdOffset
    pages := state.pages.take before.pageOffset
    totalRows := before.totalRows
    totalBytes := before.totalBytes
    metadataBytes := before.metadataBytes }
  let outcomes ← check (markFailed state.outcomes relation.relationId.text)
  update fun state => { state with outcomes }

/-- Whether more rows than a selection takes were observed. -/
def additionalRows (selection : StreamedRowSelection) (observedRows : Nat) : Option Bool :=
  if selection.maximumRows < observedRows then some true
  else if observedRows < selection.maximumRows ∨ selection.exhaustionProbe = true then some false
  else none

/-- Note in the summary of a selection's query whether rows were left out. -/
def noteSelection (selection : Option StreamedRowSelection) (observedRows : Nat)
    (processing : List QueryProcessing) :
    Except StreamedResultPackageError (List QueryProcessing) := do
  let some selection := selection | return processing
  let index ← okOr (processing.findIdx? (·.queryId == selection.queryId)) .manifestShape
  let summary ← okOr processing[index]? .manifestShape
  ensure (¬(summary.maximumRows ≠ some selection.maximumRows ∨ selection.maximumRows = 0))
    .manifestShape
  return processing.set index
    { summary with additionalRows := additionalRows selection observedRows }

def publishEmpty : SealM Unit := do
  let empty := sealer.encodings.newEmpty relation.schema
  let encoded ← check (sealer.encodings.encodePage relation.schema [empty]
    sealer.limits.maxPageBytes)
  let state ← read
  check (ensure (state.pages.length < 2 ^ 64) .counterOverflow)
  let page ← check (preparePage sealer.encodings sealer.limits sealer.epochHex sealer.queryHex
    relation.relationId relation.schema state.pages.length empty encoded)
  let totalBytes ← check (okOr (checkedAdd 64 state.totalBytes page.byteLength) .counterOverflow)
  sealer.appendPage page encoded state.totalRows totalBytes

/-- A relation whose stream had no batch gets one page without rows. -/
def publishMissing (sawBatch : Bool) : SealM Unit :=
  if sawBatch then return () else sealer.publishEmpty relation

def relationEntry (pageStart pageCount rowCount : Nat) : ResultRelationManifestEntry :=
  { relationId := relation.relationId.text
    pageStart
    pageCount
    rowCount
    coverageState := completenessName relation.coverage.state
    requestedUnits := relation.coverage.requestedUnits
    completedUnits := relation.coverage.completedUnits
    remainderUnits := relation.coverage.remainderUnits
    unknownCause := relation.coverage.unknownCause
    provenance := relation.provenance }

def closeRelation (pageStart : Nat) (progress : RelationProgress) : SealM Unit := do
  let state ← read
  let processing ← check (noteSelection relation.rowSelection progress.observedRows
    state.processing)
  update fun state => { state with processing }
  sealer.publishMissing relation progress.sawBatch
  let relationPages := if progress.sawBatch then progress.relationPages else 1
  let entry := relationEntry relation pageStart relationPages progress.relationRows
  let state ← read
  let metadataBytes ← check (addManifestEntrySize (sealer.encodings.relationLength entry)
    state.metadataBytes sealer.limits.maxManifestBytes)
  update fun state => { state with
    metadataBytes, relationEntries := state.relationEntries ++ [entry] }

def checkRelation : Except StreamedResultPackageError Unit := do
  ensure (relation.maxRows ≠ 0) (.invalidRelationRowLimit relation.relationId.text)
  validateProvenance relation.provenance sealer.limits
  sealer.encodings.preflightSchema relation.schema sealer.limits.maxPageBytes
  ensure (relation.streamSchema = relation.schema) (.streamSchemaDrift relation.relationId.text)

def sealRelation : SealM Unit := do
  checkCancelDeadline
  check (sealer.checkRelation relation)
  let before ← read
  check (ensure (before.pages.length < 2 ^ 64) .counterOverflow)
  match ← sealer.consumeStream relation ⟨0, 0, 0, false⟩ relation.stream with
  | none => sealer.dropRelation relation ⟨before.pages.length, before.created.length,
      before.totalRows, before.totalBytes, before.metadataBytes⟩
  | some progress => sealer.closeRelation relation before.pages.length progress

def sealRelations : List (StreamedRelationInput Schema Batch) → SealM Unit
  | [] => return ()
  | relation :: relations => do
    sealer.sealRelation relation
    sealRelations relations

/-! ## The package -/

/-- The response with the outcomes of the blocks, if it has outcomes. -/
def finalResponse (response : SemanticResponse) :
    Except StreamedResultPackageError SemanticResponse :=
  match outcomes with
  | some outcomes => outcomes.writeResponse response
  | none => .ok response

/-- The summaries of the complete blocks (`retain_processing`). -/
def retainProcessing (processing : List QueryProcessing) : List QueryProcessing :=
  match outcomes with
  | some outcomes => processing.filter fun summary => outcomes.complete summary.queryId
  | none => processing

def manifest (state : SealState) (response : SemanticResponse) :
    Except StreamedResultPackageError StreamedResultPackageManifest := do
  let response ← finalResponse state.outcomes response
  ensure (state.pages.length < 2 ^ 64) .counterOverflow
  return { format := streamedResultPackageFormat
           epochId := sealer.epochHex
           queryExecution := sealer.queryHex
           canonicalSemanticResponse := response
           processing := retainProcessing state.outcomes state.processing
           totalRows := state.totalRows
           totalPages := state.pages.length
           totalBytes := state.totalBytes
           relations := state.relationEntries
           pages := state.pages }

/-- A sealed package: its manifest, the bytes it was written as, and where. -/
structure SealedStreamedResultPackage where
  manifestPath : String
  manifestChecksum : Vector UInt8 32
  manifestByteLength : Nat
  manifest : StreamedResultPackageManifest

/-- A package without pages is announced by an intent of its own. -/
def recordUnrecorded (publicationRecorded : Bool) : SealM Unit :=
  if publicationRecorded then return () else recordPublicationIntent (sealer.intent [])

/-- Write the manifest, behind an intent of its own if there was no page. -/
def publishManifest (response : SemanticResponse) : SealM SealedStreamedResultPackage := do
  let state ← read
  let manifest ← check (sealer.manifest state response)
  check (validateManifest manifest sealer.limits)
  let bytes ← check (boundedManifestBytes sealer.encodings sealer.response manifest
    sealer.limits.maxManifestBytes)
  let retained ← check (okOr (checkedMul 64 bytes.length 64) .counterOverflow)
  shrink retained
  checkCancelDeadline
  sealer.recordUnrecorded state.publicationRecorded
  ledgerCreate sealer.manifestPath bytes
  return ⟨sealer.manifestPath, sealer.encodings.digest bytes, bytes.length, manifest⟩

/-- Everything after the first object may have been created. -/
def sealBody (response : SemanticResponse) : SealM SealedStreamedResultPackage := do
  sealer.sealRelations relations
  sealer.publishManifest response

def firstState (objects : Std.ExtTreeMap String Nat) (outcomes : Option QueryBlockOutcomes)
    (processing : List QueryProcessing) : SealState :=
  { objects, created := [], pages := [], relationEntries := []
    metadataBytes := saturatingAdd sealer.response.length 512
    totalRows := 0, totalBytes := 0, publicationRecorded := false, outcomes, processing }

/-- The relations in the order of their identifiers, each once. -/
def orderRelations :
    Except StreamedResultPackageError (List (StreamedRelationInput Schema Batch)) := do
  let sorted := SortedKeys.sortOn (fun relation => relation.relationId.text) relations
  match (sorted.zip sorted.tail).find? fun pair =>
      pair.1.relationId.text == pair.2.relationId.text with
  | some (relation, _) => .error (.duplicateRelation relation.relationId.text)
  | none => .ok sorted

/-- The checks of a seal before its streams are read, and the decoded response. -/
def checkResponse :
    Except StreamedResultPackageError (SemanticResponse × Option QueryBlockOutcomes) := do
  ensure (relations.length ≤ sealer.limits.maxRelations)
    (.relationLimit relations.length sealer.limits.maxRelations)
  let response ← okOr (sealer.encodings.decodeResponse sealer.response) .canonicalResponse
  let canonical ← okOr (sealer.encodings.canonicalize sealer.response) .canonicalResponse
  ensure (canonical = sealer.response) .nonCanonicalResponse
  let outcomes ← QueryBlockOutcomes.parse response
  ensure (¬(relations.isEmpty ∧ ¬outcomes.any QueryBlockOutcomes.allFailed))
    (.relationLimit 0 sealer.limits.maxRelations)
  return (response, outcomes)

/-- Seal a package: read every stream, publish pages and manifest, and after an error delete what
was created, in reverse. -/
def sealWithProcessing (processing : List QueryProcessing)
    (relations : List (StreamedRelationInput Schema Batch)) :
    SealM SealedStreamedResultPackage := do
  check (ensure (¬(sealer.epochId.toList.all (· == 0) ∨ sealer.queryExecution.toList.all (· == 0)))
    .invalidPins)
  checkCancelDeadline
  check (ensure (sealer.response.length ≤ sealer.limits.maxManifestBytes)
    (.manifestLimit sealer.response.length sealer.limits.maxManifestBytes))
  let metadata ← check (okOr (checkedMul 64 sealer.limits.maxManifestBytes 64) .counterOverflow)
  reserve .data metadata 0 0
  let encoding ← check (okOr ((checkedMul 64 sealer.limits.maxPageBytes 16).bind
    (checkedAdd 64 · 65536)) .counterOverflow)
  reserve .data encoding 0 0
  let (response, outcomes) ← check (sealer.checkResponse relations)
  let relations ← check (orderRelations relations)
  update fun state => sealer.firstState state.objects outcomes processing
  match ← attempt (sealer.sealBody relations response) with
  | .ok package => return package
  | .error error => do
    let state ← read
    deleteAnyway sealer.pageBytes state.created.reverse
    throw error

end Sealer

end CodeFabric.Result
