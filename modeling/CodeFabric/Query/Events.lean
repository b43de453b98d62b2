import CodeFabric.Query.Operation

/-! # Control events and result retention

The control events of a query and the object sets they name (`fabric/query_coordinator.rs`): what
the coordinator validates before it keeps an event, and the three readings of an event list that
decide what a query still owns.

* **`publicationIntent`**, **`retainedLocator`**, **`cleanupObjectSet`**: the last intent, the
  last published result, and the last of either.
* Times are integers and `u64` counters natural numbers. The freshness and analysis context of
  `SnapshotPinned`, which no check reads, are left out. -/

namespace CodeFabric.Query

open List hiding Vector

open Fallible

/-! ## Hexadecimal text -/

def hexDigit (value : Nat) : Char := Nat.digitChar value

/-- The lowercase hexadecimal digits of bytes (`hex`). -/
def hex (bytes : List UInt8) : String :=
  String.ofList (bytes.flatMap fun byte => [hexDigit (byte.toNat / 16), hexDigit (byte.toNat % 16)])

/-- The value of a lowercase hexadecimal digit (`decode_nibble`). -/
def decodeNibble (digit : Char) : Option Nat :=
  if '0' ≤ digit ∧ digit ≤ '9' then some (digit.toNat - '0'.toNat)
  else if 'a' ≤ digit ∧ digit ≤ 'f' then some (digit.toNat - 'a'.toNat + 10)
  else none

def decodeHexDigits : List Char → Option (List UInt8)
  | [] => some []
  | high :: low :: rest => do
    let h ← decodeNibble high
    let l ← decodeNibble low
    let bytes ← decodeHexDigits rest
    return UInt8.ofNat (h * 16 + l) :: bytes
  | [_] => none

/-- Read lowercase hexadecimal text (`decode_hex`). -/
def decodeHex (text : String) : Option (List UInt8) := decodeHexDigits text.toList

/-- Read text of exactly `width` bytes (`decode_hex16`, `decode_hex32`). -/
def decodeHexArray (width : Nat) (text : String) : Option (Vector UInt8 width) := do
  let bytes ← decodeHex text
  if h : bytes.length = width then some ⟨bytes.toArray, by simpa using h⟩ else none

theorem decodeNibble_hexDigit {value : Nat} (h : value < 16) :
    decodeNibble (hexDigit value) = some value := by
  interval_cases value <;> rfl

theorem decodeHex_hex (bytes : List UInt8) : decodeHex (hex bytes) = some bytes := by
  rw [decodeHex, hex, String.toList_ofList]
  induction bytes with
  | nil => rfl
  | cons byte bytes ih =>
    have hh : byte.toNat / 16 < 16 := Nat.div_lt_of_lt_mul byte.toNat_lt
    have hlow : byte.toNat % 16 < 16 := Nat.mod_lt _ (by decide)
    have hb : byte.toNat / 16 * 16 + byte.toNat % 16 = byte.toNat := Nat.div_add_mod' _ _
    rw [flatMap_cons, cons_append, cons_append, nil_append, decodeHexDigits,
      decodeNibble_hexDigit hh, decodeNibble_hexDigit hlow, ih]
    show some (UInt8.ofNat (byte.toNat / 16 * 16 + byte.toNat % 16) :: bytes) = _
    rw [hb, UInt8.ofNat_toNat]

theorem decodeHexArray_hex {width : Nat} (bytes : Vector UInt8 width) :
    decodeHexArray width (hex bytes.toList) = some bytes := by
  have hlen : bytes.toList.length = width := bytes.length_toList
  rw [decodeHexArray, decodeHex_hex]
  show (if h : bytes.toList.length = width then some (Vector.mk _ _) else none) = _
  rw [dif_pos hlen]
  exact congrArg some (Vector.toArray_inj.1 (by simp [Vector.toList]))

theorem hex_injective {width : Nat} {left right : Vector UInt8 width}
    (h : hex left.toList = hex right.toList) : left = right := by
  have hl := decodeHexArray_hex left
  rw [h, decodeHexArray_hex right] at hl
  exact (Option.some.inj hl).symm

/-! ## Object sets -/

/-- The objects a seal may have left in storage, recorded before they are written
(`PendingResultObjectSet`). -/
structure PendingResultObjectSet where
  manifestObjectPath : String
  pageObjectPaths : List String
  epochId : String
  queryExecution : String
  deriving DecidableEq, Repr

/-- Where a published package is, and what reading it must find (`RetainedPackageLocator`). -/
structure RetainedPackageLocator where
  manifestObjectPath : String
  pageObjectPaths : List String
  epochId : String
  queryExecution : String
  leaseId : String
  leaseIssuedAtUnixMs : Int
  leaseExpiresAtUnixMs : Int
  expectedManifestChecksum : String
  expectedManifestByteLength : Nat
  packageId : String
  manifestResourceId : String
  deriving DecidableEq, Repr

def pendingObjectSetFromLocator (locator : RetainedPackageLocator) : PendingResultObjectSet :=
  ⟨locator.manifestObjectPath, locator.pageObjectPaths, locator.epochId, locator.queryExecution⟩

/-- What follows a prefix of a text (`str::strip_prefix`). -/
def stripStart (start text : List Char) : Option (List Char) :=
  if start.isPrefixOf text then some (text.drop start.length) else none

/-- The parts before and after the first occurrence of a character (`str::split_once`). -/
def splitOnce (separator : Char) (text : List Char) : Option (List Char × List Char) :=
  match text.dropWhile (· ≠ separator) with
  | [] => none
  | _ :: rest => some (text.takeWhile (· ≠ separator), rest)

/-- Whether a character is a hexadecimal digit of either case (`is_ascii_hexdigit`). -/
def isHexDigit (c : Char) : Bool :=
  c.isDigit || (decide ('a' ≤ c) && decide (c ≤ 'f')) || (decide ('A' ≤ c) && decide (c ≤ 'F'))

def packageRoot (epochId queryExecution : String) : String :=
  "packages/" ++ epochId ++ "/" ++ queryExecution

def manifestPath (epochId queryExecution : String) : String :=
  packageRoot epochId queryExecution ++ "/manifest.json"

def pageRoot (epochId queryExecution : String) : String :=
  packageRoot epochId queryExecution ++ "/pages/"

/-- A page file is a relation directory of hexadecimal digits and a 20-digit `.arrow` file. -/
def validPageFile (relative : List Char) : Bool :=
  match splitOnce '/' relative with
  | none => false
  | some (relationHex, pageFile) =>
    !relationHex.isEmpty && relationHex.length % 2 == 0 && relationHex.all isHexDigit &&
      pageFile.length == 26 && (pageFile.take 20).all Char.isDigit &&
      ".arrow".toList.isSuffixOf pageFile

/-- A page path is short ASCII text under the page directory of its package. -/
def validPagePath (epochId queryExecution page : String) : Bool :=
  isAscii page && decide (page.utf8ByteSize ≤ 1024) &&
    match stripStart (pageRoot epochId queryExecution).toList page.toList with
    | none => false
    | some relative => validPageFile relative

/-- The conditions of an object set, in the order they are checked. -/
def validPendingResultObjectSet (objectSet : PendingResultObjectSet) : Bool :=
  let pages := objectSet.pageObjectPaths
  decide (objectSet.manifestObjectPath = manifestPath objectSet.epochId objectSet.queryExecution) &&
    (decide (pages.length ≤ 4096) &&
      pages.all (validPagePath objectSet.epochId objectSet.queryExecution) &&
      decide pages.Nodup && !pages.any (· == objectSet.manifestObjectPath)) &&
    (decodeHexArray 16 objectSet.epochId).isSome &&
    (decodeHexArray 32 objectSet.queryExecution).isSome

/-- Validate an object set (`validate_pending_result_object_set`). -/
def validatePendingResultObjectSet (objectSet : PendingResultObjectSet) :
    Except CoordinatorError Unit :=
  ensure (validPendingResultObjectSet objectSet) .invalidRetainedPackageLocator

/-! ## Events -/

inductive QueryTerminalState
  | succeeded | failed | cancelled | lost
  deriving DecidableEq, Repr

/-- The control events of a query; response bytes are not among them. -/
inductive QueryControlEventPayload
  | snapshotPinned (epochId : String) (sourceGeneration activationHead lifecycleWatermark : Nat)
  | progress (stage : String) (completed : Nat) (outOf : Option Nat)
  | publicationPending (objectSet : PendingResultObjectSet)
  | resultReady (packageId manifestResourceId manifestChecksum : String)
      (totalRows totalPages totalBytes : Nat) (retainedLocator : RetainedPackageLocator)
  | terminal (state : QueryTerminalState) (publicCode : Option String)
  deriving DecidableEq, Repr

namespace QueryControlEventPayload

def isProgress : QueryControlEventPayload → Bool
  | progress .. => true
  | _ => false

def isTerminal : QueryControlEventPayload → Bool
  | terminal .. => true
  | _ => false

def isPublicationPending : QueryControlEventPayload → Bool
  | publicationPending _ => true
  | _ => false

end QueryControlEventPayload

structure QueryControlEvent where
  sequence : Nat
  emittedAtUnixMs : Int
  payload : QueryControlEventPayload
  deriving DecidableEq, Repr

/-- Whether a text is `b3:` and 32 bytes of lowercase hexadecimal. -/
def isBlake3 (text : String) : Bool :=
  match stripStart "b3:".toList text.toList with
  | none => false
  | some digest =>
    match decodeHexDigits digest with
    | none => false
    | some bytes => bytes.length == 32

variable (payload : QueryControlEventPayload) {events : List QueryControlEvent}

/-- Validate a published result against its own locator (`validate_result_ready_payload`); other
events pass. -/
def validateResultReadyPayload : Except CoordinatorError Unit :=
  match payload with
  | .resultReady packageId manifestResourceId manifestChecksum totalRows totalPages totalBytes
      locator => do
    validatePendingResultObjectSet (pendingObjectSetFromLocator locator)
    ensure (totalPages = locator.pageObjectPaths.length ∧
      (decodeHexArray 16 locator.leaseId).isSome ∧
      locator.leaseIssuedAtUnixMs < locator.leaseExpiresAtUnixMs ∧
      locator.expectedManifestByteLength ≠ 0 ∧
      isBlake3 locator.expectedManifestChecksum ∧ isBlake3 packageId ∧
      isBlake3 manifestResourceId ∧ isBlake3 manifestChecksum ∧
      locator.packageId = packageId ∧ locator.manifestResourceId = manifestResourceId ∧
      locator.expectedManifestChecksum = manifestChecksum ∧
      (totalPages = 0 ↔ totalBytes = 0) ∧ (totalPages = 0 → totalRows = 0))
      .invalidRetainedPackageLocator
  | _ => .ok ()

/-- Validate the object set of a publication checkpoint; other events pass. -/
def validatePublicationPending : Except CoordinatorError Unit :=
  match payload with
  | .publicationPending objectSet => validatePendingResultObjectSet objectSet
  | _ => .ok ()

/-- What both validators ask of an event, when it is appended and again when it is recovered. -/
def PayloadValid : Prop :=
  validateResultReadyPayload payload = .ok () ∧ validatePublicationPending payload = .ok ()

def lastEvent {α : Type} (find : QueryControlEventPayload → Option α)
    (events : List QueryControlEvent) : Option α :=
  events.reverse.findSome? fun event => find event.payload

def intentOf : QueryControlEventPayload → Option PendingResultObjectSet
  | .publicationPending objectSet => some objectSet
  | _ => none

def locatorOf : QueryControlEventPayload → Option RetainedPackageLocator
  | .resultReady _ _ _ _ _ _ locator => some locator
  | _ => none

def objectsOf : QueryControlEventPayload → Option PendingResultObjectSet
  | .resultReady _ _ _ _ _ _ locator => some (pendingObjectSetFromLocator locator)
  | .publicationPending objectSet => some objectSet
  | _ => none

def publicationIntent : List QueryControlEvent → Option PendingResultObjectSet :=
  lastEvent intentOf

def retainedLocator : List QueryControlEvent → Option RetainedPackageLocator :=
  lastEvent locatorOf

def cleanupObjectSet : List QueryControlEvent → Option PendingResultObjectSet :=
  lastEvent objectsOf

/-- The number of the next event (`next_sequence`). -/
def nextSequence (events : List QueryControlEvent) : Except CoordinatorError Nat :=
  match events.getLast? with
  | none => .ok 1
  | some event => okOr (checkedAdd 64 event.sequence 1) .counterOverflow

@[simp] theorem lastEvent_concat {α : Type} (find : QueryControlEventPayload → Option α)
    (events : List QueryControlEvent) (event : QueryControlEvent) :
    lastEvent find (events ++ [event]) = (find event.payload).or (lastEvent find events) := by
  rw [lastEvent, reverse_append, reverse_singleton, singleton_append, findSome?_cons, lastEvent]
  cases find event.payload <;> rfl

theorem lastEvent_isSome {α : Type} {find : QueryControlEventPayload → Option α} :
    (lastEvent find events).isSome ↔ ∃ event ∈ events, (find event.payload).isSome := by
  rw [lastEvent, findSome?_isSome_iff]
  simp

theorem cleanupObjectSet_isSome_of_locator
    (h : (retainedLocator events).isSome) : (cleanupObjectSet events).isSome := by
  obtain ⟨event, hev, hf⟩ := lastEvent_isSome.1 h
  refine lastEvent_isSome.2 ⟨event, hev, ?_⟩
  cases hpay : event.payload <;> simp_all [locatorOf, objectsOf]

/-! ## Retention -/

inductive QueryExecutionPhase
  | queued
  | running
  | terminal (state : QueryTerminalState)
  deriving DecidableEq, Repr

namespace QueryExecutionPhase

def isTerminal : QueryExecutionPhase → Bool
  | terminal _ => true
  | _ => false

end QueryExecutionPhase

/-- The durable ownership state of a query's result reservation and objects. -/
inductive ResultRetentionState
  | reserved
  | cleanupPending
  | released
  deriving DecidableEq, Repr

/-- The retention states that agree with the phase and the events of a query. -/
def RetentionValid (phase : QueryExecutionPhase) (retention : ResultRetentionState)
    (events : List QueryControlEvent) : Prop :=
  match retention with
  | .reserved => ¬phase.isTerminal ∨
      (phase = .terminal .succeeded ∧ (retainedLocator events).isSome)
  | .cleanupPending => phase.isTerminal ∧ (cleanupObjectSet events).isSome
  | .released => phase.isTerminal

/-- The retention of a query that ends without a result to keep. -/
def abandonedRetention (events : List QueryControlEvent) : ResultRetentionState :=
  if (cleanupObjectSet events).isSome then .cleanupPending else .released

theorem retentionValid_abandoned (state : QueryTerminalState) :
    RetentionValid (.terminal state) (abandonedRetention events) events := by
  unfold abandonedRetention
  split
  · rename_i ho
    exact ⟨rfl, ho⟩
  · exact rfl

end CodeFabric.Query
