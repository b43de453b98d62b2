import CodeFabric.Support.Reader
import CodeFabric.Support.SortedKeys

/-! # CBEF-v1 records

The canonical binary encoding of `identity.rs` on which every semantic identity rests: typed values
of any nesting, framed by type codes and big-endian lengths, with sets and maps ordered by the
encodings of their members.

**`CbefRecord.canon`** is the canonical form of a record: what its encoding stands for.

Unicode normalization comes from outside the repository and is a parameter. -/

namespace CodeFabric.Identity

open Fallible Reading SortedKeys

/-! ## Closed codes -/

inductive IdentityError
  | header
  | unknownDomain (code : UInt16)
  | unknownTypeCode (code : UInt8)
  | truncated
  | fieldOrder
  | containerOrder
  | scalar
  | trailingBytes
  | platform (code : UInt8)
  deriving DecidableEq, Repr

inductive IdentityDomain
  | workspace | repository | worktree | analysisContext | contextSet | sourceFile | owner | entity
  | relationFact | propertyFact | type | publication | servingSnapshot | resultArtifact
  | sourceContext | unknownRemainder | rootAuthorization | pathResult | objectiveInputSet
  | objectiveGroup | querySourceContext | accessScope | resultArtifactV2
  deriving DecidableEq, Repr

def IdentityDomain.code : IdentityDomain → UInt16
  | .workspace => 1
  | .repository => 2
  | .worktree => 3
  | .analysisContext => 4
  | .contextSet => 5
  | .sourceFile => 6
  | .owner => 7
  | .entity => 8
  | .relationFact => 9
  | .propertyFact => 10
  | .type => 11
  | .publication => 12
  | .servingSnapshot => 13
  | .resultArtifact => 14
  | .sourceContext => 15
  | .unknownRemainder => 16
  | .rootAuthorization => 17
  | .pathResult => 18
  | .objectiveInputSet => 19
  | .objectiveGroup => 20
  | .querySourceContext => 21
  | .accessScope => 22
  | .resultArtifactV2 => 23

/-- Decode the closed two-byte registry code. -/
def IdentityDomain.fromCode (code : UInt16) : Except IdentityError IdentityDomain :=
  match code with
  | 1 => .ok .workspace
  | 2 => .ok .repository
  | 3 => .ok .worktree
  | 4 => .ok .analysisContext
  | 5 => .ok .contextSet
  | 6 => .ok .sourceFile
  | 7 => .ok .owner
  | 8 => .ok .entity
  | 9 => .ok .relationFact
  | 10 => .ok .propertyFact
  | 11 => .ok .type
  | 12 => .ok .publication
  | 13 => .ok .servingSnapshot
  | 14 => .ok .resultArtifact
  | 15 => .ok .sourceContext
  | 16 => .ok .unknownRemainder
  | 17 => .ok .rootAuthorization
  | 18 => .ok .pathResult
  | 19 => .ok .objectiveInputSet
  | 20 => .ok .objectiveGroup
  | 21 => .ok .querySourceContext
  | 22 => .ok .accessScope
  | 23 => .ok .resultArtifactV2
  | code => .error (.unknownDomain code)

inductive CbefTypeCode
  | absent | bytes | utf8 | rawPath | unsigned | signed | boolean | id | digest | orderedList
  | set | map | taggedUnion
  deriving DecidableEq, Repr

def CbefTypeCode.code : CbefTypeCode → UInt8
  | .absent => 0
  | .bytes => 1
  | .utf8 => 2
  | .rawPath => 3
  | .unsigned => 4
  | .signed => 5
  | .boolean => 6
  | .id => 7
  | .digest => 8
  | .orderedList => 9
  | .set => 10
  | .map => 11
  | .taggedUnion => 12

def CbefTypeCode.fromCode (code : UInt8) : Except IdentityError CbefTypeCode :=
  match code with
  | 0 => .ok .absent
  | 1 => .ok .bytes
  | 2 => .ok .utf8
  | 3 => .ok .rawPath
  | 4 => .ok .unsigned
  | 5 => .ok .signed
  | 6 => .ok .boolean
  | 7 => .ok .id
  | 8 => .ok .digest
  | 9 => .ok .orderedList
  | 10 => .ok .set
  | 11 => .ok .map
  | 12 => .ok .taggedUnion
  | code => .error (.unknownTypeCode code)

@[simp] theorem IdentityDomain.fromCode_eq_ok {code : UInt16} {domain : IdentityDomain} :
    IdentityDomain.fromCode code = .ok domain ↔ code = domain.code := by
  constructor
  · intro h
    unfold IdentityDomain.fromCode at h
    split at h <;> cases h <;> rfl
  · rintro rfl
    cases domain <;> rfl

@[simp] theorem CbefTypeCode.fromCode_eq_ok {code : UInt8} {typeCode : CbefTypeCode} :
    CbefTypeCode.fromCode code = .ok typeCode ↔ code = typeCode.code := by
  constructor
  · intro h
    unfold CbefTypeCode.fromCode at h
    split at h <;> cases h <;> rfl
  · rintro rfl
    cases typeCode <;> rfl

/-! ## Values -/

inductive StringNormalization
  | none | nfc | nfkc | asciiLower | pythonIdentifierNfkc | rustCanonical
  deriving DecidableEq, Repr

/-- A typed value. Container members retain their own type codes. -/
inductive CbefValue
  | absent
  | bytes (bytes : List UInt8)
  | utf8 (value : String) (normalization : StringNormalization)
  | rawPath (platformCode : UInt8) (bytes : List UInt8)
  | unsigned (bytes : List UInt8)
  | signed (bytes : List UInt8)
  | boolean (value : Bool)
  | id (value : Vector UInt8 16)
  | digest (value : Vector UInt8 32)
  | orderedList (values : List CbefValue)
  | set (values : List CbefValue)
  | map (entries : List (CbefValue × CbefValue))
  | taggedUnion (variant : UInt16) (value : CbefValue)
  deriving Repr

def CbefValue.typeCode : CbefValue → CbefTypeCode
  | .absent => .absent
  | .bytes _ => .bytes
  | .utf8 .. => .utf8
  | .rawPath .. => .rawPath
  | .unsigned _ => .unsigned
  | .signed _ => .signed
  | .boolean _ => .boolean
  | .id _ => .id
  | .digest _ => .digest
  | .orderedList _ => .orderedList
  | .set _ => .set
  | .map _ => .map
  | .taggedUnion .. => .taggedUnion

structure CbefField where
  tag : UInt16
  value : CbefValue
  deriving Repr

structure CbefRecord where
  domain : IdentityDomain
  fields : List CbefField
  deriving Repr

/-! ## Text -/

structure Unicode where
  nfc : String → String
  nfkc : String → String

def utf8Bytes (text : String) : List UInt8 := text.toByteArray.data.toList

variable (bytes : List UInt8) (unicode : Unicode)

def fromUtf8 : Option String := String.fromUTF8? ⟨bytes.toArray⟩

@[simp] theorem fromUtf8_eq_some {bytes : List UInt8} {text : String} :
    fromUtf8 bytes = some text ↔ bytes = utf8Bytes text := by
  unfold fromUtf8 utf8Bytes String.fromUTF8?
  constructor
  · intro h
    split at h
    · cases h
      rfl
    · simp at h
  · rintro rfl
    rw [dif_pos text.isValidUTF8]
    rfl

@[simp] theorem utf8Bytes_inj {left right : String} :
    utf8Bytes left = utf8Bytes right ↔ left = right := by
  simp [utf8Bytes, ← ByteArray.ext_iff, String.toByteArray_inj]

def normalized (unicode : Unicode) (value : String) :
    StringNormalization → Except IdentityError String
  | .none | .rustCanonical => .ok value
  | .nfc => .ok (unicode.nfc value)
  | .nfkc | .pythonIdentifierNfkc => .ok (unicode.nfkc value)
  | .asciiLower =>
    if value.toList.all fun char => char.val < 128 then .ok (value.map Char.toLower)
    else .error .scalar

/-! ## Encoding -/

def putU16 (value : UInt16) : List UInt8 := BigEndian.encode 2 value.toNat

/-- A length as a 32-bit number, big-endian. -/
def putU32 (value : Nat) : Except IdentityError (List UInt8) := do
  ensure (value < 256 ^ 4) .scalar
  return BigEndian.encode 4 value

def putBlob : Except IdentityError (List UInt8) := do
  return (← putU32 bytes.length) ++ bytes

def frameTyped (typeCode : CbefTypeCode) (payload : List UInt8) :
    Except IdentityError (List UInt8) := do
  return typeCode.code :: (← putBlob payload)

def frameSequence (values : List (List UInt8)) (sorted : Bool) :
    Except IdentityError (List UInt8) := do
  let values := if sorted then dedupOn id (sortOn id values) else values
  let count ← putU32 values.length
  let members ← values.mapM putBlob
  return count ++ members.flatten

def frameMap (entries : List (List UInt8 × List UInt8)) : Except IdentityError (List UInt8) := do
  let entries := sortOn Prod.fst entries
  ensure ((entries.map Prod.fst).IsChain (· ≠ ·)) .containerOrder
  let count ← putU32 entries.length
  let members ← entries.mapM fun entry => do return (← putBlob entry.1) ++ (← putBlob entry.2)
  return count ++ members.flatten

def frameTaggedUnion (variant : UInt16) (encoded : List UInt8) :
    Except IdentityError (List UInt8) := do
  return putU16 variant ++ (← putBlob encoded)

def IsScalarWidth (width : Nat) : Prop :=
  width = 1 ∨ width = 2 ∨ width = 4 ∨ width = 8 ∨ width = 16
  deriving Decidable

def IsPlatform (code : UInt8) : Prop := code = 1 ∨ code = 2 ∨ code = 3
  deriving Decidable

def encodeScalar : Except IdentityError (List UInt8) := do
  ensure (IsScalarWidth bytes.length) .scalar
  return bytes

mutual

def encodePayload (unicode : Unicode) : CbefValue → Except IdentityError (List UInt8)
  | .absent => .ok []
  | .bytes bytes => .ok bytes
  | .utf8 value normalization => do return utf8Bytes (← normalized unicode value normalization)
  | .rawPath platformCode bytes => do
    ensure (IsPlatform platformCode) (.platform platformCode)
    return platformCode :: bytes
  | .unsigned bytes => encodeScalar bytes
  | .signed bytes => encodeScalar bytes
  | .boolean value => .ok [if value then 1 else 0]
  | .id value => .ok value.toList
  | .digest value => .ok value.toList
  | .orderedList values => do frameSequence (← encodeMembers unicode values) false
  | .set values => do frameSequence (← encodeMembers unicode values) true
  | .map entries => do frameMap (← encodeEntries unicode entries)
  | .taggedUnion variant value => do
    let payload ← encodePayload unicode value
    frameTaggedUnion variant (← frameTyped value.typeCode payload)

def encodeMembers (unicode : Unicode) : List CbefValue → Except IdentityError (List (List UInt8))
  | [] => .ok []
  | value :: values => do
    let payload ← encodePayload unicode value
    let encoded ← frameTyped value.typeCode payload
    return encoded :: (← encodeMembers unicode values)

def encodeEntries (unicode : Unicode) :
    List (CbefValue × CbefValue) → Except IdentityError (List (List UInt8 × List UInt8))
  | [] => .ok []
  | (key, value) :: entries => do
    let keyPayload ← encodePayload unicode key
    let encodedKey ← frameTyped key.typeCode keyPayload
    let valuePayload ← encodePayload unicode value
    let encodedValue ← frameTyped value.typeCode valuePayload
    return (encodedKey, encodedValue) :: (← encodeEntries unicode entries)

end

def encodeTyped (value : CbefValue) : Except IdentityError (List UInt8) := do
  frameTyped value.typeCode (← encodePayload unicode value)

/-- `CFID`. -/
def magic : List UInt8 := [0x43, 0x46, 0x49, 0x44]

def formatVersion : UInt8 := 1

def encodeField (field : CbefField) : Except IdentityError (List UInt8) := do
  let payload ← encodePayload unicode field.value
  return putU16 field.tag ++ (← frameTyped field.value.typeCode payload)

def encodeRecord (record : CbefRecord) : Except IdentityError (List UInt8) := do
  let tags := record.fields.map CbefField.tag
  ensure (tags.head? ≠ some 0 ∧ tags.IsChain (· < ·)) .fieldOrder
  ensure (record.fields.length < 256 ^ 2) .scalar
  let fields ← record.fields.mapM (encodeField unicode)
  return magic ++ [formatVersion] ++ putU16 record.domain.code ++
    BigEndian.encode 2 record.fields.length ++ fields.flatten

/-! ## Decoding

A decoder of nested values is a parameter of the decoders of containers; `decodeNested` ties the
knot with a bound on the nesting, and `decodeTyped` takes a bound that no input reaches. -/

def readU16 : Reader IdentityError UInt16 := do
  return UInt16.ofNat (← readUnsigned .truncated 2)

def readU32 : Reader IdentityError Nat := readUnsigned .truncated 4

def readBytes : Reader IdentityError (List UInt8) := readBlob .truncated 4

def readTypeCode : Reader IdentityError CbefTypeCode := do
  let code ← take .truncated 1
  let code ← check (okOr code.head? .truncated)
  check (CbefTypeCode.fromCode code)

section

variable (decodeTyped : List UInt8 → Except IdentityError CbefValue) (payload : List UInt8)

def readMember : Reader IdentityError (List UInt8) := do
  let item ← readBytes
  let _ ← check (decodeTyped item)
  return item

def decodeSequence (sorted : Bool) : Except IdentityError (List CbefValue) := do
  let encoded ← complete .trailingBytes (do repeated (readMember decodeTyped) (← readU32)) payload
  ensure (sorted → encoded.IsChain (· < ·)) .containerOrder
  encoded.mapM decodeTyped

def readEntries : Nat → Option (List UInt8) → Reader IdentityError (List (CbefValue × CbefValue))
  | 0, _ => return []
  | count + 1, previous => do
    let key ← readBytes
    check (ensure (∀ last ∈ previous, last < key) .containerOrder)
    let value ← readBytes
    let decodedKey ← check (decodeTyped key)
    let decodedValue ← check (decodeTyped value)
    let entries ← readEntries count (some key)
    return (decodedKey, decodedValue) :: entries

def decodeMap : Except IdentityError (List (CbefValue × CbefValue)) :=
  complete .trailingBytes (do readEntries decodeTyped (← readU32) none) payload

def decodeTaggedUnion : Except IdentityError CbefValue :=
  complete .trailingBytes (do
    let variant ← readU16
    let encoded ← readBytes
    return .taggedUnion variant (← check (decodeTyped encoded))) payload

def decodePayload (typeCode : CbefTypeCode) (payload : List UInt8) :
    Except IdentityError CbefValue :=
  match typeCode with
  | .absent => do
    ensure (payload = []) .scalar
    return .absent
  | .bytes => .ok (.bytes payload)
  | .utf8 => do return .utf8 (← okOr (fromUtf8 payload) .scalar) .none
  | .rawPath =>
    match payload with
    | [] => .error .scalar
    | platformCode :: bytes => do
      ensure (IsPlatform platformCode) (.platform platformCode)
      return .rawPath platformCode bytes
  | .unsigned => do
    ensure (IsScalarWidth payload.length) .scalar
    return .unsigned payload
  | .signed => do
    ensure (IsScalarWidth payload.length) .scalar
    return .signed payload
  | .boolean =>
    if payload = [0] then .ok (.boolean false)
    else if payload = [1] then .ok (.boolean true)
    else .error .scalar
  | .id =>
    if h : payload.length = 16 then .ok (.id ⟨payload.toArray, by simpa using h⟩)
    else .error .scalar
  | .digest =>
    if h : payload.length = 32 then .ok (.digest ⟨payload.toArray, by simpa using h⟩)
    else .error .scalar
  | .orderedList => do return .orderedList (← decodeSequence decodeTyped payload false)
  | .set => do return .set (← decodeSequence decodeTyped payload true)
  | .map => do return .map (← decodeMap decodeTyped payload)
  | .taggedUnion => decodeTaggedUnion decodeTyped payload

def decodeFramed (bytes : List UInt8) : Except IdentityError CbefValue := do
  let (typeCode, payload) ← complete .trailingBytes (do
    let typeCode ← readTypeCode
    let payload ← readBytes
    return (typeCode, payload)) bytes
  decodePayload decodeTyped typeCode payload

end

/-- Decode a typed value nested at most so deep. -/
def decodeNested : Nat → List UInt8 → Except IdentityError CbefValue
  | 0 => fun _ => .error .truncated
  | depth + 1 => decodeFramed (decodeNested depth)

/-- Decode one typed value. Every level of nesting takes bytes, so the bound is never reached. -/
def decodeTyped (bytes : List UInt8) : Except IdentityError CbefValue :=
  decodeNested (bytes.length + 1) bytes

def readFields : Nat → UInt16 → Reader IdentityError (List CbefField)
  | 0, _ => return []
  | count + 1, previous => do
    let tag ← readU16
    check (ensure (previous < tag) .fieldOrder)
    let typeCode ← readTypeCode
    let payload ← readBytes
    let value ← check (decodePayload decodeTyped typeCode payload)
    let fields ← readFields count tag
    return ⟨tag, value⟩ :: fields

/-- Decode one complete record and reject all noncanonical framing. -/
def decodeRecord (bytes : List UInt8) : Except IdentityError CbefRecord :=
  complete .trailingBytes (do
    let start ← take .truncated 4
    check (ensure (start = magic) .header)
    let version ← take .truncated 1
    check (ensure (version = [formatVersion]) .header)
    let code ← readU16
    let domain ← check (IdentityDomain.fromCode code)
    let count ← readU16
    let fields ← readFields count.toNat 0
    return ⟨domain, fields⟩) bytes

/-! ## Canonical forms -/

def encoded (unicode : Unicode) (value : CbefValue) : List UInt8 :=
  match encodeTyped unicode value with
  | .ok bytes => bytes
  | .error _ => []

def canonText (unicode : Unicode) (value : String) (normalization : StringNormalization) :
    CbefValue :=
  match normalized unicode value normalization with
  | .ok text => .utf8 text .none
  | .error _ => .utf8 value normalization

mutual

/-- The canonical form of a value: normalized texts, sets sorted and deduplicated by encoded
bytes, maps sorted by encoded key. -/
def CbefValue.canon (unicode : Unicode) : CbefValue → CbefValue
  | .absent => .absent
  | .bytes bytes => .bytes bytes
  | .utf8 value normalization => canonText unicode value normalization
  | .rawPath platformCode bytes => .rawPath platformCode bytes
  | .unsigned bytes => .unsigned bytes
  | .signed bytes => .signed bytes
  | .boolean value => .boolean value
  | .id value => .id value
  | .digest value => .digest value
  | .orderedList values => .orderedList (canonMembers unicode values)
  | .set values =>
    .set (dedupOn (encoded unicode) (sortOn (encoded unicode) (canonMembers unicode values)))
  | .map entries =>
    .map (sortOn (fun entry => encoded unicode entry.1) (canonEntries unicode entries))
  | .taggedUnion variant value => .taggedUnion variant (value.canon unicode)

def canonMembers (unicode : Unicode) : List CbefValue → List CbefValue
  | [] => []
  | value :: values => value.canon unicode :: canonMembers unicode values

def canonEntries (unicode : Unicode) : List (CbefValue × CbefValue) → List (CbefValue × CbefValue)
  | [] => []
  | (key, value) :: entries =>
    (key.canon unicode, value.canon unicode) :: canonEntries unicode entries

end

def CbefRecord.canon (unicode : Unicode) (record : CbefRecord) : CbefRecord :=
  { record with fields := record.fields.map fun field =>
      { field with value := field.value.canon unicode } }

end CodeFabric.Identity
