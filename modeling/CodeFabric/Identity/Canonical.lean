import CodeFabric.Identity.Cbef

/-! # The CBEF decoder accepts exactly the canonical encodings

One statement carries both directions of the codec: a byte string decodes to a value exactly when
the value is canonical and the byte string is its encoding (`decodeTyped_iff`, `decodeRecord_iff`).
It is proved by induction on the bound of `decodeNested`, so that no induction over decoded values
is needed: the members of a container are shorter than the container. -/

namespace CodeFabric.Identity

open List hiding Vector

open Fallible Reading SortedKeys

variable {unicode : Unicode} {code : List UInt8}

/-! ## What a successful encoding says -/

@[simp] theorem putU32_eq_ok {value : Nat} :
    putU32 value = .ok code ↔ value < 256 ^ 4 ∧ code = BigEndian.encode 4 value := by
  simp only [putU32, ok_iff]
  constructor
  · rintro ⟨_, hf, h⟩
    exact ⟨hf, h.symm⟩
  · rintro ⟨hf, h⟩
    exact ⟨(), hf, h.symm⟩

variable {bytes : List UInt8} {typeCode : CbefTypeCode} {payload : List UInt8} {value : CbefValue}
  {values : List CbefValue} {entries : List (CbefValue × CbefValue)}

@[simp] theorem putBlob_eq_ok :
    putBlob bytes = .ok code ↔ bytes.length < 256 ^ 4 ∧ code = blob 4 bytes := by
  simp only [putBlob, ok_iff, putU32_eq_ok, blob]
  constructor
  · rintro ⟨_, ⟨hf, rfl⟩, rfl⟩
    exact ⟨hf, rfl⟩
  · rintro ⟨hf, rfl⟩
    exact ⟨_, ⟨hf, rfl⟩, rfl⟩

def framed (typeCode : CbefTypeCode) (payload : List UInt8) : List UInt8 :=
  typeCode.code :: blob 4 payload

@[simp] theorem frameTyped_eq_ok : frameTyped typeCode payload = .ok code ↔
    payload.length < 256 ^ 4 ∧ code = framed typeCode payload := by
  simp only [frameTyped, ok_iff, putBlob_eq_ok, framed]
  constructor
  · rintro ⟨_, ⟨hf, rfl⟩, rfl⟩
    exact ⟨hf, rfl⟩
  · rintro ⟨hf, rfl⟩
    exact ⟨_, ⟨hf, rfl⟩, rfl⟩

/-- What a container frames: a count and items, each of them and their number within 32 bits. -/
structure Frames {α : Type} (write : α → List UInt8) (fits : α → Prop) (items : List α)
    (payload : List UInt8) : Prop where
  count_lt : items.length < 256 ^ 4
  fits : ∀ item ∈ items, fits item
  payload_eq : payload = BigEndian.encode 4 items.length ++ items.flatMap write

abbrev FramesItems := Frames (blob 4) fun item : List UInt8 => item.length < 256 ^ 4

abbrev FramesEntries :=
  Frames (fun entry : List UInt8 × List UInt8 => blob 4 entry.1 ++ blob 4 entry.2)
  fun entry => entry.1.length < 256 ^ 4 ∧ entry.2.length < 256 ^ 4

theorem frameSequence_eq_ok {values : List (List UInt8)} {sorted : Bool} :
    frameSequence values sorted = .ok payload ↔
      FramesItems (if sorted then dedupOn id (sortOn id values) else values) payload := by
  simp only [frameSequence, ok_iff, putU32_eq_ok, mapM_eq_ok_of fun _ _ => putBlob_eq_ok]
  constructor
  · rintro ⟨_, ⟨hc, rfl⟩, _, ⟨hf, rfl⟩, rfl⟩
    exact ⟨hc, hf, by rw [flatMap_def]⟩
  · rintro ⟨hc, hf, rfl⟩
    exact ⟨_, ⟨hc, rfl⟩, _, ⟨hf, rfl⟩, by rw [flatMap_def]⟩

theorem frameMap_eq_ok {entries : List (List UInt8 × List UInt8)} : frameMap entries = .ok payload ↔
    ((sortOn Prod.fst entries).map Prod.fst).IsChain (· ≠ ·) ∧
      FramesEntries (sortOn Prod.fst entries) payload := by
  have he : ∀ (entry : List UInt8 × List UInt8) (code : List UInt8),
      (do return (← putBlob entry.1) ++ (← putBlob entry.2) : Except IdentityError _) = .ok code ↔
        (entry.1.length < 256 ^ 4 ∧ entry.2.length < 256 ^ 4) ∧
          code = blob 4 entry.1 ++ blob 4 entry.2 := by
    intro entry code
    simp only [ok_iff, putBlob_eq_ok]
    constructor
    · rintro ⟨_, ⟨hkey, rfl⟩, _, ⟨hval, rfl⟩, rfl⟩
      exact ⟨⟨hkey, hval⟩, rfl⟩
    · rintro ⟨⟨hkey, hval⟩, rfl⟩
      exact ⟨_, ⟨hkey, rfl⟩, _, ⟨hval, rfl⟩, rfl⟩
  simp only [frameMap, ok_iff, putU32_eq_ok, mapM_eq_ok_of he]
  constructor
  · rintro ⟨-, hd, _, ⟨hc, rfl⟩, _, ⟨hf, rfl⟩, rfl⟩
    exact ⟨hd, hc, hf, by rw [flatMap_def]⟩
  · rintro ⟨hd, hc, hf, rfl⟩
    exact ⟨(), hd, _, ⟨hc, rfl⟩, _, ⟨hf, rfl⟩, by rw [flatMap_def]⟩

theorem encodeMembers_eq (values : List CbefValue) :
    encodeMembers unicode values = values.mapM (encodeTyped unicode) := by
  induction values with
  | nil => rfl
  | cons _ values ih =>
    rw [encodeMembers, mapM_cons, ih, encodeTyped, bind_assoc]

theorem encodeEntries_eq (entries : List (CbefValue × CbefValue)) :
    encodeEntries unicode entries = entries.mapM fun entry => do
      return (← encodeTyped unicode entry.1, ← encodeTyped unicode entry.2) := by
  induction entries with
  | nil => rfl
  | cons entry entries ih =>
    obtain ⟨_⟩ := entry
    rw [encodeEntries, mapM_cons, ih]
    simp only [encodeTyped, bind_assoc, pure_bind]

@[simp] theorem encodeTyped_eq_ok : encodeTyped unicode value = .ok bytes ↔
    ∃ payload, encodePayload unicode value = .ok payload ∧ payload.length < 256 ^ 4 ∧
      bytes = framed value.typeCode payload := by
  simp [encodeTyped]

@[simp] theorem encodeScalar_eq_ok :
    encodeScalar bytes = .ok code ↔ IsScalarWidth bytes.length ∧ bytes = code := by
  simp only [encodeScalar, ok_iff]
  exact exists_const _

theorem encodePayload_rawPath_eq_ok {platformCode : UInt8} :
    encodePayload unicode (.rawPath platformCode bytes) = .ok code ↔
      IsPlatform platformCode ∧ platformCode :: bytes = code := by
  simp only [encodePayload, ok_iff]
  exact exists_const _

theorem encodePayload_taggedUnion_eq_ok {variant : UInt16} :
    encodePayload unicode (.taggedUnion variant value) = .ok code ↔
      ∃ encoded, encodeTyped unicode value = .ok encoded ∧ encoded.length < 256 ^ 4 ∧
        code = putU16 variant ++ blob 4 encoded := by
  have ht : encodePayload unicode (.taggedUnion variant value) =
      encodeTyped unicode value >>= frameTaggedUnion variant := by
    rw [encodePayload, encodeTyped, bind_assoc]
  rw [ht]
  simp only [frameTaggedUnion, ok_iff, putBlob_eq_ok]
  constructor
  · rintro ⟨encoded, henc, _, ⟨hf, rfl⟩, rfl⟩
    exact ⟨encoded, henc, hf, rfl⟩
  · rintro ⟨encoded, henc, hf, rfl⟩
    exact ⟨encoded, henc, _, ⟨hf, rfl⟩, rfl⟩

/-! ## What a successful decoding says -/

variable {bytes rest : List UInt8} {items : List (List UInt8 × List UInt8)} {record : CbefRecord}

@[simp] theorem run_readU16_iff {value : UInt16} :
    readU16.run bytes = .ok (value, rest) ↔ bytes = putU16 value ++ rest := by
  simp only [readU16, run_bind_iff, run_readUnsigned_iff, run_pure_iff, putU16]
  constructor
  · rintro ⟨n, _, ⟨hf, rfl⟩, rfl, rfl⟩
    have hf : n < 2 ^ 16 := hf
    rw [UInt16.toNat_ofNat', Nat.mod_eq_of_lt hf]
  · rintro rfl
    exact ⟨value.toNat, rest, ⟨value.toNat_lt, rfl⟩, UInt16.ofNat_toNat, rfl⟩

@[simp] theorem run_readU32_iff {value : Nat} : readU32.run bytes = .ok (value, rest) ↔
    value < 256 ^ 4 ∧ bytes = BigEndian.encode 4 value ++ rest :=
  run_readUnsigned_iff

@[simp] theorem run_readBytes_iff {value : List UInt8} : readBytes.run bytes = .ok (value, rest) ↔
    value.length < 256 ^ 4 ∧ bytes = blob 4 value ++ rest :=
  run_readBlob_iff

@[simp] theorem run_readTypeCode_iff :
    readTypeCode.run bytes = .ok (typeCode, rest) ↔ bytes = typeCode.code :: rest := by
  simp only [readTypeCode, run_bind_iff, run_take_iff, run_check_iff, okOr_eq_ok,
    CbefTypeCode.fromCode_eq_ok]
  constructor
  · rintro ⟨_, _, ⟨hlen, rfl⟩, _, _, ⟨hh, rfl⟩, rfl, rfl⟩
    obtain ⟨_, rfl⟩ := List.length_eq_one_iff.1 hlen
    cases hh
    rfl
  · rintro rfl
    exact ⟨[typeCode.code], rest, ⟨rfl, rfl⟩, _, rest, ⟨rfl, rfl⟩, rfl, rfl⟩

section

variable {decode : List UInt8 → Except IdentityError CbefValue}

theorem inverts_readMember : Inverts (readMember decode)
    (fun item => item.length < 256 ^ 4 ∧ ∃ value, decode item = .ok value) (blob 4) := by
  intro _ item rest
  simp only [readMember, run_bind_iff, run_readBytes_iff, run_check_iff, run_pure_iff]
  constructor
  · rintro ⟨_, _, ⟨hf, rfl⟩, value, _, ⟨hval, rfl⟩, rfl, rfl⟩
    exact ⟨⟨hf, value, hval⟩, rfl⟩
  · rintro ⟨⟨hf, value, hval⟩, rfl⟩
    exact ⟨item, rest, ⟨hf, rfl⟩, value, rest, ⟨hval, rfl⟩, rfl, rfl⟩

theorem decodeSequence_eq_ok {sorted : Bool} : decodeSequence decode payload sorted = .ok values ↔
    ∃ items, FramesItems items payload ∧ (sorted → items.Pairwise (· < ·)) ∧
      items.mapM decode = .ok values := by
  simp only [decodeSequence, ok_iff, complete_eq_ok, run_bind_iff, run_readU32_iff,
    run_repeated_iff inverts_readMember, isChain_iff_pairwise, append_nil]
  constructor
  · rintro ⟨items, ⟨_, _, ⟨hc, rfl⟩, rfl, hf, rfl⟩, -, hs, hvs⟩
    exact ⟨items, ⟨hc, fun item hi => (hf item hi).1, rfl⟩, hs, hvs⟩
  · rintro ⟨items, ⟨hc, hf, rfl⟩, hs, hvs⟩
    refine ⟨items, ⟨_, _, ⟨hc, rfl⟩, rfl, fun item hi => ?_, rfl⟩, (), hs, hvs⟩
    obtain ⟨value, -, hval⟩ := exists_of_mapM_eq_ok hvs hi
    exact ⟨hf item hi, value, hval⟩

def decodeEntry (decode : List UInt8 → Except IdentityError CbefValue)
    (entry : List UInt8 × List UInt8) : Except IdentityError (CbefValue × CbefValue) := do
  return (← decode entry.1, ← decode entry.2)

theorem run_readEntries_iff {count : Nat} {previous : Option (List UInt8)} :
    (readEntries decode count previous).run bytes = .ok (entries, rest) ↔
      ∃ items : List (List UInt8 × List UInt8), items.length = count ∧
        (∀ item ∈ items, item.1.length < 256 ^ 4 ∧ item.2.length < 256 ^ 4) ∧
        bytes = (items.flatMap fun item => blob 4 item.1 ++ blob 4 item.2) ++ rest ∧
        (previous.toList ++ items.map Prod.fst).IsChain (· < ·) ∧
        items.mapM (decodeEntry decode) = .ok entries := by
  induction count generalizing bytes rest previous entries with
  | zero =>
    rw [readEntries, run_pure_iff]
    constructor
    · rintro ⟨rfl, rfl⟩
      refine ⟨[], rfl, by simp, by simp, ?_, rfl⟩
      cases previous <;> simp
    · rintro ⟨items, hcn, -, rfl, -, he⟩
      obtain rfl := List.length_eq_zero_iff.1 hcn
      exact ⟨by simpa using he, by simp⟩
  | succ count ih =>
    -- the key of the first entry is the bound for the rest
    have hch : ∀ (key : List UInt8) (keys : List (List UInt8)),
        (previous.toList ++ key :: keys).IsChain (· < ·) ↔
          (∀ last ∈ previous, last < key) ∧ (key :: keys).IsChain (· < ·) := by
      intro key keys
      cases previous <;> simp
    simp only [readEntries, run_bind_iff, run_readBytes_iff, run_check_iff, ensure_eq_ok,
      run_pure_iff, ih]
    constructor
    · rintro ⟨key, _, ⟨hkey, rfl⟩, _, _, ⟨hl, rfl⟩, value, _, ⟨hval, rfl⟩, decodedKey, _,
        ⟨hdecodedKey, rfl⟩, decodedValue, _, ⟨hdecodedValue, rfl⟩, tail, _,
        ⟨items, rfl, hf, rfl, hky, ht⟩, rfl, rfl⟩
      refine ⟨(key, value) :: items, rfl, List.forall_mem_cons.2 ⟨⟨hkey, hval⟩, hf⟩,
        by simp, (hch _ _).2 ⟨hl, hky⟩, ?_⟩
      rw [mapM_cons, ht, decodeEntry, hdecodedKey, hdecodedValue]
      rfl
    · rintro ⟨items, hcn, hf, rfl, hky, he⟩
      obtain ⟨⟨key, value⟩, items, rfl⟩ := exists_cons_of_length_eq_add_one hcn
      obtain ⟨⟨hkey, hval⟩, hf⟩ := List.forall_mem_cons.1 hf
      obtain ⟨hl, hky⟩ := (hch _ _).1 hky
      simp only [mapM_cons, decodeEntry, ok_iff] at he
      obtain ⟨_, ⟨decodedKey, hdecodedKey, decodedValue, hdecodedValue, rfl⟩, tail, ht, rfl⟩ :=
        he
      refine ⟨key, _, ⟨hkey, ?_⟩, (), _, ⟨hl, rfl⟩, value, _, ⟨hval, rfl⟩, decodedKey, _,
        ⟨hdecodedKey, rfl⟩, decodedValue, _, ⟨hdecodedValue, rfl⟩, tail, rest,
        ⟨items, by simpa using hcn, hf, rfl, hky, ht⟩, rfl, rfl⟩
      simp

theorem decodeMap_eq_ok : decodeMap decode payload = .ok entries ↔
    ∃ items, FramesEntries items payload ∧ (items.map Prod.fst).Pairwise (· < ·) ∧
      items.mapM (decodeEntry decode) = .ok entries := by
  simp only [decodeMap, complete_eq_ok, run_bind_iff, run_readU32_iff, run_readEntries_iff,
    Option.toList_none, nil_append, isChain_iff_pairwise, append_nil]
  constructor
  · rintro ⟨_, _, ⟨hc, rfl⟩, items, rfl, hf, rfl, hk, he⟩
    exact ⟨items, ⟨hc, hf, rfl⟩, hk, he⟩
  · rintro ⟨items, ⟨hc, hf, rfl⟩, hk, he⟩
    exact ⟨_, _, ⟨hc, rfl⟩, items, rfl, hf, rfl, hk, he⟩

theorem decodeFramed_eq_ok : decodeFramed decode bytes = .ok value ↔
    ∃ typeCode payload, payload.length < 256 ^ 4 ∧ bytes = framed typeCode payload ∧
      decodePayload decode typeCode payload = .ok value := by
  simp only [decodeFramed, bind_eq_ok, complete_eq_ok, run_bind_iff, run_readTypeCode_iff,
    run_readBytes_iff, run_pure_iff, framed]
  constructor
  · rintro ⟨_, ⟨typeCode, _, rfl, payload, _, ⟨hf, rfl⟩, rfl, rfl⟩, hval⟩
    exact ⟨typeCode, payload, hf, by simp, hval⟩
  · rintro ⟨typeCode, payload, hf, rfl, hval⟩
    exact ⟨(typeCode, payload), ⟨typeCode, _, rfl, payload, [], ⟨hf, by simp⟩, rfl, rfl⟩, hval⟩

theorem decodeTaggedUnion_eq_ok : decodeTaggedUnion decode payload = .ok value ↔
    ∃ variant encoded member, encoded.length < 256 ^ 4 ∧
      payload = putU16 variant ++ blob 4 encoded ∧ decode encoded = .ok member ∧
      value = .taggedUnion variant member := by
  simp only [decodeTaggedUnion, complete_eq_ok, run_bind_iff, run_readU16_iff, run_readBytes_iff,
    run_check_iff, run_pure_iff]
  constructor
  · rintro ⟨variant, _, rfl, encoded, _, ⟨hf, rfl⟩, member, _, ⟨hmb, rfl⟩, rfl, rfl⟩
    exact ⟨variant, encoded, member, hf, by simp, hmb, rfl⟩
  · rintro ⟨variant, encoded, member, hf, rfl, hmb, rfl⟩
    exact ⟨variant, _, rfl, encoded, [], ⟨hf, by simp⟩, member, [], ⟨hmb, rfl⟩, rfl, rfl⟩

end

/-! ## Canonical values -/

/-- Values in canonical form: texts carry no pending normalization, sets and maps are strictly
ordered by the encodings of their members and keys. -/
inductive CbefValue.Canonical (unicode : Unicode) : CbefValue → Prop
  | absent : Canonical unicode .absent
  | bytes (bytes : List UInt8) : Canonical unicode (.bytes bytes)
  | utf8 (value : String) : Canonical unicode (.utf8 value .none)
  | rawPath (platformCode : UInt8) (bytes : List UInt8) :
      Canonical unicode (.rawPath platformCode bytes)
  | unsigned (bytes : List UInt8) : Canonical unicode (.unsigned bytes)
  | signed (bytes : List UInt8) : Canonical unicode (.signed bytes)
  | boolean (value : Bool) : Canonical unicode (.boolean value)
  | id (value : Vector UInt8 16) : Canonical unicode (.id value)
  | digest (value : Vector UInt8 32) : Canonical unicode (.digest value)
  | orderedList {values : List CbefValue} (members : ∀ value ∈ values, Canonical unicode value) :
      Canonical unicode (.orderedList values)
  | set {values : List CbefValue} (members : ∀ value ∈ values, Canonical unicode value)
      (strict : (values.map (encoded unicode)).Pairwise (· < ·)) : Canonical unicode (.set values)
  | map {entries : List (CbefValue × CbefValue)}
      (keys : ∀ entry ∈ entries, Canonical unicode entry.1)
      (values : ∀ entry ∈ entries, Canonical unicode entry.2)
      (strict : (entries.map fun entry => encoded unicode entry.1).Pairwise (· < ·)) :
      Canonical unicode (.map entries)
  | taggedUnion (variant : UInt16) {value : CbefValue} (member : Canonical unicode value) :
      Canonical unicode (.taggedUnion variant value)

theorem encoded_of_eq_ok (h : encodeTyped unicode value = .ok bytes) :
    encoded unicode value = bytes := by
  rw [encoded, h]

theorem map_encoded_of_eq_ok {items : List (List UInt8)}
    (h : values.mapM (encodeTyped unicode) = .ok items) : values.map (encoded unicode) = items := by
  have hf := mapM_eq_ok.1 h
  induction hf with
  | nil => rfl
  | cons hh ht ih =>
    rw [map_cons, encoded_of_eq_ok hh, ih (mapM_eq_ok.2 ht)]

def encodeEntry (unicode : Unicode) (entry : CbefValue × CbefValue) :
    Except IdentityError (List UInt8 × List UInt8) := do
  return (← encodeTyped unicode entry.1, ← encodeTyped unicode entry.2)

def encodedEntry (unicode : Unicode) (entry : CbefValue × CbefValue) : List UInt8 × List UInt8 :=
  (encoded unicode entry.1, encoded unicode entry.2)

theorem encodeEntry_eq_ok {entry : CbefValue × CbefValue} {item : List UInt8 × List UInt8}
    (h : encodeEntry unicode entry = .ok item) : item = encodedEntry unicode entry := by
  simp only [encodeEntry, ok_iff] at h
  obtain ⟨_, hkey, _, hval, rfl⟩ := h
  rw [encodedEntry, encoded_of_eq_ok hkey, encoded_of_eq_ok hval]

theorem eq_map_of_encodeEntry (h : entries.mapM (encodeEntry unicode) = .ok items) :
    items = entries.map (encodedEntry unicode) := by
  have hf := mapM_eq_ok.1 h
  induction hf with
  | nil => rfl
  | cons hh ht ih => rw [map_cons, ← encodeEntry_eq_ok hh, ← ih (mapM_eq_ok.2 ht)]

theorem map_encodedKey_of_eq_ok (h : entries.mapM (encodeEntry unicode) = .ok items) :
    entries.map (fun entry => encoded unicode entry.1) = items.map Prod.fst := by
  rw [eq_map_of_encodeEntry h, map_map]
  rfl

theorem Frames.length_lt {α : Type} {write : α → List UInt8} {fits : α → Prop} {items : List α}
    (h : Frames write fits items payload) {item : α} (hi : item ∈ items) :
    (write item).length < payload.length := by
  obtain ⟨_, _, rfl⟩ := append_of_mem hi
  rw [h.payload_eq]
  simp
  omega

theorem dedupOn_sortOn_of_strict {items : List (List UInt8)} (h : items.Pairwise (· < ·)) :
    dedupOn id (sortOn id items) = items := by
  have hid : (items.map id).Pairwise (· < ·) := by rwa [map_id]
  rw [sortOn_of_strict hid, dedupOn_of_strict hid]

theorem length_le_blob (bytes : List UInt8) : bytes.length ≤ (blob 4 bytes).length := by
  simp [blob]

theorem length_lt_taggedUnion (variant : UInt16) (encoded : List UInt8) :
    encoded.length < (putU16 variant ++ blob 4 encoded).length := by
  simp only [putU16, blob, length_append, BigEndian.length_encode]
  omega

/-! ## The decoder inverts the encoder on canonical values -/

section

variable {decode : List UInt8 → Except IdentityError CbefValue}
  (hdc : ∀ item value, item.length < payload.length →
    (decode item = .ok value ↔ value.Canonical unicode ∧ encodeTyped unicode value = .ok item))
include hdc

theorem mapM_decode_iff {items : List (List UInt8)} (hfr : FramesItems items payload) :
    items.mapM decode = .ok values ↔ (∀ value ∈ values, value.Canonical unicode) ∧
        values.mapM (encodeTyped unicode) = .ok items := by
  refine mapM_inverse fun item hi value => hdc item value ?_
  exact (length_le_blob item).trans_lt (hfr.length_lt hi)

theorem mapM_decodeEntry_iff {items : List (List UInt8 × List UInt8)}
    (hfr : FramesEntries items payload) : items.mapM (decodeEntry decode) = .ok entries ↔
      (∀ entry ∈ entries, entry.1.Canonical unicode ∧ entry.2.Canonical unicode) ∧
        entries.mapM (encodeEntry unicode) = .ok items := by
  refine mapM_inverse fun item hi entry => ?_
  have hlen := hfr.length_lt hi
  rw [length_append] at hlen
  have hkey := (length_le_blob item.1).trans_lt (Nat.lt_of_add_right_lt hlen)
  have hval := (length_le_blob item.2).trans_lt (Nat.lt_of_add_left_lt hlen)
  obtain ⟨key, value⟩ := entry
  obtain ⟨encodedKey, encodedValue⟩ := item
  simp only [decodeEntry, encodeEntry, ok_iff, hdc _ _ hkey, hdc _ _ hval, Prod.mk.injEq]
  constructor
  · rintro ⟨_, ⟨hck, hek⟩, _, ⟨hcv, hev⟩, rfl, rfl⟩
    exact ⟨⟨hck, hcv⟩, encodedKey, hek, encodedValue, hev, rfl, rfl⟩
  · rintro ⟨⟨hck, hcv⟩, _, hek, _, hev, rfl, rfl⟩
    exact ⟨key, ⟨hck, hek⟩, value, ⟨hcv, hev⟩, rfl, rfl⟩

theorem decodeSequence_list_iff : decodeSequence decode payload false = .ok values ↔
    (CbefValue.orderedList values).Canonical unicode ∧
      encodePayload unicode (.orderedList values) = .ok payload := by
  simp only [decodeSequence_eq_ok, encodePayload, encodeMembers_eq, bind_eq_ok,
    frameSequence_eq_ok, Bool.false_eq_true, false_implies, true_and, if_false]
  constructor
  · rintro ⟨items, hfr, hvs⟩
    obtain ⟨hm, henc⟩ := (mapM_decode_iff hdc hfr).1 hvs
    exact ⟨.orderedList hm, items, henc, hfr⟩
  · rintro ⟨hcan, items, henc, hfr⟩
    cases hcan with
    | orderedList hm =>
      exact ⟨items, hfr, (mapM_decode_iff hdc hfr).2 ⟨hm, henc⟩⟩

theorem decodeSequence_set_iff : decodeSequence decode payload true = .ok values ↔
    (CbefValue.set values).Canonical unicode ∧
      encodePayload unicode (.set values) = .ok payload := by
  simp only [decodeSequence_eq_ok, encodePayload, encodeMembers_eq, bind_eq_ok,
    frameSequence_eq_ok, true_implies, if_true]
  constructor
  · rintro ⟨items, hfr, hstr, hvs⟩
    obtain ⟨hm, henc⟩ := (mapM_decode_iff hdc hfr).1 hvs
    refine ⟨.set hm ?_, items, henc, ?_⟩
    · rwa [map_encoded_of_eq_ok henc]
    · rwa [dedupOn_sortOn_of_strict hstr]
  · rintro ⟨hcan, items, henc, hfr⟩
    cases hcan with
    | set hm hstr =>
      rw [map_encoded_of_eq_ok henc] at hstr
      rw [dedupOn_sortOn_of_strict hstr] at hfr
      exact ⟨items, hfr, hstr, (mapM_decode_iff hdc hfr).2 ⟨hm, henc⟩⟩

theorem decodeMap_iff : decodeMap decode payload = .ok entries ↔
    (CbefValue.map entries).Canonical unicode ∧
      encodePayload unicode (.map entries) = .ok payload := by
  have hen : encodeEntries unicode entries = entries.mapM (encodeEntry unicode) :=
    encodeEntries_eq entries
  simp only [decodeMap_eq_ok, encodePayload, hen, bind_eq_ok, frameMap_eq_ok]
  constructor
  · rintro ⟨items, hfr, hstr, hents⟩
    obtain ⟨hm, henc⟩ := (mapM_decodeEntry_iff hdc hfr).1 hents
    refine ⟨.map (fun entry h => (hm entry h).1) (fun entry h => (hm entry h).2) ?_,
      items, henc, ?_⟩
    · rwa [map_encodedKey_of_eq_ok henc]
    · have hds : (items.map Prod.fst).Pairwise (· ≠ ·) :=
        hstr.imp fun hlt => Std.ne_of_lt hlt
      rw [sortOn_of_strict hstr]
      exact ⟨hds.isChain, hfr⟩
  · rintro ⟨hcan, items, henc, -, hfr⟩
    cases hcan with
    | map hk hvs hstr =>
      rw [map_encodedKey_of_eq_ok henc] at hstr
      rw [sortOn_of_strict hstr] at hfr
      exact ⟨items, hfr, hstr, (mapM_decodeEntry_iff hdc hfr).2
        ⟨fun entry h => ⟨hk entry h, hvs entry h⟩, henc⟩⟩

theorem encodePayload_of_decodePayload (h : decodePayload decode typeCode payload = .ok value) :
    value.Canonical unicode ∧ value.typeCode = typeCode ∧
      encodePayload unicode value = .ok payload := by
  cases typeCode with
  | absent =>
    simp only [decodePayload, ok_iff] at h
    obtain ⟨-, rfl, rfl⟩ := h
    exact ⟨.absent, rfl, rfl⟩
  | bytes =>
    cases h
    exact ⟨.bytes payload, rfl, rfl⟩
  | utf8 =>
    simp only [decodePayload, ok_iff, fromUtf8_eq_some] at h
    obtain ⟨text, rfl, rfl⟩ := h
    exact ⟨.utf8 text, rfl, rfl⟩
  | rawPath =>
    cases payload with
    | nil => simp [decodePayload] at h
    | cons platformCode bytes =>
      simp only [decodePayload, ok_iff] at h
      obtain ⟨-, hplat, rfl⟩ := h
      exact ⟨.rawPath platformCode bytes, rfl, encodePayload_rawPath_eq_ok.2 ⟨hplat, rfl⟩⟩
  | unsigned =>
    simp only [decodePayload, ok_iff] at h
    obtain ⟨-, hwidth, rfl⟩ := h
    exact ⟨.unsigned payload, rfl, encodeScalar_eq_ok.2 ⟨hwidth, rfl⟩⟩
  | signed =>
    simp only [decodePayload, ok_iff] at h
    obtain ⟨-, hwidth, rfl⟩ := h
    exact ⟨.signed payload, rfl, encodeScalar_eq_ok.2 ⟨hwidth, rfl⟩⟩
  | boolean =>
    simp only [decodePayload] at h
    split_ifs at h with hfalse htrue
    · cases h
      exact ⟨.boolean false, rfl, by rw [hfalse]; rfl⟩
    · cases h
      exact ⟨.boolean true, rfl, by rw [htrue]; rfl⟩
  | id =>
    simp only [decodePayload] at h
    split_ifs at h
    cases h
    exact ⟨.id _, rfl, rfl⟩
  | digest =>
    simp only [decodePayload] at h
    split_ifs at h
    cases h
    exact ⟨.digest _, rfl, rfl⟩
  | orderedList =>
    simp only [decodePayload, ok_iff] at h
    obtain ⟨values, hvs, rfl⟩ := h
    obtain ⟨hcan, henc⟩ := (decodeSequence_list_iff hdc).1 hvs
    exact ⟨hcan, rfl, henc⟩
  | set =>
    simp only [decodePayload, ok_iff] at h
    obtain ⟨values, hvs, rfl⟩ := h
    obtain ⟨hcan, henc⟩ := (decodeSequence_set_iff hdc).1 hvs
    exact ⟨hcan, rfl, henc⟩
  | map =>
    simp only [decodePayload, ok_iff] at h
    obtain ⟨_, hents, rfl⟩ := h
    obtain ⟨hcan, henc⟩ := (decodeMap_iff hdc).1 hents
    exact ⟨hcan, rfl, henc⟩
  | taggedUnion =>
    obtain ⟨variant, encoded, _, hfits, rfl, hmb, rfl⟩ := decodeTaggedUnion_eq_ok.1 h
    obtain ⟨hcan, henc⟩ := (hdc _ _ (length_lt_taggedUnion variant encoded)).1 hmb
    exact ⟨.taggedUnion variant hcan, rfl,
      encodePayload_taggedUnion_eq_ok.2 ⟨encoded, henc, hfits, rfl⟩⟩

theorem decodePayload_of_encodePayload (hcan : value.Canonical unicode)
    (henc : encodePayload unicode value = .ok payload) :
    decodePayload decode value.typeCode payload = .ok value := by
  cases hcan with
  | absent | bytes =>
    cases henc
    rfl
  | utf8 text =>
    cases henc
    simp only [CbefValue.typeCode, decodePayload, ok_iff, fromUtf8_eq_some]
    exact ⟨text, rfl, rfl⟩
  | rawPath _ bytes =>
    obtain ⟨hp, rfl⟩ := encodePayload_rawPath_eq_ok.1 henc
    simp only [CbefValue.typeCode, decodePayload, ok_iff]
    exact ⟨(), hp, trivial⟩
  | unsigned | signed =>
    obtain ⟨hw, rfl⟩ := encodeScalar_eq_ok.1 henc
    simp only [CbefValue.typeCode, decodePayload, ok_iff]
    exact ⟨(), hw, trivial⟩
  | boolean value =>
    cases henc
    cases value <;> rfl
  | id value =>
    cases henc
    simp only [CbefValue.typeCode, decodePayload]
    rw [dif_pos value.length_toList]
    rfl
  | digest value =>
    cases henc
    simp only [CbefValue.typeCode, decodePayload]
    rw [dif_pos value.length_toList]
    rfl
  | orderedList hmm =>
    have hvs := (decodeSequence_list_iff hdc).2 ⟨.orderedList hmm, henc⟩
    simp only [CbefValue.typeCode, decodePayload, hvs]
    rfl
  | set hmm hstr =>
    have hvs := (decodeSequence_set_iff hdc).2 ⟨.set hmm hstr, henc⟩
    simp only [CbefValue.typeCode, decodePayload, hvs]
    rfl
  | map hk hvs hstr =>
    have hen := (decodeMap_iff hdc).2 ⟨.map hk hvs hstr, henc⟩
    simp only [CbefValue.typeCode, decodePayload, hen]
    rfl
  | taggedUnion variant hmb =>
    obtain ⟨encoded, hencod, hf, rfl⟩ := encodePayload_taggedUnion_eq_ok.1 henc
    have hdec := (hdc _ _ (length_lt_taggedUnion variant encoded)).2 ⟨hmb, hencod⟩
    exact decodeTaggedUnion_eq_ok.2 ⟨variant, encoded, _, hf, rfl, hdec, rfl⟩

end

theorem decodeNested_iff {depth : Nat} (h : bytes.length < depth) :
    decodeNested depth bytes = .ok value ↔
      value.Canonical unicode ∧ encodeTyped unicode value = .ok bytes := by
  induction depth generalizing bytes value with
  | zero => omega
  | succ depth ih =>
    have hdc : ∀ typeCode payload, bytes = framed typeCode payload → ∀ item value,
        item.length < payload.length → (decodeNested depth item = .ok value ↔
          value.Canonical unicode ∧ encodeTyped unicode value = .ok item) := by
      rintro typeCode payload rfl item value _
      refine ih ?_
      simp only [framed, blob, length_cons, length_append] at h
      omega
    rw [decodeNested, decodeFramed_eq_ok, encodeTyped_eq_ok]
    constructor
    · rintro ⟨typeCode, payload, hf, hb, hval⟩
      obtain ⟨hcan, rfl, henc⟩ :=
        encodePayload_of_decodePayload (hdc typeCode payload hb) hval
      exact ⟨hcan, payload, henc, hf, hb⟩
    · rintro ⟨hcan, payload, henc, hf, hb⟩
      exact ⟨value.typeCode, payload, hf, hb,
        decodePayload_of_encodePayload (hdc _ payload hb) hcan henc⟩

/-- **The decoder of typed values accepts exactly the encodings of canonical values.** -/
theorem decodeTyped_iff (unicode : Unicode) : decodeTyped bytes = .ok value ↔
    value.Canonical unicode ∧ encodeTyped unicode value = .ok bytes :=
  decodeNested_iff (Nat.lt_succ_self _)

theorem decodePayload_iff (unicode : Unicode) :
    decodePayload decodeTyped typeCode payload = .ok value ↔
      value.Canonical unicode ∧ value.typeCode = typeCode ∧
        encodePayload unicode value = .ok payload := by
  constructor
  · exact encodePayload_of_decodePayload fun _ _ _ => decodeTyped_iff unicode
  · rintro ⟨hcan, rfl, henc⟩
    exact decodePayload_of_encodePayload (fun _ _ _ => decodeTyped_iff unicode) hcan henc

/-! ## Records -/

/-- Every field of the record holds a canonical value. -/
def CbefRecord.Canonical (unicode : Unicode) (record : CbefRecord) : Prop :=
  ∀ field ∈ record.fields, field.value.Canonical unicode

theorem encodeField_eq_ok {field : CbefField} : encodeField unicode field = .ok code ↔
    ∃ payload, encodePayload unicode field.value = .ok payload ∧ payload.length < 256 ^ 4 ∧
      code = putU16 field.tag ++ framed field.value.typeCode payload := by
  simp only [encodeField, ok_iff, frameTyped_eq_ok]
  constructor
  · rintro ⟨payload, hpay, _, ⟨hf, rfl⟩, rfl⟩
    exact ⟨payload, hpay, hf, rfl⟩
  · rintro ⟨payload, hpay, hf, rfl⟩
    exact ⟨payload, hpay, _, ⟨hf, rfl⟩, rfl⟩

theorem run_readFields_iff (unicode : Unicode) {count : Nat} {previous : UInt16}
    {fields : List CbefField} : (readFields count previous).run bytes = .ok (fields, rest) ↔
      fields.length = count ∧ (previous :: fields.map CbefField.tag).IsChain (· < ·) ∧
        (∀ field ∈ fields, field.value.Canonical unicode) ∧
        ∃ codes, fields.mapM (encodeField unicode) = .ok codes ∧ bytes = codes.flatten ++ rest := by
  induction count generalizing bytes rest previous fields with
  | zero =>
    rw [readFields, run_pure_iff]
    constructor
    · rintro ⟨rfl, rfl⟩
      exact ⟨rfl, by simp, by simp, [], rfl, rfl⟩
    · rintro ⟨hcn, -, -, codes, hcd, rfl⟩
      obtain rfl := List.length_eq_zero_iff.1 hcn
      cases hcd
      exact ⟨rfl, rfl⟩
  | succ count ih =>
    simp only [readFields, run_bind_iff, run_readU16_iff, run_check_iff, ensure_eq_ok,
      run_readTypeCode_iff, run_readBytes_iff, decodePayload_iff unicode, run_pure_iff, ih]
    constructor
    · rintro ⟨tag, _, rfl, _, _, ⟨htag, rfl⟩, _, _, rfl, payload, _, ⟨hft, rfl⟩, value, _,
        ⟨⟨hcan, rfl, hpay⟩, rfl⟩, tail, _, ⟨rfl, htg, hvs, codes, hcd, rfl⟩, rfl, rfl⟩
      have hfl : encodeField unicode ⟨tag, value⟩ =
          .ok (putU16 tag ++ framed value.typeCode payload) :=
        encodeField_eq_ok.2 ⟨payload, hpay, hft, rfl⟩
      refine ⟨rfl, List.isChain_cons_cons.2 ⟨htag, htg⟩, List.forall_mem_cons.2 ⟨hcan, hvs⟩,
        (putU16 tag ++ framed value.typeCode payload) :: codes, ?_, by simp [framed]⟩
      rw [mapM_cons, hfl, hcd]
      rfl
    · rintro ⟨hcn, htg, hvs, codes, hcd, rfl⟩
      obtain ⟨⟨tag, value⟩, tail, rfl⟩ := exists_cons_of_length_eq_add_one hcn
      obtain ⟨htag, htg⟩ := List.isChain_cons_cons.1 htg
      obtain ⟨hcan, hvs⟩ := List.forall_mem_cons.1 hvs
      simp only [mapM_cons, ok_iff] at hcd
      obtain ⟨_, hfl, codes, hcd, rfl⟩ := hcd
      obtain ⟨payload, hpay, hft, rfl⟩ := encodeField_eq_ok.1 hfl
      refine ⟨tag, _, ?_, (), _, ⟨htag, rfl⟩, value.typeCode, _, rfl, payload, _, ⟨hft, rfl⟩,
        value, _, ⟨⟨hcan, rfl, hpay⟩, rfl⟩, tail, rest,
        ⟨by simpa using hcn, htg, hvs, codes, hcd, rfl⟩, rfl, rfl⟩
      simp [framed]

theorem isChain_zero_cons_iff {tags : List UInt16} :
    ((0 : UInt16) :: tags).IsChain (· < ·) ↔ tags.head? ≠ some 0 ∧ tags.IsChain (· < ·) := by
  cases tags with
  | nil => simp
  | cons _ tags =>
    rw [isChain_cons_cons, head?_cons, ne_eq, Option.some.injEq, UInt16.pos_iff_ne_zero]

/-- **The decoder of records accepts exactly the encodings of canonical records.** -/
theorem decodeRecord_iff (unicode : Unicode) : decodeRecord bytes = .ok record ↔
    record.Canonical unicode ∧ encodeRecord unicode record = .ok bytes := by
  simp only [decodeRecord, complete_eq_ok, run_bind_iff, run_take_iff, run_check_iff, ok_iff,
    run_readU16_iff, IdentityDomain.fromCode_eq_ok, run_readFields_iff unicode, run_pure_iff,
    encodeRecord, ← isChain_zero_cons_iff]
  constructor
  · rintro ⟨_, _, ⟨-, rfl⟩, _, _, ⟨rfl, rfl⟩, _, _, ⟨-, rfl⟩, _, _, ⟨rfl, rfl⟩, _, _, rfl, _, _,
      ⟨rfl, rfl⟩, count, _, rfl, fields, _, ⟨hcn, ht, hvs, codes, hcd, rfl⟩, rfl, rfl⟩
    refine ⟨hvs, (), ht, (), ?_, codes, hcd, ?_⟩
    · rw [hcn]
      exact count.toNat_lt
    · rw [hcn]
      simp [putU16]
  · rintro ⟨hvs, -, ht, -, hcn, codes, hcd, rfl⟩
    have hlen : (UInt16.ofNat record.fields.length).toNat = record.fields.length := by
      have hcn : record.fields.length < 2 ^ 16 := hcn
      rw [UInt16.toNat_ofNat', Nat.mod_eq_of_lt hcn]
    refine ⟨magic, _, ⟨rfl, ?_⟩, (), _, ⟨rfl, rfl⟩, [formatVersion], _, ⟨rfl, rfl⟩, (), _,
      ⟨rfl, rfl⟩,
      record.domain.code, _, rfl, record.domain, _, ⟨rfl, rfl⟩,
      UInt16.ofNat record.fields.length, _, rfl, record.fields, [],
      ⟨hlen.symm, ht, hvs, codes, hcd, rfl⟩, rfl, rfl⟩
    simp [putU16, hlen]

/-! ## The canonical form of an encodable value -/

theorem mapM_encodeTyped_of_mem
    (h : ∀ value ∈ values, ∃ bytes, encodeTyped unicode value = .ok bytes) :
    values.mapM (encodeTyped unicode) = .ok (values.map (encoded unicode)) := by
  rw [mapM_eq_ok, forall₂_map_right_iff, forall₂_same]
  intro value hval
  obtain ⟨bytes, hb⟩ := h value hval
  rw [hb, encoded_of_eq_ok hb]

theorem canonical_set {items : List (List UInt8)} (hmm : ∀ value ∈ values, value.Canonical unicode)
    (henc : values.mapM (encodeTyped unicode) = .ok items)
    (hfr : FramesItems (dedupOn id (sortOn id items)) payload) :
    (CbefValue.set (dedupOn (encoded unicode) (sortOn (encoded unicode) values))).Canonical
        unicode ∧
      encodePayload unicode (.set (dedupOn (encoded unicode) (sortOn (encoded unicode) values))) =
        .ok payload := by
  have hmem : ∀ value ∈ dedupOn (encoded unicode) (sortOn (encoded unicode) values),
      value ∈ values :=
    fun value hval => mem_sortOn.1 (mem_of_mem_dedupOn hval)
  have hstr := strict_dedupOn_sortOn (encoded unicode) values
  have hen : (dedupOn (encoded unicode) (sortOn (encoded unicode) values)).mapM
      (encodeTyped unicode) = .ok (dedupOn id (sortOn id items)) := by
    rw [← map_encoded_of_eq_ok henc, ← map_key_dedupOn_sortOn]
    refine mapM_encodeTyped_of_mem fun value hval => ?_
    obtain ⟨bytes, -, hb⟩ := exists_of_mapM_eq_ok henc (hmem value hval)
    exact ⟨bytes, hb⟩
  refine ⟨.set (fun value hval => hmm value (hmem value hval)) hstr, ?_⟩
  rw [map_encoded_of_eq_ok hen] at hstr
  simp only [encodePayload, encodeMembers_eq, hen, bind_eq_ok, frameSequence_eq_ok, if_true]
  refine ⟨_, rfl, ?_⟩
  rwa [dedupOn_sortOn_of_strict hstr]

theorem canonical_map (hk : ∀ entry ∈ entries, entry.1.Canonical unicode)
    (hvs : ∀ entry ∈ entries, entry.2.Canonical unicode)
    (henc : entries.mapM (encodeEntry unicode) = .ok items) (hfr : frameMap items = .ok payload) :
    (CbefValue.map (sortOn (fun entry => encoded unicode entry.1) entries)).Canonical unicode ∧
      encodePayload unicode (.map (sortOn (fun entry => encoded unicode entry.1) entries)) =
        .ok payload := by
  obtain ⟨hd, hfr⟩ := frameMap_eq_ok.1 hfr
  have hsr : sortOn Prod.fst items =
      (sortOn (fun entry => encoded unicode entry.1) entries).map (encodedEntry unicode) := by
    -- the items are the encoded entries, so sorting commutes with encoding
    rw [eq_map_of_encodeEntry henc]
    exact (map_sortOn fun _ => rfl).symm
  have hen : (sortOn (fun entry => encoded unicode entry.1) entries).mapM
      (encodeEntry unicode) = .ok (sortOn Prod.fst items) := by
    rw [hsr, mapM_eq_ok, forall₂_map_right_iff, forall₂_same]
    intro entry hentry
    obtain ⟨_, -, hi⟩ := exists_of_mapM_eq_ok henc (mem_sortOn.1 hentry)
    rw [hi, encodeEntry_eq_ok hi]
  have hstr : ((sortOn Prod.fst items).map Prod.fst).Pairwise (· < ·) :=
    strict_of_ascending (ascending_sortOn Prod.fst items) hd
  refine ⟨.map (fun entry h => hk entry (mem_sortOn.1 h))
    (fun entry h => hvs entry (mem_sortOn.1 h)) ?_, ?_⟩
  · rwa [map_encodedKey_of_eq_ok hen]
  · have hents : encodeEntries unicode (sortOn (fun entry => encoded unicode entry.1) entries) =
        .ok (sortOn Prod.fst items) := (encodeEntries_eq _).trans hen
    simp only [encodePayload, hents, bind_eq_ok, frameMap_eq_ok]
    refine ⟨_, rfl, ?_⟩
    rw [sortOn_of_strict hstr]
    exact ⟨hd, hfr⟩

/-- What the canonical form of an encodable value keeps: its type and its payload. -/
structure CanonSpec (unicode : Unicode) (value : CbefValue) (payload : List UInt8) : Prop where
  canonical : (value.canon unicode).Canonical unicode
  typeCode : (value.canon unicode).typeCode = value.typeCode
  encodes : encodePayload unicode (value.canon unicode) = .ok payload

theorem CanonSpec.encodeTyped
    (h : CanonSpec unicode value payload) (hfr : frameTyped value.typeCode payload = .ok bytes) :
    encodeTyped unicode (value.canon unicode) = .ok bytes := by
  rw [Identity.encodeTyped, h.encodes, h.typeCode]
  exact hfr

mutual

theorem canonSpec_of_encodePayload {value : CbefValue} {payload : List UInt8}
    (h : encodePayload unicode value = .ok payload) : CanonSpec unicode value payload := by
  match value with
  | .absent => exact ⟨.absent, rfl, h⟩
  | .bytes bytes => exact ⟨.bytes bytes, rfl, h⟩
  | .utf8 text normalization =>
    simp only [encodePayload, ok_iff] at h
    obtain ⟨normal, hn, rfl⟩ := h
    have hcn : (CbefValue.utf8 text normalization).canon unicode = .utf8 normal .none := by
      rw [CbefValue.canon, canonText, hn]
    exact ⟨hcn ▸ .utf8 normal, by rw [hcn]; rfl, by rw [hcn]; rfl⟩
  | .rawPath platformCode bytes => exact ⟨.rawPath platformCode bytes, rfl, h⟩
  | .unsigned bytes => exact ⟨.unsigned bytes, rfl, h⟩
  | .signed bytes => exact ⟨.signed bytes, rfl, h⟩
  | .boolean value => exact ⟨.boolean value, rfl, h⟩
  | .id value => exact ⟨.id value, rfl, h⟩
  | .digest value => exact ⟨.digest value, rfl, h⟩
  | .orderedList values =>
    simp only [encodePayload, bind_eq_ok] at h
    obtain ⟨items, hitems, hpay⟩ := h
    obtain ⟨hm, henc⟩ := canonMembers_of_encodeMembers hitems
    refine ⟨.orderedList hm, rfl, ?_⟩
    simp only [CbefValue.canon, encodePayload, encodeMembers_eq, henc]
    exact hpay
  | .set values =>
    simp only [encodePayload, bind_eq_ok, frameSequence_eq_ok, if_true] at h
    obtain ⟨items, hitems, hfr⟩ := h
    obtain ⟨hm, henc⟩ := canonMembers_of_encodeMembers hitems
    obtain ⟨hcan, hpay⟩ := canonical_set hm henc hfr
    exact ⟨hcan, rfl, hpay⟩
  | .map entries =>
    simp only [encodePayload, bind_eq_ok] at h
    obtain ⟨items, hitems, hfr⟩ := h
    obtain ⟨hk, hvs, henc⟩ := canonEntries_of_encodeEntries hitems
    obtain ⟨hcan, hpay⟩ := canonical_map hk hvs henc hfr
    exact ⟨hcan, rfl, hpay⟩
  | .taggedUnion variant value =>
    simp only [encodePayload, bind_eq_ok] at h
    obtain ⟨inner, hin, encoded, hen, hpay⟩ := h
    have hs := canonSpec_of_encodePayload hin
    refine ⟨.taggedUnion variant hs.canonical, rfl, ?_⟩
    simp only [CbefValue.canon, encodePayload, hs.encodes, hs.typeCode]
    show (frameTyped value.typeCode inner >>= frameTaggedUnion variant) = _
    rw [hen]
    exact hpay

theorem canonMembers_of_encodeMembers {values : List CbefValue} {items : List (List UInt8)}
    (h : encodeMembers unicode values = .ok items) :
    (∀ value ∈ canonMembers unicode values, value.Canonical unicode) ∧
      (canonMembers unicode values).mapM (encodeTyped unicode) = .ok items := by
  match values with
  | [] => exact ⟨by simp [canonMembers], h⟩
  | value :: values =>
    simp only [encodeMembers, ok_iff] at h
    obtain ⟨_, hpay, _, hitem, items, hitems, rfl⟩ := h
    have hs := canonSpec_of_encodePayload hpay
    obtain ⟨hm, henc⟩ := canonMembers_of_encodeMembers hitems
    refine ⟨List.forall_mem_cons.2 ⟨hs.canonical, hm⟩, ?_⟩
    rw [canonMembers, mapM_cons, hs.encodeTyped hitem, henc]
    rfl

theorem canonEntries_of_encodeEntries {entries : List (CbefValue × CbefValue)}
    {items : List (List UInt8 × List UInt8)} (h : encodeEntries unicode entries = .ok items) :
    (∀ entry ∈ canonEntries unicode entries, entry.1.Canonical unicode) ∧
      (∀ entry ∈ canonEntries unicode entries, entry.2.Canonical unicode) ∧
      (canonEntries unicode entries).mapM (encodeEntry unicode) = .ok items := by
  match entries with
  | [] => exact ⟨by simp [canonEntries], by simp [canonEntries], h⟩
  | (key, value) :: entries =>
    simp only [encodeEntries, ok_iff] at h
    obtain ⟨_, hkeyPayload, _, hkey, _, hvaluePayload, _, hval, items, hi, rfl⟩ := h
    have hkeySpec := canonSpec_of_encodePayload hkeyPayload
    have hvalueSpec := canonSpec_of_encodePayload hvaluePayload
    obtain ⟨hky, hvs, henc⟩ := canonEntries_of_encodeEntries hi
    refine ⟨List.forall_mem_cons.2 ⟨hkeySpec.canonical, hky⟩,
      List.forall_mem_cons.2 ⟨hvalueSpec.canonical, hvs⟩, ?_⟩
    rw [canonEntries, mapM_cons, henc, encodeEntry, hkeySpec.encodeTyped hkey,
      hvalueSpec.encodeTyped hval]
    rfl

end

/-! ## Results -/

def CbefField.canon (unicode : Unicode) (field : CbefField) : CbefField :=
  { field with value := field.value.canon unicode }

theorem canonField_of_encodeField {field : CbefField} (h : encodeField unicode field = .ok code) :
    (field.canon unicode).value.Canonical unicode ∧
      encodeField unicode (field.canon unicode) = .ok code := by
  obtain ⟨payload, hpay, hf, rfl⟩ := encodeField_eq_ok.1 h
  have hs := canonSpec_of_encodePayload hpay
  refine ⟨hs.canonical, encodeField_eq_ok.2 ⟨payload, hs.encodes, hf, ?_⟩⟩
  rw [CbefField.canon, hs.typeCode]

theorem canonFields_of_encodeField {fields : List CbefField} {codes : List (List UInt8)}
    (h : fields.mapM (encodeField unicode) = .ok codes) :
    (∀ field ∈ fields.map (CbefField.canon unicode), field.value.Canonical unicode) ∧
      (fields.map (CbefField.canon unicode)).mapM (encodeField unicode) = .ok codes := by
  rw [mapM_eq_ok] at h ⊢
  induction h with
  | nil => exact ⟨by simp, .nil⟩
  | cons hh _ ih =>
    obtain ⟨hcan, henc⟩ := canonField_of_encodeField hh
    exact ⟨List.forall_mem_cons.2 ⟨hcan, ih.1⟩, .cons henc ih.2⟩

theorem canon_of_encodeRecord (h : encodeRecord unicode record = .ok bytes) :
    (record.canon unicode).Canonical unicode ∧
      encodeRecord unicode (record.canon unicode) = .ok bytes := by
  have hcn : record.canon unicode =
      { record with fields := record.fields.map (CbefField.canon unicode) } := rfl
  have ht : (record.fields.map (CbefField.canon unicode)).map CbefField.tag =
      record.fields.map CbefField.tag := by
    rw [map_map]
    rfl
  simp only [encodeRecord, ok_iff] at h
  obtain ⟨-, ho, -, hcount, codes, hcd, rfl⟩ := h
  obtain ⟨hcan, henc⟩ := canonFields_of_encodeField hcd
  refine ⟨hcan, ?_⟩
  simp only [hcn, encodeRecord, ht, length_map, ok_iff]
  exact ⟨(), ho, (), hcount, codes, henc, rfl⟩

theorem decodeRecord_of_encodeRecord (h : encodeRecord unicode record = .ok bytes) :
    decodeRecord bytes = .ok (record.canon unicode) :=
  (decodeRecord_iff unicode).2 (canon_of_encodeRecord h)

/-- **Decoding an encoding gives the canonical form**, for every encodable record of any nesting;
so two encodable records have the same encoding exactly when their canonical forms are equal. -/
theorem decodeRecord_encodeRecord (unicode : Unicode) :
    (∀ record bytes, encodeRecord unicode record = .ok bytes →
      decodeRecord bytes = .ok (record.canon unicode)) ∧
    ∀ record other bytes otherBytes, encodeRecord unicode record = .ok bytes →
      encodeRecord unicode other = .ok otherBytes →
      (bytes = otherBytes ↔ record.canon unicode = other.canon unicode) := by
  refine ⟨fun record bytes h => decodeRecord_of_encodeRecord h, ?_⟩
  intro record other bytes otherBytes h ho
  have hdc := decodeRecord_of_encodeRecord h
  have henc := (canon_of_encodeRecord h).2
  constructor
  · rintro rfl
    have hdecodeOther := decodeRecord_of_encodeRecord ho
    exact Except.ok.inj (hdc.symm.trans hdecodeOther)
  · intro hc
    rw [hc, (canon_of_encodeRecord ho).2] at henc
    exact (Except.ok.inj henc).symm

/-- Normalization of the ASCII texts of the samples, which every form leaves alone. -/
def asciiUnicode : Unicode := ⟨id, id⟩

/-- A record whose set repeats a member, out of order, inside a map that is out of order. -/
def sampleRecord : CbefRecord where
  domain := .entity
  fields := [⟨1, .utf8 "ab" .nfc⟩,
    ⟨2, .map [(.boolean true, .set [.unsigned [2], .unsigned [1], .unsigned [2]]),
      (.boolean false, .taggedUnion 7 (.orderedList [.absent, .bytes [9]]))]⟩]

/-- The canonical form of `sampleRecord`. -/
def sampleCanonical : CbefRecord where
  domain := .entity
  fields := [⟨1, .utf8 "ab" .none⟩,
    ⟨2, .map [(.boolean false, .taggedUnion 7 (.orderedList [.absent, .bytes [9]])),
      (.boolean true, .set [.unsigned [1], .unsigned [2]])]⟩]

/-- The encoding of `sampleRecord`. -/
def sampleBytes : List UInt8 :=
  [67, 70, 73, 68, 1, 0, 8, 0, 2, 0, 1, 2, 0, 0, 0, 2, 97, 98, 0, 2, 11, 0, 0, 0, 100, 0, 0, 0, 2,
    0, 0, 0, 6, 6, 0, 0, 0, 1, 0, 0, 0, 0, 39, 12, 0, 0, 0, 34, 0, 7, 0, 0, 0, 28, 9, 0, 0, 0, 23,
    0, 0, 0, 2, 0, 0, 0, 5, 0, 0, 0, 0, 0, 0, 0, 0, 6, 1, 0, 0, 0, 1, 9, 0, 0, 0, 6, 6, 0, 0, 0, 1,
    1, 0, 0, 0, 29, 10, 0, 0, 0, 24, 0, 0, 0, 2, 0, 0, 0, 6, 4, 0, 0, 0, 1, 1, 0, 0, 0, 6, 4, 0, 0,
    0, 1, 2]

theorem encodeRecord_sampleRecord : encodeRecord asciiUnicode sampleRecord = .ok sampleBytes := by
  decide +kernel

theorem canon_sampleRecord : sampleRecord.canon asciiUnicode = sampleCanonical := by
  rfl

/-- The sample decodes to its canonical form, which has the same encoding. -/
theorem sampleRecord_decodes : encodeRecord asciiUnicode sampleRecord = .ok sampleBytes ∧
    decodeRecord sampleBytes = .ok sampleCanonical ∧
    encodeRecord asciiUnicode sampleCanonical = .ok sampleBytes ∧
    sampleRecord.canon asciiUnicode = sampleCanonical.canon asciiUnicode := by
  have henc := encodeRecord_sampleRecord
  have hcan : encodeRecord asciiUnicode sampleCanonical = .ok sampleBytes := by
    decide +kernel
  obtain ⟨hdc, hs⟩ := decodeRecord_encodeRecord asciiUnicode
  refine ⟨henc, ?_, hcan, (hs _ _ _ _ henc hcan).1 rfl⟩
  rw [hdc _ _ henc, canon_sampleRecord]

/-- **The decoder accepts only canonical images**: a byte string that decodes is the encoding of
what it decodes to, so no other byte string decodes to the same record. -/
theorem encodeRecord_of_decodeRecord (unicode : Unicode) {bytes : List UInt8} {record : CbefRecord}
    (h : decodeRecord bytes = .ok record) : encodeRecord unicode record = .ok bytes ∧
      ∀ other, decodeRecord other = .ok record → other = bytes := by
  have henc := ((decodeRecord_iff unicode).1 h).2
  refine ⟨henc, fun other ho => ?_⟩
  have hencodeOther := ((decodeRecord_iff unicode).1 ho).2
  exact Except.ok.inj (hencodeOther.symm.trans henc)

/-- The bytes of the sample are the only ones that decode to its canonical form. -/
theorem sampleBytes_canonical : decodeRecord sampleBytes = .ok sampleCanonical ∧
    encodeRecord asciiUnicode sampleCanonical = .ok sampleBytes ∧
    ∀ other, decodeRecord other = .ok sampleCanonical → other = sampleBytes := by
  have hdc : decodeRecord sampleBytes = .ok sampleCanonical := by
    rw [← canon_sampleRecord]
    exact decodeRecord_of_encodeRecord encodeRecord_sampleRecord
  exact ⟨hdc, encodeRecord_of_decodeRecord asciiUnicode hdc⟩

end CodeFabric.Identity
