import CodeFabric.Identity.Cbef

/-! # Public identities

The texts under which identities are shown (`encode_public_id`, `decode_public_id` in
`identity.rs`): the name of a domain, for some domains the slug of a kind, and 32 lowercase
hexadecimal digits. Texts are their UTF-8 bytes, and `none` is the one failure. -/

namespace CodeFabric.Identity

open List hiding Vector

def IdentityDomain.publicPrefix : IdentityDomain → String
  | .workspace => "workspace"
  | .repository => "repository"
  | .worktree => "worktree"
  | .analysisContext | .querySourceContext => "context"
  | .contextSet => "context-set"
  | .sourceFile => "file"
  | .owner => "owner"
  | .entity => "entity"
  | .relationFact | .propertyFact => "fact"
  | .type => "type"
  | .publication => "publication"
  | .servingSnapshot => "snapshot"
  | .resultArtifact | .resultArtifactV2 => "artifact"
  | .sourceContext => "source-context"
  | .unknownRemainder => "unknown"
  | .rootAuthorization => "root-authorization"
  | .pathResult => "path"
  | .objectiveInputSet => "input-set"
  | .objectiveGroup => "group"
  | .accessScope => "access-scope"

def IdentityDomain.requiresKindSlug (domain : IdentityDomain) : Bool :=
  domain = .entity || domain = .relationFact || domain = .propertyFact

/-- The value behind the sole symbolic public identity. -/
def sourceContextId : Vector UInt8 16 := .replicate 16 255

def symbolicSource : List UInt8 := utf8Bytes "context:source"

def lowerDigit (value : Nat) : UInt8 := .ofNat (if value < 10 then 48 + value else 87 + value)

def lowerHex (bytes : List UInt8) : List UInt8 :=
  bytes.flatMap fun byte => [lowerDigit (byte.toNat / 16), lowerDigit (byte.toNat % 16)]

def isLowerHex (byte : UInt8) : Bool := 48 ≤ byte && byte ≤ 57 || 97 ≤ byte && byte ≤ 102

def digitValue (digit : UInt8) : Nat := if digit ≤ 57 then digit.toNat - 48 else digit.toNat - 87

/-- The bytes of pairs of digits; a digit left over is dropped. -/
def decodePairs : List UInt8 → List UInt8
  | high :: low :: rest => .ofNat (16 * digitValue high + digitValue low) :: decodePairs rest
  | [_] | [] => []

theorem length_decodePairs (digits : List UInt8) :
    (decodePairs digits).length = digits.length / 2 := by
  fun_induction decodePairs digits <;> grind

def decodeLowerHex16 (value : List UInt8) : Option (Vector UInt8 16) :=
  if h : value.length = 32 ∧ value.all isLowerHex then
    some ⟨(decodePairs value).toArray, by simp [length_decodePairs, h.1]⟩
  else none

def ValidSlug (value : List UInt8) : Prop :=
  value ≠ [] ∧ value.head? ≠ some 45 ∧ value.getLast? ≠ some 45 ∧ ¬[45, 45] <:+: value ∧
    ∀ byte ∈ value, 97 ≤ byte ∧ byte ≤ 122 ∨ 48 ≤ byte ∧ byte ≤ 57 ∨ byte = 45
  deriving Decidable

variable (domain : IdentityDomain) (kindSlug : Option (List UInt8))

/-- Encode one strict lowercase public identity: its parts, joined by colons. -/
def encodePublicId (id : Vector UInt8 16) : Option (List UInt8) :=
  if domain.requiresKindSlug ≠ kindSlug.isSome ∨ ∃ slug ∈ kindSlug, ¬ValidSlug slug then none
  else some ([58].intercalate
    (utf8Bytes domain.publicPrefix :: (kindSlug.toList ++ [lowerHex id.toList])))

/-- Decode a public identity only when its domain and optional kind slug match. -/
def decodePublicId (value : List UInt8) : Option (Vector UInt8 16) :=
  if value = symbolicSource then
    if domain = .analysisContext ∧ kindSlug = none then some sourceContextId else none
  else if domain.requiresKindSlug then
    match value.splitOn 58 with
    | [first, slug, payload] =>
      if first = utf8Bytes domain.publicPrefix ∧ ValidSlug slug ∧ some slug = kindSlug then
        decodeLowerHex16 payload
      else none
    | _ => none
  else
    match value.splitOn 58 with
    | [first, payload] =>
      if first = utf8Bytes domain.publicPrefix ∧ kindSlug = none then decodeLowerHex16 payload
      else none
    | _ => none

/-! ## Digits -/

theorem lowerDigit_spec : ∀ value < 16, isLowerHex (lowerDigit value) ∧
    digitValue (lowerDigit value) = value := by
  decide

theorem digitValue_spec {digit : UInt8} (h : isLowerHex digit) :
    digitValue digit < 16 ∧ lowerDigit (digitValue digit) = digit := by
  have hall : ∀ value < 103, isLowerHex (.ofNat value) → digitValue (.ofNat value) < 16 ∧
      lowerDigit (digitValue (.ofNat value)) = .ofNat value := by
    decide
  have hlt : digit.toNat < 103 := by
    simp only [isLowerHex, Bool.or_eq_true, Bool.and_eq_true, decide_eq_true_eq,
      UInt8.le_iff_toNat_le] at h
    rcases h with ⟨_, h⟩ | ⟨_, h⟩ <;> simp at h <;> omega
  simpa using hall _ hlt (by simpa using h)

theorem decodePairs_lowerHex (bytes : List UInt8) : decodePairs (lowerHex bytes) = bytes := by
  induction bytes with
  | nil => rfl
  | cons byte bytes ih =>
    have hlt := byte.toNat_lt
    show UInt8.ofNat (16 * digitValue (lowerDigit (byte.toNat / 16)) +
      digitValue (lowerDigit (byte.toNat % 16))) :: decodePairs (lowerHex bytes) = _
    rw [(lowerDigit_spec _ (by omega)).2, (lowerDigit_spec _ (by omega)).2, ih,
      Nat.div_add_mod, UInt8.ofNat_toNat]

theorem lowerHex_decodePairs {digits : List UInt8} (heven : digits.length % 2 = 0)
    (h : ∀ digit ∈ digits, isLowerHex digit) : lowerHex (decodePairs digits) = digits := by
  fun_induction decodePairs digits with
  | case1 high low rest ih =>
    simp only [mem_cons, forall_eq_or_imp] at h
    obtain ⟨hhigh, hh⟩ := digitValue_spec h.1
    obtain ⟨hlow, hl⟩ := digitValue_spec h.2.1
    have hval : (UInt8.ofNat (16 * digitValue high + digitValue low)).toNat =
        16 * digitValue high + digitValue low := by
      rw [UInt8.toNat_ofNat']
      omega
    rw [lowerHex, flatMap_cons, hval, Nat.mul_add_div (by decide), Nat.mul_add_mod,
      Nat.div_eq_of_lt hlow, Nat.mod_eq_of_lt hlow, Nat.add_zero, hh, hl]
    exact congrArg _ (ih (by grind) h.2.2)
  | case2 => contradiction
  | case3 => rfl

theorem isLowerHex_of_mem {bytes : List UInt8} : ∀ digit ∈ lowerHex bytes, isLowerHex digit := by
  simp only [lowerHex, mem_flatMap, mem_cons, not_mem_nil, or_false]
  rintro digit ⟨byte, -, rfl | rfl⟩
  · exact (lowerDigit_spec _ (Nat.div_lt_of_lt_mul byte.toNat_lt)).1
  · exact (lowerDigit_spec _ (Nat.mod_lt _ (by decide))).1

/-- An identity has one spelling in digits. -/
theorem decodeLowerHex16_eq_some {value : List UInt8} {id : Vector UInt8 16} :
    decodeLowerHex16 value = some id ↔ value = lowerHex id.toList := by
  rw [decodeLowerHex16, Option.dite_none_right_eq_some]
  constructor
  · rintro ⟨⟨hlen, hall⟩, h⟩
    rw [← Option.some.inj h]
    exact (lowerHex_decodePairs (by rw [hlen]) (all_eq_true.1 hall)).symm
  · rintro rfl
    refine ⟨⟨by simp [lowerHex], all_eq_true.2 isLowerHex_of_mem⟩, ?_⟩
    simp [decodePairs_lowerHex, Vector.toList]

/-! ## Public identities -/

variable {domain kindSlug} {id : Vector UInt8 16} {value : List UInt8}

theorem splitOn_encodePublicId (h : encodePublicId domain kindSlug id = some value) :
    value ≠ symbolicSource ∧ value.splitOn 58 =
      utf8Bytes domain.publicPrefix :: (kindSlug.toList ++ [lowerHex id.toList]) := by
  rw [encodePublicId, Option.ite_none_left_eq_some, Option.some_inj, not_or] at h
  obtain ⟨⟨-, hslug⟩, rfl⟩ := h
  have hparts : ∀ part ∈ utf8Bytes domain.publicPrefix :: (kindSlug.toList ++ [lowerHex id.toList]),
      58 ∉ part := by
    simp only [mem_cons, mem_append, Option.mem_toList, not_mem_nil, or_false]
    rintro part (rfl | hpart | rfl) hcolon
    · revert hcolon
      cases domain <;> decide
    · have hvalid := not_not.1 fun hv => hslug ⟨part, hpart, hv⟩
      exact absurd (hvalid.2.2.2.2 _ hcolon) (by decide)
    · exact absurd (isLowerHex_of_mem _ hcolon) (by decide)
  have hsplit := splitOn_intercalate 58 hparts (cons_ne_nil _ _)
  refine ⟨fun hsym => ?_, hsplit⟩
  -- the last part of the symbolic text is too short
  have hlast := congrArg (fun value => (value.splitOn 58).getLast?.map length) hsym
  rw [hsplit, ← cons_append, getLast?_concat] at hlast
  have hsource : (symbolicSource.splitOn 58).getLast?.map length = some 6 := by decide
  simp [hsource, lowerHex] at hlast

/-- The decoder accepts the encodings and the symbolic source context. -/
theorem decodePublicId_eq_some : decodePublicId domain kindSlug value = some id ↔
    encodePublicId domain kindSlug id = some value ∨ value = symbolicSource ∧
      domain = .analysisContext ∧ kindSlug = none ∧ id = sourceContextId := by
  constructor
  · intro h
    have hvalue : [58].intercalate (value.splitOn 58) = value := intercalate_splitOn 58
    unfold decodePublicId at h
    split_ifs at h with hsym hsource hreq
    · exact .inr ⟨hsym, hsource.1, hsource.2, (Option.some.inj h).symm⟩
    all_goals
      refine .inl ?_
      split at h <;> try contradiction
      rename_i hsplit
      rw [Option.ite_none_right_eq_some, decodeLowerHex16_eq_some] at h
      rw [hsplit] at hvalue
    · obtain ⟨⟨rfl, hv, rfl⟩, rfl⟩ := h
      simpa [encodePublicId, hreq, hv] using hvalue
    · obtain ⟨⟨rfl, rfl⟩, rfl⟩ := h
      simpa [encodePublicId, hreq] using hvalue
  · rintro (h | ⟨rfl, rfl, rfl, rfl⟩)
    · obtain ⟨hne, hsplit⟩ := splitOn_encodePublicId h
      rw [decodePublicId, if_neg hne, hsplit]
      cases kindSlug <;> simp_all [encodePublicId, decodeLowerHex16_eq_some]
    · rfl

/-- **Public identities**: the decoder accepts exactly the encodings and, for the analysis context,
the symbolic text. Decoding inverts encoding and, that text apart, encoding inverts decoding
and no two texts denote one identity. -/
theorem publicId_codec (domain : IdentityDomain) (kindSlug : Option (List UInt8)) :
    (∀ value id, decodePublicId domain kindSlug value = some id ↔
      encodePublicId domain kindSlug id = some value ∨ value = symbolicSource ∧
        domain = .analysisContext ∧ kindSlug = none ∧ id = sourceContextId) ∧
    ∀ left right id, decodePublicId domain kindSlug left = some id →
      decodePublicId domain kindSlug right = some id → left ≠ symbolicSource →
      right ≠ symbolicSource → left = right := by
  refine ⟨fun value id => decodePublicId_eq_some, fun left right id hleft hright hl hr => ?_⟩
  have hencoded := (decodePublicId_eq_some.1 hleft).resolve_right fun h => hl h.1
  rw [(decodePublicId_eq_some.1 hright).resolve_right fun h => hr h.1] at hencoded
  exact (Option.some.inj hencoded).symm

theorem publicId_codec_sample :
    let text := utf8Bytes "entity:fn:ffffffffffffffffffffffffffffffff"
    decodePublicId .entity (some (utf8Bytes "fn")) text = some sourceContextId ∧
      [58].intercalate [utf8Bytes "entity", utf8Bytes "fn", lowerHex sourceContextId.toList] =
        text :=
  ⟨by decide +kernel, (publicId_codec .entity (some (utf8Bytes "fn"))).2 _ _ sourceContextId
    (by decide +kernel) (by decide +kernel) (by decide) (by decide)⟩

/-- The identity of the source context has a second accepted text, its digits. -/
theorem sourceContext_spelled_twice :
    decodePublicId .analysisContext none symbolicSource = some sourceContextId ∧
    decodePublicId .analysisContext none (utf8Bytes "context:ffffffffffffffffffffffffffffffff") =
      some sourceContextId ∧
    encodePublicId .analysisContext none sourceContextId ≠ some symbolicSource := by
  decide

end CodeFabric.Identity
