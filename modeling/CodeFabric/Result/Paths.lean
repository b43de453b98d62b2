import CodeFabric.Result.Package

/-! # Object names

What the coordinator asks of the path of a page, and that the paths of a package are different. -/

namespace CodeFabric.Result

open List hiding Vector append_assoc length_append

open Query String

/-! ## ASCII text -/

theorem utf8ByteSize_ofList {chars : List Char} (h : ∀ c ∈ chars, c.toNat < 128) :
    (ofList chars).utf8ByteSize = chars.length := by
  induction chars with
  | nil => rfl
  | cons c chars ih =>
    obtain ⟨hc, hch⟩ := List.forall_mem_cons.1 h
    have hs : c.utf8Size = 1 := Char.utf8Size_eq_one_iff.2 (by
      have hval : c.val.toNat ≤ 127 := Nat.le_of_lt_succ hc
      exact hval)
    have hcn : ofList (c :: chars) = singleton c ++ ofList chars := by
      rw [← toList_inj, toList_append, toList_ofList, toList_ofList,
        toList_singleton, singleton_append]
    rw [hcn, utf8ByteSize_append, ih hch, utf8ByteSize_singleton, hs, length_cons, Nat.add_comm]

/-! ## Digits -/

theorem hexDigit_spec {value : Nat} (h : value < 16) :
    isHexDigit (hexDigit value) ∧ hexDigit value ≠ '/' ∧ (hexDigit value).toNat < 128 := by
  interval_cases value <;> decide

theorem digitChar_spec {value : Nat} (h : value < 10) :
    (Nat.digitChar value).isDigit ∧ (Nat.digitChar value).toNat < 128 := by
  interval_cases value <;> decide

variable {c : Char}

theorem mem_hex {bytes : List UInt8} (h : c ∈ (hex bytes).toList) :
    isHexDigit c ∧ c ≠ '/' ∧ c.toNat < 128 := by
  rw [hex, toList_ofList, mem_flatMap] at h
  obtain ⟨byte, -, hc⟩ := h
  have hh : byte.toNat / 16 < 16 := Nat.div_lt_of_lt_mul byte.toNat_lt
  have hlow : byte.toNat % 16 < 16 := Nat.mod_lt _ (by decide)
  rcases List.mem_cons.1 hc with rfl | hc
  · exact hexDigit_spec hh
  · rw [List.mem_singleton.1 hc]
    exact hexDigit_spec hlow

theorem length_hex (bytes : List UInt8) : (hex bytes).toList.length = 2 * bytes.length := by
  rw [hex, toList_ofList]
  induction bytes with
  | nil => rfl
  | cons byte bytes ih =>
    simp only [List.flatMap_cons, List.length_append, List.length_cons, List.length_nil, ih]
    omega

theorem length_decimalDigits (width value : Nat) : (decimalDigits width value).length = width := by
  induction width generalizing value with
  | zero => rfl
  | succ width ih => rw [decimalDigits, List.length_append, ih, List.length_singleton]

theorem mem_decimalDigits {width value : Nat} (h : c ∈ decimalDigits width value) :
    c.isDigit ∧ c.toNat < 128 := by
  induction width generalizing value with
  | zero => exact absurd h not_mem_nil
  | succ width ih =>
    rw [decimalDigits, mem_append] at h
    rcases h with h | h
    · exact ih h
    · rw [List.mem_singleton.1 h]
      exact digitChar_spec (Nat.mod_lt _ (by decide))

theorem digitChar_injective {left right : Nat} (hl : left < 10) (hr : right < 10)
    (h : Nat.digitChar left = Nat.digitChar right) : left = right := by
  interval_cases left <;> interval_cases right <;> first | rfl | exact absurd h (by decide)

theorem decimalDigits_injective {width left right : Nat} (hlf : left < 10 ^ width)
    (hr : right < 10 ^ width) (h : decimalDigits width left = decimalDigits width right) :
    left = right := by
  induction width generalizing left right with
  | zero =>
    rw [Nat.pow_zero] at hlf hr
    omega
  | succ width ih =>
    rw [decimalDigits, decimalDigits] at h
    have hlen : (decimalDigits width (left / 10)).length =
        (decimalDigits width (right / 10)).length := by
      rw [length_decimalDigits, length_decimalDigits]
    obtain ⟨hf, hls⟩ := append_inj h hlen
    rw [Nat.pow_succ] at hlf hr
    have hdiv : left / 10 = right / 10 := ih (by omega) (by omega) hf
    have hmod : left % 10 = right % 10 :=
      digitChar_injective (by omega) (by omega) (List.singleton_inj.1 hls)
    omega

/-! ## Page paths -/

def pageFile (relation : String) (ordinal : Nat) : List Char :=
  (hex (textBytes relation)).toList ++ '/' :: (decimalDigits 20 ordinal ++ ".arrow".toList)

theorem toList_pagePath (epochHex queryHex relation : String) (ordinal : Nat) :
    (pagePath epochHex queryHex relation ordinal).toList =
      (pageRoot epochHex queryHex).toList ++ pageFile relation ordinal := by
  have hs : "/".toList = ['/'] := rfl
  simp only [pagePath, pageFile, toList_append, toList_ofList, append_assoc,
    hs, cons_append, nil_append]

theorem validPageFile_pageFile {relation : String} (hrel : relation ≠ "") (ordinal : Nat) :
    validPageFile (pageFile relation ordinal) = true := by
  have hp : ∀ c ∈ (hex (textBytes relation)).toList, decide (c ≠ '/') = true :=
    fun c hc => decide_eq_true (mem_hex hc).2.1
  have hspl : splitOnce '/' (pageFile relation ordinal) =
      some ((hex (textBytes relation)).toList, decimalDigits 20 ordinal ++ ".arrow".toList) := by
    unfold splitOnce pageFile
    rw [List.dropWhile_append_of_pos hp, List.takeWhile_append_of_pos hp]
    simp
  have hb : 0 < (textBytes relation).length := by
    have hsz : (textBytes relation).length = relation.utf8ByteSize := by
      rw [textBytes, Array.length_toList]
      rfl
    rw [hsz]
    exact Nat.pos_of_ne_zero fun hz => hrel (String.utf8ByteSize_eq_zero_iff.1 hz)
  have hlen := length_hex (textBytes relation)
  have hd := length_decimalDigits 20 ordinal
  unfold validPageFile
  rw [hspl]
  have ht : (decimalDigits 20 ordinal ++ ".arrow".toList).take 20 = decimalDigits 20 ordinal := by
    rw [List.take_append_of_le_length (le_of_eq hd.symm), List.take_of_length_le hd.le]
  simp only [ht, Bool.and_eq_true, Bool.not_eq_true', beq_iff_eq, List.all_eq_true]
  refine ⟨⟨⟨⟨⟨?_, by omega⟩, fun c hc => (mem_hex hc).1⟩, ?_⟩, fun c hc =>
    (mem_decimalDigits hc).1⟩,
    ?_⟩
  · exact List.isEmpty_eq_false_iff.2 (List.ne_nil_of_length_pos (by omega))
  · rw [List.length_append, hd]
    rfl
  · exact List.isSuffixOf_iff_suffix.2 (List.suffix_append _ _)

variable {epochId : Vector UInt8 16} {queryExecution : Vector UInt8 32}

theorem toNat_lt_of_all {text : String} (h : c ∈ text.toList)
    (ht : text.toList.all fun c => decide (c.toNat < 128)) : c.toNat < 128 :=
  of_decide_eq_true (List.all_eq_true.1 ht c h)

theorem mem_pageRoot (h : c ∈ (pageRoot (hex epochId.toList) (hex queryExecution.toList)).toList) :
    c.toNat < 128 := by
  simp only [pageRoot, packageRoot, toList_append, mem_append] at h
  rcases h with (((h | h) | h) | h) | h
  · exact toNat_lt_of_all h (by decide)
  · exact (mem_hex h).2.2
  · exact toNat_lt_of_all h (by decide)
  · exact (mem_hex h).2.2
  · exact toNat_lt_of_all h (by decide)

theorem length_pageRoot :
    (pageRoot (hex epochId.toList) (hex queryExecution.toList)).toList.length = 113 := by
  simp only [pageRoot, packageRoot, toList_append, List.length_append, length_hex,
    Vector.length_toList]
  rfl

theorem mem_pageFile {relation : String} {ordinal : Nat}
    (h : c ∈ pageFile relation ordinal) : c.toNat < 128 := by
  rw [pageFile, mem_append, mem_cons, mem_append] at h
  rcases h with h | rfl | h | h
  · exact (mem_hex h).2.2
  · decide
  · exact (mem_decimalDigits h).2
  · exact toNat_lt_of_all h (by decide)

/-- **The path of a page is one the coordinator accepts.** -/
theorem validPagePath_pagePath (relation : RelationId) (ordinal : Nat) :
    validPagePath (hex epochId.toList) (hex queryExecution.toList)
      (pagePath (hex epochId.toList) (hex queryExecution.toList) relation.text ordinal) = true := by
  have hch := toList_pagePath (hex epochId.toList) (hex queryExecution.toList) relation.text ordinal
  have ha : ∀ c ∈ (pagePath (hex epochId.toList) (hex queryExecution.toList) relation.text
      ordinal).toList, c.toNat < 128 := by
    intro c hc
    rw [hch, List.mem_append] at hc
    exact hc.elim mem_pageRoot mem_pageFile
  have hsz := utf8ByteSize_ofList ha
  rw [ofList_toList, hch, List.length_append, length_pageRoot] at hsz
  have hf : (pageFile relation.text ordinal).length =
    2 * (textBytes relation.text).length + 27 := by
    rw [pageFile, List.length_append, List.length_cons, List.length_append, length_hex,
      length_decimalDigits]
    rfl
  have hb : (textBytes relation.text).length ≤ 240 := by
    have hlen : (textBytes relation.text).length = relation.text.utf8ByteSize := by
      rw [textBytes, Array.length_toList]
      rfl
    exact hlen.trans_le relation.bounded
  have hst : stripStart (pageRoot (hex epochId.toList) (hex queryExecution.toList)).toList
      (pagePath (hex epochId.toList) (hex queryExecution.toList) relation.text ordinal).toList =
        some (pageFile relation.text ordinal) := by
    rw [hch, stripStart, if_pos (List.isPrefixOf_iff_prefix.2 (List.prefix_append _ _)),
      List.drop_left]
  unfold validPagePath
  rw [hst, isAscii]
  simp only [Bool.and_eq_true, decide_eq_true_eq, List.all_eq_true]
  exact ⟨⟨ha, by omega⟩, validPageFile_pageFile relation.nonempty ordinal⟩

theorem pageFile_injective {left right : String} {first second : Nat}
    (h : pageFile left first = pageFile right second) :
    decimalDigits 20 first = decimalDigits 20 second := by
  have hp : ∀ text : String, ∀ c ∈ (hex (textBytes text)).toList, decide (c ≠ '/') = true :=
    fun text c hc => decide_eq_true (mem_hex hc).2.1
  have hd := congrArg (dropWhile fun c => decide (c ≠ '/')) h
  unfold pageFile at hd
  rw [dropWhile_append_of_pos (hp left), dropWhile_append_of_pos (hp right)] at hd
  simp only [ne_eq, not_true_eq_false, decide_false, Bool.false_eq_true, not_false_eq_true,
    dropWhile_cons_of_neg, List.cons.injEq, true_and] at hd
  exact append_cancel_right hd

/-- **Pages of different ordinals have different paths**, whatever their relations. -/
theorem pagePath_ordinal {epochHex queryHex left right : String} {first second : Nat}
    (hfst : first < 2 ^ 64) (hsnd : second < 2 ^ 64)
    (h : pagePath epochHex queryHex left first = pagePath epochHex queryHex right second) :
    first = second := by
  have hc := congrArg toList h
  rw [toList_pagePath, toList_pagePath] at hc
  have hbd : 2 ^ 64 < 10 ^ 20 := by norm_num
  exact decimalDigits_injective (hfst.trans hbd) (hsnd.trans hbd)
    (pageFile_injective (append_cancel_left hc))

/-- **No page has the path of the manifest.** -/
theorem pagePath_ne_manifestPath {epochHex queryHex relation : String} {ordinal : Nat} :
    pagePath epochHex queryHex relation ordinal ≠ manifestPath epochHex queryHex := by
  intro h
  have hc := congrArg toList h
  rw [toList_pagePath, pageRoot, manifestPath, toList_append, toList_append,
    List.append_assoc] at hc
  have ht := List.append_cancel_left hc
  have hpg : "/pages/".toList = ['/', 'p', 'a', 'g', 'e', 's', '/'] := rfl
  have hman : "/manifest.json".toList = '/' :: 'm' :: "anifest.json".toList := rfl
  rw [hpg, hman] at ht
  simp at ht

/-- **A set of different page paths of one package is one the coordinator accepts.** -/
theorem valid_of_pagePaths {pages : List String} (hlen : pages.length ≤ 4096) (hnd : pages.Nodup)
    (hp : ∀ path ∈ pages, ∃ (relation : RelationId) (ordinal : Nat),
      path = pagePath (hex epochId.toList) (hex queryExecution.toList) relation.text ordinal) :
    validPendingResultObjectSet
      ⟨manifestPath (hex epochId.toList) (hex queryExecution.toList), pages, hex epochId.toList,
        hex queryExecution.toList⟩ = true := by
  simp only [validPendingResultObjectSet, Bool.and_eq_true, all_eq_true, Bool.not_eq_true',
    decodeHexArray_hex]
  refine ⟨⟨⟨rfl, ⟨⟨decide_eq_true hlen, fun path hmem => ?_⟩, decide_eq_true hnd⟩, ?_⟩, rfl⟩, rfl⟩
  · obtain ⟨relation, ordinal, rfl⟩ := hp path hmem
    exact validPagePath_pagePath relation ordinal
  · rw [any_eq_false]
    intro path hmem
    obtain ⟨relation, ordinal, rfl⟩ := hp path hmem
    exact fun h => pagePath_ne_manifestPath (beq_iff_eq.1 h)

end CodeFabric.Result
