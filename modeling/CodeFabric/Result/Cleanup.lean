import Mathlib
import CodeFabric.Result.Paths

/-! # Cleaning up a recorded object set

The coordinator checks an object set when it is recorded; the registry checks the same set again
before it deletes its objects. -/

namespace CodeFabric.Result

open Query Fallible List

/-! ## The registry's checks -/

/-- A part of an object path that the object store keeps as it is. -/
def CleanPart (part : List Char) : Prop :=
  part.all (fun c => c.isAlphanum || c == '.') ∧ part.any Char.isAlphanum

/-- The paths of the object store, by their text. `ofText` is `ObjectPath::from`: it drops empty
parts and encodes what a path may not hold, and other text it leaves alone. -/
structure ObjectPaths where
  ofText : String → String
  ofText_clean : ∀ text, (∀ part ∈ text.toList.splitOn '/', CleanPart part) → ofText text = text

/-- What a cleanup returns of `StreamedResultRegistryError`. -/
inductive CleanupError
  | recoveryUnavailable
  | retainedLocatorMismatch
  | package (error : StreamedResultPackageError)
  deriving DecidableEq, Repr

/-- The package builder of a registry: its limits, and what the storage answers to the deletion of
an object of at most so many bytes. -/
structure PackageBuilder where
  limits : StreamedResultPackageLimits
  delete : String → Nat → Except StreamedResultPackageError Unit

/-- Delete pages and then their manifest, and stop at the first failure. -/
def PackageBuilder.deleteObjects (builder : PackageBuilder) (pages : List String)
    (manifest : String) : Except StreamedResultPackageError Unit := do
  pages.forM fun page => builder.delete page builder.limits.maxPageBytes
  builder.delete manifest builder.limits.maxManifestBytes

/-- The deletion of an object set (`delete_exact_object_set`). -/
def PackageBuilder.deleteRetainedObjectSet (builder : PackageBuilder) (pages : List String)
    (manifest : String) : Except StreamedResultPackageError Unit := do
  ensure (pages.length ≤ builder.limits.maxPages) .manifestShape
  builder.deleteObjects pages manifest

variable (paths : ObjectPaths)

/-- The path of a page or of a manifest (`validated_private_object_path`). -/
def validatedPrivateObjectPath (value : String) (page : Bool) : Except CleanupError String := do
  let suffix := if page then ".arrow" else "/manifest.json"
  ensure (¬(value = "" ∨ 1024 < value.utf8ByteSize ∨ isAscii value = false ∨
    ¬"packages/".toList <+: value.toList ∨ ¬suffix.toList <:+ value.toList ∨
    (page ∧ ¬"/pages/".toList <:+: value.toList) ∨
    ∃ part ∈ value.toList.splitOn '/', part = [] ∨ part = ['.', '.'])) .retainedLocatorMismatch
  return paths.ofText value

/-- What precedes a suffix of a text (`str::strip_suffix`). -/
def stripEnd (suffix text : String) : Option String :=
  if suffix.toList <:+ text.toList then
    some (String.ofList (text.toList.take (text.toList.length - suffix.toList.length)))
  else none

/-- Delete the objects of a pending set (`cleanup_pending_object_set`). -/
def cleanupPendingObjectSet (packageBuilder : Option PackageBuilder)
    (objectSet : PendingResultObjectSet) : Except CleanupError Unit := do
  let builder ← okOr packageBuilder .recoveryUnavailable
  let manifest ← validatedPrivateObjectPath paths objectSet.manifestObjectPath false
  let pages ← objectSet.pageObjectPaths.mapM (validatedPrivateObjectPath paths · true)
  let root ← okOr (stripEnd "/manifest.json" objectSet.manifestObjectPath) .retainedLocatorMismatch
  let expectedRoot := packageRoot objectSet.epochId objectSet.queryExecution
  ensure (¬(root ≠ expectedRoot ∨ 1024 < pages.length ∨ ¬pages.Nodup ∨
    ∃ path ∈ objectSet.pageObjectPaths, ¬(root ++ "/pages/").toList <+: path.toList))
    .retainedLocatorMismatch
  (builder.deleteRetainedObjectSet pages manifest).mapError .package

/-! ## What the coordinator accepted -/

theorem isHexDigit_spec {c : Char} (h : isHexDigit c) : c.isAlphanum ∧ c.toNat < 128 := by
  have hval : c.toNat = c.val.toNat := rfl
  simp only [isHexDigit, Char.isAlphanum, Char.isAlpha, Char.isUpper, Char.isLower, Char.isDigit,
    Bool.or_eq_true, Bool.and_eq_true, decide_eq_true_eq, Char.le_def, UInt32.le_iff_toNat_le,
    ge_iff_le, Char.reduceVal, UInt32.reduceToNat] at h ⊢
  omega

theorem isHexDigit_of_decodeNibble {c : Char} (h : (decodeNibble c).isSome) : isHexDigit c := by
  simp only [isHexDigit, Bool.or_eq_true, Bool.and_eq_true, decide_eq_true_eq]
  unfold decodeNibble at h
  split_ifs at h with hd hl
  · rw [Char.isDigit, Bool.and_eq_true, decide_eq_true_eq, decide_eq_true_eq]
    exact .inl (.inl hd)
  · exact .inl (.inr hl)
  · cases h

theorem of_decodeHexDigits {chars : List Char} {bytes : List UInt8}
    (h : decodeHexDigits chars = some bytes) :
    chars.length = 2 * bytes.length ∧ ∀ c ∈ chars, isHexDigit c := by
  induction chars using decodeHexDigits.induct generalizing bytes with
  | case1 =>
    cases h
    exact ⟨rfl, by simp⟩
  | case2 _ _ _ ih =>
    simp only [decodeHexDigits, Option.bind_eq_bind, Option.bind_eq_some_iff, Option.pure_def,
      Option.some.injEq] at h
    obtain ⟨_, hh, _, hlow, _, ht, rfl⟩ := h
    obtain ⟨hlen, hall⟩ := ih ht
    refine ⟨by simp only [length_cons, hlen]; omega, ?_⟩
    exact List.forall_mem_cons.2 ⟨isHexDigit_of_decodeNibble (hh ▸ rfl),
      List.forall_mem_cons.2 ⟨isHexDigit_of_decodeNibble (hlow ▸ rfl), hall⟩⟩
  | case3 => cases h

theorem of_decodeHexArray {width : Nat} {text : String} (h : (decodeHexArray width text).isSome) :
    text.toList.length = 2 * width ∧ ∀ c ∈ text.toList, isHexDigit c := by
  obtain ⟨_, h⟩ := Option.isSome_iff_exists.1 h
  simp only [decodeHexArray, decodeHex, Option.bind_eq_bind, Option.bind_eq_some_iff] at h
  obtain ⟨_, hd, h⟩ := h
  split_ifs at h with hw
  rw [← hw]
  exact of_decodeHexDigits hd

theorem cleanPart_hex {part : List Char} (hne : part ≠ []) (h : ∀ c ∈ part, isHexDigit c) :
    CleanPart part := by
  have hal : ∀ c ∈ part, c.isAlphanum := fun c hc => (isHexDigit_spec (h c hc)).1
  exact ⟨List.all_eq_true.2 fun c hc => by simp [hal c hc],
    List.any_eq_true.2 ⟨part.head hne, head_mem hne, hal _ (head_mem hne)⟩⟩

theorem of_splitOnce {c : Char} {text front rest : List Char}
    (h : splitOnce c text = some (front, rest)) : text = front ++ c :: rest := by
  unfold splitOnce at h
  split at h
  · cases h
  · rename_i d tail hd
    cases h
    have hc : d = c := by
      have hh := head?_dropWhile_not (fun x => decide (x ≠ c)) text
      rw [hd] at hh
      simpa using hh
    rw [hc] at hd
    rw [← hd, takeWhile_append_dropWhile]

/-- An accepted page file is a directory of hexadecimal digits and a file of digits. -/
theorem of_validPageFile {relative : List Char} (h : validPageFile relative) :
    ∃ relation file, relative = relation ++ '/' :: file ∧ CleanPart relation ∧ CleanPart file ∧
      ".arrow".toList <:+ file := by
  unfold validPageFile at h
  split at h
  · cases h
  rename_i relation file hs
  simp only [Bool.and_eq_true, Bool.not_eq_true', beq_iff_eq, all_eq_true,
    isSuffixOf_iff_suffix] at h
  obtain ⟨⟨⟨⟨⟨hne, -⟩, hhex⟩, hlen⟩, hd⟩, hsuf⟩ := h
  refine ⟨relation, file, of_splitOnce hs,
    cleanPart_hex (List.isEmpty_eq_false_iff.1 hne) hhex, ?_, hsuf⟩
  obtain ⟨front, rfl⟩ := hsuf
  have hf : front.length = 20 := by
    rw [length_append] at hlen
    exact Nat.add_right_cancel (hlen.trans rfl)
  rw [take_append_of_le_length hf.ge, take_of_length_le hf.le] at hd
  have harrow : CleanPart ".arrow".toList := ⟨by decide, by decide⟩
  rw [CleanPart, all_append, any_append, harrow.1, harrow.2, Bool.and_true, Bool.or_true]
  exact ⟨List.all_eq_true.2 fun c hc => by simp [Char.isAlphanum, hd c hc], rfl⟩

/-! ## Both checks together -/

section

theorem validatedPrivateObjectPath_eq_ok {value : String} {page : Bool}
    (hsz : value.utf8ByteSize ≤ 1024) (hasc : isAscii value)
    (hst : "packages/".toList <+: value.toList)
    (hend : (if page then ".arrow" else "/manifest.json").toList <:+ value.toList)
    (hpg : page → "/pages/".toList <:+: value.toList)
    (hcl : ∀ part ∈ value.toList.splitOn '/', CleanPart part) :
    validatedPrivateObjectPath paths value page = .ok value := by
  have hne : value ≠ "" := by
    rintro rfl
    exact absurd (List.prefix_nil.1 hst) (by decide)
  have hpr : ¬∃ part ∈ value.toList.splitOn '/', part = [] ∨ part = ['.', '.'] := by
    rintro ⟨part, hp, rfl | rfl⟩
    · exact absurd (hcl _ hp).2 (by decide)
    · exact absurd (hcl _ hp).2 (by decide)
  have hpt := paths.ofText_clean value hcl
  simp only [validatedPrivateObjectPath, ok_iff, not_or, not_and, not_not, Bool.not_eq_false,
    not_lt]
  exact ⟨(), ⟨hne, hsz, hasc, hst, hend, hpg, hpr⟩, hpt⟩

variable {epochId queryExecution : String} (he : (decodeHexArray 16 epochId).isSome)
  (hq : (decodeHexArray 32 queryExecution).isSome)

include he hq

/-- A text under the root of a package, put together from clean parts, has these parts. -/
theorem cleanParts_root {text : String} {parts : List (List Char)}
    (h : ∀ part ∈ parts, CleanPart part) (ht : text.toList = ['/'].intercalate
      ("packages".toList :: epochId.toList :: queryExecution.toList :: parts)) :
    ∀ part ∈ text.toList.splitOn '/', CleanPart part := by
  obtain ⟨_, heh⟩ := of_decodeHexArray he
  obtain ⟨_, hqh⟩ := of_decodeHexArray hq
  have hpk : CleanPart "packages".toList := ⟨by decide, by decide⟩
  have hall := List.forall_mem_cons.2 ⟨hpk, List.forall_mem_cons.2
    ⟨cleanPart_hex (ne_nil_of_length_pos (by omega)) heh, List.forall_mem_cons.2
      ⟨cleanPart_hex (ne_nil_of_length_pos (by omega)) hqh, h⟩⟩⟩
  rw [ht, splitOn_intercalate '/'
    (fun part hp hc => absurd (List.all_eq_true.1 (hall part hp).1 _ hc) (by decide)) (by simp)]
  exact hall

theorem validated_manifestPath :
    validatedPrivateObjectPath paths (manifestPath epochId queryExecution) false =
      .ok (manifestPath epochId queryExecution) := by
  obtain ⟨hel, heh⟩ := of_decodeHexArray he
  obtain ⟨hql, hqh⟩ := of_decodeHexArray hq
  have hch : (manifestPath epochId queryExecution).toList = "packages/".toList ++
      (epochId.toList ++ ('/' :: (queryExecution.toList ++ "/manifest.json".toList))) := by
    simp [manifestPath, packageRoot]
  have ha : ∀ c ∈ (manifestPath epochId queryExecution).toList, c.toNat < 128 := by
    intro c hc
    rw [hch, mem_append, mem_append, mem_cons, mem_append] at hc
    rcases hc with hc | hc | rfl | hc | hc
    · exact toNat_lt_of_all hc (by decide)
    · exact (isHexDigit_spec (heh c hc)).2
    · decide
    · exact (isHexDigit_spec (hqh c hc)).2
    · exact toNat_lt_of_all hc (by decide)
  have hs := utf8ByteSize_ofList ha
  rw [String.ofList_toList, hch] at hs
  simp only [length_append, length_cons, hel, hql] at hs
  refine validatedPrivateObjectPath_eq_ok paths ?_ ?_ ?_ ?_ ?_ ?_
  · exact hs.trans_le (by decide)
  · rw [isAscii, all_eq_true]
    exact fun c hc => decide_eq_true (ha c hc)
  · exact hch ▸ prefix_append _ _
  · rw [manifestPath, String.toList_append]
    exact suffix_append _ _
  · exact fun h => absurd h (by decide)
  · have hman : CleanPart "manifest.json".toList := ⟨by decide, by decide⟩
    refine cleanParts_root he hq (List.forall_mem_singleton.2 hman) ?_
    simp [manifestPath, packageRoot, intercalate]

theorem validated_pagePath {page : String} (h : validPagePath epochId queryExecution page) :
    validatedPrivateObjectPath paths page true = .ok page ∧
      (packageRoot epochId queryExecution ++ "/pages/").toList <+: page.toList := by
  simp only [validPagePath, Bool.and_eq_true, decide_eq_true_eq] at h
  obtain ⟨⟨ha, hsz⟩, h⟩ := h
  split at h
  · cases h
  rename_i relative hs
  obtain ⟨_, _, rfl, hrel, hf, hsuf⟩ := of_validPageFile h
  unfold stripStart at hs
  split_ifs at hs with hpre
  have hst := List.isPrefixOf_iff_prefix.1 hpre
  have hc := List.prefix_iff_eq_append.1 hst
  rw [Option.some.inj hs] at hc
  refine ⟨validatedPrivateObjectPath_eq_ok paths hsz ha ?_ ?_ (fun _ => ?_) ?_, hst⟩
  · refine List.IsPrefix.trans ?_ hst
    simp [pageRoot, packageRoot]
  · rw [← hc]
    exact (hsuf.trans (suffix_cons _ _)).trans ((suffix_append _ _).trans (suffix_append _ _))
  · refine List.IsInfix.trans ?_ hst.isInfix
    rw [pageRoot, String.toList_append]
    exact (suffix_append _ _).isInfix
  · have hpg : CleanPart "pages".toList := ⟨by decide, by decide⟩
    refine cleanParts_root he hq (List.forall_mem_cons.2 ⟨hpg,
      List.forall_mem_cons.2 ⟨hrel, List.forall_mem_singleton.2 hf⟩⟩) ?_
    rw [← hc]
    simp [pageRoot, packageRoot, intercalate]

end

theorem stripEnd_append (suffix text : String) : stripEnd suffix (text ++ suffix) = some text := by
  have hlen : text.toList.length + suffix.toList.length - suffix.toList.length =
      text.toList.length := Nat.add_sub_cancel _ _
  rw [stripEnd, String.toList_append, if_pos (suffix_append _ _), length_append, hlen,
    take_left, String.ofList_toList]

/-- The registry's checks of a set the coordinator accepts come down to the number of pages. -/
theorem cleanup_of_valid {objectSet : PendingResultObjectSet}
    (h : validPendingResultObjectSet objectSet) (builder : PackageBuilder) :
    cleanupPendingObjectSet paths (some builder) objectSet =
      if objectSet.pageObjectPaths.length ≤ 1024 then
        (builder.deleteRetainedObjectSet objectSet.pageObjectPaths
          objectSet.manifestObjectPath).mapError .package
      else .error .retainedLocatorMismatch := by
  simp only [validPendingResultObjectSet, Bool.and_eq_true, decide_eq_true_eq, all_eq_true] at h
  obtain ⟨⟨⟨hman, ⟨⟨-, hpg⟩, hnd⟩, -⟩, he⟩, hq⟩ := h
  have hmn := validated_manifestPath paths he hq
  have hpages : objectSet.pageObjectPaths.mapM (validatedPrivateObjectPath paths · true) =
      .ok objectSet.pageObjectPaths :=
    mapM_eq_ok.2 (List.forall₂_same.2 fun page hp =>
      (validated_pagePath paths he hq (hpg page hp)).1)
  have hs : ¬∃ path ∈ objectSet.pageObjectPaths,
      ¬(packageRoot objectSet.epochId objectSet.queryExecution ++ "/pages/").toList <+:
        path.toList := by
    rintro ⟨path, hp, hn⟩
    exact hn (validated_pagePath paths he hq (hpg path hp)).2
  have hr : stripEnd "/manifest.json" (manifestPath objectSet.epochId objectSet.queryExecution) =
      some (packageRoot objectSet.epochId objectSet.queryExecution) :=
    stripEnd_append _ _
  unfold cleanupPendingObjectSet
  rw [hpages, hman, hmn, hr]
  simp only [okOr, bind, Except.bind, ensure, hs, hnd, ne_eq, not_true_eq_false,
    false_or, or_false, not_lt]
  split_ifs <;> rfl

/-- **A set the coordinator accepts is deleted exactly when it is short enough**: all its pages in
their order and then its manifest, whatever the storage answers, if and only if it has at most 1024
pages and no more than the builder's limit. -/
theorem cleanup_deletes_iff {objectSet : PendingResultObjectSet}
    (h : validPendingResultObjectSet objectSet) (limits : StreamedResultPackageLimits) :
    (∀ delete, cleanupPendingObjectSet paths (some ⟨limits, delete⟩) objectSet =
      ((PackageBuilder.mk limits delete).deleteObjects objectSet.pageObjectPaths
        objectSet.manifestObjectPath).mapError .package) ↔
    objectSet.pageObjectPaths.length ≤ 1024 ∧
      objectSet.pageObjectPaths.length ≤ limits.maxPages := by
  simp only [cleanup_of_valid paths h]
  constructor
  · intro hall
    -- a storage that deletes everything shows which of the two bounds failed
    have hok := hall fun _ _ => .ok ()
    have hdel : (PackageBuilder.mk limits fun _ _ => .ok ()).deleteObjects objectSet.pageObjectPaths
        objectSet.manifestObjectPath = .ok () := by
      rw [PackageBuilder.deleteObjects, bind_eq_ok]
      exact ⟨(), forM_eq_ok.2 fun _ _ => rfl, rfl⟩
    rw [hdel] at hok
    split_ifs at hok with hlen
    · have hlim := mapError_eq_ok.1 hok
      rw [PackageBuilder.deleteRetainedObjectSet, bind_eq_ok] at hlim
      obtain ⟨_, hlim, -⟩ := hlim
      exact ⟨hlen, ensure_eq_ok.1 hlim⟩
    · cases hok
  · rintro ⟨hlen, hlim⟩ delete
    rw [if_pos hlen, PackageBuilder.deleteRetainedObjectSet, ensure, if_pos hlim]
    rfl

/-- The object set of a package with so many pages of one relation. -/
def recordedSet (pages : Nat) : PendingResultObjectSet :=
  let epochId := hex (Vector.replicate 16 (0 : UInt8)).toList
  let queryExecution := hex (Vector.replicate 32 (0 : UInt8)).toList
  ⟨manifestPath epochId queryExecution,
    (List.range pages).map (pagePath epochId queryExecution "rows"), epochId, queryExecution⟩

theorem valid_recordedSet {pages : Nat} (h : pages ≤ 4096) :
    validPendingResultObjectSet (recordedSet pages) := by
  have hlt : ∀ ordinal ∈ List.range pages, ordinal < 2 ^ 64 := fun ordinal ho =>
    (List.mem_range.1 ho).trans_le (h.trans (by norm_num))
  refine valid_of_pagePaths (by simpa using h) ?_ fun _ hp => ?_
  · exact List.nodup_range.map_on fun first hf second hs heq =>
      pagePath_ordinal (hlt first hf) (hlt second hs) heq
  · obtain ⟨ordinal, -, rfl⟩ := List.mem_map.1 hp
    exact ⟨⟨"rows", by decide, by decide⟩, ordinal, rfl⟩

/-- A package of three pages is deleted, under limits of three pages. -/
theorem cleanup_deletes_three : ∃ (paths : ObjectPaths) (limits : StreamedResultPackageLimits),
    validPendingResultObjectSet (recordedSet 3) ∧
    ∀ delete, cleanupPendingObjectSet paths (some ⟨limits, delete⟩) (recordedSet 3) =
      ((PackageBuilder.mk limits delete).deleteObjects (recordedSet 3).pageObjectPaths
        (recordedSet 3).manifestObjectPath).mapError .package :=
  ⟨⟨id, fun _ _ => rfl⟩, ⟨1, 3, 1, 1, 1, 1, 1, 1, 1⟩, valid_recordedSet (by decide),
    (cleanup_deletes_iff ⟨id, fun _ _ => rfl⟩ (valid_recordedSet (by decide))
      ⟨1, 3, 1, 1, 1, 1, 1, 1, 1⟩).2 ⟨by decide, by decide⟩⟩

/-- A package of 1025 pages is accepted by the coordinator and never deleted. -/
theorem cleanup_rejects_accepted : validPendingResultObjectSet (recordedSet 1025) ∧
    ∀ (paths : ObjectPaths) (builder : PackageBuilder),
      cleanupPendingObjectSet paths (some builder) (recordedSet 1025) =
        .error .retainedLocatorMismatch := by
  have hv : validPendingResultObjectSet (recordedSet 1025) := valid_recordedSet (by decide)
  refine ⟨hv, fun paths builder => ?_⟩
  rw [cleanup_of_valid paths hv, if_neg]
  simp [recordedSet]

end CodeFabric.Result
