import Mathlib
import CodeFabric.Result.Package

/-! # Ranged reads

Reading a sealed page in chunks: `read_page_range` (`fabric/streamed_result_package.rs`), which
verifies the whole page in windows and keeps the requested range, and the registry's `read` over it
(`fabric/streamed_result_registry.rs`).

Who may read, and which resource a handle names, is decided before: a read is given its source. -/

namespace CodeFabric.Result

open List hiding Vector

open Fallible
open Query (hex)
open Budget (ResourceBudgetError)

/-! ## The sink -/

structure ResultObjectSink where
  size : String → Except StreamedResultPackageError Nat
  readRange : String → Nat → Nat → Except StreamedResultPackageError (List UInt8)

def rangeOf (content : List UInt8) (start stop : Nat) : List UInt8 := (content.take stop).drop start

/-- A sink has a content at a path, and returns exactly the requested range. -/
structure ResultObjectSink.Holds (sink : ResultObjectSink) (path : String) (content : List UInt8) :
    Prop where
  size : sink.size path = .ok content.length
  readRange : ∀ start stop, start ≤ stop → stop ≤ content.length →
    sink.readRange path start stop = .ok (rangeOf content start stop)

/-! ## Reading a page -/

/-- A sealed package as far as reads are concerned. -/
structure SealedPages where
  sink : ResultObjectSink
  digest : List UInt8 → Vector UInt8 32
  /-- Reserve memory of the control class. -/
  reserve : Nat → Except ResourceBudgetError Unit
  issuedAtUnixMs : Int
  expiresAtUnixMs : Int
  pages : List ResultPageManifestEntry

namespace SealedPages

variable (package : SealedPages)

/-- The windows of a page, each at most as long as the chunk: the requested bytes, and all bytes. -/
def readWindows (ordinal : Nat) (path : String) (length maximumBytes offset stop : Nat) :
    Nat → Nat → List UInt8 → List UInt8 →
      Except StreamedResultPackageError (List UInt8 × List UInt8)
  | 0, _, output, seen => .ok (output, seen)
  | windows + 1, position, output, seen =>
      if position < length then do
        let rangeEnd := min (saturatingAdd position maximumBytes) length
        let bytes ← package.sink.readRange path position rangeEnd
        ensure (bytes.length = rangeEnd - position) (.pageIntegrity ordinal)
        let selectedStart := max offset position
        let selectedEnd := min stop rangeEnd
        let output := if selectedStart < selectedEnd
          then output ++ rangeOf bytes (selectedStart - position) (selectedEnd - position)
          else output
        readWindows ordinal path length maximumBytes offset stop windows rangeEnd output
          (seen ++ bytes)
      else .ok (output, seen)

/-- Verify a page and return a range of it (`read_page_range`). A page has at most as many windows
as bytes. -/
def readPageRange (ordinal offset maximumBytes : Nat) (observedAtUnixMs : Int) :
    Except StreamedResultPackageError (List UInt8) := do
  ensure (¬(observedAtUnixMs < package.issuedAtUnixMs ∨
    package.expiresAtUnixMs ≤ observedAtUnixMs)) .expired
  let page ← okOr package.pages[ordinal]? (.unknownPage ordinal)
  ensure (¬(maximumBytes = 0 ∨ page.byteLength < offset)) .invalidReadRange
  let stop := min (saturatingAdd offset maximumBytes) page.byteLength
  (package.reserve (stop - offset)).mapError .resource
  (package.reserve maximumBytes).mapError .resource
  let size ← package.sink.size page.objectPath
  ensure (size = page.byteLength) (.pageIntegrity ordinal)
  let (output, seen) ← package.readWindows ordinal page.objectPath page.byteLength maximumBytes
    offset stop page.byteLength 0 [] []
  ensure (hex (package.digest seen).toList = page.contentChecksum) (.pageIntegrity ordinal)
  let size ← package.sink.size page.objectPath
  ensure (size = page.byteLength) (.pageIntegrity ordinal)
  return output

end SealedPages

/-! ## The registry's read -/

inductive StreamedResultRegistryError
  | invalidChunkBound
  | resource (error : ResourceBudgetError)
  | rangeOutsideResource
  | resourceIntegrity
  | sourceAccessDenied
  | package (error : StreamedResultPackageError)
  deriving DecidableEq, Repr

/-- What a handle names: the bytes of a manifest or a reference, or a page of a package. -/
inductive ResultReadSource
  | manifest (bytes : List UInt8)
  | page (package : SealedPages) (ordinal : Nat)

/-- A registry: the longest chunk, its budget, and whether a source may still be disclosed after the
bytes were read. -/
structure ResultRegistry where
  maximumChunkBytes : Nat
  reserveJob : Except ResourceBudgetError Unit
  reserveBytes : Nat → Except ResourceBudgetError Unit
  digest : List UInt8 → Vector UInt8 32
  disclosed : Bool

structure StreamedResourceChunk where
  offset : Nat
  nextOffset : Nat
  totalLength : Nat
  contentChecksum : String
  bytes : List UInt8
  complete : Bool
  deriving DecidableEq, Repr

def checksum (digest : List UInt8 → Vector UInt8 32) (bytes : List UInt8) : String :=
  "b3:" ++ hex (digest bytes).toList

def ResultRegistry.readSource (registry : ResultRegistry) (source : ResultReadSource)
    (expectedChecksum : String) (length start stop maximumBytes : Nat) (observedAtUnixMs : Int) :
    Except StreamedResultRegistryError (List UInt8) :=
  match source with
  | .manifest bytes => do
      ensure (¬(bytes.length ≠ length ∨ checksum registry.digest bytes ≠ expectedChecksum))
        .resourceIntegrity
      (registry.reserveBytes (stop - start)).mapError .resource
      return rangeOf bytes start stop
  | .page package ordinal => do
      let bytes ← (package.readPageRange ordinal start maximumBytes observedAtUnixMs).mapError
        .package
      ensure (bytes.length = stop - start) .resourceIntegrity
      return bytes

/-- Read one chunk of a source of known length and checksum (`read`). -/
def ResultRegistry.read (registry : ResultRegistry) (source : ResultReadSource)
    (totalLength : Nat) (expectedChecksum : String) (offset maximumBytes : Nat)
    (observedAtUnixMs : Int) : Except StreamedResultRegistryError StreamedResourceChunk := do
  ensure (¬(maximumBytes = 0 ∨ registry.maximumChunkBytes < maximumBytes)) .invalidChunkBound
  registry.reserveJob.mapError .resource
  ensure (offset ≤ totalLength) .rangeOutsideResource
  let stop := min (saturatingAdd offset maximumBytes) totalLength
  let bytes ← registry.readSource source expectedChecksum totalLength offset stop maximumBytes
    observedAtUnixMs
  ensure (registry.disclosed = true) .sourceAccessDenied
  return ⟨offset, stop, totalLength, expectedChecksum, bytes, stop == totalLength⟩

/-- Read chunk after chunk: the requested sizes and times, from an offset on. -/
def ResultRegistry.follow (registry : ResultRegistry) (source : ResultReadSource)
    (totalLength : Nat) (expectedChecksum : String) :
    List (Nat × Int) → Nat → Except StreamedResultRegistryError (List StreamedResourceChunk)
  | [], _ => .ok []
  | (maximumBytes, observedAt) :: requests, offset => do
    let chunk ← registry.read source totalLength expectedChecksum offset maximumBytes observedAt
    if chunk.complete then return [chunk] else
      return chunk :: (← follow registry source totalLength expectedChecksum requests
        chunk.nextOffset)

/-! ## Windows -/

section

variable {content : List UInt8} {start middle stop : Nat}

theorem rangeOf_of_le (h : stop ≤ start) : rangeOf content start stop = [] :=
  drop_eq_nil_of_le ((length_take_le _ _).trans h)

theorem rangeOf_append (hsta : start ≤ middle) (hst : middle ≤ stop) :
    rangeOf content start middle ++ rangeOf content middle stop = rangeOf content start stop := by
  have ht : content.take middle = (content.take stop).take middle := by
    rw [take_take, min_eq_left hst]
  rw [rangeOf, ht, rangeOf, rangeOf]
  generalize content.take stop = bytes
  have hspl : bytes.drop start = (bytes.take middle ++ bytes.drop middle).drop start := by
    rw [take_append_drop]
  rw [hspl, drop_append, length_take]
  rcases le_total middle bytes.length with hi | hb
  · rw [min_eq_left hi, Nat.sub_eq_zero_of_le hsta, drop_zero]
  · rw [drop_eq_nil_of_le hb, drop_nil]

theorem rangeOf_rangeOf {first last : Nat} (hfst : start ≤ first) (hl : last ≤ stop)
    (hne : first < last) : rangeOf (rangeOf content start stop) (first - start) (last - start) =
      rangeOf content first last := by
  rw [rangeOf, rangeOf, take_drop, take_take, drop_drop, rangeOf]
  congr 2 <;> omega

theorem rangeOf_all : rangeOf content 0 content.length = content := by
  rw [rangeOf, drop_zero, take_length]

theorem length_rangeOf (hs : stop ≤ content.length) :
    (rangeOf content start stop).length = stop - start := by
  rw [rangeOf, length_drop, length_take, min_eq_left hs]

theorem rangeOf_window {offset position rangeEnd : Nat} (hn : position < rangeEnd) :
    (if max offset position < min stop rangeEnd then rangeOf content offset (min stop position) ++
        rangeOf (rangeOf content position rangeEnd) (max offset position - position)
          (min stop rangeEnd - position)
      else rangeOf content offset (min stop position)) =
      rangeOf content offset (min stop rangeEnd) := by
  split
  next ho =>
    rw [rangeOf_rangeOf (le_max_right _ _) (min_le_right _ _) ho]
    rcases le_total position offset with hbef | haf
    · rw [rangeOf_of_le ((min_le_right _ _).trans hbef), max_eq_left hbef, nil_append]
    · rw [max_eq_right haf, min_eq_right (by omega), rangeOf_append haf (by omega)]
  next hap =>
    rcases le_total position offset with hbef | haf
    · rw [rangeOf_of_le (by omega), rangeOf_of_le (by omega)]
    · rw [min_eq_left (by omega : stop ≤ position), min_eq_left (by omega : stop ≤ rangeEnd)]

end

theorem min_saturatingAdd {left right length : Nat} (h : length < 2 ^ 64) :
    min (saturatingAdd left right) length = min (left + right) length := by
  rw [saturatingAdd]
  omega

namespace SealedPages

variable {package : SealedPages} {maximumBytes : Nat} {path : String} {content : List UInt8}

theorem readWindows_eq (ordinal offset stop : Nat) (hh : package.sink.Holds path content)
    (hln : content.length < 2 ^ 64) (hc : 0 < maximumBytes) {windows position : Nat}
    (hpos : position ≤ content.length) (hwin : content.length - position ≤ windows) :
    package.readWindows ordinal path content.length maximumBytes offset stop windows position
        (rangeOf content offset (min stop position)) (rangeOf content 0 position) =
      .ok (rangeOf content offset (min stop content.length), content) := by
  -- The windows before a position have read `0..position` and kept its part of `offset..stop`.
  induction windows generalizing position with
  | zero =>
    obtain rfl : position = content.length := by omega
    rw [readWindows, rangeOf_all]
  | succ windows ih =>
    rw [readWindows]
    split
    next hm =>
      have hend : min (saturatingAdd position maximumBytes) content.length =
          min (position + maximumBytes) content.length := min_saturatingAdd hln
      generalize hn : min (position + maximumBytes) content.length = rangeEnd at hend
      simp only [hend, hh.readRange position rangeEnd (by omega) (by omega)]
      have hlen : (rangeOf content position rangeEnd).length = rangeEnd - position :=
        length_rangeOf (by omega)
      change (ensure _ _ >>= fun _ => _) = _
      rw [ensure, if_pos hlen]
      rw [rangeOf_window (by omega), rangeOf_append (Nat.zero_le _) (by omega)]
      exact ih (by omega) (by omega)
    next hd =>
      obtain rfl : position = content.length := by omega
      rw [rangeOf_all]

end SealedPages

/-! ## Stored pages -/

def Matches (digest : List UInt8 → Vector UInt8 32) (page : ResultPageManifestEntry)
    (content : List UInt8) : Prop :=
  content.length = page.byteLength ∧ hex (digest content).toList = page.contentChecksum

/-- The storage has a content where the entry of a page says. Lengths are `u64`. -/
structure SealedPages.Stores (package : SealedPages) (ordinal : Nat) (page :
    ResultPageManifestEntry)
    (content : List UInt8) : Prop where
  entry : package.pages[ordinal]? = some page
  holds : package.sink.Holds page.objectPath content
  length_lt : content.length < 2 ^ 64

/-- A read of a chunk finds its lease valid and its memory granted. -/
structure SealedPages.Serves (package : SealedPages) (maximumBytes : Nat) (observedAt : Int) :
    Prop where
  issued : package.issuedAtUnixMs ≤ observedAt
  unexpired : observedAt < package.expiresAtUnixMs
  reserve : ∀ bytes ≤ maximumBytes, package.reserve bytes = .ok ()

section

variable {package : SealedPages} {ordinal offset maximumBytes : Nat} {observedAt : Int}
  {page : ResultPageManifestEntry} {content : List UInt8}
  (hsto : package.Stores ordinal page content) (hmat : Matches package.digest page content)
include hsto

theorem readWindows_page {stop : Nat} (hlen : content.length = page.byteLength)
    (hc : 0 < maximumBytes) (hst : stop ≤ content.length) :
    package.readWindows ordinal page.objectPath page.byteLength maximumBytes offset stop
      page.byteLength 0 [] [] = .ok (rangeOf content offset stop, content) := by
  have h := SealedPages.readWindows_eq ordinal offset stop hsto.holds hsto.length_lt hc
    (Nat.zero_le _) (Nat.sub_le _ _)
  rw [min_eq_right (Nat.zero_le _), rangeOf_of_le (Nat.zero_le _), rangeOf_of_le le_rfl,
    min_eq_left hst, hlen] at h
  exact h

theorem matches_of_readPageRange {bytes : List UInt8}
    (h : package.readPageRange ordinal offset maximumBytes observedAt = .ok bytes) :
    Matches package.digest page content := by
  simp only [SealedPages.readPageRange, ok_iff, exists_const, hsto.entry, Option.some.injEq,
    exists_eq_left', Prod.exists] at h
  obtain ⟨-, hr, -, -, -, -, size, hsz, rfl, output, seen, hwin, hd, -⟩ := h
  have hlen : content.length = page.byteLength := by
    rw [hsto.holds.size] at hsz
    exact Except.ok.inj hsz
  rw [readWindows_page hsto hlen (by omega) (by omega), Except.ok.injEq, Prod.mk.injEq] at hwin
  exact ⟨hlen, hwin.2 ▸ hd⟩

include hmat

theorem readPageRange_eq (hsrv : package.Serves maximumBytes observedAt) (hc : 0 < maximumBytes)
    (hoff : offset ≤ content.length) :
    package.readPageRange ordinal offset maximumBytes observedAt =
      .ok (rangeOf content offset (min (offset + maximumBytes) content.length)) := by
  obtain ⟨hlen, hd⟩ := hmat
  have hst : min (saturatingAdd offset maximumBytes) page.byteLength =
      min (offset + maximumBytes) content.length := by
    rw [← hlen, min_saturatingAdd hsto.length_lt]
  have hsz : package.sink.size page.objectPath = .ok page.byteLength := by
    rw [hsto.holds.size, hlen]
  have hi := hsrv.issued
  have hu := hsrv.unexpired
  rw [← hst]
  simp only [SealedPages.readPageRange, ok_iff, mapError_eq_ok, exists_const, Prod.exists]
  refine ⟨by omega, page, hsto.entry, by omega, (), hsrv.reserve _ (by omega), (),
    hsrv.reserve _ le_rfl, _, hsz, rfl, _, _, ?_, hd, _, hsz, rfl, rfl⟩
  exact readWindows_page hsto hlen hc (hlen ▸ min_le_right _ _)

/-! ## Chunks of a page -/

variable {registry : ResultRegistry} (expectedChecksum : String)

/-- The registry serves a chunk: it is not too long, a job is granted and the source disclosed. -/
structure ResultRegistry.Serves (registry : ResultRegistry) (maximumBytes : Nat) : Prop where
  bound : maximumBytes ≤ registry.maximumChunkBytes
  job : registry.reserveJob = .ok ()
  disclosed : registry.disclosed = true

theorem read_page_eq (hsrv : package.Serves maximumBytes observedAt)
    (hreg : registry.Serves maximumBytes) (hc : 0 < maximumBytes)
    (hoff : offset ≤ content.length) {stop : Nat}
    (hst : stop = min (offset + maximumBytes) content.length) :
    registry.read (.page package ordinal) content.length expectedChecksum offset maximumBytes
        observedAt =
      .ok ⟨offset, stop, content.length, expectedChecksum, rangeOf content offset stop,
        stop == content.length⟩ := by
  have hb := readPageRange_eq hsto hmat hsrv hc hoff
  rw [← hst] at hb
  have hbd := hreg.bound
  simp only [ResultRegistry.read, ResultRegistry.readSource, ok_iff, mapError_eq_ok, exists_const,
    min_saturatingAdd hsto.length_lt, ← hst, hb, Except.ok.injEq]
  exact ⟨by omega, (), hreg.job, hoff, _, ⟨_, rfl, length_rangeOf (by omega), rfl⟩,
    hreg.disclosed, rfl⟩

/-- The chunks read from an offset on are the bytes from there; one is complete exactly if it ends
at the end of the content, which some chunk does exactly if enough bytes were asked for. -/
theorem follow_page {requests : List (Nat × Int)}
    (hreq : ∀ request ∈ requests, 0 < request.1 ∧ registry.Serves request.1 ∧
      package.Serves request.1 request.2) (hoff : offset ≤ content.length)
    (hmr : requests = [] → offset < content.length) :
    ∃ chunks, registry.follow (.page package ordinal) content.length expectedChecksum requests
        offset = .ok chunks ∧
      chunks.flatMap StreamedResourceChunk.bytes =
        rangeOf content offset (min (offset + (requests.map Prod.fst).sum) content.length) ∧
      (∀ chunk ∈ chunks, chunk.complete = true ↔ chunk.nextOffset = content.length) ∧
      ((∃ chunk ∈ chunks, chunk.complete = true) ↔
        content.length ≤ offset + (requests.map Prod.fst).sum) := by
  induction requests generalizing offset with
  | nil =>
    have hlt := hmr rfl
    exact ⟨[], rfl, (rangeOf_of_le (min_le_left _ _)).symm, nofun, by simpa using hlt⟩
  | cons request requests ih =>
    obtain ⟨hch, hreg, hsrv⟩ := hreq request mem_cons_self
    generalize hst : min (offset + request.1) content.length = stop
    have hrd := read_page_eq hsto hmat expectedChecksum hsrv hreg hch hoff hst.symm
    rw [ResultRegistry.follow, hrd, map_cons, sum_cons, ← Nat.add_assoc]
    change ∃ chunks, (if (stop == content.length) = true then _ else _) = _ ∧ _
    by_cases hend : stop = content.length
    -- The chunk ends at the end of the content and completes it.
    · refine ⟨_, if_pos (beq_iff_eq.2 hend), ?_, by simp, ?_⟩
      · rw [min_eq_right (by omega), hend]
        exact append_nil _
      · simp only [mem_singleton, exists_eq_left, beq_iff_eq]
        omega
    · obtain ⟨chunks, hfol, hb, hcpl, hrch⟩ := ih
        (fun request hmem => hreq request (mem_cons_of_mem _ hmem))
        (by omega : stop ≤ content.length) fun _ => by omega
      have hn : stop = offset + request.1 := by omega
      rw [hn] at hfol hb hrch
      refine ⟨⟨offset, stop, content.length, expectedChecksum, rangeOf content offset stop,
        stop == content.length⟩ :: chunks, ?_, ?_, ?_, ?_⟩
      · rw [if_neg (by rwa [beq_iff_eq]), hn, hfol]
        rfl
      · rw [flatMap_cons, hb, hn, rangeOf_append (by omega) (by omega)]
      · intro chunk hmem
        rcases List.mem_cons.1 hmem with rfl | hmem
        · exact beq_iff_eq
        · exact hcpl chunk hmem
      · simp only [mem_cons, exists_eq_or_imp, beq_iff_eq, hend, false_or]
        exact hrch

end

/-! ## Ranged reads -/

/-- **Ranged reads.** A read of a stored page that matches its entry returns exactly its range; a
content of another length or checksum is refused whatever range is asked, so one that differs from
the sealed content is, unless the two collide; and following the next offset from the start gives
the content as far as it was asked for, with completion reported exactly at its end. -/
theorem ranged_reads {package : SealedPages} {ordinal : Nat} {page : ResultPageManifestEntry}
    {content : List UInt8} (hstores : package.Stores ordinal page content) :
    (Matches package.digest page content → ∀ offset ≤ content.length, ∀ maximumBytes > 0,
      ∀ observedAt, package.Serves maximumBytes observedAt →
        package.readPageRange ordinal offset maximumBytes observedAt =
          .ok (rangeOf content offset (min (offset + maximumBytes) content.length))) ∧
    (¬Matches package.digest page content → ∀ offset maximumBytes observedAt, ∃ error,
      package.readPageRange ordinal offset maximumBytes observedAt = .error error) ∧
    (∀ original, Matches package.digest page original → content ≠ original →
      (package.digest content = package.digest original → content = original) →
      ∀ offset maximumBytes observedAt, ∃ error,
        package.readPageRange ordinal offset maximumBytes observedAt = .error error) ∧
    (Matches package.digest page content → ∀ (registry : ResultRegistry) (expectedChecksum : String)
      (requests : List (Nat × Int)), requests ≠ [] → (∀ request ∈ requests, 0 < request.1 ∧
        registry.Serves request.1 ∧ package.Serves request.1 request.2) →
      ∃ chunks, registry.follow (.page package ordinal) content.length expectedChecksum requests
          0 = .ok chunks ∧
        chunks.flatMap StreamedResourceChunk.bytes = content.take (requests.map Prod.fst).sum ∧
        (∀ chunk ∈ chunks, chunk.complete = true ↔ chunk.nextOffset = content.length) ∧
        ((∃ chunk ∈ chunks, chunk.complete = true) ↔
          content.length ≤ (requests.map Prod.fst).sum)) := by
  have href : ¬Matches package.digest page content → ∀ offset maximumBytes observedAt, ∃ error,
      package.readPageRange ordinal offset maximumBytes observedAt = .error error := by
    intro ho offset maximumBytes observedAt
    cases hrd : package.readPageRange ordinal offset maximumBytes observedAt with
    | error error => exact ⟨error, rfl⟩
    | ok bytes => exact absurd (matches_of_readPageRange hstores hrd) ho
  refine ⟨fun hmat offset hoff maximumBytes hch observedAt hsrv => ?_, href, ?_,
    fun hmat registry expectedChecksum requests hne hreq => ?_⟩
  · exact readPageRange_eq hstores hmat hsrv hch hoff
  · intro original hor hdif hcol
    refine href fun hmat => hdif (hcol (Query.hex_injective ?_))
    rw [hmat.2, hor.2]
  · obtain ⟨chunks, hfol, hb, hrs⟩ := follow_page hstores hmat expectedChecksum
      hreq (Nat.zero_le _) fun hnil => absurd hnil hne
    rw [Nat.zero_add] at hb hrs
    refine ⟨chunks, hfol, ?_, hrs⟩
    rw [hb, rangeOf, drop_zero, ← take_take, take_length]

/-- The BLAKE3 digest of `sampleContent`. -/
def sampleDigest : Vector UInt8 32 :=
  #v[2, 79, 103, 192, 66, 90, 61, 192, 47, 186, 245, 140, 185, 61, 229, 19, 46, 61, 117, 197, 25,
    250, 160, 186, 218, 33, 73, 29, 136, 201, 112, 87]

def sampleContent : List UInt8 := [1, 2, 3, 4, 5]

def samplePages : SealedPages where
  sink := ⟨fun _ => .ok 5, fun _ start stop => .ok (rangeOf sampleContent start stop)⟩
  digest bytes := if bytes = sampleContent then sampleDigest else Vector.replicate 32 0
  reserve _ := .ok ()
  issuedAtUnixMs := 0
  expiresAtUnixMs := 10
  pages := [⟨"a", 0, "p", 1, 1, 5, "s", hex sampleDigest.toList⟩]

theorem samplePages_stores :
    samplePages.Stores 0 (samplePages.pages.head (by decide)) sampleContent :=
  ⟨rfl, ⟨rfl, fun _ _ _ _ => rfl⟩, by decide⟩

def sampleRegistry : ResultRegistry := ⟨4, .ok (), fun _ => .ok (), samplePages.digest, true⟩

/-- One window of the page, and the page followed through three windows. -/
theorem sample_ranged_read : samplePages.readPageRange 0 1 3 4 = .ok [2, 3, 4] ∧
    ∃ chunks, sampleRegistry.follow (.page samplePages 0) 5 "s" [(2, 4), (2, 5), (2, 6)] 0 =
        .ok chunks ∧
      chunks.flatMap StreamedResourceChunk.bytes = [1, 2, 3, 4, 5] ∧
      ∃ chunk ∈ chunks, chunk.complete = true := by
  obtain ⟨hread, -, -, hfollow⟩ := ranged_reads samplePages_stores
  refine ⟨hread ⟨rfl, rfl⟩ 1 (by decide) 3 (by decide) 4 ⟨by decide, by decide, fun _ _ => rfl⟩, ?_⟩
  have hserves : ∀ request ∈ [(2, 4), (2, 5), (2, (6 : Int))], 0 < request.1 ∧
      sampleRegistry.Serves request.1 ∧ samplePages.Serves request.1 request.2 := by
    intro request hmem
    simp only [mem_cons, not_mem_nil, or_false] at hmem
    rcases hmem with rfl | rfl | rfl <;>
      exact ⟨by decide, ⟨by decide, rfl, rfl⟩, by decide, by decide, fun _ _ => rfl⟩
  obtain ⟨chunks, hchunks, hbytes, -, hend⟩ :=
    hfollow ⟨rfl, rfl⟩ sampleRegistry "s" _ (by decide) hserves
  exact ⟨chunks, hchunks, hbytes, hend.2 (by decide)⟩

end CodeFabric.Result
