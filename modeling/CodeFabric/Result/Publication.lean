import CodeFabric.Result.Paths
import CodeFabric.Result.Seal

/-! # Crash safety of a seal

What a seal may have left in storage, and what the recorder knows of it, at every point of every
run: with any streams, any answers of the storage and of the recorder, and stopped anywhere. -/

namespace CodeFabric.Result

open List hiding Vector

open Fallible Procedures Interleaving ResultPageManifestEntry Sealer
open Query (hex PendingResultObjectSet)

/-! ## Traces -/

/-- What is known of the storage and of the recorder. -/
structure Trace where
  /-- The objects that may be in storage. -/
  possible : List String
  /-- The objects that are in storage, and their bytes. -/
  stored : List (String × List UInt8)
  /-- The intents that may be the last one the recorder accepted. -/
  intents : List (Option PendingResultObjectSet)

namespace Trace

def start : Trace := ⟨[], [], [none]⟩

def without (trace : Trace) (path : String) : Trace :=
  { trace with
    possible := trace.possible.filter (· ≠ path)
    stored := trace.stored.filter (·.1 ≠ path) }

def recorded (trace : Trace) (intent : PendingResultObjectSet) (accepted : Bool) : Trace :=
  { trace with intents := if accepted then [some intent] else some intent :: trace.intents }

/-- What is known after an effect was answered. A failed write may have stored the object, a failed
deletion may have deleted it, and a failed recorder may have accepted. -/
def answer (trace : Trace) : (e : SealEffect) → SealResponse e → Trace
  | .create path bytes, (stored : Bool) =>
    { trace with
      possible := path :: trace.possible
      stored := if stored then (path, bytes) :: trace.stored else trace.stored }
  | .delete path, (answer : DeleteAnswer) =>
    match answer with
    | .deleted | .notFound => trace.without path
    | .failed => { trace with stored := trace.stored.filter (·.1 ≠ path) }
  | .size path, (answer : SizeAnswer) =>
    match answer with
    | .notFound => trace.without path
    | .found _ | .failed => trace
  | .recordPublicationIntent intent, (accepted : Bool) => trace.recorded intent accepted
  | .reconcileAfterCleanup _ retained, (accepted : Bool) => trace.recorded retained accepted
  | .checkCancelDeadline, _ | .awaitBatch, _ | .reserve .., _ | .shrink _, _ => trace

/-- What is known while an effect is not answered. -/
def started (trace : Trace) : SealEffect → Trace
  | .create path _ => { trace with possible := path :: trace.possible }
  | .delete path => { trace with stored := trace.stored.filter (·.1 ≠ path) }
  | .recordPublicationIntent intent => trace.recorded intent false
  | .reconcileAfterCleanup _ retained => trace.recorded retained false
  | .size _ | .checkCancelDeadline | .awaitBatch | .reserve .. | .shrink _ => trace

end Trace

/-- An intent names an object: as a page, or as the manifest. -/
def Names (intent : PendingResultObjectSet) (path : String) : Prop :=
  path ∈ intent.pageObjectPaths ∨ path = intent.manifestObjectPath

/-- Every object that may be in storage is named by every intent that may be the last. -/
def Trace.Named (trace : Trace) : Prop :=
  ∀ path ∈ trace.possible, ∀ intent ∈ trace.intents, ∃ last, intent = some last ∧ Names last path

def SamePackage (left right : PendingResultObjectSet) : Prop :=
  left.manifestObjectPath = right.manifestObjectPath ∧ left.epochId = right.epochId ∧
    left.queryExecution = right.queryExecution

/-- An intent strictly extends another. -/
def Extends (previous intent : PendingResultObjectSet) : Prop :=
  SamePackage previous intent ∧ previous.pageObjectPaths.length < intent.pageObjectPaths.length ∧
    previous.pageObjectPaths <+: intent.pageObjectPaths

/-- An intent is an exact proper prefix of another. -/
def Shortens (previous retained : PendingResultObjectSet) : Prop :=
  SamePackage previous retained ∧
    retained.pageObjectPaths.length < previous.pageObjectPaths.length ∧
    retained.pageObjectPaths <+: previous.pageObjectPaths

/-- The coordinator accepts an object set, its number of pages aside. -/
def Acceptable (intent : PendingResultObjectSet) : Prop :=
  intent.pageObjectPaths.length ≤ 4096 → Query.validPendingResultObjectSet intent = true

variable {Schema Batch : Type} {sealer : Sealer Schema Batch} {trace : Trace}
  {intent previous : PendingResultObjectSet} {path : String} {s : SealState} {α : Type}
  {pages : List ResultPageManifestEntry}

def PageStored (sealer : Sealer Schema Batch) (trace : Trace) (page : ResultPageManifestEntry) :
    Prop :=
  ∃ bytes, (page.objectPath, bytes) ∈ trace.stored ∧ bytes.length = page.byteLength ∧
    hex (sealer.encodings.digest bytes).toList = page.contentChecksum

/-- When an effect may be performed: an object is created only when it is named, the manifest only
when its pages are stored, an intent is recorded only when it extends the last one, and it is
shortened only when the dropped pages are gone. -/
def Permitted (sealer : Sealer Schema Batch) (trace : Trace) : SealEffect → Prop
  | .create path bytes =>
    (∀ intent ∈ trace.intents, ∃ last, intent = some last ∧ Names last path) ∧
      (path = sealer.manifestPath → ∃ manifest,
        sealer.encodings.manifestBytes sealer.response manifest = .ok bytes ∧
          ∀ page ∈ manifest.pages, PageStored sealer trace page)
  | .recordPublicationIntent intent => Acceptable intent ∧
      ∃ last, trace.intents = [last] ∧ ∀ previous, last = some previous → Extends previous intent
  | .reconcileAfterCleanup previous retained => Acceptable retained ∧
      trace.intents = [some previous] ∧ Shortens previous retained ∧
        ∀ path ∈ previous.pageObjectPaths.drop retained.pageObjectPaths.length,
          path ∉ trace.possible
  | _ => True

def observer (sealer : Sealer Schema Batch) : Observer SealEffect SealResponse Trace where
  observe trace call := trace.answer call.1 call.2
  Permits := Permitted sealer

/-! ## Every object is named -/

theorem Extends.names (h : Extends previous intent) (hpt : Names previous path) :
    Names intent path := by
  rcases hpt with hpg | rfl
  · exact .inl (h.2.2.subset hpg)
  · exact .inr h.1.1

theorem Shortens.names {retained : PendingResultObjectSet} (h : Shortens previous retained)
    (hpt : Names previous path)
    (hg : path ∉ previous.pageObjectPaths.drop retained.pageObjectPaths.length) :
    Names retained path := by
  rcases hpt with hpage | rfl
  · obtain ⟨_, hpg⟩ := h.2.2
    rw [← hpg, drop_left] at hg
    rw [← hpg, mem_append] at hpage
    exact .inl (hpage.resolve_right hg)
  · exact .inr h.1.1

section

variable (h : trace.Named)
include h

theorem named_recorded (hi : ∀ path ∈ trace.possible, Names intent path)
    (accepted : Bool) : (trace.recorded intent accepted).Named := by
  intro path hp other ho
  have hnew : ∃ last, some intent = some last ∧ Names last path := ⟨intent, rfl, hi path hp⟩
  cases accepted with
  | true =>
    obtain rfl : other = some intent := List.mem_singleton.1 ho
    exact hnew
  | false =>
    rcases List.mem_cons.1 ho with rfl | ho
    · exact hnew
    · exact h path hp other ho

theorem names_of_extends {last : Option PendingResultObjectSet} (hl : trace.intents = [last])
    (hext : ∀ previous, last = some previous → Extends previous intent)
    (hp : path ∈ trace.possible) : Names intent path := by
  obtain ⟨previous, rfl, hn⟩ := h path hp last (by simp [hl])
  exact (hext previous rfl).names hn

theorem names_of_shortens {retained : PendingResultObjectSet}
    (hl : trace.intents = [some previous]) (hsho : Shortens previous retained)
    (hg : ∀ path ∈ previous.pageObjectPaths.drop retained.pageObjectPaths.length,
      path ∉ trace.possible) (hp : path ∈ trace.possible) : Names retained path := by
  obtain ⟨_, hsm, hn⟩ := h path hp (some previous) (by simp [hl])
  cases hsm
  exact hsho.names hn fun hd => hg path hd hp

theorem Trace.Named.mono {other : Trace} (hpos : ∀ path ∈ other.possible, path ∈ trace.possible)
    (hin : other.intents = trace.intents) : other.Named :=
  fun path hpt intent hintent => h path (hpos path hpt) intent (hin ▸ hintent)

/-- **An effect in flight** leaves every object named that may exist. -/
theorem named_started {e : SealEffect} (hp : Permitted sealer trace e) :
    (trace.started e).Named := by
  cases e with
  | create path =>
    intro other ho intent hi
    rcases List.mem_cons.1 ho with rfl | ho
    · exact hp.1 intent hi
    · exact h other ho intent hi
  | recordPublicationIntent intent =>
    obtain ⟨-, _, hl, hext⟩ := hp
    exact named_recorded h (fun _ => names_of_extends h hl hext) false
  | reconcileAfterCleanup =>
    obtain ⟨-, hl, hsho, hg⟩ := hp
    exact named_recorded h (fun _ => names_of_shortens h hl hsho hg) false
  | delete path => exact h.mono (fun _ => id) rfl
  | _ => exact h

theorem named_without (path : String) : (trace.without path).Named :=
  h.mono (fun _ ho => (List.mem_filter.1 ho).1) rfl

/-- **An answered effect** leaves every object named that may exist. -/
theorem named_observe {call : Call SealEffect SealResponse}
    (hp : Permitted sealer trace call.1) : (trace.answer call.1 call.2).Named := by
  obtain ⟨e, response⟩ := call
  cases e with
  | create path bytes => exact named_started (e := .create path bytes) h hp
  | recordPublicationIntent =>
    obtain ⟨-, _, hl, hext⟩ := hp
    exact named_recorded h (fun _ => names_of_extends h hl hext) response
  | reconcileAfterCleanup =>
    obtain ⟨-, hl, hsho, hg⟩ := hp
    exact named_recorded h (fun _ => names_of_shortens h hl hsho hg) response
  | delete path =>
    cases response with
    | failed => exact h.mono (fun _ => id) rfl
    | _ => exact named_without h path
  | size path =>
    cases response with
    | notFound => exact named_without h path
    | _ => exact h
  | _ => exact h

end

/-! ## Quiet procedures -/

/-- A guarded procedure leaves the trace alone, and of the state changes only the ledger. -/
def Quiet (procedure : SealM α) : Prop :=
  ∀ {Schema Batch : Type} (sealer : Sealer Schema Batch) (trace : Trace) (s : SealState),
    Safe (observer sealer) procedure trace s fun _ trace' t =>
      trace' = trace ∧ ∃ objects, t = { s with objects }

theorem quiet_checkCancelDeadline : Quiet checkCancelDeadline := by
  intro _ _ _ _ s
  refine .bind (.effect trivial fun _ => ?_)
  exact .check fun _ _ => ⟨rfl, s.objects, rfl⟩

theorem quiet_awaitBatch : Quiet awaitBatch := by
  intro _ _ _ _ s
  refine .bind (.effect trivial fun _ => ?_)
  exact .check fun _ _ => ⟨rfl, s.objects, rfl⟩

theorem quiet_reserve (resourceClass : Budget.ResourceClass)
    (memoryBytes storedBytes objects : Nat) :
    Quiet (reserve resourceClass memoryBytes storedBytes objects) := by
  intro _ _ _ _ s
  refine .bind (.effect trivial fun _ => ?_)
  exact .check fun _ _ => ⟨rfl, s.objects, rfl⟩

theorem quiet_shrink (bytes : Nat) : Quiet (shrink bytes) := by
  intro _ _ _ _ s
  refine .bind (.effect trivial fun _ => ?_)
  exact .check fun _ _ => ⟨rfl, s.objects, rfl⟩

theorem quiet_ledgerAdmit (path : String) (byteLength : Nat)
    (resourceClass : Budget.ResourceClass) : Quiet (ledgerAdmit path byteLength resourceClass) := by
  intro _ _ sealer trace s
  refine .read_bind ?_
  cases s.objects[path]? with
  | some => exact .check fun _ _ => ⟨rfl, s.objects, rfl⟩
  | none =>
    refine .bind (.check fun _ _ => ?_)
    refine .bind ((quiet_reserve _ _ _ _ sealer trace s).mono ?_)
    rintro _ _ _ ⟨rfl, _, rfl⟩
    exact .update ⟨rfl, _, rfl⟩

theorem safe_quiet_bind {first : SealM α} {β : Type} {next : α → SealM β}
    {Q : β → Trace → SealState → Prop} (hq : Quiet first)
    (h : ∀ value objects, Safe (observer sealer) (next value) trace { s with objects } Q) :
    Safe (observer sealer) (first >>= next) trace s Q := by
  refine .bind ((hq sealer trace s).mono ?_)
  rintro value _ _ ⟨rfl, objects, rfl⟩
  exact h value objects

/-! ## Storage -/

theorem safe_ledgerCreate {bytes : List UInt8} (hp : Permitted sealer trace (.create path bytes)) :
    Safe (observer sealer) (ledgerCreate path bytes) trace s fun _ trace' t =>
      trace' = trace.answer (.create path bytes) true ∧ ∃ objects, t = { s with objects } := by
  refine safe_quiet_bind (quiet_ledgerAdmit _ _ _) fun _ objects => ?_
  refine .bind (.effect hp fun (response : Bool) => ?_)
  refine .check fun _ hsto => ?_
  obtain rfl : response = true := ensure_eq_ok.1 hsto
  exact ⟨rfl, objects, rfl⟩

/-- Some paths are no longer in storage; whatever else is, and the intents, are as they were. -/
structure Trace.Removes (trace after : Trace) (paths : List String) : Prop where
  intents : after.intents = trace.intents
  possible : ∀ path ∈ after.possible, path ∈ trace.possible ∧ path ∉ paths
  stored : ∀ entry ∈ trace.stored, entry.1 ∉ paths → entry ∈ after.stored

theorem removes_without (path : String) : trace.Removes (trace.without path) [path] where
  intents := rfl
  possible other ho := by
    obtain ⟨hmem, hne⟩ := List.mem_filter.1 ho
    exact ⟨hmem, by simpa using hne⟩
  stored entry he ho := List.mem_filter.2 ⟨he, by simpa using ho⟩

theorem safe_ledgerRemove (path : String) :
    Safe (observer sealer) (ledgerRemove path) trace s fun _ trace' t =>
      trace.Removes trace' [path] ∧ ∃ objects, t = { s with objects } := by
  refine .bind (.effect trivial fun response => ?_)
  cases response with
  | failed => exact .throw
  | _ => exact .update ⟨removes_without path, _, rfl⟩

theorem safe_ledgerDelete (path : String) (maximumBytes : Nat) :
    Safe (observer sealer) (ledgerDelete path maximumBytes) trace s fun _ trace' t =>
      trace.Removes trace' [path] ∧ ∃ objects, t = { s with objects } := by
  refine .read_bind ?_
  cases s.objects[path]? with
  | some _ => exact safe_ledgerRemove path
  | none =>
    refine .bind (.effect trivial fun response => ?_)
    cases response with
    | notFound => exact .pure ⟨removes_without path, s.objects, rfl⟩
    | failed => exact .throw
    | found =>
      refine .bind (.check fun _ _ => ?_)
      refine safe_quiet_bind (quiet_ledgerAdmit _ _ _) fun _ objects => ?_
      refine (safe_ledgerRemove path).mono ?_
      rintro _ _ _ ⟨hrem, objects', rfl⟩
      exact ⟨hrem, objects', rfl⟩

theorem safe_deleteAll (maximumBytes : Nat) (paths : List String) :
    Safe (observer sealer) (deleteAll maximumBytes paths) trace s fun _ trace' t =>
      trace.Removes trace' paths ∧ ∃ objects, t = { s with objects } := by
  induction paths generalizing trace s with
  | nil =>
    exact .pure ⟨⟨rfl, fun _ hp => ⟨hp, not_mem_nil⟩, fun _ he _ => he⟩, s.objects, rfl⟩
  | cons path paths ih =>
    refine .bind ((safe_ledgerDelete path maximumBytes).mono ?_)
    rintro _ _ _ ⟨hfst, objects, rfl⟩
    refine ih.mono ?_
    rintro _ _ _ ⟨hr, objects', rfl⟩
    refine ⟨⟨hr.intents.trans hfst.intents, fun other ho => ?_,
      fun entry he ho => ?_⟩, objects', rfl⟩
    · obtain ⟨hmid, _⟩ := hr.possible other ho
      obtain ⟨hbef, _⟩ := hfst.possible other hmid
      exact ⟨hbef, by simp_all⟩
    · have ho := not_or.1 (mt List.mem_cons.2 ho)
      exact hr.stored entry (hfst.stored entry he (by simpa using ho.1)) ho.2

theorem safe_deleteAnyway (maximumBytes : Nat) (paths : List String) :
    Safe (observer sealer) (deleteAnyway maximumBytes paths) trace s fun _ _ _ => True := by
  induction paths generalizing trace s with
  | nil => exact .pure trivial
  | cons path paths ih =>
    refine .bind (.attempt ((safe_ledgerDelete path maximumBytes).mono ?_) ?_)
    · exact fun _ _ _ _ => ih
    · exact fun _ _ _ => ih

/-! ## The state of a seal and its trace -/

/-- The pages of a package are placed by their ordinals. -/
def Placed (sealer : Sealer Schema Batch) (pages : List ResultPageManifestEntry) : Prop :=
  ∀ ordinal page, pages[ordinal]? = some page → ordinal < 2 ^ 64 ∧ ∃ relation : RelationId,
    page.objectPath = pagePath sealer.epochHex sealer.queryHex relation.text ordinal

/-- The state of a seal agrees with what is known of storage and recorder. -/
structure Tracks (sealer : Sealer Schema Batch) (trace : Trace) (state : SealState) : Prop where
  created : state.created = state.pages.map ResultPageManifestEntry.objectPath
  placed : Placed sealer state.pages
  stored : ∀ page ∈ state.pages, PageStored sealer trace page
  possible : ∀ path ∈ trace.possible, path ∈ state.pages.map ResultPageManifestEntry.objectPath
  intents : trace.intents =
    [if state.publicationRecorded then some (sealer.intent state.pages) else none]
  unrecorded : state.publicationRecorded = false → state.pages = []

theorem Tracks.congr {state other : SealState} (h : Tracks sealer trace state)
    (hcr : other.created = state.created) (hpg : other.pages = state.pages)
    (hrcd : other.publicationRecorded = state.publicationRecorded) : Tracks sealer trace other where
  created := by rw [hcr, hpg, h.created]
  placed := by rw [hpg]; exact h.placed
  stored := by rw [hpg]; exact h.stored
  possible := by rw [hpg]; exact h.possible
  intents := by rw [hpg, hrcd]; exact h.intents
  unrecorded := by rw [hpg, hrcd]; exact h.unrecorded

theorem Tracks.objects {state : SealState} (h : Tracks sealer trace state)
    (objects : Std.ExtTreeMap String Nat) : Tracks sealer trace { state with objects } :=
  h.congr rfl rfl rfl

theorem Placed.take (h : Placed sealer pages) (count : Nat) : Placed sealer (pages.take count) := by
  intro ordinal page hp
  rw [getElem?_take] at hp
  split at hp
  · exact h ordinal page hp
  · cases hp

theorem Placed.nodup (h : Placed sealer pages) : (pages.map objectPath).Nodup := by
  rw [nodup_iff_injective_getElem]
  rintro ⟨first, hfst⟩ ⟨second, hsnd⟩ heq
  simp only [getElem_map] at heq
  rw [length_map] at hfst hsnd
  obtain ⟨hlt, _, hpt⟩ := h first _ (getElem?_eq_getElem hfst)
  obtain ⟨hlt', _, hp'⟩ := h second _ (getElem?_eq_getElem hsnd)
  exact Fin.ext (pagePath_ordinal hlt hlt' (hpt.symm.trans (heq.trans hp')))

theorem acceptable_intent (h : Placed sealer pages) : Acceptable (sealer.intent pages) := by
  intro hlen
  have hpt : ∀ path ∈ pages.map objectPath, ∃ (relation : RelationId)
      (ordinal : Nat), path = pagePath sealer.epochHex sealer.queryHex relation.text ordinal := by
    intro path hpt
    obtain ⟨page, hpg, rfl⟩ := List.mem_map.1 hpt
    obtain ⟨ordinal, hord⟩ := getElem?_of_mem hpg
    obtain ⟨-, relation, hpl⟩ := h ordinal page hord
    exact ⟨relation, ordinal, hpl⟩
  exact valid_of_pagePaths hlen h.nodup hpt

/-! ## Publishing a page -/

variable {page : ResultPageManifestEntry} {relation : RelationId}

theorem preparePage_eq_ok {encodings : Encodings Schema Batch}
    {limits : StreamedResultPackageLimits} {epochHex queryHex : String}
    {schema : Schema} {ordinal : Nat} {batch : Batch} {encoded : List UInt8}
    (h : preparePage encodings limits epochHex queryHex relation schema ordinal batch encoded =
      .ok page) :
    page.objectPath = pagePath epochHex queryHex relation.text ordinal ∧
      encoded.length = page.byteLength ∧
      hex (encodings.digest encoded).toList = page.contentChecksum := by
  simp only [preparePage, ok_iff] at h
  obtain ⟨_, _, _, _, _, _, rfl⟩ := h
  exact ⟨rfl, rfl, rfl⟩

theorem Placed.concat (h : Placed sealer pages) (hlen : pages.length < 2 ^ 64)
    (hp : page.objectPath = pagePath sealer.epochHex sealer.queryHex relation.text pages.length) :
    Placed sealer (pages ++ [page]) := by
  intro ordinal other ho
  rw [getElem?_append] at ho
  split at ho
  · exact h ordinal other ho
  · rename_i hle
    rw [getElem?_singleton] at ho
    split at ho
    · obtain rfl : ordinal = pages.length := by omega
      cases ho
      exact ⟨hlen, relation, hp⟩
    · cases ho

theorem extends_concat (pages : List ResultPageManifestEntry) (page : ResultPageManifestEntry) :
    Extends (sealer.intent pages) (sealer.intent (pages ++ [page])) := by
  refine ⟨⟨rfl, rfl, rfl⟩, ?_, ?_⟩
  · simp [intent]
  · rw [intent, intent, map_append]
    exact prefix_append _ _

theorem safe_recordPublicationIntent
    (hp : Permitted sealer trace (.recordPublicationIntent intent)) :
    Safe (observer sealer) (recordPublicationIntent intent) trace s fun _ trace' t =>
      trace' = trace.recorded intent true ∧ t = s := by
  refine .bind (.effect hp fun (response : Bool) => ?_)
  refine .check fun _ hacc => ?_
  obtain rfl : response = true := ensure_eq_ok.1 hacc
  exact ⟨rfl, rfl⟩

theorem safe_appendPage {encoded : List UInt8} {totalRows totalBytes : Nat}
    (ht : Tracks sealer trace s) (hlen : s.pages.length < 2 ^ 64) (hpt : page.objectPath =
      pagePath sealer.epochHex sealer.queryHex relation.text s.pages.length)
    (hb : encoded.length = page.byteLength)
    (hch : hex (sealer.encodings.digest encoded).toList = page.contentChecksum) :
    Safe (observer sealer) (sealer.appendPage page encoded totalRows totalBytes) trace s
      fun _ trace' t => Tracks sealer trace' t ∧ t.outcomes = s.outcomes := by
  have hpl := ht.placed.concat hlen hpt
  have hrec : Permitted sealer trace
      (.recordPublicationIntent (sealer.intent (s.pages ++ [page]))) := by
    refine ⟨acceptable_intent hpl, _, ht.intents, fun _ hpr => ?_⟩
    split at hpr
    · cases hpr
      exact extends_concat s.pages page
    · cases hpr
  have hcr : Permitted sealer (trace.recorded (sealer.intent (s.pages ++ [page])) true)
      (.create page.objectPath encoded) := by
    refine ⟨fun intent hi => ?_, fun hman => ?_⟩
    · obtain rfl := List.mem_singleton.1 hi
      exact ⟨_, rfl, .inl (by simp [intent])⟩
    · exact absurd (hpt.symm.trans hman) pagePath_ne_manifestPath
  refine .read_bind (.bind (.check fun _ _ => ?_))
  refine .bind (.check fun _ _ => .bind (.update ?_))
  refine .bind (.bind ((safe_recordPublicationIntent hrec).mono ?_))
  rintro _ _ _ ⟨rfl, rfl⟩
  refine (safe_ledgerCreate hcr).mono ?_
  rintro _ _ _ ⟨rfl, _, rfl⟩
  refine .update ⟨⟨?_, hpl, fun other ho => ?_, fun path hpos => ?_, rfl, nofun⟩, rfl⟩
  · show s.created ++ [page.objectPath] = _
    rw [ht.created, map_append, map_singleton]
  · rcases List.mem_append.1 ho with ho | ho
    · obtain ⟨bytes, hsto, hf⟩ := ht.stored other ho
      exact ⟨bytes, mem_cons_of_mem _ hsto, hf⟩
    · rw [List.mem_singleton.1 ho]
      exact ⟨encoded, mem_cons_self, hb, hch⟩
  · rw [map_append, mem_append]
    rcases List.mem_cons.1 hpos with rfl | hpos
    · exact .inr (by simp)
    · exact .inl (ht.possible path hpos)

section

variable {relation : StreamedRelationInput Schema Batch} {progress : RelationProgress}
  {manifest : StreamedResultPackageManifest}

theorem safe_publishSlice {slice : Batch} {encoded : List UInt8} (ht : Tracks sealer trace s) :
    Safe (observer sealer) (sealer.publishSlice relation progress slice encoded) trace s
      fun _ trace' t => Tracks sealer trace' t := by
  refine safe_quiet_bind quiet_checkCancelDeadline fun _ objects => .read_bind ?_
  refine .bind (.check fun _ hlen => .bind (.check fun _ hpg => ?_))
  obtain ⟨hpt, hb, hc⟩ := preparePage_eq_ok hpg
  have hlen : s.pages.length < 2 ^ 64 := ensure_eq_ok.1 hlen
  refine .bind (.check fun _ _ => .bind (.check fun _ _ => ?_))
  refine .bind (.check fun _ _ => .bind (.check fun _ _ => ?_))
  refine .bind (.check fun _ _ => .bind ?_)
  refine (safe_appendPage (ht.objects objects) hlen hpt hb hc).mono ?_
  exact fun _ _ _ h => .pure h.1

theorem safe_publishSlices (ht : Tracks sealer trace s)
    (slices : List (Except StreamedResultPackageError (Batch × List UInt8))) :
    Safe (observer sealer) (sealer.publishSlices relation progress slices) trace s
      fun _ trace' t => Tracks sealer trace' t := by
  induction slices generalizing trace s progress with
  | nil => exact .pure ht
  | cons _ slices ih =>
    refine .bind (.check fun _ _ => .bind ?_)
    exact (safe_publishSlice ht).mono fun _ _ _ h => ih h

theorem safe_consumeBatch [DecidableEq Schema] (ht : Tracks sealer trace s) {batch : Batch} :
    Safe (observer sealer) (sealer.consumeBatch relation progress batch) trace s
      fun _ trace' t => Tracks sealer trace' t := by
  refine safe_quiet_bind (quiet_reserve _ _ _ _) fun _ objects => ?_
  refine .bind (.check fun _ _ => .bind (.check fun _ _ => ?_))
  refine .bind (.check fun _ _ => ?_)
  dsimp only
  split
  · exact .pure (ht.objects objects)
  · refine .bind (.check fun slices _ => ?_)
    exact safe_publishSlices (ht.objects objects) slices

theorem safe_consumeStream [DecidableEq Schema] (ht : Tracks sealer trace s)
    (stream : List (Except DataFusionError Batch)) :
    Safe (observer sealer) (sealer.consumeStream relation progress stream) trace s
      fun _ trace' t => Tracks sealer trace' t := by
  induction stream generalizing trace s progress with
  | nil => exact safe_quiet_bind quiet_awaitBatch fun _ objects => .pure (ht.objects objects)
  | cons next stream ih =>
    refine safe_quiet_bind quiet_awaitBatch fun _ _ => ?_
    refine safe_quiet_bind quiet_checkCancelDeadline fun _ objects => ?_
    cases next with
    | error error =>
      refine .read_bind ?_
      split
      · exact .pure (ht.objects objects)
      · exact .throw
    | ok =>
      exact .bind ((safe_consumeBatch (ht.objects objects)).mono fun _ _ _ h => ih h)

/-! ## Dropping and closing relations -/

theorem safe_dropRelation {before : Sealer.Checkpoint} (htracks : Tracks sealer trace s)
    (hoff : before.createdOffset = before.pageOffset) :
    Safe (observer sealer) (sealer.dropRelation relation before) trace s
      fun _ trace' t => Tracks sealer trace' t := by
  have hdrop : s.created.drop before.createdOffset =
      (s.pages.drop before.pageOffset).map objectPath := by
    rw [htracks.created, hoff, map_drop]
  have hspl : (s.pages.take before.pageOffset).map objectPath ++
      (s.pages.drop before.pageOffset).map objectPath = s.pages.map objectPath := by
    rw [← map_append, take_append_drop]
  have hdis := htracks.placed.nodup
  rw [← hspl] at hdis
  have hdis := disjoint_of_nodup_append hdis
  refine .read_bind (.bind ((safe_deleteAll _ _).mono ?_))
  rintro _ middle _ ⟨hrem, _, rfl⟩
  -- the kept pages are still stored, and nothing else may be
  have hsto : ∀ page ∈ s.pages.take before.pageOffset, PageStored sealer middle page := by
    intro page hpage
    obtain ⟨bytes, hb, hfacts⟩ := htracks.stored page (mem_of_mem_take hpage)
    refine ⟨bytes, hrem.stored _ hb fun hmem => ?_, hfacts⟩
    rw [mem_reverse, hdrop] at hmem
    exact hdis (mem_map_of_mem hpage) hmem
  have hpos : ∀ path ∈ middle.possible, path ∈ (s.pages.take before.pageOffset).map objectPath := by
    intro path hpath
    obtain ⟨hbef, hnot⟩ := hrem.possible path hpath
    rw [mem_reverse, hdrop] at hnot
    have hmem := htracks.possible path hbef
    rw [← hspl, mem_append] at hmem
    exact hmem.resolve_right hnot
  have hcr : s.created.take before.createdOffset =
      (s.pages.take before.pageOffset).map objectPath := by
    rw [htracks.created, hoff, map_take]
  refine .bind ?_
  -- a relation without pages leaves the recorded intent as it is
  rw [shortenIntent]
  split_ifs with hlt
  · have hrcd : s.publicationRecorded = true := by
      by_contra hnot
      rw [htracks.unrecorded (Bool.eq_false_iff.2 hnot)] at hlt
      exact absurd hlt (Nat.not_lt_zero _)
    have hrec : Permitted sealer middle (.reconcileAfterCleanup (sealer.intent s.pages)
        (sealer.intent (s.pages.take before.pageOffset))) := by
      refine ⟨acceptable_intent (htracks.placed.take _), ?_, ⟨⟨rfl, rfl, rfl⟩, ?_, ?_⟩,
        fun path hpath hmid => ?_⟩
      · rw [hrem.intents, htracks.intents, hrcd, if_pos rfl]
      · simpa [intent] using hlt
      · exact ⟨_, hspl⟩
      · rw [intent, intent, ← hspl, drop_left] at hpath
        exact hdis (hpos path hmid) hpath
    refine .bind (.effect hrec fun (response : Bool) => ?_)
    refine .check fun _ hacc => ?_
    obtain rfl : response = true := ensure_eq_ok.1 hacc
    refine .bind (.update (.bind (.check fun outcomes _ => .update ?_)))
    refine ⟨hcr, htracks.placed.take _, hsto, hpos, ?_, fun hfalse => ?_⟩
    · show [some (sealer.intent (s.pages.take before.pageOffset))] =
        [if s.publicationRecorded then
          some (sealer.intent (s.pages.take before.pageOffset)) else none]
      rw [hrcd, if_pos rfl]
    · exact absurd (hrcd.symm.trans hfalse) (by decide)
  · have hall : s.pages.take before.pageOffset = s.pages := take_of_length_le (not_lt.1 hlt)
    refine .pure (.bind (.update ?_))
    refine .bind (.check fun outcomes _ => .update ?_)
    refine ⟨hcr, htracks.placed.take _, hsto, hpos, ?_, fun hfalse => ?_⟩
    · show middle.intents =
        [if s.publicationRecorded then
          some (sealer.intent (s.pages.take before.pageOffset)) else none]
      rw [hall, hrem.intents, htracks.intents]
    · show s.pages.take before.pageOffset = []
      rw [hall, htracks.unrecorded hfalse]

theorem safe_publishEmpty (ht : Tracks sealer trace s) :
    Safe (observer sealer) (sealer.publishEmpty relation) trace s
      fun _ trace' t => Tracks sealer trace' t := by
  refine .bind (.check fun _ _ => .read_bind ?_)
  refine .bind (.check fun _ hlen => .bind (.check fun _ hpg => ?_))
  obtain ⟨hpt, hb, hc⟩ := preparePage_eq_ok hpg
  have hlen : s.pages.length < 2 ^ 64 := ensure_eq_ok.1 hlen
  refine .bind (.check fun _ _ => ?_)
  exact (safe_appendPage ht hlen hpt hb hc).mono fun _ _ _ h => h.1

theorem safe_closeRelation (ht : Tracks sealer trace s) {pageStart : Nat} :
    Safe (observer sealer) (sealer.closeRelation relation pageStart progress) trace s
      fun _ trace' t => Tracks sealer trace' t := by
  refine .read_bind (.bind (.check fun processing _ => .bind (.update ?_)))
  have hn : Tracks sealer trace { s with processing } := ht.congr rfl rfl rfl
  have hmis : Safe (observer sealer) (sealer.publishMissing relation progress.sawBatch) trace
      { s with processing } fun _ trace' t => Tracks sealer trace' t := by
    rw [publishMissing]
    split_ifs
    · exact .pure hn
    · exact safe_publishEmpty hn
  refine .bind (hmis.mono fun _ trace' t h => .read_bind ?_)
  refine .bind (.check fun _ _ => .update ?_)
  exact h.congr rfl rfl rfl

theorem safe_sealRelation [DecidableEq Schema] (ht : Tracks sealer trace s) :
    Safe (observer sealer) (sealer.sealRelation relation) trace s
      fun _ trace' t => Tracks sealer trace' t := by
  refine safe_quiet_bind quiet_checkCancelDeadline fun _ objects => ?_
  refine .bind (.check fun _ _ => .read_bind (.bind (.check fun _ _ => ?_)))
  refine .bind ((safe_consumeStream (ht.objects objects) relation.stream).mono ?_)
  intro ended trace' t h
  cases ended with
  | none =>
    refine safe_dropRelation h ?_
    show s.created.length = s.pages.length
    rw [ht.created, length_map]
  | some => exact safe_closeRelation h

theorem safe_sealRelations [DecidableEq Schema] (ht : Tracks sealer trace s)
    (relations : List (StreamedRelationInput Schema Batch)) :
    Safe (observer sealer) (sealer.sealRelations relations) trace s
      fun _ trace' t => Tracks sealer trace' t := by
  induction relations generalizing trace s with
  | nil => exact .pure ht
  | cons _ relations ih =>
    exact .bind ((safe_sealRelation ht).mono fun _ _ _ h => ih h)

/-! ## The manifest -/

/-- The trace of a sealed package: its pages and its manifest are stored, and the last intent names
exactly its pages. -/
structure Sealed (sealer : Sealer Schema Batch) (package : Sealer.SealedStreamedResultPackage)
    (trace : Trace) : Prop where
  path : package.manifestPath = sealer.manifestPath
  intents : trace.intents = [some (sealer.intent package.manifest.pages)]
  pages : ∀ page ∈ package.manifest.pages, PageStored sealer trace page
  manifest : ∃ bytes, sealer.encodings.manifestBytes sealer.response package.manifest = .ok bytes ∧
    (package.manifestPath, bytes) ∈ trace.stored

theorem manifest_pages {response : SemanticResponse}
    (h : sealer.manifest s response = .ok manifest) : manifest.pages = s.pages := by
  simp only [Sealer.manifest, ok_iff] at h
  obtain ⟨_, _, _, _, rfl⟩ := h
  rfl

theorem safe_writeManifest {bytes : List UInt8}
    (hb : sealer.encodings.manifestBytes sealer.response manifest = .ok bytes)
    (hin : trace.intents = [some (sealer.intent manifest.pages)])
    (hsto : ∀ page ∈ manifest.pages, PageStored sealer trace page) (checksum : Vector UInt8 32) :
    Safe (observer sealer) (do
      ledgerCreate sealer.manifestPath bytes
      return ⟨sealer.manifestPath, checksum, bytes.length, manifest⟩ :
        SealM Sealer.SealedStreamedResultPackage)
      trace s fun package trace' _ => Sealed sealer package trace' := by
  have hcr : Permitted sealer trace (.create sealer.manifestPath bytes) := by
    refine ⟨fun _ hintent => ?_, fun _ => ⟨manifest, hb, hsto⟩⟩
    rw [hin] at hintent
    obtain rfl := List.mem_singleton.1 hintent
    exact ⟨_, rfl, .inr rfl⟩
  refine .bind ((safe_ledgerCreate hcr).mono ?_)
  rintro _ _ _ ⟨rfl, _, rfl⟩
  refine .pure ⟨rfl, hin, fun page hp => ?_, bytes, hb, mem_cons_self⟩
  obtain ⟨content, hcon, hf⟩ := hsto page hp
  exact ⟨content, mem_cons_of_mem _ hcon, hf⟩

theorem safe_publishManifest (ht : Tracks sealer trace s) (response : SemanticResponse) :
    Safe (observer sealer) (sealer.publishManifest response) trace s
      fun package trace' _ => Sealed sealer package trace' := by
  refine .read_bind (.bind (.check fun manifest hman => ?_))
  have hpg := manifest_pages hman
  refine .bind (.check fun _ _ => .bind (.check fun bytes hbd => ?_))
  have hb : sealer.encodings.manifestBytes sealer.response manifest = .ok bytes := by
    simp only [boundedManifestBytes, ok_iff] at hbd
    obtain ⟨_, _, _, hb, _, _, rfl⟩ := hbd
    exact hb
  have hsto : ∀ page ∈ manifest.pages, PageStored sealer trace page := hpg ▸ ht.stored
  have hi := ht.intents
  refine .bind (.check fun _ _ => ?_)
  refine safe_quiet_bind (quiet_shrink _) fun _ objects => ?_
  refine safe_quiet_bind quiet_checkCancelDeadline fun _ objects => ?_
  refine .bind ?_
  rw [recordUnrecorded]
  split_ifs with hrcd
  · rw [if_pos hrcd, ← hpg] at hi
    exact .pure (safe_writeManifest hb hi hsto _)
  · have hemp := ht.unrecorded (Bool.eq_false_iff.2 hrcd)
    rw [if_neg hrcd] at hi
    have hrec : Permitted sealer trace (.recordPublicationIntent (sealer.intent [])) :=
      ⟨acceptable_intent (fun _ _ h => by cases h), none, hi, by simp⟩
    refine (safe_recordPublicationIntent hrec).mono ?_
    rintro _ _ _ ⟨rfl, rfl⟩
    have hsto : ∀ page ∈ manifest.pages,
        PageStored sealer (trace.recorded (sealer.intent []) true) page := hsto
    refine safe_writeManifest hb ?_ hsto _
    rw [hpg, hemp]
    rfl

/-! ## The seal -/

theorem tracks_firstState (objects : Std.ExtTreeMap String Nat)
    (outcomes : Option QueryBlockOutcomes) (processing : List QueryProcessing) :
    Tracks sealer Trace.start (sealer.firstState objects outcomes processing) where
  created := rfl
  placed _ _ h := nomatch h
  stored _ hpg := nomatch hpg
  possible _ hpt := nomatch hpt
  intents := rfl
  unrecorded _ := rfl

/-- **A seal performs permitted effects only**, whatever it is answered, and a sealed package has
its pages and its manifest in storage. -/
theorem safe_sealWithProcessing [DecidableEq Schema] (processing : List QueryProcessing)
    (relations : List (StreamedRelationInput Schema Batch)) :
    Safe (observer sealer) (sealer.sealWithProcessing processing relations) Trace.start s
      fun package trace' _ => Sealed sealer package trace' := by
  refine .bind (.check fun _ _ => ?_)
  refine safe_quiet_bind quiet_checkCancelDeadline fun _ objects => ?_
  refine .bind (.check fun _ _ => .bind (.check fun _ _ => ?_))
  refine safe_quiet_bind (quiet_reserve _ _ _ _) fun _ objects => ?_
  refine .bind (.check fun _ _ => ?_)
  refine safe_quiet_bind (quiet_reserve _ _ _ _) fun _ objects => ?_
  refine .bind (.check fun _ _ => .bind (.check fun ordered _ => ?_))
  refine .bind (.update (.bind (.attempt ?_ fun _ _ t => ?_)))
  · refine .bind ((safe_sealRelations (tracks_firstState _ _ _) ordered).mono ?_)
    intro _ _ _ h
    exact (safe_publishManifest h _).mono fun package _ _ hs => .pure hs
  · refine .read_bind (.bind ((safe_deleteAnyway _ _).mono fun _ _ _ _ => ?_))
    exact .throw

end

end CodeFabric.Result
