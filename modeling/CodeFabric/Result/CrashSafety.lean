import Mathlib
import CodeFabric.Query.Atomicity
import CodeFabric.Result.Publication

/-! # A seal and its coordinator

The events a coordinator keeps while a seal runs, and the crash safety of whole runs across both. -/

namespace CodeFabric.Result

open Fallible Procedures Interleaving
open Query (hex PendingResultObjectSet QueryControlEvent QueryControlEventPayload QueryHandle
  RetainedPackageLocator lastEvent intentOf locatorOf publicationIntent retainedLocator placeEvent
  replacement lastCheckpoint checkPayload checkPublication checkResultReady
  pendingObjectSetFromLocator validatePublicationPending)

/-! ## Placing an event -/

variable {events : List QueryControlEvent} {event : QueryControlEvent}
  {intent : PendingResultObjectSet} {Schema Batch : Type} {sealer : Sealer Schema Batch}
  {past : List (Call SealEffect SealResponse)}

theorem lastEvent_set {α : Type} {find : QueryControlEventPayload → Option α} {index : Nat}
    {old : QueryControlEvent} (hold : events[index]? = some old)
    (hf : find old.payload = find event.payload) :
    lastEvent find (events.set index event) = lastEvent find events := by
  have hmap : ∀ events : List QueryControlEvent, lastEvent find events =
      ((events.map fun event => find event.payload).reverse).findSome? id := by
    intro events
    rw [← List.map_reverse, List.findSome?_map]
    rfl
  obtain ⟨hlt, rfl⟩ := List.getElem?_eq_some_iff.1 hold
  rw [hmap, hmap, List.map_set, ← hf]
  congr 2
  exact List.map_set.symm.trans (congrArg _ (List.set_getElem_self hlt))

theorem publicationIntent_placeEvent (hev : event.payload = .publicationPending intent) :
    publicationIntent (placeEvent events event) = some intent := by
  have hr : replacement events event.payload = lastCheckpoint events := by
    rw [hev]
    rfl
  rw [placeEvent, hr]
  cases hc : lastCheckpoint events with
  | none =>
    show lastEvent intentOf (events ++ [event]) = _
    rw [Query.lastEvent_concat, hev]
    rfl
  | some index =>
    show lastEvent intentOf (events.set index event) = _
    clear hr
    -- the events after the last checkpoint are none themselves
    induction events using List.reverseRecOn generalizing index with
    | nil => simp [lastCheckpoint] at hc
    | append_singleton _ _ ih =>
      rw [Query.lastCheckpoint_concat] at hc
      split_ifs at hc with hls
      · cases hc
        rw [List.set_append_right _ _ le_rfl, Nat.sub_self, List.set_cons_zero,
          Query.lastEvent_concat, hev]
        rfl
      · obtain ⟨_, _, hfd, -⟩ := Query.publicationIntent_of_lastCheckpoint hc
        have hlt := (List.getElem?_eq_some_iff.1 hfd).1
        rw [List.set_append_left _ _ hlt, Query.lastEvent_concat, Query.intentOf_eq_none hls,
          Option.none_or]
        exact ih _ hc

/-- The event that a checkpoint takes the place of is a checkpoint, that of progress is progress. -/
theorem replaced_payload {payload : QueryControlEventPayload} {index : Nat}
    (h : replacement events payload = some index) : ∃ old, events[index]? = some old ∧
      (payload.isPublicationPending ∧ old.payload.isPublicationPending ∨
        payload.isProgress ∧ old.payload.isProgress) := by
  unfold replacement at h
  split_ifs at h with hpn hpr
  · obtain ⟨old, _, hold, hpay, -⟩ := Query.publicationIntent_of_lastCheckpoint h
    exact ⟨old, hold, .inl ⟨hpn, by rw [hpay]; rfl⟩⟩
  · cases h
    obtain ⟨hpay, hl⟩ := Bool.and_eq_true_iff.1 hpr
    rw [List.getLast?_eq_getElem?] at hl
    cases hold : events[events.length - 1]? with
    | none => simp [hold] at hl
    | some old => exact ⟨old, rfl, .inr ⟨hpay, by simpa [hold] using hl⟩⟩

theorem lastEvent_placeEvent {α : Type} {find : QueryControlEventPayload → Option α}
    (hev : find event.payload = none)
    (hpn : event.payload.isPublicationPending → ∀ payload : QueryControlEventPayload,
      payload.isPublicationPending → find payload = none)
    (hpr : ∀ payload : QueryControlEventPayload, payload.isProgress → find payload = none) :
    lastEvent find (placeEvent events event) = lastEvent find events := by
  unfold placeEvent
  cases hr : replacement events event.payload with
  | none => rw [Query.lastEvent_concat, hev, Option.none_or]
  | some =>
    obtain ⟨_, hold, hk⟩ := replaced_payload hr
    refine lastEvent_set hold ?_
    rw [hev]
    rcases hk with ⟨hnew, hk⟩ | ⟨-, hk⟩
    · exact hpn hnew _ hk
    · exact hpr _ hk

theorem retainedLocator_placeEvent (hev : locatorOf event.payload = none) :
    retainedLocator (placeEvent events event) = retainedLocator events := by
  refine lastEvent_placeEvent hev (fun _ payload hpay => ?_) fun payload hpay => ?_
  · cases payload <;> simp_all [locatorOf, QueryControlEventPayload.isPublicationPending]
  · cases payload <;> simp_all [locatorOf, QueryControlEventPayload.isProgress]

theorem publicationIntent_placeEvent_other (hev : intentOf event.payload = none) :
    publicationIntent (placeEvent events event) = publicationIntent events := by
  refine lastEvent_placeEvent hev (fun _ => ?_) fun payload hpay => ?_
  · cases hpay : event.payload <;>
      simp_all [intentOf, QueryControlEventPayload.isPublicationPending]
  · cases payload <;> simp_all [intentOf, QueryControlEventPayload.isProgress]

/-! ## The events of a run -/

/-- The intent a call brings to the coordinator, and whether it was answered as accepted. -/
def checkpointed : (e : SealEffect) → SealResponse e → Option (PendingResultObjectSet × Bool)
  | .recordPublicationIntent intent, (accepted : Bool) => some (intent, accepted)
  | .reconcileAfterCleanup _ retained, (accepted : Bool) => some (retained, accepted)
  | _, _ => none

/-- The event lists a coordinator may have after some calls of a seal: an accepted intent is placed
as a checkpoint, a refused one may have been, and other events of the query come at any time. -/
inductive Journaled : List (Call SealEffect SealResponse) → List QueryControlEvent → Prop
  | start {events : List QueryControlEvent} (hintent : publicationIntent events = none)
      (hlocator : retainedLocator events = none) : Journaled [] events
  | placed {past : List (Call SealEffect SealResponse)} {events : List QueryControlEvent}
      {call : Call SealEffect SealResponse} {intent : PendingResultObjectSet} {accepted : Bool}
      {event : QueryControlEvent} (before : Journaled past events)
      (hcall : checkpointed call.1 call.2 = some (intent, accepted))
      (hevent : event.payload = .publicationPending intent) :
      Journaled (past ++ [call]) (placeEvent events event)
  | refused {past : List (Call SealEffect SealResponse)} {events : List QueryControlEvent}
      {call : Call SealEffect SealResponse} {intent : PendingResultObjectSet}
      (before : Journaled past events)
      (hcall : checkpointed call.1 call.2 = some (intent, false)) :
      Journaled (past ++ [call]) events
  | other {past : List (Call SealEffect SealResponse)} {events : List QueryControlEvent}
      {call : Call SealEffect SealResponse} (before : Journaled past events)
      (hcall : checkpointed call.1 call.2 = none) : Journaled (past ++ [call]) events
  | reported {past : List (Call SealEffect SealResponse)} {events : List QueryControlEvent}
      {event : QueryControlEvent} (before : Journaled past events)
      (hintent : intentOf event.payload = none) (hlocator : locatorOf event.payload = none) :
      Journaled past (placeEvent events event)

def observed (sealer : Sealer Schema Batch) (calls : List (Call SealEffect SealResponse)) : Trace :=
  (observer sealer).after Trace.start calls

theorem observed_concat {call : Call SealEffect SealResponse} :
    observed sealer (past ++ [call]) = (observed sealer past).answer call.1 call.2 := by
  rw [observed, Observer.after_append]
  rfl

theorem intents_answer {trace : Trace} {e : SealEffect} {response : SealResponse e} :
    (trace.answer e response).intents = match checkpointed e response with
      | some (intent, accepted) => (trace.recorded intent accepted).intents
      | none => trace.intents := by
  cases e with
  | delete | size => cases response <;> rfl
  | _ => rfl

/-- **The coordinator's last checkpoint is one the seal knows of**, and it has no result yet. -/
theorem Journaled.intent_mem (sealer : Sealer Schema Batch) (h : Journaled past events) :
    publicationIntent events ∈ (observed sealer past).intents ∧ retainedLocator events = none := by
  induction h with
  | start hi hloc =>
    rw [hi]
    exact ⟨List.mem_singleton.2 rfl, hloc⟩
  | @placed past events _ _ accepted event _ hc hev ih =>
    have hloc : locatorOf event.payload = none := by rw [hev]; rfl
    rw [retainedLocator_placeEvent hloc, publicationIntent_placeEvent hev,
      observed_concat, intents_answer, hc]
    refine ⟨?_, ih.2⟩
    cases accepted with
    | true => exact List.mem_singleton.2 rfl
    | false => exact List.mem_cons_self
  | refused _ hc ih =>
    rw [observed_concat, intents_answer, hc]
    exact ⟨List.mem_cons_of_mem _ ih.1, ih.2⟩
  | other _ hc ih =>
    rw [observed_concat, intents_answer, hc]
    exact ih
  | reported _ hi hloc ih =>
    rw [retainedLocator_placeEvent hloc, publicationIntent_placeEvent_other hi]
    exact ih

/-! ## The coordinator's rules -/

/-- The coordinator accepts a checkpoint: its object set and its place after the last one, the
bounds on its pages aside. -/
def Accepts (handle : QueryHandle) (intent : PendingResultObjectSet)
    (cleanupPrecondition : Option PendingResultObjectSet) : Prop :=
  intent.pageObjectPaths.length ≤ 4096 →
    intent.pageObjectPaths.length ≤ handle.operation.maximumResultPages →
      validatePublicationPending (.publicationPending intent) = .ok () ∧
        checkPayload handle (.publicationPending intent) cleanupPrecondition = .ok ()

theorem accepts_extended {handle : QueryHandle}
    {last : Option PendingResultObjectSet} (hacc : Acceptable intent)
    (hls : publicationIntent handle.events = last) (hloc : retainedLocator handle.events = none)
    (hext : ∀ previous, last = some previous → Extends previous intent) :
    Accepts handle intent none := by
  intro hpg hmax
  refine ⟨ensure_eq_ok.2 (hacc hpg), ?_⟩
  simp only [checkPayload, checkPublication, ok_iff, hloc, Option.isNone_none, hls, exists_const]
  refine ⟨hmax, trivial, ?_⟩
  cases last with
  | none => exact ensure_eq_ok.2 trivial
  | some previous =>
    obtain ⟨⟨hman, hep, hq⟩, hfol⟩ := hext previous rfl
    exact ensure_eq_ok.2 ⟨hman, hep, hq, hfol⟩

theorem accepts_shortened {handle : QueryHandle} {previous retained : PendingResultObjectSet}
    (hacc : Acceptable retained) (hls : publicationIntent handle.events = some previous)
    (hloc : retainedLocator handle.events = none) (hsho : Shortens previous retained) :
    Accepts handle retained (some previous) := by
  intro hpg hmax
  refine ⟨ensure_eq_ok.2 (hacc hpg), ?_⟩
  simp only [checkPayload, checkPublication, ok_iff, hloc, Option.isNone_none, hls, exists_const]
  obtain ⟨⟨hman, he, hq⟩, hlen, hpg⟩ := hsho
  exact ⟨hmax, trivial, hman, he, hq, rfl, hlen, hpg⟩

/-! ## Crash safety -/

/-- What holds of a run of a seal, at each of its points. -/
structure CrashSafe (sealer : Sealer Schema Batch) (calls : List (Call SealEffect SealResponse))
    (result : Except StreamedResultPackageError Sealer.SealedStreamedResultPackage) : Prop where
  /-- Stopped between two effects, every object that may be in storage is named. -/
  named : ∀ past, past <+: calls → (observed sealer past).Named
  /-- Stopped with an effect in flight, too. -/
  inFlight : ∀ past call future, calls = past ++ call :: future →
    ((observed sealer past).started call.1).Named
  /-- The manifest is written when every page it lists is stored. -/
  manifestLast : ∀ past bytes response future,
    calls = past ++ ⟨.create sealer.manifestPath bytes, response⟩ :: future → ∃ manifest,
      sealer.encodings.manifestBytes sealer.response manifest = .ok bytes ∧
        ∀ page ∈ manifest.pages, PageStored sealer (observed sealer past) page
  /-- A recorded intent strictly extends the last one, if there is one. -/
  extended : ∀ past intent response future,
    calls = past ++ ⟨.recordPublicationIntent intent, response⟩ :: future →
      ∃ last, (observed sealer past).intents = [last] ∧
        ∀ previous, last = some previous → Extends previous intent
  /-- A shortened intent is a proper prefix of the last one, and the dropped pages are gone. -/
  shortened : ∀ past previous retained response future,
    calls = past ++ ⟨.reconcileAfterCleanup previous retained, response⟩ :: future →
      (observed sealer past).intents = [some previous] ∧ Shortens previous retained ∧
        ∀ path ∈ previous.pageObjectPaths.drop retained.pageObjectPaths.length,
          path ∉ (observed sealer past).possible
  /-- At success the last intent names exactly the pages of the manifest, and all is stored. -/
  success : ∀ package, result = .ok package → Sealed sealer package (observed sealer calls)
  /-- The coordinator accepts every recorded intent. -/
  recordAccepted : ∀ past intent response future,
    calls = past ++ ⟨.recordPublicationIntent intent, response⟩ :: future →
      ∀ handle : QueryHandle, Journaled past handle.events → Accepts handle intent none
  /-- The coordinator accepts every shortened intent. -/
  reconcileAccepted : ∀ past previous retained response future,
    calls = past ++ ⟨.reconcileAfterCleanup previous retained, response⟩ :: future →
      ∀ handle : QueryHandle, Journaled past handle.events → Accepts handle retained (some previous)
  /-- At success the coordinator accepts the published result. -/
  resultAccepted : ∀ package, result = .ok package → ∀ handle : QueryHandle,
    Journaled calls handle.events → ∀ locator : RetainedPackageLocator,
      pendingObjectSetFromLocator locator = sealer.intent package.manifest.pages →
        checkResultReady handle locator = .ok ()

/-- **Crash safety of result publication.** Whatever the streams yield and the surroundings answer,
and wherever a seal is stopped: every object it may have left in storage is named by the last
accepted intent; the manifest is written after its pages; intents grow, or shrink after the dropped
pages were deleted; and the coordinator's rules accept all of it. -/
theorem seal_crash_safe [DecidableEq Schema] {processing : List QueryProcessing}
    {relations : List (StreamedRelationInput Schema Batch)} {s t : SealState}
    {calls : List (Call SealEffect SealResponse)}
    {result : Except StreamedResultPackageError Sealer.SealedStreamedResultPackage}
    (h : (sealer.sealWithProcessing processing relations).Yields s calls result t) :
    CrashSafe sealer calls result := by
  obtain ⟨hg, hsl⟩ := yields_of_wp (safe_sealWithProcessing processing relations) h
  have hpr : ∀ past call future, calls = past ++ call :: future →
      Permitted sealer (observed sealer past) call.1 := by
    rintro past call future rfl
    exact hg.permits
  have hnm : ∀ past, past <+: calls → (observed sealer past).Named := by
    rintro past ⟨future, rfl⟩
    refine (Observer.guarded_append.1 hg).1.invariant
      (fun _ call hnm hperm => named_observe hnm hperm) ?_
    exact nofun
  refine ⟨hnm, fun past call future heq => ?_, fun past _ response future heq => ?_,
    fun past intent response future heq => ?_, fun past previous retained response future heq => ?_,
    fun package hpac => hsl package hpac,
    fun past intent response future heq handle hj => ?_,
    fun past previous retained response future heq handle hj => ?_,
    fun package hpac handle hj _ hloc => ?_⟩
  · exact named_started (hnm past ⟨_, heq.symm⟩) (hpr past call future heq)
  · exact (hpr past _ future heq).2 rfl
  · exact (hpr past _ future heq).2
  · exact (hpr past _ future heq).2
  · obtain ⟨hacc, _, hls, hext⟩ := hpr past _ future heq
    obtain ⟨hi, hnn⟩ := hj.intent_mem sealer
    rw [hls] at hi
    exact accepts_extended hacc (List.mem_singleton.1 hi) hnn hext
  · obtain ⟨hacc, hls, hsho, -⟩ := hpr past _ future heq
    obtain ⟨hi, hnn⟩ := hj.intent_mem sealer
    rw [hls] at hi
    exact accepts_shortened hacc (List.mem_singleton.1 hi) hnn hsho
  · obtain ⟨hi, hnn⟩ := hj.intent_mem sealer
    have hls : (observed sealer calls).intents = _ := (hsl package hpac).intents
    rw [hls] at hi
    simp only [checkResultReady, ok_iff, exists_const]
    refine ⟨_, List.mem_singleton.1 hi, hloc.symm, ?_⟩
    rw [hnn]
    rfl

/-! ## A sample run -/

def sampleEncodings : Encodings Unit (List UInt8) where
  schemaOf _ := ()
  numRows := List.length
  memorySize := List.length
  slice batch offset rows := (batch.drop offset).take rows
  newEmpty _ := []
  preflightSchema _ _ := .ok ()
  encodePage _ batches _ := .ok (255 :: batches.flatten)
  pageSize _ batches maxBytes :=
    if batches.flatten.length < maxBytes then .ok (batches.flatten.length + 1)
    else .error .pageByteLimit
  validatePage _ _ _ := .ok ()
  digest bytes := Vector.ofFn fun _ => bytes.sum
  decodeResponse _ := some ⟨some [⟨some "first", some "a"⟩, ⟨some "second", some "b"⟩],
      some (some [⟨"first", .complete, []⟩, ⟨"second", .complete, []⟩])⟩
  canonicalize response := some response
  pageLength _ := 1
  relationLength _ := 1
  manifestLength _ _ := 1
  manifestBytes _ _ := .ok [1]

def sampleSealer : Sealer Unit (List UInt8) where
  encodings := sampleEncodings
  limits := ⟨2, 4, 2, 3, 10, 10, 1000, 1, 1⟩
  epochId := Vector.replicate 16 1
  queryExecution := Vector.replicate 32 2
  response := [0]

def sampleRelation (relation : RelationId) (stream : List (Except DataFusionError (List UInt8))) :
    StreamedRelationInput Unit (List UInt8) :=
  ⟨relation, (), (), stream, 5, ⟨.complete, 1, 1, 0, none⟩, [], none⟩

/-- The first relation fails after two pages, the second has two pages. -/
def sampleRelations : List (StreamedRelationInput Unit (List UInt8)) :=
  [sampleRelation ⟨"a", by decide, by decide⟩ [.ok [1, 2, 3], .error (.execution "overflow")],
    sampleRelation ⟨"b", by decide, by decide⟩ [.ok [4, 5, 6]]]

def sampleAnswers : (e : SealEffect) → SealResponse e
  | .checkCancelDeadline | .awaitBatch => (none : Option Interruption)
  | .reserve .. | .shrink _ => (.ok () : Except Budget.ResourceBudgetError Unit)
  | .recordPublicationIntent _ | .reconcileAfterCleanup .. | .create .. => true
  | .size _ => SizeAnswer.notFound
  | .delete _ => DeleteAnswer.deleted

def sampleState : SealState := ⟨∅, [], [], [], 0, 0, 0, false, none, []⟩

/-- A seal under these answers: what it calls, returns and leaves. -/
def sealedWith {Schema Batch : Type} [DecidableEq Schema] (sealer : Sealer Schema Batch)
    (relations : List (StreamedRelationInput Schema Batch)) (s : SealState) :
    List (Call SealEffect SealResponse) ×
      (Except StreamedResultPackageError Sealer.SealedStreamedResultPackage × SealState) :=
  answered sampleAnswers ((sealer.sealWithProcessing [] relations).start s)

theorem yields_sealedWith [DecidableEq Schema] (sealer : Sealer Schema Batch)
    (relations : List (StreamedRelationInput Schema Batch)) (s : SealState) :
    (sealer.sealWithProcessing [] relations).Yields s (sealedWith sealer relations s).1
      (sealedWith sealer relations s).2.1 (sealedWith sealer relations s).2.2 :=
  yields_answered sampleAnswers _

/-- A run that drops the two pages of one relation and seals the two of the other is crash safe. -/
theorem sample_crash_safe : (sealedWith sampleSealer sampleRelations sampleState).2.1.toOption.map
      (fun package => package.manifest.pages.map ResultPageManifestEntry.relationId) =
        some ["b", "b"] ∧
    CrashSafe sampleSealer (sealedWith sampleSealer sampleRelations sampleState).1
      (sealedWith sampleSealer sampleRelations sampleState).2.1 :=
  ⟨by decide +kernel, seal_crash_safe (yields_sealedWith sampleSealer sampleRelations sampleState)⟩

end CodeFabric.Result
