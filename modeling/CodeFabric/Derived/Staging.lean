import CodeFabric.Derived.Calls

/-! # What staging returns

Staging keeps the edges and the exact calls of an accepted input: it drops repeated rows only.

**`mem_staged_cfg`**: the staged edges are the input's edges. -/

namespace CodeFabric.Derived

open Fallible List

def NormalizedStageRow.toEdge (row : NormalizedStageRow) : Option CommonCfgEdge :=
  if row.kind = "cfg" then some ⟨row.scope, row.source, row.target⟩ else none

open NormalizedStageRow

def NormalizedStageRow.toCall (row : NormalizedStageRow) : Option ExactCall :=
  if row.kind = "call" then row.value.map (⟨row.source, row.target, ·⟩) else none

def CommonCallSite.toCall (call : CommonCallSite) : Option ExactCall :=
  call.resolution.callee.map (⟨call.callerId, ·, call.callSiteId⟩)

theorem splitStage_eq_ok {rows : List NormalizedStageRow} {triples : NormalizedTriples}
    (h : splitStage rows = .ok triples) :
    triples.cfg = rows.filterMap (·.toEdge) ∧ triples.calls = rows.filterMap (·.toCall) := by
  induction rows generalizing triples with
  | nil =>
    cases h
    exact ⟨rfl, rfl⟩
  | cons _ _ ih =>
    unfold splitStage at h
    split at h
    · rename_i hk
      simp only [ok_iff] at h
      obtain ⟨tail, ht, rfl⟩ := h
      obtain ⟨hcfg, hcl⟩ := ih ht
      simp [NormalizedStageRow.toEdge, NormalizedStageRow.toCall, hk, hcfg, hcl]
    split at h
    · rename_i _ hk
      simp only [ok_iff] at h
      obtain ⟨_, _, tail, ht, rfl⟩ := h
      obtain ⟨hcfg, hcl⟩ := ih ht
      simp [NormalizedStageRow.toEdge, NormalizedStageRow.toCall, hk, hcfg, hcl]
    split at h
    · rename_i _ _ hk
      simp only [ok_iff] at h
      obtain ⟨_, hs, tail, ht, rfl⟩ := h
      obtain ⟨hcfg, hcl⟩ := ih ht
      simp [NormalizedStageRow.toEdge, NormalizedStageRow.toCall, hk, hs, hcfg, hcl]
    · cases h

section

variable {lib : Libraries} {input : CommonDerivedAnalysisInput} {triples : NormalizedTriples}

theorem nodup_exactCalls (hacc : Accepted input) : (input.calls.filterMap (·.toCall)).Nodup := by
  have hd := List.pairwise_map.1 hacc.calls_distinct
  refine List.Pairwise.filterMap _ (fun call call' hne _ hexact _ he' heq => ?_) hd
  subst heq
  refine hne ?_
  simp only [CommonCallSite.toCall, Option.map_eq_some_iff] at hexact he'
  obtain ⟨_, _, rfl⟩ := hexact
  obtain ⟨_, _, hsm⟩ := he'
  obtain ⟨_, rfl, _⟩ := ExactCall.mk.inj hsm
  cases hr : call.resolution <;> cases hr' : call'.resolution <;>
    simp_all [CommonCallResolution.callee, CommonCallResolution.key]

theorem row_of_toCall {row : NormalizedStageRow} {call : ExactCall} (hrow : row ∈ stageRows input)
    (hc : row.toCall = some call) :
    row = ⟨"call", "call-graph", call.caller, call.callee, some call.callSite⟩ := by
  simp only [stageRows, mem_append, mem_map, mem_filterMap] at hrow
  obtain (⟨_, _, rfl⟩ | ⟨_, _, rfl⟩) | ⟨site, _, hrow⟩ := hrow
  · simp [NormalizedStageRow.toCall] at hc
  · simp [NormalizedStageRow.toCall] at hc
  · cases hrs : site.resolution <;> simp only [hrs] at hrow <;> cases hrow
    simp only [NormalizedStageRow.toCall, if_true, Option.map_some, Option.some.injEq] at hc
    rw [← hc]

theorem row_of_toEdge {row : NormalizedStageRow} {edge : CommonCfgEdge}
    (hrow : row ∈ stageRows input) (he : row.toEdge = some edge) :
    row = ⟨"cfg", edge.ownerId, edge.sourceNodeId, edge.targetNodeId, none⟩ := by
  simp only [stageRows, mem_append, mem_map, mem_filterMap] at hrow
  obtain (⟨edge, _, rfl⟩ | ⟨_, _, rfl⟩) | ⟨site, _, hrow⟩ := hrow
  · simp only [toEdge, if_true, Option.some.injEq] at he
    rw [← he]
  · simp [toEdge] at he
  · cases hrs : site.resolution <;> simp only [hrs] at hrow <;> cases hrow
    simp [toEdge] at he

/-- What tells the staged rows apart is staged once. -/
theorem nodup_staged {α : Type} (hlib : lib.Documented) {f : NormalizedStageRow → Option α}
    {g : α → NormalizedStageRow} (hf : ∀ {row a}, row ∈ stageRows input → f row = some a →
      row = g a) :
    ((lib.distinctSorted (stageRows input)).filterMap f).Nodup := by
  have hrw := List.Pairwise.and_mem.1 (hlib.distinctSorted_nodup (stageRows input))
  refine List.Pairwise.filterMap _ (fun row _ hd a ha _ ha' heq => ?_) hrw
  obtain ⟨hrow, hrow', hne⟩ := hd
  rw [hlib.mem_distinctSorted] at hrow hrow'
  exact hne ((hf hrow ha).trans (heq ▸ (hf hrow' ha').symm))

variable (hlib : lib.Documented)
  (h : splitStage (lib.distinctSorted (stageRows input)) = .ok triples)
include hlib h

theorem mem_staged_cfg {edge : CommonCfgEdge} : edge ∈ triples.cfg ↔ edge ∈ input.cfgEdges := by
  rw [(splitStage_eq_ok h).1, mem_filterMap]
  constructor
  · rintro ⟨_, hrow, hed⟩
    rw [hlib.mem_distinctSorted] at hrow
    simp only [stageRows, mem_append, mem_map, mem_filterMap] at hrow
    obtain (⟨_, he', rfl⟩ | ⟨_, _, rfl⟩) | ⟨call, _, hc⟩ := hrow
    · simp only [toEdge, if_true, Option.some.injEq] at hed
      exact hed ▸ he'
    · simp [toEdge] at hed
    · cases hrs : call.resolution <;> simp only [hrs] at hc <;> cases hc
      simp [toEdge] at hed
  · intro hed
    refine ⟨⟨"cfg", edge.ownerId, edge.sourceNodeId, edge.targetNodeId, none⟩, ?_, rfl⟩
    rw [hlib.mem_distinctSorted, stageRows, mem_append, mem_append]
    exact .inl (.inl (List.mem_map.2 ⟨edge, hed, rfl⟩))

theorem mem_staged_calls {call : ExactCall} :
    call ∈ triples.calls ↔ call ∈ input.calls.filterMap (·.toCall) := by
  rw [(splitStage_eq_ok h).2, mem_filterMap, mem_filterMap]
  constructor
  · rintro ⟨_, hrow, hc⟩
    rw [hlib.mem_distinctSorted] at hrow
    simp only [stageRows, mem_append, mem_map, mem_filterMap] at hrow
    obtain (⟨_, _, rfl⟩ | ⟨_, _, rfl⟩) | ⟨site, hs, hrow⟩ := hrow
    · simp [NormalizedStageRow.toCall] at hc
    · simp [NormalizedStageRow.toCall] at hc
    · refine ⟨site, hs, ?_⟩
      cases hrs : site.resolution <;> simp only [hrs] at hrow <;> cases hrow
      simpa [NormalizedStageRow.toCall, CommonCallSite.toCall, CommonCallResolution.callee,
        hrs] using hc
  · rintro ⟨site, hs, hc⟩
    cases hrs : site.resolution with
    | exact callee =>
      simp only [CommonCallSite.toCall, CommonCallResolution.callee, hrs, Option.map_some,
        Option.some.injEq] at hc
      subst hc
      refine ⟨⟨"call", "call-graph", site.callerId, callee, some site.callSiteId⟩, ?_, rfl⟩
      rw [hlib.mem_distinctSorted, stageRows, mem_append]
      exact .inr (List.mem_filterMap.2 ⟨site, hs, by rw [hrs]⟩)
    | _ => simp [CommonCallSite.toCall, CommonCallResolution.callee, hrs] at hc

theorem nodup_staged_calls : triples.calls.Nodup := by
  rw [(splitStage_eq_ok h).2]
  exact nodup_staged hlib row_of_toCall

theorem length_staged_cfg : triples.cfg.length = input.cfgEdges.toFinset.card := by
  have hnd : triples.cfg.Nodup := by
    rw [(splitStage_eq_ok h).1]
    exact nodup_staged hlib row_of_toEdge
  have hs : triples.cfg.toFinset = input.cfgEdges.toFinset := by
    ext edge
    rw [mem_toFinset, mem_toFinset, mem_staged_cfg hlib h]
  rw [← hs, toFinset_card_of_nodup hnd]

/-- **Staging keeps the exact calls**, each once. -/
theorem staged_calls_perm (hacc : Accepted input) :
    triples.calls.Perm (input.calls.filterMap (·.toCall)) :=
  (perm_ext_iff_of_nodup (nodup_staged_calls hlib h) (nodup_exactCalls hacc)).2
    fun _ => mem_staged_calls hlib h

end

end CodeFabric.Derived
