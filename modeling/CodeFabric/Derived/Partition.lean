import CodeFabric.Derived.Accounting
import CodeFabric.Derived.CallGraph
import CodeFabric.Derived.Reference

/-! # The completeness partition

The call stage settles the units of the call families, upstream gaps and lost facts add units to
both sides, so at the end the requested units of a family are its completed, remaining and unknown
ones.

**`completeness_partition`**: the partition, for every accepted input and all bounds. -/

namespace CodeFabric.Derived

open Fallible Worklist AnalysisState List

variable {f : Family} {n m : Nat} {s s' s'' : AnalysisState}

/-! ## Call families -/

section

variable {lib : Libraries} {bounds : CommonAnalysisBounds} {input : CommonDerivedAnalysisInput}
  {exactCalls : List ExactCall} {adjacent : String → Finset String} {topologyComplete : Bool}
  {P Q : String → Prop} {callable : String}

/-- A stage keeps the counters of a family, and its new unknown rows are about subjects that
satisfy `P`. -/
structure Flags (f : Family) (P : String → Prop) (s s' : AnalysisState) : Prop where
  progress : s'.progress f = s.progress f
  flagged : ∀ row ∈ s'.unknowns, row.family = f →
    row ∈ s.unknowns ∨ ∃ callable, row.subject = some callable ∧ P callable

/-- Such a stage that also keeps the unknown rows of the family. -/
structure Marks (f : Family) (P : String → Prop) (s s' : AnalysisState) : Prop extends
    Flags f P s s' where
  kept : ∀ row ∈ s.unknowns, row.family = f → row ∈ s'.unknowns

theorem Marks.trans (h : Marks f P s s') (h' : Marks f P s' s'') : Marks f P s s'' where
  progress := h'.progress.trans h.progress
  flagged row hrow hfam :=
    (h'.flagged row hrow hfam).elim (fun hrow => h.flagged row hrow hfam) .inr
  kept row hrow hfam := h'.kept row (h.kept row hrow hfam) hfam

theorem Marks.mono (h : Marks f P s s') (hPQ : ∀ c, P c → Q c) : Marks f Q s s' where
  progress := h.progress
  flagged row hrow hfam :=
    (h.flagged row hrow hfam).imp_right fun ⟨c, hc, hP⟩ => ⟨c, hc, hPQ c hP⟩
  kept := h.kept

theorem Frame.marks (h : Frame f s s') : Marks f P s s' where
  progress := h.progress
  flagged row hrow hfam := .inl ((h.unknowns row hfam).1 hrow)
  kept row hrow hfam := (h.unknowns row hfam).2 hrow

/-- A stage that has nothing to flag leaves the family alone. -/
theorem Marks.frame (h : Marks f P s s') (hP : ∀ c, ¬P c) : Frame f s s' where
  progress := h.progress
  unknowns row hfam := ⟨fun hrow => (h.flagged row hrow hfam).resolve_right
    fun ⟨c, _, hc⟩ => hP c hc, fun hrow => h.kept row hrow hfam⟩

theorem Flags.accounts (h : Flags f P s s') : Accounts f 0 s s' where
  requested := by rw [h.progress]
  remainder := by rw [h.progress]
  counted := by rw [h.progress, Nat.add_zero]
  unknown_le := by rw [h.progress]

theorem marks_forEach {α : Type} {items : List α} {body : α → AnalysisState → AnalysisState}
    (h : ∀ a ∈ items, ∀ s, Marks f P s (body a s)) (s : AnalysisState) :
    Marks f P s (forEach items body s) :=
  forEach_induct (Frame.refl f s).marks fun a ha _ hs => hs.trans (h a ha _)

theorem marks_unknownAll {families : List Family} {subject : Option String}
    (hP : f ∈ families → ∃ callable, subject = some callable ∧ P callable) (reason : String)
    (detail : Option String) (iteration : Nat) (s : AnalysisState) :
    Marks f P s (s.unknownAll families subject reason detail iteration) where
  progress := by simp
  flagged row hrow hfam := by
    rw [mem_unknownAll] at hrow
    refine hrow.imp_right ?_
    rintro ⟨_, hmem, rfl⟩
    exact hP (hfam ▸ hmem)
  kept row hrow _ := mem_unknownAll.2 (.inl hrow)

protected theorem Frame.unknownAll {families : List Family} (hf : f ∉ families)
    (subject : Option String) (reason : String) (detail : Option String) (iteration : Nat)
    (s : AnalysisState) : Frame f s (s.unknownAll families subject reason detail iteration) :=
  (marks_unknownAll (P := fun _ => False) (absurd · hf) reason detail iteration s).frame fun _ => id

protected theorem Frame.adjustAll {families : List Family} (hf : f ∉ families)
    (change : Progress → Progress) (s : AnalysisState) :
    Frame f s (s.adjustAll families change) := by
  unfold adjustAll
  induction families generalizing s with
  | nil => exact Frame.refl f s
  | cons family families ih =>
    obtain ⟨hne, hf⟩ := not_or.1 (mt List.mem_cons.2 hf)
    exact (show Frame f s (s.adjust family change) from
      ⟨by simp [hne], fun _ _ => Iff.rfl⟩).trans (ih hf _)

protected theorem Settles.emitCall (call : ExactCall) (s : AnalysisState) :
    Settles .callGraph 1 s (emitCall bounds call s) :=
  .completed (by simp [emitCall])
    fun _ hrow _ => by simpa [emitCall, adjust] using hrow

protected theorem Frame.emitCall (hf : f ≠ .callGraph) (call : ExactCall) (s : AnalysisState) :
    Frame f s (emitCall bounds call s) :=
  ⟨by simp [emitCall, hf], fun _ _ => by simp [emitCall, adjust]⟩

/-- The units a call that is not exact leaves unknown. -/
def gapUnits (call : CommonCallSite) : Nat := if call.resolution.gap.isSome then 1 else 0

protected theorem Settles.emitCallGap (hf : f ∈ Family.callGraph :: topologyFamilies)
    (call : CommonCallSite) (s : AnalysisState) :
    Settles f (gapUnits call) s (emitCallGap call s) := by
  unfold emitCallGap gapUnits
  cases hgap : call.resolution.gap with
  | none => exact (Frame.refl f s).settles
  | some =>
    refine .unknown ?_ Nat.one_pos
    simp only [topologyFamilies, mem_cons, not_mem_nil, or_false] at hf
    obtain rfl | rfl | rfl := hf <;> simp [adjustAll, topologyFamilies]

protected theorem Frame.emitCallGap (hf : f ∉ Family.callGraph :: topologyFamilies)
    (call : CommonCallSite)
    (s : AnalysisState) : Frame f s (emitCallGap call s) := by
  have hne : f ≠ .callGraph ∧ f ≠ .sccMembership ∧ f ≠ .reachability := by
    simpa [topologyFamilies] using hf
  unfold emitCallGap
  cases hgap : call.resolution.gap with
  | none => exact Frame.refl f s
  | some =>
    refine ⟨by simp [adjustAll, topologyFamilies, hne], fun _ hrow => ?_⟩
    subst hrow
    simp only [topologyFamilies, adjustAll, foldl_cons, foldl_nil,
      adjust, mem_unknownAll, mem_unknown]
    constructor
    · rintro ((h | h) | ⟨_, _, h⟩)
      · exact absurd (congrArg UnknownRow.family h) hne.1
      · exact h
      · have := congrArg UnknownRow.family h
        simp_all
    · exact fun h => .inl (.inr h)

protected theorem Settles.recordMember (identity callable : String) (s : AnalysisState) :
    Settles .sccMembership 1 s (recordMember identity topologyComplete bounds callable s) :=
  .completed (by simp [recordMember])
    fun _ hrow _ => by simpa [recordMember, adjust] using hrow

protected theorem Frame.recordMember (hf : f ≠ .sccMembership) (identity callable : String)
    (s : AnalysisState) : Frame f s (recordMember identity topologyComplete bounds callable s) :=
  ⟨by simp [recordMember, hf], fun _ _ => by simp [recordMember, adjust]⟩

protected theorem Settles.emitMember (component : List String) (callable : String)
    (s : AnalysisState) :
    Settles .sccMembership 1 s
      (emitMember lib adjacent topologyComplete bounds component callable s) := by
  unfold emitMember
  split
  · exact (Settles.recordMember _ callable s).trans (Frame.unknownAll (by decide) _ _ _ _ _).settles
  · exact .recordMember _ callable s

theorem marks_emitMember (hf : f ≠ .sccMembership) {component : List String}
    (hP : f ∈ summaryFamilies → IsRecursive adjacent component → P callable) (s : AnalysisState) :
    Marks f P s (emitMember lib adjacent topologyComplete bounds component callable s) := by
  unfold emitMember
  split
  · rename_i hr
    exact (Frame.recordMember hf _ callable s).marks.trans
      (marks_unknownAll (fun h => ⟨callable, rfl, hP h hr⟩) _ _ _ _)
  · exact (Frame.recordMember hf _ callable s).marks

protected theorem Settles.emitReachable (callables : Finset String) (root : String)
    (current : PairCount × AnalysisState) : Settles .reachability 1 current.2
      (emitReachable callables adjacent topologyComplete bounds root current).2 := by
  unfold emitReachable
  dsimp only
  split
  · exact .unknown (by simp) Nat.one_pos
  split
  · exact .unknown (by simp) Nat.one_pos
  · exact .completed (by simp) fun _ hrow _ => by simpa [adjust] using hrow

protected theorem Frame.emitReachable (hf : f ≠ .reachability) (callables : Finset String)
    (root : String)
    (current : PairCount × AnalysisState) :
    Frame f current.2
      (emitReachable callables adjacent topologyComplete bounds root current).2 := by
  have hgap : ∀ detail : String, Frame f current.2
      ((current.2.unknown .reachability (some root) "REACHABILITY_PAIR_BOUND_EXHAUSTED"
        (some detail) 0).adjust .reachability (·.addUnknown 1)) := by
    refine fun detail => ⟨by simp [hf], fun row hrow => ?_⟩
    simp only [adjust, mem_unknown]
    exact or_iff_right fun h => hf (by rw [← hrow, h])
  unfold emitReachable
  dsimp only
  split
  · exact hgap _
  split
  · exact hgap _
  · exact ⟨by simp [hf], fun row _ => by simp [adjust]⟩

protected theorem Settles.deriveReachability (callables : Finset String) (s : AnalysisState) :
    Settles .reachability callables.card s
      (deriveReachability callables adjacent topologyComplete bounds s) := by
  have hl : ∀ (roots : List String) (current : PairCount × AnalysisState),
      Settles .reachability roots.length current.2
        (forEach roots (emitReachable callables adjacent topologyComplete bounds) current).2 := by
    intro roots
    induction roots with
    | nil => exact fun current => (Frame.refl _ _).settles
    | cons root roots ih =>
      intro current
      rw [length_cons, Nat.add_comm]
      exact (Settles.emitReachable callables root current).trans (ih _)
  have hrts := hl (inOrder callables) (⟨0, false⟩, s)
  rwa [length_inOrder] at hrts

protected theorem Frame.deriveReachability (hf : f ≠ .reachability) (callables : Finset String)
    (s : AnalysisState) :
    Frame f s (deriveReachability callables adjacent topologyComplete bounds s) :=
  forEach_induct (P := fun current : PairCount × AnalysisState => Frame f s current.2)
    (Frame.refl f s) fun root _ current hs => hs.trans (.emitReachable hf callables root current)

theorem sum_gapUnits (calls : List CommonCallSite) : (calls.map gapUnits).sum =
    (calls.filter fun call => call.resolution.gap.isSome).length := by
  induction calls with
  | nil => rfl
  | cons call calls ih =>
    rw [map_cons, sum_cons, filter_cons, ih, gapUnits]
    split <;> simp [Nat.add_comm]

theorem length_exact_add_unresolved (calls : List CommonCallSite) :
    (calls.filterMap (·.toCall)).length +
      (calls.filter fun call => call.resolution.gap.isSome).length = calls.length := by
  induction calls with
  | nil => rfl
  | cons call calls ih =>
    have hc : call.toCall.isSome ↔ ¬call.resolution.gap.isSome := by
      cases hr : call.resolution <;>
        simp [CommonCallSite.toCall, CommonCallResolution.callee, CommonCallResolution.gap, hr]
    rw [filterMap_cons, filter_cons, length_cons]
    cases he : call.toCall with
    | none =>
      have hgap : call.resolution.gap.isSome := by
        simpa [he, Option.isSome_iff_ne_none] using hc
      rw [if_pos hgap, length_cons, ← Nat.add_assoc, ih]
    | some =>
      have hgap : ¬call.resolution.gap.isSome := hc.1 (by rw [he]; rfl)
      rw [if_neg hgap, length_cons, Nat.add_right_comm, ih]

section

variable {components : List (List String)}

theorem Settles.callLoop (f : Family) (s : AnalysisState) :
    Settles f (if f = .callGraph then exactCalls.length else 0) s
      (forEach exactCalls (emitCall bounds) s) := by
  refine .ite (fun hf => ?_) fun hf => .forEach (fun call _ s => .emitCall hf call s) s
  subst hf
  exact .forEach_one (fun call _ s => .emitCall call s) s

theorem Settles.gapLoop (f : Family) (s : AnalysisState) :
    Settles f (if f ∈ Family.callGraph :: topologyFamilies then unresolvedCount input else 0) s
      (forEach input.calls emitCallGap s) := by
  refine .ite (fun hf => ?_) fun hf => .forEach (fun call _ s => .emitCallGap hf call s) s
  rw [unresolvedCount, ← sum_gapUnits]
  exact .forEach (fun call _ s => .emitCallGap hf call s) s

theorem marks_componentLoop (hf : f ≠ .sccMembership)
    (hP : f ∈ summaryFamilies → ∀ component ∈ components, IsRecursive adjacent component →
      ∀ callable ∈ component, P callable) (s : AnalysisState) :
    Marks f P s (forEach components (emitComponent lib adjacent topologyComplete bounds) s) :=
  marks_forEach (fun component hcomp s => marks_forEach (fun callable hcal s =>
    marks_emitMember hf (fun h hr => hP h component hcomp hr callable hcal) s) s) s

theorem Settles.componentLoop (hf : f ∉ summaryFamilies) (s : AnalysisState) :
    Settles f (if f = .sccMembership then components.flatten.length else 0) s
      (forEach components (emitComponent lib adjacent topologyComplete bounds) s) := by
  refine .ite (fun hscc => ?_) fun hscc =>
    (marks_componentLoop (P := fun _ => False) hscc (absurd · hf) s).frame fun _ => id
  subst hscc
  rw [length_flatten]
  exact .forEach (fun component _ s => .forEach_one
    (fun callable _ s => .emitMember component callable s) s) s

theorem Settles.reachabilityLoop (f : Family) (callables : Finset String) (s : AnalysisState) :
    Settles f (if f = .reachability then callables.card else 0) s
      (deriveReachability callables adjacent topologyComplete bounds s) := by
  refine .ite (fun hf => ?_) fun hf => .deriveReachability hf callables s
  subst hf
  exact .deriveReachability callables s

/-- The units the topology stage settles of a family that is not about summaries. -/
def topologyUnits (input : CommonDerivedAnalysisInput) (exactCalls : List ExactCall)
    (components : List (List String)) : Family → Nat
  | .callGraph => exactCalls.length + unresolvedCount input
  | .sccMembership => unresolvedCount input + components.flatten.length
  | .reachability => unresolvedCount input + (callablesOf input).card
  | _ => 0

theorem Settles.topology (hf : f ∉ summaryFamilies) (s : AnalysisState) :
    Settles f (topologyUnits input exactCalls components f) s
      (deriveTopology lib input exactCalls components bounds s) := by
  have hun : topologyUnits input exactCalls components f =
      (if f = .callGraph then exactCalls.length else 0) +
        (if f ∈ Family.callGraph :: topologyFamilies then unresolvedCount input else 0) +
        (if f = .sccMembership then components.flatten.length else 0) +
        (if f = .reachability then (callablesOf input).card else 0) := by
    cases f <;> simp [topologyUnits, topologyFamilies]
  rw [hun]
  exact (((Settles.callLoop f s).trans (.gapLoop f _)).trans
    (.componentLoop hf _)).trans (.reachabilityLoop f _ _)

theorem marks_topology (hf : f ∉ Family.callGraph :: topologyFamilies)
    (hP : f ∈ summaryFamilies → ∀ component ∈ components,
      IsRecursive (adjacency exactCalls) component → ∀ callable ∈ component, P callable)
    (s : AnalysisState) :
    Marks f P s (deriveTopology lib input exactCalls components bounds s) := by
  have hne : f ≠ .callGraph ∧ f ≠ .sccMembership ∧ f ≠ .reachability := by
    simpa [topologyFamilies] using hf
  have hcalls : Frame f s (forEach input.calls emitCallGap
    (forEach exactCalls (emitCall bounds) s)) :=
    (Frame.forEach (fun call _ s => .emitCall hne.1 call s) s).trans
      (.forEach (fun call _ s => .emitCallGap hf call s) _)
  exact (hcalls.marks.trans (marks_componentLoop hne.2.1 hP _)).trans
    (Frame.deriveReachability hne.2.2 _ _).marks

end

/-! ## Summaries -/

theorem marks_emitSeedGap (hP : f ∈ summaryFamilies →
      (input.local callable).all (·.Exceeds bounds.maxSummaryValues) → P callable)
    (s : AnalysisState) : Marks f P s (emitSeedGap input bounds callable s) := by
  unfold emitSeedGap
  cases hloc : input.local callable with
  | none => exact marks_unknownAll (fun h => ⟨callable, rfl, hP h (by rw [hloc]; rfl)⟩) _ _ _ _
  | some =>
    dsimp only
    split
    · rename_i hexc
      exact marks_unknownAll (fun h => ⟨callable, rfl, hP h (by simpa [hloc] using hexc)⟩) _ _ _ _
    · exact (Frame.refl f s).marks

theorem Frame.seedGaps (hf : f ∉ summaryFamilies) (callables : List String) (s : AnalysisState) :
    Frame f s (forEach callables (emitSeedGap input bounds) s) :=
  (marks_forEach (P := fun _ => False) (fun _ _ => marks_emitSeedGap (absurd · hf)) s).frame
    fun _ => id

theorem propagateCall_incomplete (f : Family) (bounds : CommonAnalysisBounds) (iteration : Nat)
    (prior : Summaries) (call : String × String) (round : Round) : round.summaries.incomplete ⊆
        (propagateCall bounds iteration prior call round).summaries.incomplete ∧
      Marks f (fun c => f ∈ summaryFamilies ∧ c = call.1 ∧
          c ∈ (propagateCall bounds iteration prior call round).summaries.incomplete)
        round.state (propagateCall bounds iteration prior call round).state := by
  unfold propagateCall
  dsimp only
  refine ⟨?_, ?_⟩
  · split
    · exact Finset.subset_insert _ _
    · exact Finset.Subset.refl _
  · by_cases hhit : ((absorb bounds.maxSummaryValues (prior.effects call.2)
        (round.summaries.effects call.1)).boundHit ||
        (absorb bounds.maxSummaryValues (prior.resources call.2)
          (round.summaries.resources call.1)).boundHit) = true
    · rw [if_pos hhit]
      exact marks_unknownAll (fun h => ⟨_, rfl, h, rfl, by simp [hhit]⟩) _ _ _ _
    · rw [if_neg hhit]
      exact (Frame.refl _ _).marks

theorem Frame.iterations (f : Family) (iteration : Nat) (s : AnalysisState) :
    Frame f s { s with iterations := iteration } := ⟨rfl, fun _ _ => Iff.rfl⟩

theorem marks_propagateRounds {callables : Finset String} {calls : List (String × String)}
    (hcl : f ∈ summaryFamilies → ∀ call ∈ calls, call.1 ∈ callables) (remaining iteration : Nat)
    (summaries : Summaries) (s : AnalysisState) : summaries.incomplete ⊆
        (propagateRounds bounds calls remaining iteration summaries s).2.1.incomplete ∧
      Marks f (fun c => f ∈ summaryFamilies ∧ c ∈ callables ∧
          c ∈ (propagateRounds bounds calls remaining iteration summaries s).2.1.incomplete) s
        (propagateRounds bounds calls remaining iteration summaries s).2.2 := by
  induction remaining generalizing iteration summaries s with
  | zero => exact ⟨Finset.Subset.refl _, (Frame.refl _ _).marks⟩
  | succ remaining ih =>
    -- the invariant of one round: flags are on callables that are incomplete by then
    have hr : ∀ round : Round, round = forEach calls (propagateCall bounds iteration summaries)
          ⟨summaries, false, { s with iterations := iteration }⟩ →
        summaries.incomplete ⊆ round.summaries.incomplete ∧
          Marks f (fun c => f ∈ summaryFamilies ∧ c ∈ callables ∧ c ∈ round.summaries.incomplete) s
            round.state := by
      rintro round rfl
      refine forEach_induct (P := fun round : Round =>
        summaries.incomplete ⊆ round.summaries.incomplete ∧ Marks f (fun c =>
          f ∈ summaryFamilies ∧ c ∈ callables ∧ c ∈ round.summaries.incomplete) s round.state)
        ⟨Finset.Subset.refl _, (Frame.iterations f iteration s).marks⟩ ?_
      rintro call hcall round ⟨hlw, hfl⟩
      obtain ⟨hg, hflag⟩ := propagateCall_incomplete f bounds iteration summaries call round
      refine ⟨hlw.trans hg, (hfl.mono fun c hc => ⟨hc.1, hc.2.1, hg hc.2.2⟩).trans (hflag.mono ?_)⟩
      rintro c ⟨hf, rfl, hc⟩
      exact ⟨hf, hcl hf call hcall, hc⟩
    obtain ⟨hlw, hfl⟩ := hr _ rfl
    rw [propagateRounds]
    split
    · obtain ⟨hl', hf'⟩ := ih (iteration + 1)
        (forEach calls (propagateCall bounds iteration summaries)
          ⟨summaries, false, { s with iterations := iteration }⟩).summaries
        (forEach calls (propagateCall bounds iteration summaries)
          ⟨summaries, false, { s with iterations := iteration }⟩).state
      exact ⟨hlw.trans hl', (hfl.mono fun c hc => ⟨hc.1, hc.2.1, hl' hc.2.2⟩).trans hf'⟩
    · exact ⟨hlw, hfl⟩

variable {components schedule : List (List String)} {callers : String → Finset String}

theorem scheduledCalls_caller (hsch : ∀ callable ∈ schedule.flatten, callable ∈ callablesOf input) :
    ∀ call ∈ scheduledCalls schedule adjacent, call.1 ∈ callablesOf input := by
  intro call hcl
  simp only [scheduledCalls, mem_flatMap, mem_map] at hcl
  obtain ⟨caller, hclr, _, _, rfl⟩ := hcl
  exact hsch caller hclr

/-- Deriving the summaries flags callables it leaves incomplete. -/
theorem marks_deriveSummaries (hsch : f ∈ summaryFamilies →
      ∀ callable ∈ schedule.flatten, callable ∈ callablesOf input) (s : AnalysisState) :
    seedIncomplete input bounds (adjacency exactCalls) components ⊆
        (deriveSummaries input exactCalls components schedule bounds s).1.incomplete ∧
      Marks f (fun c => f ∈ summaryFamilies ∧ c ∈ callablesOf input ∧
          c ∈ (deriveSummaries input exactCalls components schedule bounds s).1.incomplete) s
        (deriveSummaries input exactCalls components schedule bounds s).2 := by
  have hp : ∀ result : Bool × Summaries × AnalysisState,
      result = propagateSummaries schedule (adjacency exactCalls) bounds
        (seedSummaries input bounds (adjacency exactCalls) components) s →
      seedIncomplete input bounds (adjacency exactCalls) components ⊆ result.2.1.incomplete ∧
        Marks f (fun c => f ∈ summaryFamilies ∧ c ∈ callablesOf input ∧ c ∈ result.2.1.incomplete)
          s result.2.2 := by
    rintro result rfl
    unfold propagateSummaries
    split
    · exact ⟨Finset.Subset.refl _, (Frame.refl _ _).marks⟩
    · exact marks_propagateRounds (fun h => scheduledCalls_caller (hsch h)) bounds.maxIterations 1
        (seedSummaries input bounds (adjacency exactCalls) components) s
  obtain ⟨hl, hf⟩ := hp _ rfl
  unfold deriveSummaries
  dsimp only
  generalize propagateSummaries schedule (adjacency exactCalls) bounds
    (seedSummaries input bounds (adjacency exactCalls) components) s = result at hl hf ⊢
  obtain ⟨exhausted, _, s₁⟩ := result
  dsimp only at hl hf
  -- closing under callers only adds incomplete callables
  have hcl : ∀ incomplete : Finset String, incomplete ⊆
      propagateIncompleteCallers (callablesOf input) (reverseCallers exactCalls) incomplete :=
    fun incomplete => subset_saturate _ _ _
  cases exhausted with
  | false =>
    exact ⟨hl.trans (hcl _), hf.mono fun c hc => ⟨hc.1, hc.2.1, hcl _ hc.2.2⟩⟩
  | true =>
    refine ⟨(hl.trans Finset.subset_union_left).trans (hcl _), ?_⟩
    refine (hf.mono fun c hc => ⟨hc.1, hc.2.1, hcl _ (Finset.mem_union_left _ hc.2.2)⟩).trans
      (marks_forEach (fun callable hcal s => ?_) s₁)
    have hmem : callable ∈ callablesOf input := mem_inOrder.1 hcal
    exact marks_unknownAll
      (fun h => ⟨callable, rfl, h, hmem, hcl _ (Finset.mem_union_right _ hmem)⟩) _ _ _ s

protected theorem Frame.deriveSummaries (hf : f ∉ summaryFamilies) (s : AnalysisState) :
    Frame f s (deriveSummaries input exactCalls components schedule bounds s).2 :=
  (marks_deriveSummaries (absurd · hf) s).2.frame fun _ h => hf h.1

protected theorem Settles.emitCallableSummary (hf : f ∈ summaryFamilies) (summaries : Summaries)
    (callable : String) (s : AnalysisState) :
    Settles f 1 s (emitCallableSummary lib summaries bounds callable s) := by
  unfold emitCallableSummary
  dsimp only
  rw [adjustAll_eq (by decide)]
  by_cases hinc : callable ∈ summaries.incomplete
  · simp only [hinc, if_true]
    exact .unknown (by simp [hf]) Nat.one_pos
  · simp only [hinc, if_false]
    exact .completed (by simp [hf]) fun _ hrow _ => by simpa using hrow

theorem unknown_lt_emitCallableSummary (hf : f ∈ summaryFamilies) {summaries : Summaries}
    (hinc : callable ∈ summaries.incomplete) (s : AnalysisState) : (s.progress f).unknown <
      ((emitCallableSummary lib summaries bounds callable s).progress f).unknown := by
  unfold emitCallableSummary
  rw [AnalysisState.adjustAll_eq (by decide)]
  simp [hf, hinc, Progress.addUnknown]

protected theorem Frame.emitCallableSummary (hf : f ∉ summaryFamilies) (summaries : Summaries)
    (callable : String) (s : AnalysisState) :
    Frame f s (emitCallableSummary lib summaries bounds callable s) := by
  have hr : Frame f s (if callable ∈ summaries.incomplete then
      s.unknownAll summaryFamilies (some callable) "TRANSITIVE_SUMMARY_INCOMPLETE" none s.iterations
    else s) := by
    split
    · exact .unknownAll hf _ _ _ _ s
    · exact Frame.refl f s
  have hfc : ∀ rows s, Frame f s (s.insertFacts rows bounds) :=
    fun rows s => ⟨by simp, fun _ _ => by simp⟩
  exact (hr.trans (hfc _ _)).trans (.adjustAll hf _ _)

theorem unknown_lt_forEach {α : Type} {items : List α} {body : α → AnalysisState → AnalysisState}
    {units : α → Nat} (h : ∀ a ∈ items, ∀ s, Settles f (units a) s (body a s)) {a : α}
    (ha : a ∈ items) (hlt : ∀ s, (s.progress f).unknown < ((body a s).progress f).unknown)
    (s : AnalysisState) : (s.progress f).unknown < ((forEach items body s).progress f).unknown := by
  induction items generalizing s with
  | nil => cases ha
  | cons b items ih =>
    have hr : ∀ c ∈ items, ∀ s, Settles f (units c) s (body c s) :=
      fun c hc => h c (mem_cons_of_mem _ hc)
    obtain rfl | ha := List.mem_cons.1 ha
    · exact (hlt s).trans_le (Settles.forEach hr (body a s)).unknown_le
    · exact (h b mem_cons_self s).unknown_le.trans_lt (ih hr ha (body b s))

theorem Settles.emission (hf : f ∈ summaryFamilies) {summaries : Summaries}
    {callables : Finset String}
    (hfl : Flags f (fun c => c ∈ callables ∧ c ∈ summaries.incomplete) s s') :
    Settles f callables.card s
      (forEach (inOrder callables) (emitCallableSummary lib summaries bounds) s') := by
  have hitems : ∀ callable ∈ inOrder callables, ∀ s,
      Settles f 1 s (emitCallableSummary lib summaries bounds callable s) :=
    fun callable _ s => .emitCallableSummary hf summaries callable s
  have hlp := Settles.forEach_one hitems s'
  rw [length_inOrder] at hlp
  refine ⟨by simpa using hfl.accounts.trans hlp.toAccounts, fun row hrow hfam => ?_⟩
  rw [← hfl.progress]
  obtain hrow' | hlt := hlp.explains row hrow hfam
  · refine (hfl.flagged row hrow' hfam).imp_right ?_
    rintro ⟨callable, _, hcal, hinc⟩
    exact unknown_lt_forEach hitems (mem_inOrder.2 hcal) (unknown_lt_emitCallableSummary hf hinc) s'
  · exact .inr hlt

/-! ## The call stage -/

/-- What the call stage does: it gives up on a graph that is too large, or derives the topology and
the summaries. -/
theorem deriveCallFamilies_eq_ok
    (h : deriveCallFamilies lib input exactCalls bounds s = .ok (s', callers)) :
    (CallsExceed input bounds ∧ s' = exhaustCalls input bounds (requestCalls input s) ∧
        callers = fun _ => ∅) ∨
      (¬CallsExceed input bounds ∧ callers = reverseCallers exactCalls ∧
        ∃ graph schedule summaries topology,
          buildCallGraph (callablesOf input) exactCalls = .ok graph ∧
          fixedPointSchedule lib graph (deterministicSccs lib graph) = .ok schedule ∧
          topology = forEach (inOrder (callablesOf input)) (emitSeedGap input bounds)
            (deriveTopology lib input exactCalls (deterministicSccs lib graph) bounds
              (requestCalls input s)) ∧
          summaries = deriveSummaries input exactCalls (deterministicSccs lib graph) schedule bounds
            topology ∧
          s' = forEach (inOrder (callablesOf input)) (emitCallableSummary lib summaries.1 bounds)
            summaries.2) := by
  unfold deriveCallFamilies at h
  by_cases hexc : CallsExceed input bounds
  · simp only [hexc, if_true, Except.ok.injEq, Prod.mk.injEq] at h
    exact .inl ⟨hexc, h.1.symm, h.2.symm⟩
  · simp only [hexc, if_false, ok_iff, Prod.mk.injEq] at h
    obtain ⟨graph, hgr, schedule, hsch, hst, hc⟩ := h
    exact .inr ⟨hexc, hc.symm, graph, schedule, _, _, hgr, hsch, rfl, rfl, hst.symm⟩

theorem progress_requestCalls (s : AnalysisState) (f : Family) : (requestCalls input s).progress f =
    if f = .callGraph then .requesting input.calls.length
    else if f ∈ topologyFamilies then
      .requesting (saturatingAdd (callablesOf input).card (unresolvedCount input))
    else if f ∈ summaryFamilies then .requesting (callablesOf input).card
    else s.progress f := by
  cases f <;> simp [requestCalls, adjustAll, topologyFamilies, summaryFamilies]

protected theorem Frame.requestCalls (hf : f ∉ callFamilies) (s : AnalysisState) :
    Frame f s (requestCalls input s) := by
  obtain ⟨hc, htop, hsum⟩ : f ≠ .callGraph ∧ f ∉ topologyFamilies ∧ f ∉ summaryFamilies := by
    simpa [callFamilies, and_assoc] using hf
  refine ⟨by rw [progress_requestCalls, if_neg hc, if_neg htop, if_neg hsum], ?_⟩
  exact fun _ _ => Iff.rfl

def callUnits (input : CommonDerivedAnalysisInput) (exactCalls : List ExactCall) : Family → Nat
  | .callGraph => exactCalls.length + unresolvedCount input
  | .sccMembership | .reachability => unresolvedCount input + (callablesOf input).card
  | .callableEffect | .callableResource | .callableSummary => (callablesOf input).card
  | _ => 0

/-- **The call stage settles the call families** of a graph within the bounds. -/
protected theorem Settles.deriveCallFamilies (hlib : lib.Documented)
    (hstg : Staged input exactCalls)
    (hexc : ¬CallsExceed input bounds)
    (h : deriveCallFamilies lib input exactCalls bounds s = .ok (s', callers)) (f : Family) :
    Settles f (callUnits input exactCalls f) (requestCalls input s) s' := by
  obtain ⟨hcn, _⟩ | ⟨_, _, graph, _, summaries, topology, hgr, hsch, htop,
    hsm, hem⟩ := deriveCallFamilies_eq_ok h
  · exact absurd hcn hexc
  have hisGraph := isCallGraph_of_build hstg hgr
  rw [hem]
  by_cases hf : f ∈ summaryFamilies
  · have hun : callUnits input exactCalls f = (callablesOf input).card := by
      simp only [summaryFamilies, mem_cons, not_mem_nil, or_false] at hf
      obtain rfl | rfl | rfl := hf <;> rfl
    rw [hun]
    refine .emission hf (Marks.toFlags ?_)
    obtain ⟨hsd, hp⟩ : seedIncomplete input bounds (adjacency exactCalls)
        (deterministicSccs lib graph) ⊆ summaries.1.incomplete ∧
          Marks f (fun c => f ∈ summaryFamilies ∧ c ∈ callablesOf input ∧
            c ∈ summaries.1.incomplete) topology summaries.2 := by
      rw [hsm]
      exact marks_deriveSummaries (fun _ c hc => (mem_schedule hlib hisGraph hsch).1 hc) _
    refine Marks.trans ?_ (hp.mono fun _ h => h.2)
    rw [htop]
    refine Marks.trans ?_ (marks_forEach (fun callable hcal s => ?_) _)
    · -- the members of recursive components are incomplete from the start
      refine marks_topology (by cases f <;> first | decide | exact absurd hf (by decide))
        (fun _ component hcm hr callable hcal => ?_) _
      refine ⟨mem_callablesOf_of_mem_component hlib hisGraph hcm hcal, hsd ?_⟩
      refine Finset.mem_union_left _ (Finset.mem_union_right _ ?_)
      rw [mem_toFinset, mem_flatten]
      exact ⟨component, List.mem_filter.2 ⟨hcm, by simpa using hr⟩, hcal⟩
    · have hmem : callable ∈ callablesOf input := mem_inOrder.1 hcal
      refine marks_emitSeedGap (fun _ hgap => ⟨hmem, hsd ?_⟩) s
      exact Finset.mem_union_right _ (Finset.mem_filter.2 ⟨hmem, hgap⟩)
  · have hcomps : (deterministicSccs lib graph).flatten.length = (callablesOf input).card := by
      rw [(deterministicSccs_perm hlib hisGraph).length_eq, length_inOrder]
    have hun : callUnits input exactCalls f =
        topologyUnits input exactCalls (deterministicSccs lib graph) f := by
      cases f <;> simp_all [topologyUnits, callUnits, summaryFamilies]
    have hseeds : Settles f (callUnits input exactCalls f) (requestCalls input s) topology := by
      rw [htop, hun]
      exact (Settles.topology hf _).trans (Frame.seedGaps hf _ _).settles
    have hp : Frame f topology summaries.2 := by
      rw [hsm]
      exact .deriveSummaries hf topology
    have hemis : Frame f summaries.2 (forEach (inOrder (callablesOf input))
        (emitCallableSummary lib summaries.1 bounds) summaries.2) :=
      .forEach (fun callable _ s => .emitCallableSummary hf _ callable s) _
    exact hseeds.trans (hp.trans hemis).settles

protected theorem Frame.deriveCallFamilies (hf : f ∉ callFamilies)
    (h : deriveCallFamilies lib input exactCalls bounds s = .ok (s', callers)) : Frame f s s' := by
  have hsum : f ∉ summaryFamilies := fun hmem =>
    hf (mem_cons_of_mem _ (mem_append_right _ hmem))
  have hreq : Frame f s (requestCalls input s) := .requestCalls hf s
  obtain ⟨_, rfl, _⟩ | ⟨_, _, _, _, summaries, topology, _, _, htop,
    hsm, rfl⟩ := deriveCallFamilies_eq_ok h
  · unfold exhaustCalls
    exact hreq.trans ((Frame.unknownAll hf _ _ _ _ _).trans (.adjustAll hf _ _))
  · have hsd : Frame f (requestCalls input s) topology := by
      rw [htop]
      have hcalls : f ∉ Family.callGraph :: topologyFamilies := fun hmem =>
        hf (mem_append_left summaryFamilies hmem)
      exact ((marks_topology (P := fun _ => False) hcalls (absurd · hsum) _).frame fun _ =>
        id).trans
        (.seedGaps hsum _ _)
    have hp : Frame f topology summaries.2 := by
      rw [hsm]
      exact .deriveSummaries hsum topology
    exact ((hreq.trans hsd).trans hp).trans
      (.forEach (fun callable _ s => .emitCallableSummary hsum _ callable s) _)

end

/-! ## The partition -/

/-- The requested units are the completed, remaining and unknown ones, unless the counter of
requested units is at its largest value. -/
def Progress.Partitioned (progress : Progress) : Prop :=
  progress.requested < u64Max →
    progress.requested = progress.completed + progress.remainder + progress.unknown

open Progress

theorem Settled.partitioned (h : Settled f s) : (s.progress f).Partitioned := by
  intro _
  rw [h.1, h.2, Nat.add_zero]

section

variable {lib : Libraries} {bounds : CommonAnalysisBounds} {input : CommonDerivedAnalysisInput}
  {triples : NormalizedTriples}

theorem partitioned_deriveCallFamilies (hlib : lib.Documented) (hacc : Accepted input)
    (hspl : splitStage (lib.distinctSorted (stageRows input)) = .ok triples)
    {callers : String → Finset String} (hf : f ∈ callFamilies)
    (h : deriveCallFamilies lib input triples.calls bounds s = .ok (s', callers)) :
    (s'.progress f).Partitioned := by
  by_cases hexc : CallsExceed input bounds
  · obtain ⟨_, rfl, _⟩ | ⟨hcn, _⟩ := deriveCallFamilies_eq_ok h
    · intro _
      rw [exhaustCalls, adjustAll_eq (by decide)]
      simp only [hf, if_true, progress_unknownAll, progress_requestCalls]
      simp only [callFamilies, topologyFamilies, summaryFamilies, cons_append,
        nil_append, mem_cons, not_mem_nil, or_false] at hf
      obtain rfl | rfl | rfl | rfl | rfl | rfl := hf <;>
        simp [requesting, topologyFamilies, summaryFamilies]
    · exact absurd hexc hcn
  · have hset := Settles.deriveCallFamilies hlib (fun _ => mem_staged_calls hlib hspl) hexc h f
    obtain ⟨hrqd, hrem, hct, _⟩ := hset.toAccounts
    have hexact : triples.calls.length + unresolvedCount input = input.calls.length := by
      rw [(staged_calls_perm hlib hspl hacc).length_eq]
      exact length_exact_add_unresolved input.calls
    rw [progress_requestCalls] at hrqd hrem hct
    simp only [callFamilies, topologyFamilies, summaryFamilies, cons_append,
      nil_append, mem_cons, not_mem_nil, or_false] at hf
    intro _
    obtain rfl | rfl | rfl | rfl | rfl | rfl := hf <;>
      simp [requesting, topologyFamilies, summaryFamilies, callUnits, saturatingAdd] at * <;>
      omega

theorem Progress.Partitioned.gap {progress : Progress} (h : progress.Partitioned)
    (coverage : CommonInputCoverage) : (coverage.gap progress).Partitioned := by
  intro hlt
  unfold Progress.Partitioned at h
  simp only [CommonInputCoverage.gap, saturatingAdd] at hlt ⊢
  omega

theorem partitioned_applyUpstreamCoverage
    (h : applyUpstreamCoverage input s = .ok s') (hs : (s.progress f).Partitioned) :
    (s'.progress f).Partitioned := by
  refine foldlM_induct (P := fun s => (s.progress f).Partitioned) hs ?_ h
  intro inputFamily _ _ _ hst hs₁
  simp only [applyCoverage, ok_iff] at hst
  obtain ⟨coverage, _, hst⟩ := hst
  split at hst
  · cases hst
    exact hs₁
  · cases hst
    rw [adjustAll_eq (by cases inputFamily <;> decide)]
    dsimp only
    split
    · simpa using hs₁.gap coverage
    · simpa using hs₁

theorem partitioned_reportExhausted (family : Family) (hs : (s.progress f).Partitioned) :
    ((reportExhausted family s).progress f).Partitioned := by
  unfold reportExhausted
  split
  · rw [progress_adjust]
    split
    · subst f
      unfold Progress.Partitioned at hs ⊢
      simp only [progress_unknown, saturatingAdd]
      omega
    · simpa using hs
  · exact hs

theorem settled_deriveDataDependence {rows : List CommonDefUse} (s : AnalysisState) :
    Settled .dataDependence (deriveDataDependence input rows bounds s) := by
  simp [Settled, deriveDataDependence, requesting, addCompleted]

protected theorem Frame.deriveDataDependence (hf : f ≠ .dataDependence) {rows : List CommonDefUse}
    (s : AnalysisState) : Frame f s (deriveDataDependence input rows bounds s) :=
  ⟨by simp [deriveDataDependence, hf], fun _ _ => by
    simp [deriveDataDependence, adjust]⟩

theorem Accepted.owner_of_edge (h : Accepted input) {edge : CommonCfgEdge}
    (he : edge ∈ input.cfgEdges) : edge.ownerId ∈ input.cfgNodes.map (·.ownerId) := by
  obtain ⟨node, hn, hkey⟩ := List.mem_map.1 (h.edges_within edge he).1
  exact List.mem_map.2 ⟨node, hn, congrArg Prod.fst hkey⟩

theorem analyzeCommonDerived_eq_ok (h : analyzeCommonDerived lib input bounds = .ok s) :
    Accepted input ∧ ∃ triples cfg calls callers covered,
      splitStage (lib.distinctSorted (stageRows input)) = .ok triples ∧
      deriveCfgFamilies lib input triples.cfg bounds .initial = .ok cfg ∧
      deriveCallFamilies lib input triples.calls bounds
        (deriveDataDependence input triples.data bounds cfg) = .ok (calls, callers) ∧
      applyUpstreamCoverage input (deriveInvalidation input callers calls) = .ok covered ∧
      s = forEach Family.all reportExhausted covered := by
  simp only [analyzeCommonDerived, ok_iff] at h
  obtain ⟨_, _, _, hi, _, hcov, triples, hspl, cfg, hcfg, ⟨calls, callers⟩, hcl,
    covered, hcv, hs⟩ := h
  exact ⟨accepted_of_validate hi hcov, triples, cfg, calls, callers, covered, hspl, hcfg,
    hcl, hcv, hs.symm⟩

/-- **The completeness partition.** -/
theorem completeness_partition (hlib : lib.Documented)
    (h : analyzeCommonDerived lib input bounds = .ok s) (f : Family)
    (hsaturated : (s.progress f).requested < u64Max) : (s.progress f).requested =
      (s.progress f).completed + (s.progress f).remainder + (s.progress f).unknown := by
  obtain ⟨hacc, _, cfg, calls, _, covered, hspl, hcfg, hcl, hcov, hs⟩ :=
    analyzeCommonDerived_eq_ok h
  have hstg : (calls.progress f).Partitioned := by
    by_cases hf : f ∈ callFamilies
    · exact partitioned_deriveCallFamilies hlib hacc hspl hf hcl
    rw [(Frame.deriveCallFamilies hf hcl).progress]
    by_cases hd : f = .dataDependence
    · subst hd
      exact (settled_deriveDataDependence cfg).partitioned
    · rw [(Frame.deriveDataDependence hd cfg).progress]
      have hcfgFamily : f ∈ cfgFamilies := by
        cases f <;> first | decide | exact absurd rfl hd | exact absurd (by decide) hf
      refine (settled_deriveCfgFamilies hcfgFamily (fun _ hed => ?_) hcfg).partitioned
      exact hacc.owner_of_edge ((mem_staged_cfg hlib hspl).1 hed)
  have hcv : (covered.progress f).Partitioned :=
    partitioned_applyUpstreamCoverage hcov hstg
  have hend : (s.progress f).Partitioned := by
    rw [hs]
    exact forEach_induct (P := fun s : AnalysisState => (s.progress f).Partitioned) hcv
      fun family _ _ hs => partitioned_reportExhausted family hs
  exact hend hsaturated

/-- The sample with a dynamic call, and call targets that were not all looked for. -/
def gapInput : CommonDerivedAnalysisInput :=
  { sampleInput {"db"} with
    calls := [⟨"c1", "f", .exact "g"⟩, ⟨"c2", "g", .dynamic "vtable"⟩]
    coverage := fun family => some
      (if family = .callTargets then ⟨5, 3, 2, 0, Vector.replicate 32 1⟩ else sampleCoverage) }

/-- Its units of reachability: two callables are completed, two units remain, one is unknown. -/
theorem sample_reachability_partition :
    ∃ s, analyzeCommonDerived sampleLibraries gapInput sampleBounds = .ok s ∧
      s.progress .reachability = ⟨5, 2, 2, 1⟩ ∧
      (s.progress .reachability).requested = (s.progress .reachability).completed +
        (s.progress .reachability).remainder + (s.progress .reachability).unknown := by
  obtain ⟨s, hs, hrqd⟩ := exists_ok_of_any
    (x := analyzeCommonDerived sampleLibraries gapInput sampleBounds)
    (p := fun s => s.progress .reachability = ⟨5, 2, 2, 1⟩) (by decide +kernel)
  have hunits : s.progress .reachability = ⟨5, 2, 2, 1⟩ := of_decide_eq_true hrqd
  refine ⟨s, hs, hunits, completeness_partition (referenceLibraries_documented _) hs _ ?_⟩
  rw [hunits]
  decide

end

end CodeFabric.Derived
