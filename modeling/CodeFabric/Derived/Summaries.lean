import CodeFabric.Derived.Emission
import CodeFabric.Derived.Propagation

/-! # Emitted callable summaries

From the summaries of the fixed point to the rows that are emitted for them. A summary row comes
after the effects and resources of its callable, so when it fits into the output they did as well.
-/

namespace CodeFabric.Derived

open Fallible Worklist AnalysisState List

variable {lib : Libraries} {bounds : CommonAnalysisBounds} {input : CommonDerivedAnalysisInput}
  {s s' : AnalysisState} {row : FactRow}

/-! ## Emitting facts -/

section

theorem mem_insertFacts_of_room {rows : List FactRow} {s : AnalysisState}
    (hrm : (s.insertFacts rows bounds).facts.card < bounds.maxOutputRows) (hrow : row ∈ rows) :
    row ∈ (s.insertFacts rows bounds).facts := by
  induction rows generalizing s with
  | nil => exact absurd hrow not_mem_nil
  | cons first rows ih =>
    obtain ⟨hg, _⟩ := insertFacts_facts bounds rows (s.insertFact first bounds)
    obtain rfl | hrow := List.mem_cons.1 hrow
    · refine hg ?_
      have hbef : s.facts.card < bounds.maxOutputRows := by
        refine (Finset.card_le_card ?_).trans_lt hrm
        exact (insertFacts_facts bounds (row :: rows) s).1
      rw [facts_insertFact, if_pos hbef]
      exact Finset.mem_insert_self _ _
    · exact ih hrm hrow

end

/-! ## The stages before -/

/-- No fact of a summary family was emitted. -/
def NoSummaries (s : AnalysisState) : Prop := ∀ row ∈ s.facts, row.family ∉ summaryFamilies

theorem NoSummaries.congr (hs : NoSummaries s) (h : s'.facts = s.facts) : NoSummaries s' :=
  fun row hrow => hs row (h ▸ hrow)

theorem NoSummaries.emitsOnly {families : List Family} (hs : NoSummaries s)
    (h : EmitsOnly bounds families s s') (hfam : ∀ f ∈ families, f ∉ summaryFamilies) :
    NoSummaries s' := fun row hrow hmem =>
  hs row ((h.mem_facts_iff fun h => hfam _ h hmem).1 hrow) hmem

/-! ## Emitted rows -/

def summaryRow (lib : Libraries) (summaries : Summaries) (iterations : Nat) (callable : String) :
    FactRow :=
  let complete := decide (callable ∉ summaries.incomplete)
  summaryFact .callableSummary callable
    (summaryIdentity lib (summaries.effects callable) (summaries.resources callable) complete)
    iterations complete

variable {callable : String} {summaries : Summaries} {iterations : Nat}

theorem mem_summaryFacts : row ∈ summaryFacts lib summaries iterations callable ↔
    (∃ kind, ∃ v ∈ summaries.values kind callable, row =
      summaryFact kind.family callable v iterations (decide (callable ∉ summaries.incomplete))) ∨
      row = summaryRow lib summaries iterations callable := by
  simp only [summaryFacts, mem_append, mem_map, mem_inOrder, mem_singleton, summaryRow]
  constructor
  · rintro ((⟨v, hv, rfl⟩ | ⟨v, hv, rfl⟩) | rfl)
    · exact .inl ⟨.effect, v, hv, rfl⟩
    · exact .inl ⟨.resource, v, hv, rfl⟩
    · exact .inr rfl
  · rintro (⟨kind, v, hv, rfl⟩ | rfl)
    · cases kind with
      | effect => exact .inl (.inl ⟨v, hv, rfl⟩)
      | resource => exact .inl (.inr ⟨v, hv, rfl⟩)
    · exact .inr rfl

theorem subject_of_mem_summaryFacts (h : row ∈ summaryFacts lib summaries iterations callable) :
    row.subject = callable := by
  obtain ⟨_, v, _, rfl⟩ | rfl := mem_summaryFacts.1 h <;> rfl

theorem family_of_mem_summaryFacts (h : row ∈ summaryFacts lib summaries iterations callable) :
    row.family ∈ summaryFamilies := by
  obtain ⟨kind, v, _, rfl⟩ | rfl := mem_summaryFacts.1 h
  · cases kind <;> simp [summaryFact, SummaryKind.family, summaryFamilies]
  · simp [summaryRow, summaryFact, summaryFamilies]

/-- The summary rows of a state are rows of the given summaries, and a closing row does not stand
without the values of its callable. -/
structure Emitted (lib : Libraries) (callables : Finset String) (summaries : Summaries)
    (iterations : Nat) (s : AnalysisState) : Prop where
  iterations_eq : s.iterations = iterations
  origin : ∀ row ∈ s.facts, row.family ∈ summaryFamilies →
    ∃ callable ∈ callables, row ∈ summaryFacts lib summaries iterations callable
  whole : ∀ callable, summaryRow lib summaries iterations callable ∈ s.facts →
    ∀ row ∈ summaryFacts lib summaries iterations callable, row ∈ s.facts

theorem Emitted.congr {callables : Finset String}
    (h : Emitted lib callables summaries iterations s) (hf : s'.facts = s.facts)
    (hi : s'.iterations = s.iterations) : Emitted lib callables summaries iterations s' :=
  ⟨hi.trans h.iterations_eq, by rw [hf]; exact h.origin, by rw [hf]; exact h.whole⟩

theorem Emitted.insert {callables : Finset String}
    (h : Emitted lib callables summaries iterations s) (hcal : callable ∈ callables) :
    Emitted lib callables summaries iterations
      (s.insertFacts (summaryFacts lib summaries iterations callable) bounds) := by
  obtain ⟨hg, hori⟩ :=
    insertFacts_facts bounds (summaryFacts lib summaries iterations callable) s
  refine ⟨by simpa using h.iterations_eq, fun row hrow hfam => ?_, fun other ho => ?_⟩
  · obtain hrow | hrow := hori row hrow
    · exact h.origin row hrow hfam
    · exact ⟨callable, hcal, hrow⟩
  · by_cases hbef : summaryRow lib summaries iterations other ∈ s.facts
    · exact fun row hrow => hg (h.whole other hbef row hrow)
    -- the closing row is new, so it belongs to this callable
    obtain rfl : other = callable :=
      subject_of_mem_summaryFacts ((hori _ ho).resolve_left hbef)
    obtain ⟨values, hspl, hvs⟩ : ∃ values, summaryFacts lib summaries iterations other =
        values ++ [summaryRow lib summaries iterations other] ∧
          summaryRow lib summaries iterations other ∉ values := by
      refine ⟨_, rfl, ?_⟩
      simp [summaryRow, summaryFact]
    rw [hspl, insertFacts_append] at ho ⊢
    obtain ⟨_, hvaluesOrigin⟩ := insertFacts_facts bounds values s
    -- it was inserted last, so there was room for everything before it
    have hrm : (s.insertFacts values bounds).facts.card < bounds.maxOutputRows := by
      by_contra hfl
      have hsm : ((s.insertFacts values bounds).insertFacts
          [summaryRow lib summaries iterations other] bounds).facts =
            (s.insertFacts values bounds).facts := by
        show (insertFact _ bounds _).facts = _
        rw [facts_insertFact, if_neg hfl]
      rw [hsm] at ho
      exact (hvaluesOrigin _ ho).elim hbef hvs
    intro row hrow
    obtain hrow | hrow := List.mem_append.1 hrow
    · exact (insertFacts_facts bounds _ _).1 (mem_insertFacts_of_room hrm hrow)
    · rwa [List.mem_singleton.1 hrow]

theorem emitted_emission (callables : Finset String) (summaries : Summaries) (hs : NoSummaries s) :
    Emitted lib callables summaries s.iterations
      (forEach (inOrder callables) (emitCallableSummary lib summaries bounds) s) := by
  have hbef : Emitted lib callables summaries s.iterations s :=
    ⟨rfl, fun row hrow hfam => absurd hfam (hs row hrow), fun callable hcal =>
        absurd (show Family.callableSummary ∈ summaryFamilies by decide) (hs _ hcal)⟩
  refine forEach_induct (P := Emitted lib callables summaries s.iterations) hbef ?_
  intro callable hcal s₁ hs₁
  have hrw : ∀ s₂ : AnalysisState, s₂.facts = s₁.facts → s₂.iterations = s₁.iterations →
      Emitted lib callables summaries s.iterations
        (s₂.insertFacts (summaryFacts lib summaries s₂.iterations callable) bounds) := by
    intro s₂ hfc hi
    have hs₂ : Emitted lib callables summaries s.iterations s₂ := hs₁.congr hfc hi
    rw [hs₂.iterations_eq]
    exact hs₂.insert (mem_inOrder.1 hcal)
  unfold emitCallableSummary
  dsimp only
  rw [adjustAll_eq (by decide)]
  split
  · exact (hrw (s₁.unknownAll summaryFamilies (some callable) "TRANSITIVE_SUMMARY_INCOMPLETE" none
      s₁.iterations) (by simp) (by simp)).congr rfl rfl
  · exact (hrw s₁ rfl rfl).congr rfl rfl

theorem kept_emission {items : List String} (hcal : callable ∈ items) (s : AnalysisState) :
    ∀ row ∈ summaryFacts lib summaries s.iterations callable,
      row ∈ (forEach items (emitCallableSummary lib summaries bounds) s).facts ∨ row.family ∈
          (forEach items (emitCallableSummary lib summaries bounds) s).outputExhaustedFamilies := by
  -- what one callable does to the facts: it emits its rows
  have hst : ∀ (item : String) (s : AnalysisState),
      (emitCallableSummary lib summaries bounds item s).iterations = s.iterations ∧
        s.facts ⊆ (emitCallableSummary lib summaries bounds item s).facts ∧
        s.outputExhaustedFamilies ⊆
          (emitCallableSummary lib summaries bounds item s).outputExhaustedFamilies ∧
        ∀ row ∈ summaryFacts lib summaries s.iterations item,
          row ∈ (emitCallableSummary lib summaries bounds item s).facts ∨ row.family ∈
            (emitCallableSummary lib summaries bounds item s).outputExhaustedFamilies := by
    intro item s
    have hrw : ∀ s₁ : AnalysisState, s₁.facts = s.facts → s₁.iterations = s.iterations →
        s₁.outputExhaustedFamilies = s.outputExhaustedFamilies →
        s.facts ⊆ (s₁.insertFacts (summaryFacts lib summaries s₁.iterations item) bounds).facts ∧
          s.outputExhaustedFamilies ⊆ (s₁.insertFacts
            (summaryFacts lib summaries s₁.iterations item)
            bounds).outputExhaustedFamilies ∧
          ∀ row ∈ summaryFacts lib summaries s.iterations item,
            row ∈ (s₁.insertFacts (summaryFacts lib summaries s₁.iterations item) bounds).facts ∨
              row.family ∈ (s₁.insertFacts (summaryFacts lib summaries s₁.iterations item)
                bounds).outputExhaustedFamilies := by
      intro s₁ hf hi hexh
      rw [← hf, ← hexh, ← hi]
      exact ⟨(insertFacts_facts bounds _ s₁).1, insertFacts_kept bounds _ s₁⟩
    unfold emitCallableSummary
    dsimp only
    rw [adjustAll_eq (by decide)]
    refine ⟨?_, ?_⟩
    · rw [iterations_insertFacts]
      split <;> simp
    · split
      · exact hrw _ (by simp) (by simp) (by simp)
      · exact hrw s rfl rfl rfl
  intro row hrow
  refine forEach_reaches (P := fun s' : AnalysisState =>
    row ∈ s'.facts ∨ row.family ∈ s'.outputExhaustedFamilies)
    (Q := fun s' => s'.iterations = s.iterations) hcal rfl ?_ ?_ ?_
  · exact fun item s₁ hi => (hst item s₁).1.trans hi
  · exact fun s₁ hi => (hst callable s₁).2.2.2 row (by rwa [hi])
  · -- later callables keep the facts and the notes
    intro other s₁ hs₁
    obtain ⟨_, hf, hexh, _⟩ := hst other s₁
    exact hs₁.imp (fun h => hf h) fun h => hexh h

/-! ## Whole runs -/

/-- A stage only reports gaps. -/
structure Reports (s s' : AnalysisState) : Prop where
  facts : s'.facts = s.facts
  iterations : s'.iterations = s.iterations
  invalidation : s'.invalidation = s.invalidation
  exhausted : s'.outputExhaustedFamilies = s.outputExhaustedFamilies
  unknowns : s.unknowns ⊆ s'.unknowns

theorem Reports.refl (s : AnalysisState) : Reports s s := ⟨rfl, rfl, rfl, rfl, Finset.Subset.refl _⟩

theorem Reports.trans {s'' : AnalysisState} (h : Reports s s') (h' : Reports s' s'') :
    Reports s s'' :=
  ⟨h'.facts.trans h.facts, h'.iterations.trans h.iterations, h'.invalidation.trans h.invalidation,
    h'.exhausted.trans h.exhausted, h.unknowns.trans h'.unknowns⟩

theorem reports_applyUpstreamCoverage (h : applyUpstreamCoverage input s = .ok s') :
    Reports s s' := by
  refine foldlM_induct (P := Reports s) (Reports.refl s) ?_ h
  intro inputFamily _ _ _ hst hs₁
  simp only [applyCoverage, ok_iff] at hst
  obtain ⟨_, _, hst⟩ := hst
  split at hst
  · cases hst
    exact hs₁
  · cases hst
    rw [adjustAll_eq (by cases inputFamily <;> decide), unknownAll_eq]
    exact hs₁.trans ⟨rfl, rfl, rfl, rfl, Finset.subset_union_left⟩

theorem reports_reportExhausted (family : Family) (s : AnalysisState) :
    Reports s (reportExhausted family s) := by
  unfold reportExhausted
  split
  · exact ⟨rfl, rfl, rfl, rfl, Finset.subset_insert _ _⟩
  · exact Reports.refl s

theorem reports_exhaustedLoop (s : AnalysisState) :
    Reports s (forEach Family.all reportExhausted s) :=
  forEach_induct (P := Reports s) (Reports.refl s)
    fun family _ s₁ hs₁ => hs₁.trans (reports_reportExhausted family s₁)

theorem boundHit_exhaustedLoop {family : Family} (hfam : family ∈ summaryFamilies)
    (hexh : family ∈ s.outputExhaustedFamilies) :
    BoundHit (forEach Family.all reportExhausted s) := by
  refine forEach_reaches (a := family) (Q := fun s => family ∈ s.outputExhaustedFamilies)
    (by cases family <;> decide) hexh (fun other s₁ hs₁ => ?_) (fun s₁ hs₁ => ?_)
    fun other s₁ hs₁ => hs₁.mono (reports_reportExhausted other s₁).unknowns
  · rwa [(reports_reportExhausted other s₁).exhausted]
  · unfold reportExhausted
    rw [if_pos hs₁]
    exact ⟨_, Finset.mem_insert_self _ _, hfam, by simp [boundReasons]⟩

theorem Summarizes.mono {base : Finset String} (h : Summarizes input bounds base summaries s)
    (hr : s.unknowns ⊆ s'.unknowns) : Summarizes input bounds base summaries s' where
  sound := h.sound
  whole := h.whole
  base_subset := h.base_subset
  closed := h.closed
  incomplete_origin callable hcal :=
    (h.incomplete_origin callable hcal).imp_right fun hhit => hhit.mono hr
  taken caller callee hcl kind :=
    (h.taken caller callee hcl kind).imp_right fun ⟨hclr, hhit⟩ => ⟨hclr, hhit.mono hr⟩

theorem unknowns_emission (items : List String) (summaries : Summaries) (s : AnalysisState) :
    s.unknowns ⊆ (forEach items (emitCallableSummary lib summaries bounds) s).unknowns := by
  refine forEach_induct (P := fun s' : AnalysisState => s.unknowns ⊆ s'.unknowns)
    (Finset.Subset.refl _) fun _ _ _ hs₁ _ hrow => ?_
  unfold emitCallableSummary
  dsimp only
  rw [adjustAll_eq (by decide), unknowns_insertFacts]
  split
  · exact mem_unknownAll.2 (.inl (hs₁ hrow))
  · exact hs₁ hrow

theorem boundHit_seedGaps {items : List String} (hcal : callable ∈ items)
    {semantics : CommonCallableLocalSemantics} (hloc : input.local callable = some semantics)
    (hexc : semantics.Exceeds bounds.maxSummaryValues) (s : AnalysisState) :
    BoundHit (forEach items (emitSeedGap input bounds) s) := by
  have hg : ∀ item (s : AnalysisState),
      s.unknowns ⊆ (emitSeedGap input bounds item s).unknowns := by
    intro item s _ hrow
    unfold emitSeedGap
    dsimp only
    split
    · split
      · exact mem_unknownAll.2 (.inl hrow)
      · exact hrow
    · exact mem_unknownAll.2 (.inl hrow)
  refine forEach_reaches (Q := fun _ => True) hcal trivial (fun _ _ _ => trivial) (fun s₁ _ => ?_)
    fun other s₁ hs₁ => hs₁.mono (hg other s₁)
  unfold emitSeedGap
  simp only [hloc, hexc, if_true]
  exact ⟨_, mem_unknownAll.2 (.inr ⟨.callableSummary, by decide, rfl⟩),
    by simp [summaryFamilies], by simp [boundReasons]⟩

/-- What a run knows about the summaries it emits: the fixed point they come from, and the state
that ended with it. -/
structure RunSummaries (lib : Libraries) (input : CommonDerivedAnalysisInput)
    (bounds : CommonAnalysisBounds) (s : AnalysisState) (exactCalls : List ExactCall)
    (graph : Digraph String) (summaries : Summaries) (iterations : Nat) : Prop where
  staged : Staged input exactCalls
  isGraph : IsCallGraph input graph
  summarizes : Summarizes input bounds
    (seedIncomplete input bounds (adjacency exactCalls) (deterministicSccs lib graph)) summaries s
  emitted : Emitted lib (callablesOf input) summaries iterations s
  kept : ¬BoundHit s → ∀ callable ∈ callablesOf input,
    ∀ row ∈ summaryFacts lib summaries iterations callable, row ∈ s.facts
  few : ¬BoundHit s → ∀ callable semantics, input.local callable = some semantics →
    ¬semantics.Exceeds bounds.maxSummaryValues
  invalidation : input.changedScopes.biUnion
    (invalidatedBy (callablesOf input) (reverseCallers exactCalls)) ⊆ s.invalidation

theorem runSummaries_of_analyze (hlib : lib.Documented)
    (h : analyzeCommonDerived lib input bounds = .ok s) :
    (NoSummaries s ∧ BoundHit s) ∨ ∃ exactCalls graph summaries iterations,
      RunSummaries lib input bounds s exactCalls graph summaries iterations := by
  obtain ⟨hacc, triples, cfg, calls, callers, covered, hspl, hcfg, hcalls, hcov, hs⟩ :=
    analyzeCommonDerived_eq_ok h
  have hrpt : Reports (deriveInvalidation input callers calls) s := by
    rw [hs]
    exact (reports_applyUpstreamCoverage hcov).trans (reports_exhaustedLoop covered)
  have hbef : NoSummaries (requestCalls input
      (deriveDataDependence input triples.data bounds cfg)) :=
    have hini : NoSummaries .initial := fun _ hrow => absurd hrow (Finset.notMem_empty _)
    ((hini.emitsOnly (emitsOnly_deriveCfgFamilies hcfg) (by decide)).emitsOnly
      (emitsOnly_deriveDataDependence triples.data cfg) (by decide)).congr rfl
  obtain ⟨_, hcallsEq, _⟩ | ⟨_, hclrs, graph, _, summaries, topology, hgr, hsch,
    htop, hsums, hemis⟩ := deriveCallFamilies_eq_ok hcalls
  · left
    have hexh : NoSummaries calls := by
      rw [hcallsEq]
      exact hbef.congr (by simp [exhaustCalls])
    have hhit : BoundHit calls := by
      rw [hcallsEq, exhaustCalls, adjustAll_eq (by decide)]
      exact ⟨_, mem_unknownAll.2 (.inr ⟨.callableSummary, by decide, rfl⟩),
        by simp [summaryFamilies], by simp [boundReasons]⟩
    exact ⟨hexh.congr hrpt.facts, hhit.mono hrpt.unknowns⟩
  · right
    have hstg : Staged input triples.calls := fun _ => mem_staged_calls hlib hspl
    have hisGraph := isCallGraph_of_build hstg hgr
    have htopologyClean : NoSummaries topology := by
      rw [htop]
      exact (hbef.emitsOnly (emitsOnly_deriveTopology _) (by decide)).congr
        (emits_seedGaps _ _).facts
    have hcln : NoSummaries summaries.2 := by
      rw [hsums]
      exact htopologyClean.congr (emits_deriveSummaries topology).facts
    have hemit : Emitted lib (callablesOf input) summaries.1 summaries.2.iterations calls := by
      rw [hemis]
      exact emitted_emission _ _ hcln
    have hsum : Summarizes input bounds (seedIncomplete input bounds
        (adjacency triples.calls) (deterministicSccs lib graph)) summaries.1 summaries.2 := by
      rw [hsums]
      exact summarizes_deriveSummaries hlib hacc hstg hisGraph hsch topology
    have hrows : summaries.2.unknowns ⊆ calls.unknowns := by
      rw [hemis]
      exact unknowns_emission _ _ _
    refine ⟨triples.calls, graph, summaries.1, summaries.2.iterations, hstg, hisGraph,
      hsum.mono (hrows.trans hrpt.unknowns), hemit.congr hrpt.facts hrpt.iterations,
      fun hfree callable hcal row hrow => ?_, fun hfree callable semantics hloc hexc => ?_, ?_⟩
    · -- a row that was lost is on record
      have hkept : row ∈ calls.facts ∨ row.family ∈ calls.outputExhaustedFamilies := by
        rw [hemis]
        exact kept_emission (mem_inOrder.2 hcal) summaries.2 row hrow
      rw [hrpt.facts]
      refine hkept.resolve_right fun hlost => hfree ?_
      rw [hs]
      refine boundHit_exhaustedLoop (family_of_mem_summaryFacts hrow) ?_
      rw [(reports_applyUpstreamCoverage hcov).exhausted]
      exact hlost
    · -- local semantics over the bound are on record
      have hcal : callable ∈ callablesOf input := by
        obtain ⟨hmem, rfl⟩ := hacc.local_eq_some.1 hloc
        simp only [callablesOf, Finset.mem_union, mem_toFinset, mem_map]
        exact .inl (.inl ⟨semantics, hmem, rfl⟩)
      have hseed : BoundHit topology := by
        rw [htop]
        exact boundHit_seedGaps (mem_inOrder.2 hcal) hloc hexc _
      have hprop : topology.unknowns ⊆ summaries.2.unknowns := by
        rw [hsums]
        exact unknowns_deriveSummaries topology
      exact hfree (hseed.mono (hprop.trans (hrows.trans hrpt.unknowns)))
    · rw [hrpt.invalidation, deriveInvalidation, hclrs]
      exact Finset.subset_union_right

/-! ## Soundness and exactness -/

def EmittedValue (s : AnalysisState) (kind : SummaryKind) (callable value : String) : Prop :=
  ∃ row ∈ s.facts, row.family = kind.family ∧ row.subject = callable ∧ row.value = some value

/-- A call of the callable has no exact target. -/
def HasUnresolvedCall (input : CommonDerivedAnalysisInput) (callable : String) : Prop :=
  ∃ call ∈ input.calls, call.callerId = callable ∧ ∀ callee, call.resolution ≠ .exact callee

def HasLocalSemantics (input : CommonDerivedAnalysisInput) (callable : String) : Prop :=
  ∃ semantics ∈ input.localSemantics, semantics.callableId = callable

theorem mem_unresolvedCallers :
    callable ∈ unresolvedCallers input ↔ HasUnresolvedCall input callable := by
  have hgap : ∀ call : CommonCallSite, call.resolution.gap.isSome = true ↔
      ∀ callee, call.resolution ≠ .exact callee := by
    intro call
    cases hr : call.resolution <;> simp [CommonCallResolution.gap]
  simp only [unresolvedCallers, mem_toFinset, mem_map, mem_filter, hgap, HasUnresolvedCall]
  exact exists_congr fun call => by tauto

theorem hasLocalSemantics_iff :
    HasLocalSemantics input callable ↔ (input.local callable).isSome := by
  rw [CommonDerivedAnalysisInput.local, find?_isSome]
  simp [HasLocalSemantics]

section

variable {exactCalls : List ExactCall} {graph : Digraph String} {summaries : Summaries}
  {iterations : Nat}
  (h : RunSummaries lib input bounds s exactCalls graph summaries iterations)
include h

theorem RunSummaries.mem_of_emittedValue {kind : SummaryKind} {value : String}
    (hval : EmittedValue s kind callable value) :
    callable ∈ callablesOf input ∧ value ∈ summaries.values kind callable := by
  obtain ⟨row, hrow, hfam, rfl, hval⟩ := hval
  have hsum : row.family ∈ summaryFamilies := by
    rw [hfam]
    cases kind <;> decide
  obtain ⟨callable, hcal, hrow⟩ := h.emitted.origin row hrow hsum
  obtain ⟨kind', v, hv, rfl⟩ | rfl := mem_summaryFacts.1 hrow
  · obtain rfl : kind' = kind := by
      cases kind <;> cases kind' <;> first | rfl | cases hfam
    cases hval
    exact ⟨hcal, hv⟩
  · cases kind <;> cases hfam

theorem RunSummaries.eq_summaryRow (hrow : row ∈ s.facts) (hfam : row.family = .callableSummary) :
    row.subject ∈ callablesOf input ∧ row = summaryRow lib summaries iterations row.subject := by
  have hsum : row.family ∈ summaryFamilies := by
    rw [hfam]
    decide
  obtain ⟨_, hcal, hmem⟩ := h.emitted.origin row hrow hsum
  obtain rfl := subject_of_mem_summaryFacts hmem
  obtain ⟨kind, v, _, hval⟩ | hcl := mem_summaryFacts.1 hmem
  · rw [hval] at hfam
    cases kind <;> cases hfam
  · exact ⟨hcal, hcl⟩

theorem RunSummaries.complete_callable (hlib : lib.Documented)
    (hcal : callable ∈ callablesOf input) (hcpl : callable ∉ summaries.incomplete) :
    ¬Recursive input callable ∧ ¬HasUnresolvedCall input callable ∧
      HasLocalSemantics input callable ∧
      ¬(input.local callable).all (·.Exceeds bounds.maxSummaryValues) := by
  have hb : callable ∉ seedIncomplete input bounds (adjacency exactCalls)
      (deterministicSccs lib graph) := fun hmem => hcpl (h.summarizes.base_subset hmem)
  simp only [seedIncomplete, Finset.mem_union, not_or] at hb
  obtain ⟨⟨⟨hunr, _⟩, hr⟩, hloc⟩ := hb
  have hfew : ¬(input.local callable).all (·.Exceeds bounds.maxSummaryValues) :=
    fun hall => hloc (Finset.mem_filter.2 ⟨hcal, hall⟩)
  refine ⟨fun hcy => hr ?_, ?_, ?_, hfew⟩
  · obtain ⟨component, hcm, hisRecursive, hmb⟩ :=
      (mem_recursive_component hlib h.staged h.isGraph).2 hcy
    rw [mem_toFinset, mem_flatten]
    exact ⟨component, List.mem_filter.2 ⟨hcm, by simpa using hisRecursive⟩, hmb⟩
  · exact fun hcl => hunr (mem_unresolvedCallers.2 hcl)
  · rw [hasLocalSemantics_iff]
    cases hfn : input.local callable with
    | none => exact absurd (by rw [hfn]; rfl) hfew
    | some => rfl

theorem RunSummaries.complete_of_reachable {d : String}
    (hcal : callable ∈ callablesOf input) (hcpl : callable ∉ summaries.incomplete)
    (hp : Relation.ReflTransGen (Calls input) callable d) :
    d ∈ callablesOf input ∧ d ∉ summaries.incomplete := by
  induction hp with
  | refl => exact ⟨hcal, hcpl⟩
  | tail _ hcl ih =>
    exact ⟨hcl.mem_callablesOf.2, fun hmem => ih.2 (h.summarizes.closed _ _ hcl hmem)⟩

theorem RunSummaries.values_eq (hlib : lib.Documented)
    (hcal : callable ∈ callablesOf input) (hcpl : callable ∉ summaries.incomplete)
    (kind : SummaryKind) :
    (summaries.values kind callable : Set String) = reachableValues input kind callable := by
  refine Set.Subset.antisymm (fun v hv => h.summarizes.sound kind callable v hv) ?_
  refine gathered_subset (F := fun d => (summaries.values kind d : Set String))
    (fun d hp v hv => ?_) (fun d e hp hcl => ?_)
  · obtain ⟨hd, hdc⟩ := h.complete_of_reachable hcal hcpl hp
    exact h.summarizes.whole kind d (h.complete_callable hlib hd hdc).2.2.2 v hv
  · obtain ⟨_, hdc⟩ := h.complete_of_reachable hcal hcpl hp
    obtain hsub | ⟨hmem, _⟩ := h.summarizes.taken d e hcl kind
    · exact Finset.coe_subset.2 hsub
    · exact absurd hmem hdc

end

/-- **Emitted summaries hold reachable values only; complete ones hold all of them.** -/
theorem summary_rows_sound (hlib : lib.Documented)
    (h : analyzeCommonDerived lib input bounds = .ok s) :
    (∀ kind callable value, EmittedValue s kind callable value →
        value ∈ reachableValues input kind callable) ∧
      ∀ row ∈ s.facts, row.family = .callableSummary → ∃ values : SummaryKind → Finset String,
          row.value = some (summaryIdentity lib (values .effect) (values .resource) row.complete) ∧
          (∀ kind value, value ∈ values kind ↔ EmittedValue s kind row.subject value) ∧
          (∀ kind, (values kind : Set String) ⊆ reachableValues input kind row.subject) ∧
          (row.complete = true →
            (∀ kind, (values kind : Set String) = reachableValues input kind row.subject) ∧
            ∀ callable, Relation.ReflTransGen (Calls input) row.subject callable →
              ¬Recursive input callable ∧ ¬HasUnresolvedCall input callable ∧
                HasLocalSemantics input callable) := by
  obtain ⟨hnn, _⟩ | ⟨_, _, summaries, _, hrun⟩ :=
    runSummaries_of_analyze hlib h
  · refine ⟨fun kind callable value ⟨row, hrow, hfam, _⟩ => ?_, fun row hrow hfam => ?_⟩
    · refine absurd ?_ (hnn row hrow)
      rw [hfam]
      cases kind <;> decide
    · refine absurd ?_ (hnn row hrow)
      rw [hfam]
      decide
  · refine ⟨fun kind callable value hval => hrun.summarizes.sound kind callable value
      (hrun.mem_of_emittedValue hval).2, fun row hrow hfam => ?_⟩
    obtain ⟨hcal, hcl⟩ := hrun.eq_summaryRow hrow hfam
    have hcompleteFlag : row.complete = decide (row.subject ∉ summaries.incomplete) := by
      rw [hcl]
      rfl
    refine ⟨fun kind => summaries.values kind row.subject, ?_, fun kind value => ⟨fun hval => ?_,
      fun hval => (hrun.mem_of_emittedValue hval).2⟩,
      fun kind v hv => hrun.summarizes.sound kind row.subject v hv, fun hcpl => ?_⟩
    · rw [hcompleteFlag, hcl]
      rfl
    · have hw := hrun.emitted.whole row.subject (hcl ▸ hrow)
      exact ⟨_, hw _ (mem_summaryFacts.2 (.inl ⟨kind, value, hval, rfl⟩)), rfl, rfl, rfl⟩
    · have hnotIncomplete : row.subject ∉ summaries.incomplete := by
        rw [hcompleteFlag] at hcpl
        exact of_decide_eq_true hcpl
      refine ⟨hrun.values_eq hlib hcal hnotIncomplete, fun callable hp => ?_⟩
      obtain ⟨hmem, hmemComplete⟩ := hrun.complete_of_reachable hcal hnotIncomplete hp
      obtain ⟨hrc, hrs, hloc, _⟩ := hrun.complete_callable hlib hmem hmemComplete
      exact ⟨hrc, hrs, hloc⟩

/-- In the sample, `f` has a complete summary, which holds what `f` and `g` do. -/
theorem sample_summary_exact :
    ∃ s, analyzeCommonDerived sampleLibraries (sampleInput {"db"}) sampleBounds = .ok s ∧
      summaryFact .callableSummary "f"
        "b3:566ab12ccdeb9f07fae51897de1801c42bf0cd7f19136f44b6fb506105c9c724" 2 true ∈ s.facts ∧
      ∀ kind value, EmittedValue s kind "f" value ↔
        value ∈ reachableValues (sampleInput {"db"}) kind "f" := by
  obtain ⟨s, hs, hrow⟩ := exists_ok_of_any
    (x := analyzeCommonDerived sampleLibraries (sampleInput {"db"}) sampleBounds)
    (p := fun s => summaryFact .callableSummary "f"
      "b3:566ab12ccdeb9f07fae51897de1801c42bf0cd7f19136f44b6fb506105c9c724" 2 true ∈ s.facts)
    (by decide +kernel)
  have hmem := of_decide_eq_true hrow
  refine ⟨s, hs, hmem, fun kind value => ?_⟩
  obtain ⟨_, _, he, _, hcpl⟩ :=
    (summary_rows_sound (referenceLibraries_documented _) hs).2 _ hmem rfl
  exact (he kind value).symm.trans (Set.ext_iff.1 ((hcpl rfl).1 kind) value)

/-! ## Summary identities -/

/-- The bytes hashed into a summary identity. -/
def summaryPreimage (effects resources : Finset String) (complete : Bool) : List UInt8 :=
  Identity.utf8Bytes "codefabric.common-analysis.callable-summary.v1\x00" ++
    [if complete then 1 else 0] ++ Identity.utf8Bytes "e" ++ (inOrder effects).flatMap framed ++
    Identity.utf8Bytes "r" ++ (inOrder resources).flatMap framed

theorem head_framed {text : String} (h : text.utf8ByteSize ≤ 1024) :
    (framed text).head? = some 0 := by
  have hlen : (Identity.utf8Bytes text).length ≤ 1024 := h
  have hhigh : (Identity.utf8Bytes text).length / 256 / 256 = 0 := by omega
  simp [framed, BigEndian.encode, hhigh]

/-- A section ends at a tag that no length starts with. -/
theorem section_inj {left right : List String} {rest rest' : List UInt8}
    (hl : ∀ text ∈ left, text.utf8ByteSize ≤ 1024) (hr : ∀ text ∈ right, text.utf8ByteSize ≤ 1024)
    (h : left.flatMap framed ++ 114 :: rest = right.flatMap framed ++ 114 :: rest') :
    left = right ∧ rest = rest' := by
  induction left generalizing right with
  | nil =>
    cases right with
    | nil => exact ⟨rfl, (cons.inj h).2⟩
    | cons text right =>
      have hhead := congrArg head? h
      simp [head_framed (hr text mem_cons_self)] at hhead
  | cons text left ih =>
    cases right with
    | nil =>
      have hhead := congrArg head? h
      simp [head_framed (hl text mem_cons_self)] at hhead
    | cons other right =>
      simp only [mem_cons, forall_eq_or_imp, flatMap_cons, append_assoc] at hl hr h
      have hfits : ∀ text : String, text.utf8ByteSize ≤ 1024 →
          (Identity.utf8Bytes text).length < 256 ^ 8 := fun text hs => hs.trans_lt (by decide)
      obtain ⟨htext, h⟩ := Reading.blob_append_inj (hfits _ hl.1) (hfits _ hr.1) h
      obtain ⟨rfl, rfl⟩ := ih hl.2 hr.2 h
      rw [Identity.utf8Bytes_inj.1 htext]
      exact ⟨rfl, rfl⟩

theorem inOrder_inj {left right : Finset String} (h : inOrder left = inOrder right) :
    left = right := by
  ext text
  rw [← mem_inOrder, h, mem_inOrder]

/-- **The preimage of a summary identity is injective** on texts of the length that validation
admits: neither section has a count, but no length of such a text starts with the tag `r`. -/
theorem summaryPreimage_injective (lib : Libraries) :
    (∀ effects resources complete, summaryIdentity lib effects resources complete =
      "b3:" ++ lib.blake3Hex (summaryPreimage effects resources complete)) ∧
    (∀ input, validateInput input = .ok () → ∀ semantics ∈ input.localSemantics,
      ∀ kind, ∀ text ∈ semantics.values kind, text.utf8ByteSize ≤ 1024) ∧
    ∀ effects resources complete effects' resources' complete',
      (∀ texts ∈ [effects, resources, effects', resources'], ∀ text ∈ texts,
        text.utf8ByteSize ≤ 1024) →
      summaryPreimage effects resources complete = summaryPreimage effects' resources' complete' →
      effects = effects' ∧ resources = resources' ∧ complete = complete' := by
  refine ⟨fun _ _ _ => rfl, fun input h semantics hmem kind text htext => ?_,
    fun effects resources complete effects' resources' complete' hs h => ?_⟩
  · simp only [validateInput, bind_eq_ok] at h
    obtain ⟨_, -, _, -, _, -, _, -, h⟩ := h
    obtain ⟨seen, hlocal⟩ := checked_of_validateKeyed h semantics hmem
    simp only [validateLocal, ok_iff, forM_eq_ok, mem_inOrder] at hlocal
    obtain ⟨_, -, _, -, _, -, _, -, _, heff, hres⟩ := hlocal
    have hok : ∃ name, validateText name text = .ok () := by
      cases kind with
      | effect => exact ⟨_, heff text htext⟩
      | resource => exact ⟨_, hres text htext⟩
    obtain ⟨name, hok⟩ := hok
    rw [validateText, ensure_eq_ok] at hok
    push Not at hok
    exact hok.2.1
  · have hin : ∀ texts ∈ [effects, resources, effects', resources'], ∀ text ∈ inOrder texts,
        text.utf8ByteSize ≤ 1024 :=
      fun texts ht text hm => hs texts ht text (mem_inOrder.1 hm)
    simp only [summaryPreimage, append_assoc, append_cancel_left_eq] at h
    obtain ⟨hflag, h⟩ := cons.inj h
    obtain ⟨heff, h⟩ := section_inj (hin _ (by simp)) (hin _ (by simp)) (append_cancel_left h)
    -- a tag after both second sections ends them as well
    have hend : (inOrder resources).flatMap framed ++ 114 :: [] =
        (inOrder resources').flatMap framed ++ 114 :: [] := congrArg (· ++ [114]) h
    obtain ⟨hres, -⟩ := section_inj (hin _ (by simp)) (hin _ (by simp)) hend
    refine ⟨inOrder_inj heff, inOrder_inj hres, ?_⟩
    cases complete <;> cases complete' <;> simp_all

theorem summaryPreimage_injective_sample : validateInput (sampleInput {"db"}) = .ok () ∧
    (∀ semantics ∈ (sampleInput {"db"}).localSemantics, ∀ kind, ∀ text ∈ semantics.values kind,
      text.utf8ByteSize ≤ 1024) ∧
    summaryPreimage {"net", "db"} {"r"} true ≠ summaryPreimage {"net"} {"db", "r"} true := by
  have hinput : validateInput (sampleInput {"db"}) = .ok () := by decide +kernel
  obtain ⟨-, hbound, hinj⟩ := summaryPreimage_injective (referenceLibraries fun _ => "")
  refine ⟨hinput, hbound _ hinput, fun h => ?_⟩
  obtain ⟨heff, -⟩ := hinj _ _ _ _ _ _ (by decide) h
  exact absurd heff (by decide)

end CodeFabric.Derived
