import CodeFabric.Derived.Summaries

/-! # Invalidation of summaries

Two runs on inputs that differ in what one callable does. Without a bound that is hit, a summary is
a function of what its callable reaches, and the callables that reach the changed one are the
invalidated ones.

**`RunSummaries.values_of_free`**, **`RunSummaries.incomplete_of_free`**: what the summaries of a
run are when no bound is hit. -/

namespace CodeFabric.Derived

open Fallible Worklist List

variable {lib : Libraries} {bounds : CommonAnalysisBounds}
  {input input' : CommonDerivedAnalysisInput} {s s' : AnalysisState} {x : String}
  {callable : String}

/-! ## Runs without bounds -/

section

variable {exactCalls : List ExactCall} {graph : Digraph String} {summaries : Summaries}
  {iterations : Nat}
  (h : RunSummaries lib input bounds s exactCalls graph summaries iterations)
include h

theorem RunSummaries.values_of_free (hacc : Accepted input) (hf : ¬BoundHit s)
    (kind : SummaryKind) (callable : String) :
    (summaries.values kind callable : Set String) = reachableValues input kind callable := by
  refine Set.Subset.antisymm (fun v hv => h.summarizes.sound kind callable v hv) ?_
  refine gathered_subset (F := fun d => (summaries.values kind d : Set String))
    (fun d _ v hv => ?_) (fun d e _ hc => ?_)
  · refine h.summarizes.whole kind d ?_ v hv
    obtain ⟨semantics, hmem, hid, _⟩ := hv
    have hloc := hacc.local_eq_some.2 ⟨hmem, hid⟩
    rw [hloc]
    simpa using h.few hf d semantics hloc
  · obtain hsub | ⟨_, hhit⟩ := h.summarizes.taken d e hc kind
    · exact Finset.coe_subset.2 hsub
    · exact absurd hhit hf

/-- What makes a callable incomplete by itself. -/
def Deficient (input : CommonDerivedAnalysisInput) (callable : String) : Prop :=
  HasUnresolvedCall input callable ∨
    (¬(input.covers .callTargets ∧ input.covers .localEffectResource) ∧
      callable ∈ callablesOf input) ∨
    Recursive input callable ∨ (callable ∈ callablesOf input ∧ ¬HasLocalSemantics input callable)

theorem RunSummaries.incomplete_of_free (hlib : lib.Documented) (hfr : ¬BoundHit s)
    (callable : String) : callable ∈ summaries.incomplete ↔
      ∃ d, Relation.ReflTransGen (Calls input) callable d ∧ Deficient input d := by
  have hb : ∀ d, d ∈ seedIncomplete input bounds (adjacency exactCalls)
      (deterministicSccs lib graph) ↔ Deficient input d := by
    intro d
    have hcov : d ∈ (if input.covers .callTargets ∧ input.covers .localEffectResource then ∅
        else callablesOf input) ↔ ¬(input.covers .callTargets ∧ input.covers .localEffectResource) ∧
            d ∈ callablesOf input := by
      split <;> simp_all
    have hr : d ∈ ((deterministicSccs lib graph).filter
        (IsRecursive (adjacency exactCalls) ·)).flatten.toFinset ↔ Recursive input d := by
      rw [← mem_recursive_component hlib h.staged h.isGraph]
      simp [and_assoc]
    -- without a bound, only missing semantics count
    have hloc : (input.local d).all (·.Exceeds bounds.maxSummaryValues) = true ↔
        ¬HasLocalSemantics input d := by
      rw [hasLocalSemantics_iff]
      cases hfn : input.local d with
      | none => simp
      | some semantics => simpa using h.few hfr d semantics hfn
    rw [seedIncomplete, Finset.mem_union, Finset.mem_union, Finset.mem_union,
      mem_unresolvedCallers, hcov, hr, Finset.mem_filter, hloc, Deficient, or_assoc, or_assoc]
  constructor
  · intro hcal
    obtain ⟨d, hd, hp⟩ | hhit := h.summarizes.incomplete_origin callable hcal
    · exact ⟨d, hp, (hb d).1 hd⟩
    · exact absurd hhit hfr
  · rintro ⟨d, hp, hd⟩
    have hmem := h.summarizes.base_subset ((hb d).2 hd)
    clear hd
    induction hp with
    | refl => exact hmem
    | tail _ hcl ih => exact ih (h.summarizes.closed _ _ hcl hmem)

/-- A callable's summary was emitted, complete or not. -/
def EmittedSummary (s : AnalysisState) (callable : String) (complete : Bool) : Prop :=
  ∃ row ∈ s.facts, row.family = .callableSummary ∧ row.subject = callable ∧ row.complete = complete

theorem RunSummaries.emittedValue_iff (hacc : Accepted input)
    (hf : ¬BoundHit s) {kind : SummaryKind} {value : String} : EmittedValue s kind callable value ↔
      callable ∈ callablesOf input ∧ value ∈ reachableValues input kind callable := by
  have hvs := h.values_of_free hacc hf kind callable
  constructor
  · intro hval
    obtain ⟨hcal, hmem⟩ := h.mem_of_emittedValue hval
    exact ⟨hcal, hvs ▸ hmem⟩
  · rintro ⟨hcal, hval⟩
    rw [← hvs] at hval
    exact ⟨_, h.kept hf callable hcal _ (mem_summaryFacts.2 (.inl ⟨kind, value, hval, rfl⟩)),
      rfl, rfl, rfl⟩

theorem RunSummaries.emittedSummary_iff (hlib : lib.Documented) (hfr : ¬BoundHit s)
    {complete : Bool} :
    EmittedSummary s callable complete ↔ callable ∈ callablesOf input ∧
      (complete = true ↔ ∀ d, Relation.ReflTransGen (Calls input) callable d →
        ¬Deficient input d) := by
  have hfl : (callable ∉ summaries.incomplete) ↔
      ∀ d, Relation.ReflTransGen (Calls input) callable d → ¬Deficient input d := by
    rw [h.incomplete_of_free hlib hfr]
    simp
  constructor
  · rintro ⟨_, hrow, hfam, rfl, rfl⟩
    obtain ⟨hcal, hcl⟩ := h.eq_summaryRow hrow hfam
    refine ⟨hcal, ?_⟩
    rw [← hfl, hcl]
    exact decide_eq_true_iff
  · rintro ⟨hcal, hcpl⟩
    refine ⟨_, h.kept hfr callable hcal _ (mem_summaryFacts.2 (.inr rfl)), rfl, rfl, ?_⟩
    rw [← hfl] at hcpl
    show decide (callable ∉ summaries.incomplete) = complete
    rw [Bool.eq_iff_iff, hcpl]
    exact decide_eq_true_iff

end

/-! ## Two inputs -/

/-- Two inputs that differ at most in the local semantics of one callable. -/
structure DifferAt (x : String) (input input' : CommonDerivedAnalysisInput) : Prop where
  same : input' = { input with localSemantics := input'.localSemantics }
  elsewhere : ∀ semantics : CommonCallableLocalSemantics, semantics.callableId ≠ x →
    (semantics ∈ input.localSemantics ↔ semantics ∈ input'.localSemantics)

namespace DifferAt

section

variable (h : DifferAt x input input')
include h

theorem calls_eq : input'.calls = input.calls := by
  rw [h.same]

theorem calls_iff : Calls input' = Calls input := by
  funext caller callee
  rw [Calls, Calls, h.calls_eq]

theorem localValues_eq (hne : callable ≠ x) (kind : SummaryKind) :
    localValues input' kind callable = localValues input kind callable := by
  ext v
  refine exists_congr fun semantics => ?_
  constructor
  · rintro ⟨hmem, rfl, hv⟩
    exact ⟨(h.elsewhere semantics hne).2 hmem, rfl, hv⟩
  · rintro ⟨hmem, rfl, hv⟩
    exact ⟨(h.elsewhere semantics hne).1 hmem, rfl, hv⟩

theorem hasLocalSemantics_iff (hne : callable ≠ x) :
    HasLocalSemantics input' callable ↔ HasLocalSemantics input callable := by
  refine exists_congr fun semantics => ?_
  constructor
  · rintro ⟨hmem, rfl⟩
    exact ⟨(h.elsewhere semantics hne).2 hmem, rfl⟩
  · rintro ⟨hmem, rfl⟩
    exact ⟨(h.elsewhere semantics hne).1 hmem, rfl⟩

theorem mem_callablesOf (hne : callable ≠ x) :
    callable ∈ callablesOf input' ↔ callable ∈ callablesOf input := by
  have hloc := h.hasLocalSemantics_iff hne
  simp only [HasLocalSemantics] at hloc
  simp only [callablesOf, Finset.mem_union, mem_toFinset, mem_map, h.calls_eq, hloc]

theorem deficient_iff (hne : callable ≠ x) :
    Deficient input' callable ↔ Deficient input callable := by
  have hcov : ∀ family, input'.covers family = input.covers family := by
    intro family
    rw [h.same]
    rfl
  rw [Deficient, Deficient, HasUnresolvedCall, HasUnresolvedCall, Recursive, Recursive, h.calls_eq,
    h.calls_iff, hcov, hcov, h.mem_callablesOf hne, h.hasLocalSemantics_iff hne]

theorem reachableValues_eq
    (hp : ¬Relation.ReflTransGen (Calls input) callable x) (kind : SummaryKind) :
    reachableValues input' kind callable = reachableValues input kind callable := by
  ext v
  simp only [reachableValues, gathered, h.calls_iff, Set.mem_ofPred_eq]
  refine exists_congr fun d => and_congr_right fun hd => ?_
  rw [h.localValues_eq (fun heq => hp (heq ▸ hd)) kind]

end

end DifferAt

/-- The summary of a callable is the same in two results: values and completeness. -/
def SameSummary (s s' : AnalysisState) (callable : String) : Prop :=
  (∀ kind value, EmittedValue s kind callable value ↔ EmittedValue s' kind callable value) ∧
    ∀ complete, EmittedSummary s callable complete ↔ EmittedSummary s' callable complete

theorem sameSummary_of_not_reaches (hlib : lib.Documented) (hdif : DifferAt x input input')
    (h : analyzeCommonDerived lib input bounds = .ok s)
    (h' : analyzeCommonDerived lib input' bounds = .ok s') (hfr : ¬BoundHit s)
    (hf' : ¬BoundHit s') (hp : ¬Relation.ReflTransGen (Calls input) callable x) :
    SameSummary s s' callable := by
  have hacc : Accepted input := (analyzeCommonDerived_eq_ok h).1
  have hacc' : Accepted input' := (analyzeCommonDerived_eq_ok h').1
  obtain ⟨_, hhit⟩ | ⟨_, _, _, _, hrun⟩ := runSummaries_of_analyze hlib h
  · exact absurd hhit hfr
  obtain ⟨_, hhit⟩ | ⟨_, _, _, _, hrun'⟩ := runSummaries_of_analyze hlib h'
  · exact absurd hhit hf'
  have hne : callable ≠ x := fun heq => hp (heq ▸ .refl)
  constructor
  · intro _ _
    rw [hrun.emittedValue_iff hacc hfr, hrun'.emittedValue_iff hacc' hf',
      hdif.mem_callablesOf hne, hdif.reachableValues_eq hp]
  · intro _
    rw [hrun.emittedSummary_iff hlib hfr, hrun'.emittedSummary_iff hlib hf',
      hdif.mem_callablesOf hne, hdif.calls_iff]
    have hdef : ∀ d, Relation.ReflTransGen (Calls input) callable d →
        (Deficient input' d ↔ Deficient input d) :=
      fun d hd => hdif.deficient_iff fun heq => hp (heq ▸ hd)
    refine and_congr_right fun _ => iff_congr Iff.rfl ?_
    exact forall₂_congr fun d hd => not_congr (hdef d hd).symm

/-! ## Invalidated callables -/

theorem mem_affectedCallables {exactCalls : List ExactCall} (hstg : Staged input exactCalls) :
    callable ∈ affectedCallables (callablesOf input) (reverseCallers exactCalls) x ↔
      Relation.ReflTransGen (Calls input) callable x := by
  rw [affectedCallables, mem_close ?_ ?_, reverseCallers_eq_swap hstg]
  · simp [Relation.reflTransGen_swap]
  · intro _ _ _ hclr
    have hcl := (mem_reverseCallers hstg).1 (mem_inOrder.1 hclr)
    exact Finset.mem_insert_of_mem hcl.mem_callablesOf.1
  · exact Finset.singleton_subset_iff.2 (Finset.mem_insert_self _ _)

theorem invalidated_of_reaches (hlib : lib.Documented)
    (h : analyzeCommonDerived lib input bounds = .ok s) (hfr : ¬BoundHit s)
    (hchg : .callable x ∈ input.changedScopes)
    (hp : Relation.ReflTransGen (Calls input) callable x) {f : Family} (hf : f ∈ summaryFamilies) :
    ⟨f, "callable", callable, "TRANSITIVE_CALLEE_INPUT_CHANGED"⟩ ∈ s.invalidation := by
  obtain ⟨_, hhit⟩ | ⟨_, _, _, _, hrun⟩ := runSummaries_of_analyze hlib h
  · exact absurd hhit hfr
  refine hrun.invalidation (Finset.mem_biUnion.2 ⟨.callable x, hchg, ?_⟩)
  refine Finset.mem_biUnion.2 ⟨callable, (mem_affectedCallables hrun.staged).2 hp, ?_⟩
  exact Finset.mem_image.2 ⟨f, mem_toFinset.2 hf, rfl⟩

/-- **Summaries that differ between the runs are invalidated.** -/
theorem invalidation_sound (hlib : lib.Documented) (hdiffer : DifferAt x input input')
    (hchanged : .callable x ∈ input.changedScopes)
    (h : analyzeCommonDerived lib input bounds = .ok s)
    (h' : analyzeCommonDerived lib input' bounds = .ok s') (hfree : ¬BoundHit s)
    (hfree' : ¬BoundHit s') {callable : String} (hsummary : ¬SameSummary s s' callable) {f : Family}
    (hf : f ∈ summaryFamilies) :
    ⟨f, "callable", callable, "TRANSITIVE_CALLEE_INPUT_CHANGED"⟩ ∈ s.invalidation ∧
      ⟨f, "callable", callable, "TRANSITIVE_CALLEE_INPUT_CHANGED"⟩ ∈ s'.invalidation := by
  have hp : Relation.ReflTransGen (Calls input) callable x := by
    by_contra hnot
    exact hsummary (sameSummary_of_not_reaches hlib hdiffer h h' hfree hfree' hnot)
  have hchg' : .callable x ∈ input'.changedScopes := by
    rw [hdiffer.same]
    exact hchanged
  exact ⟨invalidated_of_reaches hlib h hfree hchanged hp hf,
    invalidated_of_reaches hlib h' hfree' hchg' (hdiffer.calls_iff ▸ hp) hf⟩

theorem sampleInput_differAt (resources resources' : Finset String) :
    DifferAt "g" (sampleInput resources) (sampleInput resources') where
  same := rfl
  elsewhere semantics hne := by
    simp only [sampleInput, mem_cons, not_mem_nil, or_false]
    refine or_congr Iff.rfl ⟨fun h => ?_, fun h => ?_⟩ <;> exact absurd (congrArg _ h) hne

/-- In the sample, `g` uses the network as well: the summary of `f` changes and is invalidated. -/
theorem sample_change_invalidates :
    ∃ s s', analyzeCommonDerived sampleLibraries (sampleInput {"db"}) sampleBounds = .ok s ∧
      analyzeCommonDerived sampleLibraries (sampleInput {"db", "net"}) sampleBounds = .ok s' ∧
      ¬BoundHit s ∧ ¬BoundHit s' ∧ ¬SameSummary s s' "f" ∧
      ⟨.callableSummary, "callable", "f", "TRANSITIVE_CALLEE_INPUT_CHANGED"⟩ ∈ s.invalidation ∧
      ⟨.callableSummary, "callable", "f", "TRANSITIVE_CALLEE_INPUT_CHANGED"⟩ ∈ s'.invalidation := by
  obtain ⟨s, hs, hchk⟩ := exists_ok_of_any
    (x := analyzeCommonDerived sampleLibraries (sampleInput {"db"}) sampleBounds)
    (p := fun s => s.unknowns = ∅ ∧ ¬∃ row ∈ s.facts, row.family = .callableResource ∧
      row.subject = "f" ∧ row.value = some "net") (by decide +kernel)
  obtain ⟨s', hs', hchk'⟩ := exists_ok_of_any
    (x := analyzeCommonDerived sampleLibraries (sampleInput {"db", "net"}) sampleBounds)
    (p := fun s => s.unknowns = ∅ ∧ ∃ row ∈ s.facts, row.family = .callableResource ∧
      row.subject = "f" ∧ row.value = some "net") (by decide +kernel)
  obtain ⟨hrw, hval⟩ := of_decide_eq_true hchk
  obtain ⟨hr', hval'⟩ := of_decide_eq_true hchk'
  have hu : ∀ s : AnalysisState, s.unknowns = ∅ → ¬BoundHit s := by
    rintro s hemp ⟨row, hrow, _⟩
    simp [hemp] at hrow
  have hdif : ¬SameSummary s s' "f" := fun hsm => hval ((hsm.1 .resource "net").2 hval')
  exact ⟨s, s', hs, hs', hu s hrw, hu s' hr', hdif,
    invalidation_sound (referenceLibraries_documented _) (sampleInput_differAt _ _) (by decide)
      hs hs' (hu s hrw) (hu s' hr') hdif (by decide)⟩

end CodeFabric.Derived
