import CodeFabric.Derived.Emission

/-! # Gaps and completeness

When a family is reported complete although an unknown row was emitted for it.

**`UncountedGap`**: an owner without a root or exit and without edges, a control-flow graph without
edges over the node bound, or a call graph without calls over the callable bound. These emit unknown
rows and count no unit. For control dependence it stands only where the output bound leaves out no
control row of the owners, since a lost row is counted. -/

namespace CodeFabric.Derived

open List hiding all

open Fallible Worklist AnalysisState CommonInputFamily Progress

variable {f : Family} {n m : Nat} {s s' s'' : AnalysisState} {lib : Libraries}
  {bounds : CommonAnalysisBounds} {input : CommonDerivedAnalysisInput} {P Q : Prop}
  {inputFamily : CommonInputFamily} {edges : List CommonCfgEdge} {nodes : List CommonCfgNode}
  {owner : String} {callers : String → Finset String}

/-- An unknown row was emitted for a family. -/
def HasGap (f : Family) (s : AnalysisState) : Prop := ∃ row ∈ s.unknowns, row.family = f

theorem Frame.hasGap_iff (h : Frame f s s') : HasGap f s' ↔ HasGap f s :=
  exists_congr fun row => and_congr_left fun hrow => h.unknowns row hrow

theorem Settles.explained (h : Settles f n s s') (hs : ¬HasGap f s) (hgap : HasGap f s') :
    0 < (s'.progress f).unknown := by
  obtain ⟨row, hrow, hfam⟩ := hgap
  obtain hrow | hlt := h.explains row hrow hfam
  · exact absurd ⟨row, hrow, hfam⟩ hs
  · exact (Nat.zero_le _).trans_lt hlt

theorem complete_iff (progress : Progress) : progress.complete = true ↔
    progress.requested = progress.completed ∧ progress.remainder = 0 ∧ progress.unknown = 0 := by
  simp [complete]

/-! ## Counted gaps -/

/-- From `s` to `s'` a family gets a gap that is counted, exactly if `P` holds. -/
structure Opens (f : Family) (P : Prop) (s s' : AnalysisState) : Prop where
  exhausted : s'.outputExhaustedFamilies = s.outputExhaustedFamilies
  gap : HasGap f s' ↔ HasGap f s ∨ P
  complete : (s'.progress f).complete = true ↔ (s.progress f).complete = true ∧ ¬P

theorem Opens.congr (h : Opens f P s s') (hPQ : P ↔ Q) : Opens f Q s s' :=
  ⟨h.exhausted, by rw [h.gap, hPQ], by rw [h.complete, hPQ]⟩

theorem Opens.refl (hP : ¬P) : Opens f P s s := ⟨rfl, by simp [hP], by simp [hP]⟩

theorem Opens.trans (h : Opens f P s s') (h' : Opens f Q s' s'') : Opens f (P ∨ Q) s s'' where
  exhausted := h'.exhausted.trans h.exhausted
  gap := by rw [h'.gap, h.gap, or_assoc]
  complete := by rw [h'.complete, h.complete, not_or, and_assoc]

theorem Accepted.gap_units (h : Accepted input)
    {coverage : CommonInputCoverage} (hcov : input.coverage inputFamily = some coverage)
    (hinc : ¬coverage.isComplete) : 0 < coverage.remainderUnits ∨ 0 < coverage.unknownUnits := by
  obtain ⟨row, hrow, _, _, hpin⟩ := h.covered inputFamily
  obtain rfl : row = coverage := Option.some.inj (hrow.symm.trans hcov)
  simp only [CommonInputCoverage.isComplete, decide_eq_true_eq] at hinc
  by_contra hn
  refine hinc ⟨?_, ?_, ?_, hpin⟩ <;> omega

theorem opens_applyCoverage (hacc : Accepted input)
    (h : applyCoverage input s inputFamily = .ok s') :
    Opens f (f ∈ inputFamily.derived ∧ input.covers inputFamily = false) s s' := by
  simp only [applyCoverage, ok_iff] at h
  obtain ⟨coverage, hcv, h⟩ := h
  have hcov : input.covers inputFamily = coverage.isComplete := by
    rw [CommonDerivedAnalysisInput.covers, hcv]
    rfl
  by_cases hcpl : coverage.isComplete = true
  · rw [if_pos hcpl] at h
    cases h
    exact Opens.refl (by simp [hcov, hcpl])
  · rw [if_neg hcpl] at h
    cases h
    have hun := hacc.gap_units hcv hcpl
    rw [adjustAll_eq (by cases inputFamily <;> decide)]
    refine ⟨by simp, ?_, ?_⟩
    · simp only [HasGap, mem_unknownAll]
      constructor
      · rintro ⟨row, hrow | ⟨_, hfam, rfl⟩, rfl⟩
        · exact .inl ⟨row, hrow, rfl⟩
        · exact .inr ⟨hfam, by simp [hcov, hcpl]⟩
      · rintro (⟨row, hrow, hfam⟩ | ⟨hfam, _⟩)
        · exact ⟨row, .inl hrow, hfam⟩
        · exact ⟨_, .inr ⟨f, hfam, rfl⟩, rfl⟩
    · by_cases hf : f ∈ inputFamily.derived
      · -- one of the two counters is above zero afterwards, saturated or not
        have hmax : 0 < u64Max := by decide
        simp only [hf, if_true, complete_iff, CommonInputCoverage.gap, saturatingAdd, hcov,
          hcpl, true_and, not_true_eq_false, and_false, iff_false]
        omega
      · simp [hf]

theorem opens_coverageLoop (hacc : Accepted input) {items : List CommonInputFamily}
    (h : items.foldlM (applyCoverage input) s = .ok s') :
    Opens f (∃ inputFamily ∈ items, f ∈ inputFamily.derived ∧ input.covers inputFamily = false)
      s s' := by
  induction items generalizing s with
  | nil =>
    cases h
    exact Opens.refl (by simp)
  | cons inputFamily items ih =>
    rw [foldlM_cons, bind_eq_ok] at h
    obtain ⟨_, hfst, hr⟩ := h
    exact ((opens_applyCoverage hacc hfst).trans (ih hr)).congr (by simp)

theorem opens_reportExhausted (family : Family) (s : AnalysisState) :
    Opens f (f = family ∧ f ∈ s.outputExhaustedFamilies) s (reportExhausted family s) := by
  unfold reportExhausted
  by_cases hexh : family ∈ s.outputExhaustedFamilies
  · rw [if_pos hexh]
    refine ⟨rfl, ?_, ?_⟩
    · simp only [HasGap, adjust, mem_unknown]
      constructor
      · rintro ⟨row, rfl | hrow, hfam⟩
        · exact .inr ⟨hfam.symm, hfam ▸ hexh⟩
        · exact .inl ⟨row, hrow, hfam⟩
      · rintro (⟨row, hrow, hfam⟩ | ⟨rfl, _⟩)
        · exact ⟨row, .inr hrow, hfam⟩
        · exact ⟨_, .inl rfl, rfl⟩
    · by_cases hf : f = family
      · subst hf
        have hmax : 0 < u64Max := by decide
        simp only [progress_adjust, if_true, complete_iff, saturatingAdd, hexh,
          and_self, not_true_eq_false, and_false, iff_false]
        omega
      · simp [hf]
  · rw [if_neg hexh]
    exact Opens.refl fun h => hexh (h.1 ▸ h.2)

theorem opens_exhaustedLoop (items : List Family) (s : AnalysisState) :
    Opens f (f ∈ items ∧ f ∈ s.outputExhaustedFamilies) s (forEach items reportExhausted s) := by
  induction items generalizing s with
  | nil => exact Opens.refl (by simp)
  | cons family items ih =>
    have hfst : Opens f (f = family ∧ f ∈ s.outputExhaustedFamilies) s
        (reportExhausted family s) := opens_reportExhausted family s
    refine (hfst.trans (ih _)).congr ?_
    rw [hfst.exhausted, mem_cons, or_and_right]

/-! ## The control-flow stage -/

protected theorem Settles.deriveOwner {complete : Bool}
    (hf : f = .dominator ∨ f = .postDominator) (hown : owner ∈ cfgOwners nodes)
    (h : deriveOwner lib complete nodes edges bounds s owner = .ok s') :
    Settles f (ownerUnits nodes edges owner f) s s' := by
  by_cases hrt : Rooted (ownerNodes nodes owner)
  · exact .rooted hrt h f
  · obtain ⟨_, rfl⟩ | ⟨hroot, _⟩ := deriveOwner_eq_ok h
    · refine .unknown (progress_unrootedState owner s f) ?_
      rw [cfgOwners, mem_inOrder, mem_toFinset] at hown
      obtain ⟨node, hn, hown⟩ := List.mem_map.1 hown
      have hmb : node ∈ ownerNodes nodes owner := by
        rw [ownerNodes, mem_insertionSort, mem_filter]
        exact ⟨hn, by simpa using hown⟩
      obtain rfl | rfl := hf <;> exact length_pos_of_mem hmb
    · exact absurd hroot hrt

theorem control_unknown_deriveOwner {complete : Bool}
    (h : deriveOwner lib complete nodes edges bounds s owner = .ok s') :
    (s'.progress .controlDependence).unknown = (s.progress .controlDependence).unknown +
        (if Rooted (ownerNodes nodes owner) then 0 else (ownerEdges edges owner).length) ∧
      (HasGap .controlDependence s' ↔ HasGap .controlDependence s ∨
        0 < if Rooted (ownerNodes nodes owner) then 0 else 1) := by
  obtain ⟨hunr, rfl⟩ | ⟨hrt, dominators, post, rfl⟩ := deriveOwner_eq_ok h
  · rw [progress_unrootedState, if_neg hunr, if_neg hunr]
    refine ⟨rfl, iff_of_true ?_ (.inr Nat.one_pos)⟩
    exact ⟨_, mem_unrootedState.2 (.inr ⟨.controlDependence, by decide, rfl⟩), rfl⟩
  · rw [if_pos hrt, if_pos hrt]
    have hn : Frame .controlDependence s (forEach (ownerNodes nodes owner)
        (deriveDominance .postDominator "CFG_NODE_CANNOT_REACH_EXIT" owner complete post bounds)
        (forEach (ownerNodes nodes owner) (deriveDominance .dominator
          "CFG_NODE_UNREACHABLE_FROM_ENTRY" owner complete dominators bounds) s)) :=
      (Frame.forEach (fun node _ s => .deriveDominance (by decide) _ _ _ node s) s).trans
        (.forEach (fun node _ s => .deriveDominance (by decide) _ _ _ node s) _)
    -- the control dependences of edges are completed units
    have he : ∀ (items : List CommonCfgEdge) (s : AnalysisState),
        ((forEach items (deriveControl complete post (ownerNodes nodes owner).length bounds)
            s).progress .controlDependence).unknown = (s.progress .controlDependence).unknown ∧
          (forEach items (deriveControl complete post (ownerNodes nodes owner).length bounds)
            s).unknowns = s.unknowns := by
      intro items s
      refine forEach_induct (P := fun s₁ : AnalysisState =>
        (s₁.progress .controlDependence).unknown = (s.progress .controlDependence).unknown ∧
          s₁.unknowns = s.unknowns) ⟨rfl, rfl⟩ fun _ _ s₁ hs₁ => ?_
      simpa [deriveControl, adjust, addCompleted] using hs₁
    refine ⟨by rw [(he _ _).1, hn.progress]; rfl, ?_⟩
    rw [HasGap, (he _ _).2]
    exact hn.hasGap_iff.trans (or_iff_left (Nat.lt_irrefl 0)).symm

/-- An owner of nodes without one entry and an exit. -/
def Unrooted (input : CommonDerivedAnalysisInput) (owner : String) : Prop :=
  owner ∈ input.cfgNodes.map (·.ownerId) ∧ ¬Rooted (ownerNodes input.cfgNodes owner)

theorem control_unknown_owners (h : (cfgOwners input.cfgNodes).foldlM
      (deriveOwner lib (input.covers .cfg) input.cfgNodes edges bounds) s = .ok s')
    (hunk : (s.progress .controlDependence).unknown = 0) (hgap : ¬HasGap .controlDependence s) :
    ((s'.progress .controlDependence).unknown = 0 ↔ ∀ edge ∈ edges, ¬Unrooted input edge.ownerId) ∧
      (HasGap .controlDependence s' ↔ ∃ owner, Unrooted input owner) := by
  have hun : (s'.progress .controlDependence).unknown = (s.progress .controlDependence).unknown +
      ((cfgOwners input.cfgNodes).map fun owner =>
        if Rooted (ownerNodes input.cfgNodes owner) then 0
        else (ownerEdges edges owner).length).sum :=
    foldlM_accumulates (R := fun (n : Nat) (s s' : AnalysisState) =>
      (s'.progress .controlDependence).unknown = (s.progress .controlDependence).unknown + n)
      (fun _ => rfl)
      (fun h h' => by rw [h', h, Nat.add_assoc])
      (fun owner _ s s' hst => (control_unknown_deriveOwner hst).1) h
  have hgp : HasGap .controlDependence s' ↔ HasGap .controlDependence s ∨ 0 <
      ((cfgOwners input.cfgNodes).map fun owner =>
        if Rooted (ownerNodes input.cfgNodes owner) then 0 else 1).sum :=
    foldlM_accumulates (R := fun (n : Nat) (s s' : AnalysisState) => HasGap .controlDependence s' ↔
      HasGap .controlDependence s ∨ 0 < n) (fun _ => by simp)
      (fun h h' => by rw [h', h, or_assoc, Nat.add_pos_iff_pos_or_pos])
      (fun owner _ s s' hst => (control_unknown_deriveOwner hst).2) h
  constructor
  · rw [hun, hunk, Nat.zero_add, sum_eq_zero_iff, forall_mem_map]
    simp only [mem_cfgOwners]
    constructor
    · rintro hz edge hed ⟨hown, hunr⟩
      have hlen := hz edge.ownerId hown
      rw [if_neg hunr] at hlen
      have hmb : edge ∈ ownerEdges edges edge.ownerId := List.mem_filter.2 ⟨hed, by simp⟩
      exact absurd (length_pos_of_mem hmb) (by omega)
    · intro hedges owner hown
      split
      · rfl
      · rename_i hunr
        rw [length_eq_zero_iff, ownerEdges, filter_eq_nil_iff]
        intro edge hed hsm
        obtain rfl : edge.ownerId = owner := by simpa using hsm
        exact hedges edge hed ⟨hown, hunr⟩
  · rw [hgp, or_iff_right hgap, Nat.pos_iff_ne_zero, ne_eq, sum_eq_zero_iff, forall_mem_map]
    simp only [mem_cfgOwners, not_forall, Unrooted]
    refine exists_congr fun owner => ?_
    by_cases hr : Rooted (ownerNodes input.cfgNodes owner) <;> simp [hr]

theorem not_hasGap_requestCfg : ¬HasGap f (requestCfg input edges .initial) := by
  rintro ⟨_, hrow, _⟩
  simp [requestCfg, adjustAll, adjust, initial] at hrow

theorem dominance_gap_counted (hows : ∀ edge ∈ edges, edge.ownerId ∈ input.cfgNodes.map (·.ownerId))
    (hf : f = .dominator ∨ f = .postDominator)
    (h : deriveCfgFamilies lib input edges bounds .initial = .ok s) (hgap : HasGap f s) :
    ¬(s.progress f).complete = true := by
  rw [complete_iff]
  rintro ⟨_, _, hunk⟩
  obtain ⟨hexc, _, rfl⟩ | ⟨_, h⟩ := deriveCfgFamilies_eq_ok h
  · -- a graph over a bound has nodes
    have hnd : 0 < input.cfgNodes.length := by
      obtain hnd | hed := hexc
      · exact (Nat.zero_le _).trans_lt hnd
      · obtain ⟨edge, hedge⟩ := exists_mem_of_length_pos ((Nat.zero_le _).trans_lt hed)
        obtain ⟨_, hnode, _⟩ := List.mem_map.1 (hows edge hedge)
        exact length_pos_of_mem hnode
    rw [adjustAll_eq (by decide)] at hunk
    obtain ⟨hdom, hp, _⟩ :
        _ ∧ _ ∧ (requestCfg input edges .initial).progress .controlDependence = _ :=
      progress_requestCfg .initial
    obtain rfl | rfl := hf
    · simp [cfgFamilies, hdom, requesting] at hunk
      simp [hunk] at hnd
    · simp [cfgFamilies, hp, requesting] at hunk
      simp [hunk] at hnd
  · have hset : Settles f ((cfgOwners input.cfgNodes).map fun owner =>
        ownerUnits input.cfgNodes edges owner f).sum (requestCfg input edges .initial) s :=
      foldlM_accumulates (fun s => (Frame.refl f s).settles) (fun h h' => h.trans h')
        (fun owner hown s _ hst => .deriveOwner hf hown hst) h
    exact absurd hunk (hset.explained not_hasGap_requestCfg hgap).ne'

theorem control_gap_uncounted (hows : ∀ edge ∈ edges, edge.ownerId ∈ input.cfgNodes.map (·.ownerId))
    (h : deriveCfgFamilies lib input edges bounds .initial = .ok s) :
    ((s.progress .controlDependence).complete = true ∧ HasGap .controlDependence s) ↔
      (bounds.maxCfgNodes < input.cfgNodes.length ∧ edges = []) ∨
        (¬CfgExceeds input edges bounds ∧ (∃ owner, Unrooted input owner) ∧
          ∀ edge ∈ edges, ¬Unrooted input edge.ownerId) := by
  have hset := settled_deriveCfgFamilies (f := .controlDependence) (by decide) hows h
  have hcpl : (s.progress .controlDependence).complete = true ↔
      (s.progress .controlDependence).unknown = 0 := by
    obtain ⟨_⟩ := hset
    rw [complete_iff]
    omega
  obtain ⟨_, _, hcon⟩ : _ ∧ _ ∧ (requestCfg input edges .initial).progress .controlDependence = _ :=
    progress_requestCfg .initial
  rw [hcpl]
  obtain ⟨hexc, detail, rfl⟩ | ⟨hwi, h⟩ := deriveCfgFamilies_eq_ok h
  · rw [adjustAll_eq (by decide)]
    have hgap : HasGap .controlDependence ((requestCfg input edges .initial).unknownAll cfgFamilies
        none "CFG_RESOURCE_BOUND_EXHAUSTED" (some detail) 0) :=
      ⟨_, mem_unknownAll.2 (.inr ⟨.controlDependence, by decide, rfl⟩), rfl⟩
    simp only [cfgFamilies, mem_cons, not_mem_nil, or_false, reduceCtorEq, or_true,
      if_true, progress_unknownAll, hcon, requesting,
      length_eq_zero_iff, hexc, not_true_eq_false, false_and]
    constructor
    · rintro ⟨rfl, _⟩
      obtain hn | hed := hexc
      · exact ⟨hn, rfl⟩
      · exact absurd hed (Nat.not_lt_zero _)
    · exact fun hed => ⟨hed.2, hgap⟩
  · obtain ⟨hunk, hgap⟩ := control_unknown_owners h (by rw [hcon]; rfl) not_hasGap_requestCfg
    rw [hunk, hgap]
    have hn : ¬bounds.maxCfgNodes < input.cfgNodes.length := fun hlt => hwi (.inl hlt)
    simp only [hn, false_and, false_or, hwi, not_false_eq_true, true_and]
    exact and_comm

/-- Control dependence loses a row exactly if the rows of the owners go over the output bound. -/
theorem control_exhausted_iff (h : deriveCfgFamilies lib input edges bounds .initial = .ok s) :
    .controlDependence ∈ s.outputExhaustedFamilies ↔ ¬CfgExceeds input edges bounds ∧
      LeavesOut bounds (cfgRows lib input edges) .controlDependence := by
  obtain ⟨hexc, h⟩ | ⟨hwi, h⟩ := emits_deriveCfgFamilies h
  · rw [h.mem_exhausted_iff]
    refine iff_of_false ?_ fun hwi => hwi.1 hexc
    rintro ⟨before, row, after, heq, _⟩
    exact absurd heq (by simp)
  · rw [h.mem_exhausted_iff, and_iff_right hwi]

/-! ## The call stage -/

theorem hasGap_exhaustCalls (hf : f ∈ callFamilies) (s : AnalysisState) :
    HasGap f (exhaustCalls input bounds s) := by
  unfold exhaustCalls
  rw [adjustAll_eq (by decide)]
  exact ⟨_, mem_unknownAll.2 (.inr ⟨f, hf, rfl⟩), rfl⟩

theorem requested_pos_requestCalls (hf : f ∈ callFamilies) (hcl : f ≠ .callGraph)
    (hcal : 0 < (callablesOf input).card) (s : AnalysisState) :
    0 < ((requestCalls input s).progress f).requested := by
  rw [progress_requestCalls, if_neg hcl]
  split_ifs with htop hsum
  · exact Nat.lt_min.2 ⟨Nat.add_pos_left hcal _, by decide⟩
  · exact hcal
  · simp [callFamilies, hcl, htop, hsum] at hf

theorem call_gap_uncounted (hlib : lib.Documented) {exactCalls : List ExactCall}
    (hstg : Staged input exactCalls) (hf : f ∈ callFamilies)
    (hs : ¬HasGap f s) (h : deriveCallFamilies lib input exactCalls bounds s = .ok (s', callers)) :
    ((s'.progress f).complete = true ∧ HasGap f s') ↔
      f = .callGraph ∧ input.calls = [] ∧ bounds.maxCallables < (callablesOf input).card := by
  by_cases hexc : CallsExceed input bounds
  · obtain ⟨_, rfl, _⟩ | ⟨hcn, _⟩ := deriveCallFamilies_eq_ok h
    · -- a call graph over a bound has callables
      have hcal : 0 < (callablesOf input).card := by
        obtain hcr | hcalls := hexc
        · exact (Nat.zero_le _).trans_lt hcr
        · obtain ⟨call, hcl⟩ := exists_mem_of_length_pos ((Nat.zero_le _).trans_lt hcalls)
          refine Finset.card_pos.2 ⟨call.callerId, ?_⟩
          simp only [callablesOf, Finset.mem_union, mem_toFinset, mem_map]
          exact .inl (.inr ⟨call, hcl, rfl⟩)
      rw [and_iff_left (hasGap_exhaustCalls hf _), complete_iff, exhaustCalls,
        adjustAll_eq (by decide)]
      simp only [hf, if_true, progress_unknownAll]
      by_cases hcl : f = .callGraph
      · subst hcl
        simp only [progress_requestCalls, if_true, requesting, length_eq_zero_iff,
          true_and, and_self]
        refine ⟨fun hcalls => ⟨hcalls, hexc.resolve_right ?_⟩, fun h => h.1⟩
        rw [hcalls]
        exact Nat.not_lt_zero _
      · have hrqd := requested_pos_requestCalls hf hcl hcal s
        simp only [hrqd.ne', and_false, hcl, false_and]
    · exact absurd hexc hcn
  · have hset := Settles.deriveCallFamilies hlib hstg hexc h f
    have hcln : ¬HasGap f (requestCalls input s) := hs
    refine iff_of_false ?_ fun hcl => hexc (.inl hcl.2.2)
    rintro ⟨hcpl, hgap⟩
    exact absurd ((complete_iff _).1 hcpl).2.2 (hset.explained hcln hgap).ne'

/-! ## The report -/

/-- The inputs for which an unknown row of a family is emitted and nothing is counted for it. -/
def UncountedGap (lib : Libraries) (input : CommonDerivedAnalysisInput)
    (bounds : CommonAnalysisBounds) : Family → Prop
  | .controlDependence => input.covers .cfg = true ∧
      ((bounds.maxCfgNodes < input.cfgNodes.length ∧ input.cfgEdges = []) ∨
        (input.cfgNodes.length ≤ bounds.maxCfgNodes ∧
          input.cfgEdges.toFinset.card ≤ bounds.maxCfgEdges ∧
          (∃ owner, Unrooted input owner) ∧
          (∀ edge ∈ input.cfgEdges, ¬Unrooted input edge.ownerId) ∧
          ¬LeavesOut bounds (cfgRows lib input (stagedEdges lib input)) .controlDependence))
  | .callGraph => input.covers .callTargets = true ∧ input.calls = [] ∧
      bounds.maxCallables < (callablesOf input).card
  | _ => False

/-- Every input family that feeds a derived family is covered. -/
def FedCompletely (input : CommonDerivedAnalysisInput) (f : Family) : Prop :=
  ∀ inputFamily : CommonInputFamily, f ∈ inputFamily.derived → input.covers inputFamily = true

theorem fedCompletely_controlDependence :
    FedCompletely input .controlDependence ↔ input.covers .cfg = true :=
  ⟨fun h => h .cfg (by decide), fun h inputFamily hmem => by
    cases inputFamily <;> first | exact h | exact absurd hmem (by decide)⟩

theorem fedCompletely_callGraph :
    FedCompletely input .callGraph ↔ input.covers .callTargets = true :=
  ⟨fun h => h .callTargets (by decide), fun h inputFamily hmem => by
    cases inputFamily <;> first | exact h | exact absurd hmem (by decide)⟩

/-- The control dependences, over the edges of the input in place of the staged ones. -/
theorem stage_control_uncounted (hlib : lib.Documented) (hacc : Accepted input)
    {triples : NormalizedTriples} {cfg : AnalysisState}
    (hspl : splitStage (lib.distinctSorted (stageRows input)) = .ok triples)
    (hcfg : deriveCfgFamilies lib input triples.cfg bounds .initial = .ok cfg) :
    (FedCompletely input .controlDependence ∧
      ((cfg.progress .controlDependence).complete = true ∧ HasGap .controlDependence cfg) ∧
      .controlDependence ∉ cfg.outputExhaustedFamilies) ↔
        UncountedGap lib input bounds .controlDependence := by
  have hows : ∀ edge ∈ triples.cfg, edge.ownerId ∈ input.cfgNodes.map (·.ownerId) :=
    fun edge hedge => hacc.owner_of_edge ((mem_staged_cfg hlib hspl).1 hedge)
  have hst : stagedEdges lib input = triples.cfg := by rw [stagedEdges, hspl]
  rw [control_gap_uncounted hows hcfg, control_exhausted_iff hcfg,
    fedCompletely_controlDependence, UncountedGap, hst]
  have hemp : triples.cfg = [] ↔ input.cfgEdges = [] := by
    rw [← length_eq_zero_iff, length_staged_cfg hlib hspl, Finset.card_eq_zero,
      toFinset_eq_empty_iff]
  have hedges : (∀ edge ∈ triples.cfg, ¬Unrooted input edge.ownerId) ↔
      ∀ edge ∈ input.cfgEdges, ¬Unrooted input edge.ownerId :=
    forall_congr' fun edge => by rw [mem_staged_cfg hlib hspl]
  have hwi : ¬CfgExceeds input triples.cfg bounds ↔ input.cfgNodes.length ≤ bounds.maxCfgNodes ∧
        input.cfgEdges.toFinset.card ≤ bounds.maxCfgEdges := by
    rw [CfgExceeds, not_or, Nat.not_lt, Nat.not_lt, length_staged_cfg hlib hspl]
  rw [hemp, hedges]
  refine and_congr_right fun _ => ⟨?_, ?_⟩
  · rintro ⟨hbd | ⟨hin, howner, hall⟩, hls⟩
    · exact .inl hbd
    · obtain ⟨hn, he⟩ := hwi.1 hin
      exact .inr ⟨hn, he, howner, hall, fun hout => hls ⟨hin, hout⟩⟩
  · rintro (hbd | ⟨hn, he, howner, hall, hls⟩)
    · exact ⟨.inl hbd, fun hout => hout.1 (.inl hbd.1)⟩
    · exact ⟨.inr ⟨hwi.2 ⟨hn, he⟩, howner, hall⟩, fun hout => hls hout.2⟩

/-- The stages leave a complete family with a gap exactly where the gap is not counted. -/
theorem stages_gap_uncounted (hlib : lib.Documented) (hacc : Accepted input)
    {triples : NormalizedTriples} {cfg calls : AnalysisState}
    (hspl : splitStage (lib.distinctSorted (stageRows input)) = .ok triples)
    (hcfg : deriveCfgFamilies lib input triples.cfg bounds .initial = .ok cfg)
    (hcalls : deriveCallFamilies lib input triples.calls bounds
      (deriveDataDependence input triples.data bounds cfg) = .ok (calls, callers)) :
    (FedCompletely input f ∧ ((calls.progress f).complete = true ∧ HasGap f calls) ∧
      f ∉ calls.outputExhaustedFamilies) ↔ UncountedGap lib input bounds f := by
  have hini : ∀ family, ¬HasGap family .initial := fun family ⟨_, hrow, _⟩ => by
    simp [initial] at hrow
  have hows : ∀ edge ∈ triples.cfg, edge.ownerId ∈ input.cfgNodes.map (·.ownerId) :=
    fun edge hedge => hacc.owner_of_edge ((mem_staged_cfg hlib hspl).1 hedge)
  have hdata : f ≠ .dataDependence →
      Frame f cfg (deriveDataDependence input triples.data bounds cfg) :=
    fun hf => .deriveDataDependence hf cfg
  by_cases hcall : f ∈ callFamilies
  · have hnoCfg : f ∉ cfgFamilies := by
      intro hmem
      simp only [cfgFamilies, mem_cons, not_mem_nil, or_false] at hmem
      obtain rfl | rfl | rfl := hmem <;> exact absurd hcall (by decide)
    have hnoData : f ≠ .dataDependence := by
      rintro rfl
      exact absurd hcall (by decide)
    have hcln : ¬HasGap f (deriveDataDependence input triples.data bounds cfg) := by
      rw [(hdata hnoData).hasGap_iff, (Frame.deriveCfgFamilies hnoCfg hcfg).hasGap_iff]
      exact hini f
    rw [call_gap_uncounted hlib (fun _ => mem_staged_calls hlib hspl) hcall hcln hcalls]
    cases f with
    | callGraph =>
      -- a call graph over a bound emits no row that could be lost
      have hfree : bounds.maxCallables < (callablesOf input).card →
          .callGraph ∉ calls.outputExhaustedFamilies := by
        intro hexc
        obtain ⟨_, rfl, _⟩ | ⟨hwi, _⟩ := deriveCallFamilies_eq_ok hcalls
        · rw [(emits_exhaustCalls _).exhausted]
          exact fun hmem => Finset.notMem_empty _
            (((emitsOnly_deriveCfgFamilies hcfg).mem_exhausted_iff hnoCfg).1
              (((emitsOnly_deriveDataDependence _ _).mem_exhausted_iff (by decide)).1 hmem))
        · exact absurd (.inl hexc) hwi
      rw [UncountedGap, fedCompletely_callGraph]
      exact and_congr_right fun _ => ⟨fun h => h.1.2, fun h => ⟨⟨rfl, h⟩, hfree h.2⟩⟩
    | controlDependence => exact absurd (by decide) hnoCfg
    | _ => simp [UncountedGap]
  have hfr : Frame f (deriveDataDependence input triples.data bounds cfg) calls :=
    .deriveCallFamilies hcall hcalls
  rw [hfr.progress, hfr.hasGap_iff,
    (emitsOnly_deriveCallFamilies hcalls).mem_exhausted_iff hcall]
  by_cases hfam : f = .dataDependence
  · -- data dependence never has a gap of its own
    subst hfam
    refine iff_of_false (fun hgap => ?_) id
    refine hini .dataDependence ((Frame.deriveCfgFamilies (by decide) hcfg).hasGap_iff.1 ?_)
    simpa [HasGap, deriveDataDependence, adjust] using hgap.2.1.2
  rw [(hdata hfam).progress, (hdata hfam).hasGap_iff,
    (emitsOnly_deriveDataDependence triples.data cfg).mem_exhausted_iff (by simpa using hfam)]
  cases f with
  | dominator =>
    exact iff_of_false (fun hgap =>
      dominance_gap_counted hows (.inl rfl) hcfg hgap.2.1.2 hgap.2.1.1) id
  | postDominator =>
    exact iff_of_false (fun hgap =>
      dominance_gap_counted hows (.inr rfl) hcfg hgap.2.1.2 hgap.2.1.1) id
  | controlDependence => exact stage_control_uncounted hlib hacc hspl hcfg
  | dataDependence => exact absurd rfl hfam
  | _ => exact absurd (by decide) hcall

/-- **A complete report is right except for gaps that are not counted.** -/
theorem complete_report_iff (hlib : lib.Documented)
    (h : analyzeCommonDerived lib input bounds = .ok s) (f : Family) :
    ((s.progress f).complete = true →
        (∀ row ∈ s.unknowns, row.family ≠ f) ∧ f ∉ s.outputExhaustedFamilies ∧
          ∀ inputFamily : CommonInputFamily, f ∈ inputFamily.derived →
            input.covers inputFamily = true) ↔
      ¬UncountedGap lib input bounds f := by
  obtain ⟨hacc, _, _, calls, callers, covered, hspl, hcfg, hcl, hcv, hs⟩ :=
    analyzeCommonDerived_eq_ok h
  have hstg := stages_gap_uncounted (f := f) hlib hacc hspl hcfg hcl
  have hcov : Opens f (∃ inputFamily ∈ all, f ∈ inputFamily.derived ∧
      input.covers inputFamily = false) (deriveInvalidation input callers calls) covered :=
    opens_coverageLoop hacc hcv
  have hrpt : Opens f (f ∈ Family.all ∧ f ∈ covered.outputExhaustedFamilies) covered s := by
    rw [hs]
    exact opens_exhaustedLoop Family.all covered
  have hfed : (∃ inputFamily ∈ all, f ∈ inputFamily.derived ∧
      input.covers inputFamily = false) ↔ ¬FedCompletely input f := by
    simp only [FedCompletely, not_forall, Bool.not_eq_true]
    refine exists_congr fun inputFamily => ?_
    have hmem : inputFamily ∈ all := by cases inputFamily <;> decide
    simp [hmem]
  have hexh : (f ∈ Family.all ∧ f ∈ covered.outputExhaustedFamilies) ↔
      f ∈ s.outputExhaustedFamilies := by
    rw [hrpt.exhausted]
    exact and_iff_right (by cases f <;> decide)
  have hrw : (∀ row ∈ s.unknowns, row.family ≠ f) ↔ ¬HasGap f s := by
    simp [HasGap]
  have hk : HasGap f (deriveInvalidation input callers calls) ↔ HasGap f calls := Iff.rfl
  have hcts : (deriveInvalidation input callers calls).progress f = calls.progress f := rfl
  have hlost : f ∈ s.outputExhaustedFamilies ↔ f ∈ calls.outputExhaustedFamilies := by
    rw [hrpt.exhausted, hcov.exhausted]
    exact Iff.rfl
  change (_ → _ ∧ _ ∧ FedCompletely input f) ↔ _
  rw [hrw, hrpt.gap, hrpt.complete, hcov.gap, hcov.complete, hexh, hfed, hk, hcts, ← hstg, hlost]
  constructor
  · rintro hlaw ⟨hfed, ⟨hcpl, hgap⟩, hls⟩
    exact (hlaw ⟨⟨hcpl, not_not.2 hfed⟩, hls⟩).1 (.inl (.inl hgap))
  · rintro hlaw ⟨⟨hcpl, hfed⟩, hls⟩
    have hfed := not_not.1 hfed
    refine ⟨?_, hls, hfed⟩
    rintro ((hgap | hu) | hl')
    · exact hlaw ⟨hfed, ⟨hcpl, hgap⟩, hls⟩
    · exact hu hfed
    · exact hls hl'

theorem sample_reachability_report :
    ∃ s, analyzeCommonDerived sampleLibraries (sampleInput {"db"}) sampleBounds = .ok s ∧
      (s.progress .reachability).complete = true ∧
      (∀ row ∈ s.unknowns, row.family ≠ .reachability) ∧ .reachability ∉ s.outputExhaustedFamilies ∧
          ∀ inputFamily : CommonInputFamily, .reachability ∈ inputFamily.derived →
            (sampleInput {"db"}).covers inputFamily = true := by
  obtain ⟨s, hs, hcpl⟩ := exists_ok_of_any
    (x := analyzeCommonDerived sampleLibraries (sampleInput {"db"}) sampleBounds)
    (p := fun s => (s.progress .reachability).complete) (by decide +kernel)
  exact ⟨s, hs, hcpl, (complete_report_iff (referenceLibraries_documented _) hs .reachability).2
    (fun hgap => hgap) hcpl⟩

/-- An owner with one node that is neither entry nor exit, and without edges. -/
def rootlessInput : CommonDerivedAnalysisInput :=
  { sampleInput {"db"} with
    cfgNodes := [⟨"f", "n1", false, false⟩]
    cfgEdges := []
    defUseReaching := [] }

/-- Control dependence is reported complete for it, next to a row that says it is unknown. -/
theorem rootless_complete_with_gap :
    ∃ s, analyzeCommonDerived sampleLibraries rootlessInput sampleBounds = .ok s ∧
      (s.progress .controlDependence).complete = true ∧
      ⟨.controlDependence, some "f", "CFG_ROOT_OR_EXIT_UNKNOWN",
        some "entry_count=0 exit_count=0", 0⟩ ∈ s.unknowns := by
  obtain ⟨s, hs, hrpt⟩ := exists_ok_of_any
    (x := analyzeCommonDerived sampleLibraries rootlessInput sampleBounds)
    (p := fun s => (s.progress .controlDependence).complete = true ∧
      ⟨.controlDependence, some "f", "CFG_ROOT_OR_EXIT_UNKNOWN",
        some "entry_count=0 exit_count=0", 0⟩ ∈ s.unknowns) (by decide +kernel)
  exact ⟨s, hs, of_decide_eq_true hrpt⟩

end CodeFabric.Derived
