import CodeFabric.Derived.Partition

/-! # Emitted rows

The rows each stage emits, in order, and the families that lose one to the bound on output rows.

* `Emits`: between two states these rows are emitted, with rules for sequences and loops.
* `cfgRows`: the rows of the control-flow stage, from the input and petgraph's answers.
* `LeavesOut`: a family loses a row when as many different rows as the bound allows come before.
-/

namespace CodeFabric.Derived

open List Fallible Worklist AnalysisState

variable {α : Type} {f : Family} {s s' s'' : AnalysisState} {lib : Libraries}
  {bounds : CommonAnalysisBounds} {input : CommonDerivedAnalysisInput} {row : FactRow}
  {rows rows' : List FactRow} {families : List Family}

/-! ## Inserting rows -/

theorem facts_insertFact (row : FactRow) (s : AnalysisState) : (s.insertFact row bounds).facts =
    if s.facts.card < bounds.maxOutputRows then insert row s.facts else s.facts := by
  unfold insertFact
  split <;> rfl

theorem exhausted_insertFact (row : FactRow) (s : AnalysisState) :
    (s.insertFact row bounds).outputExhaustedFamilies =
      if s.facts.card < bounds.maxOutputRows then s.outputExhaustedFamilies
      else insert row.family s.outputExhaustedFamilies := by
  unfold insertFact
  split <;> rfl

theorem insertFacts_cons (row : FactRow) (rows : List FactRow) (s : AnalysisState) :
    s.insertFacts (row :: rows) bounds = (s.insertFact row bounds).insertFacts rows bounds := rfl

theorem insertFacts_append (rows rows' : List FactRow) (s : AnalysisState) :
    s.insertFacts (rows ++ rows') bounds = (s.insertFacts rows bounds).insertFacts rows' bounds :=
  foldl_append

/-- Inserting rows keeps the facts and adds no others. -/
theorem insertFacts_facts (bounds : CommonAnalysisBounds) (rows : List FactRow)
    (s : AnalysisState) : s.facts ⊆ (s.insertFacts rows bounds).facts ∧
      ∀ row ∈ (s.insertFacts rows bounds).facts, row ∈ s.facts ∨ row ∈ rows := by
  induction rows generalizing s with
  | nil => exact ⟨Finset.Subset.refl _, fun _ => .inl⟩
  | cons first rows ih =>
    obtain ⟨hg, hori⟩ := ih (s.insertFact first bounds)
    have hfst : s.facts ⊆ (s.insertFact first bounds).facts := by
      rw [facts_insertFact]
      split
      · exact Finset.subset_insert _ _
      · exact Finset.Subset.refl _
    refine ⟨hfst.trans hg, fun row hrow => ?_⟩
    obtain hrow | hrow := hori row hrow
    · rw [facts_insertFact] at hrow
      split at hrow
      · obtain rfl | hrow := Finset.mem_insert.1 hrow
        · exact .inr mem_cons_self
        · exact .inl hrow
      · exact .inl hrow
    · exact .inr (mem_cons_of_mem _ hrow)

/-- A row that is inserted becomes a fact, or its family loses a row. -/
theorem insertFacts_kept (bounds : CommonAnalysisBounds) (rows : List FactRow) (s : AnalysisState) :
    s.outputExhaustedFamilies ⊆ (s.insertFacts rows bounds).outputExhaustedFamilies ∧
      ∀ row ∈ rows, row ∈ (s.insertFacts rows bounds).facts ∨
        row.family ∈ (s.insertFacts rows bounds).outputExhaustedFamilies := by
  induction rows generalizing s with
  | nil => exact ⟨Finset.Subset.refl _, fun _ h => absurd h not_mem_nil⟩
  | cons first rows ih =>
    obtain ⟨hexh, hk⟩ := ih (s.insertFact first bounds)
    obtain ⟨hg, _⟩ := insertFacts_facts bounds rows (s.insertFact first bounds)
    have hs : s.outputExhaustedFamilies ⊆ (s.insertFact first bounds).outputExhaustedFamilies ∧
        (first ∈ (s.insertFact first bounds).facts ∨
          first.family ∈ (s.insertFact first bounds).outputExhaustedFamilies) := by
      unfold insertFact
      split
      · exact ⟨Finset.Subset.refl _, .inl (Finset.mem_insert_self _ _)⟩
      · exact ⟨Finset.subset_insert _ _, .inr (Finset.mem_insert_self _ _)⟩
    refine ⟨hs.1.trans hexh, fun row hrow => ?_⟩
    obtain rfl | hrow := List.mem_cons.1 hrow
    · exact hs.2.imp (fun h => hg h) fun h => hexh h
    · exact hk row hrow

/-- **Which families lose a row**: those with a row after as many rows as the bound allows. -/
theorem mem_exhausted_insertFacts : f ∈ (s.insertFacts rows bounds).outputExhaustedFamilies ↔
    f ∈ s.outputExhaustedFamilies ∨ ∃ before row after, rows = before ++ row :: after ∧
      row.family = f ∧ bounds.maxOutputRows ≤ (s.facts ∪ before.toFinset).card := by
  induction rows generalizing s with
  | nil => simp [insertFacts]
  | cons first rows ih =>
    rw [insertFacts_cons, ih, exhausted_insertFact, facts_insertFact]
    by_cases hrm : s.facts.card < bounds.maxOutputRows
    · rw [if_pos hrm, if_pos hrm]
      refine or_congr_right ⟨?_, ?_⟩
      · rintro ⟨before, row, after, rfl, hf, hcd⟩
        refine ⟨first :: before, row, after, rfl, hf, ?_⟩
        rwa [toFinset_cons, Finset.union_insert, ← Finset.insert_union]
      · rintro ⟨before, row, after, heq, hf, hcd⟩
        cases before with
        | nil =>
          rw [toFinset_nil, Finset.union_empty] at hcd
          exact absurd hrm (Nat.not_lt.2 hcd)
        | cons x before =>
          obtain ⟨rfl, rfl⟩ := List.cons.inj heq
          refine ⟨before, row, after, rfl, hf, ?_⟩
          rwa [toFinset_cons, Finset.union_insert, ← Finset.insert_union] at hcd
    · -- nothing fits any more, so every row that follows is lost
      have hall : ∀ before : List FactRow,
          (bounds.maxOutputRows : Nat) ≤ (s.facts ∪ before.toFinset).card := fun before =>
        (Nat.not_lt.1 hrm).trans (Finset.card_le_card Finset.subset_union_left)
      rw [if_neg hrm, if_neg hrm, Finset.mem_insert]
      constructor
      · rintro ((rfl | hf) | ⟨before, row, after, rfl, hf, _⟩)
        · exact .inr ⟨[], first, rows, rfl, rfl, hall _⟩
        · exact .inl hf
        · exact .inr ⟨first :: before, row, after, rfl, hf, hall _⟩
      · rintro (hf | ⟨before, row, after, heq, hf, _⟩)
        · exact .inl (.inr hf)
        · cases before with
          | nil =>
            obtain ⟨rfl, -⟩ := List.cons.inj heq
            exact .inl (.inl hf.symm)
          | cons x before =>
            obtain ⟨-, rfl⟩ := List.cons.inj heq
            exact .inr ⟨before, row, after, rfl, hf, hall _⟩

/-- Inserting looks at the rows and the lost families only. -/
theorem insertFacts_congr (hf : s'.facts = s.facts)
    (he : s'.outputExhaustedFamilies = s.outputExhaustedFamilies) (rows : List FactRow) :
    (s'.insertFacts rows bounds).facts = (s.insertFacts rows bounds).facts ∧
      (s'.insertFacts rows bounds).outputExhaustedFamilies =
        (s.insertFacts rows bounds).outputExhaustedFamilies := by
  induction rows generalizing s s' with
  | nil => exact ⟨hf, he⟩
  | cons row rows ih =>
    refine ih ?_ ?_
    · rw [facts_insertFact, facts_insertFact, hf]
    · rw [exhausted_insertFact, exhausted_insertFact, hf, he]

@[simp] theorem facts_adjustAll (families : List Family) (change : Progress → Progress)
    (s : AnalysisState) : (s.adjustAll families change).facts = s.facts := by
  unfold adjustAll
  induction families generalizing s with
  | nil => rfl
  | cons family families ih => exact ih (s.adjust family change)

@[simp] theorem exhausted_adjustAll (families : List Family) (change : Progress → Progress)
    (s : AnalysisState) :
    (s.adjustAll families change).outputExhaustedFamilies = s.outputExhaustedFamilies := by
  unfold adjustAll
  induction families generalizing s with
  | nil => rfl
  | cons family families ih => exact ih (s.adjust family change)

/-! ## Rules -/

/-- From `s` to `s'` these rows are emitted, in this order. -/
structure Emits (bounds : CommonAnalysisBounds) (rows : List FactRow) (s s' : AnalysisState) :
    Prop where
  facts : s'.facts = (s.insertFacts rows bounds).facts
  exhausted : s'.outputExhaustedFamilies = (s.insertFacts rows bounds).outputExhaustedFamilies

theorem Emits.trans (h : Emits bounds rows s s') (h' : Emits bounds rows' s' s'') :
    Emits bounds (rows ++ rows') s s'' := by
  obtain ⟨hf, he⟩ : (s'.insertFacts rows' bounds).facts = _ ∧ _ :=
    insertFacts_congr h.facts h.exhausted rows'
  rw [← insertFacts_append] at hf he
  exact ⟨h'.facts.trans hf, h'.exhausted.trans he⟩

protected theorem Emits.forEach {items : List α} {body : α → AnalysisState → AnalysisState}
    {fact : α → List FactRow} (h : ∀ a ∈ items, ∀ s, Emits bounds (fact a) s (body a s))
    (s : AnalysisState) : Emits bounds (items.flatMap fact) s (forEach items body s) := by
  induction items generalizing s with
  | nil => exact ⟨rfl, rfl⟩
  | cons a items ih =>
    rw [flatMap_cons]
    exact (h a mem_cons_self s).trans (ih (fun b hb => h b (mem_cons_of_mem _ hb)) (body a s))

protected theorem Emits.foldlM {ε : Type} {items : List α}
    {body : AnalysisState → α → Except ε AnalysisState} {fact : α → List FactRow}
    (hbd : ∀ a s s', body s a = .ok s' → Emits bounds (fact a) s s')
    (h : items.foldlM body s = .ok s') : Emits bounds (items.flatMap fact) s s' := by
  induction items generalizing s with
  | nil =>
    cases h
    exact ⟨rfl, rfl⟩
  | cons a items ih =>
    rw [foldlM_cons, bind_eq_ok] at h
    obtain ⟨_, hst, h⟩ := h
    rw [flatMap_cons]
    exact (hbd a _ _ hst).trans (ih h)

/-- From `s` to `s'` only rows of these families are emitted. -/
def EmitsOnly (bounds : CommonAnalysisBounds) (families : List Family) (s s' : AnalysisState) :
    Prop :=
  ∃ rows, (∀ row ∈ rows, row.family ∈ families) ∧ Emits bounds rows s s'

theorem Emits.only (h : Emits bounds [] s s') : EmitsOnly bounds families s s' :=
  ⟨[], fun _ hrow => absurd hrow not_mem_nil, h⟩

theorem EmitsOnly.refl : EmitsOnly bounds families s s := Emits.only ⟨rfl, rfl⟩

theorem EmitsOnly.trans (h : EmitsOnly bounds families s s')
    (h' : EmitsOnly bounds families s' s'') : EmitsOnly bounds families s s'' := by
  obtain ⟨rows, hfam, h⟩ := h
  obtain ⟨rows', hfam', h'⟩ := h'
  exact ⟨rows ++ rows', fun row hrow => (mem_append.1 hrow).elim (hfam row) (hfam' row),
    h.trans h'⟩

theorem EmitsOnly.adjust (h : EmitsOnly bounds families s s') (family : Family)
    (change : Progress → Progress) : EmitsOnly bounds families s (s'.adjust family change) := by
  obtain ⟨rows, hfam, h⟩ := h
  exact ⟨rows, hfam, h.facts, h.exhausted⟩

protected theorem EmitsOnly.forEach {items : List α} {body : α → AnalysisState → AnalysisState}
    (h : ∀ a s, EmitsOnly bounds families s (body a s)) (s : AnalysisState) :
    EmitsOnly bounds families s (forEach items body s) :=
  forEach_induct .refl fun a _ _ hs => hs.trans (h a _)

theorem EmitsOnly.insertFacts (hfam : ∀ row ∈ rows, row.family ∈ families) (s : AnalysisState) :
    EmitsOnly bounds families s (s.insertFacts rows bounds) :=
  ⟨rows, hfam, rfl, rfl⟩

theorem EmitsOnly.insertFact (hfam : row.family ∈ families) (s : AnalysisState) :
    EmitsOnly bounds families s (s.insertFact row bounds) :=
  ⟨[row], fun _ hrow => by rwa [List.mem_singleton.1 hrow], rfl, rfl⟩

theorem EmitsOnly.insertMap {items : List α} {fact : α → FactRow}
    (hfam : ∀ a, (fact a).family ∈ families) (s : AnalysisState) :
    EmitsOnly bounds families s (s.insertFacts (items.map fact) bounds) := by
  refine .insertFacts (fun _ hrow => ?_) s
  obtain ⟨a, _, rfl⟩ := List.mem_map.1 hrow
  exact hfam a

theorem EmitsOnly.mono {families' : List Family} (h : EmitsOnly bounds families s s')
    (hsub : families ⊆ families') : EmitsOnly bounds families' s s' := by
  obtain ⟨rows, hfam, h⟩ := h
  exact ⟨rows, fun row hrow => hsub (hfam row hrow), h⟩

/-- The facts of the other families stay as they are. -/
theorem EmitsOnly.mem_facts_iff (h : EmitsOnly bounds families s s')
    (hrow : row.family ∉ families) : row ∈ s'.facts ↔ row ∈ s.facts := by
  obtain ⟨rows, hfam, h⟩ := h
  obtain ⟨hsub, hori⟩ := insertFacts_facts bounds rows s
  rw [h.facts]
  exact ⟨fun hmem => (hori row hmem).resolve_right fun hmem => hrow (hfam row hmem),
    fun hmem => hsub hmem⟩

/-- The other families lose no row. -/
theorem EmitsOnly.mem_exhausted_iff (h : EmitsOnly bounds families s s') (hf : f ∉ families) :
    f ∈ s'.outputExhaustedFamilies ↔ f ∈ s.outputExhaustedFamilies := by
  obtain ⟨rows, hfam, h⟩ := h
  rw [h.exhausted, mem_exhausted_insertFacts]
  refine or_iff_left ?_
  rintro ⟨before, row, after, rfl, rfl, _⟩
  exact hf (hfam row (by simp))

/-! ## The control-flow stage -/

section

variable {complete : Bool} {nodes : List CommonCfgNode} {edges : List CommonCfgEdge}
  {owner : String}

/-- The rows of the dominators, or post-dominators, of one node. -/
def dominanceRows (family : Family) (complete : Bool) (dominators : Dominators)
    (node : CommonCfgNode) : List FactRow :=
  (((dominators.strictDominators (.node node.nodeId)).getD []).filterMap CfgVertex.emitted).map
    fun dominator => cfgFact family node.nodeId dominator complete

/-- The nodes that an edge from `c` to `t` emits. -/
def dependents (post : Dominators) (nodeCount : Nat) (c t : String) : List String :=
  if (post.dominators (.node c)).any (CfgVertex.node t ∈ ·) then []
  else controlRun post (post.immediateDominator (.node c)) (nodeCount + 1) [] (some (.node t))

/-- The rows of the control dependences of one edge. -/
def controlRows (complete : Bool) (post : Dominators) (nodeCount : Nat) (edge : CommonCfgEdge) :
    List FactRow :=
  (dependents post nodeCount edge.sourceNodeId edge.targetNodeId).map
    (cfgFact .controlDependence · edge.sourceNodeId complete)

/-- The rows of an owner with one entry and an exit. -/
def graphRows (lib : Libraries) (complete : Bool) (nodes : List CommonCfgNode)
    (edges : List CommonCfgEdge) (graph : Digraph CfgVertex) : List FactRow :=
  let entry := (((nodes.filter (·.isEntry)).head?).map (·.nodeId)).getD ""
  let dominators := lib.simpleFast graph (.node entry)
  let post := lib.simpleFast (withVirtualExit graph (nodes.filter (·.isExit))).reversed .virtualExit
  nodes.flatMap (dominanceRows .dominator complete dominators) ++
    nodes.flatMap (dominanceRows .postDominator complete post) ++
    edges.flatMap (controlRows complete post nodes.length)

/-- The rows of an owner: none unless it has one entry and an exit. -/
def ownerRows (lib : Libraries) (complete : Bool) (nodes : List CommonCfgNode)
    (edges : List CommonCfgEdge) (owner : String) : List FactRow :=
  if Rooted (ownerNodes nodes owner) then
    match buildCfgGraph (ownerNodes nodes owner) (ownerEdges edges owner) with
    | .ok graph => graphRows lib complete (ownerNodes nodes owner) (ownerEdges edges owner) graph
    | .error _ => []
  else []

/-- The rows of all owners in turn. -/
def cfgRows (lib : Libraries) (input : CommonDerivedAnalysisInput) (edges : List CommonCfgEdge) :
    List FactRow :=
  (cfgOwners input.cfgNodes).flatMap (ownerRows lib (input.covers .cfg) input.cfgNodes edges)

theorem mem_cfgOwners : owner ∈ cfgOwners nodes ↔ owner ∈ nodes.map (·.ownerId) := by
  rw [cfgOwners, mem_inOrder, mem_toFinset]

theorem mem_cfgOwners_of_node {node : CommonCfgNode} (h : node ∈ ownerNodes nodes owner) :
    owner ∈ cfgOwners nodes := by
  rw [ownerNodes, mem_insertionSort, mem_filter] at h
  exact mem_cfgOwners.2 (List.mem_map.2 ⟨node, h.1, by simpa using h.2⟩)

/-- An owner with an entry has a node. -/
theorem mem_cfgOwners_of_rooted (h : Rooted (ownerNodes nodes owner)) :
    owner ∈ cfgOwners nodes := by
  obtain ⟨node, hn⟩ := exists_mem_of_length_pos (h.1.symm ▸ Nat.one_pos)
  exact mem_cfgOwners_of_node (mem_filter.1 hn).1

theorem ownerRows_of_build {graph : Digraph CfgVertex} (hr : Rooted (ownerNodes nodes owner))
    (hg : buildCfgGraph (ownerNodes nodes owner) (ownerEdges edges owner) = .ok graph) :
    ownerRows lib complete nodes edges owner =
      graphRows lib complete (ownerNodes nodes owner) (ownerEdges edges owner) graph := by
  rw [ownerRows, if_pos hr, hg]

theorem rooted_of_mem_ownerRows (h : row ∈ ownerRows lib complete nodes edges owner) :
    Rooted (ownerNodes nodes owner) := by
  by_contra hno
  rw [ownerRows, if_neg hno] at h
  exact absurd h not_mem_nil

theorem emits_deriveDominance (family : Family) (gap owner : String) (dominators : Dominators)
    (node : CommonCfgNode) (s : AnalysisState) :
    Emits bounds (dominanceRows family complete dominators node) s
      (deriveDominance family gap owner complete dominators bounds node s) := by
  unfold deriveDominance dominanceRows
  cases dominators.strictDominators (.node node.nodeId) <;> exact ⟨rfl, rfl⟩

theorem emits_deriveControl (post : Dominators) (nodeCount : Nat) (edge : CommonCfgEdge)
    (s : AnalysisState) : Emits bounds (controlRows complete post nodeCount edge) s
      (deriveControl complete post nodeCount bounds edge s) := ⟨rfl, rfl⟩

/-- An owner emits its rows. -/
theorem emits_deriveOwner (h : deriveOwner lib complete nodes edges bounds s owner = .ok s') :
    Emits bounds (ownerRows lib complete nodes edges owner) s s' := by
  by_cases hr : Rooted (ownerNodes nodes owner)
  · unfold deriveOwner at h
    simp only [hr, not_true_eq_false, if_false, ok_iff] at h
    obtain ⟨graph, hg, rfl⟩ := h
    rw [ownerRows_of_build hr hg]
    exact ((Emits.forEach (fun node _ s => emits_deriveDominance _ _ _ _ node s) s).trans
      (.forEach (fun node _ s => emits_deriveDominance _ _ _ _ node s) _)).trans
        (.forEach (fun edge _ s => emits_deriveControl _ _ edge s) _)
  · obtain ⟨_, rfl⟩ | ⟨hrt, _⟩ := deriveOwner_eq_ok h
    · rw [ownerRows, if_neg hr]
      exact ⟨by simp [unrootedState, adjust, insertFacts],
        by simp [unrootedState, adjust, insertFacts]⟩
    · exact absurd hrt hr

theorem emits_requestCfg (s : AnalysisState) : Emits bounds [] s (requestCfg input edges s) :=
  ⟨by simp [requestCfg, adjust, insertFacts], by simp [requestCfg, adjust, insertFacts]⟩

/-- The control-flow stage emits the rows of the owners, or nothing from a graph over a bound. -/
theorem emits_deriveCfgFamilies (h : deriveCfgFamilies lib input edges bounds s = .ok s') :
    (CfgExceeds input edges bounds ∧ Emits bounds [] s s') ∨
      (¬CfgExceeds input edges bounds ∧ Emits bounds (cfgRows lib input edges) s s') := by
  obtain ⟨hexc, _, rfl⟩ | ⟨hwi, h⟩ := deriveCfgFamilies_eq_ok h
  · have hreq : Emits bounds [] s (requestCfg input edges s) := emits_requestCfg s
    exact .inl ⟨hexc, hreq.trans ⟨by simp [insertFacts], by simp [insertFacts]⟩⟩
  · have hown : Emits bounds (cfgRows lib input edges) (requestCfg input edges s) s' :=
      Emits.foldlM (fun _ _ _ hst => emits_deriveOwner hst) h
    exact .inr ⟨hwi, (emits_requestCfg s).trans hown⟩

theorem family_of_mem_dominanceRows {family : Family} {dominators : Dominators}
    {node : CommonCfgNode} (h : row ∈ dominanceRows family complete dominators node) :
    row.family = family := by
  obtain ⟨_, _, rfl⟩ := List.mem_map.1 h
  rfl

theorem family_of_mem_controlRows {post : Dominators} {nodeCount : Nat} {edge : CommonCfgEdge}
    (h : row ∈ controlRows complete post nodeCount edge) : row.family = .controlDependence := by
  obtain ⟨_, _, rfl⟩ := List.mem_map.1 h
  rfl

theorem family_of_mem_cfgRows (h : row ∈ cfgRows lib input edges) : row.family ∈ cfgFamilies := by
  obtain ⟨owner, _, h⟩ := List.mem_flatMap.1 h
  unfold ownerRows at h
  split at h
  · split at h
    · simp only [graphRows, mem_append, mem_flatMap] at h
      obtain (⟨_, _, h⟩ | ⟨_, _, h⟩) | ⟨_, _, h⟩ := h
      · rw [family_of_mem_dominanceRows h]
        decide
      · rw [family_of_mem_dominanceRows h]
        decide
      · rw [family_of_mem_controlRows h]
        decide
    · exact absurd h not_mem_nil
  · exact absurd h not_mem_nil

theorem emitsOnly_deriveCfgFamilies (h : deriveCfgFamilies lib input edges bounds s = .ok s') :
    EmitsOnly bounds cfgFamilies s s' := by
  obtain ⟨_, h⟩ | ⟨_, h⟩ := emits_deriveCfgFamilies h
  · exact h.only
  · exact ⟨_, fun _ => family_of_mem_cfgRows, h⟩

/-- The bound on output rows leaves out a row of a family: as many different rows as it allows come
before one. -/
def LeavesOut (bounds : CommonAnalysisBounds) (rows : List FactRow) (f : Family) : Prop :=
  ∃ before row after, rows = before ++ row :: after ∧ row.family = f ∧
    (bounds.maxOutputRows : Nat) ≤ before.toFinset.card

/-- The edges of an input as they come back from staging, each of them once. -/
def stagedEdges (lib : Libraries) (input : CommonDerivedAnalysisInput) : List CommonCfgEdge :=
  match splitStage (lib.distinctSorted (stageRows input)) with
  | .ok triples => triples.cfg
  | .error _ => []

theorem Emits.mem_exhausted_iff (h : Emits bounds rows .initial s) :
    f ∈ s.outputExhaustedFamilies ↔ LeavesOut bounds rows f := by
  rw [h.exhausted, mem_exhausted_insertFacts]
  simp [initial, LeavesOut]

/-- The rows of a family that loses none are facts. -/
theorem Emits.mem_facts_iff (h : Emits bounds rows .initial s)
    (hout : ¬LeavesOut bounds rows row.family) : row ∈ s.facts ↔ row ∈ rows := by
  obtain ⟨_, hori⟩ := insertFacts_facts bounds rows .initial
  obtain ⟨_, hk⟩ := insertFacts_kept bounds rows .initial
  rw [← h.mem_exhausted_iff, h.exhausted] at hout
  rw [h.facts]
  exact ⟨fun hmem => (hori row hmem).resolve_left (Finset.notMem_empty _),
    fun hmem => (hk row hmem).resolve_right hout⟩

theorem emitsOnly_deriveDataDependence (rows : List CommonDefUse) (s : AnalysisState) :
    EmitsOnly bounds [.dataDependence] s (deriveDataDependence input rows bounds s) :=
  (EmitsOnly.refl.adjust .dataDependence _).trans (.insertMap
    (fun _ => (by decide : Family.dataDependence ∈ [Family.dataDependence])) _)

end

/-! ## The call stage -/

section

variable {exactCalls : List ExactCall} {components schedule : List (List String)}
  {callers : String → Finset String}

theorem emitsOnly_emitReachable (callables : Finset String) (adjacent : String → Finset String)
    (complete : Bool) (root : String) (current : PairCount × AnalysisState) :
    EmitsOnly bounds (.callGraph :: topologyFamilies) current.2
      (emitReachable callables adjacent complete bounds root current).2 := by
  unfold emitReachable
  dsimp only
  split
  · exact Emits.only ⟨rfl, rfl⟩
  split
  · exact Emits.only ⟨rfl, rfl⟩
  · refine EmitsOnly.adjust (.insertMap (fun _ => ?_) _) _ _
    exact (by decide : Family.reachability ∈ .callGraph :: topologyFamilies)

/-- The topology stage emits rows of the call graph, the components and reachability. -/
theorem emitsOnly_deriveTopology (s : AnalysisState) :
    EmitsOnly bounds (.callGraph :: topologyFamilies) s
      (deriveTopology lib input exactCalls components bounds s) := by
  have hcalls : ∀ call s, EmitsOnly bounds (.callGraph :: topologyFamilies) s
      (emitCall bounds call s) := fun call s =>
    EmitsOnly.adjust (.insertFact
      (by decide : Family.callGraph ∈ .callGraph :: topologyFamilies) s) _ _
  have hgaps : ∀ call s, EmitsOnly bounds (.callGraph :: topologyFamilies) s
      (emitCallGap call s) := by
    intro call s
    unfold emitCallGap
    split
    · exact .refl
    · exact Emits.only ⟨by simp [adjust, unknown, insertFacts],
        by simp [adjust, unknown, insertFacts]⟩
  have hmembers : ∀ adjacent complete component callable s,
      EmitsOnly bounds (.callGraph :: topologyFamilies) s
        (emitMember lib adjacent complete bounds component callable s) := by
    intro adjacent complete component callable s
    have hrec : EmitsOnly bounds (.callGraph :: topologyFamilies) s
        (recordMember (componentIdentity lib component) complete bounds callable s) :=
      EmitsOnly.adjust (.insertFact
        (by decide : Family.sccMembership ∈ .callGraph :: topologyFamilies) s) _ _
    unfold emitMember
    dsimp only
    split
    · exact hrec.trans (Emits.only ⟨by simp [insertFacts], by simp [insertFacts]⟩)
    · exact hrec
  have hreach : ∀ callables adjacent complete s,
      EmitsOnly bounds (.callGraph :: topologyFamilies) s
        (deriveReachability callables adjacent complete bounds s) :=
    fun callables adjacent complete s =>
      forEach_induct (P := fun current : PairCount × AnalysisState =>
        EmitsOnly bounds (.callGraph :: topologyFamilies) s current.2) .refl
        fun root _ current hs => hs.trans (emitsOnly_emitReachable _ _ _ root current)
  exact (((EmitsOnly.forEach hcalls s).trans (.forEach hgaps _)).trans
    (.forEach (fun component s => .forEach (hmembers _ _ component) s) _)).trans (hreach _ _ _ _)

theorem emits_seedGaps (callables : List String) (s : AnalysisState) :
    Emits bounds [] s (forEach callables (emitSeedGap input bounds) s) := by
  refine forEach_induct (P := Emits bounds [] s) ⟨rfl, rfl⟩ fun callable _ s hs => hs.trans ?_
  unfold emitSeedGap
  dsimp only
  split
  · split
    · exact ⟨by simp [insertFacts], by simp [insertFacts]⟩
    · exact ⟨rfl, rfl⟩
  · exact ⟨by simp [insertFacts], by simp [insertFacts]⟩

theorem emits_propagateRounds (calls : List (String × String)) (remaining iteration : Nat)
    (summaries : Summaries) (s : AnalysisState) :
    Emits bounds [] s (propagateRounds bounds calls remaining iteration summaries s).2.2 := by
  induction remaining generalizing iteration summaries s with
  | zero => exact ⟨rfl, rfl⟩
  | succ remaining ih =>
    have hr : Emits bounds [] s (forEach calls (propagateCall bounds iteration summaries)
        ⟨summaries, false, { s with iterations := iteration }⟩).state := by
      refine forEach_induct (P := fun round : Round => Emits bounds [] s round.state) ⟨rfl, rfl⟩
        fun call _ round hr => hr.trans ?_
      unfold propagateCall
      dsimp only
      split
      · exact ⟨by simp [insertFacts], by simp [insertFacts]⟩
      · exact ⟨rfl, rfl⟩
    rw [propagateRounds]
    split
    · exact hr.trans (ih _ _ _)
    · exact hr

/-- Propagating the summaries emits no facts. -/
theorem emits_deriveSummaries (s : AnalysisState) : Emits bounds [] s
    (deriveSummaries input exactCalls components schedule bounds s).2 := by
  have hp : Emits bounds [] s (propagateSummaries schedule (adjacency exactCalls) bounds
      (seedSummaries input bounds (adjacency exactCalls) components) s).2.2 := by
    unfold propagateSummaries
    split
    · exact ⟨rfl, rfl⟩
    · exact emits_propagateRounds _ _ _ _ s
  unfold deriveSummaries
  dsimp only
  split
  · refine forEach_induct (P := Emits bounds [] s) hp fun _ _ s' hs' => hs'.trans ?_
    exact ⟨by simp [emitConvergenceGap, insertFacts], by simp [emitConvergenceGap, insertFacts]⟩
  · exact hp

theorem emitsOnly_emitCallableSummary (summaries : Summaries) (callable : String)
    (s : AnalysisState) : EmitsOnly bounds summaryFamilies s
      (emitCallableSummary lib summaries bounds callable s) := by
  have hgap : EmitsOnly bounds summaryFamilies s (if callable ∈ summaries.incomplete then
      s.unknownAll summaryFamilies (some callable) "TRANSITIVE_SUMMARY_INCOMPLETE" none s.iterations
    else s) := by
    split
    · exact Emits.only ⟨by simp [insertFacts], by simp [insertFacts]⟩
    · exact .refl
  refine (hgap.trans (.insertFacts (fun row hrow => ?_) _)).trans
    (Emits.only ⟨facts_adjustAll _ _ _, exhausted_adjustAll _ _ _⟩)
  simp only [summaryFacts, mem_append, mem_map, mem_singleton] at hrow
  obtain (⟨_, _, rfl⟩ | ⟨_, _, rfl⟩) | rfl := hrow <;> simp [summaryFact, summaryFamilies]

theorem emits_exhaustCalls (s : AnalysisState) :
    Emits bounds [] s (exhaustCalls input bounds (requestCalls input s)) :=
  ⟨by simp [exhaustCalls, requestCalls, adjust, insertFacts],
    by simp [exhaustCalls, requestCalls, adjust, insertFacts]⟩

/-- The call stage emits rows of the call families. -/
theorem emitsOnly_deriveCallFamilies
    (h : deriveCallFamilies lib input exactCalls bounds s = .ok (s', callers)) :
    EmitsOnly bounds callFamilies s s' := by
  obtain ⟨_, rfl, _⟩ | ⟨_, _, _, _, summaries, topology, _, _, htop, hsm, rfl⟩ :=
    deriveCallFamilies_eq_ok h
  · exact (emits_exhaustCalls s).only
  · have hreq : EmitsOnly bounds callFamilies s (requestCalls input s) := Emits.only
      ⟨by simp [requestCalls, adjust, insertFacts], by simp [requestCalls, adjust, insertFacts]⟩
    have htp : EmitsOnly bounds callFamilies (requestCalls input s) topology := by
      rw [htop]
      exact ((emitsOnly_deriveTopology _).mono (subset_append_left _ _)).trans
        (emits_seedGaps _ _).only
    have hsum : EmitsOnly bounds callFamilies topology summaries.2 := by
      rw [hsm]
      exact (emits_deriveSummaries topology).only
    have hsub : summaryFamilies ⊆ callFamilies := fun _ h =>
      mem_cons_of_mem _ (mem_append_right _ h)
    exact ((hreq.trans htp).trans hsum).trans (.forEach (fun callable s =>
      (emitsOnly_emitCallableSummary _ callable s).mono hsub) _)

end

end CodeFabric.Derived
