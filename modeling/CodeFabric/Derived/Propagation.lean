import CodeFabric.Derived.CallGraph
import CodeFabric.Derived.Accounting

/-! # Propagation of summaries

The fixed point of effects and resources: what a round adds, and what holds when no round is left
that changes anything.

**`SummaryKind`**: effects and resources are propagated alike, so results are stated for a kind. -/

namespace CodeFabric.Derived

open Fallible Worklist AnalysisState List Function

/-! ## Kinds of values -/

inductive SummaryKind
  | effect | resource
  deriving DecidableEq, Repr

def SummaryKind.family : SummaryKind → Family
  | .effect => .callableEffect
  | .resource => .callableResource

def Summaries.values (summaries : Summaries) : SummaryKind → String → Finset String
  | .effect => summaries.effects
  | .resource => summaries.resources

def CommonCallableLocalSemantics.values (semantics : CommonCallableLocalSemantics) :
    SummaryKind → Finset String
  | .effect => semantics.effects
  | .resource => semantics.resources

/-- No summary holds more values than the bound. -/
def Summaries.Bounded (bound : Nat) (summaries : Summaries) : Prop :=
  ∀ kind callable, (summaries.values kind callable).card ≤ bound

/-! ## Absorbing -/

section

variable {bound : Nat} {values summary : Finset String}

/-- What absorbing values does to a summary. -/
structure Absorbs (bound : Nat) (values : List String) (before after : Absorbed) : Prop where
  grows : before.summary ⊆ after.summary
  origin : ∀ v ∈ after.summary, v ∈ before.summary ∨ v ∈ values
  bounded : before.summary.card ≤ bound → after.summary.card ≤ bound
  hit : before.boundHit = true → after.boundHit = true
  taken : after.boundHit = false → ∀ v ∈ values, v ∈ after.summary
  changes : before.changed = true → after.changed = true
  kept : after.changed = false → after.summary = before.summary

theorem absorbs_foldl (bound : Nat) (values : List String) (before : Absorbed) :
    Absorbs bound values before (values.foldl (Absorbed.add bound) before) := by
  induction values generalizing before with
  | nil =>
    exact ⟨Finset.Subset.refl _, fun _ => .inl, id, id, nofun, id, fun _ => rfl⟩
  | cons value values ih =>
    have hrs := ih (before.add bound value)
    rw [foldl_cons]
    unfold Absorbed.add at hrs ⊢
    -- the value is there, is kept out, or is added
    split at hrs
    · rename_i hmem
      rw [if_pos hmem]
      exact ⟨hrs.grows, fun v hv => (hrs.origin v hv).imp_right (mem_cons_of_mem _),
        hrs.bounded, hrs.hit, fun hhit v hv => (List.mem_cons.1 hv).elim
          (fun h => h ▸ hrs.grows hmem) (hrs.taken hhit v), hrs.changes, hrs.kept⟩
    · rename_i hmem
      rw [if_neg hmem]
      split at hrs
      · rename_i hf
        rw [if_pos hf]
        exact ⟨hrs.grows, fun v hv => (hrs.origin v hv).imp_right (mem_cons_of_mem _),
          hrs.bounded, fun _ => hrs.hit rfl,
          fun hhit => absurd (hrs.hit rfl) (by simp [hhit]), hrs.changes, hrs.kept⟩
      · rename_i hrm
        rw [if_neg hrm]
        refine ⟨fun v hv => hrs.grows (Finset.mem_insert_of_mem hv), fun v hv => ?_,
          fun hcr => hrs.bounded ?_, hrs.hit, fun hhit v hv => ?_,
          fun _ => hrs.changes rfl, fun hchg => absurd (hrs.changes rfl) (by simp [hchg])⟩
        · obtain hv | hv := hrs.origin v hv
          · obtain rfl | hv := Finset.mem_insert.1 hv
            · exact .inr mem_cons_self
            · exact .inl hv
          · exact .inr (mem_cons_of_mem _ hv)
        · rw [Finset.card_insert_of_notMem hmem]
          exact Nat.lt_of_le_of_ne hcr hrm
        · obtain rfl | hv := List.mem_cons.1 hv
          · exact hrs.grows (Finset.mem_insert_self _ _)
          · exact hrs.taken hhit v hv

theorem absorbs_absorb (hvs : values.card ≤ bound) :
    Absorbs bound (inOrder values) ⟨summary, false, false⟩ (absorb bound values summary) := by
  have ht : (inOrder values).take bound = inOrder values :=
    take_of_length_le (by rwa [length_inOrder])
  rw [absorb, ht]
  exact absorbs_foldl bound _ _

end

/-! ## One round -/

def boundReasons : List String :=
  ["CALL_GRAPH_RESOURCE_BOUND_EXHAUSTED", "SUMMARY_VALUE_BOUND_EXHAUSTED",
    "FIXED_POINT_CONVERGENCE_EXHAUSTED", "OUTPUT_ROW_BOUND_EXHAUSTED"]

/-- A bound is on record in a summary family. -/
def BoundHit (s : AnalysisState) : Prop :=
  ∃ row ∈ s.unknowns, row.family ∈ summaryFamilies ∧ row.reason ∈ boundReasons

theorem BoundHit.mono {s s' : AnalysisState} (h : BoundHit s) (hrw : s.unknowns ⊆ s'.unknowns) :
    BoundHit s' :=
  let ⟨row, hrow, hrs⟩ := h
  ⟨row, hrw hrow, hrs⟩

/-- What propagating calls does, given the summaries before the round. -/
structure Propagates (bound : Nat) (prior : Summaries) (calls : List (String × String))
    (start result : Round) : Prop where
  grows : ∀ kind callable,
    start.summaries.values kind callable ⊆ result.summaries.values kind callable
  origin : ∀ kind callable, ∀ v ∈ result.summaries.values kind callable,
    v ∈ start.summaries.values kind callable ∨
      ∃ callee, (callable, callee) ∈ calls ∧ v ∈ prior.values kind callee
  bounded : start.summaries.Bounded bound → result.summaries.Bounded bound
  incomplete : start.summaries.incomplete ⊆ result.summaries.incomplete
  incomplete_origin : ∀ callable ∈ result.summaries.incomplete,
    callable ∈ start.summaries.incomplete ∨ ∃ callee, (callable, callee) ∈ calls ∧
      (callee ∈ prior.incomplete ∨ BoundHit result.state)
  unknowns : start.state.unknowns ⊆ result.state.unknowns
  taken : ∀ call ∈ calls, ∀ kind, prior.values kind call.2 ⊆ result.summaries.values kind call.1 ∨
      (call.1 ∈ result.summaries.incomplete ∧ BoundHit result.state)
  changes : start.changed = true → result.changed = true
  kept : result.changed = false → result.summaries.incomplete = start.summaries.incomplete ∧
    ∀ kind callable, result.summaries.values kind callable = start.summaries.values kind callable

section

variable {bound : Nat} {bounds : CommonAnalysisBounds} {prior : Summaries}
  {calls calls' : List (String × String)} {first second third : Round}

theorem Propagates.refl (round : Round) : Propagates bound prior [] round round where
  grows _ _ := Finset.Subset.refl _
  origin _ _ _ := .inl
  bounded := id
  incomplete := Finset.Subset.refl _
  incomplete_origin _ := .inl
  unknowns := Finset.Subset.refl _
  taken _ h := absurd h not_mem_nil
  changes := id
  kept _ := ⟨rfl, fun _ _ => rfl⟩

theorem Propagates.trans (h : Propagates bound prior calls first second)
    (h' : Propagates bound prior calls' second third) :
    Propagates bound prior (calls ++ calls') first third where
  grows kind callable := (h.grows kind callable).trans (h'.grows kind callable)
  origin kind callable v hv := by
    obtain hv | ⟨callee, hcl, hv⟩ := h'.origin kind callable v hv
    · refine (h.origin kind callable v hv).imp_right ?_
      rintro ⟨callee, hcl, hv⟩
      exact ⟨callee, mem_append_left _ hcl, hv⟩
    · exact .inr ⟨callee, mem_append_right _ hcl, hv⟩
  bounded hbd := h'.bounded (h.bounded hbd)
  incomplete := h.incomplete.trans h'.incomplete
  incomplete_origin callable hcal := by
    obtain hcal | ⟨callee, hcl, hcs⟩ := h'.incomplete_origin callable hcal
    · refine (h.incomplete_origin callable hcal).imp_right ?_
      rintro ⟨callee, hcl, hcs⟩
      exact ⟨callee, mem_append_left _ hcl, hcs.imp_right fun hhit => hhit.mono h'.unknowns⟩
    · exact .inr ⟨callee, mem_append_right _ hcl, hcs⟩
  unknowns := h.unknowns.trans h'.unknowns
  taken call hcl kind := by
    obtain hcl | hcl := List.mem_append.1 hcl
    · exact (h.taken call hcl kind).imp (fun hsub => hsub.trans (h'.grows kind call.1))
        fun ⟨hmem, hhit⟩ => ⟨h'.incomplete hmem, hhit.mono h'.unknowns⟩
    · exact h'.taken call hcl kind
  changes hchg := h'.changes (h.changes hchg)
  kept hchg := by
    obtain ⟨hinc, hvs⟩ := h'.kept hchg
    have hsnd : second.changed = false := by
      by_contra hsnd
      exact absurd (h'.changes (by simpa using hsnd)) (by simp [hchg])
    obtain ⟨hinc', hvs'⟩ := h.kept hsnd
    exact ⟨hinc.trans hinc', fun kind callable => (hvs kind callable).trans (hvs' kind callable)⟩

/-- Whether propagating one call finds a full summary. -/
def propagationHit (bounds : CommonAnalysisBounds) (prior : Summaries) (call : String × String)
    (round : Round) : Bool :=
  (absorb bounds.maxSummaryValues (prior.effects call.2)
      (round.summaries.effects call.1)).boundHit ||
    (absorb bounds.maxSummaryValues (prior.resources call.2)
      (round.summaries.resources call.1)).boundHit

/-- What the caller's values of one kind become in one call. -/
abbrev absorbed (bounds : CommonAnalysisBounds) (prior : Summaries) (call : String × String)
    (round : Round) (kind : SummaryKind) :=
  absorb bounds.maxSummaryValues (prior.values kind call.2) (round.summaries.values kind call.1)

variable (iteration : Nat) (call : String × String) (round : Round)

theorem values_propagateCall (kind : SummaryKind) :
    (propagateCall bounds iteration prior call round).summaries.values kind = update
      (round.summaries.values kind) call.1 (absorbed bounds prior call round kind).summary := by
  cases kind <;> rfl

theorem incomplete_propagateCall :
    (propagateCall bounds iteration prior call round).summaries.incomplete =
      if propagationHit bounds prior call round ∨ call.2 ∈ prior.incomplete
        then insert call.1 round.summaries.incomplete else round.summaries.incomplete := rfl

theorem state_propagateCall : ∃ detail, (propagateCall bounds iteration prior call round).state =
      if propagationHit bounds prior call round then
        round.state.unknownAll summaryFamilies (some call.1) "SUMMARY_VALUE_BOUND_EXHAUSTED"
          detail iteration
      else round.state := ⟨_, rfl⟩

variable {iteration call round}

theorem hit_of_kind (kind : SummaryKind)
    (h : (absorbed bounds prior call round kind).boundHit = true) :
    propagationHit bounds prior call round = true := by
  cases kind with
  | effect => exact Bool.or_eq_true_iff.2 (.inl h)
  | resource => exact Bool.or_eq_true_iff.2 (.inr h)

theorem boundHit_propagateCall (h : propagationHit bounds prior call round = true) :
    call.1 ∈ (propagateCall bounds iteration prior call round).summaries.incomplete ∧
      BoundHit (propagateCall bounds iteration prior call round).state := by
  obtain ⟨_, hst⟩ := @state_propagateCall bounds prior iteration call round
  rw [incomplete_propagateCall, hst, if_pos (.inl h), if_pos h]
  exact ⟨Finset.mem_insert_self _ _, _, mem_unknownAll.2 (.inr ⟨.callableSummary, by decide, rfl⟩),
    by simp [summaryFamilies], by simp [boundReasons]⟩

theorem changed_propagateCall :
    (propagateCall bounds iteration prior call round).changed = false ↔ round.changed = false ∧
        (∀ kind, (absorbed bounds prior call round kind).changed = false) ∧
        ((propagationHit bounds prior call round ∨ call.2 ∈ prior.incomplete) →
          call.1 ∈ round.summaries.incomplete) := by
  have hchg : (propagateCall bounds iteration prior call round).changed =
      (round.changed || (absorbed bounds prior call round .effect).changed ||
        (absorbed bounds prior call round .resource).changed ||
        decide ((propagationHit bounds prior call round ∨ call.2 ∈ prior.incomplete) ∧
          call.1 ∉ round.summaries.incomplete)) := rfl
  have hk : (∀ kind, (absorbed bounds prior call round kind).changed = false) ↔
      (absorbed bounds prior call round .effect).changed = false ∧
        (absorbed bounds prior call round .resource).changed = false :=
    ⟨fun h => ⟨h .effect, h .resource⟩, fun h kind => by
      cases kind with
      | effect => exact h.1
      | resource => exact h.2⟩
  rw [hchg, hk, Bool.or_eq_false_iff, Bool.or_eq_false_iff, Bool.or_eq_false_iff,
    decide_eq_false_iff_not, not_and_not_right]
  simp only [and_assoc]

theorem propagates_propagateCall (hprior : prior.Bounded bounds.maxSummaryValues) (iteration : Nat)
    (call : String × String) (round : Round) : Propagates bounds.maxSummaryValues prior [call] round
      (propagateCall bounds iteration prior call round) := by
  -- only the caller's values change, and they absorb those of the callee
  have habsorb : ∀ kind, Absorbs bounds.maxSummaryValues (inOrder (prior.values kind call.2))
      ⟨round.summaries.values kind call.1, false, false⟩ (absorbed bounds prior call round kind) :=
    fun kind => absorbs_absorb (hprior kind call.2)
  constructor
  case grows =>
    intro kind callable
    rw [values_propagateCall]
    by_cases hclr : callable = call.1
    · subst hclr
      rw [update_self]
      exact (habsorb kind).grows
    · rw [update_of_ne hclr]
  case origin =>
    intro kind callable v hv
    rw [values_propagateCall] at hv
    by_cases hclr : callable = call.1
    · subst hclr
      rw [update_self] at hv
      refine ((habsorb kind).origin v hv).imp_right fun hv => ⟨call.2, ?_, mem_inOrder.1 hv⟩
      exact List.mem_singleton.2 rfl
    · rw [update_of_ne hclr] at hv
      exact .inl hv
  case bounded =>
    intro hbd kind callable
    rw [values_propagateCall]
    by_cases hclr : callable = call.1
    · subst hclr
      rw [update_self]
      exact (habsorb kind).bounded (hbd kind call.1)
    · rw [update_of_ne hclr]
      exact hbd kind callable
  case incomplete =>
    rw [incomplete_propagateCall]
    split
    · exact Finset.subset_insert _ _
    · exact Finset.Subset.refl _
  case incomplete_origin =>
    intro callable hcal
    rw [incomplete_propagateCall] at hcal
    split at hcal
    · rename_i hcause
      obtain rfl | hcal := Finset.mem_insert.1 hcal
      · exact .inr ⟨call.2, List.mem_singleton.2 rfl,
          hcause.symm.imp_right fun hhit => (boundHit_propagateCall hhit).2⟩
      · exact .inl hcal
    · exact .inl hcal
  case unknowns =>
    obtain ⟨_, hst⟩ := @state_propagateCall bounds prior iteration call round
    rw [hst]
    split
    · exact fun _ hrow => mem_unknownAll.2 (.inl hrow)
    · exact Finset.Subset.refl _
  -- a value that was not taken left a bound hit on record
  case taken =>
    intro call' hcall kind
    obtain rfl := List.mem_singleton.1 hcall
    by_cases hhit : propagationHit bounds prior call' round = true
    · exact .inr (boundHit_propagateCall hhit)
    · left
      intro v hv
      rw [values_propagateCall, update_self]
      refine (habsorb kind).taken ?_ v (mem_inOrder.2 hv)
      exact Bool.eq_false_iff.2 fun hkind => hhit (hit_of_kind kind hkind)
  case changes =>
    intro hchg
    by_contra hres
    have hfalse := (changed_propagateCall.1 (Bool.eq_false_iff.2 hres)).1
    rw [hchg] at hfalse
    cases hfalse
  case kept =>
    intro hchg
    obtain ⟨_, hkinds, hinc⟩ := changed_propagateCall.1 hchg
    constructor
    · rw [incomplete_propagateCall]
      split
      · rename_i hcause
        exact Finset.insert_eq_of_mem (hinc hcause)
      · rfl
    · intro kind callable
      rw [values_propagateCall]
      by_cases hclr : callable = call.1
      · subst hclr
        rw [update_self]
        exact (habsorb kind).kept (hkinds kind)
      · rw [update_of_ne hclr]

theorem propagates_round (hp : prior.Bounded bounds.maxSummaryValues) (iteration : Nat)
    (calls : List (String × String)) (round : Round) :
    Propagates bounds.maxSummaryValues prior calls round
      (forEach calls (propagateCall bounds iteration prior) round) := by
  induction calls generalizing round with
  | nil => exact Propagates.refl round
  | cons call calls ih =>
    exact (propagates_propagateCall hp iteration call round).trans (ih _)

end

/-! ## All rounds -/

/-- One call of a list leads from a caller to a callee. -/
def Listed (calls : List (String × String)) (caller callee : String) : Prop :=
  (caller, callee) ∈ calls

/-- What the rounds together do to the summaries they start with. -/
structure Converges (bound : Nat) (calls : List (String × String)) (start : Summaries)
    (s : AnalysisState) (exhausted : Bool) (result : Summaries) (s' : AnalysisState) : Prop where
  grows : ∀ kind callable, start.values kind callable ⊆ result.values kind callable
  origin : ∀ kind callable, ∀ v ∈ result.values kind callable,
    v ∈ gathered (Listed calls) (fun d => (start.values kind d : Set String)) callable
  bounded : result.Bounded bound
  incomplete : start.incomplete ⊆ result.incomplete
  incomplete_origin : ∀ callable ∈ result.incomplete,
    (∃ d ∈ start.incomplete, Relation.ReflTransGen (Listed calls) callable d) ∨
      ((∃ callee, Listed calls callable callee) ∧ BoundHit s')
  unknowns : s.unknowns ⊆ s'.unknowns
  taken : exhausted = false → ∀ call ∈ calls, ∀ kind,
    result.values kind call.2 ⊆ result.values kind call.1 ∨
      (call.1 ∈ result.incomplete ∧ BoundHit s')

theorem converges_propagateRounds {bounds : CommonAnalysisBounds} {calls : List (String × String)}
    (remaining iteration : Nat) {summaries : Summaries}
    (hbd : summaries.Bounded bounds.maxSummaryValues) (s : AnalysisState) :
    Converges bounds.maxSummaryValues calls summaries s
      (propagateRounds bounds calls remaining iteration summaries s).1
      (propagateRounds bounds calls remaining iteration summaries s).2.1
      (propagateRounds bounds calls remaining iteration summaries s).2.2 := by
  induction remaining generalizing iteration summaries s with
  | zero =>
    exact ⟨fun _ _ => Finset.Subset.refl _, fun kind callable v hv => ⟨callable, .refl, hv⟩,
      hbd, Finset.Subset.refl _, fun callable hcal => .inl ⟨callable, hcal, .refl⟩,
      Finset.Subset.refl _, nofun⟩
  | succ remaining ih =>
    have hrn := propagates_round hbd iteration calls
      ⟨summaries, false, { s with iterations := iteration }⟩
    rw [propagateRounds]
    generalize forEach calls (propagateCall bounds iteration summaries)
      ⟨summaries, false, { s with iterations := iteration }⟩ = round at hrn ⊢
    -- a round takes in what callees held before it
    have hori : ∀ kind callable, ∀ v ∈ round.summaries.values kind callable,
        v ∈ gathered (Listed calls) (fun d => (summaries.values kind d : Set String)) callable := by
      intro kind callable v hv
      obtain hv | ⟨callee, hcl, hv⟩ := hrn.origin kind callable v hv
      · exact ⟨callable, .refl, hv⟩
      · exact ⟨callee, .single hcl, hv⟩
    split
    · have hrs := ih (iteration + 1) (hrn.bounded hbd) round.state
      refine ⟨fun kind callable => (hrn.grows kind callable).trans (hrs.grows kind callable),
        fun kind callable v hv => ?_, hrs.bounded, hrn.incomplete.trans hrs.incomplete,
        fun callable hcal => ?_, hrn.unknowns.trans hrs.unknowns, hrs.taken⟩
      · obtain ⟨d, hpt, hv⟩ := hrs.origin kind callable v hv
        obtain ⟨e, hp', hv⟩ := hori kind d v hv
        exact ⟨e, hpt.trans hp', hv⟩
      · obtain ⟨d, hd, hpt⟩ | hhit := hrs.incomplete_origin callable hcal
        · obtain hd | ⟨callee, hcl, hcle | hhit⟩ := hrn.incomplete_origin d hd
          · exact .inl ⟨d, hd, hpt⟩
          · exact .inl ⟨callee, hcle, hpt.tail hcl⟩
          · obtain ⟨next, hfst, _⟩ := Relation.TransGen.head'_iff.1 (.tail' hpt hcl)
            exact .inr ⟨⟨next, hfst⟩, hhit.mono hrs.unknowns⟩
        · exact .inr hhit
    · rename_i hchg
      obtain ⟨hinc, hvs⟩ := hrn.kept (Bool.eq_false_iff.2 hchg)
      refine ⟨hrn.grows, hori, hrn.bounded hbd, hrn.incomplete,
        fun callable hcal => ?_, hrn.unknowns, fun _ call hcl kind => ?_⟩
      · rw [hinc] at hcal
        exact .inl ⟨callable, hcal, .refl⟩
      · rw [hvs kind call.2]
        exact hrn.taken call hcl kind

/-! ## The summaries of an input -/

section

variable {lib : Libraries} {input : CommonDerivedAnalysisInput} {bounds : CommonAnalysisBounds}
  {exactCalls : List ExactCall} {graph : Digraph String} {schedule : List (List String)}
  {s : AnalysisState} {callable : String} {components : List (List String)}
  {adjacent : String → Finset String}

def localValues (input : CommonDerivedAnalysisInput) (kind : SummaryKind) (callable : String) :
    Set String :=
  {v | ∃ semantics ∈ input.localSemantics, semantics.callableId = callable ∧
    v ∈ semantics.values kind}

/-- The local values of all callables a callable reaches by exact calls, itself included. -/
def reachableValues (input : CommonDerivedAnalysisInput) (kind : SummaryKind) (callable : String) :
    Set String :=
  gathered (Calls input) (localValues input kind) callable

theorem Accepted.local_eq_some (h : Accepted input) {semantics : CommonCallableLocalSemantics} :
    input.local callable = some semantics ↔
      semantics ∈ input.localSemantics ∧ semantics.callableId = callable := by
  constructor
  · intro hf
    exact ⟨mem_of_find?_eq_some hf, by simpa using find?_some hf⟩
  · rintro ⟨hmem, rfl⟩
    cases hf : input.local semantics.callableId with
    | none => simpa using find?_eq_none.1 hf semantics hmem
    | some other =>
      have ho : other.callableId = semantics.callableId := by
        simpa using find?_some hf
      rw [inj_on_of_nodup_map h.locals_distinct (mem_of_find?_eq_some hf) hmem ho]

theorem values_seedSummaries (adjacent : String → Finset String) (components : List (List String))
    (kind : SummaryKind) (callable : String) :
    (seedSummaries input bounds adjacent components).values kind callable =
      takeValues bounds.maxSummaryValues (((input.local callable).map (·.values kind)).getD ∅) := by
  cases kind <;> rfl

theorem takeValues_subset (bound : Nat) (values : Finset String) :
    takeValues bound values ⊆ values := fun _ hv =>
  mem_inOrder.1 (mem_of_mem_take (List.mem_toFinset.1 hv))

theorem card_takeValues_le (bound : Nat) (values : Finset String) :
    (takeValues bound values).card ≤ bound :=
  (toFinset_card_le _).trans (by rw [length_take]; exact Nat.min_le_left _ _)

theorem takeValues_eq {bound : Nat} {values : Finset String} (h : values.card ≤ bound) :
    takeValues bound values = values := by
  rw [takeValues, take_of_length_le (by rwa [length_inOrder]), toFinset_inOrder]

theorem seedSummaries_sound (hacc : Accepted input) {kind : SummaryKind} {v : String}
    (hv : v ∈ (seedSummaries input bounds adjacent components).values kind callable) :
    v ∈ localValues input kind callable := by
  rw [values_seedSummaries] at hv
  have hloc := takeValues_subset _ _ hv
  cases hf : input.local callable with
  | none => simp [hf] at hloc
  | some semantics =>
    obtain ⟨hmem, hid⟩ := hacc.local_eq_some.1 hf
    exact ⟨semantics, hmem, hid, by simpa [hf] using hloc⟩

theorem seedSummaries_whole (hacc : Accepted input) {kind : SummaryKind} {v : String}
    (hloc : ¬(input.local callable).all (·.Exceeds bounds.maxSummaryValues))
    (hv : v ∈ localValues input kind callable) :
    v ∈ (seedSummaries input bounds adjacent components).values kind callable := by
  obtain ⟨semantics, hmem, hid, hv⟩ := hv
  have hfn : input.local callable = some semantics := hacc.local_eq_some.2 ⟨hmem, hid⟩
  have hc : (semantics.values kind).card ≤ bounds.maxSummaryValues := by
    have hfew : ¬semantics.Exceeds bounds.maxSummaryValues := fun hexc =>
      hloc (by rw [hfn]; simpa using hexc)
    rw [CommonCallableLocalSemantics.Exceeds, not_or, Nat.not_lt, Nat.not_lt] at hfew
    cases kind with
    | effect => exact hfew.1
    | resource => exact hfew.2
  rw [values_seedSummaries, hfn, Option.map_some, Option.getD_some, takeValues_eq hc]
  exact hv

theorem bounded_seedSummaries (adjacent : String → Finset String)
    (components : List (List String)) :
    (seedSummaries input bounds adjacent components).Bounded bounds.maxSummaryValues := by
  intro _ _
  rw [values_seedSummaries]
  exact card_takeValues_le _ _

theorem listed_scheduledCalls (hstg : Staged input exactCalls)
    (hsch : ∀ callable, callable ∈ schedule.flatten ↔ callable ∈ callablesOf input) :
    Listed (scheduledCalls schedule (adjacency exactCalls)) = Calls input := by
  funext caller callee
  apply propext
  simp only [Listed, scheduledCalls, mem_flatMap, mem_map, Prod.mk.injEq, mem_inOrder]
  constructor
  · rintro ⟨caller, _, callee, hcle, rfl, rfl⟩
    exact (mem_adjacency hstg).1 hcle
  · intro hcl
    exact ⟨caller, (hsch caller).2 hcl.mem_callablesOf.1, callee,
      (mem_adjacency hstg).2 hcl, rfl, rfl⟩

/-- What the summaries of an input are when their derivation ends. -/
structure Summarizes (input : CommonDerivedAnalysisInput) (bounds : CommonAnalysisBounds)
    (base : Finset String) (summaries : Summaries) (s : AnalysisState) : Prop where
  sound : ∀ kind callable, ∀ v ∈ summaries.values kind callable,
    v ∈ reachableValues input kind callable
  whole : ∀ kind callable, ¬(input.local callable).all (·.Exceeds bounds.maxSummaryValues) →
    ∀ v ∈ localValues input kind callable, v ∈ summaries.values kind callable
  base_subset : base ⊆ summaries.incomplete
  closed : ∀ caller callee, Calls input caller callee → callee ∈ summaries.incomplete →
    caller ∈ summaries.incomplete
  incomplete_origin : ∀ callable ∈ summaries.incomplete,
    (∃ d ∈ base, Relation.ReflTransGen (Calls input) callable d) ∨ BoundHit s
  taken : ∀ caller callee, Calls input caller callee → ∀ kind,
    summaries.values kind callee ⊆ summaries.values kind caller ∨
      (caller ∈ summaries.incomplete ∧ BoundHit s)

theorem reverseCallers_eq_swap (hstg : Staged input exactCalls) :
    (fun callee caller => caller ∈ inOrder (reverseCallers exactCalls callee)) =
      swap (Calls input) := by
  funext callee caller
  exact propext (mem_inOrder.trans (mem_reverseCallers hstg))

theorem mem_propagateIncompleteCallers (hstg : Staged input exactCalls)
    {incomplete : Finset String} (hsub : incomplete ⊆ callablesOf input) :
    callable ∈ propagateIncompleteCallers (callablesOf input)
      (reverseCallers exactCalls) incomplete ↔
      ∃ d ∈ incomplete, Relation.ReflTransGen (Calls input) callable d := by
  rw [propagateIncompleteCallers, mem_close ?_ hsub, reverseCallers_eq_swap hstg]
  · simp only [Relation.reflTransGen_swap]
  · intro _ _ _ hclr
    exact ((mem_reverseCallers hstg).1 (mem_inOrder.1 hclr)).mem_callablesOf.1

theorem boundHit_convergenceGaps {callables : Finset String} (hcal : callable ∈ callables)
    (s : AnalysisState) : BoundHit (forEach (inOrder callables) (emitConvergenceGap bounds) s) := by
  obtain ⟨item, _, hi⟩ := exists_cons_of_ne_nil (ne_nil_of_mem (mem_inOrder.2 hcal))
  have hfst : BoundHit (emitConvergenceGap bounds item s) :=
    ⟨_, mem_unknownAll.2 (.inr ⟨.callableSummary, by decide, rfl⟩),
      by simp [summaryFamilies], by simp [boundReasons]⟩
  rw [hi, forEach_cons]
  refine forEach_induct (P := BoundHit) hfst fun _ _ s hs => hs.mono fun _ hrow => ?_
  exact mem_unknownAll.2 (.inl hrow)

theorem converges_propagateSummaries {summaries : Summaries}
    (hbd : summaries.Bounded bounds.maxSummaryValues) (s : AnalysisState) :
    Converges bounds.maxSummaryValues (scheduledCalls schedule (adjacency exactCalls)) summaries s
      (propagateSummaries schedule (adjacency exactCalls) bounds summaries s).1
      (propagateSummaries schedule (adjacency exactCalls) bounds summaries s).2.1
      (propagateSummaries schedule (adjacency exactCalls) bounds summaries s).2.2 := by
  unfold propagateSummaries
  split
  · rename_i hemp
    rw [List.isEmpty_iff.1 hemp]
    exact ⟨fun _ _ => Finset.Subset.refl _, fun _ callable v hv => ⟨callable, .refl, hv⟩,
      hbd, Finset.Subset.refl _, fun callable hcal => .inl ⟨callable, hcal, .refl⟩,
      Finset.Subset.refl _, nofun⟩
  · exact converges_propagateRounds _ _ hbd s

theorem seedIncomplete_subset
    (hcm : ∀ component ∈ components, ∀ callable ∈ component, callable ∈ callablesOf input) :
    seedIncomplete input bounds adjacent components ⊆ callablesOf input := by
  intro callable hcal
  simp only [seedIncomplete, Finset.mem_union, mem_toFinset, mem_flatten, mem_filter] at hcal
  obtain ((hcal | hcal) | ⟨component, hcomp, hcal⟩) | hcal := hcal
  · simp only [unresolvedCallers, mem_toFinset, mem_map, mem_filter] at hcal
    obtain ⟨call, ⟨hcl, _⟩, rfl⟩ := hcal
    simp only [callablesOf, Finset.mem_union, mem_toFinset, mem_map]
    exact .inl (.inr ⟨call, hcl, rfl⟩)
  · split at hcal
    · cases hcal
    · exact hcal
  · exact hcm component hcomp.1 callable hcal
  · exact (Finset.mem_filter.1 hcal).1

theorem summarizes_of_converges (hacc : Accepted input) (hstg : Staged input exactCalls)
    (hsch : ∀ callable, callable ∈ schedule.flatten ↔ callable ∈ callablesOf input)
    {base incomplete : Finset String}
    (hbaseSeed : base = seedIncomplete input bounds (adjacency exactCalls) components)
    (hbase : base ⊆ callablesOf input) {exhausted : Bool} {summaries : Summaries}
    {s₁ s₂ : AnalysisState}
    (h : Converges bounds.maxSummaryValues (scheduledCalls schedule (adjacency exactCalls))
      (seedSummaries input bounds (adjacency exactCalls) components) s exhausted summaries s₁)
    (hinc : incomplete = if exhausted then summaries.incomplete ∪ callablesOf input
      else summaries.incomplete) (hrows : s₁.unknowns ⊆ s₂.unknowns)
    (hexh : exhausted = true → ∀ callable ∈ callablesOf input, BoundHit s₂) :
    Summarizes input bounds base
      { summaries with incomplete :=
          propagateIncompleteCallers (callablesOf input) (reverseCallers exactCalls) incomplete }
      s₂ := by
  have hlisted := listed_scheduledCalls hstg hsch
  obtain ⟨hgrows, hori, _, hseed, hcause, _, htaken⟩ := h
  rw [hlisted] at hcause hori
  have hvs : ∀ (incomplete : Finset String) (kind : SummaryKind),
      ({ summaries with incomplete := incomplete } : Summaries).values kind =
        summaries.values kind := fun _ kind => by cases kind <;> rfl
  -- incomplete callables are callables
  have hwi : summaries.incomplete ⊆ callablesOf input := by
    intro callable hcal
    obtain ⟨d, hd, hpath⟩ | ⟨⟨callee, hcall⟩, _⟩ := hcause callable hcal
    · obtain rfl | ⟨_, hcall, _⟩ := hpath.cases_head
      · exact hbase (hbaseSeed ▸ hd)
      · exact hcall.mem_callablesOf.1
    · exact hcall.mem_callablesOf.1
  have hsub : incomplete ⊆ callablesOf input := by
    rw [hinc]
    split
    · exact Finset.union_subset hwi (Finset.Subset.refl _)
    · exact hwi
  have hkept : summaries.incomplete ⊆ incomplete := by
    rw [hinc]
    split
    · exact Finset.subset_union_left
    · exact Finset.Subset.refl _
  -- the closure marks exactly the transitive callers of what was incomplete before it
  have hcl : ∀ callable, callable ∈ propagateIncompleteCallers (callablesOf input)
      (reverseCallers exactCalls) incomplete ↔
        ∃ d ∈ incomplete, Relation.ReflTransGen (Calls input) callable d :=
    fun _ => mem_propagateIncompleteCallers hstg hsub
  constructor
  case sound =>
    intro kind callable v hv
    rw [hvs] at hv
    obtain ⟨d, hpath, hv⟩ := hori kind callable v hv
    exact ⟨d, hpath, seedSummaries_sound hacc hv⟩
  case whole =>
    intro kind callable hloc v hv
    rw [hvs]
    exact hgrows kind callable (seedSummaries_whole hacc hloc hv)
  case base_subset =>
    intro callable hcal
    rw [hbaseSeed] at hcal
    exact (hcl callable).2 ⟨callable, hkept (hseed hcal), .refl⟩
  case closed =>
    intro caller callee hcall hcle
    obtain ⟨d, hd, hpath⟩ := (hcl callee).1 hcle
    exact (hcl caller).2 ⟨d, hd, hpath.head hcall⟩
  case incomplete_origin =>
    intro callable hcal
    obtain ⟨d, hd, hpath⟩ := (hcl callable).1 hcal
    cases exhausted with
    | true => exact .inr (hexh rfl d (hsub hd))
    | false =>
      rw [hinc] at hd
      obtain ⟨e, he, hpath'⟩ | ⟨_, hhit⟩ := hcause d hd
      · exact .inl ⟨e, hbaseSeed ▸ he, hpath.trans hpath'⟩
      · exact .inr (hhit.mono hrows)
  case taken =>
    intro caller callee hcall kind
    rw [hvs]
    cases exhausted with
    | true =>
      have hclr := hcall.mem_callablesOf.1
      refine .inr ⟨(hcl caller).2 ⟨caller, ?_, .refl⟩, hexh rfl caller hclr⟩
      rw [hinc]
      exact Finset.mem_union_right _ hclr
    | false =>
      have hmem : Listed (scheduledCalls schedule (adjacency exactCalls)) caller callee :=
        hlisted ▸ hcall
      exact (htaken rfl (caller, callee) hmem kind).imp_right fun ⟨hclr, hhit⟩ =>
        ⟨(hcl caller).2 ⟨caller, hkept hclr, .refl⟩, hhit.mono hrows⟩

theorem unknowns_convergenceGaps (s : AnalysisState) :
    (propagateSummaries schedule (adjacency exactCalls) bounds
      (seedSummaries input bounds (adjacency exactCalls) components) s).2.2.unknowns ⊆
      (deriveSummaries input exactCalls components schedule bounds s).2.unknowns := by
  unfold deriveSummaries
  dsimp only
  split
  · refine forEach_induct (P := fun s' : AnalysisState => _ ⊆ s'.unknowns)
      (Finset.Subset.refl _) fun _ _ s' hs' _ hrow => ?_
    exact mem_unknownAll.2 (.inl (hs' hrow))
  · exact Finset.Subset.refl _

/-- **The summaries of an input.** -/
theorem summarizes_deriveSummaries (hlib : lib.Documented) (hacc : Accepted input)
    (hstg : Staged input exactCalls) (hgr : IsCallGraph input graph)
    (hsch : fixedPointSchedule lib graph (deterministicSccs lib graph) = .ok schedule)
    (s : AnalysisState) : Summarizes input bounds
      (seedIncomplete input bounds (adjacency exactCalls) (deterministicSccs lib graph))
      (deriveSummaries input exactCalls (deterministicSccs lib graph) schedule bounds s).1
      (deriveSummaries input exactCalls (deterministicSccs lib graph) schedule bounds s).2 := by
  have hb : seedIncomplete input bounds (adjacency exactCalls) (deterministicSccs lib graph) ⊆
      callablesOf input := seedIncomplete_subset fun _ hcm callable hcal =>
    mem_callablesOf_of_mem_component hlib hgr hcm hcal
  refine summarizes_of_converges hacc hstg (fun callable => mem_schedule hlib hgr hsch) rfl hb
    (converges_propagateSummaries (bounded_seedSummaries _ _) s) rfl ?_ ?_
  · exact unknowns_convergenceGaps s
  · intro hexh callable hcal
    unfold deriveSummaries
    dsimp only
    rw [if_pos hexh]
    exact boundHit_convergenceGaps hcal _

theorem unknowns_deriveSummaries (s : AnalysisState) :
    s.unknowns ⊆ (deriveSummaries input exactCalls components schedule bounds s).2.unknowns :=
  (converges_propagateSummaries (bounded_seedSummaries _ _) s).unknowns.trans
    (unknowns_convergenceGaps s)

end

end CodeFabric.Derived
