import CodeFabric.Support.Fallible
import CodeFabric.Support.Worklist
import Mathlib.Data.String.Basic

/-! # Input of the common derived analysis

The accepted facts the analysis reads, its bounds, and their validation
(`common_derived_analysis.rs`). Texts are strings, and sets of texts are finite sets whose order is
the order of strings.

**`validateInput`**, **`validateCoverage`**: what an accepted input satisfies is collected in
`Accepted`. -/

namespace CodeFabric.Derived

open List hiding Vector

open Fallible

/-! ## Input -/

structure CommonCfgNode where
  ownerId : String
  nodeId : String
  isEntry : Bool
  isExit : Bool
  deriving DecidableEq, Repr

structure CommonCfgEdge where
  ownerId : String
  sourceNodeId : String
  targetNodeId : String
  deriving DecidableEq, Repr

structure CommonDefUse where
  ownerId : String
  definitionNodeId : String
  useNodeId : String
  locationId : String
  deriving DecidableEq, Repr

/-- Call-target resolution supplied by accepted language-local facts. -/
inductive CommonCallResolution
  | exact (calleeId : String)
  | dynamic (reason : String)
  | unknown (reason : String)
  deriving DecidableEq, Repr

structure CommonCallSite where
  callSiteId : String
  callerId : String
  resolution : CommonCallResolution
  deriving DecidableEq, Repr

structure CommonCallableLocalSemantics where
  callableId : String
  moduleId : String
  ownerId : String
  effects : Finset String
  resources : Finset String
  deriving DecidableEq

/-- Input relation family whose execution coverage constrains derived completeness. -/
inductive CommonInputFamily
  | cfg | defUseReaching | callTargets | localEffectResource
  deriving DecidableEq, Repr

def CommonInputFamily.all : List CommonInputFamily :=
  [.cfg, .defUseReaching, .callTargets, .localEffectResource]

/-- How an input family prints itself in the details of a gap. -/
def CommonInputFamily.debug : CommonInputFamily → String
  | .cfg => "Cfg"
  | .defUseReaching => "DefUseReaching"
  | .callTargets => "CallTargets"
  | .localEffectResource => "LocalEffectResource"

structure CommonInputCoverage where
  requestedUnits : Nat
  completedUnits : Nat
  remainderUnits : Nat
  unknownUnits : Nat
  executionProofPin : Vector UInt8 32
  deriving DecidableEq, Repr

def zeroPin : Vector UInt8 32 := Vector.replicate 32 0

def CommonInputCoverage.isComplete (coverage : CommonInputCoverage) : Bool :=
  coverage.requestedUnits = coverage.completedUnits ∧ coverage.remainderUnits = 0 ∧
    coverage.unknownUnits = 0 ∧ coverage.executionProofPin ≠ zeroPin

inductive CommonChangedScope
  | owner (owner : String)
  | module (module : String)
  | callable (callable : String)
  deriving DecidableEq, Repr

/-- Exact immutable inputs repeated on every emitted row. -/
structure CommonAnalysisProvenance where
  fabricEpochId : Vector UInt8 32
  sourcePin : Vector UInt8 32
  inputSetPin : Vector UInt8 32
  proofPin : Vector UInt8 32
  deriving DecidableEq, Repr

structure CommonDerivedAnalysisInput where
  provenance : CommonAnalysisProvenance
  cfgNodes : List CommonCfgNode
  cfgEdges : List CommonCfgEdge
  defUseReaching : List CommonDefUse
  calls : List CommonCallSite
  localSemantics : List CommonCallableLocalSemantics
  coverage : CommonInputFamily → Option CommonInputCoverage
  changedScopes : Finset CommonChangedScope

/-- Explicit resource and convergence bounds of one execution, none of them zero. -/
structure CommonAnalysisBounds where
  maxCfgNodes : ℕ+
  maxCfgEdges : ℕ+
  maxCallables : ℕ+
  maxCallSites : ℕ+
  maxReachabilityPairs : ℕ+
  maxSummaryValues : ℕ+
  maxOutputRows : ℕ+
  maxIterations : ℕ+

inductive CommonDerivedAnalysisError
  | invalidIdentity (kind value : String)
  | invalidProvenance (pin : String)
  | missingCoverage (family : CommonInputFamily)
  | invalidCoverage (family : CommonInputFamily)
  | invalidInput (text : String)
  | unknownStageKind (kind : String)
  | schema (text : String)
  deriving DecidableEq, Repr

/-! ## Validation -/

/-- Unicode white space, as `str::trim` removes it. -/
def isWhitespace (c : Char) : Bool :=
  (0x09 ≤ c.toNat ∧ c.toNat ≤ 0x0D) ∨ (0x2000 ≤ c.toNat ∧ c.toNat ≤ 0x200A) ∨
    c.toNat ∈ [0x20, 0x85, 0xA0, 0x1680, 0x2028, 0x2029, 0x202F, 0x205F, 0x3000]

def isControl (c : Char) : Bool :=
  c.toNat ≤ 0x1F ∨ (0x7F ≤ c.toNat ∧ c.toNat ≤ 0x9F)

/-- The characters of a text without white space at both ends. -/
def trim (text : List Char) : List Char :=
  ((text.dropWhile isWhitespace).reverse.dropWhile isWhitespace).reverse

def validateText (kind value : String) : Except CommonDerivedAnalysisError Unit :=
  ensure (¬(value.isEmpty ∨ 1024 < value.utf8ByteSize ∨ trim value.toList ≠ value.toList ∨
    value.toList.any isControl)) (.invalidIdentity kind value)

def validateProvenance (provenance : CommonAnalysisProvenance) :
    Except CommonDerivedAnalysisError Unit := do
  ensure (provenance.fabricEpochId ≠ zeroPin) (.invalidProvenance "fabric_epoch_id")
  ensure (provenance.sourcePin ≠ zeroPin) (.invalidProvenance "source_pin")
  ensure (provenance.inputSetPin ≠ zeroPin) (.invalidProvenance "input_set_pin")
  ensure (provenance.proofPin ≠ zeroPin) (.invalidProvenance "proof_pin")

/-- Check the elements of a list one after the other against the keys of those before. -/
def validateKeyed {α κ : Type} (key : α → κ)
    (check : List κ → α → Except CommonDerivedAnalysisError Unit) :
    List κ → List α → Except CommonDerivedAnalysisError Unit
  | _, [] => .ok ()
  | seen, a :: rest => do
    check seen a
    validateKeyed key check (key a :: seen) rest

def CommonCfgNode.key (node : CommonCfgNode) : String × String := (node.ownerId, node.nodeId)

def validateNode (seen : List (String × String)) (node : CommonCfgNode) :
    Except CommonDerivedAnalysisError Unit := do
  let owner := node.ownerId
  let id := node.nodeId
  validateText "owner" owner
  validateText "CFG node" id
  ensure (node.key ∉ seen) (.invalidInput s!"duplicate CFG node {owner}/{id}")

def validateEdge (nodes : List CommonCfgNode) (edge : CommonCfgEdge) :
    Except CommonDerivedAnalysisError Unit := do
  let owner := edge.ownerId
  let source := edge.sourceNodeId
  let target := edge.targetNodeId
  validateText "owner" owner
  validateText "CFG source" source
  validateText "CFG target" target
  ensure ((owner, source) ∈ nodes.map (·.key) ∧ (owner, target) ∈ nodes.map (·.key))
    (.invalidInput s!"CFG edge {source} -> {target} escapes owner {owner}")

def validateDefUse (row : CommonDefUse) : Except CommonDerivedAnalysisError Unit := do
  validateText "owner" row.ownerId
  validateText "definition node" row.definitionNodeId
  validateText "use node" row.useNodeId
  validateText "location" row.locationId

def CommonCallResolution.key : CommonCallResolution → String × String
  | .exact calleeId => ("exact", calleeId)
  | .dynamic reason => ("dynamic", reason)
  | .unknown reason => ("unknown", reason)

def CommonCallResolution.validate : CommonCallResolution → Except CommonDerivedAnalysisError Unit
  | .exact calleeId => validateText "callee" calleeId
  | .dynamic reason | .unknown reason => validateText "call gap" reason

/-- A call site's caller is the last one recorded for it; all of them are to agree. -/
def validateCall (seen : List CommonCallSite) (call : CommonCallSite) :
    Except CommonDerivedAnalysisError Unit := do
  let site := call.callSiteId
  validateText "call site" site
  validateText "caller" call.callerId
  ensure ((seen.find? (·.callSiteId = site)).all (·.callerId = call.callerId))
    (.invalidInput s!"call site {site} has conflicting callers")
  call.resolution.validate
  ensure (∀ before ∈ seen, ¬(before.callSiteId = site ∧
      before.resolution.key = call.resolution.key))
    (.invalidInput s!"duplicate call target observation for {site}")

def validateLocal (seen : List String) (semantics : CommonCallableLocalSemantics) :
    Except CommonDerivedAnalysisError Unit := do
  let callable := semantics.callableId
  validateText "callable" callable
  validateText "module" semantics.moduleId
  validateText "owner" semantics.ownerId
  ensure (callable ∉ seen) (.invalidInput s!"duplicate callable local semantics {callable}")
  (Worklist.inOrder semantics.effects).forM (validateText "effect")
  (Worklist.inOrder semantics.resources).forM (validateText "resource")

def validateInput (input : CommonDerivedAnalysisInput) :
    Except CommonDerivedAnalysisError Unit := do
  validateKeyed CommonCfgNode.key validateNode [] input.cfgNodes
  input.cfgEdges.forM (validateEdge input.cfgNodes)
  input.defUseReaching.forM validateDefUse
  validateKeyed id validateCall [] input.calls
  validateKeyed CommonCallableLocalSemantics.callableId validateLocal [] input.localSemantics

def validateCoverage (coverage : CommonInputFamily → Option CommonInputCoverage) :
    Except CommonDerivedAnalysisError Unit :=
  CommonInputFamily.all.forM fun family => do
    let row ← okOr (coverage family) (.missingCoverage family)
    let classified ← okOr (do
      let value ← checkedAdd 64 row.completedUnits row.remainderUnits
      checkedAdd 64 value row.unknownUnits) (.invalidCoverage family)
    ensure (classified = row.requestedUnits ∧ row.executionProofPin ≠ zeroPin)
      (.invalidCoverage family)

/-! ## What acceptance means -/

/-- The facts the derivations rely on once an input is accepted. -/
structure Accepted (input : CommonDerivedAnalysisInput) : Prop where
  nodes_distinct : (input.cfgNodes.map CommonCfgNode.key).Nodup
  edges_within : ∀ edge ∈ input.cfgEdges,
    (edge.ownerId, edge.sourceNodeId) ∈ input.cfgNodes.map CommonCfgNode.key ∧
      (edge.ownerId, edge.targetNodeId) ∈ input.cfgNodes.map CommonCfgNode.key
  calls_distinct : (input.calls.map fun call => (call.callSiteId, call.resolution.key)).Nodup
  one_caller : ∀ call ∈ input.calls, ∀ call' ∈ input.calls,
    call.callSiteId = call'.callSiteId → call.callerId = call'.callerId
  locals_distinct : (input.localSemantics.map CommonCallableLocalSemantics.callableId).Nodup
  covered : ∀ family, ∃ row, input.coverage family = some row ∧
    row.completedUnits + row.remainderUnits + row.unknownUnits = row.requestedUnits ∧
      row.requestedUnits < 2 ^ 64 ∧ row.executionProofPin ≠ zeroPin

/-- A keyed validation whose check relates every element to the keys seen before relates every two
elements of the list. -/
theorem pairwise_of_validateKeyed {α κ : Type} {key : α → κ}
    {check : List κ → α → Except CommonDerivedAnalysisError Unit} {R : κ → α → Prop}
    (hchk : ∀ seen a, check seen a = .ok () → ∀ k ∈ seen, R k a) {seen : List κ} {items : List α}
    (h : validateKeyed key check seen items = .ok ()) :
    (∀ k ∈ seen, ∀ a ∈ items, R k a) ∧ items.Pairwise fun a b => R (key a) b := by
  induction items generalizing seen with
  | nil => exact ⟨nofun, .nil⟩
  | cons a rest ih =>
    simp only [validateKeyed, bind_eq_ok] at h
    obtain ⟨_, ha, hr⟩ := h
    obtain ⟨hs, hp⟩ := ih hr
    refine ⟨fun k hk b hb => ?_, .cons (fun b hb => hs _ mem_cons_self b hb) hp⟩
    obtain rfl | hb := mem_cons.1 hb
    · exact hchk seen b ha k hk
    · exact hs k (mem_cons_of_mem _ hk) b hb

theorem checked_of_validateKeyed {α κ : Type} {key : α → κ}
    {check : List κ → α → Except CommonDerivedAnalysisError Unit} {seen : List κ} {items : List α}
    (h : validateKeyed key check seen items = .ok ()) :
    ∀ a ∈ items, ∃ seen, check seen a = .ok () := by
  induction items generalizing seen with
  | nil => exact nofun
  | cons a rest ih =>
    simp only [validateKeyed, bind_eq_ok] at h
    obtain ⟨_, ha, hr⟩ := h
    exact forall_mem_cons.2 ⟨⟨seen, ha⟩, ih hr⟩

theorem nodup_of_validateKeyed {α κ : Type} {key : α → κ}
    {check : List κ → α → Except CommonDerivedAnalysisError Unit}
    (hchk : ∀ seen a, check seen a = .ok () → key a ∉ seen) {items : List α}
    (h : validateKeyed key check [] items = .ok ()) : (items.map key).Nodup := by
  have hp := (pairwise_of_validateKeyed (R := fun k a => k ≠ key a)
    (fun seen a ha k hk hka => hchk seen a ha (hka ▸ hk)) h).2
  exact pairwise_map.2 hp

theorem validateCall_spec {seen : List CommonCallSite} {call : CommonCallSite}
    (h : validateCall seen call = .ok ()) :
    (∀ before, seen.find? (·.callSiteId = call.callSiteId) = some before →
        before.callerId = call.callerId) ∧
      ∀ before ∈ seen, ¬(before.callSiteId = call.callSiteId ∧
        before.resolution.key = call.resolution.key) := by
  simp only [validateCall, ok_iff] at h
  obtain ⟨_, _, _, _, _, hclr, _, _, hd⟩ := h
  refine ⟨fun before hbef => ?_, hd⟩
  simpa [hbef] using hclr

/-- The calls validated before a call site agree on its caller, so comparing with the last of them
compares with all. -/
theorem one_caller_of_validateKeyed {seen calls : List CommonCallSite}
    (hsn : ∀ call ∈ seen, ∀ call' ∈ seen,
      call.callSiteId = call'.callSiteId → call.callerId = call'.callerId)
    (h : validateKeyed id validateCall seen calls = .ok ()) :
    ∀ call ∈ seen ++ calls, ∀ call' ∈ seen ++ calls,
      call.callSiteId = call'.callSiteId → call.callerId = call'.callerId := by
  induction calls generalizing seen with
  | nil => simpa using hsn
  | cons call rest ih =>
    simp only [validateKeyed, bind_eq_ok, id] at h
    obtain ⟨_, hcl, hr⟩ := h
    have ha : ∀ before ∈ seen, before.callSiteId = call.callSiteId →
        before.callerId = call.callerId := by
      intro before hbef hst
      cases hf : seen.find? (·.callSiteId = call.callSiteId) with
      | none =>
        have := find?_eq_none.1 hf before hbef
        simp [hst] at this
      | some last =>
        have hl := find?_some hf
        have hmem := mem_of_find?_eq_some hf
        have hclr := (validateCall_spec hcl).1 last hf
        rw [← hclr]
        exact hsn before hbef last hmem (by simp_all)
    have hext : ∀ x ∈ call :: seen, ∀ y ∈ call :: seen,
        x.callSiteId = y.callSiteId → x.callerId = y.callerId := by
      intro x hx y hy hst
      obtain rfl | hx' := mem_cons.1 hx
      · obtain rfl | hy' := mem_cons.1 hy
        · rfl
        · exact (ha y hy' hst.symm).symm
      · obtain rfl | hy' := mem_cons.1 hy
        · exact ha x hx' hst
        · exact hsn x hx' y hy' hst
    intro x hx y hy
    exact ih hext hr x (by simp_all [or_left_comm]) y (by simp_all [or_left_comm])

/-- **An accepted input is consistent.** -/
theorem accepted_of_validate {input : CommonDerivedAnalysisInput}
    (hi : validateInput input = .ok ()) (hcov : validateCoverage input.coverage = .ok ()) :
    Accepted input := by
  simp only [validateInput, bind_eq_ok] at hi
  obtain ⟨_, hnd, _, hed, _, _, _, hcl, hl⟩ := hi
  refine ⟨nodup_of_validateKeyed (fun seen node h => ?_) hnd, fun edge hedge => ?_, ?_, ?_,
    nodup_of_validateKeyed (fun seen semantics h => ?_) hl, fun family => ?_⟩
  · simp only [validateNode, ok_iff] at h
    obtain ⟨_, _, _, _, hnew⟩ := h
    exact hnew
  · have h := forM_eq_ok.1 hed edge hedge
    simp only [validateEdge, ok_iff] at h
    obtain ⟨_, _, _, _, _, _, hwi⟩ := h
    exact hwi
  · have hpr := (pairwise_of_validateKeyed
      (R := fun before call => ¬(before.callSiteId = call.callSiteId ∧
        before.resolution.key = call.resolution.key))
      (fun seen call h => (validateCall_spec h).2) hcl).2
    refine pairwise_map.2 (hpr.imp fun hne heq => ?_)
    exact hne (Prod.mk.inj heq)
  · simpa using one_caller_of_validateKeyed (by simp) hcl
  · simp only [validateLocal, ok_iff] at h
    obtain ⟨_, _, _, _, _, _, _, hnew, _⟩ := h
    exact hnew
  · have hall : family ∈ CommonInputFamily.all := by cases family <;> decide
    have h := forM_eq_ok.1 hcov family hall
    simp only [ok_iff, Option.bind_eq_bind, Option.bind_eq_some_iff, checkedAdd_eq_some] at h
    obtain ⟨row, hrow, _, ⟨_, ⟨_, rfl⟩, hf, rfl⟩, hsum, hpin⟩ := h
    exact ⟨row, hrow, hsum, hsum ▸ hf, hpin⟩

end CodeFabric.Derived
