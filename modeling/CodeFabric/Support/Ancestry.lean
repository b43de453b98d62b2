import Mathlib.Tactic

/-! # Lineages in a forest

A forest of numbered nodes, each created below an older one. `up token` is `none` for a missing node
and `some parent` for a live one, where a root has no parent. -/

namespace Ancestry

open Function

variable {up : ℕ → Option (Option ℕ)} {token parent : ℕ}

/-- The walk from a cursor towards the root, for a number of steps. -/
def lineageFrom (up : ℕ → Option (Option ℕ)) : ℕ → Option ℕ → List ℕ
  | 0, _ => []
  | _ + 1, none => []
  | steps + 1, some token => token :: lineageFrom up steps (up token).join

/-- A node and its ancestors. Parents are older, so a node has at most `token` of them. -/
def lineage (up : ℕ → Option (Option ℕ)) (token : ℕ) : List ℕ :=
  lineageFrom up (token + 1) (some token)

/-- Parents are live and older than their children. -/
structure Forest (up : ℕ → Option (Option ℕ)) : Prop where
  parent_lt : ∀ {token parent}, up token = some (some parent) → parent < token
  parent_live : ∀ {token parent}, up token = some (some parent) → (up parent).isSome

/-- Enough steps reach the root. -/
theorem Forest.lineageFrom_congr (h : Forest up) {steps steps' : ℕ} {cursor : Option ℕ}
    (hs : ∀ token ∈ cursor, token < steps ∧ token < steps') :
    lineageFrom up steps cursor = lineageFrom up steps' cursor := by
  induction steps generalizing steps' cursor with
  | zero =>
    cases cursor with
    | none => cases steps' <;> rfl
    | some token => exact absurd (hs token rfl).1 (Nat.not_lt_zero _)
  | succ steps ih =>
    cases cursor with
    | none => cases steps' <;> rfl
    | some token =>
      obtain ⟨_⟩ := hs token rfl
      obtain ⟨rest, rfl⟩ : ∃ rest, steps' = rest + 1 := ⟨steps' - 1, by omega⟩
      rw [lineageFrom, lineageFrom]
      congr 1
      refine ih fun parent hpar => ?_
      have ho : parent < token := h.parent_lt (Option.join_eq_some_iff.1 hpar)
      omega

theorem lineage_root (hup : up token = some none) : lineage up token = [token] := by
  rw [lineage, lineageFrom, hup]
  cases token <;> rfl

/-- A node comes before its parent's lineage. -/
theorem Forest.lineage_child (h : Forest up) (hup : up token = some (some parent)) :
    lineage up token = token :: lineage up parent := by
  have ho := h.parent_lt hup
  rw [lineage, lineageFrom, hup, Option.join_some]
  congr 1
  refine h.lineageFrom_congr ?_
  rintro _ ⟨⟩
  omega

@[simp] theorem mem_lineage_self (up : ℕ → Option (Option ℕ)) (token : ℕ) :
    token ∈ lineage up token :=
  List.mem_cons_self

section

variable (h : Forest up)
include h

/-- **Induction along a lineage.** -/
theorem Forest.lineage_induction {P : ℕ → Prop} (hr : ∀ token, up token = some none → P token)
    (hc : ∀ token parent, up token = some (some parent) → P parent → P token) :
    ∀ token, (up token).isSome → P token := by
  intro token
  induction token using Nat.strong_induction_on with
  | _ token ih =>
    intro hl
    obtain ⟨cursor, hup⟩ := Option.isSome_iff_exists.1 hl
    cases cursor with
    | none => exact hr token hup
    | some parent => exact hc token parent hup (ih parent (h.parent_lt hup) (h.parent_live hup))

/-- The ancestors of a live node are live and no younger. -/
theorem Forest.of_mem_lineage (hl : (up token).isSome) :
    ∀ ancestor ∈ lineage up token, ancestor ≤ token ∧ (up ancestor).isSome := by
  refine h.lineage_induction (P := fun token => ∀ ancestor ∈ lineage up token,
    ancestor ≤ token ∧ (up ancestor).isSome) ?_ ?_ token hl
  · intro _ hr ancestor hanc
    rw [lineage_root hr, List.mem_singleton] at hanc
    simp [hanc, hr]
  · intro _ _ hc ih ancestor hanc
    rw [h.lineage_child hc] at hanc
    rcases List.mem_cons.1 hanc with rfl | hmem
    · simp [hc]
    · obtain ⟨hle, hlive⟩ := ih ancestor hmem
      exact ⟨hle.trans (h.parent_lt hc).le, hlive⟩

/-- A lineage visits no node twice. -/
theorem Forest.lineage_nodup (hlv : (up token).isSome) : (lineage up token).Nodup := by
  refine h.lineage_induction (P := fun token => (lineage up token).Nodup) ?_ ?_ token hlv
  · intro _ hr
    rw [lineage_root hr]
    exact List.nodup_singleton _
  · intro child _ hc ih
    rw [h.lineage_child hc]
    refine List.nodup_cons.2 ⟨fun hmem => ?_, ih⟩
    have hle := (h.of_mem_lineage (h.parent_live hc) child hmem).1
    exact absurd (h.parent_lt hc) (not_lt.2 hle)

/-- Two forests that agree on a live node's lineage give it the same lineage. -/
theorem Forest.lineage_congr {up' : ℕ → Option (Option ℕ)} (h' : Forest up')
    (hl : (up token).isSome) (hs : ∀ ancestor ∈ lineage up token, up' ancestor = up ancestor) :
    lineage up' token = lineage up token := by
  refine h.lineage_induction (P := fun token =>
    (∀ ancestor ∈ lineage up token, up' ancestor = up ancestor) →
      lineage up' token = lineage up token) ?_ ?_ token hl hs
  · intro root hrt hs
    have hr' := hs root (mem_lineage_self up root)
    rw [lineage_root hrt, lineage_root (hr'.trans hrt)]
  · intro child _ hch ih hs
    have hc' := hs child (mem_lineage_self up child)
    rw [h.lineage_child hch] at hs ⊢
    rw [h'.lineage_child (hc'.trans hch), ih fun a ha => hs a (List.mem_cons_of_mem _ ha)]

/-! ## Adding and removing leaves -/

/-- A fresh node below a live one keeps the forest. -/
theorem Forest.insert {fresh : ℕ}
    (hf : ∀ token, (up token).isSome → token < fresh) (hpar : (up parent).isSome) :
    Forest (update up fresh (some (some parent))) := by
  have hl : ∀ token, (up token).isSome → update up fresh (some (some parent)) token = up token :=
    fun token htok => update_of_ne (hf token htok).ne _ _
  constructor
  · intro token other hup
    by_cases htok : token = fresh
    · subst htok
      rw [update_self] at hup
      cases hup
      exact hf _ hpar
    · rw [update_of_ne htok] at hup
      exact h.parent_lt hup
  · intro token other hup
    by_cases htok : token = fresh
    · subst htok
      rw [update_self] at hup
      cases hup
      rwa [hl _ hpar]
    · rw [update_of_ne htok] at hup
      rw [hl _ (h.parent_live hup)]
      exact h.parent_live hup

/-- A fresh node does not change the lineages of the live ones. -/
theorem Forest.lineage_insert {fresh : ℕ}
    (hf : ∀ token, (up token).isSome → token < fresh) (hpar : (up parent).isSome)
    (hl : (up token).isSome) :
    lineage (update up fresh (some (some parent))) token = lineage up token := by
  refine h.lineage_congr (h.insert hf hpar) hl fun ancestor hanc => ?_
  have hold := hf ancestor (h.of_mem_lineage hl ancestor hanc).2
  exact update_of_ne hold.ne _ _

/-- A childless node is on no lineage but its own. -/
theorem Forest.not_mem_lineage_of_leaf {leaf : ℕ}
    (hlf : ∀ token, up token ≠ some (some leaf)) (hlv : (up token).isSome) (hne : token ≠ leaf) :
    leaf ∉ lineage up token := by
  refine h.lineage_induction (P := fun token => token ≠ leaf → leaf ∉ lineage up token)
    ?_ ?_ token hlv hne
  · intro _ hr hne
    rw [lineage_root hr, List.mem_singleton]
    exact Ne.symm hne
  · intro child parent hc ih hne
    have hpar : parent ≠ leaf := fun heq => hlf child (heq ▸ hc)
    rw [h.lineage_child hc, List.mem_cons, not_or]
    exact ⟨Ne.symm hne, ih hpar⟩

/-- Removing a childless node keeps the forest. -/
theorem Forest.remove {leaf : ℕ} (hl : ∀ token, up token ≠ some (some leaf)) :
    Forest (update up leaf none) := by
  have ho : ∀ {token : ℕ} {cursor : Option ℕ},
      update up leaf none token = some cursor → up token = some cursor := by
    intro token cursor hup
    by_cases htok : token = leaf
    · rw [htok, update_self] at hup
      exact absurd hup (by simp)
    · rwa [update_of_ne htok] at hup
  constructor
  · intro token parent hup
    exact h.parent_lt (ho hup)
  · intro token parent hup
    have hpar : parent ≠ leaf := fun heq => hl token (heq ▸ ho hup)
    rw [update_of_ne hpar]
    exact h.parent_live (ho hup)

/-- Removing a childless node does not change the lineages of the others. -/
theorem Forest.lineage_remove {leaf : ℕ}
    (hlf : ∀ token, up token ≠ some (some leaf)) (hlv : (up token).isSome)
    (hne : token ≠ leaf) : lineage (update up leaf none) token = lineage up token := by
  refine h.lineage_congr (h.remove hlf) hlv fun _ hanc => ?_
  refine update_of_ne (fun heq => ?_) _ _
  exact h.not_mem_lineage_of_leaf hlf hlv hne (heq ▸ hanc)

end

end Ancestry
