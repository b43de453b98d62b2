import Mathlib.Tactic

/-! # Dominance

Dominance from a root along a relation, by the paths that keep to allowed vertices, and the chains
of dominators that a dominator tree answers with. -/

namespace Dominance

variable {V : Type} {step : V → V → Prop} {root a b d v : V} {allowed : V → Prop}

/-- There is a path from the root over allowed vertices only. -/
inductive Reached (step : V → V → Prop) (root : V) (allowed : V → Prop) : V → Prop
  | root : allowed root → Reached step root allowed root
  | step {a b : V} : Reached step root allowed a → step a b → allowed b →
      Reached step root allowed b

/-- A vertex is reached, and every path to it passes through another one. -/
def Dominates (step : V → V → Prop) (root d v : V) : Prop :=
  Reached step root (fun _ => True) v ∧ ¬Reached step root (· ≠ d) v

theorem Reached.holds (h : Reached step root allowed v) : allowed v := by
  cases h with
  | root h => exact h
  | step _ _ h => exact h

section

variable (h : Reached step root (fun _ => True) v)
include h

theorem dominates_self : Dominates step root v v :=
  ⟨h, fun hv => hv.holds rfl⟩

theorem dominates_root : Dominates step root root v := by
  refine ⟨h, fun hv => ?_⟩
  clear h
  induction hv with
  | root h => exact h rfl
  | step _ _ _ ih => exact ih

/-- A path that reaches a vertex avoids another one or reaches it. -/
theorem Reached.avoids_or (d : V) :
    Reached step root (· ≠ d) v ∨ Reached step root (fun _ => True) d := by
  induction h with
  | root h =>
    by_cases hd : root = d
    · exact .inr (hd ▸ .root trivial)
    · exact .inl (.root hd)
  | @step a b ha hab _ ih =>
    by_cases hd : b = d
    · exact .inr (hd ▸ .step ha hab trivial)
    · exact ih.imp_left fun h => .step h hab hd

end

theorem Dominates.reached (h : Dominates step root d v) : Reached step root (fun _ => True) d :=
  (h.1.avoids_or d).resolve_left h.2

/-- **A strict dominator of a vertex dominates its predecessors.** -/
theorem dominates_of_step (h : Dominates step root d b) (ha : Reached step root (fun _ => True) a)
    (hab : step a b) (hd : d ≠ b) : Dominates step root d a :=
  ⟨ha, fun hn => h.2 (.step hn hab hd.symm)⟩

/-- The answers of a dominator tree: for every reached vertex its strict dominators, each followed
by its own. -/
structure IsTree (step : V → V → Prop) (root : V) (strict : V → Option (List V)) : Prop where
  reached : ∀ v, (strict v).isSome ↔ Reached step root (fun _ => True) v
  mem : ∀ v l, strict v = some l → ∀ d, d ∈ l ↔ d ≠ v ∧ Dominates step root d v
  chain : ∀ v d l, strict v = some (d :: l) → strict d = some l

namespace IsTree

variable {strict : V → Option (List V)} {l : List V} (tree : IsTree step root strict)

include tree

theorem reached_of_some (h : strict v = some l) : Reached step root (fun _ => True) v :=
  (tree.reached v).1 (h ▸ rfl)

theorem exists_some (h : Reached step root (fun _ => True) v) : ∃ l, strict v = some l :=
  Option.isSome_iff_exists.1 ((tree.reached v).2 h)

theorem mem_cons (h : strict v = some l) : d ∈ v :: l ↔ Dominates step root d v := by
  rw [List.mem_cons, tree.mem v l h d]
  by_cases hd : d = v
  · simp [hd, dominates_self (tree.reached_of_some h)]
  · simp [hd]

theorem nodup (h : strict v = some l) : (v :: l).Nodup := by
  induction l generalizing v with
  | nil => exact List.nodup_singleton v
  | cons d l ih =>
    exact List.nodup_cons.2 ⟨fun hv => ((tree.mem v _ h v).1 hv).1 rfl, ih (tree.chain v d l h)⟩

/-- **The chain of a dominator ends the chain of what it dominates.** -/
theorem split (h : strict v = some l) (hd : d ∈ v :: l) :
    ∃ front rest, v :: l = front ++ d :: rest ∧ strict d = some rest := by
  induction l generalizing v with
  | nil =>
    obtain rfl := List.mem_singleton.1 hd
    exact ⟨[], [], rfl, h⟩
  | cons w l ih =>
    rcases List.mem_cons.1 hd with rfl | hd
    · exact ⟨[], w :: l, rfl, h⟩
    · obtain ⟨front, rest, heq, hs⟩ := ih (tree.chain v w l h) hd
      exact ⟨v :: front, rest, by rw [heq, List.cons_append], hs⟩

end IsTree

end Dominance
