import Mathlib.Tactic

/-! # Runs of labelled transition systems

A run is the list of transitions a system took from one state to another. The rules below turn
facts about one step into facts about whole runs. -/

namespace Runs

universe u v

/-- One transition of a system: the state before, the label, and the state after. -/
structure Transition (σ : Type u) (ℓ : Type v) where
  before : σ
  label : ℓ
  after : σ

variable {σ : Type u} {ℓ : Type v}

/-- The runs of a step relation, as the list of their transitions. -/
inductive Run (Step : σ → ℓ → σ → Prop) : σ → List (Transition σ ℓ) → σ → Prop
  | nil (s : σ) : Run Step s [] s
  | cons {s m t : σ} {l : ℓ} {steps : List (Transition σ ℓ)} (step : Step s l m)
      (rest : Run Step m steps t) : Run Step s (⟨s, l, m⟩ :: steps) t

variable {Step : σ → ℓ → σ → Prop} {s t : σ} {steps : List (Transition σ ℓ)} {P : σ → Prop}

/-- **Invariant rule.** A property every step preserves is preserved by a run. -/
theorem Run.invariant (run : Run Step s steps t)
    (hst : ∀ s l t, Step s l t → P s → P t) (hs : P s) : P t := by
  induction run with
  | nil => exact hs
  | cons step _ ih => exact ih (hst _ _ _ step hs)

theorem Run.append {u : σ} {later : List (Transition σ ℓ)} (run : Run Step s steps t)
    (hl : Run Step t later u) : Run Step s (steps ++ later) u := by
  induction run with
  | nil => exact hl
  | cons step _ ih => exact .cons step (ih hl)

/-- A run splits at a position of its transition list. -/
theorem Run.split {past future : List (Transition σ ℓ)} {x : Transition σ ℓ}
    (run : Run Step s (past ++ x :: future) t) :
    Run Step s past x.before ∧ Step x.before x.label x.after ∧ Run Step x.after future t := by
  induction past generalizing s with
  | nil =>
    cases run with
    | cons step rest => exact ⟨.nil _, step, rest⟩
  | cons y past ih =>
    cases run with
    | cons step rest =>
      obtain ⟨hp, hx, hfut⟩ := ih rest
      exact ⟨.cons step hp, hx, hfut⟩

theorem Run.split_of_mem {x : Transition σ ℓ} (run : Run Step s steps t) (hx : x ∈ steps) :
    ∃ past future, steps = past ++ x :: future ∧ Run Step s past x.before ∧
      Step x.before x.label x.after ∧ Run Step x.after future t := by
  obtain ⟨past, future, rfl⟩ := List.append_of_mem hx
  exact ⟨past, future, rfl, run.split⟩

/-- **Release rule.** A property `P` that every step preserves, unless the step is a `Q`, holds at
the end of a run without a `Q`. -/
theorem Run.release {Q : Transition σ ℓ → Prop} (run : Run Step s steps t)
    (hst : ∀ s l t, Step s l t → P s → P t ∨ Q ⟨s, l, t⟩) (hs : P s) : P t ∨ ∃ x ∈ steps, Q x := by
  induction run with
  | nil => exact .inl hs
  | cons step _ ih =>
    obtain hm | hrel := hst _ _ _ step hs
    · obtain ht | ⟨x, hx, hrel⟩ := ih hm
      · exact .inl ht
      · exact .inr ⟨x, List.mem_cons_of_mem _ hx, hrel⟩
    · exact .inr ⟨_, List.mem_cons_self, hrel⟩

/-- **Since rule.** A property `P` at the end of a run that only a step `Q` can make true has held
since such a step, or since the beginning. -/
theorem Run.since {Q : Transition σ ℓ → Prop} (run : Run Step s steps t)
    (hst : ∀ s l t, Step s l t → P t → P s ∨ Q ⟨s, l, t⟩) (ht : P t) :
    (∃ past x future, steps = past ++ x :: future ∧ Q x ∧
        ∀ y ∈ x :: future, P y.after) ∨ (P s ∧ ∀ y ∈ steps, P y.after) := by
  induction run with
  | nil => exact .inr ⟨ht, by simp⟩
  | @cons s m _ l _ step _ ih =>
    obtain ⟨past, x, future, rfl, hx, haf⟩ | ⟨hm, haf⟩ := ih ht
    · exact .inl ⟨⟨s, l, m⟩ :: past, x, future, rfl, hx, haf⟩
    · have hall : ∀ y ∈ (⟨s, l, m⟩ :: _ : List (Transition σ ℓ)), P y.after :=
        List.forall_mem_cons.2 ⟨hm, haf⟩
      obtain hs | hx := hst _ _ _ step hm
      · exact .inr ⟨hs, hall⟩
      · exact .inl ⟨[], _, _, rfl, hx, hall⟩

end Runs
