import CodeFabric.Support.Interleaving

/-! # Executions of one program

A program that runs by itself makes a list of calls, each answered in some state and leaving
another. The list is kept, so that statements can speak of what was called, in which order and in
which state. -/

namespace Interleaving

open Runs

variable {E : Type} {R : E → Type} {α β σ : Type}

abbrev Call (E : Type) (R : E → Type) := (effect : E) × R effect

/-- The executions of a program, as the list of their calls. -/
inductive Execution (performs : (effect : E) → σ → R effect → σ → Prop) :
    Prog E R α → σ → List (Transition σ (Call E R)) → α → σ → Prop
  | ret (value : α) (s : σ) : Execution performs (.ret value) s [] value s
  | call {effect : E} {next : R effect → Prog E R α} {s m t : σ} {response : R effect}
      {steps : List (Transition σ (Call E R))} {value : α} (step : performs effect s response m)
      (rest : Execution performs (next response) m steps value t) :
      Execution performs (.call effect next) s (⟨s, ⟨effect, response⟩, m⟩ :: steps) value t

variable {performs : (effect : E) → σ → R effect → σ → Prop} {s t : σ}
  {steps : List (Transition σ (Call E R))} {P : List (Call E R) → α → Prop}
  {handler : (effect : E) → σ → R effect × σ}

/-- A returned value makes no call. -/
@[simp] theorem execution_pure {result value : α} :
    Execution performs (pure result) s steps value t ↔ steps = [] ∧ result = value ∧ s = t := by
  constructor
  · intro h
    cases h with
    | ret => exact ⟨rfl, rfl, rfl⟩
  · rintro ⟨rfl, rfl, rfl⟩
    exact .ret _ _

@[elab_as_elim] theorem Execution.of_pure {motive : List (Transition σ (Call E R)) → α → σ → Prop}
    {result value : α} (h : Execution performs (pure result) s steps value t)
    (hm : motive [] result s) : motive steps value t := by
  obtain ⟨rfl, rfl, rfl⟩ := execution_pure.1 h
  exact hm

/-- A program that begins with an effect makes that call first. -/
theorem execution_perform_bind {effect : E} {next : R effect → Prog E R α} {value : α} :
    Execution performs (perform effect >>= next) s steps value t ↔
      ∃ response m rest, performs effect s response m ∧ steps = ⟨s, ⟨effect, response⟩, m⟩ :: rest ∧
        Execution performs (next response) m rest value t := by
  constructor
  · intro h
    cases h with
    | call step rest => exact ⟨_, _, _, step, rfl, rest⟩
  · rintro ⟨response, m, rest, step, rfl, h⟩
    exact .call step h

/-! ## Whatever the answers -/

/-- The calls and the value of a program are related, whatever its effects are answered. -/
def Prog.Always : Prog E R α → (List (Call E R) → α → Prop) → Prop
  | .ret value, P => P [] value
  | .call effect next, P =>
    ∀ response, (next response).Always fun calls value => P (⟨effect, response⟩ :: calls) value

@[simp] theorem always_pure {value : α} : (pure value : Prog E R α).Always P ↔ P [] value :=
  Iff.rfl

theorem always_perform_bind {effect : E} {next : R effect → Prog E R α} :
    (perform effect >>= next).Always P ↔ ∀ response,
      (next response).Always fun calls value => P (⟨effect, response⟩ :: calls) value :=
  Iff.rfl

theorem Prog.Always.mono {Q : List (Call E R) → α → Prop} {program : Prog E R α}
    (h : program.Always P) (hPQ : ∀ calls value, P calls value → Q calls value) :
    program.Always Q := by
  induction program generalizing P Q with
  | ret value => exact hPQ _ _ h
  | call _ _ ih => exact fun response => ih response (h response) fun _ _ => hPQ _ _

/-- What holds whatever the answers holds of every execution. -/
theorem Execution.always {program : Prog E R α} {value : α}
    (h : Execution performs program s steps value t) (hP : program.Always P) :
    P (steps.map Transition.label) value := by
  induction h generalizing P with
  | ret => exact hP
  | call _ _ ih => exact ih (hP _)

/-! ## Executing with given answers -/

/-- The calls, the value and the final state of a program whose effects a function answers. -/
def Prog.run (handler : (effect : E) → σ → R effect × σ) :
    Prog E R α → σ → List (Transition σ (Call E R)) × α × σ
  | .ret value, s => ([], value, s)
  | .call effect next, s =>
    let (response, m) := handler effect s
    let (steps, value, t) := (next response).run handler m
    (⟨s, ⟨effect, response⟩, m⟩ :: steps, value, t)

/-- Sequencing hands the value and the state on. -/
theorem run_bind {first : Prog E R α}
    {next : α → Prog E R β} {s : σ} : ((first >>= next).run handler s).2 =
      ((next (first.run handler s).2.1).run handler (first.run handler s).2.2).2 := by
  induction first generalizing s with
  | ret => rfl
  | call _ _ ih => exact ih _

/-- Answers that a system can give make an execution. -/
theorem execution_run (h : ∀ effect s, performs effect s (handler effect s).1 (handler effect s).2)
    (program : Prog E R α) (s : σ) :
    Execution performs program s (program.run handler s).1 (program.run handler s).2.1
      (program.run handler s).2.2 := by
  induction program generalizing s with
  | ret => exact .ret _ _
  | call effect _ ih => exact .call (h effect s) (ih _ _)

end Interleaving
