import CodeFabric.Support.Execution

/-! # Stateful procedures that may fail

A procedure works on a private state, performs effects, and returns a value or an error. An early
return with an error keeps the state as it is at that point, and nothing is rolled back. -/

namespace Procedures

open Interleaving List

variable {E : Type} {R : E → Type} {σ ε α β : Type}

/-- A computation over a state that performs effects and may fail. -/
abbrev Procedure (E : Type) (R : E → Type) (σ ε α : Type) := ExceptT ε (StateT σ (Prog E R)) α

variable (procedure : Procedure E R σ ε α) {calls : List (Call E R)} {value : α}

def Procedure.start (s : σ) : Prog E R (Except ε α × σ) :=
  procedure.run.run s

def effect (e : E) : Procedure E R σ ε (R e) :=
  ExceptT.mk fun s => .call e fun response => .ret (.ok response, s)

/-- Return the value of a fallible computation, or fail with its error. -/
def check (value : Except ε α) : Procedure E R σ ε α :=
  ExceptT.mk fun s => .ret (value, s)

def read : Procedure E R σ ε σ := ExceptT.mk fun s => .ret (.ok s, s)

def update (f : σ → σ) : Procedure E R σ ε Unit := ExceptT.mk fun s => .ret (.ok (), f s)

/-- Run a procedure and return its result, error or not. -/
def attempt : Procedure E R σ ε (Except ε α) :=
  ExceptT.mk fun s => (procedure.start s).bind fun outcome => .ret (.ok outcome.1, outcome.2)

/-! ## Outcomes -/

/-- The calls and the value of a program under some answers. -/
def ProgYields : Prog E R α → List (Call E R) → α → Prop
  | .ret value, calls, result => calls = [] ∧ value = result
  | .call e next, calls, result =>
    ∃ response rest, calls = ⟨e, response⟩ :: rest ∧ ProgYields (next response) rest result

/-- What holds whatever the answers holds of every outcome. -/
theorem of_always {program : Prog E R α} {P : List (Call E R) → α → Prop}
    (h : program.Always P) (hyld : ProgYields program calls value) : P calls value := by
  induction program generalizing P calls with
  | ret =>
    obtain ⟨rfl, rfl⟩ := hyld
    exact h
  | call e _ ih =>
    obtain ⟨response, _, rfl, hr⟩ := hyld
    exact ih response (P := fun calls value => P (⟨e, response⟩ :: calls) value) (h response) hr

/-- The calls, the result and the last state of a procedure under some answers. -/
def Procedure.Yields (s : σ) (calls : List (Call E R)) (result : Except ε α) (t : σ) : Prop :=
  ProgYields (procedure.start s) calls (result, t)

/-- The calls and the value of a program whose effects a function answers. -/
def answered (answers : (e : E) → R e) : Prog E R α → List (Call E R) × α
  | .ret value => ([], value)
  | .call e next =>
    let (calls, value) := answered answers (next (answers e))
    (⟨e, answers e⟩ :: calls, value)

/-- Given answers make an outcome. -/
theorem yields_answered (answers : (e : E) → R e) (program : Prog E R α) :
    ProgYields program (answered answers program).1 (answered answers program).2 := by
  induction program with
  | ret => exact ⟨rfl, rfl⟩
  | call e _ ih => exact ⟨_, _, rfl, ih _⟩

/-- Every call got the given answer. -/
theorem answered_calls (answers : (e : E) → R e) (program : Prog E R α) :
    ∀ call ∈ (answered answers program).1, call.2 = answers call.1 := by
  induction program with
  | ret => exact fun call hc => absurd hc (not_mem_nil)
  | call e _ ih =>
    intro call hc
    rcases mem_cons.1 hc with rfl | hc
    · rfl
    · exact ih _ call hc

/-! ## Weakest preconditions -/

/-- Every outcome of a procedure satisfies a condition on its calls, its result and its state. -/
def wp (s : σ) (Q : List (Call E R) → Except ε α → σ → Prop) : Prop :=
  (procedure.start s).Always fun calls outcome => Q calls outcome.1 outcome.2

variable {Q Q' : List (Call E R) → Except ε α → σ → Prop} {s : σ} {procedure : Procedure E R σ ε α}

/-- A precondition holds of every outcome. -/
theorem yields_of_wp {result : Except ε α} {t : σ} (h : wp procedure s Q)
    (hyld : procedure.Yields s calls result t) : Q calls result t :=
  of_always h hyld

theorem wp_mono (h : wp procedure s Q) (hQ : ∀ calls result t, Q calls result t →
    Q' calls result t) : wp procedure s Q' :=
  h.mono fun _ _ => hQ _ _ _

@[simp] theorem wp_pure : wp (pure value : Procedure E R σ ε α) s Q ↔ Q [] (.ok value) s :=
  Iff.rfl

@[simp] theorem wp_throw {error : ε} :
    wp (throw error : Procedure E R σ ε α) s Q ↔ Q [] (.error error) s :=
  Iff.rfl

@[simp] theorem wp_check {value : Except ε α} :
    wp (check value : Procedure E R σ ε α) s Q ↔ Q [] value s :=
  Iff.rfl

@[simp] theorem wp_read {Q : List (Call E R) → Except ε σ → σ → Prop} :
    wp (read : Procedure E R σ ε σ) s Q ↔ Q [] (.ok s) s :=
  Iff.rfl

@[simp] theorem wp_update {f : σ → σ} {Q : List (Call E R) → Except ε Unit → σ → Prop} :
    wp (update f : Procedure E R σ ε Unit) s Q ↔ Q [] (.ok ()) (f s) :=
  Iff.rfl

@[simp] theorem wp_effect {e : E} {Q : List (Call E R) → Except ε (R e) → σ → Prop} :
    wp (effect e : Procedure E R σ ε (R e)) s Q ↔ ∀ response, Q [⟨e, response⟩] (.ok response) s :=
  Iff.rfl

/-- Sequencing of programs appends their calls. -/
theorem always_bind {first : Prog E R α} {next : α → Prog E R β}
    {P : List (Call E R) → β → Prop} : (first >>= next).Always P ↔ first.Always fun calls value =>
      (next value).Always fun calls' result => P (calls ++ calls') result := by
  induction first generalizing P with
  | ret value => exact Iff.rfl
  | call e _ ih =>
    exact forall_congr' fun response => ih response

/-- What the rest of a sequence has to satisfy once its first part has returned. -/
def afterwards (next : α → Procedure E R σ ε β) (Q : List (Call E R) → Except ε β → σ → Prop)
    (calls : List (Call E R)) (result : Except ε α) (t : σ) : Prop :=
  match result with
  | .ok value => wp (next value) t fun calls' => Q (calls ++ calls')
  | .error error => Q calls (.error error) t

variable {next : α → Procedure E R σ ε β} {Q : List (Call E R) → Except ε β → σ → Prop}

@[simp] theorem afterwards_ok {t : σ} :
    afterwards next Q calls (.ok value) t ↔ wp (next value) t fun calls' => Q (calls ++ calls') :=
  Iff.rfl

@[simp] theorem afterwards_error {error : ε} {t : σ} :
    afterwards next Q calls (.error error) t ↔ Q calls (.error error) t :=
  Iff.rfl

/-- A sequence fails with the first error, or goes on from the state it has reached. -/
@[simp] theorem wp_bind {first : Procedure E R σ ε α} :
    wp (first >>= next) s Q ↔ wp first s (afterwards next Q) := by
  have hsta : (first >>= next).start s = first.start s >>= fun outcome =>
      match outcome with
      | (.ok value, t) => (next value).start t
      | (.error error, t) => pure (.error error, t) := by
    refine congrArg (first.start s >>= ·) (funext fun outcome => ?_)
    obtain ⟨result | result, t⟩ := outcome <;> rfl
  rw [wp, hsta, always_bind]
  refine iff_of_eq (congrArg _ (funext fun _ => funext fun outcome => ?_))
  obtain ⟨result | result, t⟩ := outcome
  · exact propext ⟨fun h => by simpa using h, fun h => by simpa using h⟩
  · rfl

/-- An attempt succeeds with the result it had. -/
@[simp] theorem wp_attempt {Q : List (Call E R) → Except ε (Except ε α) → σ → Prop} :
    wp (attempt procedure) s Q ↔ wp procedure s fun calls result => Q calls (.ok result) := by
  have hb : (attempt procedure).start s =
      procedure.start s >>= fun outcome => .ret (.ok outcome.1, outcome.2) := rfl
  rw [wp, hb, always_bind, wp]
  refine iff_of_eq (congrArg _ (funext fun calls => funext fun outcome => ?_))
  show Q (calls ++ []) (.ok outcome.1) outcome.2 = _
  rw [append_nil]

/-! ## The first step of a sequence -/

variable {Q : List (Call E R) → Except ε β → σ → Prop}

theorem wp_read_bind {next : σ → Procedure E R σ ε β} :
    wp (read >>= next) s Q ↔ wp (next s) s Q := by
  rw [wp_bind]
  exact Iff.rfl

theorem wp_update_bind {f : σ → σ} {next : Unit → Procedure E R σ ε β} :
    wp (update f >>= next) s Q ↔ wp (next ()) (f s) Q := by
  rw [wp_bind]
  exact Iff.rfl

/-- A check ends the procedure with its error, or goes on with its value. -/
theorem wp_check_bind {value : Except ε α} : wp (check value >>= next) s Q ↔
    (∀ error, value = .error error → Q [] (.error error) s) ∧
      ∀ result, value = .ok result → wp (next result) s Q := by
  rw [wp_bind, wp_check]
  cases value with
  | error | ok => simp

theorem wp_effect_bind {e : E} {next : R e → Procedure E R σ ε β} : wp (effect e >>= next) s Q ↔
    ∀ response, wp (next response) s fun calls => Q (⟨e, response⟩ :: calls) := by
  rw [wp_bind]
  exact Iff.rfl

/-- Two conditions on the outcomes hold together. -/
theorem wp_and {procedure : Procedure E R σ ε β} {Q' : List (Call E R) → Except ε β → σ → Prop}
    (h : wp procedure s Q) (h' : wp procedure s Q') :
    wp procedure s fun calls result t => Q calls result t ∧ Q' calls result t := by
  have hall : ∀ (program : Prog E R (Except ε β × σ))
      {P P' : List (Call E R) → Except ε β × σ → Prop}, program.Always P → program.Always P' →
        program.Always fun calls outcome => P calls outcome ∧ P' calls outcome := by
    intro program
    induction program with
    | ret outcome => exact fun hP hP' => ⟨hP, hP'⟩
    | call e _ ih => exact fun hP hP' response => ih response (hP response) (hP' response)
  exact hall _ h h'

/-- Nothing is asked of the outcomes. -/
theorem wp_trivial (procedure : Procedure E R σ ε α) (s : σ) :
    wp procedure s fun _ _ _ => True := by
  have hall : ∀ program : Prog E R (Except ε α × σ), program.Always fun _ _ => True := by
    intro program
    induction program with
    | ret => trivial
    | call e _ ih => exact ih
  exact hall _

end Procedures
