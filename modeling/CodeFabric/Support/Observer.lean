import CodeFabric.Support.Procedure

/-! # Procedures under an observer

An observer follows the calls of a procedure with a state of its own and says which effects may be
performed in which of its states. What the observer keeps holds after every prefix of the calls, so
also where a procedure is stopped halfway. -/

namespace Procedures

open Interleaving

variable {E : Type} {R : E → Type} {γ σ ε α β : Type}

/-- A state that follows calls, and the effects permitted in it. -/
structure Observer (E : Type) (R : E → Type) (γ : Type) where
  observe : γ → Call E R → γ
  Permits : γ → E → Prop

namespace Observer

variable {observer : Observer E R γ} {seen : γ} {calls : List (Call E R)} {call : Call E R}

/-- What has been observed after some calls. -/
def after (observer : Observer E R γ) (seen : γ) (calls : List (Call E R)) : γ :=
  calls.foldl observer.observe seen

@[simp] theorem after_nil : observer.after seen [] = seen := rfl

@[simp] theorem after_cons :
    observer.after seen (call :: calls) = observer.after (observer.observe seen call) calls := rfl

@[simp] theorem after_append {calls' : List (Call E R)} :
    observer.after seen (calls ++ calls') = observer.after (observer.after seen calls) calls' :=
  List.foldl_append

/-- Every call was permitted when it was made. -/
def Guarded (observer : Observer E R γ) : γ → List (Call E R) → Prop
  | _, [] => True
  | seen, call :: calls =>
    observer.Permits seen call.1 ∧ observer.Guarded (observer.observe seen call) calls

@[simp] theorem guarded_nil : observer.Guarded seen [] := trivial

@[simp] theorem guarded_cons : observer.Guarded seen (call :: calls) ↔
    observer.Permits seen call.1 ∧ observer.Guarded (observer.observe seen call) calls := Iff.rfl

theorem guarded_append {calls' : List (Call E R)} : observer.Guarded seen (calls ++ calls') ↔
    observer.Guarded seen calls ∧ observer.Guarded (observer.after seen calls) calls' := by
  induction calls generalizing seen with
  | nil => simp
  | cons call calls ih => simp [ih, and_assoc]

/-- A call in the middle of a guarded list was permitted after the calls before it. -/
theorem Guarded.permits {past future : List (Call E R)}
    (h : observer.Guarded seen (past ++ call :: future)) :
    observer.Permits (observer.after seen past) call.1 :=
  (guarded_append.1 h).2.1

/-- **Invariant rule.** What every permitted call preserves holds after a guarded list. -/
theorem Guarded.invariant {P : γ → Prop} (h : observer.Guarded seen calls)
    (hst : ∀ seen call, P seen → observer.Permits seen call.1 → P (observer.observe seen call))
    (hsn : P seen) : P (observer.after seen calls) := by
  induction calls generalizing seen with
  | nil => exact hsn
  | cons call calls ih => exact ih h.2 (hst _ _ hsn h.1)

end Observer

/-! ## Safe procedures -/

variable {observer : Observer E R γ} {seen : γ} {s : σ} {procedure : Procedure E R σ ε α}
  {Q : α → γ → σ → Prop}

/-- Whatever the answers, every call is permitted, and a returned value satisfies a condition with
the observed state and the state of the procedure. -/
def Safe (observer : Observer E R γ) (procedure : Procedure E R σ ε α) (seen : γ) (s : σ)
    (Q : α → γ → σ → Prop) : Prop :=
  wp procedure s fun calls result t => observer.Guarded seen calls ∧
    ∀ value, result = .ok value → Q value (observer.after seen calls) t

theorem Safe.mono {Q Q' : α → γ → σ → Prop}
    (h : Safe observer procedure seen s Q) (hQ : ∀ value seen t, Q value seen t → Q' value seen t) :
    Safe observer procedure seen s Q' :=
  wp_mono h fun _ _ _ h => ⟨h.1, fun value hval => hQ _ _ _ (h.2 value hval)⟩

protected theorem Safe.pure {value : α} (h : Q value seen s) :
    Safe observer (pure value : Procedure E R σ ε α) seen s Q := by
  refine wp_pure.2 ⟨trivial, ?_⟩
  rintro _ ⟨⟩
  exact h

protected theorem Safe.throw {error : ε} :
    Safe observer (throw error : Procedure E R σ ε α) seen s Q :=
  wp_throw.2 ⟨trivial, nofun⟩

protected theorem Safe.check {value : Except ε α}
    (h : ∀ result, value = .ok result → Q result seen s) :
    Safe observer (check value : Procedure E R σ ε α) seen s Q :=
  wp_check.2 ⟨trivial, h⟩

protected theorem Safe.update {f : σ → σ} {Q : Unit → γ → σ → Prop} (h : Q () seen (f s)) :
    Safe observer (update f : Procedure E R σ ε Unit) seen s Q :=
  wp_update.2 ⟨trivial, fun _ _ => h⟩

protected theorem Safe.effect {e : E} {Q : R e → γ → σ → Prop} (hp : observer.Permits seen e)
    (h : ∀ response, Q response (observer.observe seen ⟨e, response⟩) s) :
    Safe observer (effect e : Procedure E R σ ε (R e)) seen s Q := by
  refine wp_effect.2 fun response => ⟨⟨hp, trivial⟩, ?_⟩
  rintro _ ⟨⟩
  exact h response

/-- **Sequencing.** The rest of a sequence is safe from wherever its first part returned. -/
protected theorem Safe.bind {first : Procedure E R σ ε α} {next : α → Procedure E R σ ε β}
    {Q : β → γ → σ → Prop}
    (h : Safe observer first seen s fun value seen t => Safe observer (next value) seen t Q) :
    Safe observer (first >>= next) seen s Q := by
  refine wp_bind.2 (wp_mono h fun calls result t hfst => ?_)
  cases result with
  | error error => exact ⟨hfst.1, nofun⟩
  | ok value =>
    refine afterwards_ok.2 (wp_mono (hfst.2 value rfl) fun calls' result t hn => ?_)
    refine ⟨Observer.guarded_append.2 ⟨hfst.1, hn.1⟩, fun value hval => ?_⟩
    rw [Observer.after_append]
    exact hn.2 value hval

theorem Safe.read_bind {next : σ → Procedure E R σ ε β} {Q : β → γ → σ → Prop}
    (h : Safe observer (next s) seen s Q) : Safe observer (read >>= next) seen s Q :=
  wp_read_bind.2 h

/-- An attempt is safe if the procedure is, and if nothing is asked of an error. -/
protected theorem Safe.attempt {Q : Except ε α → γ → σ → Prop}
    (h : Safe observer procedure seen s fun value => Q (.ok value))
    (he : ∀ error seen t, Q (.error error) seen t) :
    Safe observer (attempt procedure) seen s Q := by
  refine wp_attempt.2 (wp_mono h fun calls result t hres => ⟨hres.1, ?_⟩)
  rintro _ ⟨⟩
  cases result with
  | error error => exact he _ _ _
  | ok value => exact hres.2 value rfl

end Procedures
