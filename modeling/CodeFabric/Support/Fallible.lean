import Mathlib.Tactic

/-! # Fallible computations

Guards, option lifting and overflow-checked addition for code that returns an error instead of a
value, with the inversion lemma of each: what is known once the computation returned `ok`. -/

namespace Fallible

open List

universe u v

variable {ε : Type u} {α β : Type v} {error : ε}

theorem one_lt_width : 1 < 2 ^ 64 := by decide

/-- Return an error unless a decidable condition holds. -/
def ensure (condition : Prop) [Decidable condition] (error : ε) : Except ε Unit :=
  if condition then .ok () else .error error

/-- A guard succeeds exactly when its condition holds. -/
@[simp] theorem ensure_eq_ok {condition : Prop} [Decidable condition] {done : Unit} :
    ensure condition error = .ok done ↔ condition := by
  unfold ensure
  split <;> simp_all

/-- Turn a missing value into an error. -/
def okOr (value : Option α) (error : ε) : Except ε α :=
  match value with
  | some result => .ok result
  | none => .error error

/-- A lifted option succeeds exactly with the value it holds. -/
@[simp] theorem okOr_eq_ok {value : Option α} {result : α} :
    okOr value error = .ok result ↔ value = some result := by
  cases value <;> simp [okOr]

/-- Addition of two `width`-bit numbers, failing on overflow. -/
def checkedAdd (width left right : Nat) : Option Nat :=
  if left + right < 2 ^ width then some (left + right) else none

/-- Checked addition returns the exact sum, and only when it fits. -/
@[simp] theorem checkedAdd_eq_some {width left right sum : Nat} :
    checkedAdd width left right = some sum ↔ left + right < 2 ^ width ∧ left + right = sum := by
  unfold checkedAdd
  split <;> simp_all

/-- Subtraction failing on underflow. -/
def checkedSub (left right : Nat) : Option Nat :=
  if right ≤ left then some (left - right) else none

/-- Checked subtraction returns the exact difference, and only when it is not negative. -/
@[simp] theorem checkedSub_eq_some {left right difference : Nat} :
    checkedSub left right = some difference ↔ difference + right = left := by
  unfold checkedSub
  split
  · simp only [Option.some.injEq]; omega
  · simp only [false_iff, reduceCtorEq]; omega

/-- Multiplication of two `width`-bit numbers, failing on overflow. -/
def checkedMul (width left right : Nat) : Option Nat :=
  if left * right < 2 ^ width then some (left * right) else none

/-- Renaming the error does not change when a computation succeeds. -/
@[simp] theorem mapError_eq_ok {ε' : Type u} {value : Except ε α} {rename : ε → ε'}
    {result : α} : value.mapError rename = .ok result ↔ value = .ok result := by
  cases value <;> simp [Except.mapError]

/-- A mapped computation succeeds exactly when the computation does. -/
@[simp] theorem map_eq_ok {value : Except ε α} {f : α → β} {result : β} :
    value.map f = .ok result ↔ ∃ a, value = .ok a ∧ f a = result := by
  cases value <;> simp [Except.map]

/-- A sequenced computation succeeds exactly when both of its parts do. -/
@[simp] theorem bind_eq_ok {first : Except ε α} {next : α → Except ε β} {result : β} :
    (first >>= next) = .ok result ↔ ∃ value, first = .ok value ∧ next value = .ok result := by
  cases first with
  | error | ok => simp [bind, Except.bind]

/-- Returning a value succeeds with that value. -/
@[simp] theorem pure_eq_ok {value result : α} :
    (pure value : Except ε α) = .ok result ↔ value = result := by
  simp [pure, Except.pure]

/-- A thrown error is never a success. -/
@[simp] theorem throw_ne_ok {result : α} : (throw error : Except ε α) = .ok result ↔ False := by
  simp [throw, throwThe, MonadExceptOf.throw]

/-- **Inversion of a `do` block**: its steps' rules as one set, for `simp only`. -/
theorem ok_iff : (∀ (ε α β : Type) (first : Except ε α) (next : α → Except ε β) result,
      (first >>= next) = .ok result ↔ ∃ value, first = .ok value ∧ next value = .ok result) ∧
    (∀ (ε α : Type) value result, (pure value : Except ε α) = .ok result ↔ value = result) ∧
    (∀ (ε : Type) (error : ε) condition [Decidable condition] done,
      ensure condition error = .ok done ↔ condition) ∧
    ∀ (ε α : Type) (error : ε) (value : Option α) result,
      okOr value error = .ok result ↔ value = some result :=
  ⟨fun _ _ _ _ _ _ => bind_eq_ok, fun _ _ _ _ => pure_eq_ok, fun _ _ _ _ _ => ensure_eq_ok,
    fun _ _ _ _ _ => okOr_eq_ok⟩

variable {f : α → Except ε β} {results : List β} {values : List α}

/-- A fallible map succeeds exactly when it succeeds on every element. -/
theorem mapM_eq_ok : values.mapM f = .ok results ↔
    List.Forall₂ (fun value result => f value = .ok result) values results := by
  induction values generalizing results with
  | nil =>
    rw [mapM_nil, pure_eq_ok, forall₂_nil_left_iff]
    exact eq_comm
  | cons value values ih =>
    simp only [mapM_cons, bind_eq_ok, pure_eq_ok, ih, forall₂_cons_left_iff]
    constructor
    · rintro ⟨result, hres, tail, ht, rfl⟩
      exact ⟨result, tail, hres, ht, rfl⟩
    · rintro ⟨result, tail, hres, ht, rfl⟩
      exact ⟨result, hres, tail, ht, rfl⟩

/-- A successful fallible map succeeded on each element. -/
theorem exists_of_mapM_eq_ok (h : values.mapM f = .ok results) {value : α}
    (hval : value ∈ values) : ∃ result ∈ results, f value = .ok result := by
  have hf := mapM_eq_ok.1 h
  induction hf with
  | nil => simp at hval
  | cons hh ht ih =>
    rcases List.mem_cons.1 hval with rfl | hmem
    · exact ⟨_, mem_cons_self, hh⟩
    · obtain ⟨result, hres, hok⟩ := ih (mapM_eq_ok.2 ht) hmem
      exact ⟨result, mem_cons_of_mem _ hres, hok⟩

/-- A fallible map of a guarded function is a guarded map. -/
theorem mapM_eq_ok_of {P : α → Prop} {g : α → β}
    (h : ∀ value result, f value = .ok result ↔ P value ∧ result = g value) :
    values.mapM f = .ok results ↔ (∀ value ∈ values, P value) ∧ results = values.map g := by
  induction values generalizing results with
  | nil =>
    rw [mapM_nil, pure_eq_ok, map_nil]
    exact ⟨fun h => ⟨by simp, h.symm⟩, fun h => h.2.symm⟩
  | cons value values ih =>
    simp only [mapM_cons, bind_eq_ok, pure_eq_ok, h, ih, forall_mem_cons, map_cons]
    constructor
    · rintro ⟨_, ⟨hval, rfl⟩, _, ⟨hvs, rfl⟩, rfl⟩
      exact ⟨⟨hval, hvs⟩, rfl⟩
    · rintro ⟨⟨hval, hvs⟩, rfl⟩
      exact ⟨_, ⟨hval, rfl⟩, _, ⟨hvs, rfl⟩, rfl⟩

/-- Where `f` inverts `g`, the fallible map of `f` inverts the fallible map of `g`. -/
theorem mapM_inverse {g : β → Except ε α} {P : β → Prop}
    (h : ∀ value ∈ values, ∀ result, f value = .ok result ↔ P result ∧ g result = .ok value) :
    values.mapM f = .ok results ↔ (∀ result ∈ results, P result) ∧ results.mapM g = .ok values := by
  simp only [mapM_eq_ok]
  induction values generalizing results with
  | nil => cases results <;> simp
  | cons value values ih =>
    obtain ⟨hval, hvs⟩ := List.forall_mem_cons.1 h
    cases results with
    | nil => simp
    | cons result results =>
      rw [forall₂_cons, forall₂_cons, hval, ih hvs, forall_mem_cons]
      exact and_and_and_comm

/-- A failed sequence failed in one of its parts. -/
theorem bind_eq_error {first : Except ε α} {next : α → Except ε β} {failure : ε}
    (h : (first >>= next) = .error failure) :
    first = .error failure ∨ ∃ value, first = .ok value ∧ next value = .error failure := by
  cases first with
  | error error => exact .inl (congrArg _ (Except.error.inj h))
  | ok value => exact .inr ⟨value, rfl, h⟩

/-- A guard fails only with its error, when its condition does not hold. -/
theorem ensure_eq_error {condition : Prop} [Decidable condition] {failure : ε}
    (h : ensure condition error = .error failure) : failure = error ∧ ¬condition := by
  unfold ensure at h
  split at h
  · cases h
  · exact ⟨(Except.error.inj h).symm, by assumption⟩

/-- A lifted option fails only with its error, when there is no value. -/
theorem okOr_eq_error {value : Option α} {failure : ε} (h : okOr value error = .error failure) :
    failure = error ∧ value = none := by
  cases value with
  | none => exact ⟨(Except.error.inj h).symm, rfl⟩
  | some result => cases h

variable {values : List α} {check : α → Except ε Unit}

/-- A loop of checks succeeds exactly when every check does. -/
@[simp] theorem forM_eq_ok {done : Unit} :
    values.forM check = .ok done ↔ ∀ value ∈ values, check value = .ok () := by
  induction values with
  | nil => simp [pure, Except.pure]
  | cons value values ih =>
    show (check value >>= fun _ => values.forM check) = _ ↔ _
    rw [bind_eq_ok, List.forall_mem_cons, ← ih]
    exact ⟨fun ⟨_, h⟩ => h, fun h => ⟨(), h⟩⟩

/-- A loop of checks fails only where one of them does. -/
theorem forM_eq_error {failure : ε}
    (h : values.forM check = .error failure) : ∃ value ∈ values, check value = .error failure := by
  induction values with
  | nil => cases h
  | cons value values ih =>
    have h : (check value >>= fun _ => values.forM check) = .error failure := h
    obtain hh | ⟨_, -, ht⟩ := bind_eq_error h
    · exact ⟨value, List.mem_cons_self, hh⟩
    · obtain ⟨other, ho, hchk⟩ := ih ht
      exact ⟨other, List.mem_cons_of_mem _ ho, hchk⟩

/-- A fallible fold fails exactly at the first step that does. -/
theorem foldlM_eq_error_iff {σ : Type*} {step : σ → α → Except ε σ} {start : σ} {failure : ε} :
    values.foldlM step start = .error failure ↔ ∃ before value after state,
      values = before ++ value :: after ∧ before.foldlM step start = .ok state ∧
        step state value = .error failure := by
  induction values generalizing start with
  | nil => simp [pure, Except.pure]
  | cons head values ih =>
    constructor
    · intro h
      rw [List.foldlM_cons] at h
      obtain hhead | ⟨next, hnext, h⟩ := bind_eq_error h
      · exact ⟨[], head, values, start, rfl, rfl, hhead⟩
      · obtain ⟨before, value, after, state, rfl, hbefore, hfail⟩ := ih.1 h
        refine ⟨head :: before, value, after, state, rfl, ?_, hfail⟩
        rw [List.foldlM_cons, hnext]
        exact hbefore
    · rintro ⟨before, value, after, state, hsplit, hbefore, hfail⟩
      rw [hsplit, List.foldlM_append, hbefore]
      show (List.cons value after).foldlM step state = _
      rw [List.foldlM_cons, hfail]
      rfl

/-- A fallible fold fails only where one of its steps does. -/
theorem foldlM_eq_error {σ : Type*} {step : σ → α → Except ε σ} {start : σ}
    {failure : ε} (h : values.foldlM step start = .error failure) :
    ∃ state, ∃ value ∈ values, step state value = .error failure := by
  obtain ⟨before, value, after, state, rfl, -, hfail⟩ := foldlM_eq_error_iff.1 h
  exact ⟨state, value, List.mem_append_right _ List.mem_cons_self, hfail⟩

end Fallible
