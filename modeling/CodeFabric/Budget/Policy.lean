import CodeFabric.Support.Fallible

/-! # Resource quantities and policies

The finite quantities, owners and policies of `resource_budget.rs`. Arrays over the eight dimensions
are functions of the dimension; the order of the dimensions matters only for which of several
failures is reported. -/

namespace CodeFabric.Budget

open Fallible

/-! ## Dimensions and quantities -/

inductive ResourceDimension
  | memoryBytes | diskBytes | runningJobs | queuedJobs | retainedGenerations | retainedBytes
  | rows | pages
  deriving DecidableEq, Repr

def ResourceDimension.all : List ResourceDimension :=
  [.memoryBytes, .diskBytes, .runningJobs, .queuedJobs, .retainedGenerations, .retainedBytes,
    .rows, .pages]

@[simp] theorem ResourceDimension.mem_all (dimension : ResourceDimension) :
    dimension ∈ ResourceDimension.all := by
  cases dimension <;> decide

abbrev Quantities := ResourceDimension → Nat

/-- Explicit finite quantities, 64 bits each. -/
structure ResourceAmounts where
  values : Quantities
  lt_width : ∀ dimension, values dimension < 2 ^ 64

@[ext] theorem ResourceAmounts.ext {left right : ResourceAmounts}
    (h : left.values = right.values) : left = right := by
  cases left
  cases right
  congr

instance : DecidableEq ResourceAmounts := fun left right =>
  decidable_of_iff
    (∀ dimension ∈ ResourceDimension.all, left.values dimension = right.values dimension)
    ⟨fun h => ResourceAmounts.ext (funext fun dimension =>
      h dimension (ResourceDimension.mem_all _)),
      fun h _ _ => by rw [h]⟩

def ResourceAmounts.zero : ResourceAmounts := ⟨fun _ => 0, fun _ => by decide⟩

/-- Intersect limits with authorized ceilings, dimension by dimension. -/
def ResourceAmounts.intersection (amounts ceiling : ResourceAmounts) : ResourceAmounts where
  values dimension := min (amounts.values dimension) (ceiling.values dimension)
  lt_width dimension := (min_le_left _ _).trans_lt (amounts.lt_width dimension)

def memoryOnly (bytes : Nat) : Quantities
  | .memoryBytes => bytes
  | _ => 0

def ResourceAmounts.memory (bytes : Nat) (h : bytes < 2 ^ 64) : ResourceAmounts where
  values := memoryOnly bytes
  lt_width dimension := by
    cases dimension with
    | memoryBytes => exact h
    | _ => exact Nat.two_pow_pos 64

/-! ## Owners -/

inductive ResourceScopeKind
  | process | workspace | operation
  deriving DecidableEq, Repr

structure ResourceOwner where
  kind : ResourceScopeKind
  id : Vector UInt8 16
  deriving DecidableEq, Repr

/-- Data work, or control work with its own headroom. -/
inductive ResourceClass
  | data | control
  deriving DecidableEq, Repr

/-! ## Failures -/

inductive ResourceBudgetError
  | invalidIdentity
  | invalidPolicy (dimension : ResourceDimension)
  | invalidHierarchy
  | duplicateOwner
  | scopeCapacity
  | overflow
  | exhausted (owner : ResourceOwner) (dimension : ResourceDimension) (requested limit : Nat)
  | invalidShrink
  | nonMemoryReservation
  deriving DecidableEq, Repr

/-- How a call can end other than with a value: an error, or a panic of the accounting itself. -/
inductive Failure
  | error (error : ResourceBudgetError)
  /-- A node of the lineage is missing. -/
  | missingNode
  /-- A subtraction of counters went below zero. -/
  | underflow
  /-- The `expect` of an infallible growth. -/
  | accountingOverflow
  deriving DecidableEq, Repr

/-! ## Policies -/

/-- Limits and the headroom kept for control work. -/
structure ResourceBudgetPolicy where
  limits : ResourceAmounts
  controlReserve : ResourceAmounts
  deriving DecidableEq

/-- A policy whose headroom is strictly below every limit. -/
structure ValidPolicy extends ResourceBudgetPolicy where
  reserve_lt : ∀ dimension, controlReserve.values dimension < limits.values dimension
  deriving DecidableEq

variable (policy : ResourceBudgetPolicy)

/-- What `validate` rejects. -/
def ResourceBudgetPolicy.Rejects (dimension : ResourceDimension) : Prop :=
  policy.limits.values dimension = 0 ∨
    policy.limits.values dimension ≤ policy.controlReserve.values dimension
  deriving Decidable

/-- Validate finite positive limits and headroom strictly below each corresponding limit. -/
def ResourceBudgetPolicy.validate : Except Failure ValidPolicy :=
  match h : ResourceDimension.all.find? policy.Rejects with
  | some dimension => .error (.error (.invalidPolicy dimension))
  | none => .ok
      { policy with
        reserve_lt := by
          intro dimension
          have hvalid : ¬policy.Rejects dimension := by
            simpa using List.find?_eq_none.1 h dimension (ResourceDimension.mem_all dimension)
          exact not_le.1 fun hle => hvalid (.inr hle) }

theorem ResourceBudgetPolicy.validate_eq_error {policy : ResourceBudgetPolicy} {failure : Failure}
    (h : policy.validate = .error failure) : ∃ error, failure = .error error := by
  unfold ResourceBudgetPolicy.validate at h
  split at h
  · cases h
    exact ⟨_, rfl⟩
  · cases h

def childScopeCapacity : Nat :=
  policy.limits.values .runningJobs + policy.limits.values .queuedJobs +
    policy.limits.values .retainedGenerations + policy.limits.values .pages

end CodeFabric.Budget
