import CodeFabric.Budget.Books
import CodeFabric.Support.Run

/-! # Handles, reservations and native accounts

The values that hold capacity, and every operation on them. A scope lives as long as something
refers to it: a handle, a reservation or an account it owns, or a child scope. The live values are
multisets, and an operation names the value it acts on; whoever holds a value may use it, so the
operations of all threads interleave freely.

**`Step`** is one operation with its result. -/

namespace CodeFabric.Budget

open Fallible

/-! ## Amounts -/

/-- The sum of two amounts, if it fits 64 bits in every dimension. -/
def ResourceAmounts.checkedAdd (current extra : ResourceAmounts) : Option ResourceAmounts :=
  if h : ∀ dimension ∈ ResourceDimension.all,
      current.values dimension + extra.values dimension < 2 ^ 64 then
    some ⟨fun dimension => current.values dimension + extra.values dimension,
      fun dimension => h dimension (ResourceDimension.mem_all dimension)⟩
  else none

/-- The difference of two amounts, if it is not negative in any dimension. -/
def ResourceAmounts.checkedSub (current freed : ResourceAmounts) : Option ResourceAmounts :=
  if ∀ dimension ∈ ResourceDimension.all, freed.values dimension ≤ current.values dimension then
    some ⟨fun dimension => current.values dimension - freed.values dimension,
      fun dimension => (Nat.sub_le _ _).trans_lt (current.lt_width dimension)⟩
  else none

def ResourceAmounts.MemoryOnly (amounts : ResourceAmounts) : Prop :=
  ∀ dimension ∈ ResourceDimension.all, dimension ≠ .memoryBytes → amounts.values dimension = 0
  deriving Decidable

/-- The capacity a workspace reserves for its index, if it fits 64 bits. The 128-bit additions and
multiplications before that cannot overflow. -/
def bookkeepingBytes (policy : ResourceBudgetPolicy) : Option ResourceAmounts :=
  if h : (childScopeCapacity policy + 1) * 4096 < 2 ^ 64 then some (.memory _ h) else none

/-! ## Live values -/

/-- A linear capacity owner. -/
@[ext] structure ResourceReservation where
  owner : Nat
  resourceClass : ResourceClass
  amounts : ResourceAmounts

-- a derived instance would not evaluate: equal amounts are different functions
instance : DecidableEq ResourceReservation := fun left right =>
  decidable_of_iff (left.owner = right.owner ∧ left.resourceClass = right.resourceClass ∧
    left.amounts = right.amounts) ResourceReservation.ext_iff.symm

/-- A native memory owner, which may owe more than its limits. -/
structure NativeMemoryAccount where
  owner : Nat
  resourceClass : ResourceClass
  bytes : Nat
  deriving DecidableEq

/-- The live values of one process root. -/
structure State where
  ledger : Ledger
  /-- The handles in use, by the token of their scope. -/
  handles : Multiset Nat
  reservations : Multiset ResourceReservation
  /-- The reservations in the bookkeeping slots, with the scope whose slot it is. -/
  bookkeeping : Multiset (Nat × ResourceReservation)
  accounts : Multiset NativeMemoryAccount

def tryProcess (id : Vector UInt8 16) (policy : ResourceBudgetPolicy) : Except Failure State := do
  let policy ← policy.validate
  ensure (id ≠ Vector.replicate 16 0) (.error .invalidIdentity)
  return ⟨.process ⟨.process, id⟩ policy, {0}, 0, 0, 0⟩

variable (state : State) (token : Nat) (reservation : ResourceReservation)
  (account : NativeMemoryAccount)

/-- A handle of the scope can be used: a handle itself, or the one inside a reservation. -/
def State.Reaches : Prop :=
  token ∈ state.handles ∨ token ∈ state.reservations.map ResourceReservation.owner
  deriving Decidable

/-- Nothing refers to the scope any more. -/
def State.Free : Prop :=
  token ∉ state.handles ∧ token ∉ state.reservations.map ResourceReservation.owner ∧
    token ∉ state.bookkeeping.map (fun slot => slot.2.owner) ∧
    token ∉ state.accounts.map NativeMemoryAccount.owner ∧ state.ledger.liveChildren token = ∅
  deriving Decidable

/-! ## Scopes -/

/-- Create a scope below a live one, with a handle of it. -/
def State.child (state : State) (token : Nat) (required kind : ResourceScopeKind)
    (id : Vector UInt8 16) (policy : ResourceBudgetPolicy) : Except Failure State := do
  let ledger ← state.ledger.child token required kind id policy
  return { state with ledger := ledger, handles := state.ledger.next ::ₘ state.handles }

def State.workspace (state : State) (token : Nat) : Vector UInt8 16 → ResourceBudgetPolicy →
    Except Failure State :=
  state.child token .process .workspace

def State.operation (state : State) (token : Nat) : Vector UInt8 16 → ResourceBudgetPolicy →
    Except Failure State :=
  state.child token .workspace .operation

/-- Pre-admit a workspace's index capacity at its parent, once. -/
def State.reserveScopeBookkeeping : Except Failure State := do
  let node ← okOr (state.ledger.nodes token) .missingNode
  ensure (node.owner.kind = .workspace) (.error .invalidHierarchy)
  if token ∈ state.bookkeeping.map Prod.fst then
    return state
  else
    let amounts ← okOr (bookkeepingBytes node.policy.toResourceBudgetPolicy) (.error .overflow)
    let parent ← okOr node.parent (.error .invalidHierarchy)
    let ledger ← state.ledger.add parent .data amounts.values true
    return { state with
      ledger := ledger
      bookkeeping := (token, ⟨parent, .data, amounts⟩) ::ₘ state.bookkeeping }

/-- The last reference to a scope is gone: its node is removed, and its fields, the handle of its
parent and the bookkeeping reservation, are dropped next. -/
def State.dropScope (state : State) (token : Nat) : Except Failure State := do
  let ledger ← state.ledger.dropScope token
  return { state with
    ledger := ledger
    handles := (state.ledger.up token).join.toList + state.handles
    reservations :=
      (state.bookkeeping.filter fun slot => slot.1 = token).map Prod.snd + state.reservations
    bookkeeping := state.bookkeeping.filter fun slot => slot.1 ≠ token }

/-! ## Reservations -/

/-- Reserve at every ancestor before work begins. -/
def State.tryReserve (resourceClass : ResourceClass)
    (amounts : ResourceAmounts) : Except Failure State := do
  let ledger ← state.ledger.add token resourceClass amounts.values true
  return { state with
    ledger := ledger
    reservations := ⟨token, resourceClass, amounts⟩ ::ₘ state.reservations }

/-- Add capacity before additional work. -/
def State.tryGrow (additional : ResourceAmounts) : Except Failure State := do
  let amounts ← okOr (reservation.amounts.checkedAdd additional) (.error .overflow)
  let ledger ← state.ledger.add reservation.owner reservation.resourceClass additional.values true
  return { state with
    ledger := ledger
    reservations :=
      { reservation with amounts := amounts } ::ₘ state.reservations.erase reservation }

def State.shrink (freed : ResourceAmounts) : Except Failure State := do
  let amounts ← okOr (reservation.amounts.checkedSub freed) (.error .invalidShrink)
  let ledger ← state.ledger.subtract reservation.owner reservation.resourceClass freed.values
  return { state with
    ledger := ledger
    reservations :=
      { reservation with amounts := amounts } ::ₘ state.reservations.erase reservation }

/-- Move part of a charge to an independently owned lifetime. -/
def State.split (amounts : ResourceAmounts) : Except Failure State := do
  let remainder ← okOr (reservation.amounts.checkedSub amounts) (.error .invalidShrink)
  return { state with
    reservations := { reservation with amounts := amounts } ::ₘ
      { reservation with amounts := remainder } ::ₘ state.reservations.erase reservation }

def State.dropReservation : Except Failure State := do
  let ledger ← state.ledger.subtract reservation.owner reservation.resourceClass
    reservation.amounts.values
  return { state with
    ledger := ledger
    reservations := state.reservations.erase reservation }

/-- Transfer a memory reservation into a native account; what is left of the reservation, nothing,
is dropped. -/
def State.transfer : Except Failure State := do
  let ledger ← state.ledger.subtract reservation.owner reservation.resourceClass
    ResourceAmounts.zero.values
  return { state with
    ledger := ledger
    reservations := state.reservations.erase reservation
    accounts := ⟨reservation.owner, reservation.resourceClass,
      reservation.amounts.values .memoryBytes⟩ ::ₘ state.accounts }

/-! ## Native accounts -/

def State.nativeMemoryAccount (resourceClass : ResourceClass) : State :=
  { state with accounts := ⟨token, resourceClass, 0⟩ ::ₘ state.accounts }

/-- Grow a native account, within the limits if checked. -/
def State.growAccount (bytes : Nat) (checked : Bool) : Except Failure State := do
  let ledger ← state.ledger.add account.owner account.resourceClass (memoryOnly bytes) checked
  return { state with
    ledger := ledger
    accounts := { account with bytes := account.bytes + bytes } ::ₘ state.accounts.erase account }

/-- Native growth cannot report an error: it panics. -/
def State.growInfallible (bytes : Nat) : Except Failure State :=
  (state.growAccount account bytes false).mapError fun _ => .accountingOverflow

def State.shrinkAccount (bytes : Nat) : Except Failure State := do
  let ledger ← state.ledger.subtract account.owner account.resourceClass (memoryOnly bytes)
  let held ← okOr (Fallible.checkedSub account.bytes bytes) .underflow
  return { state with
    ledger := ledger
    accounts := { account with bytes := held } ::ₘ state.accounts.erase account }

def State.dropAccount : Except Failure State := do
  let ledger ← state.ledger.subtract account.owner account.resourceClass (memoryOnly account.bytes)
  return { state with
    ledger := ledger
    accounts := state.accounts.erase account }

/-! ## Operations -/

inductive Operation
  | cloneHandle (token : Nat)
  | dropHandle (token : Nat)
  | workspace (token : Nat) (id : Vector UInt8 16) (policy : ResourceBudgetPolicy)
  | operation (token : Nat) (id : Vector UInt8 16) (policy : ResourceBudgetPolicy)
  | reserveScopeBookkeeping (token : Nat)
  | tryReserve (token : Nat) (resourceClass : ResourceClass) (amounts : ResourceAmounts)
  | tryGrow (reservation : ResourceReservation) (additional : ResourceAmounts)
  | shrink (reservation : ResourceReservation) (freed : ResourceAmounts)
  | split (reservation : ResourceReservation) (amounts : ResourceAmounts)
  | intoNativeMemoryAccount (reservation : ResourceReservation)
  | dropReservation (reservation : ResourceReservation)
  | nativeMemoryAccount (token : Nat) (resourceClass : ResourceClass)
  | tryGrowAccount (account : NativeMemoryAccount) (bytes : Nat)
  | growInfallible (account : NativeMemoryAccount) (bytes : Nat)
  | shrinkAccount (account : NativeMemoryAccount) (bytes : Nat)
  | dropAccount (account : NativeMemoryAccount)
  | dropScope (token : Nat)

/-- What ownership allows: an operation uses values that are live, a native account is never shrunk
by more than it holds, and a scope goes when nothing refers to it any more. -/
def State.Enabled : Operation → Prop
  | .cloneHandle token | .workspace token _ _ | .operation token _ _
  | .reserveScopeBookkeeping token | .tryReserve token _ _ | .nativeMemoryAccount token _ =>
    state.Reaches token
  | .dropHandle token => token ∈ state.handles
  | .tryGrow reservation _ | .shrink reservation _ | .split reservation _
  | .intoNativeMemoryAccount reservation | .dropReservation reservation =>
    reservation ∈ state.reservations
  | .tryGrowAccount account _ | .growInfallible account _ | .dropAccount account =>
    account ∈ state.accounts
  | .shrinkAccount account bytes => account ∈ state.accounts ∧ bytes ≤ account.bytes
  | .dropScope token => (state.ledger.up token).isSome ∧ state.Free token

/-- A call that changes nothing when it fails. -/
def State.settle : Except Failure State → Except Failure Unit × State
  | .ok after => (.ok (), after)
  | .error failure => (.error failure, state)

def State.perform : Operation → Except Failure Unit × State
  | .cloneHandle token => (.ok (), { state with handles := token ::ₘ state.handles })
  | .dropHandle token => (.ok (), { state with handles := state.handles.erase token })
  | .workspace token id policy => state.settle (state.workspace token id policy)
  | .operation token id policy => state.settle (state.operation token id policy)
  | .reserveScopeBookkeeping token => state.settle (state.reserveScopeBookkeeping token)
  | .tryReserve token resourceClass amounts =>
    state.settle (state.tryReserve token resourceClass amounts)
  | .tryGrow reservation additional => state.settle (state.tryGrow reservation additional)
  | .shrink reservation freed => state.settle (state.shrink reservation freed)
  | .split reservation amounts => state.settle (state.split reservation amounts)
  | .intoNativeMemoryAccount reservation =>
    if reservation.amounts.MemoryOnly then state.settle (state.transfer reservation)
    else
      -- the refused reservation was consumed by the call, and is dropped with its charge
      match state.settle (state.dropReservation reservation) with
      | (.ok (), after) => (.error (.error .nonMemoryReservation), after)
      | refused => refused
  | .dropReservation reservation => state.settle (state.dropReservation reservation)
  | .nativeMemoryAccount token resourceClass =>
    (.ok (), state.nativeMemoryAccount token resourceClass)
  | .tryGrowAccount account bytes => state.settle (state.growAccount account bytes true)
  | .growInfallible account bytes => state.settle (state.growInfallible account bytes)
  | .shrinkAccount account bytes => state.settle (state.shrinkAccount account bytes)
  | .dropAccount account => state.settle (state.dropAccount account)
  | .dropScope token => state.settle (state.dropScope token)

def Step (label : Operation × Except Failure Unit) (after : State) : Prop :=
  state.Enabled label.1 ∧ state.perform label.1 = (label.2, after)

instance (state : State) : DecidablePred state.Enabled
  | .cloneHandle token | .workspace token _ _ | .operation token _ _
  | .reserveScopeBookkeeping token | .tryReserve token _ _ | .nativeMemoryAccount token _ =>
    inferInstanceAs (Decidable (state.Reaches token))
  | .dropHandle token => inferInstanceAs (Decidable (token ∈ state.handles))
  | .tryGrow reservation _ | .shrink reservation _ | .split reservation _
  | .intoNativeMemoryAccount reservation | .dropReservation reservation =>
    inferInstanceAs (Decidable (reservation ∈ state.reservations))
  | .tryGrowAccount account _ | .growInfallible account _ | .dropAccount account =>
    inferInstanceAs (Decidable (account ∈ state.accounts))
  | .shrinkAccount account bytes =>
    inferInstanceAs (Decidable (account ∈ state.accounts ∧ bytes ≤ account.bytes))
  | .dropScope token =>
    inferInstanceAs (Decidable ((state.ledger.up token).isSome ∧ state.Free token))

def State.transitions (state : State) :
    List Operation → List (Runs.Transition State (Operation × Except Failure Unit))
  | [] => []
  | operation :: rest =>
    ⟨state, (operation, (state.perform operation).1), (state.perform operation).2⟩ ::
      (state.perform operation).2.transitions rest

def State.performAll (operations : List Operation) : State :=
  operations.foldl (fun state operation => (state.perform operation).2) state

/-- Every operation of a list is allowed when its turn comes. -/
def State.EnabledAll (state : State) : List Operation → Bool
  | [] => true
  | operation :: rest =>
    state.Enabled operation && (state.perform operation).2.EnabledAll rest

theorem run_transitions {state : State} {operations : List Operation}
    (h : state.EnabledAll operations) :
    Runs.Run Step state (state.transitions operations) (state.performAll operations) := by
  induction operations generalizing state with
  | nil => exact .nil state
  | cons operation rest ih =>
    obtain ⟨hen, hr⟩ : state.Enabled operation ∧ (state.perform operation).2.EnabledAll rest := by
      simpa [State.EnabledAll] using h
    exact .cons ⟨hen, rfl⟩ (ih hr)

end CodeFabric.Budget
