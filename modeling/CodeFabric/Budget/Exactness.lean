import CodeFabric.Budget.Scopes

/-! # The ledger is exact

In every run the counters of a live scope are the sums of the reservations and accounts held in its
subtree, whatever the order in which values are created, grown, split, converted and dropped. -/

namespace CodeFabric.Budget

open Fallible Runs Ledger Multiset

/-! ## The books of the live values -/

def ResourceReservation.charge (reservation : ResourceReservation) : Charge :=
  ⟨reservation.owner, reservation.resourceClass, reservation.amounts.values⟩

def NativeMemoryAccount.charge (account : NativeMemoryAccount) : Charge :=
  ⟨account.owner, account.resourceClass, memoryOnly account.bytes⟩

/-- The charges of reservations, bookkeeping slots and accounts. -/
def chargesOf (reservations : Multiset ResourceReservation)
    (bookkeeping : Multiset (Nat × ResourceReservation)) (accounts : Multiset NativeMemoryAccount) :
    Multiset Charge :=
  reservations.map ResourceReservation.charge + bookkeeping.map (fun slot => slot.2.charge) +
    accounts.map NativeMemoryAccount.charge

/-- The charges of all live reservations and native accounts. -/
def State.charges (state : State) : Multiset Charge :=
  chargesOf state.reservations state.bookkeeping state.accounts

section

variable {reservations : Multiset ResourceReservation}
  {bookkeeping : Multiset (Nat × ResourceReservation)} {accounts : Multiset NativeMemoryAccount}

@[simp] theorem chargesOf_cons_reservation (reservation : ResourceReservation) :
    chargesOf (reservation ::ₘ reservations) bookkeeping accounts =
      reservation.charge ::ₘ chargesOf reservations bookkeeping accounts := by
  simp [chargesOf]

@[simp] theorem chargesOf_cons_slot (slot : Nat × ResourceReservation) :
    chargesOf reservations (slot ::ₘ bookkeeping) accounts =
      slot.2.charge ::ₘ chargesOf reservations bookkeeping accounts := by
  simp [chargesOf]

@[simp] theorem chargesOf_cons_account (account : NativeMemoryAccount) :
    chargesOf reservations bookkeeping (account ::ₘ accounts) =
      account.charge ::ₘ chargesOf reservations bookkeeping accounts := by
  simp [chargesOf]

theorem chargesOf_erase_reservation {reservation : ResourceReservation}
    (h : reservation ∈ reservations) : chargesOf reservations bookkeeping accounts =
      reservation.charge ::ₘ chargesOf (reservations.erase reservation) bookkeeping accounts := by
  rw [← chargesOf_cons_reservation, cons_erase h]

theorem chargesOf_erase_account {account : NativeMemoryAccount} (h : account ∈ accounts) :
    chargesOf reservations bookkeeping accounts =
      account.charge ::ₘ chargesOf reservations bookkeeping (accounts.erase account) := by
  rw [← chargesOf_cons_account, cons_erase h]

theorem chargesOf_moved (moved : Nat × ResourceReservation → Prop) [DecidablePred moved] :
    chargesOf ((bookkeeping.filter moved).map Prod.snd + reservations)
        (bookkeeping.filter fun slot => ¬moved slot) accounts =
      chargesOf reservations bookkeeping accounts := by
  have hspl : bookkeeping.map (fun slot => slot.2.charge) =
      (bookkeeping.filter moved).map (fun slot => slot.2.charge) +
        (bookkeeping.filter fun slot => ¬moved slot).map (fun slot => slot.2.charge) := by
    rw [← map_add, filter_add_not]
  rw [chargesOf, chargesOf, hspl, map_add, map_map]
  simp only [Function.comp_def]
  abel

end

/-! ## Valid states -/

/-- The ledger agrees with the live values. -/
structure State.Valid (state : State) : Prop where
  exact : state.ledger.Exact state.charges
  handle_live : ∀ token ∈ state.handles, (state.ledger.up token).isSome

def Failure.Panics (failure : Failure) : Prop :=
  failure = .missingNode ∨ failure = .underflow

/-- A call ends in a valid state after a move of the ledger, or with an ordinary failure. -/
def Ends (checked : Bool) (before : Ledger) : Except Failure State → Prop
  | .ok after => after.Valid ∧ before.Moves checked after.ledger
  | .error failure => ¬failure.Panics

section

variable {checked : Bool} {before : Ledger}

theorem ends_of_error {failure : Failure} (h : ∃ error, failure = .error error) :
    Ends checked before (.error failure) := by
  obtain ⟨error, rfl⟩ := h
  simp [Ends, Failure.Panics]

theorem ends_okOr {α : Type} {value : Option α} {error : ResourceBudgetError}
    {next : α → Except Failure State}
    (h : ∀ found, value = some found → Ends checked before (next found)) :
    Ends checked before (okOr value (.error error) >>= next) := by
  cases value with
  | none => exact ends_of_error ⟨error, rfl⟩
  | some found => exact h found rfl

theorem ends_ensure {condition : Prop} [Decidable condition] {error : ResourceBudgetError}
    {next : Unit → Except Failure State} (h : condition → Ends checked before (next ())) :
    Ends checked before (ensure condition (.error error) >>= next) := by
  unfold ensure
  split
  · rename_i hcon
    exact h hcon
  · exact ends_of_error ⟨error, rfl⟩

end

/-! ## Ledger calls -/

/-- The new state holds some charges of one owner in place of others. -/
structure Replaces (state : State) (owner : Nat) (old new : Multiset Charge) (after : State) :
    Prop where
  handles : after.handles = state.handles
  charges : ∃ rest, state.charges = old + rest ∧ after.charges = new + rest
  owned : ∀ charge ∈ new, charge.owner = owner

section

variable {state after : State} {owner : Nat} {resourceClass : ResourceClass}
  {amounts : Quantities} {old new : Multiset Charge}

section

variable (h : Replaces state owner old new after)
include h

theorem Replaces.adds (hadd : Adds owner resourceClass amounts old new) :
    Adds owner resourceClass amounts state.charges after.charges := by
  obtain ⟨_, hbef, haf⟩ := h.charges
  intro _ _
  rw [hbef, haf, total_add, total_add, hadd]
  omega

theorem Replaces.adds_rev (hadd : Adds owner resourceClass amounts new old) :
    Adds owner resourceClass amounts after.charges state.charges := by
  obtain ⟨_, hbef, haf⟩ := h.charges
  intro _ _
  rw [hbef, haf, total_add, total_add, hadd]
  omega

theorem Replaces.owner_live (hv : state.Valid) (hown : (state.ledger.up owner).isSome) :
    ∀ charge ∈ after.charges, (state.ledger.up charge.owner).isSome := by
  obtain ⟨_, hbef, haf⟩ := h.charges
  intro charge hch
  rw [haf, mem_add] at hch
  obtain hnew | hr := hch
  · rwa [h.owned charge hnew]
  · refine hv.exact.owner_live charge ?_
    rw [hbef]
    exact Multiset.mem_add.2 (.inr hr)

end

section

variable (h : state.Valid) {next : Ledger → State} (hown : (state.ledger.up owner).isSome)
  (hled : ∀ ledger, (next ledger).ledger = ledger)
  (hr : ∀ ledger, Replaces state owner old new (next ledger))
include h hown hled hr

theorem State.Valid.ends_add {checked : Bool} (hads : Adds owner resourceClass amounts old new) :
    Ends checked state.ledger (do
      let ledger ← state.ledger.add owner resourceClass amounts checked
      return next ledger) := by
  have hfor := h.exact.sound.forest
  cases hadd : state.ledger.add owner resourceClass amounts checked with
  | error => exact ends_of_error (add_eq_error hfor hown hadd)
  | ok =>
    obtain ⟨hadm, rfl⟩ := (add_eq_ok hfor hown).1 hadd
    refine ⟨⟨?_, ?_⟩, ?_⟩
    · rw [hled]
      refine h.exact.charge ((hr _).owner_live h hown) ?_ ((hr _).adds hads)
      exact fun ancestor hanc node hn dimension => (hadm ancestor hanc node hn dimension).1
    · rw [hled, (hr _).handles, up_charge]
      exact h.handle_live
    · rw [hled]
      exact .charged hadm

theorem State.Valid.ends_subtract (ha : Adds owner resourceClass amounts new old) :
    Ends true state.ledger (do
      let ledger ← state.ledger.subtract owner resourceClass amounts
      return next ledger) := by
  have hcov := h.exact.covers ((hr state.ledger).adds_rev ha)
  rw [subtract_of_covers h.exact.sound.forest hown hcov]
  refine ⟨⟨?_, ?_⟩, ?_⟩
  · rw [hled]
    exact h.exact.release ((hr _).owner_live h hown) ((hr _).adds_rev ha)
  · rw [hled, (hr _).handles, up_without]
    exact h.handle_live
  · rw [hled]
    exact .released

end

theorem State.Valid.exchange (h : state.Valid) (hown : (state.ledger.up owner).isSome)
    (hled : after.ledger = state.ledger) (hr : Replaces state owner old new after)
    (hs : ∀ counts dimension, total counts new dimension = total counts old dimension) :
    after.Valid ∧ state.ledger.Moves true after.ledger := by
  obtain ⟨_, hbef, haf⟩ := hr.charges
  refine ⟨⟨?_, ?_⟩, ?_⟩
  · rw [hled]
    refine h.exact.exchange (hr.owner_live h hown) fun counts dimension => ?_
    rw [hbef, haf, total_add, total_add, hs]
  · rw [hled, hr.handles]
    exact h.handle_live
  · rw [hled]
    exact .same

end

/-! ## Every operation -/

open ResourceReservation

section

variable {state : State} {token : Nat} {reservation : ResourceReservation}
  {account : NativeMemoryAccount}

theorem State.Valid.live_of_reaches (h : state.Valid) (hrch : state.Reaches token) :
    (state.ledger.up token).isSome := by
  obtain hh | hres := hrch
  · exact h.handle_live token hh
  · obtain ⟨reservation, hmem, rfl⟩ := Multiset.mem_map.1 hres
    refine h.exact.owner_live reservation.charge ?_
    rw [State.charges, chargesOf_erase_reservation hmem]
    exact mem_cons_self _ _

theorem State.Valid.live_of_reservation (h : state.Valid)
    (hmem : reservation ∈ state.reservations) :
    (state.ledger.up reservation.owner).isSome :=
  h.live_of_reaches (.inr (mem_map_of_mem _ hmem))

theorem State.Valid.live_of_account (h : state.Valid) (hmem : account ∈ state.accounts) :
    (state.ledger.up account.owner).isSome := by
  refine h.exact.owner_live account.charge ?_
  rw [State.charges, chargesOf_erase_account hmem]
  exact mem_cons_self _ _

variable {after : State}

theorem replaces_reservation (hmem : reservation ∈ state.reservations)
    (new : Multiset Charge) (hhs : after.handles = state.handles) (hchs : after.charges = new +
      chargesOf (state.reservations.erase reservation) state.bookkeeping state.accounts)
    (ho : ∀ charge ∈ new, charge.owner = reservation.owner) :
    Replaces state reservation.owner {reservation.charge} new after :=
  ⟨hhs, ⟨_, chargesOf_erase_reservation hmem, hchs⟩, ho⟩

theorem replaces_account (hmem : account ∈ state.accounts)
    (new : Multiset Charge) (hhs : after.handles = state.handles) (hchs : after.charges = new +
      chargesOf state.reservations state.bookkeeping (state.accounts.erase account))
    (ho : ∀ charge ∈ new, charge.owner = account.owner) :
    Replaces state account.owner {account.charge} new after :=
  ⟨hhs, ⟨_, chargesOf_erase_account hmem, hchs⟩, ho⟩

theorem replaces_nothing (charge : Charge) {owner : Nat}
    (hown : charge.owner = owner) (hhs : after.handles = state.handles)
    (hchs : after.charges = charge ::ₘ state.charges) : Replaces state owner 0 {charge} after :=
  ⟨hhs, ⟨state.charges, by simp, by simp [hchs]⟩, by simp [hown]⟩

theorem adds_new (charge : Charge) :
    Adds charge.owner charge.resourceClass charge.amounts 0 {charge} := by
  intro _ _
  simp [total]

theorem adds_replace {owner : Nat} {resourceClass : ResourceClass}
    {amounts smaller larger : Quantities}
    (h : ∀ dimension, larger dimension = smaller dimension + amounts dimension) :
    Adds owner resourceClass amounts {⟨owner, resourceClass, smaller⟩}
      {⟨owner, resourceClass, larger⟩} := by
  intro _ dimension
  simp only [total, map_singleton, sum_singleton, h]
  split <;> rfl

/-! ## Reservations -/

theorem ResourceAmounts.checkedAdd_eq_some {current extra sum : ResourceAmounts}
    (h : current.checkedAdd extra = some sum) (dimension : ResourceDimension) :
    sum.values dimension = current.values dimension + extra.values dimension := by
  unfold ResourceAmounts.checkedAdd at h
  split at h
  · cases h
    rfl
  · cases h

theorem ResourceAmounts.checkedSub_eq_some {current freed difference : ResourceAmounts}
    (h : current.checkedSub freed = some difference) (dimension : ResourceDimension) :
    current.values dimension = difference.values dimension + freed.values dimension := by
  unfold ResourceAmounts.checkedSub at h
  split at h
  · rename_i hle
    cases h
    exact (Nat.sub_add_cancel (hle dimension (ResourceDimension.mem_all dimension))).symm
  · cases h

section

variable (h : state.Valid)
include h

theorem State.Valid.ends_tryReserve (hrch : state.Reaches token)
    (resourceClass : ResourceClass) (amounts : ResourceAmounts) :
    Ends true state.ledger (state.tryReserve token resourceClass amounts) := by
  have ha := adds_new (charge ⟨token, resourceClass, amounts⟩)
  refine h.ends_add (h.live_of_reaches hrch) (fun _ => rfl) (fun _ => ?_) ha
  exact replaces_nothing _ rfl rfl (chargesOf_cons_reservation _)

variable (hmem : reservation ∈ state.reservations)
include hmem

theorem State.Valid.ends_tryGrow (additional : ResourceAmounts) :
    Ends true state.ledger (state.tryGrow reservation additional) := by
  refine ends_okOr fun _ ha => ?_
  refine h.ends_add (h.live_of_reservation hmem) (fun _ => rfl) (fun _ => ?_)
    (adds_replace (ResourceAmounts.checkedAdd_eq_some ha))
  refine replaces_reservation hmem _ rfl ?_ (by simp)
  exact chargesOf_cons_reservation _

theorem State.Valid.ends_shrink (freed : ResourceAmounts) :
    Ends true state.ledger (state.shrink reservation freed) := by
  refine ends_okOr fun _ ha => ?_
  refine h.ends_subtract (h.live_of_reservation hmem) (fun _ => rfl) (fun _ => ?_)
    (adds_replace (ResourceAmounts.checkedSub_eq_some ha))
  refine replaces_reservation hmem _ rfl ?_ (by simp)
  exact chargesOf_cons_reservation _

theorem State.Valid.ends_split (amounts : ResourceAmounts) :
    Ends true state.ledger (state.split reservation amounts) := by
  refine ends_okOr fun remainder hrem => ?_
  have hsum := ResourceAmounts.checkedSub_eq_some hrem
  refine h.exchange (h.live_of_reservation hmem) rfl (replaces_reservation hmem
      {charge { reservation with amounts := amounts },
        charge { reservation with amounts := remainder }} rfl ?_ ?_)
    fun _ _ => ?_
  · simp [State.charges]
  · simp [charge]
  · simp only [total, charge, insert_eq_cons, map_cons,
      map_singleton, sum_cons, sum_singleton, hsum]
    split <;> omega

theorem State.Valid.ends_dropReservation :
    Ends true state.ledger (state.dropReservation reservation) := by
  refine h.ends_subtract (h.live_of_reservation hmem) (fun _ => rfl) (fun _ => ?_)
    (adds_new reservation.charge)
  exact replaces_reservation hmem _ rfl (zero_add _).symm (by simp)

theorem State.Valid.ends_transfer (hmm : reservation.amounts.MemoryOnly) :
    Ends true state.ledger (state.transfer reservation) := by
  have hch : ∀ dimension, reservation.amounts.values dimension =
      memoryOnly (reservation.amounts.values .memoryBytes) dimension +
        ResourceAmounts.zero.values dimension := by
    intro dimension
    by_cases hdim : dimension = .memoryBytes
    · subst hdim
      rfl
    · rw [hmm dimension (ResourceDimension.mem_all dimension) hdim]
      cases dimension <;> trivial
  refine h.ends_subtract (h.live_of_reservation hmem) (fun _ => rfl) (fun _ => ?_)
    (adds_replace hch)
  refine replaces_reservation hmem _ rfl ?_ (by simp)
  exact chargesOf_cons_account _

end

/-! ## Accounts -/

theorem memoryOnly_add (left right : Nat) (dimension : ResourceDimension) :
    memoryOnly (left + right) dimension =
      memoryOnly left dimension + memoryOnly right dimension := by
  cases dimension <;> rfl

section

variable (h : state.Valid)
include h

theorem State.Valid.nativeMemoryAccount (hrch : state.Reaches token)
    (resourceClass : ResourceClass) : (state.nativeMemoryAccount token resourceClass).Valid ∧
      state.ledger.Moves true (state.nativeMemoryAccount token resourceClass).ledger := by
  have hz : ∀ dimension, memoryOnly 0 dimension = 0 := by
    intro dimension
    cases dimension <;> rfl
  refine h.exchange (h.live_of_reaches hrch) rfl
    (replaces_nothing (NativeMemoryAccount.charge ⟨token, resourceClass, 0⟩) rfl rfl
      (chargesOf_cons_account _)) fun _ dimension => ?_
  simp [total, NativeMemoryAccount.charge, hz]

theorem State.Valid.ends_growAccount (hmem : account ∈ state.accounts)
    (bytes : Nat) (checked : Bool) :
    Ends checked state.ledger (state.growAccount account bytes checked) := by
  refine h.ends_add (h.live_of_account hmem) (fun _ => rfl) (fun _ => ?_)
    (adds_replace (memoryOnly_add account.bytes bytes))
  refine replaces_account hmem _ rfl ?_ (by simp)
  exact chargesOf_cons_account _

theorem State.Valid.ends_growInfallible (hmem : account ∈ state.accounts)
    (bytes : Nat) : Ends false state.ledger (state.growInfallible account bytes) := by
  have he := h.ends_growAccount hmem bytes false
  unfold State.growInfallible
  cases hg : state.growAccount account bytes false with
  | ok =>
    rw [hg] at he
    exact he
  | error => simp [Except.mapError, Ends, Failure.Panics]

theorem State.Valid.ends_shrinkAccount (hmem : account ∈ state.accounts)
    {bytes : Nat} (hh : bytes ≤ account.bytes) :
    Ends true state.ledger (state.shrinkAccount account bytes) := by
  obtain ⟨held, hb⟩ := Nat.exists_eq_add_of_le' hh
  have hsub : Fallible.checkedSub account.bytes bytes = some held := by
    rw [checkedSub_eq_some, hb]
  have hch : ∀ dimension, memoryOnly account.bytes dimension =
      memoryOnly held dimension + memoryOnly bytes dimension := by
    rw [hb]
    exact memoryOnly_add held bytes
  unfold State.shrinkAccount
  rw [hsub]
  refine h.ends_subtract (h.live_of_account hmem) (fun _ => rfl) (fun _ => ?_) (adds_replace hch)
  refine replaces_account hmem _ rfl ?_ (by simp)
  exact chargesOf_cons_account _

theorem State.Valid.ends_dropAccount (hmem : account ∈ state.accounts) :
    Ends true state.ledger (state.dropAccount account) := by
  refine h.ends_subtract (h.live_of_account hmem) (fun _ => rfl) (fun _ => ?_)
    (adds_new account.charge)
  exact replaces_account hmem _ rfl (zero_add _).symm (by simp)

/-! ## Scopes -/

theorem State.Valid.ends_child (hrch : state.Reaches token)
    (required kind : ResourceScopeKind) (id : Vector UInt8 16) (policy : ResourceBudgetPolicy) :
    Ends true state.ledger (state.child token required kind id policy) := by
  unfold State.child
  cases hch : state.ledger.child token required kind id policy with
  | error => exact ends_of_error (child_eq_error (h.live_of_reaches hrch) hch)
  | ok =>
    obtain ⟨_, valid, hpar, hf, hcap, rfl⟩ := child_eq_ok hch
    refine ⟨⟨h.exact.withChild hpar hf hcap, fun handle hh => ?_⟩, .created⟩
    show ((state.ledger.withChild token ⟨kind, id⟩ valid).up handle).isSome
    obtain rfl | hold := Multiset.mem_cons.1 hh
    · rw [up_withChild, Function.update_self]
      rfl
    · obtain ⟨node, hn⟩ := isSome_up.1 (h.handle_live handle hold)
      exact isSome_up.2 ⟨node, h.exact.sound.nodes_withChild hn⟩

theorem State.Valid.ends_reserveScopeBookkeeping (hrch : state.Reaches token) :
    Ends true state.ledger (state.reserveScopeBookkeeping token) := by
  obtain ⟨node, hn⟩ := isSome_up.1 (h.live_of_reaches hrch)
  unfold State.reserveScopeBookkeeping
  rw [hn]
  refine ends_ensure fun _ => ?_
  by_cases hs : token ∈ state.bookkeeping.map Prod.fst
  · rw [if_pos hs]
    exact ⟨h, .same⟩
  · rw [if_neg hs]
    refine ends_okOr fun amounts _ => ends_okOr fun parent hpar => ?_
    have hl : (state.ledger.up parent).isSome :=
      h.exact.sound.forest.parent_live (up_eq_some.2 ⟨node, hn, hpar⟩)
    refine h.ends_add hl (fun _ => rfl) (fun _ => ?_) (adds_new (charge ⟨parent, .data, amounts⟩))
    exact replaces_nothing _ rfl rfl (chargesOf_cons_slot _)

end

theorem State.Free.owner_ne (h : state.Free token) :
    ∀ charge ∈ state.charges, charge.owner ≠ token := by
  obtain ⟨-, hres, hb, hacc, -⟩ := h
  intro charge hch hown
  simp only [State.charges, chargesOf, mem_add, mem_map] at hch
  obtain (⟨reservation, hmem, rfl⟩ | ⟨slot, hmem, rfl⟩) | ⟨account, hmem, rfl⟩ := hch
  · exact hres (Multiset.mem_map.2 ⟨reservation, hmem, hown⟩)
  · exact hb (Multiset.mem_map.2 ⟨slot, hmem, hown⟩)
  · exact hacc (Multiset.mem_map.2 ⟨account, hmem, hown⟩)

theorem State.Valid.ends_dropScope (h : state.Valid) (hlv : (state.ledger.up token).isSome)
    (hf : state.Free token) : Ends true state.ledger (state.dropScope token) := by
  have hlf : ∀ other, state.ledger.up other ≠ some (some token) := by
    intro other hup
    have hmem := h.exact.sound.mem_liveChildren.2 hup
    rw [hf.2.2.2.2] at hmem
    exact absurd hmem (Finset.notMem_empty other)
  unfold State.dropScope
  rw [h.exact.sound.dropScope_of_live hlv]
  refine ⟨⟨?_, fun handle hh => ?_⟩, .removed⟩
  · show (state.ledger.withoutScope token).Exact (chargesOf _ _ _)
    rw [chargesOf_moved fun slot => slot.1 = token]
    exact h.exact.withoutScope hlf hf.owner_ne
  · show ((state.ledger.withoutScope token).up handle).isSome
    rw [up_withoutScope]
    obtain hpar | hold := Multiset.mem_add.1 hh
    · have hup : state.ledger.up token = some (some handle) := by
        simpa [Option.join_eq_some_iff] using hpar
      rw [Function.update_of_ne (h.exact.sound.forest.parent_lt hup).ne]
      exact h.exact.sound.forest.parent_live hup
    · rw [Function.update_of_ne (ne_of_mem_of_not_mem hold hf.1)]
      exact h.handle_live handle hold

/-! ## Runs -/

def Operation.isInfallible : Operation → Bool
  | .growInfallible _ _ => true
  | _ => false

/-- What every operation guarantees: the state stays valid, the ledger moved, with checked charges
unless the operation is infallible, and the accounting did not panic. -/
structure Performs (checked : Bool) (before : Ledger) (outcome : Except Failure Unit × State) :
    Prop where
  valid : outcome.2.Valid
  moves : before.Moves checked outcome.2.ledger
  quiet : ∀ failure, outcome.1 = .error failure → ¬failure.Panics

theorem State.Valid.settle (h : state.Valid) {checked : Bool} {outcome : Except Failure State}
    (he : Ends checked state.ledger outcome) :
    Performs checked state.ledger (state.settle outcome) := by
  cases outcome with
  | ok => exact ⟨he.1, he.2, fun failure hf => by cases hf⟩
  | error =>
    refine ⟨h, .same, fun failure hf => ?_⟩
    cases hf
    exact he

theorem performs_done {checked : Bool} {before : Ledger} (hv : after.Valid)
    (hm : before.Moves checked after.ledger) : Performs checked before (.ok (), after) :=
  ⟨hv, hm, fun _ hf => by cases hf⟩

/-- **Every operation keeps the ledger exact**, and its accounting does not panic. -/
theorem State.Valid.perform (h : state.Valid) {operation : Operation}
    (hen : state.Enabled operation) :
    Performs (!operation.isInfallible) state.ledger (state.perform operation) := by
  cases operation with
  | cloneHandle token =>
    refine performs_done ⟨h.exact, fun handle hh => ?_⟩ .same
    obtain rfl | hold := Multiset.mem_cons.1 hh
    · exact h.live_of_reaches hen
    · exact h.handle_live handle hold
  | dropHandle token =>
    refine performs_done ⟨h.exact, fun handle hh => ?_⟩ .same
    exact h.handle_live handle (mem_of_mem_erase hh)
  | workspace token id policy => exact h.settle (h.ends_child hen _ _ id policy)
  | operation token id policy => exact h.settle (h.ends_child hen _ _ id policy)
  | reserveScopeBookkeeping token => exact h.settle (h.ends_reserveScopeBookkeeping hen)
  | tryReserve token resourceClass amounts =>
    exact h.settle (h.ends_tryReserve hen resourceClass amounts)
  | tryGrow reservation additional => exact h.settle (h.ends_tryGrow hen additional)
  | shrink reservation freed => exact h.settle (h.ends_shrink hen freed)
  | split reservation amounts => exact h.settle (h.ends_split hen amounts)
  | intoNativeMemoryAccount reservation =>
    by_cases hmm : reservation.amounts.MemoryOnly
    · simp only [State.perform, if_pos hmm]
      exact h.settle (h.ends_transfer hen hmm)
    · -- the consumed reservation is dropped, whatever the answer
      have hd := h.settle (h.ends_dropReservation hen)
      simp only [State.perform, if_neg hmm]
      split
      · rename_i after heq
        rw [heq] at hd
        refine ⟨hd.valid, hd.moves, fun _ hf => ?_⟩
        cases hf
        simp [Failure.Panics]
      · exact hd
  | dropReservation reservation => exact h.settle (h.ends_dropReservation hen)
  | nativeMemoryAccount token resourceClass =>
    obtain ⟨hv, hmv⟩ := h.nativeMemoryAccount hen resourceClass
    exact performs_done hv hmv
  | tryGrowAccount account bytes => exact h.settle (h.ends_growAccount hen bytes true)
  | growInfallible account bytes => exact h.settle (h.ends_growInfallible hen bytes)
  | shrinkAccount account bytes => exact h.settle (h.ends_shrinkAccount hen.1 hen.2)
  | dropAccount account => exact h.settle (h.ends_dropAccount hen)
  | dropScope token => exact h.settle (h.ends_dropScope hen.1 hen.2)

theorem State.Valid.step (h : state.Valid) {label : Operation × Except Failure Unit}
    (step : Step state label after) :
    Performs (!label.1.isInfallible) state.ledger (label.2, after) := by
  obtain ⟨hen, hpr⟩ := step
  have hper := h.perform hen
  rwa [hpr] at hper

theorem State.Valid.run (h : state.Valid)
    {steps : List (Transition State (Operation × Except Failure Unit))}
    (run : Run Step state steps after) : after.Valid :=
  run.invariant (fun _ _ _ step hv => (hv.step step).valid) h

theorem valid_tryProcess {id : Vector UInt8 16} {policy : ResourceBudgetPolicy}
    (h : tryProcess id policy = .ok state) : state.Valid := by
  simp only [tryProcess, ok_iff] at h
  obtain ⟨_, -, -, -, rfl⟩ := h
  refine ⟨exact_process _ _, fun _ hh => ?_⟩
  obtain rfl := Multiset.mem_singleton.1 hh
  show ((process _ _).up 0).isSome
  rw [up_process]
  rfl

end

/-- **Resource ledger exactness.** After every run from a new process root, the counters of each
live node are the sums of the live reservations and accounts of its subtree, the child index
describes the live scopes within their capacity, and no step of the run underflowed a counter. -/
theorem ledger_exact {id : Vector UInt8 16} {policy : ResourceBudgetPolicy} {initial state : State}
    {steps : List (Transition State (Operation × Except Failure Unit))}
    (hstart : tryProcess id policy = .ok initial) (run : Run Step initial steps state) :
    (∀ token node, state.ledger.nodes token = some node → ∀ dimension,
      node.used dimension = total (state.ledger.within token) state.charges dimension ∧
      node.dataUsed dimension = total (state.ledger.dataWithin token) state.charges dimension ∧
      node.dataUsed dimension ≤ node.used dimension ∧ node.used dimension ≤ node.peak dimension) ∧
    (∀ step ∈ steps, step.label.2 ≠ .error .underflow ∧ step.label.2 ≠ .error .missingNode) ∧
    (∀ parent owner token, state.ledger.children (parent, owner) = some token ↔
      ∃ node, state.ledger.nodes token = some node ∧ node.parent = some parent ∧
        node.owner = owner) ∧
    (∀ parent, state.ledger.childCounts parent =
      countEntry (state.ledger.liveChildren parent).card) ∧
    (∀ parent node, state.ledger.nodes parent = some node →
      (state.ledger.liveChildren parent).card ≤
        childScopeCapacity node.policy.toResourceBudgetPolicy) := by
  have hini := valid_tryProcess hstart
  have hv := hini.run run
  refine ⟨fun token node hn dimension => ?_, fun step hst => ?_,
    hv.exact.sound.children_iff, hv.exact.sound.childCounts_eq, hv.exact.sound.capacity⟩
  · exact ⟨hv.exact.used_eq token node hn dimension, hv.exact.dataUsed_eq token node hn dimension,
      hv.exact.dataUsed_le_used hn dimension, hv.exact.used_le_peak token node hn dimension⟩
  · obtain ⟨_, _, -, hp, ht, -⟩ := run.split_of_mem hst
    have hq := ((hini.run hp).step ht).quiet
    exact ⟨fun heq => hq _ heq (.inr rfl), fun heq => hq _ heq (.inl rfl)⟩

/-! ## A run -/

def ResourceAmounts.uniform (amount : Nat) (h : amount < 2 ^ 64) : ResourceAmounts :=
  ⟨fun _ => amount, fun _ => h⟩

def samplePolicy : ResourceBudgetPolicy := ⟨.uniform 100 (by decide), .uniform 10 (by decide)⟩

def sampleId : Vector UInt8 16 := Vector.replicate 16 1

def sampleRoot : State where
  ledger := .process ⟨.process, sampleId⟩ ⟨samplePolicy, fun _ => by show 10 < 100; decide⟩
  handles := {0}
  reservations := 0
  bookkeeping := 0
  accounts := 0

theorem tryProcess_sampleRoot : tryProcess sampleId samplePolicy = .ok sampleRoot := rfl

/-- A reservation of memory for the data of the first workspace. -/
def sampleReservation (bytes : Nat) (h : bytes < 2 ^ 64) : ResourceReservation :=
  ⟨1, .data, .memory bytes h⟩

/-- A reservation is split, one part becomes an account that overdraws the limit, and the other part
cannot grow until the account has shrunk. -/
def sampleOperations : List Operation :=
  [.workspace 0 sampleId samplePolicy, .tryReserve 1 .data (.memory 40 (by decide)),
    .split (sampleReservation 40 (by decide)) (.memory 15 (by decide)),
    .intoNativeMemoryAccount (sampleReservation 15 (by decide)),
    .growInfallible ⟨1, .data, 15⟩ 200,
    .tryGrow (sampleReservation 25 (by decide)) (.memory 5 (by decide)),
    .shrinkAccount ⟨1, .data, 215⟩ 205,
    .tryGrow (sampleReservation 25 (by decide)) (.memory 5 (by decide))]

theorem enabledAll_sampleOperations : sampleRoot.EnabledAll sampleOperations := by
  decide +kernel

theorem sampleOperations_exact :
    ∃ node, (sampleRoot.performAll sampleOperations).ledger.nodes 0 = some node ∧
      node.used .memoryBytes = 40 ∧ node.peak .memoryBytes = 240 ∧
      total ((sampleRoot.performAll sampleOperations).ledger.within 0)
        (sampleRoot.performAll sampleOperations).charges .memoryBytes = 40 := by
  obtain ⟨node, hn, hcts⟩ : ∃ node,
      (sampleRoot.performAll sampleOperations).ledger.nodes 0 = some node ∧
        (node.used .memoryBytes, node.peak .memoryBytes) = (40, 240) :=
    Option.map_eq_some_iff.1 (by decide +kernel)
  obtain ⟨hu, hp⟩ := Prod.mk.inj hcts
  have he := ledger_exact tryProcess_sampleRoot (run_transitions enabledAll_sampleOperations)
  exact ⟨node, hn, hu, hp, (he.1 0 node hn .memoryBytes).1.symm.trans hu⟩

end CodeFabric.Budget
