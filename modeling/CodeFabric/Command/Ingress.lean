import CodeFabric.Command.CommitLog

/-! # The ingress gate of a single writer

One actor that is the only writer of its journal keeps new admissions out while any record is
nonterminal. The gate flag, the journal and the control flow of the handlers are separate: every
handler, with every failure of a port on the way, has to leave the gate closed or the journal
quiescent. The runtime may close the gate at any time; only `OpenAdmission` opens it.

**`ingressTerms`** is the contract: `Idle` says that an open gate means a quiescent journal. -/

namespace CodeFabric.Command

open Fallible Interleaving Runs List

/-! ## Quiescent journals -/

/-- Every row of the journal is terminal. -/
def Table.Quiescent (table : Table) : Prop :=
  ∀ row ∈ table.rows, row.isTerminal = 1

variable {record : CommandRecord} {codec : RecordCodec}

theorem isTerminal_of_decodeRow {row : StoredRow} (h : decodeRow codec row = .ok record) :
    record.state.isTerminal ↔ row.isTerminal = 1 := by
  obtain ⟨-, -, -, hrow⟩ := decodeRow_ok.1 h
  rw [hrow, rowOf]
  cases record.state.isTerminal <;> simp

theorem prefix_of_decodeNonterminalRows {target : Nat} {rows : List StoredRow}
    {collected records : List CommandRecord}
    (h : decodeNonterminalRows codec target rows collected = .ok records) :
    collected <+: records := by
  induction rows generalizing collected with
  | nil =>
    cases h
    exact prefix_rfl
  | cons _ rows ih =>
    simp only [decodeNonterminalRows, bind_eq_ok] at h
    obtain ⟨_, -, h⟩ := h
    split at h
    · exact ih h
    · split at h
      · cases h
        exact prefix_append _ _
      · exact (prefix_append _ _).trans (ih h)

theorem terminal_of_decodeNonterminalRows {target : Nat} {rows : List StoredRow}
    (h : decodeNonterminalRows codec target rows [] = .ok []) :
    ∀ row ∈ rows, row.isTerminal = 1 := by
  induction rows with
  | nil => simp
  | cons row rows ih =>
    simp only [decodeNonterminalRows, bind_eq_ok] at h
    obtain ⟨_, hdec, h⟩ := h
    split at h
    · rename_i ht
      exact List.forall_mem_cons.2 ⟨(isTerminal_of_decodeRow hdec).1 ht, ih h⟩
    · split at h
      · simp at h
      · have hp := prefix_of_decodeNonterminalRows h
        simp at hp

theorem quiescent_of_firstNonterminal {table : Table} (h : firstNonterminal codec table = .ok
    none) : table.Quiescent := by
  simp only [firstNonterminal, loadNonterminalPage, ok_iff] at h
  obtain ⟨_, ⟨records, hrc, hp⟩, hh⟩ := h
  have hnil : records = [] := by
    rw [head?_eq_none_iff] at hh
    split at hp
    · rename_i hlen
      obtain rfl := (pure_eq_ok.1 hp).symm
      have := congrArg length hh
      simp only [length_dropLast, length_nil] at this
      omega
    · obtain rfl := (pure_eq_ok.1 hp).symm
      exact hh
  subst hnil
  intro row hrow
  exact terminal_of_decodeNonterminalRows hrc row (List.mem_mergeSort.2 hrow)

/-! ## The contract -/

/-- A step that adds an operation starts from a quiescent journal. -/
def CreatesOnlyQuiescent (s t : World Unit) : Prop :=
  ∀ row ∈ t.table.rows, row.operationId ∉ s.table.rows.map StoredRow.operationId → s.table.Quiescent

/-- An open gate means a quiescent journal. -/
def Guarded (s : World Unit) : Prop := s.gate () = true → s.table.Quiescent

/-- The contract of the single writer: only the gate may be closed behind its back. -/
def ingressTerms (codec : RecordCodec) (actorId : Unit → ActorId) :
    Contract (actorSystem codec actorId) where
  Rely _ s t := t.table = s.table ∧ (t.gate () = true → s.gate () = true)
  Guarantee _ := CreatesOnlyQuiescent
  Idle _ := Guarded
  rely_refl _ _ := ⟨rfl, id⟩
  rely_trans h h' := ⟨h'.1.trans h.1, fun hopen => h.2 (h'.2 hopen)⟩
  guarantee_rely hne _ := absurd rfl hne
  environment_rely := by
    rintro - s t ⟨actor, rfl⟩
    exact ⟨rfl, by simp [World.setGate]⟩
  restart_rely hne _ := absurd rfl hne
  restart_idle := by
    rintro - s t rfl
    simp [Guarded, World.setGate]
  idle_stable := by
    rintro - s t ⟨htable, hgate⟩ hguarded hopen
    rw [htable]
    exact hguarded (hgate hopen)

variable {codec : RecordCodec} {actorId : Unit → ActorId} {s t : World Unit}
  {response : Except CommandPortError DurableTransitionWrite}
  (result : Except FabricCommandActorError CommandRecord) (command : FabricCommand)

theorem CreatesOnlyQuiescent.of_identities
    (h : t.table.rows.map StoredRow.operationId = s.table.rows.map StoredRow.operationId) :
    CreatesOnlyQuiescent s t := by
  intro _ hrow hnew
  rw [← h] at hnew
  exact absurd (mem_map_of_mem hrow) hnew

theorem CreatesOnlyQuiescent.refl (s : World Unit) : CreatesOnlyQuiescent s s :=
  .of_identities rfl

theorem stable_table {P : Table → Prop} :
    Stable (ingressTerms codec actorId) () fun s => P s.table := by
  rintro s t ⟨ht, -⟩ h
  rw [ht]
  exact h

theorem stable_guarded : Stable (ingressTerms codec actorId) () Guarded :=
  fun _ _ hr h => (ingressTerms codec actorId).idle_stable hr h

/-! ## What the journal writes do -/

theorem Table.map_operationId_replaced (table : Table) (row : StoredRow) :
    (table.replaced row).map StoredRow.operationId = table.rows.map StoredRow.operationId := by
  rw [Table.replaced, map_map]
  refine map_congr_left fun other _ => ?_
  by_cases h : other.operationId = row.operationId <;> simp [h]

theorem swapped_of_performs {transition : ReducerTransition}
    (h : Performs codec () (.compareAndSwap transition) s response t) : t.gate = s.gate ∧
      ((t.table = s.table ∧ ∀ stored, response ≠ .ok (.stored stored)) ∨
        ∃ encoded row, row ∈ s.table.rows ∧ decodeRow codec row = .ok transition.predecessor ∧
          transition.IsStep ∧
          t.table.rows = s.table.replaced (rowOf transition.successor encoded)) := by
  obtain ⟨rfl, rfl⟩ | ⟨_, -, rfl, rfl⟩ | ⟨_, _, hw, hrs, rfl⟩ := h
  · exact ⟨rfl, .inl ⟨rfl, by simp⟩⟩
  · exact ⟨rfl, .inl ⟨rfl, by simp⟩⟩
  · refine ⟨rfl, ?_⟩
    obtain ⟨⟨_, rfl⟩, rfl⟩ | ⟨-, hs, encoded, row, -, hrow, hdec, hrw⟩ :=
      compareAndSwap_ok hw
    · refine .inl ⟨rfl, ?_⟩
      rintro stored rfl
      simp at hrs
    · exact .inr ⟨encoded, row, hrow, hdec, hs, hrw⟩

theorem CreatesOnlyQuiescent.of_swap {transition : ReducerTransition}
    (h : Performs codec () (.compareAndSwap transition) s response t) :
    CreatesOnlyQuiescent s t := by
  obtain ⟨-, ⟨ht, -⟩ | ⟨_, _, -, -, -, hr⟩⟩ := swapped_of_performs h
  · exact .of_identities (by rw [ht])
  · exact .of_identities (by rw [hr, Table.map_operationId_replaced])

/-- An acknowledged insertion appended the admitted row; an existing record left the table alone. -/
theorem inserted_of_performs {admitted : CommandRecord} {write : DurableAdmissionWrite}
    (h : Performs codec () (.insertIfAbsent admitted) s (.ok write) t) :
    (write = .inserted admitted ∧
        ∃ encoded, t.table.rows = s.table.rows ++ [rowOf admitted encoded]) ∨
      ((∃ existing, write = .existing existing) ∧ t.table = s.table) := by
  obtain ⟨⟨⟩, -⟩ | ⟨_, -, ⟨⟩, -⟩ | ⟨_, _, hw, ⟨⟨⟩⟩ | ⟨⟨⟩⟩, rfl⟩ := h
  obtain ⟨encoded, -, rfl, -, hr⟩ | ⟨he, rfl⟩ := insertIfAbsent_ok hw
  · exact .inl ⟨rfl, encoded, hr⟩
  · exact .inr ⟨he, rfl⟩

/-! ## Assertions carried through an attempt -/

/-- What a method promises: `H` of the record it returns, `E` after a failure. -/
def Outcome (H : CommandRecord → World Unit → Prop) (E : World Unit → Prop) :
    Except FabricCommandActorError CommandRecord → World Unit → Prop
  | .ok record => H record
  | .error _ => E

/-- An assertion `H` about the record in hand that the effects of an attempt carry along, with the
assertion `E` that is left when one of them fails. -/
structure Carries (codec : RecordCodec) (actorId : Unit → ActorId)
    (H : CommandRecord → World Unit → Prop) (E : World Unit → Prop) : Prop where
  stable : ∀ record, Stable (ingressTerms codec actorId) () (H record)
  stable_error : Stable (ingressTerms codec actorId) () E
  weaken : ∀ {record s}, H record s → E s
  /-- Only the journal and the gate matter. -/
  congr : ∀ {record s t}, t.table = s.table → t.gate = s.gate → H record s → H record t
  swap : ∀ {record event state effect s response t},
    Advance record.command record.state event state → H record s →
    Performs codec () (.compareAndSwap ⟨record, (advanced record state effect).record, effect⟩)
      s response t →
    E t ∧ (response = .ok (.stored (advanced record state effect).record) →
      H (advanced record state effect).record t)

namespace Carries

variable {H : CommandRecord → World Unit → Prop} {E : World Unit → Prop}
  (h : Carries codec actorId H E)
include h

open CreatesOnlyQuiescent

theorem transition (event : CommandEvent) (hs : H record s) :
    (ingressTerms codec actorId).Safe () (Outcome H E) (transition record event).run s := by
  refine safe_transition refl (h.stable record)
    (fun _ _ ht => h.weaken ht) (fun _ _ _ ht => ht) ?_ hs
  intro _ _ advance _ t _ u ht hp
  obtain ⟨he, hsto⟩ := h.swap advance ht hp
  refine ⟨of_swap hp, fun v hv => ⟨fun _ => ?_, fun hr => ?_⟩⟩
  · exact h.stable_error _ _ hv he
  · exact h.stable _ _ _ hv (hsto hr)

theorem commitPrepared (owner : ExecutionOwner) (prepared : TransactionRef) (hs : H record s) :
    (ingressTerms codec actorId).Safe () (Outcome H E)
      (commitPrepared record owner prepared).run s := by
  refine safe_validateIdempotent_bind refl (h.stable record) (fun _ _ ht => h.weaken ht) ?_ hs
  intro _ t _ ht
  refine safe_port_bind ?_
  rintro u hu response _ rfl
  refine ⟨of_identities rfl, fun v hv => ?_⟩
  have hv := h.stable _ _ _ hv (h.congr rfl rfl (h.stable _ _ _ hu ht))
  cases response with
  | error error => exact h.weaken hv
  | ok => exact h.transition _ hv

theorem executeStarted (owner : ExecutionOwner) (hs : H record s) :
    (ingressTerms codec actorId).Safe () (Outcome H E) (executeStarted record owner).run s := by
  refine safe_validateIdempotent_bind refl (h.stable record) (fun _ _ ht => h.weaken ht) ?_ hs
  intro _ t _ ht
  refine safe_port_bind ?_
  rintro u hu response _ rfl
  refine ⟨refl _, fun v hv => ?_⟩
  have hv := h.stable _ _ _ hv (h.stable _ _ _ hu ht)
  match response with
  | .error error => exact h.weaken hv
  | .ok (.knownFailure _) => exact h.transition _ hv
  | .ok (.cancelled _) => exact h.transition _ hv
  | .ok (.prepared prepared) =>
    refine Contract.Safe.bindExcept ((h.transition _ hv).mono ?_)
    rintro (error | _) w hw
    · exact hw
    · exact h.commitPrepared owner prepared hw

theorem startInserted (actor : ActorId) (command : FabricCommand) (hs : H record s) :
    (ingressTerms codec actorId).Safe () (Outcome H E)
      (startInserted actor command record).run s := by
  refine Contract.Safe.bindExcept ((h.transition _ hs).mono ?_)
  rintro (_ | _) t ht
  · exact ht
  · exact h.executeStarted _ ht

end Carries

/-! ## Recovery handlers keep the gate guarded -/

theorem guarded_of_swap {event : CommandEvent} {state : DurableCommandState}
    {effect : ReductionEffect} (advance : Advance record.command record.state event state)
    (hs : Guarded s) (h : Performs codec ()
      (.compareAndSwap ⟨record, (advanced record state effect).record, effect⟩) s response t) :
    Guarded t := by
  obtain ⟨hg, ⟨htb, -⟩ | ⟨_, row, hrow, hdec, -, -⟩⟩ := swapped_of_performs h
  · intro ho
    rw [htb]
    exact hs (hg ▸ ho)
  · intro ho
    have htr := hs (hg ▸ ho) row hrow
    exact absurd ((isTerminal_of_decodeRow hdec).2 htr) (by simp [advance.not_isTerminal])

theorem carries_guarded : Carries codec actorId (fun _ => Guarded) Guarded where
  stable _ := stable_guarded
  stable_error := stable_guarded
  weaken h := h
  congr ht hg h ho := by
    rw [ht]
    exact h (hg ▸ ho)
  swap advance hs hp :=
    ⟨guarded_of_swap advance hs hp, fun _ => guarded_of_swap advance hs hp⟩

omit codec actorId in
theorem outcome_const {P : World Unit → Prop}
    (result : Except FabricCommandActorError CommandRecord) (s : World Unit)
    (h : Outcome (fun _ => P) P result s) : P s := by
  cases result with
  | ok | error => exact h

/-! ## Submissions -/

/-- Every row is terminal, except the row of the record in hand. -/
def Holding (record : CommandRecord) (s : World Unit) : Prop :=
  ∀ row ∈ s.table.rows, row.isTerminal = 1 ∨ ∃ encoded, row = rowOf record encoded

theorem holding_of_swap {state : DurableCommandState} {effect : ReductionEffect}
    (hs : Holding record s) (h : Performs codec ()
      (.compareAndSwap ⟨record, (advanced record state effect).record, effect⟩) s
      (.ok (.stored (advanced record state effect).record)) t) :
    Holding (advanced record state effect).record t := by
  obtain ⟨-, ⟨-, hrs⟩ | ⟨encoded, -, -, -, -, hrw⟩⟩ := swapped_of_performs h
  · exact absurd rfl (hrs _)
  · intro _ hrow
    rw [hrw, Table.replaced] at hrow
    obtain ⟨other, ho, rfl⟩ := List.mem_map.1 hrow
    by_cases hsm : other.operationId =
        (rowOf (advanced record state effect).record encoded).operationId
    · rw [if_pos hsm]
      exact .inr ⟨encoded, rfl⟩
    · rw [if_neg hsm]
      -- the old row of the record has its identity, so it was replaced
      obtain ht | ⟨_, rfl⟩ := hs other ho
      · exact .inl ht
      · exact absurd rfl hsm

theorem holding_of_insert {encoded : List UInt8} (hs : s.table.Quiescent)
    (hrw : t.table.rows = s.table.rows ++ [rowOf record encoded]) : Holding record t := by
  intro row hrow
  rw [hrw] at hrow
  rcases List.mem_append.1 hrow with hold | hnew
  · exact .inl (hs row hold)
  · exact .inr ⟨encoded, List.mem_singleton.1 hnew⟩

theorem carries_holding : Carries codec actorId Holding fun _ => True where
  stable record := stable_table (P := fun table =>
    ∀ row ∈ table.rows, row.isTerminal = 1 ∨ ∃ encoded, row = rowOf record encoded)
  stable_error _ _ _ _ := trivial
  weaken _ := trivial
  congr ht _ h := by
    rw [Holding, ht]
    exact h
  swap := by
    intro record _ _ _ s _ t _ hs hp
    refine ⟨trivial, ?_⟩
    rintro rfl
    exact holding_of_swap hs hp

theorem Holding.quiescent (h : Holding record s) (ht : record.state.isTerminal) :
    s.table.Quiescent := by
  intro row hrow
  obtain hrow | ⟨_, rfl⟩ := h row hrow
  · exact hrow
  · simp [rowOf, ht]

/-- What a submission leaves: a quiescent journal, unless it asks to close the gate. -/
def Settled (s : World Unit) : Prop :=
  recoveryRequired result = false → s.table.Quiescent

theorem settled_error (error : FabricCommandActorError) (s : World Unit) :
    Settled (.error error) s := by
  simp [Settled, recoveryRequired]

theorem settled_of_outcome
    (s : World Unit) (h : Outcome Holding (fun _ => True) result s) : Settled result s := by
  cases result with
  | error error => exact settled_error error s
  | ok =>
    intro ht
    exact Holding.quiescent h (by simpa [recoveryRequired] using ht)

theorem settled_submitNew (hs : s.table.Quiescent) :
    (ingressTerms codec actorId).Safe () Settled (submitNew (actorId ()) command).run s := by
  refine safe_port_bind ?_
  rintro t ht response _ rfl
  refine ⟨CreatesOnlyQuiescent.refl _, fun u hu => ?_⟩
  have hu := stable_table _ _ hu (stable_table _ _ ht hs)
  cases response with
  | error error => exact settled_error _ u
  | ok =>
    refine safe_contract_bind ?_ fun _ v _ => settled_error _ v
    rintro _ hout
    rw [admitCommand_none_ok hout]
    refine safe_port_bind ?_
    intro v hv response w hp
    have hv := stable_table _ _ hv hu
    refine ⟨fun _ _ _ => hv, fun x hx => ?_⟩
    cases response with
    | error error => exact settled_error _ x
    | ok =>
      obtain ⟨rfl, _, hr⟩ | ⟨⟨_, rfl⟩, htb⟩ := inserted_of_performs hp
      · have hhol := holding_of_insert hv hr
        show (ingressTerms codec actorId).Safe () _ (ite _ _ _ : ActorM _).run x
        rw [if_neg (by simp)]
        exact (carries_holding.startInserted _ command
          (carries_holding.stable _ _ _ hx hhol)).mono settled_of_outcome
      · intro y hy _
        rw [hy.1, hx.1, htb]
        exact hv

theorem settled_processSubmit (hs : s.table.Quiescent) :
    (ingressTerms codec actorId).Safe () Settled (processSubmit (actorId ()) command).run s := by
  refine safe_port_bind ?_
  rintro t ht response _ ⟨-, rfl⟩
  refine ⟨CreatesOnlyQuiescent.refl _, fun u hu => ?_⟩
  have hu := stable_table _ _ hu (stable_table _ _ ht hs)
  match response with
  | .error error => exact settled_error _ u
  | .ok (some existing) => exact fun v hv _ => stable_table _ _ hv hu
  | .ok none => exact settled_submitNew command hu

theorem guarded_close (s : World Unit) : Guarded (s.setGate () false) := by
  simp [Guarded, World.setGate]

theorem guarded_handleSubmit (hs : Guarded s) :
    (ingressTerms codec actorId).Safe () (fun _ => Guarded)
      (handleSubmit (actorId ()) command) s := by
  rintro _ ht isOpen t ⟨hisOpen, rfl⟩
  refine ⟨CreatesOnlyQuiescent.refl _, ?_⟩
  show (ingressTerms codec actorId).Safe () _
    (submitIfOpen (actorId ()) command isOpen >>= replyToSubmit) _
  have hset : (ingressTerms codec actorId).Safe () Settled
      (submitIfOpen (actorId ()) command isOpen) t := by
    unfold submitIfOpen
    split
    · rename_i ho
      exact settled_processSubmit command (stable_guarded _ _ ht hs (hisOpen ▸ ho))
    · exact fun u _ => settled_error _ u
  refine Contract.Safe.bind (hset.mono ?_)
  intro _ u hres
  unfold replyToSubmit
  split
  · rintro v - - _ rfl
    exact ⟨CreatesOnlyQuiescent.of_identities rfl,
      fun w hw => stable_guarded _ _ hw (guarded_close v)⟩
  · rename_i hfin
    intro v hv _
    exact stable_table _ _ hv (hres (by simpa using hfin))

theorem guarded_handleOpenAdmission (s : World Unit) :
    (ingressTerms codec actorId).Safe () (fun _ => Guarded) handleOpenAdmission s := by
  rintro t - - _ rfl
  refine ⟨CreatesOnlyQuiescent.of_identities rfl, ?_⟩
  rintro _ hu response u ⟨hr, rfl⟩
  refine ⟨CreatesOnlyQuiescent.refl _, ?_⟩
  have hcl := stable_guarded _ _ hu (guarded_close t)
  match response with
  | .error error => exact fun v hv => stable_guarded _ _ hv hcl
  | .ok (some record) => exact fun v hv => stable_guarded _ _ hv hcl
  | .ok none =>
    have hq : u.table.Quiescent :=
      quiescent_of_firstNonterminal (by simpa [eq_comm] using hr)
    rintro v hv - _ rfl
    refine ⟨CreatesOnlyQuiescent.of_identities rfl, fun w hw _ => ?_⟩
    rw [hw.1]
    show v.table.Quiescent
    exact stable_table _ _ hv hq

/-- **Every handler keeps the gate guarded.** -/
theorem guarded_handle (message : ActorMessage) (hs : Guarded s) :
    (ingressTerms codec actorId).Safe () (fun _ => Guarded) (handle (actorId ()) message) s :=
  safe_handle_of CreatesOnlyQuiescent.refl stable_guarded
    (fun _ event _ ht => (carries_guarded.transition event ht).mono outcome_const)
    (fun _ owner _ ht => (carries_guarded.executeStarted owner ht).mono outcome_const)
    (fun command => guarded_handleSubmit command hs) (guarded_handleOpenAdmission s) hs

/-! ## The result -/

theorem Table.Quiescent.terminal {table : Table} (h : table.Quiescent) {row : StoredRow}
    (hrow : row ∈ table.rows) (hdec : decodeRow codec row = .ok record) : record.state.isTerminal :=
  (isTerminal_of_decodeRow hdec).2 (h row hrow)

theorem CreatesOnlyQuiescent.of_worldStep (h : (ingressTerms codec actorId).WorldStep s t) :
    CreatesOnlyQuiescent s t := by
  obtain rfl | ⟨_, hg⟩ | ⟨actor, rfl⟩ | ⟨actor, rfl⟩ := h
  · exact .refl _
  · exact hg
  · exact .of_identities rfl
  · exact .of_identities rfl

/-- **The ingress gate guards the journal.** For one actor that is the only writer, started behind
a closed gate on any journal, after every run of messages, port outcomes, crashes and restarts:
between messages the gate is open only if no row is, or decodes to, a nonterminal record; and a step
that creates the row of a new operation finds no nonterminal record of any other operation. -/
theorem ingress_gate_guards {table : Table}
    {steps : List (Transition (Config Unit (World Unit) Effect Response Reply) _)}
    {config : Config Unit (World Unit) Effect Response Reply}
    (run : Run (actorSystem codec actorId).Step (initialConfig table fun _ => false) steps config) :
    (config.threads () = .idle → config.world.gate () = true →
      ∀ row ∈ config.world.table.rows, row.isTerminal = 1 ∧
        ∀ record, decodeRow codec row = .ok record → record.state.isTerminal) ∧
    ∀ step ∈ steps, ∀ created ∈ step.after.world.table.rows,
      created.operationId ∉ step.before.world.table.rows.map StoredRow.operationId →
      ∀ row ∈ step.before.world.table.rows, row.isTerminal = 1 ∧
        ∀ record, decodeRow codec row = .ok record → record.state.isTerminal := by
  have hhr : ∀ (actor : Unit) message s, (ingressTerms codec actorId).Idle actor s →
      (ingressTerms codec actorId).Safe actor (fun _ => (ingressTerms codec actorId).Idle actor)
        ((actorSystem codec actorId).handler actor message) s :=
    fun _ message _ hs => guarded_handle message hs
  have hini : (ingressTerms codec actorId).Holds (initialConfig table fun _ => false) :=
    fun _ ho => absurd ho (by simp [initialConfig])
  refine ⟨fun hid ho row hrow => ?_, fun step hst created hcr hnew row hrow => ?_⟩
  · have hhl := hini.run hhr run ()
    rw [hid] at hhl
    have hq := hhl ho
    exact ⟨hq row hrow, fun record => hq.terminal hrow⟩
  · obtain ⟨_, _, -, hp, ht, -⟩ := run.split_of_mem hst
    have hw := ((hini.run hhr hp).step hhr ht).2
    have hq := CreatesOnlyQuiescent.of_worldStep hw created hcr hnew
    exact ⟨hq row hrow, fun record => hq.terminal hrow⟩

def sampleCancelledTable (encoded : List UInt8) : Table :=
  ⟨[rowOf sampleCancelled encoded], List.nodup_singleton _, List.nodup_singleton _⟩

/-- A journal with a terminal row opens its gate, and that row is the only one. -/
theorem sampleCancelledTable_guards : ∃ encoded steps,
    ∃ config : Config Unit (World Unit) Effect Response Reply,
    Run sampleSystem.Step (initialConfig (sampleCancelledTable encoded) fun _ => false)
      steps config ∧
    config.threads () = .idle ∧ config.world.gate () = true ∧
    config.world.table.rows = [rowOf sampleCancelled encoded] ∧
    ∀ row ∈ config.world.table.rows, row.isTerminal = 1 ∧
      ∀ record, decodeRow sampleCodec row = .ok record → record.state.isTerminal := by
  obtain ⟨encoded, hwrs⟩ : ∃ encoded, sampleCodec.Writes sampleCancelled encoded :=
    ⟨_, sampleCodec_writes _ (.tail _ (.tail _ (.tail _ (.head _))))⟩
  have hfst : firstNonterminal sampleCodec (sampleCancelledTable encoded) = .ok none := by
    have hdec := sampleCancelled_produced.decodeRow hwrs
    have ht : sampleCancelled.state.isTerminal = true := rfl
    simp [firstNonterminal, loadNonterminalPage, Table.ordered, sampleCancelledTable,
      decodeNonterminalRows, hdec, ht, bind, Except.bind, pure, Except.pure]
  let s₀ : World Unit := (initialConfig (sampleCancelledTable encoded) fun _ => false).world
  have hc : sampleSystem.performs () .closeGate s₀ () (s₀.setGate () false) := rfl
  have hrd : sampleSystem.performs () .firstNonterminal (s₀.setGate () false) (.ok none)
      (s₀.setGate () false) := ⟨.inl hfst.symm, rfl⟩
  have ho : sampleSystem.performs () .openGate (s₀.setGate () false) ()
      ((s₀.setGate () false).setGate () true) := rfl
  have hyld : sampleSystem.Yields () (sampleSystem.handler () .openAdmission) s₀
      (.opened (.ok ())) ((s₀.setGate () false).setGate () true) :=
    (System.Yields.perform hc).bind ((System.Yields.perform hrd).bind
      ((System.Yields.perform ho).bind (.ret _ _)))
  obtain ⟨steps, hrun⟩ := System.Yields.run_handler _ rfl hyld
  have hg := (ingress_gate_guards hrun).1
  refine ⟨encoded, steps, _, hrun, ?_, ?_, rfl, hg ?_ ?_⟩
  all_goals simp [Config.set, World.setGate, sampleSystem, actorSystem]

end CodeFabric.Command
