import CodeFabric.Support.Run

/-! # Interleaved programs over a shared world

Threads receive messages and handle each by a program: a tree of effects on a shared world, each
answered by a response. Effects of different threads interleave, a thread may crash between any two
of its effects and be restarted, and an environment may change the world at any time.

Safety is proved thread by thread with rely-guarantee contracts: what a thread relies on from the
others, what it guarantees to them, and what holds of the world while it is idle. -/

namespace Interleaving

open Runs

/-! ## Programs -/

/-- A program that returns a value, or performs an effect and continues with its response. -/
inductive Prog (E : Type) (R : E → Type) (α : Type)
  | ret (value : α)
  | call (effect : E) (next : R effect → Prog E R α)

variable {E : Type} {R : E → Type} {α β ε : Type}

def Prog.bind : Prog E R α → (α → Prog E R β) → Prog E R β
  | .ret value, rest => rest value
  | .call effect next, rest => .call effect fun response => (next response).bind rest

instance : Monad (Prog E R) where
  pure := .ret
  bind := .bind

/-- Perform one effect and return its response. -/
def perform (effect : E) : Prog E R (R effect) := .call effect .ret

/-! ## Systems -/

variable {ι σ M A : Type}

/-- A family of threads over a shared world. -/
structure System (ι σ : Type) (E : Type) (R : E → Type) (M A : Type) where
  /-- The program a thread runs for a message; its value is the reply. -/
  handler : ι → M → Prog E R A
  /-- The responses and world changes of an effect. -/
  performs : ι → (effect : E) → σ → R effect → σ → Prop
  /-- Whether a reply ends the thread. -/
  stops : A → Bool
  /-- World changes that are no thread's. -/
  environment : σ → σ → Prop
  /-- World changes when a stopped thread is started again. -/
  restarts : ι → σ → σ → Prop

inductive Thread (E : Type) (R : E → Type) (A : Type)
  | idle
  | running (program : Prog E R A)
  | stopped

/-- The shared world and every thread. -/
structure Config (ι σ : Type) (E : Type) (R : E → Type) (A : Type) where
  world : σ
  threads : ι → Thread E R A

inductive Label (ι E M A : Type)
  | receive (thread : ι) (message : M)
  | act (thread : ι) (effect : E)
  | finish (thread : ι) (reply : A)
  | crash (thread : ι)
  | restart (thread : ι)
  | environment

/-- Change what one thread is doing, and the world. -/
def Config.set [DecidableEq ι] (config : Config ι σ E R A) (world : σ) (i : ι)
    (thread : Thread E R A) :
    Config ι σ E R A :=
  ⟨world, Function.update config.threads i thread⟩

variable (config : Config ι σ E R A)

@[simp] theorem Config.set_threads_self [DecidableEq ι] (world : σ)
    (i : ι) (thread : Thread E R A) : (config.set world i thread).threads i = thread := by
  simp [Config.set]

@[simp] theorem Config.set_set [DecidableEq ι] (world world' : σ)
    (i : ι) (thread thread' : Thread E R A) :
    (config.set world i thread).set world' i thread' = config.set world' i thread' := by
  simp [Config.set]

/-- One step of the system: one thread receives a message, performs one effect, replies, crashes or
is restarted, or the environment acts. -/
inductive System.Step [DecidableEq ι] (system : System ι σ E R M A) :
    Config ι σ E R A → Label ι E M A → Config ι σ E R A → Prop
  | receive {config i message} (idle : config.threads i = .idle) :
      Step system config (.receive i message)
        (config.set config.world i (.running (system.handler i message)))
  | act {config i effect next response world}
      (running : config.threads i = .running (.call effect next))
      (performs : system.performs i effect config.world response world) :
      Step system config (.act i effect) (config.set world i (.running (next response)))
  | finish {config i reply} (running : config.threads i = .running (.ret reply)) :
      Step system config (.finish i reply)
        (config.set config.world i (if system.stops reply then .stopped else .idle))
  | crash {config i} : Step system config (.crash i) (config.set config.world i .stopped)
  | restart {config i world} (stopped : config.threads i = .stopped)
      (restarts : system.restarts i config.world world) :
      Step system config (.restart i) (config.set world i .idle)
  | environment {config world} (changes : system.environment config.world world) :
      Step system config .environment { config with world := world }

/-! ## Running alone -/

/-- Run by itself from world `s`, a program can return `value` in world `t`. -/
inductive System.Yields (system : System ι σ E R M A) (i : ι) :
    Prog E R α → σ → α → σ → Prop
  | ret (value : α) (s : σ) : Yields system i (.ret value) s value s
  | call {effect : E} {next : R effect → Prog E R α} {s t u : σ} {response : R effect} {value : α}
      (performs : system.performs i effect s response t)
      (rest : Yields system i (next response) t value u) :
      Yields system i (.call effect next) s value u

variable {system : System ι σ E R M A} {i : ι} {s t u : σ} {rest : α → ExceptT ε (Prog E R) β}
  {first : ExceptT ε (Prog E R) α}

theorem System.Yields.perform {effect : E} {response : R effect}
    (performs : system.performs i effect s response t) :
    system.Yields i (Interleaving.perform effect) s response t :=
  .call performs (.ret response t)

/-- Sequencing of programs that run alone. -/
theorem System.Yields.bind {program : Prog E R α} {rest : α → Prog E R β} {value : α} {result : β}
    (h : system.Yields i program s value t) (hr : system.Yields i (rest value) t result u) :
    system.Yields i (program >>= rest) s result u := by
  induction h with
  | ret => exact hr
  | call performs _ ih => exact .call performs (ih hr)

/-- Sequencing of fallible programs: the first part succeeds. -/
theorem System.Yields.bindOk {value : α} {result : Except ε β}
    (h : system.Yields i first.run s (.ok value) t)
    (hr : system.Yields i (rest value).run t result u) :
    system.Yields i (first >>= rest).run s result u := by
  rw [ExceptT.run_bind]
  exact h.bind hr

/-- Sequencing of fallible programs: the first part fails. -/
theorem System.Yields.bindError {error : ε} (h : system.Yields i first.run s (.error error) t) :
    system.Yields i (first >>= rest).run s (.error error) t := by
  rw [ExceptT.run_bind]
  exact h.bind (.ret _ _)

/-- A program that yields a value takes its effects as steps of the system. -/
theorem System.Yields.run [DecidableEq ι] {program : Prog E R A} {reply : A}
    (h : system.Yields i program s reply t) (config : Config ι σ E R A) :
    ∃ steps, Run system.Step (config.set s i (.running program)) steps
      (config.set t i (if system.stops reply then .stopped else .idle)) := by
  induction h with
  | ret reply s =>
    have hf : system.Step _ _ _ := .finish (config.set_threads_self s i (.running (.ret reply)))
    rw [Config.set_set] at hf
    exact ⟨_, .cons hf (.nil _)⟩
  | @call effect next s t u _ _ performs _ ih =>
    obtain ⟨steps, hrun⟩ := ih
    have hact : system.Step _ _ _ :=
      .act (config.set_threads_self s i (.running (.call effect next))) performs
    rw [Config.set_set] at hact
    exact ⟨_, .cons hact hrun⟩

/-- An idle thread that receives a message can run its handler by itself. -/
theorem System.Yields.run_handler [DecidableEq ι] {message : M}
    {reply : A} (hi : config.threads i = .idle)
    (h : system.Yields i (system.handler i message) config.world reply t) :
    ∃ steps, Run system.Step config steps
      (config.set t i (if system.stops reply then .stopped else .idle)) := by
  obtain ⟨steps, hrun⟩ := h.run config
  exact ⟨_, .cons (.receive hi) hrun⟩

/-! ## Contracts -/

/-- A rely-guarantee contract of a system. -/
structure Contract (system : System ι σ E R M A) where
  /-- What a thread may assume of the steps it does not take. -/
  Rely : ι → σ → σ → Prop
  /-- What every effect of a thread does to the world. -/
  Guarantee : ι → σ → σ → Prop
  /-- What holds of the world whenever the thread is idle. -/
  Idle : ι → σ → Prop
  rely_refl : ∀ i s, Rely i s s
  rely_trans : ∀ {i s t u}, Rely i s t → Rely i t u → Rely i s u
  guarantee_rely : ∀ {i j s t}, i ≠ j → Guarantee i s t → Rely j s t
  environment_rely : ∀ {j s t}, system.environment s t → Rely j s t
  restart_rely : ∀ {i j s t}, i ≠ j → system.restarts i s t → Rely j s t
  restart_idle : ∀ {i s t}, system.restarts i s t → Idle i t
  idle_stable : ∀ {i s t}, Rely i s t → Idle i s → Idle i t

variable (contract : Contract system)

/-- From world `s`, whatever the others do in between, every effect of the program keeps the
guarantee, and the program's value and the world it ends in satisfy `Q`. -/
def Contract.Safe (i : ι) (Q : α → σ → Prop) : Prog E R α → σ → Prop
  | .ret value, s => ∀ t, contract.Rely i s t → Q value t
  | .call effect next, s => ∀ t, contract.Rely i s t → ∀ response u,
      system.performs i effect t response u →
        contract.Guarantee i t u ∧ Contract.Safe i Q (next response) u

variable {contract} {Q Q' : α → σ → Prop} {program : Prog E R α}

/-- Interference keeps a program safe. -/
theorem Contract.Safe.of_rely (h : contract.Safe i Q program s) (hr : contract.Rely i s t) :
    contract.Safe i Q program t := by
  cases program with
  | ret | call => exact fun u hu => h u (contract.rely_trans hr hu)

theorem Contract.Safe.mono (h : contract.Safe i Q program s)
    (himp : ∀ value t, Q value t → Q' value t) : contract.Safe i Q' program s := by
  induction program generalizing s with
  | ret value => exact fun t ht => himp value t (h t ht)
  | call _ _ ih =>
    intro t ht response u hp
    obtain ⟨hg, hn⟩ := h t ht response u hp
    exact ⟨hg, ih response hn⟩

/-- **Sequencing rule.** -/
theorem Contract.Safe.bind {rest : α → Prog E R β} {P : β → σ → Prop}
    (h : contract.Safe i (fun value => contract.Safe i P (rest value)) program s) :
    contract.Safe i P (program >>= rest) s := by
  induction program generalizing s with
  | ret value => exact h s (contract.rely_refl i s)
  | call _ _ ih =>
    intro t ht response u hp
    obtain ⟨hg, hn⟩ := h t ht response u hp
    exact ⟨hg, ih response hn⟩

/-- A postcondition holds whatever the others do after the program ended. -/
theorem Contract.Safe.stable (h : contract.Safe i Q program s) :
    contract.Safe i (fun value t => ∀ u, contract.Rely i t u → Q value u) program s := by
  induction program generalizing s with
  | ret value => exact fun t ht u hu => h u (contract.rely_trans ht hu)
  | call _ _ ih =>
    intro t ht response u hp
    obtain ⟨hg, hn⟩ := h t ht response u hp
    exact ⟨hg, ih response hn⟩

/-- **Sequencing rule for fallible programs.** An error ends the program. -/
theorem Contract.Safe.bindExcept {P : Except ε β → σ → Prop}
    (h : contract.Safe i (fun result t => match result with
      | .ok value => contract.Safe i P (rest value).run t
      | .error error => P (.error error) t) first.run s) :
    contract.Safe i P (first >>= rest).run s := by
  rw [ExceptT.run_bind]
  refine Contract.Safe.bind (h.stable.mono ?_)
  intro result t hres
  cases result with
  | ok value => exact hres t (contract.rely_refl i t)
  | error error => exact hres

/-! ## Soundness -/

/-- Every thread is where its contract says: idle threads find their idle condition, running
threads are safe and end in it. -/
def Contract.Holds (contract : Contract system) (config : Config ι σ E R A) : Prop :=
  ∀ i, match config.threads i with
    | .idle => contract.Idle i config.world
    | .running program => contract.Safe i (fun _ => contract.Idle i) program config.world
    | .stopped => True

/-- What one step of the system can do to the world. -/
def Contract.WorldStep (contract : Contract system) (s t : σ) : Prop :=
  t = s ∨ (∃ i, contract.Guarantee i s t) ∨ system.environment s t ∨ ∃ i, system.restarts i s t

variable {config : Config ι σ E R A}

/-- A thread that does not move keeps its part of the contract. -/
theorem Contract.Holds.of_rely (h : contract.Holds config) {j : ι} {world : σ}
    (hr : contract.Rely j config.world world) :
    match config.threads j with
    | .idle => contract.Idle j world
    | .running program => contract.Safe j (fun _ => contract.Idle j) program world
    | .stopped => True := by
  have hj := h j
  cases ht : config.threads j with
  | idle =>
    rw [ht] at hj
    exact contract.idle_stable hr hj
  | running program =>
    rw [ht] at hj
    exact Contract.Safe.of_rely hj hr
  | stopped => trivial

variable [DecidableEq ι] {config' : Config ι σ E R A}

/-- Moving one thread keeps the contract when the others can rely on the world change. -/
theorem Contract.Holds.set (h : contract.Holds config) {world : σ} {thread : Thread E R A}
    (hos : ∀ j, i ≠ j → contract.Rely j config.world world) (ht : match thread with
      | .idle => contract.Idle i world
      | .running program => contract.Safe i (fun _ => contract.Idle i) program world
      | .stopped => True) :
    contract.Holds (config.set world i thread) := by
  intro j
  by_cases hj : j = i
  · subst hj
    simpa only [Config.set, Function.update_self] using ht
  · simpa only [Config.set, Function.update_of_ne hj] using h.of_rely (hos j (Ne.symm hj))

variable (hhr : ∀ i message s, contract.Idle i s →
    contract.Safe i (fun _ => contract.Idle i) (system.handler i message) s)
include hhr

/-- **Step lemma.** A step of the system keeps the contract and moves the world by a guarantee. -/
theorem Contract.Holds.step {label : Label ι E M A} (h : contract.Holds config)
    (hstep : system.Step config label config') :
    contract.Holds config' ∧ contract.WorldStep config.world config'.world := by
  cases hstep with
  | @receive i message idle =>
    have hi := h i
    rw [idle] at hi
    exact ⟨h.set (fun j _ => contract.rely_refl j _) (hhr i message _ hi), .inl rfl⟩
  | @act i _ _ response world running performs =>
    have hi := h i
    rw [running] at hi
    obtain ⟨hg, hn⟩ := hi _ (contract.rely_refl i _) response world performs
    exact ⟨h.set (fun j hj => contract.guarantee_rely hj hg) hn, .inr (.inl ⟨i, hg⟩)⟩
  | @finish i reply running =>
    have hi := h i
    rw [running] at hi
    refine ⟨h.set (fun j _ => contract.rely_refl j _) ?_, .inl rfl⟩
    by_cases hst : system.stops reply
    · simp [hst]
    · simpa [hst] using hi _ (contract.rely_refl i _)
  | crash => exact ⟨h.set (fun j _ => contract.rely_refl j _) trivial, .inl rfl⟩
  | @restart i world _ restarts =>
    exact ⟨h.set (fun j hj => contract.restart_rely hj restarts) (contract.restart_idle restarts),
      .inr (.inr (.inr ⟨i, restarts⟩))⟩
  | environment changes =>
    exact ⟨fun j => h.of_rely (contract.environment_rely changes), .inr (.inr (.inl changes))⟩

/-- **Run lemma.** If every handler is safe, the contract holds after every run. -/
theorem Contract.Holds.run {steps : List (Transition _ _)} (h : contract.Holds config)
    (run : Run system.Step config steps config') : contract.Holds config' :=
  run.invariant (fun _ _ _ hs hc => (hc.step hhr hs).1) h

/-- What every world step preserves is an invariant of the world. -/
theorem Contract.Holds.run_invariant {P : σ → Prop}
    (hw : ∀ s t, contract.WorldStep s t → P s → P t) {steps : List (Transition _ _)}
    (h : contract.Holds config) (hP : P config.world) (run : Run system.Step config steps config') :
    P config'.world := by
  refine (run.invariant (P := fun config => contract.Holds config ∧ P config.world) ?_ ⟨h, hP⟩).2
  rintro _ _ _ hs ⟨hbef, hPbefore⟩
  obtain ⟨haf, hm⟩ := hbef.step hhr hs
  exact ⟨haf, hw _ _ hm hPbefore⟩

end Interleaving
