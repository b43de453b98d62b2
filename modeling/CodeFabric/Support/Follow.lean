import Mathlib.Data.List.Chain
import Mathlib.Data.List.Count
import Mathlib.Tactic

/-! # Following successors

Walking from an element to its successor, to the successor's successor, and so on, until an element
has none. -/

namespace Following

open List

variable {α : Type*} {next : α → Option α} {start : α} {visited : List α}

/-- Follow the successors of an element; `none` when the visits are used up before an end. -/
def follow (next : α → Option α) : ℕ → α → Option (List α)
  | 0, _ => none
  | visits + 1, start =>
    match next start with
    | none => some [start]
    | some successor => (follow next visits successor).map (start :: ·)

/-- The elements from one to an end, in order. -/
inductive Path (next : α → Option α) : α → List α → Prop
  | last {start : α} (h : next start = none) : Path next start [start]
  | step {start successor : α} {visited : List α} (h : next start = some successor)
      (rest : Path next successor visited) : Path next start (start :: visited)

/-- A bounded walk finds the path if it is short enough. -/
theorem follow_eq_some {visits : ℕ} :
    follow next visits start = some visited ↔ Path next start visited ∧
      visited.length ≤ visits := by
  induction visits generalizing start visited with
  | zero =>
    refine ⟨fun h => by simp [follow] at h, ?_⟩
    rintro ⟨hp, hlen⟩
    cases hp <;> simp at hlen
  | succ visits ih =>
    rw [follow]
    constructor
    · intro h
      split at h
      · rename_i hn
        cases h
        exact ⟨.last hn, by simp⟩
      · rename_i successor hn
        obtain ⟨_, hr, rfl⟩ := Option.map_eq_some_iff.1 h
        obtain ⟨hp, hlen⟩ := ih.1 hr
        exact ⟨.step hn hp, Nat.succ_le_succ hlen⟩
    · rintro ⟨hp, hlen⟩
      cases hp with
      | last hn => simp [hn]
      | step hn hr =>
        have hfol := ih.2 ⟨hr, Nat.le_of_succ_le_succ hlen⟩
        simp [hn, hfol]

theorem Path.unique {visited' : List α} (h : Path next start visited)
    (h' : Path next start visited') : visited = visited' := by
  have hfol := follow_eq_some.2 ⟨h, le_max_left visited.length visited'.length⟩
  have hfol' := follow_eq_some.2 ⟨h', le_max_right visited.length visited'.length⟩
  exact Option.some.inj (hfol.symm.trans hfol')

theorem Path.head (h : Path next start visited) : visited.head? = some start := by
  cases h <;> rfl

/-- Each element of a path is the successor of the one before. -/
theorem Path.isChain (h : Path next start visited) :
    visited.IsChain fun before after => next before = some after := by
  induction h with
  | last _ => exact isChain_singleton _
  | step _ rest ih =>
    refine isChain_cons.2 ⟨fun after haf => ?_, ih⟩
    rw [rest.head] at haf
    rwa [← Option.some.inj haf]

/-- A chain of successors up to an end is a path. -/
theorem path_of_isChain {rest : List α}
    (hc : (start :: rest).IsChain fun before after => next before = some after)
    (hl : ∀ last, (start :: rest).getLast? = some last → next last = none) :
    Path next start (start :: rest) := by
  induction rest generalizing start with
  | nil => exact .last (hl start rfl)
  | cons _ rest ih =>
    obtain ⟨hn, hr⟩ := isChain_cons_cons.1 hc
    refine .step hn (ih hr fun last _ => hl last ?_)
    rwa [getLast?_cons_cons]

section

variable {rank : α → ℕ} {items : List α}

/-- A path stays among elements that successors do not leave. -/
theorem Path.subset (h : Path next start visited)
    (hcl : ∀ item ∈ items, ∀ successor, next item = some successor → successor ∈ items)
    (hsta : start ∈ items) : visited ⊆ items := by
  induction h with
  | last _ => simpa using hsta
  | step hn _ ih => exact cons_subset.2 ⟨hsta, ih (hcl _ hsta _ hn)⟩

theorem Path.pairwise_rank (h : Path next start visited)
    (hr : ∀ item ∈ visited, ∀ successor, next item = some successor → rank item < rank successor) :
    visited.Pairwise fun before after => rank before < rank after := by
  have : IsTrans α fun before after => rank before < rank after := ⟨fun _ _ _ => lt_trans⟩
  refine isChain_iff_pairwise.1 (h.isChain.imp_of_mem_imp ?_)
  intro before after hbef _ hn
  exact hr before hbef after hn

/-- An increasing rank visits nothing twice. -/
theorem Path.nodup (rank : α → ℕ) (h : Path next start visited)
    (hr : ∀ item ∈ visited, ∀ successor, next item = some successor →
      rank item < rank successor) : visited.Nodup :=
  (h.pairwise_rank hr).imp fun hl heq => (heq ▸ hl).false

/-- **A walk among finitely many elements ends** if a rank increases along it. -/
theorem exists_path
    (hcl : ∀ item ∈ items, ∀ successor, next item = some successor → successor ∈ items)
    (hrn : ∀ item ∈ items, ∀ successor, next item = some successor → rank item < rank successor)
    (hsta : start ∈ items) :
    ∃ visited, Path next start visited ∧ visited.length ≤ items.length := by
  obtain ⟨visited, hp⟩ : ∃ visited, Path next start visited := by
    -- the distance to the largest rank decreases
    induction hdis : (items.map rank).sum - rank start using Nat.strong_induction_on
      generalizing start with
    | _ _ ih =>
      cases hnx : next start with
      | none => exact ⟨[start], .last hnx⟩
      | some successor =>
        have hmem := hcl start hsta successor hnx
        have hl := hrn start hsta successor hnx
        have hbd : rank successor ≤ (items.map rank).sum :=
          single_le_sum (by simp) _ (mem_map_of_mem hmem)
        obtain ⟨rest, hrs⟩ := ih _ (by omega) hmem rfl
        exact ⟨start :: rest, .step hnx hrs⟩
  have hsub := hp.subset hcl hsta
  have hnd : visited.Nodup := hp.nodup rank fun item hi => hrn item (hsub hi)
  exact ⟨visited, hp, (subperm_of_subset hnd hsub).length_le⟩

end

end Following
