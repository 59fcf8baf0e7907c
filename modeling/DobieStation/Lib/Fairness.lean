import DobieStation.Lib.Reach
import Mathlib.Data.Nat.Init
import Mathlib.Logic.Function.Iterate

/-! # Fair runs

Unending runs of a labelled transition system in which nothing may happen for a while. A run is fair
when no kind of step stays possible for ever without being taken. A rank that no step raises, with a
kind of step that lowers it and that stays possible until it is taken, leads every fair run to its goal
(`Progress.leads`). -/

namespace DobieStation.Lib.Fairness

open DobieStation.Lib.Reach

variable {S A K : Type*} {step : S → A → S → Prop} {kind : A → K}

/-- An unending run, with the labels of its steps. -/
structure Run (step : S → A → S → Prop) where
  state : ℕ → S
  label : ℕ → Option A
  idle : ∀ i, label i = none → state (i + 1) = state i
  moves : ∀ i a, label i = some a → step (state i) a (state (i + 1))

/-- A step of the kind `k` is possible. -/
def Possible (step : S → A → S → Prop) (kind : A → K) (k : K) (s : S) : Prop :=
  ∃ a s', kind a = k ∧ step s a s'

/-- Every kind of step is taken, or not possible, again and again. -/
def Run.Fair (kind : A → K) (r : Run step) : Prop :=
  ∀ k i, ∃ j, i ≤ j ∧ ((∃ a, r.label j = some a ∧ kind a = k) ∨ ¬ Possible step kind k (r.state j))

/-- A property that the steps keep. -/
theorem Run.keeps {I : S → Prop} (hstep : ∀ s a s', I s → step s a s' → I s') (r : Run step) {i j : ℕ}
    (hij : i ≤ j) (hI : I (r.state i)) : I (r.state j) := by
  induction j, hij using Nat.le_induction with
  | base => exact hI
  | succ j _ ih =>
    cases hl : r.label j with
    | none => exact (r.idle j hl).symm ▸ ih
    | some a => exact hstep _ a _ ih (r.moves j a hl)

/-- Until the goal `G` there is a rank that no step raises and a kind of step that lowers it. -/
structure Progress (step : S → A → S → Prop) (kind : A → K) (I G : S → Prop) (rank : S → ℕ)
    (helpful : S → K) : Prop where
  keeps : ∀ s a s', I s → ¬ G s → step s a s' → I s'
  possible : ∀ s, I s → ¬ G s → Possible step kind (helpful s) s
  lowers : ∀ s a s', I s → ¬ G s → step s a s' → G s' ∨ rank s' < rank s ∨
    (rank s' = rank s ∧ helpful s' = helpful s ∧ kind a ≠ helpful s)

section

variable {I G : S → Prop} {rank : S → ℕ} {helpful : S → K}

/-- As long as the helpful kind is not taken, the rank stays, unless it falls or the goal is reached. -/
theorem Progress.until (h : Progress step kind I G rank helpful) (r : Run step) {i : ℕ}
    (hI : I (r.state i)) (hG : ¬ G (r.state i)) {j : ℕ} (hij : i ≤ j) :
    (∃ m, i ≤ m ∧ m ≤ j ∧ (G (r.state m) ∨ I (r.state m) ∧ rank (r.state m) < rank (r.state i))) ∨
      (I (r.state j) ∧ ¬ G (r.state j) ∧ rank (r.state j) = rank (r.state i) ∧
        helpful (r.state j) = helpful (r.state i)) := by
  induction j, hij using Nat.le_induction with
  | base => exact Or.inr ⟨hI, hG, rfl, rfl⟩
  | succ j hij ih =>
    rcases ih with ⟨m, him, hmj, hm⟩ | ⟨hIj, hGj, hrank, hhelp⟩
    · exact Or.inl ⟨m, him, by omega, hm⟩
    cases hl : r.label j with
    | none =>
      rw [r.idle j hl]
      exact Or.inr ⟨hIj, hGj, hrank, hhelp⟩
    | some a =>
      have hmove := r.moves j a hl
      have hI' := h.keeps _ a _ hIj hGj hmove
      by_cases hG' : G (r.state (j + 1))
      · exact Or.inl ⟨j + 1, by omega, Nat.le_refl _, Or.inl hG'⟩
      rcases h.lowers _ a _ hIj hGj hmove with hg | hlt | ⟨heq, hsame, -⟩
      · exact absurd hg hG'
      · exact Or.inl ⟨j + 1, by omega, Nat.le_refl _, Or.inr ⟨hI', by omega⟩⟩
      · exact Or.inr ⟨hI', hG', heq.trans hrank, hsame.trans hhelp⟩

/-- **The rule of fair progress.** -/
theorem Progress.leads (h : Progress step kind I G rank helpful) (r : Run step) (hfair : r.Fair kind)
    {i : ℕ} (hI : I (r.state i)) : ∃ j, i ≤ j ∧ G (r.state j) := by
  induction hn : rank (r.state i) using Nat.strong_induction_on generalizing i with
  | _ n ih =>
    by_cases hG : G (r.state i)
    · exact ⟨i, Nat.le_refl i, hG⟩
    have hlower : ∀ m, i ≤ m → I (r.state m) ∧ rank (r.state m) < rank (r.state i) →
        ∃ j, i ≤ j ∧ G (r.state j) := by
      intro m him hm
      obtain ⟨j, hmj, hj⟩ := ih _ (hn ▸ hm.2) hm.1 rfl
      exact ⟨j, Nat.le_trans him hmj, hj⟩
    obtain ⟨j, hij, hj⟩ := hfair (helpful (r.state i)) i
    rcases h.until r hI hG hij with ⟨m, him, -, hm | hm⟩ | ⟨hIj, hGj, hrank, hhelp⟩
    · exact ⟨m, him, hm⟩
    · exact hlower m him hm
    · rcases hj with ⟨a, hl, hk⟩ | hnot
      · have hmove := r.moves j a hl
        rcases h.lowers _ a _ hIj hGj hmove with hg | hlt | ⟨-, -, hne⟩
        · exact ⟨j + 1, by omega, hg⟩
        · exact hlower (j + 1) (by omega) ⟨h.keeps _ a _ hIj hGj hmove, by omega⟩
        · exact absurd (hk.trans hhelp.symm) hne
      · exact absurd (hhelp ▸ h.possible _ hIj hGj) hnot

end

/-! ### Building runs -/

theorem iterate_keeps {f : S → S} {I : S → Prop} (hI : ∀ s, I s → I (f s)) {s : S} (h : I s) (i : ℕ) :
    I (f^[i] s) := by
  induction i with
  | zero => exact h
  | succ i ih =>
    rw [Function.iterate_succ_apply']
    exact hI _ ih

/-- The same step for ever. -/
def Run.iterate (f : S → S) (a : S → A) {I : S → Prop} (hI : ∀ s, I s → I (f s))
    (hstep : ∀ s, I s → step s (a s) (f s)) (s : S) (h : I s) : Run step where
  state i := f^[i] s
  label i := some (a (f^[i] s))
  idle _ hl := by cases hl
  moves i b hl := by
    cases hl
    rw [Function.iterate_succ_apply']
    exact hstep _ (iterate_keeps hI h i)

/-- A step before a run. -/
def Run.cons {s : S} {a : A} (r : Run step) (h : step s a (r.state 0)) : Run step where
  state
    | 0 => s
    | i + 1 => r.state i
  label
    | 0 => some a
    | i + 1 => r.label i
  idle
    | 0, hl => by cases hl
    | i + 1, hl => r.idle i hl
  moves
    | 0, b, hl => by
      cases hl
      exact h
    | i + 1, b, hl => r.moves i b hl

theorem Run.Fair.cons {s : S} {a : A} {r : Run step} {h : step s a (r.state 0)} (hr : r.Fair kind) :
    (r.cons h).Fair kind := by
  intro k i
  obtain ⟨j, hij, hj⟩ := hr k i
  exact ⟨j + 1, by omega, hj⟩

/-- A run follows from each state that is reached. -/
theorem Run.reaches {init : S → Prop} (r : Run step) (h : Reaches init step (r.state 0)) (i : ℕ) :
    Reaches init step (r.state i) := by
  induction i with
  | zero => exact h
  | succ i ih =>
    cases hl : r.label i with
    | none => exact (r.idle i hl).symm ▸ ih
    | some a => exact ih.next (r.moves i a hl)

end DobieStation.Lib.Fairness
