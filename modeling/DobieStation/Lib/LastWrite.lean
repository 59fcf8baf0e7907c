import Mathlib.Data.Nat.Notation
import Mathlib.Tactic.Common

/-! # The last write to a cell

A sequence of writes, of which some go to the cell that is looked at (`hits`) and the others leave it
alone: what the cell holds in the end is the value of the last one that went to it (`Cell.last`). -/

namespace DobieStation.Lib.LastWrite

variable {M A V : Type}

/-- A write either hits the cell, which then holds its value, or leaves it alone. -/
structure Cell (write : M → A → M) (hits : A → Prop) (read : M → V) (value : A → V) : Prop where
  hit : ∀ m a, hits a → read (write m a) = value a
  miss : ∀ m a, ¬ hits a → read (write m a) = read m

variable {write : M → A → M} {hits : A → Prop} {read : M → V} {value : A → V}

/-- The writes `p 0`, `p 1`, … up to the number `n`. -/
def writes (write : M → A → M) (p : ℕ → A) (n : ℕ) (m : M) : M :=
  ((List.range n).map p).foldl write m

variable {p : ℕ → A} {n : ℕ} {m : M}

theorem writes_succ : writes write p (n + 1) m = write (writes write p n m) (p n) := by
  rw [writes, List.range_succ, List.map_append, List.foldl_append]
  rfl

/-- The write `j` is the last one that hits. -/
def IsLast (hits : A → Prop) (p : ℕ → A) (n j : ℕ) : Prop :=
  j < n ∧ hits (p j) ∧ ∀ i < n, j < i → ¬ hits (p i)

theorem Cell.last (h : Cell write hits read value) :
    (∀ j < n, ¬ hits (p j)) ∧ read (writes write p n m) = read m ∨
      ∃ j, IsLast hits p n j ∧ read (writes write p n m) = value (p j) := by
  induction n with
  | zero => exact Or.inl ⟨fun j hj => absurd hj (Nat.not_lt_zero j), rfl⟩
  | succ n ih =>
    rw [writes_succ]
    by_cases hn : hits (p n)
    · refine Or.inr ⟨n, ⟨Nat.lt_succ_self n, hn, fun i hi hni => ?_⟩, h.hit _ _ hn⟩
      omega
    · rw [h.miss _ _ hn]
      rcases ih with ⟨hnone, hread⟩ | ⟨j, ⟨hj, hhit, hlast⟩, hread⟩
      · refine Or.inl ⟨fun j hj => ?_, hread⟩
        rcases Nat.lt_succ_iff_lt_or_eq.mp hj with hj | rfl
        · exact hnone j hj
        · exact hn
      · refine Or.inr ⟨j, ⟨Nat.lt_succ_of_lt hj, hhit, fun i hi hji => ?_⟩, hread⟩
        rcases Nat.lt_succ_iff_lt_or_eq.mp hi with hi | rfl
        · exact hlast i hi hji
        · exact hn

theorem IsLast.unique {j j' : ℕ} (h : IsLast hits p n j) (h' : IsLast hits p n j') : j = j' := by
  obtain ⟨hj, hhit, hlast⟩ := h
  obtain ⟨hj', hhit', hlast'⟩ := h'
  rcases Nat.lt_trichotomy j j' with hlt | heq | hgt
  · exact absurd hhit' (hlast j' hj' hlt)
  · exact heq
  · exact absurd hhit (hlast' j hj hgt)

end DobieStation.Lib.LastWrite
