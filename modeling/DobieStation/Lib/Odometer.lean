import Mathlib.Algebra.BigOperators.Group.Finset.Basic
import Mathlib.Algebra.Order.BigOperators.Group.Finset
import Mathlib.Tactic.Common

/-! # Counters with a carry

A `Counter` goes through units of time, each of which begins at a number and has a length; its numbers begin anew
after a period (`Lawful`). A counter may be refined by a digit, of which there may be more or fewer in a unit
(`refine`): where the digit is at its end, the next unit begins. A counter of units of length one counts
(`iterate_start`), and no two units begin at the same number (`start_inj`). -/

namespace DobieStation.Lib.Odometer

open Finset

variable {U : Type*}

structure Counter (U : Type*) where
  valid : U → Prop
  next : U → U
  start : U → ℕ
  length : U → ℕ

structure Lawful (c : Counter U) (period : ℕ) : Prop where
  valid_next : ∀ u, c.valid u → c.valid (c.next u)
  start_next : ∀ u, c.valid u → c.start (c.next u) = (c.start u + c.length u) % period
  end_le : ∀ u, c.valid u → c.start u + c.length u ≤ period
  unique : ∀ u v t, c.valid u → c.valid v → c.start u ≤ t → t < c.start u + c.length u → c.start v ≤ t →
    t < c.start v + c.length v → u = v

/-- The whole period is a unit. -/
def whole (period : ℕ) : Counter Unit where
  valid _ := True
  next _ := ()
  start _ := 0
  length _ := period

theorem lawful_whole (period : ℕ) : Lawful (whole period) period where
  valid_next _ _ := trivial
  start_next _ _ := by
    show 0 = (0 + period) % period
    rw [Nat.zero_add, Nat.mod_self]
  end_le _ _ := (Nat.zero_add period).le
  unique _ _ _ _ _ _ _ _ _ := rfl

/-- The units are divided by a digit that begins with `first`; `len u i` is the length of the part `i` of `u`. -/
def refine (c : Counter U) (first : ℕ) (count : U → ℕ) (len : U → ℕ → ℕ) : Counter (ℕ × U) where
  valid x := (first ≤ x.1 ∧ x.1 < first + count x.2) ∧ c.valid x.2
  next x := if x.1 + 1 < first + count x.2 then (x.1 + 1, x.2) else (first, c.next x.2)
  start x := c.start x.2 + ∑ i ∈ range (x.1 - first), len x.2 i
  length x := len x.2 (x.1 - first)

section

variable {c : Counter U} {period first : ℕ} {count : U → ℕ} {len : U → ℕ → ℕ} {u : U}

/-- The parts of each unit make it up. -/
structure Parts (c : Counter U) (count : U → ℕ) (len : U → ℕ → ℕ) : Prop where
  some_part : ∀ u, c.valid u → 0 < count u
  pos : ∀ u i, c.valid u → i < count u → 0 < len u i
  total : ∀ u, c.valid u → ∑ i ∈ range (count u), len u i = c.length u

theorem Parts.sum_le (h : Parts c count len) (hu : c.valid u) {n : ℕ} (hn : n ≤ count u) :
    ∑ i ∈ range n, len u i ≤ c.length u := by
  rw [← h.total u hu]
  exact sum_le_sum_of_subset (range_subset_range.mpr hn)

theorem Parts.sum_lt (h : Parts c count len) (hu : c.valid u) {n : ℕ} (hn : n < count u) :
    ∑ i ∈ range n, len u i < c.length u := by
  have hnext := h.sum_le hu (show n + 1 ≤ count u from hn)
  rw [sum_range_succ] at hnext
  have hpos := h.pos u n hu hn
  omega

theorem next_of_lt {d : ℕ} (h : d + 1 < first + count u) :
    (refine c first count len).next (d, u) = (d + 1, u) := if_pos h

theorem next_of_end {d : ℕ} (h : ¬ d + 1 < first + count u) :
    (refine c first count len).next (d, u) = (first, c.next u) := if_neg h

/-- The end of a part. -/
theorem end_refine {d : ℕ} (hd : first ≤ d) : (refine c first count len).start (d, u) +
    (refine c first count len).length (d, u) = c.start u + ∑ i ∈ range (d + 1 - first), len u i := by
  show c.start u + ∑ i ∈ range (d - first), len u i + len u (d - first) = _
  rw [show d + 1 - first = d - first + 1 by omega, sum_range_succ, Nat.add_assoc]

theorem part_eq {d e t : ℕ} (hd : first ≤ d) (h : (refine c first count len).start (e, u) ≤ t)
    (h' : t < (refine c first count len).start (d, u) + (refine c first count len).length (d, u)) : e ≤ d := by
  by_contra hlt
  rw [end_refine hd] at h'
  have hsum : ∑ i ∈ range (d + 1 - first), len u i ≤ ∑ i ∈ range (e - first), len u i :=
    sum_le_sum_of_subset (range_subset_range.mpr (by omega))
  have hstart : (refine c first count len).start (e, u) = c.start u + ∑ i ∈ range (e - first), len u i := rfl
  omega

theorem lawful_refine (hc : Lawful c period) (h : Parts c count len) :
    Lawful (refine c first count len) period := by
  have hend : ∀ x, (refine c first count len).valid x →
      (refine c first count len).start x + (refine c first count len).length x ≤ c.start x.2 + c.length x.2 := by
    rintro ⟨d, u⟩ ⟨⟨hd, hlt⟩, hu⟩
    rw [end_refine hd]
    exact Nat.add_le_add_left (h.sum_le hu (by omega)) _
  refine ⟨?_, ?_, fun x hx => (hend x hx).trans (hc.end_le x.2 hx.2), ?_⟩
  · rintro ⟨d, u⟩ ⟨⟨hd, hlt⟩, hu⟩
    show (refine c first count len).valid (if d + 1 < first + count u then (d + 1, u) else (first, c.next u))
    split_ifs with hin
    · exact ⟨⟨Nat.le_succ_of_le hd, hin⟩, hu⟩
    · have hnext := hc.valid_next u hu
      exact ⟨⟨Nat.le_refl first, Nat.lt_add_of_pos_right (h.some_part _ hnext)⟩, hnext⟩
  · rintro ⟨d, u⟩ ⟨⟨hd, hlt⟩, hu⟩
    dsimp only at hd hlt
    rw [end_refine hd]
    show (refine c first count len).start (if d + 1 < first + count u then (d + 1, u) else (first, c.next u)) = _
    split_ifs with hin
    · have hinside := h.sum_lt hu (show d + 1 - first < count u by omega)
      have hperiod : c.start u + ∑ i ∈ range (d + 1 - first), len u i < period :=
        lt_of_lt_of_le (Nat.add_lt_add_left hinside _) (hc.end_le u hu)
      exact (Nat.mod_eq_of_lt hperiod).symm
    · have hlast : d + 1 - first = count u := by omega
      rw [hlast, h.total u hu, ← hc.start_next u hu]
      show c.start (c.next u) + ∑ i ∈ range (first - first), len (c.next u) i = _
      rw [Nat.sub_self, range_zero, sum_empty, Nat.add_zero]
  · rintro ⟨d, u⟩ ⟨e, v⟩ t hx hy hdt htd het hte
    have hdu : c.start u ≤ t := le_trans (Nat.le_add_right _ _) hdt
    have hev : c.start v ≤ t := le_trans (Nat.le_add_right _ _) het
    obtain rfl := hc.unique u v t hx.2 hy.2 hdu (lt_of_lt_of_le htd (hend _ hx)) hev (lt_of_lt_of_le hte (hend _ hy))
    rw [Nat.le_antisymm (part_eq hy.1.1 hdt hte) (part_eq hx.1.1 het htd)]

/-- **A counter of units of length one counts.** -/
theorem iterate_start (hc : Lawful c period) (hone : ∀ u, c.valid u → c.length u = 1) (hu : c.valid u) (n : ℕ) :
    c.valid (c.next^[n] u) ∧ c.start (c.next^[n] u) = (c.start u + n) % period := by
  induction n with
  | zero =>
    have hle := hc.end_le u hu
    rw [hone u hu] at hle
    exact ⟨hu, (Nat.mod_eq_of_lt hle).symm⟩
  | succ n ih =>
    obtain ⟨hvalid, hstart⟩ := ih
    rw [Function.iterate_succ_apply', hc.start_next _ hvalid, hone _ hvalid, hstart, Nat.mod_add_mod, Nat.add_assoc]
    exact ⟨hc.valid_next _ hvalid, rfl⟩

theorem start_inj (hc : Lawful c period) (hone : ∀ u, c.valid u → c.length u = 1) {v : U} (hu : c.valid u)
    (hv : c.valid v) (h : c.start u = c.start v) : u = v := by
  have hlu := hone u hu
  have hlv := hone v hv
  exact hc.unique u v (c.start u) hu hv (Nat.le_refl _) (by omega) h.ge (by omega)

end

end DobieStation.Lib.Odometer
