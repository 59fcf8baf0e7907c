import DobieStation.Ee.Run
import Mathlib.Algebra.Group.Nat.Defs
import Mathlib.Algebra.BigOperators.Group.List.Basic

/-! # COUNT and COMPARE

`count_up` compares COUNT with COMPARE before and after an addition that may wrap. The interrupt of the timer
becomes pending if some call reaches COMPARE and does not wrap (`countUpAll_pending`), and not in a call that
passes COMPARE and wraps. -/

namespace DobieStation.Ee.Count

open DobieStation.Ee.Interface DobieStation.Ee.Run

/-- The cycles of a call, an `int` that is not negative. -/
abbrev Cycles := {cycles : ℕ // cycles < 2 ^ 31}

def total (calls : List Cycles) : ℕ := (calls.map Subtype.val).sum

def countUpAll (calls : List Cycles) (c : Cop0) : Cop0 := calls.foldl (fun c cycles => countUp cycles c) c

/-! ### The purpose -/

/-- COUNT comes to COMPARE in one of the next `n` cycles. -/
def Passes (count compare : Word) (n : ℕ) : Prop := ∃ k, 0 < k ∧ k ≤ n ∧ count + BitVec.ofNat 32 k = compare

/-- A call reaches COMPARE, and COUNT does not wrap in it. -/
def Reaches (count compare : Word) (cycles : ℕ) : Prop :=
  count.toNat < compare.toNat ∧ compare.toNat ≤ count.toNat + cycles ∧ count.toNat + cycles < 2 ^ 32

instance (count compare : Word) (cycles : ℕ) : Decidable (Reaches count compare cycles) := by
  unfold Reaches; infer_instance

/-- Some call of a run does. -/
def Caught (compare : Word) : List Cycles → Word → Prop
  | [], _ => False
  | cycles :: calls, count => Reaches count compare cycles ∨ Caught compare calls (count + BitVec.ofNat 32 cycles)

theorem Reaches.passes {count compare : Word} {n m : ℕ} (h : Reaches count compare n) (hn : n ≤ m) :
    Passes count compare m := by
  obtain ⟨hlt, hle, -⟩ := h
  refine ⟨compare.toNat - count.toNat, by omega, by omega, ?_⟩
  apply BitVec.eq_of_toNat_eq
  have := compare.isLt
  rw [BitVec.toNat_add, BitVec.toNat_ofNat]
  omega

theorem Passes.add {count compare : Word} {n m : ℕ} (h : Passes (count + BitVec.ofNat 32 n) compare m) :
    Passes count compare (n + m) := by
  obtain ⟨k, hpos, hk, hcompare⟩ := h
  refine ⟨n + k, by omega, by omega, ?_⟩
  rw [BitVec.ofNat_add, ← BitVec.add_assoc]
  exact hcompare

theorem Caught.passes {compare : Word} : ∀ {calls : List Cycles} {count : Word}, Caught compare calls count →
    Passes count compare (total calls)
  | cycles :: calls, count, h => by
    rcases h with h | h
    · exact h.passes (Nat.le_add_right _ _)
    · exact h.passes.add

/-! ### A call -/

theorem countUpPerformance_gpr (cycles : Word) (c : Cop0) : (countUpPerformance cycles c).gpr = c.gpr := by
  unfold countUpPerformance
  split <;> rfl

theorem countUpPerformance_cause (cycles : Word) (c : Cop0) : (countUpPerformance cycles c).cause = c.cause := by
  unfold countUpPerformance
  split <;> rfl

theorem countUp_count (cycles : ℕ) (c : Cop0) : (countUp cycles c).gpr 9 = c.gpr 9 + BitVec.ofNat 32 cycles := by
  rw [countUp, countUpPerformance_gpr]
  exact Function.update_self 9 _ c.gpr

theorem countUp_compare (cycles : ℕ) (c : Cop0) : (countUp cycles c).gpr 11 = c.gpr 11 := by
  rw [countUp, countUpPerformance_gpr]
  exact Function.update_of_ne (by decide : (11 : ℕ) ≠ 9) (c.gpr 9 + BitVec.ofNat 32 cycles) c.gpr

theorem countUp_pending (cycles : Cycles) (c : Cop0) : (countUp cycles c).cause.timerIntPending = true ↔
    c.cause.timerIntPending = true ∨ Reaches (c.gpr 9) (c.gpr 11) cycles := by
  have hcycles := cycles.property
  have hcount := (c.gpr 9).isLt
  have hcarry : c.gpr 9 < c.gpr 11 ∧ c.gpr 11 ≤ c.gpr 9 + BitVec.ofNat 32 cycles ↔
      Reaches (c.gpr 9) (c.gpr 11) cycles := by
    rw [Reaches, BitVec.lt_def, BitVec.le_def, BitVec.toNat_add, BitVec.toNat_ofNat]
    have := (c.gpr 11).isLt
    omega
  rw [countUp, countUpPerformance_cause, ← hcarry]
  simp [countUpTimer]

/-! ### A run -/

theorem countUpAll_cons (cycles : Cycles) (calls : List Cycles) (c : Cop0) :
    countUpAll (cycles :: calls) c = countUpAll calls (countUp cycles c) := rfl

theorem countUpAll_count : ∀ (calls : List Cycles) (c : Cop0),
    (countUpAll calls c).gpr 9 = c.gpr 9 + BitVec.ofNat 32 (total calls)
  | [], c => (BitVec.add_zero _).symm
  | cycles :: calls, c => by
    have hsum : total (cycles :: calls) = cycles + total calls := rfl
    rw [countUpAll_cons, countUpAll_count calls, countUp_count, hsum, BitVec.ofNat_add, BitVec.add_assoc]

theorem countUpAll_pending : ∀ (calls : List Cycles) (c : Cop0),
    (countUpAll calls c).cause.timerIntPending = true ↔
      c.cause.timerIntPending = true ∨ Caught (c.gpr 11) calls (c.gpr 9)
  | [], c => (or_false _).symm.to_iff
  | cycles :: calls, c => by
    rw [countUpAll_cons, countUpAll_pending calls, countUp_pending, countUp_count, countUp_compare, or_assoc]
    rfl

/-- The final COUNT is right for every split of a run. The interrupt is the one of COUNT passing COMPARE if and
only if COUNT does not pass it, or some call reaches it without wrapping, or the interrupt was pending before. -/
theorem countUp_passes_iff (calls : List Cycles) (c : Cop0) :
    let c' := countUpAll calls c
    c'.gpr 9 = c.gpr 9 + BitVec.ofNat 32 (total calls) ∧
      ((c'.cause.timerIntPending = true ↔
          c.cause.timerIntPending = true ∨ Passes (c.gpr 9) (c.gpr 11) (total calls)) ↔
        (c.cause.timerIntPending = false → Passes (c.gpr 9) (c.gpr 11) (total calls) →
          Caught (c.gpr 11) calls (c.gpr 9))) := by
  intro c'
  refine ⟨countUpAll_count calls c, ?_⟩
  rw [countUpAll_pending]
  constructor
  · intro h hpending hpasses
    rcases h.mpr (Or.inr hpasses) with h | h
    · exact absurd (hpending.symm.trans h) (by decide)
    · exact h
  · intro h
    constructor
    · exact Or.imp_right Caught.passes
    · rintro (hpending | hpasses)
      · exact Or.inl hpending
      · cases hpending : c.cause.timerIntPending with
        | true => exact Or.inl rfl
        | false => exact Or.inr (h hpending hpasses)

/-- COUNT and COMPARE, and nothing else. -/
def counting (count compare : Word) : Cop0 where
  gpr i := if i = 9 then count else if i = 11 then compare else 0
  status := ⟨false, false, false, 0, false, false, false, false, false, false, false, false, false, 0⟩
  cause := ⟨0, false, false, false, 0, 0, false, false⟩
  EPC := 0
  ErrorEPC := 0
  PCCR := 0
  PCR0 := 0
  PCR1 := 0

/-- COUNT goes from 16 before the end to 16, past 5, in one call of 32 cycles. In two of 16 it is caught. -/
theorem not_countUp_passes :
    ¬ (∀ (calls : List Cycles) (c : Cop0), (countUpAll calls c).cause.timerIntPending = true ↔
      c.cause.timerIntPending = true ∨ Passes (c.gpr 9) (c.gpr 11) (total calls)) ∧
    ¬ (∀ (calls calls' : List Cycles) (c : Cop0), total calls = total calls' →
      (countUpAll calls c).cause.timerIntPending = (countUpAll calls' c).cause.timerIntPending) := by
  constructor
  · intro h
    have hpasses : Passes 0xFFFFFFF0 5 32 := ⟨21, by decide, by decide, by decide⟩
    have hpending := (h [⟨32, by decide⟩] (counting 0xFFFFFFF0 5)).mpr (Or.inr hpasses)
    exact absurd hpending (by decide)
  · intro h
    exact absurd (h [⟨32, by decide⟩] [⟨16, by decide⟩, ⟨16, by decide⟩] (counting 0xFFFFFFF0 5) rfl) (by decide)

end DobieStation.Ee.Count
