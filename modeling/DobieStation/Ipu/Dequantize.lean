import Mathlib.Algebra.Order.Group.Unbundled.Int
import Mathlib.Data.BitVec
import Mathlib.Data.Int.Notation
import Mathlib.Tactic.IntervalCases

/-! # Dequantisation

The translation of `dequantize` of the IPU. A coefficient is a variable of 16 bits, and what is assigned to
it may not fit; a cell remembers that. The standard's formula is stated for the unbounded integers, and
`dequantize_iff` says for which blocks the IPU has it in every position. -/

namespace DobieStation.Ipu

/-! ### Variables of 16 bits -/

/-- The conversion to `int16_t`. -/
def int16 (x : ℤ) : ℤ := (x + 32768) % 65536 - 32768

/-- A coefficient, and whether something assigned to it did not fit. -/
structure Cell where
  value : ℤ
  wrapped : Bool
  deriving DecidableEq, Repr

def Cell.assign (f : ℤ → ℤ) (c : Cell) : Cell where
  value := int16 (f c.value)
  wrapped := c.wrapped || int16 (f c.value) ≠ f c.value

/-- `x | 1`. -/
def orOne (x : ℤ) : ℤ := if x % 2 = 0 then x + 1 else x

/-! ### The IPU -/

def quantizerLinear : List ℕ :=
  [0, 2, 4, 6, 8, 10, 12, 14,
    16, 18, 20, 22, 24, 26, 28, 30,
    32, 34, 36, 38, 40, 42, 44, 46,
    48, 50, 52, 54, 56, 58, 60, 62]

def quantizerNonlinear : List ℕ :=
  [0, 1, 2, 3, 4, 5, 6, 7,
    8, 10, 12, 14, 16, 18, 20, 22,
    24, 28, 32, 36, 40, 44, 48, 52,
    56, 64, 72, 80, 88, 96, 104, 112]

/-- The fields of `ctrl` and `bdec`, and the matrices, as far as `dequantize` reads them. -/
structure Quantizer where
  nonlinearQStep : Bool
  intraDCPrecision : BitVec 2
  intra : Bool
  quantizerStep : BitVec 5
  intraIQ : ℕ → BitVec 8
  nonintraIQ : ℕ → BitVec 8

abbrev Block := ℕ → Cell

namespace Quantizer

variable (Q : Quantizer)

def qScale : ℕ :=
  if Q.nonlinearQStep then quantizerNonlinear.getD Q.quantizerStep.toNat 0
  else quantizerLinear.getD Q.quantizerStep.toNat 0

/-- A precision of 3 is reserved. -/
def scaleDC (c : Cell) : Cell :=
  match Q.intraDCPrecision with
  | 0 => c.assign (· * 8)
  | 1 => c.assign (· * 4)
  | 2 => c.assign (· * 2)
  | _ => c.assign fun _ => 0

/-- A coefficient that is not 0 becomes odd. -/
def makeOdd (sign : ℤ) (c : Cell) : Cell :=
  if sign ≠ 0 ∧ c.value % 2 = 0 then (c.assign (· - sign)).assign orOne else c

def intraAC (i : ℕ) (c : Cell) : Cell :=
  let sign := c.value.sign
  let c := c.assign (· * ((Q.intraIQ i).toNat * Q.qScale * 2))
  makeOdd sign (c.assign (·.tdiv 32))

def nonintra (i : ℕ) (c : Cell) : Cell :=
  let sign := c.value.sign
  let c := c.assign fun x => (x * 2 + sign) * (Q.nonintraIQ i).toNat * Q.qScale
  makeOdd sign (c.assign (·.tdiv 32))

def saturate (c : Cell) : Cell :=
  let c := if 2047 < c.value then c.assign fun _ => 2047 else c
  if c.value < -2048 then c.assign fun _ => -2048 else c

/-- What becomes of the coefficient at `i`. -/
def coefficient (i : ℕ) (c : Cell) : Cell :=
  saturate (if Q.intra then if i = 0 then Q.scaleDC c else Q.intraAC i c else Q.nonintra i c)

def dequantize (block : Block) : Block := fun i => Q.coefficient i (block i)

/-! ### The standard -/

/-- The product of the level, the entry of the matrix and the step. -/
def product (i : ℕ) (level : ℤ) : ℤ :=
  if Q.intra then 2 * level * (Q.intraIQ i).toNat * Q.qScale
  else (2 * level + level.sign) * (Q.nonintraIQ i).toNat * Q.qScale

/-- An even value goes one toward 0. -/
def mismatch (v : ℤ) : ℤ := if v % 2 = 0 then v - v.sign else v

def clip (v : ℤ) : ℤ := max (-2048) (min 2047 v)

/-- Whether the coefficient is the DC coefficient of an intra block. -/
def isDC (i : ℕ) : Prop := Q.intra ∧ i = 0

instance (i : ℕ) : Decidable (Q.isDC i) := inferInstanceAs (Decidable (_ ∧ _))

def standard (i : ℕ) (level : ℤ) : ℤ :=
  clip (if Q.isDC i then level * 2 ^ (3 - Q.intraDCPrecision.toNat)
    else mismatch ((Q.product i level).tdiv 32))

/-! ### One coefficient -/

theorem tdiv_thirtyTwo (x : ℤ) : x.tdiv 32 = if 0 ≤ x then x / 32 else -(-x / 32) := by
  split
  case isTrue h => exact Int.tdiv_eq_ediv_of_nonneg h
  case isFalse h =>
    have hneg : (-x).tdiv 32 = -x / 32 := Int.tdiv_eq_ediv_of_nonneg (by omega)
    rw [← hneg, Int.neg_tdiv, Int.neg_neg]

theorem int16_of_fits {x : ℤ} (h : -32768 ≤ x ∧ x ≤ 32767) : int16 x = x := by
  unfold int16
  omega

theorem orOne_of_odd {x : ℤ} (h : x % 2 ≠ 0) : orOne x = x := if_neg h

theorem saturate_eq {v : ℤ} {w : Bool} : saturate ⟨v, w⟩ = ⟨clip v, w⟩ := by
  have hhigh : int16 2047 = 2047 := int16_of_fits (by decide)
  have hlow : int16 (-2048) = -2048 := int16_of_fits (by decide)
  simp only [saturate, Cell.assign, clip, hhigh, hlow]
  rcases Int.lt_or_le 2047 v with h | h
  · simp [h, Int.min_eq_left (Int.le_of_lt h)]
  · rcases Int.lt_or_le v (-2048) with h' | h'
    · simp [show ¬ 2047 < v by omega, h', Int.min_eq_right h, Int.max_eq_left (Int.le_of_lt h')]
    · simp [show ¬ 2047 < v by omega, show ¬ v < -2048 by omega, Int.min_eq_right h, Int.max_eq_right h']

theorem assign_of_fits {f : ℤ → ℤ} {v : ℤ} {w : Bool} (h : -32768 ≤ f v ∧ f v ≤ 32767) :
    Cell.assign f ⟨v, w⟩ = ⟨f v, w⟩ := by
  simp [Cell.assign, int16_of_fits h]

/-- From the product on. -/
def finish (sign P : ℤ) (c : Cell) : Cell :=
  saturate (makeOdd sign ((c.assign fun _ => P).assign (·.tdiv 32)))

/-- The quotient, one away from the sign if it is even. -/
def awayFrom (sign d : ℤ) : ℤ := if sign ≠ 0 ∧ d % 2 = 0 then d - sign else d

variable {P sign : ℤ} {c : Cell}

theorem quotient_within : -1024 ≤ (int16 P).tdiv 32 ∧ (int16 P).tdiv 32 ≤ 1023 := by
  rw [tdiv_thirtyTwo]
  unfold int16
  split <;> omega

/-- What is made odd is one away. -/
theorem makeOdd_eq {d : ℤ} {w : Bool} (hsign : -1 ≤ sign ∧ sign ≤ 1) (hd : -1024 ≤ d ∧ d ≤ 1023) :
    makeOdd sign ⟨d, w⟩ = ⟨awayFrom sign d, w⟩ := by
  unfold makeOdd awayFrom
  by_cases h : sign ≠ 0 ∧ d % 2 = 0
  · have hodd : orOne (d - sign) = d - sign := orOne_of_odd (by omega)
    have hsub : Cell.assign (· - sign) ⟨d, w⟩ = ⟨d - sign, w⟩ := assign_of_fits (by omega)
    rw [if_pos h, if_pos h, hsub, assign_of_fits (by omega), hodd]
  · rw [if_neg h, if_neg h]

/-- Only the product can be too large. -/
theorem finish_eq (hsign : -1 ≤ sign ∧ sign ≤ 1) :
    finish sign P c = ⟨awayFrom sign ((int16 P).tdiv 32), c.wrapped || int16 P ≠ P⟩ := by
  have hd : -1024 ≤ (int16 P).tdiv 32 ∧ (int16 P).tdiv 32 ≤ 1023 := quotient_within
  have hassign : (c.assign fun _ => P).assign (·.tdiv 32) =
      ⟨(int16 P).tdiv 32, c.wrapped || int16 P ≠ P⟩ :=
    assign_of_fits (show -32768 ≤ (int16 P).tdiv 32 ∧ (int16 P).tdiv 32 ≤ 32767 by omega)
  have haway : -2048 ≤ awayFrom sign ((int16 P).tdiv 32) ∧ awayFrom sign ((int16 P).tdiv 32) ≤ 2047 := by
    unfold awayFrom
    split <;> omega
  rw [finish, hassign, makeOdd_eq hsign hd, saturate_eq, clip, Int.min_eq_right (by omega),
    Int.max_eq_right (by omega)]

/-- The product fits, and is not lost in the division. -/
def Sound (P : ℤ) : Prop := -32768 ≤ P ∧ P ≤ 32767 ∧ (P ≤ -32 ∨ 32 ≤ P)

theorem sign_tdiv_of_nonneg (hP : 0 ≤ P) : (P.tdiv 32).sign = if P < 32 then 0 else 1 := by
  rw [tdiv_thirtyTwo, if_pos hP]
  split
  case isTrue h => rw [show P / 32 = 0 by omega, Int.sign_zero]
  case isFalse h => exact Int.sign_eq_one_of_pos (by omega)

/-- A positive level. -/
theorem awayFrom_pos (hP : 0 ≤ P) :
    awayFrom 1 ((int16 P).tdiv 32) = clip (mismatch (P.tdiv 32)) ↔ Sound P := by
  rw [mismatch, sign_tdiv_of_nonneg hP, tdiv_thirtyTwo P, if_pos hP, tdiv_thirtyTwo]
  unfold awayFrom clip Sound int16
  split_ifs <;> omega

theorem awayFrom_neg (hP : P ≤ 0) :
    awayFrom (-1) ((int16 P).tdiv 32) = clip (mismatch (P.tdiv 32)) ↔ Sound P := by
  have hsign : (P.tdiv 32).sign = if -P < 32 then 0 else -1 := by
    rw [← Int.neg_neg P, Int.neg_tdiv, Int.sign_neg, sign_tdiv_of_nonneg (by omega)]
    split <;> omega
  rw [mismatch, hsign, tdiv_thirtyTwo P, tdiv_thirtyTwo]
  unfold awayFrom clip Sound int16
  split_ifs <;> omega

/-- A level of 0 stays. -/
theorem awayFrom_zero : awayFrom 0 ((int16 0).tdiv 32) = clip (mismatch ((0 : ℤ).tdiv 32)) := by decide

/-! ### The block -/

variable {Q : Quantizer} {i : ℕ} {level : ℤ}

theorem product_intra (h : Q.intra = true) :
    level * ((Q.intraIQ i).toNat * Q.qScale * 2) = Q.product i level := by
  rw [product, if_pos h, ← Int.mul_assoc, Int.mul_comm _ 2, ← Int.mul_assoc, ← Int.mul_assoc]

theorem coefficient_eq (hDC : ¬ Q.isDC i) :
    Q.coefficient i ⟨level, false⟩ = finish level.sign (Q.product i level) ⟨level, false⟩ := by
  unfold coefficient
  by_cases hintra : Q.intra = true
  · rw [if_pos hintra, if_neg fun h => hDC ⟨hintra, h⟩]
    simp only [intraAC, Cell.assign, product_intra hintra]
    rfl
  · have hproduct : (level * 2 + level.sign) * (Q.nonintraIQ i).toNat * Q.qScale = Q.product i level := by
      rw [product, if_neg hintra, Int.mul_comm level 2]
    rw [if_neg hintra]
    simp only [nonintra, Cell.assign, hproduct]
    rfl

theorem product_nonneg (h : 0 ≤ level) : 0 ≤ Q.product i level := by
  have hsign : 0 ≤ level.sign := Int.sign_nonneg_iff.mpr h
  unfold product
  split
  · exact Int.mul_nonneg (Int.mul_nonneg (by omega) (Int.natCast_nonneg _)) (Int.natCast_nonneg _)
  · exact Int.mul_nonneg (Int.mul_nonneg (by omega) (Int.natCast_nonneg _)) (Int.natCast_nonneg _)

theorem product_neg : Q.product i (-level) = -Q.product i level := by
  unfold product
  split
  · rw [Int.mul_neg, Int.neg_mul, Int.neg_mul]
  · rw [Int.mul_neg, Int.sign_neg, ← Int.neg_add, Int.neg_mul, Int.neg_mul]

/-- A coefficient that is not the DC coefficient. -/
theorem coefficient_iff (hDC : ¬ Q.isDC i) :
    Q.coefficient i ⟨level, false⟩ = ⟨Q.standard i level, false⟩ ↔
      level = 0 ∨ Sound (Q.product i level) := by
  have hunwrapped : Sound (Q.product i level) → int16 (Q.product i level) = Q.product i level :=
    fun h => int16_of_fits ⟨h.1, h.2.1⟩
  rw [coefficient_eq hDC, standard, if_neg hDC]
  rcases Int.lt_trichotomy level 0 with h | rfl | h
  · have hneg : Q.product i level ≤ 0 := by
      have hpos : 0 ≤ Q.product i (-level) := product_nonneg (by omega)
      rw [product_neg] at hpos
      omega
    rw [Int.sign_eq_neg_one_of_neg h, finish_eq (by decide), Cell.mk.injEq, awayFrom_neg hneg]
    simp only [Bool.false_or, decide_eq_false_iff_not, Decidable.not_not]
    exact ⟨fun hs => Or.inr hs.1, fun hs => ⟨hs.resolve_left (by omega), hunwrapped (hs.resolve_left (by omega))⟩⟩
  · have hzero : Q.product i 0 = 0 := by simp [product]
    rw [hzero, Int.sign_zero, finish_eq (by decide), awayFrom_zero]
    exact ⟨fun _ => Or.inl rfl, fun _ => rfl⟩
  · have hpos : 0 ≤ Q.product i level := product_nonneg (by omega)
    rw [Int.sign_eq_one_of_pos h, finish_eq (by decide), Cell.mk.injEq, awayFrom_pos hpos]
    simp only [Bool.false_or, decide_eq_false_iff_not, Decidable.not_not]
    exact ⟨fun hs => Or.inr hs.1, fun hs => ⟨hs.resolve_left (by omega), hunwrapped (hs.resolve_left (by omega))⟩⟩

/-- The DC coefficient. -/
theorem coefficient_DC (hDC : Q.isDC i) (hprecision : Q.intraDCPrecision ≠ 3)
    (h : -2048 ≤ level ∧ level ≤ 2047) :
    Q.coefficient i ⟨level, false⟩ = ⟨Q.standard i level, false⟩ := by
  unfold coefficient
  rw [if_pos hDC.1, if_pos hDC.2, standard, if_pos hDC]
  have hscale : Q.scaleDC ⟨level, false⟩ = ⟨level * 2 ^ (3 - Q.intraDCPrecision.toNat), false⟩ := by
    unfold scaleDC
    have hcases : ∀ p : BitVec 2, p ≠ 3 → p = 0 ∨ p = 1 ∨ p = 2 := by decide
    rcases hcases _ hprecision with hp | hp | hp
    · rw [hp]
      exact assign_of_fits (show -32768 ≤ level * 8 ∧ level * 8 ≤ 32767 by omega)
    · rw [hp]
      exact assign_of_fits (show -32768 ≤ level * 4 ∧ level * 4 ≤ 32767 by omega)
    · rw [hp]
      exact assign_of_fits (show -32768 ≤ level * 2 ∧ level * 2 ≤ 32767 by omega)
  rw [hscale, saturate_eq]

end Quantizer

open Quantizer

/-- The coefficients as they were decoded. -/
def decoded (level : ℕ → ℤ) : Block := fun i => ⟨level i, false⟩

/-- **The IPU has the standard's value in every position, with nothing that does not fit, exactly if every
product of a level that is not 0 fits into 16 bits and is not lost in the division.** -/
theorem dequantize_iff {Q : Quantizer} {level : ℕ → ℤ} (hprecision : Q.intraDCPrecision ≠ 3)
    (hlevel : ∀ i < 64, -2048 ≤ level i ∧ level i ≤ 2047) :
    (∀ i < 64, (Q.dequantize (decoded level) i).value = Q.standard i (level i) ∧
      (Q.dequantize (decoded level) i).wrapped = false) ↔
    ∀ i < 64, Q.isDC i ∨ level i = 0 ∨ Sound (Q.product i (level i)) := by
  have hcell : ∀ i < 64, (Q.dequantize (decoded level) i).value = Q.standard i (level i) ∧
      (Q.dequantize (decoded level) i).wrapped = false ↔
      Q.isDC i ∨ level i = 0 ∨ Sound (Q.product i (level i)) := by
    intro i hi
    have hmk : (Q.dequantize (decoded level) i).value = Q.standard i (level i) ∧
        (Q.dequantize (decoded level) i).wrapped = false ↔
        Q.coefficient i ⟨level i, false⟩ = ⟨Q.standard i (level i), false⟩ :=
      (Cell.mk.injEq _ _ _ _).symm.to_iff
    rw [hmk]
    by_cases hDC : Q.isDC i
    · exact ⟨fun _ => Or.inl hDC, fun _ => coefficient_DC hDC hprecision (hlevel i hi)⟩
    · rw [coefficient_iff hDC]
      exact ⟨Or.inr, fun h => h.resolve_left hDC⟩
  exact forall_congr' fun i => forall_congr' fun hi => hcell i hi

/-- The largest linear step, with the matrix that is used by default. -/
def coarse : Quantizer where
  nonlinearQStep := false
  intraDCPrecision := 0
  intra := false
  quantizerStep := 31
  intraIQ := fun _ => 16
  nonintraIQ := fun _ => 16

theorem dequantize_ones : Sound ((2 * 1 + 1) * 16 * 62) ∧ ∀ i < 64,
    (coarse.dequantize (decoded fun _ => 1) i).value = coarse.standard i 1 ∧
      (coarse.dequantize (decoded fun _ => 1) i).wrapped = false := by
  have hsound : Sound ((2 * 1 + 1) * 16 * 62) := ⟨by decide, by decide, Or.inr (by decide)⟩
  exact ⟨hsound, (dequantize_iff (by decide) fun _ _ => by decide).mpr fun _ _ => Or.inr (Or.inr hsound)⟩

/-- A level of 40: 80352 / 32 is 2511, but 14816 / 32 is 463. -/
theorem not_dequantize : ¬ ∀ i < 64, (coarse.dequantize (decoded fun _ => 40) i).value = coarse.standard i 40 ∧
    (coarse.dequantize (decoded fun _ => 40) i).wrapped = false :=
  fun h => absurd (h 0 (by decide)).1 (by decide)

end DobieStation.Ipu
