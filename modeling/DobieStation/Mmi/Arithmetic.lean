import DobieStation.Mmi.Meaning
import Mathlib.Tactic.IntervalCases

/-! # Lane by lane

What the handlers compute in a lane is what the instruction means there. Saturation is at the ends of the
range of the lane, but for `clamp_halfword`, whose lower bound is -0x80000: between that and the range
it keeps the lower half of the word (`clampHalfword_iff`). -/

namespace DobieStation.Mmi.Arithmetic

open DobieStation.Lib.Lanes DobieStation.Mmi.Model DobieStation.Mmi.Meaning
open DobieStation.Ee.Interface (Word Quad)

variable {w k : ℕ} {x y : BitVec w} {v : ℤ}

theorem sa_four {i : Word} : sa i 4 = sa i 5 % 16 := by
  simp only [sa, BitVec.extractLsb'_toNat]
  omega

theorem shiftedBy_eq {shift : BitVec 32 → ℕ → BitVec 32} {x y : BitVec 64} :
    shiftedBy shift x y = (shift (y.setWidth 32) (x.toNat % 32)).signExtend 64 := by
  have h : (x &&& 0x1F).toNat = x.toNat % 32 := by
    rw [BitVec.toNat_and]
    exact Nat.and_two_pow_sub_one_eq_mod _ 5
  rw [shiftedBy, h]

/-! ### The signed range -/

theorem clamped_eq {top bottom : ℤ} (ht : top = 2 ^ (w - 1) - 1) (hb : bottom = -2 ^ (w - 1))
    (h : bottom ≤ top) : clamped w top bottom v = signed w v := by
  subst ht hb
  unfold clamped signed
  refine congrArg (BitVec.ofInt w) ?_
  split_ifs <;> omega

theorem larger_eq : larger x y = BitVec.ofInt w (max x.toInt y.toInt) := by
  unfold larger
  split_ifs with h
  · rw [max_eq_left (by omega), BitVec.ofInt_toInt]
  · rw [max_eq_right (by omega), BitVec.ofInt_toInt]

theorem smaller_eq : smaller x y = BitVec.ofInt w (min x.toInt y.toInt) := by
  unfold smaller
  split_ifs with h
  · rw [min_eq_left (by omega), BitVec.ofInt_toInt]
  · rw [min_eq_right (by omega), BitVec.ofInt_toInt]

theorem absolute_eq (hw : 0 < w) : absolute x = signed w |x.toInt| := by
  have hlow := BitVec.le_toInt x
  have hhigh := BitVec.toInt_lt (x := x)
  have hpos : (0 : ℤ) < 2 ^ (w - 1) := Int.pow_pos (by decide)
  have hmin : (BitVec.intMin w).toInt = -2 ^ (w - 1) := BitVec.toInt_intMin_of_pos hw
  unfold absolute signed
  split_ifs with h hneg
  · rw [h, hmin, abs_neg, abs_of_pos hpos, min_eq_right (by omega), max_eq_right (by omega),
      ← BitVec.toInt_intMax, BitVec.ofInt_toInt]
  · have hne : x.toInt ≠ -2 ^ (w - 1) := fun heq =>
      h (BitVec.eq_of_toInt_eq (heq.trans hmin.symm))
    rw [abs_of_neg hneg, min_eq_left (by omega), max_eq_right (by omega), BitVec.ofInt_neg,
      BitVec.ofInt_toInt]
  · rw [abs_of_nonneg (by omega), min_eq_left (by omega), max_eq_right (by omega),
      BitVec.ofInt_toInt]

theorem clampDoubleword_eq {x : BitVec 64} :
    clampDoubleword x = (signed 32 x.toInt).signExtend 64 := by
  have hlow : (0xFFFFFFFF80000000 : BitVec 64).toInt = -0x80000000 := by decide
  have hset : x.setWidth 32 = BitVec.ofInt 32 x.toInt := by
    refine BitVec.eq_of_toNat_eq ?_
    rw [BitVec.toNat_setWidth, BitVec.toNat_ofInt, BitVec.toInt_eq_toNat_cond]
    split_ifs <;> omega
  unfold clampDoubleword signed
  rw [hlow, hset]
  split_ifs with h h'
  · rw [min_eq_right (by omega), max_eq_right (by omega)]
    decide
  · rw [min_eq_left (by omega), max_eq_left (by omega)]
    decide
  · rw [min_eq_left (by omega), max_eq_right (by omega)]

/-- The words that `clamp_halfword` brings into the range of a halfword: the last are those whose lower
half happens to be the end of the range. -/
def Fits (x : BitVec 32) : Prop :=
  x.toInt < -0x80000 ∨ -0x8000 ≤ x.toInt ∨ x.setWidth 16 = 0x8000#16

theorem clampHalfword_iff {x : BitVec 32} : clampHalfword x = signed 16 x.toInt ↔ Fits x := by
  have htop : (0x00007FFF : BitVec 32).toInt = 0x7FFF := by decide
  have hbottom : (BitVec.ofNat 32 0xFFFF80000).toInt = -0x80000 := by decide
  have hset : x.setWidth 16 = BitVec.ofInt 16 x.toInt := by
    refine BitVec.eq_of_toNat_eq ?_
    rw [BitVec.toNat_setWidth, BitVec.toNat_ofInt, BitVec.toInt_eq_toNat_cond]
    split_ifs <;> omega
  unfold clampHalfword signed Fits
  rw [htop, hbottom]
  split_ifs with h h'
  · rw [min_eq_right (by omega), max_eq_right (by omega)]
    exact iff_of_true (by decide) (.inr (.inl (by omega)))
  · rw [min_eq_left (by omega), max_eq_left (by omega)]
    exact iff_of_true (by decide) (.inl h')
  · rw [min_eq_left (by omega)]
    by_cases hlow : -0x8000 ≤ x.toInt
    · rw [max_eq_right (by omega)]
      exact iff_of_true hset (.inr (.inl hlow))
    · rw [max_eq_left (by omega)]
      constructor
      · intro heq
        exact .inr (.inr (heq.trans (by decide)))
      · rintro (hc | hc | hc)
        · exact absurd hc h'
        · exact absurd hc hlow
        · exact hc.trans (by decide)

/-! ### The unsigned range -/

theorem toNat_unsigned : (unsigned w v).toNat = (max 0 (min v (2 ^ w - 1))).toNat := by
  have hw : (0 : ℤ) < 2 ^ w := Int.pow_pos (by decide)
  rw [unsigned, BitVec.toNat_ofInt, Int.emod_eq_of_lt]
  · omega
  · push_cast
    omega

theorem toNat_wide_ones (hw : 0 < w) :
    ((BitVec.allOnes w).setWidth (2 * w)).toNat = 2 ^ w - 1 := by
  have hle : 2 ^ w ≤ 2 ^ (2 * w) := Nat.pow_le_pow_right (by omega) (by omega)
  have := Nat.two_pow_pos w
  rw [BitVec.toNat_setWidth, BitVec.toNat_allOnes, Nat.mod_eq_of_lt (by omega)]

/-- At twice the width there is room for a sum of two lanes. -/
theorem room (hw : 0 < w) : 2 ^ w * 2 ≤ 2 ^ (2 * w) := by
  rw [← Nat.pow_succ]
  exact Nat.pow_le_pow_right (by omega) (by omega)

theorem toNat_wide (hw : 0 < w) (x : BitVec w) : (x.setWidth (2 * w)).toNat = x.toNat := by
  have hx := x.isLt
  have hroom := room hw
  rw [BitVec.toNat_setWidth, Nat.mod_eq_of_lt (by omega)]

theorem addUnsigned_eq (hw : 0 < w) : addUnsigned x y = unsigned w (x.toNat + y.toNat) := by
  have hx := x.isLt
  have hy := y.isLt
  have hroom := room hw
  have hpow : ((2 ^ w : ℕ) : ℤ) = (2 : ℤ) ^ w := by push_cast; rfl
  have hsum : (x.setWidth (2 * w) + y.setWidth (2 * w)).toNat = x.toNat + y.toNat := by
    rw [BitVec.toNat_add, toNat_wide hw, toNat_wide hw, Nat.mod_eq_of_lt (by omega)]
  refine BitVec.eq_of_toNat_eq ?_
  rw [toNat_unsigned]
  unfold addUnsigned
  simp only [gt_iff_lt, BitVec.lt_def, toNat_wide_ones hw, hsum]
  split_ifs with h
  · rw [BitVec.toNat_allOnes]
    omega
  · rw [BitVec.toNat_setWidth, hsum, Nat.mod_eq_of_lt (by omega)]
    omega

theorem subUnsigned_eq (hw : 0 < w) : subUnsigned x y = unsigned w (x.toNat - y.toNat) := by
  have hx := x.isLt
  have hy := y.isLt
  have hroom := room hw
  have hpow : ((2 ^ w : ℕ) : ℤ) = (2 : ℤ) ^ w := by push_cast; rfl
  -- a borrow leaves at least `2 ^ w`
  have hdiff : (x.setWidth (2 * w) - y.setWidth (2 * w)).toNat =
      if y.toNat ≤ x.toNat then x.toNat - y.toNat else 2 ^ (2 * w) + x.toNat - y.toNat := by
    rw [BitVec.toNat_sub, toNat_wide hw, toNat_wide hw]
    split_ifs with h
    · rw [show 2 ^ (2 * w) - y.toNat + x.toNat = x.toNat - y.toNat + 2 ^ (2 * w) by omega,
        Nat.add_mod_right, Nat.mod_eq_of_lt (by omega)]
    · rw [Nat.mod_eq_of_lt (by omega)]
      omega
  refine BitVec.eq_of_toNat_eq ?_
  rw [toNat_unsigned]
  unfold subUnsigned
  simp only [gt_iff_lt, BitVec.lt_def, toNat_wide_ones hw, hdiff]
  by_cases h : y.toNat ≤ x.toNat
  · rw [if_pos h, if_neg (by omega), BitVec.toNat_setWidth, hdiff, if_pos h,
      Nat.mod_eq_of_lt (by omega)]
    omega
  · rw [if_neg h, if_pos (by omega), BitVec.toNat_zero]
    omega

/-! ### Fields -/

theorem unpack5_eq {x : Word} : unpack5 x = widened x := by
  refine BitVec.eq_of_getLsbD_eq fun b hb => ?_
  rw [widened]
  iterate 7 rw [BitVec.getLsbD_append]
  simp only [BitVec.getLsbD_extractLsb', BitVec.getLsbD_zero]
  interval_cases b <;> simp [unpack5]

theorem pack5_eq {x : Word} : pack5 x = narrowed x := by
  refine BitVec.eq_of_getLsbD_eq fun b hb => ?_
  rw [narrowed]
  iterate 4 rw [BitVec.getLsbD_append]
  simp only [BitVec.getLsbD_extractLsb', BitVec.getLsbD_zero]
  interval_cases b <;> simp [pack5]

/-- An operation on bits is the same on lanes. -/
theorem ofLanes_bitwise {f : Bool → Bool → Bool} {o : ∀ {m : ℕ}, BitVec m → BitVec m → BitVec m}
    (hop : ∀ {m b : ℕ} (x y : BitVec m), b < m → (o x y).getLsbD b = f (x.getLsbD b) (y.getLsbD b))
    {x y : Quad} : ofLanes 128 2 (fun k => o (lane 64 x k) (lane 64 y k)) = o x y := by
  refine (eq_ofLanes (n := 2) rfl fun k hk => ?_).symm
  refine BitVec.eq_of_getLsbD_eq fun b hb => ?_
  rw [hop _ _ hb, getLsbD_lane, getLsbD_lane, getLsbD_lane, decide_eq_true hb,
    hop x y (by omega)]
  rfl

/-! ### The funnel shift -/

/-- The bits of a doubleword that is shifted, and above them those of the next one. -/
theorem getLsbD_funnel {lo hi : BitVec 64} {s b : ℕ} (hs : s < 64) (hb : b < 64) (hs0 : 0 < s) :
    (lo >>> s ||| hi <<< (64 - s)).getLsbD b =
      if s + b < 64 then lo.getLsbD (s + b) else hi.getLsbD (s + b - 64) := by
  rw [BitVec.getLsbD_or, BitVec.getLsbD_ushiftRight, BitVec.getLsbD_shiftLeft, decide_eq_true hb,
    Bool.true_and]
  by_cases h : s + b < 64
  · rw [if_pos h, decide_eq_true (by omega : b < 64 - s)]
    simp
  · rw [if_neg h, decide_eq_false (by omega : ¬ b < 64 - s), BitVec.getLsbD_of_ge lo _ (by omega),
      show b - (64 - s) = s + b - 64 by omega]
    simp

theorem getLsbD_doublewords {lo hi : BitVec 64} {b : ℕ} (hb : b < 128) :
    (setLane (setLane 0 0 lo) 1 hi : Quad).getLsbD b =
      if b < 64 then lo.getLsbD b else hi.getLsbD (b - 64) := by
  rw [getLsbD_setLane hb, getLsbD_setLane hb]
  by_cases h : b < 64
  · rw [if_neg (by omega), if_pos (by omega), if_pos h, Nat.zero_mul, Nat.sub_zero]
  · rw [if_pos (by omega), if_neg h, Nat.one_mul]

theorem getLsbD_funnelled {rs rt : Quad} {s b : ℕ} (hb : b < 128) :
    (((rs ++ rt) >>> s).setWidth 128 : Quad).getLsbD b =
      if s + b < 128 then rt.getLsbD (s + b) else rs.getLsbD (s + b - 128) := by
  rw [BitVec.getLsbD_setWidth, BitVec.getLsbD_ushiftRight, BitVec.getLsbD_append, decide_eq_true hb,
    Bool.true_and]

theorem getLsbD_half {x : Quad} {b : ℕ} (hb : b < 64) : (lane 64 x k).getLsbD b = x.getLsbD (k * 64 + b) := by
  rw [getLsbD_lane, decide_eq_true hb, Bool.true_and]

theorem funnel_low {rs rt : Quad} {s : ℕ} (hs : s < 64) (hs0 : 0 < s) :
    (setLane (setLane 0 0 (lane 64 rt 0 >>> s ||| lane 64 rt 1 <<< (64 - s))) 1
        (lane 64 rt 1 >>> s ||| lane 64 rs 0 <<< (64 - s)) : Quad) =
      ((rs ++ rt) >>> s).setWidth 128 := by
  refine BitVec.eq_of_getLsbD_eq fun b hb => ?_
  rw [getLsbD_doublewords hb, getLsbD_funnelled hb]
  by_cases h : b < 64
  · rw [if_pos h, getLsbD_funnel hs h hs0, if_pos (by omega : s + b < 128)]
    split_ifs with hin
    · rw [getLsbD_half hin, Nat.zero_mul, Nat.zero_add]
    · rw [getLsbD_half (by omega), show 1 * 64 + (s + b - 64) = s + b by omega]
  · rw [if_neg h, getLsbD_funnel hs (by omega) hs0]
    split_ifs with hin hin' hin'
    · rw [getLsbD_half hin, show 1 * 64 + (s + (b - 64)) = s + b by omega]
    · omega
    · omega
    · rw [getLsbD_half (by omega), show 0 * 64 + (s + (b - 64) - 64) = s + b - 128 by omega]

theorem funnel_high {rs rt : Quad} {s : ℕ} (hs : s < 64) (hs0 : 0 < s) :
    (setLane (setLane 0 0 (lane 64 rt 1 >>> s ||| lane 64 rs 0 <<< (64 - s))) 1
        (lane 64 rs 0 >>> s ||| lane 64 rs 1 <<< (64 - s)) : Quad) =
      ((rs ++ rt) >>> (64 + s)).setWidth 128 := by
  refine BitVec.eq_of_getLsbD_eq fun b hb => ?_
  rw [getLsbD_doublewords hb, getLsbD_funnelled hb]
  by_cases h : b < 64
  · rw [if_pos h, getLsbD_funnel hs h hs0]
    split_ifs with hin hin' hin'
    · rw [getLsbD_half hin, show 1 * 64 + (s + b) = 64 + s + b by omega]
    · omega
    · omega
    · rw [getLsbD_half (by omega), show 0 * 64 + (s + b - 64) = 64 + s + b - 128 by omega]
  · rw [if_neg h, getLsbD_funnel hs (by omega) hs0, if_neg (by omega : ¬ 64 + s + b < 128)]
    split_ifs with hin
    · rw [getLsbD_half hin, show 0 * 64 + (s + (b - 64)) = 64 + s + b - 128 by omega]
    · rw [getLsbD_half (by omega), show 1 * 64 + (s + (b - 64) - 64) = 64 + s + b - 128 by omega]

theorem funnel_middle {rs rt : Quad} :
    (setLane (setLane 0 0 (lane 64 rt 1)) 1 (lane 64 rs 0) : Quad) =
      ((rs ++ rt) >>> 64).setWidth 128 := by
  refine BitVec.eq_of_getLsbD_eq fun b hb => ?_
  rw [getLsbD_doublewords hb, getLsbD_funnelled hb]
  by_cases h : b < 64
  · rw [if_pos h, if_pos (by omega), getLsbD_half h]
  · rw [if_neg h, if_neg (by omega), getLsbD_half (by omega),
      show 0 * 64 + (b - 64) = 64 + b - 128 by omega]

theorem funnel_none {rs rt : Quad} : ((rs ++ rt) >>> 0).setWidth 128 = rt := by
  refine BitVec.eq_of_getLsbD_eq fun b hb => ?_
  rw [getLsbD_funnelled hb, if_pos (by omega), Nat.zero_add]

end DobieStation.Mmi.Arithmetic
