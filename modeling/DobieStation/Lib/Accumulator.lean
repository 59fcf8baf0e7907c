import Mathlib.Algebra.Order.Ring.Int
import Mathlib.Tactic.Linarith
import Mathlib.Tactic.Ring

/-! # Ticks taken out of an accumulator

An accumulator that holds `r` receives `a` and gives up one tick for each full `S`: `ticks` counts
them and `rest` is what stays. Taking out now and later is taking out at once (`ticks_add`), however
the amounts are split.

When `S` is `K * E / cr` rounded down, `x * E / cr` units estimate the wait for `x` ticks, at `K` a
unit. The rounding makes the ticks come early, by `K * E % cr` in each `cr` ticks; as long as `x`
ticks lose less than `w` units the estimate is late by at most `w` (`wait_le`) and the ticks that
come within it exceed `x` by at most `w` (`ticks_wait_le`). -/

namespace DobieStation.Lib.Accumulator

/-- The ticks given up by an accumulator that holds `r` and receives `a`. -/
def ticks (S r a : ℤ) : ℤ := (r + a) / S

/-- What the accumulator holds afterwards. -/
def rest (S r a : ℤ) : ℤ := (r + a) % S

variable {S r a b : ℤ}

theorem rest_nonneg (hS : 0 < S) : 0 ≤ rest S r a := Int.emod_nonneg _ hS.ne'

theorem rest_lt (hS : 0 < S) : rest S r a < S := Int.emod_lt_of_pos _ hS

theorem ticks_nonneg (hS : 0 < S) (hr : 0 ≤ r) (ha : 0 ≤ a) : 0 ≤ ticks S r a :=
  Int.ediv_nonneg (by omega) hS.le

theorem ticks_zero (hr : 0 ≤ r) (hlt : r < S) : ticks S r 0 = 0 := by
  unfold ticks
  rw [add_zero]
  exact Int.ediv_eq_zero_of_lt hr hlt

theorem ticks_mono (hS : 0 < S) (h : a ≤ b) : ticks S r a ≤ ticks S r b :=
  Int.ediv_le_ediv hS (by omega)

/-- **Splitting.** What comes in two parts gives the ticks of the whole. -/
theorem ticks_add (hS : 0 < S) : ticks S r (a + b) = ticks S r a + ticks S (rest S r a) b := by
  unfold ticks rest
  have h := Int.emod_add_mul_ediv (r + a) S
  have : r + (a + b) = (r + a) % S + b + S * ((r + a) / S) := by linarith
  rw [this, Int.add_mul_ediv_left _ _ hS.ne']
  ring

theorem rest_add : rest S (rest S r a) b = rest S r (a + b) := by
  unfold rest
  rw [Int.emod_add_emod, add_assoc]

/-- Nothing is lost: what is given up, at `S` a tick, and what stays. -/
theorem ticks_mul_add_rest : ticks S r a * S + rest S r a = r + a := by
  unfold ticks rest
  rw [mul_comm]
  exact Int.mul_ediv_add_emod _ _

theorem rest_le (hS : 0 < S) (hr : 0 ≤ r) (ha : 0 ≤ a) : rest S r a ≤ r + a := by
  have hticks := mul_nonneg (ticks_nonneg hS hr ha) hS.le
  have hsum := ticks_mul_add_rest (S := S) (r := r) (a := a)
  omega

/-- The ticks of what comes in, and the carry out of what is held. -/
theorem ticks_eq_carry (hS : 0 < S) : ticks S r a = a / S + (r + a % S) / S := by
  unfold ticks
  have h := Int.emod_add_mul_ediv a S
  have : r + a = r + a % S + S * (a / S) := by linarith
  rw [this, Int.add_mul_ediv_left _ _ hS.ne']
  ring

theorem rest_eq_carry : rest S r a = (r + a % S) % S := by
  unfold rest
  rw [Int.add_emod_emod]

/-- At most one tick for each `K` that comes in, if a tick takes at least `K`. -/
theorem ticks_le {K n : ℤ} (hK : K ≤ S) (h1 : 1 ≤ K) (hlt : r < S) (hn : 0 ≤ n) :
    ticks S r (n * K) ≤ n := by
  have hS : 0 < S := by omega
  refine Int.lt_add_one_iff.mp ((Int.ediv_lt_iff_lt_mul hS).mpr ?_)
  have := mul_le_mul_of_nonneg_left hK hn
  linarith

variable {K E cr x n w : ℤ}

/-- `S` is `K * E / cr` rounded down: `x` ticks, `x` times the rounding and `x * E / cr` units. -/
theorem scale_split (hS : S = K * E / cr) : K * (x * E) = x * S * cr + x * (K * E % cr) := by
  have h := Int.emod_add_mul_ediv (K * E) cr
  rw [← hS] at h
  calc K * (x * E) = x * (K * E) := by ring
    _ = x * (K * E % cr + cr * S) := by rw [h]
    _ = x * S * cr + x * (K * E % cr) := by ring

/-- The estimate is at most `n + w` if `x` ticks cost no more than what has come in `n + w` units. -/
theorem wait_le_of_cost (hcr : 0 < cr) (hK : 0 < K) (hcost : K * (x * E) ≤ cr * (r + (n + w) * K)) :
    x * E / cr - r / K ≤ n + w := by
  have h3 : K * (x * E / cr) ≤ r + (n + w) * K := by
    have h4 := Int.mul_ediv_self_le (x := x * E) hcr.ne'
    have h5 := mul_le_mul_of_nonneg_left h4 hK.le
    refine le_of_mul_le_mul_left ?_ hcr
    linarith
  have h6 : x * E / cr ≤ (r + (n + w) * K) / K :=
    (Int.le_ediv_iff_mul_le hK).mpr (by linarith)
  rw [Int.add_mul_ediv_right _ _ hK.ne'] at h6
  omega

/-- **The estimate is not late**, up to `w` units: when `x` ticks have come in `n` units, the
estimated wait is at most `n + w`. -/
theorem wait_le (hcr : 0 < cr) (hK : 0 < K) (hS : S = K * E / cr) (hSpos : 0 < S)
    (hdrift : x * (K * E % cr) ≤ w * K * cr) (hx : x ≤ ticks S r (n * K)) :
    x * E / cr - r / K ≤ n + w := by
  have h1 : x * S ≤ r + n * K := (Int.le_ediv_iff_mul_le hSpos).mp hx
  have h2 := mul_le_mul_of_nonneg_right h1 hcr.le
  refine wait_le_of_cost hcr hK ?_
  rw [scale_split (x := x) hS]
  linarith

/-- When the tick after them has come too, the rounding may lose one tick more. -/
theorem wait_le_succ (hcr : 0 < cr) (hK : 0 < K) (hS : S = K * E / cr) (hSpos : 0 < S)
    (hdrift : x * (K * E % cr) ≤ (S + w * K) * cr) (hx : x + 1 ≤ ticks S r (n * K)) :
    x * E / cr - r / K ≤ n + w := by
  have h1 : (x + 1) * S ≤ r + n * K := (Int.le_ediv_iff_mul_le hSpos).mp hx
  have h2 := mul_le_mul_of_nonneg_right h1 hcr.le
  refine wait_le_of_cost hcr hK ?_
  rw [scale_split (x := x) hS]
  linarith

/-- **The estimate is not early by much**: within the estimated wait for `x` ticks at most
`x + w` come. -/
theorem ticks_wait_le (hcr : 0 < cr) (hK : 0 < K) (hKS : K ≤ S) (hS : S = K * E / cr)
    (hw : 0 ≤ w) (hdrift : x * (K * E % cr) ≤ w * K * cr) (hn : n ≤ x * E / cr - r / K) :
    ticks S r (n * K) ≤ x + w := by
  have hSpos : 0 < S := by omega
  have h1 : K * (x * E / cr) ≤ x * S + w * K := by
    have h4 := Int.mul_ediv_self_le (x := x * E) hcr.ne'
    have h5 := mul_le_mul_of_nonneg_left h4 hK.le
    have h6 := scale_split (x := x) hS
    refine le_of_mul_le_mul_left ?_ hcr
    linarith
  have h2 := Int.emod_add_mul_ediv r K
  have h3 := Int.emod_lt_of_pos r hK
  have h7 := mul_le_mul_of_nonneg_right hn hK.le
  refine Int.lt_add_one_iff.mp ((Int.ediv_lt_iff_lt_mul hSpos).mpr ?_)
  have h8 := mul_le_mul_of_nonneg_left hKS (by omega : 0 ≤ w + 1)
  linarith

end DobieStation.Lib.Accumulator
