import Mathlib.Algebra.Order.Ring.Int
import Mathlib.RingTheory.Coprime.Basic
import Mathlib.Tactic.Ring

/-! # Remainders by a number and by the next one

The remainders of `z` by `M` and by `M + 1` are the same in the first `M` of each `M * (M + 1)` numbers. So a sum
that has been wrapped by `W` and is taken modulo `M` is the one modulo `M + 1` if and only if it is there
(`wrapped_emod_iff`). -/

namespace DobieStation.Lib.AdjacentModuli

variable {M z W : ℤ}

theorem isCoprime_succ (M : ℤ) : IsCoprime M (M + 1) := ⟨-1, 1, by ring⟩

theorem emod_eq_emod_succ_iff (hM : 0 < M) : z % M = z % (M + 1) ↔ z % (M * (M + 1)) < M := by
  have hP : 0 < M * (M + 1) := mul_pos hM (by omega)
  have hlow : z % (M * (M + 1)) % M = z % M := Int.emod_emod_of_dvd z (dvd_mul_right M (M + 1))
  have hhigh : z % (M * (M + 1)) % (M + 1) = z % (M + 1) := Int.emod_emod_of_dvd z (dvd_mul_left (M + 1) M)
  have hpos := Int.emod_nonneg z hP.ne'
  have hlt := Int.emod_lt_of_pos z hP
  rw [← hlow, ← hhigh]
  generalize z % (M * (M + 1)) = t at hpos hlt
  constructor
  · intro h
    have hdvd : M * (M + 1) ∣ t - t % M := by
      refine (isCoprime_succ M).mul_dvd (Int.dvd_self_sub_emod) ?_
      rw [h]
      exact Int.dvd_self_sub_emod
    have hrem := Int.emod_nonneg t hM.ne'
    have hle : t - t % M = 0 := by
      refine Int.eq_zero_of_dvd_of_nonneg_of_lt ?_ (by omega) hdvd
      have := Int.ediv_nonneg hpos hM.le
      have hsplit := Int.emod_add_mul_ediv t M
      have := mul_nonneg hM.le this
      omega
    have := Int.emod_lt_of_pos t hM
    omega
  · intro h
    rw [Int.emod_eq_of_lt hpos h, Int.emod_eq_of_lt hpos (by omega)]

/-- The remainder by `M` of a wrapped number is that of the number by `M + 1`. -/
theorem wrapped_emod_iff (hM : 0 < M) : (z + W) % M = z % (M + 1) ↔ (z + W * (M + 1)) % (M * (M + 1)) < M := by
  have hlow : (z + W * (M + 1)) % M = (z + W) % M := by
    rw [show z + W * (M + 1) = z + W + W * M by ring, Int.add_mul_emod_self_right]
  have hhigh : (z + W * (M + 1)) % (M + 1) = z % (M + 1) := Int.add_mul_emod_self_right z W (M + 1)
  rw [← emod_eq_emod_succ_iff hM, hlow, hhigh]

end DobieStation.Lib.AdjacentModuli
