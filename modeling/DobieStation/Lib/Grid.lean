import Mathlib.Algebra.Order.Ring.Abs
import Mathlib.Algebra.Order.Ring.Int
import Mathlib.Data.List.Nodup
import Mathlib.Tactic.Common
import Mathlib.Tactic.Ring

/-! # Grids

The points of a grid in a half-open range, the rounding to a grid, and the height of a line over the points
of a grid. A line is given by two of its points; the height is multiplied by the distance of the two, so
that it is an integer. -/

namespace Grid

/-! ### Ranges -/

/-- The values of `x` in `for (x = lo; x < hi; x += n)`. -/
def steps (n lo hi : ℤ) : List ℤ :=
  (List.range ((hi - lo + (n - 1)) / n).toNat).map fun i : ℕ => lo + n * (i : ℤ)

theorem lt_steps_iff {n lo hi : ℤ} (hn : 0 < n) (i : ℕ) :
    i < ((hi - lo + (n - 1)) / n).toNat ↔ lo + n * i < hi := by
  have hdiv : (i : ℤ) + 1 ≤ (hi - lo + (n - 1)) / n ↔ ((i : ℤ) + 1) * n ≤ hi - lo + (n - 1) :=
    Int.le_ediv_iff_mul_le hn
  have hmul : ((i : ℤ) + 1) * n = n * i + n := by ring
  rw [hmul] at hdiv
  constructor
  · intro h
    have := hdiv.mp (by omega)
    omega
  · intro h
    have := hdiv.mpr (by omega)
    omega

theorem mem_steps {n lo hi : ℤ} (hn : 0 < n) (x : ℤ) :
    x ∈ steps n lo hi ↔ lo ≤ x ∧ x < hi ∧ n ∣ x - lo := by
  unfold steps
  simp only [List.mem_map, List.mem_range, lt_steps_iff hn]
  constructor
  · rintro ⟨i, hi', rfl⟩
    refine ⟨?_, hi', ⟨i, by ring⟩⟩
    have := mul_nonneg hn.le (Int.natCast_nonneg i)
    omega
  · rintro ⟨hlo, hhi, k, hk⟩
    have hk0 : 0 ≤ k := by
      by_contra hneg
      have := mul_neg_of_pos_of_neg hn (not_le.mp hneg)
      omega
    refine ⟨k.toNat, ?_, ?_⟩ <;> rw [Int.toNat_of_nonneg hk0] <;> omega

theorem nodup_steps {n : ℤ} (hn : 0 < n) (lo hi : ℤ) : (steps n lo hi).Nodup := by
  refine List.Nodup.map (fun i j hij => ?_) List.nodup_range
  have h := mul_left_cancel₀ hn.ne' (add_left_cancel hij)
  exact Int.ofNat_inj.mp h

theorem steps_of_le {n lo hi : ℤ} (hn : 0 < n) (h : hi ≤ lo) : steps n lo hi = [] := by
  rw [List.eq_nil_iff_forall_not_mem]
  intro x hx
  obtain ⟨h1, h2, -⟩ := (mem_steps hn x).mp hx
  omega

/-- Between multiples of `n` there are the multiples of `n`. -/
theorem mul_mem_steps {n a b : ℤ} (hn : 0 < n) (k : ℤ) :
    n * k ∈ steps n (n * a) (n * b) ↔ a ≤ k ∧ k < b := by
  rw [mem_steps hn, mul_le_mul_iff_right₀ hn, mul_lt_mul_iff_right₀ hn, ← mul_sub]
  exact ⟨fun h => ⟨h.1, h.2.1⟩, fun h => ⟨h.1, h.2, dvd_mul_right _ _⟩⟩

/-- The cells of a half-open range, each once. -/
theorem mem_map_ediv_steps {n a b : ℤ} (hn : 0 < n) (k : ℤ) :
    k ∈ (steps n (n * a) (n * b)).map (· / n) ↔ a ≤ k ∧ k < b := by
  rw [List.mem_map]
  constructor
  · rintro ⟨x, hx, rfl⟩
    obtain ⟨m, hm⟩ := ((mem_steps hn x).mp hx).2.2
    obtain rfl : x = n * (a + m) := by rw [mul_add, ← hm]; omega
    rw [Int.mul_ediv_cancel_left _ hn.ne']
    exact (mul_mem_steps hn _).mp hx
  · intro hk
    exact ⟨n * k, (mul_mem_steps hn k).mpr hk, Int.mul_ediv_cancel_left _ hn.ne'⟩

theorem nodup_map_ediv_steps {n : ℤ} (hn : 0 < n) (a hi : ℤ) : ((steps n (n * a) hi).map (· / n)).Nodup := by
  refine (nodup_steps hn _ hi).map_on fun x hx y hy hxy => ?_
  obtain ⟨i, hi'⟩ := ((mem_steps hn x).mp hx).2.2
  obtain ⟨j, hj⟩ := ((mem_steps hn y).mp hy).2.2
  obtain rfl : x = n * (a + i) := by rw [mul_add, ← hi']; omega
  obtain rfl : y = n * (a + j) := by rw [mul_add, ← hj]; omega
  rw [Int.mul_ediv_cancel_left _ hn.ne', Int.mul_ediv_cancel_left _ hn.ne'] at hxy
  rw [hxy]

/-! ### Rounding -/

/-- The number of the grid point that is nearest, of two the higher one. -/
def nearest (n a : ℤ) : ℤ := (a + n / 2) / n

theorem nearest_mono {n : ℤ} (hn : 0 < n) {a b : ℤ} (h : a ≤ b) : nearest n a ≤ nearest n b :=
  Int.ediv_le_ediv hn (Int.add_le_add_right h _)

theorem nearest_mul {n : ℤ} (hn : 0 < n) (k : ℤ) : nearest n (n * k) = k := by
  unfold nearest
  rw [Int.add_comm, Int.add_mul_ediv_left _ _ hn.ne', Int.ediv_eq_zero_of_lt, Int.zero_add]
  · exact Int.ediv_nonneg hn.le (by decide)
  · omega

theorem nearest_max {n : ℤ} (hn : 0 < n) (a b : ℤ) : nearest n (max a b) = max (nearest n a) (nearest n b) := by
  rcases Int.le_total a b with h | h
  · rw [Int.max_eq_right h, Int.max_eq_right (nearest_mono hn h)]
  · rw [Int.max_eq_left h, Int.max_eq_left (nearest_mono hn h)]

theorem nearest_min {n : ℤ} (hn : 0 < n) (a b : ℤ) : nearest n (min a b) = min (nearest n a) (nearest n b) := by
  rcases Int.le_total a b with h | h
  · rw [Int.min_eq_left h, Int.min_eq_left (nearest_mono hn h)]
  · rw [Int.min_eq_right h, Int.min_eq_right (nearest_mono hn h)]

/-! ### Division that cuts the fraction off -/

theorem le_tdiv_iff {a b t : ℤ} (hb : 0 < b) (ht : 0 ≤ t) :
    t ≤ a.tdiv b ↔ t * b ≤ a ∨ t = 0 ∧ -b < a := by
  rcases Int.le_total 0 a with ha | ha
  · rw [Int.tdiv_eq_ediv_of_nonneg ha, Int.le_ediv_iff_mul_le hb]
    constructor
    · exact Or.inl
    · rintro (h | ⟨rfl, -⟩)
      · exact h
      · rwa [Int.zero_mul]
  · obtain ⟨m, rfl⟩ : ∃ m, a = -m := ⟨-a, by omega⟩
    have hm : 0 ≤ m := by omega
    rw [Int.neg_tdiv, Int.tdiv_eq_ediv_of_nonneg hm]
    have hq : 0 ≤ m / b := Int.ediv_nonneg hm hb.le
    have hlt : m / b < 1 ↔ m < 1 * b := Int.ediv_lt_iff_lt_mul hb
    have htb : 0 ≤ t * b := mul_nonneg ht hb.le
    constructor
    · intro h
      exact Or.inr ⟨by omega, by omega⟩
    · rintro (h | ⟨rfl, h⟩)
      · have hm0 : m = 0 := by omega
        subst hm0
        have ht0 : t = 0 := by
          rcases mul_eq_zero.mp (by omega : t * b = 0) with h0 | h0
          · exact h0
          · omega
        simp [ht0]
      · have := hlt.mpr (by omega)
        omega

theorem tdiv_lt_iff {a b t : ℤ} (hb : 0 < b) (ht : 0 < t) : a.tdiv b < t ↔ a < t * b := by
  have h := le_tdiv_iff (a := a) hb ht.le
  have ht0 : ¬t = 0 := by omega
  simp only [ht0, false_and, or_false] at h
  omega

/-! ### Lines -/

/-- The height at `x` of the line through `(x₁, y₁)` and `(x₂, y₂)`, times `x₂ - x₁`. -/
def rise (x₁ y₁ x₂ y₂ x : ℤ) : ℤ := y₁ * (x₂ - x) + y₂ * (x - x₁)

theorem rise_eq (x₁ y₁ x₂ y₂ x : ℤ) :
    rise x₁ y₁ x₂ y₂ x = y₁ * (x₂ - x₁) + (y₂ - y₁) * (x - x₁) := by
  unfold rise
  ring

theorem rise_sub (x₁ y₁ x₂ y₂ x x' : ℤ) :
    rise x₁ y₁ x₂ y₂ x' - rise x₁ y₁ x₂ y₂ x = (y₂ - y₁) * (x' - x) := by
  unfold rise
  ring

/-- A line is highest and lowest at the ends. -/
theorem rise_between (x₁ y₁ x₂ y₂ : ℤ) {lo hi x : ℤ} (hlo : lo ≤ x) (hhi : x ≤ hi) :
    (rise x₁ y₁ x₂ y₂ lo ≤ rise x₁ y₁ x₂ y₂ x ∧ rise x₁ y₁ x₂ y₂ x ≤ rise x₁ y₁ x₂ y₂ hi) ∨
    (rise x₁ y₁ x₂ y₂ hi ≤ rise x₁ y₁ x₂ y₂ x ∧ rise x₁ y₁ x₂ y₂ x ≤ rise x₁ y₁ x₂ y₂ lo) := by
  have h1 := rise_sub x₁ y₁ x₂ y₂ lo x
  have h2 := rise_sub x₁ y₁ x₂ y₂ x hi
  rcases Int.le_total 0 (y₂ - y₁) with hs | hs
  · have := mul_nonneg hs (by omega : 0 ≤ x - lo)
    have := mul_nonneg hs (by omega : 0 ≤ hi - x)
    exact Or.inl ⟨by omega, by omega⟩
  · have := mul_nonpos_of_nonpos_of_nonneg hs (by omega : 0 ≤ x - lo)
    have := mul_nonpos_of_nonpos_of_nonneg hs (by omega : 0 ≤ hi - x)
    exact Or.inr ⟨by omega, by omega⟩

/-- A line that is not steep stays near its points. -/
theorem abs_rise_le {x₁ y₁ x₂ y₂ x m n : ℤ} (hx : x₁ ≤ x₂) (hslope : |y₂ - y₁| ≤ x₂ - x₁) (hy : |y₁| ≤ m)
    (hn : |x - x₁| ≤ n) : |rise x₁ y₁ x₂ y₂ x| ≤ (m + n) * (x₂ - x₁) := by
  have hd : 0 ≤ x₂ - x₁ := by omega
  calc |rise x₁ y₁ x₂ y₂ x|
      ≤ |y₁ * (x₂ - x₁)| + |(y₂ - y₁) * (x - x₁)| := by rw [rise_eq]; exact abs_add_le _ _
    _ = |y₁| * (x₂ - x₁) + |y₂ - y₁| * |x - x₁| := by rw [abs_mul, abs_mul, abs_of_nonneg hd]
    _ ≤ m * (x₂ - x₁) + (x₂ - x₁) * n :=
        add_le_add (mul_le_mul_of_nonneg_right hy hd) (mul_le_mul hslope hn (abs_nonneg _) hd)
    _ = (m + n) * (x₂ - x₁) := by ring

end Grid
