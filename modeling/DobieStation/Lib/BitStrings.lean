import Mathlib.Data.Nat.Bitwise
import Mathlib.Data.Nat.Notation

/-! # Words of binary digits

A word of digits, the most significant first, and the number it stands for. -/

namespace BitStrings

/-- The number a word of digits stands for. -/
def value : List Bool → ℕ
  | [] => 0
  | b :: w => 2 ^ w.length * b.toNat + value w

/-- The low `n` digits of `k`. -/
def digits : ℕ → ℕ → List Bool
  | 0, _ => []
  | n + 1, k => k.testBit n :: digits n k

@[simp] theorem digits_length (k : ℕ) : ∀ n, (digits n k).length = n
  | 0 => rfl
  | n + 1 => by rw [digits, List.length_cons, digits_length k n]

theorem value_lt : ∀ w, value w < 2 ^ w.length
  | [] => by simp [value]
  | b :: w => by
    have hw := value_lt w
    rw [value, List.length_cons, Nat.pow_succ]
    rcases b <;> simp <;> omega

theorem value_append (v : List Bool) : ∀ u, value (u ++ v) = 2 ^ v.length * value u + value v
  | [] => by simp [value]
  | b :: u => by
    rw [List.cons_append, value, value, value_append v u, List.length_append, Nat.pow_add, Nat.mul_add,
      Nat.mul_comm (2 ^ u.length), Nat.mul_assoc, Nat.add_assoc]

theorem value_append_mod (u v : List Bool) : value (u ++ v) % 2 ^ v.length = value v := by
  rw [value_append, Nat.mul_add_mod, Nat.mod_eq_of_lt (value_lt v)]

theorem value_digits (k : ℕ) : ∀ n, value (digits n k) = k % 2 ^ n
  | 0 => by simp [digits, value, Nat.mod_one]
  | n + 1 => by rw [digits, value, digits_length, value_digits k n, Nat.mod_pow_succ, Nat.toNat_testBit, Nat.add_comm]

theorem value_digits_of_lt {n k : ℕ} (h : k < 2 ^ n) : value (digits n k) = k := by
  rw [value_digits, Nat.mod_eq_of_lt h]

theorem digits_congr {j k : ℕ} : ∀ {n}, (∀ i < n, j.testBit i = k.testBit i) → digits n j = digits n k
  | 0, _ => rfl
  | n + 1, h => by
    rw [digits, digits, h n n.lt_succ_self, digits_congr fun i hi => h i (Nat.lt_succ_of_lt hi)]

theorem digits_value : ∀ w, digits w.length (value w) = w
  | [] => rfl
  | b :: w => by
    have hbit : ∀ i, (value (b :: w)).testBit i =
        if i < w.length then (value w).testBit i else b.toNat.testBit (i - w.length) := fun i =>
      Nat.testBit_two_pow_mul_add _ (value_lt w) i
    rw [List.length_cons, digits, hbit, if_neg (Nat.lt_irrefl _), Nat.sub_self]
    congr 1
    · cases b <;> rfl
    · have hw : digits w.length (value (b :: w)) = digits w.length (value w) :=
        digits_congr fun i hi => by rw [hbit, if_pos hi]
      rw [hw, digits_value w]

/-- Words of one length are told apart by their numbers. -/
theorem value_inj {u v : List Bool} (hl : u.length = v.length) (h : value u = value v) : u = v := by
  rw [← digits_value u, ← digits_value v, hl, h]

theorem getElem?_digits (k : ℕ) : ∀ n i, i < n → (digits n k)[i]? = some (k.testBit (n - 1 - i))
  | n + 1, 0, _ => rfl
  | n + 1, i + 1, h => by
    rw [digits, List.getElem?_cons_succ, getElem?_digits k n i (Nat.lt_of_succ_lt_succ h)]
    congr 2
    omega

theorem testBit_value {w : List Bool} {i : ℕ} (hi : i < w.length) :
    (value w).testBit i = w.getD (w.length - 1 - i) false := by
  have hw := getElem?_digits (value w) w.length (w.length - 1 - i) (by omega)
  rw [digits_value] at hw
  rw [List.getD_eq_getElem?_getD, hw, Option.getD_some]
  congr 1
  omega

theorem testBit_value_of_le {w : List Bool} {i : ℕ} (hi : w.length ≤ i) : (value w).testBit i = false :=
  Nat.testBit_lt_two_pow ((value_lt w).trans_le (Nat.pow_le_pow_right (by decide) hi))

/-- The digits of a number are the beginning of a word if the word is long enough and begins with
the number. -/
theorem digits_prefix_iff {n k : ℕ} (hk : k < 2 ^ n) (s : List Bool) :
    digits n k <+: s ↔ n ≤ s.length ∧ value (s.take n) = k := by
  constructor
  · intro h
    refine ⟨(digits_length k n).symm.le.trans h.length_le, ?_⟩
    rw [List.prefix_iff_eq_take, digits_length] at h
    rw [← h, value_digits_of_lt hk]
  · rintro ⟨hn, h⟩
    rw [List.prefix_iff_eq_take, digits_length]
    exact value_inj (by rw [digits_length, List.length_take, Nat.min_eq_left hn])
      (by rw [value_digits_of_lt hk, h])

theorem digits_add (k m : ℕ) : ∀ n, digits (n + m) k = digits n (k / 2 ^ m) ++ digits m k
  | 0 => by rw [Nat.zero_add]; rfl
  | n + 1 => by
    rw [Nat.add_right_comm, digits, digits, digits_add k m n, Nat.testBit_div_two_pow, List.cons_append]

/-- Which numbers of digits begin which. -/
theorem digits_prefix_digits_iff {n m j k : ℕ} (hj : j < 2 ^ n) (hk : k < 2 ^ m) :
    digits n j <+: digits m k ↔ n ≤ m ∧ k / 2 ^ (m - n) = j := by
  rw [digits_prefix_iff hj, digits_length]
  refine and_congr_right fun hnm => ?_
  obtain ⟨d, rfl⟩ := Nat.exists_eq_add_of_le hnm
  have hlt : k / 2 ^ d < 2 ^ n := by
    rw [Nat.div_lt_iff_lt_mul (Nat.two_pow_pos d), ← Nat.pow_add]
    exact hk
  rw [digits_add, List.take_left' (digits_length _ _), value_digits_of_lt hlt, Nat.add_sub_cancel_left]

end BitStrings
