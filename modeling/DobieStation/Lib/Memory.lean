import Mathlib.Algebra.Group.Nat.Defs
import Mathlib.Data.Nat.Notation
import Mathlib.Logic.Function.Basic
import Mathlib.Tactic.Common

/-! # Memory as bytes

`load n m a` is the number whose little-endian bytes are the `n` bytes of `m` at `a`, `store n m a v`
writes one. A load after a store sees the value where the ranges are the same, and what was there
before where they are apart. -/

namespace DobieStation.Lib.Memory

abbrev Bytes := ℕ → BitVec 8

def load : ℕ → Bytes → ℕ → ℕ
  | 0, _, _ => 0
  | n + 1, m, a => (m a).toNat + 256 * load n m (a + 1)

def store : ℕ → Bytes → ℕ → ℕ → Bytes
  | 0, m, _, _ => m
  | n + 1, m, a, v => Function.update (store n m (a + 1) (v / 256)) a (BitVec.ofNat 8 v)

theorem store_apply_of_lt {n : ℕ} {m : Bytes} {a v p : ℕ} (h : p < a) : store n m a v p = m p := by
  induction n generalizing a v with
  | zero => rfl
  | succ n ih =>
    rw [store, Function.update_of_ne (by omega)]
    exact ih (by omega)

theorem store_apply {n : ℕ} {m : Bytes} {a v p : ℕ} (h : p < a ∨ a + n ≤ p) :
    store n m a v p = m p := by
  induction n generalizing a v with
  | zero => rfl
  | succ n ih =>
    rw [store, Function.update_of_ne (by omega)]
    exact ih (by omega)

theorem load_congr {n : ℕ} {m m' : Bytes} {a : ℕ} (h : ∀ p, a ≤ p → p < a + n → m p = m' p) :
    load n m a = load n m' a := by
  induction n generalizing a with
  | zero => rfl
  | succ n ih =>
    rw [load, load, h a (Nat.le_refl a) (by omega), ih fun p h1 h2 => h p (by omega) (by omega)]

theorem load_store_apart {n k : ℕ} {m : Bytes} {a b v : ℕ} (h : a + n ≤ b ∨ b + k ≤ a) :
    load k (store n m a v) b = load k m b :=
  load_congr fun p h1 h2 => store_apply (by omega)

theorem load_update_apart {k : ℕ} {m : Bytes} {a b : ℕ} {x : BitVec 8} (h : a < b ∨ b + k ≤ a) :
    load k (Function.update m a x) b = load k m b :=
  load_congr fun p h1 h2 => Function.update_of_ne (by omega) _ _

theorem load_store_self {n : ℕ} {m : Bytes} {a v : ℕ} :
    load n (store n m a v) a = v % 256 ^ n := by
  induction n generalizing a v with
  | zero => rw [load, Nat.pow_zero, Nat.mod_one]
  | succ n ih =>
    have htail : load n (store (n + 1) m a v) (a + 1) = load n (store n m (a + 1) (v / 256)) (a + 1) :=
      load_update_apart (by omega)
    have hhead : (store (n + 1) m a v a).toNat = v % 256 := by
      rw [store, Function.update_self, BitVec.toNat_ofNat]
    rw [load, htail, hhead, ih, Nat.pow_succ', Nat.mod_mul]

theorem load_lt {n : ℕ} {m : Bytes} {a : ℕ} : load n m a < 256 ^ n := by
  induction n generalizing a with
  | zero => exact Nat.one_pos
  | succ n ih =>
    have hbyte := (m a).isLt
    have hrest := ih (a := a + 1)
    rw [load, Nat.pow_succ']
    omega

/-! ### Single bytes -/

theorem store_byte {n : ℕ} {m : Bytes} {a v j : ℕ} (h : j < n) :
    store n m a v (a + j) = BitVec.ofNat 8 (v / 256 ^ j) := by
  induction n generalizing a v j with
  | zero => exact absurd h (Nat.not_lt_zero j)
  | succ n ih =>
    cases j with
    | zero => rw [Nat.add_zero a, store, Function.update_self, Nat.pow_zero, Nat.div_one]
    | succ j =>
      rw [store, Function.update_of_ne (by omega), show a + (j + 1) = a + 1 + j by omega,
        ih (by omega), Nat.div_div_eq_div_mul, Nat.pow_succ']

theorem load_byte {n : ℕ} {m : Bytes} {a j : ℕ} (h : j < n) :
    BitVec.ofNat 8 (load n m a / 256 ^ j) = m (a + j) := by
  induction n generalizing a j with
  | zero => exact absurd h (Nat.not_lt_zero j)
  | succ n ih =>
    have hbyte := (m a).isLt
    cases j with
    | zero =>
      apply BitVec.eq_of_toNat_eq
      rw [Nat.add_zero a, load, BitVec.toNat_ofNat, Nat.pow_zero, Nat.div_one]
      omega
    | succ j =>
      have hrest : load (n + 1) m a / 256 = load n m (a + 1) := by
        rw [load]
        omega
      rw [Nat.pow_succ', ← Nat.div_div_eq_div_mul, hrest, ih (by omega), Nat.add_assoc,
        Nat.add_comm 1]

/-! ### Values one after the other -/

/-- `k` values of `n` bytes each are stored from `a` on. -/
def fill (n : ℕ) (v : ℕ → ℕ) (a : ℕ) : ℕ → Bytes → Bytes
  | 0, m => m
  | k + 1, m => store n (fill n v a k m) (a + n * k) (v k)

theorem fill_apply {n a k p : ℕ} {v : ℕ → ℕ} {m : Bytes} (h : p < a ∨ a + n * k ≤ p) :
    fill n v a k m p = m p := by
  induction k with
  | zero => rfl
  | succ k ih =>
    rw [Nat.mul_succ] at h
    rw [fill, store_apply (by omega)]
    exact ih (by omega)

theorem load_fill {n a j k : ℕ} {v : ℕ → ℕ} {m : Bytes} (hj : j < k) :
    load n (fill n v a k m) (a + n * j) = v j % 256 ^ n := by
  induction k with
  | zero => exact absurd hj (Nat.not_lt_zero j)
  | succ k ih =>
    rw [fill]
    rcases Nat.lt_succ_iff_lt_or_eq.mp hj with hlt | rfl
    · have hnext : n * (j + 1) ≤ n * k := Nat.mul_le_mul_left n hlt
      rw [Nat.mul_succ] at hnext
      rw [load_store_apart (by omega), ih hlt]
    · exact load_store_self

end DobieStation.Lib.Memory
