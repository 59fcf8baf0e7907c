import Mathlib.Algebra.Group.Nat.Defs
import Mathlib.Data.Nat.Init
import Mathlib.Data.Nat.Notation
import Mathlib.Tactic.Common

/-! # Slices of packed words

`packed L ds` is the number whose `L`-bit digits are the words `ds`, least significant first, and
`slice p q x` are the `q` bits of a number from the bit `p` on. A slice depends on the words that it lies in
and on no others (`slice_packed_left`, `slice_packed_last`), wherever the boundaries of the words are, and
two slices that meet are one (`slice_add`). -/

namespace DobieStation.Lib.Fields

def packed (L : ℕ) : List ℕ → ℕ
  | [] => 0
  | d :: ds => d + 2 ^ L * packed L ds

def slice (p q x : ℕ) : ℕ := x / 2 ^ p % 2 ^ q

variable {L p q r x a b M : ℕ} {ds es : List ℕ}

theorem packed_append : packed L (ds ++ es) = packed L ds + 2 ^ (L * ds.length) * packed L es := by
  induction ds with
  | nil => simp [packed]
  | cons d ds ih =>
    rw [List.cons_append, packed, packed, ih, List.length_cons, Nat.mul_succ, Nat.add_comm (L * _),
      Nat.pow_add, Nat.mul_add, Nat.mul_assoc, Nat.add_assoc]

theorem packed_lt (h : ∀ d ∈ ds, d < 2 ^ L) : packed L ds < 2 ^ (L * ds.length) := by
  induction ds with
  | nil => exact Nat.one_pos
  | cons d ds ih =>
    have hd : d < 2 ^ L := h d List.mem_cons_self
    have hds := ih fun e he => h e (List.mem_cons_of_mem d he)
    have hle : 2 ^ L * (packed L ds + 1) ≤ 2 ^ L * 2 ^ (L * ds.length) := Nat.mul_le_mul_left _ hds
    rw [packed, List.length_cons, Nat.mul_succ, Nat.add_comm (L * _), Nat.pow_add]
    rw [Nat.mul_succ] at hle
    omega

theorem slice_lt : slice p q x < 2 ^ q := Nat.mod_lt _ (Nat.two_pow_pos q)

theorem slice_zero : slice p 0 x = 0 := Nat.mod_one _

/-- A shift and a mask. -/
theorem shiftRight_mask : (x >>> p) &&& (2 ^ q - 1) = slice p q x := by
  rw [Nat.and_two_pow_sub_one_eq_mod, Nat.shiftRight_eq_div_pow]
  rfl

/-- Two slices that meet. -/
theorem slice_add : slice p (q + r) x = slice p q x + 2 ^ q * slice (p + q) r x := by
  unfold slice
  rw [Nat.pow_add 2 q, Nat.mod_mul, Nat.pow_add 2 p, Nat.div_div_eq_div_mul]

theorem slice_or : slice p q x ||| slice (p + q) r x <<< q = slice p (q + r) x := by
  rw [slice_add, Nat.shiftLeft_eq, Nat.mul_comm _ (2 ^ q), Nat.add_comm (slice p q x),
    Nat.two_pow_add_eq_or_of_lt slice_lt, Nat.or_comm]

/-- A slice depends on the bits below its end. -/
theorem slice_mod (h : p + q ≤ M) : slice p q (x % 2 ^ M) = slice p q x := by
  have hsplit : M = p + q + (M - (p + q)) := by omega
  unfold slice
  rw [hsplit, Nat.pow_add, Nat.pow_add, Nat.mul_assoc, Nat.mod_mul_right_div_self,
    Nat.mod_mul_right_mod]

theorem slice_low (h : p + q ≤ M) : slice p q (a + 2 ^ M * b) = slice p q a := by
  rw [← slice_mod (x := a + 2 ^ M * b) h, Nat.add_mul_mod_self_left, slice_mod h]

theorem slice_high (ha : a < 2 ^ M) : slice (M + p) q (a + 2 ^ M * b) = slice p q b := by
  unfold slice
  rw [Nat.pow_add, ← Nat.div_div_eq_div_mul, Nat.add_mul_div_left _ _ (Nat.two_pow_pos M),
    Nat.div_eq_of_lt ha, Nat.zero_add]

/-- A slice that ends within the first words. -/
theorem slice_packed_left (h : p + q ≤ L * ds.length) :
    slice p q (packed L (ds ++ es)) = slice p q (packed L ds) := by
  rw [packed_append, slice_low h]

/-- A slice of the last word. -/
theorem slice_packed_last {d : ℕ} (hds : ∀ d ∈ ds, d < 2 ^ L) :
    slice (L * ds.length + p) q (packed L (ds ++ [d])) = slice p q d := by
  rw [packed_append, slice_high (packed_lt hds)]
  simp [packed]

/-! ### The words of a number, one after another -/

theorem slice_self (h : x < 2 ^ q) : slice 0 q x = x := by
  rw [slice, Nat.pow_zero, Nat.div_one, Nat.mod_eq_of_lt h]

theorem packed_concat {d : ℕ} : packed L (ds ++ [d]) = packed L ds + 2 ^ (L * ds.length) * d := by
  rw [packed_append, packed, packed, Nat.mul_zero, Nat.add_zero]

/-- A field that is put beside the others. -/
theorem packed_or {d : ℕ} (h : ∀ d ∈ ds, d < 2 ^ L) :
    packed L ds ||| d <<< (L * ds.length) = packed L (ds ++ [d]) := by
  rw [packed_concat, Nat.shiftLeft_eq, Nat.mul_comm d, Nat.add_comm,
    Nat.two_pow_add_eq_or_of_lt (packed_lt h), Nat.or_comm]

/-- The next word of a number, of which `r` bits are known. -/
theorem packed_next {d : ℕ} (h : packed L ds = slice 0 (L * ds.length) x)
    (hd : d % 2 ^ r = slice (L * ds.length) r x) :
    packed L (ds ++ [d]) % 2 ^ (L * ds.length + r) = slice 0 (L * ds.length + r) x := by
  have hlt : packed L ds < 2 ^ (L * ds.length) := h ▸ slice_lt
  rw [packed_concat, slice_add, Nat.zero_add, ← hd, ← h, Nat.pow_add, Nat.mod_mul,
    Nat.add_mul_mod_self_left, Nat.mod_eq_of_lt hlt, Nat.add_mul_div_left _ _ (Nat.two_pow_pos _),
    Nat.div_eq_of_lt hlt, Nat.zero_add]

/-- A word beyond the bits that are known. -/
theorem packed_over {d : ℕ} (h : M ≤ L * ds.length) : packed L (ds ++ [d]) % 2 ^ M = packed L ds % 2 ^ M := by
  have hsplit : L * ds.length = M + (L * ds.length - M) := by omega
  rw [packed_concat, hsplit, Nat.pow_add, Nat.mul_assoc, Nat.add_mul_mod_self_left]

/-! ### Fields by their numbers -/

/-- The fields `f 0`, `f 1`, … up to the number `n`. -/
def fields (L : ℕ) (f : ℕ → ℕ) (n : ℕ) : ℕ := packed L ((List.range n).map f)

variable {f g : ℕ → ℕ} {n m k : ℕ}

theorem fields_succ : fields L f (n + 1) = fields L f n + 2 ^ (L * n) * f n := by
  rw [fields, List.range_succ, List.map_append, List.map_singleton, packed_concat, List.length_map,
    List.length_range, fields]

theorem fields_lt (h : ∀ k, f k < 2 ^ L) : fields L f n < 2 ^ (L * n) := by
  have hlt : packed L ((List.range n).map f) < _ := packed_lt (by simp [h])
  rwa [List.length_map, List.length_range] at hlt

theorem fields_or (h : ∀ k, f k < 2 ^ L) : fields L f n ||| f n <<< (L * n) = fields L f (n + 1) := by
  have hor : packed L ((List.range n).map f) ||| f n <<< _ = _ := packed_or (by simp [h])
  rw [List.length_map, List.length_range] at hor
  rw [fields, hor, fields, List.range_succ, List.map_append, List.map_singleton]

theorem fields_add : fields L f (n + m) = fields L f n + 2 ^ (L * n) * fields L (fun k => f (n + k)) m := by
  rw [fields, List.range_add, List.map_append, packed_append, List.length_map, List.length_range,
    List.map_map]
  rfl

/-- A slice depends on the fields that it lies in. -/
theorem slice_fields_left (h : p + q ≤ L * n) : slice p q (fields L f (n + m)) = slice p q (fields L f n) := by
  rw [fields_add, slice_low h]

theorem slice_fields (hn : p + q ≤ L * n) (hm : p + q ≤ L * m) :
    slice p q (fields L f n) = slice p q (fields L f m) := by
  rcases Nat.le_total n m with h | h
  · rw [← Nat.add_sub_of_le h, slice_fields_left hn]
  · rw [← Nat.add_sub_of_le h, slice_fields_left hm]

/-- The fields from one on. -/
theorem slice_fields_from (h : ∀ k, f k < 2 ^ L) (hle : n + m ≤ k) :
    slice (L * n) (L * m) (fields L f k) = fields L (fun i => f (n + i)) m := by
  have hend : L * n + L * m = L * (n + m) := (Nat.mul_add L n m).symm
  have hk : L * (n + m) ≤ L * k := Nat.mul_le_mul_left L hle
  rw [slice_fields (m := n + m) (by omega) (by omega), fields_add]
  have hhigh := slice_high (p := 0) (q := L * m) (b := fields L (fun i => f (n + i)) m)
    (fields_lt (n := n) h)
  rw [Nat.add_zero] at hhigh
  rw [hhigh, slice_self (fields_lt fun k => h (n + k))]

theorem slice_field (h : ∀ k, f k < 2 ^ L) (hk : k < n) : slice (L * k) L (fields L f n) = f k := by
  have hfrom := slice_fields_from (m := 1) h hk
  rw [Nat.mul_one, fields_succ, Nat.mul_zero, Nat.pow_zero, Nat.one_mul, Nat.add_zero] at hfrom
  rw [hfrom, fields, List.range_zero, List.map_nil, packed, Nat.zero_add]

theorem fields_inj (hf : ∀ k, f k < 2 ^ L) (hg : ∀ k, g k < 2 ^ L) :
    fields L f n = fields L g n ↔ ∀ k < n, f k = g k := by
  constructor
  · intro h k hk
    rw [← slice_field hf hk, h, slice_field hg hk]
  · intro h
    rw [fields, fields, List.map_congr_left fun k hk => h k (List.mem_range.mp hk)]

end DobieStation.Lib.Fields
