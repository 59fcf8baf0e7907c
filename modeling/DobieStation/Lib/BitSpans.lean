import DobieStation.Lib.Memory
import Mathlib.Data.BitVec
import Mathlib.Data.List.Induction

/-! # Memory as bits

The bits of a memory are numbered from the lowest one of byte 0 on. Spans of bits that are copied one after
the other, none onto one that is still to be read, are all copied as they were in the beginning
(`copies_hit`, `copies_miss`). -/

namespace DobieStation.Lib.BitSpans

open DobieStation.Lib.Memory

variable {n a v i b : ℕ} {m m' : Bytes}

def bitAt (m : Bytes) (b : ℕ) : Bool := (m (b / 8)).getLsbD (b % 8)

theorem bytes_ext (h : ∀ b, bitAt m b = bitAt m' b) : m = m' := by
  funext a
  apply BitVec.eq_of_getLsbD_eq
  intro i hi
  have hbit : bitAt m (8 * a + i) = bitAt m' (8 * a + i) := h (8 * a + i)
  unfold bitAt at hbit
  rw [show (8 * a + i) / 8 = a by omega, show (8 * a + i) % 8 = i by omega] at hbit
  exact hbit

theorem load_testBit : (load n m a).testBit i = (decide (i < 8 * n) && bitAt m (8 * a + i)) := by
  by_cases hi : i < 8 * n
  · have hbyte : BitVec.ofNat 8 (load n m a / 256 ^ (i / 8)) = m (a + i / 8) := load_byte (by omega)
    unfold bitAt
    rw [decide_eq_true hi, Bool.true_and, show (8 * a + i) / 8 = a + i / 8 by omega,
      show (8 * a + i) % 8 = i % 8 by omega, ← hbyte, BitVec.getLsbD_ofNat, decide_eq_true (by omega),
      Bool.true_and, show 256 = 2 ^ 8 from rfl, ← Nat.pow_mul, Nat.testBit_div_two_pow]
    congr 1
    omega
  · rw [decide_eq_false hi, Bool.false_and]
    apply Nat.testBit_lt_two_pow
    have hlt : load n m a < 256 ^ n := load_lt
    rw [show 256 = 2 ^ 8 from rfl, ← Nat.pow_mul] at hlt
    exact Nat.lt_of_lt_of_le hlt (Nat.pow_le_pow_right (by decide) (by omega))

theorem bitAt_store : bitAt (store n m a v) b =
    if 8 * a ≤ b ∧ b < 8 * (a + n) then v.testBit (b - 8 * a) else bitAt m b := by
  unfold bitAt
  split_ifs with h
  · have hbyte : store n m a v (a + (b / 8 - a)) = BitVec.ofNat 8 (v / 256 ^ (b / 8 - a)) :=
      store_byte (by omega)
    rw [show a + (b / 8 - a) = b / 8 by omega] at hbyte
    rw [hbyte, BitVec.getLsbD_ofNat, decide_eq_true (by omega), Bool.true_and, show 256 = 2 ^ 8 from rfl,
      ← Nat.pow_mul, Nat.testBit_div_two_pow]
    congr 1
    omega
  · rw [store_apply (by omega)]

/-! ### Spans -/

/-- Two spans of `n` bits have none in common. -/
def Apart (n a b : ℕ) : Prop := a + n ≤ b ∨ b + n ≤ a

instance : Decidable (Apart n a b) := inferInstanceAs (Decidable (_ ∨ _))

/-- The span of `n` bits at `target` becomes what the one at `source` was. -/
def CopiesSpan (n source target : ℕ) (m m' : Bytes) : Prop := ∀ b, bitAt m' b =
  if target ≤ b ∧ b < target + n then bitAt m (source + (b - target)) else bitAt m b

variable {A : Type} {copy : Bytes → A → Bytes} {source target : A → ℕ}

/-- A bit to which no span is copied. -/
theorem copies_miss (hcopy : ∀ m x, CopiesSpan n (source x) (target x) m (copy m x)) {xs : List A}
    (hmiss : ∀ x ∈ xs, ¬ (target x ≤ b ∧ b < target x + n)) : bitAt (xs.foldl copy m) b = bitAt m b := by
  induction xs using List.reverseRecOn with
  | nil => rfl
  | append_singleton xs y ih =>
    rw [List.foldl_concat, hcopy, if_neg (hmiss y (by simp))]
    exact ih fun x hx => hmiss x (List.mem_append_left _ hx)

/-- The bit is that of any of the spans that are copied to it. -/
theorem copies_hit (hcopy : ∀ m x, CopiesSpan n (source x) (target x) m (copy m x)) {xs : List A}
    (hsource : ∀ x ∈ xs, ∀ y ∈ xs, Apart n (target x) (source y))
    (htarget : ∀ x ∈ xs, ∀ y ∈ xs, source x = source y ∧ target x = target y ∨ Apart n (target x) (target y))
    {x : A} (hx : x ∈ xs) (hlow : target x ≤ b) (hhigh : b < target x + n) :
    bitAt (xs.foldl copy m) b = bitAt m (source x + (b - target x)) := by
  induction xs using List.reverseRecOn with
  | nil => exact absurd hx List.not_mem_nil
  | append_singleton xs y ih =>
    have hy : y ∈ xs ++ [y] := by simp
    have hleft {z : A} (hz : z ∈ xs) : z ∈ xs ++ [y] := List.mem_append_left _ hz
    rw [List.foldl_concat, hcopy]
    split_ifs with hhit
    · have hsame : source x = source y ∧ target x = target y := by
        rcases htarget x hx y hy with h | h
        · exact h
        · unfold Apart at h
          omega
      have hkept : bitAt (xs.foldl copy m) (source y + (b - target y)) = bitAt m (source y + (b - target y)) := by
        refine copies_miss hcopy fun z hz hb => ?_
        have hapart : Apart n (target z) (source y) := hsource z (hleft hz) y hy
        unfold Apart at hapart
        omega
      rw [hkept, hsame.1, hsame.2]
    · have hxs : x ∈ xs := by
        rcases List.mem_append.mp hx with h | h
        · exact h
        · obtain rfl := List.mem_singleton.mp h
          exact absurd ⟨hlow, hhigh⟩ hhit
      exact ih (fun z hz w hw => hsource z (hleft hz) w (hleft hw))
        (fun z hz w hw => htarget z (hleft hz) w (hleft hw)) hxs

/-- The order in which the spans are copied does not matter. -/
theorem copies_comm (hcopy : ∀ m x, CopiesSpan n (source x) (target x) m (copy m x)) {xs ys : List A}
    (hsource : ∀ x ∈ xs, ∀ y ∈ xs, Apart n (target x) (source y))
    (htarget : ∀ x ∈ xs, ∀ y ∈ xs, source x = source y ∧ target x = target y ∨ Apart n (target x) (target y))
    (hmem : ∀ x, x ∈ ys ↔ x ∈ xs) : ys.foldl copy m = xs.foldl copy m := by
  apply bytes_ext
  intro b
  by_cases hhit : ∃ x ∈ xs, target x ≤ b ∧ b < target x + n
  · obtain ⟨x, hx, hlow, hhigh⟩ := hhit
    rw [copies_hit hcopy hsource htarget hx hlow hhigh]
    refine copies_hit hcopy (fun z hz w hw => ?_) (fun z hz w hw => ?_) ((hmem x).mpr hx) hlow hhigh
    · exact hsource z ((hmem z).mp hz) w ((hmem w).mp hw)
    · exact htarget z ((hmem z).mp hz) w ((hmem w).mp hw)
  · have hmiss (x : A) (hx : x ∈ xs) : ¬ (target x ≤ b ∧ b < target x + n) := fun h => hhit ⟨x, hx, h⟩
    rw [copies_miss hcopy hmiss, copies_miss hcopy fun x hx => hmiss x ((hmem x).mp hx)]

end DobieStation.Lib.BitSpans
