import Mathlib.Algebra.Group.Nat.Defs
import Mathlib.Data.Nat.Notation
import Mathlib.Tactic.Common

/-! # Words of bit fields

`word fs` is the number that has the fields `fs`, each shifted to the bit where it starts. Fields in order
that do not overlap can be read back (`word_inj`), and a field that begins where another one still is can be
taken for a part of it (`word_merge`). -/

namespace DobieStation.Lib.BitFields

structure Field where
  start : ℕ
  {width : ℕ}
  value : BitVec width

/-- The bits that a field has. -/
def Field.layout (f : Field) : ℕ × ℕ := (f.start, f.width)

def Field.shifted (f : Field) : ℕ := f.value.toNat <<< f.start

def word (fs : List Field) : ℕ := fs.foldl (fun w f => w ||| f.shifted) 0

/-- Every field ends before the next one starts. -/
def Apart (fs : List Field) : Prop := fs.Pairwise fun f g => f.start + f.width ≤ g.start

variable {f g : Field} {fs gs : List Field} {i n w : ℕ}

theorem foldl_or : fs.foldl (fun w f => w ||| f.shifted) w = w ||| word fs := by
  unfold word
  induction fs generalizing w with
  | nil => exact (Nat.or_zero w).symm
  | cons f fs ih =>
    rw [List.foldl_cons, List.foldl_cons, ih, ih (w := 0 ||| f.shifted), Nat.zero_or, Nat.or_assoc]

theorem word_nil : word [] = 0 := rfl

theorem word_cons : word (f :: fs) = f.shifted ||| word fs := by
  unfold word
  rw [List.foldl_cons, foldl_or, Nat.zero_or]
  rfl

theorem word_append : word (fs ++ gs) = word fs ||| word gs := by
  unfold word
  rw [List.foldl_append, foldl_or]
  rfl

/-! ### The bits of a word -/

theorem testBit_shifted_below (h : i < f.start) : f.shifted.testBit i = false := by
  simp only [Field.shifted, Nat.testBit_shiftLeft]
  simp [show ¬ f.start ≤ i by omega]

theorem testBit_shifted : f.shifted.testBit (f.start + i) = f.value.toNat.testBit i := by
  rw [Field.shifted, Nat.testBit_shiftLeft, Nat.add_sub_cancel_left]
  simp

theorem testBit_shifted_above (h : f.start + f.width ≤ i) : f.shifted.testBit i = false := by
  have hlt : f.value.toNat < 2 ^ (i - f.start) :=
    Nat.lt_of_lt_of_le f.value.isLt (Nat.pow_le_pow_right (by decide) (by omega))
  rw [Field.shifted, Nat.testBit_shiftLeft, Nat.testBit_lt_two_pow hlt, Bool.and_false]

theorem testBit_word_below (h : ∀ f ∈ fs, i < f.start) : (word fs).testBit i = false := by
  induction fs with
  | nil => exact Nat.zero_testBit i
  | cons f fs ih =>
    rw [word_cons, Nat.testBit_or, testBit_shifted_below (h f List.mem_cons_self),
      ih fun g hg => h g (List.mem_cons_of_mem f hg)]
    rfl

theorem word_lt (h : ∀ f ∈ fs, f.start + f.width ≤ n) : word fs < 2 ^ n := by
  induction fs with
  | nil => exact Nat.two_pow_pos n
  | cons f fs ih =>
    have hf : f.start + f.width ≤ n := h f List.mem_cons_self
    have hlt : f.shifted < 2 ^ n := by
      rw [Field.shifted, Nat.shiftLeft_eq]
      calc f.value.toNat * 2 ^ f.start < 2 ^ f.width * 2 ^ f.start :=
            Nat.mul_lt_mul_of_pos_right f.value.isLt (Nat.two_pow_pos _)
        _ = 2 ^ (f.start + f.width) := by rw [Nat.mul_comm, Nat.pow_add]
        _ ≤ 2 ^ n := Nat.pow_le_pow_right (by decide) hf
    rw [word_cons]
    exact Nat.or_lt_two_pow hlt (ih fun g hg => h g (List.mem_cons_of_mem f hg))

/-! ### Reading fields back -/

/-- The lowest field, and the word of the others. -/
theorem word_cons_inj (hlayout : f.layout = g.layout) (hf : ∀ f' ∈ fs, f.start + f.width ≤ f'.start)
    (hg : ∀ g' ∈ gs, g.start + g.width ≤ g'.start) (h : word (f :: fs) = word (g :: gs)) :
    f = g ∧ word fs = word gs := by
  obtain ⟨start, value⟩ := f
  obtain ⟨start', value'⟩ := g
  obtain ⟨rfl, rfl⟩ := Prod.mk.inj hlayout
  rw [word_cons, word_cons] at h
  have hbit := fun i => congrArg (Nat.testBit · i) h
  simp only [Nat.testBit_or] at hbit
  constructor
  · congr 1
    refine BitVec.eq_of_toNat_eq (Nat.eq_of_testBit_eq fun i => ?_)
    rcases Nat.lt_or_ge i _ with hi | hi
    · have hi' := hbit (start + i)
      rw [testBit_shifted (f := ⟨start, value⟩), testBit_shifted (f := ⟨start, value'⟩),
        testBit_word_below fun f' hf' => Nat.lt_of_lt_of_le (by exact Nat.add_lt_add_left hi _) (hf f' hf'),
        testBit_word_below fun g' hg' => Nat.lt_of_lt_of_le (by exact Nat.add_lt_add_left hi _) (hg g' hg'),
        Bool.or_false, Bool.or_false] at hi'
      exact hi'
    · rw [BitVec.testBit_toNat, BitVec.testBit_toNat, BitVec.getLsbD_of_ge _ _ hi,
        BitVec.getLsbD_of_ge _ _ hi]
  · refine Nat.eq_of_testBit_eq fun i => ?_
    rcases Nat.lt_or_ge i _ with hi | hi
    · rw [testBit_word_below fun f' hf' => Nat.lt_of_lt_of_le hi (hf f' hf'),
        testBit_word_below fun g' hg' => Nat.lt_of_lt_of_le hi (hg g' hg')]
    · have hi' := hbit i
      rw [testBit_shifted_above hi, testBit_shifted_above (f := ⟨start, value'⟩) hi, Bool.false_or,
        Bool.false_or] at hi'
      exact hi'

theorem apart_iff : Apart fs ↔ (fs.map Field.layout).Pairwise fun a b => a.1 + a.2 ≤ b.1 := by
  rw [List.pairwise_map]
  rfl

theorem word_inj (hlayout : fs.map Field.layout = gs.map Field.layout) (hapart : Apart fs)
    (h : word fs = word gs) : fs = gs := by
  have happly : Apart gs := by
    rw [apart_iff, ← hlayout, ← apart_iff]
    exact hapart
  induction fs generalizing gs with
  | nil => exact (List.map_eq_nil_iff.mp hlayout.symm).symm
  | cons f fs ih =>
    cases gs with
    | nil => exact absurd hlayout (List.cons_ne_nil _ _)
    | cons g gs =>
      obtain ⟨hhead, htail⟩ := List.cons.inj hlayout
      obtain ⟨hf, hfs⟩ := List.pairwise_cons.mp hapart
      obtain ⟨hg, hgs⟩ := List.pairwise_cons.mp happly
      obtain ⟨rfl, hword⟩ := word_cons_inj hhead hf hg h
      rw [ih htail hfs hword hgs]

/-- A field that lies within the one before it is a part of it. -/
theorem word_merge {p q n k : ℕ} {a : BitVec q} {b : BitVec n} (h : n + k ≤ q) :
    word (⟨p, a⟩ :: ⟨p + k, b⟩ :: fs) = word (⟨p, a ||| b.setWidth q <<< k⟩ :: fs) := by
  have hb : b.toNat < 2 ^ q := Nat.lt_of_lt_of_le b.isLt (Nat.pow_le_pow_right (by decide) (by omega))
  have hbk : b.toNat <<< k < 2 ^ q := by
    rw [Nat.shiftLeft_eq]
    calc b.toNat * 2 ^ k < 2 ^ n * 2 ^ k := Nat.mul_lt_mul_of_pos_right b.isLt (Nat.two_pow_pos k)
      _ = 2 ^ (n + k) := (Nat.pow_add 2 n k).symm
      _ ≤ 2 ^ q := Nat.pow_le_pow_right (by decide) h
  rw [word_cons, word_cons, word_cons, ← Nat.or_assoc]
  congr 1
  simp only [Field.shifted, BitVec.toNat_or, BitVec.toNat_shiftLeft, BitVec.toNat_setWidth]
  rw [Nat.mod_eq_of_lt hb, Nat.mod_eq_of_lt hbk, Nat.shiftLeft_or_distrib, Nat.add_comm p k,
    Nat.shiftLeft_add]

end DobieStation.Lib.BitFields
