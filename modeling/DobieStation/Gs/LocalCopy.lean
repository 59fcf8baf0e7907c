import DobieStation.Gs.LocalToLocal
import DobieStation.Gs.RoundTrip
import DobieStation.Lib.BitSpans

/-! # Pixels that are copied

A pixel is a span of bits of the local memory (`place`), and a turn of `local_to_local` copies one span to
another. -/

namespace DobieStation.Gs.LocalCopy

open DobieStation.Gs.Model DobieStation.Lib.Memory DobieStation.Lib.BitSpans

variable {T : PageTables} {m m' : Bytes} {a b v i : ℕ}

/-! ### The formats -/

/-- The bits of a pixel. -/
def pixelSize : ℕ → ℕ
  | 0x00 | 0x30 => 32
  | 0x01 | 0x31 => 24
  | 0x02 | 0x0A | 0x3A => 16
  | 0x13 | 0x1B => 8
  | 0x14 | 0x24 | 0x2C => 4
  | _ => 0

/-- The first bit of the pixel at `x` and `y`. -/
def place (T : PageTables) (format base width x y : ℕ) : ℕ :=
  let addr (f : ℕ → ℕ → ℕ → ℕ → ℕ) := f (base / 256) (width / 64) x y
  match format with
  | 0x02 => 8 * addr (addrPSMCT16 T.toTables)
  | 0x0A => 8 * addr (addrPSMCT16S T.toTables)
  | 0x13 => 8 * addr (addrPSMCT8 T.toTables)
  | 0x14 => 4 * addr (addrPSMCT4 T.toTables)
  | 0x1B | 0x24 => 8 * addr (addrPSMCT32 T.toTables) + 24
  | 0x2C => 8 * addr (addrPSMCT32 T.toTables) + 28
  | 0x30 | 0x31 => 8 * addr (addrPSMCT32Z T.toTables)
  | 0x3A => 8 * addr (addrPSMCT16SZ T)
  | _ => 8 * addr (addrPSMCT32 T.toTables)

def sourceFormats : List ℕ := [0x00, 0x01, 0x02, 0x0A, 0x13, 0x14, 0x1B, 0x2C, 0x30, 0x31]

def destFormats : List ℕ := [0x00, 0x01, 0x02, 0x0A, 0x13, 0x14, 0x1B, 0x24, 0x2C, 0x30, 0x31, 0x3A]

/-! ### Reading -/

/-- The number whose lowest `n` bits are the span at `p`; of other than 24 bits it has no more. -/
def Holds (n p : ℕ) (m : Bytes) (data : ℕ) : Prop :=
  (∀ i < n, data.testBit i = bitAt m (p + i)) ∧ (n ≠ 24 → data < 2 ^ n)

theorem holds_load {n : ℕ} : Holds (8 * n) (8 * a) m (load n m a) := by
  refine ⟨fun i hi => ?_, fun _ => ?_⟩
  · rw [load_testBit, decide_eq_true hi, Bool.true_and]
  · rw [Nat.pow_mul]
    exact load_lt

theorem holds_color : Holds 24 (8 * a) m (load 4 m a) := by
  refine ⟨fun i hi => ?_, fun h => absurd rfl h⟩
  rw [load_testBit, decide_eq_true (by omega), Bool.true_and]

/-- The upper part of a word. -/
theorem holds_upper {p n : ℕ} (hp : p + n = 32) : Holds n (8 * a + p) m (load 4 m a >>> p) := by
  refine ⟨fun i hi => ?_, fun _ => ?_⟩
  · rw [Nat.testBit_shiftRight, load_testBit, decide_eq_true (by omega), Bool.true_and, Nat.add_assoc]
  · rw [Nat.shiftRight_eq_div_pow]
    apply Nat.div_lt_of_lt_mul
    rw [← Nat.pow_add, hp]
    exact load_lt

theorem holds_nibble : Holds 4 (4 * a) m ((load 1 m (a >>> 1) >>> ((a &&& 1) <<< 2)) &&& 0x0F) := by
  rw [RoundTrip.nibble_shift, RoundTrip.and_mask (show 0x0F = 2 ^ 4 - 1 from rfl)]
  refine ⟨fun i hi => ?_, fun _ => Nat.mod_lt _ (by decide)⟩
  rw [Nat.testBit_mod_two_pow, decide_eq_true hi, Bool.true_and, Nat.testBit_shiftRight, load_testBit,
    decide_eq_true (by omega), Bool.true_and, Nat.shiftRight_eq_div_pow]
  congr 1
  omega

/-- The pixel that is copied. -/
theorem readSource_holds {r : BITBLTBUF_REG} (h : r.sourceFormat ∈ sourceFormats) (x y : ℕ) (m : Bytes) :
    ∃ data, readSource T r x y m = some data ∧
      Holds (pixelSize r.sourceFormat) (place T r.sourceFormat r.sourceBase r.sourceWidth x y) m data := by
  simp only [sourceFormats, List.mem_cons, List.not_mem_nil, or_false] at h
  unfold readSource place pixelSize
  rcases h with h | h | h | h | h | h | h | h | h | h
  · rw [h]
    exact ⟨_, rfl, holds_load (n := 4)⟩
  · rw [h]
    exact ⟨_, rfl, holds_color⟩
  · rw [h]
    exact ⟨_, rfl, holds_load (n := 2)⟩
  · rw [h]
    exact ⟨_, rfl, holds_load (n := 2)⟩
  · rw [h]
    exact ⟨_, rfl, holds_load (n := 1)⟩
  · rw [h]
    exact ⟨_, rfl, holds_nibble⟩
  · rw [h]
    exact ⟨_, rfl, holds_upper (n := 8) (p := 24) rfl⟩
  · rw [h]
    exact ⟨_, rfl, holds_upper (n := 4) (p := 28) rfl⟩
  · rw [h]
    exact ⟨_, rfl, holds_load (n := 4)⟩
  · rw [h]
    exact ⟨_, rfl, holds_color⟩

/-! ### Writing -/

/-- The span at `p` becomes the lowest `n` bits of the number. -/
def Plots (n p data : ℕ) (m m' : Bytes) : Prop := ∀ b, bitAt m' b =
  if p ≤ b ∧ b < p + n then data.testBit (b - p) else bitAt m b

theorem plots_store {n : ℕ} : Plots (8 * n) (8 * a) v m (store n m a v) := by
  intro b
  rw [bitAt_store, Nat.mul_add]

theorem testBit_FF000000 (i : ℕ) (hi : i < 32) : (0xFF000000 : ℕ).testBit i = decide (24 ≤ i) := by
  revert i
  decide

theorem plots_color : Plots 24 (8 * a) v m (writeColor a v m) := by
  intro b
  unfold writeColor
  rw [bitAt_store]
  by_cases hword : 8 * a ≤ b ∧ b < 8 * (a + 4)
  · rw [if_pos hword, Nat.testBit_or, Nat.testBit_and, RoundTrip.and_color, Nat.testBit_mod_two_pow, load_testBit,
      testBit_FF000000 _ (by omega), decide_eq_true (show b - 8 * a < 8 * 4 by omega), Bool.true_and,
      show 8 * a + (b - 8 * a) = b by omega]
    by_cases hcolor : b < 8 * a + 24
    · rw [if_pos ⟨hword.1, hcolor⟩, decide_eq_false (by omega), decide_eq_true (by omega), Bool.and_false,
        Bool.false_or, Bool.true_and]
    · rw [if_neg (fun h => hcolor h.2), decide_eq_true (by omega), decide_eq_false (by omega), Bool.and_true,
        Bool.false_and, Bool.or_false]
  · rw [if_neg hword, if_neg (by omega)]

/-- The upper part of a word, where the others of its bits are kept. -/
theorem plots_upper {n p keep : ℕ} (hp : p + n ≤ 32) (hv : v < 2 ^ n)
    (hkeep : ∀ i < 32, keep.testBit i = !(decide (p ≤ i) && decide (i < p + n))) :
    Plots n (8 * a + p) v m (store 4 m a ((v <<< p) % 2 ^ 32 ||| (load 4 m a &&& keep))) := by
  intro b
  rw [bitAt_store]
  by_cases hword : 8 * a ≤ b ∧ b < 8 * (a + 4)
  · have hi : b - 8 * a < 32 := by omega
    rw [if_pos hword, Nat.testBit_or, Nat.testBit_and, Nat.testBit_mod_two_pow, Nat.testBit_shiftLeft, load_testBit,
      hkeep _ hi, decide_eq_true hi, Bool.true_and, Bool.true_and, show 8 * a + (b - 8 * a) = b by omega]
    by_cases hlow : p ≤ b - 8 * a
    · by_cases hhigh : b - 8 * a < p + n
      · rw [if_pos (by omega), decide_eq_true hlow, decide_eq_true hhigh, show b - 8 * a - p = b - (8 * a + p) by omega]
        simp
      · have hzero : v.testBit (b - 8 * a - p) = false := by
          apply Nat.testBit_lt_two_pow
          exact Nat.lt_of_lt_of_le hv (Nat.pow_le_pow_right (by decide) (by omega))
        rw [if_neg (by omega), decide_eq_true hlow, decide_eq_false hhigh, hzero]
        simp
    · rw [if_neg (by omega), decide_eq_false hlow]
      simp
  · rw [if_neg hword, if_neg (by omega)]

theorem plots_nibble : Plots 4 (4 * a) v m (store 1 m (a >>> 1)
    ((load 1 m (a >>> 1) &&& (0xF0 >>> ((a &&& 1) <<< 2))) ||| ((v &&& 0x0F) <<< ((a &&& 1) <<< 2)))) := by
  intro b
  rw [bitAt_store, RoundTrip.nibble_shift, RoundTrip.and_mask (show 0x0F = 2 ^ 4 - 1 from rfl),
    Nat.shiftRight_eq_div_pow a]
  by_cases hbyte : 8 * (a / 2 ^ 1) ≤ b ∧ b < 8 * (a / 2 ^ 1 + 1)
  · rw [if_pos hbyte, Nat.testBit_or, Nat.testBit_and, Nat.testBit_shiftRight, Nat.testBit_shiftLeft,
      Nat.testBit_mod_two_pow, load_testBit, RoundTrip.testBit_F0,
      show 8 * (a / 2 ^ 1) + (b - 8 * (a / 2 ^ 1)) = b by omega, decide_eq_true (show b - 8 * (a / 2 ^ 1) < 8 * 1 by omega),
      Bool.true_and]
    by_cases hnibble : 4 * a ≤ b ∧ b < 4 * a + 4
    · have hmask : ¬ (4 ≤ 4 * (a % 2) + (b - 8 * (a / 2 ^ 1)) ∧ 4 * (a % 2) + (b - 8 * (a / 2 ^ 1)) - 4 < 4) := by omega
      rw [if_pos hnibble, ← Bool.decide_and, decide_eq_false hmask, decide_eq_true (by omega),
        decide_eq_true (by omega), show b - 8 * (a / 2 ^ 1) - 4 * (a % 2) = b - 4 * a by omega]
      simp
    · have hmask : 4 ≤ 4 * (a % 2) + (b - 8 * (a / 2 ^ 1)) ∧ 4 * (a % 2) + (b - 8 * (a / 2 ^ 1)) - 4 < 4 := by omega
      have hvalue : ¬ (4 * (a % 2) ≤ b - 8 * (a / 2 ^ 1) ∧ b - 8 * (a / 2 ^ 1) - 4 * (a % 2) < 4) := by omega
      rw [if_neg hnibble, ← Bool.decide_and, decide_eq_true hmask, ← Bool.and_assoc, ← Bool.decide_and,
        decide_eq_false hvalue]
      simp
  · rw [if_neg hbyte, if_neg (by omega)]

/-- The pixel becomes the number; of other than 24 bits it has no more. -/
theorem writeDest_plots {r : BITBLTBUF_REG} (h : r.destFormat ∈ destFormats) (x y data : ℕ) (m : Bytes)
    (hdata : pixelSize r.destFormat ≠ 24 → data < 2 ^ pixelSize r.destFormat) :
    ∃ m', writeDest T r x y data m = some m' ∧
      Plots (pixelSize r.destFormat) (place T r.destFormat r.destBase r.destWidth x y) data m m' := by
  simp only [destFormats, List.mem_cons, List.not_mem_nil, or_false] at h
  unfold pixelSize at hdata
  unfold writeDest place pixelSize
  rcases h with h | h | h | h | h | h | h | h | h | h | h | h
  · rw [h]
    exact ⟨_, rfl, plots_store (n := 4)⟩
  · rw [h]
    exact ⟨_, rfl, plots_color⟩
  · rw [h]
    exact ⟨_, rfl, plots_store (n := 2)⟩
  · rw [h]
    exact ⟨_, rfl, plots_store (n := 2)⟩
  · rw [h]
    exact ⟨_, rfl, plots_store (n := 1)⟩
  · rw [h]
    exact ⟨_, rfl, plots_nibble⟩
  · rw [h] at hdata ⊢
    exact ⟨_, rfl, plots_upper (n := 8) (p := 24) (by decide) (hdata (by decide)) (by decide)⟩
  · rw [h] at hdata ⊢
    exact ⟨_, rfl, plots_upper (n := 4) (p := 24) (by decide) (hdata (by decide)) (by decide)⟩
  · rw [h] at hdata ⊢
    exact ⟨_, rfl, plots_upper (n := 4) (p := 28) (by decide) (hdata (by decide)) (by decide)⟩
  · rw [h]
    exact ⟨_, rfl, plots_store (n := 4)⟩
  · rw [h]
    exact ⟨_, rfl, plots_color⟩
  · rw [h]
    exact ⟨_, rfl, plots_store (n := 2)⟩

/-! ### A turn -/

/-- Two supported formats with pixels of the same size. -/
structure Compatible (r : BITBLTBUF_REG) : Prop where
  source : r.sourceFormat ∈ sourceFormats
  dest : r.destFormat ∈ destFormats
  size : pixelSize r.sourceFormat = pixelSize r.destFormat

def sourcePlace (T : PageTables) (r : BITBLTBUF_REG) (mv : Move) : ℕ :=
  place T r.sourceFormat r.sourceBase r.sourceWidth mv.sourceX mv.sourceY

def destPlace (T : PageTables) (r : BITBLTBUF_REG) (mv : Move) : ℕ :=
  place T r.destFormat r.destBase r.destWidth mv.destX mv.destY

/-- The memory after a pixel was copied. -/
def copied (T : PageTables) (r : BITBLTBUF_REG) (m : Bytes) (mv : Move) : Bytes :=
  ((readSource T r mv.sourceX mv.sourceY m).bind fun data => writeDest T r mv.destX mv.destY data m).getD m

theorem copied_span {r : BITBLTBUF_REG} (h : Compatible r) (m : Bytes) (mv : Move) :
    CopiesSpan (pixelSize r.destFormat) (sourcePlace T r mv) (destPlace T r mv) m (copied T r m mv) ∧
      ((readSource T r mv.sourceX mv.sourceY m).bind fun data => writeDest T r mv.destX mv.destY data m) =
        some (copied T r m mv) := by
  obtain ⟨data, hread, hbits, hlt⟩ := readSource_holds (T := T) h.source mv.sourceX mv.sourceY m
  rw [h.size] at hbits hlt
  obtain ⟨m', hwrite, hplots⟩ := writeDest_plots (T := T) h.dest mv.destX mv.destY data m hlt
  have hcopied : copied T r m mv = m' := by
    unfold copied
    rw [hread, Option.bind_some, hwrite]
    rfl
  rw [hcopied]
  constructor
  · intro b
    rw [hplots b]
    unfold destPlace
    split_ifs with hb
    · exact hbits _ (by omega)
    · rfl
  · rw [hread, Option.bind_some, hwrite]

end DobieStation.Gs.LocalCopy
