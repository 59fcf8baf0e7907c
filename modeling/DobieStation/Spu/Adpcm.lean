import DobieStation.Spu.Model
import Mathlib.Algebra.Order.Ring.Abs

/-! # The decoder of the voices

The translation of `spu/spu_adpcm.cpp`. The output is clamped to 16 bits, and the two samples that are kept
for the recurrence are not. The number of the filter has four bits, where the table has five rows. What
the language leaves undefined, a read past the table or a sum that is no `int32_t`, is a stop. -/

namespace DobieStation.Spu.Adpcm

open DobieStation.Spu.Model

/-- The sixteen bytes of a block, the first one lowest. -/
abbrev Block := BitVec 128

/-- `ps_adpcm_coefs_i`. -/
def coefs : List (ℤ × ℤ) := [(0, 0), (60, 0), (115, -52), (98, -55), (122, -60)]

inductive Undefined where
  | row (index : ℕ)
  | word (value : ℤ)
  deriving DecidableEq, Repr

/-- The members of `ADPCM_Decoder` that outlive a block. -/
structure Decoder where
  hist1 : ℤ
  hist2 : ℤ
  deriving DecidableEq, Repr

def Decoder.reset : Decoder := ⟨0, 0⟩

def InWord (x : ℤ) : Prop := -2 ^ 31 ≤ x ∧ x < 2 ^ 31

instance (x : ℤ) : Decidable (InWord x) := inferInstanceAs (Decidable (_ ∧ _))

/-- A value of type `int32_t`. -/
def int32 (x : ℤ) : Except Undefined ℤ := if InWord x then .ok x else .error (.word x)

def coefRow (index : ℕ) : Except Undefined (ℤ × ℤ) :=
  match coefs[index]? with
  | some row => .ok row
  | none => .error (.row index)

/-- The four bits of a sample as the upper ones of an `int16_t`, shifted. -/
def scaled (shift : ℕ) (nibble : BitVec 4) : ℤ := nibble.toInt * 2 ^ 12 / 2 ^ shift

/-- One turn of the loop of `decode_block`. -/
def decodeSample (shift index : ℕ) (nibble : BitVec 4) (d : Decoder) :
    Except Undefined (Sample × Decoder) := do
  let row ← coefRow index
  let first ← int32 (row.1 * d.hist1)
  let second ← int32 (row.2 * d.hist2)
  let sum ← int32 (first + second)
  let sample ← int32 (scaled shift nibble + sum / 2 ^ 6)
  .ok (clamp16 sample, ⟨sample, d.hist1⟩)

def decodeSamples (shift index : ℕ) : List (BitVec 4) → Decoder →
    Except Undefined (List Sample × Decoder)
  | [], d => .ok ([], d)
  | nibble :: rest, d => do
    let (pcm, d') ← decodeSample shift index nibble d
    let (pcms, d'') ← decodeSamples shift index rest d'
    .ok (pcm :: pcms, d'')

def Block.byte (b : Block) (n : ℕ) : BitVec 8 := b.extractLsb' (8 * n) 8

def Block.shiftFactor (b : Block) : ℕ := (b.byte 0).toNat % 16

def Block.coefIndex (b : Block) : ℕ := (b.byte 0).toNat / 16

/-- The bits of a sample: the low half of a byte comes first. -/
def Block.nibble (b : Block) (i : ℕ) : BitVec 4 :=
  if i % 2 = 0 then (b.byte (2 + i / 2)).extractLsb' 0 4 else (b.byte (2 + i / 2)).extractLsb' 4 4

def Block.nibbles (b : Block) : List (BitVec 4) := (List.range 28).map b.nibble

def decodeBlock (b : Block) : Decoder → Except Undefined (List Sample × Decoder) :=
  decodeSamples b.shiftFactor b.coefIndex b.nibbles

/-- The blocks of a voice, one after the other. -/
def decodeBlocks : List Block → Decoder → Except Undefined (List (List Sample) × Decoder)
  | [], d => .ok ([], d)
  | b :: rest, d => do
    let (pcm, d') ← decodeBlock b d
    let (pcms, d'') ← decodeBlocks rest d'
    .ok (pcm :: pcms, d'')

/-! ### The recurrence -/

/-- The two samples before one, the last one first. -/
structure Last where
  s1 : Sample
  s2 : Sample
  deriving DecidableEq, Repr

def Last.zero : Last := ⟨0, 0⟩

/-- The sample of the recurrence with the coefficients `f`. -/
def sampleOf (shift : ℕ) (f : ℤ × ℤ) (nibble : BitVec 4) (l : Last) : Sample :=
  clamp16 (scaled shift nibble + (f.1 * l.s1.toInt + f.2 * l.s2.toInt) / 64)

def samplesOf (shift : ℕ) (f : ℤ × ℤ) : List (BitVec 4) → Last → List Sample × Last
  | [], l => ([], l)
  | nibble :: rest, l =>
    let pcm := sampleOf shift f nibble l
    let r := samplesOf shift f rest ⟨pcm, l.s1⟩
    (pcm :: r.1, r.2)

/-- The samples of the blocks, where every filter has a row. -/
def blocksOf : List Block → Last → Option (List (List Sample))
  | [], _ => some []
  | b :: rest, l =>
    coefs[b.coefIndex]?.bind fun f =>
      let r := samplesOf b.shiftFactor f b.nibbles l
      (blocksOf rest r.2).map (r.1 :: ·)

/-- The blocks are decoded as the recurrence has it: nothing is undefined, and every sample is the one of
the recurrence. -/
def Decodes (bs : List Block) : Prop :=
  ∃ pcms d, decodeBlocks bs .reset = .ok (pcms, d) ∧ blocksOf bs .zero = some pcms

/-! ### One sample -/

/-- A value of type `int16_t`. -/
def InShort (x : ℤ) : Prop := -2 ^ 15 ≤ x ∧ x < 2 ^ 15

instance (x : ℤ) : Decidable (InShort x) := inferInstanceAs (Decidable (_ ∧ _))

/-- What is kept for the recurrence has 16 bits where the coefficients `f` need it. -/
def Short (f : ℤ × ℤ) (d : Decoder) : Prop :=
  (f.1 ≠ 0 → InShort d.hist1) ∧ (f.2 ≠ 0 → InShort d.hist2)

instance (f : ℤ × ℤ) (d : Decoder) : Decidable (Short f d) := inferInstanceAs (Decidable (_ ∧ _))

/-- The kept values against the last samples. -/
structure Linked (d : Decoder) (l : Last) : Prop where
  first : l.s1 = clamp16 d.hist1
  second : l.s2 = clamp16 d.hist2

theorem toInt_clamp16 {x : ℤ} (h : InShort x) : (clamp16 x).toInt = x := by
  obtain ⟨hlow, hhigh⟩ := h
  have hmax : max (min x 32767) (-32768) = x := by omega
  rw [clamp16, hmax, BitVec.toInt_ofInt_eq_self (by decide)]
  · exact hlow
  · exact hhigh

theorem mul_toInt_clamp16 {f x : ℤ} (h : f ≠ 0 → InShort x) : f * (clamp16 x).toInt = f * x := by
  by_cases hf : f = 0
  · rw [hf, Int.zero_mul, Int.zero_mul]
  · rw [toInt_clamp16 (h hf)]

theorem coefs_bound {index : ℕ} {f : ℤ × ℤ} (h : coefs[index]? = some f) :
    0 ≤ f.1 ∧ f.1 ≤ 122 ∧ -60 ≤ f.2 ∧ f.2 ≤ 0 := by
  have hall : ∀ g ∈ coefs, 0 ≤ g.1 ∧ g.1 ≤ 122 ∧ -60 ≤ g.2 ∧ g.2 ≤ 0 := by decide
  exact hall f (List.mem_of_getElem? h)

theorem scaled_bound (shift : ℕ) (nibble : BitVec 4) :
    -2 ^ 15 ≤ scaled shift nibble ∧ scaled shift nibble < 2 ^ 15 := by
  have hlow := nibble.le_toInt
  have hhigh := nibble.toInt_lt
  have hpos : (0 : ℤ) < 2 ^ shift := Int.pow_pos (by decide)
  rw [scaled]
  constructor
  · rw [Int.le_ediv_iff_mul_le hpos]
    have hone : (1 : ℤ) ≤ 2 ^ shift := hpos
    have hscaled : -2 ^ 15 * (2 : ℤ) ^ shift ≤ -2 ^ 15 * 1 :=
      Int.mul_le_mul_of_nonpos_left (by decide) hone
    omega
  · rw [Int.ediv_lt_iff_lt_mul hpos]
    have hone : (1 : ℤ) ≤ 2 ^ shift := hpos
    have hscaled : 2 ^ 15 * (1 : ℤ) ≤ 2 ^ 15 * 2 ^ shift := Int.mul_le_mul_of_nonneg_left hone (by decide)
    omega

/-- The product of a coefficient and a value that has 16 bits where the coefficient is not zero. -/
theorem mul_bound {f x : ℤ} (hlow : -122 ≤ f) (hhigh : f ≤ 122) (h : f ≠ 0 → InShort x) :
    -2 ^ 22 ≤ f * x ∧ f * x ≤ 2 ^ 22 := by
  by_cases hf : f = 0
  · rw [hf, Int.zero_mul]
    decide
  · obtain ⟨hx1, hx2⟩ := h hf
    have habs : |f * x| ≤ 122 * 2 ^ 15 := by
      rw [abs_mul]
      have hf' : |f| ≤ 122 := abs_le.mpr ⟨hlow, hhigh⟩
      have hx : |x| ≤ 2 ^ 15 := abs_le.mpr ⟨hx1, by omega⟩
      exact mul_le_mul hf' hx (abs_nonneg x) (by decide)
    have hle := abs_le.mp habs
    omega

theorem int32_eq {x : ℤ} (h : InWord x) : int32 x = .ok x := if_pos h

theorem coefRow_eq {index : ℕ} {f : ℤ × ℤ} (h : coefs[index]? = some f) : coefRow index = .ok f := by
  rw [coefRow, h]

/-- One sample, where the kept values have the 16 bits the filter needs. -/
theorem decodeSample_eq {shift index : ℕ} (nibble : BitVec 4) {d : Decoder} {l : Last} {f : ℤ × ℤ}
    (hf : coefs[index]? = some f) (hs : Short f d) (hl : Linked d l) :
    ∃ d', decodeSample shift index nibble d = .ok (sampleOf shift f nibble l, d') ∧
      Linked d' ⟨sampleOf shift f nibble l, l.s1⟩ := by
  obtain ⟨h1, h2, h3, h4⟩ := coefs_bound hf
  obtain ⟨hfirst1, hfirst2⟩ := mul_bound (by omega) h2 hs.1
  obtain ⟨hsecond1, hsecond2⟩ := mul_bound (by omega) (by omega) hs.2
  obtain ⟨hscaled1, hscaled2⟩ := scaled_bound shift nibble
  have hfirst : InWord (f.1 * d.hist1) := ⟨by omega, by omega⟩
  have hsecond : InWord (f.2 * d.hist2) := ⟨by omega, by omega⟩
  have hsum : InWord (f.1 * d.hist1 + f.2 * d.hist2) := ⟨by omega, by omega⟩
  have hsample : InWord (scaled shift nibble + (f.1 * d.hist1 + f.2 * d.hist2) / 2 ^ 6) :=
    ⟨by omega, by omega⟩
  have heq : sampleOf shift f nibble l =
      clamp16 (scaled shift nibble + (f.1 * d.hist1 + f.2 * d.hist2) / 2 ^ 6) := by
    rw [sampleOf, hl.first, hl.second, mul_toInt_clamp16 hs.1, mul_toInt_clamp16 hs.2]
    rfl
  refine ⟨⟨scaled shift nibble + (f.1 * d.hist1 + f.2 * d.hist2) / 2 ^ 6, d.hist1⟩, ?_, heq, hl.first⟩
  rw [decodeSample, coefRow_eq hf, heq]
  simp only [bind, Except.bind, int32_eq hfirst, int32_eq hsecond, int32_eq hsum, int32_eq hsample]

/-! ### A run -/

/-- Before every sample the kept values have the 16 bits the filter needs. -/
def ShortSamples (shift index : ℕ) (f : ℤ × ℤ) : List (BitVec 4) → Decoder → Prop
  | [], _ => True
  | nibble :: rest, d =>
    Short f d ∧ ∀ r ∈ (decodeSample shift index nibble d).toOption, ShortSamples shift index f rest r.2

/-- Every filter has a row, and before every sample the kept values have the 16 bits it needs. -/
def ShortBlocks : List Block → Decoder → Prop
  | [], _ => True
  | b :: rest, d =>
    ∃ f ∈ coefs[b.coefIndex]?, ShortSamples b.shiftFactor b.coefIndex f b.nibbles d ∧
      ∀ r ∈ (decodeBlock b d).toOption, ShortBlocks rest r.2

instance ShortSamples.decidable (shift index : ℕ) (f : ℤ × ℤ) :
    ∀ nibbles d, Decidable (ShortSamples shift index f nibbles d)
  | [], _ => isTrue trivial
  | _ :: rest, _ =>
    have := ShortSamples.decidable shift index f rest
    inferInstanceAs (Decidable (_ ∧ ∀ r ∈ (_ : Option (Sample × Decoder)),
      ShortSamples shift index f rest r.2))

instance ShortBlocks.decidable : ∀ bs d, Decidable (ShortBlocks bs d)
  | [], _ => isTrue trivial
  | b :: rest, d =>
    have := ShortBlocks.decidable rest
    inferInstanceAs (Decidable (∃ f ∈ coefs[b.coefIndex]?,
      ShortSamples b.shiftFactor b.coefIndex f b.nibbles d ∧
        ∀ r ∈ (_ : Option (List Sample × Decoder)), ShortBlocks rest r.2))

theorem mem_toOption {ε α : Type} {x : Except ε α} {r : α} (h : x = .ok r) : r ∈ x.toOption := by
  rw [h]
  rfl

theorem decodeSamples_eq {shift index : ℕ} {f : ℤ × ℤ} (hf : coefs[index]? = some f) :
    ∀ (nibbles : List (BitVec 4)) {d : Decoder} {l : Last}, ShortSamples shift index f nibbles d →
      Linked d l → ∃ d', decodeSamples shift index nibbles d = .ok ((samplesOf shift f nibbles l).1, d') ∧
        Linked d' (samplesOf shift f nibbles l).2 := by
  intro nibbles
  induction nibbles with
  | nil =>
    intro d l _ hl
    exact ⟨d, rfl, hl⟩
  | cons nibble rest ih =>
    rintro d l ⟨hs, hrest⟩ hl
    obtain ⟨d', hstep, hl'⟩ := decodeSample_eq nibble hf hs hl
    obtain ⟨d'', hrun, hl''⟩ := ih (hrest _ (mem_toOption hstep)) hl'
    refine ⟨d'', ?_, hl''⟩
    rw [decodeSamples, hstep]
    simp only [bind, Except.bind, hrun]
    rfl

theorem decodeBlocks_eq : ∀ (bs : List Block) {d : Decoder} {l : Last}, ShortBlocks bs d → Linked d l →
    ∃ pcms d', decodeBlocks bs d = .ok (pcms, d') ∧ blocksOf bs l = some pcms := by
  intro bs
  induction bs with
  | nil =>
    intro d l _ _
    exact ⟨[], d, rfl, rfl⟩
  | cons b rest ih =>
    rintro d l ⟨f, hf, hs, hrest⟩ hl
    obtain ⟨d', hblock, hl'⟩ := decodeSamples_eq hf b.nibbles hs hl
    obtain ⟨pcms, d'', hrun, href⟩ := ih (hrest _ (mem_toOption hblock)) hl'
    refine ⟨(samplesOf b.shiftFactor f b.nibbles l).1 :: pcms, d'', ?_, ?_⟩
    · rw [decodeBlocks, decodeBlock, hblock]
      simp only [bind, Except.bind, hrun]
    · rw [blocksOf, hf, Option.bind_some]
      simp only [href, Option.map_some]

theorem linked_reset : Linked .reset .zero := ⟨by decide, by decide⟩

/-- From a reset decoder, as long as every filter has a row and the kept values have 16 bits where its
coefficients are not zero, every sample is the one of the recurrence over the clamped samples, no sum
leaves its 32 bits, and only the five rows of the table are read. -/
theorem decodes_recurrence {bs : List Block} (h : ShortBlocks bs .reset) : Decodes bs :=
  decodeBlocks_eq bs h linked_reset

/-- Two blocks of the filters 4 and 1 whose samples stay within 16 bits. -/
def quiet : List Block := [0x0123456789ABCDEF0123456789ABCD#112 ++ 0x0045#16, 0x10#128]

theorem decodes_quiet : Decodes quiet :=
  have h : ShortBlocks quiet .reset := by decide
  decodes_recurrence h

theorem Decodes.eq {bs : List Block} (h : Decodes bs) :
    (decodeBlocks bs .reset).toOption.map Prod.fst = blocksOf bs .zero := by
  obtain ⟨pcms, d, hrun, href⟩ := h
  rw [hrun, href]
  rfl

/-- The filter 2 after two samples of `0x7000`: the second one is above the 16 bits. -/
def loud : Block := 0x08770020#128

/-- A block whose filter is none of the five. -/
def noFilter : Block := 0x50#128

/-- The third sample of a block that leaves the 16 bits is 32767 in place of 2814, and the row 5 of the
table is read for a block that names it. -/
theorem not_decodes_recurrence : ¬ (∀ bs, Decodes bs) ∧ ¬ Decodes [loud] ∧ ¬ Decodes [noFilter] ∧
    decodeBlock noFilter .reset = .error (.row 5) := by
  have hloud : ¬ Decodes [loud] := fun h => absurd h.eq (by decide)
  have hfilter : ¬ Decodes [noFilter] := by
    rintro ⟨pcms, d, -, href⟩
    have hnone : blocksOf [noFilter] .zero = none := by decide
    rw [hnone] at href
    cases href
  exact ⟨fun h => hloud (h _), hloud, hfilter, by decide⟩

end DobieStation.Spu.Adpcm
