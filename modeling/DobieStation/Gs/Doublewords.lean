import DobieStation.Gs.Model
import DobieStation.Lib.Fields
import Mathlib.Data.List.Range

/-! # The pixels of a doubleword

The doublewords sent to HWREG are one long number, of which each pixel is a slice. One doubleword writes the pixels
that end in it (`doubleword_whole`, `doubleword_color`): each at its place, but for the rows that are skipped
in a transfer of 24 bits (`skipped`), and of PSMCT4 the nibble that the column chooses (`source`). -/

namespace DobieStation.Gs.Doublewords

open DobieStation.Gs.Model DobieStation.Lib.Memory DobieStation.Lib.Fields

variable {T : Tables} {s s₀ : GS}

/-! ### The formats -/

/-- The bits of a pixel. -/
def pixelBits : ℕ → ℕ
  | 0x00 => 32
  | 0x01 => 24
  | 0x02 => 16
  | 0x0A => 16
  | 0x13 => 8
  | 0x14 => 4
  | 0x1B => 8
  | 0x24 => 4
  | 0x2C => 4
  | 0x31 => 24
  | _ => 0

/-- Where the bits of a pixel are in its word. -/
def pixelPlace : ℕ → ℕ
  | 0x1B => 24
  | 0x24 => 24
  | 0x2C => 28
  | _ => 0

/-- A pixel is written to the memory `m`. -/
def plot (T : Tables) (r : BITBLTBUF_REG) (m : Bytes) (p : Pixel) : Bytes :=
  let keeping (keep : ℕ) := writePSMCT32Block T r.destBase r.destWidth p.x p.y
    (p.value ||| (readPSMCT32Block T r.destBase r.destWidth p.x p.y m &&& keep)) m
  match r.destFormat with
  | 0x00 => writePSMCT32Block T r.destBase r.destWidth p.x p.y p.value m
  | 0x01 => writePSMCT24Block T r.destBase r.destWidth p.x p.y p.value m
  | 0x02 => writePSMCT16Block T r.destBase r.destWidth p.x p.y p.value m
  | 0x0A => writePSMCT16SBlock T r.destBase r.destWidth p.x p.y p.value m
  | 0x13 => writePSMCT8Block T r.destBase r.destWidth p.x p.y p.value m
  | 0x14 => writePSMCT4Block T r.destBase r.destWidth p.x p.y p.value m
  | 0x1B => keeping 0x00FFFFFF
  | 0x24 => keeping 0xF0FFFFFF
  | 0x2C => keeping 0x0FFFFFFF
  | 0x31 => writePSMCT24ZBlock T r.destBase r.destWidth p.x p.y p.value m
  | _ => m

/-- A pixel of the value `v` is written where the transfer stands. -/
def putPixel (T : Tables) (v : ℕ) (s : GS) : GS :=
  s.put v (plot T s.BITBLTBUF s.localMem ⟨s.TRXPOS.intDestX, s.TRXPOS.intDestY, v⟩)

/-- Where a pixel is in the memory, and how many bytes it shares in. -/
def pixelBytes (T : Tables) (r : BITBLTBUF_REG) (p : Pixel) : ℕ × ℕ :=
  let block := r.destBase / 256
  let width := r.destWidth / 64
  match r.destFormat with
  | 0x02 => (addrPSMCT16 T block width p.x p.y, 2)
  | 0x0A => (addrPSMCT16S T block width p.x p.y, 2)
  | 0x13 => (addrPSMCT8 T block width p.x p.y, 1)
  | 0x14 => (addrPSMCT4 T block width p.x p.y >>> 1, 1)
  | 0x31 => (addrPSMCT32Z T block width p.x p.y, 4)
  | _ => (addrPSMCT32 T block width p.x p.y, 4)

/-- No byte is changed but those of the pixel. -/
theorem plot_apart {r : BITBLTBUF_REG} {m : Bytes} {p : Pixel} {q : ℕ}
    (h : q < (pixelBytes T r p).1 ∨ (pixelBytes T r p).1 + (pixelBytes T r p).2 ≤ q) :
    plot T r m p q = m q := by
  unfold pixelBytes at h
  generalize hplot : plot T r m p = m'
  unfold plot at hplot
  split at hplot
  case h_11 => rw [← hplot]
  all_goals
    rename_i hf
    rw [hf] at h
    rw [← hplot]
    exact store_apply h

/-! ### The place of a pixel -/

def columns (s₀ : GS) : ℕ := s₀.TRXREG.width

def total (s₀ : GS) : ℕ := s₀.TRXREG.width * s₀.TRXREG.height

/-- The pixel `k`, if `e` rows were skipped. -/
def placed (s₀ : GS) (e k v : ℕ) : Pixel where
  x := (s₀.TRXPOS.destX + k % columns s₀) % 2048
  y := (s₀.TRXPOS.destY + k / columns s₀ + e) % 2048
  value := v

/-- The transfer stands at the pixel `c` after the pixels `ps`, with `e` rows skipped. -/
structure At (T : Tables) (s₀ : GS) (c e : ℕ) (ps : List Pixel) (s : GS) : Prop where
  bitblt : s.BITBLTBUF = s₀.BITBLTBUF
  size : s.TRXREG = s₀.TRXREG
  destX : s.TRXPOS.destX = s₀.TRXPOS.destX
  direction : s.TRXDIR = 0
  transferred : s.pixelsTransferred = c
  x : s.TRXPOS.intDestX = (s₀.TRXPOS.destX + c % columns s₀) % 2048
  y : s.TRXPOS.intDestY = (s₀.TRXPOS.destY + c / columns s₀ + e) % 2048
  pixels : s.pixels = s₀.pixels ++ ps
  memory : s.localMem = ps.foldl (plot T s₀.BITBLTBUF) s₀.localMem

/-- The column and the row after the next pixel. -/
theorem column_row_succ {w : ℕ} (hw : 0 < w) (c : ℕ) :
    ((c + 1) % w = 0 ∧ (c + 1) / w = c / w + 1) ∨
      ((c + 1) % w ≠ 0 ∧ (c + 1) % w = c % w + 1 ∧ (c + 1) / w = c / w) := by
  have hc := Nat.div_add_mod c w
  have hlt := Nat.mod_lt c hw
  by_cases hr : c % w + 1 = w
  · have hsucc : c + 1 = w * (c / w + 1) := by
      rw [Nat.mul_succ]
      omega
    refine Or.inl ⟨?_, ?_⟩
    · rw [hsucc, Nat.mul_mod_right]
    · rw [hsucc, Nat.mul_div_cancel_left _ hw]
  · have hin : c % w + 1 < w := by omega
    have hsucc : c + 1 = w * (c / w) + (c % w + 1) := by omega
    have hmod : (c + 1) % w = c % w + 1 := by
      rw [hsucc, Nat.mul_add_mod, Nat.mod_eq_of_lt hin]
    refine Or.inr ⟨by omega, hmod, ?_⟩
    rw [hsucc, Nat.mul_add_div hw, Nat.div_eq_of_lt hin, Nat.add_zero]

/-- A row that ends is followed by the next one. -/
theorem At.next {c e v : ℕ} {ps : List Pixel} (hw : 0 < columns s₀) (h : At T s₀ c e ps s) :
    At T s₀ (c + 1) e (ps ++ [placed s₀ e c v]) (putPixel T v s).nextRow := by
  have hp : (⟨s.TRXPOS.intDestX, s.TRXPOS.intDestY, v⟩ : Pixel) = placed s₀ e c v := by
    rw [h.x, h.y]
    rfl
  have hmem : (putPixel T v s).localMem = plot T s₀.BITBLTBUF s.localMem (placed s₀ e c v) := by
    show plot T s.BITBLTBUF s.localMem _ = _
    rw [hp, h.bitblt]
  have hended : ((putPixel T v s).pixelsTransferred % (putPixel T v s).TRXREG.width = 0) =
      ((c + 1) % columns s₀ = 0) := by
    show ((s.pixelsTransferred + 1) % s.TRXREG.width = 0) = _
    rw [h.transferred, h.size]
    rfl
  refine ⟨h.bitblt, h.size, h.destX, h.direction, congrArg (· + 1) h.transferred, ?_, ?_, ?_, ?_⟩
  · show (if (putPixel T v s).pixelsTransferred % (putPixel T v s).TRXREG.width = 0 then
      s.TRXPOS.destX else s.TRXPOS.intDestX + 1) % 2048 = _
    simp only [hended]
    rw [h.destX, h.x]
    rcases column_row_succ hw c with ⟨hz, -⟩ | ⟨hz, hmod, -⟩
    · rw [if_pos hz, hz, Nat.add_zero]
    · rw [if_neg hz, hmod, Nat.mod_add_mod, Nat.add_assoc]
  · show (if (putPixel T v s).pixelsTransferred % (putPixel T v s).TRXREG.width = 0 then
      s.TRXPOS.intDestY + 1 else s.TRXPOS.intDestY) % 2048 = _
    simp only [hended]
    rw [h.y]
    rcases column_row_succ hw c with ⟨hz, hdiv⟩ | ⟨hz, -, hdiv⟩
    · rw [if_pos hz, hdiv, Nat.mod_add_mod]
      congr 1
      omega
    · rw [if_neg hz, hdiv, Nat.mod_mod]
  · show s.pixels ++ _ = _
    rw [h.pixels, hp, List.append_assoc]
  · show (putPixel T v s).localMem = _
    rw [hmem, h.memory, List.foldl_append]
    rfl

/-- The end of a row is found a second time where no pixel was written. -/
theorem At.again {c e : ℕ} {ps : List Pixel} (h : At T s₀ c e ps s) :
    At T s₀ c (if c % columns s₀ = 0 then e + 1 else e) ps s.nextRow := by
  have hended : (s.pixelsTransferred % s.TRXREG.width = 0) = (c % columns s₀ = 0) := by
    rw [h.transferred, h.size]
    rfl
  refine ⟨h.bitblt, h.size, h.destX, h.direction, h.transferred, ?_, ?_, h.pixels, h.memory⟩
  · show (if s.pixelsTransferred % s.TRXREG.width = 0 then s.TRXPOS.destX
      else s.TRXPOS.intDestX) % 2048 = _
    simp only [hended]
    rw [h.destX, h.x]
    split
    next hz => rw [hz, Nat.add_zero]
    next hz => rw [Nat.mod_mod]
  · show (if s.pixelsTransferred % s.TRXREG.width = 0 then s.TRXPOS.intDestY + 1
      else s.TRXPOS.intDestY) % 2048 = _
    simp only [hended]
    rw [h.y]
    split
    next hz => rw [Nat.mod_add_mod, Nat.add_assoc]
    next hz => rw [Nat.mod_mod]

/-! ### The pixels of a stream -/

/-- The doublewords as one number. -/
def stream (ds : List DoubleWord) : ℕ := packed 64 (ds.map BitVec.toNat)

/-- The slice that the pixel `k` is taken from. In PSMCT4 the nibble is chosen by the column. -/
def source (s₀ : GS) (k : ℕ) : ℕ :=
  if s₀.BITBLTBUF.destFormat = 0x14 then
    2 * (k / 2) + (s₀.TRXPOS.destX + k % columns s₀) % 2048 % 2
  else k

/-- The pixel `k` of the stream `X`, at its place in the word. -/
def pixelValue (s₀ : GS) (X k : ℕ) : ℕ :=
  slice (pixelBits s₀.BITBLTBUF.destFormat * k) (pixelBits s₀.BITBLTBUF.destFormat) X <<<
    pixelPlace s₀.BITBLTBUF.destFormat

/-- The formats of 24 bits. -/
def isColor (s₀ : GS) : Prop := pixelBits s₀.BITBLTBUF.destFormat = 24

instance : Decidable (isColor s₀) := inferInstanceAs (Decidable (_ = _))

/-- The rows that were skipped before the pixel `k`. -/
def skipped (s₀ : GS) : ℕ → ℕ
  | 0 => 0
  | k + 1 => skipped s₀ k +
    if isColor s₀ ∧ (k + 1) % 8 = 2 ∧ (k + 1) % columns s₀ = 0 then 1 else 0

/-- The pixel `k` as it is written. -/
def drawn (s₀ : GS) (X k : ℕ) : Pixel :=
  placed s₀ (skipped s₀ k) k (pixelValue s₀ X (source s₀ k))

/-- The pixel `k` as it was sent. -/
def sent (s₀ : GS) (X k : ℕ) : Pixel := placed s₀ 0 k (pixelValue s₀ X k)

/-- The pixels that `n` doublewords hold. -/
def held (s₀ : GS) (n : ℕ) : ℕ := 64 * n / pixelBits s₀.BITBLTBUF.destFormat

/-! ### A pixel that lies within a doubleword -/

/-- The bits of the pixel `i` of a doubleword, as `write_HWREG` takes them, where it stands in the column
`x`. -/
def rawValue (format data i x : ℕ) : ℕ :=
  match format with
  | 0x00 => (data >>> (i * 32)) &&& 0xFFFFFFFF
  | 0x02 => (data >>> (i * 16)) &&& 0xFFFF
  | 0x0A => (data >>> (i * 16)) &&& 0xFFFF
  | 0x13 => (data >>> (i * 8)) &&& 0xFF
  | 0x14 =>
    let byte := (data >>> ((i >>> 1) <<< 3)) % 2 ^ 8
    if x &&& 0x1 ≠ 0 then byte >>> 4 else byte &&& 0xF
  | 0x1B => ((data >>> (i <<< 3)) &&& 0xFF) <<< 24
  | 0x24 =>
    if i &&& 0x1 ≠ 0 then ((data >>> ((i >>> 1) <<< 3)) &&& 0xF0) <<< 20
    else ((data >>> ((i >>> 1) <<< 3)) &&& 0xF) <<< 24
  | 0x2C =>
    if i &&& 0x1 ≠ 0 then ((data >>> ((i >>> 1) <<< 3)) &&& 0xF0) <<< 24
    else ((data >>> ((i >>> 1) <<< 3)) &&& 0xF) <<< 28
  | _ => 0

/-- The formats that are supported, with their pixels per doubleword. -/
theorem ppd_cases {format n : ℕ} (h : ppd format = some n) :
    (pixelBits format = 24 ∧ n = 3 ∧ (format = 0x01 ∨ format = 0x31)) ∨
      (pixelBits format * n = 64 ∧ format ∈ [0x00, 0x02, 0x0A, 0x13, 0x14, 0x1B, 0x24, 0x2C]) := by
  unfold ppd at h
  split at h
  case h_2 | h_10 =>
    cases h
    simp [pixelBits]
  case h_11 => cases h
  all_goals
    cases h
    simp [pixelBits]

theorem writePixel_eq {data i format : ℕ} (hf : s.BITBLTBUF.destFormat = format)
    (hin : format ∈ [0x00, 0x02, 0x0A, 0x13, 0x14, 0x1B, 0x24, 0x2C]) :
    s.writePixel T data i = putPixel T (rawValue format data i s.TRXPOS.intDestX) s := by
  unfold GS.writePixel putPixel plot
  rw [hf]
  simp only [List.mem_cons, List.not_mem_nil, or_false] at hin
  rcases hin with rfl | rfl | rfl | rfl | rfl | rfl | rfl | rfl <;> rfl

theorem and_one_ne_zero {n : ℕ} : n &&& 0x1 ≠ 0 ↔ n % 2 = 1 := by
  rw [show n &&& 0x1 = n % 2 from Nat.and_two_pow_sub_one_eq_mod n 1]
  omega

/-- The byte of a pair of nibbles. -/
theorem byteOf_eq {i : ℕ} : (i >>> 1) <<< 3 = 8 * (i / 2) := by
  rw [Nat.shiftRight_eq_div_pow, Nat.shiftLeft_eq]
  omega

theorem mask_bits {x p q n : ℕ} :
    (x >>> p) &&& ((2 ^ q - 1) <<< n) = slice (p + n) q x <<< n := by
  rw [← shiftRight_mask]
  refine Nat.eq_of_testBit_eq fun j => ?_
  simp only [Nat.testBit_and, Nat.testBit_shiftLeft, Nat.testBit_shiftRight]
  by_cases hj : n ≤ j
  · rw [show p + n + (j - n) = p + j by omega]
    simp [hj]
  · simp [hj]

/-- The upper nibble of a byte, moved up. -/
theorem upper_nibble {x p n : ℕ} : ((x >>> p) &&& 0xF0) <<< n = slice (p + 4) 4 x <<< (4 + n) := by
  rw [show (0xF0 : ℕ) = (2 ^ 4 - 1) <<< 4 from rfl, mask_bits, ← Nat.shiftLeft_add]

/-- A mask of `q` bits. -/
theorem masked {x p q n : ℕ} (h : n = 2 ^ q - 1) : (x >>> p) &&& n = slice p q x := by
  rw [h, shiftRight_mask]

/-- A nibble of a byte. -/
theorem slice_of_byte {x p q r : ℕ} (h : q + r ≤ 8) : slice q r ((x >>> p) % 2 ^ 8) = slice (p + q) r x := by
  rw [slice_mod h, Nat.shiftRight_eq_div_pow]
  unfold slice
  rw [Nat.div_div_eq_div_mul, ← Nat.pow_add]

theorem upper_of_byte {x p : ℕ} : ((x >>> p) % 2 ^ 8) >>> 4 = slice (p + 4) 4 x := by
  have hlt : (x >>> p) % 2 ^ 8 / 2 ^ 4 < 2 ^ 4 := by
    have hbyte := Nat.mod_lt (x >>> p) (Nat.two_pow_pos 8)
    omega
  rw [← slice_of_byte (q := 4) (by decide), Nat.shiftRight_eq_div_pow]
  exact (Nat.mod_eq_of_lt hlt).symm

theorem lower_of_byte {x p : ℕ} : (x >>> p) % 2 ^ 8 &&& 0xF = slice p 4 x := by
  rw [show (0xF : ℕ) = 2 ^ 4 - 1 from rfl, Nat.and_two_pow_sub_one_eq_mod,
    Nat.mod_mod_of_dvd _ (Nat.pow_dvd_pow 2 (by decide)), Nat.shiftRight_eq_div_pow]
  rfl

/-- A nibble of a doubleword, by the parity that chooses it. -/
theorem nibble_at {i b : ℕ} : 4 * (2 * (i / 2) + b % 2) = 8 * (i / 2) + 4 * (b % 2) := by omega

/-- The pixels of a doubleword, by their number. -/
def chosen (format i x : ℕ) : ℕ := if format = 0x14 then 2 * (i / 2) + x % 2 else i

theorem rawValue_nibbles {data i x : ℕ} :
    rawValue 0x14 data i x = slice (4 * (2 * (i / 2) + x % 2)) 4 data := by
  show (if x &&& 0x1 ≠ 0 then ((data >>> ((i >>> 1) <<< 3)) % 2 ^ 8) >>> 4
    else (data >>> ((i >>> 1) <<< 3)) % 2 ^ 8 &&& 0xF) = _
  rw [byteOf_eq, nibble_at]
  split
  next hx => rw [upper_of_byte, and_one_ne_zero.1 hx]
  next hx =>
    have h0 : x % 2 = 0 := by
      have := and_one_ne_zero.not.mp hx
      omega
    rw [lower_of_byte, h0, Nat.mul_zero, Nat.add_zero]

/-- A nibble of a doubleword that goes to the bits from `n` on. -/
theorem nibble_place {data i n : ℕ} :
    (if i &&& 0x1 ≠ 0 then ((data >>> ((i >>> 1) <<< 3)) &&& 0xF0) <<< n
      else ((data >>> ((i >>> 1) <<< 3)) &&& 0xF) <<< (4 + n)) = slice (4 * i) 4 data <<< (4 + n) := by
  have hhalf : 4 * i = 8 * (i / 2) + 4 * (i % 2) := by omega
  rw [byteOf_eq, hhalf]
  split
  next hi => rw [upper_nibble, and_one_ne_zero.1 hi]
  next hi =>
    have h0 : i % 2 = 0 := by
      have := and_one_ne_zero.not.mp hi
      omega
    rw [masked (show 0xF = 2 ^ 4 - 1 from rfl), h0, Nat.mul_zero, Nat.add_zero]

/-- What is taken from a doubleword. -/
theorem rawValue_eq {format data i x : ℕ}
    (hin : format ∈ [0x00, 0x02, 0x0A, 0x13, 0x14, 0x1B, 0x24, 0x2C]) :
    rawValue format data i x =
      slice (pixelBits format * chosen format i x) (pixelBits format) data <<< pixelPlace format := by
  simp only [List.mem_cons, List.not_mem_nil, or_false] at hin
  rcases hin with rfl | rfl | rfl | rfl | rfl | rfl | rfl | rfl
  · exact (masked (q := 32) rfl).trans (by rw [Nat.mul_comm]; rfl)
  · exact (masked (q := 16) rfl).trans (by rw [Nat.mul_comm]; rfl)
  · exact (masked (q := 16) rfl).trans (by rw [Nat.mul_comm]; rfl)
  · exact (masked (q := 8) rfl).trans (by rw [Nat.mul_comm]; rfl)
  · exact rawValue_nibbles
  · exact congrArg (· <<< 24) ((masked (q := 8) rfl).trans (by rw [Nat.shiftLeft_eq, Nat.mul_comm]; rfl))
  · exact nibble_place (n := 20)
  · exact nibble_place (n := 24)

/-! ### A doubleword -/

/-- The numbers that `n` doublewords before `data` make of a stream. -/
def Follows (X data n : ℕ) : Prop := ∀ p q, slice (64 * n + p) q X = slice p q data

theorem follows_stream {l : List DoubleWord} {d : DoubleWord} :
    Follows (stream (l ++ [d])) d.toNat l.length := by
  intro p q
  have hlt : ∀ x ∈ l.map BitVec.toNat, x < 2 ^ 64 := by
    rintro x hx
    obtain ⟨e, -, rfl⟩ := List.mem_map.mp hx
    exact e.isLt
  have hlast := slice_packed_last (p := p) (q := q) (d := d.toNat) hlt
  rw [List.length_map] at hlast
  rw [stream, List.map_append]
  exact hlast

/-- A slice of a stream that lies within its first doublewords. -/
theorem slice_stream_left {ds es : List DoubleWord} {p q : ℕ} (h : p + q ≤ 64 * ds.length) :
    slice p q (stream (ds ++ es)) = slice p q (stream ds) := by
  rw [stream, List.map_append]
  exact slice_packed_left (by rwa [List.length_map])

theorem source_eq {k n i : ℕ} (hk : k = 16 * n + i) (x : ℕ)
    (hx : x = (s₀.TRXPOS.destX + k % columns s₀) % 2048)
    (hf : s₀.BITBLTBUF.destFormat = 0x14) : source s₀ k = 16 * n + chosen 0x14 i x := by
  unfold source chosen
  rw [if_pos hf, if_pos rfl, ← hx]
  omega

/-- The pixel `i` of the doubleword after `n` others, in the formats of which a doubleword holds `m`
pixels. -/
theorem turn_whole {X data n m i : ℕ} {ps : List Pixel} (hw : 0 < columns s₀)
    (hX : Follows X data n) (hm : pixelBits s₀.BITBLTBUF.destFormat * m = 64)
    (hin : s₀.BITBLTBUF.destFormat ∈ [0x00, 0x02, 0x0A, 0x13, 0x14, 0x1B, 0x24, 0x2C])
    (h : At T s₀ (m * n + i) 0 ps s) :
    At T s₀ (m * n + i + 1) 0 (ps ++ [placed s₀ 0 (m * n + i)
      (pixelValue s₀ X (source s₀ (m * n + i)))]) (s.turn T data i) := by
  have hsource : source s₀ (m * n + i) =
      m * n + chosen s₀.BITBLTBUF.destFormat i s.TRXPOS.intDestX := by
    by_cases hf : s₀.BITBLTBUF.destFormat = 0x14
    · have h16 : m = 16 := by
        rw [hf] at hm
        have : 4 * m = 64 := hm
        omega
      rw [h16] at h ⊢
      rw [hf]
      exact source_eq rfl _ h.x hf
    · unfold source chosen
      rw [if_neg hf, if_neg hf]
  have hvalue : rawValue s₀.BITBLTBUF.destFormat data i s.TRXPOS.intDestX =
      pixelValue s₀ X (source s₀ (m * n + i)) := by
    rw [rawValue_eq hin, pixelValue, hsource, Nat.mul_add, ← Nat.mul_assoc, hm, hX]
  unfold GS.turn
  rw [writePixel_eq (congrArg BITBLTBUF_REG.destFormat h.bitblt) hin, hvalue]
  exact h.next hw

/-! ### A pixel that straddles doublewords -/

/-- `b` bytes of the stream `X` have been unpacked. -/
def setColor (X b : ℕ) (s : GS) : GS :=
  { s with
    PSMCT24Color := slice (24 * (b / 3)) (8 * (b % 3)) X
    PSMCT24UnpackedCount := b % 3 }

/-- The bytes of the pixel that is not complete. -/
def Partial (X b : ℕ) (s : GS) : Prop := s = setColor X b s

/-- The pixel `k` of the stream `X`. -/
def color (X k : ℕ) : ℕ := slice (24 * k) 24 X

theorem unpackByte_eq {X data b p : ℕ} {z : Bool}
    (hz : s.BITBLTBUF.destFormat = if z then 0x31 else 0x01)
    (hX : slice p 8 data = slice (8 * b) 8 X) :
    (setColor X b s).unpackByte T data p z =
      setColor X (b + 1) (if b % 3 = 2 then putPixel T (color X (b / 3)) s else s) := by
  have hbyte : (data >>> p) &&& 0xFF = slice (24 * (b / 3) + 8 * (b % 3)) 8 X := by
    rw [masked (show 0xFF = 2 ^ 8 - 1 from rfl), hX]
    congr 1
    omega
  have hcolor : (setColor X b s).PSMCT24Color ||| ((data >>> p) &&& 0xFF) <<<
      ((setColor X b s).PSMCT24UnpackedCount * 8) = slice (24 * (b / 3)) (8 * (b % 3) + 8) X := by
    rw [hbyte]
    show slice (24 * (b / 3)) (8 * (b % 3)) X ||| _ <<< (b % 3 * 8) = _
    rw [Nat.mul_comm (b % 3) 8, slice_or]
  unfold GS.unpackByte
  rw [hcolor]
  show (if b % 3 + 1 = 3 then _ else _) = _
  by_cases h2 : b % 3 = 2
  · rw [if_pos (by omega), if_pos h2]
    have hplot : (setColor X b s).atDest
        (if z then writePSMCT24ZBlock T else writePSMCT24Block T) (slice (24 * (b / 3)) (8 * (b % 3) + 8) X)
          (setColor X b s).localMem =
        plot T s.BITBLTBUF s.localMem ⟨s.TRXPOS.intDestX, s.TRXPOS.intDestY, color X (b / 3)⟩ := by
      rw [h2]
      unfold plot
      rw [hz]
      cases z <;> rfl
    have hempty : setColor X (b + 1) (putPixel T (color X (b / 3)) s) =
        { putPixel T (color X (b / 3)) s with PSMCT24Color := 0, PSMCT24UnpackedCount := 0 } := by
      unfold setColor
      rw [show (b + 1) % 3 = 0 by omega, Nat.mul_zero, slice_zero]
    rw [hplot, hempty, h2]
    rfl
  · rw [if_neg (by omega), if_neg h2]
    unfold setColor
    rw [show (b + 1) / 3 = b / 3 by omega, show (b + 1) % 3 = b % 3 + 1 by omega]
    rfl

/-- Two bytes complete a pixel where a byte was left. -/
theorem unpack_two {X data b p : ℕ} {z : Bool} (hz : s.BITBLTBUF.destFormat = if z then 0x31 else 0x01)
    (h0 : slice p 8 data = slice (8 * b) 8 X) (h1 : slice (p + 8) 8 data = slice (8 * (b + 1)) 8 X) :
    ((setColor X b s).unpackByte T data p z).unpackByte T data (p + 8) z =
      setColor X (b + 2) (if b % 3 = 0 then s else putPixel T (color X (b / 3)) s) := by
  rw [unpackByte_eq hz h0]
  have hcases : b % 3 = 0 ∨ b % 3 = 1 ∨ b % 3 = 2 := by omega
  rcases hcases with hb | hb | hb
  · rw [if_neg (by omega), if_pos hb, unpackByte_eq hz h1, if_neg (by omega)]
  · rw [if_neg (by omega), if_neg (by omega), unpackByte_eq hz h1, if_pos (by omega),
      show (b + 1) / 3 = b / 3 by omega]
  · rw [if_pos hb, if_neg (by omega), unpackByte_eq (s := putPixel T _ s) hz h1, if_neg (by omega)]

/-- Three bytes complete a pixel. -/
theorem unpack_three {X data b p : ℕ} {z : Bool}
    (hz : s.BITBLTBUF.destFormat = if z then 0x31 else 0x01)
    (h0 : slice p 8 data = slice (8 * b) 8 X) (h1 : slice (p + 8) 8 data = slice (8 * (b + 1)) 8 X)
    (h2 : slice (p + 16) 8 data = slice (8 * (b + 2)) 8 X) :
    (((setColor X b s).unpackByte T data p z).unpackByte T data (p + 8) z).unpackByte T data (p + 16) z =
      setColor X (b + 3) (putPixel T (color X (b / 3)) s) := by
  rw [unpack_two hz h0 h1]
  by_cases hb : b % 3 = 0
  · rw [if_pos hb, unpackByte_eq hz h2, if_pos (by omega), show (b + 2) / 3 = b / 3 by omega]
  · rw [if_neg hb, unpackByte_eq (s := putPixel T _ s) hz h2, if_neg (by omega)]

/-- The bytes that the loop over a doubleword takes at once. -/
theorem unpackPSMCT24_eq {X data n i : ℕ} {z : Bool} (hX : Follows X data n) (hi : i < 3)
    (hz : s.BITBLTBUF.destFormat = if z then 0x31 else 0x01) :
    (setColor X (8 * n + 3 * i) s).unpackPSMCT24 T data i z =
      setColor X (8 * n + 3 * i + if i = 2 then 2 else 3)
        (if i = 2 ∧ n % 3 = 0 then s else putPixel T (color X ((8 * n + 3 * i) / 3)) s) := by
  have hbyte : ∀ j p, p = i * 24 + 8 * j → slice p 8 data = slice (8 * (8 * n + 3 * i + j)) 8 X := by
    rintro j p rfl
    rw [← hX]
    congr 1
    omega
  unfold GS.unpackPSMCT24
  simp only [List.range_succ, List.range_zero, List.nil_append, List.foldl_cons, List.foldl_nil,
    List.cons_append]
  have hp₀ : i * 24 + 8 * 0 < 64 := by omega
  have hp₁ : i * 24 + 8 * 1 < 64 := by omega
  rw [if_pos hp₀, if_pos hp₁]
  by_cases h2 : i = 2
  · have hp₂ : ¬ i * 24 + 8 * 2 < 64 := by omega
    rw [if_neg hp₂, if_pos h2]
    refine (unpack_two hz (hbyte 0 _ rfl) (hbyte 1 _ rfl)).trans ?_
    by_cases hn : n % 3 = 0
    · rw [if_pos (by omega), if_pos ⟨h2, hn⟩]
    · rw [if_neg (by omega), if_neg fun h => hn h.2]
      rfl
  · have hp₂ : i * 24 + 8 * 2 < 64 := by omega
    rw [if_pos hp₂, if_neg h2, if_neg fun h => h2 h.1]
    exact unpack_three hz (hbyte 0 _ rfl) (hbyte 1 _ rfl) (hbyte 2 _ rfl)

/-- The transfer stands after `b` bytes. -/
structure Unpacked (T : Tables) (s₀ : GS) (X b c e : ℕ) (ps : List Pixel) (s : GS) : Prop extends
    At T s₀ c e ps s where
  partialColor : Partial X b s

theorem At.setColor {X b c e : ℕ} {ps : List Pixel} (h : At T s₀ c e ps s) :
    Unpacked T s₀ X b c e ps (setColor X b s) :=
  ⟨⟨h.bitblt, h.size, h.destX, h.direction, h.transferred, h.x, h.y, h.pixels, h.memory⟩, rfl⟩

/-- The turn `i` of the loop over a doubleword of a transfer of 24 bits. -/
theorem turn_color {X data n i c e : ℕ} {ps : List Pixel} (hw : 0 < columns s₀)
    (hX : Follows X data n) (hi : i < 3)
    (hf : s₀.BITBLTBUF.destFormat = 0x01 ∨ s₀.BITBLTBUF.destFormat = 0x31)
    (hc : (8 * n + 3 * i) / 3 = c) (h : Unpacked T s₀ X (8 * n + 3 * i) c e ps s) :
    if i = 2 ∧ n % 3 = 0 then
      Unpacked T s₀ X (8 * n + 8) c (if c % columns s₀ = 0 then e + 1 else e) ps (s.turn T data i)
    else Unpacked T s₀ X (8 * n + 3 * i + if i = 2 then 2 else 3) (c + 1) e
      (ps ++ [placed s₀ e c (color X c)]) (s.turn T data i) := by
  have hwrite : s.writePixel T data i =
      setColor X (8 * n + 3 * i + if i = 2 then 2 else 3)
        (if i = 2 ∧ n % 3 = 0 then s else putPixel T (color X c) s) := by
    rw [← hc]
    have hs := h.partialColor
    rcases hf with hf | hf
    · have hformat := (congrArg BITBLTBUF_REG.destFormat h.bitblt).trans hf
      refine Eq.trans ?_ (unpackPSMCT24_eq (z := false) hX hi hformat)
      rw [← show s = setColor X (8 * n + 3 * i) s from hs]
      unfold GS.writePixel
      rw [hformat]
      rfl
    · have hformat := (congrArg BITBLTBUF_REG.destFormat h.bitblt).trans hf
      refine Eq.trans ?_ (unpackPSMCT24_eq (z := true) hX hi hformat)
      rw [← show s = setColor X (8 * n + 3 * i) s from hs]
      unfold GS.writePixel
      rw [hformat]
      rfl
  unfold GS.turn
  rw [hwrite]
  by_cases hlast : i = 2 ∧ n % 3 = 0
  · rw [if_pos hlast, if_pos hlast, if_pos hlast.1, hlast.1]
    exact h.toAt.again.setColor
  · rw [if_neg hlast, if_neg hlast]
    exact (h.toAt.next hw).setColor

/-! ### The doublewords of a transfer -/

/-- The transfer stands after `n` doublewords of the stream `X`. -/
structure After (T : Tables) (s₀ : GS) (X n : ℕ) (s : GS) : Prop extends
    At T s₀ (held s₀ n) (skipped s₀ (held s₀ n)) ((List.range (held s₀ n)).map (drawn s₀ X)) s where
  partialColor : isColor s₀ → Partial X (8 * n) s

theorem skipped_whole (h : ¬ isColor s₀) (k : ℕ) : skipped s₀ k = 0 := by
  induction k with
  | zero => rfl
  | succ k ih => rw [skipped, ih, if_neg fun hc => h hc.1]

theorem drawn_append {X c : ℕ} {ps : List Pixel} (h : ps = (List.range c).map (drawn s₀ X)) :
    ps ++ [drawn s₀ X c] = (List.range (c + 1)).map (drawn s₀ X) := by
  rw [h, List.range_succ, List.map_append]
  rfl

theorem range_succ_foldl {α : Type} (f : α → ℕ → α) (a : α) (n : ℕ) :
    (List.range (n + 1)).foldl f a = f ((List.range n).foldl f a) n := by
  rw [List.range_succ, List.foldl_append]
  rfl

/-- The pixels of a doubleword, where each lies within it. -/
theorem doubleword_whole {X data n m : ℕ} (hw : 0 < columns s₀) (hX : Follows X data n)
    (hm : pixelBits s₀.BITBLTBUF.destFormat * m = 64)
    (hin : s₀.BITBLTBUF.destFormat ∈ [0x00, 0x02, 0x0A, 0x13, 0x14, 0x1B, 0x24, 0x2C])
    (h : After T s₀ X n s) : After T s₀ X (n + 1) ((List.range m).foldl (GS.turn T data) s) := by
  have hbits : 0 < pixelBits s₀.BITBLTBUF.destFormat := by
    refine Nat.pos_of_ne_zero fun h0 => ?_
    rw [h0] at hm
    omega
  have hcolor : ¬ isColor s₀ := by
    intro hc
    rw [show pixelBits s₀.BITBLTBUF.destFormat = 24 from hc] at hm
    omega
  have hheld : ∀ k, held s₀ k = m * k := fun k => by
    rw [held, ← hm, Nat.mul_assoc, Nat.mul_div_cancel_left _ hbits]
  have hskip := skipped_whole hcolor
  have hturns : ∀ i, At T s₀ (m * n + i) 0 ((List.range (m * n + i)).map (drawn s₀ X))
      ((List.range i).foldl (GS.turn T data) s) := by
    intro i
    induction i with
    | zero =>
      have h0 := h.toAt
      rw [hskip, hheld] at h0
      exact h0
    | succ i ih =>
      rw [range_succ_foldl]
      have hnext := turn_whole hw hX hm hin ih
      have hd : placed s₀ 0 (m * n + i) (pixelValue s₀ X (source s₀ (m * n + i))) =
          drawn s₀ X (m * n + i) := by
        rw [drawn, hskip]
      rw [hd, drawn_append rfl] at hnext
      exact hnext
  have hlast := hturns m
  refine ⟨?_, fun hc => absurd hc hcolor⟩
  rw [hskip, hheld, Nat.mul_succ]
  exact hlast

theorem skipped_succ_of_ne {k : ℕ} (h : (k + 1) % 8 ≠ 2) : skipped s₀ (k + 1) = skipped s₀ k := by
  rw [skipped, if_neg fun hc => h hc.2.1, Nat.add_zero]

theorem drawn_color {X k : ℕ} (hf : s₀.BITBLTBUF.destFormat = 0x01 ∨ s₀.BITBLTBUF.destFormat = 0x31) :
    drawn s₀ X k = placed s₀ (skipped s₀ k) k (color X k) := by
  unfold drawn source pixelValue
  rcases hf with hf | hf <;>
  · rw [hf]
    rfl

/-- The pixels of a doubleword in a transfer of 24 bits. -/
theorem doubleword_color {X data n : ℕ} (hw : 0 < columns s₀) (hX : Follows X data n)
    (hf : s₀.BITBLTBUF.destFormat = 0x01 ∨ s₀.BITBLTBUF.destFormat = 0x31)
    (h : After T s₀ X n s) : After T s₀ X (n + 1) ((List.range 3).foldl (GS.turn T data) s) := by
  have hcolor : isColor s₀ := by
    unfold isColor
    rcases hf with hf | hf <;>
    · rw [hf]
      rfl
  have hheld : ∀ k, held s₀ k = 8 * k / 3 := fun k => by
    rw [held, show pixelBits s₀.BITBLTBUF.destFormat = 24 from hcolor]
    omega
  obtain ⟨c, hc⟩ : ∃ c, c = 8 * n / 3 := ⟨_, rfl⟩
  have h₀ : Unpacked T s₀ X (8 * n + 3 * 0) c (skipped s₀ c) ((List.range c).map (drawn s₀ X)) s :=
    ⟨by rw [hc, ← hheld]; exact h.toAt, h.partialColor hcolor⟩
  have h₁ := turn_color hw hX (i := 0) (by decide) hf (by omega) h₀
  rw [if_neg (by omega), if_neg (by decide), ← drawn_color hf, drawn_append rfl] at h₁
  have h₂ := turn_color hw hX (i := 1) (by decide) hf (by omega) h₁
  have hs₁ : skipped s₀ (c + 1) = skipped s₀ c := skipped_succ_of_ne (by omega)
  rw [if_neg (by omega), if_neg (by decide), ← hs₁, ← drawn_color hf, drawn_append rfl] at h₂
  have h₃ := turn_color hw hX (i := 2) (by decide) hf (by omega) h₂
  show After T s₀ X (n + 1) (GS.turn T data (GS.turn T data (GS.turn T data s 0) 1) 2)
  by_cases hn : n % 3 = 0
  · rw [if_pos ⟨rfl, hn⟩] at h₃
    have hcount : held s₀ (n + 1) = c + 1 + 1 := by
      rw [hheld]
      omega
    have hskip : skipped s₀ (c + 1 + 1) =
        if (c + 1 + 1) % columns s₀ = 0 then skipped s₀ (c + 1) + 1 else skipped s₀ (c + 1) := by
      have h2 : (c + 1 + 1) % 8 = 2 := by omega
      rw [skipped]
      split
      next hz => rw [if_pos hz.2.2]
      next hz => rw [if_neg fun h0 => hz ⟨hcolor, h2, h0⟩, Nat.add_zero]
    refine ⟨?_, fun _ => h₃.partialColor⟩
    rw [hcount, hskip]
    exact h₃.toAt
  · rw [if_neg fun h => hn h.2, if_pos rfl] at h₃
    have hcount : held s₀ (n + 1) = c + 1 + 1 + 1 := by
      have hrest : n % 3 = 1 ∨ n % 3 = 2 := by omega
      rw [hheld]
      rcases hrest with hr | hr <;> omega
    have hs₂ : skipped s₀ (c + 1 + 1) = skipped s₀ (c + 1) := skipped_succ_of_ne (by omega)
    have hs₃ : skipped s₀ (c + 1 + 1 + 1) = skipped s₀ (c + 1 + 1) := skipped_succ_of_ne (by omega)
    rw [← hs₂, ← drawn_color hf, drawn_append rfl] at h₃
    refine ⟨?_, fun _ => h₃.partialColor⟩
    rw [hcount, hs₃]
    exact h₃.toAt

end DobieStation.Gs.Doublewords
