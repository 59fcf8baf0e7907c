import DobieStation.Gs.RoundTrip
import DobieStation.GsThread.DrawPixel
import DobieStation.GsThread.PaletteColors
import DobieStation.Lib.DepthBuffer

/-! # What is drawn over what

A frame buffer and a depth buffer without a common page are a picture of pixels that do not interfere
(`draws_apart`): what is at a pixel after any number of draws is a matter of those at this pixel. From
this follows what a depth test is for (`nearest_shown`), and what a mask is for (`masked_kept`). -/

namespace DobieStation.GsThread

open DobieStation.Lib.Memory DobieStation.Lib.DepthBuffer
open DobieStation.Gs.Model DobieStation.Gs.Buffers
open DobieStation.Gs.CRT (convertColorUp)
open DobieStation.Gs.RoundTrip (and_mask and_color color_of_word)
open DobieStation.GsThread.Palette (blankRegs blankTables)

/-! ### Colors of 16 bits -/

theorem and_field (c k n : ℕ) : c &&& ((2 ^ n - 1) <<< k) = (c / 2 ^ k % 2 ^ n) <<< k := by
  apply Nat.eq_of_testBit_eq
  intro i
  rw [Nat.testBit_and, Nat.testBit_shiftLeft, Nat.testBit_shiftLeft, Nat.testBit_two_pow_sub_one,
    Nat.testBit_mod_two_pow, ← Nat.shiftRight_eq_div_pow, Nat.testBit_shiftRight]
  by_cases h : k ≤ i
  · rw [Nat.add_sub_cancel' h]
    cases decide (i - k < n) <;> cases c.testBit i <;> simp [h]
  · simp [h]

theorem or_shift {x y k : ℕ} (h : x < 2 ^ k) : x ||| y <<< k = x + 2 ^ k * y := by
  rw [Nat.or_comm, ← Nat.shiftLeft_add_eq_or_of_lt h, Nat.shiftLeft_eq, Nat.mul_comm, Nat.add_comm]

theorem convertColorDown_eq (c : ℕ) : convertColorDown c =
    c / 2 ^ 3 % 2 ^ 5 + 2 ^ 5 * (c / 2 ^ 11 % 2 ^ 5) + 2 ^ 10 * (c / 2 ^ 19 % 2 ^ 5) +
      2 ^ 15 * (c / 2 ^ 31 % 2 ^ 1) := by
  have h8 : ∀ a : ℕ, a &&& 0xFF = a % 2 ^ 8 := fun a => Nat.and_two_pow_sub_one_eq_mod a 8
  have hr : c % 2 ^ 8 / 2 ^ 3 = c / 2 ^ 3 % 2 ^ 5 := by omega
  have hg : c / 2 ^ 8 % 2 ^ 8 / 2 ^ 3 = c / 2 ^ 11 % 2 ^ 5 := by omega
  have hb : c / 2 ^ 16 % 2 ^ 8 / 2 ^ 3 = c / 2 ^ 19 % 2 ^ 5 := by omega
  have ha : c / 2 ^ 24 % 2 ^ 8 / 2 ^ 7 = c / 2 ^ 31 % 2 ^ 1 := by omega
  unfold convertColorDown
  simp only [h8, Nat.shiftRight_eq_div_pow, hr, hg, hb, ha]
  rw [or_shift (x := c / 2 ^ 3 % 2 ^ 5) (by omega), or_shift (x := _ + _) (by omega),
    or_shift (x := _ + _) (by omega)]

theorem convertColorDown_lt (c : ℕ) : convertColorDown c < 2 ^ 16 := by
  rw [convertColorDown_eq]
  omega

/-- The bits that a color keeps in a buffer of 16 bits. -/
theorem convertColorUp_down (c : ℕ) : convertColorUp (convertColorDown c) = c &&& 0x80F8F8F8 := by
  have h5 : ∀ a : ℕ, a &&& 0x1F = a % 2 ^ 5 := fun a => Nat.and_two_pow_sub_one_eq_mod a 5
  have h1 : ∀ a : ℕ, a &&& 0x1 = a % 2 ^ 1 := fun a => Nat.and_two_pow_sub_one_eq_mod a 1
  have hmask : (0x80F8F8F8 : ℕ) = (2 ^ 5 - 1) <<< 3 ||| (2 ^ 5 - 1) <<< 11 |||
      (2 ^ 5 - 1) <<< 19 ||| (2 ^ 1 - 1) <<< 31 := by decide
  rw [hmask, Nat.and_or_distrib_left, Nat.and_or_distrib_left, Nat.and_or_distrib_left, and_field,
    and_field, and_field, and_field]
  unfold convertColorUp
  simp only [h5, h1, Nat.shiftRight_eq_div_pow, convertColorDown_eq, ← Nat.shiftLeft_add]
  have hr : c / 2 ^ 3 % 2 ^ 5 < 2 ^ 5 := Nat.mod_lt _ (by decide)
  have hg : c / 2 ^ 11 % 2 ^ 5 < 2 ^ 5 := Nat.mod_lt _ (by decide)
  have hb : c / 2 ^ 19 % 2 ^ 5 < 2 ^ 5 := Nat.mod_lt _ (by decide)
  have ha : c / 2 ^ 31 % 2 ^ 1 < 2 ^ 1 := Nat.mod_lt _ (by decide)
  generalize c / 2 ^ 3 % 2 ^ 5 = r at *
  generalize c / 2 ^ 11 % 2 ^ 5 = g at *
  generalize c / 2 ^ 19 % 2 ^ 5 = b at *
  generalize c / 2 ^ 31 % 2 ^ 1 = a at *
  rw [show (r + 2 ^ 5 * g + 2 ^ 10 * b + 2 ^ 15 * a) % 2 ^ 5 = r by omega,
    show (r + 2 ^ 5 * g + 2 ^ 10 * b + 2 ^ 15 * a) / 2 ^ 5 % 2 ^ 5 = g by omega,
    show (r + 2 ^ 5 * g + 2 ^ 10 * b + 2 ^ 15 * a) / 2 ^ 10 % 2 ^ 5 = b by omega,
    show (r + 2 ^ 5 * g + 2 ^ 10 * b + 2 ^ 15 * a) / 2 ^ 15 % 2 ^ 1 = a by omega]

/-! ### The formats -/

/-- The formats that are drawn to. -/
def supported (format : BitVec 6) : Bool := (addrFunction format).isSome

/-- The formats of 24 bits. -/
def is24 (format : BitVec 6) : Bool := format = 0x01 || format = 0x31

def rowsOf (format : BitVec 6) : ℕ := if isHalf format then 64 else 32

def sizeOf (format : BitVec 6) : ℕ := if isHalf format then 2 else 4

def bufferAddr (T : PageTables) (format : BitVec 6) : ℕ → ℕ → ℕ → ℕ → ℕ :=
  match format with
  | 0x02 => addrPSMCT16 T.toTables
  | 0x0A => addrPSMCT16S T.toTables
  | 0x30 => addrPSMCT32Z T.toTables
  | 0x31 => addrPSMCT32Z T.toTables
  | 0x32 => addrPSMCT16Z T
  | 0x3A => addrPSMCT16SZ T
  | _ => addrPSMCT32 T.toTables

theorem supported_cases {f : BitVec 6} (h : supported f = true) :
    f = 0x00 ∨ f = 0x01 ∨ f = 0x02 ∨ f = 0x0A ∨ f = 0x30 ∨ f = 0x31 ∨ f = 0x32 ∨ f = 0x3A := by
  revert f
  decide

theorem laid_format (T : PageTables) {f : BitVec 6} (h : supported f = true) :
    Laid (rowsOf f) (sizeOf f) (bufferAddr (drawTables T) f) := by
  rcases supported_cases h with rfl | rfl | rfl | rfl | rfl | rfl | rfl | rfl
  · exact laid_word DobieStation.Gs.Pages.blocks_blockTable32
  · exact laid_word DobieStation.Gs.Pages.blocks_blockTable32
  · exact laid_half halfBlocks_blockTable16
  · exact laid_half halfBlocks_blockTable16S
  · exact laid_word DobieStation.Gs.Pages.blocks_blockTable32Z
  · exact laid_word DobieStation.Gs.Pages.blocks_blockTable32Z
  · exact laid_half halfBlocks_blockTable16Z
  · exact laid_half halfBlocks_blockTable16SZ

/-- A color as it is read from the bits of a buffer. -/
def decodeColor (f : BitVec 6) (raw : ℕ) : ℕ :=
  if isHalf f then convertColorUp raw
  else if is24 f then (raw &&& 0xFFFFFF) ||| (1 <<< 31) else raw

/-- The bits that are written over `old`. -/
def encodeColor (f : BitVec 6) (old color : ℕ) : ℕ :=
  if isHalf f then convertColorDown color
  else if is24 f then (old &&& 0xFF000000) ||| (color &&& 0xFFFFFF) else color

def decodeDepth (f : BitVec 6) (raw : ℕ) : ℕ := if is24 f then raw &&& 0xFFFFFF else raw

def encodeDepth (f : BitVec 6) (old z : ℕ) : ℕ :=
  if isHalf f then z &&& 0xFFFF
  else if is24 f then (old &&& 0xFF000000) ||| ((z &&& 0xFFFFFF) &&& 0xFFFFFF) else z

/-- A color as it is read again. -/
def shownColor (f : BitVec 6) (color : ℕ) : ℕ :=
  if isHalf f then color &&& 0x80F8F8F8
  else if is24 f then (color &&& 0xFFFFFF) ||| (1 <<< 31) else color &&& 0xFFFFFFFF

/-- The address of the pixel in the frame buffer. -/
def DrawRegs.frameAddr (T : PageTables) (r : DrawRegs) (x y : ℕ) : ℕ :=
  bufferAddr T r.ctx.frame.format (r.ctx.frame.basePointer / 256) (r.ctx.frame.width / 64) x y

/-- The address of the pixel in the depth buffer. -/
def DrawRegs.depthAddr (T : PageTables) (r : DrawRegs) (x y : ℕ) : ℕ :=
  bufferAddr T r.ctx.zbuf.format (r.ctx.zbuf.basePointer / 256) (r.ctx.frame.width / 64) x y

section
variable {T : PageTables} {r : DrawRegs} {x y z c : ℕ} {m : Bytes} {f : BitVec 6} {old : ℕ}

theorem lookupFrameColor_eq (h : supported r.ctx.frame.format = true) :
    r.lookupFrameColor T x y m = some (decodeColor r.ctx.frame.format
      (load (sizeOf r.ctx.frame.format) m (r.frameAddr T x y))) := by
  unfold DrawRegs.lookupFrameColor DrawRegs.frameAddr
  generalize r.ctx.frame.format = f at h
  rcases supported_cases h with rfl | rfl | rfl | rfl | rfl | rfl | rfl | rfl <;> rfl

theorem writeFrame_eq (h : supported r.ctx.frame.format = true) :
    r.writeFrame T x y c m = some (store (sizeOf r.ctx.frame.format) m (r.frameAddr T x y)
      (encodeColor r.ctx.frame.format
        (load (sizeOf r.ctx.frame.format) m (r.frameAddr T x y)) c)) := by
  unfold DrawRegs.writeFrame DrawRegs.frameAddr
  generalize r.ctx.frame.format = f at h
  rcases supported_cases h with rfl | rfl | rfl | rfl | rfl | rfl | rfl | rfl <;> rfl

theorem readDepth_eq (h : supported r.ctx.zbuf.format = true) :
    r.readDepth T x y m = some (decodeDepth r.ctx.zbuf.format
      (load (sizeOf r.ctx.zbuf.format) m (r.depthAddr T x y))) := by
  unfold DrawRegs.readDepth DrawRegs.depthAddr
  generalize r.ctx.zbuf.format = f at h
  rcases supported_cases h with rfl | rfl | rfl | rfl | rfl | rfl | rfl | rfl <;> rfl

theorem writeDepth_eq (h : supported r.ctx.zbuf.format = true) :
    r.writeDepth T x y z m = store (sizeOf r.ctx.zbuf.format) m (r.depthAddr T x y)
      (encodeDepth r.ctx.zbuf.format
        (load (sizeOf r.ctx.zbuf.format) m (r.depthAddr T x y)) (r.clampDepth z)) := by
  unfold DrawRegs.writeDepth DrawRegs.depthAddr DrawRegs.clampDepth
  generalize r.ctx.zbuf.format = f at h
  rcases supported_cases h with rfl | rfl | rfl | rfl | rfl | rfl | rfl | rfl <;> rfl

/-- A color that was written is read again, as far as the format has its bits. -/
theorem decode_encodeColor (h : supported f = true) :
    decodeColor f (encodeColor f old c % 256 ^ sizeOf f) = shownColor f c := by
  have hword : c % 2 ^ 32 = c &&& 0xFFFFFFFF := (and_mask rfl c).symm
  have hcolor : (((old &&& 0xFF000000) ||| (c &&& 0xFFFFFF)) % 256 ^ 4 &&& 0xFFFFFF) ||| 1 <<< 31 =
      (c &&& 0xFFFFFF) ||| 1 <<< 31 := by
    rw [color_of_word, and_color]
  have hhalf : convertColorUp (convertColorDown c % 2 ^ 16) = c &&& 0x80F8F8F8 := by
    rw [Nat.mod_eq_of_lt (convertColorDown_lt c), convertColorUp_down]
  rcases supported_cases h with rfl | rfl | rfl | rfl | rfl | rfl | rfl | rfl
  · exact hword
  · exact hcolor
  · exact hhalf
  · exact hhalf
  · exact hword
  · exact hcolor
  · exact hhalf
  · exact hhalf

/-- The depth that was written is read again. -/
theorem decode_encodeDepth (h : supported r.ctx.zbuf.format = true) (hz : z < 2 ^ 32) :
    decodeDepth r.ctx.zbuf.format (encodeDepth r.ctx.zbuf.format old (r.clampDepth z) %
      256 ^ sizeOf r.ctx.zbuf.format) = r.clampDepth z := by
  have hword : z % 2 ^ 32 = z := Nat.mod_eq_of_lt hz
  have hcolor : ((old &&& 0xFF000000) ||| ((min z 0xFFFFFF &&& 0xFFFFFF) &&& 0xFFFFFF)) % 256 ^ 4 &&&
      0xFFFFFF = min z 0xFFFFFF := by
    rw [color_of_word, and_color]
    omega
  have hhalf : (min z 0xFFFF &&& 0xFFFF) % 2 ^ 16 = min z 0xFFFF := by
    rw [and_mask (show 0xFFFF = 2 ^ 16 - 1 from rfl)]
    omega
  unfold DrawRegs.clampDepth
  generalize r.ctx.zbuf.format = f at h
  rcases supported_cases h with rfl | rfl | rfl | rfl | rfl | rfl | rfl | rfl
  · exact hword
  · exact hcolor
  · exact hhalf
  · exact hhalf
  · exact hword
  · exact hcolor
  · exact hhalf
  · exact hhalf

end

/-! ### The picture -/

/-- The two buffers of a picture of `height` lines: whole pages in the local memory, none of them in both
buffers. -/
structure Surface (r : DrawRegs) (height : ℕ) : Prop where
  frame_format : supported r.ctx.frame.format = true
  depth_format : supported r.ctx.zbuf.format = true
  frame_base : r.ctx.frame.basePointer % 8192 = 0
  depth_base : r.ctx.zbuf.basePointer % 8192 = 0
  width : r.ctx.frame.width % 64 = 0
  frame_fits : ∀ x y, x < r.ctx.frame.width → y < height →
    pageOf (rowsOf r.ctx.frame.format) (r.ctx.frame.basePointer / 8192) (r.ctx.frame.width / 64) x y < 512
  depth_fits : ∀ x y, x < r.ctx.frame.width → y < height →
    pageOf (rowsOf r.ctx.zbuf.format) (r.ctx.zbuf.basePointer / 8192) (r.ctx.frame.width / 64) x y < 512
  apart : ∀ x y x' y', x < r.ctx.frame.width → y < height → x' < r.ctx.frame.width → y' < height →
    pageOf (rowsOf r.ctx.frame.format) (r.ctx.frame.basePointer / 8192) (r.ctx.frame.width / 64) x y ≠
      pageOf (rowsOf r.ctx.zbuf.format) (r.ctx.zbuf.basePointer / 8192) (r.ctx.frame.width / 64) x' y'

/-- The registers draw to the same buffers. -/
structure SameBuffers (r r' : DrawRegs) : Prop where
  frame_base : r'.ctx.frame.basePointer = r.ctx.frame.basePointer
  frame_format : r'.ctx.frame.format = r.ctx.frame.format
  width : r'.ctx.frame.width = r.ctx.frame.width
  depth_base : r'.ctx.zbuf.basePointer = r.ctx.zbuf.basePointer
  depth_format : r'.ctx.zbuf.format = r.ctx.zbuf.format

/-- A pixel that is drawn, with the registers at that time. -/
structure PixelDraw where
  regs : DrawRegs
  x : ℕ
  y : ℕ
  z : BitVec 32
  color : Color

def PixelDraw.place (a : PixelDraw) : ℕ × ℕ := (a.x >>> 4, a.y >>> 4)

def draw (T : PageTables) (m : Bytes) (a : PixelDraw) : Option Bytes :=
  a.regs.drawPixel a.x a.y a.z.toNat a.color T m

/-- The pixel of a picture that its place is in. -/
def DrawRegs.Shows (r : DrawRegs) (height : ℕ) (p : ℕ × ℕ) : Prop :=
  p.1 < r.ctx.frame.width ∧ p.2 < height

/-- A draw to a pixel of the picture. -/
def PixelDraw.Onto (r : DrawRegs) (height : ℕ) (a : PixelDraw) : Prop :=
  SameBuffers r a.regs ∧ r.Shows height a.place

/-- The color and the depth at a place. -/
def pixel (T : PageTables) (r : DrawRegs) (p : ℕ × ℕ) (m : Bytes) : ℕ × ℕ :=
  ((r.lookupFrameColor T p.1 p.2 m).getD 0, (r.readDepth T p.1 p.2 m).getD 0)

/-- What a draw makes of the color and the depth at its place. -/
def PixelDraw.act (p : ℕ × ℕ) (a : PixelDraw) : ℕ × ℕ :=
  ((a.regs.shade a.place.1 a.place.2 a.z.toNat a.color (some p.1) (some p.2)).map fun out =>
    (out.frame.elim p.1 (shownColor a.regs.ctx.frame.format),
      out.depth.elim p.2 a.regs.clampDepth)).getD p

/-- The byte is part of the pixel of the draw in one of the buffers. -/
def PixelDraw.Touches (T : PageTables) (a : PixelDraw) (q : ℕ) : Prop :=
  let frame := a.regs.frameAddr T a.place.1 a.place.2
  let depth := a.regs.depthAddr T a.place.1 a.place.2
  (frame ≤ q ∧ q < frame + sizeOf a.regs.ctx.frame.format) ∨
    (depth ≤ q ∧ q < depth + sizeOf a.regs.ctx.zbuf.format)

section
variable {T : PageTables} {r r' : DrawRegs} {height : ℕ} {p p' : ℕ × ℕ} {m m' : Bytes} {a : PixelDraw}

theorem SameBuffers.frameAddr_eq (h : SameBuffers r r') (x y : ℕ) :
    r'.frameAddr T x y = r.frameAddr T x y := by
  unfold DrawRegs.frameAddr
  rw [h.frame_format, h.frame_base, h.width]

theorem SameBuffers.depthAddr_eq (h : SameBuffers r r') (x y : ℕ) :
    r'.depthAddr T x y = r.depthAddr T x y := by
  unfold DrawRegs.depthAddr
  rw [h.depth_format, h.depth_base, h.width]

theorem Surface.same (hs : Surface r height) (h : SameBuffers r r') : Surface r' height := by
  obtain ⟨h1, h2, h3, h4, h5, h6, h7, h8⟩ := hs
  exact ⟨by rwa [h.frame_format], by rwa [h.depth_format], by rwa [h.frame_base],
    by rwa [h.depth_base], by rwa [h.width], by rwa [h.frame_format, h.frame_base, h.width],
    by rwa [h.depth_format, h.depth_base, h.width],
    by rwa [h.frame_format, h.depth_format, h.frame_base, h.depth_base, h.width]⟩

/-- A buffer begins with a page. -/
theorem page_base {base : ℕ} (h : base % 8192 = 0) : base / 256 = 32 * (base / 8192) := by omega

theorem Surface.frame_apart (hs : Surface r height) (hp : r.Shows height p)
    (hp' : r.Shows height p') (hne : p ≠ p') :
    r.frameAddr (drawTables T) p.1 p.2 + sizeOf r.ctx.frame.format ≤
        r.frameAddr (drawTables T) p'.1 p'.2 ∨
      r.frameAddr (drawTables T) p'.1 p'.2 + sizeOf r.ctx.frame.format ≤
        r.frameAddr (drawTables T) p.1 p.2 := by
  have hwidth := hs.width
  unfold DrawRegs.frameAddr
  rw [page_base hs.frame_base]
  exact (laid_format T hs.frame_format).apart (by have := hp.1; omega) (by have := hp'.1; omega)
    (hs.frame_fits _ _ hp.1 hp.2) (hs.frame_fits _ _ hp'.1 hp'.2) hne

theorem Surface.depth_apart (hs : Surface r height) (hp : r.Shows height p)
    (hp' : r.Shows height p') (hne : p ≠ p') :
    r.depthAddr (drawTables T) p.1 p.2 + sizeOf r.ctx.zbuf.format ≤
        r.depthAddr (drawTables T) p'.1 p'.2 ∨
      r.depthAddr (drawTables T) p'.1 p'.2 + sizeOf r.ctx.zbuf.format ≤
        r.depthAddr (drawTables T) p.1 p.2 := by
  have hwidth := hs.width
  unfold DrawRegs.depthAddr
  rw [page_base hs.depth_base]
  exact (laid_format T hs.depth_format).apart (by have := hp.1; omega) (by have := hp'.1; omega)
    (hs.depth_fits _ _ hp.1 hp.2) (hs.depth_fits _ _ hp'.1 hp'.2) hne

theorem Surface.buffers_apart (hs : Surface r height) (hp : r.Shows height p)
    (hp' : r.Shows height p') :
    r.frameAddr (drawTables T) p.1 p.2 + sizeOf r.ctx.frame.format ≤
        r.depthAddr (drawTables T) p'.1 p'.2 ∨
      r.depthAddr (drawTables T) p'.1 p'.2 + sizeOf r.ctx.zbuf.format ≤
        r.frameAddr (drawTables T) p.1 p.2 := by
  unfold DrawRegs.frameAddr DrawRegs.depthAddr
  rw [page_base hs.frame_base, page_base hs.depth_base]
  exact (laid_format T hs.frame_format).apart_pages (laid_format T hs.depth_format)
    (hs.frame_fits _ _ hp.1 hp.2) (hs.depth_fits _ _ hp'.1 hp'.2)
    (hs.apart _ _ _ _ hp.1 hp.2 hp'.1 hp'.2)

/-! ### One draw -/

theorem passed_some (x y z : ℕ) (color : Color) (updates : DrawRegs.Updates) (c : ℕ) :
    ∃ out, r.passed x y z color updates (some c) = some out ∧
      ∀ d, out.depth = some d → d = z := by
  unfold DrawRegs.passed
  simp only [Option.map_some, Option.bind_some]
  split_ifs
  all_goals
    refine ⟨_, rfl, fun d hd => ?_⟩
    cases hd <;> rfl

/-- **Nothing dies where both buffers can be read**, and the depth that is written is the pixel's. -/
theorem shade_some (x y z : ℕ) (color : Color) (c d : ℕ) :
    ∃ out, r.shade x y z color (some c) (some d) = some out ∧
      ∀ d', out.depth = some d' → d' = z := by
  have hnothing : ∀ d', (⟨none, none⟩ : DrawRegs.Output).depth = some d' → d' = z :=
    fun d' hd' => by cases hd'
  unfold DrawRegs.shade
  by_cases hscan : r.scanMasked y = true
  · rw [if_pos hscan]
    exact ⟨_, rfl, hnothing⟩
  · rw [if_neg hscan]
    cases r.alphaTest color with
    | none => exact ⟨_, rfl, hnothing⟩
    | some updates =>
      by_cases htest : r.ctx.test.depthTest = true
      · obtain ⟨pass, hpass⟩ : ∃ pass, r.depthTest z (some d) = some pass := by
          unfold DrawRegs.depthTest
          split <;> exact ⟨_, rfl⟩
        dsimp only
        rw [if_pos htest, hpass, Option.bind_some]
        cases pass
        · exact ⟨_, rfl, hnothing⟩
        · exact passed_some x y z color updates c
      · dsimp only
        rw [if_neg htest]
        exact passed_some x y z color _ c

/-- What a draw leaves: the frame buffer is written first. -/
def PixelDraw.after (T : PageTables) (a : PixelDraw) (out : DrawRegs.Output) (m : Bytes) : Bytes :=
  let frame := a.regs.frameAddr T a.place.1 a.place.2
  let depth := a.regs.depthAddr T a.place.1 a.place.2
  let size := sizeOf a.regs.ctx.frame.format
  let m := out.frame.elim m fun c =>
    store size m frame (encodeColor a.regs.ctx.frame.format (load size m frame) c)
  let size := sizeOf a.regs.ctx.zbuf.format
  out.depth.elim m fun z =>
    store size m depth (encodeDepth a.regs.ctx.zbuf.format (load size m depth) (a.regs.clampDepth z))

/-- The writes of a draw, after the frame and the depth were tested. -/
def PixelDraw.write (T : PageTables) (a : PixelDraw) (m : Bytes) (out : DrawRegs.Output) : Option Bytes := do
  let m ← out.frame.elim (some m) fun c => a.regs.writeFrame T a.place.1 a.place.2 c m
  some (out.depth.elim m fun z => a.regs.writeDepth T a.place.1 a.place.2 z m)

theorem write_eq (hs : Surface a.regs height) (m : Bytes) (out : DrawRegs.Output) :
    a.write T m out = some (a.after T out m) := by
  obtain ⟨frame, depth⟩ := out
  unfold PixelDraw.write PixelDraw.after
  dsimp only
  have hframe : (frame.elim (some m) fun c => a.regs.writeFrame T a.place.1 a.place.2 c m) =
      some (frame.elim m fun c => store (sizeOf a.regs.ctx.frame.format) m
        (a.regs.frameAddr T a.place.1 a.place.2) (encodeColor a.regs.ctx.frame.format
          (load (sizeOf a.regs.ctx.frame.format) m (a.regs.frameAddr T a.place.1 a.place.2)) c)) := by
    cases frame with
    | none => rfl
    | some c => exact writeFrame_eq hs.frame_format
  rw [hframe, Option.bind_eq_bind, Option.bind_some]
  cases depth with
  | none => rfl
  | some z => exact congrArg some (writeDepth_eq hs.depth_format)

/-- **A draw**, by what is shaded. -/
theorem draw_eq (hs : Surface a.regs height) (m : Bytes) :
    ∃ out, a.regs.shade a.place.1 a.place.2 a.z.toNat a.color
        (some (pixel T a.regs a.place m).1) (some (pixel T a.regs a.place m).2) = some out ∧
      (∀ d, out.depth = some d → d = a.z.toNat) ∧ draw T m a = some (a.after T out m) := by
  obtain ⟨out, hout, hdepth⟩ := shade_some (r := a.regs) a.place.1 a.place.2 a.z.toNat a.color
    (pixel T a.regs a.place m).1 (pixel T a.regs a.place m).2
  refine ⟨out, hout, hdepth, ?_⟩
  have hframe : a.regs.lookupFrameColor T a.place.1 a.place.2 m =
      some (pixel T a.regs a.place m).1 := by
    unfold pixel
    rw [lookupFrameColor_eq hs.frame_format]
    rfl
  have hread : a.regs.readDepth T a.place.1 a.place.2 m = some (pixel T a.regs a.place m).2 := by
    unfold pixel
    rw [readDepth_eq hs.depth_format]
    rfl
  have hrun : draw T m a = (a.regs.shade a.place.1 a.place.2 a.z.toNat a.color
      (a.regs.lookupFrameColor T a.place.1 a.place.2 m)
      (a.regs.readDepth T a.place.1 a.place.2 m)).bind (a.write T m) := rfl
  rw [hrun, hframe, hread, hout, Option.bind_some]
  exact write_eq hs m out

theorem pixel_eq (hs : Surface r height) (p : ℕ × ℕ) (m : Bytes) :
    pixel T r p m = (decodeColor r.ctx.frame.format
        (load (sizeOf r.ctx.frame.format) m (r.frameAddr T p.1 p.2)),
      decodeDepth r.ctx.zbuf.format
        (load (sizeOf r.ctx.zbuf.format) m (r.depthAddr T p.1 p.2))) := by
  unfold pixel
  rw [lookupFrameColor_eq hs.frame_format, readDepth_eq hs.depth_format]
  rfl

theorem SameBuffers.pixel_eq (h : SameBuffers r r') (hs : Surface r height) (p : ℕ × ℕ) (m : Bytes) :
    pixel T r' p m = pixel T r p m := by
  rw [GsThread.pixel_eq (hs.same h), GsThread.pixel_eq hs, h.frameAddr_eq, h.depthAddr_eq, h.frame_format,
    h.depth_format]

/-- The frame buffer after a draw, where it was drawn. -/
theorem load_frame_after (hs : Surface a.regs height) (ha : a.regs.Shows height a.place)
    (m : Bytes) (out : DrawRegs.Output) :
    let f := a.regs.ctx.frame.format
    let addr := a.regs.frameAddr (drawTables T) a.place.1 a.place.2
    decodeColor f (load (sizeOf f) (a.after (drawTables T) out m) addr) =
      out.frame.elim (decodeColor f (load (sizeOf f) m addr)) (shownColor f) := by
  obtain ⟨frame, depth⟩ := out
  have hapart := hs.buffers_apart (T := T) ha ha
  have hdepth : ∀ m : Bytes, load (sizeOf a.regs.ctx.frame.format)
      (a.after (drawTables T) ⟨none, depth⟩ m) (a.regs.frameAddr (drawTables T) a.place.1 a.place.2) =
        load (sizeOf a.regs.ctx.frame.format) m
          (a.regs.frameAddr (drawTables T) a.place.1 a.place.2) := by
    intro m
    cases depth with
    | none => rfl
    | some z => exact load_store_apart hapart.symm
  cases frame with
  | none => exact congrArg _ (hdepth m)
  | some c =>
    refine (congrArg _ (hdepth _)).trans ?_
    rw [load_store_self, decode_encodeColor hs.frame_format]
    rfl

/-- The depth buffer after a draw. -/
theorem load_depth_after (hs : Surface a.regs height) (ha : a.regs.Shows height a.place)
    (m : Bytes) {out : DrawRegs.Output} (hz : ∀ d, out.depth = some d → d = a.z.toNat) :
    let f := a.regs.ctx.zbuf.format
    let addr := a.regs.depthAddr (drawTables T) a.place.1 a.place.2
    decodeDepth f (load (sizeOf f) (a.after (drawTables T) out m) addr) =
      out.depth.elim (decodeDepth f (load (sizeOf f) m addr)) a.regs.clampDepth := by
  obtain ⟨frame, depth⟩ := out
  have hapart := hs.buffers_apart (T := T) ha ha
  cases depth with
  | none =>
    cases frame with
    | none => rfl
    | some c => exact congrArg _ (load_store_apart hapart)
  | some z =>
    obtain rfl := hz z rfl
    refine (congrArg _ load_store_self).trans ?_
    exact decode_encodeDepth hs.depth_format a.z.isLt

/-- Another pixel is as before. -/
theorem load_after_apart (hs : Surface a.regs height) (ha : a.regs.Shows height a.place)
    (hp : a.regs.Shows height p) (hne : p ≠ a.place) (m : Bytes) (out : DrawRegs.Output) :
    load (sizeOf a.regs.ctx.frame.format) (a.after (drawTables T) out m)
        (a.regs.frameAddr (drawTables T) p.1 p.2) =
      load (sizeOf a.regs.ctx.frame.format) m (a.regs.frameAddr (drawTables T) p.1 p.2) ∧
    load (sizeOf a.regs.ctx.zbuf.format) (a.after (drawTables T) out m)
        (a.regs.depthAddr (drawTables T) p.1 p.2) =
      load (sizeOf a.regs.ctx.zbuf.format) m (a.regs.depthAddr (drawTables T) p.1 p.2) := by
  obtain ⟨frame, depth⟩ := out
  have hframe := hs.frame_apart (T := T) ha hp hne.symm
  have hdepth := hs.depth_apart (T := T) ha hp hne.symm
  have hcross := hs.buffers_apart (T := T) ha hp
  have hcross' := hs.buffers_apart (T := T) hp ha
  unfold PixelDraw.after
  dsimp only
  constructor
  · cases depth <;> cases frame <;>
      simp only [Option.elim_none, Option.elim_some, load_store_apart hframe,
        load_store_apart hcross'.symm]
  · cases depth <;> cases frame <;>
      simp only [Option.elim_none, Option.elim_some, load_store_apart hdepth, load_store_apart hcross]

/-- What no part of the pixel is is as before. -/
theorem after_untouched {q : ℕ} (hq : ¬ a.Touches T q) (m : Bytes) (out : DrawRegs.Output) :
    a.after T out m q = m q := by
  obtain ⟨frame, depth⟩ := out
  unfold PixelDraw.Touches at hq
  dsimp only at hq
  rw [not_or] at hq
  unfold PixelDraw.after
  dsimp only
  cases depth <;> cases frame
  · rfl
  · exact store_apply (by omega)
  · exact store_apply (by omega)
  · rw [Option.elim_some, store_apply (by omega)]
    exact store_apply (by omega)

/-! ### Any number of draws -/

/-- **The pixels do not interfere.** -/
theorem cells_draw (hs : Surface r height) :
    Cells (draw (drawTables T)) (PixelDraw.Onto r height) PixelDraw.place (pixel (drawTables T) r) PixelDraw.act
      (r.Shows height) := by
  refine ⟨fun m a ha => ?_, fun m a m' ha hdraw => ?_, fun m a m' p ha hdraw hp hne => ?_⟩
  · obtain ⟨out, -, -, hdraw⟩ := draw_eq (T := drawTables T) (hs.same ha.1) m
    exact ⟨_, hdraw⟩
  · have hs' := hs.same ha.1
    have hplace : a.regs.Shows height a.place := ⟨ha.1.width ▸ ha.2.1, ha.2.2⟩
    obtain ⟨out, hshade, hz, hafter⟩ := draw_eq (T := drawTables T) hs' m
    rw [hafter] at hdraw
    cases hdraw
    rw [← ha.1.pixel_eq hs, ← ha.1.pixel_eq hs]
    unfold PixelDraw.act
    rw [hshade, Option.map_some, Option.getD_some, pixel_eq hs', pixel_eq hs',
      load_frame_after hs' hplace, load_depth_after hs' hplace m hz]
  · have hs' := hs.same ha.1
    have hplace : a.regs.Shows height a.place := ⟨ha.1.width ▸ ha.2.1, ha.2.2⟩
    have hp' : a.regs.Shows height p := ⟨ha.1.width ▸ hp.1, hp.2⟩
    obtain ⟨out, -, -, hafter⟩ := draw_eq (T := drawTables T) hs' m
    rw [hafter] at hdraw
    cases hdraw
    obtain ⟨hframe, hdepth⟩ := load_after_apart (T := T) hs' hplace hp' hne m out
    rw [← ha.1.pixel_eq hs, ← ha.1.pixel_eq hs, pixel_eq hs', pixel_eq hs', hframe, hdepth]

/-- **Draws run, pixel by pixel.** -/
theorem run_pixels (hs : Surface r height) {l : List PixelDraw} (hl : ∀ a ∈ l, a.Onto r height)
    (hrun : l.foldlM (draw (drawTables T)) m = some m') (hp : r.Shows height p) :
    pixel (drawTables T) r p m' =
      (l.filter fun a => a.place = p).foldl PixelDraw.act (pixel (drawTables T) r p m) := by
  obtain ⟨m₁, hrun', hview⟩ := (cells_draw hs).run hl m
  rw [hrun] at hrun'
  cases hrun'
  exact hview p hp

/-- What no draw touches keeps its value. -/
theorem run_untouched (hs : Surface r height) {l : List PixelDraw} (hl : ∀ a ∈ l, a.Onto r height)
    (hrun : l.foldlM (draw T) m = some m') {q : ℕ} (hq : ∀ a ∈ l, ¬ a.Touches T q) :
    m' q = m q := by
  induction l generalizing m with
  | nil =>
    cases hrun
    rfl
  | cons a l ih =>
    rw [List.foldlM_cons] at hrun
    obtain ⟨out, -, -, hafter⟩ := draw_eq (T := T) (hs.same (hl a List.mem_cons_self).1) m
    rw [hafter] at hrun
    rw [ih (fun b hb => hl b (List.mem_cons_of_mem a hb)) hrun
      fun b hb => hq b (List.mem_cons_of_mem a hb)]
    exact after_untouched (hq a List.mem_cons_self) m out

/-! ### Nearest -/

/-- A draw that does not look at what it covers, but for the depth test. -/
structure PixelDraw.Plain (strict : Bool) (a : PixelDraw) : Prop where
  depth_test : a.regs.ctx.test.depthTest = true
  method : a.regs.ctx.test.depthMethod = if strict then 3 else 2
  updates : a.regs.ctx.zbuf.noUpdate = false
  fails : a.regs.ctx.test.alphaTest = true → a.regs.ctx.test.alphaFailMethod = 0
  dest_alpha : a.regs.ctx.test.destAlphaTest = false
  mask : a.regs.ctx.frame.mask = 0
  blend : a.regs.mode.alphaBlend = false

/-- The depth and the color that are there if nothing nearer is. -/
def PixelDraw.candidate (a : PixelDraw) : Option (ℕ × ℕ) :=
  if a.regs.scanMasked a.place.2 || (a.regs.ctx.test.alphaTest && a.regs.alphaFails a.color) then none
  else some (a.regs.clampDepth a.z.toNat, shownColor a.regs.ctx.frame.format
    (a.regs.finalColor a.place.1 a.place.2 a.color true 0))

theorem finalColor_plain {strict : Bool} (h : a.Plain strict) (x y c : ℕ) :
    a.regs.finalColor x y a.color true c = a.regs.finalColor x y a.color true 0 := by
  have hblends : a.regs.blends a.color = false := by
    unfold DrawRegs.blends
    rw [h.blend, Bool.false_and]
  have hchannel : ∀ source shift, a.regs.finalChannel x y a.color c source shift =
      a.regs.finalChannel x y a.color 0 source shift := by
    intro source shift
    unfold DrawRegs.finalChannel
    rw [hblends]
    rfl
  unfold DrawRegs.finalColor DrawRegs.unmaskedColor
  rw [hchannel, hchannel, hchannel, h.mask, show (0 : BitVec 32).toNat = 0 from rfl, Nat.and_zero, Nat.and_zero]
  rfl

theorem depthTest_eq {strict : Bool} {z d : ℕ}
    (h : r.ctx.test.depthMethod = if strict then 3 else 2) :
    r.depthTest z (some d) = some (decide (Passes strict d (r.clampDepth z))) := by
  unfold DrawRegs.depthTest
  rw [h]
  cases strict <;> rfl

/-- A plain draw keeps what is nearer. -/
theorem act_plain {strict : Bool} (h : a.Plain strict) (v : ℕ × ℕ) :
    (PixelDraw.act v a).swap = a.candidate.elim v.swap (keep strict v.swap) := by
  obtain ⟨c, d⟩ := v
  have hnothing : ((some (⟨none, none⟩ : DrawRegs.Output)).map fun out =>
      (out.frame.elim c (shownColor a.regs.ctx.frame.format),
        out.depth.elim d a.regs.clampDepth)).getD (c, d) = (c, d) := rfl
  unfold PixelDraw.act PixelDraw.candidate DrawRegs.shade
  by_cases hscan : a.regs.scanMasked a.place.2 = true
  · rw [if_pos hscan, hscan, Bool.true_or, if_pos rfl, hnothing]
    rfl
  · rw [if_neg hscan, Bool.eq_false_iff.mpr hscan, Bool.false_or]
    by_cases hfails : (a.regs.ctx.test.alphaTest && a.regs.alphaFails a.color) = true
    · have htest : a.regs.alphaTest a.color = none := by
        unfold DrawRegs.alphaTest
        rw [if_pos hfails, h.fails (Bool.and_eq_true_iff.mp hfails).1]
        rfl
      rw [htest, if_pos hfails, hnothing]
      rfl
    · have htest : a.regs.alphaTest a.color = some ⟨true, true, true⟩ := by
        unfold DrawRegs.alphaTest
        rw [if_neg hfails, h.updates]
        rfl
      rw [htest, if_neg hfails]
      dsimp only
      rw [if_pos h.depth_test, depthTest_eq h.method, Option.bind_some]
      have hpassed : a.regs.passed a.place.1 a.place.2 a.z.toNat a.color ⟨true, true, true⟩ (some c) =
          some ⟨some (a.regs.finalColor a.place.1 a.place.2 a.color true 0), some a.z.toNat⟩ := by
        unfold DrawRegs.passed
        rw [h.dest_alpha, Bool.false_and, if_neg Bool.false_ne_true, ← finalColor_plain h _ _ c]
        rfl
      rw [hpassed, Option.elim_some]
      unfold keep
      by_cases hpass : Passes strict d (a.regs.clampDepth a.z.toNat)
      · rw [decide_eq_true hpass, if_pos rfl]
        exact (if_pos hpass).symm
      · rw [decide_eq_false hpass, if_neg Bool.false_ne_true, hnothing]
        exact (if_neg hpass).symm

/-- What plain draws leave of a pixel. -/
theorem foldl_plain {strict : Bool} {l : List PixelDraw} (h : ∀ a ∈ l, a.Plain strict) (v : ℕ × ℕ) :
    (l.foldl PixelDraw.act v).swap = (l.filterMap PixelDraw.candidate).foldl (keep strict) v.swap := by
  induction l generalizing v with
  | nil => rfl
  | cons a l ih =>
    rw [List.foldl_cons, ih (fun b hb => h b (List.mem_cons_of_mem a hb)),
      act_plain (h a List.mem_cons_self)]
    cases hc : a.candidate with
    | none => rw [List.filterMap_cons_none hc, Option.elim_none]
    | some q => rw [List.filterMap_cons_some hc, Option.elim_some, List.foldl_cons]

/-! ### Masks and depths -/

theorem testBit_shownColor {f : BitVec 6} {c c' i : ℕ} (h : c.testBit i = c'.testBit i) :
    (shownColor f c).testBit i = (shownColor f c').testBit i := by
  unfold shownColor
  split_ifs
  · rw [Nat.testBit_and, Nat.testBit_and, h]
  · rw [Nat.testBit_or, Nat.testBit_or, Nat.testBit_and, Nat.testBit_and, h]
  · rw [Nat.testBit_and, Nat.testBit_and, h]

theorem convertColorUp_and (c : ℕ) : convertColorUp c &&& 0x80F8F8F8 = convertColorUp c := by
  unfold convertColorUp
  simp only [Nat.shiftLeft_and_distrib, Nat.and_or_distrib_right, Nat.and_assoc]
  rfl

/-- A color that was read is written as it is. -/
theorem shownColor_decode {f : BitVec 6} (h : supported f = true) {raw : ℕ}
    (hraw : raw < 256 ^ sizeOf f) : shownColor f (decodeColor f raw) = decodeColor f raw := by
  have hword : raw < 256 ^ 4 → raw &&& 0xFFFFFFFF = raw := fun hlt => by
    rw [and_mask (show 0xFFFFFFFF = 2 ^ 32 - 1 from rfl)]
    exact Nat.mod_eq_of_lt hlt
  have hcolor : (((raw &&& 0xFFFFFF) ||| 1 <<< 31) &&& 0xFFFFFF) ||| 1 <<< 31 =
      (raw &&& 0xFFFFFF) ||| 1 <<< 31 := by
    rw [Nat.and_or_distrib_right, Nat.and_assoc, Nat.and_self,
      show 1 <<< 31 &&& 0xFFFFFF = 0 from rfl, Nat.or_zero]
  rcases supported_cases h with rfl | rfl | rfl | rfl | rfl | rfl | rfl | rfl
  · exact hword hraw
  · exact hcolor
  · exact convertColorUp_and raw
  · exact convertColorUp_and raw
  · exact hword hraw
  · exact hcolor
  · exact convertColorUp_and raw
  · exact convertColorUp_and raw

theorem shownColor_shown {f : BitVec 6} (h : supported f = true) (c : ℕ) :
    shownColor f (shownColor f c) = shownColor f c := by
  have hread : decodeColor f (encodeColor f 0 c % 256 ^ sizeOf f) = shownColor f c :=
    decode_encodeColor h
  have hlt : encodeColor f 0 c % 256 ^ sizeOf f < 256 ^ sizeOf f :=
    Nat.mod_lt _ (Nat.pow_pos (by decide))
  rw [← hread, shownColor_decode h hlt]

/-- A color that has the bits of its format only. -/
def Fits (r : DrawRegs) (c : ℕ) : Prop := shownColor r.ctx.frame.format c = c

theorem fits_pixel (hs : Surface r height) (p : ℕ × ℕ) (m : Bytes) : Fits r (pixel T r p m).1 := by
  rw [pixel_eq hs]
  exact shownColor_decode hs.frame_format load_lt

/-- What is written is a color of the pixel or nothing, and a depth that passed or nothing. -/
structure Written (r : DrawRegs) (x y z : ℕ) (color : Color) (c d : ℕ) (out : DrawRegs.Output) :
    Prop where
  frame : ∀ c', out.frame = some c' → ∃ update, c' = r.finalColor x y color update c
  depth : out.depth ≠ none → r.ctx.test.depthTest = true ∧ r.ctx.zbuf.noUpdate = false ∧
    r.depthTest z (some d) = some true

theorem alphaTest_z {color : Color} {updates : DrawRegs.Updates}
    (h : r.alphaTest color = some updates) (hz : updates.z = true) : r.ctx.zbuf.noUpdate = false := by
  have hfalse : ∀ {frame alpha}, some (⟨frame, alpha, false⟩ : DrawRegs.Updates) ≠ some updates := by
    rintro frame alpha ⟨⟩
    exact Bool.false_ne_true hz
  unfold DrawRegs.alphaTest at h
  dsimp only at h
  split at h
  · split at h
    · cases h
    · exact absurd h hfalse
    · cases h
      exact Bool.not_eq_true' _ ▸ hz
    · exact absurd h hfalse
  · cases h
    exact Bool.not_eq_true' _ ▸ hz

theorem passed_written {x y z : ℕ} {color : Color} {updates : DrawRegs.Updates} {c : ℕ}
    {out : DrawRegs.Output} (h : r.passed x y z color updates (some c) = some out) :
    (∀ c', out.frame = some c' → ∃ update, c' = r.finalColor x y color update c) ∧
      (out.depth ≠ none → updates.z = true) := by
  unfold DrawRegs.passed at h
  simp only [Option.map_some, Option.bind_some] at h
  split_ifs at h
  all_goals
    cases h
    refine ⟨fun c' hc' => ?_, fun hd => ?_⟩
    · cases hc' <;> exact ⟨updates.alpha, rfl⟩
    · first | assumption | exact absurd rfl hd

theorem shade_written {x y z : ℕ} {color : Color} {c d : ℕ} {out : DrawRegs.Output}
    (h : r.shade x y z color (some c) (some d) = some out) : Written r x y z color c d out := by
  have hnothing : Written r x y z color c d ⟨none, none⟩ := by
    constructor
    · intro c' hc'
      cases hc'
    · exact absurd rfl
  unfold DrawRegs.shade at h
  by_cases hscan : r.scanMasked y = true
  · rw [if_pos hscan] at h
    cases h
    exact hnothing
  · rw [if_neg hscan] at h
    cases hupdates : r.alphaTest color with
    | none =>
      rw [hupdates] at h
      cases h
      exact hnothing
    | some updates =>
      rw [hupdates] at h
      dsimp only at h
      by_cases htest : r.ctx.test.depthTest = true
      · rw [if_pos htest] at h
        obtain ⟨pass, hpass, h⟩ := Option.bind_eq_some_iff.mp h
        cases pass
        · cases h
          exact hnothing
        · exact ⟨(passed_written h).1,
            fun hd => ⟨htest, alphaTest_z hupdates ((passed_written h).2 hd), hpass⟩⟩
      · rw [if_neg htest] at h
        exact ⟨(passed_written h).1, fun hd => absurd ((passed_written h).2 hd) Bool.false_ne_true⟩

/-- A masked bit of what is written is that of the frame. -/
theorem testBit_finalColor {i : ℕ} (hi : r.ctx.frame.mask.getLsbD i = true) (x y : ℕ) (color : Color)
    (update : Bool) (c : ℕ) : (r.finalColor x y color update c).testBit i = c.testBit i := by
  have hmask : r.ctx.frame.mask.toNat.testBit i = true := hi
  have hnot : (~~~r.ctx.frame.mask).toNat.testBit i = false := by
    change (~~~r.ctx.frame.mask).getLsbD i = false
    rw [BitVec.getLsbD_not, hi, Bool.not_true, Bool.and_false]
  unfold DrawRegs.finalColor
  rw [Nat.testBit_or, Nat.testBit_and, Nat.testBit_and, hmask, hnot, Bool.and_false, Bool.false_or,
    Bool.and_true]

/-- What a draw makes of a pixel. -/
theorem act_eq (a : PixelDraw) (c d : ℕ) :
    ∃ out, Written a.regs a.place.1 a.place.2 a.z.toNat a.color c d out ∧
      (∀ d', out.depth = some d' → d' = a.z.toNat) ∧
      PixelDraw.act (c, d) a = (out.frame.elim c (shownColor a.regs.ctx.frame.format),
        out.depth.elim d a.regs.clampDepth) := by
  obtain ⟨out, hout, hz⟩ := shade_some (r := a.regs) a.place.1 a.place.2 a.z.toNat a.color c d
  refine ⟨out, shade_written hout, hz, ?_⟩
  unfold PixelDraw.act
  rw [hout]
  rfl

/-- A draw keeps a masked bit, and the color remains one of the format. -/
theorem act_masked {i : ℕ} (ha : SameBuffers r a.regs) (hf : supported r.ctx.frame.format = true)
    (hi : a.regs.ctx.frame.mask.getLsbD i = true) {v : ℕ × ℕ} (hv : Fits r v.1) :
    (PixelDraw.act v a).1.testBit i = v.1.testBit i ∧ Fits r (PixelDraw.act v a).1 := by
  obtain ⟨c, d⟩ := v
  obtain ⟨⟨frame, depth⟩, hwritten, -, hact⟩ := act_eq a c d
  rw [hact, ha.frame_format]
  cases frame with
  | none => exact ⟨rfl, hv⟩
  | some c' =>
    obtain ⟨update, rfl⟩ := hwritten.frame c' rfl
    constructor
    · exact (testBit_shownColor (testBit_finalColor hi _ _ _ _ c)).trans
        (congrArg (Nat.testBit · i) hv)
    · exact shownColor_shown hf _

/-- The test admits a depth only if it is no farther, or admits all of them. -/
def PixelDraw.Orders (a : PixelDraw) : Prop :=
  a.regs.ctx.test.depthTest = true → a.regs.ctx.zbuf.noUpdate = false →
    a.regs.ctx.test.depthMethod ≠ 1

theorem depthTest_le {z d : ℕ} (h : r.ctx.test.depthMethod ≠ 1)
    (hpass : r.depthTest z (some d) = some true) : d ≤ r.clampDepth z := by
  unfold DrawRegs.depthTest at hpass
  split at hpass
  · cases hpass
  · exact absurd ‹_› h
  · exact of_decide_eq_true (Option.some.inj hpass)
  · exact Nat.le_of_lt (of_decide_eq_true (Option.some.inj hpass))

theorem act_depth_le (ha : a.Orders) (v : ℕ × ℕ) : v.2 ≤ (PixelDraw.act v a).2 := by
  obtain ⟨c, d⟩ := v
  obtain ⟨⟨frame, depth⟩, hwritten, hz, hact⟩ := act_eq a c d
  rw [hact]
  cases depth with
  | none => exact Nat.le_refl d
  | some d' =>
    obtain rfl := hz d' rfl
    obtain ⟨htest, hupdate, hpass⟩ := hwritten.depth (Option.some_ne_none _)
    exact depthTest_le (ha htest hupdate) hpass

end

/-! ### What is drawn -/

/-- **Draws of a picture are apart**: every pixel is what the draws to it make of it, in their order, and
nothing else changes. -/
theorem draws_apart {T : PageTables} {r : DrawRegs} {height : ℕ} (hs : Surface r height)
    {l : List PixelDraw} (hl : ∀ a ∈ l, a.Onto r height) (m : Bytes) :
    ∃ m', l.foldlM (draw (drawTables T)) m = some m' ∧
      (∀ p, r.Shows height p → pixel (drawTables T) r p m' =
        (l.filter fun a => a.place = p).foldl PixelDraw.act (pixel (drawTables T) r p m)) ∧
      ∀ q, (∀ a ∈ l, ¬ a.Touches (drawTables T) q) → m' q = m q := by
  obtain ⟨m', hrun, -⟩ := (cells_draw (T := T) hs).run hl m
  exact ⟨m', hrun, fun p hp => run_pixels hs hl hrun hp, fun q hq => run_untouched hs hl hrun hq⟩

/-- A picture of one page, with the depths in the next one. -/
def panel (mask : BitVec 32) : DrawRegs :=
  { blankRegs with
    context1 :=
      { GSContext.blank with
        test := { GSContext.blank.test with depthTest := true, depthMethod := 2 }
        frame := ⟨0, 64, 0x00, mask⟩
        zbuf := ⟨8192, 0x30, false⟩ } }

theorem surface_panel (mask : BitVec 32) : Surface (panel mask) 32 := by
  have hpage : ∀ p x y : ℕ, x < 64 → y < 32 → pageOf 32 (p * 8192 / 8192) (64 / 64) x y = p := by
    intro p x y hx hy
    unfold pageOf
    omega
  refine ⟨rfl, rfl, rfl, (show 8192 % 8192 = 0 from rfl), (show 64 % 64 = 0 from rfl),
    fun x y hx hy => ?_, fun x y hx hy => ?_, fun x y x' y' hx hy hx' hy' => ?_⟩
  · exact lt_of_eq_of_lt (hpage 0 x y hx hy) (by decide)
  · exact lt_of_eq_of_lt (hpage 1 x y hx hy) (by decide)
  · exact (hpage 0 x y hx hy).trans_ne (((hpage 1 x' y' hx' hy').trans_ne Nat.one_ne_zero).symm)

/-- A draw to the pixel (3, 2). -/
def dot (mask : BitVec 32) (z : BitVec 32) : PixelDraw := ⟨panel mask, 48, 32, z, ⟨255, 128, 64, 32⟩⟩

theorem onto_dots (mask : BitVec 32) : ∀ a ∈ [dot mask 7, dot mask 5], a.Onto (panel mask) 32 := by
  have hdot : ∀ z, (dot mask z).Onto (panel mask) 32 := by
    refine fun z => ⟨⟨rfl, rfl, rfl, rfl, rfl⟩, ?_, ?_⟩
    · change 48 >>> 4 < 64
      decide
    · change 32 >>> 4 < 32
      decide
  intro a ha
  rcases List.mem_pair.mp ha with rfl | rfl
  · exact hdot 7
  · exact hdot 5

theorem run_dots (mask : BitVec 32) :
    ∃ m', [dot mask 7, dot mask 5].foldlM (draw (drawTables blankTables)) (fun _ => 0) = some m' := by
  obtain ⟨m', hrun, -⟩ := (cells_draw (T := blankTables) (surface_panel mask)).run (onto_dots mask) _
  exact ⟨m', hrun⟩

/-- The dots are drawn, and the last pixel of the page is as before. -/
theorem draws_apart_dots :
    ∃ m', [dot 0 7, dot 0 5].foldlM (draw (drawTables blankTables)) (fun _ => 0) = some m' ∧
      pixel (drawTables blankTables) (panel 0) (63, 31) m' =
        pixel (drawTables blankTables) (panel 0) (63, 31) fun _ => 0 := by
  obtain ⟨m', hrun, hpixels, -⟩ := draws_apart (T := blankTables) (surface_panel 0) (onto_dots 0) _
  refine ⟨m', hrun, ?_⟩
  rw [hpixels (63, 31) ⟨Nat.lt_succ_self 63, Nat.lt_succ_self 31⟩]
  rfl

/-- **The nearest pixel is shown**, the last or the first of several, and if all depths differ then the
order of the draws is no matter. -/
theorem nearest_shown {T : PageTables} {r : DrawRegs} {height : ℕ} (hs : Surface r height)
    {strict : Bool} {l : List PixelDraw} (hl : ∀ a ∈ l, a.Onto r height) (hplain : ∀ a ∈ l, a.Plain strict)
    {m m' : Bytes} (hrun : l.foldlM (draw (drawTables T)) m = some m') {p : ℕ × ℕ}
    (hp : r.Shows height p) :
    let before := (pixel (drawTables T) r p m).swap
    let candidates := (l.filter fun a => a.place = p).filterMap PixelDraw.candidate
    Shown strict before candidates (pixel (drawTables T) r p m').swap ∧
      (((before :: candidates).map Prod.fst).Nodup → ∀ l' m'', l.Perm l' →
        l'.foldlM (draw (drawTables T)) m = some m'' →
          pixel (drawTables T) r p m'' = pixel (drawTables T) r p m') := by
  have hleft : ∀ (l' : List PixelDraw) (m'' : Bytes), (∀ a ∈ l', a.Onto r height) →
      (∀ a ∈ l', a.Plain strict) →
      l'.foldlM (draw (drawTables T)) m = some m'' → (pixel (drawTables T) r p m'').swap =
        ((l'.filter fun a => a.place = p).filterMap PixelDraw.candidate).foldl (keep strict)
          (pixel (drawTables T) r p m).swap := by
    intro l' m'' hl' hplain' hrun'
    rw [run_pixels hs hl' hrun' hp]
    exact foldl_plain (fun a ha => hplain' a (List.mem_of_mem_filter ha)) _
  refine ⟨?_, fun hd l' m'' hperm hrun' => ?_⟩
  · rw [hleft l m' hl hplain hrun]
    exact shown_foldl _ _
  · refine Prod.swap_injective ?_
    rw [hleft l m' hl hplain hrun, hleft l' m'' (fun a ha => hl a (hperm.mem_iff.2 ha))
      (fun a ha => hplain a (hperm.mem_iff.2 ha)) hrun']
    exact (foldl_keep_perm ((hperm.filter _).filterMap _) hd).symm

/-- The farther dot is drawn last, and the nearer one is shown. -/
theorem nearest_shown_dots : ∃ m',
    [dot 0 7, dot 0 5].foldlM (draw (drawTables blankTables)) (fun _ => 0) = some m' ∧
      (pixel (drawTables blankTables) (panel 0) (3, 2) m').2 = 7 := by
  obtain ⟨m', hrun⟩ := run_dots 0
  have hplain : ∀ a ∈ [dot 0 7, dot 0 5], a.Plain false := by
    intro a ha
    rcases List.mem_pair.mp ha with rfl | rfl
    · exact ⟨rfl, rfl, rfl, fun _ => rfl, rfl, rfl, rfl⟩
    · exact ⟨rfl, rfl, rfl, fun _ => rfl, rfl, rfl, rfl⟩
  obtain ⟨hshown, -⟩ := nearest_shown (T := blankTables) (surface_panel 0) (onto_dots 0) hplain hrun
    (p := (3, 2)) ⟨show 3 < 64 by decide, show 2 < 32 by decide⟩
  have hdepths : (([dot 0 7, dot 0 5].filter fun a => a.place = (3, 2)).filterMap
      PixelDraw.candidate).map Prod.fst = [7, 5] := by decide
  have hbefore : (pixel (drawTables blankTables) (panel 0) (3, 2) fun _ => 0).2 = 0 := rfl
  have hmem := List.mem_map_of_mem (f := Prod.fst) hshown.mem
  have hnearest : ∀ z ∈ [7, 5], z ≤ (pixel (drawTables blankTables) (panel 0) (3, 2) m').2 := by
    intro z hz
    rw [← hdepths] at hz
    obtain ⟨q, hq, rfl⟩ := List.mem_map.mp hz
    exact hshown.nearest q (List.mem_cons_of_mem _ hq)
  rw [List.map_cons, hdepths, Prod.fst_swap, Prod.fst_swap, hbefore] at hmem
  have h7 := hnearest 7 List.mem_cons_self
  refine ⟨m', hrun, ?_⟩
  rcases List.mem_cons.mp hmem with h0 | h75
  · omega
  · rcases List.mem_pair.mp h75 with h7' | h5
    · exact h7'
    · omega

/-- **A masked bit is kept** by any number of draws, in every format. -/
theorem masked_kept {T : PageTables} {r : DrawRegs} {height : ℕ} (hs : Surface r height) {i : ℕ}
    {l : List PixelDraw} (hl : ∀ a ∈ l, a.Onto r height)
    (hmask : ∀ a ∈ l, a.regs.ctx.frame.mask.getLsbD i = true) {m m' : Bytes}
    (hrun : l.foldlM (draw (drawTables T)) m = some m') {p : ℕ × ℕ} (hp : r.Shows height p) :
    (pixel (drawTables T) r p m').1.testBit i = (pixel (drawTables T) r p m).1.testBit i := by
  rw [run_pixels hs hl hrun hp]
  have hfits := fits_pixel (T := drawTables T) hs p m
  have hfilter : ∀ a ∈ l.filter fun a => a.place = p, a ∈ l := fun a => List.mem_of_mem_filter
  generalize l.filter (fun a => a.place = p) = l₁ at hfilter
  generalize pixel (drawTables T) r p m = v at hfits
  induction l₁ generalizing v with
  | nil => rfl
  | cons a l₁ ih =>
    have ha := hfilter a List.mem_cons_self
    obtain ⟨hbit, hfits'⟩ := act_masked (hl a ha).1 hs.frame_format (hmask a ha) hfits
    rw [List.foldl_cons, ← hbit]
    exact ih (fun b hb => hfilter b (List.mem_cons_of_mem a hb)) _ hfits'

/-- The bits of alpha are masked. -/
theorem masked_kept_dots : ∃ m',
    [dot 0xFF000000 7, dot 0xFF000000 5].foldlM (draw (drawTables blankTables)) (fun _ => 0) = some m' ∧
      (pixel (drawTables blankTables) (panel 0xFF000000) (3, 2) m').1.testBit 24 =
        (pixel (drawTables blankTables) (panel 0xFF000000) (3, 2) fun _ => 0).1.testBit 24 := by
  obtain ⟨m', hrun⟩ := run_dots 0xFF000000
  refine ⟨m', hrun, masked_kept (surface_panel _) (onto_dots _) (fun a ha => ?_) hrun
    ⟨show 3 < 64 by decide, show 2 < 32 by decide⟩⟩
  rcases List.mem_pair.mp ha with rfl | rfl
  · rfl
  · rfl

/-- **No pixel moves away**, whatever is drawn, unless a test that is always passed writes a depth. -/
theorem depth_never_falls {T : PageTables} {r : DrawRegs} {height : ℕ} (hs : Surface r height)
    {l : List PixelDraw} (hl : ∀ a ∈ l, a.Onto r height) (horders : ∀ a ∈ l, a.Orders) {m m' : Bytes}
    (hrun : l.foldlM (draw (drawTables T)) m = some m') {p : ℕ × ℕ} (hp : r.Shows height p) :
    (pixel (drawTables T) r p m).2 ≤ (pixel (drawTables T) r p m').2 := by
  rw [run_pixels hs hl hrun hp]
  have hfilter : ∀ a ∈ l.filter fun a => a.place = p, a ∈ l := fun a => List.mem_of_mem_filter
  generalize l.filter (fun a => a.place = p) = l₁ at hfilter
  generalize pixel (drawTables T) r p m = v
  induction l₁ generalizing v with
  | nil => exact Nat.le_refl _
  | cons a l₁ ih =>
    rw [List.foldl_cons]
    exact (act_depth_le (horders a (hfilter a List.mem_cons_self)) v).trans
      (ih (fun b hb => hfilter b (List.mem_cons_of_mem a hb)) _)

theorem depth_never_falls_dots : ∃ m',
    [dot 0 7, dot 0 5].foldlM (draw (drawTables blankTables)) (fun _ => 0) = some m' ∧
      (pixel (drawTables blankTables) (panel 0) (3, 2) fun _ => 0).2 ≤
        (pixel (drawTables blankTables) (panel 0) (3, 2) m').2 := by
  obtain ⟨m', hrun⟩ := run_dots 0
  refine ⟨m', hrun, depth_never_falls (surface_panel _) (onto_dots _) (fun a ha => ?_) hrun
    ⟨show 3 < 64 by decide, show 2 < 32 by decide⟩⟩
  rcases List.mem_pair.mp ha with rfl | rfl
  · exact fun _ _ => (by decide : (2 : BitVec 2) ≠ 1)
  · exact fun _ _ => (by decide : (2 : BitVec 2) ≠ 1)

end DobieStation.GsThread
