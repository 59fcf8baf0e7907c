import DobieStation.Gs.Buffers
import DobieStation.Gs.CRT
import DobieStation.GsThread.PixelJit

/-! # One pixel is drawn

The translation of `draw_pixel` with the depth test and the functions it calls. Both buffers are read before
one is written, so that what is drawn (`shade`) is a matter of the registers, the pixel that is drawn and
what the two buffers have at its place. `none` is `Errors::die`. The components of a color are as
small as they are in the source, where no product of them overflows. -/

namespace DobieStation.GsThread

open DobieStation.Lib.Memory DobieStation.Gs.Model
open DobieStation.Gs.CRT (convertColorUp)

structure Color where
  r : BitVec 16
  g : BitVec 16
  b : BitVec 16
  a : BitVec 16
  deriving DecidableEq, Repr

/-! ### The buffers -/

def convertColorDown (col : ℕ) : ℕ :=
  let r := (col &&& 0xFF) >>> 3
  let g := ((col >>> 8) &&& 0xFF) >>> 3
  let b := ((col >>> 16) &&& 0xFF) >>> 3
  let a := ((col >>> 24) &&& 0xFF) >>> 7
  r ||| (g <<< 5) ||| (b <<< 10) ||| (a <<< 15)

section
variable (T : PageTables)

def writePSMCT32ZBlock (base width x y value : ℕ) (m : Bytes) : Bytes :=
  store 4 m (addrPSMCT32Z T.toTables (base / 256) (width / 64) x y) value

def writePSMCT16ZBlock (base width x y value : ℕ) (m : Bytes) : Bytes :=
  store 2 m (addrPSMCT16Z T (base / 256) (width / 64) x y) value

def writePSMCT16SZBlock (base width x y value : ℕ) (m : Bytes) : Bytes :=
  store 2 m (addrPSMCT16SZ T (base / 256) (width / 64) x y) value

namespace DrawRegs

variable (r : DrawRegs) (x y : ℕ)

/-- What is read of the frame buffer; `frame_color` keeps it for one pixel. -/
def lookupFrameColor (m : Bytes) : Option ℕ :=
  let base := r.ctx.frame.basePointer
  let width := r.ctx.frame.width
  match r.ctx.frame.format with
  | 0x0 => some (readPSMCT32Block T.toTables base width x y m)
  | 0x1 => some ((readPSMCT32Block T.toTables base width x y m &&& 0xFFFFFF) ||| (1 <<< 31))
  | 0x2 => some (convertColorUp (readPSMCT16Block T base width x y m))
  | 0xA => some (convertColorUp (readPSMCT16SBlock T base width x y m))
  | 0x30 => some (readPSMCT32ZBlock T base width x y m)
  | 0x31 => some ((readPSMCT32ZBlock T base width x y m &&& 0xFFFFFF) ||| (1 <<< 31))
  | 0x32 => some (convertColorUp (readPSMCT16ZBlock T base width x y m))
  | 0x3A => some (convertColorUp (readPSMCT16SZBlock T base width x y m))
  | _ => none

def writeFrame (color : ℕ) (m : Bytes) : Option Bytes :=
  let base := r.ctx.frame.basePointer
  let width := r.ctx.frame.width
  match r.ctx.frame.format with
  | 0x0 => some (writePSMCT32Block T.toTables base width x y color m)
  | 0x1 => some (writePSMCT24Block T.toTables base width x y color m)
  | 0x2 => some (writePSMCT16Block T.toTables base width x y (convertColorDown color) m)
  | 0xA => some (writePSMCT16SBlock T.toTables base width x y (convertColorDown color) m)
  | 0x30 => some (writePSMCT32ZBlock T base width x y color m)
  | 0x31 => some (writePSMCT24ZBlock T.toTables base width x y color m)
  | 0x32 => some (writePSMCT16ZBlock T base width x y (convertColorDown color) m)
  | 0x3A => some (writePSMCT16SZBlock T base width x y (convertColorDown color) m)
  | _ => none

/-- The depth that the test compares with. -/
def readDepth (m : Bytes) : Option ℕ :=
  let base := r.ctx.zbuf.basePointer
  let width := r.ctx.frame.width
  match r.ctx.zbuf.format with
  | 0x00 => some (readPSMCT32Block T.toTables base width x y m)
  | 0x01 => some (readPSMCT32Block T.toTables base width x y m &&& 0xFFFFFF)
  | 0x02 => some (readPSMCT16Block T base width x y m)
  | 0x0A => some (readPSMCT16SBlock T base width x y m)
  | 0x30 => some (readPSMCT32ZBlock T base width x y m)
  | 0x31 => some (readPSMCT32ZBlock T base width x y m &&& 0xFFFFFF)
  | 0x32 => some (readPSMCT16ZBlock T base width x y m)
  | 0x3A => some (readPSMCT16SZBlock T base width x y m)
  | _ => none

/-- A depth beyond those of the format is the greatest of them. -/
def clampDepth (z : ℕ) : ℕ :=
  match r.ctx.zbuf.format with
  | 0x01 => min z 0xFFFFFF
  | 0x02 => min z 0xFFFF
  | 0x0A => min z 0xFFFF
  | 0x31 => min z 0xFFFFFF
  | 0x32 => min z 0xFFFF
  | 0x3A => min z 0xFFFF
  | _ => z

/-- An unknown format is not written, and nothing dies. -/
def writeDepth (z : ℕ) (m : Bytes) : Bytes :=
  let base := r.ctx.zbuf.basePointer
  let width := r.ctx.frame.width
  match r.ctx.zbuf.format with
  | 0x00 => writePSMCT32Block T.toTables base width x y z m
  | 0x01 => writePSMCT24Block T.toTables base width x y (r.clampDepth z &&& 0xFFFFFF) m
  | 0x02 => writePSMCT16Block T.toTables base width x y (r.clampDepth z &&& 0xFFFF) m
  | 0x0A => writePSMCT16SBlock T.toTables base width x y (r.clampDepth z &&& 0xFFFF) m
  | 0x30 => writePSMCT32ZBlock T base width x y z m
  | 0x31 => writePSMCT24ZBlock T.toTables base width x y (r.clampDepth z &&& 0xFFFFFF) m
  | 0x32 => writePSMCT16ZBlock T base width x y (r.clampDepth z &&& 0xFFFF) m
  | 0x3A => writePSMCT16SZBlock T base width x y (r.clampDepth z &&& 0xFFFF) m
  | _ => m

end DrawRegs

end

/-! ### What is drawn -/

namespace DrawRegs

variable (r : DrawRegs) (x y z : ℕ) (color : Color)

def is32bitTexture : Bool :=
  match r.ctx.tex0.format with
  | 0 => true
  | 0x13 => r.ctx.tex0.CLUTFormat = 0
  | 0x14 => r.ctx.tex0.CLUTFormat = 0
  | 0x1B => r.ctx.tex0.CLUTFormat = 0
  | 0x24 => r.ctx.tex0.CLUTFormat = 0
  | 0x2C => r.ctx.tex0.CLUTFormat = 0
  | _ => false

/-- "SCANMSK prohibits drawing on even or odd y-coordinates". -/
def scanMasked : Bool :=
  (r.SCANMSK = 2 && y &&& 0x1 = 0) || (r.SCANMSK = 3 && y &&& 0x1 = 1)

def alphaFails : Bool :=
  let a := color.a.toInt
  let ref : ℤ := r.ctx.test.alphaRef.toNat
  match r.ctx.test.alphaMethod with
  | 0 => true
  | 1 => false
  | 2 => ref ≤ a
  | 3 => ref < a
  | 4 => a ≠ ref
  | 5 => a < ref
  | 6 => a ≤ ref
  | _ => a = ref

/-- What a pixel may change: the frame, its alpha, and z. -/
structure Updates where
  frame : Bool
  alpha : Bool
  z : Bool
  deriving DecidableEq, Repr

/-- The alpha test; `none` if nothing is changed. -/
def alphaTest : Option Updates :=
  let updates : Updates := ⟨true, true, !r.ctx.zbuf.noUpdate⟩
  if r.ctx.test.alphaTest && r.alphaFails color then
    match r.ctx.test.alphaFailMethod with
    | 0 => none
    | 1 => some { updates with z := false }
    | 2 => some { updates with frame := false }
    | _ => some { updates with z := false, alpha := !r.is32bitTexture }
  else some updates

/-- `depth` is what is read of the depth buffer, if it is read. -/
def depthTest (depth : Option ℕ) : Option Bool :=
  match r.ctx.test.depthMethod with
  | 0 => some false
  | 1 => some true
  | 2 => depth.map fun d => d ≤ r.clampDepth z
  | _ => depth.map fun d => d < r.clampDepth z

/-- A channel of the operand that a field of ALPHA selects. -/
def operand (spec : BitVec 2) (source dest : ℤ) : ℤ :=
  match spec with
  | 0 => source
  | 1 => dest
  | _ => 0

def blendAlpha (frame : ℕ) : ℤ :=
  match r.ctx.alpha.specC with
  | 0 => color.a.toInt
  | 1 => (frame >>> 24 : ℕ)
  | _ => r.ctx.alpha.fixedAlpha.toNat

/-- "Color values are 9-bit after an alpha blending operation". -/
def blendChannel (alpha source dest : ℤ) : ℤ :=
  ((operand r.ctx.alpha.specA source dest - operand r.ctx.alpha.specB source dest) * alpha) >>> (7 : ℕ) +
    operand r.ctx.alpha.specD source dest

/-- "PABE - MSB of source alpha must be set to enable alpha blending". -/
def blends : Bool := r.mode.alphaBlend && (!r.PABE || color.a &&& 0x80 ≠ 0)

/-- What is added by dithering. -/
def dither : ℤ :=
  if r.DTHE then
    let dither := r.ditherMtx.getD (y % 4 * 4 + x % 4) 0
    let amount : ℤ := (dither &&& 0x3).toNat
    if dither &&& 0x4 ≠ 0 then -(amount + 1) else amount
  else 0

def clampChannel (c : ℤ) : ℕ := if r.COLCLAMP then (min (max c 0) 0xFF).toNat else (c % 0x100).toNat

/-- A channel of the color, of the source and at its place in the color `frame` of the buffer. -/
def finalChannel (frame : ℕ) (source : BitVec 16) (shift : ℕ) : ℕ :=
  let dest : ℤ := ((frame >>> shift) &&& 0xFF : ℕ)
  let c := if r.blends color then
      r.blendChannel (r.blendAlpha color frame) source.toInt dest
    else source.toInt
  r.clampChannel (c + r.dither x y)

/-- "FBA performs 'alpha correction' - MSB of alpha is always set when writing to frame buffer". -/
def finalAlpha (update : Bool) (frame : ℕ) : ℕ :=
  if update then
    (color.a.toNat % 0x100) <<< 24 ||| (if r.ctx.FBA then 1 <<< 31 else 0)
  else frame &&& 0xFF000000

def unmaskedColor (updateAlpha : Bool) (frame : ℕ) : ℕ :=
  r.finalAlpha color updateAlpha frame ||| r.finalChannel x y color frame color.b 16 <<< 16 |||
    r.finalChannel x y color frame color.g 8 <<< 8 ||| r.finalChannel x y color frame color.r 0

def finalColor (updateAlpha : Bool) (frame : ℕ) : ℕ :=
  (r.unmaskedColor x y color updateAlpha frame &&& (~~~r.ctx.frame.mask).toNat) |||
    (frame &&& r.ctx.frame.mask.toNat)

/-- What is written: a color and a depth. -/
structure Output where
  frame : Option ℕ
  depth : Option ℕ
  deriving DecidableEq, Repr

/-- What comes after the depth test. -/
def passed (updates : Updates) (frame : Option ℕ) : Option Output :=
  let written (updates : Updates) : Option Output :=
    if updates.frame then
      frame.map fun f => ⟨some (r.finalColor x y color updates.alpha f),
        if updates.z then some z else none⟩
    else some ⟨none, if updates.z then some z else none⟩
  if r.ctx.test.destAlphaTest && r.ctx.frame.format &&& 0x1 = 0 then
    frame.bind fun f =>
      if r.ctx.test.destAlphaMethod = f.testBit 31 then written updates else some ⟨none, none⟩
  else written updates

/-- What a pixel with this color and depth changes, where the buffers have `frame` and `depth`. -/
def shade (frame depth : Option ℕ) : Option Output :=
  if r.scanMasked y then some ⟨none, none⟩
  else
    match r.alphaTest color with
    | none => some ⟨none, none⟩
    | some updates =>
      if r.ctx.test.depthTest then
        (r.depthTest z depth).bind fun pass =>
          if pass then r.passed x y z color updates frame else some ⟨none, none⟩
      else r.passed x y z color { updates with z := false } frame

/-- `x` and `y` have 4 bits of fraction. -/
def drawPixel (T : PageTables) (m : Bytes) : Option Bytes := do
  let x := x >>> 4
  let y := y >>> 4
  let out ← r.shade x y z color (r.lookupFrameColor T x y m) (r.readDepth T x y m)
  let m ← out.frame.elim (some m) fun c => r.writeFrame T x y c m
  some (out.depth.elim m fun z => r.writeDepth T x y z m)

end DrawRegs

end DobieStation.GsThread
