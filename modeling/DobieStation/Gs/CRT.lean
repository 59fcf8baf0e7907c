import DobieStation.Gs.LocalToHost
import DobieStation.Gs.Registers

/-! # The picture on the screen

`render_CRT` of `gsthread.cpp`, which merges the two display circuits into the buffer of a frame. The accesses
to this buffer and to `screen_buffer` are recorded in `accesses`; no function reads them. -/

namespace DobieStation.Gs.CRT

open DobieStation.Gs.Model DobieStation.Gs.Registers DobieStation.Lib.Memory

/-! ### Colors -/

def convertColorUp (col : ℕ) : ℕ :=
  let r := (col &&& 0x1F) <<< 3
  let g := ((col >>> 5) &&& 0x1F) <<< 3
  let b := ((col >>> 10) &&& 0x1F) <<< 3
  let a := ((col >>> 15) &&& 0x1) <<< 7
  r ||| (g <<< 8) ||| (b <<< 16) ||| (a <<< 24)

variable (T : PageTables) (m : Bytes)

/-- `none` is `Errors::die`. -/
def getCRTColor (dispfb : DISPFB) (x y : ℕ) : Option ℕ :=
  match dispfb.format.toNat with
  | 0x0 => some (readPSMCT32Block T.toTables (dispfb.frameBase * 4) dispfb.width x y m)
  | 0x1 => some ((readPSMCT32Block T.toTables (dispfb.frameBase * 4) dispfb.width x y m &&& 0xFFFFFF) ||| 0xFF000000)
  | 0x2 => some (convertColorUp (readPSMCT16Block T (dispfb.frameBase * 4) dispfb.width x y m))
  | 0xA => some (convertColorUp (readPSMCT16SBlock T (dispfb.frameBase * 4) dispfb.width x y m))
  | _ => none

/-- A channel of both circuits. -/
def blend (alpha c1 c2 : ℕ) : ℕ := min ((c1 * alpha + c2 * (0xFF - alpha)) >>> 8) 0xFF

/-- The red, green or blue of a color. -/
def channel (color shift : ℕ) : ℕ := (color >>> shift) &&& 0xFF

/-- `circuit1` and `circuit2` tell which of the circuits show the pixel. -/
def finalColor (PMODE : PMODE) (circuit1 circuit2 : Bool) (output1 output2 : ℕ) : ℕ :=
  let alpha := min (if PMODE.useALP then PMODE.ALP.toNat else (output1 >>> 24) * 2) 0xFF
  let mix (shift : ℕ) : ℕ :=
    if circuit1 then blend alpha (channel output1 shift) (channel output2 shift)
    else if circuit2 then channel output2 shift
    else 0
  0xFF000000 ||| mix 0 ||| (mix 8 <<< 8) ||| (mix 16 <<< 16)

/-! ### The picture -/

/-- The display is shown from `xStart` and `yStart` on. -/
def isInDisplay (display : DISPLAY) (xStart yStart x y : ℕ) : Bool :=
  (xStart ≤ x && x < xStart + display.width) && (yStart ≤ y && y < yStart + display.height)

variable (r : GSRegisters)

/-- How a picture is made of the registers. -/
structure Frame where
  width : ℕ
  height : ℕ
  yIncrement : ℕ
  startScanline : ℕ
  frameLineIncrement : ℕ
  fbOffset : ℕ
  deriving DecidableEq, Repr

def fieldOffset : Bool := !r.CSR.isOddFrame

/-- The overall size, of the larger circuit. -/
def pictureSize : Option (ℕ × ℕ) :=
  if r.PMODE.circuit1 && r.PMODE.circuit2 then
    some (max r.DISPLAY1.width r.DISPLAY2.width, max r.DISPLAY1.height r.DISPLAY2.height)
  else if r.PMODE.circuit1 then some (r.DISPLAY1.width, r.DISPLAY1.height)
  else if r.PMODE.circuit2 then some (r.DISPLAY2.width, r.DISPLAY2.height)
  else none

/-- "Check for extremely high heights": the comparison with `width * 1.3` is exact for these numbers. -/
def pictureHeight (width height : ℕ) : ℕ := if 13 * width ≤ 10 * height then height / 2 else height

/-- Only one field is drawn anew. -/
def weaves : Bool := r.SMODE2.interlaced && r.deinterlaceMethod ≠ .bob

def frame : Option Frame :=
  (pictureSize r).map fun size =>
    { width := size.1
      height := pictureHeight size.1 size.2
      yIncrement := if weaves r then 2 else 1
      startScanline := if weaves r then (fieldOffset r).toNat else 0
      frameLineIncrement := if weaves r && !r.SMODE2.frameMode then 2 else 1
      fbOffset := if weaves r && !r.SMODE2.frameMode then (fieldOffset r).toNat else 0 }

/-- Both circuits are shown from the nearer corner on. -/
def displayOffset (mine other : ℕ) : ℕ := if r.PMODE.circuit1 && r.PMODE.circuit2 then mine - other else 0

def enableCircuit1 (x y : ℕ) : Bool :=
  r.PMODE.circuit1 && isInDisplay r.DISPLAY1 (displayOffset r r.DISPLAY1.x r.DISPLAY2.x)
    (displayOffset r r.DISPLAY1.y r.DISPLAY2.y) x y

def enableCircuit2 (x y : ℕ) : Bool :=
  r.PMODE.circuit2 && isInDisplay r.DISPLAY2 (displayOffset r r.DISPLAY2.x r.DISPLAY1.x)
    (displayOffset r r.DISPLAY2.y r.DISPLAY1.y) x y

/-- A circuit's color, at the place in its frame buffer. -/
def output (f : Frame) (dispfb : DISPFB) (xOffset yOffset x y : ℕ) : Option ℕ :=
  getCRTColor T m dispfb (dispfb.x.toNat + (x - xOffset))
    (dispfb.y.toNat + f.fbOffset + (((y - yOffset) >>> (f.yIncrement - 1)) <<< (f.frameLineIncrement - 1)))

/-- A circuit that does not show the pixel gives another color. -/
def circuitColor (enabled : Bool) (color : Option ℕ) (otherwise : ℕ) : Option ℕ :=
  if enabled then color else some otherwise

/-- The color of a pixel. -/
def pixelColor (f : Frame) (x y : ℕ) : Option ℕ :=
  (circuitColor (enableCircuit1 r x y)
    (output T m f r.DISPFB1 (displayOffset r r.DISPLAY1.x r.DISPLAY2.x)
      (displayOffset r r.DISPLAY1.y r.DISPLAY2.y) x y) 0).bind fun output1 =>
  (circuitColor (enableCircuit2 r x y)
    (output T m f r.DISPFB2 (displayOffset r r.DISPLAY2.x r.DISPLAY1.x)
      (displayOffset r r.DISPLAY2.y r.DISPLAY1.y) x y) r.BGCOLOR.toNat).map fun output2 =>
  finalColor r.PMODE (enableCircuit1 r x y) (enableCircuit2 r x y) output1
    (if r.PMODE.blendWithBg then r.BGCOLOR.toNat else output2)

/-! ### The buffers -/

inductive Access where
  | target (i : ℕ)
  | screen (i : ℕ)
  deriving DecidableEq, Repr

structure Buffers where
  target : ℕ → ℕ
  screenBuffer : ℕ → ℕ
  accesses : List Access

def Buffers.setTarget (i color : ℕ) (b : Buffers) : Buffers :=
  { b with
    target := Function.update b.target i color
    accesses := b.accesses ++ [.target i] }

def Buffers.setScreen (i color : ℕ) (b : Buffers) : Buffers :=
  { b with
    screenBuffer := Function.update b.screenBuffer i color
    accesses := b.accesses ++ [.screen i] }

/-- The row of the other field is what it was. -/
def Buffers.copyRow (i : ℕ) (b : Buffers) : Buffers :=
  { b with
    target := Function.update b.target i (b.screenBuffer i)
    accesses := b.accesses ++ [.screen i, .target i] }

def plot (width x y color : ℕ) (b : Buffers) : Buffers :=
  if r.SMODE2.interlaced then
    if r.deinterlaceMethod = .bob then
      if r.SMODE2.frameMode then
        (b.setTarget (x + y * 2 * width) color).setTarget (x + (y * 2 + 1) * width) color
      else b.setTarget (x + y * width) color
    else
      let b := (b.setScreen (x + y * width) color).setTarget (x + y * width) color
      if fieldOffset r = false then b.copyRow (x + (y + 1) * width)
      else if y > 0 then b.copyRow (x + (y - 1) * width)
      else b
  else b.setTarget (x + y * width) color

/-- The pixels in the order of the loops. -/
def scan (f : Frame) : List (ℕ × ℕ) :=
  (List.range ((f.height - f.startScanline + (f.yIncrement - 1)) / f.yIncrement)).flatMap fun i =>
    (List.range f.width).map fun x => (x, f.startScanline + f.yIncrement * i)

/-- The emulation ends at a pixel that has no color. -/
def drawPixels (f : Frame) : List (ℕ × ℕ) → Buffers → Buffers
  | [], b => b
  | p :: ps, b =>
    match pixelColor T m r f p.1 p.2 with
    | none => b
    | some color => drawPixels f ps (plot r f.width p.1 p.2 color b)

def renderCRT (b : Buffers) : Buffers :=
  match frame r with
  | none => b
  | some f => drawPixels T m r f (scan f) b

end DobieStation.Gs.CRT
