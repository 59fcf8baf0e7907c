import DobieStation.Gs.LocalToHost

/-! # The transfer within the local memory

The translation of `local_to_local`. Besides the state it returns the pixels that were copied. -/

namespace DobieStation.Gs.Model

open DobieStation.Lib.Memory

/-- A pixel that is copied: from where, and to where. -/
structure Move where
  sourceX : ℕ
  sourceY : ℕ
  destX : ℕ
  destY : ℕ
  deriving DecidableEq, Repr

variable (T : PageTables)

/-! ### One pixel -/

def writePSMCT32ZBlock (base width x y value : ℕ) (m : Bytes) : Bytes :=
  store 4 m (addrPSMCT32Z T.toTables (base / 256) (width / 64) x y) value

def writePSMCT16SZBlock (base width x y value : ℕ) (m : Bytes) : Bytes :=
  store 2 m (addrPSMCT16SZ T (base / 256) (width / 64) x y) value

/-- The pixel that is copied; `none` is an unrecognized format. -/
def readSource (r : BITBLTBUF_REG) (x y : ℕ) (m : Bytes) : Option ℕ :=
  let read (f : ℕ → ℕ → ℕ → ℕ → Bytes → ℕ) := f r.sourceBase r.sourceWidth x y m
  match r.sourceFormat with
  | 0x00 | 0x01 => some (read (readPSMCT32Block T.toTables))
  | 0x02 => some (read (readPSMCT16Block T))
  | 0x0A => some (read (readPSMCT16SBlock T))
  | 0x13 => some (read (readPSMCT8Block T))
  | 0x14 => some (read (readPSMCT4Block T))
  | 0x1B => some (read (readPSMCT32Block T.toTables) >>> 24)
  | 0x2C => some (read (readPSMCT32Block T.toTables) >>> 28)
  | 0x30 | 0x31 => some (read (readPSMCT32ZBlock T))
  | _ => none

/-- The upper part of a word is replaced; the bits in `keep` stay. -/
def writeUpper (place keep : ℕ) (base width x y data : ℕ) (m : Bytes) : Bytes :=
  writePSMCT32Block T.toTables base width x y
    ((data <<< place) % 2 ^ 32 ||| (readPSMCT32Block T.toTables base width x y m &&& keep)) m

def writeDest (r : BITBLTBUF_REG) (x y data : ℕ) (m : Bytes) : Option Bytes :=
  let write (f : ℕ → ℕ → ℕ → ℕ → ℕ → Bytes → Bytes) := f r.destBase r.destWidth x y data m
  match r.destFormat with
  | 0x00 => some (write (writePSMCT32Block T.toTables))
  | 0x01 => some (write (writePSMCT24Block T.toTables))
  | 0x02 => some (write (writePSMCT16Block T.toTables))
  | 0x0A => some (write (writePSMCT16SBlock T.toTables))
  | 0x13 => some (write (writePSMCT8Block T.toTables))
  | 0x14 => some (write (writePSMCT4Block T.toTables))
  | 0x1B => some (write (writeUpper T 24 0x00FFFFFF))
  | 0x24 => some (write (writeUpper T 24 0xF0FFFFFF))
  | 0x2C => some (write (writeUpper T 28 0x0FFFFFFF))
  | 0x30 => some (write (writePSMCT32ZBlock T))
  | 0x31 => some (write (writePSMCT24ZBlock T.toTables))
  | 0x3A => some (write (writePSMCT16SZBlock T))
  | _ => none

/-! ### The rectangle -/

/-- A coordinate of 16 bits after a step. -/
def stepped (x : ℕ) (step : ℤ) : ℕ := (((x : ℤ) + step) % 2 ^ 16).toNat

/-- A row from the right to the left. -/
def leftwards (order : ℕ) : Bool := order == 2 || order == 3

/-- From the bottom row to the top one. -/
def upwards (order : ℕ) : Bool := order == 1 || order == 3

def firstX (r : TRXREG_REG) (order x : ℕ) : ℕ := if leftwards order then x + r.width - 1 else x

def firstY (r : TRXREG_REG) (order y : ℕ) : ℕ := if upwards order then y + r.height - 1 else y

/-- The pixel in the corner where the transfer begins. -/
def GS.atFirst (s : GS) : GS :=
  { s with TRXPOS := { s.TRXPOS with
      intSourceX := firstX s.TRXREG s.TRXPOS.transOrder s.TRXPOS.sourceX
      intSourceY := firstY s.TRXREG s.TRXPOS.transOrder s.TRXPOS.sourceY
      intDestX := firstX s.TRXREG s.TRXPOS.transOrder s.TRXPOS.destX
      intDestY := firstY s.TRXREG s.TRXPOS.transOrder s.TRXPOS.destY } }

def GS.move (s : GS) : Move :=
  ⟨s.TRXPOS.intSourceX, s.TRXPOS.intSourceY, s.TRXPOS.intDestX, s.TRXPOS.intDestY⟩

/-- The next pixel of the row. -/
def GS.stepX (s : GS) : GS :=
  let step : ℤ := if leftwards s.TRXPOS.transOrder then -1 else 1
  { s with
    pixelsTransferred := s.pixelsTransferred + 1
    TRXPOS := { s.TRXPOS with
      intSourceX := stepped s.TRXPOS.intSourceX step
      intDestX := stepped s.TRXPOS.intDestX step } }

/-- The next row begins at the end of one. -/
def GS.stepRow (s : GS) : GS :=
  let step : ℤ := if upwards s.TRXPOS.transOrder then -1 else 1
  if s.pixelsTransferred % s.TRXREG.width = 0 then
    { s with TRXPOS := { s.TRXPOS with
        intSourceX := firstX s.TRXREG s.TRXPOS.transOrder s.TRXPOS.sourceX
        intSourceY := stepped s.TRXPOS.intSourceY step
        intDestX := firstX s.TRXREG s.TRXPOS.transOrder s.TRXPOS.destX
        intDestY := stepped s.TRXPOS.intDestY step } }
  else s

/-- Coordinates wrap at 2048 pixels. -/
def GS.wrapped (s : GS) : GS :=
  { s with TRXPOS := { s.TRXPOS with
      intSourceX := s.TRXPOS.intSourceX % 2048
      intSourceY := s.TRXPOS.intSourceY % 2048
      intDestX := s.TRXPOS.intDestX % 2048
      intDestY := s.TRXPOS.intDestY % 2048 } }

/-- One turn of the loop. -/
def GS.copyPixel (s : GS) : Option GS := do
  let data ← readSource T s.BITBLTBUF s.TRXPOS.intSourceX s.TRXPOS.intSourceY s.localMem
  let mem ← writeDest T s.BITBLTBUF s.TRXPOS.intDestX s.TRXPOS.intDestY data s.localMem
  return ({ s with localMem := mem } : GS).stepX.stepRow.wrapped

/-- The loop, as many turns as there are pixels left. -/
def GS.copyLoop : ℕ → GS → Option (List Move × GS)
  | 0, s => some ([], s)
  | n + 1, s => do
    let (moves, s') ← (← s.copyPixel T).copyLoop n
    return (s.move :: moves, s')

/-- There are four orders. -/
def GS.localToLocal (s : GS) : Option (List Move × GS) := do
  let maxPixels := s.TRXREG.width * s.TRXREG.height
  if s.TRXREG.width = 0 ∨ s.TRXREG.height = 0 then return ([], { s with TRXDIR := 3, pixelsTransferred := 0 })
  else if 4 ≤ s.TRXPOS.transOrder then none
  else
    let (moves, s') ← s.atFirst.copyLoop T (maxPixels - s.pixelsTransferred)
    return (moves, { s' with TRXDIR := 3, pixelsTransferred := 0 })

end DobieStation.Gs.Model
