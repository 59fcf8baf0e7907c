import DobieStation.Lib.Memory
import Mathlib.Data.BitVec

/-! # The transfer registers of the Graphics Synthesizer

The translation of the part of `gsthread.cpp` that carries pixels from the host into the local memory:
the registers from BITBLTBUF to HWREG, the writing of one pixel in each format, and `write_HWREG`. The
tables that place a pixel within a page are filled once and are a parameter, and so is the transfer within the
local memory. Besides the local memory the state has the pixels that were written. -/

namespace DobieStation.Gs.Model

open DobieStation.Lib.Memory

abbrev DoubleWord := BitVec 64

/-! ### The local memory -/

/-- The tables: the place of `x` and `y` in a page, for a block of the page. -/
structure Tables where
  PSMCT32 : ℕ → ℕ → ℕ → ℕ
  PSMCT32Z : ℕ → ℕ → ℕ → ℕ
  PSMCT16 : ℕ → ℕ → ℕ → ℕ
  PSMCT16S : ℕ → ℕ → ℕ → ℕ
  PSMCT8 : ℕ → ℕ → ℕ → ℕ
  PSMCT4 : ℕ → ℕ → ℕ → ℕ

/-- The address of a pixel of 32 bits. -/
def addrWord (table : ℕ → ℕ → ℕ → ℕ) (block width x y : ℕ) : ℕ :=
  let page := (block >>> 5) + (y >>> 5) * width + (x >>> 6)
  let addr := (page <<< 11) + table (block &&& 0x1F) (y &&& 0x1F) (x &&& 0x3F)
  (addr <<< 2) &&& 0x003FFFFC

/-- The address of a pixel of 16 bits. -/
def addrHalf (table : ℕ → ℕ → ℕ → ℕ) (block width x y : ℕ) : ℕ :=
  let page := (block >>> 5) + (y >>> 6) * width + (x >>> 6)
  let addr := (page <<< 12) + table (block &&& 0x1F) (y &&& 0x3F) (x &&& 0x3F)
  (addr <<< 1) &&& 0x003FFFFE

variable (T : Tables)

def addrPSMCT32 : ℕ → ℕ → ℕ → ℕ → ℕ := addrWord T.PSMCT32
def addrPSMCT32Z : ℕ → ℕ → ℕ → ℕ → ℕ := addrWord T.PSMCT32Z
def addrPSMCT16 : ℕ → ℕ → ℕ → ℕ → ℕ := addrHalf T.PSMCT16
def addrPSMCT16S : ℕ → ℕ → ℕ → ℕ → ℕ := addrHalf T.PSMCT16S

def addrPSMCT8 (block width x y : ℕ) : ℕ :=
  let page := (block >>> 5) + (y >>> 6) * (width >>> 1) + (x >>> 7)
  let addr := (page <<< 13) + T.PSMCT8 (block &&& 0x1F) (y &&& 0x3F) (x &&& 0x7F)
  addr &&& 0x003FFFFF

def addrPSMCT4 (block width x y : ℕ) : ℕ :=
  let page := (block >>> 5) + (y >>> 7) * (width >>> 1) + (x >>> 7)
  let addr := (page <<< 14) + T.PSMCT4 (block &&& 0x1F) (y &&& 0x7F) (x &&& 0x7F)
  addr &&& 0x007FFFFF

def readPSMCT32Block (base width x y : ℕ) (m : Bytes) : ℕ :=
  load 4 m (addrPSMCT32 T (base / 256) (width / 64) x y)

def writePSMCT32Block (base width x y value : ℕ) (m : Bytes) : Bytes :=
  store 4 m (addrPSMCT32 T (base / 256) (width / 64) x y) value

/-- The upper byte of the word stays. -/
def writeColor (addr value : ℕ) (m : Bytes) : Bytes :=
  let oldMem := load 4 m addr
  store 4 m addr ((oldMem &&& 0xFF000000) ||| (value &&& 0xFFFFFF))

def writePSMCT24Block (base width x y : ℕ) : ℕ → Bytes → Bytes :=
  writeColor (addrPSMCT32 T (base / 256) (width / 64) x y)

def writePSMCT24ZBlock (base width x y : ℕ) : ℕ → Bytes → Bytes :=
  writeColor (addrPSMCT32Z T (base / 256) (width / 64) x y)

def writePSMCT16Block (base width x y value : ℕ) (m : Bytes) : Bytes :=
  store 2 m (addrPSMCT16 T (base / 256) (width / 64) x y) value

def writePSMCT16SBlock (base width x y value : ℕ) (m : Bytes) : Bytes :=
  store 2 m (addrPSMCT16S T (base / 256) (width / 64) x y) value

def writePSMCT8Block (base width x y value : ℕ) (m : Bytes) : Bytes :=
  store 1 m (addrPSMCT8 T (base / 256) (width / 64) x y) value

def writePSMCT4Block (base width x y value : ℕ) (m : Bytes) : Bytes :=
  let addr := addrPSMCT4 T (base / 256) (width / 64) x y
  let shift := (addr &&& 1) <<< 2
  store 1 m (addr >>> 1)
    ((load 1 m (addr >>> 1) &&& (0xF0 >>> shift)) ||| ((value &&& 0x0F) <<< shift))

/-! ### The registers -/

structure BITBLTBUF_REG where
  sourceBase : ℕ
  sourceWidth : ℕ
  sourceFormat : ℕ
  destBase : ℕ
  destWidth : ℕ
  destFormat : ℕ
  deriving DecidableEq, Repr

structure TRXREG_REG where
  width : ℕ
  height : ℕ
  deriving DecidableEq, Repr

structure TRXPOS_REG where
  sourceX : ℕ
  sourceY : ℕ
  destX : ℕ
  destY : ℕ
  intSourceX : ℕ
  intDestX : ℕ
  intSourceY : ℕ
  intDestY : ℕ
  transOrder : ℕ
  deriving DecidableEq, Repr

/-- A pixel that was written: where, and the bits at their place in the word, half-word, byte or nibble. -/
structure Pixel where
  x : ℕ
  y : ℕ
  value : ℕ
  deriving DecidableEq, Repr

structure GS where
  BITBLTBUF : BITBLTBUF_REG
  TRXPOS : TRXPOS_REG
  TRXREG : TRXREG_REG
  TRXDIR : ℕ
  pixelsTransferred : ℕ
  PSMCT24Color : ℕ
  PSMCT24UnpackedCount : ℕ
  localMem : Bytes
  pixels : List Pixel

/-- A pixel is in the memory `m`, and the next one is to its right. -/
def GS.put (value : ℕ) (m : Bytes) (s : GS) : GS :=
  { s with
    localMem := m
    pixels := s.pixels ++ [⟨s.TRXPOS.intDestX, s.TRXPOS.intDestY, value⟩]
    pixelsTransferred := s.pixelsTransferred + 1
    TRXPOS := { s.TRXPOS with intDestX := s.TRXPOS.intDestX + 1 } }

/-- What a function that writes a pixel takes from the registers. -/
def GS.atDest {α : Type} (f : ℕ → ℕ → ℕ → ℕ → α) (s : GS) : α :=
  f s.BITBLTBUF.destBase s.BITBLTBUF.destWidth s.TRXPOS.intDestX s.TRXPOS.intDestY

/-- A byte of the doubleword `data` is added to the color. -/
def GS.unpackByte (data i : ℕ) (zFormat : Bool) (s : GS) : GS :=
  let color := s.PSMCT24Color ||| ((data >>> i) &&& 0xFF) <<< (s.PSMCT24UnpackedCount * 8)
  let count := s.PSMCT24UnpackedCount + 1
  if count = 3 then
    { s.put color (s.atDest (if zFormat then writePSMCT24ZBlock T else writePSMCT24Block T) color
        s.localMem) with
      PSMCT24Color := 0
      PSMCT24UnpackedCount := 0 }
  else { s with PSMCT24Color := color, PSMCT24UnpackedCount := count }

/-- Three bytes, as far as there are any in the doubleword. -/
def GS.unpackPSMCT24 (data offset : ℕ) (zFormat : Bool) (s : GS) : GS :=
  (List.range 3).foldl (fun s j =>
    if offset * 24 + 8 * j < 64 then s.unpackByte T data (offset * 24 + 8 * j) zFormat else s) s

/-- Pixels per doubleword. -/
def ppd : ℕ → Option ℕ
  | 0x00 => some 2
  | 0x01 => some 3
  | 0x02 => some 4
  | 0x0A => some 4
  | 0x13 => some 8
  | 0x14 => some 16
  | 0x1B => some 8
  | 0x24 => some 16
  | 0x2C => some 16
  | 0x31 => some 3
  | _ => none

/-- A pixel that is part of a word, of which the bits in `keep` stay. -/
def GS.putIn (keep value : ℕ) (s : GS) : GS :=
  s.put value (s.atDest (writePSMCT32Block T)
    (value ||| (s.atDest (readPSMCT32Block T) s.localMem &&& keep)) s.localMem)

/-- The pixel `i` of a doubleword. -/
def GS.writePixel (data i : ℕ) (s : GS) : GS :=
  match s.BITBLTBUF.destFormat with
  | 0x00 =>
    let value := (data >>> (i * 32)) &&& 0xFFFFFFFF
    s.put value (s.atDest (writePSMCT32Block T) value s.localMem)
  | 0x01 => s.unpackPSMCT24 T data i false
  | 0x02 =>
    let value := (data >>> (i * 16)) &&& 0xFFFF
    s.put value (s.atDest (writePSMCT16Block T) value s.localMem)
  | 0x0A =>
    let value := (data >>> (i * 16)) &&& 0xFFFF
    s.put value (s.atDest (writePSMCT16SBlock T) value s.localMem)
  | 0x13 =>
    let value := (data >>> (i * 8)) &&& 0xFF
    s.put value (s.atDest (writePSMCT8Block T) value s.localMem)
  | 0x14 =>
    let byte := (data >>> ((i >>> 1) <<< 3)) % 2 ^ 8
    let value := if s.TRXPOS.intDestX &&& 0x1 ≠ 0 then byte >>> 4 else byte &&& 0xF
    s.put value (s.atDest (writePSMCT4Block T) value s.localMem)
  | 0x1B => s.putIn T 0x00FFFFFF (((data >>> (i <<< 3)) &&& 0xFF) <<< 24)
  | 0x24 => s.putIn T 0xF0FFFFFF
      (if i &&& 0x1 ≠ 0 then ((data >>> ((i >>> 1) <<< 3)) &&& 0xF0) <<< 20
      else ((data >>> ((i >>> 1) <<< 3)) &&& 0xF) <<< 24)
  | 0x2C => s.putIn T 0x0FFFFFFF
      (if i &&& 0x1 ≠ 0 then ((data >>> ((i >>> 1) <<< 3)) &&& 0xF0) <<< 24
      else ((data >>> ((i >>> 1) <<< 3)) &&& 0xF) <<< 28)
  | 0x31 => s.unpackPSMCT24 T data i true
  | _ => s

/-- The next row begins at the end of one, and coordinates wrap at 2048 pixels. -/
def GS.nextRow (s : GS) : GS :=
  let ended := s.pixelsTransferred % s.TRXREG.width = 0
  { s with TRXPOS := { s.TRXPOS with
      intDestX := (if ended then s.TRXPOS.destX else s.TRXPOS.intDestX) % 2048
      intDestY := (if ended then s.TRXPOS.intDestY + 1 else s.TRXPOS.intDestY) % 2048 } }

/-- The end of the transfer, if all pixels were written. -/
def GS.endHWREG (s : GS) : GS :=
  let maxPixels := s.TRXREG.width * s.TRXREG.height
  if maxPixels ≤ s.pixelsTransferred then { s with TRXDIR := 3, pixelsTransferred := 0 } else s

/-- One turn of the loop of `write_HWREG`. -/
def GS.turn (data : ℕ) (s : GS) (i : ℕ) : GS := (s.writePixel T data i).nextRow

def GS.writeHWREG (data : ℕ) (s : GS) : GS :=
  if s.TRXREG.width = 0 ∨ s.TRXREG.height = 0 then { s with TRXDIR := 3, pixelsTransferred := 0 }
  else
    match ppd s.BITBLTBUF.destFormat with
    | none => s
    | some n => ((List.range n).foldl (GS.turn T data) s).endHWREG

/-! ### The writes -/

/-- The start of a transfer. -/
def GS.start (s : GS) : GS :=
  { s with
    pixelsTransferred := 0
    TRXPOS := { s.TRXPOS with
      intDestX := s.TRXPOS.destX
      intSourceX := s.TRXPOS.sourceX
      intDestY := s.TRXPOS.destY
      intSourceY := s.TRXPOS.sourceY }
    PSMCT24UnpackedCount := 0
    PSMCT24Color := 0 }

/-- A write to TRXDIR; `localToLocal` is the transfer within the local memory. -/
def GS.writeTRXDIR (localToLocal : GS → GS) (value : ℕ) (s : GS) : GS :=
  let dir := value &&& 0x3
  if dir = 3 then { s with TRXDIR := dir }
  else if dir = 2 then { localToLocal ({ s with TRXDIR := dir } : GS).start with TRXDIR := 3 }
  else ({ s with TRXDIR := dir } : GS).start

/-- `write64`, to the registers of the transfers. -/
def GS.write64 (localToLocal : GS → GS) (addr : ℕ) (data : DoubleWord) (s : GS) : GS :=
  let value := data.toNat
  match addr with
  | 0x50 => { s with BITBLTBUF :=
      { sourceBase := (value &&& 0x3FFF) * 64 * 4
        sourceWidth := ((value >>> 16) &&& 0x3F) * 64
        sourceFormat := (value >>> 24) &&& 0x3F
        destBase := ((value >>> 32) &&& 0x3FFF) * 64 * 4
        destWidth := ((value >>> 48) &&& 0x3F) * 64
        destFormat := (value >>> 56) &&& 0x3F } }
  | 0x51 => { s with TRXPOS := { s.TRXPOS with
      sourceX := value &&& 0x7FF
      sourceY := (value >>> 16) &&& 0x7FF
      destX := (value >>> 32) &&& 0x7FF
      destY := (value >>> 48) &&& 0x7FF
      transOrder := (value >>> 59) &&& 0x3 } }
  | 0x52 => { s with TRXREG := { width := value &&& 0xFFF, height := (value >>> 32) &&& 0xFFF } }
  | 0x53 => s.writeTRXDIR localToLocal value
  | 0x54 => if s.TRXDIR = 0 then s.writeHWREG T value else s
  | _ => s

end DobieStation.Gs.Model
