import DobieStation.Gs.Model

/-! # The transfer to the host

The translation of `local_to_host` and of `pack_PSMCT24`, with the functions that read one pixel in each
format. What `local_to_host` puts into its target is the list of quadwords it counts. -/

namespace DobieStation.Gs.Model

open DobieStation.Lib.Memory

/-- The tables of the formats that are only read. -/
structure PageTables extends Tables where
  PSMCT16Z : ℕ → ℕ → ℕ → ℕ
  PSMCT16SZ : ℕ → ℕ → ℕ → ℕ

/-! ### The tables of 32 bits -/

def blockTable32 : List (List ℕ) :=
  [[0, 1, 4, 5, 16, 17, 20, 21],
    [2, 3, 6, 7, 18, 19, 22, 23],
    [8, 9, 12, 13, 24, 25, 28, 29],
    [10, 11, 14, 15, 26, 27, 30, 31]]

def blockTable32Z : List (List ℕ) :=
  [[24, 25, 28, 29, 8, 9, 12, 13],
    [26, 27, 30, 31, 10, 11, 14, 15],
    [16, 17, 20, 21, 0, 1, 4, 5],
    [18, 19, 22, 23, 2, 3, 6, 7]]

def columnTable32 : List (List ℕ) :=
  [[0, 1, 4, 5, 8, 9, 12, 13],
    [2, 3, 6, 7, 10, 11, 14, 15],
    [16, 17, 20, 21, 24, 25, 28, 29],
    [18, 19, 22, 23, 26, 27, 30, 31],
    [32, 33, 36, 37, 40, 41, 44, 45],
    [34, 35, 38, 39, 42, 43, 46, 47],
    [48, 49, 52, 53, 56, 57, 60, 61],
    [50, 51, 54, 55, 58, 59, 62, 63]]

/-- An entry of a table. -/
def entry (table : List (List ℕ)) (row column : ℕ) : ℕ := (table.getD row []).getD column 0

/-- The number of a block, in a buffer of width 0 as the constructor asks for it. -/
def blockid (blockTable : List (List ℕ)) (block x y : ℕ) : ℕ :=
  block + ((x >>> 1) - (x >>> 1) % 0x20) + entry blockTable ((y >>> 3) &&& 0x3) ((x >>> 3) &&& 0x7)

/-- A table of 32 bits, as the constructor fills it. -/
def pageWord (blockTable : List (List ℕ)) (block y x : ℕ) : ℕ :=
  (blockid blockTable block x y <<< 6) + entry columnTable32 (y &&& 0x7) (x &&& 0x7)

def pagePSMCT32 : ℕ → ℕ → ℕ → ℕ := pageWord blockTable32
def pagePSMCT32Z : ℕ → ℕ → ℕ → ℕ := pageWord blockTable32Z

/-! ### One pixel -/

variable (T : PageTables)

def addrPSMCT16Z : ℕ → ℕ → ℕ → ℕ → ℕ := addrHalf T.PSMCT16Z
def addrPSMCT16SZ : ℕ → ℕ → ℕ → ℕ → ℕ := addrHalf T.PSMCT16SZ

def readPSMCT32ZBlock (base width x y : ℕ) (m : Bytes) : ℕ :=
  load 4 m (addrPSMCT32Z T.toTables (base / 256) (width / 64) x y)

def readPSMCT16Block (base width x y : ℕ) (m : Bytes) : ℕ :=
  load 2 m (addrPSMCT16 T.toTables (base / 256) (width / 64) x y)

def readPSMCT16SBlock (base width x y : ℕ) (m : Bytes) : ℕ :=
  load 2 m (addrPSMCT16S T.toTables (base / 256) (width / 64) x y)

def readPSMCT16ZBlock (base width x y : ℕ) (m : Bytes) : ℕ :=
  load 2 m (addrPSMCT16Z T (base / 256) (width / 64) x y)

def readPSMCT16SZBlock (base width x y : ℕ) (m : Bytes) : ℕ :=
  load 2 m (addrPSMCT16SZ T (base / 256) (width / 64) x y)

def readPSMCT8Block (base width x y : ℕ) (m : Bytes) : ℕ :=
  load 1 m (addrPSMCT8 T.toTables (base / 256) (width / 64) x y)

def readPSMCT4Block (base width x y : ℕ) (m : Bytes) : ℕ :=
  let addr := addrPSMCT4 T.toTables (base / 256) (width / 64) x y
  (load 1 m (addr >>> 1) >>> ((addr &&& 1) <<< 2)) &&& 0x0F

/-- What a function that reads a pixel takes from the registers. -/
def GS.atSource (f : ℕ → ℕ → ℕ → ℕ → Bytes → ℕ) (s : GS) : ℕ :=
  f s.BITBLTBUF.sourceBase s.BITBLTBUF.sourceWidth s.TRXPOS.intSourceX s.TRXPOS.intSourceY s.localMem

/-- A pixel was read, and the next one is to its right. -/
def GS.took (s : GS) : GS :=
  { s with
    pixelsTransferred := s.pixelsTransferred + 1
    TRXPOS := { s.TRXPOS with intSourceX := s.TRXPOS.intSourceX + 1 } }

/-- The next row begins at the end of one. -/
def GS.nextSourceRow (s : GS) : GS :=
  if s.pixelsTransferred % s.TRXREG.width = 0 then
    { s with TRXPOS := { s.TRXPOS with
        intSourceX := s.TRXPOS.sourceX
        intSourceY := s.TRXPOS.intSourceY + 1 } }
  else s

/-- Coordinates wrap at 2048 pixels. -/
def GS.wrapSource (s : GS) : GS :=
  { s with TRXPOS := { s.TRXPOS with
      intSourceX := s.TRXPOS.intSourceX % 2048
      intSourceY := s.TRXPOS.intSourceY % 2048 } }

/-! ### Pixels of 24 bits -/

/-- The next color is read. -/
def GS.fetch (zFormat : Bool) (s : GS) : GS :=
  ({ s with
    PSMCT24Color := s.atSource (if zFormat then readPSMCT32ZBlock T else readPSMCT32Block T.toTables) &&&
      0xFFFFFF
    PSMCT24UnpackedCount := s.PSMCT24UnpackedCount + 24
    TRXPOS := { s.TRXPOS with intSourceX := s.TRXPOS.intSourceX + 1 } } : GS).wrapSource

/-- The color is in the output, which holds `dataInOutput` bits: what overflowed is kept. -/
def GS.emit (dataInOutput : ℕ) (s : GS) : GS :=
  if 64 < dataInOutput then
    { s with
      PSMCT24Color := s.PSMCT24Color >>> (s.PSMCT24UnpackedCount - (dataInOutput - 64))
      PSMCT24UnpackedCount := dataInOutput - 64 }
  else
    let s : GS := { s with
      PSMCT24UnpackedCount := 0
      PSMCT24Color := 0
      pixelsTransferred := s.pixelsTransferred + 1 }
    if dataInOutput < 64 then s.nextSourceRow else s

/-- The loop of `pack_PSMCT24`. -/
def GS.packLoop (zFormat : Bool) (dataInOutput outputColor : ℕ) (s : GS) : ℕ × GS :=
  if dataInOutput < 64 then
    if s.PSMCT24UnpackedCount ≠ 0 then
      let output := outputColor ||| (s.PSMCT24Color <<< dataInOutput) % 2 ^ 64
      let held := dataInOutput + s.PSMCT24UnpackedCount
      let maxPixels := s.TRXREG.width * s.TRXREG.height
      if maxPixels ≤ (s.emit held).pixelsTransferred then (output, s.emit held)
      else GS.packLoop zFormat held output (s.emit held)
    else GS.packLoop zFormat dataInOutput outputColor (s.fetch T zFormat)
  else (outputColor, s)
termination_by 2 * (64 - dataInOutput) + if s.PSMCT24UnpackedCount = 0 then 1 else 0
decreasing_by
  · split <;> omega
  · have hcount : (s.fetch T zFormat).PSMCT24UnpackedCount = s.PSMCT24UnpackedCount + 24 := rfl
    split_ifs <;> omega

def GS.packPSMCT24 (zFormat : Bool) (s : GS) : ℕ × GS := s.packLoop T zFormat 0 0

/-! ### The loops of `local_to_host` -/

/-- Pixels per doubleword; those of 24 bits are done in one go. -/
def sourcePpd : ℕ → Option ℕ
  | 0x00 => some 2
  | 0x01 => some 1
  | 0x02 => some 4
  | 0x0A => some 4
  | 0x13 => some 8
  | 0x14 => some 16
  | 0x1B => some 8
  | 0x30 => some 2
  | 0x31 => some 1
  | 0x32 => some 4
  | 0x3A => some 4
  | _ => none

/-- A pixel is the field `i` of the doubleword. -/
def GS.readField (data i bits value : ℕ) (s : GS) : Option (ℕ × GS) :=
  some (data ||| value <<< (i * bits), s.took)

/-- The pixel `i` of a doubleword; `none` is `Errors::die`. -/
def GS.readPixel (data i : ℕ) (s : GS) : Option (ℕ × GS) :=
  match s.BITBLTBUF.sourceFormat with
  | 0x00 => s.readField data i 32 (s.atSource (readPSMCT32Block T.toTables) &&& 0xFFFFFFFF)
  | 0x01 => some (s.packPSMCT24 T false)
  | 0x02 => s.readField data i 16 (s.atSource (readPSMCT16Block T) &&& 0xFFFF)
  | 0x0A => s.readField data i 16 (s.atSource (readPSMCT16SBlock T) &&& 0xFFFF)
  | 0x13 => s.readField data i 8 (s.atSource (readPSMCT8Block T) &&& 0xFF)
  | 0x14 => s.readField data i 4 (s.atSource (readPSMCT4Block T) &&& 0xF)
  | 0x1B => s.readField data i 8 ((s.atSource (readPSMCT32Block T.toTables) >>> 24) &&& 0xFF)
  | 0x30 => s.readField data i 32 (s.atSource (readPSMCT32ZBlock T) &&& 0xFFFFFFFF)
  | 0x31 => some (s.packPSMCT24 T true)
  | 0x32 => s.readField data i 16 (s.atSource (readPSMCT16ZBlock T) &&& 0xFFFF)
  | 0x3A => s.readField data i 16 (s.atSource (readPSMCT16SZBlock T) &&& 0xFFFF)
  | _ => none

/-- One turn of the innermost loop. -/
def GS.readTurn (p : ℕ × GS) (i : ℕ) : Option (ℕ × GS) :=
  (p.2.readPixel T p.1 i).map fun r => (r.1, r.2.nextSourceRow.wrapSource)

def GS.readDoubleword (n : ℕ) (s : GS) : Option (ℕ × GS) :=
  (List.range n).foldlM (GS.readTurn T) (0, s)

abbrev QuadWord := DoubleWord × DoubleWord

def GS.readQuadword (n : ℕ) (s : GS) : Option (QuadWord × GS) := do
  let low ← s.readDoubleword T n
  let high ← low.2.readDoubleword T n
  pure ((BitVec.ofNat 64 low.1, BitVec.ofNat 64 high.1), high.2)

/-- The loop over the quadwords; `none` is also the end of the fuel. -/
def GS.readLoop (n maxPixels : ℕ) : ℕ → GS → Option (List QuadWord × GS)
  | 0, _ => none
  | fuel + 1, s =>
    if s.pixelsTransferred < maxPixels then do
      let q ← s.readQuadword T n
      let r ← GS.readLoop n maxPixels fuel q.2
      pure (q.1 :: r.1, r.2)
    else pure ([], s)

def GS.localToHost (fuel : ℕ) (s : GS) : Option (List QuadWord × GS) :=
  if s.TRXDIR = 3 then some ([], s)
  else if s.TRXREG.width = 0 ∨ s.TRXREG.height = 0 then
    some ([], { s with TRXDIR := 3, pixelsTransferred := 0 })
  else do
    let n ← sourcePpd s.BITBLTBUF.sourceFormat
    let r ← s.readLoop T n (s.TRXREG.width * s.TRXREG.height) fuel
    pure (r.1, { r.2 with TRXDIR := 3, pixelsTransferred := 0 })

end DobieStation.Gs.Model
