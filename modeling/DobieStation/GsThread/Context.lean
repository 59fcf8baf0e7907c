import Mathlib.Data.BitVec

/-! # The drawing contexts

`gscontext.cpp`: the registers of which there are two sets. A field has the bits that its setter leaves. -/

namespace DobieStation.GsThread

abbrev DoubleWord := BitVec 64

/-! ### The registers -/

structure TEX0 where
  textureBase : ℕ
  width : ℕ
  format : BitVec 6
  texWidth : ℕ
  texHeight : ℕ
  useAlpha : Bool
  colorFunction : BitVec 2
  CLUTBase : ℕ
  CLUTFormat : BitVec 4
  useCSM2 : Bool
  CLUTOffset : ℕ
  CLUTControl : BitVec 3
  deriving DecidableEq, Repr

/-- `K` is in sixteenths. -/
structure TEX1 where
  LODMethod : Bool
  maxMIPLevel : BitVec 3
  filterLarger : Bool
  filterSmaller : BitVec 3
  MTBA : Bool
  L : BitVec 2
  K : ℤ
  deriving DecidableEq, Repr

structure CLAMP where
  wrapS : BitVec 2
  wrapT : BitVec 2
  minU : BitVec 10
  maxU : BitVec 10
  minV : BitVec 10
  maxV : BitVec 10
  deriving DecidableEq, Repr

structure XYOFFSET where
  x : BitVec 16
  y : BitVec 16
  deriving DecidableEq, Repr

/-- Levels 1–3 or 4–6. -/
structure MIPTBL where
  textureBase : ℕ × ℕ × ℕ
  width : ℕ × ℕ × ℕ
  deriving DecidableEq, Repr

structure SCISSOR where
  x1 : ℕ
  x2 : ℕ
  y1 : ℕ
  y2 : ℕ
  deriving DecidableEq, Repr

def SCISSOR.empty (s : SCISSOR) : Bool := s.x1 = s.x2 && s.y1 = s.y2

structure ALPHA where
  specA : BitVec 2
  specB : BitVec 2
  specC : BitVec 2
  specD : BitVec 2
  fixedAlpha : BitVec 8
  deriving DecidableEq, Repr

structure TEST where
  alphaTest : Bool
  alphaMethod : BitVec 3
  alphaRef : BitVec 8
  alphaFailMethod : BitVec 2
  destAlphaTest : Bool
  destAlphaMethod : Bool
  depthTest : Bool
  depthMethod : BitVec 2
  deriving DecidableEq, Repr

structure FRAME where
  basePointer : ℕ
  width : ℕ
  format : BitVec 6
  mask : BitVec 32
  deriving DecidableEq, Repr

structure ZBUF where
  basePointer : ℕ
  format : BitVec 6
  noUpdate : Bool
  deriving DecidableEq, Repr

structure GSContext where
  tex0 : TEX0
  tex1 : TEX1
  clamp : CLAMP
  xyoffset : XYOFFSET
  miptbl1 : MIPTBL
  miptbl2 : MIPTBL
  scissor : SCISSOR
  alpha : ALPHA
  test : TEST
  frame : FRAME
  zbuf : ZBUF
  FBA : Bool
  deriving DecidableEq, Repr

/-! ### The setters -/

/-- Some bits of a value as a number. -/
def bitsOf (value : DoubleWord) (start n : ℕ) : ℕ := (value.extractLsb' start n).toNat

/-- The size of a texture, of 1024 pixels at most. -/
def textureSize (exponent : ℕ) : ℕ := if exponent > 10 then 1 <<< 10 else 1 <<< exponent

/-- What TEX0 and TEX2 both set. -/
def TEX0.setClut (value : DoubleWord) (t : TEX0) : TEX0 :=
  { t with
    format := value.extractLsb' 20 6
    CLUTBase := bitsOf value 37 14 * 64 * 4
    CLUTFormat := value.extractLsb' 51 4
    useCSM2 := value.getLsbD 55
    CLUTOffset := if bitsOf value 51 4 < 2 then bitsOf value 56 4 * 16 * 4 else bitsOf value 56 5 * 16 * 2
    CLUTControl := value.extractLsb' 61 3 }

def TEX0.set (value : DoubleWord) (t : TEX0) : TEX0 :=
  { t.setClut value with
    textureBase := bitsOf value 0 14 * 64 * 4
    width := bitsOf value 14 6 * 64
    texWidth := textureSize (bitsOf value 26 4)
    texHeight := textureSize (bitsOf value 30 4)
    useAlpha := value.getLsbD 34
    colorFunction := value.extractLsb' 35 2 }

def miptblOf (value : DoubleWord) : MIPTBL where
  textureBase := (bitsOf value 0 14 * 64 * 4, bitsOf value 20 14 * 64 * 4, bitsOf value 40 14 * 64 * 4)
  width := (bitsOf value 14 6 * 64, bitsOf value 34 6 * 64, bitsOf value 54 6 * 64)

/-- "In the event that a z format is specified for FRAME the depth format will swap to a color format". -/
def FRAME.isZ (f : FRAME) : Bool := f.format &&& 0x30 = 0x30

namespace GSContext

variable (value : DoubleWord) (c : GSContext)

def setTex0 : GSContext := { c with tex0 := c.tex0.set value }

def setTex1 : GSContext :=
  { c with tex1 :=
    { LODMethod := value.getLsbD 0
      maxMIPLevel := value.extractLsb' 2 3
      filterLarger := value.getLsbD 5
      filterSmaller := value.extractLsb' 6 3
      MTBA := value.getLsbD 9
      L := value.extractLsb' 19 2
      K := (value.extractLsb' 32 12).toInt } }

def setTex2 : GSContext := { c with tex0 := c.tex0.setClut value }

def setClamp : GSContext :=
  { c with clamp :=
    { wrapS := value.extractLsb' 0 2
      wrapT := value.extractLsb' 2 2
      minU := value.extractLsb' 4 10
      maxU := value.extractLsb' 14 10
      minV := value.extractLsb' 24 10
      maxV := value.extractLsb' 34 10 } }

def setXyoffset : GSContext :=
  { c with xyoffset := { x := value.extractLsb' 0 16, y := value.extractLsb' 32 16 } }

def setMiptbl1 : GSContext := { c with miptbl1 := miptblOf value }

def setMiptbl2 : GSContext := { c with miptbl2 := miptblOf value }

/-- Coordinates have 4 bits of fraction. -/
def setScissor : GSContext :=
  { c with scissor :=
    { x1 := bitsOf value 0 11 <<< 4
      x2 := bitsOf value 16 11 <<< 4
      y1 := bitsOf value 32 11 <<< 4
      y2 := bitsOf value 48 11 <<< 4 } }

def setAlpha : GSContext :=
  { c with alpha :=
    { specA := value.extractLsb' 0 2
      specB := value.extractLsb' 2 2
      specC := value.extractLsb' 4 2
      specD := value.extractLsb' 6 2
      fixedAlpha := value.extractLsb' 32 8 } }

def setTest : GSContext :=
  { c with test :=
    { alphaTest := value.getLsbD 0
      alphaMethod := value.extractLsb' 1 3
      alphaRef := value.extractLsb' 4 8
      alphaFailMethod := value.extractLsb' 12 2
      destAlphaTest := value.getLsbD 14
      destAlphaMethod := value.getLsbD 15
      depthTest := value.getLsbD 16
      depthMethod := value.extractLsb' 17 2 } }

def setFrame : GSContext :=
  let frame : FRAME :=
    { basePointer := bitsOf value 0 9 * 2048 * 4
      width := bitsOf value 16 6 * 64
      format := value.extractLsb' 24 6
      mask := value.extractLsb' 32 32 }
  let format := if frame.isZ then c.zbuf.format &&& ~~~0x30 else c.zbuf.format ||| 0x30
  { c with
    frame
    zbuf := { c.zbuf with format } }

def setZbuf : GSContext :=
  let format : BitVec 6 := (value.extractLsb' 24 4).setWidth 6 ||| 0x30
  { c with zbuf :=
    { basePointer := bitsOf value 0 9 * 2048 * 4
      format := if c.frame.isZ then format &&& ~~~0x30 else format
      noUpdate := value.getLsbD 32 } }

/-- TEX1, the levels of the textures and FBA keep their values. -/
def reset : GSContext :=
  let c := ((((c.setTex0 0).setClamp 0).setXyoffset 0).setScissor 0).setAlpha 0
  let c := ((c.setTest 0).setFrame 0).setZbuf 0
  { c with zbuf := { c.zbuf with noUpdate := true } }

/-- All registers are 0. -/
def blank : GSContext where
  tex0 := ⟨0, 0, 0, 0, 0, false, 0, 0, 0, false, 0, 0⟩
  tex1 := ⟨false, 0, false, 0, false, 0, 0⟩
  clamp := ⟨0, 0, 0, 0, 0, 0⟩
  xyoffset := ⟨0, 0⟩
  miptbl1 := ⟨(0, 0, 0), (0, 0, 0)⟩
  miptbl2 := ⟨(0, 0, 0), (0, 0, 0)⟩
  scissor := ⟨0, 0, 0, 0⟩
  alpha := ⟨0, 0, 0, 0, 0⟩
  test := ⟨false, 0, 0, 0, false, false, false, 0⟩
  frame := ⟨0, 0, 0, 0⟩
  zbuf := ⟨0, 0, false⟩
  FBA := false

end GSContext

end DobieStation.GsThread
