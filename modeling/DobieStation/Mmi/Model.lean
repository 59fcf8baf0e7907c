import DobieStation.Ee.Instructions
import DobieStation.Lib.Lanes

/-! # Packed instructions of the EE

The handlers of `emotion_mmi.cpp` that work on the lanes of a register: the parallel shifts, PMFHL and
PMTHL, and of MMI0 to MMI3 those that do not multiply or divide. Each is the loop that the interpreter
runs, in place on the general registers, so a lane that an iteration stores is what a later one loads. -/

namespace DobieStation.Mmi.Model

open DobieStation.Lib.InPlace DobieStation.Lib.Lanes
open DobieStation.Ee.Interface (Word Quad U128 Registers)
open DobieStation.Ee.Instructions (rs rt rd funct)

/-! ### Registers -/

/-- The general registers. -/
abbrev File := BitVec 5 → Quad

variable {w : ℕ}

def getGpr (w : ℕ) (g : File) (id : BitVec 5) (offset : ℕ) : BitVec w := lane w (g id) offset

def setGpr (g : File) (id : BitVec 5) (value : BitVec w) (offset : ℕ) : File :=
  if id = 0 then g else Function.update g id (setLane (g id) offset value)

/-- LO or HI, with its upper half LO1 or HI1. -/
def quad (u : U128) : Quad := u.hi ++ u.lo

/-- The field `sa` of an instruction. -/
def sa (i : Word) (bits : ℕ) : ℕ := (i.extractLsb' 6 bits).toNat

/-- SA counts bytes of a quadword, and the register 0 is zero. -/
structure Valid (r : Registers) : Prop where
  zero : r.gpr 0 = 0
  sa : r.SA.toNat < 16

abbrev Handler := Word → File → File

/-! ### Loops over lanes -/

/-- Loads a lane of both sources and stores that lane. -/
def lanewise (n : ℕ) (f : BitVec w → BitVec w → BitVec w) : Handler := fun i =>
  sweep (fun k g => setGpr g (rd i) (f (getGpr w g (rs i) k) (getGpr w g (rt i) k)) k) n

/-- Loads both sources before it stores. -/
def compared (n : ℕ) (p : BitVec w → BitVec w → Bool) : Handler := fun i g =>
  let qw1 := getGpr 128 g (rs i) 0
  let qw2 := getGpr 128 g (rt i) 0
  let dest := ofLanes 128 n fun k =>
    if p (lane w qw1 k) (lane w qw2 k) then BitVec.allOnes w else 0#w
  setGpr g (rd i) dest 0

/-- Interleaves the lanes of a doubleword of both sources. -/
def pext (w n half : ℕ) : Handler := fun i g =>
  let dw1 := getGpr 64 g (rs i) half
  let dw2 := getGpr 64 g (rt i) half
  sweep (fun k g => setGpr (setGpr g (rd i) (lane w dw2 k) (k * 2)) (rd i) (lane w dw1 k) (k * 2 + 1))
    n g

/-- The lower half of every lane of both sources. -/
def ppac (w n : ℕ) : Handler := fun i g =>
  let qw1 := getGpr 128 g (rs i) 0
  let qw2 := getGpr 128 g (rt i) 0
  sweep (fun k g =>
      setGpr (setGpr g (rd i) ((lane (2 * w) qw1 k).setWidth w) (k + n)) (rd i)
        ((lane (2 * w) qw2 k).setWidth w) k)
    n g

/-! ### Lanes -/

/-- A signed result, brought between two bounds. -/
def clamped (w : ℕ) (top bottom value : ℤ) : BitVec w :=
  let value := if value > top then top else value
  let value := if value < bottom then bottom else value
  BitVec.ofInt w value

/-- Computed at twice the width, where a carry shows. -/
def addUnsigned (x y : BitVec w) : BitVec w :=
  let result := x.setWidth (2 * w) + y.setWidth (2 * w)
  if result > (BitVec.allOnes w).setWidth (2 * w) then BitVec.allOnes w else result.setWidth w

/-- Computed at twice the width, where a borrow shows. -/
def subUnsigned (x y : BitVec w) : BitVec w :=
  let result := x.setWidth (2 * w) - y.setWidth (2 * w)
  if result > (BitVec.allOnes w).setWidth (2 * w) then 0#w else result.setWidth w

def absolute (x : BitVec w) : BitVec w :=
  if x = BitVec.intMin w then BitVec.intMax w else if x.toInt < 0 then -x else x

def larger (x y : BitVec w) : BitVec w := if x.toInt > y.toInt then x else y

def smaller (x y : BitVec w) : BitVec w := if x.toInt < y.toInt then x else y

/-- The shift is computed on words, and its result is sign-extended. -/
def shiftedBy (shift : BitVec 32 → ℕ → BitVec 32) (x y : BitVec 64) : BitVec 64 :=
  (shift (y.setWidth 32) (x &&& 0x1F).toNat).signExtend 64

def unpack5 (x : Word) : Word :=
  let packed := x &&& 0xFFFF
  let unpacked := (packed &&& 1 <<< 15) <<< 16
  let unpacked := unpacked ||| ((packed >>> 10) &&& 0x1F) <<< 19
  let unpacked := unpacked ||| ((packed >>> 5) &&& 0x1F) <<< 11
  unpacked ||| (packed &&& 0x1F) <<< 3

def pack5 (unpacked : Word) : Word :=
  let packed := (unpacked >>> 3) &&& 0x1F
  let packed := packed ||| ((unpacked >>> 11) &&& 0x1F) <<< 5
  let packed := packed ||| ((unpacked >>> 19) &&& 0x1F) <<< 10
  packed ||| (unpacked &&& 1 <<< 31) >>> 16

def clampDoubleword (word : BitVec 64) : BitVec 64 :=
  if word.toInt ≥ 0x7FFFFFFF then 0x7FFFFFFF
  else if word.toInt ≤ (0xFFFFFFFF80000000 : BitVec 64).toInt then 0xFFFFFFFF80000000
  else (word.setWidth 32).signExtend 64

/-- The lower bound has a digit too many, and as an `int32_t` it is -0x80000. -/
def clampHalfword (word : BitVec 32) : BitVec 16 :=
  if word.toInt > (0x00007FFF : BitVec 32).toInt then 0x7FFF
  else if word.toInt < (BitVec.ofNat 32 0xFFFF80000).toInt then 0x8000
  else word.setWidth 16

def swap {α : Type} (a b : ℕ) (d : ℕ → α) : ℕ → α :=
  Function.update (Function.update d a (d b)) b (d a)

def swapLanes (w a b : ℕ) (q : Quad) : Quad := setLane (setLane q a (lane w q b)) b (lane w q a)

/-! ### Parallel shifts -/

def psllh : Handler := fun i => lanewise 8 (fun _ (x : BitVec 16) => x <<< sa i 4) i

def psrlh : Handler := fun i => lanewise 8 (fun _ (x : BitVec 16) => x >>> sa i 4) i

def psrah : Handler := fun i => lanewise 8 (fun _ (x : BitVec 16) => x.sshiftRight (sa i 4)) i

def psllw : Handler := fun i => lanewise 4 (fun _ (x : BitVec 32) => x <<< sa i 5) i

def psrlw : Handler := fun i => lanewise 4 (fun _ (x : BitVec 32) => x >>> sa i 5) i

def psraw : Handler := fun i => lanewise 4 (fun _ (x : BitVec 32) => x.sshiftRight (sa i 5)) i

/-! ### PMFHL and PMTHL -/

/-- The handlers of PMFHL put their result together before they store it. -/
def fromHILO (data : Quad → Quad → Quad) (r : Registers) : Handler := fun i g =>
  setGpr g (rd i) (data (quad r.LO) (quad r.HI)) 0

def pmfhllw : Registers → Handler := fromHILO fun lo hi =>
  sweep (fun k data =>
    setLane (setLane data (k * 2) (lane 32 lo (k * 2))) (k * 2 + 1) (lane 32 hi (k * 2))) 2 0

def pmfhluw : Registers → Handler := fromHILO fun lo hi =>
  sweep (fun k data =>
    setLane (setLane data (k * 2) (lane 32 lo (k * 2 + 1))) (k * 2 + 1) (lane 32 hi (k * 2 + 1))) 2 0

def pmfhlslw : Registers → Handler := fromHILO fun lo hi =>
  let word (k : ℕ) : BitVec 64 := (lane 32 lo k).setWidth 64 ||| (lane 32 hi k).setWidth 64 <<< 32
  setLane (setLane 0 0 (clampDoubleword (word 0))) 1 (clampDoubleword (word 2))

def pmfhllh : Registers → Handler := fromHILO fun lo hi =>
  let data := sweep (fun k data =>
    setLane (setLane data (k * 2) (lane 16 lo (k * 2))) (k * 2 + 1) (lane 16 hi (k * 2))) 4 0
  swapLanes 16 5 6 (swapLanes 16 1 2 data)

def pmfhlsh : Registers → Handler := fromHILO fun lo hi =>
  let data := setLane 0 0 (clampHalfword (lane 32 lo 0))
  let data := setLane data 1 (clampHalfword (lane 32 lo 1))
  let data := setLane data 2 (clampHalfword (lane 32 hi 0))
  let data := setLane data 3 (clampHalfword (lane 32 hi 1))
  let data := setLane data 4 (clampHalfword (lane 32 lo 2))
  let data := setLane data 5 (clampHalfword (lane 32 lo 3))
  let data := setLane data 6 (clampHalfword (lane 32 hi 2))
  setLane data 7 (clampHalfword (lane 32 hi 3))

def halves (q : Quad) : U128 := ⟨lane 64 q 0, lane 64 q 1⟩

def pmthllw (i : Word) (r : Registers) : Registers :=
  let source := getGpr 128 r.gpr (rs i) 0
  let lo := sweep (fun k lo => setLane lo (k * 2) (lane 32 source (k * 2))) 2 (quad r.LO)
  let hi := sweep (fun k hi => setLane hi (k * 2) (lane 32 source (k * 2 + 1))) 2 (quad r.HI)
  { r with LO := halves lo, HI := halves hi }

/-! ### MMI0 -/

def paddw : Handler := lanewise 4 fun (x y : BitVec 32) => x + y

def psubw : Handler := lanewise 4 fun (x y : BitVec 32) => x - y

def pcgtw : Handler := compared 4 fun (x y : BitVec 32) => x.toInt > y.toInt

def pmaxw : Handler := lanewise 4 fun (x y : BitVec 32) => larger x y

def paddh : Handler := lanewise 8 fun (x y : BitVec 16) => x + y

def psubh : Handler := lanewise 8 fun (x y : BitVec 16) => x - y

def pcgth : Handler := compared 8 fun (x y : BitVec 16) => x.toInt > y.toInt

def pmaxh : Handler := lanewise 8 fun (x y : BitVec 16) => larger x y

def paddb : Handler := lanewise 16 fun (x y : BitVec 8) => x + y

def psubb : Handler := lanewise 16 fun (x y : BitVec 8) => x - y

def pcgtb : Handler := compared 16 fun (x y : BitVec 8) => x.toInt > y.toInt

def paddsw : Handler :=
  lanewise 4 fun (x y : BitVec 32) => clamped 32 0x7FFFFFFF (-0x80000000) (x.toInt + y.toInt)

def psubsw : Handler :=
  lanewise 4 fun (x y : BitVec 32) => clamped 32 0x7FFFFFFF (-0x80000000) (x.toInt - y.toInt)

def pextlw : Handler := pext 32 2 0

def ppacw : Handler := fun i g =>
  let qw1 := getGpr 128 g (rs i) 0
  let qw2 := getGpr 128 g (rt i) 0
  let g := setGpr g (rd i) ((lane 64 qw2 0).setWidth 32) 0
  let g := setGpr g (rd i) ((lane 64 qw2 1).setWidth 32) 1
  let g := setGpr g (rd i) ((lane 64 qw1 0).setWidth 32) 2
  setGpr g (rd i) ((lane 64 qw1 1).setWidth 32) 3

def paddsh : Handler :=
  lanewise 8 fun (x y : BitVec 16) => clamped 16 0x7FFF (-0x8000) (x.toInt + y.toInt)

def psubsh : Handler :=
  lanewise 8 fun (x y : BitVec 16) => clamped 16 0x7FFF (-0x8000) (x.toInt - y.toInt)

def pextlh : Handler := pext 16 4 0

def ppach : Handler := ppac 16 4

def paddsb : Handler :=
  lanewise 16 fun (x y : BitVec 8) => clamped 8 0x7F (-0x80) (x.toInt + y.toInt)

def psubsb : Handler :=
  lanewise 16 fun (x y : BitVec 8) => clamped 8 0x7F (-0x80) (x.toInt - y.toInt)

def pextlb : Handler := pext 8 8 0

def ppacb : Handler := ppac 8 8

def pext5 : Handler := lanewise 4 fun _ => unpack5

def ppac5 : Handler := lanewise 4 fun _ => pack5

/-! ### MMI1 -/

def pabsw : Handler := lanewise 4 fun _ (x : BitVec 32) => absolute x

def pceqw : Handler := compared 4 fun (x y : BitVec 32) => x = y

def pminw : Handler := lanewise 4 fun (x y : BitVec 32) => smaller x y

def pabsh : Handler := lanewise 8 fun _ (x : BitVec 16) => absolute x

def pceqh : Handler := compared 8 fun (x y : BitVec 16) => x = y

def padsbh : Handler := fun i =>
  sweep (fun k g =>
    let hw1 := getGpr 16 g (rs i) k
    let hw2 := getGpr 16 g (rs i) (k + 4)
    let hw1 := hw1 - getGpr 16 g (rt i) k
    let hw2 := hw2 + getGpr 16 g (rt i) (k + 4)
    setGpr (setGpr g (rd i) hw1 k) (rd i) hw2 (k + 4)) 4

def padduw : Handler := lanewise 4 fun (x y : BitVec 32) => addUnsigned x y

def psubuw : Handler := lanewise 4 fun (x y : BitVec 32) => subUnsigned x y

def pminh : Handler := lanewise 8 fun (x y : BitVec 16) => smaller x y

def pceqb : Handler := compared 16 fun (x y : BitVec 8) => x = y

def pextuw : Handler := pext 32 2 1

def padduh : Handler := lanewise 8 fun (x y : BitVec 16) => addUnsigned x y

def psubuh : Handler := lanewise 8 fun (x y : BitVec 16) => subUnsigned x y

def pextuh : Handler := pext 16 4 1

def paddub : Handler := lanewise 16 fun (x y : BitVec 8) => addUnsigned x y

def psubub : Handler := lanewise 16 fun (x y : BitVec 8) => subUnsigned x y

def pextub : Handler := pext 8 8 1

def qfsrv (SA : BitVec 64) : Handler := fun i g =>
  let rs := getGpr 128 g (rs i) 0
  let rt := getGpr 128 g (rt i) 0
  let rs0 := lane 64 rs 0
  let rs1 := lane 64 rs 1
  let rt0 := lane 64 rt 0
  let rt1 := lane 64 rt 1
  let shift := SA.toNat * 8
  let dest : Quad :=
    if shift = 0 then rt
    else if shift < 64 then
      setLane (setLane 0 0 (rt0 >>> shift ||| rt1 <<< (64 - shift))) 1
        (rt1 >>> shift ||| rs0 <<< (64 - shift))
    else if shift ≠ 64 then
      setLane (setLane 0 0 (rt1 >>> (shift - 64) ||| rs0 <<< (128 - shift))) 1
        (rs0 >>> (shift - 64) ||| rs1 <<< (128 - shift))
    else setLane (setLane 0 0 (rt1 >>> (shift - 64))) 1 (rs0 >>> (shift - 64))
  setGpr g (rd i) dest 0

/-! ### MMI2 -/

def psllvw : Handler := lanewise 2 (shiftedBy fun x s => x <<< s)

def psrlvw : Handler := lanewise 2 (shiftedBy fun x s => x >>> s)

/-- `pmfhi` and `pmflo`. -/
def moved (u : U128) : Handler := fun i g => setGpr (setGpr g (rd i) u.lo 0) (rd i) u.hi 1

def pmfhi (r : Registers) : Handler := moved r.HI

def pmflo (r : Registers) : Handler := moved r.LO

def pinth : Handler := fun i =>
  sweep (fun k g =>
    let hw1 := getGpr 16 g (rs i) (k + 4)
    let hw2 := getGpr 16 g (rt i) k
    setGpr (setGpr g (rd i) hw1 (k * 2 + 1)) (rd i) hw2 (k * 2)) 4

def pcpyld : Handler := fun i g =>
  let high := getGpr 64 g (rs i) 0
  let low := getGpr 64 g (rt i) 0
  setGpr (setGpr g (rd i) low 0) (rd i) high 1

def pand : Handler := lanewise 2 fun (x y : BitVec 64) => x &&& y

def pxor : Handler := lanewise 2 fun (x y : BitVec 64) => x ^^^ y

def pexeh : Handler := fun i g =>
  setGpr g (rd i) (swapLanes 16 4 6 (swapLanes 16 0 2 (getGpr 128 g (rt i) 0))) 0

def prevh : Handler := fun i g =>
  let data := swapLanes 16 1 2 (swapLanes 16 0 3 (getGpr 128 g (rt i) 0))
  setGpr g (rd i) (swapLanes 16 5 6 (swapLanes 16 4 7 data)) 0

def pexew : Handler := fun i g => setGpr g (rd i) (swapLanes 32 0 2 (getGpr 128 g (rt i) 0)) 0

def prot3w : Handler := fun i g =>
  let s := getGpr 128 g (rt i) 0
  let d : Quad := setLane (setLane 0 0 (lane 32 s 1)) 1 (lane 32 s 2)
  setGpr g (rd i) (setLane (setLane d 2 (lane 32 s 0)) 3 (lane 32 s 3)) 0

/-! ### MMI3 -/

def psravw : Handler := lanewise 2 (shiftedBy fun x s => x.sshiftRight s)

def pmthi (i : Word) (r : Registers) : Registers :=
  { r with HI := ⟨getGpr 64 r.gpr (rs i) 0, getGpr 64 r.gpr (rs i) 1⟩ }

def pmtlo (i : Word) (r : Registers) : Registers :=
  { r with LO := ⟨getGpr 64 r.gpr (rs i) 0, getGpr 64 r.gpr (rs i) 1⟩ }

def pinteh : Handler := fun i =>
  sweep (fun k g =>
    let hw1 := (getGpr 32 g (rs i) k &&& 0xFFFF).setWidth 16
    let hw2 := (getGpr 32 g (rt i) k &&& 0xFFFF).setWidth 16
    setGpr (setGpr g (rd i) hw1 (k * 2 + 1)) (rd i) hw2 (k * 2)) 4

def pcpyud : Handler := fun i g =>
  let high := getGpr 64 g (rs i) 1
  let low := getGpr 64 g (rt i) 1
  setGpr (setGpr g (rd i) high 0) (rd i) low 1

def por : Handler := lanewise 2 fun (x y : BitVec 64) => x ||| y

def pnor : Handler := lanewise 2 fun (x y : BitVec 64) => ~~~(x ||| y)

/-- The source as an array, with two entries exchanged at each of `pairs`. -/
def exchanged (w n : ℕ) (pairs : List (ℕ × ℕ)) : Handler := fun i g =>
  let data := pairs.foldl (fun d p => swap p.1 p.2 d) fun k => getGpr w g (rt i) k
  sweep (fun k g => setGpr g (rd i) (data k) k) n g

def pexch : Handler := exchanged 16 8 [(1, 2), (5, 6)]

def pcpyh : Handler := fun i g =>
  let g := sweep (fun k g => setGpr g (rd i) (getGpr 16 g (rt i) 0) k) 4 g
  sweep (fun k g => setGpr g (rd i) (getGpr 16 g (rt i) 4) (k + 4)) 4 g

def pexcw : Handler := exchanged 32 4 [(1, 2)]

/-! ### SA -/

def mtsa (i : Word) (r : Registers) : Registers :=
  { r with SA := getGpr 64 r.gpr (rs i) 0 &&& 0xF }

def mtsab (i : Word) (r : Registers) : Registers :=
  let reg := (getGpr 32 r.gpr (rs i) 0 &&& 0xF) ^^^ (i &&& 0xF)
  { r with SA := reg.setWidth 64 }

def mtsah (i : Word) (r : Registers) : Registers :=
  let reg := (getGpr 32 r.gpr (rs i) 0 &&& 0x7) ^^^ (i &&& 0x7)
  { r with SA := (reg * 2).setWidth 64 }

/-! ### The instructions -/

inductive Packed where
  | psllh | psrlh | psrah | psllw | psrlw | psraw
  | pmfhllw | pmfhluw | pmfhlslw | pmfhllh | pmfhlsh | pmthllw
  | paddw | psubw | pcgtw | pmaxw | paddh | psubh | pcgth | pmaxh | paddb | psubb | pcgtb
  | paddsw | psubsw | pextlw | ppacw | paddsh | psubsh | pextlh | ppach | paddsb | psubsb | pextlb | ppacb | pext5 | ppac5
  | pabsw | pceqw | pminw | padsbh | pabsh | pceqh | pminh | pceqb
  | padduw | psubuw | pextuw | padduh | psubuh | pextuh | paddub | psubub | pextub | qfsrv
  | psllvw | psrlvw | pmfhi | pmflo | pinth | pcpyld | pand | pxor | pexeh | prevh | pexew | prot3w
  | psravw | pmthi | pmtlo | pinteh | pcpyud | por | pnor | pexch | pcpyh | pexcw
  deriving DecidableEq

def onFile (h : Handler) (i : Word) (r : Registers) : Registers := { r with gpr := h i r.gpr }

def execute (op : Packed) (i : Word) (r : Registers) : Registers :=
  match op with
  | .psllh => onFile psllh i r
  | .psrlh => onFile psrlh i r
  | .psrah => onFile psrah i r
  | .psllw => onFile psllw i r
  | .psrlw => onFile psrlw i r
  | .psraw => onFile psraw i r
  | .pmfhllw => onFile (pmfhllw r) i r
  | .pmfhluw => onFile (pmfhluw r) i r
  | .pmfhlslw => onFile (pmfhlslw r) i r
  | .pmfhllh => onFile (pmfhllh r) i r
  | .pmfhlsh => onFile (pmfhlsh r) i r
  | .pmthllw => pmthllw i r
  | .paddw => onFile paddw i r
  | .psubw => onFile psubw i r
  | .pcgtw => onFile pcgtw i r
  | .pmaxw => onFile pmaxw i r
  | .paddh => onFile paddh i r
  | .psubh => onFile psubh i r
  | .pcgth => onFile pcgth i r
  | .pmaxh => onFile pmaxh i r
  | .paddb => onFile paddb i r
  | .psubb => onFile psubb i r
  | .pcgtb => onFile pcgtb i r
  | .paddsw => onFile paddsw i r
  | .psubsw => onFile psubsw i r
  | .pextlw => onFile pextlw i r
  | .ppacw => onFile ppacw i r
  | .paddsh => onFile paddsh i r
  | .psubsh => onFile psubsh i r
  | .pextlh => onFile pextlh i r
  | .ppach => onFile ppach i r
  | .paddsb => onFile paddsb i r
  | .psubsb => onFile psubsb i r
  | .pextlb => onFile pextlb i r
  | .ppacb => onFile ppacb i r
  | .pext5 => onFile pext5 i r
  | .ppac5 => onFile ppac5 i r
  | .pabsw => onFile pabsw i r
  | .pceqw => onFile pceqw i r
  | .pminw => onFile pminw i r
  | .padsbh => onFile padsbh i r
  | .pabsh => onFile pabsh i r
  | .pceqh => onFile pceqh i r
  | .pminh => onFile pminh i r
  | .pceqb => onFile pceqb i r
  | .padduw => onFile padduw i r
  | .psubuw => onFile psubuw i r
  | .pextuw => onFile pextuw i r
  | .padduh => onFile padduh i r
  | .psubuh => onFile psubuh i r
  | .pextuh => onFile pextuh i r
  | .paddub => onFile paddub i r
  | .psubub => onFile psubub i r
  | .pextub => onFile pextub i r
  | .qfsrv => onFile (qfsrv r.SA) i r
  | .psllvw => onFile psllvw i r
  | .psrlvw => onFile psrlvw i r
  | .pmfhi => onFile (pmfhi r) i r
  | .pmflo => onFile (pmflo r) i r
  | .pinth => onFile pinth i r
  | .pcpyld => onFile pcpyld i r
  | .pand => onFile pand i r
  | .pxor => onFile pxor i r
  | .pexeh => onFile pexeh i r
  | .prevh => onFile prevh i r
  | .pexew => onFile pexew i r
  | .prot3w => onFile prot3w i r
  | .psravw => onFile psravw i r
  | .pmthi => pmthi i r
  | .pmtlo => pmtlo i r
  | .pinteh => onFile pinteh i r
  | .pcpyud => onFile pcpyud i r
  | .por => onFile por i r
  | .pnor => onFile pnor i r
  | .pexch => onFile pexch i r
  | .pcpyh => onFile pcpyh i r
  | .pexcw => onFile pexcw i r

/-! ### Lookup

`none` stands for the instructions that multiply, divide or move LO and HI, and for the unknown ones. -/

def pmfhlfmt (i : Word) : Option Packed :=
  match sa i 5 with
  | 0x00 => some .pmfhllw
  | 0x01 => some .pmfhluw
  | 0x02 => some .pmfhlslw
  | 0x03 => some .pmfhllh
  | 0x04 => some .pmfhlsh
  | _ => none

def mmi0 (i : Word) : Option Packed :=
  match sa i 5 with
  | 0x00 => some .paddw
  | 0x01 => some .psubw
  | 0x02 => some .pcgtw
  | 0x03 => some .pmaxw
  | 0x04 => some .paddh
  | 0x05 => some .psubh
  | 0x06 => some .pcgth
  | 0x07 => some .pmaxh
  | 0x08 => some .paddb
  | 0x09 => some .psubb
  | 0x0A => some .pcgtb
  | 0x10 => some .paddsw
  | 0x11 => some .psubsw
  | 0x12 => some .pextlw
  | 0x13 => some .ppacw
  | 0x14 => some .paddsh
  | 0x15 => some .psubsh
  | 0x16 => some .pextlh
  | 0x17 => some .ppach
  | 0x18 => some .paddsb
  | 0x19 => some .psubsb
  | 0x1A => some .pextlb
  | 0x1B => some .ppacb
  | 0x1E => some .pext5
  | 0x1F => some .ppac5
  | _ => none

def mmi1 (i : Word) : Option Packed :=
  match sa i 5 with
  | 0x01 => some .pabsw
  | 0x02 => some .pceqw
  | 0x03 => some .pminw
  | 0x04 => some .padsbh
  | 0x05 => some .pabsh
  | 0x06 => some .pceqh
  | 0x07 => some .pminh
  | 0x0A => some .pceqb
  | 0x10 => some .padduw
  | 0x11 => some .psubuw
  | 0x12 => some .pextuw
  | 0x14 => some .padduh
  | 0x15 => some .psubuh
  | 0x16 => some .pextuh
  | 0x18 => some .paddub
  | 0x19 => some .psubub
  | 0x1A => some .pextub
  | 0x1B => some .qfsrv
  | _ => none

def mmi2 (i : Word) : Option Packed :=
  match sa i 5 with
  | 0x02 => some .psllvw
  | 0x03 => some .psrlvw
  | 0x08 => some .pmfhi
  | 0x09 => some .pmflo
  | 0x0A => some .pinth
  | 0x0E => some .pcpyld
  | 0x12 => some .pand
  | 0x13 => some .pxor
  | 0x1A => some .pexeh
  | 0x1B => some .prevh
  | 0x1E => some .pexew
  | 0x1F => some .prot3w
  | _ => none

def mmi3 (i : Word) : Option Packed :=
  match sa i 5 with
  | 0x03 => some .psravw
  | 0x08 => some .pmthi
  | 0x09 => some .pmtlo
  | 0x0A => some .pinteh
  | 0x0E => some .pcpyud
  | 0x12 => some .por
  | 0x13 => some .pnor
  | 0x1A => some .pexch
  | 0x1B => some .pcpyh
  | 0x1E => some .pexcw
  | _ => none

def mmi (i : Word) : Option Packed :=
  match funct i with
  | 0x08 => mmi0 i
  | 0x09 => mmi2 i
  | 0x28 => mmi1 i
  | 0x29 => mmi3 i
  | 0x30 => pmfhlfmt i
  | 0x31 => some .pmthllw
  | 0x34 => some .psllh
  | 0x36 => some .psrlh
  | 0x37 => some .psrah
  | 0x3C => some .psllw
  | 0x3E => some .psrlw
  | 0x3F => some .psraw
  | _ => none

end DobieStation.Mmi.Model
