import DobieStation.Dma.Model
import DobieStation.Lib.Reach
import Mathlib.Data.Fin.VecNotation

/-! # The vector interfaces

The translation of `ee/vif.cpp`. What a VIF drives (the GIF, its VU, the interrupts and the requests
of its DMA channel) is a parameter. VIF0 has no GIF: a call of it there has no result, as an index
outside of an array and a value that is not initialised. `mem_mask` and `fifo_size`, which `reset`
sets by the number of the VIF, are functions of it. -/

namespace DobieStation.Vif.Model

open DobieStation.Lib.Hoare DobieStation.Lib.Reach
open DobieStation.Dma.Model (Quad)

abbrev Word := BitVec 32

inductive Status where
  | VIF_IDLE
  | VIF_WAIT
  | VIF_DECODE
  | VIF_TRANSFER
  deriving DecidableEq, Repr

/-- The bits of `vif_stalled`. -/
structure Stalls where
  IBIT : Bool
  MSKPATH3 : Bool
  STOP : Bool
  DIRECT : Bool
  FORCEBREAK : Bool
  deriving DecidableEq, Repr

def Stalls.none : Stalls := ⟨false, false, false, false, false⟩

def Stalls.any (s : Stalls) : Bool := s.IBIT || s.MSKPATH3 || s.STOP || s.DIRECT || s.FORCEBREAK

structure Unpack where
  addr : Word
  signExtend : Bool
  masked : Bool
  offset : ℕ
  num : ℕ
  cmd : BitVec 4
  blocksWritten : ℕ
  wordsPerOp : ℕ
  deriving DecidableEq, Repr

structure ErrReg where
  maskInterrupt : Bool
  maskDmatagError : Bool
  maskVifcodeError : Bool
  deriving DecidableEq, Repr

/-- `id` is true for VIF1. -/
structure VectorInterface where
  id : Bool
  FIFO : List Word
  internalFIFO : List Word
  imm : BitVec 16
  command : BitVec 8
  mpgAddr : Word
  unpack : Unpack
  ibitDetected : Bool
  stalled : Stalls
  cmdStatus : Status
  interrupt : Bool
  stop : Bool
  forcebreak : Bool
  fifoReverse : Bool
  waitForVU : Bool
  directWait : Bool
  waitForPATH3 : Bool
  flushStall : Bool
  stallConditionActive : Bool
  waitCmdValue : Word
  buffer : Fin 4 → Word
  bufferSize : ℕ
  internalWL : BitVec 16
  DBF : Bool
  markDetected : Bool
  ERR : ErrReg
  CL : BitVec 8
  WL : BitVec 8
  OFST : BitVec 16
  BASE : BitVec 16
  TOPS : BitVec 16
  TOP : BitVec 16
  ITOPS : BitVec 16
  ITOP : BitVec 16
  MODE : BitVec 8
  MASK : Word
  CODE : Word
  ROW : Fin 4 → Word
  COL : Fin 4 → Word
  MARK : Word
  commandLen : ℕ

def VectorInterface.memMask (v : VectorInterface) : BitVec 16 := if v.id then 0x3FF else 0xFF

def VectorInterface.fifoSize (v : VectorInterface) : ℕ := if v.id then 64 else 32

/-- What a VIF drives, on the state `W` of all of it. -/
structure Peripherals (W : Type) where
  activePath : W → ℕ
  pathQueue : W → BitVec 8
  requestPATH2 : Bool → W → W
  pathActive2 : Bool → W → Bool × W
  deactivatePATH2 : W → W
  sendPATH2 : (Fin 4 → Word) → W → W
  setPath3Vifmask : Bool → W → Bool × W
  resumePath3 : W → W
  path3Done : W → Bool
  readGSFIFO : W → (Quad × Bool) × W
  vuIsRunning : W → Bool
  vuStoppedByTbit : W → Bool
  vuStartProgram : Word → ℕ → W → W
  vuGetPC : W → Word
  vuWriteInstr : Word → Word → W → W
  vuReadMem : Word → W → Word
  vuWriteMem : Word → Quad → W → W
  assertIRQ : W → W
  setDMARequest : W → W
  clearDMARequest : W → W

structure State (W : Type) where
  vif : VectorInterface
  world : W

variable {W : Type}

abbrev M (W α : Type) := StateT (State W) Option α

/-! ### Access to the state -/

def vif : M W VectorInterface := do return (← get).vif

def modifyVIF (f : VectorInterface → VectorInterface) : M W Unit :=
  modify fun s => { s with vif := f s.vif }

def modifyUnpack (f : Unpack → Unpack) : M W Unit :=
  modifyVIF fun v => { v with unpack := f v.unpack }

def drive (f : W → W) : M W Unit := modify fun s => { s with world := f s.world }

/-- A call that returns a value. -/
def ask {α : Type} (f : W → α × W) : M W α := do
  let s ← get
  drive fun w => (f w).2
  return (f s.world).1

/-- There is a GIF to call. -/
def needGIF : M W Unit := do
  if (← vif).id then pure () else failure

/-- An index into an array of four. -/
def index4 (n : ℕ) : M W (Fin 4) := if h : n < 4 then pure ⟨n, h⟩ else failure

def setCommand (command : BitVec 8) : M W Unit := modifyVIF fun v => { v with command := command }

def setStatus (status : Status) : M W Unit := modifyVIF fun v => { v with cmdStatus := status }

/-- Bits 5 and 6 of the command are set. -/
def isUnpack (command : BitVec 8) : Bool := command &&& 0x60#8 == 0x60#8

variable (P : Peripherals W)

/-! ### Stalls -/

/-- A VIFcode with the i bit stalls the VIF at the next one, if that is not MARK. -/
def noteIbit (value : Word) : M W Unit := do
  if (← vif).ibitDetected then
    modifyVIF fun v => { v with ibitDetected := false, interrupt := true }
    drive P.assertIRQ
    if (value >>> 24) &&& 0x7F#32 ≠ 0x7#32 then
      modifyVIF fun v => { v with stalled := { v.stalled with IBIT := true } }

/-- A stop and a force break stall the VIF between two codes. -/
def noteStop : M W Unit := modifyVIF fun v =>
  { v with stalled := { v.stalled with
      STOP := v.stalled.STOP || v.stop
      FORCEBREAK := v.stalled.FORCEBREAK || v.forcebreak } }

def noteStalls (value : Word) : M W Unit := do
  noteIbit P value
  noteStop

def checkVifStall (value : Word) : M W Bool := do
  (if (← vif).command = 0 then noteStalls P value else pure ())
  let v ← vif
  return v.stalled.IBIT || v.stalled.STOP || v.stalled.FORCEBREAK

/-! ### Codes -/

/-- The double buffers of VIF1 are swapped. -/
def swapBuffers (v : VectorInterface) : VectorInterface :=
  { v with
    TOP := v.TOPS &&& v.memMask
    TOPS := if v.DBF then v.BASE else v.BASE + v.OFST
    DBF := !v.DBF }

def MSCAL (addr : Word) (cycles : ℕ) : M W Unit := do
  drive (P.vuStartProgram addr cycles)
  modifyVIF fun v => { v with ITOP := v.ITOPS &&& v.memMask }
  if (← vif).id then modifyVIF swapBuffers

/-- The code is waited for: the VU, PATH1 and PATH2 (`flush`), and PATH3. -/
def waitFor (flush path3 : Bool) (value : Word) : M W Unit := modifyVIF fun v =>
  { v with
    waitForVU := true
    flushStall := v.flushStall || (flush && v.id)
    waitForPATH3 := v.waitForPATH3 || (path3 && v.id)
    stallConditionActive := true
    waitCmdValue := value }

/-- The code has no data. -/
def finishCode (f : VectorInterface → VectorInterface) : M W Unit :=
  modifyVIF fun v => { f v with command := 0 }

def lengthen (words : ℕ) : M W Unit :=
  modifyVIF fun v => { v with commandLen := v.commandLen + words }

def roundUp32 (n : ℕ) : ℕ := (n + 31) / 32 * 32

/-- The bits of a vector of the format; V4-5 has 16. -/
def bitsPerOp (vl vn : ℕ) : ℕ := if vl = 3 ∧ vn = 3 then 16 else (32 >>> vl) * (vn + 1)

/-- The vectors that are read for `num` that are written. -/
def dataRead (v : VectorInterface) (num : ℕ) : ℕ :=
  if v.internalWL.toNat ≤ v.CL.toNat then num
  else v.CL.toNat * (num / v.internalWL.toNat) + min (num % v.internalWL.toNat) v.CL.toNat

def unpackNum (value : Word) : ℕ :=
  let num := (value.extractLsb' 16 8).toNat
  if num = 0 then 256 else num

def initUNPACK (value : Word) : M W Unit := do
  let v ← vif
  let vl := (v.command.extractLsb' 0 2).toNat
  let vn := (v.command.extractLsb' 2 2).toNat
  let num := unpackNum value
  let addr := (v.imm.setWidth 32 &&& 0x3FF#32) * 16
  modifyVIF fun v => { v with
    bufferSize := 0
    unpack :=
      { addr := if v.imm.getLsbD 15 then addr + v.TOPS.setWidth 32 * 16 else addr
        signExtend := !v.imm.getLsbD 14
        masked := v.command.getLsbD 4
        offset := 0
        num := num
        cmd := v.command.extractLsb' 0 4
        blocksWritten := 0
        wordsPerOp := roundUp32 (bitsPerOp vl vn) / 32 } }
  lengthen (roundUp32 (bitsPerOp vl vn * dataRead v num) / 32)

/-- What a VIFcode does when it is decoded; `command` has been set from it. -/
def decode (value : Word) : M W Unit := do
  let v ← vif
  match v.command.toNat with
  -- NOP
  | 0x00 => finishCode id
  -- STCYCL
  | 0x01 => finishCode fun v =>
      let WL := v.imm.extractLsb' 8 8
      { v with
        CL := v.imm.extractLsb' 0 8
        WL := WL
        internalWL := if WL = 0 then 256 else WL.setWidth 16 }
  -- OFFSET
  | 0x02 => finishCode fun v =>
      { v with OFST := value.setWidth 16 &&& 0x3FF, TOPS := v.BASE, DBF := false }
  -- BASE
  | 0x03 => finishCode fun v => { v with BASE := value.setWidth 16 &&& 0x3FF }
  -- ITOP
  | 0x04 => finishCode fun v => { v with ITOPS := value.setWidth 16 &&& 0x3FF }
  -- STMOD
  | 0x05 => finishCode fun v => { v with MODE := value.setWidth 8 &&& 0x3 }
  -- MSKPATH3
  | 0x06 =>
    needGIF
    let resume ← ask (P.setPath3Vifmask (value.getLsbD 15))
    finishCode fun v =>
      { v with stalled := { v.stalled with MSKPATH3 := v.stalled.MSKPATH3 || resume } }
  -- MARK
  | 0x07 => finishCode fun v => { v with MARK := v.imm.setWidth 32, markDetected := true }
  -- FLUSHE
  | 0x10 =>
    waitFor false false value
    finishCode id
  -- FLUSH
  | 0x11 =>
    waitFor true false value
    finishCode id
  -- FLUSHA
  | 0x13 =>
    waitFor true true value
    finishCode id
  -- MSCAL
  | 0x14 =>
    waitFor false false value
    finishCode id
  -- MSCALF
  | 0x15 =>
    waitFor true false value
    finishCode id
  -- MSCNT
  | 0x17 =>
    waitFor false false value
    finishCode id
  -- STMASK
  | 0x20 => lengthen 1
  -- STROW
  | 0x30 => lengthen 4
  -- STCOL
  | 0x31 => lengthen 4
  -- MPG
  | 0x4A =>
    let num := (value.extractLsb' 16 8).toNat
    lengthen (if num = 0 then 512 else num * 2)
    modifyVIF fun v => { v with mpgAddr := v.imm.setWidth 32 * 8 }
    waitFor false false value
  -- DIRECT
  | 0x50 => lengthen (if v.imm = 0 then 65536 else v.imm.toNat * 4)
  -- DIRECTHL
  | 0x51 => lengthen (if v.imm = 0 then 65536 else v.imm.toNat * 4)
  | _ => if isUnpack v.command then initUNPACK value else failure

def decodeCmd (value : Word) : M W Unit := do
  modifyVIF fun v => { v with
    command := (value.extractLsb' 24 7).setWidth 8
    imm := value.setWidth 16
    CODE := value
    cmdStatus := .VIF_DECODE
    ibitDetected := v.ibitDetected || (value.getLsbD 31 && !v.ERR.maskInterrupt)
    commandLen := 1 }
  decode P value

/-- What was waited for is there. -/
def handleWaitCmd (value : Word) (cycles : ℕ) : M W Unit := do
  let command := (value.extractLsb' 24 7).setWidth 8
  modifyVIF fun v => { v with command := command, imm := value.setWidth 16 }
  (match command.toNat with
    | 0x14 => MSCAL P ((value.setWidth 16).setWidth 32 * 8) cycles
    | 0x15 => MSCAL P ((value.setWidth 16).setWidth 32 * 8) cycles
    | 0x17 => do MSCAL P (P.vuGetPC (← get).world) cycles
    | _ => pure ())
  if (← vif).commandLen = 0 then
    setCommand 0
    setStatus .VIF_DECODE

/-! ### UNPACK -/

def isFillingWrite (v : VectorInterface) : Bool :=
  v.CL.toNat < v.internalWL.toNat && v.CL.toNat ≤ v.unpack.blocksWritten

/-- The lanes of a quadword, the lowest first. -/
abbrev Lanes := Fin 4 → Word

theorem four_pos : 0 < 4 := by decide

def lane (i : ℕ) : Fin 4 := ⟨i % 4, Nat.mod_lt i four_pos⟩

def toQuad (l : Lanes) : Quad := l (lane 3) ++ l (lane 2) ++ l (lane 1) ++ l (lane 0)

/-- What the mask says of a lane in the current block. -/
def maskOf (v : VectorInterface) (i : Fin 4) : ℕ :=
  ((v.MASK >>> (i.val * 2 + min (v.unpack.blocksWritten * 8) 24)).extractLsb' 0 2).toNat

/-- The column of the current block. -/
def columnOf (v : VectorInterface) : Word := v.COL ⟨min v.unpack.blocksWritten 3, by omega⟩

def handleUNPACKMasking (quad : Lanes) : M W Lanes := do
  let s ← get
  let v := s.vif
  if v.unpack.masked || isFillingWrite v then
    return fun i => match maskOf v i with
      | 1 => v.ROW i
      | 2 => columnOf v
      | 3 => P.vuReadMem (v.unpack.addr + BitVec.ofNat 32 (i.val * 4)) s.world
      | _ => quad i
  else return quad

/-- The lanes that the mode adds to or keeps. -/
def modeApplies (v : VectorInterface) (i : Fin 4) : Bool :=
  v.MODE != 0 && v.unpack.cmd != 0xF && (maskOf v i == 0 || !v.unpack.masked)

/-- V4-5 is not added to. -/
def handleUNPACKMode (quad : Lanes) : M W Lanes := do
  let v ← vif
  let sum : Lanes := fun i => quad i + v.ROW i
  let new : Lanes := fun i =>
    if modeApplies v i ∧ (v.MODE = 1 ∨ v.MODE = 2) then sum i else quad i
  modifyVIF fun v => { v with
    ROW := fun i => if modeApplies v i ∧ (v.MODE = 2 ∨ v.MODE = 3) then new i else v.ROW i }
  return new

/-- The end of a block, after which the quadwords between WL and CL are skipped. -/
def nextBlock (v : VectorInterface) : VectorInterface :=
  if v.internalWL.toNat ≤ v.unpack.blocksWritten then
    { v with unpack := { v.unpack with
        addr := if v.internalWL.toNat < v.CL.toNat then
            v.unpack.addr + BitVec.ofNat 32 ((v.CL.toNat - v.unpack.blocksWritten) * 16)
          else v.unpack.addr
        blocksWritten := 0 } }
  else v

def processUNPACKQuad (quad : Lanes) : M W Unit := do
  let masked ← handleUNPACKMasking P quad
  let new ← handleUNPACKMode masked
  modifyUnpack fun u => { u with blocksWritten := u.blocksWritten + 1 }
  drive (P.vuWriteMem (← vif).unpack.addr (toQuad new))
  modifyUnpack fun u => { u with addr := u.addr + 16, num := u.num - 1 }
  modifyVIF nextBlock

def ext8 (signed : Bool) (b : BitVec 8) : Word := if signed then b.signExtend 32 else b.setWidth 32

def ext16 (signed : Bool) (h : BitVec 16) : Word :=
  if signed then h.signExtend 32 else h.setWidth 32

/-- Byte `n` and half `n` of a word. -/
def byteAt (w : Word) (n : ℕ) : BitVec 8 := w.extractLsb' (8 * n) 8

def halfAt (w : Word) (n : ℕ) : BitVec 16 := w.extractLsb' (16 * n) 16

/-- Where the elements of V3-16 and V3-8 are taken from: the word of the buffer, the offset in it,
and the words that are left. -/
structure Cursor where
  bufferpos : ℕ
  offset : ℕ
  bufferSize : ℕ

/-- An element is taken; a word has `per` of them. -/
def Cursor.advance (c : Cursor) (per : ℕ) : Cursor :=
  if c.offset + 1 = per then ⟨c.bufferpos + 1, 0, c.bufferSize - 1⟩
  else { c with offset := c.offset + 1 }

/-- The element at the cursor. -/
def elementAt (buffer : Fin 4 → Word) (element : Word → ℕ → Word) (c : Cursor) : M W Word := do
  return element (buffer (← index4 c.bufferpos)) c.offset

/-- Three elements and, if there is one, the first of the next vector. -/
def takeThree (buffer : Fin 4 → Word) (element : Word → ℕ → Word) (per : ℕ) (c0 : Cursor) :
    M W (Lanes × Cursor) := do
  let c1 := c0.advance per
  let c2 := c1.advance per
  let c3 := c2.advance per
  let x ← elementAt buffer element c0
  let y ← elementAt buffer element c1
  let z ← elementAt buffer element c2
  let w ← (if 1 ≤ c3.bufferSize then elementAt buffer element c3 else pure 0)
  return (![x, y, z, w], c3)

/-- The formats whose vectors stay in `buffer[0]`: `per` vectors to a word. -/
def stepOffset (per : ℕ) : M W Unit := modifyVIF fun v =>
  if v.unpack.offset + 1 = per then
    { v with unpack := { v.unpack with offset := 0 }, bufferSize := v.bufferSize - 1 }
  else { v with unpack := { v.unpack with offset := v.unpack.offset + 1 } }

def takeWords (n : ℕ) : M W Unit := modifyVIF fun v => { v with bufferSize := v.bufferSize - n }

/-- What V3-16 and V3-8 leave: the word with elements that are not taken yet moves to the front if
`keep` says so. -/
def leaveCursor (c : Cursor) (keep : Bool) : M W Unit := do
  (if keep then do
    let i ← index4 c.bufferpos
    modifyVIF fun v => { v with buffer := Function.update v.buffer (lane 0) (v.buffer i) }
  else pure ())
  modifyVIF fun v => { v with
    bufferSize := c.bufferSize
    unpack := { v.unpack with offset := c.offset } }

/-- V3-8 takes a vector, if there are three bytes. -/
def takeV3_8 (bufferpos : ℕ) : M W (Option (Lanes × ℕ)) := do
  let v ← vif
  if v.bufferSize * 4 - v.unpack.offset < 3 then return none
  else
    let (q, c) ← takeThree v.buffer (fun w n => ext8 v.unpack.signExtend (byteAt w n)) 4
      ⟨bufferpos, v.unpack.offset, v.bufferSize⟩
    leaveCursor c (c.bufferSize = 1 ∧ c.offset ≠ 0)
    return some (q, c.bufferpos)

def takeV3_16 (bufferpos : ℕ) : M W (Option (Lanes × ℕ)) := do
  let v ← vif
  let (q, c) ← takeThree v.buffer (fun w n => ext16 v.unpack.signExtend (halfAt w n)) 2
    ⟨bufferpos, v.unpack.offset, v.bufferSize⟩
  leaveCursor c (c.bufferSize < 2 ∧ c.offset ≠ 0)
  return some (q, c.bufferpos)

/-- V3-32 takes a vector; but for the first and the last one it waits for the word behind it. -/
def takeV3_32 (bufferpos : ℕ) : M W (Option (Lanes × ℕ)) := do
  let v ← vif
  let b := v.buffer
  if v.bufferSize < 4 ∧ 1 < v.unpack.num ∧ 0 < v.unpack.offset then return none
  else
    modifyVIF fun v => { v with
      buffer := if 4 ≤ v.bufferSize then Function.update b (lane 0) (b (lane 3)) else b
      bufferSize := v.bufferSize - 3
      unpack := { v.unpack with offset := v.unpack.offset + 1 } }
    let w := if 4 ≤ v.bufferSize then b (lane 3) else 0
    return some (![b (lane 0), b (lane 1), b (lane 2), w], bufferpos)

/-- A vector is taken from the buffer: its lanes and the position in the buffer afterwards, or
nothing if words are missing. -/
def takeVector (bufferpos : ℕ) : M W (Option (Lanes × ℕ)) := do
  let v ← vif
  let b := v.buffer
  let sign := v.unpack.signExtend
  let offset := v.unpack.offset
  match v.unpack.cmd.toNat with
  -- S-32
  | 0x0 =>
    takeWords 1
    return some (fun _ => b (lane 0), bufferpos)
  -- S-16
  | 0x1 =>
    stepOffset 2
    return some (fun _ => ext16 sign (halfAt (b (lane 0)) offset), bufferpos)
  -- S-8
  | 0x2 =>
    stepOffset 4
    return some (fun _ => ext8 sign (byteAt (b (lane 0)) offset), bufferpos)
  -- V2-32
  | 0x4 =>
    takeWords 2
    return some (![b (lane 0), b (lane 1), b (lane 0), b (lane 1)], bufferpos)
  -- V2-16
  | 0x5 =>
    takeWords 1
    let x := ext16 sign (halfAt (b (lane 0)) 0)
    let y := ext16 sign (halfAt (b (lane 0)) 1)
    return some (![x, y, x, y], bufferpos)
  -- V2-8
  | 0x6 =>
    stepOffset 2
    let x := ext8 sign (byteAt (b (lane 0)) (2 * offset))
    let y := ext8 sign (byteAt (b (lane 0)) (2 * offset + 1))
    return some (![x, y, x, y], bufferpos)
  -- V3-32
  | 0x8 => takeV3_32 bufferpos
  -- V3-16
  | 0x9 => takeV3_16 bufferpos
  -- V3-8
  | 0xA => takeV3_8 bufferpos
  -- V4-32
  | 0xC =>
    takeWords 4
    return some (b, bufferpos)
  -- V4-16
  | 0xD =>
    takeWords 2
    return some (![ext16 sign (halfAt (b (lane 0)) 0), ext16 sign (halfAt (b (lane 0)) 1),
      ext16 sign (halfAt (b (lane 1)) 0), ext16 sign (halfAt (b (lane 1)) 1)], bufferpos)
  -- V4-8
  | 0xE =>
    takeWords 1
    return some (fun i => ext8 sign (byteAt (b (lane 0)) i.val), bufferpos)
  -- V4-5
  | 0xF =>
    stepOffset 2
    let data := halfAt (b (lane 0)) offset
    return some (![(data.extractLsb' 0 5).setWidth 32 <<< 3, (data.extractLsb' 5 5).setWidth 32 <<< 3,
      (data.extractLsb' 10 5).setWidth 32 <<< 3, (data.extractLsb' 15 1).setWidth 32 <<< 7], bufferpos)
  | _ => failure

/-- A turn of the loop of `handle_UNPACK`: the position in the buffer afterwards, or nothing if the
function returns. -/
def unpackTurn (bufferpos : ℕ) : M W (Option ℕ) := do
  let v ← vif
  if v.unpack.blocksWritten < v.CL.toNat then
    match ← takeVector bufferpos with
    | none => return none
    | some (quad, bufferpos) =>
      processUNPACKQuad P quad
      return some bufferpos
  else
    -- a filling write
    processUNPACKQuad P fun _ => 0
    return some bufferpos

/-- There is something to be written and, if that is needed, the words for it. -/
def unpackReady (v : VectorInterface) : Bool :=
  (isFillingWrite v || v.unpack.wordsPerOp ≤ v.bufferSize) && v.unpack.num != 0

/-- Each turn writes one of the `num` quadwords. True at the end of the loop, false on a return. -/
def unpackLoop : ℕ → ℕ → M W Bool
  | 0, _ => return true
  | num + 1, bufferpos => do
    if unpackReady (← vif) then
      match ← unpackTurn P bufferpos with
      | none => return false
      | some bufferpos => unpackLoop num bufferpos
    else return true

def handleUNPACK : M W Unit := do
  if ← unpackLoop P (← vif).unpack.num 0 then
    if (← vif).unpack.num = 0 then setCommand 0

/-! ### Data words -/

/-- An element of `ROW` or `COL`, counted by the words that are left. -/
def dataIndex (commandLen : ℕ) : M W (Fin 4) :=
  if commandLen ≤ 4 then index4 (4 - commandLen) else failure

/-- The command ends with its last word. -/
def endCommand : M W Unit := do
  if (← vif).commandLen ≤ 1 then setCommand 0

/-- A word is put into the buffer. -/
def bufferWord (value : Word) : M W Unit := do
  let i ← index4 (← vif).bufferSize
  modifyVIF fun v =>
    { v with buffer := Function.update v.buffer i value, bufferSize := v.bufferSize + 1 }

/-- Four words are a quadword of PATH2, which is left after the last one. -/
def directWord (value : Word) : M W Unit := do
  modifyVIF fun v => { v with directWait := false }
  bufferWord value
  (if (← vif).bufferSize = 4 then do
    drive (P.sendPATH2 (← vif).buffer)
    modifyVIF fun v => { v with bufferSize := 0 }
  else pure ())
  (if (← vif).commandLen ≤ 1 then drive P.deactivatePATH2 else pure ())
  endCommand

/-- False if PATH2 is not to be had. -/
def direct (canInterruptPath3 : Bool) (value : Word) : M W Bool := do
  needGIF
  drive (P.requestPATH2 canInterruptPath3)
  if ← ask (P.pathActive2 canInterruptPath3) then
    directWord P value
    return true
  else
    modifyVIF fun v => { v with directWait := true, stalled := { v.stalled with DIRECT := true } }
    return false

/-- False if the word is not taken. -/
def dataWord (value : Word) : M W Bool := do
  let v ← vif
  match v.command.toNat with
  -- STMASK
  | 0x20 =>
    modifyVIF fun v => { v with MASK := value, command := 0 }
    return true
  -- STROW
  | 0x30 =>
    let i ← dataIndex v.commandLen
    modifyVIF fun v => { v with ROW := Function.update v.ROW i value }
    endCommand
    return true
  -- STCOL
  | 0x31 =>
    let i ← dataIndex v.commandLen
    modifyVIF fun v => { v with COL := Function.update v.COL i value }
    endCommand
    return true
  -- MPG
  | 0x4A =>
    drive (P.vuWriteInstr v.mpgAddr value)
    modifyVIF fun v => { v with mpgAddr := v.mpgAddr + 4 }
    endCommand
    return true
  -- DIRECT
  | 0x50 => direct P true value
  -- DIRECTHL
  | 0x51 => direct P false value
  | _ =>
    if isUnpack v.command then
      bufferWord value
      return true
    else failure

def noteDecoded : M W Unit := do
  if (← vif).command = 0 then setStatus .VIF_DECODE

def processDataWord (value : Word) : M W Bool := do
  if (← vif).command = 0 then
    modifyVIF fun v => { v with bufferSize := 0 }
    decodeCmd P value
    noteDecoded
    return true
  else
    setStatus .VIF_TRANSFER
    if ← dataWord P value then
      noteDecoded
      return true
    else return false

/-! ### The update -/

/-- The words that are decoded are taken from `internal_FIFO`, which holds 8. -/
def refill (v : VectorInterface) : VectorInterface :=
  if v.fifoReverse then v
  else { v with
    internalFIFO := v.internalFIFO ++ v.FIFO.take (8 - v.internalFIFO.length)
    FIFO := v.FIFO.drop (8 - v.internalFIFO.length) }

/-- PATH1 or PATH2 is active or queued. -/
def pathsBusy : M W Bool := do
  if (← vif).flushStall then
    needGIF
    let w := (← get).world
    return P.activePath w == 1 || P.activePath w == 2 || (P.pathQueue w).getLsbD 1 ||
      (P.pathQueue w).getLsbD 2
  else return false

/-- The VU is busy, or what waits for it is done. -/
def vuBusy (cycles : ℕ) : M W Bool := do
  let s ← get
  if s.vif.waitForVU then
    if P.vuIsRunning s.world || P.vuStoppedByTbit s.world then return true
    else
      handleWaitCmd P s.vif.waitCmdValue cycles
      return false
  else return false

def path3Busy : M W Bool := do
  if (← vif).waitForPATH3 then
    needGIF
    return !P.path3Done (← get).world
  else return false

def clearWaits : M W Unit := modifyVIF fun v =>
  { v with flushStall := false, waitForVU := false, waitForPATH3 := false,
           stallConditionActive := false }

/-- False if something is still waited for. -/
def waitsOver (cycles : ℕ) : M W Bool := do
  if (← vif).stallConditionActive then
    if ← pathsBusy P then return false
    else if ← vuBusy P cycles then return false
    else if ← path3Busy P then return false
    else
      clearWaits
      return true
  else return true

def unpackStep : M W Unit := do
  if isUnpack (← vif).command then
    setStatus .VIF_TRANSFER
    handleUNPACK P
    noteDecoded

/-- PATH2 is left while VIF1 waits for data. -/
def leavePATH2 : M W Unit := do
  if (← vif).id then
    if ← ask (P.pathActive2 false) then drive P.deactivatePATH2

/-- No word can be taken; `first` if none has been in this update. -/
def rest (first : Bool) : M W Unit := do
  let v ← vif
  if first && v.cmdStatus == .VIF_DECODE then setStatus .VIF_IDLE
  else if v.cmdStatus = .VIF_TRANSFER then
    leavePATH2 P
    setStatus .VIF_WAIT

/-- The word has been taken; more are requested while the FIFO is half empty. -/
def popWord : M W Unit := do
  if (← vif).commandLen ≠ 0 then
    modifyVIF fun v =>
      { v with commandLen := v.commandLen - 1, internalFIFO := v.internalFIFO.tail }
    let v ← vif
    if v.FIFO.length ≤ v.fifoSize / 2 then drive P.setDMARequest

/-- A turn of the loop, with `run_cycles` to go: false if the function returns. -/
def updateTurn (cycles run_cycles : ℕ) : M W Bool := do
  modifyVIF refill
  if ← waitsOver P ((cycles - run_cycles / 4) * 2) then
    unpackStep P
    let stalled ← checkVifStall P (← vif).CODE
    match (← vif).internalFIFO with
    | [] =>
      rest P (run_cycles + 1 == cycles * 4)
      return false
    | value :: _ =>
      if stalled then
        rest P (run_cycles + 1 == cycles * 4)
        return false
      else
        (if ← processDataWord P value then popWord P else pure ())
        return true
  else return false

def updateLoop (cycles : ℕ) : ℕ → M W Unit
  | 0 => pure ()
  | run_cycles + 1 => do
    if (← vif).stalled.any then pure ()
    else if ← updateTurn P cycles run_cycles then updateLoop cycles run_cycles

/-- The words of a quadword, the lowest first. -/
def wordsOf (q : Quad) : List Word :=
  [q.extractLsb' 0 32, q.extractLsb' 32 32, q.extractLsb' 64 32, q.extractLsb' 96 32]

def pushFIFO (words : List Word) : M W Unit :=
  modifyVIF fun v => { v with FIFO := v.FIFO ++ words }

/-- Quadwords of the GS, while it has some and there is room. -/
def readGS : ℕ → M W Unit
  | 0 => pure ()
  | cycles + 1 => do
    let v ← vif
    if v.FIFO.length ≤ v.fifoSize - 4 then
      needGIF
      let data ← ask P.readGSFIFO
      if data.2 then
        pushFIFO (wordsOf data.1)
        readGS cycles

/-- The stalls that last until the next update. -/
def clearStalls : M W Unit := do
  modifyVIF fun v => { v with stalled := { v.stalled with DIRECT := false } }
  if (← vif).stalled.MSKPATH3 then
    needGIF
    drive P.resumePath3
    modifyVIF fun v => { v with stalled := { v.stalled with MSKPATH3 := false } }

def update (cycles : ℕ) : M W Unit := do
  if (← vif).fifoReverse then
    setStatus .VIF_IDLE
    readGS P cycles
  else
    clearStalls P
    updateLoop P cycles (cycles * 4)

/-! ### The FIFO -/

def transferWord (value : Word) : M W Bool := do
  let v ← vif
  if v.FIFO.length > v.fifoSize - 1 then return false
  else
    pushFIFO [value]
    return true

/-- Words are taken if there is room for them. -/
def feedWords (room : ℕ) (words : List Word) : M W Bool := do
  let v ← vif
  if v.FIFO.length > v.fifoSize - room then
    drive P.clearDMARequest
    return false
  else
    pushFIFO words
    return true

/-- Only the upper half of a tag is data. -/
def transferDMAtag (tag : Quad) : M W Bool := feedWords P 2 ((wordsOf tag).drop 2)

def feedDMA (quad : Quad) : M W Bool := feedWords P 4 (wordsOf quad)

/-- Nothing if the FIFO is empty. -/
def readFIFO : M W (Option Quad) := do
  match (← vif).FIFO with
  | [] => return none
  | x :: y :: z :: w :: words =>
    modifyVIF fun v => { v with FIFO := words }
    return some (w ++ z ++ y ++ x)
  | _ => failure

/-! ### Registers -/

def bitIf (b : Bool) (n : ℕ) : Word := if b then 1#32 <<< n else 0

def statusValue : Status → Word
  | .VIF_IDLE => 0
  | .VIF_WAIT => 1
  | .VIF_DECODE => 2
  | .VIF_TRANSFER => 3

def getStat (v : VectorInterface) : Word :=
  statusValue v.cmdStatus ||| bitIf v.waitForVU 2 |||
  bitIf (v.waitForPATH3 || v.flushStall || v.directWait) 3 ||| bitIf v.markDetected 6 |||
  bitIf v.DBF 7 ||| bitIf v.stalled.STOP 8 ||| bitIf v.stalled.IBIT 10 ||| bitIf v.interrupt 11 |||
  bitIf v.fifoReverse 23 ||| (BitVec.ofNat 32 (v.FIFO.length / 4) <<< 24)

def getErr (v : VectorInterface) : Word :=
  bitIf v.ERR.maskInterrupt 0 ||| bitIf v.ERR.maskDmatagError 1 |||
  bitIf v.ERR.maskVifcodeError 2

def getRow (address : Word) : M W Word := do
  let i ← index4 (address.extractLsb' 4 4).toNat
  return (← vif).ROW i

/-- The FIFO is emptied when it is turned round. -/
def setStat (value : Word) : M W Unit := modifyVIF fun v =>
  { v with
    FIFO := if v.fifoReverse = value.getLsbD 23 then v.FIFO else []
    fifoReverse := value.getLsbD 23 }

def setMark (value : Word) : M W Unit :=
  modifyVIF fun v => { v with MARK := value, markDetected := false }

def setErr (value : Word) : M W Unit := modifyVIF fun v =>
  { v with ERR := ⟨value.getLsbD 0, value.getLsbD 1, value.getLsbD 2⟩ }

/-- STC. -/
def cancelStalls (v : VectorInterface) : VectorInterface :=
  { v with
    stalled := { v.stalled with IBIT := false, STOP := false, FORCEBREAK := false }
    interrupt := false
    stop := false
    forcebreak := false }

/-- FBK. -/
def forceBreak (v : VectorInterface) : VectorInterface :=
  { v with
    command := 0
    commandLen := 0
    bufferSize := 0
    flushStall := false
    stallConditionActive := false
    waitForVU := false
    waitForPATH3 := false
    directWait := false
    forcebreak := true
    cmdStatus := .VIF_IDLE }

/-- RST. -/
def resetUnit (v : VectorInterface) : VectorInterface :=
  { v with
    command := 0
    commandLen := 0
    bufferSize := 0
    DBF := false
    MODE := 0
    MASK := 0
    CODE := 0
    directWait := false
    waitForVU := false
    waitForPATH3 := false
    stalled := Stalls.none
    ibitDetected := false
    interrupt := false
    stop := false
    forcebreak := false
    markDetected := false
    flushStall := false
    stallConditionActive := false
    fifoReverse := false
    cmdStatus := .VIF_IDLE
    FIFO := [] }

def setFbrst (value : Word) : M W Unit := modifyVIF fun v =>
  let v := if value.getLsbD 3 then cancelStalls v else v
  let v := if value.getLsbD 2 then { v with stop := true } else v
  let v := if value.getLsbD 1 then forceBreak v else v
  if value.getLsbD 0 then resetUnit v else v

/-- `forcebreak`, `MARK` and the registers that codes set keep their values. -/
def reset (v : VectorInterface) : VectorInterface :=
  { v with
    FIFO := []
    internalFIFO := []
    command := 0
    commandLen := 0
    bufferSize := 0
    DBF := false
    MODE := 0
    MASK := 0
    CODE := 0
    directWait := false
    waitForVU := false
    waitForPATH3 := false
    stalled := Stalls.none
    ibitDetected := false
    interrupt := false
    stop := false
    markDetected := false
    flushStall := false
    stallConditionActive := false
    fifoReverse := false
    cmdStatus := .VIF_IDLE }

/-! ### Runs -/

/-- What a call answers. -/
inductive Reply where
  | done
  | bool (b : Bool)
  | word (w : Word)
  | quad (q : Option Quad)
  deriving DecidableEq, Repr

/-- The calls of a VIF, and the rest of the machine, whose VU has the addresses of TOP and ITOP. -/
inductive Act (W : Type) where
  | update (cycles : ℕ)
  | transferWord (value : Word)
  | transferDMAtag (tag : Quad)
  | feedDMA (quad : Quad)
  | readFIFO
  | getStat
  | getMark
  | getErr
  | getMode
  | getRow (address : Word)
  | getCode
  | getTop
  | setStat (value : Word)
  | setMark (value : Word)
  | setErr (value : Word)
  | setFbrst (value : Word)
  | outside (f : BitVec 16 → BitVec 16 → W → W)

def Act.exec : Act W → M W Reply
  | .update cycles => do
    Model.update P cycles
    return .done
  | .transferWord value => return .bool (← Model.transferWord value)
  | .transferDMAtag tag => return .bool (← Model.transferDMAtag P tag)
  | .feedDMA quad => return .bool (← Model.feedDMA P quad)
  | .readFIFO => return .quad (← Model.readFIFO)
  | .getStat => return .word (Model.getStat (← vif))
  | .getMark => return .word (← vif).MARK
  | .getErr => return .word (Model.getErr (← vif))
  | .getMode => return .word ((← vif).MODE.setWidth 32)
  | .getRow address => return .word (← Model.getRow address)
  | .getCode => return .word (← vif).CODE
  | .getTop => return .word ((← vif).TOP.setWidth 32)
  | .setStat value => do
    Model.setStat value
    return .done
  | .setMark value => do
    Model.setMark value
    return .done
  | .setErr value => do
    Model.setErr value
    return .done
  | .setFbrst value => do
    Model.setFbrst value
    return .done
  | .outside f => do
    let v ← vif
    drive (f v.TOP v.ITOP)
    return .done

def Step (s : State W) (a : Act W) (s' : State W) : Prop :=
  ∃ reply, (a.exec P).run s = some (reply, s')

/-- The VIF has been reset. -/
def Init (s : State W) : Prop := ∃ v, s.vif = reset v

end DobieStation.Vif.Model
