import DobieStation.Lib.Fault
import DobieStation.Lib.Reach
import Mathlib.Data.BitVec

/-! # The memory card

The translation of `iop/memcard.cpp` and of `iop/sio2.cpp`, through which the console reaches the card.
An access of the image or of the response buffer that is out of range stops the program with a fault,
and `Errors::die` does too. The address of the image is kept from one command to the next and no command
compares it with the size of the image; the response buffer has a check of its own. -/

namespace DobieStation.Iop.Serial

open DobieStation.Lib.Fault DobieStation.Lib.Reach

abbrev Byte := BitVec 8
abbrev Word := BitVec 32

/-- The messages of `Errors::die`. -/
inductive Death where
  | unrecognizedCommand (data : Byte)
  | readingMoreResponse
  | responseSizeExceeds
  deriving DecidableEq, Repr

inductive Stop where
  | died (message : Death)
  | image (index : ℕ)
  | response (index : ℤ)
  deriving DecidableEq, Repr

structure MemcardSpecs where
  pageSize : BitVec 16
  eraseBlockPages : BitVec 16
  pageCount : Word
  deriving DecidableEq, Repr

structure Memcard where
  specs : MemcardSpecs
  mem : ℕ → Byte
  cmdLength : ℤ
  cmdParams : ℕ
  cmd : Byte
  terminator : Byte
  fileOpened : Bool
  isDirty : Bool
  responseBuffer : ℕ → Byte
  responseReadPos : ℕ
  responseWritePos : ℕ
  responseSize : ℕ
  memAddr : Word
  memWriteSize : Byte
  authF0DoXor : Bool
  authF0Checksum : Byte

abbrev M := StateT Memcard (Except Stop)

def imageSize : ℕ := 0x840000
def bufferSize : ℕ := 1024

/-! ### The image and the response buffer -/

def readImage (addr : Word) : M Byte := do
  let c ← get
  if addr.toNat < imageSize then pure (c.mem addr.toNat) else throw (.image addr.toNat)

def writeImage (addr : Word) (value : Byte) : M PUnit :=
  if addr.toNat < imageSize then
    modify fun c => { c with mem := fun k => if k = addr.toNat then value else c.mem k }
  else throw (.image addr.toNat)

def loadResponse (index : ℤ) : M Byte := do
  let c ← get
  if 0 ≤ index ∧ index < bufferSize then pure (c.responseBuffer index.toNat)
  else throw (.response index)

def storeResponse (index : ℤ) (value : Byte) : M PUnit :=
  if 0 ≤ index ∧ index < bufferSize then
    modify fun c =>
      { c with responseBuffer := fun k => if k = index.toNat then value else c.responseBuffer k }
  else throw (.response index)

def die (message : Death) : M PUnit := throw (.died message)

def startTransfer : M PUnit :=
  modify fun c => { c with
    cmdLength := 0
    cmdParams := 0
    responseReadPos := 0
    responseWritePos := 0
    responseSize := 0
    authF0DoXor := false
    responseBuffer := fun _ => 0 }

def readResponse : M Byte := do
  let c ← get
  (if bufferSize ≤ c.responseReadPos then die .readingMoreResponse else pure ⟨⟩)
  let value ← loadResponse c.responseReadPos
  modify fun c => { c with responseReadPos := c.responseReadPos + 1 }
  pure value

def writeResponse (value : Byte) : M PUnit := do
  storeResponse (← get).responseWritePos value
  modify fun c => { c with
    responseWritePos := c.responseWritePos + 1
    responseSize := c.responseSize + 1 }
  if bufferSize ≤ (← get).responseWritePos then die .responseSizeExceeds else pure ⟨⟩

def responseEnd : M PUnit := do
  let c ← get
  storeResponse (c.cmdLength - 2) 0x2B
  storeResponse (c.cmdLength - 1) c.terminator

/-! ### The commands -/

def setLength (length : ℤ) : M PUnit := modify fun c => { c with cmdLength := length }

/-- A command of a known length that answers at its end. -/
def plain (length : ℤ) : M PUnit := do
  setLength length
  responseEnd

def byteOf (n : ℕ) {w : ℕ} (v : BitVec w) : Byte := v.extractLsb' (8 * n) 8

/-- The checksum of the eight bytes of the specs. -/
def specsChecksum (s : MemcardSpecs) : Byte :=
  byteOf 0 s.pageSize ^^^ byteOf 1 s.pageSize ^^^ byteOf 0 s.eraseBlockPages ^^^
    byteOf 1 s.eraseBlockPages ^^^ byteOf 0 s.pageCount ^^^ byteOf 1 s.pageCount ^^^
    byteOf 2 s.pageCount ^^^ byteOf 3 s.pageCount

def writeSpecs : M PUnit := do
  let s := (← get).specs
  writeResponse 0x2B
  writeResponse (byteOf 0 s.pageSize)
  writeResponse (byteOf 1 s.pageSize)
  writeResponse (byteOf 0 s.eraseBlockPages)
  writeResponse (byteOf 1 s.eraseBlockPages)
  writeResponse (byteOf 0 s.pageCount)
  writeResponse (byteOf 1 s.pageCount)
  writeResponse (byteOf 2 s.pageCount)
  writeResponse (byteOf 3 s.pageCount)
  writeResponse (specsChecksum s)
  writeResponse (← get).terminator

/-- The prefix of the answers that are not put together at the end. -/
def writeHeader : M PUnit := do
  writeResponse 0x2B
  writeResponse (← get).terminator

/-- An erasing is of the sixteen pages from the address on. -/
def eraseSize : ℕ := 528 * 16

def eraseBlock : M PUnit := do
  modify fun c => { c with isDirty := true }
  let addr := (← get).memAddr
  upTo (fun i => writeImage (addr + BitVec.ofNat 32 i) 0xFF) eraseSize 0

/-- The first byte of a transfer. -/
def beginCommand (data : Byte) : M PUnit :=
  match data.toNat with
  | 0x11 => plain 2
  | 0x12 => plain 2
  | 0x21 => plain 7
  | 0x22 => plain 7
  | 0x23 => plain 7
  | 0x26 => do
    setLength 11
    writeSpecs
  | 0x27 => plain 3
  | 0x28 => do
    writeHeader
    writeResponse 0x55
    setLength 3
  | 0x42 => do
    setLength 132
    writeHeader
  | 0x43 => do
    setLength 132
    writeHeader
  | 0x81 => plain 2
  | 0x82 => do
    plain 2
    eraseBlock
  | 0xBF => plain 3
  | 0xF0 => setLength 3
  | 0xF3 => plain 3
  | 0xF7 => plain 3
  | _ => die (.unrecognizedCommand data)

/-- A value of `do_auth_f0` that makes the command longer. -/
def authLonger : M PUnit := do
  modify fun c => { c with cmdLength := 12, authF0DoXor := false }
  responseEnd

/-- A value of `do_auth_f0` that is followed by bytes to be XORed. -/
def authXor : M PUnit := do
  modify fun c => { c with authF0DoXor := true, authF0Checksum := 0 }
  writeResponse 0x00

def authOther : M PUnit := do
  modify fun c => { c with authF0DoXor := false }
  responseEnd

def doAuthF0 (value : Byte) : M PUnit := do
  let c ← get
  if c.cmdParams = 0 then
    match value.toNat with
    | 0x06 | 0x07 | 0x0B => authLonger
    | 0x01 | 0x02 | 0x04 | 0x0F | 0x11 | 0x13 => authXor
    | _ => authOther
  else if c.authF0DoXor then
    match c.cmdParams with
    | 1 => writeResponse 0x2B
    | 10 => do
      writeResponse c.authF0Checksum
      writeResponse c.terminator
    | _ => do
      modify fun c => { c with authF0Checksum := c.authF0Checksum ^^^ value }
      writeResponse 0x00
  else pure ⟨⟩

/-- The four bytes of a page number; the last one scales it by the size of a page. -/
def sectorAddr (params : ℕ) (addr : Word) (value : Byte) : Word :=
  match params with
  | 0 => value.setWidth 32
  | 1 => addr ||| value.setWidth 32 <<< 8
  | 2 => addr ||| value.setWidth 32 <<< 16
  | 3 => (addr ||| value.setWidth 32 <<< 24) * (512 + 16)
  | _ => addr

def sectorOp (value : Byte) : M PUnit :=
  modify fun c => { c with memAddr := sectorAddr c.cmdParams c.memAddr value }

/-- The XOR of a range of the image, as far as `do_checksum` has come. -/
def checksumImage (addr : Word) : ℕ → ℕ → Byte → M Byte
  | 0, _, checksum => pure checksum
  | n + 1, first, checksum => do
    let value ← readImage (addr + BitVec.ofNat 32 first)
    checksumImage addr n (first + 1) (checksum ^^^ value)

def copyResponse (addr : Word) (i : ℕ) : M PUnit := do
  let value ← readImage (addr + BitVec.ofNat 32 i)
  writeResponse value

def readMem (addr : Word) (size : Byte) : M PUnit := do
  upTo (copyResponse addr) size.toNat 0
  let checksum ← checksumImage addr size.toNat 0 0
  writeResponse checksum
  writeResponse (← get).terminator

def writeMem (data : Byte) : M PUnit := do
  let c ← get
  if c.cmdParams = 0 then do
    modify fun c => { c with memWriteSize := data }
    storeResponse (data.toNat + 3) c.terminator
  else if c.cmdParams - 1 < c.memWriteSize.toNat then do
    modify fun c => { c with isDirty := true }
    writeImage c.memAddr data
    modify fun c => { c with memAddr := c.memAddr + 1 }
  else pure ⟨⟩

/-- The later bytes of a transfer. -/
def continueCommand (data : Byte) : M PUnit := do
  let c ← get
  match c.cmd.toNat with
  | 0x21 => sectorOp data
  | 0x22 => sectorOp data
  | 0x23 => sectorOp data
  | 0x27 =>
    if c.cmdParams = 0 then do
      modify fun c => { c with terminator := data }
      responseEnd
    else pure ⟨⟩
  | 0x42 => writeMem data
  | 0x43 =>
    if c.cmdParams = 0 then do
      readMem c.memAddr data
      modify fun c => { c with memAddr := c.memAddr + data.setWidth 32 }
    else pure ⟨⟩
  | 0xF0 => doAuthF0 data
  | _ => pure ⟨⟩

def writeSerial (data : Byte) : M Byte := do
  if (← get).cmdLength = 0 then do
    modify fun c => { c with cmd := data }
    beginCommand data
    pure 0xFF
  else do
    continueCommand data
    modify fun c => { c with cmdParams := c.cmdParams + 1 }
    readResponse

/-- `Memcard::open`, with the contents of the file if there is one. -/
def insert (file : Option (ℕ → Byte)) (c : Memcard) : Memcard :=
  match file with
  | some image => { c with specs := ⟨0x200, 16, 0x4000⟩, fileOpened := true, mem := image }
  | none => { c with fileOpened := false }

/-! ### SIO2 -/

inductive SIO_DEVICE where
  | NONE
  | PAD
  | MEMCARD
  | DUMMY
  deriving DecidableEq, Repr

/-- The pad. -/
structure Gamepad (P : Type) where
  startTransfer : Byte → P → Byte × P
  writeSIO : Byte → P → Byte × P

structure SIO2 (P : Type) where
  send3 : ℤ → Word
  RECV1 : Word
  port : Bool
  dmaBytesReceived : ℕ
  FIFO : List Byte
  control : Word
  newCommand : Bool
  activeCommand : SIO_DEVICE
  commandLength : ℤ
  send3Port : ℤ
  pad : P
  memcard : Memcard

variable {P : Type} (G : Gamepad P)

abbrev S (P : Type) := StateT (SIO2 P) (Except Stop)

def onCard {α : Type} (m : M α) : S P α := fun s =>
  match m.run s.memcard with
  | .ok (a, c) => .ok (a, { s with memcard := c })
  | .error e => .error e

def push (value : Byte) : S P PUnit := modify fun s => { s with FIFO := s.FIFO ++ [value] }

def padTransfer (value : Byte) (s : SIO2 P) : SIO2 P :=
  let reply := if s.newCommand then G.startTransfer value s.pad else G.writeSIO value s.pad
  { s with newCommand := false, pad := reply.2, FIFO := s.FIFO ++ [reply.1] }

/-- The bytes of the devices, when one has been chosen. -/
def deviceByte (value : Byte) : S P PUnit := do
  match (← get).activeCommand with
  | .NONE => pure ⟨⟩
  | .PAD => do
    modify fun s => { s with RECV1 := 0x1100 }
    if (← get).port then push 0x00 else modify (padTransfer G value)
  | .MEMCARD => do
    modify fun s => { s with RECV1 := if s.memcard.fileOpened then 0x1100 else 0x1D100 }
    let s ← get
    if s.port ∨ s.RECV1 = 0x1D100 then push 0x00
    else if s.newCommand then
      if value = 0x81 then do
        modify fun s => { s with newCommand := false }
        onCard startTransfer
        push 0xFF
      else push 0
    else do
      let reply ← onCard (writeSerial value)
      push reply
  | .DUMMY => do
    push 0x00
    modify fun s => { s with RECV1 := 0x1D100 }

/-- The device that the first byte after a control write chooses. -/
def choose (value : Byte) (device : SIO_DEVICE) : SIO_DEVICE :=
  match device with
  | .NONE => if value = 0x01 then .PAD else if value = 0x81 then .MEMCARD else .DUMMY
  | d => d

def writeDevice (value : Byte) : S P PUnit := do
  modify fun s => { s with activeCommand := choose value s.activeCommand }
  deviceByte G value

/-- `send3[send3_port]`. The port is not kept below 16; `beyond` is what is read past the array. -/
def nextSend3 (beyond : Word) (s : SIO2 P) : Word :=
  if 0 ≤ s.send3Port ∧ s.send3Port < 16 then s.send3 s.send3Port else beyond

/-- The next command, if none is going on and there is one. -/
def fetchCommand (beyond : Word) (s : SIO2 P) : SIO2 P :=
  if s.commandLength = 0 ∧ nextSend3 beyond s ≠ 0 then
    { s with
      commandLength := (nextSend3 beyond s >>> 8 &&& 0x1FF).toNat
      port := (nextSend3 beyond s).getLsbD 0
      send3Port := s.send3Port + 1
      newCommand := true }
  else s

def sio2WriteSerial (value : Byte) (beyond : Word) : S P PUnit := do
  modify (fetchCommand beyond)
  if (← get).commandLength ≠ 0 then do
    modify fun s => { s with commandLength := s.commandLength - 1 }
    writeDevice G value
  else push 0xFF

def writeDma (value : Byte) (beyond : Word) : S P PUnit := do
  let s ← get
  if s.commandLength = 0 ∧ s.dmaBytesReceived % 0x90 ≠ 0 then do
    modify fun s => { s with dmaBytesReceived := s.dmaBytesReceived + 1 }
    push 0x00
  else do
    modify fun s => { s with dmaBytesReceived := s.dmaBytesReceived + 1 }
    sio2WriteSerial G value beyond

def setControl (value : Word) (s : SIO2 P) : SIO2 P :=
  if value.getLsbD 0 then { s with control := 0 }
  else { s with control := 0, activeCommand := .NONE, send3Port := 0, commandLength := 0 }

def reset (s : SIO2 P) : SIO2 P :=
  { s with
    FIFO := []
    activeCommand := .NONE
    control := 0
    newCommand := false
    RECV1 := 0x1D100
    port := false
    dmaBytesReceived := 0 }

/-! ### Runs -/

/-- What the console does to SIO2, and a card put in by the user. -/
inductive Act where
  | setSend3 (index : ℕ) (value : Word)
  | setControl (value : Word)
  | writeSerial (value : Byte) (beyond : Word)
  | dmaReset
  | writeDma (value : Byte) (beyond : Word)
  | readSerial
  | insert (file : Option (ℕ → Byte))

def Act.exec : Act → S P PUnit
  | .setSend3 index value =>
    modify fun s => { s with send3 := fun k => if k = index ∧ index < 16 then value else s.send3 k }
  | .setControl value => modify (Serial.setControl value)
  | .writeSerial value beyond => sio2WriteSerial G value beyond
  | .dmaReset => modify fun s => { s with dmaBytesReceived := 0 }
  | .writeDma value beyond => Serial.writeDma G value beyond
  | .readSerial => modify fun s => { s with FIFO := s.FIFO.tail }
  | .insert file => modify fun s => { s with memcard := Serial.insert file s.memcard }

def Step (s : SIO2 P) (a : Act) (s' : SIO2 P) : Prop := (a.exec G).run s = .ok ((), s')

/-- SIO2 has been reset and its control register has been cleared. Nothing of the card is set. -/
def Init (s : SIO2 P) : Prop := ∃ s₀, s = setControl 0 (reset s₀)

def next (s : SIO2 P) (a : Act) : Option (SIO2 P) :=
  match (a.exec G).run s with
  | .ok (_, s') => some s'
  | .error _ => none

variable {G}

theorem step_of_next {s s' : SIO2 P} {a : Act} (h : next G s a = some s') : Step G s a s' := by
  unfold next at h
  split at h
  · rename_i hr
    cases h
    exact hr
  · cases h

/-- A list of steps leads to a reachable state. -/
theorem reaches_of_acts {s s' : SIO2 P} {as : List Act} (h0 : Init s)
    (h : as.foldlM (next G) s = some s') : Reaches Init (Step G) s' :=
  (Reaches.exec as (Reaches.start h0) h).mono fun _ _ _ => step_of_next

end DobieStation.Iop.Serial
