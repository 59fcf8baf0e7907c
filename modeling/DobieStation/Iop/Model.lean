import DobieStation.Dma.Model
import DobieStation.Lib.Reach
import Mathlib.Data.Fin.Basic
import Mathlib.Order.Fin.Basic

/-! # The DMA controller of the IOP and the FIFOs of the SIF

The translation of `iop/iop_dma.cpp` and of the FIFOs of `sif.cpp`. The CDVD drive, the SPUs and the
SIO2 are parameters. A call that a handler makes of one of them may change requests, but only that
of the channel being served: `read_to_RAM` clears that of the drive, `write_ADMA` that of its own
SPU, and the rest change none. The requests that the SIF makes of the EE's controller are collected
in `toEE`. -/

namespace DobieStation.Iop.Model

open DobieStation.Lib.Hoare DobieStation.Lib.Reach
open DobieStation.Dma.Model (Quad Request)

abbrev Word := BitVec 32

/-- The index of a channel. -/
abbrev Chan := Fin 16

def IOP_CDVD : Chan := 3
def IOP_SPU : Chan := 4
def IOP_SPU2 : Chan := 8
def IOP_SIF0 : Chan := 10
def IOP_SIF1 : Chan := 11
def IOP_SIO2in : Chan := 12
def IOP_SIO2out : Chan := 13

structure ChanControl where
  directionFrom : Bool
  unk8 : Bool
  syncMode : BitVec 2
  busy : Bool
  unk30 : Bool
  deriving DecidableEq, Repr

structure IOP_DMA_Channel where
  addr : Word
  wordCount : Word
  size : Word
  blockSize : BitVec 16
  control : ChanControl
  tagAddr : Word
  tagEnd : Bool
  dmaReq : Bool
  delay : ℤ
  deriving DecidableEq, Repr

/-- Each of the two interrupt registers, for the channels 0 to 7 and 8 to 15. -/
structure DICR where
  forceIRQ : Bool
  stat : BitVec 8
  mask : BitVec 8
  masterIntEnable : Bool
  deriving DecidableEq, Repr

structure IOP_DMA where
  channels : Chan → IOP_DMA_Channel
  activeChannel : Option Chan
  queuedChannels : List Chan
  enable : Chan → Bool
  dicr : Bool → DICR

/-- The FIFOs of the SIF, and the first four words that SIF0 was last filled with. -/
structure SubsystemInterface where
  oldestSIF0Data : Fin 4 → Word
  SIF0_FIFO : List Word
  SIF1_FIFO : List Word

def MAX_FIFO_SIZE : ℕ := 32

abbrev Ram := Word → BitVec 8

/-- What a call of a peripheral gives. A request is raised (`true`) or cleared, for the channel
that is being served. -/
structure Reply (E α : Type) where
  value : α
  ram : Ram
  world : E
  requests : List Bool

/-- One of the SPUs. -/
structure SPU (E : Type) where
  runningADMA : E → Bool
  writeADMA : Word → Ram → E → Reply E Unit
  writeDMA : Word → Ram → E → Reply E Unit
  readDMA : Ram → E → Reply E Word
  finishDMA : Ram → E → Reply E Unit
  startDMA : Word → E → E
  pauseDMA : E → E

/-- The peripherals, on the state `E` of all of them. -/
structure Peripherals (E : Type) where
  cdvdReadToRAM : Word → Word → Ram → E → Reply E Word
  spu : SPU E
  spu2 : SPU E
  sio2DmaReset : Ram → E → Reply E Unit
  sio2WriteDma : BitVec 8 → Ram → E → Reply E Unit
  sio2ReadSerial : Ram → E → Reply E (BitVec 8)

/-- The IOP's side of the SIF. `junkWords` is the static variable of `process_SIF0`, `irqs` counts
the calls of `assert_irq`. -/
structure Side (E : Type) where
  dma : IOP_DMA
  sif : SubsystemInterface
  ram : Ram
  junkWords : ℕ
  irqs : ℕ
  world : E
  toEE : List Request

variable {E : Type}

abbrev M (E α : Type) := StateT (Side E) Option α

/-! ### The arbiter -/

namespace IOP_DMA

def modifyChannel (d : IOP_DMA) (index : Chan) (f : IOP_DMA_Channel → IOP_DMA_Channel) : IOP_DMA :=
  { d with channels := Function.update d.channels index (f (d.channels index)) }

/-- The channel with the highest index becomes active. -/
def findNewActiveChannel (d : IOP_DMA) : IOP_DMA :=
  match d.queuedChannels.max? with
  | none => { d with activeChannel := none }
  | some index =>
    { d with activeChannel := some index, queuedChannels := d.queuedChannels.erase index }

def activeDmaCheck (d : IOP_DMA) (index : Chan) : IOP_DMA :=
  if (d.channels index).dmaReq ∧ (d.channels index).control.busy then
    match d.activeChannel with
    | none => { d with activeChannel := some index }
    | some active =>
      if active < index then
        { d with activeChannel := some index, queuedChannels := d.queuedChannels ++ [active] }
      else { d with queuedChannels := d.queuedChannels ++ [index] }
  else d

def deactivateDma (d : IOP_DMA) (index : Chan) : IOP_DMA :=
  if d.activeChannel = some index then d.findNewActiveChannel
  else { d with queuedChannels := d.queuedChannels.erase index }

def setDMARequest (d : IOP_DMA) (index : Chan) : IOP_DMA :=
  let d' := d.modifyChannel index fun ch => { ch with dmaReq := true }
  if (d.channels index).dmaReq then d' else d'.activeDmaCheck index

def clearDMARequest (d : IOP_DMA) (index : Chan) : IOP_DMA :=
  let d' := d.modifyChannel index fun ch => { ch with dmaReq := false }
  if (d.channels index).dmaReq then d'.deactivateDma index else d'

def request (d : IOP_DMA) (index : Chan) (raise : Bool) : IOP_DMA :=
  if raise then d.setDMARequest index else d.clearDMARequest index

/-- Which of the two interrupt registers a channel belongs to. -/
def dicr2 (index : Chan) : Bool := 7 < index.val

def idle (ch : IOP_DMA_Channel) : IOP_DMA_Channel :=
  { ch with control := { ch.control with busy := false }, tagEnd := false }

/-- The end of a transfer, before its interrupt. The channel is not looked for in the queue. -/
def endTransfer (d : IOP_DMA) (index : Chan) : IOP_DMA :=
  let d' := d.modifyChannel index idle
  if d'.activeChannel = some index then d'.findNewActiveChannel else d'

end IOP_DMA

/-! ### Access to the state -/

def channel (index : Chan) : M E IOP_DMA_Channel := do return (← get).dma.channels index

def modifyDMA (f : IOP_DMA → IOP_DMA) : M E Unit := modify fun s => { s with dma := f s.dma }

def modifyChannel (index : Chan) (f : IOP_DMA_Channel → IOP_DMA_Channel) : M E Unit :=
  modifyDMA fun d => d.modifyChannel index f

/-- A call of a peripheral from the handler of a channel. -/
def call {α : Type} (index : Chan) (f : Ram → E → Reply E α) : M E α := do
  let s ← get
  let r := f s.ram s.world
  modify fun s => { s with ram := r.ram, world := r.world }
  modifyDMA fun d => r.requests.foldl (fun d raise => d.request index raise) d
  return r.value

def read8 (addr : Word) : M E (BitVec 8) := do return (← get).ram addr

def Ram.read32 (ram : Ram) (addr : Word) : Word :=
  ram (addr + 3) ++ ram (addr + 2) ++ ram (addr + 1) ++ ram addr

def Ram.write32 (ram : Ram) (addr value : Word) : Ram := fun a =>
  if a = addr + 3 then value.extractLsb' 24 8
  else if a = addr + 2 then value.extractLsb' 16 8
  else if a = addr + 1 then value.extractLsb' 8 8
  else if a = addr then value.extractLsb' 0 8
  else ram a

def read32 (addr : Word) : M E Word := do return (← get).ram.read32 addr

def write32 (addr value : Word) : M E Unit :=
  modify fun s => { s with ram := s.ram.write32 addr value }

/-! ### The SIF -/

namespace Side

def pushSIF0 (s : Side E) (word : Word) : Side E :=
  { s with sif := { s.sif with
      oldestSIF0Data := if h : s.sif.SIF0_FIFO.length < 4 then
          Function.update s.sif.oldestSIF0Data ⟨_, h⟩ word
        else s.sif.oldestSIF0Data
      SIF0_FIFO := s.sif.SIF0_FIFO ++ [word] } }

def writeSIF0 (s : Side E) (word : Word) : Side E :=
  let s' := s.pushSIF0 word
  let n := s'.sif.SIF0_FIFO.length
  { s' with
    dma := if MAX_FIFO_SIZE ≤ n then s'.dma.clearDMARequest IOP_SIF0 else s'.dma
    toEE := if 4 ≤ n then s'.toEE ++ [.set .EE_SIF0] else s'.toEE }

/-- Four bytes of the oldest data are copied into an array on the stack, of which the last `count`
words are written. -/
def sendSIF0Junk (s : Side E) (stack : Fin 4 → Word) (count : ℕ) : Side E :=
  let first : Fin 4 := ⟨0, by decide⟩
  let temp := Function.update stack first (s.sif.oldestSIF0Data first)
  ((List.finRange 4).drop (4 - count)).foldl (fun s i => s.writeSIF0 (temp i)) s

/-- The front of an empty FIFO is undefined. -/
def readSIF0 (s : Side E) : Option (Word × Side E) :=
  match s.sif.SIF0_FIFO with
  | [] => none
  | value :: rest => some (value, { s with
      sif := { s.sif with SIF0_FIFO := rest }
      dma := s.dma.setDMARequest IOP_SIF0
      toEE := if rest.length < 4 then s.toEE ++ [.clear .EE_SIF0] else s.toEE })

/-- The words of a quadword, the lowest first. -/
def words (quad : Quad) : List Word :=
  [quad.extractLsb' 0 32, quad.extractLsb' 32 32, quad.extractLsb' 64 32, quad.extractLsb' 96 32]

def writeSIF1 (s : Side E) (quad : Quad) : Side E :=
  let fifo := s.sif.SIF1_FIFO ++ words quad
  { s with
    sif := { s.sif with SIF1_FIFO := fifo }
    dma := s.dma.setDMARequest IOP_SIF1
    toEE := if MAX_FIFO_SIZE / 2 ≤ fifo.length then s.toEE ++ [.clear .EE_SIF1] else s.toEE }

def readSIF1 (s : Side E) : Option (Word × Side E) :=
  match s.sif.SIF1_FIFO with
  | [] => none
  | value :: rest => some (value, { s with
      sif := { s.sif with SIF1_FIFO := rest }
      dma := if rest = [] then s.dma.clearDMARequest IOP_SIF1 else s.dma
      toEE := if rest.length < MAX_FIFO_SIZE / 2 then s.toEE ++ [.set .EE_SIF1] else s.toEE })

end Side

def writeSIF0 (word : Word) : M E Unit := modify fun s => s.writeSIF0 word

def sendSIF0Junk (stack : Fin 4 → Word) (count : ℕ) : M E Unit :=
  modify fun s => s.sendSIF0Junk stack count

def readSIF1 : M E Word := fun s => s.readSIF1

/-! ### The handlers of the channels -/

/-- The interrupt of a channel whose transfer has ended, if it is not masked. -/
def flagInterrupt (index : Chan) : M E Unit := modify fun s =>
  let r := s.dma.dicr (IOP_DMA.dicr2 index)
  let bit := BitVec.twoPow 8 (index.val % 8)
  if r.mask &&& bit = 0 then s
  else { s with
    dma := { s.dma with
      dicr := Function.update s.dma.dicr (IOP_DMA.dicr2 index) { r with stat := r.stat ||| bit } }
    irqs := s.irqs + 1 }

def transferEnd (index : Chan) : M E Unit := do
  modifyDMA fun d => d.endTransfer index
  flagInterrupt index

/-- The size of the transfer follows the block size and the word count. -/
def resize (ch : IOP_DMA_Channel) : IOP_DMA_Channel :=
  { ch with size := ch.blockSize.setWidth 32 * ch.wordCount }

def setChanBlock (index : Chan) (value : Word) : M E Unit := modifyChannel index fun ch =>
  resize { ch with blockSize := value.setWidth 16, wordCount := value >>> 16 }

variable (P : Peripherals E)

/-- The bytes of the blocks of a channel. -/
def byteCount (ch : IOP_DMA_Channel) : Word := ch.wordCount * ch.blockSize.setWidth 32 * 4

def processCDVD : M E Unit := do
  let ch ← channel IOP_CDVD
  let bytesRead ← call IOP_CDVD (P.cdvdReadToRAM ch.addr (byteCount ch))
  if byteCount ch ≤ bytesRead then
    transferEnd IOP_CDVD
    setChanBlock IOP_CDVD 0
  else
    modifyChannel IOP_CDVD fun ch =>
      { ch with
        addr := ch.addr + bytesRead
        wordCount := ch.wordCount - bytesRead / (ch.blockSize.setWidth 32 * 4) }

/-- A word is counted off. -/
def advanceSPU (index : Chan) : M E Unit :=
  modifyChannel index fun ch => { ch with size := ch.size - 1, addr := ch.addr + 4 }

/-- A normal transfer of a word takes four steps. -/
def transferSPU (index : Chan) (spu : SPU E) : M E Unit := do
  let ch ← channel index
  if spu.runningADMA (← get).world then
    if ch.control.directionFrom then
      call index (spu.writeADMA ch.addr)
      advanceSPU index
    else failure
  else if ch.delay ≤ 0 then
    (if ch.control.directionFrom then do call index (spu.writeDMA (← read32 ch.addr))
      else do write32 ch.addr (← call index spu.readDMA))
    advanceSPU index
    modifyChannel index fun ch => { ch with delay := 3 }
  else modifyChannel index fun ch => { ch with delay := ch.delay - 1 }

/-- The handlers of both SPUs. -/
def processSPUs (index : Chan) (spu : SPU E) : M E Unit := do
  transferSPU index spu
  if (← channel index).size = 0 then
    modifyChannel index fun ch => { ch with wordCount := 0 }
    transferEnd index
    call index spu.finishDMA

def processSPU : M E Unit := processSPUs IOP_SPU P.spu

def processSPU2 : M E Unit := processSPUs IOP_SPU2 P.spu2

/-- The tag of a SIF channel: its address, its number of words, and whether it is the last. -/
def loadTag (ch : IOP_DMA_Channel) (data words : Word) : IOP_DMA_Channel :=
  { ch with
    addr := data &&& 0xFFFFFF#32
    wordCount := words
    tagEnd := ch.tagEnd || data.getLsbD 31 || data.getLsbD 30 }

/-- A word is written; after the last one of a packet its junk follows. -/
def wordSIF0 (stack : Fin 4 → Word) : M E Unit := do
  writeSIF0 (← read32 (← channel IOP_SIF0).addr)
  modifyChannel IOP_SIF0 fun ch => { ch with addr := ch.addr + 4, wordCount := ch.wordCount - 1 }
  let ch ← channel IOP_SIF0
  if ch.wordCount = 0 then
    sendSIF0Junk stack (← get).junkWords
    if ch.tagEnd then transferEnd IOP_SIF0

/-- The words missing to a quadword. -/
def junk (words : Word) : ℕ := (4 - words.toNat % 4) % 4

/-- The tag is read; its upper half is the EE's tag. -/
def tagSIF0 : M E Unit := do
  let ch ← channel IOP_SIF0
  let data ← read32 ch.tagAddr
  let words ← read32 (ch.tagAddr + 4)
  writeSIF0 (← read32 (ch.tagAddr + 8))
  writeSIF0 (← read32 (ch.tagAddr + 12))
  modifyChannel IOP_SIF0 fun ch =>
    { loadTag ch data (words &&& 0xFFFFF#32) with tagAddr := ch.tagAddr + 16 }
  modify fun s => { s with junkWords := junk words }

def processSIF0 (stack : Fin 4 → Word) : M E Unit := do
  if (← channel IOP_SIF0).wordCount ≠ 0 then wordSIF0 stack
  else if (← get).sif.SIF0_FIFO.length ≤ MAX_FIFO_SIZE - 2 then tagSIF0

def wordSIF1 : M E Unit := do
  let data ← readSIF1
  write32 (← channel IOP_SIF1).addr data
  modifyChannel IOP_SIF1 fun ch => { ch with addr := ch.addr + 4, wordCount := ch.wordCount - 1 }
  let ch ← channel IOP_SIF1
  if ch.wordCount = 0 ∧ ch.tagEnd then transferEnd IOP_SIF1

/-- The EE's tag, in the upper half, is skipped. -/
def tagSIF1 : M E Unit := do
  let data ← readSIF1
  let words ← readSIF1
  let _ ← readSIF1
  let _ ← readSIF1
  modifyChannel IOP_SIF1 fun ch => loadTag ch data (words &&& 0xFFFFC#32)

def processSIF1 : M E Unit := do
  if (← channel IOP_SIF1).wordCount ≠ 0 then wordSIF1
  else if 4 ≤ (← get).sif.SIF1_FIFO.length then tagSIF1

def advanceByte (index : Chan) : M E Unit :=
  modifyChannel index fun ch => { ch with addr := ch.addr + 1 }

def byteSIO2in : M E Flow := do
  call IOP_SIO2in (P.sio2WriteDma (← read8 (← channel IOP_SIO2in).addr))
  advanceByte IOP_SIO2in
  return .next

/-- All the blocks are transferred at once. -/
def blocksSIO2 (index : Chan) (byte : M E Flow) : M E Unit := do
  let ch ← channel index
  let _ ← repeatWhile byte (byteCount ch).toNat 0
  modifyChannel index fun ch => { ch with wordCount := 0 }
  transferEnd index

def processSIO2in : M E Unit := do
  call IOP_SIO2in P.sio2DmaReset
  blocksSIO2 IOP_SIO2in (byteSIO2in P)

def byteSIO2out : M E Flow := do
  let value ← call IOP_SIO2out P.sio2ReadSerial
  let ch ← channel IOP_SIO2out
  modify fun s => { s with ram := Function.update s.ram ch.addr value }
  advanceByte IOP_SIO2out
  return .next

def processSIO2out : M E Unit := blocksSIO2 IOP_SIO2out (byteSIO2out P)

/-- The handler `func` of a channel; the others have none. -/
def process (stack : Fin 4 → Word) (index : Chan) : M E Unit :=
  match index.val with
  | 3 => processCDVD P
  | 4 => processSPU P
  | 8 => processSPU2 P
  | 10 => processSIF0 stack
  | 11 => processSIF1
  | 12 => processSIO2in P
  | 13 => processSIO2out P
  | _ => failure

/-- A cycle of `run`: the active channel is served. -/
def serveActive (stack : Fin 4 → Word) : M E Unit := do
  match (← get).dma.activeChannel with
  | none => failure
  | some index => process P stack index

/-- `run`, with what the stack holds in each cycle. -/
def run : List (Fin 4 → Word) → M E Unit
  | [] => pure ()
  | stack :: rest => do
    if (← get).dma.activeChannel ≠ none then
      serveActive P stack
      run rest

/-! ### The registers -/

/-- The SPU behind a channel. -/
def spuOf (index : Chan) : Option (SPU E) :=
  if index = IOP_SPU then some P.spu else if index = IOP_SPU2 then some P.spu2 else none

def controlFields (ctrl : ChanControl) (value : Word) : ChanControl :=
  { ctrl with
    directionFrom := value.getLsbD 0
    unk8 := value.getLsbD 8
    syncMode := value.extractLsb' 9 2
    busy := value.getLsbD 24 }

/-- A channel is started: its SPU is told of the transfer. -/
def startChannel (index : Chan) : M E Unit :=
  match spuOf P index with
  | none => pure ()
  | some spu => do
    let ch ← channel index
    modify fun s => { s with world := spu.startDMA (ch.size * 2) s.world }
    modifyChannel index fun ch => { ch with delay := 3 }

def pauseChannel (index : Chan) : M E Unit :=
  match spuOf P index with
  | none => pure ()
  | some spu => modify fun s => { s with world := spu.pauseDMA s.world }

/-- What follows when the channel's busy bit has changed from `oldBusy`. -/
def busyChanged (index : Chan) (oldBusy : Bool) : M E Unit := do
  let ch ← channel index
  if oldBusy = false ∧ ch.control.busy then
    startChannel P index
    modifyDMA fun d => d.activeDmaCheck index
  else if oldBusy ∧ ch.control.busy = false then
    modifyDMA fun d => d.deactivateDma index
    pauseChannel P index

def setChanControl (index : Chan) (value : Word) : M E Unit := do
  let ch ← channel index
  modifyChannel index fun ch => { ch with control := controlFields ch.control value }
  busyChanged P index ch.control.busy
  modifyChannel index fun ch => { ch with control := { ch.control with unk30 := value.getLsbD 30 } }

def setChanAddr (index : Chan) (value : Word) : M E Unit :=
  modifyChannel index fun ch => { ch with addr := value }

def setChanSize (index : Chan) (value : BitVec 16) : M E Unit :=
  modifyChannel index fun ch => resize { ch with blockSize := value }

def setChanCount (index : Chan) (value : BitVec 16) : M E Unit :=
  modifyChannel index fun ch => resize { ch with wordCount := value.setWidth 32 }

def setChanTagAddr (index : Chan) (value : Word) : M E Unit :=
  modifyChannel index fun ch => { ch with tagAddr := value }

/-- `set_DPCR`, and `set_DPCR2` for the channels from 8 on: enabling a channel forgets the end of
its last tag. -/
def setEnable (second : Bool) (value : Word) : M E Unit := modifyDMA fun d =>
  let on (i : Chan) : Bool := value.getLsbD (4 * (i.val % 8) + 3)
  { d with
    enable := fun i => if IOP_DMA.dicr2 i = second then on i else d.enable i
    channels := fun i =>
      if IOP_DMA.dicr2 i = second ∧ d.enable i = false ∧ on i then
        { d.channels i with tagEnd := false }
      else d.channels i }

/-- `set_DICR` and `set_DICR2`. -/
def setDICR (second : Bool) (value : Word) : M E Unit := modify fun s =>
  let r := s.dma.dicr second
  let r' : DICR :=
    { forceIRQ := value.getLsbD 15
      mask := (value.extractLsb' 16 7).setWidth 8
      masterIntEnable := value.getLsbD 23
      stat := r.stat &&& ~~~((value.extractLsb' 24 7).setWidth 8) }
  { s with
    dma := { s.dma with dicr := Function.update s.dma.dicr second r' }
    irqs := if r'.forceIRQ then s.irqs + 1 else s.irqs }

/-! ### Runs -/

/-- `reset`, before its requests; what it does not set keeps its value. -/
def cleared (d : IOP_DMA) : IOP_DMA :=
  { activeChannel := none
    queuedChannels := []
    channels := fun i =>
      let ch := d.channels i
      { ch with
        addr := 0
        wordCount := 0
        blockSize := 0
        control := { ch.control with busy := false, syncMode := 0 }
        dmaReq := false }
    enable := fun _ => false
    dicr := fun i => { d.dicr i with stat := 0, mask := 0, masterIntEnable := false } }

def reset (d : IOP_DMA) : IOP_DMA :=
  ([IOP_SIO2in, IOP_SIO2out, IOP_SIF0].foldl IOP_DMA.setDMARequest (cleared d))

/-- Everything that happens to the controller. A call of `run` serves active channels; `stack` is
what an uninitialised array holds then. `outside` is the rest of the machine, which changes memory
and the peripherals. -/
inductive Act (E : Type) where
  | setDMARequest (index : Chan)
  | clearDMARequest (index : Chan)
  | setChanControl (index : Chan) (value : Word)
  | setChanAddr (index : Chan) (value : Word)
  | setChanBlock (index : Chan) (value : Word)
  | setChanSize (index : Chan) (value : BitVec 16)
  | setChanCount (index : Chan) (value : BitVec 16)
  | setChanTagAddr (index : Chan) (value : Word)
  | setEnable (second : Bool) (value : Word)
  | setDICR (second : Bool) (value : Word)
  | serve (stack : Fin 4 → Word)
  | outside (ram : Ram) (world : E)

def Act.exec : Act E → M E Unit
  | .setDMARequest i => modifyDMA fun d => d.setDMARequest i
  | .clearDMARequest i => modifyDMA fun d => d.clearDMARequest i
  | .setChanControl i v => Model.setChanControl P i v
  | .setChanAddr i v => Model.setChanAddr i v
  | .setChanBlock i v => Model.setChanBlock i v
  | .setChanSize i v => Model.setChanSize i v
  | .setChanCount i v => Model.setChanCount i v
  | .setChanTagAddr i v => Model.setChanTagAddr i v
  | .setEnable b v => Model.setEnable b v
  | .setDICR b v => Model.setDICR b v
  | .serve stack => serveActive P stack
  | .outside ram world => modify fun s => { s with ram := ram, world := world }

def Step (s : Side E) (a : Act E) (s' : Side E) : Prop := (a.exec P).run s = some ((), s')

/-- Both the controller and the SIF have been reset. -/
def Init (s : Side E) : Prop :=
  (∃ d, s.dma = reset d) ∧ s.sif.SIF0_FIFO = [] ∧ s.sif.SIF1_FIFO = [] ∧ s.toEE = []

/-- The state after a step. -/
def next (s : Side E) (a : Act E) : Option (Side E) := ((a.exec P).run s).map Prod.snd

variable {P}

/-- A list of steps leads to a reachable state. -/
theorem reaches_of_acts {s s' : Side E} {as : List (Act E)} (h0 : Init s)
    (h : as.foldlM (next P) s = some s') : Reaches Init (Step P) s' := by
  have hstart : Reaches Init (Step P) s := Reaches.start h0
  exact hstart.programs h

/-! A machine to run: its peripherals take everything and its memory is empty. -/

def silentSPU : SPU Unit where
  runningADMA _ := false
  writeADMA _ ram _ := ⟨(), ram, (), []⟩
  writeDMA _ ram _ := ⟨(), ram, (), []⟩
  readDMA ram _ := ⟨0, ram, (), []⟩
  finishDMA ram _ := ⟨(), ram, (), []⟩
  startDMA _ w := w
  pauseDMA w := w

/-- The drive reads nothing and clears its request. -/
def silent : Peripherals Unit where
  cdvdReadToRAM _ _ ram _ := ⟨0, ram, (), [false]⟩
  spu := silentSPU
  spu2 := silentSPU
  sio2DmaReset ram _ := ⟨(), ram, (), []⟩
  sio2WriteDma _ ram _ := ⟨(), ram, (), []⟩
  sio2ReadSerial ram _ := ⟨0, ram, (), []⟩

def blank : IOP_DMA where
  channels _ :=
    { addr := 0, wordCount := 0, size := 0, blockSize := 0
      control := ⟨false, false, 0, false, false⟩
      tagAddr := 0, tagEnd := false, dmaReq := false, delay := 0 }
  activeChannel := none
  queuedChannels := []
  enable _ := false
  dicr _ := ⟨false, 0, 0, false⟩

def powerOn (ram : Ram) : Side Unit where
  dma := reset blank
  sif := ⟨fun _ => 0, [], []⟩
  ram := ram
  junkWords := 0
  irqs := 0
  world := ()
  toEE := []

theorem init_powerOn (ram : Ram) : Init (powerOn ram) := ⟨⟨blank, rfl⟩, rfl, rfl, rfl⟩

end DobieStation.Iop.Model
