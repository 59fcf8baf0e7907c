import DobieStation.Lib.Hoare
import Mathlib.Data.BitVec
import Mathlib.Data.List.Basic

/-! # The DMA controller of the EE

The translation of `ee/dmac.cpp`. The peripherals behind the channels (the VIFs, the GIF, the IPU,
the SIF, the memories of the VUs) are parameters: a call of one gives a result and the requests it
makes on the way, by `set_DMA_request` and `clear_DMA_request`. An `Errors::die` has no result.

`trace` is history that no function reads: what the channels have handed to their peripherals, and
where `check_for_activation` has queued a stalled channel while no channel was active. -/

namespace DobieStation.Dma.Model

open DobieStation.Lib.Hoare

abbrev Quad := BitVec 128

/-- The channels; `EE_SIF2` has no handler. -/
inductive Channel where
  | VIF0
  | VIF1
  | GIF
  | IPU_FROM
  | IPU_TO
  | EE_SIF0
  | EE_SIF1
  | EE_SIF2
  | SPR_FROM
  | SPR_TO
  deriving DecidableEq, Repr

/-- The index of a channel in `channels`, and of its bit in `D_STAT`. -/
def Channel.index : Channel → Fin 15
  | .VIF0 => 0
  | .VIF1 => 1
  | .GIF => 2
  | .IPU_FROM => 3
  | .IPU_TO => 4
  | .EE_SIF0 => 5
  | .EE_SIF1 => 6
  | .EE_SIF2 => 7
  | .SPR_FROM => 8
  | .SPR_TO => 9

/-- The bits of `D_STAT` that belong to no channel. -/
def DMA_STALL : Fin 15 := 13

def MFIFO_EMPTY : Fin 15 := 14

structure DMAChannel where
  control : BitVec 32
  address : BitVec 32
  quadwordCount : BitVec 32
  tagAddress : BitVec 32
  tagSave0 : BitVec 32
  tagSave1 : BitVec 32
  scratchpadAddress : BitVec 32
  tagEnd : Bool
  interleavedQwc : BitVec 8
  tagId : BitVec 8
  started : Bool
  canStallDrain : Bool
  hasDmaStalled : Bool
  dmaReq : Bool
  isSpr : Bool
  deriving DecidableEq, Repr

structure DCtrl where
  masterEnable : Bool
  cycleStealing : Bool
  memDrainChannel : BitVec 2
  stallSourceChannel : BitVec 2
  stallDestChannel : BitVec 2
  releaseCycle : BitVec 3
  deriving DecidableEq, Repr

structure DMAC where
  channels : Channel → DMAChannel
  activeChannel : Option Channel
  queuedChannels : List Channel
  control : DCtrl
  channelStat : Fin 15 → Bool
  channelMask : Fin 15 → Bool
  PCR : BitVec 32
  skipQwc : BitVec 8
  transferQwc : BitVec 8
  RBOR : BitVec 32
  RBSR : BitVec 32
  STADR : BitVec 32
  mfifoEmptyTriggered : Bool
  cyclesToRun : ℤ
  masterDisable : BitVec 32

/-- A change of a channel's request, made by a peripheral. -/
inductive Request where
  | set (c : Channel)
  | clear (c : Channel)
  deriving DecidableEq, Repr

/-- What a call of a peripheral gives: a result, the peripherals afterwards, and the requests it has
made on the way. -/
structure Reply (W α : Type) where
  value : α
  world : W
  requests : List Request

/-- The calls of the peripherals, on the state `W` of all of them and the memories `V` of the
VUs. -/
structure Peripherals (W V : Type) where
  vuRead : V → BitVec 32 → Quad
  vuWrite : V → BitVec 32 → Quad → V
  vif0FeedDMA : Quad → W → Reply W Bool
  vif0TransferDMAtag : Quad → W → Reply W Bool
  vif1FeedDMA : Quad → W → Reply W Bool
  vif1TransferDMAtag : Quad → W → Reply W Bool
  vif1ReadFIFO : W → Reply W (Quad × Bool)
  gifDmaRunning : Bool → W → W
  gifDeactivatePATH3 : W → Reply W Unit
  gifFifoFull : W → Bool
  gifFifoDraining : W → Bool
  gifSendPATH3 : Quad → W → Reply W Unit
  ipuCanReadFIFO : W → Bool
  ipuReadFIFO : W → Reply W Quad
  ipuCanWriteFIFO : W → Bool
  ipuWriteFIFO : Quad → W → Reply W Unit
  sifGetSIF0Size : W → ℕ
  sifReadSIF0 : W → Reply W (BitVec 32)
  sifWriteSIF1 : Quad → W → Reply W Unit

/-- RDRAM and the scratchpad by the address of a quadword, and the memories of the VUs. -/
structure Memory (V : Type) where
  rdram : BitVec 32 → Quad
  scratchpad : BitVec 32 → Quad
  vu : V

/-- History: a quadword or the upper half of a tag handed to the peripheral of a channel, and a
stalled channel queued while none was active. -/
inductive Event where
  | quad (c : Channel) (q : Quad)
  | tag (c : Channel) (half : BitVec 64)
  | parked (c : Channel)
  deriving DecidableEq, Repr

/-- `int1` is what the CPU was last told by `set_int1_signal`. -/
structure State (W V : Type) where
  dmac : DMAC
  mem : Memory V
  world : W
  int1 : Bool
  trace : List Event

variable {W V : Type}

abbrev M (W V α : Type) := StateT (State W V) Option α

/-! ### Access to the state -/

def DMAC.setChannel (d : DMAC) (c : Channel) (ch : DMAChannel) : DMAC :=
  { d with channels := Function.update d.channels c ch }

def dmac : M W V DMAC := do return (← get).dmac

def channel (c : Channel) : M W V DMAChannel := do return (← get).dmac.channels c

def modifyDMAC (f : DMAC → DMAC) : M W V Unit := modify fun s => { s with dmac := f s.dmac }

def modifyChannel (c : Channel) (f : DMAChannel → DMAChannel) : M W V Unit :=
  modifyDMAC fun d => d.setChannel c (f (d.channels c))

def record (e : Event) : M W V Unit := modify fun s => { s with trace := s.trace ++ [e] }

/-! ### Memory -/

/-- The scratchpad, by bit 31 or by the segment 0x7. -/
def isScratchpad (addr : BitVec 32) : Bool :=
  addr.getLsbD 31 || addr &&& 0x70000000#32 == 0x70000000#32

def isVUMemory (addr : BitVec 32) : Bool := 0x11000000#32 ≤ addr && addr < 0x11010000#32

variable (P : Peripherals W V)

def Memory.fetch128 (m : Memory V) (addr : BitVec 32) : Quad :=
  if isScratchpad addr then m.scratchpad (addr &&& 0x3FF0#32)
  else if isVUMemory addr then P.vuRead m.vu addr
  else m.rdram (addr &&& 0x01FFFFF0#32)

def Memory.store128 (m : Memory V) (addr : BitVec 32) (data : Quad) : Memory V :=
  if isScratchpad addr then
    { m with scratchpad := Function.update m.scratchpad (addr &&& 0x3FF0#32) data }
  else if isVUMemory addr then { m with vu := P.vuWrite m.vu addr data }
  else { m with rdram := Function.update m.rdram (addr &&& 0x01FFFFF0#32) data }

def fetch128 (addr : BitVec 32) : M W V Quad := do return (← get).mem.fetch128 P addr

def store128 (addr : BitVec 32) (data : Quad) : M W V Unit :=
  modify fun s => { s with mem := s.mem.store128 P addr data }

/-! ### The arbiter -/

def int1Check : M W V Unit := modify fun s =>
  { s with int1 := decide (∃ i, s.dmac.channelStat i && s.dmac.channelMask i) }

/-- An interrupt is flagged in `D_STAT`. -/
def flagInterrupt (i : Fin 15) : M W V Unit := do
  modifyDMAC fun d => { d with channelStat := Function.update d.channelStat i true }
  int1Check

/-- The channel chosen by `stall_dest_channel`. -/
def stallDest (ctrl : DCtrl) : Option Channel :=
  match ctrl.stallDestChannel.toNat with
  | 1 => some .VIF1
  | 2 => some .GIF
  | 3 => some .EE_SIF1
  | _ => none

/-- The channel chosen by `stall_source_channel`. -/
def stallSource (ctrl : DCtrl) : Option Channel :=
  match ctrl.stallSourceChannel.toNat with
  | 1 => some .EE_SIF0
  | 2 => some .SPR_FROM
  | 3 => some .IPU_FROM
  | _ => none

/-- `find_new_active_channel`; the queue is not empty where it is called. -/
def findNewActiveChannel : M W V Unit := do
  let d ← dmac
  match d.queuedChannels ++ d.activeChannel.toList with
  | [] => failure
  | c :: rest => modifyDMAC fun d => { d with activeChannel := some c, queuedChannels := rest }

/-- A channel that stalls flags it once; `onStall` is what else is done then. -/
def noteStall (c : Channel) (onStall : M W V Unit) : M W V Unit := do
  if (← channel c).hasDmaStalled = false then
    flagInterrupt DMA_STALL
    onStall
    modifyChannel c fun ch => { ch with hasDmaStalled := true }

def activate (c : Channel) : M W V Unit := modifyDMAC fun d => { d with activeChannel := some c }

def enqueue (c : Channel) : M W V Unit :=
  modifyDMAC fun d => { d with queuedChannels := d.queuedChannels ++ [c] }

/-- A channel whose request has come to a stall address is queued, also if nothing is active. -/
def checkForActivation (c : Channel) : M W V Unit := do
  let d ← dmac
  let ch := d.channels c
  if ch.dmaReq ∧ ch.started then
    if stallDest d.control = some c ∧ ch.canStallDrain ∧ ch.address = d.STADR then
      noteStall c (pure ())
      if d.activeChannel = none then record (.parked c)
      enqueue c
    else if d.activeChannel = none then activate c
    else enqueue c

def deactivateChannel (c : Channel) : M W V Unit := do
  let d ← dmac
  if d.activeChannel = some c then
    modifyDMAC fun d => { d with activeChannel := none }
    if d.queuedChannels ≠ [] then findNewActiveChannel
  else modifyDMAC fun d => { d with queuedChannels := d.queuedChannels.erase c }

/-- Only switch to a new channel if something is queued. -/
def arbitrate : M W V Unit := do
  let d ← dmac
  if d.queuedChannels ≠ [] then findNewActiveChannel

def setDMARequest (c : Channel) : M W V Unit := do
  let ch ← channel c
  modifyChannel c fun ch => { ch with dmaReq := true }
  if ch.dmaReq = false then checkForActivation c

def clearDMARequest (c : Channel) : M W V Unit := do
  let ch ← channel c
  modifyChannel c fun ch => { ch with dmaReq := false }
  if ch.dmaReq then deactivateChannel c

def Request.apply : Request → M W V Unit
  | .set c => setDMARequest c
  | .clear c => clearDMARequest c

/-- A call of a peripheral, with the requests it makes. -/
def call {α : Type} (f : W → Reply W α) : M W V α := do
  let r := f (← get).world
  modify fun s => { s with world := r.world }
  r.requests.forM Request.apply
  return r.value

/-- The GIF notes whether its channel is running; it makes no requests. -/
def noteRunning (running : Bool) : M W V Unit :=
  modify fun s => { s with world := P.gifDmaRunning running s.world }

/-- A stalled channel is reactivated if necessary. -/
def updateStadr (addr : BitVec 32) : M W V Unit := do
  modifyDMAC fun d => { d with STADR := addr }
  let d ← dmac
  match stallDest d.control with
  | none => pure ()
  | some c => if (d.channels c).hasDmaStalled then setDMARequest c

def transferEnd (c : Channel) : M W V Unit := do
  modifyChannel c fun ch => { ch with control := ch.control &&& ~~~0x100#32, started := false }
  flagInterrupt c.index
  deactivateChannel c

/-! ### Source and destination chains -/

/-- `refe`, `ref` and `refs` do not follow the tag, so their data is likely outside the MFIFO. -/
def isReference (control : BitVec 32) : Bool :=
  let id := control.extractLsb' 28 3
  id == 0#3 || id == 3#3 || id == 4#3

/-- The addresses of a channel that drains the MFIFO, in its ring. -/
def drainFields (d : DMAC) (ch : DMAChannel) : DMAChannel :=
  { ch with
    tagAddress := d.RBOR ||| (ch.tagAddress &&& d.RBSR)
    address := if ch.quadwordCount ≠ 0 ∧ !isReference ch.control then
        d.RBOR ||| (ch.address &&& d.RBSR)
      else ch.address }

/-- The MFIFO has run empty, which is flagged once. -/
def noteMfifoEmpty : M W V Unit := do
  if (← dmac).mfifoEmptyTriggered = false then
    flagInterrupt MFIFO_EMPTY
    modifyDMAC fun d => { d with mfifoEmptyTriggered := true }

/-- `mfifo_handler`: false if the MFIFO is in use and empty, unless the channel has quadwords of a
reference left. -/
def mfifoHandler (c : Channel) : M W V Bool := do
  let d ← dmac
  if d.control.memDrainChannel.toNat = c.index.val + 1 then
    let ch := drainFields d (d.channels c)
    modifyChannel c fun _ => ch
    let addr := if ch.quadwordCount ≠ 0 then ch.address else ch.tagAddress
    if addr = (← channel .SPR_FROM).address then
      noteMfifoEmpty
      return ch.quadwordCount ≠ 0 && isReference ch.control
    else
      modifyDMAC fun d => { d with mfifoEmptyTriggered := false }
      return true
  else return true

def mode (ch : DMAChannel) : BitVec 2 := ch.control.extractLsb' 2 2

/-- A quadword is counted off. If the tag is `cnt`, the next one follows the data. -/
def advanceFields (ch : DMAChannel) : DMAChannel :=
  { ch with
    quadwordCount := ch.quadwordCount - 1
    tagAddress := if mode ch = 1 ∧ ch.tagId = 1 then ch.address else ch.tagAddress }

def advanceSourceDMA (c : Channel) : M W V Unit := do
  modifyChannel c fun ch => { ch with address := ch.address + 16 }
  let ch ← channel c
  let _ ← (if ch.quadwordCount = 1 then mfifoHandler c else pure true)
  modifyChannel c advanceFields

/-- The stall address follows the source channel. -/
def followSource (c : Channel) : M W V Unit := do
  let d ← dmac
  if stallSource d.control = some c then updateStadr (d.channels c).address

/-- In a chain only `cnts` moves the stall address. -/
def advanceDestDMA (c : Channel) : M W V Unit := do
  modifyChannel c fun ch =>
    { ch with address := ch.address + 16, quadwordCount := ch.quadwordCount - 1 }
  let ch ← channel c
  if mode ch ≠ 1 ∨ ch.tagId = 0 then followSource c

/-- The upper half of the tag goes to bits 16-31 of the channel's control register. -/
def tagControl (control lo : BitVec 32) : BitVec 32 :=
  (control &&& 0xFFFF#32) ||| (lo &&& 0xFFFF0000#32)

def asp (control : BitVec 32) : ℕ := (control.extractLsb' 4 2).toNat

/-- The address stack pointer, one past three, runs into bit 6. -/
def setAsp (control : BitVec 32) (n : ℕ) : BitVec 32 :=
  (control &&& ~~~0x30#32) ||| (BitVec.ofNat 32 n <<< 4)

/-- The tag by its id, on a channel that has its count: `none` where the source gives up. -/
def followTag (ch : DMAChannel) (addr : BitVec 32) : Option DMAChannel :=
  match ch.tagId.toNat with
  -- refe
  | 0 => some { ch with address := addr, tagAddress := ch.tagAddress + 16, tagEnd := true }
  -- cnt
  | 1 => some { ch with address := ch.tagAddress + 16, tagAddress := ch.tagAddress + 16 }
  -- next
  | 2 => some { ch with address := ch.tagAddress + 16, tagAddress := addr }
  -- ref
  | 3 => some { ch with address := addr, tagAddress := ch.tagAddress + 16 }
  -- refs
  | 4 => some
      { ch with address := addr, tagAddress := ch.tagAddress + 16, canStallDrain := true }
  -- call
  | 5 =>
    let data := ch.tagAddress + 16
    let saved := data + (ch.quadwordCount <<< 4)
    let ch1 := { ch with
      address := data
      tagAddress := addr
      control := setAsp ch.control (asp ch.control + 1) }
    match asp ch.control with
    | 0 => some { ch1 with tagSave0 := saved }
    | 1 => some { ch1 with tagSave1 := saved }
    | 2 => none
    | _ => some ch1
  -- ret
  | 6 =>
    let ch1 := { ch with address := ch.tagAddress + 16 }
    match asp ch.control with
    | 0 => some { ch1 with tagEnd := true, control := setAsp ch.control 0 }
    | 1 => some { ch1 with tagAddress := ch.tagSave0, control := setAsp ch.control 0 }
    | 2 => some { ch1 with tagAddress := ch.tagSave1, control := setAsp ch.control 1 }
    | n => some { ch1 with control := setAsp ch.control n }
  -- end
  | 7 => some { ch with address := ch.tagAddress + 16, tagEnd := true }
  | _ => none

/-- The tag `lo`, `hi` is loaded into the channel. -/
def loadTag (ch : DMAChannel) (lo hi : BitVec 32) : Option DMAChannel :=
  let addr := hi &&& 0xFFFFFFF0#32
  let ch1 := { ch with
    control := tagControl ch.control lo
    isSpr := isScratchpad addr
    tagId := (lo.extractLsb' 28 3).setWidth 8
    quadwordCount := lo &&& 0xFFFF#32
    canStallDrain := false }
  (followTag ch1 addr).map fun ch2 =>
    if lo.getLsbD 31 && ch.control.getLsbD 7 then { ch2 with tagEnd := true } else ch2

/-- The priority control of a tag; 1 is reserved. -/
def setPriority (pce : BitVec 2) : M W V Unit :=
  match pce.toNat with
  | 1 => failure
  | 2 => modifyDMAC fun d => { d with PCR := d.PCR &&& ~~~0x80000000#32 }
  | 3 => modifyDMAC fun d => { d with PCR := d.PCR ||| 0x80000000#32 }
  | _ => pure ()

def handleSourceChain (c : Channel) : M W V Unit := do
  let ch ← channel c
  let quad ← fetch128 P ch.tagAddress
  let lo := quad.extractLsb' 0 32
  match loadTag ch lo (quad.extractLsb' 32 32) with
  | none => failure
  | some ch' =>
    modifyChannel c fun _ => ch'
    setPriority (lo.extractLsb' 26 2)
    arbitrate

/-- The tag of a destination chain is loaded into the channel. -/
def loadDestTag (ch : DMAChannel) (lo hi : BitVec 32) : DMAChannel :=
  let id := lo.extractLsb' 28 3
  { ch with
    quadwordCount := lo &&& 0xFFFF#32
    address := hi
    tagId := id.setWidth 8
    tagEnd := ch.tagEnd || id == 7#3 || (lo.getLsbD 31 && ch.control.getLsbD 7)
    control := tagControl ch.control lo }

/-! ### The handlers of the channels -/

/-- The quadwords left in the slice of eight that the address is in, if there are so many. -/
def quadsToTransfer (ch : DMAChannel) : ℕ :=
  min ch.quadwordCount.toNat (8 - (ch.address >>> 4 &&& 7#32).toNat)

/-- A quadword or tag is offered to a peripheral, which may refuse it. -/
def offer (f : W → Reply W Bool) (e : Event) : M W V Bool := do
  if ← call f then
    record e
    return true
  else return false

def feed (c : Channel) (f : Quad → W → Reply W Bool) (q : Quad) : M W V Bool :=
  offer (f q) (.quad c q)

/-- A quadword is handed to a peripheral that takes it. -/
def send (c : Channel) (f : Quad → W → Reply W Unit) (q : Quad) : M W V Unit := do
  call (f q)
  record (.quad c q)

/-- The peripheral takes the upper half of the tag. -/
def feedTag (c : Channel) (f : Quad → W → Reply W Bool) (q : Quad) : M W V Bool :=
  offer (f q) (.tag c (q.extractLsb' 64 64))

/-- The end of the handlers for channels with a source chain: with quadwords left the channel
arbitrates; else it ends, or reads its next tag (`next`). -/
def afterQuads (c : Channel) (next : M W V Unit) : M W V Unit := do
  let ch ← channel c
  if ch.quadwordCount = 0 then
    if ch.tagEnd then transferEnd c else next
  else arbitrate

/-- The next tag of the VIFs, which take its upper half first if bit 6 of the control register is
set. -/
def vifTag (c : Channel) (f : Quad → W → Reply W Bool) : M W V Unit := do
  let ch ← channel c
  let tag ← fetch128 P ch.tagAddress
  if ch.control.getLsbD 6 then
    if ← feedTag c f tag then handleSourceChain P c else arbitrate
  else handleSourceChain P c

/-- The turns over the quadwords of a slice, with what a turn does. -/
def slice (c : Channel) (turn : M W V Flow) : M W V (Flow × ℕ) := do
  let ch ← channel c
  if ch.quadwordCount ≠ 0 then repeatWhile turn (quadsToTransfer ch) 0 else return (.stop, 0)

/-- The turn of a channel whose peripheral may refuse the quadword. -/
def feedTurn (c : Channel) (f : Quad → W → Reply W Bool) : M W V Flow := do
  let q ← fetch128 P (← channel c).address
  if ← feed c f q then
    advanceSourceDMA c
    return .next
  else return .stop

/-- The turn of a channel whose peripheral takes the quadword if it is `ready`. -/
def sendTurn (c : Channel) (ready : W → Bool) (f : Quad → W → Reply W Unit) : M W V Flow := do
  if ready (← get).world then
    send c f (← fetch128 P (← channel c).address)
    advanceSourceDMA c
    return .next
  else return .stop

def processVIF0 : M W V ℕ := do
  let r ← slice .VIF0 (feedTurn P .VIF0 P.vif0FeedDMA)
  afterQuads .VIF0 (vifTag P .VIF0 P.vif0TransferDMAtag)
  return r.2

/-- The slice to be transferred reaches beyond the stall address. -/
def beyondStadr (d : DMAC) (ch : DMAChannel) : Bool :=
  d.STADR < ch.address + BitVec.ofNat 32 (quadsToTransfer ch * 16)

/-- The stall check of the handlers: true if the channel has stalled. -/
def stallDrain (c : Channel) (onStall : M W V Unit) : M W V Bool := do
  let d ← dmac
  let ch := d.channels c
  if stallDest d.control = some c ∧ ch.canStallDrain then
    if beyondStadr d ch then
      noteStall c onStall
      clearDMARequest c
      return true
    else
      modifyChannel c fun ch => { ch with hasDmaStalled := false }
      return false
  else return false

/-- From the FIFO of VIF1 to memory. -/
def readTurnVIF1 : M W V Flow := do
  let (q, ok) ← call P.vif1ReadFIFO
  if ok then
    store128 P (← channel .VIF1).address q
    advanceSourceDMA .VIF1
    return .next
  else
    arbitrate
    return .leave

def turnVIF1 : M W V Flow := do
  if ← mfifoHandler .VIF1 then
    if (← channel .VIF1).control.getLsbD 0 then feedTurn P .VIF1 P.vif1FeedDMA
    else readTurnVIF1 P
  else
    arbitrate
    return .leave

def tagVIF1 : M W V Unit := do
  if ← mfifoHandler .VIF1 then vifTag P .VIF1 P.vif1TransferDMAtag else arbitrate

/-- Only a transfer from memory is checked for a stall. -/
def processVIF1 : M W V ℕ := do
  let ch ← channel .VIF1
  let stalled ← (if ch.quadwordCount ≠ 0 ∧ ch.control.getLsbD 0 then stallDrain .VIF1 (pure ())
    else pure false)
  if stalled then return 0
  else
    let r ← slice .VIF1 (turnVIF1 P)
    if r.1 = .leave then return r.2
    else
      afterQuads .VIF1 (tagVIF1 P)
      return r.2

/-- The MFIFO is empty: the GIF is told that PATH3 is idle. -/
def leaveGIF : M W V Unit := do
  arbitrate
  call P.gifDeactivatePATH3

def turnGIF : M W V Flow := do
  if ← mfifoHandler .GIF then
    sendTurn P .GIF (fun w => !P.gifFifoFull w && !P.gifFifoDraining w) P.gifSendPATH3
  else
    leaveGIF P
    return .leave

def afterQuadsGIF : M W V Unit := do
  let ch ← channel .GIF
  if ch.quadwordCount = 0 then
    if ch.tagEnd then
      noteRunning P false
      transferEnd .GIF
    else
      if ← mfifoHandler .GIF then handleSourceChain P .GIF else leaveGIF P
  else arbitrate

def processGIF : M W V ℕ := do
  noteRunning P true
  let ch ← channel .GIF
  let stalled ← (if ch.quadwordCount ≠ 0 then stallDrain .GIF (call P.gifDeactivatePATH3)
    else pure false)
  if stalled then return 0
  else
    let r ← slice .GIF (turnGIF P)
    if r.1 = .leave then return r.2
    else
      afterQuadsGIF P
      return r.2

def turnIPU_FROM : M W V Flow := do
  if P.ipuCanReadFIFO (← get).world then
    let q ← call P.ipuReadFIFO
    store128 P (← channel .IPU_FROM).address q
    advanceDestDMA .IPU_FROM
    return .next
  else return .stop

/-- A destination chain of the IPU is fatal. -/
def processIPU_FROM : M W V ℕ := do
  let r ← slice .IPU_FROM (turnIPU_FROM P)
  followSource .IPU_FROM
  afterQuads .IPU_FROM failure
  return r.2

def processIPU_TO : M W V ℕ := do
  let r ← slice .IPU_TO (sendTurn P .IPU_TO P.ipuCanWriteFIFO P.ipuWriteFIFO)
  afterQuads .IPU_TO (handleSourceChain P .IPU_TO)
  return r.2

def turnSIF0 : M W V Flow := do
  let w0 ← call P.sifReadSIF0
  let w1 ← call P.sifReadSIF0
  let w2 ← call P.sifReadSIF0
  let w3 ← call P.sifReadSIF0
  store128 P (← channel .EE_SIF0).address (w3 ++ w2 ++ w1 ++ w0)
  advanceDestDMA .EE_SIF0
  return .next

/-- Without a tag in the FIFO nothing happens, not even arbitration. -/
def tagSIF0 : M W V Unit := do
  if 2 ≤ P.sifGetSIF0Size (← get).world then
    let lo ← call P.sifReadSIF0
    let hi ← call P.sifReadSIF0
    modifyChannel .EE_SIF0 fun ch => { loadDestTag ch lo hi with isSpr := isScratchpad hi }
    arbitrate

def processSIF0 : M W V ℕ := do
  let s ← get
  let quads := min (quadsToTransfer (s.dmac.channels .EE_SIF0)) (P.sifGetSIF0Size s.world / 4)
  let r ← repeatWhile (turnSIF0 P) quads 0
  afterQuads .EE_SIF0 (tagSIF0 P)
  return r.2

/-- With quadwords left the channel does not arbitrate. -/
def afterQuadsNoArbitration (c : Channel) (next : M W V Unit) : M W V Unit := do
  let ch ← channel c
  if ch.quadwordCount = 0 then
    if ch.tagEnd then transferEnd c else next

def processSIF1 : M W V ℕ := do
  let ch ← channel .EE_SIF1
  let stalled ← (if ch.quadwordCount ≠ 0 then stallDrain .EE_SIF1 (pure ()) else pure false)
  if stalled then return 0
  else
    let r ← slice .EE_SIF1 (sendTurn P .EE_SIF1 (fun _ => true) P.sifWriteSIF1)
    afterQuadsNoArbitration .EE_SIF1 (handleSourceChain P .EE_SIF1)
    return r.2

/-- The interleave mode: at the end of a block the address skips and the channel arbitrates; true
there. -/
def interleave (c : Channel) : M W V Bool := do
  let d ← dmac
  let ch := d.channels c
  if mode ch = 2 then
    modifyChannel c fun ch => { ch with interleavedQwc := ch.interleavedQwc - 1 }
    if ch.interleavedQwc = 1 then
      modifyChannel c fun ch =>
        { ch with
          interleavedQwc := d.transferQwc
          address := ch.address + d.skipQwc.setWidth 32 * 16 }
      arbitrate
      return true
    else return false
  else return false

/-- The address in the ring of the MFIFO, if it is in use. -/
def maskMFIFO (c : Channel) : M W V Unit := do
  let d ← dmac
  if d.control.memDrainChannel ≠ 0 then
    modifyChannel c fun ch => { ch with address := d.RBOR ||| (ch.address &&& d.RBSR) }

def advanceScratchpad (c : Channel) : M W V Unit :=
  modifyChannel c fun ch => { ch with scratchpadAddress := ch.scratchpadAddress + 16 }

def turnSPR_FROM : M W V Flow := do
  maskMFIFO .SPR_FROM
  let ch ← channel .SPR_FROM
  let q ← fetch128 P (ch.scratchpadAddress ||| 0x80000000#32)
  store128 P (ch.address &&& 0x7FFFFFFF#32) q
  advanceScratchpad .SPR_FROM
  advanceDestDMA .SPR_FROM
  if ← interleave .SPR_FROM then return .last
  else
    maskMFIFO .SPR_FROM
    return .next

def tagSPR_FROM : M W V Unit := do
  let ch ← channel .SPR_FROM
  let tag ← fetch128 P (ch.scratchpadAddress ||| 0x80000000#32)
  modifyChannel .SPR_FROM fun ch =>
    { loadDestTag ch (tag.extractLsb' 0 32) (tag.extractLsb' 32 32) with
      scratchpadAddress := (ch.scratchpadAddress + 16) &&& 0x3FFF#32 }
  arbitrate

def processSPR_FROM : M W V ℕ := do
  let r ← slice .SPR_FROM (turnSPR_FROM P)
  afterQuadsNoArbitration .SPR_FROM (tagSPR_FROM P)
  return r.2

def turnSPR_TO : M W V Flow := do
  let ch ← channel .SPR_TO
  let q ← fetch128 P (ch.address &&& 0x7FFFFFFF#32)
  store128 P (ch.scratchpadAddress ||| 0x80000000#32) q
  advanceScratchpad .SPR_TO
  advanceSourceDMA .SPR_TO
  if ← interleave .SPR_TO then return .last
  else return .next

/-- The tag goes to the scratchpad, if bit 6 of the control register is set. -/
def storeTag (tag : Quad) : M W V Unit := do
  let ch ← channel .SPR_TO
  if ch.control.getLsbD 6 then
    store128 P (ch.scratchpadAddress ||| 0x80000000#32) tag
    advanceScratchpad .SPR_TO

def tagSPR_TO : M W V Unit := do
  storeTag P (← fetch128 P (← channel .SPR_TO).tagAddress)
  handleSourceChain P .SPR_TO

def processSPR_TO : M W V ℕ := do
  let r ← slice .SPR_TO (turnSPR_TO P)
  afterQuadsNoArbitration .SPR_TO (tagSPR_TO P)
  return r.2

/-- The handler `func` of a channel. -/
def process : Channel → M W V ℕ
  | .VIF0 => processVIF0 P
  | .VIF1 => processVIF1 P
  | .GIF => processGIF P
  | .IPU_FROM => processIPU_FROM P
  | .IPU_TO => processIPU_TO P
  | .EE_SIF0 => processSIF0 P
  | .EE_SIF1 => processSIF1 P
  | .EE_SIF2 => failure
  | .SPR_FROM => processSPR_FROM P
  | .SPR_TO => processSPR_TO P

/-! ### `run` -/

/-- A turn of the loop of `run`: the active channel is served and its cycles are paid. -/
def serveActive : M W V Unit := do
  match (← dmac).activeChannel with
  | none => failure
  | some c =>
    let transferred ← process P c
    let ch ← channel c
    let cost : ℤ := max transferred 1 + if ch.isSpr then 0 else 12
    modifyDMAC fun d =>
      { d with cyclesToRun := if d.activeChannel = none then 0 else d.cyclesToRun - cost }

/-- The loop of `run`; a turn takes at least one cycle. -/
def serveLoop : ℕ → M W V Unit
  | 0 => failure
  | fuel + 1 => do
    if 0 < (← dmac).cyclesToRun then
      serveActive P
      serveLoop fuel

def grantCycles (cycles : ℕ) : M W V Unit :=
  modifyDMAC fun d => { d with cyclesToRun := d.cyclesToRun + cycles }

def run (cycles : ℕ) : M W V Unit := do
  let d ← dmac
  if d.control.masterEnable && !d.masterDisable.getLsbD 16 then
    if d.activeChannel ≠ none then
      grantCycles cycles
      serveLoop P ((d.cyclesToRun + cycles).toNat + 1)

end DobieStation.Dma.Model
