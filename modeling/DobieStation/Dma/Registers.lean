import DobieStation.Dma.Model
import DobieStation.Lib.Reach

/-! # The registers of the DMA controller, and its runs

`write32` and the narrower writes decode the address to a register and act on it; a write to a
control register starts or stops its channel. `Action` has everything that happens to the
controller: writes of the CPU, requests raised and dropped by peripherals, the turns of `run`
(`run_serves`), and whatever else changes memory and the peripherals in between. -/

namespace DobieStation.Dma.Model

open DobieStation.Lib.Hoare DobieStation.Lib.Reach

variable {W V : Type} (P : Peripherals W V)

/-! ### Starting a channel -/

/-- The fields `start_DMA` sets; mode 3 is taken to mean chain. A chain that starts with quadwords
left takes its tag from the control register. -/
def startFields (ch : DMAChannel) (transferQwc : BitVec 8) : DMAChannel :=
  let control := if mode ch = 3 then ch.control &&& ~~~0x8#32 else ch.control
  let m := control.extractLsb' 2 2
  let tag := control.extractLsb' 28 3
  let chain := m.getLsbD 0
  let resumed : Bool := m == 1#2 && ch.quadwordCount != 0
  { ch with
    control := control
    tagEnd := if resumed then
        tag == 0#3 || tag == 7#3 || (control.getLsbD 7 && control.getLsbD 31)
      else !chain
    tagId := if resumed then tag.setWidth 8 else ch.tagId
    canStallDrain := !chain || tag == 4#3
    interleavedQwc := if m = 2 then transferQwc else ch.interleavedQwc
    isSpr := isScratchpad ch.address
    started := true }

def startDMA (c : Channel) : M W V Unit := do
  let d ← dmac
  modifyChannel c fun ch => startFields ch d.transferQwc
  if d.activeChannel = none then modifyDMAC fun d => { d with cyclesToRun := 0 }
  checkForActivation c

/-- The GIF is told when its channel is stopped by a write. -/
def stopPeripheral (c : Channel) : M W V Unit :=
  if c = .GIF then noteRunning P false else pure ()

/-- A write to a control register. A running channel only takes bit 8 of it. -/
def writeControl (c : Channel) (value : BitVec 32) : M W V Unit := do
  let ch ← channel c
  if ch.control.getLsbD 8 then
    let control := ch.control &&& ((value &&& 0x100#32) ||| 0xFFFFFEFF#32)
    modifyChannel c fun ch => { ch with control := control, started := control.getLsbD 8 }
    if control.getLsbD 8 = false then
      stopPeripheral P c
      deactivateChannel c
  else
    modifyChannel c fun ch => { ch with control := value }
    if value.getLsbD 8 then startDMA c
    else
      stopPeripheral P c
      modifyChannel c fun ch => { ch with started := false }

/-! ### Registers -/

inductive Register where
  | control (c : Channel)
  | address (c : Channel)
  | quadwordCount (c : Channel)
  | tagAddress (c : Channel)
  | tagSave0 (c : Channel)
  | tagSave1 (c : Channel)
  | scratchpadAddress (c : Channel)
  | D_CTRL
  | D_STAT
  | PCR
  | SQWC
  | RBSR
  | RBOR
  | STADR
  deriving DecidableEq, Repr

/-- The registers a write of 32 bits reaches. -/
def decode (address : BitVec 32) : Option Register :=
  match address.toNat with
  | 0x10008000 => some (.control .VIF0)
  | 0x10008010 => some (.address .VIF0)
  | 0x10008020 => some (.quadwordCount .VIF0)
  | 0x10008030 => some (.tagAddress .VIF0)
  | 0x10008040 => some (.tagSave0 .VIF0)
  | 0x10008050 => some (.tagSave1 .VIF0)
  | 0x10009000 => some (.control .VIF1)
  | 0x10009010 => some (.address .VIF1)
  | 0x10009020 => some (.quadwordCount .VIF1)
  | 0x10009030 => some (.tagAddress .VIF1)
  | 0x10009040 => some (.tagSave0 .VIF1)
  | 0x10009050 => some (.tagSave1 .VIF1)
  | 0x1000A000 => some (.control .GIF)
  | 0x1000A010 => some (.address .GIF)
  | 0x1000A020 => some (.quadwordCount .GIF)
  | 0x1000A030 => some (.tagAddress .GIF)
  | 0x1000A040 => some (.tagSave0 .GIF)
  | 0x1000A050 => some (.tagSave1 .GIF)
  | 0x1000B000 => some (.control .IPU_FROM)
  | 0x1000B010 => some (.address .IPU_FROM)
  | 0x1000B020 => some (.quadwordCount .IPU_FROM)
  | 0x1000B400 => some (.control .IPU_TO)
  | 0x1000B410 => some (.address .IPU_TO)
  | 0x1000B420 => some (.quadwordCount .IPU_TO)
  | 0x1000B430 => some (.tagAddress .IPU_TO)
  | 0x1000C000 => some (.control .EE_SIF0)
  | 0x1000C010 => some (.address .EE_SIF0)
  | 0x1000C020 => some (.quadwordCount .EE_SIF0)
  | 0x1000C400 => some (.control .EE_SIF1)
  | 0x1000C410 => some (.address .EE_SIF1)
  | 0x1000C420 => some (.quadwordCount .EE_SIF1)
  | 0x1000C430 => some (.tagAddress .EE_SIF1)
  | 0x1000D000 => some (.control .SPR_FROM)
  | 0x1000D010 => some (.address .SPR_FROM)
  | 0x1000D020 => some (.quadwordCount .SPR_FROM)
  | 0x1000D080 => some (.scratchpadAddress .SPR_FROM)
  | 0x1000D400 => some (.control .SPR_TO)
  | 0x1000D410 => some (.address .SPR_TO)
  | 0x1000D420 => some (.quadwordCount .SPR_TO)
  | 0x1000D430 => some (.tagAddress .SPR_TO)
  | 0x1000D480 => some (.scratchpadAddress .SPR_TO)
  | 0x1000E000 => some .D_CTRL
  | 0x1000E010 => some .D_STAT
  | 0x1000E100 => some .D_STAT
  | 0x1000E020 => some .PCR
  | 0x1000E030 => some .SQWC
  | 0x1000E040 => some .RBSR
  | 0x1000E050 => some .RBOR
  | 0x1000E060 => some .STADR
  | _ => none

def writeDCtrl (value : BitVec 32) (releaseCycle : DCtrl → BitVec 3) : M W V Unit :=
  modifyDMAC fun d =>
    { d with control :=
      { masterEnable := value.getLsbD 0
        cycleStealing := value.getLsbD 1
        memDrainChannel := value.extractLsb' 2 2
        stallSourceChannel := value.extractLsb' 4 2
        stallDestChannel := value.extractLsb' 6 2
        releaseCycle := releaseCycle d.control } }

/-- A write to `D_STAT` clears the flags and turns the masks over. -/
def writeDStat (value : BitVec 32) : M W V Unit := do
  modifyDMAC fun d =>
    { d with
      channelStat := fun i => d.channelStat i && !value.getLsbD i
      channelMask := fun i => d.channelMask i ^^ value.getLsbD (i + 16) }
  int1Check

def writeRegister (r : Register) (value : BitVec 32) : M W V Unit :=
  match r with
  | .control c => writeControl P c value
  | .address c => modifyChannel c fun ch => { ch with address := value &&& ~~~0xF#32 }
  | .quadwordCount c => modifyChannel c fun ch => { ch with quadwordCount := value &&& 0xFFFF#32 }
  | .tagAddress c => modifyChannel c fun ch => { ch with tagAddress := value &&& ~~~0xF#32 }
  | .tagSave0 c => modifyChannel c fun ch => { ch with tagSave0 := value &&& ~~~0xF#32 }
  | .tagSave1 c => modifyChannel c fun ch => { ch with tagSave1 := value &&& ~~~0xF#32 }
  | .scratchpadAddress c =>
    modifyChannel c fun ch => { ch with scratchpadAddress := value &&& 0x3FFC#32 }
  | .D_CTRL => writeDCtrl value fun _ => value.extractLsb' 8 3
  | .D_STAT => writeDStat value
  | .PCR => modifyDMAC fun d => { d with PCR := value }
  | .SQWC => modifyDMAC fun d =>
      { d with skipQwc := value.extractLsb' 0 8, transferQwc := value.extractLsb' 16 8 }
  | .RBSR => modifyDMAC fun d => { d with RBSR := value }
  | .RBOR => modifyDMAC fun d => { d with RBOR := value }
  | .STADR => updateStadr value

def write32 (address value : BitVec 32) : M W V Unit :=
  match decode address with
  | none => pure ()
  | some r => writeRegister P r value

/-- The channels whose control register takes a write of 16 bits. -/
def write16 (address : BitVec 32) (value : BitVec 16) : M W V Unit :=
  match decode address with
  | some (.control c) =>
    if c = .EE_SIF0 ∨ c = .EE_SIF1 then pure ()
    else do
      writeControl P c (((← channel c).control &&& 0xFFFF0000#32) ||| value.setWidth 32)
  | _ => pure ()

/-- The low byte of a control register is written without starting or stopping anything. -/
def write8 (address : BitVec 32) (value : BitVec 8) : M W V Unit :=
  let low (c : Channel) : M W V Unit := modifyChannel c fun ch =>
    { ch with control := (ch.control &&& ~~~0xFF#32) ||| value.setWidth 32 }
  let high (c : Channel) : M W V Unit := do
    writeControl P c (((← channel c).control &&& 0xFFFF00FF#32) ||| (value.setWidth 32 <<< 8))
  match address.toNat with
  | 0x10008000 => low .VIF0
  | 0x10008001 => high .VIF0
  | 0x10009000 => low .VIF1
  | 0x10009001 => high .VIF1
  | 0x1000A001 => high .GIF
  | 0x1000D001 => high .SPR_FROM
  | 0x1000D401 => high .SPR_TO
  | 0x1000E000 => writeDCtrl (value.setWidth 32) (·.releaseCycle)
  | _ => pure ()

/-! ### Runs -/

/-- `reset`; what it does not set keeps its value. -/
def reset (d : DMAC) : DMAC :=
  { d with
    masterDisable := 0x1201#32
    control := { d.control with masterEnable := false }
    mfifoEmptyTriggered := false
    PCR := 0
    STADR := 0
    cyclesToRun := 0
    activeChannel := none
    queuedChannels := []
    channels := fun c => { d.channels c with
      started := false
      control := 0
      dmaReq := c ∈ [.SPR_FROM, .SPR_TO, .IPU_TO, .EE_SIF1, .VIF0, .VIF1] }
    channelStat := fun _ => false
    channelMask := fun _ => false }

/-- Everything that happens to the controller: a call of `run` is a `grant` of cycles and `serve`s
of the active channel; `outside` is the rest of the machine, which changes memory and the
peripherals. -/
inductive Action (W V : Type) where
  | write32 (address value : BitVec 32)
  | write16 (address : BitVec 32) (value : BitVec 16)
  | write8 (address : BitVec 32) (value : BitVec 8)
  | writeMasterDisable (value : BitVec 32)
  | request (r : Request)
  | grant (cycles : ℕ)
  | serve
  | outside (mem : Memory V) (world : W)

def Action.exec : Action W V → M W V Unit
  | .write32 a v => Model.write32 P a v
  | .write16 a v => Model.write16 P a v
  | .write8 a v => Model.write8 P a v
  | .writeMasterDisable v => modifyDMAC fun d => { d with masterDisable := v }
  | .request r => r.apply
  | .grant n => grantCycles n
  | .serve => serveActive P
  | .outside m w => modify fun s => { s with mem := m, world := w }

def Step (s : State W V) (a : Action W V) (s' : State W V) : Prop :=
  (a.exec P).run s = some ((), s')

def Init (s : State W V) : Prop := (∃ d, s.dmac = reset d) ∧ s.trace = []

variable {P}

theorem serveLoop_serves : ∀ (fuel : ℕ) (s : State W V), Ensures (serveLoop P fuel) s fun _ s' =>
    Relation.ReflTransGen (fun s s' => Step P s .serve s') s s'
  | 0, _ => ensures_failure.mpr trivial
  | fuel + 1, s => by
    unfold serveLoop
    rw [ensures_bind]
    refine (show Ensures dmac s fun _ s' => s' = s by simp [dmac]).mono fun d s' hs' => ?_
    subst hs'
    rw [ensures_ite]
    refine ⟨fun _ => ?_, fun _ => ensures_pure.mpr .refl⟩
    rw [ensures_bind]
    intro _ s₁ hserve
    exact (serveLoop_serves fuel s₁).mono fun _ s₂ hr => .head hserve hr

/-- A call of `run` does nothing, or grants the cycles and serves active channels. -/
theorem run_serves {s : State W V} {cycles : ℕ} : Ensures (run P cycles) s fun _ s' => s' = s ∨
    ∃ s₁, Step P s (.grant cycles) s₁ ∧
      Relation.ReflTransGen (fun s s' => Step P s .serve s') s₁ s' := by
  unfold run
  rw [ensures_bind]
  refine (show Ensures dmac s fun _ s' => s' = s by simp [dmac]).mono fun d s' hs' => ?_
  subst hs'
  rw [ensures_ite, ensures_ite]
  refine ⟨fun _ => ⟨fun _ => ?_, fun _ => ensures_pure.mpr (.inl rfl)⟩,
    fun _ => ensures_pure.mpr (.inl rfl)⟩
  rw [ensures_bind]
  intro _ s₁ hgrant
  exact (serveLoop_serves _ s₁).mono fun _ s₂ hr => .inr ⟨s₁, hgrant, hr⟩

variable (P)

/-- The state after a step. -/
def next (s : State W V) (a : Action W V) : Option (State W V) :=
  ((a.exec P).run s).map Prod.snd

/-- A list of steps leads to a reachable state. -/
theorem reaches_of_steps {P : Peripherals W V} {s s' : State W V} {as : List (Action W V)}
    (h0 : Init s) (h : as.foldlM (next P) s = some s') : Reaches Init (Step P) s' := by
  have hstart : Reaches Init (Step P) s := Reaches.start h0
  exact hstart.programs h

/-! A machine to run: its peripherals take everything and its memory is empty. -/

def ready : Peripherals Unit Unit where
  vuRead _ _ := 0
  vuWrite m _ _ := m
  vif0FeedDMA _ w := ⟨true, w, []⟩
  vif0TransferDMAtag _ w := ⟨true, w, []⟩
  vif1FeedDMA _ w := ⟨true, w, []⟩
  vif1TransferDMAtag _ w := ⟨true, w, []⟩
  vif1ReadFIFO w := ⟨(0, true), w, []⟩
  gifDmaRunning _ w := w
  gifDeactivatePATH3 w := ⟨(), w, []⟩
  gifFifoFull _ := false
  gifFifoDraining _ := false
  gifSendPATH3 _ w := ⟨(), w, []⟩
  ipuCanReadFIFO _ := true
  ipuReadFIFO w := ⟨0, w, []⟩
  ipuCanWriteFIFO _ := true
  ipuWriteFIFO _ w := ⟨(), w, []⟩
  sifGetSIF0Size _ := 0
  sifReadSIF0 w := ⟨0, w, []⟩
  sifWriteSIF1 _ w := ⟨(), w, []⟩

def blank : DMAC where
  channels _ :=
    { control := 0, address := 0, quadwordCount := 0, tagAddress := 0, tagSave0 := 0, tagSave1 := 0
      scratchpadAddress := 0, tagEnd := false, interleavedQwc := 0, tagId := 0, started := false
      canStallDrain := false, hasDmaStalled := false, dmaReq := false, isSpr := false }
  activeChannel := none
  queuedChannels := []
  control :=
    { masterEnable := false, cycleStealing := false, memDrainChannel := 0, stallSourceChannel := 0
      stallDestChannel := 0, releaseCycle := 0 }
  channelStat _ := false
  channelMask _ := false
  PCR := 0
  skipQwc := 0
  transferQwc := 0
  RBOR := 0
  RBSR := 0
  STADR := 0
  mfifoEmptyTriggered := false
  cyclesToRun := 0
  masterDisable := 0

def powerOn (rdram : BitVec 32 → Quad) : State Unit Unit where
  dmac := reset blank
  mem := ⟨rdram, fun _ => 0, ()⟩
  world := ()
  int1 := false
  trace := []

theorem init_powerOn (rdram : BitVec 32 → Quad) : Init (powerOn rdram) := ⟨⟨blank, rfl⟩, rfl⟩

end DobieStation.Dma.Model
