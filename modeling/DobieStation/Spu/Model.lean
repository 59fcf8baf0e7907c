import DobieStation.Lib.Fault
import DobieStation.Lib.Reach
import Mathlib.Data.BitVec

/-! # The sound processors

The translation of `spu/spu.cpp` and `spu/spu_reverb.cpp`: the registers, the voices, the DMA and the
reverb of the two cores over their one RAM. An access of the RAM that is out of range stops the program
with a fault. How a block is decoded, how samples are interpolated (the table is computed in floating
point), the envelopes and the noise are a parameter: they have no part in any address. -/

namespace DobieStation.Spu.Model

open DobieStation.Lib.Fault DobieStation.Lib.Reach

abbrev HalfWord := BitVec 16
abbrev Word := BitVec 32

/-- A sample, an `int16_t`. -/
abbrev Sample := BitVec 16

inductive Stop where
  | died
  | ram (index : ℕ)
  deriving DecidableEq, Repr

/-- The half-words of the RAM. -/
def ramSize : ℕ := 0x100000

/-- The two processors, whose ids are 1 and 2. -/
inductive Id where
  | one
  | two
  deriving DecidableEq, Repr

def Id.pick {α : Type} (one two : α) : Id → α
  | .one => one
  | .two => two

structure Stereo where
  left : Sample
  right : Sample
  deriving DecidableEq, Repr

def Stereo.zero : Stereo := ⟨0, 0⟩

def clamp16 (input : ℤ) : Sample := BitVec.ofInt 16 (max (min input 32767) (-32768))

def mulvol (a b : Sample) : Sample := BitVec.ofInt 16 (a.toInt * b.toInt / 2 ^ 15)

def Stereo.mix (a b : Stereo) (l r : Bool) : Stereo where
  left := if l then clamp16 (a.left.toInt + b.left.toInt) else a.left
  right := if r then clamp16 (a.right.toInt + b.right.toInt) else a.right

/-- The decoder, the interpolation and the envelopes of a voice, whose state is a `U`; the noise and the
main volumes of a core, whose state is an `N`. -/
structure Synth (U N : Type) where
  decodeBlock : List HalfWord → U → (ℕ → Sample) × U
  interpolate : Word → Sample → Sample → Sample → Sample → Sample
  envelope : U → Sample
  leftVol : U → Sample
  rightVol : U → Sample
  advance : U → U
  attack : U → U
  release : U → U
  endRelease : U → U
  writeVoice : ℕ → HalfWord → U → U
  resetVoice : U → U
  noise : N → Sample
  advanceCore : N → N
  writeCore : ℕ → HalfWord → N → N
  resetCore : N → N

structure VoiceMix where
  dryL : Bool
  dryR : Bool
  wetL : Bool
  wetR : Bool
  deriving DecidableEq, Repr

structure Voice (U : Type) where
  pitch : HalfWord
  startAddr : Word
  currentAddr : Word
  loopAddr : Word
  loopAddrSpecified : Bool
  mixState : VoiceMix
  counter : Word
  sampleIdx : ℕ
  loopCode : HalfWord
  newBlock : Bool
  old1 : Sample
  old2 : Sample
  old3 : Sample
  nextSample : Sample
  outx : Sample
  pcm : ℕ → Sample
  unit : U

/-- `CoreMix`: the register; its bits are the flags. -/
structure CoreMix where
  reg : HalfWord
  deriving DecidableEq, Repr

/-- The registers of the reverb, in their order. -/
inductive Tap where
  | dAFP1 | dAFP2 | mLSAME | mRSAME | mLCOMB1 | mRCOMB1 | mLCOMB2 | mRCOMB2 | dLSAME | dRSAME | mLDIFF
  | mRDIFF | mLCOMB3 | mRCOMB3 | mLCOMB4 | mRCOMB4 | dLDIFF | dRDIFF | mLAPF1 | mRAPF1 | mLAPF2 | mRAPF2
  deriving DecidableEq, Repr

inductive Coefficient where
  | vIIR | vCOMB1 | vCOMB2 | vCOMB3 | vCOMB4 | vWALL | vAPF1 | vAPF2 | vLIN | vRIN
  deriving DecidableEq, Repr

structure Reverb where
  effectAreaStart : Word
  effectAreaEnd : Word
  effectPos : Word
  cycle : BitVec 8
  Eout : Stereo
  reg : Tap → Word
  coefficient : Coefficient → Sample

/-- The members of `SPU` that are not static. -/
structure Core (U N : Type) where
  voices : ℕ → Voice U
  dmaReady : Bool
  dmaBusy : Bool
  reverb : Reverb
  transferAddr : Word
  currentAddr : Word
  outputEnable : Bool
  effectEnable : Bool
  dataInputVolumeL : Sample
  dataInputVolumeR : Sample
  effectVolumeL : Sample
  effectVolumeR : Sample
  coreVolumeL : Sample
  coreVolumeR : Sample
  mixState : CoreMix
  voiceMixdryLeft : Word
  voiceMixdryRight : Word
  voiceMixwetLeft : Word
  voiceMixwetRight : Word
  voicePitchMod : Word
  voiceNoiseGen : Word
  autodmaCtrl : HalfWord
  currentBuffer : BitVec 8
  ADMAProgress : Word
  bufferPos : Word
  ENDX : Word
  keyOn : Word
  keyOff : Word
  unit : N

/-- What is asked of the interrupt controller and of the DMA controller. -/
inductive Signal where
  | irq
  | setDmaReq (id : Id)
  | clearDmaReq (id : Id)
  deriving DecidableEq, Repr

structure SPUs (U N : Type) where
  ram : ℕ → HalfWord
  spdifIrq : HalfWord
  coreAtt : Id → HalfWord
  IRQA : Id → Word
  signals : List Signal
  core : Id → Core U N

variable {U N : Type} (Y : Synth U N)

abbrev M (U N : Type) := StateT (SPUs U N) (Except Stop)

def put {α : Type} (id : Id) (x : α) (f : Id → α) : Id → α := fun k => if k = id then x else f k

def core (id : Id) : M U N (Core U N) := do pure ((← get).core id)

def modifyCore (id : Id) (f : Core U N → Core U N) : M U N PUnit :=
  modify fun s => { s with core := put id (f (s.core id)) s.core }

def voice (id : Id) (v : ℕ) : M U N (Voice U) := do pure ((← core id).voices v)

def Core.setVoice (v : ℕ) (f : Voice U → Voice U) (c : Core U N) : Core U N :=
  { c with voices := fun k => if k = v then f (c.voices k) else c.voices k }

def modifyVoice (id : Id) (v : ℕ) (f : Voice U → Voice U) : M U N PUnit :=
  modifyCore id (Core.setVoice v f)

def modifyReverb (id : Id) (f : Reverb → Reverb) : M U N PUnit :=
  modifyCore id fun c => { c with reverb := f c.reverb }

/-! ### The RAM -/

def load (addr : Word) : M U N HalfWord := do
  let s ← get
  if addr.toNat < ramSize then pure (s.ram addr.toNat) else throw (.ram addr.toNat)

def store (addr : Word) (value : HalfWord) : M U N PUnit :=
  if addr.toNat < ramSize then
    modify fun s => { s with ram := fun k => if k = addr.toNat then value else s.ram k }
  else throw (.ram addr.toNat)

def signal (x : Signal) : M U N PUnit := modify fun s => { s with signals := s.signals ++ [x] }

/-- Half of a mask of interrupts. -/
def irqBit (id : Id) : HalfWord := id.pick 4 8

def spuIrq (index : Id) : M U N PUnit := do
  let s ← get
  if s.spdifIrq &&& irqBit index ≠ 0 then pure ⟨⟩
  else do
    modify fun s => { s with spdifIrq := s.spdifIrq ||| irqBit index }
    signal .irq

def checkIrqOf (index : Id) (address : Word) : M U N PUnit := do
  let s ← get
  if address = s.IRQA index ∧ (s.coreAtt index).getLsbD 6 then spuIrq index else pure ⟨⟩

def spuCheckIrq (address : Word) : M U N PUnit := do
  checkIrqOf .one address
  checkIrqOf .two address

def read (addr : Word) : M U N HalfWord := do
  spuCheckIrq addr
  load addr

def write (addr : Word) (data : HalfWord) : M U N PUnit := do
  spuCheckIrq addr
  store addr data

def addrMask : Word := 0x000FFFFF

/-- The address after one. -/
def following (addr : Word) : Word := (addr + 1) &&& addrMask

/-! ### The voices -/

/-- The eight half-words of a block. -/
def loadBlock (addr : Word) : M U N (List HalfWord) := do
  let h0 ← load addr
  let h1 ← load (addr + 1)
  let h2 ← load (addr + 2)
  let h3 ← load (addr + 3)
  let h4 ← load (addr + 4)
  let h5 ← load (addr + 5)
  let h6 ← load (addr + 6)
  let h7 ← load (addr + 7)
  pure [h0, h1, h2, h3, h4, h5, h6, h7]

/-- The samples move on, and the next one is the sample `voice.sample_idx` of the block. -/
def Voice.shift (x : Voice U) : Voice U :=
  { x with
    old3 := x.old2
    old2 := x.old1
    old1 := x.nextSample
    nextSample := x.pcm x.sampleIdx }

/-- The header of a block. -/
def Voice.header (h : HalfWord) (x : Voice U) : Voice U :=
  { x with
    loopCode := h >>> 8 &&& 0x3
    loopAddr := if h.getLsbD 10 ∧ ¬ x.loopAddrSpecified then x.currentAddr else x.loopAddr
    sampleIdx := 0 }

def Voice.decoded (block : List HalfWord) (x : Voice U) : Voice U :=
  { x with pcm := (Y.decodeBlock block x.unit).1, unit := (Y.decodeBlock block x.unit).2 }

/-- A block is taken from its address. -/
def takeBlock (id : Id) (v : ℕ) (addr : Word) : M U N PUnit := do
  let h ← load addr
  modifyVoice id v (Voice.header h)
  let block ← loadBlock addr
  modifyVoice id v (Voice.decoded Y block)
  spuCheckIrq addr
  modifyVoice id v fun x =>
    Voice.shift { x with currentAddr := following x.currentAddr, newBlock := false }

def switchBlock (id : Id) (v : ℕ) : M U N PUnit := do
  modifyVoice id v fun x => { x with currentAddr := x.currentAddr &&& 0x000FFFF8 }
  takeBlock Y id v (← voice id v).currentAddr

/-- The step of a voice, which the voice before it may modulate. -/
def voiceStep (c : Core U N) (v : ℕ) : Word :=
  let pitch := (c.voices v).pitch.setWidth 32
  let factor : ℤ := (c.voices (v - 1)).outx.toInt + 0x8000
  let step : Word :=
    if c.voicePitchMod.getLsbD v ∧ v ≠ 0 then
      ((pitch * BitVec.ofInt 32 factor) >>> 15) &&& 0xFFFF
    else pitch
  if step.toNat < 0x3FFF then step else 0x3FFF

/-- A voice has come to the end of a looping block. -/
def endBlock (id : Id) (v : ℕ) : M U N PUnit := do
  modifyCore id fun c => { c with ENDX := c.ENDX ||| (1 : Word) <<< v }
  let x ← voice id v
  if x.loopCode.getLsbD 1 then pure ⟨⟩
  else modifyVoice id v fun x => { x with unit := Y.endRelease x.unit }

/-- One turn of the loop of `voice_gen_sample`. -/
def voiceTurn (id : Id) (v : ℕ) : M U N PUnit := do
  modifyVoice id v fun x => { x with counter := x.counter - 0x1000, sampleIdx := x.sampleIdx + 1 }
  let x ← voice id v
  (if x.sampleIdx % 4 = 0 then do
    spuCheckIrq x.currentAddr
    modifyVoice id v fun x => { x with currentAddr := following x.currentAddr }
  else pure ⟨⟩)
  (if x.sampleIdx = 24 ∧ x.loopCode.getLsbD 0 then
    modifyVoice id v fun x => { x with currentAddr := x.loopAddr ||| 1 }
  else pure ⟨⟩)
  if x.sampleIdx = 28 then do
    (if x.loopCode.getLsbD 0 then endBlock Y id v else pure ⟨⟩)
    switchBlock Y id v
  else modifyVoice id v Voice.shift

/-- The output areas, `MEMOUT`. -/
def VOICE1 : Word := 0x400
def VOICE3 : Word := 0x600
def SINL : Word := 0x800
def SINR : Word := 0xA00
def MEMOUTL : Word := 0x1000
def MEMOUTR : Word := 0x1200
def MEMOUTEL : Word := 0x1400
def MEMOUTER : Word := 0x1600

/-- The place in an area of two buffers. -/
def Core.place (c : Core U N) (area : Word) : Word :=
  area + c.currentBuffer.setWidth 32 * 0x100 + c.bufferPos

def memout (id : Id) (area : Word) (sample : Sample) : M U N PUnit := do
  let c ← core id
  write (c.place area + id.pick 0 0x800) sample

/-- The sample of a voice before its volumes. -/
def voiceOutput (c : Core U N) (v : ℕ) : Sample :=
  let x := c.voices v
  let sample :=
    if c.voiceNoiseGen.getLsbD v then Y.noise c.unit
    else Y.interpolate x.counter x.old1 x.old2 x.old3 x.nextSample
  mulvol sample (Y.envelope x.unit)

def voiceGenSample (id : Id) (v : ℕ) : M U N Stereo := do
  (if (← voice id v).newBlock then switchBlock Y id v else pure ⟨⟩)
  modifyCore id fun c =>
    c.setVoice v (fun x => { x with counter := x.counter + voiceStep c v })
  let turns := (← voice id v).counter.toNat / 0x1000
  upTo (fun _ => voiceTurn Y id v) turns 0
  modifyCore id fun c => c.setVoice v (fun x => { x with outx := voiceOutput Y c v })
  let x ← voice id v
  (if v = 1 then memout id VOICE1 x.outx else pure ⟨⟩)
  (if v = 3 then memout id VOICE3 x.outx else pure ⟨⟩)
  modifyVoice id v fun x => { x with unit := Y.advance x.unit }
  pure ⟨mulvol x.outx (Y.leftVol x.unit), mulvol x.outx (Y.rightVol x.unit)⟩

/-! ### The reverb -/

/-- `translate_reverb_offset`, without its check. -/
def Reverb.translate (r : Reverb) (offset : Word) : Word :=
  r.effectAreaStart + (r.effectPos + offset) % (r.effectAreaEnd - r.effectAreaStart)

def translateReverbOffset (id : Id) (offset : Word) : M U N Word := do
  let r := (← core id).reverb
  let addr := r.translate offset
  if addr.toNat < r.effectAreaStart.toNat ∨ r.effectAreaEnd.toNat < addr.toNat then throw .died
  else pure addr

/-- The macro `R`. -/
def readTap (id : Id) (offset : Word) : M U N Sample := do
  let addr ← translateReverbOffset id offset
  read addr

/-- The macro `W`, where the effect is enabled. -/
def writeTap (id : Id) (t : Tap) (value : Sample) : M U N PUnit := do
  let c ← core id
  if c.effectEnable then do
    let addr ← translateReverbOffset id (c.reverb.reg t)
    write addr value
  else pure ⟨⟩

def plus (a b : Sample) : Sample := clamp16 (a.toInt + b.toInt)
def minus (a b : Sample) : Sample := clamp16 (a.toInt - b.toInt)

/-- A reflection: the input and what comes back from `d`, filtered into `m`. -/
def reflect (id : Id) (input : Sample) (d m : Tap) : M U N PUnit := do
  let r := (← core id).reverb
  let back ← readTap id (r.reg d)
  let last ← readTap id (r.reg m - 1)
  let filtered := mulvol (minus (plus input (mulvol back (r.coefficient .vWALL))) last)
    (r.coefficient .vIIR)
  let last' ← readTap id (r.reg m - 1)
  writeTap id m (plus filtered last')

/-- The early echo of one side. -/
def comb (id : Id) (t1 t2 t3 t4 : Tap) : M U N Sample := do
  let r := (← core id).reverb
  let s1 ← readTap id (r.reg t1)
  let out1 := mulvol (r.coefficient .vCOMB1) s1
  let s2 ← readTap id (r.reg t2)
  let out2 := plus out1 (mulvol (r.coefficient .vCOMB2) s2)
  let s3 ← readTap id (r.reg t3)
  let out3 := plus out2 (mulvol (r.coefficient .vCOMB3) s3)
  let s4 ← readTap id (r.reg t4)
  pure (plus out3 (mulvol (r.coefficient .vCOMB4) s4))

/-- An all pass filter. -/
def allPass (id : Id) (m d : Tap) (v : Coefficient) (input : Sample) : M U N Sample := do
  let r := (← core id).reverb
  let before ← readTap id (r.reg m - r.reg d)
  let out := minus input (mulvol (r.coefficient v) before)
  writeTap id m out
  let after ← readTap id (r.reg m - r.reg d)
  pure (plus (mulvol out (r.coefficient v)) after)

def Reverb.advance (r : Reverb) : Reverb :=
  { r with
    effectPos :=
      if (r.effectAreaEnd - r.effectAreaStart + 1).toNat ≤ (r.effectPos + 1).toNat then 0
      else r.effectPos + 1
    cycle := 1 }

/-- The filters of a turn of the reverb. -/
def filterReverb (id : Id) (wet : Stereo) : M U N Stereo := do
  let r := (← core id).reverb
  let Lin := mulvol wet.left (r.coefficient .vLIN)
  let Rin := mulvol wet.right (r.coefficient .vRIN)
  reflect id Lin .dLSAME .mLSAME
  reflect id Rin .dRSAME .mRSAME
  reflect id Lin .dRDIFF .mLDIFF
  reflect id Rin .dLDIFF .mRDIFF
  let Lout ← comb id .mLCOMB1 .mLCOMB2 .mLCOMB3 .mLCOMB4
  let Rout ← comb id .mRCOMB1 .mRCOMB2 .mRCOMB3 .mRCOMB4
  let Lout1 ← allPass id .mLAPF1 .dAFP1 .vAPF1 Lout
  let Rout1 ← allPass id .mRAPF1 .dAFP1 .vAPF1 Rout
  let Lout2 ← allPass id .mLAPF2 .dAFP2 .vAPF2 Lout1
  let Rout2 ← allPass id .mRAPF2 .dAFP2 .vAPF2 Rout1
  pure ⟨Lout2, Rout2⟩

/-- The output of the filters, and the next position. -/
def Core.finishReverb (out : Stereo) (c : Core U N) : Core U N :=
  { c with
    reverb := { c.reverb.advance with
      Eout := ⟨mulvol out.left c.effectVolumeL, mulvol out.right c.effectVolumeR⟩ } }

/-- The size of the effect area as an `int` is positive. -/
def Reverb.running (r : Reverb) : Prop :=
  r.cycle = 0 ∧ 0 < (r.effectAreaEnd - r.effectAreaStart).toInt

instance (r : Reverb) : Decidable r.running := inferInstanceAs (Decidable (_ ∧ _))

def runReverb (id : Id) (wet : Stereo) : M U N PUnit := do
  let r := (← core id).reverb
  if r.running then do
    let out ← filterReverb id wet
    modifyCore id (Core.finishReverb out)
  else if r.cycle = 0 then pure ⟨⟩
  else modifyReverb id fun r => { r with cycle := r.cycle - 1 }

/-! ### A sample -/

def CoreMix.flag (m : CoreMix) (n : ℕ) : Bool := m.reg.getLsbD n

/-- The samples of the voices from `first` on, mixed. -/
def mixVoices (id : Id) : ℕ → ℕ → Stereo → Stereo → M U N (Stereo × Stereo)
  | 0, _, dry, wet => pure (dry, wet)
  | n + 1, first, dry, wet => do
    let sample ← voiceGenSample Y id first
    let x := (← voice id first).mixState
    mixVoices id n (first + 1) (dry.mix sample x.dryL x.dryR) (wet.mix sample x.wetL x.wetR)

def Core.runningADMA (id : Id) (c : Core U N) : Bool := c.autodmaCtrl.getLsbD (id.pick 0 1)

/-- The areas of the automatic DMA. -/
def SPU_CORE0_MEMIN : Word := 0x2000
def SPU_CORE1_MEMIN : Word := 0x2400

def getMeminAddr (id : Id) : Word := id.pick SPU_CORE0_MEMIN SPU_CORE1_MEMIN

def readMemin (id : Id) : M U N Stereo := do
  let c ← core id
  let pos := c.place (getMeminAddr id)
  let left ← load pos
  let right ← load (pos + 0x200)
  spuCheckIrq pos
  spuCheckIrq (pos + 0x200)
  pure ⟨mulvol left c.dataInputVolumeL, mulvol right c.dataInputVolumeR⟩

/-- The input of the automatic DMA. -/
def mixMemin (id : Id) (dry wet : Stereo) : M U N (Stereo × Stereo) := do
  let c ← core id
  if c.runningADMA id then do
    let memin ← readMemin id
    pure (dry.mix memin (c.mixState.flag 7) (c.mixState.flag 6),
      wet.mix memin (c.mixState.flag 5) (c.mixState.flag 4))
  else pure (dry, wet)

/-- The second processor takes the output of the first. -/
def mixSin (id : Id) (dry wet : Stereo) : M U N (Stereo × Stereo) := do
  let c ← core id
  if id = .two then do
    let left ← read (c.place SINL)
    let right ← read (c.place SINR)
    let sin : Stereo := ⟨mulvol left c.coreVolumeL, mulvol right c.coreVolumeR⟩
    pure (dry.mix sin (c.mixState.flag 3) (c.mixState.flag 2),
      wet.mix sin (c.mixState.flag 1) (c.mixState.flag 0))
  else pure (dry, wet)

def keyOffVoice (id : Id) (v : ℕ) : M U N PUnit :=
  modifyVoice id v fun x => { x with unit := Y.release x.unit }

def keyOnVoice (id : Id) (v : ℕ) : M U N PUnit := do
  modifyCore id fun c => { c with ENDX := c.ENDX &&& ~~~((1 : Word) <<< v) }
  modifyVoice id v fun x => { x with
    currentAddr := x.startAddr ||| 1
    newBlock := true
    loopAddrSpecified := false
    old3 := 0
    old2 := 0
    old1 := 0
    nextSample := 0
    unit := Y.attack x.unit }

def updateVoice (id : Id) (v : ℕ) : M U N PUnit := do
  let c ← core id
  (if c.keyOff.getLsbD v then keyOffVoice Y id v else pure ⟨⟩)
  (if c.keyOn.getLsbD v then keyOnVoice Y id v else pure ⟨⟩)

def updateVoiceState (id : Id) : M U N PUnit := do
  upTo (updateVoice Y id) 24 0
  modifyCore id fun c => { c with keyOn := 0, keyOff := 0 }

/-- The buffers are exchanged, and more data is requested. -/
def advanceBuffers (id : Id) : M U N PUnit := do
  modifyCore id fun c => { c with bufferPos := c.bufferPos + 1 }
  let c ← core id
  if c.bufferPos = 0x100 then do
    modifyCore id fun c =>
      { c with bufferPos := c.bufferPos &&& 0xFF, currentBuffer := 1 - c.currentBuffer }
    if c.runningADMA id then signal (.setDmaReq id) else pure ⟨⟩
  else pure ⟨⟩

def genSample (id : Id) : M U N PUnit := do
  let (voicesDry, voicesWet) ← mixVoices Y id 24 0 .zero .zero
  memout id MEMOUTL voicesDry.left
  memout id MEMOUTR voicesDry.right
  memout id MEMOUTEL voicesWet.left
  memout id MEMOUTER voicesWet.right
  let (dry1, wet1) ← mixMemin id .zero .zero
  let (dry2, wet2) ← mixSin id dry1 wet1
  let c ← core id
  let dry3 := dry2.mix voicesDry (c.mixState.flag 11) (c.mixState.flag 10)
  let wet3 := wet2.mix voicesWet (c.mixState.flag 9) (c.mixState.flag 8)
  runReverb id wet3
  let c' ← core id
  let output :=
    if c'.outputEnable then (Stereo.zero.mix dry3 true true).mix c'.reverb.Eout true true
    else .zero
  (if id = .one then do
    memout id SINL output.left
    memout id SINR output.right
  else pure ⟨⟩)
  modifyCore id fun c => { c with unit := Y.advanceCore c.unit }
  updateVoiceState Y id
  advanceBuffers id

/-! ### The DMA -/

def finishDMA (id : Id) : M U N PUnit :=
  modifyCore id fun c => { c with dmaReady := true, dmaBusy := false }

def startDMA (id : Id) : M U N PUnit :=
  modifyCore id fun c => { c with
    ADMAProgress := if c.runningADMA id then 0 else c.ADMAProgress
    dmaReady := false }

def pauseDMA (id : Id) : M U N PUnit :=
  modifyCore id fun c => { c with dmaBusy := false, dmaReady := true }

/-- The address of the transfer moves on. -/
def advanceTransfer (id : Id) : M U N PUnit := do
  spuCheckIrq (← core id).currentAddr
  modifyCore id fun c => { c with currentAddr := following c.currentAddr }

def readMem (id : Id) : M U N HalfWord := do
  let value ← load (← core id).currentAddr
  advanceTransfer id
  pure value

def writeMem (id : Id) (value : HalfWord) : M U N PUnit := do
  store (← core id).currentAddr value
  advanceTransfer id

def busyDMA (id : Id) : M U N PUnit :=
  modifyCore id fun c => { c with dmaBusy := true, dmaReady := false }

def readDMA (id : Id) : M U N Word := do
  let low ← readMem id
  let high ← readMem id
  busyDMA id
  pure (high ++ low)

def writeDMA (id : Id) (value : Word) : M U N PUnit := do
  writeMem id (value.setWidth 16)
  writeMem id (value.extractLsb' 16 16)
  busyDMA id

/-- A copy of two half-words. -/
def storePair (addr : Word) (value : Word) : M U N PUnit := do
  store addr (value.setWidth 16)
  store (addr + 1) (value.extractLsb' 16 16)

def writeADMA (id : Id) (source : Word) : M U N PUnit := do
  let c ← core id
  let base := getMeminAddr id + (1 - c.currentBuffer.setWidth 32) * 0x100
  (if c.ADMAProgress.toNat < 256 then storePair (base + c.ADMAProgress) source
  else if c.ADMAProgress.toNat < 512 then
    storePair (0x200 + base + (c.ADMAProgress - 0x100)) source
  else pure ⟨⟩)
  modifyCore id fun c => { c with ADMAProgress := c.ADMAProgress + 2 }
  (if 512 ≤ (← core id).ADMAProgress.toNat then do
    modifyCore id fun c => { c with ADMAProgress := 0 }
    signal (.clearDmaReq id)
  else pure ⟨⟩)
  busyDMA id

/-! ### The registers -/

/-- The low half of a word. -/
def setLow (value : HalfWord) (w : Word) : Word := (w &&& 0xFFFF0000) ||| value.setWidth 32

/-- The upper half of a word. -/
def setHigh (value : HalfWord) (w : Word) : Word := (w &&& 0xFFFF) ||| value.setWidth 32 <<< 16

/-- The bits 16 to 19 of an address. -/
def setAddrHigh (value : HalfWord) (w : Word) : Word :=
  (w &&& 0xFFFF) ||| (value &&& 0xF).setWidth 32 <<< 16

/-- The bits 16 to 21 of the effect area. -/
def setAreaHigh (value : HalfWord) (w : Word) : Word :=
  (w &&& 0xFFFF) ||| (value &&& 0x3F).setWidth 32 <<< 16

/-- The end of the effect area, of which only the upper half is a register. -/
def setAreaEnd (value : HalfWord) (w : Word) : Word :=
  (w &&& 0xFFFF) ||| ((value &&& 0x3F).setWidth 32 <<< 16 ||| 0xFFFF)

/-- The bits 16 to 23 of a mask of voices. -/
def setKeyHigh (value : HalfWord) (w : Word) : Word :=
  (w &&& 0xFF00FFFF) ||| (value &&& 0xFF).setWidth 32 <<< 16

def tapOf : ℕ → Option Tap
  | 0 => some .dAFP1 | 1 => some .dAFP2 | 2 => some .mLSAME | 3 => some .mRSAME
  | 4 => some .mLCOMB1 | 5 => some .mRCOMB1 | 6 => some .mLCOMB2 | 7 => some .mRCOMB2
  | 8 => some .dLSAME | 9 => some .dRSAME | 10 => some .mLDIFF | 11 => some .mRDIFF
  | 12 => some .mLCOMB3 | 13 => some .mRCOMB3 | 14 => some .mLCOMB4 | 15 => some .mRCOMB4
  | 16 => some .dLDIFF | 17 => some .dRDIFF | 18 => some .mLAPF1 | 19 => some .mRAPF1
  | 20 => some .mLAPF2 | 21 => some .mRAPF2
  | _ => none

/-- `write_reverb_reg32`. -/
def Core.writeReverbReg (n : ℕ) (value : HalfWord) (c : Core U N) : Core U N :=
  match tapOf (n / 2) with
  | some t =>
    if c.effectEnable then c
    else { c with reverb := { c.reverb with
      reg := fun k =>
        if k = t then
          if n % 2 = 1 then setLow value (c.reverb.reg k) else setHigh value (c.reverb.reg k)
        else c.reverb.reg k } }
  | none => c

def coefficientOf : ℕ → Option Coefficient
  | 0x774 => some .vIIR | 0x776 => some .vCOMB1 | 0x778 => some .vCOMB2 | 0x77A => some .vCOMB3
  | 0x77C => some .vCOMB4 | 0x77E => some .vWALL | 0x780 => some .vAPF1 | 0x782 => some .vAPF2
  | 0x784 => some .vLIN | 0x786 => some .vRIN
  | _ => none

def Reverb.setCoefficient (k : Coefficient) (value : Sample) (r : Reverb) : Reverb :=
  { r with coefficient := fun j => if j = k then value else r.coefficient j }

/-- The registers from `0x760` on, after the offset of the second processor is taken off. -/
def Core.writeHigh (addr : ℕ) (value : HalfWord) (c : Core U N) : Core U N :=
  match coefficientOf addr with
  | some k => { c with reverb := c.reverb.setCoefficient k value }
  | none =>
    match addr with
    | 0x760 => { c with unit := Y.writeCore addr value c.unit }
    | 0x762 => { c with unit := Y.writeCore addr value c.unit }
    | 0x764 => { c with effectVolumeL := value }
    | 0x766 => { c with effectVolumeR := value }
    | 0x768 => { c with coreVolumeL := value }
    | 0x76A => { c with coreVolumeR := value }
    | 0x76C => { c with dataInputVolumeL := value }
    | 0x76E => { c with dataInputVolumeR := value }
    | _ => c

/-- `write_voice_reg`. -/
def Voice.writeReg (reg : ℕ) (value : HalfWord) (x : Voice U) : Voice U :=
  match reg with
  | 4 => { x with pitch := if 0x4000 < value.toNat then 0x4000 else value }
  | 0 | 2 | 6 | 8 | 10 => { x with unit := Y.writeVoice reg value x.unit }
  | _ => x

/-- The addresses of a voice. -/
def Voice.writeAddr (reg : ℕ) (value : HalfWord) (x : Voice U) : Voice U :=
  match reg with
  | 0 => { x with startAddr := setAddrHigh value x.startAddr }
  | 2 => { x with startAddr := setLow (value &&& 0xFFF8) x.startAddr }
  | 4 => { x with loopAddr := setAddrHigh value x.loopAddr, loopAddrSpecified := true }
  | 6 => { x with loopAddr := setLow (value &&& 0xFFF8) x.loopAddr, loopAddrSpecified := true }
  | _ => x

/-- The flags of the voices from `first` on, `n` of them. -/
def Core.mixFlags (first n : ℕ) (value : HalfWord) (f : Bool → VoiceMix → VoiceMix) (c : Core U N) :
    Core U N :=
  { c with voices := fun k =>
      if first ≤ k ∧ k < first + n then
        { c.voices k with mixState := f (value.getLsbD (k - first)) (c.voices k).mixState }
      else c.voices k }

def setDryL (b : Bool) (x : VoiceMix) : VoiceMix := { x with dryL := b }
def setDryR (b : Bool) (x : VoiceMix) : VoiceMix := { x with dryR := b }
def setWetL (b : Bool) (x : VoiceMix) : VoiceMix := { x with wetL := b }
def setWetR (b : Bool) (x : VoiceMix) : VoiceMix := { x with wetR := b }

def setDmaReq (id : Id) : M U N PUnit := signal (.setDmaReq id)
def clearDmaReq (id : Id) : M U N PUnit := signal (.clearDmaReq id)

/-- The core attributes. -/
def writeCoreAtt (id : Id) (value : HalfWord) : M U N PUnit := do
  (if ((← get).coreAtt id).getLsbD 6 ∧ ¬ value.getLsbD 6 then
    modify fun s => { s with spdifIrq := s.spdifIrq &&& ~~~(irqBit id) }
  else pure ⟨⟩)
  (if (← core id).runningADMA id then pure ⟨⟩
  else if (value >>> 4) &&& 0x3 ≠ 0 then setDmaReq id
  else clearDmaReq id)
  modify fun s => { s with coreAtt := put id (value &&& 0x7FFF) s.coreAtt }
  (if value.getLsbD 15 then do
    modifyCore id fun c => { c with dmaReady := false, dmaBusy := false }
    clearDmaReq id
  else pure ⟨⟩)
  modifyCore id fun c => { c with
    outputEnable := value.getLsbD 14
    effectEnable := value.getLsbD 7
    unit := Y.writeCore 0x19A value c.unit }

def writeAutodma (id : Id) (value : HalfWord) : M U N PUnit :=
  if value.getLsbD 2 then throw .died
  else do
    modifyCore id fun c => { c with autodmaCtrl := value }
    if (← core id).runningADMA id then setDmaReq id else pure ⟨⟩

/-- A register of the effect area, which is fixed while the effect is enabled. -/
def modifyArea (id : Id) (f : Reverb → Reverb) : M U N PUnit :=
  modifyCore id fun c =>
    if c.effectEnable then c else { c with reverb := { f c.reverb with effectPos := 0 } }

/-- The registers that are not those of the voices and the reverb. -/
def writeReg (id : Id) (addr : ℕ) (value : HalfWord) : M U N PUnit :=
  match addr with
  | 0x180 => modifyCore id fun c => { c with voicePitchMod := setLow value c.voicePitchMod }
  | 0x182 => modifyCore id fun c => { c with voicePitchMod := setHigh value c.voicePitchMod }
  | 0x184 => modifyCore id fun c => { c with voiceNoiseGen := setLow value c.voiceNoiseGen }
  | 0x186 => modifyCore id fun c => { c with voiceNoiseGen := setHigh value c.voiceNoiseGen }
  | 0x188 => modifyCore id fun c => Core.mixFlags 0 16 value setDryL
      { c with voiceMixdryLeft := setLow value c.voiceMixdryLeft }
  | 0x18A => modifyCore id fun c => Core.mixFlags 16 8 value setDryL
      { c with voiceMixdryLeft := setHigh value c.voiceMixdryLeft }
  | 0x18C => modifyCore id fun c => Core.mixFlags 0 16 value setWetL
      { c with voiceMixwetLeft := setLow value c.voiceMixwetLeft }
  | 0x18E => modifyCore id fun c => Core.mixFlags 16 8 value setWetL
      { c with voiceMixwetLeft := setHigh value c.voiceMixwetLeft }
  | 0x190 => modifyCore id fun c => Core.mixFlags 0 16 value setDryR
      { c with voiceMixdryRight := setLow value c.voiceMixdryRight }
  | 0x192 => modifyCore id fun c => Core.mixFlags 16 8 value setDryR
      { c with voiceMixdryRight := setHigh value c.voiceMixdryRight }
  | 0x194 => modifyCore id fun c => Core.mixFlags 0 16 value setWetR
      { c with voiceMixwetRight := setLow value c.voiceMixwetRight }
  | 0x196 => modifyCore id fun c => Core.mixFlags 16 8 value setWetR
      { c with voiceMixwetRight := setHigh value c.voiceMixwetRight }
  | 0x198 => modifyCore id fun c => { c with mixState := ⟨value⟩ }
  | 0x19A => writeCoreAtt Y id value
  | 0x19C => modify fun s => { s with IRQA := put id (setAddrHigh value (s.IRQA id)) s.IRQA }
  | 0x19E => modify fun s => { s with IRQA := put id (setLow value (s.IRQA id)) s.IRQA }
  | 0x1A0 => modifyCore id fun c => { c with keyOn := setLow value c.keyOn }
  | 0x1A2 => modifyCore id fun c => { c with keyOn := setKeyHigh value c.keyOn }
  | 0x1A4 => modifyCore id fun c => { c with keyOff := setLow value c.keyOff }
  | 0x1A6 => modifyCore id fun c => { c with keyOff := setKeyHigh value c.keyOff }
  | 0x1A8 => modifyCore id fun c => { c with
      transferAddr := setAddrHigh value c.transferAddr
      currentAddr := setAddrHigh value c.transferAddr }
  | 0x1AA => modifyCore id fun c => { c with
      transferAddr := setLow value c.transferAddr
      currentAddr := setLow value c.transferAddr }
  | 0x1AC => writeMem id value
  | 0x1B0 => writeAutodma id value
  | 0x2E0 => modifyArea id fun r => { r with effectAreaStart := setAreaHigh value r.effectAreaStart }
  | 0x2E2 => modifyArea id fun r => { r with effectAreaStart := setLow value r.effectAreaStart }
  | 0x33C => modifyArea id fun r => { r with effectAreaEnd := setAreaEnd value r.effectAreaEnd }
  | 0x340 => modifyCore id fun c => { c with ENDX := c.ENDX &&& 0xFF0000 }
  | 0x342 => modifyCore id fun c => { c with ENDX := c.ENDX &&& 0xFFFF }
  | _ => pure ⟨⟩

def write16 (id : Id) (address : Word) (value : HalfWord) : M U N PUnit :=
  let high := (address &&& 0x7FF).toNat
  let addr := high % 0x400
  if 0x760 ≤ high then
    if high = 0x7C2 then modify fun s => { s with spdifIrq := value }
    else modifyCore id (Core.writeHigh Y (high - id.pick 0 0x28) value)
  else if addr < 0x180 then
    modifyVoice id (addr / 0x10) (Voice.writeReg Y (addr % 0x10) value)
  else if 0x1C0 ≤ addr ∧ addr < 0x1C0 + 0xC * 24 then
    modifyVoice id ((addr - 0x1C0) / 0xC) (Voice.writeAddr ((addr - 0x1C0) % 0xC) value)
  else if 0x2E4 ≤ addr ∧ addr ≤ 0x33A then
    modifyCore id (Core.writeReverbReg ((addr - 0x2E4) / 2) value)
  else writeReg Y id addr value

/-! ### Runs -/

def Voice.reset (x : Voice U) : Voice U :=
  { x with
    unit := Y.resetVoice x.unit
    mixState := ⟨false, false, false, false⟩
    pitch := 0
    startAddr := 0
    currentAddr := 0
    loopAddr := 0
    loopAddrSpecified := false
    counter := 0
    sampleIdx := 0
    loopCode := 0
    newBlock := true }

def Reverb.zero : Reverb where
  effectAreaStart := 0
  effectAreaEnd := 0
  effectPos := 0
  cycle := 0
  Eout := .zero
  reg _ := 0
  coefficient _ := 0

/-- `SPU::reset`: the volumes of the effect and of the core, and the progress of the automatic DMA, are
not set. -/
def Core.reset (c : Core U N) : Core U N :=
  { c with
    voices := fun v => (c.voices v).reset Y
    dmaBusy := false
    dmaReady := false
    transferAddr := 0
    currentAddr := 0
    autodmaCtrl := 0
    bufferPos := 0
    keyOn := 0
    keyOff := 0xFFFFFF
    currentBuffer := 0
    dataInputVolumeL := 0x7FFF
    dataInputVolumeR := 0x7FFF
    reverb := .zero
    effectEnable := false
    outputEnable := true
    voiceNoiseGen := 0
    mixState := ⟨0⟩
    voiceMixdryLeft := 0
    voiceMixdryRight := 0
    voiceMixwetLeft := 0
    voiceMixwetRight := 0
    voicePitchMod := 0
    ENDX := 0
    unit := Y.resetCore c.unit }

def reset (s : SPUs U N) : SPUs U N :=
  { s with
    spdifIrq := 0
    coreAtt := fun _ => 0
    IRQA := fun _ => 0x800
    signals := [.clearDmaReq .one, .clearDmaReq .two]
    core := fun id => (s.core id).reset Y }

/-- The steps on one of the two cores. -/
inductive Act where
  | write16 (addr : Word) (value : HalfWord)
  | readMem
  | genSample
  | startDMA
  | pauseDMA
  | finishDMA
  | readDMA
  | writeDMA (value : Word)
  | writeADMA (source : Word)
  deriving DecidableEq, Repr

def Act.exec (id : Id) : Act → M U N PUnit
  | .write16 addr value => Model.write16 Y id addr value
  | .readMem => do let _ ← Model.readMem id
  | .genSample => Model.genSample Y id
  | .startDMA => Model.startDMA id
  | .pauseDMA => Model.pauseDMA id
  | .finishDMA => Model.finishDMA id
  | .readDMA => do let _ ← Model.readDMA id
  | .writeDMA value => Model.writeDMA id value
  | .writeADMA source => Model.writeADMA id source

def Step (s : SPUs U N) (a : Id × Act) (s' : SPUs U N) : Prop :=
  (a.2.exec Y a.1).run s = .ok ((), s')

/-- Both cores have been reset. The RAM has any contents. -/
def Init (s : SPUs U N) : Prop := ∃ s₀, s = reset Y s₀

def next (s : SPUs U N) (a : Id × Act) : Option (SPUs U N) :=
  match (a.2.exec Y a.1).run s with
  | .ok (_, s') => some s'
  | .error _ => none

variable {Y}

theorem step_of_next {s s' : SPUs U N} {a : Id × Act} (h : next Y s a = some s') : Step Y s a s' := by
  unfold next at h
  split at h
  · rename_i hr
    cases h
    exact hr
  · cases h

/-- A list of steps leads to a reachable state. -/
theorem reaches_of_acts {s s' : SPUs U N} {as : List (Id × Act)} (h0 : Init Y s)
    (h : as.foldlM (next Y) s = some s') : Reaches (Init Y) (Step Y) s' :=
  (Reaches.exec as (Reaches.start h0) h).mono fun _ _ _ => step_of_next

end DobieStation.Spu.Model
