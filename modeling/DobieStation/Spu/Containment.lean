import DobieStation.Spu.Model

/-! # What the sound processors reach of their RAM

Every address is bounded by a mask where it is written or where it moves on, but that of the reverb, which
is bounded by the effect area: its registers have 22 bits, where an address of the RAM has 20. -/

namespace DobieStation.Spu.Containment

open DobieStation.Lib.Fault DobieStation.Lib.Reach DobieStation.Spu.Model

variable {U N : Type} {Y : Synth U N}

/-- The bounds of the addresses of a core. -/
structure CoreOk (c : Core U N) : Prop where
  transfer : c.transferAddr.toNat < ramSize
  current : c.currentAddr.toNat < ramSize
  position : c.bufferPos.toNat < 0x100
  buffer : c.currentBuffer.toNat ≤ 1
  areaStart : c.reverb.effectAreaStart.toNat ≤ 0x3FFFFF
  areaEnd : c.reverb.effectAreaEnd.toNat ≤ 0x3FFFFF

/-- No fault is an access of the RAM. -/
def InRam : Stop → Prop
  | .died => True
  | .ram _ => False

/-- Both cores keep their bounds, and the reverb of one of them meets a condition. -/
structure Held (id : Id) (P : Reverb → Prop) (s : SPUs U N) : Prop where
  ok : ∀ k, CoreOk (s.core k)
  reverb : P (s.core id).reverb

section

variable {id : Id} {P : Reverb → Prop} {α : Type}

/-! ### The rules -/

theorem held_put {s : SPUs U N} {k : Id} {f : Core U N → Core U N} (h : Held id P s)
    (hf : ∀ c, CoreOk c → CoreOk (f c)) (hr : ∀ c : Core U N, (f c).reverb = c.reverb) :
    Held id P { s with core := put k (f (s.core k)) s.core } := by
  refine ⟨fun j => ?_, ?_⟩
  · show CoreOk (put k (f (s.core k)) s.core j)
    unfold put
    split
    · exact hf _ (h.ok k)
    · exact h.ok j
  · show P (put k (f (s.core k)) s.core id).reverb
    unfold put
    split
    · rename_i hk
      rw [hr, ← hk]
      exact h.reverb
    · exact h.reverb

theorem keeps_modifyCore {k : Id} {f : Core U N → Core U N} (hf : ∀ c, CoreOk c → CoreOk (f c))
    (hr : ∀ c : Core U N, (f c).reverb = c.reverb) :
    Keeps (Held id P) InRam (modifyCore k f : M U N PUnit) :=
  keeps_modify fun _ h => held_put h hf hr

theorem keeps_modifyVoice {k : Id} {v : ℕ} {f : Voice U → Voice U} :
    Keeps (Held id P) InRam (modifyVoice k v f : M U N PUnit) :=
  keeps_modifyCore (fun _ h => ⟨h.1, h.2, h.3, h.4, h.5, h.6⟩) fun _ => rfl

theorem keeps_core {k : Id} {f : Core U N → M U N α}
    (hf : ∀ c, CoreOk c → (k = id → P c.reverb) → Keeps (Held id P) InRam (f c)) :
    Keeps (Held id P) InRam (core k >>= f) := by
  refine keeps_bind_of (P := fun c => CoreOk c ∧ (k = id → P c.reverb)) (fun s h => ?_)
    fun c hc => hf c hc.1 hc.2
  rw [core, meets_bind, meets_get, meets_pure]
  refine ⟨⟨h.ok k, fun hk => ?_⟩, h⟩
  rw [hk]
  exact h.reverb

theorem keeps_store {addr : Word} {value : HalfWord} (h : addr.toNat < ramSize) :
    Keeps (Held id P) InRam (store addr value : M U N PUnit) := by
  rw [store, if_pos h]
  exact keeps_modify fun _ hs => ⟨hs.ok, hs.reverb⟩

theorem keeps_signal {x : Signal} : Keeps (Held id P) InRam (signal x : M U N PUnit) :=
  keeps_modify fun _ hs => ⟨hs.ok, hs.reverb⟩

theorem keeps_checkIrqOf {k : Id} {address : Word} :
    Keeps (Held id P) InRam (checkIrqOf k address : M U N PUnit) := by
  refine keeps_bind keeps_get fun s => keeps_ite (fun _ => ?_) fun _ => keeps_pure _
  refine keeps_bind keeps_get fun s' => keeps_ite (fun _ => keeps_pure _) fun _ => ?_
  exact keeps_bind (keeps_modify fun _ hs => ⟨hs.ok, hs.reverb⟩) fun _ => keeps_signal

theorem keeps_spuCheckIrq {address : Word} :
    Keeps (Held id P) InRam (spuCheckIrq address : M U N PUnit) :=
  keeps_bind keeps_checkIrqOf fun _ => keeps_checkIrqOf

theorem meets_voice {k : Id} {v : ℕ} {s : SPUs U N} {Q : Voice U → SPUs U N → Prop} {E : Stop → Prop} :
    Meets (voice k v) s Q E ↔ Q ((s.core k).voices v) s := by
  rw [voice, meets_bind, core, meets_bind, meets_get, meets_pure, meets_pure]

theorem voice_put {s : SPUs U N} {k : Id} {v : ℕ} {f : Voice U → Voice U} :
    (put k ((s.core k).setVoice v f) s.core k).voices v = f ((s.core k).voices v) := by
  simp only [put, if_true, Core.setVoice]

/-- Any change that keeps the bounds, where nothing is asked of the reverb. -/
theorem keeps_modifyCore_true {k : Id} {f : Core U N → Core U N} (hf : ∀ c, CoreOk c → CoreOk (f c)) :
    Keeps (Held id fun _ => True) InRam (modifyCore k f : M U N PUnit) := by
  refine keeps_modify fun s h => ⟨fun j => ?_, trivial⟩
  show CoreOk (put k (f (s.core k)) s.core j)
  unfold put
  split
  · exact hf _ (h.ok k)
  · exact h.ok j

/-- If the reverb runs, its area ends within the RAM. -/
def Fits (r : Reverb) : Prop := r.running → r.effectAreaEnd.toNat ≤ ramSize

theorem put_self {α : Type} (k : Id) (x : α) (f : Id → α) : put k x f k = x := if_pos rfl

theorem toNat_following (addr : Word) : (following addr).toNat < ramSize := by
  rw [following, addrMask, BitVec.toNat_and]
  exact Nat.lt_succ_of_le Nat.and_le_right

theorem keeps_advanceTransfer {k : Id} : Keeps (Held id P) InRam (advanceTransfer k : M U N PUnit) := by
  refine keeps_core fun c _ _ => keeps_bind keeps_spuCheckIrq fun _ => ?_
  exact keeps_modifyCore (fun _ h => ⟨h.1, toNat_following _, h.3, h.4, h.5, h.6⟩) fun _ => rfl

theorem keeps_writeMem {k : Id} {value : HalfWord} :
    Keeps (Held id P) InRam (writeMem k value : M U N PUnit) :=
  keeps_core fun _ hc _ => keeps_bind (keeps_store hc.current) fun _ => keeps_advanceTransfer

theorem toNat_setLow {v : HalfWord} {w : Word} {n : ℕ} (hn : 16 ≤ n) (h : w.toNat < 2 ^ n) :
    (setLow v w).toNat < 2 ^ n := by
  rw [setLow, BitVec.toNat_or, BitVec.toNat_and, BitVec.toNat_setWidth_of_le (by decide)]
  refine Nat.or_lt_two_pow (lt_of_le_of_lt Nat.and_le_left h) ?_
  exact lt_of_lt_of_le v.isLt (Nat.pow_le_pow_right (by decide) hn)

/-- A field of `n` bits above the low half. -/
theorem toNat_high {v : HalfWord} {w : Word} {n : ℕ} (hv : v.toNat < 2 ^ n) (hn : n ≤ 16) :
    ((w &&& 0xFFFF) ||| v.setWidth 32 <<< 16).toNat < 2 ^ (n + 16) := by
  rw [BitVec.toNat_or, BitVec.toNat_and, BitVec.toNat_shiftLeft, BitVec.toNat_setWidth_of_le (by decide)]
  have hpow : 2 ^ 16 ≤ 2 ^ (n + 16) := Nat.pow_le_pow_right (by decide) (by omega)
  refine Nat.or_lt_two_pow (lt_of_le_of_lt Nat.and_le_right (lt_of_lt_of_le (by decide) hpow)) ?_
  refine lt_of_le_of_lt (Nat.mod_le _ _) ?_
  rw [Nat.shiftLeft_eq, Nat.pow_add]
  exact Nat.mul_lt_mul_of_pos_right hv (by decide)

theorem toNat_setAddrHigh (value : HalfWord) (w : Word) : (setAddrHigh value w).toNat < 2 ^ 20 := by
  refine toNat_high (n := 4) ?_ (by decide)
  rw [BitVec.toNat_and]
  exact Nat.lt_succ_of_le Nat.and_le_right

theorem toNat_setAreaHigh (value : HalfWord) (w : Word) : (setAreaHigh value w).toNat < 2 ^ 22 := by
  refine toNat_high (n := 6) ?_ (by decide)
  rw [BitVec.toNat_and]
  exact Nat.lt_succ_of_le Nat.and_le_right

theorem toNat_setAreaEnd (value : HalfWord) (w : Word) : (setAreaEnd value w).toNat < 2 ^ 22 := by
  have h := toNat_setAreaHigh value w
  rw [setAreaEnd, ← BitVec.or_assoc, BitVec.toNat_or]
  exact Nat.or_lt_two_pow h (by decide)

/-- A change of anything but the addresses. -/
theorem coreOk_same {c c' : Core U N} (h : CoreOk c) (ht : c'.transferAddr = c.transferAddr)
    (ha : c'.currentAddr = c.currentAddr) (hp : c'.bufferPos = c.bufferPos)
    (hb : c'.currentBuffer = c.currentBuffer) (hs : c'.reverb.effectAreaStart = c.reverb.effectAreaStart)
    (he : c'.reverb.effectAreaEnd = c.reverb.effectAreaEnd) : CoreOk c' :=
  ⟨ht ▸ h.transfer, ha ▸ h.current, hp ▸ h.position, hb ▸ h.buffer, hs ▸ h.areaStart, he ▸ h.areaEnd⟩

theorem keeps_writeCoreAtt {k : Id} {value : HalfWord} :
    Keeps (Held id fun _ => True) InRam (writeCoreAtt Y k value : M U N PUnit) := by
  refine keeps_bind keeps_get fun s => ?_
  refine keeps_bind (keeps_ite (fun _ => keeps_modify fun _ h => ⟨h.1, h.2⟩) fun _ => keeps_pure _)
    fun _ => keeps_core fun c _ _ => ?_
  refine keeps_bind (keeps_ite (fun _ => keeps_pure _) fun _ => keeps_ite (fun _ => keeps_signal)
    fun _ => keeps_signal) fun _ => ?_
  refine keeps_bind (keeps_modify fun _ h => ⟨h.1, h.2⟩) fun _ => ?_
  refine keeps_bind (keeps_ite (fun _ => ?_) fun _ => keeps_pure _) fun _ => ?_
  · refine keeps_bind (keeps_modifyCore_true fun _ h => ?_) fun _ => keeps_signal
    exact coreOk_same h rfl rfl rfl rfl rfl rfl
  · exact keeps_modifyCore_true fun _ h => coreOk_same h rfl rfl rfl rfl rfl rfl

theorem keeps_writeAutodma {k : Id} {value : HalfWord} :
    Keeps (Held id fun _ => True) InRam (writeAutodma k value : M U N PUnit) := by
  refine keeps_ite (fun _ => keeps_throw trivial) fun _ => ?_
  refine keeps_bind (keeps_modifyCore_true fun _ h => ?_) fun _ => keeps_core fun c _ _ => ?_
  · exact coreOk_same h rfl rfl rfl rfl rfl rfl
  · exact keeps_ite (fun _ => keeps_signal) fun _ => keeps_pure _

/-- A register of the effect area. -/
theorem keeps_modifyArea {k : Id} {f : Reverb → Reverb}
    (hf : ∀ r : Reverb, r.effectAreaStart.toNat ≤ 0x3FFFFF → r.effectAreaEnd.toNat ≤ 0x3FFFFF →
      (f r).effectAreaStart.toNat ≤ 0x3FFFFF ∧ (f r).effectAreaEnd.toNat ≤ 0x3FFFFF) :
    Keeps (Held id fun _ => True) InRam (modifyArea k f : M U N PUnit) := by
  refine keeps_modifyCore_true fun c h => ?_
  split
  · exact h
  · obtain ⟨hs, he⟩ := hf c.reverb h.areaStart h.areaEnd
    exact ⟨h.transfer, h.current, h.position, h.buffer, hs, he⟩

theorem keeps_writeReg {k : Id} {addr : ℕ} {value : HalfWord} :
    Keeps (Held id fun _ => True) InRam (writeReg Y k addr value : M U N PUnit) := by
  have hsize : ramSize = 2 ^ 20 := rfl
  unfold writeReg
  split
  case h_14 => exact keeps_writeCoreAtt
  case h_15 => exact keeps_modify fun _ h => ⟨h.1, h.2⟩
  case h_16 => exact keeps_modify fun _ h => ⟨h.1, h.2⟩
  case h_21 =>
    refine keeps_modifyCore_true fun c h => ?_
    have hbound := toNat_setAddrHigh value c.transferAddr
    exact ⟨hbound, hbound, h.position, h.buffer, h.areaStart, h.areaEnd⟩
  case h_22 =>
    refine keeps_modifyCore_true fun c h => ?_
    have hbound := toNat_setLow (v := value) (w := c.transferAddr) (n := 20) (by decide) h.transfer
    exact ⟨hbound, hbound, h.position, h.buffer, h.areaStart, h.areaEnd⟩
  case h_23 => exact keeps_writeMem
  case h_24 => exact keeps_writeAutodma
  case h_25 =>
    exact keeps_modifyArea fun r _ he => ⟨Nat.le_of_lt_succ (toNat_setAreaHigh value _), he⟩
  case h_26 =>
    exact keeps_modifyArea fun r hs he =>
      ⟨Nat.le_of_lt_succ (toNat_setLow (n := 22) (by decide) (Nat.lt_succ_of_le hs)), he⟩
  case h_27 =>
    exact keeps_modifyArea fun r hs _ => ⟨hs, Nat.le_of_lt_succ (toNat_setAreaEnd value _)⟩
  case h_30 => exact keeps_pure _
  all_goals exact keeps_modifyCore_true fun _ h => coreOk_same h rfl rfl rfl rfl rfl rfl

theorem coreOk_writeHigh {addr : ℕ} {value : HalfWord} {c : Core U N} (h : CoreOk c) :
    CoreOk (c.writeHigh Y addr value) := by
  unfold Core.writeHigh
  split
  · exact coreOk_same h rfl rfl rfl rfl rfl rfl
  · split
    case h_9 => exact h
    all_goals exact coreOk_same h rfl rfl rfl rfl rfl rfl

theorem coreOk_writeReverbReg {n : ℕ} {value : HalfWord} {c : Core U N} (h : CoreOk c) :
    CoreOk (c.writeReverbReg n value) := by
  unfold Core.writeReverbReg
  split
  · split
    · exact h
    · exact coreOk_same h rfl rfl rfl rfl rfl rfl
  · exact h

theorem keeps_write16 {k : Id} {address : Word} {value : HalfWord} :
    Keeps (Held id fun _ => True) InRam (write16 Y k address value : M U N PUnit) := by
  refine keeps_ite (fun _ => ?_) fun _ => ?_
  · refine keeps_ite (fun _ => keeps_modify fun _ h => ⟨h.1, h.2⟩) fun _ => ?_
    exact keeps_modifyCore_true fun _ h => coreOk_writeHigh h
  refine keeps_ite (fun _ => keeps_modifyVoice) fun _ => keeps_ite (fun _ => keeps_modifyVoice) fun _ => ?_
  refine keeps_ite (fun _ => ?_) fun _ => keeps_writeReg
  exact keeps_modifyCore_true fun _ h => coreOk_writeReverbReg h

end

/-! ### Every run -/

/-- When the reverb of a core takes its turn, its effect area ends within the RAM. -/
def Within (s : SPUs U N) (a : Id × Act) : Prop := a.2 = .genSample → Fits (s.core a.1).reverb

/-- No decoder, no envelopes and no noise. -/
def silent : Synth Unit Unit where
  decodeBlock _ _ := (fun _ => 0, ())
  interpolate _ _ _ _ _ := 0
  envelope _ := 0
  leftVol _ := 0
  rightVol _ := 0
  advance _ := ()
  attack _ := ()
  release _ := ()
  endRelease _ := ()
  writeVoice _ _ _ := ()
  resetVoice _ := ()
  noise _ := 0
  advanceCore _ := ()
  writeCore _ _ _ := ()
  resetCore _ := ()

def blankVoice : Voice Unit where
  pitch := 0
  startAddr := 0
  currentAddr := 0
  loopAddr := 0
  loopAddrSpecified := false
  mixState := ⟨false, false, false, false⟩
  counter := 0
  sampleIdx := 0
  loopCode := 0
  newBlock := false
  old1 := 0
  old2 := 0
  old3 := 0
  nextSample := 0
  outx := 0
  pcm _ := 0
  unit := ()

def blankCore : Core Unit Unit where
  voices _ := blankVoice
  dmaReady := false
  dmaBusy := false
  reverb := .zero
  transferAddr := 0
  currentAddr := 0
  outputEnable := false
  effectEnable := false
  dataInputVolumeL := 0
  dataInputVolumeR := 0
  effectVolumeL := 0
  effectVolumeR := 0
  coreVolumeL := 0
  coreVolumeR := 0
  mixState := ⟨0⟩
  voiceMixdryLeft := 0
  voiceMixdryRight := 0
  voiceMixwetLeft := 0
  voiceMixwetRight := 0
  voicePitchMod := 0
  voiceNoiseGen := 0
  autodmaCtrl := 0
  currentBuffer := 0
  ADMAProgress := 0
  bufferPos := 0
  ENDX := 0
  keyOn := 0
  keyOff := 0
  unit := ()

def powerOn : SPUs Unit Unit :=
  reset silent
    { ram := fun _ => 0
      spdifIrq := 0
      coreAtt := fun _ => 0
      IRQA := fun _ => 0
      signals := []
      core := fun _ => blankCore }

theorem init_powerOn : Init silent powerOn := ⟨_, rfl⟩

end DobieStation.Spu.Containment
