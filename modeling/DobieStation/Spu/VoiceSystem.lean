import DobieStation.Spu.VoiceRuns

/-! # Every voice of the two processors

Every run of the two processors is a run of each of their 48 voices: what is not done for a voice leaves it
where it is. -/

namespace DobieStation.Spu.VoiceSystem

open DobieStation.Lib.Fault DobieStation.Lib.Reach DobieStation.Spu.Model DobieStation.Spu.Playback
open DobieStation.Spu.Voices DobieStation.Spu.VoiceRuns

variable {U N : Type} {Y : Synth U N} {id : Id} {v : ℕ}

/-- The voice has come here by a run of its own. -/
def Walked (Y : Synth U N) (id : Id) (v : ℕ) (s : SPUs U N) : Prop := ∃ p, Run Y id v 24 s p

/-- The program is a part of a run of the voice. -/
abbrev Part {α : Type} (Y : Synth U N) (id : Id) (v : ℕ) (m : M U N α) : Prop :=
  Keeps (Walked Y id v) (fun _ => True) m

section

variable {α : Type}

/-! ### What leaves the voice alone -/

theorem part_modify {g : SPUs U N → SPUs U N}
    (hg : ∀ s, Same ((s.core id).voices v) (((g s).core id).voices v)) :
    Part Y id v (modify g : M U N PUnit) :=
  keeps_modify fun _ ⟨_, hp⟩ => ⟨_, hp.apart (hg _)⟩

theorem part_modifyCore {k : Id} {f : Core U N → Core U N}
    (hf : ∀ c, k = id → Same (c.voices v) ((f c).voices v)) : Part Y id v (modifyCore k f : M U N PUnit) := by
  refine part_modify fun s => ?_
  show Same _ ((put k (f (s.core k)) s.core id).voices v)
  unfold put
  split
  · rename_i hid
    rw [← hid]
    exact hf _ hid.symm
  · exact Same.refl _

theorem part_core {k : Id} : Part Y id v (core k : M U N (Core U N)) :=
  keeps_bind keeps_get fun _ => keeps_pure _

theorem part_voice {k : Id} {w : ℕ} : Part Y id v (voice k w : M U N (Voice U)) :=
  keeps_bind part_core fun _ => keeps_pure _

theorem part_load {addr : Word} : Part Y id v (load addr : M U N HalfWord) :=
  keeps_bind keeps_get fun _ => keeps_ite (fun _ => keeps_pure _) fun _ => keeps_throw trivial

theorem part_store {addr : Word} {value : HalfWord} : Part Y id v (store addr value : M U N PUnit) :=
  keeps_ite (fun _ => part_modify fun _ => Same.refl _) fun _ => keeps_throw trivial

theorem part_signal {x : Signal} : Part Y id v (signal x : M U N PUnit) := part_modify fun _ => Same.refl _

theorem part_checkIrqOf {k : Id} {address : Word} : Part Y id v (checkIrqOf k address : M U N PUnit) := by
  refine keeps_bind keeps_get fun s => keeps_ite (fun _ => ?_) fun _ => keeps_pure _
  refine keeps_bind keeps_get fun s' => keeps_ite (fun _ => keeps_pure _) fun _ => ?_
  exact keeps_bind (part_modify fun _ => Same.refl _) fun _ => part_signal

theorem part_spuCheckIrq {address : Word} : Part Y id v (spuCheckIrq address : M U N PUnit) :=
  keeps_bind part_checkIrqOf fun _ => part_checkIrqOf

theorem part_read {addr : Word} : Part Y id v (read addr : M U N HalfWord) :=
  keeps_bind part_spuCheckIrq fun _ => part_load

theorem part_write {addr : Word} {data : HalfWord} : Part Y id v (write addr data : M U N PUnit) :=
  keeps_bind part_spuCheckIrq fun _ => part_store

theorem part_memout {k : Id} {area : Word} {sample : Sample} :
    Part Y id v (memout k area sample : M U N PUnit) :=
  keeps_bind part_core fun _ => part_write

/-- Another voice. -/
theorem part_otherVoice {k : Id} {w : ℕ} {f : Voice U → Voice U} (h : ¬ (k = id ∧ w = v)) :
    Part Y id v (modifyVoice k w f : M U N PUnit) := by
  refine part_modifyCore fun c hk => ?_
  have hsame : (c.setVoice w f).voices v = c.voices v := if_neg fun hv => h ⟨hk, hv.symm⟩
  rw [hsame]
  exact Same.refl _

/-- The same voice, where its place is kept. -/
theorem part_modifyVoice {k : Id} {w : ℕ} {f : Voice U → Voice U} (hf : ∀ x, Same x (f x)) :
    Part Y id v (modifyVoice k w f : M U N PUnit) := by
  refine part_modifyCore fun c hk => ?_
  by_cases hv : v = w
  · have hsame : (c.setVoice w f).voices v = f (c.voices v) := if_pos hv
    rw [hsame]
    exact hf _
  · have hsame : (c.setVoice w f).voices v = c.voices v := if_neg hv
    rw [hsame]
    exact Same.refl _

theorem part_loadBlock {addr : Word} : Part Y id v (loadBlock addr : M U N (List HalfWord)) := by
  refine keeps_bind part_load fun _ => keeps_bind part_load fun _ => ?_
  refine keeps_bind part_load fun _ => keeps_bind part_load fun _ => ?_
  refine keeps_bind part_load fun _ => keeps_bind part_load fun _ => ?_
  exact keeps_bind part_load fun _ => keeps_bind part_load fun _ => keeps_pure _

section

variable {k : Id} {w : ℕ} (h : ¬ (k = id ∧ w = v))

include h

theorem part_switchBlock : Part Y id v (switchBlock Y k w : M U N PUnit) := by
  refine keeps_bind (part_otherVoice h) fun _ => keeps_bind part_voice fun _ => ?_
  refine keeps_bind part_load fun _ => keeps_bind (part_otherVoice h) fun _ => ?_
  refine keeps_bind part_loadBlock fun _ => keeps_bind (part_otherVoice h) fun _ => ?_
  exact keeps_bind part_spuCheckIrq fun _ => part_otherVoice h

theorem part_endBlock : Part Y id v (endBlock Y k w : M U N PUnit) := by
  refine keeps_bind (part_modifyCore fun _ _ => Same.refl _) fun _ => keeps_bind part_voice fun _ => ?_
  exact keeps_ite (fun _ => keeps_pure _) fun _ => part_otherVoice h

theorem part_voiceTurn : Part Y id v (voiceTurn Y k w : M U N PUnit) := by
  refine keeps_bind (part_otherVoice h) fun _ => keeps_bind part_voice fun _ => ?_
  refine keeps_bind (keeps_ite (fun _ => ?_) fun _ => keeps_pure _) fun _ => ?_
  · exact keeps_bind part_spuCheckIrq fun _ => part_otherVoice h
  refine keeps_bind (keeps_ite (fun _ => part_otherVoice h) fun _ => keeps_pure _) fun _ => ?_
  refine keeps_ite (fun _ => ?_) fun _ => part_otherVoice h
  exact keeps_bind (keeps_ite (fun _ => part_endBlock h) fun _ => keeps_pure _) fun _ => part_switchBlock h

theorem part_otherSample : Part Y id v (voiceGenSample Y k w : M U N Stereo) := by
  have hset : ∀ f : Core U N → Voice U → Voice U,
      Part Y id v (modifyCore k fun c => c.setVoice w (f c) : M U N PUnit) := by
    refine fun f => part_modifyCore fun c hk => ?_
    have hsame : (c.setVoice w (f c)).voices v = c.voices v := if_neg fun hv => h ⟨hk, hv.symm⟩
    rw [hsame]
    exact Same.refl _
  refine keeps_bind part_voice fun _ => ?_
  refine keeps_bind (keeps_ite (fun _ => part_switchBlock h) fun _ => keeps_pure _) fun _ => ?_
  refine keeps_bind (hset _) fun _ => keeps_bind part_voice fun _ => ?_
  refine keeps_bind (keeps_upTo (fun _ => part_voiceTurn h) _ _) fun _ => ?_
  refine keeps_bind (hset _) fun _ => keeps_bind part_voice fun _ => ?_
  refine keeps_bind (keeps_ite (fun _ => part_memout) fun _ => keeps_pure _) fun _ => ?_
  refine keeps_bind (keeps_ite (fun _ => part_memout) fun _ => keeps_pure _) fun _ => ?_
  exact keeps_bind (part_otherVoice h) fun _ => keeps_pure _

end

/-! ### What is done for the voice -/

theorem part_voiceGenSample {k : Id} {w : ℕ} : Part Y id v (voiceGenSample Y k w : M U N Stereo) := by
  by_cases h : k = id ∧ w = v
  · obtain ⟨rfl, rfl⟩ := h
    rintro s ⟨p, hp⟩
    exact ⟨fun _ _ hr => ⟨_, hp.sample hr⟩, fun _ _ => trivial⟩
  · exact part_otherSample h

theorem part_keyOnVoice {k : Id} {w : ℕ} : Part Y id v (keyOnVoice Y k w : M U N PUnit) := by
  by_cases h : k = id ∧ w = v
  · obtain ⟨rfl, rfl⟩ := h
    rintro s ⟨p, hp⟩
    exact ⟨fun _ _ hr => ⟨_, hp.keyOn hr⟩, fun _ _ => trivial⟩
  · exact keeps_bind (part_modifyCore fun _ _ => Same.refl _) fun _ => part_otherVoice h

theorem part_writeAddr {k : Id} {w reg : ℕ} {value : HalfWord} :
    Part Y id v (modifyVoice k w (Voice.writeAddr reg value) : M U N PUnit) := by
  by_cases h : k = id ∧ w = v
  · obtain ⟨rfl, rfl⟩ := h
    rintro s ⟨p, hp⟩
    exact ⟨fun _ _ hr => ⟨_, hp.writeAddr reg value hr⟩, fun _ _ => trivial⟩
  · exact part_otherVoice h

/-! ### A sample of a processor -/

theorem part_readTap {k : Id} {offset : Word} : Part Y id v (readTap k offset : M U N Sample) := by
  refine keeps_bind ?_ fun _ => part_read
  exact keeps_bind part_core fun _ => keeps_ite (fun _ => keeps_throw trivial) fun _ => keeps_pure _

theorem part_writeTap {k : Id} {t : Tap} {value : Sample} :
    Part Y id v (writeTap k t value : M U N PUnit) := by
  refine keeps_bind part_core fun _ => keeps_ite (fun _ => ?_) fun _ => keeps_pure _
  refine keeps_bind ?_ fun _ => part_write
  exact keeps_bind part_core fun _ => keeps_ite (fun _ => keeps_throw trivial) fun _ => keeps_pure _

theorem part_reflect {k : Id} {input : Sample} {d m : Tap} :
    Part Y id v (reflect k input d m : M U N PUnit) :=
  keeps_bind part_core fun _ => keeps_bind part_readTap fun _ => keeps_bind part_readTap fun _ =>
    keeps_bind part_readTap fun _ => part_writeTap

theorem part_comb {k : Id} {t1 t2 t3 t4 : Tap} : Part Y id v (comb k t1 t2 t3 t4 : M U N Sample) :=
  keeps_bind part_core fun _ => keeps_bind part_readTap fun _ => keeps_bind part_readTap fun _ =>
    keeps_bind part_readTap fun _ => keeps_bind part_readTap fun _ => keeps_pure _

theorem part_allPass {k : Id} {m d : Tap} {c : Coefficient} {input : Sample} :
    Part Y id v (allPass k m d c input : M U N Sample) :=
  keeps_bind part_core fun _ => keeps_bind part_readTap fun _ => keeps_bind part_writeTap fun _ =>
    keeps_bind part_readTap fun _ => keeps_pure _

theorem part_filterReverb {k : Id} {wet : Stereo} : Part Y id v (filterReverb k wet : M U N Stereo) := by
  refine keeps_bind part_core fun _ => ?_
  refine keeps_bind part_reflect fun _ => keeps_bind part_reflect fun _ => ?_
  refine keeps_bind part_reflect fun _ => keeps_bind part_reflect fun _ => ?_
  refine keeps_bind part_comb fun _ => keeps_bind part_comb fun _ => ?_
  refine keeps_bind part_allPass fun _ => keeps_bind part_allPass fun _ => ?_
  exact keeps_bind part_allPass fun _ => keeps_bind part_allPass fun _ => keeps_pure _

theorem part_runReverb {k : Id} {wet : Stereo} : Part Y id v (runReverb k wet : M U N PUnit) := by
  refine keeps_bind part_core fun _ => keeps_ite (fun _ => ?_) fun _ => keeps_ite (fun _ => keeps_pure _)
    fun _ => part_modifyCore fun _ _ => Same.refl _
  exact keeps_bind part_filterReverb fun _ => part_modifyCore fun _ _ => Same.refl _

theorem part_mixVoices {k : Id} : ∀ (n first : ℕ) (dry wet : Stereo),
    Part Y id v (mixVoices Y k n first dry wet : M U N (Stereo × Stereo))
  | 0, _, _, _ => keeps_pure _
  | n + 1, first, _, _ =>
    keeps_bind part_voiceGenSample fun _ => keeps_bind part_voice fun _ => part_mixVoices n (first + 1) _ _

theorem part_mixMemin {k : Id} {dry wet : Stereo} :
    Part Y id v (mixMemin k dry wet : M U N (Stereo × Stereo)) := by
  refine keeps_bind part_core fun _ => keeps_ite (fun _ => ?_) fun _ => keeps_pure _
  refine keeps_bind (keeps_bind part_core fun _ => ?_) fun _ => keeps_pure _
  refine keeps_bind part_load fun _ => keeps_bind part_load fun _ => ?_
  exact keeps_bind part_spuCheckIrq fun _ => keeps_bind part_spuCheckIrq fun _ => keeps_pure _

theorem part_mixSin {k : Id} {dry wet : Stereo} :
    Part Y id v (mixSin k dry wet : M U N (Stereo × Stereo)) := by
  refine keeps_bind part_core fun _ => keeps_ite (fun _ => ?_) fun _ => keeps_pure _
  exact keeps_bind part_read fun _ => keeps_bind part_read fun _ => keeps_pure _

theorem part_keyOffVoice {k : Id} {w : ℕ} : Part Y id v (keyOffVoice Y k w : M U N PUnit) :=
  part_modifyVoice fun _ => ⟨rfl, rfl, rfl, rfl, rfl, rfl, rfl, rfl, rfl, rfl, rfl, rfl, rfl⟩

theorem part_updateVoiceState {k : Id} : Part Y id v (updateVoiceState Y k : M U N PUnit) := by
  refine keeps_bind (keeps_upTo (fun w => ?_) _ _) fun _ => part_modifyCore fun _ _ => Same.refl _
  refine keeps_bind part_core fun _ => ?_
  refine keeps_bind (keeps_ite (fun _ => part_keyOffVoice) fun _ => keeps_pure _) fun _ => ?_
  exact keeps_ite (fun _ => part_keyOnVoice) fun _ => keeps_pure _

theorem part_advanceBuffers {k : Id} : Part Y id v (advanceBuffers k : M U N PUnit) := by
  refine keeps_bind (part_modifyCore fun _ _ => Same.refl _) fun _ => keeps_bind part_core fun _ => ?_
  refine keeps_ite (fun _ => ?_) fun _ => keeps_pure _
  refine keeps_bind (part_modifyCore fun _ _ => Same.refl _) fun _ => ?_
  exact keeps_ite (fun _ => part_signal) fun _ => keeps_pure _

theorem part_genSample {k : Id} : Part Y id v (genSample Y k : M U N PUnit) := by
  refine keeps_bind (part_mixVoices 24 0 _ _) fun _ => ?_
  refine keeps_bind part_memout fun _ => keeps_bind part_memout fun _ => ?_
  refine keeps_bind part_memout fun _ => keeps_bind part_memout fun _ => ?_
  refine keeps_bind part_mixMemin fun _ => keeps_bind part_mixSin fun _ => ?_
  refine keeps_bind part_core fun _ => keeps_bind part_runReverb fun _ => ?_
  refine keeps_bind part_core fun _ => keeps_bind (keeps_ite (fun _ => ?_) fun _ => keeps_pure _) fun _ => ?_
  · exact keeps_bind part_memout fun _ => part_memout
  refine keeps_bind (part_modifyCore fun _ _ => Same.refl _) fun _ => ?_
  exact keeps_bind part_updateVoiceState fun _ => part_advanceBuffers

/-! ### The DMA -/

theorem part_advanceTransfer {k : Id} : Part Y id v (advanceTransfer k : M U N PUnit) :=
  keeps_bind part_core fun _ => keeps_bind part_spuCheckIrq fun _ => part_modifyCore fun _ _ => Same.refl _

theorem part_readMem {k : Id} : Part Y id v (readMem k : M U N HalfWord) :=
  keeps_bind part_core fun _ => keeps_bind part_load fun _ => keeps_bind part_advanceTransfer fun _ =>
    keeps_pure _

theorem part_writeMem {k : Id} {value : HalfWord} : Part Y id v (writeMem k value : M U N PUnit) :=
  keeps_bind part_core fun _ => keeps_bind part_store fun _ => part_advanceTransfer

theorem part_busyDMA {k : Id} : Part Y id v (busyDMA k : M U N PUnit) :=
  part_modifyCore fun _ _ => Same.refl _

theorem part_storePair {addr value : Word} : Part Y id v (storePair addr value : M U N PUnit) :=
  keeps_bind part_store fun _ => part_store

theorem part_writeADMA {k : Id} {source : Word} : Part Y id v (writeADMA k source : M U N PUnit) := by
  refine keeps_bind part_core fun _ => ?_
  refine keeps_bind (keeps_ite (fun _ => part_storePair) fun _ => keeps_ite (fun _ => part_storePair)
    fun _ => keeps_pure _) fun _ => ?_
  refine keeps_bind (part_modifyCore fun _ _ => Same.refl _) fun _ => keeps_bind part_core fun _ => ?_
  refine keeps_bind (keeps_ite (fun _ => ?_) fun _ => keeps_pure _) fun _ => part_busyDMA
  exact keeps_bind (part_modifyCore fun _ _ => Same.refl _) fun _ => part_signal

/-! ### The registers -/

theorem part_writeCoreAtt {k : Id} {value : HalfWord} :
    Part Y id v (writeCoreAtt Y k value : M U N PUnit) := by
  refine keeps_bind keeps_get fun _ => ?_
  refine keeps_bind (keeps_ite (fun _ => part_modify fun _ => Same.refl _) fun _ => keeps_pure _) fun _ => ?_
  refine keeps_bind part_core fun _ => ?_
  refine keeps_bind (keeps_ite (fun _ => keeps_pure _) fun _ => keeps_ite (fun _ => part_signal)
    fun _ => part_signal) fun _ => ?_
  refine keeps_bind (part_modify fun _ => Same.refl _) fun _ => ?_
  refine keeps_bind (keeps_ite (fun _ => ?_) fun _ => keeps_pure _) fun _ => ?_
  · exact keeps_bind (part_modifyCore fun _ _ => Same.refl _) fun _ => part_signal
  · exact part_modifyCore fun _ _ => Same.refl _

theorem part_writeAutodma {k : Id} {value : HalfWord} : Part Y id v (writeAutodma k value : M U N PUnit) := by
  refine keeps_ite (fun _ => keeps_throw trivial) fun _ => ?_
  refine keeps_bind (part_modifyCore fun _ _ => Same.refl _) fun _ => keeps_bind part_core fun _ => ?_
  exact keeps_ite (fun _ => part_signal) fun _ => keeps_pure _

theorem part_modifyArea {k : Id} {f : Reverb → Reverb} : Part Y id v (modifyArea k f : M U N PUnit) := by
  refine part_modifyCore fun c _ => ?_
  split <;> exact Same.refl _

theorem same_mixFlags (first n : ℕ) (value : HalfWord) (f : Bool → VoiceMix → VoiceMix) (c : Core U N) :
    Same (c.voices v) ((Core.mixFlags first n value f c).voices v) := by
  unfold Core.mixFlags
  dsimp only
  split
  · exact ⟨rfl, rfl, rfl, rfl, rfl, rfl, rfl, rfl, rfl, rfl, rfl, rfl, rfl⟩
  · exact Same.refl _

theorem part_writeReg {k : Id} {addr : ℕ} {value : HalfWord} :
    Part Y id v (writeReg Y k addr value : M U N PUnit) := by
  unfold writeReg
  split
  case h_5 => exact part_modifyCore fun _ _ => same_mixFlags _ _ _ _ _
  case h_6 => exact part_modifyCore fun _ _ => same_mixFlags _ _ _ _ _
  case h_7 => exact part_modifyCore fun _ _ => same_mixFlags _ _ _ _ _
  case h_8 => exact part_modifyCore fun _ _ => same_mixFlags _ _ _ _ _
  case h_9 => exact part_modifyCore fun _ _ => same_mixFlags _ _ _ _ _
  case h_10 => exact part_modifyCore fun _ _ => same_mixFlags _ _ _ _ _
  case h_11 => exact part_modifyCore fun _ _ => same_mixFlags _ _ _ _ _
  case h_12 => exact part_modifyCore fun _ _ => same_mixFlags _ _ _ _ _
  case h_14 => exact part_writeCoreAtt
  case h_15 => exact part_modify fun _ => Same.refl _
  case h_16 => exact part_modify fun _ => Same.refl _
  case h_23 => exact part_writeMem
  case h_24 => exact part_writeAutodma
  case h_25 => exact part_modifyArea
  case h_26 => exact part_modifyArea
  case h_27 => exact part_modifyArea
  case h_30 => exact keeps_pure _
  all_goals exact part_modifyCore fun _ _ => Same.refl _

theorem same_writeReg (reg : ℕ) (value : HalfWord) (x : Voice U) : Same x (Voice.writeReg Y reg value x) := by
  unfold Voice.writeReg
  split <;> exact ⟨rfl, rfl, rfl, rfl, rfl, rfl, rfl, rfl, rfl, rfl, rfl, rfl, rfl⟩

theorem voices_writeHigh (addr : ℕ) (value : HalfWord) (c : Core U N) :
    (c.writeHigh Y addr value).voices = c.voices := by
  unfold Core.writeHigh
  split
  · rfl
  · split <;> rfl

theorem voices_writeReverbReg (n : ℕ) (value : HalfWord) (c : Core U N) :
    (c.writeReverbReg n value).voices = c.voices := by
  unfold Core.writeReverbReg
  split
  · split <;> rfl
  · rfl

theorem part_write16 {k : Id} {address : Word} {value : HalfWord} :
    Part Y id v (write16 Y k address value : M U N PUnit) := by
  refine keeps_ite (fun _ => keeps_ite (fun _ => part_modify fun _ => Same.refl _) fun _ => ?_) fun _ => ?_
  · refine part_modifyCore fun c _ => ?_
    rw [voices_writeHigh]
    exact Same.refl _
  refine keeps_ite (fun _ => part_modifyVoice fun _ => same_writeReg _ _ _) fun _ => ?_
  refine keeps_ite (fun _ => part_writeAddr) fun _ => keeps_ite (fun _ => ?_) fun _ => part_writeReg
  refine part_modifyCore fun c _ => ?_
  rw [voices_writeReverbReg]
  exact Same.refl _

end

/-! ### Every run -/

theorem part_exec (k : Id) (a : Act) : Part Y id v (a.exec Y k : M U N PUnit) := by
  cases a with
  | write16 addr value => exact part_write16
  | readMem => exact keeps_bind part_readMem fun _ => keeps_pure _
  | genSample => exact part_genSample
  | startDMA => exact (part_modifyCore fun _ _ => Same.refl _ : Part Y id v (startDMA k))
  | pauseDMA => exact (part_modifyCore fun _ _ => Same.refl _ : Part Y id v (pauseDMA k))
  | finishDMA => exact (part_modifyCore fun _ _ => Same.refl _ : Part Y id v (finishDMA k))
  | readDMA =>
    refine keeps_bind ?_ fun _ => keeps_pure _
    exact keeps_bind part_readMem fun _ => keeps_bind part_readMem fun _ =>
      keeps_bind part_busyDMA fun _ => keeps_pure _
  | writeDMA value =>
    exact keeps_bind part_writeMem fun _ => keeps_bind part_writeMem fun _ => part_busyDMA
  | writeADMA source => exact part_writeADMA

theorem walked_of_reaches {s : SPUs U N} (h : Reaches (Init Y) (Step Y) s) (id : Id) (v : ℕ) : Walked Y id v s := by
  refine h.invariant (I := Walked Y id v) ?_ ?_
  · rintro s₀ ⟨s₁, rfl⟩
    exact ⟨_, .reset s₁⟩
  · rintro s₀ ⟨k, a⟩ s₁ hs₀ hstep
    exact ((part_exec k a) s₀ hs₀).1 _ s₁ hstep

/-- In every state that the two processors reach, each voice stands where a walk of its own has come to. -/
theorem follows_of_reaches {s : SPUs U N} (h : Reaches (Init Y) (Step Y) s) (id : Id) {v : ℕ} (hv : v < 24) :
    ∃ p, Run Y id v 24 s p ∧ Follows id v p s := by
  obtain ⟨p, hp⟩ := walked_of_reaches h id v
  exact ⟨p, hp, follows_walk hv hp⟩

end DobieStation.Spu.VoiceSystem
