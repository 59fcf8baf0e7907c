import DobieStation.Dma.Registers

/-! # What the handlers do to the state

A handler changes registers of its own channel other than its flags, registers of the controller,
memory and the history of its own channel, calls its peripheral, arbitrates, drops its request and
ends its transfer, and nothing else. So whatever relation allows each of these (`Allows`) holds
between the states before and after the handler (`Allows.process`). -/

namespace DobieStation.Dma.Handlers

open DobieStation.Lib.Hoare DobieStation.Dma.Model

variable {W V : Type} {P : Peripherals W V}

/-! ### The programs that read and write the state -/

@[simp]
theorem ensures_dmac {s : State W V} {Q : DMAC → State W V → Prop} :
    Ensures dmac s Q ↔ Q s.dmac s := by simp [dmac]

@[simp]
theorem ensures_channel {c : Channel} {s : State W V} {Q : DMAChannel → State W V → Prop} :
    Ensures (channel c) s Q ↔ Q (s.dmac.channels c) s := by simp [channel]

@[simp]
theorem ensures_modifyDMAC {f : DMAC → DMAC} {s : State W V} {Q : Unit → State W V → Prop} :
    Ensures (modifyDMAC f) s Q ↔ Q () { s with dmac := f s.dmac } := by simp [modifyDMAC]

@[simp]
theorem ensures_modifyChannel {c : Channel} {f : DMAChannel → DMAChannel} {s : State W V}
    {Q : Unit → State W V → Prop} : Ensures (modifyChannel c f) s Q ↔
      Q () { s with dmac := s.dmac.setChannel c (f (s.dmac.channels c)) } := by
  simp [modifyChannel]

@[simp]
theorem ensures_record {e : Event} {s : State W V} {Q : Unit → State W V → Prop} :
    Ensures (record e) s Q ↔ Q () { s with trace := s.trace ++ [e] } := by simp [record]

@[simp]
theorem ensures_fetch128 {a : BitVec 32} {s : State W V} {Q : Quad → State W V → Prop} :
    Ensures (fetch128 P a) s Q ↔ Q (s.mem.fetch128 P a) s := by simp [fetch128]

@[simp]
theorem ensures_store128 {a : BitVec 32} {q : Quad} {s : State W V} {Q : Unit → State W V → Prop} :
    Ensures (store128 P a q) s Q ↔ Q () { s with mem := s.mem.store128 P a q } := by
  simp [store128]

@[simp]
theorem ensures_int1Check {s : State W V} {Q : Unit → State W V → Prop} :
    Ensures int1Check s Q ↔
      Q () { s with int1 := decide (∃ i, s.dmac.channelStat i && s.dmac.channelMask i) } := by
  simp [int1Check]

@[simp]
theorem ensures_noteRunning {b : Bool} {s : State W V} {Q : Unit → State W V → Prop} :
    Ensures (noteRunning P b) s Q ↔ Q () { s with world := P.gifDmaRunning b s.world } := by
  simp [noteRunning]

@[simp]
theorem setChannel_self (d : DMAC) (c : Channel) (ch : DMAChannel) :
    (d.setChannel c ch).channels c = ch := by simp [DMAC.setChannel]

@[simp]
theorem setChannel_of_ne (d : DMAC) {c c' : Channel} (ch : DMAChannel) (h : c' ≠ c) :
    (d.setChannel c ch).channels c' = d.channels c' := by simp [DMAC.setChannel, h]

/-! ### The flags of a channel -/

/-- The flags of a channel are the same. -/
structure SameFlags (ch ch' : DMAChannel) : Prop where
  started : ch'.started = ch.started
  dmaReq : ch'.dmaReq = ch.dmaReq
  bit : ch'.control.getLsbD 8 = ch.control.getLsbD 8

theorem SameFlags.refl (ch : DMAChannel) : SameFlags ch ch := ⟨rfl, rfl, rfl⟩

theorem tagControl_bit (control lo : BitVec 32) :
    (tagControl control lo).getLsbD 8 = control.getLsbD 8 := by
  simp [tagControl]

theorem setAsp_bit (control : BitVec 32) {n : ℕ} (h : n < 16) :
    (setAsp control n).getLsbD 8 = control.getLsbD 8 := by
  have hn : n.testBit 4 = false := Nat.testBit_lt_two_pow (by omega)
  have hb : (BitVec.ofNat 32 n)[4] = false := by
    rw [← BitVec.getLsbD_eq_getElem, BitVec.getLsbD_ofNat, hn, Bool.and_false]
  simp [setAsp, hb]

theorem asp_le (control : BitVec 32) : asp control ≤ 3 := by
  have := (control.extractLsb' 4 2).isLt
  unfold asp
  omega

theorem followTag_flags {ch ch' : DMAChannel} {addr : BitVec 32}
    (h : followTag ch addr = some ch') :
    SameFlags ch ch' := by
  have ha := asp_le ch.control
  unfold followTag at h
  split at h
  case h_6 =>
    have hb := setAsp_bit ch.control (n := asp ch.control + 1) (by omega)
    dsimp only at h
    split at h <;> cases h <;> exact ⟨rfl, rfl, hb⟩
  case h_7 =>
    dsimp only at h
    split at h <;> cases h
    · exact ⟨rfl, rfl, setAsp_bit _ (by omega)⟩
    · exact ⟨rfl, rfl, setAsp_bit _ (by omega)⟩
    · exact ⟨rfl, rfl, setAsp_bit _ (by omega)⟩
    · exact ⟨rfl, rfl, setAsp_bit _ (by omega)⟩
  all_goals cases h
  all_goals exact ⟨rfl, rfl, rfl⟩

theorem loadTag_flags {ch ch' : DMAChannel} {lo hi : BitVec 32} (h : loadTag ch lo hi = some ch') :
    SameFlags ch ch' := by
  unfold loadTag at h
  simp only [Option.map_eq_some_iff] at h
  obtain ⟨ch2, h2, rfl⟩ := h
  have hf := followTag_flags h2
  have hb := hf.bit.trans (tagControl_bit ch.control lo)
  split_ifs
  · exact ⟨hf.started, hf.dmaReq, hb⟩
  · exact ⟨hf.started, hf.dmaReq, hb⟩

/-! ### What a handler does -/

/-- The calls of peripherals that the handler of a channel makes. -/
inductive Calls (P : Peripherals W V) : Channel → (α : Type) → (W → Reply W α) → Prop
  | vif0FeedDMA (q : Quad) : Calls P .VIF0 Bool (P.vif0FeedDMA q)
  | vif0TransferDMAtag (q : Quad) : Calls P .VIF0 Bool (P.vif0TransferDMAtag q)
  | vif1FeedDMA (q : Quad) : Calls P .VIF1 Bool (P.vif1FeedDMA q)
  | vif1TransferDMAtag (q : Quad) : Calls P .VIF1 Bool (P.vif1TransferDMAtag q)
  | vif1ReadFIFO : Calls P .VIF1 (Quad × Bool) P.vif1ReadFIFO
  | gifDeactivatePATH3 : Calls P .GIF Unit P.gifDeactivatePATH3
  | gifSendPATH3 (q : Quad) : Calls P .GIF Unit (P.gifSendPATH3 q)
  | ipuReadFIFO : Calls P .IPU_FROM Quad P.ipuReadFIFO
  | ipuWriteFIFO (q : Quad) : Calls P .IPU_TO Unit (P.ipuWriteFIFO q)
  | sifReadSIF0 : Calls P .EE_SIF0 (BitVec 32) P.sifReadSIF0
  | sifWriteSIF1 (q : Quad) : Calls P .EE_SIF1 Unit (P.sifWriteSIF1 q)

/-- The relation allows what the handler of channel `c` does to the controller and to memory. -/
structure Covers (P : Peripherals W V) (c : Channel) (R : State W V → State W V → Prop) : Prop where
  refl : ∀ s, R s s
  trans : ∀ s s' s'', R s s' → R s' s'' → R s s''
  registers : ∀ s ch, SameFlags (s.dmac.channels c) ch →
    R s { s with dmac := s.dmac.setChannel c ch }
  controller : ∀ s d, d.channels = s.dmac.channels → d.activeChannel = s.dmac.activeChannel →
    d.queuedChannels = s.dmac.queuedChannels → d.control = s.dmac.control →
      R s { s with dmac := d }
  signal : ∀ s b, R s { s with int1 := b }
  memory : ∀ s a q, R s { s with mem := s.mem.store128 P a q }
  quad : ∀ s q, R s { s with trace := s.trace ++ [.quad c q] }
  tag : ∀ s half, R s { s with trace := s.trace ++ [.tag c half] }
  arbitrate : Within R (arbitrate : M W V Unit)
  clear : Within R (clearDMARequest c : M W V Unit)
  finish : Within R (transferEnd c : M W V Unit)
  stadr : ∀ a, Within R (updateStadr a : M W V Unit)

/-- The relation allows everything that the handler of channel `c` does to the state. -/
structure Allows (P : Peripherals W V) (c : Channel) (R : State W V → State W V → Prop) : Prop
    extends Covers P c R where
  running : c = .GIF → ∀ s b, R s { s with world := P.gifDmaRunning b s.world }
  call : ∀ {α : Type} {f : W → Reply W α}, Calls P c α f → Within R (call f)

namespace Covers

variable {c : Channel} {R : State W V → State W V → Prop} (h : Covers P c R)
include h

theorem bind {α β : Type} {m : M W V α} {f : α → M W V β} (hm : Within R m)
    (hf : ∀ a, Within R (f a)) : Within R (m >>= f) := within_bind h.trans hm hf

theorem pure {α : Type} (a : α) : Within R (Pure.pure a : M W V α) := within_pure h.refl a

theorem get : Within R (MonadState.get : M W V (State W V)) := within_get h.refl

theorem readDmac : Within R (dmac : M W V DMAC) := fun s => ensures_dmac.2 (h.refl s)

theorem readChannel (c' : Channel) : Within R (channel c' : M W V DMAChannel) :=
  fun s => ensures_channel.2 (h.refl s)

theorem fetch (a : BitVec 32) : Within R (fetch128 P a) := fun s => ensures_fetch128.2 (h.refl s)

theorem store (a : BitVec 32) (q : Quad) : Within R (store128 P a q) :=
  fun s => ensures_store128.2 (h.memory s a q)

theorem modifyChannel {f : DMAChannel → DMAChannel} (hf : ∀ ch, SameFlags ch (f ch)) :
    Within R (modifyChannel c f : M W V Unit) :=
  fun s => ensures_modifyChannel.2 (h.registers s _ (hf _))

theorem modifyDMAC {f : DMAC → DMAC} (hf : ∀ d, (f d).channels = d.channels ∧
    (f d).activeChannel = d.activeChannel ∧ (f d).queuedChannels = d.queuedChannels ∧
    (f d).control = d.control) : Within R (modifyDMAC f : M W V Unit) :=
  fun s => ensures_modifyDMAC.2
    (h.controller s _ (hf _).1 (hf _).2.1 (hf _).2.2.1 (hf _).2.2.2)

theorem flagInterrupt (i : Fin 15) : Within R (flagInterrupt i : M W V Unit) :=
  h.bind (h.modifyDMAC fun _ => ⟨rfl, rfl, rfl, rfl⟩) fun _ s =>
    ensures_int1Check.2 (h.signal s _)

theorem noteStall {onStall : M W V Unit} (hs : Within R onStall) :
    Within R (noteStall c onStall) := by
  refine h.bind (h.readChannel c) fun ch => within_ite (fun _ => ?_) fun _ => h.pure _
  refine h.bind (h.flagInterrupt _) fun _ => h.bind hs fun _ => ?_
  exact h.modifyChannel fun _ => ⟨rfl, rfl, rfl⟩

theorem noteMfifoEmpty : Within R (noteMfifoEmpty : M W V Unit) := by
  refine h.bind h.readDmac fun d => within_ite (fun _ => ?_) fun _ => h.pure _
  refine h.bind (h.flagInterrupt _) fun _ => ?_
  exact h.modifyDMAC fun _ => ⟨rfl, rfl, rfl, rfl⟩

/-- The registers that were read are replaced. -/
theorem replace {s : State W V} {ch : DMAChannel} (hf : SameFlags (s.dmac.channels c) ch) :
    Ensures (Model.modifyChannel c fun _ => ch) s fun _ s' => R s s' :=
  ensures_modifyChannel.2 (h.registers s _ hf)

theorem mfifoHandler : Within R (mfifoHandler c : M W V Bool) := by
  intro s
  unfold Model.mfifoHandler
  rw [ensures_bind, ensures_dmac, ensures_ite]
  refine ⟨fun _ => ?_, fun _ => ensures_pure.mpr (h.refl s)⟩
  rw [ensures_bind]
  have hf : SameFlags (s.dmac.channels c) (drainFields s.dmac (s.dmac.channels c)) :=
    ⟨rfl, rfl, rfl⟩
  refine (h.replace hf).mono fun _ s' hs' => ?_
  refine Within.ensures ?_ fun _ s'' => h.trans _ _ s'' hs'
  refine h.bind (h.readChannel _) fun spr => within_ite (fun _ => ?_) fun _ => ?_
  · exact h.bind h.noteMfifoEmpty fun _ => h.pure _
  · exact h.bind (h.modifyDMAC fun _ => ⟨rfl, rfl, rfl, rfl⟩) fun _ => h.pure _

theorem advanceSourceDMA : Within R (advanceSourceDMA c : M W V Unit) := by
  refine h.bind (h.modifyChannel fun _ => ⟨rfl, rfl, rfl⟩) fun _ => ?_
  refine h.bind (h.readChannel c) fun ch => ?_
  refine h.bind (within_ite (fun _ => h.mfifoHandler) fun _ => h.pure _) fun _ => ?_
  exact h.modifyChannel fun _ => ⟨rfl, rfl, rfl⟩

theorem followSource : Within R (followSource c : M W V Unit) :=
  h.bind h.readDmac fun _ => within_ite (fun _ => h.stadr _) fun _ => h.pure _

theorem advanceDestDMA : Within R (advanceDestDMA c : M W V Unit) := by
  refine h.bind (h.modifyChannel fun _ => ⟨rfl, rfl, rfl⟩) fun _ => ?_
  exact h.bind (h.readChannel c) fun _ => within_ite (fun _ => h.followSource) fun _ => h.pure _

theorem setPriority (pce : BitVec 2) : Within R (setPriority pce : M W V Unit) := by
  unfold Model.setPriority
  split
  · exact within_failure
  · exact h.modifyDMAC fun _ => ⟨rfl, rfl, rfl, rfl⟩
  · exact h.modifyDMAC fun _ => ⟨rfl, rfl, rfl, rfl⟩
  · exact h.pure _

theorem handleSourceChain : Within R (handleSourceChain P c) := by
  intro s
  unfold Model.handleSourceChain
  rw [ensures_bind, ensures_channel, ensures_bind, ensures_fetch128]
  dsimp only
  split
  · exact ensures_failure.mpr trivial
  · rename_i ch' hl
    rw [ensures_bind]
    refine (h.replace (loadTag_flags hl)).mono fun _ s' hs' => ?_
    refine Within.ensures ?_ fun _ s'' => h.trans _ _ s'' hs'
    exact h.bind (h.setPriority _) fun _ => h.arbitrate

theorem recordQuad (q : Quad) : Within R (record (.quad c q) : M W V Unit) :=
  fun s => ensures_record.2 (h.quad s q)

theorem afterQuads {next : M W V Unit} (hn : Within R next) : Within R (afterQuads c next) := by
  refine h.bind (h.readChannel c) fun _ => within_ite (fun _ => ?_) fun _ => h.arbitrate
  exact within_ite (fun _ => h.finish) fun _ => hn

theorem afterQuadsNoArbitration {next : M W V Unit} (hn : Within R next) :
    Within R (afterQuadsNoArbitration c next) := by
  refine h.bind (h.readChannel c) fun _ => within_ite (fun _ => ?_) fun _ => h.pure _
  exact within_ite (fun _ => h.finish) fun _ => hn

theorem slice {turn : M W V Flow} (ht : Within R turn) : Within R (slice c turn) := by
  refine h.bind (h.readChannel c) fun _ => within_ite (fun _ => ?_) fun _ => h.pure _
  exact within_repeatWhile h.refl h.trans ht _ _

theorem stallDrain {onStall : M W V Unit} (hs : Within R onStall) :
    Within R (stallDrain c onStall) := by
  refine h.bind h.readDmac fun _ => within_ite (fun _ => within_ite (fun _ => ?_) fun _ => ?_)
    fun _ => h.pure _
  · exact h.bind (h.noteStall hs) fun _ => h.bind h.clear fun _ => h.pure _
  · exact h.bind (h.modifyChannel fun _ => ⟨rfl, rfl, rfl⟩) fun _ => h.pure _

theorem interleave : Within R (interleave c : M W V Bool) := by
  refine h.bind h.readDmac fun _ => within_ite (fun _ => ?_) fun _ => h.pure _
  refine h.bind (h.modifyChannel fun _ => ⟨rfl, rfl, rfl⟩) fun _ =>
    within_ite (fun _ => ?_) fun _ => h.pure _
  exact h.bind (h.modifyChannel fun _ => ⟨rfl, rfl, rfl⟩) fun _ =>
    h.bind h.arbitrate fun _ => h.pure _

theorem maskMFIFO : Within R (maskMFIFO c : M W V Unit) :=
  h.bind h.readDmac fun _ => within_ite
    (fun _ => h.modifyChannel fun _ => ⟨rfl, rfl, rfl⟩) fun _ => h.pure _

theorem advanceScratchpad : Within R (advanceScratchpad c : M W V Unit) :=
  h.modifyChannel fun _ => ⟨rfl, rfl, rfl⟩

end Covers

namespace Allows

variable {c : Channel} {R : State W V → State W V → Prop} (h : Allows P c R)
include h

theorem noteRunning (hc : c = .GIF) (b : Bool) : Within R (noteRunning P b) :=
  fun s => ensures_noteRunning.2 (h.running hc s b)

section

variable {f : Quad → W → Reply W Bool} (hf : ∀ q, Calls P c Bool (f q))
include hf

theorem feed (q : Quad) : Within R (feed c f q : M W V Bool) := by
  refine h.bind (h.call (hf q)) fun _ => within_ite (fun _ => ?_) fun _ => h.pure _
  exact h.bind (h.recordQuad q) fun _ => h.pure _

theorem feedTag (q : Quad) : Within R (feedTag c f q : M W V Bool) := by
  refine h.bind (h.call (hf q)) fun _ => within_ite (fun _ => ?_) fun _ => h.pure _
  exact h.bind (fun s => ensures_record.2 (h.tag s _)) fun _ => h.pure _

theorem vifTag : Within R (vifTag P c f) := by
  refine h.bind (h.readChannel c) fun _ => h.bind (h.fetch _) fun _ =>
    within_ite (fun _ => ?_) fun _ => h.handleSourceChain
  exact h.bind (h.feedTag hf _) fun _ =>
    within_ite (fun _ => h.handleSourceChain) fun _ => h.arbitrate

theorem feedTurn : Within R (feedTurn P c f) := by
  refine h.bind (h.readChannel c) fun _ => h.bind (h.fetch _) fun _ =>
    h.bind (h.feed hf _) fun _ => within_ite (fun _ => ?_) fun _ => h.pure _
  exact h.bind h.advanceSourceDMA fun _ => h.pure _

end

theorem send {f : Quad → W → Reply W Unit} (hf : ∀ q, Calls P c Unit (f q)) (q : Quad) :
    Within R (send c f q : M W V Unit) :=
  h.bind (h.call (hf q)) fun _ => h.recordQuad q

theorem sendTurn (ready : W → Bool) {f : Quad → W → Reply W Unit}
    (hf : ∀ q, Calls P c Unit (f q)) : Within R (sendTurn P c ready f) := by
  refine h.bind h.get fun _ => within_ite (fun _ => ?_) fun _ => h.pure _
  refine h.bind (h.readChannel c) fun _ => h.bind (h.fetch _) fun _ => ?_
  refine h.bind (h.send hf _) fun _ => ?_
  exact h.bind h.advanceSourceDMA fun _ => h.pure _

end Allows

/-! ### The handlers -/

section

variable {R : State W V → State W V → Prop}

theorem processVIF0_within (h : Allows P .VIF0 R) : Within R (processVIF0 P) :=
  h.bind (h.slice (h.feedTurn .vif0FeedDMA)) fun _ =>
    h.bind (h.afterQuads (h.vifTag .vif0TransferDMAtag)) fun _ => h.pure _

theorem processVIF1_within (h : Allows P .VIF1 R) : Within R (processVIF1 P) := by
  have hread : Within R (readTurnVIF1 P) := by
    refine h.bind (h.call .vif1ReadFIFO) fun _ => within_ite (fun _ => ?_) fun _ => ?_
    · exact h.bind (h.readChannel _) fun _ => h.bind (h.store _ _) fun _ =>
        h.bind h.advanceSourceDMA fun _ => h.pure _
    · exact h.bind h.arbitrate fun _ => h.pure _
  have hturn : Within R (turnVIF1 P) := by
    refine h.bind h.mfifoHandler fun _ => within_ite (fun _ => ?_) fun _ => ?_
    · exact h.bind (h.readChannel _) fun _ => within_ite (fun _ => h.feedTurn .vif1FeedDMA)
        fun _ => hread
    · exact h.bind h.arbitrate fun _ => h.pure _
  have htag : Within R (tagVIF1 P) :=
    h.bind h.mfifoHandler fun _ =>
      within_ite (fun _ => h.vifTag .vif1TransferDMAtag) fun _ => h.arbitrate
  refine h.bind (h.readChannel _) fun _ =>
    h.bind ?_ fun _ => within_ite (fun _ => h.pure _) fun _ => ?_
  · exact within_ite (fun _ => h.stallDrain (h.pure _)) fun _ => h.pure _
  · refine h.bind (h.slice hturn) fun _ => within_ite (fun _ => h.pure _) fun _ => ?_
    exact h.bind (h.afterQuads htag) fun _ => h.pure _

theorem processGIF_within (h : Allows P .GIF R) : Within R (processGIF P) := by
  have hleave : Within R (leaveGIF P) := h.bind h.arbitrate fun _ => h.call .gifDeactivatePATH3
  have hturn : Within R (turnGIF P) := by
    refine h.bind h.mfifoHandler fun _ =>
      within_ite (fun _ => h.sendTurn _ .gifSendPATH3) fun _ => ?_
    exact h.bind hleave fun _ => h.pure _
  have hafter : Within R (afterQuadsGIF P) := by
    refine h.bind (h.readChannel _) fun _ =>
      within_ite (fun _ => within_ite (fun _ => ?_) fun _ => ?_) fun _ => h.arbitrate
    · exact h.bind (h.noteRunning rfl _) fun _ => h.finish
    · exact h.bind h.mfifoHandler fun _ => within_ite (fun _ => h.handleSourceChain) fun _ => hleave
  refine h.bind (h.noteRunning rfl _) fun _ => h.bind (h.readChannel _) fun _ => h.bind ?_ fun _ =>
    within_ite (fun _ => h.pure _) fun _ => ?_
  · exact within_ite (fun _ => h.stallDrain (h.call .gifDeactivatePATH3)) fun _ => h.pure _
  · refine h.bind (h.slice hturn) fun _ => within_ite (fun _ => h.pure _) fun _ => ?_
    exact h.bind hafter fun _ => h.pure _

theorem processIPU_FROM_within (h : Allows P .IPU_FROM R) : Within R (processIPU_FROM P) := by
  have hturn : Within R (turnIPU_FROM P) := by
    refine h.bind h.get fun _ => within_ite (fun _ => ?_) fun _ => h.pure _
    exact h.bind (h.call .ipuReadFIFO) fun _ => h.bind (h.readChannel _) fun _ =>
      h.bind (h.store _ _) fun _ => h.bind h.advanceDestDMA fun _ => h.pure _
  exact h.bind (h.slice hturn) fun _ => h.bind h.followSource fun _ =>
    h.bind (h.afterQuads within_failure) fun _ => h.pure _

theorem processIPU_TO_within (h : Allows P .IPU_TO R) : Within R (processIPU_TO P) :=
  h.bind (h.slice (h.sendTurn _ .ipuWriteFIFO)) fun _ =>
    h.bind (h.afterQuads h.handleSourceChain) fun _ => h.pure _

theorem processSIF0_within (h : Allows P .EE_SIF0 R) : Within R (processSIF0 P) := by
  have hread : Within R (call P.sifReadSIF0 : M W V (BitVec 32)) := h.call .sifReadSIF0
  have hturn : Within R (turnSIF0 P) := by
    refine h.bind hread fun _ => h.bind hread fun _ => h.bind hread fun _ =>
      h.bind hread fun _ => ?_
    exact h.bind (h.readChannel _) fun _ => h.bind (h.store _ _) fun _ =>
      h.bind h.advanceDestDMA fun _ => h.pure _
  have htag : Within R (tagSIF0 P) := by
    refine h.bind h.get fun _ => within_ite (fun _ => ?_) fun _ => h.pure _
    refine h.bind hread fun _ => h.bind hread fun _ => h.bind ?_ fun _ => h.arbitrate
    exact h.modifyChannel fun _ => ⟨rfl, rfl, tagControl_bit _ _⟩
  refine h.bind h.get fun _ => h.bind (within_repeatWhile h.refl h.trans hturn _ _) fun _ => ?_
  exact h.bind (h.afterQuads htag) fun _ => h.pure _

theorem processSIF1_within (h : Allows P .EE_SIF1 R) : Within R (processSIF1 P) := by
  refine h.bind (h.readChannel _) fun _ =>
    h.bind ?_ fun _ => within_ite (fun _ => h.pure _) fun _ => ?_
  · exact within_ite (fun _ => h.stallDrain (h.pure _)) fun _ => h.pure _
  · exact h.bind (h.slice (h.sendTurn _ .sifWriteSIF1)) fun _ =>
      h.bind (h.afterQuadsNoArbitration h.handleSourceChain) fun _ => h.pure _

theorem processSPR_FROM_within (h : Allows P .SPR_FROM R) : Within R (processSPR_FROM P) := by
  have hturn : Within R (turnSPR_FROM P) := by
    refine h.bind h.maskMFIFO fun _ => h.bind (h.readChannel _) fun _ => h.bind (h.fetch _) fun _ =>
      h.bind (h.store _ _) fun _ => h.bind h.advanceScratchpad fun _ =>
        h.bind h.advanceDestDMA fun _ => h.bind h.interleave fun _ =>
          within_ite (fun _ => h.pure _) fun _ => ?_
    exact h.bind h.maskMFIFO fun _ => h.pure _
  have htag : Within R (tagSPR_FROM P) := by
    refine h.bind (h.readChannel _) fun _ => h.bind (h.fetch _) fun _ => ?_
    refine h.bind ?_ fun _ => h.arbitrate
    exact h.modifyChannel fun _ => ⟨rfl, rfl, tagControl_bit _ _⟩
  exact h.bind (h.slice hturn) fun _ =>
    h.bind (h.afterQuadsNoArbitration htag) fun _ => h.pure _

theorem processSPR_TO_within (h : Allows P .SPR_TO R) : Within R (processSPR_TO P) := by
  have hturn : Within R (turnSPR_TO P) := by
    refine h.bind (h.readChannel _) fun _ => h.bind (h.fetch _) fun _ => h.bind (h.store _ _) fun _ =>
      h.bind h.advanceScratchpad fun _ => h.bind h.advanceSourceDMA fun _ => ?_
    exact h.bind h.interleave fun _ => within_ite (fun _ => h.pure _) fun _ => h.pure _
  have htag : Within R (tagSPR_TO P) := by
    refine h.bind (h.readChannel _) fun _ => h.bind (h.fetch _) fun _ => h.bind ?_ fun _ =>
      h.handleSourceChain
    refine h.bind (h.readChannel _) fun _ => within_ite (fun _ => ?_) fun _ => h.pure _
    exact h.bind (h.store _ _) fun _ => h.advanceScratchpad
  exact h.bind (h.slice hturn) fun _ =>
    h.bind (h.afterQuadsNoArbitration htag) fun _ => h.pure _

/-- **What a handler does is allowed.** -/
theorem Allows.process {c : Channel} (h : Allows P c R) : Within R (process P c) := by
  cases c with
  | VIF0 => exact processVIF0_within h
  | VIF1 => exact processVIF1_within h
  | GIF => exact processGIF_within h
  | IPU_FROM => exact processIPU_FROM_within h
  | IPU_TO => exact processIPU_TO_within h
  | EE_SIF0 => exact processSIF0_within h
  | EE_SIF1 => exact processSIF1_within h
  | EE_SIF2 => exact within_failure
  | SPR_FROM => exact processSPR_FROM_within h
  | SPR_TO => exact processSPR_TO_within h

end

end DobieStation.Dma.Handlers
