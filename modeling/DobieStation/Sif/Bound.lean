import DobieStation.Sif.Machine

/-! # How far the FIFOs of the SIF fill up

The handlers test the FIFOs, or have their requests cleared, before they write a quadword, a tag or
a word with its junk, not within it. `Bounded` says that neither FIFO holds more than 32 words, and
that SIF0 requests only while it holds less. A step keeps it if it finds room for all that it
writes (`Roomy`). -/

namespace DobieStation.Sif.Bound

open DobieStation.Lib.Hoare DobieStation.Lib.Reach
open DobieStation.Dma.Model (Channel Quad State)
open DobieStation.Dma.Outside
open DobieStation.Iop.Model DobieStation.Iop.Handlers DobieStation.Iop.Arbiter
open DobieStation.Sif.Machine

variable {E F V : Type} {P : Iop.Model.Peripherals E} {Q : Dma.Model.Peripherals F V}
variable {side side' : Side E}

/-! ### The IOP's side -/

/-- SIF0 requests only while its FIFO is not full. -/
def Unfilled (side : Side E) : Prop :=
  (side.dma.channels IOP_SIF0).dmaReq = true → side.sif.SIF0_FIFO.length < MAX_FIFO_SIZE

structure Bounded (side : Side E) : Prop where
  arbitrated : Arbitrated side.dma
  sif0 : side.sif.SIF0_FIFO.length ≤ MAX_FIFO_SIZE
  sif1 : side.sif.SIF1_FIFO.length ≤ MAX_FIFO_SIZE
  full : Unfilled side

/-- SIF0 is left alone on the IOP's side, and SIF1 is not written. -/
structure Leaves (side side' : Side E) : Prop where
  channel : side'.dma.channels IOP_SIF0 = side.dma.channels IOP_SIF0
  fifo : side'.sif.SIF0_FIFO = side.sif.SIF0_FIFO
  junkWords : side'.junkWords = side.junkWords
  sif1 : side'.sif.SIF1_FIFO.length ≤ side.sif.SIF1_FIFO.length

theorem Bounded.leaves (h : Bounded side) (hl : Leaves side side') (ha : Arbitrated side'.dma) :
    Bounded side' where
  arbitrated := ha
  sif0 := hl.fifo ▸ h.sif0
  sif1 := hl.sif1.trans h.sif1
  full := by
    unfold Unfilled
    rw [hl.channel, hl.fifo]
    exact h.full

/-- **The handlers of the other channels leave SIF0 alone.** -/
theorem allows_leaves {c : Chan} (hc : c ≠ IOP_SIF0) : Allows (E := E) c Leaves where
  refl _ := ⟨rfl, rfl, rfl, le_rfl⟩
  trans _ _ _ h h' := ⟨h'.channel.trans h.channel, h'.fifo.trans h.fifo,
    h'.junkWords.trans h.junkWords, h'.sif1.trans h.sif1⟩
  registers _ _ _ := ⟨Function.update_of_ne hc.symm _ _, rfl, rfl, le_rfl⟩
  request _ raise := ⟨channels_request_of_ne hc.symm raise, rfl, rfl, le_rfl⟩
  endTransfer _ := by
    refine ⟨?_, rfl, rfl, le_rfl⟩
    dsimp only
    rw [channels_endTransfer]
    exact Function.update_of_ne hc.symm _ _
  interrupt _ _ _ := ⟨rfl, rfl, rfl, le_rfl⟩
  outside _ _ _ := ⟨rfl, rfl, rfl, le_rfl⟩
  junk h := absurd h hc
  writeSIF0 h := absurd h hc
  readSIF1 h s w s' hr := by
    subst h
    unfold Side.readSIF1 at hr
    split at hr
    · cases hr
    · rename_i value rest hf
      obtain ⟨-, rfl⟩ := Prod.mk.inj (Option.some.inj hr)
      refine ⟨?_, rfl, rfl, ?_⟩
      · dsimp only
        split_ifs
        · exact channels_request_of_ne (by decide) false
        · rfl
      · simp [hf]

theorem Bounded.readSIF0 {word : Word} (h : Bounded side)
    (hr : side.readSIF0 = some (word, side')) : Bounded side' := by
  unfold Side.readSIF0 at hr
  split at hr
  · cases hr
  · rename_i value rest hf
    obtain ⟨-, rfl⟩ := Prod.mk.inj (Option.some.inj hr)
    have hlen : rest.length + 1 ≤ MAX_FIFO_SIZE := by simpa [hf] using h.sif0
    exact ⟨h.arbitrated.setDMARequest, by dsimp only; omega, h.sif1, fun _ => by dsimp only; omega⟩

theorem Bounded.writeSIF1 (h : Bounded side) (quad : Quad)
    (hroom : side.sif.SIF1_FIFO.length + 4 ≤ MAX_FIFO_SIZE) : Bounded (side.writeSIF1 quad) where
  arbitrated := h.arbitrated.setDMARequest
  sif0 := h.sif0
  sif1 := by simpa [Side.writeSIF1, Side.words] using hroom
  full := by
    have hch : (side.writeSIF1 quad).dma.channels IOP_SIF0 = side.dma.channels IOP_SIF0 :=
      channels_request_of_ne (by decide) true
    unfold Unfilled
    rw [hch]
    exact h.full

/-! ### The handler of SIF0 on the IOP's side -/

/-- At most `n` words have been added to SIF0, and none to SIF1. -/
structure Fills (n : ℕ) (side side' : Side E) : Prop where
  sif0 : side'.sif.SIF0_FIFO.length ≤ side.sif.SIF0_FIFO.length + n
  sif1 : side'.sif.SIF1_FIFO = side.sif.SIF1_FIFO
  full : Unfilled side → Unfilled side'

theorem Fills.trans {m n : ℕ} {side'' : Side E} (h : Fills m side side')
    (h' : Fills n side' side'') : Fills (m + n) side side'' where
  sif0 := by
    have := h.sif0
    have := h'.sif0
    omega
  sif1 := h'.sif1.trans h.sif1
  full hu := h'.full (h.full hu)

theorem Fills.mono {m n : ℕ} (h : Fills m side side') (hmn : m ≤ n) : Fills n side side' :=
  ⟨h.sif0.trans (by omega), h.sif1, h.full⟩

theorem fills_modifyChannel (side : Side E) {f : IOP_DMA_Channel → IOP_DMA_Channel}
    (hf : KeepsFlags f) :
    Fills 0 side { side with dma := side.dma.modifyChannel IOP_SIF0 f } := by
  refine ⟨le_rfl, rfl, fun hu hreq => hu ?_⟩
  rw [channels_modifyChannel, Function.update_self, (hf _).2] at hreq
  exact hreq

theorem length_writeSIF0 (side : Side E) (word : Word) :
    (side.writeSIF0 word).sif.SIF0_FIFO.length = side.sif.SIF0_FIFO.length + 1 := by
  simp [Side.writeSIF0, Side.pushSIF0]

/-- A word that fills the FIFO clears the request. -/
theorem fills_writeSIF0 (side : Side E) (word : Word) : Fills 1 side (side.writeSIF0 word) := by
  refine ⟨(length_writeSIF0 side word).le, rfl, fun _ hreq => ?_⟩
  rw [length_writeSIF0]
  by_contra hlen
  unfold Side.writeSIF0 Side.pushSIF0 at hreq
  dsimp only at hreq
  rw [if_pos (by simpa using hlen), channels_clearDMARequest, channels_modifyChannel,
    Function.update_self] at hreq
  cases hreq

theorem fills_sendSIF0Junk (stack : Fin 4 → Word) (count : ℕ) :
    Fills count side (side.sendSIF0Junk stack count) := by
  unfold Side.sendSIF0Junk
  dsimp only
  have hlen : ((List.finRange 4).drop (4 - count)).length ≤ count := by
    rw [List.length_drop, List.length_finRange]
    omega
  generalize (List.finRange 4).drop (4 - count) = l at hlen
  generalize Function.update stack _ _ = temp
  induction l generalizing side count with
  | nil => exact ⟨Nat.le_add_right _ _, rfl, id⟩
  | cons i l ih =>
    obtain ⟨n, rfl⟩ : ∃ n, count = 1 + n := ⟨count - 1, by simp at hlen; omega⟩
    have hrest : Fills n (side.writeSIF0 (temp i)) _ := ih n (by simp at hlen; omega)
    exact (fills_writeSIF0 side (temp i)).trans hrest

theorem fills_transferEnd : Within (Fills (E := E) 0) (transferEnd IOP_SIF0) := by
  intro s
  simp only [transferEnd, modifyDMA, flagInterrupt, ensures_bind, ensures_modify]
  have hend : Unfilled s → Unfilled { s with dma := s.dma.endTransfer IOP_SIF0 } := by
    intro hu hreq
    dsimp only at hreq
    rw [channels_endTransfer, channels_modifyChannel, Function.update_self] at hreq
    exact hu hreq
  split_ifs
  · exact ⟨le_rfl, rfl, hend⟩
  · exact ⟨le_rfl, rfl, hend⟩

/-- The words that a step of SIF0's handler writes. -/
def needed (side : Side E) : ℕ :=
  if (side.dma.channels IOP_SIF0).wordCount = 0 then
    if side.sif.SIF0_FIFO.length ≤ MAX_FIFO_SIZE - 2 then 2 else 0
  else if (side.dma.channels IOP_SIF0).wordCount = 1 then 1 + side.junkWords else 1

theorem channel_writeSIF0 (side : Side E) (word : Word) : ∃ raised, (side.writeSIF0 word).dma.channels IOP_SIF0 =
    { side.dma.channels IOP_SIF0 with dmaReq := raised } := by
  unfold Side.writeSIF0 Side.pushSIF0
  dsimp only
  split_ifs
  · refine ⟨false, ?_⟩
    rw [channels_clearDMARequest, channels_modifyChannel, Function.update_self]
  · exact ⟨_, rfl⟩

theorem wordSIF0_fills (stack : Fin 4 → Word) (s : Side E)
    (hword : (s.dma.channels IOP_SIF0).wordCount ≠ 0) :
    Ensures (wordSIF0 stack) s fun _ s' => Fills (needed s) s s' := by
  simp only [wordSIF0, channel, read32, writeSIF0, modifyChannel, modifyDMA, sendSIF0Junk,
    ensures_bind, ensures_get, ensures_pure, ensures_modify, ensures_ite]
  generalize s.ram.read32 _ = word
  have hch := fills_modifyChannel (s.writeSIF0 word) (f := fun ch : IOP_DMA_Channel =>
    { ch with addr := ch.addr + 4, wordCount := ch.wordCount - 1 }) fun _ => ⟨rfl, rfl⟩
  have hone := (fills_writeSIF0 s word).trans hch
  obtain ⟨raised, hraised⟩ := channel_writeSIF0 s word
  rw [channels_modifyChannel, Function.update_self, hraised]
  unfold needed
  rw [if_neg hword]
  refine ⟨fun hlast => ?_, fun hlast => ?_⟩
  · have h1 : (s.dma.channels IOP_SIF0).wordCount = 1 := by
      dsimp only at hlast
      bv_omega
    rw [if_pos h1]
    have hjunk := hone.trans (fills_sendSIF0Junk stack s.junkWords)
    exact ⟨fun _ => (fills_transferEnd _).mono fun _ s' h' => hjunk.trans h', fun _ => hjunk⟩
  · refine hone.mono ?_
    split_ifs <;> omega

theorem tagSIF0_fills (s : Side E) : Ensures tagSIF0 s fun _ s' => Fills 2 s s' := by
  simp only [tagSIF0, channel, read32, writeSIF0, modifyChannel, modifyDMA, ensures_bind,
    ensures_get, ensures_pure, ensures_modify]
  generalize s.ram.read32 ((s.dma.channels IOP_SIF0).tagAddr + 8) = lo
  generalize (s.writeSIF0 lo).ram.read32 _ = hi
  have h := (fills_writeSIF0 s lo).trans (fills_writeSIF0 _ hi)
  generalize (s.writeSIF0 lo).writeSIF0 hi = s₂ at h
  refine ⟨h.sif0, h.sif1, fun hu => ?_⟩
  exact (fills_modifyChannel s₂ fun _ => ⟨rfl, rfl⟩).full (h.full hu)

theorem processSIF0_fills (stack : Fin 4 → Word) (s : Side E) :
    Ensures (processSIF0 stack) s fun _ s' => Fills (needed s) s s' := by
  simp only [processSIF0, channel, ensures_bind, ensures_get, ensures_pure, ensures_ite]
  refine ⟨wordSIF0_fills stack s, fun hword => ⟨fun hlen => ?_, fun _ => ?_⟩⟩
  · refine (tagSIF0_fills s).mono fun _ s' h => h.mono ?_
    unfold needed
    rw [if_pos (not_ne_iff.mp hword), if_pos hlen]
  · exact ⟨Nat.le_add_right _ _, rfl, id⟩

/-- A step of the IOP's controller has room for what it writes. -/
def RoomyIOP (side : Side E) (a : Act E) : Prop :=
  (∃ stack, a = .serve stack) → side.dma.activeChannel = some IOP_SIF0 →
    (side.dma.channels IOP_SIF0).wordCount = 1 →
      side.sif.SIF0_FIFO.length + 1 + side.junkWords ≤ MAX_FIFO_SIZE

/-- The channel being served requests, so its FIFO is not full. -/
theorem room_of_active (h : Bounded side) (hact : side.dma.activeChannel = some IOP_SIF0) :
    side.sif.SIF0_FIFO.length < MAX_FIFO_SIZE := by
  have hmem : IOP_SIF0 ∈ (arbiter side.dma).members := by
    simp [arbiter, Lib.Arbitration.Arbiter.members, hact]
  exact h.full ((h.arbitrated.holds.2 IOP_SIF0).mp hmem).2

theorem serve_bounded (stack : Fin 4 → Word) (h : Bounded side)
    (hr : RoomyIOP side (.serve stack)) :
    Ensures (serveActive P stack) side fun _ side' => Bounded side' := by
  have ha := (serveActive_arbitrated (P := P) stack side).mono fun _ _ h' => h' h.arbitrated
  have hb : Ensures (serveActive P stack) side fun _ side' =>
      Arbitrated side'.dma → Bounded side' := by
    unfold serveActive
    rw [ensures_bind, ensures_get]
    cases hact : side.dma.activeChannel with
    | none => exact ensures_failure.mpr trivial
    | some c =>
      by_cases hc : c = IOP_SIF0
      · subst hc
        refine (processSIF0_fills stack side).mono fun _ side' hf ha' => ?_
        have hroom := room_of_active h hact
        have hlast := hr ⟨stack, rfl⟩ hact
        have h0 := hf.sif0
        refine ⟨ha', ?_, ?_, hf.full h.full⟩
        · unfold needed MAX_FIFO_SIZE at *
          split_ifs at h0 with hw hl hw1
          · omega
          · omega
          · have := hlast hw1
            omega
          · omega
        · rw [hf.sif1]
          exact h.sif1
      · exact ((allows_leaves hc).process stack side).mono fun _ side' hl ha' => h.leaves hl ha'
  exact (ha.and hb).mono fun _ side' h' => h'.2 h'.1

/-- The FIFOs and the request of SIF0 are left alone. -/
structure Spares (side side' : Side E) : Prop where
  sif : side'.sif = side.sif
  dmaReq : (side'.dma.channels IOP_SIF0).dmaReq = (side.dma.channels IOP_SIF0).dmaReq

theorem spares_trans (s s' s'' : Side E) (h : Spares s s') (h' : Spares s' s'') : Spares s s'' :=
  ⟨h'.sif.trans h.sif, h'.dmaReq.trans h.dmaReq⟩

theorem spares_modifyDMA {f : IOP_DMA → IOP_DMA}
    (hf : ∀ d, ((f d).channels IOP_SIF0).dmaReq = (d.channels IOP_SIF0).dmaReq) :
    Within (Spares (E := E)) (modifyDMA f) :=
  within_modify fun s => ⟨rfl, hf s.dma⟩

theorem spares_modifyChannel {i : Chan} {f : IOP_DMA_Channel → IOP_DMA_Channel}
    (hf : ∀ ch, (f ch).dmaReq = ch.dmaReq) : Within (Spares (E := E)) (modifyChannel i f) := by
  refine spares_modifyDMA fun d => ?_
  rw [channels_modifyChannel]
  by_cases hi : IOP_SIF0 = i
  · subst hi
    rw [Function.update_self]
    exact hf _
  · rw [Function.update_of_ne hi]

theorem spares_channels {f : IOP_DMA → IOP_DMA} (hf : ∀ d, (f d).channels = d.channels) :
    Within (Spares (E := E)) (modifyDMA f) :=
  spares_modifyDMA fun d => by rw [hf]

theorem spares_bind {α β : Type} {m : M E α} {f : α → M E β} (hm : Within Spares m)
    (hf : ∀ a, Within Spares (f a)) : Within Spares (m >>= f) := within_bind spares_trans hm hf

theorem spares_pure {α : Type} (a : α) : Within Spares (pure a : M E α) :=
  within_pure (fun _ => ⟨rfl, rfl⟩) a

theorem spares_channel (i : Chan) : Within Spares (channel i : M E IOP_DMA_Channel) :=
  spares_bind (within_get fun _ => ⟨rfl, rfl⟩) fun _ => spares_pure _

theorem setChanControl_spares (i : Chan) (value : Word) :
    Within Spares (setChanControl P i value) := by
  have hstart : Within Spares (startChannel P i) := by
    unfold startChannel
    split
    · exact spares_pure _
    · exact spares_bind (spares_channel i) fun _ =>
        spares_bind (within_modify fun _ => ⟨rfl, rfl⟩) fun _ => spares_modifyChannel fun _ => rfl
  have hpause : Within Spares (pauseChannel P i) := by
    unfold pauseChannel
    split
    · exact spares_pure _
    · exact within_modify fun _ => ⟨rfl, rfl⟩
  have hbusy (oldBusy : Bool) : Within Spares (busyChanged P i oldBusy) := by
    refine spares_bind (spares_channel i) fun _ => within_ite (fun _ => ?_) fun _ =>
      within_ite (fun _ => ?_) fun _ => spares_pure _
    · exact spares_bind hstart fun _ => spares_channels fun _ => channels_activeDmaCheck
    · exact spares_bind (spares_channels fun _ => channels_deactivateDma) fun _ => hpause
  exact spares_bind (spares_channel i) fun _ => spares_bind (spares_modifyChannel fun _ => rfl)
    fun _ => spares_bind (hbusy _) fun _ => spares_modifyChannel fun _ => rfl

/-- Only the SIF asks for SIF0, and only its handlers read and write the FIFOs. -/
theorem exec_spares {a : Act E} (hask : asksSif a = false) (hs : ∀ stack, a ≠ .serve stack) :
    Within Spares (a.exec P) := by
  cases a with
  | setDMARequest i =>
    have hi : IOP_SIF0 ≠ i := by rintro rfl; simp [asksSif] at hask
    exact spares_modifyDMA fun d => by rw [show (d.setDMARequest i).channels IOP_SIF0 =
      d.channels IOP_SIF0 from channels_request_of_ne hi true]
  | clearDMARequest i =>
    have hi : IOP_SIF0 ≠ i := by rintro rfl; simp [asksSif] at hask
    exact spares_modifyDMA fun d => by rw [show (d.clearDMARequest i).channels IOP_SIF0 =
      d.channels IOP_SIF0 from channels_request_of_ne hi false]
  | setChanControl i v => exact setChanControl_spares i v
  | setChanAddr | setChanBlock | setChanSize | setChanCount | setChanTagAddr =>
    exact spares_modifyChannel fun _ => rfl
  | setEnable b v =>
    unfold Act.exec setEnable
    refine spares_modifyDMA fun d => ?_
    dsimp only
    split_ifs <;> rfl
  | setDICR b v => exact within_modify fun _ => ⟨rfl, rfl⟩
  | serve stack => exact absurd rfl (hs stack)
  | outside => exact within_modify fun _ => ⟨rfl, rfl⟩

/-- **A step of the IOP's controller.** -/
theorem iop_bounded {a : Act E} (h : Bounded side) (hask : asksSif a = false)
    (hr : RoomyIOP side a) : Ensures (a.exec P) side fun _ side' => Bounded side' := by
  by_cases hs : ∃ stack, a = .serve stack
  · obtain ⟨stack, rfl⟩ := hs
    exact serve_bounded stack h hr
  · have ha := (exec_arbitrated (P := P) a side).mono fun _ _ h' => h' h.arbitrated
    have hsp := exec_spares (P := P) hask (fun stack ha => hs ⟨stack, ha⟩) side
    refine (ha.and hsp).mono fun _ side' ⟨ha', hsp'⟩ => ⟨ha', ?_, ?_, ?_⟩
    · rw [hsp'.sif]
      exact h.sif0
    · rw [hsp'.sif]
      exact h.sif1
    · unfold Unfilled
      rw [hsp'.sif, hsp'.dmaReq]
      exact h.full

/-! ### The EE's side -/

/-- What the IOP's side of a state becomes. -/
def OnSide (R : Side E → Side E → Prop) (s s' : State (World E F) V) : Prop :=
  R s.world.1 s'.world.1

theorem ignores_onSide {R : Side E → Side E → Prop} (hrefl : ∀ side, R side side)
    (htrans : ∀ a b c, R a b → R b c → R a c) : Ignores (withSif Q) (OnSide (F := F) (V := V) R) where
  refl s := hrefl s.world.1
  trans s s' s'' := htrans s.world.1 s'.world.1 s''.world.1
  controller s _ := hrefl s.world.1
  signal s _ := hrefl s.world.1
  history s _ := hrefl s.world.1
  running s _ := hrefl s.world.1

theorem ignores_eq : Ignores (withSif Q) (OnSide (E := E) (V := V) Eq) :=
  ignores_onSide (fun _ => rfl) fun _ _ _ h h' => h.trans h'

/-- The handlers of the other channels do not call the SIF. -/
theorem allows_eq {c : Channel} (h0 : c ≠ .EE_SIF0) (h1 : c ≠ .EE_SIF1) :
    Dma.Handlers.Allows (withSif Q) c (OnSide (E := E) (V := V) Eq) := by
  refine ignores_eq.allows (fun _ _ _ => rfl) fun hc _ => ?_
  cases hc with
  | sifReadSIF0 => exact absurd rfl h0
  | sifWriteSIF1 => exact absurd rfl h1
  | _ => rfl

theorem Bounded.answered (h : Bounded side) : Bounded { side with toEE := [] } :=
  ⟨h.arbitrated, h.sif0, h.sif1, h.full⟩

/-- The EE's handler for SIF0 only reads. -/
theorem allows_bounded : Dma.Handlers.Allows (withSif Q) .EE_SIF0
    (OnSide (V := V) fun side side' : Side E => Bounded side → Bounded side') := by
  refine (ignores_onSide (fun _ => id) fun _ _ _ h h' hb => h' (h hb)).allows
    (fun _ _ _ => id) fun hc s h => ?_
  cases hc
  show Bounded (readSIF0 s.world).world.1
  unfold Machine.readSIF0
  split
  · rename_i hr
    exact (h.readSIF0 hr).answered
  · exact h

theorem call_side (Q : Dma.Model.Peripherals F V) {α : Type} (f : World E F → Dma.Model.Reply (World E F) α)
    (s : State (World E F) V) :
    Ensures (Dma.Model.call f) s fun _ s' => s'.world.1 = (f s.world).world.1 := by
  unfold Dma.Model.call
  rw [ensures_bind, ensures_get, ensures_bind, ensures_modify, ensures_bind]
  have hreq := (ignores_eq (E := E) (F := F) (V := V) (Q := Q)).arbitrates.requests
  refine (hreq (f s.world).requests _).mono fun _ s' h' => ensures_pure.mpr ?_
  exact Eq.symm h'

/-- The slice of SIF1 reaches beyond the stall address. -/
def Stalls (d : Dma.Model.DMAC) : Prop :=
  Dma.Model.stallDest d.control = some .EE_SIF1 ∧
    (d.channels .EE_SIF1).canStallDrain = true ∧
      Dma.Model.beyondStadr d (d.channels .EE_SIF1) = true

/-- The quadwords of the slice that SIF1 sends next. -/
def slice (s : State (World E F) V) : ℕ :=
  Dma.Model.quadsToTransfer (s.dmac.channels .EE_SIF1)

theorem stallDrain_side (Q : Dma.Model.Peripherals F V) (s : State (World E F) V) :
    Ensures (Dma.Model.stallDrain .EE_SIF1 (pure ())) s fun stalled s' =>
      s'.world.1 = s.world.1 ∧ (stalled = false → ¬ Stalls s.dmac ∧ slice s' = slice s) := by
  have hcov := (ignores_eq (E := E) (F := F) (V := V) (Q := Q)).covers (c := .EE_SIF1)
    fun _ _ _ => rfl
  have hside := hcov.stallDrain (hcov.pure ()) s
  have hgo : Ensures (Dma.Model.stallDrain .EE_SIF1 (pure ())) s fun stalled s' =>
      stalled = false → ¬ Stalls s.dmac ∧ slice s' = slice s := by
    unfold Dma.Model.stallDrain
    rw [ensures_bind, Dma.Handlers.ensures_dmac]
    dsimp only
    rw [ensures_ite, ensures_ite]
    refine ⟨fun hdest => ⟨fun _ => ?_, fun hbeyond => ?_⟩, fun hdest => ?_⟩
    · rw [ensures_bind]
      refine (hcov.noteStall (hcov.pure ()) s).mono fun _ s₁ _ => ?_
      rw [ensures_bind]
      exact (hcov.clear s₁).mono fun _ s₂ _ => ensures_pure.mpr nofun
    · rw [ensures_bind, Dma.Handlers.ensures_modifyChannel, ensures_pure]
      refine fun _ => ⟨fun hs => hbeyond hs.2.2, ?_⟩
      unfold slice
      rw [Dma.Handlers.setChannel_self]
      rfl
    · exact ensures_pure.mpr fun _ => ⟨fun hs => hdest ⟨hs.1, hs.2.1⟩, rfl⟩
  exact (hside.and hgo).mono fun _ s' ⟨h, h'⟩ => ⟨h.symm, h'⟩

/-- There is room for `n` more quadwords in SIF1. -/
def Room (n : ℕ) (s : State (World E F) V) : Prop :=
  Bounded s.world.1 ∧ s.world.1.sif.SIF1_FIFO.length + 4 * n ≤ MAX_FIFO_SIZE

theorem sendTurn_room (n : ℕ) (s : State (World E F) V) (h : Room (n + 1) s) :
    Ensures (Dma.Model.sendTurn (withSif Q) .EE_SIF1 (fun _ => true) (withSif Q).sifWriteSIF1) s
      fun _ s' => Room n s' := by
  obtain ⟨hb, hroom⟩ := h
  have hcov := (ignores_eq (E := E) (F := F) (V := V) (Q := Q)).covers (c := .EE_SIF1)
    fun _ _ _ => rfl
  unfold Dma.Model.sendTurn
  rw [ensures_bind, ensures_get, ensures_ite]
  refine ⟨fun _ => ?_, fun hc => absurd rfl hc⟩
  rw [ensures_bind, Dma.Handlers.ensures_channel, ensures_bind, Dma.Handlers.ensures_fetch128]
  generalize s.mem.fetch128 (withSif Q) _ = quad
  rw [ensures_bind, Dma.Model.send, ensures_bind]
  refine (call_side Q _ s).mono fun _ s₁ h₁ => ?_
  refine (hcov.recordQuad quad s₁).mono fun _ s₂ h₂ => ?_
  rw [ensures_bind]
  refine (hcov.advanceSourceDMA s₂).mono fun _ s₃ h₃ => ensures_pure.mpr ?_
  have hside : s₃.world.1 = { s.world.1.writeSIF1 quad with toEE := [] } :=
    (h₃.symm.trans h₂.symm).trans h₁
  unfold Room
  rw [hside]
  refine ⟨(hb.writeSIF1 quad (by omega)).answered, ?_⟩
  simp only [Side.writeSIF1, Side.words, List.length_append, List.length_cons, List.length_nil]
  omega

/-- **The EE's handler for SIF1.** -/
theorem processSIF1_bounded {s : State (World E F) V} (h : Bounded s.world.1)
    (hroom : ¬ Stalls s.dmac → Room (slice s) s) :
    Ensures (Dma.Model.processSIF1 (withSif Q)) s fun _ s' => Bounded s'.world.1 := by
  have hcov := (ignores_eq (E := E) (F := F) (V := V) (Q := Q)).covers (c := .EE_SIF1)
    fun _ _ _ => rfl
  have hstall : Ensures (if (s.dmac.channels .EE_SIF1).quadwordCount ≠ 0 then
      Dma.Model.stallDrain .EE_SIF1 (pure ()) else pure false) s fun stalled s' =>
      s'.world.1 = s.world.1 ∧ (stalled = false → Room (slice s') s') := by
    rw [ensures_ite]
    refine ⟨fun _ => ?_, fun hq => ensures_pure.mpr ⟨rfl, fun _ => ⟨h, ?_⟩⟩⟩
    · refine (stallDrain_side Q s).mono fun stalled s' ⟨hside, hgo⟩ => ⟨hside, fun hst => ?_⟩
      obtain ⟨hno, hsl⟩ := hgo hst
      unfold Room
      rw [hside, hsl]
      exact hroom hno
    · have h0 : slice s = 0 := by
        unfold slice Dma.Model.quadsToTransfer
        rw [not_ne_iff.mp hq]
        simp
      rw [h0]
      exact h.sif1
  unfold Dma.Model.processSIF1
  rw [ensures_bind, Dma.Handlers.ensures_channel, ensures_bind]
  refine hstall.mono fun stalled s₁ ⟨hside, hgo⟩ => ?_
  rw [ensures_ite]
  refine ⟨fun _ => ensures_pure.mpr (hside ▸ h), fun hst => ?_⟩
  have hr := hgo (Bool.eq_false_of_not_eq_true hst)
  have hslice : Ensures (Dma.Model.slice .EE_SIF1 (Dma.Model.sendTurn (withSif Q) .EE_SIF1
      (fun _ => true) (withSif Q).sifWriteSIF1)) s₁ fun _ s' => Bounded s'.world.1 := by
    unfold Dma.Model.slice
    rw [ensures_bind, Dma.Handlers.ensures_channel, ensures_ite]
    refine ⟨fun _ => ?_, fun _ => ensures_pure.mpr hr.1⟩
    exact (ensures_repeatWhile sendTurn_room _ 0 hr).mono fun _ s' ⟨_, h'⟩ => h'.1
  rw [ensures_bind]
  refine hslice.mono fun r s₂ h₂ => ?_
  rw [ensures_bind]
  refine (hcov.afterQuadsNoArbitration hcov.handleSourceChain s₂).mono fun _ s₃ h₃ => ?_
  exact ensures_pure.mpr (h₃ ▸ h₂)

/-! ### The machine -/

/-- A step of the EE's controller has room for what it writes. -/
def RoomyEE (s : State (World E F) V) (a : Dma.Model.Action (World E F) V) : Prop :=
  a = .serve → s.dmac.activeChannel = some .EE_SIF1 → ¬ Stalls s.dmac →
    s.world.1.sif.SIF1_FIFO.length + 4 * slice s ≤ MAX_FIFO_SIZE

theorem ee_serve_bounded {s : State (World E F) V} (h : Bounded s.world.1)
    (hr : RoomyEE s .serve) :
    Ensures (Dma.Model.serveActive (withSif Q)) s fun _ s' => Bounded s'.world.1 := by
  unfold Dma.Model.serveActive
  rw [ensures_bind, Dma.Handlers.ensures_dmac]
  cases hact : s.dmac.activeChannel with
  | none => exact ensures_failure.mpr trivial
  | some c =>
    dsimp only
    rw [ensures_bind]
    have hc : Ensures (Dma.Model.process (withSif Q) c) s fun _ s' => Bounded s'.world.1 := by
      by_cases h1 : c = .EE_SIF1
      · subst h1
        exact processSIF1_bounded h fun hno => ⟨h, hr rfl hact hno⟩
      · by_cases h0 : c = .EE_SIF0
        · subst h0
          exact (allows_bounded.process s).mono fun _ s' h' => h' h
        · exact ((allows_eq h0 h1).process s).mono fun _ s' h' => h' ▸ h
    refine hc.mono fun n s₁ h₁ => ?_
    rw [ensures_bind, Dma.Handlers.ensures_channel, Dma.Handlers.ensures_modifyDMAC]
    exact h₁

/-- A step finds room for all the words that it writes: those of SIF1's slice on the EE's side, and
the last word of a packet with its junk on the IOP's. -/
def Roomy (s : State (World E F) V) : Input E F V → Prop
  | .ee a => RoomyEE s a
  | .memory _ _ => True
  | .iop a => RoomyIOP s.world.1 a

theorem step_bounded {s s' : State (World E F) V} {i : Input E F V} (h : Bounded s.world.1)
    (hr : Roomy s i) (hs : Machine.Step P Q s i s') : Bounded s'.world.1 := by
  have hexec : Ensures (i.exec P Q) s fun _ s' => Bounded s'.world.1 := by
    cases i with
    | memory mem w => exact ensures_modify.mpr h
    | iop a =>
      unfold Input.exec
      rw [ensures_ite]
      refine ⟨fun _ => ensures_failure.mpr trivial, fun hask => ?_⟩
      unfold iopStep
      rw [ensures_bind, ensures_get]
      cases hrun : (a.exec P).run s.world.1 with
      | none => exact ensures_failure.mpr trivial
      | some r =>
        have hb := iop_bounded (P := P) h (Bool.eq_false_of_not_eq_true hask) hr _ _ hrun
        dsimp only
        rw [ensures_bind, ensures_modify]
        have hreq := (ignores_eq (E := E) (F := F) (V := V) (Q := Q)).arbitrates.requests
        exact (hreq r.2.toEE _).mono fun _ s' h' => h' ▸ hb.answered
    | ee a =>
      by_cases hc : isControl a = true
      · rw [exec_control hc]
        exact (ignores_eq.control hc s).mono fun _ s' h' => h' ▸ h
      · cases a with
        | serve => exact ee_serve_bounded h hr
        | outside m w => exact ensures_failure.mpr trivial
        | _ => exact absurd rfl hc
  exact hexec () s' hs

theorem init_bounded {s : State (World E F) V} (h : Machine.Init s) : Bounded s.world.1 := by
  obtain ⟨-, ⟨d, hd⟩, h0, h1, -⟩ := h
  refine ⟨hd ▸ arbitrated_reset, by simp [h0], by simp [h1], fun _ => ?_⟩
  rw [h0]
  decide

end DobieStation.Sif.Bound
