import DobieStation.Iop.Model

/-! # What the handlers of the IOP's channels do

Each handler is put together from a few changes of the state. A relation that is reflexive and
transitive and allows these (`Allows`) holds between the states before and after the handler
(`Allows.process`). -/

namespace DobieStation.Iop.Handlers

open DobieStation.Lib.Hoare
open DobieStation.Iop.Model

variable {E : Type} {P : Peripherals E}

/-- The busy bit and the request of a channel are left alone. -/
def KeepsFlags (f : IOP_DMA_Channel → IOP_DMA_Channel) : Prop :=
  ∀ ch, (f ch).control.busy = ch.control.busy ∧ (f ch).dmaReq = ch.dmaReq

/-- The relation allows everything that the handler of channel `c` does to the state. -/
structure Allows (c : Chan) (R : Side E → Side E → Prop) : Prop where
  refl : ∀ s, R s s
  trans : ∀ s s' s'', R s s' → R s' s'' → R s s''
  registers : ∀ (s : Side E) f, KeepsFlags f → R s { s with dma := s.dma.modifyChannel c f }
  request : ∀ (s : Side E) raise, R s { s with dma := s.dma.request c raise }
  endTransfer : ∀ s : Side E, R s { s with dma := s.dma.endTransfer c }
  interrupt : ∀ (s : Side E) dicr irqs,
    R s { s with dma := { s.dma with dicr := dicr }, irqs := irqs }
  outside : ∀ (s : Side E) ram world, R s { s with ram := ram, world := world }
  junk : c = IOP_SIF0 → ∀ (s : Side E) n, R s { s with junkWords := n }
  writeSIF0 : c = IOP_SIF0 → ∀ s word, R s (s.writeSIF0 word)
  readSIF1 : c = IOP_SIF1 → ∀ s w s', s.readSIF1 = some (w, s') → R s s'

namespace Allows

variable {c : Chan} {R : Side E → Side E → Prop} (h : Allows c R)
include h

theorem bind {α β : Type} {m : M E α} {f : α → M E β} (hm : Within R m)
    (hf : ∀ a, Within R (f a)) : Within R (m >>= f) := within_bind h.trans hm hf

theorem pure {α : Type} (a : α) : Within R (Pure.pure a : M E α) := within_pure h.refl a

theorem get : Within R (MonadState.get : M E (Side E)) := within_get h.refl

theorem readChannel (i : Chan) : Within R (channel i : M E IOP_DMA_Channel) :=
  h.bind h.get fun _ => h.pure _

theorem read32 (addr : Word) : Within R (read32 addr : M E Word) :=
  h.bind h.get fun _ => h.pure _

theorem write32 (addr value : Word) : Within R (write32 addr value : M E Unit) :=
  within_modify fun s => h.outside s _ s.world

theorem modifyChannel {f : IOP_DMA_Channel → IOP_DMA_Channel} (hf : KeepsFlags f) :
    Within R (modifyChannel c f : M E Unit) :=
  within_modify fun s => h.registers s f hf

theorem requests (l : List Bool) (s : Side E) :
    R s { s with dma := l.foldl (fun d raise => d.request c raise) s.dma } := by
  induction l generalizing s with
  | nil => exact h.refl s
  | cons raise l ih => exact h.trans _ _ _ (h.request s raise) (ih _)

theorem call {α : Type} (f : Ram → E → Reply E α) : Within R (call c f) :=
  h.bind h.get fun _ => h.bind (within_modify fun s => h.outside s _ _) fun _ =>
    h.bind (within_modify fun s => h.requests _ s) fun _ => h.pure _

theorem transferEnd : Within R (transferEnd c : M E Unit) := by
  refine h.bind (within_modify fun s => h.endTransfer s) fun _ => within_modify fun s => ?_
  dsimp only
  split_ifs
  · exact h.refl s
  · exact h.interrupt s _ _

theorem repeatWhile {body : M E Flow} (hb : Within R body) (n k : ℕ) :
    Within R (repeatWhile body n k) :=
  within_repeatWhile h.refl h.trans hb n k

theorem setChanBlock (value : Word) : Within R (setChanBlock c value : M E Unit) :=
  h.modifyChannel fun _ => ⟨rfl, rfl⟩

theorem advanceSPU : Within R (advanceSPU c : M E Unit) := h.modifyChannel fun _ => ⟨rfl, rfl⟩

theorem transferSPU (spu : SPU E) : Within R (transferSPU c spu) := by
  refine h.bind (h.readChannel c) fun ch => h.bind h.get fun s => ?_
  refine within_ite (fun _ => ?_) fun _ => within_ite (fun _ => ?_) fun _ => ?_
  · exact within_ite (fun _ => h.bind (h.call _) fun _ => h.advanceSPU) fun _ => within_failure
  · refine h.bind (within_ite (fun _ => ?_) fun _ => ?_) fun _ => h.bind h.advanceSPU fun _ =>
      h.modifyChannel fun _ => ⟨rfl, rfl⟩
    · exact h.bind (h.read32 _) fun _ => h.call _
    · exact h.bind (h.call _) fun _ => h.write32 _ _
  · exact h.modifyChannel fun _ => ⟨rfl, rfl⟩

theorem processSPUs (spu : SPU E) : Within R (processSPUs c spu) := by
  refine h.bind (h.transferSPU spu) fun _ => h.bind (h.readChannel c) fun ch =>
    within_ite (fun _ => ?_) fun _ => h.pure _
  exact h.bind (h.modifyChannel fun _ => ⟨rfl, rfl⟩) fun _ =>
    h.bind h.transferEnd fun _ => h.call _

theorem blocksSIO2 {byte : M E Flow} (hb : Within R byte) : Within R (blocksSIO2 c byte) :=
  h.bind (h.readChannel c) fun _ => h.bind (h.repeatWhile hb _ _) fun _ =>
    h.bind (h.modifyChannel fun _ => ⟨rfl, rfl⟩) fun _ => h.transferEnd

theorem advanceByte : Within R (advanceByte c : M E Unit) := h.modifyChannel fun _ => ⟨rfl, rfl⟩

end Allows

variable {R : Side E → Side E → Prop}

theorem processCDVD_within (h : Allows IOP_CDVD R) : Within R (processCDVD P) := by
  refine h.bind (h.readChannel _) fun ch => h.bind (h.call _) fun n =>
    within_ite (fun _ => ?_) fun _ => h.modifyChannel fun _ => ⟨rfl, rfl⟩
  exact h.bind h.transferEnd fun _ => h.setChanBlock _

theorem processSIF0_within (h : Allows IOP_SIF0 R) (stack : Fin 4 → Word) :
    Within R (processSIF0 stack) := by
  have hwrite (word : Word) : Within R (writeSIF0 word) :=
    within_modify fun s => h.writeSIF0 rfl s word
  have hjunk (n : ℕ) : Within R (sendSIF0Junk stack n) := by
    refine within_modify fun s => ?_
    unfold Side.sendSIF0Junk
    dsimp only
    generalize (List.finRange 4).drop (4 - n) = l
    generalize Function.update stack _ _ = temp
    induction l generalizing s with
    | nil => exact h.refl s
    | cons i l ih => exact h.trans _ _ _ (h.writeSIF0 rfl s _) (ih _)
  have hword : Within R (wordSIF0 stack) := by
    refine h.bind (h.readChannel _) fun _ => h.bind (h.read32 _) fun _ => h.bind (hwrite _) fun _ =>
      h.bind (h.modifyChannel fun _ => ⟨rfl, rfl⟩) fun _ => h.bind (h.readChannel _) fun _ =>
        within_ite (fun _ => ?_) fun _ => h.pure _
    exact h.bind h.get fun _ => h.bind (hjunk _) fun _ =>
      within_ite (fun _ => h.transferEnd) fun _ => h.pure _
  have htag : Within R (tagSIF0 : M E Unit) := by
    refine h.bind (h.readChannel _) fun _ => h.bind (h.read32 _) fun _ => h.bind (h.read32 _) fun _ =>
      h.bind (h.read32 _) fun _ => h.bind (hwrite _) fun _ => h.bind (h.read32 _) fun _ =>
        h.bind (hwrite _) fun _ => h.bind (h.modifyChannel fun _ => ⟨rfl, rfl⟩) fun _ => ?_
    exact within_modify fun s => h.junk rfl s _
  exact h.bind (h.readChannel _) fun _ => within_ite (fun _ => hword) fun _ =>
    h.bind h.get fun _ => within_ite (fun _ => htag) fun _ => h.pure _

theorem processSIF1_within (h : Allows IOP_SIF1 R) : Within R (processSIF1 : M E Unit) := by
  have hread : Within R (readSIF1 : M E Word) := fun s w s' hr => h.readSIF1 rfl s w s' hr
  have hword : Within R (wordSIF1 : M E Unit) :=
    h.bind hread fun _ => h.bind (h.readChannel _) fun _ => h.bind (h.write32 _ _) fun _ =>
      h.bind (h.modifyChannel fun _ => ⟨rfl, rfl⟩) fun _ => h.bind (h.readChannel _) fun _ =>
        within_ite (fun _ => h.transferEnd) fun _ => h.pure _
  have htag : Within R (tagSIF1 : M E Unit) :=
    h.bind hread fun _ => h.bind hread fun _ => h.bind hread fun _ => h.bind hread fun _ =>
      h.modifyChannel fun _ => ⟨rfl, rfl⟩
  exact h.bind (h.readChannel _) fun _ => within_ite (fun _ => hword) fun _ =>
    h.bind h.get fun _ => within_ite (fun _ => htag) fun _ => h.pure _

theorem processSIO2in_within (h : Allows IOP_SIO2in R) : Within R (processSIO2in P) := by
  refine h.bind (h.call _) fun _ => h.blocksSIO2 ?_
  exact h.bind (h.readChannel _) fun _ => h.bind (h.bind h.get fun _ => h.pure _) fun _ =>
    h.bind (h.call _) fun _ => h.bind h.advanceByte fun _ => h.pure _

theorem processSIO2out_within (h : Allows IOP_SIO2out R) : Within R (processSIO2out P) := by
  refine h.blocksSIO2 ?_
  exact h.bind (h.call _) fun _ => h.bind (h.readChannel _) fun _ =>
    h.bind (within_modify fun s => h.outside s _ s.world) fun _ =>
      h.bind h.advanceByte fun _ => h.pure _

theorem Allows.process {c : Chan} (h : Allows c R) (stack : Fin 4 → Word) :
    Within R (process P stack c) := by
  have hc {i : Chan} (hn : c.val = i.val) : Allows i R := Fin.eq_of_val_eq hn ▸ h
  unfold Model.process
  split
  case h_1 hn => exact processCDVD_within (hc hn)
  case h_2 hn => exact Allows.processSPUs (hc hn) _
  case h_3 hn => exact Allows.processSPUs (hc hn) _
  case h_4 hn => exact processSIF0_within (hc hn) stack
  case h_5 hn => exact processSIF1_within (hc hn)
  case h_6 hn => exact processSIO2in_within (hc hn)
  case h_7 hn => exact processSIO2out_within (hc hn)
  case h_8 => exact within_failure

end DobieStation.Iop.Handlers
