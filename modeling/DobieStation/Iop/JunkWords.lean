import DobieStation.Iop.Arbiter
import DobieStation.Lib.Relational

/-! # Runs that differ in `junk_words`

The static variable of `process_SIF0` is set when a tag is read and looked at after the last word of
its packet. Two sides that differ only in it, while no word of a packet is left, go on in
lockstep. -/

namespace DobieStation.Iop.JunkWords

open DobieStation.Lib.Hoare DobieStation.Lib.Relational
open DobieStation.Iop.Model DobieStation.Iop.Model.IOP_DMA DobieStation.Iop.Arbiter

variable {E : Type} {P : Peripherals E}

/-- The words that are left of the packet of SIF0. -/
def wordsLeft (d : IOP_DMA) : Word := (d.channels IOP_SIF0).wordCount

/-- The same but for `junkWords`, which is the same too while words of a packet are left. -/
def Same (s s' : Side E) : Prop :=
  ∃ n, s' = { s with junkWords := n } ∧ (n = s.junkWords ∨ wordsLeft s.dma = 0)

theorem same_refl (s : Side E) : Same s s := ⟨_, rfl, Or.inl rfl⟩

/-- `f` does not look at `junkWords`, and leaves the words of the packet. -/
structure Blind (f : Side E → Side E) : Prop where
  comm : ∀ s n, f { s with junkWords := n } = { f s with junkWords := n }
  junk : ∀ s, (f s).junkWords = s.junkWords
  words : ∀ s, wordsLeft (f s).dma = wordsLeft s.dma

theorem Blind.lockstep {f : Side E → Side E} (h : Blind f) :
    Lockstep Same (modify f : M E Unit) := by
  refine lockstep_modify ?_
  rintro s _ ⟨n, rfl, hn⟩
  refine ⟨n, h.comm s n, ?_⟩
  rw [h.junk, h.words]
  exact hn

theorem lockstep_channel (i : Chan) : Lockstep Same (channel i : M E IOP_DMA_Channel) := by
  refine lockstep_reads ?_
  rintro s _ ⟨n, rfl, -⟩
  rfl

theorem lockstep_read32 (addr : Word) : Lockstep Same (read32 addr : M E Word) := by
  refine lockstep_reads ?_
  rintro s _ ⟨n, rfl, -⟩
  rfl

theorem lockstep_read8 (addr : Word) : Lockstep Same (read8 addr : M E (BitVec 8)) := by
  refine lockstep_reads ?_
  rintro s _ ⟨n, rfl, -⟩
  rfl

theorem lockstep_write32 (addr value : Word) : Lockstep Same (write32 addr value : M E Unit) :=
  Blind.lockstep ⟨fun _ _ => rfl, fun _ => rfl, fun _ => rfl⟩

theorem lockstep_modifyDMA {f : IOP_DMA → IOP_DMA} (hf : ∀ d, wordsLeft (f d) = wordsLeft d) :
    Lockstep Same (modifyDMA f : M E Unit) :=
  Blind.lockstep ⟨fun _ _ => rfl, fun _ => rfl, fun s => hf s.dma⟩

theorem lockstep_channels {f : IOP_DMA → IOP_DMA} (hf : ∀ d, (f d).channels = d.channels) :
    Lockstep Same (modifyDMA f : M E Unit) :=
  lockstep_modifyDMA fun d => by rw [wordsLeft, hf, wordsLeft]

/-! ### What the handlers are made of -/

theorem wordsLeft_modifyChannel {d : IOP_DMA} {i : Chan} {f : IOP_DMA_Channel → IOP_DMA_Channel}
    (h : i ≠ IOP_SIF0 ∨ ∀ ch, (f ch).wordCount = ch.wordCount) :
    wordsLeft (d.modifyChannel i f) = wordsLeft d := by
  unfold wordsLeft
  rw [channels_modifyChannel]
  rcases eq_or_ne i IOP_SIF0 with rfl | hi
  · rw [Function.update_self]
    rcases h with h | h
    · exact absurd rfl h
    · exact h _
  · rw [Function.update_of_ne (Ne.symm hi)]

theorem wordsLeft_setDMARequest (d : IOP_DMA) (i : Chan) :
    wordsLeft (d.setDMARequest i) = wordsLeft d := by
  rw [wordsLeft, channels_setDMARequest]
  exact wordsLeft_modifyChannel (Or.inr fun _ => rfl)

theorem wordsLeft_clearDMARequest (d : IOP_DMA) (i : Chan) :
    wordsLeft (d.clearDMARequest i) = wordsLeft d := by
  rw [wordsLeft, channels_clearDMARequest]
  exact wordsLeft_modifyChannel (Or.inr fun _ => rfl)

theorem wordsLeft_endTransfer (d : IOP_DMA) (i : Chan) :
    wordsLeft (d.endTransfer i) = wordsLeft d := by
  rw [wordsLeft, channels_endTransfer]
  exact wordsLeft_modifyChannel (Or.inr fun _ => rfl)

theorem wordsLeft_requests (i : Chan) (l : List Bool) (d : IOP_DMA) :
    wordsLeft (l.foldl (fun d raise => d.request i raise) d) = wordsLeft d := by
  induction l generalizing d with
  | nil => rfl
  | cons raise l ih =>
    rw [List.foldl_cons, ih]
    unfold request
    split_ifs
    · exact wordsLeft_setDMARequest d i
    · exact wordsLeft_clearDMARequest d i

theorem lockstep_call {α : Type} (i : Chan) (f : Ram → E → Reply E α) :
    Lockstep Same (call i f) := by
  refine lockstep_get_bind ?_ fun s => lockstep_bind ?_ fun _ => lockstep_bind ?_ fun _ =>
    lockstep_pure _
  · rintro s _ ⟨n, rfl, -⟩
    rfl
  · exact Blind.lockstep ⟨fun _ _ => rfl, fun _ => rfl, fun _ => rfl⟩
  · exact lockstep_modifyDMA (wordsLeft_requests i _)

theorem lockstep_modifyChannel {i : Chan} {f : IOP_DMA_Channel → IOP_DMA_Channel}
    (h : i ≠ IOP_SIF0 ∨ ∀ ch, (f ch).wordCount = ch.wordCount) :
    Lockstep Same (modifyChannel i f : M E Unit) :=
  lockstep_modifyDMA fun _ => wordsLeft_modifyChannel h

theorem lockstep_transferEnd (i : Chan) : Lockstep Same (transferEnd i : M E Unit) := by
  refine lockstep_bind (lockstep_modifyDMA fun d => wordsLeft_endTransfer d i) fun _ =>
    Blind.lockstep ⟨fun s n => ?_, fun s => ?_, fun s => ?_⟩
  all_goals
    dsimp only
    split_ifs <;> rfl

/-! ### The handlers of the other channels -/

section
variable {i : Chan} (hi : i ≠ IOP_SIF0)
include hi

theorem lockstep_transferSPU (spu : SPU E) : Lockstep Same (transferSPU i spu) := by
  refine lockstep_bind (lockstep_channel i) fun ch => lockstep_get_bind ?_ fun s =>
    lockstep_ite (fun _ => ?_) fun _ => lockstep_ite (fun _ => ?_) fun _ => ?_
  · rintro s _ ⟨n, rfl, -⟩
    rfl
  · refine lockstep_ite (fun _ => ?_) fun _ => lockstep_failure
    exact lockstep_bind (lockstep_call i _) fun _ => lockstep_modifyChannel (Or.inl hi)
  · refine lockstep_bind (lockstep_ite (fun _ => ?_) fun _ => ?_) fun _ =>
      lockstep_bind (lockstep_modifyChannel (Or.inl hi)) fun _ => lockstep_modifyChannel (Or.inl hi)
    · exact lockstep_bind (lockstep_read32 _) fun _ => lockstep_call i _
    · exact lockstep_bind (lockstep_call i _) fun _ => lockstep_write32 _ _
  · exact lockstep_modifyChannel (Or.inl hi)

theorem lockstep_processSPUs (spu : SPU E) : Lockstep Same (processSPUs i spu) := by
  refine lockstep_bind (lockstep_transferSPU hi spu) fun _ => lockstep_bind (lockstep_channel i)
    fun ch => lockstep_ite (fun _ => ?_) fun _ => lockstep_pure _
  exact lockstep_bind (lockstep_modifyChannel (Or.inl hi)) fun _ =>
    lockstep_bind (lockstep_transferEnd i) fun _ => lockstep_call i _

theorem lockstep_blocksSIO2 {byte : M E Flow} (hb : Lockstep Same byte) :
    Lockstep Same (blocksSIO2 i byte) :=
  lockstep_bind (lockstep_channel i) fun _ => lockstep_bind (lockstep_repeatWhile hb _ _) fun _ =>
    lockstep_bind (lockstep_modifyChannel (Or.inl hi)) fun _ => lockstep_transferEnd i

end

theorem lockstep_processCDVD : Lockstep Same (processCDVD P) := by
  have hi : IOP_CDVD ≠ IOP_SIF0 := by decide
  refine lockstep_bind (lockstep_channel _) fun ch => lockstep_bind (lockstep_call _ _) fun n =>
    lockstep_ite (fun _ => ?_) fun _ => lockstep_modifyChannel (Or.inl hi)
  exact lockstep_bind (lockstep_transferEnd _) fun _ => lockstep_modifyChannel (Or.inl hi)

theorem lockstep_readSIF1 : Lockstep Same (readSIF1 : M E Word) := by
  rintro s _ ⟨n, rfl, hn⟩
  change Alike Same (s.readSIF1) (({ s with junkWords := n } : Side E).readSIF1)
  unfold Side.readSIF1
  dsimp only
  split
  · exact .none
  · refine alike_some ⟨n, rfl, ?_⟩
    dsimp only
    split_ifs
    · rw [wordsLeft_clearDMARequest]
      exact hn
    · exact hn

theorem lockstep_processSIF1 : Lockstep Same (processSIF1 : M E Unit) := by
  have hi : IOP_SIF1 ≠ IOP_SIF0 := by decide
  have hread := lockstep_readSIF1 (E := E)
  have hword : Lockstep Same (wordSIF1 : M E Unit) :=
    lockstep_bind hread fun _ => lockstep_bind (lockstep_channel _) fun _ =>
      lockstep_bind (lockstep_write32 _ _) fun _ =>
        lockstep_bind (lockstep_modifyChannel (Or.inl hi)) fun _ =>
          lockstep_bind (lockstep_channel _) fun _ =>
            lockstep_ite (fun _ => lockstep_transferEnd _) fun _ => lockstep_pure _
  have htag : Lockstep Same (tagSIF1 : M E Unit) :=
    lockstep_bind hread fun _ => lockstep_bind hread fun _ => lockstep_bind hread fun _ =>
      lockstep_bind hread fun _ => lockstep_modifyChannel (Or.inl hi)
  refine lockstep_bind (lockstep_channel _) fun _ => lockstep_ite (fun _ => hword) fun _ =>
    lockstep_get_bind ?_ fun _ => lockstep_ite (fun _ => htag) fun _ => lockstep_pure _
  rintro s _ ⟨n, rfl, -⟩
  rfl

theorem lockstep_processSIO2in : Lockstep Same (processSIO2in P) := by
  have hi : IOP_SIO2in ≠ IOP_SIF0 := by decide
  refine lockstep_bind (lockstep_call _ _) fun _ => lockstep_blocksSIO2 hi ?_
  exact lockstep_bind (lockstep_channel _) fun _ => lockstep_bind (lockstep_read8 _) fun _ =>
    lockstep_bind (lockstep_call _ _) fun _ =>
      lockstep_bind (lockstep_modifyChannel (Or.inl hi)) fun _ => lockstep_pure _

theorem lockstep_processSIO2out : Lockstep Same (processSIO2out P) := by
  have hi : IOP_SIO2out ≠ IOP_SIF0 := by decide
  refine lockstep_blocksSIO2 hi ?_
  refine lockstep_bind (lockstep_call _ _) fun _ => lockstep_bind (lockstep_channel _) fun _ =>
    lockstep_bind ?_ fun _ => lockstep_bind (lockstep_modifyChannel (Or.inl hi)) fun _ =>
      lockstep_pure _
  exact Blind.lockstep ⟨fun _ _ => rfl, fun _ => rfl, fun _ => rfl⟩

/-! ### SIF0 -/

theorem lockstep_writeSIF0 (word : Word) : Lockstep Same (writeSIF0 word : M E Unit) := by
  refine Blind.lockstep ⟨fun _ _ => rfl, fun _ => rfl, fun s => ?_⟩
  unfold Side.writeSIF0 Side.pushSIF0
  dsimp only
  split_ifs
  · exact wordsLeft_clearDMARequest _ _
  · rfl

/-- After a tag both have the same junk, whatever they had before. -/
theorem lockstep_tagSIF0 : Lockstep Same (tagSIF0 : M E Unit) := by
  refine lockstep_bind (lockstep_channel _) fun ch => lockstep_bind (lockstep_read32 _) fun data =>
    lockstep_bind (lockstep_read32 _) fun words => lockstep_bind (lockstep_read32 _) fun _ =>
      lockstep_bind (lockstep_writeSIF0 _) fun _ => lockstep_bind (lockstep_read32 _) fun _ =>
        lockstep_bind (lockstep_writeSIF0 _) fun _ => ?_
  rintro s _ ⟨n, rfl, -⟩
  exact alike_some (same_refl _)

/-- The handler of SIF0 where no word of a packet is left. -/
theorem processSIF0_run {s : Side E} (stack : Fin 4 → Word) (hw : wordsLeft s.dma = 0) :
    (processSIF0 stack).run s = (do
      if (← get).sif.SIF0_FIFO.length ≤ MAX_FIFO_SIZE - 2 then tagSIF0 : M E Unit).run s := by
  unfold processSIF0 channel
  simp only [bind_assoc, pure_bind]
  rw [StateT.run_bind, StateT.run_get]
  change (ite _ _ _ : M E Unit).run s = _
  have hnot : ¬ (s.dma.channels IOP_SIF0).wordCount ≠ 0 := not_not.mpr hw
  rw [if_neg hnot]

theorem lockstep_processSIF0 (stack : Fin 4 → Word) :
    Lockstep Same (processSIF0 stack : M E Unit) := by
  rintro s _ ⟨n, rfl, hn⟩
  by_cases hw : wordsLeft s.dma = 0
  · rw [processSIF0_run stack hw, processSIF0_run stack (s := { s with junkWords := n }) hw]
    refine lockstep_get_bind ?_ (fun _ => lockstep_ite (fun _ => lockstep_tagSIF0) fun _ =>
      lockstep_pure _) s _ ⟨n, rfl, hn⟩
    rintro s _ ⟨n, rfl, -⟩
    rfl
  · obtain rfl : n = s.junkWords := hn.resolve_right hw
    exact alike_refl same_refl _

/-! ### All steps -/

theorem lockstep_process (stack : Fin 4 → Word) (i : Chan) :
    Lockstep Same (process P stack i) := by
  have h4 : IOP_SPU ≠ IOP_SIF0 := by decide
  have h8 : IOP_SPU2 ≠ IOP_SIF0 := by decide
  unfold process
  split
  · exact lockstep_processCDVD
  · exact lockstep_processSPUs h4 _
  · exact lockstep_processSPUs h8 _
  · exact lockstep_processSIF0 stack
  · exact lockstep_processSIF1
  · exact lockstep_processSIO2in
  · exact lockstep_processSIO2out
  · exact lockstep_failure

theorem lockstep_setChanControl (i : Chan) (value : Word) :
    Lockstep Same (setChanControl P i value) := by
  have hkeep {f : IOP_DMA_Channel → IOP_DMA_Channel} (hf : ∀ ch, (f ch).wordCount = ch.wordCount) :
      Lockstep Same (modifyChannel i f : M E Unit) := lockstep_modifyChannel (Or.inr hf)
  have hworld (f : E → E) :
      Lockstep Same (modify fun s => { s with world := f s.world } : M E Unit) :=
    Blind.lockstep ⟨fun _ _ => rfl, fun _ => rfl, fun _ => rfl⟩
  have hstart : Lockstep Same (startChannel P i) := by
    unfold startChannel
    split
    · exact lockstep_pure _
    · exact lockstep_bind (lockstep_channel i) fun _ => lockstep_bind (hworld _) fun _ =>
        hkeep fun _ => rfl
  have hpause : Lockstep Same (pauseChannel P i) := by
    unfold pauseChannel
    split
    · exact lockstep_pure _
    · exact hworld _
  refine lockstep_bind (lockstep_channel i) fun ch => lockstep_bind (hkeep fun _ => rfl) fun _ =>
    lockstep_bind (lockstep_bind (lockstep_channel i) fun _ => ?_) fun _ => hkeep fun _ => rfl
  refine lockstep_ite (fun _ => ?_) fun _ => lockstep_ite (fun _ => ?_) fun _ => lockstep_pure _
  · exact lockstep_bind hstart fun _ => lockstep_channels fun _ => channels_activeDmaCheck
  · exact lockstep_bind (lockstep_channels fun _ => channels_deactivateDma) fun _ => hpause

/-- A step that does not write the count of words of SIF0's channel. -/
def LeavesSIF0 : Act E → Prop
  | .setChanBlock i _ => i ≠ IOP_SIF0
  | .setChanCount i _ => i ≠ IOP_SIF0
  | _ => True

/-- **Every step keeps the two sides alike.** -/
theorem lockstep_exec {a : Act E} (ha : LeavesSIF0 a) : Lockstep Same (a.exec P) := by
  have hkeep {i : Chan} {f : IOP_DMA_Channel → IOP_DMA_Channel}
      (hf : ∀ ch, (f ch).wordCount = ch.wordCount) : Lockstep Same (modifyChannel i f : M E Unit) :=
    lockstep_modifyChannel (Or.inr hf)
  cases a with
  | setDMARequest i => exact lockstep_modifyDMA fun d => wordsLeft_setDMARequest d i
  | clearDMARequest i => exact lockstep_modifyDMA fun d => wordsLeft_clearDMARequest d i
  | setChanControl i v => exact lockstep_setChanControl i v
  | setChanAddr i v => exact hkeep fun _ => rfl
  | setChanBlock i v => exact lockstep_modifyChannel (Or.inl ha)
  | setChanSize i v => exact hkeep fun _ => rfl
  | setChanCount i v => exact lockstep_modifyChannel (Or.inl ha)
  | setChanTagAddr i v => exact hkeep fun _ => rfl
  | setEnable second v =>
    unfold Act.exec setEnable
    refine lockstep_modifyDMA fun d => ?_
    unfold wordsLeft
    dsimp only
    split_ifs <;> rfl
  | setDICR second v => exact Blind.lockstep ⟨fun _ _ => rfl, fun _ => rfl, fun _ => rfl⟩
  | serve stack =>
    refine lockstep_get_bind ?_ fun s => ?_
    · rintro s _ ⟨n, rfl, -⟩
      rfl
    · split
      · exact lockstep_failure
      · exact lockstep_process stack _
  | outside ram world => exact Blind.lockstep ⟨fun _ _ => rfl, fun _ => rfl, fun _ => rfl⟩

end DobieStation.Iop.JunkWords
