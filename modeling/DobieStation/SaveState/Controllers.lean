import DobieStation.Dma.Arbiter
import DobieStation.Iop.JunkWords
import DobieStation.Lib.Serial
import Mathlib.Data.List.Perm.Subperm

/-! # The saved states of the two DMA controllers

`DMAC` and `IOP_DMA` in `serialize.cpp`. The arrays of channels are written as a whole; what a
channel has for a handler is set again after they are read. A pointer to a channel is written as its
index. The static variable of `process_SIF0` is in no file: whoever loads a state has its own. -/

namespace DobieStation.SaveState.Controllers

open DobieStation.Lib.Serial DobieStation.Lib.Reach DobieStation.Lib.Hoare
open DobieStation.Lib.Relational

/-! ### The controller of the EE -/

namespace EE

open DobieStation.Dma.Model

def allChannels : List Channel :=
  [.VIF0, .VIF1, .GIF, .IPU_FROM, .IPU_TO, .EE_SIF0, .EE_SIF1, .EE_SIF2, .SPR_FROM, .SPR_TO]

theorem mem_allChannels (c : Channel) : c ∈ allChannels := by cases c <;> decide

instance : Inhabited DMAChannel := ⟨blank.channels .VIF0⟩

instance : Image DMAChannel :=
  Image.ofLeftInverse
    (fun ch : DMAChannel => (ch.control, ch.address, ch.quadwordCount, ch.tagAddress, ch.tagSave0,
      ch.tagSave1, ch.scratchpadAddress, ch.tagEnd, ch.interleavedQwc, ch.tagId, ch.started,
      ch.canStallDrain, ch.hasDmaStalled, ch.dmaReq, ch.isSpr))
    (fun ⟨control, address, quadwordCount, tagAddress, tagSave0, tagSave1, scratchpadAddress,
      tagEnd, interleavedQwc, tagId, started, canStallDrain, hasDmaStalled, dmaReq, isSpr⟩ =>
      ⟨control, address, quadwordCount, tagAddress, tagSave0, tagSave1, scratchpadAddress,
        tagEnd, interleavedQwc, tagId, started, canStallDrain, hasDmaStalled, dmaReq, isSpr⟩)
    fun _ => rfl

instance : Image (Channel → DMAChannel) := Image.array allChannels mem_allChannels

instance : Image DCtrl :=
  Image.ofLeftInverse
    (fun c : DCtrl => (c.masterEnable, c.cycleStealing, c.memDrainChannel, c.stallSourceChannel,
      c.stallDestChannel, c.releaseCycle))
    (fun ⟨masterEnable, cycleStealing, memDrainChannel, stallSourceChannel, stallDestChannel,
      releaseCycle⟩ =>
      ⟨masterEnable, cycleStealing, memDrainChannel, stallSourceChannel, stallDestChannel,
        releaseCycle⟩)
    fun _ => rfl

/-- `c->index`, as an `int`. -/
def indexOf (c : Channel) : BitVec 32 := BitVec.ofNat 32 c.index.val

/-- `&channels[index]`. -/
def channelAt (index : BitVec 32) : Option Channel := allChannels.find? fun c => indexOf c = index

theorem channelAt_indexOf (c : Channel) : channelAt (indexOf c) = some c := by
  cases c <;> decide

def save_state (d : DMAC) : File :=
  write d.channels ++ write d.control ++ write d.channelStat ++ write d.channelMask ++
  write d.PCR ++ write d.RBOR ++ write d.RBSR ++ write d.skipQwc ++ write d.transferQwc ++
  write d.STADR ++ write d.mfifoEmptyTriggered ++ write d.cyclesToRun ++ write d.masterDisable ++
  write (match d.activeChannel with
    | some c => indexOf c
    | none => BitVec.ofInt 32 (-1)) ++
  writeLength d.queuedChannels.length ++
  writeAll (d.queuedChannels.map indexOf)

/-- The channel of an index, if it is not negative. -/
def activeAt (index : BitVec 32) : Load (Option Channel) :=
  if 0 ≤ index.toInt then do
    let c ← (channelAt index : Option Channel)
    return some c
  else return none

def load_state (d : DMAC) : Load DMAC := do
  let channels ← read
  let control ← read
  let channelStat ← read
  let channelMask ← read
  let PCR ← read
  let RBOR ← read
  let RBSR ← read
  let skipQwc ← read
  let transferQwc ← read
  let STADR ← read
  let mfifoEmptyTriggered ← read
  let cyclesToRun ← read
  let masterDisable ← read
  let index : BitVec 32 ← read
  let activeChannel ← activeAt index
  let queued_size ← readLength
  let indices ← readAll queued_size
  let queued ← (indices.mapM channelAt : Option (List Channel))
  return { d with
    channels, control, channelStat, channelMask, PCR, RBOR, RBSR, skipQwc, transferQwc, STADR,
    mfifoEmptyTriggered, cyclesToRun, masterDisable, activeChannel
    queuedChannels := d.queuedChannels ++ queued }

theorem mapM_channelAt (l : List Channel) : (l.map indexOf).mapM channelAt = some l := by
  induction l with
  | nil => rfl
  | cons c l ih =>
    rw [List.map_cons, List.mapM_cons, channelAt_indexOf, ih]
    rfl

theorem run_activeAt (active : Option Channel) (rest : File) :
    (activeAt (match active with
      | some c => indexOf c
      | none => BitVec.ofInt 32 (-1))).run rest = some (active, rest) := by
  cases active with
  | none => rfl
  | some c =>
    have hpos : 0 ≤ (indexOf c).toInt := by cases c <;> decide
    unfold activeAt
    dsimp only
    rw [if_pos hpos, channelAt_indexOf]
    rfl

/-- **What is saved is what is loaded**, if the queue's length is an `int`. -/
theorem load_save {d r : DMAC} (hr : r.queuedChannels = [])
    (hlen : d.queuedChannels.length < 2 ^ 31) (rest : File) :
    (load_state r).run (save_state d ++ rest) = some (d, rest) := by
  have hmap : (d.queuedChannels.map indexOf).length = d.queuedChannels.length := List.length_map _
  unfold load_state save_state
  simp only [List.append_assoc, run_read_bind]
  rw [StateT.run_bind, run_activeAt]
  simp only [Option.bind_eq_bind, Option.bind_some]
  rw [run_readLength_bind _ hlen, ← hmap, run_readAll_bind, mapM_channelAt, hr]
  rfl

end EE

/-! ### The controller of the IOP -/

namespace IOP

open DobieStation.Iop.Model

instance : Inhabited IOP_DMA_Channel := ⟨blank.channels IOP_SIF0⟩

instance : Inhabited DICR := ⟨⟨false, 0, 0, false⟩⟩

instance : Image ChanControl :=
  Image.ofLeftInverse
    (fun c : ChanControl => (c.directionFrom, c.unk8, c.syncMode, c.busy, c.unk30))
    (fun ⟨directionFrom, unk8, syncMode, busy, unk30⟩ =>
      ⟨directionFrom, unk8, syncMode, busy, unk30⟩)
    fun _ => rfl

instance : Image IOP_DMA_Channel :=
  Image.ofLeftInverse
    (fun ch : IOP_DMA_Channel => (ch.addr, ch.wordCount, ch.size, ch.blockSize, ch.control,
      ch.tagAddr, ch.tagEnd, ch.dmaReq, ch.delay))
    (fun ⟨addr, wordCount, size, blockSize, control, tagAddr, tagEnd, dmaReq, delay⟩ =>
      ⟨addr, wordCount, size, blockSize, control, tagAddr, tagEnd, dmaReq, delay⟩)
    fun _ => rfl

instance : Image DICR :=
  Image.ofLeftInverse
    (fun r : DICR => (r.forceIRQ, r.stat, r.mask, r.masterIntEnable))
    (fun ⟨forceIRQ, stat, mask, masterIntEnable⟩ => ⟨forceIRQ, stat, mask, masterIntEnable⟩)
    fun _ => rfl

instance : Image (Bool → DICR) := Image.array [false, true] (by decide)

def indexOf (i : Chan) : BitVec 32 := BitVec.ofNat 32 i.val

def channelAt (index : BitVec 32) : Option Chan := (List.finRange 16).find? fun i => indexOf i = index

theorem channelAt_indexOf (i : Chan) : channelAt (indexOf i) = some i := by
  revert i
  decide

def save_state (d : IOP_DMA) : File :=
  write d.channels ++
  write (match d.activeChannel with
    | some i => indexOf i + 1
    | none => 0) ++
  writeLength d.queuedChannels.length ++ writeAll (d.queuedChannels.map indexOf) ++
  write d.enable ++ write d.dicr

/-- The channel of an index that counts from 1. -/
def activeAt (active_index : BitVec 32) : Load (Option Chan) :=
  if active_index ≠ 0 then do
    let i ← (channelAt (active_index - 1) : Option Chan)
    return some i
  else return none

def load_state (d : IOP_DMA) : Load IOP_DMA := do
  let channels ← read
  let active_index : BitVec 32 ← read
  let activeChannel ← activeAt active_index
  let queued_size ← readLength
  let indices ← readAll queued_size
  let queued ← (indices.mapM channelAt : Option (List Chan))
  let enable ← read
  let dicr ← read
  return { d with
    channels, activeChannel, enable, dicr
    queuedChannels := d.queuedChannels ++ queued }

theorem mapM_channelAt (l : List Chan) : (l.map indexOf).mapM channelAt = some l := by
  induction l with
  | nil => rfl
  | cons i l ih =>
    rw [List.map_cons, List.mapM_cons, channelAt_indexOf, ih]
    rfl

theorem run_activeAt (active : Option Chan) (rest : File) :
    (activeAt (match active with
      | some i => indexOf i + 1
      | none => 0)).run rest = some (active, rest) := by
  cases active with
  | none => rfl
  | some i =>
    have hne : indexOf i + 1 ≠ 0 := by
      revert i
      decide
    have hsub : indexOf i + 1 - 1 = indexOf i := BitVec.add_sub_cancel _ _
    unfold activeAt
    dsimp only
    rw [if_pos hne, hsub, channelAt_indexOf]
    rfl

theorem load_save {d r : IOP_DMA} (hr : r.queuedChannels = [])
    (hlen : d.queuedChannels.length < 2 ^ 31) (rest : File) :
    (load_state r).run (save_state d ++ rest) = some (d, rest) := by
  have hmap : (d.queuedChannels.map indexOf).length = d.queuedChannels.length := List.length_map _
  unfold load_state save_state
  simp only [List.append_assoc, run_read_bind]
  rw [StateT.run_bind, run_activeAt]
  simp only [Option.bind_eq_bind, Option.bind_some]
  rw [run_readLength_bind _ hlen, ← hmap, run_readAll_bind, mapM_channelAt, hr]
  simp only [run_some_bind, run_read_bind]
  rfl

end IOP

/-! ### Both -/

section
open DobieStation.Iop.JunkWords

variable {W V E : Type}

/-- What was saved of `s` and `t` is loaded after a reset of controllers that were `d` and `d'`, in a
process whose `junk_words` is `junk`: the controllers are those of `s` and `t`, and all steps that
follow do what they would have done. -/
def Restored (P : Dma.Model.Peripherals W V) (Q : Iop.Model.Peripherals E)
    (s : Dma.Model.State W V) (t : Iop.Model.Side E) (d : Dma.Model.DMAC) (d' : Iop.Model.IOP_DMA)
    (junk : ℕ) (rest : File) : Prop :=
  ∃ dmac dma,
    (EE.load_state (Dma.Model.reset d)).run (EE.save_state s.dmac ++ rest) = some (dmac, rest) ∧
    (IOP.load_state (Iop.Model.reset d')).run (IOP.save_state t.dma ++ rest) = some (dma, rest) ∧
    dmac = s.dmac ∧ dma = t.dma ∧
    (∀ as : List (Dma.Model.Action W V), as.foldlM (Dma.Model.next P) { s with dmac := dmac } =
      as.foldlM (Dma.Model.next P) s) ∧
    ∀ as : List (Iop.Model.Act E), (∀ a ∈ as, LeavesSIF0 a) →
      Option.Rel Same (as.foldlM (Iop.Model.next Q) t)
        (as.foldlM (Iop.Model.next Q) { t with dma := dma, junkWords := junk })

variable {P : Dma.Model.Peripherals W V} {Q : Iop.Model.Peripherals E}

/-- The length of a queue without repetition is an `int`. -/
theorem length_lt_of_nodup {α : Type} {l l' : List α} (h : (l' ++ l).Nodup) (all : List α)
    (hall : ∀ x, x ∈ all) (hlen : all.length < 2 ^ 31) : l.length < 2 ^ 31 :=
  ((List.nodup_append.mp h).2.1.subperm fun x _ => hall x).length_le.trans_lt hlen

/-- **The controllers are restored**, if the process that loads them has the same `junk_words` or no
word of a packet is left. -/
theorem controllers_restored {s : Dma.Model.State W V} {t : Iop.Model.Side E}
    (hs : Reaches Dma.Model.Init (Dma.Model.Step P) s)
    (ht : Reaches Iop.Model.Init (Iop.Model.Step Q) t) (d : Dma.Model.DMAC)
    (d' : Iop.Model.IOP_DMA) (junk : ℕ) (hjunk : junk = t.junkWords ∨ wordsLeft t.dma = 0)
    (rest : File) : Restored P Q s t d d' junk rest := by
  have hee := length_lt_of_nodup (Dma.Arbiter.arbiter_exact hs).1 _ EE.mem_allChannels (by decide)
  have hiop := length_lt_of_nodup (Iop.Arbiter.arbiter_sound ht).1 _ List.mem_finRange (by decide)
  have hempty : (Iop.Model.reset d').queuedChannels = [] := rfl
  refine ⟨_, _, EE.load_save rfl hee rest, IOP.load_save hempty hiop rest, rfl, rfl,
    fun as => rfl, fun as has => ?_⟩
  exact lockstep_foldlM (fun a ha => lockstep_exec (has a ha)) ⟨junk, rfl, hjunk⟩

/-- A packet of one word, whose tag has been read: three words of junk are to follow. -/
def oneWord (a : Iop.Model.Word) : BitVec 8 := if a = 4 then 1 else 0

def readTag : List (Iop.Model.Act Unit) :=
  [.setChanControl Iop.Model.IOP_SIF0 0x01000000#32, .serve fun _ => 0]

theorem oneWord_read : ∃ t, readTag.foldlM (Iop.Model.next Iop.Model.silent)
    (Iop.Model.powerOn oneWord) = some t ∧ t.junkWords = 3 ∧ wordsLeft t.dma = 1 ∧
    (Iop.Model.next Iop.Model.silent t (.serve fun _ => 0)).map (·.sif.SIF0_FIFO.length) = some 6 ∧
    (Iop.Model.next Iop.Model.silent { t with junkWords := 0 } (.serve fun _ => 0)).map
      (·.sif.SIF0_FIFO.length) = some 3 := by
  have hrun : (readTag.foldlM (Iop.Model.next Iop.Model.silent) (Iop.Model.powerOn oneWord)).map
      (fun t => (t.junkWords, wordsLeft t.dma,
        (Iop.Model.next Iop.Model.silent t (.serve fun _ => 0)).map (·.sif.SIF0_FIFO.length),
        (Iop.Model.next Iop.Model.silent { t with junkWords := 0 } (.serve fun _ => 0)).map
          (·.sif.SIF0_FIFO.length))) = some (3, 1, some 6, some 3) := by
    decide
  obtain ⟨t, ht, heq⟩ := Option.map_eq_some_iff.mp hrun
  simp only [Prod.mk.injEq] at heq
  exact ⟨t, ht, heq⟩

/-- In a process whose `junk_words` is 0 the packet gets no junk: two quadwords lack three words. -/
theorem junk_words_lost : ¬ ∀ (s : Dma.Model.State Unit Unit) (t : Iop.Model.Side Unit),
    Reaches Dma.Model.Init (Dma.Model.Step Dma.Model.ready) s →
    Reaches Iop.Model.Init (Iop.Model.Step Iop.Model.silent) t →
    ∀ d d' junk rest, Restored Dma.Model.ready Iop.Model.silent s t d d' junk rest := by
  intro hall
  obtain ⟨t, ht, -, -, hsix, hthree⟩ := oneWord_read
  obtain ⟨dmac, dma, -, -, -, hdma, -, hrun⟩ := hall _ t
    (Reaches.start (Dma.Model.init_powerOn fun _ => 0))
    (Iop.Model.reaches_of_acts (Iop.Model.init_powerOn _) ht) Dma.Model.blank Iop.Model.blank 0 []
  have hserve := hrun [.serve fun _ => 0] (by simp [LeavesSIF0])
  rw [hdma, List.foldlM_cons, List.foldlM_cons] at hserve
  obtain ⟨u, hu, husix⟩ := Option.map_eq_some_iff.mp hsix
  obtain ⟨v, hv, hvthree⟩ := Option.map_eq_some_iff.mp hthree
  rw [hu, hv] at hserve
  obtain ⟨n, rfl, -⟩ : Same u v := by
    cases hserve with
    | some h => exact h
  rw [husix] at hvthree
  exact absurd hvthree (by decide)

/-- The same packet, loaded where `junk_words` is 3. -/
theorem controllers_restored_oneWord : ∃ t, readTag.foldlM (Iop.Model.next Iop.Model.silent)
    (Iop.Model.powerOn oneWord) = some t ∧ wordsLeft t.dma = 1 ∧
    Restored Dma.Model.ready Iop.Model.silent (Dma.Model.powerOn fun _ => 0) t Dma.Model.blank
      Iop.Model.blank 3 [] := by
  obtain ⟨t, ht, hjunk, hwords, -⟩ := oneWord_read
  exact ⟨t, ht, hwords, controllers_restored (Reaches.start (Dma.Model.init_powerOn fun _ => 0))
    (Iop.Model.reaches_of_acts (Iop.Model.init_powerOn _) ht) _ _ 3 (Or.inl hjunk.symm) []⟩

end

end DobieStation.SaveState.Controllers
