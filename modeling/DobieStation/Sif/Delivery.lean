import DobieStation.Sif.Bound
import DobieStation.Sif.Packets

/-! # The packets of SIF0 are delivered

The IOP's controller works through a list of packets in its memory; the EE's stores what it reads.
In every run of the two handlers, and of anything else that leaves SIF0 alone, what has been stored,
and what will be received of the words in the FIFO and the words still to be sent, are together what
the packets are for (`Delivering`). -/

namespace DobieStation.Sif.Delivery

open DobieStation.Lib.Hoare DobieStation.Lib.Reach
open DobieStation.Dma.Model (Channel DMAChannel Memory Quad State)
open DobieStation.Dma.ChainFrame (Aside Arbitrates SameRegisters arbitrates_aside)
open DobieStation.Iop.Model DobieStation.Iop.Arbiter
open DobieStation.Sif.Machine DobieStation.Sif.Packets DobieStation.Sif.Bound

variable {E F V : Type} {P : Iop.Model.Peripherals E} {Q : Dma.Model.Peripherals F V}
variable {side side' : Side E} {src : Word → Option Word}

/-! ### The packets in memory -/

/-- The words of a list of packets, by their addresses, are in memory. -/
def InRam (src : Word → Option Word) (ram : Ram) : Prop :=
  ∀ a w, src a = some w → ram.read32 a = w

/-- `n` words from an address on. -/
def block (src : Word → Option Word) : Word → ℕ → Option (List Word)
  | _, 0 => some []
  | a, n + 1 =>
    match src a, block src (a + 4) n with
    | some w, some ws => some (w :: ws)
    | _, _ => none

theorem block_succ {a : Word} {n : ℕ} {ws : List Word} (h : block src a (n + 1) = some ws) :
    ∃ w ws', src a = some w ∧ block src (a + 4) n = some ws' ∧ ws = w :: ws' := by
  unfold block at h
  split at h
  · rename_i w ws' hw hws
    exact ⟨w, ws', hw, hws, (Option.some.inj h).symm⟩
  · cases h

theorem length_block {a : Word} {n : ℕ} {ws : List Word} (h : block src a n = some ws) :
    ws.length = n := by
  induction n generalizing a ws with
  | zero =>
    obtain rfl := Option.some.inj h
    rfl
  | succ n ih =>
    obtain ⟨w, ws, -, hws, rfl⟩ := block_succ h
    simp [ih hws]

/-- A tag of the IOP's list is its last one. -/
def isLast (data : Word) : Bool := data.getLsbD 31 || data.getLsbD 30

/-- The tag at an address, and the packet it describes. -/
structure TagAt (src : Word → Option Word) (a first second : Word) (p : Packet) : Prop where
  data : src a = some first
  size : src (a + 4) = some second
  lo : src (a + 8) = some p.lo
  hi : src (a + 12) = some p.hi
  words : block src (first &&& 0xFFFFFF#32) (second &&& 0xFFFFF#32).toNat = some p.words

/-- A list of packets, the tag of the first one at an address. The last one is not empty. -/
inductive Laid (src : Word → Option Word) : Word → List Packet → Prop
  | last {a data size : Word} {p : Packet} : TagAt src a data size p → isLast data = true →
      size &&& 0xFFFFF#32 ≠ 0 → Laid src a [p]
  | more {a data size : Word} {p : Packet} {ps : List Packet} : TagAt src a data size p →
      isLast data = false → Laid src (a + 16) ps → Laid src a (p :: ps)

/-! ### The IOP's side -/

/-- How far SIF0 is on the IOP's side: its registers without its request, and its junk. -/
structure Progress where
  busy : Bool
  tagEnd : Bool
  wordCount : Word
  addr : Word
  tagAddr : Word
  junk : ℕ

def progressOf (ch : IOP_DMA_Channel) (junk : ℕ) : Progress :=
  ⟨ch.control.busy, ch.tagEnd, ch.wordCount, ch.addr, ch.tagAddr, junk⟩

def progress (side : Side E) : Progress :=
  progressOf (side.dma.channels IOP_SIF0) side.junkWords

/-- What the IOP's side has yet to send. -/
inductive Sends (src : Word → Option Word) : Progress → List Word → Prop
  | ended {g : Progress} : g.busy = false → Sends src g []
  | final {g : Progress} {ws : List Word} : g.busy = true → g.tagEnd = true → g.wordCount ≠ 0 →
      g.junk = 0 → block src g.addr g.wordCount.toNat = some ws → Sends src g ws
  | between {g : Progress} {ws : List Word} {ps : List Packet} : g.busy = true →
      g.tagEnd = false → (g.wordCount ≠ 0 → g.junk = 0) →
      block src g.addr g.wordCount.toNat = some ws → Laid src g.tagAddr ps →
      (∀ p ∈ ps, p.Whole) → Sends src g (ws ++ ps.flatMap Packet.stream)

theorem Sends.nil_of_ended {g : Progress} {ws : List Word} (h : Sends src g ws)
    (hb : g.busy = false) : ws = [] := by
  cases h with
  | ended => rfl
  | final hb' => rw [hb] at hb'; cases hb'
  | between hb' => rw [hb] at hb'; cases hb'

/-- A word has been sent. -/
def Progress.word (g : Progress) : Progress :=
  { g with addr := g.addr + 4, wordCount := g.wordCount - 1 }

theorem toNat_pred {n : Word} (hn : n ≠ 0) : n.toNat = (n - 1).toNat + 1 := by
  have : n.toNat ≠ 0 := fun h => hn (BitVec.eq_of_toNat_eq h)
  have h1 : (1 : Word).toNat = 1 := rfl
  have := n.isLt
  rw [BitVec.toNat_sub, h1]
  omega

/-- Sending a word. After the last word of the last packet the channel has ended. -/
theorem Sends.word {g : Progress} {ws : List Word} (h : Sends src g ws) (hb : g.busy = true)
    (hw : g.wordCount ≠ 0) : ∃ w rest, src g.addr = some w ∧ ws = w :: rest ∧ g.junk = 0 ∧
      (if g.word.wordCount = 0 ∧ g.tagEnd = true then rest = [] else Sends src g.word rest) := by
  cases h with
  | ended hn => rw [hb] at hn; cases hn
  | final _ ht _ hj hblock =>
    rw [toNat_pred hw] at hblock
    obtain ⟨w, rest, hsrc, hrest, rfl⟩ := block_succ hblock
    refine ⟨w, rest, hsrc, rfl, hj, ?_⟩
    split_ifs with hlast
    · have h0 : (g.wordCount - 1).toNat = 0 := congrArg BitVec.toNat hlast.1
      rw [h0] at hrest
      exact (Option.some.inj hrest).symm
    · exact .final hb ht (fun h0 => hlast ⟨h0, ht⟩) hj hrest
  | between _ ht hj hblock hl hps =>
    rw [toNat_pred hw] at hblock
    obtain ⟨w, rest, hsrc, hrest, rfl⟩ := block_succ hblock
    refine ⟨w, rest ++ _, hsrc, rfl, hj hw, ?_⟩
    rw [if_neg (by simp [ht])]
    exact .between hb ht (fun _ => hj hw) hrest hl hps

/-- The tag has been read. -/
def Progress.tag (g : Progress) (first second : Word) : Progress :=
  { g with
    addr := first &&& 0xFFFFFF#32
    wordCount := second &&& 0xFFFFF#32
    tagEnd := g.tagEnd || first.getLsbD 31 || first.getLsbD 30
    tagAddr := g.tagAddr + 16
    junk := Iop.Model.junk second }

/-- A packet of whole quadwords has no junk. -/
theorem TagAt.junk {a first second : Word} {p : Packet} (h : TagAt src a first second p)
    (hw : p.Whole) : Iop.Model.junk second = 0 := by
  have hlen := length_block h.words
  have hmask : (second &&& 0xFFFFF#32).toNat = second.toNat % 2 ^ 20 := by
    rw [BitVec.toNat_and]
    exact Nat.and_two_pow_sub_one_eq_mod second.toNat 20
  unfold Packet.Whole at hw
  unfold Iop.Model.junk
  omega

/-- Reading a tag: its lower half is for the EE. -/
theorem Sends.tag {g : Progress} {ws : List Word} (h : Sends src g ws) (hb : g.busy = true)
    (hw : g.wordCount = 0) : ∃ first second lo hi rest, src g.tagAddr = some first ∧
      src (g.tagAddr + 4) = some second ∧ src (g.tagAddr + 8) = some lo ∧
      src (g.tagAddr + 12) = some hi ∧ ws = lo :: hi :: rest ∧
      Sends src (g.tag first second) rest := by
  cases h with
  | ended hn => rw [hb] at hn; cases hn
  | final _ _ hne => exact absurd hw hne
  | between _ ht _ hblock hl hps =>
    rw [hw] at hblock
    obtain rfl := Option.some.inj hblock
    cases hl with
    | last htag hlast hne =>
      refine ⟨_, _, _, _, _, htag.data, htag.size, htag.lo, htag.hi, by simp [Packet.stream]; rfl, ?_⟩
      refine .final hb ?_ hne (htag.junk (hps _ (List.mem_singleton_self _))) htag.words
      simpa [Progress.tag, ht, isLast] using hlast
    | more htag hlast hrest =>
      refine ⟨_, _, _, _, _, htag.data, htag.size, htag.lo, htag.hi, rfl, ?_⟩
      obtain ⟨hp, hps⟩ := List.forall_mem_cons.mp hps
      refine .between hb ?_ (fun _ => htag.junk hp) htag.words hrest hps
      simpa [Progress.tag, ht, isLast] using hlast

/-! ### The handler of SIF0 on the IOP's side -/

/-- The words that are in the FIFO or have yet to be sent. -/
def Owes (src : Word → Option Word) (side : Side E) (ws : List Word) : Prop :=
  ∃ rest, Sends src (progress side) rest ∧ side.sif.SIF0_FIFO ++ rest = ws

theorem progress_writeSIF0 (side : Side E) (word : Word) :
    progress (side.writeSIF0 word) = progress side := by
  obtain ⟨raised, hch⟩ := channel_writeSIF0 side word
  unfold progress
  rw [hch]
  rfl

theorem progress_modifyChannel (side : Side E) (f : IOP_DMA_Channel → IOP_DMA_Channel) :
    progress { side with dma := side.dma.modifyChannel IOP_SIF0 f } =
      progressOf (f (side.dma.channels IOP_SIF0)) side.junkWords := by
  unfold progress
  rw [channels_modifyChannel, Function.update_self]

/-- A word has been written and counted off. -/
def afterWord (side : Side E) (w : Word) : Side E :=
  { side.writeSIF0 w with
    dma := (side.writeSIF0 w).dma.modifyChannel IOP_SIF0 fun ch =>
      { ch with addr := ch.addr + 4, wordCount := ch.wordCount - 1 } }

theorem progress_afterWord (side : Side E) (w : Word) :
    progress (afterWord side w) = (progress side).word := by
  obtain ⟨raised, hch⟩ := channel_writeSIF0 side w
  unfold afterWord
  rw [progress_modifyChannel, hch]
  rfl

theorem fifo_afterWord (side : Side E) (w : Word) :
    (afterWord side w).sif.SIF0_FIFO = side.sif.SIF0_FIFO ++ [w] := rfl

/-- Without junk words nothing of the stack is sent. -/
theorem sendSIF0Junk_zero (side : Side E) (stack : Fin 4 → Word) :
    side.sendSIF0Junk stack 0 = side := rfl

theorem transferEnd_ends (side : Side E) : Ensures (transferEnd IOP_SIF0) side fun _ side' =>
    (progress side').busy = false ∧ side'.sif = side.sif ∧ side'.ram = side.ram := by
  simp only [transferEnd, modifyDMA, Iop.Model.flagInterrupt, ensures_bind, ensures_modify]
  have hbusy : ((side.dma.endTransfer IOP_SIF0).channels IOP_SIF0).control.busy = false := by
    rw [channels_endTransfer, channels_modifyChannel, Function.update_self]
    rfl
  split_ifs
  · exact ⟨hbusy, rfl, rfl⟩
  · exact ⟨hbusy, rfl, rfl⟩

theorem wordSIF0_owes (stack : Fin 4 → Word) {ws : List Word} (hr : InRam src side.ram)
    (hb : (progress side).busy = true) (hw : (progress side).wordCount ≠ 0)
    (h : Owes src side ws) : Ensures (wordSIF0 stack) side fun _ side' =>
      side'.ram = side.ram ∧ Owes src side' ws := by
  obtain ⟨_, hs, rfl⟩ := h
  obtain ⟨w, rest, hsrc, rfl, hj, hrest⟩ := hs.word hb hw
  simp only [wordSIF0, Iop.Model.channel, Iop.Model.read32, Iop.Model.writeSIF0,
    Iop.Model.modifyChannel, modifyDMA, Iop.Model.sendSIF0Junk, ensures_bind, ensures_get,
    ensures_pure, ensures_modify, ensures_ite]
  rw [show side.ram.read32 (side.dma.channels IOP_SIF0).addr = w from hr _ _ hsrc]
  have hg := progress_afterWord side w
  have hf : (afterWord side w).sif.SIF0_FIFO ++ rest = side.sif.SIF0_FIFO ++ w :: rest := by
    rw [fifo_afterWord]
    simp
  have hj' : (afterWord side w).junkWords = 0 := hj
  have hram : (afterWord side w).ram = side.ram := rfl
  change ((progress (afterWord side w)).wordCount = 0 →
      ((progress (afterWord side w)).tagEnd = true → Ensures (transferEnd IOP_SIF0)
        ((afterWord side w).sendSIF0Junk stack (afterWord side w).junkWords) _) ∧
      (¬ (progress (afterWord side w)).tagEnd = true →
        ((afterWord side w).sendSIF0Junk stack (afterWord side w).junkWords).ram = side.ram ∧
        Owes src ((afterWord side w).sendSIF0Junk stack (afterWord side w).junkWords) _)) ∧
    (¬ (progress (afterWord side w)).wordCount = 0 →
      (afterWord side w).ram = side.ram ∧ Owes src (afterWord side w) _)
  rw [hj', sendSIF0Junk_zero]
  generalize afterWord side w = side₁ at hg hf hram
  rw [hg]
  refine ⟨fun hlast => ⟨fun hend => ?_, fun hend => ?_⟩, fun hmore => ?_⟩
  · rw [if_pos ⟨hlast, hend⟩] at hrest
    subst hrest
    refine (transferEnd_ends side₁).mono fun _ side' hside' => ?_
    obtain ⟨hb', hsif, hram'⟩ := hside'
    refine ⟨hram'.trans hram, ?_⟩
    exact ⟨[], .ended hb', hsif ▸ hf⟩
  · rw [if_neg fun h => hend h.2] at hrest
    exact ⟨hram, rest, hg ▸ hrest, hf⟩
  · rw [if_neg fun h => hmore h.1] at hrest
    exact ⟨hram, rest, hg ▸ hrest, hf⟩

theorem tagSIF0_owes {ws : List Word} (hr : InRam src side.ram)
    (hb : (progress side).busy = true) (hw : (progress side).wordCount = 0)
    (h : Owes src side ws) : Ensures tagSIF0 side fun _ side' =>
      side'.ram = side.ram ∧ Owes src side' ws := by
  obtain ⟨_, hs, rfl⟩ := h
  obtain ⟨first, second, lo, hi, rest, hfirst, hsecond, hlo, hhi, rfl, hrest⟩ := hs.tag hb hw
  simp only [tagSIF0, Iop.Model.channel, Iop.Model.read32, Iop.Model.writeSIF0,
    Iop.Model.modifyChannel, modifyDMA, ensures_bind, ensures_get, ensures_pure, ensures_modify]
  have hlo' : side.ram.read32 ((side.dma.channels IOP_SIF0).tagAddr + 8) = lo := hr _ _ hlo
  have hhi' : (side.writeSIF0 lo).ram.read32 ((side.dma.channels IOP_SIF0).tagAddr + 12) = hi :=
    hr _ _ hhi
  have hfirst' : side.ram.read32 (side.dma.channels IOP_SIF0).tagAddr = first := hr _ _ hfirst
  have hsecond' : side.ram.read32 ((side.dma.channels IOP_SIF0).tagAddr + 4) = second :=
    hr _ _ hsecond
  rw [hlo', hhi', hfirst', hsecond']
  refine ⟨rfl, rest, ?_, by simp [Side.writeSIF0, Side.pushSIF0]⟩
  have hg : progress ((side.writeSIF0 lo).writeSIF0 hi) = progress side := by
    rw [progress_writeSIF0, progress_writeSIF0]
  generalize (side.writeSIF0 lo).writeSIF0 hi = side₂ at hg
  rw [← hg] at hrest
  unfold progress at hrest ⊢
  rw [channels_modifyChannel, Function.update_self]
  exact hrest

/-- **What the IOP's side owes stays the same.** -/
theorem processSIF0_owes (stack : Fin 4 → Word) {ws : List Word} (hr : InRam src side.ram)
    (hb : (progress side).busy = true) (h : Owes src side ws) :
    Ensures (processSIF0 stack) side fun _ side' => side'.ram = side.ram ∧ Owes src side' ws := by
  simp only [processSIF0, Iop.Model.channel, ensures_bind, ensures_get, ensures_pure, ensures_ite]
  refine ⟨fun hw => wordSIF0_owes stack hr hb hw h, fun hw => ⟨fun _ => ?_, fun _ => ?_⟩⟩
  · exact tagSIF0_owes hr hb (not_ne_iff.mp hw) h
  · exact ⟨trivial, h⟩

/-! ### The EE's side -/

/-- The EE has taken words from the FIFO. Its chain has not moved, nor has the IOP's. -/
structure Took (l : List Word) (s s' : State (World E F) V) : Prop extends Aside .EE_SIF0 s s' where
  fifo : s.world.1.sif.SIF0_FIFO = l ++ s'.world.1.sif.SIF0_FIFO
  progress : progress s'.world.1 = progress s.world.1
  ram : s'.world.1.ram = s.world.1.ram

theorem Took.trans {l l' : List Word} {s s' s'' : State (World E F) V} (h : Took l s s')
    (h' : Took l' s' s'') : Took (l ++ l') s s'' where
  toAside := arbitrates_aside.trans s s' s'' h.toAside h'.toAside
  fifo := by rw [h.fifo, h'.fifo, List.append_assoc]
  progress := h'.progress.trans h.progress
  ram := h'.ram.trans h.ram

theorem arbitrates_took : Arbitrates (Took (E := E) (F := F) (V := V) []) where
  refl s := ⟨arbitrates_aside.refl s, rfl, rfl, rfl⟩
  trans _ _ _ h h' := h.trans h'
  controller s d hr hc := ⟨arbitrates_aside.controller s d hr hc, rfl, rfl, rfl⟩
  signal s b := ⟨arbitrates_aside.signal s b, rfl, rfl, rfl⟩
  parked s d := ⟨arbitrates_aside.parked s d, rfl, rfl, rfl⟩

theorem call_readSIF0 {s : State (World E F) V} {w : Word} {rest : List Word}
    (hf : s.world.1.sif.SIF0_FIFO = w :: rest) :
    Ensures (Dma.Model.call (withSif Q).sifReadSIF0) s fun value s' =>
      value = w ∧ s'.world.1.sif.SIF0_FIFO = rest ∧ Took [w] s s' := by
  have hread : ∃ side, s.world.1.readSIF0 = some (w, side) ∧ side.sif.SIF0_FIFO = rest ∧
      progress side = progress s.world.1 ∧ side.ram = s.world.1.ram := by
    unfold Side.readSIF0
    rw [hf]
    refine ⟨_, rfl, rfl, ?_, rfl⟩
    unfold progress
    rw [channels_setDMARequest, channels_modifyChannel, Function.update_self]
    rfl
  obtain ⟨side, hread, hrest, hprog, hram⟩ := hread
  have hreply : (withSif Q).sifReadSIF0 s.world = fromSif w side s.world.2 := by
    show Machine.readSIF0 s.world = _
    unfold Machine.readSIF0
    rw [hread]
  have hside := call_side Q (withSif Q).sifReadSIF0 s
  have haside := Dma.ChainFrame.aside_call (c := .EE_SIF0) (withSif Q).sifReadSIF0 s
  have hvalue : Ensures (Dma.Model.call (withSif Q).sifReadSIF0) s fun value _ => value = w := by
    unfold Dma.Model.call
    rw [ensures_bind, ensures_get, ensures_bind, ensures_modify, ensures_bind, hreply]
    exact (arbitrates_aside (c := .EE_SIF0).requests _ _).mono fun _ _ _ => ensures_pure.mpr rfl
  refine ((hside.and haside).and hvalue).mono fun value s' ⟨⟨hs, ha⟩, hv⟩ => ?_
  rw [hreply] at hs
  have hs : s'.world.1 = { side with toEE := [] } := hs
  refine ⟨hv, by rw [hs]; exact hrest, ha, ?_, ?_, ?_⟩
  · rw [hs, hf, ← hrest]
    rfl
  · rw [hs]
    exact hprog
  · rw [hs]
    exact hram

/-- A bit of the channel's control register: tags with their interrupt bit set are ending ones. -/
def tie (control : BitVec 32) : Bool := control.getLsbD 7

/-- What the EE's side stores of the words to come. -/
def due (ch : DMAChannel) (ws : List Word) : List Store :=
  receive (tie ch.control) ws ch.tagEnd ch.address ch.quadwordCount.toNat

theorem due_same {ch ch' : DMAChannel} (h : SameRegisters ch ch') (ws : List Word) :
    due ch' ws = due ch ws := by
  unfold due
  rw [h.control, h.tagEnd, h.address, h.quadwordCount]

theorem due_quad {ch : DMAChannel} (h : ch.quadwordCount ≠ 0) (w0 w1 w2 w3 : Word)
    (ws : List Word) : due ch (w0 :: w1 :: w2 :: w3 :: ws) = (ch.address, w3 ++ w2 ++ w1 ++ w0) ::
      due { ch with address := ch.address + 16, quadwordCount := ch.quadwordCount - 1 } ws := by
  unfold due
  rw [toNat_pred h]
  rfl

theorem tie_tagControl (control lo : Word) :
    tie (Dma.Model.tagControl control lo) = tie control := by
  simp [tie, Dma.Model.tagControl]

theorem due_tag {ch : DMAChannel} (h : ch.quadwordCount = 0) (he : ch.tagEnd = false)
    (lo hi : Word) (ws : List Word) :
    due ch (lo :: hi :: ws) = due (Dma.Model.loadDestTag ch lo hi) ws := by
  have htag : due ch (lo :: hi :: ws) =
      receive (tie ch.control) ws (ends (tie ch.control) lo) hi (tagQwc lo) := by
    unfold due
    rw [h, he]
    rw [show (0 : Word).toNat = 0 from rfl, receive]
  rw [htag]
  unfold due Dma.Model.loadDestTag
  dsimp only
  rw [tie_tagControl, he, Bool.false_or]
  rfl

/-! ### The memory of the EE -/

/-- The memories hold the same at some addresses, the VUs' all the same if one is among them. -/
structure Agree (Q : Dma.Model.Peripherals F V) (addrs : List (BitVec 32)) (m m' : Memory V) :
    Prop where
  fetch : ∀ a ∈ addrs, m.fetch128 Q a = m'.fetch128 Q a
  vu : (∃ a ∈ addrs, Dma.Model.isVUMemory a = true) → m.vu = m'.vu

theorem update_agree {f f' : BitVec 32 → Quad} {i : BitVec 32} (h : f i = f' i) (j : BitVec 32)
    (q : Quad) : Function.update f j q i = Function.update f' j q i := by
  rw [Function.update_apply, Function.update_apply, h]

theorem Agree.store {addrs : List (BitVec 32)} {m m' : Memory V} (h : Agree Q addrs m m')
    (a : BitVec 32) (q : Quad) : Agree Q addrs (m.store128 Q a q) (m'.store128 Q a q) where
  fetch b hb := by
    have hbm := h.fetch b hb
    unfold Memory.fetch128 at hbm ⊢
    unfold Memory.store128
    by_cases hs : Dma.Model.isScratchpad b = true
    · rw [if_pos hs, if_pos hs] at hbm ⊢
      split_ifs
      · exact update_agree hbm _ q
      · exact hbm
      · exact hbm
    · rw [if_neg hs, if_neg hs] at hbm ⊢
      by_cases hv : Dma.Model.isVUMemory b = true
      · rw [if_pos hv, if_pos hv]
        have hvu := h.vu ⟨b, hb, hv⟩
        split_ifs
        · exact congrArg (Q.vuRead · b) hvu
        · exact congrArg (fun v => Q.vuRead (Q.vuWrite v a q) b) hvu
        · exact congrArg (Q.vuRead · b) hvu
      · rw [if_neg hv, if_neg hv] at hbm ⊢
        split_ifs
        · exact hbm
        · exact hbm
        · exact update_agree hbm _ q
  vu hb := by
    unfold Memory.store128
    split_ifs
    · exact h.vu hb
    · dsimp only
      rw [h.vu hb]
    · exact h.vu hb

/-- The stores, one after the other. -/
def storeAll (Q : Dma.Model.Peripherals F V) (m : Memory V) (l : List Store) : Memory V :=
  l.foldl (fun m st => m.store128 Q st.1 st.2) m

theorem storeAll_append (m : Memory V) (l : List Store) (st : Store) :
    storeAll Q m (l ++ [st]) = (storeAll Q m l).store128 Q st.1 st.2 := by
  simp [storeAll]

/-! ### The handler of SIF0 on the EE's side -/

section

variable {m : Memory V} {target : List Store}

/-- What has been stored, and what will be of the words to come, are together the target. -/
structure Delivering (src : Word → Option Word) (Q : Dma.Model.Peripherals F V) (m : Memory V)
    (target : List Store) (s : State (World E F) V) : Prop where
  ram : InRam src s.world.1.ram
  split : ∃ ws done, Owes src s.world.1 ws ∧ target = done ++ due (s.dmac.channels .EE_SIF0) ws ∧
    Agree Q (target.map Prod.fst) (storeAll Q m done) s.mem

variable {s s' : State (World E F) V}

theorem Owes.same {ws : List Word} (h : Owes src side ws)
    (hf : side'.sif.SIF0_FIFO = side.sif.SIF0_FIFO) (hp : progress side' = progress side) :
    Owes src side' ws := by
  obtain ⟨rest, hs, rfl⟩ := h
  exact ⟨rest, hp ▸ hs, by rw [hf]⟩

/-- Words that the EE has taken have been owed. -/
theorem Owes.took {l ws : List Word} (h : Owes src s.world.1 ws) (ht : Took l s s') :
    ∃ ws', ws = l ++ ws' ∧ Owes src s'.world.1 ws' := by
  obtain ⟨rest, hs, rfl⟩ := h
  refine ⟨s'.world.1.sif.SIF0_FIFO ++ rest, ?_, rest, ht.progress ▸ hs, rfl⟩
  rw [ht.fifo, List.append_assoc]

theorem Delivering.aside (h : Delivering src Q m target s) (ht : Took [] s s') :
    Delivering src Q m target s' := by
  obtain ⟨hram, ws, done, ho, hd, hm⟩ := h
  obtain ⟨ws, rfl, ho⟩ := ho.took ht
  exact ⟨ht.ram ▸ hram, ws, done, ho, by rw [due_same ht.registers]; exact hd, ht.mem ▸ hm⟩

/-- A quadword has been stored and counted off. -/
def quadStored (Q : Dma.Model.Peripherals F V) (s : State (World E F) V) (q : Quad) :
    State (World E F) V :=
  let ch := s.dmac.channels .EE_SIF0
  { s with
    mem := s.mem.store128 Q ch.address q
    dmac := s.dmac.setChannel .EE_SIF0
      { ch with address := ch.address + 16, quadwordCount := ch.quadwordCount - 1 } }

theorem Delivering.quad {w0 w1 w2 w3 : Word} (h : Delivering src Q m target s)
    (ht : Took [w0, w1, w2, w3] s s') (hq : (s.dmac.channels .EE_SIF0).quadwordCount ≠ 0) :
    Delivering src Q m target (quadStored Q s' (w3 ++ w2 ++ w1 ++ w0)) := by
  obtain ⟨hram, _, done, ho, hd, hm⟩ := h
  obtain ⟨ws, rfl, ho'⟩ := ho.took ht
  have hr := ht.registers
  rw [List.cons_append, List.cons_append, List.cons_append, List.cons_append, List.nil_append,
    due_quad hq] at hd
  let stored : Store := ((s.dmac.channels .EE_SIF0).address, w3 ++ w2 ++ w1 ++ w0)
  refine ⟨ht.ram ▸ hram, ws, done ++ [stored], ho', ?_, ?_⟩
  · unfold quadStored due
    rw [Dma.Handlers.setChannel_self, List.append_assoc, hr.control, hr.tagEnd, hr.address,
      hr.quadwordCount]
    exact hd
  · rw [storeAll_append]
    have hmem : (quadStored Q s' (w3 ++ w2 ++ w1 ++ w0)).mem =
        s.mem.store128 Q (s.dmac.channels .EE_SIF0).address (w3 ++ w2 ++ w1 ++ w0) := by
      rw [← ht.mem, ← hr.address]
      rfl
    rw [hmem]
    exact hm.store _ _

theorem ensures_readQuad {α : Type} {w0 w1 w2 w3 : Word} {rest : List Word}
    {f : Word → Word → Word → Word → Dma.Model.M (World E F) V α}
    {G : α → State (World E F) V → Prop}
    (hf : s.world.1.sif.SIF0_FIFO = w0 :: w1 :: w2 :: w3 :: rest)
    (h : ∀ s', Took [w0, w1, w2, w3] s s' → Ensures (f w0 w1 w2 w3) s' G) :
    Ensures (do
      let w0 ← Dma.Model.call (withSif Q).sifReadSIF0
      let w1 ← Dma.Model.call (withSif Q).sifReadSIF0
      let w2 ← Dma.Model.call (withSif Q).sifReadSIF0
      let w3 ← Dma.Model.call (withSif Q).sifReadSIF0
      f w0 w1 w2 w3) s G := by
  rw [ensures_bind]
  refine (call_readSIF0 hf).mono fun v0 s₁ ⟨h₁, hf₁, t₁⟩ => ?_
  rw [ensures_bind]
  refine (call_readSIF0 hf₁).mono fun v1 s₂ ⟨h₂, hf₂, t₂⟩ => ?_
  rw [ensures_bind]
  refine (call_readSIF0 hf₂).mono fun v2 s₃ ⟨h₃, hf₃, t₃⟩ => ?_
  rw [ensures_bind]
  refine (call_readSIF0 hf₃).mono fun v3 s₄ ⟨h₄, hf₄, t₄⟩ => ?_
  rw [h₁, h₂, h₃, h₄]
  exact h s₄ (((t₁.trans t₂).trans t₃).trans t₄)

theorem within_followSource : Within (Took (E := E) (F := F) (V := V) [])
    (Dma.Model.followSource .EE_SIF0) :=
  arbitrates_took.bind arbitrates_took.readDmac fun _ =>
    within_ite (fun _ => arbitrates_took.updateStadr _) fun _ => arbitrates_took.pure _

/-- `n` more quadwords can be taken. -/
def Ready (n : ℕ) (s : State (World E F) V) : Prop :=
  n ≤ (s.dmac.channels .EE_SIF0).quadwordCount.toNat ∧ 4 * n ≤ s.world.1.sif.SIF0_FIFO.length

theorem turnSIF0_delivers (n : ℕ) (s : State (World E F) V)
    (h : Delivering src Q m target s ∧ Ready (n + 1) s) :
    Ensures (Dma.Model.turnSIF0 (withSif Q)) s fun _ s' =>
      Delivering src Q m target s' ∧ Ready n s' := by
  obtain ⟨hd, hn, hlen⟩ := h
  have hq : (s.dmac.channels .EE_SIF0).quadwordCount ≠ 0 := by
    intro hq
    rw [hq] at hn
    exact absurd hn (by simp)
  obtain ⟨w0, w1, w2, w3, rest, hf⟩ : ∃ w0 w1 w2 w3 rest,
      s.world.1.sif.SIF0_FIFO = w0 :: w1 :: w2 :: w3 :: rest := by
    match s.world.1.sif.SIF0_FIFO, hlen with
    | w0 :: w1 :: w2 :: w3 :: rest, _ => exact ⟨w0, w1, w2, w3, rest, rfl⟩
  refine ensures_readQuad hf fun s₄ ht => ?_
  have hstored := hd.quad ht hq
  have hready : Ready n (quadStored Q s₄ (w3 ++ w2 ++ w1 ++ w0)) := by
    have hr := ht.registers.quadwordCount
    have hfifo := congrArg List.length ht.fifo
    unfold Ready quadStored
    rw [Dma.Handlers.setChannel_self]
    dsimp only
    rw [hr]
    rw [toNat_pred hq] at hn
    simp at hfifo
    omega
  rw [ensures_bind, Dma.Handlers.ensures_channel, ensures_bind, Dma.Handlers.ensures_store128,
    ensures_bind]
  unfold Dma.Model.advanceDestDMA
  rw [ensures_bind, Dma.Handlers.ensures_modifyChannel, ensures_bind, Dma.Handlers.ensures_channel]
  change Ensures _ (quadStored Q s₄ (w3 ++ w2 ++ w1 ++ w0)) _
  generalize quadStored Q s₄ (w3 ++ w2 ++ w1 ++ w0) = s₅ at hstored hready
  refine (within_ite (fun _ => within_followSource) (fun _ => arbitrates_took.pure ()) s₅).mono
    fun _ s₆ h₆ => ensures_pure.mpr ⟨hstored.aside h₆, ?_⟩
  have hfifo : s₅.world.1.sif.SIF0_FIFO = s₆.world.1.sif.SIF0_FIFO := h₆.fifo
  unfold Ready
  rw [h₆.registers.quadwordCount, ← hfifo]
  exact hready

theorem tagSIF0_delivers (h : Delivering src Q m target s)
    (hq : (s.dmac.channels .EE_SIF0).quadwordCount = 0)
    (he : (s.dmac.channels .EE_SIF0).tagEnd = false) :
    Ensures (Dma.Model.tagSIF0 (withSif Q)) s fun _ s' => Delivering src Q m target s' := by
  unfold Dma.Model.tagSIF0
  rw [ensures_bind, ensures_get, ensures_ite]
  refine ⟨fun hlen => ?_, fun _ => ensures_pure.mpr h⟩
  obtain ⟨lo, hi, rest, hf⟩ : ∃ lo hi rest, s.world.1.sif.SIF0_FIFO = lo :: hi :: rest := by
    have hlen : 2 ≤ s.world.1.sif.SIF0_FIFO.length := hlen
    match s.world.1.sif.SIF0_FIFO, hlen with
    | lo :: hi :: rest, _ => exact ⟨lo, hi, rest, rfl⟩
  rw [ensures_bind]
  refine (call_readSIF0 hf).mono fun v0 s₁ ⟨h₁, hf₁, t₁⟩ => ?_
  rw [ensures_bind]
  refine (call_readSIF0 hf₁).mono fun v1 s₂ ⟨h₂, _, t₂⟩ => ?_
  rw [h₁, h₂, ensures_bind, Dma.Handlers.ensures_modifyChannel]
  have ht := t₁.trans t₂
  have hr := ht.registers
  obtain ⟨hram, _, done, ho, hd, hm⟩ := h
  obtain ⟨ws, rfl, ho'⟩ := ho.took ht
  have hqr := hr.quadwordCount.trans hq
  have her := hr.tagEnd.trans he
  rw [← due_same hr, List.append_assoc, List.singleton_append, List.singleton_append,
    due_tag hqr her] at hd
  have htag : Delivering src Q m target { s₂ with
      dmac := s₂.dmac.setChannel .EE_SIF0 { Dma.Model.loadDestTag (s₂.dmac.channels .EE_SIF0) lo hi
        with isSpr := Dma.Model.isScratchpad hi } } := by
    refine ⟨ht.ram ▸ hram, ws, done, ho', ?_, ht.mem ▸ hm⟩
    rw [Dma.Handlers.setChannel_self]
    exact hd
  exact (arbitrates_took.arbitrate _).mono fun _ s₃ h₃ => htag.aside h₃

theorem transferEnd_delivers (h : Delivering src Q m target s) :
    Ensures (Dma.Model.transferEnd .EE_SIF0) s fun _ s' => Delivering src Q m target s' := by
  unfold Dma.Model.transferEnd
  rw [ensures_bind, Dma.Handlers.ensures_modifyChannel]
  have hend : Delivering src Q m target { s with
      dmac := s.dmac.setChannel .EE_SIF0 { s.dmac.channels .EE_SIF0 with
        control := (s.dmac.channels .EE_SIF0).control &&& ~~~0x100#32
        started := false } } := by
    obtain ⟨hram, ws, done, ho, hd, hm⟩ := h
    refine ⟨hram, ws, done, ho, ?_, hm⟩
    have htie : tie ((s.dmac.channels .EE_SIF0).control &&& ~~~0x100#32) =
        tie (s.dmac.channels .EE_SIF0).control := by
      simp [tie]
    unfold due
    rw [Dma.Handlers.setChannel_self]
    dsimp only
    rw [htie]
    exact hd
  have hrest := (arbitrates_took (E := E) (F := F) (V := V)).bind
    (arbitrates_took.flagInterrupt Channel.EE_SIF0.index)
    fun _ => arbitrates_took.deactivateChannel .EE_SIF0
  exact (hrest _).mono fun _ s' h' => hend.aside h'

/-- **The EE's handler goes on with the delivery.** -/
theorem processSIF0_delivers (h : Delivering src Q m target s) :
    Ensures (Dma.Model.processSIF0 (withSif Q)) s fun _ s' => Delivering src Q m target s' := by
  unfold Dma.Model.processSIF0
  rw [ensures_bind, ensures_get, ensures_bind]
  have hready : Ready (min (Dma.Model.quadsToTransfer (s.dmac.channels .EE_SIF0))
      ((withSif Q).sifGetSIF0Size s.world / 4)) s := by
    have hsize : (withSif Q).sifGetSIF0Size s.world = s.world.1.sif.SIF0_FIFO.length := rfl
    unfold Ready Dma.Model.quadsToTransfer
    rw [hsize]
    omega
  have hturns := ensures_repeatWhile
    (I := fun n s => Delivering src Q m target s ∧ Ready n s) turnSIF0_delivers _ 0 ⟨h, hready⟩
  refine hturns.mono fun r s₁ ⟨_, h₁, _⟩ => ?_
  rw [ensures_bind]
  unfold Dma.Model.afterQuads
  rw [ensures_bind, Dma.Handlers.ensures_channel, ensures_ite, ensures_ite]
  refine ⟨fun hq => ⟨fun _ => ?_, fun he => ?_⟩, fun _ => ?_⟩
  · exact (transferEnd_delivers h₁).mono fun _ s₂ h₂ => ensures_pure.mpr h₂
  · have he := Bool.eq_false_of_not_eq_true he
    exact (tagSIF0_delivers h₁ hq he).mono fun _ s₂ h₂ => ensures_pure.mpr h₂
  · exact (arbitrates_took.arbitrate s₁).mono fun _ s₂ h₂ => ensures_pure.mpr (h₁.aside h₂)

end

end DobieStation.Sif.Delivery
