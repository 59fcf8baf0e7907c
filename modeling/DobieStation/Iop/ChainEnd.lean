import DobieStation.Iop.Arbiter
import DobieStation.Lib.Stepwise

/-! # The end of a chain of tags

The handlers of the two SIF channels move the words of a tag, and after a tag with an end bit the channel ends with
its interrupt. They test for the end where a word has been moved, so a run does this (`Good`) if and only if no
end tag without words is read (`Fine`). -/

namespace DobieStation.Iop.ChainEnd

open DobieStation.Lib.Hoare DobieStation.Lib.Stepwise DobieStation.Iop.Model DobieStation.Iop.Arbiter

variable {E : Type}

inductive Line where
  | SIF0
  | SIF1
  deriving DecidableEq, Repr

def Line.chan : Line → Chan
  | .SIF0 => IOP_SIF0
  | .SIF1 => IOP_SIF1

def Line.process (stack : Fin 4 → Word) : Line → M E Unit
  | .SIF0 => processSIF0 stack
  | .SIF1 => processSIF1

/-- What is left of the words of a tag: whether an end bit was set, where the next word is and how many there are. -/
structure Packet where
  last : Bool
  addr : Word
  left : ℕ
  deriving DecidableEq, Repr

def packet (data words : Word) : Packet := ⟨data.getLsbD 31 || data.getLsbD 30, data &&& 0xFFFFFF#32, words.toNat⟩

/-- The tag that the handler reads when no word is left, if it has room for it or all of it is there. SIF1 moves
quadwords. -/
def tagOf (s : Side E) : Line → Option Packet
  | .SIF0 =>
    let tagAddr := (s.dma.channels IOP_SIF0).tagAddr
    if s.sif.SIF0_FIFO.length ≤ MAX_FIFO_SIZE - 2 then
      some (packet (s.ram.read32 tagAddr) (s.ram.read32 (tagAddr + 4) &&& 0xFFFFF#32))
    else none
  | .SIF1 =>
    match s.sif.SIF1_FIFO with
    | data :: words :: _ :: _ :: _ => some (packet data (words &&& 0xFFFFC#32))
    | _ => none

/-- The machine, and what is left of the tag that was read last. -/
structure Chain (E : Type) where
  side : Side E
  pending : Option Packet

def Packet.start (p : Packet) : Option Packet := if p.left = 0 then none else some p

def Packet.next (p : Packet) : Option Packet := Packet.start ⟨p.last, p.addr + 4, p.left - 1⟩

def Chain.next (line : Line) (l : Chain E) : Option Packet :=
  match l.pending with
  | some p => p.next
  | none => (tagOf l.side line).bind Packet.start

/-- The registers of a channel that a chain is about. -/
structure Regs where
  addr : Word
  wordCount : Word
  tagAddr : Word
  tagEnd : Bool
  busy : Bool
  deriving DecidableEq, Repr

def regsOf (ch : IOP_DMA_Channel) : Regs := ⟨ch.addr, ch.wordCount, ch.tagAddr, ch.tagEnd, ch.control.busy⟩

def regs (c : Chan) (s : Side E) : Regs := regsOf (s.dma.channels c)

inductive Action (E : Type) where
  /-- The channel is served, with what the stack holds. -/
  | serve (stack : Fin 4 → Word)
  /-- Anything else that leaves the registers of the channel. -/
  | other (s : Side E)
  /-- The channel is set to work again, at any tag. -/
  | restart (s : Side E)

def Step (line : Line) (l : Chain E) (a : Action E) (l' : Chain E) : Prop :=
  match a with
  | .serve stack => (regs line.chan l.side).busy = true ∧ (line.process stack).run l.side = some ((), l'.side) ∧
      l'.pending = l.next line
  | .other s => l' = ⟨s, l.pending⟩ ∧ regs line.chan s = regs line.chan l.side
  | .restart s => l' = ⟨s, none⟩ ∧ (regs line.chan l.side).busy = false ∧
      ∃ addr tagAddr, regs line.chan s = { regs line.chan l.side with addr := addr, tagAddr := tagAddr, busy := true }

/-! ### What is asked of the handlers -/

/-- The interrupt of a channel, if it is not masked. -/
def Interrupts (c : Chan) (s s' : Side E) : Prop :=
  let r := s.dma.dicr (IOP_DMA.dicr2 c)
  let bit := BitVec.twoPow 8 (c.val % 8)
  if r.mask &&& bit = 0 then s'.irqs = s.irqs
  else s'.irqs = s.irqs + 1 ∧ (s'.dma.dicr (IOP_DMA.dicr2 c)).stat = r.stat ||| bit

/-- The channel ends if it should, and goes on else. -/
def Over (c : Chan) (ends : Prop) (s s' : Side E) : Prop :=
  ((regs c s').busy = false ↔ ends) ∧ (ends → Interrupts c s s')

/-- A word of the packet has been moved, and no tag has been read. Behind the last word of a packet SIF0 fills the
quadword up. -/
def Moved (p : Packet) (s s' : Side E) : Line → Prop
  | .SIF0 => (regs IOP_SIF0 s').tagAddr = (regs IOP_SIF0 s).tagAddr ∧ s'.ram = s.ram ∧
      ∃ fill, s'.sif.SIF0_FIFO = s.sif.SIF0_FIFO ++ s.ram.read32 p.addr :: fill ∧ (1 < p.left → fill = [])
  | .SIF1 => ∃ data, s.sif.SIF1_FIFO = data :: s'.sif.SIF1_FIFO ∧ s'.ram = s.ram.write32 p.addr data

/-- A tag has been read. -/
def TagRead (s s' : Side E) : Line → Prop
  | .SIF0 => (regs IOP_SIF0 s').tagAddr = (regs IOP_SIF0 s).tagAddr + 16
  | .SIF1 => s'.sif.SIF1_FIFO = s.sif.SIF1_FIFO.drop 4

/-- What a call of the handler does. -/
def Served (line : Line) (l : Chain E) (s' : Side E) : Prop :=
  match l.pending with
  | some p => Moved p l.side s' line ∧ Over line.chan (p.last = true ∧ p.left = 1) l.side s'
  | none =>
    match tagOf l.side line with
    | some p => TagRead l.side s' line ∧ Over line.chan (p.last = true ∧ p.left = 0) l.side s'
    | none => s' = l.side

def Good (line : Line) (l : Chain E) : Action E → Prop
  | .serve stack => (regs line.chan l.side).busy = true →
      ∀ s', (line.process stack).run l.side = some ((), s') → Served line l s'
  | _ => True

/-- No end tag without words is read. -/
def Fine (line : Line) (l : Chain E) : Action E → Prop
  | .serve _ => (regs line.chan l.side).busy = true → l.pending = none →
      ∀ p ∈ tagOf l.side line, ¬ (p.last = true ∧ p.left = 0)
  | _ => True

/-! ### The parts of the handlers -/

variable {c : Chan} {s s' s'' : Side E} {d : IOP_DMA} {stack : Fin 4 → Word} {line : Line}

/-- Neither the registers nor the interrupts nor the memory have changed. -/
structure Calm (c : Chan) (s s' : Side E) : Prop where
  regs : regs c s' = regs c s
  dicr : s'.dma.dicr = s.dma.dicr
  irqs : s'.irqs = s.irqs
  ram : s'.ram = s.ram

theorem Calm.trans (h : Calm c s s') (h' : Calm c s' s'') : Calm c s s'' :=
  ⟨h'.regs.trans h.regs, h'.dicr.trans h.dicr, h'.irqs.trans h.irqs, h'.ram.trans h.ram⟩

theorem dicr_findNewActiveChannel : d.findNewActiveChannel.dicr = d.dicr := by
  unfold IOP_DMA.findNewActiveChannel
  split <;> rfl

theorem dicr_clearDMARequest : (d.clearDMARequest c).dicr = d.dicr := by
  unfold IOP_DMA.clearDMARequest IOP_DMA.deactivateDma
  dsimp only
  split_ifs
  · exact dicr_findNewActiveChannel
  · rfl
  · rfl

theorem regs_clearDMARequest (i : Chan) :
    regsOf ((d.clearDMARequest i).channels c) = regsOf (d.channels c) := by
  rw [channels_clearDMARequest, channels_modifyChannel]
  by_cases h : c = i
  · subst h
    rw [Function.update_self]
    rfl
  · rw [Function.update_of_ne h]

theorem calm_writeSIF0 (s : Side E) (word : Word) : Calm c s (s.writeSIF0 word) := by
  unfold Side.writeSIF0 Side.pushSIF0
  dsimp only
  refine ⟨?_, ?_, rfl, rfl⟩
  · unfold regs
    dsimp only
    split_ifs
    · exact regs_clearDMARequest _
    · rfl
  · dsimp only
    split_ifs
    · exact dicr_clearDMARequest
    · rfl

theorem fifo_writeSIF0 (s : Side E) (word : Word) :
    (s.writeSIF0 word).sif.SIF0_FIFO = s.sif.SIF0_FIFO ++ [word] := rfl

/-- The words that fill a quadword up. -/
theorem sendSIF0Junk_fills (s : Side E) (stack : Fin 4 → Word) (count : ℕ) :
    Calm c s (s.sendSIF0Junk stack count) ∧
      ∃ fill, (s.sendSIF0Junk stack count).sif.SIF0_FIFO = s.sif.SIF0_FIFO ++ fill := by
  unfold Side.sendSIF0Junk
  dsimp only
  generalize (List.finRange 4).drop (4 - count) = l
  generalize Function.update stack _ _ = temp
  induction l generalizing s with
  | nil => exact ⟨⟨rfl, rfl, rfl, rfl⟩, [], (List.append_nil _).symm⟩
  | cons i l ih =>
    obtain ⟨hcalm, fill, hfill⟩ := ih (s.writeSIF0 (temp i))
    refine ⟨(calm_writeSIF0 s (temp i)).trans hcalm, temp i :: fill, ?_⟩
    rw [List.foldl_cons, hfill, fifo_writeSIF0, List.append_assoc]
    rfl

/-- A word is taken from the front. -/
theorem readSIF1_takes {value : Word} (h : s.readSIF1 = some (value, s')) :
    Calm c s s' ∧ s.sif.SIF1_FIFO = value :: s'.sif.SIF1_FIFO := by
  unfold Side.readSIF1 at h
  cases hf : s.sif.SIF1_FIFO with
  | nil =>
    rw [hf] at h
    cases h
  | cons v rest =>
    rw [hf] at h
    cases h
    refine ⟨⟨?_, ?_, rfl, rfl⟩, rfl⟩
    · unfold regs
      dsimp only
      split_ifs
      · exact regs_clearDMARequest _
      · rfl
    · dsimp only
      split_ifs
      · exact dicr_clearDMARequest
      · rfl

/-- The registers of a channel whose transfer has ended. -/
def Regs.ended (r : Regs) : Regs := { r with tagEnd := false, busy := false }

theorem regs_modifyChannel (f : IOP_DMA_Channel → IOP_DMA_Channel) :
    regsOf ((d.modifyChannel c f).channels c) = regsOf (f (d.channels c)) := by
  rw [channels_modifyChannel, Function.update_self]

theorem dicr_endTransfer : (d.endTransfer c).dicr = d.dicr := by
  unfold IOP_DMA.endTransfer
  dsimp only
  split_ifs
  · exact dicr_findNewActiveChannel
  · rfl

theorem regs_endTransfer : regsOf ((d.endTransfer c).channels c) = (regsOf (d.channels c)).ended := by
  rw [channels_endTransfer, regs_modifyChannel]
  rfl

/-- The end of a transfer. -/
structure Finished (c : Chan) (s s' : Side E) : Prop where
  regs : regs c s' = (regs c s).ended
  sif : s'.sif = s.sif
  ram : s'.ram = s.ram
  interrupts : Interrupts c s s'

theorem ensures_transferEnd : Ensures (transferEnd c) s fun _ s' => Finished c s s' := by
  unfold transferEnd modifyDMA flagInterrupt
  simp only [ensures_bind, ensures_modify, dicr_endTransfer]
  split_ifs with hm
  · refine ⟨regs_endTransfer, rfl, rfl, ?_⟩
    unfold Interrupts
    dsimp only
    rw [if_pos hm]
  · refine ⟨regs_endTransfer, rfl, rfl, ?_⟩
    unfold Interrupts
    dsimp only
    rw [if_neg hm, Function.update_self]
    exact ⟨rfl, rfl⟩

/-- What a word does to the registers. -/
def Regs.word (r : Regs) : Regs := { r with addr := r.addr + 4, wordCount := r.wordCount - 1 }

/-- A word has been moved: the channel has ended if it was the last one of the chain. -/
structure WordMoved (c : Chan) (s s' : Side E) : Prop where
  ended : (regs c s).wordCount = 1 → (regs c s).tagEnd = true →
    regs c s' = (regs c s).word.ended ∧ Interrupts c s s'
  going : ¬ ((regs c s).wordCount = 1 ∧ (regs c s).tagEnd = true) → regs c s' = (regs c s).word

theorem WordMoved.of_end (hr : regs c s' = (regs c s).word) (hd : s'.dma.dicr = s.dma.dicr) (hi : s'.irqs = s.irqs)
    (he : (regs c s).wordCount = 1 ∧ (regs c s).tagEnd = true) (hf : Finished c s' s'') : WordMoved c s s'' := by
  refine ⟨fun _ _ => ⟨hf.regs.trans (congrArg Regs.ended hr), ?_⟩, fun hn => absurd he hn⟩
  have hinterrupts := hf.interrupts
  unfold Interrupts at hinterrupts ⊢
  rwa [hd, hi] at hinterrupts

theorem WordMoved.of_going (hr : regs c s' = (regs c s).word)
    (hn : ¬ ((regs c s).wordCount = 1 ∧ (regs c s).tagEnd = true)) : WordMoved c s s' :=
  ⟨fun h1 h2 => absurd ⟨h1, h2⟩ hn, fun _ => hr⟩

/-- A word is counted off. -/
def counted (c : Chan) (s : Side E) : Side E :=
  { s with dma := s.dma.modifyChannel c fun ch => { ch with addr := ch.addr + 4, wordCount := ch.wordCount - 1 } }

theorem regs_counted (h : regs c s' = regs c s) : regs c (counted c s') = (regs c s).word := by
  unfold counted regs
  dsimp only
  rw [regs_modifyChannel]
  exact congrArg Regs.word h

theorem last_word {w : Word} : w - 1 = 0 ↔ w = 1 := by
  constructor
  · intro h
    rw [← BitVec.sub_add_cancel w 1, h]
    rfl
  · rintro rfl
    rfl

theorem run_wordSIF0 : (wordSIF0 stack).run s = StateT.run (do
    let ch ← channel IOP_SIF0
    if ch.wordCount = 0 then
      sendSIF0Junk stack (← get).junkWords
      if ch.tagEnd then transferEnd IOP_SIF0 : M E Unit)
    (counted IOP_SIF0 (s.writeSIF0 (s.ram.read32 (regs IOP_SIF0 s).addr))) := rfl

theorem ensures_wordSIF0 : Ensures (wordSIF0 stack) s fun _ s' => WordMoved IOP_SIF0 s s' ∧ s'.ram = s.ram ∧
    ∃ fill, s'.sif.SIF0_FIFO = s.sif.SIF0_FIFO ++ s.ram.read32 (regs IOP_SIF0 s).addr :: fill ∧
      ((regs IOP_SIF0 s).wordCount ≠ 1 → fill = []) := by
  unfold Ensures
  rw [run_wordSIF0]
  generalize hw : s.ram.read32 (regs IOP_SIF0 s).addr = word
  have hcalm : Calm IOP_SIF0 s (s.writeSIF0 word) := calm_writeSIF0 s word
  have hregs : regs IOP_SIF0 (counted IOP_SIF0 (s.writeSIF0 word)) = (regs IOP_SIF0 s).word := regs_counted hcalm.regs
  have hfifo : (counted IOP_SIF0 (s.writeSIF0 word)).sif.SIF0_FIFO = s.sif.SIF0_FIFO ++ [word] := rfl
  have hdicr : (counted IOP_SIF0 (s.writeSIF0 word)).dma.dicr = s.dma.dicr := hcalm.dicr
  have hirqs : (counted IOP_SIF0 (s.writeSIF0 word)).irqs = s.irqs := hcalm.irqs
  have hram : (counted IOP_SIF0 (s.writeSIF0 word)).ram = s.ram := hcalm.ram
  generalize counted IOP_SIF0 (s.writeSIF0 word) = s₁ at *
  have hcount : (s₁.dma.channels IOP_SIF0).wordCount = 0 ↔ (regs IOP_SIF0 s).wordCount = 1 :=
    (Eq.congr_left (congrArg Regs.wordCount hregs)).trans last_word
  have htag : (s₁.dma.channels IOP_SIF0).tagEnd = (regs IOP_SIF0 s).tagEnd := congrArg Regs.tagEnd hregs
  show Ensures _ s₁ _
  unfold channel sendSIF0Junk
  simp only [ensures_bind, ensures_get, ensures_pure, ensures_modify, ensures_ite, hcount, htag]
  obtain ⟨hfilled, fill, hfill⟩ := sendSIF0Junk_fills (c := IOP_SIF0) s₁ stack s₁.junkWords
  have hafter : (s₁.sendSIF0Junk stack s₁.junkWords).sif.SIF0_FIFO = s.sif.SIF0_FIFO ++ word :: fill := by
    rw [hfill, hfifo, List.append_assoc]
    rfl
  refine ⟨fun h1 => ⟨fun ht => ?_, fun ht => ?_⟩, fun h1 => ?_⟩
  · refine ensures_transferEnd.mono fun _ s' hf => ⟨?_, hf.ram.trans (hfilled.ram.trans hram), fill, ?_, ?_⟩
    · exact .of_end (hfilled.regs.trans hregs) (hfilled.dicr.trans hdicr) (hfilled.irqs.trans hirqs) ⟨h1, ht⟩ hf
    · rw [hf.sif, hafter]
    · exact fun hn => absurd h1 hn
  · exact ⟨.of_going (hfilled.regs.trans hregs) fun hn => ht hn.2, hfilled.ram.trans hram, fill, hafter,
      fun hn => absurd h1 hn⟩
  · exact ⟨.of_going hregs fun hn => h1 hn.1, hram, [], hfifo, fun _ => rfl⟩

theorem run_wordSIF1 : (wordSIF1 : M E Unit).run s = StateT.run (do
    let data ← readSIF1
    modify fun s => counted IOP_SIF1 { s with ram := s.ram.write32 (regs IOP_SIF1 s).addr data }
    let ch ← channel IOP_SIF1
    if ch.wordCount = 0 ∧ ch.tagEnd then transferEnd IOP_SIF1 : M E Unit) s := rfl

theorem ensures_readSIF1 : Ensures (readSIF1 : M E Word) s fun value s' =>
    Calm c s s' ∧ s.sif.SIF1_FIFO = value :: s'.sif.SIF1_FIFO := fun _ _ hr => readSIF1_takes hr

theorem ensures_wordSIF1 : Ensures (wordSIF1 : M E Unit) s fun _ s' => WordMoved IOP_SIF1 s s' ∧
    ∃ data, s.sif.SIF1_FIFO = data :: s'.sif.SIF1_FIFO ∧ s'.ram = s.ram.write32 (regs IOP_SIF1 s).addr data := by
  unfold Ensures
  rw [run_wordSIF1]
  show Ensures _ s _
  rw [ensures_bind]
  refine (ensures_readSIF1 (c := IOP_SIF1)).mono fun data s' hread => ?_
  obtain ⟨hcalm, hfifo⟩ := hread
  unfold channel
  simp only [ensures_bind, ensures_get, ensures_pure, ensures_modify, ensures_ite]
  have hregs : regs IOP_SIF1 (counted IOP_SIF1 { s' with ram := s'.ram.write32 (regs IOP_SIF1 s').addr data }) =
      (regs IOP_SIF1 s).word := regs_counted hcalm.regs
  have hfifo₁ : (counted IOP_SIF1 { s' with ram := s'.ram.write32 (regs IOP_SIF1 s').addr data }).sif.SIF1_FIFO =
      s'.sif.SIF1_FIFO := rfl
  have hdicr : (counted IOP_SIF1 { s' with ram := s'.ram.write32 (regs IOP_SIF1 s').addr data }).dma.dicr =
      s.dma.dicr := hcalm.dicr
  have hirqs : (counted IOP_SIF1 { s' with ram := s'.ram.write32 (regs IOP_SIF1 s').addr data }).irqs = s.irqs :=
    hcalm.irqs
  have hram : (counted IOP_SIF1 { s' with ram := s'.ram.write32 (regs IOP_SIF1 s').addr data }).ram =
      s.ram.write32 (regs IOP_SIF1 s).addr data := by
    rw [← hcalm.ram, ← hcalm.regs]
    rfl
  generalize counted IOP_SIF1 { s' with ram := s'.ram.write32 (regs IOP_SIF1 s').addr data } = s₁ at *
  have hcount : (s₁.dma.channels IOP_SIF1).wordCount = 0 ↔ (regs IOP_SIF1 s).wordCount = 1 :=
    (Eq.congr_left (congrArg Regs.wordCount hregs)).trans last_word
  have htag : (s₁.dma.channels IOP_SIF1).tagEnd = (regs IOP_SIF1 s).tagEnd := congrArg Regs.tagEnd hregs
  rw [hcount, htag]
  refine ⟨fun he => ?_, fun hn => ?_⟩
  · refine ensures_transferEnd.mono fun _ s'' hf => ⟨.of_end hregs hdicr hirqs he hf, data, ?_, hf.ram.trans hram⟩
    rw [hf.sif, hfifo₁, hfifo]
  · exact ⟨.of_going hregs hn, data, by rw [hfifo₁, hfifo], hram⟩

/-- What a tag does to the registers. -/
structure Tagged (c : Chan) (p : Packet) (s s' : Side E) : Prop where
  addr : (regs c s').addr = p.addr
  wordCount : (regs c s').wordCount.toNat = p.left
  tagEnd : (regs c s').tagEnd = ((regs c s).tagEnd || p.last)
  busy : (regs c s').busy = (regs c s).busy

theorem tagged_of_load {data words : Word} {f : IOP_DMA_Channel → IOP_DMA_Channel}
    (hf : ∀ ch, regsOf (f ch) = { regsOf (loadTag ch data words) with tagAddr := (f ch).tagAddr })
    (hr : regs c s' = regs c s) (h : s''.dma = s'.dma.modifyChannel c f) : Tagged c (packet data words) s s'' := by
  have hregs : regs c s'' = { regsOf (loadTag (s'.dma.channels c) data words) with
      tagAddr := (f (s'.dma.channels c)).tagAddr } := by
    unfold regs
    rw [h, regs_modifyChannel, hf]
  have hend : (s'.dma.channels c).tagEnd = (regs c s).tagEnd := congrArg Regs.tagEnd hr
  have hbusy : (s'.dma.channels c).control.busy = (regs c s).busy := congrArg Regs.busy hr
  constructor
  · rw [hregs]
    rfl
  · rw [hregs]
    rfl
  · rw [hregs, ← hend]
    exact Bool.or_assoc _ _ _
  · rw [hregs, ← hbusy]
    rfl

theorem ensures_tagSIF0 : Ensures (tagSIF0 : M E Unit) s fun _ s' =>
    Tagged IOP_SIF0 (packet (s.ram.read32 (regs IOP_SIF0 s).tagAddr)
      (s.ram.read32 ((regs IOP_SIF0 s).tagAddr + 4) &&& 0xFFFFF#32)) s s' ∧
    (regs IOP_SIF0 s').tagAddr = (regs IOP_SIF0 s).tagAddr + 16 := by
  unfold tagSIF0 channel read32 writeSIF0 modifyChannel modifyDMA
  simp only [ensures_bind, ensures_get, ensures_pure, ensures_modify]
  generalize s.ram.read32 ((s.dma.channels IOP_SIF0).tagAddr + 8) = word
  generalize (s.writeSIF0 word).ram.read32 ((s.dma.channels IOP_SIF0).tagAddr + 12) = word'
  have hcalm : Calm IOP_SIF0 s ((s.writeSIF0 word).writeSIF0 word') :=
    (calm_writeSIF0 s word).trans (calm_writeSIF0 _ word')
  refine ⟨tagged_of_load (f := fun ch => { loadTag ch _ _ with tagAddr := ch.tagAddr + 16 }) (fun _ => rfl)
    hcalm.regs rfl, ?_⟩
  unfold regs
  dsimp only
  rw [regs_modifyChannel]
  exact congrArg (· + 16) (congrArg Regs.tagAddr hcalm.regs)

theorem ensures_tagSIF1 {data words ee ee' : Word} {rest : List Word}
    (h : s.sif.SIF1_FIFO = data :: words :: ee :: ee' :: rest) : Ensures (tagSIF1 : M E Unit) s fun _ s' =>
    Tagged IOP_SIF1 (packet data (words &&& 0xFFFFC#32)) s s' ∧ s'.sif.SIF1_FIFO = rest := by
  unfold tagSIF1
  simp only [ensures_bind]
  refine (ensures_readSIF1 (c := IOP_SIF1)).mono fun data' s₁ h₁ => ?_
  obtain ⟨calm₁, fifo₁⟩ := h₁
  obtain ⟨rfl, tail₁⟩ := List.cons.inj (h.symm.trans fifo₁)
  refine (ensures_readSIF1 (c := IOP_SIF1)).mono fun words' s₂ h₂ => ?_
  obtain ⟨calm₂, fifo₂⟩ := h₂
  obtain ⟨rfl, tail₂⟩ := List.cons.inj (tail₁.trans fifo₂)
  refine (ensures_readSIF1 (c := IOP_SIF1)).mono fun _ s₃ h₃ => ?_
  obtain ⟨calm₃, fifo₃⟩ := h₃
  obtain ⟨-, tail₃⟩ := List.cons.inj (tail₂.trans fifo₃)
  refine (ensures_readSIF1 (c := IOP_SIF1)).mono fun _ s₄ h₄ => ?_
  obtain ⟨calm₄, fifo₄⟩ := h₄
  obtain ⟨-, tail₄⟩ := List.cons.inj (tail₃.trans fifo₄)
  unfold modifyChannel modifyDMA
  rw [ensures_modify]
  exact ⟨tagged_of_load (fun ch => rfl) (((calm₁.trans calm₂).trans calm₃).trans calm₄).regs rfl, tail₄.symm⟩

/-! ### The invariant -/

/-- What the registers say is left of the tag. -/
def Inv (line : Line) (l : Chain E) : Prop :=
  match l.pending with
  | some p => 0 < p.left ∧ (regs line.chan l.side).wordCount.toNat = p.left ∧ (regs line.chan l.side).addr = p.addr ∧
      (regs line.chan l.side).tagEnd = p.last ∧ (regs line.chan l.side).busy = true
  | none => (regs line.chan l.side).wordCount = 0 ∧ (regs line.chan l.side).tagEnd = false

theorem WordMoved.tagAddr (h : WordMoved c s s') : (regs c s').tagAddr = (regs c s).tagAddr := by
  by_cases he : (regs c s).wordCount = 1 ∧ (regs c s).tagEnd = true
  · rw [(h.ended he.1 he.2).1]
    rfl
  · rw [h.going he]
    rfl

/-- The handlers where a word is left. -/
theorem ensures_process_word {p : Packet} (h : (regs line.chan s).wordCount ≠ 0)
    (haddr : (regs line.chan s).addr = p.addr) (hleft : (regs line.chan s).wordCount.toNat = p.left) :
    Ensures (line.process stack) s fun _ s' => WordMoved line.chan s s' ∧ Moved p s s' line := by
  cases line with
  | SIF0 =>
    show Ensures (processSIF0 stack) s _
    unfold processSIF0 channel
    simp only [ensures_bind, ensures_get, ensures_pure, ensures_ite]
    refine ⟨fun _ => ensures_wordSIF0.mono fun _ s' hword => ?_, fun hn => absurd h hn⟩
    obtain ⟨hmoved, hram, fill, hfifo, hfill⟩ := hword
    refine ⟨hmoved, hmoved.tagAddr, hram, fill, ?_, fun hlt => hfill fun hone => ?_⟩
    · rw [hfifo, ← haddr]
      rfl
    · have hleft' : (regs IOP_SIF0 s).wordCount.toNat = p.left := hleft
      rw [hone] at hleft'
      exact absurd hleft' (by show 1 ≠ p.left; omega)
  | SIF1 =>
    show Ensures processSIF1 s _
    unfold processSIF1 channel
    simp only [ensures_bind, ensures_get, ensures_pure, ensures_ite]
    refine ⟨fun _ => ensures_wordSIF1.mono fun _ s' hword => ?_, fun hn => absurd h hn⟩
    obtain ⟨hmoved, data, hfifo, hram⟩ := hword
    refine ⟨hmoved, data, hfifo, ?_⟩
    rw [hram, ← haddr]
    rfl

theorem tagOf_four {data words ee ee' : Word} {rest : List Word}
    (h : s.sif.SIF1_FIFO = data :: words :: ee :: ee' :: rest) :
    tagOf s .SIF1 = some (packet data (words &&& 0xFFFFC#32)) := by
  unfold tagOf
  rw [h]

theorem tagOf_few (h : ¬ 4 ≤ s.sif.SIF1_FIFO.length) : tagOf s .SIF1 = none := by
  unfold tagOf
  rcases hf : s.sif.SIF1_FIFO with _ | ⟨data, _ | ⟨words, _ | ⟨ee, _ | ⟨ee', rest⟩⟩⟩⟩
  · rfl
  · rfl
  · rfl
  · rfl
  · rw [hf] at h
    exact absurd (by simp) h

theorem four_of_length {l : List Word} (h : 4 ≤ l.length) :
    ∃ data words ee ee' rest, l = data :: words :: ee :: ee' :: rest := by
  rcases l with _ | ⟨data, _ | ⟨words, _ | ⟨ee, _ | ⟨ee', rest⟩⟩⟩⟩
  · exact absurd h (by simp)
  · exact absurd h (by simp)
  · exact absurd h (by simp)
  · exact absurd h (by simp)
  · exact ⟨data, words, ee, ee', rest, rfl⟩

/-- Either the tag is read or nothing happens. -/
structure Fetched (line : Line) (s s' : Side E) : Prop where
  tag : ∀ p, tagOf s line = some p → Tagged line.chan p s s' ∧ TagRead s s' line
  waits : tagOf s line = none → s' = s

/-- The handlers where no word is left. -/
theorem ensures_process_tag (h : (regs line.chan s).wordCount = 0) :
    Ensures (line.process stack) s fun _ s' => Fetched line s s' := by
  cases line with
  | SIF0 =>
    have htag : tagOf s .SIF0 = if s.sif.SIF0_FIFO.length ≤ MAX_FIFO_SIZE - 2 then
        some (packet (s.ram.read32 (regs IOP_SIF0 s).tagAddr)
          (s.ram.read32 ((regs IOP_SIF0 s).tagAddr + 4) &&& 0xFFFFF#32)) else none := rfl
    show Ensures (processSIF0 stack) s _
    unfold processSIF0 channel
    simp only [ensures_bind, ensures_get, ensures_pure, ensures_ite]
    refine ⟨fun hn => absurd h hn, fun _ => ⟨fun hroom => ?_, fun hfull => ?_⟩⟩
    · rw [if_pos hroom] at htag
      refine ensures_tagSIF0.mono fun _ s' hread => ⟨fun p hp => ?_, fun hn => ?_⟩
      · cases htag.symm.trans hp
        exact hread
      · cases htag.symm.trans hn
    · rw [if_neg hfull] at htag
      refine ⟨fun p hp => ?_, fun _ => rfl⟩
      cases htag.symm.trans hp
  | SIF1 =>
    show Ensures processSIF1 s _
    unfold processSIF1 channel
    simp only [ensures_bind, ensures_get, ensures_pure, ensures_ite]
    refine ⟨fun hn => absurd h hn, fun _ => ⟨fun hfour => ?_, fun hfew => ?_⟩⟩
    · obtain ⟨data, words, ee, ee', rest, hf⟩ := four_of_length hfour
      refine (ensures_tagSIF1 hf).mono fun _ s' hread => ⟨fun p hp => ?_, fun hn => ?_⟩
      · cases (tagOf_four hf).symm.trans hp
        refine ⟨hread.1, ?_⟩
        show s'.sif.SIF1_FIFO = s.sif.SIF1_FIFO.drop 4
        rw [hread.2, hf]
        rfl
      · cases (tagOf_four hf).symm.trans hn
    · refine ⟨fun p hp => ?_, fun _ => rfl⟩
      cases (tagOf_few hfew).symm.trans hp

/-! ### The condition -/

variable {l l' : Chain E} {p : Packet}

theorem over_of_going {ends : Prop} (hb : (regs c s').busy = true) (he : ¬ ends) : Over c ends s s' :=
  ⟨iff_of_false (by rw [hb]; exact Bool.noConfusion) he, fun h => absurd h he⟩

theorem inv_of_start (hcount : (regs line.chan s).wordCount.toNat = p.left)
    (hzero : p.left = 0 → (regs line.chan s).tagEnd = false)
    (hrest : p.left ≠ 0 → (regs line.chan s).addr = p.addr ∧ (regs line.chan s).tagEnd = p.last ∧
      (regs line.chan s).busy = true) : Inv line ⟨s, p.start⟩ := by
  unfold Inv Packet.start
  by_cases hz : p.left = 0
  · rw [if_pos hz]
    refine ⟨BitVec.eq_of_toNat_eq ?_, hzero hz⟩
    rw [hcount, hz]
    rfl
  · rw [if_neg hz]
    obtain ⟨haddr, hend, hbusy⟩ := hrest hz
    exact ⟨Nat.pos_of_ne_zero hz, hcount, haddr, hend, hbusy⟩

/-- A word of a tag. -/
theorem served_word (h : Inv line l) (hp : l.pending = some p) : Ensures (line.process stack) l.side fun _ s' =>
    Served line l s' ∧ Inv line ⟨s', l.next line⟩ := by
  unfold Inv at h
  rw [hp] at h
  obtain ⟨hpos, hcount, haddr, hend, hbusy⟩ := h
  have hne : (regs line.chan l.side).wordCount ≠ 0 := by
    intro hz
    rw [hz] at hcount
    exact absurd hcount (by show 0 ≠ p.left; omega)
  have hone : (regs line.chan l.side).wordCount = 1 ↔ p.left = 1 := by
    rw [← BitVec.toNat_inj, hcount]
    exact Iff.rfl
  have hless : ((regs line.chan l.side).wordCount - 1).toNat = p.left - 1 := by
    rw [BitVec.toNat_sub_of_le (by rw [BitVec.le_def, hcount]; exact hpos), hcount]
    rfl
  refine (ensures_process_word hne haddr hcount).mono fun _ s' hw => ?_
  obtain ⟨hword, hmoved⟩ := hw
  have hnext : l.next line = Packet.start ⟨p.last, p.addr + 4, p.left - 1⟩ := by
    unfold Chain.next Packet.next
    rw [hp]
  have hserved (ho : Over line.chan (p.last = true ∧ p.left = 1) l.side s') : Served line l s' := by
    unfold Served
    rw [hp]
    exact ⟨hmoved, ho⟩
  rw [hnext]
  by_cases he : p.last = true ∧ p.left = 1
  · obtain ⟨hregs, hinterrupts⟩ := hword.ended (hone.mpr he.2) (hend.trans he.1)
    refine ⟨hserved ⟨iff_of_true (by rw [hregs]; rfl) he, fun _ => hinterrupts⟩, inv_of_start ?_ ?_ ?_⟩
    · rw [hregs]
      exact hless
    · rw [hregs]
      exact fun _ => rfl
    · intro hn
      exact absurd (show p.left - 1 = 0 by omega) hn
  · have hregs := hword.going (by rwa [hone, hend, and_comm])
    refine ⟨hserved (over_of_going (by rw [hregs]; exact hbusy) he), inv_of_start ?_ ?_ ?_⟩
    · rw [hregs]
      exact hless
    · intro hz
      replace hz : p.left - 1 = 0 := hz
      rw [hregs]
      show (regs line.chan l.side).tagEnd = false
      rw [hend]
      exact Bool.eq_false_iff.mpr fun hl => he ⟨hl, by omega⟩
    · intro _
      rw [hregs]
      exact ⟨congrArg (· + 4) haddr, hend, hbusy⟩

/-- A tag, or none. -/
theorem served_tag (h : Inv line l) (hb : (regs line.chan l.side).busy = true) (hp : l.pending = none)
    (hf : ∀ p ∈ tagOf l.side line, ¬ (p.last = true ∧ p.left = 0)) : Ensures (line.process stack) l.side fun _ s' =>
    Served line l s' ∧ Inv line ⟨s', l.next line⟩ := by
  unfold Inv at h
  rw [hp] at h
  refine (ensures_process_tag h.1).mono fun _ s' hfetch => ?_
  unfold Served Chain.next
  rw [hp]
  cases ht : tagOf l.side line with
  | none =>
    obtain rfl := hfetch.waits ht
    exact ⟨rfl, h⟩
  | some p =>
    obtain ⟨htag, hread⟩ := hfetch.tag p ht
    have hn := hf p ht
    have hend : (regs line.chan s').tagEnd = p.last := by
      rw [htag.tagEnd, h.2, Bool.false_or]
    refine ⟨⟨hread, over_of_going (htag.busy.trans hb) hn⟩, inv_of_start htag.wordCount (fun hz => ?_) fun _ => ?_⟩
    · rw [hend]
      exact Bool.eq_false_iff.mpr fun hl => hn ⟨hl, hz⟩
    · exact ⟨htag.addr, hend, htag.busy.trans hb⟩

theorem ends_tagSIF0 : Ends (tagSIF0 : M E Unit) := by
  unfold tagSIF0 channel read32 writeSIF0 modifyChannel modifyDMA
  refine ends_bind (ends_bind ends_get fun _ => ends_pure _) fun _ =>
    ends_bind (ends_bind ends_get fun _ => ends_pure _) fun _ =>
    ends_bind (ends_bind ends_get fun _ => ends_pure _) fun _ =>
    ends_bind (ends_bind ends_get fun _ => ends_pure _) fun _ => ends_bind (ends_modify _) fun _ =>
    ends_bind (ends_bind ends_get fun _ => ends_pure _) fun _ => ends_bind (ends_modify _) fun _ =>
    ends_bind (ends_modify _) fun _ => ends_modify _

theorem readSIF1_some {value : Word} {rest : List Word} (h : s.sif.SIF1_FIFO = value :: rest) :
    ∃ s', (readSIF1 : M E Word).run s = some (value, s') ∧ s'.sif.SIF1_FIFO = rest := by
  show ∃ s', s.readSIF1 = some (value, s') ∧ _
  unfold Side.readSIF1
  rw [h]
  exact ⟨_, rfl, rfl⟩

theorem tagSIF1_runs {data words ee ee' : Word} {rest : List Word}
    (h : s.sif.SIF1_FIFO = data :: words :: ee :: ee' :: rest) : ∃ s', (tagSIF1 : M E Unit).run s = some ((), s') := by
  obtain ⟨s₁, h₁, f₁⟩ := readSIF1_some h
  obtain ⟨s₂, h₂, f₂⟩ := readSIF1_some f₁
  obtain ⟨s₃, h₃, f₃⟩ := readSIF1_some f₂
  obtain ⟨s₄, h₄, -⟩ := readSIF1_some f₃
  unfold tagSIF1
  simp only [StateT.run_bind, h₁, h₂, h₃, h₄, Option.bind_eq_bind, Option.bind_some]
  exact ⟨_, rfl⟩

/-- The handler comes to an end where it reads a tag. -/
theorem tag_runs (h : (regs line.chan s).wordCount = 0) (ht : tagOf s line = some p) (stack : Fin 4 → Word) :
    ∃ s', (line.process stack).run s = some ((), s') := by
  cases line with
  | SIF0 =>
    have hrun : (processSIF0 stack).run s = if (regs IOP_SIF0 s).wordCount ≠ 0 then (wordSIF0 stack).run s
        else if s.sif.SIF0_FIFO.length ≤ MAX_FIFO_SIZE - 2 then (tagSIF0 : M E Unit).run s else some ((), s) := by
      unfold processSIF0 channel
      simp only [StateT.run_bind, StateT.run_get, Option.bind_eq_bind, Option.pure_def, Option.bind_some,
        StateT.run_pure, apply_ite (StateT.run · s)]
      rfl
    have hroom : s.sif.SIF0_FIFO.length ≤ MAX_FIFO_SIZE - 2 := by
      by_contra hn
      unfold tagOf at ht
      rw [if_neg hn] at ht
      cases ht
    show ∃ s', (processSIF0 stack).run s = some ((), s')
    have hzero : ¬ (regs IOP_SIF0 s).wordCount ≠ 0 := not_not.mpr h
    rw [hrun, if_neg hzero, if_pos hroom]
    obtain ⟨⟨_, s'⟩, hs⟩ := ends_tagSIF0 s
    exact ⟨s', hs⟩
  | SIF1 =>
    have hrun : (processSIF1 : M E Unit).run s = if (regs IOP_SIF1 s).wordCount ≠ 0 then (wordSIF1 : M E Unit).run s
        else if 4 ≤ s.sif.SIF1_FIFO.length then (tagSIF1 : M E Unit).run s else some ((), s) := by
      unfold processSIF1 channel
      simp only [StateT.run_bind, StateT.run_get, Option.bind_eq_bind, Option.pure_def, Option.bind_some,
        StateT.run_pure, apply_ite (StateT.run · s)]
      rfl
    have hfour : 4 ≤ s.sif.SIF1_FIFO.length := by
      by_contra hn
      cases (tagOf_few hn).symm.trans ht
    obtain ⟨data, words, ee, ee', rest, hf⟩ := four_of_length hfour
    show ∃ s', (processSIF1 : M E Unit).run s = some ((), s')
    have hzero : ¬ (regs IOP_SIF1 s).wordCount ≠ 0 := not_not.mpr h
    rw [hrun, if_neg hzero, if_pos hfour]
    exact tagSIF1_runs hf

/-- **The condition is exact** for each step. -/
theorem good_iff_fine (h : Inv line l) (a : Action E) : Good line l a ↔ Fine line l a := by
  cases a with
  | serve stack =>
    constructor
    · intro hg hb hp p ht hn
      have hinv := h
      unfold Inv at hinv
      rw [hp] at hinv
      obtain ⟨s', hrun⟩ := tag_runs hinv.1 ht stack
      have hserved := hg hb s' hrun
      have hbusy := ((ensures_process_tag hinv.1) _ _ hrun).tag p ht
      unfold Served at hserved
      rw [hp] at hserved
      rw [ht] at hserved
      have hidle := hserved.2.1.mpr hn
      rw [hbusy.1.busy, hb] at hidle
      cases hidle
    · intro hf hb s' hrun
      cases hp : l.pending with
      | none => exact (served_tag h hb hp (hf hb hp) _ _ hrun).1
      | some p => exact (served_word h hp _ _ hrun).1
  | other s => exact Iff.rfl
  | restart s => exact Iff.rfl

/-- **The step lemma.** -/
theorem inv_step {a : Action E} (h : Inv line l) (hf : Fine line l a) (hs : Step line l a l') : Inv line l' := by
  obtain ⟨side, pending⟩ := l'
  cases a with
  | serve stack =>
    obtain ⟨hb, hrun, rfl⟩ := hs
    cases hp : l.pending with
    | none => exact (served_tag h hb hp (hf hb hp) _ _ hrun).2
    | some p => exact (served_word h hp _ _ hrun).2
  | other s =>
    obtain ⟨heq, hregs⟩ := hs
    cases heq
    unfold Inv at h ⊢
    rw [hregs]
    exact h
  | restart s =>
    obtain ⟨heq, hb, addr, tagAddr, hregs⟩ := hs
    cases heq
    unfold Inv at h ⊢
    cases hp : l.pending with
    | none =>
      rw [hp] at h
      rw [hregs]
      exact h
    | some p =>
      rw [hp] at h
      exact absurd (h.2.2.2.2.symm.trans hb) (by decide)

/-- The channel has been set to work and has read no tag. -/
structure Fresh (line : Line) (l : Chain E) : Prop where
  pending : l.pending = none
  wordCount : (regs line.chan l.side).wordCount = 0
  tagEnd : (regs line.chan l.side).tagEnd = false

/-- **The end of a chain.** -/
theorem chain_iff (h : Fresh line l) (as : List (Action E)) :
    Along (Step line) (Good line) l as ↔ Along (Step line) (Fine line) l as := by
  refine along_congr (fun _ a hl => good_iff_fine hl a) (fun _ _ _ hl hf hs => inv_step hl hf hs) as ?_
  unfold Inv
  rw [h.pending]
  exact ⟨h.wordCount, h.tagEnd⟩

/-- SIF1 is at work and the EE has sent the list. -/
def sent (fifo : List Word) : Side Unit :=
  { powerOn fun _ => 0 with
    dma := (blank.modifyChannel IOP_SIF1 fun ch => { ch with control := { ch.control with busy := true } })
    sif := ⟨fun _ => 0, [], fifo⟩ }

theorem chain_iff_sent : Along (Step .SIF1) (Good .SIF1) ⟨sent [0x80000000, 4, 0, 0], none⟩ [.serve fun _ => 0] ↔
    Along (Step .SIF1) (Fine .SIF1) ⟨sent [0x80000000, 4, 0, 0], none⟩ [.serve fun _ => 0] :=
  chain_iff ⟨rfl, rfl, rfl⟩ _

/-- After an end tag without words the channel is still at work. -/
theorem not_chain_end : ¬ ∀ (line : Line) (l : Chain Unit) (as : List (Action Unit)), Fresh line l →
    Along (Step line) (Good line) l as := by
  intro h
  have hgood : Good .SIF1 ⟨sent [0x80000000, 0, 0, 0], none⟩ (.serve fun _ => 0) :=
    (h .SIF1 ⟨sent [0x80000000, 0, 0, 0], none⟩ [.serve fun _ => 0] ⟨rfl, rfl, rfl⟩).head
  have hserved := hgood rfl _ rfl
  have hidle := hserved.2.1.mpr ⟨rfl, rfl⟩
  cases hidle

end DobieStation.Iop.ChainEnd
