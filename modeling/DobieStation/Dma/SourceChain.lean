import DobieStation.Dma.ChainFrame

/-! # A source chain hands over the walk of its tags

The handlers of VIF0, VIF1, the GIF, the IPU and SIF1 stop after any quadword or tag that is
refused, and after every slice. Wherever they stop, what has been handed over and the walk from the
position of the channel are together the walk from where the chain started (`Tracks`). Each handler keeps
that, and ends the channel at the end of the walk only (`process_settles`); everything else is aside
of the chain, so that it holds in every run (`source_chain`). -/

namespace DobieStation.Dma.SourceChain

open DobieStation.Lib.Hoare DobieStation.Lib.Reach
open DobieStation.Dma.Model DobieStation.Dma.Handlers DobieStation.Dma.Arbiter
open DobieStation.Dma.ChainTags DobieStation.Dma.ChainFrame
open DobieStation.Dma.TagWalk (Item Position Walk upperHalf)

variable {W V : Type} {P : Peripherals W V}

/-! ### The invariant -/

/-- Only the VIFs are given the upper halves of the tags. -/
def handsTags (c : Channel) (tte : Bool) : Bool := (c == .VIF0 || c == .VIF1) && tte

/-- The data of an ending tag has gone. -/
def Done (ch : DMAChannel) : Prop := ch.quadwordCount = 0 ∧ ch.tagEnd = true

/-- What the channel had handed over before the chain, and what the walk of the chain gives. -/
structure Job where
  before : List Item
  items : List Item

/-- The rest of the items is owed. -/
def Job.Owes (job : Job) (handed rest : List Item) : Prop :=
  ∃ given, handed = job.before ++ given ∧ job.items = given ++ rest

theorem Job.Owes.hand {job : Job} {handed rest : List Item} (l : List Item)
    (h : job.Owes handed (l ++ rest)) : job.Owes (handed ++ l) rest := by
  obtain ⟨given, rfl, hi⟩ := h
  exact ⟨given ++ l, List.append_assoc _ _ _, by rw [hi, List.append_assoc]⟩

/-- What has been handed over and the walk from here make up the job. -/
structure Tracks (c : Channel) (list : BitVec 32 → Option Quad) (tte tie : Bool)
    (job : Job) (s : State W V) : Prop where
  chain : Chain c tte tie (s.dmac.channels c)
  owes : ∃ rest, job.Owes (handed c s.trace) rest ∧
    Walk list (handsTags c tte) tie (position (s.dmac.channels c)) rest

/-- The list is in memory. -/
def InMemory (P : Peripherals W V) (list : BitVec 32 → Option Quad) (s : State W V) : Prop :=
  ∀ a q, list a = some q → s.mem.fetch128 P a = q

/-- The channel does not drain the MFIFO. -/
def NotDrain (c : Channel) (s : State W V) : Prop :=
  s.dmac.control.memDrainChannel.toNat ≠ c.index.val + 1

/-- The chain may go on: its list is in memory, the channel is started and does not drain the
MFIFO. -/
structure Env (P : Peripherals W V) (c : Channel) (list : BitVec 32 → Option Quad)
    (tte tie : Bool) (s : State W V) : Prop where
  chain : Chain c tte tie (s.dmac.channels c)
  started : (s.dmac.channels c).started = true
  mem : InMemory P list s
  drain : NotDrain c s

/-- The chain goes on, and what it has handed over is right so far. -/
structure Going (P : Peripherals W V) (c : Channel) (list : BitVec 32 → Option Quad)
    (tte tie : Bool) (job : Job) (s : State W V) : Prop where
  env : Env P c list tte tie s
  owes : ∃ rest, job.Owes (handed c s.trace) rest ∧
    Walk list (handsTags c tte) tie (position (s.dmac.channels c)) rest

variable {c : Channel} {list : BitVec 32 → Option Quad} {tte tie : Bool} {job : Job}
variable {s s' : State W V}

theorem SameRegisters.position {ch ch' : DMAChannel} (h : SameRegisters ch ch') :
    position ch' = position ch := by
  unfold ChainTags.position nextTag
  rw [h.address, h.quadwordCount, h.tagId, h.tagAddress, h.control, h.tagSave0, h.tagSave1,
    h.tagEnd]

theorem SameRegisters.chain {ch ch' : DMAChannel} (h : SameRegisters ch ch')
    (hc : Chain c tte tie ch) : Chain c tte tie ch' :=
  hc.congr (fun _ _ _ => by rw [h.control]) (by rw [h.control]; exact hc.asp)

theorem SameRegisters.done {ch ch' : DMAChannel} (h : SameRegisters ch ch') :
    Done ch' ↔ Done ch := by
  unfold Done
  rw [h.quadwordCount, h.tagEnd]

theorem Tracks.frame (h : Tracks c list tte tie job s) (hf : Frame c s s') :
    Tracks c list tte tie job s' := by
  refine ⟨SameRegisters.chain hf.registers h.chain, ?_⟩
  rw [hf.handed, SameRegisters.position hf.registers]
  exact h.owes

theorem Env.aside (h : Env P c list tte tie s) (ha : Aside c s s') : Env P c list tte tie s' := by
  refine ⟨SameRegisters.chain ha.registers h.chain, ha.registers.started.trans h.started,
    fun a q hq => ?_, ?_⟩
  · rw [ha.mem]
    exact h.mem a q hq
  · unfold NotDrain
    rw [ha.control]
    exact h.drain

theorem Going.aside (h : Going P c list tte tie job s) (ha : Aside c s s') :
    Going P c list tte tie job s' := by
  refine ⟨h.env.aside ha, ?_⟩
  rw [ha.handed, SameRegisters.position ha.registers]
  exact h.owes

theorem Going.tracks (h : Going P c list tte tie job s) : Tracks c list tte tie job s :=
  ⟨h.env.chain, h.owes⟩

/-! ### Quadwords -/

theorem mfifoHandler_skips (h : NotDrain c s) :
    Ensures (mfifoHandler c) s fun b s' => b = true ∧ s' = s := by
  unfold mfifoHandler
  rw [ensures_bind, ensures_dmac, ensures_ite]
  exact ⟨fun hd => absurd hd h, fun _ => ensures_pure.mpr ⟨rfl, rfl⟩⟩

theorem lastCheck_skips (h : NotDrain c s) (last : Prop) [Decidable last] :
    Ensures (if last then mfifoHandler c else pure true) s fun _ s' => s' = s := by
  rw [ensures_ite]
  exact ⟨fun _ => (mfifoHandler_skips h).mono fun _ _ hs => hs.2, fun _ => ensures_pure.mpr rfl⟩

/-- What `advance_source_dma` does, unless the channel drains the MFIFO. -/
theorem advanceSourceDMA_advances (h : NotDrain c s) : Ensures (advanceSourceDMA c) s fun _ s' =>
    s'.dmac.channels c = advanceFields { s.dmac.channels c with
      address := (s.dmac.channels c).address + 16 } ∧
    s'.dmac.control = s.dmac.control ∧ s'.mem = s.mem ∧ s'.trace = s.trace := by
  unfold advanceSourceDMA
  rw [ensures_bind, ensures_modifyChannel, ensures_bind, ensures_channel, ensures_bind]
  refine (lastCheck_skips ?_ _).mono fun _ s₁ hs₁ => ?_
  · exact h
  · rw [ensures_modifyChannel, hs₁]
    dsimp only
    rw [setChannel_self, setChannel_self]
    exact ⟨rfl, rfl, rfl, rfl⟩

/-- A quadword that the peripheral has taken is counted off. -/
theorem Going.handOver {n : ℕ} (h : Going P c list tte tie job s)
    (hn : (s.dmac.channels c).quadwordCount.toNat = n + 1) {q : Quad}
    (hq : q = s.mem.fetch128 P (s.dmac.channels c).address) :
    Ensures (advanceSourceDMA c) { s with trace := s.trace ++ [.quad c q] } fun _ s' =>
      Going P c list tte tie job s' ∧ (s'.dmac.channels c).quadwordCount.toNat = n := by
  have hd : NotDrain c { s with trace := s.trace ++ [.quad c q] } := h.env.drain
  refine (advanceSourceDMA_advances hd).mono fun _ s' ⟨hch, hctrl, hmem, htr⟩ => ?_
  obtain ⟨rest, howes, hwalk⟩ := h.owes
  obtain ⟨q', rest', hlq, rfl, hwalk'⟩ := hwalk.quad (n := n) hn
  have hqq : q = q' := hq.trans (h.env.mem _ _ hlq)
  subst hqq
  refine ⟨⟨⟨?_, ?_, fun a q hq => ?_, ?_⟩, rest', ?_, ?_⟩, ?_⟩
  · rw [hch]
    exact chain_advance h.env.chain
  · rw [hch]
    exact h.env.started
  · rw [hmem]
    exact h.env.mem a q hq
  · unfold NotDrain
    rw [hctrl]
    exact h.env.drain
  · rw [htr, handed_append]
    have hitem : (item c (.quad c q)).toList = [.quad q] := by simp [item]
    rw [hitem]
    exact Job.Owes.hand [.quad q] howes
  · rw [hch]
    rw [position_advance h.env.chain hn]
    exact hwalk'
  · rw [hch]
    exact toNat_sub_one hn

/-- A turn of the loop over a slice keeps the chain going. -/
def KeepsGoing (P : Peripherals W V) (c : Channel) (list : BitVec 32 → Option Quad)
    (tte tie : Bool) (job : Job) (turn : M W V Flow) : Prop :=
  ∀ s n, Going P c list tte tie job s → (s.dmac.channels c).quadwordCount.toNat = n + 1 →
    Ensures turn s fun fl s' => Going P c list tte tie job s' ∧ fl ≠ .leave ∧
      (fl = .next → (s'.dmac.channels c).quadwordCount.toNat = n)

theorem feedTurn_keepsGoing (f : Quad → W → Reply W Bool) :
    KeepsGoing P c list tte tie job (feedTurn P c f) := by
  intro s n h hn
  unfold feedTurn feed offer
  rw [ensures_bind, ensures_channel, ensures_bind, ensures_fetch128, ensures_bind, ensures_bind]
  refine (aside_call (c := c) _ s).mono fun ok s₁ ha => ?_
  have h₁ := h.aside ha
  rw [ensures_ite]
  refine ⟨fun _ => ?_, fun _ => ?_⟩
  · rw [ensures_bind, ensures_record, ensures_pure, ensures_ite]
    refine ⟨fun _ => ?_, fun hf => absurd rfl hf⟩
    rw [ensures_bind]
    refine (h₁.handOver (n := n) ?_ ?_).mono fun _ s₂ ⟨h₂, hn₂⟩ => ?_
    · rw [ha.registers.quadwordCount, hn]
    · rw [ha.mem, ha.registers.address]
    · exact ensures_pure.mpr ⟨h₂, nofun, fun _ => hn₂⟩
  · rw [ensures_pure, ensures_ite]
    refine ⟨fun hf => absurd hf Bool.false_ne_true, fun _ => ?_⟩
    exact ensures_pure.mpr ⟨h₁, nofun, nofun⟩

theorem sendTurn_keepsGoing (ready : W → Bool) (f : Quad → W → Reply W Unit) :
    KeepsGoing P c list tte tie job (sendTurn P c ready f) := by
  intro s n h hn
  unfold sendTurn send
  rw [ensures_bind, ensures_get, ensures_ite]
  refine ⟨fun _ => ?_, fun _ => ensures_pure.mpr ⟨h, nofun, nofun⟩⟩
  rw [ensures_bind, ensures_channel, ensures_bind, ensures_fetch128, ensures_bind, ensures_bind]
  refine (aside_call (c := c) _ s).mono fun _ s₁ ha => ?_
  rw [ensures_record, ensures_bind]
  refine ((h.aside ha).handOver (n := n) ?_ ?_).mono fun _ s₂ ⟨h₂, hn₂⟩ => ?_
  · rw [ha.registers.quadwordCount, hn]
  · rw [ha.mem, ha.registers.address]
  · exact ensures_pure.mpr ⟨h₂, nofun, fun _ => hn₂⟩

/-- The induction over the turns: there are never more turns left than quadwords. -/
theorem repeatWhile_goes {turn : M W V Flow} (ht : KeepsGoing P c list tte tie job turn) :
    ∀ n count s, Going P c list tte tie job s →
      n ≤ (s.dmac.channels c).quadwordCount.toNat →
      Ensures (repeatWhile turn n count) s fun r s' =>
        Going P c list tte tie job s' ∧ r.1 ≠ .leave := by
  intro n
  induction n with
  | zero => exact fun _ _ h _ => ensures_pure.mpr ⟨h, by simp⟩
  | succ n ih =>
    intro count s h hle
    obtain ⟨k, hk⟩ : ∃ k, (s.dmac.channels c).quadwordCount.toNat = k + 1 :=
      ⟨(s.dmac.channels c).quadwordCount.toNat - 1, by omega⟩
    unfold repeatWhile
    rw [ensures_bind]
    refine (ht s k h hk).mono fun fl s₁ hs₁ => ?_
    obtain ⟨h₁, hleave, hnext⟩ := hs₁
    cases fl with
    | next => exact ih (count + 1) s₁ h₁ (by rw [hnext rfl]; omega)
    | last => exact ensures_pure.mpr ⟨h₁, by simp⟩
    | stop => exact ensures_pure.mpr ⟨h₁, by simp⟩
    | leave => exact absurd rfl hleave

theorem slice_goes {turn : M W V Flow} (ht : KeepsGoing P c list tte tie job turn)
    (h : Going P c list tte tie job s) : Ensures (slice c turn) s fun r s' =>
      Going P c list tte tie job s' ∧ r.1 ≠ .leave ∧
        (Done (s.dmac.channels c) → Done (s'.dmac.channels c)) := by
  unfold slice
  rw [ensures_bind, ensures_channel, ensures_ite]
  refine ⟨fun hq => ?_, fun _ => ensures_pure.mpr ⟨h, nofun, id⟩⟩
  refine (repeatWhile_goes ht _ 0 s h (min_le_left _ _)).mono fun r s' ⟨h', hr⟩ => ?_
  exact ⟨h', hr, fun hd => absurd hd.1 hq⟩

/-! ### Tags -/

/-- A tag is loaded where the walk follows it. -/
theorem Env.handleSourceChain (h : Env P c list tte tie s)
    (hq : (s.dmac.channels c).quadwordCount = 0) (he : (s.dmac.channels c).tagEnd = false)
    {tag : Quad} {p : Position} (htag : list (position (s.dmac.channels c)).tadr = some tag)
    (hp : (position (s.dmac.channels c)).follow tie tag = some p) :
    Ensures (handleSourceChain P c) s fun _ s' => Env P c list tte tie s' ∧
      position (s'.dmac.channels c) = p ∧ handed c s'.trace = handed c s.trace := by
  have htadr : (position (s.dmac.channels c)).tadr = (s.dmac.channels c).tagAddress :=
    if_neg fun hc => hc.2 hq
  have hfetch : s.mem.fetch128 P (s.dmac.channels c).tagAddress = tag := by
    rw [← htadr]
    exact h.mem _ _ htag
  have hpriority (pce : BitVec 2) : Within (Aside c) (setPriority pce : M W V Unit) := by
    unfold setPriority
    split
    · exact within_failure
    · exact aside_modifyDMAC (fun _ => rfl) fun _ => rfl
    · exact aside_modifyDMAC (fun _ => rfl) fun _ => rfl
    · exact aside_pure _
  unfold Model.handleSourceChain
  rw [ensures_bind, ensures_channel, ensures_bind, ensures_fetch128, hfetch]
  dsimp only
  split
  · exact ensures_failure.mpr trivial
  · rename_i ch' hl
    obtain ⟨hpos, hchain⟩ := position_loadTag h.chain hq he hp hl
    rw [ensures_bind, ensures_modifyChannel]
    refine (aside_bind (hpriority _) fun _ => aside_arbitrate).ensures fun _ s' ha => ?_
    have hch : ({ s with dmac := s.dmac.setChannel c ch' } : State W V).dmac.channels c = ch' :=
      setChannel_self _ _ _
    have henv : Env P c list tte tie { s with dmac := s.dmac.setChannel c ch' } := by
      refine ⟨?_, ?_, h.mem, h.drain⟩
      · rw [hch]
        exact hchain
      · rw [hch]
        exact (loadTag_flags hl).started.trans h.started
    refine ⟨henv.aside ha, ?_, ha.handed⟩
    rw [SameRegisters.position ha.registers, hch]
    exact hpos

/-- The next tag is taken, or refused, and the chain goes on. -/
def TakesTag (P : Peripherals W V) (c : Channel) (list : BitVec 32 → Option Quad)
    (tte tie : Bool) (job : Job) (next : M W V Unit) : Prop :=
  ∀ s, Going P c list tte tie job s → (s.dmac.channels c).quadwordCount = 0 →
    (s.dmac.channels c).tagEnd = false →
      Ensures next s fun _ s' => Going P c list tte tie job s'

theorem handleSourceChain_takesTag (hc : handsTags c tte = false) :
    TakesTag P c list tte tie job (handleSourceChain P c) := by
  intro s h hq he
  obtain ⟨rest, howes, hwalk⟩ := h.owes
  have hq0 : (position (s.dmac.channels c)).qwc = 0 := by
    show (s.dmac.channels c).quadwordCount.toNat = 0
    rw [hq]
    rfl
  obtain ⟨tag, p, rest', htag, hp, hrest, hwalk'⟩ := hwalk.tag hq0 he
  refine (h.env.handleSourceChain hq he htag hp).mono fun _ s' ⟨henv, hpos, hhanded⟩ => ?_
  refine ⟨henv, rest', ?_, ?_⟩
  · rw [hc] at hrest
    rw [hhanded, ← show rest = rest' from hrest]
    exact howes
  · rw [hpos]
    exact hwalk'

/-- The VIFs take the upper half of the tag before the tag is loaded. -/
theorem vifTag_takesTag (hc : handsTags c tte = tte) (f : Quad → W → Reply W Bool) :
    TakesTag P c list tte tie job (vifTag P c f) := by
  intro s h hq he
  unfold vifTag
  rw [ensures_bind, ensures_channel, ensures_bind, ensures_fetch128, h.env.chain.tte, ensures_ite]
  refine ⟨fun htte => ?_, fun htte => ?_⟩
  · subst htte
    unfold feedTag offer
    rw [ensures_bind, ensures_bind]
    refine (aside_call (c := c) _ s).mono fun ok s₁ ha => ?_
    have h₁ := h.aside ha
    rw [ensures_ite]
    refine ⟨fun _ => ?_, fun _ => ?_⟩
    · rw [ensures_bind, ensures_record, ensures_pure, ensures_ite]
      refine ⟨fun _ => ?_, fun hf => absurd rfl hf⟩
      obtain ⟨rest, howes, hwalk⟩ := h₁.owes
      have hq₁ : (s₁.dmac.channels c).quadwordCount = 0 := ha.registers.quadwordCount.trans hq
      have hq0 : (position (s₁.dmac.channels c)).qwc = 0 := by
        show (s₁.dmac.channels c).quadwordCount.toNat = 0
        rw [hq₁]
        rfl
      have he₁ : (s₁.dmac.channels c).tagEnd = false := ha.registers.tagEnd.trans he
      obtain ⟨tag, p, rest', htag, hp, hrest, hwalk'⟩ := hwalk.tag hq0 he₁
      have hfetch : s.mem.fetch128 P (s.dmac.channels c).tagAddress = tag := by
        have htadr : (position (s₁.dmac.channels c)).tadr = (s₁.dmac.channels c).tagAddress :=
          if_neg fun hc => hc.2 hq₁
        rw [← ha.mem, ← ha.registers.tagAddress, ← htadr]
        exact h₁.env.mem _ _ htag
      rw [hfetch]
      have henv : Env P c list true tie { s₁ with trace := s₁.trace ++ [.tag c (upperHalf tag)] } :=
        ⟨h₁.env.chain, h₁.env.started, h₁.env.mem, h₁.env.drain⟩
      refine (henv.handleSourceChain hq₁ he₁ htag hp).mono fun _ s' ⟨henv', hpos, hhanded⟩ => ?_
      refine ⟨henv', rest', ?_, ?_⟩
      · rw [hhanded, handed_append]
        have hitem : (item c (.tag c (upperHalf tag))).toList = [.tag (upperHalf tag)] := by
          simp [item]
        rw [hitem]
        rw [hrest, hc] at howes
        exact Job.Owes.hand [.tag (upperHalf tag)] howes
      · rw [hpos]
        exact hwalk'
    · rw [ensures_pure, ensures_ite]
      refine ⟨fun hf => absurd hf Bool.false_ne_true, fun _ => ?_⟩
      exact aside_arbitrate.ensures fun _ s₂ ha₂ => h₁.aside ha₂
  · refine handleSourceChain_takesTag ?_ s h hq he
    rw [hc]
    exact Bool.eq_false_of_not_eq_true htte

/-! ### Ends -/

/-- Between two services: what has been handed over is right, and the channel has only ended with
the data of an ending tag. -/
structure Settled (c : Channel) (list : BitVec 32 → Option Quad) (tte tie : Bool)
    (job : Job) (s : State W V) : Prop where
  tracks : Tracks c list tte tie job s
  ended : (s.dmac.channels c).started = false → Done (s.dmac.channels c)

/-- The program leaves the chain settled, and ends the channel if it is done. -/
def Settles (P : Peripherals W V) (c : Channel) (list : BitVec 32 → Option Quad)
    (tte tie : Bool) (job : Job) {α : Type} (m : M W V α) : Prop :=
  ∀ s, Going P c list tte tie job s → Ensures m s fun _ s' => Settled c list tte tie job s' ∧
    (Done (s.dmac.channels c) → (s'.dmac.channels c).started = false)

theorem Going.settled (h : Going P c list tte tie job s) : Settled c list tte tie job s := by
  refine ⟨h.tracks, fun hs => ?_⟩
  rw [h.env.started] at hs
  cases hs

theorem Settled.frame (h : Settled c list tte tie job s) (hf : Frame c s s') :
    Settled c list tte tie job s' :=
  ⟨h.tracks.frame hf, fun hs => (SameRegisters.done hf.registers).mpr
    (h.ended (hf.registers.started.symm.trans hs))⟩

theorem clearStart_low (control : BitVec 32) {i : ℕ} (hi : i < 8) :
    (control &&& ~~~0x100#32).getLsbD i = control.getLsbD i := by
  have hmask : ∀ i < 8, (~~~0x100#32).getLsbD i = true := by decide
  rw [BitVec.getLsbD_and, hmask i hi, Bool.and_true]

theorem Going.transferEnd (h : Going P c list tte tie job s) (hd : Done (s.dmac.channels c)) :
    Ensures (transferEnd c) s fun _ s' => Settled c list tte tie job s' ∧
      (s'.dmac.channels c).started = false := by
  unfold Model.transferEnd
  rw [ensures_bind, ensures_modifyChannel]
  refine (aside_bind (c := c) (arbitrates_aside.flagInterrupt _) fun _ => arbitrates_aside.deactivateChannel c).ensures
    fun _ s' ha => ?_
  have hasp : asp ((s.dmac.channels c).control &&& ~~~0x100#32) =
      asp (s.dmac.channels c).control := by
    unfold asp
    rw [extractLsb'_congr fun i hi => clearStart_low _ (by omega)]
  set ch := { s.dmac.channels c with
    control := (s.dmac.channels c).control &&& ~~~0x100#32, started := false } with hch
  have hpos : position ch = position (s.dmac.channels c) := by
    unfold position
    rw [hch, hasp]
    rfl
  have htracks : Tracks c list tte tie job { s with dmac := s.dmac.setChannel c ch } := by
    refine ⟨?_, ?_⟩
    · rw [setChannel_self]
      refine h.env.chain.congr (fun i hi _ => clearStart_low _ hi) ?_
      rw [hch, hasp]
      exact h.env.chain.asp
    · rw [setChannel_self, hpos]
      exact h.owes
  have hregs := ha.registers
  rw [setChannel_self] at hregs
  refine ⟨⟨htracks.frame ha.toFrame, fun _ => ?_⟩, hregs.started⟩
  exact (SameRegisters.done hregs).mpr hd

/-- The end of a handler: with quadwords left it goes on some other time; else the channel ends or
takes its next tag. -/
theorem settles_afterQuads {finish next other : M W V Unit}
    (hf : ∀ s, Going P c list tte tie job s → Done (s.dmac.channels c) →
      Ensures finish s fun _ s' => Settled c list tte tie job s' ∧
        (s'.dmac.channels c).started = false)
    (hn : TakesTag P c list tte tie job next) (ho : Within (Aside c) other) :
    Settles P c list tte tie job (do
      let ch ← channel c
      if ch.quadwordCount = 0 then if ch.tagEnd then finish else next else other) := by
  intro s h
  rw [ensures_bind, ensures_channel, ensures_ite, ensures_ite]
  refine ⟨fun hq => ⟨fun he => ?_, fun he => ?_⟩, fun hq => ?_⟩
  · exact (hf s h ⟨hq, he⟩).mono fun _ s' ⟨h', hs⟩ => ⟨h', fun _ => hs⟩
  · refine (hn s h hq (Bool.eq_false_of_not_eq_true he)).mono fun _ s' h' => ?_
    exact ⟨h'.settled, fun hd => absurd hd.2 he⟩
  · exact ho.ensures fun _ s' ha => ⟨(h.aside ha).settled, fun hd => absurd hd.1 hq⟩

/-! ### The handlers -/

/-- A slice, and the end. -/
theorem settles_slice {turn : M W V Flow} {after : M W V Unit}
    (ht : KeepsGoing P c list tte tie job turn) (ha : Settles P c list tte tie job after) :
    Settles P c list tte tie job (do
      let r ← slice c turn
      after
      return r.2) := by
  intro s h
  rw [ensures_bind]
  refine (slice_goes ht h).mono fun r s₁ ⟨h₁, _, hd⟩ => ?_
  rw [ensures_bind]
  exact (ha s₁ h₁).mono fun _ s₂ ⟨h₂, hs⟩ => ensures_pure.mpr ⟨h₂, fun hd₀ => hs (hd hd₀)⟩

/-- The stall check is aside of the chain, and only stalls with quadwords left. -/
theorem stallCheck_aside {check : Prop} [Decidable check] {onStall : M W V Unit}
    (hc : check → (s.dmac.channels c).quadwordCount ≠ 0) (ho : Within (Aside c) onStall) :
    Ensures (if check then stallDrain c onStall else pure false) s fun stalled s' =>
      Aside c s s' ∧ (stalled = true → (s.dmac.channels c).quadwordCount ≠ 0) := by
  have hdrain : Within (Aside c) (stallDrain c onStall) := by
    refine aside_bind aside_dmac fun d => within_ite (fun _ => within_ite (fun _ => ?_) fun _ => ?_)
      fun _ => aside_pure _
    · exact aside_bind (arbitrates_aside.noteStall c ho) fun _ => aside_bind (arbitrates_aside.clearDMARequest c) fun _ =>
        aside_pure _
    · refine aside_bind (aside_modifyChannel fun _ _ => ?_) fun _ => aside_pure _
      constructor <;> rfl
  rw [ensures_ite]
  refine ⟨fun h => (hdrain s).mono fun _ s' ha => ⟨ha, fun _ => hc h⟩, fun _ => ?_⟩
  exact ensures_pure.mpr ⟨aside_refl s, nofun⟩

/-- A handler with a stall check before the rest of it. -/
theorem settles_checked {check : DMAChannel → Prop} [DecidablePred check] {onStall : M W V Unit}
    {body : M W V ℕ} (hc : ∀ ch, check ch → ch.quadwordCount ≠ 0) (ho : Within (Aside c) onStall)
    (hb : Settles P c list tte tie job body) :
    Settles P c list tte tie job (do
      let ch ← channel c
      let stalled ← (if check ch then stallDrain c onStall else pure false)
      if stalled then return 0
      else body) := by
  intro s h
  rw [ensures_bind, ensures_channel, ensures_bind]
  refine (stallCheck_aside (hc _) ho).mono fun stalled s₁ ⟨ha, hq⟩ => ?_
  have h₁ := h.aside ha
  rw [ensures_ite]
  refine ⟨fun hstalled => ?_, fun _ => ?_⟩
  · exact ensures_pure.mpr ⟨h₁.settled, fun hd => absurd hd.1 (hq hstalled)⟩
  · refine (hb s₁ h₁).mono fun _ s₂ ⟨h₂, hs⟩ => ⟨h₂, fun hd => hs ?_⟩
    exact (SameRegisters.done ha.registers).mpr hd

/-- A slice that may be left, which only an empty MFIFO does. -/
theorem settles_leaving {turn : M W V Flow} {after : M W V Unit}
    (ht : KeepsGoing P c list tte tie job turn) (ha : Settles P c list tte tie job after) :
    Settles P c list tte tie job (do
      let r ← slice c turn
      if r.1 = .leave then return r.2
      else
        after
        return r.2) := by
  intro s h
  rw [ensures_bind]
  refine (slice_goes ht h).mono fun r s₁ ⟨h₁, hr, hd⟩ => ?_
  rw [ensures_ite]
  refine ⟨fun hl => absurd hl hr, fun _ => ?_⟩
  rw [ensures_bind]
  exact (ha s₁ h₁).mono fun _ s₂ ⟨h₂, hs⟩ => ensures_pure.mpr ⟨h₂, fun hd₀ => hs (hd hd₀)⟩

theorem keepsGoing_mfifo {turn other : M W V Flow} (ht : KeepsGoing P c list tte tie job turn) :
    KeepsGoing P c list tte tie job (do if ← mfifoHandler c then turn else other) := by
  intro s n h hn
  rw [ensures_bind]
  refine (mfifoHandler_skips h.env.drain).mono fun b s' ⟨hb, hs⟩ => ?_
  subst hs
  rw [ensures_ite]
  exact ⟨fun _ => ht s' n h hn, fun hb' => absurd hb hb'⟩

theorem takesTag_mfifo {next other : M W V Unit} (hn : TakesTag P c list tte tie job next) :
    TakesTag P c list tte tie job (do if ← mfifoHandler c then next else other) := by
  intro s h hq he
  rw [ensures_bind]
  refine (mfifoHandler_skips h.env.drain).mono fun b s' ⟨hb, hs⟩ => ?_
  subst hs
  rw [ensures_ite]
  exact ⟨fun _ => hn s' h hq he, fun hb' => absurd hb hb'⟩

theorem processVIF0_settles : Settles P .VIF0 list tte tie job (processVIF0 P) :=
  settles_slice (feedTurn_keepsGoing _) (settles_afterQuads (fun _ h hd => h.transferEnd hd)
    (vifTag_takesTag rfl _) aside_arbitrate)

theorem processVIF1_settles : Settles P .VIF1 list tte tie job (processVIF1 P) := by
  have hturn : KeepsGoing P .VIF1 list tte tie job (turnVIF1 P) := by
    refine keepsGoing_mfifo fun s n h hn => ?_
    rw [ensures_bind, ensures_channel, ensures_ite]
    exact ⟨fun _ => feedTurn_keepsGoing _ s n h hn, fun hd => absurd (h.env.chain.dir rfl) hd⟩
  exact settles_checked (fun _ h => h.1) (aside_pure _) (settles_leaving hturn
    (settles_afterQuads (fun _ h hd => h.transferEnd hd) (takesTag_mfifo (vifTag_takesTag rfl _))
      aside_arbitrate))

theorem processGIF_settles : Settles P .GIF list tte tie job (processGIF P) := by
  have hafter : Settles P .GIF list tte tie job (afterQuadsGIF P) := by
    refine settles_afterQuads (fun s h hd => ?_) (takesTag_mfifo (handleSourceChain_takesTag rfl))
      aside_arbitrate
    rw [ensures_bind]
    refine (aside_noteRunning (c := .GIF) false s).mono fun _ s₁ ha => ?_
    exact (h.aside ha).transferEnd ((SameRegisters.done ha.registers).mpr hd)
  intro s h
  unfold processGIF
  rw [ensures_bind]
  refine (aside_noteRunning (c := .GIF) true s).mono fun _ s₁ ha => ?_
  refine (settles_checked (fun _ h => h) (aside_call _) (settles_leaving (keepsGoing_mfifo
    (sendTurn_keepsGoing _ _)) hafter) s₁ (h.aside ha)).mono fun _ s₂ ⟨h₂, hs⟩ => ?_
  refine ⟨h₂, fun hd => hs ?_⟩
  exact (SameRegisters.done ha.registers).mpr hd

theorem processIPU_TO_settles : Settles P .IPU_TO list tte tie job (processIPU_TO P) :=
  settles_slice (sendTurn_keepsGoing _ _) (settles_afterQuads (fun _ h hd => h.transferEnd hd)
    (handleSourceChain_takesTag rfl) aside_arbitrate)

theorem processSIF1_settles : Settles P .EE_SIF1 list tte tie job (processSIF1 P) :=
  settles_checked (fun _ h => h) (aside_pure _) (settles_slice (sendTurn_keepsGoing _ _)
    (settles_afterQuads (fun _ h hd => h.transferEnd hd) (handleSourceChain_takesTag rfl)
      (aside_pure _)))

/-- The channels that hand a source chain to a peripheral. -/
def sourceChannels : List Channel := [.VIF0, .VIF1, .GIF, .IPU_TO, .EE_SIF1]

/-- **The handler of a source chain leaves it settled.** -/
theorem process_settles (hc : c ∈ sourceChannels) :
    Settles P c list tte tie job (process P c) := by
  simp only [sourceChannels, List.mem_cons, List.not_mem_nil, or_false] at hc
  obtain rfl | rfl | rfl | rfl | rfl := hc
  · exact processVIF0_settles
  · exact processVIF1_settles
  · exact processGIF_settles
  · exact processIPU_TO_settles
  · exact processSIF1_settles

end DobieStation.Dma.SourceChain
