import DobieStation.Dma.SourceChain

/-! # Runs of a source chain

A chain is started by a write to the control register of its channel (`startControl_position`). From
there on, in every run that leaves the registers of the channel and the list in memory alone and
does not make the channel drain the MFIFO (`Undisturbed`), what the channel hands over is a
beginning of the walk, and it ends with the whole of it (`source_chain`). -/

namespace DobieStation.Dma.ChainRun

open DobieStation.Lib.Hoare DobieStation.Lib.Reach
open DobieStation.Dma.Model DobieStation.Dma.Handlers DobieStation.Dma.Arbiter
open DobieStation.Dma.ChainTags DobieStation.Dma.ChainFrame DobieStation.Dma.SourceChain
open DobieStation.Dma.TagWalk (Item Position Walk past savedAddresses)

variable {W V : Type} {P : Peripherals W V} {c : Channel}
variable {list : BitVec 32 → Option Quad} {tte tie : Bool} {job : Job} {items : List Item}
variable {s s' s₀ s₁ : State W V}

/-! ### Writes to other registers -/

/-- The channel that the register belongs to. -/
def channelOf : Register → Option Channel
  | .control c | .address c | .quadwordCount c | .tagAddress c | .tagSave0 c | .tagSave1 c
  | .scratchpadAddress c => some c
  | _ => none

/-- The channel whose registers a write goes to. -/
def target : Action W V → Option Channel
  | .write32 a _ => (decode a).bind channelOf
  | .write16 a _ => (decode a).bind channelOf
  | .write8 a _ => (decode (a &&& ~~~1#32)).bind channelOf
  | _ => none

theorem aside_startDMA {d : Channel} (hd : d ≠ c) :
    Within (Aside c) (startDMA d : M W V Unit) := by
  refine aside_bind aside_dmac fun _ => ?_
  refine aside_bind (aside_modifyChannel fun h => absurd h hd) fun _ => ?_
  refine within_ite (fun _ => ?_) fun _ => arbitrates_aside.checkForActivation d
  exact aside_bind (aside_modifyDMAC (fun _ => rfl) fun _ => rfl)
    fun _ => arbitrates_aside.checkForActivation d

theorem aside_writeControl {d : Channel} (hd : d ≠ c) (value : BitVec 32) :
    Within (Aside c) (writeControl P d value) := by
  have hmodify (f : DMAChannel → DMAChannel) :
      Within (Aside c) (modifyChannel d f : M W V Unit) :=
    aside_modifyChannel fun h => absurd h hd
  have hstop : Within (Aside c) (stopPeripheral P d) :=
    within_ite (fun _ => aside_noteRunning false) fun _ => aside_pure _
  refine aside_bind (aside_channel d) fun _ => within_ite (fun _ => ?_) fun _ => ?_
  · refine aside_bind (hmodify _) fun _ => within_ite (fun _ => ?_) fun _ => aside_pure _
    exact aside_bind hstop fun _ => arbitrates_aside.deactivateChannel d
  · refine aside_bind (hmodify _) fun _ => within_ite (fun _ => aside_startDMA hd) fun _ => ?_
    exact aside_bind hstop fun _ => hmodify _

theorem frame_modifyDMAC {f : DMAC → DMAC} (hf : ∀ d, (f d).channels = d.channels) :
    Within (Frame c) (modifyDMAC f : M W V Unit) := by
  intro s
  rw [ensures_modifyDMAC]
  refine ⟨?_, rfl⟩
  rw [hf]
  exact SameRegisters.refl _

theorem frame_writeRegister {r : Register} (hr : channelOf r ≠ some c) (value : BitVec 32) :
    Within (Frame c) (writeRegister P r value) := by
  have hmodify {d : Channel} (hd : some d ≠ some c) (f : DMAChannel → DMAChannel) :
      Within (Frame c) (modifyChannel d f : M W V Unit) :=
    frame_of_aside (aside_modifyChannel fun h => absurd (congrArg some h) hd)
  cases r <;> dsimp only [writeRegister, writeDCtrl]
  case control d => exact frame_of_aside (aside_writeControl (fun h => hr (congrArg some h)) value)
  case STADR => exact frame_of_aside (arbitrates_aside.updateStadr value)
  case D_STAT =>
    refine within_bind frame_trans (frame_modifyDMAC fun _ => rfl) fun _ s => ?_
    exact ensures_int1Check.mpr ⟨SameRegisters.refl _, rfl⟩
  case D_CTRL | PCR | SQWC | RBSR | RBOR => exact frame_modifyDMAC fun _ => rfl
  all_goals exact hmodify hr _

theorem frame_write32 {a : BitVec 32} (ha : (decode a).bind channelOf ≠ some c)
    (value : BitVec 32) : Within (Frame c) (write32 P a value) := by
  unfold write32
  cases h : decode a with
  | none => exact within_pure frame_refl _
  | some r =>
    rw [h] at ha
    exact frame_writeRegister ha value

theorem frame_write16 {a : BitVec 32} (ha : (decode a).bind channelOf ≠ some c)
    (value : BitVec 16) : Within (Frame c) (write16 P a value) := by
  unfold write16
  split
  · rename_i d hd
    rw [hd] at ha
    refine within_ite (fun _ => within_pure frame_refl _) fun _ => frame_of_aside ?_
    refine aside_bind (aside_channel d) fun _ => aside_writeControl ?_ _
    exact fun h => ha (congrArg some h)
  · exact within_pure frame_refl _

theorem frame_write8 {a : BitVec 32} (ha : (decode (a &&& ~~~1#32)).bind channelOf ≠ some c)
    (value : BitVec 8) : Within (Frame c) (write8 P a value) := by
  have hlow {d : Channel} (hd : d ≠ c) (f : DMAChannel → DMAChannel) :
      Within (Frame c) (modifyChannel d f : M W V Unit) :=
    frame_of_aside (aside_modifyChannel fun h => absurd h hd)
  have hhigh {d : Channel} (hd : d ≠ c) : Within (Frame c) (do
      writeControl P d (((← channel d).control &&& 0xFFFF00FF#32) |||
        (value.setWidth 32 <<< 8))) :=
    frame_of_aside (aside_bind (aside_channel d) fun _ => aside_writeControl hd _)
  have hne {d : Channel} {n : ℕ} (hn : a.toNat = n)
      (hd : decode (BitVec.ofNat 32 n &&& ~~~1#32) = some (.control d)) : d ≠ c := by
    rw [show a = BitVec.ofNat 32 n by rw [← hn, BitVec.ofNat_toNat, BitVec.setWidth_eq], hd] at ha
    exact fun h => ha (congrArg some h)
  unfold write8
  dsimp only
  split <;> rename_i hn
  · exact hlow (hne hn rfl) _
  · exact hhigh (hne hn rfl)
  · exact hlow (hne hn rfl) _
  · exact hhigh (hne hn rfl)
  · exact hhigh (hne hn rfl)
  · exact hhigh (hne hn rfl)
  · exact hhigh (hne hn rfl)
  · exact frame_modifyDMAC fun _ => rfl
  · exact within_pure frame_refl _

/-! ### The start of a chain -/

/-- The value written to the control register starts a source chain with an address stack of at
most two. -/
structure StartsChain (c : Channel) (value : BitVec 32) : Prop where
  start : value.getLsbD 8 = true
  chain : value.getLsbD 2 = true
  asp : asp value ≤ 2
  dir : c = .VIF1 → value.getLsbD 0 = true

/-- The position at which the chain starts. -/
def startPosition (ch : DMAChannel) (value : BitVec 32) : Position :=
  .start ch.address ch.quadwordCount ch.tagAddress ch.tagSave0 ch.tagSave1 value

/-- Mode 3 is made mode 1. -/
theorem startControl_bit (value : BitVec 32) {i : ℕ} (hi : i ≠ 3) (hi' : i < 32) :
    (if value.extractLsb' 2 2 = 3 then value &&& ~~~0x8#32 else value).getLsbD i =
      value.getLsbD i := by
  have hmask : ∀ i < 32, i ≠ 3 → (~~~0x8#32).getLsbD i = true := by decide
  split_ifs
  · rw [BitVec.getLsbD_and, hmask i hi' hi, Bool.and_true]
  · rfl

theorem startControl_mode {value : BitVec 32} (h : value.getLsbD 2 = true) :
    (if value.extractLsb' 2 2 = 3 then value &&& ~~~0x8#32 else value).extractLsb' 2 2 = 1#2 := by
  have hcases : ∀ m : BitVec 2, m.getLsbD 0 = true → m = 3 ∨ m = 1 := by decide
  have h2 : (value.extractLsb' 2 2).getLsbD 0 = true := by simp [h]
  obtain h3 | h1 := hcases _ h2
  · rw [if_pos h3, BitVec.extractLsb'_and, h3]
    decide
  · rw [if_neg (by rw [h1]; decide), h1]
    rfl

/-- A started channel is in a chain. -/
theorem chain_start {ch : DMAChannel} {value : BitVec 32} (h : StartsChain c value)
    (transferQwc : BitVec 8) : Chain c (value.getLsbD 6) (value.getLsbD 7)
      (startFields { ch with control := value } transferQwc) := by
  refine ⟨startControl_mode h.chain, ?_, startControl_bit value (by omega) (by omega),
    startControl_bit value (by omega) (by omega), fun hc => ?_⟩
  · refine le_of_eq_of_le ?_ h.asp
    exact congrArg BitVec.toNat
      (extractLsb'_congr fun i hi => startControl_bit value (by omega) (by omega))
  · exact (startControl_bit value (by omega) (by omega)).trans (h.dir hc)

/-- A started channel is where the walk starts. -/
theorem position_start {ch : DMAChannel} {value : BitVec 32} (h : StartsChain c value)
    (transferQwc : BitVec 8) :
    position (startFields { ch with control := value } transferQwc) = startPosition ch value := by
  set control := if value.extractLsb' 2 2 = 3 then value &&& ~~~0x8#32 else value with hcontrol
  have hmode : control.extractLsb' 2 2 = 1#2 := startControl_mode h.chain
  have htag : control.extractLsb' 28 3 = value.extractLsb' 28 3 :=
    extractLsb'_congr fun i hi => startControl_bit value (by omega) (by omega)
  have hasp : control.extractLsb' 4 2 = value.extractLsb' 4 2 :=
    extractLsb'_congr fun i hi => startControl_bit value (by omega) (by omega)
  have htie : control.getLsbD 7 = value.getLsbD 7 := startControl_bit value (by omega) (by omega)
  have hirq : control.getLsbD 31 = value.getLsbD 31 :=
    startControl_bit value (by omega) (by omega)
  have hwide : ∀ t : BitVec 3, (t.setWidth 8 = (1 : BitVec 8)) = (t = 1) := by decide
  unfold position nextTag startPosition Position.start startFields asp mode
  simp only [← hcontrol, hmode, htag, hasp, htie, hirq]
  by_cases hq : ch.quadwordCount = 0
  · simp [hq]
  · have hq' : (ch.quadwordCount != 0) = true := bne_iff_ne.mpr hq
    simp only [hq', beq_self_eq_true, Bool.and_self, if_true, hwide, Bool.true_and]
    rfl

/-- A write to the control register of a channel that is not running starts it, and hands nothing
over. -/
theorem writeControl_starts {value : BitVec 32} (hv : value.getLsbD 8 = true)
    (hidle : (s.dmac.channels c).control.getLsbD 8 = false) :
    Ensures (writeControl P c value) s fun _ s' => handed c s'.trace = handed c s.trace ∧
      SameRegisters (startFields { s.dmac.channels c with control := value } s.dmac.transferQwc)
        (s'.dmac.channels c) := by
  unfold writeControl startDMA
  rw [ensures_bind, ensures_channel, ensures_ite]
  refine ⟨fun hb => absurd (hidle.symm.trans hb) Bool.false_ne_true, fun _ => ?_⟩
  rw [ensures_bind, ensures_modifyChannel, ensures_ite]
  refine ⟨fun _ => ?_, fun hn => absurd hv hn⟩
  rw [ensures_bind, ensures_dmac, ensures_bind, ensures_modifyChannel]
  have hrest : Within (Aside c) (checkForActivation c : M W V Unit) := arbitrates_aside.checkForActivation c
  dsimp only
  rw [setChannel_self]
  set ch := startFields { s.dmac.channels c with control := value } s.dmac.transferQwc with hch
  have hfinish {s₁ s₂ : State W V} (ha : Aside c s₁ s₂) (ht : s₁.trace = s.trace)
      (hc : s₁.dmac.channels c = ch) : handed c s₂.trace = handed c s.trace ∧
        SameRegisters ch (s₂.dmac.channels c) := by
    rw [ha.handed, ht]
    exact ⟨rfl, hc ▸ ha.registers⟩
  rw [ensures_ite]
  refine ⟨fun _ => ?_, fun _ => hrest.ensures fun _ s₂ ha => hfinish ha rfl (setChannel_self _ _ _)⟩
  rw [ensures_bind, ensures_modifyDMAC]
  exact hrest.ensures fun _ s₂ ha => hfinish ha rfl (setChannel_self _ _ _)

/-- **A chain is started**: nothing has been handed over, and the whole walk is owed. -/
theorem writeControl_settled {value : BitVec 32} (hv : StartsChain c value)
    (hidle : (s.dmac.channels c).control.getLsbD 8 = false)
    (hwalk : Walk list (handsTags c (value.getLsbD 6)) (value.getLsbD 7)
      (startPosition (s.dmac.channels c) value) items) :
    Ensures (writeControl P c value) s fun _ s' =>
      Settled c list (value.getLsbD 6) (value.getLsbD 7) ⟨handed c s.trace, items⟩ s' := by
  refine (writeControl_starts hv.start hidle).mono fun _ s' ⟨hh, hregs⟩ => ⟨⟨?_, items, ?_, ?_⟩, ?_⟩
  · exact SameRegisters.chain hregs (chain_start hv _)
  · rw [hh]
    exact ⟨[], (List.append_nil _).symm, rfl⟩
  · rw [SameRegisters.position hregs, position_start hv]
    exact hwalk
  · intro hs
    rw [hregs.started] at hs
    cases hs

/-! ### Runs -/

/-- A service of the active channel, be it this one or another. -/
theorem serveActive_settled (hc : c ∈ sourceChannels) (h : Settled c list tte tie job s)
    (ha : Arbitrated s) (hm : InMemory P list s) (hd : NotDrain c s) :
    Ensures (serveActive P) s fun _ s' => Settled c list tte tie job s' ∧
      (s.dmac.activeChannel = some c → Done (s.dmac.channels c) →
        (s'.dmac.channels c).started = false) := by
  unfold serveActive
  rw [ensures_bind, ensures_dmac]
  cases hact : s.dmac.activeChannel with
  | none => exact ensures_failure.mpr trivial
  | some d =>
    dsimp only
    rw [ensures_bind]
    by_cases hdc : d = c
    · subst hdc
      have hreq : Requested s.dmac d := (ha.holds.2 d).mp (by simp [Arbiter.arbiter, hact,
        DobieStation.Lib.Arbitration.Arbiter.members])
      have hg : Going P d list tte tie job s :=
        ⟨⟨h.tracks.chain, hreq.1, hm, hd⟩, h.tracks.owes⟩
      refine (process_settles hc s hg).mono fun n s₁ h₁ => ?_
      obtain ⟨h₁, hs⟩ := h₁
      rw [ensures_bind, ensures_channel]
      refine (frame_modifyDMAC (c := d) (by exact fun _ => rfl) s₁).mono fun _ s₂ hf => ?_
      exact ⟨h₁.frame hf, fun _ hdone => hf.registers.started.trans (hs hdone)⟩
    · refine ((allows_frame hdc).process s).mono fun n s₁ hf₁ => ?_
      rw [ensures_bind, ensures_channel]
      refine (frame_modifyDMAC (c := c) (by exact fun _ => rfl) s₁).mono fun _ s₂ hf => ?_
      exact ⟨h.frame (frame_trans _ _ _ hf₁ hf), fun hn => absurd (Option.some.inj hn) hdc⟩

/-- A step that leaves the registers of the channel alone, with the list in memory. -/
def Undisturbed (P : Peripherals W V) (c : Channel) (list : BitVec 32 → Option Quad)
    (s s' : State W V) : Prop :=
  ∃ a, Step P s a s' ∧ target a ≠ some c ∧ InMemory P list s ∧ NotDrain c s

theorem frame_exec {a : Action W V} (ht : target a ≠ some c) (hs : a ≠ .serve) :
    Within (Frame c) (a.exec P) := by
  cases a <;> dsimp only [Action.exec, grantCycles]
  case write32 a v => exact frame_write32 ht v
  case write16 a v => exact frame_write16 ht v
  case write8 a v => exact frame_write8 ht v
  case writeMasterDisable v => exact frame_modifyDMAC fun _ => rfl
  case request r =>
    cases r with
    | set d => exact frame_of_aside (arbitrates_aside.setDMARequest d)
    | clear d => exact frame_of_aside (arbitrates_aside.clearDMARequest d)
  case grant n => exact frame_modifyDMAC fun _ => rfl
  case serve => exact absurd rfl hs
  case outside m w => exact within_modify fun _ => ⟨SameRegisters.refl _, rfl⟩

theorem settled_step (hc : c ∈ sourceChannels) (h : Settled c list tte tie job s)
    (ha : Arbitrated s) (hs : Undisturbed P c list s s') : Settled c list tte tie job s' := by
  obtain ⟨a, hstep, ht, hm, hd⟩ := hs
  by_cases hserve : a = .serve
  · subst hserve
    exact (serveActive_settled hc h ha hm hd () s' hstep).1
  · exact h.frame (frame_exec ht hserve s () s' hstep)

theorem settled_run (hc : c ∈ sourceChannels) (h : Settled c list tte tie job s₁)
    (ha : Arbitrated s₁) (hrun : Relation.ReflTransGen (Undisturbed P c list) s₁ s) :
    Settled c list tte tie job s ∧ Arbitrated s := by
  induction hrun with
  | refl => exact ⟨h, ha⟩
  | @tail s s' _ hs ih =>
    refine ⟨settled_step hc ih.1 ih.2 hs, ?_⟩
    obtain ⟨a, hstep, -, -, -⟩ := hs
    exact keeps_exec a s () s' hstep ih.2

/-- **Source chains.** What a channel hands over after its start is a beginning of the walk of its
tags; a channel that has ended has handed over the whole walk and is past the data of an ending tag;
and there the next service ends it. -/
theorem source_chain (hc : c ∈ sourceChannels) {value : BitVec 32} (hv : StartsChain c value)
    (hr : Reaches Init (Step P) s₀) (hidle : (s₀.dmac.channels c).control.getLsbD 8 = false)
    (hwalk : Walk list (handsTags c (value.getLsbD 6)) (value.getLsbD 7)
      (startPosition (s₀.dmac.channels c) value) items)
    (hstart : (writeControl P c value).run s₀ = some ((), s₁))
    (hrun : Relation.ReflTransGen (Undisturbed P c list) s₁ s) :
    ∃ given rest, handed c s.trace = handed c s₀.trace ++ given ∧ items = given ++ rest ∧
      ((s.dmac.channels c).started = false → rest = [] ∧ Done (s.dmac.channels c)) ∧
      (s.dmac.activeChannel = some c → Done (s.dmac.channels c) →
        ∀ s', Step P s .serve s' → InMemory P list s → NotDrain c s →
          (s'.dmac.channels c).started = false) := by
  have h₁ := writeControl_settled hv hidle hwalk () s₁ hstart
  have ha₁ := keeps_writeControl c value s₀ () s₁ hstart (arbitrated hr)
  obtain ⟨h, ha⟩ := settled_run hc h₁ ha₁ hrun
  obtain ⟨rest, ⟨given, hgiven, hitems⟩, hrest⟩ := h.tracks.owes
  refine ⟨given, rest, hgiven, hitems, fun hs => ?_, fun hact hd s' hstep hm hnd => ?_⟩
  · have hd := h.ended hs
    refine ⟨hrest.done ?_ hd.2, hd⟩
    show (s.dmac.channels c).quadwordCount.toNat = 0
    rw [hd.1]
    rfl
  · exact (serveActive_settled hc h ha hm hnd () s' hstep).2 hact hd

/-! ### A chain of one tag -/

/-- An ending tag with one quadword. -/
def endTag : Quad := 0x11223344556677880000000070000001#128

def endData : Quad := 0xABC#128

def endMemory (a : BitVec 32) : Quad :=
  if a = 0x1000 then endTag else if a = 0x1010 then endData else 0

def endList (a : BitVec 32) : Option Quad :=
  if a = 0x1000 then some endTag else if a = 0x1010 then some endData else none

theorem inMemory_endList {s : State Unit Unit}
    (h : s.mem.rdram 0x1000 = endTag ∧ s.mem.rdram 0x1010 = endData) :
    InMemory ready endList s := by
  intro a q hq
  unfold endList at hq
  split_ifs at hq with h0 h1
  · subst h0
    exact h.1.trans (Option.some.inj hq)
  · subst h1
    exact h.2.trans (Option.some.inj hq)

/-- The quadwords of the list. -/
def endQuads (s : State Unit Unit) : Quad × Quad := (s.mem.rdram 0x1000, s.mem.rdram 0x1010)

theorem walk_endList {p : Position} (hq : p.qwc = 0) (ht : p.tadr = 0x1000)
    (he : p.ending = false) (tte : Bool) : Walk endList tte false p
      ((if tte then [.tag 0x1122334455667788#64] else []) ++ [.quad endData]) := by
  obtain ⟨madr, qwc, tadr, stack, ending⟩ := p
  obtain rfl : qwc = 0 := hq
  obtain rfl : tadr = 0x1000 := ht
  obtain rfl : ending = false := he
  have hlast : Walk endList tte false ⟨0x1010, 1, 0x1000, stack, true⟩ ([endData].map .quad) :=
    .last rfl rfl
  have hnone : TagWalk.block endList madr 0 = some [] := rfl
  have htag : endList 0x1000 = some endTag := rfl
  have hnext : Position.follow false endTag ⟨madr, 0, 0x1000, stack, false⟩ =
      some ⟨0x1010, 1, 0x1000, stack, true⟩ := rfl
  exact .more hnone rfl htag hnext hlast

/-- The channel is made ready by `setup`, started with this value, and served twice. -/
def oneTag (setup : List (Model.Action Unit Unit)) (c : Channel) (value : BitVec 32) :
    Option (State Unit Unit × State Unit Unit × State Unit Unit × State Unit Unit) := do
  let s₀ ← setup.foldlM (next ready) (powerOn endMemory)
  let r ← (writeControl ready c value).run s₀
  let s₂ ← next ready r.2 .serve
  let s₃ ← next ready s₂ .serve
  return (s₀, r.2, s₂, s₃)

theorem oneTag_eq_some {setup : List (Model.Action Unit Unit)} {c : Channel} {value : BitVec 32}
    {s₀ s₁ s₂ s₃ : State Unit Unit} (h : oneTag setup c value = some (s₀, s₁, s₂, s₃)) :
    Reaches Init (Step ready) s₀ ∧ (writeControl ready c value).run s₀ = some ((), s₁) ∧
      Step ready s₁ .serve s₂ ∧ Step ready s₂ .serve s₃ := by
  simp only [oneTag, Option.bind_eq_bind, Option.bind_eq_some_iff, Option.pure_def,
    Option.some.injEq, Prod.mk.injEq] at h
  obtain ⟨s₀', h0, ⟨_, s₁'⟩, h1, s₂', h2, s₃', h3, rfl, rfl, rfl, rfl⟩ := h
  exact ⟨reaches_of_steps (init_powerOn _) h0, h1, run_iff_map.mpr h2, run_iff_map.mpr h3⟩

/-- VIF1 with its tag at 0x1000, started with the transfer of tags. -/
def runVIF1 : Option (State Unit Unit × State Unit Unit × State Unit Unit × State Unit Unit) :=
  oneTag [.write32 0x10009030#32 0x1000#32] .VIF1 0x145#32

theorem source_chain_VIF1 : ∃ s₀ s₁ s₂ s₃, runVIF1 = some (s₀, s₁, s₂, s₃) ∧
      ∃ given rest, handed .VIF1 s₃.trace = handed .VIF1 s₀.trace ++ given ∧
        [Item.tag 0x1122334455667788#64, .quad endData] = given ++ rest ∧
        ((s₃.dmac.channels .VIF1).started = false →
          rest = [] ∧ Done (s₃.dmac.channels .VIF1)) ∧
        (s₃.dmac.activeChannel = some .VIF1 → Done (s₃.dmac.channels .VIF1) →
          ∀ s', Step ready s₃ .serve s' → InMemory ready endList s₃ → NotDrain .VIF1 s₃ →
            (s'.dmac.channels .VIF1).started = false) := by
  have hrun : runVIF1.map (fun r => ((r.1.dmac.channels .VIF1).control,
        startPosition (r.1.dmac.channels .VIF1) 0x145#32, [endQuads r.2.1, endQuads r.2.2.1],
        [r.2.1.dmac.control.memDrainChannel, r.2.2.1.dmac.control.memDrainChannel])) =
      some (0, ⟨0, 0, 0x1000, [], false⟩, [(endTag, endData), (endTag, endData)], [0, 0]) := by
    decide +kernel
  obtain ⟨⟨s₀, s₁, s₂, s₃⟩, h, hobs⟩ := Option.map_eq_some_iff.mp hrun
  simp only [Prod.mk.injEq, List.cons.injEq, and_true] at hobs
  obtain ⟨hidle, hpos, ⟨hm₁, hm₂⟩, hd₁, hd₂⟩ := hobs
  obtain ⟨hr, hstart, hs₂, hs₃⟩ := oneTag_eq_some h
  refine ⟨s₀, s₁, s₂, s₃, h, ?_⟩
  have hvalue : StartsChain .VIF1 0x145#32 := ⟨by decide, by decide, by decide, fun _ => by decide⟩
  refine source_chain (c := .VIF1) (by decide) hvalue hr ?_ ?_ hstart ?_
  · rw [hidle]
    decide
  · rw [hpos]
    exact walk_endList rfl rfl rfl true
  · have hstep {s s' : State Unit Unit} (hs : Step ready s .serve s')
        (hm : endQuads s = (endTag, endData)) (hd : s.dmac.control.memDrainChannel = 0) :
        Undisturbed ready .VIF1 endList s s' := by
      refine ⟨.serve, hs, nofun, inMemory_endList (Prod.mk.inj hm), ?_⟩
      unfold NotDrain
      rw [hd]
      decide
    exact .tail (.single (hstep hs₂ hm₁ hd₁)) (hstep hs₃ hm₂ hd₂)

/-- The GIF is given no tags, and a channel that drains the MFIFO takes its tags from the ring: both
end, with something else than the walk of their tags handed over. -/
theorem not_the_walk :
    (∃ s₀ s₁ s₂ s₃ : State Unit Unit, oneTag [.request (.set .GIF),
        .write32 0x1000A030#32 0x1000#32] .GIF 0x145#32 = some (s₀, s₁, s₂, s₃) ∧
      InMemory ready endList s₀ ∧
      Walk endList ((0x145#32).getLsbD 6) ((0x145#32).getLsbD 7)
        (startPosition (s₀.dmac.channels .GIF) 0x145#32)
        [.tag 0x1122334455667788#64, .quad endData] ∧
      (s₃.dmac.channels .GIF).started = false ∧ handed .GIF s₃.trace = [.quad endData]) ∧
    (∃ s₀ s₁ s₂ s₃ : State Unit Unit, oneTag [.write32 0x1000E000#32 0x9#32,
        .write32 0x1000E050#32 0x2000#32, .write32 0x10009030#32 0x1000#32] .VIF1 0x105#32 =
          some (s₀, s₁, s₂, s₃) ∧
      InMemory ready endList s₀ ∧
      Walk endList ((0x105#32).getLsbD 6) ((0x105#32).getLsbD 7)
        (startPosition (s₀.dmac.channels .VIF1) 0x105#32) [.quad endData] ∧
      (s₃.dmac.channels .VIF1).started = false ∧ handed .VIF1 s₃.trace = []) := by
  constructor
  · have hrun : (oneTag [.request (.set .GIF), .write32 0x1000A030#32 0x1000#32] .GIF 0x145#32).map
        (fun r => (endQuads r.1, startPosition (r.1.dmac.channels .GIF) 0x145#32,
          (r.2.2.2.dmac.channels .GIF).started, handed .GIF r.2.2.2.trace)) =
        some ((endTag, endData), ⟨0, 0, 0x1000, [], false⟩, false, [.quad endData]) := by
      decide +kernel
    obtain ⟨⟨s₀, s₁, s₂, s₃⟩, h, hobs⟩ := Option.map_eq_some_iff.mp hrun
    simp only [Prod.mk.injEq] at hobs
    obtain ⟨hm, hpos, hstop, hhanded⟩ := hobs
    refine ⟨s₀, s₁, s₂, s₃, h, inMemory_endList (Prod.mk.inj hm), ?_, hstop, hhanded⟩
    rw [hpos]
    exact walk_endList rfl rfl rfl true
  · have hrun : (oneTag [.write32 0x1000E000#32 0x9#32, .write32 0x1000E050#32 0x2000#32,
        .write32 0x10009030#32 0x1000#32] .VIF1 0x105#32).map
        (fun r => (endQuads r.1, startPosition (r.1.dmac.channels .VIF1) 0x105#32,
          (r.2.2.2.dmac.channels .VIF1).started, handed .VIF1 r.2.2.2.trace)) =
        some ((endTag, endData), ⟨0, 0, 0x1000, [], false⟩, false, []) := by
      decide +kernel
    obtain ⟨⟨s₀, s₁, s₂, s₃⟩, h, hobs⟩ := Option.map_eq_some_iff.mp hrun
    simp only [Prod.mk.injEq] at hobs
    obtain ⟨hm, hpos, hstop, hhanded⟩ := hobs
    refine ⟨s₀, s₁, s₂, s₃, h, inMemory_endList (Prod.mk.inj hm), ?_, hstop, hhanded⟩
    rw [hpos]
    exact walk_endList rfl rfl rfl false

end DobieStation.Dma.ChainRun
