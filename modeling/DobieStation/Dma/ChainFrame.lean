import DobieStation.Dma.Arbiter
import DobieStation.Dma.ChainTags

/-! # What leaves a source chain alone

`Aside c` relates two states between which the chain of channel `c` has not moved: its registers,
what it has handed over, memory and `D_CTRL` are the same. Everything that the arbiter, the requests
and the stalls do is aside of every chain. The handler of another channel changes memory, too, but
leaves the registers of `c` and what `c` has handed over alone (`Frame`). -/

namespace DobieStation.Dma.ChainFrame

open DobieStation.Lib.Hoare
open DobieStation.Dma.Model DobieStation.Dma.Handlers
open DobieStation.Dma.TagWalk (Item)

variable {W V : Type} {P : Peripherals W V}

/-- The registers of a channel that matter to its chain are the same. -/
structure SameRegisters (ch ch' : DMAChannel) : Prop where
  control : ch'.control = ch.control
  address : ch'.address = ch.address
  quadwordCount : ch'.quadwordCount = ch.quadwordCount
  tagAddress : ch'.tagAddress = ch.tagAddress
  tagSave0 : ch'.tagSave0 = ch.tagSave0
  tagSave1 : ch'.tagSave1 = ch.tagSave1
  tagEnd : ch'.tagEnd = ch.tagEnd
  tagId : ch'.tagId = ch.tagId
  started : ch'.started = ch.started

theorem SameRegisters.refl (ch : DMAChannel) : SameRegisters ch ch :=
  ⟨rfl, rfl, rfl, rfl, rfl, rfl, rfl, rfl, rfl⟩

theorem SameRegisters.trans {ch ch' ch'' : DMAChannel} (h : SameRegisters ch ch')
    (h' : SameRegisters ch' ch'') : SameRegisters ch ch'' :=
  ⟨h'.control.trans h.control, h'.address.trans h.address,
    h'.quadwordCount.trans h.quadwordCount, h'.tagAddress.trans h.tagAddress,
    h'.tagSave0.trans h.tagSave0, h'.tagSave1.trans h.tagSave1, h'.tagEnd.trans h.tagEnd,
    h'.tagId.trans h.tagId, h'.started.trans h.started⟩

/-- What an event hands to the peripheral of the channel. -/
def item (c : Channel) : Event → Option Item
  | .quad c' q => if c' = c then some (.quad q) else none
  | .tag c' half => if c' = c then some (.tag half) else none
  | .parked _ => none

/-- What the channel has handed to its peripheral. -/
def handed (c : Channel) (trace : List Event) : List Item := trace.filterMap (item c)

theorem handed_append (c : Channel) (trace : List Event) (e : Event) :
    handed c (trace ++ [e]) = handed c trace ++ (item c e).toList := by
  unfold handed
  rw [List.filterMap_append]
  cases h : item c e <;> simp [h]

variable {c : Channel} {s s' s'' : State W V}

/-- The chain of the channel has not moved. -/
structure Frame (c : Channel) (s s' : State W V) : Prop where
  registers : SameRegisters (s.dmac.channels c) (s'.dmac.channels c)
  handed : handed c s'.trace = handed c s.trace

/-- The chain of the channel has not moved, and what it depends on is the same. -/
structure Aside (c : Channel) (s s' : State W V) : Prop extends Frame c s s' where
  control : s'.dmac.control = s.dmac.control
  mem : s'.mem = s.mem

theorem frame_refl (s : State W V) : Frame c s s := ⟨SameRegisters.refl _, rfl⟩

theorem frame_trans (s s' s'' : State W V) (h : Frame c s s') (h' : Frame c s' s'') :
    Frame c s s'' :=
  ⟨h.registers.trans h'.registers, h'.handed.trans h.handed⟩

theorem aside_refl (s : State W V) : Aside c s s := ⟨frame_refl s, rfl, rfl⟩

theorem aside_trans (s s' s'' : State W V) (h : Aside c s s') (h' : Aside c s' s'') :
    Aside c s s'' :=
  ⟨frame_trans _ _ _ h.toFrame h'.toFrame, h'.control.trans h.control, h'.mem.trans h.mem⟩

/-! ### The arbiter, the requests and the stalls -/

/-- The relation allows what the arbiter, the requests and the stalls do to the state. -/
structure Arbitrates (R : State W V → State W V → Prop) : Prop where
  refl : ∀ s, R s s
  trans : ∀ s s' s'', R s s' → R s' s'' → R s s''
  controller : ∀ s d, (∀ c, SameRegisters (s.dmac.channels c) (d.channels c)) →
    d.control = s.dmac.control → R s { s with dmac := d }
  signal : ∀ s b, R s { s with int1 := b }
  parked : ∀ s d, R s { s with trace := s.trace ++ [.parked d] }

namespace Arbitrates

variable {R : State W V → State W V → Prop} (h : Arbitrates R)
include h

theorem bind {α β : Type} {m : M W V α} {f : α → M W V β} (hm : Within R m)
    (hf : ∀ a, Within R (f a)) : Within R (m >>= f) := within_bind h.trans hm hf

theorem pure {α : Type} (a : α) : Within R (Pure.pure a : M W V α) := within_pure h.refl a

theorem readDmac : Within R (dmac : M W V DMAC) := fun s => ensures_dmac.mpr (h.refl s)

theorem readChannel (d : Channel) : Within R (channel d : M W V DMAChannel) :=
  fun s => ensures_channel.mpr (h.refl s)

theorem modifyDMAC {f : DMAC → DMAC} (hf : ∀ d, (f d).channels = d.channels)
    (hc : ∀ d, (f d).control = d.control) : Within R (modifyDMAC f : M W V Unit) := by
  intro s
  rw [ensures_modifyDMAC]
  refine h.controller s _ (fun c => ?_) (hc _)
  rw [hf]
  exact SameRegisters.refl _

theorem modifyChannel {d : Channel} {f : DMAChannel → DMAChannel}
    (hf : ∀ ch, SameRegisters ch (f ch)) : Within R (modifyChannel d f : M W V Unit) := by
  intro s
  rw [ensures_modifyChannel]
  refine h.controller s _ (fun c => ?_) rfl
  by_cases hd : c = d
  · subst hd
    rw [setChannel_self]
    exact hf _
  · rw [setChannel_of_ne _ _ hd]
    exact SameRegisters.refl _

theorem flagInterrupt (i : Fin 15) : Within R (flagInterrupt i : M W V Unit) :=
  h.bind (h.modifyDMAC (fun _ => rfl) fun _ => rfl) fun _ s =>
    ensures_int1Check.mpr (h.signal s _)

theorem noteStall (d : Channel) {onStall : M W V Unit} (hs : Within R onStall) :
    Within R (noteStall d onStall) := by
  refine h.bind (h.readChannel d) fun _ => within_ite (fun _ => ?_) fun _ => h.pure _
  refine h.bind (h.flagInterrupt _) fun _ => h.bind hs fun _ => ?_
  exact h.modifyChannel fun _ => by constructor <;> rfl

theorem findNewActiveChannel : Within R (findNewActiveChannel : M W V Unit) := by
  refine h.bind h.readDmac fun d => ?_
  split
  · exact within_failure
  · exact h.modifyDMAC (fun _ => rfl) fun _ => rfl

theorem arbitrate : Within R (arbitrate : M W V Unit) :=
  h.bind h.readDmac fun _ => within_ite (fun _ => h.findNewActiveChannel) fun _ => h.pure _

theorem deactivateChannel (d : Channel) : Within R (deactivateChannel d : M W V Unit) := by
  refine h.bind h.readDmac fun _ => within_ite (fun _ => ?_) fun _ => ?_
  · refine h.bind (h.modifyDMAC (fun _ => rfl) fun _ => rfl) fun _ => ?_
    exact within_ite (fun _ => h.findNewActiveChannel) fun _ => h.pure _
  · exact h.modifyDMAC (fun _ => rfl) fun _ => rfl

theorem checkForActivation (d : Channel) : Within R (checkForActivation d : M W V Unit) := by
  have henqueue : Within R (enqueue d : M W V Unit) :=
    h.modifyDMAC (fun _ => rfl) fun _ => rfl
  have hparked : Within R (record (.parked d) : M W V Unit) :=
    fun s => ensures_record.mpr (h.parked s d)
  refine h.bind h.readDmac fun _ => within_ite (fun _ => ?_) fun _ => h.pure _
  refine within_ite (fun _ => ?_) fun _ => within_ite (fun _ => ?_) fun _ => henqueue
  · refine h.bind (h.noteStall d (h.pure _)) fun _ => ?_
    exact within_ite (fun _ => h.bind hparked fun _ => henqueue) fun _ => henqueue
  · exact h.modifyDMAC (fun _ => rfl) fun _ => rfl

theorem setDMARequest (d : Channel) : Within R (setDMARequest d : M W V Unit) := by
  refine h.bind (h.readChannel d) fun _ => ?_
  refine h.bind (h.modifyChannel fun _ => by constructor <;> rfl) fun _ => ?_
  exact within_ite (fun _ => h.checkForActivation d) fun _ => h.pure _

theorem clearDMARequest (d : Channel) : Within R (clearDMARequest d : M W V Unit) := by
  refine h.bind (h.readChannel d) fun _ => ?_
  refine h.bind (h.modifyChannel fun _ => by constructor <;> rfl) fun _ => ?_
  exact within_ite (fun _ => h.deactivateChannel d) fun _ => h.pure _

theorem requests : ∀ rs : List Request, Within R (rs.forM Request.apply : M W V Unit)
  | [] => h.pure _
  | r :: rs => by
    show Within R (r.apply >>= fun _ => rs.forM Request.apply)
    refine h.bind ?_ fun _ => requests rs
    cases r with
    | set d => exact h.setDMARequest d
    | clear d => exact h.clearDMARequest d

theorem updateStadr (a : BitVec 32) : Within R (updateStadr a : M W V Unit) := by
  refine h.bind (h.modifyDMAC (fun _ => rfl) fun _ => rfl) fun _ => ?_
  refine h.bind h.readDmac fun d => ?_
  split
  · exact h.pure _
  · exact within_ite (fun _ => h.setDMARequest _) fun _ => h.pure _

end Arbitrates

/-! ### Programs that are aside of a chain -/

theorem arbitrates_aside : Arbitrates (Aside (W := W) (V := V) c) where
  refl := aside_refl
  trans := aside_trans
  controller _ _ hr hc := ⟨⟨hr c, rfl⟩, hc, rfl⟩
  signal _ _ := ⟨⟨SameRegisters.refl _, rfl⟩, rfl, rfl⟩
  parked _ _ := ⟨⟨SameRegisters.refl _, by simp [handed, item]⟩, rfl, rfl⟩

theorem aside_bind {α β : Type} {m : M W V α} {f : α → M W V β} (hm : Within (Aside c) m)
    (hf : ∀ a, Within (Aside c) (f a)) : Within (Aside c) (m >>= f) :=
  within_bind aside_trans hm hf

theorem aside_pure {α : Type} (a : α) : Within (Aside c) (pure a : M W V α) :=
  within_pure aside_refl a

theorem aside_dmac : Within (Aside c) (dmac : M W V DMAC) := Arbitrates.readDmac arbitrates_aside

theorem aside_channel (d : Channel) : Within (Aside c) (channel d : M W V DMAChannel) :=
  Arbitrates.readChannel arbitrates_aside d

theorem aside_modifyDMAC {f : DMAC → DMAC} (hf : ∀ d, (f d).channels = d.channels)
    (hc : ∀ d, (f d).control = d.control) : Within (Aside c) (modifyDMAC f : M W V Unit) :=
  Arbitrates.modifyDMAC arbitrates_aside hf hc

theorem aside_modifyChannel {d : Channel} {f : DMAChannel → DMAChannel}
    (hf : d = c → ∀ ch, SameRegisters ch (f ch)) :
    Within (Aside c) (modifyChannel d f : M W V Unit) := by
  intro s
  rw [ensures_modifyChannel]
  refine ⟨⟨?_, rfl⟩, rfl, rfl⟩
  by_cases hd : c = d
  · subst hd
    rw [setChannel_self]
    exact hf rfl _
  · rw [setChannel_of_ne _ _ hd]
    exact SameRegisters.refl _

theorem aside_record {e : Event} (he : item c e = none) :
    Within (Aside c) (record e : M W V Unit) := by
  intro s
  rw [ensures_record]
  refine ⟨⟨SameRegisters.refl _, ?_⟩, rfl, rfl⟩
  rw [handed_append, he]
  exact List.append_nil _

theorem aside_arbitrate : Within (Aside c) (arbitrate : M W V Unit) :=
  Arbitrates.arbitrate arbitrates_aside

theorem aside_call {α : Type} (f : W → Reply W α) : Within (Aside c) (call f : M W V α) := by
  refine aside_bind (within_get aside_refl) fun s => ?_
  refine aside_bind (within_modify fun _ => ⟨⟨SameRegisters.refl _, rfl⟩, rfl, rfl⟩) fun _ => ?_
  exact aside_bind (Arbitrates.requests arbitrates_aside _) fun _ => aside_pure _

theorem aside_noteRunning (b : Bool) : Within (Aside c) (noteRunning P b) :=
  within_modify fun _ => ⟨⟨SameRegisters.refl _, rfl⟩, rfl, rfl⟩

/-! ### Other channels -/

theorem aside_transferEnd {d : Channel} (hd : d ≠ c) :
    Within (Aside c) (transferEnd d : M W V Unit) := by
  refine aside_bind (aside_modifyChannel fun h => absurd h hd) fun _ => ?_
  refine aside_bind (Arbitrates.flagInterrupt arbitrates_aside _) fun _ => ?_
  exact Arbitrates.deactivateChannel arbitrates_aside d

theorem frame_of_aside {α : Type} {m : M W V α} (h : Within (Aside c) m) : Within (Frame c) m :=
  h.mono fun _ _ => Aside.toFrame

/-- **The handler of another channel leaves the chain alone.** -/
theorem allows_frame {d : Channel} (hd : d ≠ c) : Allows P d (Frame c) where
  refl := frame_refl
  trans := frame_trans
  registers s ch _ := by
    have h := aside_modifyChannel (W := W) (V := V) (f := fun _ => ch) (fun h => absurd h hd) s
    exact (ensures_modifyChannel.mp h).toFrame
  controller s d hc _ _ _ := by
    refine ⟨?_, rfl⟩
    show SameRegisters _ (d.channels c)
    rw [hc]
    exact SameRegisters.refl _
  signal _ _ := ⟨SameRegisters.refl _, rfl⟩
  memory _ _ _ := ⟨SameRegisters.refl _, rfl⟩
  running _ _ _ := ⟨SameRegisters.refl _, rfl⟩
  quad s q := (ensures_record.mp (aside_record (e := .quad d q) (if_neg hd) s)).toFrame
  tag s half := (ensures_record.mp (aside_record (e := .tag d half) (if_neg hd) s)).toFrame
  call _ := frame_of_aside (aside_call _)
  arbitrate := frame_of_aside aside_arbitrate
  clear := frame_of_aside (Arbitrates.clearDMARequest arbitrates_aside d)
  finish := frame_of_aside (aside_transferEnd hd)
  stadr a := frame_of_aside (Arbitrates.updateStadr arbitrates_aside a)

end DobieStation.Dma.ChainFrame
