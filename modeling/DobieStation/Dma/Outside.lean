import DobieStation.Dma.ChainFrame

/-! # Outside the controller

A relation on what is outside the controller (`Ignores`), that is on memory and the peripherals, is
not touched by writes of the registers, by requests and by the arbiter; only the handlers store
quadwords and call the peripherals of their channel. So it holds over a step as soon as it allows
these (`Ignores.control`, `Ignores.allows`). -/

namespace DobieStation.Dma.Outside

open DobieStation.Lib.Hoare
open DobieStation.Dma.Model DobieStation.Dma.Handlers DobieStation.Dma.ChainFrame

variable {W V : Type} {P : Peripherals W V}

/-- A write of a register, a request or a grant of cycles. -/
def isControl : Model.Action W V → Bool
  | .serve | .outside _ _ => false
  | _ => true

/-- The relation does not depend on the controller and its signals. -/
structure Ignores (P : Peripherals W V) (R : State W V → State W V → Prop) : Prop where
  refl : ∀ s, R s s
  trans : ∀ s s' s'', R s s' → R s' s'' → R s s''
  controller : ∀ s d, R s { s with dmac := d }
  signal : ∀ s b, R s { s with int1 := b }
  history : ∀ s l, R s { s with trace := l }
  running : ∀ s b, R s { s with world := P.gifDmaRunning b s.world }

namespace Ignores

variable {R : State W V → State W V → Prop} (h : Ignores P R)
include h

theorem arbitrates : Arbitrates R where
  refl := h.refl
  trans := h.trans
  controller s d _ _ := h.controller s d
  signal := h.signal
  parked s _ := h.history s _

theorem bind {α β : Type} {m : M W V α} {f : α → M W V β} (hm : Within R m)
    (hf : ∀ a, Within R (f a)) : Within R (m >>= f) := within_bind h.trans hm hf

theorem pure {α : Type} (a : α) : Within R (Pure.pure a : M W V α) := within_pure h.refl a

theorem readChannel (c : Channel) : Within R (channel c : M W V DMAChannel) :=
  h.arbitrates.readChannel c

theorem modifyDMAC (f : DMAC → DMAC) : Within R (modifyDMAC f : M W V Unit) :=
  fun s => ensures_modifyDMAC.mpr (h.controller s _)

theorem modifyChannel (c : Channel) (f : DMAChannel → DMAChannel) :
    Within R (modifyChannel c f : M W V Unit) :=
  fun s => ensures_modifyChannel.mpr (h.controller s _)

theorem transferEnd (c : Channel) : Within R (transferEnd c : M W V Unit) :=
  h.bind (h.modifyChannel c _) fun _ => h.bind (h.arbitrates.flagInterrupt _) fun _ =>
    h.arbitrates.deactivateChannel c

/-! ### Writes of the registers -/

theorem startDMA (c : Channel) : Within R (startDMA c : M W V Unit) := by
  refine h.bind h.arbitrates.readDmac fun _ => h.bind (h.modifyChannel c _) fun _ => ?_
  refine within_ite (fun _ => ?_) fun _ => h.arbitrates.checkForActivation c
  exact h.bind (h.modifyDMAC _) fun _ => h.arbitrates.checkForActivation c

theorem stopPeripheral (c : Channel) : Within R (stopPeripheral P c) :=
  within_ite (fun _ => within_modify fun s => h.running s false) fun _ => h.pure _

theorem writeControl (c : Channel) (value : BitVec 32) : Within R (writeControl P c value) := by
  refine h.bind (h.readChannel c) fun _ => within_ite (fun _ => ?_) fun _ => ?_
  · refine h.bind (h.modifyChannel c _) fun _ => within_ite (fun _ => ?_) fun _ => h.pure _
    exact h.bind (h.stopPeripheral c) fun _ => h.arbitrates.deactivateChannel c
  · refine h.bind (h.modifyChannel c _) fun _ => within_ite (fun _ => h.startDMA c) fun _ => ?_
    exact h.bind (h.stopPeripheral c) fun _ => h.modifyChannel c _

theorem writeRegister (r : Register) (value : BitVec 32) :
    Within R (writeRegister P r value) := by
  cases r <;> dsimp only [Model.writeRegister, writeDCtrl]
  case control c => exact h.writeControl c value
  case D_STAT =>
    exact h.bind (h.modifyDMAC _) fun _ s => ensures_int1Check.mpr (h.signal s _)
  case STADR => exact h.arbitrates.updateStadr value
  case D_CTRL | PCR | SQWC | RBSR | RBOR => exact h.modifyDMAC _
  all_goals exact h.modifyChannel _ _

theorem write32 (a value : BitVec 32) : Within R (write32 P a value) := by
  unfold Model.write32
  split
  · exact h.pure _
  · exact h.writeRegister _ value

theorem write16 (a : BitVec 32) (value : BitVec 16) : Within R (write16 P a value) := by
  unfold Model.write16
  split
  · refine within_ite (fun _ => h.pure _) fun _ => ?_
    exact h.bind (h.readChannel _) fun _ => h.writeControl _ _
  · exact h.pure _

theorem write8 (a : BitVec 32) (value : BitVec 8) : Within R (write8 P a value) := by
  have hhigh (c : Channel) : Within R (do
      Model.writeControl P c (((← channel c).control &&& 0xFFFF00FF#32) |||
        (value.setWidth 32 <<< 8))) :=
    h.bind (h.readChannel c) fun _ => h.writeControl _ _
  unfold Model.write8
  dsimp only
  split
  all_goals first
    | exact hhigh _
    | exact h.modifyChannel _ _
    | exact h.modifyDMAC _
    | exact h.pure _

/-! ### Steps -/

theorem control {a : Model.Action W V} (ha : isControl a = true) : Within R (a.exec P) := by
  cases a <;> dsimp only [Action.exec]
  case write32 a v => exact h.write32 a v
  case write16 a v => exact h.write16 a v
  case write8 a v => exact h.write8 a v
  case writeMasterDisable v => exact h.modifyDMAC _
  case request r =>
    cases r with
    | set c => exact h.arbitrates.setDMARequest c
    | clear c => exact h.arbitrates.clearDMARequest c
  case grant n => exact h.modifyDMAC _
  case serve => exact absurd ha Bool.false_ne_true
  case outside => exact absurd ha Bool.false_ne_true

/-- Apart from their calls, the handlers only store quadwords. -/
theorem covers {c : Channel} (hm : ∀ s a q, R s { s with mem := s.mem.store128 P a q }) :
    Covers P c R where
  refl := h.refl
  trans := h.trans
  registers s _ _ := h.controller s _
  controller s d _ _ _ _ := h.controller s d
  signal := h.signal
  memory := hm
  quad s _ := h.history s _
  tag s _ := h.history s _
  arbitrate := h.arbitrates.arbitrate
  clear := h.arbitrates.clearDMARequest c
  finish := h.transferEnd c
  stadr := h.arbitrates.updateStadr

theorem call {α : Type} {f : W → Reply W α}
    (hf : ∀ s, R s { s with world := (f s.world).world }) : Within R (call f : M W V α) := by
  intro s
  unfold Model.call
  rw [ensures_bind, ensures_get, ensures_bind, ensures_modify]
  have hrest := h.bind (h.arbitrates.requests (f s.world).requests) fun _ =>
    h.pure (f s.world).value
  exact (hrest _).mono fun _ s' h' => h.trans _ _ _ (hf s) h'

/-- The relation allows what a handler does if it allows the calls. -/
theorem allows {c : Channel} (hm : ∀ s a q, R s { s with mem := s.mem.store128 P a q })
    (hf : ∀ {α : Type} {f : W → Reply W α}, Calls P c α f → ∀ s,
      R s { s with world := (f s.world).world }) : Allows P c R where
  toCovers := h.covers hm
  running _ := h.running
  call hc := h.call (hf hc)

end Ignores

end DobieStation.Dma.Outside
