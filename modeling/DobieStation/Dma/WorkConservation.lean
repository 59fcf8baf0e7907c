import DobieStation.Dma.Arbiter

/-! # The DMA controller does not idle while a channel can run

`DMAC::run` does nothing unless a channel is active. A channel that is started and requested, and
whose next transfer is not beyond the stall address, finds some channel active (`WorkConserving`),
in every run in which `check_for_activation` has not queued a channel at the stall address while
nothing was active (`work_conserving`). There it waits for ever: `update_stadr` wakes it by raising
a request that is already up (`stuck_at_stadr`). -/

namespace DobieStation.Dma.WorkConservation

open DobieStation.Lib.Reach DobieStation.Dma.Model DobieStation.Dma.Arbiter

variable {W V : Type} {P : Peripherals W V} {s : State W V}

/-- The next transfer of the channel reaches beyond the stall address; VIF1 is only checked on the
way from memory. -/
def Blocked (d : DMAC) (c : Channel) : Prop :=
  let ch := d.channels c
  stallDest d.control = some c ∧ ch.canStallDrain = true ∧ ch.quadwordCount ≠ 0 ∧
    (c = .VIF1 → ch.control.getLsbD 0 = true) ∧ beyondStadr d ch = true

/-- A channel that can run finds some channel active. -/
def WorkConserving (d : DMAC) : Prop :=
  ∀ c, (d.channels c).started = true → (d.channels c).dmaReq = true → ¬ Blocked d c →
    d.activeChannel ≠ none

/-- In a busy arbiter every member finds a channel active. -/
theorem active_of_busy (h : Arbitrated s) (hb : (arbiter s.dmac).Busy) {c : Channel}
    (hc : Requested s.dmac c) : s.dmac.activeChannel ≠ none := by
  intro hn
  have hm : c ∈ s.dmac.activeChannel.toList ++ s.dmac.queuedChannels := (h.holds.2 c).mpr hc
  have hq : s.dmac.queuedChannels = [] := hb hn
  rw [hn, hq] at hm
  cases hm

/-- **Work conservation**, in every run in which no stalled channel was queued while nothing was
active. -/
theorem work_conserving (h : Reaches Init (Step P) s) (hp : ∀ c, Event.parked c ∉ s.trace) :
    WorkConserving s.dmac := by
  have hs := arbitrated h
  intro c hstarted hreq _
  exact active_of_busy hs (hs.busy fun ⟨c, hc⟩ => hp c hc) ⟨hstarted, hreq⟩

/-- VIF1 is started with its address at `madr`, and the stall address moves from `stadr` to
`stadr + 16`. -/
def startVIF1 (madr stadr : BitVec 32) : List (Model.Action Unit Unit) :=
  [.write32 0x1000E000#32 0x41#32, .write32 0x10009010#32 madr, .write32 0x10009020#32 1#32,
    .write32 0x1000E060#32 stadr, .write32 0x10009000#32 0x101#32,
    .write32 0x1000E060#32 (stadr + 16)]

/-- VIF1 is started below the stall address. -/
theorem work_conserving_VIF1 : ∃ s,
    (startVIF1 0x100#32 0x200#32).foldlM (next ready) (powerOn fun _ => 0) = some s ∧
      s.dmac.activeChannel = some .VIF1 ∧ WorkConserving s.dmac := by
  have hrun : ((startVIF1 0x100#32 0x200#32).foldlM (next ready) (powerOn fun _ => 0)).map
      (fun s => (s.dmac.activeChannel, s.trace)) = some (some .VIF1, []) := rfl
  obtain ⟨s, hs, hrun⟩ := Option.map_eq_some_iff.mp hrun
  obtain ⟨ha, ht⟩ := Prod.mk.inj hrun
  refine ⟨s, hs, ha, work_conserving (reaches_of_steps (init_powerOn _) hs) fun c hc => ?_⟩
  rw [ht] at hc
  cases hc

/-- VIF1 is started at the stall address, which then moves on: VIF1 can run, but it stays in the
queue with nothing active. -/
theorem stuck_at_stadr :
    ∃ s : State Unit Unit, Reaches Init (Step ready) s ∧ ¬ WorkConserving s.dmac := by
  have hrun : ((startVIF1 0x100#32 0x100#32).foldlM (next ready) (powerOn fun _ => 0)).map
      (fun s => (s.dmac.activeChannel, (s.dmac.channels .VIF1).started,
        (s.dmac.channels .VIF1).dmaReq, beyondStadr s.dmac (s.dmac.channels .VIF1))) =
      some (none, true, true, false) := rfl
  obtain ⟨s, hs, hrun⟩ := Option.map_eq_some_iff.mp hrun
  simp only [Prod.mk.injEq] at hrun
  obtain ⟨ha, hstarted, hreq, hb⟩ := hrun
  refine ⟨s, reaches_of_steps (init_powerOn _) hs, fun h => h .VIF1 hstarted hreq ?_ ha⟩
  rintro ⟨-, -, -, -, hbeyond⟩
  rw [hb] at hbeyond
  cases hbeyond

end DobieStation.Dma.WorkConservation
