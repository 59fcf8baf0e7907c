import DobieStation.Dma.Handlers
import DobieStation.Lib.Arbitration
import DobieStation.Lib.Reach

/-! # The arbiter of the DMA controller

The active channel and the queue hold exactly the channels that are started and requested, without
repetition, and something is active as long as a channel waits, unless a stalled channel was queued
while nothing was active (`Arbitrated`). Each operation on the arbiter is one of the library's
(`arbitrate_elects`, `deactivateChannel_dismisses`, `checkForActivation_inv`); whatever else the
handlers do leaves what `Arbitrated` speaks about alone, so that all they do stays within the
invariant (`process_within`). -/

namespace DobieStation.Dma.Arbiter

open DobieStation.Lib.Hoare DobieStation.Lib.Arbitration DobieStation.Lib.Reach
open DobieStation.Dma.Model DobieStation.Dma.Handlers

variable {W V : Type} {P : Peripherals W V}

/-! ### The invariant -/

/-- The active channel and the queue. -/
def arbiter (d : DMAC) : Arbiter Channel := ⟨d.activeChannel, d.queuedChannels⟩

/-- The channel is started and its request is set. -/
def Requested (d : DMAC) (c : Channel) : Prop :=
  (d.channels c).started = true ∧ (d.channels c).dmaReq = true

/-- A stalled channel has been queued while nothing was active. -/
def HasParked (s : State W V) : Prop := ∃ c, Event.parked c ∈ s.trace

/-- **The invariant of the arbiter.** A started channel is one whose control register has bit 8. -/
structure Arbitrated (s : State W V) : Prop where
  holds : Holds (arbiter s.dmac) (Requested s.dmac)
  started : ∀ c, (s.dmac.channels c).started = (s.dmac.channels c).control.getLsbD 8
  busy : ¬ HasParked s → (arbiter s.dmac).Busy

/-- Nothing that the invariant speaks about has changed. -/
structure Quiet (s s' : State W V) : Prop where
  arbiter : arbiter s'.dmac = arbiter s.dmac
  flags : ∀ c, SameFlags (s.dmac.channels c) (s'.dmac.channels c)
  parked : HasParked s → HasParked s'

variable {s s' : State W V}

theorem quiet_refl (s : State W V) : Quiet s s := ⟨rfl, fun _ => SameFlags.refl _, id⟩

theorem quiet_trans (s s' s'' : State W V) (h : Quiet s s') (h' : Quiet s' s'') : Quiet s s'' := by
  refine ⟨h'.arbiter.trans h.arbiter, fun c => ?_, fun hp => h'.parked (h.parked hp)⟩
  exact ⟨(h'.flags c).started.trans (h.flags c).started,
    (h'.flags c).dmaReq.trans (h.flags c).dmaReq, (h'.flags c).bit.trans (h.flags c).bit⟩

theorem Quiet.requested (h : Quiet s s') (c : Channel) :
    Requested s'.dmac c ↔ Requested s.dmac c := by
  unfold Requested
  rw [(h.flags c).started, (h.flags c).dmaReq]

theorem Quiet.started (h : Quiet s s')
    (hs : ∀ c, (s.dmac.channels c).started = (s.dmac.channels c).control.getLsbD 8) (c : Channel) :
    (s'.dmac.channels c).started = (s'.dmac.channels c).control.getLsbD 8 := by
  rw [(h.flags c).started, (h.flags c).bit]
  exact hs c

theorem Quiet.busy (h : Quiet s s') (hb : ¬ HasParked s → (Arbiter.arbiter s.dmac).Busy)
    (hp : ¬ HasParked s') : (Arbiter.arbiter s'.dmac).Busy := by
  rw [h.arbiter]
  exact hb fun hs => hp (h.parked hs)

theorem Arbitrated.quiet (h : Arbitrated s) (hq : Quiet s s') : Arbitrated s' := by
  refine ⟨?_, hq.started h.started, hq.busy h.busy⟩
  rw [hq.arbiter]
  exact h.holds.congr hq.requested

/-- The step stays within the invariant. -/
def Keeps (s s' : State W V) : Prop := Arbitrated s → Arbitrated s'

theorem keeps_refl (s : State W V) : Keeps s s := id

theorem keeps_trans (s s' s'' : State W V) (h : Keeps s s') (h' : Keeps s' s'') : Keeps s s'' :=
  fun hs => h' (h hs)

theorem keeps_of_quiet {α : Type} {m : M W V α} (h : Within Quiet m) : Within Keeps m :=
  h.mono fun _ _ hq hs => hs.quiet hq

/-! ### Quiet programs -/

/-- The registers of a channel other than its flags change. -/
theorem quiet_modifyChannel {c : Channel} {f : DMAChannel → DMAChannel}
    (hf : ∀ ch, SameFlags ch (f ch)) : Within Quiet (modifyChannel c f : M W V Unit) := by
  intro s
  rw [ensures_modifyChannel]
  refine ⟨rfl, fun c' => ?_, id⟩
  by_cases hcc : c' = c
  · subst hcc
    rw [setChannel_self]
    exact hf _
  · rw [setChannel_of_ne _ _ hcc]
    exact SameFlags.refl _

/-- The registers of the controller change. -/
theorem quiet_modifyDMAC {f : DMAC → DMAC} (ha : ∀ d, arbiter (f d) = arbiter d)
    (hc : ∀ d, (f d).channels = d.channels) : Within Quiet (modifyDMAC f : M W V Unit) := by
  intro s
  rw [ensures_modifyDMAC]
  refine ⟨ha _, fun c => ?_, id⟩
  rw [hc]
  exact SameFlags.refl _

theorem quiet_int1Check : Within Quiet (int1Check : M W V Unit) :=
  fun _ => ensures_int1Check.mpr ⟨rfl, fun _ => SameFlags.refl _, id⟩

theorem quiet_flagInterrupt (i : Fin 15) : Within Quiet (flagInterrupt i : M W V Unit) :=
  within_bind quiet_trans (quiet_modifyDMAC (fun _ => rfl) fun _ => rfl) fun _ => quiet_int1Check

theorem quiet_record (e : Event) : Within Quiet (record e : M W V Unit) :=
  fun _ => ensures_record.mpr ⟨rfl, fun _ => SameFlags.refl _,
    fun ⟨c, hc⟩ => ⟨c, List.mem_append_left _ hc⟩⟩

theorem quiet_channel (c : Channel) : Within Quiet (channel c : M W V DMAChannel) :=
  fun s => ensures_channel.mpr (quiet_refl s)

theorem quiet_noteStall (c : Channel) {onStall : M W V Unit} (h : Within Quiet onStall) :
    Within Quiet (noteStall c onStall) := by
  unfold noteStall
  refine within_bind quiet_trans (quiet_channel c) fun ch => within_ite (fun _ => ?_) fun _ => ?_
  · refine within_bind quiet_trans (quiet_flagInterrupt _) fun _ =>
      within_bind quiet_trans h fun _ => ?_
    exact quiet_modifyChannel fun _ => ⟨rfl, rfl, rfl⟩
  · exact within_pure quiet_refl _

/-! ### The operations on the arbiter -/

/-- The state with another arbiter. -/
def withArbiter (s : State W V) (a : Arbiter Channel) : State W V :=
  { s with dmac := { s.dmac with activeChannel := a.active, queuedChannels := a.queue } }

theorem findNewActiveChannel_elects : Ensures findNewActiveChannel s fun _ s' =>
    s' = withArbiter s (arbiter s.dmac).elect := by
  unfold findNewActiveChannel
  rw [ensures_bind, ensures_dmac]
  cases h : s.dmac.queuedChannels ++ s.dmac.activeChannel.toList with
  | nil => exact ensures_failure.mpr trivial
  | cons c rest =>
    dsimp only
    rw [ensures_modifyDMAC]
    simp [withArbiter, Arbiter.elect, arbiter, h]

theorem arbitrate_elects : Ensures arbitrate s fun _ s' =>
    s' = withArbiter s (arbiter s.dmac).elect := by
  unfold arbitrate
  rw [ensures_bind, ensures_dmac, ensures_ite]
  refine ⟨fun _ => findNewActiveChannel_elects, fun h => ?_⟩
  rw [not_not] at h
  rw [ensures_pure, Arbiter.elect_of_queue_nil h]
  rfl

theorem deactivateChannel_dismisses (c : Channel) : Ensures (deactivateChannel c) s fun _ s' =>
    s' = withArbiter s ((arbiter s.dmac).dismiss c) := by
  unfold deactivateChannel
  rw [ensures_bind, ensures_dmac, ensures_ite]
  refine ⟨fun h => ?_, fun h => ?_⟩
  · rw [ensures_bind, ensures_modifyDMAC, ensures_ite]
    refine ⟨fun _ => ?_, fun hq => ?_⟩
    · refine findNewActiveChannel_elects.mono fun _ s' hs' => ?_
      rw [hs']
      simp [withArbiter, Arbiter.dismiss, arbiter, h]
    · rw [not_not] at hq
      simp [withArbiter, Arbiter.dismiss, Arbiter.elect, arbiter, h, hq]
  · rw [ensures_modifyDMAC]
    simp [withArbiter, Arbiter.dismiss, arbiter, h]

/-- The members are only permuted. -/
theorem Arbitrated.withArbiter (h : Arbitrated s) {a : Arbiter Channel}
    (hp : a.members.Perm (arbiter s.dmac).members)
    (hb : (arbiter s.dmac).Busy → a.Busy) : Arbitrated (withArbiter s a) :=
  ⟨h.holds.perm hp, h.started, fun hn => hb (h.busy hn)⟩

theorem keeps_arbitrate : Within Keeps (arbitrate : M W V Unit) := by
  intro s
  refine arbitrate_elects.mono fun _ s' hs' h => ?_
  rw [hs']
  exact h.withArbiter Arbiter.elect_perm fun _ => Arbiter.elect_busy

/-- The channel has just been started or requested: the invariant holds up to it, and it is not in
the arbiter. -/
structure Pending (s : State W V) (c : Channel) : Prop where
  holds : Holds (arbiter s.dmac) fun d => d ≠ c ∧ Requested s.dmac d
  started : ∀ c, (s.dmac.channels c).started = (s.dmac.channels c).control.getLsbD 8
  busy : ¬ HasParked s → (arbiter s.dmac).Busy

/-- The channel has just been stopped or has lost its request: the invariant holds up to it. -/
structure Leaving (s : State W V) (c : Channel) : Prop where
  nodup : (arbiter s.dmac).members.Nodup
  mem_iff : ∀ d, d ≠ c → (d ∈ (arbiter s.dmac).members ↔ Requested s.dmac d)
  not_requested : ¬ Requested s.dmac c
  started : ∀ c, (s.dmac.channels c).started = (s.dmac.channels c).control.getLsbD 8
  busy : ¬ HasParked s → (arbiter s.dmac).Busy

theorem deactivateChannel_inv {c : Channel} (h : Leaving s c) :
    Ensures (deactivateChannel c) s fun _ s' => Arbitrated s' := by
  refine (deactivateChannel_dismisses c).mono fun _ s' hs' => ?_
  rw [hs']
  refine ⟨⟨Arbiter.dismiss_perm.nodup_iff.mpr (h.nodup.erase c), fun d => ?_⟩, h.started,
    fun hn => Arbiter.dismiss_busy (h.busy hn)⟩
  show d ∈ ((arbiter s.dmac).dismiss c).members ↔ Requested s.dmac d
  rw [Arbiter.dismiss_perm.mem_iff, h.nodup.mem_erase_iff]
  by_cases hdc : d = c
  · subst hdc
    exact iff_of_false (fun hc => hc.1 rfl) h.not_requested
  · rw [and_iff_right hdc]
    exact h.mem_iff d hdc

theorem Pending.quiet {c : Channel} (h : Pending s c) (hq : Quiet s s') : Pending s' c := by
  refine ⟨?_, hq.started h.started, hq.busy h.busy⟩
  rw [hq.arbiter]
  exact h.holds.congr fun d => and_congr_right fun _ => hq.requested d

/-- The channel is taken in. -/
theorem Pending.enter {c : Channel} (h : Pending s c) (hr : Requested s.dmac c)
    {a : Arbiter Channel} (hp : a.members.Perm (c :: (arbiter s.dmac).members))
    (hb : ¬ HasParked s → a.Busy) : Arbitrated (withArbiter s a) := by
  refine ⟨h.holds.cons hp (fun hc => hc.1 rfl) fun d => ?_, h.started, hb⟩
  show Requested s.dmac d ↔ _
  by_cases hdc : d = c
  · subst hdc
    simp [hr]
  · simp [hdc]

/-- Nothing is requested of the channel. -/
theorem Pending.skip {c : Channel} (h : Pending s c) (hr : ¬ Requested s.dmac c) :
    Arbitrated s := by
  refine ⟨h.holds.congr fun d => ?_, h.started, h.busy⟩
  by_cases hdc : d = c
  · subst hdc
    simp [hr]
  · simp [hdc]

theorem enqueue_parks (c : Channel) : Ensures (enqueue c) s fun _ s' =>
    s' = withArbiter s ((arbiter s.dmac).park c) := by
  unfold enqueue
  rw [ensures_modifyDMAC]
  rfl

/-- **`check_for_activation`**: a requested channel joins or, stalled at the stall address, is
queued. -/
theorem checkForActivation_inv {c : Channel} (h : Pending s c) :
    Ensures (checkForActivation c) s fun _ s' => Arbitrated s' := by
  unfold checkForActivation
  rw [ensures_bind, ensures_dmac]
  dsimp only
  rw [ensures_ite]
  refine ⟨fun hr => ?_, fun hr => ensures_pure.mpr (h.skip fun hc => hr hc.symm)⟩
  have hr' : Requested s.dmac c := hr.symm
  rw [ensures_ite]
  refine ⟨fun _ => ?_, fun _ => ?_⟩
  · -- stalled
    rw [ensures_bind]
    refine (quiet_noteStall c (within_pure quiet_refl _) s).mono fun _ s₁ hq => ?_
    have h₁ := h.quiet hq
    have hr₁ := (hq.requested c).mpr hr'
    rw [ensures_ite]
    refine ⟨fun _ => ?_, fun hact => ?_⟩
    · -- nothing is active: the event is in the history
      rw [ensures_bind, ensures_record]
      refine (enqueue_parks c).mono fun _ s₂ hs₂ => ?_
      rw [hs₂]
      have h₂ := h₁.quiet (ensures_record.mp (quiet_record (.parked c) s₁))
      refine h₂.enter hr₁ Arbiter.park_perm fun hn => absurd ⟨c, ?_⟩ hn
      exact List.mem_append_right _ (List.mem_singleton.mpr rfl)
    · refine (enqueue_parks c).mono fun _ s₂ hs₂ => ?_
      rw [hs₂]
      refine h₁.enter hr₁ Arbiter.park_perm fun _ => Arbiter.park_busy ?_
      rw [hq.arbiter]
      exact hact
  · rw [ensures_ite]
    refine ⟨fun hact => ?_, fun hact => ?_⟩
    · unfold activate
      rw [ensures_modifyDMAC]
      have hj : (arbiter s.dmac).join c = ⟨some c, s.dmac.queuedChannels⟩ := by
        simp [Arbiter.join, arbiter, hact]
      refine h.enter (a := ⟨some c, s.dmac.queuedChannels⟩) hr' ?_ fun _ => ?_
      · exact hj ▸ Arbiter.join_perm
      · exact hj ▸ Arbiter.join_busy
    · refine (enqueue_parks c).mono fun _ s₂ hs₂ => ?_
      rw [hs₂]
      exact h.enter hr' Arbiter.park_perm fun _ => Arbiter.park_busy hact

/-! ### Requests -/

/-- Only channel `c` may have changed. -/
structure Others (c : Channel) (s s' : State W V) : Prop where
  arbiter : arbiter s'.dmac = arbiter s.dmac
  flags : ∀ d, d ≠ c → SameFlags (s.dmac.channels d) (s'.dmac.channels d)
  parked : HasParked s → HasParked s'

theorem Quiet.others (h : Quiet s s') (c : Channel) : Others c s s' :=
  ⟨h.arbiter, fun d _ => h.flags d, h.parked⟩

theorem Others.trans {c : Channel} {s'' : State W V} (h : Others c s s') (h' : Others c s' s'') :
    Others c s s'' := by
  refine ⟨h'.arbiter.trans h.arbiter, fun d hd => ?_, fun hp => h'.parked (h.parked hp)⟩
  exact ⟨(h'.flags d hd).started.trans (h.flags d hd).started,
    (h'.flags d hd).dmaReq.trans (h.flags d hd).dmaReq,
    (h'.flags d hd).bit.trans (h.flags d hd).bit⟩

theorem Others.quiet {c : Channel} (h : Others c s s')
    (hc : SameFlags (s.dmac.channels c) (s'.dmac.channels c)) : Quiet s s' := by
  refine ⟨h.arbiter, fun d => ?_, h.parked⟩
  by_cases hd : d = c
  · rw [hd]
    exact hc
  · exact h.flags d hd

theorem modifyChannel_others (c : Channel) (f : DMAChannel → DMAChannel) (s : State W V) :
    Ensures (modifyChannel c f) s fun _ s' =>
      Others c s s' ∧ s'.dmac.channels c = f (s.dmac.channels c) := by
  rw [ensures_modifyChannel]
  refine ⟨⟨rfl, fun d hd => ?_, id⟩, setChannel_self _ _ _⟩
  rw [setChannel_of_ne _ _ hd]
  exact SameFlags.refl _

theorem Others.requested {c d : Channel} (h : Others c s s') (hd : d ≠ c) :
    Requested s'.dmac d ↔ Requested s.dmac d := by
  unfold Requested
  rw [(h.flags d hd).started, (h.flags d hd).dmaReq]

theorem Others.started {c : Channel} (h : Others c s s') (hs : Arbitrated s)
    (hc : (s'.dmac.channels c).started = (s'.dmac.channels c).control.getLsbD 8) (d : Channel) :
    (s'.dmac.channels d).started = (s'.dmac.channels d).control.getLsbD 8 := by
  by_cases hd : d = c
  · rw [hd]
    exact hc
  · rw [(h.flags d hd).started, (h.flags d hd).bit]
    exact hs.started d

theorem Others.busy {c : Channel} (h : Others c s s') (hs : Arbitrated s) (hp : ¬ HasParked s') :
    (Arbiter.arbiter s'.dmac).Busy := by
  rw [h.arbiter]
  exact hs.busy fun hq => hp (h.parked hq)

theorem Others.pending {c : Channel} (h : Others c s s') (hs : Arbitrated s)
    (hr : ¬ Requested s.dmac c)
    (hc : (s'.dmac.channels c).started = (s'.dmac.channels c).control.getLsbD 8) :
    Pending s' c := by
  refine ⟨?_, h.started hs hc, h.busy hs⟩
  rw [h.arbiter]
  refine hs.holds.congr fun d => ?_
  by_cases hd : d = c
  · subst hd
    simp [hr]
  · simp [hd, h.requested hd]

theorem Others.leaving {c : Channel} (h : Others c s s') (hs : Arbitrated s)
    (hr : ¬ Requested s'.dmac c)
    (hc : (s'.dmac.channels c).started = (s'.dmac.channels c).control.getLsbD 8) :
    Leaving s' c := by
  refine ⟨?_, fun d hd => ?_, hr, h.started hs hc, h.busy hs⟩
  · rw [h.arbiter]
    exact hs.holds.1
  · rw [h.arbiter, hs.holds.2 d, h.requested hd]

theorem keeps_setDMARequest (c : Channel) : Within Keeps (setDMARequest c : M W V Unit) := by
  intro s
  unfold setDMARequest
  rw [ensures_bind, ensures_channel, ensures_bind]
  refine (modifyChannel_others c _ s).mono fun _ s₁ ⟨ho, hc⟩ => ?_
  rw [ensures_ite]
  refine ⟨fun hreq => Ensures.imp fun hs => checkForActivation_inv (ho.pending hs ?_ ?_),
    fun hreq => ensures_pure.mpr fun hs => hs.quiet (ho.quiet ?_)⟩
  · intro hr
    rw [hr.2] at hreq
    cases hreq
  · rw [hc]
    exact hs.started c
  · rw [hc]
    exact ⟨rfl, (Bool.eq_true_of_not_eq_false hreq).symm, rfl⟩

theorem keeps_clearDMARequest (c : Channel) : Within Keeps (clearDMARequest c : M W V Unit) := by
  intro s
  unfold clearDMARequest
  rw [ensures_bind, ensures_channel, ensures_bind]
  refine (modifyChannel_others c _ s).mono fun _ s₁ ⟨ho, hc⟩ => ?_
  rw [ensures_ite]
  refine ⟨fun hreq => Ensures.imp fun hs => deactivateChannel_inv (ho.leaving hs ?_ ?_),
    fun hreq => ensures_pure.mpr fun hs => hs.quiet (ho.quiet ?_)⟩
  · intro hr
    have := hr.2
    rw [hc] at this
    cases this
  · rw [hc]
    exact hs.started c
  · rw [hc]
    exact ⟨rfl, (Bool.eq_false_of_not_eq_true hreq).symm, rfl⟩

theorem keeps_apply : ∀ r : Request, Within Keeps (r.apply : M W V Unit)
  | .set c => keeps_setDMARequest c
  | .clear c => keeps_clearDMARequest c

theorem keeps_requests : ∀ rs : List Request,
    Within Keeps (rs.forM Request.apply : M W V Unit)
  | [] => within_pure keeps_refl _
  | r :: rs => by
    show Within Keeps (r.apply >>= fun _ => rs.forM Request.apply)
    exact within_bind keeps_trans (keeps_apply r) fun _ => keeps_requests rs

theorem keeps_world {f : State W V → W} :
    Within Keeps (modify fun s => { s with world := f s } : M W V Unit) :=
  within_modify fun _ hs => hs.quiet ⟨rfl, fun _ => SameFlags.refl _, id⟩

theorem keeps_call {α : Type} (f : W → Reply W α) : Within Keeps (call f : M W V α) := by
  intro s
  unfold call
  rw [ensures_bind, ensures_get, ensures_bind]
  refine (keeps_world s).mono fun _ s₁ h₁ => ?_
  rw [ensures_bind]
  refine (keeps_requests _ s₁).mono fun _ s₂ h₂ => ?_
  exact ensures_pure.mpr (keeps_trans _ _ _ h₁ h₂)

theorem keeps_updateStadr (a : BitVec 32) : Within Keeps (updateStadr a : M W V Unit) := by
  refine within_bind keeps_trans
    (keeps_of_quiet (quiet_modifyDMAC (fun _ => rfl) fun _ => rfl)) fun _ => ?_
  refine within_bind keeps_trans (fun s => ensures_dmac.mpr (keeps_refl s)) fun d => ?_
  split
  · exact within_pure keeps_refl _
  · exact within_ite (fun _ => keeps_setDMARequest _) fun _ => within_pure keeps_refl _

theorem keeps_transferEnd (c : Channel) : Within Keeps (transferEnd c : M W V Unit) := by
  intro s
  unfold transferEnd
  rw [ensures_bind]
  refine (modifyChannel_others c _ s).mono fun _ s₁ ⟨ho, hc⟩ => ?_
  rw [ensures_bind]
  refine (quiet_flagInterrupt _ s₁).mono fun _ s₂ hq => Ensures.imp fun hs => ?_
  have hstop : (s₂.dmac.channels c).started = false := by
    rw [(hq.flags c).started, hc]
  refine deactivateChannel_inv ((ho.trans (hq.others c)).leaving hs ?_ ?_)
  · intro hr
    rw [hr.1] at hstop
    cases hstop
  · rw [hstop, (hq.flags c).bit, hc]
    simp

/-- Whatever a handler does keeps the invariant. -/
theorem allows_keeps (c : Channel) : Allows P c Keeps where
  refl := keeps_refl
  trans := keeps_trans
  registers s ch hf hs := by
    obtain ⟨ho, hc⟩ := ensures_modifyChannel.mp (modifyChannel_others c (fun _ => ch) s)
    exact hs.quiet (ho.quiet (by rw [hc]; exact hf))
  controller s d hc ha hq _ hs := by
    refine hs.quiet ⟨?_, fun c => ?_, id⟩
    · show Arbiter.arbiter d = Arbiter.arbiter s.dmac
      unfold Arbiter.arbiter
      rw [ha, hq]
    · show SameFlags _ (d.channels c)
      rw [hc]
      exact SameFlags.refl _
  signal _ _ hs := hs.quiet ⟨rfl, fun _ => SameFlags.refl _, id⟩
  memory _ _ _ hs := hs.quiet ⟨rfl, fun _ => SameFlags.refl _, id⟩
  running _ _ _ hs := hs.quiet ⟨rfl, fun _ => SameFlags.refl _, id⟩
  quad s q hs := hs.quiet (ensures_record.mp (quiet_record _ s))
  tag s q hs := hs.quiet (ensures_record.mp (quiet_record _ s))
  call _ := keeps_call _
  arbitrate := keeps_arbitrate
  clear := keeps_clearDMARequest c
  finish := keeps_transferEnd c
  stadr := keeps_updateStadr

/-! ### The registers -/

/-- A channel whose control register has just been written with bit 8 is started. -/
theorem startDMA_inv {c : Channel} (ho : Others c s s') (hs : Arbitrated s)
    (hr : ¬ Requested s.dmac c) (hb : (s'.dmac.channels c).control.getLsbD 8 = true) :
    Ensures (startDMA c) s' fun _ s'' => Arbitrated s'' := by
  unfold startDMA
  rw [ensures_bind, ensures_dmac, ensures_bind]
  refine (modifyChannel_others c _ s').mono fun _ s₁ ⟨ho₁, hc⟩ => ?_
  have hp : Pending s₁ c := by
    refine (ho.trans ho₁).pending hs hr ?_
    rw [hc]
    show true = (startFields (s'.dmac.channels c) _).control.getLsbD 8
    simp only [startFields]
    split_ifs <;> simp [hb]
  rw [ensures_ite]
  refine ⟨fun _ => ?_, fun _ => checkForActivation_inv hp⟩
  rw [ensures_bind]
  refine (quiet_modifyDMAC ?_ ?_ s₁).mono fun _ s₂ hq => checkForActivation_inv (hp.quiet hq)
  · exact fun _ => rfl
  · exact fun _ => rfl

theorem quiet_stopPeripheral (c : Channel) : Within Quiet (stopPeripheral P c) := by
  refine within_ite (fun _ s => ?_) fun _ => within_pure quiet_refl _
  exact ensures_noteRunning.mpr ⟨rfl, fun _ => SameFlags.refl _, id⟩

theorem keeps_writeControl (c : Channel) (value : BitVec 32) :
    Within Keeps (writeControl P c value) := by
  intro s
  unfold writeControl
  rw [ensures_bind, ensures_channel, ensures_ite]
  refine ⟨fun hbit => ?_, fun hbit => ?_⟩
  · -- a running channel goes on, or is stopped
    dsimp only
    rw [ensures_bind]
    refine (modifyChannel_others c _ s).mono fun _ s₁ ⟨ho, hc⟩ => ?_
    rw [ensures_ite]
    refine ⟨fun hstop => ?_, fun hgo => ensures_pure.mpr fun hs => hs.quiet (ho.quiet ?_)⟩
    · rw [ensures_bind]
      refine (quiet_stopPeripheral c s₁).mono fun _ s₂ hq => Ensures.imp fun hs => ?_
      have h2 : (s₂.dmac.channels c).started = false := by
        rw [(hq.flags c).started, hc]
        exact hstop
      refine deactivateChannel_inv ((ho.trans (hq.others c)).leaving hs ?_ ?_)
      · intro hr
        rw [hr.1] at h2
        cases h2
      · rw [h2, (hq.flags c).bit, hc]
        exact hstop.symm
    · have hgo := Bool.eq_true_of_not_eq_false hgo
      rw [hc]
      exact ⟨hgo.trans (hbit.symm.trans (hs.started c).symm), rfl, hgo.trans hbit.symm⟩
  · rw [ensures_bind]
    refine (modifyChannel_others c _ s).mono fun _ s₁ ⟨ho, hc⟩ => ?_
    have hstopped (hs : Arbitrated s) : (s.dmac.channels c).started = false :=
      (hs.started c).trans (Bool.eq_false_of_not_eq_true hbit)
    rw [ensures_ite]
    refine ⟨fun hstart => Ensures.imp fun hs => startDMA_inv ho hs ?_ ?_, fun hstop => ?_⟩
    · intro hr
      have := hr.1
      rw [hstopped hs] at this
      cases this
    · rw [hc]
      exact hstart
    · rw [ensures_bind]
      refine (quiet_stopPeripheral c s₁).mono fun _ s₂ hq => ?_
      refine (modifyChannel_others c _ s₂).mono fun _ s₃ ⟨ho₃, hc₃⟩ hs => ?_
      refine hs.quiet (((ho.trans (hq.others c)).trans ho₃).quiet ?_)
      rw [hc₃]
      refine ⟨(hstopped hs).symm, ?_, ?_⟩
      · exact (hq.flags c).dmaReq.trans (by rw [hc])
      · rw [(hq.flags c).bit, hc]
        exact (Bool.eq_false_of_not_eq_true hstop).trans (Bool.eq_false_of_not_eq_true hbit).symm

theorem keeps_registers {c : Channel} {f : DMAChannel → DMAChannel}
    (hf : ∀ ch, SameFlags ch (f ch)) : Within Keeps (modifyChannel c f : M W V Unit) :=
  keeps_of_quiet (quiet_modifyChannel hf)

theorem keeps_controller {f : DMAC → DMAC} (ha : ∀ d, arbiter (f d) = arbiter d)
    (hc : ∀ d, (f d).channels = d.channels) : Within Keeps (modifyDMAC f : M W V Unit) :=
  keeps_of_quiet (quiet_modifyDMAC ha hc)

theorem keeps_writeRegister (r : Register) (value : BitVec 32) :
    Within Keeps (writeRegister P r value) := by
  cases r <;> dsimp only [writeRegister, writeDCtrl]
  case control c => exact keeps_writeControl c value
  case D_STAT =>
    refine within_bind keeps_trans (keeps_controller (fun _ => rfl) fun _ => rfl) fun _ => ?_
    exact keeps_of_quiet quiet_int1Check
  case STADR => exact keeps_updateStadr value
  case D_CTRL | PCR | SQWC | RBSR | RBOR => exact keeps_controller (fun _ => rfl) fun _ => rfl
  all_goals exact keeps_registers fun _ => ⟨rfl, rfl, rfl⟩

theorem keeps_write32 (a value : BitVec 32) : Within Keeps (write32 P a value) := by
  unfold write32
  split
  · exact within_pure keeps_refl _
  · exact keeps_writeRegister _ value

theorem keeps_write16 (a : BitVec 32) (value : BitVec 16) : Within Keeps (write16 P a value) := by
  unfold write16
  split
  · refine within_ite (fun _ => within_pure keeps_refl _) fun _ => ?_
    refine within_bind keeps_trans (fun s => ensures_channel.mpr (keeps_refl s)) fun _ => ?_
    exact keeps_writeControl _ _
  · exact within_pure keeps_refl _

theorem keeps_write8 (a : BitVec 32) (value : BitVec 8) : Within Keeps (write8 P a value) := by
  have hlow (c : Channel) : Within Keeps (modifyChannel c fun ch => { ch with
      control := (ch.control &&& ~~~0xFF#32) ||| value.setWidth 32 } : M W V Unit) :=
    keeps_registers fun _ => ⟨rfl, rfl, by simp⟩
  have hhigh (c : Channel) : Within Keeps (do
      writeControl P c (((← channel c).control &&& 0xFFFF00FF#32) |||
        (value.setWidth 32 <<< 8))) :=
    within_bind keeps_trans (fun s => ensures_channel.mpr (keeps_refl s)) fun _ =>
      keeps_writeControl _ _
  unfold write8
  dsimp only
  split
  · exact hlow .VIF0
  · exact hhigh .VIF0
  · exact hlow .VIF1
  · exact hhigh .VIF1
  · exact hhigh .GIF
  · exact hhigh .SPR_FROM
  · exact hhigh .SPR_TO
  · exact keeps_controller (fun _ => rfl) fun _ => rfl
  · exact within_pure keeps_refl _

/-! ### Runs -/

theorem keeps_serveActive : Within Keeps (serveActive P) := by
  refine within_bind keeps_trans (fun s => ensures_dmac.mpr (keeps_refl s)) fun d => ?_
  split
  · exact within_failure
  · rename_i c _
    refine within_bind keeps_trans (allows_keeps c).process fun _ => ?_
    refine within_bind keeps_trans (fun s => ensures_channel.mpr (keeps_refl s)) fun _ => ?_
    exact keeps_controller (fun _ => rfl) fun _ => rfl

/-- **A step keeps the invariant.** -/
theorem keeps_exec (a : Action W V) : Within Keeps (a.exec P) := by
  cases a <;> dsimp only [Action.exec]
  case write32 a v => exact keeps_write32 a v
  case write16 a v => exact keeps_write16 a v
  case write8 a v => exact keeps_write8 a v
  case writeMasterDisable v => exact keeps_controller (fun _ => rfl) fun _ => rfl
  case request r => exact keeps_apply r
  case serve => exact keeps_serveActive
  case grant n => exact keeps_controller (fun _ => rfl) fun _ => rfl
  case outside m w => exact within_modify fun _ hs => hs.quiet ⟨rfl, fun _ => SameFlags.refl _, id⟩

theorem arbitrated_init (h : Init s) : Arbitrated s := by
  obtain ⟨⟨d, hd⟩, -⟩ := h
  have hstarted (c : Channel) : (s.dmac.channels c).started = false := by rw [hd]; rfl
  refine ⟨?_, fun c => ?_, fun _ _ => ?_⟩
  · rw [hd]
    refine ⟨List.nodup_nil, fun c => iff_of_false List.not_mem_nil fun hr => ?_⟩
    cases hr.1
  · rw [hstarted c, hd]
    simp [reset]
  · rw [hd]
    rfl

/-- **The invariant of the arbiter holds in every state reached from reset.** -/
theorem arbitrated (h : Reaches Init (Step P) s) : Arbitrated s :=
  h.invariant (fun _ => arbitrated_init) fun s a s' hs hstep => keeps_exec a s () s' hstep hs

/-- **The arbiter.** No channel occurs twice in the active channel and the queue, and those that
occur are the channels that are started and requested. -/
theorem arbiter_exact (h : Reaches Init (Step P) s) :
    (s.dmac.activeChannel.toList ++ s.dmac.queuedChannels).Nodup ∧
      ∀ c, c ∈ s.dmac.activeChannel.toList ++ s.dmac.queuedChannels ↔
        (s.dmac.channels c).started = true ∧ (s.dmac.channels c).dmaReq = true :=
  (arbitrated h).holds

/-- Both channels of the scratchpad are started. -/
def startScratchpad : List (Model.Action Unit Unit) :=
  [.write32 0x1000D000#32 0x100#32, .write32 0x1000D400#32 0x100#32]

theorem arbiter_exact_scratchpad : ∃ s, startScratchpad.foldlM (next ready) (powerOn fun _ => 0) =
      some s ∧ s.dmac.queuedChannels = [.SPR_TO] ∧
    (s.dmac.activeChannel.toList ++ s.dmac.queuedChannels).Nodup ∧
      ∀ c, c ∈ s.dmac.activeChannel.toList ++ s.dmac.queuedChannels ↔
        (s.dmac.channels c).started = true ∧ (s.dmac.channels c).dmaReq = true := by
  have hq : (startScratchpad.foldlM (next ready) (powerOn fun _ => 0)).map
      (fun s => s.dmac.queuedChannels) = some [.SPR_TO] := rfl
  obtain ⟨s, hs, hq⟩ := Option.map_eq_some_iff.mp hq
  exact ⟨s, hs, hq, arbiter_exact (reaches_of_steps (init_powerOn _) hs)⟩

end DobieStation.Dma.Arbiter
