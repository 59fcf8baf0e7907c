import DobieStation.Iop.Handlers
import DobieStation.Lib.Priority

/-! # The arbiter of the IOP's DMA controller is exact

In every reachable state the active channel and the queued ones are, without repetition, the
channels that are busy and requesting, and the active one is the highest of them (`Arbitrated`).

`transfer_end` does not look for its channel in the queue, so it keeps this only if the channel is
not there. The handlers call it for the channel being served, which is the highest of all when its
handler is entered, and may come and go within it but stays that (`Serving`). -/

namespace DobieStation.Iop.Arbiter

open DobieStation.Lib.Hoare DobieStation.Lib.Reach DobieStation.Lib.Arbitration
open DobieStation.Iop.Model DobieStation.Iop.Handlers

variable {E : Type} {P : Peripherals E} {d d' : IOP_DMA} {c i : Chan}

/-! ### The invariant -/

def arbiter (d : IOP_DMA) : Arbiter Chan := ⟨d.activeChannel, d.queuedChannels⟩

/-- The channel is busy and requesting. -/
def Wanted (d : IOP_DMA) (c : Chan) : Prop :=
  (d.channels c).control.busy = true ∧ (d.channels c).dmaReq = true

structure Arbitrated (d : IOP_DMA) : Prop where
  holds : Holds (arbiter d) (Wanted d)
  led : (arbiter d).Led

/-- In the handler of `c`: no member is higher. -/
structure Serving (c : Chan) (d : IOP_DMA) : Prop extends Arbitrated d where
  highest : ∀ i ∈ (arbiter d).members, i ≤ c

/-- The arbiter and what it depends on are the same. -/
structure Quiet (d d' : IOP_DMA) : Prop where
  arbiter : Arbiter.arbiter d' = Arbiter.arbiter d
  busy : ∀ i, (d'.channels i).control.busy = (d.channels i).control.busy
  dmaReq : ∀ i, (d'.channels i).dmaReq = (d.channels i).dmaReq

theorem Quiet.wanted (h : Quiet d d') : Wanted d' i ↔ Wanted d i := by
  unfold Wanted
  rw [h.busy, h.dmaReq]

theorem Arbitrated.quiet (h : Arbitrated d) (hq : Quiet d d') : Arbitrated d' := by
  constructor
  · rw [hq.arbiter]
    exact h.holds.congr fun i => hq.wanted
  · rw [hq.arbiter]
    exact h.led

theorem Serving.quiet (h : Serving c d) (hq : Quiet d d') : Serving c d' := by
  refine ⟨h.toArbitrated.quiet hq, fun i hi => h.highest i ?_⟩
  rwa [hq.arbiter] at hi

/-! ### The operations of the arbiter -/

section

variable (f : IOP_DMA_Channel → IOP_DMA_Channel)

@[simp]
theorem arbiter_modifyChannel : arbiter (d.modifyChannel i f) = arbiter d := rfl

theorem channels_modifyChannel :
    (d.modifyChannel i f).channels = Function.update d.channels i (f (d.channels i)) := rfl

theorem wanted_modifyChannel_of_ne (h : c ≠ i) : Wanted (d.modifyChannel i f) c ↔ Wanted d c := by
  unfold Wanted
  rw [channels_modifyChannel, Function.update_of_ne h]

theorem wanted_modifyChannel_self : Wanted (d.modifyChannel i f) i ↔
    (f (d.channels i)).control.busy = true ∧ (f (d.channels i)).dmaReq = true := by
  unfold Wanted
  rw [channels_modifyChannel, Function.update_self]

end

theorem quiet_modifyChannel {f : IOP_DMA_Channel → IOP_DMA_Channel}
    (hb : (f (d.channels i)).control.busy = (d.channels i).control.busy)
    (hr : (f (d.channels i)).dmaReq = (d.channels i).dmaReq) : Quiet d (d.modifyChannel i f) := by
  refine ⟨rfl, fun c => ?_, fun c => ?_⟩
  all_goals
    rw [channels_modifyChannel]
    by_cases hc : c = i
    · subst hc
      simpa using by assumption
    · rw [Function.update_of_ne hc]

theorem arbiter_findNewActiveChannel : arbiter d.findNewActiveChannel = (arbiter d).promote := by
  unfold IOP_DMA.findNewActiveChannel Arbiter.promote arbiter
  dsimp only
  split <;> rename_i h <;> simp only [h]

theorem channels_findNewActiveChannel : d.findNewActiveChannel.channels = d.channels := by
  unfold IOP_DMA.findNewActiveChannel
  split <;> rfl

theorem arbiter_activeDmaCheck (h : Wanted d i) :
    arbiter (d.activeDmaCheck i) = (arbiter d).seize i := by
  unfold IOP_DMA.activeDmaCheck Arbiter.seize arbiter
  rw [if_pos ⟨h.2, h.1⟩]
  cases d.activeChannel with
  | none => rfl
  | some a =>
    dsimp only
    split_ifs <;> rfl

theorem activeDmaCheck_of_not (h : ¬ Wanted d i) : d.activeDmaCheck i = d :=
  if_neg fun hc => h hc.symm

theorem channels_activeDmaCheck : (d.activeDmaCheck i).channels = d.channels := by
  unfold IOP_DMA.activeDmaCheck
  split_ifs
  · split
    · rfl
    · split_ifs <;> rfl
  · rfl

theorem arbiter_deactivateDma : arbiter (d.deactivateDma i) = (arbiter d).withdraw i := by
  unfold IOP_DMA.deactivateDma Arbiter.withdraw
  split_ifs with h1 h2 h2
  · exact arbiter_findNewActiveChannel
  · exact absurd h1 h2
  · exact absurd h2 h1
  · rfl

theorem channels_deactivateDma : (d.deactivateDma i).channels = d.channels := by
  unfold IOP_DMA.deactivateDma
  split_ifs
  · exact channels_findNewActiveChannel
  · rfl

theorem channels_setDMARequest : (d.setDMARequest i).channels =
    (d.modifyChannel i fun ch => { ch with dmaReq := true }).channels := by
  unfold IOP_DMA.setDMARequest
  dsimp only
  split_ifs
  · rfl
  · exact channels_activeDmaCheck

theorem channels_clearDMARequest : (d.clearDMARequest i).channels =
    (d.modifyChannel i fun ch => { ch with dmaReq := false }).channels := by
  unfold IOP_DMA.clearDMARequest
  dsimp only
  split_ifs
  · exact channels_deactivateDma
  · rfl

theorem channels_endTransfer :
    (d.endTransfer i).channels = (d.modifyChannel i IOP_DMA.idle).channels := by
  unfold IOP_DMA.endTransfer
  dsimp only
  split_ifs
  · exact channels_findNewActiveChannel
  · rfl

/-- Only the channel itself changes with its request. -/
theorem channels_request_of_ne (h : c ≠ i) (raise : Bool) :
    (d.request i raise).channels c = d.channels c := by
  unfold IOP_DMA.request
  split_ifs
  · rw [channels_setDMARequest, channels_modifyChannel, Function.update_of_ne h]
  · rw [channels_clearDMARequest, channels_modifyChannel, Function.update_of_ne h]

theorem wanted_congr (h : d'.channels = d.channels) : Wanted d' c ↔ Wanted d c := by
  unfold Wanted
  rw [h]

/-! ### One channel comes or goes -/

/-- Apart from `i` all that is wanted is in the arbiter, and nothing else; `present` says whether
`i` is. -/
structure Except (i : Chan) (present : Prop) (d : IOP_DMA) : Prop where
  holds : Holds (arbiter d) fun c => (c = i ∧ present) ∨ (c ≠ i ∧ Wanted d c)
  led : (arbiter d).Led

variable {present : Prop}

theorem Except.arbitrated (h : Except i present d) (hp : present ↔ Wanted d i) :
    Arbitrated d := by
  refine ⟨h.holds.congr fun c => ?_, h.led⟩
  by_cases hc : c = i
  · subst hc
    simp [hp]
  · simp [hc]

theorem Arbitrated.modifyChannel (h : Arbitrated d) (f : IOP_DMA_Channel → IOP_DMA_Channel) :
    Except i (Wanted d i) (d.modifyChannel i f) := by
  refine ⟨h.holds.congr fun c => ?_, h.led⟩
  by_cases hc : c = i
  · subst hc
    simp
  · simp [hc, wanted_modifyChannel_of_ne f hc]

theorem Except.activeDmaCheck (h : Except i present d) (hp : ¬ present) :
    Arbitrated (d.activeDmaCheck i) := by
  have hch := channels_activeDmaCheck (d := d) (i := i)
  by_cases hw : Wanted d i
  · constructor
    · rw [arbiter_activeDmaCheck hw]
      refine h.holds.cons Arbiter.seize_perm (by simp [hp]) fun c => ?_
      rw [wanted_congr hch]
      by_cases hc : c = i
      · simp [hc, hw]
      · simp [hc]
    · rw [arbiter_activeDmaCheck hw]
      exact Arbiter.seize_led h.led
  · rw [activeDmaCheck_of_not hw]
    exact h.arbitrated ⟨fun hc => absurd hc hp, fun hc => absurd hc hw⟩

theorem Except.deactivateDma (h : Except i present d) (hw : ¬ Wanted d i) :
    Arbitrated (d.deactivateDma i) := by
  have hch := channels_deactivateDma (d := d) (i := i)
  constructor
  · rw [arbiter_deactivateDma]
    refine h.holds.erase Arbiter.withdraw_perm fun c => ?_
    rw [wanted_congr hch]
    by_cases hc : c = i
    · simp [hc, hw]
    · simp [hc]
  · rw [arbiter_deactivateDma]
    exact Arbiter.withdraw_led h.led

theorem mem_activeDmaCheck (h : c ∈ (arbiter (d.activeDmaCheck i)).members) :
    c = i ∨ c ∈ (arbiter d).members := by
  by_cases hw : Wanted d i
  · rw [arbiter_activeDmaCheck hw, Arbiter.seize_perm.mem_iff] at h
    exact List.mem_cons.mp h
  · rw [activeDmaCheck_of_not hw] at h
    exact .inr h

theorem mem_deactivateDma (h : c ∈ (arbiter (d.deactivateDma i)).members) :
    c ∈ (arbiter d).members := by
  rw [arbiter_deactivateDma, Arbiter.withdraw_perm.mem_iff] at h
  exact List.mem_of_mem_erase h

/-! ### Requests and the end of a transfer -/

theorem Arbitrated.setDMARequest (h : Arbitrated d) : Arbitrated (d.setDMARequest i) := by
  have hm := h.modifyChannel (i := i) fun ch => { ch with dmaReq := true }
  unfold IOP_DMA.setDMARequest
  dsimp only
  split_ifs with hr
  · refine hm.arbitrated ?_
    rw [wanted_modifyChannel_self]
    simp [Wanted, hr]
  · exact hm.activeDmaCheck fun hw => hr hw.2

theorem Arbitrated.clearDMARequest (h : Arbitrated d) : Arbitrated (d.clearDMARequest i) := by
  have hm := h.modifyChannel (i := i) fun ch => { ch with dmaReq := false }
  unfold IOP_DMA.clearDMARequest
  dsimp only
  split_ifs with hr
  · refine hm.deactivateDma ?_
    rw [wanted_modifyChannel_self]
    simp
  · refine hm.arbitrated ?_
    rw [wanted_modifyChannel_self]
    simp [Wanted, hr]

theorem mem_setDMARequest (h : c ∈ (arbiter (d.setDMARequest i)).members) :
    c = i ∨ c ∈ (arbiter d).members := by
  unfold IOP_DMA.setDMARequest at h
  dsimp only at h
  split_ifs at h
  · exact .inr h
  · exact (mem_activeDmaCheck h).imp_right fun hc => hc

theorem mem_clearDMARequest (h : c ∈ (arbiter (d.clearDMARequest i)).members) :
    c ∈ (arbiter d).members := by
  unfold IOP_DMA.clearDMARequest at h
  dsimp only at h
  split_ifs at h
  · have hc := mem_deactivateDma h
    exact hc
  · exact h

/-- The channel being served may change its request. -/
theorem Serving.request (h : Serving c d) (raise : Bool) : Serving c (d.request c raise) := by
  cases raise with
  | true =>
    refine ⟨h.toArbitrated.setDMARequest, fun i hi => ?_⟩
    rcases mem_setDMARequest hi with rfl | hi
    · exact le_rfl
    · exact h.highest i hi
  | false =>
    exact ⟨h.toArbitrated.clearDMARequest, fun i hi => h.highest i (mem_clearDMARequest hi)⟩

theorem Serving.requests (h : Serving c d) (l : List Bool) :
    Serving c (l.foldl (fun d raise => d.request c raise) d) := by
  induction l generalizing d with
  | nil => exact h
  | cons raise l ih => exact ih (h.request raise)

/-- The channel being served is active or not there at all. -/
theorem Serving.active (h : Serving c d) (hw : Wanted d c) : d.activeChannel = some c :=
  h.led.active_of_greatest ((h.holds.2 c).mpr hw) h.highest

theorem deactivateDma_of_active (h : d.activeChannel = some i) :
    d.deactivateDma i = d.findNewActiveChannel :=
  if_pos h

theorem Serving.endTransfer (h : Serving c d) : Serving c (d.endTransfer c) := by
  have hm := h.toArbitrated.modifyChannel (i := c) IOP_DMA.idle
  have hidle : ¬ Wanted (d.modifyChannel c IOP_DMA.idle) c := by
    rw [wanted_modifyChannel_self]
    simp [IOP_DMA.idle]
  unfold IOP_DMA.endTransfer
  dsimp only
  split_ifs with hact
  · rw [← deactivateDma_of_active hact]
    refine ⟨hm.deactivateDma hidle, fun i hi => h.highest i ?_⟩
    have hi := mem_deactivateDma hi
    exact hi
  · have hgone : ¬ Wanted d c := fun hw => hact (h.active hw)
    exact ⟨hm.arbitrated ⟨fun hw => absurd hw hgone, fun hw => absurd hw hidle⟩, h.highest⟩

/-! ### The handlers -/

/-- The controller keeps `I`. -/
def Preserves (I : IOP_DMA → Prop) (s s' : Side E) : Prop := I s.dma → I s'.dma

section

variable {I : IOP_DMA → Prop}

theorem preserves_modify {f : Side E → Side E} (h : ∀ s, I s.dma → I (f s).dma) :
    Within (Preserves I) (modify f : M E PUnit) :=
  within_modify h

theorem preserves_modifyDMA {f : IOP_DMA → IOP_DMA} (h : ∀ d, I d → I (f d)) :
    Within (Preserves (E := E) I) (modifyDMA f) :=
  preserves_modify fun s => h s.dma

end

/-- Whatever the handler of a channel does, the channel goes on being served. -/
theorem allows_serving (c : Chan) : Allows (E := E) c (Preserves (Serving c)) where
  refl _ h := h
  trans _ _ _ h h' hs := h' (h hs)
  registers _ _ hf hs := hs.quiet (quiet_modifyChannel (hf _).1 (hf _).2)
  request _ raise hs := hs.request raise
  endTransfer _ hs := hs.endTransfer
  interrupt _ _ _ hs := hs.quiet ⟨rfl, fun _ => rfl, fun _ => rfl⟩
  outside _ _ _ hs := hs
  junk _ _ _ hs := hs
  writeSIF0 hc s word hs := by
    subst hc
    unfold Side.writeSIF0
    dsimp only
    split_ifs
    · exact hs.request false
    · exact hs
  readSIF1 hc s w s' hr hs := by
    subst hc
    unfold Side.readSIF1 at hr
    split at hr
    · cases hr
    · obtain ⟨-, rfl⟩ := Prod.mk.inj (Option.some.inj hr)
      dsimp only
      split_ifs
      · exact hs.request false
      · exact hs

/-- A handler is entered for the active channel, the highest there is. -/
theorem Arbitrated.serving (h : Arbitrated d) (hact : d.activeChannel = some c) : Serving c d := by
  refine ⟨h, fun i hi => ?_⟩
  obtain ⟨b, hb, hib⟩ := h.led i hi
  obtain rfl : c = b := Option.some.inj (hact.symm.trans hb)
  exact hib

theorem serveActive_arbitrated (stack : Fin 4 → Word) :
    Within (Preserves Arbitrated) (serveActive P stack) := by
  intro s
  unfold serveActive
  rw [ensures_bind, ensures_get]
  cases hact : s.dma.activeChannel with
  | none => exact ensures_failure.mpr trivial
  | some c => exact ((allows_serving c).process stack s).mono fun _ s' h ha => (h (ha.serving hact)).toArbitrated

/-- A call of `run` serves active channels. -/
theorem run_serves (held : List (Fin 4 → Word)) (s : Side E) : Ensures (run P held) s fun _ s' =>
    Relation.ReflTransGen (fun s s' => ∃ stack, Step P s (.serve stack) s') s s' := by
  induction held generalizing s with
  | nil => exact ensures_pure.mpr .refl
  | cons stack rest ih =>
    unfold run
    rw [ensures_bind, ensures_get, ensures_ite]
    refine ⟨fun _ => ?_, fun _ => ensures_pure.mpr .refl⟩
    rw [ensures_bind]
    intro _ s₁ hserve
    exact (ih s₁).mono fun _ s₂ hr => .head ⟨stack, hserve⟩ hr

/-! ### The registers -/

theorem arbitrated_modifyChannel {f : IOP_DMA_Channel → IOP_DMA_Channel}
    (hb : ∀ ch, (f ch).control.busy = ch.control.busy) (hr : ∀ ch, (f ch).dmaReq = ch.dmaReq) :
    Within (Preserves (E := E) Arbitrated) (modifyChannel i f) :=
  preserves_modifyDMA fun _ h => h.quiet (quiet_modifyChannel (hb _) (hr _))

theorem startChannel_quiet : Within (fun s s' : Side E => Quiet s.dma s'.dma) (startChannel P i) := by
  unfold startChannel
  split
  · exact within_pure (fun s => ⟨rfl, fun _ => rfl, fun _ => rfl⟩) _
  · intro s
    simp only [channel, modifyChannel, modifyDMA, ensures_bind, ensures_get, ensures_pure,
      ensures_modify]
    exact quiet_modifyChannel rfl rfl

theorem pauseChannel_arbitrated : Within (Preserves Arbitrated) (pauseChannel P i) := by
  unfold pauseChannel
  split
  · exact within_pure (fun _ h => h) _
  · exact preserves_modify fun _ h => h

theorem Except.quiet (h : Except i present d) (hq : Quiet d d') : Except i present d' := by
  constructor
  · rw [hq.arbiter]
    exact h.holds.congr fun c => by rw [hq.wanted]
  · rw [hq.arbiter]
    exact h.led

/-- The busy bit of a channel has been written; it was wanted before if `present`. -/
theorem busyChanged_arbitrated {oldBusy : Bool} {s : Side E} (h : Except i present s.dma)
    (hp : present ↔ oldBusy = true ∧ (s.dma.channels i).dmaReq = true) :
    Ensures (busyChanged P i oldBusy) s fun _ s' => Arbitrated s'.dma := by
  unfold busyChanged
  simp only [channel, ensures_bind, ensures_get, ensures_pure, ensures_ite]
  refine ⟨fun hon => ?_, fun hon => ⟨fun hoff => ?_, fun hoff => ?_⟩⟩
  · refine (startChannel_quiet s).mono fun _ s' hq => ensures_modify.mpr ?_
    refine (h.quiet hq).activeDmaCheck ?_
    simp [hp, hon.1]
  · refine ensures_modify.mpr ?_
    have hw : ¬ Wanted s.dma i := fun hw => by simp [hw.1] at hoff
    exact (pauseChannel_arbitrated _).mono fun _ s' h' => h' (h.deactivateDma hw)
  · refine h.arbitrated (hp.trans ?_)
    unfold Wanted
    cases oldBusy <;> simp_all

theorem setChanControl_arbitrated (value : Word) :
    Within (Preserves Arbitrated) (setChanControl P i value) := by
  intro s
  unfold setChanControl
  simp only [channel, ensures_bind, ensures_get, ensures_pure]
  refine ensures_modify.mpr ?_
  intro _ s₁ hbusy
  have hlast : Within (Preserves (E := E) Arbitrated) (modifyChannel i fun ch =>
      { ch with control := { ch.control with unk30 := value.getLsbD 30 } }) :=
    arbitrated_modifyChannel (fun _ => rfl) fun _ => rfl
  refine (hlast s₁).mono fun _ s₂ hlast => fun h => ?_
  have hm := h.modifyChannel (i := i) fun ch => { ch with control := controlFields ch.control value }
  refine hlast (busyChanged_arbitrated hm ?_ () s₁ hbusy)
  rw [channels_modifyChannel, Function.update_self]
  exact Iff.rfl

theorem setEnable_arbitrated (second : Bool) (value : Word) :
    Within (Preserves (E := E) Arbitrated) (setEnable second value) := by
  refine preserves_modifyDMA fun d h => h.quiet ⟨rfl, fun j => ?_, fun j => ?_⟩
  all_goals
    dsimp only
    split_ifs <;> rfl

theorem setDICR_arbitrated (second : Bool) (value : Word) :
    Within (Preserves (E := E) Arbitrated) (setDICR second value) :=
  preserves_modify fun _ h => h.quiet ⟨rfl, fun _ => rfl, fun _ => rfl⟩

/-! ### Runs -/

theorem exec_arbitrated (a : Act E) : Within (Preserves Arbitrated) (a.exec P) := by
  cases a with
  | setDMARequest i =>
    exact preserves_modifyDMA (f := fun d => d.setDMARequest i) fun _ h => h.setDMARequest
  | clearDMARequest i =>
    exact preserves_modifyDMA (f := fun d => d.clearDMARequest i) fun _ h => h.clearDMARequest
  | setChanControl i v => exact setChanControl_arbitrated v
  | setChanAddr | setChanBlock | setChanSize | setChanCount | setChanTagAddr =>
    exact arbitrated_modifyChannel (fun _ => rfl) fun _ => rfl
  | setEnable b v => exact setEnable_arbitrated b v
  | setDICR b v => exact setDICR_arbitrated b v
  | serve stack => exact serveActive_arbitrated stack
  | outside => exact preserves_modify fun _ h => h

theorem arbitrated_cleared : Arbitrated (cleared d) := by
  refine ⟨⟨List.nodup_nil, fun c => ?_⟩, fun c hc => ?_⟩
  · simp [Wanted, cleared, arbiter, Arbiter.members]
  · cases hc

theorem arbitrated_reset : Arbitrated (reset d) := by
  have h : Arbitrated (cleared d) := arbitrated_cleared
  unfold reset
  simp only [List.foldl_cons, List.foldl_nil]
  exact h.setDMARequest.setDMARequest.setDMARequest

theorem arbitrated {s : Side E} (h : Reaches Init (Step P) s) : Arbitrated s.dma := by
  refine Reaches.invariant (I := fun s => Arbitrated s.dma) ?_ ?_ h
  · rintro s ⟨⟨d, hd⟩, -⟩
    rw [hd]
    exact arbitrated_reset
  · intro s a s' hs hstep
    exact exec_arbitrated a s () s' hstep hs

/-- **The arbiter invariant**: the active channel and the queued ones are without repetition the
channels that are busy and requesting, the active one has the highest index, and it is there as long
as any channel is. -/
theorem arbiter_sound {s : Side E} (h : Reaches Init (Step P) s) :
    (s.dma.activeChannel.toList ++ s.dma.queuedChannels).Nodup ∧
    (∀ i, i ∈ s.dma.activeChannel.toList ++ s.dma.queuedChannels ↔
      (s.dma.channels i).control.busy = true ∧ (s.dma.channels i).dmaReq = true) ∧
    ∀ i ∈ s.dma.activeChannel.toList ++ s.dma.queuedChannels,
      ∃ active, s.dma.activeChannel = some active ∧ i ≤ active :=
  ⟨(arbitrated h).holds.1, (arbitrated h).holds.2, (arbitrated h).led⟩

/-- Both SIO2 channels, the drive's, which has no request yet, and SIF0 are started. -/
def startChannels : List (Act Unit) :=
  [.setChanControl IOP_SIO2in 0x01000000#32, .setChanControl IOP_CDVD 0x01000000#32,
    .setChanControl IOP_SIF0 0x01000000#32, .setChanControl IOP_SIO2out 0x01000000#32]

theorem arbiter_sound_startChannels : ∃ s,
    startChannels.foldlM (next silent) (powerOn fun _ => 0) = some s ∧
    s.dma.queuedChannels = [IOP_SIF0, IOP_SIO2in] ∧
    (s.dma.activeChannel.toList ++ s.dma.queuedChannels).Nodup ∧
    (∀ i, i ∈ s.dma.activeChannel.toList ++ s.dma.queuedChannels ↔
      (s.dma.channels i).control.busy = true ∧ (s.dma.channels i).dmaReq = true) ∧
    ∀ i ∈ s.dma.activeChannel.toList ++ s.dma.queuedChannels,
      ∃ active, s.dma.activeChannel = some active ∧ i ≤ active := by
  have hq : (startChannels.foldlM (next silent) (powerOn fun _ => 0)).map
      (fun s => s.dma.queuedChannels) = some [IOP_SIF0, IOP_SIO2in] := by
    decide
  obtain ⟨s, hs, hq⟩ := Option.map_eq_some_iff.mp hq
  exact ⟨s, hs, hq, arbiter_sound (reaches_of_acts (init_powerOn _) hs)⟩

end DobieStation.Iop.Arbiter
