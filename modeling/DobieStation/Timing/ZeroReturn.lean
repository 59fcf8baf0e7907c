import DobieStation.Timing.Slots

/-! # A timer that returns to zero

A timer that is to return to zero at its target is cleared by the function that its event calls. `InTime` says that
the event comes at most eight cycles after the counter has gone above the target, which is so when it was armed with
the counter below the target (`rearm_inTime`) at a rate that is precise enough (`Precise`). -/

namespace DobieStation.Timing.ZeroReturn

open DobieStation.Lib.Accumulator DobieStation.Timing.Model DobieStation.Timing.Counter
open DobieStation.Timing.Reads DobieStation.Timing.Slots

/-- Up to the target the counter runs ahead of the wait reckoned for it by at most a tick and eight cycles. -/
def Precise (overflowMask target clockrate : ℤ) : Prop :=
  min target overflowMask * ((2 ^ 8 * eeClockrate : ℤ) % clockrate) ≤
    (2 ^ 8 * eeClockrate / clockrate + 8 * 2 ^ 8) * clockrate

instance (m x c : ℤ) : Decidable (Precise m x c) := inferInstanceAs (Decidable (_ ≤ _))

/-- The counter is not above the target, and by the cycle `now` has not been for more than eight cycles. -/
structure NotAbove (t : SchedulerTimer) (target now : ℤ) : Prop where
  counter_le : t.counter ≤ target
  value_le : ∀ c, t.lastUpdate ≤ c → c + 8 < now → valueAt t c ≤ target

/-- The event comes at most eight cycles after the counter has gone above the target. -/
structure InTime (v : Slot) : Prop where
  counter_le : v.timer.counter ≤ v.timer.target
  due : v.timer.paused = false → ∀ c, v.timer.lastUpdate ≤ c → v.timer.target < counterAt v.timer c → v.due ≤ c + 8

variable {t : SchedulerTimer} {v v' : Slot} {now : ℤ}

theorem InTime.notAbove (h : InTime v) (hdue : now ≤ v.due) : NotAbove v.timer v.timer.target now := by
  refine ⟨h.counter_le, fun c hc hnow => ?_⟩
  unfold valueAt
  split_ifs with hp
  · exact h.counter_le
  · by_contra habove
    have := h.due (by simpa using hp) c hc (by omega)
    omega

/-! ### Arming -/

/-- **The wait for a target above the counter** is over in time. -/
theorem delta_inTime (h : Sound t t.lastUpdate) (hp : t.paused = false) (hlt : t.counter < t.target)
    (hprecise : Precise t.overflowMask t.target t.clockrate) {d : ℤ} (hd : calculateTimerEventDelta t = some d) :
    InTime ⟨t, t.lastUpdate + d⟩ := by
  have hc0 := h.counter_nonneg
  obtain ⟨x, hx0, hxmask, hxtarget, hdx⟩ := delta_of_target h hp hlt hd
  refine ⟨hlt.le, fun _ c hc habove => ?_⟩
  have hdrift : x * ((2 ^ 8 * eeClockrate : ℤ) % t.clockrate) ≤ (clockScale t + 8 * 2 ^ 8) * t.clockrate := by
    rw [h.scale_eq]
    refine (mul_le_mul_of_nonneg_right ?_ (Int.emod_nonneg _ h.rate_pos.ne')).trans hprecise
    exact le_min (by omega) hxmask
  have hticks : x + 1 ≤ ticks (clockScale t) t.remainderClocks ((c - t.lastUpdate) * 2 ^ 8) := by
    have habove' : t.target < counterAt t c := habove
    unfold counterAt at habove'
    omega
  have hwait : wait t x ≤ c - t.lastUpdate + 8 :=
    wait_le_succ h.rate_pos (by decide) h.scale_eq h.scale_pos hdrift hticks
  have hc' : t.lastUpdate ≤ c := hc
  show t.lastUpdate + d ≤ c + 8
  omega

theorem rearm_inTime {due : ℤ} (h : Sound t now) (hfresh : t.paused = false → t.lastUpdate = now)
    (hlt : t.counter < t.target) (hprecise : Precise t.overflowMask t.target t.clockrate)
    (hv : Slot.rearm now ⟨t, due⟩ = some v') : v'.timer = t ∧ InTime v' := by
  unfold Slot.rearm at hv
  dsimp only at hv
  split_ifs at hv with hp
  · obtain rfl := Option.some.inj hv
    exact ⟨rfl, hlt.le, fun hrun => absurd (hp.symm.trans hrun) (by decide)⟩
  · have hrun : t.paused = false := by simpa using hp
    obtain ⟨d, hd, rfl⟩ := Option.map_eq_some_iff.mp hv
    obtain rfl := hfresh hrun
    exact ⟨rfl, delta_inTime h hrun hlt hprecise hd⟩

/-! ### The operations -/

theorem readTimer_sound (h : Sound t now) (hnow : now < 2 ^ 54) : Sound (readTimer t now) now := by
  unfold readTimer
  split
  · exact h
  · exact advance_sound h hnow

/-- What is set of a timer is the same. -/
structure Alike (t t' : SchedulerTimer) : Prop where
  callback : t'.callbackId = t.callbackId
  param : t'.param = t.param
  mask : t'.overflowMask = t.overflowMask
  target : t'.target = t.target
  clockrate : t'.clockrate = t.clockrate
  canTarget : t'.canTarget = t.canTarget

theorem Alike.trans {t' t'' : SchedulerTimer} (h : Alike t t') (h' : Alike t' t'') : Alike t t'' :=
  ⟨h'.callback.trans h.callback, h'.param.trans h.param, h'.mask.trans h.mask, h'.target.trans h.target,
    h'.clockrate.trans h.clockrate, h'.canTarget.trans h.canTarget⟩

theorem readTimer_alike (h : Sound t now) (hnow : now < 2 ^ 54) : Alike t (readTimer t now) := by
  unfold readTimer
  split_ifs
  · exact ⟨rfl, rfl, rfl, rfl, rfl, rfl⟩
  · rw [advanceCounter_eq h hnow]
    exact ⟨rfl, rfl, rfl, rfl, rfl, rfl⟩

theorem readTimer_running (t : SchedulerTimer) (now : ℤ) : (readTimer t now).paused = t.paused := by
  unfold readTimer
  split
  · rfl
  · exact advance_paused t now

theorem readTimer_counter (h : Sound t now) (hnow : now < 2 ^ 54) : (readTimer t now).counter = valueAt t now := by
  unfold readTimer valueAt
  split_ifs
  · rfl
  · rw [advanceCounter_eq h hnow]

theorem readTimer_last (h : Sound t now) (hnow : now < 2 ^ 54) (hrun : (readTimer t now).paused = false) :
    (readTimer t now).lastUpdate = now := by
  unfold readTimer at *
  split_ifs at * with hp
  · exact absurd (hp.symm.trans hrun) (by decide)
  · rw [advanceCounter_eq h hnow]

/-- A read while the counter is not above the target. -/
theorem read_inTime (h : Sound v.timer now) (hnow : now < 2 ^ 54) (hi : InTime v)
    (hle : valueAt v.timer now ≤ v.timer.target) : InTime (v.read now) := by
  refine ⟨?_, fun hrun c hc habove => ?_⟩
  · show (readTimer v.timer now).counter ≤ (readTimer v.timer now).target
    rw [readTimer_counter h hnow, (readTimer_alike h hnow).target]
    exact hle
  · have hlast := h.last_le
    have hp : v.timer.paused = false := (readTimer_running v.timer now).symm.trans hrun
    simp only [Slot.read, readTimer, hp, Bool.false_eq_true, if_false] at hc habove ⊢
    rw [(h.fits hnow).counterAt_advance] at habove
    rw [advanceCounter_eq h hnow] at hc habove
    dsimp only at hc habove
    exact hi.due hp c (by omega) habove

theorem rearm_timer (hv : v.rearm now = some v') : v'.timer = v.timer := by
  unfold Slot.rearm at hv
  split_ifs at hv
  · obtain rfl := Option.some.inj hv
    rfl
  · obtain ⟨d, -, rfl⟩ := Option.map_eq_some_iff.mp hv
    rfl

/-- A running timer has just been brought up to date. -/
def Fresh (now : ℤ) (v : Slot) : Prop := v.timer.paused = false → v.timer.lastUpdate = now

theorem assign_fresh {f : SchedulerTimer → SchedulerTimer} (hf : Assigns f)
    (hlast : ∀ t, (f t).lastUpdate = t.lastUpdate) (h : Sound v.timer now) (hnow : now < 2 ^ 54)
    (hv : v.assign now f = some v') : Fresh now v' := by
  have htimer : v'.timer = f (readTimer v.timer now) := rearm_timer hv
  intro hrun
  rw [htimer, hf.paused] at hrun
  rw [htimer, hlast]
  exact readTimer_last h hnow hrun

/-- An assignment that leaves the counter below the target. -/
theorem assign_inTime {f : SchedulerTimer → SchedulerTimer} (hf : Assigns f)
    (hlast : ∀ t, (f t).lastUpdate = t.lastUpdate) (h : Sound v.timer now) (hnow : now < 2 ^ 54)
    (hv : v.assign now f = some v') (hs : Sound v'.timer now) (hlt : v'.timer.counter < v'.timer.target)
    (hprecise : Precise v'.timer.overflowMask v'.timer.target v'.timer.clockrate) : InTime v' := by
  have htimer : v'.timer = f (readTimer v.timer now) := rearm_timer hv
  have hfresh := assign_fresh hf hlast h hnow hv
  unfold Fresh at hfresh
  rw [htimer] at hs hlt hprecise hfresh
  exact (rearm_inTime hs hfresh hlt hprecise hv).2

theorem int64_nat {c : ℕ} (hc : c < 2 ^ 63) : int64 (c : ℤ) = c := Events.int64_of_range (by omega) (by omega)

theorem sound_counter (h : Sound t now) {x : ℤ} (h0 : 0 ≤ x) (h1 : x ≤ 2 ^ 33) : Sound { t with counter := x } now :=
  h.congr rfl rfl rfl rfl h0 (h1.trans (le_add_of_nonneg_right h.last_nonneg))

theorem sound_target (h : Sound t now) (x : ℤ) : Sound { t with target := x } now :=
  h.congr rfl rfl rfl rfl h.counter_nonneg h.counter_le

theorem sound_clockrate (h : Sound t now) {r : ℤ} (h0 : 0 < r) (h1 : r ≤ eeClockrate) :
    Sound { t with clockrate := r, remainderClocks := 0 } now := by
  have hscale : 2 ^ 8 ≤ clockScale { t with clockrate := r, remainderClocks := 0 } := le_clockScale h0 h1
  exact ⟨h.mask_nonneg, h.mask_lt, h0, h1, le_rfl, (show (0 : ℤ) < 2 ^ 8 by decide).trans_le hscale, h.last_nonneg,
    h.last_le, h.counter_nonneg, h.counter_le⟩

/-- Pausing brings the counter up to date, and un-pausing starts the clock again. -/
theorem pause_sound (h : Sound v.timer now) (hnow : now < 2 ^ 54) (paused : Bool) :
    Sound (v.pause now paused).timer now := by
  have hlast := h.last_le
  have hlast0 := h.last_nonneg
  unfold Slot.pause
  split_ifs
  · exact h
  · have hs := advance_sound h hnow
    exact hs.congr rfl rfl rfl rfl hs.counter_nonneg hs.counter_le
  · have hle := h.counter_le
    exact ⟨h.mask_nonneg, h.mask_lt, h.rate_pos, h.rate_le, h.rem_nonneg, h.rem_lt, hlast0.trans hlast, le_rfl,
      h.counter_nonneg, hle.trans (by dsimp only; omega)⟩

theorem pause_alike (h : Sound v.timer now) (hnow : now < 2 ^ 54) (paused : Bool) :
    Alike v.timer (v.pause now paused).timer := by
  unfold Slot.pause
  split_ifs
  · exact ⟨rfl, rfl, rfl, rfl, rfl, rfl⟩
  · rw [advanceCounter_eq h hnow]
    exact ⟨rfl, rfl, rfl, rfl, rfl, rfl⟩
  · exact ⟨rfl, rfl, rfl, rfl, rfl, rfl⟩

theorem pause_value (h : Sound v.timer now) (hnow : now < 2 ^ 54) (paused : Bool) :
    valueAt (v.pause now paused).timer now = valueAt v.timer now := by
  have hs := pause_sound h hnow paused
  unfold Slot.pause at *
  split_ifs at * with h₁ h₂
  · rfl
  · have hp : v.timer.paused = false := by simpa [h₂] using h₁
    rw [advanceCounter_eq h hnow]
    simp [valueAt, hp]
  · have hp : v.timer.paused = true := by
      rw [Bool.not_eq_true] at h₂
      simpa [h₂] using h₁
    simp only [valueAt, hp, Bool.false_eq_true, if_false, if_true]
    exact counterAt_last hs

/-- Pausing while the counter is not above the target. -/
theorem pause_inTime (h : Sound v.timer now) (hnow : now < 2 ^ 54) (hi : InTime v) {paused : Bool}
    (hstop : if paused then valueAt v.timer now ≤ v.timer.target else v.timer.paused = false) :
    InTime (v.pause now paused) := by
  unfold Slot.pause
  split_ifs with h₁ h₂
  · exact hi
  · have hp : v.timer.paused = false := by simpa [h₂] using h₁
    rw [if_pos h₂] at hstop
    simp only [valueAt, hp, Bool.false_eq_true, if_false] at hstop
    rw [advanceCounter_eq h hnow]
    exact ⟨hstop, fun hrun => absurd hrun (by simp)⟩
  · rw [if_neg h₂] at hstop
    rw [Bool.not_eq_true] at h₂
    exact absurd (h₂.trans hstop.symm) h₁

/-! ### What a component has set -/

/-- What the registers of a timer say, and what the timer was created with. For every target the clock sources of an
`exact` timer are precise enough; a `free` timer is never paused. -/
structure Setting where
  callback : ℤ
  param : ℕ
  mask : ℤ
  exact : Bool
  free : Bool
  zeroReturn : Bool
  target : ℕ

/-- The timer is as its component has set it. Before the first write the target of the component is zero and that of
the scheduler is out of reach. -/
structure Set (g : Setting) (t : SchedulerTimer) : Prop where
  callback : t.callbackId = g.callback
  param : t.param = g.param
  mask : t.overflowMask = g.mask
  target : t.target = g.target ∨ g.target = 0
  target_lt : g.target < 2 ^ 32
  steady : g.exact = true → Precise t.overflowMask t.overflowMask t.clockrate
  running : g.free = true → t.paused = false

/-- A timer that is to return to zero is cleared in time. -/
structure Returns (g : Setting) (v : Slot) : Prop where
  target : v.timer.target = g.target
  pos : 0 < g.target
  canTarget : v.timer.canTarget = true
  precise : Precise v.timer.overflowMask v.timer.target v.timer.clockrate
  inTime : InTime v

/-- A timer that stands at or below its target. The reset stops the timers of the EE, but does not clear the bit. -/
structure Stands (g : Setting) (v : Slot) : Prop where
  paused : v.timer.paused = true
  counter_le : v.timer.counter ≤ g.target

structure Matches (g : Setting) (now : ℤ) (v : Slot) : Prop where
  set : Set g v.timer
  sound : Sound v.timer now
  returns : g.zeroReturn = true → Returns g v ∨ Stands g v

variable {g : Setting}

theorem Matches.notAbove (h : Matches g now v) (hz : g.zeroReturn = true) (hdue : now ≤ v.due) :
    NotAbove v.timer g.target now := by
  rcases h.returns hz with hr | hst
  · rw [← hr.target]
    exact hr.inTime.notAbove hdue
  · refine ⟨hst.counter_le, fun c _ _ => ?_⟩
    rw [valueAt, if_pos hst.paused]
    exact hst.counter_le

theorem precise_of_mask {m x c : ℤ} (h : Precise m m c) (hc : 0 < c) : Precise m x c := by
  refine (mul_le_mul_of_nonneg_right ?_ (Int.emod_nonneg _ hc.ne')).trans h
  rw [min_self]
  exact min_le_right _ _

theorem Set.alike {t' : SchedulerTimer} (h : Set g t) (ha : Alike t t')
    (hp : g.free = true → t.paused = false → t'.paused = false) : Set g t' := by
  obtain ⟨hcallback, hparam, hmask, htarget, hrate, -⟩ := ha
  refine ⟨hcallback.trans h.callback, hparam.trans h.param, hmask.trans h.mask, htarget ▸ h.target, h.target_lt, ?_,
    fun hfree => hp hfree (h.running hfree)⟩
  rw [hmask, hrate]
  exact h.steady

theorem Returns.alike (h : Returns g v) (ha : Alike v.timer v'.timer) (hi : InTime v') : Returns g v' := by
  obtain ⟨-, -, hmask, htarget, hrate, hcan⟩ := ha
  refine ⟨htarget.trans h.target, h.pos, hcan.trans h.canTarget, ?_, hi⟩
  rw [hmask, htarget, hrate]
  exact h.precise

theorem matches_read (h : Matches g now v) (hnow : now < 2 ^ 54)
    (hle : g.zeroReturn = true → valueAt v.timer now ≤ g.target) : Matches g now (v.read now) := by
  have ha : Alike v.timer (v.read now).timer := readTimer_alike h.sound hnow
  refine ⟨h.set.alike ha fun _ hp => (readTimer_running _ _).trans hp, readTimer_sound h.sound hnow, fun hz => ?_⟩
  rcases h.returns hz with hr | hst
  · refine Or.inl (hr.alike ha (read_inTime h.sound hnow hr.inTime ?_))
    rw [hr.target]
    exact hle hz
  · right
    rwa [Slot.read, readTimer, if_pos hst.paused]

theorem matches_pause (h : Matches g now v) (hnow : now < 2 ^ 54) {paused : Bool}
    (hfree : g.free = true → paused = false)
    (hstop : g.zeroReturn = true → if paused then valueAt v.timer now ≤ g.target else v.timer.paused = false) :
    Matches g now (v.pause now paused) := by
  have ha := pause_alike h.sound hnow paused
  refine ⟨h.set.alike ha fun hg hp => ?_, pause_sound h.sound hnow paused, fun hz => ?_⟩
  · rw [Slot.pause, if_pos ((hfree hg).trans hp.symm)]
    exact hp
  rcases h.returns hz with hr | hst
  · refine Or.inl (hr.alike ha (pause_inTime h.sound hnow hr.inTime ?_))
    rw [hr.target]
    exact hstop hz
  · have hpaused : paused = true := by
      by_contra hrun
      have hrunning := hstop hz
      rw [if_neg hrun] at hrunning
      exact absurd (hst.paused.symm.trans hrunning) (by decide)
    right
    rwa [Slot.pause, if_pos (hpaused.trans hst.paused.symm)]

theorem assign_counter (h : Sound v.timer now) (hnow : now < 2 ^ 54) {c : ℕ} (hc : c < 2 ^ 32)
    (hv : v.assign now (fun t => { t with counter := int64 c }) = some v') :
    Alike v.timer v'.timer ∧ Sound v'.timer now ∧ v'.timer.counter = c ∧ v'.timer.paused = v.timer.paused := by
  have htimer : v'.timer = { readTimer v.timer now with counter := int64 c } := rearm_timer hv
  rw [int64_nat (by omega)] at htimer
  have hread := readTimer_alike h hnow
  rw [htimer]
  exact ⟨⟨hread.callback, hread.param, hread.mask, hread.target, hread.clockrate, hread.canTarget⟩,
    sound_counter (readTimer_sound h hnow) (by omega) (by omega), rfl, readTimer_running _ _⟩

theorem assign_value (h : Sound v.timer now) (hnow : now < 2 ^ 54) {c : ℕ} (hc : c < 2 ^ 32)
    (hv : v.assign now (fun t => { t with counter := int64 c }) = some v') : valueAt v'.timer now = c := by
  obtain ⟨-, hs, hcounter, -⟩ := assign_counter h hnow hc hv
  have hfresh := assign_fresh ⟨fun _ => by simp only [Ownership.label], fun _ => by simp only⟩
    (fun _ => by simp only) h hnow hv
  unfold valueAt
  split_ifs with hp
  · exact hcounter
  · have hself := counterAt_last hs
    rw [hfresh (by simpa using hp)] at hself
    exact hself.trans hcounter

/-- A counter is set, to zero or below the target if the timer is to return. -/
theorem matches_counter (h : Matches g now v) (hnow : now < 2 ^ 54) {c : ℕ} (hc : c < 2 ^ 32)
    (hlt : g.zeroReturn = true → c = 0 ∨ c < g.target)
    (hv : v.assign now (fun t => { t with counter := int64 c }) = some v') : Matches g now v' := by
  obtain ⟨ha, hs, hcounter, hpaused⟩ := assign_counter h.sound hnow hc hv
  refine ⟨h.set.alike ha fun _ hp => hpaused.trans hp, hs, fun hz => ?_⟩
  have hc' := hlt hz
  rcases h.returns hz with hr | hst
  · refine Or.inl (hr.alike ha (assign_inTime ⟨fun _ => by simp only [Ownership.label], fun _ => by simp only⟩
      (fun _ => by simp only) h.sound hnow hv hs ?_ ?_))
    · have hpos := hr.pos
      rw [ha.target, hr.target, hcounter]
      omega
    · rw [ha.mask, ha.target, ha.clockrate]
      exact hr.precise
  · exact Or.inr ⟨hpaused.trans hst.paused, by omega⟩

/-- An assignment that leaves the counter below the target of the component. -/
theorem returns_of_assign {f : SchedulerTimer → SchedulerTimer} (hf : Assigns f)
    (hlast : ∀ t, (f t).lastUpdate = t.lastUpdate) (h : Sound v.timer now) (hnow : now < 2 ^ 54)
    (hv : v.assign now f = some v') (hset : Set g v'.timer) (hs : Sound v'.timer now)
    (hlt : v'.timer.counter < g.target) (hprecise : Precise g.mask g.target v'.timer.clockrate) :
    v'.timer.target = g.target ∧ 0 < g.target ∧ InTime v' := by
  have hc0 := hs.counter_nonneg
  have htarget : v'.timer.target = g.target := hset.target.resolve_right (by omega)
  refine ⟨htarget, by omega, assign_inTime hf hlast h hnow hv hs (by omega) ?_⟩
  rw [hset.mask, htarget]
  exact hprecise

/-- A target is set, above the counter if the timer is to return. -/
theorem matches_target (h : Matches g now v) (hnow : now < 2 ^ 54) {c : ℕ} (hc : c < 2 ^ 32)
    (hlt : g.zeroReturn = true → valueAt v.timer now < c ∧ Precise g.mask c v.timer.clockrate)
    (hv : v.assign now (fun t => { t with target := int64 c }) = some v') :
    Matches { g with target := c } now v' := by
  have htimer : v'.timer = { readTimer v.timer now with target := int64 c } := rearm_timer hv
  rw [int64_nat (by omega)] at htimer
  have hread := readTimer_alike h.sound hnow
  have hset := h.set.alike hread fun _ hp => (readTimer_running _ _).trans hp
  have hs : Sound v'.timer now := by
    rw [htimer]
    exact sound_target (readTimer_sound h.sound hnow) _
  have hset' : Set { g with target := c } v'.timer := by
    rw [htimer]
    exact ⟨hset.callback, hset.param, hset.mask, Or.inl rfl, hc, hset.steady, hset.running⟩
  refine ⟨hset', hs, fun hz => ?_⟩
  obtain ⟨hlt', hprecise⟩ := hlt hz
  have hrate : v'.timer.clockrate = v.timer.clockrate := by
    rw [htimer]
    exact hread.clockrate
  have hcounter : v'.timer.counter = valueAt v.timer now := by
    rw [htimer]
    exact readTimer_counter h.sound hnow
  rcases h.returns hz with hr | hst
  · have hcan : v'.timer.canTarget = true := by
      rw [htimer]
      exact hread.canTarget.trans hr.canTarget
    obtain ⟨htarget, hpos, hi⟩ := returns_of_assign ⟨fun _ => by simp only [Ownership.label], fun _ => by simp only⟩
      (fun _ => by simp only) h.sound hnow hv hset' hs (hcounter ▸ hlt') (hrate ▸ hprecise)
    refine Or.inl ⟨htarget, hpos, hcan, ?_, hi⟩
    rw [hset'.mask, htarget, hrate]
    exact hprecise
  · refine Or.inr ⟨?_, ?_⟩
    · rw [htimer]
      exact (readTimer_running _ _).trans hst.paused
    · show v'.timer.counter ≤ (c : ℤ)
      omega

theorem Set.mode {z : Bool} (h : Set { g with zeroReturn := z } t) : Set g t :=
  ⟨h.callback, h.param, h.mask, h.target, h.target_lt, h.steady, h.running⟩

/-- A timer that no longer returns. -/
theorem Matches.stop (h : Matches g now v) : Matches { g with zeroReturn := false } now v :=
  ⟨⟨h.set.callback, h.set.param, h.set.mask, h.set.target, h.set.target_lt, h.set.steady, h.set.running⟩, h.sound,
    fun hz => absurd hz Bool.false_ne_true⟩

/-- A clock is selected. A timer that does not return need not be armed, and one that is to return from now on will
be, if its counter is below the target. -/
theorem matches_clockrate (h : Matches { g with zeroReturn := false } now v) (hnow : now < 2 ^ 54) {r : ℕ}
    (h0 : 0 < r) (h1 : r ≤ eeClockrate) (hexact : g.exact = true → Precise g.mask g.mask r)
    (hv : v.assign now (fun t => { t with clockrate := int64 r, remainderClocks := 0 }) = some v') :
    Matches { g with zeroReturn := false } now v' ∧ v'.timer.clockrate = r ∧
      v'.timer.counter = valueAt v.timer now ∧
      (valueAt v.timer now < g.target → Precise g.mask g.target r →
        v'.timer.target = g.target ∧ 0 < g.target ∧ InTime v') := by
  have htimer : v'.timer = { readTimer v.timer now with clockrate := int64 r, remainderClocks := 0 } := rearm_timer hv
  have h2 := h1
  unfold eeClockrate at h2
  rw [int64_nat (by omega)] at htimer
  have hset := h.set.alike (readTimer_alike h.sound hnow) fun _ hp => (readTimer_running _ _).trans hp
  have hs : Sound v'.timer now := by
    rw [htimer]
    exact sound_clockrate (readTimer_sound h.sound hnow) (by omega) (by exact_mod_cast h1)
  have hrate : v'.timer.clockrate = r := by rw [htimer]
  have hcounter : v'.timer.counter = valueAt v.timer now := by
    rw [htimer]
    exact readTimer_counter h.sound hnow
  have hmask : v'.timer.overflowMask = g.mask := by
    rw [htimer]
    exact hset.mask
  have hset' : Set { g with zeroReturn := false } v'.timer := by
    refine ⟨?_, ?_, hmask, ?_, hset.target_lt, fun he => ?_, ?_⟩
    · rw [htimer]
      exact hset.callback
    · rw [htimer]
      exact hset.param
    · rw [htimer]
      exact hset.target
    · rw [hmask, hrate]
      exact hexact he
    · rw [htimer]
      exact hset.running
  refine ⟨⟨hset', hs, fun hz => absurd hz Bool.false_ne_true⟩, hrate, hcounter, fun hlt hprecise => ?_⟩
  rw [← hrate] at hprecise
  rw [← hcounter] at hlt
  exact returns_of_assign ⟨fun _ => by simp only [Ownership.label], fun _ => by simp only⟩
    (fun _ => by simp only) h.sound hnow hv hset'.mode hs hlt hprecise

theorem matches_mask (h : Matches { g with zeroReturn := false } now v) {z canOverflow canTarget : Bool}
    (hz : z = true → canTarget = true ∧ v.timer.target = g.target ∧ 0 < g.target ∧
      Precise g.mask g.target v.timer.clockrate ∧ InTime v) :
    Matches { g with zeroReturn := z } now (v.mask canOverflow canTarget) := by
  have hset := h.set
  have hs := h.sound
  refine ⟨⟨hset.callback, hset.param, hset.mask, hset.target, hset.target_lt, hset.steady, hset.running⟩,
    hs.congr rfl rfl rfl rfl hs.counter_nonneg hs.counter_le, fun hz' => ?_⟩
  obtain ⟨hcan, htarget, hpos, hprecise, hi⟩ := hz hz'
  refine Or.inl ⟨htarget, hpos, hcan, ?_, ⟨hi.counter_le, fun hp c hc habove => hi.due hp c hc habove⟩⟩
  show Precise v.timer.overflowMask v.timer.target v.timer.clockrate
  rw [hset.mask, htarget]
  exact hprecise

end DobieStation.Timing.ZeroReturn
