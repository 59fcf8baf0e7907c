import DobieStation.Lib.Accumulator
import DobieStation.Timing.Events

/-! # When a timer is due

A timer that runs freely has at the EE cycle `c` the counter `counterAt t c`; `update_timer_counter`
only moves the point from which this is reckoned (`counterAt_advance`). Its event is `DueInTime`
when it comes at most eight cycles after every cycle at which the target or the overflow is reached, and
`Armed` when moreover the counter is at most nine past the overflow mask by then.

`calculate_timer_event_delta` arms a timer (`armed_of_delta`) whose counter has been brought up to
date and is not past the overflow, and whose clock rate is close enough to a whole number of
256ths of an EE cycle per tick (`drift` in `Ranged`). -/

namespace DobieStation.Timing.Counter

open DobieStation.Lib.Accumulator DobieStation.Timing.Model
open DobieStation.Timing.Events (int64_of_range)

/-! ### The counter of a running timer -/

/-- The counter of a running timer at the EE cycle `c`. -/
def counterAt (t : SchedulerTimer) (c : ℤ) : ℤ :=
  t.counter + ticks (clockScale t) t.remainderClocks ((c - t.lastUpdate) * 2 ^ 8)

/-- The counter of a timer at the EE cycle `c`. -/
def valueAt (t : SchedulerTimer) (c : ℤ) : ℤ := if t.paused then t.counter else counterAt t c

/-- By the cycle `c` the timer has reached its target, which was above the counter, or it has passed
its overflow mask. -/
def Reached (t : SchedulerTimer) (c : ℤ) : Prop :=
  (t.counter < t.target ∧ t.target ≤ counterAt t c) ∨ t.overflowMask < counterAt t c

instance (t : SchedulerTimer) (c : ℤ) : Decidable (Reached t c) :=
  inferInstanceAs (Decidable (_ ∨ _))

/-- **The due time is in time**, up to the minimum of eight cycles. -/
def DueInTime (t : SchedulerTimer) (time : ℤ) : Prop :=
  ∀ c, t.lastUpdate ≤ c → Reached t c → time ≤ c + 8

/-- In time, and not so late that the counter is more than nine past the mask. -/
structure Armed (t : SchedulerTimer) (time : ℤ) : Prop where
  due : DueInTime t time
  overrun : counterAt t time ≤ t.overflowMask + 9

/-- A clock rate within that of the EE, so close to a whole number of 256ths of an EE cycle a tick
that over the whole range of the counter it loses at most eight cycles. -/
def RateOk (overflowMask clockrate : ℤ) : Prop :=
  0 < clockrate ∧ clockrate ≤ eeClockrate ∧
    (overflowMask + 1) * ((2 ^ 8 * eeClockrate : ℤ) % clockrate) ≤ 8 * 2 ^ 8 * clockrate

instance (m c : ℤ) : Decidable (RateOk m c) := inferInstanceAs (Decidable (_ ∧ _ ∧ _))

/-- What the fields of a timer are, paused or not, at the EE cycle `now`. -/
structure Ranged (t : SchedulerTimer) (now : ℤ) : Prop where
  mask_ge : 7 ≤ t.overflowMask
  mask_lt : t.overflowMask < 2 ^ 32
  rate : RateOk t.overflowMask t.clockrate
  rem_nonneg : 0 ≤ t.remainderClocks
  rem_lt : t.remainderClocks < clockScale t
  last_nonneg : 0 ≤ t.lastUpdate
  last_le : t.lastUpdate ≤ now
  counter_nonneg : 0 ≤ t.counter
  counter_le : t.counter ≤ 2 ^ 33 + t.lastUpdate

/-- What holds of a timer whatever its target and its rate. -/
structure Sound (t : SchedulerTimer) (now : ℤ) : Prop where
  mask_nonneg : 0 ≤ t.overflowMask
  mask_lt : t.overflowMask < 2 ^ 32
  rate_pos : 0 < t.clockrate
  rate_le : t.clockrate ≤ eeClockrate
  rem_nonneg : 0 ≤ t.remainderClocks
  rem_lt : t.remainderClocks < clockScale t
  last_nonneg : 0 ≤ t.lastUpdate
  last_le : t.lastUpdate ≤ now
  counter_nonneg : 0 ≤ t.counter
  counter_le : t.counter ≤ 2 ^ 33 + t.lastUpdate

theorem Ranged.sound {t : SchedulerTimer} {now : ℤ} (h : Ranged t now) : Sound t now :=
  have hmask := h.mask_ge
  ⟨by omega, h.mask_lt, h.rate.1, h.rate.2.1, h.rem_nonneg, h.rem_lt, h.last_nonneg, h.last_le,
    h.counter_nonneg, h.counter_le⟩

/-! ### Words that do not wrap -/

theorem uint64_of_range {x : ℤ} (h1 : 0 ≤ x) (h2 : x < 2 ^ 64) : uint64 x = x :=
  Int.emod_eq_of_lt h1 h2

section

variable {t : SchedulerTimer} {now c : ℤ}

theorem Sound.uint64_rate (h : Sound t now) : uint64 t.clockrate = t.clockrate := by
  have h1 := h.rate_le
  unfold eeClockrate at h1
  exact uint64_of_range h.rate_pos.le (by omega)

theorem clockScale_eq (h0 : 0 < t.clockrate) (h1 : t.clockrate ≤ eeClockrate) :
    clockScale t = 2 ^ 8 * eeClockrate / t.clockrate := by
  have h2 := h1
  unfold eeClockrate at h2
  unfold clockScale
  rw [uint64_of_range h0.le (by omega), Nat.cast_mul, mul_comm]
  rfl

theorem le_clockScale (h0 : 0 < t.clockrate) (h1 : t.clockrate ≤ eeClockrate) : 2 ^ 8 ≤ clockScale t := by
  rw [clockScale_eq h0 h1]
  exact (Int.le_ediv_iff_mul_le h0).mpr (mul_le_mul_of_nonneg_left h1 (by decide))

theorem Sound.scale_eq (h : Sound t now) : clockScale t = 2 ^ 8 * eeClockrate / t.clockrate :=
  clockScale_eq h.rate_pos h.rate_le

theorem Sound.le_scale (h : Sound t now) : 2 ^ 8 ≤ clockScale t := le_clockScale h.rate_pos h.rate_le

theorem Sound.scale_le (h : Sound t now) : clockScale t ≤ 2 ^ 8 * eeClockrate := by
  rw [h.scale_eq]
  exact Int.ediv_le_self _ (by decide)

theorem Sound.scale_pos (h : Sound t now) : 0 < clockScale t := by
  have := h.le_scale
  omega

/-! ### Bringing the counter up to date -/

theorem counterAt_mono (h : Sound t now) {c c' : ℤ} (hc : c ≤ c') :
    counterAt t c ≤ counterAt t c' := by
  have := ticks_mono (r := t.remainderClocks) h.scale_pos
    (show (c - t.lastUpdate) * 2 ^ 8 ≤ (c' - t.lastUpdate) * 2 ^ 8 by omega)
  unfold counterAt
  omega

theorem counterAt_last (h : Sound t now) : counterAt t t.lastUpdate = t.counter := by
  have := ticks_zero h.rem_nonneg h.rem_lt
  simp [counterAt, this]

theorem counter_le_counterAt (h : Sound t now) (hc : t.lastUpdate ≤ c) :
    t.counter ≤ counterAt t c := by
  have := counterAt_mono h hc
  rwa [counterAt_last h] at this

theorem counterAt_le (h : Sound t now) (hc : t.lastUpdate ≤ c) :
    counterAt t c ≤ t.counter + (c - t.lastUpdate) := by
  have := ticks_le h.le_scale (by decide) h.rem_lt (n := c - t.lastUpdate) (by omega)
  unfold counterAt
  omega

/-- No word wraps when the counter is brought up to date. -/
structure Fits (t : SchedulerTimer) (now : ℤ) : Prop where
  scale_pos : 0 < clockScale t
  rem_nonneg : 0 ≤ t.remainderClocks
  last_le : t.lastUpdate ≤ now
  clocks_lt : t.remainderClocks + (now - t.lastUpdate) * 2 ^ 8 < 2 ^ 63
  counter_ge : -2 ^ 63 ≤ t.counter
  counter_lt : counterAt t now < 2 ^ 63

/-- **`update_timer_counter`**, with no word wrapping: the ticks are added and the rest is kept. -/
theorem Fits.advanceCounter_eq (h : Fits t now) :
    advanceCounter t now =
      { t with
        lastUpdate := now
        remainderClocks := rest (clockScale t) t.remainderClocks ((now - t.lastUpdate) * 2 ^ 8)
        counter := counterAt t now } := by
  have hS := h.scale_pos
  have h1 := h.last_le
  have h3 := h.rem_nonneg
  have h4 := h.clocks_lt
  have h5 := h.counter_ge
  have h6 := h.counter_lt
  have hdelta : int64 ((now - t.lastUpdate) * 2 ^ 8) = (now - t.lastUpdate) * 2 ^ 8 :=
    int64_of_range (by omega) (by omega)
  have hu : uint64 ((now - t.lastUpdate) * 2 ^ 8) = (now - t.lastUpdate) * 2 ^ 8 :=
    uint64_of_range (by omega) (by omega)
  have hcounter : counterAt t now =
      t.counter + ticks (clockScale t) t.remainderClocks ((now - t.lastUpdate) * 2 ^ 8) := rfl
  have hticks := ticks_nonneg hS h3 (show 0 ≤ (now - t.lastUpdate) * 2 ^ 8 by omega)
  have hd0 : 0 ≤ (now - t.lastUpdate) * 2 ^ 8 := by omega
  generalize hd : (now - t.lastUpdate) * 2 ^ 8 = d at *
  have hdm := Int.emod_lt_of_pos d hS
  have hdn := Int.emod_nonneg d hS.ne'
  have hcarry : 0 ≤ (t.remainderClocks + d % clockScale t) / clockScale t :=
    Int.ediv_nonneg (by omega) hS.le
  have hcarry' : (t.remainderClocks + d % clockScale t) / clockScale t ≤
      t.remainderClocks + d % clockScale t := Int.ediv_le_self _ (by omega)
  have hq : 0 ≤ d / clockScale t := Int.ediv_nonneg (by omega) hS.le
  have hq' : d / clockScale t ≤ d := Int.ediv_le_self _ (by omega)
  have hdle : d % clockScale t ≤ d := by
    have hsplit := Int.emod_add_mul_ediv d (clockScale t)
    have := mul_nonneg hS.le hq
    omega
  have hrem : int64 (t.remainderClocks + d % clockScale t) = t.remainderClocks + d % clockScale t :=
    int64_of_range (by omega) (by omega)
  have hurem : uint64 (t.remainderClocks + d % clockScale t) =
      t.remainderClocks + d % clockScale t := uint64_of_range (by omega) (by omega)
  have hcar : int64 ((t.remainderClocks + d % clockScale t) / clockScale t) =
      (t.remainderClocks + d % clockScale t) / clockScale t :=
    int64_of_range (by omega) (by omega)
  have htick : int64 (d / clockScale t) = d / clockScale t := int64_of_range (by omega) (by omega)
  have hsum : counterAt t now = t.counter +
      (d / clockScale t + (t.remainderClocks + d % clockScale t) / clockScale t) := by
    rw [hcounter, ticks_eq_carry hS]
  have hcount : int64 (counterAt t now) = counterAt t now := int64_of_range (by omega) (by omega)
  have hrest : rest (clockScale t) t.remainderClocks d =
      (t.remainderClocks + d % clockScale t) % clockScale t := rest_eq_carry
  unfold advanceCounter
  simp only [hd, hdelta, hu, hrem, hurem, hcar, htick]
  split_ifs with hpos
  · rw [← hsum, hcount, hrest]
  · -- no carry: the rest is what was held and what is left over
    have hzero : (t.remainderClocks + d % clockScale t) / clockScale t = 0 := by omega
    have hlt : t.remainderClocks + d % clockScale t < clockScale t := by
      by_contra hge
      have : 1 ≤ (t.remainderClocks + d % clockScale t) / clockScale t :=
        (Int.le_ediv_iff_mul_le hS).mpr (by omega)
      omega
    rw [hzero, add_zero] at hsum
    rw [← hsum, hcount, hrest, Int.emod_eq_of_lt (by omega) hlt]

/-- The counter is the same before and after it is brought up to date. -/
theorem Fits.counterAt_advance (h : Fits t now) (c : ℤ) :
    counterAt (advanceCounter t now) c = counterAt t c := by
  have hadd := ticks_add (r := t.remainderClocks) h.scale_pos (a := (now - t.lastUpdate) * 2 ^ 8)
    (b := (c - now) * 2 ^ 8)
  have hsum : (now - t.lastUpdate) * 2 ^ 8 + (c - now) * 2 ^ 8 = (c - t.lastUpdate) * 2 ^ 8 := by
    ring
  rw [hsum] at hadd
  rw [h.advanceCounter_eq]
  unfold counterAt
  rw [hadd, ← add_assoc]
  rfl

theorem Sound.fits (h : Sound t now) (hnow : now < 2 ^ 54) : Fits t now := by
  have hS' := h.scale_le
  have h1 := h.last_le
  have h2 := h.last_nonneg
  have h4 := h.rem_lt
  have h5 := counterAt_le h h.last_le
  have h7 := h.counter_nonneg
  have h8 := h.counter_le
  unfold eeClockrate at hS'
  exact ⟨h.scale_pos, h.rem_nonneg, h1, by omega, by omega, by omega⟩

theorem advanceCounter_eq (h : Sound t now) (hnow : now < 2 ^ 54) :
    advanceCounter t now =
      { t with
        lastUpdate := now
        remainderClocks := rest (clockScale t) t.remainderClocks ((now - t.lastUpdate) * 2 ^ 8)
        counter := counterAt t now } := (h.fits hnow).advanceCounter_eq

theorem advance_sound (h : Sound t now) (hnow : now < 2 ^ 54) : Sound (advanceCounter t now) now := by
  have h1 := h.last_le
  have h2 := h.last_nonneg
  have h5 := counterAt_le h h.last_le
  have h6 := counter_le_counterAt h h.last_le
  have h7 := h.counter_nonneg
  have h8 := h.counter_le
  rw [advanceCounter_eq h hnow]
  exact ⟨h.mask_nonneg, h.mask_lt, h.rate_pos, h.rate_le, rest_nonneg h.scale_pos, rest_lt h.scale_pos,
    h2.trans h1, le_rfl, h7.trans h6, (by omega : counterAt t now ≤ 2 ^ 33 + now)⟩

theorem clockScale_congr {t t' : SchedulerTimer} (h : t'.clockrate = t.clockrate) :
    clockScale t' = clockScale t := by unfold clockScale; rw [h]

/-- The fields that `Sound` reads, apart from the counter, are the same. -/
theorem Sound.congr {t' : SchedulerTimer} (h : Sound t now)
    (hm : t'.overflowMask = t.overflowMask) (hc : t'.clockrate = t.clockrate)
    (hr : t'.remainderClocks = t.remainderClocks) (hl : t'.lastUpdate = t.lastUpdate)
    (h0 : 0 ≤ t'.counter) (h1 : t'.counter ≤ 2 ^ 33 + t'.lastUpdate) : Sound t' now :=
  ⟨hm ▸ h.mask_nonneg, hm ▸ h.mask_lt, hc ▸ h.rate_pos, hc ▸ h.rate_le, hr ▸ h.rem_nonneg,
    by rw [hr, clockScale_congr hc]; exact h.rem_lt, hl ▸ h.last_nonneg, hl ▸ h.last_le, h0, h1⟩

/-- The fields that `Ranged` reads, apart from the counter, are the same. -/
theorem Ranged.congr {t' : SchedulerTimer} (h : Ranged t now)
    (hm : t'.overflowMask = t.overflowMask) (hc : t'.clockrate = t.clockrate)
    (hr : t'.remainderClocks = t.remainderClocks) (hl : t'.lastUpdate = t.lastUpdate)
    (h0 : 0 ≤ t'.counter) (h1 : t'.counter ≤ 2 ^ 33 + t'.lastUpdate) : Ranged t' now :=
  ⟨hm ▸ h.mask_ge, hm ▸ h.mask_lt, by rw [hm, hc]; exact h.rate, hr ▸ h.rem_nonneg,
    by rw [hr, clockScale_congr hc]; exact h.rem_lt, hl ▸ h.last_nonneg, hl ▸ h.last_le, h0, h1⟩

theorem advance_ranged (h : Ranged t now) (hnow : now < 2 ^ 54) :
    Ranged (advanceCounter t now) now := by
  have hs := advance_sound h.sound hnow
  have hcongr : (advanceCounter t now).overflowMask = t.overflowMask ∧
      (advanceCounter t now).clockrate = t.clockrate := by
    rw [advanceCounter_eq h.sound hnow]
    exact ⟨rfl, rfl⟩
  refine ⟨hcongr.1 ▸ h.mask_ge, hs.mask_lt, ?_, hs.rem_nonneg, hs.rem_lt, hs.last_nonneg, hs.last_le,
    hs.counter_nonneg, hs.counter_le⟩
  rw [hcongr.1, hcongr.2]
  exact h.rate

theorem advance_armed (h : Ranged t now) (hnow : now < 2 ^ 54) {time : ℤ} (ha : Armed t time) :
    Armed (advanceCounter t now) time := by
  have hat := (h.sound.fits hnow).counterAt_advance
  have hlast : (advanceCounter t now).lastUpdate = now := by rw [advanceCounter_eq h.sound hnow]
  have hle : t.counter ≤ (advanceCounter t now).counter := by
    rw [advanceCounter_eq h.sound hnow]; exact counter_le_counterAt h.sound h.last_le
  have hfix : (advanceCounter t now).target = t.target ∧
      (advanceCounter t now).overflowMask = t.overflowMask := by
    rw [advanceCounter_eq h.sound hnow]; exact ⟨rfl, rfl⟩
  refine ⟨fun c hc hr => ha.due c ?_ ?_, ?_⟩
  · have := h.last_le
    omega
  · unfold Reached at hr ⊢
    rw [hat, hfix.1, hfix.2] at hr
    rcases hr with ⟨h1, h2⟩ | h2
    · exact Or.inl ⟨by omega, h2⟩
    · exact Or.inr h2
  · rw [hat, hfix.2]; exact ha.overrun

/-! ### Arming -/

/-- The wait for `x` ticks that `calculate_timer_event_delta` reckons with. -/
def wait (t : SchedulerTimer) (x : ℤ) : ℤ :=
  x * eeClockrate / t.clockrate - t.remainderClocks / 2 ^ 8

theorem wait_of_words (h : Sound t now) {x : ℤ} (h0 : 0 ≤ x) (h1 : x ≤ 2 ^ 32) :
    int64 (convertToEeCycles (uint64 x) (uint64 t.clockrate) - t.remainderClocks / 2 ^ 8) =
      wait t x := by
  have hr0 := h.rem_nonneg
  have hr1 := h.rem_lt
  have hS := h.scale_le
  have hpos := h.rate_pos
  have hle : x * eeClockrate / t.clockrate ≤ x * eeClockrate := Int.ediv_le_self _ (by
    unfold eeClockrate; omega)
  have hge : 0 ≤ x * eeClockrate / t.clockrate := Int.ediv_nonneg (by
    unfold eeClockrate; omega) hpos.le
  have hx : (x * eeClockrate : ℤ) ≤ 2 ^ 32 * eeClockrate :=
    mul_le_mul_of_nonneg_right h1 (by decide)
  have hx0 : (0 : ℤ) ≤ x * eeClockrate := mul_nonneg h0 (by decide)
  have hE : (2 : ℤ) ^ 32 * eeClockrate < 2 ^ 62 := by decide
  unfold eeClockrate at hS
  rw [convertToEeCycles, h.uint64_rate, uint64_of_range h0 (by omega),
    uint64_of_range hx0 (by omega)]
  exact int64_of_range (by omega) (by omega)

/-- The rounding of `x` ticks, no more than the range of the counter. -/
theorem drift_le (h : Ranged t now) {x : ℤ} (hx : x ≤ t.overflowMask + 1) :
    x * ((2 ^ 8 * eeClockrate : ℤ) % t.clockrate) ≤ 8 * 2 ^ 8 * t.clockrate :=
  (mul_le_mul_of_nonneg_right hx (Int.emod_nonneg _ h.rate.1.ne')).trans h.rate.2.2

/-- A wait is over in time. -/
theorem wait_in_time (h : Ranged t now) {x : ℤ} (hx : x ≤ t.overflowMask + 1)
    (hc : t.counter + x ≤ counterAt t c) : wait t x ≤ (c - t.lastUpdate) + 8 := by
  unfold counterAt at hc
  exact wait_le h.rate.1 (by decide) h.sound.scale_eq h.sound.scale_pos (drift_le h hx)
    (by omega)

/-- Within the wait for the overflow the counter does not get far past the mask. -/
theorem wait_overrun (h : Ranged t now) {d : ℤ}
    (hd : d ≤ max (wait t (t.overflowMask + 1 - t.counter)) 8)
    (hmask : t.counter ≤ t.overflowMask + 1) :
    counterAt t (t.lastUpdate + d) ≤ t.overflowMask + 9 := by
  have hc0 := h.counter_nonneg
  have hw : ticks (clockScale t) t.remainderClocks (d * 2 ^ 8) ≤
      t.overflowMask + 1 - t.counter + 8 := by
    rcases le_max_iff.mp hd with hd | hd
    · exact ticks_wait_le h.rate.1 (by decide) h.sound.le_scale h.sound.scale_eq
        (by decide) (drift_le h (by omega)) hd
    · have h8 := ticks_mono (r := t.remainderClocks) h.sound.scale_pos
        (show d * 2 ^ 8 ≤ 8 * 2 ^ 8 by omega)
      have := ticks_le h.sound.le_scale (by decide) h.rem_lt (n := 8) (by decide)
      omega
  unfold counterAt
  rw [add_sub_cancel_left]
  omega

/-- The wait for a target above the counter is cut to the range of the counter. -/
theorem delta_of_target (h : Sound t now) (hp : t.paused = false) (hlt : t.counter < t.target) {d : ℤ}
    (hd : calculateTimerEventDelta t = some d) :
    ∃ x, 0 ≤ x ∧ x ≤ t.overflowMask ∧ x ≤ t.target - t.counter ∧ d ≤ max (wait t x) 8 := by
  have hm1 := h.mask_nonneg
  have hm2 := h.mask_lt
  have hr := h.rate_pos
  unfold calculateTimerEventDelta at hd
  rw [hp, if_neg Bool.false_ne_true, if_neg hr.ne', if_neg (by omega)] at hd
  generalize hx : (t.target - t.counter).natAbs &&& (uint64 t.overflowMask).toNat = x at hd
  have hx1 : x ≤ (t.target - t.counter).natAbs := hx ▸ Nat.and_le_left
  have hx2 : x ≤ (uint64 t.overflowMask).toNat := hx ▸ Nat.and_le_right
  rw [uint64_of_range hm1 (by omega)] at hx2
  have htarget := wait_of_words h (x := x) (by omega) (by omega)
  rw [uint64_of_range (by omega) (by omega)] at htarget
  dsimp only at hd
  rw [htarget] at hd
  obtain rfl := Option.some.inj hd
  exact ⟨x, by omega, by omega, by omega, by omega⟩

/-- The event comes no later than the overflow asks for. -/
theorem delta_of_overflow (h : Sound t now) (hp : t.paused = false) (hmask : t.counter ≤ t.overflowMask + 1) {d : ℤ}
    (hd : calculateTimerEventDelta t = some d) : d ≤ max (wait t (t.overflowMask + 1 - t.counter)) 8 := by
  have hm2 := h.mask_lt
  have hc0 := h.counter_nonneg
  have hr := h.rate_pos
  have hover := wait_of_words h (x := t.overflowMask + 1 - t.counter) (by omega) (by omega)
  unfold calculateTimerEventDelta at hd
  rw [hp, hover, if_neg Bool.false_ne_true, if_neg hr.ne'] at hd
  dsimp only at hd
  split_ifs at hd
  · exact (Option.some.inj hd).ge
  · obtain rfl := Option.some.inj hd
    omega

/-- **`calculate_timer_event_delta` arms a running timer** whose counter is up to date and not past
the overflow. -/
theorem armed_of_delta (h : Ranged t t.lastUpdate) (hp : t.paused = false)
    (hmask : t.counter ≤ t.overflowMask + 1) {d : ℤ} (hd : calculateTimerEventDelta t = some d) :
    Armed t (t.lastUpdate + d) := by
  have hover := delta_of_overflow h.sound hp hmask hd
  have hc0 := h.counter_nonneg
  refine ⟨fun c hc hr => ?_, wait_overrun h hover hmask⟩
  rcases hr with ⟨h1, h2⟩ | h2
  · obtain ⟨x, -, hx1, hx2, hx3⟩ := delta_of_target h.sound hp h1 hd
    have := wait_in_time h (x := x) (by omega) (c := c) (by omega)
    omega
  · have := wait_in_time h (x := t.overflowMask + 1 - t.counter) (by omega) (c := c) (by omega)
    omega

end

end DobieStation.Timing.Counter
