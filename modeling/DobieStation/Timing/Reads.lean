import DobieStation.Timing.Counter

/-! # Reads of a timer

A read brings the counter of a running timer up to date. Whatever was read before, the last read leaves what it
would have left alone, and no clock is lost (`reads_transparent`), unless a word wraps (`Counter.Fits`). A timer
that is paused counts nothing. -/

namespace DobieStation.Timing.Reads

open DobieStation.Lib.Accumulator DobieStation.Timing.Model DobieStation.Timing.Counter

/-- A call of `get_timer_counter` at the EE cycle `now`. -/
def readAt (s : Scheduler) (id : ℕ) (now : ℤ) : Option (ℤ × Scheduler) :=
  getTimerCounter { s with eeCycles.count := now } id

/-- Reads at some cycles, and the one at `now`. -/
def reads (s : Scheduler) (id : ℕ) (times : List ℤ) (now : ℤ) : Option (ℤ × Scheduler) := do
  let s ← times.foldlM (fun s time => (readAt s id time).map Prod.snd) s
  readAt s id now

/-- The clocks that a timer has counted, in 8-bit fixed point. -/
def clocks (t : SchedulerTimer) : ℤ := t.counter * clockScale t + t.remainderClocks

/-- What a read leaves of the timer. -/
def readTimer (t : SchedulerTimer) (now : ℤ) : SchedulerTimer := if t.paused then t else advanceCounter t now

variable {s : Scheduler} {id : ℕ} {t : SchedulerTimer} {a now : ℤ}

/-! ### The timer -/

theorem fits_mono (h : Fits t now) (hlast : t.lastUpdate ≤ a) (ha : a ≤ now) : Fits t a := by
  have hclocks := h.clocks_lt
  have hcounter := h.counter_lt
  have hticks := ticks_mono (r := t.remainderClocks) h.scale_pos
    (show (a - t.lastUpdate) * 2 ^ 8 ≤ (now - t.lastUpdate) * 2 ^ 8 by omega)
  refine ⟨h.scale_pos, h.rem_nonneg, hlast, by omega, h.counter_ge, ?_⟩
  unfold counterAt at hcounter ⊢
  omega

theorem advanceCounter_scale (h : Fits t a) : clockScale (advanceCounter t a) = clockScale t := by
  rw [h.advanceCounter_eq]
  rfl

theorem advanceCounter_paused (h : Fits t a) : (advanceCounter t a).paused = t.paused := by
  rw [h.advanceCounter_eq]

/-- The clocks up to `now` in two parts. -/
theorem elapsed_add (t : SchedulerTimer) (a now : ℤ) :
    (a - t.lastUpdate) * 2 ^ 8 + (now - a) * 2 ^ 8 = (now - t.lastUpdate) * 2 ^ 8 := by ring

theorem fits_advanceCounter (h : Fits t now) (hlast : t.lastUpdate ≤ a) (ha : a ≤ now) :
    Fits (advanceCounter t a) now := by
  have hfits := fits_mono h hlast ha
  have hticks := ticks_nonneg hfits.scale_pos hfits.rem_nonneg (show 0 ≤ (a - t.lastUpdate) * 2 ^ 8 by omega)
  have hrest := rest_le hfits.scale_pos hfits.rem_nonneg (show 0 ≤ (a - t.lastUpdate) * 2 ^ 8 by omega)
  have hclocks := h.clocks_lt
  have hcounter := h.counter_ge
  have hlt := h.counter_lt
  rw [← hfits.counterAt_advance] at hlt
  rw [hfits.advanceCounter_eq] at hlt ⊢
  refine ⟨h.scale_pos, rest_nonneg h.scale_pos, ha, ?_, ?_, hlt⟩
  · change rest (clockScale t) t.remainderClocks ((a - t.lastUpdate) * 2 ^ 8) + (now - a) * 2 ^ 8 < 2 ^ 63
    omega
  · change -2 ^ 63 ≤ t.counter + ticks (clockScale t) t.remainderClocks ((a - t.lastUpdate) * 2 ^ 8)
    omega

/-- A read before the last one is not seen. -/
theorem advanceCounter_advanceCounter (h : Fits t now) (hlast : t.lastUpdate ≤ a) (ha : a ≤ now) :
    advanceCounter (advanceCounter t a) now = advanceCounter t now := by
  have hfits := fits_mono h hlast ha
  rw [(fits_advanceCounter h hlast ha).advanceCounter_eq, h.advanceCounter_eq, hfits.counterAt_advance,
    advanceCounter_scale hfits, hfits.advanceCounter_eq]
  dsimp only
  rw [rest_add, elapsed_add]

theorem clocks_advanceCounter (h : Fits t now) :
    clocks (advanceCounter t now) = clocks t + (now - t.lastUpdate) * 2 ^ 8 := by
  have hsum := ticks_mul_add_rest (S := clockScale t) (r := t.remainderClocks) (a := (now - t.lastUpdate) * 2 ^ 8)
  rw [clocks, clocks, advanceCounter_scale h, h.advanceCounter_eq]
  dsimp only [counterAt]
  rw [add_mul, add_assoc, hsum, add_assoc]

theorem readTimer_paused (hfits : t.paused = false → Fits t a) : (readTimer t a).paused = t.paused := by
  unfold readTimer
  split
  · rfl
  · exact advanceCounter_paused (hfits (by simp_all))

theorem readTimer_readTimer (hfits : t.paused = false → Fits t now) (hlast : t.lastUpdate ≤ a) (ha : a ≤ now) :
    readTimer (readTimer t a) now = readTimer t now := by
  cases hp : t.paused with
  | true => simp [readTimer, hp]
  | false =>
    have hpaused := advanceCounter_paused (fits_mono (hfits hp) hlast ha)
    simp only [readTimer, hp, Bool.false_eq_true, if_false, hpaused]
    exact advanceCounter_advanceCounter (hfits hp) hlast ha

/-! ### The scheduler -/

theorem readAt_eq (ht : s.timers[id]? = some t) (hfits : t.paused = false → Fits t now) :
    readAt s id now =
      some ((readTimer t now).counter, setTimer { s with eeCycles.count := now } id (readTimer t now)) := by
  obtain ⟨hid, hget⟩ := List.getElem?_eq_some_iff.mp ht
  have hself : s.timers.set id t = s.timers := by rw [← hget, List.set_getElem_self]
  unfold readAt getTimerCounter
  dsimp only
  rw [ht]
  cases hp : t.paused with
  | true =>
    simp [readTimer, hp, setTimer, hself, ht]
  | false =>
    have hscale := (hfits hp).scale_pos
    have hrate : ¬ (t.clockrate = 0 ∨ clockScale t = 0) := by
      rintro (hzero | hzero)
      · rw [clockScale, hzero] at hscale
        exact absurd hscale (by decide)
      · omega
    simp [readTimer, hp, setTimer, updateTimerCounter, ht, hrate, List.getElem?_set_self hid]

theorem reads_cons (s : Scheduler) (id : ℕ) (a : ℤ) (times : List ℤ) (now : ℤ) :
    reads s id (a :: times) now = ((readAt s id a).map Prod.snd).bind fun s => reads s id times now := by
  unfold reads
  rw [List.foldlM_cons]
  exact Option.bind_assoc ..

theorem readTimer_last (hfits : t.paused = false → Fits t a) (hlast : t.lastUpdate ≤ a) :
    (readTimer t a).lastUpdate ≤ a := by
  unfold readTimer
  split
  · exact hlast
  · rw [(hfits (by simp_all)).advanceCounter_eq]

theorem fits_readTimer (hfits : t.paused = false → Fits t now) (hlast : t.lastUpdate ≤ a) (ha : a ≤ now) :
    (readTimer t a).paused = false → Fits (readTimer t a) now := by
  intro hp
  rw [readTimer_paused fun h => fits_mono (hfits h) hlast ha] at hp
  simp only [readTimer, hp, Bool.false_eq_true, if_false]
  exact fits_advanceCounter (hfits hp) hlast ha

/-- The reads before the last one are not seen. -/
theorem reads_eq : ∀ (times : List ℤ) {s : Scheduler} {t : SchedulerTimer}, s.timers[id]? = some t →
    (t.paused = false → Fits t now) → (t.lastUpdate :: (times ++ [now])).Pairwise (· ≤ ·) →
    reads s id times now = readAt s id now
  | [], _, _, _, _, _ => rfl
  | a :: times, s, t, ht, hfits, hsorted => by
    obtain ⟨hid, -⟩ := List.getElem?_eq_some_iff.mp ht
    obtain ⟨hlast, hrest⟩ := List.pairwise_cons.mp hsorted
    obtain ⟨hafter, hrest⟩ := List.pairwise_cons.mp hrest
    have hla : t.lastUpdate ≤ a := hlast a List.mem_cons_self
    have han : a ≤ now := hafter now (by simp)
    have hfits' : t.paused = false → Fits t a := fun h => fits_mono (hfits h) hla han
    have hread : (setTimer { s with eeCycles.count := a } id (readTimer t a)).timers[id]? = some (readTimer t a) :=
      List.getElem?_set_self hid
    have hnext := fits_readTimer hfits hla han
    have hsorted' : ((readTimer t a).lastUpdate :: (times ++ [now])).Pairwise (· ≤ ·) :=
      List.pairwise_cons.mpr ⟨fun x hx => (readTimer_last hfits' hla).trans (hafter x hx), hrest⟩
    rw [reads_cons, readAt_eq ht hfits', Option.map_some, Option.bind_some, reads_eq times hread hnext hsorted',
      readAt_eq hread hnext, readAt_eq ht hfits, readTimer_readTimer hfits hla han]
    simp [setTimer]

theorem clocks_readTimer (hfits : t.paused = false → Fits t now) :
    clocks (readTimer t now) = clocks t + if t.paused then 0 else (now - t.lastUpdate) * 2 ^ 8 := by
  cases hp : t.paused with
  | true => simp [readTimer, hp]
  | false => simp [readTimer, hp, clocks_advanceCounter (hfits hp)]

/-- The reads end as the last one alone does. A running timer has counted 256 clocks a cycle, a paused one none. -/
theorem reads_transparent (ht : s.timers[id]? = some t) {times : List ℤ}
    (hsorted : (t.lastUpdate :: (times ++ [now])).Pairwise (· ≤ ·)) (hfits : t.paused = false → Fits t now) :
    ∃ s' t', reads s id times now = some (t'.counter, s') ∧ reads s id [] now = some (t'.counter, s') ∧
      s'.timers[id]? = some t' ∧ clockScale t' = clockScale t ∧
      clocks t' = clocks t + if t.paused then 0 else (now - t.lastUpdate) * 2 ^ 8 := by
  obtain ⟨hid, -⟩ := List.getElem?_eq_some_iff.mp ht
  have hread := readAt_eq ht hfits
  have hscale : clockScale (readTimer t now) = clockScale t := by
    unfold readTimer
    split
    · rfl
    · exact advanceCounter_scale (hfits (by simp_all))
  exact ⟨_, readTimer t now, (reads_eq times ht hfits hsorted).trans hread, hread, List.getElem?_set_self hid, hscale,
    clocks_readTimer hfits⟩

/-- A scheduler at the cycle 0 with one timer at the EE clock rate. -/
def single (paused : Bool) : Scheduler where
  eeCycles := ⟨0, 0⟩
  busCycles := ⟨0, 0⟩
  iopCycles := ⟨0, 0⟩
  runCycles := 0
  nextEventId := 1
  timerEventId := 0
  registeredFuncs := 1
  timerCallbacks := 1
  timers := [⟨0, 0, 0, timestampMax, 0xFFFF, eeClockrate, 0, 0, 0, paused, false, false⟩]
  events := []
  closestEventTime := timestampMax

theorem reads_transparent_single : ∃ s' t', reads (single false) 0 [3, 5] 100 = some (t'.counter, s') ∧
    reads (single false) 0 [] 100 = some (t'.counter, s') ∧ clocks t' = 25600 := by
  have hfits : Fits ⟨0, 0, 0, timestampMax, 0xFFFF, eeClockrate, 0, 0, 0, false, false, false⟩ 100 :=
    ⟨by decide, by decide, by decide, by decide, by decide, by decide⟩
  have ht : (single false).timers[0]? =
      some ⟨0, 0, 0, timestampMax, 0xFFFF, eeClockrate, 0, 0, 0, false, false, false⟩ := rfl
  have hsorted : ((0 : ℤ) :: ([3, 5] ++ [100])).Pairwise (· ≤ ·) := by decide
  obtain ⟨s', t', hreads, hread, -, -, hclocks⟩ := reads_transparent ht hsorted fun _ => hfits
  exact ⟨s', t', hreads, hread, hclocks⟩

/-- A paused timer counts nothing; and in 2^56 cycles, read once, the clocks of a running one are lost. -/
theorem not_reads_transparent :
    ¬ (∀ (s : Scheduler) (t : SchedulerTimer) (now : ℤ), s.timers[0]? = some t → t.lastUpdate ≤ now →
      ∃ s' t', reads s 0 [] now = some (t'.counter, s') ∧ s'.timers[0]? = some t' ∧
        clocks t' = clocks t + (now - t.lastUpdate) * 2 ^ 8) ∧
    ¬ (∀ (s : Scheduler) (t : SchedulerTimer) (times : List ℤ) (now : ℤ), s.timers[0]? = some t →
      (t.lastUpdate :: (times ++ [now])).Pairwise (· ≤ ·) → reads s 0 times now = reads s 0 [] now) := by
  constructor
  · intro h
    obtain ⟨s', t', hread, ht', hclocks⟩ := h (single true) _ 100 rfl (by decide)
    have hpaused : reads (single true) 0 [] 100 = some (0, { single true with eeCycles.count := 100 }) := rfl
    obtain ⟨-, rfl⟩ := Prod.mk.inj (Option.some.inj (hpaused.symm.trans hread))
    obtain rfl := Option.some.inj ht'
    exact absurd hclocks (by decide)
  · intro h
    have hread := h (single false) _ [2 ^ 54, 2 * 2 ^ 54, 3 * 2 ^ 54] (2 ^ 56) rfl (by decide)
    exact absurd (congrArg (Option.map Prod.fst) hread) (by decide)

end DobieStation.Timing.Reads
