import DobieStation.Timing.Boot

/-! # Clear on target

A timer whose control register asks for it returns to zero at its target. The function that clears it is called by
the event of the timer, and only if the compare interrupt is enabled too: without it the counter goes on to the
overflow (`not_clear_on_target`). In a run of careful steps a timer that is to return is never above its target for
more than eight cycles, and its event starts it again from zero (`clear_on_target`). -/

namespace DobieStation.Timing.ClearOnTarget

open DobieStation.Lib.Reach DobieStation.Timing.Model DobieStation.Timing.Events DobieStation.Timing.Counter
open DobieStation.Timing.Ownership DobieStation.Timing.Timeliness DobieStation.Timing.Reads
open DobieStation.Timing.Slots DobieStation.Timing.ZeroReturn DobieStation.Timing.Loop
open DobieStation.Timing.Registers DobieStation.Timing.LoopRuns DobieStation.Timing.Restart DobieStation.Timing.Boot

/-! ### What is promised -/

/-- A read of the timer now. -/
def Shows (s : Scheduler) (x : Which) (value : ℤ) : Prop := ∃ s', getTimerCounter s x.number = some (value, s')

/-- The next step of the pass runs the event of timer `x`, which runs and has reached its target. -/
structure Expires (m : Machine) (x : Which) : Prop where
  event : ∃ i newTime e, m.phase = .visiting i newTime ∧ m.sched.events[i]? = some e ∧
    e.timeToRun ≤ m.sched.closestEventTime ∧ e.funcId = m.sched.timerEventId ∧ e.param = x.number
  reached : ∀ t ∈ m.sched.timers[x.number]?, t.paused = false ∧ target m.components x ≤ valueAt t m.sched.eeCycles.count

/-- **Clear on target.** A timer that is to return to zero is not above its target, or has not been for more than
eight cycles; this is what a read sees, and at the target it restarts from zero. -/
structure Clears (m : Machine) (x : Which) : Prop where
  reads : ∃ t, m.sched.timers[x.number]? = some t ∧
    NotAbove t (target m.components x) m.sched.eeCycles.count ∧ Shows m.sched x (valueAt t m.sched.eeCycles.count)
  restarts : ∀ m', Expires m x → m.pass = some m' → Shows m'.sched x 0

/-! ### The steps that keep it -/

/-- The calls are careful, and a function that the pass runs hastens no event that the pass has kept. -/
def Careful (m : Machine) : Loop.Action → Prop
  | .call c => Call.Careful m.sched m.components c ∧ ∀ i newTime, m.phase = .inside i newTime →
      ∀ r ∈ c.exec m.sched m.components, ∀ e ∈ r.1.events.take i, newTime ≤ e.timeToRun
  | .advance => m.sched.eeCycles.count + maxCycles < 2 ^ 54
  | .pass => True

/-- The events that the pass has kept are due no earlier than the time that it has collected. -/
structure Collected (s : Scheduler) (i : ℕ) (newTime : ℤ) : Prop where
  max : newTime ≤ timestampMax
  kept : ∀ e ∈ s.events.take i, newTime ≤ e.timeToRun

def Place (s : Scheduler) : Phase → Prop
  | .between => True
  | .visiting i newTime => Collected s i newTime
  | .inside i newTime => Collected s i newTime ∧ ∃ e, s.events[i]? = some e ∧ e.funcId ≠ s.timerEventId

/-- **The invariant** of the loop. -/
structure Inv (m : Machine) : Prop where
  ready : Ready m.sched m.components
  place : Place m.sched m.phase

variable {s s' : Scheduler} {w w' : Components} {m m' : Machine} {x : Which} {v : Slot} {i : ℕ} {newTime : ℤ}

/-! ### A call -/

theorem call_ready {c : Call} (hr : Ready s w) (hc : Call.Careful s w c) (h : c.exec s w = some (s', w')) :
    Ready s' w' ∧ Grows s s' := by
  obtain ⟨⟨w₁, ops⟩, hreq, h⟩ := Option.bind_eq_some_iff.mp h
  obtain ⟨s₁, hs, heq⟩ := Option.map_eq_some_iff.mp h
  cases heq
  have hforeign : ∀ s₁ : Scheduler, s₁.timerEventId = s.timerEventId → ∀ o ∈ ops, Foreign s₁ o := by
    intro s₁ hs₁ o ho
    rcases request_ops hreq with hops | ⟨f, delta, param, rfl, rfl⟩
    · exact onTimer_foreign (hops o ho)
    · rw [List.mem_singleton] at ho
      subst ho
      show f ≠ s₁.timerEventId
      rw [hs₁]
      exact hc.1
  have hrange : ∀ o ∈ ops, InRange s.eeCycles o := by
    intro o ho
    rcases request_ops hreq with hops | ⟨f, delta, param, rfl, rfl⟩
    · exact onTimer_inRange (hops o ho)
    · rw [List.mem_singleton] at ho
      subst ho
      exact hc.2
  have hgrows := ops_grow ops hforeign hs
  obtain ⟨hbounded, hcycles⟩ := ops_bounded ops hr.bounded hrange hs
  obtain ⟨hset, hnumbered⟩ := setting_answer c s' (numbered_request hr.numbered hreq)
  refine ⟨⟨hr.owned.grows hgrows, hbounded, by rw [hcycles]; exact hr.clock, hnumbered,
    (grows_length hgrows).trans hr.length, fun x => ?_⟩, hgrows⟩
  obtain ⟨v, hv, hm⟩ := hr.slot x
  obtain ⟨v', hv', hhas⟩ := ops_slot ops hr.owned hforeign hs hv
  refine ⟨v', hhas, ?_⟩
  rw [hset, hcycles]
  exact call_matches ⟨hr.numbered, hv.timer, hr.clock, hm⟩ hc hreq hv'

/-! ### The clock -/

theorem matches_later {g : Setting} {now now' : ℤ} (h : Matches g now v) (hle : now ≤ now') : Matches g now' v := by
  have hs := h.sound
  exact ⟨h.set, ⟨hs.mask_nonneg, hs.mask_lt, hs.rate_pos, hs.rate_le, hs.rem_nonneg, hs.rem_lt, hs.last_nonneg,
    hs.last_le.trans hle, hs.counter_nonneg, hs.counter_le⟩, h.returns⟩

theorem advance_ready (hr : Ready s w) (hc : s.eeCycles.count + maxCycles < 2 ^ 54)
    (h : (calculateRunCycles s).map updateCycleCounts = some s') : Ready s' w := by
  have hbounded := advance_bounded hr.bounded h
  obtain ⟨s₁, h₁, rfl⟩ := Option.map_eq_some_iff.mp h
  have hrun : ∃ n : ℕ, (n : ℤ) ≤ maxCycles ∧ s₁ = { s with runCycles := n } := by
    unfold calculateRunCycles at h₁
    split_ifs at h₁ with hnil hfar
    · cases h₁
      exact ⟨maxCycles.toNat, by decide, rfl⟩
    · cases h₁
      refine ⟨_, ?_, rfl⟩
      have hmax : (0 : ℤ) ≤ maxCycles := by decide
      omega
  obtain ⟨n, hn, rfl⟩ := hrun
  have hsame : Grows s (updateCycleCounts { s with runCycles := n }) := grows_same rfl rfl rfl rfl rfl
  refine ⟨hr.owned.grows hsame, hbounded, ?_, hr.numbered, hr.length, fun x => ?_⟩
  · show s.eeCycles.count + (n : ℤ) < 2 ^ 54
    omega
  · obtain ⟨v, hv, hm⟩ := hr.slot x
    refine ⟨v, ⟨hv.timer, hv.event⟩, matches_later hm ?_⟩
    show s.eeCycles.count ≤ s.eeCycles.count + (n : ℤ)
    omega

/-! ### The pass -/

theorem pass_inv (h : Inv m) (hs : m.pass = some m') : Inv m' := by
  obtain ⟨s, w, phase⟩ := m
  obtain ⟨hr, hplace⟩ := h
  cases phase with
  | between =>
    simp only [Machine.pass] at hs
    split_ifs at hs
    · cases hs
      exact ⟨hr, (by decide : newTimeInit ≤ timestampMax), by simp⟩
    · cases hs
      exact ⟨hr, trivial⟩
  | visiting i newTime =>
    obtain ⟨hmax, hkept⟩ := hplace
    dsimp only at hr hkept
    cases he : s.events[i]? with
    | none =>
      simp only [Machine.pass, he] at hs
      cases hs
      rw [List.take_of_length_le (List.getElem?_eq_none_iff.mp he)] at hkept
      refine ⟨⟨hr.owned.grows (grows_same rfl rfl rfl rfl rfl), finish_bounded hr.bounded hkept hmax, hr.clock,
        hr.numbered, hr.length, fun x => ?_⟩, trivial⟩
      obtain ⟨v, hv, hm⟩ := hr.slot x
      exact ⟨v, ⟨hv.timer, hv.event⟩, hm⟩
    | some e =>
      simp only [Machine.pass, he] at hs
      split_ifs at hs with hdue hfunc
      · -- a timer
        obtain ⟨⟨s₁, w₁⟩, h₁, rfl⟩ := Option.map_eq_some_iff.mp hs
        obtain ⟨hready, htake, -, -⟩ := timerEvent_ready hr he hfunc h₁
        refine ⟨hready, hmax, ?_⟩
        show ∀ e ∈ (s₁.events.eraseIdx i).take i, newTime ≤ e.timeToRun
        rw [htake]
        exact hkept
      · -- a function of another component
        cases hs
        exact ⟨hr, ⟨hmax, hkept⟩, e, he, hfunc⟩
      · cases hs
        refine ⟨hr, (min_le_right _ _).trans hmax, fun e' he' => ?_⟩
        dsimp only at he'
        rw [List.take_add_one, he] at he'
        rcases List.mem_append.mp he' with he' | he'
        · exact (min_le_right _ _).trans (hkept e' he')
        · obtain rfl : e' = e := by simpa using he'
          exact min_le_left _ _
  | inside i newTime =>
    obtain ⟨⟨hmax, hkept⟩, e, he, hfunc⟩ := hplace
    dsimp only at hr hkept he hfunc
    cases hs
    refine ⟨⟨hr.owned.erase he hfunc, erase_bounded hr.bounded i, hr.clock, hr.numbered, hr.length, fun x => ?_⟩,
      hmax, ?_⟩
    · obtain ⟨v, hv, hm⟩ := hr.slot x
      exact ⟨v, erase_slot he hfunc hv, hm⟩
    · show ∀ e ∈ (s.events.eraseIdx i).take i, newTime ≤ e.timeToRun
      rw [List.take_eraseIdx_eq_take_of_le _ _ _ le_rfl]
      exact hkept

/-! ### All steps -/

theorem step_inv {a : Loop.Action} (h : Inv m) (hc : Careful m a) (hs : Loop.Step m a m') : Inv m' := by
  cases a with
  | pass => exact pass_inv h hs
  | advance =>
    obtain ⟨s, w, phase⟩ := m
    cases phase with
    | between =>
      obtain ⟨s₁, h₁, rfl⟩ := Option.map_eq_some_iff.mp hs
      exact ⟨advance_ready h.ready hc (Option.map_eq_some_iff.mpr ⟨s₁, h₁, rfl⟩), trivial⟩
    | visiting i newTime => cases hs
    | inside i newTime => cases hs
  | call c =>
    obtain ⟨s, w, phase⟩ := m
    cases phase with
    | between =>
      obtain ⟨⟨s₁, w₁⟩, h₁, rfl⟩ := Option.map_eq_some_iff.mp hs
      exact ⟨(call_ready h.ready hc.1 h₁).1, trivial⟩
    | visiting i newTime => cases hs
    | inside i newTime =>
      obtain ⟨⟨s₁, w₁⟩, h₁, rfl⟩ := Option.map_eq_some_iff.mp hs
      obtain ⟨hready, hgrows⟩ := call_ready h.ready hc.1 h₁
      obtain ⟨⟨hmax, -⟩, e, he, hfunc⟩ := h.place
      obtain ⟨e', he', hk⟩ := grows_event hgrows he
      simp only [Armed.key, Prod.mk.injEq] at hk
      refine ⟨hready, ⟨hmax, hc.2 i newTime rfl _ h₁⟩, e', he', ?_⟩
      rw [hk.2.2, hgrows.func]
      exact hfunc

/-! ### What follows -/

theorem shows_of_ready (hr : Ready s w) (x : Which) : ∃ t, s.timers[x.number]? = some t ∧
    Shows s x (valueAt t s.eeCycles.count) := by
  obtain ⟨v, hv, hm⟩ := hr.slot x
  refine ⟨v.timer, hv.timer, setTimer s x.number (readTimer v.timer s.eeCycles.count), ?_⟩
  rw [← readTimer_counter hm.sound hr.clock]
  exact readAt_eq hv.timer fun _ => hm.sound.fits hr.clock

theorem clears_of_inv (h : Inv m) (hz : zeroReturn m.components x = true) : Clears m x := by
  have hr := h.ready
  refine ⟨?_, fun m' hexpires hpass => ?_⟩
  · obtain ⟨t, ht, hshows⟩ := shows_of_ready hr x
    obtain ⟨v, hv, hm⟩ := hr.slot x
    obtain rfl := Option.some.inj (hv.timer.symm.trans ht)
    obtain ⟨e, he, -, hdue⟩ := hv.event
    refine ⟨v.timer, ht, hm.notAbove hz ?_, hshows⟩
    rw [← hdue]
    exact hr.bounded.not_late e he
  · have hready := (pass_inv h hpass).ready
    obtain ⟨t', ht', hshows⟩ := shows_of_ready hready x
    obtain ⟨⟨i, newTime, e, hphase, hi, hdue, hfunc, hparam⟩, hreached⟩ := hexpires
    simp only [Machine.pass, hphase, hi, if_pos hdue, if_pos hfunc] at hpass
    obtain ⟨⟨s₁, w₁⟩, h₁, rfl⟩ := Option.map_eq_some_iff.mp hpass
    obtain ⟨v, hv, -⟩ := hr.slot x
    obtain ⟨-, -, hcycles, hzero⟩ := timerEvent_ready hr hi hfunc h₁
    obtain ⟨hrun, hvalue⟩ := hreached v.timer hv.timer
    obtain ⟨t₁, ht₁, hvalue₁⟩ := hzero x hparam.symm hz v.timer hv.timer hrun hvalue
    obtain rfl := Option.some.inj (ht₁.symm.trans ht')
    have hnow : valueAt t₁ s₁.eeCycles.count = 0 := by rw [hcycles, hvalue₁]
    rw [← hnow]
    exact hshows

theorem reaches_inv (h : Reaches Loop.Init (Only Careful Loop.Step) m) : Inv m := by
  refine Reaches.invariant (I := Inv) (fun m₀ h₀ => ?_) (fun m₁ a m₂ h₁ hs => step_inv h₁ hs.1 hs.2) h
  obtain ⟨s₀, e, p, functions, hboot⟩ := h₀
  obtain ⟨hready, hphase⟩ := boot_ready hboot
  refine ⟨hready, ?_⟩
  rw [hphase]
  trivial

/-- **Clear on target** holds of every timer in every run of careful steps. -/
theorem clear_on_target (h : Reaches Loop.Init (Only Careful Loop.Step) m) (hz : zeroReturn m.components x = true) :
    Clears m x := clears_of_inv (reaches_inv h) hz

/-! ### Two programs -/

/-- The emulator before any reset: its contents play no part. -/
def blankIop : IOPTimers.IOPTiming :=
  ⟨fun _ => ⟨0, ⟨false, 0, false, false, false, false, false, false, false, 0, false, false, false⟩, 0⟩, fun _ => 0⟩

def booted : Option Machine := boot blank Deadline.blankTimers blankIop 5

/-- Timer 0 of the EE is given the target 100, and the bus clock: it is to return. -/
def writeTarget : Loop.Action := .call (.eeWrite 0x10000020 100)

def writeControl (compareInt : Bool) : Loop.Action := .call (.eeWrite 0x10000010 (if compareInt then 0x1C0 else 0xC0))

/-- The theorem at the timer with its compare interrupt, 32 cycles later. -/
theorem clear_on_target_enabled : ∃ m, zeroReturn m.components (.ee 0) = true ∧ target m.components (.ee 0) = 100 ∧
    m.sched.eeCycles.count = 32 ∧ Clears m (.ee 0) := by
  have hrun : (booted.bind fun m₀ => (writeTarget.exec m₀).bind fun m₁ => ((writeControl true).exec m₁).bind fun m₂ =>
      (Loop.Action.advance.exec m₂).map fun m₃ =>
        (zeroReturn m₀.components (.ee 0), decide (m₀.phase = .between ∧ m₁.phase = .between ∧
          (∀ t ∈ m₁.sched.timers[6]?, valueAt t m₁.sched.eeCycles.count < target m₁.components (.ee 0)) ∧
          m₂.sched.eeCycles.count + maxCycles < 2 ^ 54), zeroReturn m₃.components (.ee 0),
          target m₃.components (.ee 0), m₃.sched.eeCycles.count)) = some (false, true, true, 100, 32) := by
    decide
  simp only [Option.bind_eq_some_iff, Option.map_eq_some_iff, Prod.mk.injEq, decide_eq_true_eq] at hrun
  obtain ⟨m₀, h₀, m₁, h₁, m₂, h₂, m₃, h₃, hzero, ⟨hphase₀, hphase₁, hbelow, hclock⟩, hz, htarget, hcount⟩ := hrun
  have hreach₀ : Reaches Loop.Init (Only Careful Loop.Step) m₀ := .start ⟨_, _, _, _, h₀⟩
  have hreach₁ := hreach₀.next (show Only Careful Loop.Step m₀ writeTarget m₁ from
    ⟨⟨fun hz => absurd (hzero.symm.trans hz) (by decide),
      fun i newTime hphase => by rw [hphase₀] at hphase; cases hphase⟩, h₁⟩)
  have hreach₂ := hreach₁.next (show Only Careful Loop.Step m₁ (writeControl true) m₂ from
    ⟨⟨fun _ => ⟨by decide, hbelow⟩, fun i newTime hphase => by rw [hphase₁] at hphase; cases hphase⟩, h₂⟩)
  have hreach₃ := hreach₂.next (show Only Careful Loop.Step m₂ .advance m₃ from ⟨hclock, h₃⟩)
  exact ⟨m₃, hz, htarget, hcount, clear_on_target hreach₃ hz⟩

/-- The timer without its compare interrupt: the event at its target, at cycle 200, leaves it at 100, and at cycle 232
it shows 116. -/
theorem not_clear_on_target : (∃ m, Reaches Loop.Init Loop.Step m ∧ zeroReturn m.components (.ee 0) = true ∧
      target m.components (.ee 0) = 100 ∧ m.sched.eeCycles.count = 232 ∧ Shows m.sched (.ee 0) 116) ∧
    ¬ ∀ m, Reaches Loop.Init Loop.Step m → ∀ x, zeroReturn m.components x = true → Clears m x := by
  have hrun : (booted.bind fun m₀ => (writeTarget :: writeControl false :: (List.replicate 7 .advance ++
      List.replicate 13 .pass ++ [.advance])).foldlM Loop.Action.exec m₀).bind (fun m =>
        (getTimerCounter m.sched 6).bind fun r => (m.sched.timers[6]?).map fun t =>
          (zeroReturn m.components (.ee 0), target m.components (.ee 0), m.sched.eeCycles.count, r.1, t.lastUpdate,
            valueAt t 223)) = some (true, 100, 232, 116, 200, 111) := by decide
  simp only [Option.bind_eq_some_iff, Option.map_eq_some_iff, Prod.mk.injEq] at hrun
  obtain ⟨m, ⟨m₀, h₀, hm⟩, ⟨c, s'⟩, hread, t, ht, hz, htarget, hcount, rfl, hlast, hvalue⟩ := hrun
  have hreach : Reaches Loop.Init Loop.Step m := Reaches.exec _ (.start ⟨_, _, _, _, h₀⟩) hm
  refine ⟨⟨m, hreach, hz, htarget, hcount, s', hread⟩, fun hall => ?_⟩
  obtain ⟨t', ht', habove, -⟩ := (hall m hreach (.ee 0) hz).reads
  obtain rfl := Option.some.inj (ht.symm.trans ht')
  have hle := habove.value_le 223 (by omega) (by omega)
  rw [hvalue, htarget] at hle
  exact absurd hle (by decide)

end DobieStation.Timing.ClearOnTarget
