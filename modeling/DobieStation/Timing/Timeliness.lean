import DobieStation.Lib.Reach
import DobieStation.Timing.Events
import Mathlib.Data.List.InsertIdx

/-! # No event is run late

`process_events` goes once through the list, runs what is due and collects in `new_time` the
smallest due time of what it keeps; `closest_event_time` is overwritten by it at the end. The
functions it runs may re-arm an event the pass has already kept, and that due time is then missing
from `new_time`: `late_after_rearm` is such a run. Everything else keeps the bound, so it holds in
every run in which no function moves an event the pass has kept to before the time collected so
far, and in which no due time overflows (`timely`). -/

namespace DobieStation.Timing.Timeliness

open DobieStation.Lib.Reach DobieStation.Timing.Model DobieStation.Timing.Events

/-! ### One operation -/

/-- The due time the operation gives a new event does not overflow: `add_event` is given a delta
that fits, `create_timer` is called before the clock has started. -/
def InRange (now : CycleCount) : Op → Prop
  | .addEvent _ delta _ => now.count + delta < 2 ^ 63
  | .createTimer _ _ _ => now.count = 0
  | _ => True

theorem createTimer_moves {s s' : Scheduler} {c : ℤ} {m p n : ℕ} (hb : Bounded s)
    (hr : s.eeCycles.count = 0) (h : createTimer s c m p = some (n, s')) : Moves s s' := by
  unfold createTimer at h
  split_ifs at h
  simp only [Option.bind_eq_bind, Option.bind_eq_some_iff, Option.pure_def, Option.some.injEq,
    Prod.mk.injEq] at h
  obtain ⟨⟨n', s1⟩, h1, -, rfl⟩ := h
  have hm := addEvent_moves hb (by rw [hr]; decide) h1
  exact ⟨hm.events, hm.closest_le, hm.next_le, hm.eeCycles⟩

theorem op_moves {s s' : Scheduler} {o : Op} (hb : Bounded s) (hr : InRange s.eeCycles o)
    (h : o.apply s = some s') : Moves s s' := by
  cases o with
  | addEvent f d p =>
    obtain ⟨⟨n, s1⟩, h1, rfl⟩ := Option.map_eq_some_iff.mp h
    exact addEvent_moves hb hr h1
  | createTimer c m p =>
    obtain ⟨⟨n, s1⟩, h1, rfl⟩ := Option.map_eq_some_iff.mp h
    exact createTimer_moves hb hr h1
  | getTimerCounter id =>
    obtain ⟨⟨c, s1⟩, h1, rfl⟩ := Option.map_eq_some_iff.mp h
    exact getTimerCounter_moves h1
  | setTimerCounter id v => exact setTimerField_moves hb h
  | setTimerTarget id v => exact setTimerField_moves hb h
  | setTimerClockrate id v => exact setTimerField_moves hb h
  | setTimerPause id p => exact setTimerPause_moves hb h
  | setTimerIntMask id o t =>
    simp only [Op.apply, setTimerIntMask, Option.bind_eq_bind, Option.bind_eq_some_iff,
      Option.pure_def, Option.some.injEq] at h
    obtain ⟨t, -, rfl⟩ := h
    exact moves_of_events_eq rfl rfl rfl rfl
  | registerFunction => cases h; exact moves_of_events_eq rfl rfl rfl rfl
  | registerTimerCallback => cases h; exact moves_of_events_eq rfl rfl rfl rfl

/-! ### The functions run by the pass -/

section Pass

variable {E : Type} {call : Callback E} {Ok : CycleCount → E → Prop}

/-- The functions of the other components keep the bound and leave the clock alone, as long as the
world meets `Ok`, and it goes on to meet it. -/
def Respects (call : Callback E) (Ok : CycleCount → E → Prop) : Prop :=
  ∀ s env s' env', Bounded s → Ok s.eeCycles env → call s env = some (s', env') →
    Bounded s' ∧ s'.eeCycles = s.eeCycles ∧ Ok s'.eeCycles env'

theorem timerEvent_bounded (hcall : Respects call Ok) {s s' : Scheduler} {i : ℕ} {env env' : E}
    (hb : Bounded s) (ho : Ok s.eeCycles env) (h : timerEvent call s i env = some (s', env')) :
    Bounded s' ∧ s'.eeCycles = s.eeCycles ∧ Ok s'.eeCycles env' := by
  simp only [timerEvent, Option.bind_eq_bind, Option.bind_eq_some_iff, Option.pure_def,
    Option.some.injEq, Prod.mk.injEq] at h
  obtain ⟨t, -, ⟨v, s1⟩, h1, t1, -, ⟨s2, env2⟩, h2, t2, -, ⟨s4, env4⟩, h4, s5, h5, rfl, rfl⟩ := h
  have m1 := getTimerCounter_moves h1
  have k1 : Bounded s1 ∧ s1.eeCycles = s.eeCycles ∧ Ok s1.eeCycles env :=
    ⟨m1.bounded hb, m1.eeCycles, by rw [m1.eeCycles]; exact ho⟩
  have k2 : Bounded s2 ∧ s2.eeCycles = s.eeCycles ∧ Ok s2.eeCycles env2 := by
    split_ifs at h2
    · obtain ⟨hb2, he2, ho2⟩ := hcall _ _ _ _ k1.1 k1.2.2 h2
      exact ⟨hb2, he2.trans k1.2.1, ho2⟩
    · cases h2; exact k1
  have m3 : Moves s2 (setTimer s2 i
      { t2 with counter := int64 (t2.counter - (t2.overflowMask + 1)) }) :=
    moves_of_events_eq rfl rfl rfl rfl
  have k4 : Bounded s4 ∧ s4.eeCycles = s.eeCycles ∧ Ok s4.eeCycles env4 := by
    split_ifs at h4
    · obtain ⟨hb4, he4, ho4⟩ := hcall _ _ _ _ (m3.bounded k2.1) k2.2.2 h4
      exact ⟨hb4, he4.trans k2.2.1, ho4⟩
    · cases h4; exact ⟨m3.bounded k2.1, k2.2⟩
    · cases h4; exact k2
  have m5 := restartTimer_moves k4.1 h5
  exact ⟨m5.bounded k4.1, m5.eeCycles.trans k4.2.1, by rw [m5.eeCycles]; exact k4.2.2⟩

theorem runFunc_bounded (hcall : Respects call Ok) {s s' : Scheduler} {e : SchedulerEvent}
    {env env' : E} (hb : Bounded s) (ho : Ok s.eeCycles env)
    (h : runFunc call s e env = some (s', env')) :
    Bounded s' ∧ s'.eeCycles = s.eeCycles ∧ Ok s'.eeCycles env' := by
  unfold runFunc at h
  split_ifs at h
  · exact timerEvent_bounded hcall hb ho h
  · exact hcall _ _ _ _ hb ho h

/-! ### The pass over the list -/

/-- No function run in the pass leaves an event the pass has kept due before all those the pass has
kept were. -/
def NoneHastened (visits : List Visit) : Prop :=
  ∀ v ∈ visits, ∀ e ∈ v.after, ∃ e₀ ∈ v.before, e₀.timeToRun ≤ e.timeToRun

theorem erase_bounded {s : Scheduler} (hb : Bounded s) (i : ℕ) :
    Bounded { s with events := s.events.eraseIdx i } :=
  ⟨fun e he => hb.closest_le e (List.mem_of_mem_eraseIdx he), hb.closest_max,
    fun e he => hb.not_late e (List.mem_of_mem_eraseIdx he),
    fun e he => hb.id_lt e (List.mem_of_mem_eraseIdx he), hb.count_nonneg, hb.count_max⟩

/-- Ending the pass: the collected time becomes the bound. -/
theorem finish_bounded {s : Scheduler} (hb : Bounded s) {newTime : ℤ}
    (hn : ∀ e ∈ s.events, newTime ≤ e.timeToRun) (hmax : newTime ≤ timestampMax) :
    Bounded { s with closestEventTime := newTime } :=
  ⟨hn, hmax, hb.not_late, hb.id_lt, hb.count_nonneg, hb.count_max⟩

/-- The step of the pass that runs an event. -/
theorem processLoop_run {fuel i : ℕ} {newTime : ℤ} {s : Scheduler} {env : E}
    {e : SchedulerEvent} {r : Processed E} (he : s.events[i]? = some e)
    (hdue : e.timeToRun ≤ s.closestEventTime)
    (h : processLoop call (fuel + 1) i newTime s env = some r) :
    ∃ s1 env1 r1, runFunc call s e env = some (s1, env1) ∧
      processLoop call fuel i newTime { s1 with events := s1.events.eraseIdx i } env1 = some r1 ∧
      r = { r1 with visits := ⟨e, s.events.take i, s1.events.take i⟩ :: r1.visits } := by
  rw [processLoop, he] at h
  simp only [if_pos hdue, Option.bind_eq_bind, Option.bind_eq_some_iff, Option.pure_def,
    Option.some.injEq] at h
  obtain ⟨⟨s1, env1⟩, h1, r1, h3, rfl⟩ := h
  exact ⟨s1, env1, r1, h1, h3, rfl⟩

/-- The step of the pass that keeps an event. -/
theorem processLoop_keep {fuel i : ℕ} {newTime : ℤ} {s : Scheduler} {env : E}
    {e : SchedulerEvent} (he : s.events[i]? = some e) (hdue : ¬ e.timeToRun ≤ s.closestEventTime) :
    processLoop call (fuel + 1) i newTime s env =
      processLoop call fuel (i + 1) (min e.timeToRun newTime) s env := by
  rw [processLoop, he]; exact if_neg hdue

/-- The end of the pass. -/
theorem processLoop_end {fuel i : ℕ} {newTime : ℤ} {s : Scheduler} {env : E}
    (he : s.events[i]? = none) : processLoop call (fuel + 1) i newTime s env =
      some ⟨{ s with closestEventTime := newTime }, env, []⟩ := by
  rw [processLoop, he]

/-- The events run by the pass are due no earlier than the clock. -/
theorem processLoop_on_time (hcall : Respects call Ok) : ∀ (fuel i : ℕ) (newTime : ℤ)
    (s : Scheduler) (env : E) {r : Processed E}, Bounded s → Ok s.eeCycles env →
    processLoop call fuel i newTime s env = some r →
    ∀ v ∈ r.visits, s.eeCycles.count ≤ v.ran.timeToRun
  | 0, _, _, _, _, _, _, _, h => by simp [processLoop] at h
  | fuel + 1, i, newTime, s, env, r, hb, ho, h => by
    cases he : s.events[i]? with
    | none => rw [processLoop_end he] at h; cases h; simp
    | some e =>
      by_cases hdue : e.timeToRun ≤ s.closestEventTime
      · obtain ⟨s1, env1, r1, h1, h3, rfl⟩ := processLoop_run he hdue h
        obtain ⟨hb1, he1, ho1⟩ := runFunc_bounded hcall hb ho h1
        have ih := processLoop_on_time hcall fuel i newTime _ env1 (erase_bounded hb1 i) ho1 h3
        intro v hv
        rcases List.mem_cons.mp hv with rfl | hv
        · exact hb.not_late e (List.mem_of_getElem? he)
        · have := ih v hv
          rwa [show ({ s1 with events := s1.events.eraseIdx i } : Scheduler).eeCycles = s.eeCycles
            from he1] at this
      · rw [processLoop_keep he hdue] at h
        exact processLoop_on_time hcall fuel (i + 1) _ s env hb ho h

/-- **The pass keeps the bound**, if the events before the `i`-th are due no earlier than the time
collected and no function hastens one of them. -/
theorem processLoop_bounded (hcall : Respects call Ok) : ∀ (fuel i : ℕ) (newTime : ℤ)
    (s : Scheduler) (env : E) {r : Processed E}, Bounded s → Ok s.eeCycles env →
    newTime ≤ timestampMax → (∀ e ∈ s.events.take i, newTime ≤ e.timeToRun) →
    processLoop call fuel i newTime s env = some r → NoneHastened r.visits → Bounded r.sched
  | 0, _, _, _, _, _, _, _, _, _, h, _ => by simp [processLoop] at h
  | fuel + 1, i, newTime, s, env, r, hb, ho, hmax, hk, h, hv => by
    cases he : s.events[i]? with
    | none =>
      rw [processLoop_end he] at h
      cases h
      rw [List.take_of_length_le (List.getElem?_eq_none_iff.mp he)] at hk
      exact finish_bounded hb hk hmax
    | some e =>
      by_cases hdue : e.timeToRun ≤ s.closestEventTime
      · obtain ⟨s1, env1, r1, h1, h3, rfl⟩ := processLoop_run he hdue h
        obtain ⟨hb1, -, ho1⟩ := runFunc_bounded hcall hb ho h1
        show Bounded r1.sched
        refine processLoop_bounded hcall fuel i newTime _ env1 (erase_bounded hb1 i) ho1 hmax ?_ h3
          (fun v hv' => hv v (List.mem_cons_of_mem _ hv'))
        show ∀ e ∈ (s1.events.eraseIdx i).take i, newTime ≤ e.timeToRun
        rw [List.take_eraseIdx_eq_take_of_le _ _ _ le_rfl]
        intro e1 he1
        obtain ⟨e0, he0, hle⟩ := hv _ List.mem_cons_self e1 he1
        exact (hk e0 he0).trans hle
      · rw [processLoop_keep he hdue] at h
        refine processLoop_bounded hcall fuel (i + 1) _ s env hb ho
          ((min_le_right _ _).trans hmax) ?_ h hv
        intro e' he'
        rw [List.take_add_one, he] at he'
        rcases List.mem_append.mp he' with he' | he'
        · exact (min_le_right _ _).trans (hk e' he')
        · obtain rfl : e' = e := by simpa using he'
          exact min_le_left _ _

theorem processEvents_bounded (hcall : Respects call Ok) {fuel : ℕ} {s : Scheduler} {env : E}
    {r : Processed E} (hb : Bounded s) (ho : Ok s.eeCycles env)
    (h : processEvents call fuel s env = some r) (hv : NoneHastened r.visits) :
    Bounded r.sched := by
  unfold processEvents at h
  split_ifs at h
  · exact processLoop_bounded hcall fuel 0 newTimeInit s env hb ho (by decide) (by simp) h hv
  · cases h; exact hb

theorem processEvents_on_time (hcall : Respects call Ok) {fuel : ℕ} {s : Scheduler} {env : E}
    {r : Processed E} (hb : Bounded s) (ho : Ok s.eeCycles env)
    (h : processEvents call fuel s env = some r) :
    ∀ v ∈ r.visits, s.eeCycles.count ≤ v.ran.timeToRun := by
  unfold processEvents at h
  split_ifs at h
  · exact processLoop_on_time hcall fuel 0 newTimeInit s env hb ho h
  · cases h; simp

end Pass

/-! ### Scripts -/

/-- The operations of a script are all in range. -/
def ScriptInRange (now : CycleCount) (script : Script) : Prop :=
  ∀ ops ∈ script, ∀ o ∈ ops, InRange now o

theorem ops_bounded : ∀ (ops : List Op) {s s' : Scheduler}, Bounded s →
    (∀ o ∈ ops, InRange s.eeCycles o) → ops.foldlM Op.apply s = some s' →
    Bounded s' ∧ s'.eeCycles = s.eeCycles
  | [], s, s', hb, _, h => by cases h; exact ⟨hb, rfl⟩
  | o :: ops, s, s', hb, hr, h => by
    simp only [List.foldlM_cons, Option.bind_eq_bind, Option.bind_eq_some_iff] at h
    obtain ⟨s1, h1, h2⟩ := h
    have hm := op_moves hb (hr o (by simp)) h1
    have ih := ops_bounded ops (hm.bounded hb)
      (fun o' ho' => by rw [hm.eeCycles]; exact hr o' (by simp [ho'])) h2
    exact ⟨ih.1, ih.2.trans hm.eeCycles⟩

theorem scripted_respects : Respects scripted ScriptInRange := by
  intro s c s' c' hb hr h
  cases c with
  | nil => cases h; exact ⟨hb, rfl, hr⟩
  | cons ops rest =>
    simp only [scripted, Option.map_eq_some_iff, Prod.mk.injEq] at h
    obtain ⟨s1, h1, rfl, rfl⟩ := h
    obtain ⟨hb1, he1⟩ := ops_bounded ops hb (hr ops (by simp)) h1
    exact ⟨hb1, he1, by rw [he1]; exact fun x hx => hr x (by simp [hx])⟩

/-! ### Runs -/

/-- `calculate_run_cycles` never takes the clock past the bound. -/
theorem advance_bounded {s s' : Scheduler} (hb : Bounded s)
    (h : (calculateRunCycles s).map updateCycleCounts = some s') : Bounded s' := by
  obtain ⟨s1, h1, rfl⟩ := Option.map_eq_some_iff.mp h
  have hcl := hb.closest_max
  have h0 := hb.count_nonneg
  have hmx := hb.count_max
  unfold calculateRunCycles at h1
  split_ifs at h1 with hnil hfar
  · cases h1
    refine ⟨hb.closest_le, hb.closest_max, fun e he => ?_, hb.id_lt, ?_, ?_⟩
    · have := hb.closest_le e he
      simp only [updateCycleCounts, maxCycles] at *; omega
    · simp only [updateCycleCounts, maxCycles]; omega
    · simp only [updateCycleCounts, maxCycles] at *; omega
  · cases h1
    refine ⟨hb.closest_le, hb.closest_max, fun e he => ?_, hb.id_lt, ?_, ?_⟩
    · have := hb.closest_le e he
      have := hb.not_late e he
      simp only [updateCycleCounts, maxCycles] at *; omega
    · simp only [updateCycleCounts]; omega
    · simp only [updateCycleCounts, maxCycles] at *; omega

theorem init_bounded {s : Scheduler} (h : Init s) : Bounded s := by
  obtain ⟨s₀, rfl⟩ := h
  constructor <;> simp [reset, registerFunction, timestampMax]

/-- The steps that keep the bound: the calls are in range, and the functions `process_events` runs
hasten no event the pass has kept. -/
def Orderly (s : Scheduler) : Action → Prop
  | .op o => InRange s.eeCycles o
  | .advance => True
  | .process fuel script => ScriptInRange s.eeCycles script ∧
      ∀ r, processEvents scripted fuel s script = some r → NoneHastened r.visits

theorem step_bounded {s s' : Scheduler} {a : Action} (hb : Bounded s) (ho : Orderly s a)
    (h : Step s a s') : Bounded s' := by
  cases a with
  | op o => exact (op_moves hb ho h).bounded hb
  | advance => exact advance_bounded hb h
  | process fuel script =>
    obtain ⟨r, hp, rfl⟩ := Option.map_eq_some_iff.mp h
    exact processEvents_bounded scripted_respects hb ho.1 hp (ho.2 r hp)

theorem reaches_bounded {s : Scheduler} (h : Reaches Init (Only Orderly Step) s) : Bounded s :=
  h.invariant (fun _ => init_bounded) fun _ _ _ hb hs => step_bounded hb hs.1 hs.2

/-- What the loop of the emulator relies on when it calls `process_events`: on return the bound is
at most every due time, and no event was run after its due time. -/
def Timely (s : Scheduler) (fuel : ℕ) (script : Script) : Prop :=
  ∀ r, processEvents scripted fuel s script = some r →
    (∀ e ∈ r.sched.events, r.sched.closestEventTime ≤ e.timeToRun) ∧
      ∀ v ∈ r.visits, s.eeCycles.count ≤ v.ran.timeToRun

/-- **Timeliness.** In every run of orderly steps `process_events` leaves `closestEventTime` at most
the due time of every pending event and runs no event after its due time; between the calls the
bound holds too. -/
theorem timely {s : Scheduler} (h : Reaches Init (Only Orderly Step) s) :
    (∀ e ∈ s.events, s.closestEventTime ≤ e.timeToRun) ∧
      ∀ fuel script, Orderly s (.process fuel script) → Timely s fuel script :=
  have hb := reaches_bounded h
  ⟨hb.closest_le, fun _ _ ho r hp =>
    ⟨(processEvents_bounded scripted_respects hb ho.1 hp (ho.2 r hp)).closest_le,
      processEvents_on_time scripted_respects hb ho.1 hp⟩⟩

/-- The state before any reset: its contents play no part. -/
def blank : Scheduler :=
  ⟨⟨0, 0⟩, ⟨0, 0⟩, ⟨0, 0⟩, 0, 0, 0, 0, 0, [], [], 0⟩

/-- The theorem at the state in which one event, due at 10, is about to be run. -/
theorem timely_one_event : ∃ s, s.eeCycles.count = 10 ∧ s.events.length = 1 ∧
    (∀ e ∈ s.events, s.closestEventTime ≤ e.timeToRun) ∧ Timely s 2 [] := by
  have h0 : Reaches Init (Only Orderly Step) (reset blank) := .start ⟨blank, rfl⟩
  have h1 := h0.next (show Only Orderly Step _ (.op .registerFunction) _ from ⟨trivial, rfl⟩)
  have h2 := h1.next (show Only Orderly Step _ (.op (.addEvent 1 10 0)) _ from
    ⟨(by decide : (0 : ℤ) + 10 < 2 ^ 63), rfl⟩)
  have h3 := h2.next (show Only Orderly Step _ .advance _ from ⟨trivial, rfl⟩)
  refine ⟨_, ?_, ?_, (timely h3).1, (timely h3).2 2 [] ⟨by simp [ScriptInRange], ?_⟩⟩
  · rfl
  · rfl
  · rintro r hr
    cases hr
    simp [NoneHastened]

/-! ### A function that hastens a kept event -/

/-- Timer 0 at the bus clock, its counter past its target, so that it is due at the overflow, in
200 cycles; then a function due in 10 cycles, as `vblank_start` is. -/
def setup : List Action :=
  [.op .registerTimerCallback, .op .registerFunction, .op (.createTimer 0 0xFFFF 0),
    .op (.setTimerPause 0 false), .op (.setTimerClockrate 0 busClockrate),
    .op (.setTimerTarget 0 10), .op (.setTimerCounter 0 65436), .op (.addEvent 1 10 0), .advance]

/-- The function resets the counter, as `EmotionTiming::gate` does: the timer is due at its target,
in 20 cycles. -/
def resetCounter : Script := [[.setTimerCounter 0 0]]

/-- After `setup` and the pass, the clock goes on to the bound. -/
def wait : List Action := setup ++ .process 3 resetCounter :: List.replicate 6 .advance

/-- After `setup`, the pass leaves the timer due at 30 and the bound at 200; when the clock has gone
on to the bound, the event due at 30 is run at 200. -/
theorem late_after_rearm :
    (∃ s r, Reaches Init Step s ∧ processEvents scripted 3 s resetCounter = some r ∧
      r.sched.events.map (·.timeToRun) = [30] ∧ r.sched.closestEventTime = 200) ∧
    (∃ s r, Reaches Init Step s ∧ processEvents scripted 3 s [] = some r ∧
      r.visits.map (·.ran.timeToRun) = [30] ∧ s.eeCycles.count = 200) ∧
    ¬ ∀ s, Reaches Init Step s → ∀ fuel script, Timely s fuel script := by
  have hfirst : ∃ s r, Reaches Init Step s ∧ processEvents scripted 3 s resetCounter = some r ∧
      r.sched.events.map (·.timeToRun) = [30] ∧ r.sched.closestEventTime = 200 := by
    have h : ((setup.foldlM Action.exec (reset blank)).bind fun s =>
        (processEvents scripted 3 s resetCounter).map fun r =>
          (r.sched.events.map (·.timeToRun), r.sched.closestEventTime)) = some ([30], 200) := by
      decide
    simp only [Option.bind_eq_some_iff, Option.map_eq_some_iff, Prod.mk.injEq] at h
    obtain ⟨s, hs, r, hp, he, hc⟩ := h
    exact ⟨s, r, (Reaches.start ⟨blank, rfl⟩).exec setup hs, hp, he, hc⟩
  refine ⟨hfirst, ?_, fun hall => ?_⟩
  · have h : ((wait.foldlM Action.exec (reset blank)).bind fun s =>
        (processEvents scripted 3 s []).map fun r =>
          (r.visits.map (·.ran.timeToRun), s.eeCycles.count)) = some ([30], 200) := by decide
    simp only [Option.bind_eq_some_iff, Option.map_eq_some_iff, Prod.mk.injEq] at h
    obtain ⟨s, hs, r, hp, hr, hc⟩ := h
    exact ⟨s, r, (Reaches.start ⟨blank, rfl⟩).exec wait hs, hp, hr, hc⟩
  · obtain ⟨s, r, hr, hp, he, hc⟩ := hfirst
    obtain ⟨e, hmem, htime⟩ : ∃ e ∈ r.sched.events, e.timeToRun = 30 :=
      List.mem_map.mp (he ▸ List.mem_singleton_self 30)
    have := (hall s hr 3 resetCounter r hp).1 e hmem
    omega

end DobieStation.Timing.Timeliness
