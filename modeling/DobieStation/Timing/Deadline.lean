import DobieStation.Timing.Operations
import DobieStation.Timing.EETimers
import DobieStation.Timing.Timeliness

/-! # A running timer is due in time unless it was un-paused and not re-armed since

The run is followed with the list of the events that an un-pause has left parked: `tracked` runs
the functions of the other components as `scripted` does, as long as the operations fit, and keeps
the list. `timerEvent_armed` carries the invariant over the firing of a timer, `processLoop_armed`
over the pass, and in every state of such a run the event of a running timer is due in time exactly
if it is not in the list (`due_in_time_iff`). -/

namespace DobieStation.Timing.Deadline

open DobieStation.Lib.Reach DobieStation.Timing.Model DobieStation.Timing.Events
open DobieStation.Timing.Timeliness DobieStation.Timing.Counter DobieStation.Timing.Armed
open DobieStation.Timing.Operations

variable {s s' : Scheduler} {stale : List ℕ}

/-! ### The functions of the other components, with the list of the stale events -/

/-- `scripted` on operations that fit, keeping the list. -/
def trackedOps : List Op → Scheduler → List ℕ → Option (Scheduler × List ℕ)
  | [], s, l => some (s, l)
  | o :: ops, s, l =>
    if Fits s o then (o.apply s).bind fun s1 => trackedOps ops s1 (stale' s l o) else none

def tracked : Callback (Script × List ℕ)
  | s, ([], l) => some (s, ([], l))
  | s, (ops :: script, l) => (trackedOps ops s l).map fun r => (r.1, (script, r.2))

theorem trackedOps_inv : ∀ (ops : List Op) {s s' : Scheduler} {l l' : List ℕ}, AllArmed s l →
    trackedOps ops s l = some (s', l') → AllArmed s' l' ∧ Follows s s'
  | [], s, s', l, l', h, ht => by
    cases ht
    exact ⟨h, Follows.refl _⟩
  | o :: ops, s, s', l, l', h, ht => by
    rw [trackedOps] at ht
    split_ifs at ht with hfit
    obtain ⟨s1, h1, h2⟩ := Option.bind_eq_some_iff.mp ht
    obtain ⟨hi, hf⟩ := trackedOps_inv ops (op_inv h hfit h1) h2
    exact ⟨hi, (op_follows h hfit h1).trans hf⟩

section Pass

variable {E : Type} {call : Callback E} {list : E → List ℕ}

/-- The functions of the other components keep every running timer armed. -/
def KeepsArmed (call : Callback E) (list : E → List ℕ) : Prop :=
  ∀ s env s' env', AllArmed s (list env) → call s env = some (s', env') →
    AllArmed s' (list env') ∧ Follows s s'

/-! ### Removing an event -/

theorem mem_eraseIdx_of_ne {l : List SchedulerEvent} {i : ℕ} {e e' : SchedulerEvent}
    (hi : l[i]? = some e) (he : e' ∈ l) (hne : e'.eventId ≠ e.eventId) : e' ∈ l.eraseIdx i := by
  obtain ⟨k, hk⟩ := List.mem_iff_getElem?.mp he
  refine List.mem_eraseIdx_iff_getElem?.mpr ⟨k, ?_, hk⟩
  rintro rfl
  rw [hi] at hk
  cases hk
  exact hne rfl

theorem eventId_ne_of_mem_eraseIdx {l : List SchedulerEvent} (hn : (l.map (·.eventId)).Nodup)
    {i : ℕ} {e e' : SchedulerEvent} (hi : l[i]? = some e) (he : e' ∈ l.eraseIdx i) :
    e'.eventId ≠ e.eventId := by
  obtain ⟨k, hki, hk⟩ := List.mem_eraseIdx_iff_getElem?.mp he
  intro heq
  have h1 : (l.map (·.eventId))[k]? = some e.eventId := by rw [List.getElem?_map, hk, ← heq]; rfl
  have h2 : (l.map (·.eventId))[i]? = some e.eventId := by rw [List.getElem?_map, hi]; rfl
  exact hki ((List.getElem?_inj (List.getElem?_eq_some_iff.mp h1).1 hn).mp (h1.trans h2.symm))

/-- An event that belongs to no timer goes. -/
theorem erase_armed (h : AllArmed s stale) {i : ℕ} {e : SchedulerEvent} (hi : s.events[i]? = some e)
    (hf : e.funcId ≠ s.timerEventId) :
    AllArmed { s with events := s.events.eraseIdx i } stale := by
  refine ⟨erase_bounded h.bounded i, h.clock, ?_, h.stale_lt, h.ranged, fun id t ht => ?_,
    fun e' he' hf' => h.owner e' (List.mem_of_mem_eraseIdx he') hf'⟩
  · exact h.ids.sublist ((List.eraseIdx_sublist _ _).map _)
  · obtain ⟨e', he', hk, hs⟩ := h.owns id t ht
    refine ⟨e', mem_eraseIdx_of_ne hi he' fun hc => ?_, hk, hs⟩
    have : e' = e := eq_of_eventId h.ids he' (List.mem_of_getElem? hi) hc
    subst this
    simp only [key, Prod.mk.injEq] at hk
    exact hf hk.2.2

/-- The event of a timer that is up to date and not past the overflow, with the due time
`update_timer_event_time` gives it. -/
theorem status_of_delta {t : SchedulerTimer} {now d : ℤ} (h : Ranged t now) (hf : Fresh t now)
    (hcount : t.counter ≤ t.overflowMask + 1) (h0 : 0 ≤ now) (hl : t.eventId ∉ stale)
    (hd : calculateTimerEventDelta t = some d) : Status stale t (now + d) := by
  by_cases hp : t.paused = true
  · have hd' : d = pausedDelta := by
      unfold calculateTimerEventDelta at hd
      rw [if_pos hp] at hd
      exact (Option.some.inj hd).symm
    exact (status_paused hp).mpr (by omega)
  · have hp' : t.paused = false := by simpa using hp
    obtain rfl : t.lastUpdate = now := hf.resolve_left hp
    exact (status_armed hp' hl).mpr (armed_of_delta h hp' hcount hd)

/-- **The event of a timer is replaced**: `restart_timer` gives the timer, whose counter is up to
date and not past the overflow, a new event, and the one that was run goes. -/
theorem restart_armed (h : AllArmed s stale) {id i : ℕ} {t : SchedulerTimer} {e : SchedulerEvent}
    (ht : s.timers[id]? = some t) (hi : s.events[i]? = some e) (hid : e.eventId = t.eventId)
    (hfresh : Fresh t s.eeCycles.count) (hcount : t.counter ≤ t.overflowMask + 1)
    (hs : restartTimer s id = some s') :
    AllArmed { s' with events := s'.events.eraseIdx i } stale := by
  have hrt := h.ranged id t ht
  have hlt : id < s.timers.length := (List.getElem?_eq_some_iff.mp ht).1
  have hile : i < s.events.length := (List.getElem?_eq_some_iff.mp hi).1
  have hb := erase_bounded ((restartTimer_moves h.bounded hs).bounded h.bounded) i
  have h0 := h.bounded.count_nonneg
  obtain ⟨t', d, ht', hd, -, rfl⟩ := restartTimer_eq_some h.bounded.id_lt hs
  rw [ht] at ht'
  cases ht'
  have hnot : s.nextEventId ∉ stale := fun hc => lt_irrefl _ (h.stale_lt _ hc)
  have hr' : Ranged { t with eventId := s.nextEventId } s.eeCycles.count :=
    hrt.congr rfl rfl rfl rfl hrt.counter_nonneg hrt.counter_le
  have hstatus : Status stale { t with eventId := s.nextEventId } (s.eeCycles.count + d) :=
    status_of_delta hr' hfresh hcount h0 hnot hd
  have hev : ∀ e' : SchedulerEvent, (s.events ++ [e']).eraseIdx i = s.events.eraseIdx i ++ [e'] :=
    fun e' => List.eraseIdx_append_of_lt_length hile _
  dsimp only at hb ⊢
  rw [hev] at hb ⊢
  refine ⟨hb, h.clock, ?_, fun x hx => (h.stale_lt x hx).trans (Nat.lt_succ_self _),
    fun j tj hj => ?_, fun j tj hj => ?_, fun e' he' hf' => ?_⟩
  · rw [List.map_append, List.nodup_append]
    refine ⟨h.ids.sublist ((List.eraseIdx_sublist _ _).map _), by simp, fun a ha b hb' => ?_⟩
    obtain ⟨e', he', rfl⟩ := List.mem_map.mp ha
    have := h.bounded.id_lt e' (List.mem_of_mem_eraseIdx he')
    simp only [List.map_cons, List.map_nil, List.mem_singleton] at hb'
    omega
  · by_cases hij : id = j
    · subst hij
      dsimp only at hj
      rw [List.getElem?_set_self hlt] at hj
      cases hj
      exact hr'
    · dsimp only at hj
      rw [List.getElem?_set_ne hij] at hj
      exact h.ranged j tj hj
  · by_cases hij : id = j
    · subst hij
      dsimp only at hj
      rw [List.getElem?_set_self hlt] at hj
      cases hj
      exact ⟨_, List.mem_append_right _ (List.mem_singleton_self _), rfl, hstatus⟩
    · dsimp only at hj
      rw [List.getElem?_set_ne hij] at hj
      have hne := h.eventId_ne ht hj hij
      obtain ⟨e', he', hk, hst⟩ := h.owns j tj hj
      refine ⟨e', List.mem_append_left _ (mem_eraseIdx_of_ne hi he' ?_), hk, hst⟩
      simp only [key, Prod.mk.injEq] at hk
      rw [hk.1, hid]
      exact hne.symm
  · rcases List.mem_append.mp he' with he' | he'
    · have hne := eventId_ne_of_mem_eraseIdx h.ids hi he'
      obtain ⟨t₀, ht₀, hid₀⟩ := h.owner e' (List.mem_of_mem_eraseIdx he') hf'
      refine ⟨t₀, ?_, hid₀⟩
      rw [List.getElem?_set_ne]
      · exact ht₀
      · rintro rfl
        rw [ht] at ht₀
        cases ht₀
        exact hne (hid₀.symm.trans hid.symm)
    · rw [List.mem_singleton] at he'
      subst he'
      exact ⟨_, List.getElem?_set_self hlt, rfl⟩

/-! ### Running an event -/

/-- The overflow of `timer_event`: the counter of a timer that is past its mask goes back by the
range. Its event, if armed, is due within eight cycles, so it stays in time. -/
theorem wrap_armed (h : AllArmed s stale) {id : ℕ} {t : SchedulerTimer}
    (ht : s.timers[id]? = some t) (hf : Fresh t s.eeCycles.count)
    (hc : t.counter ≤ t.overflowMask + 9) (hover : t.overflowMask < t.counter) :
    AllArmed (setTimer s id { t with counter := int64 (t.counter - (t.overflowMask + 1)) }) stale ∧
      TimerFollows s.eeCycles.count t
        { t with counter := int64 (t.counter - (t.overflowMask + 1)) } ∧
      int64 (t.counter - (t.overflowMask + 1)) ≤ 8 := by
  have hrt := h.ranged id t ht
  have hm := hrt.mask_ge
  have hle := hrt.last_nonneg
  have hw : int64 (t.counter - (t.overflowMask + 1)) = t.counter - (t.overflowMask + 1) :=
    int64_of_range (by omega) (by omega)
  have hr' : Ranged { t with counter := int64 (t.counter - (t.overflowMask + 1)) }
      s.eeCycles.count :=
    hrt.congr rfl rfl rfl rfl (by dsimp only; omega) (by dsimp only; omega)
  refine ⟨h.setTimer ht rfl (fun time _ hst => ?_) hr' fun _ _ => Iff.rfl,
    ⟨rfl, rfl, ?_, fun _ => hf⟩, by omega⟩
  · by_cases h1 : t.paused = true ∨ t.eventId ∈ stale
    · exact (if_pos h1).mpr ((if_pos h1).mp hst)
    · obtain ⟨hd, hov⟩ := (if_neg h1).mp hst
      have hnow : time ≤ t.lastUpdate + 8 :=
        hd t.lastUpdate le_rfl (Or.inr (by rw [counterAt_last hrt.sound]; exact hover))
      refine (if_neg h1).mpr ⟨fun c hc' _ => ?_, ?_⟩
      · have : t.lastUpdate ≤ c := hc'
        omega
      · have hsc : clockScale { t with counter := int64 (t.counter - (t.overflowMask + 1)) } =
            clockScale t := clockScale_congr rfl
        unfold counterAt at hov ⊢
        dsimp only
        rw [hsc, hw]
        omega
  · rw [valueAt_fresh hr' hf, valueAt_fresh hrt hf]
    dsimp only
    omega

/-- A timer whose event is run is running, its event is not stale, and its counter is at most nine
past the mask. -/
theorem ran_timer (h : AllArmed s stale) {i : ℕ} {e : SchedulerEvent}
    (hi : s.events[i]? = some e) (hf : e.funcId = s.timerEventId)
    (hdue : e.timeToRun ≤ s.closestEventTime) (hcl : s.closestEventTime ≤ s.eeCycles.count) :
    ∃ t, s.timers[e.param]? = some t ∧ t.eventId = e.eventId ∧ t.paused = false ∧
      counterAt t s.eeCycles.count ≤ t.overflowMask + 9 := by
  have he := List.mem_of_getElem? hi
  obtain ⟨t, ht, hid⟩ := h.owner e he hf
  obtain ⟨e', he', hk, hs⟩ := h.owns e.param t ht
  simp only [key, Prod.mk.injEq] at hk
  have : e' = e := eq_of_eventId h.ids he' he (by rw [hk.1, hid])
  subst this
  have hclock := h.clock
  have hpark : ¬ pausedDelta ≤ e'.timeToRun := by
    have : (2 : ℤ) ^ 54 ≤ pausedDelta := by decide
    omega
  have hrun : t.paused = false := by
    cases hp : t.paused with
    | false => rfl
    | true => exact absurd ((status_paused hp).mp hs) hpark
  have hnot : t.eventId ∉ stale := fun hl => hpark ((status_stale hl).mp hs)
  have harm := (status_armed hrun hnot).mp hs
  have hmono := counterAt_mono (h.ranged _ t ht).sound (h.bounded.not_late e' he)
  have := harm.overrun
  exact ⟨t, ht, hid, hrun, by omega⟩

/-- **`timer_event`**, run from the `i`-th place of the list, keeps every running timer armed. -/
theorem timerEvent_armed (hcall : KeepsArmed call list) {i : ℕ} {e : SchedulerEvent}
    {env env' : E} (h : AllArmed s (list env)) (hi : s.events[i]? = some e)
    (hf : e.funcId = s.timerEventId) (hdue : e.timeToRun ≤ s.closestEventTime)
    (hcl : s.closestEventTime ≤ s.eeCycles.count)
    (hs : timerEvent call s e.param env = some (s', env')) :
    AllArmed { s' with events := s'.events.eraseIdx i } (list env') ∧
      s'.eeCycles = s.eeCycles ∧ s'.closestEventTime ≤ s.closestEventTime := by
  obtain ⟨t, ht, hid, hrun, hover⟩ := ran_timer h hi hf hdue hcl
  have hrt := h.ranged _ t ht
  have hm7 := hrt.mask_ge
  simp only [timerEvent, Option.bind_eq_bind, Option.bind_eq_some_iff, Option.pure_def,
    Option.some.injEq, Prod.mk.injEq] at hs
  obtain ⟨t0, -, ⟨v, s1⟩, h1, t1, ht1, ⟨s2, env2⟩, h2, t2, ht2, ⟨s4, env4⟩, h4, s5, h5, rfl, rfl⟩ :=
    hs
  -- the counter is brought up to date
  have f1 : AllArmed s1 (list env) ∧ Follows s s1 := by
    obtain ⟨t', ht', ⟨hp, -⟩ | ⟨-, -, -, rfl⟩⟩ := getTimerCounter_eq_some h1
    · rw [ht] at ht'; cases ht'; rw [hrun] at hp; cases hp
    · rw [ht] at ht'
      cases ht'
      exact ⟨h.freshen ht, follows_of_set ht rfl rfl le_rfl rfl rfl
        (advance_follows hrt h.clock hrun)⟩
  have hfresh1 : ∀ t' ∈ s1.timers[e.param]?, Fresh t' s.eeCycles.count := by
    obtain ⟨t', ht', ⟨hp, -⟩ | ⟨-, -, -, rfl⟩⟩ := getTimerCounter_eq_some h1
    · rw [ht] at ht'; cases ht'; rw [hrun] at hp; cases hp
    · rw [ht] at ht'
      cases ht'
      intro t' ht'
      simp only [setTimer, List.getElem?_set_self (List.getElem?_eq_some_iff.mp ht).1,
        Option.mem_def, Option.some.injEq] at ht'
      subst ht'
      exact Or.inr (by rw [advanceCounter_eq hrt.sound h.clock])
  -- the target callback
  have f2 : AllArmed s2 (list env2) ∧ Follows s1 s2 := by
    split_ifs at h2
    · exact hcall _ _ _ _ f1.1 h2
    · cases h2; exact ⟨f1.1, Follows.refl _⟩
  obtain ⟨t1', ht1', g1⟩ := f1.2.timers _ t ht
  obtain ⟨t2', ht2', g2⟩ := f2.2.timers _ t1' ht1'
  rw [ht2] at ht2'
  cases ht2'
  have hee2 : s2.eeCycles = s.eeCycles := f2.2.clock.trans f1.2.clock
  rw [f1.2.clock] at g2
  have hf2 : Fresh t2 s2.eeCycles.count := by
    rw [hee2]; exact g2.fresh (hfresh1 t1' ht1')
  have hval : valueAt t s.eeCycles.count = counterAt t s.eeCycles.count := by simp [valueAt, hrun]
  have hm2 : t2.overflowMask = t.overflowMask := g2.mask.trans g1.mask
  have hc2 : t2.counter ≤ t2.overflowMask + 9 := by
    have hv := valueAt_fresh (f2.1.ranged _ t2 ht2) hf2
    rw [hee2] at hv
    have h3 := g1.value
    have h5 := g2.value
    have h6 := g1.mask
    omega
  -- the overflow and its callback
  have f4 : ∃ t4, AllArmed s4 (list env4) ∧ Follows s2 s4 ∧ s4.timers[e.param]? = some t4 ∧
      t4.eventId = t2.eventId ∧ t4.overflowMask = t2.overflowMask ∧
      Fresh t4 s4.eeCycles.count ∧ t4.counter ≤ t4.overflowMask + 1 := by
    by_cases hov : t2.overflowMask < t2.counter
    · rw [if_pos hov] at h4
      obtain ⟨ha3, g3, hc3⟩ := wrap_armed f2.1 ht2 hf2 hc2 hov
      have hfol3 : Follows s2 (setTimer s2 e.param { t2 with
          counter := int64 (t2.counter - (t2.overflowMask + 1)) }) :=
        follows_of_set ht2 rfl rfl le_rfl rfl rfl g3
      have hget3 : (setTimer s2 e.param { t2 with
          counter := int64 (t2.counter - (t2.overflowMask + 1)) }).timers[e.param]? =
          some { t2 with counter := int64 (t2.counter - (t2.overflowMask + 1)) } :=
        List.getElem?_set_self (List.getElem?_eq_some_iff.mp ht2).1
      have f4 : AllArmed s4 (list env4) ∧ Follows (setTimer s2 e.param { t2 with
          counter := int64 (t2.counter - (t2.overflowMask + 1)) }) s4 := by
        split_ifs at h4
        · exact hcall _ _ _ _ ha3 h4
        · cases h4; exact ⟨ha3, Follows.refl _⟩
      obtain ⟨t4, ht4, g4⟩ := f4.2.timers _ _ hget3
      have hf4 : Fresh t4 s4.eeCycles.count := by rw [f4.2.clock]; exact g4.fresh (g3.fresh hf2)
      have hv4 := valueAt_fresh (f4.1.ranged _ t4 ht4) hf4
      have hv3 := valueAt_fresh (ha3.ranged _ _ hget3) (g3.fresh hf2)
      have h7 := g4.value
      have h8 := g4.mask
      rw [f4.2.clock] at hv4
      dsimp only [setTimer] at hv3 hv4 h7 h8
      exact ⟨t4, f4.1, hfol3.trans f4.2, ht4, g4.eventId, g4.mask, hf4, by omega⟩
    · rw [if_neg hov] at h4
      cases h4
      exact ⟨t2, f2.1, Follows.refl _, ht2, rfl, rfl, hf2, by omega⟩
  obtain ⟨t4, ha4, hfol4, ht4, hid4, -, hf4, hc4⟩ := f4
  -- the event is replaced
  have hfol : Follows s s4 := (f1.2.trans f2.2).trans hfol4
  obtain ⟨e4, he4, hk4⟩ := hfol.event hi
  simp only [key, Prod.mk.injEq] at hk4
  have hide : e4.eventId = t4.eventId := by
    rw [hk4.1, hid4, g2.eventId, g1.eventId, hid]
  have hm5 := restartTimer_moves ha4.bounded h5
  exact ⟨restart_armed ha4 ht4 he4 hide hf4 hc4 h5, hm5.eeCycles.trans hfol.clock,
    hm5.closest_le.trans hfol.closest⟩

/-- **Running an event** and removing it from its place. -/
theorem runFunc_armed (hcall : KeepsArmed call list) {i : ℕ} {e : SchedulerEvent}
    {env env' : E} (h : AllArmed s (list env)) (hi : s.events[i]? = some e)
    (hdue : e.timeToRun ≤ s.closestEventTime) (hcl : s.closestEventTime ≤ s.eeCycles.count)
    (hs : runFunc call s e env = some (s', env')) :
    AllArmed { s' with events := s'.events.eraseIdx i } (list env') ∧
      s'.eeCycles = s.eeCycles ∧ s'.closestEventTime ≤ s.closestEventTime := by
  unfold runFunc at hs
  split_ifs at hs with hf
  · exact timerEvent_armed hcall h hi hf hdue hcl hs
  · obtain ⟨ha, hfol⟩ := hcall _ _ _ _ h hs
    obtain ⟨e', he', hk⟩ := hfol.event hi
    simp only [key, Prod.mk.injEq] at hk
    refine ⟨erase_armed ha he' ?_, hfol.clock, hfol.closest⟩
    rw [hk.2.2, hfol.func]
    exact hf

/-- **The pass keeps every running timer armed**, if it keeps the bound. -/
theorem processLoop_armed (hcall : KeepsArmed call list) : ∀ (fuel i : ℕ) (newTime : ℤ)
    (s : Scheduler) (env : E) {r : Processed E}, AllArmed s (list env) →
    s.closestEventTime ≤ s.eeCycles.count → processLoop call fuel i newTime s env = some r →
    Bounded r.sched → AllArmed r.sched (list r.env)
  | 0, _, _, _, _, _, _, _, h, _ => by simp [processLoop] at h
  | fuel + 1, i, newTime, s, env, r, ha, hcl, h, hb => by
    cases he : s.events[i]? with
    | none =>
      rw [processLoop_end he] at h
      cases h
      exact ha.congr hb rfl rfl rfl rfl rfl
    | some e =>
      by_cases hdue : e.timeToRun ≤ s.closestEventTime
      · obtain ⟨s1, env1, r1, h1, h3, rfl⟩ := processLoop_run he hdue h
        obtain ⟨ha1, hee1, hc1⟩ := runFunc_armed hcall ha he hdue hcl h1
        have hcl1 : s1.closestEventTime ≤ s1.eeCycles.count := by
          rw [hee1]
          exact hc1.trans hcl
        exact processLoop_armed hcall fuel i newTime _ env1 (r := r1) ha1 hcl1 h3 hb
      · rw [processLoop_keep he hdue] at h
        exact processLoop_armed hcall fuel (i + 1) _ s env ha hcl h hb

theorem processEvents_armed (hcall : KeepsArmed call list) {fuel : ℕ} {env : E}
    {r : Processed E} (ha : AllArmed s (list env))
    (h : processEvents call fuel s env = some r) (hb : Bounded r.sched) :
    AllArmed r.sched (list r.env) := by
  unfold processEvents at h
  split_ifs at h with hc
  · exact processLoop_armed hcall fuel 0 newTimeInit s env ha hc h hb
  · cases h; exact ha

/-! ### Two worlds that do the same -/

/-- What a pass does depends on the world only through what the functions do. -/
theorem processLoop_sim {F : Type} {call' : Callback F} (f : E → F)
    (hsim : ∀ s env s' env', call s env = some (s', env') → call' s (f env) = some (s', f env')) :
    ∀ (fuel i : ℕ) (newTime : ℤ) (s : Scheduler) (env : E) {r : Processed E},
    processLoop call fuel i newTime s env = some r →
    processLoop call' fuel i newTime s (f env) = some ⟨r.sched, f r.env, r.visits⟩ := by
  have hif : ∀ (c : Bool) (s : Scheduler) (env : E) (s' : Scheduler) (env' : E),
      (if c then call s env else some (s, env)) = some (s', env') →
      (if c then call' s (f env) else some (s, f env)) = some (s', f env') := by
    intro c s env s' env' h
    cases c with
    | false => simp only [Bool.false_eq_true, if_false] at h ⊢; cases h; rfl
    | true => simp only [if_true] at h ⊢; exact hsim _ _ _ _ h
  have hev : ∀ (s : Scheduler) (j : ℕ) (env : E) (s' : Scheduler) (env' : E),
      timerEvent call s j env = some (s', env') →
      timerEvent call' s j (f env) = some (s', f env') := by
    intro s j env s' env' h
    simp only [timerEvent, Option.bind_eq_bind, Option.bind_eq_some_iff, Option.pure_def,
      Option.some.injEq, Prod.mk.injEq] at h ⊢
    obtain ⟨t, ht, r1, h1, t1, ht1, ⟨s2, env2⟩, h2, t2, ht2, ⟨s4, env4⟩, h4, s5, h5, rfl, rfl⟩ := h
    refine ⟨t, ht, r1, h1, t1, ht1, (s2, f env2), hif _ _ _ _ _ h2, t2, ht2, (s4, f env4), ?_,
      s5, h5, rfl, rfl⟩
    by_cases hov : t2.overflowMask < t2.counter
    · rw [if_pos hov] at h4 ⊢
      exact hif _ _ _ _ _ h4
    · rw [if_neg hov] at h4 ⊢
      cases h4
      rfl
  have hrun : ∀ (s : Scheduler) (e : SchedulerEvent) (env : E) (s' : Scheduler) (env' : E),
      runFunc call s e env = some (s', env') →
      runFunc call' s e (f env) = some (s', f env') := by
    intro s e env s' env' h
    unfold runFunc at h ⊢
    split_ifs at h ⊢
    · exact hev _ _ _ _ _ h
    · exact hsim _ _ _ _ h
  intro fuel
  induction fuel with
  | zero => intro i newTime s env r h; simp [processLoop] at h
  | succ fuel ih =>
    intro i newTime s env r h
    cases he : s.events[i]? with
    | none =>
      rw [processLoop_end he] at h ⊢
      cases h
      rfl
    | some e =>
      by_cases hdue : e.timeToRun ≤ s.closestEventTime
      · obtain ⟨s1, env1, r1, h1, h3, rfl⟩ := processLoop_run he hdue h
        rw [processLoop, he]
        simp only [if_pos hdue, hrun _ _ _ _ _ h1, ih _ _ _ _ h3, Option.bind_eq_bind,
          Option.bind_some]
        rfl
      · rw [processLoop_keep he hdue] at h ⊢
        exact ih _ _ _ _ h

theorem processEvents_sim {F : Type} {call' : Callback F} (f : E → F)
    (hsim : ∀ s env s' env', call s env = some (s', env') → call' s (f env) = some (s', f env'))
    {fuel : ℕ} {env : E} {r : Processed E} (h : processEvents call fuel s env = some r) :
    processEvents call' fuel s (f env) = some ⟨r.sched, f r.env, r.visits⟩ := by
  unfold processEvents at h ⊢
  split_ifs at h ⊢
  · exact processLoop_sim f hsim fuel 0 newTimeInit s env h
  · cases h; rfl

end Pass

/-! ### Runs -/

/-- The operations of the other components are steps. -/
theorem reaches_ops : ∀ (ops : List Op) {s s' : Scheduler}, Reaches Init Step s →
    ops.foldlM Op.apply s = some s' → Reaches Init Step s'
  | [], _, _, h, hs => by cases hs; exact h
  | o :: ops, s, s', h, hs => by
    simp only [List.foldlM_cons, Option.bind_eq_bind, Option.bind_eq_some_iff] at hs
    obtain ⟨s1, h1, h2⟩ := hs
    exact reaches_ops ops (h.next (show Step s (.op o) s1 from h1)) h2

theorem tracked_keepsArmed : KeepsArmed tracked Prod.snd := by
  rintro s ⟨script, l⟩ s' ⟨script', l'⟩ h hs
  cases script with
  | nil => cases hs; exact ⟨h, Follows.refl _⟩
  | cons ops rest =>
    obtain ⟨⟨s1, l1⟩, h1, heq⟩ := Option.map_eq_some_iff.mp hs
    cases heq
    exact trackedOps_inv ops h h1

theorem trackedOps_apply : ∀ (ops : List Op) {s s' : Scheduler} {l l' : List ℕ},
    trackedOps ops s l = some (s', l') → ops.foldlM Op.apply s = some s'
  | [], _, _, _, _, h => by cases h; rfl
  | o :: ops, s, s', l, l', h => by
    rw [trackedOps] at h
    split_ifs at h
    obtain ⟨s1, h1, h2⟩ := Option.bind_eq_some_iff.mp h
    rw [List.foldlM_cons, h1]
    exact trackedOps_apply ops h2

/-- What `tracked` does, `scripted` does. -/
theorem tracked_scripted (s : Scheduler) (env : Script × List ℕ) (s' : Scheduler)
    (env' : Script × List ℕ) (h : tracked s env = some (s', env')) :
    scripted s env.1 = some (s', env'.1) := by
  obtain ⟨script, l⟩ := env
  cases script with
  | nil => cases h; rfl
  | cons ops rest =>
    obtain ⟨⟨s1, l1⟩, h1, heq⟩ := Option.map_eq_some_iff.mp h
    cases heq
    simp [scripted, trackedOps_apply ops h1]

theorem fits_inRange {o : Op} (h : Fits s o) : InRange s.eeCycles o := by
  cases o with
  | addEvent => exact h.1
  | createTimer => exact h.1
  | _ => trivial

theorem trackedOps_bounded : ∀ (ops : List Op) {s s' : Scheduler} {l l' : List ℕ}, Bounded s →
    trackedOps ops s l = some (s', l') → Bounded s' ∧ s'.eeCycles = s.eeCycles
  | [], _, _, _, _, hb, h => by cases h; exact ⟨hb, rfl⟩
  | o :: ops, s, s', l, l', hb, h => by
    rw [trackedOps] at h
    split_ifs at h with hfit
    obtain ⟨s1, h1, h2⟩ := Option.bind_eq_some_iff.mp h
    have hm := op_moves hb (fits_inRange hfit) h1
    obtain ⟨hb', he'⟩ := trackedOps_bounded ops (hm.bounded hb) h2
    exact ⟨hb', he'.trans hm.eeCycles⟩

theorem tracked_respects : Respects tracked fun _ _ => True := by
  rintro s ⟨script, l⟩ s' ⟨script', l'⟩ hb - h
  cases script with
  | nil => cases h; exact ⟨hb, rfl, trivial⟩
  | cons ops rest =>
    obtain ⟨⟨s1, l1⟩, h1, heq⟩ := Option.map_eq_some_iff.mp h
    cases heq
    obtain ⟨hb', he'⟩ := trackedOps_bounded ops hb h1
    exact ⟨hb', he', trivial⟩

/-- The scheduler with the list of the stale events. -/
abbrev Tracked := Scheduler × List ℕ

def TrackedInit (σ : Tracked) : Prop := Init σ.1 ∧ σ.2 = []

/-- The steps of the scheduler in which every operation fits, the clock stays below `2 ^ 54` and
`process_events` keeps its bound; with them the list goes along. -/
def TrackedStep (σ : Tracked) (a : Action) (σ' : Tracked) : Prop :=
  match a with
  | .op o => Fits σ.1 o ∧ o.apply σ.1 = some σ'.1 ∧ σ'.2 = stale' σ.1 σ.2 o
  | .advance => Step σ.1 .advance σ'.1 ∧ σ'.1.eeCycles.count < 2 ^ 54 ∧ σ'.2 = σ.2
  | .process fuel script => ∃ r, processEvents tracked fuel σ.1 (script, σ.2) = some r ∧
      NoneHastened r.visits ∧ σ' = (r.sched, r.env.2)

/-- A step of the tracked scheduler is one of the scheduler. -/
theorem TrackedStep.step {σ σ' : Tracked} {a : Action} (h : TrackedStep σ a σ') :
    Step σ.1 a σ'.1 := by
  cases a with
  | op o => exact h.2.1
  | advance => exact h.1
  | process fuel script =>
    obtain ⟨r, hr, -, rfl⟩ := h
    have hs := processEvents_sim Prod.fst tracked_scripted hr
    show (processEvents scripted fuel σ.1 script).map _ = some r.sched
    rw [hs]
    rfl

theorem trackedReaches {σ : Tracked} (h : Reaches TrackedInit TrackedStep σ) :
    Reaches Init Step σ.1 := by
  obtain ⟨σ₀, h0, hr⟩ := h
  refine ⟨σ₀.1, h0.1, ?_⟩
  exact hr.lift Prod.fst fun _ _ ⟨a, ha⟩ => ⟨a, ha.step⟩

theorem init_armed {s : Scheduler} (h : Init s) : AllArmed s [] := by
  have hb := init_bounded h
  obtain ⟨s₀, rfl⟩ := h
  have hclock : (0 : ℤ) < 2 ^ 54 := by decide
  refine ⟨hb, hclock, by simp [reset, registerFunction], by simp, ?_, ?_, ?_⟩ <;>
    simp [reset, registerFunction]

theorem advance_armed_run {s s' : Scheduler} {l : List ℕ} (h : AllArmed s l)
    (hs : Step s .advance s') (hclock : s'.eeCycles.count < 2 ^ 54) : AllArmed s' l := by
  have hb := advance_bounded h.bounded hs
  have hs' : (calculateRunCycles s).map updateCycleCounts = some s' := hs
  obtain ⟨s1, h1, rfl⟩ := Option.map_eq_some_iff.mp hs'
  have hsame : s1.timers = s.timers ∧ s1.events = s.events ∧ s1.nextEventId = s.nextEventId ∧
      s1.timerEventId = s.timerEventId ∧ s1.eeCycles = s.eeCycles := by
    unfold calculateRunCycles at h1
    split_ifs at h1 <;> cases h1 <;> exact ⟨rfl, rfl, rfl, rfl, rfl⟩
  obtain ⟨ht, hev, hn, hf, hee⟩ := hsame
  refine ⟨hb, hclock, ?_, ?_, fun id t hid => ?_, ?_, ?_⟩
  · show (s1.events.map _).Nodup
    rw [hev]; exact h.ids
  · show ∀ x ∈ l, x < s1.nextEventId
    rw [hn]; exact h.stale_lt
  · have hr := h.ranged id t (ht ▸ hid)
    have hle : s.eeCycles.count ≤ (updateCycleCounts s1).eeCycles.count := by
      show _ ≤ s1.eeCycles.count + _
      rw [hee]; omega
    exact ⟨hr.mask_ge, hr.mask_lt, hr.rate, hr.rem_nonneg, hr.rem_lt, hr.last_nonneg,
      hr.last_le.trans hle, hr.counter_nonneg, hr.counter_le⟩
  · show ∀ (id : ℕ) t, s1.timers[id]? = some t → Owns l s1.timerEventId s1.events id t
    rw [ht, hf, hev]; exact h.owns
  · show ∀ e ∈ s1.events, e.funcId = s1.timerEventId → ∃ t, s1.timers[e.param]? = some t ∧ _
    rw [ht, hf, hev]; exact h.owner

/-- **The step lemma** over the steps of a run. -/
theorem trackedStep_armed {σ σ' : Tracked} {a : Action} (h : AllArmed σ.1 σ.2)
    (hs : TrackedStep σ a σ') : AllArmed σ'.1 σ'.2 := by
  cases a with
  | op o =>
    obtain ⟨hfit, happ, hl⟩ := hs
    rw [hl]
    exact op_inv h hfit happ
  | advance =>
    obtain ⟨hstep, hclock, hl⟩ := hs
    rw [hl]
    exact advance_armed_run h hstep hclock
  | process fuel script =>
    obtain ⟨r, hr, hv, rfl⟩ := hs
    have hb := processEvents_bounded tracked_respects h.bounded trivial hr hv
    exact processEvents_armed tracked_keepsArmed h hr hb

theorem trackedReaches_armed {σ : Tracked} (h : Reaches TrackedInit TrackedStep σ) :
    AllArmed σ.1 σ.2 :=
  h.invariant (fun σ h0 => by rw [h0.2]; exact init_armed h0.1)
    fun _ _ _ hi hs => trackedStep_armed hi hs

/-- A parked event is not due in time: the timer overflows long before. -/
theorem not_due_of_parked {t : SchedulerTimer} {now time : ℤ} (h : Ranged t now)
    (hnow : now < 2 ^ 54) (hp : pausedDelta ≤ time) : ¬ DueInTime t time := by
  intro hd
  have hS := h.sound.scale_le
  have hpos := h.sound.scale_pos
  have hm := h.mask_lt
  have hc := h.counter_nonneg
  have hl := h.last_le
  have hr := h.rem_nonneg
  unfold eeClockrate at hS
  have hticks :
      2 ^ 32 ≤ Lib.Accumulator.ticks (clockScale t) t.remainderClocks (2 ^ 61 * 2 ^ 8) := by
    refine (Int.le_ediv_iff_mul_le hpos).mpr ?_
    omega
  have hover : t.overflowMask < counterAt t (t.lastUpdate + 2 ^ 61) := by
    unfold counterAt
    rw [add_sub_cancel_left]
    omega
  have := hd (t.lastUpdate + 2 ^ 61) (by omega) (Or.inr hover)
  have : pausedDelta = 2 ^ 62 - 1 := by decide
  omega

/-- What is asked of a state: the event of every running timer is due in time. -/
def TimersDue (s : Scheduler) : Prop :=
  ∀ (id : ℕ) t, s.timers[id]? = some t → t.paused = false →
    ∃ e ∈ s.events, e.eventId = t.eventId ∧ DueInTime t e.timeToRun

/-- **Due in time.** In every state of a run in which the operations fit, each running timer has its
event in the list, and this is due in time exactly if the timer has been re-armed since it was
last un-paused. -/
theorem due_in_time_iff {s : Scheduler} {stale : List ℕ}
    (h : Reaches TrackedInit TrackedStep (s, stale)) :
    Reaches Init Step s ∧ ∀ (id : ℕ) t, s.timers[id]? = some t → t.paused = false →
      ∃ e ∈ s.events, e.eventId = t.eventId ∧ e.param = id ∧
        (DueInTime t e.timeToRun ↔ t.eventId ∉ stale) := by
  have ha : AllArmed s stale := trackedReaches_armed h
  refine ⟨trackedReaches h, fun id t ht hp => ?_⟩
  obtain ⟨e, he, hk, hs⟩ := ha.owns id t ht
  simp only [key, Prod.mk.injEq] at hk
  refine ⟨e, he, hk.1, hk.2.1, fun hd hl => ?_, fun hl => ((status_armed hp hl).mp hs).due⟩
  exact not_due_of_parked (ha.ranged id t ht) ha.clock ((status_stale hl).mp hs) hd

/-- The theorem at a timer that is un-paused and then given the bus clock, which re-arms it. -/
theorem due_in_time_rearmed : ∃ s, Reaches Init Step s ∧ ∃ t e, s.timers[0]? = some t ∧
    t.paused = false ∧ e ∈ s.events ∧ DueInTime t e.timeToRun := by
  have h0 : Reaches TrackedInit TrackedStep (reset blank, []) := .start ⟨⟨blank, rfl⟩, rfl⟩
  have h1 := h0.next (show TrackedStep _ (.op .registerTimerCallback) (_, _) from
    ⟨trivial, rfl, rfl⟩)
  have h2 := h1.next (show TrackedStep _ (.op (.createTimer 0 0xFFFF 0)) (_, _) from
    ⟨⟨rfl, by decide, by decide⟩, rfl, rfl⟩)
  have h3 := h2.next (show TrackedStep _ (.op (.setTimerPause 0 false)) (_, _) from
    ⟨trivial, rfl, rfl⟩)
  have h4 := h3.next (show TrackedStep _ (.op (.setTimerClockrate 0 busClockrate)) (_, _) from
    ⟨by decide, rfl, rfl⟩)
  obtain ⟨hreach, hall⟩ := due_in_time_iff h4
  obtain ⟨e, he, -, -, hiff⟩ := hall 0 _ rfl rfl
  exact ⟨_, hreach, _, e, rfl, rfl, he, hiff.mpr (by decide)⟩

/-! ### `gate` loses the interrupt -/

/-- The EE timers before their reset. -/
def blankTimers : EETimers.EmotionTiming :=
  ⟨fun _ => ⟨0, ⟨0, false, false, 0, false, false, false, false, false, false⟩, 0, 0, false, 1⟩,
    fun _ => 0⟩

/-- The operations of the EE timers from their reset on: timer 0 is given the target 100 and enabled
at the bus clock with the VBLANK gate, and the gate opens. -/
def gateOps : Option (List Op) :=
  let (e, ops) := EETimers.reset blankTimers (reset blank)
  (EETimers.write32 e 0x10000020 100).bind fun (e1, ops1) =>
    (EETimers.write32 e1 0x10000010 0x8C).map fun (e2, ops2) =>
      ops ++ ops1 ++ ops2 ++ (EETimers.gate e2 true false).2

/-- After the gate has opened timer 0 runs and reaches its target 100 at cycle 200; its event is
parked. -/
theorem gate_loses_event : (∃ ops s t, gateOps = some ops ∧
      ops.foldlM Op.apply (reset blank) = some s ∧ s.timers[0]? = some t ∧ t.paused = false ∧
      t.lastUpdate = 0 ∧ Reached t 200 ∧
      ∀ e ∈ s.events, e.eventId = t.eventId → e.timeToRun = 2 ^ 62 - 1) ∧
    ¬ ∀ s, Reaches Init Step s → TimersDue s := by
  have hrun : gateOps.bind (fun ops => (ops.foldlM Op.apply (reset blank)).bind fun s =>
      s.timers[0]?.map fun t => (t.paused, t.lastUpdate, decide (Reached t 200),
        decide (∀ e ∈ s.events, e.eventId = t.eventId → e.timeToRun = 2 ^ 62 - 1))) =
      some (false, 0, true, true) := by
    decide
  simp only [Option.bind_eq_some_iff, Option.map_eq_some_iff, Prod.mk.injEq,
    decide_eq_true_eq] at hrun
  obtain ⟨ops, hops, s, hs, t, ht, hp, hl, hr, he⟩ := hrun
  refine ⟨⟨ops, s, t, hops, hs, ht, hp, hl, hr, he⟩, fun hall => ?_⟩
  have hreach : Reaches Init Step s :=
    reaches_ops ops (.start ⟨blank, rfl⟩) hs
  obtain ⟨e, hmem, hid, hd⟩ := hall s hreach 0 t ht hp
  have := hd 200 (by omega) hr
  have := he e hmem hid
  omega

end DobieStation.Timing.Deadline
