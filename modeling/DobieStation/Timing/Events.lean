import DobieStation.Timing.Model

/-! # The pending events

What each operation of the scheduler does to the list of pending events. An operation moves the due
time of an event of the list, or appends an event, and takes the new due time into
`closestEventTime`; none drops an event or touches the clock. `Bounded` is what they keep: the bound
holds of every event, no event is overdue, and the ids in the list are below the next one to be
given out. -/

namespace DobieStation.Timing.Events

open DobieStation.Timing.Model

/-- `closestEventTime` is a bound on the due times and no event is overdue. -/
structure Bounded (s : Scheduler) : Prop where
  closest_le : ∀ e ∈ s.events, s.closestEventTime ≤ e.timeToRun
  closest_max : s.closestEventTime ≤ timestampMax
  not_late : ∀ e ∈ s.events, s.eeCycles.count ≤ e.timeToRun
  id_lt : ∀ e ∈ s.events, e.eventId < s.nextEventId
  count_nonneg : 0 ≤ s.eeCycles.count
  count_max : s.eeCycles.count ≤ timestampMax

/-- `s'` follows `s` by moving due times and appending events: each event of `s'` is one of `s`, or
is due neither before the clock nor before the new bound. -/
structure Moves (s s' : Scheduler) : Prop where
  events : ∀ e ∈ s'.events, (∃ e₀ ∈ s.events, e₀.timeToRun = e.timeToRun ∧ e₀.eventId = e.eventId) ∨
    (s.eeCycles.count ≤ e.timeToRun ∧ s'.closestEventTime ≤ e.timeToRun ∧
      e.eventId < s'.nextEventId)
  closest_le : s'.closestEventTime ≤ s.closestEventTime
  next_le : s.nextEventId ≤ s'.nextEventId
  eeCycles : s'.eeCycles = s.eeCycles

theorem Moves.refl (s : Scheduler) : Moves s s :=
  ⟨fun e he => Or.inl ⟨e, he, rfl, rfl⟩, le_rfl, le_rfl, rfl⟩

theorem Moves.bounded {s s' : Scheduler} (h : Moves s s') (hb : Bounded s) : Bounded s' := by
  have hc : s'.eeCycles.count = s.eeCycles.count := by rw [h.eeCycles]
  refine ⟨fun e he => ?_, h.closest_le.trans hb.closest_max, fun e he => ?_, fun e he => ?_, ?_, ?_⟩
  · rcases h.events e he with ⟨e₀, h0, ht, -⟩ | ⟨-, h2, -⟩
    · exact ht ▸ h.closest_le.trans (hb.closest_le e₀ h0)
    · exact h2
  · rw [hc]
    rcases h.events e he with ⟨e₀, h0, ht, -⟩ | ⟨h1, -, -⟩
    · exact ht ▸ hb.not_late e₀ h0
    · exact h1
  · rcases h.events e he with ⟨e₀, h0, -, hi⟩ | ⟨-, -, h3⟩
    · exact hi ▸ (hb.id_lt e₀ h0).trans_le h.next_le
    · exact h3
  · rw [hc]; exact hb.count_nonneg
  · rw [hc]; exact hb.count_max

/-! ### Words -/

theorem int64_of_range {x : ℤ} (h1 : -2 ^ 63 ≤ x) (h2 : x < 2 ^ 63) : int64 x = x :=
  Int.bmod_eq_of_le (by omega) (by omega)

theorem int64_lt (x : ℤ) : int64 x < 2 ^ 63 := by
  have := Int.bmod_lt (x := x) (m := 2 ^ 64) (by decide)
  unfold int64; omega

theorem le_int64 (x : ℤ) : -2 ^ 63 ≤ int64 x := by
  have := Int.le_bmod (x := x) (m := 2 ^ 64) (by decide)
  unfold int64; omega

theorem addInt64_eq_some {x y z : ℤ} (h : addInt64 x y = some z) :
    z = x + y ∧ -2 ^ 63 ≤ z ∧ z < 2 ^ 63 := by
  unfold addInt64 at h
  split_ifs at h with hr
  cases h
  exact ⟨rfl, hr.1, hr.2⟩

/-! ### One event -/

theorem getEventPtr_lt {s : Scheduler} {id i : ℕ} (h : getEventPtr s id = some i) :
    i < s.events.length := by
  unfold getEventPtr at h
  exact (List.findIdx?_eq_some_iff_getElem.mp h).1

theorem mem_setTimeToRun {s : Scheduler} {i : ℕ} {time : ℤ} {e : SchedulerEvent}
    (he : e ∈ (setTimeToRun s i time).events) :
    e ∈ s.events ∨ ∃ e₀ ∈ s.events, e = { e₀ with timeToRun := time } := by
  simp only [setTimeToRun] at he
  obtain ⟨k, hk, rfl⟩ := List.getElem_of_mem he
  rw [List.length_modify] at hk
  rw [List.getElem_modify]
  split_ifs
  · exact Or.inr ⟨_, List.getElem_mem hk, rfl⟩
  · exact Or.inl (List.getElem_mem hk)

/-- Moving one due time and taking it into the bound. -/
theorem moves_setTimeToRun {s s' : Scheduler} (i : ℕ) (time : ℤ) (hb : Bounded s)
    (hev : s'.events = (setTimeToRun s i time).events) (htime : s.eeCycles.count ≤ time)
    (hc : s'.closestEventTime ≤ min time s.closestEventTime)
    (hn : s'.nextEventId = s.nextEventId) (hee : s'.eeCycles = s.eeCycles) : Moves s s' := by
  refine ⟨fun e he => ?_, hc.trans (min_le_right _ _), hn.ge, hee⟩
  rw [hev] at he
  rcases mem_setTimeToRun he with h | ⟨e₀, h0, rfl⟩
  · exact Or.inl ⟨e, h, rfl, rfl⟩
  · exact Or.inr ⟨htime, hc.trans (min_le_left _ _), by rw [hn]; exact hb.id_lt e₀ h0⟩

theorem moves_of_events_eq {s s' : Scheduler} (hev : s'.events = s.events)
    (hc : s'.closestEventTime = s.closestEventTime) (hn : s'.nextEventId = s.nextEventId)
    (hee : s'.eeCycles = s.eeCycles) : Moves s s' :=
  ⟨fun e he => Or.inl ⟨e, hev ▸ he, rfl, rfl⟩, hc.le, hn.ge, hee⟩

theorem addEvent_eq_some {s s' : Scheduler} {f : ℤ} {d p n : ℕ}
    (h : addEvent s f d p = some (n, s')) :
    n = s.nextEventId ∧
      s' = { s with
        nextEventId := s.nextEventId + 1
        closestEventTime := min (int64 (s.eeCycles.count + d)) s.closestEventTime
        events := s.events ++ [⟨s.nextEventId, int64 (s.eeCycles.count + d), p, f⟩] } := by
  unfold addEvent at h
  split_ifs at h
  cases h
  exact ⟨rfl, rfl⟩

/-- `add_event` keeps the bound as long as the due time fits an `int64_t`. -/
theorem addEvent_moves {s s' : Scheduler} {f : ℤ} {d p n : ℕ} (hb : Bounded s)
    (hr : s.eeCycles.count + d < 2 ^ 63) (h : addEvent s f d p = some (n, s')) : Moves s s' := by
  have h0 := hb.count_nonneg
  have hw : int64 (s.eeCycles.count + d) = s.eeCycles.count + d :=
    int64_of_range (by omega) hr
  obtain ⟨-, rfl⟩ := addEvent_eq_some h
  refine ⟨fun e he => ?_, min_le_right _ _, Nat.le_succ _, rfl⟩
  rcases List.mem_append.mp he with he | he
  · exact Or.inl ⟨e, he, rfl, rfl⟩
  · rw [List.mem_singleton] at he
    subst he
    refine Or.inr ⟨?_, min_le_left _ _, Nat.lt_succ_self _⟩
    show _ ≤ int64 (s.eeCycles.count + d)
    rw [hw]; omega

/-! ### Re-arming a timer -/

theorem eight_le_delta {t : SchedulerTimer} {d : ℤ} (h : calculateTimerEventDelta t = some d) :
    8 ≤ d := by
  unfold calculateTimerEventDelta at h
  split_ifs at h
  · cases h; decide
  · cases h; exact le_max_right _ _
  · cases h; exact le_max_right _ _

theorem updateTimerEventTime_eq_some {s s' : Scheduler} {id : ℕ}
    (h : updateTimerEventTime s id = some s') :
    ∃ t d i, s.timers[id]? = some t ∧ calculateTimerEventDelta t = some d ∧
      s.eeCycles.count + d < 2 ^ 63 ∧ getEventPtr s t.eventId = some i ∧
      s' = { setTimeToRun s i (s.eeCycles.count + d) with
        closestEventTime := min (s.eeCycles.count + d) s.closestEventTime } := by
  simp only [updateTimerEventTime, Option.bind_eq_bind, Option.bind_eq_some_iff,
    Option.pure_def, Option.some.injEq] at h
  obtain ⟨t, ht, d, hd, time, htime, i, hi, rfl⟩ := h
  obtain ⟨rfl, -, hlt⟩ := addInt64_eq_some htime
  exact ⟨t, d, i, ht, hd, hlt, hi, rfl⟩

theorem updateTimerEventTime_moves {s s' : Scheduler} {id : ℕ} (hb : Bounded s)
    (h : updateTimerEventTime s id = some s') : Moves s s' := by
  obtain ⟨t, d, i, -, hd, -, -, rfl⟩ := updateTimerEventTime_eq_some h
  have := eight_le_delta hd
  exact moves_setTimeToRun i (s.eeCycles.count + d) hb rfl (by omega) le_rfl rfl rfl

theorem updateTimerCounter_eq_some {s s' : Scheduler} {id : ℕ}
    (h : updateTimerCounter s id = some s') :
    ∃ t, s.timers[id]? = some t ∧
      ((t.paused = true ∧ s' = s) ∨ (t.paused = false ∧ t.clockrate ≠ 0 ∧ clockScale t ≠ 0 ∧
        s' = setTimer s id (advanceCounter t s.eeCycles.count))) := by
  simp only [updateTimerCounter, Option.bind_eq_bind, Option.bind_eq_some_iff] at h
  obtain ⟨t, ht, h⟩ := h
  refine ⟨t, ht, ?_⟩
  split_ifs at h with h1 h2
  · exact Or.inl ⟨h1, (Option.some.inj h).symm⟩
  · rw [not_or] at h2
    exact Or.inr ⟨by simpa using h1, h2.1, h2.2, (Option.some.inj h).symm⟩

theorem updateTimerCounter_moves {s s' : Scheduler} {id : ℕ}
    (h : updateTimerCounter s id = some s') : Moves s s' := by
  obtain ⟨t, -, ⟨-, rfl⟩ | ⟨-, -, -, rfl⟩⟩ := updateTimerCounter_eq_some h
  · exact Moves.refl _
  · exact moves_of_events_eq rfl rfl rfl rfl

/-- The first half of the mutators: an un-paused timer's counter is brought up to date. -/
theorem freshen_eq_some {s s1 : Scheduler} {id : ℕ} {t : SchedulerTimer}
    (ht : s.timers[id]? = some t)
    (h : (if t.paused then some s else updateTimerCounter s id) = some s1) :
    (t.paused = true ∧ s1 = s) ∨ (t.paused = false ∧ t.clockrate ≠ 0 ∧ clockScale t ≠ 0 ∧
      s1 = setTimer s id (advanceCounter t s.eeCycles.count)) := by
  split_ifs at h with hp
  · exact Or.inl ⟨hp, (Option.some.inj h).symm⟩
  · obtain ⟨t', ht', ⟨hp', -⟩ | h'⟩ := updateTimerCounter_eq_some h
    · rw [ht] at ht'; cases ht'; exact absurd hp' hp
    · rw [ht] at ht'; cases ht'; exact Or.inr h'

theorem getTimerCounter_eq_some {s s' : Scheduler} {id : ℕ} {c : ℤ}
    (h : getTimerCounter s id = some (c, s')) :
    ∃ t, s.timers[id]? = some t ∧
      ((t.paused = true ∧ s' = s) ∨ (t.paused = false ∧ t.clockrate ≠ 0 ∧ clockScale t ≠ 0 ∧
        s' = setTimer s id (advanceCounter t s.eeCycles.count))) := by
  simp only [getTimerCounter, Option.bind_eq_bind, Option.bind_eq_some_iff, Option.pure_def,
    Option.some.injEq, Prod.mk.injEq] at h
  obtain ⟨t, ht, s1, hs1, t1, -, -, rfl⟩ := h
  exact ⟨t, ht, freshen_eq_some ht hs1⟩

theorem getTimerCounter_moves {s s' : Scheduler} {id : ℕ} {c : ℤ}
    (h : getTimerCounter s id = some (c, s')) : Moves s s' := by
  obtain ⟨t, -, ⟨-, rfl⟩ | ⟨-, -, -, rfl⟩⟩ := getTimerCounter_eq_some h
  · exact Moves.refl _
  · exact moves_of_events_eq rfl rfl rfl rfl

theorem setTimerField_eq_some {s s' : Scheduler} {id : ℕ} {f : SchedulerTimer → SchedulerTimer}
    (h : setTimerField s id f = some s') :
    ∃ t, s.timers[id]? = some t ∧
      ((t.paused = true ∧ s' = setTimer s id (f t)) ∨
       (t.paused = false ∧ t.clockrate ≠ 0 ∧ clockScale t ≠ 0 ∧
        updateTimerEventTime (setTimer s id (f (advanceCounter t s.eeCycles.count))) id
          = some s')) := by
  simp only [setTimerField, Option.bind_eq_bind, Option.bind_eq_some_iff] at h
  obtain ⟨t, ht, s1, hs1, t1, ht1, h⟩ := h
  refine ⟨t, ht, ?_⟩
  have hlt : id < s.timers.length := (List.getElem?_eq_some_iff.mp ht).1
  rcases freshen_eq_some ht hs1 with ⟨hp, rfl⟩ | ⟨hp, hc, hk, rfl⟩
  · rw [ht] at ht1; cases ht1
    rw [if_pos hp] at h
    exact Or.inl ⟨hp, (Option.some.inj h).symm⟩
  · rw [hp] at h
    simp only [setTimer, List.getElem?_set_self hlt, Option.some.injEq] at ht1
    subst ht1
    refine Or.inr ⟨hp, hc, hk, ?_⟩
    simpa [setTimer, List.set_set] using h

theorem setTimerField_moves {s s' : Scheduler} {id : ℕ} {f : SchedulerTimer → SchedulerTimer}
    (hb : Bounded s) (h : setTimerField s id f = some s') : Moves s s' := by
  obtain ⟨t, -, ⟨-, rfl⟩ | ⟨-, -, -, h⟩⟩ := setTimerField_eq_some h
  · exact moves_of_events_eq rfl rfl rfl rfl
  · have hm : Moves s (setTimer s id (f (advanceCounter t s.eeCycles.count))) :=
      moves_of_events_eq rfl rfl rfl rfl
    have := updateTimerEventTime_moves (hm.bounded hb) h
    exact ⟨this.events, this.closest_le, this.next_le, this.eeCycles⟩

/-- Un-pausing re-arms the event of the timer as it was, paused. -/
theorem setTimerPause_eq_some {s s' : Scheduler} {id : ℕ} {p : Bool}
    (h : setTimerPause s id p = some s') :
    ∃ t, s.timers[id]? = some t ∧
      ((p = t.paused ∧ s' = s) ∨
       (p = true ∧ t.paused = false ∧ t.clockrate ≠ 0 ∧ clockScale t ≠ 0 ∧
          ∃ i, getEventPtr s t.eventId = some i ∧
            s' = setTimer (setTimeToRun s i timestampMax) id
              { advanceCounter t s.eeCycles.count with paused := true }) ∨
       (p = false ∧ t.paused = true ∧ ∃ s1, updateTimerEventTime s id = some s1 ∧
          s' = setTimer s1 id { t with lastUpdate := s.eeCycles.count, paused := false })) := by
  simp only [setTimerPause, Option.bind_eq_bind, Option.bind_eq_some_iff] at h
  obtain ⟨t, ht, h⟩ := h
  refine ⟨t, ht, ?_⟩
  have hlt : id < s.timers.length := (List.getElem?_eq_some_iff.mp ht).1
  split_ifs at h with h1 h2
  · exact Or.inl ⟨h1, (Option.some.inj h).symm⟩
  · simp only [Option.bind_eq_some_iff, Option.map_eq_some_iff] at h
    obtain ⟨s1, hs1, t1, ht1, i, hi, h⟩ := h
    have hp : t.paused = false := by cases hq : t.paused <;> simp_all
    obtain ⟨t', ht', ⟨hp', -⟩ | ⟨-, hc, hk, rfl⟩⟩ := updateTimerCounter_eq_some hs1
    · rw [ht] at ht'; cases ht'; rw [hp] at hp'; cases hp'
    · rw [ht] at ht'; cases ht'
      simp only [setTimer, List.getElem?_set_self hlt, Option.some.injEq] at ht1
      subst ht1
      refine Or.inr (Or.inl ⟨h2, hp, hc, hk, i, ?_, ?_⟩)
      · have hid : (advanceCounter t s.eeCycles.count).eventId = t.eventId := by
          unfold advanceCounter; dsimp only; split_ifs <;> rfl
        rwa [hid] at hi
      · rw [← h]
        simp [setTimer, setTimeToRun, List.set_set]
  · simp only [Option.map_eq_some_iff] at h
    obtain ⟨s1, hs1, h⟩ := h
    have hp : p = false := by simpa using h2
    have ht' : t.paused = true := by cases hq : t.paused <;> simp_all
    exact Or.inr (Or.inr ⟨hp, ht', s1, hs1, h.symm⟩)

theorem setTimerPause_moves {s s' : Scheduler} {id : ℕ} {p : Bool} (hb : Bounded s)
    (h : setTimerPause s id p = some s') : Moves s s' := by
  obtain ⟨t, -, ⟨-, rfl⟩ | ⟨-, -, -, -, i, -, rfl⟩ | ⟨-, -, s1, h1, rfl⟩⟩ := setTimerPause_eq_some h
  · exact Moves.refl _
  · refine moves_setTimeToRun i timestampMax hb rfl hb.count_max ?_ rfl rfl
    exact le_min hb.closest_max le_rfl
  · have := updateTimerEventTime_moves hb h1
    exact ⟨this.events, this.closest_le, this.next_le, this.eeCycles⟩

/-- `restart_timer` gives the timer a new event. The due time `add_event` first gives it overflows,
and is replaced at once; only `closestEventTime` has taken it in. -/
theorem restartTimer_eq_some {s s' : Scheduler} {id : ℕ}
    (hid : ∀ e ∈ s.events, e.eventId < s.nextEventId) (h : restartTimer s id = some s') :
    ∃ t d, s.timers[id]? = some t ∧
      calculateTimerEventDelta { t with eventId := s.nextEventId } = some d ∧
      s.eeCycles.count + d < 2 ^ 63 ∧
      s' = { s with
        timers := s.timers.set id { t with eventId := s.nextEventId }
        nextEventId := s.nextEventId + 1
        events := s.events ++ [⟨s.nextEventId, s.eeCycles.count + d, id, s.timerEventId⟩]
        closestEventTime := min (s.eeCycles.count + d)
          (min (int64 (s.eeCycles.count + timestampMax.toNat)) s.closestEventTime) } := by
  simp only [restartTimer, Option.bind_eq_bind, Option.bind_eq_some_iff] at h
  obtain ⟨t, ht, ⟨n, s1⟩, h1, h⟩ := h
  obtain ⟨rfl, rfl⟩ := addEvent_eq_some h1
  have hlt : id < s.timers.length := (List.getElem?_eq_some_iff.mp ht).1
  obtain ⟨t', d, i, ht', hd, hlim, hi, rfl⟩ := updateTimerEventTime_eq_some h
  simp only [setTimer, List.getElem?_set_self hlt, Option.some.injEq] at ht'
  subst ht'
  refine ⟨t, d, ht, hd, hlim, ?_⟩
  have hnone : s.events.findIdx? (fun e => e.eventId == s.nextEventId) = none := by
    rw [List.findIdx?_eq_none_iff]
    intro e he
    have := hid e he
    simp only [beq_eq_false_iff_ne, ne_eq]
    omega
  have hi' : i = s.events.length := by
    simp only [getEventPtr, setTimer, List.findIdx?_append, hnone, List.findIdx?_singleton] at hi
    simpa [eq_comm] using hi
  subst hi'
  have hmod : ∀ e : SchedulerEvent, (s.events ++ [e]).modify s.events.length
      (fun e => { e with timeToRun := s.eeCycles.count + d }) =
        s.events ++ [{ e with timeToRun := s.eeCycles.count + d }] := fun e => by
    rw [List.modify_eq_take_cons_drop (by simp)]; simp
  simp only [setTimeToRun, setTimer, hmod]

theorem restartTimer_moves {s s' : Scheduler} {id : ℕ} (hb : Bounded s)
    (h : restartTimer s id = some s') : Moves s s' := by
  obtain ⟨t, d, -, hd, -, rfl⟩ := restartTimer_eq_some hb.id_lt h
  have h8 := eight_le_delta hd
  refine ⟨fun e he => ?_, (min_le_right _ _).trans (min_le_right _ _), Nat.le_succ _, rfl⟩
  rcases List.mem_append.mp he with he | he
  · exact Or.inl ⟨e, he, rfl, rfl⟩
  · rw [List.mem_singleton] at he
    subst he
    exact Or.inr ⟨by show _ ≤ s.eeCycles.count + d; omega, min_le_left _ _, Nat.lt_succ_self _⟩

end DobieStation.Timing.Events
