import DobieStation.Timing.Armed

/-! # What an operation leaves of the timers

While the clock stands still the operations of the other components leave the events in their
places, and of a timer its event, its mask and, unless they set it within its range, the value of
its counter (`op_follows`). A timer brought up to date stays so. -/

namespace DobieStation.Timing.Operations

open DobieStation.Timing.Model DobieStation.Timing.Events DobieStation.Timing.Counter
open DobieStation.Timing.Armed

/-- At the cycle `now` the timer has been brought up to date, if it is running. -/
def Fresh (t : SchedulerTimer) (now : ℤ) : Prop := t.paused = true ∨ t.lastUpdate = now

/-- What becomes of one timer at the cycle `now`: its counter is the same, or was set within its
range. -/
structure TimerFollows (now : ℤ) (t t' : SchedulerTimer) : Prop where
  eventId : t'.eventId = t.eventId
  mask : t'.overflowMask = t.overflowMask
  value : valueAt t' now ≤ max (valueAt t now) t.overflowMask
  fresh : Fresh t now → Fresh t' now

/-- `s'` follows `s` by operations of the other components. -/
structure Follows (s s' : Scheduler) : Prop where
  clock : s'.eeCycles = s.eeCycles
  func : s'.timerEventId = s.timerEventId
  closest : s'.closestEventTime ≤ s.closestEventTime
  keys : s.events.map key <+: s'.events.map key
  timers : ∀ (id : ℕ) t, s.timers[id]? = some t →
    ∃ t', s'.timers[id]? = some t' ∧ TimerFollows s.eeCycles.count t t'

theorem TimerFollows.refl (now : ℤ) (t : SchedulerTimer) : TimerFollows now t t :=
  ⟨rfl, rfl, le_max_left _ _, id⟩

theorem Follows.refl (s : Scheduler) : Follows s s :=
  ⟨rfl, rfl, le_rfl, List.prefix_rfl, fun _ t ht => ⟨t, ht, TimerFollows.refl _ t⟩⟩

theorem Follows.trans {s s' s'' : Scheduler} (h : Follows s s') (h' : Follows s' s'') :
    Follows s s'' := by
  refine ⟨h'.clock.trans h.clock, h'.func.trans h.func, h'.closest.trans h.closest,
    h.keys.trans h'.keys, fun id t ht => ?_⟩
  obtain ⟨t', ht', f⟩ := h.timers id t ht
  obtain ⟨t'', ht'', f'⟩ := h'.timers id t' ht'
  rw [h.clock] at f'
  refine ⟨t'', ht'', f'.eventId.trans f.eventId, f'.mask.trans f.mask, ?_,
    fun hf => f'.fresh (f.fresh hf)⟩
  have h1 := f.value
  have h2 := f'.value
  have := f.mask
  omega

/-- An event keeps its place. -/
theorem Follows.event {s s' : Scheduler} (h : Follows s s') {i : ℕ} {e : SchedulerEvent}
    (he : s.events[i]? = some e) : ∃ e', s'.events[i]? = some e' ∧ key e' = key e := by
  have h1 : (s.events.map key)[i]? = some (key e) := by rw [List.getElem?_map, he]; rfl
  have hlt : i < (s.events.map key).length := (List.getElem?_eq_some_iff.mp h1).1
  obtain ⟨l, hl⟩ := h.keys
  have h2 : (s'.events.map key)[i]? = some (key e) := by
    rw [← hl, List.getElem?_append_left hlt, h1]
  rw [List.getElem?_map] at h2
  exact Option.map_eq_some_iff.mp h2

variable {s s' : Scheduler} {stale : List ℕ}

/-- One timer changes. -/
theorem follows_of_set {id : ℕ} {t t' : SchedulerTimer} (ht : s.timers[id]? = some t)
    (hee : s'.eeCycles = s.eeCycles) (hf : s'.timerEventId = s.timerEventId)
    (hc : s'.closestEventTime ≤ s.closestEventTime)
    (hk : s'.events.map key = s.events.map key) (hts : s'.timers = s.timers.set id t')
    (hft : TimerFollows s.eeCycles.count t t') : Follows s s' := by
  refine ⟨hee, hf, hc, hk ▸ List.prefix_rfl, fun j tj hj => ?_⟩
  rw [hts]
  by_cases hij : id = j
  · subst hij
    rw [ht] at hj
    cases hj
    exact ⟨t', List.getElem?_set_self (List.getElem?_eq_some_iff.mp ht).1, hft⟩
  · exact ⟨tj, by rw [List.getElem?_set_ne hij]; exact hj, TimerFollows.refl _ tj⟩

theorem valueAt_fresh {t : SchedulerTimer} {now : ℤ} (h : Ranged t now) (hf : Fresh t now) :
    valueAt t now = t.counter := by
  unfold valueAt
  split_ifs with hp
  · rfl
  · rw [← hf.resolve_left hp, counterAt_last h.sound]

theorem counter_le_valueAt {t : SchedulerTimer} {now : ℤ} (h : Ranged t now) :
    t.counter ≤ valueAt t now := by
  unfold valueAt
  split_ifs with hp
  · exact le_rfl
  · exact counter_le_counterAt h.sound h.last_le

theorem advance_follows {t : SchedulerTimer} {now : ℤ} (h : Ranged t now) (hnow : now < 2 ^ 54)
    (hp : t.paused = false) : TimerFollows now t (advanceCounter t now) := by
  have hat := (h.sound.fits hnow).counterAt_advance now
  have hadv := advanceCounter_eq h.sound hnow
  refine ⟨advance_eventId t now, by rw [hadv], ?_, fun _ => Or.inr (by rw [hadv])⟩
  have hp' : (advanceCounter t now).paused = false := by rw [hadv]; exact hp
  simp only [valueAt, hp, hp', hat]
  exact le_max_left _ _

/-- The three mutators. -/
theorem setTimerField_follows (h : AllArmed s stale) {l' : List ℕ} (h' : AllArmed s' l') {id : ℕ}
    {f : SchedulerTimer → SchedulerTimer} (hid : ∀ t, (f t).eventId = t.eventId)
    (hpause : ∀ t, (f t).paused = t.paused) (hlast : ∀ t, (f t).lastUpdate = t.lastUpdate)
    (hmask : ∀ t, (f t).overflowMask = t.overflowMask)
    (hcount : ∀ t ∈ s.timers[id]?, ∀ t', t'.overflowMask = t.overflowMask →
      (f t').counter ≤ max t'.counter t'.overflowMask)
    (hs : setTimerField s id f = some s') : Follows s s' := by
  obtain ⟨t, ht, ⟨hp, rfl⟩ | ⟨hp, -, -, hu⟩⟩ := setTimerField_eq_some hs
  · refine follows_of_set ht rfl rfl le_rfl rfl rfl ⟨hid t, hmask t, ?_, fun _ => ?_⟩
    · have hpf : (f t).paused = true := by rw [hpause, hp]
      simp only [valueAt, hpf, hp]
      exact hcount t ht t rfl
    · exact Or.inl (by rw [hpause, hp])
  · have hrt := h.ranged id t ht
    have hadv := advanceCounter_eq hrt.sound h.clock
    have hlt : id < s.timers.length := (List.getElem?_eq_some_iff.mp ht).1
    have hnow : (f (advanceCounter t s.eeCycles.count)).lastUpdate = s.eeCycles.count := by
      rw [hlast, hadv]
    have hc := hcount t ht (advanceCounter t s.eeCycles.count) (by rw [hadv])
    have hm : (f (advanceCounter t s.eeCycles.count)).overflowMask = t.overflowMask := by
      rw [hmask, hadv]
    obtain ⟨t'', d, i, ht'', hd, -, hi, rfl⟩ := updateTimerEventTime_eq_some hu
    have hr' := h'.ranged id (f (advanceCounter t s.eeCycles.count))
      (List.getElem?_set_self hlt)
    refine follows_of_set ht rfl rfl (min_le_right _ _) (setTimeToRun_keys _ i _) rfl
      ⟨by rw [hid, advance_eventId], hm, ?_, fun _ => Or.inr hnow⟩
    have hv := valueAt_fresh hr' (Or.inr hnow)
    have hval : valueAt t s.eeCycles.count = counterAt t s.eeCycles.count := by
      simp [valueAt, hp]
    have hcnt : (advanceCounter t s.eeCycles.count).counter = counterAt t s.eeCycles.count := by
      rw [hadv]
    have hmk : (advanceCounter t s.eeCycles.count).overflowMask = t.overflowMask := by rw [hadv]
    rw [hval]
    rw [hcnt, hmk] at hc
    exact hv.trans_le hc

theorem setTimerPause_follows (h : AllArmed s stale) {id : ℕ} {p : Bool}
    (hs : setTimerPause s id p = some s') : Follows s s' := by
  obtain ⟨t, ht, hcase⟩ := setTimerPause_eq_some hs
  have hrt := h.ranged id t ht
  rcases hcase with ⟨-, rfl⟩ | ⟨-, hp, -, -, i, hi, rfl⟩ | ⟨-, hp, s1, h1, rfl⟩
  · exact Follows.refl _
  · have hadv := advanceCounter_eq hrt.sound h.clock
    refine follows_of_set ht rfl rfl le_rfl (setTimeToRun_keys _ i _) rfl
      ⟨advance_eventId t _, by rw [hadv], ?_, fun _ => Or.inl rfl⟩
    rw [hadv]
    simp [valueAt, hp]
  · obtain ⟨t', d, i, ht', -, -, hi, rfl⟩ := updateTimerEventTime_eq_some h1
    refine follows_of_set ht rfl rfl (min_le_right _ _) (setTimeToRun_keys _ i _) rfl
      ⟨rfl, rfl, ?_, fun _ => Or.inr rfl⟩
    have h0 := Lib.Accumulator.ticks_zero hrt.rem_nonneg hrt.rem_lt
    have hsc : clockScale { t with lastUpdate := s.eeCycles.count, paused := false } =
        clockScale t := clockScale_congr rfl
    simp [valueAt, counterAt, hp, hsc, h0]

/-- **What an operation that fits leaves** of the timers and the events. -/
theorem op_follows (h : AllArmed s stale) {o : Op} (hfit : Fits s o) (hs : o.apply s = some s') :
    Follows s s' := by
  have h' := op_inv h hfit hs
  cases o with
  | addEvent f d p =>
    obtain ⟨⟨n, s1⟩, h1, rfl⟩ := Option.map_eq_some_iff.mp hs
    obtain ⟨-, rfl⟩ := addEvent_eq_some h1
    exact ⟨rfl, rfl, min_le_right _ _, by simp, fun _ t ht => ⟨t, ht, TimerFollows.refl _ t⟩⟩
  | createTimer c m p =>
    obtain ⟨⟨n, s1⟩, h1, rfl⟩ := Option.map_eq_some_iff.mp hs
    unfold createTimer at h1
    split_ifs at h1
    simp only [Option.bind_eq_bind, Option.bind_eq_some_iff, Option.pure_def, Option.some.injEq,
      Prod.mk.injEq] at h1
    obtain ⟨⟨n', s1⟩, h2, -, rfl⟩ := h1
    obtain ⟨-, rfl⟩ := addEvent_eq_some h2
    refine ⟨rfl, rfl, min_le_right _ _, by simp, fun id t ht => ⟨t, ?_, TimerFollows.refl _ t⟩⟩
    exact (List.getElem?_append_left (List.getElem?_eq_some_iff.mp ht).1).trans ht
  | getTimerCounter id =>
    obtain ⟨⟨c, s1⟩, h1, rfl⟩ := Option.map_eq_some_iff.mp hs
    obtain ⟨t, ht, ⟨-, rfl⟩ | ⟨hp, -, -, rfl⟩⟩ := getTimerCounter_eq_some h1
    · exact Follows.refl _
    · exact follows_of_set ht rfl rfl le_rfl rfl rfl
        (advance_follows (h.ranged id t ht) h.clock hp)
  | setTimerCounter id v =>
    refine setTimerField_follows (f := fun t => { t with counter := int64 v }) h h' (fun _ => rfl)
      (fun _ => rfl) (fun _ => rfl) (fun _ => rfl) (fun t ht t' hm => ?_) hs
    have hv := hfit t ht
    have hlt := (h.ranged id t ht).mask_lt
    have hw : int64 (v : ℤ) = v := int64_of_range (by omega) (by omega)
    dsimp only
    omega
  | setTimerTarget id v =>
    exact setTimerField_follows (f := fun t => { t with target := int64 v }) h h' (fun _ => rfl)
      (fun _ => rfl) (fun _ => rfl) (fun _ => rfl) (fun _ _ _ _ => le_max_left _ _) hs
  | setTimerClockrate id r =>
    exact setTimerField_follows
      (f := fun t => { t with clockrate := int64 r, remainderClocks := 0 }) h h' (fun _ => rfl)
      (fun _ => rfl) (fun _ => rfl) (fun _ => rfl) (fun _ _ _ _ => le_max_left _ _) hs
  | setTimerPause id p => exact setTimerPause_follows h hs
  | setTimerIntMask id o t =>
    simp only [Op.apply, setTimerIntMask, Option.bind_eq_bind, Option.bind_eq_some_iff,
      Option.pure_def, Option.some.injEq] at hs
    obtain ⟨t, ht, rfl⟩ := hs
    exact follows_of_set ht rfl rfl le_rfl rfl rfl ⟨rfl, rfl, le_max_left _ _, fun hf => hf⟩
  | registerFunction =>
    cases hs
    exact ⟨rfl, rfl, le_rfl, List.prefix_rfl, fun _ t ht => ⟨t, ht, TimerFollows.refl _ t⟩⟩
  | registerTimerCallback =>
    cases hs
    exact ⟨rfl, rfl, le_rfl, List.prefix_rfl, fun _ t ht => ⟨t, ht, TimerFollows.refl _ t⟩⟩

end DobieStation.Timing.Operations
