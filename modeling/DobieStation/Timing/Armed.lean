import DobieStation.Timing.Counter
import Mathlib.Data.List.Nodup

/-! # Every timer keeps its event armed

Each timer owns one pending event: the one with its id, which carries the timer's number and the
scheduler's own function. `AllArmed` says that this holds of every timer, that the event of a
running timer is `Armed`, and that of a paused one is parked far in the future. Un-pausing leaves
the event parked: the ids of the events parked so are listed in `stale`, and an id leaves the list
as soon as an operation re-arms its event (`stale'`).

`op_inv` is the step lemma over the operations of the other components; `op_follows` says what one
of them leaves of the other timers and of the order of the events. -/

namespace DobieStation.Timing.Armed

open DobieStation.Timing.Model DobieStation.Timing.Events DobieStation.Timing.Counter

/-! ### Ownership -/

/-- What an event keeps for as long as it is in the list. -/
def key (e : SchedulerEvent) : ℕ × ℕ × ℤ := (e.eventId, e.param, e.funcId)

/-- What holds of the due time of a timer's event: parked as long as the timer is paused or its
event is stale, armed otherwise. -/
def Status (stale : List ℕ) (t : SchedulerTimer) (time : ℤ) : Prop :=
  if t.paused = true ∨ t.eventId ∈ stale then pausedDelta ≤ time else Armed t time

/-- The timer `id` owns an event of the list `events`. -/
def Owns (stale : List ℕ) (func : ℤ) (events : List SchedulerEvent) (id : ℕ)
    (t : SchedulerTimer) : Prop :=
  ∃ e ∈ events, key e = (t.eventId, id, func) ∧ Status stale t e.timeToRun

/-- **The invariant** between two operations. -/
structure AllArmed (s : Scheduler) (stale : List ℕ) : Prop where
  bounded : Bounded s
  clock : s.eeCycles.count < 2 ^ 54
  ids : (s.events.map (·.eventId)).Nodup
  stale_lt : ∀ x ∈ stale, x < s.nextEventId
  ranged : ∀ (id : ℕ) t, s.timers[id]? = some t → Ranged t s.eeCycles.count
  owns : ∀ (id : ℕ) t, s.timers[id]? = some t → Owns stale s.timerEventId s.events id t
  owner : ∀ e ∈ s.events, e.funcId = s.timerEventId →
    ∃ t, s.timers[e.param]? = some t ∧ t.eventId = e.eventId

theorem eq_of_eventId {events : List SchedulerEvent} (h : (events.map (·.eventId)).Nodup)
    {e e' : SchedulerEvent} (he : e ∈ events) (he' : e' ∈ events) (hid : e.eventId = e'.eventId) :
    e = e' :=
  List.inj_on_of_nodup_map h he he' hid

/-- Different timers own different events. -/
theorem AllArmed.eventId_ne {s : Scheduler} {stale : List ℕ} (h : AllArmed s stale) {i j : ℕ}
    {ti tj : SchedulerTimer} (hi : s.timers[i]? = some ti) (hj : s.timers[j]? = some tj)
    (hne : i ≠ j) : ti.eventId ≠ tj.eventId := by
  intro heq
  obtain ⟨e, he, hk, -⟩ := h.owns i ti hi
  obtain ⟨e', he', hk', -⟩ := h.owns j tj hj
  simp only [key, Prod.mk.injEq] at hk hk'
  have := eq_of_eventId h.ids he he' (by rw [hk.1, hk'.1, heq])
  subst this
  omega

theorem nodup_of_keys {l l' : List SchedulerEvent} (hk : l'.map key = l.map key)
    (h : (l.map (·.eventId)).Nodup) : (l'.map (·.eventId)).Nodup := by
  have : ∀ l : List SchedulerEvent, l.map (·.eventId) = (l.map key).map Prod.fst := fun l => by
    rw [List.map_map]; rfl
  rwa [this, hk, ← this]

theorem mem_of_key {l l' : List SchedulerEvent} (hk : l'.map key = l.map key)
    {e : SchedulerEvent} (he : e ∈ l') : ∃ e₀ ∈ l, key e₀ = key e := by
  have : key e ∈ l.map key := hk ▸ List.mem_map_of_mem he
  exact List.mem_map.mp this

/-! ### Moving one event -/

theorem getEventPtr_eq_some {s : Scheduler} {id i : ℕ} (h : getEventPtr s id = some i) :
    ∃ e, s.events[i]? = some e ∧ e.eventId = id := by
  unfold getEventPtr at h
  obtain ⟨hlt, he, -⟩ := List.findIdx?_eq_some_iff_getElem.mp h
  exact ⟨_, List.getElem?_eq_getElem hlt, by simpa using he⟩

theorem setTimeToRun_keys (s : Scheduler) (i : ℕ) (time : ℤ) :
    (setTimeToRun s i time).events.map key = s.events.map key := by
  refine List.ext_getElem? fun k => ?_
  simp only [setTimeToRun, List.getElem?_map, List.getElem?_modify]
  split_ifs <;> cases s.events[k]? <;> rfl

theorem mem_setTimeToRun_of_ne {s : Scheduler} {i id : ℕ} {time : ℤ}
    (hi : getEventPtr s id = some i) {e : SchedulerEvent} (he : e ∈ s.events) (hne : e.eventId ≠ id) :
    e ∈ (setTimeToRun s i time).events := by
  obtain ⟨e₀, h0, hid⟩ := getEventPtr_eq_some hi
  obtain ⟨k, hk⟩ := List.mem_iff_getElem?.mp he
  refine List.mem_iff_getElem?.mpr ⟨k, ?_⟩
  have : i ≠ k := by rintro rfl; rw [h0] at hk; cases hk; exact hne hid
  rw [setTimeToRun, List.getElem?_modify_ne _ _ this, hk]

theorem mem_setTimeToRun_self {s : Scheduler} {i id : ℕ} (time : ℤ)
    (hi : getEventPtr s id = some i) :
    ∃ e ∈ s.events, e.eventId = id ∧
      { e with timeToRun := time } ∈ (setTimeToRun s i time).events := by
  obtain ⟨e, he, hid⟩ := getEventPtr_eq_some hi
  refine ⟨e, List.mem_of_getElem? he, hid, List.mem_iff_getElem?.mpr ⟨i, ?_⟩⟩
  simp [setTimeToRun, he]

/-! ### One timer changes -/

variable {s s' : Scheduler} {stale : List ℕ}

theorem Status.congr {l l' : List ℕ} {t : SchedulerTimer} {time : ℤ}
    (h : t.eventId ∈ l' ↔ t.eventId ∈ l) (hs : Status l t time) : Status l' t time := by
  unfold Status at *
  simpa only [h] using hs

/-- Timer `id` becomes `t'`, and of the events at most its own is moved. -/
theorem AllArmed.update (h : AllArmed s stale) {l' : List ℕ} {id : ℕ} {t t' : SchedulerTimer}
    {evs : List SchedulerEvent} {closest : ℤ} (ht : s.timers[id]? = some t)
    (hb : Bounded { s with
      timers := s.timers.set id t', events := evs, closestEventTime := closest })
    (hid : t'.eventId = t.eventId) (hkeys : evs.map key = s.events.map key)
    (hother : ∀ e ∈ s.events, e.eventId ≠ t.eventId → e ∈ evs)
    (hown : Owns l' s.timerEventId evs id t') (hr : Ranged t' s.eeCycles.count)
    (hl : ∀ x, x ≠ t.eventId → (x ∈ l' ↔ x ∈ stale)) :
    AllArmed { s with
      timers := s.timers.set id t', events := evs, closestEventTime := closest } l' := by
  have hlt : id < s.timers.length := (List.getElem?_eq_some_iff.mp ht).1
  have hget : ∀ j tj, (s.timers.set id t')[j]? = some tj →
      (j = id ∧ tj = t') ∨ (j ≠ id ∧ s.timers[j]? = some tj) := by
    intro j tj hj
    rw [List.getElem?_set] at hj
    by_cases hji : id = j
    · subst hji
      rw [if_pos rfl, if_pos hlt] at hj
      exact Or.inl ⟨rfl, (Option.some.inj hj).symm⟩
    · rw [if_neg hji] at hj
      exact Or.inr ⟨fun hc => hji hc.symm, hj⟩
  refine ⟨hb, h.clock, nodup_of_keys hkeys h.ids, fun x hx => ?_, fun j tj hj => ?_,
    fun j tj hj => ?_, fun e he hf => ?_⟩
  · by_cases hxt : x = t.eventId
    · subst hxt
      obtain ⟨e, he, hk, -⟩ := h.owns id t ht
      simp only [key, Prod.mk.injEq] at hk
      exact hk.1 ▸ h.bounded.id_lt e he
    · exact h.stale_lt x ((hl x hxt).mp hx)
  · rcases hget j tj hj with ⟨rfl, rfl⟩ | ⟨-, hj'⟩
    · exact hr
    · exact h.ranged j tj hj'
  · rcases hget j tj hj with ⟨rfl, rfl⟩ | ⟨hne, hj'⟩
    · exact hown
    · have hid' := h.eventId_ne hj' ht hne
      obtain ⟨e, he, hk, hs⟩ := h.owns j tj hj'
      refine ⟨e, hother e he ?_, hk, hs.congr (hl _ hid')⟩
      simp only [key, Prod.mk.injEq] at hk
      rwa [hk.1]
  · obtain ⟨e₀, he₀, hk⟩ := mem_of_key hkeys he
    simp only [key, Prod.mk.injEq] at hk
    obtain ⟨hk1, hk2, hk3⟩ := hk
    obtain ⟨t₀, ht₀, hid₀⟩ := h.owner e₀ he₀ (hk3.trans hf)
    rw [← hk2]
    by_cases hp : e₀.param = id
    · rw [hp] at ht₀
      rw [ht] at ht₀
      cases ht₀
      exact ⟨t', by simp [hp, hlt], by omega⟩
    · exact ⟨t₀, by rw [List.getElem?_set_ne (fun hc => hp hc.symm)]; exact ht₀, by omega⟩

/-- A timer changes and its event is left where it is. -/
theorem AllArmed.setTimer (h : AllArmed s stale) {l' : List ℕ} {id : ℕ} {t t' : SchedulerTimer}
    (ht : s.timers[id]? = some t) (hid : t'.eventId = t.eventId)
    (hst : ∀ time, s.eeCycles.count ≤ time → Status stale t time → Status l' t' time)
    (hr : Ranged t' s.eeCycles.count) (hl : ∀ x, x ≠ t.eventId → (x ∈ l' ↔ x ∈ stale)) :
    AllArmed (setTimer s id t') l' := by
  obtain ⟨e, he, hk, hs⟩ := h.owns id t ht
  have hm : Moves s (Model.setTimer s id t') := moves_of_events_eq rfl rfl rfl rfl
  refine h.update ht (hm.bounded h.bounded) hid rfl (fun _ he _ => he)
    ⟨e, he, by rw [hk, hid], ?_⟩ hr hl
  exact hst _ (h.bounded.not_late e he) hs

/-- A timer changes and its event is moved to `time`. -/
theorem AllArmed.move (h : AllArmed s stale) {l' : List ℕ} {id i : ℕ} {t t' : SchedulerTimer}
    {time closest : ℤ} (ht : s.timers[id]? = some t) (hi : getEventPtr s t.eventId = some i)
    (htime : s.eeCycles.count ≤ time) (hc : closest ≤ min time s.closestEventTime)
    (hid : t'.eventId = t.eventId) (hst : Status l' t' time) (hr : Ranged t' s.eeCycles.count)
    (hl : ∀ x, x ≠ t.eventId → (x ∈ l' ↔ x ∈ stale)) :
    AllArmed { Model.setTimer (setTimeToRun s i time) id t' with
      closestEventTime := closest } l' := by
  have hm : Moves s { Model.setTimer (setTimeToRun s i time) id t' with
      closestEventTime := closest } := moves_setTimeToRun i time h.bounded rfl htime hc rfl rfl
  refine h.update ht (hm.bounded h.bounded) hid (setTimeToRun_keys s i time)
    (fun e he hne => mem_setTimeToRun_of_ne hi he hne) ?_ hr hl
  obtain ⟨e, he, hide, hmem⟩ := mem_setTimeToRun_self time hi
  obtain ⟨e', he', hk', -⟩ := h.owns id t ht
  have : e = e' := eq_of_eventId h.ids he he' (by
    simp only [key, Prod.mk.injEq] at hk'; rw [hide, hk'.1])
  subst this
  exact ⟨_, hmem, by rw [hid]; exact hk', hst⟩

/-! ### The operations -/

/-- The timer is paused, or its counter is not past the overflow at the cycle `now`. -/
def InCount (t : SchedulerTimer) (now : ℤ) : Prop :=
  t.paused = true ∨ counterAt t now ≤ t.overflowMask + 1

instance (t : SchedulerTimer) (now : ℤ) : Decidable (InCount t now) :=
  inferInstanceAs (Decidable (_ ∨ _))

/-- The operations that keep every running timer armed. The scheduler's own function is left to the
scheduler; a counter is set within the range of the timer; the clock rate is close enough to a
whole number of 256ths of an EE cycle a tick; and the target and the clock rate of a running timer
are set while it is not past the overflow, where the distance to it wraps. -/
def Fits (s : Scheduler) : Op → Prop
  | .addEvent f delta _ => s.eeCycles.count + delta < 2 ^ 63 ∧ f ≠ s.timerEventId
  | .createTimer _ m _ => s.eeCycles.count = 0 ∧ 7 ≤ m ∧ m < 2 ^ 32
  | .setTimerCounter id v => ∀ t ∈ s.timers[id]?, (v : ℤ) ≤ t.overflowMask
  | .setTimerTarget id _ => ∀ t ∈ s.timers[id]?, InCount t s.eeCycles.count
  | .setTimerClockrate id r =>
    ∀ t ∈ s.timers[id]?, RateOk t.overflowMask r ∧ InCount t s.eeCycles.count
  | _ => True

instance (s : Scheduler) (o : Op) : Decidable (Fits s o) := by
  cases o <;> unfold Fits <;> infer_instance

/-- The event of timer `id`, if the timer is running, is re-armed. -/
def rearmed (s : Scheduler) (id : ℕ) (stale : List ℕ) : List ℕ :=
  match s.timers[id]? with
  | some t => if t.paused then stale else stale.filter (· ≠ t.eventId)
  | none => stale

/-- The stale events after an operation: un-pausing a timer leaves its event parked, the three
mutators re-arm it. -/
def stale' (s : Scheduler) (stale : List ℕ) : Op → List ℕ
  | .setTimerPause id false =>
    match s.timers[id]? with
    | some t => if t.paused then t.eventId :: stale else stale
    | none => stale
  | .setTimerCounter id _ | .setTimerTarget id _ | .setTimerClockrate id _ => rearmed s id stale
  | _ => stale

theorem status_paused {l : List ℕ} {t : SchedulerTimer} {time : ℤ} (hp : t.paused = true) :
    Status l t time ↔ pausedDelta ≤ time := by
  unfold Status
  rw [if_pos (Or.inl hp)]

theorem status_stale {l : List ℕ} {t : SchedulerTimer} {time : ℤ} (hp : t.eventId ∈ l) :
    Status l t time ↔ pausedDelta ≤ time := by
  unfold Status
  rw [if_pos (Or.inr hp)]

theorem status_armed {l : List ℕ} {t : SchedulerTimer} {time : ℤ} (hp : t.paused = false)
    (hl : t.eventId ∉ l) : Status l t time ↔ Armed t time := by
  unfold Status
  rw [if_neg (by simp [hp, hl])]

/-- Bringing the counter up to date keeps what holds of the event. -/
theorem Status.advance {l : List ℕ} {t : SchedulerTimer} {now time : ℤ} (hr : Ranged t now)
    (hnow : now < 2 ^ 54) (hs : Status l t time) : Status l (advanceCounter t now) time := by
  have ha : Armed t time → Armed (advanceCounter t now) time := advance_armed hr hnow
  rw [advanceCounter_eq hr.sound hnow] at ha ⊢
  unfold Status at *
  split_ifs at * with h1
  · exact hs
  · exact ha hs

theorem advance_eventId (t : SchedulerTimer) (now : ℤ) :
    (advanceCounter t now).eventId = t.eventId := by
  unfold advanceCounter; dsimp only; split_ifs <;> rfl

/-- A running timer's counter is brought up to date. -/
theorem AllArmed.freshen (h : AllArmed s stale) {id : ℕ} {t : SchedulerTimer}
    (ht : s.timers[id]? = some t) :
    AllArmed (Model.setTimer s id (advanceCounter t s.eeCycles.count)) stale :=
  h.setTimer ht (advance_eventId _ _)
    (fun _ _ hs => hs.advance (h.ranged id t ht) h.clock)
    (advance_ranged (h.ranged id t ht) h.clock) fun _ _ => Iff.rfl

/-- The three mutators: `f` changes the counter, the target or the clock rate. -/
theorem setTimerField_inv (h : AllArmed s stale) {id : ℕ} {f : SchedulerTimer → SchedulerTimer}
    (hid : ∀ t, (f t).eventId = t.eventId) (hpause : ∀ t, (f t).paused = t.paused)
    (hlast : ∀ t, (f t).lastUpdate = t.lastUpdate)
    (hf : ∀ t ∈ s.timers[id]?, ∀ t', Ranged t' s.eeCycles.count → t'.overflowMask = t.overflowMask →
      Ranged (f t') s.eeCycles.count)
    (hmask : ∀ t ∈ s.timers[id]?, t.paused = false →
      (f (advanceCounter t s.eeCycles.count)).counter ≤
        (f (advanceCounter t s.eeCycles.count)).overflowMask + 1)
    (hs : setTimerField s id f = some s') : AllArmed s' (rearmed s id stale) := by
  obtain ⟨t, ht, ⟨hp, rfl⟩ | ⟨hp, -, -, hu⟩⟩ := setTimerField_eq_some hs
  · have hst : rearmed s id stale = stale := by simp [rearmed, ht, hp]
    rw [hst]
    refine h.setTimer ht (hid t) (fun time _ hs => ?_) (hf t ht t (h.ranged id t ht) rfl)
      fun _ _ => Iff.rfl
    rw [status_paused hp] at hs
    rwa [status_paused (by rw [hpause, hp])]
  · have hst : rearmed s id stale = stale.filter (· ≠ t.eventId) := by simp [rearmed, ht, hp]
    rw [hst]
    have hlt : id < s.timers.length := (List.getElem?_eq_some_iff.mp ht).1
    have hrt := h.ranged id t ht
    have hadv := advanceCounter_eq hrt.sound h.clock
    have hrf := hf t ht _ (advance_ranged hrt h.clock) (by rw [hadv])
    have hnow : (f (advanceCounter t s.eeCycles.count)).lastUpdate = s.eeCycles.count := by
      rw [hlast, hadv]
    have hpf : (f (advanceCounter t s.eeCycles.count)).paused = false := by
      rw [hpause, hadv]; exact hp
    have hidf : (f (advanceCounter t s.eeCycles.count)).eventId = t.eventId := by
      rw [hid, advance_eventId]
    have hcount := hmask t ht hp
    generalize f (advanceCounter t s.eeCycles.count) = t' at *
    obtain ⟨t'', d, i, ht'', hd, -, hi, rfl⟩ := updateTimerEventTime_eq_some hu
    simp only [setTimer, List.getElem?_set_self hlt, Option.some.injEq] at ht''
    subst ht''
    have harm := armed_of_delta (hnow ▸ hrf) hpf hcount hd
    rw [hnow] at harm
    have h8 := eight_le_delta hd
    refine h.move ht (hidf ▸ hi) (by show _ ≤ s.eeCycles.count + d; omega) le_rfl hidf ?_ hrf ?_
    · exact (status_armed hpf (by simp [hidf])).mpr harm
    · intro x hx
      simp [hx]

theorem setTimerPause_inv (h : AllArmed s stale) {id : ℕ} {p : Bool}
    (hs : setTimerPause s id p = some s') : AllArmed s' (stale' s stale (.setTimerPause id p)) := by
  have hmx := h.bounded.count_max
  have h0 := h.bounded.count_nonneg
  obtain ⟨t, ht, hcase⟩ := setTimerPause_eq_some hs
  have hrt := h.ranged id t ht
  rcases hcase with ⟨hp, rfl⟩ | ⟨rfl, hp, -, -, i, hi, rfl⟩ | ⟨rfl, hp, s1, h1, rfl⟩
  · cases p
    · simpa [stale', ht, ← hp] using h
    · exact h
  · have hadv := advanceCounter_eq hrt.sound h.clock
    refine h.move ht hi hmx (le_min h.bounded.closest_max le_rfl) (advance_eventId t _) ?_ ?_
      fun _ _ => Iff.rfl
    · exact (status_paused rfl).mpr (by decide)
    · have hr' := advance_ranged hrt h.clock
      exact hr'.congr rfl rfl rfl rfl hr'.counter_nonneg hr'.counter_le
  · obtain ⟨t', d, i, ht', hd, -, hi, rfl⟩ := updateTimerEventTime_eq_some h1
    rw [ht] at ht'
    cases ht'
    have hst : stale' s stale (.setTimerPause id false) = t.eventId :: stale := by
      simp [stale', ht, hp]
    have hd' : d = pausedDelta := by
      unfold calculateTimerEventDelta at hd
      rw [if_pos hp] at hd
      exact (Option.some.inj hd).symm
    have hpos : 0 ≤ pausedDelta := by decide
    rw [hst]
    have htime : s.eeCycles.count ≤ s.eeCycles.count + d := by omega
    refine h.move ht hi htime le_rfl rfl ?_ ?_ ?_
    · exact (status_stale (by simp)).mpr (by omega)
    · have hle := hrt.last_le
      have hcnt := hrt.counter_le
      exact ⟨hrt.mask_ge, hrt.mask_lt, hrt.rate, hrt.rem_nonneg, hrt.rem_lt, h0, le_rfl,
        hrt.counter_nonneg, by show t.counter ≤ 2 ^ 33 + s.eeCycles.count; omega⟩
    · intro x hx
      simp [hx]

/-- A new event with a fresh id, and maybe timers that own it. -/
theorem AllArmed.append (h : AllArmed s stale) {e : SchedulerEvent} {ts : List SchedulerTimer}
    {closest : ℤ} (he : e.eventId = s.nextEventId)
    (hb : Bounded { s with
      nextEventId := s.nextEventId + 1, closestEventTime := closest
      events := s.events ++ [e], timers := s.timers ++ ts })
    (hts : ∀ (id : ℕ) t, (s.timers ++ ts)[id]? = some t → s.timers.length ≤ id →
      Ranged t s.eeCycles.count ∧ Owns stale s.timerEventId [e] id t)
    (howner : e.funcId = s.timerEventId →
      ∃ t, (s.timers ++ ts)[e.param]? = some t ∧ t.eventId = e.eventId) :
    AllArmed { s with
      nextEventId := s.nextEventId + 1, closestEventTime := closest
      events := s.events ++ [e], timers := s.timers ++ ts } stale := by
  have hold : ∀ {id : ℕ} {t}, id < s.timers.length → (s.timers ++ ts)[id]? = some t →
      s.timers[id]? = some t := fun hlt ht => by rwa [List.getElem?_append_left hlt] at ht
  refine ⟨hb, h.clock, ?_, fun x hx => (h.stale_lt x hx).trans (Nat.lt_succ_self _),
    fun id t ht => ?_, fun id t ht => ?_, fun e' he' hf => ?_⟩
  · rw [List.map_append, List.nodup_append]
    refine ⟨h.ids, by simp, fun a ha b hb' => ?_⟩
    obtain ⟨e', he', rfl⟩ := List.mem_map.mp ha
    have := h.bounded.id_lt e' he'
    simp only [List.map_cons, List.map_nil, List.mem_singleton] at hb'
    omega
  · by_cases hlt : id < s.timers.length
    · exact h.ranged id t (hold hlt ht)
    · exact (hts id t ht (not_lt.mp hlt)).1
  · by_cases hlt : id < s.timers.length
    · obtain ⟨e', he', hk⟩ := h.owns id t (hold hlt ht)
      exact ⟨e', List.mem_append_left _ he', hk⟩
    · obtain ⟨e', he', hk⟩ := (hts id t ht (not_lt.mp hlt)).2
      exact ⟨e', List.mem_append_right _ he', hk⟩
  · rcases List.mem_append.mp he' with he' | he'
    · obtain ⟨t, ht, hid⟩ := h.owner e' he' hf
      exact ⟨t, by rw [List.getElem?_append_left (List.getElem?_eq_some_iff.mp ht).1]; exact ht,
        hid⟩
    · rw [List.mem_singleton] at he'
      subst he'
      exact howner hf

theorem addEvent_inv (h : AllArmed s stale) {f : ℤ} {d p n : ℕ}
    (hr : s.eeCycles.count + d < 2 ^ 63) (hf : f ≠ s.timerEventId)
    (hs : addEvent s f d p = some (n, s')) : AllArmed s' stale := by
  have hm := addEvent_moves h.bounded hr hs
  obtain ⟨-, rfl⟩ := addEvent_eq_some hs
  have hnone : ∀ (id : ℕ) t, (s.timers ++ [])[id]? = some t → s.timers.length ≤ id →
      Ranged t s.eeCycles.count ∧ Owns stale s.timerEventId
        [⟨s.nextEventId, int64 (s.eeCycles.count + d), p, f⟩] id t := fun id t ht hle => by
    rw [List.append_nil] at ht
    exact absurd (List.getElem?_eq_some_iff.mp ht).1 (not_lt.mpr hle)
  have key := h.append (e := ⟨s.nextEventId, int64 (s.eeCycles.count + d), p, f⟩) rfl
    (by simpa using hm.bounded h.bounded) hnone (fun hc => absurd hc hf)
  simpa using key

/-- A timer as `create_timer` makes it. -/
theorem ranged_new {t : SchedulerTimer} {now : ℤ} (h0 : now = 0) (hm1 : 7 ≤ t.overflowMask)
    (hm2 : t.overflowMask < 2 ^ 32) (hc : t.counter = 0) (hrate : t.clockrate = 1)
    (hrem : t.remainderClocks = 0) (hl : t.lastUpdate = now) : Ranged t now := by
  have hr : RateOk t.overflowMask t.clockrate := by
    rw [hrate]
    exact ⟨by decide, by decide, by rw [Int.emod_one]; norm_num⟩
  have hS := le_clockScale hr.1 hr.2.1
  exact ⟨hm1, hm2, hr, hrem.ge, by omega, by omega, hl.le, hc.ge, by omega⟩

theorem createTimer_inv (h : AllArmed s stale) {c : ℤ} {m p n : ℕ} (h0 : s.eeCycles.count = 0)
    (hm1 : 7 ≤ m) (hm2 : m < 2 ^ 32) (hs : createTimer s c m p = some (n, s')) :
    AllArmed s' stale := by
  unfold createTimer at hs
  split_ifs at hs
  simp only [Option.bind_eq_bind, Option.bind_eq_some_iff, Option.pure_def, Option.some.injEq,
    Prod.mk.injEq] at hs
  obtain ⟨⟨n', s1⟩, h1, -, rfl⟩ := hs
  have hmv := addEvent_moves h.bounded (by rw [h0]; decide) h1
  have hb1 := hmv.bounded h.bounded
  obtain ⟨rfl, rfl⟩ := addEvent_eq_some h1
  have hmask : int64 (m : ℤ) = m := int64_of_range (by omega) (by omega)
  have hge : 7 ≤ int64 (m : ℤ) := by omega
  have hlt : int64 (m : ℤ) < 2 ^ 32 := by omega
  refine h.append rfl
    ⟨hb1.closest_le, hb1.closest_max, hb1.not_late, hb1.id_lt, hb1.count_nonneg, hb1.count_max⟩
    (fun id t ht hle => ?_) (fun _ => ?_)
  · rw [List.getElem?_append_right hle, List.getElem?_singleton] at ht
    split_ifs at ht with hid
    cases ht
    have : id = s.timers.length := by omega
    subst this
    refine ⟨ranged_new h0 (by dsimp only; exact hge) (by dsimp only; exact hlt) rfl rfl rfl rfl, _,
      List.mem_singleton_self _, rfl, (status_paused rfl).mpr ?_⟩
    show pausedDelta ≤ int64 (s.eeCycles.count + timestampMax.toNat)
    rw [h0]; decide
  · exact ⟨_, List.getElem?_concat_length, rfl⟩

theorem AllArmed.congr (h : AllArmed s stale) (hb : Bounded s') (hee : s'.eeCycles = s.eeCycles)
    (hn : s'.nextEventId = s.nextEventId) (hf : s'.timerEventId = s.timerEventId)
    (ht : s'.timers = s.timers) (hev : s'.events = s.events) : AllArmed s' stale := by
  refine ⟨hb, by rw [hee]; exact h.clock, by rw [hev]; exact h.ids, by rw [hn]; exact h.stale_lt,
    ?_, ?_, ?_⟩
  · rw [ht, hee]; exact h.ranged
  · rw [ht, hf, hev]; exact h.owns
  · rw [ht, hf, hev]; exact h.owner

/-- **The step lemma** over the operations that fit. -/
theorem op_inv (h : AllArmed s stale) {o : Op} (hfit : Fits s o) (hs : o.apply s = some s') :
    AllArmed s' (stale' s stale o) := by
  have h0 := h.bounded.count_nonneg
  have hmx := h.bounded.count_max
  cases o with
  | addEvent f d p =>
    obtain ⟨⟨n, s1⟩, h1, rfl⟩ := Option.map_eq_some_iff.mp hs
    exact addEvent_inv h hfit.1 hfit.2 h1
  | createTimer c m p =>
    obtain ⟨⟨n, s1⟩, h1, rfl⟩ := Option.map_eq_some_iff.mp hs
    exact createTimer_inv h hfit.1 hfit.2.1 hfit.2.2 h1
  | getTimerCounter id =>
    obtain ⟨⟨c, s1⟩, h1, rfl⟩ := Option.map_eq_some_iff.mp hs
    obtain ⟨t, ht, ⟨-, rfl⟩ | ⟨-, -, -, rfl⟩⟩ := getTimerCounter_eq_some h1
    · exact h
    · exact h.freshen ht
  | setTimerCounter id v =>
    refine setTimerField_inv (f := fun t => { t with counter := int64 v }) h (fun _ => rfl)
      (fun _ => rfl) (fun _ => rfl) (fun t ht t' hr hm => ?_) (fun t ht _ => ?_) hs
    all_goals
      have hv := hfit t ht
      have hlt := (h.ranged id t ht).mask_lt
      have hw : int64 (v : ℤ) = v := int64_of_range (by omega) (by omega)
    · have hl := hr.last_nonneg
      exact hr.congr rfl rfl rfl rfl (by dsimp only; omega) (by dsimp only; omega)
    · rw [advanceCounter_eq (h.ranged id t ht).sound h.clock]
      dsimp only
      omega
  | setTimerTarget id v =>
    refine setTimerField_inv (f := fun t => { t with target := int64 v }) h (fun _ => rfl)
      (fun _ => rfl) (fun _ => rfl) (fun t ht t' hr hm => ?_) (fun t ht hp => ?_) hs
    · exact hr.congr rfl rfl rfl rfl hr.counter_nonneg hr.counter_le
    · rw [advanceCounter_eq (h.ranged id t ht).sound h.clock]
      exact (hfit t ht).resolve_left (by simp [hp])
  | setTimerClockrate id r =>
    refine setTimerField_inv
      (f := fun t => { t with clockrate := int64 r, remainderClocks := 0 }) h (fun _ => rfl)
      (fun _ => rfl) (fun _ => rfl) (fun t ht t' hr hm => ?_) (fun t ht hp => ?_) hs
    · obtain ⟨hrate, -⟩ := hfit t ht
      have hw : int64 (r : ℤ) = r := by
        have := hrate.2.1
        unfold eeClockrate at this
        exact int64_of_range (by omega) (by omega)
      rw [hw]
      have hr' : RateOk t'.overflowMask r := by rw [hm]; exact hrate
      have hS := le_clockScale (t := { t' with clockrate := r, remainderClocks := 0 }) hr'.1 hr'.2.1
      exact ⟨hr.mask_ge, hr.mask_lt, hr', le_rfl, (by decide : (0 : ℤ) < 2 ^ 8).trans_le hS,
        hr.last_nonneg, hr.last_le, hr.counter_nonneg, hr.counter_le⟩
    · rw [advanceCounter_eq (h.ranged id t ht).sound h.clock]
      exact (hfit t ht).2.resolve_left (by simp [hp])
  | setTimerPause id p => exact setTimerPause_inv h hs
  | setTimerIntMask id o t =>
    simp only [Op.apply, setTimerIntMask, Option.bind_eq_bind, Option.bind_eq_some_iff,
      Option.pure_def, Option.some.injEq] at hs
    obtain ⟨t, ht, rfl⟩ := hs
    have hr := h.ranged id t ht
    refine h.setTimer ht rfl (fun time _ hst => ?_)
      (hr.congr rfl rfl rfl rfl hr.counter_nonneg hr.counter_le) fun _ _ => Iff.rfl
    -- the interrupt enables play no part
    by_cases h1 : t.paused = true ∨ t.eventId ∈ stale
    · exact (if_pos h1).mpr ((if_pos h1).mp hst)
    · obtain ⟨hd, hov⟩ := (if_neg h1).mp hst
      exact (if_neg h1).mpr ⟨hd, hov⟩
  | registerFunction =>
    cases hs
    have hm : Moves s (Model.registerFunction s).2 := moves_of_events_eq rfl rfl rfl rfl
    exact h.congr (hm.bounded h.bounded) rfl rfl rfl rfl rfl
  | registerTimerCallback =>
    cases hs
    have hm : Moves s (Model.registerTimerCallback s).2 := moves_of_events_eq rfl rfl rfl rfl
    exact h.congr (hm.bounded h.bounded) rfl rfl rfl rfl rfl

end DobieStation.Timing.Armed
