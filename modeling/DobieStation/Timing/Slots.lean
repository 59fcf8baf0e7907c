import DobieStation.Timing.Ownership
import DobieStation.Timing.Reads

/-! # One timer and its event

What the scheduler keeps of one timer is a `Slot`: the timer, and the cycle at which its event is due. An operation
acts on each slot by itself (`Slot.apply`), and on the slot of another timer not at all; the operations of a
component are followed slot by slot (`ops_slot`). -/

namespace DobieStation.Timing.Slots

open DobieStation.Timing.Model DobieStation.Timing.Events DobieStation.Timing.Armed
open DobieStation.Timing.Ownership DobieStation.Timing.Reads

structure Slot where
  timer : SchedulerTimer
  due : ℤ

/-- Timer `id` of the scheduler, with its event. -/
structure Has (s : Scheduler) (id : ℕ) (v : Slot) : Prop where
  timer : s.timers[id]? = some v.timer
  event : ∃ e ∈ s.events, key e = (v.timer.eventId, id, s.timerEventId) ∧ e.timeToRun = v.due

/-! ### The operations on a slot -/

/-- The event is re-armed, unless the timer is paused. -/
def Slot.rearm (now : ℤ) (v : Slot) : Option Slot :=
  if v.timer.paused then some v else (calculateTimerEventDelta v.timer).map fun d => ⟨v.timer, now + d⟩

def Slot.read (now : ℤ) (v : Slot) : Slot := ⟨readTimer v.timer now, v.due⟩

/-- What the three mutators share. -/
def Slot.assign (now : ℤ) (f : SchedulerTimer → SchedulerTimer) (v : Slot) : Option Slot :=
  Slot.rearm now ⟨f (readTimer v.timer now), v.due⟩

/-- Pausing parks the event, and so does un-pausing. -/
def Slot.pause (now : ℤ) (paused : Bool) (v : Slot) : Slot :=
  if paused = v.timer.paused then v
  else if paused then ⟨{ advanceCounter v.timer now with paused := true }, timestampMax⟩
  else ⟨{ v.timer with lastUpdate := now, paused := false }, now + pausedDelta⟩

def Slot.mask (canOverflow canTarget : Bool) (v : Slot) : Slot :=
  ⟨{ v.timer with canOverflow := canOverflow, canTarget := canTarget }, v.due⟩

/-- An operation, on the slot of timer `id`. -/
def Slot.apply (now : ℤ) (id : ℕ) (v : Slot) : Op → Option Slot
  | .getTimerCounter j => some (if j = id then v.read now else v)
  | .setTimerCounter j c => if j = id then v.assign now fun t => { t with counter := int64 c } else some v
  | .setTimerTarget j c => if j = id then v.assign now fun t => { t with target := int64 c } else some v
  | .setTimerClockrate j c =>
    if j = id then v.assign now fun t => { t with clockrate := int64 c, remainderClocks := 0 } else some v
  | .setTimerPause j paused => some (if j = id then v.pause now paused else v)
  | .setTimerIntMask j canOverflow canTarget => some (if j = id then v.mask canOverflow canTarget else v)
  | _ => some v

/-! ### The scheduler, slot by slot -/

variable {s s' s'' : Scheduler} {id j : ℕ} {v w w' : Slot} {t t' : SchedulerTimer}

theorem exists_slot (h : Owned s) (ht : s.timers[id]? = some t) : ∃ due, Has s id ⟨t, due⟩ := by
  have hlabel : (labels s)[id]? = some (label t) := by rw [labels, List.getElem?_map, ht]; rfl
  obtain ⟨e, he, hk⟩ := List.mem_map.mp (h.owns id _ hlabel)
  exact ⟨e.timeToRun, ht, e, he, hk, rfl⟩

theorem eventIds_nodup (h : Owned s) : (s.events.map (·.eventId)).Nodup := by
  have hids := h.ids
  rwa [keys, List.map_map] at hids

theorem eventId_inj (h : Owned s) (hv : Has s id v) (hw : Has s j w) (heq : v.timer.eventId = w.timer.eventId) :
    id = j := by
  obtain ⟨e, he, hk, -⟩ := hv.event
  obtain ⟨e', he', hk', -⟩ := hw.event
  simp only [key, Prod.mk.injEq] at hk hk'
  have := eq_of_eventId (eventIds_nodup h) he he' (by omega)
  subst this
  omega

theorem due_unique (h : Owned s) (hv : Has s id v) {e : SchedulerEvent} (he : e ∈ s.events)
    (hid : e.eventId = v.timer.eventId) : e.timeToRun = v.due := by
  obtain ⟨e', he', hk, hdue⟩ := hv.event
  simp only [key, Prod.mk.injEq] at hk
  have := eq_of_eventId (eventIds_nodup h) he he' (by omega)
  subst this
  exact hdue

theorem slot_unique (h : Owned s) (hv : Has s id v) (hw : Has s id w) : v = w := by
  have ht := Option.some.inj (hv.timer.symm.trans hw.timer)
  obtain ⟨e, he, hk, hdue⟩ := hw.event
  simp only [key, Prod.mk.injEq] at hk
  have hdue' := due_unique h hv he (by rw [hk.1, ht])
  cases v
  cases w
  simp_all

/-- Timer `j` gets the slot `w` and the others keep theirs. -/
structure Acts (s s' : Scheduler) (j : ℕ) (w : Slot) : Prop where
  slot : ∀ id v, Has s id v → Has s' id (if j = id then w else v)

theorem Acts.trans (h : Acts s s' j w) (h' : Acts s' s'' j w') : Acts s s'' j w' := by
  refine ⟨fun id v hv => ?_⟩
  have := h'.slot id _ (h.slot id v hv)
  split_ifs at this ⊢ <;> exact this

/-- Timer `j` changes, and of the events at most its own is moved. -/
theorem acts_of_change (h : Owned s) (hw : Has s j w) (hid : t'.eventId = w.timer.eventId)
    (hts : s'.timers = s.timers.set j t') (hf : s'.timerEventId = s.timerEventId)
    (hother : ∀ e ∈ s.events, e.eventId ≠ w.timer.eventId → e ∈ s'.events) {due : ℤ}
    (hown : ∃ e ∈ s'.events, key e = (w.timer.eventId, j, s.timerEventId) ∧ e.timeToRun = due) :
    Acts s s' j ⟨t', due⟩ := by
  refine ⟨fun id v hv => ?_⟩
  have hlt := (List.getElem?_eq_some_iff.mp hw.timer).1
  by_cases hj : j = id
  · subst hj
    rw [if_pos rfl]
    refine ⟨by rw [hts, List.getElem?_set_self hlt], ?_⟩
    rw [hf, hid]
    exact hown
  · rw [if_neg hj]
    refine ⟨by rw [hts, List.getElem?_set_ne hj]; exact hv.timer, ?_⟩
    obtain ⟨e, he, hk, hdue⟩ := hv.event
    rw [hf]
    refine ⟨e, hother e he fun heq => hj ?_, hk, hdue⟩
    simp only [key, Prod.mk.injEq] at hk
    exact eventId_inj h hw hv (by omega)

theorem set_timers_self (ht : s.timers[j]? = some t) : s.timers = s.timers.set j t := by
  obtain ⟨_, hget⟩ := List.getElem?_eq_some_iff.mp ht
  rw [← hget, List.set_getElem_self]

/-- A timer is replaced and its event stays. -/
theorem acts_setTimer (h : Owned s) (hw : Has s j w) (hid : t'.eventId = w.timer.eventId) :
    Acts s (setTimer s j t') j ⟨t', w.due⟩ := by
  apply acts_of_change h hw hid
  · rfl
  · rfl
  · exact fun _ he _ => he
  · exact hw.event

theorem acts_refl (hw : Has s j w) : Acts s s j w := by
  refine ⟨fun id v hv => ?_⟩
  split_ifs with hj
  · subst hj
    exact hw
  · exact hv

/-- The event of a timer is moved. -/
theorem acts_move (h : Owned s) (hw : Has s j w) {i : ℕ} (hi : getEventPtr s w.timer.eventId = some i) (time : ℤ)
    (hid : t'.eventId = w.timer.eventId) (hts : s'.timers = s.timers.set j t')
    (hf : s'.timerEventId = s.timerEventId) (hev : s'.events = (setTimeToRun s i time).events) :
    Acts s s' j ⟨t', time⟩ := by
  refine acts_of_change h hw hid hts hf (fun e he hne => ?_) ?_
  · rw [hev]
    exact mem_setTimeToRun_of_ne hi he hne
  · obtain ⟨e, he, hide, hmem⟩ := mem_setTimeToRun_self time hi
    obtain ⟨e', he', hk, -⟩ := hw.event
    have : e = e' := eq_of_eventId (eventIds_nodup h) he he' (by
      simp only [key, Prod.mk.injEq] at hk
      omega)
    subst this
    exact ⟨{ e with timeToRun := time }, hev ▸ hmem, hk, rfl⟩

theorem acts_updateTimerEventTime (h : Owned s) (hw : Has s j w) (hs : updateTimerEventTime s j = some s') :
    ∃ d, calculateTimerEventDelta w.timer = some d ∧ Acts s s' j ⟨w.timer, s.eeCycles.count + d⟩ := by
  obtain ⟨t, d, i, ht, hd, -, hi, rfl⟩ := updateTimerEventTime_eq_some hs
  obtain rfl := Option.some.inj (hw.timer.symm.trans ht)
  exact ⟨d, hd, acts_move h hw hi _ rfl (set_timers_self hw.timer) rfl rfl⟩

theorem acts_getTimerCounter (h : Owned s) (hw : Has s j w) {c : ℤ} (hs : getTimerCounter s j = some (c, s')) :
    Acts s s' j (w.read s.eeCycles.count) := by
  obtain ⟨t, ht, ⟨hp, rfl⟩ | ⟨hp, -, -, rfl⟩⟩ := getTimerCounter_eq_some hs
  · obtain rfl := Option.some.inj (hw.timer.symm.trans ht)
    simpa [Slot.read, readTimer, hp] using acts_refl hw
  · obtain rfl := Option.some.inj (hw.timer.symm.trans ht)
    simpa [Slot.read, readTimer, hp] using acts_setTimer h hw (advance_eventId w.timer s.eeCycles.count)

theorem advance_paused (t : SchedulerTimer) (now : ℤ) : (advanceCounter t now).paused = t.paused := by
  unfold advanceCounter
  dsimp only
  split_ifs <;> rfl

/-- An assignment to fields of a timer that leaves its event, its callback and its state of running alone. -/
structure Assigns (f : SchedulerTimer → SchedulerTimer) : Prop where
  label : ∀ t, label (f t) = label t
  paused : ∀ t, (f t).paused = t.paused

theorem Assigns.eventId {f : SchedulerTimer → SchedulerTimer} (hf : Assigns f) (t : SchedulerTimer) :
    (f t).eventId = t.eventId := congrArg Prod.fst (hf.label t)

theorem acts_setTimerField (h : Owned s) (hw : Has s j w) {f : SchedulerTimer → SchedulerTimer} (hf : Assigns f)
    (hs : setTimerField s j f = some s') : ∃ w', w.assign s.eeCycles.count f = some w' ∧ Acts s s' j w' := by
  obtain ⟨t, ht, ⟨hp, rfl⟩ | ⟨hp, -, -, hu⟩⟩ := setTimerField_eq_some hs
  · obtain rfl := Option.some.inj (hw.timer.symm.trans ht)
    refine ⟨⟨f w.timer, w.due⟩, ?_, acts_setTimer h hw (hf.eventId _)⟩
    simp [Slot.assign, Slot.rearm, readTimer, hp, hf.paused]
  · obtain rfl := Option.some.inj (hw.timer.symm.trans ht)
    have hid : (f (advanceCounter w.timer s.eeCycles.count)).eventId = w.timer.eventId :=
      (hf.eventId _).trans (advance_eventId _ _)
    have hset := acts_setTimer h hw hid
    have howned : Owned (setTimer s j (f (advanceCounter w.timer s.eeCycles.count))) :=
      h.grows (grows_setTimer ht ((hf.label _).trans (advance_label _ _)))
    have hself := hset.slot j w hw
    rw [if_pos rfl] at hself
    obtain ⟨d, hd, hacts⟩ := acts_updateTimerEventTime howned hself hu
    refine ⟨_, ?_, hset.trans hacts⟩
    have hpaused : (f (advanceCounter w.timer s.eeCycles.count)).paused = false := by
      rw [hf.paused, advance_paused, hp]
    simp only [Slot.assign, Slot.rearm, readTimer, hp, hpaused, Bool.false_eq_true, if_false, hd, Option.map_some]
    rfl

theorem acts_setTimerPause (h : Owned s) (hw : Has s j w) {paused : Bool} (hs : setTimerPause s j paused = some s') :
    Acts s s' j (w.pause s.eeCycles.count paused) := by
  obtain ⟨t, ht, hcases⟩ := setTimerPause_eq_some hs
  obtain rfl := Option.some.inj (hw.timer.symm.trans ht)
  rcases hcases with ⟨hp, rfl⟩ | ⟨rfl, hp, -, -, i, hi, rfl⟩ | ⟨rfl, hp, s₁, h₁, rfl⟩
  · simpa [Slot.pause, hp] using acts_refl hw
  · simp only [Slot.pause, hp, Bool.true_eq_false, if_false, if_true]
    exact acts_move h hw hi timestampMax (advance_eventId _ _) rfl rfl rfl
  · obtain ⟨t, d, i, ht, hd, -, hi, rfl⟩ := updateTimerEventTime_eq_some h₁
    obtain rfl := Option.some.inj (hw.timer.symm.trans ht)
    have hdelta : d = pausedDelta := by
      rw [calculateTimerEventDelta, if_pos hp] at hd
      exact (Option.some.inj hd).symm
    subst hdelta
    simp only [Slot.pause, hp, Bool.false_eq_true, if_false]
    exact acts_move h hw hi _ rfl rfl rfl rfl

/-- An operation of another component. -/
theorem op_slot (h : Owned s) {o : Op} (ho : Foreign s o) (hs : o.apply s = some s') (hv : Has s id v) :
    ∃ v', v.apply s.eeCycles.count id o = some v' ∧ Has s' id v' := by
  have hfield : ∀ {j : ℕ} {f : SchedulerTimer → SchedulerTimer}, Assigns f → setTimerField s j f = some s' →
      ∃ v', (if j = id then v.assign s.eeCycles.count f else some v) = some v' ∧ Has s' id v' := by
    intro j f hf hs
    obtain ⟨t, ht, -⟩ := setTimerField_eq_some hs
    obtain ⟨due, hw⟩ := exists_slot h ht
    obtain ⟨w', hw', hacts⟩ := acts_setTimerField h hw hf hs
    have hhas := hacts.slot id v hv
    by_cases hj : j = id
    · subst hj
      obtain rfl := slot_unique h hv hw
      rw [if_pos rfl] at hhas ⊢
      exact ⟨w', hw', hhas⟩
    · rw [if_neg hj] at hhas ⊢
      exact ⟨v, rfl, hhas⟩
  have hone : ∀ {j : ℕ} {t : SchedulerTimer} {f : Slot → Slot}, s.timers[j]? = some t →
      (∀ w, Has s j w → Acts s s' j (f w)) → Has s' id (if j = id then f v else v) := by
    intro j t f ht hacts
    obtain ⟨due, hw⟩ := exists_slot h ht
    have hhas := (hacts _ hw).slot id v hv
    by_cases hj : j = id
    · subst hj
      obtain rfl := slot_unique h hv hw
      exact hhas
    · rwa [if_neg hj] at hhas ⊢
  cases o with
  | addEvent f d p =>
    obtain ⟨⟨n, s₁⟩, h₁, rfl⟩ := Option.map_eq_some_iff.mp hs
    obtain ⟨-, rfl⟩ := addEvent_eq_some h₁
    obtain ⟨e, he, hk⟩ := hv.event
    exact ⟨v, rfl, hv.timer, e, List.mem_append_left _ he, hk⟩
  | createTimer c m p => exact ho.elim
  | getTimerCounter j =>
    obtain ⟨⟨c, s₁⟩, h₁, rfl⟩ := Option.map_eq_some_iff.mp hs
    obtain ⟨t, ht, -⟩ := getTimerCounter_eq_some h₁
    exact ⟨_, rfl, hone ht fun w hw => acts_getTimerCounter h hw h₁⟩
  | setTimerCounter j c =>
    rw [Op.apply, Model.setTimerCounter] at hs
    exact hfield ⟨fun _ => by simp only [label], fun _ => by simp only⟩ hs
  | setTimerTarget j c =>
    rw [Op.apply, Model.setTimerTarget] at hs
    exact hfield ⟨fun _ => by simp only [label], fun _ => by simp only⟩ hs
  | setTimerClockrate j c =>
    rw [Op.apply, Model.setTimerClockrate] at hs
    exact hfield ⟨fun _ => by simp only [label], fun _ => by simp only⟩ hs
  | setTimerPause j p =>
    obtain ⟨t, ht, -⟩ := setTimerPause_eq_some hs
    exact ⟨_, rfl, hone ht fun w hw => acts_setTimerPause h hw hs⟩
  | setTimerIntMask j canOverflow canTarget =>
    simp only [Op.apply, setTimerIntMask, Option.bind_eq_bind, Option.bind_eq_some_iff, Option.pure_def,
      Option.some.injEq] at hs
    obtain ⟨t, ht, rfl⟩ := hs
    refine ⟨_, rfl, hone ht fun w hw => ?_⟩
    obtain rfl := Option.some.inj (hw.timer.symm.trans ht)
    exact acts_setTimer h hw rfl
  | registerFunction => exact ho.elim
  | registerTimerCallback => exact ho.elim

/-- The operations that a component makes, one after the other. -/
def Slot.run (now : ℤ) (id : ℕ) (ops : List Op) (v : Slot) : Option Slot := ops.foldlM (fun v o => v.apply now id o) v

theorem field_clock {f : SchedulerTimer → SchedulerTimer} (hs : setTimerField s j f = some s') :
    s'.eeCycles = s.eeCycles := by
  obtain ⟨t, -, ⟨-, rfl⟩ | ⟨-, -, -, hu⟩⟩ := setTimerField_eq_some hs
  · rfl
  · obtain ⟨t, d, i, -, -, -, -, rfl⟩ := updateTimerEventTime_eq_some hu
    rfl

/-- The clock stands still. -/
theorem op_clock {o : Op} (ho : Foreign s o) (hs : o.apply s = some s') : s'.eeCycles = s.eeCycles := by
  cases o with
  | addEvent f d p =>
    obtain ⟨⟨n, s₁⟩, h₁, rfl⟩ := Option.map_eq_some_iff.mp hs
    obtain ⟨-, rfl⟩ := addEvent_eq_some h₁
    rfl
  | getTimerCounter j =>
    obtain ⟨⟨c, s₁⟩, h₁, rfl⟩ := Option.map_eq_some_iff.mp hs
    exact (getTimerCounter_moves h₁).eeCycles
  | setTimerCounter j c => exact field_clock hs
  | setTimerTarget j c => exact field_clock hs
  | setTimerClockrate j c => exact field_clock hs
  | setTimerPause j p =>
    obtain ⟨t, -, ⟨-, rfl⟩ | ⟨-, -, -, -, i, -, rfl⟩ | ⟨-, -, s₁, h₁, rfl⟩⟩ := setTimerPause_eq_some hs
    · rfl
    · rfl
    · obtain ⟨t, d, i, -, -, -, -, rfl⟩ := updateTimerEventTime_eq_some h₁
      rfl
  | setTimerIntMask j canOverflow canTarget =>
    simp only [Op.apply, setTimerIntMask, Option.bind_eq_bind, Option.bind_eq_some_iff, Option.pure_def,
      Option.some.injEq] at hs
    obtain ⟨t, -, rfl⟩ := hs
    rfl
  | createTimer | registerFunction | registerTimerCallback => exact ho.elim

theorem ops_slot : ∀ (ops : List Op) {s s' : Scheduler} {v : Slot}, Owned s →
    (∀ s₁, s₁.timerEventId = s.timerEventId → ∀ o ∈ ops, Foreign s₁ o) → ops.foldlM Op.apply s = some s' →
    Has s id v → ∃ v', v.run s.eeCycles.count id ops = some v' ∧ Has s' id v'
  | [], s, s', v, _, _, hs, hv => by
    cases hs
    exact ⟨v, rfl, hv⟩
  | o :: ops, s, s', v, h, ho, hs, hv => by
    rw [List.foldlM_cons, Option.bind_eq_bind, Option.bind_eq_some_iff] at hs
    obtain ⟨s₁, h₁, h₂⟩ := hs
    have hforeign := ho s rfl o List.mem_cons_self
    have hg := op_grows hforeign h₁
    obtain ⟨v₁, hv₁, hhas⟩ := op_slot h hforeign h₁ hv
    obtain ⟨v', hv', hhas'⟩ := ops_slot ops (h.grows hg)
      (fun s₂ hs₂ o' ho' => ho s₂ (hs₂.trans hg.func) o' (List.mem_cons_of_mem o ho')) h₂ hhas
    rw [op_clock hforeign h₁] at hv'
    refine ⟨v', ?_, hhas'⟩
    rw [Slot.run, List.foldlM_cons, hv₁]
    exact hv'

/-! ### Running an event -/

/-- An event that belongs to no timer goes. -/
theorem erase_slot {i : ℕ} {e : SchedulerEvent} (hi : s.events[i]? = some e) (hf : e.funcId ≠ s.timerEventId)
    (hv : Has s id v) : Has { s with events := s.events.eraseIdx i } id v := by
  obtain ⟨e', he', hk, hdue⟩ := hv.event
  obtain ⟨n, hn⟩ := List.mem_iff_getElem?.mp he'
  refine ⟨hv.timer, e', List.mem_eraseIdx_iff_getElem?.mpr ⟨n, ?_, hn⟩, hk, hdue⟩
  rintro rfl
  rw [hi] at hn
  cases hn
  simp only [key, Prod.mk.injEq] at hk
  exact hf hk.2.2

/-- **`restart_timer`** gives the timer a new event, and the one that was run goes. -/
theorem acts_restart (h : Owned s) (hw : Has s j w) {i : ℕ} {e : SchedulerEvent} (hi : s.events[i]? = some e)
    (he : e.eventId = w.timer.eventId) (hs : restartTimer s j = some s') :
    ∃ d, calculateTimerEventDelta { w.timer with eventId := s.nextEventId } = some d ∧
      Acts s { s' with events := s'.events.eraseIdx i } j
        ⟨{ w.timer with eventId := s.nextEventId }, s.eeCycles.count + d⟩ := by
  have hid : ∀ e ∈ s.events, e.eventId < s.nextEventId := fun e he =>
    h.id_lt (key e) (List.mem_map_of_mem he)
  obtain ⟨t, d, ht, hd, -, rfl⟩ := restartTimer_eq_some hid hs
  obtain rfl := Option.some.inj (hw.timer.symm.trans ht)
  have hlt := (List.getElem?_eq_some_iff.mp ht).1
  have hile := (List.getElem?_eq_some_iff.mp hi).1
  refine ⟨d, hd, ⟨fun id v hv => ?_⟩⟩
  by_cases hj : j = id
  · subst hj
    rw [if_pos rfl]
    refine ⟨List.getElem?_set_self hlt, ⟨s.nextEventId, s.eeCycles.count + d, j, s.timerEventId⟩, ?_, rfl, rfl⟩
    rw [List.eraseIdx_append_of_lt_length hile]
    exact List.mem_append_right _ (List.mem_singleton_self _)
  · rw [if_neg hj]
    obtain ⟨e', he', hk, hdue⟩ := hv.event
    refine ⟨(List.getElem?_set_ne hj).trans hv.timer, e', ?_, hk, hdue⟩
    rw [List.eraseIdx_append_of_lt_length hile]
    refine List.mem_append_left _ ?_
    obtain ⟨n, hn⟩ := List.mem_iff_getElem?.mp he'
    refine List.mem_eraseIdx_iff_getElem?.mpr ⟨n, ?_, hn⟩
    rintro rfl
    rw [hi] at hn
    cases hn
    simp only [key, Prod.mk.injEq] at hk
    exact hj (eventId_inj h hw hv (by omega))

end DobieStation.Timing.Slots
