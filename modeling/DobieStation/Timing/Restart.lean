import DobieStation.Timing.Registers

/-! # The loop of the emulator runs the scheduler

The callbacks of the timers make operations on timers only (`interrupt_ops`), so whatever the components do, a timer
event is one of the scheduler under a script (`timerEventOf_scripted`). -/

namespace DobieStation.Timing.LoopRuns

open DobieStation.Lib.Reach DobieStation.Timing.Model DobieStation.Timing.Events DobieStation.Timing.Ownership
open DobieStation.Timing.Timeliness DobieStation.Timing.Deadline DobieStation.Timing.Loop
open DobieStation.Timing.Registers

variable {s s' : Scheduler} {w w' : Components}

theorem onTimer_foreign {o : Op} (h : OnTimer o) : Foreign s o := by
  cases o <;> first | exact trivial | exact h.elim

theorem onTimer_inRange {o : Op} {now : CycleCount} (h : OnTimer o) : InRange now o := by
  cases o <;> first | exact trivial | exact h.elim

/-- What a callback does, it does by operations on timers. -/
theorem interrupt_ops {callbackId : ℤ} {param : ℕ} {overflow : Bool}
    (h : interrupt callbackId param overflow s w = some (s', w')) :
    ∃ ops : List Op, (∀ o ∈ ops, OnTimer o) ∧ ops.foldlM Op.apply s = some s' := by
  unfold interrupt at h
  split_ifs at h with h₁ h₂ h₃ h₄
  · obtain ⟨s₁, hs, heq⟩ := Option.map_eq_some_iff.mp h
    cases heq
    refine ⟨_, fun o ho => ?_, hs⟩
    simp only [IOPTimers.irqTest] at ho
    split_ifs at ho
    · rw [List.mem_singleton] at ho
      subst ho
      trivial
    · exact absurd ho List.not_mem_nil
  · obtain ⟨s₁, hs, heq⟩ := Option.map_eq_some_iff.mp h
    cases heq
    refine ⟨_, fun o ho => ?_, hs⟩
    simp only [EETimers.timerInterrupt] at ho
    split_ifs at ho
    all_goals
      simp only [List.mem_singleton, List.not_mem_nil] at ho
      try subst ho
      try trivial

/-- A call that may be left out, as a part of a script. -/
theorem scripted_part {b : Bool} {callbackId : ℤ} {param : ℕ} {overflow : Bool}
    (h : (if b then interrupt callbackId param overflow s w else some (s, w)) = some (s', w')) :
    ∃ part : Script, (∀ ops ∈ part, ∀ o ∈ ops, OnTimer o) ∧
      ∀ rest, (if b then scripted s (part ++ rest) else some (s, part ++ rest)) = some (s', rest) := by
  cases b with
  | false =>
    cases h
    exact ⟨[], by simp, fun rest => rfl⟩
  | true =>
    obtain ⟨ops, hops, hrun⟩ := interrupt_ops h
    refine ⟨[ops], by simpa using hops, fun rest => ?_⟩
    simp [scripted, hrun]

/-- **A timer event** is one of the scheduler under a script. -/
theorem timerEventOf_scripted {index : ℕ} (h : timerEventOf interrupt s index w = some (s', w')) :
    ∃ part : Script, (∀ ops ∈ part, ∀ o ∈ ops, OnTimer o) ∧
      ∀ rest, timerEvent scripted s index (part ++ rest) = some (s', rest) := by
  simp only [timerEventOf, Option.bind_eq_bind, Option.bind_eq_some_iff, Option.pure_def, Option.some.injEq,
    Prod.mk.injEq] at h
  obtain ⟨t, ht, ⟨c, s₁⟩, h₁, t₁, ht₁, ⟨s₂, w₂⟩, h₂, t₂, ht₂, ⟨s₄, w₄⟩, h₄, s₅, h₅, rfl, rfl⟩ := h
  obtain ⟨part₂, hpart₂, hrun₂⟩ := scripted_part h₂
  have hover : ∃ part : Script, (∀ ops ∈ part, ∀ o ∈ ops, OnTimer o) ∧ ∀ rest,
      (if t₂.overflowMask < t₂.counter then
        if t₂.canOverflow then
          scripted (setTimer s₂ index { t₂ with counter := int64 (t₂.counter - (t₂.overflowMask + 1)) }) (part ++ rest)
        else some (setTimer s₂ index { t₂ with counter := int64 (t₂.counter - (t₂.overflowMask + 1)) }, part ++ rest)
      else some (s₂, part ++ rest)) = some (s₄, rest) := by
    split_ifs at h₄ ⊢ with hover hcan
    · obtain ⟨ops, hops, hrun⟩ := interrupt_ops h₄
      refine ⟨[ops], by simpa using hops, fun rest => ?_⟩
      simp [scripted, hrun]
    · cases h₄
      exact ⟨[], by simp, fun _ => rfl⟩
    · cases h₄
      exact ⟨[], by simp, fun _ => rfl⟩
  obtain ⟨part₄, hpart₄, hrun₄⟩ := hover
  refine ⟨part₂ ++ part₄, fun ops hops => ?_, fun rest => ?_⟩
  · rcases List.mem_append.mp hops with hops | hops
    · exact hpart₂ ops hops
    · exact hpart₄ ops hops
  · have hrun₂' := hrun₂ (part₄ ++ rest)
    have hrun₄' := hrun₄ rest
    rw [List.append_assoc]
    simp only [timerEvent, ht, h₁, ht₁, hrun₂', ht₂, hrun₄', h₅, Option.bind_eq_bind, Option.bind_some, Option.pure_def]

end DobieStation.Timing.LoopRuns

/-! # The event of a timer, in the loop

When the event of a timer is due, the timer is brought up to date, its component may clear it, and it is armed again.
If the timer is to return to zero, the counter is below the target by then (`Below`), whether or not it had reached
it, and zero if it had: so the timer is in time again (`timerEvent_ready`). The other timers, and the events that the
pass has kept, are as they were. -/

namespace DobieStation.Timing.Restart

open DobieStation.Timing.Model DobieStation.Timing.Events DobieStation.Timing.Armed DobieStation.Timing.Counter
open DobieStation.Timing.Ownership DobieStation.Timing.Timeliness DobieStation.Timing.Reads
open DobieStation.Timing.Slots DobieStation.Timing.ZeroReturn DobieStation.Timing.Loop
open DobieStation.Timing.Registers DobieStation.Timing.LoopRuns

/-- What holds of the scheduler and the components wherever the loop is. -/
structure Ready (s : Scheduler) (w : Components) : Prop where
  owned : Owned s
  bounded : Bounded s
  clock : s.eeCycles.count < 2 ^ 54
  numbered : Numbered w
  length : s.timers.length = 10
  slot : ∀ x : Which, ∃ v, Has s x.number v ∧ Matches (setting w x) s.eeCycles.count v

variable {s₀ s s' : Scheduler} {w w' : Components} {x : Which} {v v' : Slot} {g : Which → Setting} {now : ℤ} {i : ℕ}

/-- The timer with a number. -/
def which (id : ℕ) : Which := if h : id < 6 then .iop ⟨id, h⟩ else .ee (eeTimer (id - 6))

theorem number_which {id : ℕ} (h : id < 10) : (which id).number = id := by
  unfold which
  split_ifs with hi
  · rfl
  · show 6 + (id - 6) % 4 = id
    omega

/-! ### The callback -/

theorem interrupt_iop {j : Fin 6} {overflow : Bool} (hn : Numbered w)
    (h : interrupt w.iopCallback j overflow s w = some (s', w')) :
    (if !overflow && zeroReturn w (.iop j) then [Op.setTimerCounter j 0] else []).foldlM Op.apply s = some s' ∧
      Numbered w' ∧ ∀ y, setting w' y = setting w y := by
  rw [interrupt, if_pos rfl, dif_pos j.isLt] at h
  obtain ⟨s₁, hs, heq⟩ := Option.map_eq_some_iff.mp h
  cases heq
  refine ⟨?_, numbered_iop hn j _, setting_iop_same rfl rfl⟩
  simp only [IOPTimers.irqTest, hn.iop] at hs
  exact hs

theorem timerInterrupt_eq (e : EETimers.EmotionTiming) (j : Fin 4) (overflow : Bool) :
    (EETimers.timerInterrupt e j overflow).2.1 = (if !overflow && (e.timers j).control.clearOnReference then
      [Op.setTimerCounter (e.events j) 0] else []) ∧
      ((EETimers.timerInterrupt e j overflow).1 = e ∨ ∃ t, (EETimers.timerInterrupt e j overflow).1 = e.set j t ∧
        t.control.clearOnReference = (e.timers j).control.clearOnReference ∧ t.compare = (e.timers j).compare) := by
  cases overflow with
  | true =>
    simp only [EETimers.timerInterrupt, Bool.not_true, Bool.false_eq_true, Bool.false_and, if_false]
    split_ifs
    · exact ⟨rfl, Or.inr ⟨_, rfl, rfl, rfl⟩⟩
    · exact ⟨rfl, Or.inl rfl⟩
  | false =>
    simp only [EETimers.timerInterrupt, Bool.not_false, if_true, Bool.true_and]
    split_ifs <;> exact ⟨rfl, Or.inr ⟨_, rfl, rfl, rfl⟩⟩

theorem interrupt_ee {j : Fin 4} {overflow : Bool} (hn : Numbered w)
    (h : interrupt w.eeCallback j overflow s w = some (s', w')) :
    (if !overflow && zeroReturn w (.ee j) then [Op.setTimerCounter (6 + j) 0] else []).foldlM Op.apply s = some s' ∧
      Numbered w' ∧ ∀ y, setting w' y = setting w y := by
  rw [interrupt, if_neg hn.callbacks, if_pos rfl, dif_pos j.isLt] at h
  obtain ⟨s₁, hs, heq⟩ := Option.map_eq_some_iff.mp h
  cases heq
  obtain ⟨hops, hset⟩ := timerInterrupt_eq w.ee j overflow
  refine ⟨?_, ?_⟩
  · rw [hops, hn.ee] at hs
    exact hs
  · rcases hset with heq | ⟨t, heq, hz, ht⟩
    · rw [heq]
      exact ⟨hn, fun _ => rfl⟩
    · rw [heq]
      exact ⟨numbered_ee hn j t, setting_ee_same hz ht⟩

/-- **The callback of a timer** clears it if it is to return to zero, and leaves what is set alone. -/
theorem interrupt_request {overflow : Bool} (hn : Numbered w)
    (h : interrupt (setting w x).callback (setting w x).param overflow s w = some (s', w')) :
    (if !overflow && zeroReturn w x then [Op.setTimerCounter x.number 0] else []).foldlM Op.apply s = some s' ∧
      Numbered w' ∧ ∀ y, setting w' y = setting w y := by
  cases x with
  | ee j => exact interrupt_ee hn h
  | iop j => exact interrupt_iop hn h

/-! ### On the way -/

/-- The event of timer `x` is being run from the `i`-th place of the list: the timer has the slot `v`, and the other
timers are as they are set. -/
structure During (s₀ : Scheduler) (i : ℕ) (x : Which) (g : Which → Setting) (s : Scheduler) (v : Slot) : Prop where
  owned : Owned s
  length : s.timers.length = 10
  cycles : s.eeCycles = s₀.eeCycles
  slot : Has s x.number v
  event : ∃ e, s.events[i]? = some e ∧ e.eventId = v.timer.eventId
  set : Matches { g x with zeroReturn := false } s₀.eeCycles.count v
  others : ∀ y ≠ x, ∃ v', Has s y.number v' ∧ Matches (g y) s₀.eeCycles.count v'
  kept : s.events.take i = s₀.events.take i

/-- What a timer that is to return to zero is, when it is armed. -/
structure Below (g : Setting) (v : Slot) : Prop where
  target : v.timer.target = g.target
  pos : 0 < g.target
  canTarget : v.timer.canTarget = true
  precise : Precise v.timer.overflowMask v.timer.target v.timer.clockrate
  lt : v.timer.counter < v.timer.target

theorem grows_event (hg : Grows s s') {e : SchedulerEvent} (hi : s.events[i]? = some e) :
    ∃ e', s'.events[i]? = some e' ∧ key e' = key e := by
  obtain ⟨new, hk, -, -⟩ := hg.keys
  have hki : (keys s)[i]? = some (key e) := by rw [keys, List.getElem?_map, hi]; rfl
  have hki' : (keys s')[i]? = some (key e) := by
    rw [hk, List.getElem?_append_left (List.getElem?_eq_some_iff.mp hki).1, hki]
  rwa [keys, List.getElem?_map, Option.map_eq_some_iff] at hki'

theorem grows_length (hg : Grows s s') : s'.timers.length = s.timers.length := by
  have hlen := congrArg List.length hg.labels
  rwa [labels, labels, List.length_map, List.length_map] at hlen

theorem grows_eventId (hg : Grows s s') {id : ℕ} (hv : Has s id v) (hv' : Has s' id v') :
    v'.timer.eventId = v.timer.eventId := by
  have h : (labels s)[id]? = some (label v.timer) := by rw [labels, List.getElem?_map, hv.timer]; rfl
  have h' : (labels s')[id]? = some (label v'.timer) := by rw [labels, List.getElem?_map, hv'.timer]; rfl
  rw [hg.labels, h] at h'
  exact congrArg Prod.fst (Option.some.inj h').symm

/-- An operation on the timer. -/
theorem During.acts (h : During s₀ i x g s v) (ha : Acts s s' x.number v') (hg : Grows s s')
    (hc : s'.eeCycles = s.eeCycles) (hkept : s'.events.take i = s.events.take i)
    (hset : Matches { g x with zeroReturn := false } s₀.eeCycles.count v') : During s₀ i x g s' v' := by
  have hself := ha.slot x.number v h.slot
  rw [if_pos rfl] at hself
  refine ⟨h.owned.grows hg, (grows_length hg).trans h.length, hc.trans h.cycles, hself, ?_, hset, fun y hy => ?_,
    hkept.trans h.kept⟩
  · obtain ⟨e, hi, he⟩ := h.event
    obtain ⟨e', hi', hk⟩ := grows_event hg hi
    simp only [key, Prod.mk.injEq] at hk
    refine ⟨e', hi', ?_⟩
    rw [hk.1, he, grows_eventId hg h.slot hself]
  · obtain ⟨v₁, hv₁, hm⟩ := h.others y hy
    have hother := ha.slot y.number v₁ hv₁
    rw [if_neg fun hnum => hy (number_inj hnum).symm] at hother
    exact ⟨v₁, hother, hm⟩

/-- The event at the `i`-th place is the one that is found by its id. -/
theorem getEventPtr_eq (ho : Owned s) {e : SchedulerEvent} (hi : s.events[i]? = some e) {k : ℕ}
    (hk : getEventPtr s e.eventId = some k) : k = i := by
  obtain ⟨hklt, hkid, -⟩ := List.findIdx?_eq_some_iff_getElem.mp hk
  have h₁ : (s.events.map (·.eventId))[k]? = some e.eventId := by
    rw [List.getElem?_map, List.getElem?_eq_getElem hklt, Option.map_some]
    exact congrArg some (by simpa using hkid)
  have h₂ : (s.events.map (·.eventId))[i]? = some e.eventId := by rw [List.getElem?_map, hi]; rfl
  exact (List.getElem?_inj (List.getElem?_eq_some_iff.mp h₁).1 (eventIds_nodup ho)).mp (h₁.trans h₂.symm)

theorem take_setTimeToRun (s : Scheduler) (i : ℕ) (time : ℤ) :
    (setTimeToRun s i time).events.take i = s.events.take i := by
  refine List.ext_getElem? fun j => ?_
  rw [List.getElem?_take, List.getElem?_take]
  split_ifs with hj
  · have hne : i ≠ j := by omega
    simp [setTimeToRun, hne]
  · rfl

/-- The counter of the timer is set. -/
theorem During.counter (h : During s₀ i x g s v) (hnow : s₀.eeCycles.count < 2 ^ 54) {c : ℕ} (hc : c < 2 ^ 32)
    (hs : setTimerCounter s x.number c = some s') : ∃ v', During s₀ i x g s' v' ∧
      v.assign s₀.eeCycles.count (fun t => { t with counter := int64 c }) = some v' := by
  have hf : Assigns fun t : SchedulerTimer => { t with counter := int64 c } :=
    ⟨fun _ => by simp only [label], fun _ => by simp only⟩
  obtain ⟨v', hv', hacts⟩ := acts_setTimerField h.owned h.slot hf hs
  rw [h.cycles] at hv'
  refine ⟨v', h.acts hacts (grows_setTimerField hf.label hs) (field_clock hs) ?_ ?_, hv'⟩
  · -- the event that is moved is the one that is being run
    obtain ⟨t, ht, ⟨-, rfl⟩ | ⟨-, -, -, hu⟩⟩ := setTimerField_eq_some hs
    · rfl
    · obtain rfl := Option.some.inj (h.slot.timer.symm.trans ht)
      obtain ⟨t', d, k, ht', -, -, hk, rfl⟩ := updateTimerEventTime_eq_some hu
      obtain ⟨e, hi, he⟩ := h.event
      have hlt := (List.getElem?_eq_some_iff.mp ht).1
      rw [setTimer, List.getElem?_set_self hlt] at ht'
      obtain rfl := Option.some.inj ht'
      have hid : (advanceCounter v.timer s.eeCycles.count).eventId = e.eventId := by
        rw [advance_eventId, he]
      have hk' : getEventPtr s e.eventId = some k := by
        rw [← hid]
        exact hk
      obtain rfl := getEventPtr_eq h.owned hi hk'
      exact take_setTimeToRun _ k _
  · exact matches_counter h.set hnow hc (fun hz => absurd hz Bool.false_ne_true) hv'

/-- The counter of the timer is read. -/
theorem During.read (h : During s₀ i x g s v) (hnow : s₀.eeCycles.count < 2 ^ 54) {c : ℤ}
    (hs : getTimerCounter s x.number = some (c, s')) : During s₀ i x g s' (v.read s₀.eeCycles.count) := by
  have hacts := acts_getTimerCounter h.owned h.slot hs
  rw [h.cycles] at hacts
  have hevents : s'.events = s.events := by
    obtain ⟨t, -, ⟨-, rfl⟩ | ⟨-, -, -, rfl⟩⟩ := getTimerCounter_eq_some hs
    · rfl
    · rfl
  refine h.acts hacts (grows_getTimerCounter hs) (getTimerCounter_moves hs).eeCycles (by rw [hevents]) ?_
  exact matches_read h.set hnow fun hz => absurd hz Bool.false_ne_true

/-- The counter of the timer goes back by the range of the counter. -/
theorem During.wrap (h : During s₀ i x g s v) (hover : v.timer.overflowMask < v.timer.counter) {t' : SchedulerTimer}
    (ht' : t' = { v.timer with counter := v.timer.counter - (v.timer.overflowMask + 1) }) :
    During s₀ i x g (setTimer s x.number t') ⟨t', v.due⟩ := by
  have hs := h.set.sound
  have hmask := hs.mask_nonneg
  have hle := hs.counter_le
  have hset := h.set.set
  subst ht'
  refine h.acts (acts_setTimer h.owned h.slot rfl) (grows_setTimer h.slot.timer rfl) rfl rfl ?_
  refine ⟨⟨hset.callback, hset.param, hset.mask, hset.target, hset.target_lt, hset.steady, hset.running⟩, ?_,
    fun hz => absurd hz Bool.false_ne_true⟩
  exact hs.congr rfl rfl rfl rfl (by dsimp only; omega) (by dsimp only; omega)

/-! ### Below the target -/

theorem below_of_returns {gx : Setting} (h : Returns gx v) (ha : Alike v.timer v'.timer)
    (hlt : v'.timer.counter < v'.timer.target) : Below gx v' := by
  obtain ⟨-, -, hmask, htarget, hrate, hcan⟩ := ha
  refine ⟨htarget.trans h.target, h.pos, hcan.trans h.canTarget, ?_, hlt⟩
  rw [hmask, htarget, hrate]
  exact h.precise

/-- A timer whose target was not hit has not reached it. -/
theorem below_of_not_hit {t t₁ : SchedulerTimer} (h0 : 0 ≤ t.counter) (hle : t.counter ≤ t₁.target)
    (htarget : t₁.target < 2 ^ 32) (hhit : targetHit (t.counter % 2 ^ 32) t₁ = false) : t₁.counter < t₁.target := by
  have hold : t.counter % 2 ^ 32 = t.counter := Int.emod_eq_of_lt h0 (by omega)
  simp only [targetHit, hold, Bool.or_eq_false_iff, Bool.and_eq_false_iff, decide_eq_false_iff_not] at hhit
  rcases hhit.1 with hlt | hlt
  · exact absurd hle hlt
  · omega

/-- The timer has been brought up to date, and is below the target if it is to return. -/
structure Brought (g : Setting) (now : ℤ) (v : Slot) : Prop where
  fresh : Fresh now v
  below : g.zeroReturn = true → Below g v ∨ Stands g v

/-- **The target.** -/
theorem target_part {s₁ s₂ : Scheduler} {w₂ : Components} {v₁ : Slot} (hn : Numbered w)
    (hnow : s₀.eeCycles.count < 2 ^ 54) (hv : Matches (setting w x) s₀.eeCycles.count v)
    (hd : During s₀ i x (setting w) s₁ v₁) (ha : Alike v.timer v₁.timer) (hfresh : Fresh s₀.eeCycles.count v₁)
    (hpaused : v₁.timer.paused = v.timer.paused)
    (hstands : v.timer.paused = true → v₁.timer.counter = v.timer.counter)
    (h : (if targetHit (v.timer.counter % 2 ^ 32) v₁.timer && v₁.timer.canTarget then
      interrupt v₁.timer.callbackId v₁.timer.param false s₁ w else some (s₁, w)) = some (s₂, w₂)) :
    ∃ v₂, During s₀ i x (setting w) s₂ v₂ ∧ Brought (setting w x) s₀.eeCycles.count v₂ ∧ Numbered w₂ ∧
      (∀ y, setting w₂ y = setting w y) ∧
      (zeroReturn w x = true → v.timer.paused = false → target w x ≤ v₁.timer.counter → v₂.timer.counter = 0) := by
  split_ifs at h with hhit
  · have hcallback : v₁.timer.callbackId = (setting w x).callback := hd.set.set.callback
    have hparam : v₁.timer.param = (setting w x).param := hd.set.set.param
    rw [hcallback, hparam] at h
    obtain ⟨hops, hn₂, hset⟩ := interrupt_request hn h
    by_cases hz : zeroReturn w x = true
    · rw [hz, Bool.not_false, Bool.true_and, if_pos rfl, List.foldlM_cons, Option.bind_eq_bind,
        Option.bind_eq_some_iff] at hops
      obtain ⟨s₃, hs, heq⟩ := hops
      cases heq
      obtain ⟨v₂, hd₂, hv₂⟩ := hd.counter hnow (by decide) hs
      obtain ⟨ha₂, -, hcounter, hpaused₂⟩ := assign_counter hd.set.sound hnow (by decide) hv₂
      refine ⟨v₂, hd₂, ⟨?_, fun _ => ?_⟩, hn₂, hset, fun _ _ _ => hcounter⟩
      · exact assign_fresh ⟨fun _ => by simp only [label], fun _ => by simp only⟩ (fun _ => by simp only)
          hd.set.sound hnow hv₂
      · rcases hv.returns hz with hr | hst
        · have hpos := hr.pos
          refine Or.inl (below_of_returns hr (ha.trans ha₂) ?_)
          rw [(ha.trans ha₂).target, hr.target, hcounter]
          omega
        · refine Or.inr ⟨(hpaused₂.trans hpaused).trans hst.paused, ?_⟩
          rw [hcounter]
          exact_mod_cast Nat.zero_le _
    · rw [Bool.not_eq_true] at hz
      rw [hz, Bool.and_false, if_neg Bool.false_ne_true] at hops
      cases hops
      have hnot : zeroReturn w x ≠ true := fun hz' => absurd (hz.symm.trans hz') (by decide)
      exact ⟨v₁, hd, ⟨hfresh, fun hz' => absurd hz' hnot⟩, hn₂, hset, fun hz' => absurd hz' hnot⟩
  · cases h
    -- a target that was not hit has not been reached
    have hbelow : zeroReturn w x = true → Returns (setting w x) v → Below (setting w x) v₁ := fun hz hr => by
      have hnothit : targetHit (v.timer.counter % 2 ^ 32) v₁.timer = false := by
        rw [Bool.not_eq_true, Bool.and_eq_false_iff] at hhit
        exact hhit.resolve_right fun hcan => absurd ((ha.canTarget.trans hr.canTarget).symm.trans hcan) (by decide)
      have hlt := hv.set.target_lt
      refine below_of_returns hr ha (below_of_not_hit hv.sound.counter_nonneg ?_ ?_ hnothit)
      · rw [ha.target]
        exact hr.inTime.counter_le
      · rw [ha.target, hr.target]
        omega
    refine ⟨v₁, hd, ⟨hfresh, fun hz => ?_⟩, hn, fun _ => rfl, fun hz hp hreached => ?_⟩
    · rcases hv.returns hz with hr | hst
      · exact Or.inl (hbelow hz hr)
      · refine Or.inr ⟨hpaused.trans hst.paused, ?_⟩
        rw [hstands hst.paused]
        exact hst.counter_le
    · rcases hv.returns hz with hr | hst
      · have hlt := (hbelow hz hr).lt
        rw [(hbelow hz hr).target] at hlt
        exact absurd hreached (not_le.mpr hlt)
      · exact absurd (hp.symm.trans hst.paused) (by decide)

/-- **The overflow.** -/
theorem overflow_part {s₂ s₄ : Scheduler} {w₂ w₄ : Components} {v₂ : Slot} {callbackId : ℤ} (hn : Numbered w₂)
    (hnow : s₀.eeCycles.count < 2 ^ 54) (hset : ∀ y, setting w₂ y = g y) (hc : callbackId = (g x).callback)
    (hd : During s₀ i x g s₂ v₂) (hb : Brought (g x) s₀.eeCycles.count v₂)
    (h : (if v₂.timer.overflowMask < v₂.timer.counter then
      if v₂.timer.canOverflow then
        interrupt callbackId v₂.timer.param true (setTimer s₂ x.number
          { v₂.timer with counter := int64 (v₂.timer.counter - (v₂.timer.overflowMask + 1)) }) w₂
      else some (setTimer s₂ x.number
        { v₂.timer with counter := int64 (v₂.timer.counter - (v₂.timer.overflowMask + 1)) }, w₂)
      else some (s₂, w₂)) = some (s₄, w₄)) :
    ∃ v₄, During s₀ i x g s₄ v₄ ∧ Brought (g x) s₀.eeCycles.count v₄ ∧ Numbered w₄ ∧
      (∀ y, setting w₄ y = g y) ∧ (v₂.timer.counter = 0 → v₄.timer.counter = 0) := by
  have hs := hd.set.sound
  have hmask := hs.mask_nonneg
  have hlast := hs.last_le
  have hle := hs.counter_le
  by_cases hover : v₂.timer.overflowMask < v₂.timer.counter
  · have hword : int64 (v₂.timer.counter - (v₂.timer.overflowMask + 1)) =
        v₂.timer.counter - (v₂.timer.overflowMask + 1) := int64_of_range (by omega) (by omega)
    rw [if_pos hover, hword] at h
    have hd₃ := hd.wrap hover rfl
    have hzero : v₂.timer.counter ≠ 0 := by omega
    have hb₃ : Brought (g x) s₀.eeCycles.count
        ⟨{ v₂.timer with counter := v₂.timer.counter - (v₂.timer.overflowMask + 1) }, v₂.due⟩ := by
      refine ⟨hb.fresh, fun hz => ?_⟩
      rcases hb.below hz with hbelow | hst
      · have hlt := hbelow.lt
        exact Or.inl ⟨hbelow.target, hbelow.pos, hbelow.canTarget, hbelow.precise, by dsimp only; omega⟩
      · have hle' := hst.counter_le
        exact Or.inr ⟨hst.paused, by dsimp only; omega⟩
    split_ifs at h with hcan
    · have hparam : v₂.timer.param = (setting w₂ x).param := by
        rw [hset]
        exact hd.set.set.param
      rw [hc, ← hset, hparam] at h
      obtain ⟨hops, hn₄, hset₄⟩ := interrupt_request hn h
      rw [Bool.not_true, Bool.false_and, if_neg Bool.false_ne_true] at hops
      cases hops
      exact ⟨_, hd₃, hb₃, hn₄, fun y => (hset₄ y).trans (hset y), fun h0 => absurd h0 hzero⟩
    · cases h
      exact ⟨_, hd₃, hb₃, hn, hset, fun h0 => absurd h0 hzero⟩
  · rw [if_neg hover] at h
    cases h
    exact ⟨v₂, hd, hb, hn, hset, id⟩

/-- **The timer is armed again**, and the event that was run goes. -/
theorem restart_part (hd : During s₀ i x g s v)
    (hb : Brought (g x) s₀.eeCycles.count v) (hs : restartTimer s x.number = some s') :
    (∀ y, ∃ v', Has { s' with events := s'.events.eraseIdx i } y.number v' ∧
      Matches (g y) s₀.eeCycles.count v') ∧
      (s'.events.eraseIdx i).take i = s₀.events.take i ∧ s'.timers.length = 10 ∧
      ∃ t, s'.timers[x.number]? = some t ∧ valueAt t s₀.eeCycles.count = v.timer.counter := by
  obtain ⟨e, hi, he⟩ := hd.event
  obtain ⟨d, hdelta, hacts⟩ := acts_restart hd.owned hd.slot hi he hs
  rw [hd.cycles] at hacts
  have hid : ∀ e ∈ s.events, e.eventId < s.nextEventId := fun e he =>
    hd.owned.id_lt (key e) (List.mem_map_of_mem he)
  obtain ⟨t, d', ht, -, -, rfl⟩ := restartTimer_eq_some hid hs
  refine ⟨fun y => ?_, ?_, ?_, ?_⟩
  · by_cases hy : y = x
    · subst hy
      have hself := hacts.slot y.number v hd.slot
      rw [if_pos rfl] at hself
      refine ⟨_, hself, ?_⟩
      have hset := hd.set.set.mode
      have hsound := hd.set.sound
      refine ⟨⟨hset.callback, hset.param, hset.mask, hset.target, hset.target_lt, hset.steady, hset.running⟩,
        hsound.congr rfl rfl rfl rfl hsound.counter_nonneg hsound.counter_le, fun hz => ?_⟩
      rcases hb.below hz with hbelow | hst
      swap
      · exact Or.inr ⟨hst.paused, hst.counter_le⟩
      refine Or.inl ⟨hbelow.target, hbelow.pos, hbelow.canTarget, hbelow.precise, ?_⟩
      cases hp : v.timer.paused with
      | true => exact ⟨hbelow.lt.le, fun hrun => absurd (hp.symm.trans hrun) (by decide)⟩
      | false =>
        have hlast := hb.fresh hp
        rw [← hlast] at hsound ⊢
        exact delta_inTime (t := { v.timer with eventId := s.nextEventId })
          (hsound.congr rfl rfl rfl rfl hsound.counter_nonneg hsound.counter_le) hp hbelow.lt hbelow.precise hdelta
    · obtain ⟨v₁, hv₁, hm⟩ := hd.others y hy
      have hother := hacts.slot y.number v₁ hv₁
      rw [if_neg fun hnum => hy (number_inj hnum).symm] at hother
      exact ⟨v₁, hother, hm⟩
  · have hile := (List.getElem?_eq_some_iff.mp hi).1
    rw [List.take_eraseIdx_eq_take_of_le _ _ _ le_rfl, List.take_append_of_le_length hile.le]
    exact hd.kept
  · dsimp only
    rw [List.length_set]
    exact hd.length
  · obtain rfl := Option.some.inj (hd.slot.timer.symm.trans ht)
    refine ⟨_, List.getElem?_set_self (List.getElem?_eq_some_iff.mp ht).1, ?_⟩
    unfold valueAt
    split_ifs with hp
    · rfl
    · have hlast := hb.fresh (by simpa using hp)
      rw [← hlast]
      exact (counterAt_last hd.set.sound : counterAt v.timer v.timer.lastUpdate = v.timer.counter)

/-- **The event of a timer**, run from the `i`-th place of the list. -/
theorem timerEvent_ready (hr : Ready s w) {e : SchedulerEvent} (hi : s.events[i]? = some e)
    (hf : e.funcId = s.timerEventId) (h : timerEventOf interrupt s e.param w = some (s', w')) :
    Ready { s' with events := s'.events.eraseIdx i } w' ∧ (s'.events.eraseIdx i).take i = s.events.take i ∧
      s'.eeCycles = s.eeCycles ∧ ∀ x, x.number = e.param → zeroReturn w x = true →
        ∀ t, s.timers[x.number]? = some t → t.paused = false →
        target w x ≤ valueAt t s.eeCycles.count →
          ∃ t', s'.timers[x.number]? = some t' ∧ valueAt t' s.eeCycles.count = 0 := by
  -- as an event of the scheduler
  obtain ⟨part, hpart, hrun⟩ := timerEventOf_scripted h
  have howned := (timerEvent_owned scripted_keeps hr.owned
    (fun ops hops s₁ _ o ho => onTimer_foreign (hpart ops (by simpa using hops) o ho)) hi hf (hrun [])).1.owned
  obtain ⟨hbounded, hcycles, -⟩ := timerEvent_bounded scripted_respects hr.bounded
    (fun ops hops o ho => onTimer_inRange (hpart ops (by simpa using hops) o ho)) (hrun [])
  -- the timer that it belongs to
  obtain ⟨l, hl, hlid⟩ := hr.owned.owner (key e) (List.mem_map_of_mem (List.mem_of_getElem? hi)) hf
  have hlt : e.param < 10 := by
    have hlen := (List.getElem?_eq_some_iff.mp hl).1
    rw [labels, List.length_map, hr.length] at hlen
    exact hlen
  obtain ⟨x, hx⟩ : ∃ x : Which, x.number = e.param := ⟨_, number_which hlt⟩
  obtain ⟨v, hv, hm⟩ := hr.slot x
  have hid : e.eventId = v.timer.eventId := by
    rw [labels, List.getElem?_map, Option.map_eq_some_iff] at hl
    obtain ⟨t, ht, rfl⟩ := hl
    have ht' : s.timers[e.param]? = some v.timer := by rw [← hx]; exact hv.timer
    obtain rfl := Option.some.inj (ht'.symm.trans ht)
    exact hlid.symm
  rw [← hx] at h
  simp only [timerEventOf, Option.bind_eq_bind, Option.bind_eq_some_iff, Option.pure_def, Option.some.injEq,
    Prod.mk.injEq] at h
  obtain ⟨t, ht, ⟨c, s₁⟩, h₁, t₁, ht₁, ⟨s₂, w₂⟩, h₂, t₂, ht₂, ⟨s₄, w₄⟩, h₄, s₅, h₅, rfl, rfl⟩ := h
  obtain rfl := Option.some.inj (hv.timer.symm.trans ht)
  have hstart : During s i x (setting w) s v :=
    ⟨hr.owned, hr.length, rfl, hv, ⟨e, hi, hid⟩, hm.stop, fun y _ => hr.slot y, rfl⟩
  have hread := hstart.read hr.clock h₁
  obtain rfl := Option.some.inj (hread.slot.timer.symm.trans ht₁)
  obtain ⟨v₂, hd₂, hb₂, hn₂, hset₂, hzero₂⟩ := target_part hr.numbered hr.clock hm hread
    (readTimer_alike hm.sound hr.clock) (ZeroReturn.readTimer_last hm.sound hr.clock) (readTimer_running _ _)
    (fun hp => by rw [Slot.read, readTimer, if_pos hp]) h₂
  obtain rfl := Option.some.inj (hd₂.slot.timer.symm.trans ht₂)
  obtain ⟨v₄, hd₄, hb₄, hn₄, hset₄, hzero₄⟩ := overflow_part hn₂ hr.clock hset₂ hread.set.set.callback hd₂ hb₂ h₄
  obtain ⟨hslots, hkept, hlength, t₅, ht₅, hvalue⟩ := restart_part hd₄ hb₄ h₅
  have hbound := erase_bounded hbounded i
  refine ⟨⟨howned, hbound, ?_, hn₄, hlength, fun y => ?_⟩, hkept, hcycles, fun y hy hz t ht' hp hreached => ?_⟩
  · show s₅.eeCycles.count < 2 ^ 54
    rw [hcycles]
    exact hr.clock
  · obtain ⟨v', hv', hm'⟩ := hslots y
    refine ⟨v', hv', ?_⟩
    show Matches (setting w₄ y) s₅.eeCycles.count v'
    rwa [hcycles, hset₄]
  · obtain rfl := number_inj (hy.trans hx.symm)
    obtain rfl := Option.some.inj (hv.timer.symm.trans ht')
    refine ⟨t₅, ht₅, hvalue.trans (hzero₄ (hzero₂ hz hp ?_))⟩
    exact hreached.trans (ZeroReturn.readTimer_counter hm.sound hr.clock).ge

end DobieStation.Timing.Restart
