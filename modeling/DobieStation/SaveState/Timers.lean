import DobieStation.Timing.Ownership

/-! # Timers across sessions

`Scheduler` in `serialize.cpp`, and the resets around it. A timer is saved with its `callback_id`, a
position in `timer_callbacks`, which no reset clears: each reset of the emulator registers the
callback of the IOP's timers and that of the EE's once more. A session is a process; what it loads
has been saved by another one. -/

namespace DobieStation.SaveState.Timers

open DobieStation.Timing.Model DobieStation.Timing.Events DobieStation.Timing.Armed
open DobieStation.Timing.Ownership

/-! ### The saved scheduler -/

/-- The fields of the file, in their order. -/
structure Saved where
  eeCycles : CycleCount
  busCycles : CycleCount
  iopCycles : CycleCount
  runCycles : ℕ
  closestEventTime : ℤ
  events : List SchedulerEvent
  nextEventId : ℕ
  timers : List SchedulerTimer
  deriving DecidableEq, Repr

def save_state (s : Scheduler) : Saved :=
  ⟨s.eeCycles, s.busCycles, s.iopCycles, s.runCycles, s.closestEventTime, s.events, s.nextEventId,
    s.timers⟩

def load_state (s : Scheduler) (f : Saved) : Scheduler :=
  { s with
    eeCycles := f.eeCycles
    busCycles := f.busCycles
    iopCycles := f.iopCycles
    runCycles := f.runCycles
    closestEventTime := f.closestEventTime
    events := f.events
    nextEventId := f.nextEventId
    timers := f.timers }

/-! ### A reset of the emulator -/

/-- A callback is registered, and a timer created for each mask. -/
def timersReset (s : Scheduler) (masks : List ℕ) : List Op :=
  .registerTimerCallback :: masks.zipIdx.map fun m => .createTimer s.timerCallbacks m.1 m.2

def iopTimersReset (s : Scheduler) : List Op :=
  timersReset s [0xFFFF, 0xFFFF, 0xFFFF, 0xFFFFFFFF, 0xFFFFFFFF, 0xFFFFFFFF] ++
    (List.range 6).map fun i => .setTimerPause (s.timers.length + i) false

def eeTimersReset (s : Scheduler) : List Op := timersReset s [0xFFFF, 0xFFFF, 0xFFFF, 0xFFFF]

example (e : Timing.EETimers.EmotionTiming) (s : Scheduler) :
    (Timing.EETimers.reset e s).2 = eeTimersReset s := rfl

def hblankCycles : ℕ := 18742

/-- The functions of the emulator itself, and the first HBLANK and sound sample. -/
def emulatorFunctions (s : Scheduler) : List Op :=
  List.replicate 5 .registerFunction ++
    [.addEvent (s.registeredFuncs + 2) hblankCycles 0, .addEvent (s.registeredFuncs + 3) (768 * 8) 0]

/-- What `Emulator::reset` does to the scheduler: the CDVD registers a function before the timers of
the IOP are reset, and the INTC before those of the EE. -/
def resetScheduler (s : Scheduler) : Option Scheduler := do
  let s₁ := (registerFunction (reset s)).2
  let s₂ ← (iopTimersReset s₁).foldlM Op.apply s₁
  let s₃ := (registerFunction s₂).2
  let s₄ ← (eeTimersReset s₃).foldlM Op.apply s₃
  (emulatorFunctions s₄).foldlM Op.apply s₄

/-- Whose function a timer callback is. -/
inductive Owner where
  | iop
  | ee
  deriving DecidableEq, Repr

/-- The scheduler of a process and the functions of `timer_callbacks`. -/
structure Session where
  sched : Scheduler
  callbacks : List Owner
  deriving DecidableEq, Repr

def Session.reset (x : Session) : Option Session :=
  (resetScheduler x.sched).map fun s => ⟨s, x.callbacks ++ [.iop, .ee]⟩

/-- `Emulator::load_state` resets before it loads. -/
def Session.load (x : Session) (f : Saved) : Option Session :=
  x.reset.map fun y => { y with sched := load_state y.sched f }

/-- `timer_callbacks[cb_id]`. -/
def Session.callback (x : Session) (t : SchedulerTimer) : Option Owner :=
  if 0 ≤ t.callbackId then x.callbacks[t.callbackId.toNat]? else none

/-- `timer_event`, where `what` is what the functions of the two components do. -/
def Session.timerEvent {E : Type} (what : Owner → Callback E) (x : Session) (id : ℕ) (env : E) :
    Option (Scheduler × E) := do
  let t ← x.sched.timers[id]?
  Timing.Model.timerEvent (fun s env => (x.callback t).bind fun c => what c s env) x.sched id env

/-! ### Histories -/

/-- The callbacks that the timers of `f` need are there once `x` has been reset. -/
def Covers (x : Session) (f : Saved) : Prop :=
  ∀ t ∈ f.timers, t.callbackId < (x.callbacks.length + 2 : ℕ)

instance (x : Session) (f : Saved) : Decidable (Covers x f) :=
  inferInstanceAs (Decidable (∀ t ∈ f.timers, _))

/-- A process from its first reset on: what it loads is a state that some process has saved. -/
inductive Reachable : Session → Prop where
  | start {x y : Session} (hx : x.callbacks = [] ∧ x.sched.timerCallbacks = 0)
      (hy : x.reset = some y) : Reachable y
  | run {x : Session} {a : Action} {s : Scheduler} (hx : Reachable x) (ha : Ordinary x.sched a)
      (hs : a.exec x.sched = some s) : Reachable { x with sched := s }
  | reset {x y : Session} (hx : Reachable x) (hy : x.reset = some y) : Reachable y
  | load {x y z : Session} (hx : Reachable x) (hz : Reachable z)
      (hc : Covers x (save_state z.sched)) (hy : x.load (save_state z.sched) = some y) : Reachable y

/-! ### Resets come to an end -/

section Reset

variable {s s' : Scheduler}

/-- The counts that tell which operations of a reset succeed. -/
structure Counts where
  funcs : ℕ
  callbacks : ℕ
  timers : ℕ

def counts (s : Scheduler) : Counts := ⟨s.registeredFuncs, s.timerCallbacks, s.timers.length⟩

def Counts.after (c : Counts) : Op → Counts
  | .registerFunction => { c with funcs := c.funcs + 1 }
  | .registerTimerCallback => { c with callbacks := c.callbacks + 1 }
  | .createTimer _ _ _ => { c with timers := c.timers + 1 }
  | _ => c

def Counts.Allows (c : Counts) : Op → Prop
  | .registerFunction | .registerTimerCallback => True
  | .createTimer callback _ _ => 0 ≤ callback ∧ callback < c.callbacks
  | .setTimerPause id paused => id < c.timers ∧ paused = false
  | .addEvent f _ _ => 0 < f ∧ f < c.funcs
  | _ => False

def Counts.AllowsAll (c : Counts) : List Op → Prop
  | [] => True
  | o :: ops => c.Allows o ∧ (c.after o).AllowsAll ops

/-- What holds from the reset of the scheduler to the end of that of the emulator. -/
structure Ready (s : Scheduler) : Prop where
  count : s.eeCycles.count = 0
  func : s.timerEventId = 0
  funcs : 0 < s.registeredFuncs
  owned : Owned s

theorem createTimer_ready (h : Ready s) {c : ℤ} {m p : ℕ} (hc : 0 ≤ c ∧ c < s.timerCallbacks) :
    ∃ s', Op.apply s (.createTimer c m p) = some s' ∧ Ready s' ∧
      counts s' = (counts s).after (.createTimer c m p) := by
  have hfuncs := h.funcs
  have hf : ¬ (s.timerEventId < 0 ∨ (s.registeredFuncs : ℤ) ≤ s.timerEventId) := by
    rw [h.func]
    omega
  have hc' : ¬ (c < 0 ∨ (s.timerCallbacks : ℤ) ≤ c) := by omega
  have hcreate : ∃ s', createTimer s c m p = some (s.timers.length, s') ∧
      keys s' = keys s ++ [(s.nextEventId, s.timers.length, s.timerEventId)] ∧
      labels s' = labels s ++ [(s.nextEventId, c)] ∧ s'.timerEventId = s.timerEventId ∧
      s'.timerCallbacks = s.timerCallbacks ∧ s'.nextEventId = s.nextEventId + 1 ∧
      s'.eeCycles = s.eeCycles ∧ counts s' = (counts s).after (.createTimer c m p) := by
    unfold createTimer addEvent
    rw [if_neg hc', if_neg hf]
    refine ⟨_, rfl, ?_, ?_, rfl, rfl, rfl, rfl, ?_⟩
    · rw [keys, List.map_append]
      rfl
    · rw [labels, List.map_append]
      rfl
    · simp [counts, Counts.after]
  obtain ⟨s', hs', hk, hl, hfunc, hcb, hn, hee, hcounts⟩ := hcreate
  refine ⟨s', by rw [Op.apply, hs']; rfl, ⟨?_, ?_, ?_, h.owned.adopt hc hk hl hfunc hcb hn⟩, hcounts⟩
  · rw [hee, h.count]
  · rw [hfunc, h.func]
  · have := congrArg Counts.funcs hcounts
    simp only [counts, Counts.after] at this
    omega

theorem pending_of_owned (h : Owned s) {id : ℕ} {t : SchedulerTimer} (ht : s.timers[id]? = some t) :
    ∃ i, getEventPtr s t.eventId = some i := by
  have hlabel : (labels s)[id]? = some (label t) := by
    rw [labels, List.getElem?_map, ht]
    rfl
  obtain ⟨e, he, hk⟩ := List.mem_map.mp (h.owns id _ hlabel)
  simp only [key, label, Prod.mk.injEq] at hk
  refine Option.isSome_iff_exists.mp ?_
  rw [getEventPtr, List.findIdx?_isSome, List.any_eq_true]
  exact ⟨e, he, by simp [hk.1]⟩

theorem rearm_ends {id i : ℕ} {t : SchedulerTimer} {delta time : ℤ} (ht : s.timers[id]? = some t)
    (hdelta : calculateTimerEventDelta t = some delta)
    (htime : addInt64 s.eeCycles.count delta = some time) (hi : getEventPtr s t.eventId = some i) :
    ∃ s', updateTimerEventTime s id = some s' := by
  unfold updateTimerEventTime
  simp only [ht, hdelta, htime, hi, Option.bind_eq_bind, Option.bind_some]
  exact ⟨_, rfl⟩

/-- Un-pausing comes to an end whatever the timer is. -/
theorem unpause_ready (h : Ready s) {id : ℕ} (hid : id < s.timers.length) :
    ∃ s', Op.apply s (.setTimerPause id false) = some s' ∧ Ready s' ∧ counts s' = counts s := by
  obtain ⟨t, ht⟩ : ∃ t, s.timers[id]? = some t := ⟨_, List.getElem?_eq_getElem hid⟩
  have hends : ∃ s', setTimerPause s id false = some s' := by
    unfold setTimerPause
    rw [ht, Option.bind_eq_bind, Option.bind_some]
    split_ifs with hp hpause
    · exact ⟨s, rfl⟩
    · exact hpause.elim
    · have hpaused : t.paused = true := by
        cases hq : t.paused
        · exact absurd hq.symm hp
        · rfl
      have hdelta : calculateTimerEventDelta t = some pausedDelta := by
        rw [calculateTimerEventDelta, if_pos hpaused]
      have htime : addInt64 s.eeCycles.count pausedDelta = some pausedDelta := by
        rw [h.count]
        decide
      obtain ⟨i, hi⟩ := pending_of_owned h.owned ht
      obtain ⟨s₁, hs₁⟩ := rearm_ends ht hdelta htime hi
      rw [hs₁]
      exact ⟨_, rfl⟩
  obtain ⟨s', hs'⟩ := hends
  have hg := grows_setTimerPause hs'
  have hsame : s'.eeCycles = s.eeCycles ∧ s'.registeredFuncs = s.registeredFuncs := by
    obtain ⟨t', -, ⟨-, rfl⟩ | ⟨-, -, -, -, i, -, rfl⟩ | ⟨-, -, s₁, h₁, rfl⟩⟩ :=
      setTimerPause_eq_some hs'
    · exact ⟨rfl, rfl⟩
    · exact ⟨rfl, rfl⟩
    · obtain ⟨t'', d, i, -, -, -, -, rfl⟩ := updateTimerEventTime_eq_some h₁
      exact ⟨rfl, rfl⟩
  have hlen : s'.timers.length = s.timers.length := by
    have := congrArg List.length hg.labels
    rwa [labels, labels, List.length_map, List.length_map] at this
  refine ⟨s', hs', ⟨?_, ?_, ?_, h.owned.grows hg⟩, ?_⟩
  · rw [hsame.1, h.count]
  · rw [hg.func, h.func]
  · rw [hsame.2]
    exact h.funcs
  · rw [counts, counts, hsame.2, hg.callbacks, hlen]

/-- One operation of a reset. -/
theorem reset_step (h : Ready s) {o : Op} (ho : (counts s).Allows o) :
    ∃ s', o.apply s = some s' ∧ Ready s' ∧ counts s' = (counts s).after o := by
  cases o with
  | registerFunction =>
    exact ⟨_, rfl, ⟨h.count, h.func, Nat.succ_pos _, h.owned.grows (grows_same rfl rfl rfl rfl rfl)⟩,
      rfl⟩
  | registerTimerCallback =>
    have ho := h.owned
    refine ⟨_, rfl, ⟨h.count, h.func, h.funcs, ?_⟩, rfl⟩
    refine ⟨ho.id_lt, ho.ids, ho.owns, ho.owner, fun l hl => ?_⟩
    obtain ⟨h₁, h₂⟩ := ho.callback l hl
    refine ⟨h₁, ?_⟩
    simp only [registerTimerCallback]
    omega
  | createTimer c m p => exact createTimer_ready h ho
  | setTimerPause id paused =>
    obtain ⟨hid, rfl⟩ := ho
    exact unpause_ready h hid
  | addEvent f d p =>
    obtain ⟨h₁, h₂⟩ := ho
    have hf : ¬ (f < 0 ∨ (s.registeredFuncs : ℤ) ≤ f) := by
      change f < (s.registeredFuncs : ℤ) at h₂
      omega
    have hadd : ∃ s', addEvent s f d p = some (s.nextEventId, s') := by
      unfold addEvent
      rw [if_neg hf]
      exact ⟨_, rfl⟩
    obtain ⟨s', hs'⟩ := hadd
    have hne : f ≠ s.timerEventId := by
      rw [h.func]
      omega
    have hg := grows_addEvent hne hs'
    obtain ⟨-, heq⟩ := addEvent_eq_some hs'
    refine ⟨s', by rw [Op.apply, hs']; rfl, ⟨?_, ?_, ?_, h.owned.grows hg⟩, ?_⟩
    · rw [heq]
      exact h.count
    · rw [heq]
      exact h.func
    · rw [heq]
      exact h.funcs
    · rw [heq]
      rfl
  | getTimerCounter id => exact False.elim ho
  | setTimerCounter id v => exact False.elim ho
  | setTimerTarget id v => exact False.elim ho
  | setTimerClockrate id v => exact False.elim ho
  | setTimerIntMask id o t => exact False.elim ho

theorem reset_steps : ∀ (ops : List Op) {s : Scheduler}, Ready s → (counts s).AllowsAll ops →
    ∃ s', ops.foldlM Op.apply s = some s' ∧ Ready s' ∧
      counts s' = ops.foldl Counts.after (counts s)
  | [], s, h, _ => ⟨s, rfl, h, rfl⟩
  | o :: ops, s, h, ho => by
    obtain ⟨s₁, h₁, hr, hc⟩ := reset_step h ho.1
    have hall : (counts s₁).AllowsAll ops := by
      rw [hc]
      exact ho.2
    obtain ⟨s', hs', hr', hc'⟩ := reset_steps ops hr hall
    refine ⟨s', ?_, hr', ?_⟩
    · rw [List.foldlM_cons, h₁]
      exact hs'
    · rw [hc', hc]
      rfl

/-- The callback is registered before the timers that have it are created. -/
theorem timersReset_allowed {c : Counts} (hc : s.timerCallbacks = c.callbacks) (masks : List ℕ)
    (ops : List Op) (hops : Counts.AllowsAll
      ⟨c.funcs, c.callbacks + 1, c.timers + masks.length⟩ ops) :
    c.AllowsAll (timersReset s masks ++ ops) := by
  have hcreate : ∀ (l : List (ℕ × ℕ)) (c' : Counts), c'.callbacks = c.callbacks + 1 →
      Counts.AllowsAll ⟨c'.funcs, c'.callbacks, c'.timers + l.length⟩ ops →
      c'.AllowsAll (l.map (fun m => Op.createTimer s.timerCallbacks m.1 m.2) ++ ops) := by
    intro l
    induction l with
    | nil => exact fun _ _ h => h
    | cons m l ih =>
      intro c' hc' h
      refine ⟨⟨by omega, by rw [hc', hc]; push_cast; omega⟩, ih _ hc' ?_⟩
      rw [List.length_cons, ← Nat.add_assoc, Nat.add_right_comm] at h
      exact h
  refine ⟨trivial, hcreate _ _ rfl ?_⟩
  rw [List.length_zipIdx]
  exact hops

/-- **A reset of the emulator comes to an end** and registers two callbacks. -/
theorem resetScheduler_ends (s : Scheduler) : ∃ s', resetScheduler s = some s' ∧ Owned s' ∧
    s'.timerEventId = 0 ∧ s'.timerCallbacks = s.timerCallbacks + 2 := by
  have h₁ : Ready (registerFunction (reset s)).2 :=
    ⟨rfl, rfl, Nat.succ_pos _, ⟨by simp [keys, registerFunction, reset],
      by simp [keys, registerFunction, reset], by simp [labels, registerFunction, reset],
      by simp [keys, registerFunction, reset], by simp [labels, registerFunction, reset]⟩⟩
  have hiop : (counts (registerFunction (reset s)).2).AllowsAll
      (iopTimersReset (registerFunction (reset s)).2) := by
    refine timersReset_allowed rfl _ _ ?_
    simp [counts, registerFunction, reset, List.range, List.range.loop, Counts.AllowsAll,
      Counts.Allows, Counts.after]
  obtain ⟨s₂, h₂, hr₂, hc₂⟩ := reset_steps _ h₁ hiop
  have hr₃ : Ready (registerFunction s₂).2 :=
    ⟨hr₂.count, hr₂.func, Nat.succ_pos _, hr₂.owned.grows (grows_same rfl rfl rfl rfl rfl)⟩
  have hee : (counts (registerFunction s₂).2).AllowsAll (eeTimersReset (registerFunction s₂).2) := by
    have := timersReset_allowed (s := (registerFunction s₂).2)
      (c := counts (registerFunction s₂).2) rfl [0xFFFF, 0xFFFF, 0xFFFF, 0xFFFF] []
      trivial
    rwa [List.append_nil] at this
  obtain ⟨s₄, h₄, hr₄, hc₄⟩ := reset_steps _ hr₃ hee
  have hemu : (counts s₄).AllowsAll (emulatorFunctions s₄) := by
    simp [counts, emulatorFunctions, List.replicate, Counts.AllowsAll, Counts.Allows, Counts.after]
    omega
  obtain ⟨s₅, h₅, hr₅, hc₅⟩ := reset_steps _ hr₄ hemu
  refine ⟨s₅, ?_, hr₅.owned, hr₅.func, ?_⟩
  · unfold resetScheduler
    simp only [h₂, h₄, Option.bind_eq_bind, Option.bind_some]
    exact h₅
  · have hn₂ : s₂.timerCallbacks = s.timerCallbacks + 1 := congrArg Counts.callbacks hc₂
    have hn₄ : s₄.timerCallbacks = s₂.timerCallbacks + 1 := congrArg Counts.callbacks hc₄
    have hn₅ : s₅.timerCallbacks = s₄.timerCallbacks := congrArg Counts.callbacks hc₅
    omega

end Reset

/-! ### Sessions -/

section Sessions

variable {x y r : Session}

/-- Which component a callback belongs to follows from its position. -/
structure Sound (x : Session) : Prop where
  length : x.sched.timerCallbacks = x.callbacks.length
  even : x.callbacks.length % 2 = 0
  owner : ∀ (i : ℕ) c, x.callbacks[i]? = some c → c = if i % 2 = 0 then .iop else .ee
  func : x.sched.timerEventId = 0
  owned : Owned x.sched

theorem reset_ends (x : Session) : ∃ y, x.reset = some y ∧
    y.callbacks = x.callbacks ++ [.iop, .ee] ∧ Owned y.sched ∧ y.sched.timerEventId = 0 ∧
    y.sched.timerCallbacks = x.sched.timerCallbacks + 2 := by
  obtain ⟨s', hs', ho, hf, hc⟩ := resetScheduler_ends x.sched
  exact ⟨_, by rw [Session.reset, hs', Option.map_some], rfl, ho, hf, hc⟩

/-- The callbacks after one more reset. -/
theorem owner_append {cs : List Owner} (heven : cs.length % 2 = 0)
    (h : ∀ (i : ℕ) c, cs[i]? = some c → c = if i % 2 = 0 then .iop else .ee) (i : ℕ) (c : Owner)
    (hc : (cs ++ [.iop, .ee])[i]? = some c) : c = if i % 2 = 0 then .iop else .ee := by
  rcases lt_or_ge i cs.length with hi | hi
  · rw [List.getElem?_append_left hi] at hc
    exact h i c hc
  · rw [List.getElem?_append_right hi] at hc
    obtain ⟨k, hk⟩ : ∃ k, i = cs.length + k := ⟨i - cs.length, by omega⟩
    subst hk
    rw [Nat.add_sub_cancel_left] at hc
    have hlt : k < 2 := (List.getElem?_eq_some_iff.mp hc).1
    obtain rfl | rfl : k = 0 ∨ k = 1 := by omega
    · rw [if_pos (by omega)]
      exact (Option.some.inj hc).symm
    · rw [if_neg (by omega)]
      exact (Option.some.inj hc).symm

theorem sound_reset (hlen : x.sched.timerCallbacks = x.callbacks.length)
    (heven : x.callbacks.length % 2 = 0)
    (howner : ∀ (i : ℕ) c, x.callbacks[i]? = some c → c = if i % 2 = 0 then .iop else .ee)
    (h : x.reset = some y) : Sound y ∧ y.callbacks = x.callbacks ++ [.iop, .ee] := by
  obtain ⟨y', hy', hcs, ho, hf, hc⟩ := reset_ends x
  rw [h] at hy'
  cases hy'
  refine ⟨⟨?_, ?_, ?_, hf, ho⟩, hcs⟩
  · rw [hcs, hc, hlen, List.length_append]
    rfl
  · rw [hcs, List.length_append]
    change (x.callbacks.length + 2) % 2 = 0
    omega
  · rw [hcs]
    exact owner_append heven howner

/-- The timers of a file whose callbacks are there. -/
theorem owned_load {s z : Scheduler} (hz : Owned z) (hfunc : s.timerEventId = z.timerEventId)
    (hc : ∀ t ∈ z.timers, t.callbackId < s.timerCallbacks) :
    Owned (load_state s (save_state z)) := by
  refine ⟨hz.id_lt, hz.ids, fun id l hl => ?_, fun k hk hf => ?_, fun l hl => ?_⟩
  · change (l.1, id, s.timerEventId) ∈ keys z
    rw [hfunc]
    exact hz.owns id l hl
  · change k.2.2 = s.timerEventId at hf
    rw [hfunc] at hf
    exact hz.owner k hk hf
  · obtain ⟨t, ht, rfl⟩ := List.mem_map.mp hl
    exact ⟨(hz.callback _ (List.mem_map_of_mem ht)).1, hc t ht⟩

theorem reachable_sound (h : Reachable x) : Sound x := by
  induction h with
  | start hx hy =>
    refine (sound_reset ?_ ?_ ?_ hy).1
    · rw [hx.1, hx.2]
      rfl
    · rw [hx.1]
      rfl
    · rw [hx.1]
      exact fun i c hc => by simp at hc
  | run hx ha hs ih =>
    have hk := action_owned ih.owned ha hs
    exact ⟨hk.callbacks.trans ih.length, ih.even, ih.owner, hk.func.trans ih.func, hk.owned⟩
  | reset hx hy ih => exact (sound_reset ih.length ih.even ih.owner hy).1
  | load hx hz hc hy ihx ihz =>
    obtain ⟨y', hy', rfl⟩ := Option.map_eq_some_iff.mp hy
    obtain ⟨hs, hcs⟩ := sound_reset ihx.length ihx.even ihx.owner hy'
    refine ⟨hs.length, hs.even, hs.owner, hs.func, owned_load ihz.owned (hs.func.trans ihz.func.symm) ?_⟩
    intro t ht
    rw [hs.length, hcs, List.length_append]
    exact hc t ht

/-- What a load has to restore of the timers of `x`: the callback of each is the function that it was
at the time of the save, which `timer_event` then calls, and its event is pending, so that
`update_timer_event_time` fails only where its arithmetic does. -/
structure Restored (x y : Session) : Prop where
  callback : ∀ (id : ℕ) t, y.sched.timers[id]? = some t →
    ∃ t₀ c, x.sched.timers[id]? = some t₀ ∧ x.callback t₀ = some c ∧ y.callback t = some c ∧
      ∀ (E : Type) (what : Owner → Callback E) env,
        y.timerEvent what id env = Timing.Model.timerEvent (what c) y.sched id env
  event : ∀ (id : ℕ) t, y.sched.timers[id]? = some t → (∃ i, getEventPtr y.sched t.eventId = some i) ∧
    ∀ delta time, calculateTimerEventDelta t = some delta →
      addInt64 y.sched.eeCycles.count delta = some time →
        ∃ s, updateTimerEventTime y.sched id = some s

theorem callback_eq_some {t : SchedulerTimer} {c : Owner} (h : x.callback t = some c) :
    0 ≤ t.callbackId ∧ x.callbacks[t.callbackId.toNat]? = some c := by
  unfold Session.callback at h
  split_ifs at h with h0
  exact ⟨h0, h⟩

theorem exists_callback (hx : Sound x) {t : SchedulerTimer} (ht : t ∈ x.sched.timers) :
    ∃ c, x.callback t = some c := by
  obtain ⟨h0, hlt⟩ := hx.owned.callback _ (List.mem_map_of_mem ht)
  have hlen := hx.length
  change 0 ≤ t.callbackId at h0
  change t.callbackId < (x.sched.timerCallbacks : ℤ) at hlt
  have hnat : t.callbackId.toNat < x.callbacks.length := by omega
  refine ⟨x.callbacks[t.callbackId.toNat], ?_⟩
  rw [Session.callback, if_pos h0, List.getElem?_eq_getElem hnat]

theorem timerEvent_eq {E : Type} (what : Owner → Callback E) {id : ℕ} {t : SchedulerTimer} {c : Owner}
    (ht : y.sched.timers[id]? = some t) (hc : y.callback t = some c) (env : E) :
    y.timerEvent what id env = Timing.Model.timerEvent (what c) y.sched id env := by
  rw [Session.timerEvent, ht, Option.bind_eq_bind, Option.bind_some]
  simp only [hc, Option.bind_some]

/-- **The timers are restored exactly if their callbacks are there**, in every process that has loaded
no others. -/
theorem timers_restored_iff (hx : Reachable x) (hr : Reachable r) :
    (∃ y, r.load (save_state x.sched) = some y ∧ Restored x y) ↔ Covers r (save_state x.sched) := by
  have hsx := reachable_sound hx
  have hsr := reachable_sound hr
  obtain ⟨r', hr', -⟩ := reset_ends r
  obtain ⟨hs, hcs⟩ := sound_reset hsr.length hsr.even hsr.owner hr'
  have hload : r.load (save_state x.sched) =
      some { r' with sched := load_state r'.sched (save_state x.sched) } := by
    rw [Session.load, hr', Option.map_some]
  have hlen : r'.callbacks.length = r.callbacks.length + 2 := by
    rw [hcs, List.length_append]
    rfl
  constructor
  · rintro ⟨y, hy, hrest⟩ t ht
    rw [hload] at hy
    cases hy
    obtain ⟨id, hid⟩ := List.mem_iff_getElem?.mp ht
    obtain ⟨t₀, c, -, -, hc, -⟩ := hrest.callback id t hid
    obtain ⟨h0, hc⟩ := callback_eq_some hc
    have hlt := (List.getElem?_eq_some_iff.mp hc).1
    change t.callbackId.toNat < r'.callbacks.length at hlt
    omega
  · intro hcov
    refine ⟨_, hload, ⟨fun id t ht => ?_, fun id t ht => ?_⟩⟩
    · obtain ⟨c, hc⟩ := exists_callback hsx (List.mem_of_getElem? ht)
      obtain ⟨h0, hc'⟩ := callback_eq_some hc
      have hlt := hcov t (List.mem_of_getElem? ht)
      have hnat : t.callbackId.toNat < r'.callbacks.length := by omega
      -- the position decides whose function it is
      have hsame : Session.callback { r' with sched := load_state r'.sched (save_state x.sched) } t =
          some c := by
        have hget := List.getElem?_eq_getElem hnat
        rw [Session.callback, if_pos h0]
        change r'.callbacks[t.callbackId.toNat]? = some c
        rw [hget, hs.owner _ _ hget, hsx.owner _ _ hc']
      exact ⟨t, c, ht, hc, hsame, fun E what env => timerEvent_eq what ht hsame env⟩
    · have howned : Owned (load_state r'.sched (save_state x.sched)) := by
        refine owned_load hsx.owned (hs.func.trans hsx.func.symm) fun t ht => ?_
        rw [hs.length, hlen]
        exact hcov t ht
      obtain ⟨i, hi⟩ := pending_of_owned howned ht
      exact ⟨⟨i, hi⟩, fun delta time hdelta htime => rearm_ends ht hdelta htime hi⟩

/-- A process before its first reset. -/
def powerOn : Session := ⟨Timing.Timeliness.blank, []⟩

/-- A process that has been reset twice loads what one has saved that has been reset three times. -/
theorem timers_restored_twice : ∃ x₁ x₂ x₃, powerOn.reset = some x₁ ∧ x₁.reset = some x₂ ∧
    x₂.reset = some x₃ ∧ Covers x₂ (save_state x₃.sched) ∧
    ((∃ y, x₂.load (save_state x₃.sched) = some y ∧ Restored x₃ y) ↔
      Covers x₂ (save_state x₃.sched)) := by
  have hrun : (powerOn.reset.bind fun x₁ => x₁.reset.bind fun x₂ => x₂.reset.map fun x₃ =>
      decide (Covers x₂ (save_state x₃.sched))) = some true := by
    decide
  obtain ⟨x₁, h₁, hrun⟩ := Option.bind_eq_some_iff.mp hrun
  obtain ⟨x₂, h₂, hrun⟩ := Option.bind_eq_some_iff.mp hrun
  obtain ⟨x₃, h₃, hcov⟩ := Option.map_eq_some_iff.mp hrun
  have hx₂ : Reachable x₂ := .reset (.start ⟨rfl, rfl⟩ h₁) h₂
  exact ⟨x₁, x₂, x₃, h₁, h₂, h₃, of_decide_eq_true hcov, timers_restored_iff (.reset hx₂ h₃) hx₂⟩

/-- A process that has been reset once does not have the callbacks. -/
theorem callback_missing : ¬ ∀ x r : Session, Reachable x → Reachable r →
    ∃ y, r.load (save_state x.sched) = some y ∧ Restored x y := by
  intro hall
  have hrun : (powerOn.reset.bind fun x₁ => x₁.reset.bind fun x₂ => x₂.reset.bind fun x₃ =>
      (x₁.load (save_state x₃.sched)).map fun y =>
        (y.sched.timers.map y.callback)) = some (List.replicate 10 none) := by
    decide
  obtain ⟨x₁, h₁, hrun⟩ := Option.bind_eq_some_iff.mp hrun
  obtain ⟨x₂, h₂, hrun⟩ := Option.bind_eq_some_iff.mp hrun
  obtain ⟨x₃, h₃, hrun⟩ := Option.bind_eq_some_iff.mp hrun
  obtain ⟨y, hy, hnone⟩ := Option.map_eq_some_iff.mp hrun
  have hx₁ : Reachable x₁ := .start ⟨rfl, rfl⟩ h₁
  obtain ⟨y', hy', hrest⟩ := hall x₃ x₁ (.reset (.reset hx₁ h₂) h₃) hx₁
  rw [hy] at hy'
  cases hy'
  have hfirst : (y.sched.timers.map y.callback)[0]? = some none := by
    rw [hnone]
    rfl
  rw [List.getElem?_map, Option.map_eq_some_iff] at hfirst
  obtain ⟨t, ht, hmissing⟩ := hfirst
  obtain ⟨-, c, -, -, hc, -⟩ := hrest.callback 0 t ht
  rw [hmissing] at hc
  cases hc

end Sessions

end DobieStation.SaveState.Timers
