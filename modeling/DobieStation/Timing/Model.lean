import Mathlib.Algebra.Order.Ring.Int
import Mathlib.Data.List.Basic
import Mathlib.Tactic.Common

/-! # The scheduler

The translation of `scheduler.cpp`. A `SchedulerEvent` is due at `timeToRun`; `closestEventTime`
is the scheduler's bound on every due time, kept by hand at each place that moves one. A
`SchedulerTimer` counts EE cycles at its clock rate and owns one pending event, found by its id.

The 64-bit words are integers: `int64` and `uint64` are the two conversions, and what the source
computes in unsigned arithmetic is wrapped by them. An operation without a defined result (an
`Errors::die`, a vector index out of range, a division by zero, a signed overflow) is `none`.

The functions given to `register_function` and `register_timer_callback` belong to the other
components, so the code that calls them has what they do as a parameter, a `Callback`. All that the
scheduler sees of one is the operations it makes: in a run they are given by a `Script`. -/

namespace DobieStation.Timing.Model

/-! ### Machine words -/

/-- The conversion to `int64_t`. -/
def int64 (x : ℤ) : ℤ := x.bmod (2 ^ 64)

/-- The conversion to `uint64_t`. -/
def uint64 (x : ℤ) : ℤ := x % 2 ^ 64

/-- `TimestampLimit::max()`. -/
def timestampMax : ℤ := 2 ^ 63 - 1

/-- A signed sum, `none` where it overflows. -/
def addInt64 (x y : ℤ) : Option ℤ :=
  if -2 ^ 63 ≤ x + y ∧ x + y < 2 ^ 63 then some (x + y) else none

def eeClockrate : ℕ := 294912000
def busClockrate : ℕ := eeClockrate / 2
def iopClockrate : ℕ := eeClockrate / 8

/-! ### The state -/

structure CycleCount where
  count : ℤ
  remainder : ℕ
  deriving DecidableEq, Repr

structure SchedulerEvent where
  eventId : ℕ
  timeToRun : ℤ
  param : ℕ
  funcId : ℤ
  deriving DecidableEq, Repr

structure SchedulerTimer where
  eventId : ℕ
  param : ℕ
  counter : ℤ
  target : ℤ
  overflowMask : ℤ
  clockrate : ℤ
  remainderClocks : ℤ
  lastUpdate : ℤ
  callbackId : ℤ
  paused : Bool
  canOverflow : Bool
  canTarget : Bool
  deriving DecidableEq, Repr

/-- Of the vectors of functions only the lengths matter here. -/
structure Scheduler where
  eeCycles : CycleCount
  busCycles : CycleCount
  iopCycles : CycleCount
  runCycles : ℕ
  nextEventId : ℕ
  timerEventId : ℤ
  registeredFuncs : ℕ
  timerCallbacks : ℕ
  timers : List SchedulerTimer
  events : List SchedulerEvent
  closestEventTime : ℤ
  deriving DecidableEq, Repr

def registerFunction (s : Scheduler) : ℤ × Scheduler :=
  (s.registeredFuncs, { s with registeredFuncs := s.registeredFuncs + 1 })

def registerTimerCallback (s : Scheduler) : ℤ × Scheduler :=
  (s.timerCallbacks, { s with timerCallbacks := s.timerCallbacks + 1 })

/-- `reset` keeps the timer callbacks and `run_cycles`. -/
def reset (s : Scheduler) : Scheduler :=
  let s1 : Scheduler :=
    { s with
      registeredFuncs := 0
      eeCycles := ⟨0, 0⟩
      busCycles := ⟨0, 0⟩
      iopCycles := ⟨0, 0⟩
      nextEventId := 0
      closestEventTime := timestampMax
      events := []
      timers := [] }
  { (registerFunction s1).2 with timerEventId := (registerFunction s1).1 }

/-! ### The clock -/

def maxCycles : ℤ := 32

def calculateRunCycles (s : Scheduler) : Option Scheduler :=
  if s.events.length = 0 then none
  else if s.eeCycles.count + maxCycles ≤ s.closestEventTime then
    some { s with runCycles := maxCycles.toNat }
  else
    some { s with runCycles := (s.closestEventTime - s.eeCycles.count).toNat }

def getBusRunCycles (s : Scheduler) : ℕ :=
  if s.busCycles.remainder ≠ 0 ∧ s.runCycles % 2 = 1 then s.runCycles / 2 + 1
  else s.runCycles / 2

def getIopRunCycles (s : Scheduler) : ℕ :=
  if 8 ≤ s.iopCycles.remainder + s.runCycles % 8 then s.runCycles / 8 + 1 else s.runCycles / 8

def updateCycleCounts (s : Scheduler) : Scheduler :=
  let bus : CycleCount :=
    ⟨s.busCycles.count + (s.runCycles / 2 : ℕ), s.busCycles.remainder + s.runCycles % 2⟩
  let iop : CycleCount :=
    ⟨s.iopCycles.count + (s.runCycles / 8 : ℕ), s.iopCycles.remainder + s.runCycles % 8⟩
  { s with
    eeCycles := { s.eeCycles with count := s.eeCycles.count + s.runCycles }
    busCycles := if 1 < bus.remainder then ⟨bus.count + 1, 0⟩ else bus
    iopCycles := if 8 ≤ iop.remainder then ⟨iop.count + 1, iop.remainder - 8⟩ else iop }

/-! ### Events -/

/-- The due time is a sum of unsigned words. -/
def addEvent (s : Scheduler) (funcId : ℤ) (delta param : ℕ) : Option (ℕ × Scheduler) :=
  if funcId < 0 ∨ (s.registeredFuncs : ℤ) ≤ funcId then none
  else
    let time := int64 (s.eeCycles.count + delta)
    some (s.nextEventId,
      { s with
        nextEventId := s.nextEventId + 1
        closestEventTime := min time s.closestEventTime
        events := s.events ++ [⟨s.nextEventId, time, param, funcId⟩] })

/-- `get_event_ptr`, as the place of the event in the list. -/
def getEventPtr (s : Scheduler) (eventId : ℕ) : Option ℕ :=
  s.events.findIdx? fun e => e.eventId == eventId

/-- The assignment to `time_to_run` through the pointer. -/
def setTimeToRun (s : Scheduler) (i : ℕ) (time : ℤ) : Scheduler :=
  { s with events := s.events.modify i fun e => { e with timeToRun := time } }

/-! ### Timers -/

def setTimer (s : Scheduler) (id : ℕ) (t : SchedulerTimer) : Scheduler :=
  { s with timers := s.timers.set id t }

def convertToEeCycles (cycles clockrate : ℤ) : ℤ := uint64 (cycles * eeClockrate) / clockrate

/-- The kludge: half of `TimestampLimit::max()`, so that the sum in `update_timer_event_time` does
not overflow. -/
def pausedDelta : ℤ := timestampMax / 2

def calculateTimerEventDelta (t : SchedulerTimer) : Option ℤ :=
  if t.paused then some pausedDelta
  else if t.clockrate = 0 then none
  else
    let overflowDelta := int64 (convertToEeCycles (uint64 (t.overflowMask + 1 - t.counter))
      (uint64 t.clockrate) - t.remainderClocks / 2 ^ 8)
    if t.target ≤ t.counter then some (max overflowDelta 8)
    else
      let ticks : ℤ := ((t.target - t.counter).natAbs &&& (uint64 t.overflowMask).toNat : ℕ)
      let targetDelta := int64 (convertToEeCycles ticks (uint64 t.clockrate) -
        t.remainderClocks / 2 ^ 8)
      some (max (min overflowDelta targetDelta) 8)

def updateTimerEventTime (s : Scheduler) (id : ℕ) : Option Scheduler := do
  let t ← s.timers[id]?
  let delta ← calculateTimerEventDelta t
  let time ← addInt64 s.eeCycles.count delta
  let i ← getEventPtr s t.eventId
  return { setTimeToRun s i time with closestEventTime := min time s.closestEventTime }

/-- The EE cycles of one tick, in 8-bit fixed point. -/
def clockScale (t : SchedulerTimer) : ℤ := (eeClockrate * 2 ^ 8 : ℕ) / uint64 t.clockrate

/-- `update_timer_counter` on the timer itself, at the EE cycle `now`. -/
def advanceCounter (t : SchedulerTimer) (now : ℤ) : SchedulerTimer :=
  let delta := int64 ((now - t.lastUpdate) * 2 ^ 8)
  let remainder := int64 (t.remainderClocks + uint64 delta % clockScale t)
  let remainderDelta := int64 (uint64 remainder / clockScale t)
  let ticks := int64 (uint64 delta / clockScale t)
  if 0 < remainderDelta then
    { t with
      lastUpdate := now
      remainderClocks := uint64 remainder % clockScale t
      counter := int64 (t.counter + (ticks + remainderDelta)) }
  else
    { t with lastUpdate := now, remainderClocks := remainder, counter := int64 (t.counter + ticks) }

def updateTimerCounter (s : Scheduler) (id : ℕ) : Option Scheduler := do
  let t ← s.timers[id]?
  if t.paused then some s
  else if t.clockrate = 0 ∨ clockScale t = 0 then none
  else some (setTimer s id (advanceCounter t s.eeCycles.count))

def createTimer (s : Scheduler) (callbackId : ℤ) (overflowMask param : ℕ) :
    Option (ℕ × Scheduler) :=
  if callbackId < 0 ∨ (s.timerCallbacks : ℤ) ≤ callbackId then none
  else do
    let (eventId, s1) ← addEvent s s.timerEventId timestampMax.toNat s.timers.length
    let timer : SchedulerTimer :=
      { eventId := eventId
        param := param
        counter := 0
        target := timestampMax
        overflowMask := int64 overflowMask
        clockrate := 1
        remainderClocks := 0
        lastUpdate := s.eeCycles.count
        callbackId := callbackId
        paused := true
        canOverflow := false
        canTarget := false }
    return (s.timers.length, { s1 with timers := s1.timers ++ [timer] })

def restartTimer (s : Scheduler) (id : ℕ) : Option Scheduler := do
  let t ← s.timers[id]?
  let (eventId, s1) ← addEvent s s.timerEventId timestampMax.toNat id
  updateTimerEventTime (setTimer s1 id { t with eventId := eventId }) id

def getTimerCounter (s : Scheduler) (id : ℕ) : Option (ℤ × Scheduler) := do
  let t ← s.timers[id]?
  let s1 ← (if t.paused then some s else updateTimerCounter s id)
  let t1 ← s1.timers[id]?
  return (t1.counter, s1)

/-- The event is re-armed while `paused` still holds its old value. -/
def setTimerPause (s : Scheduler) (id : ℕ) (paused : Bool) : Option Scheduler := do
  let t ← s.timers[id]?
  if paused = t.paused then some s
  else if paused then
    (updateTimerCounter s id).bind fun s1 =>
      (s1.timers[id]?).bind fun t1 =>
        (getEventPtr s1 t1.eventId).map fun i =>
          setTimer (setTimeToRun s1 i timestampMax) id { t1 with paused := true }
  else
    (updateTimerEventTime s id).map fun s1 =>
      setTimer s1 id { t with lastUpdate := s.eeCycles.count, paused := false }

def setTimerIntMask (s : Scheduler) (id : ℕ) (canOverflow canTarget : Bool) : Option Scheduler := do
  let t ← s.timers[id]?
  return setTimer s id { t with canOverflow := canOverflow, canTarget := canTarget }

/-- The shape `set_timer_counter`, `set_timer_target` and `set_timer_clockrate` share: bring the
counter up to date, assign the field, re-arm the event. -/
def setTimerField (s : Scheduler) (id : ℕ) (assign : SchedulerTimer → SchedulerTimer) :
    Option Scheduler := do
  let t ← s.timers[id]?
  let s1 ← (if t.paused then some s else updateTimerCounter s id)
  let t1 ← s1.timers[id]?
  let s2 := setTimer s1 id (assign t1)
  if t.paused then some s2 else updateTimerEventTime s2 id

def setTimerCounter (s : Scheduler) (id counter : ℕ) : Option Scheduler :=
  setTimerField s id fun t => { t with counter := int64 counter }

def setTimerTarget (s : Scheduler) (id target : ℕ) : Option Scheduler :=
  setTimerField s id fun t => { t with target := int64 target }

def setTimerClockrate (s : Scheduler) (id clockrate : ℕ) : Option Scheduler :=
  setTimerField s id fun t => { t with clockrate := int64 clockrate, remainderClocks := 0 }

/-! ### The operations the other components call -/

inductive Op where
  | addEvent (funcId : ℤ) (delta param : ℕ)
  | createTimer (callbackId : ℤ) (overflowMask param : ℕ)
  | getTimerCounter (id : ℕ)
  | setTimerCounter (id counter : ℕ)
  | setTimerTarget (id target : ℕ)
  | setTimerClockrate (id clockrate : ℕ)
  | setTimerPause (id : ℕ) (paused : Bool)
  | setTimerIntMask (id : ℕ) (canOverflow canTarget : Bool)
  | registerFunction
  | registerTimerCallback
  deriving DecidableEq, Repr

def Op.apply (s : Scheduler) : Op → Option Scheduler
  | .addEvent f d p => (Model.addEvent s f d p).map Prod.snd
  | .createTimer c m p => (Model.createTimer s c m p).map Prod.snd
  | .getTimerCounter id => (Model.getTimerCounter s id).map Prod.snd
  | .setTimerCounter id v => Model.setTimerCounter s id v
  | .setTimerTarget id v => Model.setTimerTarget s id v
  | .setTimerClockrate id v => Model.setTimerClockrate s id v
  | .setTimerPause id p => Model.setTimerPause s id p
  | .setTimerIntMask id o t => Model.setTimerIntMask s id o t
  | .registerFunction => some (Model.registerFunction s).2
  | .registerTimerCallback => some (Model.registerTimerCallback s).2

/-! ### Running events -/

/-- What the functions of the other components do when they are called: they act on the scheduler
and on the world `E` outside it. -/
abbrev Callback (E : Type) := Scheduler → E → Option (Scheduler × E)

variable {E : Type} (call : Callback E)

/-- The test for the target callback of `timer_event`. -/
def targetHit (oldCounter : ℤ) (t : SchedulerTimer) : Bool :=
  (oldCounter ≤ t.target && t.target ≤ t.counter) ||
    (t.target ≤ oldCounter &&
      int64 ((uint64 t.target).toNat ||| (uint64 (t.overflowMask + 1)).toNat : ℕ) ≤ t.counter)

def timerEvent (s : Scheduler) (index : ℕ) (env : E) : Option (Scheduler × E) := do
  let t ← s.timers[index]?
  let oldCounter := t.counter % 2 ^ 32
  let (_, s1) ← getTimerCounter s index
  let t1 ← s1.timers[index]?
  let (s2, env2) ←
    (if targetHit oldCounter t1 && t1.canTarget then call s1 env else some (s1, env))
  let t2 ← s2.timers[index]?
  let t3 := { t2 with counter := int64 (t2.counter - (t2.overflowMask + 1)) }
  let s3 := setTimer s2 index t3
  let (s4, env4) ←
    (if t2.overflowMask < t2.counter then
      if t3.canOverflow then call s3 env2 else some (s3, env2)
    else some (s2, env2))
  let s5 ← restartTimer s4 index
  return (s5, env4)

/-- `registered_funcs[it->func_id](it->param)`. -/
def runFunc (s : Scheduler) (e : SchedulerEvent) (env : E) : Option (Scheduler × E) :=
  if e.funcId = s.timerEventId then timerEvent call s e.param env else call s env

/-- A record of one event run by `process_events`: the event, and the events the pass had kept by
then, as they were before its function was called and as the function left them. -/
structure Visit where
  ran : SchedulerEvent
  before : List SchedulerEvent
  after : List SchedulerEvent

/-- What a call of `process_events` leaves. -/
structure Processed (E : Type) where
  sched : Scheduler
  env : E
  visits : List Visit

/-- The loop of `process_events`, at the `i`-th event of the list. -/
def processLoop (fuel i : ℕ) (newTime : ℤ) (s : Scheduler) (env : E) : Option (Processed E) :=
  match fuel with
  | 0 => none
  | fuel + 1 =>
    match s.events[i]? with
    | none => some ⟨{ s with closestEventTime := newTime }, env, []⟩
    | some e =>
      if e.timeToRun ≤ s.closestEventTime then do
        let (s1, env1) ← runFunc call s e env
        let r ← processLoop fuel i newTime { s1 with events := s1.events.eraseIdx i } env1
        return { r with visits := ⟨e, s.events.take i, s1.events.take i⟩ :: r.visits }
      else processLoop fuel (i + 1) (min e.timeToRun newTime) s env

/-- The `new_time` the loop starts with, `0x7FFFFFFFULL << 32ULL`. -/
def newTimeInit : ℤ := 0x7FFFFFFF * 2 ^ 32

def processEvents (fuel : ℕ) (s : Scheduler) (env : E) : Option (Processed E) :=
  if s.closestEventTime ≤ s.eeCycles.count then processLoop call fuel 0 newTimeInit s env
  else some ⟨s, env, []⟩

/-! ### Runs -/

/-- The world as a script: for each call of a function of another component, the operations it
makes on the scheduler, in order. -/
abbrev Script := List (List Op)

def scripted : Callback Script
  | s, [] => some (s, [])
  | s, ops :: rest => (ops.foldlM Op.apply s).map fun s' => (s', rest)

/-- What can happen to the scheduler: a call by another component between the loop's calls, the
clock moving on (`calculate_run_cycles` and `update_cycle_counts`, made together), and
`process_events`. -/
inductive Action where
  | op (o : Op)
  | advance
  | process (fuel : ℕ) (script : Script)

def Action.exec (s : Scheduler) : Action → Option Scheduler
  | .op o => o.apply s
  | .advance => (calculateRunCycles s).map updateCycleCounts
  | .process fuel script => (processEvents scripted fuel s script).map Processed.sched

def Step (s : Scheduler) (a : Action) (s' : Scheduler) : Prop := a.exec s = some s'

/-- The state `reset` leaves, whatever was there before. -/
def Init (s : Scheduler) : Prop := ∃ s₀, s = reset s₀

end DobieStation.Timing.Model
