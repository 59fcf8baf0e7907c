import DobieStation.Timing.EETimers
import DobieStation.Timing.IOPTimers
import DobieStation.Timing.Timeliness

/-! # The timers in the loop of the emulator

The scheduler with the two components that have timers. The callbacks that these register are `interrupt`; unlike the
scheduler itself, a run has to know which one is called and what for (`timerEventOf`). The pass of `process_events`
is taken apart into its steps: while it is inside a function of another component, this component makes its calls one
by one, as it does between the passes. -/

namespace DobieStation.Timing.Loop

open DobieStation.Timing.Model
open DobieStation.Timing.EETimers (EmotionTiming)
open DobieStation.Timing.IOPTimers (IOPTiming)

structure Components where
  ee : EmotionTiming
  eeCallback : ℤ
  iop : IOPTiming
  iopCallback : ℤ

/-! ### The callbacks -/

section

variable {E : Type} (call : ℤ → ℕ → Bool → Callback E)

/-- `timer_event`, with what it hands to the callback. -/
def timerEventOf (s : Scheduler) (index : ℕ) (env : E) : Option (Scheduler × E) := do
  let t ← s.timers[index]?
  let oldCounter := t.counter % 2 ^ 32
  let (_, s1) ← getTimerCounter s index
  let t1 ← s1.timers[index]?
  let (s2, env2) ←
    (if targetHit oldCounter t1 && t1.canTarget then call t1.callbackId t1.param false s1 env else some (s1, env))
  let t2 ← s2.timers[index]?
  let t3 := { t2 with counter := int64 (t2.counter - (t2.overflowMask + 1)) }
  let s3 := setTimer s2 index t3
  let (s4, env4) ←
    (if t2.overflowMask < t2.counter then
      if t3.canOverflow then call t1.callbackId t3.param true s3 env2 else some (s3, env2)
    else some (s2, env2))
  let s5 ← restartTimer s4 index
  return (s5, env4)

end

/-- Callbacks that are not told what they are called for. -/
theorem timerEventOf_const {E : Type} (call : Callback E) :
    timerEventOf (fun _ _ _ => call) = timerEvent call := rfl

/-- The functions that the two components have registered. -/
def interrupt (callbackId : ℤ) (param : ℕ) (overflow : Bool) : Callback Components := fun s w =>
  if callbackId = w.iopCallback then
    if h : param < 6 then
      let r := IOPTimers.irqTest w.iop ⟨param, h⟩ overflow
      (r.2.1.foldlM Op.apply s).map fun s' => (s', { w with iop := r.1 })
    else none
  else if callbackId = w.eeCallback then
    if h : param < 4 then
      let r := EETimers.timerInterrupt w.ee ⟨param, h⟩ overflow
      (r.2.1.foldlM Op.apply s).map fun s' => (s', { w with ee := r.1 })
    else none
  else none

/-! ### The calls -/

/-- What the other components call: the registers of the timers, the gates, and new events of their own. -/
inductive Call where
  | eeReadCounter (index : Fin 4)
  | eeWrite (addr value : ℕ)
  | eeGate (VSYNC high : Bool)
  | iopReadCounter (index : Fin 6)
  | iopReadControl (index : Fin 6)
  | iopWriteCounter (index : Fin 6) (value : BitVec 32)
  | iopWriteControl (index : Fin 6) (value : BitVec 16)
  | iopWriteTarget (index : Fin 6) (value : BitVec 32)
  | addEvent (funcId : ℤ) (delta param : ℕ)
  deriving DecidableEq, Repr

/-- The component after the call, and the operations the call makes on the scheduler. -/
def Call.request (w : Components) : Call → Option (Components × List Op)
  | .eeReadCounter i => some (w, [.getTimerCounter (w.ee.events i)])
  | .eeWrite addr value => (EETimers.write32 w.ee addr value).map fun r => ({ w with ee := r.1 }, r.2)
  | .eeGate VSYNC high => some ({ w with ee := (EETimers.gate w.ee VSYNC high).1 }, (EETimers.gate w.ee VSYNC high).2)
  | .iopReadCounter i => some (w, [.getTimerCounter (w.iop.events i)])
  | .iopReadControl i => some ({ w with iop := (IOPTimers.readControl w.iop i).2 }, [])
  | .iopWriteCounter i value =>
    some ({ w with iop := (IOPTimers.writeCounter w.iop i value).1 }, (IOPTimers.writeCounter w.iop i value).2)
  | .iopWriteControl i value => (IOPTimers.writeControl w.iop i value).map fun r => ({ w with iop := r.1 }, r.2)
  | .iopWriteTarget i value =>
    some ({ w with iop := (IOPTimers.writeTarget w.iop i value).1 }, (IOPTimers.writeTarget w.iop i value).2)
  | .addEvent f delta param => some (w, [.addEvent f delta param])

/-- The counter read is kept in the component. -/
def Call.answer (s : Scheduler) (w : Components) : Call → Components
  | .eeReadCounter i => match s.timers[w.ee.events i]? with
    | some t => { w with ee := (EETimers.readCounter w.ee i t.counter).2 }
    | none => w
  | .iopReadCounter i => match s.timers[w.iop.events i]? with
    | some t => { w with iop := (IOPTimers.readCounter w.iop i t.counter).2 }
    | none => w
  | _ => w

def Call.exec (s : Scheduler) (w : Components) (c : Call) : Option (Scheduler × Components) :=
  (c.request w).bind fun r => (r.2.foldlM Op.apply s).map fun s' => (s', c.answer s' r.1)

/-! ### The loop -/

/-- Where the loop is: between two passes, at the `i`-th event of a pass with the time collected so far, or inside
the function of this event. -/
inductive Phase where
  | between
  | visiting (i : ℕ) (newTime : ℤ)
  | inside (i : ℕ) (newTime : ℤ)
  deriving DecidableEq, Repr

structure Machine where
  sched : Scheduler
  components : Components
  phase : Phase

inductive Action where
  | call (c : Call)
  | advance
  | pass

/-- The next step of `process_events`. -/
def Machine.pass (m : Machine) : Option Machine :=
  match m.phase with
  | .between =>
    if m.sched.closestEventTime ≤ m.sched.eeCycles.count then some { m with phase := .visiting 0 newTimeInit }
    else some m
  | .visiting i newTime =>
    match m.sched.events[i]? with
    | none => some { m with sched := { m.sched with closestEventTime := newTime }, phase := .between }
    | some e =>
      if e.timeToRun ≤ m.sched.closestEventTime then
        if e.funcId = m.sched.timerEventId then
          (timerEventOf interrupt m.sched e.param m.components).map fun r =>
            ⟨{ r.1 with events := r.1.events.eraseIdx i }, r.2, .visiting i newTime⟩
        else some { m with phase := .inside i newTime }
      else some { m with phase := .visiting (i + 1) (min e.timeToRun newTime) }
  | .inside i newTime =>
    some { m with sched := { m.sched with events := m.sched.events.eraseIdx i }, phase := .visiting i newTime }

def Action.exec (m : Machine) : Action → Option Machine
  | .call c =>
    match m.phase with
    | .visiting _ _ => none
    | _ => (c.exec m.sched m.components).map fun r => { m with sched := r.1, components := r.2 }
  | .advance =>
    match m.phase with
    | .between => (calculateRunCycles m.sched).map fun s => { m with sched := updateCycleCounts s }
    | _ => none
  | .pass => m.pass

def Step (m : Machine) (a : Action) (m' : Machine) : Prop := a.exec m = some m'

/-- The reset of the emulator, as far as the timers are concerned: the IOP timers come before those of the EE, and
the other components register some functions. -/
def boot (s₀ : Scheduler) (e : EmotionTiming) (p : IOPTiming) (functions : ℕ) : Option Machine :=
  let s := reset s₀
  let s1 := { s with registeredFuncs := s.registeredFuncs + functions }
  ((IOPTimers.reset p s1).2.foldlM Op.apply s1).bind fun s2 =>
    ((EETimers.reset e s2).2.foldlM Op.apply s2).map fun s3 =>
      ⟨s3, ⟨(EETimers.reset e s2).1, s2.timerCallbacks, (IOPTimers.reset p s1).1, s1.timerCallbacks⟩, .between⟩

def Init (m : Machine) : Prop := ∃ s₀ e p functions, boot s₀ e p functions = some m

end DobieStation.Timing.Loop
