import DobieStation.Timing.Model

/-! # The EE timers

The translation of `ee/timers.cpp`: the four timers of the EE, as the scheduler sees them. Each
function gives back the component and the operations it makes on the scheduler, in order; the
interrupts asserted come third where there are any. `reset` knows the ids it is given, since the
scheduler numbers callbacks and timers in order. -/

namespace DobieStation.Timing.EETimers

open DobieStation.Timing.Model

structure TimerControl where
  mode : ℕ
  gateEnable : Bool
  gateVBLANK : Bool
  gateMode : ℕ
  clearOnReference : Bool
  enabled : Bool
  compareIntEnable : Bool
  overflowIntEnable : Bool
  compareInt : Bool
  overflowInt : Bool
  deriving DecidableEq, Repr

structure Timer where
  counter : ℕ
  control : TimerControl
  compare : ℕ
  clocks : ℤ
  gated : Bool
  clockScale : ℕ
  deriving DecidableEq, Repr

structure EmotionTiming where
  timers : Fin 4 → Timer
  events : Fin 4 → ℕ

/-- `timers[i]` becomes `t`. -/
def EmotionTiming.set (e : EmotionTiming) (i : Fin 4) (t : Timer) : EmotionTiming :=
  { e with timers := Function.update e.timers i t }

/-- `reset` leaves most of the control fields as they are. -/
def reset (e : EmotionTiming) (s : Scheduler) : EmotionTiming × List Op :=
  ({ timers := fun i => { e.timers i with
        counter := 0
        clocks := 0
        gated := false
        compare := 0
        control := { (e.timers i).control with
          enabled := false, gateEnable := false, gateVBLANK := false } }
     events := fun i => s.timers.length + i },
    .registerTimerCallback ::
      (List.finRange 4).map fun i => .createTimer s.timerCallbacks 0xFFFF i)

def timerInterrupt (e : EmotionTiming) (index : Fin 4) (overflow : Bool) :
    EmotionTiming × List Op × List ℕ :=
  let t := e.timers index
  if !overflow then
    let cleared := t.control.clearOnReference
    let t1 := if cleared then { t with counter := 0 } else t
    let ops : List Op := if cleared then [.setTimerCounter (e.events index) 0] else []
    if !t.control.compareInt then
      (e.set index { t1 with control := { t1.control with compareInt := true } }, ops,
        [9 + index.val])
    else (e.set index t1, ops, [])
  else if !t.control.overflowInt then
    (e.set index { t with control := { t.control with overflowInt := true } }, [], [9 + index.val])
  else (e, [], [])

def isTimerEnabled (e : EmotionTiming) (index : Fin 4) : Bool :=
  !(e.timers index).gated && (e.timers index).control.enabled

/-- The body of the loop of `gate`. -/
def gateTimer (VSYNC high : Bool) (e : EmotionTiming) (i : Fin 4) : EmotionTiming × List Op :=
  let t := e.timers i
  if t.control.gateEnable && t.control.gateVBLANK == VSYNC then
    let resetCounter : List Op := [.setTimerCounter (e.events i) 0]
    let (t1, ops) : Timer × List Op := match t.control.gateMode with
      -- pause on HIGH
      | 0 => ({ t with gated := high }, [])
      -- reset on HIGH
      | 1 => if high then ({ t with counter := 0, gated := false }, resetCounter)
        else ({ t with gated := false }, [])
      -- reset on LOW
      | 2 => if !high then ({ t with counter := 0, gated := false }, resetCounter)
        else ({ t with gated := false }, [])
      -- reset on HIGH or LOW
      | 3 => ({ t with counter := 0, gated := false }, resetCounter)
      | _ => (t, [])
    let e1 := e.set i t1
    (e1, ops ++ [.setTimerPause (e.events i) (!isTimerEnabled e1 i)])
  else (e, [])

def gate (e : EmotionTiming) (VSYNC high : Bool) : EmotionTiming × List Op :=
  (List.finRange 4).foldl (fun (r : EmotionTiming × List Op) i =>
    let r' := gateTimer VSYNC high r.1 i
    (r'.1, r.2 ++ r'.2)) (e, [])

/-- `read32` of a counter, of the value that `get_timer_counter` returns. -/
def readCounter (e : EmotionTiming) (index : Fin 4) (value : ℤ) : ℕ × EmotionTiming :=
  let t := { e.timers index with counter := (value % 2 ^ 32).toNat }
  (t.counter, e.set index t)

/-- `write_control`; gating by HSYNC is fatal except in mode 3. -/
def writeControl (e : EmotionTiming) (index : Fin 4) (value : ℕ) : Option EmotionTiming :=
  let t := e.timers index
  let control : TimerControl :=
    { mode := value % 4
      gateEnable := value.testBit 2
      gateVBLANK := value.testBit 3
      gateMode := value / 16 % 4
      clearOnReference := value.testBit 6
      enabled := value.testBit 7
      compareIntEnable := value.testBit 8
      overflowIntEnable := value.testBit 9
      compareInt := t.control.compareInt && !value.testBit 10
      overflowInt := t.control.overflowInt && !value.testBit 11 }
  if control.gateEnable ∧ control.mode ≠ 3 ∧ control.gateVBLANK = false then none
  else
    let clockScale := match control.mode with
      -- the bus clock, a 16th and a 256th of it
      | 0 => 1
      | 1 => 16
      | 2 => 256
      -- HSYNC
      | _ => 9371
    some (e.set index { t with
      control := control
      clockScale := clockScale
      gated := control.gateEnable && (control.mode ≠ 3 || control.gateVBLANK)
      clocks := if clockScale = 1 then 0 else t.clocks })

def write32 (e : EmotionTiming) (addr value : ℕ) : Option (EmotionTiming × List Op) :=
  let id := Fin.ofNat 4 (addr / 2 ^ 11)
  let t := e.timers id
  match addr / 2 ^ 4 % 4 with
  | 0 =>
    let counter := value % 2 ^ 16
    some (e.set id { t with counter := counter }, [.setTimerCounter (e.events id) counter])
  | 1 => (writeControl e id value).map fun e1 =>
    let t1 := e1.timers id
    (e1, [.setTimerPause (e.events id) (!isTimerEnabled e1 id),
      .setTimerClockrate (e.events id) (busClockrate / t1.clockScale),
      .setTimerIntMask (e.events id) t1.control.overflowIntEnable t1.control.compareIntEnable])
  | 2 =>
    let compare := value % 2 ^ 16
    some (e.set id { t with compare := compare }, [.setTimerTarget (e.events id) compare])
  | _ => some (e, [])

end DobieStation.Timing.EETimers
