import DobieStation.Timing.Model

/-! # The IOP timers

The translation of `iop/iop_timers.cpp`: the six timers of the IOP, three of 16 bits and three of 32, as the
scheduler sees them. As for the EE each function gives back the component and the operations it makes on the
scheduler, in order; the interrupts asserted come third where there are any. -/

namespace DobieStation.Timing.IOPTimers

open DobieStation.Timing.Model

structure TimerControl where
  useGate : Bool
  gateMode : ℕ
  zeroReturn : Bool
  compareInterruptEnabled : Bool
  overflowInterruptEnabled : Bool
  repeatInt : Bool
  toggleInt : Bool
  intEnable : Bool
  externSignal : Bool
  prescale : ℕ
  compareInterrupt : Bool
  overflowInterrupt : Bool
  started : Bool
  deriving DecidableEq, Repr

structure Timer where
  counter : ℕ
  control : TimerControl
  target : ℕ
  deriving DecidableEq, Repr

structure IOPTiming where
  timers : Fin 6 → Timer
  events : Fin 6 → ℕ

/-- `timers[i]` becomes `t`. -/
def IOPTiming.set (p : IOPTiming) (i : Fin 6) (t : Timer) : IOPTiming :=
  { p with timers := Function.update p.timers i t }

def overflowMask (i : Fin 6) : ℕ := if i.val < 3 then 0xFFFF else 0xFFFFFFFF

/-- `reset` keeps the prescaler and `started`; the timers run from then on. -/
def reset (p : IOPTiming) (s : Scheduler) : IOPTiming × List Op :=
  ({ timers := fun i =>
      { counter := 0
        control := { (p.timers i).control with
          gateMode := 0
          useGate := false
          zeroReturn := false
          compareInterruptEnabled := false
          overflowInterruptEnabled := false
          repeatInt := false
          toggleInt := false
          intEnable := false
          externSignal := false
          compareInterrupt := false
          overflowInterrupt := false }
        target := 0 }
     events := fun i => s.timers.length + i },
    .registerTimerCallback ::
      ((List.finRange 6).map fun i => Op.createTimer s.timerCallbacks (overflowMask i) i) ++
      (List.finRange 6).map fun i => Op.setTimerPause (s.timers.length + i) false)

def irqs (i : Fin 6) : ℕ := [4, 5, 6, 14, 15, 16].getD i 0

/-- `IRQ_test`. -/
def irqTest (p : IOPTiming) (index : Fin 6) (overflow : Bool) : IOPTiming × List Op × List ℕ :=
  let t := p.timers index
  let cleared := !overflow && t.control.zeroReturn
  let ops : List Op := if cleared then [.setTimerCounter (p.events index) 0] else []
  let asserted := if t.control.intEnable then [irqs index] else []
  let control : TimerControl :=
    { t.control with
      overflowInterrupt := t.control.overflowInterrupt || (t.control.intEnable && overflow)
      compareInterrupt := t.control.compareInterrupt || (t.control.intEnable && !overflow)
      intEnable :=
        if !t.control.repeatInt then false
        else if t.control.toggleInt then !t.control.intEnable
        else t.control.intEnable }
  (p.set index { t with counter := if cleared then 0 else t.counter, control := control }, ops, asserted)

/-- `read_counter`, of the value that `get_timer_counter` returns. -/
def readCounter (p : IOPTiming) (index : Fin 6) (value : ℤ) : ℕ × IOPTiming :=
  let t := { p.timers index with counter := (uint64 value).toNat }
  (t.counter % 2 ^ 32, p.set index t)

/-- `read_control`, which takes back the flags of both interrupts. -/
def readControl (p : IOPTiming) (index : Fin 6) : ℕ × IOPTiming :=
  let t := p.timers index
  let c := t.control
  let reg := c.useGate.toNat ||| c.gateMode <<< 1 ||| c.zeroReturn.toNat <<< 3 |||
    c.compareInterruptEnabled.toNat <<< 4 ||| c.overflowInterruptEnabled.toNat <<< 5 |||
    c.repeatInt.toNat <<< 6 ||| c.toggleInt.toNat <<< 7 ||| c.externSignal.toNat <<< 8 |||
    c.intEnable.toNat <<< 10 ||| c.compareInterrupt.toNat <<< 11 ||| c.overflowInterrupt.toNat <<< 12 |||
    c.prescale <<< (if index.val < 4 then 9 else 13)
  (reg % 2 ^ 16, p.set index { t with
    control := { c with compareInterrupt := false, overflowInterrupt := false } })

def writeCounter (p : IOPTiming) (index : Fin 6) (value : BitVec 32) : IOPTiming × List Op :=
  (p.set index { p.timers index with counter := value.toNat },
    [.setTimerCounter (p.events index) value.toNat])

/-- The clock that `write_control` selects, before the prescaler. -/
def clockSource (index : Fin 6) (externSignal : Bool) : ℕ :=
  if externSignal then
    match index.val with
    -- the pixel clock
    | 0 => 15 * 1000 * 1000
    -- HBLANK
    | 1 => iopClockrate / 2350
    | 3 => iopClockrate / 2350
    | _ => iopClockrate
  else iopClockrate

def prescaled (clockrate prescale : ℕ) : ℕ :=
  match prescale with
  | 1 => clockrate / 8
  | 2 => clockrate / 16
  | 3 => clockrate / 256
  | _ => clockrate

/-- `write_control`; a gate is fatal. -/
def writeControl (p : IOPTiming) (index : Fin 6) (value : BitVec 16) : Option (IOPTiming × List Op) :=
  let t := p.timers index
  let v := value.toNat
  if v.testBit 0 then none
  else
    let control : TimerControl :=
      { t.control with
        useGate := false
        started := true
        gateMode := v / 2 % 4
        zeroReturn := v.testBit 3
        compareInterruptEnabled := v.testBit 4
        overflowInterruptEnabled := v.testBit 5
        repeatInt := v.testBit 6
        toggleInt := v.testBit 7
        intEnable := true
        externSignal := v.testBit 8
        prescale := if index.val < 4 then v / 2 ^ 9 % 2 else v / 2 ^ 13 % 4 }
    let clockrate := prescaled (clockSource index control.externSignal) control.prescale
    some (p.set index { t with control := control, counter := 0 },
      [.setTimerClockrate (p.events index) clockrate,
        .setTimerCounter (p.events index) 0,
        .setTimerPause (p.events index) (!control.started),
        .setTimerIntMask (p.events index) control.overflowInterruptEnabled control.compareInterruptEnabled])

def writeTarget (p : IOPTiming) (index : Fin 6) (value : BitVec 32) : IOPTiming × List Op :=
  let t := p.timers index
  let control := { t.control with intEnable := t.control.intEnable || !t.control.toggleInt }
  (p.set index { t with target := value.toNat, control := control },
    [.setTimerTarget (p.events index) value.toNat])

end DobieStation.Timing.IOPTimers
