import DobieStation.Ee.Run

/-! # Program order

What the log of a machine with delay slots and interrupts has to look like. `Place` is the place in
the program: the instruction that was fetched last, the first one that is not executed yet, and the
branches in whose delay slots these two stand. `follow` goes through the log: only the next
instruction may be fetched, an interrupt saves the address of the next instruction (or of its branch,
with BD) and goes on at a vector, and a return from an exception goes on at what was saved. -/

namespace DobieStation.Ee.ProgramOrder

open DobieStation.Ee.Interface

structure Slot where
  branch : Word
  target : Word
  deriving DecidableEq, Repr

/-- `epc` is nothing as long as it was not written. -/
structure Place where
  current : Word
  next : Word
  before : Option Slot
  slot : Option Slot
  epc : Option Word
  deriving DecidableEq, Repr

/-- The exception vectors of an interrupt, in the RAM and in the BIOS. -/
def vectors : List Word := [0x80000200, 0xBFC00400]

/-- What follows `pc`, or comes at the end of a delay slot. -/
def after (slot : Option Slot) (pc : Word) : Word :=
  match slot with
  | none => pc
  | some s => s.target

/-- The address that an exception saves for an instruction. -/
def saved (slot : Option Slot) (pc : Word) : Word :=
  match slot with
  | none => pc
  | some s => s.branch

/-- A jump without a delay slot. In the slot of a branch it has no effect, unless it is to itself. -/
def Place.jump (o : Place) (pc : Word) : Place :=
  if o.before.isSome ∧ pc = o.current then { o with next := pc, slot := o.before }
  else { o with next := after o.before pc, slot := none }

def follow (o : Place) : Event → Option Place
  | .fetch pc =>
    if pc = o.next then
      some { o with current := pc, next := after o.slot (pc + 4), before := o.slot, slot := none }
    else none
  | .branch target => some { o with next := o.current + 4, slot := some ⟨o.current, target⟩ }
  | .nullify => some { o with next := after o.before (o.current + 8) }
  | .pair => some { o with next := after o.before (o.current + 8) }
  | .stall => some { o with next := o.current, slot := o.before }
  | .eret pc => if ∀ e ∈ o.epc, pc = e then some (o.jump pc) else none
  | .eretError pc => some (o.jump pc)
  | .boot entry => some (o.jump entry)
  | .setEPC value => some { o with epc := some value }
  | .trap epc bd handler =>
    if epc = saved o.before o.current ∧ bd = o.before.isSome then
      some { o with next := handler + 4, before := none, slot := none, epc := some epc }
    else none
  | .interrupt epc bd handler =>
    if epc = saved o.slot o.next ∧ bd = o.slot.isSome ∧ handler ∈ vectors then
      some { o with next := handler, before := none, slot := none, epc := some epc }
    else none
  | .store _ => some o

/-- The first instruction is that of the BIOS. -/
def Place.start : Place := ⟨0, 0xBFC00000, none, none, none⟩

/-- The place that a log leads to, the last event first. -/
def track : List Event → Option Place
  | [] => some .start
  | e :: log => (track log).bind fun o => follow o e

@[simp] theorem track_cons (e : Event) (log : List Event) :
    track (e :: log) = (track log).bind fun o => follow o e := rfl

theorem track_none_append {log : List Event} (h : track log = none) : ∀ l : List Event,
    track (l ++ log) = none
  | [] => h
  | e :: l => by rw [List.cons_append, track_cons, track_none_append h l, Option.bind_none]

/-- Stores of the registers of the INTC do not change the place. -/
theorem track_stores {log : List Event} : ∀ {l : List Event}, (∀ e ∈ l, e = .store false) →
    track (l ++ log) = track log
  | [], _ => rfl
  | e :: l, h => by
    rw [List.cons_append, track_cons, track_stores fun e he => h e (List.mem_cons_of_mem _ he),
      h e List.mem_cons_self]
    cases track log <;> rfl

end DobieStation.Ee.ProgramOrder
