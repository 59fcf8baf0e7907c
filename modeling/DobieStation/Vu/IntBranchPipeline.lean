import Mathlib.Data.List.Basic
import Mathlib.Data.List.Induction
import Mathlib.Logic.Function.Basic
import Mathlib.Tactic.SplitIfs

/-! # The writes of integer registers before a branch

The translation of `VuIntBranchPipeline`. An instruction ends with `update` and records at most one write
before it. `update` copies its first slot into all the others (`pipeline_update`), so the slots are the
history of the writes if and only if the history repeats one record (`pipeline_follows_iff`). -/

namespace DobieStation.Vu.IntBranchPipeline

abbrev Value := BitVec 16

structure Entry where
  writeReg : ℕ
  oldValue : Value
  readAndWrite : Bool
  deriving DecidableEq, Repr

def Entry.clear : Entry := ⟨0, 0, false⟩

/-- `length`. -/
def slots : ℕ := 5

structure Pipeline where
  pipeline : ℕ → Entry
  next : Entry

namespace Pipeline

def writeReg (reg : ℕ) (oldValue : Value) (alsoRead : Bool) (p : Pipeline) : Pipeline :=
  { p with next := ⟨reg, oldValue, alsoRead⟩ }

/-- The loop of `update`, `n` turns of it. -/
def copyUp (q : ℕ → Entry) (n : ℕ) : ℕ → Entry :=
  (List.range n).foldl (fun q i => Function.update q (i + 1) (q i)) q

def update (p : Pipeline) : Pipeline where
  pipeline := copyUp (Function.update p.pipeline 0 p.next) (slots - 1)
  next := .clear

/-- The current instruction is not affected. -/
def flush (p : Pipeline) : Pipeline := { p with pipeline := fun _ => .clear }

def reset : Pipeline := ⟨fun _ => .clear, .clear⟩

/-- The loop for the oldest write, the first `n` turns of it. -/
def oldest (p : Pipeline) (reg : ℕ) (currentValue : Value) (n : ℕ) : Value :=
  (List.range n).foldl (fun v i => if reg = (p.pipeline i).writeReg then (p.pipeline i).oldValue else v)
    currentValue

def getBranchConditionReg (p : Pipeline) (reg : ℕ) (currentValue : Value) : Value :=
  if reg ≠ 0 ∧ reg = (p.pipeline 0).writeReg then
    if (p.pipeline 0).readAndWrite then p.oldest reg (p.pipeline 0).oldValue slots
    else (p.pipeline 0).oldValue
  else currentValue

end Pipeline

/-! ### Runs -/

/-- A write as `write_int` records it: register 0 is not written. -/
structure Record where
  reg : ℕ
  oldValue : Value
  alsoRead : Bool
  reg_ne : reg ≠ 0
  deriving DecidableEq, Repr

/-- An instruction, or a flush before one. -/
inductive Event where
  | instruction (r : Option Record)
  | flush
  deriving DecidableEq, Repr

def record (p : Pipeline) : Option Record → Pipeline
  | some r => p.writeReg r.reg r.oldValue r.alsoRead
  | none => p

def Event.exec (p : Pipeline) : Event → Pipeline
  | .instruction r => (record p r).update
  | .flush => p.flush

def run (l : List Event) : Pipeline := l.foldl Event.exec .reset

/-- What the instructions since the last flush have recorded, the latest first. -/
def Event.past (h : List (Option Record)) : Event → List (Option Record)
  | .instruction r => r :: h
  | .flush => []

def history (l : List Event) : List (Option Record) := l.foldl Event.past []

/-- It does not matter whether an instruction flushes before or after it records its write. -/
theorem flush_record (p : Pipeline) (r : Option Record) : (record p r).flush = record p.flush r := by
  cases r <;> rfl

/-! ### The purpose -/

def entry : Option Record → Entry
  | some r => ⟨r.reg, r.oldValue, r.alsoRead⟩
  | none => .clear

/-- Slot `i` holds the write of the instruction `i` before the latest one. -/
def Follows (p : Pipeline) (h : List (Option Record)) : Prop :=
  ∀ i < slots, p.pipeline i = entry (h.getD i none)

/-- The writes of a register, the latest first. -/
def writes (reg : ℕ) (h : List (Option Record)) : List Record :=
  h.filterMap fun r => r.filter (·.reg = reg)

/-- What a branch sees of a register. -/
def conditionReg (h : List (Option Record)) (reg : ℕ) (currentValue : Value) : Value :=
  match h.getD 0 none with
  | none => currentValue
  | some r =>
    if r.reg ≠ reg then currentValue
    else if ¬ r.alsoRead then r.oldValue
    else ((writes reg (h.take slots)).getLast?.map Record.oldValue).getD r.oldValue

/-- The records within the length of the pipeline are one record, or none of them is there. -/
def Repeats (h : List (Option Record)) : Prop := ∀ i < slots, h.getD i none = h.getD 0 none

theorem entry_injective : Function.Injective entry := by
  rintro (_ | r) (_ | r') h
  · rfl
  · exact absurd (congrArg Entry.writeReg h).symm r'.reg_ne
  · exact absurd (congrArg Entry.writeReg h) r.reg_ne
  · obtain ⟨reg, oldValue, alsoRead, hreg⟩ := r
    obtain ⟨reg', oldValue', alsoRead', hreg'⟩ := r'
    simp only [entry, Entry.mk.injEq] at h
    obtain ⟨rfl, rfl, rfl⟩ := h
    rfl

/-! ### Slots -/

open Pipeline (copyUp)

theorem copyUp_apply (q : ℕ → Entry) (n i : ℕ) : copyUp q n i =
    if i ≤ n then q 0 else q i := by
  induction n generalizing i with
  | zero =>
    by_cases hi : i = 0
    · simp [copyUp, hi]
    · rw [if_neg (by omega)]
      rfl
  | succ n ih =>
    have hstep : copyUp q (n + 1) = Function.update (copyUp q n) (n + 1) (copyUp q n n) := by
      rw [copyUp, List.range_succ, List.foldl_append]
      rfl
    rw [hstep]
    by_cases hi : i = n + 1
    · rw [hi, Function.update_self, ih, if_pos (Nat.le_refl _), if_pos (Nat.le_refl _)]
    · rw [Function.update_of_ne hi, ih]
      split_ifs <;> first | rfl | omega

theorem update_pipeline (p : Pipeline) {i : ℕ} (hi : i < slots) : p.update.pipeline i = p.next := by
  have hturns : i ≤ slots - 1 := Nat.le_sub_one_of_lt hi
  exact (copyUp_apply _ _ i).trans (by rw [if_pos hturns, Function.update_self])

theorem record_next {p : Pipeline} (h : p.next = .clear) (r : Option Record) : (record p r).next = entry r := by
  cases r with
  | none => exact h
  | some r => rfl

theorem run_append (l : List Event) (e : Event) : run (l ++ [e]) = e.exec (run l) := List.foldl_append ..

theorem history_append (l : List Event) (e : Event) : history (l ++ [e]) = e.past (history l) :=
  List.foldl_append ..

theorem run_next (l : List Event) : (run l).next = .clear := by
  induction l using List.reverseRecOn with
  | nil => rfl
  | append_singleton l e ih =>
    rw [run_append]
    cases e with
    | instruction r => rfl
    | flush => exact ih

/-- After an instruction every slot holds its write. -/
theorem run_pipeline (l : List Event) (r : Option Record) {i : ℕ} (hi : i < slots) :
    (run (l ++ [.instruction r])).pipeline i = entry r := by
  rw [run_append, Event.exec, update_pipeline _ hi, record_next (run_next l)]

/-! ### Branches -/

theorem writes_take_succ (h : List (Option Record)) (reg n : ℕ) :
    writes reg (h.take (n + 1)) = writes reg (h.take n) ++ ((h.getD n none).filter (·.reg = reg)).toList := by
  rw [writes, List.take_add_one, List.filterMap_append, List.getD_eq_getElem?_getD, writes]
  congr 1
  cases h[n]? with
  | none => rfl
  | some r => cases hr : r.filter (·.reg = reg) <;> simp [hr]

theorem oldest_eq {p : Pipeline} {h : List (Option Record)} (hp : Follows p h) {reg : ℕ} (hreg : reg ≠ 0)
    (v : Value) : ∀ n ≤ slots,
    p.oldest reg v n = ((writes reg (h.take n)).getLast?.map Record.oldValue).getD v := by
  intro n hn
  induction n with
  | zero => simp [Pipeline.oldest, writes]
  | succ n ih =>
    have hstep : p.oldest reg v (n + 1) =
        if reg = (p.pipeline n).writeReg then (p.pipeline n).oldValue else p.oldest reg v n := by
      rw [Pipeline.oldest, List.range_succ, List.foldl_append]
      rfl
    rw [hstep, ih (by omega), writes_take_succ, hp n (by omega)]
    rcases h.getD n none with _ | r
    · rw [if_neg (show reg ≠ (entry none).writeReg from hreg)]
      simp
    · by_cases hr : r.reg = reg
      · have hfilter : Option.filter (·.reg = reg) (some r) = some r := by simp [hr]
        rw [if_pos (show reg = (entry (some r)).writeReg from hr.symm), hfilter]
        simp [entry]
      · have hfilter : Option.filter (·.reg = reg) (some r) = none := by simp [hr]
        rw [if_neg (show reg ≠ (entry (some r)).writeReg from Ne.symm hr), hfilter]
        simp

theorem Follows.getBranchConditionReg {p : Pipeline} {h : List (Option Record)} (hp : Follows p h) (reg : ℕ)
    (currentValue : Value) : p.getBranchConditionReg reg currentValue = conditionReg h reg currentValue := by
  have hfirst := hp 0 (by decide)
  rw [Pipeline.getBranchConditionReg, conditionReg, hfirst]
  rcases h.getD 0 none with _ | r
  · exact if_neg fun hreg => hreg.1 hreg.2
  · by_cases hr : r.reg = reg
    · have hreg : reg ≠ 0 := hr ▸ r.reg_ne
      rw [if_pos ⟨hreg, hr.symm⟩, oldest_eq hp hreg _ slots (Nat.le_refl _)]
      cases halso : r.alsoRead <;> simp [entry, hr, halso]
    · rw [if_neg fun hreg => hr hreg.2.symm]
      exact (if_pos hr).symm

/-! ### Runs of instructions -/

/-- After every instruction, the slots are the history and a branch reads it, if and only if the history
repeats one record. -/
theorem pipeline_follows_iff (l : List Event) (r : Option Record) :
    (Follows (run (l ++ [.instruction r])) (history (l ++ [.instruction r])) ∧
      ∀ reg currentValue, (run (l ++ [.instruction r])).getBranchConditionReg reg currentValue =
        conditionReg (history (l ++ [.instruction r])) reg currentValue) ↔
    Repeats (history (l ++ [.instruction r])) := by
  have hlatest : (history (l ++ [.instruction r])).getD 0 none = r := by
    rw [history_append]
    rfl
  constructor
  · rintro ⟨hfollows, -⟩ i hi
    have hslot := hfollows i hi
    rw [run_pipeline l r hi] at hslot
    rw [hlatest]
    exact (entry_injective hslot).symm
  · intro hrepeats
    have hfollows : Follows (run (l ++ [.instruction r])) (history (l ++ [.instruction r])) := by
      intro i hi
      rw [run_pipeline l r hi, hrepeats i hi, hlatest]
    exact ⟨hfollows, fun reg currentValue => hfollows.getBranchConditionReg reg currentValue⟩

/-- `vi1` is written twice, and the branch is to see what it was before both writes. -/
theorem not_pipeline_follows : ¬ ∀ l r reg currentValue,
    (run (l ++ [.instruction r])).getBranchConditionReg reg currentValue =
      conditionReg (history (l ++ [.instruction r])) reg currentValue := by
  intro h
  have htwice := h [.instruction (some ⟨1, 5, true, by decide⟩)] (some ⟨1, 6, true, by decide⟩) 1 7
  exact absurd htwice (by decide)

end DobieStation.Vu.IntBranchPipeline
