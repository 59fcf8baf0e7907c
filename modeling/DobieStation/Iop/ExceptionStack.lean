import DobieStation.Lib.Stepwise
import Mathlib.Data.BitVec
import Mathlib.Tactic.Common

/-! # The exception stack of the IOP

The Status register of coprocessor 0 keeps an interrupt enable and a kernel/user bit for the current, the previous
and the old mode. An exception is to push both, and RFE pops both. `handle_exception` pushes the interrupt enables
alone. So RFE restores the interrupt enable that was current before the exception it ends, and the kernel/user
bit only where the bits that it moves down are equal already. -/

namespace DobieStation.Iop.ExceptionStack

open DobieStation.Lib.Stepwise

abbrev Word := BitVec 32

/-! ### Coprocessor 0 -/

structure Status where
  IEc : Bool
  KUc : Bool
  IEp : Bool
  KUp : Bool
  IEo : Bool
  KUo : Bool
  Im : BitVec 8
  IsC : Bool
  bev : Bool

structure Cause where
  code : BitVec 8
  intPending : BitVec 8
  bd : Bool

structure Cop0 where
  status : Status
  cause : Cause
  EPC : Word

structure IOP where
  cop0 : Cop0
  PC : Word
  newPC : Word
  branchDelay : ℤ
  willBranch : Bool

def Status.reset : Status := ⟨false, false, false, false, false, false, 0, false, true⟩

/-- What an exception does to Status. -/
def Status.enter (status : Status) : Status :=
  { status with
    IEo := status.IEp
    IEp := status.IEc
    IEc := false }

/-- What RFE does to it. -/
def Status.leave (status : Status) : Status :=
  { status with
    KUc := status.KUp
    KUp := status.KUo
    IEc := status.IEp
    IEp := status.IEo }

/-- The PC is left one instruction before the handler, since it is moved on after the instruction. -/
def handleException (addr : Word) (cause : BitVec 8) (cpu : IOP) : IOP :=
  { cpu with
    cop0 :=
      { status := cpu.cop0.status.enter
        cause := { cpu.cop0.cause with code := cause, bd := cpu.willBranch }
        EPC := if cpu.willBranch then cpu.PC - 4 else cpu.PC }
    PC := addr - 4
    branchDelay := 0
    willBranch := false }

def rfe (cpu : IOP) : IOP := { cpu with cop0.status := cpu.cop0.status.leave }

/-! ### Nested exceptions -/

/-- `other cpu'` is anything that does not write Status, and leaves the rest of the processor as in `cpu'`. -/
inductive Action
  | exception (addr : Word) (cause : BitVec 8)
  | rfe
  | other (cpu' : IOP)

/-- The processor, and the Status before each exception that no RFE has ended yet, the last one first. -/
structure Stacked where
  cpu : IOP
  saved : List Status

def Stacked.status (s : Stacked) : Status := s.cpu.cop0.status

def step : Action → Stacked → Stacked
  | .exception addr cause, s => ⟨handleException addr cause s.cpu, s.status :: s.saved⟩
  | .rfe, s => ⟨rfe s.cpu, s.saved.tail⟩
  | .other cpu', s => ⟨{ cpu' with cop0.status := s.status }, s.saved⟩

def Step (s : Stacked) (a : Action) (s' : Stacked) : Prop := s' = step a s

/-- With `depth` exceptions open, each RFE of the sequence ends one, and there are never more than two. -/
def Nested : ℕ → List Action → Prop
  | _, [] => True
  | depth, .exception _ _ :: as => depth < 2 ∧ Nested (depth + 1) as
  | depth, .rfe :: as => 0 < depth ∧ Nested (depth - 1) as
  | depth, .other _ :: as => Nested depth as

/-- RFE turns `now` into `after`, and before the exception Status was `before`. -/
structure Restores (before now after : Status) : Prop where
  interrupts : after.IEc = before.IEc
  mode : after.KUc = before.KUc
  others : after.Im = before.Im ∧ after.IsC = before.IsC ∧ after.bev = before.bev
  old : after.IEo = now.IEo ∧ after.KUo = now.KUo

def Good (s : Stacked) : Action → Prop
  | .rfe => ∀ before ∈ s.saved.head?, Restores before s.status (step .rfe s).status
  | _ => True

/-- How often RFE is executed. -/
def returns : List Action → ℕ
  | [] => 0
  | .rfe :: as => returns as + 1
  | _ :: as => returns as

/-! ### What is kept -/

@[simp] theorem status_exception (s : Stacked) (addr : Word) (cause : BitVec 8) :
    (step (.exception addr cause) s).status = s.status.enter := rfl

@[simp] theorem status_rfe (s : Stacked) : (step .rfe s).status = s.status.leave := rfl

@[simp] theorem status_other (s : Stacked) (cpu' : IOP) : (step (.other cpu') s).status = s.status := rfl

/-- The previous and the old interrupt enable are those that were current before the two exceptions. -/
def Pushed (now : Status) : List Status → Prop
  | [] => True
  | [v] => now.IEp = v.IEc
  | [v, u] => now.IEp = v.IEc ∧ now.IEo = u.IEc
  | _ => False

/-- The bits that no exception and no RFE writes. -/
def SameOthers (v now : Status) : Prop := now.Im = v.Im ∧ now.IsC = v.IsC ∧ now.bev = v.bev

structure Matched (s : Stacked) : Prop where
  pushed : Pushed s.status s.saved
  others : ∀ v ∈ s.saved, SameOthers v s.status

theorem Pushed.enter {now : Status} {saved : List Status} (h : Pushed now saved) (hroom : saved.length < 2) :
    Pushed now.enter (now :: saved) := by
  rcases saved with _ | ⟨v, _ | ⟨u, rest⟩⟩
  · rfl
  · exact ⟨rfl, h⟩
  · rw [List.length_cons, List.length_cons] at hroom
    omega

theorem Pushed.leave {now v : Status} {saved : List Status} (h : Pushed now (v :: saved)) :
    now.leave.IEc = v.IEc ∧ Pushed now.leave saved := by
  rcases saved with _ | ⟨u, _ | ⟨w, rest⟩⟩
  · exact ⟨h, trivial⟩
  · exact h
  · exact h.elim

theorem Matched.exception {s : Stacked} (h : Matched s) (hroom : s.saved.length < 2) (addr : Word)
    (cause : BitVec 8) : Matched (step (.exception addr cause) s) where
  pushed := h.pushed.enter hroom
  others := by
    rintro v (_ | ⟨_, hv⟩)
    · exact ⟨rfl, rfl, rfl⟩
    · exact h.others v hv

theorem Matched.rfe {s : Stacked} {v : Status} {rest : List Status} (h : Matched s) (hs : s.saved = v :: rest) :
    Matched (step .rfe s) where
  pushed := by
    have hpushed := h.pushed
    rw [hs] at hpushed
    change Pushed s.status.leave s.saved.tail
    rw [hs]
    exact hpushed.leave.2
  others := by
    intro u hu
    exact h.others u (List.mem_of_mem_tail hu)

/-- RFE restores everything but the kernel/user bit. -/
theorem Matched.good_iff {s : Stacked} {v : Status} {rest : List Status} (h : Matched s)
    (hs : s.saved = v :: rest) : Good s .rfe ↔ s.status.KUp = v.KUc := by
  have hpushed := h.pushed
  have hothers := h.others v (by rw [hs]; exact List.mem_cons_self)
  rw [hs] at hpushed
  have hhead : s.saved.head? = some v := by rw [hs]; rfl
  constructor
  · intro hgood
    exact (hgood v hhead).mode
  · rintro hmode before hbefore
    obtain rfl : v = before := Option.some.inj (hhead.symm.trans hbefore)
    exact ⟨hpushed.leave.1, hmode, hothers, rfl, rfl⟩

/-! ### Whole sequences -/

/-- While RFE has restored the kernel/user bit so far, all exceptions that are open were entered with the
current one. -/
theorem along_iff (as : List Action) : ∀ s : Stacked, Matched s → (∀ v ∈ s.saved, v.KUc = s.status.KUc) →
    Nested s.saved.length as →
    (Along Step Good s as ↔ (0 < returns as → s.status.KUc = s.status.KUp) ∧
      (1 < returns as → s.status.KUp = s.status.KUo)) := by
  induction as with
  | nil =>
    intro s _ _ _
    simp [Along, returns]
  | cons a as ih =>
    intro s hmatched hmode hnested
    have htail : Along Step Good s (a :: as) ↔ Good s a ∧ Along Step Good (step a s) as := by
      simp [Along, Step]
    rw [htail]
    cases a with
    | exception addr cause =>
      have hnext := ih (step (.exception addr cause) s) (hmatched.exception hnested.1 addr cause) (by
        rintro v (_ | ⟨_, hv⟩)
        · rfl
        · exact hmode v hv) hnested.2
      rw [hnext]
      exact and_iff_right trivial
    | rfe =>
      rcases hs : s.saved with _ | ⟨v, rest⟩
      · rw [hs] at hnested
        exact absurd hnested.1 (Nat.lt_irrefl 0)
      · have hv : v.KUc = s.status.KUc := hmode v (by rw [hs]; exact List.mem_cons_self)
        rw [hmatched.good_iff hs, hv]
        have hnext : s.status.KUp = s.status.KUc → (Along Step Good (step .rfe s) as ↔
            (0 < returns as → s.status.KUp = s.status.KUo) ∧ (1 < returns as → s.status.KUo = s.status.KUo)) := by
          intro heq
          refine ih (step .rfe s) (hmatched.rfe hs) ?_ ?_
          · intro u hu
            rw [hmode u (List.mem_of_mem_tail hu)]
            exact heq.symm
          · change Nested s.saved.tail.length as
            rw [List.length_tail]
            exact hnested.2
        have hcount : returns (.rfe :: as) = returns as + 1 := rfl
        rw [hcount]
        constructor
        · rintro ⟨heq, hrest⟩
          refine ⟨fun _ => heq.symm, fun hlt => ?_⟩
          exact ((hnext heq).mp hrest).1 (by omega)
        · rintro ⟨hcur, hprev⟩
          have heq := (hcur (Nat.succ_pos _)).symm
          exact ⟨heq, (hnext heq).mpr ⟨fun hlt => hprev (by omega), fun _ => rfl⟩⟩
    | other cpu' =>
      have hnext := ih (step (.other cpu') s) ⟨hmatched.pushed, hmatched.others⟩ hmode hnested
      rw [hnext]
      exact and_iff_right trivial

/-- **The exception stack.** -/
theorem rfe_restores_iff (cpu : IOP) (as : List Action) (hnested : Nested 0 as) :
    Along Step Good ⟨cpu, []⟩ as ↔
      (0 < returns as → cpu.cop0.status.KUc = cpu.cop0.status.KUp) ∧
      (1 < returns as → cpu.cop0.status.KUp = cpu.cop0.status.KUo) :=
  along_iff as ⟨cpu, []⟩ ⟨trivial, fun _ h => absurd h List.not_mem_nil⟩ (fun _ h => absurd h List.not_mem_nil)
    hnested

/-- After a reset, with user mode switched on by a write of Status. -/
def inUserMode : IOP := ⟨⟨{ Status.reset with KUc := true }, ⟨0, 0, false⟩, 0⟩, 0xBFC00000, 0, 0, false⟩

/-- An interrupt in the handler of a system call, and both handlers return. -/
def interruptedCall : List Action :=
  [.exception 0x80000080 0x08, .exception 0x80000084 0x00, .rfe, .rfe]

theorem rfe_restores_iff_kernel : Along Step Good
    ⟨⟨⟨Status.reset, ⟨0, 0, false⟩, 0⟩, 0xBFC00000, 0, 0, false⟩, []⟩ interruptedCall :=
  (rfe_restores_iff _ interruptedCall ⟨by decide, by decide, by decide, by decide, trivial⟩).mpr
    ⟨fun _ => rfl, fun _ => rfl⟩

/-- RFE leaves the processor in kernel mode, and it was in user mode before the system call. -/
theorem not_rfe_restores : ¬ ∀ (cpu : IOP) (as : List Action), Nested 0 as → Along Step Good ⟨cpu, []⟩ as := by
  intro h
  have hcall := h inUserMode [.exception 0x80000080 0x08, .rfe] ⟨by decide, by decide, trivial⟩
  have hmode := ((hcall.tail rfl).head _ rfl).mode
  exact absurd hmode (by decide)

end DobieStation.Iop.ExceptionStack
