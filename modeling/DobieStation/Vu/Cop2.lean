import DobieStation.Vu.Pipeline
import Mathlib.Data.Int.Basic

/-! # VU0 under the EE

While VU0 runs no program, its pipelines stand still until the EE next uses it as a coprocessor.
`cop2_updatepipes` then makes up for the cycles that have passed. -/

namespace DobieStation.Vu.Cop2

open DobieStation.Vu.Pipeline

/-! ### The writes of integer registers before a branch -/

structure IntBranchEntry where
  writeReg : BitVec 8
  oldValue : BitVec 16
  readAndWrite : Bool

def IntBranchEntry.cleared : IntBranchEntry where
  writeReg := 0
  oldValue := 0
  readAndWrite := false

structure IntBranchPipeline where
  pipeline : ℕ → IntBranchEntry
  next : IntBranchEntry

def IntBranchPipeline.length : ℕ := 5

/-- The copies run upwards, so that all entries become `next`. -/
def IntBranchPipeline.update (p : IntBranchPipeline) : IntBranchPipeline where
  pipeline := (List.range (length - 1)).foldl (fun e i => Function.update e (i + 1) (e i))
    (Function.update p.pipeline 0 p.next)
  next := .cleared

def IntBranchPipeline.flush (p : IntBranchPipeline) : IntBranchPipeline where
  pipeline _ := .cleared
  next := p.next

/-! ### The pipelines while VU0 is idle -/

structure VU0 extends VectorUnit where
  intBranchPipeline : IntBranchPipeline

/-- "Propogate all pipeline updates instantly". -/
def flushPipes (vu : VU0) : VU0 :=
  let v := { vu.toVectorUnit with decoder := .reset }
  let v := updateMacPipeline (updateMacPipeline (updateMacPipeline (updateMacPipeline v)))
  { v with
    intBranchPipeline := vu.intBranchPipeline.flush
    finishDIVEvent := v.cycleCount
    finishEFUEvent := v.cycleCount
    DIVEventStarted := false
    EFUEventStarted := false
    Q := v.newQInstance
    P := v.newPInstance }

/-- The iteration `i` of the loop. -/
def singleCycle (i : ℕ) (vu : VU0) : VU0 :=
  let v := { vu.toVectorUnit with
    cycleCount := vu.cycleCount + 1
    decoder := if 1 ≤ i then .reset else vu.decoder }
  { updateDIVEFUPipes (updateMacPipeline v) with
    intBranchPipeline := vu.intBranchPipeline.update }

def eventStarted (vu : VU0) : Bool := vu.DIVEventStarted || vu.EFUEventStarted

/-- The iterations from `i` on, with `n` to go. -/
def cop2Loop (eeCycles : ℕ) : ℕ → ℕ → VU0 → VU0
  | _, 0, vu => vu
  | i, n + 1, vu =>
    if 4 < i ∧ !eventStarted vu then { vu with cycleCount := eeCycles }
    else cop2Loop eeCycles (i + 1) n (singleCycle i vu)

/-- The difference of the counters as an `int`. -/
def elapsed (eeCycles : ℕ) (vu : VU0) : ℤ :=
  (BitVec.ofInt 32 ((eeCycles : ℤ) - vu.cycleCount)).toInt

def cop2Updatepipes (eeCycles : ℕ) (vu : VU0) : VU0 :=
  let cycles := elapsed eeCycles vu
  if 0 < cycles then
    if 4 ≤ cycles ∧ !eventStarted vu then flushPipes { vu with cycleCount := eeCycles }
    else cop2Loop eeCycles 0 cycles.toNat vu
  else vu

/-! ### What is promised -/

/-- Every cycle by itself. -/
def singleCycles (i : ℕ) : ℕ → VU0 → VU0
  | 0, vu => vu
  | n + 1, vu => singleCycles (i + 1) n (singleCycle i vu)

/-- What programs and the stall checks see: the checks look at three stages. -/
structure Visible where
  MACFlags : BitVec 16
  CLIPFlags : BitVec 32
  status : BitVec 32
  Q : BitVec 32
  P : BitVec 32
  writes : List (BitVec 48)
  loads : List (BitVec 16)
  deriving DecidableEq

def visible (vu : VU0) : Visible where
  MACFlags := vu.MAC.s3.setWidth 16
  CLIPFlags := vu.CLIP.s3
  status := vu.status
  Q := vu.Q
  P := vu.P
  writes := [vu.MAC.s0, vu.MAC.s1, vu.MAC.s2].map (BitVec.extractLsb' 16 48 ·)
  loads := [vu.ILW.s0, vu.ILW.s1, vu.ILW.s2]

structure CatchesUp (vu : VU0) (n : ℕ) : Prop where
  cycleCount : (cop2Updatepipes (vu.cycleCount + n) vu).cycleCount = vu.cycleCount + n
  visible : visible (cop2Updatepipes (vu.cycleCount + n) vu) = visible (singleCycles 0 n vu)

end DobieStation.Vu.Cop2
