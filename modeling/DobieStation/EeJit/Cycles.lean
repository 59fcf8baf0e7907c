import Mathlib.Data.BitVec
import Mathlib.Logic.Function.Basic

/-! # The cycle counts of a block

`EE_JitTranslator` counts the cycles of a block before it translates the block: it pairs the
instructions that are issued together, adds a bias for loads and stores, and then the stalls of the
data dependencies and of the units that are still busy. -/

namespace DobieStation.EeJit.Cycles

/-! ### Decoded instructions -/

abbrev Pipeline := BitVec 16

namespace Pipeline

def Unk : Pipeline := 0
def Int0 : Pipeline := 1
def Int1 : Pipeline := 2
def IntWide : Pipeline := 3
def IntGeneric : Pipeline := 4
def LoadStore : Pipeline := 8
def Branch : Pipeline := 0x10
def COP0 : Pipeline := 0x20
def COP1 : Pipeline := 0x40
def COP2 : Pipeline := 0x80
def SA : Pipeline := 0x100
def ERET : Pipeline := 0x200
def SYNC : Pipeline := 0x400
def LZC : Pipeline := 0x800
def MAC0 : Pipeline := 0x1000
def MAC1 : Pipeline := 0x2000

/-- The operators work on the low bytes. -/
def and (x y : Pipeline) : Pipeline := (x.setWidth 8 &&& y.setWidth 8).setWidth 16

def or (x y : Pipeline) : Pipeline := (x.setWidth 8 ||| y.setWidth 8).setWidth 16

end Pipeline

inductive InstructionType where
  | other | mult | mult1 | div | div1 | madd | madd1 | fpuDiv | fpuSqrt | fpuRsqrt
  deriving DecidableEq, Repr

inductive RegType where
  | unk | gpr | cop0 | cop1 | cop1Control | cop2 | cop2Control
  deriving DecidableEq, Repr

structure DependencyInfo where
  type : RegType
  reg : BitVec 8
  deriving DecidableEq, Repr

structure InstrInfo where
  writeDependencies : List DependencyInfo := []
  readDependencies : List DependencyInfo := []
  pipeline : Pipeline := Pipeline.Unk
  instructionType : InstructionType := .other
  latency : ℕ := 1
  throughput : ℕ := 1
  cyclesBefore : ℕ := 0
  cyclesAfter : ℕ := 0
  deriving DecidableEq, Repr

/-- The register `$zero`, whose writes nobody waits for. -/
def DependencyInfo.isZero (d : DependencyInfo) : Bool := d.type = .gpr ∧ d.reg = 0

/-- A load or a store other than LQC2 and SQC2. -/
def InstrInfo.isBiased (info : InstrInfo) : Bool :=
  info.pipeline.and .LoadStore = .LoadStore ∧ info.pipeline.and .COP2 ≠ .COP2

/-! ### Instructions that are issued together -/

def pipes : List (Pipeline × ℕ) :=
  [(.ERET, 1), (.SYNC, 1), (.LZC, 1), (.MAC1, 1), (.SA, 0), (.MAC0, 0), (.LoadStore, 1),
    (Pipeline.or .LoadStore .COP1, 1), (Pipeline.or .LoadStore .COP2, 1), (.COP0, 1), (.COP1, 0),
    (.COP2, 0), (.Int0, 0), (.Int1, 1), (.IntWide, 2), (.IntGeneric, 3), (.Branch, 3)]

def checkEretCombination (pipeline1 pipeline2 : Pipeline) : Bool :=
  if pipeline1 = .ERET then pipeline2 ≠ .Branch
  else if pipeline1 = .Branch then pipeline2 ≠ .ERET
  else true

def wideConflicts : List Pipeline := [.Int0, .Int1, .IntWide, .IntGeneric, .MAC1]

def checkMmiCombination (pipeline1 pipeline2 : Pipeline) : Bool :=
  if pipeline1 = .IntWide then pipeline2 ∉ wideConflicts
  else if pipeline2 = .IntWide then pipeline1 ∉ wideConflicts
  else true

def checkPipelineCombination (pipeline1 pipeline2 : Pipeline) : Bool :=
  if pipeline1.and .COP1 ≠ 0 ∧ pipeline2.and .COP1 ≠ 0 then false
  else if pipeline1.and .COP2 ≠ 0 ∧ pipeline2.and .COP2 ≠ 0 then false
  else if pipeline1 = pipeline2 ∧ pipeline1 = .Branch then false
  else checkEretCombination pipeline1 pipeline2 && checkMmiCombination pipeline1 pipeline2

/-- `none` is the exception of `pipes.at` at a pipeline that the table does not have. -/
def dualIssueAnalysis (instr1 instr2 : InstrInfo) : Option Bool := do
  let pipe1 ← pipes.lookup instr1.pipeline
  let pipe2 ← pipes.lookup instr2.pipeline
  if pipe1 = pipe2 ∧ pipe1 ≠ 3 then return false
  if instr1.pipeline = .Branch then return false
  if !checkPipelineCombination instr1.pipeline instr2.pipeline then return false
  return instr1.writeDependencies.all fun w => w.isZero || instr2.readDependencies.all (· ≠ w)

def InstrInfo.startingAt (info : InstrInfo) (before : ℕ) : InstrInfo :=
  { info with cyclesBefore := before }

def InstrInfo.endingAt (info : InstrInfo) (after : ℕ) : InstrInfo :=
  { info with cyclesAfter := after }

def InstrInfo.issuedAt (info : InstrInfo) (cycle : ℕ) : InstrInfo :=
  (info.startingAt cycle).endingAt (cycle + 1)

def issueCycleAnalysis (cycleCount : ℕ) : List InstrInfo → Option (List InstrInfo × ℕ)
  | [] => some ([], cycleCount)
  | [a] => some ([a.issuedAt cycleCount], cycleCount + 1)
  | a :: b :: rest => do
    if ← dualIssueAnalysis a b then
      let (out, count) ← issueCycleAnalysis (cycleCount + 1) rest
      return (a.issuedAt cycleCount :: b.issuedAt cycleCount :: out, count)
    else
      let (out, count) ← issueCycleAnalysis (cycleCount + 1) (b :: rest)
      return (a.issuedAt cycleCount :: out, count)

/-! ### Penalties

The two passes over the issued instructions have one loop. An instruction adds to a running penalty,
which delays its own end and the start of all that follow. -/

section

variable {σ : Type} (visit : σ → InstrInfo → σ) (penalty : σ → ℕ)

/-- "Check if the next two instructions were dual-issued". -/
def startsWith (info : InstrInfo) : List InstrInfo → Bool
  | [] => false
  | next :: _ => info.cyclesBefore == next.cyclesBefore

def propagate (dualIssue : Bool) (s : σ) (info : InstrInfo) :
    List InstrInfo → List InstrInfo × σ
  | [] =>
    let s := visit s info
    ([info.endingAt (info.cyclesAfter + penalty s)], s)
  | next :: rest =>
    let s := visit s info
    let (out, s') :=
      if dualIssue then propagate false s (next.startingAt info.cyclesBefore) rest
      else propagate (startsWith next rest) s (next.startingAt (next.cyclesBefore + penalty s)) rest
    (info.endingAt (info.cyclesAfter + penalty s) :: out, s')

def propagateAll (s : σ) : List InstrInfo → List InstrInfo × σ
  | [] => ([], s)
  | info :: rest => propagate visit penalty false s info rest

end

/-! ### Loads and stores -/

def LOAD_STORE_BIAS : ℕ := 0x100

theorem bias_mul (n : ℕ) : (LOAD_STORE_BIAS * n) >>> 8 = n := by
  rw [Nat.shiftRight_eq_div_pow]
  exact Nat.mul_div_cancel_left n (by decide)

structure LoadStores where
  sum : ℕ
  lsOps : ℕ
  loadPenalty : ℕ
  sum_eq : sum = LOAD_STORE_BIAS * lsOps
  loadPenalty_eq : loadPenalty = lsOps

def LoadStores.none : LoadStores where
  sum := 0
  lsOps := 0
  loadPenalty := 0
  sum_eq := rfl
  loadPenalty_eq := rfl

def LoadStores.visit (s : LoadStores) (info : InstrInfo) : LoadStores :=
  if info.isBiased then
    { sum := s.sum + LOAD_STORE_BIAS
      lsOps := s.lsOps + 1
      loadPenalty := (LOAD_STORE_BIAS * (s.lsOps + 1)) >>> 8
      sum_eq := by rw [s.sum_eq]; rfl
      loadPenalty_eq := bias_mul _ }
  else s

def loadStoreAnalysis (instrInfo : List InstrInfo) (cycleCount : ℕ) : List InstrInfo × ℕ :=
  let (out, s) := propagateAll LoadStores.visit LoadStores.loadPenalty .none instrInfo
  (out, cycleCount + s.sum >>> 8)

/-! ### Data dependencies -/

structure Dependencies where
  dataDependencies : DependencyInfo → ℕ := fun _ => 0
  throughputs : InstructionType → ℕ := fun _ => 0
  totalPenalty : ℕ := 0
  /-- The start of the instruction before. -/
  previous : ℕ := 0

/-- Decrements every counter. -/
def Dependencies.elapse (s : Dependencies) (difference : ℤ) : Dependencies :=
  { s with
    dataDependencies := fun d => ((s.dataDependencies d : ℤ) - difference).toNat
    throughputs := fun t => ((s.throughputs t : ℤ) - difference).toNat }

def readPenalty (table : DependencyInfo → ℕ) (cyclesPenalty : ℕ) (reads : List DependencyInfo) : ℕ :=
  reads.foldl (fun p d => if d.isZero then p else max p (table d)) cyclesPenalty

/-- Waits for the result before, and starts the new one. -/
def overwrite (latency : ℕ) (s : ℕ × (DependencyInfo → ℕ)) (d : DependencyInfo) :
    ℕ × (DependencyInfo → ℕ) :=
  (if s.2 d > 0 then max s.1 (s.2 d) else s.1, Function.update s.2 d latency)

def Dependencies.visit (s : Dependencies) (info : InstrInfo) : Dependencies :=
  let s := s.elapse ((info.cyclesBefore : ℤ) - s.previous)
  let cyclesPenalty := readPenalty s.dataDependencies 0 info.readDependencies
  let (cyclesPenalty, dataDependencies) :=
    info.writeDependencies.foldl (overwrite info.latency) (cyclesPenalty, s.dataDependencies)
  let (cyclesPenalty, throughputs) :=
    if info.instructionType ≠ .other then
      (if s.throughputs info.instructionType ≠ 0 then
          max cyclesPenalty (s.throughputs info.instructionType) else cyclesPenalty,
        Function.update s.throughputs info.instructionType info.throughput)
    else (cyclesPenalty, s.throughputs)
  { dataDependencies, throughputs
    totalPenalty := s.totalPenalty + cyclesPenalty
    previous := info.cyclesBefore }

def dataDependencyAnalysis (instrInfo : List InstrInfo) (cycleCount : ℕ) : List InstrInfo × ℕ :=
  let (out, s) := propagateAll Dependencies.visit Dependencies.totalPenalty {} instrInfo
  (out, cycleCount + s.totalPenalty)

/-! ### The analysis of a block -/

structure Analysis where
  /-- After `issue_cycle_analysis`: halves of a pair have one start. -/
  issued : List InstrInfo
  instrInfo : List InstrInfo
  cycleCount : ℕ

def analyse (instrInfo : List InstrInfo) : Option Analysis := do
  let (issued, cycleCount) ← issueCycleAnalysis 0 instrInfo
  let (instrInfo, cycleCount) := loadStoreAnalysis issued cycleCount
  let (instrInfo, cycleCount) := dataDependencyAnalysis instrInfo cycleCount
  return { issued, instrInfo, cycleCount }

end DobieStation.EeJit.Cycles
