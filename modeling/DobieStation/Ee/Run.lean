import DobieStation.Ee.Instructions
import DobieStation.Lib.Reach

/-! # Runs of the EE

`EmotionEngine::run` in steps: the start of a slice, turns of the interpreter as long as there are
cycles left (or one run of compiled blocks), and the end of the slice, where interrupts are taken.
Between two slices the other components go on, and the scheduler may call `int0_check`. -/

namespace DobieStation.Ee.Run

open DobieStation.Lib.Interaction DobieStation.Lib.Reach DobieStation.Ee.Interface
open DobieStation.Ee.Instructions

variable {D : Type} (P : Rest D)

/-! ### Fetching -/

def invalid (tag : Word) : Bool := tag.getLsbD 31

/-- The row is filled with the tag, and its LFU bit changes. -/
def fillRow (line : EE_ICacheLine) (row : Bool) (tag : Word) : EE_ICacheLine where
  lfu := Function.update line.lfu row !line.lfu row
  tag := Function.update line.tag row tag

/-- An invalid row is filled first, else that of the XOR of the LFU bits. -/
def missRow (line : EE_ICacheLine) (tag : Word) : EE_ICacheLine :=
  if invalid (line.tag false) then fillRow line false tag
  else if invalid (line.tag true) then fillRow line true tag
  else fillRow line (xor (line.lfu false) (line.lfu true)) tag

/-- A miss takes 40 cycles. -/
def lookupICache (address : Word) (c : Core D) : Core D :=
  let index := address.extractLsb' 6 7
  let tag : Word := ((address >>> 13).setWidth 16).setWidth 32
  let line := c.icache index
  if line.tag false ≠ tag ∧ line.tag true ≠ tag then
    { c with
      cyclesToRun := c.cyclesToRun - 40
      icache := Function.update c.icache index (missRow line tag) }
  else c

/-- The cycles of a fetch: through the cache, or 16 for a word of the RDRAM. -/
def chargeFetch (cacheMode : ℕ) (address : Word) (c : Core D) : Core D :=
  if cacheMode = Tlb.Model.CACHE_MODE.CACHED.value then lookupICache address c
  else { c with cyclesToRun := c.cyclesToRun - 16 }

def readInstr (address : Word) : Run D Word := do
  let m ← get
  let page := m.tlb.vtlb (address.toNat / 4096)
  modify fun m => { m with core := chargeFetch page.vtlb_info.cache_mode address m.core }
  match m.tlbMap.pick page with
  | .null => failure
  | .mmio => failure
  | p => return (loadBytes m.core.world.memory p (address.toNat % 4096) 4).setWidth 32

/-! ### A turn of the interpreter -/

/-- The jump of a branch after its delay slot. A program counter that has been reversed is that of
an instruction that waits for VU0. -/
def delayed (lastPC : Word) : Program D Unit := do
  let c ← see
  if c.branchOn then
    if c.delaySlot = 0 then
      if c.PC ≠ lastPC then
        change fun c => { c with branchOn := false }
        if c.newPC = 0 ∨ c.newPC.toNat % 4 ≠ 0 then die else setPC c.newPC
    else change fun c => { c with delaySlot := c.delaySlot - 1 }

/-- Two instructions that are both NOPs take one turn. -/
def pairNops (w : Word) : Program D Unit := do
  if w = 0 then
    let pc ← getPC
    if (← read32 P pc) = 0 then
      setPC (pc + 4)
      record .pair

def endTurn (lastPC w : Word) : Program D Unit := do
  setPC ((← getPC) + 4)
  pairNops P w
  delayed lastPC

def countTurn (c : Core D) : Core D :=
  { c with cyclesToRun := c.cyclesToRun - 1, world.cycleCount := c.world.cycleCount + 1 }

def turn : Run D Unit := do
  modify fun m => { m with core := countTurn m.core }
  let pc := (← get).core.PC
  let w ← readInstr pc
  exec (do
    record (.fetch pc)
    interpret P w
    endTurn P pc w)

/-- Compiled code does not run while the core waits for VU0. -/
def runJIT : Program D Unit := do
  let c ← see
  if c.waitForVU0 && P.vu0IsRunning c.world.devices then
    change fun c => { c with
      world.cycleCount := c.world.cycleCount + BitVec.ofInt 64 c.cyclesToRun, cyclesToRun := 0 }
  else
    change fun c => { c with waitForVU0 := false }
    if ← (if c.waitForInterlock then checkInterlock P else pure false) then
      change fun c => { c with world.cycleCount := c.world.cycleCount + 1, cyclesToRun := 0 }
    else
      change fun c => { c with waitForInterlock := false }
      P.runBlocks
      change fun c => { c with branchOn := false }

/-! ### The end of a slice -/

/-- The events of the performance counters that count cycles. -/
def countsCycles (event : ℕ) : Bool := [1, 2, 3, 12, 13, 14, 15].contains event

def countUpTimer (cycles : Word) (c : Cop0) : Cop0 :=
  { c with
    cause.timerIntPending := c.cause.timerIntPending ||
      (decide (c.gpr 9 < c.gpr 11) && decide (c.gpr 11 ≤ c.gpr 9 + cycles))
    gpr := Function.update c.gpr 9 (c.gpr 9 + cycles) }

def performanceMask (s : COP0_STATUS) : Word := ((1 : Word) <<< (s.mode.toNat + 2)) ||| bit s.exception 1

def countUpPerformance (cycles : Word) (c : Cop0) : Cop0 :=
  if c.PCCR.getLsbD 31 then
    let mask := performanceMask c.status
    { c with
      PCR0 := if c.PCCR &&& mask ≠ 0 ∧ countsCycles (c.PCCR.extractLsb' 5 5).toNat then
        c.PCR0 + cycles else c.PCR0
      PCR1 := if c.PCCR &&& (mask <<< 10) ≠ 0 ∧ countsCycles (c.PCCR.extractLsb' 15 5).toNat then
        c.PCR1 + cycles else c.PCR1 }
  else c

def countUp (cycles : ℕ) (c : Cop0) : Cop0 :=
  countUpPerformance (BitVec.ofNat 32 cycles) (countUpTimer (BitVec.ofNat 32 cycles) c)

def takePending : Program D Unit := do
  let c := (← see).cop0
  if c.intEnabled then
    if c.cause.int0Pending then int0
    else if c.cause.int1Pending then int1
    else if c.cause.timerIntPending then intTimer

def finish (cycles : ℕ) : Program D Unit := do
  change fun c => { c with cop0 := countUp cycles c.cop0 }
  takePending

/-! ### Steps -/

/-- Where `run` is, and the cycles it was given. -/
inductive Phase where
  | idle
  | interpreting (cycles : ℕ)
  | compiled (cycles : ℕ)
  | ended (cycles : ℕ)
  deriving DecidableEq, Repr

structure System (D : Type) where
  machine : Machine D
  phase : Phase

inductive Act (D : Type) where
  | start (jit : Bool) (cycles : ℕ)
  | turn
  | blocks
  | finish
  | int0Check
  | others (e : Effect D Unit)

/-- The cycles go to the loop, or they pass while the core waits for an interrupt. -/
def giveCycles (cycles : ℕ) (c : Core D) : Core D :=
  if c.waitForIRQ then
    { c with
      cyclesToRun := 0
      world.cycleCount := c.world.cycleCount + BitVec.ofNat 64 cycles }
  else { c with cyclesToRun := c.cyclesToRun + cycles }

def startPhase (jit waits : Bool) (cycles : ℕ) : Phase :=
  if waits then .ended cycles else if jit then .compiled cycles else .interpreting cycles

/-- What a step runs, and the phase after it; nothing where the step cannot be made. -/
def plan (s : System D) : Act D → Option (Run D Unit × Phase)
  | .start jit cycles =>
    if s.phase = .idle then
      some (modify fun m => { m with core := giveCycles cycles m.core },
        startPhase jit s.machine.core.waitForIRQ cycles)
    else none
  | .turn =>
    match s.phase with
    | .interpreting _ => if 0 < s.machine.core.cyclesToRun then some (turn P, s.phase) else none
    | _ => none
  | .blocks =>
    match s.phase with
    | .compiled cycles => some (exec (runJIT P), .ended cycles)
    | _ => none
  | .finish =>
    match s.phase with
    | .interpreting cycles =>
      if 0 < s.machine.core.cyclesToRun then none else some (exec (finish cycles), .idle)
    | .ended cycles => some (exec (finish cycles), .idle)
    | _ => none
  | .int0Check => if s.phase = .idle then some (exec int0Check, .idle) else none
  | .others e => if s.phase = .idle then some (exec (device e), .idle) else none

def step (s : System D) (a : Act D) : Option (System D) := do
  let (m, phase) ← plan P s a
  let (_, machine) ← m.run s.machine
  return ⟨machine, phase⟩

/-! ### Reset -/

def resetICacheLine : EE_ICacheLine := ⟨fun _ => false, fun _ => 0x80000000⟩

/-- The fields that `Cop0::reset` does not name keep what they had. -/
def resetCop0 (c : Cop0) : Cop0 :=
  { c with
    gpr := fun i => if i = 15 then 0x00002E20 else 0
    status := ⟨false, false, false, 0, false, false, false, c.status.timerIntMask, false, false,
      false, true, false, 7⟩
    cause := ⟨0, false, false, false, 0, 0, false, false⟩
    PCCR := 0
    PCR0 := 0
    PCR1 := 0 }

def resetOsd : Word := 0x12010

def resetCore (c : Core D) : Core D :=
  { c with
    regs.gpr := Function.update c.regs.gpr 0 0
    regs.fpu.control := ⟨false, false, false, false, false, false, false, false, false⟩
    PC := 0xBFC00000
    branchOn := false
    delaySlot := 0
    cyclesToRun := 0
    waitForIRQ := false
    waitForVU0 := false
    waitForInterlock := false
    icache := fun _ => resetICacheLine
    osdConfigParam := resetOsd
    deci2handlers := fun id => { c.deci2handlers id with active := false }
    deci2size := 0
    cop0 := resetCop0 c.cop0
    intc := ⟨0, 0, 0, false⟩
    world.cycleCount := 0 }

/-- The page tables are made anew. -/
def resetMachine (m : Machine D) (vtlb : ℕ → Tlb.Model.Page) : Machine D where
  core := resetCore m.core
  pcNow := 0xBFC00000
  tlbMap := .kernel
  tlb := ⟨fun _ => .zero, vtlb⟩
  log := []

/-- A machine after a reset. -/
def Init (s : System D) : Prop :=
  s.phase = .idle ∧ ∃ m vtlb, Tlb.Model.init_tlb = some vtlb ∧ s.machine = resetMachine m vtlb

end DobieStation.Ee.Run
