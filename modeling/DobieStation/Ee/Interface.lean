import DobieStation.Lib.Interaction
import DobieStation.Lib.Memory
import DobieStation.Tlb.Model
import Mathlib.Data.BitVec

/-! # The EE core

The state of `EmotionEngine`, `Cop0`, `Cop1` and `INTC` and the functions that instructions are made
of: the general registers, memory through the software page tables, interrupts and exceptions. What
an instruction may do is the interface `Op`, so a handler is a program over it; the page tables and
`PC_now` are behind the interface. The other components and their memory are a `World`, and a call
of them is an `Effect` of it, which may raise interrupts.

The machine keeps a log of the control flow: what was fetched, and where control went. -/

namespace DobieStation.Ee.Interface

open DobieStation.Lib.Interaction DobieStation.Lib.Memory
open DobieStation.Tlb.Model (Pointer TLB_Entry EntryLo Page)

abbrev Word := BitVec 32

abbrev Quad := BitVec 128

/-! ### The state -/

structure U128 where
  lo : BitVec 64
  hi : BitVec 64
  deriving DecidableEq

structure COP1_CONTROL where
  su : Bool
  so : Bool
  sd : Bool
  si : Bool
  u : Bool
  o : Bool
  d : Bool
  i : Bool
  condition : Bool
  deriving DecidableEq

structure Cop1 where
  control : COP1_CONTROL
  gpr : BitVec 5 → Word
  accumulator : Word

/-- What an instruction computes with. -/
structure Registers where
  gpr : BitVec 5 → Quad
  LO : U128
  HI : U128
  SA : BitVec 64
  fpu : Cop1

structure COP0_STATUS where
  intEnable : Bool
  exception : Bool
  error : Bool
  mode : BitVec 2
  busError : Bool
  int0Mask : Bool
  int1Mask : Bool
  timerIntMask : Bool
  masterIntEnable : Bool
  edi : Bool
  ch : Bool
  bev : Bool
  dev : Bool
  cu : BitVec 4
  deriving DecidableEq

structure COP0_CAUSE where
  code : BitVec 8
  int0Pending : Bool
  int1Pending : Bool
  timerIntPending : Bool
  code2 : BitVec 8
  ce : BitVec 8
  bd2 : Bool
  bd : Bool
  deriving DecidableEq

/-- The registers of COP0; its TLB is in `Tlb.Model`. -/
structure Cop0 where
  gpr : ℕ → Word
  status : COP0_STATUS
  cause : COP0_CAUSE
  EPC : Word
  ErrorEPC : Word
  PCCR : Word
  PCR0 : Word
  PCR1 : Word

structure INTC where
  MASK : Word
  STAT : Word
  readStatCount : ℕ
  statSpeedhackActive : Bool
  deriving DecidableEq

structure EE_ICacheLine where
  lfu : Bool → Bool
  tag : Bool → Word

structure Deci2Handler where
  active : Bool
  device : Word
  addr : Word

structure Memory where
  RDRAM : Bytes
  BIOS : Bytes
  spr : Bytes

/-- The other components, the memory that they share with the core, and its cycle count. -/
structure World (D : Type) where
  devices : D
  memory : Memory
  cycleCount : BitVec 64

inductive Signal where
  | irq (id : ℕ)
  | int1 (value : Bool)

/-- A call of another component. -/
abbrev Effect (D α : Type) := World D → Option (α × List Signal × World D)

/-- The part of the core that an instruction reads and writes itself. -/
structure Core (D : Type) where
  regs : Registers
  PC : Word
  newPC : Word
  branchOn : Bool
  delaySlot : ℕ
  cyclesToRun : ℤ
  waitForIRQ : Bool
  waitForVU0 : Bool
  waitForInterlock : Bool
  icache : BitVec 7 → EE_ICacheLine
  osdConfigParam : Word
  deci2handlers : ℕ → Deci2Handler
  deci2size : ℕ
  cop0 : Cop0
  intc : INTC
  world : World D

/-- Which of the tables `tlb_map` points to. -/
inductive Vtlb where
  | kernel
  | sup
  | user
  deriving DecidableEq

def Vtlb.pick : Vtlb → Page → Pointer
  | .kernel, p => p.kernel_vtlb
  | .sup, p => p.sup_vtlb
  | .user, p => p.user_vtlb

def COP0_STATUS.vtlbMap (s : COP0_STATUS) : Vtlb :=
  if s.exception || s.error then .kernel
  else if s.mode = 1 then .sup
  else if s.mode = 2 then .user
  else .kernel

/-- Where control goes. `store` is a store of an instruction to a register of the INTC, true if it
makes the core take an interrupt. -/
inductive Event where
  | fetch (pc : Word)
  | branch (target : Word)
  | nullify
  | pair
  | stall
  | eret (pc : Word)
  | eretError (pc : Word)
  | boot (entry : Word)
  | setEPC (value : Word)
  | trap (epc : Word) (bd : Bool) (handler : Word)
  | interrupt (epc : Word) (bd : Bool) (handler : Word)
  | store (taken : Bool)
  deriving DecidableEq, Repr

structure Machine (D : Type) where
  core : Core D
  pcNow : Word
  tlbMap : Vtlb
  tlb : Tlb.Model.Cop0
  log : List Event

variable {D α : Type}

/-! ### The interface -/

inductive Op (D : Type) where
  | see
  | change (f : Core D → Core D)
  | stop
  | setPC (addr : Word)
  | pcNow
  | pointer (address : Word)
  | setTlbModified (address : Word)
  | setTlb
  | tlbEntry
  | setTlbMap
  | record (e : Event)

@[reducible]
def Reply : Op D → Type
  | .see => Core D
  | .change _ => Unit
  | .stop => Empty
  | .setPC _ => Unit
  | .pcNow => Word
  | .pointer _ => Pointer
  | .setTlbModified _ => Unit
  | .setTlb => Unit
  | .tlbEntry => TLB_Entry
  | .setTlbMap => Unit
  | .record _ => Unit

abbrev Program (D α : Type) := Code (Reply (D := D)) α

abbrev Run (D α : Type) := StateT (Machine D) Option α

def modified (x : Page) : Page := { x with vtlb_info.modified := true }

/-- The index that TLBR and TLBWI take from COP0. -/
def Core.tlbIndex (c : Core D) : ℕ := (c.cop0.gpr 0).toNat

def perform : (o : Op D) → Run D (Reply o)
  | .see => do return (← get).core
  | .change f => modify fun m => { m with core := f m.core }
  | .stop => failure
  | .setPC addr => modify fun m => { m with pcNow := addr, core := { m.core with PC := addr } }
  | .pcNow => do return (← get).pcNow
  | .pointer address => do
    let m ← get
    return m.tlbMap.pick (m.tlb.vtlb (address.toNat / 4096))
  | .setTlbModified address => modify fun m =>
    let page := address.toNat / 4096
    { m with tlb.vtlb := Function.update m.tlb.vtlb page (modified (m.tlb.vtlb page)) }
  | .setTlb => do
    let m ← get
    match Tlb.Model.tlbwi m.core.cop0.gpr m.tlb with
    | some tlb => set { m with tlb := tlb }
    | none => failure
  | .tlbEntry => do
    let m ← get
    if m.core.tlbIndex < Tlb.Model.tlb_entries then return m.tlb.tlb m.core.tlbIndex else failure
  | .setTlbMap => modify fun m => { m with tlbMap := m.core.cop0.status.vtlbMap }
  | .record e => modify fun m => { m with log := e :: m.log }

/-- The run of a handler. -/
def exec (c : Program D α) : Run D α := c.run perform

abbrev call (o : Op D) : Program D (Reply o) := ask o

def see : Program D (Core D) := call .see

def change (f : Core D → Core D) : Program D Unit := call (.change f)

/-- `Errors::die`. -/
def die : Program D α := do
  let e : Empty ← call .stop
  e.elim

def setPC (addr : Word) : Program D Unit := call (.setPC addr)

def record (e : Event) : Program D Unit := call (.record e)

def getPCNow : Program D Word := call .pcNow

def pointer (address : Word) : Program D Pointer := call (.pointer address)

def setTlbModified (address : Word) : Program D Unit := call (.setTlbModified address)

def setTlb : Program D Unit := call .setTlb

def tlbEntry : Program D TLB_Entry := call .tlbEntry

/-- `tlb_map = cp0->get_vtlb_map()`. -/
def setTlbMap : Program D Unit := call .setTlbMap

def getPC : Program D Word := do return (← see).PC

/-! ### General registers -/

def getGpr (r : BitVec 5) : Program D Quad := do return (← see).regs.gpr r

/-- The lowest bits of a register, as signed or unsigned words of any width up to 128. -/
def gpr (n : ℕ) (r : BitVec 5) : Program D (BitVec n) := do return (← getGpr r).setWidth n

def insertBits (q : Quad) (start n : ℕ) (v : BitVec n) : Quad :=
  (q &&& ~~~((BitVec.allOnes n).setWidth 128 <<< start)) ||| (v.setWidth 128 <<< start)

/-- A part of a register; the register 0 stays zero. -/
def setGpr {n : ℕ} (r : BitVec 5) (v : BitVec n) (offset : ℕ) : Program D Unit :=
  change fun c => if r = 0 then c else
    { c with regs.gpr :=
        Function.update c.regs.gpr r (insertBits (c.regs.gpr r) (offset * n) n v) }

/-! ### Halting -/

def halt : Program D Unit := change fun c => { c with waitForIRQ := true, cyclesToRun := 0 }

def unhalt : Program D Unit := change fun c =>
  { c with waitForIRQ := false, cyclesToRun := if c.cyclesToRun < 0 then 0 else c.cyclesToRun }

/-! ### Exceptions and interrupts -/

def Cop0.intEnabled (c : Cop0) : Bool :=
  c.status.masterIntEnable && c.status.intEnable && !c.status.exception && !c.status.error

/-- Where an exception goes, given its vector. -/
def COP0_STATUS.handler (s : COP0_STATUS) (newAddr : Word) : Word :=
  if s.bev then (newAddr ||| 0xBFC00000) + 0x200 else newAddr

def handleException (newAddr : Word) (code : BitVec 8) : Program D Unit := do
  change fun c => { c with
    cop0.status.exception := true
    cop0.cause.code := code
    cop0.cause.bd := c.branchOn
    cop0.EPC := if c.branchOn then c.PC - 4 else c.PC
    branchOn := false
    delaySlot := 0 }
  setPC ((← see).cop0.status.handler newAddr)
  unhalt
  setTlbMap

def takeInterrupt : Program D Unit := do
  handleException 0x80000200 0
  let c ← see
  record (.interrupt c.cop0.EPC c.cop0.cause.bd c.PC)

def int0 : Program D Unit := do
  if (← see).cop0.status.int0Mask then takeInterrupt

def int1 : Program D Unit := do
  if (← see).cop0.status.int1Mask then takeInterrupt

def intTimer : Program D Unit := do
  if (← see).cop0.status.timerIntMask then takeInterrupt

def setInt0Signal (value : Bool) : Program D Unit := do
  change fun c => { c with cop0.cause.int0Pending := value }
  if value && (← see).cop0.intEnabled then int0

def setInt1Signal (value : Bool) : Program D Unit :=
  change fun c => { c with cop0.cause.int1Pending := value }

/-! ### INTC -/

/-- A wait for `INTC_STAT` ends. -/
def endSpeedhack : Program D Unit := do
  if (← see).intc.statSpeedhackActive then
    unhalt
    change fun c => { c with intc.statSpeedhackActive := false, intc.readStatCount := 0 }

def int0Check : Program D Unit := do
  endSpeedhack
  change fun c => { c with intc.readStatCount := 0 }
  let c ← see
  setInt0Signal (c.intc.STAT &&& c.intc.MASK != 0)

def readStat : Program D Word := do
  change fun c => { c with intc.readStatCount := c.intc.readStatCount + 1 }
  (if 1000 ≤ (← see).intc.readStatCount then do
    halt
    change fun c => { c with intc.statSpeedhackActive := true }
  else pure ())
  return (← see).intc.STAT

def writeMask (value : Word) : Program D Unit := do
  change fun c => { c with intc.MASK := c.intc.MASK ^^^ (value &&& 0x7FFF) }
  int0Check

def writeStat (value : Word) : Program D Unit := do
  change fun c => { c with intc.STAT := c.intc.STAT &&& ~~~value }
  int0Check

/-- The check itself is an event of the scheduler, eight cycles later. -/
def assertIRQ (id : ℕ) : Program D Unit := do
  change fun c => { c with intc.STAT := c.intc.STAT ||| (1 <<< id) }
  endSpeedhack

/-- The registers of the INTC let the core take an interrupt. -/
def Core.takes (c : Core D) (stat mask : Word) : Bool :=
  (stat &&& mask != 0) && c.cop0.intEnabled && c.cop0.status.int0Mask

/-! ### Other components -/

def sendSignal : Signal → Program D Unit
  | .irq id => assertIRQ id
  | .int1 value => setInt1Signal value

def sendSignals : List Signal → Program D Unit
  | [] => pure ()
  | x :: xs => do
    sendSignal x
    sendSignals xs

def device (e : Effect D α) : Program D α := do
  match e (← see).world with
  | none => die
  | some (a, signals, w) =>
    change fun c => { c with world := w }
    sendSignals signals
    return a

/-- A look at the other components. -/
def peek (f : D → α) : Program D α := do return f (← see).world.devices

/-- Reads of memory and what then becomes of the components. -/
inductive Probe (D : Type) where
  | done (f : D → D)
  | read (address : Word) (next : Word → D → Probe D)

/-- What the core calls of the other components, and the handlers that only compute on registers. -/
structure Rest (D : Type) where
  compute : Word → Registers → Option Registers
  read : ℕ → Word → Effect D Quad
  write : ℕ → Word → Quad → Effect D Unit
  dmacRead32 : Word → D → Word
  vu0IsRunning : D → Bool
  vu1IsRunning : D → Bool
  vu0StoppedByTbit : D → Bool
  vu1StoppedByTbit : D → Bool
  vu0IsInterlocked : D → Bool
  cop2UpdatePipes : Effect D Unit
  vu0Run : Effect D Unit
  vu0StartProgram : Word → Effect D Unit
  vu1StartProgram : Word → Effect D Unit
  vu0ReadCMSAR0 : D → Word
  vu0Cfc : BitVec 5 → D → Word
  vu0Ctc : BitVec 5 → Word → Effect D Unit
  vu0Gpr : BitVec 5 → ℕ → D → Word
  vu0SetGpr : BitVec 5 → ℕ → Word → Effect D Unit
  vu0Execute : Word → Effect D Unit
  interlockCop2Check : Effect D Bool
  clearCop2Interlock : Effect D Unit
  eeLogSifrpc : Word → ℤ → D → Probe D
  fastBoot : Effect D Unit
  skipBIOS : Effect D (Option Word)
  runBlocks : Program D Unit

variable (P : Rest D)

/-! ### Memory -/

def loadBytes (m : Memory) (p : Pointer) (offset n : ℕ) : Quad :=
  match p with
  | .RDRAM a => BitVec.ofNat 128 (load n m.RDRAM (a + offset))
  | .BIOS a => BitVec.ofNat 128 (load n m.BIOS (a + offset))
  | .spr a => BitVec.ofNat 128 (load n m.spr (a + offset))
  | .null => 0
  | .mmio => 0

def storeBytes (m : Memory) (p : Pointer) (offset n : ℕ) (v : Quad) : Memory :=
  match p with
  | .RDRAM a => { m with RDRAM := store n m.RDRAM (a + offset) v.toNat }
  | .BIOS a => { m with BIOS := store n m.BIOS (a + offset) v.toNat }
  | .spr a => { m with spr := store n m.spr (a + offset) v.toNat }
  | .null => m
  | .mmio => m

def INTC_STAT_ADDRESS : Word := 0x1000F000

def INTC_MASK_ADDRESS : Word := 0x1000F010

/-- `Emulator::read8` to `read128`, by the number of bytes. -/
def emulatorRead (n : ℕ) (address : Word) : Program D Quad :=
  if n = 4 ∧ address = INTC_STAT_ADDRESS then do return (← readStat).setWidth 128
  else if n = 4 ∧ address = INTC_MASK_ADDRESS then do return (← see).intc.MASK.setWidth 128
  else device (P.read n address)

def noteStore (stat mask : Word) : Program D Unit := do
  record (.store ((← see).takes stat mask))

def emulatorWrite (n : ℕ) (address : Word) (v : Quad) : Program D Unit := do
  let intc := (← see).intc
  let value := v.setWidth 32
  if n = 4 ∧ address = INTC_STAT_ADDRESS then
    noteStore (intc.STAT &&& ~~~value) intc.MASK
    writeStat value
  else if n = 4 ∧ address = INTC_MASK_ADDRESS then
    noteStore intc.STAT (intc.MASK ^^^ (value &&& 0x7FFF))
    writeMask value
  else device (P.write n address v)

/-- Accesses of bytes and quadwords are not checked. -/
def aligned (n : ℕ) (address : Word) : Bool := n = 16 || address.toNat % n = 0

def physical (address : Word) : Word := address &&& 0x1FFFFFFF

def read (n : ℕ) (address : Word) : Program D Quad := do
  if !aligned n address then die
  else
    match ← pointer address with
    | .null => die
    | .mmio => emulatorRead P n (physical address)
    | p => return loadBytes (← see).world.memory p (address.toNat % 4096) n

def write (n : ℕ) (address : Word) (v : Quad) : Program D Unit := do
  if !aligned n address then die
  else
    match ← pointer address with
    | .null => die
    | .mmio => emulatorWrite P n (physical address) v
    | p =>
      setTlbModified address
      change fun c =>
        { c with world.memory := storeBytes c.world.memory p (address.toNat % 4096) n v }

def read32 (address : Word) : Program D Word := do return (← read P 4 address).setWidth 32

def write32 (address value : Word) : Program D Unit := write P 4 address (value.setWidth 128)

end DobieStation.Ee.Interface
