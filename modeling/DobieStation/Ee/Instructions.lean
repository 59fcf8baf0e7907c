import DobieStation.Ee.Interface

/-! # The instructions of the EE

The handlers of `EmotionInterpreter` and its lookup. A handler that only computes on registers (the
arithmetic, MMI and most of the FPU) is `compute`; all others are written out. -/

namespace DobieStation.Ee.Instructions

open DobieStation.Lib.Interaction DobieStation.Ee.Interface
open DobieStation.Tlb.Model (TLB_Entry EntryLo)

variable {D : Type} (P : Rest D)

/-! ### Fields -/

section
variable (w : Word)

def op : ℕ := (w.extractLsb' 26 6).toNat

def rs : BitVec 5 := w.extractLsb' 21 5

def rt : BitVec 5 := w.extractLsb' 16 5

def rd : BitVec 5 := w.extractLsb' 11 5

def funct : ℕ := (w.extractLsb' 0 6).toNat

/-- The lowest half, with its sign. -/
def imm : Word := (w.setWidth 16).signExtend 32

def offset : Word := imm w <<< 2

end

/-! ### Branches -/

def jp (addr : Word) : Program D Unit := do
  change fun c => { c with branchOn := true, newPC := addr, delaySlot := 1 }
  record (.branch addr)

def branch (condition : Bool) (offset : Word) : Program D Unit := do
  if condition then jp ((← getPC) + offset + 4)

def branchLikely (condition : Bool) (offset : Word) : Program D Unit := do
  if condition then jp ((← getPC) + offset + 4)
  else
    setPC ((← getPC) + 4)
    record .nullify

def jumpTarget (w pc : Word) : Word := ((w &&& 0x3FFFFFF) <<< 2) + ((pc + 4) &&& 0xF0000000)

def j (w : Word) : Program D Unit := do
  jp (jumpTarget w (← getPC))

def jal (w : Word) : Program D Unit := do
  let pc ← getPC
  jp (jumpTarget w pc)
  setGpr 31 ((pc + 8).setWidth 64) 0

def jr (w : Word) : Program D Unit := do
  jp (← gpr 32 (rs w))

def jalr (w : Word) : Program D Unit := do
  let pc ← getPC
  jp (← gpr 32 (rs w))
  setGpr (rd w) ((pc + 8).setWidth 64) 0

/-- The two registers are compared. -/
def compareBranch (likely : Bool) (test : BitVec 64 → BitVec 64 → Bool) (w : Word) :
    Program D Unit := do
  let condition := test (← gpr 64 (rs w)) (← gpr 64 (rt w))
  if likely then branchLikely condition (offset w) else branch condition (offset w)

def beq (w : Word) : Program D Unit := compareBranch false (fun x y => x == y) w

def bne (w : Word) : Program D Unit := compareBranch false (fun x y => x != y) w

def beql (w : Word) : Program D Unit := compareBranch true (fun x y => x == y) w

def bnel (w : Word) : Program D Unit := compareBranch true (fun x y => x != y) w

/-- A register is compared with zero; with `link`, the return address goes to `ra` first. -/
def zeroBranch (likely link : Bool) (test : ℤ → Bool) (w : Word) : Program D Unit := do
  let condition := test (← gpr 64 (rs w)).toInt
  (if link then do setGpr 31 (((← getPC) + 8).setWidth 64) 0 else pure ())
  if likely then branchLikely condition (offset w) else branch condition (offset w)

def blez (w : Word) : Program D Unit := zeroBranch false false (fun x => x ≤ 0) w

def bgtz (w : Word) : Program D Unit := zeroBranch false false (fun x => 0 < x) w

def blezl (w : Word) : Program D Unit := zeroBranch true false (fun x => x ≤ 0) w

def bgtzl (w : Word) : Program D Unit := zeroBranch true false (fun x => 0 < x) w

def bltz (w : Word) : Program D Unit := zeroBranch false false (fun x => x < 0) w

def bgez (w : Word) : Program D Unit := zeroBranch false false (fun x => 0 ≤ x) w

def bltzl (w : Word) : Program D Unit := zeroBranch true false (fun x => x < 0) w

def bgezl (w : Word) : Program D Unit := zeroBranch true false (fun x => 0 ≤ x) w

def bltzal (w : Word) : Program D Unit := zeroBranch false true (fun x => x < 0) w

def bgezal (w : Word) : Program D Unit := zeroBranch false true (fun x => 0 ≤ x) w

def bltzall (w : Word) : Program D Unit := zeroBranch true true (fun x => x < 0) w

def bgezall (w : Word) : Program D Unit := zeroBranch true true (fun x => 0 ≤ x) w

/-- The branches on the condition of a coprocessor: false, true, and the likely ones. -/
def conditionBranch (condition : Bool) (w : Word) : Program D Unit :=
  let op := (rt w).toNat
  if 3 < op then die
  else
    let passed := condition == decide (op % 2 = 1)
    if 2 ≤ op then branchLikely passed (offset w) else branch passed (offset w)

/-- All the transfers that `PCR` names have completed. -/
def getCondition (d : D) : Bool :=
  let STAT := P.dmacRead32 0x1000E010 d &&& 0x3FF
  let PCR := P.dmacRead32 0x1000E020 d &&& 0x3FF
  (~~~PCR ||| STAT) &&& 0x3FF == 0x3FF

def cop_bc0 (w : Word) : Program D Unit := do
  conditionBranch (← peek (getCondition P)) w

def cop_bc1 (w : Word) : Program D Unit := do
  conditionBranch (← see).regs.fpu.control.condition w

def cop2_bc2 (w : Word) : Program D Unit := do
  conditionBranch (← peek P.vu1IsRunning) w

/-! ### Loads and stores -/

def address (w : Word) : Program D Word := do return (← gpr 32 (rs w)) + imm w

def loadSigned (n : ℕ) (w : Word) : Program D Unit := do
  let v ← read P n (← address w)
  setGpr (rt w) ((v.setWidth (8 * n)).signExtend 64) 0

def loadUnsigned (n : ℕ) (w : Word) : Program D Unit := do
  let v ← read P n (← address w)
  setGpr (rt w) ((v.setWidth (8 * n)).setWidth 64) 0

def store (n : ℕ) (w : Word) : Program D Unit := do
  let addr ← address w
  write P n addr ((← gpr (8 * n) (rt w)).setWidth 128)

def lb (w : Word) : Program D Unit := loadSigned P 1 w

def lh (w : Word) : Program D Unit := loadSigned P 2 w

def lw (w : Word) : Program D Unit := loadSigned P 4 w

def lbu (w : Word) : Program D Unit := loadUnsigned P 1 w

def lhu (w : Word) : Program D Unit := loadUnsigned P 2 w

def lwu (w : Word) : Program D Unit := loadUnsigned P 4 w

def ld (w : Word) : Program D Unit := loadUnsigned P 8 w

def sb (w : Word) : Program D Unit := store P 1 w

def sh (w : Word) : Program D Unit := store P 2 w

def sw (w : Word) : Program D Unit := store P 4 w

def sd (w : Word) : Program D Unit := store P 8 w

def lq (w : Word) : Program D Unit := do
  let addr := (← address w) &&& ~~~0xF
  setGpr (rt w) (← read P 16 addr) 0

def sq (w : Word) : Program D Unit := do
  let addr := (← address w) &&& ~~~0xF
  write P 16 addr (← getGpr (rt w))

/-- The part of a word of `n` bytes that an unaligned access takes, and its place in the word. -/
def part (n : ℕ) (addr : Word) : ℕ := addr.toNat % n

def base (n : ℕ) (addr : Word) : Word := addr &&& ~~~(BitVec.ofNat 32 (n - 1))

/-- `merge` puts the word of the memory into that of the register, given the part. -/
def loadPart (n : ℕ) (merge : ℕ → BitVec (8 * n) → BitVec (8 * n) → BitVec (8 * n))
    (put : ℕ → BitVec (8 * n) → Program D Unit) (w : Word) : Program D Unit := do
  let addr ← address w
  let mem := (← read P n (base n addr)).setWidth (8 * n)
  let reg ← gpr (8 * n) (rt w)
  put (part n addr) (merge (part n addr) reg mem)

/-- `merge` puts the word of the register into that of the memory. -/
def storePart (n : ℕ) (merge : ℕ → BitVec (8 * n) → BitVec (8 * n) → BitVec (8 * n)) (w : Word) :
    Program D Unit := do
  let addr ← address w
  let mem := (← read P n (base n addr)).setWidth (8 * n)
  let reg ← gpr (8 * n) (rt w)
  write P n (base n addr) ((merge (part n addr) reg mem).setWidth 128)

def at4 (table : List Word) (shift : ℕ) : Word := table.getD shift 0

def at8 (table : List (BitVec 64)) (shift : ℕ) : BitVec 64 := table.getD shift 0

def LWL_MASK : List Word := [0xFFFFFF, 0xFFFF, 0xFF, 0]

def LWR_MASK : List Word := [0, 0xFF000000, 0xFFFF0000, 0xFFFFFF00]

def SWL_MASK : List Word := [0xFFFFFF00, 0xFFFF0000, 0xFF000000, 0]

def SWR_MASK : List Word := [0, 0xFF, 0xFFFF, 0xFFFFFF]

def LDL_MASK : List (BitVec 64) :=
  [0x00FFFFFFFFFFFFFF, 0x0000FFFFFFFFFFFF, 0x000000FFFFFFFFFF, 0x00000000FFFFFFFF,
    0x0000000000FFFFFF, 0x000000000000FFFF, 0x00000000000000FF, 0]

def LDR_MASK : List (BitVec 64) :=
  [0, 0xFF00000000000000, 0xFFFF000000000000, 0xFFFFFF0000000000,
    0xFFFFFFFF00000000, 0xFFFFFFFFFF000000, 0xFFFFFFFFFFFF0000, 0xFFFFFFFFFFFFFF00]

def SDL_MASK : List (BitVec 64) :=
  [0xFFFFFFFFFFFFFF00, 0xFFFFFFFFFFFF0000, 0xFFFFFFFFFF000000, 0xFFFFFFFF00000000,
    0xFFFFFF0000000000, 0xFFFF000000000000, 0xFF00000000000000, 0]

def SDR_MASK : List (BitVec 64) :=
  [0, 0x00000000000000FF, 0x000000000000FFFF, 0x0000000000FFFFFF,
    0x00000000FFFFFFFF, 0x000000FFFFFFFFFF, 0x0000FFFFFFFFFFFF, 0x00FFFFFFFFFFFFFF]

def lwl (w : Word) : Program D Unit :=
  loadPart P 4 (fun shift reg mem => (reg &&& at4 LWL_MASK shift) ||| (mem <<< (24 - 8 * shift)))
    (fun _ v => setGpr (rt w) (v.signExtend 64) 0) w

/-- The loaded word is sign-extended only if it is a whole one. -/
def lwr (w : Word) : Program D Unit :=
  loadPart P 4 (fun shift reg mem => (reg &&& at4 LWR_MASK shift) ||| (mem >>> (8 * shift)))
    (fun shift v => if shift = 0 then setGpr (rt w) (v.signExtend 64) 0 else setGpr (rt w) v 0) w

def ldl (w : Word) : Program D Unit :=
  loadPart P 8 (fun shift reg mem => (reg &&& at8 LDL_MASK shift) ||| (mem <<< (56 - 8 * shift)))
    (fun _ v => setGpr (rt w) v 0) w

def ldr (w : Word) : Program D Unit :=
  loadPart P 8 (fun shift reg mem => (reg &&& at8 LDR_MASK shift) ||| (mem >>> (8 * shift)))
    (fun _ v => setGpr (rt w) v 0) w

def swl (w : Word) : Program D Unit :=
  storePart P 4 (fun shift reg mem => (reg >>> (24 - 8 * shift)) ||| (mem &&& at4 SWL_MASK shift)) w

def swr (w : Word) : Program D Unit :=
  storePart P 4 (fun shift reg mem => (reg <<< (8 * shift)) ||| (mem &&& at4 SWR_MASK shift)) w

def sdl (w : Word) : Program D Unit :=
  storePart P 8 (fun shift reg mem => (reg >>> (56 - 8 * shift)) ||| (mem &&& at8 SDL_MASK shift)) w

def sdr (w : Word) : Program D Unit :=
  storePart P 8 (fun shift reg mem => (reg <<< (8 * shift)) ||| (mem &&& at8 SDR_MASK shift)) w

def lwc1 (w : Word) : Program D Unit := do
  let v ← read32 P (← address w)
  change fun c => { c with regs.fpu.gpr := Function.update c.regs.fpu.gpr (rt w) v }

def swc1 (w : Word) : Program D Unit := do
  let addr ← address w
  write32 P addr ((← see).regs.fpu.gpr (rt w))

/-- Only index invalidation of the instruction cache is emulated. -/
def cache (w : Word) : Program D Unit := do
  let addr ← address w
  if (rt w).toNat = 0x07 then
    let index := addr.extractLsb' 6 7
    change fun c =>
      let line := c.icache index
      let row := addr.getLsbD 0
      { c with icache := Function.update c.icache index { line with
          tag := Function.update line.tag row (line.tag row ||| 0x80000000) } }

/-! ### COP0 -/

def bit (b : Bool) (n : ℕ) : Word := (BitVec.ofBool b).setWidth 32 <<< n

def statusWord (s : COP0_STATUS) : Word :=
  bit s.intEnable 0 ||| bit s.exception 1 ||| bit s.error 2 ||| (s.mode.setWidth 32 <<< 3) |||
  bit s.int0Mask 10 ||| bit s.int1Mask 11 ||| bit s.busError 12 ||| bit s.timerIntMask 15 |||
  bit s.masterIntEnable 16 ||| bit s.edi 17 ||| bit s.ch 18 ||| bit s.bev 22 ||| bit s.dev 23 |||
  (s.cu.setWidth 32 <<< 28)

def causeWord (c : COP0_CAUSE) : Word :=
  (c.code.setWidth 32 <<< 2) ||| bit c.int0Pending 10 ||| bit c.int1Pending 11 |||
  bit c.timerIntPending 15 ||| (c.code2.setWidth 32 <<< 16) ||| (c.ce.setWidth 32 <<< 28) |||
  bit c.bd2 30 ||| bit c.bd 31

def statusOf (v : Word) : COP0_STATUS where
  intEnable := v.getLsbD 0
  exception := v.getLsbD 1
  error := v.getLsbD 2
  mode := v.extractLsb' 3 2
  int0Mask := v.getLsbD 10
  int1Mask := v.getLsbD 11
  busError := v.getLsbD 12
  timerIntMask := v.getLsbD 15
  masterIntEnable := v.getLsbD 16
  edi := v.getLsbD 17
  ch := v.getLsbD 18
  bev := v.getLsbD 22
  dev := v.getLsbD 23
  cu := v.extractLsb' 28 4

def mfc0 (c : Cop0) (index : BitVec 5) : Word :=
  match index.toNat with
  | 12 => statusWord c.status
  | 13 => causeWord c.cause
  | 14 => c.EPC
  | 30 => c.ErrorEPC
  | i => c.gpr i

def setCop0 (i : ℕ) (v : Word) : Program D Unit :=
  change fun c => { c with cop0.gpr := Function.update c.cop0.gpr i v }

/-- No bits of CAUSE can be written; a write of COMPARE ends the interrupt of the timer. -/
def mtc0 (index : BitVec 5) (v : Word) : Program D Unit :=
  match index.toNat with
  | 12 => change fun c => { c with cop0.status := statusOf v }
  | 13 => pure ()
  | 14 => do
    change fun c => { c with cop0.EPC := v }
    record (.setEPC v)
  | 30 => change fun c => { c with cop0.ErrorEPC := v }
  | 11 => do
    change fun c => { c with cop0.cause.timerIntPending := false }
    setCop0 11 v
  | i => setCop0 i v

/-- Register 25 is one of the performance counters or their control. -/
def cop0_mfc (w : Word) : Program D Unit := do
  let c := (← see).cop0
  let v :=
    if (rd w).toNat = 25 then
      if w.getLsbD 0 then if (w.extractLsb' 1 5) ≠ 0 then c.PCR1 else c.PCR0
      else c.PCCR
    else mfc0 c (rd w)
  setGpr (rt w) (v.signExtend 64) 0

def cop0_mtc (w : Word) : Program D Unit := do
  let v ← gpr 32 (rt w)
  if (rd w).toNat = 25 then
    if w.getLsbD 0 then
      if (w.extractLsb' 1 5) ≠ 0 then change fun c => { c with cop0.PCR1 := v }
      else change fun c => { c with cop0.PCR0 := v }
    else change fun c => { c with cop0.PCCR := v }
  else
    mtc0 (rd w) v
    setTlbMap

def entryLoWord (lo : EntryLo) (isGlobal : Bool) : Word :=
  (BitVec.ofNat 32 lo.pfn <<< 6) ||| (BitVec.ofNat 32 lo.cache_mode <<< 3) ||| bit lo.dirty 2 |||
    bit lo.valid 1 ||| bit isGlobal 0

/-- `read_tlb` exchanges the two halves of an entry. -/
def tlbr : Program D Unit := do
  let e ← tlbEntry
  let pageMask := BitVec.ofNat 32 e.page_mask <<< 13
  setCop0 5 pageMask
  setCop0 10 (((BitVec.ofNat 32 e.vpn2 <<< 13) ||| BitVec.ofNat 32 e.asid) &&& ~~~pageMask)
  setCop0 2 (bit e.is_scratchpad 31 ||| entryLoWord e.odd e.is_global)
  setCop0 3 (entryLoWord e.even e.is_global)

def tlbwi : Program D Unit := setTlb

def privileged (s : COP0_STATUS) : Bool :=
  s.edi || s.mode == 0 || s.exception || s.error

def ei : Program D Unit := do
  if privileged (← see).cop0.status then
    change fun c => { c with cop0.status.masterIntEnable := true }

def di : Program D Unit := do
  if privileged (← see).cop0.status then
    change fun c => { c with cop0.status.masterIntEnable := false }

/-- The address is that of the error or of the exception. -/
def leaveException : Program D Unit := do
  let c := (← see).cop0
  if c.status.error then
    setPC c.ErrorEPC
    change fun c => { c with cop0.status.error := false }
    record (.eretError c.ErrorEPC)
  else
    setPC c.EPC
    change fun c => { c with cop0.status.exception := false }
    record (.eret c.EPC)

/-- An ELF is booted instead of what the BIOS was about to start. -/
def skipBIOS : Program D Unit := do
  match ← device P.skipBIOS with
  | none => pure ()
  | some entry =>
    setPC entry
    record (.boot entry)

def eret : Program D Unit := do
  leaveException
  (if (← getPC) = 0x82000 then device P.fastBoot else pure ())
  let pc ← getPC
  (if 0x81FC0 ≤ pc ∧ pc < 0x81FE0 then halt else pure ())
  (if 0x00100000 ≤ pc ∧ pc < 0x00100010 then skipBIOS P else pure ())
  setPC ((← getPC) - 4)
  setTlbMap

/-! ### Exceptions that instructions raise -/

/-- The handler is four bytes behind the vector that the program counter is set to. -/
def raise (code : BitVec 8) : Program D Unit := do
  handleException 0x8000017C code
  let c ← see
  record (.trap c.cop0.EPC c.cop0.cause.bd c.PC)

def teq (w : Word) : Program D Unit := do
  if (← gpr 64 (rs w)) = (← gpr 64 (rt w)) then raise 0xD

def DECI2_HANDLERS : ℕ := 128

def deci2handler (id : ℕ) : Program D Deci2Handler := do
  if id < DECI2_HANDLERS then return (← see).deci2handlers id else die

def setDeci2 (id : ℕ) (f : Deci2Handler → Deci2Handler) : Program D Unit :=
  change fun c =>
    { c with deci2handlers := Function.update c.deci2handlers id (f (c.deci2handlers id)) }

def deci2Open (param : Word) : Program D Unit := do
  let id := (← see).deci2size
  change fun c => { c with deci2size := id + 1 }
  let _ ← deci2handler id
  setDeci2 id fun h => { h with active := true }
  let dev ← read32 P param
  setDeci2 id fun h => { h with device := dev }
  let addr ← read32 P (param + 4)
  setDeci2 id fun h => { h with addr := addr }
  setGpr 2 (BitVec.ofNat 64 id) 0

/-- The text goes to the log of the emulator. -/
def deci2Send (param : Word) : Program D Unit := do
  let h ← deci2handler (← read32 P param).toNat
  (if h.active then do
    let str ← read32 P (h.addr + 0x10)
    let len := (← read32 P str) - 0x0C
    if 0x10000 < len.toInt then die else pure ()
  else pure ())
  setGpr 2 (1 : BitVec 64) 0

def deci2Poll (param : Word) : Program D Unit := do
  let h ← deci2handler (← read32 P param).toNat
  (if h.active then write32 P (h.addr + 0x0C) 0 else pure ())
  setGpr 2 (1 : BitVec 64) 0

def deci2call (func param : Word) : Program D Unit :=
  match func.toNat with
  | 0x01 => deci2Open P param
  | 0x03 => deci2Send P param
  | 0x04 => deci2Poll P param
  | _ => pure ()

def runProbe : Probe D → Program D Unit
  | .done f => change fun c => { c with world.devices := f c.world.devices }
  | .read address next => do
    let v ← read32 P address
    runProbe (next v (← see).world.devices)

/-- What the emulator does of a system call itself; false if the call ends there. -/
def hleSyscall (op : ℕ) : Program D Bool :=
  match op with
  | 0x4 => die
  | 0x4A => do
    let value ← read32 P (← gpr 32 4)
    change fun c => { c with osdConfigParam := value }
    return true
  | 0x4B => do
    let ptr ← gpr 32 4
    write32 P ptr (← see).osdConfigParam
    return false
  | 0x77 => do
    let ptr ← gpr 32 4
    let len := (← gpr 32 5).toInt
    runProbe P (P.eeLogSifrpc ptr len (← see).world.devices)
    return true
  | 0x7C => do
    let func ← gpr 32 4
    deci2call P func (← gpr 32 5)
    return false
  | _ => return true

def syscallException : Program D Unit := do
  let op := (← gpr 32 3).toInt.natAbs
  if ← hleSyscall P op then raise 0x08

/-! ### COP2 -/

def tick (n : BitVec 64) : Program D Unit :=
  change fun c => { c with world.cycleCount := c.world.cycleCount + n }

/-- The instruction is executed again: the program counter goes back by one. -/
def stall : Program D Unit := do
  setPC ((← getPC) - 4)
  record .stall

/-- LQC2, QMTC2 and CTC2. -/
def writesVu0 (w : Word) : Bool :=
  op w == 0x36 || (op w == 0x12 && ((rs w).toNat == 0x5 || (rs w).toNat == 0x6))

/-- VU0 waits for a cycle, if the last instruction was one that writes to it. -/
def cop2UpdateVu0 : Program D Unit := do
  let d := (← see).world.devices
  if !P.vu0IsRunning d then
    let pc ← getPCNow
    let last ← read32 P (pc - 4)
    (if writesVu0 last then tick 1 else pure ())
    device P.cop2UpdatePipes
  else if !P.vu0IsInterlocked d then device P.vu0Run

def vu0Wait : Program D Bool := peek P.vu0IsRunning

def checkInterlock : Program D Bool := do
  if !(← vu0Wait P) then return false else device P.interlockCop2Check

/-- Unless the word asks for an interlock that is not reached, `act`. -/
def interlocked (wait : Program D Bool) (w : Word) (act : Program D Unit) : Program D Unit := do
  if w.getLsbD 0 then
    if ← wait then stall
    else
      device P.clearCop2Interlock
      act
  else act

def eachField (f : ℕ → Program D Unit) : Program D Unit := do
  f 0
  f 1
  f 2
  f 3

def cop2_cfc (w : Word) : Program D Unit := do
  cop2UpdateVu0 P
  interlocked P (vu0Wait P) w do
    let d := (← see).world.devices
    let v := if (rd w).toNat = 29 then
        bit (P.vu0IsRunning d) 0 ||| bit (P.vu1IsRunning d) 8 ||| bit (P.vu0StoppedByTbit d) 2 |||
          bit (P.vu1StoppedByTbit d) 10
      else P.vu0Cfc (rd w) d
    setGpr (rt w) (v.signExtend 64) 0

def cop2_ctc (w : Word) : Program D Unit := do
  cop2UpdateVu0 P
  let v ← gpr 32 (rt w)
  interlocked P (checkInterlock P) w
    (if (rd w).toNat = 31 then device (P.vu1StartProgram (v <<< 3)) else device (P.vu0Ctc (rd w) v))

def cop2_qmfc2 (w : Word) : Program D Unit := do
  cop2UpdateVu0 P
  interlocked P (vu0Wait P) w
    (eachField fun i => do setGpr (rt w) (← peek (P.vu0Gpr (rd w) i)) i)

def cop2_qmtc2 (w : Word) : Program D Unit := do
  cop2UpdateVu0 P
  interlocked P (checkInterlock P) w
    (eachField fun i => do
      let q ← getGpr (rt w)
      device (P.vu0SetGpr (rd w) i (q.extractLsb' (32 * i) 32)))

def lqc2 (w : Word) : Program D Unit := do
  let addr ← address w
  cop2UpdateVu0 P
  eachField fun i => do
    let v ← read32 P (addr + BitVec.ofNat 32 (4 * i))
    device (P.vu0SetGpr (rt w) i v)

def sqc2 (w : Word) : Program D Unit := do
  let addr ← address w
  cop2UpdateVu0 P
  eachField fun i => do
    let v ← peek (P.vu0Gpr (rt w) i)
    write32 P (addr + BitVec.ofNat 32 (4 * i)) v

def startVu0 (addr : Word) : Program D Unit := do
  device P.clearCop2Interlock
  tick 1
  device (P.vu0StartProgram addr)
  tick (-1)

/-- The operations that `cop2_special` and `cop2_special2` know. -/
def knownSpecial (w : Word) : Bool :=
  if 0x3C ≤ funct w then
    let op := ((w >>> 4) &&& 0x7C ||| (w &&& 0x3)).toNat
    op ≤ 0x43 && !([0x24, 0x2B, 0x32, 0x33].contains op)
  else !([0x33, 0x36, 0x37, 0x3A, 0x3B].contains (funct w))

/-- The instructions of VU0 wait while it runs a microprogram. -/
def cop2_special (w : Word) : Program D Unit := do
  if !knownSpecial w then die
  else if ← vu0Wait P then stall
  else if funct w = 0x38 then startVu0 P ((w.extractLsb' 6 15).setWidth 32 * 8)
  else if funct w = 0x39 then do startVu0 P ((← peek P.vu0ReadCMSAR0) * 8)
  else
    cop2UpdateVu0 P
    device (P.vu0Execute w)

/-! ### Lookup -/

def compute (w : Word) : Program D Unit := do
  match P.compute w (← see).regs with
  | none => die
  | some regs => change fun c => { c with regs := regs }

def special (w : Word) : Program D Unit :=
  match funct w with
  | 0x08 => jr w
  | 0x09 => jalr w
  | 0x0C => syscallException P
  | 0x0D => die
  | 0x0F => pure ()
  | 0x34 => teq w
  | _ => compute P w

def regimm (w : Word) : Program D Unit :=
  match (rt w).toNat with
  | 0x00 => bltz w
  | 0x01 => bgez w
  | 0x02 => bltzl w
  | 0x03 => bgezl w
  | 0x10 => bltzal w
  | 0x11 => bgezal w
  | 0x12 => bltzall w
  | 0x13 => bgezall w
  | 0x18 => compute P w
  | 0x19 => compute P w
  | _ => die

def cop0_co (w : Word) : Program D Unit :=
  match funct w with
  | 0x01 => tlbr
  | 0x02 => tlbwi
  | 0x18 => eret P
  | 0x38 => ei
  | 0x39 => di
  | _ => die

def cop0 (w : Word) : Program D Unit :=
  match (rs w).toNat with
  | 0x00 => cop0_mfc w
  | 0x04 => cop0_mtc w
  | 0x08 => cop_bc0 P w
  | 0x10 => cop0_co P w
  | _ => die

/-- MFC1, CFC1, MTC1, CTC1 and the operations on numbers. -/
def cop1 (w : Word) : Program D Unit :=
  if (rs w).toNat = 0x08 then cop_bc1 w
  else if [0x00, 0x02, 0x04, 0x06, 0x10, 0x14].contains (rs w).toNat then compute P w
  else die

def cop2 (w : Word) : Program D Unit :=
  if 0x10 ≤ (rs w).toNat then cop2_special P w
  else
    match (rs w).toNat with
    | 0x01 => cop2_qmfc2 P w
    | 0x02 => cop2_cfc P w
    | 0x05 => cop2_qmtc2 P w
    | 0x06 => cop2_ctc P w
    | 0x08 => cop2_bc2 P w
    | _ => die

def immediates : List ℕ := [0x08, 0x09, 0x0A, 0x0B, 0x0C, 0x0D, 0x0E, 0x0F, 0x18, 0x19, 0x1C]

def loads (w : Word) : Program D Unit :=
  match op w with
  | 0x1A => ldl P w
  | 0x1B => ldr P w
  | 0x1E => lq P w
  | 0x20 => lb P w
  | 0x21 => lh P w
  | 0x22 => lwl P w
  | 0x23 => lw P w
  | 0x24 => lbu P w
  | 0x25 => lhu P w
  | 0x26 => lwr P w
  | 0x27 => lwu P w
  | 0x2F => cache w
  | 0x31 => lwc1 P w
  | 0x33 => pure ()
  | 0x36 => lqc2 P w
  | 0x37 => ld P w
  | _ => die

def stores (w : Word) : Program D Unit :=
  match op w with
  | 0x1F => sq P w
  | 0x28 => sb P w
  | 0x29 => sh P w
  | 0x2A => swl P w
  | 0x2B => sw P w
  | 0x2C => sdl P w
  | 0x2D => sdr P w
  | 0x2E => swr P w
  | 0x39 => swc1 P w
  | 0x3E => sqc2 P w
  | 0x3F => sd P w
  | _ => loads P w

def branches (w : Word) : Program D Unit :=
  match op w with
  | 0x02 => j w
  | 0x03 => jal w
  | 0x04 => beq w
  | 0x05 => bne w
  | 0x06 => blez w
  | 0x07 => bgtz w
  | 0x14 => beql w
  | 0x15 => bnel w
  | 0x16 => blezl w
  | 0x17 => bgtzl w
  | _ => stores P w

def interpret (w : Word) : Program D Unit :=
  if immediates.contains (op w) then compute P w
  else
    match op w with
    | 0x00 => special P w
    | 0x01 => regimm P w
    | 0x10 => cop0 P w
    | 0x11 => cop1 P w
    | 0x12 => cop2 P w
    | _ => branches P w

end DobieStation.Ee.Instructions
