import DobieStation.Lib.Memory
import DobieStation.Lib.Staged

/-! # The host

The registers and the memory of the host, and what the instructions do that `Emitter64` writes for integer
code. An instruction is under the name of the function that writes it, with its operands in their order; a
deferred jump is written with the number of instructions that it goes over. Flags that an instruction leaves
undefined, or that nothing here reads, are `none`, and no instruction can go on with these. -/

namespace DobieStation.EeJit.Host

open DobieStation.Lib.Memory DobieStation.Lib.Staged

/-! ### Registers -/

inductive REG_64 where
  | RAX | RCX | RDX | RBX | RSP | RBP | RSI | RDI | R8 | R9 | R10 | R11 | R12 | R13 | R14 | R15
  deriving DecidableEq, Repr

namespace REG_64

/-- In the order of their numbers. -/
def all : List REG_64 :=
  [RAX, RCX, RDX, RBX, RSP, RBP, RSI, RDI, R8, R9, R10, R11, R12, R13, R14, R15]

theorem mem_all (i : REG_64) : i ∈ all := by cases i <;> decide

end REG_64

structure Flags where
  zero : Bool
  carry : Bool
  sign : Bool
  overflow : Bool
  deriving DecidableEq, Repr

inductive ConditionCode where
  | B | E | NE | S | NS | L | LE | G
  deriving DecidableEq, Repr

def ConditionCode.holds (f : Flags) : ConditionCode → Bool
  | .B => f.carry
  | .E => f.zero
  | .NE => !f.zero
  | .S => f.sign
  | .NS => !f.sign
  | .L => f.sign != f.overflow
  | .LE => f.zero || f.sign != f.overflow
  | .G => !f.zero && f.sign == f.overflow

/-- The flags of a comparison: those of the difference. -/
def compare {w : ℕ} (a b : BitVec w) : Flags :=
  ⟨a == b, a.ult b, (a - b).msb, BitVec.ssubOverflow a b⟩

/-- The flags of `and`. -/
def test {w : ℕ} (a : BitVec w) : Flags := ⟨a == 0, false, a.msb, false⟩

structure Machine where
  regs : REG_64 → BitVec 64
  flags : Option Flags
  mem : Bytes

namespace Machine

variable (m : Machine)

def set (r : REG_64) (v : BitVec 64) : Machine := { m with regs := Function.update m.regs r v }

/-- The upper half becomes zero. -/
def set32 (r : REG_64) (v : BitVec 32) : Machine := m.set r (v.setWidth 64)

/-- The low bits are replaced. -/
def setLow (n : ℕ) (r : REG_64) (v : BitVec n) : Machine :=
  m.set r ((m.regs r &&& ~~~(BitVec.allOnes n).setWidth 64) ||| v.setWidth 64)

/-- What an instruction leaves that changes the flags in a way that nothing reads. -/
def clobber : Machine := { m with flags := none }

def withFlags (f : Flags) : Machine := { m with flags := some f }

/-- The low bits of a register. -/
def low (n : ℕ) (r : REG_64) : BitVec n := (m.regs r).setWidth n

def address (indir : REG_64) (offset : BitVec 32) : ℕ := (m.regs indir + offset.signExtend 64).toNat

@[simp] theorem set_self (r : REG_64) (v : BitVec 64) : (m.set r v).regs r = v := by
  change Function.update m.regs r v r = v
  rw [Function.update_self]

theorem set_of_ne {r i : REG_64} (hi : i ≠ r) (v : BitVec 64) : (m.set r v).regs i = m.regs i := by
  change Function.update m.regs r v i = m.regs i
  rw [Function.update_of_ne hi]

end Machine

/-! ### Instructions -/

inductive Instr where
  | AND8_REG_IMM (imm : BitVec 8) (dest : REG_64)
  | AND16_REG_IMM (imm : BitVec 16) (dest : REG_64)
  | AND64_REG (source dest : REG_64)
  | CDQ
  | CMOVCC64_REG (cc : ConditionCode) (source dest : REG_64)
  | CMP32_IMM (imm : BitVec 32) (op : REG_64)
  | CMP64_IMM (imm : BitVec 32) (op : REG_64)
  | CMP64_REG (op2 op1 : REG_64)
  | DEC8 (dest : REG_64)
  | DIV32 (divisor : REG_64)
  | IDIV32 (divisor : REG_64)
  | IMUL32 (source : REG_64)
  | JCC_NEAR_DEFERRED (cc : ConditionCode) (count : ℕ)
  | JMP_NEAR_DEFERRED (count : ℕ)
  | LEA32_M (source dest : REG_64) (offset : BitVec 32)
  | LEA32_REG (source source2 dest : REG_64)
  | LEA64_M (source dest : REG_64) (offset : BitVec 32)
  | LEA64_REG (source source2 dest : REG_64)
  | MOV8_REG (source dest : REG_64)
  | MOV32_REG (source dest : REG_64)
  | MOV64_FROM_MEM (indir dest : REG_64) (offset : BitVec 32)
  | MOV64_MR (source dest : REG_64)
  | MOV64_OI (imm : BitVec 64) (dest : REG_64)
  | MOV64_TO_MEM (source indir : REG_64) (offset : BitVec 32)
  | MOVSX8_TO_64 (source dest : REG_64)
  | MOVSX32_TO_64 (source dest : REG_64)
  | MOVZX8_TO_64 (source dest : REG_64)
  | MOVZX16_TO_64 (source dest : REG_64)
  | MUL32 (source : REG_64)
  | NEG32 (dest : REG_64)
  | NEG64 (dest : REG_64)
  | NOT64 (dest : REG_64)
  | OR16_REG_IMM (imm : BitVec 16) (dest : REG_64)
  | OR64_REG (source dest : REG_64)
  | SAR32_CL (dest : REG_64)
  | SAR32_REG_IMM (shift : BitVec 8) (dest : REG_64)
  | SAR64_CL (dest : REG_64)
  | SAR64_REG_IMM (shift : BitVec 8) (dest : REG_64)
  | SETCC_REG (cc : ConditionCode) (dest : REG_64)
  | SHL8_REG_1 (dest : REG_64)
  | SHL32_CL (dest : REG_64)
  | SHL32_REG_IMM (shift : BitVec 8) (dest : REG_64)
  | SHL64_CL (dest : REG_64)
  | SHL64_REG_IMM (shift : BitVec 8) (dest : REG_64)
  | SHR32_CL (dest : REG_64)
  | SHR32_REG_IMM (shift : BitVec 8) (dest : REG_64)
  | SHR64_CL (dest : REG_64)
  | SHR64_REG_IMM (shift : BitVec 8) (dest : REG_64)
  | SUB32_REG (source dest : REG_64)
  | SUB64_REG (source dest : REG_64)
  | TEST32_REG (op2 op1 : REG_64)
  | TEST64_REG (op2 op1 : REG_64)
  | XOR16_REG_IMM (imm : BitVec 16) (dest : REG_64)
  | XOR32_REG (source dest : REG_64)
  | XOR64_REG (source dest : REG_64)
  | load_addr (addr : BitVec 64) (dest : REG_64)
  deriving DecidableEq, Repr

/-- EAX and EDX take the halves of a product, or a quotient and a remainder. -/
def Machine.setPair (m : Machine) (eax edx : BitVec 32) : Machine :=
  ((m.set32 .RAX eax).set32 .RDX edx).clobber

def multiply (m : Machine) (p : BitVec 64) : Machine :=
  m.setPair (p.extractLsb' 0 32) (p.extractLsb' 32 32)

def Machine.dividend (m : Machine) : BitVec 64 := m.low 32 .RDX ++ m.low 32 .RAX

/-- An exception of the host if there is no quotient of 32 bits. -/
def divide (m : Machine) (divisor : BitVec 32) : Option Machine :=
  let d := divisor.setWidth 64
  let q := m.dividend / d
  if d = 0 ∨ (q.setWidth 32).setWidth 64 ≠ q then none
  else some (m.setPair (q.setWidth 32) ((m.dividend % d).setWidth 32))

def divideSigned (m : Machine) (divisor : BitVec 32) : Option Machine :=
  let d := divisor.signExtend 64
  let q := m.dividend.sdiv d
  if d = 0 ∨ (q.setWidth 32).signExtend 64 ≠ q then none
  else some (m.setPair (q.setWidth 32) ((m.dividend.srem d).setWidth 32))

/-- What an instruction does that is not a jump; `none` if it reads flags that are undefined. -/
def step (m : Machine) : Instr → Option Machine
  | .AND8_REG_IMM imm dest => some (m.setLow 8 dest (m.low 8 dest &&& imm)).clobber
  | .AND16_REG_IMM imm dest => some (m.setLow 16 dest (m.low 16 dest &&& imm)).clobber
  | .AND64_REG source dest => some (m.set dest (m.regs dest &&& m.regs source)).clobber
  | .CDQ => some (m.set32 .RDX ((m.low 32 .RAX).sshiftRight 31))
  | .CMOVCC64_REG cc source dest =>
    m.flags.map fun f => if cc.holds f then m.set dest (m.regs source) else m
  | .CMP32_IMM imm op => some (m.withFlags (compare (m.low 32 op) imm))
  | .CMP64_IMM imm op => some (m.withFlags (compare (m.regs op) (imm.signExtend 64)))
  | .CMP64_REG op2 op1 => some (m.withFlags (compare (m.regs op1) (m.regs op2)))
  | .DEC8 dest => some (m.setLow 8 dest (m.low 8 dest - 1)).clobber
  | .DIV32 divisor => divide m (m.low 32 divisor)
  | .IDIV32 divisor => divideSigned m (m.low 32 divisor)
  | .IMUL32 source =>
    some (multiply m ((m.low 32 .RAX).signExtend 64 * (m.low 32 source).signExtend 64))
  | .JCC_NEAR_DEFERRED _ _ => some m
  | .JMP_NEAR_DEFERRED _ => some m
  | .LEA32_M source dest offset => some (m.set32 dest (m.low 32 source + offset))
  | .LEA32_REG source source2 dest => some (m.set32 dest (m.low 32 source + m.low 32 source2))
  | .LEA64_M source dest offset => some (m.set dest (m.regs source + offset.signExtend 64))
  | .LEA64_REG source source2 dest => some (m.set dest (m.regs source + m.regs source2))
  | .MOV8_REG source dest => some (m.setLow 8 dest (m.low 8 source))
  | .MOV32_REG source dest => some (m.set32 dest (m.low 32 source))
  | .MOV64_FROM_MEM indir dest offset =>
    some (m.set dest (BitVec.ofNat 64 (load 8 m.mem (m.address indir offset))))
  | .MOV64_MR source dest => some (m.set dest (m.regs source))
  | .MOV64_OI imm dest => some (m.set dest imm)
  | .MOV64_TO_MEM source indir offset =>
    some { m with mem := store 8 m.mem (m.address indir offset) (m.regs source).toNat }
  | .MOVSX8_TO_64 source dest => some (m.set dest ((m.low 8 source).signExtend 64))
  | .MOVSX32_TO_64 source dest => some (m.set dest ((m.low 32 source).signExtend 64))
  | .MOVZX8_TO_64 source dest => some (m.set dest ((m.low 8 source).setWidth 64))
  | .MOVZX16_TO_64 source dest => some (m.set dest ((m.low 16 source).setWidth 64))
  | .MUL32 source =>
    some (multiply m ((m.low 32 .RAX).setWidth 64 * (m.low 32 source).setWidth 64))
  | .NEG32 dest => some (m.set32 dest (-m.low 32 dest)).clobber
  | .NEG64 dest => some (m.set dest (-m.regs dest)).clobber
  | .NOT64 dest => some (m.set dest (~~~m.regs dest))
  | .OR16_REG_IMM imm dest => some (m.setLow 16 dest (m.low 16 dest ||| imm)).clobber
  | .OR64_REG source dest => some (m.set dest (m.regs dest ||| m.regs source)).clobber
  | .SAR32_CL dest =>
    some (m.set32 dest ((m.low 32 dest).sshiftRight ((m.low 8 .RCX).toNat % 32))).clobber
  | .SAR32_REG_IMM shift dest =>
    some (m.set32 dest ((m.low 32 dest).sshiftRight (shift.toNat % 32))).clobber
  | .SAR64_CL dest =>
    some (m.set dest ((m.regs dest).sshiftRight ((m.low 8 .RCX).toNat % 64))).clobber
  | .SAR64_REG_IMM shift dest =>
    some (m.set dest ((m.regs dest).sshiftRight (shift.toNat % 64))).clobber
  | .SETCC_REG cc dest =>
    m.flags.map fun f => m.setLow 8 dest ((BitVec.ofBool (cc.holds f)).setWidth 8)
  | .SHL8_REG_1 dest => some (m.setLow 8 dest (m.low 8 dest <<< 1)).clobber
  | .SHL32_CL dest => some (m.set32 dest (m.low 32 dest <<< ((m.low 8 .RCX).toNat % 32))).clobber
  | .SHL32_REG_IMM shift dest => some (m.set32 dest (m.low 32 dest <<< (shift.toNat % 32))).clobber
  | .SHL64_CL dest => some (m.set dest (m.regs dest <<< ((m.low 8 .RCX).toNat % 64))).clobber
  | .SHL64_REG_IMM shift dest => some (m.set dest (m.regs dest <<< (shift.toNat % 64))).clobber
  | .SHR32_CL dest => some (m.set32 dest (m.low 32 dest >>> ((m.low 8 .RCX).toNat % 32))).clobber
  | .SHR32_REG_IMM shift dest => some (m.set32 dest (m.low 32 dest >>> (shift.toNat % 32))).clobber
  | .SHR64_CL dest => some (m.set dest (m.regs dest >>> ((m.low 8 .RCX).toNat % 64))).clobber
  | .SHR64_REG_IMM shift dest => some (m.set dest (m.regs dest >>> (shift.toNat % 64))).clobber
  | .SUB32_REG source dest => some (m.set32 dest (m.low 32 dest - m.low 32 source)).clobber
  | .SUB64_REG source dest => some (m.set dest (m.regs dest - m.regs source)).clobber
  | .TEST32_REG op2 op1 => some (m.withFlags (test (m.low 32 op1 &&& m.low 32 op2)))
  | .TEST64_REG op2 op1 => some (m.withFlags (test (m.regs op1 &&& m.regs op2)))
  | .XOR16_REG_IMM imm dest => some (m.setLow 16 dest (m.low 16 dest ^^^ imm)).clobber
  | .XOR32_REG source dest => some (m.set32 dest (m.low 32 dest ^^^ m.low 32 source)).clobber
  | .XOR64_REG source dest => some (m.set dest (m.regs dest ^^^ m.regs source)).clobber
  | .load_addr addr dest => some (m.set dest addr)

/-- The instructions that a jump goes over. -/
def jumped (m : Machine) : Instr → Option ℕ
  | .JCC_NEAR_DEFERRED cc n => m.flags.map fun f => if cc.holds f then n else 0
  | .JMP_NEAR_DEFERRED n => some n
  | _ => some 0

def exec (i : Instr) (m : Machine) : Option (Machine × ℕ) :=
  (step m i).bind fun m' => (jumped m i).map fun n => (m', n)

end DobieStation.EeJit.Host
