import Mathlib.Data.BitVec
import Mathlib.Logic.Function.Basic
import Mathlib.Tactic.Common

/-! # The arithmetic of the IOP

The shifts, the multiplications and divisions and the arithmetic and logical instructions of
`IOP_Interpreter`, against the definition of the R3000A, which is stated in integers. No instruction of
the interpreter raises an overflow exception. -/

namespace DobieStation.Iop.Arithmetic

abbrev Word := BitVec 32

/-- The registers of the IOP. Every write of a general register goes through `setGpr`. -/
structure IOP where
  gpr : BitVec 5 → Word
  gprZero : gpr 0 = 0
  LO : Word
  HI : Word
  muldivDelay : ℤ
  cyclesToRun : ℤ

def setGpr (index : BitVec 5) (value : Word) (cpu : IOP) : IOP :=
  if h : index = 0 then cpu
  else { cpu with
    gpr := Function.update cpu.gpr index value
    gprZero := by rw [Function.update_of_ne (Ne.symm h), cpu.gprZero] }

def setLO (value : Word) (cpu : IOP) : IOP := { cpu with LO := value }

def setHI (value : Word) (cpu : IOP) : IOP := { cpu with HI := value }

/-- The wait of `get_LO` and `get_HI`. -/
def awaitMuldiv (cpu : IOP) : IOP :=
  { cpu with cyclesToRun := cpu.cyclesToRun - cpu.muldivDelay, muldivDelay := 0 }

def setMuldivDelay (delay : ℤ) (cpu : IOP) : IOP :=
  { cpu with cyclesToRun := cpu.cyclesToRun - cpu.muldivDelay, muldivDelay := delay }

/-! ### The interpreter -/

/-- The register that five bits of an instruction name. -/
def regAt (start : ℕ) (instruction : Word) : BitVec 5 := (instruction >>> start).setWidth 5

def rs (instruction : Word) : BitVec 5 := regAt 21 instruction
def rt (instruction : Word) : BitVec 5 := regAt 16 instruction
def rd (instruction : Word) : BitVec 5 := regAt 11 instruction
def shamt (instruction : Word) : BitVec 5 := regAt 6 instruction
def imm (instruction : Word) : BitVec 16 := instruction.setWidth 16

def shift (f : Word → ℕ → Word) (cpu : IOP) (instruction : Word) : IOP :=
  setGpr (rd instruction) (f (cpu.gpr (rt instruction)) (shamt instruction).toNat) cpu

def sll := shift fun source n => source <<< n
def srl := shift fun source n => source >>> n
def sra := shift fun source n => source.sshiftRight n

/-- The amount of the variable shifts is the lowest five bits of a register. -/
def shiftVariable (f : Word → ℕ → Word) (cpu : IOP) (instruction : Word) : IOP :=
  setGpr (rd instruction)
    (f (cpu.gpr (rt instruction)) (cpu.gpr (rs instruction) &&& 0x1F).toNat) cpu

def sllv := shiftVariable fun source n => source <<< n
def srlv := shiftVariable fun source n => source >>> n
def srav := shiftVariable fun source n => source.sshiftRight n

def mfhi (cpu : IOP) (instruction : Word) : IOP :=
  setGpr (rd instruction) cpu.HI (awaitMuldiv cpu)

def mthi (cpu : IOP) (instruction : Word) : IOP := setHI (cpu.gpr (rs instruction)) cpu

def mflo (cpu : IOP) (instruction : Word) : IOP :=
  setGpr (rd instruction) cpu.LO (awaitMuldiv cpu)

def mtlo (cpu : IOP) (instruction : Word) : IOP := setLO (cpu.gpr (rs instruction)) cpu

/-- The delay of `mult` is chosen among 64-bit integers, so that no negative factor has a short
one. -/
def multDelay (op1 : ℤ) : ℤ :=
  if 0 ≤ op1 then
    if op1 < 0x800 then 6 else if op1 < 0x100000 then 9 else 13
  else if 0xFFFFF800 ≤ op1 then 6 else if 0xFF000000 < op1 then 9 else 13

def mult (cpu : IOP) (instruction : Word) : IOP :=
  let op1 := (cpu.gpr (rs instruction)).signExtend 64
  let op2 := (cpu.gpr (rt instruction)).signExtend 64
  let temp := op1 * op2
  setMuldivDelay (multDelay op1.toInt)
    (setHI ((temp.sshiftRight 32).setWidth 32) (setLO ((temp &&& 0xFFFFFFFF).setWidth 32) cpu))

def multuDelay (op1 : ℕ) : ℤ := if op1 < 0x800 then 6 else if op1 < 0x100000 then 9 else 13

def multu (cpu : IOP) (instruction : Word) : IOP :=
  let op1 := (cpu.gpr (rs instruction)).setWidth 64
  let op2 := (cpu.gpr (rt instruction)).setWidth 64
  let temp := op1 * op2
  setHI ((temp >>> 32).setWidth 32)
    (setLO ((temp &&& 0xFFFFFFFF).setWidth 32) (setMuldivDelay (multuDelay op1.toNat) cpu))

/-- The sign of a dividend is told by `op1 > 0x80000000`, a comparison of unsigned numbers. -/
def div (cpu : IOP) (instruction : Word) : IOP :=
  let op1 := cpu.gpr (rs instruction)
  let op2 := cpu.gpr (rt instruction)
  setMuldivDelay 36
    (if op2 = 0 then setLO (if 0x80000000 < op1.toNat then 1 else 0xFFFFFFFF) (setHI op1 cpu)
    else if op1 = 0x80000000 ∧ op2 = 0xFFFFFFFF then setHI 0 (setLO 0x80000000 cpu)
    else setHI (op1.srem op2) (setLO (op1.sdiv op2) cpu))

def divu (cpu : IOP) (instruction : Word) : IOP :=
  let op1 := cpu.gpr (rs instruction)
  let op2 := cpu.gpr (rt instruction)
  setMuldivDelay 36
    (if op2 = 0 then setHI op1 (setLO 0xFFFFFFFF cpu)
    else setHI (op1 % op2) (setLO (op1 / op2) cpu))

def register (f : Word → Word → Word) (cpu : IOP) (instruction : Word) : IOP :=
  setGpr (rd instruction) (f (cpu.gpr (rs instruction)) (cpu.gpr (rt instruction))) cpu

def add := register fun op1 op2 => op1 + op2
def addu := register fun op1 op2 => op1 + op2
def sub := register fun op1 op2 => op1 - op2
def subu := register fun op1 op2 => op1 - op2
def andCpu := register fun op1 op2 => op1 &&& op2
def orCpu := register fun op1 op2 => op1 ||| op2
def xorCpu := register fun op1 op2 => op1 ^^^ op2
def nor := register fun op1 op2 => ~~~(op1 ||| op2)
def slt := register fun op1 op2 => if op1.slt op2 then 1 else 0
def sltu := register fun op1 op2 => if op1.ult op2 then 1 else 0

def immediate (f : Word → Word → Word) (extend : BitVec 16 → Word) (cpu : IOP)
    (instruction : Word) : IOP :=
  setGpr (rt instruction) (f (cpu.gpr (rs instruction)) (extend (imm instruction))) cpu

def addi := immediate (fun source imm => source + imm) (BitVec.signExtend 32)
def addiu := immediate (fun source imm => source + imm) (BitVec.signExtend 32)
def slti := immediate (fun source imm => if source.slt imm then 1 else 0) (BitVec.signExtend 32)
def sltiu := immediate (fun source imm => if source.ult imm then 1 else 0) (BitVec.signExtend 32)
def andi := immediate (fun source imm => source &&& imm) (BitVec.setWidth 32)
def ori := immediate (fun source imm => source ||| imm) (BitVec.setWidth 32)
def xori := immediate (fun source imm => source ^^^ imm) (BitVec.setWidth 32)

def lui (cpu : IOP) (instruction : Word) : IOP :=
  setGpr (rt instruction) ((imm instruction).setWidth 32 <<< 16) cpu

/-- `IOP_Interpreter::special`, without the jumps and `syscall`. -/
def special (cpu : IOP) (instruction : Word) : Option IOP :=
  match (instruction &&& 0x3F).toNat with
  | 0x00 => some (sll cpu instruction)
  | 0x02 => some (srl cpu instruction)
  | 0x03 => some (sra cpu instruction)
  | 0x04 => some (sllv cpu instruction)
  | 0x06 => some (srlv cpu instruction)
  | 0x07 => some (srav cpu instruction)
  | 0x10 => some (mfhi cpu instruction)
  | 0x11 => some (mthi cpu instruction)
  | 0x12 => some (mflo cpu instruction)
  | 0x13 => some (mtlo cpu instruction)
  | 0x18 => some (mult cpu instruction)
  | 0x19 => some (multu cpu instruction)
  | 0x1A => some (div cpu instruction)
  | 0x1B => some (divu cpu instruction)
  | 0x20 => some (add cpu instruction)
  | 0x21 => some (addu cpu instruction)
  | 0x22 => some (sub cpu instruction)
  | 0x23 => some (subu cpu instruction)
  | 0x24 => some (andCpu cpu instruction)
  | 0x25 => some (orCpu cpu instruction)
  | 0x26 => some (xorCpu cpu instruction)
  | 0x27 => some (nor cpu instruction)
  | 0x2A => some (slt cpu instruction)
  | 0x2B => some (sltu cpu instruction)
  | _ => none

/-- `IOP_Interpreter::interpret`, without the branches, the loads and stores and the coprocessors. -/
def interpret (cpu : IOP) (instruction : Word) : Option IOP :=
  match (instruction >>> 26).toNat with
  | 0x00 => special cpu instruction
  | 0x08 => some (addi cpu instruction)
  | 0x09 => some (addiu cpu instruction)
  | 0x0A => some (slti cpu instruction)
  | 0x0B => some (sltiu cpu instruction)
  | 0x0C => some (andi cpu instruction)
  | 0x0D => some (ori cpu instruction)
  | 0x0E => some (xori cpu instruction)
  | 0x0F => some (lui cpu instruction)
  | _ => none

/-! ### The definition of the R3000A -/

/-- The instructions of the opcode SPECIAL. -/
inductive Special where
  | SLL | SRL | SRA | SLLV | SRLV | SRAV
  | MFHI | MTHI | MFLO | MTLO
  | MULT | MULTU | DIV | DIVU
  | ADD | ADDU | SUB | SUBU | AND | OR | XOR | NOR | SLT | SLTU
  deriving DecidableEq, Repr

def Special.code : Special → BitVec 6
  | SLL => 0b000000 | SRL => 0b000010 | SRA => 0b000011
  | SLLV => 0b000100 | SRLV => 0b000110 | SRAV => 0b000111
  | MFHI => 0b010000 | MTHI => 0b010001 | MFLO => 0b010010 | MTLO => 0b010011
  | MULT => 0b011000 | MULTU => 0b011001 | DIV => 0b011010 | DIVU => 0b011011
  | ADD => 0b100000 | ADDU => 0b100001 | SUB => 0b100010 | SUBU => 0b100011
  | AND => 0b100100 | OR => 0b100101 | XOR => 0b100110 | NOR => 0b100111
  | SLT => 0b101010 | SLTU => 0b101011

inductive Immediate where
  | ADDI | ADDIU | SLTI | SLTIU | ANDI | ORI | XORI | LUI
  deriving DecidableEq, Repr

def Immediate.code : Immediate → BitVec 6
  | ADDI => 0b001000 | ADDIU => 0b001001 | SLTI => 0b001010 | SLTIU => 0b001011
  | ANDI => 0b001100 | ORI => 0b001101 | XORI => 0b001110 | LUI => 0b001111

inductive Instruction where
  | special (op : Special) (rs rt rd shamt : BitVec 5)
  | immediate (op : Immediate) (rs rt : BitVec 5) (imm : BitVec 16)
  deriving DecidableEq, Repr

def Instruction.encode : Instruction → Word
  | special op rs rt rd shamt => 0#6 ++ rs ++ rt ++ rd ++ shamt ++ op.code
  | immediate op rs rt imm => op.code ++ rs ++ rt ++ imm

structure Registers where
  reg : BitVec 5 → Word
  lo : Word
  hi : Word

def IOP.registers (cpu : IOP) : Registers := ⟨cpu.gpr, cpu.LO, cpu.HI⟩

/-- What an instruction does to the registers. -/
inductive Effect where
  | result (d : BitVec 5) (value : ℤ)
  | accumulate (lo hi : ℤ)
  | low (value : ℤ)
  | high (value : ℤ)
  | overflow

/-- A register holds the lowest 32 bits of a value, and the register 0 is not written. An overflow
exception leaves all of them as they are. -/
def Effect.apply (r : Registers) : Effect → Registers
  | result d value =>
    { r with reg := fun k => if k = d ∧ d ≠ 0 then BitVec.ofInt 32 value else r.reg k }
  | accumulate lo hi => { r with lo := BitVec.ofInt 32 lo, hi := BitVec.ofInt 32 hi }
  | low value => { r with lo := BitVec.ofInt 32 value }
  | high value => { r with hi := BitVec.ofInt 32 value }
  | overflow => r

/-- The result of an addition or a subtraction that traps. -/
def trapping (d : BitVec 5) (value : ℤ) : Effect :=
  if -2 ^ 31 ≤ value ∧ value < 2 ^ 31 then .result d value else .overflow

def truth (p : Prop) [Decidable p] : ℤ := if p then 1 else 0

/-- A product of 64 bits, the upper half in HI. -/
def product (p : ℤ) : Effect := .accumulate (p % 2 ^ 32) (p / 2 ^ 32)

/-- The quotient is rounded towards zero and the remainder has the sign of the dividend. -/
def quotient (a b : ℤ) : Effect :=
  if b = 0 then .accumulate (if 0 ≤ a then -1 else 1) a else .accumulate (a.tdiv b) (a.tmod b)

def quotientUnsigned (a b : ℕ) : Effect :=
  if b = 0 then .accumulate (-1) a else .accumulate (a / b : ℕ) (a % b : ℕ)

/-- The effect of an instruction on the values of its registers. -/
def Special.effect (s t : Word) (d shamt : BitVec 5) (r : Registers) : Special → Effect
  | SLL => .result d (t.toNat * 2 ^ shamt.toNat : ℕ)
  | SRL => .result d (t.toNat / 2 ^ shamt.toNat : ℕ)
  | SRA => .result d (t.toInt / 2 ^ shamt.toNat)
  | SLLV => .result d (t.toNat * 2 ^ (s.toNat % 32) : ℕ)
  | SRLV => .result d (t.toNat / 2 ^ (s.toNat % 32) : ℕ)
  | SRAV => .result d (t.toInt / 2 ^ (s.toNat % 32))
  | MFHI => .result d r.hi.toInt
  | MTHI => .high s.toInt
  | MFLO => .result d r.lo.toInt
  | MTLO => .low s.toInt
  | MULT => product (s.toInt * t.toInt)
  | MULTU => product (s.toNat * t.toNat : ℕ)
  | DIV => quotient s.toInt t.toInt
  | DIVU => quotientUnsigned s.toNat t.toNat
  | ADD => trapping d (s.toInt + t.toInt)
  | ADDU => .result d (s.toInt + t.toInt)
  | SUB => trapping d (s.toInt - t.toInt)
  | SUBU => .result d (s.toInt - t.toInt)
  | AND => .result d (s &&& t).toInt
  | OR => .result d (s ||| t).toInt
  | XOR => .result d (s ^^^ t).toInt
  | NOR => .result d (~~~(s ||| t)).toInt
  | SLT => .result d (truth (s.toInt < t.toInt))
  | SLTU => .result d (truth (s.toNat < t.toNat))

/-- The immediates of the logical instructions are unsigned, the others signed, also that of
SLTIU, which is compared as an unsigned number after its extension. -/
def Immediate.effect (s : Word) (d : BitVec 5) (imm : BitVec 16) : Immediate → Effect
  | ADDI => trapping d (s.toInt + imm.toInt)
  | ADDIU => .result d (s.toInt + imm.toInt)
  | SLTI => .result d (truth (s.toInt < imm.toInt))
  | SLTIU => .result d (truth ((s.toNat : ℤ) < imm.toInt % 2 ^ 32))
  | ANDI => .result d (s.toNat &&& imm.toNat : ℕ)
  | ORI => .result d (s.toNat ||| imm.toNat : ℕ)
  | XORI => .result d (s.toNat ^^^ imm.toNat : ℕ)
  | LUI => .result d (imm.toNat * 2 ^ 16 : ℕ)

def Instruction.effect (r : Registers) : Instruction → Effect
  | special op rs rt rd shamt => op.effect (r.reg rs) (r.reg rt) rd shamt r
  | immediate op rs rt imm => op.effect (r.reg rs) rt imm

/-- The registers after an instruction of the R3000A. -/
def Instruction.after (r : Registers) (i : Instruction) : Registers := (i.effect r).apply r

/-! ### The fields of an instruction -/

theorem toNat_append_eq {m n : ℕ} (x : BitVec m) (y : BitVec n) :
    (x ++ y).toNat = x.toNat * 2 ^ n + y.toNat := by
  rw [BitVec.toNat_append, ← Nat.shiftLeft_add_eq_or_of_lt y.isLt, Nat.shiftLeft_eq]

theorem toNat_regAt (start : ℕ) (i : Word) :
    (regAt start i).toNat = i.toNat / 2 ^ start % 2 ^ 5 := by
  rw [regAt, BitVec.toNat_setWidth, BitVec.toNat_ushiftRight, Nat.shiftRight_eq_div_pow]

theorem special_fields (op : Special) (s t d a : BitVec 5) :
    let i := (Instruction.special op s t d a).encode
    (i >>> 26).toNat = 0 ∧ (i &&& 0x3F).toNat = op.code.toNat ∧
      rs i = s ∧ rt i = t ∧ rd i = d ∧ shamt i = a := by
  have hs := s.isLt
  have ht := t.isLt
  have hd := d.isLt
  have ha := a.isLt
  have hop := op.code.isLt
  intro i
  have hi : i.toNat = ((((s.toNat * 2 ^ 5 + t.toNat) * 2 ^ 5 + d.toNat) * 2 ^ 5 + a.toNat) *
      2 ^ 6 + op.code.toNat) := by
    simp only [i, Instruction.encode, toNat_append_eq, BitVec.toNat_ofNat]
    omega
  refine ⟨?_, ?_, ?_, ?_, ?_, ?_⟩
  · rw [BitVec.toNat_ushiftRight, Nat.shiftRight_eq_div_pow]
    omega
  · rw [BitVec.toNat_and, show (0x3F : Word).toNat = 2 ^ 6 - 1 from rfl, Nat.and_two_pow_sub_one_eq_mod]
    omega
  all_goals
    apply BitVec.eq_of_toNat_eq
    simp only [rs, rt, rd, shamt, toNat_regAt]
    omega

theorem immediate_fields (op : Immediate) (s t : BitVec 5) (v : BitVec 16) :
    let i := (Instruction.immediate op s t v).encode
    (i >>> 26).toNat = op.code.toNat ∧ rs i = s ∧ rt i = t ∧ imm i = v := by
  have hs := s.isLt
  have ht := t.isLt
  have hv := v.isLt
  have hop := op.code.isLt
  intro i
  have hi : i.toNat = ((op.code.toNat * 2 ^ 5 + s.toNat) * 2 ^ 5 + t.toNat) * 2 ^ 16 + v.toNat := by
    simp only [i, Instruction.encode, toNat_append_eq]
  refine ⟨?_, ?_, ?_, ?_⟩
  · rw [BitVec.toNat_ushiftRight, Nat.shiftRight_eq_div_pow]
    omega
  · apply BitVec.eq_of_toNat_eq
    rw [rs, toNat_regAt]
    omega
  · apply BitVec.eq_of_toNat_eq
    rw [rt, toNat_regAt]
    omega
  · apply BitVec.eq_of_toNat_eq
    rw [imm, BitVec.toNat_setWidth]
    omega

/-! ### Words and integers -/

theorem toNat_of_toInt {w : ℕ} {x : BitVec w} {z : ℤ} (h : x.toInt = z) :
    (x.toNat : ℤ) = z % 2 ^ w := by
  have hx := BitVec.toNat_ofInt (n := w) z
  rw [← h, BitVec.ofInt_toInt] at hx
  have hpos : ((2 ^ w : ℕ) : ℤ) ≠ 0 := by exact_mod_cast (Nat.two_pow_pos w).ne'
  rw [hx, Int.toNat_of_nonneg (Int.emod_nonneg _ hpos), ← h]
  push_cast
  rfl

theorem eq_ofInt {x : Word} {z : ℤ} (h : (x.toNat : ℤ) = z % 2 ^ 32) : x = BitVec.ofInt 32 z := by
  apply BitVec.eq_of_toNat_eq
  rw [BitVec.toNat_ofInt]
  omega

theorem shiftLeft_eq (x : Word) (n : ℕ) : x <<< n = BitVec.ofInt 32 ((x.toNat * 2 ^ n : ℕ) : ℤ) := by
  rw [BitVec.ofInt_natCast]
  apply BitVec.eq_of_toNat_eq
  rw [BitVec.toNat_shiftLeft, BitVec.toNat_ofNat, Nat.shiftLeft_eq]

theorem shiftRight_eq (x : Word) (n : ℕ) : x >>> n = BitVec.ofInt 32 ((x.toNat / 2 ^ n : ℕ) : ℤ) := by
  rw [BitVec.ofInt_natCast]
  apply BitVec.eq_of_toNat_eq
  rw [BitVec.toNat_ushiftRight, BitVec.toNat_ofNat, Nat.shiftRight_eq_div_pow,
    Nat.mod_eq_of_lt (lt_of_le_of_lt (Nat.div_le_self _ _) x.isLt)]

theorem sshiftRight_eq (x : Word) (n : ℕ) : x.sshiftRight n = BitVec.ofInt 32 (x.toInt / 2 ^ n) := by
  have h : (x.sshiftRight n).toInt = x.toInt / 2 ^ n := by
    rw [BitVec.toInt_sshiftRight, Int.shiftRight_eq_div_pow]
    push_cast
    rfl
  rw [← h, BitVec.ofInt_toInt]

theorem add_eq (x y : Word) : x + y = BitVec.ofInt 32 (x.toInt + y.toInt) := by
  rw [BitVec.ofInt_add, BitVec.ofInt_toInt, BitVec.ofInt_toInt]

theorem sub_eq (x y : Word) : x - y = BitVec.ofInt 32 (x.toInt - y.toInt) := by
  rw [sub_eq_add_neg (a := x.toInt), BitVec.ofInt_add, BitVec.ofInt_neg, BitVec.ofInt_toInt,
    BitVec.ofInt_toInt, BitVec.sub_eq_add_neg]

theorem truth_eq (p : Prop) [Decidable p] : (if p then 1 else 0 : Word) = BitVec.ofInt 32 (truth p) := by
  unfold truth
  split <;> rfl

theorem slt_eq (x y : Word) :
    (if x.slt y then 1 else 0 : Word) = BitVec.ofInt 32 (truth (x.toInt < y.toInt)) := by
  rw [BitVec.slt_eq_decide, ← truth_eq]
  simp only [decide_eq_true_eq]

theorem ult_eq (x y : Word) :
    (if x.ult y then 1 else 0 : Word) = BitVec.ofInt 32 (truth (x.toNat < y.toNat)) := by
  rw [BitVec.ult_eq_decide, ← truth_eq]
  simp only [decide_eq_true_eq]

theorem of_toNat {x : Word} {n : ℕ} (h : x.toNat = n) : x = BitVec.ofInt 32 (n : ℤ) := by
  rw [BitVec.ofInt_natCast, ← h, BitVec.ofNat_toNat, BitVec.setWidth_eq]

theorem toInt_extend (v : BitVec 16) : (v.signExtend 32).toInt = v.toInt :=
  BitVec.toInt_signExtend_of_le (by decide)

theorem toNat_extend (v : BitVec 16) : ((v.signExtend 32).toNat : ℤ) = v.toInt % 2 ^ 32 :=
  toNat_of_toInt (toInt_extend v)

theorem low_half (p : BitVec 64) {z : ℤ} (h : p = BitVec.ofInt 64 z) :
    (p &&& 0xFFFFFFFF).setWidth 32 = BitVec.ofInt 32 (z % 2 ^ 32) := by
  apply eq_ofInt
  rw [BitVec.toNat_setWidth, BitVec.toNat_and, show (0xFFFFFFFF : BitVec 64).toNat = 2 ^ 32 - 1 from rfl,
    Nat.and_two_pow_sub_one_eq_mod, h, BitVec.toNat_ofInt]
  omega

theorem high_half_unsigned (p : BitVec 64) {n : ℕ} (h : p.toNat = n) :
    (p >>> 32).setWidth 32 = BitVec.ofInt 32 ((n : ℤ) / 2 ^ 32) := by
  apply eq_ofInt
  rw [BitVec.toNat_setWidth, BitVec.toNat_ushiftRight, Nat.shiftRight_eq_div_pow, h]
  omega

theorem high_half_signed (p : BitVec 64) {z : ℤ} (h : p.toInt = z) :
    (p.sshiftRight 32).setWidth 32 = BitVec.ofInt 32 (z / 2 ^ 32) := by
  apply eq_ofInt
  have hs : (p.sshiftRight 32).toInt = z / 2 ^ 32 := by
    rw [BitVec.toInt_sshiftRight, Int.shiftRight_eq_div_pow, h]
    rfl
  have hn := toNat_of_toInt hs
  rw [BitVec.toNat_setWidth]
  omega

/-! ### Multiplication and division -/

theorem registers_setGpr (d : BitVec 5) (cpu : IOP) {v : Word} {z : ℤ} (h : v = BitVec.ofInt 32 z) :
    (setGpr d v cpu).registers = (Effect.result d z).apply cpu.registers := by
  unfold setGpr
  split
  · rename_i hd
    simp [IOP.registers, Effect.apply, hd]
  · rename_i hd
    simp only [IOP.registers, Effect.apply, ne_eq, hd, not_false_eq_true, and_true]
    congr 1
    funext k
    rw [Function.update_apply, h]

theorem product_signed (s t : Word) :
    (s.signExtend 64 * t.signExtend 64).toInt = s.toInt * t.toInt := by
  have hle := BitVec.toInt_mul_toInt_le (x := s) (y := t)
  have hge := BitVec.le_toInt_mul_toInt (x := s) (y := t)
  rw [BitVec.toInt_mul, BitVec.toInt_signExtend_of_le (by decide),
    BitVec.toInt_signExtend_of_le (by decide)]
  apply Int.bmod_eq_of_le <;> omega

theorem product_unsigned (s t : Word) :
    (s.setWidth 64 * t.setWidth 64).toNat = s.toNat * t.toNat := by
  have h : s.toNat * t.toNat < 2 ^ 64 :=
    lt_of_lt_of_le (Nat.mul_lt_mul'' s.isLt t.isLt) (by decide)
  rw [BitVec.toNat_mul, BitVec.toNat_setWidth_of_le (by decide),
    BitVec.toNat_setWidth_of_le (by decide), Nat.mod_eq_of_lt h]

/-- A product written to HI and LO. -/
theorem registers_product (cpu : IOP) {lo hi : Word} {p : ℤ}
    (hlo : lo = BitVec.ofInt 32 (p % 2 ^ 32)) (hhi : hi = BitVec.ofInt 32 (p / 2 ^ 32)) :
    (⟨cpu.gpr, lo, hi⟩ : Registers) = (product p).apply cpu.registers := by
  rw [hlo, hhi]
  rfl

theorem registers_mult (cpu : IOP) (i : Word) :
    (mult cpu i).registers =
      (product ((cpu.gpr (rs i)).toInt * (cpu.gpr (rt i)).toInt)).apply cpu.registers := by
  have h := product_signed (cpu.gpr (rs i)) (cpu.gpr (rt i))
  refine registers_product cpu (low_half _ ?_) (high_half_signed _ h)
  rw [← h, BitVec.ofInt_toInt]

theorem registers_multu (cpu : IOP) (i : Word) :
    (multu cpu i).registers =
      (product ((cpu.gpr (rs i)).toNat * (cpu.gpr (rt i)).toNat : ℕ)).apply cpu.registers := by
  have h := product_unsigned (cpu.gpr (rs i)) (cpu.gpr (rt i))
  refine registers_product cpu (low_half _ ?_) (high_half_unsigned _ h)
  rw [← h, BitVec.ofInt_natCast, BitVec.ofNat_toNat, BitVec.setWidth_eq]

theorem quotient_eq (s t : Word) (h : ¬ (s = 0x80000000 ∧ t = 0xFFFFFFFF)) :
    s.sdiv t = BitVec.ofInt 32 (s.toInt.tdiv t.toInt) := by
  have hne : s ≠ BitVec.intMin 32 ∨ t ≠ -1#32 := by
    by_contra hc
    simp only [not_or, not_not] at hc
    exact h hc
  rw [← BitVec.toInt_sdiv_of_ne_or_ne s t hne, BitVec.ofInt_toInt]

theorem remainder_eq (s t : Word) : s.srem t = BitVec.ofInt 32 (s.toInt.tmod t.toInt) := by
  rw [← BitVec.toInt_srem, BitVec.ofInt_toInt]

theorem toInt_eq_zero_iff (t : Word) : t.toInt = 0 ↔ t = 0 := by
  rw [← BitVec.toInt_inj]
  rfl

/-- The dividend whose sign `div` mistakes when it divides by zero. -/
def MinimumByZero (s t : Word) : Prop := s = 0x80000000 ∧ t = 0

instance (s t : Word) : Decidable (MinimumByZero s t) :=
  inferInstanceAs (Decidable (s = 0x80000000 ∧ t = 0))

theorem sign_by_zero {s : Word} (h : s ≠ 0x80000000) :
    (if 0x80000000 < s.toNat then 1 else 0xFFFFFFFF : Word) =
      BitVec.ofInt 32 (if 0 ≤ s.toInt then -1 else 1) := by
  have hne : s.toNat ≠ 0x80000000 := fun hs => h (BitVec.eq_of_toNat_eq hs)
  have hlt := s.isLt
  have hsign : 0 ≤ s.toInt ↔ ¬ 0x80000000 < s.toNat := by
    rw [BitVec.toInt_eq_toNat_cond]
    split <;> omega
  by_cases hs : 0x80000000 < s.toNat
  · rw [if_pos hs, if_neg fun hp => hsign.mp hp hs]
    rfl
  · rw [if_neg hs, if_pos (hsign.mpr hs)]
    rfl

/-- The registers agree, but for LO where a condition holds. -/
structure AgreeBut (p : Prop) (r r' : Registers) : Prop where
  reg : r.reg = r'.reg
  hi : r.hi = r'.hi
  lo : ¬ p → r.lo = r'.lo

theorem AgreeBut.of_eq {p : Prop} {r r' : Registers} (h : r = r') : AgreeBut p r r' := by
  subst h
  exact ⟨rfl, rfl, fun _ => rfl⟩

theorem AgreeBut.eq {p : Prop} {r r' : Registers} (h : AgreeBut p r r') (hp : ¬ p) : r = r' := by
  obtain ⟨hreg, hhi, hlo⟩ := h
  cases r
  cases r'
  simp only [Registers.mk.injEq]
  exact ⟨hreg, hlo hp, hhi⟩

theorem agree_div (cpu : IOP) (i : Word) :
    AgreeBut (MinimumByZero (cpu.gpr (rs i)) (cpu.gpr (rt i))) (div cpu i).registers
      ((quotient (cpu.gpr (rs i)).toInt (cpu.gpr (rt i)).toInt).apply cpu.registers) := by
  generalize hs : cpu.gpr (rs i) = s
  generalize ht : cpu.gpr (rt i) = t
  unfold quotient
  simp only [div, hs, ht]
  by_cases h0 : t = 0
  · rw [if_pos h0, if_pos ((toInt_eq_zero_iff t).mpr h0)]
    refine ⟨rfl, (BitVec.ofInt_toInt (x := s)).symm, fun hp => ?_⟩
    exact sign_by_zero fun hmin => hp ⟨hmin, h0⟩
  · rw [if_neg h0, if_neg (mt (toInt_eq_zero_iff t).mp h0)]
    by_cases hm : s = 0x80000000 ∧ t = 0xFFFFFFFF
    · rw [if_pos hm, hm.1, hm.2]
      exact .of_eq rfl
    · rw [if_neg hm]
      refine ⟨rfl, remainder_eq s t, fun _ => quotient_eq s t hm⟩

theorem registers_divu (cpu : IOP) (i : Word) :
    (divu cpu i).registers =
      (quotientUnsigned (cpu.gpr (rs i)).toNat (cpu.gpr (rt i)).toNat).apply cpu.registers := by
  generalize hs : cpu.gpr (rs i) = s
  generalize ht : cpu.gpr (rt i) = t
  unfold quotientUnsigned
  simp only [divu, hs, ht]
  by_cases h0 : t = 0
  · rw [if_pos h0, if_pos (by rw [h0]; rfl)]
    simp [setMuldivDelay, setHI, setLO, IOP.registers, Effect.apply]
  · have hn : t.toNat ≠ 0 := fun hn => h0 (BitVec.eq_of_toNat_eq hn)
    rw [if_neg h0, if_neg hn]
    simp only [setMuldivDelay, setHI, setLO, IOP.registers, Effect.apply, BitVec.ofInt_natCast,
      ← BitVec.toNat_udiv, ← BitVec.toNat_umod, BitVec.ofNat_toNat, BitVec.setWidth_eq]

/-! ### The instructions -/

/-- The handler that `special` comes to. -/
def Special.handler : Special → IOP → Word → IOP
  | SLL => sll | SRL => srl | SRA => sra | SLLV => sllv | SRLV => srlv | SRAV => srav
  | MFHI => mfhi | MTHI => mthi | MFLO => mflo | MTLO => mtlo
  | MULT => mult | MULTU => multu | DIV => div | DIVU => divu
  | ADD => add | ADDU => addu | SUB => sub | SUBU => subu
  | AND => andCpu | OR => orCpu | XOR => xorCpu | NOR => nor | SLT => slt | SLTU => sltu

def Immediate.handler : Immediate → IOP → Word → IOP
  | ADDI => addi | ADDIU => addiu | SLTI => slti | SLTIU => sltiu
  | ANDI => andi | ORI => ori | XORI => xori | LUI => lui

def Instruction.handler : Instruction → IOP → Word → IOP
  | special op _ _ _ _ => op.handler
  | immediate op _ _ _ => op.handler

theorem interpret_encode (cpu : IOP) (i : Instruction) :
    interpret cpu i.encode = some (i.handler cpu i.encode) := by
  cases i with
  | special op s t d a =>
    obtain ⟨hop, hfunct, -⟩ := special_fields op s t d a
    rw [interpret, hop]
    simp only [DobieStation.Iop.Arithmetic.special, hfunct]
    cases op <;> rfl
  | immediate op s t v =>
    obtain ⟨hop, -⟩ := immediate_fields op s t v
    rw [interpret, hop]
    cases op <;> rfl

/-- The additions and subtractions that trap, as those that do not. -/
def Special.untrapped : Special → Special
  | ADD => ADDU
  | SUB => SUBU
  | op => op

def Immediate.untrapped : Immediate → Immediate
  | ADDI => ADDIU
  | op => op

def Instruction.untrapped : Instruction → Instruction
  | special op rs rt rd shamt => special op.untrapped rs rt rd shamt
  | immediate op rs rt imm => immediate op.untrapped rs rt imm

theorem registers_register (f : Word → Word → Word) (cpu : IOP) (i : Word) {z : ℤ}
    (h : f (cpu.gpr (rs i)) (cpu.gpr (rt i)) = BitVec.ofInt 32 z) :
    (register f cpu i).registers = (Effect.result (rd i) z).apply cpu.registers :=
  registers_setGpr _ _ h

theorem registers_immediate (f : Word → Word → Word) (e : BitVec 16 → Word) (cpu : IOP) (i : Word)
    {z : ℤ} (h : f (cpu.gpr (rs i)) (e (imm i)) = BitVec.ofInt 32 z) :
    (immediate f e cpu i).registers = (Effect.result (rt i) z).apply cpu.registers :=
  registers_setGpr _ _ h

theorem amount_eq (s : Word) : (s &&& 0x1F).toNat = s.toNat % 32 := by
  rw [BitVec.toNat_and, show (0x1F : Word).toNat = 2 ^ 5 - 1 from rfl, Nat.and_two_pow_sub_one_eq_mod]

/-- The division of the minimum by zero. -/
def Instruction.MinimumByZero (r : Registers) : Instruction → Prop
  | special .DIV rs rt _ _ => DobieStation.Iop.Arithmetic.MinimumByZero (r.reg rs) (r.reg rt)
  | _ => False

theorem agree_special (cpu : IOP) (op : Special) (i : Word) (s t d a : BitVec 5)
    (hs : rs i = s) (ht : rt i = t) (hd : rd i = d) (ha : shamt i = a) :
    AgreeBut ((Instruction.special op s t d a).MinimumByZero cpu.registers)
      (op.handler cpu i).registers
      ((op.untrapped.effect (cpu.gpr s) (cpu.gpr t) d a cpu.registers).apply cpu.registers) := by
  subst hs ht hd ha
  cases op with
  | SLL => exact .of_eq (registers_setGpr _ _ (shiftLeft_eq _ _))
  | SRL => exact .of_eq (registers_setGpr _ _ (shiftRight_eq _ _))
  | SRA => exact .of_eq (registers_setGpr _ _ (sshiftRight_eq _ _))
  | SLLV =>
    refine .of_eq (registers_setGpr _ _ ?_)
    rw [amount_eq]
    exact shiftLeft_eq _ _
  | SRLV =>
    refine .of_eq (registers_setGpr _ _ ?_)
    rw [amount_eq]
    exact shiftRight_eq _ _
  | SRAV =>
    refine .of_eq (registers_setGpr _ _ ?_)
    rw [amount_eq]
    exact sshiftRight_eq _ _
  | MFHI => exact .of_eq (registers_setGpr _ (awaitMuldiv cpu) BitVec.ofInt_toInt.symm)
  | MFLO => exact .of_eq (registers_setGpr _ (awaitMuldiv cpu) BitVec.ofInt_toInt.symm)
  | MTHI => exact ⟨rfl, BitVec.ofInt_toInt.symm, fun _ => rfl⟩
  | MTLO => exact ⟨rfl, rfl, fun _ => BitVec.ofInt_toInt.symm⟩
  | MULT => exact .of_eq (registers_mult cpu i)
  | MULTU => exact .of_eq (registers_multu cpu i)
  | DIV => exact agree_div cpu i
  | DIVU => exact .of_eq (registers_divu cpu i)
  | ADD | ADDU => exact .of_eq (registers_register _ _ _ (add_eq _ _))
  | SUB | SUBU => exact .of_eq (registers_register _ _ _ (sub_eq _ _))
  | AND | OR | XOR | NOR => exact .of_eq (registers_register _ _ _ BitVec.ofInt_toInt.symm)
  | SLT => exact .of_eq (registers_register _ _ _ (slt_eq _ _))
  | SLTU => exact .of_eq (registers_register _ _ _ (ult_eq _ _))

theorem registers_immediates (cpu : IOP) (op : Immediate) (i : Word) :
    (op.handler cpu i).registers =
      (op.untrapped.effect (cpu.gpr (rs i)) (rt i) (imm i)).apply cpu.registers := by
  cases op with
  | ADDI | ADDIU =>
    refine registers_immediate _ _ _ _ ?_
    rw [← toInt_extend]
    exact add_eq _ _
  | SLTI =>
    refine registers_immediate _ _ _ _ ?_
    rw [← toInt_extend]
    exact slt_eq _ _
  | SLTIU =>
    refine registers_immediate _ _ _ _ ?_
    simp only [← toNat_extend, Int.ofNat_lt]
    exact ult_eq _ _
  | ANDI =>
    refine registers_immediate _ _ _ _ (of_toNat ?_)
    rw [BitVec.toNat_and, BitVec.toNat_setWidth_of_le (by decide)]
  | ORI =>
    refine registers_immediate _ _ _ _ (of_toNat ?_)
    rw [BitVec.toNat_or, BitVec.toNat_setWidth_of_le (by decide)]
  | XORI =>
    refine registers_immediate _ _ _ _ (of_toNat ?_)
    rw [BitVec.toNat_xor, BitVec.toNat_setWidth_of_le (by decide)]
  | LUI =>
    refine registers_setGpr _ _ ?_
    rw [shiftLeft_eq, BitVec.toNat_setWidth_of_le (by decide)]

theorem agree_handler (cpu : IOP) (i : Instruction) :
    AgreeBut (i.MinimumByZero cpu.registers) (i.handler cpu i.encode).registers
      (i.untrapped.after cpu.registers) := by
  cases i with
  | special op s t d a =>
    obtain ⟨-, -, hs, ht, hd, ha⟩ := special_fields op s t d a
    exact agree_special cpu op _ s t d a hs ht hd ha
  | immediate op s t v =>
    obtain ⟨-, hs, ht, hv⟩ := immediate_fields op s t v
    have h := registers_immediates cpu op (Instruction.immediate op s t v).encode
    rw [hs, ht, hv] at h
    exact .of_eq h

/-- Every instruction leaves the registers as the R3000A does, an addition or a subtraction that
would trap as one that does not. -/
theorem interpret_untrapped (cpu : IOP) (i : Instruction) :
    ∃ cpu', interpret cpu i.encode = some cpu' ∧ cpu'.gpr 0 = 0 ∧
      AgreeBut (i.MinimumByZero cpu.registers) cpu'.registers (i.untrapped.after cpu.registers) :=
  ⟨_, interpret_encode cpu i, IOP.gprZero _, agree_handler cpu i⟩

/-- What the R3000A does, the interpreter does. -/
def AsDefined (cpu : IOP) (i : Instruction) : Prop :=
  ∃ cpu', interpret cpu i.encode = some cpu' ∧ cpu'.gpr 0 = 0 ∧
    cpu'.registers = i.after cpu.registers

/-- An instruction that raises an overflow exception. -/
def Instruction.Traps (r : Registers) (i : Instruction) : Prop := i.effect r = .overflow

theorem effect_untrapped {r : Registers} {i : Instruction} (h : ¬ i.Traps r) :
    i.untrapped.effect r = i.effect r := by
  have htrapping : ∀ {d value}, trapping d value ≠ .overflow → .result d value = trapping d value := by
    intro d value hne
    unfold trapping at hne ⊢
    split
    · rfl
    · rename_i hout
      exact absurd (if_neg hout) hne
  cases i with
  | special op s t d a => cases op <;> first | rfl | exact htrapping h
  | immediate op s t v => cases op <;> first | rfl | exact htrapping h

theorem asDefined {cpu : IOP} {i : Instruction} (ht : ¬ i.Traps cpu.registers)
    (hm : ¬ i.MinimumByZero cpu.registers) : AsDefined cpu i := by
  obtain ⟨cpu', hrun, hzero, hagree⟩ := interpret_untrapped cpu i
  refine ⟨cpu', hrun, hzero, ?_⟩
  rw [hagree.eq hm, Instruction.after, effect_untrapped ht, Instruction.after]

/-- The largest number in the register 1 and 1 in the register 2. -/
def atMaximum : IOP where
  gpr k := if k = 1 then 0x7FFFFFFF else if k = 2 then 1 else 0
  gprZero := rfl
  LO := 0
  HI := 0
  muldivDelay := 0
  cyclesToRun := 0

/-- The sum is written, where the R3000A raises an exception and leaves the register. -/
theorem overflow_untrapped : ¬ AsDefined atMaximum (.special .ADD 1 2 3 0) := by
  rintro ⟨cpu', hrun, -, hregs⟩
  rw [interpret_encode, Option.some.injEq] at hrun
  subst hrun
  have h3 := congrArg (fun r : Registers => r.reg 3) hregs
  exact absurd h3 (by decide)

end DobieStation.Iop.Arithmetic
