import DobieStation.EeJit.RegisterCache

/-! # Integer code

What the recompiler writes for the instructions of the intermediate representation that work with integers in
registers: arithmetic, logic, shifts, comparisons, conditional moves, products and quotients. -/

namespace DobieStation.EeJit.Integer

open DobieStation.Lib.Staged DobieStation.EeJit.Host DobieStation.EeJit.RegisterCache

/-! ### The intermediate representation -/

inductive Opcode where
  | Null | AddDoublewordImm | AddDoublewordReg | AddWordImm | AddWordReg | AndImm | AndReg
  | ClearDoublewordReg | ClearWordReg | DivideUnsignedWord | DivideUnsignedWord1 | DivideWord | DivideWord1
  | DoublewordShiftLeftLogical | DoublewordShiftLeftLogicalVariable
  | DoublewordShiftRightArithmetic | DoublewordShiftRightArithmeticVariable
  | DoublewordShiftRightLogical | DoublewordShiftRightLogicalVariable
  | LoadConst | MoveConditionalOnNotZero | MoveConditionalOnZero | MoveDoublewordReg | MoveWordReg
  | MultiplyUnsignedWord | MultiplyUnsignedWord1 | MultiplyWord | MultiplyWord1
  | NegateDoublewordReg | NegateWordReg | NorReg | OrImm | OrReg
  | SetOnLessThan | SetOnLessThanImmediate | SetOnLessThanImmediateUnsigned | SetOnLessThanUnsigned
  | ShiftLeftLogical | ShiftLeftLogicalVariable | ShiftRightArithmetic | ShiftRightArithmeticVariable
  | ShiftRightLogical | ShiftRightLogicalVariable | SubDoublewordReg | SubWordReg | XorImm | XorReg
  deriving DecidableEq, Repr

/-- `source` and `source2` are the numbers of registers, or values. -/
structure Instruction where
  op : Opcode
  dest : ℤ
  source : BitVec 64
  source2 : BitVec 64
  deriving DecidableEq, Repr

namespace Instruction

variable (instr : Instruction)

/-- `alloc_reg` takes an `int`. -/
def source_reg : ℤ := (instr.source.setWidth 32).toInt

def source2_reg : ℤ := (instr.source2.setWidth 32).toInt

/-- What is left of `source2` as an operand of 32, 16 or 8 bits. -/
def imm32 : BitVec 32 := instr.source2.setWidth 32

def imm16 : BitVec 16 := instr.source2.setWidth 16

def imm8 : BitVec 8 := instr.source2.setWidth 8

end Instruction

/-! ### The shapes of the code -/

section
variable (L : Layout) (instr : Instruction)

/-- A register is written. -/
def nullary (code : REG_64 → List Instr) : Jit Unit := do
  let dest ← alloc_reg L instr.dest .GPR .WRITE none
  Emit.emits (code dest)

/-- A register is read, and one is written. -/
def unary (code : REG_64 → REG_64 → List Instr) : Jit Unit := do
  let source ← alloc_reg L instr.source_reg .GPR .READ none
  let dest ← alloc_reg L instr.dest .GPR .WRITE none
  Emit.emits (code source dest)

/-- Two registers are read, and one is written. -/
def binary (state : REG_STATE) (code : REG_64 → REG_64 → REG_64 → List Instr) : Jit Unit := do
  let source ← alloc_reg L instr.source_reg .GPR .READ none
  let source2 ← alloc_reg L instr.source2_reg .GPR .READ none
  let dest ← alloc_reg L instr.dest .GPR state none
  Emit.emits (code source source2 dest)

/-- The shift is by CL. "Alloc variable into RCX". -/
def variableShift (type : REG_TYPE) (mask : List Instr) (code : REG_64 → REG_64 → List Instr) :
    Jit Unit := do
  let rcx ← lalloc_int_reg L 0 type .SCRATCHPAD (some .RCX)
  let amount ← alloc_reg L instr.source2_reg .GPR .READ none
  Emit.emits (.MOV8_REG amount rcx :: mask)
  let source ← alloc_reg L instr.source_reg .GPR .READ none
  let dest ← alloc_reg L instr.dest .GPR .WRITE none
  Emit.emits (code source dest)
  free_int_reg L rcx

end

/-- `if (source != dest) emitter.MOV64_MR(source, dest)`. -/
def copy64 (source dest : REG_64) : List Instr := if source ≠ dest then [.MOV64_MR source dest] else []

def copy32 (source dest : REG_64) : List Instr := if source ≠ dest then [.MOV32_REG source dest] else []

/-- An operation whose operands may be exchanged. -/
def combine (op : REG_64 → REG_64 → Instr) (source source2 dest : REG_64) : List Instr :=
  if dest = source then [op source2 dest]
  else if dest = source2 then [op source dest]
  else [.MOV64_MR source dest, op source2 dest]

/-- The register takes the truth of a comparison. -/
def setOn (compare : Instr) (cc : ConditionCode) (dest : REG_64) : List Instr :=
  [compare, .SETCC_REG cc dest, .MOVZX8_TO_64 dest dest]

/-! ### The instructions -/

section
variable (L : Layout) (instr : Instruction)

def add_doubleword_imm : Jit Unit :=
  unary L instr fun source dest => [.LEA64_M source dest instr.imm32]

def add_doubleword_reg : Jit Unit :=
  binary L instr .WRITE fun source source2 dest => [.LEA64_REG source source2 dest]

def add_word_imm : Jit Unit :=
  unary L instr fun source dest => [.LEA32_M source dest instr.imm32, .MOVSX32_TO_64 dest dest]

def add_word_reg : Jit Unit :=
  binary L instr .WRITE fun source source2 dest =>
    [.LEA32_REG source source2 dest, .MOVSX32_TO_64 dest dest]

def and_imm : Jit Unit :=
  unary L instr fun source dest =>
    copy64 source dest ++ [.AND16_REG_IMM instr.imm16 dest, .MOVZX16_TO_64 dest dest]

def and_reg : Jit Unit := binary L instr .WRITE (combine .AND64_REG)

def clear_doubleword_reg : Jit Unit := nullary L instr fun dest => [.XOR64_REG dest dest]

def clear_word_reg : Jit Unit := nullary L instr fun dest => [.XOR32_REG dest dest]

def doubleword_shift_left_logical : Jit Unit :=
  unary L instr fun source dest => copy64 source dest ++ [.SHL64_REG_IMM instr.imm8 dest]

def doubleword_shift_left_logical_variable : Jit Unit :=
  variableShift L instr .GPR [] fun source dest => copy64 source dest ++ [.SHL64_CL dest]

def doubleword_shift_right_arithmetic : Jit Unit :=
  unary L instr fun source dest => copy64 source dest ++ [.SAR64_REG_IMM instr.imm8 dest]

def doubleword_shift_right_arithmetic_variable : Jit Unit :=
  variableShift L instr .GPR [] fun source dest => copy64 source dest ++ [.SAR64_CL dest]

def doubleword_shift_right_logical : Jit Unit :=
  unary L instr fun source dest => copy64 source dest ++ [.SHR64_REG_IMM instr.imm8 dest]

def doubleword_shift_right_logical_variable : Jit Unit :=
  variableShift L instr .GPR [] fun source dest => copy64 source dest ++ [.SHR64_CL dest]

def load_const : Jit Unit := nullary L instr fun dest => [.MOV64_OI instr.source dest]

def move_conditional_on_not_zero : Jit Unit :=
  binary L instr .READ_WRITE fun source source2 dest =>
    [.TEST64_REG source source, .CMOVCC64_REG .NE source2 dest]

def move_conditional_on_zero : Jit Unit :=
  binary L instr .READ_WRITE fun source source2 dest =>
    [.TEST64_REG source source, .CMOVCC64_REG .E source2 dest]

def move_doubleword_reg : Jit Unit := unary L instr fun source dest => [.MOV64_MR source dest]

def move_word_reg : Jit Unit := unary L instr fun source dest => [.MOV32_REG source dest]

def negate_doubleword_reg : Jit Unit :=
  unary L instr fun source dest => copy64 source dest ++ [.NEG64 dest]

def negate_word_reg : Jit Unit :=
  unary L instr fun source dest => copy32 source dest ++ [.NEG32 dest]

def nor_reg : Jit Unit :=
  binary L instr .WRITE fun source source2 dest =>
    combine .OR64_REG source source2 dest ++ [.NOT64 dest]

def or_imm : Jit Unit :=
  unary L instr fun source dest => copy64 source dest ++ [.OR16_REG_IMM instr.imm16 dest]

def or_reg : Jit Unit := binary L instr .WRITE (combine .OR64_REG)

def set_on_less_than : Jit Unit :=
  binary L instr .WRITE fun source source2 dest => setOn (.CMP64_REG source2 source) .L dest

def set_on_less_than_unsigned : Jit Unit :=
  binary L instr .WRITE fun source source2 dest => setOn (.CMP64_REG source2 source) .B dest

def set_on_less_than_immediate : Jit Unit :=
  unary L instr fun source dest => setOn (.CMP64_IMM instr.imm32 source) .L dest

def set_on_less_than_immediate_unsigned : Jit Unit :=
  unary L instr fun source dest => setOn (.CMP64_IMM instr.imm32 source) .B dest

def shift_left_logical : Jit Unit :=
  unary L instr fun source dest =>
    copy32 source dest ++ [.SHL32_REG_IMM instr.imm8 dest, .MOVSX32_TO_64 dest dest]

def shift_left_logical_variable : Jit Unit :=
  variableShift L instr .INTSCRATCHPAD [] fun source dest =>
    copy32 source dest ++ [.SHL32_CL dest, .MOVSX32_TO_64 dest dest]

def shift_right_arithmetic : Jit Unit :=
  unary L instr fun source dest =>
    copy32 source dest ++ [.SAR32_REG_IMM instr.imm8 dest, .MOVSX32_TO_64 dest dest]

def shift_right_arithmetic_variable : Jit Unit :=
  variableShift L instr .INTSCRATCHPAD [] fun source dest =>
    copy32 source dest ++ [.SAR32_CL dest, .MOVSX32_TO_64 dest dest]

def shift_right_logical : Jit Unit :=
  unary L instr fun source dest =>
    copy32 source dest ++ [.SHR32_REG_IMM instr.imm8 dest, .MOVSX32_TO_64 dest dest]

/-- Only here the amount is masked, though the instruction of the host does this. -/
def shift_right_logical_variable : Jit Unit :=
  variableShift L instr .INTSCRATCHPAD [.AND8_REG_IMM 0x1F .RCX] fun source dest =>
    copy32 source dest ++ [.SHR32_CL dest, .MOVSX32_TO_64 dest dest]

def sub_doubleword_reg : Jit Unit :=
  binary L instr .WRITE fun source source2 dest =>
    if dest = source then [.SUB64_REG source2 dest]
    else if dest = source2 then [.SUB64_REG source dest, .NEG64 dest]
    else [.MOV64_MR source dest, .SUB64_REG source2 dest]

def sub_word_reg : Jit Unit :=
  binary L instr .WRITE fun source source2 dest =>
    if dest = source then [.SUB32_REG source2 dest, .MOVSX32_TO_64 dest dest]
    else if dest = source2 then [.SUB32_REG source dest, .NEG32 dest, .MOVSX32_TO_64 dest dest]
    else [.MOV32_REG source dest, .SUB32_REG source2 dest, .MOVSX32_TO_64 dest dest]

def xor_imm : Jit Unit :=
  unary L instr fun source dest => copy64 source dest ++ [.XOR16_REG_IMM instr.imm16 dest]

def xor_reg : Jit Unit := binary L instr .WRITE (combine .XOR64_REG)

/-! ### Products and quotients -/

/-- "choose destination registers based on operation pipeline". -/
def lo_reg (hi : Bool) : ℤ := if hi then EE_SpecialReg.LO1 else EE_SpecialReg.LO

def hi_reg (hi : Bool) : ℤ := if hi then EE_SpecialReg.HI1 else EE_SpecialReg.HI

/-- LO is also written to a general register. -/
def write_lo (LO : REG_64) : Jit Unit :=
  if instr.dest = 0 then pure ()
  else do
    let dest ← alloc_reg L instr.dest .GPR .WRITE none
    Emit.emits [.MOV64_MR LO dest]

/-- The code of products: RAX and RDX take what `product` computes. -/
def multiply (product : REG_64 → Instr) (hi : Bool) : Jit Unit := do
  let rdx ← lalloc_int_reg L 0 .INTSCRATCHPAD .SCRATCHPAD (some .RDX)
  let source ← alloc_reg L instr.source_reg .GPR .READ none
  let source2 ← alloc_reg L instr.source2_reg .GPR .READ none
  let LO ← alloc_reg L (lo_reg hi) .GPR .WRITE none
  let HI ← alloc_reg L (hi_reg hi) .GPR .WRITE none
  Emit.emits [.MOVSX32_TO_64 source .RAX, product source2, .MOVSX32_TO_64 .RAX LO, .MOVSX32_TO_64 rdx HI]
  write_lo L instr LO
  free_int_reg L rdx

def multiply_unsigned_word (hi : Bool) : Jit Unit := multiply L instr .MUL32 hi

def multiply_word (hi : Bool) : Jit Unit := multiply L instr .IMUL32 hi

def divide_unsigned_word (hi : Bool) : Jit Unit := do
  let rdx ← lalloc_int_reg L 0 .INTSCRATCHPAD .SCRATCHPAD (some .RDX)
  let dividend ← alloc_reg L instr.source_reg .GPR .READ none
  let divisor ← alloc_reg L instr.source2_reg .GPR .READ none
  let LO ← alloc_reg L (lo_reg hi) .GPR .WRITE none
  let HI ← alloc_reg L (hi_reg hi) .GPR .WRITE none
  Emit.emits [.TEST32_REG divisor divisor, .JCC_NEAR_DEFERRED .E 6,
    .MOV32_REG dividend .RAX, .XOR32_REG rdx rdx, .DIV32 divisor,
    .MOVSX32_TO_64 .RAX LO, .MOVSX32_TO_64 rdx HI, .JMP_NEAR_DEFERRED 2]
  free_int_reg L rdx
  Emit.emits [.MOVSX32_TO_64 dividend HI, .MOV64_OI (-1) LO]

/-- "This operation is kind of a mess due to all the possible edge cases." -/
def divide_word (hi : Bool) : Jit Unit := do
  let rdx ← lalloc_int_reg L 0 .INTSCRATCHPAD .SCRATCHPAD (some .RDX)
  let dividend ← alloc_reg L instr.source_reg .GPR .READ none
  let divisor ← alloc_reg L instr.source2_reg .GPR .READ none
  let LO ← alloc_reg L (lo_reg hi) .GPR .WRITE none
  let HI ← alloc_reg L (hi_reg hi) .GPR .WRITE none
  Emit.emits [.CMP32_IMM 0x80000000 dividend, .JCC_NEAR_DEFERRED .NE 5,
    .CMP32_IMM 0xFFFFFFFF divisor, .JCC_NEAR_DEFERRED .NE 3,
    .MOV64_OI ((0x80000000 : BitVec 32).signExtend 64) LO, .MOV64_OI 0 HI, .JMP_NEAR_DEFERRED 16,
    -- label1
    .TEST32_REG divisor divisor, .JCC_NEAR_DEFERRED .E 6,
    .MOV32_REG dividend .RAX, .CDQ, .IDIV32 divisor,
    .MOVSX32_TO_64 .RAX LO, .MOVSX32_TO_64 rdx HI, .JMP_NEAR_DEFERRED 8,
    -- label2
    .TEST32_REG dividend dividend, .SETCC_REG .L .RAX, .SHL8_REG_1 .RAX, .DEC8 .RAX,
    .MOVSX8_TO_64 .RAX .RAX, .MOVSX32_TO_64 dividend dividend,
    .MOVSX8_TO_64 .RAX LO, .MOVSX32_TO_64 dividend HI]
  free_int_reg L rdx

/-! ### Blocks -/

def emit_instruction : Jit Unit :=
  match instr.op with
  | .Null => pure ()
  | .AddDoublewordImm => add_doubleword_imm L instr
  | .AddWordImm => add_word_imm L instr
  | .AddDoublewordReg => add_doubleword_reg L instr
  | .AddWordReg => add_word_reg L instr
  | .AndImm => and_imm L instr
  | .AndReg => and_reg L instr
  | .ClearDoublewordReg => clear_doubleword_reg L instr
  | .ClearWordReg => clear_word_reg L instr
  | .DivideWord => divide_word L instr false
  | .DivideWord1 => divide_word L instr true
  | .DivideUnsignedWord => divide_unsigned_word L instr false
  | .DivideUnsignedWord1 => divide_unsigned_word L instr true
  | .DoublewordShiftLeftLogical => doubleword_shift_left_logical L instr
  | .DoublewordShiftLeftLogicalVariable => doubleword_shift_left_logical_variable L instr
  | .DoublewordShiftRightArithmetic => doubleword_shift_right_arithmetic L instr
  | .DoublewordShiftRightArithmeticVariable => doubleword_shift_right_arithmetic_variable L instr
  | .DoublewordShiftRightLogical => doubleword_shift_right_logical L instr
  | .DoublewordShiftRightLogicalVariable => doubleword_shift_right_logical_variable L instr
  | .LoadConst => load_const L instr
  | .MoveConditionalOnNotZero => move_conditional_on_not_zero L instr
  | .MoveConditionalOnZero => move_conditional_on_zero L instr
  | .MoveDoublewordReg => move_doubleword_reg L instr
  | .MoveWordReg => move_word_reg L instr
  | .MultiplyUnsignedWord => multiply_unsigned_word L instr false
  | .MultiplyUnsignedWord1 => multiply_unsigned_word L instr true
  | .MultiplyWord => multiply_word L instr false
  | .MultiplyWord1 => multiply_word L instr true
  | .NegateDoublewordReg => negate_doubleword_reg L instr
  | .NegateWordReg => negate_word_reg L instr
  | .NorReg => nor_reg L instr
  | .OrImm => or_imm L instr
  | .OrReg => or_reg L instr
  | .SetOnLessThan => set_on_less_than L instr
  | .SetOnLessThanUnsigned => set_on_less_than_unsigned L instr
  | .SetOnLessThanImmediate => set_on_less_than_immediate L instr
  | .SetOnLessThanImmediateUnsigned => set_on_less_than_immediate_unsigned L instr
  | .ShiftLeftLogical => shift_left_logical L instr
  | .ShiftLeftLogicalVariable => shift_left_logical_variable L instr
  | .ShiftRightArithmetic => shift_right_arithmetic L instr
  | .ShiftRightArithmeticVariable => shift_right_arithmetic_variable L instr
  | .ShiftRightLogical => shift_right_logical L instr
  | .ShiftRightLogicalVariable => shift_right_logical_variable L instr
  | .SubDoublewordReg => sub_doubleword_reg L instr
  | .SubWordReg => sub_word_reg L instr
  | .XorImm => xor_imm L instr
  | .XorReg => xor_reg L instr

end

/-- What `recompile_block` does with a block that has no branch: the instructions in their order, and then
the registers are written back. -/
def recompile_block (L : Layout) (block : List Instruction) : Jit Unit := do
  block.forM (emit_instruction L)
  cleanup_regs L

/-! ## What integer code means

What the instructions of the intermediate representation do with the registers of the EE, and the conditions
under which the code that is written for them does the same. -/

/-! ### Words -/

def word (v : BitVec 64) : BitVec 32 := v.setWidth 32

def extend (v : BitVec 32) : BitVec 64 := v.signExtend 64

/-- The value of a comparison. -/
def truth (b : Bool) : BitVec 64 := (BitVec.ofBool b).setWidth 64

/-- The amount of a shift of 32 bits, and of 64 bits. -/
def amount32 (v : BitVec 64) : ℕ := v.toNat % 32

def amount64 (v : BitVec 64) : ℕ := v.toNat % 64

/-! ### Products and quotients -/

def product (s t : BitVec 64) : BitVec 64 := extend (word s) * extend (word t)

def productUnsigned (s t : BitVec 64) : BitVec 64 := (word s).setWidth 64 * (word t).setWidth 64

/-- The words of a product, for LO and HI. -/
def halves (p : BitVec 64) : BitVec 64 × BitVec 64 :=
  (extend (p.extractLsb' 0 32), extend (p.extractLsb' 32 32))

/-- A quotient by zero is 1 or -1, and the least number by -1 is itself. -/
def quotient (s t : BitVec 32) : BitVec 64 × BitVec 64 :=
  if t = 0 then (if s.slt 0 then 1 else -1, extend s) else (extend (s.sdiv t), extend (s.srem t))

def quotientUnsigned (s t : BitVec 32) : BitVec 64 × BitVec 64 :=
  if t = 0 then (-1, extend s) else (extend (s / t), extend (s % t))

/-- LO and HI are written. -/
def setLoHi (hi : Bool) (g : File) (v : BitVec 64 × BitVec 64) : File :=
  Function.update (Function.update g (lo_reg hi) v.1) (hi_reg hi) v.2

/-! ### Instructions -/

section
variable (instr : Instruction) (g : File)

def multiplied (hi : Bool) (p : BitVec 64) : File :=
  let g' := setLoHi hi g (halves p)
  if instr.dest = 0 then g' else Function.update g' instr.dest (halves p).1

def meaning : File :=
  let s := g instr.source_reg
  let t := g instr.source2_reg
  let imm := instr.imm32.signExtend 64
  let mask := instr.imm16.setWidth 64
  let shift := instr.imm8.setWidth 64
  let write := Function.update g instr.dest
  match instr.op with
  | .Null => g
  | .AddDoublewordImm => write (s + imm)
  | .AddWordImm => write (extend (word (s + imm)))
  | .AddDoublewordReg => write (s + t)
  | .AddWordReg => write (extend (word (s + t)))
  | .AndImm => write (s &&& mask)
  | .AndReg => write (s &&& t)
  | .ClearDoublewordReg => write 0
  | .ClearWordReg => write 0
  | .DivideWord => setLoHi false g (quotient (word s) (word t))
  | .DivideWord1 => setLoHi true g (quotient (word s) (word t))
  | .DivideUnsignedWord => setLoHi false g (quotientUnsigned (word s) (word t))
  | .DivideUnsignedWord1 => setLoHi true g (quotientUnsigned (word s) (word t))
  | .DoublewordShiftLeftLogical => write (s <<< amount64 shift)
  | .DoublewordShiftLeftLogicalVariable => write (s <<< amount64 t)
  | .DoublewordShiftRightArithmetic => write (s.sshiftRight (amount64 shift))
  | .DoublewordShiftRightArithmeticVariable => write (s.sshiftRight (amount64 t))
  | .DoublewordShiftRightLogical => write (s >>> amount64 shift)
  | .DoublewordShiftRightLogicalVariable => write (s >>> amount64 t)
  | .LoadConst => write instr.source
  | .MoveConditionalOnNotZero => write (if s = 0 then g instr.dest else t)
  | .MoveConditionalOnZero => write (if s = 0 then t else g instr.dest)
  | .MoveDoublewordReg => write s
  | .MoveWordReg => write ((word s).setWidth 64)
  | .MultiplyUnsignedWord => multiplied instr g false (productUnsigned s t)
  | .MultiplyUnsignedWord1 => multiplied instr g true (productUnsigned s t)
  | .MultiplyWord => multiplied instr g false (product s t)
  | .MultiplyWord1 => multiplied instr g true (product s t)
  | .NegateDoublewordReg => write (-s)
  | .NegateWordReg => write ((-word s).setWidth 64)
  | .NorReg => write (~~~(s ||| t))
  | .OrImm => write (s ||| mask)
  | .OrReg => write (s ||| t)
  | .SetOnLessThan => write (truth (s.slt t))
  | .SetOnLessThanUnsigned => write (truth (s.ult t))
  | .SetOnLessThanImmediate => write (truth (s.slt imm))
  | .SetOnLessThanImmediateUnsigned => write (truth (s.ult imm))
  | .ShiftLeftLogical => write (extend (word s <<< amount32 shift))
  | .ShiftLeftLogicalVariable => write (extend (word s <<< amount32 t))
  | .ShiftRightArithmetic => write (extend ((word s).sshiftRight (amount32 shift)))
  | .ShiftRightArithmeticVariable => write (extend ((word s).sshiftRight (amount32 t)))
  | .ShiftRightLogical => write (extend (word s >>> amount32 shift))
  | .ShiftRightLogicalVariable => write (extend (word s >>> amount32 t))
  | .SubDoublewordReg => write (s - t)
  | .SubWordReg => write (extend (word (s - t)))
  | .XorImm => write (s ^^^ mask)
  | .XorReg => write (s ^^^ t)

/-! ### Conditions -/

/-- A register that may be written. -/
def InDest : Prop := InFile instr.dest ∧ instr.dest ≠ 0

/-- The registers exist, and $zero is not written. Two kinds of instructions need more: with $zero as its
source a shift of 64 bits by a register may shift the amount, and a quotient by zero leaves the dividend
extended. -/
def Valid : Prop :=
  let reads1 := InFile instr.source_reg
  let reads2 := InFile instr.source_reg ∧ InFile instr.source2_reg
  match instr.op with
  | .Null => True
  | .ClearDoublewordReg | .ClearWordReg | .LoadConst => InDest instr
  | .AddDoublewordImm | .AddWordImm | .AndImm | .DoublewordShiftLeftLogical
  | .DoublewordShiftRightArithmetic | .DoublewordShiftRightLogical | .MoveDoublewordReg | .MoveWordReg
  | .NegateDoublewordReg | .NegateWordReg | .OrImm | .SetOnLessThanImmediate
  | .SetOnLessThanImmediateUnsigned | .ShiftLeftLogical | .ShiftRightArithmetic | .ShiftRightLogical
  | .XorImm => reads1 ∧ InDest instr
  | .AddDoublewordReg | .AddWordReg | .AndReg | .MoveConditionalOnNotZero | .MoveConditionalOnZero | .NorReg
  | .OrReg | .SetOnLessThan | .SetOnLessThanUnsigned | .ShiftLeftLogicalVariable
  | .ShiftRightArithmeticVariable | .ShiftRightLogicalVariable | .SubDoublewordReg | .SubWordReg
  | .XorReg => reads2 ∧ InDest instr
  | .DoublewordShiftLeftLogicalVariable | .DoublewordShiftRightArithmeticVariable
  | .DoublewordShiftRightLogicalVariable => reads2 ∧ InDest instr ∧ instr.source_reg ≠ 0
  | .MultiplyUnsignedWord | .MultiplyUnsignedWord1 | .MultiplyWord | .MultiplyWord1 =>
    reads2 ∧ InFile instr.dest
  | .DivideUnsignedWord | .DivideUnsignedWord1 => reads2
  | .DivideWord | .DivideWord1 =>
    reads2 ∧ instr.source_reg < 32 ∧
      (word (g instr.source2_reg) = 0 → extend (word (g instr.source_reg)) = g instr.source_reg)

end

end DobieStation.EeJit.Integer
