import DobieStation.Ee.Arithmetic
import DobieStation.EeJit.Emission

/-! # Translation of integer code

How instructions of the EE become instructions of the intermediate representation. -/

namespace DobieStation.EeJit.Translation

open DobieStation.Ee.Interface DobieStation.Ee.Instructions DobieStation.Ee.Arithmetic
open DobieStation.EeJit.RegisterCache DobieStation.EeJit.Integer

/-! ### Operands -/

/-- A register as the destination, and as a source. -/
def dest (r : BitVec 5) : ℤ := r.toNat

def source (r : BitVec 5) : BitVec 64 := r.setWidth 64

/-- A register of `EE_SpecialReg` as a source. -/
def special_source (r : ℤ) : BitVec 64 := BitVec.ofInt 64 r

/-- There is no code for what would only write $zero. -/
def unlessZero (r : BitVec 5) (instr : Instruction) : List Instruction := if r = 0 then [] else [instr]

section
variable (w : Word)

/-- A register is moved; nothing here asks for $zero. -/
def move (d s : BitVec 5) : Instruction := ⟨.MoveDoublewordReg, dest d, source s, 0⟩

def moveFrom (d : BitVec 5) (s : ℤ) : Instruction := ⟨.MoveDoublewordReg, dest d, special_source s, 0⟩

def moveTo (d : ℤ) (s : BitVec 5) : Instruction := ⟨.MoveDoublewordReg, d, source s, 0⟩

/-- The second operand is in the instruction. -/
def immediate (op : Opcode) (imm : BitVec 64) : List Instruction :=
  unlessZero (rt w) ⟨op, dest (rt w), source (rs w), imm⟩

/-- With $zero the sum is a constant. -/
def addImmediate (op : Opcode) : List Instruction :=
  unlessZero (rt w) <|
    if rs w = 0 then ⟨.LoadConst, dest (rt w), simm w, 0⟩ else ⟨op, dest (rt w), source (rs w), simm w⟩

def shift (op : Opcode) (n : ℕ) : List Instruction :=
  unlessZero (rd w) ⟨op, dest (rd w), source (rt w), BitVec.ofNat 64 (sa w + n)⟩

def shiftVariable (op : Opcode) : List Instruction :=
  unlessZero (rd w) ⟨op, dest (rd w), source (rt w), source (rs w)⟩

/-- Both operands are in registers. -/
def register (op : Opcode) : Instruction := ⟨op, dest (rd w), source (rs w), source (rt w)⟩

/-- With $zero the sum is moved, and this before it is asked whether $zero is written. -/
def addRegister (op : Opcode) : List Instruction :=
  if rs w = 0 then [move (rd w) (rt w)]
  else if rt w = 0 then [move (rd w) (rs w)]
  else unlessZero (rd w) (register w op)

/-- What becomes simpler if both operands are the same register. -/
def sameRegister (op : Opcode) (same : Instruction) : List Instruction :=
  unlessZero (rd w) (if rs w = rt w then same else register w op)

def clear (op : Opcode) : Instruction := ⟨op, dest (rd w), 0, 0⟩

/-! ### The tables -/

def translate_op_special : Option (List Instruction) :=
  match funct w with
  | 0x00 => some (shift w .ShiftLeftLogical 0)
  | 0x02 => some (shift w .ShiftRightLogical 0)
  | 0x03 => some (shift w .ShiftRightArithmetic 0)
  | 0x04 => some (shiftVariable w .ShiftLeftLogicalVariable)
  | 0x06 => some (shiftVariable w .ShiftRightLogicalVariable)
  | 0x07 => some (shiftVariable w .ShiftRightArithmeticVariable)
  | 0x0A => some (unlessZero (rd w) <|
      if rt w = 0 then move (rd w) (rs w)
      else ⟨.MoveConditionalOnZero, dest (rd w), source (rt w), source (rs w)⟩)
  | 0x0B => some <|
      if rd w = 0 ∨ rt w = 0 then []
      else [⟨.MoveConditionalOnNotZero, dest (rd w), source (rt w), source (rs w)⟩]
  | 0x10 => some [moveFrom (rd w) EE_SpecialReg.HI]
  | 0x11 => some [moveTo EE_SpecialReg.HI (rs w)]
  | 0x12 => some [moveFrom (rd w) EE_SpecialReg.LO]
  | 0x13 => some [moveTo EE_SpecialReg.LO (rs w)]
  | 0x14 => some (shiftVariable w .DoublewordShiftLeftLogicalVariable)
  | 0x16 => some (shiftVariable w .DoublewordShiftRightLogicalVariable)
  | 0x17 => some (shiftVariable w .DoublewordShiftRightArithmeticVariable)
  | 0x18 => some [register w .MultiplyWord]
  | 0x19 => some [register w .MultiplyUnsignedWord]
  | 0x1A => some [⟨.DivideWord, 0, source (rs w), source (rt w)⟩]
  | 0x1B => some [⟨.DivideUnsignedWord, 0, source (rs w), source (rt w)⟩]
  | 0x20 => some (addRegister w .AddWordReg)
  | 0x21 => some (addRegister w .AddWordReg)
  | 0x22 => some (sameRegister w .SubWordReg (clear w .ClearWordReg))
  | 0x23 => some (sameRegister w .SubWordReg (clear w .ClearWordReg))
  | 0x24 => some (sameRegister w .AndReg (move (rd w) (rs w)))
  | 0x25 => some (sameRegister w .OrReg (move (rd w) (rs w)))
  | 0x26 => some (sameRegister w .XorReg (clear w .ClearDoublewordReg))
  -- here $zero leaves an instruction, which `translate` takes out
  | 0x27 => some (if rd w = 0 then [⟨.Null, 0, 0, 0⟩] else [register w .NorReg])
  | 0x28 => some [moveFrom (rd w) EE_SpecialReg.SA]
  | 0x29 => some [moveTo EE_SpecialReg.SA (rs w)]
  | 0x2A => some [register w .SetOnLessThan]
  | 0x2B => some [register w .SetOnLessThanUnsigned]
  | 0x2C => some (addRegister w .AddDoublewordReg)
  | 0x2D => some (addRegister w .AddDoublewordReg)
  | 0x2E => some (sameRegister w .SubDoublewordReg (clear w .ClearDoublewordReg))
  | 0x2F => some (sameRegister w .SubDoublewordReg (clear w .ClearDoublewordReg))
  | 0x38 => some (shift w .DoublewordShiftLeftLogical 0)
  | 0x3A => some (shift w .DoublewordShiftRightLogical 0)
  | 0x3B => some (shift w .DoublewordShiftRightArithmetic 0)
  | 0x3C => some (shift w .DoublewordShiftLeftLogical 32)
  | 0x3E => some (shift w .DoublewordShiftRightLogical 32)
  | 0x3F => some (shift w .DoublewordShiftRightArithmetic 32)
  | _ => none

/-- SA is changed where it is. -/
def changeSA (op : Opcode) (imm : BitVec 64) : Instruction :=
  ⟨op, EE_SpecialReg.SA, special_source EE_SpecialReg.SA, imm⟩

def translate_op_regimm : Option (List Instruction) :=
  match (rt w).toNat with
  | 0x18 => some [moveTo EE_SpecialReg.SA (rs w), changeSA .XorImm ((w &&& 0xF).setWidth 64),
      changeSA .AndImm 0xF]
  | 0x19 => some [moveTo EE_SpecialReg.SA (rs w), changeSA .XorImm ((w &&& 0x7).setWidth 64),
      changeSA .AndImm 0x7, changeSA .DoublewordShiftLeftLogical 1]
  | _ => none

def translate_op_mmi : Option (List Instruction) :=
  match funct w with
  | 0x10 => some [moveFrom (rd w) EE_SpecialReg.HI1]
  | 0x11 => some [moveTo EE_SpecialReg.HI1 (rs w)]
  | 0x12 => some [moveFrom (rd w) EE_SpecialReg.LO1]
  | 0x13 => some [moveTo EE_SpecialReg.LO1 (rs w)]
  | 0x18 => some [register w .MultiplyWord1]
  | 0x19 => some [register w .MultiplyUnsignedWord1]
  | 0x1A => some [⟨.DivideWord1, 0, source (rs w), source (rt w)⟩]
  | 0x1B => some [⟨.DivideUnsignedWord1, 0, source (rs w), source (rt w)⟩]
  | _ => none

def translate_op : Option (List Instruction) :=
  match op w with
  | 0x00 => translate_op_special w
  | 0x01 => translate_op_regimm w
  | 0x08 => some (addImmediate w .AddWordImm)
  | 0x09 => some (addImmediate w .AddWordImm)
  | 0x0A => some (immediate w .SetOnLessThanImmediate (simm w))
  | 0x0B => some (immediate w .SetOnLessThanImmediateUnsigned (simm w))
  | 0x0C => some (immediate w .AndImm (uimm w))
  | 0x0D => some (immediate w .OrImm (uimm w))
  | 0x0E => some (immediate w .XorImm (uimm w))
  | 0x0F => some (unlessZero (rt w) ⟨.LoadConst, dest (rt w), ((w &&& 0xFFFF) <<< 16).signExtend 64, 0⟩)
  | 0x18 => some (addImmediate w .AddDoublewordImm)
  | 0x19 => some (addImmediate w .AddDoublewordImm)
  | 0x1C => translate_op_mmi w
  | _ => none

end

/-- What `translate` does with the instructions of a block. -/
def translate (ws : List Word) : Option (List Instruction) :=
  (ws.mapM translate_op).map fun instrs => instrs.flatten.filter fun instr => instr.op ≠ .Null

end DobieStation.EeJit.Translation
