import DobieStation.Ee.Instructions

/-! # Arithmetic of the EE

The handlers of `EmotionInterpreter` that compute with integers in the general registers, LO, HI and SA. These
are the ones that the JIT compiles itself. `compute` looks them up, and has no result for any other
instruction. -/

namespace DobieStation.Ee.Arithmetic

open DobieStation.Ee.Interface DobieStation.Ee.Instructions

/-! ### Registers -/

section
variable (R : Registers)

/-- `get_gpr`, of the lowest bits. -/
def get_gpr (n : ℕ) (r : BitVec 5) : BitVec n := (R.gpr r).setWidth n

/-- `set_gpr<uint64_t>`; the register 0 stays zero. -/
def set_gpr (r : BitVec 5) (v : BitVec 64) : Registers :=
  if r = 0 then R else { R with gpr := Function.update R.gpr r (insertBits (R.gpr r) 0 64 v) }

def mfhi (index : BitVec 5) : Registers := set_gpr R index R.HI.lo

def mthi (index : BitVec 5) : Registers := { R with HI := ⟨get_gpr R 64 index, R.HI.hi⟩ }

def mflo (index : BitVec 5) : Registers := set_gpr R index R.LO.lo

def mtlo (index : BitVec 5) : Registers := { R with LO := ⟨get_gpr R 64 index, R.LO.hi⟩ }

def mfhi1 (index : BitVec 5) : Registers := set_gpr R index R.HI.hi

def mthi1 (index : BitVec 5) : Registers := { R with HI := ⟨R.HI.lo, get_gpr R 64 index⟩ }

def mflo1 (index : BitVec 5) : Registers := set_gpr R index R.LO.hi

def mtlo1 (index : BitVec 5) : Registers := { R with LO := ⟨R.LO.lo, get_gpr R 64 index⟩ }

def mfsa (index : BitVec 5) : Registers := set_gpr R index R.SA

def mtsa (index : BitVec 5) : Registers := { R with SA := get_gpr R 64 index &&& 0xF }

def set_SA (value : BitVec 64) : Registers := { R with SA := value }

def set_LO_HI (a b : BitVec 64) (hi : Bool) : Registers :=
  if hi then { R with LO := ⟨R.LO.lo, a⟩, HI := ⟨R.HI.lo, b⟩ }
  else { R with LO := ⟨a, R.LO.hi⟩, HI := ⟨b, R.HI.hi⟩ }

end

/-! ### Immediate operands -/

/-- The amount of a shift. -/
def sa (w : Word) : ℕ := (w.extractLsb' 6 5).toNat

/-- The lowest half, without a sign and with its sign. -/
def uimm (w : Word) : BitVec 64 := (w.setWidth 16).setWidth 64

def simm (w : Word) : BitVec 64 := (w.setWidth 16).signExtend 64

section
variable (w : Word) (R : Registers)

/-- The value of a condition. -/
def flag (b : Bool) : BitVec 64 := if b then 1 else 0

/-- The result of 32 bits, with its sign. -/
def addiu : Registers :=
  set_gpr R (rt w) (((get_gpr R 64 (rs w) + simm w).setWidth 32).signExtend 64)

def addi : Registers := addiu w R

def slti : Registers := set_gpr R (rt w) (flag ((get_gpr R 64 (rs w)).slt (simm w)))

def sltiu : Registers := set_gpr R (rt w) (flag ((get_gpr R 64 (rs w)).ult (simm w)))

def andi : Registers := set_gpr R (rt w) (get_gpr R 64 (rs w) &&& uimm w)

def ori : Registers := set_gpr R (rt w) (get_gpr R 64 (rs w) ||| uimm w)

def xori : Registers := set_gpr R (rt w) (get_gpr R 64 (rs w) ^^^ uimm w)

def lui : Registers := set_gpr R (rt w) (((w &&& 0xFFFF) <<< 16).signExtend 64)

def daddiu : Registers := set_gpr R (rt w) (get_gpr R 64 (rs w) + simm w)

def daddi : Registers := daddiu w R

def mtsab : Registers :=
  set_SA R (((get_gpr R 32 (rs w) &&& 0xF) ^^^ ((w.setWidth 16 &&& 0xF).setWidth 32)).setWidth 64)

def mtsah : Registers :=
  set_SA R ((((get_gpr R 32 (rs w) &&& 0x7) ^^^ ((w.setWidth 16 &&& 0x7).setWidth 32)) * 2).setWidth 64)

/-! ### Shifts -/

def sll : Registers := set_gpr R (rd w) ((get_gpr R 32 (rt w) <<< sa w).signExtend 64)

def srl : Registers := set_gpr R (rd w) ((get_gpr R 32 (rt w) >>> sa w).signExtend 64)

def sra : Registers := set_gpr R (rd w) (((get_gpr R 32 (rt w)).sshiftRight (sa w)).signExtend 64)

/-- The amount of a shift by a register. -/
def amount (mask : BitVec 8) : ℕ := (get_gpr R 8 (rs w) &&& mask).toNat

def sllv : Registers := set_gpr R (rd w) ((get_gpr R 32 (rt w) <<< amount w R 0x1F).signExtend 64)

def srlv : Registers := set_gpr R (rd w) ((get_gpr R 32 (rt w) >>> amount w R 0x1F).signExtend 64)

def srav : Registers :=
  set_gpr R (rd w) (((get_gpr R 32 (rt w)).sshiftRight (amount w R 0x1F)).signExtend 64)

def dsllv : Registers := set_gpr R (rd w) (get_gpr R 64 (rt w) <<< amount w R 0x3F)

def dsrlv : Registers := set_gpr R (rd w) (get_gpr R 64 (rt w) >>> amount w R 0x3F)

def dsrav : Registers := set_gpr R (rd w) ((get_gpr R 64 (rt w)).sshiftRight (amount w R 0x3F))

def dsll : Registers := set_gpr R (rd w) (get_gpr R 64 (rt w) <<< sa w)

def dsrl : Registers := set_gpr R (rd w) (get_gpr R 64 (rt w) >>> sa w)

def dsra : Registers := set_gpr R (rd w) ((get_gpr R 64 (rt w)).sshiftRight (sa w))

def dsll32 : Registers := set_gpr R (rd w) (get_gpr R 64 (rt w) <<< (sa w + 32))

def dsrl32 : Registers := set_gpr R (rd w) (get_gpr R 64 (rt w) >>> (sa w + 32))

def dsra32 : Registers := set_gpr R (rd w) ((get_gpr R 64 (rt w)).sshiftRight (sa w + 32))

/-! ### Registers that are moved -/

def movz : Registers :=
  if get_gpr R 64 (rt w) = 0 then set_gpr R (rd w) (get_gpr R 64 (rs w)) else R

def movn : Registers :=
  if get_gpr R 64 (rt w) ≠ 0 then set_gpr R (rd w) (get_gpr R 64 (rs w)) else R

/-! ### Products and quotients -/

/-- LO and HI take the words of a product, and the register takes LO. -/
def setProduct (temp : BitVec 64) (hi : Bool) : Registers :=
  let R' := set_LO_HI R ((temp.setWidth 32).signExtend 64) (((temp >>> 32).setWidth 32).signExtend 64) hi
  if hi then mflo1 R' (rd w) else mflo R' (rd w)

def mult (hi : Bool) : Registers :=
  setProduct w R ((get_gpr R 32 (rs w)).signExtend 64 * (get_gpr R 32 (rt w)).signExtend 64) hi

def multu (hi : Bool) : Registers :=
  setProduct w R ((get_gpr R 32 (rs w)).setWidth 64 * (get_gpr R 32 (rt w)).setWidth 64) hi

def div (hi : Bool) : Registers :=
  let op1 := get_gpr R 32 (rs w)
  let op2 := get_gpr R 32 (rt w)
  if op1 = 0x80000000 ∧ op2 = 0xFFFFFFFF then
    set_LO_HI R ((0x80000000 : BitVec 32).signExtend 64) 0 hi
  else if op2 ≠ 0 then set_LO_HI R ((op1.sdiv op2).signExtend 64) ((op1.srem op2).signExtend 64) hi
  else set_LO_HI R (if (0 : BitVec 32).sle op1 then -1 else 1) (op1.signExtend 64) hi

def divu (hi : Bool) : Registers :=
  let op1 := get_gpr R 32 (rs w)
  let op2 := get_gpr R 32 (rt w)
  if op2 ≠ 0 then set_LO_HI R ((op1 / op2).signExtend 64) ((op1 % op2).signExtend 64) hi
  else set_LO_HI R (-1) (op1.signExtend 64) hi

/-! ### Two registers -/

def addu : Registers :=
  set_gpr R (rd w) (((get_gpr R 64 (rs w)).setWidth 32 + (get_gpr R 64 (rt w)).setWidth 32).signExtend 64)

def add : Registers := addu w R

def subu : Registers := set_gpr R (rd w) ((get_gpr R 32 (rs w) - get_gpr R 32 (rt w)).signExtend 64)

def sub : Registers := subu w R

def and_ee : Registers := set_gpr R (rd w) (get_gpr R 64 (rs w) &&& get_gpr R 64 (rt w))

def or_ee : Registers := set_gpr R (rd w) (get_gpr R 64 (rs w) ||| get_gpr R 64 (rt w))

def xor_ee : Registers := set_gpr R (rd w) (get_gpr R 64 (rs w) ^^^ get_gpr R 64 (rt w))

def nor : Registers := set_gpr R (rd w) (~~~(get_gpr R 64 (rs w) ||| get_gpr R 64 (rt w)))

def slt : Registers := set_gpr R (rd w) (flag ((get_gpr R 64 (rs w)).slt (get_gpr R 64 (rt w))))

def sltu : Registers := set_gpr R (rd w) (flag ((get_gpr R 64 (rs w)).ult (get_gpr R 64 (rt w))))

def daddu : Registers := set_gpr R (rd w) (get_gpr R 64 (rs w) + get_gpr R 64 (rt w))

def dadd : Registers := daddu w R

def dsubu : Registers := set_gpr R (rd w) (get_gpr R 64 (rs w) - get_gpr R 64 (rt w))

def dsub : Registers := dsubu w R

/-! ### Lookup -/

def special : Option Registers :=
  match funct w with
  | 0x00 => some (sll w R)
  | 0x02 => some (srl w R)
  | 0x03 => some (sra w R)
  | 0x04 => some (sllv w R)
  | 0x06 => some (srlv w R)
  | 0x07 => some (srav w R)
  | 0x0A => some (movz w R)
  | 0x0B => some (movn w R)
  | 0x10 => some (mfhi R (rd w))
  | 0x11 => some (mthi R (rs w))
  | 0x12 => some (mflo R (rd w))
  | 0x13 => some (mtlo R (rs w))
  | 0x14 => some (dsllv w R)
  | 0x16 => some (dsrlv w R)
  | 0x17 => some (dsrav w R)
  | 0x18 => some (mult w R false)
  | 0x19 => some (multu w R false)
  | 0x1A => some (div w R false)
  | 0x1B => some (divu w R false)
  | 0x20 => some (add w R)
  | 0x21 => some (addu w R)
  | 0x22 => some (sub w R)
  | 0x23 => some (subu w R)
  | 0x24 => some (and_ee w R)
  | 0x25 => some (or_ee w R)
  | 0x26 => some (xor_ee w R)
  | 0x27 => some (nor w R)
  | 0x28 => some (mfsa R (rd w))
  | 0x29 => some (mtsa R (rs w))
  | 0x2A => some (slt w R)
  | 0x2B => some (sltu w R)
  | 0x2C => some (dadd w R)
  | 0x2D => some (daddu w R)
  | 0x2E => some (dsub w R)
  | 0x2F => some (dsubu w R)
  | 0x38 => some (dsll w R)
  | 0x3A => some (dsrl w R)
  | 0x3B => some (dsra w R)
  | 0x3C => some (dsll32 w R)
  | 0x3E => some (dsrl32 w R)
  | 0x3F => some (dsra32 w R)
  | _ => none

def regimm : Option Registers :=
  match (rt w).toNat with
  | 0x18 => some (mtsab w R)
  | 0x19 => some (mtsah w R)
  | _ => none

def mmi : Option Registers :=
  match funct w with
  | 0x10 => some (mfhi1 R (rd w))
  | 0x11 => some (mthi1 R (rs w))
  | 0x12 => some (mflo1 R (rd w))
  | 0x13 => some (mtlo1 R (rs w))
  | 0x18 => some (mult w R true)
  | 0x19 => some (multu w R true)
  | 0x1A => some (div w R true)
  | 0x1B => some (divu w R true)
  | _ => none

def compute : Option Registers :=
  match op w with
  | 0x00 => special w R
  | 0x01 => regimm w R
  | 0x08 => some (addi w R)
  | 0x09 => some (addiu w R)
  | 0x0A => some (slti w R)
  | 0x0B => some (sltiu w R)
  | 0x0C => some (andi w R)
  | 0x0D => some (ori w R)
  | 0x0E => some (xori w R)
  | 0x0F => some (lui w R)
  | 0x18 => some (daddi w R)
  | 0x19 => some (daddiu w R)
  | 0x1C => mmi w R
  | _ => none

end

end DobieStation.Ee.Arithmetic
