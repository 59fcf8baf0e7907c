import DobieStation.Ee.Unaligned
import DobieStation.EeJit.Translation

/-! # The interpreter and the recompiler

For integer code the recompiler does what the interpreter does. What an instruction is translated to has the
meaning of the handler of the interpreter (`simulates_op`), and so the code of a block leaves the registers in
memory that the interpreter computes. The few instructions for which this is not always so are in
`Agrees`. -/

namespace DobieStation.EeJit.Translation

open DobieStation.Lib.Memory DobieStation.Lib.Staged
open DobieStation.Ee.Interface DobieStation.Ee.Instructions DobieStation.Ee.Arithmetic
open DobieStation.Ee.Unaligned (setWidth_insertBits upper_insertBits)
open DobieStation.EeJit.Host DobieStation.EeJit.RegisterCache DobieStation.EeJit.Integer

/-! ### The registers of the interpreter -/

/-- The registers of the interpreter under the numbers of the recompiler. -/
def file (R : Registers) : File
  | .negSucc _ => 0
  | .ofNat n =>
    if n < 32 then get_gpr R 64 (BitVec.ofNat 5 n)
    else
      match n with
      | 32 => R.LO.lo
      | 33 => R.LO.hi
      | 34 => R.HI.lo
      | 35 => R.HI.hi
      | 36 => R.SA
      | _ => 0

section
variable (R : Registers) (r d : BitVec 5) (v : BitVec 64)

theorem file_dest : file R (dest r) = get_gpr R 64 r := by
  change (if r.toNat < 32 then get_gpr R 64 (BitVec.ofNat 5 r.toNat) else _) = _
  rw [if_pos r.isLt, BitVec.ofNat_toNat, BitVec.setWidth_eq]

theorem inFile_dest : InFile (dest r) := by
  have hr := r.isLt
  unfold InFile dest
  omega

theorem inDest {op : Opcode} {s t : BitVec 64} (hd : d ≠ 0) : InDest ⟨op, dest d, s, t⟩ := by
  refine ⟨inFile_dest d, fun h => hd (BitVec.eq_of_toNat_eq ?_)⟩
  change dest d = 0 at h
  unfold dest at h
  rw [Int.natCast_eq_zero.1 h]
  rfl

/-- An operand keeps its number. -/
theorem source_number : ((source r).setWidth 32).toInt = dest r := by
  have hr := r.isLt
  have hn : ((source r).setWidth 32).toNat = r.toNat := by
    rw [source, BitVec.setWidth_setWidth_of_le _ (by decide), BitVec.toNat_setWidth,
      Nat.mod_eq_of_lt (by omega)]
  rw [BitVec.toInt_eq_toNat_of_lt (by omega), hn]
  rfl

theorem get_set_gpr (hd : d ≠ 0) :
    get_gpr (set_gpr R d v) 64 r = if r = d then v else get_gpr R 64 r := by
  unfold set_gpr get_gpr
  rw [if_neg hd]
  by_cases hr : r = d
  · rw [if_pos hr, hr]
    change (Function.update R.gpr d _ d).setWidth 64 = v
    rw [Function.update_self]
    exact setWidth_insertBits (by decide)
  · rw [if_neg hr]
    change (Function.update R.gpr d _ r).setWidth 64 = _
    rw [Function.update_of_ne hr]

theorem file_set_gpr (hd : d ≠ 0) : file (set_gpr R d v) = Function.update (file R) (dest d) v := by
  funext i
  cases i with
  | negSucc n =>
    have hne : Int.negSucc n ≠ dest d := by
      unfold dest
      omega
    rw [Function.update_of_ne hne]
    rfl
  | ofNat n =>
    by_cases hn : n < 32
    · have hnum : Int.ofNat n = dest (BitVec.ofNat 5 n) := by
        unfold dest
        rw [BitVec.toNat_ofNat, Nat.mod_eq_of_lt (by omega)]
        rfl
      rw [hnum, file_dest, get_set_gpr R _ d v hd, Function.update_apply, file_dest]
      refine if_congr ?_ rfl rfl
      exact ⟨fun h => h ▸ rfl, fun h => BitVec.eq_of_toNat_eq (Int.ofNat_inj.1 h)⟩
    · have hne : Int.ofNat n ≠ dest d := fun h => hn (Int.ofNat_inj.1 h ▸ d.isLt)
      rw [Function.update_of_ne hne]
      change (if n < 32 then _ else _) = (if n < 32 then _ else _)
      rw [if_neg hn, if_neg hn]
      unfold set_gpr
      rw [if_neg hd]

end

/-! ### Simulation -/

/-- The instructions of the intermediate representation do what takes `R` to `R'`. -/
structure Simulates (instrs : List Instruction) (R R' : Registers) : Prop where
  valid : ValidBlock instrs (file R)
  result : meanings instrs (file R) = file R'
  upper : ∀ r, (R'.gpr r).extractLsb' 64 64 = (R.gpr r).extractLsb' 64 64
  zero : get_gpr R' 64 0 = get_gpr R 64 0

section
variable {R R' R'' : Registers} {d : BitVec 5} {v : BitVec 64} {instr : Instruction}
  {instrs instrs' : List Instruction}

theorem Simulates.nop : Simulates [] R R := ⟨trivial, rfl, fun _ => rfl, rfl⟩

theorem Simulates.append (h : Simulates instrs R R') (h' : Simulates instrs' R' R'') :
    Simulates (instrs ++ instrs') R R'' := by
  refine ⟨validBlock_append.2 ⟨h.valid, ?_⟩, ?_, fun r => (h'.upper r).trans (h.upper r), h'.zero.trans h.zero⟩
  · rw [h.result]
    exact h'.valid
  · rw [meanings_append, h.result, h'.result]

/-- Only LO, HI and SA change. -/
theorem simulates_special (hv : Valid instr (file R)) (hm : meaning instr (file R) = file R')
    (hg : R'.gpr = R.gpr) : Simulates [instr] R R' := by
  refine ⟨⟨hv, trivial⟩, hm, fun r => by rw [hg], ?_⟩
  unfold get_gpr
  rw [hg]

theorem upper_set_gpr (r : BitVec 5) :
    ((set_gpr R d v).gpr r).extractLsb' 64 64 = (R.gpr r).extractLsb' 64 64 := by
  unfold set_gpr
  by_cases hd : d = 0
  · rw [if_pos hd]
  · rw [if_neg hd]
    change ((Function.update R.gpr d _) r).extractLsb' 64 64 = _
    by_cases hr : r = d
    · rw [hr, Function.update_self]
      exact upper_insertBits (by decide)
    · rw [Function.update_of_ne hr]

theorem zero_set_gpr : get_gpr (set_gpr R d v) 64 0 = get_gpr R 64 0 := by
  by_cases hd : d = 0
  · rw [set_gpr, if_pos hd]
  · rw [get_set_gpr R 0 d v hd, if_neg (Ne.symm hd)]

theorem simulates_write (hd : d ≠ 0) (hv : Valid instr (file R))
    (hm : meaning instr (file R) = Function.update (file R) (dest d) v) :
    Simulates [instr] R (set_gpr R d v) :=
  ⟨⟨hv, trivial⟩, hm.trans (file_set_gpr R d v hd).symm, upper_set_gpr, zero_set_gpr⟩

theorem simulates_unlessZero (h : d ≠ 0 → Simulates [instr] R (set_gpr R d v)) :
    Simulates (unlessZero d instr) R (set_gpr R d v) := by
  unfold unlessZero
  by_cases hd : d = 0
  · rw [if_pos hd, set_gpr, if_pos hd]
    exact Simulates.nop
  · rw [if_neg hd]
    exact h hd

end

/-! ### Operands -/

section
variable (R : Registers) {op : Opcode} {d : ℤ} (r : BitVec 5) {s t : BitVec 64}

theorem source_reg_eq : Instruction.source_reg ⟨op, d, source r, t⟩ = dest r := source_number r

theorem source2_reg_eq : Instruction.source2_reg ⟨op, d, s, source r⟩ = dest r := source_number r

theorem read1 : file R (Instruction.source_reg ⟨op, d, source r, t⟩) = get_gpr R 64 r := by
  rw [source_reg_eq, file_dest]

theorem read2 : file R (Instruction.source2_reg ⟨op, d, s, source r⟩) = get_gpr R 64 r := by
  rw [source2_reg_eq, file_dest]

theorem inFile1 : InFile (Instruction.source_reg ⟨op, d, source r, t⟩) := by
  rw [source_reg_eq]
  exact inFile_dest r

theorem inFile2 : InFile (Instruction.source2_reg ⟨op, d, s, source r⟩) := by
  rw [source2_reg_eq]
  exact inFile_dest r

theorem source_ne_zero {r : BitVec 5} (hr : r ≠ 0) :
    Instruction.source_reg ⟨op, d, source r, t⟩ ≠ 0 := by
  rw [source_reg_eq]
  have h : InDest ⟨.Null, dest r, 0, 0⟩ := inDest r hr
  exact h.2

theorem word_get : word (get_gpr R 64 r) = get_gpr R 32 r :=
  BitVec.setWidth_setWidth_of_le _ (by decide)

end

/-! ### Values -/

section
variable (w : Word) (R : Registers) {op : Opcode} {d : ℤ} {s : BitVec 64}

theorem extend_simm : ((simm w).setWidth 32).signExtend 64 = simm w := by
  unfold simm
  ext i hi
  simp [BitVec.getElem_signExtend, BitVec.getLsbD_signExtend]
  grind

theorem imm32_simm : (Instruction.imm32 ⟨op, d, s, simm w⟩).signExtend 64 = simm w := extend_simm w

theorem imm16_uimm : (Instruction.imm16 ⟨op, d, s, uimm w⟩).setWidth 64 = uimm w := by
  have h : ((w.setWidth 16).setWidth 64).setWidth 16 = w.setWidth 16 := by
    rw [BitVec.setWidth_setWidth_of_le (w.setWidth 16) (by decide), BitVec.setWidth_eq]
  exact congrArg (BitVec.setWidth 64) h

theorem truth_flag (b : Bool) : truth b = flag b := by cases b <;> rfl

theorem amount_imm8 {n : ℕ} (hn : n < 256) :
    ((Instruction.imm8 ⟨op, d, s, BitVec.ofNat 64 n⟩).setWidth 64).toNat = n := by
  unfold Instruction.imm8
  rw [BitVec.toNat_setWidth, BitVec.toNat_setWidth, BitVec.toNat_ofNat]
  omega

theorem amount32_imm8 :
    amount32 ((Instruction.imm8 ⟨op, d, s, BitVec.ofNat 64 (sa w + 0)⟩).setWidth 64) = sa w := by
  have hw : sa w < 32 := (w.extractLsb' 6 5).isLt
  rw [amount32, amount_imm8 (by omega), Nat.add_zero, Nat.mod_eq_of_lt hw]

theorem amount64_imm8 {n : ℕ} (hn : n ≤ 32) :
    amount64 ((Instruction.imm8 ⟨op, d, s, BitVec.ofNat 64 (sa w + n)⟩).setWidth 64) = sa w + n := by
  have hw : sa w < 32 := (w.extractLsb' 6 5).isLt
  rw [amount64, amount_imm8 (by omega), Nat.mod_eq_of_lt (by omega)]

theorem amount32_get : amount32 (get_gpr R 64 (rs w)) = amount w R 0x1F := by
  unfold amount32 amount get_gpr
  rw [BitVec.toNat_and, BitVec.toNat_setWidth, BitVec.toNat_setWidth]
  change _ = _ &&& (2 ^ 5 - 1)
  rw [Nat.and_two_pow_sub_one_eq_mod]
  omega

theorem amount64_get : amount64 (get_gpr R 64 (rs w)) = amount w R 0x3F := by
  unfold amount64 amount get_gpr
  rw [BitVec.toNat_and, BitVec.toNat_setWidth, BitVec.toNat_setWidth]
  change _ = _ &&& (2 ^ 6 - 1)
  rw [Nat.and_two_pow_sub_one_eq_mod]
  omega

end

/-! ### Immediate operands and shifts -/

section
variable {w : Word} {R : Registers} {op : Opcode} {v imm : BitVec 64} {n : ℕ}

theorem simulates_immediate (hv : rt w ≠ 0 → Valid ⟨op, dest (rt w), source (rs w), imm⟩ (file R))
    (hm : meaning ⟨op, dest (rt w), source (rs w), imm⟩ (file R) =
      Function.update (file R) (dest (rt w)) v) :
    Simulates (immediate w op imm) R (set_gpr R (rt w) v) :=
  simulates_unlessZero fun hd => simulates_write hd (hv hd) hm

theorem simulates_addImmediate
    (hv : rt w ≠ 0 → Valid ⟨op, dest (rt w), source (rs w), simm w⟩ (file R))
    (hm : meaning ⟨op, dest (rt w), source (rs w), simm w⟩ (file R) =
      Function.update (file R) (dest (rt w)) v) (hconst : rs w = 0 → simm w = v) :
    Simulates (addImmediate w op) R (set_gpr R (rt w) v) := by
  refine simulates_unlessZero fun hd => ?_
  by_cases hs : rs w = 0
  · rw [if_pos hs, ← hconst hs]
    exact simulates_write hd (inDest (rt w) hd) rfl
  · rw [if_neg hs]
    exact simulates_write hd (hv hd) hm

theorem simulates_shift
    (hv : rd w ≠ 0 → Valid ⟨op, dest (rd w), source (rt w), BitVec.ofNat 64 (sa w + n)⟩ (file R))
    (hm : meaning ⟨op, dest (rd w), source (rt w), BitVec.ofNat 64 (sa w + n)⟩ (file R) =
      Function.update (file R) (dest (rd w)) v) :
    Simulates (shift w op n) R (set_gpr R (rd w) v) :=
  simulates_unlessZero fun hd => simulates_write hd (hv hd) hm

theorem simulates_shiftVariable
    (hv : rd w ≠ 0 → Valid ⟨op, dest (rd w), source (rt w), source (rs w)⟩ (file R))
    (hm : meaning ⟨op, dest (rd w), source (rt w), source (rs w)⟩ (file R) =
      Function.update (file R) (dest (rd w)) v) :
    Simulates (shiftVariable w op) R (set_gpr R (rd w) v) :=
  simulates_unlessZero fun hd => simulates_write hd (hv hd) hm

theorem zero_plus (hz : get_gpr R 64 0 = 0) : get_gpr R 64 0 + v = v := by
  rw [hz]
  exact BitVec.zero_add v

theorem simulates_addiu (hz : get_gpr R 64 0 = 0) :
    Simulates (addImmediate w .AddWordImm) R (addiu w R) := by
  refine simulates_addImmediate (fun hd => ⟨inFile1 (rs w), inDest (rt w) hd⟩)
    (congrArg (Function.update (file R) (dest (rt w))) ?_) fun hs => ?_
  · rw [read1, imm32_simm]
    rfl
  · rw [hs, zero_plus hz]
    exact (extend_simm w).symm

theorem simulates_daddiu (hz : get_gpr R 64 0 = 0) :
    Simulates (addImmediate w .AddDoublewordImm) R (daddiu w R) := by
  refine simulates_addImmediate (fun hd => ⟨inFile1 (rs w), inDest (rt w) hd⟩)
    (congrArg (Function.update (file R) (dest (rt w))) ?_) fun hs => ?_
  · rw [read1, imm32_simm]
  · rw [hs, zero_plus hz]

theorem simulates_slti : Simulates (immediate w .SetOnLessThanImmediate (simm w)) R (slti w R) := by
  refine simulates_immediate (fun hd => ⟨inFile1 (rs w), inDest (rt w) hd⟩)
    (congrArg (Function.update (file R) (dest (rt w))) ?_)
  rw [read1, imm32_simm, truth_flag]

theorem simulates_sltiu :
    Simulates (immediate w .SetOnLessThanImmediateUnsigned (simm w)) R (sltiu w R) := by
  refine simulates_immediate (fun hd => ⟨inFile1 (rs w), inDest (rt w) hd⟩)
    (congrArg (Function.update (file R) (dest (rt w))) ?_)
  rw [read1, imm32_simm, truth_flag]

theorem simulates_andi : Simulates (immediate w .AndImm (uimm w)) R (andi w R) := by
  refine simulates_immediate (fun hd => ⟨inFile1 (rs w), inDest (rt w) hd⟩)
    (congrArg (Function.update (file R) (dest (rt w))) ?_)
  rw [read1, imm16_uimm]

theorem simulates_ori : Simulates (immediate w .OrImm (uimm w)) R (ori w R) := by
  refine simulates_immediate (fun hd => ⟨inFile1 (rs w), inDest (rt w) hd⟩)
    (congrArg (Function.update (file R) (dest (rt w))) ?_)
  rw [read1, imm16_uimm]

theorem simulates_xori : Simulates (immediate w .XorImm (uimm w)) R (xori w R) := by
  refine simulates_immediate (fun hd => ⟨inFile1 (rs w), inDest (rt w) hd⟩)
    (congrArg (Function.update (file R) (dest (rt w))) ?_)
  rw [read1, imm16_uimm]

theorem simulates_lui :
    Simulates (unlessZero (rt w) ⟨.LoadConst, dest (rt w), ((w &&& 0xFFFF) <<< 16).signExtend 64, 0⟩) R
      (lui w R) :=
  simulates_unlessZero fun hd => simulates_write hd (inDest (rt w) hd) rfl

theorem simulates_sll : Simulates (shift w .ShiftLeftLogical 0) R (sll w R) := by
  refine simulates_shift (fun hd => ⟨inFile1 (rt w), inDest (rd w) hd⟩)
    (congrArg (Function.update (file R) (dest (rd w))) ?_)
  rw [read1, amount32_imm8, word_get]
  rfl

theorem simulates_srl : Simulates (shift w .ShiftRightLogical 0) R (srl w R) := by
  refine simulates_shift (fun hd => ⟨inFile1 (rt w), inDest (rd w) hd⟩)
    (congrArg (Function.update (file R) (dest (rd w))) ?_)
  rw [read1, amount32_imm8, word_get]
  rfl

theorem simulates_sra : Simulates (shift w .ShiftRightArithmetic 0) R (sra w R) := by
  refine simulates_shift (fun hd => ⟨inFile1 (rt w), inDest (rd w) hd⟩)
    (congrArg (Function.update (file R) (dest (rd w))) ?_)
  rw [read1, amount32_imm8, word_get]
  rfl

theorem simulates_sllv : Simulates (shiftVariable w .ShiftLeftLogicalVariable) R (sllv w R) := by
  refine simulates_shiftVariable (fun hd => ⟨⟨inFile1 (rt w), inFile2 (rs w)⟩, inDest (rd w) hd⟩)
    (congrArg (Function.update (file R) (dest (rd w))) ?_)
  rw [read1, read2, amount32_get, word_get]
  rfl

theorem simulates_srlv : Simulates (shiftVariable w .ShiftRightLogicalVariable) R (srlv w R) := by
  refine simulates_shiftVariable (fun hd => ⟨⟨inFile1 (rt w), inFile2 (rs w)⟩, inDest (rd w) hd⟩)
    (congrArg (Function.update (file R) (dest (rd w))) ?_)
  rw [read1, read2, amount32_get, word_get]
  rfl

theorem simulates_srav : Simulates (shiftVariable w .ShiftRightArithmeticVariable) R (srav w R) := by
  refine simulates_shiftVariable (fun hd => ⟨⟨inFile1 (rt w), inFile2 (rs w)⟩, inDest (rd w) hd⟩)
    (congrArg (Function.update (file R) (dest (rd w))) ?_)
  rw [read1, read2, amount32_get, word_get]
  rfl

theorem simulates_dsllv (ht : rd w = 0 ∨ rt w ≠ 0) :
    Simulates (shiftVariable w .DoublewordShiftLeftLogicalVariable) R (dsllv w R) := by
  refine simulates_shiftVariable
    (fun hd => ⟨⟨inFile1 (rt w), inFile2 (rs w)⟩, inDest (rd w) hd, source_ne_zero (ht.resolve_left hd)⟩)
    (congrArg (Function.update (file R) (dest (rd w))) ?_)
  rw [read1, read2, amount64_get]

theorem simulates_dsrlv (ht : rd w = 0 ∨ rt w ≠ 0) :
    Simulates (shiftVariable w .DoublewordShiftRightLogicalVariable) R (dsrlv w R) := by
  refine simulates_shiftVariable
    (fun hd => ⟨⟨inFile1 (rt w), inFile2 (rs w)⟩, inDest (rd w) hd, source_ne_zero (ht.resolve_left hd)⟩)
    (congrArg (Function.update (file R) (dest (rd w))) ?_)
  rw [read1, read2, amount64_get]

theorem simulates_dsrav (ht : rd w = 0 ∨ rt w ≠ 0) :
    Simulates (shiftVariable w .DoublewordShiftRightArithmeticVariable) R (dsrav w R) := by
  refine simulates_shiftVariable
    (fun hd => ⟨⟨inFile1 (rt w), inFile2 (rs w)⟩, inDest (rd w) hd, source_ne_zero (ht.resolve_left hd)⟩)
    (congrArg (Function.update (file R) (dest (rd w))) ?_)
  rw [read1, read2, amount64_get]

/-- The doubleword shifts, by the amount of the instruction and by 32 more. -/
theorem simulates_dshift {f : BitVec 64 → ℕ → BitVec 64} (hn : n ≤ 32)
    (hv : rd w ≠ 0 → Valid ⟨op, dest (rd w), source (rt w), BitVec.ofNat 64 (sa w + n)⟩ (file R))
    (hm : meaning ⟨op, dest (rd w), source (rt w), BitVec.ofNat 64 (sa w + n)⟩ (file R) =
      Function.update (file R) (dest (rd w)) (f
        (file R (Instruction.source_reg ⟨op, dest (rd w), source (rt w), BitVec.ofNat 64 (sa w + n)⟩))
        (amount64 ((Instruction.imm8
          ⟨op, dest (rd w), source (rt w), BitVec.ofNat 64 (sa w + n)⟩).setWidth 64)))) :
    Simulates (shift w op n) R (set_gpr R (rd w) (f (get_gpr R 64 (rt w)) (sa w + n))) := by
  rw [read1, amount64_imm8 w hn] at hm
  exact simulates_shift hv hm

theorem simulates_dsll (hn : n ≤ 32) : Simulates (shift w .DoublewordShiftLeftLogical n) R
    (set_gpr R (rd w) (get_gpr R 64 (rt w) <<< (sa w + n))) :=
  simulates_dshift (f := fun s k => s <<< k) hn (fun hd => ⟨inFile1 (rt w), inDest (rd w) hd⟩) rfl

theorem simulates_dsrl (hn : n ≤ 32) : Simulates (shift w .DoublewordShiftRightLogical n) R
    (set_gpr R (rd w) (get_gpr R 64 (rt w) >>> (sa w + n))) :=
  simulates_dshift (f := fun s k => s >>> k) hn (fun hd => ⟨inFile1 (rt w), inDest (rd w) hd⟩) rfl

theorem simulates_dsra (hn : n ≤ 32) : Simulates (shift w .DoublewordShiftRightArithmetic n) R
    (set_gpr R (rd w) ((get_gpr R 64 (rt w)).sshiftRight (sa w + n))) :=
  simulates_dshift (f := BitVec.sshiftRight) hn (fun hd => ⟨inFile1 (rt w), inDest (rd w) hd⟩) rfl

end

/-! ### Two registers -/

section
variable {w : Word} {R : Registers} {op : Opcode} {d s : BitVec 5} {v : BitVec 64} {same : Instruction}

/-- The register holds a word with its sign. -/
def Extended (R : Registers) (r : BitVec 5) : Prop := extend (get_gpr R 32 r) = get_gpr R 64 r

theorem simulates_move (hd : d ≠ 0) (hv : get_gpr R 64 s = v) : Simulates [move d s] R (set_gpr R d v) := by
  refine simulates_write hd ⟨inFile1 s, inDest d hd⟩ (congrArg (Function.update (file R) (dest d)) ?_)
  exact (read1 R s).trans hv

theorem register_read1 : file R (register w op).source_reg = get_gpr R 64 (rs w) := read1 R (rs w)

theorem register_read2 : file R (register w op).source2_reg = get_gpr R 64 (rt w) := read2 R (rt w)

theorem inFile_sources : InFile (register w op).source_reg ∧ InFile (register w op).source2_reg :=
  ⟨inFile1 (rs w), inFile2 (rt w)⟩

theorem simulates_register
    (hv : rd w ≠ 0 → Valid (register w op) (file R))
    (hm : meaning (register w op) (file R) = Function.update (file R) (dest (rd w)) v) (hd : rd w ≠ 0) :
    Simulates [register w op] R (set_gpr R (rd w) v) := simulates_write hd (hv hd) hm

/-- The sum with $zero is moved. -/
theorem simulates_addRegister (hzero : rs w = 0 ∨ rt w = 0 → rd w ≠ 0)
    (hleft : rs w = 0 → get_gpr R 64 (rt w) = v) (hright : rt w = 0 → get_gpr R 64 (rs w) = v)
    (hop : rd w ≠ 0 → Simulates [register w op] R (set_gpr R (rd w) v)) :
    Simulates (addRegister w op) R (set_gpr R (rd w) v) := by
  unfold addRegister
  by_cases hs : rs w = 0
  · rw [if_pos hs]
    exact simulates_move (hzero (Or.inl hs)) (hleft hs)
  · rw [if_neg hs]
    by_cases ht : rt w = 0
    · rw [if_pos ht]
      exact simulates_move (hzero (Or.inr ht)) (hright ht)
    · rw [if_neg ht]
      exact simulates_unlessZero hop

theorem simulates_sameRegister (hsame : rd w ≠ 0 → rs w = rt w → Simulates [same] R (set_gpr R (rd w) v))
    (hop : rd w ≠ 0 → Simulates [register w op] R (set_gpr R (rd w) v)) :
    Simulates (sameRegister w op same) R (set_gpr R (rd w) v) := by
  refine simulates_unlessZero fun hd => ?_
  by_cases hs : rs w = rt w
  · rw [if_pos hs]
    exact hsame hd hs
  · rw [if_neg hs]
    exact hop hd

theorem plus_zero (hz : get_gpr R 64 0 = 0) : v + get_gpr R 64 0 = v := by
  rw [hz]
  exact BitVec.add_zero v

/-- A sum of words. -/
theorem extend_sum (a b : BitVec 64) : extend (word (a + b)) = (a.setWidth 32 + b.setWidth 32).signExtend 64 :=
  congrArg extend (word_add a b)

theorem simulates_addu (hz : get_gpr R 64 0 = 0)
    (ha : rs w = 0 ∨ rt w = 0 → rd w ≠ 0 ∧ Extended R (rs w) ∧ Extended R (rt w)) :
    Simulates (addRegister w .AddWordReg) R (addu w R) := by
  refine simulates_addRegister (fun h => (ha h).1) (fun hs => ?_) (fun ht => ?_)
    (simulates_register (fun hd => ⟨inFile_sources, inDest (rd w) hd⟩)
      (congrArg (Function.update (file R) (dest (rd w))) ?_))
  · rw [← extend_sum, hs, zero_plus hz, word_get]
    exact (ha (Or.inl hs)).2.2.symm
  · rw [← extend_sum, ht, plus_zero hz, word_get]
    exact (ha (Or.inr ht)).2.1.symm
  · rw [← extend_sum]
    rw [register_read1, register_read2]

theorem simulates_daddu (hz : get_gpr R 64 0 = 0) (ha : rs w = 0 ∨ rt w = 0 → rd w ≠ 0) :
    Simulates (addRegister w .AddDoublewordReg) R (daddu w R) := by
  refine simulates_addRegister ha (fun hs => ?_) (fun ht => ?_)
    (simulates_register (fun hd => ⟨inFile_sources, inDest (rd w) hd⟩)
      (congrArg (Function.update (file R) (dest (rd w))) ?_))
  · rw [hs, zero_plus hz]
  · rw [ht, plus_zero hz]
  · rw [register_read1, register_read2]

theorem simulates_subu : Simulates (sameRegister w .SubWordReg (clear w .ClearWordReg)) R (subu w R) := by
  refine simulates_sameRegister (fun hd hs => ?_)
    (simulates_register (fun hd => ⟨inFile_sources, inDest (rd w) hd⟩)
      (congrArg (Function.update (file R) (dest (rd w))) ?_))
  · refine simulates_write hd (inDest (rd w) hd) (congrArg (Function.update (file R) (dest (rd w))) ?_)
    rw [hs, BitVec.sub_self]
    rfl
  · rw [register_read1, register_read2, word_sub, word_get, word_get]
    rfl

theorem simulates_dsubu :
    Simulates (sameRegister w .SubDoublewordReg (clear w .ClearDoublewordReg)) R (dsubu w R) := by
  refine simulates_sameRegister (fun hd hs => ?_)
    (simulates_register (fun hd => ⟨inFile_sources, inDest (rd w) hd⟩)
      (congrArg (Function.update (file R) (dest (rd w))) ?_))
  · refine simulates_write hd (inDest (rd w) hd) (congrArg (Function.update (file R) (dest (rd w))) ?_)
    rw [hs, BitVec.sub_self]
    rfl
  · rw [register_read1, register_read2]

theorem simulates_and : Simulates (sameRegister w .AndReg (move (rd w) (rs w))) R (and_ee w R) := by
  refine simulates_sameRegister (fun hd hs => simulates_move hd ?_)
    (simulates_register (fun hd => ⟨inFile_sources, inDest (rd w) hd⟩)
      (congrArg (Function.update (file R) (dest (rd w))) ?_))
  · rw [hs, BitVec.and_self]
  · rw [register_read1, register_read2]

theorem simulates_or : Simulates (sameRegister w .OrReg (move (rd w) (rs w))) R (or_ee w R) := by
  refine simulates_sameRegister (fun hd hs => simulates_move hd ?_)
    (simulates_register (fun hd => ⟨inFile_sources, inDest (rd w) hd⟩)
      (congrArg (Function.update (file R) (dest (rd w))) ?_))
  · rw [hs, BitVec.or_self]
  · rw [register_read1, register_read2]

theorem simulates_xor : Simulates (sameRegister w .XorReg (clear w .ClearDoublewordReg)) R (xor_ee w R) := by
  refine simulates_sameRegister (fun hd hs => ?_)
    (simulates_register (fun hd => ⟨inFile_sources, inDest (rd w) hd⟩)
      (congrArg (Function.update (file R) (dest (rd w))) ?_))
  · refine simulates_write hd (inDest (rd w) hd) (congrArg (Function.update (file R) (dest (rd w))) ?_)
    rw [hs, BitVec.xor_self]
    rfl
  · rw [register_read1, register_read2]

theorem simulates_null : Simulates [⟨.Null, 0, 0, 0⟩] R R :=
  ⟨⟨trivial, trivial⟩, rfl, fun _ => rfl, rfl⟩

theorem simulates_nor :
    Simulates (if rd w = 0 then [⟨.Null, 0, 0, 0⟩] else [register w .NorReg]) R (nor w R) := by
  by_cases hd : rd w = 0
  · rw [if_pos hd, nor, set_gpr, if_pos hd]
    exact simulates_null
  · rw [if_neg hd]
    refine simulates_register (fun hd => ⟨inFile_sources, inDest (rd w) hd⟩)
      (congrArg (Function.update (file R) (dest (rd w))) ?_) hd
    rw [register_read1, register_read2]

theorem simulates_slt (hd : rd w ≠ 0) : Simulates [register w .SetOnLessThan] R (slt w R) := by
  refine simulates_register (fun hd => ⟨inFile_sources, inDest (rd w) hd⟩)
    (congrArg (Function.update (file R) (dest (rd w))) ?_) hd
  rw [register_read1, register_read2, truth_flag]

theorem simulates_sltu (hd : rd w ≠ 0) : Simulates [register w .SetOnLessThanUnsigned] R (sltu w R) := by
  refine simulates_register (fun hd => ⟨inFile_sources, inDest (rd w) hd⟩)
    (congrArg (Function.update (file R) (dest (rd w))) ?_) hd
  rw [register_read1, register_read2, truth_flag]

/-! ### Conditional moves -/

/-- A register that keeps its value. -/
theorem simulates_kept (hv : Valid ⟨op, dest d, source (rt w), source (rs w)⟩ (file R))
    (hm : meaning ⟨op, dest d, source (rt w), source (rs w)⟩ (file R) =
      Function.update (file R) (dest d) (get_gpr R 64 d)) :
    Simulates [⟨op, dest d, source (rt w), source (rs w)⟩] R R := by
  refine ⟨⟨hv, trivial⟩, hm.trans ?_, fun _ => rfl, rfl⟩
  rw [← file_dest, Function.update_eq_self]

theorem simulates_movz (hz : get_gpr R 64 0 = 0) :
    Simulates (unlessZero (rd w) <|
      if rt w = 0 then move (rd w) (rs w)
      else ⟨.MoveConditionalOnZero, dest (rd w), source (rt w), source (rs w)⟩) R (movz w R) := by
  have hzero : rd w = 0 → movz w R = R := by
    intro hd
    unfold movz set_gpr
    rw [if_pos hd, ite_self]
  unfold unlessZero
  by_cases hd : rd w = 0
  · rw [if_pos hd, hzero hd]
    exact Simulates.nop
  rw [if_neg hd]
  by_cases ht : rt w = 0
  · rw [if_pos ht, movz, if_pos (ht ▸ hz)]
    exact simulates_move hd rfl
  rw [if_neg ht, movz]
  have hv : Valid ⟨.MoveConditionalOnZero, dest (rd w), source (rt w), source (rs w)⟩ (file R) :=
    ⟨⟨inFile1 (rt w), inFile2 (rs w)⟩, inDest (rd w) hd⟩
  by_cases hc : get_gpr R 64 (rt w) = 0
  · rw [if_pos hc]
    refine simulates_write hd hv (congrArg (Function.update (file R) (dest (rd w))) ?_)
    rw [read1, if_pos hc, read2]
  · rw [if_neg hc]
    refine simulates_kept hv (congrArg (Function.update (file R) (dest (rd w))) ?_)
    rw [read1, if_neg hc]
    exact file_dest R (rd w)

theorem simulates_movn (hz : get_gpr R 64 0 = 0) :
    Simulates (if rd w = 0 ∨ rt w = 0 then []
      else [⟨.MoveConditionalOnNotZero, dest (rd w), source (rt w), source (rs w)⟩]) R (movn w R) := by
  by_cases hn : rd w = 0 ∨ rt w = 0
  · rw [if_pos hn]
    have hkept : movn w R = R := by
      unfold movn set_gpr
      rcases hn with hd | ht
      · rw [if_pos hd, ite_self]
      · rw [ht, if_neg (not_not.2 hz)]
    rw [hkept]
    exact Simulates.nop
  rw [if_neg hn, movn]
  have hd : rd w ≠ 0 := fun h => hn (Or.inl h)
  have hv : Valid ⟨.MoveConditionalOnNotZero, dest (rd w), source (rt w), source (rs w)⟩ (file R) :=
    ⟨⟨inFile1 (rt w), inFile2 (rs w)⟩, inDest (rd w) hd⟩
  by_cases hc : get_gpr R 64 (rt w) = 0
  · rw [if_neg (not_not.2 hc)]
    refine simulates_kept hv (congrArg (Function.update (file R) (dest (rd w))) ?_)
    rw [read1, if_pos hc]
    exact file_dest R (rd w)
  · rw [if_pos hc]
    refine simulates_write hd hv (congrArg (Function.update (file R) (dest (rd w))) ?_)
    rw [read1, if_neg hc, read2]

end

/-! ### LO, HI and SA -/

section
variable {w : Word} {R R' : Registers} {d s : BitVec 5} {r : ℤ} {v : BitVec 64}

/-- One of `EE_SpecialReg`. -/
def IsSpecial (r : ℤ) : Prop := 32 ≤ r ∧ r < 37

instance (r : ℤ) : Decidable (IsSpecial r) := inferInstanceAs (Decidable (_ ∧ _))

theorem inFile_special (hr : IsSpecial r) : InFile r := by
  obtain ⟨h1, h2⟩ := hr
  exact ⟨by omega, h2⟩

theorem special_number (hr : IsSpecial r) : ((special_source r).setWidth 32).toInt = r := by
  obtain ⟨h1, h2⟩ := hr
  have h : r = 32 ∨ r = 33 ∨ r = 34 ∨ r = 35 ∨ r = 36 := by omega
  rcases h with rfl | rfl | rfl | rfl | rfl <;> rfl

/-- The general registers stay, and of the others one takes a value. -/
theorem file_special (hr : IsSpecial r) (hg : R'.gpr = R.gpr)
    (hs : ∀ i, IsSpecial i → file R' i = Function.update (file R) r v i) :
    file R' = Function.update (file R) r v := by
  funext i
  by_cases hi : IsSpecial i
  · exact hs i hi
  have hne : i ≠ r := fun h => hi (h ▸ hr)
  rw [Function.update_of_ne hne]
  cases i with
  | negSucc n => rfl
  | ofNat n =>
    change (if n < 32 then _ else _) = (if n < 32 then _ else _)
    by_cases hn : n < 32
    · rw [if_pos hn, if_pos hn]
      unfold get_gpr
      rw [hg]
    · rw [if_neg hn, if_neg hn]
      have hge : 37 ≤ n := by
        by_contra hlt
        exact hi ⟨Int.ofNat_le.2 (Nat.le_of_not_lt hn), Int.ofNat_lt.2 (Nat.lt_of_not_le hlt)⟩
      obtain ⟨k, rfl⟩ := Nat.exists_eq_add_of_le' hge
      rfl

theorem forall_special {P : ℤ → Prop} (hlo : P 32) (hlo1 : P 33) (hhi : P 34) (hhi1 : P 35) (hsa : P 36) :
    ∀ i, IsSpecial i → P i := by
  rintro i ⟨h1, h2⟩
  have h : i = 32 ∨ i = 33 ∨ i = 34 ∨ i = 35 ∨ i = 36 := by omega
  rcases h with rfl | rfl | rfl | rfl | rfl
  · exact hlo
  · exact hlo1
  · exact hhi
  · exact hhi1
  · exact hsa

theorem file_LO : file { R with LO := ⟨v, R.LO.hi⟩ } = Function.update (file R) EE_SpecialReg.LO v :=
  file_special (by decide) rfl (forall_special rfl rfl rfl rfl rfl)

theorem file_LO1 : file { R with LO := ⟨R.LO.lo, v⟩ } = Function.update (file R) EE_SpecialReg.LO1 v :=
  file_special (by decide) rfl (forall_special rfl rfl rfl rfl rfl)

theorem file_HI : file { R with HI := ⟨v, R.HI.hi⟩ } = Function.update (file R) EE_SpecialReg.HI v :=
  file_special (by decide) rfl (forall_special rfl rfl rfl rfl rfl)

theorem file_HI1 : file { R with HI := ⟨R.HI.lo, v⟩ } = Function.update (file R) EE_SpecialReg.HI1 v :=
  file_special (by decide) rfl (forall_special rfl rfl rfl rfl rfl)

theorem file_SA : file { R with SA := v } = Function.update (file R) EE_SpecialReg.SA v :=
  file_special (by decide) rfl (forall_special rfl rfl rfl rfl rfl)

theorem simulates_moveFrom (hd : d ≠ 0) (hr : IsSpecial r) :
    Simulates [moveFrom d r] R (set_gpr R d (file R r)) := by
  have hnum : (moveFrom d r).source_reg = r := special_number hr
  refine simulates_write hd ⟨?_, inDest d hd⟩ (congrArg (Function.update (file R) (dest d)) ?_)
  · rw [hnum]
    exact inFile_special hr
  · rw [hnum]

theorem inDest_special {op : Opcode} {s t : BitVec 64} (hr : IsSpecial r) : InDest ⟨op, r, s, t⟩ := by
  refine ⟨inFile_special hr, fun h => ?_⟩
  have h1 := hr.1
  change r = 0 at h
  omega

theorem simulates_moveTo (hr : IsSpecial r) (hg : R'.gpr = R.gpr)
    (hf : file R' = Function.update (file R) r (get_gpr R 64 s)) : Simulates [moveTo r s] R R' := by
  refine simulates_special ⟨inFile1 s, inDest_special hr⟩ ?_ hg
  rw [hf]
  exact congrArg (Function.update (file R) r) (read1 R s)

/-! ### Products and quotients -/

theorem file_set_LO_HI (a b : BitVec 64) (hi : Bool) :
    file (set_LO_HI R a b hi) = setLoHi hi (file R) (a, b) := by
  cases hi with
  | false =>
    change file { { R with LO := ⟨a, R.LO.hi⟩ } with HI := ⟨b, R.HI.hi⟩ } = _
    exact (file_HI (R := { R with LO := ⟨a, R.LO.hi⟩ })).trans
      (congrArg (fun g => Function.update g EE_SpecialReg.HI b) file_LO)
  | true =>
    change file { { R with LO := ⟨R.LO.lo, a⟩ } with HI := ⟨R.HI.lo, b⟩ } = _
    exact (file_HI1 (R := { R with LO := ⟨R.LO.lo, a⟩ })).trans
      (congrArg (fun g => Function.update g EE_SpecialReg.HI1 b) file_LO1)

theorem gpr_set_LO_HI (a b : BitVec 64) (hi : Bool) : (set_LO_HI R a b hi).gpr = R.gpr := by
  cases hi <;> rfl

theorem dest_eq_zero : dest d = 0 ↔ d = 0 := by
  refine ⟨fun h => BitVec.eq_of_toNat_eq ?_, fun h => h ▸ rfl⟩
  unfold dest at h
  rw [Int.natCast_eq_zero.1 h]
  rfl

/-- The words of a product, as the interpreter takes them. -/
theorem halves_eq (p : BitVec 64) :
    halves p = ((p.setWidth 32).signExtend 64, ((p >>> 32).setWidth 32).signExtend 64) := by
  have hlow : p.extractLsb' 0 32 = p.setWidth 32 := by
    ext i hi
    simp [BitVec.getElem_eq_testBit_toNat]
  have hhigh : p.extractLsb' 32 32 = (p >>> 32).setWidth 32 := by
    ext i hi
    simp [BitVec.getElem_eq_testBit_toNat]
  rw [halves, hlow, hhigh]
  rfl

theorem setProduct_eq (temp : BitVec 64) (hi : Bool) : setProduct w R temp hi =
    set_gpr (set_LO_HI R (halves temp).1 (halves temp).2 hi) (rd w) (halves temp).1 := by
  rw [halves_eq]
  cases hi <;> rfl

/-- LO and HI take the product, and the register takes LO. -/
theorem simulates_product {op : Opcode} {p : BitVec 64} (hi : Bool) (hv : Valid (register w op) (file R))
    (hm : meaning (register w op) (file R) = multiplied (register w op) (file R) hi p) :
    Simulates [register w op] R (setProduct w R p hi) := by
  rw [setProduct_eq]
  refine ⟨⟨hv, trivial⟩, hm.trans ?_, fun r => ?_, ?_⟩
  · unfold multiplied
    rw [← file_set_LO_HI (R := R) (halves p).1 (halves p).2 hi]
    by_cases hd : rd w = 0
    · rw [set_gpr, if_pos hd]
      exact if_pos (dest_eq_zero.2 hd)
    · rw [file_set_gpr _ _ _ hd]
      exact if_neg fun h => hd (dest_eq_zero.1 h)
  · rw [upper_set_gpr, gpr_set_LO_HI]
  · rw [zero_set_gpr]
    unfold get_gpr
    rw [gpr_set_LO_HI]

theorem simulates_mult {op : Opcode} (hi : Bool) (hv : Valid (register w op) (file R))
    (hm : meaning (register w op) (file R) = multiplied (register w op) (file R) hi
      (product (file R (register w op).source_reg) (file R (register w op).source2_reg))) :
    Simulates [register w op] R (mult w R hi) := by
  rw [register_read1, register_read2] at hm
  unfold product at hm
  rw [word_get, word_get] at hm
  exact simulates_product hi hv hm

theorem simulates_multu {op : Opcode} (hi : Bool) (hv : Valid (register w op) (file R))
    (hm : meaning (register w op) (file R) = multiplied (register w op) (file R) hi
      (productUnsigned (file R (register w op).source_reg) (file R (register w op).source2_reg))) :
    Simulates [register w op] R (multu w R hi) := by
  rw [register_read1, register_read2] at hm
  unfold productUnsigned at hm
  rw [word_get, word_get] at hm
  exact simulates_product hi hv hm

/-- The interpreter has the overflow as a case of its own. -/
theorem div_eq (hi : Bool) : div w R hi =
    set_LO_HI R (quotient (get_gpr R 32 (rs w)) (get_gpr R 32 (rt w))).1
      (quotient (get_gpr R 32 (rs w)) (get_gpr R 32 (rt w))).2 hi := by
  unfold div quotient
  generalize get_gpr R 32 (rs w) = a
  generalize get_gpr R 32 (rt w) = b
  by_cases hover : a = 0x80000000 ∧ b = 0xFFFFFFFF
  · obtain ⟨rfl, rfl⟩ := hover
    rfl
  · rw [if_neg hover]
    by_cases hb : b = 0
    · have hsign : (if (0 : BitVec 32).sle a then (-1 : BitVec 64) else 1) = if a.slt 0 then 1 else -1 := by
        rw [BitVec.sle_eq_not_slt]
        cases a.slt 0 <;> rfl
      simp only [hb, ne_eq, not_true_eq_false, if_false, if_true, hsign]
      rfl
    · simp only [hb, ne_eq, not_false_eq_true, if_false, if_true]
      rfl

theorem divu_eq (hi : Bool) : divu w R hi =
    set_LO_HI R (quotientUnsigned (get_gpr R 32 (rs w)) (get_gpr R 32 (rt w))).1
      (quotientUnsigned (get_gpr R 32 (rs w)) (get_gpr R 32 (rt w))).2 hi := by
  unfold divu quotientUnsigned
  by_cases hb : get_gpr R 32 (rt w) = 0
  · simp only [hb, ne_eq, not_true_eq_false, if_false, if_true]
    rfl
  · simp only [hb, ne_eq, not_false_eq_true, if_false, if_true]
    rfl

theorem simulates_quotient {op : Opcode} {q : BitVec 64 × BitVec 64} (hi : Bool)
    (hv : Valid ⟨op, 0, source (rs w), source (rt w)⟩ (file R))
    (hm : meaning ⟨op, 0, source (rs w), source (rt w)⟩ (file R) = setLoHi hi (file R) q) :
    Simulates [⟨op, 0, source (rs w), source (rt w)⟩] R (set_LO_HI R q.1 q.2 hi) :=
  simulates_special hv (hm.trans (file_set_LO_HI q.1 q.2 hi).symm) (gpr_set_LO_HI q.1 q.2 hi)

end

/-! ### SA -/

section
variable {w : Word} {R : Registers} {op : Opcode} {v imm : BitVec 64}

theorem simulates_changeSA (hv : Valid (changeSA op imm) (file R))
    (hm : meaning (changeSA op imm) (file R) = Function.update (file R) EE_SpecialReg.SA v) :
    Simulates [changeSA op imm] R { R with SA := v } :=
  simulates_special hv (hm.trans (Eq.symm file_SA)) rfl

theorem read_SA : file R (changeSA op imm).source_reg = R.SA := by
  have hnum : (changeSA op imm).source_reg = EE_SpecialReg.SA := special_number (by decide)
  rw [hnum]
  rfl

theorem inFile_SA : InFile (changeSA op imm).source_reg := by
  have hnum : (changeSA op imm).source_reg = EE_SpecialReg.SA := special_number (by decide)
  rw [hnum]
  decide

theorem simulates_xorSA (imm : BitVec 64) :
    Simulates [changeSA .XorImm imm] R { R with SA := R.SA ^^^ (imm.setWidth 16).setWidth 64 } := by
  refine simulates_changeSA ⟨inFile_SA, inDest_special (by decide)⟩
    (congrArg (Function.update (file R) EE_SpecialReg.SA) ?_)
  rw [read_SA]
  rfl

theorem simulates_andSA (imm : BitVec 64) :
    Simulates [changeSA .AndImm imm] R { R with SA := R.SA &&& (imm.setWidth 16).setWidth 64 } := by
  refine simulates_changeSA ⟨inFile_SA, inDest_special (by decide)⟩
    (congrArg (Function.update (file R) EE_SpecialReg.SA) ?_)
  rw [read_SA]
  rfl

theorem simulates_shiftSA :
    Simulates [changeSA .DoublewordShiftLeftLogical 1] R { R with SA := R.SA <<< 1 } := by
  refine simulates_changeSA ⟨inFile_SA, inDest_special (by decide)⟩
    (congrArg (Function.update (file R) EE_SpecialReg.SA) ?_)
  rw [read_SA]
  rfl

/-- The exclusive or is of the low bits, whether it is taken before or after the mask. -/
theorem xor_low {k : ℕ} (q : Quad) (hk : k ≤ 16) :
    (q.toNat % 2 ^ 64 ^^^ w.toNat % 2 ^ k) % 2 ^ k =
      (q.toNat % 2 ^ 32 % 2 ^ k) ^^^ (w.toNat % 2 ^ 16 % 2 ^ k) := by
  have h64 : 2 ^ k ∣ 2 ^ 64 := Nat.pow_dvd_pow 2 (by omega)
  have h32 : 2 ^ k ∣ 2 ^ 32 := Nat.pow_dvd_pow 2 (by omega)
  have h16 : 2 ^ k ∣ 2 ^ 16 := Nat.pow_dvd_pow 2 hk
  rw [Nat.xor_mod_two_pow, Nat.mod_mod_of_dvd _ h64, Nat.mod_mod_of_dvd _ h32, Nat.mod_mod_of_dvd _ h16,
    Nat.mod_mod]

theorem sab_value (q : Quad) :
    ((q.setWidth 64 ^^^ ((((w &&& 0xF).setWidth 64).setWidth 16).setWidth 64)) &&&
      (((0xF : BitVec 64).setWidth 16).setWidth 64)) =
      (((q.setWidth 32 &&& 0xF) ^^^ ((w.setWidth 16 &&& 0xF).setWidth 32)).setWidth 64) := by
  apply BitVec.eq_of_toNat_eq
  have hx := xor_low (w := w) (k := 4) q (by decide)
  have hb : (q.toNat % 2 ^ 32 % 2 ^ 4) ^^^ (w.toNat % 2 ^ 16 % 2 ^ 4) < 2 ^ 4 :=
    Nat.xor_lt_two_pow (Nat.mod_lt _ (by decide)) (Nat.mod_lt _ (by decide))
  have h15 : ∀ x : ℕ, x &&& 15 = x % 2 ^ 4 := fun x => Nat.and_two_pow_sub_one_eq_mod x 4
  simp only [BitVec.toNat_and, BitVec.toNat_xor, BitVec.toNat_setWidth, BitVec.reduceToNat, h15,
    Nat.reducePow, Nat.reduceMod] at hx hb ⊢
  have hw : w.toNat % 16 % 18446744073709551616 % 65536 % 18446744073709551616 = w.toNat % 16 := by omega
  have hw' : w.toNat % 65536 % 16 % 4294967296 = w.toNat % 65536 % 16 := by omega
  rw [hw, hw', hx]
  omega

theorem simulates_mtsab : Simulates [moveTo EE_SpecialReg.SA (rs w), changeSA .XorImm ((w &&& 0xF).setWidth 64),
    changeSA .AndImm 0xF] R (mtsab w R) := by
  have hmove : Simulates [moveTo EE_SpecialReg.SA (rs w)] R { R with SA := get_gpr R 64 (rs w) } :=
    simulates_moveTo (by decide) rfl file_SA
  have h := (hmove.append (simulates_xorSA ((w &&& 0xF).setWidth 64))).append (simulates_andSA 0xF)
  unfold mtsab set_SA get_gpr
  rw [← sab_value]
  exact h

theorem sah_value (q : Quad) :
    ((q.setWidth 64 ^^^ ((((w &&& 0x7).setWidth 64).setWidth 16).setWidth 64)) &&&
      (((0x7 : BitVec 64).setWidth 16).setWidth 64)) <<< 1 =
      ((((q.setWidth 32 &&& 0x7) ^^^ ((w.setWidth 16 &&& 0x7).setWidth 32)) * 2).setWidth 64) := by
  apply BitVec.eq_of_toNat_eq
  have hx := xor_low (w := w) (k := 3) q (by decide)
  have hb : (q.toNat % 2 ^ 32 % 2 ^ 3) ^^^ (w.toNat % 2 ^ 16 % 2 ^ 3) < 2 ^ 3 :=
    Nat.xor_lt_two_pow (Nat.mod_lt _ (by decide)) (Nat.mod_lt _ (by decide))
  have h7 : ∀ x : ℕ, x &&& 7 = x % 2 ^ 3 := fun x => Nat.and_two_pow_sub_one_eq_mod x 3
  simp only [BitVec.toNat_and, BitVec.toNat_xor, BitVec.toNat_setWidth, BitVec.reduceToNat, h7,
    BitVec.toNat_mul, BitVec.toNat_shiftLeft, Nat.shiftLeft_eq, Nat.reducePow, Nat.reduceMod] at hx hb ⊢
  have hw : w.toNat % 8 % 18446744073709551616 % 65536 % 18446744073709551616 = w.toNat % 8 := by omega
  have hw' : w.toNat % 65536 % 8 % 4294967296 = w.toNat % 65536 % 8 := by omega
  rw [hw, hw', hx]
  omega

theorem simulates_mtsah : Simulates [moveTo EE_SpecialReg.SA (rs w), changeSA .XorImm ((w &&& 0x7).setWidth 64),
    changeSA .AndImm 0x7, changeSA .DoublewordShiftLeftLogical 1] R (mtsah w R) := by
  have hmove : Simulates [moveTo EE_SpecialReg.SA (rs w)] R { R with SA := get_gpr R 64 (rs w) } :=
    simulates_moveTo (by decide) rfl file_SA
  have h := ((hmove.append (simulates_xorSA ((w &&& 0x7).setWidth 64))).append (simulates_andSA 0x7)).append
    simulates_shiftSA
  unfold mtsah set_SA get_gpr
  rw [← sah_value]
  exact h

end

/-! ### The tables -/

section
variable (w : Word) (R : Registers)

/-- A quotient by zero leaves the dividend extended. -/
def QuotientAgrees : Prop := get_gpr R 32 (rt w) = 0 → Extended R (rs w)

def AgreesSpecial : Prop :=
  match funct w with
  | 0x10 | 0x12 | 0x28 | 0x2A | 0x2B => rd w ≠ 0
  | 0x14 | 0x16 | 0x17 => rd w = 0 ∨ rt w ≠ 0
  | 0x1A => QuotientAgrees w R
  | 0x20 | 0x21 => rs w = 0 ∨ rt w = 0 → rd w ≠ 0 ∧ Extended R (rs w) ∧ Extended R (rt w)
  | 0x29 => get_gpr R 64 (rs w) &&& 0xF = get_gpr R 64 (rs w)
  | 0x2C | 0x2D => rs w = 0 ∨ rt w = 0 → rd w ≠ 0
  | _ => True

def AgreesMmi : Prop :=
  match funct w with
  | 0x10 | 0x12 => rd w ≠ 0
  | 0x1A => QuotientAgrees w R
  | _ => True

/-- Where the recompiler does what the interpreter does. It writes $zero in the cache if an instruction that it
does not check for this names it, it moves all 64 bits for a sum of words with $zero, it does not mask SA, and
with $zero it shifts the amount. -/
def Agrees : Prop :=
  match op w with
  | 0x00 => AgreesSpecial w R
  | 0x1C => AgreesMmi w R
  | _ => True

end

section
variable {w : Word} {R R' R'' : Registers} {instrs : List Instruction} {o : Option (List Instruction)}

theorem found (hs : Simulates instrs R R'') (h : some R'' = some R') :
    ∃ instrs', some instrs = some instrs' ∧ Simulates instrs' R R' :=
  ⟨instrs, rfl, Option.some.inj h ▸ hs⟩

theorem simulates_mthi : Simulates [moveTo EE_SpecialReg.HI (rs w)] R (mthi R (rs w)) :=
  simulates_moveTo (by decide) rfl file_HI

theorem simulates_mtlo : Simulates [moveTo EE_SpecialReg.LO (rs w)] R (mtlo R (rs w)) :=
  simulates_moveTo (by decide) rfl file_LO

theorem simulates_mthi1 : Simulates [moveTo EE_SpecialReg.HI1 (rs w)] R (mthi1 R (rs w)) :=
  simulates_moveTo (by decide) rfl file_HI1

theorem simulates_mtlo1 : Simulates [moveTo EE_SpecialReg.LO1 (rs w)] R (mtlo1 R (rs w)) :=
  simulates_moveTo (by decide) rfl file_LO1

theorem simulates_mtsa (ha : get_gpr R 64 (rs w) &&& 0xF = get_gpr R 64 (rs w)) :
    Simulates [moveTo EE_SpecialReg.SA (rs w)] R (mtsa R (rs w)) := by
  unfold mtsa
  rw [ha]
  exact simulates_moveTo (by decide) rfl file_SA

theorem valid_quotient {op : Opcode} (ha : QuotientAgrees w R) :
    word (file R (Instruction.source2_reg ⟨op, 0, source (rs w), source (rt w)⟩)) = 0 →
      extend (word (file R (Instruction.source_reg ⟨op, 0, source (rs w), source (rt w)⟩))) =
        file R (Instruction.source_reg ⟨op, 0, source (rs w), source (rt w)⟩) := by
  rw [read1, read2, word_get, word_get]
  exact ha

theorem source_lt {op : Opcode} {d : ℤ} {r : BitVec 5} {t : BitVec 64} :
    Instruction.source_reg ⟨op, d, source r, t⟩ < 32 := by
  rw [source_reg_eq, dest]
  have hr := r.isLt
  omega

theorem simulates_div (ha : QuotientAgrees w R) :
    Simulates [⟨.DivideWord, 0, source (rs w), source (rt w)⟩] R (div w R false) := by
  rw [div_eq]
  refine simulates_quotient false ⟨⟨inFile1 (rs w), inFile2 (rt w)⟩, source_lt, valid_quotient ha⟩
    (congrArg (setLoHi false (file R)) ?_)
  rw [read1, read2, word_get, word_get]

theorem simulates_div1 (ha : QuotientAgrees w R) :
    Simulates [⟨.DivideWord1, 0, source (rs w), source (rt w)⟩] R (div w R true) := by
  rw [div_eq]
  refine simulates_quotient true ⟨⟨inFile1 (rs w), inFile2 (rt w)⟩, source_lt, valid_quotient ha⟩
    (congrArg (setLoHi true (file R)) ?_)
  rw [read1, read2, word_get, word_get]

theorem simulates_divu :
    Simulates [⟨.DivideUnsignedWord, 0, source (rs w), source (rt w)⟩] R (divu w R false) := by
  rw [divu_eq]
  refine simulates_quotient false ⟨inFile1 (rs w), inFile2 (rt w)⟩ (congrArg (setLoHi false (file R)) ?_)
  rw [read1, read2, word_get, word_get]

theorem simulates_divu1 :
    Simulates [⟨.DivideUnsignedWord1, 0, source (rs w), source (rt w)⟩] R (divu w R true) := by
  rw [divu_eq]
  refine simulates_quotient true ⟨inFile1 (rs w), inFile2 (rt w)⟩ (congrArg (setLoHi true (file R)) ?_)
  rw [read1, read2, word_get, word_get]

theorem inFile_register {op : Opcode} : (InFile (register w op).source_reg ∧
    InFile (register w op).source2_reg) ∧ InFile (register w op).dest :=
  ⟨inFile_sources, inFile_dest (rd w)⟩

theorem simulates_op_special (hz : get_gpr R 64 0 = 0) (ha : AgreesSpecial w R)
    (h : Ee.Arithmetic.special w R = some R') :
    ∃ instrs, translate_op_special w = some instrs ∧ Simulates instrs R R' := by
  unfold Ee.Arithmetic.special at h
  unfold AgreesSpecial at ha
  unfold translate_op_special
  generalize funct w = n at h ha ⊢
  split at h
  · exact found simulates_sll h
  · exact found simulates_srl h
  · exact found simulates_sra h
  · exact found simulates_sllv h
  · exact found simulates_srlv h
  · exact found simulates_srav h
  · exact found (simulates_movz hz) h
  · exact found (simulates_movn hz) h
  · exact found (simulates_moveFrom ha (by decide)) h
  · exact found simulates_mthi h
  · exact found (simulates_moveFrom ha (by decide)) h
  · exact found simulates_mtlo h
  · exact found (simulates_dsllv ha) h
  · exact found (simulates_dsrlv ha) h
  · exact found (simulates_dsrav ha) h
  · exact found (simulates_mult false inFile_register rfl) h
  · exact found (simulates_multu false inFile_register rfl) h
  · exact found (simulates_div ha) h
  · exact found simulates_divu h
  · exact found (simulates_addu hz ha) h
  · exact found (simulates_addu hz ha) h
  · exact found simulates_subu h
  · exact found simulates_subu h
  · exact found simulates_and h
  · exact found simulates_or h
  · exact found simulates_xor h
  · exact found simulates_nor h
  · exact found (simulates_moveFrom ha (by decide)) h
  · exact found (simulates_mtsa ha) h
  · exact found (simulates_slt ha) h
  · exact found (simulates_sltu ha) h
  · exact found (simulates_daddu hz ha) h
  · exact found (simulates_daddu hz ha) h
  · exact found simulates_dsubu h
  · exact found simulates_dsubu h
  · exact found (simulates_dsll (by decide)) h
  · exact found (simulates_dsrl (by decide)) h
  · exact found (simulates_dsra (by decide)) h
  · exact found (simulates_dsll (by decide)) h
  · exact found (simulates_dsrl (by decide)) h
  · exact found (simulates_dsra (by decide)) h
  · cases h

theorem simulates_op_regimm (h : Ee.Arithmetic.regimm w R = some R') :
    ∃ instrs, translate_op_regimm w = some instrs ∧ Simulates instrs R R' := by
  unfold Ee.Arithmetic.regimm at h
  unfold translate_op_regimm
  generalize (rt w).toNat = n at h ⊢
  split at h
  · exact found simulates_mtsab h
  · exact found simulates_mtsah h
  · cases h

theorem simulates_op_mmi (ha : AgreesMmi w R) (h : Ee.Arithmetic.mmi w R = some R') :
    ∃ instrs, translate_op_mmi w = some instrs ∧ Simulates instrs R R' := by
  unfold Ee.Arithmetic.mmi at h
  unfold AgreesMmi at ha
  unfold translate_op_mmi
  generalize funct w = n at h ha ⊢
  split at h
  · exact found (simulates_moveFrom ha (by decide)) h
  · exact found simulates_mthi1 h
  · exact found (simulates_moveFrom ha (by decide)) h
  · exact found simulates_mtlo1 h
  · exact found (simulates_mult true inFile_register rfl) h
  · exact found (simulates_multu true inFile_register rfl) h
  · exact found (simulates_div1 ha) h
  · exact found simulates_divu1 h
  · cases h

/-- **An instruction becomes code with the meaning of its handler.** -/
theorem simulates_op (hz : get_gpr R 64 0 = 0) (ha : Agrees w R) (h : Ee.Arithmetic.compute w R = some R') :
    ∃ instrs, translate_op w = some instrs ∧ Simulates instrs R R' := by
  unfold Ee.Arithmetic.compute at h
  unfold Agrees at ha
  unfold translate_op
  generalize op w = n at h ha ⊢
  split at h
  · exact simulates_op_special hz ha h
  · exact simulates_op_regimm h
  · exact found (simulates_addiu hz) h
  · exact found (simulates_addiu hz) h
  · exact found simulates_slti h
  · exact found simulates_sltiu h
  · exact found simulates_andi h
  · exact found simulates_ori h
  · exact found simulates_xori h
  · exact found simulates_lui h
  · exact found (simulates_daddiu hz) h
  · exact found (simulates_daddiu hz) h
  · exact simulates_op_mmi ha h
  · cases h

end

/-! ### Blocks -/

/-- The interpreter goes through the instructions of a block. -/
def interpret (ws : List Word) (R : Registers) : Option Registers :=
  ws.foldlM (fun R w => Ee.Arithmetic.compute w R) R

/-- Every instruction agrees where it is reached. -/
def AgreesBlock : List Word → Registers → Prop
  | [], _ => True
  | w :: ws, R => Agrees w R ∧ ∀ R', Ee.Arithmetic.compute w R = some R' → AgreesBlock ws R'

section
variable {R R' : Registers} {instrs block : List Instruction} {w : Word} {ws : List Word}

theorem meaning_null {instr : Instruction} {g : File} (h : instr.op = .Null) : meaning instr g = g := by
  unfold meaning
  rw [h]

/-- The instructions that `translate` takes out mean nothing. -/
theorem meanings_filter (g : File) :
    meanings (instrs.filter fun instr => instr.op ≠ .Null) g = meanings instrs g := by
  induction instrs generalizing g with
  | nil => rfl
  | cons instr instrs ih =>
    change _ = meanings instrs (meaning instr g)
    by_cases h : instr.op = .Null
    · rw [List.filter_cons_of_neg (by simp [h]), ih, meaning_null h]
    · rw [List.filter_cons_of_pos (by simp [h])]
      exact ih (meaning instr g)

theorem validBlock_filter {g : File} (h : ValidBlock instrs g) :
    ValidBlock (instrs.filter fun instr => instr.op ≠ .Null) g := by
  induction instrs generalizing g with
  | nil => trivial
  | cons instr instrs ih =>
    have htail := ih h.2
    by_cases hn : instr.op = .Null
    · rw [List.filter_cons_of_neg (by simp [hn])]
      rwa [meaning_null hn] at htail
    · rw [List.filter_cons_of_pos (by simp [hn])]
      exact ⟨h.1, htail⟩

theorem Simulates.filter (h : Simulates instrs R R') :
    Simulates (instrs.filter fun instr => instr.op ≠ .Null) R R' :=
  ⟨validBlock_filter h.valid, (meanings_filter (file R)).trans h.result, h.upper, h.zero⟩

theorem translate_cons (hw : translate_op w = some instrs) (hws : translate ws = some block) :
    translate (w :: ws) = some ((instrs.filter fun instr => instr.op ≠ .Null) ++ block) := by
  obtain ⟨rest, hrest, rfl⟩ := Option.map_eq_some_iff.1 hws
  unfold translate
  rw [List.mapM_cons, hw, Option.bind_eq_bind, Option.bind_some, hrest, Option.bind_eq_bind, Option.bind_some,
    Option.pure_def, Option.map_some, List.flatten_cons, List.filter_append]

/-- The translation of a block does what the interpreter does with it. -/
theorem simulates_block (hz : get_gpr R 64 0 = 0) (ha : AgreesBlock ws R) (h : interpret ws R = some R') :
    ∃ block, translate ws = some block ∧ Simulates block R R' := by
  induction ws generalizing R with
  | nil =>
    cases h
    exact ⟨[], rfl, Simulates.nop⟩
  | cons w ws ih =>
    unfold interpret at h
    rw [List.foldlM_cons] at h
    obtain ⟨R₁, hw, hws⟩ := Option.bind_eq_some_iff.1 h
    obtain ⟨instrs, ht, hs⟩ := simulates_op hz ha.1 hw
    obtain ⟨block, htws, hsws⟩ := ih (hs.zero.trans hz) (ha.2 R₁ hw) hws
    exact ⟨_, translate_cons ht htws, hs.filter.append hsws⟩

end

/-! ### The registers in memory -/

/-- The memory of the host holds the registers: the fields that integer code works with, and the upper halves of
the general registers. -/
structure Image (L : Layout) (mem : Bytes) (R : Registers) : Prop where
  fields : ∀ r, InFile r → load 8 mem (L.place r) = (file R r).toNat
  upper : ∀ r : BitVec 5,
    load 8 mem (L.ee + L.gpr + r.toNat * 16 + 8) = ((R.gpr r).extractLsb' 64 64).toNat

section
variable {L : Layout} {m : Machine} {R R' : Registers} {ws : List Word}

theorem outside_upper (r : BitVec 5) {p : ℕ} (h : L.ee + L.gpr + r.toNat * 16 + 8 ≤ p)
    (h' : p < L.ee + L.gpr + r.toNat * 16 + 8 + 8) : Outside L p := by
  intro i hi
  have hr := r.isLt
  have h1 := L.gpr_LO
  have h2 := L.LO_HI
  have h3 := L.HI_SA
  rw [place_eq L hi]
  split_ifs <;> omega

/-- **The recompiled block does what the interpreter does.** A block of integer code is translated and
recompiled without an error, the code runs without an exception of the host, and afterwards the memory holds
the registers that the interpreter computes. No byte changes that is not one of a field of these. -/
theorem recompiled_as_interpreted (hbase : m.regs .R15 = BitVec.ofNat 64 L.ee) (hzero : get_gpr R 64 0 = 0)
    (himage : Image L m.mem R) (hagrees : AgreesBlock ws R) (hrun : interpret ws R = some R') :
    ∃ block C' code m', translate ws = some block ∧
      recompile_block L block Cache.reset = some ((), C', code) ∧ run exec 0 code m = some m' ∧
      Image L m'.mem R' ∧ ∀ p, Outside L p → m'.mem p = m.mem p := by
  obtain ⟨block, ht, hs⟩ := simulates_block hzero hagrees hrun
  have hz : file R 0 = 0 := (file_dest R 0).trans hzero
  obtain ⟨_, C', code, m', hc, hm, -, -, hmem, hf⟩ :=
    wp_recompile_block (ready_reset hbase hz himage.fields) hs.valid
  refine ⟨block, C', code, m', ht, hc, hm, ⟨fun r hr => ?_, fun r => ?_⟩, hf⟩
  · rw [hmem r hr, hs.result]
  · rw [hs.upper r, ← himage.upper r]
    exact load_congr fun p h h' => hf p (outside_upper r h h')

/-- All registers are zero. -/
def cleared : Registers :=
  ⟨fun _ => 0, ⟨0, 0⟩, ⟨0, 0⟩, 0,
    ⟨⟨false, false, false, false, false, false, false, false, false⟩, fun _ => 0, 0⟩⟩

theorem image_cleared : Image L (blank L).mem cleared := by
  refine ⟨fun r _ => ?_, fun r => ?_⟩
  · have hfile : file cleared r = 0 := by
      unfold file cleared
      split
      · rfl
      · split_ifs
        · rfl
        · split <;> rfl
    rw [hfile, load_blank]
    rfl
  · have hupper : ((0 : Quad).extractLsb' 64 64).toNat = 0 := by decide
    exact (load_blank L _).trans hupper.symm

/-- -7 is multiplied by 2. -/
theorem multiplied_block : ∃ block C' code m',
    translate [0x2405FFF9, 0x24060002, 0x00A63818] = some block ∧
      recompile_block compact block Cache.reset = some ((), C', code) ∧
      run exec 0 code (blank compact) = some m' ∧
      load 8 m'.mem (compact.place 7) = 2 ^ 64 - 14 := by
  obtain ⟨R', hR⟩ : ∃ R', interpret [0x2405FFF9, 0x24060002, 0x00A63818] cleared = some R' := ⟨_, rfl⟩
  have hvalue : (interpret [0x2405FFF9, 0x24060002, 0x00A63818] cleared).map (fun R => (file R 7).toNat) =
      some (2 ^ 64 - 14) := by decide
  obtain ⟨block, C', code, m', ht, hc, hrun, himage, -⟩ := @recompiled_as_interpreted compact
    (blank compact) cleared R' [0x2405FFF9, 0x24060002, 0x00A63818] rfl rfl image_cleared
    ⟨trivial, fun _ _ => ⟨trivial, fun _ _ => ⟨trivial, fun _ _ => trivial⟩⟩⟩ hR
  refine ⟨block, C', code, m', ht, hc, hrun, ?_⟩
  rw [hR, Option.map_some, Option.some_inj] at hvalue
  rw [himage.fields 7 (by decide), hvalue]

end

end DobieStation.EeJit.Translation
