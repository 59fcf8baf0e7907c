import DobieStation.GsThread.Context

/-! # The emitter

What the JIT of the GS thread emits, an instruction for each call of `Emitter64`. A deferred jump has the
name of the variable that holds its place, and `DEST` is where `set_jump_dest` sets it to. -/

namespace DobieStation.GsThread

inductive ContextId where
  | context1 | context2
  deriving DecidableEq, Repr

inductive Reg where
  | RAX | RCX | RDX | RBX | RSP | RBP | RSI | RDI | R8 | R10 | R12 | R13 | R14 | R15
  deriving DecidableEq, Repr

inductive Xmm where
  | XMM0 | XMM1 | XMM2 | XMM3 | XMM4
  deriving DecidableEq, Repr

inductive ConditionCode where
  | E | NE | L | GE | LE | G
  deriving DecidableEq, Repr

/-- The functions that are called. -/
inductive AddrFunction where
  | addrPSMCT32 | addrPSMCT32Z | addrPSMCT16 | addrPSMCT16S | addrPSMCT16Z | addrPSMCT16SZ
  | addrPSMCT8 | addrPSMCT4
  deriving DecidableEq, Repr

/-- The variables whose addresses are in the code. -/
inductive Variable where
  | frameBasePointer (c : ContextId)
  | frameWidth (c : ContextId)
  | frameMask (c : ContextId)
  | zbufBasePointer (c : ContextId)
  | clampMinU (c : ContextId)
  | clampMaxU (c : ContextId)
  | clampMinV (c : ContextId)
  | clampMaxV (c : ContextId)
  | CLUTOffset (c : ContextId)
  | localMem
  | clutCache
  | andConst
  | FOGCOL
  deriving DecidableEq, Repr

inductive Jump where
  | scanmskSuccessDest | alphaTestSuccess | skipFrameLoad | passDestAlphaTest
  | noClamp | depthPassed | doNotUpdateZ | doNotUpdateRgba
  | pabeSuccess | pabeFailEnd | updateAlphaDest
  | noClampHiS | clampHiEndS | noClampLoS | noClampHiT | clampHiEndT | noClampLoT
  | bitSetDest | transDest | bitNotSetEnd
  deriving DecidableEq, Repr

/-- The operands are in the order of the emitter, the source first. -/
inductive Instr where
  -- the stack, calls and jumps
  | PUSH (reg : Reg)
  | POP (reg : Reg)
  | CALL_INDIR (reg : Reg)
  | RET
  | JCC_NEAR_DEFERRED (cc : ConditionCode) (jump : Jump)
  | JMP_NEAR_DEFERRED (jump : Jump)
  | DEST (jump : Jump)
  -- addresses
  | loadAddr (addr : Variable) (dest : Reg)
  | MOV64_OI (addr : AddrFunction) (dest : Reg)
  -- loads and stores
  | MOV32_FROM_MEM (source dest : Reg) (offset : ℕ)
  | MOV64_FROM_MEM (source dest : Reg) (offset : ℕ)
  | MOV16_TO_MEM (source dest : Reg) (offset : ℕ)
  | MOV32_TO_MEM (source dest : Reg) (offset : ℕ)
  | MOV64_TO_MEM (source dest : Reg) (offset : ℕ)
  | MOVAPS_FROM_MEM (source : Reg) (dest : Xmm) (offset : ℕ)
  | MOVAPS_TO_MEM (source : Xmm) (dest : Reg) (offset : ℕ)
  -- moves
  | MOV64_MR (source dest : Reg)
  | MOV32_REG (source dest : Reg)
  | MOV32_REG_IMM (imm : ℕ) (dest : Reg)
  | MOVSX16_TO_32 (source dest : Reg)
  | CMOVCC32_REG (cc : ConditionCode) (source dest : Reg)
  -- arithmetic and logic
  | ADD64_REG_IMM (imm : ℕ) (dest : Reg)
  | SUB64_REG_IMM (imm : ℕ) (dest : Reg)
  | ADD64_REG (source dest : Reg)
  | ADD32_REG (source dest : Reg)
  | SUB32_REG (source dest : Reg)
  | DEC32 (dest : Reg)
  | AND32_REG (source dest : Reg)
  | OR32_REG (source dest : Reg)
  | XOR32_REG (source dest : Reg)
  | NOT32 (dest : Reg)
  | AND32_REG_IMM (imm : ℕ) (dest : Reg)
  | AND32_EAX (imm : ℕ)
  | OR16_REG_IMM (imm : ℕ) (dest : Reg)
  | OR32_REG_IMM (imm : ℕ) (dest : Reg)
  -- shifts
  | SHL32_REG_IMM (shift : ℕ) (dest : Reg)
  | SHR32_REG_IMM (shift : ℕ) (dest : Reg)
  | SHR64_REG_IMM (shift : ℕ) (dest : Reg)
  | SAR32_REG_IMM (shift : ℕ) (dest : Reg)
  | SAR64_REG_IMM (shift : ℕ) (dest : Reg)
  | SHR32_CL (dest : Reg)
  | SAR32_CL (dest : Reg)
  -- comparisons
  | TEST8_REG_IMM (imm : ℕ) (op : Reg)
  | TEST32_REG_IMM (imm : ℕ) (op : Reg)
  | TEST32_EAX (imm : ℕ)
  | CMP32_EAX (imm : ℕ)
  | CMP32_IMM (imm : ℕ) (op : Reg)
  | CMP32_REG (op2 op1 : Reg)
  | CMP64_REG (op2 op1 : Reg)
  -- vectors
  | MOVD_TO_XMM (source : Reg) (dest : Xmm)
  | MOVQ_TO_XMM (source : Reg) (dest : Xmm)
  | MOVD_FROM_XMM (source : Xmm) (dest : Reg)
  | MOVQ_FROM_XMM (source : Xmm) (dest : Reg)
  | MOVAPS_REG (source dest : Xmm)
  | XORPS (source dest : Xmm)
  | PAND_XMM_FROM_MEM (source : Reg) (dest : Xmm)
  | PSHUFLW (imm : ℕ) (source dest : Xmm)
  | PMOVZX8_TO_16 (source dest : Xmm)
  | PMOVZX16_TO_32 (source dest : Xmm)
  | PACKUSWB (source dest : Xmm)
  | PACKSSDW (source dest : Xmm)
  | PADDW (source dest : Xmm)
  | PADDUSW (source dest : Xmm)
  | PSUBD (source dest : Xmm)
  | PMULLW (source dest : Xmm)
  | PMULLD (source dest : Xmm)
  | PSRLW (shift : ℕ) (dest : Xmm)
  | PSRAD (shift : ℕ) (dest : Xmm)
  deriving Repr

abbrev Code := List Instr

/-- A call with its arguments in RDI, RSI, RDX and RCX, and the result in RAX. -/
def jitCallFunc (addr : AddrFunction) : Code := [.MOV64_OI addr .RAX, .CALL_INDIR .RAX]

end DobieStation.GsThread
