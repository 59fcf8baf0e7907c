import DobieStation.GsThread.Registers

/-! # The code that draws a pixel

The translation of `recompile_draw_pixel` and of its helpers. R12 to R15 hold x, y, z and the color, and RBX
what must not be updated: the frame, z and alpha. `none` is the end of the emulation by `Errors::die`. -/

namespace DobieStation.GsThread

open Reg Xmm Instr

/-- `jit_epilogue_draw_pixel`. -/
def epilogueDrawPixel : Code :=
  [MOVAPS_FROM_MEM RBP XMM0 0x00,
    MOVAPS_FROM_MEM RBP XMM1 0x10,
    MOVAPS_FROM_MEM RBP XMM2 0x20,
    MOVAPS_FROM_MEM RBP XMM3 0x30,
    MOVAPS_FROM_MEM RBP XMM4 0x40,
    MOV64_FROM_MEM RBP RBX 0x50,
    MOV64_FROM_MEM RBP RDI 0x58,
    MOV64_FROM_MEM RBP RSI 0x60,
    ADD64_REG_IMM 0xF0 RSP,
    POP RBP,
    RET]

/-- The registers that the code uses are saved, and x and y lose their fractions. -/
def saveDrawPixel : Code :=
  [PUSH RBP,
    SUB64_REG_IMM 0xF0 RSP,
    MOV64_MR RSP RBP,
    MOVAPS_TO_MEM XMM0 RBP 0x00,
    MOVAPS_TO_MEM XMM1 RBP 0x10,
    MOVAPS_TO_MEM XMM2 RBP 0x20,
    MOVAPS_TO_MEM XMM3 RBP 0x30,
    MOVAPS_TO_MEM XMM4 RBP 0x40,
    MOV64_TO_MEM RBX RBP 0x50,
    MOV64_TO_MEM RDI RBP 0x58,
    MOV64_TO_MEM RSI RBP 0x60,
    SAR32_REG_IMM 4 R12,
    SAR32_REG_IMM 4 R13]

/-- The function with the address of a pixel in a buffer of this format. -/
def addrFunction : BitVec 6 → Option AddrFunction
  | 0x00 => some .addrPSMCT32
  | 0x01 => some .addrPSMCT32
  | 0x02 => some .addrPSMCT16
  | 0x0A => some .addrPSMCT16S
  | 0x30 => some .addrPSMCT32Z
  | 0x31 => some .addrPSMCT32Z
  | 0x32 => some .addrPSMCT16Z
  | 0x3A => some .addrPSMCT16SZ
  | _ => none

/-- The formats of 16 bits. -/
def isHalf : BitVec 6 → Bool
  | 0x02 => true
  | 0x0A => true
  | 0x32 => true
  | 0x3A => true
  | _ => false

namespace DrawRegs

variable (r : DrawRegs)

/-- A format of 24 bits. -/
def rgb24 : Bool := r.ctx.frame.format &&& 0x1 ≠ 0

/-- Drawing stops on odd or on even lines. -/
def recompileScanmsk : Code :=
  if 2 ≤ r.SCANMSK.toNat then
    [TEST8_REG_IMM 0x1 R13,
      JCC_NEAR_DEFERRED (if r.SCANMSK = 2 then .NE else .E) .scanmskSuccessDest] ++
    epilogueDrawPixel ++
    [DEST .scanmskSuccessDest]
  else []

/-! ### The alpha test -/

def alphaFailure : Code :=
  match r.ctx.test.alphaFailMethod with
  | 0 => epilogueDrawPixel
  | 1 => [OR16_REG_IMM 0x2 RBX]
  | 2 => [OR16_REG_IMM 0x5 RBX]
  | _ => [OR16_REG_IMM 0x6 RBX]

/-- The condition that passes, of the methods that compare. -/
def alphaCondition : ConditionCode :=
  match r.ctx.test.alphaMethod with
  | 2 => .L
  | 3 => .LE
  | 4 => .E
  | 5 => .GE
  | 6 => .G
  | _ => .NE

def recompileAlphaTest : Code :=
  if r.ctx.test.alphaMethod ≠ 0 then
    [MOV64_MR R15 RAX,
      SAR64_REG_IMM 48 RAX,
      CMP32_EAX r.ctx.test.alphaRef.toNat,
      JCC_NEAR_DEFERRED r.alphaCondition .alphaTestSuccess] ++
    r.alphaFailure ++
    [DEST .alphaTestSuccess]
  else r.alphaFailure

/-! ### The frame buffer -/

/-- The call for the address of the pixel in the buffer at `base`. -/
def callAddr (base : Variable) (addr : AddrFunction) : Code :=
  [loadAddr base RDI,
    MOV32_FROM_MEM RDI RDI 0,
    SAR32_REG_IMM 8 RDI,
    loadAddr (.frameWidth r.currentCtx) RSI,
    MOV32_FROM_MEM RSI RSI 0,
    SAR32_REG_IMM 6 RSI,
    MOV64_MR R12 RDX,
    MOV64_MR R13 RCX] ++
  jitCallFunc addr

/-- A pixel of 16 bits in RAX is expanded. -/
def expandPixel : Code :=
  [MOV32_REG RAX RCX,
    MOV32_REG RAX RDX,
    MOV32_REG RAX RSI,
    MOV32_REG RAX RDI,
    XOR32_REG RAX RAX,
    AND32_REG_IMM 0x1F RCX,
    AND32_REG_IMM (0x1F <<< 5) RDX,
    AND32_REG_IMM (0x1F <<< 10) RSI,
    AND32_REG_IMM (1 <<< 15) RDI,
    SHL32_REG_IMM 3 RCX,
    SHL32_REG_IMM 6 RDX,
    SHL32_REG_IMM 9 RSI,
    SHL32_REG_IMM 16 RDI,
    OR32_REG RCX RAX,
    OR32_REG RDX RAX,
    OR32_REG RSI RAX,
    OR32_REG RDI RAX]

/-- The frame pixel and its address are put on the stack. -/
def loadFrame (addr : AddrFunction) : Code :=
  r.callAddr (.frameBasePointer r.currentCtx) addr ++
  [loadAddr .localMem RCX,
    ADD64_REG RCX RAX,
    MOV64_TO_MEM RAX RBP 0xD0,
    MOV32_FROM_MEM RAX RAX 0] ++
  (if isHalf r.ctx.frame.format then expandPixel else []) ++
  [MOV32_TO_MEM RAX RBP 0xD8]

def recompileDestAlphaTest : Code :=
  if r.ctx.test.destAlphaTest && !r.rgb24 then
    [MOV32_FROM_MEM RBP RAX 0xD8,
      TEST32_EAX (1 <<< 31),
      JCC_NEAR_DEFERRED (if r.ctx.test.destAlphaMethod then .NE else .E) .passDestAlphaTest] ++
    epilogueDrawPixel ++
    [DEST .passDestAlphaTest]
  else []

/-- A pixel in R14 is written to the address in RCX. -/
def storeFrame : Code :=
  if isHalf r.ctx.frame.format then
    [MOV32_REG R14 RDX,
      AND32_REG_IMM 0x80000000 RDX,
      SHR32_REG_IMM 16 RDX,
      MOV32_REG R14 RAX,
      AND32_EAX 0x00F80000,
      SHR32_REG_IMM 9 RAX,
      OR32_REG RAX RDX,
      MOV32_REG R14 RAX,
      AND32_EAX 0x0000F800,
      SHR32_REG_IMM 6 RAX,
      OR32_REG RAX RDX,
      MOV32_REG R14 RAX,
      AND32_EAX 0x000000F8,
      SHR32_REG_IMM 3 RAX,
      OR32_REG RAX RDX,
      MOV16_TO_MEM RDX RCX 0]
  else [MOV32_TO_MEM R14 RCX 0]

/-! ### The depth test -/

def clampBound : Option ℕ :=
  if r.ctx.zbuf.format &&& 0x2 ≠ 0 then some 0xFFFF
  else if r.ctx.zbuf.format &&& 0x1 ≠ 0 then some 0xFFFFFF
  else none

def clampZ (bound : ℕ) : Code :=
  [CMP32_IMM bound R14,
    JCC_NEAR_DEFERRED .L .noClamp,
    MOV32_REG_IMM bound R14,
    DEST .noClamp]

/-- The comparison with the pixel at the address in RCX. -/
def compareZ : Code :=
  if r.ctx.test.depthMethod ≠ 1 then
    [MOV32_FROM_MEM RCX RAX 0] ++
    (match r.clampBound with
      | some bound => AND32_EAX bound :: clampZ bound
      | none => []) ++
    [CMP64_REG RAX R14,
      JCC_NEAR_DEFERRED (if r.ctx.test.depthMethod = 2 then .GE else .G) .depthPassed] ++
    epilogueDrawPixel ++
    [DEST .depthPassed]
  else
    match r.clampBound with
    | some bound => clampZ bound
    | none => []

def storeZ : Code :=
  match r.ctx.zbuf.format with
  | 0x00 => [MOV32_TO_MEM R14 RCX 0]
  | 0x30 => [MOV32_TO_MEM R14 RCX 0]
  | 0x01 => keepUpper
  | 0x31 => keepUpper
  | _ => [MOV16_TO_MEM R14 RCX 0]
where
  keepUpper : Code :=
    [MOV32_FROM_MEM RCX RAX 0,
      AND32_EAX 0xFF000000,
      AND32_REG_IMM 0xFFFFFF R14,
      OR32_REG RAX R14,
      MOV32_TO_MEM R14 RCX 0]

def updateZ : Code :=
  if r.ctx.zbuf.noUpdate then []
  else
    [TEST32_REG_IMM 0x2 RBX,
      JCC_NEAR_DEFERRED .NE .doNotUpdateZ] ++
    r.storeZ ++
    [DEST .doNotUpdateZ]

def recompileDepthTest : Option Code :=
  if r.ctx.test.depthMethod = 0 then some epilogueDrawPixel
  else if r.ctx.test.depthMethod = 1 && r.ctx.zbuf.noUpdate then some []
  else do
    let addr ← addrFunction r.ctx.zbuf.format
    pure (callDepth addr ++
      [loadAddr .localMem RCX,
        ADD64_REG RAX RCX] ++
      r.compareZ ++ r.updateZ)
where
  callDepth (addr : AddrFunction) : Code :=
    [loadAddr (.zbufBasePointer r.currentCtx) RDI,
      loadAddr (.frameWidth r.currentCtx) RSI,
      MOV32_FROM_MEM RDI RDI 0,
      MOV32_FROM_MEM RSI RSI 0,
      SAR32_REG_IMM 8 RDI,
      SAR32_REG_IMM 6 RSI,
      MOV64_MR R12 RDX,
      MOV64_MR R13 RCX] ++
    jitCallFunc addr

/-! ### Blending -/

/-- The color in R15 is packed into R14. -/
def packColor : Code :=
  [MOVQ_TO_XMM R15 XMM0,
    PACKUSWB XMM0 XMM0,
    MOVD_FROM_XMM XMM0 R14]

/-- "Per-pixel alpha blending. If alpha is less than 0x80, do not perform alpha blending." -/
def pabeTest : Code :=
  if r.PABE then
    [MOV64_MR R15 RAX,
      SHR64_REG_IMM 48 RAX,
      TEST32_EAX 0x80,
      JCC_NEAR_DEFERRED .NE .pabeSuccess] ++
    packColor ++
    [JMP_NEAR_DEFERRED .pabeFailEnd,
      DEST .pabeSuccess]
  else []

def frameColor : Code :=
  [MOV32_FROM_MEM RBP RAX 0xD8,
    MOVD_TO_XMM RAX XMM4,
    PMOVZX8_TO_16 XMM4 XMM4]

def blendA : Code :=
  match r.ctx.alpha.specA with
  | 0 => [MOVQ_TO_XMM R15 XMM0]
  | 1 => [MOVAPS_REG XMM4 XMM0]
  | _ => [XORPS XMM0 XMM0]

/-- "Zero. We can optimize by not emitting a sub in the blending operation." -/
def blendB : Code :=
  match r.ctx.alpha.specB with
  | 0 => [MOVQ_TO_XMM R15 XMM1]
  | 1 => [MOVAPS_REG XMM4 XMM1]
  | _ => []

def blendC : Code :=
  match r.ctx.alpha.specC with
  | 0 => [MOV64_MR R15 RAX, SHR64_REG_IMM 48 RAX]
  | 1 => if r.rgb24 then [MOV32_REG_IMM 0x80 RAX] else [SHR64_REG_IMM 24 RAX]
  | _ => [MOV32_REG_IMM r.ctx.alpha.fixedAlpha.toNat RAX]

/-- "Zero - we can optimize by not emitting an ADD instruction for D". -/
def blendD : Code :=
  match r.ctx.alpha.specD with
  | 0 => [MOVQ_TO_XMM R15 XMM3]
  | 1 => [MOVAPS_REG XMM4 XMM3]
  | _ => []

def blendProduct : Code :=
  if r.ctx.alpha.specB.toNat < 2 then
    [PMOVZX16_TO_32 XMM0 XMM0,
      PMOVZX16_TO_32 XMM1 XMM1,
      PMOVZX16_TO_32 XMM2 XMM2,
      PSUBD XMM1 XMM0,
      PMULLD XMM2 XMM0,
      PSRAD 7 XMM0,
      PACKSSDW XMM0 XMM0]
  else
    [PMULLW XMM2 XMM0,
      PSRLW 7 XMM0]

def addD : Code := if r.ctx.alpha.specD.toNat < 2 then [PADDW XMM3 XMM0] else []

def clampColor : Code :=
  if r.COLCLAMP then [] else [loadAddr .andConst RAX, PAND_XMM_FROM_MEM RAX XMM0]

/-- The blended color is in XMM0; its alpha is the one in R15. -/
def blendedColor : Code :=
  [PACKUSWB XMM0 XMM0,
    MOVD_FROM_XMM XMM0 R14,
    AND32_REG_IMM 0xFFFFFF R14,
    MOV64_MR R15 RAX,
    SHR64_REG_IMM 24 RAX,
    AND32_REG_IMM 0xFF000000 RAX,
    OR32_REG RAX R14]

def recompileAlphaBlend : Code :=
  r.pabeTest ++ frameColor ++ r.blendA ++ r.blendB ++ r.blendC ++
  [MOVD_TO_XMM RAX XMM2, PSHUFLW 0 XMM2 XMM2] ++
  r.blendD ++ r.blendProduct ++ r.addD ++ r.clampColor ++ blendedColor ++
  (if r.PABE then [DEST .pabeFailEnd] else [])

/-! ### The pixel -/

def recompileFBA : Code :=
  if r.ctx.FBA && !r.rgb24 then [OR32_REG_IMM 0x80000000 R14] else []

def recompileFBMASK : Code :=
  if r.ctx.frame.mask ≠ 0 then
    [MOV32_FROM_MEM RBP RAX 0xD8,
      loadAddr (.frameMask r.currentCtx) RCX,
      MOV32_FROM_MEM RCX RCX 0,
      AND32_REG RCX RAX,
      NOT32 RCX,
      AND32_REG RCX R14,
      OR32_REG RAX R14]
  else []

/-- The alpha of the frame pixel may have to stay. -/
def keepAlpha : Code :=
  [TEST32_REG_IMM 0x4 RBX,
    JCC_NEAR_DEFERRED .E .updateAlphaDest,
    MOV32_FROM_MEM RBP RDX 0xD8,
    AND32_REG_IMM 0x00FFFFFF R14,
    AND32_REG_IMM 0xFF000000 RDX,
    OR32_REG RDX R14,
    DEST .updateAlphaDest]

def drawColor : Code :=
  (if r.mode.alphaBlend then r.recompileAlphaBlend else packColor) ++
  r.recompileFBA ++ r.recompileFBMASK ++ keepAlpha ++
  [MOV64_FROM_MEM RBP RCX 0xD0] ++
  r.storeFrame

def updateMask : Code :=
  [XOR32_REG RBX RBX] ++
  (if r.rgb24 then [OR32_REG_IMM 0x4 RBX] else [])

def recompileFrame (addr : AddrFunction) : Code :=
  (if r.ctx.test.destAlphaTest then []
    else [TEST32_REG_IMM 0x1 RBX, JCC_NEAR_DEFERRED .NE .skipFrameLoad]) ++
  r.loadFrame addr ++ r.recompileDestAlphaTest ++
  (if r.ctx.test.destAlphaTest then [] else [DEST .skipFrameLoad])

def recompileDrawPixel : Option Code := do
  let addr ← addrFunction r.ctx.frame.format
  let depthTest ← if r.ctx.test.depthTest then r.recompileDepthTest else some []
  pure (saveDrawPixel ++ r.recompileScanmsk ++ r.updateMask ++
    (if r.ctx.test.alphaTest && r.ctx.test.alphaMethod ≠ 1 then r.recompileAlphaTest else []) ++
    r.recompileFrame addr ++ depthTest ++
    [TEST32_REG_IMM 0x1 RBX, JCC_NEAR_DEFERRED .NE .doNotUpdateRgba] ++
    r.drawColor ++
    [DEST .doNotUpdateRgba] ++
    epilogueDrawPixel)

end DrawRegs

end DobieStation.GsThread
