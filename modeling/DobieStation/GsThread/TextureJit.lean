import DobieStation.GsThread.PixelJit

/-! # The code that looks up a texture

The translation of `recompile_tex_lookup` and of its helpers. R12 and R13 hold u and v, and R14 points to
the `TexLookupInfo`. -/

namespace DobieStation.GsThread

open Reg Xmm Instr

/-! ### `TexLookupInfo` -/

def vtxColorOffset : ℕ := 0
def texColorOffset : ℕ := 12
def mipmapLevelOffset : ℕ := 40
def texBaseOffset : ℕ := 44
def bufferWidthOffset : ℕ := 48
def texWidthOffset : ℕ := 52
def fogOffset : ℕ := 56

/-- The alpha of `tex_color`. -/
def texAlphaOffset : ℕ := texColorOffset + 6

def saveTexLookup : Code :=
  [PUSH RBP,
    SUB64_REG_IMM 0x100 RSP,
    MOV64_MR RSP RBP,
    MOVAPS_TO_MEM XMM0 RBP 0x00,
    MOVAPS_TO_MEM XMM1 RBP 0x10,
    MOV64_TO_MEM RBX RBP 0x20,
    MOV64_TO_MEM RDI RBP 0x28,
    MOV64_TO_MEM RSI RBP 0x30,
    MOV64_TO_MEM R10 RBP 0x38,
    MOV64_TO_MEM RDX RBP 0x40,
    MOVSX16_TO_32 R12 R12,
    MOVSX16_TO_32 R13 R13,
    SAR32_REG_IMM 4 R12,
    SAR32_REG_IMM 4 R13]

def restoreTexLookup : Code :=
  [MOVAPS_FROM_MEM RBP XMM0 0x00,
    MOVAPS_FROM_MEM RBP XMM1 0x10,
    MOV64_FROM_MEM RBP RBX 0x20,
    MOV64_FROM_MEM RBP RDI 0x28,
    MOV64_FROM_MEM RBP RSI 0x30,
    MOV64_FROM_MEM RBP R10 0x38,
    MOV64_FROM_MEM RBP RDX 0x40,
    ADD64_REG_IMM 0x100 RSP,
    POP RBP,
    RET]

/-- RBX = width - 1, R15 = height - 1, and the minimum of s and of t is 0. -/
def loadTexSize : Code :=
  [MOV32_FROM_MEM R14 RBX texWidthOffset,
    MOV32_REG RBX R15,
    AND32_REG_IMM 0xFFFF RBX,
    DEC32 RBX,
    SHR32_REG_IMM 16 R15,
    DEC32 R15,
    XOR32_REG RDX RDX,
    XOR32_REG R8 R8]

/-- The bounds of one coordinate in CLAMP, at the level of the texture. -/
def loadClamp (minimum maximum : Variable) (low high : Reg) : Code :=
  [MOV32_FROM_MEM R14 RCX mipmapLevelOffset,
    loadAddr minimum low,
    MOV32_FROM_MEM low low 0,
    AND32_REG_IMM 0xFFFF low,
    SHR32_CL low,
    XOR32_REG high high,
    loadAddr maximum high,
    MOV32_FROM_MEM high high 0,
    AND32_REG_IMM 0xFFFF high,
    SHR32_CL high]

/-- One coordinate is brought within its bounds. -/
def wrap (mode : BitVec 2) (low high coordinate : Reg) (noClampHi clampHiEnd noClampLo : Jump) : Code :=
  match mode with
  | 0x0 => [AND32_REG high coordinate]
  | 0x3 => [AND32_REG low coordinate, OR32_REG high coordinate]
  | _ =>
    [CMP32_REG high coordinate,
      JCC_NEAR_DEFERRED .LE noClampHi,
      MOV32_REG high coordinate,
      JMP_NEAR_DEFERRED clampHiEnd,
      DEST noClampHi,
      CMP32_REG low coordinate,
      JCC_NEAR_DEFERRED .GE noClampLo,
      MOV32_REG low coordinate,
      DEST noClampLo,
      DEST clampHiEnd]

/-- The address of the texture pixel is in RAX. -/
def addMemory : Code := [loadAddr .localMem RCX, ADD64_REG RCX RAX]

namespace DrawRegs

variable (r : DrawRegs)

def loadTexBounds : Code :=
  (if 2 ≤ r.ctx.clamp.wrapS.toNat then
    loadClamp (.clampMinU r.currentCtx) (.clampMaxU r.currentCtx) RDX RBX
  else []) ++
  (if 2 ≤ r.ctx.clamp.wrapT.toNat then
    loadClamp (.clampMinV r.currentCtx) (.clampMaxV r.currentCtx) R8 R15
  else [])

/-! ### Colors -/

/-- `recompile_convert_16bit_tex`. -/
def convert16bitTex (color temp temp2 : Reg) : Code :=
  [MOV32_REG color temp,
    AND32_REG_IMM 0x1F temp,
    SHL32_REG_IMM 3 temp,
    MOV32_REG temp temp2,
    MOV32_REG color temp,
    AND32_REG_IMM (0x1F <<< 5) temp,
    SHL32_REG_IMM 6 temp,
    OR32_REG temp temp2,
    MOV32_REG color temp,
    AND32_REG_IMM (0x1F <<< 10) temp,
    SHL32_REG_IMM 9 temp,
    OR32_REG temp temp2,
    TEST32_REG_IMM (1 <<< 15) color,
    JCC_NEAR_DEFERRED .NE .bitSetDest] ++
  (if r.TEXA.transBlack then
    [TEST32_REG_IMM 0xFFFF color,
      JCC_NEAR_DEFERRED .E .transDest,
      OR32_REG_IMM (r.TEXA.alpha0.toNat <<< 24) temp2,
      DEST .transDest]
  else [OR32_REG_IMM (r.TEXA.alpha0.toNat <<< 24) temp2]) ++
  [JMP_NEAR_DEFERRED .bitNotSetEnd,
    DEST .bitSetDest,
    OR32_REG_IMM (r.TEXA.alpha1.toNat <<< 24) temp2,
    DEST .bitNotSetEnd,
    MOV32_REG temp2 color]

/-- The palette entry with the index in RDI. -/
def clutEntry (shift : ℕ) : Code :=
  [loadAddr (.CLUTOffset r.currentCtx) RCX,
    MOV32_FROM_MEM RCX RCX 0,
    loadAddr .clutCache RAX,
    SHL32_REG_IMM shift RDI,
    ADD32_REG RDI RCX,
    AND32_REG_IMM 0x3FF RCX,
    ADD64_REG RCX RAX,
    MOV32_FROM_MEM RAX RAX 0]

def recompileClutLookup : Option Code :=
  match r.ctx.tex0.CLUTFormat with
  | 0x0 => some (r.clutEntry 2)
  | 0x1 => some (r.clutEntry 2)
  | 0x2 => some half
  | 0xA => some half
  | _ => none
where
  half : Code := r.clutEntry 1 ++ [AND32_EAX 0xFFFF] ++ r.convert16bitTex RAX RCX RDI

def recompileCsm2Lookup : Code :=
  [loadAddr .clutCache RAX,
    SHL32_REG_IMM 1 RDI,
    ADD64_REG RDI RAX,
    MOV32_FROM_MEM RAX RAX 0,
    AND32_EAX 0xFFFF] ++
  r.convert16bitTex RAX RDI RSI

def paletteLookup : Option Code :=
  if r.ctx.tex0.useCSM2 then some r.recompileCsm2Lookup else r.recompileClutLookup

/-! ### The formats -/

/-- A word of the texture, in `dest`. -/
def loadTexel (addr : AddrFunction) (dest : Reg) : Code :=
  jitCallFunc addr ++ addMemory ++ [MOV32_FROM_MEM RAX dest 0]

def wordFunction : AddrFunction :=
  if r.ctx.tex0.format &&& 0x30 ≠ 0 then .addrPSMCT32Z else .addrPSMCT32

def halfFunction : AddrFunction :=
  if r.ctx.tex0.format &&& 0x30 ≠ 0 then
    if r.ctx.tex0.format &&& 0x8 ≠ 0 then .addrPSMCT16SZ else .addrPSMCT16Z
  else
    if r.ctx.tex0.format &&& 0x8 ≠ 0 then .addrPSMCT16S else .addrPSMCT16

def texel24 : Code :=
  loadTexel r.wordFunction RAX ++
  [AND32_EAX 0xFFFFFF,
    MOV32_REG_IMM (r.TEXA.alpha0.toNat <<< 24) RDI] ++
  (if r.TEXA.transBlack then
    [OR32_REG RAX RDI,
      TEST32_EAX 0xFFFFFF,
      CMOVCC32_REG .NE RDI RAX]
  else [OR32_REG RDI RAX])

def texel16 : Code :=
  loadTexel r.halfFunction RAX ++ [AND32_EAX 0xFFFF] ++ r.convert16bitTex RAX RCX RSI

def index8 : Code := loadTexel .addrPSMCT8 RDI ++ [AND32_REG_IMM 0xFF RDI]

/-- "We do a 32-bit move as an 8-bit move converts EDI to BH." -/
def index4 : Code :=
  jitCallFunc .addrPSMCT4 ++
  [MOV32_REG RAX RCX,
    SHR32_REG_IMM 1 RAX,
    loadAddr .localMem RDI,
    ADD64_REG RDI RAX,
    MOV32_FROM_MEM RAX RDI 0,
    AND32_REG_IMM 0x1 RCX,
    SHL32_REG_IMM 2 RCX,
    SHR32_CL RDI,
    AND32_REG_IMM 0xF RDI]

def index8H : Code := loadTexel .addrPSMCT32 RDI ++ [SHR32_REG_IMM 24 RDI]

def index4HL : Code := index8H ++ [AND32_REG_IMM 0xF RDI]

def index4HH : Code := loadTexel .addrPSMCT32 RDI ++ [SHR32_REG_IMM 28 RDI]

/-- The color of the texture pixel, in RAX. -/
def loadTexture : Option Code :=
  match r.ctx.tex0.format with
  | 0x00 => some (loadTexel r.wordFunction RAX)
  | 0x30 => some (loadTexel r.wordFunction RAX)
  | 0x01 => some r.texel24
  | 0x31 => some r.texel24
  | 0x02 => some r.texel16
  | 0x0A => some r.texel16
  | 0x32 => some r.texel16
  | 0x3A => some r.texel16
  -- "Invalid texture format used by FFX"
  | 0x09 => some [MOV32_REG_IMM 0 RAX]
  | 0x13 => r.paletteLookup.map (index8 ++ ·)
  | 0x14 => r.paletteLookup.map (index4 ++ ·)
  | 0x1B => r.paletteLookup.map (index8H ++ ·)
  | 0x24 => r.paletteLookup.map (index4HL ++ ·)
  | 0x2C => r.paletteLookup.map (index4HH ++ ·)
  | _ => none

/-! ### The color of the pixel -/

def repack : Code :=
  [PACKUSWB XMM0 XMM0,
    PMOVZX8_TO_16 XMM0 XMM0,
    MOVQ_FROM_XMM XMM0 RAX]

def colorFunction : Code :=
  match r.ctx.tex0.colorFunction with
  | 0 => [PMULLW XMM1 XMM0, PSRLW 7 XMM0] ++ repack
  | 1 => [MOVQ_FROM_XMM XMM0 RAX]
  | _ =>
    [PMULLW XMM1 XMM0,
      PSRLW 7 XMM0,
      MOV64_MR RCX RDX,
      SHR64_REG_IMM 48 RDX,
      MOVQ_TO_XMM RDX XMM1,
      PSHUFLW 0 XMM1 XMM1,
      PADDW XMM1 XMM0] ++
    repack

/-- "((texcolor * fog) >> 8) + (((0xff - fog) * FOGCOL) >> 8)". -/
def recompileFog : Code :=
  if r.mode.fog then
    [MOV32_FROM_MEM R14 RBX fogOffset,
      AND32_REG_IMM 0xFF RBX,
      MOVQ_TO_XMM RBX XMM1,
      PSHUFLW 0 XMM1 XMM1,
      PMULLW XMM1 XMM0,
      PSRLW 8 XMM0,
      MOV64_MR RAX RDI,
      MOVQ_FROM_XMM XMM0 RAX,
      MOV32_REG_IMM 0xFF RDX,
      SUB32_REG RBX RDX,
      MOVQ_TO_XMM RDX XMM1,
      PSHUFLW 0 XMM1 XMM1,
      loadAddr .FOGCOL RBX,
      MOV64_FROM_MEM RBX RBX 0,
      MOVQ_TO_XMM RBX XMM0,
      PMULLW XMM1 XMM0,
      PSRLW 8 XMM0,
      MOVQ_TO_XMM RAX XMM1,
      PADDUSW XMM0 XMM1,
      MOVQ_FROM_XMM XMM1 RAX]
  else []

/-- The alpha is stored over the one of the color. -/
def storeAlpha : Code :=
  if !r.ctx.tex0.useAlpha then
    [SHR64_REG_IMM 48 RCX, MOV16_TO_MEM RCX R14 texAlphaOffset]
  else if r.ctx.tex0.colorFunction = 2 then
    [ADD64_REG RSI RCX, SHR64_REG_IMM 48 RCX, MOV16_TO_MEM RCX R14 texAlphaOffset]
  else if r.ctx.tex0.colorFunction = 3 then
    [SHR64_REG_IMM 48 RSI, MOV16_TO_MEM RSI R14 texAlphaOffset]
  else if r.mode.fog then
    [MOV64_MR RDI RBX, SHR64_REG_IMM 48 RBX, MOV16_TO_MEM RBX R14 texAlphaOffset]
  else []

def recompileTexLookup : Option Code := do
  let texture ← r.loadTexture
  pure (saveTexLookup ++
    (if r.mode.useUV then
      [MOV32_FROM_MEM R14 RCX mipmapLevelOffset, SAR32_CL R12, SAR32_CL R13]
    else []) ++
    loadTexSize ++ r.loadTexBounds ++
    wrap r.ctx.clamp.wrapS RDX RBX R12 .noClampHiS .clampHiEndS .noClampLoS ++
    wrap r.ctx.clamp.wrapT R8 R15 R13 .noClampHiT .clampHiEndT .noClampLoT ++
    [MOV32_FROM_MEM R14 RDI texBaseOffset,
      SHR32_REG_IMM 8 RDI,
      MOV32_FROM_MEM R14 RSI bufferWidthOffset,
      SHR32_REG_IMM 6 RSI,
      MOV32_REG R12 RDX,
      MOV32_REG R13 RCX] ++
    texture ++
    [MOVD_TO_XMM RAX XMM0,
      PMOVZX8_TO_16 XMM0 XMM0,
      MOVQ_FROM_XMM XMM0 RSI,
      MOV64_FROM_MEM R14 RCX vtxColorOffset,
      MOVQ_TO_XMM RCX XMM1] ++
    r.colorFunction ++ r.recompileFog ++
    [MOV64_TO_MEM RAX R14 texColorOffset] ++
    r.storeAlpha ++ restoreTexLookup)

end DrawRegs

end DobieStation.GsThread
