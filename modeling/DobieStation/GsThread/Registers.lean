import DobieStation.GsThread.Emitter
import DobieStation.Lib.BitFields

/-! # The drawing registers of the GS thread

The registers that say how a primitive is drawn, and the two keys that are computed from them: a block of
the JIT is found by the key of the registers it was compiled for. A number of floating point is kept as its
bits. -/

namespace DobieStation.GsThread

open DobieStation.Lib.BitFields

structure PRMODE_REG where
  gourandShading : Bool
  textureMapping : Bool
  fog : Bool
  alphaBlend : Bool
  antialiasing : Bool
  useUV : Bool
  useContext2 : Bool
  fixFragmentValue : Bool
  deriving DecidableEq, Repr

structure RGBAQ_REG where
  r : BitVec 8
  g : BitVec 8
  b : BitVec 8
  a : BitVec 8
  q : BitVec 32
  deriving DecidableEq, Repr

structure UV_REG where
  u : BitVec 16
  v : BitVec 16
  deriving DecidableEq, Repr

structure ST_REG where
  s : BitVec 32
  t : BitVec 32
  deriving DecidableEq, Repr

structure TEXA_REG where
  alpha0 : BitVec 8
  alpha1 : BitVec 8
  transBlack : Bool
  deriving DecidableEq, Repr

structure TEXCLUT_REG where
  width : ℕ
  x : ℕ
  y : ℕ
  deriving DecidableEq, Repr

structure FOGCOL_REG where
  r : BitVec 8
  g : BitVec 8
  b : BitVec 8
  deriving DecidableEq, Repr

/-- Where the drawing environment is taken from: the value of `current_PRMODE`. -/
inductive ModeId where
  | PRIM | PRMODE
  deriving DecidableEq, Repr

structure DrawRegs where
  context1 : GSContext
  context2 : GSContext
  currentCtx : ContextId
  primType : BitVec 3
  FOG : BitVec 8
  PRIM : PRMODE_REG
  PRMODE : PRMODE_REG
  currentPRMODE : ModeId
  RGBAQ : RGBAQ_REG
  UV : UV_REG
  ST : ST_REG
  TEXA : TEXA_REG
  TEXCLUT : TEXCLUT_REG
  DTHE : Bool
  COLCLAMP : Bool
  FOGCOL : FOGCOL_REG
  PABE : Bool
  SCANMSK : BitVec 2
  ditherMtx : List (BitVec 3)
  deriving DecidableEq, Repr

namespace DrawRegs

variable (r : DrawRegs)

/-- `*current_ctx`. -/
def ctx : GSContext :=
  match r.currentCtx with
  | .context1 => r.context1
  | .context2 => r.context2

/-- `*current_PRMODE`. -/
def mode : PRMODE_REG :=
  match r.currentPRMODE with
  | .PRIM => r.PRIM
  | .PRMODE => r.PRMODE

/-! ### The keys -/

def flag (start : ℕ) (b : Bool) : Field := ⟨start, BitVec.ofBool b⟩

/-- What `update_draw_pixel_state` puts into the key. -/
def drawPixelFields : List Field :=
  [⟨0, r.ctx.test.alphaRef⟩,
    flag 8 r.ctx.test.alphaTest,
    ⟨9, r.ctx.test.alphaMethod⟩,
    ⟨12, r.ctx.test.alphaFailMethod⟩,
    flag 14 r.ctx.test.depthTest,
    ⟨15, r.ctx.test.depthMethod⟩,
    flag 17 r.ctx.test.destAlphaTest,
    flag 18 r.ctx.test.destAlphaMethod,
    ⟨19, r.ctx.frame.format⟩,
    flag 25 r.mode.alphaBlend,
    flag 26 r.PABE,
    ⟨27, r.ctx.alpha.specA⟩,
    ⟨29, r.ctx.alpha.specB⟩,
    ⟨31, r.ctx.alpha.specC⟩,
    ⟨33, r.ctx.alpha.specD⟩,
    flag 34 r.DTHE,
    flag 35 r.COLCLAMP,
    ⟨36, r.ctx.zbuf.format⟩,
    ⟨42, r.SCANMSK⟩,
    flag 44 r.ctx.zbuf.noUpdate,
    ⟨45, r.ctx.alpha.fixedAlpha⟩,
    flag 53 (r.currentPRMODE = .PRIM),
    flag 54 (r.currentCtx = .context1),
    flag 55 (r.ctx.frame.mask ≠ 0),
    flag 56 r.ctx.FBA]

/-- What `update_tex_lookup_state` puts into the key. -/
def texLookupFields : List Field :=
  [flag 0 (r.currentPRMODE = .PRIM),
    flag 1 r.mode.useUV,
    flag 2 r.ctx.tex1.filterLarger,
    ⟨3, r.ctx.tex1.filterSmaller⟩,
    ⟨6, r.ctx.clamp.wrapS⟩,
    ⟨8, r.ctx.clamp.wrapT⟩,
    ⟨10, r.ctx.tex0.format⟩,
    ⟨16, r.TEXA.alpha0⟩,
    ⟨24, r.TEXA.alpha1⟩,
    flag 32 r.TEXA.transBlack,
    flag 33 r.ctx.tex0.useCSM2,
    ⟨34, r.ctx.tex0.CLUTFormat⟩,
    flag 38 (r.currentCtx = .context1),
    ⟨39, r.ctx.tex0.colorFunction⟩,
    flag 41 r.ctx.tex0.useAlpha,
    flag 42 r.mode.fog]

def drawPixelState : ℕ := word r.drawPixelFields

def texLookupState : ℕ := word r.texLookupFields

end DrawRegs

end DobieStation.GsThread
