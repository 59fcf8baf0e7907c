import DobieStation.GsThread.Registers
import DobieStation.Gs.LocalToHost

/-! # Palettes

`reload_clut` and the functions that look a color up in the cache of the palette, from `gsthread.cpp`. The
stores into the cache are recorded in `stores`, each with its address and its size; no function reads them. -/

namespace DobieStation.GsThread

open DobieStation.Gs.Model DobieStation.Lib.Memory

namespace DrawRegs

variable (r : DrawRegs)

def context : ContextId → GSContext
  | .context1 => r.context1
  | .context2 => r.context2

def setContext (k : ContextId) (c : GSContext) : DrawRegs :=
  match k with
  | .context1 => { r with context1 := c }
  | .context2 => { r with context2 := c }

end DrawRegs

/-- The setters put the number of a block here, as an address. -/
def Based (c : GSContext) : Prop := c.tex0.CLUTBase / 256 < 2 ^ 14 ∧ c.tex0.CLUTBase % 256 = 0

structure PaletteUnit where
  regs : DrawRegs
  clutCache : Bytes
  CBP0 : ℕ
  CBP1 : ℕ
  localMem : Bytes
  stores : List (ℕ × ℕ)
  based : ∀ k, Based (regs.context k)

/-- What a lookup gives. -/
structure TexColor where
  r : ℕ
  g : ℕ
  b : ℕ
  a : ℕ
  deriving DecidableEq, Repr

namespace Palette

variable (T : PageTables)

/-! ### The load -/

/-- The number of colors a texture of this format has. For other formats the larger one is loaded: "Okami
loads a new CLUT with a texture format of PSMCT32". -/
def entries (format : BitVec 6) : ℕ :=
  match format.toNat with
  | 0x13 | 0x1B => 256
  | 0x14 | 0x24 | 0x2C => 16
  | _ => 256

/-- Whether a palette is loaded, and CBP0 and CBP1 afterwards. -/
def control (CLUTControl : BitVec 3) (clutAddr CBP0 CBP1 : ℕ) : Bool × ℕ × ℕ :=
  match CLUTControl.toNat with
  | 1 => (true, CBP0, CBP1)
  | 2 => (true, clutAddr, CBP1)
  | 3 => (true, CBP0, clutAddr)
  | 4 => if clutAddr ≠ CBP0 then (true, clutAddr, CBP1) else (false, CBP0, CBP1)
  | 5 => if clutAddr ≠ CBP1 then (true, CBP0, clutAddr) else (false, CBP0, CBP1)
  | _ => (false, CBP0, CBP1)

/-- The cache while a palette is loaded. -/
structure Loading where
  clutCache : Bytes
  cacheAddr : ℕ
  stores : List (ℕ × ℕ)

/-- A value of `n` bytes is stored, and the next one will be behind it. -/
def Loading.put (n value : ℕ) (s : Loading) : Loading where
  clutCache := store n s.clutCache s.cacheAddr value
  cacheAddr := (s.cacheAddr + n) &&& 0x3FF
  stores := s.stores ++ [(s.cacheAddr, n)]

/-- The place of an entry in the first storage mode. -/
def position (count i : ℕ) : ℕ × ℕ :=
  if count = 256 then
    ((i &&& 0x7) + (if i &&& 0x10 ≠ 0 then 8 else 0), (i &&& 0xE0) / 0x10 + (if i &&& 0x8 ≠ 0 then 1 else 0))
  else (i &&& 0x7, (i / 8) &&& 0x1)

/-- One round of the loop. `currentBase` is the base in the current context. -/
def loadEntry (tex0 : TEX0) (currentBase : ℕ) (TEXCLUT : TEXCLUT_REG) (m : Bytes) (s : Loading) (i : ℕ) :
    Loading :=
  let count := entries tex0.format
  if tex0.useCSM2 then
    s.put 2 (readPSMCT16Block T currentBase TEXCLUT.width (TEXCLUT.x + (i &&& (count - 1))) TEXCLUT.y m)
  else
    let pos := position count i
    match tex0.CLUTFormat.toNat with
    | 0x00 | 0x01 => s.put 4 (readPSMCT32Block T.toTables tex0.CLUTBase 64 pos.1 pos.2 m)
    | 0x02 => s.put 2 (readPSMCT16Block T tex0.CLUTBase 64 pos.1 pos.2 m)
    | 0x0A => s.put 2 (readPSMCT16SBlock T tex0.CLUTBase 64 pos.1 pos.2 m)
    | _ => { s with cacheAddr := s.cacheAddr &&& 0x3FF }

/-- The first entry and the end of the loop. -/
def loadRange (tex0 : TEX0) : ℕ × ℕ :=
  let offset := tex0.CLUTOffset / (if tex0.CLUTFormat ≠ 0 then 2 else 4)
  let maxEntries := if tex0.CLUTFormat.toNat < 2 then 256 else 512
  (offset, min maxEntries (offset + entries tex0.format))

def loadEntries (tex0 : TEX0) (currentBase : ℕ) (TEXCLUT : TEXCLUT_REG) (m : Bytes) (s : Loading) : Loading :=
  (List.range' (loadRange tex0).1 ((loadRange tex0).2 - (loadRange tex0).1)).foldl
    (loadEntry T tex0 currentBase TEXCLUT m) s

def reloadClut (k : ContextId) (u : PaletteUnit) : PaletteUnit :=
  let tex0 := (u.regs.context k).tex0
  let c := control tex0.CLUTControl tex0.CLUTBase u.CBP0 u.CBP1
  if c.1 then
    let s := loadEntries T tex0 u.regs.ctx.tex0.CLUTBase u.regs.TEXCLUT u.localMem
      ⟨u.clutCache, tex0.CLUTOffset, u.stores⟩
    { u with
      clutCache := s.clutCache
      CBP0 := c.2.1
      CBP1 := c.2.2
      stores := s.stores }
  else { u with CBP0 := c.2.1, CBP1 := c.2.2 }

/-! ### The registers -/

/-- Both registers set the palette. -/
inductive TexReg where
  | TEX0 | TEX2
  deriving DecidableEq, Repr

def TexReg.set (t : TexReg) (value : DoubleWord) (c : GSContext) : GSContext :=
  match t with
  | .TEX0 => c.setTex0 value
  | .TEX2 => c.setTex2 value

theorem based_set (t : TexReg) (value : DoubleWord) (c : GSContext) : Based (t.set value c) := by
  have hblock : bitsOf value 37 14 < 2 ^ 14 := (value.extractLsb' 37 14).isLt
  have hbase : (t.set value c).tex0.CLUTBase = bitsOf value 37 14 * 64 * 4 := by cases t <;> rfl
  unfold Based
  rw [hbase]
  omega

theorem based_setContext {r : DrawRegs} (h : ∀ k, Based (r.context k)) (k : ContextId) {c : GSContext}
    (hc : Based c) : ∀ k', Based ((r.setContext k c).context k') := by
  intro k'
  cases k <;> cases k'
  · exact hc
  · exact h .context2
  · exact h .context1
  · exact hc

/-- The register of a context is written. -/
def setTex (k : ContextId) (t : TexReg) (value : DoubleWord) (u : PaletteUnit) : PaletteUnit :=
  { u with
    regs := u.regs.setContext k (t.set value (u.regs.context k))
    based := based_setContext u.based k (based_set t value _) }

def writeTex (k : ContextId) (t : TexReg) (value : DoubleWord) (u : PaletteUnit) : PaletteUnit :=
  reloadClut T k (setTex k t value u)

/-- The registers that may load a palette. -/
def write64 (addr : BitVec 32) (value : DoubleWord) (u : PaletteUnit) : PaletteUnit :=
  match (addr &&& 0x7F#32).toNat with
  | 0x0006 => writeTex T .context1 .TEX0 value u
  | 0x0007 => writeTex T .context2 .TEX0 value u
  | 0x0016 => writeTex T .context1 .TEX2 value u
  | 0x0017 => writeTex T .context2 .TEX2 value u
  | _ => u

/-! ### The lookup -/

def get16BitAlpha (TEXA : TEXA_REG) (color : ℕ) : ℕ :=
  if color.testBit 15 then TEXA.alpha1.toNat
  else if color &&& 0xFFFF = 0 ∧ TEXA.transBlack then 0
  else TEXA.alpha0.toNat

def color32 (color : ℕ) : TexColor where
  r := color &&& 0xFF
  g := (color >>> 8) &&& 0xFF
  b := (color >>> 16) &&& 0xFF
  a := color >>> 24

def color16 (TEXA : TEXA_REG) (color : ℕ) : TexColor where
  r := (color &&& 0x1F) <<< 3
  g := ((color >>> 5) &&& 0x1F) <<< 3
  b := ((color >>> 10) &&& 0x1F) <<< 3
  a := get16BitAlpha TEXA color

/-- Other formats are refused. -/
def clutLookup (entry : ℕ) (u : PaletteUnit) : Option TexColor :=
  let tex0 := u.regs.ctx.tex0
  match tex0.CLUTFormat.toNat with
  | 0x00 | 0x01 => some (color32 (load 4 u.clutCache ((tex0.CLUTOffset + entry <<< 2) &&& 0x3FF)))
  | 0x02 | 0x0A => some (color16 u.regs.TEXA (load 2 u.clutCache ((tex0.CLUTOffset + entry <<< 1) &&& 0x3FF)))
  | _ => none

def clutCSM2Lookup (entry : ℕ) (u : PaletteUnit) : TexColor :=
  color16 u.regs.TEXA (load 2 u.clutCache (entry <<< 1))

/-- As `tex_lookup` asks for the color of an entry. -/
def lookup (entry : ℕ) (u : PaletteUnit) : Option TexColor :=
  if u.regs.ctx.tex0.useCSM2 then some (clutCSM2Lookup entry u) else clutLookup entry u

end Palette

end DobieStation.GsThread
