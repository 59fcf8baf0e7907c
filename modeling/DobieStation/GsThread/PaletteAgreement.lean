import DobieStation.Gs.Pages
import DobieStation.GsThread.PaletteLoad

/-! # Loads and lookups

A palette that TEX0 or TEX2 loads is looked up as it was in local memory, with two exceptions: a load in the
second storage mode reads at the base of the current context, which may be the other one, and a palette of 24
bits is not loaded into the second half of the cache, for the number of its first entry is computed with the
size of a half-word. -/

namespace DobieStation.GsThread.Palette

open DobieStation.Gs.Model DobieStation.Gs.Pages DobieStation.Lib.Memory

/-! ### What a lookup should give -/

/-- Where the entries of a palette are: a row of 8 by 2 for 16 entries, for 256 eight of these by two. -/
def arrangement (count e : ℕ) : ℕ × ℕ :=
  if count = 256 then (e % 8 + 8 * (e / 16 % 2), 2 * (e / 32) + e / 8 % 2) else (e % 8, e / 8)

/-- The color of an entry in local memory, if the format has one. -/
def entryColor (T : PageTables) (k : ContextId) (u : PaletteUnit) (e : ℕ) : Option TexColor :=
  let t := (u.regs.context k).tex0
  let TEXCLUT := u.regs.TEXCLUT
  let pos := arrangement (entries t.format) e
  if t.useCSM2 then
    some (color16 u.regs.TEXA
      (readPSMCT16Block T t.CLUTBase TEXCLUT.width (TEXCLUT.x + e) TEXCLUT.y u.localMem))
  else
    match t.CLUTFormat.toNat with
    | 0x00 | 0x01 => some (color32 (readPSMCT32Block T.toTables t.CLUTBase 64 pos.1 pos.2 u.localMem))
    | 0x02 => some (color16 u.regs.TEXA (readPSMCT16Block T t.CLUTBase 64 pos.1 pos.2 u.localMem))
    | 0x0A => some (color16 u.regs.TEXA (readPSMCT16SBlock T t.CLUTBase 64 pos.1 pos.2 u.localMem))
    | _ => none

/-- The context becomes the current one. -/
def makeCurrent (k : ContextId) (u : PaletteUnit) : PaletteUnit :=
  { u with regs := { u.regs with currentCtx := k }, based := u.based }

/-- The memory and the cache are exchanged for others, and no store has been made. -/
def overlay (m cache : Bytes) (u : PaletteUnit) : PaletteUnit :=
  { u with localMem := m, clutCache := cache, stores := [] }

/-- Whatever is in the memory and in the cache, the stores stay in the cache and lookups give the colors. -/
def Agrees (T : PageTables) (u : PaletteUnit) (k : ContextId) (r : TexReg) (value : DoubleWord) : Prop :=
  ∀ m cache : Bytes,
    let u₁ := setTex k r value (overlay m cache u)
    let u₂ := reloadClut T k u₁
    StoresFit u₂.stores ∧
    ∀ e < entries (u₁.regs.context k).tex0.format, ∃ color,
      entryColor T k u₁ e = some color ∧ lookup e (makeCurrent k u₂) = some color

/-! ### When it does -/

section

variable (u : PaletteUnit) (k : ContextId) (r : TexReg) (value : DoubleWord)

/-- The registers after the write. -/
def written : TEX0 := (r.set value (u.regs.context k)).tex0

/-- The write loads a palette. -/
def Loads : Prop :=
  (control (written u k r value).CLUTControl (written u k r value).CLUTBase u.CBP0 u.CBP1).1 = true

/-- The rounds of the loop are the entries. -/
def Covered (t : TEX0) : Prop :=
  if entries t.format = 16 then ¬(t.CLUTFormat = 1 ∧ 512 ≤ t.CLUTOffset)
  else t.CLUTOffset = 0 ∨ (2 ≤ t.CLUTFormat.toNat ∧ t.CLUTOffset = 512)

/-- In the second storage mode, both contexts have one base or the context is the current one. In the first
one, the format is known, and the rounds are the entries. -/
def LoadsWell : Prop :=
  let t := written u k r value
  if t.useCSM2 then u.regs.currentCtx = k ∨ u.regs.ctx.tex0.CLUTBase = t.CLUTBase
  else
    (t.CLUTFormat = 0 ∨ t.CLUTFormat = 1 ∨ t.CLUTFormat = 2 ∨ t.CLUTFormat = 0xA) ∧ Covered t

end

/-! ### A lookup after a load -/

/-- The color of a value. -/
def decode (t : TEX0) (TEXA : TEXA_REG) (value : ℕ) : TexColor :=
  if Wide t then color32 value else color16 TEXA value

/-- The value of an entry in local memory. -/
def entryValue (T : PageTables) (t : TEX0) (TEXCLUT : TEXCLUT_REG) (m : Bytes) (e : ℕ) : ℕ :=
  if t.useCSM2 then readPSMCT16Block T t.CLUTBase TEXCLUT.width (TEXCLUT.x + e) TEXCLUT.y m
  else pixelValue T t m (arrangement (entries t.format) e)

variable {T : PageTables} {u : PaletteUnit} {k : ContextId} {t : TEX0}

theorem entryColor_eq (ht : (u.regs.context k).tex0 = t) (hk : Known t) (e : ℕ) :
    entryColor T k u e = some (decode t u.regs.TEXA (entryValue T t u.regs.TEXCLUT u.localMem e)) := by
  unfold entryColor decode entryValue pixelValue Wide
  rw [ht]
  cases hcsm : t.useCSM2 with
  | true => simp [hcsm]
  | false =>
    rcases hk with h | h | h | h | h
    · exact absurd (hcsm.symm.trans h) (by decide)
    all_goals simp [h, hcsm]

theorem entryColor_unknown (ht : (u.regs.context k).tex0 = t) (hk : ¬Known t) (e : ℕ) :
    entryColor T k u e = none := by
  obtain ⟨hcsm, ⟨h0, h1⟩, h2, h10⟩ := not_known hk
  unfold entryColor
  simp only [ht, hcsm, Bool.false_eq_true, if_false]

theorem lookup_eq (ht : u.regs.ctx.tex0 = t) (hk : Known t) (hcsm2 : t.useCSM2 = true → t.CLUTOffset = 0)
    {e : ℕ} (he : e < 256) :
    lookup e u = some (decode t u.regs.TEXA
      (load (entrySize t) u.clutCache ((t.CLUTOffset + entrySize t * e) % 1024))) := by
  unfold lookup clutLookup clutCSM2Lookup decode entrySize Wide
  rw [ht]
  cases hcsm : t.useCSM2 with
  | true =>
    have haddr : e <<< 1 = (t.CLUTOffset + 2 * e) % 1024 := by
      rw [hcsm2 hcsm, Nat.shiftLeft_eq]
      omega
    simp [haddr]
  | false =>
    have h4 : (t.CLUTOffset + e <<< 2) &&& 0x3FF = (t.CLUTOffset + 4 * e) % 1024 := by
      rw [and_mask, Nat.shiftLeft_eq, Nat.mul_comm]
    have h2 : (t.CLUTOffset + e <<< 1) &&& 0x3FF = (t.CLUTOffset + 2 * e) % 1024 := by
      rw [and_mask, Nat.shiftLeft_eq, Nat.mul_comm]
    simp only [h4, h2]
    rcases hk with h | h | h | h | h
    · exact absurd (hcsm.symm.trans h) (by decide)
    all_goals simp [h]

/-! ### The write -/

section

variable (u : PaletteUnit) (k : ContextId) (r : TexReg) (value : DoubleWord)

/-- The base of the current context after the write. -/
def currentBase : ℕ := (setTex k r value u).regs.ctx.tex0.CLUTBase

theorem context_setTex : ((setTex k r value u).regs.context k).tex0 = written u k r value := by
  cases k <;> rfl

theorem ctx_makeCurrent : (makeCurrent k u).regs.ctx = u.regs.context k := by cases k <;> rfl

theorem TEXCLUT_setTex : (setTex k r value u).regs.TEXCLUT = u.regs.TEXCLUT := by cases k <;> rfl

theorem TEXA_setTex : (setTex k r value u).regs.TEXA = u.regs.TEXA := by cases k <;> rfl

/-- The values of the entries that are loaded. -/
def loaded (T : PageTables) (m : Bytes) (i : ℕ) : ℕ :=
  loadedValue T (written u k r value) (currentBase u k r value) u.regs.TEXCLUT m i

/-- The cache after the load, over what was in it. -/
def loadedCache (T : PageTables) (m cache : Bytes) : Bytes :=
  let t := written u k r value
  fill (entrySize t) (fun j => loaded u k r value T m ((loadRange t).1 + j)) t.CLUTOffset (rounds t) cache

variable {u k r value}

theorem reloadClut_known (hload : Loads u k r value) (hk : Known (written u k r value)) (m cache : Bytes) :
    let u₁ := setTex k r value (overlay m cache u)
    (reloadClut T k u₁).regs = u₁.regs ∧
    (reloadClut T k u₁).clutCache = loadedCache u k r value T m cache := by
  intro u₁
  have ht : (u₁.regs.context k).tex0 = written u k r value := context_setTex _ k r value
  have hcontrol : (control (u₁.regs.context k).tex0.CLUTControl (u₁.regs.context k).tex0.CLUTBase
      u₁.CBP0 u₁.CBP1).1 = true := by
    rw [ht]
    exact hload
  have hentries := loadEntries_eq T (u₁.regs.ctx.tex0.CLUTBase) u₁.regs.TEXCLUT m hk
    (offset_set r value (u.regs.context k)) cache []
  have hregs : u₁.regs.TEXCLUT = u.regs.TEXCLUT := TEXCLUT_setTex _ k r value
  unfold reloadClut
  simp only [hcontrol, if_true]
  rw [ht]
  refine ⟨trivial, (congrArg Loading.clutCache hentries).trans ?_⟩
  rw [hregs]
  rfl

theorem agrees_iff_values (hload : Loads u k r value) (hk : Known (written u k r value))
    (hcsm2 : (written u k r value).useCSM2 = true → (written u k r value).CLUTOffset = 0) :
    Agrees T u k r value ↔ ∀ m cache : Bytes, ∀ e < entries (written u k r value).format,
      decode (written u k r value) u.regs.TEXA
        (load (entrySize (written u k r value)) (loadedCache u k r value T m cache)
          (((written u k r value).CLUTOffset + entrySize (written u k r value) * e) % 1024)) =
      decode (written u k r value) u.regs.TEXA (entryValue T (written u k r value) u.regs.TEXCLUT m e) := by
  unfold Agrees
  refine forall₂_congr fun m cache => ?_
  obtain ⟨hregs, hcache⟩ := reloadClut_known (T := T) hload hk m cache
  have ht : ((setTex k r value (overlay m cache u)).regs.context k).tex0 = written u k r value :=
    context_setTex _ k r value
  have hbounds : StoresFit (reloadClut T k (setTex k r value (overlay m cache u))).stores :=
    storesFit_writeTex T k r value fun _ hs => absurd hs List.not_mem_nil
  refine Iff.trans (and_iff_right hbounds) ?_
  rw [ht]
  refine forall₂_congr fun e he => ?_
  have hlt : e < 256 := by
    rcases entries_cases (written u k r value).format with h | h <;> rw [h] at he <;> omega
  have hcur : (makeCurrent k (reloadClut T k (setTex k r value (overlay m cache u)))).regs.ctx.tex0 = written u k r value := by
    rw [ctx_makeCurrent, hregs]
    exact ht
  rw [entryColor_eq ht hk, lookup_eq hcur hk hcsm2 hlt]
  have hTEXA : ∀ v : PaletteUnit, (makeCurrent k v).regs.TEXA = v.regs.TEXA := fun _ => rfl
  rw [hTEXA, hregs, TEXA_setTex, TEXCLUT_setTex]
  show (∃ color, some _ = some color ∧ some (decode _ _ (load _ (reloadClut T k _).clutCache _)) = some color) ↔ _
  rw [hcache]
  simp only [Option.some.injEq, exists_eq_left']
  rfl

end

end DobieStation.GsThread.Palette
