import DobieStation.GsThread.Palette

/-! # What a load leaves in the cache

For the formats that are known, the loop of `reload_clut` stores values of one size one after the other
(`loadEntries_eq`), and the range it runs over keeps them inside the cache (`loadRange_fits`). -/

namespace DobieStation.GsThread.Palette

open DobieStation.Gs.Model DobieStation.Lib.Memory

theorem and_mask (a : ℕ) : a &&& 0x3FF = a % 1024 := Nat.and_two_pow_sub_one_eq_mod a 10

/-! ### The loop -/

theorem foldl_put {n a o N : ℕ} {v : ℕ → ℕ} {step : Loading → ℕ → Loading} {m : Bytes} {stores : List (ℕ × ℕ)}
    (hstep : ∀ s i, step s i = s.put n (v i)) (hn : 0 < n) (ha : a < 1024) (hfits : a + n * N ≤ 1024) :
    (List.range' o N).foldl step ⟨m, a, stores⟩ =
      ⟨fill n (fun j => v (o + j)) a N m, (a + n * N) % 1024,
        stores ++ (List.range N).map fun j => (a + n * j, n)⟩ := by
  induction N with
  | zero => simp [fill, Nat.mod_eq_of_lt ha]
  | succ N ih =>
    rw [Nat.mul_succ] at hfits
    rw [List.range'_1_concat, List.foldl_append, ih (by omega), Nat.mod_eq_of_lt (by omega),
      List.foldl_cons, List.foldl_nil, hstep, List.range_succ, List.map_append, ← List.append_assoc]
    unfold Loading.put
    rw [and_mask, Nat.mul_succ, ← Nat.add_assoc]
    rfl

/-- A loop that stores nothing. -/
theorem foldl_skip {step : Loading → ℕ → Loading} {s : Loading} (hs : s.cacheAddr < 1024)
    (hstep : ∀ s i, step s i = { s with cacheAddr := s.cacheAddr &&& 0x3FF }) (l : List ℕ) :
    l.foldl step s = s := by
  induction l with
  | nil => rfl
  | cons i l ih =>
    have hsame : step s i = s := by
      rw [hstep, and_mask, Nat.mod_eq_of_lt hs]
    rw [List.foldl_cons, hsame, ih]

/-! ### An entry -/

variable (T : PageTables)

/-- The formats that are loaded and looked up. -/
def Known (t : TEX0) : Prop :=
  t.useCSM2 = true ∨ t.CLUTFormat = 0 ∨ t.CLUTFormat = 1 ∨ t.CLUTFormat = 2 ∨ t.CLUTFormat = 0xA

/-- Colors of 32 bits. -/
def Wide (t : TEX0) : Bool := !t.useCSM2 && t.CLUTFormat.toNat < 2

def entrySize (t : TEX0) : ℕ := if Wide t then 4 else 2

/-- The value of the pixel that stands for a color, in a palette of the first storage mode. -/
def pixelValue (t : TEX0) (m : Bytes) (pos : ℕ × ℕ) : ℕ :=
  if Wide t then readPSMCT32Block T.toTables t.CLUTBase 64 pos.1 pos.2 m
  else if t.CLUTFormat = 2 then readPSMCT16Block T t.CLUTBase 64 pos.1 pos.2 m
  else readPSMCT16SBlock T t.CLUTBase 64 pos.1 pos.2 m

/-- The value that is stored in the round `i`. -/
def loadedValue (t : TEX0) (currentBase : ℕ) (TEXCLUT : TEXCLUT_REG) (m : Bytes) (i : ℕ) : ℕ :=
  if t.useCSM2 then
    readPSMCT16Block T currentBase TEXCLUT.width (TEXCLUT.x + (i &&& (entries t.format - 1))) TEXCLUT.y m
  else pixelValue T t m (position (entries t.format) i)

variable {t : TEX0} (hk : Known t) (currentBase : ℕ) (TEXCLUT : TEXCLUT_REG) (m : Bytes)

include hk in
theorem loadEntry_eq (s : Loading) (i : ℕ) : loadEntry T t currentBase TEXCLUT m s i =
    s.put (entrySize t) (loadedValue T t currentBase TEXCLUT m i) := by
  unfold loadEntry loadedValue entrySize pixelValue Wide
  cases hcsm : t.useCSM2 with
  | true => simp
  | false =>
    rcases hk with h | h | h | h | h
    · exact absurd (hcsm.symm.trans h) (by decide)
    all_goals simp [h]

theorem not_known (h : ¬Known t) : t.useCSM2 = false ∧
    (t.CLUTFormat.toNat ≠ 0 ∧ t.CLUTFormat.toNat ≠ 1) ∧ t.CLUTFormat.toNat ≠ 2 ∧ t.CLUTFormat.toNat ≠ 10 := by
  unfold Known at h
  simp only [not_or, Bool.not_eq_true] at h
  obtain ⟨hcsm, h0, h1, h2, h10⟩ := h
  have hne : ∀ b : BitVec 4, t.CLUTFormat ≠ b → t.CLUTFormat.toNat ≠ b.toNat :=
    fun b hb heq => hb (BitVec.eq_of_toNat_eq heq)
  exact ⟨hcsm, ⟨hne 0 h0, hne 1 h1⟩, hne 2 h2, hne 10 h10⟩

/-- A format that is not known is passed over. -/
theorem loadEntry_unknown (h : ¬Known t) (s : Loading) (i : ℕ) :
    loadEntry T t currentBase TEXCLUT m s i = { s with cacheAddr := s.cacheAddr &&& 0x3FF } := by
  obtain ⟨hcsm, ⟨h0, h1⟩, h2, h10⟩ := not_known h
  unfold loadEntry
  rw [hcsm]
  simp only [Bool.false_eq_true, if_false]

/-! ### The range -/

/-- The offset as the setters leave it. -/
def Offset (t : TEX0) : Prop :=
  if t.CLUTFormat.toNat < 2 then ∃ c < 16, t.CLUTOffset = 64 * c else ∃ c < 32, t.CLUTOffset = 32 * c

theorem offset_set (r : TexReg) (value : DoubleWord) (c : GSContext) : Offset (r.set value c).tex0 := by
  have hformat : (r.set value c).tex0.CLUTFormat = value.extractLsb' 51 4 := by cases r <;> rfl
  have hoffset : (r.set value c).tex0.CLUTOffset =
      if bitsOf value 51 4 < 2 then bitsOf value 56 4 * 16 * 4 else bitsOf value 56 5 * 16 * 2 := by
    cases r <;> rfl
  unfold Offset
  rw [hformat, hoffset]
  show if bitsOf value 51 4 < 2 then _ else _
  split
  · exact ⟨bitsOf value 56 4, (value.extractLsb' 56 4).isLt, by omega⟩
  · exact ⟨bitsOf value 56 5, (value.extractLsb' 56 5).isLt, by omega⟩

theorem entries_cases (format : BitVec 6) : entries format = 16 ∨ entries format = 256 := by
  unfold entries
  split <;> simp

theorem format_ne_zero (f : BitVec 4) : f ≠ 0 ↔ f.toNat ≠ 0 :=
  not_congr ⟨fun h => h ▸ rfl, fun h => BitVec.eq_of_toNat_eq h⟩

/-- The rounds of the loop. -/
def rounds (t : TEX0) : ℕ := (loadRange t).2 - (loadRange t).1

/-- No round goes beyond the end of the cache. -/
theorem loadRange_fits (ho : Offset t) : t.CLUTOffset + entrySize t * rounds t ≤ 1024 := by
  have hsize : entrySize t ≤ if t.CLUTFormat.toNat < 2 then 4 else 2 := by
    unfold entrySize Wide
    cases t.useCSM2 <;> by_cases h : t.CLUTFormat.toNat < 2 <;> simp [h]
  have hmul : entrySize t * rounds t ≤ (if t.CLUTFormat.toNat < 2 then 4 else 2) * rounds t :=
    Nat.mul_le_mul_right _ hsize
  refine (Nat.add_le_add_left hmul _).trans ?_
  unfold Offset at ho
  unfold rounds loadRange
  simp only [format_ne_zero]
  rcases entries_cases t.format with he | he <;> rw [he] <;> split at ho <;> obtain ⟨c, hc, hoff⟩ := ho <;>
    rw [hoff] <;> by_cases h0 : t.CLUTFormat.toNat ≠ 0 <;> simp [*] <;> omega

theorem offset_lt (ho : Offset t) : t.CLUTOffset < 1024 := by
  unfold Offset at ho
  split at ho <;> obtain ⟨c, hc, hoff⟩ := ho <;> omega

theorem loadEntries_eq (hk : Known t) (ho : Offset t) (cache : Bytes) (stores : List (ℕ × ℕ)) :
    loadEntries T t currentBase TEXCLUT m ⟨cache, t.CLUTOffset, stores⟩ =
      ⟨fill (entrySize t) (fun j => loadedValue T t currentBase TEXCLUT m ((loadRange t).1 + j)) t.CLUTOffset
        (rounds t) cache, (t.CLUTOffset + entrySize t * rounds t) % 1024,
        stores ++ (List.range (rounds t)).map fun j => (t.CLUTOffset + entrySize t * j, entrySize t)⟩ := by
  have hpos : 0 < entrySize t := by
    unfold entrySize
    split <;> decide
  exact foldl_put (loadEntry_eq T hk currentBase TEXCLUT m) hpos (offset_lt ho) (loadRange_fits ho)

theorem loadEntries_unknown (hk : ¬Known t) (ho : Offset t) (cache : Bytes) (stores : List (ℕ × ℕ)) :
    loadEntries T t currentBase TEXCLUT m ⟨cache, t.CLUTOffset, stores⟩ = ⟨cache, t.CLUTOffset, stores⟩ :=
  foldl_skip (offset_lt ho) (loadEntry_unknown T currentBase TEXCLUT m hk) _

/-! ### Runs -/

/-- Every store is inside the cache. -/
def StoresFit (stores : List (ℕ × ℕ)) : Prop := ∀ s ∈ stores, s.1 + s.2 ≤ 1024

theorem storesFit_loadEntries (ho : Offset t) (cache : Bytes) {stores : List (ℕ × ℕ)} (h : StoresFit stores) :
    StoresFit (loadEntries T t currentBase TEXCLUT m ⟨cache, t.CLUTOffset, stores⟩).stores := by
  by_cases hk : Known t
  · rw [loadEntries_eq T currentBase TEXCLUT m hk ho]
    rintro s hs
    rcases List.mem_append.mp hs with hs | hs
    · exact h s hs
    · obtain ⟨j, hj, rfl⟩ := List.mem_map.mp hs
      have hfits := loadRange_fits ho
      have hmul := Nat.mul_le_mul_left (entrySize t) (List.mem_range.mp hj)
      rw [Nat.mul_succ] at hmul
      show t.CLUTOffset + entrySize t * j + entrySize t ≤ 1024
      omega
  · rw [loadEntries_unknown T currentBase TEXCLUT m hk ho]
    exact h

theorem storesFit_reloadClut (k : ContextId) {u : PaletteUnit} (ho : Offset (u.regs.context k).tex0)
    (h : StoresFit u.stores) : StoresFit (reloadClut T k u).stores := by
  unfold reloadClut
  dsimp only
  split
  · exact storesFit_loadEntries T _ _ _ ho _ h
  · exact h

theorem storesFit_writeTex (k : ContextId) (r : TexReg) (value : DoubleWord) {u : PaletteUnit}
    (h : StoresFit u.stores) : StoresFit (writeTex T k r value u).stores := by
  refine storesFit_reloadClut T k ?_ h
  cases k <;> exact offset_set r value _

theorem storesFit_write64 (addr : BitVec 32) (value : DoubleWord) {u : PaletteUnit} (h : StoresFit u.stores) :
    StoresFit (write64 T addr value u).stores := by
  unfold write64
  split
  · exact storesFit_writeTex T .context1 .TEX0 value h
  · exact storesFit_writeTex T .context2 .TEX0 value h
  · exact storesFit_writeTex T .context1 .TEX2 value h
  · exact storesFit_writeTex T .context2 .TEX2 value h
  · exact h

/-- Whatever is written to the registers, no store is outside of the cache. -/
theorem storesFit_run (writes : List (BitVec 32 × DoubleWord)) {u : PaletteUnit} (h : StoresFit u.stores) :
    StoresFit (writes.foldl (fun u w => write64 T w.1 w.2 u) u).stores := by
  induction writes generalizing u with
  | nil => exact h
  | cons w writes ih => exact ih (storesFit_write64 T w.1 w.2 h)

end DobieStation.GsThread.Palette
