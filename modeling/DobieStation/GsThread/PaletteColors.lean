import DobieStation.GsThread.PaletteAgreement

/-! # When loads and lookups agree

Every entry is loaded from its place, and looked up where it was stored, exactly if the base is that of the
write and the rounds of the loop are the entries (`palette_agrees_iff`). In every other case there is a memory that
shows the difference. -/

namespace DobieStation.GsThread.Palette

open DobieStation.Gs.Model DobieStation.Gs.Pages DobieStation.Lib.Memory

/-! ### The rounds and the entries -/

/-- The places repeat after 256 rounds. -/
theorem position_mod (i : ℕ) : position 256 i = position 256 (i % 256) := by
  have hand : ∀ c : ℕ, c = 255 &&& c → i &&& c = i % 256 &&& c := by
    intro c hc
    rw [show i % 256 = i &&& 255 from (Nat.and_two_pow_sub_one_eq_mod i 8).symm, Nat.and_assoc, ← hc]
  unfold position
  rw [hand 0x7 rfl, hand 0x10 rfl, hand 0xE0 rfl, hand 0x8 rfl, if_pos rfl, if_pos rfl]

theorem position_arrangement : ∀ e < 256, position 256 e = arrangement 256 e := by decide +kernel

theorem position_sixteen {o e : ℕ} (ho : o % 16 = 0) (he : e < 16) :
    position 16 (o + e) = arrangement 16 e := by
  have h7 : (o + e) &&& 0x7 = (o + e) % 8 := Nat.and_two_pow_sub_one_eq_mod _ 3
  have h1 : (o + e) / 8 &&& 0x1 = (o + e) / 8 % 2 := Nat.and_two_pow_sub_one_eq_mod _ 1
  show ((o + e) &&& 0x7, (o + e) / 8 &&& 0x1) = (e % 8, e / 8)
  rw [h7, h1, show (o + e) % 8 = e % 8 by omega, show (o + e) / 8 % 2 = e / 8 by omega]

theorem position_large {o e : ℕ} (ho : o % 256 = 0) (he : e < 256) :
    position 256 (o + e) = arrangement 256 e := by
  rw [position_mod, show (o + e) % 256 = e by omega]
  exact position_arrangement e he

variable {t : TEX0}

/-- The first round and the number of rounds, in terms of the format and the offset. -/
theorem rounds_eq : rounds t = min (if t.CLUTFormat.toNat < 2 then 256 else 512)
      (t.CLUTOffset / (if t.CLUTFormat.toNat = 0 then 4 else 2) + entries t.format) -
        t.CLUTOffset / (if t.CLUTFormat.toNat = 0 then 4 else 2) ∧
    (loadRange t).1 = t.CLUTOffset / (if t.CLUTFormat.toNat = 0 then 4 else 2) := by
  unfold rounds loadRange
  simp only [format_ne_zero, ne_eq, ite_not, and_self]

theorem toNat_eq_one (f : BitVec 4) : f = 1 ↔ f.toNat = 1 :=
  ⟨fun h => h ▸ rfl, fun h => BitVec.eq_of_toNat_eq h⟩

theorem covered_zero (h : t.CLUTOffset = 0) : Covered t := by
  unfold Covered
  split
  · rintro ⟨-, h512⟩
    omega
  · exact Or.inl h

theorem Covered.rounds_eq (ho : Offset t) (hc : Covered t) : rounds t = entries t.format := by
  have h := (Palette.rounds_eq (t := t)).1
  unfold Covered at hc
  unfold Offset at ho
  rw [toNat_eq_one] at hc
  rw [h]
  by_cases hlt : t.CLUTFormat.toNat < 2 <;> simp only [hlt, if_true, if_false] at ho ⊢ <;>
    obtain ⟨c, hc', hoff⟩ := ho <;> rw [hoff] at hc ⊢ <;>
    rcases entries_cases t.format with he | he <;> simp only [he] at hc ⊢ <;>
    by_cases h0 : t.CLUTFormat.toNat = 0 <;> simp only [h0, if_true, if_false] at hc ⊢ <;> simp at hc <;> omega

theorem Covered.position_eq (ho : Offset t) (hc : Covered t) {e : ℕ} (he : e < entries t.format) :
    position (entries t.format) ((loadRange t).1 + e) = arrangement (entries t.format) e := by
  have h := (Palette.rounds_eq (t := t)).2
  unfold Covered at hc
  unfold Offset at ho
  rw [toNat_eq_one] at hc
  rcases entries_cases t.format with hn | hn <;> rw [hn] at he ⊢ <;> simp only [hn] at hc <;> rw [h]
  · refine position_sixteen ?_ he
    split at ho <;> obtain ⟨c, hc', hoff⟩ := ho <;> rw [hoff] <;> split <;> omega
  · refine position_large ?_ he
    simp only [show ¬(256 : ℕ) = 16 by decide, if_false] at hc
    rcases hc with hc | ⟨hf, hc⟩ <;> rw [hc]
    · simp
    · rw [if_neg (by omega : ¬t.CLUTFormat.toNat = 0)]

/-- Otherwise there are too few rounds, or they begin at another entry. -/
theorem not_covered (ho : Offset t) (hc : ¬Covered t) : rounds t < entries t.format ∨
    (entries t.format = 256 ∧ 2 ≤ t.CLUTFormat.toNat ∧ ∃ c < 15, (loadRange t).1 = 16 * (c + 1)) := by
  have hr := (Palette.rounds_eq (t := t)).1
  have hl := (Palette.rounds_eq (t := t)).2
  unfold Covered at hc
  unfold Offset at ho
  rw [toNat_eq_one] at hc
  rw [hr, hl]
  by_cases hlt : t.CLUTFormat.toNat < 2 <;> simp only [hlt, if_true, if_false] at ho ⊢ <;>
    obtain ⟨c, hc', hoff⟩ := ho <;> rw [hoff] at hc ⊢
  · left
    rcases entries_cases t.format with he | he <;> simp only [he] at hc ⊢ <;>
      by_cases h0 : t.CLUTFormat.toNat = 0 <;> simp only [h0, if_true, if_false] at hc ⊢ <;> simp at hc <;> omega
  · rw [if_neg (by omega : ¬t.CLUTFormat.toNat = 0)]
    rcases entries_cases t.format with he | he <;> simp only [he] at hc ⊢ <;> simp at hc
    · omega
    · by_cases hc16 : c ≤ 16
      · exact Or.inr ⟨trivial, by omega, c - 1, by omega, by omega⟩
      · exact Or.inl (by omega)

/-! ### The values -/

section

variable {u : PaletteUnit} {k : ContextId} {r : TexReg} {value : DoubleWord} {T : PageTables}

theorem currentBase_eq : currentBase u k r value =
    if u.regs.currentCtx = k then (written u k r value).CLUTBase else u.regs.ctx.tex0.CLUTBase := by
  unfold currentBase
  cases k <;> cases hcur : u.regs.currentCtx <;>
    simp [setTex, DrawRegs.setContext, DrawRegs.ctx, DrawRegs.context, written, hcur]

theorem loadedValue_lt (base : ℕ) (TEXCLUT : TEXCLUT_REG) (m : Bytes) (i : ℕ) :
    loadedValue T t base TEXCLUT m i < 256 ^ entrySize t := by
  unfold loadedValue pixelValue entrySize
  cases hcsm : t.useCSM2 with
  | true =>
    have hwide : Wide t = false := by simp [Wide, hcsm]
    simp only [hwide, if_true, Bool.false_eq_true, if_false]
    exact load_lt
  | false =>
    simp only [Bool.false_eq_true, if_false]
    split
    · exact load_lt
    · split
      · exact load_lt
      · exact load_lt

theorem offset_written (u : PaletteUnit) (k : ContextId) (r : TexReg) (value : DoubleWord) :
    Offset (written u k r value) := offset_set r value (u.regs.context k)

theorem entrySize_cases (t : TEX0) : entrySize t = 4 ∨ entrySize t = 2 := by
  unfold entrySize
  split <;> simp

/-- An entry is found where it was stored. -/
theorem load_loaded (m cache : Bytes) {e : ℕ} (he : e < rounds (written u k r value)) :
    load (entrySize (written u k r value)) (loadedCache u k r value T m cache)
      (((written u k r value).CLUTOffset + entrySize (written u k r value) * e) % 1024) =
    loaded u k r value T m ((loadRange (written u k r value)).1 + e) := by
  have hfits := loadRange_fits (offset_written u k r value)
  have hin : (written u k r value).CLUTOffset + entrySize (written u k r value) * e < 1024 := by
    rcases entrySize_cases (written u k r value) with h | h <;> rw [h] at hfits ⊢ <;> omega
  rw [Nat.mod_eq_of_lt hin]
  exact (load_fill he).trans (Nat.mod_eq_of_lt (loadedValue_lt _ _ _ _))

theorem loaded_eq (hcsm2 : (written u k r value).useCSM2 = true → (written u k r value).CLUTOffset = 0)
    (hw : LoadsWell u k r value) (m : Bytes) {e : ℕ} (he : e < entries (written u k r value).format) :
    loaded u k r value T m ((loadRange (written u k r value)).1 + e) =
      entryValue T (written u k r value) u.regs.TEXCLUT m e := by
  unfold loaded loadedValue entryValue
  unfold LoadsWell at hw
  cases hcsm : (written u k r value).useCSM2 with
  | true =>
    simp only [hcsm, if_true] at hw ⊢
    have hbase : currentBase u k r value = (written u k r value).CLUTBase := by
      rw [currentBase_eq]
      split
      · rfl
      · exact hw.resolve_left ‹_›
    have hfirst : (loadRange (written u k r value)).1 = 0 := by
      rw [rounds_eq.2, hcsm2 hcsm, Nat.zero_div]
    have hmask : ∀ n, e < 2 ^ n → e &&& (2 ^ n - 1) = e := fun n hn => by
      rw [Nat.and_two_pow_sub_one_eq_mod, Nat.mod_eq_of_lt hn]
    have hand : e &&& (entries (written u k r value).format - 1) = e := by
      rcases entries_cases (written u k r value).format with h | h <;> rw [h] at he ⊢
      · exact hmask 4 he
      · exact hmask 8 he
    rw [hbase, hfirst, Nat.zero_add, hand]
  | false =>
    simp only [hcsm, Bool.false_eq_true, if_false] at hw ⊢
    rw [hw.2.position_eq (offset_written u k r value) he]

/-! ### The differences -/

theorem decode_zero (TEXA : TEXA_REG) : (decode t TEXA 0).r = 0 := by
  unfold decode
  split <;> rfl

theorem decode_one (TEXA : TEXA_REG) : (decode t TEXA 1).r ≠ 0 := by
  unfold decode
  split
  · exact (by decide : (color32 1).r ≠ 0)
  · exact (by decide : (1 &&& 0x1F) <<< 3 ≠ 0)

theorem decode_ones (TEXA : TEXA_REG) : (decode t TEXA (256 ^ entrySize t - 1)).r ≠ 0 := by
  unfold decode entrySize
  split
  · exact (by decide : (color32 (256 ^ 4 - 1)).r ≠ 0)
  · exact (by decide : ((256 ^ 2 - 1) &&& 0x1F) <<< 3 ≠ 0)

/-- The lookups of an entry after every load. -/
def Found (u : PaletteUnit) (k : ContextId) (r : TexReg) (value : DoubleWord) (T : PageTables) : Prop :=
  ∀ m cache : Bytes, ∀ e < entries (written u k r value).format,
    decode (written u k r value) u.regs.TEXA
      (load (entrySize (written u k r value)) (loadedCache u k r value T m cache)
        (((written u k r value).CLUTOffset + entrySize (written u k r value) * e) % 1024)) =
    decode (written u k r value) u.regs.TEXA (entryValue T (written u k r value) u.regs.TEXCLUT m e)

theorem entryValue_ones (TEXCLUT : TEXCLUT_REG) (e : ℕ) :
    entryValue T t TEXCLUT (fun _ => 255#8) e = 256 ^ entrySize t - 1 := by
  have h4 : ∀ a, load 4 (fun _ => 255#8) a = 256 ^ 4 - 1 := fun a => by simp [load]
  have h2 : ∀ a, load 2 (fun _ => 255#8) a = 256 ^ 2 - 1 := fun a => by simp [load]
  unfold entryValue pixelValue entrySize
  cases hcsm : t.useCSM2 with
  | true =>
    have hwide : Wide t = false := by simp [Wide, hcsm]
    simp only [hwide, if_true, Bool.false_eq_true, if_false]
    exact h2 _
  | false =>
    simp only [Bool.false_eq_true, if_false]
    cases hwide : Wide t with
    | true => exact h4 _
    | false =>
      simp only [Bool.false_eq_true, if_false]
      split <;> exact h2 _

/-- The last entry is not loaded, so that what was in the cache is found. -/
theorem not_found_of_few (h : rounds (written u k r value) < entries (written u k r value).format) :
    ¬Found u k r value T := by
  intro hf
  have hlast := hf (fun _ => 255#8) (fun _ => 0#8) (entries (written u k r value).format - 1) (by omega)
  have hfits := loadRange_fits (offset_written u k r value)
  have hcount := entries_cases (written u k r value).format
  have hold : load (entrySize (written u k r value)) (loadedCache u k r value T (fun _ => 255#8) fun _ => 0#8)
      (((written u k r value).CLUTOffset +
        entrySize (written u k r value) * (entries (written u k r value).format - 1)) % 1024) =
      load (entrySize (written u k r value)) (fun _ => 0#8) 0 := by
    refine (load_congr fun p h1 h2 => fill_apply ?_).trans ?_
    · rcases entrySize_cases (written u k r value) with hn | hn <;> rw [hn] at hfits h1 h2 ⊢ <;> omega
    · rcases entrySize_cases (written u k r value) with hn | hn <;> rw [hn] <;> rfl
  have hzero : load (entrySize (written u k r value)) (fun _ => 0#8) 0 = 0 := by
    rcases entrySize_cases (written u k r value) with hn | hn <;> rw [hn] <;> rfl
  rw [hold, hzero, entryValue_ones] at hlast
  exact decode_ones _ (congrArg TexColor.r hlast ▸ decode_zero _)

/-- A memory in which two half-words are different. -/
theorem exists_memory {a a' : ℕ} (ha : a % 2 = 0) (ha' : a' % 2 = 0) (hne : a ≠ a') :
    ∃ m : Bytes, load 2 m a = 1 ∧ load 2 m a' = 0 := by
  refine ⟨store 2 (fun _ => 0#8) a 1, load_store_self, ?_⟩
  rw [load_store_apart (by omega)]
  rfl

theorem even_addrHalf (blockTable : List (List ℕ)) (b w x y : ℕ) :
    addrHalf (pageHalf blockTable) b w x y % 2 = 0 := by
  rw [addrHalf_eq]
  omega

/-- The first entry is loaded from another place than its own. -/
theorem not_found_of_place {a b : ℕ} (h0 : 0 < rounds (written u k r value))
    (hloaded : ∀ m, loaded u k r value T m (loadRange (written u k r value)).1 = load 2 m b)
    (hentry : ∀ m, entryValue T (written u k r value) u.regs.TEXCLUT m 0 = load 2 m a)
    (ha : a % 2 = 0) (hb : b % 2 = 0) (hne : a ≠ b) : ¬Found u k r value T := by
  intro hf
  obtain ⟨m, hm, hm'⟩ := exists_memory ha hb hne
  have hcount := entries_cases (written u k r value).format
  have hfirst := hf m (fun _ => 0#8) 0 (by omega)
  rw [load_loaded m _ h0, Nat.add_zero, hloaded, hentry, hm, hm'] at hfirst
  exact decode_one _ (congrArg TexColor.r hfirst ▸ decode_zero _)

/-- In the second storage mode, the base of the other context is read. -/
theorem not_found_of_base (hcsm2 : (written u k r value).useCSM2 = true)
    (hoffset : (written u k r value).CLUTOffset = 0)
    (hne : currentBase u k r value ≠ (written u k r value).CLUTBase) :
    ¬Found u k r value (paletteTables T) := by
  have hbased : ∀ k', Based ((setTex k r value u).regs.context k') := (setTex k r value u).based
  have hmine := hbased k
  have hcur := hbased (setTex k r value u).regs.currentCtx
  unfold Based at hmine hcur
  rw [context_setTex] at hmine
  have hctx : ((setTex k r value u).regs.context (setTex k r value u).regs.currentCtx).tex0.CLUTBase =
      currentBase u k r value := by
    unfold currentBase DrawRegs.ctx DrawRegs.context
    cases (setTex k r value u).regs.currentCtx <;> rfl
  rw [hctx] at hcur
  have hrounds := (covered_zero hoffset).rounds_eq (offset_written u k r value)
  have hcount := entries_cases (written u k r value).format
  have hfirst : (loadRange (written u k r value)).1 = 0 := by
    rw [rounds_eq.2, hoffset, Nat.zero_div]
  refine not_found_of_place (a := addrHalf (pageHalf blockTable16) ((written u k r value).CLUTBase / 256)
      (u.regs.TEXCLUT.width / 64) (u.regs.TEXCLUT.x + 0) u.regs.TEXCLUT.y)
    (b := addrHalf (pageHalf blockTable16) (currentBase u k r value / 256)
      (u.regs.TEXCLUT.width / 64) (u.regs.TEXCLUT.x + 0) u.regs.TEXCLUT.y)
    (by omega) (fun m => ?_) (fun m => ?_) (even_addrHalf ..) (even_addrHalf ..)
    (addrHalf_base hmine.1 hcur.1 (by omega) _ _ _)
  · unfold loaded loadedValue
    rw [hfirst, hcsm2, if_pos rfl, Nat.zero_and]
    rfl
  · unfold entryValue
    rw [hcsm2, if_pos rfl]
    rfl

/-- The places of the entries with which a load may begin, within the page. -/
theorem placeHalf_ne {blockTable : List (List ℕ)} (h : blockTable = blockTable16 ∨ blockTable = blockTable16S) :
    ∀ c < 15, placeHalf blockTable 1 (arrangement 256 0).1 (arrangement 256 0).2 % 2 ^ 21 ≠
      placeHalf blockTable 1 (position 256 (16 * (c + 1))).1 (position 256 (16 * (c + 1))).2 % 2 ^ 21 := by
  rcases h with rfl | rfl <;> decide

/-- A palette of half-words with an offset begins at another entry. -/
theorem not_found_of_shift (hcsm2 : (written u k r value).useCSM2 = false)
    (hcount : entries (written u k r value).format = 256) (hf : 2 ≤ (written u k r value).CLUTFormat.toNat)
    (h0 : 0 < rounds (written u k r value)) {c : ℕ} (hc : c < 15)
    (hfirst : (loadRange (written u k r value)).1 = 16 * (c + 1)) : ¬Found u k r value (paletteTables T) := by
  have hwide : Wide (written u k r value) = false := by
    simp only [Wide, Bool.and_eq_false_iff, decide_eq_false_iff_not]
    exact Or.inr (by omega)
  obtain ⟨blockTable, htable, hvalue⟩ : ∃ blockTable, (blockTable = blockTable16 ∨ blockTable = blockTable16S) ∧
      ∀ m pos, pixelValue (paletteTables T) (written u k r value) m pos =
        load 2 m (addrHalf (pageHalf blockTable) ((written u k r value).CLUTBase / 256) 1 pos.1 pos.2) := by
    unfold pixelValue
    rw [hwide]
    by_cases h2 : (written u k r value).CLUTFormat = 2
    · exact ⟨blockTable16, Or.inl rfl, fun m pos => by rw [if_neg (by decide), if_pos h2]; rfl⟩
    · exact ⟨blockTable16S, Or.inr rfl, fun m pos => by rw [if_neg (by decide), if_neg h2]; rfl⟩
  refine not_found_of_place h0 (fun m => ?_) (fun m => ?_) (even_addrHalf ..) (even_addrHalf ..)
    (addrHalf_place (b := (written u k r value).CLUTBase / 256) (placeHalf_ne htable c hc))
  · unfold loaded loadedValue
    rw [hcsm2, hfirst, hcount, hvalue]
    rfl
  · unfold entryValue
    rw [hcsm2, hcount, hvalue]
    rfl

end

/-! ### The condition -/

section

variable (T : PageTables) (u : PaletteUnit) (k : ContextId) (r : TexReg) (value : DoubleWord)

theorem found_iff (hk : Known (written u k r value))
    (hcsm2 : (written u k r value).useCSM2 = true → (written u k r value).CLUTOffset = 0) :
    Found u k r value (paletteTables T) ↔ LoadsWell u k r value := by
  constructor
  · intro hf
    unfold LoadsWell
    cases hcsm : (written u k r value).useCSM2 with
    | true =>
      simp only [hcsm, if_true]
      by_contra hno
      rw [not_or] at hno
      refine not_found_of_base hcsm (hcsm2 hcsm) ?_ hf
      rw [currentBase_eq, if_neg hno.1]
      exact hno.2
    | false =>
      simp only [hcsm, Bool.false_eq_true, if_false]
      refine ⟨hk.resolve_left (by rw [hcsm]; decide), ?_⟩
      by_contra hno
      by_cases hfew : rounds (written u k r value) < entries (written u k r value).format
      · exact not_found_of_few hfew hf
      · obtain ⟨hcount, hformat, c, hc, hfirst⟩ := (not_covered (offset_written u k r value) hno).resolve_left hfew
        exact not_found_of_shift hcsm hcount hformat (by omega) hc hfirst hf
  · rintro hw m cache e he
    have hcovered : Covered (written u k r value) := by
      unfold LoadsWell at hw
      cases hcsm : (written u k r value).useCSM2 with
      | true => exact covered_zero (hcsm2 hcsm)
      | false =>
        simp only [hcsm, Bool.false_eq_true, if_false] at hw
        exact hw.2
    rw [load_loaded m cache (by rwa [hcovered.rounds_eq (offset_written u k r value)]), loaded_eq hcsm2 hw m he]

theorem palette_agrees_iff (hload : Loads u k r value)
    (hcsm2 : (written u k r value).useCSM2 = true → (written u k r value).CLUTOffset = 0) :
    Agrees (paletteTables T) u k r value ↔ LoadsWell u k r value := by
  by_cases hk : Known (written u k r value)
  · exact (agrees_iff_values hload hk hcsm2).trans (found_iff T u k r value hk hcsm2)
  · constructor
    · intro h
      have hcount := entries_cases (written u k r value).format
      have ht : ((setTex k r value (overlay (fun _ => 0#8) (fun _ => 0#8) u)).regs.context k).tex0 =
          written u k r value := context_setTex _ k r value
      obtain ⟨color, hcolor, -⟩ := (h (fun _ => 0#8) fun _ => 0#8).2 0 (by rw [ht]; omega)
      rw [entryColor_unknown ht hk] at hcolor
      cases hcolor
    · intro hw
      unfold LoadsWell at hw
      refine absurd ?_ hk
      cases hcsm : (written u k r value).useCSM2 with
      | true => exact Or.inl hcsm
      | false =>
        simp only [hcsm, Bool.false_eq_true, if_false] at hw
        exact Or.inr hw.1

end

/-! ### Two writes -/

/-- All registers are 0. -/
def blankMode : PRMODE_REG := ⟨false, false, false, false, false, false, false, false⟩

def blankRegs : DrawRegs where
  context1 := GSContext.blank
  context2 := GSContext.blank
  currentCtx := .context1
  primType := 0
  FOG := 0
  PRIM := blankMode
  PRMODE := blankMode
  currentPRMODE := .PRIM
  RGBAQ := ⟨0, 0, 0, 0, 0⟩
  UV := ⟨0, 0⟩
  ST := ⟨0, 0⟩
  TEXA := ⟨0, 0, false⟩
  TEXCLUT := ⟨0, 0, 0⟩
  DTHE := false
  COLCLAMP := false
  FOGCOL := ⟨0, 0, 0⟩
  PABE := false
  SCANMSK := 0
  ditherMtx := []

/-- The first context is the current one. -/
def blankUnit : PaletteUnit where
  regs := blankRegs
  clutCache := fun _ => 0
  CBP0 := 0
  CBP1 := 0
  localMem := fun _ => 0
  stores := []
  based := by rintro (_ | _) <;> exact ⟨by decide, by decide⟩

def blankTables : PageTables where
  PSMCT32 := fun _ _ _ => 0
  PSMCT32Z := fun _ _ _ => 0
  PSMCT16 := fun _ _ _ => 0
  PSMCT16S := fun _ _ _ => 0
  PSMCT8 := fun _ _ _ => 0
  PSMCT4 := fun _ _ _ => 0
  PSMCT16Z := fun _ _ _ => 0
  PSMCT16SZ := fun _ _ _ => 0

/-- The other context loads 16 half-words from the block 1 with the offset 3. -/
theorem agrees_other_context :
    Agrees (paletteTables blankTables) blankUnit .context2 .TEX2 0x4350002001400000#64 :=
  (palette_agrees_iff blankTables blankUnit .context2 .TEX2 0x4350002001400000#64 (by unfold Loads; decide)
    (by decide)).mpr
    (by unfold LoadsWell Covered; decide)

/-- The other context loads from the block 1 in the second storage mode, and the block 0 is read. -/
theorem not_palette_agrees : ¬∀ (T : PageTables) (u : PaletteUnit) (k : ContextId) (r : TexReg) (value : DoubleWord),
    Loads u k r value → ((written u k r value).useCSM2 = true → (written u k r value).CLUTOffset = 0) →
    Agrees (paletteTables T) u k r value := by
  intro h
  have hcsm2 : (written blankUnit .context2 .TEX0 0x2090002001400000#64).useCSM2 = true := by decide
  have hoffset : (written blankUnit .context2 .TEX0 0x2090002001400000#64).CLUTOffset = 0 := by decide
  have hload : Loads blankUnit .context2 .TEX0 0x2090002001400000#64 := by unfold Loads; decide
  have hagrees := h blankTables blankUnit .context2 .TEX0 0x2090002001400000#64 hload fun _ => hoffset
  have hfound := (agrees_iff_values hload (Or.inl hcsm2) fun _ => hoffset).mp hagrees
  exact not_found_of_base hcsm2 hoffset (by decide) hfound

end DobieStation.GsThread.Palette
