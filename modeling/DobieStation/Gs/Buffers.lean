import DobieStation.Gs.Pages

/-! # Buffers of pages

A buffer that is drawn to begins with a page, and has its pixels in pages of 64 by 32 or by 64. Every page
has its pixels at different places, so that two pixels of a picture are apart. -/

namespace DobieStation.Gs.Model

def blockTable16Z : List (List ℕ) :=
  [[24, 26, 16, 18],
    [25, 27, 17, 19],
    [28, 30, 20, 22],
    [29, 31, 21, 23],
    [8, 10, 0, 2],
    [9, 11, 1, 3],
    [12, 14, 4, 6],
    [13, 15, 5, 7]]

def blockTable16SZ : List (List ℕ) :=
  [[24, 26, 8, 10],
    [25, 27, 9, 11],
    [16, 18, 0, 2],
    [17, 19, 1, 3],
    [28, 30, 12, 14],
    [29, 31, 13, 15],
    [20, 22, 4, 6],
    [21, 23, 5, 7]]

/-- The tables with those of all formats that are drawn to filled in. -/
def drawTables (T : PageTables) : PageTables :=
  { paletteTables T with
    PSMCT32Z := pagePSMCT32Z
    PSMCT16Z := pageHalf blockTable16Z
    PSMCT16SZ := pageHalf blockTable16SZ }

end DobieStation.Gs.Model

namespace DobieStation.Gs.Buffers

open DobieStation.Gs.Model DobieStation.Gs.Pages

/-- The page of a pixel, in a buffer that begins with the page `p` and is `w` pages wide. -/
def pageOf (rows p w x y : ℕ) : ℕ := p + y / rows * w + x / 64

/-- The address of a pixel of `size` bytes is in the page of the pixel, at a place of its own. -/
structure Laid (rows size : ℕ) (addr : ℕ → ℕ → ℕ → ℕ → ℕ) : Prop where
  page : ∀ p w x y, pageOf rows p w x y < 512 → addr (32 * p) w x y / 8192 = pageOf rows p w x y
  aligned : ∀ b w x y, addr b w x y % size = 0
  size_pos : 0 < size
  divides : 8192 % size = 0
  place : ∀ p w x y x' y', addr (32 * p) w x y = addr (32 * p) w x' y' →
    y % rows = y' % rows ∧ x % 64 = x' % 64

section
variable {rows size rows' size' p p' w w' x y x' y' : ℕ} {addr addr' : ℕ → ℕ → ℕ → ℕ → ℕ}

/-- A pixel does not go beyond its page. -/
theorem Laid.within (h : Laid rows size addr) (b w x y : ℕ) :
    addr b w x y % 8192 + size ≤ 8192 := by
  obtain ⟨k, hk⟩ := Nat.dvd_of_mod_eq_zero h.divides
  have hdvd : size ∣ addr b w x y % 8192 :=
    (Nat.dvd_mod_iff (Nat.dvd_of_mod_eq_zero h.divides)).mpr (Nat.dvd_of_mod_eq_zero (h.aligned b w x y))
  obtain ⟨j, hj⟩ := hdvd
  have hlt : addr b w x y % 8192 < 8192 := Nat.mod_lt _ (by decide)
  have hjk : j < k := by
    rw [hj] at hlt
    rw [hk] at hlt
    exact Nat.lt_of_mul_lt_mul_left hlt
  have hle := Nat.mul_le_mul_left size hjk
  rw [Nat.mul_succ] at hle
  omega

/-- The row and the column of a page are found again from its number. -/
theorem page_inj {a b a' b' : ℕ} (hb : b < w) (hb' : b' < w) (h : a * w + b = a' * w + b') :
    a = a' ∧ b = b' := by
  have hmod := congrArg (· % w) h
  rw [Nat.mul_add_mod_of_lt hb, Nat.mul_add_mod_of_lt hb'] at hmod
  subst hmod
  exact ⟨Nat.eq_of_mul_eq_mul_right (Nat.zero_lt_of_lt hb) (by omega), rfl⟩

/-- **Two pixels of one buffer are apart.** -/
theorem Laid.apart (h : Laid rows size addr) (hx : x < 64 * w) (hx' : x' < 64 * w)
    (hp : pageOf rows p w x y < 512) (hp' : pageOf rows p w x' y' < 512)
    (hne : (x, y) ≠ (x', y')) :
    addr (32 * p) w x y + size ≤ addr (32 * p) w x' y' ∨
      addr (32 * p) w x' y' + size ≤ addr (32 * p) w x y := by
  have hdiff : addr (32 * p) w x y ≠ addr (32 * p) w x' y' := by
    intro heq
    have hpage := (h.page p w x y hp).symm.trans ((congrArg (· / 8192) heq).trans (h.page p w x' y' hp'))
    obtain ⟨hymod, hxmod⟩ := h.place p w x y x' y' heq
    unfold pageOf at hpage
    obtain ⟨hydiv, hxdiv⟩ := page_inj (by omega : x / 64 < w) (by omega : x' / 64 < w)
      (by omega : y / rows * w + x / 64 = y' / rows * w + x' / 64)
    refine hne ?_
    rw [Prod.mk.injEq]
    constructor
    · rw [← Nat.div_add_mod x 64, ← Nat.div_add_mod x' 64, hxdiv, hxmod]
    · rw [← Nat.div_add_mod y rows, ← Nat.div_add_mod y' rows, hydiv, hymod]
  obtain ⟨a, ha⟩ := Nat.dvd_of_mod_eq_zero (h.aligned (32 * p) w x y)
  obtain ⟨b, hb⟩ := Nat.dvd_of_mod_eq_zero (h.aligned (32 * p) w x' y')
  rw [ha, hb] at hdiff ⊢
  rcases Nat.lt_trichotomy a b with hlt | rfl | hgt
  · exact Or.inl (Nat.mul_le_mul_left size hlt)
  · exact absurd rfl hdiff
  · exact Or.inr (Nat.mul_le_mul_left size hgt)

/-- Pixels of buffers without a common page are apart. -/
theorem Laid.apart_pages (h : Laid rows size addr) (h' : Laid rows' size' addr')
    (hp : pageOf rows p w x y < 512) (hp' : pageOf rows' p' w' x' y' < 512)
    (hne : pageOf rows p w x y ≠ pageOf rows' p' w' x' y') :
    addr (32 * p) w x y + size ≤ addr' (32 * p') w' x' y' ∨
      addr' (32 * p') w' x' y' + size' ≤ addr (32 * p) w x y := by
  have h1 := h.page p w x y hp
  have h2 := h'.page p' w' x' y' hp'
  have h3 := h.within (32 * p) w x y
  have h4 := h'.within (32 * p') w' x' y'
  omega

end

/-! ### The formats -/

theorem laid_word {blockTable : List (List ℕ)} (h : Blocks blockTable) :
    Laid 32 4 (addrWord (pageWord blockTable)) := by
  have hoff : ∀ y x, y < 32 → x < 64 → pageWord blockTable 0 y x < 2048 := by
    intro y x hy hx
    have h8 : ∀ a : ℕ, a &&& 0x7 = a % 8 := fun a => Nat.and_two_pow_sub_one_eq_mod a 3
    have h4 : ∀ a : ℕ, a &&& 0x3 = a % 4 := fun a => Nat.and_two_pow_sub_one_eq_mod a 2
    have hc := column_lt (y % 8) (by omega) (x % 8) (by omega)
    have hb := h.lt (y / 8) (by omega) (x / 8) (by omega)
    unfold pageWord blockid
    rw [h8, h8, h8, h4, Nat.shiftLeft_eq, Nat.shiftRight_eq_div_pow, Nat.shiftRight_eq_div_pow,
      Nat.shiftRight_eq_div_pow, show y / 2 ^ 3 % 4 = y / 8 by omega,
      show x / 2 ^ 3 % 8 = x / 8 by omega, show x / 2 ^ 1 - x / 2 ^ 1 % 0x20 = 0 by omega]
    omega
  refine ⟨fun p w x y hp => ?_, fun b w x y => ?_, by decide, by decide,
    fun p w x y x' y' heq => addrWord_page (paged_pageWord h) heq⟩
  · have hlt := hoff (y % 32) (x % 64) (Nat.mod_lt _ (by decide)) (Nat.mod_lt _ (by decide))
    unfold pageOf at hp ⊢
    rw [addrWord_eq, Nat.mul_mod_right, Nat.mul_div_cancel_left p (by decide)]
    omega
  · rw [addrWord_eq]
    exact Nat.mul_mod_right 4 _

/-- Every entry of a table stands at one place only. -/
def DistinctIn (rows columns : ℕ) (table : List (List ℕ)) : Prop :=
  ∀ r < rows, ∀ c < columns, table.flatten.idxOf (entry table r c) = columns * r + c

instance (rows columns : ℕ) (table : List (List ℕ)) : Decidable (DistinctIn rows columns table) :=
  inferInstanceAs (Decidable (∀ r < rows, ∀ c < columns, _ = _))

/-- The blocks of a page of half-words. -/
structure HalfBlocks (blockTable : List (List ℕ)) : Prop where
  lt : ∀ r < 8, ∀ c < 4, entry blockTable r c < 32
  distinct : DistinctIn 8 4 blockTable

theorem halfBlocks_blockTable16 : HalfBlocks blockTable16 := ⟨by decide, by decide⟩

theorem halfBlocks_blockTable16S : HalfBlocks blockTable16S := ⟨by decide, by decide⟩

theorem halfBlocks_blockTable16Z : HalfBlocks blockTable16Z := ⟨by decide, by decide⟩

theorem halfBlocks_blockTable16SZ : HalfBlocks blockTable16SZ := ⟨by decide, by decide⟩

theorem halfColumn_lt : ∀ r < 8, ∀ c < 16, entry columnTable16 r c < 128 := by decide

theorem distinct_columnTable16 : DistinctIn 8 16 columnTable16 := by decide

theorem laid_half {blockTable : List (List ℕ)} (h : HalfBlocks blockTable) :
    Laid 64 2 (addrHalf (pageHalf blockTable)) := by
  refine ⟨fun p w x y hp => ?_, fun b w x y => ?_, by decide, by decide,
    fun p w x y x' y' heq => ?_⟩
  · have hb := h.lt (y / 8 % 8) (by omega) (x / 16 % 4) (by omega)
    have hc := halfColumn_lt (y % 8) (by omega) (x % 16) (by omega)
    unfold pageOf at hp ⊢
    rw [addrHalf_eq]
    unfold placeHalf
    omega
  · rw [addrHalf_eq]
    exact Nat.mul_mod_right 2 _
  · rw [addrHalf_eq, addrHalf_eq] at heq
    unfold placeHalf at heq
    have hb := h.lt (y / 8 % 8) (by omega) (x / 16 % 4) (by omega)
    have hb' := h.lt (y' / 8 % 8) (by omega) (x' / 16 % 4) (by omega)
    have hc := halfColumn_lt (y % 8) (by omega) (x % 16) (by omega)
    have hc' := halfColumn_lt (y' % 8) (by omega) (x' % 16) (by omega)
    have hcolumn : entry columnTable16 (y % 8) (x % 16) = entry columnTable16 (y' % 8) (x' % 16) := by
      omega
    have hblock : entry blockTable (y / 8 % 8) (x / 16 % 4) =
        entry blockTable (y' / 8 % 8) (x' / 16 % 4) := by
      omega
    have h1 := distinct_columnTable16 (y % 8) (by omega) (x % 16) (by omega)
    have h2 := h.distinct (y / 8 % 8) (by omega) (x / 16 % 4) (by omega)
    rw [hcolumn, distinct_columnTable16 (y' % 8) (by omega) (x' % 16) (by omega)] at h1
    rw [hblock, h.distinct (y' / 8 % 8) (by omega) (x' / 16 % 4) (by omega)] at h2
    omega

end DobieStation.Gs.Buffers
