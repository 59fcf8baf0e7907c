import DobieStation.Gs.LocalToHost

/-! # Words within their pages

The address of a pixel of 32 bits is that of a word of its page (`addrWord_eq`), and as the tables place the pixels
of a page at different words, the place within the page can be found again from the address
(`addrWord_page`). -/

namespace DobieStation.Gs.Pages

open DobieStation.Gs.Model DobieStation.Lib.Memory

variable {table : ℕ → ℕ → ℕ → ℕ} {b w x y x' y' : ℕ}

/-- No two pixels of a page are at one word of it. -/
def Paged (table : ℕ → ℕ → ℕ → ℕ) : Prop :=
  ∀ b y x y' x', b < 32 → y < 32 → x < 64 → y' < 32 → x' < 64 →
    table b y x % 2048 = table b y' x' % 2048 → y = y' ∧ x = x'

theorem addrWord_eq : addrWord table b w x y =
    4 * ((2048 * (b / 32 + y / 32 * w + x / 64) + table (b % 32) (y % 32) (x % 64)) % 2 ^ 20) := by
  have hmask : ∀ a : ℕ, (a <<< 2) &&& 0x003FFFFC = 4 * (a % 2 ^ 20) := by
    intro a
    rw [show 0x003FFFFC = (2 ^ 20 - 1) <<< 2 from rfl, ← Nat.shiftLeft_and_distrib,
      Nat.and_two_pow_sub_one_eq_mod, Nat.shiftLeft_eq, Nat.mul_comm]
  have h5 : ∀ a : ℕ, a &&& 0x1F = a % 32 := fun a => Nat.and_two_pow_sub_one_eq_mod a 5
  have h6 : x &&& 0x3F = x % 64 := Nat.and_two_pow_sub_one_eq_mod x 6
  unfold addrWord
  rw [hmask, h5, h5, h6, Nat.shiftRight_eq_div_pow, Nat.shiftRight_eq_div_pow,
    Nat.shiftRight_eq_div_pow, Nat.shiftLeft_eq, Nat.mul_comm _ (2 ^ 11)]

/-- The place within the page. -/
theorem addrWord_page (ht : Paged table) (h : addrWord table b w x y = addrWord table b w x' y') :
    y % 32 = y' % 32 ∧ x % 64 = x' % 64 := by
  rw [addrWord_eq, addrWord_eq] at h
  have hpage : (2048 * (b / 32 + y / 32 * w + x / 64) + table (b % 32) (y % 32) (x % 64)) % 2048 =
      (2048 * (b / 32 + y' / 32 * w + x' / 64) + table (b % 32) (y' % 32) (x' % 64)) % 2048 := by
    omega
  rw [Nat.mul_add_mod, Nat.mul_add_mod] at hpage
  exact ht _ _ _ _ _ (Nat.mod_lt _ (by decide)) (Nat.mod_lt _ (by decide))
    (Nat.mod_lt _ (by decide)) (Nat.mod_lt _ (by decide)) (Nat.mod_lt _ (by decide)) hpage

/-- The row 2048 is the row 0 exactly if the buffer is a multiple of eight pages wide. -/
theorem addrWord_wrap : addrWord table b w x 2048 = addrWord table b w x 0 ↔ w % 8 = 0 := by
  rw [addrWord_eq, addrWord_eq]
  show 4 * ((2048 * (b / 32 + 64 * w + x / 64) + table (b % 32) 0 (x % 64)) % 2 ^ 20) =
    4 * ((2048 * (b / 32 + 0 * w + x / 64) + table (b % 32) 0 (x % 64)) % 2 ^ 20) ↔ _
  omega

/-! ### Bytes at two words -/

/-- A memory with one byte set. -/
def single (a : ℕ) : Bytes := Function.update (fun _ => 0) a 1

theorem load_single {a : ℕ} : load 4 (single a) a = 1 := by
  have hrest : load 3 (single a) (a + 1) = load 3 (fun _ => 0) (a + 1) :=
    load_update_apart (by omega)
  show (single a a).toNat + 256 * load 3 (single a) (a + 1) = 1
  rw [hrest, single, Function.update_self]
  rfl

theorem load_single_apart {a a' : ℕ} (h : a < a' ∨ a' + 4 ≤ a) : load 4 (single a) a' = 0 :=
  load_update_apart (k := 4) (by omega)

/-- The colors at two words are the same in every memory only if the words are. -/
theorem color_inj {v v' : ℕ}
    (h : ∀ m : Bytes, load 4 m (4 * v) &&& 0xFFFFFF = load 4 m (4 * v') &&& 0xFFFFFF) : v = v' := by
  by_contra hne
  have hsingle := h (single (4 * v))
  rw [load_single, load_single_apart (by omega)] at hsingle
  exact absurd hsingle (by decide)

/-! ### The tables of the source -/

theorem column_lt : ∀ r < 8, ∀ c < 8, entry columnTable32 r c < 64 := by decide

/-- Every entry of a table stands at one place only. -/
def Distinct (rows : ℕ) (table : List (List ℕ)) : Prop :=
  ∀ r < rows, ∀ c < 8, table.flatten.idxOf (entry table r c) = 8 * r + c

instance (rows : ℕ) (table : List (List ℕ)) : Decidable (Distinct rows table) :=
  inferInstanceAs (Decidable (∀ r < rows, ∀ c < 8, _ = _))

theorem Distinct.inj {rows r c r' c' : ℕ} {table : List (List ℕ)} (h : Distinct rows table)
    (hr : r < rows) (hc : c < 8) (hr' : r' < rows) (hc' : c' < 8)
    (heq : entry table r c = entry table r' c') : r = r' ∧ c = c' := by
  have hindex := h r hr c hc
  rw [heq, h r' hr' c' hc'] at hindex
  omega

theorem distinct_columnTable32 : Distinct 8 columnTable32 := by decide

/-- The blocks of a page, which the table puts in some order. -/
structure Blocks (blockTable : List (List ℕ)) : Prop where
  lt : ∀ r < 4, ∀ c < 8, entry blockTable r c < 32
  distinct : Distinct 4 blockTable

theorem blocks_blockTable32 : Blocks blockTable32 := ⟨by decide, by decide⟩

theorem blocks_blockTable32Z : Blocks blockTable32Z := ⟨by decide, by decide⟩

theorem paged_pageWord {blockTable : List (List ℕ)} (h : Blocks blockTable) :
    Paged (pageWord blockTable) := by
  have hentry : ∀ b y x, y < 32 → x < 64 → pageWord blockTable b y x =
      64 * (b + entry blockTable (y / 8) (x / 8)) + entry columnTable32 (y % 8) (x % 8) := by
    intro b y x hy hx
    have h8 : ∀ a : ℕ, a &&& 0x7 = a % 8 := fun a => Nat.and_two_pow_sub_one_eq_mod a 3
    have h4 : ∀ a : ℕ, a &&& 0x3 = a % 4 := fun a => Nat.and_two_pow_sub_one_eq_mod a 2
    unfold pageWord blockid
    rw [h8, h8, h8, h4, Nat.shiftLeft_eq, Nat.shiftRight_eq_div_pow, Nat.shiftRight_eq_div_pow,
      Nat.shiftRight_eq_div_pow, show y / 2 ^ 3 % 4 = y / 8 by omega,
      show x / 2 ^ 3 % 8 = x / 8 by omega, show x / 2 ^ 1 - x / 2 ^ 1 % 0x20 = 0 by omega]
    omega
  intro b y x y' x' hb hy hx hy' hx' heq
  rw [hentry b y x hy hx, hentry b y' x' hy' hx'] at heq
  have hlt := column_lt (y % 8) (by omega) (x % 8) (by omega)
  have hlt' := column_lt (y' % 8) (by omega) (x' % 8) (by omega)
  have hblt := h.lt (y / 8) (by omega) (x / 8) (by omega)
  have hblt' := h.lt (y' / 8) (by omega) (x' / 8) (by omega)
  have hcolumn := distinct_columnTable32.inj (Nat.mod_lt y (by decide)) (Nat.mod_lt x (by decide))
    (Nat.mod_lt y' (by decide)) (Nat.mod_lt x' (by decide)) (by omega)
  have hrow : y / 8 < 4 ∧ y' / 8 < 4 ∧ x / 8 < 8 ∧ x' / 8 < 8 := by omega
  have hblock := h.distinct.inj hrow.1 hrow.2.2.1 hrow.2.1 hrow.2.2.2 (by omega)
  omega

end DobieStation.Gs.Pages

/-! # Half-words within their pages

The tables of the formats of 16 bits that palettes have, and the addresses they give. -/

namespace DobieStation.Gs.Model

def blockTable16 : List (List ℕ) :=
  [[0, 2, 8, 10],
    [1, 3, 9, 11],
    [4, 6, 12, 14],
    [5, 7, 13, 15],
    [16, 18, 24, 26],
    [17, 19, 25, 27],
    [20, 22, 28, 30],
    [21, 23, 29, 31]]

def blockTable16S : List (List ℕ) :=
  [[0, 2, 16, 18],
    [1, 3, 17, 19],
    [8, 10, 24, 26],
    [9, 11, 25, 27],
    [4, 6, 20, 22],
    [5, 7, 21, 23],
    [12, 14, 28, 30],
    [13, 15, 29, 31]]

def columnTable16 : List (List ℕ) :=
  [[0, 2, 8, 10, 16, 18, 24, 26, 1, 3, 9, 11, 17, 19, 25, 27],
    [4, 6, 12, 14, 20, 22, 28, 30, 5, 7, 13, 15, 21, 23, 29, 31],
    [32, 34, 40, 42, 48, 50, 56, 58, 33, 35, 41, 43, 49, 51, 57, 59],
    [36, 38, 44, 46, 52, 54, 60, 62, 37, 39, 45, 47, 53, 55, 61, 63],
    [64, 66, 72, 74, 80, 82, 88, 90, 65, 67, 73, 75, 81, 83, 89, 91],
    [68, 70, 76, 78, 84, 86, 92, 94, 69, 71, 77, 79, 85, 87, 93, 95],
    [96, 98, 104, 106, 112, 114, 120, 122, 97, 99, 105, 107, 113, 115, 121, 123],
    [100, 102, 108, 110, 116, 118, 124, 126, 101, 103, 109, 111, 117, 119, 125, 127]]

/-- The number of a block, in a buffer of width 0 as the constructor asks for it. -/
def blockidHalf (blockTable : List (List ℕ)) (block x y : ℕ) : ℕ :=
  block + ((x >>> 1) - (x >>> 1) % 0x20) + entry blockTable ((y >>> 3) &&& 0x7) ((x >>> 4) &&& 0x3)

/-- A table of 16 bits, as the constructor fills it. -/
def pageHalf (blockTable : List (List ℕ)) (block y x : ℕ) : ℕ :=
  (blockidHalf blockTable block x y <<< 7) + entry columnTable16 (y &&& 0x7) (x &&& 0xF)

/-- The tables with those that palettes use filled in. -/
def paletteTables (T : PageTables) : PageTables :=
  { T with
    PSMCT32 := pagePSMCT32
    PSMCT16 := pageHalf blockTable16
    PSMCT16S := pageHalf blockTable16S }

end DobieStation.Gs.Model

namespace DobieStation.Gs.Pages

open DobieStation.Gs.Model DobieStation.Lib.Memory

/-- The number of a half-word, from the base of a buffer that is `w` pages wide. -/
def placeHalf (blockTable : List (List ℕ)) (w x y : ℕ) : ℕ :=
  4096 * (y / 64 * w + x / 64) + 128 * entry blockTable (y / 8 % 8) (x / 16 % 4) +
    entry columnTable16 (y % 8) (x % 16)

theorem addrHalf_eq (blockTable : List (List ℕ)) (b w x y : ℕ) :
    addrHalf (pageHalf blockTable) b w x y = 2 * ((128 * b + placeHalf blockTable w x y) % 2 ^ 21) := by
  have hmask : ∀ a : ℕ, (a <<< 1) &&& 0x003FFFFE = 2 * (a % 2 ^ 21) := by
    intro a
    rw [show 0x003FFFFE = (2 ^ 21 - 1) <<< 1 from rfl, ← Nat.shiftLeft_and_distrib,
      Nat.and_two_pow_sub_one_eq_mod, Nat.shiftLeft_eq, Nat.mul_comm]
  have h5 : b &&& 0x1F = b % 32 := Nat.and_two_pow_sub_one_eq_mod b 5
  have h6 : ∀ a : ℕ, a &&& 0x3F = a % 64 := fun a => Nat.and_two_pow_sub_one_eq_mod a 6
  have h8 : ∀ a : ℕ, a &&& 0x7 = a % 8 := fun a => Nat.and_two_pow_sub_one_eq_mod a 3
  have h4 : ∀ a : ℕ, a &&& 0x3 = a % 4 := fun a => Nat.and_two_pow_sub_one_eq_mod a 2
  have h16 : ∀ a : ℕ, a &&& 0xF = a % 16 := fun a => Nat.and_two_pow_sub_one_eq_mod a 4
  unfold addrHalf pageHalf blockidHalf placeHalf
  rw [hmask]
  simp only [h5, h6, h8, h4, h16, Nat.shiftRight_eq_div_pow, Nat.shiftLeft_eq]
  rw [show y % 64 / 2 ^ 3 % 8 = y / 8 % 8 by omega, show x % 64 / 2 ^ 4 % 4 = x / 16 % 4 by omega,
    show y % 64 % 8 = y % 8 by omega, show x % 64 % 16 = x % 16 by omega,
    show x % 64 / 2 ^ 1 - x % 64 / 2 ^ 1 % 0x20 = 0 by omega]
  generalize y / 64 * w = page
  omega

/-- A pixel is at another address in every other buffer. -/
theorem addrHalf_base {blockTable : List (List ℕ)} {b b' : ℕ} (hb : b < 2 ^ 14) (hb' : b' < 2 ^ 14)
    (hne : b ≠ b') (w x y : ℕ) :
    addrHalf (pageHalf blockTable) b w x y ≠ addrHalf (pageHalf blockTable) b' w x y := by
  rw [addrHalf_eq, addrHalf_eq]
  omega

/-- Two pixels of a page are at two addresses. -/
theorem addrHalf_place {blockTable : List (List ℕ)} {b w x y x' y' : ℕ}
    (h : placeHalf blockTable w x y % 2 ^ 21 ≠ placeHalf blockTable w x' y' % 2 ^ 21) :
    addrHalf (pageHalf blockTable) b w x y ≠ addrHalf (pageHalf blockTable) b w x' y' := by
  rw [addrHalf_eq, addrHalf_eq]
  omega

end DobieStation.Gs.Pages
