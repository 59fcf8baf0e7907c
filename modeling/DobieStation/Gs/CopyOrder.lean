import DobieStation.Gs.LocalCopy

/-! # The four orders of a transfer within the local memory

The pixels of the rectangle are copied in the order that TRXPOS asks for, except that the coordinates of the
first one do not wrap (`copies_iff`). -/

namespace DobieStation.Gs.LocalCopy

open DobieStation.Gs.Model DobieStation.Gs.Doublewords DobieStation.Lib.Memory DobieStation.Lib.BitSpans

variable {T : PageTables} {s s₀ s' : GS} {k n : ℕ}

/-! ### The rectangle -/

/-- A transfer of a rectangle between formats of the same size. -/
structure Copies (s : GS) : Prop where
  formats : Compatible s.BITBLTBUF
  sourceX : s.TRXPOS.sourceX < 2048
  sourceY : s.TRXPOS.sourceY < 2048
  destX : s.TRXPOS.destX < 2048
  destY : s.TRXPOS.destY < 2048
  width : 0 < s.TRXREG.width ∧ s.TRXREG.width < 4096
  height : 0 < s.TRXREG.height ∧ s.TRXREG.height < 4096
  order : s.TRXPOS.transOrder < 4

/-- `TRXDIR` starts the transfer. -/
def begun (s : GS) : GS := ({ s with TRXDIR := 2 } : GS).start

/-- The columns of a row, or the rows. -/
def lines (back : Bool) (n : ℕ) : List ℕ := (List.range n).map fun k => if back then n - 1 - k else k

/-- The pixels of a rectangle in one of the four orders. -/
def scan (order width height : ℕ) : List (ℕ × ℕ) :=
  (lines (upwards order) height).flatMap fun j => (lines (leftwards order) width).map fun i => (i, j)

/-- The copy of the pixel in the column `i` of the row `j`. -/
def target (s : GS) (ij : ℕ × ℕ) : Move :=
  ⟨(s.TRXPOS.sourceX + ij.1) % 2048, (s.TRXPOS.sourceY + ij.2) % 2048, (s.TRXPOS.destX + ij.1) % 2048,
    (s.TRXPOS.destY + ij.2) % 2048⟩

def moves (s : GS) : List Move := (scan s.TRXPOS.transOrder s.TRXREG.width s.TRXREG.height).map (target s)

/-- The pixel `k` of the order. -/
def pixel (s : GS) (k : ℕ) : ℕ × ℕ :=
  (if leftwards s.TRXPOS.transOrder then s.TRXREG.width - 1 - k % columns s else k % columns s,
    if upwards s.TRXPOS.transOrder then s.TRXREG.height - 1 - k / columns s else k / columns s)

theorem flatMap_range {α : Type} (f : ℕ → ℕ → α) {w : ℕ} (hw : 0 < w) (h : ℕ) :
    (List.range h).flatMap (fun j => (List.range w).map fun i => f i j) =
      (List.range (w * h)).map fun k => f (k % w) (k / w) := by
  induction h with
  | zero => simp
  | succ h ih =>
    rw [List.range_succ, List.flatMap_append, ih, List.flatMap_singleton, Nat.mul_succ, List.range_add,
      List.map_append, List.map_map]
    congr 1
    refine List.map_congr_left fun i hi => ?_
    have hi : i < w := List.mem_range.mp hi
    show f i h = f ((w * h + i) % w) ((w * h + i) / w)
    rw [Nat.mul_add_mod, Nat.mod_eq_of_lt hi, Nat.mul_add_div hw, Nat.div_eq_of_lt hi, Nat.add_zero]

theorem scan_eq (hw : 0 < s.TRXREG.width) : scan s.TRXPOS.transOrder s.TRXREG.width s.TRXREG.height =
    (List.range (total s)).map (pixel s) := by
  unfold scan lines
  rw [List.flatMap_map]
  simp only [List.map_map]
  exact flatMap_range (fun i j => (_, _)) hw s.TRXREG.height

/-! ### The loop -/

/-- A coordinate that wraps to the one at `x`. -/
def Wraps (v x : ℕ) : Prop := v % 2048 = x % 2048 ∧ v < 2 ^ 15

theorem stepped_forward {v x : ℕ} (h : Wraps v x) : stepped v 1 % 2048 = (x + 1) % 2048 := by
  obtain ⟨hmod, hlt⟩ := h
  unfold stepped
  omega

theorem stepped_back {v x : ℕ} (h : Wraps v (x + 1)) : stepped v (-1) % 2048 = x % 2048 := by
  obtain ⟨hmod, hlt⟩ := h
  unfold stepped
  omega

/-- The pixel is copied from and to where the rectangle has it, up to wrapping. -/
structure Near (s₀ : GS) (k : ℕ) (mv : Move) : Prop where
  sourceX : Wraps mv.sourceX (s₀.TRXPOS.sourceX + (pixel s₀ k).1)
  sourceY : Wraps mv.sourceY (s₀.TRXPOS.sourceY + (pixel s₀ k).2)
  destX : Wraps mv.destX (s₀.TRXPOS.destX + (pixel s₀ k).1)
  destY : Wraps mv.destY (s₀.TRXPOS.destY + (pixel s₀ k).2)

theorem near_target (s₀ : GS) (k : ℕ) : Near s₀ k (target s₀ (pixel s₀ k)) := by
  have hwraps (x : ℕ) : Wraps (x % 2048) x :=
    ⟨Nat.mod_mod x 2048, Nat.lt_of_lt_of_le (Nat.mod_lt x (by decide)) (by decide)⟩
  exact ⟨hwraps _, hwraps _, hwraps _, hwraps _⟩

/-- The transfer `s₀` stands before the pixel `k`. -/
structure Standing (s₀ : GS) (k : ℕ) (mv : Move) (s : GS) : Prop where
  bitblt : s.BITBLTBUF = s₀.BITBLTBUF
  size : s.TRXREG = s₀.TRXREG
  sourceX : s.TRXPOS.sourceX = s₀.TRXPOS.sourceX
  destX : s.TRXPOS.destX = s₀.TRXPOS.destX
  order : s.TRXPOS.transOrder = s₀.TRXPOS.transOrder
  transferred : s.pixelsTransferred = k
  move : s.move = mv

/-- The next coordinate, in the same row or from its beginning. -/
theorem next_column {x v : ℕ} (hw : 0 < columns s₀) (hx : x < 2048) (hw' : columns s₀ < 4096)
    (h : Wraps v (x + (pixel s₀ k).1)) :
    (if (k + 1) % columns s₀ = 0 then firstX s₀.TRXREG s₀.TRXPOS.transOrder x
      else stepped v (if leftwards s₀.TRXPOS.transOrder then -1 else 1)) % 2048 =
      (x + (pixel s₀ (k + 1)).1) % 2048 := by
  have hlt : k % columns s₀ < columns s₀ := Nat.mod_lt k hw
  have hcolumns : s₀.TRXREG.width = columns s₀ := rfl
  unfold pixel at h ⊢
  unfold firstX
  rw [hcolumns] at h ⊢
  dsimp only at h ⊢
  rcases column_row_succ hw k with ⟨hz, hdiv⟩ | ⟨hz, hmod, hdiv⟩
  · rw [if_pos hz, hz]
    split_ifs
    · congr 1
      omega
    · rfl
  · rw [if_neg hz, hmod]
    rw [hmod] at hz
    have hlast : k % columns s₀ + 1 < columns s₀ := by
      have := Nat.mod_lt (k + 1) hw
      omega
    by_cases hleft : leftwards s₀.TRXPOS.transOrder = true
    · rw [if_pos hleft] at h ⊢
      rw [if_pos hleft]
      refine stepped_back ?_
      rw [show x + (columns s₀ - 1 - (k % columns s₀ + 1)) + 1 = x + (columns s₀ - 1 - k % columns s₀) by omega]
      exact h
    · rw [if_neg hleft] at h ⊢
      rw [if_neg hleft]
      exact stepped_forward h

theorem next_row {y v : ℕ} (hk : k + 1 < total s₀) (hw : 0 < columns s₀) (h : Wraps v (y + (pixel s₀ k).2)) :
    (if (k + 1) % columns s₀ = 0 then stepped v (if upwards s₀.TRXPOS.transOrder then -1 else 1) else v) % 2048 =
      (y + (pixel s₀ (k + 1)).2) % 2048 := by
  have hrow : (k + 1) / columns s₀ < s₀.TRXREG.height := Nat.div_lt_of_lt_mul hk
  unfold pixel at h ⊢
  dsimp only at h ⊢
  rcases column_row_succ hw k with ⟨hz, hdiv⟩ | ⟨hz, hmod, hdiv⟩
  · rw [if_pos hz, hdiv]
    rw [hdiv] at hrow
    by_cases hup : upwards s₀.TRXPOS.transOrder = true
    · rw [if_pos hup] at h ⊢
      rw [if_pos hup]
      refine stepped_back ?_
      rw [show y + (s₀.TRXREG.height - 1 - (k / columns s₀ + 1)) + 1 = y + (s₀.TRXREG.height - 1 - k / columns s₀)
        by omega]
      exact h
    · rw [if_neg hup] at h ⊢
      rw [if_neg hup]
      exact stepped_forward h
  · rw [if_neg hz, hdiv]
    exact h.1

theorem turned_move (s : GS) : s.stepX.stepRow.wrapped.move =
    { sourceX := (if (s.pixelsTransferred + 1) % s.TRXREG.width = 0 then
          firstX s.TRXREG s.TRXPOS.transOrder s.TRXPOS.sourceX
        else stepped s.TRXPOS.intSourceX (if leftwards s.TRXPOS.transOrder then -1 else 1)) % 2048
      sourceY := (if (s.pixelsTransferred + 1) % s.TRXREG.width = 0 then
          stepped s.TRXPOS.intSourceY (if upwards s.TRXPOS.transOrder then -1 else 1)
        else s.TRXPOS.intSourceY) % 2048
      destX := (if (s.pixelsTransferred + 1) % s.TRXREG.width = 0 then
          firstX s.TRXREG s.TRXPOS.transOrder s.TRXPOS.destX
        else stepped s.TRXPOS.intDestX (if leftwards s.TRXPOS.transOrder then -1 else 1)) % 2048
      destY := (if (s.pixelsTransferred + 1) % s.TRXREG.width = 0 then
          stepped s.TRXPOS.intDestY (if upwards s.TRXPOS.transOrder then -1 else 1)
        else s.TRXPOS.intDestY) % 2048 } := by
  unfold GS.stepRow GS.stepX
  dsimp only
  by_cases hz : (s.pixelsTransferred + 1) % s.TRXREG.width = 0
  · simp only [if_pos hz]
    rfl
  · simp only [if_neg hz]
    rfl

theorem turned_frame (s : GS) : s.stepX.stepRow.wrapped.BITBLTBUF = s.BITBLTBUF ∧
    s.stepX.stepRow.wrapped.TRXREG = s.TRXREG ∧
    s.stepX.stepRow.wrapped.TRXPOS.sourceX = s.TRXPOS.sourceX ∧
    s.stepX.stepRow.wrapped.TRXPOS.destX = s.TRXPOS.destX ∧
    s.stepX.stepRow.wrapped.TRXPOS.transOrder = s.TRXPOS.transOrder ∧
    s.stepX.stepRow.wrapped.pixelsTransferred = s.pixelsTransferred + 1 ∧
    s.stepX.stepRow.wrapped.localMem = s.localMem := by
  unfold GS.stepRow GS.stepX
  dsimp only
  split <;> exact ⟨rfl, rfl, rfl, rfl, rfl, rfl, rfl⟩

/-- The transfer stands before the next pixel. -/
theorem Standing.next {mv : Move} (hc : Copies s₀) (hk : k + 1 < total s₀) (h : Standing s₀ k mv s) (hn : Near s₀ k mv) :
    Standing s₀ (k + 1) (target s₀ (pixel s₀ (k + 1))) s.stepX.stepRow.wrapped := by
  have hw : 0 < columns s₀ := hc.width.1
  have hlt : columns s₀ < 4096 := hc.width.2
  obtain rfl : s.move = mv := h.move
  obtain ⟨hbitblt, hsize, hsourceX, hdestX, horder, htransferred, -⟩ := turned_frame s
  refine ⟨hbitblt.trans h.bitblt, hsize.trans h.size, hsourceX.trans h.sourceX, hdestX.trans h.destX,
    horder.trans h.order, htransferred.trans (congrArg (· + 1) h.transferred), ?_⟩
  rw [turned_move, h.transferred, h.size, h.order, h.sourceX, h.destX]
  exact Move.mk.injEq .. ▸ ⟨next_column hw hc.sourceX hlt hn.sourceX, next_row hk hw hn.sourceY,
    next_column hw hc.destX hlt hn.destX, next_row hk hw hn.destY⟩

theorem copyPixel_eq (h : Compatible s.BITBLTBUF) : s.copyPixel T =
    some ({ s with localMem := copied T s.BITBLTBUF s.localMem s.move } : GS).stepX.stepRow.wrapped := by
  obtain ⟨-, hcopied⟩ := copied_span (T := T) h s.localMem s.move
  rw [Option.bind_eq_some_iff] at hcopied
  obtain ⟨data, hread, hwrite⟩ := hcopied
  show (readSource T s.BITBLTBUF s.TRXPOS.intSourceX s.TRXPOS.intSourceY s.localMem).bind _ = _
  rw [show readSource T s.BITBLTBUF s.TRXPOS.intSourceX s.TRXPOS.intSourceY s.localMem = some data from hread]
  show (writeDest T s.BITBLTBUF s.TRXPOS.intDestX s.TRXPOS.intDestY data s.localMem).bind _ = _
  rw [show writeDest T s.BITBLTBUF s.TRXPOS.intDestX s.TRXPOS.intDestY data s.localMem = some _ from hwrite]
  rfl

/-- The turns that are left copy the pixels that are left. -/
theorem copyLoop_run (hc : Copies s₀) (n : ℕ) {mv : Move} (h : Standing s₀ k mv s) (hn : Near s₀ k mv)
    (hk : k + (n + 1) = total s₀) : ∃ mvs s',
      mvs = mv :: (List.range' (k + 1) n).map (fun j => target s₀ (pixel s₀ j)) ∧
      s.copyLoop T (n + 1) = some (mvs, s') ∧ s'.localMem = mvs.foldl (copied T s₀.BITBLTBUF) s.localMem := by
  induction n generalizing k mv s with
  | zero =>
    obtain rfl : s.move = mv := h.move
    have hformats : Compatible s.BITBLTBUF := h.bitblt ▸ hc.formats
    let s₁ : GS := { s with localMem := copied T s.BITBLTBUF s.localMem s.move }
    refine ⟨_, s₁.stepX.stepRow.wrapped, rfl, ?_, ?_⟩
    · show (s.copyPixel T).bind _ = _
      rw [copyPixel_eq hformats]
      rfl
    · rw [(turned_frame s₁).2.2.2.2.2.2, ← h.bitblt]
      rfl
  | succ n ih =>
    obtain rfl : s.move = mv := h.move
    have hformats : Compatible s.BITBLTBUF := h.bitblt ▸ hc.formats
    let s₁ : GS := { s with localMem := copied T s.BITBLTBUF s.localMem s.move }
    have h₁ : Standing s₀ k s.move s₁ := ⟨h.bitblt, h.size, h.sourceX, h.destX, h.order, h.transferred, rfl⟩
    have hnext : Standing s₀ (k + 1) (target s₀ (pixel s₀ (k + 1))) s₁.stepX.stepRow.wrapped :=
      h₁.next hc (by omega) hn
    obtain ⟨mvs, s', hmvs, hrun, hmem⟩ := ih hnext (near_target s₀ (k + 1)) (by omega)
    refine ⟨s.move :: mvs, s', ?_, ?_, ?_⟩
    · rw [hmvs, List.range'_succ, List.map_cons]
    · show (s.copyPixel T).bind _ = _
      rw [copyPixel_eq hformats, Option.bind_some]
      show (s₁.stepX.stepRow.wrapped.copyLoop T (n + 1)).bind _ = _
      rw [hrun]
      rfl
    · rw [hmem, List.foldl_cons, ← h.bitblt, (turned_frame s₁).2.2.2.2.2.2]

/-! ### The transfer -/

/-- The copy of the pixel in the corner where the transfer begins. -/
def firstMove (s : GS) : Move :=
  ⟨firstX s.TRXREG s.TRXPOS.transOrder s.TRXPOS.sourceX, firstY s.TRXREG s.TRXPOS.transOrder s.TRXPOS.sourceY,
    firstX s.TRXREG s.TRXPOS.transOrder s.TRXPOS.destX, firstY s.TRXREG s.TRXPOS.transOrder s.TRXPOS.destY⟩

theorem near_firstMove (hc : Copies s) : Near s 0 (firstMove s) := by
  obtain ⟨-, hsx, hsy, hdx, hdy, ⟨hw, hw'⟩, ⟨hh, hh'⟩, -⟩ := hc
  have hx (x : ℕ) (hx : x < 2048) : Wraps (firstX s.TRXREG s.TRXPOS.transOrder x) (x + (pixel s 0).1) := by
    unfold Wraps firstX pixel
    rw [Nat.zero_mod]
    split_ifs <;> dsimp only <;> omega
  have hy (y : ℕ) (hy : y < 2048) : Wraps (firstY s.TRXREG s.TRXPOS.transOrder y) (y + (pixel s 0).2) := by
    unfold Wraps firstY pixel
    rw [Nat.zero_div]
    split_ifs <;> dsimp only <;> omega
  exact ⟨hx _ hsx, hy _ hsy, hx _ hdx, hy _ hdy⟩

theorem total_pos (hc : Copies s) : 0 < total s := Nat.mul_pos hc.width.1 hc.height.1

theorem moves_eq (hc : Copies s) : moves s = (List.range (total s)).map fun k => target s (pixel s k) := by
  unfold moves
  rw [scan_eq hc.width.1, List.map_map]
  rfl

theorem moves_cons (hc : Copies s) : moves s = target s (pixel s 0) ::
    (List.range' 1 (total s - 1)).map fun k => target s (pixel s k) := by
  have hpos : 0 < total s := total_pos hc
  rw [moves_eq hc, show total s = (total s - 1) + 1 by omega, List.range_eq_range', List.range'_succ, List.map_cons]
  rfl

/-- The transfer copies all pixels; the first one is where the corner is. -/
theorem localToLocal_run (hc : Copies s) : ∃ s',
    (begun s).localToLocal T = some (firstMove s :: (moves s).tail, s') ∧
    s'.localMem = (firstMove s :: (moves s).tail).foldl (copied T s.BITBLTBUF) s.localMem := by
  have hpos : 0 < total s := total_pos hc
  have hstart : Standing s 0 (firstMove s) (begun s).atFirst := ⟨rfl, rfl, rfl, rfl, rfl, rfl, rfl⟩
  obtain ⟨mvs, s', hmvs, hrun, hmem⟩ :=
    copyLoop_run (T := T) hc (total s - 1) hstart (near_firstMove hc) (by omega)
  have htail : mvs = firstMove s :: (moves s).tail := by
    rw [hmvs, moves_cons hc]
    rfl
  rw [htail] at hrun hmem
  refine ⟨{ s' with TRXDIR := 3, pixelsTransferred := 0 }, ?_, hmem⟩
  have hsize : ¬ ((begun s).TRXREG.width = 0 ∨ (begun s).TRXREG.height = 0) := by
    have hw : 0 < (begun s).TRXREG.width := hc.width.1
    have hh : 0 < (begun s).TRXREG.height := hc.height.1
    omega
  have horder : ¬ 4 ≤ (begun s).TRXPOS.transOrder := Nat.not_le_of_lt hc.order
  have hturns : (begun s).TRXREG.width * (begun s).TRXREG.height - (begun s).pixelsTransferred = total s - 1 + 1 := by
    show total s - 0 = _
    omega
  unfold GS.localToLocal
  rw [if_neg hsize, if_neg horder, hturns, hrun]
  rfl

/-! ### The result -/

/-- The corner where the transfer begins does not lie beyond the coordinate 2047. -/
def Straight (s : GS) : Prop :=
  firstX s.TRXREG s.TRXPOS.transOrder s.TRXPOS.sourceX < 2048 ∧
    firstY s.TRXREG s.TRXPOS.transOrder s.TRXPOS.sourceY < 2048 ∧
    firstX s.TRXREG s.TRXPOS.transOrder s.TRXPOS.destX < 2048 ∧
    firstY s.TRXREG s.TRXPOS.transOrder s.TRXPOS.destY < 2048

/-- The pixels of the destination have places of their own, apart from each other and from the source. -/
def NoOverlap (T : PageTables) (s : GS) : Prop := ∀ mv ∈ moves s, ∀ mv' ∈ moves s,
  Apart (pixelSize s.BITBLTBUF.destFormat) (destPlace T s.BITBLTBUF mv) (sourcePlace T s.BITBLTBUF mv') ∧
    ((mv.destX = mv'.destX ∧ mv.destY = mv'.destY) ∨
      Apart (pixelSize s.BITBLTBUF.destFormat) (destPlace T s.BITBLTBUF mv) (destPlace T s.BITBLTBUF mv'))

/-- The same transfer in another order. -/
def inOrder (order : ℕ) (s : GS) : GS := { s with TRXPOS := { s.TRXPOS with transOrder := order } }

/-- The pixels are copied in the order that is asked for, and if nothing overlaps the result is that of
order 0. -/
def Correct (T : PageTables) (s : GS) : Prop := ∃ s', (begun s).localToLocal T = some (moves s, s') ∧
  s'.localMem = (moves s).foldl (copied T s.BITBLTBUF) s.localMem ∧
  (NoOverlap T s →
    ((begun (inOrder 0 s)).localToLocal T).map (fun r => r.2.localMem) = some s'.localMem)

/-- Both directions end with the same pixels. -/
theorem mem_scan {order w h : ℕ} {ij : ℕ × ℕ} : ij ∈ scan order w h ↔ ij.1 < w ∧ ij.2 < h := by
  have hlines (back : Bool) (n i : ℕ) : i ∈ lines back n ↔ i < n := by
    unfold lines
    rw [List.mem_map]
    constructor
    · rintro ⟨k, hk, rfl⟩
      have hk : k < n := List.mem_range.mp hk
      split_ifs <;> omega
    · intro hi
      by_cases hback : back = true
      · exact ⟨n - 1 - i, List.mem_range.mpr (by omega), by rw [if_pos hback]; omega⟩
      · exact ⟨i, List.mem_range.mpr hi, if_neg hback⟩
  unfold scan
  simp only [List.mem_flatMap, List.mem_map, hlines]
  constructor
  · rintro ⟨j, hj, i, hi, rfl⟩
    exact ⟨hi, hj⟩
  · rintro ⟨hi, hj⟩
    exact ⟨ij.2, hj, ij.1, hi, rfl⟩

theorem straight_iff (hc : Copies s) : Straight s ↔ firstMove s = target s (pixel s 0) := by
  have hwraps {v x : ℕ} (h : Wraps v x) : v < 2048 ↔ v = x % 2048 := by
    obtain ⟨hmod, -⟩ := h
    omega
  have hn : Near s 0 (firstMove s) := near_firstMove hc
  unfold Straight target firstMove
  rw [Move.mk.injEq]
  exact and_congr (hwraps hn.sourceX) (and_congr (hwraps hn.sourceY) (and_congr (hwraps hn.destX) (hwraps hn.destY)))

theorem mem_moves {mv : Move} : mv ∈ moves s ↔
    ∃ ij : ℕ × ℕ, (ij.1 < s.TRXREG.width ∧ ij.2 < s.TRXREG.height) ∧ target s ij = mv := by
  unfold moves
  simp only [List.mem_map, mem_scan]

/-- A pixel of the destination has its pixel of the source. -/
theorem sourcePlace_of_dest {mv mv' : Move} (h : mv ∈ moves s) (h' : mv' ∈ moves s) (hx : mv.destX = mv'.destX)
    (hy : mv.destY = mv'.destY) : mv = mv' := by
  obtain ⟨ij, -, rfl⟩ := mem_moves.1 h
  obtain ⟨ij', -, rfl⟩ := mem_moves.1 h'
  unfold target at hx hy ⊢
  dsimp only at hx hy
  congr 1 <;> omega

/-- Nothing overlaps, so the order does not matter. -/
theorem moves_comm (hc : Copies s) (h : NoOverlap T s) (order : ℕ) (m : Bytes) :
    (moves (inOrder order s)).foldl (copied T s.BITBLTBUF) m = (moves s).foldl (copied T s.BITBLTBUF) m := by
  refine copies_comm (fun m mv => (copied_span hc.formats m mv).1) (fun mv hmv mv' hmv' => (h mv hmv mv' hmv').1)
    (fun mv hmv mv' hmv' => ?_) fun mv => ?_
  · rcases (h mv hmv mv' hmv').2 with ⟨hx, hy⟩ | hapart
    · rw [sourcePlace_of_dest hmv hmv' hx hy]
      exact .inl ⟨rfl, rfl⟩
    · exact .inr hapart
  · rw [mem_moves, mem_moves]
    rfl

theorem inOrder_copies (hc : Copies s) {order : ℕ} (h : order < 4) : Copies (inOrder order s) :=
  ⟨hc.formats, hc.sourceX, hc.sourceY, hc.destX, hc.destY, hc.width, hc.height, h⟩

theorem straight_order_zero (hc : Copies s) : Straight (inOrder 0 s) := ⟨hc.sourceX, hc.sourceY, hc.destX, hc.destY⟩

theorem copied_iff_straight (hc : Copies s) : Correct T s ↔ Straight s := by
  obtain ⟨s', hrun, hmem⟩ := localToLocal_run (T := T) hc
  constructor
  · rintro ⟨s'', hrun', -⟩
    rw [hrun, Option.some.injEq, Prod.mk.injEq, moves_cons hc] at hrun'
    exact (straight_iff hc).mpr (List.cons.inj hrun'.1).1
  · intro h
    have hmoves (t : GS) (ht : Copies t) (hs : Straight t) : firstMove t :: (moves t).tail = moves t := by
      rw [(straight_iff ht).mp hs]
      conv_rhs => rw [moves_cons ht]
      rw [moves_cons ht]
      rfl
    rw [hmoves s hc h] at hrun hmem
    refine ⟨s', hrun, hmem, fun hno => ?_⟩
    have hc₀ : Copies (inOrder 0 s) := inOrder_copies hc (by decide)
    obtain ⟨s₀', hrun₀, hmem₀⟩ := localToLocal_run (T := T) hc₀
    rw [hmoves _ hc₀ (straight_order_zero hc)] at hrun₀ hmem₀
    rw [hrun₀, Option.map_some, hmem₀, hmem]
    exact congrArg some (moves_comm hc hno 0 s.localMem)

/-- **A transfer within the local memory**: a turn copies one pixel and changes nothing else, and the
transfer is right exactly if the corner where it begins does not lie beyond the coordinate 2047. -/
theorem copies_iff (T : PageTables) :
    (∀ r, Compatible r → ∀ m mv, CopiesSpan (pixelSize r.destFormat) (sourcePlace T r mv) (destPlace T r mv) m
      (copied T r m mv)) ∧
    ∀ s, Copies s → (Correct T s ↔ Straight s) :=
  ⟨fun _ hr m mv => (copied_span hr m mv).1, fun _ hc => copied_iff_straight hc⟩

/-- A row of two pixels, copied from the right to the left. -/
def rowOfTwo (x : ℕ) : GS where
  BITBLTBUF := ⟨0, 64, 0x00, 8192, 64, 0x30⟩
  TRXPOS := ⟨x, 0, 0, 0, 0, 0, 0, 0, 2⟩
  TRXREG := ⟨2, 1⟩
  TRXDIR := 3
  pixelsTransferred := 0
  PSMCT24Color := 0
  PSMCT24UnpackedCount := 0
  localMem _ := 0
  pixels := []

theorem copies_rowOfTwo : Correct RoundTrip.tables (rowOfTwo 2046) ∧
    CopiesSpan 32 (sourcePlace RoundTrip.tables (rowOfTwo 0).BITBLTBUF ⟨0, 0, 0, 0⟩)
      (destPlace RoundTrip.tables (rowOfTwo 0).BITBLTBUF ⟨0, 0, 0, 0⟩) (fun _ => 1)
      (copied RoundTrip.tables (rowOfTwo 0).BITBLTBUF (fun _ => 1) ⟨0, 0, 0, 0⟩) := by
  obtain ⟨hspan, hiff⟩ := copies_iff RoundTrip.tables
  have hcopies : Copies (rowOfTwo 2046) :=
    ⟨⟨by decide, by decide, rfl⟩, by decide, by decide, by decide, by decide, by decide, by decide, by decide⟩
  refine ⟨(hiff (rowOfTwo 2046) hcopies).mpr (by unfold Straight; decide), ?_⟩
  exact hspan (rowOfTwo 0).BITBLTBUF ⟨by decide, by decide, rfl⟩ _ _

/-- The last pixel of the row is that of the coordinate 0, but it is read at 2048. -/
theorem not_copies : Copies (rowOfTwo 2047) ∧ ¬ Correct RoundTrip.tables (rowOfTwo 2047) := by
  have hcopies : Copies (rowOfTwo 2047) :=
    ⟨⟨by decide, by decide, rfl⟩, by decide, by decide, by decide, by decide, by decide, by decide, by decide⟩
  refine ⟨hcopies, fun h => ?_⟩
  have hstraight : Straight (rowOfTwo 2047) := (copied_iff_straight hcopies).mp h
  exact absurd hstraight.1 (by decide)

end DobieStation.Gs.LocalCopy
