import DobieStation.GsThread.Scissoring

/-! # Lines

A line is drawn column by column, a steep one row by row, between bounds that are inside the scissor. Its
height over a column follows the exact line, with the fraction cut off; it is not checked. -/

namespace DobieStation.GsThread.Rasterizer

open Grid

/-! ### The condition -/

/-- The exact line through `l` and `r` is inside `[y1, y2 + 0x10)` over `x`. Heights that are less than one
unit below 0 are cut off to 0. -/
def HeightWithin (l r : RelVertex) (y1 y2 : ℕ) (x : ℤ) : Prop :=
  (y1 * (r.x - l.x) ≤ rise l.x l.y r.x r.y x ∨ y1 = 0 ∧ -(r.x - l.x) < rise l.x l.y r.x r.y x) ∧
    rise l.x l.y r.x r.y x < (y2 + 0x10) * (r.x - l.x)

/-- The same over the first and over the last column that is drawn. -/
def EndsWithin (v1 v2 : RelVertex) (x1 x2 y1 y2 : ℕ) : Prop :=
  minBound v1.x v2.x x1 < maxBound v1.x v2.x x2 →
    HeightWithin (leftToRight v1 v2).1 (leftToRight v1 v2).2 y1 y2 (minBound v1.x v2.x x1) ∧
    HeightWithin (leftToRight v1 v2).1 (leftToRight v1 v2).2 y1 y2 (maxBound v1.x v2.x x2 - 0x10)

/-- A line leaves the scissor neither at its first nor at its last pixel. -/
def LineWithin (c : GSContext) (vtx1 vtx0 : SentVertex) : Prop :=
  let v1 := vtx1.toRelative c.xyoffset
  let v2 := vtx0.toRelative c.xyoffset
  if isSteep v1 v2 then
    EndsWithin v1.swap v2.swap c.scissor.y1 c.scissor.y2 c.scissor.x1 c.scissor.x2
  else EndsWithin v1 v2 c.scissor.x1 c.scissor.x2 c.scissor.y1 c.scissor.y2

/-! ### Vertices in order -/

/-- Two vertices from the left to the right of which a line is drawn by columns. -/
structure Ordered (l r : RelVertex) : Prop where
  x_le : l.x ≤ r.x
  slope : |r.y - l.y| ≤ r.x - l.x
  left : |l.x| ≤ 2 ^ 16
  right : |r.x| ≤ 2 ^ 16
  height : |l.y| ≤ 2 ^ 16

/-- The coordinates of a vertex have 17 bits with the sign. -/
def Bounded (v : RelVertex) : Prop := |v.x| ≤ 2 ^ 16 ∧ |v.y| ≤ 2 ^ 16

theorem bounded_toRelative (v : SentVertex) (o : XYOFFSET) : Bounded (v.toRelative o) := by
  have hx := v.x_lt
  have hy := v.y_lt
  have hox := o.x.isLt
  have hoy := o.y.isLt
  constructor
  · rw [abs_le]
    show -2 ^ 16 ≤ (v.x.toNat : ℤ) - o.x.toNat ∧ (v.x.toNat : ℤ) - o.x.toNat ≤ 2 ^ 16
    omega
  · rw [abs_le]
    show -2 ^ 16 ≤ (v.y.toNat : ℤ) - o.y.toNat ∧ (v.y.toNat : ℤ) - o.y.toNat ≤ 2 ^ 16
    omega

theorem Bounded.swap {v : RelVertex} (h : Bounded v) : Bounded v.swap := ⟨h.2, h.1⟩

theorem ordered_leftToRight {v1 v2 : RelVertex} (h1 : Bounded v1) (h2 : Bounded v2)
    (hs : isSteep v1 v2 = false) : Ordered (leftToRight v1 v2).1 (leftToRight v1 v2).2 := by
  have hsteep : (v2.y - v1.y).natAbs ≤ (v2.x - v1.x).natAbs := by
    simpa [isSteep] using hs
  unfold leftToRight
  split
  case isTrue hlt =>
    refine ⟨Int.le_of_lt hlt, ?_, h2.1, h1.1, h2.2⟩
    rw [abs_le]
    show -(v1.x - v2.x) ≤ v1.y - v2.y ∧ v1.y - v2.y ≤ v1.x - v2.x
    omega
  case isFalse hle =>
    refine ⟨Int.not_lt.mp hle, ?_, h1.1, h2.1, h1.2⟩
    rw [abs_le]
    show -(v2.x - v1.x) ≤ v2.y - v1.y ∧ v2.y - v1.y ≤ v2.x - v1.x
    omega

theorem min_leftToRight (v1 v2 : RelVertex) : min v1.x v2.x = (leftToRight v1 v2).1.x := by
  unfold leftToRight
  split
  · exact min_eq_right (by omega)
  · exact min_eq_left (by omega)

theorem max_leftToRight (v1 v2 : RelVertex) : max v1.x v2.x = (leftToRight v1 v2).2.x := by
  unfold leftToRight
  split
  · exact max_eq_left (by omega)
  · exact max_eq_right (by omega)

/-- A steep line that is transposed is not steep. -/
theorem isSteep_swap {v1 v2 : RelVertex} (h : isSteep v1 v2 = true) : isSteep v1.swap v2.swap = false := by
  have hlt : (v2.x - v1.x).natAbs < (v2.y - v1.y).natAbs := by simpa [isSteep] using h
  have hle : ¬(v2.y - v1.y).natAbs < (v2.x - v1.x).natAbs := by omega
  exact decide_eq_false hle

/-! ### A column -/

section

variable {l r : RelVertex} (ho : Ordered l r)

include ho

/-- A column that is drawn is at most half a pixel outside of the line. -/
theorem Ordered.near (e1 e2 : ℕ) {x : ℤ} (hlo : minBound l.x r.x (e1 <<< 4) ≤ x)
    (hhi : x < maxBound l.x r.x (e2 <<< 4)) : l.x < r.x ∧ l.x - 8 ≤ x ∧ x < r.x + 8 := by
  rw [minBound_eq, min_eq_left ho.x_le] at hlo
  rw [maxBound_eq, max_eq_right ho.x_le] at hhi
  have h1 := le_max_left (nearest 16 l.x) e1
  have h2 := min_le_left (nearest 16 r.x) (e2 + 1)
  unfold nearest at h1 h2 hlo hhi
  refine ⟨?_, by omega, by omega⟩
  by_contra hle
  have : l.x = r.x := le_antisymm ho.x_le (not_lt.mp hle)
  rw [this] at h1 hlo
  omega

theorem Ordered.lineDraw_y {x : ℤ} (hlt : l.x < r.x) (hlo : l.x - 8 ≤ x) (hhi : x < r.x + 8) :
    (lineDraw l r x).y = (rise l.x l.y r.x r.y x).tdiv (r.x - l.x) := by
  have hd : 0 < r.x - l.x := by omega
  have hl := abs_le.mp ho.left
  have hr := abs_le.mp ho.right
  have hn : |x - l.x| ≤ 2 ^ 18 := by
    rw [abs_le]
    omega
  have habs := abs_le.mp (abs_rise_le ho.x_le ho.slope ho.height hn)
  have hne : ¬r.x - l.x = 0 := by omega
  have hval : interpolate x l.y l.x r.y r.x = (rise l.x l.y r.x r.y x).tdiv (r.x - l.x) := if_neg hne
  -- the quotient fits in an `int32_t`
  have hle : (rise l.x l.y r.x r.y x).tdiv (r.x - l.x) ≤ 2 ^ 16 + 2 ^ 18 :=
    (Int.tdiv_le_tdiv hd habs.2).trans_eq (Int.mul_tdiv_cancel _ hne)
  have hge : -(2 ^ 16 + 2 ^ 18) ≤ (rise l.x l.y r.x r.y x).tdiv (r.x - l.x) := by
    have h := Int.tdiv_le_tdiv hd habs.1
    rwa [Int.neg_tdiv, Int.mul_tdiv_cancel _ hne] at h
  show (BitVec.ofInt 32 (interpolate x l.y l.x r.y r.x)).toInt = _
  rw [hval]
  exact BitVec.toInt_ofInt_eq_self (by decide) (by omega) (by omega)

theorem Ordered.pixel_within {f1 f2 : ℕ} {x : ℤ} (hlt : l.x < r.x) (hlo : l.x - 8 ≤ x) (hhi : x < r.x + 8) :
    ((f1 : ℤ) ≤ (lineDraw l r x).pixel.2 ∧ (lineDraw l r x).pixel.2 ≤ f2) ↔
      HeightWithin l r (f1 <<< 4) (f2 <<< 4) x := by
  have hd : 0 < r.x - l.x := by omega
  have hlow := le_tdiv_iff (a := rise l.x l.y r.x r.y x) hd (by omega : 0 ≤ ((f1 <<< 4 : ℕ) : ℤ))
  have hhigh := tdiv_lt_iff (a := rise l.x l.y r.x r.y x) hd (by omega : 0 < ((f2 <<< 4 : ℕ) : ℤ) + 0x10)
  unfold HeightWithin
  rw [pixel_eq, ho.lineDraw_y hlt hlo hhi, ← hhigh]
  have hz : ((f1 <<< 4 : ℕ) : ℤ) = 0 ↔ f1 <<< 4 = 0 := by omega
  rw [← hz, ← hlow, Nat.shiftLeft_eq, Nat.shiftLeft_eq]
  show (f1 : ℤ) ≤ (rise l.x l.y r.x r.y x).tdiv (r.x - l.x) / 16 ∧ _ / 16 ≤ (f2 : ℤ) ↔ _
  push_cast
  omega

/-- The height is inside over a column between two over which it is inside. -/
theorem Ordered.heightWithin_between {y1 y2 : ℕ} {lo hi x : ℤ} (h1 : HeightWithin l r y1 y2 lo)
    (h2 : HeightWithin l r y1 y2 hi) (hlo : lo ≤ x) (hhi : x ≤ hi) : HeightWithin l r y1 y2 x := by
  unfold HeightWithin at *
  have hd : 0 ≤ r.x - l.x := by have := ho.x_le; omega
  have hneg : y1 = 0 → (y1 : ℤ) * (r.x - l.x) = 0 := by
    rintro rfl
    exact Int.zero_mul _
  rcases rise_between l.x l.y r.x r.y hlo hhi with h | h
  · refine ⟨?_, by omega⟩
    rcases h1.1 with h3 | ⟨h3, h4⟩
    · exact Or.inl (by omega)
    · exact Or.inr ⟨h3, by omega⟩
  · refine ⟨?_, by omega⟩
    rcases h2.1 with h3 | ⟨h3, h4⟩
    · exact Or.inl (by omega)
    · exact Or.inr ⟨h3, by omega⟩

end

/-! ### A line -/

/-- The columns are inside the scissor; the heights are if those at the ends are. -/
theorem lineLoop_within {v1 v2 : RelVertex} (h1 : Bounded v1) (h2 : Bounded v2) (hs : isSteep v1 v2 = false)
    (e1 e2 f1 f2 : ℕ) :
    (∀ d ∈ lineLoop v1 v2 (minBound v1.x v2.x (e1 <<< 4)) (maxBound v1.x v2.x (e2 <<< 4)),
      ((e1 : ℤ) ≤ d.pixel.1 ∧ d.pixel.1 ≤ e2) ∧ ((f1 : ℤ) ≤ d.pixel.2 ∧ d.pixel.2 ≤ f2)) ↔
    EndsWithin v1 v2 (e1 <<< 4) (e2 <<< 4) (f1 <<< 4) (f2 <<< 4) := by
  have ho := ordered_leftToRight h1 h2 hs
  have hbounds : ∀ x, minBound v1.x v2.x (e1 <<< 4) ≤ x → x < maxBound v1.x v2.x (e2 <<< 4) → _ :=
    fun x hlo hhi => ho.near e1 e2 (x := x)
      (by rwa [minBound, min_eq_left ho.x_le, ← min_leftToRight])
      (by rwa [maxBound, max_eq_right ho.x_le, ← max_leftToRight])
  unfold lineLoop EndsWithin
  simp only [List.forall_mem_map, mem_steps (by decide : (0 : ℤ) < 0x10)]
  constructor
  · rintro h hlt
    have hends : ∀ x, minBound v1.x v2.x (e1 <<< 4) ≤ x → x < maxBound v1.x v2.x (e2 <<< 4) →
        (16 : ℤ) ∣ x - minBound v1.x v2.x (e1 <<< 4) →
        HeightWithin (leftToRight v1 v2).1 (leftToRight v1 v2).2 (f1 <<< 4) (f2 <<< 4) x := by
      intro x hlo hhi hdvd
      obtain ⟨hd, hl, hr⟩ := hbounds x hlo hhi
      exact (ho.pixel_within hd hl hr).mp (h x ⟨hlo, hhi, hdvd⟩).2
    rw [minBound_eq, maxBound_eq] at *
    exact ⟨hends _ le_rfl hlt (by omega), hends _ (by omega) (by omega) (by omega)⟩
  · rintro h x ⟨hlo, hhi, hdvd⟩
    obtain ⟨hd, hl, hr⟩ := hbounds x hlo hhi
    obtain ⟨hfirst, hlast⟩ := h (by omega)
    refine ⟨?_, (ho.pixel_within hd hl hr).mpr (ho.heightWithin_between hfirst hlast hlo ?_)⟩
    · rw [pixel_eq]
      show (e1 : ℤ) ≤ x / 16 ∧ x / 16 ≤ e2
      rw [minBound_eq] at hlo
      rw [maxBound_eq] at hhi
      omega
    · rw [minBound_eq] at hlo hdvd
      rw [maxBound_eq] at hhi ⊢
      omega

/-- The pixels of a transposed line are inside the transposed scissor. -/
theorem forall_swap (l : List Draw) (P Q : ℤ → Prop) :
    (∀ d ∈ l.map Draw.swap, P d.pixel.1 ∧ Q d.pixel.2) ↔ ∀ d ∈ l, Q d.pixel.1 ∧ P d.pixel.2 := by
  rw [List.forall_mem_map]
  exact forall₂_congr fun _ _ => and_comm

variable (c : GSContext) (offset scissor : DoubleWord) (vtx1 vtx0 : SentVertex)

theorem renderLine_inside :
    (∀ d ∈ renderLine (context c offset scissor) vtx1 vtx0, Inside scissor d.pixel) ↔
      LineWithin (context c offset scissor) vtx1 vtx0 := by
  have h1 := bounded_toRelative vtx1 (context c offset scissor).xyoffset
  have h2 := bounded_toRelative vtx0 (context c offset scissor).xyoffset
  unfold renderLine LineWithin Inside
  rcases hs : isSteep (vtx1.toRelative (context c offset scissor).xyoffset)
    (vtx0.toRelative (context c offset scissor).xyoffset) with _ | _ <;>
    simp only [hs, Bool.false_eq_true, if_false, if_true]
  · exact lineLoop_within h1 h2 hs _ _ _ _
  · refine (forall_swap _ (fun x => (bitsOf scissor 0 11 : ℤ) ≤ x ∧ x ≤ bitsOf scissor 16 11)
      (fun y => (bitsOf scissor 32 11 : ℤ) ≤ y ∧ y ≤ bitsOf scissor 48 11)).trans ?_
    exact lineLoop_within h1.swap h2.swap (isSteep_swap hs) _ _ _ _

/-! ### Points, lines and sprites -/

theorem renderPoint_inside :
    ∀ d ∈ renderPoint (context c offset scissor) vtx0, Inside scissor d.pixel := by
  intro d hd
  unfold renderPoint at hd
  simp only at hd
  split at hd
  · exact absurd hd List.not_mem_nil
  case isFalse h =>
    obtain rfl := List.mem_singleton.mp hd
    unfold Inside
    rw [pixel_eq]
    have hx1 : (context c offset scissor).scissor.x1 = bitsOf scissor 0 11 * 16 := Nat.shiftLeft_eq _ _
    have hx2 : (context c offset scissor).scissor.x2 = bitsOf scissor 16 11 * 16 := Nat.shiftLeft_eq _ _
    have hy1 : (context c offset scissor).scissor.y1 = bitsOf scissor 32 11 * 16 := Nat.shiftLeft_eq _ _
    have hy2 : (context c offset scissor).scissor.y2 = bitsOf scissor 48 11 * 16 := Nat.shiftLeft_eq _ _
    rw [hx1, hx2, hy1, hy2] at h
    simp only [not_or, not_lt, gt_iff_lt] at h
    push_cast at h
    dsimp only
    omega

/-- What is drawn is inside the scissor, a sprite is its rectangle, and along an edge of two sprites no pixel
is drawn twice or left out. -/
structure Scissored : Prop where
  point : ∀ d ∈ renderPoint (context c offset scissor) vtx0, Inside scissor d.pixel
  line : ∀ d ∈ renderLine (context c offset scissor) vtx1 vtx0, Inside scissor d.pixel
  sprite : ∀ p, (spritePixels c offset scissor vtx1 vtx0).count p =
    if Covers (relative c offset scissor vtx1) (relative c offset scissor vtx0) p ∧ Inside scissor p then 1
    else 0
  edge : ∀ u v u' v' : SentVertex, ∀ rel, rel = relative c offset scissor →
    Abut RelVertex.x RelVertex.y (rel u) (rel v) (rel u') (rel v') (rel vtx1) (rel vtx0) ∨
      Abut RelVertex.y RelVertex.x (rel u) (rel v) (rel u') (rel v') (rel vtx1) (rel vtx0) →
    ∀ p, (spritePixels c offset scissor u v).count p + (spritePixels c offset scissor u' v').count p =
      (spritePixels c offset scissor vtx1 vtx0).count p

/-- A pixel is counted once by the part it is in. -/
theorem count_parts {P Q R S : Prop} [Decidable P] [Decidable Q] [Decidable R] [Decidable S]
    (h : (R ↔ P ∨ Q) ∧ ¬(P ∧ Q)) :
    (if P ∧ S then 1 else 0) + (if Q ∧ S then 1 else 0) = if R ∧ S then 1 else 0 := by
  by_cases hS : S <;> by_cases hP : P <;> by_cases hQ : Q <;> simp_all

theorem scissored_iff :
    Scissored c offset scissor vtx1 vtx0 ↔ LineWithin (context c offset scissor) vtx1 vtx0 := by
  constructor
  · intro h
    exact (renderLine_inside c offset scissor vtx1 vtx0).mp h.line
  · intro h
    refine ⟨renderPoint_inside c offset scissor vtx0, (renderLine_inside c offset scissor vtx1 vtx0).mpr h,
      count_spritePixels c offset scissor vtx1 vtx0, ?_⟩
    rintro u v u' v' rel rfl habut p
    simp only [count_spritePixels]
    refine count_parts ?_
    unfold Covers
    rcases habut with ha | ha
    · obtain ⟨hor, hnand⟩ := ha.spans p.1
      obtain ⟨hu, hu'⟩ := ha.spans_across p.2
      rw [hu, hu', hor, or_and_right]
      exact ⟨Iff.rfl, fun hb => hnand ⟨hb.1.1, hb.2.1⟩⟩
    · obtain ⟨hor, hnand⟩ := ha.spans p.2
      obtain ⟨hu, hu'⟩ := ha.spans_across p.1
      rw [hu, hu', hor, and_or_left]
      exact ⟨Iff.rfl, fun hb => hnand ⟨hb.1.2, hb.2.2⟩⟩

/-- A line from the pixel (0, 0) to the pixel (2, 2) leaves a scissor that is one pixel high. -/
theorem not_scissored : ¬∀ (c : GSContext) (offset scissor : DoubleWord) (vtx1 vtx0 : SentVertex),
    Scissored c offset scissor vtx1 vtx0 := by
  intro h
  let v0 : Vertex := ⟨0#32, 0#32, 0#32, ⟨0#16, 0#16, 0#16, 0#16, 0#32⟩, ⟨0#16, 0#16⟩, 0#32, 0#32, 0#8⟩
  let a : SentVertex := ⟨v0, by decide, by decide⟩
  let b : SentVertex := ⟨{ v0 with x := 32#32, y := 32#32 }, by decide, by decide⟩
  have hline := (h GSContext.blank 0#64 0x1FF0000#64 a b).line ⟨16, 16, 0#32⟩ (by decide)
  revert hline
  decide

end DobieStation.GsThread.Rasterizer
