import DobieStation.GsThread.Rasterizer

/-! # Scissoring

Which pixels points, lines and sprites draw. A sprite draws the pixels of its rectangle that are inside the
scissor, each once. A line is cut off by the scissor only along the axis it is drawn by; its height over a
column is not checked, so that it has to be inside at the first and at the last column that are drawn. -/

namespace DobieStation.GsThread.Rasterizer

open Grid

/-! ### The bounds of the loops -/

theorem minBound_eq (a b : ℤ) (e : ℕ) :
    minBound a b (e <<< 4) = 16 * max (nearest 16 (min a b)) e := by
  have he : ((e <<< 4 : ℕ) : ℤ) = 16 * e := by rw [Nat.shiftLeft_eq]; omega
  unfold minBound
  rw [he, Int.shiftRight_eq_div_pow, Int.shiftLeft_eq, ← nearest_mul (by decide : (0 : ℤ) < 16) e,
    ← nearest_max (by decide), nearest_mul (by decide)]
  unfold nearest
  omega

theorem maxBound_eq (a b : ℤ) (e : ℕ) :
    maxBound a b (e <<< 4) = 16 * min (nearest 16 (max a b)) (e + 1) := by
  have he : ((e <<< 4 : ℕ) : ℤ) + 0x10 = 16 * (e + 1) := by rw [Nat.shiftLeft_eq]; omega
  unfold maxBound
  rw [he, Int.shiftRight_eq_div_pow, Int.shiftLeft_eq, ← nearest_mul (by decide : (0 : ℤ) < 16) (e + 1),
    ← nearest_min (by decide), nearest_mul (by decide)]
  unfold nearest
  omega

theorem pixel_eq (d : Draw) : d.pixel = (d.x / 16, d.y / 16) := by
  unfold Draw.pixel
  rw [Int.shiftRight_eq_div_pow, Int.shiftRight_eq_div_pow]
  rfl

/-! ### What the pixels should be -/

/-- The pixels of the scissor, bounds inclusive. -/
def Inside (scissor : DoubleWord) (p : ℤ × ℤ) : Prop :=
  ((bitsOf scissor 0 11 : ℤ) ≤ p.1 ∧ p.1 ≤ bitsOf scissor 16 11) ∧
  ((bitsOf scissor 32 11 : ℤ) ≤ p.2 ∧ p.2 ≤ bitsOf scissor 48 11)

/-- The pixels between two vertices along the axis `f`: the first edge belongs to them, the last one does not. -/
def Spans (f : RelVertex → ℤ) (v1 v2 : RelVertex) (k : ℤ) : Prop :=
  nearest 16 (min (f v1) (f v2)) ≤ k ∧ k < nearest 16 (max (f v1) (f v2))

instance (f : RelVertex → ℤ) (v1 v2 : RelVertex) (k : ℤ) : Decidable (Spans f v1 v2 k) :=
  inferInstanceAs (Decidable (_ ∧ _))

def Covers (v1 v2 : RelVertex) (p : ℤ × ℤ) : Prop := Spans RelVertex.x v1 v2 p.1 ∧ Spans RelVertex.y v1 v2 p.2

instance (scissor : DoubleWord) (p : ℤ × ℤ) : Decidable (Inside scissor p) :=
  inferInstanceAs (Decidable ((_ ∧ _) ∧ (_ ∧ _)))

instance (v1 v2 : RelVertex) (p : ℤ × ℤ) : Decidable (Covers v1 v2 p) := inferInstanceAs (Decidable (_ ∧ _))

/-- Along `f`, the rectangle of `s` and `t` is that of `u` and `v` followed by that of `u'` and `v'`; along
`g` the three are the same. -/
structure Abut (f g : RelVertex → ℤ) (u v u' v' s t : RelVertex) : Prop where
  meet : max (f u) (f v) = min (f u') (f v')
  first : min (f s) (f t) = min (f u) (f v)
  last : max (f s) (f t) = max (f u') (f v')
  across : min (g u) (g v) = min (g s) (g t) ∧ max (g u) (g v) = max (g s) (g t)
  across' : min (g u') (g v') = min (g s) (g t) ∧ max (g u') (g v') = max (g s) (g t)

/-! ### Sprites -/

section

variable (c : GSContext) (offset scissor : DoubleWord)

/-- The context after XYOFFSET and SCISSOR are written. -/
def context : GSContext := (c.setXyoffset offset).setScissor scissor

/-- A vertex relative to the offset. -/
def relative (v : SentVertex) : RelVertex := v.toRelative (context c offset scissor).xyoffset

/-- The pixels a sprite draws. -/
def spritePixels (vtx1 vtx0 : SentVertex) : List (ℤ × ℤ) :=
  (renderSprite (context c offset scissor) vtx1 vtx0).map Draw.pixel

variable (vtx1 vtx0 : SentVertex)

theorem spritePixels_eq :
    let v1 := relative c offset scissor vtx1
    let v2 := relative c offset scissor vtx0
    spritePixels c offset scissor vtx1 vtx0 =
      ((steps 16 (minBound v1.y v2.y (bitsOf scissor 32 11 <<< 4))
        (maxBound v1.y v2.y (bitsOf scissor 48 11 <<< 4))).map (· / 16)).flatMap fun y =>
      ((steps 16 (minBound v1.x v2.x (bitsOf scissor 0 11 <<< 4))
        (maxBound v1.x v2.x (bitsOf scissor 16 11 <<< 4))).map (· / 16)).map fun x => (x, y) := by
  intro v1 v2
  unfold spritePixels renderSprite
  simp only [List.map_flatMap, List.flatMap_map, List.map_map, Function.comp_def, pixel_eq]
  rfl

theorem nodup_spritePixels : (spritePixels c offset scissor vtx1 vtx0).Nodup := by
  rw [spritePixels_eq, List.nodup_flatMap]
  constructor
  · intro y _
    rw [minBound_eq]
    refine List.Nodup.map (fun x x' h => ?_) (nodup_map_ediv_steps (by decide) _ _)
    exact congrArg Prod.fst h
  · simp only [minBound_eq]
    have hrows := nodup_map_ediv_steps (by decide : (0 : ℤ) < 16)
    refine List.Pairwise.imp (fun {y y'} hne => ?_) (hrows _ _)
    rintro p hp hp'
    obtain ⟨x, -, rfl⟩ := List.mem_map.mp hp
    obtain ⟨x', -, h⟩ := List.mem_map.mp hp'
    exact hne (congrArg Prod.snd h).symm

theorem mem_spritePixels (p : ℤ × ℤ) :
    p ∈ spritePixels c offset scissor vtx1 vtx0 ↔
      Covers (relative c offset scissor vtx1) (relative c offset scissor vtx0) p ∧ Inside scissor p := by
  obtain ⟨x, y⟩ := p
  rw [spritePixels_eq, List.mem_flatMap]
  simp only [minBound_eq, maxBound_eq, mem_map_ediv_steps (by decide : (0 : ℤ) < 16)]
  unfold Covers Spans Inside
  constructor
  · rintro ⟨y', hy, h⟩
    obtain ⟨x', hx, h⟩ := List.mem_map.mp h
    obtain ⟨rfl, rfl⟩ := Prod.mk.injEq .. ▸ h
    rw [mem_map_ediv_steps (by decide)] at hx
    omega
  · intro h
    refine ⟨y, by omega, List.mem_map.mpr ⟨x, ?_, rfl⟩⟩
    rw [mem_map_ediv_steps (by decide)]
    omega

/-- A sprite draws each pixel of its rectangle that is inside the scissor once, and no other. -/
theorem count_spritePixels (p : ℤ × ℤ) :
    (spritePixels c offset scissor vtx1 vtx0).count p =
      if Covers (relative c offset scissor vtx1) (relative c offset scissor vtx0) p ∧ Inside scissor p then 1
      else 0 := by
  rw [(nodup_spritePixels c offset scissor vtx1 vtx0).count]
  exact if_congr (mem_spritePixels c offset scissor vtx1 vtx0 p) rfl rfl

end

/-- A pixel of the whole is a pixel of one part, and of one only. -/
theorem Abut.spans {f g : RelVertex → ℤ} {u v u' v' s t : RelVertex} (h : Abut f g u v u' v' s t) (k : ℤ) :
    (Spans f s t k ↔ Spans f u v k ∨ Spans f u' v' k) ∧ ¬(Spans f u v k ∧ Spans f u' v' k) := by
  unfold Spans
  rw [h.first, h.last, ← h.meet]
  have h1 : nearest 16 (min (f u) (f v)) ≤ nearest 16 (max (f u) (f v)) :=
    nearest_mono (by decide) min_le_max
  have h2 : nearest 16 (max (f u) (f v)) ≤ nearest 16 (max (f u') (f v')) :=
    nearest_mono (by decide) (h.meet ▸ min_le_max)
  omega

theorem Abut.spans_across {f g : RelVertex → ℤ} {u v u' v' s t : RelVertex} (h : Abut f g u v u' v' s t)
    (k : ℤ) : (Spans g u v k ↔ Spans g s t k) ∧ (Spans g u' v' k ↔ Spans g s t k) := by
  unfold Spans
  rw [h.across.1, h.across.2, h.across'.1, h.across'.2]
  exact ⟨Iff.rfl, Iff.rfl⟩

end DobieStation.GsThread.Rasterizer
