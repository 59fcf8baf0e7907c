import DobieStation.Gs.Packing
import DobieStation.Gs.Pages

/-! # Pixels to the host

The quadwords hold the pixels as they are read (`returns`), and only in 24 bits a pixel is read at another place
than its own (`reached_eq`): the outer loop looks for the end of the row again where a doubleword ends with part of the
first pixel of a row, and a row that wraps within a doubleword is read once before its number wraps.
So the transfer is right exactly when neither happens (`correct_iff_rows`). -/

namespace DobieStation.Gs.Download

open DobieStation.Gs.Model DobieStation.Gs.Doublewords DobieStation.Gs.Packing DobieStation.Gs.Pages
open DobieStation.Lib.Memory DobieStation.Lib.Fields

variable {T : PageTables} {s s' s₀ : GS} {k m n : ℕ}

/-! ### What is returned -/

/-- A transfer that has been set up. -/
structure Ready (s : GS) : Prop where
  width : s.TRXREG.width ≠ 0
  height : s.TRXREG.height ≠ 0
  format : (sourcePpd s.BITBLTBUF.sourceFormat).isSome
  sourceX : s.TRXPOS.sourceX < 2048
  sourceY : s.TRXPOS.sourceY < 2048

/-- TRXDIR has been set to 1. -/
def begun (s : GS) : GS := ({ s with TRXDIR := 1 } : GS).start

theorem write_TRXDIR {L : GS → GS} : s.write64 T.toTables L 0x53 1 = begun s := rfl

/-- The bits of the rectangle. -/
def bits (s : GS) : ℕ := sourceBits s.BITBLTBUF.sourceFormat * total s

/-- Where the pixel `k` is read. -/
def readAt (s : GS) : ℕ → ℕ × ℕ := if isColorSource s then reached s else place s

theorem stands_begun (h : Ready s) : Stands (begun s) 0 (place (begun s) 0) (begun s) where
  bitblt := rfl
  size := rfl
  sourceX := rfl
  memory := rfl
  transferred := rfl
  x := by
    rw [place, Nat.zero_mod]
    exact (Nat.mod_eq_of_lt h.sourceX).symm
  y := by
    rw [place, Nat.zero_div]
    exact (Nat.mod_eq_of_lt h.sourceY).symm

theorem place_zero (h : Ready s) : place (begun s) 0 = reached (begun s) 0 := by
  have hs := stands_begun h
  exact Prod.ext hs.x.symm hs.y.symm

theorem total_pos (h : Ready s) : 0 < total (begun s) :=
  Nat.mul_pos (Nat.pos_of_ne_zero h.width) (Nat.pos_of_ne_zero h.height)

theorem boundary_begun (h : Ready s) (P : ℕ) : Boundary (begun s) P 0 (begun s) := by
  have hs := stands_begun h
  rw [place_zero h] at hs
  exact ⟨0, total_pos h, Or.inl ⟨rfl, hs, rfl, rfl⟩⟩

/-- The loop runs over the quadwords of the rectangle. -/
theorem loop_returns (h : Ready s) (hm : sourcePpd s.BITBLTBUF.sourceFormat = some m) :
    ∃ fuel qs s', (begun s).readLoop T m (total (begun s)) fuel = some (qs, s') ∧
      Whole (bits (begun s)) (pixels T (begun s) (readAt (begun s)) (total (begun s))) (words qs) ∧
      128 * qs.length < bits (begun s) + 128 := by
  have hw : 0 < columns (begun s) := Nat.pos_of_ne_zero h.width
  have hpos := total_pos h
  have hbegun : ∀ P, Begun P [] := fun P => slice_zero.symm
  rcases sourcePpd_cases hm with ⟨hbits, rfl, hin⟩ | ⟨hbits, hin⟩
  · have hcolor : isColorSource (begun s) := hbits
    have hz : Reading (begun s) (s.BITBLTBUF.sourceFormat = 0x31) := by
      unfold Reading
      rcases hin with hf | hf
      · simp [show (begun s).BITBLTBUF.sourceFormat = 0x01 from hf, hf]
      · simp [show (begun s).BITBLTBUF.sourceFormat = 0x31 from hf, hf]
    have hsteps := color_steps (T := T) hz
    have hlen : bits (begun s) = 24 * total (begun s) := congrArg (· * _) hcolor
    obtain ⟨fuel, qs, s', hloop, hwhole, hcount⟩ := hsteps.loop (j := total (begun s)) hm
      (by simp; omega) (by simp; omega) (hbegun _) (boundary_begun h _)
    rw [List.nil_append] at hwhole
    rw [List.length_nil] at hcount
    rw [readAt, if_pos hcolor, hlen]
    exact ⟨fuel, qs, s', hloop, hwhole, by omega⟩
  · have hcolor : ¬ isColorSource (begun s) := by
      intro hc
      rw [show sourceBits s.BITBLTBUF.sourceFormat = 24 from hc] at hbits
      omega
    have hb : 0 < sourceBits s.BITBLTBUF.sourceFormat := Nat.pos_of_ne_zero fun h0 => by
      rw [h0] at hbits
      omega
    have hb' : sourceBits s.BITBLTBUF.sourceFormat ≤ 64 := Nat.le_of_dvd (by decide) ⟨m, hbits.symm⟩
    have hsteps : Steps T (begun s) m _ _ _ := whole_steps hw hbits hin
    have hM : 0 < bits (begun s) := Nat.mul_pos hb hpos
    have hM' : bits (begun s) ≤ 64 * total (begun s) := Nat.mul_le_mul_right _ hb'
    obtain ⟨fuel, qs, s', hloop, hwhole, hcount⟩ := hsteps.loop (j := total (begun s)) hm
      (by rw [List.length_nil]; exact hM'.trans (by omega)) (show 64 * ([] : List DoubleWord).length < _ from hM)
      (hbegun _)
      ⟨by simpa using hpos, by simpa using stands_begun h⟩
    rw [List.nil_append] at hwhole
    rw [List.length_nil] at hcount
    rw [readAt, if_neg hcolor]
    exact ⟨fuel, qs, s', hloop, hwhole, by simpa [bits] using hcount⟩

theorem length_words (qs : List QuadWord) : (words qs).length = 2 * qs.length := by
  induction qs with
  | nil => rfl
  | cons q qs ih =>
    rw [words_cons, List.length_append, ih, List.length_cons]
    simp
    omega

/-- A transfer that is on, of a size and a format. -/
theorem localToHost_of_loop {fuel : ℕ} {qs : List QuadWord} (hdir : s.TRXDIR ≠ 3)
    (hwidth : s.TRXREG.width ≠ 0) (hheight : s.TRXREG.height ≠ 0)
    (hm : sourcePpd s.BITBLTBUF.sourceFormat = some m)
    (hloop : s.readLoop T m (total s) fuel = some (qs, s')) :
    s.localToHost T fuel = some (qs, { s' with TRXDIR := 3, pixelsTransferred := 0 }) := by
  unfold GS.localToHost
  rw [if_neg hdir, if_neg (not_or.mpr ⟨hwidth, hheight⟩), hm]
  show (s.readLoop T m (total s) fuel).bind _ = _
  rw [hloop]
  rfl

/-- What `local_to_host` returns: the pixels as they are read. -/
theorem returns (h : Ready s) : ∃ fuel qs s', (begun s).localToHost T fuel = some (qs, s') ∧
    qs.length = (bits (begun s) + 127) / 128 ∧
    stream (words qs) % 2 ^ bits (begun s) =
      pixels T (begun s) (readAt (begun s)) (total (begun s)) ∧ s'.TRXDIR = 3 := by
  obtain ⟨m, hm⟩ := Option.isSome_iff_exists.mp h.format
  obtain ⟨fuel, qs, s', hloop, ⟨hstream, hlast⟩, hcount⟩ := loop_returns (T := T) h hm
  have hlt : pixels T (begun s) (readAt (begun s)) (total (begun s)) < 2 ^ bits (begun s) :=
    fields_lt pixelAt_lt
  have hdir : (begun s).TRXDIR ≠ 3 := by
    show 1 ≠ 3
    decide
  rw [slice_self hlt] at hstream
  rw [length_words] at hlast
  exact ⟨fuel, qs, _, localToHost_of_loop hdir h.width h.height hm hloop, by omega, hstream, rfl⟩

/-- More fuel does not change what is returned. -/
theorem readLoop_unique {max f f' : ℕ} {r r' : List QuadWord × GS}
    (h : s.readLoop T m max f = some r) (h' : s.readLoop T m max f' = some r') : r = r' := by
  induction f generalizing f' s r r' with
  | zero => cases h
  | succ f ih =>
    cases f' with
    | zero => cases h'
    | succ f' =>
      rw [GS.readLoop] at h h'
      split_ifs at h h' with hgo
      · obtain ⟨q, hq, hrest⟩ := Option.bind_eq_some_iff.mp h
        obtain ⟨q', hq', hrest'⟩ := Option.bind_eq_some_iff.mp h'
        cases hq.symm.trans hq'
        obtain ⟨t, ht, hr⟩ := Option.bind_eq_some_iff.mp hrest
        obtain ⟨t', ht', hr'⟩ := Option.bind_eq_some_iff.mp hrest'
        rw [ih ht ht'] at hr
        exact Option.some.inj (hr.symm.trans hr')
      · exact Option.some.inj (h.symm.trans h')

theorem localToHost_unique {f f' : ℕ} {r r' : List QuadWord × GS} (h : s.localToHost T f = some r)
    (h' : s.localToHost T f' = some r') : r = r' := by
  unfold GS.localToHost at h h'
  split_ifs at h h' with hdir hsize
  · exact Option.some.inj (h.symm.trans h')
  · exact Option.some.inj (h.symm.trans h')
  · obtain ⟨m, hm, hbind⟩ := Option.bind_eq_some_iff.mp h
    obtain ⟨m', hm', hbind'⟩ := Option.bind_eq_some_iff.mp h'
    cases hm.symm.trans hm'
    obtain ⟨t, ht, hr⟩ := Option.bind_eq_some_iff.mp hbind
    obtain ⟨t', ht', hr'⟩ := Option.bind_eq_some_iff.mp hbind'
    rw [readLoop_unique ht ht'] at hr
    exact Option.some.inj (hr.symm.trans hr')

/-! ### The contract -/

/-- The quadwords are the pixels of the rectangle, packed, and the transfer has ended. -/
structure Returned (T : PageTables) (s₀ : GS) (qs : List QuadWord) (s : GS) : Prop where
  count : qs.length = (bits s₀ + 127) / 128
  pixels : stream (words qs) % 2 ^ bits s₀ = pixels T s₀ (place s₀) (total s₀)
  direction : s.TRXDIR = 3

/-- The transfer is right for every local memory. -/
def Correct (T : PageTables) (s₀ : GS) : Prop :=
  ∀ mem, ∃ fuel qs s, ({ s₀ with localMem := mem } : GS).localToHost T fuel = some (qs, s) ∧
    Returned T { s₀ with localMem := mem } qs s

/-- Of every pixel the right bits are read. -/
def Straight (T : PageTables) (s₀ : GS) : Prop :=
  ∀ mem, ∀ k < total s₀,
    texel T s₀.BITBLTBUF mem (readAt s₀ k).1 (readAt s₀ k).2 =
      texel T s₀.BITBLTBUF mem (place s₀ k).1 (place s₀ k).2

theorem readAt_memory (s₀ : GS) (mem : Bytes) : readAt { s₀ with localMem := mem } = readAt s₀ := by
  have hreached : ∀ k, reached { s₀ with localMem := mem } k = reached s₀ k := by
    intro k
    induction k with
    | zero => rfl
    | succ k ih =>
      rw [reached, ih]
      rfl
  unfold readAt
  split
  next h => rw [if_pos (show isColorSource s₀ from h), funext hreached]
  next h =>
    rw [if_neg (show ¬ isColorSource s₀ from h)]
    rfl

theorem correct_iff_straight (h : Ready s) : Correct T (begun s) ↔ Straight T (begun s) := by
  refine forall_congr' fun mem => ?_
  have hready : Ready { s with localMem := mem } := ⟨h.width, h.height, h.format, h.sourceX, h.sourceY⟩
  obtain ⟨fuel, qs, s₁, hreturn, hcount, hstream, hdir⟩ := returns (T := T) hready
  have hread : readAt (begun { s with localMem := mem }) = readAt (begun s) :=
    readAt_memory (begun s) mem
  have hpixels : pixels T (begun { s with localMem := mem }) (readAt (begun { s with localMem := mem }))
        (total (begun s)) = pixels T (begun { s with localMem := mem }) (place (begun s)) (total (begun s)) ↔
      ∀ k < total (begun s), texel T (begun s).BITBLTBUF mem (readAt (begun s) k).1 (readAt (begun s) k).2 =
        texel T (begun s).BITBLTBUF mem (place (begun s) k).1 (place (begun s) k).2 := by
    rw [hread]
    exact fields_inj pixelAt_lt pixelAt_lt
  rw [← hpixels]
  constructor
  · rintro ⟨fuel', qs', s₂, hreturn', hcorrect⟩
    cases localToHost_unique hreturn hreturn'
    exact hstream.symm.trans hcorrect.pixels
  · intro hsame
    exact ⟨fuel, qs, s₁, hreturn, hcount, hstream.trans hsame, hdir⟩

/-! ### Where the pixels of 24 bits are read -/

/-- The corner of a transfer is within the coordinates. -/
def InRange (s : GS) : Prop := s.TRXPOS.sourceX < 2048 ∧ s.TRXPOS.sourceY < 2048

/-- A row that wraps, and whose first pixel follows another one in the same doubleword. -/
def Late (s : GS) (k : ℕ) : Prop := k % 8 ≠ 0 ∧ k % columns s = 0 ∧ (place s k).2 = 0

instance (s : GS) (k : ℕ) : Decidable (Late s k) := inferInstanceAs (Decidable (_ ∧ _ ∧ _))

/-- No row begins with a pixel that straddles doublewords, up to the pixel `c`. -/
def Unsplit (s : GS) (c : ℕ) : Prop := ∀ j < c, split j → j % columns s ≠ 0

theorem wrap_place : wrap (place s k) = place s k := Prod.ext (Nat.mod_mod _ _) (Nat.mod_mod _ _)

theorem afterFetch_place : afterFetch (place s k) = wrap ((place s k).1 + 1, (place s k).2) := rfl

theorem afterFetch_late (h : (place s k).2 = 0) :
    afterFetch ((place s k).1, 2048) = afterFetch (place s k) := by
  refine Prod.ext rfl ?_
  show 2048 % 2048 = (place s k).2 % 2048
  rw [h]

theorem afterSplit_eq {xy : ℕ × ℕ} (h : split k → k % columns s ≠ 0) :
    afterSplit s k xy = afterFetch xy := by
  unfold afterSplit
  split_ifs with hs
  · rw [row, if_neg (h hs)]
    exact Prod.ext (Nat.mod_mod _ _) (Nat.mod_mod _ _)
  · rfl

/-- From the place of a pixel on to that of the next one, before coordinates wrap. -/
theorem row_afterFetch (hr : InRange s) (hw : 0 < columns s) :
    row s (k + 1) (afterFetch (place s k)) =
      if (k + 1) % columns s = 0 ∧ (place s (k + 1)).2 = 0 then ((place s (k + 1)).1, 2048)
      else place s (k + 1) := by
  have hnext : wrap (row s (k + 1) ((place s k).1 + 1, (place s k).2)) = _ := place_succ hw
  have hy : (place s k).2 < 2048 := Nat.mod_lt _ (by decide)
  unfold row at hnext ⊢
  by_cases hz : (k + 1) % columns s = 0
  · rw [if_pos hz] at hnext ⊢
    have hx := congrArg Prod.fst hnext
    have hy' := congrArg Prod.snd hnext
    change s.TRXPOS.sourceX % 2048 = _ at hx
    change ((place s k).2 + 1) % 2048 = _ at hy'
    rw [Nat.mod_eq_of_lt hr.1] at hx
    have hsecond : (afterFetch (place s k)).2 = (place s k).2 := Nat.mod_eq_of_lt hy
    rw [hsecond]
    split_ifs with h0
    · refine Prod.ext hx ?_
      have hzero := h0.2
      show (place s k).2 + 1 = 2048
      omega
    · refine Prod.ext hx ?_
      have hne : (place s (k + 1)).2 ≠ 0 := fun h => h0 ⟨hz, h⟩
      show (place s k).2 + 1 = _
      omega
  · rw [if_neg hz] at hnext ⊢
    rw [if_neg fun h => hz h.1]
    exact hnext

/-- Where the pixel `k` is read, as long as no row is lost. -/
theorem reached_eq (hr : InRange s) (hw : 0 < columns s) (h : Unsplit s k) :
    reached s k = if Late s k then ((place s k).1, 2048) else place s k := by
  induction k with
  | zero =>
    rw [if_neg fun hl => hl.1 rfl, reached, place, Nat.zero_mod, Nat.zero_div]
    exact Prod.ext (Nat.mod_eq_of_lt hr.1).symm (Nat.mod_eq_of_lt hr.2).symm
  | succ k ih =>
    have hprev := ih fun j hj => h j (Nat.lt_succ_of_lt hj)
    have hfetch : afterFetch (reached s k) = afterFetch (place s k) := by
      rw [hprev]
      split_ifs with hl
      · exact afterFetch_late hl.2.2
      · rfl
    rw [reached, afterSplit_eq (h k (Nat.lt_succ_self k)), hfetch, row_afterFetch hr hw]
    by_cases h8 : (k + 1) % 8 = 0
    · have hlate : ¬ Late s (k + 1) := fun hl => hl.1 h8
      rw [if_pos h8, if_neg hlate]
      split_ifs with hz
      · refine Prod.ext (Nat.mod_mod _ _) ?_
        show 2048 % 2048 = (place s (k + 1)).2
        rw [hz.2]
      · exact wrap_place
    · rw [if_neg h8]
      simp only [Late, ne_eq, h8, not_false_eq_true, true_and]

/-- The pixel after the first one of a row that was lost: it is neither in its row nor its column. -/
theorem reached_split (hr : InRange s) (hw : 0 < columns s) (h : Unsplit s k) (hs : split k)
    (hk : k % columns s = 0) :
    (reached s (k + 1)).1 % 64 ≠ (place s (k + 1)).1 % 64 ∨
      (reached s (k + 1)).2 % 32 ≠ (place s (k + 1)).2 % 32 := by
  have hfetch : afterFetch (reached s k) = afterFetch (place s k) := by
    rw [reached_eq hr hw h]
    split_ifs with hl
    · exact afterFetch_late hl.2.2
    · rfl
  have hlost : afterSplit s k (reached s k) = wrap (s.TRXPOS.sourceX, (afterFetch (place s k)).2 + 1) := by
    rw [afterSplit, if_pos hs, row, if_pos hk, hfetch]
  have hy : (afterFetch (place s k)).2 = (s.TRXPOS.sourceY + k / columns s) % 2048 := Nat.mod_mod _ _
  have hmod : ∀ a, a % 2048 % 64 = a % 64 := fun a => Nat.mod_mod_of_dvd a ⟨32, rfl⟩
  have hmod' : ∀ a, a % 2048 % 32 = a % 32 := fun a => Nat.mod_mod_of_dvd a ⟨64, rfl⟩
  have hwrap : ∀ xy, (wrap xy).1 % 64 = xy.1 % 64 ∧ (wrap xy).2 % 32 = xy.2 % 32 :=
    fun xy => ⟨hmod _, hmod' _⟩
  have hreached : (reached s (k + 1)).1 % 64 = (row s (k + 1) (afterSplit s k (reached s k))).1 % 64 ∧
      (reached s (k + 1)).2 % 32 = (row s (k + 1) (afterSplit s k (reached s k))).2 % 32 := by
    rw [reached]
    split_ifs
    · exact hwrap _
    · exact ⟨rfl, rfl⟩
  rw [hreached.1, hreached.2, hlost, hy]
  rcases column_row_succ hw k with ⟨hz, hdiv⟩ | ⟨hz, hcol, hdiv⟩
  · refine Or.inr ?_
    rw [row, if_pos hz, place, hdiv]
    show ((((s.TRXPOS.sourceY + k / columns s) % 2048) + 1) % 2048 + 1) % 32 ≠ _ % 2048 % 32
    omega
  · refine Or.inl ?_
    rw [row, if_neg hz, place, hcol, hk]
    show s.TRXPOS.sourceX % 2048 % 64 ≠ (s.TRXPOS.sourceX + (0 + 1)) % 2048 % 64
    omega

/-! ### The exact condition -/

/-- The tables of 32 bits place the pixels of a page at different words, as those of the source do. -/
structure WordsPaged (T : PageTables) : Prop where
  PSMCT32 : Paged T.PSMCT32
  PSMCT32Z : Paged T.PSMCT32Z

/-- In 24 bits no row but a last one of one pixel begins with a pixel that straddles doublewords, and the buffer is a multiple of
512 pixels wide or no row is read before it wraps. -/
def RowsKept (s : GS) : Prop :=
  isColorSource s →
    (∀ k, k + 1 < total s → split k → k % columns s ≠ 0) ∧
      (s.BITBLTBUF.sourceWidth / 64 % 8 = 0 ∨ ∀ k < total s, ¬ Late s k)

/-- A pixel of 24 bits is in a word. -/
theorem texel_color (hT : WordsPaged T) (hc : isColorSource s) : ∃ table, Paged table ∧
    ∀ mem x y, texel T s.BITBLTBUF mem x y = load 4 mem
      (addrWord table (s.BITBLTBUF.sourceBase / 256) (s.BITBLTBUF.sourceWidth / 64) x y) &&& 0xFFFFFF := by
  unfold isColorSource sourceBits at hc
  split at hc
  case h_2 hf =>
    refine ⟨T.PSMCT32, hT.PSMCT32, fun mem x y => ?_⟩
    rw [texel, hf]
    rfl
  case h_9 hf =>
    refine ⟨T.PSMCT32Z, hT.PSMCT32Z, fun mem x y => ?_⟩
    rw [texel, hf]
    rfl
  all_goals cases hc

/-- Colors that are the same in every memory are at one place of the page. -/
theorem page_of_color {table : ℕ → ℕ → ℕ → ℕ} {b w x y x' y' : ℕ} (h : ∀ mem : Bytes,
    load 4 mem (addrWord table b w x y) &&& 0xFFFFFF =
      load 4 mem (addrWord table b w x' y') &&& 0xFFFFFF) :
    addrWord table b w x y = addrWord table b w x' y' := by
  rw [addrWord_eq, addrWord_eq] at h ⊢
  rw [color_inj h]

theorem straight_iff (hT : WordsPaged T) (hr : InRange s) (hw : 0 < columns s) :
    Straight T s ↔ RowsKept s := by
  by_cases hc : isColorSource s
  · obtain ⟨table, hpaged, htexel⟩ := texel_color hT hc
    simp only [Straight, RowsKept, readAt, if_pos hc, htexel]
    constructor
    · intro h _
      have haddr : ∀ k < total s, _ := fun k hk => page_of_color fun mem => h mem k hk
      have hsplit : ∀ k, k + 1 < total s → split k → k % columns s ≠ 0 := by
        intro k
        induction k using Nat.strong_induction_on with
        | _ k ih =>
          intro hk hs h0
          have hunsplit : Unsplit s k := fun j hj hsj => ih j hj (by omega) hsj
          have hpage := addrWord_page hpaged (haddr (k + 1) hk)
          rcases reached_split hr hw hunsplit hs h0 with hx | hy
          · exact hx hpage.2
          · exact hy hpage.1
      refine ⟨hsplit, ?_⟩
      rw [or_iff_not_imp_left]
      intro hwidth k hk hlate
      have hunsplit : Unsplit s k := fun j hj hsj => hsplit j (by omega) hsj
      have hsame := haddr k hk
      rw [reached_eq hr hw hunsplit, if_pos hlate, hlate.2.2] at hsame
      exact hwidth (addrWord_wrap.mp hsame)
    · intro h mem k hk
      obtain ⟨hsplit, hwrap⟩ := h hc
      have hunsplit : Unsplit s k := fun j hj hsj => hsplit j (by omega) hsj
      rw [reached_eq hr hw hunsplit]
      split_ifs with hlate
      · rcases hwrap with hwidth | hnone
        · rw [hlate.2.2, addrWord_wrap.mpr hwidth]
        · exact absurd hlate (hnone k hk)
      · rfl
  · constructor
    · intro _ hcolor
      exact absurd hcolor hc
    · intro _ mem k _
      rw [readAt, if_neg hc]

end DobieStation.Gs.Download
