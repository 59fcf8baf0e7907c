import DobieStation.Gs.Doublewords
import Mathlib.Data.List.Induction

/-! # Pixels from the host

After any number of doublewords the pixels that they hold have been written (`runs`), and the end of the
transfer is looked for after each doubleword only. So the transfer is right exactly when no row is
skipped, the columns choose the right nibbles, and the last pixel ends the last doubleword (`correct_iff`). -/

namespace DobieStation.Gs.HostToLocal

open DobieStation.Gs.Model DobieStation.Gs.Doublewords DobieStation.Lib.Fields

variable {T : Tables} {s s₀ : GS}

/-! ### Every stream -/

/-- A transfer that has been set up: its size is not empty, its format supported, and its corner as the register
has it. -/
structure Ready (s₀ : GS) : Prop where
  width : s₀.TRXREG.width ≠ 0
  height : s₀.TRXREG.height ≠ 0
  format : (ppd s₀.BITBLTBUF.destFormat).isSome
  destX : s₀.TRXPOS.destX < 2048
  destY : s₀.TRXPOS.destY < 2048

/-- TRXDIR has been set to 0. -/
def started (s : GS) : GS := ({ s with TRXDIR := 0 } : GS).start

theorem write_TRXDIR {L : GS → GS} : s.write64 T L 0x53 0 = started s := rfl

/-- The doublewords are sent. -/
def send (T : Tables) (L : GS → GS) (ds : List DoubleWord) (s : GS) : GS :=
  ds.foldl (fun s d => s.write64 T L 0x54 d) s

theorem after_started (h : Ready s) (X : ℕ) : After T (started s) X 0 (started s) where
  bitblt := rfl
  size := rfl
  destX := rfl
  direction := rfl
  transferred := by
    show 0 = 64 * 0 / _
    rw [Nat.mul_zero, Nat.zero_div]
  x := by
    rw [show held (started s) 0 = 0 from Nat.zero_div _, Nat.zero_mod]
    exact (Nat.mod_eq_of_lt h.destX).symm
  y := by
    rw [show held (started s) 0 = 0 from Nat.zero_div _, Nat.zero_div]
    exact (Nat.mod_eq_of_lt h.destY).symm
  pixels := by
    rw [show held (started s) 0 = 0 from Nat.zero_div _]
    exact (List.append_nil _).symm
  memory := by
    rw [show held (started s) 0 = 0 from Nat.zero_div _]
    rfl
  partialColor _ := by
    unfold Partial setColor
    rw [Nat.mul_zero, Nat.zero_mod, slice_zero]
    rfl

/-- The turns of the loop over a doubleword. -/
theorem doubleword {X data n m : ℕ} (hw : 0 < columns s₀) (hX : Follows X data n)
    (hm : ppd s₀.BITBLTBUF.destFormat = some m) (h : After T s₀ X n s) :
    After T s₀ X (n + 1) ((List.range m).foldl (GS.turn T data) s) := by
  rcases ppd_cases hm with ⟨-, rfl, hf⟩ | ⟨hbits, hin⟩
  · exact doubleword_color hw hX hf h
  · exact doubleword_whole hw hX hbits hin h

theorem pixelBits_pos {m : ℕ} (hm : ppd s₀.BITBLTBUF.destFormat = some m) :
    0 < pixelBits s₀.BITBLTBUF.destFormat := by
  rcases ppd_cases hm with ⟨h, -, -⟩ | ⟨h, -⟩
  · omega
  · exact Nat.pos_of_ne_zero fun h0 => by
      rw [h0] at h
      omega

theorem pixelBits_le {m : ℕ} (hm : ppd s₀.BITBLTBUF.destFormat = some m) :
    pixelBits s₀.BITBLTBUF.destFormat ≤ 64 := by
  rcases ppd_cases hm with ⟨h, -, -⟩ | ⟨h, -⟩
  · omega
  · exact Nat.le_of_dvd (by decide) ⟨m, h.symm⟩

theorem held_mono {n n' : ℕ} (h : n ≤ n') : held s₀ n ≤ held s₀ n' :=
  Nat.div_le_div_right (Nat.mul_le_mul_left 64 h)

/-- A pixel that is held lies within the doublewords. -/
theorem end_of_held {n k m : ℕ} (hm : ppd s₀.BITBLTBUF.destFormat = some m) (hk : k < held s₀ n) :
    pixelBits s₀.BITBLTBUF.destFormat * k + pixelBits s₀.BITBLTBUF.destFormat ≤ 64 * n := by
  rw [← Nat.mul_succ, Nat.mul_comm]
  exact (Nat.le_div_iff_mul_le (pixelBits_pos hm)).mp hk

theorem source_held {n k : ℕ} (hk : k < held s₀ n) : source s₀ k < held s₀ n := by
  unfold source
  split
  next hf =>
    have hheld : held s₀ n = 16 * n := by
      rw [held, hf]
      show 64 * n / 4 = _
      omega
    rw [hheld] at hk ⊢
    omega
  next hf => exact hk

/-- The pixels that are held do not depend on the doublewords that follow. -/
theorem value_append {ds es : List DoubleWord} {k m : ℕ}
    (hm : ppd s₀.BITBLTBUF.destFormat = some m) (hk : k < held s₀ ds.length) :
    pixelValue s₀ (stream (ds ++ es)) k = pixelValue s₀ (stream ds) k := by
  unfold pixelValue
  rw [slice_stream_left (end_of_held hm hk)]

theorem drawn_stream {ds es : List DoubleWord} {k m : ℕ}
    (hm : ppd s₀.BITBLTBUF.destFormat = some m) (hk : k < held s₀ ds.length) :
    drawn s₀ (stream (ds ++ es)) k = drawn s₀ (stream ds) k := by
  unfold drawn
  rw [value_append hm (source_held hk)]

theorem map_drawn_stream {ds es : List DoubleWord} {c m : ℕ}
    (hm : ppd s₀.BITBLTBUF.destFormat = some m) (hc : c ≤ held s₀ ds.length) :
    (List.range c).map (drawn s₀ (stream (ds ++ es))) = (List.range c).map (drawn s₀ (stream ds)) :=
  List.map_congr_left fun _ hk => drawn_stream hm ((List.mem_range.mp hk).trans_le hc)

theorem after_append {ds : List DoubleWord} {m : ℕ} (e : List DoubleWord)
    (hm : ppd s₀.BITBLTBUF.destFormat = some m) (h : After T s₀ (stream ds) ds.length s) :
    After T s₀ (stream (ds ++ e)) ds.length s where
  toAt := by
    rw [map_drawn_stream hm (Nat.le_refl _)]
    exact h.toAt
  partialColor hc := by
    have hp := h.partialColor hc
    unfold Partial setColor at hp ⊢
    rw [slice_stream_left (by omega)]
    exact hp

/-- The transfer has ended, after `m` doublewords. -/
structure Finished (T : Tables) (s₀ : GS) (X m : ℕ) (s : GS) : Prop where
  last : total s₀ ≤ held s₀ m
  first : ∀ j < m, held s₀ j < total s₀
  direction : s.TRXDIR = 3
  pixels : s.pixels = s₀.pixels ++ (List.range (held s₀ m)).map (drawn s₀ X)
  memory : s.localMem =
    ((List.range (held s₀ m)).map (drawn s₀ X)).foldl (plot T s₀.BITBLTBUF) s₀.localMem

/-- What a stream writes. -/
theorem runs {L : GS → GS} (h : Ready s) (ds : List DoubleWord) :
    (held (started s) ds.length < total (started s) ∧
      (∀ j ≤ ds.length, held (started s) j < total (started s)) ∧
      After T (started s) (stream ds) ds.length (send T L ds (started s))) ∨
    ∃ m, m ≤ ds.length ∧ Finished T (started s) (stream ds) m (send T L ds (started s)) := by
  obtain ⟨m, hm⟩ := Option.isSome_iff_exists.mp h.format
  have hw : 0 < columns (started s) := Nat.pos_of_ne_zero h.width
  induction ds using List.reverseRecOn with
  | nil =>
    have hpos : 0 < total (started s) := Nat.mul_pos hw (Nat.pos_of_ne_zero h.height)
    have h0 : held (started s) 0 < total (started s) := by
      rw [show held (started s) 0 = 0 from Nat.zero_div _]
      exact hpos
    exact Or.inl ⟨h0, fun j hj => Nat.le_zero.mp hj ▸ h0, after_started h _⟩
  | append_singleton ds d ih =>
    have hsend : send T L (ds ++ [d]) (started s) =
        (send T L ds (started s)).write64 T L 0x54 d := by
      unfold send
      rw [List.foldl_append]
      rfl
    rw [hsend, List.length_append, List.length_singleton]
    rcases ih with ⟨-, hbefore, hafter⟩ | ⟨k, hk, hfin⟩
    · have hdouble := doubleword hw (follows_stream (d := d)) hm (after_append [d] hm hafter)
      have hwrite : (send T L ds (started s)).write64 T L 0x54 d =
          ((List.range m).foldl (GS.turn T d.toNat) (send T L ds (started s))).endHWREG := by
        show (if (send T L ds (started s)).TRXDIR = 0 then
          (send T L ds (started s)).writeHWREG T d.toNat else _) = _
        have hsize : ¬ ((send T L ds (started s)).TRXREG.width = 0 ∨
            (send T L ds (started s)).TRXREG.height = 0) := by
          rw [hafter.size]
          exact not_or.mpr ⟨h.width, h.height⟩
        rw [if_pos hafter.direction]
        unfold GS.writeHWREG
        rw [if_neg hsize, hafter.bitblt,
          show ppd (started s).BITBLTBUF.destFormat = some m from hm]
      rw [hwrite]
      generalize (List.range m).foldl (GS.turn T d.toNat) (send T L ds (started s)) = s' at hdouble
      have hend : s'.endHWREG = if total (started s) ≤ held (started s) (ds.length + 1) then
          { s' with TRXDIR := 3, pixelsTransferred := 0 } else s' := by
        unfold GS.endHWREG
        rw [hdouble.size, hdouble.transferred]
        rfl
      rw [hend]
      split
      next hlast =>
        refine Or.inr ⟨ds.length + 1, Nat.le_refl _, ?_⟩
        exact ⟨hlast, fun j hj => hbefore j (Nat.le_of_lt_succ hj), rfl, hdouble.pixels, hdouble.memory⟩
      next hlast =>
        have hlt := Nat.lt_of_not_le hlast
        refine Or.inl ⟨hlt, fun j hj => ?_, hdouble⟩
        rcases Nat.lt_or_eq_of_le hj with hj | rfl
        · exact hbefore j (Nat.le_of_lt_succ hj)
        · exact hlt
    · refine Or.inr ⟨k, by omega, ?_⟩
      have hsame : (send T L ds (started s)).write64 T L 0x54 d = send T L ds (started s) := by
        show (if (send T L ds (started s)).TRXDIR = 0 then _ else _) = _
        rw [if_neg (by rw [hfin.direction]; decide)]
      have hmap : (List.range (held (started s) k)).map (drawn (started s) (stream (ds ++ [d]))) =
          (List.range (held (started s) k)).map (drawn (started s) (stream ds)) :=
        map_drawn_stream hm (held_mono hk)
      rw [hsame]
      exact ⟨hfin.last, hfin.first, hfin.direction, hmap ▸ hfin.pixels, hmap ▸ hfin.memory⟩

/-! ### The contract -/

/-- The pixels of the doublewords `ds` that belong to the transfer are written, each at its place, and nothing
else is; and the transfer has ended if they hold its last pixel. -/
structure Transferred (T : Tables) (s₀ : GS) (ds : List DoubleWord) (s : GS) : Prop where
  pixels : s.pixels =
    s₀.pixels ++ (List.range (min (held s₀ ds.length) (total s₀))).map (sent s₀ (stream ds))
  memory : s.localMem = ((List.range (min (held s₀ ds.length) (total s₀))).map
    (sent s₀ (stream ds))).foldl (plot T s₀.BITBLTBUF) s₀.localMem
  direction : s.TRXDIR = if total s₀ ≤ held s₀ ds.length then 3 else 0

/-- The transfer is right for every stream. -/
def Correct (T : Tables) (L : GS → GS) (s₀ : GS) : Prop :=
  ∀ ds, Transferred T s₀ ds (send T L ds s₀)

/-- Every pixel comes from its slice and goes to its place. -/
def Straight (s₀ : GS) : Prop := ∀ k < total s₀, source s₀ k = k ∧ skipped s₀ k = 0

/-- The last pixel is the last one of a doubleword. -/
def Complete (s₀ : GS) : Prop := ∃ n, held s₀ n = total s₀

theorem map_sent {X c : ℕ} (hs : Straight s₀) (hc : c ≤ total s₀) :
    (List.range c).map (drawn s₀ X) = (List.range c).map (sent s₀ X) := by
  refine List.map_congr_left fun k hk => ?_
  obtain ⟨hsource, hskip⟩ := hs k ((List.mem_range.mp hk).trans_le hc)
  rw [drawn, hsource, hskip]
  rfl

theorem correct {L : GS → GS} (h : Ready s) (hs : Straight (started s)) (hc : Complete (started s)) :
    Correct T L (started s) := by
  intro ds
  rcases runs (T := T) (L := L) h ds with ⟨hlt, -, hafter⟩ | ⟨m, hm, hfin⟩
  · have hmap := map_sent (X := stream ds) hs hlt.le
    have hmin : min (held (started s) ds.length) (total (started s)) = held (started s) ds.length :=
      Nat.min_eq_left hlt.le
    refine ⟨?_, ?_, ?_⟩
    · rw [hmin, ← hmap]
      exact hafter.pixels
    · rw [hmin, ← hmap]
      exact hafter.memory
    · rw [if_neg (Nat.not_le_of_lt hlt)]
      exact hafter.direction
  · obtain ⟨n, hn⟩ := hc
    have hmn : m ≤ n := Nat.le_of_not_lt fun hnm => absurd (hn ▸ hfin.first n hnm) (Nat.lt_irrefl _)
    have htotal : held (started s) m = total (started s) :=
      Nat.le_antisymm ((held_mono hmn).trans hn.le) hfin.last
    have hle : total (started s) ≤ held (started s) ds.length := htotal ▸ held_mono hm
    have hmap := map_sent (X := stream ds) hs htotal.le
    refine ⟨?_, ?_, ?_⟩
    · rw [Nat.min_eq_right hle, ← htotal, ← hmap]
      exact hfin.pixels
    · rw [Nat.min_eq_right hle, ← htotal, ← hmap]
      exact hfin.memory
    · rw [if_pos hle]
      exact hfin.direction

/-! ### The transfers that fail -/

/-- A stream that holds all pixels, and not with one doubleword less. -/
theorem drawn_of_correct {L : GS → GS} (h : Ready s) (hc : Correct T L (started s)) :
    ∃ n, held (started s) n = total (started s) ∧ ∀ ds : List DoubleWord, ds.length = n →
      ∀ k < total (started s), drawn (started s) (stream ds) k = sent (started s) (stream ds) k := by
  obtain ⟨m, hm⟩ := Option.isSome_iff_exists.mp h.format
  have hex : ∃ n, total (started s) ≤ held (started s) n := by
    refine ⟨total (started s), (Nat.le_div_iff_mul_le (pixelBits_pos hm)).mpr ?_⟩
    rw [Nat.mul_comm]
    exact Nat.mul_le_mul_right _ (pixelBits_le hm)
  have hfind : ∀ ds : List DoubleWord, ds.length = Nat.find hex →
      held (started s) (Nat.find hex) = total (started s) ∧
        (List.range (total (started s))).map (drawn (started s) (stream ds)) =
          (List.range (total (started s))).map (sent (started s) (stream ds)) := by
    intro ds hlen
    have hlast := Nat.find_spec hex
    have htransferred := (hc ds).pixels
    rcases runs (T := T) (L := L) h ds with ⟨hlt, -, -⟩ | ⟨k, hk, hfin⟩
    · rw [hlen] at hlt
      omega
    · have hkn : k = Nat.find hex := by
        refine Nat.le_antisymm (hlen ▸ hk) (Nat.find_min' hex hfin.last)
      rw [hfin.pixels, hkn, hlen, Nat.min_eq_right hlast] at htransferred
      have hmap := List.append_cancel_left htransferred
      have hcount := congrArg List.length hmap
      rw [List.length_map, List.length_map, List.length_range, List.length_range] at hcount
      rw [hcount] at hmap
      exact ⟨hcount, hmap⟩
  refine ⟨Nat.find hex, (hfind (List.replicate (Nat.find hex) 0) List.length_replicate).1, ?_⟩
  intro ds hlen k hk
  exact List.map_inj_left.mp (hfind ds hlen).2 k (List.mem_range.mpr hk)

/-- The nibbles of this doubleword are their own parities. -/
def nibbles : DoubleWord := 0x1010101010101010

theorem slice_nibbles {i : ℕ} (hi : i < 16) : slice (4 * i) 4 nibbles.toNat = i % 2 := by
  have hall : ∀ i < 16, slice (4 * i) 4 nibbles.toNat = i % 2 := by decide
  exact hall i hi

theorem slice_stream_nibbles {n k : ℕ} (hk : k < 16 * n) :
    slice (4 * k) 4 (stream (List.replicate n nibbles)) = k % 2 := by
  have hsplit : List.replicate n nibbles =
      (List.replicate (k / 16) nibbles ++ [nibbles]) ++ List.replicate (n - (k / 16 + 1)) nibbles := by
    rw [← List.replicate_succ', ← List.replicate_add]
    congr 1
    omega
  have hfollows := follows_stream (l := List.replicate (k / 16) nibbles) (d := nibbles)
  rw [List.length_replicate] at hfollows
  rw [hsplit, slice_stream_left (by simp; omega),
    show 4 * k = 64 * (k / 16) + 4 * (k % 16) by omega, hfollows, slice_nibbles (by omega)]
  omega

/-- The first row that is skipped is one too many. -/
theorem skipped_of_drawn {X c : ℕ} (h : ∀ k < c, drawn s₀ X k = sent s₀ X k) : ∀ k < c, skipped s₀ k = 0 := by
  intro k hk
  induction k with
  | zero => rfl
  | succ k ih =>
    have hy := congrArg Pixel.y (h (k + 1) hk)
    change (_ + (k + 1) / columns s₀ + skipped s₀ (k + 1)) % 2048 = (_ + (k + 1) / columns s₀ + 0) % 2048 at hy
    have hprev := ih (by omega)
    rw [skipped, hprev] at hy ⊢
    by_cases hskip : isColor s₀ ∧ (k + 1) % 8 = 2 ∧ (k + 1) % columns s₀ = 0
    · rw [if_pos hskip] at hy
      omega
    · rw [if_neg hskip]

/-- The nibble that the column chooses is the one that was sent. -/
theorem source_of_drawn {n k : ℕ} (hk : k < held s₀ n)
    (h : drawn s₀ (stream (List.replicate n nibbles)) k = sent s₀ (stream (List.replicate n nibbles)) k) :
    source s₀ k = k := by
  by_cases hf : s₀.BITBLTBUF.destFormat = 0x14
  · have hheld : held s₀ n = 16 * n := by
      rw [held, hf]
      show 64 * n / 4 = _
      omega
    have hsource := source_held hk
    have hvalue := congrArg Pixel.value h
    change pixelValue s₀ _ (source s₀ k) = pixelValue s₀ _ k at hvalue
    rw [hheld] at hk hsource
    unfold pixelValue at hvalue
    rw [hf] at hvalue
    change slice (4 * source s₀ k) 4 _ <<< 0 = slice (4 * k) 4 _ <<< 0 at hvalue
    rw [Nat.shiftLeft_zero, Nat.shiftLeft_zero, slice_stream_nibbles hsource,
      slice_stream_nibbles hk] at hvalue
    have hpair : source s₀ k / 2 = k / 2 := by
      unfold source
      rw [if_pos hf]
      omega
    omega
  · exact if_neg hf

/-- **The exact condition.** -/
theorem correct_iff_straight {L : GS → GS} (h : Ready s) :
    Correct T L (started s) ↔ Straight (started s) ∧ Complete (started s) := by
  constructor
  · intro hc
    obtain ⟨n, hn, hdrawn⟩ := drawn_of_correct h hc
    have hnib := hdrawn (List.replicate n nibbles) List.length_replicate
    refine ⟨fun k hk => ⟨?_, skipped_of_drawn hnib k hk⟩, n, hn⟩
    exact source_of_drawn (hn ▸ hk) (hnib k hk)
  · rintro ⟨hs, hc⟩
    exact correct h hs hc

/-! ### The condition, by the registers -/

/-- In PSMCT4 the columns have the parity of their pixels. -/
def EvenColumns (s : GS) : Prop :=
  s.BITBLTBUF.destFormat = 0x14 →
    s.TRXPOS.destX % 2 = 0 ∧ (s.TRXREG.width % 2 = 0 ∨ s.TRXREG.height = 1)

/-- In 24 bits no row ends with the last whole pixel of a doubleword that holds part of another. -/
def NoRowSplit (s : GS) : Prop :=
  isColor s → ∀ k < total s, k % 8 = 2 → k % columns s ≠ 0

theorem source_eq_iff {k : ℕ} (hf : s₀.BITBLTBUF.destFormat = 0x14) :
    source s₀ k = k ↔ (s₀.TRXPOS.destX + k % columns s₀) % 2 = k % 2 := by
  unfold source
  rw [if_pos hf, Nat.mod_mod_of_dvd _ (show 2 ∣ 2048 from ⟨1024, rfl⟩)]
  omega

theorem source_straight (hw : 0 < columns s₀) (hh : s₀.TRXREG.height ≠ 0) :
    (∀ k < total s₀, source s₀ k = k) ↔ EvenColumns s₀ := by
  by_cases hf : s₀.BITBLTBUF.destFormat = 0x14
  · have hpos : 0 < total s₀ := Nat.mul_pos hw (Nat.pos_of_ne_zero hh)
    constructor
    · intro h _
      have hfirst := (source_eq_iff hf).mp (h 0 hpos)
      rw [Nat.zero_mod, Nat.add_zero] at hfirst
      refine ⟨hfirst, ?_⟩
      by_cases h1 : s₀.TRXREG.height = 1
      · exact Or.inr h1
      · have hrow : columns s₀ < total s₀ := by
          have hle : columns s₀ * 2 ≤ total s₀ := Nat.mul_le_mul_left _ (by omega)
          omega
        have hsecond := (source_eq_iff hf).mp (h _ hrow)
        rw [Nat.mod_self, Nat.add_zero, hfirst] at hsecond
        exact Or.inl hsecond.symm
    · intro h k hk
      obtain ⟨hx, heven | hone⟩ := h hf
      · have hmod : k % columns s₀ % 2 = k % 2 := Nat.mod_mod_of_dvd _ (Nat.dvd_of_mod_eq_zero heven)
        rw [source_eq_iff hf]
        omega
      · have hlt : k < columns s₀ := by
          rw [total, hone, Nat.mul_one] at hk
          exact hk
        rw [source_eq_iff hf, Nat.mod_eq_of_lt hlt]
        omega
  · constructor
    · intro _ hf'
      exact absurd hf' hf
    · intro _ k _
      exact if_neg hf

theorem skipped_straight {c : ℕ} :
    (∀ k < c, skipped s₀ k = 0) ↔ (isColor s₀ → ∀ k < c, k % 8 = 2 → k % columns s₀ ≠ 0) := by
  constructor
  · intro h hcolor k hk h2 h0
    cases k with
    | zero => cases h2
    | succ k =>
      have hskip := h (k + 1) hk
      rw [skipped, if_pos ⟨hcolor, h2, h0⟩] at hskip
      omega
  · intro h k hk
    induction k with
    | zero => rfl
    | succ k ih => rw [skipped, ih (by omega), if_neg fun hc => h hc.1 _ hk hc.2.1 hc.2.2]

/-- The transfer of pixels from the host is right for every stream if and only if the last pixel is the
last of a doubleword, the columns of PSMCT4 have the parity of their pixels, and in 24 bits no row ends where
a doubleword goes on with part of a pixel. -/
theorem correct_iff {L : GS → GS} (h : Ready s) :
    Correct T L (s.write64 T L 0x53 0) ↔
      (∃ n, 64 * n / pixelBits s.BITBLTBUF.destFormat = s.TRXREG.width * s.TRXREG.height) ∧
        EvenColumns s ∧ NoRowSplit s := by
  have hw : 0 < columns (started s) := Nat.pos_of_ne_zero h.width
  have hsource := source_straight hw h.height
  have hskip : (∀ k < total (started s), skipped (started s) k = 0) ↔ NoRowSplit (started s) :=
    skipped_straight
  rw [write_TRXDIR, correct_iff_straight h]
  constructor
  · rintro ⟨hs, hc⟩
    exact ⟨hc, hsource.mp fun k hk => (hs k hk).1, hskip.mp fun k hk => (hs k hk).2⟩
  · rintro ⟨hc, heven, hrow⟩
    exact ⟨fun k hk => ⟨hsource.mpr heven k hk, hskip.mpr hrow k hk⟩, hc⟩

/-- Tables that place everything at the beginning of its page. -/
def flat : Tables where
  PSMCT32 _ _ _ := 0
  PSMCT32Z _ _ _ := 0
  PSMCT16 _ _ _ := 0
  PSMCT16S _ _ _ := 0
  PSMCT8 _ _ _ := 0
  PSMCT4 _ _ _ := 0

/-- A transfer to the upper left corner. -/
def corner (format width height : ℕ) : GS where
  BITBLTBUF := ⟨0, 0, 0, 0, 64, format⟩
  TRXPOS := ⟨0, 0, 0, 0, 0, 0, 0, 0, 0⟩
  TRXREG := ⟨width, height⟩
  TRXDIR := 3
  pixelsTransferred := 0
  PSMCT24Color := 0
  PSMCT24UnpackedCount := 0
  localMem _ := 0
  pixels := []

theorem correct_corner : Correct flat id ((corner 0x00 2 1).write64 flat id 0x53 0) := by
  have hready : Ready (corner 0x00 2 1) := ⟨by decide, by decide, rfl, by decide, by decide⟩
  exact (correct_iff hready).mpr
    ⟨⟨1, rfl⟩, fun hf => absurd hf (by decide), fun hc => absurd hc (by decide)⟩

/-- Of a transfer of 24 bits the rows end with the second pixel. -/
theorem not_correct_rows : Ready (corner 0x01 2 4) ∧
    ¬ Correct flat id ((corner 0x01 2 4).write64 flat id 0x53 0) := by
  have hready : Ready (corner 0x01 2 4) := ⟨by decide, by decide, rfl, by decide, by decide⟩
  refine ⟨hready, fun hc => ?_⟩
  have hskip := (((correct_iff_straight hready).mp hc).1 2 (by decide)).2
  exact absurd hskip (by decide)

end DobieStation.Gs.HostToLocal
