import DobieStation.Gs.LocalToHost
import DobieStation.Gs.Doublewords
import Mathlib.Tactic.IntervalCases

/-! # The quadwords of a transfer to the host

The pixels that are read are fields of one long number, and each doubleword is the next slice of it
(`whole_doubleword`, `color_doubleword`), up to the end of the rectangle; so the loop returns this
number (`returns`). Where a pixel of 24 bits is read is another question: `reached` follows the two places that step
from row to row. -/

namespace DobieStation.Gs.Packing

open DobieStation.Gs.Model DobieStation.Gs.Doublewords DobieStation.Lib.Memory DobieStation.Lib.Fields

variable {T : PageTables} {s s' s₀ : GS} {c n m i data : ℕ} {xy : ℕ × ℕ}

/-! ### The formats -/

/-- The bits of a pixel that is read. -/
def sourceBits : ℕ → ℕ
  | 0x00 => 32
  | 0x01 => 24
  | 0x02 => 16
  | 0x0A => 16
  | 0x13 => 8
  | 0x14 => 4
  | 0x1B => 8
  | 0x30 => 32
  | 0x31 => 24
  | 0x32 => 16
  | 0x3A => 16
  | _ => 0

/-- The pixel at `x` and `y`. -/
def texel (T : PageTables) (r : BITBLTBUF_REG) (m : Bytes) (x y : ℕ) : ℕ :=
  let read (f : ℕ → ℕ → ℕ → ℕ → Bytes → ℕ) := f r.sourceBase r.sourceWidth x y m
  match r.sourceFormat with
  | 0x00 => read (readPSMCT32Block T.toTables) &&& 0xFFFFFFFF
  | 0x01 => read (readPSMCT32Block T.toTables) &&& 0xFFFFFF
  | 0x02 => read (readPSMCT16Block T) &&& 0xFFFF
  | 0x0A => read (readPSMCT16SBlock T) &&& 0xFFFF
  | 0x13 => read (readPSMCT8Block T) &&& 0xFF
  | 0x14 => read (readPSMCT4Block T) &&& 0xF
  | 0x1B => (read (readPSMCT32Block T.toTables) >>> 24) &&& 0xFF
  | 0x30 => read (readPSMCT32ZBlock T) &&& 0xFFFFFFFF
  | 0x31 => read (readPSMCT32ZBlock T) &&& 0xFFFFFF
  | 0x32 => read (readPSMCT16ZBlock T) &&& 0xFFFF
  | 0x3A => read (readPSMCT16SZBlock T) &&& 0xFFFF
  | _ => 0

theorem texel_lt {r : BITBLTBUF_REG} {mem : Bytes} {x y : ℕ} :
    texel T r mem x y < 2 ^ sourceBits r.sourceFormat := by
  unfold texel sourceBits
  dsimp only
  split <;> first | exact Nat.and_lt_two_pow _ (by decide) | exact Nat.one_pos

/-- The formats of 24 bits. -/
def isColorSource (s : GS) : Prop := sourceBits s.BITBLTBUF.sourceFormat = 24

instance : Decidable (isColorSource s) := inferInstanceAs (Decidable (_ = _))

theorem sourcePpd_cases {format m : ℕ} (h : sourcePpd format = some m) :
    (sourceBits format = 24 ∧ m = 1 ∧ (format = 0x01 ∨ format = 0x31)) ∨
      (sourceBits format * m = 64 ∧
        format ∈ [0x00, 0x02, 0x0A, 0x13, 0x14, 0x1B, 0x30, 0x32, 0x3A]) := by
  unfold sourcePpd at h
  split at h
  case h_2 | h_9 =>
    cases h
    simp [sourceBits]
  case h_12 => cases h
  all_goals
    cases h
    simp [sourceBits]

/-- The pixel that is read next. -/
def here (T : PageTables) (s : GS) : ℕ :=
  texel T s.BITBLTBUF s.localMem s.TRXPOS.intSourceX s.TRXPOS.intSourceY

theorem readPixel_whole {format : ℕ} (hf : s.BITBLTBUF.sourceFormat = format)
    (hin : format ∈ [0x00, 0x02, 0x0A, 0x13, 0x14, 0x1B, 0x30, 0x32, 0x3A]) :
    s.readPixel T data i = some (data ||| here T s <<< (i * sourceBits format), s.took) := by
  unfold GS.readPixel here texel
  rw [hf]
  simp only [List.mem_cons, List.not_mem_nil, or_false] at hin
  rcases hin with rfl | rfl | rfl | rfl | rfl | rfl | rfl | rfl | rfl <;> rfl

theorem readPixel_color {format : ℕ} (hf : s.BITBLTBUF.sourceFormat = format)
    (hin : format = 0x01 ∨ format = 0x31) :
    s.readPixel T data i = some (s.packPSMCT24 T (format = 0x31)) := by
  unfold GS.readPixel
  rw [hf]
  rcases hin with rfl | rfl <;> rfl

/-! ### The steps from pixel to pixel -/

/-- A row that ends with the pixel before `c` is followed by the next one. -/
def row (s₀ : GS) (c : ℕ) (xy : ℕ × ℕ) : ℕ × ℕ :=
  if c % columns s₀ = 0 then (s₀.TRXPOS.sourceX, xy.2 + 1) else xy

def wrap (xy : ℕ × ℕ) : ℕ × ℕ := (xy.1 % 2048, xy.2 % 2048)

/-- The transfer `s₀` stands after `c` pixels, at the place `xy`. -/
structure Stands (s₀ : GS) (c : ℕ) (xy : ℕ × ℕ) (s : GS) : Prop where
  bitblt : s.BITBLTBUF = s₀.BITBLTBUF
  size : s.TRXREG = s₀.TRXREG
  sourceX : s.TRXPOS.sourceX = s₀.TRXPOS.sourceX
  memory : s.localMem = s₀.localMem
  transferred : s.pixelsTransferred = c
  x : s.TRXPOS.intSourceX = xy.1
  y : s.TRXPOS.intSourceY = xy.2

theorem Stands.took (h : Stands s₀ c xy s) : Stands s₀ (c + 1) (xy.1 + 1, xy.2) s.took :=
  ⟨h.bitblt, h.size, h.sourceX, h.memory, congrArg (· + 1) h.transferred, congrArg (· + 1) h.x, h.y⟩

theorem Stands.nextSourceRow (h : Stands s₀ c xy s) : Stands s₀ c (row s₀ c xy) s.nextSourceRow := by
  have hended : s.pixelsTransferred % s.TRXREG.width = c % columns s₀ := by
    rw [h.transferred, h.size]
    rfl
  unfold GS.nextSourceRow row
  rw [hended]
  split
  · exact ⟨h.bitblt, h.size, h.sourceX, h.memory, h.transferred, h.sourceX, congrArg (· + 1) h.y⟩
  · exact h

theorem Stands.wrapSource (h : Stands s₀ c xy s) : Stands s₀ c (wrap xy) s.wrapSource :=
  ⟨h.bitblt, h.size, h.sourceX, h.memory, h.transferred, congrArg (· % 2048) h.x,
    congrArg (· % 2048) h.y⟩

theorem Stands.here (h : Stands s₀ c xy s) :
    here T s = texel T s₀.BITBLTBUF s₀.localMem xy.1 xy.2 := by
  unfold Packing.here
  rw [h.bitblt, h.memory, h.x, h.y]

/-- The place of the pixel `k` of the rectangle. -/
def place (s₀ : GS) (k : ℕ) : ℕ × ℕ :=
  ((s₀.TRXPOS.sourceX + k % columns s₀) % 2048, (s₀.TRXPOS.sourceY + k / columns s₀) % 2048)

theorem place_succ (hw : 0 < columns s₀) :
    wrap (row s₀ (c + 1) ((place s₀ c).1 + 1, (place s₀ c).2)) = place s₀ (c + 1) := by
  unfold wrap row place
  rcases column_row_succ hw c with ⟨hz, hdiv⟩ | ⟨hz, hmod, hdiv⟩
  · rw [if_pos hz, hz, hdiv]
    refine Prod.ext rfl ?_
    rw [← Nat.add_assoc, ← Nat.mod_add_mod (_ + _) 2048 1]
  · rw [if_neg hz, hmod, hdiv, ← Nat.add_assoc, ← Nat.mod_add_mod (_ + _) 2048 1]
    exact Prod.ext rfl (Nat.mod_mod _ _)

/-! ### After the end -/

/-- All pixels were read. -/
structure Over (s₀ s : GS) : Prop where
  bitblt : s.BITBLTBUF = s₀.BITBLTBUF
  transferred : total s₀ ≤ s.pixelsTransferred

theorem nextSourceRow_frame : s.nextSourceRow.BITBLTBUF = s.BITBLTBUF ∧
    s.nextSourceRow.pixelsTransferred = s.pixelsTransferred := by
  unfold GS.nextSourceRow
  split <;> exact ⟨rfl, rfl⟩

theorem Over.turned (h : Over s₀ s) : Over s₀ s.nextSourceRow.wrapSource :=
  ⟨nextSourceRow_frame.1.trans h.bitblt, h.transferred.trans nextSourceRow_frame.2.ge⟩

theorem Over.took (h : Over s₀ s) : Over s₀ s.took :=
  ⟨h.bitblt, h.transferred.trans (Nat.le_succ _)⟩

theorem Over.emit (h : Over s₀ s) {d : ℕ} : Over s₀ (s.emit d) := by
  unfold GS.emit
  split
  · exact ⟨h.bitblt, h.transferred⟩
  · have hcounted : Over s₀ { s with
        PSMCT24UnpackedCount := 0
        PSMCT24Color := 0
        pixelsTransferred := s.pixelsTransferred + 1 } :=
      ⟨h.bitblt, h.transferred.trans (Nat.le_succ _)⟩
    dsimp only
    split
    · exact ⟨nextSourceRow_frame.1.trans hcounted.bitblt,
        hcounted.transferred.trans nextSourceRow_frame.2.ge⟩
    · exact hcounted

theorem Over.packLoop {z : Bool} {d out : ℕ} (h : Over s₀ s) : Over s₀ (s.packLoop T z d out).2 := by
  fun_induction GS.packLoop T z d out s with
  | case1 => exact h.emit
  | case2 _ _ _ _ _ _ _ _ _ ih => exact ih h.emit
  | case3 _ _ _ _ _ ih => exact ih ⟨h.bitblt, h.transferred⟩
  | case4 => exact h

theorem Over.readTurn (hm : sourcePpd s₀.BITBLTBUF.sourceFormat = some m)
    (h : Over s₀ s) : ∃ r, GS.readTurn T (data, s) i = some r ∧ Over s₀ r.2 := by
  have hformat : s.BITBLTBUF.sourceFormat = s₀.BITBLTBUF.sourceFormat :=
    congrArg BITBLTBUF_REG.sourceFormat h.bitblt
  unfold GS.readTurn
  rcases sourcePpd_cases hm with ⟨-, -, hin⟩ | ⟨-, hin⟩
  · rw [readPixel_color hformat hin]
    exact ⟨_, rfl, Over.turned (Over.packLoop h)⟩
  · rw [readPixel_whole hformat hin]
    exact ⟨_, rfl, h.took.turned⟩

theorem Over.readDoubleword (hm : sourcePpd s₀.BITBLTBUF.sourceFormat = some m) (h : Over s₀ s)
    (n : ℕ) : ∃ data s', s.readDoubleword T n = some (data, s') ∧ Over s₀ s' := by
  unfold GS.readDoubleword
  induction n with
  | zero => exact ⟨0, s, rfl, h⟩
  | succ n ih =>
    obtain ⟨data, s', hread, hover⟩ := ih
    obtain ⟨r, hturn, hover'⟩ : ∃ r, GS.readTurn T (data, s') n = some r ∧ Over s₀ r.2 :=
      hover.readTurn hm
    refine ⟨r.1, r.2, ?_, hover'⟩
    rw [List.range_succ, List.foldlM_append, hread]
    exact congrArg (fun o => o.bind pure) hturn

/-! ### The loop over the quadwords -/

/-- The doubleword `n` of the number `P`, of which `M` bits are asked for. -/
def Agrees (M P n data : ℕ) : Prop :=
  data % 2 ^ min 64 (M - 64 * n) = slice (64 * n) (min 64 (M - 64 * n)) P

variable {M P : ℕ}

/-- The doublewords so far are the number `P`. -/
def Begun (P : ℕ) (ds : List DoubleWord) : Prop := stream ds = slice 0 (64 * ds.length) P

/-- The doublewords hold all `M` bits of `P`. -/
def Whole (M P : ℕ) (ds : List DoubleWord) : Prop :=
  stream ds % 2 ^ M = slice 0 M P ∧ M ≤ 64 * ds.length

theorem stream_append_one {ds : List DoubleWord} {d : DoubleWord} :
    stream (ds ++ [d]) = packed 64 (ds.map BitVec.toNat ++ [d.toNat]) := by
  rw [stream, List.map_append, List.map_singleton]

theorem Begun.next {ds : List DoubleWord} (h : Begun P ds) (hd : Agrees M P ds.length data) :
    stream (ds ++ [BitVec.ofNat 64 data]) % 2 ^ (64 * ds.length + min 64 (M - 64 * ds.length)) =
      slice 0 (64 * ds.length + min 64 (M - 64 * ds.length)) P := by
  have hlen : (ds.map BitVec.toNat).length = ds.length := List.length_map ..
  have hword : data % 2 ^ 64 % 2 ^ min 64 (M - 64 * ds.length) =
      slice (64 * ds.length) (min 64 (M - 64 * ds.length)) P := by
    rw [Nat.mod_mod_of_dvd _ (Nat.pow_dvd_pow 2 (Nat.min_le_left _ _))]
    exact hd
  have hnext := packed_next (L := 64) (hlen.symm ▸ h) (hlen.symm ▸ hword)
  rw [hlen] at hnext
  rw [stream_append_one, BitVec.toNat_ofNat]
  exact hnext

/-- A doubleword that does not end the rectangle. -/
theorem Begun.going {ds : List DoubleWord} (h : Begun P ds) (hd : Agrees M P ds.length data)
    (hM : 64 * (ds.length + 1) ≤ M) : Begun P (ds ++ [BitVec.ofNat 64 data]) := by
  have hnext := h.next hd
  have hlt : stream (ds ++ [BitVec.ofNat 64 data]) < 2 ^ (64 * (ds.length + 1)) := by
    have hwords : ∀ d ∈ (ds ++ [BitVec.ofNat 64 data]).map BitVec.toNat, d < 2 ^ 64 := by
      intro d hd
      obtain ⟨w, -, rfl⟩ := List.mem_map.mp hd
      exact w.isLt
    have hpacked := packed_lt hwords
    rwa [List.length_map, List.length_append, List.length_singleton] at hpacked
  rw [Nat.min_eq_left (by omega), ← Nat.mul_succ, Nat.mod_eq_of_lt hlt] at hnext
  rw [Begun, List.length_append, List.length_singleton]
  exact hnext

/-- The doubleword that ends it. -/
theorem Begun.ended {ds : List DoubleWord} (h : Begun P ds) (hd : Agrees M P ds.length data)
    (hlt : 64 * ds.length < M) (hM : M ≤ 64 * (ds.length + 1)) :
    Whole M P (ds ++ [BitVec.ofNat 64 data]) := by
  have hnext := h.next hd
  rw [Nat.min_eq_right (by omega), Nat.add_sub_of_le hlt.le] at hnext
  refine ⟨hnext, ?_⟩
  rw [List.length_append, List.length_singleton]
  exact hM

theorem Whole.over {ds : List DoubleWord} (h : Whole M P ds) (d : DoubleWord) :
    Whole M P (ds ++ [d]) := by
  have hlen : (ds.map BitVec.toNat).length = ds.length := List.length_map ..
  refine ⟨?_, ?_⟩
  · rw [stream_append_one, packed_over (hlen.symm ▸ h.2)]
    exact h.1
  · rw [List.length_append]
    exact h.2.trans (Nat.mul_le_mul_left 64 (Nat.le_add_right _ _))

/-- What the doublewords of a format do: they go on with the number `P`, or end it. -/
structure Steps (T : PageTables) (s₀ : GS) (m M P : ℕ) (Standing : ℕ → GS → Prop) : Prop where
  going : ∀ n s, Standing n s → s.pixelsTransferred < total s₀
  doubleword : ∀ n s, 64 * n < M → Standing n s → ∃ data s',
    s.readDoubleword T m = some (data, s') ∧ Agrees M P n data ∧
      (64 * (n + 1) < M ∧ Standing (n + 1) s' ∨ M ≤ 64 * (n + 1) ∧ Over s₀ s')

/-- The doublewords of the quadwords. -/
def words (qs : List QuadWord) : List DoubleWord := qs.flatMap fun q => [q.1, q.2]

theorem words_cons {q : QuadWord} {qs : List QuadWord} : words (q :: qs) = [q.1] ++ [q.2] ++ words qs :=
  rfl

section
variable {Standing : ℕ → GS → Prop} {ds : List DoubleWord}

theorem Steps.quadword (hsteps : Steps T s₀ m M P Standing)
    (hm : sourcePpd s₀.BITBLTBUF.sourceFormat = some m) (hlt : 64 * ds.length < M)
    (hds : Begun P ds) (h : Standing ds.length s) :
    ∃ q s', s.readQuadword T m = some (q, s') ∧
      (64 * (ds.length + 2) < M ∧ Standing (ds.length + 2) s' ∧ Begun P (ds ++ [q.1] ++ [q.2]) ∨
        M ≤ 64 * (ds.length + 2) ∧ Over s₀ s' ∧ Whole M P (ds ++ [q.1] ++ [q.2])) := by
  obtain ⟨low, s₁, hread₁, hlow, hnext₁⟩ := hsteps.doubleword _ _ hlt h
  have hlen : (ds ++ [BitVec.ofNat 64 low]).length = ds.length + 1 := by simp
  rcases hnext₁ with ⟨hM₁, hs₁⟩ | ⟨hM₁, hs₁⟩
  · obtain ⟨high, s₂, hread₂, hhigh, hnext₂⟩ := hsteps.doubleword _ _ hM₁ hs₁
    have hbegun := hds.going hlow hM₁.le
    rw [← hlen] at hhigh
    refine ⟨(BitVec.ofNat 64 low, BitVec.ofNat 64 high), s₂, ?_, ?_⟩
    · unfold GS.readQuadword
      rw [hread₁]
      show (s₁.readDoubleword T m).bind _ = _
      rw [hread₂]
      rfl
    · rcases hnext₂ with ⟨hM₂, hs₂⟩ | ⟨hM₂, hs₂⟩
      · exact Or.inl ⟨hM₂, hs₂, hbegun.going hhigh (by omega)⟩
      · exact Or.inr ⟨hM₂, hs₂, hbegun.ended hhigh (by omega) (by omega)⟩
  · obtain ⟨high, s₂, hread₂, hs₂⟩ := hs₁.readDoubleword (T := T) hm m
    refine ⟨(BitVec.ofNat 64 low, BitVec.ofNat 64 high), s₂, ?_, ?_⟩
    · unfold GS.readQuadword
      rw [hread₁]
      show (s₁.readDoubleword T m).bind _ = _
      rw [hread₂]
      rfl
    · exact Or.inr ⟨by omega, hs₂, (hds.ended hlow hlt hM₁).over _⟩

/-- The loop returns the number, in as many quadwords as it takes. -/
theorem Steps.loop (hsteps : Steps T s₀ m M P Standing)
    (hm : sourcePpd s₀.BITBLTBUF.sourceFormat = some m) {j : ℕ} (hj : M ≤ 64 * ds.length + 128 * j)
    (hlt : 64 * ds.length < M) (hds : Begun P ds) (h : Standing ds.length s) :
    ∃ fuel qs s', s.readLoop T m (total s₀) fuel = some (qs, s') ∧ Whole M P (ds ++ words qs) ∧
      64 * ds.length + 128 * qs.length < M + 128 := by
  induction j generalizing ds s with
  | zero => omega
  | succ j ih =>
    obtain ⟨q, s₁, hread, hnext⟩ := hsteps.quadword hm hlt hds h
    have hlen : (ds ++ [q.1] ++ [q.2]).length = ds.length + 2 := by simp
    rcases hnext with ⟨hM, hs₁, hbegun⟩ | ⟨hM, hs₁, hwhole⟩
    · obtain ⟨fuel, qs, s₂, hloop, hwhole, hcount⟩ :=
        ih (by omega) (by omega) hbegun (hlen.symm ▸ hs₁)
      refine ⟨fuel + 1, q :: qs, s₂, ?_, ?_, ?_⟩
      · rw [GS.readLoop, if_pos (hsteps.going _ _ h), hread]
        show (s₁.readLoop T m (total s₀) fuel).bind _ = _
        rw [hloop]
        rfl
      · rw [words_cons, ← List.append_assoc, ← List.append_assoc]
        exact hwhole
      · rw [List.length_cons]
        omega
    · refine ⟨2, [q], s₁, ?_, ?_, ?_⟩
      · rw [GS.readLoop, if_pos (hsteps.going _ _ h), hread]
        show (s₁.readLoop T m (total s₀) 1).bind _ = _
        rw [GS.readLoop, if_neg (Nat.not_lt_of_le hs₁.transferred)]
        rfl
      · rw [words_cons, ← List.append_assoc, ← List.append_assoc]
        simpa [words] using hwhole
      · rw [List.length_singleton]
        omega

end

/-! ### Formats whose pixels lie within a doubleword -/

/-- The pixel `k`, where pixels are read at the places `at`. -/
def pixelAt (T : PageTables) (s₀ : GS) (pos : ℕ → ℕ × ℕ) (k : ℕ) : ℕ :=
  texel T s₀.BITBLTBUF s₀.localMem (pos k).1 (pos k).2

/-- The pixels as one number. -/
def pixels (T : PageTables) (s₀ : GS) (pos : ℕ → ℕ × ℕ) : ℕ → ℕ :=
  fields (sourceBits s₀.BITBLTBUF.sourceFormat) (pixelAt T s₀ pos)

theorem pixelAt_lt {pos : ℕ → ℕ × ℕ} (k : ℕ) :
    pixelAt T s₀ pos k < 2 ^ sourceBits s₀.BITBLTBUF.sourceFormat := texel_lt

/-- Fewer bits of a slice. -/
theorem slice_mod_two_pow {p q r x : ℕ} (h : r ≤ q) : slice p q x % 2 ^ r = slice p r x :=
  Nat.mod_mod_of_dvd _ (Nat.pow_dvd_pow 2 h)

theorem whole_turns (hw : 0 < columns s₀)
    (hin : s₀.BITBLTBUF.sourceFormat ∈ [0x00, 0x02, 0x0A, 0x13, 0x14, 0x1B, 0x30, 0x32, 0x3A])
    (h : Stands s₀ c (place s₀ c) s) (n : ℕ) : ∃ s', s.readDoubleword T n =
      some (fields (sourceBits s₀.BITBLTBUF.sourceFormat) (fun i => pixelAt T s₀ (place s₀) (c + i)) n,
        s') ∧ Stands s₀ (c + n) (place s₀ (c + n)) s' := by
  unfold GS.readDoubleword
  induction n with
  | zero => exact ⟨s, rfl, h⟩
  | succ n ih =>
    obtain ⟨s', hread, hs'⟩ := ih
    have hformat : s'.BITBLTBUF.sourceFormat = s₀.BITBLTBUF.sourceFormat :=
      congrArg BITBLTBUF_REG.sourceFormat hs'.bitblt
    have hnext := hs'.took.nextSourceRow.wrapSource
    rw [place_succ hw] at hnext
    refine ⟨_, ?_, hnext⟩
    rw [List.range_succ, List.foldlM_append, hread]
    show (GS.readTurn T (_, s') n).bind pure = _
    unfold GS.readTurn
    rw [readPixel_whole hformat hin, hs'.here, Nat.mul_comm n,
      ← fields_or fun i => pixelAt_lt (c + i)]
    rfl

theorem whole_steps (hw : 0 < columns s₀) (hbits : sourceBits s₀.BITBLTBUF.sourceFormat * m = 64)
    (hin : s₀.BITBLTBUF.sourceFormat ∈ [0x00, 0x02, 0x0A, 0x13, 0x14, 0x1B, 0x30, 0x32, 0x3A]) :
    Steps T s₀ m (sourceBits s₀.BITBLTBUF.sourceFormat * total s₀)
      (pixels T s₀ (place s₀) (total s₀))
      fun n s => m * n < total s₀ ∧ Stands s₀ (m * n) (place s₀ (m * n)) s where
  going := by
    rintro n s ⟨hlt, h⟩
    rw [h.transferred]
    exact hlt
  doubleword := by
    rintro n s hM ⟨hlt, h⟩
    obtain ⟨s', hread, hs'⟩ := whole_turns (T := T) hw hin h m
    have hpos : 0 < sourceBits s₀.BITBLTBUF.sourceFormat := Nat.pos_of_ne_zero fun h0 => by
      rw [h0] at hbits
      omega
    have hend : ∀ n, sourceBits s₀.BITBLTBUF.sourceFormat * (m * n) = 64 * n := fun n => by
      rw [← Nat.mul_assoc, hbits]
    have hslice := slice_fields_from (f := pixelAt T s₀ (place s₀)) pixelAt_lt (Nat.le_refl (m * n + m))
    rw [hend, hbits] at hslice
    have hcount := hend (n + 1)
    rw [Nat.mul_succ m] at hcount
    refine ⟨_, s', hread, ?_, ?_⟩
    · rw [Agrees, ← hslice, slice_mod_two_pow (Nat.min_le_left _ _)]
      exact slice_fields (by omega) (by omega)
    · rcases Nat.lt_or_ge (m * n + m) (total s₀) with hgo | hend'
      · have hM' := Nat.mul_lt_mul_of_pos_left hgo hpos
        exact Or.inl ⟨hcount ▸ hM', hgo, hs'⟩
      · have hM' := Nat.mul_le_mul_left (sourceBits s₀.BITBLTBUF.sourceFormat) hend'
        exact Or.inr ⟨hcount ▸ hM', hs'.bitblt, hend'.trans hs'.transferred.ge⟩

/-! ### Formats of 24 bits -/

/-- Pixels that straddle doublewords. -/
def split (k : ℕ) : Prop := k % 8 = 2 ∨ k % 8 = 5

instance (k : ℕ) : Decidable (split k) := inferInstanceAs (Decidable (_ ∨ _))

theorem split_of_straddles {k : ℕ} (hlow : 24 * k < 64 * n) (hhigh : 64 * n < 24 * (k + 1)) :
    split k := by
  obtain ⟨q, r, hk, hr⟩ : ∃ q r, k = 8 * q + r ∧ r < 8 :=
    ⟨k / 8, k % 8, (Nat.div_add_mod k 8).symm, Nat.mod_lt k (by decide)⟩
  unfold split
  interval_cases r <;> omega

/-- Where the transfer stands when a color has been read. -/
def afterFetch (xy : ℕ × ℕ) : ℕ × ℕ := wrap (xy.1 + 1, xy.2)

/-- And when the doubleword has ended with part of it: the outer loop looks for the end of the row. -/
def afterSplit (s₀ : GS) (k : ℕ) (xy : ℕ × ℕ) : ℕ × ℕ :=
  if split k then wrap (row s₀ k (afterFetch xy)) else afterFetch xy

/-- Where the pixel `k` is read: the end of a row is looked for in `pack_PSMCT24`, but by the outer loop where the
doubleword ends with it. -/
def reached (s₀ : GS) : ℕ → ℕ × ℕ
  | 0 => (s₀.TRXPOS.sourceX, s₀.TRXPOS.sourceY)
  | k + 1 =>
    let xy := row s₀ (k + 1) (afterSplit s₀ k (reached s₀ k))
    if (k + 1) % 8 = 0 then wrap xy else xy

/-- The bits `p` and on of the pixel `c` are in the color. -/
structure Loaded (s₀ : GS) (P c p : ℕ) (xy : ℕ × ℕ) (s : GS) : Prop extends Stands s₀ c xy s where
  count : s.PSMCT24UnpackedCount = 24 * (c + 1) - p
  color : s.PSMCT24Color = slice p (24 * (c + 1) - p) P

/-- No color is left. -/
structure Empty (s₀ : GS) (c : ℕ) (xy : ℕ × ℕ) (s : GS) : Prop extends Stands s₀ c xy s where
  count : s.PSMCT24UnpackedCount = 0
  color : s.PSMCT24Color = 0

/-- The transfer stands after `n` doublewords. -/
def Boundary (s₀ : GS) (P n : ℕ) (s : GS) : Prop :=
  ∃ c < total s₀, 64 * n = 24 * c ∧ Empty s₀ c (reached s₀ c) s ∨
    24 * c < 64 * n ∧ 64 * n < 24 * (c + 1) ∧
      Loaded s₀ P c (64 * n) (afterSplit s₀ c (reached s₀ c)) s

theorem nextSourceRow_color : s.nextSourceRow.PSMCT24UnpackedCount = s.PSMCT24UnpackedCount ∧
    s.nextSourceRow.PSMCT24Color = s.PSMCT24Color := by
  unfold GS.nextSourceRow
  split <;> exact ⟨rfl, rfl⟩

theorem Loaded.turned {p : ℕ} (h : Loaded s₀ P c p xy s) :
    Loaded s₀ P c p (wrap (row s₀ c xy)) s.nextSourceRow.wrapSource :=
  ⟨h.toStands.nextSourceRow.wrapSource, nextSourceRow_color.1.trans h.count,
    nextSourceRow_color.2.trans h.color⟩

theorem Empty.nextSourceRow (h : Empty s₀ c xy s) : Empty s₀ c (row s₀ c xy) s.nextSourceRow :=
  ⟨h.toStands.nextSourceRow, nextSourceRow_color.1.trans h.count, nextSourceRow_color.2.trans h.color⟩

theorem Empty.wrapSource (h : Empty s₀ c xy s) : Empty s₀ c (wrap xy) s.wrapSource :=
  ⟨h.toStands.wrapSource, h.count, h.color⟩

section
variable {z : Bool} {d out : ℕ}

/-- The format of 24 bits that is read. -/
def Reading (s₀ : GS) (z : Bool) : Prop := s₀.BITBLTBUF.sourceFormat = if z then 0x31 else 0x01

theorem Reading.bits (h : Reading s₀ z) : sourceBits s₀.BITBLTBUF.sourceFormat = 24 := by
  rw [h]
  cases z <;> rfl

/-- The pixels as they are read, one after another. -/
def colors (T : PageTables) (s₀ : GS) : ℕ := pixels T s₀ (reached s₀) (total s₀)

theorem Empty.fetch (hz : Reading s₀ z) (hc : c < total s₀) (h : Empty s₀ c (reached s₀ c) s) :
    Loaded s₀ (colors T s₀) c (24 * c) (afterFetch (reached s₀ c)) (s.fetch T z) := by
  have hbits := hz.bits
  have hpixel : here T s = pixelAt T s₀ (reached s₀) c := h.here
  have hslice := slice_field (f := pixelAt T s₀ (reached s₀)) pixelAt_lt hc
  refine ⟨⟨h.bitblt, h.size, h.sourceX, h.memory, h.transferred, ?_, ?_⟩, ?_, ?_⟩
  · exact congrArg (fun x => (x + 1) % 2048) h.x
  · exact congrArg (· % 2048) h.y
  · show s.PSMCT24UnpackedCount + 24 = _
    rw [h.count]
    omega
  · rw [show 24 * (c + 1) - 24 * c = 24 by omega, colors, pixels, hbits]
    rw [hbits] at hslice
    rw [hslice, ← hpixel, here, texel, h.bitblt, hz]
    unfold GS.fetch GS.atSource
    rw [h.bitblt]
    cases z <;> rfl

theorem shiftLeft_mod {x p q : ℕ} (h : q ≤ p) : x <<< q % 2 ^ p = (x % 2 ^ (p - q)) <<< q := by
  have hsplit : p = p - q + q := by omega
  rw [Nat.shiftLeft_eq, Nat.shiftLeft_eq]
  conv_lhs => rw [hsplit, Nat.pow_add]
  rw [Nat.mul_mod_mul_right]

/-- The color goes on where the output ends. -/
theorem output_eq {p q : ℕ} (hd : d ≤ 64) :
    slice p d P ||| (slice (p + d) q P <<< d) % 2 ^ 64 = slice p (min 64 (d + q)) P := by
  rw [shiftLeft_mod hd]
  rcases Nat.le_total (64 - d) q with h | h
  · rw [slice_mod_two_pow h, slice_or, Nat.add_sub_of_le hd, Nat.min_eq_left (by omega)]
  · rw [Nat.mod_eq_of_lt, slice_or, Nat.min_eq_right (by omega)]
    exact lt_of_lt_of_le slice_lt (Nat.pow_le_pow_right (by decide) h)

theorem slice_shiftRight {p q r : ℕ} (h : r ≤ q) : slice p q P >>> r = slice (p + r) (q - r) P := by
  have hsplit : q = r + (q - r) := by omega
  have hadd := slice_add (p := p) (q := r) (r := q - r) (x := P)
  rw [← hsplit] at hadd
  rw [hadd, Nat.shiftRight_eq_div_pow, Nat.add_mul_div_left _ _ (Nat.two_pow_pos r),
    Nat.div_eq_of_lt slice_lt, Nat.zero_add]

/-- A color that overflows. -/
theorem Loaded.overflow (h : Loaded s₀ P c (64 * n + d) xy s) (hd : d ≤ 64)
    (ho : 64 * (n + 1) < 24 * (c + 1)) :
    Loaded s₀ P c (64 * (n + 1)) xy (s.emit (d + (24 * (c + 1) - (64 * n + d)))) := by
  unfold GS.emit
  rw [if_pos (by omega)]
  refine ⟨⟨h.bitblt, h.size, h.sourceX, h.memory, h.transferred, h.x, h.y⟩, ?_, ?_⟩
  · show d + (24 * (c + 1) - (64 * n + d)) - 64 = _
    omega
  · show s.PSMCT24Color >>> (s.PSMCT24UnpackedCount - (d + (24 * (c + 1) - (64 * n + d)) - 64)) = _
    rw [h.color, h.count, slice_shiftRight (by omega)]
    congr 1 <;> omega

/-- A color that does not. -/
theorem Loaded.complete {p held : ℕ} (h : Loaded s₀ P c p xy s) (hheld : held ≤ 64) :
    Empty s₀ (c + 1) (if held < 64 then row s₀ (c + 1) xy else xy) (s.emit held) := by
  have hcounted : Empty s₀ (c + 1) xy { s with
      PSMCT24UnpackedCount := 0
      PSMCT24Color := 0
      pixelsTransferred := s.pixelsTransferred + 1 } :=
    ⟨⟨h.bitblt, h.size, h.sourceX, h.memory, congrArg (· + 1) h.transferred, h.x, h.y⟩, rfl, rfl⟩
  unfold GS.emit
  rw [if_neg (show ¬ 64 < held by omega)]
  dsimp only
  split
  · exact hcounted.nextSourceRow
  · exact hcounted

/-- What `pack_PSMCT24` returns for the doubleword `n`. -/
def Packed (s₀ : GS) (P n : ℕ) (r : ℕ × GS) : Prop :=
  Agrees (24 * total s₀) P n r.1 ∧
    (64 * (n + 1) < 24 * total s₀ ∧ Boundary s₀ P (n + 1) r.2.nextSourceRow.wrapSource ∨
      24 * total s₀ ≤ 64 * (n + 1) ∧ Over s₀ r.2)

/-- Where the transfer stands while the color of the pixel `c` is packed. -/
def Placed (s₀ : GS) (n c d : ℕ) (xy : ℕ × ℕ) : Prop :=
  d = 0 ∧ 24 * c < 64 * n ∧ xy = afterSplit s₀ c (reached s₀ c) ∨
    24 * c = 64 * n + d ∧ xy = afterFetch (reached s₀ c)

theorem Placed.completed (h : Placed s₀ n c d xy) (hend : 24 * (c + 1) ≤ 64 * (n + 1)) :
    xy = afterSplit s₀ c (reached s₀ c) := by
  rcases h with ⟨-, -, hxy⟩ | ⟨hc, hxy⟩
  · exact hxy
  · rw [afterSplit, if_neg (by unfold split; omega)]
    exact hxy

/-- The color overflows: the doubleword ends with part of a pixel. -/
theorem Packed.of_overflow (hc : c < total s₀) (hxy : Placed s₀ n c d xy) (hd : d < 64)
    (ho : 64 * (n + 1) < 24 * (c + 1)) (hout : out = slice (64 * n) 64 P)
    (h : Loaded s₀ P c (64 * (n + 1)) xy s) : Packed s₀ P n (out, s) := by
  have htotal : 24 * (c + 1) ≤ 24 * total s₀ := Nat.mul_le_mul_left 24 hc
  rcases hxy with ⟨rfl, h0, -⟩ | ⟨h0, hxy⟩
  · omega
  · have hsplit := split_of_straddles (show 24 * c < 64 * (n + 1) by omega) ho
    have hturned := h.turned
    refine ⟨?_, Or.inl ⟨by omega, c, hc, Or.inr ⟨by omega, ho, ?_⟩⟩⟩
    · rw [Agrees, hout, Nat.min_eq_left (by omega), slice_mod_two_pow (Nat.le_refl 64)]
    · rw [afterSplit, if_pos hsplit, ← hxy]
      exact hturned

/-- The doubleword ends with a whole pixel. -/
theorem Packed.of_exact (hxy : xy = afterSplit s₀ c (reached s₀ c)) (hc : c + 1 < total s₀)
    (he : 64 * (n + 1) = 24 * (c + 1)) (hout : out = slice (64 * n) 64 P)
    (h : Empty s₀ (c + 1) xy s) : Packed s₀ P n (out, s) := by
  have htotal : 24 * (c + 2) ≤ 24 * total s₀ := Nat.mul_le_mul_left 24 hc
  refine ⟨?_, Or.inl ⟨by omega, c + 1, hc, Or.inl ⟨he, ?_⟩⟩⟩
  · rw [Agrees, hout, Nat.min_eq_left (by omega), slice_mod_two_pow (Nat.le_refl 64)]
  · rw [reached, if_pos (show (c + 1) % 8 = 0 by omega), ← hxy]
    exact h.nextSourceRow.wrapSource

/-- The last pixel is in the output. -/
theorem Packed.of_last {held : ℕ} (hc : c + 1 = total s₀) (he : 64 * n + held = 24 * (c + 1)) (hle : held ≤ 64)
    (hout : out = slice (64 * n) held P) (h : Empty s₀ (c + 1) xy s) : Packed s₀ P n (out, s) := by
  rw [hc] at he
  refine ⟨?_, Or.inr ⟨by omega, h.bitblt, hc.ge.trans h.transferred.ge⟩⟩
  have hrest : min 64 (24 * total s₀ - 64 * n) = held := by omega
  rw [Agrees, hout, hrest, slice_mod_two_pow (Nat.le_refl held)]

/-- The loop of `pack_PSMCT24`, from a color on. -/
theorem packLoop_loaded (hz : Reading s₀ z) {k : ℕ} (hk : 64 ≤ d + k) (hd : d < 64)
    (hc : c < total s₀) (hlow : 24 * c ≤ 64 * n + d) (hhigh : 64 * n + d < 24 * (c + 1))
    (hxy : Placed s₀ n c d xy) (hout : out = slice (64 * n) d (colors T s₀))
    (h : Loaded s₀ (colors T s₀) c (64 * n + d) xy s) :
    Packed s₀ (colors T s₀) n (s.packLoop T z d out) := by
  induction k generalizing d c out xy s with
  | zero => omega
  | succ k ih =>
    have hsize : s.TRXREG.width * s.TRXREG.height = total s₀ := by
      rw [h.size]
      rfl
    have houtput : out ||| (s.PSMCT24Color <<< d) % 2 ^ 64 =
        slice (64 * n) (min 64 (d + (24 * (c + 1) - (64 * n + d)))) (colors T s₀) := by
      rw [hout, h.color, output_eq hd.le]
    rw [GS.packLoop, if_pos hd, if_pos (by rw [h.count]; omega)]
    dsimp only
    rw [houtput, hsize, h.count]
    rcases Nat.lt_or_ge (64 * (n + 1)) (24 * (c + 1)) with ho | hcomplete
    · have hover := h.overflow hd.le ho
      rw [if_neg (by rw [hover.transferred]; omega), GS.packLoop, if_neg (by omega)]
      refine Packed.of_overflow hc hxy hd ho ?_ hover
      rw [Nat.min_eq_left (by omega)]
    · have hxy' := hxy.completed hcomplete
      have hheld : d + (24 * (c + 1) - (64 * n + d)) ≤ 64 := by omega
      have hempty := h.complete hheld
      generalize hheld' : d + (24 * (c + 1) - (64 * n + d)) = held at *
      rw [Nat.min_eq_right hheld]
      rcases Nat.lt_or_ge (c + 1) (total s₀) with hgo | hlast
      · rw [if_neg (by rw [hempty.transferred]; omega)]
        rcases Nat.lt_or_ge held 64 with hlt | hfull
        · rw [if_pos hlt, hxy'] at hempty
          have hreached : row s₀ (c + 1) (afterSplit s₀ c (reached s₀ c)) = reached s₀ (c + 1) := by
            rw [reached, if_neg (show ¬ (c + 1) % 8 = 0 by omega)]
          rw [hreached] at hempty
          have hloaded := hempty.fetch (T := T) hz hgo
          rw [GS.packLoop, if_pos hlt, if_neg (by rw [hempty.count]; decide)]
          rw [show 24 * (c + 1) = 64 * n + held by omega] at hloaded
          exact ih (by omega) hlt hgo (by omega) (by omega) (Or.inr ⟨by omega, rfl⟩) rfl hloaded
        · have hfull' : held = 64 := by omega
          rw [if_neg (by omega), hfull'] at hempty
          rw [hfull', GS.packLoop, if_neg (by decide)]
          exact Packed.of_exact hxy' hgo (by omega) rfl hempty
      · rw [if_pos (by rw [hempty.transferred]; exact hlast)]
        exact Packed.of_last (by omega) (by omega) hheld rfl hempty

theorem pack_boundary (hz : Reading s₀ z) (h : Boundary s₀ (colors T s₀) n s) :
    Packed s₀ (colors T s₀) n (s.packPSMCT24 T z) := by
  obtain ⟨c, hc, ⟨he, hempty⟩ | ⟨hlow, hhigh, hloaded⟩⟩ := h
  · have hfetch := hempty.fetch (T := T) hz hc
    rw [GS.packPSMCT24, GS.packLoop, if_pos (by decide), if_neg (by rw [hempty.count]; decide)]
    rw [show 24 * c = 64 * n + 0 by omega] at hfetch
    exact packLoop_loaded (k := 64) hz (by decide) (by decide) hc (by omega) (by omega)
      (Or.inr ⟨by omega, rfl⟩) slice_zero.symm hfetch
  · exact packLoop_loaded (k := 64) (d := 0) hz (by decide) (by decide) hc (by omega) (by omega)
      (Or.inl ⟨rfl, hlow, rfl⟩) slice_zero.symm hloaded

theorem color_steps (hz : Reading s₀ z) :
    Steps T s₀ 1 (24 * total s₀) (colors T s₀) (Boundary s₀ (colors T s₀)) where
  going := by
    rintro n s ⟨c, hc, ⟨-, h⟩ | ⟨-, -, h⟩⟩
    · rw [h.transferred]
      exact hc
    · rw [h.transferred]
      exact hc
  doubleword := by
    rintro n s - h
    obtain ⟨hagrees, hnext⟩ := pack_boundary (T := T) hz h
    have hformat : s.BITBLTBUF.sourceFormat = if z then 0x31 else 0x01 := by
      obtain ⟨c, hc, ⟨-, hs⟩ | ⟨-, -, hs⟩⟩ := h
      · rw [hs.bitblt, hz]
      · rw [hs.bitblt, hz]
    have hread : s.readDoubleword T 1 =
        some ((s.packPSMCT24 T z).1, (s.packPSMCT24 T z).2.nextSourceRow.wrapSource) := by
      show (GS.readTurn T (0, s) 0).bind pure = _
      unfold GS.readTurn
      rw [readPixel_color hformat (by cases z <;> decide)]
      cases z <;> rfl
    refine ⟨_, _, hread, hagrees, ?_⟩
    rcases hnext with hgo | ⟨hend, hover⟩
    · exact Or.inl hgo
    · exact Or.inr ⟨hend, hover.turned⟩

end

end DobieStation.Gs.Packing
