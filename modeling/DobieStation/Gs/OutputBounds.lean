import DobieStation.Gs.CRT
import DobieStation.Gs.Download

/-! # The bounds of the output

What `render_CRT` stores and what `local_to_host` returns, against the sizes of the buffers. The sizes of the
picture and of the rectangle are what the registers say, and nothing compares them with the buffers; so all
depends on the product of width and rows (`rendered_iff`) and on the bits of the rectangle
(`downloaded_iff`). -/

namespace DobieStation.Gs.CRT

open DobieStation.Gs.Model DobieStation.Gs.Registers DobieStation.Gs.Download DobieStation.Gs.Packing
open DobieStation.Gs.Doublewords DobieStation.Lib.Memory

/-! ### The buffers -/

/-- `output_buffer1` and `output_buffer2`. -/
def targetSize : ℕ := 1920 * 1280

/-- `screen_buffer`. -/
def screenSize : ℕ := 2048 * 2048

/-- `gs_download_buffer`, in quadwords. -/
def downloadSize : ℕ := (2048 * 2048) / 4

def Access.Fits : Access → Prop
  | .target i => i < targetSize
  | .screen i => i < screenSize

variable (r : GSRegisters)

/-! ### A pixel -/

/-- The last row that is stored for a pixel of the row `y`. -/
def lastRow (y : ℕ) : ℕ :=
  if weaves r then (if fieldOffset r then y else y + 1)
  else if r.SMODE2.interlaced && r.SMODE2.frameMode then y * 2 + 1
  else y

/-- The last index that is stored for a pixel. -/
def highest (width : ℕ) (p : ℕ × ℕ) : ℕ := p.1 + lastRow r p.2 * width

/-- The accesses for a pixel. -/
def accessesOf (width x y : ℕ) : List Access :=
  if weaves r then
    [.screen (x + y * width), .target (x + y * width)] ++
      if fieldOffset r then
        (if y > 0 then [.screen (x + (y - 1) * width), .target (x + (y - 1) * width)] else [])
      else [.screen (x + (y + 1) * width), .target (x + (y + 1) * width)]
  else if r.SMODE2.interlaced && r.SMODE2.frameMode then
    [.target (x + y * 2 * width), .target (x + (y * 2 + 1) * width)]
  else [.target (x + y * width)]

theorem plot_accesses (width x y color : ℕ) (b : Buffers) :
    (plot r width x y color b).accesses = b.accesses ++ accessesOf r width x y := by
  unfold plot accessesOf weaves
  cases hi : r.SMODE2.interlaced with
  | false => simp [Buffers.setTarget]
  | true =>
    by_cases hbob : r.deinterlaceMethod = .bob
    · cases hf : r.SMODE2.frameMode <;> simp [hbob, Buffers.setTarget]
    · cases hfield : fieldOffset r
      · simp [hbob, Buffers.setTarget, Buffers.setScreen, Buffers.copyRow]
      · by_cases hy : y > 0 <;> simp [hbob, hy, Buffers.setTarget, Buffers.setScreen, Buffers.copyRow]

/-- The accesses for a pixel are in the buffers if the last one is. -/
theorem accessesOf_fits (width x y : ℕ) :
    (∀ a ∈ accessesOf r width x y, a.Fits) ↔ highest r width (x, y) < targetSize := by
  have hup : y * width ≤ (y + 1) * width := Nat.mul_le_mul_right _ (Nat.le_succ y)
  have hdown : (y - 1) * width ≤ y * width := Nat.mul_le_mul_right _ (Nat.sub_le y 1)
  have hdouble : y * 2 * width ≤ (y * 2 + 1) * width := Nat.mul_le_mul_right _ (Nat.le_succ _)
  have hsizes : targetSize ≤ screenSize := by decide
  have hnil : ∀ P : Access → Prop, (∀ a ∈ ([] : List Access), P a) ↔ True := fun P =>
    iff_true_intro fun a ha => absurd ha List.not_mem_nil
  unfold accessesOf highest lastRow
  cases hweaves : weaves r with
  | true =>
    cases hfield : fieldOffset r with
    | true =>
      by_cases hy : y > 0 <;>
        simp only [hy, if_true, if_false, List.forall_mem_append, List.forall_mem_cons, hnil, and_true, Access.Fits] <;>
        omega
    | false =>
      simp only [if_true, Bool.false_eq_true, if_false, List.forall_mem_append, List.forall_mem_cons, hnil, and_true,
        Access.Fits]
      omega
  | false =>
    cases hframe : r.SMODE2.interlaced && r.SMODE2.frameMode with
    | true =>
      simp only [Bool.false_eq_true, if_true, if_false, List.forall_mem_cons, hnil, and_true, Access.Fits]
      omega
    | false =>
      simp only [Bool.false_eq_true, if_false, List.forall_mem_cons, hnil, and_true, Access.Fits]

/-! ### The pixels that are drawn -/

/-- The formats of a display. -/
def knownFormat (dispfb : DISPFB) : Bool :=
  dispfb.format.toNat = 0x0 || dispfb.format.toNat = 0x1 || dispfb.format.toNat = 0x2 || dispfb.format.toNat = 0xA

/-- A circuit of an unknown format shows the pixel, and the emulation ends. -/
def refused (p : ℕ × ℕ) : Bool :=
  (enableCircuit1 r p.1 p.2 && !knownFormat r.DISPFB1) || (enableCircuit2 r p.1 p.2 && !knownFormat r.DISPFB2)

variable (T : PageTables) (m : Bytes)

theorem isSome_getCRTColor (dispfb : DISPFB) (x y : ℕ) :
    (getCRTColor T m dispfb x y).isSome = knownFormat dispfb := by
  unfold getCRTColor knownFormat
  split <;> simp_all

theorem isSome_circuitColor (enabled : Bool) (dispfb : DISPFB) (f : Frame) (xOffset yOffset x y otherwise : ℕ) :
    (circuitColor enabled (output T m f dispfb xOffset yOffset x y) otherwise).isSome =
      !(enabled && !knownFormat dispfb) := by
  cases enabled with
  | true => simp [circuitColor, output, isSome_getCRTColor]
  | false => rfl

theorem isSome_pixelColor (f : Frame) (p : ℕ × ℕ) :
    (pixelColor T m r f p.1 p.2).isSome = !refused r p := by
  have hsome : ∀ (o1 o2 : Option ℕ) (g : ℕ → ℕ → ℕ),
      (o1.bind fun a => o2.map fun b => g a b).isSome = (o1.isSome && o2.isSome) := by
    rintro (_ | a) (_ | b) g <;> rfl
  unfold pixelColor refused
  rw [hsome, isSome_circuitColor, isSome_circuitColor, Bool.not_or]

/-- The accesses are those for the pixels up to the first one that is refused. -/
theorem drawPixels_accesses (f : Frame) (ps : List (ℕ × ℕ)) (b : Buffers) :
    (drawPixels T m r f ps b).accesses =
      b.accesses ++ (ps.takeWhile fun p => !refused r p).flatMap fun p => accessesOf r f.width p.1 p.2 := by
  induction ps generalizing b with
  | nil => simp [drawPixels]
  | cons p ps ih =>
    have hsome := isSome_pixelColor r T m f p
    unfold drawPixels
    cases hcolor : pixelColor T m r f p.1 p.2 with
    | none =>
      rw [hcolor] at hsome
      simp [← hsome]
    | some color =>
      rw [hcolor] at hsome
      show (drawPixels T m r f ps (plot r f.width p.1 p.2 color b)).accesses = _
      rw [ih, plot_accesses, List.takeWhile_cons, ← hsome, List.append_assoc]
      rfl

/-! ### The order of the pixels -/

/-- The order of the loops. -/
def Before (p q : ℕ × ℕ) : Prop := p.2 < q.2 ∨ p.2 = q.2 ∧ p.1 < q.1

/-- Up to the first element that stops, everything is good: all elements are, or those before some element
that stops. -/
theorem forall_takeWhile_iff {α : Type} {lt : α → α → Prop} (hasymm : ∀ a b, lt a b → ¬lt b a) {go : α → Bool}
    {P : α → Prop} {l : List α} (hl : l.Pairwise lt) :
    (∀ a ∈ l.takeWhile go, P a) ↔
      (∀ a ∈ l, P a) ∨ ∃ b ∈ l, go b = false ∧ ∀ a ∈ l, lt a b → P a := by
  induction l with
  | nil => simp
  | cons a l ih =>
    obtain ⟨hall, htail⟩ := List.pairwise_cons.mp hl
    rw [List.takeWhile_cons]
    cases hgo : go a with
    | true =>
      rw [if_pos rfl, List.forall_mem_cons, ih htail, List.forall_mem_cons]
      constructor
      · rintro ⟨ha, h | ⟨b, hb, hstop, hbefore⟩⟩
        · exact Or.inl ⟨ha, h⟩
        · exact Or.inr ⟨b, List.mem_cons_of_mem _ hb, hstop, List.forall_mem_cons.mpr ⟨fun _ => ha, hbefore⟩⟩
      · rintro (⟨ha, h⟩ | ⟨b, hb, hstop, hbefore⟩)
        · exact ⟨ha, Or.inl h⟩
        · rcases List.mem_cons.mp hb with rfl | hb
          · rw [hgo] at hstop
            cases hstop
          · obtain ⟨h1, h2⟩ := List.forall_mem_cons.mp hbefore
            exact ⟨h1 (hall b hb), Or.inr ⟨b, hb, hstop, h2⟩⟩
    | false =>
      refine iff_of_true (fun c hc => absurd hc List.not_mem_nil) (Or.inr ⟨a, List.mem_cons_self, hgo, ?_⟩)
      rintro c hc hlt
      rcases List.mem_cons.mp hc with rfl | hc
      · exact absurd hlt (hasymm c c hlt)
      · exact absurd hlt (hasymm a c (hall c hc))

theorem before_asymm (p q : ℕ × ℕ) (h : Before p q) : ¬Before q p := by
  unfold Before at *
  omega

theorem mem_scan (f : Frame) (hpos : 0 < f.yIncrement) (p : ℕ × ℕ) :
    p ∈ scan f ↔ p.1 < f.width ∧ ∃ i, p.2 = f.startScanline + f.yIncrement * i ∧ p.2 < f.height := by
  have hcount : ∀ i, i < (f.height - f.startScanline + (f.yIncrement - 1)) / f.yIncrement ↔
      f.startScanline + f.yIncrement * i < f.height := by
    intro i
    rw [← Nat.add_one_le_iff, Nat.le_div_iff_mul_le hpos, Nat.succ_mul, Nat.mul_comm]
    omega
  unfold scan
  simp only [List.mem_flatMap, List.mem_map, List.mem_range, hcount]
  constructor
  · rintro ⟨i, hi, x, hx, rfl⟩
    exact ⟨hx, i, rfl, hi⟩
  · rintro ⟨hx, i, hy, hi⟩
    exact ⟨i, hy ▸ hi, p.1, hx, Prod.ext rfl hy.symm⟩

theorem pairwise_scan (f : Frame) (hpos : 0 < f.yIncrement) : (scan f).Pairwise Before := by
  unfold scan
  rw [List.pairwise_flatMap]
  constructor
  · intro i _
    rw [List.pairwise_map]
    exact List.pairwise_lt_range.imp fun h => Or.inr ⟨rfl, h⟩
  · refine List.pairwise_lt_range.imp fun {i j} hij p hp q hq => ?_
    obtain ⟨x, -, rfl⟩ := List.mem_map.mp hp
    obtain ⟨x', -, rfl⟩ := List.mem_map.mp hq
    exact Or.inl (Nat.add_lt_add_left (Nat.mul_lt_mul_of_pos_left hij hpos) _)

/-! ### The rows -/

/-- The number of rows that are stored, for a picture of this height. -/
def rows (height : ℕ) : ℕ :=
  if weaves r then (if fieldOffset r then height / 2 * 2 else (height + 1) / 2 * 2)
  else if r.SMODE2.interlaced && r.SMODE2.frameMode then height * 2
  else height

/-- The loop runs over every line, or over the lines of a field. -/
structure Loops (f : Frame) : Prop where
  increment : f.yIncrement = if weaves r then 2 else 1
  start : f.startScanline = if weaves r then (fieldOffset r).toNat else 0

theorem loops_frame {f : Frame} (hf : frame r = some f) : Loops r f := by
  obtain ⟨size, -, rfl⟩ := Option.map_eq_some_iff.mp hf
  exact ⟨rfl, rfl⟩

theorem Loops.increment_pos {f : Frame} (h : Loops r f) : 0 < f.yIncrement := by
  rw [h.increment]
  split <;> decide

variable {r}

/-- No line is stored below the rows, and the last of the rows is stored. -/
theorem Loops.lines {f : Frame} (h : Loops r f) :
    (∀ y i, y = f.startScanline + f.yIncrement * i → y < f.height → lastRow r y < rows r f.height) ∧
    (rows r f.height = 0 ∨ ∃ y i, y = f.startScanline + f.yIncrement * i ∧ y < f.height ∧
      lastRow r y + 1 = rows r f.height) := by
  unfold lastRow rows
  rw [h.increment, h.start]
  cases hweaves : weaves r with
  | true =>
    cases hfield : fieldOffset r with
    | true =>
      simp only [if_true, Bool.toNat_true]
      refine ⟨by omega, ?_⟩
      by_cases hh : f.height < 2
      · exact Or.inl (by omega)
      · exact Or.inr ⟨f.height / 2 * 2 - 1, f.height / 2 - 1, by omega, by omega, by omega⟩
    | false =>
      simp only [if_true, Bool.false_eq_true, if_false, Bool.toNat_false]
      refine ⟨by omega, ?_⟩
      by_cases hh : f.height = 0
      · exact Or.inl (by omega)
      · exact Or.inr ⟨(f.height + 1) / 2 * 2 - 2, (f.height + 1) / 2 - 1, by omega, by omega, by omega⟩
  | false =>
    cases hframe : r.SMODE2.interlaced && r.SMODE2.frameMode <;>
      simp only [Bool.false_eq_true, if_true, if_false] <;> refine ⟨by omega, ?_⟩ <;>
      by_cases hh : f.height = 0
    · exact Or.inl hh
    · exact Or.inr ⟨f.height - 1, f.height - 1, by omega, by omega, by omega⟩
    · exact Or.inl (by omega)
    · exact Or.inr ⟨f.height - 1, f.height - 1, by omega, by omega, by omega⟩

/-- Every pixel fits exactly if the picture does. -/
theorem Loops.forall_highest {f : Frame} (h : Loops r f) :
    (∀ p ∈ scan f, highest r f.width p < targetSize) ↔ f.width * rows r f.height ≤ targetSize := by
  obtain ⟨hbelow, hlast⟩ := h.lines
  simp only [mem_scan f h.increment_pos]
  constructor
  · intro hall
    rcases Nat.eq_zero_or_pos f.width with hw | hw
    · rw [hw, Nat.zero_mul]
      exact Nat.zero_le _
    · rcases hlast with h0 | ⟨y, i, hy, hlt, hrow⟩
      · rw [h0]
        exact Nat.zero_le _
      · have hcorner := hall (f.width - 1, y) ⟨by omega, i, hy, hlt⟩
        unfold highest at hcorner
        rw [← hrow, Nat.mul_succ, Nat.mul_comm]
        simp only at hcorner
        omega
  · rintro hfit p ⟨hx, i, hy, hlt⟩
    have hrow := hbelow p.2 i hy hlt
    have hmul : (lastRow r p.2 + 1) * f.width ≤ rows r f.height * f.width := Nat.mul_le_mul_right _ hrow
    rw [Nat.succ_mul, Nat.mul_comm (rows r f.height)] at hmul
    unfold highest
    omega

/-! ### The picture -/

variable (r)

/-- The picture fits into the buffer, or the emulation ends at a pixel of an unknown format before which every
pixel fits. -/
def PictureFits : Prop :=
  ∀ f, frame r = some f → f.width * rows r f.height ≤ targetSize ∨
    ∃ q ∈ scan f, refused r q = true ∧ ∀ p ∈ scan f, Before p q → highest r f.width p < targetSize

theorem rendered_iff (b : Buffers) (hb : b.accesses = []) :
    (∀ a ∈ (renderCRT T m r b).accesses, a.Fits) ↔ PictureFits r := by
  unfold renderCRT PictureFits
  cases hf : frame r with
  | none => simp [hb]
  | some f =>
    have hloops := loops_frame r hf
    simp only [drawPixels_accesses, hb, List.nil_append, List.forall_mem_flatMap, accessesOf_fits,
      Option.some.injEq, forall_eq']
    rw [forall_takeWhile_iff (P := fun p => highest r f.width p < targetSize) before_asymm
      (pairwise_scan f hloops.increment_pos), hloops.forall_highest]
    simp only [Bool.not_eq_false']

/-! ### The download -/

variable (g : GS) (L : GS → GS) (bitbltbuf trxpos trxreg : DoubleWord)

/-- The registers are written, the direction last. -/
def setUp : GS :=
  (((g.write64 T.toTables L 0x50 bitbltbuf).write64 T.toTables L 0x51 trxpos).write64 T.toTables L 0x52
    trxreg).write64 T.toTables L 0x53 1

/-- The rectangle has no more bits than the buffer, or is of an unknown format. -/
def RectangleFits : Prop :=
  sourcePpd ((bitbltbuf.toNat >>> 24) &&& 0x3F) = none ∨
    sourceBits ((bitbltbuf.toNat >>> 24) &&& 0x3F) *
      ((trxreg.toNat &&& 0xFFF) * ((trxreg.toNat >>> 32) &&& 0xFFF)) ≤ 128 * downloadSize

theorem downloaded_iff :
    (∀ fuel qs s', (setUp T g L bitbltbuf trxpos trxreg).localToHost T fuel = some (qs, s') →
      qs.length < downloadSize + 1) ↔ RectangleFits bitbltbuf trxreg := by
  obtain ⟨s, hs⟩ : ∃ s, s = ((g.write64 T.toTables L 0x50 bitbltbuf).write64 T.toTables L 0x51 trxpos).write64
    T.toTables L 0x52 trxreg := ⟨_, rfl⟩
  have hset : setUp T g L bitbltbuf trxpos trxreg = begun s := by
    rw [hs]
    rfl
  have hformat : s.BITBLTBUF.sourceFormat = (bitbltbuf.toNat >>> 24) &&& 0x3F := by
    rw [hs]
    rfl
  have hsize : s.TRXREG = ⟨trxreg.toNat &&& 0xFFF, (trxreg.toNat >>> 32) &&& 0xFFF⟩ := by
    rw [hs]
    rfl
  have hx : s.TRXPOS.sourceX < 2048 := by
    rw [hs]
    show trxpos.toNat &&& (2 ^ 11 - 1) < 2048
    rw [Nat.and_two_pow_sub_one_eq_mod]
    omega
  have hy : s.TRXPOS.sourceY < 2048 := by
    rw [hs]
    show (trxpos.toNat >>> 16) &&& (2 ^ 11 - 1) < 2048
    rw [Nat.and_two_pow_sub_one_eq_mod]
    omega
  have hbits : RectangleFits bitbltbuf trxreg ↔ sourcePpd s.BITBLTBUF.sourceFormat = none ∨
      bits (begun s) ≤ 128 * downloadSize := by
    unfold RectangleFits
    rw [← hformat]
    show _ ∨ sourceBits _ * _ ≤ _ ↔ _ ∨ sourceBits s.BITBLTBUF.sourceFormat * (s.TRXREG.width * s.TRXREG.height) ≤ _
    rw [hsize]
  have hdir : (begun s).TRXDIR ≠ 3 := by
    show 1 ≠ 3
    decide
  rw [hset, hbits]
  by_cases hempty : (begun s).TRXREG.width = 0 ∨ (begun s).TRXREG.height = 0
  · have hzero : bits (begun s) = 0 := by
      show _ * ((begun s).TRXREG.width * (begun s).TRXREG.height) = 0
      rcases hempty with h | h <;> rw [h] <;> simp
    refine iff_of_true ?_ (Or.inr (by rw [hzero]; exact Nat.zero_le _))
    rintro fuel qs s' hrun
    unfold GS.localToHost at hrun
    rw [if_neg hdir, if_pos hempty] at hrun
    cases hrun
    exact Nat.succ_pos _
  · cases hppd : sourcePpd s.BITBLTBUF.sourceFormat with
    | none =>
      refine iff_of_true ?_ (Or.inl rfl)
      rintro fuel qs s' hrun
      unfold GS.localToHost at hrun
      rw [if_neg hdir, if_neg hempty] at hrun
      have hnone : sourcePpd (begun s).BITBLTBUF.sourceFormat = none := hppd
      rw [hnone] at hrun
      cases hrun
    | some n =>
      have hready : Ready s := ⟨(not_or.mp hempty).1, (not_or.mp hempty).2, by rw [hppd]; rfl, hx, hy⟩
      obtain ⟨fuel, qs, s', hrun, hlength, -⟩ := returns (T := T) hready
      constructor
      · intro h
        have hlt := h fuel qs s' hrun
        exact Or.inr (by omega)
      · rintro (h | h) fuel' qs' s'' hrun'
        · cases h
        · cases localToHost_unique hrun hrun'
          omega

/-! ### Both -/

/-- No value of the registers makes the GS thread leave its buffers. -/
structure Contained : Prop where
  render : ∀ (m : Bytes) (b : Buffers), b.accesses = [] → ∀ a ∈ (renderCRT T m r b).accesses, a.Fits
  download : ∀ fuel qs s', (setUp T g L bitbltbuf trxpos trxreg).localToHost T fuel = some (qs, s') →
    qs.length < downloadSize + 1

theorem output_contained_iff :
    Contained r T g L bitbltbuf trxpos trxreg ↔ PictureFits r ∧ RectangleFits bitbltbuf trxreg := by
  rw [← downloaded_iff T g L bitbltbuf trxpos trxreg]
  constructor
  · intro h
    refine ⟨?_, h.download⟩
    exact (rendered_iff r T (fun _ => 0#8) ⟨fun _ => 0, fun _ => 0, []⟩ rfl).mp (h.render _ _ rfl)
  · rintro ⟨hpicture, hdownload⟩
    exact ⟨fun m b hb => (rendered_iff r T m b hb).mpr hpicture, hdownload⟩

/-- If the formats are known, the size of the picture decides. -/
theorem pictureFits_of_known (h1 : knownFormat r.DISPFB1 = true) (h2 : knownFormat r.DISPFB2 = true) :
    PictureFits r ↔ ∀ f, frame r = some f → f.width * rows r f.height ≤ targetSize := by
  refine forall₂_congr fun f _ => or_iff_left ?_
  rintro ⟨q, -, hq, -⟩
  simp [refused, h1, h2] at hq

/-- One circuit of 4096 by 2048 pixels is larger than the buffer. -/
theorem not_contained : ¬∀ (r : GSRegisters) (T : PageTables) (g : GS) (L : GS → GS)
    (bitbltbuf trxpos trxreg : DoubleWord), Contained r T g L bitbltbuf trxpos trxreg := by
  intro h
  let r : GSRegisters :=
    { zeroed with
      PMODE := writePMODE 1
      SMODE2 := writeSMODE2 0
      DISPLAY1 := writeDISPLAY 0x7FFFFF00000000
      DISPFB1 := writeDISPFB 0 zeroed.DISPFB1 }
  let T : PageTables := ⟨⟨fun _ _ _ => 0, fun _ _ _ => 0, fun _ _ _ => 0, fun _ _ _ => 0, fun _ _ _ => 0,
    fun _ _ _ => 0⟩, fun _ _ _ => 0, fun _ _ _ => 0⟩
  let g : GS := ⟨⟨0, 0, 0, 0, 0, 0⟩, ⟨0, 0, 0, 0, 0, 0, 0, 0, 0⟩, ⟨0, 0⟩, 3, 0, 0, 0, fun _ => 0, []⟩
  have hpicture : PictureFits r := (rendered_iff r T (fun _ => 0#8) ⟨fun _ => 0, fun _ => 0, []⟩ rfl).mp
    ((h r T g id 0 0 0).render _ _ rfl)
  have hsize := (pictureFits_of_known r rfl rfl).mp hpicture ⟨4096, 2048, 1, 0, 1, 0⟩ (by decide)
  revert hsize
  decide

end DobieStation.Gs.CRT
