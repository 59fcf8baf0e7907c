import DobieStation.Gif.Feed

/-! # GIFtags and the quadwords that follow them

A GIFtag says how many quadwords of data come after it, whatever they hold: `frame` reads a stream of
quadwords that way. The tag of a path counts its loops and registers down (`Follows`), which comes to the
same. -/

namespace DobieStation.Gif.Packets

open DobieStation.Dma.Model (Quad)
open DobieStation.Gif.Model

/-! ### The stream of a path -/

def lower (q : Quad) : BitVec 64 := q.extractLsb' 0 64

def upper (q : Quad) : BitVec 64 := q.extractLsb' 64 64

def NLOOP (tag : Quad) : ℕ := ((lower tag).extractLsb' 0 15).toNat

def EOP (tag : Quad) : Bool := (lower tag).getLsbD 15

def FLG (tag : Quad) : BitVec 2 := (lower tag).extractLsb' 58 2

def NREG (tag : Quad) : ℕ :=
  if (lower tag).extractLsb' 60 4 = 0 then 16 else ((lower tag).extractLsb' 60 4).toNat

/-- The register descriptor with the number `i`. -/
def descriptor (tag : Quad) (i : ℕ) : BitVec 4 := (upper tag).extractLsb' (4 * i) 4

/-- The registers that the data is for. -/
def items (tag : Quad) : ℕ := NLOOP tag * NREG tag

/-- The quadwords of data. -/
def quads (tag : Quad) : ℕ :=
  match FLG tag with
  | 0 => items tag
  | 1 => (items tag + 1) / 2
  | _ => NLOOP tag

/-- The last tag, and how many quadwords of its data have been read. -/
structure Frame where
  tag : Quad
  read : ℕ
  deriving DecidableEq

/-- The next quadword is a tag if the data of the last one is complete. -/
def Frame.next (f : Frame) (q : Quad) : Frame :=
  if f.read < quads f.tag then { f with read := f.read + 1 } else ⟨q, 0⟩

/-- Nothing is awaited before the first tag. -/
def frame (qs : List Quad) : Frame := qs.foldl Frame.next ⟨0, 0⟩

/-- The packet ends with the quadword that has been read. -/
def Frame.ends (f : Frame) : Prop := f.read = quads f.tag ∧ EOP f.tag = true

/-- A register's worth of data: for an item of REGLIST a doubleword. -/
structure Item where
  descriptor : BitVec 4
  data : Quad
  deriving DecidableEq

def Frame.item (f : Frame) (i : ℕ) (data : Quad) : Item := ⟨descriptor f.tag (i % NREG f.tag), data⟩

/-- What the next quadword of data holds. The upper half of the last one may be left over. -/
def Frame.items (f : Frame) (q : Quad) : List Item :=
  match FLG f.tag with
  | 0 => [f.item f.read q]
  | 1 =>
    f.item (2 * f.read) ((lower q).setWidth 128) ::
      if 2 * f.read + 1 < Packets.items f.tag then [f.item (2 * f.read + 1) ((upper q).setWidth 128)] else []
  | _ => []

/-! ### The tag of a path -/

/-- What of the tag does not change. -/
structure Reads (tag : Quad) (t : GIFtag) : Prop where
  endOfPacket : t.endOfPacket = EOP tag
  format : t.format = (FLG tag).setWidth 8
  regCount : t.regCount.toNat = NREG tag
  regs : t.regs = upper tag

/-- The counts after `i` registers. -/
structure Counts (tag : Quad) (i : ℕ) (t : GIFtag) : Prop where
  dataLeft : t.dataLeft.toNat = NLOOP tag - i / NREG tag
  regsLeft : t.regsLeft.toNat = NREG tag - i % NREG tag

/-- The counts after `k` quadwords of data. -/
def CountsQuads (tag : Quad) (k : ℕ) (t : GIFtag) : Prop :=
  match FLG tag with
  | 0 => Counts tag k t
  | 1 => Counts tag (2 * k) t
  | _ => t.dataLeft.toNat = NLOOP tag - k

/-- The tag of a path is that of its stream. -/
structure Follows (f : Frame) (t : GIFtag) : Prop where
  le : f.read ≤ quads f.tag
  left : t.dataLeft = 0 ↔ f.read = quads f.tag
  reads : f.read < quads f.tag → Reads f.tag t
  counts : f.read < quads f.tag → CountsQuads f.tag f.read t

variable {tag : Quad} {t : GIFtag} {i : ℕ}

theorem NREG_pos : 0 < NREG tag := by
  unfold NREG
  split
  case isTrue => decide
  case isFalse h => exact Nat.pos_of_ne_zero fun h0 => h (BitVec.eq_of_toNat_eq h0)

theorem NREG_le : NREG tag ≤ 16 := by
  unfold NREG
  split
  case isTrue => exact Nat.le_refl 16
  case isFalse => exact Nat.le_of_lt ((lower tag).extractLsb' 60 4).isLt

theorem NLOOP_lt : NLOOP tag < 2 ^ 15 := ((lower tag).extractLsb' 0 15).isLt

theorem quads_eq_zero : quads tag = 0 ↔ NLOOP tag = 0 := by
  have hNREG : 0 < NREG tag := NREG_pos
  have hitems : items tag = 0 ↔ NLOOP tag = 0 := by
    rw [items, Nat.mul_eq_zero]
    omega
  unfold quads
  split <;> omega

/-! ### Registers -/

theorem succ_div_mod {i N : ℕ} (hN : 0 < N) :
    (i % N + 1 = N → (i + 1) / N = i / N + 1 ∧ (i + 1) % N = 0) ∧
    (i % N + 1 < N → (i + 1) / N = i / N ∧ (i + 1) % N = i % N + 1) := by
  have hi : i = N * (i / N) + i % N := (Nat.div_add_mod i N).symm
  constructor
  · intro h
    have hsucc : i + 1 = N * (i / N + 1) := by
      rw [Nat.mul_succ]
      omega
    rw [hsucc, Nat.mul_div_cancel_left _ hN, Nat.mul_mod_right]
    exact ⟨rfl, rfl⟩
  · intro h
    have hsucc : i + 1 = N * (i / N) + (i % N + 1) := by omega
    constructor
    · conv_lhs => rw [hsucc]
      rw [Nat.mul_add_div hN, Nat.div_eq_of_lt h, Nat.add_zero]
    · conv_lhs => rw [hsucc]
      rw [Nat.mul_add_mod, Nat.mod_eq_of_lt h]

theorem toNat_sub_one {w : ℕ} {x : BitVec w} (h : 0 < x.toNat) : (x - 1).toNat = x.toNat - 1 := by
  have hlt : x.toNat < 2 ^ w := x.isLt
  have hw : 1 < 2 ^ w := by omega
  have hone : (1 : BitVec w).toNat = 1 := Nat.mod_eq_of_lt hw
  rw [BitVec.toNat_sub, hone, show 2 ^ w - 1 + x.toNat = x.toNat - 1 + 2 ^ w by omega, Nat.add_mod_right,
    Nat.mod_eq_of_lt (by omega)]

theorem reads_countReg (h : Reads tag t) : Reads tag (countReg t) := by
  unfold countReg
  split <;> exact ⟨h.endOfPacket, h.format, h.regCount, h.regs⟩

/-- One more register. -/
theorem counts_countReg (hcount : t.regCount.toNat = NREG tag) (h : Counts tag i t) (hi : i < items tag) :
    Counts tag (i + 1) (countReg t) := by
  have hN : 0 < NREG tag := NREG_pos
  have hmod : i % NREG tag < NREG tag := Nat.mod_lt i hN
  have hdiv : i / NREG tag < NLOOP tag := Nat.div_lt_of_lt_mul (by rw [Nat.mul_comm]; exact hi)
  have hregs : (t.regsLeft - 1).toNat = NREG tag - i % NREG tag - 1 := by
    rw [toNat_sub_one (by have := h.regsLeft; omega), h.regsLeft]
  have hdata : (t.dataLeft - 1).toNat = NLOOP tag - i / NREG tag - 1 := by
    rw [toNat_sub_one (by have := h.dataLeft; omega), h.dataLeft]
  obtain ⟨hlast, hnext⟩ := succ_div_mod (i := i) hN
  unfold countReg
  by_cases hzero : t.regsLeft - 1 = 0
  · rw [if_pos hzero]
    rw [hzero] at hregs
    obtain ⟨hd, hm⟩ := hlast (by have : (0 : BitVec 8).toNat = 0 := rfl; omega)
    exact ⟨by rw [hd]; show (t.dataLeft - 1).toNat = _; omega,
      by rw [hm]; show t.regCount.toNat = _; omega⟩
  · rw [if_neg hzero]
    have hpos : (t.regsLeft - 1).toNat ≠ 0 := fun h0 => hzero (BitVec.eq_of_toNat_eq h0)
    obtain ⟨hd, hm⟩ := hnext (by omega)
    exact ⟨by rw [hd]; exact h.dataLeft, by rw [hm]; show (t.regsLeft - 1).toNat = _; omega⟩

/-- Registers are left as long as there are loops. -/
theorem dataLeft_eq_zero (h : Counts tag i t) (hi : i ≤ items tag) : t.dataLeft = 0 ↔ i = items tag := by
  have hN : 0 < NREG tag := NREG_pos
  have hzero : t.dataLeft = 0 ↔ NLOOP tag ≤ i / NREG tag := by
    rw [← BitVec.toNat_inj, h.dataLeft]
    show NLOOP tag - i / NREG tag = 0 ↔ _
    omega
  rw [hzero, Nat.le_div_iff_mul_le hN]
  exact ⟨fun h => Nat.le_antisymm hi h, fun h => Nat.le_of_eq h.symm⟩

/-- The descriptor of the next register. -/
theorem nextReg_eq (hr : Reads tag t) (h : Counts tag i t) :
    nextReg t = (descriptor tag (i % NREG tag)).setWidth 8 := by
  have hmod : i % NREG tag < NREG tag := Nat.mod_lt i NREG_pos
  have hN : NREG tag ≤ 16 := NREG_le
  have hcount : t.regCount.toNat = NREG tag := hr.regCount
  have hleft : t.regsLeft.toNat = NREG tag - i % NREG tag := h.regsLeft
  have hsub : t.regCount.setWidth 64 - t.regsLeft.setWidth 64 = BitVec.ofNat 64 (i % NREG tag) := by
    apply BitVec.eq_of_toNat_eq
    simp only [BitVec.toNat_sub, BitVec.toNat_setWidth, BitVec.toNat_ofNat]
    omega
  have hshift : ((t.regCount.setWidth 64 - t.regsLeft.setWidth 64) <<< 2).toNat = 4 * (i % NREG tag) := by
    rw [hsub, BitVec.toNat_shiftLeft, BitVec.toNat_ofNat, Nat.shiftLeft_eq]
    omega
  unfold nextReg descriptor
  dsimp only
  rw [hshift, hr.regs]
  apply BitVec.eq_of_toNat_eq
  simp only [BitVec.toNat_and, BitVec.toNat_setWidth, BitVec.extractLsb'_toNat, BitVec.toNat_ushiftRight]
  rw [show (0xF#8).toNat = 2 ^ 4 - 1 from rfl, Nat.and_two_pow_sub_one_eq_mod _ 4]
  omega

/-! ### Quadwords -/

/-- What becomes of the tag by a quadword of data. -/
def readData (t : GIFtag) : GIFtag :=
  match t.format.toNat with
  | 0 => countReg t
  | 1 => if (countReg t).dataLeft = 0 then countReg t else countReg (countReg t)
  | 2 | 3 => { t with dataLeft := t.dataLeft - 1 }
  | _ => t

variable {f : Frame} {q : Quad}

theorem readTag_reads (t : GIFtag) : Reads q (readTag t (lower q) (upper q)) := by
  refine ⟨rfl, rfl, ?_, rfl⟩
  have hcount : ((lower q).extractLsb' 60 4).toNat < 16 := ((lower q).extractLsb' 60 4).isLt
  unfold readTag NREG
  dsimp only
  split_ifs
  case pos => rfl
  case neg =>
    rw [BitVec.toNat_setWidth]
    omega

theorem readTag_dataLeft (t : GIFtag) : (readTag t (lower q) (upper q)).dataLeft.toNat = NLOOP q := by
  have hlt : NLOOP q < 2 ^ 15 := NLOOP_lt
  show (((lower q).extractLsb' 0 15).setWidth 32).toNat = NLOOP q
  rw [BitVec.toNat_setWidth]
  exact Nat.mod_eq_of_lt (by unfold NLOOP at hlt; omega)

theorem readTag_counts (t : GIFtag) : Counts q 0 (readTag t (lower q) (upper q)) := by
  constructor
  · rw [readTag_dataLeft, Nat.zero_div, Nat.sub_zero]
  · rw [Nat.zero_mod, Nat.sub_zero]
    exact (readTag_reads t).regCount

theorem next_of_complete (h : f.read = quads f.tag) : f.next q = ⟨q, 0⟩ :=
  if_neg (by rw [h]; exact Nat.lt_irrefl _)

theorem next_of_lt (h : f.read < quads f.tag) : f.next q = { f with read := f.read + 1 } := if_pos h

/-- A tag is read. -/
theorem follows_tag (h : f.read = quads f.tag) : Follows (f.next q) (readTag t (lower q) (upper q)) := by
  rw [next_of_complete h]
  constructor
  case le => exact Nat.zero_le _
  case left =>
    have hzero : (readTag t (lower q) (upper q)).dataLeft = 0 ↔ NLOOP q = 0 := by
      rw [← BitVec.toNat_inj, readTag_dataLeft]
      rfl
    rw [hzero, ← quads_eq_zero]
    exact eq_comm
  case reads => exact fun _ => readTag_reads t
  case counts =>
    intro _
    unfold CountsQuads
    split
    · exact readTag_counts t
    · exact readTag_counts t
    · exact readTag_dataLeft t

theorem format_toNat (h : Reads tag t) : t.format.toNat = (FLG tag).toNat := by
  have hlt : (FLG tag).toNat < 4 := (FLG tag).isLt
  rw [h.format, BitVec.toNat_setWidth]
  omega

theorem readData_reads (h : Reads tag t) : Reads tag (readData t) := by
  unfold readData
  split
  · exact reads_countReg h
  · split_ifs
    · exact reads_countReg h
    · exact reads_countReg (reads_countReg h)
  · exact ⟨h.endOfPacket, h.format, h.regCount, h.regs⟩
  · exact ⟨h.endOfPacket, h.format, h.regCount, h.regs⟩
  · exact h

theorem FLG_cases (tag : Quad) : FLG tag = 0 ∨ FLG tag = 1 ∨ (FLG tag = 2 ∨ FLG tag = 3) := by
  generalize FLG tag = flg
  revert flg
  decide

theorem quads_PACKED (h : FLG tag = 0) : quads tag = items tag := by
  unfold quads
  rw [h]
  rfl

theorem quads_REGLIST (h : FLG tag = 1) : quads tag = (items tag + 1) / 2 := by
  unfold quads
  rw [h]
  rfl

theorem quads_IMAGE (h : FLG tag = 2 ∨ FLG tag = 3) : quads tag = NLOOP tag := by
  unfold quads
  rcases h with h | h <;> (rw [h]; rfl)

theorem countsQuads_PACKED (h : FLG tag = 0) {k : ℕ} : CountsQuads tag k t ↔ Counts tag k t := by
  unfold CountsQuads
  rw [h]
  rfl

theorem countsQuads_REGLIST (h : FLG tag = 1) {k : ℕ} : CountsQuads tag k t ↔ Counts tag (2 * k) t := by
  unfold CountsQuads
  rw [h]
  rfl

theorem countsQuads_IMAGE (h : FLG tag = 2 ∨ FLG tag = 3) {k : ℕ} :
    CountsQuads tag k t ↔ t.dataLeft.toNat = NLOOP tag - k := by
  unfold CountsQuads
  rcases h with h | h <;> (rw [h]; rfl)

theorem readData_PACKED (hr : Reads tag t) (h : FLG tag = 0) : readData t = countReg t := by
  unfold readData
  rw [format_toNat hr, h]
  rfl

theorem readData_REGLIST (hr : Reads tag t) (h : FLG tag = 1) :
    readData t = if (countReg t).dataLeft = 0 then countReg t else countReg (countReg t) := by
  unfold readData
  rw [format_toNat hr, h]
  rfl

theorem readData_IMAGE (hr : Reads tag t) (h : FLG tag = 2 ∨ FLG tag = 3) :
    readData t = { t with dataLeft := t.dataLeft - 1 } := by
  unfold readData
  rw [format_toNat hr]
  rcases h with h | h <;> (rw [h]; rfl)

/-- The first doubleword of a quadword is the last item, or there is a second one. -/
theorem reglist_left (hr : Reads tag t) {k : ℕ} (hc : Counts tag (2 * k) t) (hk : 2 * k < items tag) :
    (countReg t).dataLeft = 0 ↔ 2 * k + 1 = items tag :=
  dataLeft_eq_zero (counts_countReg hr.regCount hc hk) hk

/-- A quadword of data is read. -/
theorem follows_data (h : Follows f t) (hread : f.read < quads f.tag) : Follows (f.next q) (readData t) := by
  have hr : Reads f.tag t := h.reads hread
  have hc : CountsQuads f.tag f.read t := h.counts hread
  rw [next_of_lt hread]
  suffices hcounts : ((readData t).dataLeft = 0 ↔ f.read + 1 = quads f.tag) ∧
      (f.read + 1 < quads f.tag → CountsQuads f.tag (f.read + 1) (readData t)) from
    ⟨hread, hcounts.1, fun _ => readData_reads hr, hcounts.2⟩
  rcases FLG_cases f.tag with hflg | hflg | hflg
  · rw [quads_PACKED hflg] at hread ⊢
    rw [countsQuads_PACKED hflg] at hc ⊢
    rw [readData_PACKED hr hflg]
    have hnext : Counts f.tag (f.read + 1) (countReg t) := counts_countReg hr.regCount hc hread
    exact ⟨dataLeft_eq_zero hnext hread, fun _ => hnext⟩
  · rw [quads_REGLIST hflg] at hread ⊢
    rw [countsQuads_REGLIST hflg] at hc ⊢
    rw [readData_REGLIST hr hflg]
    have hleft : (countReg t).dataLeft = 0 ↔ 2 * f.read + 1 = items f.tag :=
      reglist_left hr hc (by omega)
    by_cases hodd : 2 * f.read + 1 = items f.tag
    · rw [if_pos (hleft.mpr hodd), hleft]
      exact ⟨by omega, by omega⟩
    · rw [if_neg (fun h0 => hodd (hleft.mp h0))]
      have hfirst : Counts f.tag (2 * f.read + 1) (countReg t) :=
        counts_countReg hr.regCount hc (by omega)
      have hlast : 2 * f.read + 1 < items f.tag := by omega
      have hsecond : Counts f.tag (2 * (f.read + 1)) (countReg (countReg t)) :=
        counts_countReg (reads_countReg hr).regCount hfirst hlast
      refine ⟨?_, fun _ => hsecond⟩
      rw [dataLeft_eq_zero hsecond (by omega)]
      omega
  · rw [quads_IMAGE hflg] at hread ⊢
    rw [countsQuads_IMAGE hflg] at hc ⊢
    rw [readData_IMAGE hr hflg]
    have hnext : (t.dataLeft - 1).toNat = t.dataLeft.toNat - 1 := toNat_sub_one (by omega)
    dsimp only
    rw [← BitVec.toNat_inj, hnext]
    refine ⟨?_, fun _ => by omega⟩
    show t.dataLeft.toNat - 1 = 0 ↔ _
    omega

end DobieStation.Gif.Packets
