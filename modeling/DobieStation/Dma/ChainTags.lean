import DobieStation.Dma.Handlers
import DobieStation.Dma.TagWalk
import Mathlib.Tactic.IntervalCases

/-! # The registers of a source chain

The registers of a channel are a position in the walk (`position`), as long as the channel is in a
source chain (`Chain`). Counting a quadword off moves the position by one quadword
(`position_advance`), and loading a tag moves it as the walk follows the tag
(`position_loadTag`). -/

namespace DobieStation.Dma.ChainTags

open DobieStation.Dma.Model DobieStation.Dma.Handlers
open DobieStation.Dma.TagWalk hiding tagId tagAddress

/-! ### Fields -/

theorem extractLsb'_congr {a b : BitVec 32} {k w : ℕ}
    (h : ∀ i < w, a.getLsbD (k + i) = b.getLsbD (k + i)) :
    a.extractLsb' k w = b.extractLsb' k w := by
  ext i hi
  simpa using h i hi

theorem tagControl_low (control lo : BitVec 32) {i : ℕ} (hi : i < 16) :
    (tagControl control lo).getLsbD i = control.getLsbD i := by
  have hmask : ∀ i < 16, (0xFFFF#32).getLsbD i = true ∧ (0xFFFF0000#32).getLsbD i = false := by
    decide
  obtain ⟨h, h'⟩ := hmask i hi
  unfold tagControl
  rw [BitVec.getLsbD_or, BitVec.getLsbD_and, BitVec.getLsbD_and, h, h']
  simp

theorem setAsp_low (control : BitVec 32) {n i : ℕ} (hn : n < 4) (hi : i < 4 ∨ 6 ≤ i)
    (hi' : i < 16) : (setAsp control n).getLsbD i = control.getLsbD i := by
  have hmask : ∀ n < 4, ∀ i < 16, i < 4 ∨ 6 ≤ i →
      (~~~0x30#32).getLsbD i = true ∧ (BitVec.ofNat 32 n <<< 4).getLsbD i = false := by
    decide
  obtain ⟨h, h'⟩ := hmask n hn i hi' hi
  unfold setAsp
  rw [BitVec.getLsbD_or, BitVec.getLsbD_and, h, h']
  simp

theorem asp_setAsp (control : BitVec 32) {n : ℕ} (hn : n < 4) : asp (setAsp control n) = n := by
  have hmask : ∀ n < 4, ∀ i < 2, (~~~0x30#32).getLsbD (4 + i) = false ∧
      (BitVec.ofNat 32 n <<< 4).getLsbD (4 + i) = (BitVec.ofNat 2 n).getLsbD i := by
    decide
  have hfield : (setAsp control n).extractLsb' 4 2 = BitVec.ofNat 2 n := by
    ext i hi
    obtain ⟨h, h'⟩ := hmask n hn i hi
    rw [BitVec.getElem_extractLsb', ← BitVec.getLsbD_eq_getElem, ← h']
    unfold setAsp
    rw [BitVec.getLsbD_or, BitVec.getLsbD_and, h, Bool.and_false, Bool.false_or]
  unfold asp
  rw [hfield, BitVec.toNat_ofNat]
  omega

theorem past_toNat (a b : BitVec 32) : past a b.toNat = a + (b <<< 4) := by
  unfold past
  congr 1
  apply BitVec.eq_of_toNat_eq
  simp [Nat.shiftLeft_eq]

theorem toNat_tagQwc (tag : Quad) :
    (tag.extractLsb' 0 32 &&& 0xFFFF#32).toNat = tagQwc tag := by
  have := Nat.and_two_pow_sub_one_eq_mod (tag.toNat % 2 ^ 32) 16
  unfold tagQwc
  simp only [BitVec.toNat_and, BitVec.extractLsb'_toNat, Nat.shiftRight_zero, BitVec.toNat_ofNat]
  rw [show 65535 % 2 ^ 32 = 2 ^ 16 - 1 from rfl, this]
  omega

theorem toNat_tagId (tag : Quad) :
    (((tag.extractLsb' 0 32).extractLsb' 28 3).setWidth 8).toNat = TagWalk.tagId tag := by
  have h : (tag.extractLsb' 0 32).extractLsb' 28 3 = tag.extractLsb' 28 3 := by
    ext i hi
    simp
  have hlt := (tag.extractLsb' 28 3).isLt
  unfold TagWalk.tagId
  rw [h, BitVec.toNat_setWidth, Nat.mod_eq_of_lt (by omega)]

theorem getLsbD_tagIrq (tag : Quad) : (tag.extractLsb' 0 32).getLsbD 31 = tagIrq tag := by
  simp [tagIrq]

/-! ### Chain and position -/

/-- The channel is in a source chain from memory: mode 1, with an address stack of two, and with
these bits of its control register. -/
structure Chain (c : Channel) (tte tie : Bool) (ch : DMAChannel) : Prop where
  mode : mode ch = 1
  asp : asp ch.control ≤ 2
  tte : ch.control.getLsbD 6 = tte
  tie : ch.control.getLsbD 7 = tie
  dir : c = .VIF1 → ch.control.getLsbD 0 = true

/-- The address of the next tag; in the data of a `cnt` tag it follows the data. -/
def nextTag (ch : DMAChannel) : BitVec 32 :=
  if ch.tagId = 1 ∧ ch.quadwordCount ≠ 0 then past ch.address ch.quadwordCount.toNat
  else ch.tagAddress

/-- The position of the channel in the walk. -/
def position (ch : DMAChannel) : Position where
  madr := ch.address
  qwc := ch.quadwordCount.toNat
  tadr := nextTag ch
  stack := savedAddresses (asp ch.control) ch.tagSave0 ch.tagSave1
  ending := ch.tagEnd

/-- The bits of the control register that matter to a chain are the low ones, apart from bit 8. -/
theorem Chain.congr {c : Channel} {tte tie : Bool} {ch ch' : DMAChannel} (h : Chain c tte tie ch)
    (hlow : ∀ i < 8, i < 4 ∨ 6 ≤ i → ch'.control.getLsbD i = ch.control.getLsbD i)
    (hasp : Model.asp ch'.control ≤ 2) : Chain c tte tie ch' := by
  refine ⟨?_, hasp, ?_, ?_, fun hc => ?_⟩
  · rw [← h.mode]
    exact extractLsb'_congr fun i hi => hlow (2 + i) (by omega) (by omega)
  · rw [hlow 6 (by omega) (by omega), h.tte]
  · rw [hlow 7 (by omega) (by omega), h.tie]
  · rw [hlow 0 (by omega) (by omega), h.dir hc]

theorem toNat_sub_one {q : BitVec 32} {n : ℕ} (hn : q.toNat = n + 1) : (q - 1).toNat = n := by
  have h1 : (1 : BitVec 32).toNat = 1 := rfl
  rw [BitVec.toNat_sub_of_le (by rw [BitVec.le_def, h1, hn]; omega), hn, h1]
  omega

theorem nextTag_advance {c : Channel} {tte tie : Bool} {ch : DMAChannel} (h : Chain c tte tie ch)
    {n : ℕ} (hn : ch.quadwordCount.toNat = n + 1) :
    nextTag (advanceFields { ch with address := ch.address + 16 }) = nextTag ch := by
  have hq := toNat_sub_one hn
  have hne : ch.quadwordCount ≠ 0 := by
    intro h0
    rw [h0] at hn
    cases hn
  have hmode : Model.mode { ch with address := ch.address + 16 } = 1 := h.mode
  unfold nextTag advanceFields
  dsimp only
  rw [hmode, hq]
  by_cases hid : ch.tagId = 1
  · rw [if_pos (show ch.tagId = 1 ∧ ch.quadwordCount ≠ 0 from ⟨hid, hne⟩), hn, ← past_succ]
    split_ifs with h0 h1
    · rfl
    · obtain rfl : n = 0 := by
        rw [not_and_not_right] at h0
        rw [← hq, h0 hid]
        rfl
      rw [past_zero]
    · exact absurd ⟨rfl, hid⟩ h1
  · rw [if_neg fun hc => hid hc.1, if_neg fun hc => hid hc.2, if_neg fun hc => hid hc.1]

/-- The channel after a quadword has gone. -/
theorem position_advance {c : Channel} {tte tie : Bool} {ch : DMAChannel} (h : Chain c tte tie ch)
    {n : ℕ} (hn : ch.quadwordCount.toNat = n + 1) :
    position (advanceFields { ch with address := ch.address + 16 }) =
      { position ch with madr := ch.address + 16, qwc := n } := by
  have hq : (advanceFields { ch with address := ch.address + 16 }).quadwordCount.toNat = n :=
    toNat_sub_one hn
  unfold position
  rw [nextTag_advance h hn, hq]
  rfl

theorem chain_advance {c : Channel} {tte tie : Bool} {ch : DMAChannel} (h : Chain c tte tie ch) :
    Chain c tte tie (advanceFields { ch with address := ch.address + 16 }) :=
  h.congr (fun _ _ _ => rfl) h.asp

theorem asp_tagControl (control lo : BitVec 32) : asp (tagControl control lo) = asp control := by
  unfold asp
  rw [extractLsb'_congr fun i hi => tagControl_low control lo (by omega)]

/-- A tag keeps the channel in its chain, wherever it leaves the address stack pointer. -/
theorem Chain.tag {c : Channel} {tte tie : Bool} {ch ch' : DMAChannel} (h : Chain c tte tie ch)
    {lo : BitVec 32} (hc : ch'.control = tagControl ch.control lo ∨
      ∃ n < 3, ch'.control = setAsp (tagControl ch.control lo) n) : Chain c tte tie ch' := by
  obtain hc | ⟨n, hn, hc⟩ := hc
  · refine h.congr (fun i hi _ => ?_) ?_
    · rw [hc, tagControl_low _ _ (by omega)]
    · rw [hc, asp_tagControl]
      exact h.asp
  · refine h.congr (fun i hi hi' => ?_) ?_
    · rw [hc, setAsp_low _ (by omega) hi' (by omega), tagControl_low _ _ (by omega)]
    · rw [hc, asp_setAsp _ (by omega)]
      omega

theorem position_irq (ch : DMAChannel) (irq : Bool) :
    position (if irq then { ch with tagEnd := true } else ch) =
      { position ch with ending := ch.tagEnd || irq } := by
  cases irq with
  | false =>
    rw [Bool.or_false]
    rfl
  | true =>
    rw [Bool.or_true]
    rfl

theorem position_mk {ch : DMAChannel} {p : Position} {b : Bool} (hm : ch.address = p.madr)
    (hq : ch.quadwordCount.toNat = p.qwc) (ht : nextTag ch = p.tadr)
    (hs : savedAddresses (asp ch.control) ch.tagSave0 ch.tagSave1 = p.stack) (he : b = p.ending) :
    { position ch with ending := b } = p := by
  unfold position
  rw [hm, hq, ht, hs, he]

theorem nextTag_of_ne {ch : DMAChannel} (h : ch.tagId ≠ 1) : nextTag ch = ch.tagAddress :=
  if_neg fun hc => h hc.1

/-- The fields that a loaded tag has set before its id is looked at. -/
def tagged (ch : DMAChannel) (tag : Quad) : DMAChannel :=
  { ch with
    control := tagControl ch.control (tag.extractLsb' 0 32)
    isSpr := isScratchpad (TagWalk.tagAddress tag)
    tagId := ((tag.extractLsb' 0 32).extractLsb' 28 3).setWidth 8
    quadwordCount := tag.extractLsb' 0 32 &&& 0xFFFF#32
    canStallDrain := false }

/-- The position after the id of the tag has been followed. -/
theorem position_followTag {c : Channel} {tte tie : Bool} {ch ch' : DMAChannel} {tag : Quad}
    {p : Position} (h : Chain c tte tie ch) (hn : ch.quadwordCount = 0) (he : ch.tagEnd = false)
    (hf : (position ch).follow tie tag = some p)
    (hl : followTag (tagged ch tag) (TagWalk.tagAddress tag) = some ch') :
    { position ch' with ending := ch'.tagEnd || (tagIrq tag && tie) } = p ∧
      Chain c tte tie ch' := by
  have hid := toNat_tagId tag
  have hq := toNat_tagQwc tag
  have hasp := asp_tagControl ch.control (tag.extractLsb' 0 32)
  have htadr : (position ch).tadr = ch.tagAddress := if_neg fun hc => hc.2 hn
  have hlt : TagWalk.tagId tag < 8 := (tag.extractLsb' 28 3).isLt
  have hne {n : ℕ} (hn1 : n ≠ 1) (hidn : (((tag.extractLsb' 0 32).extractLsb' 28 3).setWidth 8
      : BitVec 8).toNat = n) :
      ((tag.extractLsb' 0 32).extractLsb' 28 3).setWidth 8 ≠ (1 : BitVec 8) :=
    fun hc => hn1 (by rw [← hidn, hc]; rfl)
  unfold followTag at hl
  unfold Position.follow at hf
  rw [htadr, past_one] at hf
  dsimp only [tagged] at hl hf
  rw [hid] at hl
  generalize TagWalk.tagId tag = id at hid hlt hl hf
  have hstack : savedAddresses (asp (tagControl ch.control (tag.extractLsb' 0 32))) ch.tagSave0
      ch.tagSave1 = (position ch).stack := by
    rw [hasp]
    rfl
  have hending : (ch.tagEnd || (tagIrq tag && tie)) = (tagIrq tag && tie) := by
    rw [he, Bool.false_or]
  have hnew {n : ℕ} (hn : n < 4) (a b : BitVec 32) : savedAddresses
      (asp (setAsp (tagControl ch.control (tag.extractLsb' 0 32)) n)) a b =
        savedAddresses n a b := by
    rw [asp_setAsp _ hn]
  have h3 : asp ch.control < 3 := Nat.lt_succ_of_le h.asp
  have hst : (position ch).stack = savedAddresses (asp ch.control) ch.tagSave0 ch.tagSave1 := rfl
  interval_cases id
  case «0» =>
    obtain rfl := Option.some.inj hl
    obtain rfl := Option.some.inj hf
    exact ⟨position_mk rfl hq (nextTag_of_ne (hne (by omega) hid)) hstack rfl, h.tag (.inl rfl)⟩
  case «1» =>
    obtain rfl := Option.some.inj hl
    obtain rfl := Option.some.inj hf
    refine ⟨position_mk rfl hq ?_ hstack hending, h.tag (.inl rfl)⟩
    have hone : ((tag.extractLsb' 0 32).extractLsb' 28 3).setWidth 8 = (1 : BitVec 8) :=
      BitVec.eq_of_toNat_eq hid
    show nextTag _ = past (ch.tagAddress + 16) (tagQwc tag)
    unfold nextTag
    dsimp only
    rw [← hq]
    split_ifs with hc
    · rfl
    · rw [not_and_not_right] at hc
      rw [hc hone]
      exact (past_zero _).symm
  case «2» | «3» | «4» =>
    obtain rfl := Option.some.inj hl
    obtain rfl := Option.some.inj hf
    exact ⟨position_mk rfl hq (nextTag_of_ne (hne (by omega) hid)) hstack hending,
      h.tag (.inl rfl)⟩
  case «5» =>
    have hsaved (a : BitVec 32) : a + ((tag.extractLsb' 0 32 &&& 0xFFFF#32) <<< 4) =
        past a (tagQwc tag) := by
      rw [← hq, past_toNat]
    have ht := hne (by omega) hid
    rw [hst] at hf
    rw [hasp] at hl
    generalize asp ch.control = n at hl hf h3
    interval_cases n
    · obtain rfl := Option.some.inj hl
      obtain rfl := Option.some.inj hf
      refine ⟨position_mk rfl hq (nextTag_of_ne ht) ?_ hending, h.tag (.inr ⟨1, by omega, rfl⟩)⟩
      refine (hnew (by omega) _ _).trans ?_
      rw [hsaved]
      rfl
    · obtain rfl := Option.some.inj hl
      obtain rfl := Option.some.inj hf
      refine ⟨position_mk rfl hq (nextTag_of_ne ht) ?_ hending, h.tag (.inr ⟨2, by omega, rfl⟩)⟩
      refine (hnew (by omega) _ _).trans ?_
      rw [hsaved]
      rfl
    · cases hl
  case «6» =>
    have ht := hne (by omega) hid
    rw [hst] at hf
    rw [hasp] at hl
    generalize asp ch.control = n at hl hf h3
    interval_cases n
    · obtain rfl := Option.some.inj hl
      obtain rfl := Option.some.inj hf
      exact ⟨position_mk rfl hq (nextTag_of_ne ht) (hnew (by omega) _ _) rfl,
        h.tag (.inr ⟨0, by omega, rfl⟩)⟩
    · obtain rfl := Option.some.inj hl
      obtain rfl := Option.some.inj hf
      exact ⟨position_mk rfl hq (nextTag_of_ne ht) (hnew (by omega) _ _) hending,
        h.tag (.inr ⟨0, by omega, rfl⟩)⟩
    · obtain rfl := Option.some.inj hl
      obtain rfl := Option.some.inj hf
      exact ⟨position_mk rfl hq (nextTag_of_ne ht) (hnew (by omega) _ _) hending,
        h.tag (.inr ⟨1, by omega, rfl⟩)⟩
  case «7» =>
    obtain rfl := Option.some.inj hl
    obtain rfl := Option.some.inj hf
    exact ⟨position_mk rfl hq (nextTag_of_ne (hne (by omega) hid)) hstack rfl, h.tag (.inl rfl)⟩

/-- The channel after a tag has been loaded. -/
theorem position_loadTag {c : Channel} {tte tie : Bool} {ch ch' : DMAChannel} {tag : Quad}
    {p : Position} (h : Chain c tte tie ch) (hn : ch.quadwordCount = 0) (he : ch.tagEnd = false)
    (hf : (position ch).follow tie tag = some p)
    (hl : loadTag ch (tag.extractLsb' 0 32) (tag.extractLsb' 32 32) = some ch') :
    position ch' = p ∧ Chain c tte tie ch' := by
  obtain ⟨ch2, h2, rfl⟩ := Option.map_eq_some_iff.mp hl
  obtain ⟨hp, hc⟩ := position_followTag h hn he hf h2
  rw [getLsbD_tagIrq, h.tie, position_irq]
  refine ⟨hp, ?_⟩
  split_ifs
  · exact hc.congr (fun _ _ _ => rfl) hc.asp
  · exact hc

end DobieStation.Dma.ChainTags
