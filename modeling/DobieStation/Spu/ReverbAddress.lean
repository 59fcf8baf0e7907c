import DobieStation.Lib.AdjacentModuli
import DobieStation.Spu.Containment
import Mathlib.Data.Nat.ModEq

/-! # The addresses of the reverb

The position of the reverb goes round the `cells` of its area, but `translate_reverb_offset` takes addresses modulo
one less. So an address is that of the ring only in part of the cases (`translate_eq_iff`), and what was written is
found again only until the position wraps, or by chance (`readBack_iff`). -/

namespace DobieStation.Spu.ReverbAddress

open DobieStation.Lib.AdjacentModuli DobieStation.Lib.Fault DobieStation.Spu.Model

variable {U N : Type} {r : Reverb}

/-- The cells of the effect area, its end included. -/
def cells (r : Reverb) : ℕ := r.effectAreaEnd.toNat - r.effectAreaStart.toNat + 1

/-- An area on which the reverb runs: its size is positive, as an `int`. -/
def Area (r : Reverb) : Prop :=
  r.effectAreaStart.toNat < r.effectAreaEnd.toNat ∧ r.effectAreaEnd.toNat - r.effectAreaStart.toNat < 2 ^ 31

theorem size_toNat (h : Area r) : (r.effectAreaEnd - r.effectAreaStart).toNat = cells r - 1 := by
  have hend := r.effectAreaEnd.isLt
  have hstart := r.effectAreaStart.isLt
  obtain ⟨hlt, -⟩ := h
  rw [BitVec.toNat_sub]
  unfold cells
  omega

/-! ### Addresses -/

/-- The word that the sum of position and offset wraps by. -/
def wrap (x : ℤ) : ℤ := if x < 0 then 2 ^ 32 else 0

theorem sum_toNat (h : Area r) (hpos : r.effectPos.toNat < cells r) (offset : Word) :
    ((r.effectPos + offset).toNat : ℤ) =
      r.effectPos.toNat + offset.toInt + wrap (r.effectPos.toNat + offset.toInt) := by
  obtain ⟨-, hsize⟩ := h
  have hoffset := offset.isLt
  unfold cells at hpos
  unfold wrap
  rw [BitVec.toNat_add, BitVec.toInt_eq_toNat_cond]
  split_ifs <;> omega

theorem translate_toNat (h : Area r) (offset : Word) :
    (r.translate offset).toNat = r.effectAreaStart.toNat + (r.effectPos + offset).toNat % (cells r - 1) := by
  have hend := r.effectAreaEnd.isLt
  have hmod : (r.effectPos + offset).toNat % (cells r - 1) < cells r - 1 :=
    Nat.mod_lt _ (by unfold cells; have := h.1; omega)
  have hlt := h.1
  rw [Reverb.translate, BitVec.toNat_add, BitVec.toNat_umod, size_toNat h]
  unfold cells at hmod ⊢
  omega

/-- The addresses are within the area, but never its end. -/
theorem translate_within (h : Area r) (offset : Word) :
    r.effectAreaStart.toNat ≤ (r.translate offset).toNat ∧ (r.translate offset).toNat < r.effectAreaEnd.toNat := by
  have hlt := h.1
  have hmod : (r.effectPos + offset).toNat % (cells r - 1) < cells r - 1 :=
    Nat.mod_lt _ (by unfold cells; omega)
  rw [translate_toNat h]
  unfold cells at hmod ⊢
  omega

/-- Where the two remainders are the same. -/
def Exact (r : Reverb) (offset : Word) : Prop :=
  let x : ℤ := r.effectPos.toNat + offset.toInt
  let n : ℤ := cells r
  (x + wrap x * n) % ((n - 1) * n) < n - 1

instance (r : Reverb) (offset : Word) : Decidable (Exact r offset) := by unfold Exact; infer_instance

theorem translate_eq_iff (h : Area r) (hpos : r.effectPos.toNat < cells r) (offset : Word) :
    ((r.translate offset).toNat : ℤ) =
      r.effectAreaStart.toNat + (r.effectPos.toNat + offset.toInt) % cells r ↔ Exact r offset := by
  have hlt := h.1
  have hM : (0 : ℤ) < cells r - 1 := by unfold cells; omega
  have hcast : ((cells r - 1 : ℕ) : ℤ) = cells r - 1 := by omega
  have hiff := wrapped_emod_iff hM (z := r.effectPos.toNat + offset.toInt)
    (W := wrap (r.effectPos.toNat + offset.toInt))
  rw [sub_add_cancel] at hiff
  rw [translate_toNat h, Nat.cast_add, Int.natCast_emod, hcast, sum_toNat h hpos, add_right_inj]
  exact hiff

/-! ### The position -/

/-- What a call of `run_reverb` makes of the position and the area. -/
def turn (r : Reverb) : Reverb :=
  if r.running then r.advance else if r.cycle = 0 then r else { r with cycle := r.cycle - 1 }

/-- The position `k` turns later. -/
def moved (r : Reverb) (k : ℕ) : Reverb := { r with effectPos := BitVec.ofNat 32 ((r.effectPos.toNat + k) % cells r) }

theorem running_iff (h : Area r) : r.running ↔ r.cycle = 0 := by
  have hsize := size_toNat h
  have hlt := h.1
  have hbound := h.2
  refine ⟨fun hr => hr.1, fun hc => ⟨hc, ?_⟩⟩
  rw [BitVec.toInt_eq_toNat_cond, hsize]
  unfold cells
  split <;> omega

theorem advance_effectPos (h : Area r) (hpos : r.effectPos.toNat < cells r) :
    r.advance.effectPos.toNat = (r.effectPos.toNat + 1) % cells r := by
  have hsize := size_toNat h
  have hbound := h.2
  have hlt := h.1
  have hcells : (r.effectAreaEnd - r.effectAreaStart + 1).toNat = cells r := by
    rw [BitVec.toNat_add, hsize]
    unfold cells
    change (_ + 1) % _ = _
    omega
  have hnext : (r.effectPos + 1).toNat = r.effectPos.toNat + 1 := by
    rw [BitVec.toNat_add]
    unfold cells at hpos
    change (_ + 1) % _ = _
    omega
  unfold Reverb.advance
  dsimp only
  rw [hcells, hnext]
  split
  · have heq : r.effectPos.toNat + 1 = cells r := by omega
    rw [heq, Nat.mod_self]
    rfl
  · rw [Nat.mod_eq_of_lt (by omega), hnext]

/-! ### Reading back -/

/-- A cell is found again `k` turns later. -/
def Found (r : Reverb) (offset : Word) (k : ℕ) : Prop :=
  r.effectPos.toNat + k < cells r ∨ cells r = 2 ∨
    (r.effectPos + offset).toNat < cells r ∧ cells r - 1 ∣ 2 ^ 32 - 1

theorem moved_area (h : Area r) (k : ℕ) : Area (moved r k) := h

theorem moved_sum (h : Area r) (hpos : r.effectPos.toNat < cells r) {k : ℕ} (hk : k < cells r) (offset : Word) :
    ((moved r k).effectPos + (offset - BitVec.ofNat 32 k)).toNat =
      if r.effectPos.toNat + k < cells r then (r.effectPos + offset).toNat
      else if cells r ≤ (r.effectPos + offset).toNat then (r.effectPos + offset).toNat - cells r
      else (r.effectPos + offset).toNat + 2 ^ 32 - cells r := by
  have hbound := h.2
  have hlt := h.1
  have hcells : cells r ≤ 2 ^ 31 := by unfold cells; omega
  have hoffset := offset.isLt
  have hmoved : (moved r k).effectPos.toNat =
      if r.effectPos.toNat + k < cells r then r.effectPos.toNat + k else r.effectPos.toNat + k - cells r := by
    change (BitVec.ofNat 32 ((r.effectPos.toNat + k) % cells r)).toNat = _
    rw [BitVec.toNat_ofNat]
    split_ifs with hin
    · rw [Nat.mod_eq_of_lt hin]
      omega
    · have hwrap : (r.effectPos.toNat + k) % cells r = r.effectPos.toNat + k - cells r := by
        have hge : cells r ≤ r.effectPos.toNat + k := by omega
        rw [Nat.mod_eq_sub_mod hge, Nat.mod_eq_of_lt (by omega)]
      rw [hwrap]
      omega
  rw [BitVec.toNat_add, BitVec.toNat_sub, BitVec.toNat_ofNat, BitVec.toNat_add, hmoved]
  split_ifs <;> omega

theorem readBack_iff (h : Area r) (hpos : r.effectPos.toNat < cells r) {k : ℕ} (hk : k < cells r) (offset : Word) :
    (moved r k).translate (offset - BitVec.ofNat 32 k) = r.translate offset ↔ Found r offset k := by
  have hlt := h.1
  have hcells : 2 ≤ cells r := by unfold cells; omega
  have hbound : cells r ≤ 2 ^ 31 := by
    have := h.2
    unfold cells
    omega
  have hsame : cells (moved r k) = cells r := rfl
  have hsum : (r.effectPos + offset).toNat < 2 ^ 32 := (r.effectPos + offset).isLt
  rw [← BitVec.toNat_inj, translate_toNat (moved_area h k), translate_toNat h, moved_sum h hpos hk offset, hsame]
  change r.effectAreaStart.toNat + _ = _ ↔ _
  rw [Nat.add_left_cancel_iff]
  unfold Found
  generalize (r.effectPos + offset).toNat = b at hsum ⊢
  generalize r.effectPos.toNat + k = q
  obtain ⟨m, hm⟩ : ∃ m, cells r = m + 1 := ⟨cells r - 1, by omega⟩
  rw [hm] at hcells hbound ⊢
  rw [Nat.add_sub_cancel]
  by_cases hin : q < m + 1
  · simp [hin]
  · rw [if_neg hin]
    by_cases hge : m + 1 ≤ b
    · have hdvd : (b - (m + 1)) % m = b % m ↔ m ∣ b - (b - (m + 1)) := Nat.modEq_iff_dvd' (by omega)
      rw [if_pos hge, hdvd, show b - (b - (m + 1)) = m + 1 by omega, Nat.dvd_add_right (dvd_refl m), Nat.dvd_one]
      omega
    · have hdvd : b % m = (b + 2 ^ 32 - (m + 1)) % m ↔ m ∣ b + 2 ^ 32 - (m + 1) - b := Nat.modEq_iff_dvd' (by omega)
      have hrest : m ∣ 2 ^ 32 - (m + 1) ↔ m ∣ 2 ^ 32 - 1 := by
        rw [← Nat.dvd_add_left (dvd_refl m), show 2 ^ 32 - (m + 1) + m = 2 ^ 32 - 1 by omega]
      rw [if_neg hge, eq_comm, hdvd, show b + 2 ^ 32 - (m + 1) - b = 2 ^ 32 - (m + 1) by omega, hrest]
      constructor
      · exact fun hd => Or.inr (Or.inr ⟨by omega, hd⟩)
      · rintro (hlow | htwo | ⟨-, hd⟩)
        · exact absurd hlow hin
        · rw [show m = 1 by omega]
          exact one_dvd _
        · exact hd

/-! ### Calls -/

/-- The program does not change the cores. -/
abbrev Still (c : Id → Core U N) {α : Type} (m : M U N α) : Prop :=
  Keeps (fun s => s.core = c) (fun _ => True) m

variable {c : Id → Core U N} {id : Id}

theorem still_core (k : Id) : Still c (core k) := keeps_bind keeps_get fun _ => keeps_pure _

theorem still_checkIrqOf (k : Id) (address : Word) : Still c (checkIrqOf k address) := by
  refine keeps_bind keeps_get fun s => keeps_ite (fun _ => ?_) fun _ => keeps_pure _
  refine keeps_bind keeps_get fun s' => keeps_ite (fun _ => keeps_pure _) fun _ => ?_
  exact keeps_bind (keeps_modify fun _ hs => hs) fun _ => keeps_modify fun _ hs => hs

theorem still_spuCheckIrq (address : Word) : Still c (spuCheckIrq address) :=
  keeps_bind (still_checkIrqOf _ _) fun _ => still_checkIrqOf _ _

theorem still_read (addr : Word) : Still c (read addr) :=
  keeps_bind (still_spuCheckIrq addr) fun _ => keeps_bind keeps_get fun _ =>
    keeps_ite (fun _ => keeps_pure _) fun _ => keeps_throw trivial

theorem still_write (addr : Word) (data : HalfWord) : Still c (write addr data) :=
  keeps_bind (still_spuCheckIrq addr) fun _ =>
    keeps_ite (fun _ => keeps_modify fun _ hs => hs) fun _ => keeps_throw trivial

theorem still_translate (k : Id) (offset : Word) : Still c (translateReverbOffset k offset) :=
  keeps_bind (still_core k) fun _ => keeps_ite (fun _ => keeps_throw trivial) fun _ => keeps_pure _

theorem still_readTap (k : Id) (offset : Word) : Still c (readTap k offset) :=
  keeps_bind (still_translate k offset) fun _ => still_read _

theorem still_writeTap (k : Id) (t : Tap) (value : Sample) : Still c (writeTap k t value) :=
  keeps_bind (still_core k) fun _ =>
    keeps_ite (fun _ => keeps_bind (still_translate k _) fun _ => still_write _ _) fun _ => keeps_pure _

theorem still_reflect (k : Id) (input : Sample) (d m : Tap) : Still c (reflect k input d m) :=
  keeps_bind (still_core k) fun _ => keeps_bind (still_readTap k _) fun _ => keeps_bind (still_readTap k _) fun _ =>
    keeps_bind (still_readTap k _) fun _ => still_writeTap k _ _

theorem still_comb (k : Id) (t1 t2 t3 t4 : Tap) : Still c (comb k t1 t2 t3 t4) :=
  keeps_bind (still_core k) fun _ => keeps_bind (still_readTap k _) fun _ => keeps_bind (still_readTap k _) fun _ =>
    keeps_bind (still_readTap k _) fun _ => keeps_bind (still_readTap k _) fun _ => keeps_pure _

theorem still_allPass (k : Id) (m d : Tap) (v : Coefficient) (input : Sample) : Still c (allPass k m d v input) :=
  keeps_bind (still_core k) fun _ => keeps_bind (still_readTap k _) fun _ => keeps_bind (still_writeTap k _ _) fun _ =>
    keeps_bind (still_readTap k _) fun _ => keeps_pure _

theorem still_filterReverb (k : Id) (wet : Stereo) : Still c (filterReverb k wet) := by
  refine keeps_bind (still_core k) fun _ => ?_
  refine keeps_bind (still_reflect k _ _ _) fun _ => keeps_bind (still_reflect k _ _ _) fun _ => ?_
  refine keeps_bind (still_reflect k _ _ _) fun _ => keeps_bind (still_reflect k _ _ _) fun _ => ?_
  refine keeps_bind (still_comb k _ _ _ _) fun _ => keeps_bind (still_comb k _ _ _ _) fun _ => ?_
  refine keeps_bind (still_allPass k _ _ _ _) fun _ => keeps_bind (still_allPass k _ _ _ _) fun _ => ?_
  exact keeps_bind (still_allPass k _ _ _ _) fun _ => keeps_bind (still_allPass k _ _ _ _) fun _ => keeps_pure _

/-- Apart from the output, a call makes a turn. -/
theorem runReverb_turn (s : SPUs U N) (wet : Stereo) : Meets (runReverb id wet) s
    (fun _ s' => ∃ Eout, (s'.core id).reverb = { turn (s.core id).reverb with Eout := Eout }) fun _ => True := by
  rw [runReverb, meets_bind, core, meets_bind, meets_get, meets_pure, meets_ite]
  constructor
  · intro hrun
    rw [meets_bind]
    refine (still_filterReverb id wet s rfl).mono (fun out s' hs' => ?_) fun _ he => he
    refine meets_modify.mpr
      ⟨⟨mulvol out.left (s.core id).effectVolumeL, mulvol out.right (s.core id).effectVolumeR⟩, ?_⟩
    simp only [put, if_true, Core.finishReverb, hs', turn, if_pos hrun]
  · intro hrun
    rw [meets_ite]
    constructor
    · intro hcycle
      refine meets_pure.mpr ⟨(s.core id).reverb.Eout, ?_⟩
      rw [turn, if_neg hrun, if_pos hcycle]
    · intro hcycle
      refine meets_modify.mpr ⟨(s.core id).reverb.Eout, ?_⟩
      simp only [put, if_true, turn, if_neg hrun, if_neg hcycle]

/-- The turns of the reverb after `n` calls, from a position of 0. -/
structure After (r₀ : Reverb) (n : ℕ) (r : Reverb) : Prop where
  areaStart : r.effectAreaStart = r₀.effectAreaStart
  areaEnd : r.effectAreaEnd = r₀.effectAreaEnd
  position : r.effectPos.toNat = (n + 1) / 2 % cells r₀
  cycle : r.cycle.toNat = n % 2

theorem After.area {r₀ : Reverb} {n : ℕ} (h : After r₀ n r) (h₀ : Area r₀) : Area r := by
  unfold Area
  rw [h.areaStart, h.areaEnd]
  exact h₀

theorem After.cells {r₀ : Reverb} {n : ℕ} (h : After r₀ n r) : cells r = cells r₀ := by
  unfold ReverbAddress.cells
  rw [h.areaStart, h.areaEnd]

/-- The position moves on in every other call. -/
theorem After.turn {r₀ : Reverb} {n : ℕ} (h : After r₀ n r) (h₀ : Area r₀) (Eout : Stereo) :
    After r₀ (n + 1) { turn r with Eout := Eout } := by
  have harea := h.area h₀
  have hpos : r.effectPos.toNat < ReverbAddress.cells r := by
    rw [h.position, h.cells]
    exact Nat.mod_lt _ (Nat.succ_pos _)
  have hcycle := h.cycle
  unfold ReverbAddress.turn
  by_cases hzero : r.cycle = 0
  · have hn : n % 2 = 0 := by
      rw [← hcycle, hzero]
      rfl
    have hnext := advance_effectPos harea hpos
    rw [h.position, h.cells, Nat.mod_add_mod, show (n + 1) / 2 + 1 = (n + 1 + 1) / 2 by omega] at hnext
    rw [if_pos ((running_iff harea).mpr hzero)]
    refine ⟨h.areaStart, h.areaEnd, hnext, ?_⟩
    change 1 = (n + 1) % 2
    omega
  · have hn : n % 2 = 1 := by
      have : r.cycle.toNat ≠ 0 := fun hc => hzero (BitVec.eq_of_toNat_eq hc)
      omega
    rw [if_neg fun hr => hzero ((running_iff harea).mp hr), if_neg hzero]
    refine ⟨h.areaStart, h.areaEnd, ?_, ?_⟩
    · change r.effectPos.toNat = _
      rw [h.position, show (n + 1) / 2 = (n + 1 + 1) / 2 by omega]
    · change (r.cycle - 1).toNat = _
      rw [BitVec.toNat_sub, hcycle, hn]
      change (2 ^ 8 - 1 + 1) % 2 ^ 8 = _
      omega

/-- Calls of `run_reverb`, one after the other. -/
def runAll (id : Id) : List Stereo → M U N PUnit
  | [] => pure ⟨⟩
  | wet :: wets => do
    runReverb id wet
    runAll id wets

theorem runAll_after {r₀ : Reverb} (h₀ : Area r₀) : ∀ (wets : List Stereo) (n : ℕ) (s : SPUs U N),
    After r₀ n (s.core id).reverb →
    Meets (runAll id wets) s (fun _ s' => After r₀ (n + wets.length) (s'.core id).reverb) fun _ => True
  | [], _, _, h => meets_pure.mpr h
  | wet :: wets, n, s, h => by
    rw [runAll, meets_bind]
    refine (runReverb_turn s wet).mono (fun _ s' hs' => ?_) fun _ he => he
    obtain ⟨Eout, hturn⟩ := hs'
    have hnext := h.turn h₀ Eout
    rw [← hturn] at hnext
    have hrest := runAll_after h₀ wets (n + 1) s' hnext
    rwa [show n + (wet :: wets).length = n + 1 + wets.length by rw [List.length_cons]; omega]

/-- After any number of calls, the position has gone round the cells of the area, and every address is within it.
It is the address of the ring if and only if the offset is `Exact`, and the cell is found again `k` turns later if
and only if it is `Found`. -/
theorem reverb_addresses {s s' : SPUs U N} {wets : List Stereo} (h : (runAll id wets).run s = .ok (⟨⟩, s'))
    (harea : Area (s.core id).reverb) (hpos : (s.core id).reverb.effectPos = 0)
    (hcycle : (s.core id).reverb.cycle = 0) :
    let r := (s'.core id).reverb
    r.effectPos.toNat = (wets.length + 1) / 2 % cells (s.core id).reverb ∧
      cells r = cells (s.core id).reverb ∧ r.effectAreaStart = (s.core id).reverb.effectAreaStart ∧
      ∀ offset : Word,
        (r.effectAreaStart.toNat ≤ (r.translate offset).toNat ∧
          (r.translate offset).toNat < r.effectAreaEnd.toNat) ∧
        (((r.translate offset).toNat : ℤ) =
            r.effectAreaStart.toNat + (r.effectPos.toNat + offset.toInt) % cells r ↔ Exact r offset) ∧
        ∀ k < cells r,
          ((moved r k).translate (offset - BitVec.ofNat 32 k) = r.translate offset ↔ Found r offset k) := by
  intro r
  have hstart : After (s.core id).reverb 0 (s.core id).reverb := by
    refine ⟨rfl, rfl, ?_, ?_⟩
    · rw [hpos, show (0 + 1) / 2 = 0 from rfl, Nat.zero_mod]
      rfl
    · rw [hcycle]
      rfl
  have hafter := (runAll_after harea wets 0 s hstart).1 _ s' h
  rw [Nat.zero_add] at hafter
  have hr : Area r := hafter.area harea
  have hcells : cells r = cells (s.core id).reverb := hafter.cells
  have hin : r.effectPos.toNat < cells r := by
    rw [hafter.position, hcells]
    exact Nat.mod_lt _ (Nat.succ_pos _)
  exact ⟨hafter.position, hcells, hafter.areaStart, fun offset =>
    ⟨translate_within hr offset, translate_eq_iff hr hin offset, fun k hk => readBack_iff hr hin hk offset⟩⟩

/-- An area of 2^16 cells, at the start of the RAM. -/
def area64K : Reverb := { Reverb.zero with effectAreaEnd := 0xFFFF }

/-- The processors with that area, and nothing else. -/
def onlyReverb : SPUs Unit Unit :=
  { Containment.powerOn with core := fun _ => { Containment.blankCore with reverb := area64K } }

/-- Before the first call, the cell at the offset 5 is the fifth one, and five turns later it is the one at 0. -/
theorem reverb_addresses_before :
    ((area64K.translate 5).toNat : ℤ) = 5 ∧ (moved area64K 5).translate (5 - 5) = area64K.translate 5 := by
  have hrun : (runAll .one []).run onlyReverb = .ok (⟨⟩, onlyReverb) := rfl
  obtain ⟨-, -, -, haddr⟩ := reverb_addresses hrun ⟨by decide, by decide⟩ rfl rfl
  obtain ⟨-, hexact, hfound⟩ := haddr 5
  exact ⟨hexact.mpr (by decide), (hfound 5 (by decide)).mpr (Or.inl (by decide))⟩

/-- The cell before the start is the end, and is taken for the start. -/
theorem not_reverb_addresses : ¬ ∀ r : Reverb, Area r → r.effectPos = 0 → ∀ offset : Word,
    ((r.translate offset).toNat : ℤ) =
      r.effectAreaStart.toNat + (r.effectPos.toNat + offset.toInt) % cells r := by
  intro h
  exact absurd (h area64K ⟨by decide, by decide⟩ rfl (-1)) (by decide)

end DobieStation.Spu.ReverbAddress
