import DobieStation.Tlb.Translation
import Mathlib.Data.BitVec

/-! # Reading an entry of the TLB back

The translation of `read_tlb`, which takes the halves of an entry the other way round than `set_tlb`: what was
written is read back if and only if the halves agree (`round_trip_iff`). -/

namespace DobieStation.Tlb.Model

open Translation (registers)

/-! ### Reading an entry -/

def flag (b : Bool) (n : ℕ) : BitVec 32 := if b then 1#32 <<< n else 0#32

/-- The fields of a half, without the bit of the whole entry. -/
def EntryLo.word (lo : EntryLo) : BitVec 32 :=
  BitVec.ofNat 32 lo.pfn <<< 6 ||| BitVec.ofNat 32 lo.cache_mode <<< 3 ||| flag lo.dirty 2 ||| flag lo.valid 1

/-- What an entry gives for the registers. The half of `pfn[1]` goes to EntryLo0. -/
def TLB_Entry.registers (entry : TLB_Entry) (gpr : ℕ → BitVec 32) : ℕ → BitVec 32 :=
  let page_mask := BitVec.ofNat 32 entry.page_mask <<< 13
  let gpr := Function.update gpr 5 page_mask
  let gpr := Function.update gpr 10
    ((BitVec.ofNat 32 entry.vpn2 <<< 13 ||| BitVec.ofNat 32 entry.asid) &&& ~~~page_mask)
  let gpr := Function.update gpr 2 (flag entry.is_scratchpad 31 ||| entry.odd.word ||| flag entry.is_global 0)
  Function.update gpr 3 (entry.even.word ||| flag entry.is_global 0)

def read_tlb (index : ℕ) (c : Cop0) (gpr : ℕ → BitVec 32) : Option (ℕ → BitVec 32) :=
  if index < tlb_entries then some ((c.tlb index).registers gpr) else none

/-! ### The purpose -/

/-- The bits of PageMask. -/
def mask_bits : BitVec 32 := 0x01FFE000

/-- VPN2 and ASID. -/
def hi_bits : BitVec 32 := 0xFFFFE0FF

/-- PFN, C, D and V. -/
def lo_bits : BitVec 32 := 0x03FFFFFE

/-- The bit S of EntryLo0. -/
def scratchpad_bit : BitVec 32 := 0x80000000

structure RoundTrip (gpr gpr' : ℕ → BitVec 32) : Prop where
  page_mask : gpr' 5 = gpr 5 &&& mask_bits
  entry_hi : gpr' 10 = gpr 10 &&& hi_bits &&& ~~~(gpr 5 &&& mask_bits)
  entry_lo0 : gpr' 2 = gpr 2 &&& scratchpad_bit ||| gpr 2 &&& lo_bits ||| gpr 2 &&& gpr 3 &&& 1#32
  entry_lo1 : gpr' 3 = gpr 3 &&& lo_bits ||| gpr 2 &&& gpr 3 &&& 1#32

/-! ### Fields -/

/-- A field that is taken out and put back. -/
theorem field_eq (reg : BitVec 32) (start width : ℕ) :
    BitVec.ofNat 32 ((reg >>> start).toNat % 2 ^ width) <<< start =
      reg &&& (BitVec.ofNat 32 (2 ^ width - 1) <<< start) := by
  apply BitVec.eq_of_getLsbD_eq
  intro i hi
  simp only [BitVec.getLsbD_shiftLeft, BitVec.getLsbD_and, BitVec.getLsbD_ofNat, Nat.testBit_mod_two_pow,
    Nat.testBit_two_pow_sub_one, BitVec.testBit_toNat, BitVec.getLsbD_ushiftRight]
  by_cases hstart : i < start
  · simp [hstart]
  · rw [show start + (i - start) = i by omega]
    have hin : i - start < 32 := by omega
    simp only [hi, hstart, hin, decide_true, decide_false, Bool.not_false, Bool.true_and]
    exact Bool.and_comm _ _

theorem flag_eq (reg : BitVec 32) (n : ℕ) : flag (reg.getLsbD n) n = reg &&& (1#32 <<< n) := by
  have hbit : (1#32 <<< n) = BitVec.twoPow 32 n := (BitVec.twoPow_eq 32 n).symm
  rw [flag, hbit, BitVec.and_twoPow]

theorem flag_and (a b : BitVec 32) : flag (a.getLsbD 0 && b.getLsbD 0) 0 = a &&& b &&& 1#32 := by
  rw [← BitVec.getLsbD_and]
  exact flag_eq (a &&& b) 0

theorem entry_lo_word (reg : BitVec 32) : (entry_lo reg).word = reg &&& lo_bits := by
  have hcache : (reg >>> 3).toNat % 8 = (reg >>> 3).toNat % 2 ^ 3 := rfl
  unfold EntryLo.word entry_lo
  rw [hcache, field_eq, field_eq, flag_eq, flag_eq, ← BitVec.and_or_distrib_left, ← BitVec.and_or_distrib_left,
    ← BitVec.and_or_distrib_left]
  rfl

/-! ### The round trip -/

variable {gpr gpr' : ℕ → BitVec 32} {index : ℕ} {c c' : Cop0}

theorem set_tlb_entry (h : set_tlb gpr index c = some c') : c'.tlb index = new_entry gpr ∧ index < tlb_entries := by
  unfold set_tlb at h
  by_cases hindex : index < tlb_entries
  · rw [if_pos hindex] at h
    obtain ⟨t, -, h⟩ := Option.bind_eq_some_iff.mp h
    obtain ⟨t', -, h⟩ := Option.bind_eq_some_iff.mp h
    obtain rfl := Option.some.inj h
    exact ⟨Function.update_self .., hindex⟩
  · rw [if_neg hindex] at h
    cases h

/-- What a new entry gives back. -/
theorem new_entry_registers (gpr gpr' : ℕ → BitVec 32) :
    let r := (new_entry gpr).registers gpr'
    r 5 = gpr 5 &&& mask_bits ∧ r 10 = gpr 10 &&& hi_bits &&& ~~~(gpr 5 &&& mask_bits) ∧
      r 2 = gpr 2 &&& scratchpad_bit ||| gpr 3 &&& lo_bits ||| gpr 2 &&& gpr 3 &&& 1#32 ∧
      r 3 = gpr 2 &&& lo_bits ||| gpr 2 &&& gpr 3 &&& 1#32 := by
  have hmask : BitVec.ofNat 32 (new_entry gpr).page_mask <<< 13 = gpr 5 &&& mask_bits := field_eq (gpr 5) 13 12
  have hvpn : BitVec.ofNat 32 (new_entry gpr).vpn2 <<< 13 = gpr 10 &&& (BitVec.ofNat 32 (2 ^ 19 - 1) <<< 13) := by
    have hlt : (gpr 10 >>> 13).toNat < 2 ^ 19 := by
      rw [BitVec.toNat_ushiftRight, Nat.shiftRight_eq_div_pow]
      have := (gpr 10).isLt
      omega
    rw [← field_eq, Nat.mod_eq_of_lt hlt]
    rfl
  have hasid : BitVec.ofNat 32 (new_entry gpr).asid = gpr 10 &&& (BitVec.ofNat 32 (2 ^ 8 - 1) <<< 0) :=
    (BitVec.shiftLeft_zero _).symm.trans (field_eq (gpr 10) 0 8)
  refine ⟨hmask, ?_, ?_, ?_⟩
  · change (BitVec.ofNat 32 (new_entry gpr).vpn2 <<< 13 ||| BitVec.ofNat 32 (new_entry gpr).asid) &&&
      ~~~(BitVec.ofNat 32 (new_entry gpr).page_mask <<< 13) = _
    rw [hmask, hvpn, hasid, ← BitVec.and_or_distrib_left]
    rfl
  · change flag ((gpr 2).getLsbD 31) 31 ||| (entry_lo (gpr 3)).word |||
      flag ((gpr 2).getLsbD 0 && (gpr 3).getLsbD 0) 0 = _
    rw [flag_eq, entry_lo_word, flag_and]
    rfl
  · change (entry_lo (gpr 2)).word ||| flag ((gpr 2).getLsbD 0 && (gpr 3).getLsbD 0) 0 = _
    rw [entry_lo_word, flag_and]

theorem lo_bits_or (x y : BitVec 32) : (x &&& lo_bits ||| y &&& 1#32) &&& lo_bits = x &&& lo_bits := by
  rw [BitVec.and_or_distrib_right, BitVec.and_assoc, BitVec.and_self, BitVec.and_assoc,
    show (1#32 &&& lo_bits) = 0#32 by decide, BitVec.and_zero, BitVec.or_zero]

/-- The registers come back as they were written if and only if the two pages have the same PFN, C, D and V. -/
theorem round_trip_iff (h : set_tlb gpr index c = some c') (gpr' : ℕ → BitVec 32) :
    (∃ r, read_tlb index c' gpr' = some r ∧ RoundTrip gpr r) ↔ gpr 2 &&& lo_bits = gpr 3 &&& lo_bits := by
  obtain ⟨hentry, hindex⟩ := set_tlb_entry h
  have hread : read_tlb index c' gpr' = some ((new_entry gpr).registers gpr') := by
    rw [read_tlb, if_pos hindex, hentry]
  obtain ⟨hmask, hhi, hlo0, hlo1⟩ := new_entry_registers gpr gpr'
  constructor
  · rintro ⟨r, hr, htrip⟩
    obtain rfl : (new_entry gpr).registers gpr' = r := Option.some.inj (hread.symm.trans hr)
    have hlo := hlo1.symm.trans htrip.entry_lo1
    rw [← lo_bits_or (gpr 2) (gpr 2 &&& gpr 3), hlo, lo_bits_or]
  · intro hagree
    exact ⟨_, hread, hmask, hhi, hagree ▸ hlo0, hagree ▸ hlo1⟩

/-- A page that is not mapped: neither half is valid. -/
theorem round_trip_unmapped : ∃ r, (∃ c c', set_tlb (registers 0x40 0x40 0 0) 0 c = some c' ∧
    read_tlb 0 c' (fun _ => 0) = some r) ∧ RoundTrip (registers 0x40 0x40 0 0) r := by
  have hset : set_tlb (registers 0x40 0x40 0 0) 0 ⟨fun _ => .zero, fun _ => blank⟩ =
      some ⟨Function.update (fun _ => .zero) 0 (new_entry (registers 0x40 0x40 0 0)), fun _ => blank⟩ := rfl
  obtain ⟨r, hr, htrip⟩ := (round_trip_iff hset fun _ => 0).mpr rfl
  exact ⟨r, ⟨_, _, hset, hr⟩, htrip⟩

/-- The page frames 1 and 2 come back as 2 and 1. -/
theorem not_round_trip : ¬ ∀ gpr index c c', set_tlb gpr index c = some c' →
    ∀ gpr', ∃ r, read_tlb index c' gpr' = some r ∧ RoundTrip gpr r := by
  intro h
  have hset : set_tlb (registers 0x40 0x80 0 0) 0 ⟨fun _ => .zero, fun _ => blank⟩ =
      some ⟨Function.update (fun _ => .zero) 0 (new_entry (registers 0x40 0x80 0 0)), fun _ => blank⟩ := rfl
  obtain ⟨r, hr, htrip⟩ := h _ _ _ _ hset fun _ => 0
  obtain rfl : (new_entry (registers 0x40 0x80 0 0)).registers (fun _ => 0) = r := Option.some.inj hr
  exact absurd htrip.entry_lo0 (by decide)

end DobieStation.Tlb.Model
