import DobieStation.Mmi.Arithmetic
import DobieStation.Mmi.Stores
import Mathlib.Tactic.IntervalCases

/-! # The packed instructions do what they mean

Every handler leaves in its destination the lanes that the instruction means, whatever registers it is
given, and nothing else changes: but for PINTH when RD is RT, which loads halfwords that it has stored,
and PMFHL.SH, which does not saturate the words from -0x80000 to -0x8001 (`meets_iff`). -/

namespace DobieStation.Mmi.Correctness

open DobieStation.Lib.InPlace DobieStation.Lib.Lanes
open DobieStation.Mmi.Model DobieStation.Mmi.Meaning DobieStation.Mmi.Stores
open DobieStation.Mmi.Arithmetic
open DobieStation.Ee.Interface (Word Quad U128 Registers)
open DobieStation.Ee.Instructions (rs rt rd funct)

variable {w n : ℕ} {i : Word} {r : Registers}

/-- The instruction does what it means. -/
def Meets (op : Packed) (i : Word) (r : Registers) : Prop := execute op i r = result op i r

/-- Neither defect is reached. -/
def Sound (op : Packed) (i : Word) (r : Registers) : Prop :=
  match op with
  | .pinth => rd i ≠ 0 → rd i = rt i →
      lane 16 (r.gpr (rt i)) 1 = lane 16 (r.gpr (rs i)) 4 ∧
      lane 16 (r.gpr (rt i)) 2 = lane 16 (r.gpr (rs i)) 4 ∧
      lane 16 (r.gpr (rt i)) 3 = lane 16 (r.gpr (rs i)) 5
  | .pmfhlsh => rd i ≠ 0 → ∀ k < 4, Fits (lane 32 (quad r.LO) k) ∧ Fits (lane 32 (quad r.HI) k)
  | _ => True

/-! ### Families -/

theorem onFile_eq {h : Handler} {q : Quad} (hq : h i r.gpr = write r.gpr (rd i) q) :
    onFile h i r = { r with gpr := write r.gpr (rd i) q } := by
  rw [onFile, hq]

theorem lanewise_each {f f' : BitVec w → BitVec w → BitVec w} (hn : n * w = 128)
    (hf : ∀ x y, f x y = f' x y) :
    lanewise n f i r.gpr = write r.gpr (rd i) (each n f' (sources i r)) := by
  rw [lanewise_eq hn]
  simp only [hf]
  rfl

theorem compared_each {p : BitVec w → BitVec w → Prop} [∀ x y, Decidable (p x y)] :
    compared n (fun x y => decide (p x y)) i r.gpr =
      write r.gpr (rd i) (each n (fun x y => mask w (p x y)) (sources i r)) := by
  rw [compared_eq]
  simp only [decide_eq_true_eq]
  rfl

theorem lanewise_bitwise {f : Bool → Bool → Bool} {o : ∀ {m : ℕ}, BitVec m → BitVec m → BitVec m}
    (hop : ∀ {m b : ℕ} (x y : BitVec m), b < m →
      (o x y).getLsbD b = f (x.getLsbD b) (y.getLsbD b)) :
    lanewise 2 (fun (x y : BitVec 64) => o x y) i r.gpr =
      write r.gpr (rd i) (o (r.gpr (rs i)) (r.gpr (rt i))) := by
  rw [lanewise_eq rfl, ofLanes_bitwise hop]

theorem interleaved_congr {e e' o o' : ℕ → BitVec w} (hn : 2 * n * w = 128)
    (he : ∀ k < n, e k = e' k) (ho : ∀ k < n, o k = o' k) :
    interleaved (2 * n) e o = interleaved (2 * n) e' o' := by
  refine eq_ofLanes hn fun k hk => ?_
  rw [interleaved, lane_ofLanes hn hk, he _ (by omega), ho _ (by omega)]

theorem pext_half {half : ℕ} (hn : n * w = 64) :
    pext w n half i r.gpr = write r.gpr (rd i) (interleaved (2 * n)
      (fun k => lane w (r.gpr (rt i)) (half * n + k))
      fun k => lane w (r.gpr (rs i)) (half * n + k)) := by
  have hlane (x : Quad) : ∀ m, n * w = m → ∀ k < n,
      lane w (lane m x half) k = lane w x (half * n + k) := by
    rintro _ rfl k hk
    exact lane_lane hk
  rw [pext_eq hn]
  exact congrArg _ (interleaved_congr (by rw [Nat.mul_assoc, hn]) (hlane _ 64 hn) (hlane _ 64 hn))

theorem ppac_low (hn : 2 * n * w = 128) : ppac w n i r.gpr = write r.gpr (rd i) (joined (2 * n)
    (fun k => lane w (r.gpr (rt i)) (2 * k)) fun k => lane w (r.gpr (rs i)) (2 * k)) := by
  simp only [ppac_eq hn, low_half]

theorem qfsrv_eq (hSA : r.SA.toNat < 16) :
    qfsrv r.SA i r.gpr = write r.gpr (rd i) (value .qfsrv (sources i r)) := by
  simp only [qfsrv, setGpr_quad, getGpr_quad, value, sources]
  refine congrArg (write r.gpr (rd i)) ?_
  rw [Nat.mul_comm 8]
  split_ifs with h0 h64 hne
  · rw [h0, funnel_none]
  · exact funnel_low h64 (by omega)
  · have hs : r.SA.toNat * 8 = 64 + (r.SA.toNat * 8 - 64) := by omega
    rw [show 128 - r.SA.toNat * 8 = 64 - (r.SA.toNat * 8 - 64) by omega,
      funnel_high (by omega) (by omega), ← hs]
  · have h : r.SA.toNat * 8 = 64 := by omega
    rw [h, Nat.sub_self, BitVec.ushiftRight_zero, BitVec.ushiftRight_zero, funnel_middle]

theorem pmfhlslw_joined : pmfhlslw r i r.gpr = write r.gpr (rd i) (value .pmfhlslw (sources i r)) := by
  rw [pmfhlslw_eq]
  refine congrArg (write r.gpr (rd i)) (eq_ofLanes (n := 2) rfl fun k hk => ?_)
  rw [joined, lane_ofLanes rfl hk, clampDoubleword_eq, clampDoubleword_eq]
  by_cases hk0 : k < 2 / 2
  · rw [if_pos hk0, show k = 0 by omega]
    rfl
  · rw [if_neg hk0, show k = 1 by omega]
    rfl

/-! ### Each instruction -/

theorem execute_eq (op : Packed) (h : op ≠ .pinth) (h' : op ≠ .pmfhlsh) (hSA : r.SA.toNat < 16) :
    execute op i r = result op i r := by
  cases op with
  | pinth => exact absurd rfl h
  | pmfhlsh => exact absurd rfl h'
  | pmthllw => exact pmthllw_eq
  | pmthi | pmtlo => simp only [execute, result, pmthi, pmtlo, halves, sources, getGpr]
  | psllh | psrlh | psrah =>
    refine onFile_eq ?_
    simp only [psllh, psrlh, psrah, value]
    exact lanewise_each rfl fun _ _ => by rw [sa_four]; rfl
  | psllw | psrlw | psraw | paddw | psubw | paddh | psubh | paddb | psubb =>
    refine onFile_eq ?_
    simp only [psllw, psrlw, psraw, paddw, psubw, paddh, psubh, paddb, psubb, value]
    exact lanewise_each rfl fun _ _ => rfl
  | pmaxw | pmaxh =>
    refine onFile_eq ?_
    simp only [pmaxw, pmaxh, value]
    exact lanewise_each rfl fun _ _ => larger_eq
  | pminw | pminh =>
    refine onFile_eq ?_
    simp only [pminw, pminh, value]
    exact lanewise_each rfl fun _ _ => smaller_eq
  | pcgtw | pcgth | pcgtb | pceqw | pceqh | pceqb =>
    refine onFile_eq ?_
    simp only [pcgtw, pcgth, pcgtb, pceqw, pceqh, pceqb, value]
    exact compared_each
  | paddsw | psubsw | paddsh | psubsh | paddsb | psubsb =>
    refine onFile_eq ?_
    simp only [paddsw, psubsw, paddsh, psubsh, paddsb, psubsb, value]
    exact lanewise_each rfl fun _ _ => clamped_eq (by decide) (by decide) (by decide)
  | padduw | padduh | paddub =>
    refine onFile_eq ?_
    simp only [padduw, padduh, paddub, value]
    exact lanewise_each rfl fun _ _ => addUnsigned_eq (by decide)
  | psubuw | psubuh | psubub =>
    refine onFile_eq ?_
    simp only [psubuw, psubuh, psubub, value]
    exact lanewise_each rfl fun _ _ => subUnsigned_eq (by decide)
  | pabsw | pabsh =>
    refine onFile_eq ?_
    simp only [pabsw, pabsh, value]
    exact lanewise_each rfl fun _ _ => absolute_eq (by decide)
  | pext5 =>
    refine onFile_eq ?_
    simp only [pext5, value]
    exact lanewise_each rfl fun _ _ => unpack5_eq
  | ppac5 =>
    refine onFile_eq ?_
    simp only [ppac5, value]
    exact lanewise_each rfl fun _ _ => pack5_eq
  | psllvw | psrlvw | psravw =>
    refine onFile_eq ?_
    simp only [psllvw, psrlvw, psravw, value]
    exact lanewise_each rfl fun _ _ => shiftedBy_eq
  | pand =>
    refine onFile_eq ?_
    simp only [pand, value]
    exact lanewise_bitwise (o := fun x y => x &&& y) (f := and) fun _ _ _ => BitVec.getLsbD_and
  | pxor =>
    refine onFile_eq ?_
    simp only [pxor, value]
    exact lanewise_bitwise (o := fun x y => x ^^^ y) (f := xor) fun _ _ _ => BitVec.getLsbD_xor
  | por =>
    refine onFile_eq ?_
    simp only [por, value]
    exact lanewise_bitwise (o := fun x y => x ||| y) (f := or) fun _ _ _ => BitVec.getLsbD_or
  | pnor =>
    refine onFile_eq ?_
    simp only [pnor, value]
    exact lanewise_bitwise (o := fun x y => ~~~(x ||| y)) (f := fun a b => !(a || b))
      fun _ _ h => by rw [BitVec.getLsbD_not, BitVec.getLsbD_or, decide_eq_true h, Bool.true_and]
  | pextlw | pextuw =>
    refine onFile_eq ?_
    simp only [pextlw, pextuw, value]
    exact pext_half (n := 2) rfl
  | pextlh | pextuh =>
    refine onFile_eq ?_
    simp only [pextlh, pextuh, value]
    exact pext_half (n := 4) rfl
  | pextlb | pextub =>
    refine onFile_eq ?_
    simp only [pextlb, pextub, value]
    exact pext_half (n := 8) rfl
  | ppach =>
    refine onFile_eq ?_
    exact ppac_low (n := 4) rfl
  | ppacb =>
    refine onFile_eq ?_
    exact ppac_low (n := 8) rfl
  | ppacw =>
    refine onFile_eq ?_
    exact ppacw_eq
  | padsbh =>
    refine onFile_eq ?_
    exact padsbh_eq
  | qfsrv =>
    refine onFile_eq ?_
    exact qfsrv_eq hSA
  | pmfhllw =>
    refine onFile_eq ?_
    exact pmfhllw_eq
  | pmfhluw =>
    refine onFile_eq ?_
    exact pmfhluw_eq
  | pmfhllh =>
    refine onFile_eq ?_
    exact pmfhllh_eq
  | pmfhlslw =>
    refine onFile_eq ?_
    exact pmfhlslw_joined
  | pmfhi | pmflo =>
    refine onFile_eq ?_
    exact moved_eq
  | pcpyld | pcpyud =>
    refine onFile_eq ?_
    exact two_doublewords
  | pexeh =>
    refine onFile_eq ?_
    exact pexeh_eq
  | prevh =>
    refine onFile_eq ?_
    exact prevh_eq
  | pexew =>
    refine onFile_eq ?_
    exact pexew_eq
  | prot3w =>
    refine onFile_eq ?_
    exact prot3w_eq
  | pcpyh =>
    refine onFile_eq ?_
    exact pcpyh_eq
  | pinteh =>
    refine onFile_eq ?_
    exact pinteh_eq
  | pexch | pexcw =>
    refine onFile_eq ?_
    simp only [pexch, pexcw, value]
    exact exchanged_eq rfl (by decide)

/-! ### The two that do not -/

theorem write_inj {g : File} {id : BitVec 5} {q q' : Quad} (hz : id ≠ 0) :
    write g id q = write g id q' ↔ q = q' := by
  constructor
  · intro h
    have h := congrFun h id
    rwa [write, write, if_neg hz, if_neg hz, Function.update_self, Function.update_self] at h
  · rintro rfl
    rfl

theorem onFile_iff {h : Handler} {q : Quad} :
    onFile h i r = { r with gpr := write r.gpr (rd i) q } ↔ h i r.gpr = write r.gpr (rd i) q :=
  ⟨fun heq => congrArg Registers.gpr heq, onFile_eq⟩

theorem pinth_iff : Meets .pinth i r ↔ Sound .pinth i r := by
  refine onFile_iff.trans ?_
  simp only [Sound]
  by_cases h : rd i ≠ 0 ∧ rd i = rt i
  · obtain ⟨hz, ht⟩ := h
    rw [pinth_overlapped ht hz, write_inj hz]
    refine (ofLanes_inj (m := 128) (n := 8) (w := 16) rfl).trans ?_
    constructor
    · intro heq _ _
      exact ⟨(heq 2 (by decide)).symm, (heq 4 (by decide)).symm, (heq 6 (by decide)).symm⟩
    · intro hsound k hk
      obtain ⟨h1, h2, h3⟩ := hsound hz ht
      interval_cases k
      · rfl
      · rfl
      · exact h1.symm
      · rfl
      · exact h2.symm
      · rfl
      · exact h3.symm
      · rfl
  · refine iff_of_true (pinth_eq ?_) fun hz ht => absurd ⟨hz, ht⟩ h
    by_cases hz : rd i = 0
    · exact .inr hz
    · exact .inl fun ht => h ⟨hz, ht⟩

theorem pmfhlsh_iff : Meets .pmfhlsh i r ↔ Sound .pmfhlsh i r := by
  refine onFile_iff.trans ?_
  simp only [Sound]
  rw [pmfhlsh_eq]
  by_cases hz : rd i = 0
  · refine iff_of_true ?_ fun h => absurd hz h
    rw [write, write, if_pos hz, if_pos hz]
  · rw [write_inj hz]
    refine (ofLanes_inj (m := 128) (n := 8) (w := 16) rfl).trans ?_
    constructor
    · intro heq _ k hk
      -- the word `k` of LO, and that of HI
      have hlo := clampHalfword_iff.mp (heq (k / 2 * 4 + k % 2) (by omega))
      have hhi := clampHalfword_iff.mp (heq (k / 2 * 4 + 2 + k % 2) (by omega))
      rw [if_pos (by omega), show (k / 2 * 4 + k % 2) / 4 * 2 + (k / 2 * 4 + k % 2) % 2 = k by omega] at hlo
      rw [if_neg (by omega),
        show (k / 2 * 4 + 2 + k % 2) / 4 * 2 + (k / 2 * 4 + 2 + k % 2) % 2 = k by omega] at hhi
      exact ⟨hlo, hhi⟩
    · intro hsound k hk
      refine clampHalfword_iff.mpr ?_
      have h := hsound hz (k / 4 * 2 + k % 2) (by omega)
      split_ifs
      · exact h.1
      · exact h.2

/-! ### The registers that stay -/

theorem write_other {g : File} {id id' : BitVec 5} {q : Quad} (h : id' ≠ id ∨ id' = 0) :
    write g id q id' = g id' := by
  unfold write
  by_cases hz : id = 0
  · rw [if_pos hz]
  · rw [if_neg hz, Function.update_of_ne]
    rintro rfl
    rcases h with h | h
    · exact h rfl
    · exact hz h

/-- Right or wrong, a result goes to the destination. -/
theorem execute_gpr (op : Packed) (hSA : r.SA.toNat < 16) :
    (execute op i r).gpr = r.gpr ∨ ∃ q, (execute op i r).gpr = write r.gpr (rd i) q := by
  by_cases hp : op = .pinth
  · subst hp
    by_cases h : rd i ≠ 0 ∧ rd i = rt i
    · exact .inr ⟨_, pinth_overlapped h.2 h.1⟩
    · refine .inr ⟨_, pinth_eq ?_⟩
      by_cases hz : rd i = 0
      · exact .inr hz
      · exact .inl fun ht => h ⟨hz, ht⟩
  · by_cases hs : op = .pmfhlsh
    · subst hs
      exact .inr ⟨_, pmfhlsh_eq⟩
    · rw [execute_eq op hp hs hSA]
      unfold result
      split
      · exact .inl rfl
      · exact .inl rfl
      · exact .inl rfl
      · exact .inr ⟨_, rfl⟩

/-- No other general register changes, and the register 0 stays zero. -/
theorem execute_other (op : Packed) (hSA : r.SA.toNat < 16) {id : BitVec 5}
    (h : id ≠ rd i ∨ id = 0) : (execute op i r).gpr id = r.gpr id := by
  rcases execute_gpr (i := i) op hSA with heq | ⟨q, heq⟩
  · rw [heq]
  · rw [heq, write_other h]

theorem execute_SA (op : Packed) : (execute op i r).SA = r.SA := by
  cases op <;> rfl

theorem execute_valid (op : Packed) (h : Valid r) : Valid (execute op i r) where
  zero := by rw [execute_other op h.sa (.inr rfl), h.zero]
  sa := by
    rw [execute_SA]
    exact h.sa

theorem mtsa_valid (h : Valid r) : Valid (mtsa i r) where
  zero := h.zero
  sa := by
    rw [mtsa, BitVec.toNat_and]
    exact Nat.and_lt_two_pow (n := 4) _ (by decide)

/-- What MTSAB and MTSAH compute fits in the bits that they keep. -/
theorem masked_xor {a b : Word} {m : ℕ} (hm : m < 32) :
    ((a &&& BitVec.ofNat 32 (2 ^ m - 1)) ^^^ (b &&& BitVec.ofNat 32 (2 ^ m - 1))).toNat < 2 ^ m := by
  have hpow : 2 ^ m - 1 < 2 ^ 32 :=
    Nat.lt_of_le_of_lt (Nat.sub_le _ _) (Nat.pow_lt_pow_right (by decide) hm)
  have hand (x : Word) : (x &&& BitVec.ofNat 32 (2 ^ m - 1)).toNat < 2 ^ m := by
    rw [BitVec.toNat_and, BitVec.toNat_ofNat, Nat.mod_eq_of_lt hpow, Nat.and_two_pow_sub_one_eq_mod]
    exact Nat.mod_lt _ (Nat.two_pow_pos m)
  rw [BitVec.toNat_xor]
  exact Nat.xor_lt_two_pow (hand a) (hand b)

theorem mtsab_valid (h : Valid r) : Valid (mtsab i r) where
  zero := h.zero
  sa := by
    have hreg := masked_xor (a := getGpr 32 r.gpr (rs i) 0) (b := i) (m := 4) (by decide)
    refine Nat.lt_of_le_of_lt ?_ hreg
    rw [mtsab, BitVec.toNat_setWidth]
    exact Nat.mod_le _ _

theorem mtsah_valid (h : Valid r) : Valid (mtsah i r) where
  zero := h.zero
  sa := by
    have hreg := masked_xor (a := getGpr 32 r.gpr (rs i) 0) (b := i) (m := 3) (by decide)
    refine Nat.lt_of_le_of_lt (m := (((getGpr 32 r.gpr (rs i) 0 &&& 0x7) ^^^ (i &&& 0x7)) * 2).toNat) ?_ ?_
    · rw [mtsah, BitVec.toNat_setWidth]
      exact Nat.mod_le _ _
    · refine Nat.lt_of_le_of_lt (m := ((getGpr 32 r.gpr (rs i) 0 &&& 0x7) ^^^ (i &&& 0x7)).toNat * 2) ?_ ?_
      · rw [BitVec.toNat_mul]
        exact Nat.mod_le _ _
      · change _ < 8 * 2
        exact Nat.mul_lt_mul_of_pos_right hreg (by decide)

/-! ### The claim -/

/-- The state of the core between two instructions. -/
abbrev State := { r : Registers // Valid r }

theorem meets_iff (op : Packed) (i : Word) (r : State) : Meets op i r.val ↔ Sound op i r.val := by
  by_cases hp : op = .pinth
  · subst hp
    exact pinth_iff
  · by_cases hs : op = .pmfhlsh
    · subst hs
      exact pmfhlsh_iff
    · refine iff_of_true (execute_eq op hp hs r.property.sa) ?_
      unfold Sound
      split
      · exact absurd rfl hp
      · exact absurd rfl hs
      · trivial

def cleared : Registers where
  gpr := fun _ => 0
  LO := ⟨0, 0⟩
  HI := ⟨0, 0⟩
  SA := 0
  fpu := ⟨⟨false, false, false, false, false, false, false, false, false⟩, fun _ => 0, 0⟩

/-- `pinth $1, $2, $1` and `pmfhl.sh $1`. -/
theorem not_meets :
    (mmi 0x70410A89 = some .pinth ∧ ∃ r : State, r.val =
        { cleared with gpr := Function.update (fun _ => 0) 1 0x0003000200010000 } ∧
      ¬ Meets .pinth 0x70410A89 r.val) ∧
    mmi 0x70000930 = some .pmfhlsh ∧ ∃ r : State, r.val = { cleared with LO := ⟨0xFFFF0000, 0⟩ } ∧
      ¬ Meets .pmfhlsh 0x70000930 r.val := by
  refine ⟨⟨by decide, ⟨_, ?_⟩, rfl, fun h => ?_⟩, by decide, ⟨_, ?_⟩, rfl, fun h => ?_⟩
  · exact ⟨by decide, by decide⟩
  · exact absurd (congrArg (fun r => r.gpr 1) h) (by decide)
  · exact ⟨by decide, by decide⟩
  · exact absurd (congrArg (fun r => r.gpr 1) h) (by decide)

/-! ### Encodings -/

theorem mmi_iff {op : Packed} : mmi i = some op ↔
    funct i = (code op).1 ∧ ∀ s ∈ (code op).2, sa i 5 = s := by
  constructor
  · intro h
    unfold mmi at h
    split at h
    case h_1 | h_2 | h_3 | h_4 | h_5 =>
      simp only [mmi0, mmi1, mmi2, mmi3, pmfhlfmt] at h
      split at h
      all_goals cases h
      all_goals exact ⟨‹_›, fun s hs => by cases hs; assumption⟩
    all_goals cases h
    all_goals exact ⟨‹_›, fun s hs => by cases hs⟩
  · rintro ⟨hf, hs⟩
    cases op
    all_goals
      simp only [code, Option.mem_def, Option.some.injEq, forall_eq', reduceCtorEq, false_imp_iff] at hf hs
      simp [mmi, hf, hs, mmi0, mmi1, mmi2, mmi3, pmfhlfmt]

end DobieStation.Mmi.Correctness
