import DobieStation.Vu.Pipeline
import Mathlib.Tactic.Common

/-! # The snapshot of the pipelines

At the end of a block and at an XGKICK the translator packs its pipelines into `pipeline_state`, two
words of 64 bits. The third stage has 18 of its 23 bits there. `correct_jit_pipeline` lets cycles pass in
a snapshot; it moves the stages the other way. -/

namespace DobieStation.Vu.Snapshot

open DobieStation.Vu.Pipeline

/-- What a snapshot is of. -/
structure Content where
  stages : Stages (BitVec 64)
  qPipeDelay : ℕ
  pPipeDelay : ℕ
  decoder : DecodedRegs
  branchDelaySlot : Bool
  ebitDelaySlot : Bool

/-- `populate_vu_state`. -/
def pack (c : Content) : BitVec 64 × BitVec 64 :=
  (field 0 23 c.stages.s0 ||| field 23 23 c.stages.s1 ||| field 46 23 c.stages.s2,
    field 0 23 c.stages.s3 ||| field 23 4 (BitVec.ofNat 32 c.qPipeDelay) |||
      field 27 6 (BitVec.ofNat 32 c.pPipeDelay) ||| field 33 5 (c.decoder.vfWrite .upper) |||
      field 38 5 (c.decoder.vfWrite .lower) ||| field 43 4 (c.decoder.vfWriteField .upper) |||
      field 47 4 (c.decoder.vfWriteField .lower) ||| field 51 4 c.decoder.viWriteFromLoad |||
      field 55 1 (BitVec.ofBool c.branchDelaySlot) ||| field 56 1 (BitVec.ofBool c.ebitDelaySlot))

/-- The restoring at the start of `interpreter_pass`, and of `correct_jit_pipeline`: of the decoder
only the writes are set. -/
def unpack (s : BitVec 64 × BitVec 64) (d : DecodedRegs) : Content where
  stages := ⟨(s.1.extractLsb' 0 23).setWidth 64, (s.1.extractLsb' 23 23).setWidth 64,
    (s.1.extractLsb' 46 23).setWidth 64, (s.2.extractLsb' 0 23).setWidth 64⟩
  qPipeDelay := (s.2.extractLsb' 23 4).toNat
  pPipeDelay := (s.2.extractLsb' 27 6).toNat
  decoder := { d with
    vfWrite := halves ((s.2.extractLsb' 33 5).setWidth 8) ((s.2.extractLsb' 38 5).setWidth 8)
    vfWriteField := halves ((s.2.extractLsb' 43 4).setWidth 8) ((s.2.extractLsb' 47 4).setWidth 8)
    viWriteFromLoad := (s.2.extractLsb' 51 4).setWidth 8 }
  branchDelaySlot := s.2.extractLsb' 55 1 == 1
  ebitDelaySlot := s.2.extractLsb' 56 1 == 1

/-- A stage of the snapshot is taken from the one after it. -/
def moveStages (s : Stages (BitVec 64)) : Stages (BitVec 64) := ⟨s.s1, s.s2, s.s2, 0⟩

structure Corrected where
  vu : VectorUnit
  content : Content

/-- One cycle of `correct_jit_pipeline`. -/
def correctCycle (x : Corrected) : Corrected :=
  let vu := updateMacPipeline { x.vu with decoder := x.content.decoder }
  { vu := { vu with
      decoder := .reset
      Q := if x.content.qPipeDelay = 1 then vu.newQInstance else vu.Q
      P := if x.content.pPipeDelay = 1 then vu.newPInstance else vu.P }
    content := { x.content with
      stages := moveStages x.content.stages
      qPipeDelay := x.content.qPipeDelay - 1
      pPipeDelay := x.content.pPipeDelay - 1
      decoder := .reset } }

def correctCycles : ℕ → Corrected → Corrected
  | 0, x => x
  | n + 1, x => correctCycles n (correctCycle x)

def correctJitPipeline (cycles : ℕ) (vu : VectorUnit) : VectorUnit :=
  let content := unpack vu.pipelineState vu.decoder
  let x := correctCycles cycles ⟨{ vu with decoder := content.decoder }, content⟩
  { x.vu with pipelineState := pack x.content }

/-! ### What a snapshot keeps -/

/-- The lowest `n` bits of a stage. -/
def keep (n : ℕ) (v : BitVec 64) : BitVec 64 := (v.setWidth n).setWidth 64

theorem toNat_keep {n : ℕ} (hn : n ≤ 64) (v : BitVec 64) : (keep n v).toNat = v.toNat % 2 ^ n := by
  have hle : 2 ^ n ≤ 2 ^ 64 := Nat.pow_le_pow_right (by omega) hn
  have hlt : v.toNat % 2 ^ n < 2 ^ n := Nat.mod_lt _ (Nat.two_pow_pos n)
  rw [keep, BitVec.toNat_setWidth, BitVec.toNat_setWidth, Nat.mod_eq_of_lt (by omega)]

theorem keep_eq_self {n : ℕ} (hn : n ≤ 64) {v : BitVec 64} : keep n v = v ↔ v.toNat < 2 ^ n := by
  rw [← BitVec.toNat_inj, toNat_keep hn]
  constructor
  · intro h
    rw [← h]
    exact Nat.mod_lt _ (Nat.two_pow_pos n)
  · exact Nat.mod_eq_of_lt

/-- The narrower one counts. -/
theorem keep_keep {m n : ℕ} (hm : m ≤ 64) (hn : n ≤ 64) (v : BitVec 64) :
    keep m (keep n v) = keep (min m n) v := by
  rw [← BitVec.toNat_inj, toNat_keep hm, toNat_keep hn, toNat_keep (by omega)]
  rcases Nat.le_total m n with h | h
  · rw [Nat.min_eq_left h, Nat.mod_mod_of_dvd _ (Nat.pow_dvd_pow 2 h)]
  · have hlt := Nat.mod_lt v.toNat (Nat.two_pow_pos n)
    have hle := Nat.pow_le_pow_right (show 0 < 2 by omega) h
    rw [Nat.min_eq_right h, Nat.mod_eq_of_lt (by omega)]

theorem keep_zero (n : ℕ) : keep n 0 = 0 := by simp [keep]

/-- The third stage does not fit into the first word. -/
theorem extract_third (v : BitVec 64) :
    ((field 46 23 v).extractLsb' 46 23).setWidth 64 = keep 18 v := by
  ext i hi
  by_cases hlt : i < 18
  · have h64 : 46 + i < 64 := by omega
    have h23 : i < 23 := by omega
    simp [field, keep, h64, h23, hi, hlt]
  · have h64 : ¬ 46 + i < 64 := by omega
    simp [field, keep, h64, hlt]

section
variable (c : Content) (d : DecodedRegs)

theorem unpack_pack_stages : (unpack (pack c) d).stages =
    ⟨keep 23 c.stages.s0, keep 23 c.stages.s1, keep 18 c.stages.s2, keep 23 c.stages.s3⟩ := by
  simp (disch := omega) only [unpack, pack, BitVec.extractLsb'_or, extract_field_self,
    extract_field_apart, extract_third, BitVec.or_zero, BitVec.zero_or, keep]

theorem unpack_pack_q : (unpack (pack c) d).qPipeDelay = c.qPipeDelay % 16 := by
  simp (disch := omega) only [unpack, pack, BitVec.extractLsb'_or, extract_field_self,
    extract_field_apart, BitVec.or_zero, BitVec.zero_or, BitVec.toNat_setWidth, BitVec.toNat_ofNat]
  omega

theorem unpack_pack_p : (unpack (pack c) d).pPipeDelay = c.pPipeDelay % 64 := by
  simp (disch := omega) only [unpack, pack, BitVec.extractLsb'_or, extract_field_self,
    extract_field_apart, BitVec.or_zero, BitVec.zero_or, BitVec.toNat_setWidth, BitVec.toNat_ofNat]
  omega

theorem unpack_pack_branch : (unpack (pack c) d).branchDelaySlot = c.branchDelaySlot := by
  simp (disch := omega) only [unpack, pack, BitVec.extractLsb'_or, extract_field_self,
    extract_field_apart, BitVec.or_zero, BitVec.zero_or]
  cases c.branchDelaySlot <;> rfl

theorem unpack_pack_ebit : (unpack (pack c) d).ebitDelaySlot = c.ebitDelaySlot := by
  simp (disch := omega) only [unpack, pack, BitVec.extractLsb'_or, extract_field_self,
    extract_field_apart, BitVec.or_zero, BitVec.zero_or]
  cases c.ebitDelaySlot <;> rfl

end

/-! ### Cycles in a snapshot -/

theorem correctCycles_content (n : ℕ) (x : Corrected) : (correctCycles n x).content =
    { x.content with
      stages := moveStages^[n] x.content.stages
      qPipeDelay := x.content.qPipeDelay - n
      pPipeDelay := x.content.pPipeDelay - n
      decoder := if n = 0 then x.content.decoder else .reset } := by
  induction n generalizing x with
  | zero => rfl
  | succ n ih =>
    rw [correctCycles, ih]
    simp only [correctCycle, Function.iterate_succ, Function.comp_apply, Nat.sub_sub,
      Nat.add_comm 1 n, ite_self, if_neg (Nat.succ_ne_zero n)]

theorem moveStages_iterate (n : ℕ) (s : Stages (BitVec 64)) :
    moveStages^[n + 2] s = ⟨s.s2, s.s2, s.s2, 0⟩ := by
  induction n with
  | zero => rfl
  | succ n ih => rw [Function.iterate_succ_apply', ih]; rfl

/-- The content of a snapshot in which cycles have passed. -/
def later (vu : VectorUnit) (c : Content) (d : DecodedRegs) (n : ℕ) : Content :=
  unpack (correctJitPipeline n { vu with pipelineState := pack c }).pipelineState d

section
variable (vu : VectorUnit) (c : Content) (d : DecodedRegs)

theorem later_q (n : ℕ) : (later vu c d n).qPipeDelay = c.qPipeDelay % 16 - n := by
  simp only [later, correctJitPipeline, unpack_pack_q, correctCycles_content]
  omega

theorem later_p (n : ℕ) : (later vu c d n).pPipeDelay = c.pPipeDelay % 64 - n := by
  simp only [later, correctJitPipeline, unpack_pack_p, correctCycles_content]
  omega

theorem later_branch (n : ℕ) : (later vu c d n).branchDelaySlot = c.branchDelaySlot := by
  simp only [later, correctJitPipeline, unpack_pack_branch, correctCycles_content]

theorem later_ebit (n : ℕ) : (later vu c d n).ebitDelaySlot = c.ebitDelaySlot := by
  simp only [later, correctJitPipeline, unpack_pack_ebit, correctCycles_content]

theorem later_zero : (later vu c d 0).stages =
    ⟨keep 23 c.stages.s0, keep 23 c.stages.s1, keep 18 c.stages.s2, keep 23 c.stages.s3⟩ := by
  simp (disch := omega) only [later, correctJitPipeline, unpack_pack_stages,
    correctCycles_content, Function.iterate_zero, id_eq, keep_keep, Nat.min_self]

theorem later_one : (later vu c d 1).stages =
    ⟨keep 23 c.stages.s1, keep 18 c.stages.s2, keep 18 c.stages.s2, 0⟩ := by
  simp (disch := omega) only [later, correctJitPipeline, unpack_pack_stages,
    correctCycles_content, Function.iterate_one, moveStages, keep_keep, keep_zero]
  rfl

theorem later_many (n : ℕ) : (later vu c d (n + 2)).stages =
    ⟨keep 18 c.stages.s2, keep 18 c.stages.s2, keep 18 c.stages.s2, 0⟩ := by
  simp (disch := omega) only [later, correctJitPipeline, unpack_pack_stages,
    correctCycles_content, moveStages_iterate, keep_keep, keep_zero]
  rfl

end

/-! ### Cycles in the translator -/

/-- The stages after `n` cycles: the pending writes enter in the first one. -/
def advance (c : Content) : ℕ → Stages (BitVec 64)
  | 0 => c.stages
  | n + 1 => updatePipeline .reset n (updatePipeline c.decoder 1 c.stages)

theorem stallEntry_reset : stallEntry .reset = 0 := by decide

theorem updatePipeline_reset (n : ℕ) (s : Stages (BitVec 64)) :
    updatePipeline .reset (n + 4) s = ⟨0, 0, 0, 0⟩ := by
  have hpush : ∀ s : Stages (BitVec 64), updatePipeline .reset (n + 4) s =
      updatePipeline .reset n ⟨0, 0, 0, 0⟩ := by
    intro s
    simp only [updatePipeline, Stages.push, stallEntry_reset]
  have hzero : ∀ n, updatePipeline .reset n ⟨0, 0, 0, 0⟩ = ⟨0, 0, 0, 0⟩ := by
    intro n
    induction n with
    | zero => rfl
    | succ n ih => rw [updatePipeline, stallEntry_reset]; exact ih
  rw [hpush, hzero]

/-- The snapshot is that of the translator after the same cycles. -/
structure Agrees (vu : VectorUnit) (c : Content) (d : DecodedRegs) (n : ℕ) : Prop where
  stages : (later vu c d n).stages = advance c n
  q : (later vu c d n).qPipeDelay = c.qPipeDelay - n
  p : (later vu c d n).pPipeDelay = c.pPipeDelay - n
  branch : (later vu c d n).branchDelaySlot = c.branchDelaySlot
  ebit : (later vu c d n).ebitDelaySlot = c.ebitDelaySlot

/-- The stages fit, or nothing is left in them that would have moved on. -/
def StagesKept (c : Content) : ℕ → Prop
  | 0 => c.stages.s0.toNat < 2 ^ 23 ∧ c.stages.s1.toNat < 2 ^ 23 ∧ c.stages.s2.toNat < 2 ^ 18 ∧
      c.stages.s3.toNat < 2 ^ 23
  | n + 1 => c.stages.s2.toNat % 2 ^ 18 = 0 ∧ (n < 1 → c.stages.s2 = 0) ∧
      (n < 2 → c.stages.s1 = 0) ∧ (n < 3 → c.stages.s0 = 0) ∧ (n < 4 → stallEntry c.decoder = 0)

/-- The delays fit, or are over. -/
def DelaysKept (c : Content) (n : ℕ) : Prop :=
  (c.qPipeDelay < 16 ∨ c.qPipeDelay ≤ n) ∧ (c.pPipeDelay < 64 ∨ c.pPipeDelay ≤ n)

theorem keep_eq_zero {v : BitVec 64} : keep 18 v = 0 ↔ v.toNat % 2 ^ 18 = 0 := by
  rw [← BitVec.toNat_inj, toNat_keep (by omega)]
  rfl

theorem stages_agree_one (vu : VectorUnit) (c : Content) (d : DecodedRegs) :
    (later vu c d 1).stages = advance c 1 ↔ StagesKept c 1 := by
  obtain ⟨⟨s0, s1, s2, s3⟩, q, p, dec, branch, ebit⟩ := c
  rw [later_one]
  change (⟨keep 23 s1, keep 18 s2, keep 18 s2, 0⟩ : Stages (BitVec 64)) =
    ⟨stallEntry dec, s0, s1, s2⟩ ↔ _
  rw [Stages.mk.injEq, StagesKept]
  dsimp only
  constructor
  · rintro ⟨hw, h0, h1, h2⟩
    subst h2
    rw [keep_zero] at h0 h1
    subst h0 h1
    rw [keep_zero] at hw
    exact ⟨rfl, fun _ => rfl, fun _ => rfl, fun _ => rfl, fun _ => hw.symm⟩
  · rintro ⟨-, h2, h1, h0, hw⟩
    rw [h2 Nat.zero_lt_one, h1 (by decide), h0 (by decide), hw (by decide), keep_zero, keep_zero]
    exact ⟨rfl, rfl, rfl, rfl⟩

/-- From the second cycle on all stages hold what was in the third one. -/
theorem stages_agree_many (vu : VectorUnit) (c : Content) (d : DecodedRegs) (n : ℕ) :
    (later vu c d (n + 2)).stages = advance c (n + 2) ↔ StagesKept c (n + 2) := by
  obtain ⟨⟨s0, s1, s2, s3⟩, q, p, dec, branch, ebit⟩ := c
  rw [later_many, StagesKept]
  dsimp only
  rw [← keep_eq_zero]
  rcases n with _ | _ | _ | n
  · change (⟨keep 18 s2, keep 18 s2, keep 18 s2, 0⟩ : Stages (BitVec 64)) =
      ⟨stallEntry .reset, stallEntry dec, s0, s1⟩ ↔ _
    rw [stallEntry_reset, Stages.mk.injEq]
    constructor
    · rintro ⟨hk, hw, h0, h1⟩
      exact ⟨hk, by omega, fun _ => h1.symm, fun _ => h0.symm.trans hk, fun _ => hw.symm.trans hk⟩
    · rintro ⟨hk, -, h1, h0, hw⟩
      rw [hk, h1 (by omega), h0 (by omega), hw (by omega)]
      exact ⟨rfl, rfl, rfl, rfl⟩
  · change (⟨keep 18 s2, keep 18 s2, keep 18 s2, 0⟩ : Stages (BitVec 64)) =
      ⟨stallEntry .reset, stallEntry .reset, stallEntry dec, s0⟩ ↔ _
    rw [stallEntry_reset, Stages.mk.injEq]
    constructor
    · rintro ⟨hk, -, hw, h0⟩
      exact ⟨hk, by omega, by omega, fun _ => h0.symm, fun _ => hw.symm.trans hk⟩
    · rintro ⟨hk, -, -, h0, hw⟩
      rw [hk, h0 (by omega), hw (by omega)]
      exact ⟨rfl, rfl, rfl, rfl⟩
  · change (⟨keep 18 s2, keep 18 s2, keep 18 s2, 0⟩ : Stages (BitVec 64)) =
      ⟨stallEntry .reset, stallEntry .reset, stallEntry .reset, stallEntry dec⟩ ↔ _
    rw [stallEntry_reset, Stages.mk.injEq]
    constructor
    · rintro ⟨hk, -, -, hw⟩
      exact ⟨hk, by omega, by omega, by omega, fun _ => hw.symm⟩
    · rintro ⟨hk, -, -, -, hw⟩
      rw [hk, hw (by omega)]
      exact ⟨rfl, rfl, rfl, rfl⟩
  · rw [advance, updatePipeline_reset, Stages.mk.injEq]
    constructor
    · rintro ⟨hk, -, -, -⟩
      exact ⟨hk, by omega, by omega, by omega, by omega⟩
    · rintro ⟨hk, -⟩
      exact ⟨hk, hk, hk, rfl⟩

theorem stages_agree (vu : VectorUnit) (c : Content) (d : DecodedRegs) (n : ℕ) :
    (later vu c d n).stages = advance c n ↔ StagesKept c n := by
  rcases n with _ | _ | n
  · obtain ⟨⟨s0, s1, s2, s3⟩, q, p, dec, branch, ebit⟩ := c
    rw [later_zero, advance, Stages.mk.injEq]
    simp (disch := omega) only [keep_eq_self, StagesKept]
  · exact stages_agree_one vu c d
  · exact stages_agree_many vu c d n

/-- **A snapshot is that of the translator** if and only if its stages and delays fit, or nothing in
them would have moved on. -/
theorem snapshot_agrees (vu : VectorUnit) (c : Content) (d : DecodedRegs) (n : ℕ) :
    Agrees vu c d n ↔ StagesKept c n ∧ DelaysKept c n := by
  constructor
  · intro h
    have hq := h.q
    have hp := h.p
    rw [later_q] at hq
    rw [later_p] at hp
    refine ⟨(stages_agree vu c d n).mp h.stages, ?_, ?_⟩ <;> omega
  · rintro ⟨hs, hq, hp⟩
    refine ⟨(stages_agree vu c d n).mpr hs, ?_, ?_, later_branch vu c d n, later_ebit vu c d n⟩
    · rw [later_q]
      omega
    · rw [later_p]
      omega

/-! ### A snapshot at an XGKICK -/

/-- What the translator has: every stage is of a decoded pair, and the delays are in their range. -/
structure Produced (c : Content) : Prop where
  s0 : ∃ d, c.stages.s0 = stallEntry d
  s1 : ∃ d, c.stages.s1 = stallEntry d
  s2 : ∃ d, c.stages.s2 = stallEntry d
  s3 : ∃ d, c.stages.s3 = stallEntry d
  q : c.qPipeDelay < 16
  p : c.pPipeDelay < 64

/-- The pair before wrote all of `vf1`, and two cycles pass. -/
def writesVF1 : DecodedRegs :=
  { DecodedRegs.reset with vfWrite := halves 1 0, vfWriteField := halves 0xF 0 }

theorem stages_lost : ¬ ∀ vu c d n, Produced c → Agrees vu c d n := by
  intro h
  have hreset : (0 : BitVec 64) = stallEntry .reset := stallEntry_reset.symm
  have hp : Produced ⟨⟨stallEntry writesVF1, 0, 0, 0⟩, 0, 0, .reset, false, false⟩ :=
    ⟨⟨_, rfl⟩, ⟨_, hreset⟩, ⟨_, hreset⟩, ⟨_, hreset⟩, by decide, by decide⟩
  have hvu := h ⟨.reset, 0, ⟨0, 0, 0, 0⟩, 0, ⟨0, 0, 0, 0⟩, ⟨0, 0, 0, 0⟩, 0, 0, 0, 0, 0, 0, 0, 0, 0,
    false, 0, false, (0, 0)⟩ _ .reset 2 hp
  have hkept := (stages_agree _ _ _ _).mp hvu.stages
  exact absurd (hkept.2.2.2.1 (by decide)) (by decide)

end DobieStation.Vu.Snapshot
