import DobieStation.Vu.Cop2
import Mathlib.Tactic.Basic

/-! # When VU0 catches up

After four cycles without a new instruction the pipelines hold nothing that could still change, but for
the status pipe, which divisions fill for up to thirteen cycles. The shortcuts of `cop2_updatepipes`
take it for empty. -/

namespace DobieStation.Vu.FastForward

open DobieStation.Vu.Pipeline DobieStation.Vu.Cop2

variable {vu : VU0} {v w : VectorUnit} {i m n : ℕ}

/-! ### One cycle -/

theorem updateDIVEFUPipes_eq : updateDIVEFUPipes v = { v with
    DIVEventStarted := v.DIVEventStarted && !decide (v.finishDIVEvent ≤ v.cycleCount)
    Q := if v.DIVEventStarted ∧ v.finishDIVEvent ≤ v.cycleCount then v.newQInstance else v.Q
    EFUEventStarted := v.EFUEventStarted && !decide (v.finishEFUEvent ≤ v.cycleCount)
    P := if v.EFUEventStarted ∧ v.finishEFUEvent ≤ v.cycleCount then v.newPInstance else v.P } := by
  unfold updateDIVEFUPipes
  obtain ⟨⟩ := v
  rename_i started _ started' _
  cases started <;> cases started' <;> dsimp only <;> split_ifs <;> simp_all

/-- The status after the MAC flags of the last stage have changed from `x` to `y`. -/
def moved (x y : BitVec 64) (status : BitVec 32) : BitVec 32 :=
  if x.setWidth 16 = y.setWidth 16 then status else updateStatus y status

def applied (value status : BitVec 32) : BitVec 32 := (status &&& 0x3F) ||| (value &&& 0xFFF)

def decoderAt (i : ℕ) (d : DecodedRegs) : DecodedRegs := if 1 ≤ i then .reset else d

@[simp] theorem singleCycle_decoder : (singleCycle i vu).decoder = decoderAt i vu.decoder := by
  simp only [singleCycle, updateDIVEFUPipes_eq]
  rfl

@[simp] theorem singleCycle_newMACFlags : (singleCycle i vu).newMACFlags = vu.newMACFlags := by
  simp only [singleCycle, updateDIVEFUPipes_eq]
  rfl

@[simp] theorem singleCycle_MAC : (singleCycle i vu).MAC =
    vu.MAC.push (macEntry vu.newMACFlags (decoderAt i vu.decoder)) := by
  simp only [singleCycle, updateDIVEFUPipes_eq]
  rfl

@[simp] theorem singleCycle_clipFlags : (singleCycle i vu).clipFlags = vu.clipFlags := by
  simp only [singleCycle, updateDIVEFUPipes_eq]
  rfl

@[simp] theorem singleCycle_CLIP : (singleCycle i vu).CLIP = vu.CLIP.push vu.clipFlags := by
  simp only [singleCycle, updateDIVEFUPipes_eq]
  rfl

@[simp] theorem singleCycle_ILW : (singleCycle i vu).ILW =
    vu.ILW.push ((decoderAt i vu.decoder).viWriteFromLoad.setWidth 16) := by
  simp only [singleCycle, updateDIVEFUPipes_eq]
  rfl

@[simp] theorem singleCycle_statusPipe : (singleCycle i vu).statusPipe = vu.statusPipe - 1 := by
  simp only [singleCycle, updateDIVEFUPipes_eq]
  rfl

@[simp] theorem singleCycle_statusValue : (singleCycle i vu).statusValue = vu.statusValue := by
  simp only [singleCycle, updateDIVEFUPipes_eq]
  rfl

theorem singleCycle_status : (singleCycle i vu).status =
    if vu.statusPipe = 1 then applied vu.statusValue (moved vu.MAC.s3 vu.MAC.s2 vu.status)
    else moved vu.MAC.s3 vu.MAC.s2 vu.status := by
  simp only [singleCycle, updateDIVEFUPipes_eq]
  rfl

@[simp] theorem singleCycle_cycleCount : (singleCycle i vu).cycleCount = vu.cycleCount + 1 := by
  simp only [singleCycle, updateDIVEFUPipes_eq]
  rfl

@[simp] theorem singleCycle_DIVEventStarted : (singleCycle i vu).DIVEventStarted =
    (vu.DIVEventStarted && !decide (vu.finishDIVEvent ≤ vu.cycleCount + 1)) := by
  simp only [singleCycle, updateDIVEFUPipes_eq]
  rfl

@[simp] theorem singleCycle_EFUEventStarted : (singleCycle i vu).EFUEventStarted =
    (vu.EFUEventStarted && !decide (vu.finishEFUEvent ≤ vu.cycleCount + 1)) := by
  simp only [singleCycle, updateDIVEFUPipes_eq]
  rfl

@[simp] theorem singleCycle_finishDIVEvent :
    (singleCycle i vu).finishDIVEvent = vu.finishDIVEvent := by
  simp only [singleCycle, updateDIVEFUPipes_eq]
  rfl

@[simp] theorem singleCycle_finishEFUEvent :
    (singleCycle i vu).finishEFUEvent = vu.finishEFUEvent := by
  simp only [singleCycle, updateDIVEFUPipes_eq]
  rfl

theorem singleCycle_results (h : eventStarted vu = false) :
    (singleCycle i vu).Q = vu.Q ∧ (singleCycle i vu).P = vu.P := by
  simp only [eventStarted, Bool.or_eq_false_iff] at h
  simp only [singleCycle, updateDIVEFUPipes_eq]
  constructor
  · exact if_neg fun hd => by simp [updateMacPipeline, h.1] at hd
  · exact if_neg fun hd => by simp [updateMacPipeline, h.2] at hd

/-! ### Many cycles -/

theorem singleCycles_add : singleCycles i (m + n) vu = singleCycles (i + m) n (singleCycles i m vu) := by
  induction m generalizing i vu with
  | zero => rw [Nat.zero_add]; rfl
  | succ m ih =>
    rw [Nat.succ_add]
    simp only [singleCycles]
    rw [ih, Nat.add_right_comm, Nat.add_assoc]

theorem singleCycles_succ : singleCycles i (n + 1) vu = singleCycle (i + n) (singleCycles i n vu) :=
  singleCycles_add

theorem singleCycles_cycleCount : (singleCycles i n vu).cycleCount = vu.cycleCount + n := by
  induction n with
  | zero => rfl
  | succ n ih => rw [singleCycles_succ, singleCycle_cycleCount, ih, Nat.add_assoc]

/-- The cycles after which a started event is over: the first one ends what is overdue. -/
def remaining (started : Bool) (finish now : ℕ) : ℕ := if started then max 1 (finish - now) else 0

theorem remaining_step {started : Bool} {finish now : ℕ} :
    (decide (n < remaining started finish now) && !decide (finish ≤ now + n + 1)) =
      decide (n + 1 < remaining started finish now) := by
  cases started with
  | false => rfl
  | true =>
    simp only [remaining, if_true]
    rw [← decide_not, ← Bool.decide_and, decide_eq_decide]
    omega

theorem started_eq {started : Bool} {finish now : ℕ} :
    started = decide (0 < remaining started finish now) := by
  cases started with
  | false => rfl
  | true =>
    refine (decide_eq_true ?_).symm
    simp only [remaining, if_true]
    omega

theorem singleCycles_finish : (singleCycles i n vu).finishDIVEvent = vu.finishDIVEvent ∧
    (singleCycles i n vu).finishEFUEvent = vu.finishEFUEvent := by
  induction n with
  | zero => exact ⟨rfl, rfl⟩
  | succ n ih => simpa [singleCycles_succ] using ih

theorem singleCycles_DIVEventStarted : (singleCycles i n vu).DIVEventStarted =
    decide (n < remaining vu.DIVEventStarted vu.finishDIVEvent vu.cycleCount) := by
  induction n with
  | zero => exact started_eq
  | succ n ih =>
    rw [singleCycles_succ, singleCycle_DIVEventStarted, ih, singleCycles_finish.1,
      singleCycles_cycleCount, remaining_step]

theorem singleCycles_EFUEventStarted : (singleCycles i n vu).EFUEventStarted =
    decide (n < remaining vu.EFUEventStarted vu.finishEFUEvent vu.cycleCount) := by
  induction n with
  | zero => exact started_eq
  | succ n ih =>
    rw [singleCycles_succ, singleCycle_EFUEventStarted, ih, singleCycles_finish.2,
      singleCycles_cycleCount, remaining_step]

/-- The cycles after which `cop2_updatepipes` takes the pipelines for drained. -/
def drain (vu : VU0) : ℕ :=
  if eventStarted vu then
    max 5 (max (remaining vu.DIVEventStarted vu.finishDIVEvent vu.cycleCount)
      (remaining vu.EFUEventStarted vu.finishEFUEvent vu.cycleCount))
  else 4

/-- No event is started any more, from the cycle on in which the last one is over. -/
theorem singleCycles_eventStarted (hn : 4 < n) :
    eventStarted (singleCycles i n vu) = decide (n < drain vu) := by
  rw [eventStarted, singleCycles_DIVEventStarted, singleCycles_EFUEventStarted, ← Bool.decide_or,
    decide_eq_decide]
  by_cases hs : eventStarted vu
  · rw [drain, if_pos hs]
    omega
  · rw [drain, if_neg hs]
    simp only [eventStarted, Bool.or_eq_true, not_or, Bool.not_eq_true] at hs
    simp only [remaining, hs.1, hs.2]
    simp only [Bool.false_eq_true, if_false]
    omega

/-! ### Nothing but the status pipe is left -/

structure Calm (v : VectorUnit) : Prop where
  decoder : v.decoder = .reset
  s0 : v.MAC.s0 = macEntry v.newMACFlags .reset
  s1 : v.MAC.s1 = macEntry v.newMACFlags .reset
  s2 : v.MAC.s2 = macEntry v.newMACFlags .reset
  s3 : v.MAC.s3.setWidth 16 = v.newMACFlags
  CLIP : v.CLIP = ⟨v.clipFlags, v.clipFlags, v.clipFlags, v.clipFlags⟩
  ILW : v.ILW.s0 = 0 ∧ v.ILW.s1 = 0 ∧ v.ILW.s2 = 0

theorem macEntry_flags (flags : BitVec 16) (d : DecodedRegs) :
    (macEntry flags d).setWidth 16 = flags := by
  rw [BitVec.setWidth_eq_extractLsb' (by decide)]
  simp (disch := omega) only [macEntry, BitVec.extractLsb'_or, extract_field_self,
    extract_field_apart, BitVec.or_zero, BitVec.setWidth_eq]

@[simp] theorem decoderAt_zero (d : DecodedRegs) : decoderAt 0 d = d := rfl

@[simp] theorem decoderAt_succ (d : DecodedRegs) : decoderAt (i + 1) d = .reset :=
  if_pos (Nat.le_add_left 1 i)

theorem decoderAt_reset : decoderAt i .reset = .reset := ite_self _

theorem reset_load : DecodedRegs.reset.viWriteFromLoad.setWidth 16 = (0 : BitVec 16) := rfl

theorem moved_self {x y : BitVec 64} (h : x.setWidth 16 = y.setWidth 16) (status : BitVec 32) :
    moved x y status = status :=
  if_pos h

/-- From then on, only the status pipe goes on. -/
theorem Calm.singleCycle (h : Calm vu.toVectorUnit) : Calm (singleCycle i vu).toVectorUnit where
  decoder := by rw [singleCycle_decoder, h.decoder, decoderAt_reset]
  s0 := by simp [h.decoder, decoderAt_reset]
  s1 := by simp [h.s0]
  s2 := by simp [h.s1]
  s3 := by simp [h.s2, macEntry_flags]
  CLIP := by simp [h.CLIP, Stages.push]
  ILW := by simp only [singleCycle_ILW, Stages.push, h.decoder, decoderAt_reset, h.ILW, reset_load, and_self]

theorem Calm.status (h : Calm vu.toVectorUnit) : (Cop2.singleCycle i vu).status =
    if vu.statusPipe = 1 then applied vu.statusValue vu.status else vu.status := by
  rw [singleCycle_status, moved_self (by rw [h.s3, h.s2, macEntry_flags])]

theorem Calm.singleCycles (h : Calm vu.toVectorUnit) : Calm (singleCycles i n vu).toVectorUnit := by
  induction n with
  | zero => exact h
  | succ n ih =>
    rw [singleCycles_succ]
    exact ih.singleCycle

theorem four_calm : Calm (singleCycles 0 4 vu).toVectorUnit where
  decoder := by simp [Cop2.singleCycles]
  s0 := by simp [Cop2.singleCycles]
  s1 := by simp [Cop2.singleCycles]
  s2 := by simp [Cop2.singleCycles]
  s3 := by simp [Cop2.singleCycles, macEntry_flags]
  CLIP := by simp [Cop2.singleCycles, Stages.push]
  ILW := by simp [Cop2.singleCycles, DecodedRegs.reset]

theorem singleCycles_calm (hn : 4 ≤ n) : Calm (singleCycles 0 n vu).toVectorUnit := by
  obtain ⟨m, rfl⟩ := Nat.exists_eq_add_of_le hn
  rw [singleCycles_add]
  exact four_calm.singleCycles

theorem singleCycles_status : (singleCycles i n vu).statusPipe = vu.statusPipe - n ∧
    (singleCycles i n vu).statusValue = vu.statusValue := by
  induction n with
  | zero => exact ⟨rfl, rfl⟩
  | succ n ih =>
    rw [singleCycles_succ, singleCycle_statusPipe, singleCycle_statusValue, ih.1, ih.2]
    exact ⟨Nat.sub_sub _ _ _, rfl⟩

theorem Calm.status_run (h : Calm vu.toVectorUnit) : (Cop2.singleCycles i n vu).status =
    if 0 < vu.statusPipe ∧ vu.statusPipe ≤ n then applied vu.statusValue vu.status
    else vu.status := by
  induction n with
  | zero => exact (if_neg fun h => by omega).symm
  | succ n ih =>
    rw [singleCycles_succ, h.singleCycles.status, ih, singleCycles_status.1, singleCycles_status.2]
    by_cases hlate : vu.statusPipe - n = 1
    · rw [if_pos hlate, if_neg (by omega), if_pos (by omega)]
    · rw [if_neg hlate]
      exact if_congr (by omega) rfl rfl

/-- What is visible of a calm state. -/
theorem Calm.visible (h : Calm vu.toVectorUnit) : visible vu =
    { MACFlags := vu.newMACFlags
      CLIPFlags := vu.clipFlags
      status := vu.status
      Q := vu.Q
      P := vu.P
      writes := List.replicate 3 ((macEntry vu.newMACFlags .reset).extractLsb' 16 48)
      loads := List.replicate 3 0 } := by
  simp [Cop2.visible, h.s0, h.s1, h.s2, h.s3, h.CLIP, h.ILW, List.replicate]

theorem singleCycles_flags : (singleCycles i n vu).newMACFlags = vu.newMACFlags ∧
    (singleCycles i n vu).clipFlags = vu.clipFlags := by
  induction n with
  | zero => exact ⟨rfl, rfl⟩
  | succ n ih => simpa [singleCycles_succ] using ih

theorem idle_step (h : eventStarted vu = false) : eventStarted (singleCycle i vu) = false := by
  simp only [eventStarted, Bool.or_eq_false_iff] at h ⊢
  simp [h.1, h.2]

theorem singleCycles_results (h : eventStarted vu = false) :
    (singleCycles i n vu).Q = vu.Q ∧ (singleCycles i n vu).P = vu.P := by
  suffices heq : eventStarted (singleCycles i n vu) = false ∧
      (singleCycles i n vu).Q = vu.Q ∧ (singleCycles i n vu).P = vu.P from heq.2
  induction n with
  | zero => exact ⟨h, rfl, rfl⟩
  | succ n ih =>
    obtain ⟨hidle, hQ, hP⟩ := ih
    obtain ⟨hQ', hP'⟩ := singleCycle_results (i := i + n) hidle
    rw [singleCycles_succ, hQ', hP']
    exact ⟨idle_step hidle, hQ, hP⟩

/-- The status pipe is empty, still busy at the end, or holds what is there already. -/
theorem Calm.visible_run (h : Calm vu.toVectorUnit) (hidle : eventStarted vu = false) :
    Cop2.visible vu = Cop2.visible (Cop2.singleCycles i n vu) ↔
      vu.statusPipe = 0 ∨ n < vu.statusPipe ∨ applied vu.statusValue vu.status = vu.status := by
  obtain ⟨hQ, hP⟩ := singleCycles_results (i := i) (n := n) hidle
  rw [h.visible, h.singleCycles.visible, singleCycles_flags.1, singleCycles_flags.2, hQ, hP,
    h.status_run]
  by_cases hlate : 0 < vu.statusPipe ∧ vu.statusPipe ≤ n
  · rw [if_pos hlate]
    simp only [Visible.mk.injEq, true_and, and_true]
    constructor
    · exact fun h => Or.inr (Or.inr h.symm)
    · rintro (h | h | h)
      · omega
      · omega
      · exact h.symm
  · rw [if_neg hlate]
    exact iff_of_true rfl (by omega)

/-! ### The loop stops early -/

theorem cop2Loop_eq {ee k : ℕ} (hk : k ≤ max 5 (drain vu)) :
    cop2Loop ee k n (Cop2.singleCycles 0 k vu) =
      if max 5 (drain vu) < k + n then
        { Cop2.singleCycles 0 (max 5 (drain vu)) vu with cycleCount := ee }
      else Cop2.singleCycles 0 (k + n) vu := by
  induction n generalizing k with
  | zero =>
    rw [if_neg (by omega)]
    rfl
  | succ n ih =>
    have hstop : 4 < k ∧ (!eventStarted (Cop2.singleCycles 0 k vu)) = true ↔ k = max 5 (drain vu) := by
      by_cases h4 : 4 < k
      · rw [singleCycles_eventStarted h4]
        simp only [Bool.not_eq_true', decide_eq_false_iff_not, h4, true_and]
        omega
      · refine iff_of_false (fun h => h4 h.1) (by omega)
    rw [cop2Loop]
    by_cases hlast : k = max 5 (drain vu)
    · rw [if_pos (hstop.mpr hlast), ← hlast, if_pos (by omega)]
    · have hnext : singleCycle k (Cop2.singleCycles 0 k vu) = Cop2.singleCycles 0 (k + 1) vu := by
        rw [singleCycles_succ, Nat.zero_add]
      rw [if_neg (mt hstop.mp hlast), hnext, ih (by omega), Nat.add_right_comm, Nat.add_assoc]

/-! ### All cycles at once -/

/-- Agreement on what the MAC flags and the status are computed from. -/
structure FlagsAgree (v w : VectorUnit) : Prop where
  newMACFlags : v.newMACFlags = w.newMACFlags
  s0 : v.MAC.s0.setWidth 16 = w.MAC.s0.setWidth 16
  s1 : v.MAC.s1.setWidth 16 = w.MAC.s1.setWidth 16
  s2 : v.MAC.s2.setWidth 16 = w.MAC.s2.setWidth 16
  s3 : v.MAC.s3.setWidth 16 = w.MAC.s3.setWidth 16
  status : v.status = w.status
  statusPipe : v.statusPipe = w.statusPipe
  statusValue : v.statusValue = w.statusValue

theorem and_low (x : BitVec 64) (m : BitVec 16) :
    x &&& m.setWidth 64 = (x.setWidth 16 &&& m).setWidth 64 := by
  ext i hi
  by_cases h16 : i < 16
  · simp [hi, h16]
  · simp [hi, BitVec.getLsbD_of_ge m i (by omega)]

theorem updateStatus_congr {x y : BitVec 64} (h : x.setWidth 16 = y.setWidth 16)
    (status : BitVec 32) : updateStatus x status = updateStatus y status := by
  have hand (m : BitVec 16) : x &&& m.setWidth 64 = y &&& m.setWidth 64 := by
    rw [and_low, and_low, h]
  unfold updateStatus
  rw [show x &&& 0x000F = y &&& 0x000F from hand 0x000F, show x &&& 0x00F0 = y &&& 0x00F0 from hand 0x00F0,
    show x &&& 0x0F00 = y &&& 0x0F00 from hand 0x0F00, show x &&& 0xF000 = y &&& 0xF000 from hand 0xF000]

theorem moved_congr {x x' y y' : BitVec 64} (hx : x.setWidth 16 = x'.setWidth 16)
    (hy : y.setWidth 16 = y'.setWidth 16) (status : BitVec 32) :
    moved x y status = moved x' y' status := by
  rw [moved, moved, hx, hy, updateStatus_congr hy]

theorem updateMacPipeline_status : (updateMacPipeline v).status =
    if v.statusPipe = 1 then applied v.statusValue (moved v.MAC.s3 v.MAC.s2 v.status)
    else moved v.MAC.s3 v.MAC.s2 v.status := rfl

theorem FlagsAgree.step (h : FlagsAgree v vu.toVectorUnit) :
    FlagsAgree (updateMacPipeline v) (singleCycle i vu).toVectorUnit where
  newMACFlags := h.newMACFlags.trans singleCycle_newMACFlags.symm
  s0 := by
    rw [singleCycle_MAC, Stages.push_s0, macEntry_flags]
    exact (macEntry_flags _ _).trans h.newMACFlags
  s1 := by rw [singleCycle_MAC]; exact h.s0
  s2 := by rw [singleCycle_MAC]; exact h.s1
  s3 := by rw [singleCycle_MAC]; exact h.s2
  status := by
    rw [singleCycle_status, updateMacPipeline_status, h.statusPipe, h.statusValue,
      moved_congr h.s3 h.s2, h.status]
  statusPipe := by
    rw [singleCycle_statusPipe, ← h.statusPipe]
    rfl
  statusValue := h.statusValue.trans singleCycle_statusValue.symm

theorem flushPipes_flags (ee : ℕ) : FlagsAgree
    (flushPipes { vu with cycleCount := ee }).toVectorUnit (Cop2.singleCycles 0 4 vu).toVectorUnit := by
  have h : FlagsAgree { vu.toVectorUnit with cycleCount := ee, decoder := .reset } vu.toVectorUnit :=
    ⟨rfl, rfl, rfl, rfl, rfl, rfl, rfl, rfl⟩
  obtain ⟨hflags, h0, h1, h2, h3, hs, hp, hv⟩ :=
    (((h.step (i := 0)).step (i := 1)).step (i := 2)).step (i := 3)
  exact ⟨hflags, h0, h1, h2, h3, hs, hp, hv⟩

theorem flushPipes_visible (ee : ℕ) : visible (flushPipes { vu with cycleCount := ee }) =
    { visible (Cop2.singleCycles 0 4 vu) with Q := vu.newQInstance, P := vu.newPInstance } := by
  have hstatus : (flushPipes { vu with cycleCount := ee }).status = _ := (flushPipes_flags ee).status
  rw [four_calm.visible, ← hstatus, singleCycles_flags.1, singleCycles_flags.2]
  have hflags := macEntry_flags vu.newMACFlags .reset
  simp only [Cop2.visible, Visible.mk.injEq, true_and]
  exact ⟨hflags, rfl, rfl, rfl, rfl, rfl⟩

/-! ### The exact condition -/

/-- The status once the MAC flags have come through. -/
def settledStatus (vu : VU0) : BitVec 32 :=
  moved vu.MAC.s0 (macEntry vu.newMACFlags vu.decoder)
    (moved vu.MAC.s1 vu.MAC.s0 (moved vu.MAC.s2 vu.MAC.s1 (moved vu.MAC.s3 vu.MAC.s2 vu.status)))

theorem four_status (h : 4 < vu.statusPipe) :
    (Cop2.singleCycles 0 4 vu).status = settledStatus vu := by
  have h1 : vu.statusPipe ≠ 1 := by omega
  have h2 : vu.statusPipe - 1 ≠ 1 := by omega
  have h3 : vu.statusPipe - 1 - 1 ≠ 1 := by omega
  have h4 : vu.statusPipe - 1 - 1 - 1 ≠ 1 := by omega
  simp only [Cop2.singleCycles, singleCycle_status, singleCycle_statusPipe, singleCycle_MAC,
    singleCycle_newMACFlags, Stages.push, if_neg h1, if_neg h2, if_neg h3, if_neg h4]
  rfl

theorem singleCycles_settled (hn : 4 ≤ n) (h : n < vu.statusPipe) :
    (Cop2.singleCycles 0 n vu).status = settledStatus vu := by
  obtain ⟨m, rfl⟩ := Nat.exists_eq_add_of_le hn
  rw [singleCycles_add, four_calm.status_run, singleCycles_status.1, if_neg (by omega),
    four_status (by omega)]

/-- The `int` that `cop2_updatepipes` counts `n` cycles with. -/
def counted (n : ℕ) : ℤ := (BitVec.ofNat 32 n).toInt

structure Fits (vu : VU0) (n : ℕ) : Prop where
  counts : counted n = n ∨ if eventStarted vu then (drain vu : ℤ) < counted n else 4 ≤ counted n
  results : eventStarted vu = false → 4 ≤ counted n →
    vu.Q = vu.newQInstance ∧ vu.P = vu.newPInstance
  status : vu.statusPipe ≤ drain vu ∨ n < vu.statusPipe ∨
    applied vu.statusValue (settledStatus vu) = settledStatus vu

theorem elapsed_add : elapsed (vu.cycleCount + n) vu = counted n := by
  have hdiff : ((vu.cycleCount + n : ℕ) : ℤ) - vu.cycleCount = n := by omega
  rw [elapsed, counted, hdiff, BitVec.ofInt_natCast]

theorem counted_le : counted n ≤ n := by
  have hle : (BitVec.ofNat 32 n).toNat ≤ n := by
    rw [BitVec.toNat_ofNat]
    exact Nat.mod_le _ _
  have hint := BitVec.toInt_eq_toNat_cond (BitVec.ofNat 32 n)
  rw [counted, hint]
  split_ifs
  · exact_mod_cast hle
  · omega

theorem idle_run (h : eventStarted vu = false) :
    eventStarted (Cop2.singleCycles i n vu) = false := by
  induction n with
  | zero => exact h
  | succ n ih =>
    rw [singleCycles_succ]
    exact idle_step ih

/-- After `k` cycles of which the last `m` are skipped, only the status pipe can be missed. -/
theorem skip_agrees {k : ℕ} (hk : 4 ≤ k) (hidle : eventStarted (Cop2.singleCycles 0 k vu) = false) :
    visible (Cop2.singleCycles 0 k vu) = visible (Cop2.singleCycles 0 (k + m) vu) ↔
      vu.statusPipe ≤ k ∨ k + m < vu.statusPipe ∨
        applied vu.statusValue (settledStatus vu) = settledStatus vu := by
  rw [singleCycles_add, (singleCycles_calm hk).visible_run hidle, singleCycles_status.1,
    singleCycles_status.2]
  by_cases hlate : vu.statusPipe ≤ k
  · exact iff_of_true (Or.inl (by omega)) (Or.inl hlate)
  · rw [singleCycles_settled hk (by omega)]
    constructor
    · rintro (h | h | h)
      · omega
      · exact Or.inr (Or.inl (by omega))
      · exact Or.inr (Or.inr h)
    · rintro (h | h | h)
      · omega
      · exact Or.inr (Or.inl (by omega))
      · exact Or.inr (Or.inr h)

/-- All cycles at once, for `n ≥ 4` cycles without a started event. -/
theorem flush_agrees (hidle : eventStarted vu = false) (hn : 4 ≤ n) (ee : ℕ) :
    visible (flushPipes { vu with cycleCount := ee }) = visible (Cop2.singleCycles 0 n vu) ↔
      (vu.Q = vu.newQInstance ∧ vu.P = vu.newPInstance) ∧
        (vu.statusPipe ≤ 4 ∨ n < vu.statusPipe ∨
          applied vu.statusValue (settledStatus vu) = settledStatus vu) := by
  obtain ⟨m, rfl⟩ := Nat.exists_eq_add_of_le hn
  obtain ⟨hQ, hP⟩ := singleCycles_results (i := 0) (n := 4 + m) hidle
  obtain ⟨hQ', hP'⟩ := singleCycles_results (i := 0) (n := 4) hidle
  have hskip := skip_agrees (m := m) (Nat.le_refl 4) (idle_run (i := 0) (n := 4) hidle)
  rw [flushPipes_visible, ← hskip]
  constructor
  · intro h
    have hQeq : vu.newQInstance = vu.Q := (congrArg Visible.Q h).trans hQ
    have hPeq : vu.newPInstance = vu.P := (congrArg Visible.P h).trans hP
    refine ⟨⟨hQeq.symm, hPeq.symm⟩, Eq.trans ?_ h⟩
    rw [hQeq, hPeq, ← hQ', ← hP']
    rfl
  · rintro ⟨⟨hQeq, hPeq⟩, h⟩
    rw [← h, ← hQeq, ← hPeq, ← hQ', ← hP']
    rfl

/-- The loop, for as many cycles as `cop2_updatepipes` counts. -/
theorem loop_agrees {c : ℕ} (hc : c ≤ n) (hpath : ¬ (4 ≤ c ∧ eventStarted vu = false)) :
    ((cop2Loop (vu.cycleCount + n) 0 c vu).cycleCount = vu.cycleCount + n ∧
        visible (cop2Loop (vu.cycleCount + n) 0 c vu) = visible (Cop2.singleCycles 0 n vu)) ↔
      (c = n ∨ eventStarted vu = true ∧ drain vu < c) ∧
        (vu.statusPipe ≤ drain vu ∨ n < vu.statusPipe ∨
          applied vu.statusValue (settledStatus vu) = settledStatus vu) := by
  have hloop : cop2Loop (vu.cycleCount + n) 0 c (Cop2.singleCycles 0 0 vu) = _ :=
    cop2Loop_eq (Nat.zero_le _)
  rw [show Cop2.singleCycles 0 0 vu = vu from rfl, Nat.zero_add] at hloop
  have hdrain : eventStarted vu = true → 5 ≤ drain vu := by
    intro hs
    rw [drain, if_pos hs]
    exact Nat.le_max_left _ _
  have hidle : eventStarted vu = false → drain vu = 4 := by
    intro hs
    rw [drain, if_neg (by simp [hs])]
  by_cases hearly : max 5 (drain vu) < c
  · have hs : eventStarted vu = true := by
      by_contra hs
      exact hpath ⟨by omega, by simpa using hs⟩
    have hmax : max 5 (drain vu) = drain vu := Nat.max_eq_right (hdrain hs)
    rw [hmax] at hloop hearly
    rw [hloop, if_pos hearly]
    obtain ⟨m, rfl⟩ := Nat.exists_eq_add_of_le (hearly.le.trans hc)
    have hover : eventStarted (Cop2.singleCycles 0 (drain vu) vu) = false := by
      rw [singleCycles_eventStarted (by have := hdrain hs; omega)]
      exact decide_eq_false (Nat.lt_irrefl _)
    rw [← skip_agrees (by have := hdrain hs; omega) hover]
    exact and_congr (iff_of_true rfl (Or.inr ⟨hs, hearly⟩)) Iff.rfl
  · rw [hloop, if_neg hearly, singleCycles_cycleCount, Nat.add_left_cancel_iff]
    have hcount : c = n ↔ c = n ∨ eventStarted vu = true ∧ drain vu < c := by
      refine ⟨Or.inl, fun h => h.resolve_right fun ⟨hs, hlt⟩ => ?_⟩
      have := hdrain hs
      omega
    rw [← hcount]
    refine and_congr_right fun heq => ?_
    subst heq
    refine iff_of_true rfl ?_
    have hle : c ≤ drain vu := by
      cases hs : eventStarted vu with
      | true =>
        have := hdrain hs
        omega
      | false =>
        have := hidle hs
        have : ¬ 4 ≤ c := fun h => hpath ⟨h, hs⟩
        omega
    omega

/-- No cycle is counted: the counter is right only if none has passed. -/
theorem fits_of_none (h : ¬ 0 < counted n) : Fits vu n ↔ n = 0 := by
  constructor
  · rintro ⟨hcounts, -, -⟩
    rcases hcounts with heq | hlt
    · omega
    · split_ifs at hlt <;> omega
  · rintro rfl
    refine ⟨Or.inl rfl, fun _ h4 => absurd h4 (by omega), ?_⟩
    rcases Nat.eq_zero_or_pos vu.statusPipe with hp | hp
    · exact Or.inl (by omega)
    · exact Or.inr (Or.inl hp)

/-- `cop2_updatepipes` catches up exactly in these states. -/
theorem catchesUp_iff (vu : VU0) (n : ℕ) : CatchesUp vu n ↔ Fits vu n := by
  have hsplit : CatchesUp vu n ↔
      (cop2Updatepipes (vu.cycleCount + n) vu).cycleCount = vu.cycleCount + n ∧
      visible (cop2Updatepipes (vu.cycleCount + n) vu) = visible (Cop2.singleCycles 0 n vu) :=
    ⟨fun h => ⟨h.1, h.2⟩, fun h => ⟨h.1, h.2⟩⟩
  have hle := counted_le (n := n)
  rw [hsplit, cop2Updatepipes, elapsed_add]
  by_cases hpos : 0 < counted n
  · rw [if_pos hpos]
    by_cases hflush : 4 ≤ counted n ∧ (!eventStarted vu) = true
    · have hidle : eventStarted vu = false := by simpa using hflush.2
      have hn : 4 ≤ n := by omega
      have hdrain : drain vu = 4 := by rw [drain, if_neg (by simp [hidle])]
      rw [if_pos hflush]
      constructor
      · rintro ⟨-, hvisible⟩
        obtain ⟨hresults, hstatus⟩ := (flush_agrees hidle hn _).mp hvisible
        refine ⟨Or.inr ?_, fun _ _ => hresults, hdrain.symm ▸ hstatus⟩
        rw [if_neg (by simp [hidle])]
        exact hflush.1
      · rintro ⟨-, hresults, hstatus⟩
        exact ⟨rfl, (flush_agrees hidle hn _).mpr ⟨hresults hidle hflush.1, hdrain ▸ hstatus⟩⟩
    · obtain ⟨c, hc⟩ := Int.eq_ofNat_of_zero_le hpos.le
      have hpath : ¬ (4 ≤ c ∧ eventStarted vu = false) := by
        rintro ⟨h4, hs⟩
        exact hflush ⟨by omega, by simp [hs]⟩
      rw [if_neg hflush, hc, Int.toNat_natCast, loop_agrees (by omega) hpath]
      constructor
      · rintro ⟨hcounts, hstatus⟩
        refine ⟨?_, fun hs h4 => absurd ⟨by omega, hs⟩ hpath, hstatus⟩
        rcases hcounts with rfl | ⟨hs, hlt⟩
        · exact Or.inl hc
        · refine Or.inr ?_
          rw [if_pos hs]
          omega
      · rintro ⟨hcounts, -, hstatus⟩
        refine ⟨?_, hstatus⟩
        rcases hcounts with heq | hlt
        · exact Or.inl (by omega)
        · split_ifs at hlt with hs
          · exact Or.inr ⟨hs, by omega⟩
          · exact absurd ⟨by omega, by simpa using hs⟩ hpath
  · rw [if_neg hpos, fits_of_none hpos]
    constructor
    · rintro ⟨hcycles, -⟩
      omega
    · rintro rfl
      exact ⟨rfl, rfl⟩

/-! ### A status that comes too late

A program ends with RSQRT by zero: `flush_pipes` ends the division, but the status pipe is left with
nine cycles to go. -/

def idle : VU0 where
  decoder := .reset
  newMACFlags := 0
  MAC := ⟨0, 0, 0, 0⟩
  clipFlags := 0
  CLIP := ⟨0, 0, 0, 0⟩
  ILW := ⟨0, 0, 0, 0⟩
  status := 0
  statusPipe := 0
  statusValue := 0
  Q := 0
  P := 0
  newQInstance := 0
  newPInstance := 0
  cycleCount := 0
  finishDIVEvent := 0
  DIVEventStarted := false
  finishEFUEvent := 0
  EFUEventStarted := false
  pipelineState := (0, 0)
  intBranchPipeline := { pipeline := fun _ => .cleared, next := .cleared }

/-- What `rsqrt` leaves for a denominator of zero. -/
def rsqrtByZero (vu : VU0) : VU0 :=
  { vu with
    statusValue := 0x20
    statusPipe := 13
    newQInstance := 0x7F7FFFFF
    finishDIVEvent := vu.cycleCount + 13
    DIVEventStarted := true }

theorem not_catchesUp : ¬ ∀ vu n, CatchesUp vu n := by
  intro h
  have hvisible := (h (flushPipes (rsqrtByZero idle)) 10).visible
  have hleft : (visible (cop2Updatepipes 10 (flushPipes (rsqrtByZero idle)))).status = 0 := by decide
  have hright : (visible (singleCycles 0 10 (flushPipes (rsqrtByZero idle)))).status = 0x20 := by
    decide
  exact absurd (hleft.symm.trans ((congrArg Visible.status hvisible).trans hright)) (by decide)

end DobieStation.Vu.FastForward
