import DobieStation.EeJit.Allocation
import DobieStation.EeJit.Integer

/-! # What the code of one instruction computes

The code between the allocations of an instruction gives one register of the host its value and changes no
other (`Gives`), also where two operands are in the same register. -/

namespace DobieStation.EeJit.Integer

open DobieStation.Lib.Staged DobieStation.EeJit.Host DobieStation.EeJit.RegisterCache

/-! ### Words -/

section
variable (a b : BitVec 64)

theorem word_setWidth (v : BitVec 32) : word (v.setWidth 64) = v := by
  unfold word
  rw [BitVec.setWidth_setWidth_of_le _ (by decide), BitVec.setWidth_eq]

theorem word_extend (v : BitVec 32) : word (extend v) = v := by
  unfold word extend
  ext i hi
  simp only [BitVec.getElem_setWidth, BitVec.getLsbD_signExtend, BitVec.getLsbD_eq_getElem hi, hi,
    if_pos, decide_eq_true (Nat.lt_trans hi (by decide : 32 < 64)), Bool.true_and]

theorem word_add : word (a + b) = word a + word b := BitVec.setWidth_add a b (by decide)

theorem word_sub : word (a - b) = word a - word b := by
  unfold word
  rw [BitVec.sub_eq_add_neg, BitVec.sub_eq_add_neg, BitVec.setWidth_add _ _ (by decide),
    BitVec.setWidth_neg_of_le (by decide)]

/-- A part of a register is combined with a mask, and the rest stays. -/
theorem low_or (n : ℕ) (imm : BitVec n) :
    (a &&& ~~~(BitVec.allOnes n).setWidth 64) ||| ((a.setWidth n ||| imm).setWidth 64) =
      a ||| imm.setWidth 64 := by
  ext i hi
  by_cases h : i < n <;> simp [h, hi]

theorem low_xor (n : ℕ) (imm : BitVec n) :
    (a &&& ~~~(BitVec.allOnes n).setWidth 64) ||| ((a.setWidth n ^^^ imm).setWidth 64) =
      a ^^^ imm.setWidth 64 := by
  ext i hi
  by_cases h : i < n
  · simp [h, hi]
  · simp [h, hi, BitVec.getLsbD_of_ge imm i (Nat.le_of_not_lt h)]

/-- A part of a register that is written is read again. -/
theorem low_setLow (n : ℕ) (hn : n ≤ 64) (v : BitVec n) :
    ((a &&& ~~~(BitVec.allOnes n).setWidth 64) ||| v.setWidth 64).setWidth n = v := by
  ext i hi
  simp [hi]
  omega

end

/-! ### Straight code -/

/-- The code gives `d` the value `v`, and changes no other register. -/
def Gives (code : List Instr) (m : Machine) (d : REG_64) (v : BitVec 64) : Prop :=
  ∃ m', run exec 0 code m = some m' ∧ OnlySets m d v m'

section
variable {m : Machine} {s t d : REG_64} {a b : BitVec 64}

theorem Gives.cons {i : Instr} {code : List Instr} {m₁ : Machine} {u v : BitVec 64}
    (h : exec i m = some (m₁, 0)) (h₁ : OnlySets m d u m₁) (hrest : Gives code m₁ d v) :
    Gives (i :: code) m d v := by
  obtain ⟨m', hrun, h'⟩ := hrest
  refine ⟨m', ?_, h'.here, fun i hi => (h'.regs i hi).trans (h₁.regs i hi), h'.mem.trans h₁.mem⟩
  rw [run, h]
  exact hrun

theorem Gives.last {i : Instr} {m₁ : Machine} {v : BitVec 64} (h : exec i m = some (m₁, 0))
    (h₁ : OnlySets m d v m₁) : Gives [i] m d v :=
  ⟨m₁, by rw [run, h]; rfl, h₁⟩

theorem gives_of {i : Instr} {v : BitVec 64} (h : exec i m = some (m.set d v, 0)) : Gives [i] m d v :=
  Gives.last h (onlySets_set v)

theorem gives_of_clobber {i : Instr} {v : BitVec 64} (h : exec i m = some ((m.set d v).clobber, 0)) :
    Gives [i] m d v :=
  Gives.last h (onlySets_clobber v)

theorem gives_extend (hs : word (m.regs s) = word a) :
    Gives [.MOVSX32_TO_64 s d] m d (extend (word a)) := by
  rw [← hs]
  exact gives_of rfl

/-- A word is computed, and extended in the end. -/
theorem gives_word {i : Instr} {m₁ : Machine} {u v : BitVec 64}
    (h : exec i m = some (m₁, 0)) (h₁ : OnlySets m d u m₁) (hu : word u = word v) :
    Gives [i, .MOVSX32_TO_64 d d] m d (extend (word v)) :=
  Gives.cons h h₁ (gives_extend (by rw [h₁.here, hu]))

theorem gives_copy64 {code : List Instr} {v : BitVec 64} (hs : m.regs s = a)
    (h : ∀ m', m'.regs d = a → (∀ i, i ≠ d → m'.regs i = m.regs i) → Gives code m' d v) :
    Gives (copy64 s d ++ code) m d v := by
  unfold copy64
  by_cases hsd : s ≠ d
  · rw [if_pos hsd]
    have hset : OnlySets m d a (m.set d (m.regs s)) := hs ▸ onlySets_set _
    exact Gives.cons rfl hset (h _ hset.here hset.regs)
  · rw [if_neg hsd]
    rw [not_not] at hsd
    exact h m (hsd ▸ hs) fun _ _ => rfl

theorem gives_copy32 {code : List Instr} {v : BitVec 64} (hs : m.regs s = a)
    (h : ∀ m', word (m'.regs d) = word a → (∀ i, i ≠ d → m'.regs i = m.regs i) → Gives code m' d v) :
    Gives (copy32 s d ++ code) m d v := by
  unfold copy32
  by_cases hsd : s ≠ d
  · rw [if_pos hsd]
    have hset : OnlySets m d ((word a).setWidth 64) (m.set32 d (m.low 32 s)) := by
      rw [← hs]
      exact onlySets_set _
    exact Gives.cons rfl hset (h _ (by rw [hset.here, word_setWidth]) hset.regs)
  · rw [if_neg hsd]
    rw [not_not] at hsd
    exact h m (by rw [← hsd, hs]) fun _ _ => rfl

/-- Either operand may be in the register of the result. -/
theorem gives_combine {op : REG_64 → REG_64 → Instr} {f : BitVec 64 → BitVec 64 → BitVec 64}
    (hop : ∀ m s d, exec (op s d) m = some ((m.set d (f (m.regs d) (m.regs s))).clobber, 0))
    (hcomm : ∀ x y, f x y = f y x) (hs : m.regs s = a) (ht : m.regs t = b) :
    Gives (combine op s t d) m d (f a b) := by
  have hone : ∀ {m s x y}, m.regs d = x → m.regs s = y → Gives [op s d] m d (f x y) := by
    rintro m s _ _ rfl rfl
    exact gives_of_clobber (hop m s d)
  unfold combine
  by_cases hds : d = s
  · rw [if_pos hds]
    exact hone (hds ▸ hs) ht
  · rw [if_neg hds]
    by_cases hdt : d = t
    · rw [if_pos hdt, hcomm]
      exact hone (hdt ▸ ht) hs
    · rw [if_neg hdt]
      have hset : OnlySets m d a (m.set d (m.regs s)) := hs ▸ onlySets_set _
      exact Gives.cons rfl hset (hone hset.here ((hset.regs t (Ne.symm hdt)).trans ht))

/-! ### Comparisons -/

/-- The condition "less" of the host. -/
theorem holds_L : ConditionCode.holds (compare a b) .L = a.slt b := by
  have ha := a.toInt_lt
  have ha' := a.le_toInt
  have hb := b.toInt_lt
  have hb' := b.le_toInt
  change ((a - b).msb != BitVec.ssubOverflow a b) = _
  rw [BitVec.msb_eq_toInt, BitVec.slt_eq_decide, BitVec.toInt_sub, BitVec.ssubOverflow, Int.bmod_def,
    Bool.eq_iff_iff, bne_iff_ne, ne_eq, Bool.eq_iff_iff, Bool.or_eq_true]
  simp only [decide_eq_true_eq]
  omega

theorem holds_B : ConditionCode.holds (Host.compare a b) .B = a.ult b := rfl

/-- The register takes the truth of a comparison. -/
theorem gives_setOn {i : Instr} {f : Flags} {cc : ConditionCode}
    (h : exec i m = some (m.withFlags f, 0)) : Gives (setOn i cc d) m d (truth (cc.holds f)) := by
  have hflags : OnlySets m d (m.regs d) (m.withFlags f) := ⟨rfl, fun _ _ => rfl, rfl⟩
  have hset : OnlySets (m.withFlags f) d _ ((m.withFlags f).setLow 8 d ((BitVec.ofBool (cc.holds f)).setWidth 8)) :=
    onlySets_set _
  have hlow : Machine.low ((m.withFlags f).setLow 8 d ((BitVec.ofBool (cc.holds f)).setWidth 8)) 8 d =
      (BitVec.ofBool (cc.holds f)).setWidth 8 := by
    rw [Machine.low, hset.here]
    exact low_setLow _ 8 (by decide) _
  have htruth : ((BitVec.ofBool (cc.holds f)).setWidth 8).setWidth 64 = truth (cc.holds f) := by
    unfold truth
    cases cc.holds f <;> rfl
  refine Gives.cons h hflags (Gives.cons rfl hset ?_)
  rw [← htruth, ← hlow]
  exact gives_of rfl

/-! ### Shifts -/

theorem amount64_imm (v : BitVec 8) : amount64 (v.setWidth 64) = v.toNat % 64 := by
  unfold amount64
  rw [BitVec.toNat_setWidth, Nat.mod_eq_of_lt (v.isLt.trans (by decide))]

theorem amount32_imm (v : BitVec 8) : amount32 (v.setWidth 64) = v.toNat % 32 := by
  unfold amount32
  rw [BitVec.toNat_setWidth, Nat.mod_eq_of_lt (v.isLt.trans (by decide))]

/-- CL has the amount of a shift by a register, as far as a shift reads it. -/
def Amount (n : ℕ) (b : BitVec 64) (x : BitVec 8) : Prop := x.toNat % n = b.toNat % n

/-- The amount is moved to CL, and not masked. -/
theorem mask_nil {n : ℕ} (hn : n ∣ 256) (b : BitVec 64) (m : Machine) (h : m.low 8 .RCX = b.setWidth 8) :
    ∃ x m', run exec 0 [] m = some m' ∧ OnlySets m .RCX x m' ∧ Amount n b (m'.low 8 .RCX) := by
  refine ⟨m.regs .RCX, m, rfl, ⟨rfl, fun _ _ => rfl, rfl⟩, ?_⟩
  unfold Amount
  rw [h, BitVec.toNat_setWidth]
  exact Nat.mod_mod_of_dvd _ hn

/-- The amount is masked. -/
theorem mask_and (b : BitVec 64) (m : Machine) (h : m.low 8 .RCX = b.setWidth 8) :
    ∃ x m', run exec 0 [.AND8_REG_IMM 0x1F .RCX] m = some m' ∧ OnlySets m .RCX x m' ∧
      Amount 32 b (m'.low 8 .RCX) := by
  obtain ⟨m', hexec, hset⟩ : ∃ m', exec (.AND8_REG_IMM 0x1F .RCX) m = some (m', 0) ∧ OnlySets m .RCX _ m' :=
    ⟨_, rfl, onlySets_clobber _⟩
  refine ⟨_, m', (run_cons hexec).trans rfl, hset, ?_⟩
  have hand : ∀ x : BitVec 8, (x &&& (0x1F : BitVec 8)).toNat = x.toNat % 2 ^ 5 := fun x => by
    rw [BitVec.toNat_and]
    exact Nat.and_two_pow_sub_one_eq_mod _ 5
  unfold Amount
  rw [Machine.low, hset.here, low_setLow _ 8 (by decide), hand, h, BitVec.toNat_setWidth]
  omega

theorem amount64_CL {m₁ : Machine} (h : Amount 64 b (m.low 8 .RCX)) (hregs : m₁.regs .RCX = m.regs .RCX) :
    amount64 b = (m₁.low 8 .RCX).toNat % 64 := by
  rw [Machine.low, hregs]
  exact h.symm

theorem amount32_CL {m₁ : Machine} (h : Amount 32 b (m.low 8 .RCX)) (hregs : m₁.regs .RCX = m.regs .RCX) :
    amount32 b = (m₁.low 8 .RCX).toNat % 32 := by
  rw [Machine.low, hregs]
  exact h.symm

/-- A shift of 32 bits, that is extended. -/
theorem gives_shift32 {i : Instr} {F : BitVec 32 → ℕ → BitVec 32} {n k : ℕ}
    (hd : word (m.regs d) = word a) (hk : k = n)
    (h : exec i m = some ((m.set32 d (F (m.low 32 d) n)).clobber, 0)) :
    Gives [i, .MOVSX32_TO_64 d d] m d (extend (F (word a) k)) := by
  have hset : OnlySets m d ((F (m.low 32 d) n).setWidth 64) (m.set32 d (F (m.low 32 d) n)).clobber :=
    onlySets_clobber _
  refine Gives.cons h hset ?_
  have hv : word (Machine.regs (m.set32 d (F (m.low 32 d) n)).clobber d) = F (word a) k := by
    rw [hset.here, word_setWidth, hk, ← hd]
    rfl
  rw [← hv]
  exact gives_of rfl

/-! ### Every instruction with one result -/

theorem gives_and_imm (hs : m.regs s = a) (imm : BitVec 16) :
    Gives (copy64 s d ++ [.AND16_REG_IMM imm d, .MOVZX16_TO_64 d d]) m d (a &&& imm.setWidth 64) := by
  refine gives_copy64 hs fun m' hd _ => ?_
  have hset : OnlySets m' d _ (m'.setLow 16 d (m'.low 16 d &&& imm)).clobber :=
    onlySets_clobber _
  have hlow : Machine.low (m'.setLow 16 d (m'.low 16 d &&& imm)).clobber 16 d = a.setWidth 16 &&& imm := by
    rw [Machine.low, hset.here, low_setLow _ 16 (by decide), Machine.low, hd]
  have hand : (a.setWidth 16 &&& imm).setWidth 64 = a &&& imm.setWidth 64 := by
    ext i hi
    by_cases h : i < 16
    · simp [h, hi]
    · simp [h, hi, BitVec.getLsbD_of_ge imm i (Nat.le_of_not_lt h)]
  refine Gives.cons rfl hset ?_
  rw [← hand, ← hlow]
  exact gives_of rfl

theorem gives_or_imm (hs : m.regs s = a) (imm : BitVec 16) :
    Gives (copy64 s d ++ [.OR16_REG_IMM imm d]) m d (a ||| imm.setWidth 64) := by
  refine gives_copy64 hs fun m' hd _ => ?_
  rw [← hd, ← low_or]
  exact gives_of_clobber rfl

theorem gives_xor_imm (hs : m.regs s = a) (imm : BitVec 16) :
    Gives (copy64 s d ++ [.XOR16_REG_IMM imm d]) m d (a ^^^ imm.setWidth 64) := by
  refine gives_copy64 hs fun m' hd _ => ?_
  rw [← hd, ← low_xor]
  exact gives_of_clobber rfl

theorem Gives.append {code code' : List Instr} {u v : BitVec 64} (h : Gives code m d u)
    (h' : ∀ m', m'.regs d = u → Gives code' m' d v) : Gives (code ++ code') m d v := by
  obtain ⟨m₁, hrun, h₁⟩ := h
  obtain ⟨m₂, hrun', h₂⟩ := h' m₁ h₁.here
  exact ⟨m₂, (run_append hrun).trans hrun', h₂.here, fun i hi => (h₂.regs i hi).trans (h₁.regs i hi),
    h₂.mem.trans h₁.mem⟩

theorem gives_nor (hs : m.regs s = a) (ht : m.regs t = b) :
    Gives (combine .OR64_REG s t d ++ [.NOT64 d]) m d (~~~(a ||| b)) := by
  refine (gives_combine (fun _ _ _ => rfl) BitVec.or_comm hs ht).append fun m' hd => ?_
  rw [← hd]
  exact gives_of rfl

/-- A value is moved, or not, after a test. -/
theorem gives_conditional (cc : ConditionCode) {c : BitVec 64} (hs : m.regs s = a) (ht : m.regs t = b)
    (hd : m.regs d = c) :
    Gives [.TEST64_REG s s, .CMOVCC64_REG cc t d] m d (if cc.holds (test (a &&& a)) then b else c) := by
  obtain ⟨f, hf⟩ : ∃ f, f = test (a &&& a) := ⟨_, rfl⟩
  have htest : exec (.TEST64_REG s s) m = some (m.withFlags f, 0) := by
    rw [hf, ← hs]
    rfl
  have hmove : exec (.CMOVCC64_REG cc t d) (m.withFlags f) =
      some (if cc.holds f then (m.withFlags f).set d (m.regs t) else m.withFlags f, 0) := rfl
  refine Gives.cons htest ⟨rfl, fun _ _ => rfl, rfl⟩ (Gives.last hmove ?_)
  rw [← hf]
  by_cases h : cc.holds f = true
  · rw [if_pos h, if_pos h, ht]
    exact onlySets_set _
  · rw [if_neg h, if_neg h]
    exact ⟨hd, fun _ _ => rfl, rfl⟩

theorem holds_zero : ConditionCode.holds (test (a &&& a)) .E = decide (a = 0) := by
  change ((a &&& a) == 0) = _
  rw [BitVec.and_self]
  rfl

theorem gives_move_on_zero {c : BitVec 64} (hs : m.regs s = a) (ht : m.regs t = b) (hd : m.regs d = c) :
    Gives [.TEST64_REG s s, .CMOVCC64_REG .E t d] m d (if a = 0 then b else c) := by
  have h := gives_conditional .E hs ht hd
  simp only [holds_zero, decide_eq_true_eq] at h
  exact h

theorem gives_move_on_not_zero {c : BitVec 64} (hs : m.regs s = a) (ht : m.regs t = b)
    (hd : m.regs d = c) :
    Gives [.TEST64_REG s s, .CMOVCC64_REG .NE t d] m d (if a = 0 then c else b) := by
  have hne : ConditionCode.holds (test (a &&& a)) .NE = !decide (a = 0) := congrArg Bool.not holds_zero
  have h := gives_conditional .NE hs ht hd
  simp only [hne, Bool.not_eq_true', decide_eq_false_iff_not, ite_not] at h
  exact h

/-- The two forms of a difference: the second is negated. -/
theorem gives_sub_doubleword (hs : m.regs s = a) (ht : m.regs t = b) :
    Gives (if d = s then [.SUB64_REG t d]
      else if d = t then [.SUB64_REG s d, .NEG64 d]
      else [.MOV64_MR s d, .SUB64_REG t d]) m d (a - b) := by
  by_cases hds : d = s
  · rw [if_pos hds, ← hs, ← ht, ← hds]
    exact gives_of_clobber rfl
  · rw [if_neg hds]
    by_cases hdt : d = t
    · rw [if_pos hdt]
      have hset : OnlySets m d (b - a) (m.set d (m.regs d - m.regs s)).clobber := by
        rw [hdt, ht, hs]
        exact onlySets_clobber _
      refine Gives.cons rfl hset ?_
      have hneg : -(b - a) = a - b := by
        rw [BitVec.neg_sub, BitVec.add_comm, BitVec.sub_eq_add_neg]
      rw [← hneg, ← hset.here]
      exact gives_of_clobber rfl
    · rw [if_neg hdt]
      have hset : OnlySets m d a (m.set d (m.regs s)) := hs ▸ onlySets_set _
      refine Gives.cons rfl hset ?_
      rw [← ht, ← hset.regs t (Ne.symm hdt), ← hset.here]
      exact gives_of_clobber rfl

theorem gives_sub_word (hs : m.regs s = a) (ht : m.regs t = b) :
    Gives (if d = s then [.SUB32_REG t d, .MOVSX32_TO_64 d d]
      else if d = t then [.SUB32_REG s d, .NEG32 d, .MOVSX32_TO_64 d d]
      else [.MOV32_REG s d, .SUB32_REG t d, .MOVSX32_TO_64 d d]) m d (extend (word (a - b))) := by
  by_cases hds : d = s
  · rw [if_pos hds]
    refine gives_word rfl (onlySets_clobber _) ?_
    rw [word_setWidth, word_sub, ← hs, ← ht, ← hds]
    rfl
  · rw [if_neg hds]
    by_cases hdt : d = t
    · rw [if_pos hdt]
      have hset : OnlySets m d ((word b - word a).setWidth 64) (m.set32 d (m.low 32 d - m.low 32 s)).clobber := by
        rw [← hs, ← ht, ← hdt]
        exact onlySets_clobber _
      refine Gives.cons rfl hset (gives_word rfl (onlySets_clobber _) ?_)
      have hneg : -(word b - word a) = word a - word b := by
        rw [BitVec.neg_sub, BitVec.add_comm, BitVec.sub_eq_add_neg]
      rw [word_setWidth, word_sub, ← hneg, ← word_setWidth (word b - word a), ← hset.here]
      rfl
    · rw [if_neg hdt]
      have hset : OnlySets m d ((word a).setWidth 64) (m.set32 d (m.low 32 s)) := by
        rw [← hs]
        exact onlySets_set _
      refine Gives.cons rfl hset (gives_word rfl (onlySets_clobber _) ?_)
      rw [word_setWidth, word_sub, ← word_setWidth (word a), ← hset.here, ← ht,
        ← hset.regs t (Ne.symm hdt)]
      rfl

end

/-! ## Products and quotients on the host

The code for products and quotients leaves the two words of a product, or a quotient and a remainder, for LO
and HI. A quotient that the host has no result for is never asked for. -/

/-! ### The instructions of the host -/

section
variable {m : Machine} {a b : BitVec 32}

theorem extend_toInt (v : BitVec 32) : (extend v).toInt = v.toInt :=
  BitVec.toInt_signExtend_of_le (by decide)

theorem setWidth_toNat (v : BitVec 32) : (v.setWidth 64).toNat = v.toNat := by
  rw [BitVec.toNat_setWidth, Nat.mod_eq_of_lt (v.isLt.trans (by decide))]

/-- The quotient of two words without sign. -/
theorem divide_eq (hdx : m.low 32 .RDX = 0) (hax : m.low 32 .RAX = a) (hb : b ≠ 0) :
    divide m b = some (m.setPair (a / b) (a % b)) := by
  have hdividend : m.dividend = a.setWidth 64 := by
    rw [Machine.dividend, hdx, hax]
    apply BitVec.eq_of_toNat_eq
    rw [BitVec.toNat_append, setWidth_toNat]
    simp
  have hq : m.dividend / b.setWidth 64 = (a / b).setWidth 64 := by
    apply BitVec.eq_of_toNat_eq
    rw [hdividend, BitVec.toNat_udiv, setWidth_toNat, setWidth_toNat, setWidth_toNat, BitVec.toNat_udiv]
  have hr : m.dividend % b.setWidth 64 = (a % b).setWidth 64 := by
    apply BitVec.eq_of_toNat_eq
    rw [hdividend, BitVec.toNat_umod, setWidth_toNat, setWidth_toNat, setWidth_toNat, BitVec.toNat_umod]
  have hb' : b.setWidth 64 ≠ 0 := fun h => hb (by rw [← word_setWidth b, h]; rfl)
  have hw : ∀ v : BitVec 32, (v.setWidth 64).setWidth 32 = v := word_setWidth
  unfold divide
  simp only [hq, hr, hw]
  rw [if_neg (by rintro (h | h); exacts [hb' h, h rfl])]

/-- The quotient of two words with sign. -/
theorem divideSigned_eq (hdx : m.low 32 .RDX = a.sshiftRight 31) (hax : m.low 32 .RAX = a) (hb : b ≠ 0)
    (hover : a ≠ BitVec.intMin 32 ∨ b ≠ -1#32) :
    divideSigned m b = some (m.setPair (a.sdiv b) (a.srem b)) := by
  have hdividend : m.dividend = extend a := by
    rw [Machine.dividend, hdx, hax, extend]
    apply BitVec.eq_of_getLsbD_eq
    intro i hi
    rw [BitVec.getLsbD_append, BitVec.getLsbD_signExtend, BitVec.getLsbD_sshiftRight]
    by_cases h : i < 32
    · simp [h, Nat.lt_trans h (by decide : 32 < 64)]
    · have hlt : i - 32 < 32 := by omega
      by_cases h0 : i = 32
      · subst h0
        simp [BitVec.msb_eq_getLsbD_last]
      · have h31 : ¬ 31 + (i - 32) < 32 := by omega
        simp [h, h31, hi, Nat.not_le.mpr hlt]
  have hmin : extend a ≠ BitVec.intMin 64 := by
    intro h
    have h' := extend_toInt a
    rw [h] at h'
    have ha := a.le_toInt
    have hv : (BitVec.intMin 64).toInt = -9223372036854775808 := by decide
    omega
  have hq : m.dividend.sdiv (extend b) = extend (a.sdiv b) := by
    apply BitVec.eq_of_toInt_eq
    rw [hdividend, BitVec.toInt_sdiv_of_ne_or_ne _ _ (Or.inl hmin), extend_toInt, extend_toInt, extend_toInt,
      BitVec.toInt_sdiv_of_ne_or_ne _ _ hover]
  have hr : m.dividend.srem (extend b) = extend (a.srem b) := by
    apply BitVec.eq_of_toInt_eq
    rw [hdividend, BitVec.toInt_srem, extend_toInt, extend_toInt, extend_toInt, BitVec.toInt_srem]
  have hb' : extend b ≠ 0 := fun h => hb (by rw [← word_extend b, h]; rfl)
  have hw : ∀ v : BitVec 32, (extend v).setWidth 32 = v := word_extend
  change (if extend b = 0 ∨ ((m.dividend.sdiv (extend b)).setWidth 32).signExtend 64 ≠
      m.dividend.sdiv (extend b) then none else some (m.setPair ((m.dividend.sdiv (extend b)).setWidth 32)
        ((m.dividend.srem (extend b)).setWidth 32))) = _
  rw [hq, hr, hw, hw, if_neg (by rintro (h | h); exacts [hb' h, h rfl])]

end

/-! ### The code -/

/-- What the code of a product or a quotient leaves. -/
structure SetsPair (m : Machine) (lo' hi' : REG_64) (p : BitVec 64 × BitVec 64) (m' : Machine) : Prop where
  lo : m'.regs lo' = p.1
  hi : m'.regs hi' = p.2
  regs : ∀ i, i ≠ lo' → i ≠ hi' → i ≠ .RAX → i ≠ .RDX → m'.regs i = m.regs i
  mem : m'.mem = m.mem

/-- The registers of the host that the code works with are not in each other's way. -/
structure Apart (s t lo' hi' : REG_64) : Prop where
  source : s ≠ .RAX ∧ s ≠ .RDX
  source2 : t ≠ .RAX ∧ t ≠ .RDX
  lo : lo' ≠ .RAX ∧ lo' ≠ .RDX
  hi : hi' ≠ .RAX ∧ hi' ≠ .RDX
  ne : lo' ≠ hi'

section
variable {m : Machine} {a b : BitVec 64} {s t lo' hi' : REG_64}

theorem setPair_low (v w : BitVec 32) :
    (m.setPair v w).low 32 .RAX = v ∧ (m.setPair v w).low 32 .RDX = w := by
  have hdx : OnlySets (m.set32 .RAX v) .RDX (w.setWidth 64) (m.setPair v w) := onlySets_clobber _
  have hax : OnlySets m .RAX (v.setWidth 64) (m.set32 .RAX v) := onlySets_set _
  constructor
  · rw [Machine.low, hdx.regs _ (by decide), hax.here]
    exact word_setWidth v
  · rw [Machine.low, hdx.here]
    exact word_setWidth w

theorem setPair_regs (v w : BitVec 32) {i : REG_64} (hax : i ≠ .RAX) (hdx : i ≠ .RDX) :
    (m.setPair v w).regs i = m.regs i :=
  (m.set32 .RAX v).set_of_ne hdx _ |>.trans (m.set_of_ne hax _)

/-- The last two instructions: what is in RAX and RDX goes to LO and HI. -/
theorem run_loHi (hap : Apart s t lo' hi') (v w : BitVec 32) (code : List Instr) :
    ∃ m', run exec 0 (.MOVSX32_TO_64 .RAX lo' :: .MOVSX32_TO_64 .RDX hi' :: code) (m.setPair v w) =
      run exec 0 code m' ∧ SetsPair m lo' hi' (extend v, extend w) m' := by
  obtain ⟨hv, hw⟩ := setPair_low (m := m) v w
  have hlo : OnlySets (m.setPair v w) lo' (extend v) ((m.setPair v w).set lo' (extend v)) := onlySets_set _
  have hhi : OnlySets ((m.setPair v w).set lo' (extend v)) hi' (extend w)
      (((m.setPair v w).set lo' (extend v)).set hi' (extend w)) := onlySets_set _
  have h1 : exec (.MOVSX32_TO_64 .RAX lo') (m.setPair v w) =
      some ((m.setPair v w).set lo' (extend v), 0) := by
    change some ((m.setPair v w).set lo' (extend ((m.setPair v w).low 32 .RAX)), 0) = _
    rw [hv]
  have hw' : Machine.low ((m.setPair v w).set lo' (extend v)) 32 .RDX = w := by
    rw [Machine.low, hlo.regs _ hap.lo.2.symm]
    exact hw
  have h2 : exec (.MOVSX32_TO_64 .RDX hi') ((m.setPair v w).set lo' (extend v)) =
      some (((m.setPair v w).set lo' (extend v)).set hi' (extend w), 0) := by
    change some (((m.setPair v w).set lo' (extend v)).set hi'
      (extend (Machine.low ((m.setPair v w).set lo' (extend v)) 32 .RDX)), 0) = _
    rw [hw']
  refine ⟨_, (run_cons h1).trans (run_cons h2), ?_, hhi.here, fun i hil hih hax hdx => ?_, rfl⟩
  · exact (hhi.regs lo' hap.ne).trans hlo.here
  · exact (hhi.regs i hih).trans ((hlo.regs i hil).trans (setPair_regs v w hax hdx))

/-- What is true of the machine after RAX and RDX have been used. -/
theorem SetsPair.of_regs {m₁ m' : Machine} {p : BitVec 64 × BitVec 64} (h : SetsPair m₁ lo' hi' p m')
    (hregs : ∀ i, i ≠ .RAX → i ≠ .RDX → m₁.regs i = m.regs i) (hmem : m₁.mem = m.mem) :
    SetsPair m lo' hi' p m' :=
  ⟨h.lo, h.hi, fun i h1 h2 h3 h4 => (h.regs i h1 h2 h3 h4).trans (hregs i h3 h4), h.mem.trans hmem⟩

/-- **Products.** -/
theorem run_multiply {op : REG_64 → Instr} {f : BitVec 32 → BitVec 32 → BitVec 64}
    (hop : ∀ m t, exec (op t) m = some (Host.multiply m (f (m.low 32 .RAX) (m.low 32 t)), 0))
    (hap : Apart s t lo' hi') (hs : m.regs s = a) (ht : m.regs t = b) :
    ∃ m', run exec 0 [.MOVSX32_TO_64 s .RAX, op t, .MOVSX32_TO_64 .RAX lo', .MOVSX32_TO_64 .RDX hi'] m =
      some m' ∧ SetsPair m lo' hi' (halves (f (word a) (word b))) m' := by
  have hset : OnlySets m .RAX (extend (word a)) (m.set .RAX (extend (word a))) := onlySets_set _
  have hmov : exec (.MOVSX32_TO_64 s .RAX) m = some (m.set .RAX (extend (word a)), 0) := by
    rw [← hs]
    rfl
  generalize m.set .RAX (extend (word a)) = m₁ at hset hmov
  have hmul : exec (op t) m₁ = some (Host.multiply m₁ (f (word a) (word b)), 0) := by
    rw [hop, Machine.low, hset.here, Machine.low, hset.regs t hap.source2.1, ht]
    change some (Host.multiply m₁ (f (word (extend (word a))) (word b)), 0) = _
    rw [word_extend]
  obtain ⟨m', hrun, hp⟩ := run_loHi (m := m₁) hap
    ((f (word a) (word b)).extractLsb' 0 32) ((f (word a) (word b)).extractLsb' 32 32) []
  refine ⟨m', ((run_cons hmov).trans (run_cons hmul)).trans hrun, ?_⟩
  exact hp.of_regs (fun i hax _ => hset.regs i hax) hset.mem

/-! ### Quotients -/

/-- A conditional jump after a test. -/
theorem run_jumped {f : Flags} {cc : ConditionCode} {n : ℕ} {code : List Instr} (h : cc.holds f = true) :
    run exec 0 (.JCC_NEAR_DEFERRED cc n :: code) (m.withFlags f) = run exec n code (m.withFlags f) := by
  refine run_cons ?_
  change some (m.withFlags f, if cc.holds f then n else 0) = _
  rw [if_pos h]

theorem run_not_jumped {f : Flags} {cc : ConditionCode} {n : ℕ} {code : List Instr}
    (h : cc.holds f = false) :
    run exec 0 (.JCC_NEAR_DEFERRED cc n :: code) (m.withFlags f) = run exec 0 code (m.withFlags f) := by
  refine run_cons ?_
  change some (m.withFlags f, if cc.holds f then n else 0) = _
  rw [h]
  rfl

theorem test_zero (v : BitVec 32) : ConditionCode.holds (test (v &&& v)) .E = decide (v = 0) := by
  change ((v &&& v) == 0) = _
  rw [BitVec.and_self]
  rfl

/-- LO and HI are written one after the other. -/
theorem setsPair_of {m₁ m₂ : Machine} {v w : BitVec 64} (hne : lo' ≠ hi') (h₁ : OnlySets m hi' w m₁)
    (h₂ : OnlySets m₁ lo' v m₂) : SetsPair m lo' hi' (v, w) m₂ :=
  ⟨h₂.here, (h₂.regs hi' hne.symm).trans h₁.here,
    fun i hil hih _ _ => (h₂.regs i hil).trans (h₁.regs i hih), h₂.mem.trans h₁.mem⟩

/-- **Quotients without sign.** -/
theorem run_divide_unsigned (hap : Apart s t lo' hi') (hs : m.regs s = a) (ht : m.regs t = b) :
    ∃ m', run exec 0 ([.TEST32_REG t t, .JCC_NEAR_DEFERRED .E 6,
        .MOV32_REG s .RAX, .XOR32_REG .RDX .RDX, .DIV32 t,
        .MOVSX32_TO_64 .RAX lo', .MOVSX32_TO_64 .RDX hi', .JMP_NEAR_DEFERRED 2] ++
        [.MOVSX32_TO_64 s hi', .MOV64_OI (-1) lo']) m = some m' ∧
      SetsPair m lo' hi' (quotientUnsigned (word a) (word b)) m' := by
  obtain ⟨f, hf⟩ : ∃ f, f = test (word b &&& word b) := ⟨_, rfl⟩
  have htest : exec (.TEST32_REG t t) m = some (m.withFlags f, 0) := by
    rw [hf, ← ht]
    rfl
  have hzero : ConditionCode.holds f .E = decide (word b = 0) := hf ▸ test_zero _
  unfold quotientUnsigned
  by_cases hb : word b = 0
  · rw [if_pos hb]
    rw [decide_eq_true hb] at hzero
    have h₁ : OnlySets (m.withFlags f) hi' (extend (word a)) ((m.withFlags f).set hi' (extend (word a))) :=
      onlySets_set _
    have hmov : exec (.MOVSX32_TO_64 s hi') (m.withFlags f) =
        some ((m.withFlags f).set hi' (extend (word a)), 0) := by
      rw [← hs]
      rfl
    exact ⟨_, (run_cons htest).trans ((run_jumped hzero).trans ((run_cons hmov).trans rfl)),
      setsPair_of (m := m) hap.ne ⟨h₁.here, h₁.regs, h₁.mem⟩ (onlySets_set _)⟩
  · rw [if_neg hb]
    rw [decide_eq_false hb] at hzero
    obtain ⟨m₁, hmov, h₁⟩ : ∃ m₁, exec (.MOV32_REG s .RAX) (m.withFlags f) = some (m₁, 0) ∧
        OnlySets (m.withFlags f) .RAX ((word a).setWidth 64) m₁ := by
      rw [← hs]
      exact ⟨_, rfl, onlySets_set _⟩
    obtain ⟨m₂, hxor, h₂⟩ : ∃ m₂, exec (.XOR32_REG .RDX .RDX) m₁ = some (m₂, 0) ∧
        OnlySets m₁ .RDX ((0#32).setWidth 64) m₂ := by
      rw [← BitVec.xor_self (x := m₁.low 32 .RDX)]
      exact ⟨_, rfl, onlySets_clobber _⟩
    have hregs : ∀ i, i ≠ .RAX → i ≠ .RDX → m₂.regs i = m.regs i := fun i hax hdx =>
      (h₂.regs i hdx).trans (h₁.regs i hax)
    have hdx : m₂.low 32 .RDX = 0 := by rw [Machine.low, h₂.here]; rfl
    have hax : m₂.low 32 .RAX = word a := by
      rw [Machine.low, h₂.regs _ (by decide), h₁.here]
      exact word_setWidth _
    have hdiv : exec (.DIV32 t) m₂ = some (m₂.setPair (word a / word b) (word a % word b), 0) := by
      have hb' : m₂.low 32 t = word b := by
        rw [Machine.low, hregs t hap.source2.1 hap.source2.2, ht]
        rfl
      change (divide m₂ (m₂.low 32 t)).bind _ = _
      rw [hb', divide_eq hdx hax hb]
      rfl
    obtain ⟨m', hrun, hp⟩ := run_loHi (m := m₂) hap (word a / word b) (word a % word b)
      [.JMP_NEAR_DEFERRED 2, .MOVSX32_TO_64 s hi', .MOV64_OI (-1) lo']
    exact ⟨m', (run_cons htest).trans ((run_not_jumped hzero).trans ((run_cons hmov).trans
      ((run_cons hxor).trans ((run_cons hdiv).trans hrun)))), hp.of_regs hregs (h₂.mem.trans h₁.mem)⟩

/-- Zero as the divisor: RAX has the quotient. -/
theorem gives_sign (hs : m.regs s = a) :
    Gives [.TEST32_REG s s, .SETCC_REG .L .RAX, .SHL8_REG_1 .RAX, .DEC8 .RAX, .MOVSX8_TO_64 .RAX .RAX] m
      .RAX (if (word a).slt 0 then 1 else -1) := by
  obtain ⟨f, hf⟩ : ∃ f, f = test (word a &&& word a) := ⟨_, rfl⟩
  have htest : exec (.TEST32_REG s s) m = some (m.withFlags f, 0) := by
    rw [hf, ← hs]
    rfl
  have hless : ConditionCode.holds f .L = (word a).slt 0 := by
    rw [hf]
    change ((word a &&& word a).msb != false) = _
    rw [BitVec.and_self, Bool.bne_false, BitVec.msb_eq_toInt, BitVec.slt_eq_decide]
    rfl
  -- the low byte of RAX is computed, and then extended
  have hbyte : ∀ (m : Machine) (v : BitVec 8), ∃ u, OnlySets m .RAX u (m.setLow 8 .RAX v) ∧
      u.setWidth 8 = v := fun m v => ⟨_, onlySets_set _, low_setLow _ 8 (by decide) v⟩
  obtain ⟨u₁, h₁, hu₁⟩ := hbyte (m.withFlags f) ((BitVec.ofBool (ConditionCode.holds f .L)).setWidth 8)
  generalize hm₁ : (m.withFlags f).setLow 8 .RAX _ = m₁ at h₁
  obtain ⟨u₂, h₂, hu₂⟩ := hbyte m₁ (m₁.low 8 .RAX <<< 1)
  generalize hm₂ : m₁.setLow 8 .RAX _ = m₂ at h₂
  obtain ⟨u₃, h₃, hu₃⟩ := hbyte m₂.clobber (m₂.low 8 .RAX - 1)
  generalize hm₃ : m₂.clobber.setLow 8 .RAX _ = m₃ at h₃
  have hval : (m₃.low 8 .RAX).signExtend 64 = if (word a).slt 0 then 1 else -1 := by
    rw [Machine.low, h₃.here, hu₃, Machine.low, h₂.here, hu₂, Machine.low, h₁.here, hu₁, hless]
    cases (word a).slt 0 <;> rfl
  rw [← hval]
  have hset : exec (.SETCC_REG .L .RAX) (m.withFlags f) = some (m₁, 0) := by
    rw [← hm₁]
    rfl
  have hshl : exec (.SHL8_REG_1 .RAX) m₁ = some (m₂.clobber, 0) := by
    rw [← hm₂]
    rfl
  have hdec : exec (.DEC8 .RAX) m₂.clobber = some (m₃.clobber, 0) := by
    rw [← hm₃]
    rfl
  exact Gives.cons htest ⟨rfl, fun _ _ => rfl, rfl⟩ (Gives.cons hset h₁ (Gives.cons hshl
    ⟨h₂.here, h₂.regs, h₂.mem⟩ (Gives.cons hdec ⟨h₃.here, h₃.regs, h₃.mem⟩ (gives_of rfl))))

/-- The part of the code after the case that the host has no result for. -/
theorem run_divide_rest (hap : Apart s t lo' hi') (hs : m.regs s = a) (ht : m.regs t = b)
    (hslo : s ≠ lo') (hext : word b = 0 → extend (word a) = a)
    (hover : word a ≠ BitVec.intMin 32 ∨ word b ≠ -1#32) :
    ∃ m', run exec 0 [.TEST32_REG t t, .JCC_NEAR_DEFERRED .E 6,
        .MOV32_REG s .RAX, .CDQ, .IDIV32 t,
        .MOVSX32_TO_64 .RAX lo', .MOVSX32_TO_64 .RDX hi', .JMP_NEAR_DEFERRED 8,
        .TEST32_REG s s, .SETCC_REG .L .RAX, .SHL8_REG_1 .RAX, .DEC8 .RAX,
        .MOVSX8_TO_64 .RAX .RAX, .MOVSX32_TO_64 s s,
        .MOVSX8_TO_64 .RAX lo', .MOVSX32_TO_64 s hi'] m = some m' ∧
      SetsPair m lo' hi' (quotient (word a) (word b)) m' := by
  obtain ⟨f, hf⟩ : ∃ f, f = test (word b &&& word b) := ⟨_, rfl⟩
  have htest : exec (.TEST32_REG t t) m = some (m.withFlags f, 0) := by
    rw [hf, ← ht]
    rfl
  have hzero : ConditionCode.holds f .E = decide (word b = 0) := hf ▸ test_zero _
  unfold quotient
  by_cases hb : word b = 0
  · rw [if_pos hb]
    rw [decide_eq_true hb] at hzero
    obtain ⟨q, hq⟩ : ∃ q : BitVec 64, q = if (word a).slt 0 then 1 else -1 := ⟨_, rfl⟩
    obtain ⟨m₁, hrun₁, h₁⟩ := gives_sign (m := m.withFlags f) hs
    rw [← hq] at h₁ ⊢
    have hs₁ : m₁.regs s = a := (h₁.regs s hap.source.1).trans hs
    -- the dividend stays as it is
    obtain ⟨m₂, hmov₂, h₂⟩ : ∃ m₂, exec (.MOVSX32_TO_64 s s) m₁ = some (m₂, 0) ∧ OnlySets m₁ s a m₂ := by
      have hv : (m₁.low 32 s).signExtend 64 = a := by
        rw [Machine.low, hs₁]
        exact hext hb
      rw [← hv]
      exact ⟨_, rfl, onlySets_set _⟩
    have hq₂ : m₂.regs .RAX = q := (h₂.regs _ hap.source.1.symm).trans h₁.here
    obtain ⟨m₃, hmov₃, h₃⟩ : ∃ m₃, exec (.MOVSX8_TO_64 .RAX lo') m₂ = some (m₃, 0) ∧
        OnlySets m₂ lo' q m₃ := by
      have hv : (m₂.low 8 .RAX).signExtend 64 = q := by
        rw [Machine.low, hq₂, hq]
        cases (word a).slt 0 <;> rfl
      rw [← hv]
      exact ⟨_, rfl, onlySets_set _⟩
    obtain ⟨m₄, hmov₄, h₄⟩ : ∃ m₄, exec (.MOVSX32_TO_64 s hi') m₃ = some (m₄, 0) ∧
        OnlySets m₃ hi' (extend (word a)) m₄ := by
      have hv : (m₃.low 32 s).signExtend 64 = extend (word a) := by
        rw [Machine.low, h₃.regs s hslo, h₂.here]
        rfl
      rw [← hv]
      exact ⟨_, rfl, onlySets_set _⟩
    refine ⟨m₄, (run_cons htest).trans ((run_jumped hzero).trans ((run_append hrun₁).trans
      ((run_cons hmov₂).trans ((run_cons hmov₃).trans (run_cons hmov₄))))), ?_⟩
    refine ⟨(h₄.regs lo' hap.ne).trans h₃.here, h₄.here, fun i hil hih hax _ => ?_, ?_⟩
    · rw [h₄.regs i hih, h₃.regs i hil]
      by_cases his : i = s
      · rw [his, h₂.here, hs]
      · rw [h₂.regs i his, h₁.regs i hax]
        rfl
    · exact h₄.mem.trans (h₃.mem.trans (h₂.mem.trans h₁.mem))
  · rw [if_neg hb]
    rw [decide_eq_false hb] at hzero
    obtain ⟨m₁, hmov, h₁⟩ : ∃ m₁, exec (.MOV32_REG s .RAX) (m.withFlags f) = some (m₁, 0) ∧
        OnlySets (m.withFlags f) .RAX ((word a).setWidth 64) m₁ := by
      rw [← hs]
      exact ⟨_, rfl, onlySets_set _⟩
    have hax₁ : m₁.low 32 .RAX = word a := by
      rw [Machine.low, h₁.here]
      exact word_setWidth _
    obtain ⟨m₂, hcdq, h₂⟩ : ∃ m₂, exec .CDQ m₁ = some (m₂, 0) ∧
        OnlySets m₁ .RDX (((word a).sshiftRight 31).setWidth 64) m₂ := by
      rw [← hax₁]
      exact ⟨_, rfl, onlySets_set _⟩
    have hregs : ∀ i, i ≠ .RAX → i ≠ .RDX → m₂.regs i = m.regs i := fun i hax hdx =>
      (h₂.regs i hdx).trans (h₁.regs i hax)
    have hdx : m₂.low 32 .RDX = (word a).sshiftRight 31 := by
      rw [Machine.low, h₂.here]
      exact word_setWidth _
    have hax : m₂.low 32 .RAX = word a := by
      rw [Machine.low, h₂.regs _ (by decide)]
      exact hax₁
    have hdiv : exec (.IDIV32 t) m₂ = some (m₂.setPair ((word a).sdiv (word b)) ((word a).srem (word b)), 0) := by
      have hb' : m₂.low 32 t = word b := by
        rw [Machine.low, hregs t hap.source2.1 hap.source2.2, ht]
        rfl
      change (divideSigned m₂ (m₂.low 32 t)).bind _ = _
      rw [hb', divideSigned_eq hdx hax hb hover]
      rfl
    obtain ⟨m', hrun, hp⟩ := run_loHi (m := m₂) hap ((word a).sdiv (word b)) ((word a).srem (word b))
      [.JMP_NEAR_DEFERRED 8,
        .TEST32_REG s s, .SETCC_REG .L .RAX, .SHL8_REG_1 .RAX, .DEC8 .RAX,
        .MOVSX8_TO_64 .RAX .RAX, .MOVSX32_TO_64 s s,
        .MOVSX8_TO_64 .RAX lo', .MOVSX32_TO_64 s hi']
    exact ⟨m', (run_cons htest).trans ((run_not_jumped hzero).trans ((run_cons hmov).trans
      ((run_cons hcdq).trans ((run_cons hdiv).trans hrun)))), hp.of_regs hregs (h₂.mem.trans h₁.mem)⟩

/-- **Quotients with sign.** The dividend is extended if the divisor is zero, and the register of the host
that holds it must not change by this. -/
theorem run_divide (hap : Apart s t lo' hi') (hs : m.regs s = a) (ht : m.regs t = b)
    (hslo : s ≠ lo') (hext : word b = 0 → extend (word a) = a) :
    ∃ m', run exec 0 [.CMP32_IMM 0x80000000 s, .JCC_NEAR_DEFERRED .NE 5,
        .CMP32_IMM 0xFFFFFFFF t, .JCC_NEAR_DEFERRED .NE 3,
        .MOV64_OI ((0x80000000 : BitVec 32).signExtend 64) lo', .MOV64_OI 0 hi', .JMP_NEAR_DEFERRED 16,
        .TEST32_REG t t, .JCC_NEAR_DEFERRED .E 6,
        .MOV32_REG s .RAX, .CDQ, .IDIV32 t,
        .MOVSX32_TO_64 .RAX lo', .MOVSX32_TO_64 .RDX hi', .JMP_NEAR_DEFERRED 8,
        .TEST32_REG s s, .SETCC_REG .L .RAX, .SHL8_REG_1 .RAX, .DEC8 .RAX,
        .MOVSX8_TO_64 .RAX .RAX, .MOVSX32_TO_64 s s,
        .MOVSX8_TO_64 .RAX lo', .MOVSX32_TO_64 s hi'] m = some m' ∧
      SetsPair m lo' hi' (quotient (word a) (word b)) m' := by
  obtain ⟨f, hf⟩ : ∃ f, f = Host.compare (word a) 0x80000000#32 := ⟨_, rfl⟩
  obtain ⟨f', hf'⟩ : ∃ f', f' = Host.compare (word b) 0xFFFFFFFF#32 := ⟨_, rfl⟩
  have hcmp : exec (.CMP32_IMM 0x80000000 s) m = some (m.withFlags f, 0) := by
    rw [hf, ← hs]
    rfl
  have hcmp' : exec (.CMP32_IMM 0xFFFFFFFF t) (m.withFlags f) = some (m.withFlags f', 0) := by
    rw [hf', ← ht]
    rfl
  have hne : ConditionCode.holds f .NE = decide (word a ≠ 0x80000000#32) := by
    rw [hf]
    change (!(word a == 0x80000000#32)) = _
    rw [decide_not]
    rfl
  have hne' : ConditionCode.holds f' .NE = decide (word b ≠ 0xFFFFFFFF#32) := by
    rw [hf']
    change (!(word b == 0xFFFFFFFF#32)) = _
    rw [decide_not]
    rfl
  by_cases ha : word a = 0x80000000#32
  · by_cases hb : word b = 0xFFFFFFFF#32
    · rw [decide_eq_false (not_not.mpr ha)] at hne
      rw [decide_eq_false (not_not.mpr hb)] at hne'
      have h₁ : OnlySets (m.withFlags f') lo' ((0x80000000 : BitVec 32).signExtend 64)
          ((m.withFlags f').set lo' ((0x80000000 : BitVec 32).signExtend 64)) := onlySets_set _
      have h₂ := onlySets_set (m := (m.withFlags f').set lo' ((0x80000000 : BitVec 32).signExtend 64))
        (d := hi') 0
      refine ⟨_, (run_cons hcmp).trans ((run_not_jumped hne).trans ((run_cons hcmp').trans
        ((run_not_jumped hne').trans rfl))), ?_⟩
      rw [ha, hb]
      exact ⟨(h₂.regs lo' hap.ne).trans h₁.here, h₂.here,
        fun i hil hih _ _ => (h₂.regs i hih).trans (h₁.regs i hil), rfl⟩
    · rw [decide_eq_false (not_not.mpr ha)] at hne
      rw [decide_eq_true hb] at hne'
      obtain ⟨m', hrun, hp⟩ := run_divide_rest (m := m.withFlags f') hap hs ht hslo hext (Or.inr hb)
      exact ⟨m', (run_cons hcmp).trans ((run_not_jumped hne).trans ((run_cons hcmp').trans
        ((run_jumped hne').trans hrun))), hp.lo, hp.hi, hp.regs, hp.mem⟩
  · rw [decide_eq_true ha] at hne
    obtain ⟨m', hrun, hp⟩ := run_divide_rest (m := m.withFlags f) hap hs ht hslo hext (Or.inl ha)
    exact ⟨m', (run_cons hcmp).trans ((run_jumped hne).trans hrun), hp.lo, hp.hi, hp.regs, hp.mem⟩

end

end DobieStation.EeJit.Integer
