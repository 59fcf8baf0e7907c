import DobieStation.Gs.Registers

/-! # Accesses of 32 bits to the privileged registers

`write32_privileged` decodes its address as the access of 64 bits does, without the bit that selects a half,
and `read32_privileged` shifts what it has already cut to 32 bits. So the lower halves are as they should be,
and the upper ones are not. -/

namespace DobieStation.Gs.Registers

/-- "reads from local copies only". The processor takes the number of places of a shift modulo 32. -/
def GSRegisters.read32Privileged (addr : BitVec 32) (r : GSRegisters) : BitVec 32 :=
  (r.read64Privileged (addr &&& ~~~0x4)).setWidth 32 >>> (32 * (addr.getLsbD 2).toNat % 32)

/-! ### Halves of the registers of 64 bits -/

/-- The half of a register that an address selects. -/
def GSRegisters.readHalf (addr : BitVec 32) (r : GSRegisters) : BitVec 32 :=
  (r.read64Privileged addr).extractLsb' (if addr.getLsbD 2 then 32 else 0) 32

/-- The fields in the lower half of the register are those of `old`. -/
def GSRegisters.keepLow (addr : BitVec 32) (old r : GSRegisters) : GSRegisters :=
  match addr &&& 0x13F0 with
  | 0x0070 => { r with DISPFB1 := { old.DISPFB1 with x := r.DISPFB1.x, y := r.DISPFB1.y } }
  | 0x0090 => { r with DISPFB2 := { old.DISPFB2 with x := r.DISPFB2.x, y := r.DISPFB2.y } }
  | 0x00E0 => { r with BGCOLOR := old.BGCOLOR }
  | 0x1010 => { r with IMR := old.IMR }
  | 0x1080 => { r with SIGLBLID := { r.SIGLBLID with sigId := old.SIGLBLID.sigId } }
  -- writing 0 acknowledges nothing in CSR
  | _ => r

/-- The fields in the upper half of the register are those of `old`. -/
def GSRegisters.keepHigh (addr : BitVec 32) (old r : GSRegisters) : GSRegisters :=
  match addr &&& 0x13F0 with
  | 0x0070 => { r with DISPFB1 := { r.DISPFB1 with x := old.DISPFB1.x, y := old.DISPFB1.y } }
  | 0x0090 => { r with DISPFB2 := { r.DISPFB2 with x := old.DISPFB2.x, y := old.DISPFB2.y } }
  | 0x1080 => { r with SIGLBLID := { r.SIGLBLID with lblId := old.SIGLBLID.lblId } }
  | _ => r

/-- A write of 64 bits that changes the half that an address selects. -/
def GSRegisters.writeHalf (addr value : BitVec 32) (r : GSRegisters) : Option GSRegisters :=
  if addr.getLsbD 2 then (r.write64Privileged addr (value.setWidth 64 <<< 32)).map (r.keepLow addr)
  else (r.write64Privileged addr (value.setWidth 64)).map (r.keepHigh addr)

/-- Accesses of 32 bits do not end the emulation. -/
def Accepted (addr : BitVec 32) : Prop := ∀ value r, (GSRegisters.write32Privileged addr value r).isSome

variable {addr value : BitVec 32} {r : GSRegisters}

theorem accepted_cases (h : Accepted addr) : addr &&& 0x13F0 = 0x0070 ∨ addr &&& 0x13F0 = 0x0090 ∨
    addr &&& 0x13F0 = 0x00E0 ∨ addr &&& 0x13F0 = 0x1000 ∨ addr &&& 0x13F0 = 0x1010 ∨
    addr &&& 0x13F0 = 0x1080 := by
  have hsome := h 0 zeroed
  unfold GSRegisters.write32Privileged at hsome
  split at hsome
  case h_1 h => exact Or.inl h
  case h_2 h => exact Or.inr (Or.inl h)
  case h_3 h => exact Or.inr (Or.inr (Or.inl h))
  case h_4 h => exact Or.inr (Or.inr (Or.inr (Or.inl h)))
  case h_5 h => exact Or.inr (Or.inr (Or.inr (Or.inr (Or.inl h))))
  case h_6 h => exact Or.inr (Or.inr (Or.inr (Or.inr (Or.inr h))))
  case h_7 => exact absurd hsome (by decide)

/-! ### Reads -/

theorem masked_clear : (addr &&& ~~~0x4) &&& 0x13F0 = addr &&& 0x13F0 := by
  rw [BitVec.and_assoc]
  rfl

theorem read64Privileged_clear : r.read64Privileged (addr &&& ~~~0x4) = r.read64Privileged addr := by
  unfold GSRegisters.read64Privileged
  rw [masked_clear]

/-- Both halves read as the lower one. -/
theorem read32Privileged_eq : r.read32Privileged addr = (r.read64Privileged addr).setWidth 32 := by
  unfold GSRegisters.read32Privileged
  rw [read64Privileged_clear]
  cases addr.getLsbD 2 <;> simp

/-- A register with 1 in its lower half, and CSR with something to acknowledge. -/
def marked : GSRegisters :=
  { zeroed with
    CSR := { zeroed.CSR with FINISHGenerated := true }
    SIGLBLID := ⟨1, 0, 0⟩ }

theorem not_upper : (marked.read64Privileged addr).setWidth 32 ≠
    (marked.read64Privileged addr).extractLsb' 32 32 := by
  unfold GSRegisters.read64Privileged
  split <;> decide

theorem readHalf_iff : (∀ r : GSRegisters, r.read32Privileged addr = r.readHalf addr) ↔
    addr.getLsbD 2 = false := by
  constructor
  · intro h
    cases hbit : addr.getLsbD 2 with
    | false => rfl
    | true =>
      have hmarked := h marked
      rw [read32Privileged_eq, GSRegisters.readHalf, if_pos hbit] at hmarked
      exact absurd hmarked not_upper
  · intro h r
    rw [read32Privileged_eq, GSRegisters.readHalf, if_neg (Bool.not_eq_true _ ▸ h)]
    exact BitVec.setWidth_eq_extractLsb' (by decide)

/-! ### Writes -/

theorem extract_setWidth {start n : ℕ} (h : start + n ≤ 32) :
    (value.setWidth 64).extractLsb' start n = value.extractLsb' start n := by
  refine BitVec.eq_of_getLsbD_eq fun i hi => ?_
  rw [BitVec.getLsbD_extractLsb', BitVec.getLsbD_extractLsb', BitVec.getLsbD_setWidth]
  simp [show start + i < 64 by omega]

theorem bits_setWidth {start n m : ℕ} (h : start + n ≤ 32) :
    (bits (value.setWidth 64) start n : BitVec m) = bits value start n := by
  rw [bits, extract_setWidth h, bits]

theorem getLsbD_setWidth {i : ℕ} (h : i < 32) : (value.setWidth 64).getLsbD i = value.getLsbD i := by
  rw [BitVec.getLsbD_setWidth]
  simp [show i < 64 by omega]

theorem writeDISPFBLow_setWidth {d : DISPFB} : writeDISPFBLow (value.setWidth 64) d = writeDISPFBLow value d := by
  simp (disch := decide) only [writeDISPFBLow, extract_setWidth, bits_setWidth]

theorem writeCSR_setWidth : r.writeCSR (value.setWidth 64) = r.writeCSR value := by
  simp (disch := decide) only [GSRegisters.writeCSR, clearCSR, getLsbD_setWidth]

theorem writeIMR_setWidth : writeIMR (value.setWidth 64) = writeIMR value := by
  simp (disch := decide) only [writeIMR, getLsbD_setWidth]

/-- The lower half. -/
theorem write32Privileged_low (haccepted : Accepted addr) (hbit : addr.getLsbD 2 = false) :
    r.write32Privileged addr value = r.writeHalf addr value := by
  unfold GSRegisters.writeHalf GSRegisters.write32Privileged GSRegisters.write64Privileged
    GSRegisters.keepHigh
  rw [if_neg (Bool.not_eq_true _ ▸ hbit)]
  rcases accepted_cases haccepted with h | h | h | h | h | h <;>
    simp (disch := decide) only [h, writeDISPFB, writeDISPFBLow_setWidth, bits_setWidth, writeCSR_setWidth,
      writeIMR_setWidth]
  case inr.inr.inr.inr.inr =>
    have hbits : (bits value 0 32 : BitVec 32) = value := by simp [bits]
    rw [hbits]
    rfl
  all_goals rfl

/-- The upper half is written as if it were the lower one. -/
theorem not_write32Privileged_high (haccepted : Accepted addr) (hbit : addr.getLsbD 2 = true) :
    marked.write32Privileged addr 0x102 ≠ marked.writeHalf addr 0x102 := by
  unfold GSRegisters.writeHalf GSRegisters.write32Privileged GSRegisters.write64Privileged
    GSRegisters.keepLow
  rw [if_pos hbit]
  rcases accepted_cases haccepted with h | h | h | h | h | h <;> simp only [h] <;> decide

/-- **Accesses of 32 bits agree with those of 64 bits exactly in the lower halves.** -/
theorem halves_agree_iff :
    ((∀ r : GSRegisters, r.read32Privileged addr = r.readHalf addr) ↔ addr.getLsbD 2 = false) ∧
    (Accepted addr → ((∀ (r : GSRegisters) value, r.write32Privileged addr value = r.writeHalf addr value) ↔
      addr.getLsbD 2 = false)) := by
  refine ⟨readHalf_iff, fun haccepted => ⟨fun h => ?_, fun h r value => write32Privileged_low haccepted h⟩⟩
  cases hbit : addr.getLsbD 2 with
  | false => rfl
  | true => exact absurd (h marked 0x102) (not_write32Privileged_high haccepted hbit)

/-- DISPFB1. -/
theorem halves_agree_DISPFB1 : ∀ (r : GSRegisters) value,
    r.write32Privileged 0x12000070 value = r.writeHalf 0x12000070 value :=
  ((@halves_agree_iff 0x12000070).2 fun _ _ => rfl).mpr (by decide)

/-- The upper halves of DISPFB1 and of SIGLBLID. -/
theorem not_halves_agree : marked.write32Privileged 0x12000074 0x102 ≠ marked.writeHalf 0x12000074 0x102 ∧
    marked.read32Privileged 0x12001084 ≠ marked.readHalf 0x12001084 := by decide

end DobieStation.Gs.Registers
