import DobieStation.Ipu.Fifo
import Mathlib.Data.List.Induction

/-! # Reads of `IPU_TOP`

The translation of `read_top`, and when it and `get_bits` are defined (`GetBitsSafe`, `ReadTopSafe`). The cache is
the stream as long as `SETVQ` has not taken a quadword off under it (`Stale`, `getBits_coherent`). A read of
`IPU_TOP` needs one bit more: it is safe if and only if the stream is not empty (`readTop_exact_iff`). -/

namespace DobieStation.Ipu

open BitStrings FIFO

def maxBits (q : FIFO) : ℤ :=
  let maxBits : ℤ := q.f.length * 128 - q.bitPointer
  if maxBits > 32 then 32 else maxBits

/-- The count of a shift of 32 bits is taken modulo 32. -/
def readTop (stack : Quad) (commandDecoding : Bool) (q : FIFO) : DoubleWord × FIFO :=
  let r := q.getBits stack (maxBits q)
  let nextData := r.1.getD 0
  let reg := (nextData <<< ((32 - maxBits q) % 32).toNat).setWidth 64
  (reg ||| (if commandDecoding ∨ maxBits q < 32 then 1#64 <<< 63 else 0#64), r.2)

/-! ### What is defined -/

/-- A count that is less than the width of the operand. -/
def ShiftSafe (width count : ℤ) : Prop := 0 ≤ count ∧ count < width

instance (width count : ℤ) : Decidable (ShiftSafe width count) := by unfold ShiftSafe; infer_instance

/-- `get_bits` indexes a quadword that is there, and shifts by counts that are defined. -/
def GetBitsSafe (q : FIFO) (bits : ℤ) : Prop :=
  let bitsAvailable : ℤ := q.f.length * 128 - q.bitPointer
  (bitsAvailable < bits ∨ bitsAvailable = 0) ∨
    (q.bitCacheDirty → q.f ≠ []) ∧ ShiftSafe 64 (64 - (q.bitPointer % 32 : ℕ) - bits) ∧ ShiftSafe 64 (64 - bits)

instance (q : FIFO) (bits : ℤ) : Decidable (GetBitsSafe q bits) := by unfold GetBitsSafe; infer_instance

def ReadTopSafe (q : FIFO) : Prop := GetBitsSafe q (maxBits q) ∧ ShiftSafe 32 (32 - maxBits q)

instance (q : FIFO) : Decidable (ReadTopSafe q) := by unfold ReadTopSafe; infer_instance

theorem getBits_safe (q : FIFO) {n : ℕ} (hpos : 0 < n) (hn : n ≤ 32) : GetBitsSafe q n := by
  by_cases havailable : (q.f.length * 128 - q.bitPointer : ℤ) < n
  · exact Or.inl (Or.inl havailable)
  · refine Or.inr ⟨fun _ hempty => ?_, ?_, ?_⟩
    · rw [hempty, List.length_nil] at havailable
      omega
    · unfold ShiftSafe
      omega
    · unfold ShiftSafe
      omega

theorem maxBits_eq {q : FIFO} (h : q.bitPointer < q.f.length * 128) : maxBits q = (min 32 q.stream.length : ℕ) := by
  have hlength := stream_length q
  unfold maxBits
  dsimp only
  split <;> omega

/-- Without a bit in the stream the data is shifted by its width or more. -/
theorem readTop_safe_iff (q : FIFO) : ReadTopSafe q ↔ q.bitPointer < q.f.length * 128 := by
  constructor
  · rintro ⟨-, -, hshift⟩
    by_contra hempty
    have hmax : maxBits q = q.f.length * 128 - q.bitPointer := if_neg (by omega)
    omega
  · intro h
    have hlength := stream_length q
    rw [ReadTopSafe, maxBits_eq h]
    refine ⟨getBits_safe q (by omega) (by omega), ?_⟩
    unfold ShiftSafe
    omega

/-- The next bits of the stream, at most 32, on the left. The uppermost bit is set if there are fewer. -/
def Exact (stack : Quad) (commandDecoding : Bool) (q : FIFO) : Prop :=
  let r := readTop stack commandDecoding q
  let n := min 32 q.stream.length
  r.1 = (BitVec.ofNat 32 (value (q.stream.take n) * 2 ^ (32 - n))).setWidth 64 |||
      (if commandDecoding ∨ q.stream.length < 32 then 1#64 <<< 63 else 0#64) ∧
    r.2.stream = q.stream

theorem FIFO.Coherent.exact (stack : Quad) (commandDecoding : Bool) {q : FIFO} (h : q.Coherent)
    (hbit : q.bitPointer < q.f.length * 128) : Exact stack commandDecoding q := by
  have hlength := stream_length q
  have hpos : 0 < min 32 q.stream.length := by omega
  have hgetBits := h.getBits_eq stack hpos (by omega) (by omega)
  have hmax := maxBits_eq hbit
  have hshift : ((32 - maxBits q) % 32).toNat = 32 - min 32 q.stream.length := by omega
  have hflag : ((min 32 q.stream.length : ℕ) : ℤ) < 32 ↔ q.stream.length < 32 := by omega
  unfold Exact readTop
  rw [hshift, hmax, hgetBits]
  simp only [hflag]
  refine ⟨?_, q.filled_stream stack⟩
  simp only [Option.getD_some]
  congr 2
  apply BitVec.eq_of_toNat_eq
  rw [BitVec.toNat_shiftLeft, BitVec.toNat_ofNat, BitVec.toNat_ofNat, Nat.shiftLeft_eq, Nat.mod_mul_mod]

/-! ### The cache over runs -/

namespace FIFO

open Call

/-- A quadword has been taken off since the cache was filled. -/
def Stale (calls : List Call) : Prop :=
  ∃ before after, calls = before ++ .popFront :: after ∧
    ∀ mid, mid <+: after → (execAll (before ++ .popFront :: mid) reset).bitCacheDirty = false

theorem not_stale_of_not_mem {calls : List Call} (h : .popFront ∉ calls) : ¬ Stale calls := by
  rintro ⟨before, after, rfl, -⟩
  simp at h

theorem execAll_append (calls : List Call) (c : Call) (q : FIFO) :
    execAll (calls ++ [c]) q = c.exec (execAll calls q) := List.foldl_append ..

theorem Stale.append {calls : List Call} (h : Stale calls) (c : Call)
    (hclean : (execAll (calls ++ [c]) reset).bitCacheDirty = false) : Stale (calls ++ [c]) := by
  obtain ⟨before, after, rfl, hafter⟩ := h
  refine ⟨before, after ++ [c], by simp, fun mid hmid => ?_⟩
  rcases List.prefix_concat_iff.mp hmid with rfl | hmid
  · simpa using hclean
  · exact hafter mid hmid

theorem pointer_advanceStream (amount : ℕ) {q : FIFO} (h : q.bitPointer < 128) :
    (q.advanceStream amount).2.bitPointer < 128 := by
  unfold advanceStream
  dsimp only
  by_cases hpast : q.bitPointer + (if amount > 32 then 32 else amount) > q.f.length * 128
  · rwa [if_pos hpast]
  · rw [if_neg hpast]
    exact (popWords_spec q.f _ (by omega)).1

theorem pointer_exec {q : FIFO} (h : q.bitPointer < 128) : ∀ c : Call, (c.exec q).bitPointer < 128
  | .reset pointer => pointer.isLt
  | .push _ => h
  | .getBits stack bits => by
    unfold Call.exec FIFO.getBits
    dsimp only
    split
    · exact h
    · exact (q.filled_bitPointer stack).trans_lt h
  | .advanceStream amount => pointer_advanceStream amount h
  | .byteAlign => by
    unfold Call.exec byteAlign
    dsimp only
    split
    · exact pointer_advanceStream _ h
    · exact h
  | .popFront => h

theorem pointer_execAll (calls : List Call) : (execAll calls reset).bitPointer < 128 := by
  induction calls using List.reverseRecOn with
  | nil => decide
  | append_singleton calls c ih =>
    rw [execAll_append]
    exact pointer_exec ih c

/-- In a step that leaves the cache clean, only `SETVQ` can take the queue away from under it. -/
theorem coherent_of_not_stale (calls : List Call) (h : ¬ Stale calls) : Coherent (execAll calls reset) := by
  induction calls using List.reverseRecOn with
  | nil => exact coherent_reset
  | append_singleton calls c ih =>
    by_cases hclean : (execAll (calls ++ [c]) reset).bitCacheDirty = false
    · have hcalls : Coherent (execAll calls reset) := ih fun hstale => h (hstale.append c hclean)
      have hpop : c ≠ .popFront := by
        rintro rfl
        refine h ⟨calls, [], rfl, fun mid hmid => ?_⟩
        rw [List.prefix_nil.mp hmid]
        exact hclean
      rw [execAll_append]
      refine hcalls.exec c ?_
      cases c <;> trivial
    · exact ⟨pointer_execAll _, fun h => absurd h hclean⟩

/-! ### Reads in any run -/

/-- A read that succeeds gives the next bits of the stream. -/
theorem getBits_coherent (calls : List Call) (h : ¬ Stale calls) (stack : Quad) {n : ℕ} (hpos : 0 < n) (hn : n ≤ 32)
    {data : Word} (hdata : ((execAll calls reset).getBits stack n).1 = some data) :
    n ≤ (execAll calls reset).stream.length ∧
      data = BitVec.ofNat 32 (value ((execAll calls reset).stream.take n)) := by
  by_cases hlen : n ≤ (execAll calls reset).stream.length
  · refine ⟨hlen, ?_⟩
    rw [(coherent_of_not_stale calls h).getBits_eq stack hpos hn hlen] at hdata
    exact (Option.some.inj hdata).symm
  · rw [getBits_short stack (Nat.lt_of_not_le hlen)] at hdata
    cases hdata

/-- The first word of a quadword that was pushed, read twice. -/
theorem getBits_coherent_pushed : BitVec.ofNat 32 (value ((execAll [.reset 0, .push 0x78563412, .getBits 0 32]
    reset).stream.take 32)) = 0x12345678 := by
  have hstale : ¬ Stale [.reset 0, .push 0x78563412, .getBits 0 32] := not_stale_of_not_mem (by decide)
  exact (getBits_coherent _ hstale 0 (n := 32) (by decide) (by decide) (by decide)).2.symm

/-- `FDEC` reads the first quadword, `SETVQ` takes two off, and `FDEC` still reads the first. -/
theorem not_getBits_coherent : ¬ ∀ calls stack n data, 0 < n → n ≤ 32 →
    ((execAll calls reset).getBits stack (n : ℕ)).1 = some data →
      data = BitVec.ofNat 32 (value ((execAll calls reset).stream.take n)) := by
  intro h
  have hread := h [.reset 0, .push 1, .push 2, .push 3, .advanceStream 0, .getBits 0 32, .popFront, .popFront,
    .advanceStream 0] 0 32 0x01000000 (by decide) (by decide) (by decide)
  exact absurd hread (by decide)

end FIFO

/-- The reads of up to 32 bits are defined in any state. That of `IPU_TOP` is defined if and only if a bit is
available, and then it is exact unless the cache is stale. -/
theorem readTop_exact_iff (calls : List Call) (stack : Quad) (commandDecoding : Bool) :
    let q := Call.execAll calls reset
    (∀ n : ℕ, 0 < n → n ≤ 32 → GetBitsSafe q n) ∧
      (ReadTopSafe q ↔ q.bitPointer < q.f.length * 128) ∧
      (¬ Stale calls →
        (ReadTopSafe q ∧ Exact stack commandDecoding q ↔ q.bitPointer < q.f.length * 128)) := by
  intro q
  refine ⟨fun n => getBits_safe q, readTop_safe_iff q, fun hstale => ?_⟩
  rw [readTop_safe_iff q, and_iff_left_iff_imp]
  exact (coherent_of_not_stale calls hstale).exact stack commandDecoding

/-- `BCLR` with a bit pointer, and no quadword. -/
theorem not_readTop_exact : ¬ ∀ calls stack commandDecoding, ReadTopSafe (Call.execAll calls reset) ∧
    Exact stack commandDecoding (Call.execAll calls reset) := by
  intro h
  exact absurd (h [.reset 5] 0 false).1 (by decide)

end DobieStation.Ipu
