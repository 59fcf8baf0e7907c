import DobieStation.Lib.BitStrings
import Mathlib.Data.BitVec
import Mathlib.Data.Int.Notation
import Mathlib.Tactic.SplitIfs

/-! # The input queue of the IPU

The translation of `IPU_FIFO`. The stream is what follows the bit pointer in the bytes of the queue, each byte
from its most significant bit. `getBits` reads it through a cache of 64 bits; `Coherent` says when the cache
may be read, and `getBits_eq` that it then is the stream. -/

namespace DobieStation.Ipu

open BitStrings

abbrev Quad := BitVec 128
abbrev DoubleWord := BitVec 64
abbrev Word := BitVec 32

structure FIFO where
  f : List Quad
  bitPointer : ℕ
  cachedBits : DoubleWord
  bitCacheDirty : Bool
  deriving DecidableEq, Repr

namespace FIFO

/-- The array `temp`. Its second half is not initialised if there is no second quadword: it then is what is
on the stack. -/
def temp (stack : Quad) (f : List Quad) (i : ℕ) : BitVec 8 :=
  (f.getD 1 stack ++ f.getD 0 stack).extractLsb' (8 * i) 8

/-- The bytes are put in reverse order, because MPEG is big-endian. -/
def loadCache (stack : Quad) (q : FIFO) : FIFO :=
  let index := q.bitPointer / 32 * 32 / 8
  { q with
    cachedBits := temp stack q.f index ++ temp stack q.f (index + 1) ++ temp stack q.f (index + 2) ++
      temp stack q.f (index + 3) ++ temp stack q.f (index + 4) ++ temp stack q.f (index + 5) ++
      temp stack q.f (index + 6) ++ temp stack q.f (index + 7)
    bitCacheDirty := false }

/-- The count of a shift is taken modulo 64. -/
def getBits (stack : Quad) (bits : ℤ) (q : FIFO) : Option Word × FIFO :=
  let bitsAvailable : ℤ := q.f.length * 128 - q.bitPointer
  if bitsAvailable < bits ∨ bitsAvailable = 0 then (none, q)
  else
    let q := if q.bitCacheDirty then q.loadCache stack else q
    let shift : ℤ := 64 - (q.bitPointer % 32 : ℕ) - bits
    let mask := BitVec.allOnes 64 >>> ((64 - bits) % 64).toNat
    (some (((q.cachedBits >>> (shift % 64).toNat) &&& mask).setWidth 32), q)

/-- The loop that takes the quadwords before the pointer off the queue. -/
def popWords : List Quad → ℕ → List Quad × ℕ
  | a :: f, p => if p ≥ 128 then popWords f (p - 128) else (a :: f, p)
  | [], p => ([], p)

/-- The pointer moves on within the queue. -/
def moveOn (amount : ℕ) (q : FIFO) : FIFO :=
  let oldWords := q.bitPointer / 32
  let newWords := (q.bitPointer + amount) / 32
  let words := popWords q.f (q.bitPointer + amount)
  { q with
    f := words.1
    bitPointer := words.2
    bitCacheDirty := q.bitCacheDirty || oldWords ≠ newWords || q.bitPointer + amount ≥ 128 }

def advanceStream (amount : ℕ) (q : FIFO) : Bool × FIFO :=
  let amount := if amount > 32 then 32 else amount
  if q.bitPointer + amount > q.f.length * 128 then (false, q) else (true, q.moveOn amount)

def reset : FIFO := ⟨[], 0, 0, true⟩

def byteAlign (q : FIFO) : FIFO :=
  let bits := q.bitPointer % 8
  if bits ≠ 0 then (q.advanceStream (8 - bits)).2 else q

/-- What `write_FIFO` does to the queue. -/
def push (quad : Quad) (q : FIFO) : FIFO := { q with f := q.f ++ [quad], bitCacheDirty := true }

/-! ### The stream -/

/-- The bits of a quadword, from the first byte on. -/
def quadBits (a : Quad) : List Bool := (List.range 128).map fun p => a.getLsbD (8 * (p / 8) + (7 - p % 8))

def bits (f : List Quad) : List Bool := f.flatMap quadBits

def stream (q : FIFO) : List Bool := (bits q.f).drop q.bitPointer

@[simp] theorem quadBits_length (a : Quad) : (quadBits a).length = 128 := by simp [quadBits]

@[simp] theorem bits_length : ∀ f : List Quad, (bits f).length = 128 * f.length
  | [] => rfl
  | a :: f => by
    have hf : (f.flatMap quadBits).length = 128 * f.length := bits_length f
    rw [bits, List.flatMap_cons, List.length_append, quadBits_length, hf, List.length_cons]
    omega

theorem stream_length (q : FIFO) : q.stream.length = 128 * q.f.length - q.bitPointer := by
  rw [stream, List.length_drop, bits_length]

theorem getElem?_bits_lt (a : Quad) (f : List Quad) {p : ℕ} (hp : p < 128) :
    (bits (a :: f))[p]? = some (a.getLsbD (8 * (p / 8) + (7 - p % 8))) := by
  rw [bits, List.flatMap_cons, List.getElem?_append_left (by simpa using hp), quadBits, List.getElem?_map,
    List.getElem?_range hp, Option.map_some]

theorem getElem?_bits_ge (a : Quad) (f : List Quad) {p : ℕ} (hp : 128 ≤ p) :
    (bits (a :: f))[p]? = (bits f)[p - 128]? := by
  rw [bits, List.flatMap_cons, List.getElem?_append_right (by simpa using hp), quadBits_length, bits]

/-- The bits of the first two quadwords are those of `temp`. -/
theorem getElem?_bits_temp (stack : Quad) {f : List Quad} {p : ℕ} {b : Bool} (hp : p < 256)
    (hb : (bits f)[p]? = some b) : (temp stack f (p / 8)).getLsbD (7 - p % 8) = b := by
  have htemp : (temp stack f (p / 8)).getLsbD (7 - p % 8) =
      (f.getD 1 stack ++ f.getD 0 stack).getLsbD (8 * (p / 8) + (7 - p % 8)) := by
    rw [temp, BitVec.getLsbD_extractLsb', decide_eq_true (by omega), Bool.true_and]
  rw [htemp, BitVec.getLsbD_append]
  rcases f with _ | ⟨a, f⟩
  · simp [bits] at hb
  · by_cases hlow : p < 128
    · rw [getElem?_bits_lt a f hlow] at hb
      rw [if_pos (by omega)]
      exact Option.some.inj hb
    · rw [getElem?_bits_ge a f (by omega)] at hb
      rcases f with _ | ⟨c, f⟩
      · simp [bits] at hb
      · rw [getElem?_bits_lt c f (by omega)] at hb
        rw [if_neg (by omega), show 8 * (p / 8) + (7 - p % 8) - 128 = 8 * ((p - 128) / 8) + (7 - (p - 128) % 8) by
          omega]
        exact Option.some.inj hb

/-! ### The cache -/

/-- The cache holds the stream from the word of the pointer on, as far as there is one. -/
def Cached (q : FIFO) : Prop :=
  ∀ k < 64, ∀ b, (bits q.f)[q.bitPointer / 32 * 32 + k]? = some b → q.cachedBits.getLsbD (63 - k) = b

structure Coherent (q : FIFO) : Prop where
  pointer : q.bitPointer < 128
  cached : q.bitCacheDirty = false → Cached q

theorem getLsbD_bytes (t : ℕ → BitVec 8) (i : ℕ) {k : ℕ} (hk : k < 64) :
    (t i ++ t (i + 1) ++ t (i + 2) ++ t (i + 3) ++ t (i + 4) ++ t (i + 5) ++ t (i + 6) ++ t (i + 7)).getLsbD
      (63 - k) = (t (i + k / 8)).getLsbD (7 - k % 8) := by
  have hbyte : ∀ m, k / 8 = m → ∀ j, j = 7 - k % 8 → (t (i + m)).getLsbD j =
      (t (i + k / 8)).getLsbD (7 - k % 8) := by
    rintro m rfl j rfl
    rfl
  simp only [BitVec.getLsbD_append]
  split_ifs
  · exact hbyte 7 (by omega) _ (by omega)
  · exact hbyte 6 (by omega) _ (by omega)
  · exact hbyte 5 (by omega) _ (by omega)
  · exact hbyte 4 (by omega) _ (by omega)
  · exact hbyte 3 (by omega) _ (by omega)
  · exact hbyte 2 (by omega) _ (by omega)
  · exact hbyte 1 (by omega) _ (by omega)
  · exact hbyte 0 (by omega) _ (by omega)

theorem loadCache_cached (stack : Quad) {q : FIFO} (h : q.bitPointer < 128) : Cached (q.loadCache stack) := by
  intro k hk b hb
  have hindex : (q.bitPointer / 32 * 32 + k) / 8 = q.bitPointer / 32 * 32 / 8 + k / 8 := by omega
  have hmod : (q.bitPointer / 32 * 32 + k) % 8 = k % 8 := by omega
  have htemp := getElem?_bits_temp stack (f := q.f) (p := q.bitPointer / 32 * 32 + k) (by omega) hb
  rw [hindex, hmod] at htemp
  rw [← htemp]
  exact getLsbD_bytes (temp stack q.f) _ hk

/-- What `getBits` reads the bits from. -/
def filled (stack : Quad) (q : FIFO) : FIFO := if q.bitCacheDirty then q.loadCache stack else q

theorem filled_f (stack : Quad) (q : FIFO) : (q.filled stack).f = q.f := by
  unfold filled; split <;> rfl

theorem filled_bitPointer (stack : Quad) (q : FIFO) : (q.filled stack).bitPointer = q.bitPointer := by
  unfold filled; split <;> rfl

theorem filled_stream (stack : Quad) (q : FIFO) : (q.filled stack).stream = q.stream := by
  rw [stream, filled_f, filled_bitPointer, stream]

theorem Coherent.filled_cached (stack : Quad) {q : FIFO} (h : Coherent q) : Cached (q.filled stack) := by
  unfold filled
  by_cases hd : q.bitCacheDirty
  · rw [if_pos hd]
    exact loadCache_cached stack h.pointer
  · rw [if_neg hd]
    exact h.cached (Bool.eq_false_iff.mpr hd)

theorem Coherent.filled (stack : Quad) {q : FIFO} (h : Coherent q) : Coherent (q.filled stack) :=
  ⟨by rw [filled_bitPointer]; exact h.pointer, fun _ => h.filled_cached stack⟩

theorem Cached.getLsbD {q : FIFO} (h : Cached q) {n i : ℕ} (hi : i < n) (hn : n ≤ 32) (hlen : n ≤ q.stream.length) :
    q.cachedBits.getLsbD (64 - q.bitPointer % 32 - n + i) = (q.stream.take n).getD (n - 1 - i) false := by
  have hk : 63 - (q.bitPointer % 32 + (n - 1 - i)) = 64 - q.bitPointer % 32 - n + i := by omega
  rw [← hk]
  refine h _ (by omega) _ ?_
  have hp : q.bitPointer / 32 * 32 + (q.bitPointer % 32 + (n - 1 - i)) = q.bitPointer + (n - 1 - i) := by omega
  have hlt : n - 1 - i < q.stream.length := by omega
  rw [hp, ← List.getElem?_drop, ← stream, List.getD_eq_getElem?_getD, List.getElem?_take_of_lt (by omega),
    List.getElem?_eq_getElem hlt, Option.getD_some]

/-! ### Reading and advancing -/

/-- The first `n` bits of the stream, which is long enough. -/
theorem Coherent.getBits_eq (stack : Quad) {q : FIFO} (h : Coherent q) {n : ℕ} (hpos : 0 < n) (hn : n ≤ 32)
    (hlen : n ≤ q.stream.length) :
    q.getBits stack n = (some (BitVec.ofNat 32 (value (q.stream.take n))), q.filled stack) := by
  have hlength := stream_length q
  have htake : (q.stream.take n).length = n := by rw [List.length_take, Nat.min_eq_left hlen]
  have hshift : ((64 - ((q.filled stack).bitPointer % 32 : ℕ) - (n : ℤ)) % 64).toNat =
      64 - (q.filled stack).bitPointer % 32 - n := by
    rw [filled_bitPointer]
    omega
  have hmask : ((64 - (n : ℤ)) % 64).toNat = 64 - n := by omega
  unfold getBits
  rw [if_neg (by omega)]
  refine Prod.ext (congrArg some ?_) rfl
  change (((q.filled stack).cachedBits >>> ((64 - ((q.filled stack).bitPointer % 32 : ℕ) - (n : ℤ)) % 64).toNat) &&&
    BitVec.allOnes 64 >>> ((64 - (n : ℤ)) % 64).toNat).setWidth 32 = _
  rw [hshift, hmask]
  apply BitVec.eq_of_getLsbD_eq
  intro i hi
  rw [BitVec.getLsbD_setWidth, decide_eq_true hi, Bool.true_and, BitVec.getLsbD_and, BitVec.getLsbD_ushiftRight,
    BitVec.getLsbD_ushiftRight, BitVec.getLsbD_allOnes, BitVec.getLsbD_ofNat, decide_eq_true hi, Bool.true_and]
  by_cases hin : i < n
  · rw [decide_eq_true (by omega), Bool.and_true, testBit_value (by omega), htake]
    have hbit := (h.filled_cached stack).getLsbD hin hn (by rw [filled_stream]; exact hlen)
    rwa [filled_stream] at hbit
  · rw [decide_eq_false (by omega), Bool.and_false, testBit_value_of_le (by omega)]

theorem getBits_short (stack : Quad) {q : FIFO} {n : ℕ} (hlen : q.stream.length < n) :
    q.getBits stack n = (none, q) := by
  have hlength := stream_length q
  unfold getBits
  rw [if_pos (by omega)]

theorem popWords_spec : ∀ (f : List Quad) (p : ℕ), p ≤ 128 * f.length →
    (popWords f p).2 < 128 ∧ (bits (popWords f p).1).drop (popWords f p).2 = (bits f).drop p ∧
      (p < 128 → popWords f p = (f, p))
  | [], p, hp => by
    obtain rfl : p = 0 := by simpa using hp
    exact ⟨by decide, rfl, fun _ => rfl⟩
  | a :: f, p, hp => by
    rw [popWords]
    by_cases hge : p ≥ 128
    · obtain ⟨hlt, hdrop, -⟩ := popWords_spec f (p - 128) (by rw [List.length_cons] at hp; omega)
      rw [if_pos hge]
      refine ⟨hlt, ?_, fun h => absurd h (by omega)⟩
      have hpast : (quadBits a).drop p = [] := List.drop_eq_nil_of_le (by rw [quadBits_length]; exact hge)
      rw [hdrop, bits, bits, List.flatMap_cons, List.drop_append, quadBits_length, hpast, List.nil_append]
    · rw [if_neg hge]
      exact ⟨by omega, rfl, fun _ => rfl⟩

/-- A cache that stays clean still is the one of the word of the pointer. -/
theorem Coherent.moveOn {q : FIFO} (h : Coherent q) {n : ℕ} (hn : q.bitPointer + n ≤ q.f.length * 128) :
    Coherent (q.moveOn n) ∧ (q.moveOn n).stream = q.stream.drop n := by
  obtain ⟨hlt, hdrop, hsame⟩ := popWords_spec q.f (q.bitPointer + n) (by omega)
  refine ⟨⟨hlt, ?_⟩, ?_⟩
  · intro hclean
    simp only [FIFO.moveOn, Bool.or_eq_false_iff, decide_eq_false_iff_not, ne_eq, not_not] at hclean
    obtain ⟨⟨hold, hword⟩, hinside⟩ := hclean
    have hwords := hsame (by omega)
    intro k hk b hb
    refine h.cached hold k hk b ?_
    simp only [FIFO.moveOn, hwords] at hb
    rwa [hword]
  · rw [stream, stream, List.drop_drop]
    exact hdrop

theorem Coherent.advanceStream (n : ℕ) {q : FIFO} (h : Coherent q) : Coherent (q.advanceStream n).2 := by
  unfold FIFO.advanceStream
  dsimp only
  by_cases hpast : q.bitPointer + (if n > 32 then 32 else n) > q.f.length * 128
  · rwa [if_pos hpast]
  · rw [if_neg hpast]
    exact (h.moveOn (by omega)).1

/-- The amount is available. -/
theorem Coherent.advanceStream_eq {q : FIFO} (h : Coherent q) {n : ℕ} (hpos : 0 < n) (hn : n ≤ 32)
    (hlen : n ≤ q.stream.length) :
    q.advanceStream n = (true, q.moveOn n) ∧ Coherent (q.moveOn n) ∧ (q.moveOn n).stream = q.stream.drop n := by
  have hlength := stream_length q
  refine ⟨?_, h.moveOn (by omega)⟩
  unfold FIFO.advanceStream
  dsimp only
  rw [if_neg (by omega : ¬ n > 32), if_neg (by omega)]

theorem Coherent.getBits (stack : Quad) (bits : ℤ) {q : FIFO} (h : Coherent q) : Coherent (q.getBits stack bits).2 := by
  unfold FIFO.getBits
  dsimp only
  split
  · exact h
  · exact h.filled stack

theorem Coherent.byteAlign {q : FIFO} (h : Coherent q) : Coherent q.byteAlign := by
  unfold FIFO.byteAlign
  dsimp only
  split
  · exact h.advanceStream _
  · exact h

theorem Coherent.push (quad : Quad) {q : FIFO} (h : Coherent q) : Coherent (q.push quad) :=
  ⟨h.pointer, fun hclean => by cases hclean⟩

/-! ### Runs -/

/-- What the IPU does with its input queue. -/
inductive Call where
  /-- A reset, by `BCLR` to a bit of the first quadword. -/
  | reset (pointer : BitVec 7)
  | push (quad : Quad)
  | getBits (stack : Quad) (bits : ℤ)
  | advanceStream (amount : ℕ)
  | byteAlign
  /-- `SETVQ` takes a quadword off the queue itself. -/
  | popFront
  deriving DecidableEq, Repr

def popFront (q : FIFO) : FIFO := { q with f := q.f.tail }

def Call.exec : Call → FIFO → FIFO
  | .reset pointer, _ => { FIFO.reset with bitPointer := pointer.toNat }
  | .push quad, q => q.push quad
  | .getBits stack bits, q => (q.getBits stack bits).2
  | .advanceStream amount, q => (q.advanceStream amount).2
  | .byteAlign, q => q.byteAlign
  | .popFront, q => q.popFront

/-- `SETVQ` finds the cache dirty. -/
def Call.Clears : Call → FIFO → Prop
  | .popFront, q => q.bitCacheDirty = true
  | _, _ => True

def Call.execAll (calls : List Call) (q : FIFO) : FIFO := calls.foldl (fun q c => c.exec q) q

def Call.ClearAll : List Call → FIFO → Prop
  | [], _ => True
  | c :: calls, q => c.Clears q ∧ ClearAll calls (c.exec q)

theorem Coherent.exec {q : FIFO} (h : Coherent q) : ∀ c : Call, c.Clears q → Coherent (c.exec q)
  | .reset pointer, _ => ⟨pointer.isLt, fun hclean => by cases hclean⟩
  | .push quad, _ => h.push quad
  | .getBits stack bits, _ => h.getBits stack bits
  | .advanceStream amount, _ => h.advanceStream amount
  | .byteAlign, _ => h.byteAlign
  | .popFront, hd => ⟨h.pointer, fun hclean => absurd (hd.symm.trans hclean) (by decide)⟩

theorem Coherent.execAll : ∀ (calls : List Call) {q : FIFO}, Coherent q → Call.ClearAll calls q →
    Coherent (Call.execAll calls q)
  | [], _, h, _ => h
  | c :: calls, _, h, hc => Coherent.execAll calls (h.exec c hc.1) hc.2

theorem coherent_reset : Coherent reset := ⟨by decide, fun hclean => by cases hclean⟩

end FIFO

end DobieStation.Ipu
