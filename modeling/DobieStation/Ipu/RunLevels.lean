import DobieStation.Ipu.Tables

/-! # The coefficients of a block

The translation of `DCT_Coeff_Table0` and `DCT_Coeff_Table1`: a coefficient is a code of the table and a sign,
or an escape code with six bits of a run and the bits of a level. Everything is read from where the stream is,
and the stream moves on at the end. -/

namespace DobieStation.Ipu

open BitStrings PrefixCode FIFO

structure RunLevelPair where
  run : ℤ
  level : ℤ
  deriving DecidableEq, Repr

/-- `RUN_ESCAPE`. -/
def runEscape : ℤ := 102

/-- Both tables have the same pairs. -/
def runlevelTable : List RunLevelPair := [
  ⟨0, 1⟩, ⟨1, 1⟩, ⟨0, 2⟩, ⟨2, 1⟩, ⟨0, 3⟩, ⟨3, 1⟩, ⟨4, 1⟩, ⟨1, 2⟩, ⟨5, 1⟩, ⟨6, 1⟩, ⟨7, 1⟩, ⟨0, 4⟩, ⟨2, 2⟩,
  ⟨8, 1⟩, ⟨9, 1⟩, ⟨runEscape, 0⟩, ⟨0, 5⟩, ⟨0, 6⟩, ⟨1, 3⟩, ⟨3, 2⟩, ⟨10, 1⟩, ⟨11, 1⟩, ⟨12, 1⟩, ⟨13, 1⟩,
  ⟨0, 7⟩, ⟨1, 4⟩, ⟨2, 3⟩, ⟨4, 2⟩, ⟨5, 2⟩, ⟨14, 1⟩, ⟨15, 1⟩, ⟨16, 1⟩, ⟨0, 8⟩, ⟨0, 9⟩, ⟨0, 10⟩, ⟨0, 11⟩,
  ⟨1, 5⟩, ⟨2, 4⟩, ⟨3, 3⟩, ⟨4, 3⟩, ⟨6, 2⟩, ⟨7, 2⟩, ⟨8, 2⟩, ⟨17, 1⟩, ⟨18, 1⟩, ⟨19, 1⟩, ⟨20, 1⟩, ⟨21, 1⟩,
  ⟨0, 12⟩, ⟨0, 13⟩, ⟨0, 14⟩, ⟨0, 15⟩, ⟨1, 6⟩, ⟨1, 7⟩, ⟨2, 5⟩, ⟨3, 4⟩, ⟨5, 3⟩, ⟨9, 2⟩, ⟨10, 2⟩, ⟨22, 1⟩,
  ⟨23, 1⟩, ⟨24, 1⟩, ⟨25, 1⟩, ⟨26, 1⟩, ⟨0, 16⟩, ⟨0, 17⟩, ⟨0, 18⟩, ⟨0, 19⟩, ⟨0, 20⟩, ⟨0, 21⟩, ⟨0, 22⟩,
  ⟨0, 23⟩, ⟨0, 24⟩, ⟨0, 25⟩, ⟨0, 26⟩, ⟨0, 27⟩, ⟨0, 28⟩, ⟨0, 29⟩, ⟨0, 30⟩, ⟨0, 31⟩, ⟨0, 32⟩, ⟨0, 33⟩,
  ⟨0, 34⟩, ⟨0, 35⟩, ⟨0, 36⟩, ⟨0, 37⟩, ⟨0, 38⟩, ⟨0, 39⟩, ⟨0, 40⟩, ⟨1, 8⟩, ⟨1, 9⟩, ⟨1, 10⟩, ⟨1, 11⟩,
  ⟨1, 12⟩, ⟨1, 13⟩, ⟨1, 14⟩, ⟨1, 15⟩, ⟨1, 16⟩, ⟨1, 17⟩, ⟨1, 18⟩, ⟨6, 3⟩, ⟨11, 2⟩, ⟨12, 2⟩, ⟨13, 2⟩,
  ⟨14, 2⟩, ⟨15, 2⟩, ⟨16, 2⟩, ⟨27, 1⟩, ⟨28, 1⟩, ⟨29, 1⟩, ⟨30, 1⟩, ⟨31, 1⟩]

/-- The bits behind the first `bitCount` ones. -/
def peekValue (stack : Quad) (bits bitCount : ℕ) : Decoder (Word × ℕ) :=
  if bits + bitCount > 32 then throw (.died "[DCT Coeff] Bit count > 32!\n")
  else do
    let result ← read stack (bits + bitCount)
    pure (result &&& ~~~(0xFFFFFFFF#32 <<< bits), bitCount + bits)

/-- A level behind an escape code of MPEG-1. -/
def levelMPEG1 (stack : Quad) (bitCount : ℕ) : Decoder (ℤ × ℕ) := do
  let a ← peekValue stack 8 bitCount
  if a.1 = 0 then do
    let b ← peekValue stack 8 a.2
    pure (b.1.toInt, b.2)
  else if a.1.setWidth 8 = 128#8 then do
    let b ← peekValue stack 8 a.2
    pure ((b.1 - 256).toInt, b.2)
  else pure (if 128 < a.1.toNat then (a.1 - 256).toInt else a.1.toInt, a.2)

/-- A level behind an escape code of MPEG-2. -/
def levelMPEG2 (stack : Quad) (bitCount : ℕ) : Decoder (ℤ × ℕ) := do
  let a ← peekValue stack 12 bitCount
  pure (if a.1 &&& 0x800 ≠ 0 then ((a.1 ||| 0xF000).setWidth 16).toInt else a.1.toInt, a.2)

inductive CoeffTable where
  | zero
  | one
  deriving DecidableEq, Repr

def CoeffTable.vlc : CoeffTable → VLCTable
  | .zero => dctCoeffTable0
  | .one => dctCoeffTable1

def escapeLevel (stack : Quad) (mpeg1 : Bool) (bitCount : ℕ) : CoeffTable → Decoder (ℤ × ℕ)
  | .zero => if mpeg1 then levelMPEG1 stack bitCount else levelMPEG2 stack bitCount
  | .one => if mpeg1 then throw (.died "MPEG1???\n") else levelMPEG2 stack bitCount

/-- The pair, and how many bits it has. -/
def peekPair (stack : Quad) (mpeg1 : Bool) (t : CoeffTable) : Decoder (RunLevelPair × ℕ) := do
  let entry ← t.vlc.peekSymbol stack
  let cur := runlevelTable.getD entry.value.toNat ⟨0, 0⟩
  if cur.run = runEscape then do
    let run ← peekValue stack 6 entry.bits
    let level ← escapeLevel stack mpeg1 run.2 t
    pure (⟨run.1.toInt, level.1⟩, level.2)
  else do
    let sign ← peekValue stack 1 entry.bits
    pure (⟨cur.run, if sign.1 ≠ 0 then 0 - cur.level else cur.level⟩, sign.2)

def getRunlevelPair (stack : Quad) (mpeg1 : Bool) (t : CoeffTable) : Decoder RunLevelPair := do
  let a ← peekPair stack mpeg1 t
  advance a.2
  pure a.1

/-- A first coefficient. -/
def getRunlevelPairDc (stack : Quad) (mpeg1 : Bool) : CoeffTable → Decoder RunLevelPair
  | .zero => do
    let special ← read stack 1
    if special ≠ 0 then do
      let sign ← read stack 2
      advance 2
      pure ⟨0, if sign &&& 1 ≠ 0 then 0 - 1 else 1⟩
    else getRunlevelPair stack mpeg1 .zero
  | .one => throw (.died "get_runlevel_pair_dc should never happen")

def decodePair (stack : Quad) (mpeg1 first : Bool) (t : CoeffTable) : Decoder RunLevelPair :=
  if first then getRunlevelPairDc stack mpeg1 t else getRunlevelPair stack mpeg1 t

/-! ### The codes of the standard -/

/-- The codes of the pairs, for each run those of the levels from 1 on: lengths and numbers. -/
def standard0 : List (List (ℕ × ℕ)) := [
    [(2, 0x3), (4, 0x4), (5, 0x5), (7, 0x6), (8, 0x26), (8, 0x21), (10, 0xA), (12, 0x1D), (12, 0x18),
     (12, 0x13), (12, 0x10), (13, 0x1A), (13, 0x19), (13, 0x18), (13, 0x17), (14, 0x1F), (14, 0x1E),
     (14, 0x1D), (14, 0x1C), (14, 0x1B), (14, 0x1A), (14, 0x19), (14, 0x18), (14, 0x17), (14, 0x16),
     (14, 0x15), (14, 0x14), (14, 0x13), (14, 0x12), (14, 0x11), (14, 0x10), (15, 0x18), (15, 0x17),
     (15, 0x16), (15, 0x15), (15, 0x14), (15, 0x13), (15, 0x12), (15, 0x11), (15, 0x10)],
    [(3, 0x3), (6, 0x6), (8, 0x25), (10, 0xC), (12, 0x1B), (13, 0x16), (13, 0x15), (15, 0x1F),
     (15, 0x1E), (15, 0x1D), (15, 0x1C), (15, 0x1B), (15, 0x1A), (15, 0x19), (16, 0x13), (16, 0x12),
     (16, 0x11), (16, 0x10)],
    [(4, 0x5), (7, 0x4), (10, 0xB), (12, 0x14), (13, 0x14)],
    [(5, 0x7), (8, 0x24), (12, 0x1C), (13, 0x13)],
    [(5, 0x6), (10, 0xF), (12, 0x12)],
    [(6, 0x7), (10, 0x9), (13, 0x12)],
    [(6, 0x5), (12, 0x1E), (16, 0x14)],
    [(6, 0x4), (12, 0x15)],
    [(7, 0x7), (12, 0x11)],
    [(7, 0x5), (13, 0x11)],
    [(8, 0x27), (13, 0x10)],
    [(8, 0x23), (16, 0x1A)],
    [(8, 0x22), (16, 0x19)],
    [(8, 0x20), (16, 0x18)],
    [(10, 0xE), (16, 0x17)],
    [(10, 0xD), (16, 0x16)],
    [(10, 0x8), (16, 0x15)],
    [(12, 0x1F)],
    [(12, 0x1A)],
    [(12, 0x19)],
    [(12, 0x17)],
    [(12, 0x16)],
    [(13, 0x1F)],
    [(13, 0x1E)],
    [(13, 0x1D)],
    [(13, 0x1C)],
    [(13, 0x1B)],
    [(16, 0x1F)],
    [(16, 0x1E)],
    [(16, 0x1D)],
    [(16, 0x1C)],
    [(16, 0x1B)]]

def standard1 : List (List (ℕ × ℕ)) := [
    [(2, 0x2), (3, 0x6), (4, 0x7), (5, 0x1C), (5, 0x1D), (6, 0x5), (6, 0x4), (7, 0x7B), (7, 0x7C),
     (8, 0x23), (8, 0x22), (8, 0xFA), (8, 0xFB), (8, 0xFE), (8, 0xFF), (14, 0x1F), (14, 0x1E),
     (14, 0x1D), (14, 0x1C), (14, 0x1B), (14, 0x1A), (14, 0x19), (14, 0x18), (14, 0x17), (14, 0x16),
     (14, 0x15), (14, 0x14), (14, 0x13), (14, 0x12), (14, 0x11), (14, 0x10), (15, 0x18), (15, 0x17),
     (15, 0x16), (15, 0x15), (15, 0x14), (15, 0x13), (15, 0x12), (15, 0x11), (15, 0x10)],
    [(3, 0x2), (5, 0x6), (7, 0x79), (8, 0x27), (8, 0x20), (13, 0x16), (13, 0x15), (15, 0x1F), (15, 0x1E),
     (15, 0x1D), (15, 0x1C), (15, 0x1B), (15, 0x1A), (15, 0x19), (16, 0x13), (16, 0x12), (16, 0x11),
     (16, 0x10)],
    [(5, 0x5), (7, 0x7), (8, 0xFC), (10, 0xC), (13, 0x14)],
    [(5, 0x7), (8, 0x26), (12, 0x1C), (13, 0x13)],
    [(6, 0x6), (8, 0xFD), (12, 0x12)],
    [(6, 0x7), (9, 0x4), (13, 0x12)],
    [(7, 0x6), (12, 0x1E), (16, 0x14)],
    [(7, 0x4), (12, 0x15)],
    [(7, 0x5), (12, 0x11)],
    [(7, 0x78), (13, 0x11)],
    [(7, 0x7A), (13, 0x10)],
    [(8, 0x21), (16, 0x1A)],
    [(8, 0x25), (16, 0x19)],
    [(8, 0x24), (16, 0x18)],
    [(9, 0x5), (16, 0x17)],
    [(9, 0x7), (16, 0x16)],
    [(10, 0xD), (16, 0x15)],
    [(12, 0x1F)],
    [(12, 0x1A)],
    [(12, 0x19)],
    [(12, 0x17)],
    [(12, 0x16)],
    [(13, 0x1F)],
    [(13, 0x1E)],
    [(13, 0x1D)],
    [(13, 0x1C)],
    [(13, 0x1B)],
    [(16, 0x1F)],
    [(16, 0x1E)],
    [(16, 0x1D)],
    [(16, 0x1C)],
    [(16, 0x1B)]]

def CoeffTable.standard : CoeffTable → List (List (ℕ × ℕ))
  | .zero => standard0
  | .one => standard1

/-- The length and the number of the code of a pair. -/
def CoeffTable.codeOf (t : CoeffTable) (run level : ℕ) : Option (ℕ × ℕ) :=
  (t.standard[run]?).bind fun row => row[level - 1]?

def signBit (level : ℤ) : Bool := decide (level < 0)

def escapeCode : List Bool := digits 6 1

/-- The eight or sixteen bits of a level of MPEG-1. -/
def levelCode1 (level : ℤ) : List Bool :=
  if level.natAbs ≤ 127 then digits 8 (level % 256).toNat
  else if 0 < level then digits 8 0 ++ digits 8 level.toNat
  else digits 8 128 ++ digits 8 (level + 256).toNat

/-- The twelve bits of a level of MPEG-2. -/
def levelCode2 (level : ℤ) : List Bool := digits 12 (level % 4096).toNat

/-- The codes of a pair: as a first coefficient the level 1 without a run has one of its own. -/
inductive StandardCode (t : CoeffTable) (mpeg1 first : Bool) (run : ℕ) (level : ℤ) : List Bool → Prop
  | first (hfirst : first = true) (hrun : run = 0) (hlevel : level.natAbs = 1) :
      StandardCode t mpeg1 first run level [true, signBit level]
  | table {c : ℕ × ℕ} (hfirst : first = true → ¬ (run = 0 ∧ level.natAbs = 1))
      (hc : t.codeOf run level.natAbs = some c) :
      StandardCode t mpeg1 first run level (digits c.1 c.2 ++ [signBit level])
  | escape1 (hmode : mpeg1 = true) :
      StandardCode t mpeg1 first run level (escapeCode ++ digits 6 run ++ levelCode1 level)
  | escape2 (hmode : mpeg1 = false) :
      StandardCode t mpeg1 first run level (escapeCode ++ digits 6 run ++ levelCode2 level)

/-- The levels of the escape codes. -/
def InRange (mpeg1 : Bool) (level : ℤ) : Prop := level ≠ 0 ∧ level.natAbs ≤ if mpeg1 then 255 else 2047

/-! ### Answers that more data completes -/

section

variable {α β : Type} {r : List Bool → Except Stop α}

/-- With less of the stream the answer is the same, or it is a request for more data. -/
def Gradual (r : List Bool → Except Stop α) : Prop :=
  ∀ s t, s <+: t → r s = .error .moreData ∨ r s = r t

theorem Gradual.const (x : Except Stop α) : Gradual fun _ => x := fun _ _ _ => .inr rfl

theorem Gradual.bind {r' : α → List Bool → Except Stop β} (h : Gradual r) (h' : ∀ a, Gradual (r' a)) :
    Gradual fun s => r s >>= fun a => r' a s := by
  intro s t hst
  rcases h s t hst with hmore | hsame
  · left
    simp only [hmore]
    rfl
  · simp only [hsame]
    cases r t with
    | error e => exact .inr rfl
    | ok a => exact h' a s t hst

theorem Gradual.ite {r' : List Bool → Except Stop α} (c : Prop) [Decidable c] (h : Gradual r)
    (h' : Gradual r') : Gradual fun s => if c then r s else r' s := by
  by_cases hc : c
  · simpa only [if_pos hc] using h
  · simpa only [if_neg hc] using h'

theorem gradual_next (n : ℕ) : Gradual (next n) := by
  intro s t hst
  unfold next
  by_cases hn : n ≤ s.length
  · have htake : s.take n = t.take n := by
      obtain ⟨u, rfl⟩ := hst
      rw [List.take_append_of_le_length hn]
    rw [if_pos hn, if_pos (hn.trans hst.length_le), htake]
    exact .inr rfl
  · rw [if_neg hn]
    exact .inl rfl

theorem gradual_symbol {T : VLCTable} (hT : T.Sound) : Gradual T.symbol := by
  intro s t hst
  by_cases hnone : ∀ e ∈ T.table, ¬ e.code <+: s
  · rw [symbol_of_not_starting hnone]
    by_cases hlen : T.maxBits ≤ s.length
    · have hnone' : ∀ e ∈ T.table, ¬ e.code <+: t := hT.dead hlen hnone t hst
      rw [symbol_of_not_starting hnone', if_pos hlen, if_pos (hlen.trans hst.length_le)]
      exact .inr rfl
    · rw [if_neg hlen]
      exact .inl rfl
  · obtain ⟨e, he, hs⟩ : ∃ e ∈ T.table, e.code <+: s := by simpa using hnone
    rw [hT.symbol_of_starting he hs, hT.symbol_of_starting he (hs.trans hst)]
    exact .inr rfl

/-- A code that is answered: the decoder answers it wherever the stream begins with it, and before its end it
asks for more data. -/
theorem moves_code {d : Decoder α} {r : List Bool → Except Stop (α × ℕ)} (hd : Moves d r) (hr : Gradual r)
    (hfits : ∀ s a, r s = .ok a → a.2 ≤ s.length) {c : List Bool} {a : α} (hc : r c = .ok (a, c.length))
    {q : FIFO} (hq : q.Coherent) :
    (c <+: q.stream → (d q).1 = .ok a ∧ (d q).2.stream = q.stream.drop c.length) ∧
      (q.stream <+: c → q.stream ≠ c →
        (d q).1 = .error .moreData ∧ (d q).2.f = q.f ∧ (d q).2.bitPointer = q.bitPointer) := by
  obtain ⟨q', hrun, -, hleft⟩ := hd q hq
  rw [hrun]
  constructor
  · intro hstarts
    have hsame : r q.stream = .ok (a, c.length) := by
      rcases hr c q.stream hstarts with hmore | hsame
      · rw [hmore] at hc
        cases hc
      · rw [← hsame, hc]
    rw [hsame] at hleft ⊢
    exact ⟨rfl, hleft⟩
  · intro hstarts hne
    have hlt : q.stream.length < c.length := by
      refine lt_of_le_of_ne hstarts.length_le fun hlen => hne ?_
      exact hstarts.eq_of_length hlen
    have hmore : r q.stream = .error .moreData := by
      rcases hr q.stream c hstarts with hmore | hsame
      · exact hmore
      · rw [hc] at hsame
        have hle := hfits _ _ hsame
        dsimp only at hle
        omega
    rw [hmore] at hleft ⊢
    exact ⟨rfl, hleft⟩

end

/-! ### What the decoders see -/

def tooMany : Stop := .died "[DCT Coeff] Bit count > 32!\n"

/-- What `peekValue` sees. -/
def valueAt (bits bitCount : ℕ) (s : List Bool) : Except Stop (Word × ℕ) :=
  if bits + bitCount > 32 then .error tooMany
  else next (bits + bitCount) s >>= fun w => .ok (w &&& ~~~(0xFFFFFFFF#32 <<< bits), bitCount + bits)

def level1At (bitCount : ℕ) (s : List Bool) : Except Stop (ℤ × ℕ) :=
  valueAt 8 bitCount s >>= fun a =>
    if a.1 = 0 then valueAt 8 a.2 s >>= fun b => .ok (b.1.toInt, b.2)
    else if a.1.setWidth 8 = 128#8 then valueAt 8 a.2 s >>= fun b => .ok ((b.1 - 256).toInt, b.2)
    else .ok (if 128 < a.1.toNat then (a.1 - 256).toInt else a.1.toInt, a.2)

def level2At (bitCount : ℕ) (s : List Bool) : Except Stop (ℤ × ℕ) :=
  valueAt 12 bitCount s >>= fun a =>
    .ok (if a.1 &&& 0x800 ≠ 0 then ((a.1 ||| 0xF000).setWidth 16).toInt else a.1.toInt, a.2)

def escapeAt (mpeg1 : Bool) (bitCount : ℕ) : CoeffTable → List Bool → Except Stop (ℤ × ℕ)
  | .zero, s => if mpeg1 then level1At bitCount s else level2At bitCount s
  | .one, s => if mpeg1 then .error (.died "MPEG1???\n") else level2At bitCount s

def pairAt (mpeg1 : Bool) (t : CoeffTable) (s : List Bool) : Except Stop (RunLevelPair × ℕ) :=
  t.vlc.symbol s >>= fun entry =>
    if (runlevelTable.getD entry.value.toNat ⟨0, 0⟩).run = runEscape then
      valueAt 6 entry.bits s >>= fun run => escapeAt mpeg1 run.2 t s >>= fun level =>
        .ok (⟨run.1.toInt, level.1⟩, level.2)
    else valueAt 1 entry.bits s >>= fun sign =>
      .ok (⟨(runlevelTable.getD entry.value.toNat ⟨0, 0⟩).run,
        if sign.1 ≠ 0 then 0 - (runlevelTable.getD entry.value.toNat ⟨0, 0⟩).level
        else (runlevelTable.getD entry.value.toNat ⟨0, 0⟩).level⟩, sign.2)

variable (stack : Quad) (mpeg1 : Bool)

theorem sees_peekValue {bits : ℕ} (hpos : 0 < bits) (bitCount : ℕ) :
    Sees (peekValue stack bits bitCount) (valueAt bits bitCount) := by
  unfold peekValue valueAt
  by_cases hc : bits + bitCount > 32
  · simp only [if_pos hc]
    exact Sees.throw _
  · simp only [if_neg hc]
    exact (sees_read stack (by omega) (by omega)).bind fun w => Sees.pure _

theorem sees_levelMPEG1 (bitCount : ℕ) : Sees (levelMPEG1 stack bitCount) (level1At bitCount) := by
  refine (sees_peekValue stack (by decide) bitCount).bind fun a => Sees.ite _ ?_ (Sees.ite _ ?_ (Sees.pure _))
  · exact (sees_peekValue stack (by decide) a.2).bind fun b => Sees.pure _
  · exact (sees_peekValue stack (by decide) a.2).bind fun b => Sees.pure _

theorem sees_levelMPEG2 (bitCount : ℕ) : Sees (levelMPEG2 stack bitCount) (level2At bitCount) :=
  (sees_peekValue stack (by decide) bitCount).bind fun _ => Sees.pure _

theorem sees_escapeLevel (bitCount : ℕ) :
    ∀ t : CoeffTable, Sees (escapeLevel stack mpeg1 bitCount t) (escapeAt mpeg1 bitCount t)
  | .zero => Sees.ite _ (sees_levelMPEG1 stack bitCount) (sees_levelMPEG2 stack bitCount)
  | .one => Sees.ite _ (Sees.throw _) (sees_levelMPEG2 stack bitCount)

theorem sound_vlc (t : CoeffTable) : t.vlc.Sound := by
  cases t with
  | zero => exact sound_of_mem (by simp [vlcTables, CoeffTable.vlc])
  | one => exact sound_of_mem (by simp [vlcTables, CoeffTable.vlc])

theorem sees_peekPair (t : CoeffTable) : Sees (peekPair stack mpeg1 t) (pairAt mpeg1 t) := by
  refine ((sound_vlc t).sees_peekSymbol stack).bind fun entry => Sees.ite _ ?_ ?_
  · exact (sees_peekValue stack (by decide) _).bind fun run =>
      (sees_escapeLevel stack mpeg1 run.2 t).bind fun level => Sees.pure _
  · exact (sees_peekValue stack (by decide) _).bind fun sign => Sees.pure _

theorem gradual_valueAt (bits bitCount : ℕ) : Gradual (valueAt bits bitCount) :=
  Gradual.ite _ (Gradual.const _) ((gradual_next _).bind fun _ => Gradual.const _)

theorem gradual_level1At (bitCount : ℕ) : Gradual (level1At bitCount) := by
  refine (gradual_valueAt 8 bitCount).bind fun a => Gradual.ite _ ?_ (Gradual.ite _ ?_ (Gradual.const _))
  · exact (gradual_valueAt 8 a.2).bind fun b => Gradual.const _
  · exact (gradual_valueAt 8 a.2).bind fun b => Gradual.const _

theorem gradual_level2At (bitCount : ℕ) : Gradual (level2At bitCount) :=
  (gradual_valueAt 12 bitCount).bind fun _ => Gradual.const _

theorem gradual_escapeAt (bitCount : ℕ) : ∀ t : CoeffTable, Gradual (escapeAt mpeg1 bitCount t)
  | .zero => Gradual.ite _ (gradual_level1At bitCount) (gradual_level2At bitCount)
  | .one => Gradual.ite _ (Gradual.const _) (gradual_level2At bitCount)

theorem gradual_pairAt (t : CoeffTable) : Gradual (pairAt mpeg1 t) := by
  refine (gradual_symbol (sound_vlc t)).bind fun entry => Gradual.ite _ ?_ ?_
  · exact (gradual_valueAt 6 _).bind fun run => (gradual_escapeAt mpeg1 run.2 t).bind fun level =>
      Gradual.const _
  · exact (gradual_valueAt 1 _).bind fun sign => Gradual.const _

section

variable {α β : Type}

/-- The bits of an answer are on the stream. -/
def Fits (s : List Bool) (n : ℕ) : Prop := 0 < n ∧ n ≤ 32 ∧ n ≤ s.length

theorem bind_ok {x : Except Stop α} {f : α → Except Stop β} {b : β} (h : (x >>= f) = .ok b) :
    ∃ a, x = .ok a ∧ f a = .ok b := by
  cases x with
  | error e => cases h
  | ok a => exact ⟨a, rfl, h⟩

end

variable {s : List Bool}

theorem fits_valueAt {bits bitCount : ℕ} (hpos : 0 < bits) {a : Word × ℕ} (h : valueAt bits bitCount s = .ok a) :
    Fits s a.2 := by
  unfold valueAt at h
  split at h
  · cases h
  · obtain ⟨w, hw, heq⟩ := bind_ok h
    cases heq
    unfold next at hw
    split at hw
    · exact ⟨by dsimp only; omega, by dsimp only; omega, by dsimp only; omega⟩
    · cases hw

theorem fits_level1At {bitCount : ℕ} {a : ℤ × ℕ} (h : level1At bitCount s = .ok a) : Fits s a.2 := by
  obtain ⟨x, hx, hrest⟩ := bind_ok h
  have hfits := fits_valueAt (by decide) hx
  split at hrest
  · obtain ⟨y, hy, heq⟩ := bind_ok hrest
    cases heq
    exact fits_valueAt (by decide) hy
  · split at hrest
    · obtain ⟨y, hy, heq⟩ := bind_ok hrest
      cases heq
      exact fits_valueAt (by decide) hy
    · cases hrest
      exact hfits

theorem fits_level2At {bitCount : ℕ} {a : ℤ × ℕ} (h : level2At bitCount s = .ok a) : Fits s a.2 := by
  obtain ⟨x, hx, heq⟩ := bind_ok h
  cases heq
  exact fits_valueAt (by decide) hx

theorem fits_escapeAt {bitCount : ℕ} {a : ℤ × ℕ} {t : CoeffTable} (h : escapeAt mpeg1 bitCount t s = .ok a) :
    Fits s a.2 := by
  cases t with
  | zero =>
    simp only [escapeAt] at h
    split at h
    · exact fits_level1At h
    · exact fits_level2At h
  | one =>
    simp only [escapeAt] at h
    split at h
    · cases h
    · exact fits_level2At h

theorem fits_pairAt {t : CoeffTable} {a : RunLevelPair × ℕ} (h : pairAt mpeg1 t s = .ok a) : Fits s a.2 := by
  obtain ⟨entry, -, hrest⟩ := bind_ok h
  split at hrest
  · obtain ⟨run, -, hlevel⟩ := bind_ok hrest
    obtain ⟨level, hescape, heq⟩ := bind_ok hlevel
    cases heq
    exact fits_escapeAt mpeg1 hescape
  · obtain ⟨sign, hsign, heq⟩ := bind_ok hrest
    cases heq
    exact fits_valueAt (by decide) hsign

theorem map_self {α : Type} (x : Except Stop (α × ℕ)) : (x.map fun a => (a.1, a.2)) = x := by
  cases x <;> rfl

theorem moves_getRunlevelPair (t : CoeffTable) : Moves (getRunlevelPair stack mpeg1 t) (pairAt mpeg1 t) := by
  have hmoves := (sees_peekPair stack mpeg1 t).advance Prod.fst Prod.snd fun s a h => fits_pairAt mpeg1 h
  simp only [map_self] at hmoves
  exact hmoves

/-- What `getRunlevelPairDc` sees with the first table. -/
def dcAt (s : List Bool) : Except Stop (RunLevelPair × ℕ) :=
  next 1 s >>= fun special =>
    if special ≠ 0 then (next 2 s).map fun sign => (⟨0, if sign &&& 1 ≠ 0 then 0 - 1 else 1⟩, 2)
    else pairAt mpeg1 .zero s

theorem next_ok {n : ℕ} {w : Word} (h : next n s = .ok w) : n ≤ s.length := by
  unfold next at h
  split at h
  · assumption
  · cases h

theorem Moves.ite {α : Type} {d d' : Decoder α} {r r' : List Bool → Except Stop (α × ℕ)} (c : Prop) [Decidable c]
    (h : Moves d r) (h' : Moves d' r') : Moves (if c then d else d') fun s => if c then r s else r' s := by
  by_cases hc : c
  · simpa only [if_pos hc] using h
  · simpa only [if_neg hc] using h'

theorem moves_getRunlevelPairDc : Moves (getRunlevelPairDc stack mpeg1 .zero) (dcAt mpeg1) := by
  refine (sees_read stack (by decide) (by decide)).bind_moves fun special => Moves.ite _ ?_ ?_
  · exact (sees_read stack (by decide) (by decide)).advance
      (fun sign => (⟨0, if sign &&& 1 ≠ 0 then 0 - 1 else 1⟩ : RunLevelPair)) (fun _ => 2)
      fun s w hw => ⟨by decide, by decide, next_ok hw⟩
  · exact moves_getRunlevelPair stack mpeg1 .zero

theorem gradual_map {α β : Type} {r : List Bool → Except Stop α} (h : Gradual r) (f : α → β) :
    Gradual fun s => (r s).map f := by
  intro s t hst
  rcases h s t hst with hmore | hsame
  · left
    simp only [hmore]
    rfl
  · right
    simp only [hsame]

theorem gradual_dcAt : Gradual (dcAt mpeg1) :=
  (gradual_next 1).bind fun _ => Gradual.ite _ (gradual_map (gradual_next 2) _) (gradual_pairAt mpeg1 .zero)

theorem fits_dcAt {a : RunLevelPair × ℕ} (h : dcAt mpeg1 s = .ok a) : a.2 ≤ s.length := by
  obtain ⟨special, -, hrest⟩ := bind_ok h
  split at hrest
  · cases hnext : next 2 s with
    | error e =>
      rw [hnext] at hrest
      cases hrest
    | ok w =>
      rw [hnext] at hrest
      cases hrest
      exact next_ok hnext
  · exact (fits_pairAt mpeg1 hrest).2.2

/-! ### The codes -/

theorem masked_value {bits n : ℕ} (u : List Bool) {k : ℕ} (hk : k < 2 ^ bits) (hn : bits + n ≤ 32) :
    BitVec.ofNat 32 (2 ^ bits * value u + k) &&& ~~~(0xFFFFFFFF#32 <<< bits) = BitVec.ofNat 32 k := by
  apply BitVec.eq_of_getLsbD_eq
  intro i hi
  have hones : (0xFFFFFFFF#32 : Word) = BitVec.allOnes 32 := rfl
  rw [hones, BitVec.getLsbD_and, BitVec.getLsbD_not, BitVec.getLsbD_shiftLeft, BitVec.getLsbD_allOnes,
    BitVec.getLsbD_ofNat, BitVec.getLsbD_ofNat, Nat.testBit_two_pow_mul_add _ hk]
  by_cases hb : i < bits
  · simp [hi, hb]
  · have hbit : k.testBit i = false :=
      Nat.testBit_lt_two_pow (hk.trans_le (Nat.pow_le_pow_right (by decide) (by omega)))
    have hsub : i - bits < 32 := by omega
    simp [hi, hb, hbit, hsub]

/-- A field of the stream behind `n` bits. -/
theorem valueAt_digits {b n k : ℕ} {u : List Bool} (v : List Bool) (hu : u.length = n) (hk : k < 2 ^ b)
    (hn : b + n ≤ 32) : valueAt b n (u ++ digits b k ++ v) = .ok (BitVec.ofNat 32 k, n + b) := by
  have hlen : (u ++ digits b k).length = b + n := by rw [List.length_append, digits_length, hu, Nat.add_comm]
  have htake : (u ++ digits b k ++ v).take (b + n) = u ++ digits b k := by
    rw [List.take_append_of_le_length hlen.ge, List.take_of_length_le hlen.le]
  have hle : b + n ≤ (u ++ digits b k ++ v).length := by
    rw [List.length_append, hlen]
    omega
  unfold valueAt next
  rw [if_neg (by omega), if_pos hle, htake, value_append, value_digits_of_lt hk, digits_length]
  show Except.ok (_, _) = _
  rw [masked_value u hk hn]

theorem digits_signBit (b : Bool) : [b] = digits 1 b.toNat := by cases b <;> rfl

/-- The codes of the standard in a list, each with its run and the level less one. -/
def CoeffTable.codes (t : CoeffTable) : List ((ℕ × ℕ) × ℕ × ℕ) :=
  t.standard.zipIdx.flatMap fun row => row.1.zipIdx.map fun c => ((row.2, c.2), c.1)

theorem mem_codes {t : CoeffTable} {run l : ℕ} {c : ℕ × ℕ} (h : t.codeOf run (l + 1) = some c) :
    ((run, l), c) ∈ t.codes := by
  unfold CoeffTable.codeOf at h
  obtain ⟨row, hrow, hcode⟩ := Option.bind_eq_some_iff.mp h
  refine List.mem_flatMap.mpr ⟨(row, run), List.mem_zipIdx_iff_getElem?.mpr hrow, ?_⟩
  exact List.mem_map.mpr ⟨(c, l), List.mem_zipIdx_iff_getElem?.mpr hcode, rfl⟩

/-- A table has an entry for the code, with its run and its level. -/
def CoeffTable.entered (t : CoeffTable) (p : (ℕ × ℕ) × ℕ × ℕ) : Bool :=
  t.vlc.table.any fun e => Nat.beq e.bits p.2.1 && (Nat.beq e.key.toNat p.2.2 &&
    decide (runlevelTable.getD e.value.toNat ⟨0, 0⟩ = ⟨(p.1.1 : ℤ), ((p.1.2 + 1 : ℕ) : ℤ)⟩))

theorem all_entered (t : CoeffTable) : t.codes.all t.entered = true := by
  cases t with
  | zero => decide +kernel
  | one => decide +kernel

/-- The entries of the tables are the codes of the standard. -/
theorem table_entry {t : CoeffTable} {run l : ℕ} {c : ℕ × ℕ} (h : t.codeOf run (l + 1) = some c) :
    ∃ e ∈ t.vlc.table, e.bits = c.1 ∧ e.key.toNat = c.2 ∧
      runlevelTable.getD e.value.toNat ⟨0, 0⟩ = ⟨(run : ℤ), ((l + 1 : ℕ) : ℤ)⟩ := by
  have hentered := List.all_eq_true.mp (all_entered t) _ (mem_codes h)
  obtain ⟨e, he, hmatch⟩ := List.any_eq_true.mp hentered
  rw [Bool.and_eq_true, Bool.and_eq_true, decide_eq_true_eq] at hmatch
  obtain ⟨hbits, hkey, hpair⟩ := hmatch
  exact ⟨e, he, Nat.eq_of_beq_eq_true hbits, Nat.eq_of_beq_eq_true hkey, hpair⟩

theorem codeOf_bounds {t : CoeffTable} {run level : ℕ} {c : ℕ × ℕ} (h : t.codeOf run level = some c) :
    run < 32 ∧ level - 1 < 40 := by
  have hrows : t.standard.length = 32 ∧ ∀ row ∈ t.standard, row.length ≤ 40 := by cases t <;> decide
  unfold CoeffTable.codeOf at h
  obtain ⟨row, hrow, hcode⟩ := Option.bind_eq_some_iff.mp h
  have hrun := (List.getElem?_eq_some_iff.mp hrow).1
  have hlevel := (List.getElem?_eq_some_iff.mp hcode).1
  have hlen := hrows.2 row (List.mem_of_getElem? hrow)
  omega

/-- A code of the table and a sign. -/
theorem pairAt_table {t : CoeffTable} {run : ℕ} {level : ℤ} {c : ℕ × ℕ} (hlevel : level ≠ 0)
    (hc : t.codeOf run level.natAbs = some c) :
    pairAt mpeg1 t (digits c.1 c.2 ++ [signBit level]) =
      .ok (⟨run, level⟩, (digits c.1 c.2 ++ [signBit level]).length) := by
  obtain ⟨hrun, hl⟩ := codeOf_bounds hc
  have hsucc : level.natAbs - 1 + 1 = level.natAbs := by omega
  obtain ⟨e, he, hbits, hkey, hpair⟩ := table_entry (l := level.natAbs - 1) (by rw [hsucc]; exact hc)
  have hcode : e.code = digits c.1 c.2 := by rw [VLCEntry.code, hbits, hkey]
  have hsound := sound_vlc t
  have hsymbol : t.vlc.symbol (digits c.1 c.2 ++ [signBit level]) = .ok e := by
    refine hsound.symbol_of_starting he ?_
    rw [hcode]
    exact List.prefix_append _ _
  have hsign : valueAt 1 e.bits (digits c.1 c.2 ++ [signBit level]) =
      .ok (BitVec.ofNat 32 (signBit level).toNat, e.bits + 1) := by
    have hmax := (hsound.bits e he).2
    have h16 : t.vlc.maxBits ≤ 16 := by cases t <;> decide
    have hdigits := valueAt_digits (b := 1) (k := (signBit level).toNat) [] (u := digits c.1 c.2) (n := e.bits)
      (by rw [digits_length, hbits]) (Bool.toNat_lt _) (by omega)
    rwa [List.append_nil, ← digits_signBit] at hdigits
  have hne : ¬ (run : ℤ) = runEscape := by
    unfold runEscape
    omega
  unfold pairAt
  rw [hsymbol]
  show (if (runlevelTable.getD e.value.toNat ⟨0, 0⟩).run = runEscape then _ else _) = _
  rw [hpair, if_neg hne, hsign]
  show Except.ok (RunLevelPair.mk _ _, _) = _
  rw [hsucc, List.length_append, digits_length, hbits]
  congr 3
  unfold signBit
  by_cases hneg : level < 0
  · rw [decide_eq_true hneg, if_pos (by decide : BitVec.ofNat 32 true.toNat ≠ 0)]
    show 0 - (level.natAbs : ℤ) = level
    omega
  · rw [decide_eq_false hneg, if_neg (by decide : ¬ BitVec.ofNat 32 false.toNat ≠ 0)]
    show (level.natAbs : ℤ) = level
    omega

theorem toInt_byte {k : ℕ} (h : k < 256) : (BitVec.ofNat 32 k).toInt = k := by
  have hnat : (BitVec.ofNat 32 k).toNat = k := by
    rw [BitVec.toNat_ofNat]
    omega
  rw [BitVec.toInt_eq_toNat_of_lt (by omega), hnat]

theorem toInt_byte_sub {k : ℕ} (h : k < 256) : (BitVec.ofNat 32 k - 256).toInt = (k : ℤ) - 256 := by
  have hnat : (BitVec.ofNat 32 k - 256).toNat = 4294967040 + k := by
    rw [BitVec.toNat_sub, BitVec.toNat_ofNat, show (256 : BitVec 32).toNat = 256 from rfl]
    omega
  rw [BitVec.toInt_eq_toNat_cond, hnat, if_neg (by omega)]
  omega

/-- Twelve bits as a number with a sign. -/
theorem toInt_twelve {k : ℕ} (h : k < 4096) :
    (if BitVec.ofNat 32 k &&& 0x800 ≠ 0 then ((BitVec.ofNat 32 k ||| 0xF000).setWidth 16).toInt
      else (BitVec.ofNat 32 k).toInt) = if k < 2048 then (k : ℤ) else k - 4096 := by
  have hnat : (BitVec.ofNat 32 k).toNat = k := by
    rw [BitVec.toNat_ofNat]
    omega
  have hand : (BitVec.ofNat 32 k &&& 0x800).toNat = (k.testBit 11).toNat * 2048 := by
    rw [BitVec.toNat_and, hnat]
    exact Nat.and_two_pow k 11
  have hbit : k.testBit 11 = decide (2048 ≤ k) := by
    rw [Nat.testBit_eq_decide_div_mod_eq, decide_eq_decide]
    omega
  have hor : (BitVec.ofNat 32 k ||| 0xF000).toNat = k + 0xF000 := by
    rw [BitVec.toNat_or, hnat, Nat.or_comm]
    exact (Nat.two_pow_add_eq_or_of_lt (i := 12) h 15).symm.trans (Nat.add_comm _ _)
  by_cases hk : k < 2048
  · have hzero : BitVec.ofNat 32 k &&& 0x800 = 0 := by
      refine BitVec.eq_of_toNat_eq (hand.trans ?_)
      rw [hbit, decide_eq_false (by omega)]
      rfl
    rw [if_neg (not_not.mpr hzero), if_pos hk, BitVec.toInt_eq_toNat_of_lt (by omega), hnat]
  · have hone : BitVec.ofNat 32 k &&& 0x800 ≠ 0 := by
      intro hzero
      rw [hzero, hbit, decide_eq_true (by omega)] at hand
      exact absurd hand (by decide)
    have hset : ((BitVec.ofNat 32 k ||| 0xF000).setWidth 16).toNat = k + 0xF000 := by
      rw [BitVec.toNat_setWidth, hor]
      omega
    rw [if_pos hone, if_neg hk, BitVec.toInt_eq_toNat_cond, hset, if_neg (by omega)]
    push_cast
    omega

theorem level2At_code {level : ℤ} (hlevel : InRange false level) {u : List Bool} (hu : u.length = 12) :
    level2At 12 (u ++ levelCode2 level) = .ok (level, 24) := by
  have hbound : level.natAbs ≤ 2047 := hlevel.2
  have hk : (level % 4096).toNat < 4096 := by omega
  have hvalue := valueAt_digits (b := 12) (n := 12) [] hu hk (by decide)
  rw [List.append_nil] at hvalue
  unfold level2At levelCode2
  rw [hvalue]
  show Except.ok (_, _) = _
  rw [toInt_twelve hk]
  congr 2
  split_ifs <;> omega

/-- A level of eight bits. -/
theorem level1At_short {u : List Bool} (hu : u.length = 12) {k : ℕ} (hk : k < 256) (h0 : k ≠ 0) (h128 : k ≠ 128) :
    level1At 12 (u ++ digits 8 k) = .ok (if 128 < k then (k : ℤ) - 256 else k, 20) := by
  have hvalue := valueAt_digits (b := 8) (n := 12) [] hu hk (by decide)
  rw [List.append_nil] at hvalue
  have hzero : BitVec.ofNat 32 k ≠ 0 := by
    intro hc
    have hnat := congrArg BitVec.toNat hc
    rw [BitVec.toNat_ofNat, show (0 : Word).toNat = 0 from rfl] at hnat
    omega
  have hlow : (BitVec.ofNat 32 k).setWidth 8 ≠ 128#8 := by
    intro hc
    have hnat := congrArg BitVec.toNat hc
    rw [BitVec.toNat_setWidth, BitVec.toNat_ofNat, show (128#8 : BitVec 8).toNat = 128 from rfl] at hnat
    omega
  have hnat : (BitVec.ofNat 32 k).toNat = k := by
    rw [BitVec.toNat_ofNat]
    omega
  unfold level1At
  rw [hvalue]
  show (if BitVec.ofNat 32 k = 0 then _ else if (BitVec.ofNat 32 k).setWidth 8 = 128#8 then _ else _) = _
  rw [if_neg hzero, if_neg hlow]
  simp only [hnat, toInt_byte hk, toInt_byte_sub hk]

/-- The first eight bits of a level of sixteen, and the other eight. -/
theorem valueAt_long {u : List Bool} (hu : u.length = 12) {f k : ℕ} (hf : f < 256) (hk : k < 256) :
    valueAt 8 12 (u ++ (digits 8 f ++ digits 8 k)) = .ok (BitVec.ofNat 32 f, 20) ∧
      valueAt 8 20 (u ++ (digits 8 f ++ digits 8 k)) = .ok (BitVec.ofNat 32 k, 28) := by
  have hlen : (u ++ digits 8 f).length = 20 := by rw [List.length_append, digits_length, hu]
  have hfirst := valueAt_digits (b := 8) (n := 12) (digits 8 k) hu hf (by decide)
  have hsecond := valueAt_digits (b := 8) (n := 20) [] hlen hk (by decide)
  rw [List.append_assoc] at hfirst
  rw [List.append_nil, List.append_assoc] at hsecond
  exact ⟨hfirst, hsecond⟩

/-- A level from 128 on has eight zeros in front. -/
theorem level1At_positive {u : List Bool} (hu : u.length = 12) {k : ℕ} (hk : k < 256) :
    level1At 12 (u ++ (digits 8 0 ++ digits 8 k)) = .ok ((k : ℤ), 28) := by
  obtain ⟨hfirst, hsecond⟩ := valueAt_long hu (f := 0) (by decide) hk
  have hzero : BitVec.ofNat 32 0 = 0 := rfl
  unfold level1At
  rw [hfirst]
  simp only [bind, Except.bind]
  rw [if_pos hzero, hsecond]
  simp only [toInt_byte hk]

/-- A level below -127 has the byte 128 in front. -/
theorem level1At_negative {u : List Bool} (hu : u.length = 12) {k : ℕ} (hk : k < 256) :
    level1At 12 (u ++ (digits 8 128 ++ digits 8 k)) = .ok ((k : ℤ) - 256, 28) := by
  obtain ⟨hfirst, hsecond⟩ := valueAt_long hu (f := 128) (by decide) hk
  have hzero : ¬ BitVec.ofNat 32 128 = 0 := by decide
  have hlow : (BitVec.ofNat 32 128).setWidth 8 = 128#8 := rfl
  unfold level1At
  rw [hfirst]
  simp only [bind, Except.bind]
  rw [if_neg hzero, if_pos hlow, hsecond]
  simp only [toInt_byte_sub hk]

theorem level1At_code {level : ℤ} (hlevel : InRange true level) {u : List Bool} (hu : u.length = 12) :
    level1At 12 (u ++ levelCode1 level) = .ok (level, 12 + (levelCode1 level).length) := by
  obtain ⟨h0, hbound⟩ := hlevel
  have hbound' : level.natAbs ≤ 255 := hbound
  unfold levelCode1
  by_cases hshort : level.natAbs ≤ 127
  · rw [if_pos hshort, level1At_short hu (by omega) (by omega) (by omega), digits_length]
    congr 2
    split_ifs <;> omega
  · rw [if_neg hshort]
    by_cases hpos : 0 < level
    · rw [if_pos hpos, level1At_positive hu (by omega), List.length_append, digits_length, digits_length]
      congr 2
      omega
    · rw [if_neg hpos, level1At_negative hu (by omega), List.length_append, digits_length, digits_length]
      congr 2
      omega

theorem escape_entry (t : CoeffTable) : ∃ e ∈ t.vlc.table, e.code = escapeCode ∧ e.bits = 6 ∧
    (runlevelTable.getD e.value.toNat ⟨0, 0⟩).run = runEscape := by
  cases t with
  | zero => exact ⟨⟨0x1, 15, 6⟩, by decide, rfl, rfl, rfl⟩
  | one => exact ⟨⟨0x1, 15, 6⟩, by decide, rfl, rfl, rfl⟩

/-- An escape code, whatever the bits of its level are. -/
theorem pairAt_escape (t : CoeffTable) {run : ℕ} (hrun : run ≤ 63) {w : List Bool} {level : ℤ} {n : ℕ}
    (hlevel : escapeAt mpeg1 12 t (escapeCode ++ digits 6 run ++ w) = .ok (level, n)) :
    pairAt mpeg1 t (escapeCode ++ digits 6 run ++ w) = .ok (⟨run, level⟩, n) := by
  obtain ⟨e, he, hcode, hbits, hescape⟩ := escape_entry t
  have hsymbol : t.vlc.symbol (escapeCode ++ digits 6 run ++ w) = .ok e := by
    refine (sound_vlc t).symbol_of_starting he ?_
    rw [hcode, List.append_assoc]
    exact List.prefix_append _ _
  have hvalue := valueAt_digits (b := 6) (n := 6) (u := escapeCode) w rfl (k := run) (by omega) (by decide)
  unfold pairAt
  rw [hsymbol]
  simp only [bind, Except.bind]
  rw [if_pos hescape, hbits, hvalue]
  simp only [hlevel, toInt_byte (show run < 256 by omega)]

theorem length_escape (run : ℕ) : (escapeCode ++ digits 6 run).length = 12 := by
  rw [List.length_append, digits_length]
  rfl

/-- A code that is not the short one of a first coefficient. -/
theorem pairAt_code {t : CoeffTable} {first : Bool} {run : ℕ} {level : ℤ} {c : List Bool} (hrun : run ≤ 63)
    (hlevel : InRange mpeg1 level) (hc : StandardCode t mpeg1 first run level c)
    (hfirst : first = true → ¬ (run = 0 ∧ level.natAbs = 1) ∨ escapeCode <+: c)
    (hone : t = .one → mpeg1 = true → ¬ escapeCode <+: c) :
    pairAt mpeg1 t c = .ok (⟨run, level⟩, c.length) := by
  have hstarts : ∀ w, escapeCode <+: escapeCode ++ digits 6 run ++ w := by
    intro w
    rw [List.append_assoc]
    exact List.prefix_append _ _
  cases hc with
  | first hf hr hl =>
    rcases hfirst hf with hnot | hescape
    · exact absurd ⟨hr, hl⟩ hnot
    · have hlen := hescape.length_le
      simp [escapeCode] at hlen
  | table _ hcode => exact pairAt_table mpeg1 hlevel.1 hcode
  | escape1 hmode =>
    have hzero : t = .zero := by
      cases t with
      | zero => rfl
      | one => exact absurd (hstarts _) (hone rfl hmode)
    rw [hmode] at hlevel ⊢
    rw [hzero]
    refine pairAt_escape true .zero hrun ?_
    rw [List.length_append, length_escape]
    exact level1At_code hlevel (length_escape run)
  | escape2 hmode =>
    rw [hmode] at hlevel ⊢
    have hcode := level2At_code hlevel (length_escape run)
    refine pairAt_escape false t hrun ?_
    rw [List.length_append, length_escape, levelCode2, digits_length]
    cases t with
    | zero => exact hcode
    | one => exact hcode

theorem dcAt_false (w : List Bool) : dcAt mpeg1 (false :: w) = pairAt mpeg1 .zero (false :: w) := by
  have hnext : next 1 (false :: w) = .ok 0 := by
    unfold next
    rw [if_pos (by simp)]
    rfl
  unfold dcAt
  rw [hnext]
  rfl

theorem dcAt_first (b : Bool) : dcAt mpeg1 [true, b] = .ok (⟨0, if b then -1 else 1⟩, 2) := by
  cases b <;> rfl

/-- Apart from that of the level 1 without a run, every code of the first table begins with a zero. -/
theorem standard0_zero {run l : ℕ} {c : ℕ × ℕ} (h : CoeffTable.zero.codeOf run (l + 1) = some c)
    (hne : ¬ (run = 0 ∧ l = 0)) : (digits c.1 c.2).head? = some false := by
  have hall : ∀ p ∈ CoeffTable.zero.codes, ¬ (p.1.1 = 0 ∧ p.1.2 = 0) →
      (digits p.2.1 p.2.2).head? = some false := by decide
  exact hall _ (mem_codes h) hne

theorem eq_cons_of_head? {b : Bool} {w : List Bool} (h : w.head? = some b) : w = b :: w.tail :=
  (List.cons_head?_tail h).symm

theorem dcAt_code {run : ℕ} {level : ℤ} {c : List Bool} (hrun : run ≤ 63) (hlevel : InRange mpeg1 level)
    (hc : StandardCode .zero mpeg1 true run level c) : dcAt mpeg1 c = .ok (⟨run, level⟩, c.length) := by
  have hescape : ∀ w, dcAt mpeg1 (escapeCode ++ digits 6 run ++ w) =
      pairAt mpeg1 .zero (escapeCode ++ digits 6 run ++ w) := by
    intro w
    exact dcAt_false mpeg1 _
  have hstarts : ∀ w, escapeCode <+: escapeCode ++ digits 6 run ++ w := by
    intro w
    rw [List.append_assoc]
    exact List.prefix_append _ _
  have hnever : CoeffTable.zero = .one → mpeg1 = true → ¬ escapeCode <+: c := by
    intro hno
    cases hno
  cases hc with
  | first _ hr hl =>
    rw [dcAt_first, hr]
    unfold signBit
    by_cases hneg : level < 0
    · rw [decide_eq_true hneg, show level = -1 by omega]
      rfl
    · rw [decide_eq_false hneg, show level = 1 by omega]
      rfl
  | @table k hf hcode =>
    have hnot := hf rfl
    have h0 := hlevel.1
    obtain ⟨hr, hl⟩ := codeOf_bounds hcode
    have hsucc : level.natAbs - 1 + 1 = level.natAbs := by omega
    have hhead := standard0_zero (l := level.natAbs - 1) (by rw [hsucc]; exact hcode) (by omega)
    have hcons : digits k.1 k.2 ++ [signBit level] = false :: ((digits k.1 k.2).tail ++ [signBit level]) := by
      conv_lhs => rw [eq_cons_of_head? hhead]
      rfl
    rw [hcons, dcAt_false, ← hcons]
    exact pairAt_table mpeg1 h0 hcode
  | escape1 hmode =>
    rw [hescape]
    have hcode : StandardCode .zero mpeg1 true run level _ := .escape1 hmode
    exact pairAt_code mpeg1 hrun hlevel hcode (fun _ => .inr (hstarts _)) hnever
  | escape2 hmode =>
    rw [hescape]
    have hcode : StandardCode .zero mpeg1 true run level _ := .escape2 hmode
    exact pairAt_code mpeg1 hrun hlevel hcode (fun _ => .inr (hstarts _)) hnever

/-- With the second table there is no first coefficient, and no escape code of MPEG-1. -/
def Supported (t : CoeffTable) (mpeg1 first : Bool) (c : List Bool) : Prop :=
  t = .one → first = false ∧ (mpeg1 = true → ¬ escapeCode <+: c)

/-- **Run and level decoding inverts the coding.** The decoder answers the pair wherever the stream begins with
one of its codes, and moves on by that code; where the stream ends inside the code it asks for more data, and
nothing is consumed. -/
theorem decodePair_inverts {t : CoeffTable} {mpeg1 first : Bool} {run : ℕ} {level : ℤ} {c : List Bool}
    (hrun : run ≤ 63) (hlevel : InRange mpeg1 level) (hc : StandardCode t mpeg1 first run level c)
    (hok : Supported t mpeg1 first c) {calls : List Call} (hcalls : Call.ClearAll calls reset) (stack : Quad) :
    let q := Call.execAll calls reset
    let out := decodePair stack mpeg1 first t q
    (c <+: q.stream → out.1 = .ok ⟨run, level⟩ ∧ out.2.stream = q.stream.drop c.length) ∧
      (q.stream <+: c → q.stream ≠ c →
        out.1 = .error .moreData ∧ out.2.f = q.f ∧ out.2.bitPointer = q.bitPointer) := by
  intro q out
  have hq : q.Coherent := coherent_reset.execAll calls hcalls
  cases first with
  | true =>
    have hzero : t = .zero := by
      cases t with
      | zero => rfl
      | one => exact absurd (hok rfl).1 (by decide)
    subst hzero
    exact moves_code (moves_getRunlevelPairDc stack mpeg1) (gradual_dcAt mpeg1) (fun s a h => fits_dcAt mpeg1 h)
      (dcAt_code mpeg1 hrun hlevel hc) hq
  | false =>
    have hpair := pairAt_code mpeg1 hrun hlevel hc (fun h => by cases h) fun ht => (hok ht).2
    exact moves_code (moves_getRunlevelPair stack mpeg1 t) (gradual_pairAt mpeg1 t)
      (fun s a h => (fits_pairAt mpeg1 h).2.2) hpair hq

/-- The run 5 and the level -200 in MPEG-1. -/
theorem decodePair_escape :
    (decodePair 0 true false .zero (Call.execAll [.reset 0, .push 0x80035804] reset)).1 = .ok ⟨5, -200⟩ := by
  have hcalls : Call.ClearAll [.reset 0, .push 0x80035804] reset := ⟨trivial, trivial, trivial⟩
  have hrange : InRange true (-200) := ⟨by decide, by decide⟩
  have hcode : StandardCode .zero true false 5 (-200) (escapeCode ++ digits 6 5 ++ levelCode1 (-200)) :=
    .escape1 rfl
  have hsupported : Supported .zero true false (escapeCode ++ digits 6 5 ++ levelCode1 (-200)) :=
    fun h => absurd h (by decide)
  have hinverts := decodePair_inverts (by decide) hrange hcode hsupported hcalls 0
  exact (hinverts.1 (by decide)).1

/-- The second table stops the program at an escape code of MPEG-1, and at every first coefficient. -/
theorem not_decodePair_inverts :
    (¬ ∀ (t : CoeffTable) (mpeg1 first : Bool) (run : ℕ) (level : ℤ) (c : List Bool), run ≤ 63 →
      InRange mpeg1 level → StandardCode t mpeg1 first run level c → ∀ calls, Call.ClearAll calls reset →
        ∀ stack, c <+: (Call.execAll calls reset).stream →
          (decodePair stack mpeg1 first t (Call.execAll calls reset)).1 = .ok ⟨run, level⟩) ∧
      ∀ stack mpeg1 q, (decodePair stack mpeg1 true .one q).1 =
        .error (.died "get_runlevel_pair_dc should never happen") := by
  constructor
  · intro h
    have hrange : InRange true 1 := ⟨by decide, by decide⟩
    have hdecodes := h .one true false 0 1 _ (by decide) hrange (.escape1 rfl) [.reset 0, .push 0x100004]
      ⟨trivial, trivial, trivial⟩ 0 (by decide)
    have hdies : (decodePair 0 true false .one (Call.execAll [.reset 0, .push 0x100004] reset)).1 =
        .error (.died "MPEG1???\n") := by decide
    rw [hdies] at hdecodes
    cases hdecodes
  · exact fun _ _ _ => rfl

end DobieStation.Ipu
