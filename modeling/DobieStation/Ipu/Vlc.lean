import DobieStation.Ipu.Fifo
import DobieStation.Lib.PrefixCode
import Mathlib.Data.List.TakeWhile

/-! # Decoding of variable-length codes

The translation of `VLC_Table`. A decoder that peeks is a function of the stream (`Sees`). For the one of a
table that function is `symbol`, the entry whose code the stream begins with, if the table is `Sound`. -/

namespace DobieStation.Ipu

open BitStrings PrefixCode

/-- Why a decoder does not return true: it returns false, or throws a `VLC_Error`, or the emulator dies. -/
inductive Stop where
  | moreData
  | vlcError
  | died (message : String)
  deriving DecidableEq, Repr

abbrev Decoder := ExceptT Stop (StateM FIFO)

/-- `if (!FIFO.get_bits(data, bits)) return false;`. -/
def read (stack : Quad) (bits : ℕ) : Decoder Word :=
  ExceptT.mk fun q =>
    let r := q.getBits stack bits
    (r.1.elim (.error .moreData) .ok, r.2)

def advance (amount : ℕ) : Decoder Unit := ExceptT.mk fun q => (.ok (), (q.advanceStream amount).2)

structure VLCEntry where
  key : Word
  value : Word
  bits : ℕ
  deriving DecidableEq, Repr

structure VLCTable where
  table : List VLCEntry
  tableSize : ℕ
  maxBits : ℕ
  indexTable : List ℕ

/-- The loop over the entries of one length. -/
def scan (key : Word) (bits : ℕ) : List VLCEntry → Option VLCEntry
  | [] => none
  | e :: table => if bits ≠ e.bits then none else if key = e.key then some e else scan key bits table

namespace VLCTable

def entriesFrom (T : VLCTable) (i : ℕ) : List VLCEntry :=
  (T.table.take T.tableSize).drop (T.indexTable.getD i 0)

/-- The last `n` rounds of the loop over the lengths. -/
def peekFrom (T : VLCTable) (stack : Quad) : ℕ → ℕ → Decoder VLCEntry
  | 0, _ => throw .vlcError
  | n + 1, i => do
    let key ← read stack (i + 1)
    match scan key (i + 1) (T.entriesFrom i) with
    | some entry => pure entry
    | none => peekFrom T stack n (i + 1)

def peekSymbol (T : VLCTable) (stack : Quad) : Decoder VLCEntry := T.peekFrom stack T.maxBits 0

def getSymbol (T : VLCTable) (stack : Quad) : Decoder Word := do
  let entry ← T.peekSymbol stack
  advance entry.bits
  pure entry.value

end VLCTable

/-! ### Decoders as functions of the stream -/

section

variable {α β : Type}

/-- The decoder does not move, and what it answers depends on the stream only. -/
def Sees (d : Decoder α) (r : List Bool → Except Stop α) : Prop :=
  ∀ q : FIFO, q.Coherent → ∃ q', d q = (r q.stream, q') ∧ q'.Coherent ∧ q'.f = q.f ∧ q'.bitPointer = q.bitPointer

/-- The queue is past the bits that the answer took, and where it was without an answer. -/
def Left (q : FIFO) : Except Stop (α × ℕ) → FIFO → Prop
  | .ok a, q' => q'.stream = q.stream.drop a.2
  | .error _, q' => q'.f = q.f ∧ q'.bitPointer = q.bitPointer

/-- The decoder moves past what it answers. -/
def Moves (d : Decoder α) (r : List Bool → Except Stop (α × ℕ)) : Prop :=
  ∀ q : FIFO, q.Coherent → ∃ q', d q = ((r q.stream).map Prod.fst, q') ∧ q'.Coherent ∧ Left q (r q.stream) q'

theorem bind_run (d : Decoder α) (k : α → Decoder β) (q : FIFO) :
    (d >>= k) q = ExceptT.bindCont k (d q).1 (d q).2 := rfl

theorem Sees.pure (a : α) : Sees (pure a) fun _ => .ok a := fun q h => ⟨q, rfl, h, rfl, rfl⟩

theorem Sees.throw (e : Stop) : Sees (throw e : Decoder α) fun _ => .error e := fun q h => ⟨q, rfl, h, rfl, rfl⟩

theorem Sees.bind {d : Decoder α} {k : α → Decoder β} {r : List Bool → Except Stop α}
    {r' : α → List Bool → Except Stop β} (hd : Sees d r) (hk : ∀ a, Sees (k a) (r' a)) :
    Sees (d >>= k) fun s => r s >>= fun a => r' a s := by
  intro q hq
  obtain ⟨q₁, hrun, hq₁, hf₁, hp₁⟩ := hd q hq
  have hstream : q₁.stream = q.stream := by rw [FIFO.stream, hf₁, hp₁, FIFO.stream]
  rw [bind_run, hrun]
  dsimp only
  cases r q.stream with
  | error e => exact ⟨q₁, rfl, hq₁, hf₁, hp₁⟩
  | ok a =>
    obtain ⟨q₂, hrun₂, hq₂, hf₂, hp₂⟩ := hk a q₁ hq₁
    refine ⟨q₂, ?_, hq₂, hf₂.trans hf₁, hp₂.trans hp₁⟩
    change k a q₁ = (r' a q.stream, q₂)
    rw [hrun₂, hstream]

theorem Sees.ite {d d' : Decoder α} {r r' : List Bool → Except Stop α} (c : Prop) [Decidable c] (h : Sees d r)
    (h' : Sees d' r') : Sees (if c then d else d') fun s => if c then r s else r' s := by
  by_cases hc : c
  · simpa only [if_pos hc] using h
  · simpa only [if_neg hc] using h'

/-- The decoder that moves past what another one sees. -/
theorem Sees.advance {d : Decoder α} {r : List Bool → Except Stop α} (hd : Sees d r) (f : α → β) (n : α → ℕ)
    (hn : ∀ s a, r s = .ok a → 0 < n a ∧ n a ≤ 32 ∧ n a ≤ s.length) :
    Moves (do let a ← d; advance (n a); Pure.pure (f a)) fun s => (r s).map fun a => (f a, n a) := by
  intro q hq
  obtain ⟨q₁, hrun, hq₁, hf, hp⟩ := hd q hq
  have hstream : q₁.stream = q.stream := by rw [FIFO.stream, hf, hp, FIFO.stream]
  rw [bind_run, hrun]
  dsimp only
  cases hr : r q.stream with
  | error e => exact ⟨q₁, rfl, hq₁, hf, hp⟩
  | ok a =>
    obtain ⟨hpos, h32, hlen⟩ := hn _ a hr
    obtain ⟨hadvance, hq₂, hstream₂⟩ := hq₁.advanceStream_eq hpos h32 (by rw [hstream]; exact hlen)
    refine ⟨q₁.moveOn (n a), ?_, hq₂, hstream₂.trans (by rw [hstream])⟩
    change (Except.ok (f a), (q₁.advanceStream (n a)).2) = (Except.ok (f a), q₁.moveOn (n a))
    rw [hadvance]

theorem Sees.bind_moves {d : Decoder α} {k : α → Decoder β} {r : List Bool → Except Stop α}
    {r' : α → List Bool → Except Stop (β × ℕ)} (hd : Sees d r) (hk : ∀ a, Moves (k a) (r' a)) :
    Moves (d >>= k) fun s => r s >>= fun a => r' a s := by
  intro q hq
  obtain ⟨q₁, hrun, hq₁, hf, hp⟩ := hd q hq
  have hstream : q₁.stream = q.stream := by rw [FIFO.stream, hf, hp, FIFO.stream]
  rw [bind_run, hrun]
  dsimp only
  cases r q.stream with
  | error e => exact ⟨q₁, rfl, hq₁, hf, hp⟩
  | ok a =>
    obtain ⟨q₂, hrun₂, hq₂, hleft⟩ := hk a q₁ hq₁
    rw [hstream] at hrun₂ hleft
    refine ⟨q₂, hrun₂, hq₂, ?_⟩
    change Left q (r' a q.stream) q₂
    cases hr' : r' a q.stream with
    | error e =>
      rw [hr'] at hleft
      exact ⟨hleft.1.trans hf, hleft.2.trans hp⟩
    | ok b =>
      rw [hr'] at hleft
      exact hleft.trans (by rw [hstream])

end

/-- The next bits of the stream, if there are as many. -/
def next (n : ℕ) (s : List Bool) : Except Stop Word :=
  if n ≤ s.length then .ok (BitVec.ofNat 32 (value (s.take n))) else .error .moreData

theorem sees_read (stack : Quad) {n : ℕ} (hpos : 0 < n) (hn : n ≤ 32) : Sees (read stack n) (next n) := by
  intro q hq
  by_cases hlen : n ≤ q.stream.length
  · refine ⟨q.filled stack, ?_, hq.filled stack, q.filled_f stack, q.filled_bitPointer stack⟩
    change (Option.elim (q.getBits stack n).1 _ _, (q.getBits stack n).2) = _
    rw [hq.getBits_eq stack hpos hn hlen, next, if_pos hlen]
    rfl
  · refine ⟨q, ?_, hq, rfl, rfl⟩
    change (Option.elim (q.getBits stack n).1 _ _, (q.getBits stack n).2) = _
    rw [FIFO.getBits_short stack (by omega), next, if_neg hlen]
    rfl

/-! ### The codes of a table -/

def VLCEntry.code (e : VLCEntry) : List Bool := digits e.bits e.key.toNat

theorem VLCEntry.code_length (e : VLCEntry) : e.code.length = e.bits := digits_length _ _

namespace VLCTable

structure Sound (T : VLCTable) : Prop where
  tableSize : T.tableSize = T.table.length
  maxBits : T.maxBits ≤ 32
  bits : ∀ e ∈ T.table, 0 < e.bits ∧ e.bits ≤ T.maxBits
  key : ∀ e ∈ T.table, e.key.toNat < 2 ^ e.bits
  prefixFree : PrefixFree VLCEntry.code T.table
  /-- An entry is among those the loop sees in the round of its length. -/
  index : ∀ e ∈ T.table, e ∈ (T.entriesFrom (e.bits - 1)).takeWhile (·.bits = e.bits)

/-- What makes a table sound, in numbers: it is sorted by length, and no key begins a later one. -/
def Checked (T : VLCTable) : Prop :=
  T.tableSize = T.table.length ∧ T.maxBits ≤ 32 ∧
    (∀ e ∈ T.table, (0 < e.bits ∧ e.bits ≤ T.maxBits) ∧ e.key.toNat < 2 ^ e.bits ∧
      e ∈ (T.entriesFrom (e.bits - 1)).takeWhile (·.bits = e.bits)) ∧
    T.table.Pairwise fun e f => e.bits ≤ f.bits ∧ f.key.toNat >>> (f.bits - e.bits) ≠ e.key.toNat

instance (T : VLCTable) : Decidable T.Checked := by unfold Checked; infer_instance

theorem Checked.sound {T : VLCTable} (h : T.Checked) : T.Sound where
  tableSize := h.1
  maxBits := h.2.1
  bits e he := (h.2.2.1 e he).1
  key e he := (h.2.2.1 e he).2.1
  index e he := (h.2.2.1 e he).2.2
  prefixFree := by
    have hkey := fun e he => (h.2.2.1 e he).2.1
    refine h.2.2.2.imp_of_mem fun {e f} he hf hef => ?_
    have hfront : ¬ e.code <+: f.code := by
      rw [VLCEntry.code, VLCEntry.code, digits_prefix_digits_iff (hkey e he) (hkey f hf), ← Nat.shiftRight_eq_div_pow]
      exact fun h => hef.2 h.2
    refine ⟨hfront, fun hback => hfront ?_⟩
    have hle := hback.length_le
    rw [e.code_length, f.code_length] at hle
    rw [hback.eq_of_length (by rw [e.code_length, f.code_length]; exact hle.antisymm hef.1)]

/-- The last condition of `Checked`, computed. -/
def apart : List VLCEntry → Bool
  | [] => true
  | e :: l => (l.all fun f => Nat.ble e.bits f.bits &&
      !Nat.beq (f.key.toNat >>> (f.bits - e.bits)) e.key.toNat) && apart l

theorem pairwise_of_apart : ∀ {l : List VLCEntry}, apart l = true →
    l.Pairwise fun e f => e.bits ≤ f.bits ∧ f.key.toNat >>> (f.bits - e.bits) ≠ e.key.toNat
  | [], _ => .nil
  | e :: l, h => by
    rw [apart, Bool.and_eq_true] at h
    refine List.pairwise_cons.mpr ⟨fun f hf => ?_, pairwise_of_apart h.2⟩
    have hef := List.all_eq_true.mp h.1 f hf
    rw [Bool.and_eq_true, Bool.not_eq_true'] at hef
    exact ⟨Nat.le_of_ble_eq_true hef.1, Nat.ne_of_beq_eq_false hef.2⟩

/-- The conditions of `Checked` that are about one entry. -/
def Entries (T : VLCTable) : Prop :=
  T.tableSize = T.table.length ∧ T.maxBits ≤ 32 ∧
    ∀ e ∈ T.table, (0 < e.bits ∧ e.bits ≤ T.maxBits) ∧ e.key.toNat < 2 ^ e.bits ∧
      e ∈ (T.entriesFrom (e.bits - 1)).takeWhile (·.bits = e.bits)

instance (T : VLCTable) : Decidable T.Entries := by unfold Entries; infer_instance

theorem Entries.checked {T : VLCTable} (h : T.Entries) (hapart : apart T.table = true) : T.Checked :=
  ⟨h.1, h.2.1, h.2.2, pairwise_of_apart hapart⟩

/-- The entry whose code the stream begins with. -/
def symbol (T : VLCTable) (s : List Bool) : Except Stop VLCEntry :=
  match T.table.find? fun e => e.code <+: s with
  | some e => .ok e
  | none => .error (if T.maxBits ≤ s.length then .vlcError else .moreData)

/-- The loop over the lengths, on a stream. -/
def search (T : VLCTable) : ℕ → ℕ → List Bool → Except Stop VLCEntry
  | 0, _, _ => .error .vlcError
  | n + 1, i, s => next (i + 1) s >>= fun key =>
    (scan key (i + 1) (T.entriesFrom i)).elim (T.search n (i + 1) s) .ok

end VLCTable

variable {T : VLCTable}

theorem sees_peekFrom (stack : Quad) : ∀ n i, i + n ≤ 32 → Sees (T.peekFrom stack n i) (T.search n i)
  | 0, _, _ => Sees.throw _
  | n + 1, i, hn => by
    refine (sees_read stack i.succ_pos (by omega)).bind fun key => ?_
    cases scan key (i + 1) (T.entriesFrom i) with
    | some entry => exact Sees.pure entry
    | none => exact sees_peekFrom stack n (i + 1) (by omega)

theorem scan_eq (key : Word) (bits : ℕ) : ∀ table : List VLCEntry,
    scan key bits table = (table.takeWhile (·.bits = bits)).find? (key = ·.key)
  | [] => rfl
  | e :: table => by
    rw [scan]
    by_cases hb : e.bits = bits
    · rw [if_neg (by simp [hb]), List.takeWhile_cons_of_pos (by simp [hb]), List.find?_cons,
        scan_eq key bits table]
      by_cases hk : key = e.key
      · rw [if_pos hk, decide_eq_true hk]
      · rw [if_neg hk, decide_eq_false hk]
    · rw [if_pos (Ne.symm hb), List.takeWhile_cons_of_neg (by simp [hb]), List.find?_nil]

theorem scan_some {key : Word} {bits : ℕ} {table : List VLCEntry} {e : VLCEntry}
    (h : scan key bits table = some e) : e ∈ table ∧ e.bits = bits ∧ key = e.key := by
  rw [scan_eq] at h
  have hmem := List.mem_of_find?_eq_some h
  exact ⟨(List.takeWhile_prefix _).subset hmem, by simpa using List.mem_takeWhile_imp hmem,
    by simpa using List.find?_some h⟩

namespace VLCTable.Sound

variable (hT : T.Sound) {s : List Bool} {e : VLCEntry}

include hT

theorem code_prefix_iff (he : e ∈ T.table) :
    e.code <+: s ↔ e.bits ≤ s.length ∧ BitVec.ofNat 32 (value (s.take e.bits)) = e.key := by
  have hkey := hT.key e he
  have hbits := (hT.bits e he).2.trans hT.maxBits
  rw [VLCEntry.code, digits_prefix_iff hkey]
  refine and_congr_right fun hlen => ?_
  have hvalue : value (s.take e.bits) < 2 ^ 32 := by
    have hlt := value_lt (s.take e.bits)
    rw [List.length_take, Nat.min_eq_left hlen] at hlt
    exact hlt.trans_le (Nat.pow_le_pow_right (by decide) hbits)
  rw [← BitVec.toNat_inj, BitVec.toNat_ofNat, Nat.mod_eq_of_lt hvalue]

theorem symbol_of_starting (he : e ∈ T.table) (hs : e.code <+: s) : T.symbol s = .ok e := by
  unfold symbol
  cases hf : T.table.find? fun e => e.code <+: s with
  | none => exact absurd hs (by simpa using List.find?_eq_none.mp hf e he)
  | some f =>
    have hfs : f.code <+: s := by simpa using List.find?_some hf
    rw [hT.prefixFree.unique (List.mem_of_find?_eq_some hf) he hfs hs]

end VLCTable.Sound

theorem symbol_ok {s : List Bool} {e : VLCEntry} (h : T.symbol s = .ok e) : e ∈ T.table ∧ e.code <+: s := by
  unfold VLCTable.symbol at h
  cases hf : T.table.find? fun e => e.code <+: s with
  | none =>
    rw [hf] at h
    cases h
  | some f =>
    rw [hf] at h
    obtain rfl : f = e := Except.ok.inj h
    exact ⟨List.mem_of_find?_eq_some hf, by simpa using List.find?_some hf⟩

theorem symbol_of_not_starting {s : List Bool} (h : ∀ e ∈ T.table, ¬ e.code <+: s) :
    T.symbol s = .error (if T.maxBits ≤ s.length then .vlcError else .moreData) := by
  have hf : (T.table.find? fun e => e.code <+: s) = none := by
    rw [List.find?_eq_none]
    intro e he
    simpa using h e he
  rw [VLCTable.symbol, hf]

theorem symbol_error_iff (hT : T.Sound) {s : List Bool} {x : Stop} :
    T.symbol s = .error x ↔
      (∀ e ∈ T.table, ¬ e.code <+: s) ∧ x = if T.maxBits ≤ s.length then .vlcError else .moreData := by
  by_cases hnone : ∀ e ∈ T.table, ¬ e.code <+: s
  · rw [symbol_of_not_starting hnone, Except.error.injEq]
    exact ⟨fun h => ⟨hnone, h.symm⟩, fun h => h.2.symm⟩
  · obtain ⟨e, he, hs⟩ : ∃ e ∈ T.table, e.code <+: s := by simpa using hnone
    rw [hT.symbol_of_starting he hs]
    exact ⟨fun h => (by cases h), fun h => absurd h.1 hnone⟩

theorem VLCTable.Sound.dead (hT : T.Sound) {s : List Bool} (hlen : T.maxBits ≤ s.length)
    (hnone : ∀ e ∈ T.table, ¬ e.code <+: s) : Dead VLCEntry.code T.table s :=
  dead_of_length (fun e he => e.code_length.le.trans ((hT.bits e he).2.trans hlen)) hnone

theorem symbol_vlcError_iff (hT : T.Sound) {s : List Bool} :
    T.symbol s = .error .vlcError ↔ Dead VLCEntry.code T.table s ∧ T.maxBits ≤ s.length := by
  rw [symbol_error_iff hT]
  constructor
  · rintro ⟨hnone, hx⟩
    have hlen : T.maxBits ≤ s.length := by
      by_contra hlen
      rw [if_neg hlen] at hx
      cases hx
    exact ⟨hT.dead hlen hnone, hlen⟩
  · rintro ⟨hdead, hlen⟩
    exact ⟨hdead s List.prefix_rfl, by rw [if_pos hlen]⟩

theorem symbol_moreData_iff (hT : T.Sound) {s : List Bool} :
    T.symbol s = .error .moreData ↔ Undecided VLCEntry.code T.table s ∨
      Dead VLCEntry.code T.table s ∧ s.length < T.maxBits := by
  rw [symbol_error_iff hT]
  constructor
  · rintro ⟨hnone, hx⟩
    have hlen : s.length < T.maxBits := by
      by_contra hlen
      rw [if_pos (Nat.le_of_not_lt hlen)] at hx
      cases hx
    by_cases hdead : Dead VLCEntry.code T.table s
    · exact Or.inr ⟨hdead, hlen⟩
    · exact Or.inl ⟨hnone, hdead⟩
  · rintro (⟨hnone, hdead⟩ | ⟨hdead, hlen⟩)
    · exact ⟨hnone, by rw [if_neg fun hlen => hdead (hT.dead hlen hnone)]⟩
    · exact ⟨hdead s List.prefix_rfl, by rw [if_neg (Nat.not_le_of_lt hlen)]⟩

/-- No entry shorter than the lengths still to be tried matches. -/
theorem VLCTable.Sound.search_eq (hT : T.Sound) {s : List Bool} : ∀ n i, i + n = T.maxBits → i ≤ s.length →
    (∀ e ∈ T.table, e.bits ≤ i → ¬ e.code <+: s) → T.search n i s = T.symbol s
  | 0, i, hn, hi, hnone => by
    have hall : ∀ e ∈ T.table, ¬ e.code <+: s := fun e he => hnone e he (by have := (hT.bits e he).2; omega)
    rw [search, symbol_of_not_starting hall, if_pos (by omega)]
  | n + 1, i, hn, hi, hnone => by
    rw [search, next]
    by_cases hlen : i + 1 ≤ s.length
    · rw [if_pos hlen]
      change (scan (BitVec.ofNat 32 (value (s.take (i + 1)))) (i + 1) (T.entriesFrom i)).elim
        (T.search n (i + 1) s) .ok = T.symbol s
      cases hscan : scan (BitVec.ofNat 32 (value (s.take (i + 1)))) (i + 1) (T.entriesFrom i) with
      | some e =>
        obtain ⟨he, hbits, hkey⟩ := scan_some hscan
        have hmem : e ∈ T.table := List.mem_of_mem_take (List.mem_of_mem_drop he)
        refine (hT.symbol_of_starting hmem ((hT.code_prefix_iff hmem).mpr ?_)).symm
        rw [hbits]
        exact ⟨hlen, hkey⟩
      | none =>
        refine hT.search_eq n (i + 1) (by omega) hlen fun e he hle hs => ?_
        by_cases hbits : e.bits = i + 1
        · obtain ⟨-, hkey⟩ := (hT.code_prefix_iff he).mp hs
          have hrun := hT.index e he
          rw [scan_eq, List.find?_eq_none] at hscan
          rw [hbits] at hkey hrun
          exact hscan e hrun (by simpa using hkey)
        · exact hnone e he (by omega) hs
    · have hall : ∀ e ∈ T.table, ¬ e.code <+: s := by
        intro e he hs
        have hle := hs.length_le
        rw [e.code_length] at hle
        exact hnone e he (by omega) hs
      rw [if_neg hlen, symbol_of_not_starting hall, if_neg (by omega)]
      rfl

namespace VLCTable.Sound

variable (hT : T.Sound) (stack : Quad) {q : FIFO} (hq : q.Coherent)

include hT

theorem sees_peekSymbol : Sees (T.peekSymbol stack) T.symbol := by
  intro q hq
  obtain ⟨q', hrun, hrest⟩ := sees_peekFrom (T := T) stack T.maxBits 0 (by have := hT.maxBits; omega) q hq
  refine ⟨q', ?_, hrest⟩
  rw [peekSymbol, hrun, hT.search_eq T.maxBits 0 (by omega) (Nat.zero_le _) fun e he hle => ?_]
  exact absurd (hT.bits e he).1 (by omega)

theorem moves_getSymbol : Moves (T.getSymbol stack) fun s => (T.symbol s).map fun e => (e.value, e.bits) := by
  refine (hT.sees_peekSymbol stack).advance VLCEntry.value VLCEntry.bits fun s e hs => ?_
  obtain ⟨he, hstarts⟩ := symbol_ok hs
  have hbits := hT.bits e he
  exact ⟨hbits.1, hbits.2.trans hT.maxBits, e.code_length ▸ hstarts.length_le⟩

include hq

theorem getSymbol_of_prefix {e : VLCEntry} (he : e ∈ T.table) (hs : e.code <+: q.stream) :
    (T.getSymbol stack q).1 = .ok e.value ∧ (T.getSymbol stack q).2.stream = q.stream.drop e.bits := by
  obtain ⟨q', hrun, -, hleft⟩ := hT.moves_getSymbol stack q hq
  dsimp only at hrun hleft
  rw [hT.symbol_of_starting he hs] at hrun hleft
  rw [hrun]
  exact ⟨rfl, hleft⟩

theorem getSymbol_error_iff {x : Stop} :
    (T.getSymbol stack q).1 = .error x ↔ T.symbol q.stream = .error x := by
  obtain ⟨q', hrun, -⟩ := hT.moves_getSymbol stack q hq
  rw [hrun]
  dsimp only
  cases T.symbol q.stream with
  | error y => exact ⟨fun h => congrArg _ (Except.error.inj h), fun h => congrArg _ (Except.error.inj h)⟩
  | ok e => exact ⟨fun h => (by cases h), fun h => (by cases h)⟩

/-- Without an answer nothing is consumed. -/
theorem getSymbol_error {x : Stop} (hx : (T.getSymbol stack q).1 = .error x) :
    (T.getSymbol stack q).2.f = q.f ∧ (T.getSymbol stack q).2.bitPointer = q.bitPointer := by
  have hsymbol := (hT.getSymbol_error_iff stack hq).mp hx
  obtain ⟨q', hrun, -, hleft⟩ := hT.moves_getSymbol stack q hq
  dsimp only at hleft
  rw [hsymbol] at hleft
  rw [hrun]
  exact hleft

end VLCTable.Sound

end DobieStation.Ipu
