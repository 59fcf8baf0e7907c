import DobieStation.Lib.Stepwise
import Mathlib.Data.BitVec
import Mathlib.Data.List.Basic
import Mathlib.Tactic.SplitIfs

/-! # The readers of the disc images

The translation of `iop/cdvd/iso_reader.cpp` and `iop/cdvd/bincuereader.cpp`. The first reads an image of the sectors'
data, the second one of whole sectors, of which it reads one at a time. They agree on every image of a size if and
only if each read is inside of a sector and begins where a sector does (`readers_agree_iff`). -/

namespace DobieStation.Cdvd.Readers

open DobieStation.Lib.Stepwise

abbrev Byte := BitVec 8
abbrev Word := BitVec 32

/-! ### The readers -/

/-- `std::ifstream`: a stream that has failed neither reads nor moves. -/
structure File where
  bytes : List Byte
  position : ℕ
  failed : Bool

def File.seekg (position : ℕ) (f : File) : File := if f.failed then f else { f with position := position }

/-- The bytes that are read; the stream fails if there are not enough. -/
def File.read (count : ℕ) (f : File) : List Byte × File :=
  if f.failed then ([], f)
  else
    let got := (f.bytes.drop f.position).take count
    (got, { f with position := f.position + got.length, failed := got.length < count })

/-- What is written into the buffer; `none` is a byte that is not of the image. -/
abbrev Written := List (Option Byte)

namespace ISOReader

def read (bytes : ℕ) (f : File) : Written × File := ((f.read bytes).1.map some, (f.read bytes).2)

def seek (pos : ℕ) (f : File) : File := f.seekg (pos * 2048)

end ISOReader

namespace BinCueReader

/-- A sector is read into `temp`, and `bytes` bytes of it are copied, whatever has been read of it. -/
def read (bytes : ℕ) (f : File) : Written × File :=
  let temp := (f.read 0x930).1
  ((List.range bytes).map fun i => temp[0x18 + i]?, (f.read 0x930).2)

def seek (pos : ℕ) (f : File) : File := f.seekg (pos * 0x930)

end BinCueReader

/-! ### The images -/

structure Sector where
  header : List Byte
  data : List Byte
  code : List Byte
  header_length : header.length = 0x18
  data_length : data.length = 2048
  code_length : code.length = 280

def Sector.raw (s : Sector) : List Byte := s.header ++ s.data ++ s.code

def raw (sectors : List Sector) : List Byte := sectors.flatMap Sector.raw

/-- The image of the data alone. -/
def cooked (sectors : List Sector) : List Byte := sectors.flatMap Sector.data

inductive Op where
  | seek (sector : Word)
  | read (bytes : Word)

/-- The two readers, each with its image. -/
structure Pair where
  iso : File
  bin : File

def Pair.next (l : Pair) : Op → Pair
  | .seek sector => ⟨ISOReader.seek sector.toNat l.iso, BinCueReader.seek sector.toNat l.bin⟩
  | .read bytes => ⟨(ISOReader.read bytes.toNat l.iso).2, (BinCueReader.read bytes.toNat l.bin).2⟩

def Step (l : Pair) (op : Op) (l' : Pair) : Prop := l' = l.next op

/-- A read writes the same into the buffer. -/
def Good (l : Pair) : Op → Prop
  | .seek _ => True
  | .read bytes => (BinCueReader.read bytes.toNat l.bin).1 = (ISOReader.read bytes.toNat l.iso).1

def opened (sectors : List Sector) : Pair := ⟨⟨cooked sectors, 0, false⟩, ⟨raw sectors, 0, false⟩⟩

/-- Where the readers are: the byte of the data and the sector that are read next, and whether the second one has
read beyond the end. -/
structure Heads where
  byte : ℕ
  sector : ℕ
  lost : Bool

/-- The readers after an operation, in an image of `n` sectors. -/
def Heads.next (n : ℕ) (h : Heads) : Op → Heads
  | .seek sector =>
    if h.lost then { h with byte := sector.toNat * 2048 }
    else ⟨sector.toNat * 2048, sector.toNat, false⟩
  | .read bytes =>
    if h.lost then { h with byte := h.byte + bytes.toNat }
    else if h.sector < n then ⟨h.byte + bytes.toNat, h.sector + 1, false⟩
    else ⟨h.byte + bytes.toNat, h.sector, true⟩

def Moves (n : ℕ) (h : Heads) (op : Op) (h' : Heads) : Prop := h' = h.next n op

/-- Each read of something begins with a sector of the image, where both readers are, and stays in it. -/
def Fine (n : ℕ) (h : Heads) : Op → Prop
  | .seek _ => True
  | .read bytes => bytes = 0 ∨ h.lost = false ∧ h.byte = h.sector * 2048 ∧ h.sector < n ∧ bytes.toNat ≤ 2048

/-! ### Images of sectors -/

section

variable {α β : Type*} {f : α → List β} {c : ℕ}

theorem drop_flatMap (hf : ∀ a, (f a).length = c) : ∀ (k : ℕ) (l : List α),
    (l.flatMap f).drop (k * c) = (l.drop k).flatMap f
  | 0, l => by
    rw [Nat.zero_mul]
    rfl
  | k + 1, [] => by
    rw [List.flatMap_nil, List.drop_nil, List.drop_nil, List.flatMap_nil]
  | k + 1, a :: l => by
    rw [List.flatMap_cons, List.drop_succ_cons, Nat.succ_mul, Nat.add_comm, ← List.drop_drop,
      List.drop_left' (hf a)]
    exact drop_flatMap hf k l

/-- A byte of a block. -/
theorem getElem?_flatMap (hf : ∀ a, (f a).length = c) (l : List α) (k : ℕ) {r : ℕ} (hr : r < c) :
    (l.flatMap f)[k * c + r]? = l[k]?.bind fun a => (f a)[r]? := by
  rw [← List.getElem?_drop, drop_flatMap hf]
  by_cases hk : k < l.length
  · rw [List.drop_eq_getElem_cons hk, List.flatMap_cons, List.getElem?_append_left (by rw [hf]; exact hr),
      List.getElem?_eq_getElem hk, Option.bind_some]
  · have hnil : l.drop k = [] := List.drop_eq_nil_of_le (by omega)
    rw [hnil, List.getElem?_eq_none (Nat.not_lt.mp hk)]
    rfl

end

theorem Sector.raw_length (s : Sector) : s.raw.length = 0x930 := by
  unfold raw
  rw [List.length_append, List.length_append, s.header_length, s.data_length, s.code_length]

/-- The data begin after the header, and the code after the data. -/
theorem Sector.getElem?_raw (s : Sector) (i : ℕ) :
    s.raw[0x18 + i]? = if i < 2048 then s.data[i]? else s.code[i - 2048]? := by
  have hlength : (s.header ++ s.data).length = 0x18 + 2048 := by
    rw [List.length_append, s.header_length, s.data_length]
  rw [raw, List.getElem?_append, hlength, List.getElem?_append, s.header_length]
  by_cases hi : i < 2048
  · have hin : 0x18 + i < 0x18 + 2048 := by omega
    have hout : ¬ 0x18 + i < 0x18 := by omega
    rw [if_pos hin, if_neg hout, if_pos hi, Nat.add_sub_cancel_left]
  · have hout : ¬ 0x18 + i < 0x18 + 2048 := by omega
    rw [if_neg hout, if_neg hi, Nat.add_sub_add_left]

variable {sectors : List Sector} {n : ℕ} {h : Heads} {bytes : Word}

theorem getElem?_cooked (sectors : List Sector) (b : ℕ) :
    (cooked sectors)[b]? = sectors[b / 2048]?.bind fun s => s.data[b % 2048]? := by
  have hsum : b / 2048 * 2048 + b % 2048 = b := Nat.div_add_mod' b 2048
  have hblock := getElem?_flatMap Sector.data_length sectors (b / 2048) (Nat.mod_lt b (by decide : 0 < 2048))
  rwa [hsum] at hblock

theorem length_flatMap {α : Type*} {f : α → List Byte} {c : ℕ} (hf : ∀ a, (f a).length = c) (l : List α) :
    (l.flatMap f).length = l.length * c := by
  induction l with
  | nil => rw [List.flatMap_nil, List.length_nil, List.length_nil, Nat.zero_mul]
  | cons a l ih => rw [List.flatMap_cons, List.length_append, ih, hf, List.length_cons, Nat.succ_mul, Nat.add_comm]

/-! ### The readers on an image -/

/-- The readers on the images of the same sectors. -/
def streams (sectors : List Sector) (h : Heads) : Pair :=
  ⟨⟨cooked sectors, h.byte, false⟩, ⟨raw sectors, h.sector * 0x930, h.lost⟩⟩

/-- The sector that the second reader reads next. -/
def Heads.ahead (sectors : List Sector) (h : Heads) : Option Sector := if h.lost then none else sectors[h.sector]?

theorem getElem?_temp (sectors : List Sector) (h : Heads) (j : ℕ) :
    ((streams sectors h).bin.read 0x930).1[j]? = (h.ahead sectors).bind fun s => s.raw[j]? := by
  unfold Heads.ahead File.read streams
  dsimp only
  split_ifs
  · rfl
  · by_cases hj : j < 0x930
    · rw [List.getElem?_take_of_lt hj, List.getElem?_drop]
      exact getElem?_flatMap Sector.raw_length sectors h.sector hj
    · rw [List.getElem?_eq_none (by rw [List.length_take]; omega)]
      rcases sectors[h.sector]? with _ | s
      · rfl
      · exact (List.getElem?_eq_none (by rw [s.raw_length]; omega)).symm

/-- A byte of the buffer after a read of the second reader. -/
theorem getElem?_bin (sectors : List Sector) (h : Heads) (count : ℕ) {i : ℕ} (hi : i < count) :
    (BinCueReader.read count (streams sectors h).bin).1[i]? =
      some ((h.ahead sectors).bind fun s => s.raw[0x18 + i]?) := by
  unfold BinCueReader.read
  dsimp only
  rw [List.getElem?_map, List.getElem?_range hi, Option.map_some, getElem?_temp]

theorem length_bin (l : Pair) (count : ℕ) : (BinCueReader.read count l.bin).1.length = count := by
  unfold BinCueReader.read
  rw [List.length_map, List.length_range]

theorem iso_read (sectors : List Sector) (h : Heads) (count : ℕ) :
    (ISOReader.read count (streams sectors h).iso).1 = (((cooked sectors).drop h.byte).take count).map some := rfl

/-- A byte of the buffer after a read of the first. -/
theorem getElem?_iso (sectors : List Sector) (h : Heads) (count : ℕ) {i : ℕ} (hi : i < count) :
    (ISOReader.read count (streams sectors h).iso).1[i]? = ((cooked sectors)[h.byte + i]?).map some := by
  rw [iso_read, List.getElem?_map, List.getElem?_take_of_lt hi, List.getElem?_drop]

theorem length_iso (sectors : List Sector) (h : Heads) (count : ℕ) :
    (ISOReader.read count (streams sectors h).iso).1.length = min count (sectors.length * 2048 - h.byte) := by
  rw [iso_read, List.length_map, List.length_take, List.length_drop, cooked, length_flatMap Sector.data_length]

/-! ### One operation -/

theorem good_of_fine (hn : sectors.length = n) (hfine : Fine n h (.read bytes)) :
    Good (streams sectors h) (.read bytes) := by
  apply List.ext_getElem?
  intro i
  by_cases hi : i < bytes.toNat
  · rcases hfine with rfl | ⟨hlost, hbyte, hsector, hbytes⟩
    · exact absurd hi (Nat.not_lt_zero i)
    · have hin : h.sector < sectors.length := by omega
      have hquot : (h.sector * 2048 + i) / 2048 = h.sector := by omega
      have hrem : (h.sector * 2048 + i) % 2048 = i := by omega
      have hahead : h.ahead sectors = sectors[h.sector]? := by rw [Heads.ahead, hlost]; rfl
      have hdata : i < 2048 := by omega
      rw [getElem?_bin _ _ _ hi, getElem?_iso _ _ _ hi, getElem?_cooked, hbyte, hquot, hrem, hahead,
        List.getElem?_eq_getElem hin, Option.bind_some, Option.bind_some, Sector.getElem?_raw, if_pos hdata,
        List.getElem?_eq_getElem (by rw [Sector.data_length]; exact hdata)]
      rfl
  · have hbin : (BinCueReader.read bytes.toNat (streams sectors h).bin).1.length ≤ i := by
      rw [length_bin]
      omega
    have hiso : (ISOReader.read bytes.toNat (streams sectors h).iso).1.length ≤ i := by
      rw [length_iso]
      omega
    rw [List.getElem?_eq_none hbin, List.getElem?_eq_none hiso]

/-- An image in which a sector begins with a byte that is found nowhere else. -/
def marked (n k : ℕ) : List Sector :=
  (List.range n).map fun j =>
    { header := List.replicate 0x18 0
      data := (if j = k then 1 else 0) :: List.replicate 2047 0
      code := List.replicate 280 2
      header_length := List.length_replicate
      data_length := congrArg (· + 1) List.length_replicate
      code_length := List.length_replicate }

theorem length_marked (n k : ℕ) : (marked n k).length = n := by
  rw [marked, List.length_map, List.length_range]

theorem code_marked {k i : ℕ} {s : Sector} (hs : s ∈ marked n k) (hi : i < 280) : s.code[i]? = some 2 := by
  obtain ⟨j, -, rfl⟩ := List.mem_map.mp hs
  exact List.getElem?_replicate_of_lt hi

theorem data_marked {k j i : ℕ} {s : Sector} (hs : (marked n k)[j]? = some s) (hi : i < 2048) :
    s.data[i]? = some (if j = k ∧ i = 0 then 1 else 0) := by
  rw [marked, List.getElem?_map, Option.map_eq_some_iff] at hs
  obtain ⟨j', hj', rfl⟩ := hs
  obtain rfl : j = j' := by
    obtain ⟨hlt, heq⟩ := List.getElem?_eq_some_iff.mp hj'
    rwa [List.getElem_range] at heq
  cases i with
  | zero =>
    rw [List.getElem?_cons_zero]
    simp only [and_true]
  | succ i =>
    have hnot : ¬ (j = k ∧ i + 1 = 0) := fun h => Nat.succ_ne_zero i h.2
    rw [List.getElem?_cons_succ, List.getElem?_replicate_of_lt (by omega), if_neg hnot]

/-- What the first reader finds in it. -/
theorem cooked_marked {k b : ℕ} (hb : b < n * 2048) :
    (cooked (marked n k))[b]? = some (if b = k * 2048 then 1 else 0) := by
  have hin : b / 2048 < (marked n k).length := by
    rw [length_marked]
    omega
  have hiff : b / 2048 = k ∧ b % 2048 = 0 ↔ b = k * 2048 := by omega
  rw [getElem?_cooked, List.getElem?_eq_getElem hin, Option.bind_some,
    data_marked (List.getElem?_eq_getElem hin) (Nat.mod_lt b (by decide))]
  simp only [hiff]

theorem fine_of_good (hgood : Good (streams (marked n h.sector) h) (.read bytes)) : Fine n h (.read bytes) := by
  by_cases hzero : bytes = 0
  · exact .inl hzero
  have hpos : 0 < bytes.toNat := by
    refine Nat.pos_of_ne_zero fun h0 => hzero (BitVec.eq_of_toNat_eq h0)
  have heq : (BinCueReader.read bytes.toNat (streams (marked n h.sector) h).bin).1 =
    (ISOReader.read bytes.toNat (streams (marked n h.sector) h).iso).1 := hgood
  have hlength : bytes.toNat = min bytes.toNat (n * 2048 - h.byte) := by
    have hlen := congrArg List.length heq
    rwa [length_bin, length_iso, length_marked] at hlen
  have hat : ∀ i < bytes.toNat, ((h.ahead (marked n h.sector)).bind fun s => s.raw[0x18 + i]?) =
      some (if h.byte + i = h.sector * 2048 then 1 else 0) := by
    intro i hi
    have hi' := congrArg (fun l => l[i]?) heq
    rw [getElem?_bin _ _ _ hi, getElem?_iso _ _ _ hi, cooked_marked (by omega)] at hi'
    exact Option.some.inj hi'
  rcases hahead : h.ahead (marked n h.sector) with _ | s
  · have hfirst := hat 0 hpos
    rw [hahead] at hfirst
    cases hfirst
  · rw [hahead] at hat
    unfold Heads.ahead at hahead
    split_ifs at hahead with hlost
    have hin : h.sector < n := by
      obtain ⟨hlt, -⟩ := List.getElem?_eq_some_iff.mp hahead
      rwa [length_marked] at hlt
    refine .inr ⟨Bool.eq_false_iff.mpr hlost, ?_, hin, ?_⟩
    · have hfirst := hat 0 hpos
      rw [Option.bind_some, Sector.getElem?_raw, if_pos (by decide), data_marked hahead (by decide),
        if_pos ⟨rfl, rfl⟩] at hfirst
      by_contra hne
      rw [Nat.add_zero, if_neg hne] at hfirst
      cases hfirst
    · by_contra hlarge
      have hcode := hat 2048 (by omega)
      rw [Option.bind_some, Sector.getElem?_raw, if_neg (by decide), code_marked (List.mem_of_getElem? hahead)
        (by decide)] at hcode
      split_ifs at hcode <;> cases hcode

theorem iso_next (sectors : List Sector) (h : Heads) {count : ℕ}
    (hcount : count ≤ sectors.length * 2048 - h.byte) :
    (ISOReader.read count (streams sectors h).iso).2 = ⟨cooked sectors, h.byte + count, false⟩ := by
  have hlength : (((cooked sectors).drop h.byte).take count).length = count := by
    rw [List.length_take, List.length_drop, cooked, length_flatMap Sector.data_length]
    exact Nat.min_eq_left hcount
  unfold ISOReader.read File.read streams
  dsimp only
  rw [if_neg Bool.false_ne_true, hlength, decide_eq_false (Nat.lt_irrefl count)]

theorem bin_next (sectors : List Sector) (h : Heads) (count : ℕ) :
    (BinCueReader.read count (streams sectors h).bin).2 =
      if h.lost then (streams sectors h).bin
      else if h.sector < sectors.length then ⟨raw sectors, (h.sector + 1) * 0x930, false⟩
      else ⟨raw sectors, h.sector * 0x930, true⟩ := by
  have hlength : (((raw sectors).drop (h.sector * 0x930)).take 0x930).length =
      if h.sector < sectors.length then 0x930 else 0 := by
    rw [List.length_take, List.length_drop, raw, length_flatMap Sector.raw_length]
    split_ifs <;> omega
  unfold BinCueReader.read File.read streams
  dsimp only
  rw [hlength]
  split_ifs with hlost hin
  · rfl
  · rw [Nat.succ_mul, decide_eq_false (Nat.lt_irrefl _)]
  · rw [Nat.add_zero, decide_eq_true (by decide)]

/-- Where a fine operation leaves the readers. -/
theorem next_streams {op : Op} (hn : sectors.length = n) (hfine : Fine n h op) :
    (streams sectors h).next op = streams sectors (h.next n op) := by
  cases op with
  | seek sector =>
    unfold Pair.next Heads.next BinCueReader.seek ISOReader.seek File.seekg streams
    dsimp only
    by_cases hlost : h.lost
    · rw [if_pos hlost, if_pos hlost]
      rfl
    · rw [if_neg hlost, if_neg hlost, Bool.eq_false_iff.mpr hlost]
      rfl
  | read bytes =>
    have hcount : bytes.toNat ≤ sectors.length * 2048 - h.byte := by
      rcases hfine with rfl | ⟨-, hbyte, hsector, hbytes⟩
      · exact Nat.zero_le _
      · omega
    unfold Pair.next Heads.next
    dsimp only
    rw [iso_next sectors h hcount, bin_next, hn]
    split_ifs with hlost hin
    · unfold streams
      rw [hlost]
    · rfl
    · rfl

theorem along_streams_iff (n : ℕ) (ops : List Op) : ∀ h : Heads,
    (∀ sectors : List Sector, sectors.length = n → Along Step Good (streams sectors h) ops) ↔
      Along (Moves n) (Fine n) h ops := by
  induction ops with
  | nil => exact fun h => iff_of_true (fun _ _ => trivial) trivial
  | cons op ops ih =>
    intro h
    constructor
    · intro hall
      have hfine : Fine n h op := by
        cases op with
        | seek sector => trivial
        | read bytes => exact fine_of_good (hall (marked n h.sector) (length_marked n h.sector)).head
      refine ⟨hfine, ?_⟩
      rintro _ rfl
      refine (ih (h.next n op)).mp fun sectors hn => ?_
      rw [← next_streams hn hfine]
      exact (hall sectors hn).tail rfl
    · rintro ⟨hfine, hrest⟩ sectors hn
      refine ⟨?_, ?_⟩
      · cases op with
        | seek sector => trivial
        | read bytes => exact good_of_fine hn hfine
      · rintro _ rfl
        rw [next_streams hn hfine]
        exact (ih (h.next n op)).mpr (hrest _ rfl) sectors hn

/-- **The readers agree** on all images of a size if and only if each read stays in a sector, at whose beginning
both readers are. -/
theorem readers_agree_iff (n : ℕ) (ops : List Op) :
    (∀ sectors : List Sector, sectors.length = n → Along Step Good (opened sectors) ops) ↔
      Along (Moves n) (Fine n) ⟨0, 0, false⟩ ops :=
  along_streams_iff n ops ⟨0, 0, false⟩

/-- A directory of two sectors, read in one call. -/
theorem not_readers_agree : ¬ ∀ (n : ℕ) (ops : List Op) (sectors : List Sector), sectors.length = n →
    Along Step Good (opened sectors) ops := by
  intro h
  have hagree := (along_streams_iff 2 [.seek 0, .read 4096] ⟨0, 0, false⟩).mp (h 2 [.seek 0, .read 4096])
  have hfine := (hagree.tail rfl).head
  exact absurd hfine (by unfold Fine; decide)

end DobieStation.Cdvd.Readers
