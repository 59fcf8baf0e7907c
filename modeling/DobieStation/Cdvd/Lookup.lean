import DobieStation.Cdvd.Readers
import DobieStation.Lib.Loops
import Mathlib.Data.List.GetD
import Mathlib.Order.Basic

/-! # The lookups on a disc

The search for the volume descriptor in `CDVD_Drive::load_disc`, the walk through the root directory in
`CDVD_Drive::read_file`, and the scans of SYSTEM.CNF in `get_ps2_exec_path` and `get_serial`. None of them is bounded
by what it searches: the search goes on beyond the end of an image without a descriptor, the walk stays where a record
has the length 0, as the padding of a sector has, and the scans run beyond the end of a file without the texts. -/

namespace DobieStation.Cdvd.Lookup

open DobieStation.Lib.Loops DobieStation.Cdvd.Readers

/-! ### The volume descriptor -/

/-- `sector` is an `int`. -/
structure Search where
  sector : ℕ
  type : Byte
  container : File

/-- A read beyond the end leaves `type` as it is. -/
def Search.next (s : Search) : Search :=
  let read := (ISOReader.seek (s.sector + 1) s.container).read 1
  ⟨s.sector + 1, read.1.headD s.type, read.2⟩

/-- The number of the sector must stay in an `int`. -/
def searchTurn (s : Search) : Turn Search ℕ :=
  if s.type = 1 then .stop s.sector
  else if s.sector + 1 = 2 ^ 31 then .fault
  else .again s.next

/-- A container that has just been opened. -/
def search (image : List Byte) (position : ℕ) : Search := ⟨0x0F, 0, ⟨image, position, false⟩⟩

/-! ### The root directory -/

/-- Whether the bytes are those of a text; `none` if one has to be looked at that is not there. -/
def compare (get : ℕ → Option Byte) : List Byte → ℕ → Option Bool
  | [], _ => some true
  | c :: cs, i => (get i).bind fun b => if c = b then compare get cs (i + 1) else some false

/-- The name of a file is ASCII text. -/
abbrev Name := List (BitVec 7)

def Name.bytes (name : Name) : List Byte := name.map (BitVec.setWidth 8)

/-- Whether the record at `bytes` has the name. The offsets are 32-bit numbers. -/
def named (extent : List Byte) (name : Name) (bytes : Word) : Option Bool :=
  (extent[(bytes + 32).toNat]?).bind fun directoryLen =>
    if name.length = directoryLen.toNat then
      compare (fun i => extent[(bytes + 33 + BitVec.ofNat 32 i).toNat]?) name.bytes 0
    else some false

/-- Four bytes, the lowest first. -/
def word (extent : List Byte) (at' : Word) : Option Word := do
  let b₀ ← extent[at'.toNat]?
  let b₁ ← extent[at'.toNat + 1]?
  let b₂ ← extent[at'.toNat + 2]?
  let b₃ ← extent[at'.toNat + 3]?
  return b₃ ++ b₂ ++ b₁ ++ b₀

/-- The location and the size in the record at `bytes`. -/
def fields (extent : List Byte) (bytes : Word) : Option (Word × Word) := do
  let location ← word extent (bytes + 2)
  let size ← word extent (bytes + 10)
  return (location, size)

def walkTurn (extent : List Byte) (rootLen : Word) (name : Name) (bytes : Word) : Turn Word (Option (Word × Word)) :=
  if rootLen ≤ bytes then .stop none
  else match named extent name bytes with
    | none => .fault
    | some true =>
      match fields extent bytes with
      | none => .fault
      | some found => .stop (some found)
    | some false =>
      match extent[bytes.toNat]? with
      | none => .fault
      | some length => .again (bytes + length.setWidth 32)

/-- The bytes of the root directory that are read, and the container after that. -/
def rootExtent (rootLocation rootLen : Word) (container : File) : List Byte × File :=
  (ISOReader.seek rootLocation.toNat container).read rootLen.toNat

/-- The contents of a file, as far as they are read, and its size. -/
def fileAt (container : File) (found : Word × Word) : List Byte × Word :=
  (((ISOReader.seek found.1.toNat container).read found.2.toNat).1, found.2)

/-- The call ends with `result`, and has read inside of the root directory only. -/
def ReadFile (container : File) (rootLocation rootLen : Word) (name : Name) (result : Option (List Byte × Word)) :
    Prop :=
  ∃ found, Ends (walkTurn (rootExtent rootLocation rootLen container).1 rootLen name) 0 found ∧
    result = found.map (fileAt (rootExtent rootLocation rootLen container).2)

/-! ### The scans -/

/-- The first seven characters of `cdrom0:\`. -/
def cdrom0 : List Byte := [0x63, 0x64, 0x72, 0x6F, 0x6D, 0x30, 0x3A]

/-- `;1`. -/
def version : List Byte := [0x3B, 0x31]

/-- `strncmp` of a text and the file from `pos` on. -/
def strncmp (text cnf : List Byte) (pos : ℕ) : Option Bool := compare (fun i => cnf[pos + i]?) text 0

/-- `pos` is an `int`. -/
def deviceTurn (cnf : List Byte) (pos : ℕ) : Turn ℕ ℕ :=
  match strncmp cdrom0 cnf pos with
  | none => .fault
  | some true => .stop pos
  | some false => if pos + 1 = 2 ^ 31 then .fault else .again (pos + 1)

structure Path where
  pos : ℕ
  path : List Byte

def pathTurn (cnf : List Byte) (s : Path) : Turn Path (List Byte) :=
  match strncmp version cnf s.pos with
  | none => .fault
  | some true => .stop s.path
  | some false =>
    match cnf[s.pos]? with
    | none => .fault
    | some c => if s.pos + 1 = 2 ^ 31 then .fault else .again ⟨s.pos + 1, s.path ++ [c]⟩

/-- `get_ps2_exec_path` of a disc with this SYSTEM.CNF ends with `path`, and has read inside of the file only. -/
def ExecPath (cnf path : List Byte) : Prop :=
  ∃ pos, Ends (deviceTurn cnf) 0 pos ∧ ∃ found, Ends (pathTurn cnf) ⟨pos, []⟩ found ∧ path = found ++ version

/-- So does `get_serial`, of the eleven characters after the device. -/
def Serial (cnf serial : List Byte) : Prop :=
  ∃ pos, Ends (deviceTurn cnf) 0 pos ∧ pos + 8 < 2 ^ 31 ∧ pos + 8 + 11 ≤ cnf.length ∧
    serial = (cnf.drop (pos + 8)).take 11

/-! ### What is promised -/

/-- The bytes of the root directory that the image has. -/
def directory (image : List Byte) (rootLocation rootLen : Word) : List Byte :=
  (image.drop (rootLocation.toNat * 2048)).take rootLen.toNat

/-- Where the records of a directory begin. A length of 0 means that the rest of the sector is padding. -/
inductive Record (extent : List Byte) : Word → Prop
  | first : Record extent 0
  | next {o : Word} {length : Byte} (h : Record extent o) (hlength : extent[o.toNat]? = some length)
      (hpos : length ≠ 0) : Record extent (o + length.setWidth 32)
  | padding {o : Word} (h : Record extent o) (hlength : extent[o.toNat]? = some 0) :
      Record extent ((o >>> 11 + 1) <<< 11)

/-- The record at `o` has the name. -/
def HasName (extent : List Byte) (rootLen : Word) (name : Name) (o : Word) : Prop :=
  o < rootLen ∧ (∃ length : Byte, extent[(o + 32).toNat]? = some length ∧ length.toNat = name.length) ∧
    ∀ i < name.length, extent[(o + 33 + BitVec.ofNat 32 i).toNat]? = name.bytes[i]?

/-- A result is the whole file of a record with the name, and there is none only if there is no such record. -/
def Answers (image : List Byte) (rootLocation rootLen : Word) (name : Name) :
    Option (List Byte × Word) → Prop
  | none => ∀ o, Record (directory image rootLocation rootLen) o →
      ¬ HasName (directory image rootLocation rootLen) rootLen name o
  | some (contents, size) => contents.length = size.toNat ∧
      ∃ o location, Record (directory image rootLocation rootLen) o ∧
        HasName (directory image rootLocation rootLen) rootLen name o ∧
        fields (directory image rootLocation rootLen) o = some (location, size) ∧
        contents = (image.drop (location.toNat * 2048)).take size.toNat

/-- The text is in the file at `pos`. -/
def OccursAt (text cnf : List Byte) (pos : ℕ) : Prop := ∀ i < text.length, cnf[pos + i]? = text[i]?

/-! ### The directories that are read -/

/-- The walk goes on from the record at `o` to `o'`: the one has not the name, and its length leads to the other. -/
def Passes (extent : List Byte) (rootLen : Word) (name : Name) (o o' : Word) : Prop :=
  o < rootLen ∧ named extent name o = some false ∧
    ∃ length, extent[o.toNat]? = some length ∧ o' = o + length.setWidth 32

/-- What a record must be that the lengths of the records before it lead to. If it has the name, it is whole, and so
are the directory and the file in the image. If it has not, the lengths do not lead back to it, as a length of 0
does. -/
def Sound (image extent : List Byte) (rootLen : Word) (name : Name) (o : Word) : Prop :=
  (named extent name o = some true ∧ ∃ location size, fields extent o = some (location, size) ∧
      (size = 0 ∨ extent.length = rootLen.toNat ∧ location.toNat * 2048 + size.toNat ≤ image.length)) ∨
    (∃ o', Passes extent rootLen name o o' ∧ ¬ Relation.ReflTransGen (Passes extent rootLen name) o' o)

/-- Each record of the directory that the lengths lead to from the first one is sound. -/
def Regular (container : File) (rootLocation rootLen : Word) (name : Name) : Prop :=
  (container.failed → rootLen = 0) ∧
    ∀ o, Relation.ReflTransGen (Passes (directory container.bytes rootLocation rootLen) rootLen name) 0 o →
      o < rootLen → Sound container.bytes (directory container.bytes rootLocation rootLen) rootLen name o

/-! ### Texts -/

theorem compare_iff {get : ℕ → Option Byte} : ∀ (text : List Byte) (i : ℕ),
    compare get text i = some true ↔ ∀ j < text.length, get (i + j) = text[j]?
  | [], i => iff_of_true rfl fun _ h => absurd h (Nat.not_lt_zero _)
  | c :: cs, i => by
    have hrest : compare get cs (i + 1) = some true ↔ _ := compare_iff cs (i + 1)
    have hsplit : (∀ j < (c :: cs).length, get (i + j) = (c :: cs)[j]?) ↔
        get i = some c ∧ ∀ j < cs.length, get (i + 1 + j) = cs[j]? := by
      constructor
      · intro h
        refine ⟨h 0 (Nat.succ_pos _), fun j hj => ?_⟩
        have hnext := h (j + 1) (Nat.succ_lt_succ hj)
        rwa [show i + (j + 1) = i + 1 + j by omega] at hnext
      · rintro ⟨hfirst, hnext⟩ j hj
        cases j with
        | zero => exact hfirst
        | succ j =>
          rw [show i + (j + 1) = i + 1 + j by omega]
          exact hnext j (Nat.lt_of_succ_lt_succ hj)
    rw [hsplit, ← hrest, compare]
    rcases get i with _ | b
    · simp
    · by_cases hb : c = b
      · simp [hb]
      · simp [hb, Ne.symm hb]

variable {image extent : List Byte} {rootLocation rootLen o o' : Word} {name : Name} {container : File}

theorem Name.bytes_length (name : Name) : name.bytes.length = name.length := List.length_map _

theorem named_iff : named extent name o = some true ↔
    (∃ length : Byte, extent[(o + 32).toNat]? = some length ∧ length.toNat = name.length) ∧
      ∀ i < name.length, extent[(o + 33 + BitVec.ofNat 32 i).toNat]? = name.bytes[i]? := by
  unfold named
  rcases extent[(o + 32).toNat]? with _ | length
  · simp
  · rw [Option.bind_some]
    by_cases hlength : name.length = length.toNat
    · rw [if_pos hlength, compare_iff, Name.bytes_length]
      simp only [Nat.zero_add, Option.some.injEq, exists_eq_left', hlength, true_and]
    · rw [if_neg hlength]
      refine iff_of_false (by simp) ?_
      rintro ⟨⟨l, hl, heq⟩, -⟩
      obtain rfl := Option.some.inj hl
      exact hlength heq.symm

theorem hasName_iff : HasName extent rootLen name o ↔ o < rootLen ∧ named extent name o = some true := by
  rw [named_iff]
  exact Iff.rfl

/-! ### One turn of the walk -/

theorem walk_end_iff : walkTurn extent rootLen name o = .stop none ↔ rootLen ≤ o := by
  unfold walkTurn
  by_cases ho : rootLen ≤ o
  · rw [if_pos ho]
    exact iff_of_true rfl ho
  · rw [if_neg ho]
    refine iff_of_false ?_ ho
    rcases named extent name o with _ | _ | _
    · simp
    · rcases extent[o.toNat]? with _ | length <;> simp
    · rcases fields extent o with _ | found <;> simp

theorem walk_again_iff : walkTurn extent rootLen name o = .again o' ↔ Passes extent rootLen name o o' := by
  unfold walkTurn Passes
  by_cases ho : rootLen ≤ o
  · rw [if_pos ho]
    exact iff_of_false (by simp) fun h => absurd h.1 (BitVec.not_lt.mpr ho)
  · rw [if_neg ho]
    have hlt : o < rootLen := BitVec.not_le.mp ho
    rcases named extent name o with _ | _ | _
    · simp
    · rcases extent[o.toNat]? with _ | length
      · simp
      · simp [hlt, eq_comm]
    · rcases fields extent o with _ | found <;> simp

theorem walk_found_iff {found : Word × Word} : walkTurn extent rootLen name o = .stop (some found) ↔
    o < rootLen ∧ named extent name o = some true ∧ fields extent o = some found := by
  unfold walkTurn
  by_cases ho : rootLen ≤ o
  · rw [if_pos ho]
    exact iff_of_false (by simp) fun h => absurd h.1 (BitVec.not_lt.mpr ho)
  · rw [if_neg ho]
    have hlt : o < rootLen := BitVec.not_le.mp ho
    rcases named extent name o with _ | _ | _
    · simp
    · rcases extent[o.toNat]? with _ | length <;> simp
    · rcases fields extent o with _ | found'
      · simp
      · simp [hlt]

theorem visits_walk : Visits (walkTurn extent rootLen name) o o' ↔
    Relation.ReflTransGen (Passes extent rootLen name) o o' := by
  unfold Visits
  simp only [walk_again_iff]

theorem Sound.turn (h : Sound image extent rootLen name o) (ho : o < rootLen) :
    walkTurn extent rootLen name o ≠ .fault ∧
      ∀ o', walkTurn extent rootLen name o = .again o' → ¬ Visits (walkTurn extent rootLen name) o' o := by
  rcases h with ⟨hnamed, location, size, hfields, -⟩ | ⟨o₁, hpasses, hback⟩
  · rw [walk_found_iff.2 ⟨ho, hnamed, hfields⟩]
    exact ⟨by simp, by simp⟩
  · rw [walk_again_iff.2 hpasses]
    refine ⟨by simp, fun o' ho' => ?_⟩
    obtain rfl := Turn.again.inj ho'
    rwa [visits_walk]

/-- A length of 0 leads back. -/
theorem Passes.pos {length : Byte} (h : Passes extent rootLen name o o')
    (hback : ¬ Visits (walkTurn extent rootLen name) o' o) (hlength : extent[o.toNat]? = some length) :
    length ≠ 0 ∧ o' = o + length.setWidth 32 := by
  obtain ⟨-, -, length', hlength', rfl⟩ := h
  obtain rfl := Option.some.inj (hlength.symm.trans hlength')
  refine ⟨?_, rfl⟩
  rintro rfl
  have hzero : o + (0 : Byte).setWidth 32 = o := BitVec.add_zero o
  rw [hzero] at hback
  exact hback .refl

/-! ### The walk -/

section

variable {found : Option (Word × Word)}

theorem visited_record (hends : Ends (walkTurn extent rootLen name) 0 found)
    (h : Visits (walkTurn extent rootLen name) 0 o) : Record extent o := by
  induction h with
  | refl => exact .first
  | @tail t t' hvisits hturn ih =>
    have hpasses := walk_again_iff.1 hturn
    obtain ⟨length, hlength, -⟩ := hpasses.2.2
    obtain ⟨hpos, rfl⟩ := hpasses.pos (hends.never_back hvisits hturn) hlength
    exact ih.next hlength hpos

/-- The walk that comes to the end of the directory passes each record. -/
theorem record_visited (hroom : extent.length ≤ rootLen.toNat) (hends : Ends (walkTurn extent rootLen name) 0 none)
    (h : Record extent o) : Visits (walkTurn extent rootLen name) 0 o := by
  have hgoes : ∀ {t : Word} {length : Byte}, Visits (walkTurn extent rootLen name) 0 t →
      extent[t.toNat]? = some length →
        length ≠ 0 ∧ Visits (walkTurn extent rootLen name) 0 (t + length.setWidth 32) := by
    intro t length hvisits hlength
    have hlt : t < rootLen := by
      obtain ⟨hin, -⟩ := List.getElem?_eq_some_iff.mp hlength
      exact BitVec.lt_def.mpr (Nat.lt_of_lt_of_le hin hroom)
    rcases hturn : walkTurn extent rootLen name t with t' | found | _
    · have hpasses := walk_again_iff.1 hturn
      obtain ⟨hpos, rfl⟩ := hpasses.pos (hends.never_back hvisits hturn) hlength
      exact ⟨hpos, hvisits.tail hturn⟩
    · obtain rfl : found = none := Ends.unique ⟨t, hvisits, hturn⟩ hends
      exact absurd (walk_end_iff.1 hturn) (BitVec.not_le.mpr hlt)
    · exact absurd hturn (hends.not_fault hvisits)
  induction h with
  | first => exact .refl
  | next _ hlength _ ih => exact (hgoes ih hlength).2
  | padding _ hlength ih => exact absurd rfl (hgoes ih hlength).1

theorem not_hasName (hroom : extent.length ≤ rootLen.toNat) (hends : Ends (walkTurn extent rootLen name) 0 none)
    (h : Record extent o) : ¬ HasName extent rootLen name o := by
  intro hname
  obtain ⟨hlt, hnamed⟩ := hasName_iff.1 hname
  have hvisits := record_visited hroom hends h
  rcases hturn : walkTurn extent rootLen name o with o' | found | _
  · have hpasses := walk_again_iff.1 hturn
    exact absurd (hnamed.symm.trans hpasses.2.1) (by simp)
  · obtain rfl : found = none := Ends.unique ⟨o, hvisits, hturn⟩ hends
    exact absurd (walk_end_iff.1 hturn) (BitVec.not_le.mpr hlt)
  · exact hends.not_fault hvisits hturn

end

/-- In a directory whose end is not near that of the 32-bit numbers, only a length of 0 leads back. -/
theorem Passes.back_iff (hsmall : rootLen.toNat + 255 < 2 ^ 32) (h : Passes extent rootLen name o o') :
    Relation.ReflTransGen (Passes extent rootLen name) o' o ↔ extent[o.toNat]? = some 0 := by
  have hup : ∀ {t t' : Word}, Passes extent rootLen name t t' → ∃ length : Byte,
      extent[t.toNat]? = some length ∧ t'.toNat = t.toNat + length.toNat := by
    rintro t t' ⟨ht, -, length, hlength, rfl⟩
    have hlt := BitVec.lt_def.mp ht
    have hbyte := length.isLt
    refine ⟨length, hlength, ?_⟩
    rw [BitVec.toNat_add, BitVec.toNat_setWidth]
    omega
  obtain ⟨length, hlength, hsum⟩ := hup h
  rw [hlength, Option.some.injEq]
  constructor
  · have hmono : ∀ t, Relation.ReflTransGen (Passes extent rootLen name) o' t → o'.toNat ≤ t.toNat := by
      intro t hreach
      induction hreach with
      | refl => exact Nat.le_refl _
      | tail _ hpasses ih =>
        obtain ⟨_, -, hnext⟩ := hup hpasses
        omega
    intro hback
    have hle := hmono o hback
    have hzero : length.toNat = 0 := by omega
    exact BitVec.eq_of_toNat_eq hzero
  · rintro rfl
    obtain rfl : o' = o := BitVec.eq_of_toNat_eq hsum
    exact .refl

/-! ### The container -/

theorem length_directory (image : List Byte) (rootLocation rootLen : Word) :
    (directory image rootLocation rootLen).length ≤ rootLen.toNat := by
  unfold directory
  rw [List.length_take]
  exact Nat.min_le_left _ _

theorem rootExtent_failed (h : container.failed) : rootExtent rootLocation rootLen container = ([], container) := by
  unfold rootExtent ISOReader.seek File.seekg File.read
  simp only [h, if_true]

theorem rootExtent_eq (h : ¬ container.failed) :
    (rootExtent rootLocation rootLen container).1 = directory container.bytes rootLocation rootLen := by
  unfold rootExtent ISOReader.seek File.seekg File.read
  simp only [h]
  rfl

theorem rootExtent_container (rootLocation rootLen : Word) (h : ¬ container.failed) :
    (rootExtent rootLocation rootLen container).2.bytes = container.bytes ∧
      ((rootExtent rootLocation rootLen container).2.failed ↔
        (directory container.bytes rootLocation rootLen).length < rootLen.toNat) := by
  unfold rootExtent ISOReader.seek File.seekg File.read directory
  simp only [h]
  exact ⟨rfl, decide_eq_true_iff⟩

theorem fileAt_failed {f : File} (h : f.failed) (found : Word × Word) : (fileAt f found).1 = [] := by
  unfold fileAt ISOReader.seek File.seekg File.read
  simp only [h, if_true]

theorem fileAt_eq {f : File} (h : ¬ f.failed) (found : Word × Word) :
    (fileAt f found).1 = (f.bytes.drop (found.1.toNat * 2048)).take found.2.toNat := by
  unfold fileAt ISOReader.seek File.seekg File.read
  simp only [h]
  rfl

/-- The whole file is read if and only if it is empty or it and the directory are in the image. -/
theorem whole_file_iff (h : ¬ container.failed) (location size : Word) :
    (fileAt (rootExtent rootLocation rootLen container).2 (location, size)).1.length = size.toNat ↔
      size = 0 ∨ (directory container.bytes rootLocation rootLen).length = rootLen.toNat ∧
        location.toNat * 2048 + size.toNat ≤ container.bytes.length := by
  obtain ⟨hbytes, hfailed⟩ := rootExtent_container rootLocation rootLen h
  have hroom := length_directory container.bytes rootLocation rootLen
  have hzero : size = 0 ↔ size.toNat = 0 := BitVec.toNat_eq
  by_cases hshort : (rootExtent rootLocation rootLen container).2.failed
  · rw [fileAt_failed hshort, List.length_nil, hzero]
    have hlt := hfailed.mp hshort
    omega
  · rw [fileAt_eq hshort, hbytes, List.length_take, List.length_drop, hzero]
    have hge := mt hfailed.mpr hshort
    dsimp only
    omega

theorem whole_file (h : ¬ container.failed) {location size : Word}
    (hlength : (fileAt (rootExtent rootLocation rootLen container).2 (location, size)).1.length = size.toNat) :
    (fileAt (rootExtent rootLocation rootLen container).2 (location, size)).1 =
      (container.bytes.drop (location.toNat * 2048)).take size.toNat := by
  by_cases hshort : (rootExtent rootLocation rootLen container).2.failed
  · rw [fileAt_failed hshort, List.length_nil] at hlength
    rw [fileAt_failed hshort, ← hlength, List.take_zero]
  · rw [fileAt_eq hshort, (rootExtent_container rootLocation rootLen h).1]

/-! ### Files -/

/-- The call ends, has read inside of the directory only, and its result is the file with the name. -/
def Finds (container : File) (rootLocation rootLen : Word) (name : Name) : Prop :=
  ∃ result, ReadFile container rootLocation rootLen name result ∧
    Answers container.bytes rootLocation rootLen name result

theorem regular_of_finds (h : Finds container rootLocation rootLen name) :
    Regular container rootLocation rootLen name := by
  obtain ⟨_, ⟨found, hends, rfl⟩, hanswers⟩ := h
  by_cases hfailed : container.failed
  · have hzero : rootLen = 0 := by
      by_contra hne
      refine hends.not_fault .refl ?_
      have hpos : ¬ rootLen ≤ 0 := by
        intro hle
        exact hne (BitVec.le_zero_iff.mp hle)
      rw [rootExtent_failed hfailed, walkTurn, if_neg hpos]
      rfl
    refine ⟨fun _ => hzero, fun o _ ho => ?_⟩
    rw [hzero] at ho
    exact absurd ho (BitVec.not_lt_zero)
  · refine ⟨fun hfailed' => absurd hfailed' hfailed, fun o hreach ho => ?_⟩
    rw [rootExtent_eq hfailed] at hends
    have hvisits := visits_walk.2 hreach
    rcases hturn : walkTurn (directory container.bytes rootLocation rootLen) rootLen name o with o' | found' | _
    · refine .inr ⟨o', walk_again_iff.1 hturn, ?_⟩
      rw [← visits_walk]
      exact hends.never_back hvisits hturn
    · obtain rfl := Ends.unique ⟨o, hvisits, hturn⟩ hends
      rcases found' with _ | ⟨location, size⟩
      · exact absurd (walk_end_iff.1 hturn) (BitVec.not_le.mpr ho)
      · obtain ⟨-, hnamed, hfields⟩ := walk_found_iff.1 hturn
        exact .inl ⟨hnamed, location, size, hfields, (whole_file_iff hfailed location size).mp hanswers.1⟩
    · exact absurd hturn (hends.not_fault hvisits)

theorem finds_of_regular (h : Regular container rootLocation rootLen name) :
    Finds container rootLocation rootLen name := by
  obtain ⟨hstart, hsound⟩ := h
  by_cases hfailed : container.failed
  · have hzero := hstart hfailed
    have hends : Ends (walkTurn (rootExtent rootLocation rootLen container).1 rootLen name) 0 none :=
      ⟨0, .refl, walk_end_iff.2 (BitVec.le_of_eq hzero)⟩
    refine ⟨none, ⟨none, hends, rfl⟩, fun o _ hname => ?_⟩
    have ho := hname.1
    rw [hzero] at ho
    exact BitVec.not_lt_zero ho
  · obtain ⟨found, hends⟩ : ∃ found,
        Ends (walkTurn (directory container.bytes rootLocation rootLen) rootLen name) 0 found := by
      have hfinite : Finite Word := Finite.of_injective BitVec.toFin fun _ _ => BitVec.toFin_inj.mp
      refine ends_iff_never_back.mpr ?_
      intro o hvisits
      by_cases ho : rootLen ≤ o
      · rw [walk_end_iff.2 ho]
        exact ⟨by simp, by simp⟩
      · exact (hsound o (visits_walk.1 hvisits) (BitVec.not_le.mp ho)).turn (BitVec.not_le.mp ho)
    have hread : ReadFile container rootLocation rootLen name
        (found.map (fileAt (rootExtent rootLocation rootLen container).2)) := by
      refine ⟨found, ?_, rfl⟩
      rwa [rootExtent_eq hfailed]
    refine ⟨_, hread, ?_⟩
    rcases found with _ | ⟨location, size⟩
    · exact fun o hrecord => not_hasName (length_directory _ _ _) hends hrecord
    · obtain ⟨o, hvisits, hturn⟩ := hends
      obtain ⟨ho, hnamed, hfields⟩ := walk_found_iff.1 hturn
      have hlength : (fileAt (rootExtent rootLocation rootLen container).2 (location, size)).1.length =
          size.toNat := by
        rw [whole_file_iff hfailed]
        rcases hsound o (visits_walk.1 hvisits) ho with ⟨-, location', size', hfields', hwhole⟩ | ⟨o', hpasses, -⟩
        · obtain ⟨rfl, rfl⟩ := Prod.mk.inj (Option.some.inj (hfields.symm.trans hfields'))
          exact hwhole
        · exact absurd (hnamed.symm.trans hpasses.2.1) (by simp)
      exact ⟨hlength, o, location, visited_record ⟨o, hvisits, hturn⟩ hvisits, hasName_iff.2 ⟨ho, hnamed⟩,
        hfields, whole_file hfailed hlength⟩

theorem finds_iff : Finds container rootLocation rootLen name ↔ Regular container rootLocation rootLen name :=
  ⟨regular_of_finds, finds_of_regular⟩

/-! ### The search -/

theorem exists_first {P : ℕ → Prop} (h : ∃ k, P k) : ∃ k, P k ∧ ∀ i < k, ¬ P i := by
  classical
  exact ⟨Nat.find h, Nat.find_spec h, fun i hi => Nat.find_min h hi⟩

section

variable {position n k : ℕ} {s s' : Search} {b : Byte}

theorem search_stop_iff {sector : ℕ} : searchTurn s = .stop sector ↔ s.type = 1 ∧ s.sector = sector := by
  unfold searchTurn
  by_cases htype : s.type = 1
  · rw [if_pos htype, Turn.stop.injEq]
    exact (and_iff_right htype).symm
  · rw [if_neg htype]
    refine iff_of_false ?_ fun h => htype h.1
    split_ifs <;> simp

theorem search_again_iff : searchTurn s = .again s' ↔ s.type ≠ 1 ∧ s.sector + 1 ≠ 2 ^ 31 ∧ s' = s.next := by
  unfold searchTurn
  by_cases htype : s.type = 1
  · rw [if_pos htype]
    exact iff_of_false (by simp) fun h => h.1 htype
  · rw [if_neg htype]
    by_cases hlast : s.sector + 1 = 2 ^ 31
    · rw [if_pos hlast]
      exact iff_of_false (by simp) fun h => h.2.1 hlast
    · rw [if_neg hlast, Turn.again.injEq]
      exact ⟨fun h => ⟨htype, hlast, h.symm⟩, fun h => h.2.2.symm⟩

theorem Search.next_bytes (s : Search) : s.next.container.bytes = s.container.bytes := by
  unfold Search.next ISOReader.seek File.seekg File.read
  dsimp only
  split_ifs <;> rfl

/-- The type comes from the image, if it has been read. -/
theorem Search.next_type (s : Search) :
    s.next.type = s.type ∨ s.container.bytes[(s.sector + 1) * 2048]? = some s.next.type := by
  unfold Search.next ISOReader.seek File.seekg File.read
  dsimp only
  split_ifs
  · exact .inl rfl
  · rcases hread : (s.container.bytes.drop ((s.sector + 1) * 2048)).take 1 with _ | ⟨b, rest⟩
    · exact .inl rfl
    · refine .inr ?_
      have hfirst := congrArg (fun l => l[0]?) hread
      rw [List.getElem?_take_of_lt (by decide), List.getElem?_drop, Nat.add_zero, List.getElem?_cons_zero] at hfirst
      exact hfirst

theorem Search.next_inside (hopen : s.container.failed = false)
    (hb : s.container.bytes[(s.sector + 1) * 2048]? = some b) :
    s.next.type = b ∧ s.next.container.failed = false := by
  obtain ⟨hlt, hget⟩ := List.getElem?_eq_some_iff.mp hb
  have hread : (s.container.bytes.drop ((s.sector + 1) * 2048)).take 1 = [b] := by
    rw [List.drop_eq_getElem_cons hlt, hget]
    rfl
  unfold Search.next ISOReader.seek File.seekg File.read
  simp only [hopen, if_false, Bool.false_eq_true, hread]
  exact ⟨rfl, rfl⟩

/-- The state after `n` sectors. -/
theorem searched (image : List Byte) (position n : ℕ) :
    (Search.next^[n] (search image position)).sector = 15 + n ∧
      (Search.next^[n] (search image position)).container.bytes = image := by
  induction n with
  | zero => exact ⟨rfl, rfl⟩
  | succ n ih =>
    rw [Function.iterate_succ_apply', Search.next_bytes]
    exact ⟨congrArg (· + 1) ih.1, ih.2⟩

theorem type_searched (image : List Byte) (position n : ℕ) :
    (Search.next^[n] (search image position)).type = 0 ∨
      ∃ k, 16 ≤ k ∧ k ≤ 15 + n ∧ image[k * 2048]? = some (Search.next^[n] (search image position)).type := by
  induction n with
  | zero => exact .inl rfl
  | succ n ih =>
    obtain ⟨hsector, hbytes⟩ := searched image position n
    rw [Function.iterate_succ_apply']
    rcases Search.next_type (Search.next^[n] (search image position)) with hsame | hread
    · rw [hsame]
      rcases ih with hzero | ⟨k, hlow, hhigh, hk⟩
      · exact .inl hzero
      · exact .inr ⟨k, hlow, by omega, hk⟩
    · rw [hbytes, hsector] at hread
      exact .inr ⟨15 + n + 1, by omega, by omega, hread⟩

/-- As long as the image goes on, the type is that of the sector. -/
theorem type_inside (image : List Byte) (position : ℕ) (hlast : (15 + n) * 2048 < image.length) :
    (Search.next^[n] (search image position)).container.failed = false ∧
      (n ≠ 0 → image[(15 + n) * 2048]? = some (Search.next^[n] (search image position)).type) := by
  induction n with
  | zero => exact ⟨rfl, fun h => absurd rfl h⟩
  | succ n ih =>
    have hbefore : (15 + n) * 2048 ≤ (15 + (n + 1)) * 2048 := Nat.mul_le_mul_right 2048 (by omega)
    obtain ⟨hopen, -⟩ := ih (Nat.lt_of_le_of_lt hbefore hlast)
    obtain ⟨hsector, hbytes⟩ := searched image position n
    rw [Function.iterate_succ_apply']
    have hat : (Search.next^[n] (search image position)).container.bytes[
        ((Search.next^[n] (search image position)).sector + 1) * 2048]? = some image[(15 + n + 1) * 2048] := by
      rw [hbytes, hsector]
      exact List.getElem?_eq_getElem hlast
    obtain ⟨htype, hopen'⟩ := Search.next_inside hopen hat
    refine ⟨hopen', fun _ => ?_⟩
    rw [htype]
    exact List.getElem?_eq_getElem hlast

/-- The search ends if and only if the image has a descriptor where it looks. -/
theorem search_ends_iff (image : List Byte) (position : ℕ) :
    (∃ sector, Ends searchTurn (search image position) sector) ↔
      ∃ k, 16 ≤ k ∧ k < 2 ^ 31 ∧ image[k * 2048]? = some 1 := by
  have hnext : ∀ t t', searchTurn t = .again t' → t' = t.next := fun t t' h => (search_again_iff.1 h).2.2
  constructor
  · rintro ⟨sector, hends⟩
    obtain ⟨n, hstop, hagain⟩ := (ends_iterate_iff hnext).mp hends
    obtain ⟨htype, -⟩ := search_stop_iff.1 hstop
    have hsmall : 15 + n < 2 ^ 31 := by
      by_contra hlarge
      have hi := (search_again_iff.1 (hagain (2 ^ 31 - 16) (by omega))).2.1
      rw [(searched image position _).1] at hi
      omega
    rcases type_searched image position n with hzero | ⟨k, hlow, hhigh, hk⟩
    · rw [htype] at hzero
      exact absurd hzero (by decide)
    · rw [htype] at hk
      exact ⟨k, hlow, by omega, hk⟩
  · intro h
    obtain ⟨k, ⟨hlow, hhigh, hk⟩, hmin⟩ := exists_first h
    have hfirst : ∀ i < k, 16 ≤ i → image[i * 2048]? ≠ some 1 := fun i hi hi' heq =>
      hmin i hi ⟨hi', by omega, heq⟩
    obtain ⟨hlt, -⟩ := List.getElem?_eq_some_iff.mp hk
    refine ⟨k, (ends_iterate_iff hnext).mpr ⟨k - 15, ?_, fun i hi => ?_⟩⟩
    · have hsum : 15 + (k - 15) = k := by omega
      have htype := (type_inside image position (n := k - 15) (by rwa [hsum])).2 (by omega)
      rw [hsum, hk] at htype
      rw [search_stop_iff, (searched image position _).1]
      exact ⟨(Option.some.inj htype).symm, hsum⟩
    · have hin : (15 + i) * 2048 < image.length :=
        Nat.lt_of_le_of_lt (Nat.mul_le_mul_right 2048 (by omega)) hlt
      have hsmall : 15 + i + 1 ≠ 2 ^ 31 := by omega
      rw [search_again_iff, (searched image position i).1, Function.iterate_succ_apply']
      refine ⟨fun htype => ?_, hsmall, rfl⟩
      rcases Nat.eq_zero_or_pos i with rfl | hpos
      · exact absurd (show (0 : Byte) = 1 from htype) (by decide)
      · have hat := (type_inside image position hin).2 (by omega)
        rw [htype] at hat
        exact hfirst (15 + i) (by omega) (by omega) hat

end

/-! ### The scans of SYSTEM.CNF -/

section

variable {text cnf : List Byte} {pos q p n : ℕ} {s s' : Path}

theorem strncmp_iff : strncmp text cnf pos = some true ↔ OccursAt text cnf pos := by
  unfold strncmp OccursAt
  simp only [compare_iff, Nat.zero_add]

theorem compare_isSome {get : ℕ → Option Byte} : ∀ (text : List Byte) (i : ℕ),
    (∀ j < text.length, (get (i + j)).isSome) → (compare get text i).isSome
  | [], _, _ => rfl
  | c :: cs, i, h => by
    obtain ⟨b, hb⟩ := Option.isSome_iff_exists.mp (h 0 (Nat.succ_pos _))
    rw [Nat.add_zero] at hb
    rw [compare, hb, Option.bind_some]
    split_ifs
    · refine compare_isSome cs (i + 1) fun j hj => ?_
      have hnext := h (j + 1) (Nat.succ_lt_succ hj)
      rwa [show i + (j + 1) = i + 1 + j by omega] at hnext
    · rfl

/-- Before a place where the text is, the comparison stays in the file. -/
theorem strncmp_before (hq : OccursAt text cnf q) (hpos : pos ≤ q) (hnot : ¬ OccursAt text cnf pos) :
    strncmp text cnf pos = some false := by
  have hsome : (strncmp text cnf pos).isSome := by
    refine compare_isSome text 0 fun j hj => ?_
    have hin : q + j < cnf.length := by
      by_contra hout
      have hat := hq j hj
      rw [List.getElem?_eq_none (by omega), List.getElem?_eq_getElem hj] at hat
      cases hat
    rw [List.getElem?_eq_getElem (by omega)]
    rfl
  obtain ⟨b, hb⟩ := Option.isSome_iff_exists.mp hsome
  cases b with
  | false => exact hb
  | true => exact absurd (strncmp_iff.1 hb) hnot

theorem device_stop_iff {pos' : ℕ} : deviceTurn cnf pos = .stop pos' ↔ OccursAt cdrom0 cnf pos ∧ pos = pos' := by
  rw [← strncmp_iff]
  unfold deviceTurn
  rcases strncmp cdrom0 cnf pos with _ | _ | _
  · simp
  · dsimp only
    split_ifs <;> simp
  · simp

theorem device_again_iff {pos' : ℕ} : deviceTurn cnf pos = .again pos' ↔
    strncmp cdrom0 cnf pos = some false ∧ pos + 1 ≠ 2 ^ 31 ∧ pos' = pos + 1 := by
  unfold deviceTurn
  rcases strncmp cdrom0 cnf pos with _ | _ | _
  · simp
  · dsimp only
    by_cases hlast : pos + 1 = 2 ^ 31
    · rw [if_pos hlast]
      exact iff_of_false (by simp) fun h => h.2.1 hlast
    · rw [if_neg hlast, Turn.again.injEq]
      exact ⟨fun h => ⟨rfl, hlast, h.symm⟩, fun h => h.2.2.symm⟩
  · simp

theorem iterate_succ (n : ℕ) : (fun pos : ℕ => pos + 1)^[n] 0 = n := by
  induction n with
  | zero => rfl
  | succ n ih => rw [Function.iterate_succ_apply', ih]

/-- The scan for the device ends at the first place where it is. -/
theorem device_ends_iff : Ends (deviceTurn cnf) 0 q ↔
    OccursAt cdrom0 cnf q ∧ (∀ q' < q, ¬ OccursAt cdrom0 cnf q') ∧ q < 2 ^ 31 := by
  have hnext : ∀ t t', deviceTurn cnf t = .again t' → t' = t + 1 := fun t t' h => (device_again_iff.1 h).2.2
  rw [ends_iterate_iff hnext]
  simp only [iterate_succ, device_stop_iff, device_again_iff]
  constructor
  · rintro ⟨n, ⟨hoccurs, rfl⟩, hbefore⟩
    refine ⟨hoccurs, fun q' hq' hoccurs' => ?_, ?_⟩
    · exact absurd ((strncmp_iff.2 hoccurs').symm.trans (hbefore q' hq').1) (by simp)
    · by_contra hlarge
      exact (hbefore (2 ^ 31 - 1) (by omega)).2.1 (by decide)
  · rintro ⟨hoccurs, hfirst, hsmall⟩
    refine ⟨q, ⟨hoccurs, rfl⟩, fun i hi => ⟨strncmp_before hoccurs (Nat.le_of_lt hi) (hfirst i hi), ?_, trivial⟩⟩
    omega

/-- The state after a character of the path. -/
def Path.next (cnf : List Byte) (s : Path) : Path := ⟨s.pos + 1, s.path ++ [cnf.getD s.pos 0]⟩

theorem path_stop_iff {path : List Byte} :
    pathTurn cnf s = .stop path ↔ OccursAt version cnf s.pos ∧ s.path = path := by
  rw [← strncmp_iff]
  unfold pathTurn
  rcases strncmp version cnf s.pos with _ | _ | _
  · simp
  · dsimp only
    rcases cnf[s.pos]? with _ | c
    · simp
    · dsimp only
      split_ifs <;> simp
  · simp

theorem path_again_iff : pathTurn cnf s = .again s' ↔
    strncmp version cnf s.pos = some false ∧ s.pos < cnf.length ∧ s.pos + 1 ≠ 2 ^ 31 ∧ s' = s.next cnf := by
  unfold pathTurn
  rcases strncmp version cnf s.pos with _ | _ | _
  · simp
  · by_cases hin : s.pos < cnf.length
    · rw [List.getElem?_eq_getElem hin]
      dsimp only
      by_cases hlast : s.pos + 1 = 2 ^ 31
      · rw [if_pos hlast]
        exact iff_of_false (by simp) fun h => h.2.2.1 hlast
      · have hnext : s.next cnf = ⟨s.pos + 1, s.path ++ [cnf[s.pos]]⟩ := by
          rw [Path.next, List.getD_eq_getElem _ _ hin]
        rw [if_neg hlast, Turn.again.injEq, hnext]
        exact ⟨fun h => ⟨rfl, hin, hlast, h.symm⟩, fun h => h.2.2.2.symm⟩
    · rw [List.getElem?_eq_none (Nat.not_lt.mp hin)]
      exact iff_of_false (by simp) fun h => hin h.2.1
  · simp

theorem pos_iterate (q n : ℕ) : ((Path.next cnf)^[n] ⟨q, []⟩).pos = q + n := by
  induction n with
  | zero => rfl
  | succ n ih =>
    rw [Function.iterate_succ_apply']
    exact congrArg (· + 1) ih

/-- The scan for the version ends if and only if it follows. -/
theorem path_ends_iff (hq : q < 2 ^ 31) : (∃ path, Ends (pathTurn cnf) ⟨q, []⟩ path) ↔
    ∃ p, q ≤ p ∧ p < 2 ^ 31 ∧ OccursAt version cnf p := by
  have hnext : ∀ t t', pathTurn cnf t = .again t' → t' = t.next cnf := fun t t' h => (path_again_iff.1 h).2.2.2
  constructor
  · rintro ⟨path, hends⟩
    obtain ⟨n, hstop, hagain⟩ := (ends_iterate_iff hnext).mp hends
    obtain ⟨hoccurs, -⟩ := path_stop_iff.1 hstop
    rw [pos_iterate] at hoccurs
    refine ⟨q + n, Nat.le_add_right q n, ?_, hoccurs⟩
    by_contra hlarge
    have hi := (path_again_iff.1 (hagain (2 ^ 31 - 1 - q) (by omega))).2.2.1
    rw [pos_iterate] at hi
    omega
  · intro h
    obtain ⟨p, ⟨hlow, hsmall, hoccurs⟩, hmin⟩ := exists_first h
    have hfirst : ∀ i < p, q ≤ i → ¬ OccursAt version cnf i := fun i hi hi' hoccurs' =>
      hmin i hi ⟨hi', by omega, hoccurs'⟩
    refine ⟨_, (ends_iterate_iff hnext).mpr ⟨p - q, path_stop_iff.2 ⟨?_, rfl⟩, fun i hi => ?_⟩⟩
    · rwa [pos_iterate, Nat.add_sub_cancel' hlow]
    · have hlast : q + i + 1 ≠ 2 ^ 31 := by omega
      have hin : q + i < cnf.length := by
        have hfirst := hoccurs 0 (by decide)
        have hlt := (List.getElem?_eq_some_iff.mp hfirst).1
        omega
      rw [path_again_iff, pos_iterate, Function.iterate_succ_apply']
      exact ⟨strncmp_before hoccurs (by omega) (hfirst (q + i) (by omega) (by omega)), hin, hlast, rfl⟩

theorem execPath_iff : (∃ path, ExecPath cnf path) ↔
    ∃ q p, q ≤ p ∧ p < 2 ^ 31 ∧ OccursAt cdrom0 cnf q ∧ OccursAt version cnf p := by
  constructor
  · rintro ⟨_, q, hdevice, found, hpath, rfl⟩
    obtain ⟨hoccurs, -, hq⟩ := device_ends_iff.1 hdevice
    obtain ⟨p, hle, hp, hoccurs'⟩ := (path_ends_iff hq).mp ⟨found, hpath⟩
    exact ⟨q, p, hle, hp, hoccurs, hoccurs'⟩
  · rintro ⟨q, p, hle, hp, hoccurs, hoccurs'⟩
    obtain ⟨first, hoccursFirst, hmin⟩ := exists_first ⟨q, hoccurs⟩
    have hle' : first ≤ q := Nat.not_lt.mp fun hlt => hmin q hlt hoccurs
    have hsmall : first < 2 ^ 31 := by omega
    obtain ⟨found, hpath⟩ := (path_ends_iff hsmall).mpr ⟨p, by omega, hp, hoccurs'⟩
    exact ⟨_, first, device_ends_iff.2 ⟨hoccursFirst, hmin, hsmall⟩, found, hpath, rfl⟩

theorem serial_iff : (∃ serial, Serial cnf serial) ↔
    ∃ q, OccursAt cdrom0 cnf q ∧ (∀ q' < q, ¬ OccursAt cdrom0 cnf q') ∧ q + 8 < 2 ^ 31 ∧ q + 19 ≤ cnf.length := by
  constructor
  · rintro ⟨_, q, hdevice, hint, hin, rfl⟩
    obtain ⟨hoccurs, hfirst, -⟩ := device_ends_iff.1 hdevice
    exact ⟨q, hoccurs, hfirst, hint, hin⟩
  · rintro ⟨q, hoccurs, hfirst, hint, hin⟩
    exact ⟨_, q, device_ends_iff.2 ⟨hoccurs, hfirst, by omega⟩, hint, hin, rfl⟩

end

/-- **The lookups.** -/
theorem lookups_iff (image : List Byte) (position : ℕ) (container : File) (rootLocation rootLen : Word)
    (name : Name) (cnf : List Byte) :
    ((∃ sector, Ends searchTurn (search image position) sector) ↔
      ∃ k, 16 ≤ k ∧ k < 2 ^ 31 ∧ image[k * 2048]? = some 1) ∧
    (Finds container rootLocation rootLen name ↔ Regular container rootLocation rootLen name) ∧
    ((∃ path, ExecPath cnf path) ↔
      ∃ q p, q ≤ p ∧ p < 2 ^ 31 ∧ OccursAt cdrom0 cnf q ∧ OccursAt version cnf p) ∧
    ((∃ serial, Serial cnf serial) ↔
      ∃ q, OccursAt cdrom0 cnf q ∧ (∀ q' < q, ¬ OccursAt cdrom0 cnf q') ∧ q + 8 < 2 ^ 31 ∧
        q + 19 ≤ cnf.length) :=
  ⟨search_ends_iff image position, finds_iff, execPath_iff, serial_iff⟩

/-- A root directory of one sector that begins with a record of 34 bytes and is padded with zeros. -/
def padded : List Byte := 34 :: List.replicate 2047 0

/-- SYSTEM.CNF;1 -/
def systemCnf : Name := [0x53, 0x59, 0x53, 0x54, 0x45, 0x4D, 0x2E, 0x43, 0x4E, 0x46, 0x3B, 0x31]

theorem directory_padded : directory padded 0 2048 = padded :=
  List.take_of_length_le (Nat.le_of_eq (congrArg (· + 1) List.length_replicate))

theorem padded_zero {i : ℕ} (hi : i < 2047) : padded[i + 1]? = some 0 := by
  rw [padded, List.getElem?_cons_succ, List.getElem?_replicate_of_lt hi]

theorem named_padded {o : Word} {i : ℕ} (hi : i < 2047) (ho : (o + 32).toNat = i + 1) :
    named padded systemCnf o = some false := by
  rw [named, ho, padded_zero hi]
  rfl

/-- The walk stays in the padding behind the first record. -/
theorem not_lookups : ¬ ((∀ (image : List Byte) (position : ℕ),
      ∃ sector, Ends searchTurn (search image position) sector) ∧
    (∀ (container : File) (rootLocation rootLen : Word) (name : Name), Finds container rootLocation rootLen name) ∧
    (∀ cnf : List Byte, ∃ path, ExecPath cnf path) ∧ ∀ cnf : List Byte, ∃ serial, Serial cnf serial) := by
  rintro ⟨-, hfinds, -, -⟩
  obtain ⟨-, hsound⟩ := regular_of_finds (hfinds ⟨padded, 0, false⟩ 0 2048 systemCnf)
  rw [directory_padded] at hsound
  have hfirst : Passes padded 2048 systemCnf 0 34 :=
    ⟨by decide, named_padded (i := 31) (by decide) rfl, 34, rfl, rfl⟩
  have hstay : Passes padded 2048 systemCnf 34 34 :=
    ⟨by decide, named_padded (i := 65) (by decide) rfl, 0, padded_zero (i := 33) (by decide), rfl⟩
  rcases hsound 34 (.single hfirst) (by decide) with ⟨hnamed, -⟩ | ⟨o', ⟨-, -, length, hlength, rfl⟩, hback⟩
  · exact absurd (hstay.2.1.symm.trans hnamed) (by simp)
  · obtain rfl := Option.some.inj ((padded_zero (i := 33) (by decide)).symm.trans hlength)
    exact hback .refl

end DobieStation.Cdvd.Lookup
