import DobieStation.Ee.Unaligned
import DobieStation.Iop.Arithmetic
import DobieStation.Iop.ExceptionStack
import DobieStation.Lib.Fault

/-! # Unaligned access of the IOP

`LWL`, `LWR`, `SWL` and `SWR` access the part of an unaligned word that lies in one aligned word. The left one is
given the address of the last byte, the right one that of the first, and together they access the four bytes. That
holds of the addresses where the IOP sees memory. The BIOS is read only, the registers of devices are no memory,
and while the cache is isolated a store only invalidates a line of the instruction cache. -/

namespace DobieStation.Iop.Unaligned

open DobieStation.Lib.Fault DobieStation.Lib.Lanes DobieStation.Lib.InPlace
open DobieStation.Ee.Instructions (base part)
open DobieStation.Ee.Unaligned (base_toNat base_add_part part_address parts part_lt)
open DobieStation.Iop.Arithmetic (rs rt imm)
open DobieStation.Iop.ExceptionStack (Status)

abbrev Word := BitVec 32

/-! ### The memory -/

/-- A byte of one of the memories: 2 MB of RAM, 4 MB of BIOS and 1 KB of scratchpad. -/
inductive Cell
  | ram (index : BitVec 21)
  | bios (index : BitVec 22)
  | scratchpad (index : BitVec 10)
  deriving DecidableEq

/-- The byte `i` bytes further on. -/
def Cell.after (i : ℕ) : Cell → Cell
  | .ram index => .ram (index + BitVec.ofNat 21 i)
  | .bios index => .bios (index + BitVec.ofNat 22 i)
  | .scratchpad index => .scratchpad (index + BitVec.ofNat 10 i)

abbrev Memory := Cell → BitVec 8

def word (memory : Memory) (c : Cell) : Word := ofLanes 32 4 fun i => memory (c.after i)

def setWord (memory : Memory) (c : Cell) (v : Word) : Memory :=
  sweep (fun i memory => Function.update memory (c.after i) (lane 8 v i)) 4 memory

/-! ### The IOP -/

/-- `devices` is the state of the devices that a register access reaches. -/
structure Machine (D : Type) where
  gpr : BitVec 5 → Word
  gprZero : gpr 0 = 0
  status : Status
  cacheControl : Word
  icacheValid : BitVec 8 → Bool
  memory : Memory
  scratchpadStart : Word
  devices : D

/-- The accesses that end the emulation. -/
inductive Fault
  | read32 (addr : Word)
  | write32 (addr : Word)
  | device

abbrev Program (D : Type) := StateT (Machine D) (Except Fault)

/-- What the registers of the devices do. -/
structure Registers (D : Type) where
  read32 : Word → Program D Word
  write32 : Word → Word → Program D Unit

variable {D : Type} {P : Registers D} {m m' m₁ : Machine D} {w w' a e b v : Word} {c c' : Cell} {i j s : ℕ}
  {covered covered' : ℕ → Prop}

def setGpr (index : BitVec 5) (value : Word) (m : Machine D) : Machine D :=
  if h : index = 0 then m
  else { m with
    gpr := Function.update m.gpr index value
    gprZero := by rw [Function.update_of_ne (Ne.symm h), m.gprZero] }

/-- The addresses that `Emulator::iop_read32` names, and those of the FireWire registers. -/
def readRegisters : List Word :=
  [0x1D000000, 0x1D000010, 0x1D000020, 0x1D000030, 0x1D000040, 0x1F801070, 0x1F801074, 0x1F801078, 0x1F8010B0,
    0x1F8010B8, 0x1F8010C0, 0x1F8010C8, 0x1F8010F0, 0x1F8010F4, 0x1F801100, 0x1F801104, 0x1F801108, 0x1F801110,
    0x1F801114, 0x1F801118, 0x1F801120, 0x1F801124, 0x1F801128, 0x1F801450, 0x1F801480, 0x1F801484, 0x1F801488,
    0x1F801490, 0x1F801494, 0x1F801498, 0x1F8014A0, 0x1F8014A4, 0x1F8014A8, 0x1F801500, 0x1F801508, 0x1F801528,
    0x1F801548, 0x1F801558, 0x1F801570, 0x1F801574, 0x1F801578, 0x1F808268, 0x1F80826C, 0x1F808270, 0x1F808274,
    0xFFFE0130]

def readsRegister (address : Word) : Prop :=
  (0x1F808400 ≤ address ∧ address < 0x1F808550) ∨ address ∈ readRegisters

/-- The addresses that `Emulator::iop_write32` names, without that of the scratchpad's start. -/
def writeRegisters : List Word :=
  [0x1D000000, 0x1D000010, 0x1D000020, 0x1D000030, 0x1D000040, 0x1F801010, 0x1F801014, 0x1F801070, 0x1F801074,
    0x1F801078, 0x1F8010B0, 0x1F8010B4, 0x1F8010B8, 0x1F8010C0, 0x1F8010C4, 0x1F8010C8, 0x1F8010F0, 0x1F8010F4,
    0x1F801100, 0x1F801104, 0x1F801108, 0x1F801110, 0x1F801114, 0x1F801118, 0x1F801120, 0x1F801124, 0x1F801128,
    0x1F801404, 0x1F801450, 0x1F801480, 0x1F801484, 0x1F801488, 0x1F801490, 0x1F801494, 0x1F801498, 0x1F8014A0,
    0x1F8014A4, 0x1F8014A8, 0x1F801500, 0x1F801504, 0x1F801508, 0x1F801520, 0x1F801524, 0x1F801528, 0x1F80152C,
    0x1F801530, 0x1F801534, 0x1F801538, 0x1F801540, 0x1F801544, 0x1F801548, 0x1F801550, 0x1F801554, 0x1F801558,
    0x1F801570, 0x1F801574, 0x1F801578, 0x1F808268, 0x1F802070, 0xFFFE0130]

def writesRegister (address : Word) : Prop :=
  (0x1F808200 ≤ address ∧ address < 0x1F808260) ∨ (0x1F808400 ≤ address ∧ address < 0x1F808550) ∨
    address ∈ writeRegisters

def inScratchpad (m : Machine D) (address : Word) : Prop :=
  m.scratchpadStart ≤ address ∧ address < m.scratchpadStart + 0x400

instance (address : Word) : Decidable (readsRegister address) := inferInstanceAs (Decidable (_ ∨ _))

instance (address : Word) : Decidable (writesRegister address) := inferInstanceAs (Decidable (_ ∨ _))

instance (address : Word) : Decidable (inScratchpad m address) := inferInstanceAs (Decidable (_ ∧ _))

def iopRead32 (P : Registers D) (address : Word) : Program D Word := do
  let m ← get
  if address < 0x00200000 then return word m.memory (.ram (address.setWidth 21))
  else if 0x1FC00000 ≤ address ∧ address < 0x20000000 then return word m.memory (.bios (address.setWidth 22))
  else if readsRegister address then P.read32 address
  else if inScratchpad m address then return word m.memory (.scratchpad (address.setWidth 10))
  else return 0

def iopWrite32 (P : Registers D) (address value : Word) : Program D Unit := do
  let m ← get
  if address < 0x00200000 then
    modify fun m => { m with memory := setWord m.memory (.ram (address.setWidth 21)) value }
  else if writesRegister address then P.write32 address value
  else if address = 0xFFFE0144 then modify fun m => { m with scratchpadStart := value }
  else if inScratchpad m address then
    modify fun m => { m with memory := setWord m.memory (.scratchpad (address.setWidth 10)) value }
  else return

def translateAddr (addr : Word) : Word :=
  if 0x80000000 ≤ addr ∧ addr < 0xA0000000 then addr - 0x80000000
  else if 0xA0000000 ≤ addr ∧ addr < 0xC0000000 then addr - 0xA0000000
  else addr

def read32 (P : Registers D) (addr : Word) : Program D Word := do
  if addr &&& 3 ≠ 0 then throw (.read32 addr)
  else if addr = 0xFFFE0130 then return (← get).cacheControl
  else iopRead32 P (translateAddr addr)

def write32 (P : Registers D) (addr value : Word) : Program D Unit := do
  if (← get).status.IsC then
    modify fun m => { m with icacheValid := Function.update m.icacheValid ((addr >>> 4).setWidth 8) false }
  else if addr &&& 3 ≠ 0 then throw (.write32 addr)
  else do
    if addr = 0xFFFE0130 then modify fun m => { m with cacheControl := value }
    iopWrite32 P (translateAddr addr) value

/-! ### The instructions -/

def effective (m : Machine D) (instruction : Word) : Word :=
  m.gpr (rs instruction) + (imm instruction).signExtend 32

/-- `merge` puts the word that is loaded into the register, given the part. -/
def loadPart (merge : ℕ → Word → Word → Word) (P : Registers D) (instruction : Word) : Program D Unit := do
  let addr := effective (← get) instruction
  let mem ← read32 P (addr &&& ~~~3)
  modify fun m => setGpr (rt instruction) (merge (addr &&& 3).toNat (m.gpr (rt instruction)) mem) m

/-- `merge` puts the register into the word that the memory holds. -/
def storePart (merge : ℕ → Word → Word → Word) (P : Registers D) (instruction : Word) : Program D Unit := do
  let addr := effective (← get) instruction
  let mem ← read32 P (addr &&& ~~~3)
  write32 P (addr &&& ~~~3) (merge (addr &&& 3).toNat ((← get).gpr (rt instruction)) mem)

def LWL_MASK : List Word := [0xFFFFFF, 0x0000FFFF, 0x000000FF, 0x00000000]
def LWL_SHIFT : List ℕ := [24, 16, 8, 0]
def LWR_MASK : List Word := [0x000000, 0xFF000000, 0xFFFF0000, 0xFFFFFF00]
def LWR_SHIFT : List ℕ := [0, 8, 16, 24]
def SWL_MASK : List Word := [0xFFFFFF00, 0xFFFF0000, 0xFF000000, 0x00000000]
def SWL_SHIFT : List ℕ := [24, 16, 8, 0]
def SWR_MASK : List Word := [0x00000000, 0x000000FF, 0x0000FFFF, 0x00FFFFFF]
def SWR_SHIFT : List ℕ := [0, 8, 16, 24]

def lwl : Registers D → Word → Program D Unit :=
  loadPart fun shift reg mem => (reg &&& LWL_MASK.getD shift 0) ||| (mem <<< LWL_SHIFT.getD shift 0)

def lwr : Registers D → Word → Program D Unit :=
  loadPart fun shift reg mem => (reg &&& LWR_MASK.getD shift 0) ||| (mem >>> LWR_SHIFT.getD shift 0)

def swl : Registers D → Word → Program D Unit :=
  storePart fun shift reg mem => (reg >>> SWL_SHIFT.getD shift 0) ||| (mem &&& SWL_MASK.getD shift 0)

def swr : Registers D → Word → Program D Unit :=
  storePart fun shift reg mem => (reg <<< SWR_SHIFT.getD shift 0) ||| (mem &&& SWR_MASK.getD shift 0)

/-! ### What is promised -/

/-- The memory that a load of the word at a physical address reaches. -/
def readCell (m : Machine D) (address : Word) : Option Cell :=
  if address < 0x00200000 then some (.ram (address.setWidth 21))
  else if 0x1FC00000 ≤ address ∧ address < 0x20000000 then some (.bios (address.setWidth 22))
  else if readsRegister address then none
  else if inScratchpad m address then some (.scratchpad (address.setWidth 10))
  else none

/-- The memory that a store reaches. -/
def writeCell (m : Machine D) (address : Word) : Option Cell :=
  if address < 0x00200000 then some (.ram (address.setWidth 21))
  else if writesRegister address ∨ address = 0xFFFE0144 then none
  else if inScratchpad m address then some (.scratchpad (address.setWidth 10))
  else none

/-- Where the byte at an address is. -/
def locate (m : Machine D) (a : Word) : Option Cell :=
  (readCell m (translateAddr (base 4 a))).map (Cell.after (part 4 a))

def byte (m : Machine D) (a : Word) : BitVec 8 := (locate m a).elim 0 m.memory

/-- The four bytes at `a` are memory. -/
def InMemory (m : Machine D) (a : Word) : Prop := ∀ i < 4, (locate m (a + BitVec.ofNat 32 i)).isSome

/-- They can be written too. -/
def Writable (m : Machine D) (a : Word) : Prop :=
  InMemory m a ∧ ∀ i < 4, writeCell m (translateAddr (base 4 (a + BitVec.ofNat 32 i))) =
    readCell m (translateAddr (base 4 (a + BitVec.ofNat 32 i)))

/-- The four bytes at `a`. -/
def bytes (m : Machine D) (a : Word) : Word := ofLanes 32 4 fun i => byte m (a + BitVec.ofNat 32 i)

/-- The bytes at `a` are those of `v`, and nothing else is changed. -/
structure Stored (m m' : Machine D) (a v : Word) : Prop where
  bytes : ∀ i < 4, byte m' (a + BitVec.ofNat 32 i) = lane 8 v i
  others : ∀ c : Cell, (∀ i < 4, locate m (a + BitVec.ofNat 32 i) ≠ some c) → m'.memory c = m.memory c
  rest : m' = { m with memory := m'.memory }

/-- The register `r` is `v`, and nothing else is changed. The register 0 stays as it is. -/
structure Loaded (m m' : Machine D) (r : BitVec 5) (v : Word) : Prop where
  value : r ≠ 0 → m'.gpr r = v
  others : ∀ r', r' ≠ r → m'.gpr r' = m.gpr r'
  zero : r = 0 → m' = m
  rest : m' = { m with gpr := m'.gpr, gprZero := m'.gprZero }

/-- SWL at `a + 3` and SWR at `a` store a register. -/
def StoresAt (P : Registers D) (m : Machine D) (a : Word) : Prop :=
  ∀ w w', rt w = rt w' → effective m w = a + 3 → effective m w' = a →
    ∃ m', Gives (do swl P w; swr P w') m () m' ∧ Stored m m' a (m.gpr (rt w))

/-- LWL at `a + 3` and then LWR at `a` make a register `v`. -/
def LoadsAt (P : Registers D) (m : Machine D) (a v : Word) : Prop :=
  ∀ w w', rt w = rt w' → effective m w = a + 3 →
    ∃ m₁, Gives (lwl P w) m () m₁ ∧
      (effective m₁ w' = a → ∃ m', Gives (lwr P w') m₁ () m' ∧ Loaded m m' (rt w) v)

/-! ### Cells -/

/-- The lowest bits of the index are those of the address. -/
def Cell.low : Cell → BitVec 10
  | .ram index => index.setWidth 10
  | .bios index => index.setWidth 10
  | .scratchpad index => index

theorem Cell.low_after (c : Cell) (i : ℕ) : (c.after i).low = c.low + BitVec.ofNat 10 i := by
  cases c with
  | ram index =>
    apply BitVec.eq_of_toNat_eq
    simp only [Cell.after, Cell.low, BitVec.toNat_setWidth, BitVec.toNat_add, BitVec.toNat_ofNat]
    omega
  | bios index =>
    apply BitVec.eq_of_toNat_eq
    simp only [Cell.after, Cell.low, BitVec.toNat_setWidth, BitVec.toNat_add, BitVec.toNat_ofNat]
    omega
  | scratchpad index => rfl

theorem Cell.after_inj (hi : i < 4) (hj : j < 4) (h : c.after i = c.after j) : i = j := by
  have hlow := congrArg (fun c => (Cell.low c).toNat) h
  simp only [Cell.low_after, BitVec.toNat_add, BitVec.toNat_ofNat] at hlow
  omega

theorem low_readCell (h : readCell m e = some c) : c.low = e.setWidth 10 := by
  unfold readCell at h
  split_ifs at h <;> obtain rfl := Option.some.inj h
  · exact BitVec.setWidth_setWidth_of_le _ (by decide)
  · exact BitVec.setWidth_setWidth_of_le _ (by decide)
  · rfl

theorem low_translateAddr : (translateAddr e).setWidth 10 = e.setWidth 10 := by
  unfold translateAddr
  split_ifs
  · have hbase : (0x80000000 : Word).toNat = 0x80000000 := rfl
    apply BitVec.eq_of_toNat_eq
    simp only [BitVec.toNat_setWidth, BitVec.toNat_sub, hbase]
    omega
  · have hbase : (0xA0000000 : Word).toNat = 0xA0000000 := rfl
    apply BitVec.eq_of_toNat_eq
    simp only [BitVec.toNat_setWidth, BitVec.toNat_sub, hbase]
    omega
  · rfl

theorem low_locate (h : locate m e = some c) : c.low = e.setWidth 10 := by
  unfold locate at h
  obtain ⟨c', hc', rfl⟩ := Option.map_eq_some_iff.mp h
  rw [Cell.low_after, low_readCell hc', low_translateAddr]
  have hbase := congrArg BitVec.toNat (base_add_part (n := 4) (e := e) (.inl rfl))
  apply BitVec.eq_of_toNat_eq
  simp only [BitVec.toNat_add, BitVec.toNat_setWidth, BitVec.toNat_ofNat] at hbase ⊢
  omega

theorem locate_inj (hi : i < 4) (hj : j < 4) (h : locate m (a + BitVec.ofNat 32 i) = some c)
    (h' : locate m (a + BitVec.ofNat 32 j) = some c) : i = j := by
  have hlow := congrArg BitVec.toNat ((low_locate h).symm.trans (low_locate h'))
  simp only [BitVec.toNat_setWidth, BitVec.toNat_add, BitVec.toNat_ofNat] at hlow
  omega

theorem byte_eq (h : locate m e = some c) : byte m e = m.memory c := by
  rw [byte, h]
  rfl

/-- The word at the base of an address. -/
theorem locate_word (hc : readCell m (translateAddr (base 4 e)) = some c) (hj : j < 4) :
    locate m (base 4 e + BitVec.ofNat 32 j) = some (c.after j) := by
  have hbase := base_toNat (n := 4) (e := e) (.inl rfl)
  have hlt := e.isLt
  have hsum : (base 4 e + BitVec.ofNat 32 j).toNat = e.toNat / 4 * 4 + j := by
    rw [BitVec.toNat_add, BitVec.toNat_ofNat, hbase]
    omega
  have hpart : part 4 (base 4 e + BitVec.ofNat 32 j) = j := by
    rw [part, hsum]
    omega
  have hsame : base 4 (base 4 e + BitVec.ofNat 32 j) = base 4 e := by
    apply BitVec.eq_of_toNat_eq
    rw [base_toNat (.inl rfl), hsum, hbase]
    omega
  rw [locate, hsame, hpart, hc]
  rfl

theorem lane_word (hi : i < 4) (memory : Memory) : lane 8 (word memory c) i = memory (c.after i) :=
  lane_ofLanes (by decide) hi

theorem lane_bytes (hi : i < 4) : lane 8 (bytes m a) i = byte m (a + BitVec.ofNat 32 i) :=
  lane_ofLanes (by decide) hi

theorem word_eq_bytes (hc : readCell m (translateAddr (base 4 e)) = some c) :
    word m.memory c = bytes m (base 4 e) := by
  refine eq_of_lanes (n := 4) (w := 8) (by decide) fun i hi => ?_
  rw [lane_word hi, lane_bytes hi, byte_eq (locate_word hc hi)]

theorem pass_setWord : Pass (fun (memory : Memory) c' => memory c')
    (fun i memory => Function.update memory (c.after i) (lane 8 v i)) 4 (fun i c' => c' = c.after i)
    fun i _ _ => lane 8 v i := by
  constructor
  · rintro i _ memory _ rfl
    exact Function.update_self _ _ _
  · intro i _ memory c' hne
    exact Function.update_of_ne hne _ _

theorem setWord_self (hi : i < 4) (memory : Memory) : setWord memory c v (c.after i) = lane 8 v i := by
  refine sweep_written pass_setWord (Apart.of_const ?_) (Nat.le_refl 4) hi rfl
  rintro i j _ hlt hj rfl heq
  exact Nat.ne_of_lt hlt (Cell.after_inj (by omega) hj heq)

theorem setWord_other (h : ∀ i < 4, c' ≠ c.after i) (memory : Memory) : setWord memory c v c' = memory c' :=
  sweep_other pass_setWord (Nat.le_refl 4) h

/-! ### One access -/

/-- The machine after a store to memory. -/
def written (m : Machine D) (c : Cell) (v : Word) : Machine D := { m with memory := setWord m.memory c v }

theorem locate_written : locate (written m c v) e = locate m e := rfl

theorem base_eq : e &&& ~~~3 = base 4 e := rfl

theorem aligned_base : base 4 e &&& 3 = 0 := by
  rw [← base_eq, BitVec.and_assoc]
  exact BitVec.and_zero

theorem part_eq : (e &&& 3).toNat = part 4 e := by
  rw [BitVec.toNat_and]
  exact Nat.and_two_pow_sub_one_eq_mod _ 2

theorem gives_iopRead32 (hc : readCell m e = some c) : Gives (iopRead32 P e) m (word m.memory c) m := by
  refine gives_get.bind ?_
  unfold readCell at hc
  split_ifs at hc <;> obtain rfl := Option.some.inj hc
  · rw [if_pos ‹_›]
    exact gives_pure
  · rw [if_neg ‹_›, if_pos ‹_›]
    exact gives_pure
  · rw [if_neg ‹_›, if_neg ‹_›, if_neg ‹_›, if_pos ‹_›]
    exact gives_pure

theorem gives_iopWrite32 (hc : writeCell m e = some c) : Gives (iopWrite32 P e v) m () (written m c v) := by
  refine gives_get.bind ?_
  unfold writeCell at hc
  split_ifs at hc with hram hregister hscratchpad <;> obtain rfl := Option.some.inj hc
  · rw [if_pos hram]
    exact gives_modify
  · obtain ⟨hregister, hstart⟩ := not_or.mp hregister
    rw [if_neg hram, if_neg hregister, if_neg hstart, if_pos hscratchpad]
    exact gives_modify

theorem not_cacheControl (hc : readCell m (translateAddr e) = some c) : e ≠ 0xFFFE0130 := by
  rintro rfl
  have hram : ¬ translateAddr 0xFFFE0130 < 0x00200000 := by decide
  have hbios : ¬ (0x1FC00000 ≤ translateAddr 0xFFFE0130 ∧ translateAddr 0xFFFE0130 < 0x20000000) := by decide
  have hregister : readsRegister (translateAddr 0xFFFE0130) := by decide
  rw [readCell, if_neg hram, if_neg hbios, if_pos hregister] at hc
  cases hc

theorem gives_read32 (hc : readCell m (translateAddr (base 4 e)) = some c) :
    Gives (read32 P (base 4 e)) m (word m.memory c) m := by
  rw [read32, if_neg (not_not.mpr aligned_base), if_neg (not_cacheControl hc)]
  exact gives_iopRead32 hc

theorem gives_write32 (hisolated : m.status.IsC = false) (hc : readCell m (translateAddr (base 4 e)) = some c)
    (hw : writeCell m (translateAddr (base 4 e)) = some c) :
    Gives (write32 P (base 4 e) v) m () (written m c v) := by
  refine gives_get.bind ?_
  rw [if_neg (by rw [hisolated]; decide), if_neg (not_not.mpr aligned_base), if_neg (not_cacheControl hc)]
  exact gives_pure.bind (gives_iopWrite32 hw)

/-! ### One instruction -/

theorem readable_base (hmem : InMemory m a) (hi : i < 4) (he : e = a + BitVec.ofNat 32 i) :
    ∃ c, readCell m (translateAddr (base 4 e)) = some c := by
  obtain ⟨c, hc⟩ := Option.isSome_iff_exists.mp (hmem i hi)
  rw [← he, locate] at hc
  obtain ⟨c', hc', -⟩ := Option.map_eq_some_iff.mp hc
  exact ⟨c', hc'⟩

variable {merge : ℕ → Word → Word → Word} {y : Word}

theorem gives_storePart (hisolated : m.status.IsC = false) (he : effective m w = e)
    (hc : readCell m (translateAddr (base 4 e)) = some c) (hw : writeCell m (translateAddr (base 4 e)) = some c)
    (hy : merge (part 4 e) (m.gpr (rt w)) (bytes m (base 4 e)) = y) :
    Gives (storePart merge P w) m () (written m c y) := by
  refine gives_get.bind ?_
  dsimp only
  rw [he, base_eq, part_eq]
  refine (gives_read32 hc).bind (gives_get.bind ?_)
  rw [word_eq_bytes hc, hy]
  exact gives_write32 hisolated hc hw

/-- While the cache is isolated a store invalidates a line of it, and nothing else. -/
theorem isolated_storePart (merge : ℕ → Word → Word → Word) (hisolated : m.status.IsC = true)
    (he : effective m w = e) (hc : readCell m (translateAddr (base 4 e)) = some c) :
    ∃ lines, Gives (storePart merge P w) m () { m with icacheValid := lines } := by
  refine ⟨Function.update m.icacheValid ((base 4 e >>> 4).setWidth 8) false, gives_get.bind ?_⟩
  dsimp only
  rw [he, base_eq]
  refine (gives_read32 hc).bind (gives_get.bind (gives_get.bind ?_))
  rw [if_pos hisolated]
  exact gives_modify

theorem gives_loadPart (he : effective m w = e) (hc : readCell m (translateAddr (base 4 e)) = some c)
    (hy : merge (part 4 e) (m.gpr (rt w)) (bytes m (base 4 e)) = y) :
    Gives (loadPart merge P w) m () (setGpr (rt w) y m) := by
  refine gives_get.bind ?_
  dsimp only
  rw [he, base_eq, part_eq]
  refine (gives_read32 hc).bind ?_
  rw [word_eq_bytes hc, ← hy]
  exact gives_modify

/-! ### The tables -/

theorem lwl_merge (hs : s < 4) (reg mem : Word) :
    (reg &&& LWL_MASK.getD s 0) ||| (mem <<< LWL_SHIFT.getD s 0) = joinLow 8 (3 - s) reg mem := by
  have hmask : ∀ s < 4, LWL_MASK.getD s 0 = BitVec.allOnes 32 >>> (32 - (3 - s) * 8) := by decide
  have hshift : ∀ s < 4, LWL_SHIFT.getD s 0 = (3 - s) * 8 := by decide
  rw [joinLow, hmask s hs, hshift s hs]

theorem lwr_merge (hs : s < 4) (reg mem : Word) :
    (reg &&& LWR_MASK.getD s 0) ||| (mem >>> LWR_SHIFT.getD s 0) = joinHigh 8 s reg mem := by
  have hmask : ∀ s < 4, LWR_MASK.getD s 0 = BitVec.allOnes 32 <<< (32 - s * 8) := by decide
  have hshift : ∀ s < 4, LWR_SHIFT.getD s 0 = s * 8 := by decide
  rw [joinHigh, hmask s hs, hshift s hs]

theorem swl_merge (hs : s < 4) (reg mem : Word) :
    (reg >>> SWL_SHIFT.getD s 0) ||| (mem &&& SWL_MASK.getD s 0) = joinHigh 8 (3 - s) mem reg := by
  have hmask : ∀ s < 4, SWL_MASK.getD s 0 = BitVec.allOnes 32 <<< (32 - (3 - s) * 8) := by decide
  have hshift : ∀ s < 4, SWL_SHIFT.getD s 0 = (3 - s) * 8 := by decide
  rw [joinHigh, hmask s hs, hshift s hs, BitVec.or_comm]

theorem swr_merge (hs : s < 4) (reg mem : Word) :
    (reg <<< SWR_SHIFT.getD s 0) ||| (mem &&& SWR_MASK.getD s 0) = joinLow 8 s mem reg := by
  have hmask : ∀ s < 4, SWR_MASK.getD s 0 = BitVec.allOnes 32 >>> (32 - s * 8) := by decide
  have hshift : ∀ s < 4, SWR_SHIFT.getD s 0 = s * 8 := by decide
  rw [joinLow, hmask s hs, hshift s hs, BitVec.or_comm]

/-! ### Stores -/

/-- The covered bytes at `a` are those of `v`, and nothing else is changed. -/
structure StoredIn (covered : ℕ → Prop) (m m' : Machine D) (a v : Word) : Prop where
  bytes : ∀ i < 4, covered i → byte m' (a + BitVec.ofNat 32 i) = lane 8 v i
  others : ∀ c : Cell, (∀ i < 4, covered i → locate m (a + BitVec.ofNat 32 i) ≠ some c) →
    m'.memory c = m.memory c
  rest : m' = { m with memory := m'.memory }

/-- A word at the base of `e` with the covered bytes of `v`, and its old bytes elsewhere. -/
theorem storedIn_written (hc : readCell m (translateAddr (base 4 e)) = some c)
    (hnew : ∀ i < 4, covered i → ∃ j < 4,
      a + BitVec.ofNat 32 i = base 4 e + BitVec.ofNat 32 j ∧ lane 8 y j = lane 8 v i)
    (hold : ∀ j < 4, (∃ i < 4, covered i ∧
      a + BitVec.ofNat 32 i = base 4 e + BitVec.ofNat 32 j) ∨ lane 8 y j = lane 8 (bytes m (base 4 e)) j) :
    StoredIn covered m (written m c y) a v := by
  constructor
  case bytes =>
    intro i hi hcov
    obtain ⟨j, hj, haddr, hlane⟩ := hnew i hi hcov
    rw [haddr, byte_eq (locate_written.trans (locate_word hc hj)), ← hlane]
    exact setWord_self hj m.memory
  case others =>
    intro c' hc'
    by_cases hin : ∃ j < 4, c' = c.after j
    · obtain ⟨j, hj, rfl⟩ := hin
      rcases hold j hj with ⟨i, hi, hcov, haddr⟩ | hlane
      · exact absurd (haddr ▸ locate_word hc hj) (hc' i hi hcov)
      · rw [lane_bytes hj, byte_eq (locate_word hc hj)] at hlane
        exact (setWord_self hj m.memory).trans hlane
    · exact setWord_other (fun j hj heq => hin ⟨j, hj, heq⟩) m.memory
  case rest => rfl

theorem storedIn_left (he : e = a + BitVec.ofNat 32 3) (hc : readCell m (translateAddr (base 4 e)) = some c) :
    StoredIn (fun i => 2 < i + part 4 e) m
      (written m c (joinHigh 8 (3 - part 4 e) (bytes m (base 4 e)) v)) a v := by
  have hpart : part 4 e < 4 := part_lt (.inl rfl)
  have hroom : 3 - part 4 e ≤ 4 := by omega
  refine storedIn_written hc ?_ ?_
  · intro i hi hcov
    refine ⟨i - (3 - part 4 e), by omega, part_address (.inl rfl) he (by omega), ?_⟩
    have hin : i - (3 - part 4 e) + (3 - part 4 e) < 4 := by omega
    rw [lane_joinHigh (n := 4) (by decide) hroom (by omega), if_pos hin]
    congr 1
    omega
  · intro j hj
    by_cases hcov : j + (3 - part 4 e) < 4
    · exact .inl ⟨j + (3 - part 4 e), hcov, by omega, part_address (.inl rfl) he (by omega)⟩
    · exact .inr ((lane_joinHigh (n := 4) (by decide) hroom hj).trans (if_neg hcov))

theorem storedIn_right (he : e = a + BitVec.ofNat 32 0) (hc : readCell m (translateAddr (base 4 e)) = some c) :
    StoredIn (fun i => i + part 4 e < 4) m (written m c (joinLow 8 (part 4 e) (bytes m (base 4 e)) v)) a v := by
  have hroom : part 4 e ≤ 4 := Nat.le_of_lt (part_lt (.inl rfl))
  refine storedIn_written hc ?_ ?_
  · intro i hi hcov
    refine ⟨i + part 4 e, hcov, part_address (.inl rfl) he (by omega), ?_⟩
    rw [lane_joinLow (n := 4) (by decide) hroom hcov, if_neg (by omega), Nat.add_sub_cancel]
  · intro j hj
    by_cases hcov : j < part 4 e
    · exact .inr ((lane_joinLow (n := 4) (by decide) hroom hj).trans (if_pos hcov))
    · exact .inl ⟨j - part 4 e, by omega, by omega, part_address (.inl rfl) he (by omega)⟩

theorem StoredIn.locate_eq (h : StoredIn covered m m' a v) (b : Word) : locate m' b = locate m b := by
  rw [h.rest]
  rfl

/-- Two stores that cover all the bytes. -/
theorem StoredIn.trans (h : StoredIn covered m m₁ a v) (h' : StoredIn covered' m₁ m' a v)
    (hall : ∀ i < 4, covered i ∨ covered' i) (hmem : InMemory m a) : Stored m m' a v := by
  constructor
  case bytes =>
    intro i hi
    by_cases hcov : covered' i
    · exact h'.bytes i hi hcov
    · obtain ⟨c, hc⟩ := Option.isSome_iff_exists.mp (hmem i hi)
      have hfirst := h.bytes i hi ((hall i hi).resolve_right hcov)
      have hc₁ := (h.locate_eq _).trans hc
      rw [byte_eq hc₁] at hfirst
      rw [byte_eq ((h'.locate_eq _).trans hc₁), ← hfirst]
      refine h'.others c fun j hj hcovj hcj => hcov ?_
      rw [h.locate_eq] at hcj
      exact locate_inj hi hj hc hcj ▸ hcovj
  case others =>
    intro c hc
    refine (h'.others c fun i hi _ => ?_).trans (h.others c fun i hi _ => hc i hi)
    rw [h.locate_eq]
    exact hc i hi
  case rest =>
    have hrest := h.rest
    have hrest' := h'.rest
    rw [hrest] at hrest'
    exact hrest'

theorem stores (hisolated : m.status.IsC = false) (hmem : Writable m a) : StoresAt P m a := by
  intro w w' hrt he he'
  have he₀ : a = a + BitVec.ofNat 32 0 := (BitVec.add_zero a).symm
  obtain ⟨c, hc⟩ := readable_base hmem.1 (show 3 < 4 by decide) (e := a + 3) rfl
  obtain ⟨c', hc'⟩ := readable_base hmem.1 (show 0 < 4 by decide) he₀
  have hleft : part 4 (a + 3) < 4 := part_lt (.inl rfl)
  have hright : part 4 a < 4 := part_lt (.inl rfl)
  obtain ⟨y, hfirst, hstored⟩ : ∃ y, Gives (swl P w) m () (written m c y) ∧
      StoredIn (fun i => 2 < i + part 4 (a + 3)) m (written m c y) a (m.gpr (rt w)) :=
    ⟨_, gives_storePart hisolated he hc ((hmem.2 3 (by decide)).trans hc) (swl_merge hleft _ _),
      storedIn_left rfl hc⟩
  have hw' : writeCell m (translateAddr (base 4 a)) = some c' := by
    have hsame := hmem.2 0 (by decide)
    rw [← he₀] at hsame
    exact hsame.trans hc'
  have hsecond : Gives (swr P w') (written m c y) () _ :=
    gives_storePart (m := written m c y) hisolated he' hc' hw' (swr_merge hright _ _)
  have hrest := storedIn_right (m := written m c y) (v := m.gpr (rt w')) he₀ hc'
  rw [hrt] at hstored ⊢
  refine ⟨_, hfirst.bind hsecond, hstored.trans hrest (fun i hi => ?_) hmem.1⟩
  have hparts := parts (n := 4) (.inl rfl) (e := a + 3) (a := a) rfl
  omega

/-! ### Loads -/

variable {r : BitVec 5}

theorem setGpr_self (hr : r ≠ 0) : (setGpr r v m).gpr r = v := by
  rw [setGpr, dif_neg hr]
  exact Function.update_self _ _ _

theorem setGpr_other {r' : BitVec 5} (hr : r' ≠ r) : (setGpr r v m).gpr r' = m.gpr r' := by
  unfold setGpr
  split_ifs
  · rfl
  · exact Function.update_of_ne hr _ _

theorem setGpr_zero (hr : r = 0) : setGpr r v m = m := dif_pos hr

theorem rest_setGpr : setGpr r v m = { m with gpr := (setGpr r v m).gpr, gprZero := (setGpr r v m).gprZero } := by
  unfold setGpr
  split_ifs <;> rfl

theorem byte_setGpr : byte (setGpr r v m) e = byte m e := by
  rw [rest_setGpr]
  rfl

theorem readCell_setGpr : readCell (setGpr r v m) e = readCell m e := by
  rw [rest_setGpr]
  rfl

theorem bytes_setGpr : bytes (setGpr r v m) e = bytes m e := by
  rw [rest_setGpr]
  rfl

theorem loaded_setGpr {y : Word} (hv : r ≠ 0 → y = v) : Loaded m (setGpr r y (setGpr r b m)) r v where
  value hr := (setGpr_self hr).trans (hv hr)
  others r' hr := (setGpr_other hr).trans (setGpr_other hr)
  zero hr := (setGpr_zero hr).trans (setGpr_zero hr)
  rest := by
    by_cases hr : r = 0
    · rw [setGpr_zero hr, setGpr_zero hr]
    · simp only [setGpr, dif_neg hr]

/-- The left instruction loads the highest bytes, and then the right one the others. -/
theorem merged (he : e = a + BitVec.ofNat 32 3) (x x' : Word)
    (hx' : x' = joinLow 8 (3 - part 4 e) x (bytes m (base 4 e))) :
    joinHigh 8 (part 4 a) x' (bytes m (base 4 a)) = bytes m a := by
  have hparts := parts (n := 4) (.inl rfl) he
  have hleft : part 4 e < 4 := part_lt (.inl rfl)
  have hright : part 4 a ≤ 4 := Nat.le_of_lt (part_lt (.inl rfl))
  refine eq_of_lanes (n := 4) (w := 8) (by decide) fun i hi => ?_
  rw [lane_joinHigh (n := 4) (by decide) hright hi, lane_bytes hi]
  split_ifs with hcond
  · have ha : a = a + BitVec.ofNat 32 0 := (BitVec.add_zero a).symm
    rw [lane_bytes hcond, part_address (n := 4) (.inl rfl) ha (i := i) (j := i + part 4 a) (by omega)]
  · have hle : 3 - part 4 e ≤ 4 := by omega
    rw [hx', lane_joinLow (n := 4) (by decide) hle hi, if_neg (by omega), lane_bytes (by omega),
      part_address (n := 4) (.inl rfl) he (i := i) (j := i - (3 - part 4 e)) (by omega)]

theorem loads (hmem : InMemory m a) : LoadsAt P m a (bytes m a) := by
  intro w w' hrt he
  have he₀ : a = a + BitVec.ofNat 32 0 := (BitVec.add_zero a).symm
  obtain ⟨c, hc⟩ := readable_base hmem (show 3 < 4 by decide) (e := a + 3) rfl
  obtain ⟨c', hc'⟩ := readable_base hmem (show 0 < 4 by decide) he₀
  have hleft : part 4 (a + 3) < 4 := part_lt (.inl rfl)
  have hright : part 4 a < 4 := part_lt (.inl rfl)
  refine ⟨_, gives_loadPart he hc (lwl_merge hleft _ _), fun he' => ?_⟩
  refine ⟨_, gives_loadPart he' (readCell_setGpr.trans hc') (lwr_merge hright _ _), ?_⟩
  rw [← hrt, bytes_setGpr]
  refine loaded_setGpr fun hr => ?_
  exact merged (e := a + 3) rfl _ _ (setGpr_self hr)

theorem Stored.inMemory (h : Stored m m' a v) (hmem : InMemory m a) : InMemory m' a := by
  rw [h.rest]
  exact hmem

theorem Stored.bytes_eq (h : Stored m m' a v) : Unaligned.bytes m' a = v := by
  refine eq_of_lanes (n := 4) (w := 8) (by decide) fun i hi => ?_
  rw [lane_bytes hi, h.bytes i hi]

/-- **Unaligned access.** -/
theorem word_access (P : Registers D) (m : Machine D) (a : Word) :
    (m.status.IsC = false → Writable m a → StoresAt P m a) ∧
    (InMemory m a → LoadsAt P m a (bytes m a)) ∧
    (Writable m a → ∀ m' v, Stored m m' a v → LoadsAt P m' a v) := by
  refine ⟨stores, loads, fun hmem m' v hstored => ?_⟩
  have hloads := loads (P := P) (hstored.inMemory hmem.1)
  rwa [hstored.bytes_eq] at hloads

/-- An address in the middle of a word, and a register to store there. -/
def middle (isolated : Bool) : Machine Unit where
  gpr r := if r = 1 then 0x80001001 else if r = 2 then 0x11223344 else 0
  gprZero := rfl
  status := { Status.reset with IsC := isolated }
  cacheControl := 0
  icacheValid _ := false
  memory _ := 0
  scratchpadStart := 0x1F800000
  devices := ()

/-- Registers that read as 0. -/
def noRegisters : Registers Unit := ⟨fun _ => pure 0, fun _ _ => pure ()⟩

/-- SWL $2, 3($1) and SWR $2, 0($1), and then LWL and LWR there. -/
theorem word_access_middle : ∃ m', Gives (do
      swl noRegisters 0xA8220003
      swr noRegisters 0xB8220000) (middle false) () m' ∧
    Stored (middle false) m' 0x80001001 0x11223344 ∧ LoadsAt noRegisters m' 0x80001001 0x11223344 := by
  have hmem : Writable (middle false) 0x80001001 := by
    refine ⟨?_, ?_⟩
    · unfold InMemory
      decide
    · decide
  obtain ⟨hstores, -, hback⟩ := word_access noRegisters (middle false) 0x80001001
  obtain ⟨m', hgives, hstored⟩ := hstores rfl hmem 0xA8220003 0xB8220000 rfl rfl rfl
  exact ⟨m', hgives, hstored, hback hmem m' _ hstored⟩

/-- Nothing is stored while the cache is isolated. -/
theorem not_word_access : ¬ ∀ (m : Machine Unit) (a : Word), InMemory m a → StoresAt noRegisters m a := by
  intro h
  have hmem : InMemory (middle true) 0x80001001 := by
    unfold InMemory
    decide
  obtain ⟨m', hgives, hstored⟩ := h (middle true) 0x80001001 hmem 0xA8220003 0xB8220000 rfl rfl rfl
  obtain ⟨lines, hleft⟩ := isolated_storePart (P := noRegisters) (m := middle true) (w := 0xA8220003)
    (fun shift reg mem => (reg >>> SWL_SHIFT.getD shift 0) ||| (mem &&& SWL_MASK.getD shift 0)) rfl
    (e := 0x80001004) rfl (c := .ram 0x1004) rfl
  obtain ⟨lines', hright⟩ := isolated_storePart (P := noRegisters) (m := { middle true with icacheValid := lines })
    (w := 0xB8220000)
    (fun shift reg mem => (reg <<< SWR_SHIFT.getD shift 0) ||| (mem &&& SWR_MASK.getD shift 0)) rfl
    (e := 0x80001001) rfl (c := .ram 0x1000) rfl
  have hrun := hgives.symm.trans (hleft.bind hright)
  obtain rfl := congrArg Prod.snd (Except.ok.inj hrun)
  have hlowest : (0 : BitVec 8) = 0x44 := hstored.bytes 0 (by decide)
  exact absurd hlowest (by decide)

end DobieStation.Iop.Unaligned
