import DobieStation.Ee.Control
import DobieStation.Lib.Lanes
import DobieStation.Tlb.Alignment

/-! # The bytes of the memory

A virtual address leads by the page tables to a cell of one of the memories. An access of a page of
memory reads or writes the cells of its bytes, the lowest first, and the tables stay as they are but
for the mark of a modified page. -/

namespace DobieStation.Ee.Bytes

open DobieStation.Lib.Lanes DobieStation.Lib.Hoare DobieStation.Ee.Interface DobieStation.Ee.Control
open DobieStation.Tlb.Model (Pointer Page)
open DobieStation.Tlb.Alignment

/-! ### Cells -/

inductive Bank where
  | RDRAM
  | BIOS
  | spr
  deriving DecidableEq, Repr

def Bank.bytes (m : Memory) : Bank → Lib.Memory.Bytes
  | .RDRAM => m.RDRAM
  | .BIOS => m.BIOS
  | .spr => m.spr

structure Cell where
  bank : Bank
  index : ℕ
  deriving DecidableEq, Repr

def Cell.get (m : Memory) (c : Cell) : BitVec 8 := c.bank.bytes m c.index

/-- Where a page starts. Registers of other components are not memory. -/
def start : Pointer → Option Cell
  | .RDRAM a => some ⟨.RDRAM, a⟩
  | .BIOS a => some ⟨.BIOS, a⟩
  | .spr a => some ⟨.spr, a⟩
  | .null => none
  | .mmio => none

/-- The cell at `i` in a page. -/
def cell (p : Pointer) (i : ℕ) : Option Cell := (start p).map fun c => ⟨c.bank, c.index + i⟩

variable {D α β : Type} {P : Rest D} {m m' : Machine D} {mem : Memory} {p p' : Pointer} {s c : Cell}
  {i j k n off : ℕ} {v : Quad}

theorem cell_of_start (h : start p = some s) : cell p i = some ⟨s.bank, s.index + i⟩ := by
  rw [cell, h, Option.map_some]

theorem start_of_cell (h : cell p i = some c) : ∃ s, start p = some s ∧ c = ⟨s.bank, s.index + i⟩ := by
  obtain ⟨s, hs, rfl⟩ := Option.map_eq_some_iff.mp h
  exact ⟨s, hs, rfl⟩

theorem start_mod (hp : WholePage p) (h : start p = some s) : s.index % 4096 = 0 := by
  cases p <;> cases h <;> exact hp

/-- Cells of pages at different places in a page are different. -/
theorem cell_mod (hp : WholePage p) (hp' : WholePage p') (h : cell p i = some c)
    (h' : cell p' j = some c) : i % 4096 = j % 4096 := by
  obtain ⟨s, hs, rfl⟩ := start_of_cell h
  obtain ⟨s', hs', heq⟩ := start_of_cell h'
  have hindex : s.index + i = s'.index + j := congrArg Cell.index heq
  have hmod := start_mod hp hs
  have hmod' := start_mod hp' hs'
  omega

/-! ### The bytes of an access -/

theorem loadBytes_eq (h : start p = some s) :
    loadBytes mem p off n = BitVec.ofNat 128 (Lib.Memory.load n (s.bank.bytes mem) (s.index + off)) := by
  cases p <;> cases h <;> rfl

theorem bytes_storeBytes (h : start p = some s) (bank : Bank) :
    bank.bytes (storeBytes mem p off n v) = if bank = s.bank then
      Lib.Memory.store n (s.bank.bytes mem) (s.index + off) v.toNat else bank.bytes mem := by
  cases p <;> cases h <;> cases bank <;> rfl

theorem lane_loadBytes (hi : i < n) (hn : n ≤ 16) (h : cell p (off + i) = some c) :
    lane 8 (loadBytes mem p off n) i = c.get mem := by
  obtain ⟨s, hs, rfl⟩ := start_of_cell h
  have hload : Lib.Memory.load n (s.bank.bytes mem) (s.index + off) < 2 ^ 128 :=
    Nat.lt_of_lt_of_le Lib.Memory.load_lt (Nat.pow_le_pow_right (n := 256) (by decide) hn)
  have hbyte := Lib.Memory.load_byte (m := s.bank.bytes mem) (a := s.index + off) hi
  rw [loadBytes_eq hs, lane_eq_ofNat, BitVec.toNat_ofNat, Nat.mod_eq_of_lt hload, Nat.mul_comm,
    Nat.pow_mul]
  exact hbyte.trans (by rw [Nat.add_assoc]; rfl)

theorem get_storeBytes (hi : i < n) (h : cell p (off + i) = some c) :
    c.get (storeBytes mem p off n v) = lane 8 v i := by
  obtain ⟨s, hs, rfl⟩ := start_of_cell h
  rw [Cell.get, bytes_storeBytes hs, if_pos rfl, ← Nat.add_assoc, Lib.Memory.store_byte hi,
    lane_eq_ofNat, Nat.mul_comm, Nat.pow_mul]

theorem get_storeBytes_other (hp : (start p).isSome) (h : ∀ i < n, cell p (off + i) ≠ some c) :
    c.get (storeBytes mem p off n v) = c.get mem := by
  obtain ⟨s, hs⟩ := Option.isSome_iff_exists.mp hp
  rw [Cell.get, bytes_storeBytes hs]
  split_ifs with hbank
  · rw [Lib.Memory.store_apply, Cell.get, hbank]
    by_contra hin
    refine h (c.index - (s.index + off)) (by omega) ?_
    rw [cell_of_start hs, ← hbank]
    congr
    omega
  · rfl

/-! ### Addresses -/

def pointerAt (m : Machine D) (a : Word) : Pointer := m.tlbMap.pick (m.tlb.vtlb (a.toNat / 4096))

/-- The cell that a virtual address leads to. -/
def locate (m : Machine D) (a : Word) : Option Cell := cell (pointerAt m a) (a.toNat % 4096)

def byte (m : Machine D) (a : Word) : BitVec 8 :=
  (locate m a).elim 0 (Cell.get m.core.world.memory)

theorem byte_eq {a : Word} (h : locate m a = some c) : byte m a = c.get m.core.world.memory := by
  rw [byte, h]
  rfl

/-- The `n` bytes at `a` are memory. -/
def InMemory (m : Machine D) (a : Word) (n : ℕ) : Prop :=
  ∀ i < n, (locate m (a + BitVec.ofNat 32 i)).isSome

/-- The bytes at `a`, the lowest first. -/
def bytes (n : ℕ) (m : Machine D) (a : Word) : BitVec (8 * n) :=
  ofLanes (8 * n) n fun i => byte m (a + BitVec.ofNat 32 i)

theorem lane_bytes {a : Word} (hi : i < n) :
    lane 8 (bytes n m a) i = byte m (a + BitVec.ofNat 32 i) :=
  lane_ofLanes (Nat.mul_comm n 8) hi

/-- The bytes of a piece of a page are at different cells. -/
theorem locate_inj {a : Word} (h : Aligned m.tlb.vtlb) (hn : n ≤ 4096) (hi : i < n) (hj : j < n)
    (hci : locate m (a + BitVec.ofNat 32 i) = some c)
    (hcj : locate m (a + BitVec.ofNat 32 j) = some c) : i = j := by
  have hwhole : ∀ b, WholePage (pointerAt m b) := by
    intro b
    unfold pointerAt
    cases m.tlbMap with
    | kernel => exact (h _).kernel
    | sup => exact (h _).sup
    | user => exact (h _).user
  have hmod := cell_mod (hwhole _) (hwhole _) hci hcj
  simp only [BitVec.toNat_add, BitVec.toNat_ofNat] at hmod
  omega

/-! ### Reading and writing words -/

theorem run_exec_bind {code : Program D α} {f : α → Program D β} {x : α}
    (h : (exec code).run m = some (x, m')) : (exec (code >>= f)).run m = (exec (f x)).run m' := by
  rw [exec_bind, StateT.run_bind, h]
  rfl

/-- A word of `n` bytes that does not leave its page. -/
structure Inside (n : ℕ) (b : Word) : Prop where
  size : n ≤ 16
  aligned : aligned n b
  room : b.toNat % 4096 + n ≤ 4096
  last : b.toNat + n ≤ 2 ^ 32

variable {b : Word}

theorem locate_word (h : Inside n b) (hi : i < n) :
    locate m (b + BitVec.ofNat 32 i) = cell (pointerAt m b) (b.toNat % 4096 + i) := by
  obtain ⟨hsize, -, hroom, hlast⟩ := h
  have hsum : (b + BitVec.ofNat 32 i).toNat = b.toNat + i := by
    rw [BitVec.toNat_add, BitVec.toNat_ofNat]
    omega
  rw [locate, pointerAt, pointerAt, hsum]
  congr 1
  · congr 2
    omega
  · omega

theorem run_read (h : Inside n b) (hp : (start (pointerAt m b)).isSome) :
    (exec (read P n b)).run m =
      some (loadBytes m.core.world.memory (pointerAt m b) (b.toNat % 4096) n, m) := by
  have hpointer : (exec (pointer b : Program D Pointer)).run m = some (pointerAt m b, m) := rfl
  rw [Interface.read, if_neg (by simp [h.aligned]), run_exec_bind hpointer]
  cases hm : pointerAt m b with
  | null => rw [hm] at hp; cases hp
  | mmio => rw [hm] at hp; cases hp
  | RDRAM o => rfl
  | BIOS o => rfl
  | spr o => rfl

/-- The machine after a write of `v` to the word at `b`. -/
def written (m : Machine D) (n : ℕ) (b : Word) (v : Quad) : Machine D :=
  let page := b.toNat / 4096
  { m with
    tlb.vtlb := Function.update m.tlb.vtlb page (modified (m.tlb.vtlb page))
    core.world.memory :=
      storeBytes m.core.world.memory (pointerAt m b) (b.toNat % 4096) n v }

theorem run_write (h : Inside n b) (hp : (start (pointerAt m b)).isSome) :
    (exec (write P n b v)).run m = some ((), written m n b v) := by
  have hpointer : (exec (pointer b : Program D Pointer)).run m = some (pointerAt m b, m) := rfl
  rw [Interface.write, if_neg (by simp [h.aligned]), run_exec_bind hpointer, written]
  cases hm : pointerAt m b with
  | null => rw [hm] at hp; cases hp
  | mmio => rw [hm] at hp; cases hp
  | RDRAM o => rfl
  | BIOS o => rfl
  | spr o => rfl

/-- The mark of a modified page leads nowhere. -/
theorem pointerAt_written (a : Word) : pointerAt (written m n b v) a = pointerAt m a := by
  unfold pointerAt written
  by_cases hpage : a.toNat / 4096 = b.toNat / 4096
  · simp only [hpage, Function.update_self]
    cases m.tlbMap <;> rfl
  · simp only [Function.update_of_ne hpage]

theorem locate_written (a : Word) : locate (written m n b v) a = locate m a := by
  rw [locate, locate, pointerAt_written]

/-! ### The tables hold pages in every run -/

def KeepsAligned (m m' : Machine D) : Prop := Aligned m.tlb.vtlb → Aligned m'.tlb.vtlb

theorem aligned_update {t : ℕ → Page} {page : ℕ} {x : Page} (h : Aligned t) (hx : Whole x) :
    Aligned (Function.update t page x) := by
  intro q
  by_cases hq : q = page
  · rw [hq, Function.update_self]
    exact hx
  · rw [Function.update_of_ne hq]
    exact h q

theorem whole_modified {x : Page} (h : Whole x) : Whole (modified x) := ⟨h.kernel, h.sup, h.user⟩

theorem aligned_written (h : Aligned m.tlb.vtlb) : Aligned (written m n b v).tlb.vtlb :=
  aligned_update h (whole_modified (h _))

theorem perform_keepsAligned (op : Op D) : Within KeepsAligned (perform op) := by
  intro m
  cases op with
  | setTlbModified a =>
    simp only [perform, ensures_modify]
    exact fun h => aligned_update h (whole_modified (h _))
  | setTlb =>
    simp only [perform, ensures_bind, ensures_get]
    split
    · next tlb htlb => exact ensures_set.mpr fun h => h.tlbwi htlb
    · exact ensures_failure.mpr trivial
  | tlbEntry =>
    simp only [perform, ensures_bind, ensures_get, ensures_ite, ensures_pure, ensures_failure]
    exact ⟨fun _ => id, fun _ => trivial⟩
  | stop => exact ensures_failure.mpr trivial
  | _ =>
    simp only [perform, ensures_bind, ensures_get, ensures_modify, ensures_pure]
    exact id

/-- Whatever the core executes. -/
theorem exec_keepsAligned (code : Program D α) : Within KeepsAligned (exec code) :=
  Lib.Interaction.within_run (R := KeepsAligned) (fun _ => id) (fun _ _ _ h h' => h' ∘ h)
    perform_keepsAligned code

end DobieStation.Ee.Bytes
