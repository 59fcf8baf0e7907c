import DobieStation.EeJit.Host
import Mathlib.Data.Finset.Card
import Mathlib.Data.Finset.Range
import Mathlib.Data.Int.Notation

/-! # The register cache of the EE JIT

While a block is recompiled, the registers of the EE that it works with are in registers of the host, and
`int_regs` says which. The cache is written back when its registers are needed for others and at the end of
the block. Integer code uses no XMM register, so these are left out. -/

namespace DobieStation.EeJit.RegisterCache

open DobieStation.Lib.Staged DobieStation.EeJit.Host

/-! ### The state of the EE -/

/-- The address of the object `ee`, and the offsets of its fields, which are in this order. -/
structure Layout where
  ee : ℕ
  gpr : ℕ
  LO : ℕ
  HI : ℕ
  SA : ℕ
  gpr_LO : gpr + 512 ≤ LO
  LO_HI : LO + 16 ≤ HI
  HI_SA : HI + 16 ≤ SA
  gpr_small : gpr + 512 ≤ 2 ^ 31
  bounded : ee + SA + 8 ≤ 2 ^ 64

namespace EE_SpecialReg

def LO : ℤ := 32
def LO1 : ℤ := 33
def HI : ℤ := 34
def HI1 : ℤ := 35
def SA : ℤ := 36

end EE_SpecialReg

/-- Any other register dies. -/
def Layout.get_gpr_addr (L : Layout) (index : ℤ) : Option ℕ :=
  if index < 32 then some (L.ee + L.gpr + index.toNat * 16)
  else
    match index.toNat with
    | 32 => some (L.ee + L.LO)
    | 33 => some (L.ee + L.LO + 8)
    | 34 => some (L.ee + L.HI)
    | 35 => some (L.ee + L.HI + 8)
    | 36 => some (L.ee + L.SA)
    | _ => none

/-! ### The cache -/

inductive REG_TYPE where
  | GPR | INTSCRATCHPAD
  deriving DecidableEq, Repr

inductive REG_STATE where
  | SCRATCHPAD | READ | WRITE | READ_WRITE
  deriving DecidableEq, Repr

/-- `locked` prevents the register from being allocated. -/
structure AllocReg where
  used : Bool
  locked : Bool
  modified : Bool
  age : ℕ
  reg : ℤ
  type : REG_TYPE
  deriving DecidableEq, Repr

/-- `int_regs`. -/
abbrev Cache := REG_64 → AllocReg

abbrev Jit (α : Type) := Emit Cache Instr α

/-- "RSP: reserved for stack, R13: fast lookup cache, R14: JIT64 object, R15: EE object, RAX: generic
scratchpad register". -/
def reserved : List REG_64 := [.RSP, .R13, .R14, .R15, .RAX]

/-- `reset`. -/
def Cache.reset : Cache := fun i => ⟨false, i ∈ reserved, false, 0, -1, .GPR⟩

/-- The entry holds the register. -/
def AllocReg.holds (e : AllocReg) (reg : ℤ) (type : REG_TYPE) : Bool :=
  e.used && e.reg = reg && e.type = type

/-- The loop over all registers: the first that is free, and else the oldest. -/
def oldest (C : Cache) : List REG_64 → Option REG_64 → ℕ → Option REG_64
  | [], reg, _ => reg
  | i :: is, reg, age =>
    if (C i).locked then oldest C is reg age
    else if !(C i).used then some i
    else if (C i).age > age then oldest C is (some i) (C i).age
    else oldest C is reg age

def free (C : Cache) (i : REG_64) : Bool := !(C i).locked && !(C i).used

/-- One of the favored registers if it is free. -/
def search_for_register (favored : List REG_64) (C : Cache) : Option REG_64 :=
  (favored.find? (free C)).or (oldest C REG_64.all none 0)

/-- "Will prioritize volatile (caller-saved) registers". -/
def search_for_register_scratchpad : Cache → Option REG_64 :=
  search_for_register [.RAX, .RCX, .RDX, .RDI, .RSI, .R8, .R9, .R10, .R11]

/-- "Will prioritize non-volatile (callee-saved) registers". -/
def search_for_register_priority : Cache → Option REG_64 :=
  search_for_register [.RBX, .RBP, .R12, .R13, .R14, .R15]

/-- A result, or `Errors::die`. Also the index -1 ends here, which no array has. -/
def orDie {α : Type} : Option α → Jit α
  | some a => pure a
  | none => Emit.stop

/-- An entry is changed. -/
def setEntry (i : REG_64) (f : AllocReg → AllocReg) : Jit Unit :=
  Emit.modify fun C => Function.update C i (f (C i))

section
variable (L : Layout)

/-- "$zero, which should never be flushed". -/
def store_reg (i : REG_64) (reg : ℤ) : Jit Unit :=
  if reg = 0 then pure ()
  else if reg < 32 then
    Emit.emit (.MOV64_TO_MEM i .R15 (BitVec.ofNat 32 (L.gpr + reg.toNat * 16)))
  else do
    let addr ← orDie (L.get_gpr_addr reg)
    Emit.emit (.load_addr (BitVec.ofNat 64 addr) .RAX)
    Emit.emit (.MOV64_TO_MEM i .RAX 0)

def flush_int_reg (i : REG_64) : Jit Unit := do
  let C ← Emit.get
  if (C i).used && (C i).modified && (C i).type = .GPR then store_reg L i (C i).reg else pure ()

/-- Where a register is read from that is not yet where it is wanted. -/
def load_reg (reg : ℤ) (type : REG_TYPE) (destination : REG_64) : Jit Unit := do
  let C ← Emit.get
  match REG_64.all.find? fun i => (C i).holds reg type with
  | some i => Emit.emit (.MOV64_MR i destination)
  | none => do
    let addr ← orDie (L.get_gpr_addr reg)
    Emit.emit (.load_addr (BitVec.ofNat 64 addr) destination)
    Emit.emit (.MOV64_FROM_MEM destination destination 0)

/-- The register that is taken if none is named. -/
def search (C : Cache) (reg : ℤ) : REG_TYPE → Option REG_64
  | .INTSCRATCHPAD => search_for_register_scratchpad C
  | .GPR => (REG_64.all.find? fun i => !(C i).locked && (C i).holds reg .GPR).or
      (search_for_register_priority C)

/-- "Increment age of every used register". -/
def Cache.grow (C : Cache) : Cache :=
  fun i => if (C i).used then { C i with age := (C i).age + 1 } else C i

/-- What is not read only is written, but for $zero. -/
def dirties (reg : ℤ) (state : REG_STATE) : Bool := state ≠ .READ && reg ≠ 0

def allocScratchpad (destination : REG_64) : Jit Unit := do
  flush_int_reg L destination
  setEntry destination fun e =>
    { e with modified := false, used := true, age := 0, reg := -1, type := .INTSCRATCHPAD }

/-- The old value is not needed if it is only written. -/
def load_unless_write (reg : ℤ) (state : REG_STATE) (destination : REG_64) : Jit Unit :=
  if state = .WRITE then pure () else load_reg L reg .GPR destination

def allocGpr (reg : ℤ) (state : REG_STATE) (destination : REG_64) : Jit Unit := do
  Emit.modify Cache.grow
  let C ← Emit.get
  if (C destination).holds reg .GPR then
    setEntry destination fun e => { e with modified := e.modified || dirties reg state, age := 0 }
  else do
    flush_int_reg L destination
    setEntry destination fun e => { e with used := false }
    load_unless_write L reg state destination
    setEntry destination fun e =>
      { e with modified := dirties reg state, reg := reg, type := .GPR, used := true, age := 0 }

def allocAt (reg : ℤ) (state : REG_STATE) (destination : REG_64) : REG_TYPE → Jit Unit
  | .INTSCRATCHPAD => allocScratchpad L destination
  | .GPR => allocGpr L reg state destination

def alloc_reg (reg : ℤ) (type : REG_TYPE) (state : REG_STATE) (destination : Option REG_64) :
    Jit REG_64 := do
  let C ← Emit.get
  let destination ← orDie (destination.or (search C reg type))
  if (C destination).locked then Emit.stop
  else do
    allocAt L reg state destination type
    pure destination

def lalloc_int_reg (reg : ℤ) (type : REG_TYPE) (state : REG_STATE) (destination : Option REG_64) :
    Jit REG_64 := do
  let result ← alloc_reg L reg type state destination
  setEntry result fun e => { e with locked := true }
  pure result

def free_int_reg (i : REG_64) : Jit Unit := do
  setEntry i fun e => { e with locked := false }
  flush_int_reg L i
  setEntry i fun e => { e with used := false }

def flush_regs : Jit Unit := REG_64.all.forM (flush_int_reg L)

/-- What `cleanup_recompiler` does with the cache at the end of a block. -/
def cleanup_regs : Jit Unit := do
  flush_regs L
  Emit.modify fun C i => { C i with age := 0, used := false }

end

/-! ## Which register is taken

The entries of the cache that can be found again are of different registers and of different ages (`Wf`). If no
register is free, then the oldest one is taken, and this is none of those that the instruction at hand has
asked for (`search_spec`). -/

/-! ### The fields of the EE -/

/-- The registers that integer code works with. -/
def InFile (r : ℤ) : Prop := 0 ≤ r ∧ r < 37

instance (r : ℤ) : Decidable (InFile r) := inferInstanceAs (Decidable (_ ∧ _))

/-- The values of the registers of the EE. -/
abbrev File := ℤ → BitVec 64

/-- Where a register is in the memory of the host. -/
def Layout.place (L : Layout) (r : ℤ) : ℕ := (L.get_gpr_addr r).getD 0

section
variable (L : Layout) {r r' : ℤ}

theorem place_eq (h : InFile r) : L.place r =
    if r < 32 then L.ee + L.gpr + r.toNat * 16
    else if r = 32 then L.ee + L.LO
    else if r = 33 then L.ee + L.LO + 8
    else if r = 34 then L.ee + L.HI
    else if r = 35 then L.ee + L.HI + 8
    else L.ee + L.SA := by
  obtain ⟨hr0, hr⟩ := h
  obtain ⟨n, rfl⟩ := Int.eq_ofNat_of_zero_le hr0
  unfold Layout.place Layout.get_gpr_addr
  by_cases h32 : (n : ℤ) < 32
  · rw [if_pos h32, if_pos h32]
    rfl
  · have hn : n = 32 ∨ n = 33 ∨ n = 34 ∨ n = 35 ∨ n = 36 := by omega
    rcases hn with rfl | rfl | rfl | rfl | rfl <;> rfl

theorem get_gpr_addr_eq (h : InFile r) : L.get_gpr_addr r = some (L.place r) := by
  have hsome : (L.get_gpr_addr r).isSome := by
    obtain ⟨hr0, hr⟩ := h
    obtain ⟨n, rfl⟩ := Int.eq_ofNat_of_zero_le hr0
    unfold Layout.get_gpr_addr
    by_cases h32 : (n : ℤ) < 32
    · rw [if_pos h32]
      rfl
    · have hn : n = 32 ∨ n = 33 ∨ n = 34 ∨ n = 35 ∨ n = 36 := by omega
      rcases hn with rfl | rfl | rfl | rfl | rfl <;> rfl
  obtain ⟨a, ha⟩ := Option.isSome_iff_exists.mp hsome
  unfold Layout.place
  rw [ha, Option.getD_some]

/-- The registers are apart in memory. -/
theorem place_apart (h : InFile r) (h' : InFile r') (hne : r ≠ r') :
    L.place r + 8 ≤ L.place r' ∨ L.place r' + 8 ≤ L.place r := by
  have h1 := L.gpr_LO
  have h2 := L.LO_HI
  have h3 := L.HI_SA
  rw [place_eq L h, place_eq L h']
  obtain ⟨hr0, hr⟩ := h
  obtain ⟨hr0', hr'⟩ := h'
  split_ifs <;> omega

theorem place_lt (h : InFile r) : L.place r + 8 ≤ 2 ^ 64 := by
  have h1 := L.gpr_LO
  have h2 := L.LO_HI
  have h3 := L.HI_SA
  have h4 := L.bounded
  rw [place_eq L h]
  obtain ⟨hr0, hr⟩ := h
  split_ifs <;> omega

end

/-! ### The entries -/

/-- The entry is of a register of the EE and can be found. -/
structure Holds (C : Cache) (i : REG_64) : Prop where
  used : (C i).used = true
  unlocked : (C i).locked = false
  type : (C i).type = .GPR

/-- The registers that no integer instruction locks. -/
def always : List REG_64 := [.RBX, .RBP, .RSI, .RDI, .R8, .R9, .R10, .R11, .R12]

/-- What is true of the cache between two instructions, and within them. -/
structure Wf (C : Cache) : Prop where
  reserved : ∀ i ∈ reserved, (C i).locked = true ∧ (C i).used = false
  always : ∀ i ∈ always, (C i).locked = false
  plain : ∀ i, (C i).used = true → (C i).locked = false → (C i).type = .GPR
  range : ∀ i, Holds C i → InFile (C i).reg
  unique : ∀ i j, Holds C i → Holds C j → (C i).reg = (C j).reg → i = j
  ages : ∀ i j, Holds C i → Holds C j → (C i).age = (C j).age → i = j
  clean : ∀ i, (C i).used = true → (C i).modified = true → Holds C i ∧ (C i).reg ≠ 0
  locked : ∀ i, (C i).used = true → (C i).locked = true → (C i).type = .GPR → (C i).reg = 0

section
variable {C : Cache} {i d : REG_64} {r : ℤ}

theorem holds_iff : (C i).holds r .GPR = true ↔
    (C i).used = true ∧ (C i).reg = r ∧ (C i).type = .GPR := by
  unfold AllocReg.holds
  rw [Bool.and_eq_true, Bool.and_eq_true, decide_eq_true_eq, decide_eq_true_eq, and_assoc]

/-! ### The search -/

/-- **The loop over all registers.** -/
theorem oldest_cases (is : List REG_64) (reg : Option REG_64) (age : ℕ) :
    (∃ d ∈ is, free C d = true ∧ oldest C is reg age = some d) ∨
      (∀ i ∈ is, (C i).locked = false → (C i).used = true) ∧
        ((∀ i ∈ is, (C i).locked = false → (C i).age ≤ age) ∧ oldest C is reg age = reg ∨
          ∃ d ∈ is, (C d).locked = false ∧ oldest C is reg age = some d ∧
            age ≤ (C d).age ∧ ∀ i ∈ is, (C i).locked = false → (C i).age ≤ (C d).age) := by
  induction is generalizing reg age with
  | nil => exact Or.inr ⟨by simp, Or.inl ⟨by simp, rfl⟩⟩
  | cons i is ih =>
    rw [oldest]
    simp only [List.mem_cons, exists_eq_or_imp, forall_eq_or_imp]
    by_cases hl : (C i).locked = true
    · have hf : (C i).locked ≠ false := by rw [hl]; exact Bool.noConfusion
      rw [if_pos hl]
      rcases ih reg age with ⟨d, hd, hfree, hr⟩ | ⟨hused, ⟨hage, hr⟩ | ⟨d, hd, hdl, hr, hlt, hmax⟩⟩
      · exact Or.inl (Or.inr ⟨d, hd, hfree, hr⟩)
      · exact Or.inr ⟨⟨fun h => absurd h hf, hused⟩, Or.inl ⟨⟨fun h => absurd h hf, hage⟩, hr⟩⟩
      · exact Or.inr ⟨⟨fun h => absurd h hf, hused⟩,
          Or.inr (Or.inr ⟨d, hd, hdl, hr, hlt, fun h => absurd h hf, hmax⟩)⟩
    · rw [if_neg hl]
      rw [Bool.not_eq_true] at hl
      by_cases hu : (C i).used = true
      · rw [hu, Bool.not_true, if_neg Bool.false_ne_true]
        by_cases ha : (C i).age > age
        · rw [if_pos ha]
          rcases ih (some i) (C i).age with ⟨d, hd, hfree, hr⟩ |
            ⟨hused, ⟨hage, hr⟩ | ⟨d, hd, hdl, hr, hlt, hmax⟩⟩
          · exact Or.inl (Or.inr ⟨d, hd, hfree, hr⟩)
          · exact Or.inr ⟨⟨fun _ => rfl, hused⟩,
              Or.inr (Or.inl ⟨hl, hr, Nat.le_of_lt ha, fun _ => Nat.le_refl _, hage⟩)⟩
          · exact Or.inr ⟨⟨fun _ => rfl, hused⟩,
              Or.inr (Or.inr ⟨d, hd, hdl, hr, (Nat.le_of_lt ha).trans hlt, fun _ => hlt, hmax⟩)⟩
        · rw [if_neg ha]
          rcases ih reg age with ⟨d, hd, hfree, hr⟩ |
            ⟨hused, ⟨hage, hr⟩ | ⟨d, hd, hdl, hr, hlt, hmax⟩⟩
          · exact Or.inl (Or.inr ⟨d, hd, hfree, hr⟩)
          · exact Or.inr ⟨⟨fun _ => rfl, hused⟩, Or.inl ⟨⟨fun _ => Nat.le_of_not_lt ha, hage⟩, hr⟩⟩
          · exact Or.inr ⟨⟨fun _ => rfl, hused⟩, Or.inr (Or.inr ⟨d, hd, hdl, hr, hlt,
              fun _ => (Nat.le_of_not_lt ha).trans hlt, hmax⟩)⟩
      · rw [Bool.not_eq_true] at hu
        rw [hu, Bool.not_false, if_pos rfl]
        refine Or.inl (Or.inl ⟨?_, rfl⟩)
        unfold free
        rw [hl, hu]
        rfl

/-- Different ages are not all small. -/
theorem old_of_nodup {l : List REG_64} (age : REG_64 → ℕ) {n : ℕ} (hl : l.Nodup)
    (hage : ∀ i ∈ l, ∀ j ∈ l, age i = age j → i = j) (hn : ∀ i ∈ l, age i ≤ n) : l.length ≤ n + 1 := by
  have hmap : (l.map age).Nodup := List.Nodup.map_on (fun i hi j hj => hage i hi j hj) hl
  have hsub : (l.map age).toFinset ⊆ Finset.range (n + 1) := by
    intro a ha
    obtain ⟨i, hi, rfl⟩ := List.mem_map.mp (List.mem_toFinset.mp ha)
    exact Finset.mem_range.mpr (Nat.lt_succ_of_le (hn i hi))
  have hcard := Finset.card_le_card hsub
  rw [List.toFinset_card_of_nodup hmap, List.length_map, Finset.card_range] at hcard
  exact hcard

/-- **A free register or an old one.** -/
theorem search_for_register_spec (hw : Wf C) (favored : List REG_64) :
    ∃ d, search_for_register favored C = some d ∧ (C d).locked = false ∧
      ((C d).used = true → 8 ≤ (C d).age) := by
  have hfree : ∀ d, free C d = true → (C d).locked = false ∧ ((C d).used = true → 8 ≤ (C d).age) := by
    intro d hd
    unfold free at hd
    rw [Bool.and_eq_true, Bool.not_eq_true', Bool.not_eq_true'] at hd
    exact ⟨hd.1, fun hu => absurd (hd.2.symm.trans hu) Bool.false_ne_true⟩
  unfold search_for_register
  cases hfav : favored.find? (free C) with
  | some d => exact ⟨d, rfl, hfree d (List.find?_some hfav)⟩
  | none =>
    rw [Option.none_or]
    rcases oldest_cases (C := C) REG_64.all none 0 with ⟨d, -, hd, hr⟩ |
      ⟨hused, hrest⟩
    · exact ⟨d, hr, hfree d hd⟩
    · have hholds : ∀ i ∈ always, Holds C i := fun i hi =>
        have hu := hused i (REG_64.mem_all i) (hw.always i hi)
        ⟨hu, hw.always i hi, hw.plain i hu (hw.always i hi)⟩
      have hold : ∀ n, (∀ i ∈ REG_64.all, (C i).locked = false → (C i).age ≤ n) → 8 ≤ n := by
        intro n hn
        have hlen := old_of_nodup (l := always) (n := n) (fun i => (C i).age) (by decide)
          (fun i hi j hj => hw.ages i j (hholds i hi) (hholds j hj))
          fun i hi => hn i (REG_64.mem_all i) (hw.always i hi)
        exact Nat.le_of_succ_le_succ hlen
      rcases hrest with ⟨hage, -⟩ | ⟨d, -, hdl, hr, -, hmax⟩
      · exact absurd (hold 0 hage) (by decide)
      · exact ⟨d, hr, hdl, fun _ => hold _ hmax⟩

/-- **The search for a register of the EE**: where it is, and else a free register or an old one. -/
theorem search_spec (hw : Wf C) (r : ℤ) :
    ∃ d, search C r .GPR = some d ∧ (C d).locked = false ∧
      (Holds C d ∧ (C d).reg = r ∨
        (∀ i, Holds C i → (C i).reg ≠ r) ∧ ((C d).used = true → 8 ≤ (C d).age)) := by
  unfold search
  cases hfind : REG_64.all.find? fun i => !(C i).locked && (C i).holds r .GPR with
  | some d =>
    have hd := List.find?_some hfind
    rw [Bool.and_eq_true, Bool.not_eq_true', holds_iff] at hd
    exact ⟨d, rfl, hd.1, Or.inl ⟨⟨hd.2.1, hd.1, hd.2.2.2⟩, hd.2.2.1⟩⟩
  | none =>
    obtain ⟨d, hr, hdl, hage⟩ := search_for_register_spec hw [.RBX, .RBP, .R12, .R13, .R14, .R15]
    refine ⟨d, hr, hdl, Or.inr ⟨fun i hi hreg => ?_, hage⟩⟩
    refine List.find?_eq_none.mp hfind i (REG_64.mem_all i) ?_
    rw [Bool.and_eq_true, Bool.not_eq_true', holds_iff]
    exact ⟨hi.unlocked, hi.used, hreg, hi.type⟩

end

end DobieStation.EeJit.RegisterCache
