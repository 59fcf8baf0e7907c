import DobieStation.Ee.Bytes
import DobieStation.Ee.Interrupts

/-! # Unaligned access

Each of `LDL`, `LDR`, `SDL` and `SDR` accesses the part of an unaligned doubleword that lies in one
aligned doubleword, and so do `LWL`, `LWR`, `SWL` and `SWR` for words. The left one takes the highest
bytes and is given the address of the last byte, the right one takes the lowest and is given the
address of the first. Together they access it all, whichever comes first. -/

namespace DobieStation.Ee.Unaligned

open DobieStation.Lib.Lanes DobieStation.Ee.Interface DobieStation.Ee.Instructions
open DobieStation.Ee.Control DobieStation.Ee.Bytes DobieStation.Ee.Interrupts
open DobieStation.Tlb.Alignment

variable {D : Type} {P : Rest D} {m m' : Machine D} {w w' a e : Word} {n s : ℕ}

/-! ### What is promised -/

def effective (m : Machine D) (w : Word) : Word := (m.core.regs.gpr (rs w)).setWidth 32 + imm w

/-- The lowest bytes of a register. -/
def source (n : ℕ) (m : Machine D) (r : BitVec 5) : BitVec (8 * n) := (m.core.regs.gpr r).setWidth _

/-- The bytes at `a` are those of `v`, and nothing else is changed. -/
structure Stored (m m' : Machine D) (a : Word) (v : BitVec (8 * n)) : Prop where
  bytes : ∀ i < n, byte m' (a + BitVec.ofNat 32 i) = lane 8 v i
  others : ∀ c : Cell, (∀ i < n, locate m (a + BitVec.ofNat 32 i) ≠ some c) →
    c.get m'.core.world.memory = c.get m.core.world.memory
  pages : ∀ b, locate m' b = locate m b
  core : m'.core = { m.core with world.memory := m'.core.world.memory }

/-- The lower half of the register `r` is `v`, and nothing else is changed. The register 0 stays as
it is. -/
structure Loaded (m m' : Machine D) (r : BitVec 5) (v : BitVec 64) : Prop where
  lower : r ≠ 0 → (m'.core.regs.gpr r).setWidth 64 = v
  upper : (m'.core.regs.gpr r).extractLsb' 64 64 = (m.core.regs.gpr r).extractLsb' 64 64
  zero : r = 0 → m' = m
  others : m' = { m with
    core.regs.gpr := Function.update m.core.regs.gpr r (m'.core.regs.gpr r) }

/-- `first`, given the address `a + d`, and then `second`, given `a + d'`, store the `n` bytes of a
register at `a`. -/
def Stores (n : ℕ) (first : Word → Program D Unit) (d : Word) (second : Word → Program D Unit)
    (d' : Word) : Prop :=
  ∀ (m : Machine D) (w w' a : Word), Aligned m.tlb.vtlb → InMemory m a n → rt w = rt w' →
    effective m w = a + d → effective m w' = a + d' →
    ∃ m', (exec (do first w; second w')).run m = some ((), m') ∧
      Stored m m' a (source n m (rt w))

/-- `first`, given the address `a + d`, and then `second`, given `a + d'`, load the `n` bytes at `a`. -/
def Loads (n : ℕ) (extend : BitVec (8 * n) → BitVec 64) (first : Word → Program D Unit) (d : Word)
    (second : Word → Program D Unit) (d' : Word) : Prop :=
  ∀ (m : Machine D) (w w' a : Word), InMemory m a n → rt w = rt w' → effective m w = a + d →
    ∃ m₁, (exec (first w)).run m = some ((), m₁) ∧
      (effective m₁ w' = a + d' → ∃ m', (exec (second w')).run m₁ = some ((), m') ∧
        Loaded m m' (rt w) (extend (bytes n m a)))

/-! ### Words of a power of two -/

/-- The sizes of a word and a doubleword. -/
def Size (n : ℕ) : Prop := n = 4 ∨ n = 8

theorem toNat_clear {k : ℕ} (hk : k ≤ 32) :
    (e &&& (BitVec.allOnes 32 <<< k)).toNat = e.toNat / 2 ^ k * 2 ^ k := by
  have hshift : e &&& (BitVec.allOnes 32 <<< k) = (e >>> k) <<< k := by
    apply BitVec.eq_of_getLsbD_eq
    intro i hi
    simp only [BitVec.getLsbD_and, BitVec.getLsbD_shiftLeft, BitVec.getLsbD_ushiftRight,
      BitVec.getLsbD_allOnes]
    by_cases hik : i < k
    · simp [hik]
    · have hsub : i - k < 32 := by omega
      have hadd : k + (i - k) = i := by omega
      simp [hik, hi, hsub, hadd]
  have hle : e.toNat / 2 ^ k * 2 ^ k ≤ e.toNat := Nat.div_mul_le_self _ _
  rw [hshift, BitVec.toNat_shiftLeft, BitVec.toNat_ushiftRight, Nat.shiftRight_eq_div_pow,
    Nat.shiftLeft_eq, Nat.mod_eq_of_lt]
  omega

theorem base_toNat (hn : Size n) : (base n e).toNat = e.toNat / n * n := by
  rcases hn with rfl | rfl
  · exact toNat_clear (k := 2) (by decide)
  · exact toNat_clear (k := 3) (by decide)

theorem inside_base (hn : Size n) : Inside n (base n e) := by
  have hbase := base_toNat (e := e) hn
  have hlt := e.isLt
  rcases hn with rfl | rfl
  · refine ⟨by decide, ?_, by omega, by omega⟩
    simp [Interface.aligned, hbase]
  · refine ⟨by decide, ?_, by omega, by omega⟩
    simp [Interface.aligned, hbase]

/-- An address is in the word at its base. -/
theorem base_add_part (hn : Size n) : base n e + BitVec.ofNat 32 (part n e) = e := by
  have hbase := base_toNat (e := e) hn
  apply BitVec.eq_of_toNat_eq
  rw [BitVec.toNat_add, BitVec.toNat_ofNat, hbase, part]
  have hlt := e.isLt
  rcases hn with rfl | rfl <;> omega

/-- The bytes of the word at the base of `e`, counted from `a`. -/
theorem part_address {d i j : ℕ} (hn : Size n) (he : e = a + BitVec.ofNat 32 d)
    (hij : i + part n e = d + j) : a + BitVec.ofNat 32 i = base n e + BitVec.ofNat 32 j := by
  have hbase := congrArg BitVec.toNat (base_add_part (e := e) hn)
  have hsum := congrArg BitVec.toNat he
  apply BitVec.eq_of_toNat_eq
  simp only [BitVec.toNat_add, BitVec.toNat_ofNat] at hbase hsum ⊢
  omega

/-- The parts of the last and of the first address. -/
theorem parts (hn : Size n) (he : e = a + BitVec.ofNat 32 (n - 1)) :
    (part n a = 0 ∧ part n e = n - 1) ∨ part n e + 1 = part n a := by
  have hsum := congrArg BitVec.toNat he
  simp only [BitVec.toNat_add, BitVec.toNat_ofNat] at hsum
  unfold part
  rcases hn with rfl | rfl <;> omega

theorem part_lt (hn : Size n) : part n e < n := by
  rcases hn with rfl | rfl <;> exact Nat.mod_lt _ (by decide)

theorem pointerAt_base (hn : Size n) : pointerAt m (base n e) = pointerAt m e := by
  have hpage : (base n e).toNat / 4096 = e.toNat / 4096 := by
    rw [base_toNat hn]
    rcases hn with rfl | rfl <;> omega
  rw [pointerAt, pointerAt, hpage]

theorem start_base {i : ℕ} (hn : Size n) (hmem : InMemory m a n) (hi : i < n)
    (he : e = a + BitVec.ofNat 32 i) : (start (pointerAt m (base n e))).isSome := by
  obtain ⟨c, hc⟩ := Option.isSome_iff_exists.mp (hmem i hi)
  obtain ⟨s, hs, -⟩ := start_of_cell hc
  rw [pointerAt_base hn, he, hs]
  rfl

/-! ### One instruction -/

theorem setWidth_loadBytes {b : Word} (h : Inside n b) (hp : (start (pointerAt m b)).isSome) :
    (loadBytes m.core.world.memory (pointerAt m b) (b.toNat % 4096) n).setWidth (8 * n) =
      bytes n m b := by
  refine eq_ofLanes (Nat.mul_comm n 8) fun i hi => ?_
  obtain ⟨s, hs⟩ := Option.isSome_iff_exists.mp hp
  have hcell := cell_of_start (i := b.toNat % 4096 + i) hs
  rw [lane_setWidth (by omega), lane_loadBytes hi h.size hcell,
    byte_eq ((locate_word h hi).trans hcell)]

theorem run_address : (exec (address w : Program D Word)).run m = some (effective m w, m) := rfl

theorem run_gpr {r : BitVec 5} :
    (exec (gpr (8 * n) r : Program D _)).run m = some (source n m r, m) := rfl

variable {merge : ℕ → BitVec (8 * n) → BitVec (8 * n) → BitVec (8 * n)}

theorem run_loadPart {put : ℕ → BitVec (8 * n) → Program D Unit} (hn : Size n)
    (he : effective m w = e) (hp : (start (pointerAt m (base n e))).isSome) :
    (exec (loadPart P n merge put w)).run m = (exec (put (part n e)
      (merge (part n e) (source n m (rt w)) (bytes n m (base n e))))).run m := by
  rw [loadPart, run_exec_bind run_address, he, run_exec_bind (run_read (inside_base hn) hp),
    setWidth_loadBytes (inside_base hn) hp, run_exec_bind run_gpr]

theorem run_storePart (hn : Size n) (he : effective m w = e)
    (hp : (start (pointerAt m (base n e))).isSome) :
    (exec (storePart P n merge w)).run m = some ((), written m n (base n e)
      ((merge (part n e) (source n m (rt w)) (bytes n m (base n e))).setWidth 128)) := by
  rw [storePart, run_exec_bind run_address, he, run_exec_bind (run_read (inside_base hn) hp),
    setWidth_loadBytes (inside_base hn) hp, run_exec_bind run_gpr]
  exact run_write (inside_base hn) hp

/-! ### The bytes of a part -/

/-- The left instruction loads the bytes from `n - 1 - s` on. -/
def LeftOf (m : Machine D) (a : Word) (s : ℕ) (reg v : BitVec (8 * n)) : Prop :=
  ∀ i < n, lane 8 v i = if i + s + 1 < n then lane 8 reg i else byte m (a + BitVec.ofNat 32 i)

/-- The right instruction loads the bytes below `n - s`. -/
def RightOf (m : Machine D) (a : Word) (s : ℕ) (reg v : BitVec (8 * n)) : Prop :=
  ∀ i < n, lane 8 v i = if i + s < n then byte m (a + BitVec.ofNat 32 i) else lane 8 reg i

variable {reg v v' : BitVec (8 * n)}

theorem leftOf_joinLow (hn : Size n) (he : e = a + BitVec.ofNat 32 (n - 1)) :
    LeftOf m a (part n e) reg (joinLow 8 (n - 1 - part n e) reg (bytes n m (base n e))) := by
  have hpart := part_lt (e := e) hn
  intro i hi
  rw [lane_joinLow (Nat.mul_comm n 8) (by omega) hi]
  have hcond : i < n - 1 - part n e ↔ i + part n e + 1 < n := by omega
  simp only [hcond]
  split_ifs with h
  · rfl
  · rw [lane_bytes (by omega), part_address hn he (j := i - (n - 1 - part n e)) (by omega)]

theorem rightOf_joinHigh (hn : Size n) (he : e = a + BitVec.ofNat 32 0) :
    RightOf m a (part n e) reg (joinHigh 8 (part n e) reg (bytes n m (base n e))) := by
  have hpart := part_lt (e := e) hn
  intro i hi
  rw [lane_joinHigh (Nat.mul_comm n 8) (by omega) hi]
  split_ifs with h
  · rw [lane_bytes h, part_address hn he (j := i + part n e) (by omega)]
  · rfl

/-- Left, then right. -/
theorem LeftOf.right {s s' : ℕ} (h : LeftOf m a s' reg v) (h' : RightOf m a s v v')
    (hs : (s = 0 ∧ s' = n - 1) ∨ s' + 1 = s) : v' = bytes n m a := by
  refine eq_ofLanes (Nat.mul_comm n 8) fun i hi => ?_
  rw [h' i hi]
  split_ifs with hcond
  · rfl
  · rw [h i hi, if_neg (by omega)]

/-- Right, then left. -/
theorem RightOf.left {s s' : ℕ} (h : RightOf m a s reg v) (h' : LeftOf m a s' v v')
    (hs : (s = 0 ∧ s' = n - 1) ∨ s' + 1 = s) : v' = bytes n m a := by
  refine eq_ofLanes (Nat.mul_comm n 8) fun i hi => ?_
  rw [h' i hi]
  split_ifs with hcond
  · rw [h i hi, if_pos (by omega)]
  · rfl

/-! ### Stores -/

/-- The covered bytes at `a` are those of `v`, and nothing else is changed. -/
structure StoredIn (covered : ℕ → Prop) (m m' : Machine D) (a : Word) (v : BitVec (8 * n)) :
    Prop where
  bytes : ∀ i < n, covered i → byte m' (a + BitVec.ofNat 32 i) = lane 8 v i
  others : ∀ c : Cell, (∀ i < n, covered i → locate m (a + BitVec.ofNat 32 i) ≠ some c) →
    c.get m'.core.world.memory = c.get m.core.world.memory
  pages : ∀ b, locate m' b = locate m b
  core : m'.core = { m.core with world.memory := m'.core.world.memory }

variable {covered covered' : ℕ → Prop} {x : BitVec (8 * n)}

/-- A word at the base of `e` with the covered bytes of `v`, and its old bytes elsewhere. -/
theorem storedIn_written (hn : Size n) (hp : (start (pointerAt m (base n e))).isSome)
    (hnew : ∀ i < n, covered i → ∃ j < n,
      a + BitVec.ofNat 32 i = base n e + BitVec.ofNat 32 j ∧ lane 8 x j = lane 8 v i)
    (hold : ∀ j < n, (∃ i < n, covered i ∧
      a + BitVec.ofNat 32 i = base n e + BitVec.ofNat 32 j) ∨
      lane 8 x j = lane 8 (bytes n m (base n e)) j) :
    StoredIn covered m (written m n (base n e) (x.setWidth 128)) a v := by
  have hinside := inside_base (e := e) hn
  have hsize := hinside.size
  obtain ⟨s, hs⟩ := Option.isSome_iff_exists.mp hp
  have hcell : ∀ j < n, locate m (base n e + BitVec.ofNat 32 j) =
      some ⟨s.bank, s.index + ((base n e).toNat % 4096 + j)⟩ :=
    fun j hj => (locate_word hinside hj).trans (cell_of_start hs)
  have hget : ∀ j < n, Cell.get (written m n (base n e) (x.setWidth 128)).core.world.memory
      ⟨s.bank, s.index + ((base n e).toNat % 4096 + j)⟩ = lane 8 x j := by
    intro j hj
    rw [← lane_setWidth (k := 128) (by omega)]
    exact get_storeBytes hj (cell_of_start hs)
  constructor
  case bytes =>
    intro i hi hcov
    obtain ⟨j, hj, haddr, hlane⟩ := hnew i hi hcov
    rw [haddr, byte_eq ((locate_written _).trans (hcell j hj)), hget j hj, hlane]
  case others =>
    intro c hc
    by_cases hin : ∃ j < n, locate m (base n e + BitVec.ofNat 32 j) = some c
    · obtain ⟨j, hj, hcj⟩ := hin
      obtain rfl := Option.some.inj ((hcell j hj).symm.trans hcj)
      rcases hold j hj with ⟨i, hi, hcov, haddr⟩ | hlane
      · exact absurd (haddr ▸ hcj) (hc i hi hcov)
      · rw [hget j hj, hlane, lane_bytes hj, byte_eq hcj]
    · refine get_storeBytes_other hp fun j hj hcj => hin ⟨j, hj, ?_⟩
      rw [locate_word hinside hj, hcj]
  case pages => exact locate_written
  case core => rfl

theorem storedIn_left (hn : Size n) (he : e = a + BitVec.ofNat 32 (n - 1))
    (hp : (start (pointerAt m (base n e))).isSome) :
    StoredIn (fun i => n < i + part n e + 2) m (written m n (base n e)
      ((joinHigh 8 (n - 1 - part n e) (bytes n m (base n e)) v).setWidth 128)) a v := by
  have hpart := part_lt (e := e) hn
  have hroom : n - 1 - part n e ≤ n := by omega
  refine storedIn_written hn hp ?_ ?_
  · intro i hi hcov
    refine ⟨i - (n - 1 - part n e), by omega, part_address hn he (by omega), ?_⟩
    rw [lane_joinHigh (Nat.mul_comm n 8) hroom (by omega), if_pos (by omega)]
    congr 1
    omega
  · intro j hj
    by_cases hcov : j + (n - 1 - part n e) < n
    · exact .inl ⟨j + (n - 1 - part n e), hcov, by omega, part_address hn he (by omega)⟩
    · exact .inr ((lane_joinHigh (Nat.mul_comm n 8) hroom hj).trans (if_neg hcov))

theorem storedIn_right (hn : Size n) (he : e = a + BitVec.ofNat 32 0)
    (hp : (start (pointerAt m (base n e))).isSome) :
    StoredIn (fun i => i + part n e < n) m (written m n (base n e)
      ((joinLow 8 (part n e) (bytes n m (base n e)) v).setWidth 128)) a v := by
  have hroom := Nat.le_of_lt (part_lt (e := e) hn)
  refine storedIn_written hn hp ?_ ?_
  · intro i hi hcov
    refine ⟨i + part n e, hcov, part_address hn he (by omega), ?_⟩
    rw [lane_joinLow (Nat.mul_comm n 8) hroom hcov, if_neg (by omega), Nat.add_sub_cancel]
  · intro j hj
    by_cases hcov : j < part n e
    · exact .inr ((lane_joinLow (Nat.mul_comm n 8) hroom hj).trans (if_pos hcov))
    · exact .inl ⟨j - part n e, by omega, by omega, part_address hn he (by omega)⟩

theorem byte_congr {b : Word} (hpages : locate m' b = locate m b)
    (h : ∀ c, locate m b = some c → c.get m'.core.world.memory = c.get m.core.world.memory) :
    byte m' b = byte m b := by
  cases hc : locate m b with
  | none => rw [byte, byte, hpages, hc]; rfl
  | some c => rw [byte_eq (hpages.trans hc), byte_eq hc, h c hc]

/-- Two stores that cover all the bytes. -/
theorem StoredIn.trans {m₁ : Machine D} (hn : n ≤ 4096) (halign : Aligned m.tlb.vtlb)
    (h : StoredIn covered m m₁ a v) (h' : StoredIn covered' m₁ m' a v)
    (hall : ∀ i < n, covered i ∨ covered' i) : Stored m m' a v := by
  constructor
  case bytes =>
    intro i hi
    by_cases hcov : covered' i
    · exact h'.bytes i hi hcov
    · refine (byte_congr (h'.pages _) fun c hc => ?_).trans
        (h.bytes i hi ((hall i hi).resolve_right hcov))
      refine h'.others c fun j hj hcovj hcj => hcov ?_
      rw [h.pages] at hc hcj
      exact locate_inj halign hn hi hj hc hcj ▸ hcovj
  case others =>
    intro c hc
    refine (h'.others c fun i hi _ => ?_).trans (h.others c fun i hi _ => hc i hi)
    rw [h.pages]
    exact hc i hi
  case pages => exact fun b => (h'.pages b).trans (h.pages b)
  case core => rw [h'.core, h.core]

/-- `SDL` and `SWL`. -/
def StoresLeft (n : ℕ) (ins : Word → Program D Unit) : Prop :=
  ∀ (m : Machine D) (w : Word), (start (pointerAt m (base n (effective m w)))).isSome →
    (exec (ins w)).run m = some ((), written m n (base n (effective m w))
      ((joinHigh 8 (n - 1 - part n (effective m w)) (bytes n m (base n (effective m w)))
        (source n m (rt w))).setWidth 128))

/-- `SDR` and `SWR`. -/
def StoresRight (n : ℕ) (ins : Word → Program D Unit) : Prop :=
  ∀ (m : Machine D) (w : Word), (start (pointerAt m (base n (effective m w)))).isSome →
    (exec (ins w)).run m = some ((), written m n (base n (effective m w))
      ((joinLow 8 (part n (effective m w)) (bytes n m (base n (effective m w)))
        (source n m (rt w))).setWidth 128))

/-- A store leaves the addresses and registers of the next one alone. -/
theorem StoredIn.same {m₁ : Machine D} (h : StoredIn covered m m₁ a v) (w' : Word) :
    effective m₁ w' = effective m w' ∧ source n m₁ (rt w') = source n m (rt w') := by
  rw [effective, effective, source, source, h.core]
  exact ⟨rfl, rfl⟩

theorem StoredIn.inMemory {m₁ : Machine D} (h : StoredIn covered m m₁ a v)
    (hmem : InMemory m a n) : InMemory m₁ a n := fun i hi => h.pages _ ▸ hmem i hi

theorem Size.pos (hn : Size n) : 0 < n := by
  rcases hn with rfl | rfl <;> decide

theorem stores {left right : Word → Program D Unit} (hn : Size n) (hl : StoresLeft n left)
    (hr : StoresRight n right) : Stores n left (BitVec.ofNat 32 (n - 1)) right (BitVec.ofNat 32 0) ∧
      Stores n right (BitVec.ofNat 32 0) left (BitVec.ofNat 32 (n - 1)) := by
  have hpos := hn.pos
  have hsize : n ≤ 4096 := by rcases hn with rfl | rfl <;> decide
  constructor
  · intro m w w' a halign hmem hrt he he'
    have hp := start_base hn hmem (show n - 1 < n by omega) he
    have hfirst := storedIn_left (v := source n m (rt w)) hn he hp
    obtain ⟨hsame, hsource⟩ := hfirst.same w'
    have hp' := start_base hn (hfirst.inMemory hmem) hpos (hsame.trans he')
    have hsecond := storedIn_right (v := source n m (rt w)) hn (hsame.trans he') hp'
    refine ⟨_, (run_exec_bind (hl m w hp)).trans (hr _ w' hp'), ?_⟩
    rw [hsource, ← hrt]
    refine hfirst.trans hsize halign hsecond fun i hi => ?_
    have hparts := parts hn he
    have ha : effective m w' = a := by simpa using he'
    rw [hsame, ha]
    omega
  · intro m w w' a halign hmem hrt he he'
    have hp := start_base hn hmem hpos he
    have hfirst := storedIn_right (v := source n m (rt w)) hn he hp
    obtain ⟨hsame, hsource⟩ := hfirst.same w'
    have hp' := start_base hn (hfirst.inMemory hmem) (show n - 1 < n by omega) (hsame.trans he')
    have hsecond := storedIn_left (v := source n m (rt w)) hn (hsame.trans he') hp'
    refine ⟨_, (run_exec_bind (hr m w hp)).trans (hl _ w' hp'), ?_⟩
    rw [hsource, ← hrt]
    refine hfirst.trans hsize halign hsecond fun i hi => ?_
    have hparts := parts hn he'
    have ha : effective m w = a := by simpa using he
    rw [hsame, ha]
    omega

/-! ### The tables -/

theorem sdl_merge (hs : s < 8) (reg mem : BitVec 64) :
    (reg >>> (56 - 8 * s)) ||| (mem &&& at8 SDL_MASK s) = joinHigh 8 (8 - 1 - s) mem reg := by
  have htable : ∀ s < 8, at8 SDL_MASK s = BitVec.allOnes 64 <<< (64 - (8 - 1 - s) * 8) := by decide
  have hshift : 56 - 8 * s = (8 - 1 - s) * 8 := by omega
  rw [joinHigh, htable s hs, hshift, BitVec.or_comm]

theorem sdr_merge (hs : s < 8) (reg mem : BitVec 64) :
    (reg <<< (8 * s)) ||| (mem &&& at8 SDR_MASK s) = joinLow 8 s mem reg := by
  have htable : ∀ s < 8, at8 SDR_MASK s = BitVec.allOnes 64 >>> (64 - s * 8) := by decide
  rw [joinLow, htable s hs, Nat.mul_comm 8, BitVec.or_comm]

theorem swl_merge (hs : s < 4) (reg mem : Word) :
    (reg >>> (24 - 8 * s)) ||| (mem &&& at4 SWL_MASK s) = joinHigh 8 (4 - 1 - s) mem reg := by
  have htable : ∀ s < 4, at4 SWL_MASK s = BitVec.allOnes 32 <<< (32 - (4 - 1 - s) * 8) := by decide
  have hshift : 24 - 8 * s = (4 - 1 - s) * 8 := by omega
  rw [joinHigh, htable s hs, hshift, BitVec.or_comm]

theorem swr_merge (hs : s < 4) (reg mem : Word) :
    (reg <<< (8 * s)) ||| (mem &&& at4 SWR_MASK s) = joinLow 8 s mem reg := by
  have htable : ∀ s < 4, at4 SWR_MASK s = BitVec.allOnes 32 >>> (32 - s * 8) := by decide
  rw [joinLow, htable s hs, Nat.mul_comm 8, BitVec.or_comm]

theorem ldl_merge (hs : s < 8) (reg mem : BitVec 64) :
    (reg &&& at8 LDL_MASK s) ||| (mem <<< (56 - 8 * s)) = joinLow 8 (8 - 1 - s) reg mem := by
  have htable : ∀ s < 8, at8 LDL_MASK s = BitVec.allOnes 64 >>> (64 - (8 - 1 - s) * 8) := by decide
  have hshift : 56 - 8 * s = (8 - 1 - s) * 8 := by omega
  rw [joinLow, htable s hs, hshift]

theorem ldr_merge (hs : s < 8) (reg mem : BitVec 64) :
    (reg &&& at8 LDR_MASK s) ||| (mem >>> (8 * s)) = joinHigh 8 s reg mem := by
  have htable : ∀ s < 8, at8 LDR_MASK s = BitVec.allOnes 64 <<< (64 - s * 8) := by decide
  rw [joinHigh, htable s hs, Nat.mul_comm 8]

theorem lwl_merge (hs : s < 4) (reg mem : Word) :
    (reg &&& at4 LWL_MASK s) ||| (mem <<< (24 - 8 * s)) = joinLow 8 (4 - 1 - s) reg mem := by
  have htable : ∀ s < 4, at4 LWL_MASK s = BitVec.allOnes 32 >>> (32 - (4 - 1 - s) * 8) := by decide
  have hshift : 24 - 8 * s = (4 - 1 - s) * 8 := by omega
  rw [joinLow, htable s hs, hshift]

theorem lwr_merge (hs : s < 4) (reg mem : Word) :
    (reg &&& at4 LWR_MASK s) ||| (mem >>> (8 * s)) = joinHigh 8 s reg mem := by
  have htable : ∀ s < 4, at4 LWR_MASK s = BitVec.allOnes 32 <<< (32 - s * 8) := by decide
  rw [joinHigh, htable s hs, Nat.mul_comm 8]

theorem storesLeft_sdl : StoresLeft 8 (sdl P) := fun m w hp =>
  (run_storePart (.inr rfl) rfl hp).trans <|
    congrArg (fun x : BitVec 64 => some ((), written m 8 (base 8 (effective m w)) (x.setWidth 128)))
      (sdl_merge (part_lt (.inr rfl)) _ _)

theorem storesRight_sdr : StoresRight 8 (sdr P) := fun m w hp =>
  (run_storePart (.inr rfl) rfl hp).trans <|
    congrArg (fun x : BitVec 64 => some ((), written m 8 (base 8 (effective m w)) (x.setWidth 128)))
      (sdr_merge (part_lt (.inr rfl)) _ _)

theorem storesLeft_swl : StoresLeft 4 (swl P) := fun m w hp =>
  (run_storePart (.inl rfl) rfl hp).trans <|
    congrArg (fun x : BitVec 32 => some ((), written m 4 (base 4 (effective m w)) (x.setWidth 128)))
      (swl_merge (part_lt (.inl rfl)) _ _)

theorem storesRight_swr : StoresRight 4 (swr P) := fun m w hp =>
  (run_storePart (.inl rfl) rfl hp).trans <|
    congrArg (fun x : BitVec 32 => some ((), written m 4 (base 4 (effective m w)) (x.setWidth 128)))
      (swr_merge (part_lt (.inl rfl)) _ _)

/-! ### Loads -/

variable {r : BitVec 5} {q q' : Quad} {k : ℕ}

/-- The register `r` holds `q`, unless it is 0. -/
def setQuad (m : Machine D) (r : BitVec 5) (q : Quad) : Machine D :=
  { m with core := if r = 0 then m.core else
    { m.core with regs.gpr := Function.update m.core.regs.gpr r q } }

theorem run_setGpr {y : BitVec k} : (exec (setGpr r y 0 : Program D Unit)).run m =
    some ((), setQuad m r (insertBits (m.core.regs.gpr r) (0 * k) k y)) := rfl

theorem setQuad_self (hr : r ≠ 0) : (setQuad m r q).core.regs.gpr r = q := by
  simp only [setQuad, if_neg hr, Function.update_self]

theorem setQuad_zero : setQuad m 0 q = m := by
  rw [setQuad, if_pos rfl]

theorem setQuad_setQuad : setQuad (setQuad m r q) r q' = setQuad m r q' := by
  by_cases hr : r = 0
  · simp only [hr, setQuad_zero]
  · simp only [setQuad, if_neg hr, Function.update_idem]

theorem byte_setQuad : byte (setQuad m r q) = byte m := by
  unfold setQuad
  split_ifs <;> rfl

theorem locate_setQuad : locate (setQuad m r q) = locate m := rfl

theorem getLsbD_insertBits {y : BitVec k} {i : ℕ} (hi : i < 128) :
    (insertBits q (0 * k) k y).getLsbD i = if i < k then y.getLsbD i else q.getLsbD i := by
  simp only [insertBits, Nat.zero_mul, BitVec.shiftLeft_zero, BitVec.getLsbD_or, BitVec.getLsbD_and,
    BitVec.getLsbD_not, BitVec.getLsbD_setWidth, BitVec.getLsbD_allOnes, hi, decide_true,
    Bool.true_and]
  split_ifs with hik
  · simp [hik]
  · simp [hik, BitVec.getLsbD_of_ge y i (Nat.not_lt.mp hik)]

theorem setWidth_insertBits {y : BitVec k} (hk : k ≤ 128) :
    (insertBits q (0 * k) k y).setWidth k = y := by
  apply BitVec.eq_of_getLsbD_eq
  intro i hi
  rw [BitVec.getLsbD_setWidth, getLsbD_insertBits (by omega), if_pos hi]
  simp [hi]

theorem upper_insertBits {y : BitVec k} (hk : k ≤ 64) :
    (insertBits q (0 * k) k y).extractLsb' 64 64 = q.extractLsb' 64 64 := by
  apply BitVec.eq_of_getLsbD_eq
  intro i hi
  rw [BitVec.getLsbD_extractLsb', BitVec.getLsbD_extractLsb',
    getLsbD_insertBits (by omega), if_neg (by omega)]

/-- What a load leaves in the register: the word `y`, and above it, as far as `extend` goes, either
its extension or what was there before. -/
structure Put (extend : BitVec (8 * n) → BitVec 64) (kept : Prop) (q : Quad) (y : BitVec (8 * n))
    (q' : Quad) : Prop where
  low : q'.setWidth (8 * n) = y
  middle : q'.setWidth 64 = extend y ∨
    (kept ∧ ∀ i, 8 * n ≤ i → i < 64 → q'.getLsbD i = q.getLsbD i)
  upper : q'.extractLsb' 64 64 = q.extractLsb' 64 64

/-- `LDL` and `LWL`. -/
def LoadsLeft (n : ℕ) (extend : BitVec (8 * n) → BitVec 64) (ins : Word → Program D Unit) : Prop :=
  ∀ (m : Machine D) (w : Word), (start (pointerAt m (base n (effective m w)))).isSome →
    ∃ q', (exec (ins w)).run m = some ((), setQuad m (rt w) q') ∧
      Put extend False (m.core.regs.gpr (rt w))
        (joinLow 8 (n - 1 - part n (effective m w)) (source n m (rt w))
          (bytes n m (base n (effective m w)))) q'

/-- `LDR` and `LWR`. -/
def LoadsRight (n : ℕ) (extend : BitVec (8 * n) → BitVec 64) (ins : Word → Program D Unit) : Prop :=
  ∀ (m : Machine D) (w : Word), (start (pointerAt m (base n (effective m w)))).isSome →
    ∃ q', (exec (ins w)).run m = some ((), setQuad m (rt w) q') ∧
      Put extend (part n (effective m w) ≠ 0) (m.core.regs.gpr (rt w))
        (joinHigh 8 (part n (effective m w)) (source n m (rt w))
          (bytes n m (base n (effective m w)))) q'

/-- The extension of a word depends on its highest byte. -/
structure Extension (n : ℕ) (extend : BitVec (8 * n) → BitVec 64) : Prop where
  low : ∀ y i, i < 8 * n → (extend y).getLsbD i = y.getLsbD i
  high : ∀ y y', lane 8 y (n - 1) = lane 8 y' (n - 1) →
    ∀ i, 8 * n ≤ i → (extend y).getLsbD i = (extend y').getLsbD i

variable {extend : BitVec (8 * n) → BitVec 64}

theorem loaded_setQuad {y : BitVec 64} (hlow : r ≠ 0 → q.setWidth 64 = y)
    (hupper : q.extractLsb' 64 64 = (m.core.regs.gpr r).extractLsb' 64 64) :
    Loaded m (setQuad m r q) r y := by
  by_cases hr : r = 0
  · subst hr
    rw [setQuad_zero]
    refine ⟨fun h => absurd rfl h, rfl, fun _ => rfl, ?_⟩
    rw [Function.update_eq_self]
  · constructor
    case lower => exact fun _ => (setQuad_self hr).symm ▸ hlow hr
    case upper => exact (setQuad_self hr).symm ▸ hupper
    case zero => exact fun h => absurd h hr
    case others =>
      rw [setQuad_self hr, setQuad, if_neg hr]

section
variable {kept : Prop} {y y' : BitVec (8 * n)}

theorem Put.extended (h : Put extend False q y q') : q'.setWidth 64 = extend y :=
  h.middle.resolve_right fun h => h.1

/-- The second load leaves the extension of the first one alone only if it leaves its highest byte
alone. -/
theorem Put.after (hext : Extension n extend) (h : Put extend kept q y' q')
    (hq : q.setWidth 64 = extend y) (hlane : kept → lane 8 y (n - 1) = lane 8 y' (n - 1)) :
    q'.setWidth 64 = extend y' := by
  rcases h.middle with hmiddle | ⟨hkept, hmiddle⟩
  · exact hmiddle
  · apply BitVec.eq_of_getLsbD_eq
    intro i hi
    rw [BitVec.getLsbD_setWidth, decide_eq_true hi, Bool.true_and]
    by_cases hin : i < 8 * n
    · have hlow := congrArg (fun x => x.getLsbD i) h.low
      simp only [BitVec.getLsbD_setWidth, hin, decide_true, Bool.true_and] at hlow
      rw [hlow, hext.low y' i hin]
    · have hold := congrArg (fun x => x.getLsbD i) hq
      simp only [BitVec.getLsbD_setWidth, hi, decide_true, Bool.true_and] at hold
      rw [hmiddle i (Nat.not_lt.mp hin) hi, hold]
      exact hext.high y y' (hlane hkept) i (Nat.not_lt.mp hin)

theorem source_setQuad (hr : r ≠ 0) (h : Put extend kept (m.core.regs.gpr r) y q) :
    source n (setQuad m r q) r = y := by
  rw [source, setQuad_self hr]
  exact h.low

/-- The upper half after two loads. -/
theorem Put.upper_after {kept' : Prop} (h : Put extend kept (m.core.regs.gpr r) y q)
    (h' : Put extend kept' ((setQuad m r q).core.regs.gpr r) y' q') :
    q'.extractLsb' 64 64 = (m.core.regs.gpr r).extractLsb' 64 64 := by
  by_cases hr : r = 0
  · subst hr
    have hupper := h'.upper
    rwa [setQuad_zero] at hupper
  · have hupper := h'.upper
    rw [setQuad_self hr] at hupper
    exact hupper.trans h.upper

end

theorem loads {left right : Word → Program D Unit} (hn : Size n) (hext : Extension n extend)
    (hl : LoadsLeft n extend left) (hr : LoadsRight n extend right) :
    Loads n extend left (BitVec.ofNat 32 (n - 1)) right (BitVec.ofNat 32 0) ∧
      Loads n extend right (BitVec.ofNat 32 0) left (BitVec.ofNat 32 (n - 1)) := by
  have hpos := hn.pos
  constructor
  · intro m w w' a hmem hrt he
    obtain ⟨q, hrun, hput⟩ := hl m w (start_base hn hmem (show n - 1 < n by omega) he)
    refine ⟨_, hrun, fun he' => ?_⟩
    have hmem₁ : InMemory (setQuad m (rt w) q) a n := hmem
    obtain ⟨q', hrun', hput'⟩ := hr _ w' (start_base hn hmem₁ hpos he')
    rw [← hrt] at hrun' hput'
    refine ⟨_, hrun', ?_⟩
    rw [setQuad_setQuad]
    refine loaded_setQuad (fun h0 => ?_) (hput.upper_after hput')
    have hleft : LeftOf m a (part n _) (source n m (rt w)) _ := leftOf_joinLow hn he
    have hright : RightOf (setQuad m (rt w) q) a (part n _)
        (source n (setQuad m (rt w) q) (rt w)) _ := rightOf_joinHigh hn he'
    have ha : effective (setQuad m (rt w) q) w' = a := by simpa using he'
    have hparts := parts hn he
    rw [source_setQuad h0 hput] at hright hput'
    rw [setQuad_self h0] at hput'
    rw [hput'.after hext hput.extended fun hkept => ?_]
    · congr 1
      refine hleft.right (a := a) (fun i hi => ?_) (ha.symm ▸ hparts)
      rw [hright i hi, byte_setQuad]
    · rw [hright (n - 1) (by omega), if_neg (by omega)]
  · intro m w w' a hmem hrt he
    obtain ⟨q, hrun, hput⟩ := hr m w (start_base hn hmem hpos he)
    refine ⟨_, hrun, fun he' => ?_⟩
    have hmem₁ : InMemory (setQuad m (rt w) q) a n := hmem
    obtain ⟨q', hrun', hput'⟩ := hl _ w' (start_base hn hmem₁ (show n - 1 < n by omega) he')
    rw [← hrt] at hrun' hput'
    refine ⟨_, hrun', ?_⟩
    rw [setQuad_setQuad]
    refine loaded_setQuad (fun h0 => ?_) (hput.upper_after hput')
    have hright : RightOf m a (part n _) (source n m (rt w)) _ := rightOf_joinHigh hn he
    have hleft : LeftOf (setQuad m (rt w) q) a (part n _)
        (source n (setQuad m (rt w) q) (rt w)) _ := leftOf_joinLow hn he'
    have ha : effective m w = a := by simpa using he
    have hparts := parts hn he'
    rw [source_setQuad h0 hput] at hleft hput'
    rw [hput'.extended]
    congr 1
    refine hright.left (a := a) (fun i hi => ?_) (ha.symm ▸ hparts)
    rw [hleft i hi, byte_setQuad]

/-! ### The loads -/

section
variable {kept : Prop} {y : BitVec (8 * n)}

theorem put_extended (hn : Size n) (hext : Extension n extend) :
    Put extend kept q y (insertBits q (0 * 64) 64 (extend y)) where
  low := by
    have hle : 8 * n ≤ 64 := by rcases hn with rfl | rfl <;> decide
    apply BitVec.eq_of_getLsbD_eq
    intro i hi
    rw [BitVec.getLsbD_setWidth, getLsbD_insertBits (by omega), if_pos (by omega), hext.low y i hi]
    simp [hi]
  middle := .inl (setWidth_insertBits (by decide))
  upper := upper_insertBits (Nat.le_refl 64)

theorem put_low (hn : Size n) (hkept : kept) : Put extend kept q y (insertBits q (0 * (8 * n)) (8 * n) y)
    where
  low := setWidth_insertBits (by rcases hn with rfl | rfl <;> decide)
  middle := .inr ⟨hkept, fun i hi hlt => (getLsbD_insertBits (by omega)).trans (if_neg (by omega))⟩
  upper := upper_insertBits (by rcases hn with rfl | rfl <;> decide)

end

theorem extension_id : Extension 8 id where
  low _ _ _ := rfl
  high y y' _ i hi := (BitVec.getLsbD_of_ge y i hi).trans (BitVec.getLsbD_of_ge y' i hi).symm

theorem extension_signExtend : Extension 4 (BitVec.signExtend 64) where
  low y i hi := by
    have hlt : i < 64 := by omega
    rw [BitVec.getLsbD_signExtend, if_pos hi, decide_eq_true hlt, Bool.true_and]
  high y y' h i hi := by
    have hmsb := congrArg (fun b => b.getLsbD 7) h
    simp only [getLsbD_lane, show 7 < 8 by decide, decide_true, Bool.true_and] at hmsb
    have hnot : ¬ i < 8 * 4 := by omega
    rw [BitVec.getLsbD_signExtend, BitVec.getLsbD_signExtend, if_neg hnot, if_neg hnot,
      BitVec.msb_eq_getLsbD_last, BitVec.msb_eq_getLsbD_last]
    exact congrArg _ hmsb

theorem loadsLeft_ldl : LoadsLeft 8 id (ldl P) := fun m w hp => by
  refine ⟨_, (run_loadPart (.inr rfl) rfl hp).trans ?_, put_extended (.inr rfl) extension_id⟩
  rw [run_setGpr]
  exact congrArg (fun x : BitVec 64 => some ((), setQuad m (rt w)
    (insertBits (m.core.regs.gpr (rt w)) (0 * 64) 64 x))) (ldl_merge (part_lt (.inr rfl)) _ _)

theorem loadsRight_ldr : LoadsRight 8 id (ldr P) := fun m w hp => by
  refine ⟨_, (run_loadPart (.inr rfl) rfl hp).trans ?_, put_extended (.inr rfl) extension_id⟩
  rw [run_setGpr]
  exact congrArg (fun x : BitVec 64 => some ((), setQuad m (rt w)
    (insertBits (m.core.regs.gpr (rt w)) (0 * 64) 64 x))) (ldr_merge (part_lt (.inr rfl)) _ _)

theorem loadsLeft_lwl : LoadsLeft 4 (BitVec.signExtend 64) (lwl P) := fun m w hp => by
  refine ⟨_, (run_loadPart (.inl rfl) rfl hp).trans ?_, put_extended (.inl rfl) extension_signExtend⟩
  rw [run_setGpr]
  exact congrArg (fun x : BitVec 32 => some ((), setQuad m (rt w)
    (insertBits (m.core.regs.gpr (rt w)) (0 * 64) 64 (x.signExtend 64))))
    (lwl_merge (part_lt (.inl rfl)) _ _)

theorem loadsRight_lwr : LoadsRight 4 (BitVec.signExtend 64) (lwr P) := fun m w hp => by
  have hpart : part 4 (effective m w) < 4 := part_lt (.inl rfl)
  have hmerge := lwr_merge hpart (source 4 m (rt w)) (bytes 4 m (base 4 (effective m w)))
  by_cases hs : part 4 (effective m w) = 0
  · refine ⟨_, (run_loadPart (.inl rfl) rfl hp).trans ?_, put_extended (.inl rfl) extension_signExtend⟩
    rw [if_pos hs, run_setGpr]
    exact congrArg (fun x : BitVec 32 => some ((), setQuad m (rt w)
      (insertBits (m.core.regs.gpr (rt w)) (0 * 64) 64 (x.signExtend 64)))) hmerge
  · refine ⟨_, (run_loadPart (.inl rfl) rfl hp).trans ?_, put_low (.inl rfl) hs⟩
    rw [if_neg hs, run_setGpr]
    exact congrArg (fun x : BitVec 32 => some ((), setQuad m (rt w)
      (insertBits (m.core.regs.gpr (rt w)) (0 * 32) 32 x))) hmerge

/-- **Unaligned access.** -/
theorem unaligned (P : Rest D) :
    Stores 8 (sdl P) 7 (sdr P) 0 ∧ Stores 8 (sdr P) 0 (sdl P) 7 ∧
    Loads 8 id (ldl P) 7 (ldr P) 0 ∧ Loads 8 id (ldr P) 0 (ldl P) 7 ∧
    Stores 4 (swl P) 3 (swr P) 0 ∧ Stores 4 (swr P) 0 (swl P) 3 ∧
    Loads 4 (BitVec.signExtend 64) (lwl P) 3 (lwr P) 0 ∧
    Loads 4 (BitVec.signExtend 64) (lwr P) 0 (lwl P) 3 := by
  obtain ⟨hsd, hsd'⟩ := stores (.inr rfl) (storesLeft_sdl (P := P)) storesRight_sdr
  obtain ⟨hld, hld'⟩ := loads (.inr rfl) extension_id (loadsLeft_ldl (P := P)) loadsRight_ldr
  obtain ⟨hsw, hsw'⟩ := stores (.inl rfl) (storesLeft_swl (P := P)) storesRight_swr
  obtain ⟨hlw, hlw'⟩ := loads (.inl rfl) extension_signExtend (loadsLeft_lwl (P := P))
    loadsRight_lwr
  exact ⟨hsd, hsd', hld, hld', hsw, hsw', hlw, hlw'⟩

/-- A machine after a reset, with an address three bytes before the end of a page. -/
def crossing : Machine Unit where
  core := { zeroCore fun _ => 0 with
    regs.gpr := fun r => if r = 1 then 0x80000FFD else 0x1122334455667788 }
  pcNow := 0xBFC00000
  tlbMap := .kernel
  tlb := ⟨fun _ => .zero, initPage⟩
  log := []

/-- SDL $2, 7($1) and SDR $2, 0($1). -/
theorem stored_crossing : ∃ m', (exec (do
      sdl (alone loadConstant) 0xB0220007
      sdr (alone loadConstant) 0xB4220000)).run crossing = some ((), m') ∧
    Stored crossing m' 0x80000FFD (source 8 crossing 2) := by
  have halign : Aligned crossing.tlb.vtlb :=
    aligned_init (c := crossing.tlb) ⟨rfl, Tlb.Translation.init_tlb_eq⟩
  have hmem : InMemory crossing 0x80000FFD 8 := by
    unfold InMemory
    decide
  exact (unaligned (alone loadConstant)).1 crossing _ _ _ halign hmem rfl rfl rfl

end DobieStation.Ee.Unaligned
