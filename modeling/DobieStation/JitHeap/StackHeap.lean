import DobieStation.JitHeap.PageRecords
import DobieStation.Lib.Reach

/-! # The heap of the VU and GS JITs

`JitUnorderedMapHeap`: memory is handed out upwards and given back all at once. The VU JIT looks for
room before it runs (`heap_is_full`), the two JITs of the GS do not. What dies is `none`; sizes of
blocks are small, so that no sum of them wraps. -/

namespace DobieStation.JitHeap.StackHeap

open DobieStation.Lib.Memory DobieStation.Lib.Reach DobieStation.Lib.FirstResult
open DobieStation.JitHeap.Blocks

def JIT_HEAP_DEFAULT_SIZE : ℕ := 64 * 1024 * 1024

def JIT_HEAP_ALIGN : ℕ := 16

def JIT_MAX_BLOCK_SIZE : ℕ := JIT_MAX_BLOCK_CODESIZE + JIT_MAX_BLOCK_LITERALSIZE

structure JitUnorderedMapHeap (K : Type*) where
  mem : Bytes
  heap : ℕ
  heap_top : ℕ
  heap_cur : ℕ
  block_map : K → Option (JitBlockRecord K)

def aligned_size (size : ℕ) : ℕ := (size + JIT_HEAP_ALIGN - 1) / JIT_HEAP_ALIGN * JIT_HEAP_ALIGN

namespace JitUnorderedMapHeap

variable {K : Type*} [DecidableEq K] (h : JitUnorderedMapHeap K)

def jit_alloc (size : ℕ) : ℕ × JitUnorderedMapHeap K :=
  let new_cur := h.heap_cur + aligned_size size
  if h.heap_top ≤ new_cur then (0, h) else (h.heap_cur, { h with heap_cur := new_cur })

def flush_all_blocks : JitUnorderedMapHeap K :=
  { h with heap_cur := h.heap, block_map := fun _ => none }

def heap_is_full : Bool := h.heap_top - h.heap_cur < JIT_MAX_BLOCK_SIZE

/-- A key that is in the map keeps its record. -/
def insert_block (data : K) (block : JitBlock) :
    Option (JitBlockRecord K × JitUnorderedMapHeap K) :=
  let (dest, h) := h.jit_alloc block.block_size
  let (dest, h) := if dest = 0 then h.flush_all_blocks.jit_alloc block.block_size else (dest, h)
  if block.block_size = 0 ∨ dest = 0 then none
  else
    let h := { h with mem := copy h.mem dest block.bytes }
    match h.block_map data with
    | some old => some (old, h)
    | none =>
      let record := block.record dest data
      some (record, { h with block_map := Function.update h.block_map data (some record) })

def find_block (data : K) : Option (JitBlockRecord K) := h.block_map data

end JitUnorderedMapHeap

/-! ### The JITs -/

structure Jit (K : Type*) where
  heap : JitUnorderedMapHeap K
  prologue_block : ℕ

/-- The prologue of a JIT and the key it is recorded by, and whether the JIT looks for room. -/
structure Kind (K : Type*) where
  prologue : JitBlock
  reserved : K
  guarded : Bool

section
variable {K : Type*} [DecidableEq K] (kind : Kind K) (s : Jit K)

def create_prologue_block : Option (Jit K) := do
  let (record, heap) ← s.heap.insert_block kind.reserved kind.prologue
  return ⟨heap, record.code_start⟩

/-- A block that is found, or else compiled; what is called is its code. -/
def get_block (data : K) (block : JitBlock) : Option (ℕ × Jit K) :=
  match s.heap.find_block data with
  | some record => some (record.code_start, s)
  | none => do
    let (record, heap) ← s.heap.insert_block data block
    return (record.code_start, { s with heap := heap })

def reset : Option (Jit K) :=
  create_prologue_block kind { s with heap := s.heap.flush_all_blocks }

def make_room : Option (Jit K) := if kind.guarded ∧ s.heap.heap_is_full then reset kind s else some s

def run (data : K) (block : JitBlock) : Option (ℕ × Jit K) := do
  let s ← make_room kind s
  get_block s data block

end

structure VUBlockState where
  pc : BitVec 32
  prev_pc : BitVec 32
  program : BitVec 32
  param1 : BitVec 64
  param2 : BitVec 64
  deriving DecidableEq, Repr

/-- `VU_JIT64`, by what its prologue is. -/
def VU_JIT64 (prologue : JitBlock) : Kind VUBlockState := ⟨prologue, ⟨0xFFFF, 0xFFFE, 0, 0, 0⟩, true⟩

/-- The JIT of `draw_pixel` and that of `tex_lookup`. -/
def GS_JIT64 (prologue : JitBlock) : Kind (BitVec 64) := ⟨prologue, BitVec.allOnes 64, false⟩

/-! ### The heap -/

/-- There is room for so many bytes. -/
def Fits {K : Type*} (h : JitUnorderedMapHeap K) (size : ℕ) : Prop :=
  h.heap_cur + aligned_size size < h.heap_top

instance {K : Type*} (h : JitUnorderedMapHeap K) (size : ℕ) : Decidable (Fits h size) := by
  unfold Fits
  infer_instance

theorem aligned_size_spec (size : ℕ) : size ≤ aligned_size size ∧ aligned_size size < size + 16 ∧
    aligned_size size % 16 = 0 := by
  unfold aligned_size JIT_HEAP_ALIGN
  omega

theorem aligned_size_le (b : JitBlock) : aligned_size b.block_size ≤ JIT_MAX_BLOCK_SIZE := by
  have hlt := block_size_lt b
  have hspec := aligned_size_spec b.block_size
  unfold JIT_MAX_BLOCK_SIZE
  unfold JIT_MAX_BLOCK_LITERALSIZE JIT_MAX_BLOCK_CODESIZE at hlt ⊢
  omega

/-- A record is that of the block of the table, below `heap_cur`. -/
def Recorded {K : Type*} (h : JitUnorderedMapHeap K) :
    Option (JitBlockRecord K) → Option JitBlock → Prop
  | none, none => True
  | some r, some b =>
    Stands h.mem r b ∧ h.heap ≤ r.literals_start ∧ r.literals_start + b.block_size ≤ h.heap_cur
  | _, _ => False

/-- The heap holds the blocks of a table, apart from each other. -/
structure Good {K : Type*} (h : JitUnorderedMapHeap K) (m : K → Option JitBlock) : Prop where
  placed : 0 < h.heap
  top : h.heap_top = h.heap + JIT_HEAP_DEFAULT_SIZE
  low : h.heap ≤ h.heap_cur
  high : h.heap_cur < h.heap_top
  recorded : ∀ k, Recorded h (h.block_map k) (m k)
  apart : ∀ k k' r r', h.block_map k = some r → h.block_map k' = some r' → k ≠ k' →
    r.extent.1 + r.extent.2 ≤ r'.extent.1 ∨ r'.extent.1 + r'.extent.2 ≤ r.extent.1

section
variable {K : Type*} {h : JitUnorderedMapHeap K} {m : K → Option JitBlock} {k : K} {b : JitBlock}

theorem Good.record_of (hg : Good h m) (hm : m k = some b) :
    ∃ r, h.block_map k = some r ∧ Stands h.mem r b ∧ h.heap ≤ r.literals_start ∧
      r.literals_start + b.block_size ≤ h.heap_cur := by
  have hr := hg.recorded k
  rw [hm] at hr
  cases hk : h.block_map k with
  | none =>
    rw [hk] at hr
    exact hr.elim
  | some r =>
    rw [hk] at hr
    exact ⟨r, rfl, hr⟩

theorem Good.block_of (hg : Good h m) {r : JitBlockRecord K} (hk : h.block_map k = some r) :
    ∃ b, m k = some b ∧ Stands h.mem r b ∧ h.heap ≤ r.literals_start ∧
      r.literals_start + b.block_size ≤ h.heap_cur := by
  have hr := hg.recorded k
  rw [hk] at hr
  cases hm : m k with
  | none =>
    rw [hm] at hr
    exact hr.elim
  | some b =>
    rw [hm] at hr
    exact ⟨b, rfl, hr⟩

theorem Good.none_iff (hg : Good h m) : h.block_map k = none ↔ m k = none := by
  constructor
  · intro hk
    cases hm : m k with
    | none => rfl
    | some b =>
      obtain ⟨r, hr, -⟩ := hg.record_of hm
      exact absurd (hr.symm.trans hk) (Option.some_ne_none r)
  · intro hm
    cases hk : h.block_map k with
    | none => rfl
    | some r =>
      obtain ⟨b, hb, -⟩ := hg.block_of hk
      exact absurd (hb.symm.trans hm) (Option.some_ne_none b)

theorem flush_good (hg : Good h m) : Good h.flush_all_blocks fun _ => none := by
  have htop := hg.top
  have hpos : 0 < JIT_HEAP_DEFAULT_SIZE := by decide
  refine ⟨hg.placed, hg.top, Nat.le_refl _, ?_, fun _ => trivial, fun _ _ r _ hk => ?_⟩
  · change h.heap < h.heap_top
    omega
  · exact absurd hk (Option.some_ne_none r).symm

/-- After a flush there is room for any block. -/
theorem flush_fits (hg : Good h m) (b : JitBlock) : Fits h.flush_all_blocks b.block_size := by
  have htop := hg.top
  have hle := aligned_size_le b
  unfold Fits
  change h.heap + aligned_size b.block_size < h.heap_top
  unfold JIT_MAX_BLOCK_SIZE JIT_MAX_BLOCK_CODESIZE JIT_MAX_BLOCK_LITERALSIZE at hle
  unfold JIT_HEAP_DEFAULT_SIZE at htop
  omega

theorem alloc_roomy {size : ℕ} (hfits : Fits h size) :
    h.jit_alloc size = (h.heap_cur, { h with heap_cur := h.heap_cur + aligned_size size }) :=
  if_neg (Nat.not_le.mpr hfits)

theorem alloc_full {size : ℕ} (hfits : ¬ Fits h size) : h.jit_alloc size = (0, h) :=
  if_pos (Nat.not_lt.mp hfits)

variable [DecidableEq K]

/-- The block is put behind all others. -/
def placed (h : JitUnorderedMapHeap K) (data : K) (b : JitBlock) : JitUnorderedMapHeap K :=
  { h with
    mem := copy h.mem h.heap_cur b.bytes
    heap_cur := h.heap_cur + aligned_size b.block_size
    block_map := Function.update h.block_map data (some (b.record h.heap_cur data)) }

theorem placed_good (hg : Good h m) (hfits : Fits h b.block_size) :
    Good (placed h k b) (Function.update m k (some b)) := by
  have hle := (aligned_size_spec b.block_size).1
  have hcur : h.heap_cur ≤ h.heap_cur + aligned_size b.block_size := Nat.le_add_right _ _
  have hlow := hg.low
  have hnew : (b.record h.heap_cur k).extent = (h.heap_cur, b.block_size) :=
    (stands_copy h.mem b h.heap_cur k).extent_eq
  have hold : ∀ k' r, h.block_map k' = some r → r.extent.1 + r.extent.2 ≤ h.heap_cur := by
    intro k' r hk'
    obtain ⟨b', -, hstands, -, hend⟩ := hg.block_of hk'
    rw [hstands.extent_eq]
    exact hend
  refine ⟨hg.placed, hg.top, Nat.le_trans hlow hcur, hfits, fun k' => ?_, ?_⟩
  · unfold placed
    dsimp only
    rcases eq_or_ne k' k with rfl | hne
    · rw [Function.update_self, Function.update_self]
      exact ⟨stands_copy _ b _ _, hlow, Nat.add_le_add_left hle _⟩
    · rw [Function.update_of_ne hne, Function.update_of_ne hne]
      cases hk' : h.block_map k' with
      | none =>
        rw [hg.none_iff.mp hk']
        trivial
      | some r =>
        obtain ⟨b', hb', hstands, hstart, hend⟩ := hg.block_of hk'
        rw [hb']
        refine ⟨hstands.congr fun p h1 h2 => copy_apart ?_, hstart, Nat.le_trans hend hcur⟩
        have := hold k' r hk'
        omega
  · intro k₁ k₂ r₁ r₂ h₁ h₂ hne
    unfold placed at h₁ h₂
    dsimp only at h₁ h₂
    by_cases he₁ : k₁ = k <;> by_cases he₂ : k₂ = k
    · exact absurd (he₁.trans he₂.symm) hne
    · rw [he₁, Function.update_self, Option.some.injEq] at h₁
      rw [Function.update_of_ne he₂] at h₂
      rw [← h₁, hnew]
      exact Or.inr (hold k₂ r₂ h₂)
    · rw [Function.update_of_ne he₁] at h₁
      rw [he₂, Function.update_self, Option.some.injEq] at h₂
      rw [← h₂, hnew]
      exact Or.inl (hold k₁ r₁ h₁)
    · rw [Function.update_of_ne he₁] at h₁
      rw [Function.update_of_ne he₂] at h₂
      exact hg.apart k₁ k₂ r₁ r₂ h₁ h₂ hne

theorem insert_roomy (hg : Good h m) (hm : m k = none) (hfits : Fits h b.block_size) :
    h.insert_block k b = some (b.record h.heap_cur k, placed h k b) := by
  have hpos := block_size_pos b
  have hlow := hg.low
  have hplaced := hg.placed
  have hcur : h.heap_cur ≠ 0 := by omega
  have hdest : ¬ (b.block_size = 0 ∨ h.heap_cur = 0) := by omega
  unfold JitUnorderedMapHeap.insert_block
  rw [alloc_roomy hfits]
  dsimp only
  rw [if_neg hcur]
  dsimp only
  rw [if_neg hdest, hg.none_iff.mpr hm]
  rfl

theorem insert_full (hg : Good h m) (hfits : ¬ Fits h b.block_size) :
    h.insert_block k b = some (b.record h.heap k, placed h.flush_all_blocks k b) := by
  have hpos := block_size_pos b
  have hplaced := hg.placed
  have hcur : h.flush_all_blocks.heap_cur = h.heap := rfl
  have hdest : ¬ (b.block_size = 0 ∨ h.flush_all_blocks.heap_cur = 0) := by omega
  unfold JitUnorderedMapHeap.insert_block
  rw [alloc_full hfits]
  dsimp only
  rw [if_pos rfl, alloc_roomy (flush_fits hg b)]
  dsimp only
  rw [if_neg hdest]
  rfl

end

/-! ### One step -/

section
variable {K : Type*} [DecidableEq K] {kind : Kind K} {s : Jit K} {m : K → Option JitBlock} {k : K}
  {b : JitBlock}

/-- What a step that calls `addr` leaves: the table `m'`, with the block whose code is called. -/
structure Called (s s' : Jit K) (m' : K → Option JitBlock) (k : K) (b : JitBlock) (addr : ℕ) :
    Prop where
  good : Good s'.heap m'
  base : s'.heap.heap = s.heap.heap
  prologue : s'.prologue_block = s.prologue_block
  stored : m' k = some b
  code : Holds s'.heap.mem addr b.code

theorem get_hit {b₀ : JitBlock} (hg : Good s.heap m) (hm : m k = some b₀) :
    ∃ addr, get_block s k b = some (addr, s) ∧ Called s s m k b₀ addr := by
  obtain ⟨r, hr, hstands, -⟩ := hg.record_of hm
  refine ⟨r.code_start, ?_, hg, rfl, rfl, hm, hstands.entered⟩
  have hfind : s.heap.find_block k = some r := hr
  unfold get_block
  rw [hfind]

theorem get_miss {heap : JitUnorderedMapHeap K} {r : JitBlockRecord K} (hm : s.heap.block_map k = none)
    (hinsert : s.heap.insert_block k b = some (r, heap)) :
    get_block s k b = some (r.code_start, { s with heap := heap }) := by
  have hfind : s.heap.find_block k = none := hm
  unfold get_block
  rw [hfind]
  dsimp only
  rw [hinsert]
  rfl

/-- Where there is room, the block is put behind the others. -/
theorem get_roomy (hg : Good s.heap m) (hm : m k = none) (hfits : Fits s.heap b.block_size) :
    ∃ addr s', get_block s k b = some (addr, s') ∧
      Called s s' (Function.update m k (some b)) k b addr ∧
      ∀ k', k' ≠ k → s'.heap.block_map k' = s.heap.block_map k' := by
  have hgood := placed_good (k := k) hg hfits
  exact ⟨_, _, get_miss (hg.none_iff.mpr hm) (insert_roomy hg hm hfits),
    ⟨hgood, rfl, rfl, Function.update_self .., (stands_copy _ b _ k).entered⟩,
    fun k' hk' => Function.update_of_ne hk' _ _⟩

/-- Where there is none, the block takes the place of all others. -/
theorem get_full (hg : Good s.heap m) (hm : m k = none) (hfits : ¬ Fits s.heap b.block_size) :
    ∃ addr s', get_block s k b = some (addr, s') ∧
      Called s s' (Function.update (fun _ => none) k (some b)) k b addr := by
  have hgood := placed_good (k := k) (flush_good hg) (flush_fits hg b)
  exact ⟨_, _, get_miss (hg.none_iff.mpr hm) (insert_full hg hfits),
    ⟨hgood, rfl, rfl, Function.update_self .., (stands_copy _ b _ k).entered⟩⟩

/-- **A reset** leaves the prologue at the start of the heap, and nothing else. -/
theorem reset_spec (kind : Kind K) (hg : Good s.heap m) : ∃ s', reset kind s = some s' ∧
    Good s'.heap (Function.update (fun _ => none) kind.reserved (some kind.prologue)) ∧
    s'.prologue_block = s'.heap.heap + kind.prologue.literals.length ∧
    s'.heap.heap = s.heap.heap ∧
    s'.heap.heap_cur = s.heap.heap + aligned_size kind.prologue.block_size ∧
    ∃ r, s'.heap.block_map kind.reserved = some r ∧ r.code_start = s'.prologue_block := by
  have hflush := flush_good hg
  have hroom := flush_fits hg kind.prologue
  have hgood := placed_good (k := kind.reserved) hflush hroom
  refine ⟨⟨placed s.heap.flush_all_blocks kind.reserved kind.prologue,
    s.heap.heap + kind.prologue.literals.length⟩, ?_, hgood, rfl, rfl, rfl, _,
    Function.update_self .., rfl⟩
  unfold reset create_prologue_block
  dsimp only
  rw [insert_roomy hflush rfl hroom]
  rfl

end

/-! ### Runs -/

inductive Act (K : Type*) where
  | run (data : K) (block : JitBlock)
  | reset

/-- A run with its history: what was offered and when the heap was cleared, and whether an insertion
cleared it since the last reset. -/
structure Logged (K : Type*) where
  s : Jit K
  log : List (Event K JitBlock)
  overflowed : Bool

section
variable {K : Type*} [DecidableEq K] (kind : Kind K) (x : Logged K)

/-- A block has to be compiled, and there is no room for it. -/
def Overflows (s : Jit K) (data : K) (block : JitBlock) : Prop :=
  (s.heap.block_map data).isNone ∧ ¬ Fits s.heap block.block_size

instance (s : Jit K) (data : K) (block : JitBlock) : Decidable (Overflows s data block) := by
  unfold Overflows
  infer_instance

def Logged.reset : Option (Logged K) :=
  (StackHeap.reset kind x.s).map fun s =>
    ⟨s, x.log ++ [.clear] ++ [.offer kind.reserved kind.prologue], false⟩

def Logged.make_room : Option (Logged K) :=
  if kind.guarded ∧ x.s.heap.heap_is_full then x.reset kind else some x

def Logged.get (data : K) (block : JitBlock) : Option (Logged K) :=
  (get_block x.s data block).map fun r =>
    if Overflows x.s data block then ⟨r.2, x.log ++ [.clear] ++ [.offer data block], true⟩
    else ⟨r.2, x.log ++ [.offer data block], x.overflowed⟩

def Logged.next : Act K → Option (Logged K)
  | .run data block => (x.make_room kind).bind fun x => x.get data block
  | .reset => x.reset kind

def Step (x : Logged K) (a : Act K) (x' : Logged K) : Prop := x.next kind a = some x'

/-- After the first reset. -/
def Booted (x : Logged K) : Prop :=
  ∃ mem heap prologue_block, 0 < heap ∧
    Logged.reset kind ⟨⟨⟨mem, heap, heap + JIT_HEAP_DEFAULT_SIZE, heap, fun _ => none⟩,
      prologue_block⟩, [], false⟩ = some x

/-- The heap holds what the history says, and the prologue is where it was put. -/
structure Tracks (x : Logged K) : Prop where
  good : Good x.s.heap (replay x.log)
  entry : x.s.prologue_block = x.s.heap.heap + kind.prologue.literals.length
  kept : x.overflowed = false → replay x.log kind.reserved = some kind.prologue ∧
    ∃ r, x.s.heap.block_map kind.reserved = some r ∧ r.code_start = x.s.prologue_block

end

section
variable {K : Type*} {x : Logged K} {data : K} {b : JitBlock}

/-- The room that a block needs at most. -/
def Roomy (h : JitUnorderedMapHeap K) : Prop := JIT_MAX_BLOCK_SIZE ≤ h.heap_top - h.heap_cur

/-- Where room was looked for, only a block of the largest size finds none, and in one heap only. -/
theorem overflows_exact (hroom : Roomy x.s.heap) (hover : Overflows x.s data b) :
    x.s.heap.heap_top - x.s.heap.heap_cur = JIT_MAX_BLOCK_SIZE ∧
      JIT_MAX_BLOCK_SIZE < b.block_size + JIT_HEAP_ALIGN := by
  have hle := aligned_size_le b
  have hspec := aligned_size_spec b.block_size
  have hnot := hover.2
  unfold Fits at hnot
  unfold Roomy at hroom
  have hpos : 0 < JIT_MAX_BLOCK_SIZE := by decide
  have h16 : JIT_HEAP_ALIGN = 16 := rfl
  omega

/-- An empty heap. -/
theorem empty_good {mem : Bytes} {heap : ℕ} (hpos : 0 < heap) :
    Good (⟨mem, heap, heap + JIT_HEAP_DEFAULT_SIZE, heap, fun _ => none⟩ : JitUnorderedMapHeap K)
      fun _ => none := by
  have hsize : 0 < JIT_HEAP_DEFAULT_SIZE := by decide
  refine ⟨hpos, rfl, Nat.le_refl _, ?_, fun _ => trivial, fun _ _ r _ hk => ?_⟩
  · exact Nat.lt_add_of_pos_right hsize
  · exact absurd hk (Option.some_ne_none r).symm

end

section
variable {K : Type*} [DecidableEq K] {kind : Kind K} {x x' : Logged K} {data : K} {b : JitBlock}

theorem clear_replay (l : List (Event K JitBlock)) :
    replay (l ++ [.clear]) = fun _ => none := funext fun _ => replay_clear

theorem reset_tracks (kind : Kind K) {m : K → Option JitBlock} (hg : Good x.s.heap m) :
    ∃ x', x.reset kind = some x' ∧ Tracks kind x' ∧ Roomy x'.s.heap ∧ x'.overflowed = false := by
  obtain ⟨s', hreset, hgood, hentry, hbase, hcur, hr⟩ := reset_spec kind hg
  have hreplay : replay (x.log ++ [.clear] ++ [.offer kind.reserved kind.prologue]) =
      Function.update (fun _ => none) kind.reserved (some kind.prologue) := by
    rw [replay_miss replay_clear, clear_replay]
  refine ⟨⟨s', x.log ++ [.clear] ++ [.offer kind.reserved kind.prologue], false⟩, ?_,
    ⟨?_, hentry, fun _ => ⟨?_, hr⟩⟩, ?_, rfl⟩
  · unfold Logged.reset
    rw [hreset]
    rfl
  · dsimp only
    rw [hreplay]
    exact hgood
  · dsimp only
    rw [hreplay, Function.update_self]
  · have htop := hgood.top
    have hle := aligned_size_le kind.prologue
    unfold Roomy
    dsimp only
    rw [hbase] at htop
    unfold JIT_MAX_BLOCK_SIZE JIT_MAX_BLOCK_CODESIZE JIT_MAX_BLOCK_LITERALSIZE at hle ⊢
    unfold JIT_HEAP_DEFAULT_SIZE at htop
    omega

theorem make_room_tracks (ht : Tracks kind x) : ∃ x₁, x.make_room kind = some x₁ ∧
    Tracks kind x₁ ∧ (kind.guarded = true → Roomy x₁.s.heap) ∧
    (x.overflowed = false → x₁.overflowed = false) := by
  unfold Logged.make_room
  by_cases hroom : kind.guarded = true ∧ x.s.heap.heap_is_full = true
  · rw [if_pos hroom]
    obtain ⟨x₁, hreset, ht₁, hr₁, hover₁⟩ := reset_tracks kind ht.good
    exact ⟨x₁, hreset, ht₁, fun _ => hr₁, fun _ => hover₁⟩
  · rw [if_neg hroom]
    refine ⟨x, rfl, ht, fun hguard => ?_, fun h => h⟩
    have hnot : x.s.heap.heap_is_full ≠ true := fun hfull => hroom ⟨hguard, hfull⟩
    unfold JitUnorderedMapHeap.heap_is_full at hnot
    rw [ne_eq, decide_eq_true_eq, Nat.not_lt] at hnot
    exact hnot

theorem overflows_iff (ht : Tracks kind x) :
    Overflows x.s data b ↔ replay x.log data = none ∧ ¬ Fits x.s.heap b.block_size := by
  unfold Overflows
  rw [Option.isNone_iff_eq_none, ht.good.none_iff]

/-- What is called, and what follows. -/
theorem get_tracks (ht : Tracks kind x) (data : K) (b : JitBlock) :
    ∃ addr s' x', get_block x.s data b = some (addr, s') ∧ x.get data b = some x' ∧ x'.s = s' ∧
      Tracks kind x' ∧ Holds s'.heap.mem addr ((replay x.log data).getD b).code ∧
      (x'.overflowed = true → x.overflowed = true ∨ Overflows x.s data b) := by
  cases hm : replay x.log data with
  | some b₀ =>
    obtain ⟨addr, hget, hdone⟩ := get_hit (b := b) ht.good hm
    have hnot : ¬ Overflows x.s data b := by
      rw [overflows_iff ht, hm]
      exact fun h => absurd h.1 (Option.some_ne_none b₀)
    refine ⟨addr, x.s, ⟨x.s, x.log ++ [.offer data b], x.overflowed⟩, hget, ?_, rfl,
      ⟨?_, ht.entry, fun hk => ?_⟩, hdone.code, Or.inl⟩
    · unfold Logged.get
      rw [hget, Option.map_some, if_neg hnot]
    · dsimp only
      rw [replay_hit hm]
      exact ht.good
    · dsimp only
      rw [replay_hit hm]
      exact ht.kept hk
  | none =>
    by_cases hfits : Fits x.s.heap b.block_size
    · obtain ⟨addr, s', hget, hdone, hothers⟩ := get_roomy ht.good hm hfits
      have hnot : ¬ Overflows x.s data b := fun h => ((overflows_iff ht).mp h).2 hfits
      refine ⟨addr, s', ⟨s', x.log ++ [.offer data b], x.overflowed⟩, hget, ?_, rfl,
        ⟨?_, ?_, fun hk => ?_⟩, hdone.code, Or.inl⟩
      · unfold Logged.get
        rw [hget, Option.map_some, if_neg hnot]
      · dsimp only
        rw [replay_miss hm]
        exact hdone.good
      · dsimp only
        rw [hdone.prologue, hdone.base, ht.entry]
      · obtain ⟨hp, r, hr, hentry⟩ := ht.kept hk
        have hne : kind.reserved ≠ data := by
          rintro rfl
          exact absurd (hp.symm.trans hm) (Option.some_ne_none _)
        dsimp only
        rw [replay_other hne.symm, hdone.prologue]
        exact ⟨hp, r, (hothers _ hne).trans hr, hentry⟩
    · obtain ⟨addr, s', hget, hdone⟩ := get_full ht.good hm hfits
      have hover : Overflows x.s data b := (overflows_iff ht).mpr ⟨hm, hfits⟩
      refine ⟨addr, s', ⟨s', x.log ++ [.clear] ++ [.offer data b], true⟩, hget, ?_, rfl,
        ⟨?_, ?_, fun hk => absurd hk Bool.noConfusion⟩, hdone.code, fun _ => Or.inr hover⟩
      · unfold Logged.get
        rw [hget, Option.map_some, if_pos hover]
      · dsimp only
        rw [replay_miss replay_clear, clear_replay]
        exact hdone.good
      · dsimp only
        rw [hdone.prologue, hdone.base, ht.entry]

theorem next_run :
    x.next kind (.run data b) = (x.make_room kind).bind fun x => x.get data b := rfl

theorem step_tracks {a : Act K} (ht : Tracks kind x) (hstep : Step kind x a x') :
    Tracks kind x' := by
  cases a with
  | run data b =>
    obtain ⟨x₁, hroom, ht₁, -⟩ := make_room_tracks ht
    obtain ⟨addr, s', x₂, -, hget, -, ht₂, -⟩ := get_tracks ht₁ data b
    have hnext : x.next kind (.run data b) = some x₂ := by
      rw [next_run, hroom, Option.bind_some, hget]
    rw [Step, hnext, Option.some.injEq] at hstep
    exact hstep ▸ ht₂
  | reset =>
    obtain ⟨x₁, hreset, ht₁, -⟩ := reset_tracks kind ht.good
    have hnext : x.next kind .reset = some x₁ := hreset
    rw [Step, hnext, Option.some.injEq] at hstep
    exact hstep ▸ ht₁

theorem booted_tracks (hb : Booted kind x) : Tracks kind x ∧ x.overflowed = false := by
  obtain ⟨mem, heap, prologue_block, hpos, hreset⟩ := hb
  obtain ⟨x₁, hreset₁, ht, -, hover⟩ := reset_tracks kind
    (x := ⟨⟨⟨mem, heap, heap + JIT_HEAP_DEFAULT_SIZE, heap, fun _ => none⟩, prologue_block⟩, [],
      false⟩) (empty_good hpos)
  have hsame : x₁ = x := Option.some.inj (hreset₁.symm.trans hreset)
  exact hsame ▸ ⟨ht, hover⟩

theorem reaches_tracks (h : Reaches (Booted kind) (Step kind) x) : Tracks kind x :=
  h.invariant (fun _ hb => (booted_tracks hb).1) fun _ _ _ ht hstep => step_tracks ht hstep

theorem make_room_s {x₁ : Logged K} (hroom : x.make_room kind = some x₁) :
    make_room kind x.s = some x₁.s := by
  unfold Logged.make_room at hroom
  unfold make_room
  split_ifs at hroom ⊢
  · obtain ⟨s', hreset, rfl⟩ := Option.map_eq_some_iff.mp hroom
    exact hreset
  · rw [Option.some.inj hroom]

/-- **The code that is called** is that of the block compiled first for the key since the heap was
cleared, else that of the new block; no run dies, and the blocks are in place and apart. -/
theorem run_first (h : Reaches (Booted kind) (Step kind) x) (data : K) (b : JitBlock) :
    (∃ x₁ addr s', x.make_room kind = some x₁ ∧ run kind x.s data b = some (addr, s') ∧
      Holds s'.heap.mem addr ((replay x₁.log data).getD b).code) ∧
    (∀ k b', replay x.log k = some b' →
      ∃ r, x.s.heap.block_map k = some r ∧ Stands x.s.heap.mem r b') ∧
    ∀ k k' r r', x.s.heap.block_map k = some r → x.s.heap.block_map k' = some r' → k ≠ k' →
      r.extent.1 + r.extent.2 ≤ r'.extent.1 ∨ r'.extent.1 + r'.extent.2 ≤ r.extent.1 := by
  have ht := reaches_tracks h
  obtain ⟨x₁, hroom, ht₁, -⟩ := make_room_tracks ht
  obtain ⟨addr, s', -, hget, -, -, -, hcode, -⟩ := get_tracks ht₁ data b
  refine ⟨⟨x₁, addr, s', hroom, ?_, hcode⟩, fun k b' hk => ?_, ht.good.apart⟩
  · unfold run
    rw [make_room_s hroom]
    exact hget
  · obtain ⟨r, hr, hstands, -⟩ := ht.good.record_of hk
    exact ⟨r, hr, hstands⟩

/-- A block that an insertion of a guarded JIT always finds room for. -/
def Act.Small : Act K → Prop
  | .run _ block => block.block_size + JIT_HEAP_ALIGN ≤ JIT_MAX_BLOCK_SIZE
  | .reset => True

theorem small_kept (hguard : kind.guarded = true) {a : Act K} (ht : Tracks kind x)
    (hx : x.overflowed = false) (ha : a.Small) (hstep : Step kind x a x') :
    x'.overflowed = false := by
  cases a with
  | run data b =>
    obtain ⟨x₁, hroom, ht₁, hr₁, hover₁⟩ := make_room_tracks ht
    obtain ⟨addr, s', x₂, -, hget, -, -, -, hcause⟩ := get_tracks ht₁ data b
    have hnext : x.next kind (.run data b) = some x₂ := by
      rw [next_run, hroom, Option.bind_some, hget]
    rw [Step, hnext, Option.some.injEq] at hstep
    subst hstep
    rw [← Bool.not_eq_true]
    intro hover
    rcases hcause hover with hold | hnew
    · rw [hover₁ hx] at hold
      exact Bool.noConfusion hold
    · have := (overflows_exact (hr₁ hguard) hnew).2
      have hle : b.block_size + JIT_HEAP_ALIGN ≤ JIT_MAX_BLOCK_SIZE := ha
      omega
  | reset =>
    obtain ⟨x₁, hreset, -, -, hover⟩ := reset_tracks kind ht.good
    have hnext : x.next kind .reset = some x₁ := hreset
    rw [Step, hnext, Option.some.injEq] at hstep
    exact hstep ▸ hover

/-- **Where room is looked for first, the prologue is in place whenever it is entered**, as long as no
block is within 16 bytes of the largest size. -/
theorem prologue_kept (hguard : kind.guarded = true)
    (h : Reaches (Booted kind) (Only (fun _ a => a.Small) (Step kind)) x) :
    Holds x.s.heap.mem x.s.prologue_block kind.prologue.code := by
  have hinv : Tracks kind x ∧ x.overflowed = false := by
    refine h.invariant (I := fun x => Tracks kind x ∧ x.overflowed = false)
      (fun _ hb => booted_tracks hb) ?_
    rintro x a x' ⟨ht, hx⟩ ⟨ha, hstep⟩
    exact ⟨step_tracks ht hstep, small_kept hguard ht hx ha hstep⟩
  obtain ⟨ht, hx⟩ := hinv
  obtain ⟨hm, r, hr, hentry⟩ := ht.kept hx
  obtain ⟨r', hr', hstands, -⟩ := ht.good.record_of hm
  have hsame : r' = r := Option.some.inj (hr'.symm.trans hr)
  subst hsame
  rw [← hentry]
  exact hstands.entered

end

/-! ### A VU JIT -/

/-- A VU JIT that was reset, its heap at 4096. -/
theorem vu_boots : ∃ x, Booted (VU_JIT64 push) x := by
  obtain ⟨x, hreset, -⟩ := reset_tracks (VU_JIT64 push)
    (x := ⟨⟨⟨fun _ => 0, 4096, 4096 + JIT_HEAP_DEFAULT_SIZE, 4096, fun _ => none⟩, 0⟩, [], false⟩)
    (empty_good (by decide))
  exact ⟨x, fun _ => 0, 4096, 0, by decide, hreset⟩

theorem run_first_vu : ∃ x, Booted (VU_JIT64 push) x ∧
    (∃ x₁ addr s', x.make_room (VU_JIT64 push) = some x₁ ∧
      run (VU_JIT64 push) x.s ⟨0, 0xFFFFFFFF, 0, 0, 0⟩ push = some (addr, s') ∧
      Holds s'.heap.mem addr ((replay x₁.log ⟨0, 0xFFFFFFFF, 0, 0, 0⟩).getD push).code) ∧
    (∀ k b', replay x.log k = some b' →
      ∃ r, x.s.heap.block_map k = some r ∧ Stands x.s.heap.mem r b') ∧
    ∀ k k' r r', x.s.heap.block_map k = some r → x.s.heap.block_map k' = some r' → k ≠ k' →
      r.extent.1 + r.extent.2 ≤ r'.extent.1 ∨ r'.extent.1 + r'.extent.2 ≤ r.extent.1 := by
  obtain ⟨x, hb⟩ := vu_boots
  exact ⟨x, hb, run_first (Reaches.start hb) ⟨0, 0xFFFFFFFF, 0, 0, 0⟩ push⟩

theorem prologue_kept_vu : ∃ x, Booted (VU_JIT64 push) x ∧
    Holds x.s.heap.mem x.s.prologue_block push.code := by
  obtain ⟨x, hb⟩ := vu_boots
  exact ⟨x, hb, prologue_kept rfl (Reaches.start hb)⟩

end DobieStation.JitHeap.StackHeap
