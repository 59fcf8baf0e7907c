import DobieStation.Lib.FirstResult
import DobieStation.JitHeap.Model

/-! # Compiled blocks

What the JITs put into their heaps, and the records they keep of it. -/

namespace DobieStation.JitHeap.Blocks

open DobieStation.Lib.Memory DobieStation.Lib.FirstResult

def JIT_MAX_BLOCK_CODESIZE : ℕ := 1024 * 4096

def JIT_MAX_BLOCK_LITERALSIZE : ℕ := 1024 * 1024

/-- A block as it was emitted: its literals, and the code behind them. `write` dies where there would
be more, and every block starts with a prologue. -/
structure JitBlock where
  literals : List (BitVec 8)
  code : List (BitVec 8)
  literals_fit : literals.length ≤ JIT_MAX_BLOCK_LITERALSIZE
  code_fits : code.length < JIT_MAX_BLOCK_CODESIZE
  nonempty : 0 < code.length

def JitBlock.bytes (b : JitBlock) : List (BitVec 8) := b.literals ++ b.code

/-- `code_end - literals_start`. -/
def JitBlock.block_size (b : JitBlock) : ℕ := b.bytes.length

structure JitBlockRecord (T : Type*) where
  literals_start : ℕ
  code_start : ℕ
  code_end : ℕ
  block_data : T
  deriving DecidableEq, Repr

/-- The record of a block that was copied to `dest`. -/
def JitBlock.record {T : Type*} (b : JitBlock) (dest : ℕ) (data : T) : JitBlockRecord T :=
  ⟨dest, dest + b.literals.length, dest + b.literals.length + b.code.length, data⟩

/-- `push rbp`. -/
def push : JitBlock := ⟨[], [0x55], Nat.zero_le _, by decide, by decide⟩

section
variable {T : Type*} {mem mem' : Bytes} {r : JitBlockRecord T} {b : JitBlock}

theorem block_size_eq (b : JitBlock) : b.block_size = b.literals.length + b.code.length :=
  List.length_append

theorem block_size_pos (b : JitBlock) : 0 < b.block_size := by
  have := b.nonempty
  rw [block_size_eq]
  omega

theorem block_size_lt (b : JitBlock) :
    b.block_size < JIT_MAX_BLOCK_CODESIZE + JIT_MAX_BLOCK_LITERALSIZE := by
  have h1 := b.literals_fit
  have h2 := b.code_fits
  rw [block_size_eq]
  omega

/-- Where a record says that a block is, and how large. -/
def JitBlockRecord.extent (r : JitBlockRecord T) : ℕ × ℕ :=
  (r.literals_start, r.code_end - r.literals_start)

/-- The block stands where its record says. -/
structure Stands (mem : Bytes) (r : JitBlockRecord T) (b : JitBlock) : Prop where
  bytes : Holds mem r.literals_start b.bytes
  code : r.code_start = r.literals_start + b.literals.length
  last : r.code_end = r.literals_start + b.block_size

theorem Stands.extent_eq (hb : Stands mem r b) : r.extent = (r.literals_start, b.block_size) := by
  unfold JitBlockRecord.extent
  rw [hb.last, Nat.add_sub_cancel_left]

theorem Stands.congr (hb : Stands mem r b)
    (hm : ∀ p, r.extent.1 ≤ p → p < r.extent.1 + r.extent.2 → mem' p = mem p) :
    Stands mem' r b := by
  rw [hb.extent_eq] at hm
  exact ⟨hb.bytes.congr hm, hb.code, hb.last⟩

/-- A jump to `code_start` enters the code. -/
theorem Stands.entered (hb : Stands mem r b) : Holds mem r.code_start b.code := by
  rw [hb.code]
  exact hb.bytes.right

theorem stands_copy (mem : Bytes) (b : JitBlock) (dest : ℕ) (data : T) :
    Stands (copy mem dest b.bytes) (b.record dest data) b := by
  refine ⟨holds_copy, rfl, ?_⟩
  rw [block_size_eq, ← Nat.add_assoc]
  rfl

end

end DobieStation.JitHeap.Blocks

/-! # The block cache of the EE JIT

The rest of `EEJitHeap`: the records of the compiled blocks, by page, and the allocator under them.
A pointer to a page record is the `id` of its node, and one to a block record is that with an index:
a node and its array are deleted together, and no node has the id of another. A null pointer read
through, a pointer to what was deleted and a failed assertion are `none`. -/

namespace DobieStation.JitHeap.PageRecords

open DobieStation.Lib.FirstResult DobieStation.JitHeap.Model DobieStation.JitHeap.Model.EEJitHeap
open DobieStation.JitHeap.Blocks

/-! ### The model -/

structure EEJitBlockRecordData where
  pc : ℕ
  deriving DecidableEq, Repr

abbrev EEJitBlockRecord := JitBlockRecord EEJitBlockRecordData

/-- What `memset` leaves. -/
def zero : EEJitBlockRecord := ⟨0, 0, 0, ⟨0⟩⟩

structure EEPageRecord where
  block_array : Option (ℕ → EEJitBlockRecord)
  valid : Bool

/-- A node of `ee_page_record_map`. -/
structure Node where
  id : ℕ
  page : ℕ
  record : EEPageRecord

/-- Of a new node. -/
def EEPageRecord.empty : EEPageRecord := ⟨none, false⟩

/-- The array that a record is written to, a new one where there is none, and `valid`. -/
def EEPageRecord.ready (r : EEPageRecord) : (ℕ → EEJitBlockRecord) × Bool :=
  match r.block_array with
  | some arr => (arr, r.valid)
  | none => (fun _ => zero, true)

/-- `-1`, as it is compared to a page. -/
def NO_PAGE : ℕ := 0xFFFFFFFF

structure BlockCache where
  heap : EEJitHeap
  map : List Node
  next_id : ℕ
  ee_page_lookup_cache : ℕ
  ee_page_lookup_idx : ℕ
  lookup_cache : ℕ → Option (ℕ × ℕ)

namespace BlockCache

variable (c : BlockCache)

def find_page (page : ℕ) : Option Node := c.map.find? fun n => n.page = page

/-- `*rec`. -/
def deref (id : ℕ) : Option Node := c.map.find? fun n => n.id = id

/-- The record that a pointer points to. -/
def deref_block (ptr : ℕ × ℕ) : Option EEJitBlockRecord := do
  let n ← c.deref ptr.1
  let arr ← n.record.block_array
  return arr ptr.2

def lookup_ee_page (page : ℕ) : ℕ × BlockCache :=
  if c.ee_page_lookup_idx = page then (c.ee_page_lookup_cache, c)
  else match c.find_page page with
    | some n => (n.id, { c with ee_page_lookup_cache := n.id, ee_page_lookup_idx := page })
    | none =>
      (c.next_id,
        { c with
          map := ⟨c.next_id, page, .empty⟩ :: c.map
          next_id := c.next_id + 1
          ee_page_lookup_cache := c.next_id
          ee_page_lookup_idx := page })

def free_array (h : EEJitHeap) (arr : ℕ → EEJitBlockRecord) : Option EEJitHeap :=
  (List.range 1024).foldlM (fun h idx =>
    if (arr idx).literals_start ≠ 0 then h.jit_free (arr idx).literals_start else some h) h

def invalidate_ee_page (page : ℕ) : Option BlockCache := do
  let c ← match c.find_page page with
    | some n => do
      let heap ← match n.record.block_array with
        | some arr => free_array c.heap arr
        | none => some c.heap
      pure { c with heap := heap, map := c.map.filter fun n => n.page ≠ page }
    | none => pure c
  if page = c.ee_page_lookup_idx then
    return { c with ee_page_lookup_cache := 0, ee_page_lookup_idx := NO_PAGE }
  else return c

def find_block (pc : ℕ) : Option (Option (ℕ × ℕ) × BlockCache) := do
  let page := pc / 4096
  let idx := (pc - 4096 * page) / 4
  let (id, c) := c.lookup_ee_page page
  let page_rec ← c.deref id
  match page_rec.record.block_array with
  | some arr => return (if (arr idx).literals_start ≠ 0 then some (id, idx) else none, c)
  | none => return (none, c)

/-- `iterate` is the order in which the pages come up. -/
def flush_all_blocks (iterate : List Node → List Node) : Option BlockCache := do
  let heap ← (iterate c.map).foldlM (fun h n => do free_array h (← n.record.block_array)) c.heap
  return { c with
    heap := heap
    lookup_cache := fun _ => none
    map := []
    ee_page_lookup_cache := 0
    ee_page_lookup_idx := NO_PAGE }

/-- The memory for a block, if need be after a flush. -/
def allocate (iterate : List Node → List Node) (block_size : ℕ) : Option (ℕ × BlockCache) := do
  let (dest, heap) ← c.heap.jit_malloc block_size
  let c := { c with heap := heap }
  if dest = 0 then
    let c ← c.flush_all_blocks iterate
    let (dest, heap) ← c.heap.jit_malloc block_size
    return (dest, { c with heap := heap })
  else return (dest, c)

def set_record (id : ℕ) (record : EEPageRecord) : BlockCache :=
  { c with map := c.map.map fun n => if n.id = id then { n with record := record } else n }

def insert_block (iterate : List Node → List Node) (pc : ℕ) (block : JitBlock) :
    Option ((ℕ × ℕ) × BlockCache) := do
  check (0 < block.block_size)
  let (dest, c) ← c.allocate iterate block.block_size
  check (dest ≠ 0)
  let c := { c with heap := { c.heap with mem := copy c.heap.mem dest block.bytes } }
  let record : EEJitBlockRecord := block.record dest ⟨pc⟩
  let page := pc / 4096
  let (id, c) := c.lookup_ee_page page
  let page_record ← c.deref id
  let (arr, valid) := page_record.record.ready
  let idx := (pc - 4096 * page) / 4
  check (idx < 1024)
  return ((id, idx), c.set_record id ⟨some (Function.update arr idx record), valid⟩)

end BlockCache

/-! ### What is recorded -/

/-- Words of guest memory are what blocks are found by. -/
def key (pc : ℕ) : ℕ := pc / 4

theorem page_key (pc : ℕ) : pc / 4096 = key pc / 1024 := by
  unfold key
  omega

theorem idx_key (pc : ℕ) : (pc - 4096 * (pc / 4096)) / 4 = key pc % 1024 := by
  unfold key
  omega

/-- The array of a page. -/
def array (c : BlockCache) (page : ℕ) : Option (ℕ → EEJitBlockRecord) :=
  (c.find_page page).bind fun n => n.record.block_array

/-- The record of a word. -/
def slot (c : BlockCache) (k : ℕ) : Option EEJitBlockRecord :=
  (array c (k / 1024)).bind fun arr =>
    if (arr (k % 1024)).literals_start ≠ 0 then some (arr (k % 1024)) else none

/-- What is freed with an array. -/
def starts (arr : ℕ → EEJitBlockRecord) : List ℕ :=
  ((List.range 1024).map fun i => (arr i).literals_start).filter (· ≠ 0)

/-- What is freed with a page. -/
def Node.starts (n : Node) : List ℕ := (n.record.block_array.map PageRecords.starts).getD []

/-- The nodes are what they are taken for. -/
structure Indexed (c : BlockCache) : Prop where
  pages : (c.map.map Node.page).Nodup
  ids : (c.map.map Node.id).Nodup
  fresh : ∀ n ∈ c.map, n.id < c.next_id
  small : ∀ n ∈ c.map, n.page ≠ NO_PAGE
  cached : c.ee_page_lookup_idx ≠ NO_PAGE →
    ∃ n ∈ c.map, n.page = c.ee_page_lookup_idx ∧ n.id = c.ee_page_lookup_cache

section
variable {c c' : BlockCache} {n n' : Node} {page k : ℕ}

theorem find_unique {f : Node → ℕ} {l : List Node} (h : (l.map f).Nodup) (hn : n ∈ l) :
    (l.find? fun m => f m = f n) = some n := by
  induction l with
  | nil => exact absurd hn List.not_mem_nil
  | cons a l ih =>
    rw [List.map_cons, List.nodup_cons] at h
    rcases List.mem_cons.mp hn with rfl | hn
    · exact List.find?_cons_of_pos (by simp)
    · have hne : f a ≠ f n := fun he => h.1 (he ▸ List.mem_map_of_mem hn)
      rw [List.find?_cons_of_neg (by simpa using hne)]
      exact ih h.2 hn

theorem find_page_eq (hi : Indexed c) (hn : n ∈ c.map) : c.find_page n.page = some n :=
  find_unique (f := Node.page) hi.pages hn

theorem deref_eq (hi : Indexed c) (hn : n ∈ c.map) : c.deref n.id = some n :=
  find_unique (f := Node.id) hi.ids hn

theorem find_page_some (h : c.find_page page = some n) : n ∈ c.map ∧ n.page = page :=
  ⟨List.mem_of_find?_eq_some h, by simpa using List.find?_some h⟩

theorem find_page_none (h : c.find_page page = none) (hn : n ∈ c.map) : n.page ≠ page := by
  simpa using List.find?_eq_none.mp h n hn

/-- Pages and ids are names of the same nodes. -/
theorem page_eq_iff (hi : Indexed c) (hn : n ∈ c.map) (hn' : n' ∈ c.map) :
    n.page = n'.page ↔ n.id = n'.id := by
  constructor
  · intro h
    have := (find_page_eq hi hn).symm.trans ((congrArg c.find_page h).trans (find_page_eq hi hn'))
    rw [Option.some.inj this]
  · intro h
    have := (deref_eq hi hn).symm.trans ((congrArg c.deref h).trans (deref_eq hi hn'))
    rw [Option.some.inj this]

theorem array_eq (hi : Indexed c) (hn : n ∈ c.map) : array c n.page = n.record.block_array := by
  unfold array
  rw [find_page_eq hi hn, Option.bind_some]

theorem array_none (h : ∀ n ∈ c.map, n.page ≠ page) : array c page = none := by
  unfold array
  cases hf : c.find_page page with
  | none => rfl
  | some n =>
    obtain ⟨hn, hp⟩ := find_page_some hf
    exact absurd hp (h n hn)

/-- Nothing but a new page without an array. -/
structure Extends (c c' : BlockCache) (page : ℕ) : Prop where
  heap : c'.heap = c.heap
  lookup_cache : c'.lookup_cache = c.lookup_cache
  old : ∀ n ∈ c.map, n ∈ c'.map
  new : ∀ n ∈ c'.map, n ∈ c.map ∨
    n.page = page ∧ n.record.block_array = none ∧ ∀ n' ∈ c.map, n'.page ≠ page

theorem Extends.array_eq (h : Extends c c' page) (hi : Indexed c) (hi' : Indexed c') (p : ℕ) :
    array c' p = array c p := by
  cases hf : c'.find_page p with
  | none =>
    have hnone := fun n hn => find_page_none hf (h.old n hn)
    rw [array_none fun n hn => find_page_none hf hn, array_none hnone]
  | some n =>
    obtain ⟨hn, rfl⟩ := find_page_some hf
    rw [PageRecords.array_eq hi' hn]
    rcases h.new n hn with hold | ⟨rfl, hnone, hnew⟩
    · rw [PageRecords.array_eq hi hold]
    · rw [array_none hnew, hnone]

/-- **The node of a page**, and a new one where there is none. -/
theorem lookup_spec (hi : Indexed c) (hp : page ≠ NO_PAGE) :
    ∃ n c', c.lookup_ee_page page = (n.id, c') ∧ n ∈ c'.map ∧ n.page = page ∧ Indexed c' ∧
      Extends c c' page := by
  unfold BlockCache.lookup_ee_page
  by_cases hidx : c.ee_page_lookup_idx = page
  · obtain ⟨n, hn, hnp, hnid⟩ := hi.cached (by rw [hidx]; exact hp)
    exact ⟨n, c, by rw [if_pos hidx, hnid], hn, hnp.trans hidx, hi, rfl, rfl, fun _ h => h,
      fun _ h => Or.inl h⟩
  · rw [if_neg hidx]
    cases hf : c.find_page page with
    | some n =>
      obtain ⟨hn, rfl⟩ := find_page_some hf
      exact ⟨n, _, rfl, hn, rfl, ⟨hi.pages, hi.ids, hi.fresh, hi.small, fun _ => ⟨n, hn, rfl, rfl⟩⟩,
        rfl, rfl, fun _ h => h, fun _ h => Or.inl h⟩
    | none =>
      have hnew := fun n (hn : n ∈ c.map) => find_page_none hf hn
      refine ⟨⟨c.next_id, page, .empty⟩, _, rfl, List.mem_cons_self, rfl, ⟨?_, ?_, ?_, ?_, ?_⟩, rfl,
        rfl, fun _ h => List.mem_cons_of_mem _ h, fun n hn => ?_⟩
      · refine List.nodup_cons.mpr ⟨fun hmem => ?_, hi.pages⟩
        obtain ⟨n, hn, hnp⟩ := List.mem_map.mp hmem
        exact hnew n hn hnp
      · refine List.nodup_cons.mpr ⟨fun hmem => ?_, hi.ids⟩
        obtain ⟨n, hn, hnid⟩ := List.mem_map.mp hmem
        have hlt := hi.fresh n hn
        dsimp only at hnid
        omega
      · intro n hn
        rcases List.mem_cons.mp hn with rfl | hn
        · exact Nat.lt_succ_self _
        · exact Nat.lt_succ_of_lt (hi.fresh n hn)
      · intro n hn
        rcases List.mem_cons.mp hn with rfl | hn
        · exact hp
        · exact hi.small n hn
      · exact fun _ => ⟨_, List.mem_cons_self, rfl, rfl⟩
      · rcases List.mem_cons.mp hn with rfl | hn
        · exact Or.inr ⟨rfl, rfl, hnew⟩
        · exact Or.inl hn

/-- A page record is written. -/
theorem set_record_map (id : ℕ) (r : EEPageRecord) (hn : n' ∈ (c.set_record id r).map) :
    ∃ n₀ ∈ c.map, n'.page = n₀.page ∧ n'.id = n₀.id ∧
      n'.record = if n₀.id = id then r else n₀.record := by
  obtain ⟨n₀, hn₀, rfl⟩ := List.mem_map.mp hn
  refine ⟨n₀, hn₀, ?_, ?_, ?_⟩ <;> split_ifs <;> rfl

theorem set_record_keeps (id : ℕ) (r : EEPageRecord) (hn : n ∈ c.map) :
    ∃ n' ∈ (c.set_record id r).map, n'.page = n.page ∧ n'.id = n.id ∧
      n'.record = if n.id = id then r else n.record := by
  refine ⟨_, List.mem_map_of_mem hn, ?_, ?_, ?_⟩ <;> split_ifs <;> rfl

theorem set_record_indexed (hi : Indexed c) (id : ℕ) (r : EEPageRecord) :
    Indexed (c.set_record id r) := by
  have hpages : (c.set_record id r).map.map Node.page = c.map.map Node.page := by
    unfold BlockCache.set_record
    rw [List.map_map]
    refine List.map_congr_left fun n _ => ?_
    rw [Function.comp_apply]
    split_ifs <;> rfl
  have hids : (c.set_record id r).map.map Node.id = c.map.map Node.id := by
    unfold BlockCache.set_record
    rw [List.map_map]
    refine List.map_congr_left fun n _ => ?_
    rw [Function.comp_apply]
    split_ifs <;> rfl
  refine ⟨hpages ▸ hi.pages, hids ▸ hi.ids, ?_, ?_, fun hne => ?_⟩
  · intro n hn
    obtain ⟨n₀, hn₀, -, hid, -⟩ := set_record_map id r hn
    rw [hid]
    exact hi.fresh n₀ hn₀
  · intro n hn
    obtain ⟨n₀, hn₀, hpage, -⟩ := set_record_map id r hn
    rw [hpage]
    exact hi.small n₀ hn₀
  · obtain ⟨n, hn, hnp, hnid⟩ := hi.cached hne
    obtain ⟨n', hn', hpage, hid, -⟩ := set_record_keeps id r hn
    exact ⟨n', hn', hpage.trans hnp, hid.trans hnid⟩

theorem set_record_array (hi : Indexed c) (hn : n ∈ c.map) (r : EEPageRecord) (p : ℕ) :
    array (c.set_record n.id r) p = if p = n.page then r.block_array else array c p := by
  have hi' := set_record_indexed hi n.id r
  cases hf : c.find_page p with
  | none =>
    have hnone := fun n' hn' => find_page_none hf (n := n') hn'
    rw [if_neg (Ne.symm (hnone n hn)), array_none hnone, array_none]
    intro n' hn'
    obtain ⟨n₀, hn₀, hpage, -⟩ := set_record_map n.id r hn'
    rw [hpage]
    exact hnone n₀ hn₀
  | some m =>
    obtain ⟨hm, rfl⟩ := find_page_some hf
    obtain ⟨m', hm', hpage, -, hrec⟩ := set_record_keeps n.id r hm
    rw [← hpage, PageRecords.array_eq hi' hm', hpage, PageRecords.array_eq hi hm, hrec]
    simp only [← page_eq_iff hi hm hn]
    split_ifs <;> rfl

end

end DobieStation.JitHeap.PageRecords
