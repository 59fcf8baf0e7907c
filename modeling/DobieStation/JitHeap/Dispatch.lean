import DobieStation.JitHeap.Insertion

/-! # The dispatcher of the EE JIT

`EE_JIT64`'s way from a guest address to compiled code: the dispatcher that it emits looks in
`lookup_cache`, and where that fails `exec_block_ee` looks for the page record and compiles. What the
recompiler would emit at the time is given with the address. Runs go over guest addresses, resets and
pages that the guest writes to. -/

namespace DobieStation.JitHeap.Dispatch

open DobieStation.Lib.Memory DobieStation.Lib.Reach DobieStation.Lib.FirstResult
open DobieStation.JitHeap.Model DobieStation.JitHeap.Model.EEJitHeap
open DobieStation.JitHeap.Safety DobieStation.JitHeap.Coalescing DobieStation.JitHeap.PageRecords
open DobieStation.JitHeap.Blocks DobieStation.JitHeap.Insertion

/-! ### The model -/

/-- An order in which the pages of the map may come up. -/
structure Order where
  order : List Node → List Node
  perm : ∀ l, (order l).Perm l

structure Jit where
  cache : BlockCache
  tlb_modified : ℕ → Bool
  prologue_block : ℕ

namespace Jit

variable (s : Jit)

/-- `lookup_cache[(pc >> 2) & 0x7FFF]`. -/
def lookup_index (pc : ℕ) : ℕ := pc / 4 % 0x8000

/-- `if(is_modified || recompiledBlock == nullptr)`, compiled anew. -/
def recompiled (o : Order) (pc : ℕ) (block : JitBlock) (c : BlockCache) :
    Option (ℕ × ℕ) → Bool → Option ((ℕ × ℕ) × BlockCache)
  | some ptr, false => some (ptr, c)
  | _, _ => c.insert_block o.order pc block

/-- The bounds of the pages that are invalidated are those of the source: no page is in both. -/
def exec_block_ee (o : Order) (pc : ℕ) (block : JitBlock) : Option (ℕ × Jit) := do
  let (found, c) ← s.cache.find_block pc
  let ee_page := pc / 4096
  let (is_modified, c, tlb) ←
    if s.tlb_modified ee_page ∧ ee_page < 0x80000000 / 4096 ∧ 0x80040000 / 4096 ≤ ee_page then do
      let c ← c.invalidate_ee_page ee_page
      pure (true, c, Function.update s.tlb_modified ee_page false)
    else pure (false, c, s.tlb_modified)
  let (ptr, c) ← recompiled o pc block c found is_modified
  let r ← c.deref_block ptr
  return (r.code_start,
    { s with
      cache :=
        { c with lookup_cache := Function.update c.lookup_cache (lookup_index pc) (some ptr) }
      tlb_modified := tlb })

/-- The code that `emit_dispatcher` emits. -/
def dispatch (o : Order) (pc : ℕ) (block : JitBlock) : Option (ℕ × Jit) :=
  match s.cache.lookup_cache (lookup_index pc) with
  | none => s.exec_block_ee o pc block
  | some ptr => do
    let r ← s.cache.deref_block ptr
    if r.block_data.pc = pc then return (r.code_start, s) else s.exec_block_ee o pc block

def create_prologue_block (o : Order) (prologue : JitBlock) : Option Jit := do
  let (ptr, c) ← s.cache.insert_block o.order 0xFFFFFFFF prologue
  let r ← c.deref_block ptr
  return { s with cache := c, prologue_block := r.code_start }

/-- With `clear_cache`. -/
def reset (o : Order) (prologue : JitBlock) : Option Jit := do
  let c ← s.cache.flush_all_blocks o.order
  { s with cache := c }.create_prologue_block o prologue

end Jit

/-! ### One dispatch -/

/-- The word of the prologue block. -/
def PROLOGUE : ℕ := key 0xFFFFFFFF

/-- There is no memory for so many bytes. -/
def Full (c : BlockCache) (size : ℕ) : Prop := (c.heap.jit_malloc size).map Prod.fst = some 0

instance (c : BlockCache) (size : ℕ) : Decidable (Full c size) := by unfold Full; infer_instance

theorem block_size_le (b : JitBlock) :
    b.block_size ≤ 2 ^ 64 - 16 ∧ granted b.block_size ≤ EE_JIT_HEAP_SIZE - 16 := by
  have hlt := block_size_lt b
  have h16 : JIT_ALLOC_ALIGN = 16 := rfl
  have h256 : get_min_bin_size 0 = 256 := rfl
  have h64 := heap_size_eq
  unfold JIT_MAX_BLOCK_LITERALSIZE JIT_MAX_BLOCK_CODESIZE at hlt
  unfold granted aligned_size
  rw [h16, h256]
  omega

section
variable {c : BlockCache} {s : Jit} {m : ℕ → Option JitBlock} {o : Order} {pc : ℕ} {b : JitBlock}
  {ptr : ℕ × ℕ}

/-- Memory is found, or the heap is full. -/
theorem full_or (hg : Good c m Nothing) (b : JitBlock) :
    Full c b.block_size ∨
      ∃ dest h, c.heap.jit_malloc b.block_size = some (dest, h) ∧ dest ≠ 0 := by
  obtain ⟨live, blocks, chains, hs, -⟩ := hg.stocked.sound
  obtain ⟨⟨dest, h⟩, hr, -⟩ := malloc_exact hs (block_size_le b).1
  have hr : c.heap.jit_malloc b.block_size = some (dest, h) := hr
  rcases eq_or_ne dest 0 with rfl | h0
  · left
    rw [Full, hr]
    rfl
  · exact Or.inr ⟨dest, h, hr, h0⟩

/-- What an insertion leaves. -/
structure Inserted (c c' : BlockCache) (m : ℕ → Option JitBlock) (pc : ℕ) (b : JitBlock)
    (ptr : ℕ × ℕ) (r : EEJitBlockRecord) : Prop where
  good : Good c' (Function.update m (key pc) (some b)) Nothing
  points : Points c' ptr (key pc)
  recorded : slot c' (key pc) = some r
  pc : r.block_data.pc = pc
  base : c'.heap.heap = c.heap.heap
  furnished : Furnished c'

/-- Where there is memory. -/
theorem insert_roomy (hg : Good c m Nothing) (hpc : pc / 4096 ≠ NO_PAGE) (hm : m (key pc) = none)
    (hbare : ∀ n ∈ c.map, n.record.block_array = none → n.page = key pc / 1024) {dest : ℕ}
    {h : EEJitHeap} (hr : c.heap.jit_malloc b.block_size = some (dest, h)) (h0 : dest ≠ 0) :
    ∃ ptr c' r, c.insert_block o.order pc b = some (ptr, c') ∧ Inserted c c' m pc b ptr r ∧
      r.literals_start = dest ∧ ∀ k, k ≠ key pc → slot c' k = slot c k := by
  obtain ⟨hg₁, hheap⟩ := malloc_good hg (block_size_le b).1 hr h0
  obtain ⟨ptr, c', r, hfill, hgood, hp, hslot, hstart, hrpc, hothers, hbase, hfurn⟩ :=
    fill_spec hg₁ h0 hpc hm
  refine ⟨ptr, c', r, ?_, ⟨hgood, hp, hslot, hrpc, hbase.trans hheap, hfurn hbare⟩, hstart,
    hothers⟩
  rw [insert_eq, allocate_eq hr h0, Option.bind_some, hfill]

/-- Where there is none, and every page has an array: all blocks are gone but the new one. -/
theorem insert_full (hg : Good c m Nothing) (hpc : pc / 4096 ≠ NO_PAGE) (hf : Furnished c)
    (hfull : Full c b.block_size) :
    ∃ ptr c' r, c.insert_block o.order pc b = some (ptr, c') ∧
      Inserted c c' (fun _ => none) pc b ptr r ∧ r.literals_start = c.heap.heap + 8 := by
  obtain ⟨⟨dest, h⟩, hr, hdest⟩ := Option.map_eq_some_iff.mp hfull
  have hdest : dest = 0 := hdest
  subst hdest
  obtain ⟨hsize, hle⟩ := block_size_le b
  obtain ⟨c₁, halloc, hg₁, hbase₁, hmap⟩ := allocate_full hg hsize hle hr hf (o.perm c.map)
  obtain ⟨ptr, c', r, hfill, hgood, hp, hslot, hstart, hrpc, -, hbase, hfurn⟩ :=
    fill_spec hg₁ (Nat.succ_ne_zero _) hpc rfl
  refine ⟨ptr, c', r, ?_, ⟨hgood, hp, hslot, hrpc, hbase.trans hbase₁, hfurn ?_⟩, hstart⟩
  · rw [insert_eq, halloc, Option.bind_some, hfill]
  · rw [hmap]
    exact fun n hn => absurd hn List.not_mem_nil

/-- Where there is none, and a page has no array: a null pointer is read through. -/
theorem insert_fault (hg : Good c m Nothing) (hf : ¬ Furnished c) (hfull : Full c b.block_size) :
    c.insert_block o.order pc b = none := by
  obtain ⟨⟨dest, h⟩, hr, hdest⟩ := Option.map_eq_some_iff.mp hfull
  have hdest : dest = 0 := hdest
  subst hdest
  rw [insert_eq, allocate_fault hg (block_size_le b).1 hr hf (o.perm c.map)]
  rfl

/-- A pointer to a record may be put into `lookup_cache`. -/
theorem remember_good (hg : Good c m Nothing) {k : ℕ} (hp : Points c ptr k) (hne : slot c k ≠ none)
    (i : ℕ) :
    Good { c with lookup_cache := Function.update c.lookup_cache i (some ptr) } m Nothing := by
  have hslot : ∀ k, slot { c with lookup_cache := Function.update c.lookup_cache i (some ptr) } k =
      slot c k := slot_congr fun _ => rfl
  refine ⟨⟨hg.indexed.pages, hg.indexed.ids, hg.indexed.fresh, hg.indexed.small,
    hg.indexed.cached⟩, ⟨hg.stocked.sound, hg.stocked.apart, hg.stocked.aside⟩, hg.recorded, ?_⟩
  intro j ptr' hptr'
  rcases eq_or_ne j i with rfl | hj
  · dsimp only at hptr'
    rw [Function.update_self, Option.some.injEq] at hptr'
    subst hptr'
    exact ⟨k, hp, hne⟩
  · dsimp only at hptr'
    rw [Function.update_of_ne hj] at hptr'
    exact hg.lookup j ptr' hptr'

/-- What a dispatch that gives `addr` leaves: the table `m'`, and the code of `b` at the address. -/
structure Dispatched (s s' : Jit) (m' : ℕ → Option JitBlock) (k : ℕ) (b : JitBlock) (addr : ℕ) :
    Prop where
  good : Good s'.cache m' Nothing
  furnished : Furnished s'.cache
  base : s'.cache.heap.heap = s.cache.heap.heap
  prologue : s'.prologue_block = s.prologue_block
  stored : m' k = some b
  code : Holds s'.cache.heap.mem addr b.code

theorem Extends.furnished {c' : BlockCache} {page : ℕ} (he : Extends c c' page) (hf : Furnished c)
    (hold : ∃ n ∈ c.map, n.page = page) : Furnished c' := by
  obtain ⟨n₀, hn₀, hp⟩ := hold
  intro n hn
  rcases he.new n hn with hn | ⟨-, -, hnew⟩
  · exact hf n hn
  · exact absurd hp (hnew n₀ hn₀)

/-- No page is in the bounds that the source has for one to be invalidated. -/
theorem exec_block_eq : s.exec_block_ee o pc b = (s.cache.find_block pc).bind fun r =>
    (Jit.recompiled o pc b r.2 r.1 false).bind fun r =>
    (r.2.deref_block r.1).map fun (record : EEJitBlockRecord) =>
      (record.code_start,
        ({ s with
          cache := { r.2 with
            lookup_cache :=
              Function.update r.2.lookup_cache (Jit.lookup_index pc) (some r.1) } } : Jit)) := by
  have hguard : ¬ (s.tlb_modified (pc / 4096) = true ∧ pc / 4096 < 0x80000000 / 4096 ∧
      0x80040000 / 4096 ≤ pc / 4096) := by
    omega
  unfold Jit.exec_block_ee
  simp only [Option.bind_eq_bind, Option.pure_def]
  refine congrArg _ (funext fun r => ?_)
  obtain ⟨found, c⟩ := r
  dsimp only
  rw [if_neg hguard]
  simp only [Option.bind_some]
  refine congrArg _ (funext fun r => ?_)
  rw [Option.map_eq_bind]
  rfl

/-- The record is read, and remembered. -/
theorem finish {c' : BlockCache} {k : ℕ} {r : EEJitBlockRecord} (hg : Good c' m Nothing)
    (hf : Furnished c') (hbase : c'.heap.heap = s.cache.heap.heap) (hp : Points c' ptr k)
    (hslot : slot c' k = some r) (hm : m k = some b) (i : ℕ) :
    c'.deref_block ptr = some r ∧
    Dispatched s { s with
      cache := { c' with lookup_cache := Function.update c'.lookup_cache i (some ptr) } } m k b
        r.code_start := by
  refine ⟨deref_block_eq hg.indexed hp hslot, ?_⟩
  have hne : slot c' k ≠ none := by
    rw [hslot]
    exact Option.some_ne_none r
  obtain ⟨r', hr', -, hstands⟩ := hg.slot_of hm
  have hsame : r' = r := Option.some.inj (hr'.symm.trans hslot)
  subst hsame
  exact ⟨remember_good hg hp hne i, hf, hbase, rfl, hm, hstands.entered⟩

theorem exec_hit {b₀ : JitBlock} (hg : Good s.cache m Nothing) (hf : Furnished s.cache)
    (hpc : pc / 4096 ≠ NO_PAGE) (hm : m (key pc) = some b₀) :
    ∃ addr s', s.exec_block_ee o pc b = some (addr, s') ∧
      Dispatched s s' m (key pc) b₀ addr ∧ ∀ k, slot s'.cache k = slot s.cache k := by
  obtain ⟨found, c', hfind, hg', he, -, hpoints, hnone⟩ := find_block_spec hg hpc
  obtain ⟨ptr, rfl⟩ : ∃ ptr, found = some ptr := by
    refine Option.ne_none_iff_exists'.mp fun h => ?_
    exact absurd (hm.symm.trans (hnone.mp h)) (Option.some_ne_none b₀)
  obtain ⟨r, hslot, -⟩ := hg'.slot_of hm
  obtain ⟨r₀, hslot₀, -⟩ := hg.slot_of hm
  obtain ⟨-, n₀, hn₀, hp₀, -⟩ := slot_some hslot₀
  have hbase : c'.heap.heap = s.cache.heap.heap := by rw [he.heap]
  obtain ⟨hderef, hdone⟩ := finish (s := s) hg' (Extends.furnished he hf ⟨n₀, hn₀, hp₀⟩) hbase
    (hpoints ptr rfl) hslot hm (Jit.lookup_index pc)
  refine ⟨_, _, ?_, hdone, slot_congr (he.array_eq hg.indexed hg'.indexed)⟩
  rw [exec_block_eq, hfind, Option.bind_some, Jit.recompiled, Option.bind_some, hderef,
    Option.map_some]

/-- A block that was not there is compiled, where the insertion goes well. -/
theorem exec_miss {c' : BlockCache} (hfind : s.cache.find_block pc = some (none, c'))
    {c'' : BlockCache} {m' : ℕ → Option JitBlock} {r : EEJitBlockRecord}
    (hinsert : c'.insert_block o.order pc b = some (ptr, c''))
    (hdone : Inserted c' c'' m' pc b ptr r) (hbase : c'.heap.heap = s.cache.heap.heap) :
    ∃ addr s', s.exec_block_ee o pc b = some (addr, s') ∧
      Dispatched s s' (Function.update m' (key pc) (some b)) (key pc) b addr ∧
      ∀ k, slot s'.cache k = slot c'' k := by
  obtain ⟨hderef, hd⟩ := finish (s := s) hdone.good hdone.furnished (hdone.base.trans hbase)
    hdone.points hdone.recorded (Function.update_self ..) (Jit.lookup_index pc)
  refine ⟨_, _, ?_, hd, slot_congr fun _ => rfl⟩
  have hnew : Jit.recompiled o pc b c' none false = some (ptr, c'') := hinsert
  rw [exec_block_eq, hfind, Option.bind_some, hnew, Option.bind_some, hderef, Option.map_some]

/-- A word without a block is always looked for the long way. -/
theorem dispatch_slow (hg : Good s.cache m Nothing) (hm : m (key pc) = none) :
    s.dispatch o pc b = s.exec_block_ee o pc b := by
  unfold Jit.dispatch
  cases hl : s.cache.lookup_cache (Jit.lookup_index pc) with
  | none => rfl
  | some ptr =>
    obtain ⟨k, hp, hne⟩ := hg.lookup _ _ hl
    obtain ⟨r, hr⟩ := Option.ne_none_iff_exists'.mp hne
    have hrec := hg.recorded k
    rw [hr] at hrec
    cases hmk : m k with
    | none =>
      rw [hmk] at hrec
      exact hrec.elim
    | some b' =>
      rw [hmk] at hrec
      have hpc : r.block_data.pc ≠ pc := by
        rintro rfl
        rw [hrec.1, hmk] at hm
        exact absurd hm (Option.some_ne_none b')
      dsimp only
      rw [deref_block_eq hg.indexed hp hr]
      simp only [Option.bind_eq_bind, Option.bind_some]
      rw [if_neg hpc]

/-- **A block that the table has is dispatched to**, by either way. -/
theorem dispatch_hit {b₀ : JitBlock} (hg : Good s.cache m Nothing) (hf : Furnished s.cache)
    (hpc : pc / 4096 ≠ NO_PAGE) (hm : m (key pc) = some b₀) :
    ∃ addr s', s.dispatch o pc b = some (addr, s') ∧ Dispatched s s' m (key pc) b₀ addr ∧
      ∀ k, slot s'.cache k = slot s.cache k := by
  unfold Jit.dispatch
  cases hl : s.cache.lookup_cache (Jit.lookup_index pc) with
  | none => exact exec_hit hg hf hpc hm
  | some ptr =>
    obtain ⟨k, hp, hne⟩ := hg.lookup _ _ hl
    obtain ⟨r, hr⟩ := Option.ne_none_iff_exists'.mp hne
    dsimp only
    rw [deref_block_eq hg.indexed hp hr]
    simp only [Option.bind_eq_bind, Option.bind_some]
    by_cases hrpc : r.block_data.pc = pc
    · rw [if_pos hrpc]
      have hrec := hg.recorded k
      rw [hr] at hrec
      cases hmk : m k with
      | none =>
        rw [hmk] at hrec
        exact hrec.elim
      | some b' =>
        rw [hmk] at hrec
        have hk : k = key pc := by rw [← hrec.1, hrpc]
        subst hk
        have hsame : b' = b₀ := Option.some.inj (hmk.symm.trans hm)
        subst hsame
        exact ⟨_, _, rfl, ⟨hg, hf, rfl, rfl, hm, hrec.2.entered⟩, fun _ => rfl⟩
    · rw [if_neg hrpc]
      exact exec_hit hg hf hpc hm

/-- **A new block where there is memory.** -/
theorem dispatch_roomy (hg : Good s.cache m Nothing) (hf : Furnished s.cache)
    (hpc : pc / 4096 ≠ NO_PAGE) (hm : m (key pc) = none)
    (hroom : ¬ Full s.cache b.block_size) :
    ∃ addr s', s.dispatch o pc b = some (addr, s') ∧
      Dispatched s s' (Function.update m (key pc) (some b)) (key pc) b addr ∧
      ∀ k, k ≠ key pc → slot s'.cache k = slot s.cache k := by
  obtain ⟨found, c', hfind, hg', he, -, -, hnone⟩ := find_block_spec hg hpc
  have hfound := hnone.mpr hm
  subst hfound
  have hfull : ¬ Full c' b.block_size := by
    unfold Full
    rw [he.heap]
    exact hroom
  obtain ⟨dest, h, hr, h0⟩ := (full_or hg' b).resolve_left hfull
  obtain ⟨ptr, c'', r, hinsert, hdone, -, hothers⟩ := insert_roomy (o := o) hg' hpc hm (fun n hn hbare => by
    rcases he.new n hn with hold | ⟨hp, -⟩
    · exact absurd hbare (hf n hold)
    · exact hp) hr h0
  obtain ⟨addr, s', hexec, hd, hslots⟩ := exec_miss hfind hinsert hdone (by rw [he.heap])
  have hsame := slot_congr (he.array_eq hg.indexed hg'.indexed)
  exact ⟨addr, s', (dispatch_slow hg hm).trans hexec, hd, fun k hk => by
    rw [hslots, hothers k hk, hsame]⟩

/-- **A new block in a full heap**, for a page that has one: all other blocks are gone. -/
theorem dispatch_full (hg : Good s.cache m Nothing) (hf : Furnished s.cache)
    (hpc : pc / 4096 ≠ NO_PAGE) (hm : m (key pc) = none) (hfull : Full s.cache b.block_size)
    (hpage : array s.cache (key pc / 1024) ≠ none) :
    ∃ addr s' r, s.dispatch o pc b = some (addr, s') ∧
      Dispatched s s' (Function.update (fun _ => none) (key pc) (some b)) (key pc) b addr ∧
      slot s'.cache (key pc) = some r ∧ r.literals_start = s.cache.heap.heap + 8 := by
  obtain ⟨found, c', hfind, hg', he, -, -, hnone⟩ := find_block_spec hg hpc
  have hfound := hnone.mpr hm
  subst hfound
  have hold : ∃ n ∈ s.cache.map, n.page = key pc / 1024 := by
    by_contra hno
    exact hpage (array_none fun n hn hp => hno ⟨n, hn, hp⟩)
  have hfull' : Full c' b.block_size := by
    unfold Full
    rw [he.heap]
    exact hfull
  have hbase : c'.heap.heap = s.cache.heap.heap := by rw [he.heap]
  obtain ⟨ptr, c'', r, hinsert, hdone, hstart⟩ :=
    insert_full (o := o) hg' hpc (Extends.furnished he hf hold) hfull'
  obtain ⟨addr, s', hexec, hd, hslots⟩ := exec_miss hfind hinsert hdone hbase
  exact ⟨addr, s', r, (dispatch_slow hg hm).trans hexec, hd, (hslots _).trans hdone.recorded,
    hstart.trans (by rw [hbase])⟩

/-- **A new block in a full heap**, for a page that has none: the flush reads the array that the page
has not got yet. -/
theorem dispatch_fault (hg : Good s.cache m Nothing) (hpc : pc / 4096 ≠ NO_PAGE)
    (hm : m (key pc) = none) (hfull : Full s.cache b.block_size)
    (hpage : array s.cache (key pc / 1024) = none) : s.dispatch o pc b = none := by
  obtain ⟨found, c', hfind, hg', he, ⟨n, hn, hp⟩, -, hnone⟩ := find_block_spec hg hpc
  have hfound := hnone.mpr hm
  subst hfound
  have hbare : ¬ Furnished c' := by
    intro hfurn
    have harr := array_eq hg'.indexed hn
    rw [hp, he.array_eq hg.indexed hg'.indexed, hpage] at harr
    exact hfurn n hn harr.symm
  have hfull' : Full c' b.block_size := by
    unfold Full
    rw [he.heap]
    exact hfull
  have hnew : Jit.recompiled o pc b c' none false = none := insert_fault hg' hbare hfull'
  rw [dispatch_slow hg hm, exec_block_eq, hfind, Option.bind_some, hnew]
  rfl

theorem prologue_page : (0xFFFFFFFF : ℕ) / 4096 ≠ NO_PAGE := by decide

/-- **A reset** leaves the prologue at the start of the heap, and nothing else. -/
theorem reset_spec (o : Order) (prologue : JitBlock) (hg : Good s.cache m Nothing) (hf : Furnished s.cache) :
    ∃ s' r, s.reset o prologue = some s' ∧
      Good s'.cache (Function.update (fun _ => none) PROLOGUE (some prologue)) Nothing ∧
      Furnished s'.cache ∧ slot s'.cache PROLOGUE = some r ∧
      r.literals_start = s'.cache.heap.heap + 8 ∧ s'.prologue_block = r.code_start := by
  obtain ⟨c₁, hflush, hg₁, hmap, hbase₁⟩ := flush_spec hg hf (o.perm s.cache.map)
  obtain ⟨hsize, hle⟩ := block_size_le prologue
  obtain ⟨h, hr⟩ := malloc_empty hg₁ hle hsize
  obtain ⟨ptr, c', r, hinsert, hdone, hstart, -⟩ := insert_roomy (o := o) hg₁ prologue_page rfl
    (fun n hn => by
      rw [hmap] at hn
      exact absurd hn List.not_mem_nil) hr (Nat.succ_ne_zero _)
  have hderef := deref_block_eq hdone.good.indexed hdone.points hdone.recorded
  refine ⟨{ s with cache := c', prologue_block := r.code_start }, r, ?_, hdone.good,
    hdone.furnished, hdone.recorded, ?_, rfl⟩
  · unfold Jit.reset Jit.create_prologue_block
    rw [hflush]
    simp only [Option.bind_eq_bind, Option.bind_some, hinsert, hderef]
    rfl
  · rw [hstart]
    exact congrArg (· + 8) hdone.base.symm

end

/-! ### Runs -/

inductive Act where
  | dispatch (o : Order) (pc : BitVec 32) (block : JitBlock)
  | reset (o : Order) (prologue : JitBlock)
  | write (page : ℕ)

def exec (s : Jit) : Act → Option Jit
  | .dispatch o pc block => (s.dispatch o pc.toNat block).map Prod.snd
  | .reset o prologue => s.reset o prologue
  | .write page => some { s with tlb_modified := Function.update s.tlb_modified page true }

/-- A block has to be compiled, and there is no memory for it. -/
def Overflows (s : Jit) (pc : BitVec 32) (block : JitBlock) : Prop :=
  slot s.cache (key pc.toNat) = none ∧ Full s.cache block.block_size

instance (s : Jit) (pc : BitVec 32) (block : JitBlock) : Decidable (Overflows s pc block) := by
  unfold Overflows
  infer_instance

/-- A run with its history: what was offered and when the heap was cleared, the prologue of the last
reset, and whether the heap was full since. -/
structure Logged where
  s : Jit
  log : List (Event ℕ JitBlock)
  prologue : JitBlock
  overflowed : Bool

def Logged.next (x : Logged) (a : Act) : Option Logged :=
  (exec x.s a).map fun s => match a with
    | .dispatch _ pc block =>
      if Overflows x.s pc block then
        ⟨s, x.log ++ [.clear] ++ [.offer (key pc.toNat) block], x.prologue, true⟩
      else ⟨s, x.log ++ [.offer (key pc.toNat) block], x.prologue, x.overflowed⟩
    | .reset _ prologue => ⟨s, x.log ++ [.clear] ++ [.offer PROLOGUE prologue], prologue, false⟩
    | .write _ => ⟨s, x.log, x.prologue, x.overflowed⟩

/-- What the constructor leaves; `lookup_cache` is not set. -/
def Constructed (s : Jit) : Prop :=
  Safety.Init ⟨s.cache.heap, []⟩ ∧ s.cache.map = [] ∧ s.cache.ee_page_lookup_idx = NO_PAGE

/-- After the first reset. -/
def Booted (x : Logged) : Prop :=
  ∃ s o, Constructed s ∧ s.reset o x.prologue = some x.s ∧
    x.log = [.offer PROLOGUE x.prologue] ∧ x.overflowed = false

def Step (x : Logged) (a : Act) (x' : Logged) : Prop := x.next a = some x'

/-- The cache holds what the history says, and the prologue is where it was put. -/
structure Tracks (x : Logged) : Prop where
  good : Good x.s.cache (replay x.log) Nothing
  furnished : Furnished x.s.cache
  entry : x.s.prologue_block = x.s.cache.heap.heap + 8 + x.prologue.literals.length
  kept : x.overflowed = false → replay x.log PROLOGUE = some x.prologue ∧
    ∃ r, slot x.s.cache PROLOGUE = some r ∧ r.code_start = x.s.prologue_block

theorem toNat_page (pc : BitVec 32) : pc.toNat / 4096 ≠ NO_PAGE := by
  have := pc.isLt
  unfold NO_PAGE
  omega

section
variable {x x' : Logged} {o : Order} {pc : BitVec 32} {b : JitBlock}

/-- The code of the prologue is where it is entered, as long as the heap was not full. -/
theorem Tracks.prologue_code (ht : Tracks x) (h : x.overflowed = false) :
    Holds x.s.cache.heap.mem x.s.prologue_block x.prologue.code := by
  obtain ⟨hm, r, hr, hentry⟩ := ht.kept h
  obtain ⟨r', hr', -, hstands⟩ := ht.good.slot_of hm
  have hsame : r' = r := Option.some.inj (hr'.symm.trans hr)
  subst hsame
  rw [← hentry]
  exact hstands.entered

theorem overflows_iff (ht : Tracks x) :
    Overflows x.s pc b ↔ replay x.log (key pc.toNat) = none ∧ Full x.s.cache b.block_size := by
  unfold Overflows
  rw [ht.good.slot_none_iff]

/-- What follows a reset. -/
theorem reset_tracks {s s' : Jit} {prologue : JitBlock} {l : List (Event ℕ JitBlock)}
    (hreset : s.reset o prologue = some s') {m : ℕ → Option JitBlock} (hg : Good s.cache m Nothing)
    (hf : Furnished s.cache) (hlog : replay l = fun _ => none) :
    Tracks ⟨s', l ++ [.offer PROLOGUE prologue], prologue, false⟩ := by
  obtain ⟨s₁, r, hreset₁, hgood, hfurn, hslot, hstart, hentry⟩ :=
    reset_spec o prologue hg hf
  have hsame : s₁ = s' := Option.some.inj (hreset₁.symm.trans hreset)
  subst hsame
  have hreplay : replay (l ++ [.offer PROLOGUE prologue]) =
      Function.update (fun _ => none) PROLOGUE (some prologue) := by
    rw [replay_miss (congrFun hlog PROLOGUE), hlog]
  obtain ⟨r', hr', -, hstands⟩ := hgood.slot_of (k := PROLOGUE) (Function.update_self ..)
  have hsame : r' = r := Option.some.inj (hr'.symm.trans hslot)
  subst hsame
  refine ⟨?_, hfurn, ?_, fun _ => ⟨?_, r', hslot, hentry.symm⟩⟩
  · dsimp only
    rw [hreplay]
    exact hgood
  · dsimp only
    rw [hentry, hstands.code, hstart]
  · dsimp only
    rw [hreplay, Function.update_self]

theorem clear_replay (l : List (Event ℕ JitBlock)) :
    replay (l ++ [.clear]) = fun _ => none := funext fun _ => replay_clear

/-- A dispatch, by what the history says of the address. -/
theorem dispatch_tracks (ht : Tracks x) (hnext : x.next (.dispatch o pc b) = some x') :
    Tracks x' := by
  have hpc := toNat_page pc
  obtain ⟨s', hexec, hx'⟩ := Option.map_eq_some_iff.mp hnext
  obtain ⟨⟨addr, s''⟩, hd, hs'⟩ := Option.map_eq_some_iff.mp hexec
  have hs' : s'' = s' := hs'
  subst hs'
  dsimp only at hx'
  cases hm : replay x.log (key pc.toNat) with
  | some b₀ =>
    obtain ⟨addr₁, s₁, hd₁, hdone, hslots⟩ := dispatch_hit (o := o) (b := b) ht.good ht.furnished hpc hm
    have hsame : s₁ = s'' := congrArg Prod.snd (Option.some.inj (hd₁.symm.trans hd))
    subst hsame
    have hnot : ¬ Overflows x.s pc b := by
      rw [overflows_iff ht, hm]
      exact fun h => absurd h.1 (Option.some_ne_none b₀)
    rw [if_neg hnot] at hx'
    subst hx'
    refine ⟨?_, hdone.furnished, ?_, fun hk => ?_⟩
    · dsimp only
      rw [replay_hit hm]
      exact hdone.good
    · dsimp only
      rw [hdone.prologue, hdone.base, ht.entry]
    · obtain ⟨hp, r, hr, hentry⟩ := ht.kept hk
      dsimp only
      rw [replay_hit hm, hdone.prologue]
      exact ⟨hp, r, (hslots _).trans hr, hentry⟩
  | none =>
    by_cases hfull : Full x.s.cache b.block_size
    · rw [if_pos ((overflows_iff ht).mpr ⟨hm, hfull⟩)] at hx'
      subst hx'
      have hpage : array x.s.cache (key pc.toNat / 1024) ≠ none := by
        intro hnone
        have := dispatch_fault (o := o) ht.good hpc hm hfull hnone
        exact absurd (hd.symm.trans this) (Option.some_ne_none _)
      obtain ⟨addr₁, s₁, r, hd₁, hdone, hslot, hstart⟩ :=
        dispatch_full (o := o) ht.good ht.furnished hpc hm hfull hpage
      have hsame : s₁ = s'' := congrArg Prod.snd (Option.some.inj (hd₁.symm.trans hd))
      subst hsame
      refine ⟨?_, hdone.furnished, ?_, fun hk => absurd hk Bool.noConfusion⟩
      · dsimp only
        rw [replay_miss replay_clear, clear_replay]
        exact hdone.good
      · dsimp only
        rw [hdone.prologue, hdone.base, ht.entry]
    · rw [if_neg fun h => hfull ((overflows_iff ht).mp h).2] at hx'
      subst hx'
      obtain ⟨addr₁, s₁, hd₁, hdone, hslots⟩ :=
        dispatch_roomy (o := o) ht.good ht.furnished hpc hm hfull
      have hsame : s₁ = s'' := congrArg Prod.snd (Option.some.inj (hd₁.symm.trans hd))
      subst hsame
      refine ⟨?_, hdone.furnished, ?_, fun hk => ?_⟩
      · dsimp only
        rw [replay_miss hm]
        exact hdone.good
      · dsimp only
        rw [hdone.prologue, hdone.base, ht.entry]
      · obtain ⟨hp, r, hr, hentry⟩ := ht.kept hk
        have hne : PROLOGUE ≠ key pc.toNat := by
          intro he
          rw [← he, hp] at hm
          exact absurd hm (Option.some_ne_none _)
        dsimp only
        rw [replay_other (Ne.symm hne), hdone.prologue]
        exact ⟨hp, r, (hslots _ hne).trans hr, hentry⟩

theorem step_tracks {a : Act} (ht : Tracks x) (hstep : Step x a x') : Tracks x' := by
  cases a with
  | dispatch o pc b => exact dispatch_tracks ht hstep
  | reset o prologue =>
    obtain ⟨s', hexec, hx'⟩ := Option.map_eq_some_iff.mp hstep
    dsimp only at hx'
    subst hx'
    exact reset_tracks hexec ht.good ht.furnished (clear_replay x.log)
  | write page =>
    obtain ⟨s', hexec, hx'⟩ := Option.map_eq_some_iff.mp hstep
    rw [exec, Option.some.injEq] at hexec
    subst hexec hx'
    exact ⟨ht.good, ht.furnished, ht.entry, ht.kept⟩

/-- Without what is in `lookup_cache`, which is cleared before it is read. -/
def Jit.unset (s : Jit) : Jit := { s with cache := { s.cache with lookup_cache := fun _ => none } }

theorem constructed_good {s : Jit} (hc : Constructed s) :
    Good s.unset.cache (fun _ => none) Nothing ∧ Furnished s.unset.cache := by
  obtain ⟨hinit, hmap, hidx⟩ := hc
  have hmap : s.unset.cache.map = [] := hmap
  have hin : ∀ n, n ∉ s.unset.cache.map := by
    intro n hn
    rw [hmap] at hn
    exact List.not_mem_nil hn
  have hnone : ∀ k, slot s.unset.cache k = none := by
    intro k
    have harr : array s.unset.cache (k / 1024) = none := array_none fun n hn => absurd hn (hin n)
    unfold slot
    rw [harr, Option.bind_none]
  obtain ⟨blocks, chains, hs, hc⟩ := init_coalesced hinit
  refine ⟨⟨⟨?_, ?_, fun n hn => absurd hn (hin n), fun n hn => absurd hn (hin n),
    fun h => absurd hidx h⟩, ⟨⟨[], blocks, chains, hs, hc, fun o => ?_⟩, ?_, fun o ho => ho.elim⟩,
    fun k => ?_, fun i ptr hptr => absurd hptr (Option.some_ne_none ptr).symm⟩,
    fun n hn => absurd hn (hin n)⟩
  · rw [hmap]
    exact List.nodup_nil
  · rw [hmap]
    exact List.nodup_nil
  · simp only [hnone, List.not_mem_nil, false_iff]
    rintro (⟨k, r, hk, -⟩ | hfalse)
    · exact absurd hk (Option.some_ne_none r).symm
    · exact hfalse.elim
  · intro k k' r r' hk
    rw [hnone] at hk
    exact absurd hk (Option.some_ne_none r).symm
  · rw [hnone]
    trivial

theorem booted_tracks (hb : Booted x) : Tracks x := by
  obtain ⟨s, o, hc, hreset, hlog, hover⟩ := hb
  obtain ⟨hg, hf⟩ := constructed_good hc
  have hreset : s.unset.reset o x.prologue = some x.s := hreset
  have ht := reset_tracks (l := []) hreset hg hf rfl
  rw [List.nil_append] at ht
  obtain ⟨s₁, log, prologue, overflowed⟩ := x
  dsimp only at hlog hover ht
  subst hlog hover
  exact ht

theorem reaches_tracks (h : Reaches Booted Step x) : Tracks x :=
  h.invariant (fun _ hb => booted_tracks hb) fun _ _ _ ht hstep => step_tracks ht hstep

/-! ### What is entered -/

/-- **The code that a dispatch enters** is that of the block compiled first for the word since the
heap was cleared, whatever the guest wrote since; else it is the new block's. The dispatch fails
exactly when the heap is full and the page has no block yet. All blocks of the history are in
place, and apart. -/
theorem dispatch_first (h : Reaches Booted Step x) (o : Order) (pc : BitVec 32) (b : JitBlock) :
    (x.s.dispatch o pc.toNat b = none ↔
      Overflows x.s pc b ∧ array x.s.cache (key pc.toNat / 1024) = none) ∧
    (∀ addr s', x.s.dispatch o pc.toNat b = some (addr, s') →
      Holds s'.cache.heap.mem addr ((replay x.log (key pc.toNat)).getD b).code) ∧
    (∀ k b', replay x.log k = some b' →
      ∃ r, slot x.s.cache k = some r ∧ Stands x.s.cache.heap.mem r b') ∧
    ∀ k k' r r', slot x.s.cache k = some r → slot x.s.cache k' = some r' → k ≠ k' →
      Apart r.extent.1 r.extent.2 r'.extent.1 r'.extent.2 := by
  have ht := reaches_tracks h
  have hpc := toNat_page pc
  refine ⟨?_, ?_, fun k b' hk => ?_, fun k k' r r' hk hk' hne => ?_⟩
  · rw [overflows_iff ht]
    constructor
    · intro hnone
      cases hm : replay x.log (key pc.toNat) with
      | some b₀ =>
        obtain ⟨addr, s', hd, -⟩ := dispatch_hit (o := o) (b := b) ht.good ht.furnished hpc hm
        exact absurd (hd.symm.trans hnone) (Option.some_ne_none _)
      | none =>
        by_cases hfull : Full x.s.cache b.block_size
        · refine ⟨⟨rfl, hfull⟩, ?_⟩
          by_contra hpage
          obtain ⟨addr, s', r, hd, -⟩ :=
            dispatch_full (o := o) ht.good ht.furnished hpc hm hfull hpage
          exact absurd (hd.symm.trans hnone) (Option.some_ne_none _)
        · obtain ⟨addr, s', hd, -⟩ := dispatch_roomy (o := o) ht.good ht.furnished hpc hm hfull
          exact absurd (hd.symm.trans hnone) (Option.some_ne_none _)
    · rintro ⟨⟨hm, hfull⟩, hpage⟩
      exact dispatch_fault ht.good hpc hm hfull hpage
  · intro addr s' hd
    cases hm : replay x.log (key pc.toNat) with
    | some b₀ =>
      obtain ⟨addr₁, s₁, hd₁, hdone, -⟩ :=
        dispatch_hit (o := o) (b := b) ht.good ht.furnished hpc hm
      obtain ⟨rfl, rfl⟩ := Prod.mk.inj (Option.some.inj (hd₁.symm.trans hd))
      exact hdone.code
    | none =>
      by_cases hfull : Full x.s.cache b.block_size
      · have hpage : array x.s.cache (key pc.toNat / 1024) ≠ none := by
          intro hnone
          have := dispatch_fault (o := o) ht.good hpc hm hfull hnone
          exact absurd (hd.symm.trans this) (Option.some_ne_none _)
        obtain ⟨addr₁, s₁, r, hd₁, hdone, -⟩ :=
          dispatch_full (o := o) ht.good ht.furnished hpc hm hfull hpage
        obtain ⟨rfl, rfl⟩ := Prod.mk.inj (Option.some.inj (hd₁.symm.trans hd))
        exact hdone.code
      · obtain ⟨addr₁, s₁, hd₁, hdone, -⟩ :=
          dispatch_roomy (o := o) ht.good ht.furnished hpc hm hfull
        obtain ⟨rfl, rfl⟩ := Prod.mk.inj (Option.some.inj (hd₁.symm.trans hd))
        exact hdone.code
  · obtain ⟨r, hr, -, hstands⟩ := ht.good.slot_of hk
    exact ⟨r, hr, hstands⟩
  · obtain ⟨live, blocks, chains, hs, -, hlive⟩ := ht.good.stocked.sound
    refine live_apart hs ((hlive _).mpr (Or.inl ⟨k, r, hk, rfl⟩))
      ((hlive _).mpr (Or.inl ⟨k', r', hk', rfl⟩)) fun hsame => hne ?_
    exact ht.good.stocked.apart _ _ _ _ hk hk' hsame

/-- **A full heap is fatal**: the prologue stands where runs enter it until a block finds no memory;
then either the flush reads through a null pointer, or the block stands where the prologue did. -/
theorem overflow_fatal (h : Reaches Booted Step x) :
    (x.overflowed = false → Holds x.s.cache.heap.mem x.s.prologue_block x.prologue.code) ∧
    ∀ o pc b, Overflows x.s pc b → x.s.dispatch o pc.toNat b = none ∨
      ∃ addr s' r, x.s.dispatch o pc.toNat b = some (addr, s') ∧
        slot s'.cache (key pc.toNat) = some r ∧ Stands s'.cache.heap.mem r b ∧
        s'.prologue_block = r.literals_start + x.prologue.literals.length ∧
        ∀ k, k ≠ key pc.toNat → slot s'.cache k = none := by
  have ht := reaches_tracks h
  refine ⟨ht.prologue_code, fun o pc b hover => ?_⟩
  obtain ⟨hm, hfull⟩ := (overflows_iff ht).mp hover
  have hpc := toNat_page pc
  by_cases hpage : array x.s.cache (key pc.toNat / 1024) = none
  · exact Or.inl (dispatch_fault ht.good hpc hm hfull hpage)
  · obtain ⟨addr, s', r, hd, hdone, hslot, hstart⟩ :=
      dispatch_full (o := o) ht.good ht.furnished hpc hm hfull hpage
    obtain ⟨r', hr', -, hstands⟩ := hdone.good.slot_of (k := key pc.toNat) (Function.update_self ..)
    have hsame : r' = r := Option.some.inj (hr'.symm.trans hslot)
    subst hsame
    refine Or.inr ⟨addr, s', r', hd, hslot, hstands, ?_, fun k hk => ?_⟩
    · rw [hdone.prologue, ht.entry, hstart]
    · rw [hdone.good.slot_none_iff, Function.update_of_ne hk]

end

/-! ### A machine that was reset -/

def asListed : Order := ⟨id, fun l => .refl l⟩

/-- A heap at 4096, and garbage in `lookup_cache`. -/
def constructed : Jit := ⟨⟨atPage.h, [], 1, 0, NO_PAGE, fun i => some (i, i)⟩, fun _ => false, 0⟩

theorem constructed_resets : ∃ x, Booted x ∧ x.prologue = push := by
  have hc : Constructed constructed := ⟨atPage_init, rfl, rfl⟩
  obtain ⟨hg, hf⟩ := constructed_good hc
  obtain ⟨s', r, hreset, -⟩ := reset_spec asListed push hg hf
  exact ⟨⟨s', [.offer PROLOGUE push], push, false⟩,
    ⟨constructed, asListed, hc, hreset, rfl, rfl⟩, rfl⟩

/-- The first address after a reset. -/
theorem dispatch_first_booted : ∃ x, Booted x ∧
    (x.s.dispatch asListed (0x100000#32).toNat push = none ↔
      Overflows x.s 0x100000#32 push ∧
        array x.s.cache (key (0x100000#32).toNat / 1024) = none) ∧
    (∀ addr s', x.s.dispatch asListed (0x100000#32).toNat push = some (addr, s') →
      Holds s'.cache.heap.mem addr ((replay x.log (key (0x100000#32).toNat)).getD push).code) ∧
    (∀ k b', replay x.log k = some b' →
      ∃ r, slot x.s.cache k = some r ∧ Stands x.s.cache.heap.mem r b') ∧
    ∀ k k' r r', slot x.s.cache k = some r → slot x.s.cache k' = some r' → k ≠ k' →
      Apart r.extent.1 r.extent.2 r'.extent.1 r'.extent.2 := by
  obtain ⟨x, hb, -⟩ := constructed_resets
  exact ⟨x, hb, dispatch_first (Reaches.start hb) asListed 0x100000#32 push⟩

theorem overflow_fatal_booted : ∃ x, Booted x ∧
    (x.overflowed = false → Holds x.s.cache.heap.mem x.s.prologue_block x.prologue.code) ∧
    ∀ o pc b, Overflows x.s pc b → x.s.dispatch o pc.toNat b = none ∨
      ∃ addr s' r, x.s.dispatch o pc.toNat b = some (addr, s') ∧
        slot s'.cache (key pc.toNat) = some r ∧ Stands s'.cache.heap.mem r b ∧
        s'.prologue_block = r.literals_start + x.prologue.literals.length ∧
        ∀ k, k ≠ key pc.toNat → slot s'.cache k = none := by
  obtain ⟨x, hb, -⟩ := constructed_resets
  exact ⟨x, hb, overflow_fatal (Reaches.start hb)⟩

end DobieStation.JitHeap.Dispatch
