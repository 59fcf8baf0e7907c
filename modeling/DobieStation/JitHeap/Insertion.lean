import DobieStation.JitHeap.Coalescing
import DobieStation.JitHeap.PageRecords

/-! # Blocks in the heap

What holds of the cache between two calls: `Good c m extra`, where `m` is the table of the blocks by
the words of guest memory and `extra` names the objects that are live and not recorded yet. A flush
empties the table, and an insertion goes through one object aside: memory is handed out, the block is
copied to it, and the record is written. -/

namespace DobieStation.JitHeap.Insertion

open DobieStation.Lib.Memory DobieStation.Lib.FirstResult
open DobieStation.JitHeap.Model DobieStation.JitHeap.Model.EEJitHeap
open DobieStation.JitHeap.Layout DobieStation.JitHeap.Allocator DobieStation.JitHeap.Safety
open DobieStation.JitHeap.Coalescing DobieStation.JitHeap.Blocks DobieStation.JitHeap.PageRecords

/-! ### The heap under the records -/

section
variable {h h' : EEJitHeap} {live : List (ℕ × ℕ)} {blocks pre post : List Block}
  {chains : ℕ → List ℕ} {b : Block}

/-- The payload of an object changes. -/
theorem payload_laid {m : Bytes} (hl : Laid h (pre ++ b :: post) chains) (hb : b.free = false)
    (hmem : ∀ p, p < b.addr ∨ b.addr + b.size ≤ p → m p = h.mem p) :
    Laid { h with mem := m } (pre ++ b :: post) chains := by
  have hbm : b ∈ pre ++ b :: post := by simp
  obtain ⟨hsize, hend⟩ := hl.tagged b hbm
  obtain ⟨hal, hmin⟩ := hl.sized b hbm
  have hbound := hl.bounds hbm
  rw [hb, if_neg Bool.false_ne_true] at hend
  obtain ⟨p, hpre, hp, -⟩ := tiles_append.mp hl.tiles
  have hone : Tiles p [b] (p + b.size + 16) := ⟨hp, rfl⟩
  have hword : ∀ y, y + 8 ≤ b.addr ∨ b.addr + b.size ≤ y →
      EEJitHeap.word { h with mem := m } y = h.word y :=
    fun y hy => load_congr fun p h1 h2 => hmem p (by omega)
  have hnew : ∀ c ∈ [b], c.free = false ∧ c.size % JIT_ALLOC_ALIGN = 0 ∧ 256 ≤ c.size ∧
      EEJitHeap.get_size { h with mem := m } c.addr = c.size ∧
      EEJitHeap.word { h with mem := m } (c.addr + c.size) = 0 := by
    intro c hc
    rw [List.mem_singleton.mp hc]
    exact ⟨hb, hal, hmin, (hword _ (by omega)).trans hsize, (hword _ (by omega)).trans hend⟩
  have hsame : ∀ c ∈ [b], c.free = false := fun c hc => (hnew c hc).1
  rw [List.append_cons] at hl ⊢
  exact rewrite_used hl hpre hone hone hsame rfl rfl hnew fun y hy => hmem y (by omega)

/-- What is written to an object leaves the heap sound. -/
theorem copy_sound (hs : Sound ⟨h, live⟩ blocks chains) {o : ℕ × ℕ} (ho : o ∈ live)
    {l : List (BitVec 8)} (hlen : l.length ≤ o.2) :
    Sound ⟨{ h with mem := copy h.mem o.1 l }, live⟩ blocks chains := by
  obtain ⟨b, hb, hbo, hle⟩ := hs.large o ho
  obtain ⟨hbm, hbf⟩ := mem_used.mp hb
  obtain ⟨pre, post, rfl⟩ := List.append_of_mem hbm
  have hlaid := payload_laid (m := copy h.mem o.1 l) hs.laid hbf
    fun p hp => copy_apart (by omega)
  exact ⟨hlaid, hs.distinct, hs.large, hs.owned, hs.usage⟩

/-- Objects are apart. -/
theorem live_apart (hs : Sound ⟨h, live⟩ blocks chains) {o o' : ℕ × ℕ} (ho : o ∈ live)
    (ho' : o' ∈ live) (hne : o.1 ≠ o'.1) : o.1 + o.2 ≤ o'.1 ∨ o'.1 + o'.2 ≤ o.1 := by
  obtain ⟨b, hb, hbo, hle⟩ := hs.large o ho
  obtain ⟨b', hb', hbo', hle'⟩ := hs.large o' ho'
  have := tiles_apart hs.laid.tiles (mem_used.mp hb).1 (mem_used.mp hb').1 (by omega)
  omega

/-- **An object is handed out**, and the others stay as they are. -/
theorem malloc_places (hs : Sound ⟨h, live⟩ blocks chains) (hc : Coalesced blocks) {size dest : ℕ}
    (hle : size ≤ 2 ^ 64 - 16) (hr : h.jit_malloc size = some (dest, h')) (h0 : dest ≠ 0) :
    ∃ blocks' chains', Sound ⟨h', (dest, size) :: live⟩ blocks' chains' ∧ Coalesced blocks' ∧
      h'.heap = h.heap ∧
      ∀ o ∈ live, ∀ p, o.1 ≤ p → p < o.1 + o.2 → h'.mem p = h.mem p := by
  obtain ⟨s', blocks', chains', hexec, hs', hc'⟩ :=
    step_coalesced hs hc (a := .malloc size) hle (by unfold Legal; omega)
  rw [exec, hr, Option.map_some, Option.some.injEq] at hexec
  dsimp only at hexec
  rw [if_neg h0] at hexec
  refine ⟨blocks', chains', hexec ▸ hs', hc', ?_⟩
  rcases jit_malloc_laid hs.laid size hle with hnone | ⟨pre, b, post, h₁, -, -, -, rfl, hf, hsome,
    -, -, -, hheap, -, hframe⟩
  · rw [hnone, Option.some.injEq, Prod.mk.injEq] at hr
    exact absurd hr.1.symm h0
  · rw [hsome, Option.some.injEq, Prod.mk.injEq] at hr
    rw [← hr.2]
    refine ⟨hheap, fun o ho p h1 h2 => ?_⟩
    obtain ⟨d, hd, hdo, hdle⟩ := hs.large o ho
    obtain ⟨hdm, hdf⟩ := mem_used.mp hd
    refine hframe d ?_ hdf p (by omega) (by omega)
    rcases mem_around hdm with rfl | hdm
    · rw [hf] at hdf
      exact absurd hdf Bool.noConfusion
    · exact List.mem_append.mpr hdm

/-- A request that fails leaves the heap as it was. -/
theorem malloc_fails (hs : Sound ⟨h, live⟩ blocks chains) {size : ℕ} (hle : size ≤ 2 ^ 64 - 16)
    (hr : h.jit_malloc size = some (0, h')) : h' = h := by
  rcases jit_malloc_laid hs.laid size hle with hnone | ⟨pre, b, post, h₁, -, -, -, rfl, -, hsome, -⟩
  · rw [hnone, Option.some.injEq, Prod.mk.injEq] at hr
    exact hr.2.symm
  · rw [hsome, Option.some.injEq, Prod.mk.injEq] at hr
    have := (hs.laid.bounds (b := b) (by simp)).1
    omega

/-- An object is freed, and the others stay as they are. -/
theorem free_leaves (hs : Sound ⟨h, live⟩ blocks chains) {o : ℕ × ℕ} (ho : o ∈ live)
    (hr : h.jit_free o.1 = some h') :
    h'.heap = h.heap ∧
      ∀ o' ∈ live, o'.1 ≠ o.1 → ∀ p, o'.1 ≤ p → p < o'.1 + o'.2 → h'.mem p = h.mem p := by
  obtain ⟨b, hb, hbo, -⟩ := hs.large o ho
  obtain ⟨hbm, hbf⟩ := mem_used.mp hb
  obtain ⟨pre, post, rfl⟩ := List.append_of_mem hbm
  have husage := hs.usage
  rw [used_size_append, used_size_cons _ hbf] at husage
  dsimp only at husage
  have hl : Laid h (pre ++ b :: post) chains := hs.laid
  obtain ⟨h₁, -, -, hfree, -, -, hheap, -, hframe⟩ := jit_free_laid hl hbf (by omega)
  rw [hbo, hr, Option.some.injEq] at hfree
  subst hfree
  refine ⟨hheap, fun o' ho' hne p h1 h2 => ?_⟩
  obtain ⟨d, hd, hdo, hdle⟩ := hs.large o' ho'
  obtain ⟨hdm, hdf⟩ := mem_used.mp hd
  refine hframe d ?_ hdf p (by omega) (by omega)
  rcases mem_around hdm with rfl | hdm
  · exact absurd (hdo.symm.trans hbo) hne
  · exact List.mem_append.mpr hdm

/-- **Objects are freed, one after the other.** -/
theorem free_all {l : List ℕ} (hs : Sound ⟨h, live⟩ blocks chains) (hc : Coalesced blocks)
    (hn : l.Nodup) (hsub : ∀ a ∈ l, ∃ o ∈ live, o.1 = a) :
    ∃ h' live' blocks' chains', l.foldlM jit_free h = some h' ∧
      Sound ⟨h', live'⟩ blocks' chains' ∧ Coalesced blocks' ∧ h'.heap = h.heap ∧
      (∀ o, o ∈ live' ↔ o ∈ live ∧ o.1 ∉ l) ∧
      ∀ o ∈ live', ∀ p, o.1 ≤ p → p < o.1 + o.2 → h'.mem p = h.mem p := by
  induction l generalizing h live blocks chains with
  | nil => exact ⟨h, live, blocks, chains, rfl, hs, hc, rfl, by simp, fun _ _ _ _ _ => rfl⟩
  | cons a l ih =>
    rw [List.nodup_cons] at hn
    obtain ⟨s₁, blocks₁, chains₁, hexec, hs₁, hc₁⟩ :=
      step_coalesced hs hc (a := .free a) trivial (hsub a List.mem_cons_self)
    rw [exec, Option.map_eq_some_iff] at hexec
    obtain ⟨h₁, hfree, rfl⟩ := hexec
    have hsub₁ : ∀ x ∈ l, ∃ o ∈ live.filter fun o => o.1 ≠ a, o.1 = x := by
      intro x hx
      obtain ⟨o, ho, rfl⟩ := hsub x (List.mem_cons_of_mem _ hx)
      refine ⟨o, List.mem_filter.mpr ⟨ho, ?_⟩, rfl⟩
      simpa using fun he : o.1 = a => hn.1 (he ▸ hx)
    obtain ⟨h', live', blocks', chains', hrest, hs', hc', hheap', hlive', hframe'⟩ :=
      ih hs₁ hc₁ hn.2 hsub₁
    obtain ⟨o₁, ho₁, rfl⟩ := hsub a List.mem_cons_self
    obtain ⟨hheap, hframe⟩ := free_leaves hs ho₁ hfree
    have hmem : ∀ o, o ∈ live' ↔ o ∈ live ∧ o.1 ∉ o₁.1 :: l := by
      intro o
      rw [hlive' o, List.mem_filter, List.mem_cons, not_or]
      simp only [ne_eq, decide_not, Bool.not_eq_true', decide_eq_false_iff_not]
      exact and_assoc
    refine ⟨h', live', blocks', chains', ?_, hs', hc', hheap'.trans hheap, hmem, ?_⟩
    · rw [List.foldlM_cons, hfree]
      exact hrest
    · intro o ho p h1 h2
      have hold := (hmem o).mp ho
      rw [List.mem_cons, not_or] at hold
      rw [hframe' o ho p h1 h2, hframe o hold.1 hold.2.1 p h1 h2]

end

/-! ### A flush -/

section
variable {arr : ℕ → EEJitBlockRecord} {h : EEJitHeap} {c : BlockCache} {nodes : List Node}

theorem free_array_eq : BlockCache.free_array h arr = (starts arr).foldlM jit_free h := by
  unfold BlockCache.free_array starts
  generalize List.range 1024 = l
  induction l generalizing h with
  | nil => rfl
  | cons i l ih =>
    rw [List.foldlM_cons, List.map_cons]
    by_cases h0 : (arr i).literals_start ≠ 0
    · rw [if_pos h0, List.filter_cons_of_pos (by simpa using h0), List.foldlM_cons]
      cases h.jit_free (arr i).literals_start with
      | none => rfl
      | some h₁ => exact ih
    · rw [if_neg h0, List.filter_cons_of_neg (by simpa using h0)]
      exact ih

/-- The pages are gone through like one list of objects. -/
theorem flush_fold (nodes : List Node) (hn : ∀ n ∈ nodes, n.record.block_array ≠ none) :
    (nodes.foldlM (fun h n => do BlockCache.free_array h (← n.record.block_array)) h :
      Option EEJitHeap) = (nodes.flatMap Node.starts).foldlM jit_free h := by
  induction nodes generalizing h with
  | nil => rfl
  | cons n nodes ih =>
    obtain ⟨arr, harr⟩ := Option.ne_none_iff_exists'.mp (hn n List.mem_cons_self)
    have hstarts : n.starts = starts arr := by
      unfold Node.starts
      rw [harr, Option.map_some, Option.getD_some]
    have hrest : ∀ h₁, (nodes.foldlM (fun h n => do
        BlockCache.free_array h (← n.record.block_array)) h₁ : Option EEJitHeap) =
          (nodes.flatMap Node.starts).foldlM jit_free h₁ :=
      fun h₁ => ih fun m hm => hn m (List.mem_cons_of_mem _ hm)
    rw [List.foldlM_cons, List.flatMap_cons, List.foldlM_append, hstarts, harr]
    simp only [Option.bind_eq_bind, Option.bind_some, free_array_eq] at hrest ⊢
    simp only [hrest]

/-- A page without an array is read through a null pointer. -/
theorem flush_fault {n : Node} (hn : n ∈ nodes) (hnone : n.record.block_array = none) :
    (nodes.foldlM (fun h n => do BlockCache.free_array h (← n.record.block_array)) h :
      Option EEJitHeap) = none := by
  induction nodes generalizing h with
  | nil => exact absurd hn List.not_mem_nil
  | cons m nodes ih =>
    rw [List.foldlM_cons]
    rcases List.mem_cons.mp hn with rfl | hn
    · rw [hnone]
      rfl
    · cases (do BlockCache.free_array h (← m.record.block_array) : Option EEJitHeap) with
      | none => rfl
      | some h₁ => exact ih hn

theorem mem_starts {a : ℕ} :
    a ∈ starts arr ↔ a ≠ 0 ∧ ∃ i < 1024, (arr i).literals_start = a := by
  unfold starts
  simp only [List.mem_filter, List.mem_map, List.mem_range, decide_eq_true_eq]
  exact and_comm

end

/-! ### The invariant -/

/-- A record is that of the block of the table, and none is where the table has none. -/
def Recorded (mem : Bytes) (k : ℕ) : Option EEJitBlockRecord → Option JitBlock → Prop
  | none, none => True
  | some r, some b => key r.block_data.pc = k ∧ Stands mem r b
  | _, _ => False

/-- A pointer to the record of a word. -/
def Points (c : BlockCache) (ptr : ℕ × ℕ) (k : ℕ) : Prop :=
  ∃ n ∈ c.map, n.page = k / 1024 ∧ ptr = (n.id, k % 1024)

/-- The objects that are live are those of the records, and some that `extra` names. -/
structure Stocked (c : BlockCache) (extra : ℕ × ℕ → Prop) : Prop where
  sound : ∃ live blocks chains, Sound ⟨c.heap, live⟩ blocks chains ∧ Coalesced blocks ∧
    ∀ o, o ∈ live ↔ (∃ k r, slot c k = some r ∧ o = r.extent) ∨ extra o
  apart : ∀ k k' r r', slot c k = some r → slot c k' = some r' →
    r.literals_start = r'.literals_start → k = k'
  aside : ∀ o, extra o → ∀ k r, slot c k = some r → r.literals_start ≠ o.1

/-- The cache holds the blocks of a table, and objects that `extra` names. -/
structure Good (c : BlockCache) (m : ℕ → Option JitBlock) (extra : ℕ × ℕ → Prop) : Prop where
  indexed : Indexed c
  stocked : Stocked c extra
  recorded : ∀ k, Recorded c.heap.mem k (slot c k) (m k)
  lookup : ∀ i ptr, c.lookup_cache i = some ptr → ∃ k, Points c ptr k ∧ slot c k ≠ none

/-- All objects are recorded. -/
def Nothing : ℕ × ℕ → Prop := fun _ => False

/-- Every page has an array. -/
def Furnished (c : BlockCache) : Prop := ∀ n ∈ c.map, n.record.block_array ≠ none

section
variable {c c' : BlockCache} {m : ℕ → Option JitBlock} {k page : ℕ} {ptr : ℕ × ℕ}
  {r : EEJitBlockRecord} {b : JitBlock} {extra : ℕ × ℕ → Prop}

theorem slot_congr (h : ∀ p, array c' p = array c p) (k : ℕ) : slot c' k = slot c k := by
  unfold slot
  rw [h]

theorem slot_some (h : slot c k = some r) : r.literals_start ≠ 0 ∧
    ∃ n ∈ c.map, n.page = k / 1024 ∧
      ∃ arr, n.record.block_array = some arr ∧ arr (k % 1024) = r := by
  unfold slot array at h
  rw [Option.bind_assoc, Option.bind_eq_some_iff] at h
  obtain ⟨n, hn, h⟩ := h
  obtain ⟨arr, harr, h⟩ := Option.bind_eq_some_iff.mp h
  obtain ⟨hn, hp⟩ := find_page_some hn
  split_ifs at h with h0
  rw [Option.some.injEq] at h
  exact ⟨h ▸ h0, n, hn, hp, arr, harr, h⟩

theorem slot_of_array {n : Node} {arr : ℕ → EEJitBlockRecord} {i : ℕ} (hi : Indexed c)
    (hn : n ∈ c.map) (harr : n.record.block_array = some arr) (hlt : i < 1024)
    (h0 : (arr i).literals_start ≠ 0) : slot c (n.page * 1024 + i) = some (arr i) := by
  have hp : (n.page * 1024 + i) / 1024 = n.page := by omega
  have hidx : (n.page * 1024 + i) % 1024 = i := by omega
  unfold slot
  rw [hp, hidx, array_eq hi hn, harr, Option.bind_some, if_pos h0]

theorem deref_block_eq (hi : Indexed c) (hp : Points c ptr k) (hs : slot c k = some r) :
    c.deref_block ptr = some r := by
  obtain ⟨n, hn, hpage, rfl⟩ := hp
  obtain ⟨-, n', hn', hpage', arr, harr, rfl⟩ := slot_some hs
  have hsame := (find_page_eq hi hn).symm.trans
    ((congrArg c.find_page (hpage.trans hpage'.symm)).trans (find_page_eq hi hn'))
  rw [Option.some.injEq] at hsame
  subst hsame
  unfold BlockCache.deref_block
  rw [deref_eq hi hn]
  simp only [Option.bind_eq_bind, Option.bind_some, harr]
  rfl

/-- A record is there exactly where the table has a block. -/
theorem Good.slot_none_iff (hg : Good c m extra) : slot c k = none ↔ m k = none := by
  have h := hg.recorded k
  cases hs : slot c k with
  | none =>
    cases hm : m k with
    | none => simp
    | some b =>
      rw [hs, hm] at h
      exact h.elim
  | some r =>
    cases hm : m k with
    | none =>
      rw [hs, hm] at h
      exact h.elim
    | some b => simp

theorem Good.slot_of (hg : Good c m extra) (hm : m k = some b) :
    ∃ r, slot c k = some r ∧ key r.block_data.pc = k ∧ Stands c.heap.mem r b := by
  have h := hg.recorded k
  rw [hm] at h
  cases hs : slot c k with
  | none =>
    rw [hs] at h
    exact h.elim
  | some r =>
    rw [hs] at h
    exact ⟨r, rfl, h⟩

/-- A lookup changes nothing that is recorded. -/
theorem Good.extends (hg : Good c m extra) (hi : Indexed c') (he : Extends c c' page) : Good c' m extra := by
  have hslot := slot_congr (he.array_eq hg.indexed hi)
  obtain ⟨⟨live, blocks, chains, hs, hc, hlive⟩, hap, haside⟩ := hg.stocked
  refine ⟨hi, ⟨⟨live, blocks, chains, he.heap ▸ hs, hc, fun o => ?_⟩, ?_, ?_⟩, ?_, ?_⟩
  · simp only [hslot]
    exact hlive o
  · simp only [hslot]
    exact hap
  · simp only [hslot]
    exact haside
  · intro k
    rw [hslot, he.heap]
    exact hg.recorded k
  · intro i ptr hptr
    rw [he.lookup_cache] at hptr
    obtain ⟨k, ⟨n, hn, hpage, rfl⟩, hne⟩ := hg.lookup i ptr hptr
    exact ⟨k, ⟨n, he.old n hn, hpage, rfl⟩, by rw [hslot]; exact hne⟩

/-- **What is found for an address** is the record of its word. -/
theorem find_block_spec (hg : Good c m extra) {pc : ℕ} (hpc : pc / 4096 ≠ NO_PAGE) :
    ∃ found c', c.find_block pc = some (found, c') ∧ Good c' m extra ∧
      Extends c c' (key pc / 1024) ∧ (∃ n ∈ c'.map, n.page = key pc / 1024) ∧
      (∀ ptr, found = some ptr → Points c' ptr (key pc)) ∧
      (found = none ↔ m (key pc) = none) := by
  obtain ⟨n, c', hlookup, hn, hpage, hi', he⟩ := lookup_spec hg.indexed hpc
  rw [page_key] at hpage he
  have hg' := hg.extends hi' he
  have hslot : slot c' (key pc) = n.record.block_array.bind fun arr =>
      if (arr (key pc % 1024)).literals_start ≠ 0 then some (arr (key pc % 1024)) else none := by
    unfold slot
    rw [← hpage, array_eq hi' hn]
  have hiff := hg'.slot_none_iff (k := key pc)
  unfold BlockCache.find_block
  dsimp only
  rw [hlookup, idx_key]
  dsimp only
  rw [deref_eq hi' hn]
  simp only [Option.bind_eq_bind, Option.bind_some]
  cases harr : n.record.block_array with
  | none =>
    rw [harr, Option.bind_none] at hslot
    exact ⟨none, c', rfl, hg', he, ⟨n, hn, hpage⟩, by simp, by simp [← hiff, hslot]⟩
  | some arr =>
    rw [harr, Option.bind_some] at hslot
    refine ⟨_, c', rfl, hg', he, ⟨n, hn, hpage⟩, fun ptr hptr => ?_, ?_⟩
    · split_ifs at hptr
      rw [Option.some.injEq] at hptr
      exact ⟨n, hn, hpage, hptr.symm⟩
    · rw [← hiff, hslot]
      split_ifs <;> simp

end

/-! ### The operations keep the invariant -/

section
variable {c c' : BlockCache} {m : ℕ → Option JitBlock} {size dest : ℕ} {h : EEJitHeap}
  {extra : ℕ × ℕ → Prop} {b : JitBlock} {k : ℕ} {iterate : List Node → List Node}

/-- The objects of the pages, in the order of a flush. -/
theorem mem_flushed (hi : Indexed c) {nodes : List Node} (hp : nodes.Perm c.map) {a : ℕ} :
    a ∈ nodes.flatMap Node.starts ↔ ∃ k r, slot c k = some r ∧ r.literals_start = a := by
  rw [List.mem_flatMap]
  constructor
  · rintro ⟨n, hn, ha⟩
    have hn := hp.mem_iff.mp hn
    cases harr : n.record.block_array with
    | none =>
      rw [Node.starts, harr] at ha
      exact absurd ha List.not_mem_nil
    | some arr =>
      rw [Node.starts, harr, Option.map_some, Option.getD_some, mem_starts] at ha
      obtain ⟨h0, i, hlt, rfl⟩ := ha
      exact ⟨_, _, slot_of_array hi hn harr hlt h0, rfl⟩
  · rintro ⟨k, r, hs, rfl⟩
    obtain ⟨h0, n, hn, -, arr, harr, rfl⟩ := slot_some hs
    refine ⟨n, hp.mem_iff.mpr hn, ?_⟩
    rw [Node.starts, harr, Option.map_some, Option.getD_some, mem_starts]
    exact ⟨h0, _, Nat.mod_lt _ (by omega), rfl⟩

/-- No object is freed twice. -/
theorem flushed_nodup (hi : Indexed c) (hs : Stocked c extra) {nodes : List Node}
    (hp : nodes.Perm c.map) : (nodes.flatMap Node.starts).Nodup := by
  have hpages : nodes.Pairwise fun n n' => n.page ≠ n'.page :=
    List.pairwise_map.mp ((hp.map Node.page).nodup_iff.mpr hi.pages)
  rw [List.nodup_flatMap]
  constructor
  · intro n hn
    have hn := hp.mem_iff.mp hn
    cases harr : n.record.block_array with
    | none =>
      rw [Node.starts, harr]
      exact List.nodup_nil
    | some arr =>
      rw [Node.starts, harr, Option.map_some, Option.getD_some]
      unfold starts
      rw [List.nodup_iff_pairwise_ne, List.pairwise_filter, List.pairwise_map]
      refine List.pairwise_lt_range.imp_of_mem fun {i j} hi' hj' hlt h0 h0' hsame => ?_
      rw [List.mem_range] at hi' hj'
      rw [decide_eq_true_eq] at h0 h0'
      have := hs.apart _ _ _ _ (slot_of_array hi hn harr hi' h0) (slot_of_array hi hn harr hj' h0')
        hsame
      omega
  · refine hpages.imp_of_mem fun {n n'} hn hn' hne a ha ha' => ?_
    have hn := hp.mem_iff.mp hn
    have hn' := hp.mem_iff.mp hn'
    cases harr : n.record.block_array with
    | none =>
      rw [Node.starts, harr] at ha
      exact absurd ha List.not_mem_nil
    | some arr =>
      cases harr' : n'.record.block_array with
      | none =>
        rw [Node.starts, harr'] at ha'
        exact absurd ha' List.not_mem_nil
      | some arr' =>
        rw [Node.starts, harr, Option.map_some, Option.getD_some, mem_starts] at ha
        rw [Node.starts, harr', Option.map_some, Option.getD_some, mem_starts] at ha'
        obtain ⟨h0, i, hlt, rfl⟩ := ha
        obtain ⟨h0', i', hlt', hsame⟩ := ha'
        have := hs.apart _ _ _ _ (slot_of_array hi hn harr hlt h0)
          (slot_of_array hi hn' harr' hlt' (by rw [hsame]; exact h0)) hsame.symm
        omega

/-- **A flush frees every block**, and no other object. -/
theorem flush_spec (hg : Good c m Nothing) (hf : Furnished c) (hp : (iterate c.map).Perm c.map) :
    ∃ c', c.flush_all_blocks iterate = some c' ∧ Good c' (fun _ => none) Nothing ∧
      c'.map = [] ∧ c'.heap.heap = c.heap.heap := by
  obtain ⟨live, blocks, chains, hs, hc, hlive⟩ := hg.stocked.sound
  have hfold := flush_fold (h := c.heap) (iterate c.map)
    fun n hn => hf n (hp.mem_iff.mp hn)
  obtain ⟨h', live', blocks', chains', hfree, hs', hc', hheap, hlive', -⟩ :=
    free_all hs hc (flushed_nodup hg.indexed hg.stocked hp) fun a ha => by
      obtain ⟨k, r, hk, rfl⟩ := (mem_flushed hg.indexed hp).mp ha
      exact ⟨r.extent, (hlive _).mpr (Or.inl ⟨k, r, hk, rfl⟩), rfl⟩
  have hnone : ∀ o, o ∉ live' := by
    intro o ho
    obtain ⟨hold, hnot⟩ := (hlive' o).mp ho
    rcases (hlive o).mp hold with ⟨k, r, hk, rfl⟩ | hfalse
    · exact hnot ((mem_flushed hg.indexed hp).mpr ⟨k, r, hk, rfl⟩)
    · exact hfalse
  refine ⟨_, by rw [BlockCache.flush_all_blocks, hfold, hfree]; rfl, ?_, rfl, hheap⟩
  refine ⟨⟨List.nodup_nil, List.nodup_nil, ?_, ?_, fun h => absurd rfl h⟩,
    ⟨⟨live', blocks', chains', hs', hc', fun o => ?_⟩, ?_, fun o ho => ho.elim⟩, fun k => trivial, ?_⟩
  · exact fun n hn => absurd hn List.not_mem_nil
  · exact fun n hn => absurd hn List.not_mem_nil
  · constructor
    · exact fun ho => absurd ho (hnone o)
    · rintro (⟨k, r, hk, -⟩ | hfalse)
      · exact absurd hk (Option.some_ne_none r).symm
      · exact hfalse.elim
  · exact fun k _ r _ hk => absurd hk (Option.some_ne_none r).symm
  · exact fun i ptr hptr => absurd hptr (Option.some_ne_none ptr).symm

/-- Without blocks the heap is whole, and memory is found at its start. -/
theorem malloc_empty (hg : Good c (fun _ => none) Nothing)
    (hle : granted size ≤ EE_JIT_HEAP_SIZE - 16) (hsize : size ≤ 2 ^ 64 - 16) :
    ∃ h, c.heap.jit_malloc size = some (c.heap.heap + 8, h) := by
  obtain ⟨live, blocks, chains, hs, hc, hlive⟩ := hg.stocked.sound
  have hempty : live = [] := by
    refine List.eq_nil_iff_forall_not_mem.mpr fun o ho => ?_
    rcases (hlive o).mp ho with ⟨k, r, hk, -⟩ | hfalse
    · have hnone : slot c k = none := hg.slot_none_iff.mpr rfl
      exact absurd (hk.symm.trans hnone) (Option.some_ne_none r)
    · exact hfalse
  have hwhole := sound_whole hs hc hempty
  obtain ⟨r, hr, hiff⟩ := malloc_exact hs hsize
  have h64 := heap_size_eq
  have hbin : pick_bin (whole c.heap.heap).size = JIT_ALLOC_BINS := by
    change pick_bin (EE_JIT_HEAP_SIZE - 16) = JIT_ALLOC_BINS
    rw [heap_size_eq]
    decide
  have h0 : r.1 ≠ 0 := by
    intro h0
    refine hiff.mp h0 (whole c.heap.heap) (by rw [hwhole]; exact List.mem_singleton_self _) ?_
    exact ⟨rfl, hle, Or.inl hbin⟩
  rcases jit_malloc_laid hs.laid size hsize with hnone | ⟨pre, d, post, h', -, -, -, hparts, -, hsome, -⟩
  · rw [hnone, Option.some.injEq] at hr
    exact absurd (congrArg Prod.fst hr).symm h0
  · refine ⟨h', hsome.trans ?_⟩
    have hd : d ∈ blocks := by
      rw [hparts]
      simp
    rw [hwhole, List.mem_singleton] at hd
    rw [hd]
    rfl

theorem Recorded.congr {mem mem' : Bytes} {o : Option EEJitBlockRecord} {b : Option JitBlock}
    (h : Recorded mem k o b) (hm : ∀ r, o = some r → ∀ p, r.extent.1 ≤ p →
      p < r.extent.1 + r.extent.2 → mem' p = mem p) : Recorded mem' k o b := by
  cases o with
  | none =>
    cases b with
    | none => trivial
    | some b => exact h.elim
  | some r =>
    cases b with
    | none => exact h.elim
    | some b => exact ⟨h.1, h.2.congr (hm r rfl)⟩

/-- **An object is handed out** aside from the blocks. -/
theorem malloc_good (hg : Good c m Nothing) (hsize : size ≤ 2 ^ 64 - 16)
    (hr : c.heap.jit_malloc size = some (dest, h)) (h0 : dest ≠ 0) :
    Good { c with heap := h } m (· = (dest, size)) ∧ h.heap = c.heap.heap := by
  obtain ⟨⟨live, blocks, chains, hs, hc, hlive⟩, hap, -⟩ := hg.stocked
  obtain ⟨blocks', chains', hs', hc', hheap, hframe⟩ := malloc_places hs hc hsize hr h0
  have hslot : ∀ k, slot { c with heap := h } k = slot c k := slot_congr fun _ => rfl
  refine ⟨⟨⟨hg.indexed.pages, hg.indexed.ids, hg.indexed.fresh, hg.indexed.small,
    hg.indexed.cached⟩, ⟨⟨_, blocks', chains', hs', hc', fun o => ?_⟩, hap, ?_⟩, fun k => ?_,
    hg.lookup⟩, hheap⟩
  · rw [List.mem_cons, hlive o]
    simp only [hslot]
    constructor
    · rintro (rfl | hold | hfalse)
      · exact Or.inr rfl
      · exact Or.inl hold
      · exact hfalse.elim
    · rintro (hold | rfl)
      · exact Or.inr (Or.inl hold)
      · exact Or.inl rfl
  · rintro o rfl k r hk he
    have hmem : r.extent ∈ live := (hlive _).mpr (Or.inl ⟨k, r, hk, rfl⟩)
    have hdistinct := hs'.distinct
    rw [List.map_cons, List.nodup_cons] at hdistinct
    exact hdistinct.1 (he ▸ List.mem_map_of_mem hmem)
  · rw [hslot]
    refine (hg.recorded k).congr fun r hr p h1 h2 => hframe r.extent ?_ p h1 h2
    exact (hlive _).mpr (Or.inl ⟨k, r, hr, rfl⟩)

theorem allocate_eq (hr : c.heap.jit_malloc size = some (dest, h)) (h0 : dest ≠ 0) :
    c.allocate iterate size = some (dest, { c with heap := h }) := by
  unfold BlockCache.allocate
  rw [hr]
  simp only [Option.bind_eq_bind, Option.bind_some]
  rw [if_neg h0]
  rfl

/-- A request that fails goes on to the flush. -/
theorem allocate_flushes (hg : Good c m Nothing) (hsize : size ≤ 2 ^ 64 - 16)
    (hr : c.heap.jit_malloc size = some (0, h)) :
    c.allocate iterate size = do
      let c ← c.flush_all_blocks iterate
      let (dest, heap) ← c.heap.jit_malloc size
      return (dest, { c with heap := heap }) := by
  obtain ⟨live, blocks, chains, hs, -⟩ := hg.stocked.sound
  have hsame : h = c.heap := malloc_fails hs hsize hr
  subst hsame
  unfold BlockCache.allocate
  rw [hr]
  rfl

/-- After a flush there is memory. -/
theorem allocate_full (hg : Good c m Nothing) (hsize : size ≤ 2 ^ 64 - 16)
    (hle : granted size ≤ EE_JIT_HEAP_SIZE - 16) (hr : c.heap.jit_malloc size = some (0, h))
    (hf : Furnished c) (hp : (iterate c.map).Perm c.map) :
    ∃ c', c.allocate iterate size = some (c.heap.heap + 8, c') ∧
      Good c' (fun _ => none) (· = (c.heap.heap + 8, size)) ∧ c'.heap.heap = c.heap.heap ∧
      c'.map = [] := by
  obtain ⟨c₁, hflush, hg₁, hmap, hheap⟩ := flush_spec hg hf hp
  obtain ⟨h₁, hmalloc⟩ := malloc_empty hg₁ hle hsize
  obtain ⟨hg₂, hheap₂⟩ := malloc_good hg₁ hsize hmalloc (Nat.succ_ne_zero _)
  rw [hheap] at hmalloc hg₂
  refine ⟨_, ?_, hg₂, hheap₂.trans hheap, hmap⟩
  rw [allocate_flushes hg hsize hr, hflush]
  simp only [Option.bind_eq_bind, Option.bind_some, hmalloc]
  rfl

/-- A page without an array is a fault of the flush. -/
theorem allocate_fault (hg : Good c m Nothing) (hsize : size ≤ 2 ^ 64 - 16)
    (hr : c.heap.jit_malloc size = some (0, h)) (hf : ¬ Furnished c)
    (hp : (iterate c.map).Perm c.map) : c.allocate iterate size = none := by
  unfold Furnished at hf
  push Not at hf
  obtain ⟨n, hn, hnone⟩ := hf
  rw [allocate_flushes hg hsize hr, BlockCache.flush_all_blocks,
    flush_fault (hp.mem_iff.mpr hn) hnone]
  rfl

/-! ### A block is inserted -/

/-- What `insert_block` does with the memory that it got. -/
def fill (c : BlockCache) (dest pc : ℕ) (block : JitBlock) : Option ((ℕ × ℕ) × BlockCache) := do
  check (dest ≠ 0)
  let c := { c with heap := { c.heap with mem := copy c.heap.mem dest block.bytes } }
  let record : EEJitBlockRecord := block.record dest ⟨pc⟩
  let page := pc / 4096
  let (id, c) := c.lookup_ee_page page
  let page_record ← c.deref id
  let (arr, valid) := page_record.record.ready
  let idx := (pc - 4096 * page) / 4
  check (idx < 1024)
  return ((id, idx), c.set_record id ⟨some (Function.update arr idx record), valid⟩)

theorem insert_eq {pc : ℕ} : c.insert_block iterate pc b =
    (c.allocate iterate b.block_size).bind fun r => fill r.2 r.1 pc b := by
  unfold BlockCache.insert_block
  rw [check_pos (block_size_pos b)]
  rfl

/-- The bytes are put into the object aside. -/
theorem copy_good (hg : Good c m (· = (dest, b.block_size))) :
    Good { c with heap := { c.heap with mem := copy c.heap.mem dest b.bytes } } m
      (· = (dest, b.block_size)) := by
  obtain ⟨⟨live, blocks, chains, hs, hc, hlive⟩, hap, haside⟩ := hg.stocked
  have hmem : (dest, b.block_size) ∈ live := (hlive _).mpr (Or.inr rfl)
  have hs' := copy_sound hs hmem (l := b.bytes) (Nat.le_refl _)
  refine ⟨⟨hg.indexed.pages, hg.indexed.ids, hg.indexed.fresh, hg.indexed.small,
    hg.indexed.cached⟩, ⟨⟨live, blocks, chains, hs', hc, hlive⟩, hap, haside⟩, fun k => ?_,
    hg.lookup⟩
  refine (hg.recorded k).congr fun r hr p h1 h2 => copy_apart ?_
  have hr' : r.extent ∈ live := (hlive _).mpr (Or.inl ⟨k, r, hr, rfl⟩)
  have := live_apart hs hr' hmem (haside _ rfl k r hr)
  unfold JitBlock.block_size at this
  omega

theorem slot_set_record {n : Node} (hi : Indexed c) (hn : n ∈ c.map) (hk : n.page = k / 1024)
    {r : EEJitBlockRecord} (hr : r.literals_start ≠ 0) (v : Bool) (k' : ℕ) :
    slot (c.set_record n.id ⟨some (Function.update n.record.ready.1 (k % 1024) r), v⟩) k' =
      if k' = k then some r else slot c k' := by
  have harray := set_record_array hi hn
    ⟨some (Function.update n.record.ready.1 (k % 1024) r), v⟩ (k' / 1024)
  unfold slot
  rw [harray]
  rcases eq_or_ne (k' / 1024) n.page with hp | hp
  · have hold : array c (k' / 1024) = n.record.block_array := by rw [hp, array_eq hi hn]
    rw [if_pos hp, Option.bind_some, hold]
    rcases eq_or_ne k' k with rfl | hne
    · rw [if_pos rfl, Function.update_self, if_pos hr]
    · rw [if_neg hne, Function.update_of_ne (by omega)]
      unfold EEPageRecord.ready
      cases n.record.block_array with
      | some arr => rfl
      | none => rfl
  · have hne : k' ≠ k := by
      rintro rfl
      exact hp hk.symm
    rw [if_neg hp, if_neg hne]

theorem Points.set_record {ptr : ℕ × ℕ} (h : Points c ptr k) (id : ℕ) (r : EEPageRecord) :
    Points (c.set_record id r) ptr k := by
  obtain ⟨n, hn, hpage, rfl⟩ := h
  obtain ⟨n', hn', hpage', hid, -⟩ := set_record_keeps id r hn
  exact ⟨n', hn', hpage'.trans hpage, by rw [hid]⟩

/-- **The object aside becomes the block of a word** that had none. -/
theorem record_good {n : Node} {v : Bool} {r : EEJitBlockRecord}
    (hg : Good c m (· = (dest, b.block_size))) (h0 : dest ≠ 0) (hn : n ∈ c.map)
    (hk : n.page = k / 1024) (hm : m k = none) (hb : Stands c.heap.mem r b) (hpc : key r.block_data.pc = k)
    (hr : r.literals_start = dest) :
    Good (c.set_record n.id ⟨some (Function.update n.record.ready.1 (k % 1024) r), v⟩)
      (Function.update m k (some b)) Nothing := by
  obtain ⟨⟨live, blocks, chains, hs, hc, hlive⟩, hap, haside⟩ := hg.stocked
  have hslot := slot_set_record hg.indexed hn hk (r := r) (by rw [hr]; exact h0) v
  have hnone : slot c k = none := hg.slot_none_iff.mpr hm
  have hext : r.extent = (dest, b.block_size) := by rw [hb.extent_eq, hr]
  refine ⟨set_record_indexed hg.indexed _ _, ⟨⟨live, blocks, chains, hs, hc, fun o => ?_⟩, ?_, ?_⟩,
    fun k' => ?_, fun i ptr hptr => ?_⟩
  · rw [hlive o]
    simp only [hslot]
    constructor
    · rintro (⟨k', r', hk', rfl⟩ | rfl)
      · have hne : k' ≠ k := by
          rintro rfl
          exact absurd (hk'.symm.trans hnone) (Option.some_ne_none r')
        exact Or.inl ⟨k', r', by rw [if_neg hne]; exact hk', rfl⟩
      · exact Or.inl ⟨k, r, if_pos rfl, hext.symm⟩
    · rintro (⟨k', r', hk', rfl⟩ | hfalse)
      · by_cases hsame : k' = k
        · rw [if_pos hsame, Option.some.injEq] at hk'
          exact Or.inr (hk' ▸ hext)
        · rw [if_neg hsame] at hk'
          exact Or.inl ⟨k', r', hk', rfl⟩
      · exact hfalse.elim
  · intro k₁ k₂ r₁ r₂ h₁ h₂ hsame
    rw [hslot] at h₁ h₂
    by_cases he₁ : k₁ = k <;> by_cases he₂ : k₂ = k
    · rw [he₁, he₂]
    · rw [if_pos he₁, Option.some.injEq] at h₁
      rw [if_neg he₂] at h₂
      exact absurd (hsame.symm.trans ((congrArg _ h₁.symm).trans hr)) (haside _ rfl _ _ h₂)
    · rw [if_neg he₁] at h₁
      rw [if_pos he₂, Option.some.injEq] at h₂
      exact absurd (hsame.trans ((congrArg _ h₂.symm).trans hr)) (haside _ rfl _ _ h₁)
    · rw [if_neg he₁] at h₁
      rw [if_neg he₂] at h₂
      exact hap _ _ _ _ h₁ h₂ hsame
  · exact fun o ho => ho.elim
  · rw [hslot]
    rcases eq_or_ne k' k with rfl | hne
    · rw [if_pos rfl, Function.update_self]
      exact ⟨hpc, hb⟩
    · rw [if_neg hne, Function.update_of_ne hne]
      exact hg.recorded k'
  · obtain ⟨k', hp, hne⟩ := hg.lookup i ptr hptr
    refine ⟨k', hp.set_record _ _, ?_⟩
    rw [hslot]
    split_ifs
    · exact Option.some_ne_none r
    · exact hne

/-- **The memory is filled and recorded.** -/
theorem fill_spec {pc : ℕ} (hg : Good c m (· = (dest, b.block_size))) (h0 : dest ≠ 0)
    (hpc : pc / 4096 ≠ NO_PAGE) (hm : m (key pc) = none) :
    ∃ ptr c' r, fill c dest pc b = some (ptr, c') ∧
      Good c' (Function.update m (key pc) (some b)) Nothing ∧ Points c' ptr (key pc) ∧
      slot c' (key pc) = some r ∧ r.literals_start = dest ∧ r.block_data.pc = pc ∧
      (∀ k, k ≠ key pc → slot c' k = slot c k) ∧ c'.heap.heap = c.heap.heap ∧
      ((∀ n ∈ c.map, n.record.block_array = none → n.page = key pc / 1024) → Furnished c') := by
  have hg₁ := copy_good hg
  obtain ⟨n, c₂, hlookup, hn, hpage, hi₂, he⟩ := lookup_spec hg₁.indexed hpc
  rw [page_key] at hpage
  have hg₂ := hg₁.extends hi₂ he
  let r : EEJitBlockRecord := b.record dest ⟨pc⟩
  have hstands : Stands c₂.heap.mem r b := by
    rw [he.heap]
    exact stands_copy _ b dest _
  have hslot := slot_set_record hi₂ hn hpage (r := r) h0 n.record.ready.2
  have hothers : ∀ k, slot c₂ k = slot c k := slot_congr (he.array_eq hg₁.indexed hi₂)
  have hheap : c₂.heap.heap = c.heap.heap := by rw [he.heap]
  refine ⟨(n.id, key pc % 1024), _, r, ?_,
    record_good (v := n.record.ready.2) hg₂ h0 hn hpage hm hstands rfl rfl,
    Points.set_record ⟨n, hn, hpage, rfl⟩ _ _, by rw [hslot, if_pos rfl], rfl, rfl,
    fun k hk => by rw [hslot, if_neg hk, hothers], hheap, ?_⟩
  · unfold fill
    rw [check_pos h0]
    simp only [Option.bind_eq_bind, Option.bind_some]
    rw [hlookup, idx_key]
    dsimp only
    rw [deref_eq hi₂ hn]
    simp only [Option.bind_some]
    rw [check_pos (Nat.mod_lt _ (by omega) : key pc % 1024 < 1024)]
    rfl
  · intro hbare n' hn'
    obtain ⟨n₀, hn₀, -, -, hrec⟩ := set_record_map _ _ hn'
    rw [hrec]
    by_cases hid : n₀.id = n.id
    · rw [if_pos hid]
      exact Option.some_ne_none _
    · rw [if_neg hid]
      intro hnone
      have hp : n₀.page = key pc / 1024 := by
        rcases he.new n₀ hn₀ with hold | ⟨hp, -⟩
        · exact hbare n₀ hold hnone
        · exact hp.trans (page_key pc)
      exact hid ((page_eq_iff hi₂ hn₀ hn).mp (hp.trans hpage.symm))

end

end DobieStation.JitHeap.Insertion
