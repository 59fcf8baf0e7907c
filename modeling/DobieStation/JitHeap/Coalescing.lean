import DobieStation.JitHeap.Safety
import Mathlib.Data.List.Chain

/-! # What is free is found

`jit_free` merges greedily, so no two neighbours are ever both free, and when every object is freed
the heap is one free block again. `jit_malloc` looks at some of the free blocks only, the
`Candidate`s: it hands out no object exactly when there is none. -/

namespace DobieStation.JitHeap.Coalescing

open DobieStation.Lib.Memory DobieStation.Lib.LinkedList DobieStation.Lib.Reach
open DobieStation.JitHeap.Model DobieStation.JitHeap.Model.EEJitHeap
open DobieStation.JitHeap.Layout DobieStation.JitHeap.Allocator DobieStation.JitHeap.Safety

/-! ### Neighbours -/

/-- One of two neighbours is in use. -/
def Parted (b c : Block) : Prop := b.free = false ∨ c.free = false

/-- No two neighbours are both free. -/
def Coalesced (l : List Block) : Prop := l.IsChain Parted

section
variable {pre post l : List Block} {b b' c : Block}

theorem parted_left (hb : b.free = false) : Parted b c := Or.inl hb

theorem parted_right (hc : c.free = false) : Parted b c := Or.inr hc

theorem not_parted (hb : b.free = true) (hc : c.free = true) : ¬ Parted b c := by
  rintro (h | h)
  · exact absurd h (by rw [hb]; exact Bool.noConfusion)
  · exact absurd h (by rw [hc]; exact Bool.noConfusion)

/-- A block in use keeps what is around it apart. -/
theorem coalesced_used (hb : b.free = false) :
    Coalesced (pre ++ b :: post) ↔ Coalesced pre ∧ Coalesced post := by
  unfold Coalesced
  rw [List.isChain_append, List.isChain_cons]
  constructor
  · rintro ⟨hpre, ⟨-, hpost⟩, -⟩
    exact ⟨hpre, hpost⟩
  · rintro ⟨hpre, hpost⟩
    refine ⟨hpre, ⟨fun c _ => parted_left hb, hpost⟩, fun x _ y hy => ?_⟩
    rw [List.head?_cons, Option.mem_def, Option.some.injEq] at hy
    exact parted_right (hy ▸ hb)

/-- Between blocks in use, or the ends, a block may be free. -/
theorem coalesced_free (hb : b.free = true) :
    Coalesced (pre ++ b :: post) ↔
      Coalesced pre ∧ Coalesced post ∧ (∀ c ∈ pre.getLast?, c.free = false) ∧
        ∀ c ∈ post.head?, c.free = false := by
  have hleft : ∀ c, Parted c b ↔ c.free = false := by
    intro c
    unfold Parted
    rw [hb]
    simp
  have hright : ∀ c, Parted b c ↔ c.free = false := by
    intro c
    unfold Parted
    rw [hb]
    simp
  unfold Coalesced
  rw [List.isChain_append, List.isChain_cons]
  simp only [List.head?_cons, Option.mem_def, Option.some.injEq, forall_eq', hleft, hright]
  constructor
  · rintro ⟨hpre, ⟨hnext, hpost⟩, hlast⟩
    exact ⟨hpre, hpost, hlast, hnext⟩
  · rintro ⟨hpre, hpost, hlast, hnext⟩
    exact ⟨hpre, ⟨hnext, hpost⟩, hlast⟩

theorem coalesced_head (hb : b.free = true) :
    Coalesced (b :: post) ↔ Coalesced post ∧ ∀ c ∈ post.head?, c.free = false := by
  rw [← List.nil_append (b :: post), coalesced_free hb]
  constructor
  · rintro ⟨-, hpost, -, hnext⟩
    exact ⟨hpost, hnext⟩
  · rintro ⟨hpost, hnext⟩
    exact ⟨List.isChain_nil, hpost, by simp, hnext⟩

/-- Without a block in use at most one block is left. -/
theorem coalesced_all_free (hc : Coalesced l) (hf : ∀ b ∈ l, b.free = true) : l.length ≤ 1 := by
  cases l with
  | nil => exact Nat.zero_le 1
  | cons b l =>
    cases l with
    | nil => exact Nat.le_refl 1
    | cons c l =>
      have hparted := (List.isChain_cons_cons.mp hc).1
      exact absurd hparted (not_parted (hf b (by simp)) (hf c (by simp)))

end

/-! ### The layout is in the tags -/

/-- What the tags of a block say. -/
def Tagged (h : EEJitHeap) (b : Block) : Prop :=
  256 ≤ b.size ∧ h.get_size b.addr = b.size ∧
    h.word (b.addr + b.size) = if b.free then b.size else 0

theorem tagged_unique {h : EEJitHeap} {b c : Block} (hb : Tagged h b) (hc : Tagged h c)
    (haddr : b.addr = c.addr) : b = c := by
  obtain ⟨addr, size, free⟩ := b
  obtain ⟨addr', size', free'⟩ := c
  obtain ⟨hb0, hbsize, hbend⟩ := hb
  obtain ⟨-, hcsize, hcend⟩ := hc
  dsimp only at hb0 hbsize hbend hcsize hcend haddr
  subst haddr
  have hsize : size = size' := hbsize.symm.trans hcsize
  subst hsize
  rw [hbend] at hcend
  have hne : size ≠ 0 := by omega
  cases free <;> cases free' <;> simp_all

theorem tiles_unique {h : EEJitHeap} {q : ℕ} {l l' : List Block} {p : ℕ} (hl : Tiles p l q)
    (hl' : Tiles p l' q) (htag : ∀ b ∈ l, Tagged h b) (htag' : ∀ b ∈ l', Tagged h b) : l = l' := by
  induction l generalizing p l' with
  | nil =>
    have hend : p = q := hl
    cases l' with
    | nil => rfl
    | cons c l' =>
      have := tiles_bounds hl' (b := c) List.mem_cons_self
      omega
  | cons b l ih =>
    cases l' with
    | nil =>
      have hend : p = q := hl'
      have := tiles_bounds hl (b := b) List.mem_cons_self
      omega
    | cons c l' =>
      obtain ⟨hb, hl⟩ := hl
      obtain ⟨hc, hl'⟩ := hl'
      have hsame : b = c := tagged_unique (htag b List.mem_cons_self)
        (htag' c List.mem_cons_self) (hb.trans hc.symm)
      subst hsame
      rw [ih hl hl' (fun d hd => htag d (List.mem_cons_of_mem _ hd))
        fun d hd => htag' d (List.mem_cons_of_mem _ hd)]

theorem laid_unique {h : EEJitHeap} {l l' : List Block} {chains chains' : ℕ → List ℕ}
    (hl : Laid h l chains) (hl' : Laid h l' chains') : l = l' := by
  exact tiles_unique (h := h) hl.tiles hl'.tiles
    (fun b hb => ⟨(hl.sized b hb).2, hl.tagged b hb⟩)
    fun b hb => ⟨(hl'.sized b hb).2, hl'.tagged b hb⟩

/-! ### Freeing -/

section
variable {h h' : EEJitHeap} {pre post blocks : List Block} {chains : ℕ → List ℕ} {b c : Block}

/-- Forwards: at most the next block is free. -/
theorem merge_fwd_coalesced (hl : Laid h (pre ++ b :: post) chains) (hb : b.free = true)
    (hpost : Coalesced post) (fuel : ℕ) :
    ∃ h' s' post' chains', whileMerge (merge_fwd · b.addr) (fuel + 2) h = some h' ∧
      Laid h' (pre ++ ⟨b.addr, s', true⟩ :: post') chains' ∧ Coalesced post' ∧
      ∀ c ∈ post'.head?, c.free = false := by
  cases post with
  | nil =>
    exact ⟨h, b.size, [], chains, whileMerge_stop _ (merge_fwd_last hl), by rwa [free_eq hb], hpost,
      by simp⟩
  | cons c post =>
    cases hc : c.free with
    | false =>
      exact ⟨h, b.size, c :: post, chains, whileMerge_stop _ (merge_fwd_used hl hc),
        by rwa [free_eq hb], hpost, by simp [hc]⟩
    | true =>
      obtain ⟨h₁, chains₁, hstep, hl₁, -⟩ := merge_fwd_free hl hb hc
      obtain ⟨hpost', hnext⟩ := (coalesced_head hc).1 hpost
      have hlast : h₁.merge_fwd b.addr = some (false, h₁) := by
        cases post with
        | nil => exact merge_fwd_last (b := ⟨b.addr, b.size + c.size + 16, true⟩) hl₁
        | cons d post =>
          exact merge_fwd_used (b := ⟨b.addr, b.size + c.size + 16, true⟩) hl₁ (hnext d (by simp))
      have hnext₁ : whileMerge (merge_fwd · b.addr) (fuel + 2) h =
          whileMerge (merge_fwd · b.addr) (fuel + 1) h₁ := whileMerge_next _ hstep
      exact ⟨h₁, b.size + c.size + 16, post, chains₁, hnext₁.trans (whileMerge_stop _ hlast), hl₁,
        hpost', hnext⟩

/-- Backwards: at most the block before is free. -/
theorem merge_bwd_coalesced (hl : Laid h (pre ++ b :: post) chains) (hb : b.free = true)
    (hpre : Coalesced pre) (hpost : Coalesced post) (hnext : ∀ c ∈ post.head?, c.free = false)
    (fuel : ℕ) :
    ∃ h' blocks' chains', whileMerge (merge_bwd · b.addr) (fuel + 2) h = some h' ∧
      Laid h' blocks' chains' ∧ Coalesced blocks' := by
  have hstay : h.merge_bwd b.addr = some (false, h) → (∀ c ∈ pre.getLast?, c.free = false) →
      ∃ h' blocks' chains', whileMerge (merge_bwd · b.addr) (fuel + 2) h = some h' ∧
        Laid h' blocks' chains' ∧ Coalesced blocks' := fun hstep hlast =>
    ⟨h, _, chains, whileMerge_stop _ hstep, hl, (coalesced_free hb).mpr ⟨hpre, hpost, hlast, hnext⟩⟩
  rcases List.eq_nil_or_concat pre with rfl | ⟨pre', c, rfl⟩
  · have hfirst : b.addr = h.heap + 8 := hl.tiles.1
    exact hstay (merge_bwd_zero (Or.inl (by omega))) (by simp)
  · rw [List.concat_eq_append] at hpre hstay
    rw [List.concat_eq_append, ← List.append_cons] at hl
    have hcm : c ∈ pre' ++ c :: b :: post := by simp
    have hadj := tiles_adjacent hl.tiles
    have hcb := hl.bounds hcm
    obtain ⟨hsize, hend⟩ := hl.tagged c hcm
    have haddr : b.addr - 8 - 8 = c.addr + c.size := by omega
    cases hc : c.free with
    | false =>
      refine hstay (merge_bwd_zero (Or.inr ?_)) (by simp [hc])
      rw [haddr, hend, hc, if_neg Bool.false_ne_true]
    | true =>
      rw [hc, if_pos rfl] at hend
      have hc0 : c.size ≠ 0 := by
        have := (hl.sized c hcm).2
        omega
      obtain ⟨h', chains', hmerge, hl', -, hword⟩ := merge_laid hl hc hb (Or.inr ⟨rfl, rfl⟩)
      have hstep : h.merge_bwd b.addr = some (true, h') := by
        unfold merge_bwd
        dsimp only
        rw [haddr, if_neg (by omega), hend, if_pos hc0, Nat.add_sub_cancel, hsize, hmerge]
        simp only [check, if_true, Option.bind_eq_bind, Option.bind_some]
        rfl
      have hlast : h'.merge_bwd b.addr = some (false, h') :=
        merge_bwd_zero (Or.inr (by rw [haddr, hword]))
      obtain ⟨hpre', -, hbefore, -⟩ := (coalesced_free hc).mp hpre
      have hnext₁ : whileMerge (merge_bwd · b.addr) (fuel + 2) h =
          whileMerge (merge_bwd · b.addr) (fuel + 1) h' := whileMerge_next _ hstep
      exact ⟨h', _, chains', hnext₁.trans (whileMerge_stop _ hlast), hl',
        (coalesced_free rfl).mpr ⟨hpre', hpost, hbefore, hnext⟩⟩

/-- **Freed memory is merged with what is free around it.** -/
theorem jit_free_coalesced (hl : Laid h (pre ++ b :: post) chains) (hb : b.free = false)
    (husage : b.size ≤ h.heap_usage) (hc : Coalesced (pre ++ b :: post)) :
    ∃ h' blocks' chains', h.jit_free b.addr = some h' ∧ Laid h' blocks' chains' ∧
      Coalesced blocks' := by
  have hbm : b ∈ pre ++ b :: post := by simp
  have hsize := (hl.tagged b hbm).1
  have hbound := hl.bounds hbm
  obtain ⟨hpre, hpost⟩ := (coalesced_used hb).mp hc
  obtain ⟨h₁, hput, hl₁, -⟩ := put_free (hl.usage (h.heap_usage - b.size)) hb
  have hsize64 := heap_size_eq
  obtain ⟨fuel, hfuel⟩ : ∃ k, EE_JIT_HEAP_SIZE = k + 2 := ⟨EE_JIT_HEAP_SIZE - 2, by omega⟩
  obtain ⟨h₂, s₂, post₂, chains₂, hfwd, hl₂, hpost₂, hnext⟩ :=
    merge_fwd_coalesced hl₁ rfl hpost fuel
  obtain ⟨h₃, blocks₃, chains₃, hbwd, hl₃, hc₃⟩ :=
    merge_bwd_coalesced hl₂ rfl hpre hpost₂ hnext fuel
  refine ⟨h₃, blocks₃, chains₃, ?_, hl₃, hc₃⟩
  unfold jit_free
  rw [hfuel]
  exact free_within_eq (by omega) hsize husage hput hfwd hbwd

end

/-! ### Handing out -/

/-- The size that is searched for when `size` bytes are asked for. -/
def granted (size : ℕ) : ℕ := max (get_min_bin_size 0) (aligned_size size)

theorem granted_spec (size : ℕ) : 256 ≤ granted size ∧ granted size % JIT_ALLOC_ALIGN = 0 := by
  have h256 : get_min_bin_size 0 = 256 := rfl
  have h16 : JIT_ALLOC_ALIGN = 16 := rfl
  unfold granted aligned_size
  rw [h16, h256]
  omega

section
variable {h h' : EEJitHeap} {pre post blocks : List Block} {chains : ℕ → List ℕ} {b : Block}
  {a s size m : ℕ}

theorem jit_malloc_eq : h.jit_malloc size = (h.find_memory (granted size)).map fun r =>
    (r.1, if r.1 ≠ 0 then { r.2 with heap_usage := r.2.heap_usage + r.2.get_size r.1 } else r.2) := by
  have hlarge : ¬ granted size < FreeList_size := by
    have := (granted_spec size).1
    unfold FreeList_size
    omega
  unfold jit_malloc
  change (h.find_memory (if granted size < FreeList_size then FreeList_size else granted size)).bind _ = _
  rw [if_neg hlarge]
  cases h.find_memory (granted size) with
  | none => rfl
  | some r =>
    obtain ⟨m, h'⟩ := r
    by_cases hm : m = 0 <;> simp [hm]

theorem check_some {p : Prop} [Decidable p] {u : Unit} (hc : check p = some u) : p := by
  unfold check at hc
  split_ifs at hc with hp
  exact hp

theorem shrink_splits (hs : h.shrink_object a size = some h') :
    size ≤ h.get_size a ∧ h.split_object a size (h.get_size a) = some h' := by
  unfold shrink_object at hs
  simp only [Option.bind_eq_bind, Option.bind_eq_some_iff, Option.pure_def, Option.some.injEq] at hs
  obtain ⟨-, -, -, -, ⟨⟩, hle, h₁, hsplit, -, -, -, -, rfl⟩ := hs
  exact ⟨check_some hle, hsplit⟩

theorem take_steps {r : ℕ × EEJitHeap} (ht : h.take a size = some r) :
    r.1 = a ∧ ∃ h₁, h.remove_memory_from_bin a = some h₁ ∧ size ≤ h₁.get_size a ∧
      h₁.split_object a size (h₁.get_size a) = some r.2 := by
  unfold EEJitHeap.take at ht
  simp only [Option.bind_eq_bind, Option.bind_eq_some_iff, Option.pure_def, Option.some.injEq] at ht
  obtain ⟨h₁, hremove, h₂, hshrink, rfl⟩ := ht
  exact ⟨rfl, h₁, hremove, shrink_splits hshrink⟩

/-- What is found is taken. -/
theorem find_memory_takes (hf : h.find_memory size = some (m, h')) (hm : m ≠ 0) :
    h.take m size = some (m, h') := by
  have hsame : ∀ a, h.take a size = some (m, h') → h.take m size = some (m, h') := by
    intro a ha
    have : m = a := (take_steps ha).1
    rwa [this] at ha ⊢
  unfold find_memory at hf
  dsimp only at hf
  by_cases hsel : h.select_bin size ≠ 0
  · rw [if_pos hsel] at hf
    exact hsame _ hf
  · rw [if_neg hsel, Option.bind_eq_bind, Option.bind_eq_some_iff] at hf
    obtain ⟨r, -, hr⟩ := hf
    by_cases hr0 : r ≠ 0
    · rw [if_pos hr0] at hr
      exact hsame _ hr
    · rw [if_neg hr0, Option.pure_def, Option.some.injEq, Prod.mk.injEq] at hr
      exact absurd hr.1.symm hm

theorem split_object_coalesced (hl : Laid h (pre ++ ⟨a, s, false⟩ :: post) chains)
    (hsize : size % JIT_ALLOC_ALIGN = 0) (hmin : 256 ≤ size) (hle : size ≤ s)
    (hpre : Coalesced pre) (hpost : Coalesced post) (hnext : ∀ c ∈ post.head?, c.free = false)
    (hsplit : h.split_object a size s = some h') :
    ∃ blocks' chains', Laid h' blocks' chains' ∧ Coalesced blocks' := by
  have hbm : (⟨a, s, false⟩ : Block) ∈ pre ++ ⟨a, s, false⟩ :: post := by simp
  have hbound := hl.bounds hbm
  have hbelow := hl.below
  have h256 : get_min_bin_size 0 = 256 := rfl
  dsimp only at hbound
  unfold split_object at hsplit
  split_ifs at hsplit with hc
  · have hcut : Laid (cut h a s size) ((pre ++ [⟨a, size, false⟩]) ++
        ⟨a + size + 16, s - size - 16, false⟩ :: post) chains := by
      rw [List.append_cons] at hl
      have := split_laid hl hsize hmin (by omega)
      rwa [List.append_assoc] at this ⊢
    obtain ⟨h₁, hput, hl₁, -⟩ := put_free hcut rfl
    have hsize1 : (h.set_size a size).get_size a = size := word_set_word_self _ (by omega)
    have hsize2 : ((h.set_size a size).set_word (a + size) 0).get_size a = size :=
      (word_set_word _ (by omega)).trans hsize1
    rw [set_end_eq hsize1 hsize] at hsplit
    simp only [Option.bind_eq_bind, Option.bind_some, get_next_object, hsize2] at hsplit
    have hsame : h₁ = h' := Option.some.inj (hput.symm.trans hsplit)
    subst hsame
    rw [List.append_assoc] at hl₁
    refine ⟨_, _, hl₁, (coalesced_used rfl).mpr ⟨hpre, ?_⟩⟩
    exact (coalesced_head rfl).2 ⟨hpost, hnext⟩
  · have hsame : h = h' := Option.some.inj hsplit
    subst hsame
    exact ⟨_, _, hl, (coalesced_used rfl).mpr ⟨hpre, hpost⟩⟩

/-- **What is split off stands between blocks in use.** -/
theorem jit_malloc_coalesced (hl : Laid h blocks chains) (hc : Coalesced blocks)
    (hle : size ≤ 2 ^ 64 - 16) {r : ℕ × EEJitHeap} (hr : h.jit_malloc size = some r) :
    ∃ blocks' chains', Laid r.2 blocks' chains' ∧ Coalesced blocks' := by
  rcases jit_malloc_laid hl size hle with hnone | ⟨pre, b, post, h', -, -, -, rfl, hf, hsome, -⟩
  · rw [hnone, Option.some.injEq] at hr
    exact ⟨blocks, chains, hr ▸ hl, hc⟩
  · have hb0 : b.addr ≠ 0 := by
      have := (hl.bounds (b := b) (by simp)).1
      omega
    obtain ⟨hmin, hsize⟩ := granted_spec size
    rw [hsome, Option.some.injEq] at hr
    rw [jit_malloc_eq, Option.map_eq_some_iff] at hsome
    obtain ⟨⟨m, h''⟩, hfind, hpair⟩ := hsome
    rw [Prod.mk.injEq] at hpair
    obtain ⟨hm, hh'⟩ := hpair
    dsimp only at hm hh'
    rw [hm] at hfind hh'
    rw [if_pos hb0] at hh'
    obtain ⟨-, h₁, hremove, hfits, hsplit⟩ := take_steps (find_memory_takes hfind hb0)
    obtain ⟨h₂, htake, hl₂, -⟩ := take_free hl hf
    have hsame : h₂ = h₁ := Option.some.inj (htake.symm.trans hremove)
    subst hsame
    obtain ⟨hpre, hpost, -, hnext⟩ := (coalesced_free hf).mp hc
    have htag : h₂.get_size b.addr = b.size := (hl₂.tagged { b with free := false } (by simp)).1
    rw [htag] at hfits hsplit
    obtain ⟨blocks', chains', hl', hc'⟩ :=
      split_object_coalesced hl₂ hsize hmin hfits hpre hpost hnext hsplit
    refine ⟨blocks', chains', ?_, hc'⟩
    rw [← hr, ← hh']
    exact hl'.usage _

end

/-! ### What is looked at -/

/-- The first of the small bins all of whose chunks are large enough. -/
def first_bin (n : ℕ) : ℕ :=
  ((List.range JIT_ALLOC_BINS).find? fun i => n ≤ get_min_bin_size i).getD JIT_ALLOC_BINS

theorem first_bin_le {n i : ℕ} (hi : i < JIT_ALLOC_BINS) :
    first_bin n ≤ i ↔ n ≤ get_min_bin_size i := by
  unfold first_bin
  cases hf : (List.range JIT_ALLOC_BINS).find? fun i => decide (n ≤ get_min_bin_size i) with
  | none =>
    have hall := List.find?_eq_none.mp hf i (List.mem_range.mpr hi)
    rw [Option.getD_none]
    simp only [decide_eq_true_eq] at hall
    constructor
    · intro hle
      omega
    · intro hle
      exact absurd hle hall
  | some j =>
    obtain ⟨hj, -, hbefore⟩ := List.find?_range_eq_some.mp hf
    rw [Option.getD_some]
    simp only [decide_eq_true_eq] at hj
    constructor
    · intro hle
      have hmono : get_min_bin_size j ≤ get_min_bin_size i :=
        Nat.pow_le_pow_right (by decide) (Nat.add_le_add_left hle _)
      omega
    · intro hle
      by_contra hlt
      have := hbefore i (by omega)
      simp only [Bool.not_eq_true', decide_eq_false_iff_not] at this
      exact this hle

/-- A free block that a search for `n` bytes looks at and that is large enough. -/
def Candidate (n : ℕ) (b : Block) : Prop :=
  b.free = true ∧ n ≤ b.size ∧
    (pick_bin b.size = JIT_ALLOC_BINS ∨ n ≤ get_min_bin_size (pick_bin b.size))

instance (n : ℕ) (b : Block) : Decidable (Candidate n b) := by unfold Candidate; infer_instance

theorem pick_bin_le (size : ℕ) : pick_bin size ≤ JIT_ALLOC_BINS := by
  unfold pick_bin
  cases hf : (List.range JIT_ALLOC_BINS).find? fun i => decide (size < get_max_bin_size i) with
  | none => exact Nat.le_refl _
  | some i => exact Nat.le_of_lt (List.mem_range.mp (List.mem_of_find?_eq_some hf))

/-- A free block of twice the size is looked at. -/
theorem candidate_double {n : ℕ} {b : Block} (hf : b.free = true) (hsize : 2 * n ≤ b.size) :
    Candidate n b := by
  refine ⟨hf, by omega, ?_⟩
  rcases Nat.lt_or_eq_of_le (pick_bin_le b.size) with hlt | heq
  · right
    have hmax : b.size < get_max_bin_size (pick_bin b.size) := by
      revert hlt
      unfold pick_bin
      cases hfind : (List.range JIT_ALLOC_BINS).find? fun i =>
          decide (b.size < get_max_bin_size i) with
      | none =>
        intro hlt
        exact absurd hlt (Nat.lt_irrefl _)
      | some i =>
        intro _
        have := List.find?_some hfind
        simpa using this
    unfold get_max_bin_size at hmax
    unfold get_min_bin_size
    rw [Nat.pow_succ] at hmax
    omega
  · exact Or.inl heq

section
variable {h h' : EEJitHeap} {blocks : List Block} {chains : ℕ → List ℕ} {n : ℕ}

theorem Laid.list_eq_zero (hl : Laid h blocks chains) {i : ℕ} (h0 : h.free_bin_lists i = 0) :
    chains i = [] := by
  have hlinked := hl.linked i
  cases hc : chains i with
  | nil => rfl
  | cons a l =>
    rw [hc, h0] at hlinked
    exact absurd hlinked.1.symm hlinked.2.1

/-- The search of the large bin finds nothing only when there is nothing. -/
theorem find_smallest_zero {l : List ℕ} {p c m : ℕ} (fuel : ℕ) (hl : Linked h.next h.prev p c l)
    (hlt : l.length < fuel) (hm : ∀ a ∈ l, h.get_size a < m)
    (hzero : h.find_smallest n fuel c m 0 = some 0) : ∀ a ∈ l, h.get_size a < n := by
  induction l generalizing p c fuel with
  | nil => simp
  | cons a l ih =>
    obtain ⟨fuel, rfl⟩ : ∃ k, fuel = k + 1 := ⟨fuel - 1, by simp at hlt; omega⟩
    rw [List.length_cons] at hlt
    obtain ⟨rfl, h0, -, ht⟩ := hl
    rw [find_smallest, if_neg h0] at hzero
    split_ifs at hzero with hc
    · obtain ⟨r, hr, hor⟩ := find_smallest_spec fuel (h.get_size c) c ht (by omega)
      rw [hr, Option.some.injEq] at hzero
      subst hzero
      rcases hor with rfl | ⟨hmem, -⟩
      · exact absurd rfl h0
      · exact absurd rfl (ht.ne_zero hmem)
    · have hcm := hm c List.mem_cons_self
      intro a ha
      rcases List.mem_cons.mp ha with rfl | ha
      · omega
      · exact ih fuel ht (by omega) (fun b hb => hm b (List.mem_cons_of_mem _ hb)) hzero a ha

/-- The head of the first list that is not empty, from the bin of the size on. -/
theorem select_bin_eq : h.select_bin n = ((List.range JIT_ALLOC_BINS).find? fun i =>
    decide (first_bin n ≤ i ∧ h.free_bin_lists i ≠ 0)).elim 0 h.free_bin_lists := by
  unfold select_bin
  dsimp only
  split
  · next i hi =>
    have hfind : ((List.range JIT_ALLOC_BINS).find? fun i =>
      decide (first_bin n ≤ i ∧ h.free_bin_lists i ≠ 0)) = some i := hi
    rw [hfind, Option.elim_some]
  · next hi =>
    have hfind : ((List.range JIT_ALLOC_BINS).find? fun i =>
      decide (first_bin n ≤ i ∧ h.free_bin_lists i ≠ 0)) = none := hi
    rw [hfind, Option.elim_none]

theorem select_bin_zero (h0 : h.select_bin n = 0) {i : ℕ} (hi : i < JIT_ALLOC_BINS)
    (hle : n ≤ get_min_bin_size i) : h.free_bin_lists i = 0 := by
  by_contra hne
  rw [select_bin_eq] at h0
  cases hf : (List.range JIT_ALLOC_BINS).find? fun i =>
      decide (first_bin n ≤ i ∧ h.free_bin_lists i ≠ 0) with
  | none =>
    have hall := List.find?_eq_none.mp hf i (List.mem_range.mpr hi)
    rw [decide_eq_true_eq] at hall
    exact hall ⟨(first_bin_le hi).mpr hle, hne⟩
  | some j =>
    rw [hf, Option.elim_some] at h0
    have hj := List.find?_some hf
    rw [decide_eq_true_eq] at hj
    exact hj.2 h0

theorem select_bin_candidate (hl : Laid h blocks chains) (h0 : h.select_bin n ≠ 0) :
    ∃ b ∈ blocks, Candidate n b := by
  have hsel : ∃ i < JIT_ALLOC_BINS, n ≤ get_min_bin_size i ∧ h.free_bin_lists i ≠ 0 := by
    by_contra hnone
    refine h0 ?_
    rw [select_bin_eq, List.find?_eq_none.mpr, Option.elim_none]
    intro i hi
    rw [decide_eq_true_eq]
    rintro ⟨hle, hne⟩
    have hi := List.mem_range.mp hi
    exact hnone ⟨i, hi, (first_bin_le hi).mp hle, hne⟩
  obtain ⟨i, hi, hle, hne⟩ := hsel
  obtain ⟨-, b, hb, -, hf, hbin⟩ := hl.binned i _ ((hl.linked i).head_mem hne)
  have hmin := pick_bin_small (hl.sized b hb).2 hbin hi
  exact ⟨b, hb, hf, by omega, Or.inr (by rw [hbin]; exact hle)⟩

/-- **Nothing is found exactly when there is no candidate.** -/
theorem find_memory_zero_iff (hl : Laid h blocks chains) {r : ℕ × EEJitHeap}
    (hfind : h.find_memory n = some r) :
    r.1 = 0 ↔ ∀ b ∈ blocks, ¬ Candidate n b := by
  unfold find_memory at hfind
  dsimp only at hfind
  have hscan := @find_smallest_spec h n _ _ _ EE_JIT_HEAP_SIZE (2 ^ 64 - 1) 0
    (hl.linked JIT_ALLOC_BINS) (chain_length hl _)
  obtain ⟨m, hm, hor⟩ := hscan
  by_cases hsel : h.select_bin n ≠ 0
  · rw [if_pos hsel] at hfind
    obtain ⟨b, hb, hc⟩ := select_bin_candidate hl hsel
    constructor
    · intro h0
      exact absurd ((take_steps hfind).1.symm.trans h0) hsel
    · intro hnone
      exact absurd hc (hnone b hb)
  · rw [if_neg hsel, hm, Option.bind_eq_bind, Option.bind_some] at hfind
    by_cases hm0 : m ≠ 0
    · rw [if_pos hm0] at hfind
      have hmem := hor.resolve_left hm0
      obtain ⟨-, b, hb, hba, hf, hbin⟩ := hl.binned _ _ hmem.1
      rw [← hba, (hl.tagged b hb).1] at hmem
      constructor
      · intro h0
        exact absurd ((take_steps hfind).1.symm.trans h0) hm0
      · intro hnone
        exact absurd ⟨hf, hmem.2, Or.inl hbin⟩ (hnone b hb)
    · rw [if_neg hm0, Option.pure_def, Option.some.injEq] at hfind
      have hm0 : m = 0 := not_not.mp hm0
      subst hm0
      have hsizes : ∀ a ∈ chains JIT_ALLOC_BINS, h.get_size a < 2 ^ 64 - 1 := by
        intro a ha
        obtain ⟨b, hb, rfl, -⟩ := hl.chained ha
        have := hl.bounds hb
        have := hl.below
        rw [(hl.tagged b hb).1]
        omega
      have hsmall := find_smallest_zero EE_JIT_HEAP_SIZE (hl.linked JIT_ALLOC_BINS)
        (chain_length hl _) hsizes hm
      refine ⟨fun _ b hb => ?_, fun _ => by rw [← hfind]⟩
      rintro ⟨hf, hle, hbin⟩
      have hcov := hl.covered b hb hf
      rcases Nat.lt_or_eq_of_le (pick_bin_le b.size) with hlt | heq
      · have hbin := hbin.resolve_left (Nat.ne_of_lt hlt)
        have hempty := Laid.list_eq_zero hl (select_bin_zero (not_not.mp hsel) hlt hbin)
        rw [hempty] at hcov
        exact absurd hcov List.not_mem_nil
      · rw [heq] at hcov
        have := hsmall _ hcov
        rw [(hl.tagged b hb).1] at this
        omega

end

/-! ### Runs -/

section
variable {s : Machine} {blocks : List Block} {chains : ℕ → List ℕ}

theorem step_coalesced (hs : Sound s blocks chains) (hc : Coalesced blocks) {a : Act}
    (hfits : a.Roundable) (hlegal : Legal s a) :
    ∃ s' blocks' chains', exec s a = some s' ∧ Sound s' blocks' chains' ∧ Coalesced blocks' := by
  obtain ⟨s', blocks', chains', hexec, hs'⟩ := step_sound hs hfits hlegal
  refine ⟨s', blocks', chains', hexec, hs', ?_⟩
  cases a with
  | malloc size =>
    rw [exec, Option.map_eq_some_iff] at hexec
    obtain ⟨r, hr, rfl⟩ := hexec
    obtain ⟨blocks₁, chains₁, hl₁, hc₁⟩ := jit_malloc_coalesced hs.laid hc hfits hr
    rwa [laid_unique hs'.laid hl₁]
  | free ptr =>
    obtain ⟨o, ho, rfl⟩ := hlegal
    obtain ⟨b, hb, hba, -⟩ := hs.large o ho
    obtain ⟨hbm, hbf⟩ := mem_used.mp hb
    obtain ⟨pre, post, rfl⟩ := List.append_of_mem hbm
    have husage := hs.usage
    rw [used_size_append, used_size_cons _ hbf] at husage
    obtain ⟨h₁, blocks₁, chains₁, hfree, hl₁, hc₁⟩ :=
      jit_free_coalesced hs.laid hbf (by omega) hc
    rw [exec, ← hba, hfree, Option.map_some, Option.some.injEq] at hexec
    have hl' := hs'.laid
    rw [← hexec] at hl'
    rwa [laid_unique hl' hl₁]
  | write x v =>
    obtain ⟨o, ho, h1, h2⟩ := hlegal
    obtain ⟨b, hb, hbo, hle⟩ := hs.large o ho
    obtain ⟨hbm, hbf⟩ := mem_used.mp hb
    obtain ⟨pre, post, rfl⟩ := List.append_of_mem hbm
    have hlaid := poke_laid (x := v) hs.laid hbf (by omega) (by omega : x < b.addr + b.size)
    rw [exec, Option.some.injEq] at hexec
    have hl' := hs'.laid
    rw [← hexec] at hl'
    rwa [laid_unique hl' hlaid]

theorem init_coalesced (hi : Init s) : ∃ blocks chains, Sound s blocks chains ∧ Coalesced blocks := by
  obtain ⟨blocks, chains, hs⟩ := init_sound hi
  obtain ⟨-, mem, heap, -, hbelow, hinit⟩ := hi
  rw [init_allocator_eq, Option.some.injEq] at hinit
  have hl := hs.laid
  rw [← hinit] at hl
  refine ⟨blocks, chains, hs, ?_⟩
  rw [laid_unique hl (fresh_laid hbelow)]
  exact List.isChain_singleton _

theorem reaches_coalesced (h : Reaches Init (Only (fun _ a => a.Roundable) Step) s) :
    ∃ blocks chains, Sound s blocks chains ∧ Coalesced blocks := by
  refine h.invariant (I := fun s => ∃ blocks chains, Sound s blocks chains ∧ Coalesced blocks)
    (fun s hi => init_coalesced hi) ?_
  rintro s a s' ⟨blocks, chains, hs, hc⟩ ⟨hfits, hlegal, hexec⟩
  obtain ⟨s₁, blocks', chains', hexec', hs', hc'⟩ := step_coalesced hs hc hfits hlegal
  rw [hexec', Option.some.injEq] at hexec
  rw [← hexec]
  exact ⟨blocks', chains', hs', hc'⟩

/-- The heap as it was at first. -/
def whole (heap : ℕ) : Block := ⟨heap + 8, EE_JIT_HEAP_SIZE - 16, true⟩

/-- Without objects the heap is one free block. -/
theorem sound_whole (hs : Sound s blocks chains) (hc : Coalesced blocks) (hlive : s.live = []) :
    blocks = [whole s.h.heap] := by
  have hfree : ∀ b ∈ blocks, b.free = true := by
    intro b hb
    cases hf : b.free with
    | true => rfl
    | false =>
      obtain ⟨o, ho, -⟩ := hs.owned b (mem_used.mpr ⟨hb, hf⟩)
      rw [hlive] at ho
      exact absurd ho List.not_mem_nil
  have h64 := heap_size_eq
  have htiles := hs.laid.tiles
  have hlen := coalesced_all_free hc hfree
  match blocks, htiles, hlen, hfree with
  | [], htiles, _, _ =>
    have : s.h.heap = s.h.heap + EE_JIT_HEAP_SIZE := htiles
    omega
  | [b], ⟨haddr, hend⟩, _, hfree =>
    have hend : s.h.heap + b.size + 16 = s.h.heap + EE_JIT_HEAP_SIZE := hend
    have hbf := hfree b List.mem_cons_self
    obtain ⟨addr, size, free⟩ := b
    dsimp only at haddr hend hbf
    rw [whole, haddr, hbf, show size = EE_JIT_HEAP_SIZE - 16 by omega]
  | _ :: _ :: _, _, hlen, _ => simp at hlen

/-- What `jit_malloc` gives in a sound heap. -/
theorem malloc_exact (hs : Sound s blocks chains) {size : ℕ} (hle : size ≤ 2 ^ 64 - 16) :
    ∃ r, s.h.jit_malloc size = some r ∧
      (r.1 = 0 ↔ ∀ b ∈ blocks, ¬ Candidate (granted size) b) := by
  obtain ⟨s', -, -, hexec, -⟩ := malloc_sound hs hle
  rw [exec, Option.map_eq_some_iff] at hexec
  obtain ⟨r, hr, -⟩ := hexec
  refine ⟨r, hr, ?_⟩
  rw [jit_malloc_eq, Option.map_eq_some_iff] at hr
  obtain ⟨r', hfind, rfl⟩ := hr
  have hiff := find_memory_zero_iff hs.laid hfind
  exact hiff

/-- **Free memory is found**: in every run no two free blocks are neighbours, all of the heap is one
free block when nothing is live, and a request fails exactly when no free block is a candidate. The
free blocks are then all smaller than twice the request. -/
theorem free_memory_found (h : Reaches Init (Only (fun _ a => a.Roundable) Step) s) :
    ∃ blocks chains, Sound s blocks chains ∧ Coalesced blocks ∧
      (s.live = [] → blocks = [whole s.h.heap]) ∧
      ∀ size ≤ 2 ^ 64 - 16, ∃ r, s.h.jit_malloc size = some r ∧
        (r.1 = 0 ↔ ∀ b ∈ blocks, ¬ Candidate (granted size) b) ∧
        (r.1 = 0 → ∀ b ∈ blocks, b.free = true → b.size < 2 * granted size) := by
  obtain ⟨blocks, chains, hs, hc⟩ := reaches_coalesced h
  refine ⟨blocks, chains, hs, hc, sound_whole hs hc, fun size hle => ?_⟩
  obtain ⟨r, hr, hiff⟩ := malloc_exact hs hle
  refine ⟨r, hr, hiff, fun h0 b hb hf => ?_⟩
  by_contra hlt
  exact hiff.mp h0 b hb (candidate_double hf (by omega))

end

/-- A heap with one object. -/
theorem free_memory_found_object : ∃ s, exec atPage (.malloc 100) = some s ∧
    ∃ blocks chains, Sound s blocks chains ∧ Coalesced blocks ∧
      (s.live = [] → blocks = [whole s.h.heap]) ∧
      ∀ size ≤ 2 ^ 64 - 16, ∃ r, s.h.jit_malloc size = some r ∧
        (r.1 = 0 ↔ ∀ b ∈ blocks, ¬ Candidate (granted size) b) ∧
        (r.1 = 0 → ∀ b ∈ blocks, b.free = true → b.size < 2 * granted size) := by
  have hfits : Act.Roundable (.malloc 100) := by decide
  have hlegal : Legal atPage (.malloc 100) := by decide
  obtain ⟨blocks, chains, hs⟩ := init_sound atPage_init
  obtain ⟨s, -, -, hexec, -⟩ := step_sound hs hfits hlegal
  exact ⟨s, hexec, free_memory_found ((Reaches.start atPage_init).next ⟨hfits, hlegal, hexec⟩)⟩

end DobieStation.JitHeap.Coalescing
