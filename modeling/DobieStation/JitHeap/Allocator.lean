import DobieStation.JitHeap.Layout
import Mathlib.Data.List.Perm.Subperm

/-! # The operations of the allocator, on layouts

What each function does to a layout, from `shrink_object` up to `jit_malloc` and `jit_free`. None of
them fails: in a layout every assertion holds and every loop ends. -/

namespace DobieStation.JitHeap.Allocator

open DobieStation.Lib.Memory DobieStation.Lib.LinkedList DobieStation.JitHeap.Model
open DobieStation.JitHeap.Model.EEJitHeap DobieStation.JitHeap.Layout

/-! ### Shrinking -/

/-- An object of `s` bytes cut behind its first `size`. -/
def cut (h : EEJitHeap) (a s size : ℕ) : EEJitHeap :=
  ((h.set_size a size).set_word (a + size) 0).set_size (a + size + 16) (s - size - 16)

section
variable {h : EEJitHeap} {pre post : List Block} {chains : ℕ → List ℕ} {a s size : ℕ}

theorem cut_words (ha : 8 ≤ a) (hs : s < 2 ^ 64) (hle : size + 16 ≤ s) :
    (cut h a s size).get_size a = size ∧ (cut h a s size).word (a + size) = 0 ∧
    (cut h a s size).get_size (a + size + 16) = s - size - 16 ∧
    ∀ x, x < a - 8 ∨ a + s ≤ x → (cut h a s size).mem x = h.mem x := by
  unfold cut set_size EEJitHeap.get_size
  refine ⟨?_, ?_, ?_, fun x hx => ?_⟩
  · rw [word_set_word _ (by omega), word_set_word _ (by omega), word_set_word_self _ (by omega)]
  · rw [word_set_word _ (by omega), word_set_word_self _ (Nat.two_pow_pos 64)]
  · exact word_set_word_self _ (by omega)
  · rw [mem_set_word _ (by omega), mem_set_word _ (by omega), mem_set_word _ (by omega)]

theorem split_laid (hl : Laid h (pre ++ [⟨a, s, false⟩] ++ post) chains)
    (hsize : size % JIT_ALLOC_ALIGN = 0) (hmin : 256 ≤ size) (hle : size + 16 + 256 ≤ s) :
    Laid (cut h a s size)
      (pre ++ [⟨a, size, false⟩, ⟨a + size + 16, s - size - 16, false⟩] ++ post) chains := by
  have hbm : (⟨a, s, false⟩ : Block) ∈ pre ++ [⟨a, s, false⟩] ++ post := by simp
  have hbound := hl.bounds hbm
  have hbelow := hl.below
  obtain ⟨hal, -⟩ := hl.sized _ hbm
  have hend := (hl.tagged _ hbm).2
  dsimp only at hbound hal hend
  obtain ⟨hc1, hc2, hc3, hcm⟩ := cut_words (h := h) (a := a) (s := s) (by omega) (by omega)
    (by omega : size + 16 ≤ s)
  have htiles := hl.tiles
  rw [List.append_assoc] at htiles
  obtain ⟨p, hpre, hp, -⟩ := tiles_append.mp htiles
  dsimp only at hp
  have h16 : JIT_ALLOC_ALIGN = 16 := rfl
  refine rewrite_used hl hpre (q := p + s + 16) ⟨hp, rfl⟩ ⟨hp, ?_, ?_⟩ ?_ rfl rfl ?_ ?_
  · dsimp only
    omega
  · change p + size + 16 + (s - size - 16) + 16 = p + s + 16
    omega
  · intro b hb
    rw [List.mem_singleton.mp hb]
  · intro b hb
    simp only [List.mem_cons, List.not_mem_nil, or_false] at hb
    rcases hb with rfl | rfl
    · exact ⟨rfl, hsize, hmin, hc1, hc2⟩
    · refine ⟨rfl, ?_, ?_, hc3, ?_⟩
      · rw [h16] at hal hsize ⊢
        dsimp only
        omega
      · dsimp only
        omega
      · dsimp only
        rw [show a + size + 16 + (s - size - 16) = a + s by omega]
        have hkeep : (cut h a s size).word (a + s) = h.word (a + s) :=
          load_congr fun x _ _ => hcm x (by omega)
        rw [hkeep, hend]
        rfl
  · intro x hx
    exact hcm x (by omega)

theorem split_object_laid (hl : Laid h (pre ++ ⟨a, s, false⟩ :: post) chains)
    (hsize : size % JIT_ALLOC_ALIGN = 0) (hmin : 256 ≤ size) (hle : size ≤ s) :
    ∃ h' s' rest chains', h.split_object a size s = some h' ∧
      Laid h' (pre ++ ⟨a, s', false⟩ :: (rest ++ post)) chains' ∧ size ≤ s' ∧
      (∀ b ∈ rest, b.free = true) ∧ Frame h h' (pre ++ post) := by
  have hbm : (⟨a, s, false⟩ : Block) ∈ pre ++ ⟨a, s, false⟩ :: post := by simp
  have hbound := hl.bounds hbm
  have hbelow := hl.below
  have h256 : get_min_bin_size 0 = 256 := rfl
  dsimp only at hbound
  unfold split_object
  by_cases hc : size + 16 + get_min_bin_size 0 < s
  · have hcut : Laid (cut h a s size) ((pre ++ [⟨a, size, false⟩]) ++
        ⟨a + size + 16, s - size - 16, false⟩ :: post) chains := by
      rw [List.append_cons] at hl
      have := split_laid hl hsize hmin (by omega)
      rwa [List.append_assoc] at this ⊢
    have hwords := cut_words (h := h) (a := a) (s := s) (by omega) (by omega)
      (by omega : size + 16 ≤ s)
    obtain ⟨h', hput, hl', hframe, -⟩ := put_free hcut rfl
    have hsize1 : (h.set_size a size).get_size a = size := word_set_word_self _ (by omega)
    have hsize2 : ((h.set_size a size).set_word (a + size) 0).get_size a = size :=
      (word_set_word _ (by omega)).trans hsize1
    rw [List.append_assoc] at hl'
    refine ⟨h', size, [⟨a + size + 16, s - size - 16, true⟩], _, ?_, hl', Nat.le_refl _,
      by simp, ?_⟩
    · rw [if_pos hc, set_end_eq hsize1 hsize]
      simp only [Option.bind_eq_bind, Option.bind_some, get_next_object, hsize2]
      exact hput
    · have hfirst : Frame h (cut h a s size) (pre ++ post) := by
        refine ⟨rfl, rfl, fun c hc' _ p h1 h2 => hwords.2.2.2 p ?_⟩
        have := (hl.other (List.mem_append.mp hc')).2
        dsimp only at this
        omega
      exact hfirst.trans hframe fun b hb _ => by
        rcases List.mem_append.mp hb with hb | hb <;> simp [hb]
  · exact ⟨h, s, [], chains, if_neg hc, hl, hle, by simp, Frame.refl _ _⟩

theorem shrink_object_laid (hl : Laid h (pre ++ ⟨a, s, false⟩ :: post) chains)
    (hsize : size % JIT_ALLOC_ALIGN = 0) (hmin : 256 ≤ size) (hle : size ≤ s) :
    ∃ h' s' rest chains', h.shrink_object a size = some h' ∧
      Laid h' (pre ++ ⟨a, s', false⟩ :: (rest ++ post)) chains' ∧ size ≤ s' ∧
      (∀ b ∈ rest, b.free = true) ∧ Frame h h' (pre ++ post) := by
  have hbm : (⟨a, s, false⟩ : Block) ∈ pre ++ ⟨a, s, false⟩ :: post := by simp
  have hget := hl.get_end_used hbm rfl
  have hsz := (hl.tagged _ hbm).1
  dsimp only at hget hsz
  obtain ⟨h', s', rest, chains', hsplit, hl', hle', hrest, hframe⟩ :=
    split_object_laid hl hsize hmin hle
  have hget' := hl'.get_end_used (b := ⟨a, s', false⟩) (by simp) rfl
  refine ⟨h', s', rest, chains', ?_, hl', hle', hrest, hframe⟩
  unfold shrink_object
  rw [hget, hsz, hsplit]
  simp only [check, if_true, hle, Option.bind_eq_bind, Option.bind_some, hget']
  rfl

/-- **A free block is taken, what it has too much given back.** -/
theorem take_laid {b : Block} (hl : Laid h (pre ++ b :: post) chains) (hf : b.free = true)
    (hsize : size % JIT_ALLOC_ALIGN = 0) (hmin : 256 ≤ size) (hle : size ≤ b.size) :
    ∃ h' s' rest chains', h.take b.addr size = some (b.addr, h') ∧
      Laid h' (pre ++ ⟨b.addr, s', false⟩ :: (rest ++ post)) chains' ∧ size ≤ s' ∧
      (∀ c ∈ rest, c.free = true) ∧ Frame h h' (pre ++ post) := by
  obtain ⟨h₁, htake, hl₁, hframe₁⟩ := take_free hl hf
  obtain ⟨h', s', rest, chains', hshrink, hl', hle', hrest, hframe⟩ :=
    shrink_object_laid hl₁ hsize hmin hle
  refine ⟨h', s', rest, chains', ?_, hl', hle', hrest, hframe₁.trans hframe fun _ hb _ => hb⟩
  unfold EEJitHeap.take
  rw [htake]
  simp only [Option.bind_eq_bind, Option.bind_some, hshrink]
  rfl

end

/-! ### Finding memory -/

theorem pick_bin_small {s i : ℕ} (hs : 256 ≤ s) (h : pick_bin s = i) (hi : i < JIT_ALLOC_BINS) :
    get_min_bin_size i ≤ s := by
  unfold pick_bin at h
  cases hf : (List.range JIT_ALLOC_BINS).find? fun i => decide (s < get_max_bin_size i) with
  | none =>
    rw [hf, Option.getD_none] at h
    omega
  | some j =>
    rw [hf, Option.getD_some] at h
    subst h
    rcases Nat.eq_zero_or_pos j with rfl | hj
    · exact hs
    · have hnot := (List.find?_range_eq_some.mp hf).2.2 (j - 1) (by omega)
      have hlt : ¬ s < get_max_bin_size (j - 1) := by simpa using hnot
      unfold get_max_bin_size at hlt
      unfold get_min_bin_size
      rw [show JIT_ALLOC_BIN_START + (j - 1) + 1 = JIT_ALLOC_BIN_START + j by omega] at hlt
      omega

section
variable {h : EEJitHeap} {blocks : List Block} {chains : ℕ → List ℕ}

/-- What is selected from the small bins is large enough. -/
theorem select_bin_spec (hl : Laid h blocks chains) {size : ℕ} (h0 : h.select_bin size ≠ 0) :
    ∃ b ∈ blocks, b.addr = h.select_bin size ∧ b.free = true ∧ size ≤ b.size := by
  unfold select_bin at h0 ⊢
  dsimp only at h0 ⊢
  generalize hbin : ((List.range JIT_ALLOC_BINS).find? fun i =>
    decide (size ≤ get_min_bin_size i)).getD JIT_ALLOC_BINS = bin at h0 ⊢
  cases hf : (List.range JIT_ALLOC_BINS).find? fun i =>
      decide (bin ≤ i ∧ h.free_bin_lists i ≠ 0) with
  | none =>
    rw [hf] at h0
    exact absurd rfl h0
  | some i =>
    rw [hf] at h0
    dsimp only at h0 ⊢
    have hi := List.mem_range.mp (List.mem_of_find?_eq_some hf)
    have hle : bin ≤ i := by
      have := List.find?_some hf
      simp only [decide_eq_true_eq] at this
      exact this.1
    obtain ⟨-, b, hb, hba, hbf, hbb⟩ := hl.binned i _ ((hl.linked i).head_mem h0)
    refine ⟨b, hb, hba, hbf, ?_⟩
    have hmin := pick_bin_small (hl.sized b hb).2 hbb hi
    have hsize : size ≤ get_min_bin_size bin := by
      cases hg : (List.range JIT_ALLOC_BINS).find? fun i => decide (size ≤ get_min_bin_size i) with
      | none =>
        rw [hg, Option.getD_none] at hbin
        omega
      | some j =>
        rw [hg, Option.getD_some] at hbin
        have := List.find?_some hg
        rw [← hbin]
        simpa using this
    have hmono : get_min_bin_size bin ≤ get_min_bin_size i :=
      Nat.pow_le_pow_right (by decide) (by omega)
    omega

theorem tiles_length {p q : ℕ} {l : List Block} (h : Tiles p l q) : p + 16 * l.length ≤ q := by
  induction l generalizing p with
  | nil => exact Nat.le_of_eq h
  | cons b l ih =>
    have := ih h.2
    rw [List.length_cons]
    omega

theorem chain_length (hl : Laid h blocks chains) (i : ℕ) : (chains i).length < EE_JIT_HEAP_SIZE := by
  have hsub : (chains i).length ≤ (blocks.map Block.addr).length :=
    (List.Nodup.subperm (hl.nodup i) fun a ha => by
      obtain ⟨d, hd, hda, -⟩ := hl.chained ha
      exact List.mem_map.mpr ⟨d, hd, hda⟩).length_le
  have := tiles_length hl.tiles
  have hpos : 0 < EE_JIT_HEAP_SIZE := by decide
  rw [List.length_map] at hsub
  omega

/-- The search of the large bin ends, with none or one of the cells that are large enough. -/
theorem find_smallest_spec {size : ℕ} : ∀ {l : List ℕ} {p c : ℕ} (fuel m mem : ℕ),
    Linked h.next h.prev p c l → l.length < fuel →
    ∃ r, h.find_smallest size fuel c m mem = some r ∧
      (r = mem ∨ (r ∈ l ∧ size ≤ h.get_size r)) := by
  intro l
  induction l with
  | nil =>
    intro p c fuel m mem hl hlt
    obtain ⟨fuel, rfl⟩ : ∃ k, fuel = k + 1 := ⟨fuel - 1, by simp at hlt; omega⟩
    exact ⟨mem, by rw [find_smallest, if_pos (show c = 0 from hl)], Or.inl rfl⟩
  | cons a l ih =>
    intro p c fuel m mem hl hlt
    obtain ⟨fuel, rfl⟩ : ∃ k, fuel = k + 1 := ⟨fuel - 1, by simp at hlt; omega⟩
    rw [List.length_cons] at hlt
    obtain ⟨rfl, h0, -, ht⟩ := hl
    rw [find_smallest, if_neg h0]
    split_ifs with hc
    · obtain ⟨r, hr, hor⟩ := ih fuel (h.get_size c) c ht (by omega)
      refine ⟨r, hr, Or.inr ?_⟩
      rcases hor with rfl | ⟨hmem, hle⟩
      · exact ⟨List.mem_cons_self, hc.1⟩
      · exact ⟨List.mem_cons_of_mem _ hmem, hle⟩
    · obtain ⟨r, hr, hor⟩ := ih fuel m mem ht (by omega)
      refine ⟨r, hr, ?_⟩
      rcases hor with rfl | ⟨hmem, hle⟩
      · exact Or.inl rfl
      · exact Or.inr ⟨List.mem_cons_of_mem _ hmem, hle⟩

/-- **Memory is found in a free block, or none is.** -/
theorem find_memory_laid (hl : Laid h blocks chains) {size : ℕ}
    (hsize : size % JIT_ALLOC_ALIGN = 0) (hmin : 256 ≤ size) :
    h.find_memory size = some (0, h) ∨
    ∃ pre b post h' s' rest chains', blocks = pre ++ b :: post ∧ b.free = true ∧
      h.find_memory size = some (b.addr, h') ∧
      Laid h' (pre ++ ⟨b.addr, s', false⟩ :: (rest ++ post)) chains' ∧ size ≤ s' ∧
      (∀ c ∈ rest, c.free = true) ∧ Frame h h' (pre ++ post) := by
  have hfound : ∀ b ∈ blocks, b.free = true → size ≤ b.size →
      ∃ pre post h' s' rest chains', blocks = pre ++ b :: post ∧
        h.take b.addr size = some (b.addr, h') ∧
        Laid h' (pre ++ ⟨b.addr, s', false⟩ :: (rest ++ post)) chains' ∧ size ≤ s' ∧
        (∀ c ∈ rest, c.free = true) ∧ Frame h h' (pre ++ post) := by
    intro b hb hf hle
    obtain ⟨pre, post, rfl⟩ := List.append_of_mem hb
    obtain ⟨h', s', rest, chains', h1, h2, h3, h4, h5⟩ := take_laid hl hf hsize hmin hle
    exact ⟨pre, post, h', s', rest, chains', rfl, h1, h2, h3, h4, h5⟩
  unfold find_memory
  by_cases h0 : h.select_bin size ≠ 0
  · obtain ⟨b, hb, hba, hf, hle⟩ := select_bin_spec hl h0
    obtain ⟨pre, post, h', s', rest, chains', hpart, htake, hrest⟩ := hfound b hb hf hle
    refine Or.inr ⟨pre, b, post, h', s', rest, chains', hpart, hf, ?_, hrest⟩
    dsimp only
    rw [if_pos h0, ← hba, htake]
  · obtain ⟨r, hr, hor⟩ := find_smallest_spec EE_JIT_HEAP_SIZE (2 ^ 64 - 1) 0
      (hl.linked JIT_ALLOC_BINS) (chain_length hl _)
    dsimp only
    rw [if_neg h0, hr]
    rcases hor with rfl | ⟨hmem, hle⟩
    · exact Or.inl rfl
    · obtain ⟨b, hb, rfl, hf⟩ := hl.chained hmem
      rw [(hl.tagged b hb).1] at hle
      obtain ⟨pre, post, h', s', rest, chains', hpart, htake, hrest⟩ := hfound b hb hf hle
      refine Or.inr ⟨pre, b, post, h', s', rest, chains', hpart, hf, ?_, hrest⟩
      have hne := (hl.linked _).ne_zero hmem
      simp only [Option.bind_eq_bind, Option.bind_some]
      rw [if_pos hne, htake]

end

/-! ### Merging -/

section
variable {h : EEJitHeap} {pre post : List Block} {chains : ℕ → List ℕ} {b c : Block}

/-- Neighbours in the layout are neighbours in memory. -/
theorem tiles_adjacent {p q : ℕ} (h : Tiles p (pre ++ b :: c :: post) q) :
    c.addr = b.addr + b.size + 16 := by
  obtain ⟨m, -, hb, hc, -⟩ := tiles_append.mp h
  omega

/-- Two objects in use, one behind the other, made one. -/
def joined (h : EEJitHeap) (b c : Block) : EEJitHeap :=
  (h.set_size b.addr (b.size + c.size + 16)).set_word (b.addr + (b.size + c.size + 16)) 0

theorem joined_words (hb : 8 ≤ b.addr) (hlt : b.size + c.size + 16 < 2 ^ 64) :
    (h.set_size b.addr (b.size + c.size + 16)).get_size b.addr = b.size + c.size + 16 ∧
    (joined h b c).get_size b.addr = b.size + c.size + 16 ∧
    (joined h b c).word (b.addr + (b.size + c.size + 16)) = 0 ∧
    ∀ x, (x < b.addr - 8 ∨ b.addr ≤ x) →
      (x < b.addr + (b.size + c.size + 16) ∨ b.addr + (b.size + c.size + 16) + 8 ≤ x) →
      (joined h b c).mem x = h.mem x := by
  have hsize : (h.set_size b.addr (b.size + c.size + 16)).get_size b.addr =
      b.size + c.size + 16 := word_set_word_self _ hlt
  refine ⟨hsize, (word_set_word _ (by omega)).trans hsize,
    word_set_word_self _ (Nat.two_pow_pos 64), fun x h1 h2 => ?_⟩
  unfold joined set_size
  rw [mem_set_word _ (by omega), mem_set_word _ (by omega)]

theorem join_laid (hl : Laid h (pre ++ [b, c] ++ post) chains) (hb : b.free = false)
    (hc : c.free = false) :
    Laid (joined h b c) (pre ++ [⟨b.addr, b.size + c.size + 16, false⟩] ++ post) chains ∧
    Frame h (joined h b c) (pre ++ post) ∧
    (joined h b c).word (b.addr + b.size) = 0 := by
  have hbm : b ∈ pre ++ [b, c] ++ post := by simp
  have hcm : c ∈ pre ++ [b, c] ++ post := by simp
  have hbb := hl.bounds hbm
  have hcb := hl.bounds hcm
  have hbelow := hl.below
  obtain ⟨hbal, hbmin⟩ := hl.sized b hbm
  obtain ⟨hcal, hcmin⟩ := hl.sized c hcm
  have htiles := hl.tiles
  rw [List.append_assoc] at htiles
  obtain ⟨p, hpre, hp, hq, hpost⟩ := tiles_append.mp htiles
  obtain ⟨-, h2, h3, h4⟩ := joined_words (h := h) (b := b) (c := c) (by omega) (by omega)
  have hkeep : (joined h b c).word (b.addr + b.size) = h.word (b.addr + b.size) :=
    load_congr fun x _ _ => h4 x (by omega) (by omega)
  have h16 : JIT_ALLOC_ALIGN = 16 := rfl
  refine ⟨rewrite_used hl hpre (q := p + b.size + 16 + c.size + 16) ⟨hp, hq, rfl⟩ ⟨hp, ?_⟩ ?_ rfl
    rfl ?_ ?_, ⟨rfl, rfl, fun d hd _ x hx1 hx2 => h4 x ?_ ?_⟩, ?_⟩
  · change p + (b.size + c.size + 16) + 16 = _
    omega
  · intro d hd
    simp only [List.mem_cons, List.not_mem_nil, or_false] at hd
    rcases hd with rfl | rfl
    · exact hb
    · exact hc
  · intro d hd
    rw [List.mem_singleton.mp hd]
    refine ⟨rfl, ?_, ?_, h2, h3⟩
    · rw [h16] at hbal hcal ⊢
      dsimp only
      omega
    · dsimp only
      omega
  · intro x hx
    exact h4 x (by omega) (by omega)
  · rcases List.mem_append.mp hd with hd | hd
    · have := tiles_bounds hpre hd
      omega
    · have := tiles_bounds hpost hd
      omega
  · rcases List.mem_append.mp hd with hd | hd
    · have := tiles_bounds hpre hd
      omega
    · have := tiles_bounds hpost hd
      omega
  · rw [hkeep, (hl.tagged b hbm).2, hb, if_neg Bool.false_ne_true]

/-- Both objects are taken out of their lists, in either order. -/
theorem take_both (hl : Laid h (pre ++ b :: c :: post) chains) (hb : b.free = true)
    (hc : c.free = true) {first second : ℕ}
    (horder : (first = b.addr ∧ second = c.addr) ∨ (first = c.addr ∧ second = b.addr)) :
    ∃ h₁ h₂ chains', h.remove_memory_from_bin first = some h₁ ∧
      h₁.remove_memory_from_bin second = some h₂ ∧
      Laid h₂ (pre ++ [{ b with free := false }, { c with free := false }] ++ post) chains' ∧
      Frame h h₂ (pre ++ post) := by
  rcases horder with ⟨rfl, rfl⟩ | ⟨rfl, rfl⟩
  · obtain ⟨h₁, htake₁, hl₁, hframe₁⟩ := take_free hl hb
    rw [List.append_cons] at hl₁
    obtain ⟨h₂, htake₂, hl₂, hframe₂⟩ := take_free hl₁ hc
    refine ⟨h₁, h₂, _, htake₁, htake₂, by simpa using hl₂, ?_⟩
    refine (hframe₁.mono fun d hd _ => ?_).trans hframe₂ fun d hd _ => ?_
    · rcases List.mem_append.mp hd with hd | hd <;> simp [hd]
    · rcases List.mem_append.mp hd with hd | hd <;> simp [hd]
  · rw [List.append_cons] at hl
    obtain ⟨h₁, htake₁, hl₁, hframe₁⟩ := take_free hl hc
    rw [← List.append_cons] at hl₁
    obtain ⟨h₂, htake₂, hl₂, hframe₂⟩ := take_free hl₁ hb
    refine ⟨h₁, h₂, _, htake₁, htake₂, by simpa using hl₂, ?_⟩
    refine (hframe₁.mono fun d hd _ => ?_).trans hframe₂ fun d hd _ => ?_
    · rcases List.mem_append.mp hd with hd | hd <;> simp [hd]
    · rcases List.mem_append.mp hd with hd | hd <;> simp [hd]

/-- **Two free neighbours become one free block.** Where the tag between them was is 0. -/
theorem merge_laid (hl : Laid h (pre ++ b :: c :: post) chains) (hb : b.free = true)
    (hc : c.free = true) {first second : ℕ}
    (horder : (first = b.addr ∧ second = c.addr) ∨ (first = c.addr ∧ second = b.addr)) :
    ∃ h' chains', h.merge b.addr c.addr first second = some h' ∧
      Laid h' (pre ++ ⟨b.addr, b.size + c.size + 16, true⟩ :: post) chains' ∧
      Frame h h' (pre ++ post) ∧ h'.word (b.addr + b.size) = 0 := by
  have hbm : b ∈ pre ++ b :: c :: post := by simp
  have hcm : c ∈ pre ++ b :: c :: post := by simp
  have hbb := hl.bounds hbm
  have hcb := hl.bounds hcm
  have hadj := tiles_adjacent hl.tiles
  have hbelow := hl.below
  obtain ⟨hbal, hbmin⟩ := hl.sized b hbm
  obtain ⟨hcal, -⟩ := hl.sized c hcm
  obtain ⟨h₁, h₂, chains₂, htake₁, htake₂, hl₂, hframe₂⟩ := take_both hl hb hc horder
  obtain ⟨hl₃, hframe₃, hword₃⟩ := join_laid hl₂ rfl rfl
  rw [List.append_assoc] at hl₃
  obtain ⟨h', hput, hl', hframe', hkeep⟩ := put_free hl₃ rfl
  obtain ⟨hsize, -⟩ := joined_words (h := h₂) (b := b) (c := c) (by omega) (by omega)
  have hal : (b.size + c.size + 16) % JIT_ALLOC_ALIGN = 0 := by
    have h16 : JIT_ALLOC_ALIGN = 16 := rfl
    rw [h16] at hbal hcal ⊢
    omega
  refine ⟨h', _, ?_, hl', ?_, ?_⟩
  · unfold EEJitHeap.merge
    rw [(hl.tagged b hbm).1, (hl.tagged c hcm).1]
    simp only [Option.bind_eq_bind, Option.bind_some, htake₁, htake₂, set_end_eq hsize hal]
    exact hput
  · exact (hframe₂.trans hframe₃ fun _ hd _ => hd).trans hframe' fun _ hd _ => hd
  · rw [← hword₃]
    refine load_congr fun x h1 h2 => hkeep x ?_ ?_ <;> dsimp only <;> omega

end

/-! ### Freeing -/

/-- The blocks in use. -/
def used (l : List Block) : List Block := l.filter fun b => !b.free

theorem mem_used {l : List Block} {b : Block} : b ∈ used l ↔ b ∈ l ∧ b.free = false := by
  simp [used, List.mem_filter]

theorem used_append (l l' : List Block) : used (l ++ l') = used l ++ used l' :=
  List.filter_append ..

theorem used_cons_free {b : Block} (l : List Block) (hf : b.free = true) :
    used (b :: l) = used l := by
  simp [used, hf]

theorem used_cons {b : Block} (l : List Block) (hf : b.free = false) :
    used (b :: l) = b :: used l := by
  simp [used, hf]

theorem used_free {l : List Block} (hf : ∀ b ∈ l, b.free = true) : used l = [] := by
  simp only [used, List.filter_eq_nil_iff]
  intro b hb
  simp [hf b hb]

section
variable {h : EEJitHeap} {pre post : List Block} {chains : ℕ → List ℕ} {b c : Block}

theorem merge_fwd_last (hl : Laid h (pre ++ [b]) chains) :
    h.merge_fwd b.addr = some (false, h) := by
  obtain ⟨m, -, hb, hend⟩ := tiles_append.mp hl.tiles
  have hend' : m + b.size + 16 = h.heap + EE_JIT_HEAP_SIZE := hend
  unfold merge_fwd get_next_object
  rw [(hl.tagged b (by simp)).1]
  dsimp only
  rw [if_pos (by omega)]
  rfl

theorem merge_fwd_used (hl : Laid h (pre ++ b :: c :: post) chains) (hc : c.free = false) :
    h.merge_fwd b.addr = some (false, h) := by
  have hcb := hl.bounds (b := c) (by simp)
  have hget := hl.get_end_used (b := c) (by simp) hc
  rw [tiles_adjacent hl.tiles] at hcb hget
  unfold merge_fwd get_next_object
  rw [(hl.tagged b (by simp)).1]
  dsimp only
  rw [if_neg (by omega), hget]
  rfl

theorem merge_fwd_free (hl : Laid h (pre ++ b :: c :: post) chains) (hb : b.free = true)
    (hc : c.free = true) :
    ∃ h' chains', h.merge_fwd b.addr = some (true, h') ∧
      Laid h' (pre ++ ⟨b.addr, b.size + c.size + 16, true⟩ :: post) chains' ∧
      Frame h h' (pre ++ post) := by
  have hcm : c ∈ pre ++ b :: c :: post := by simp
  have hcb := hl.bounds hcm
  have hget := hl.get_end_free hcm hc
  have hsize := (hl.tagged c hcm).1
  have hc0 : c.size ≠ 0 := by
    have := (hl.sized c hcm).2
    omega
  obtain ⟨h', chains', hmerge, hl', hframe, -⟩ := merge_laid hl hb hc (Or.inl ⟨rfl, rfl⟩)
  refine ⟨h', chains', ?_, hl', hframe⟩
  rw [tiles_adjacent hl.tiles] at hcb hget hsize hmerge
  unfold merge_fwd get_next_object
  rw [(hl.tagged b (by simp)).1]
  dsimp only
  rw [if_neg (by omega), hget, hsize]
  simp only [Option.bind_eq_bind, Option.bind_some]
  rw [if_pos hc0, hmerge]
  simp only [check, if_true, Option.bind_some]
  rfl

theorem free_eq (hb : b.free = true) : (⟨b.addr, b.size, true⟩ : Block) = b := by
  rw [← hb]

theorem whileMerge_stop {merge : EEJitHeap → Option (Bool × EEJitHeap)} {h h' : EEJitHeap}
    (fuel : ℕ) (hstep : merge h = some (false, h')) : whileMerge merge (fuel + 1) h = some h' := by
  rw [whileMerge, hstep]

theorem whileMerge_next {merge : EEJitHeap → Option (Bool × EEJitHeap)} {h h' : EEJitHeap}
    (fuel : ℕ) (hstep : merge h = some (true, h')) :
    whileMerge merge (fuel + 1) h = whileMerge merge fuel h' := by
  rw [whileMerge, hstep]

/-- Forwards, until the block behind is in use. -/
theorem merge_all_fwd : ∀ (post : List Block) {h : EEJitHeap} {b : Block} {chains : ℕ → List ℕ}
    (fuel : ℕ), Laid h (pre ++ b :: post) chains → b.free = true → post.length < fuel →
    ∃ h' s' post' chains', whileMerge (merge_fwd · b.addr) fuel h = some h' ∧
      Laid h' (pre ++ ⟨b.addr, s', true⟩ :: post') chains' ∧ used post' = used post ∧
      Frame h h' (pre ++ post) := by
  intro post
  induction post with
  | nil =>
    intro h b chains fuel hl hb hlt
    obtain ⟨fuel, rfl⟩ : ∃ k, fuel = k + 1 := ⟨fuel - 1, by simp at hlt; omega⟩
    exact ⟨h, b.size, [], chains, whileMerge_stop fuel (merge_fwd_last hl),
      by rwa [free_eq hb], rfl, Frame.refl _ _⟩
  | cons c post ih =>
    intro h b chains fuel hl hb hlt
    obtain ⟨fuel, rfl⟩ : ∃ k, fuel = k + 1 := ⟨fuel - 1, by simp at hlt; omega⟩
    rw [List.length_cons] at hlt
    cases hc : c.free with
    | false =>
      exact ⟨h, b.size, c :: post, chains, whileMerge_stop fuel (merge_fwd_used hl hc),
        by rwa [free_eq hb], rfl, Frame.refl _ _⟩
    | true =>
      obtain ⟨h₁, chains₁, hstep, hl₁, hframe₁⟩ := merge_fwd_free hl hb hc
      obtain ⟨h', s', post', chains', hrun, hl', hused, hframe'⟩ := ih fuel hl₁ rfl (by omega)
      have hnext : whileMerge (merge_fwd · b.addr) (fuel + 1) h =
          whileMerge (merge_fwd · b.addr) fuel h₁ := whileMerge_next fuel hstep
      refine ⟨h', s', post', chains', hnext.trans hrun, hl', ?_, ?_⟩
      · rw [hused, used_cons_free _ hc]
      · refine (hframe₁.mono fun d hd hf => ?_).trans hframe' fun d hd hf => ?_ <;>
        · rcases List.mem_append.mp hd with hd | hd
          · simp [hd]
          · rcases List.mem_cons.mp hd with rfl | hd
            · exact absurd hc (by rw [hf]; exact Bool.false_ne_true)
            · simp [hd]

theorem merge_bwd_zero {a : ℕ} (h0 : a - 8 - 8 ≤ h.heap ∨ h.word (a - 8 - 8) = 0) :
    h.merge_bwd a = some (false, h) := by
  unfold merge_bwd
  dsimp only
  split_ifs with h1 h2
  · rfl
  · rcases h0 with h0 | h0
    · exact absurd h0 h1
    · exact absurd h0 h2
  · rfl

/-- Backwards, once: where the tag of the block before was is 0 afterwards. -/
theorem merge_all_bwd (hl : Laid h (pre ++ b :: post) chains) (hb : b.free = true) {fuel : ℕ}
    (hfuel : 2 ≤ fuel) :
    ∃ h' blocks' chains', whileMerge (merge_bwd · b.addr) fuel h = some h' ∧
      Laid h' blocks' chains' ∧ used blocks' = used pre ++ used post ∧ Frame h h' (pre ++ post) := by
  obtain ⟨fuel, rfl⟩ : ∃ k, fuel = k + 1 + 1 := ⟨fuel - 2, by omega⟩
  have hstay : h.merge_bwd b.addr = some (false, h) →
      ∃ h' blocks' chains', whileMerge (merge_bwd · b.addr) (fuel + 1 + 1) h = some h' ∧
        Laid h' blocks' chains' ∧ used blocks' = used pre ++ used post ∧
        Frame h h' (pre ++ post) := by
    intro hstep
    refine ⟨h, _, chains, whileMerge_stop _ hstep, hl, ?_, Frame.refl _ _⟩
    rw [used_append, used_cons_free _ hb]
  rcases List.eq_nil_or_concat pre with rfl | ⟨pre', c, rfl⟩
  · have hfirst : b.addr = h.heap + 8 := hl.tiles.1
    exact hstay (merge_bwd_zero (Or.inl (by omega)))
  · rw [List.concat_eq_append, ← List.append_cons] at hl
    have hcm : c ∈ pre' ++ c :: b :: post := by simp
    have hadj := tiles_adjacent hl.tiles
    have hcb := hl.bounds hcm
    obtain ⟨hsize, hend⟩ := hl.tagged c hcm
    have haddr : b.addr - 8 - 8 = c.addr + c.size := by omega
    cases hc : c.free with
    | false =>
      refine hstay (merge_bwd_zero (Or.inr ?_))
      rw [haddr, hend, hc, if_neg Bool.false_ne_true]
    | true =>
      rw [hc, if_pos rfl] at hend
      have hc0 : c.size ≠ 0 := by
        have := (hl.sized c hcm).2
        omega
      obtain ⟨h', chains', hmerge, hl', hframe, hword⟩ := merge_laid hl hc hb (Or.inr ⟨rfl, rfl⟩)
      have hstep : h.merge_bwd b.addr = some (true, h') := by
        unfold merge_bwd
        dsimp only
        rw [haddr, if_neg (by omega), hend, if_pos hc0, Nat.add_sub_cancel, hsize, hmerge]
        simp only [check, if_true, Option.bind_eq_bind, Option.bind_some]
        rfl
      have hlast : h'.merge_bwd b.addr = some (false, h') :=
        merge_bwd_zero (Or.inr (by rw [haddr, hword]))
      have hnext : whileMerge (merge_bwd · b.addr) (fuel + 1 + 1) h =
          whileMerge (merge_bwd · b.addr) (fuel + 1) h' := whileMerge_next _ hstep
      refine ⟨h', _, chains', hnext.trans (whileMerge_stop _ hlast), hl', ?_,
        hframe.mono fun d hd hf => ?_⟩
      · rw [used_append, used_cons_free _ rfl, List.concat_eq_append, used_append,
          used_cons_free _ hc]
        simp [used]
      · simp only [List.concat_eq_append, List.append_assoc, List.mem_append, List.mem_cons,
          List.not_mem_nil, or_false] at hd ⊢
        rcases hd with hd | rfl | hd
        · exact Or.inl hd
        · exact absurd hc (by rw [hf]; exact Bool.false_ne_true)
        · exact Or.inr hd

end

end DobieStation.JitHeap.Allocator
