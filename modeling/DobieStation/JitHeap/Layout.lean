import DobieStation.JitHeap.Model
import DobieStation.Lib.LinkedList

/-! # The layout of the heap

`Laid h blocks chains`: the heap is tiled by `blocks`, the tags say so, and `chains` are the free
lists, each block that is free being in that of its bin. A block that is not free may be on its way
from one list to another: the allocator works by four changes of the layout, each of which keeps it
(`put_free`, `take_free`, `split`, `join`). -/

namespace DobieStation.JitHeap.Layout

open DobieStation.Lib.Memory DobieStation.Lib.LinkedList DobieStation.JitHeap.Model
open DobieStation.JitHeap.Model.EEJitHeap

structure Block where
  addr : ℕ
  size : ℕ
  free : Bool
  deriving DecidableEq, Repr

/-- The blocks, each with its two tags, from `p` to `q`. -/
def Tiles : ℕ → List Block → ℕ → Prop
  | p, [], q => p = q
  | p, b :: bs, q => b.addr = p + 8 ∧ Tiles (p + b.size + 16) bs q

theorem tiles_append {p q : ℕ} {l l' : List Block} :
    Tiles p (l ++ l') q ↔ ∃ m, Tiles p l m ∧ Tiles m l' q := by
  induction l generalizing p with
  | nil => simp [Tiles]
  | cons b l ih =>
    simp only [List.cons_append, Tiles, ih]
    constructor
    · rintro ⟨hb, m, h1, h2⟩
      exact ⟨m, ⟨hb, h1⟩, h2⟩
    · rintro ⟨m, ⟨hb, h1⟩, h2⟩
      exact ⟨hb, m, h1, h2⟩

theorem tiles_le {p q : ℕ} {l : List Block} (h : Tiles p l q) : p ≤ q := by
  induction l generalizing p with
  | nil => exact Nat.le_of_eq h
  | cons b l ih =>
    have := ih h.2
    omega

theorem tiles_bounds {p q : ℕ} {l : List Block} (h : Tiles p l q) {b : Block} (hb : b ∈ l) :
    p + 8 ≤ b.addr ∧ b.addr + b.size + 8 ≤ q := by
  induction l generalizing p with
  | nil => simp at hb
  | cons c l ih =>
    obtain ⟨hc, ht⟩ := h
    rcases List.mem_cons.mp hb with rfl | hb
    · have := tiles_le ht
      omega
    · have := ih ht hb
      omega

theorem tiles_end {p q q' : ℕ} {l : List Block} (h : Tiles p l q) (h' : Tiles p l q') : q = q' := by
  induction l generalizing p with
  | nil => exact h.symm.trans h'
  | cons b l ih => exact ih h.2 h'.2

/-- Around a block: those before it and those behind it. -/
theorem tiles_around {p q : ℕ} {pre post : List Block} {b : Block}
    (h : Tiles p (pre ++ b :: post) q) :
    (∀ c ∈ pre, c.addr + c.size + 16 ≤ b.addr) ∧ (∀ c ∈ post, b.addr + b.size + 16 ≤ c.addr) := by
  obtain ⟨m, hpre, hb, hpost⟩ := tiles_append.1 h
  refine ⟨fun c hc => ?_, fun c hc => ?_⟩
  · have := tiles_bounds hpre hc
    omega
  · have := tiles_bounds hpost hc
    omega

theorem tiles_apart {p q : ℕ} {l : List Block} (h : Tiles p l q) {b c : Block} (hb : b ∈ l)
    (hc : c ∈ l) (hne : b.addr ≠ c.addr) :
    b.addr + b.size + 16 ≤ c.addr ∨ c.addr + c.size + 16 ≤ b.addr := by
  obtain ⟨pre, post, rfl⟩ := List.append_of_mem hb
  obtain ⟨h1, h2⟩ := tiles_around h
  rcases List.mem_append.mp hc with hc | hc
  · exact Or.inr (h1 c hc)
  · rcases List.mem_cons.mp hc with rfl | hc
    · exact absurd rfl hne
    · exact Or.inl (h2 c hc)

theorem tiles_inj {p q : ℕ} {l : List Block} (h : Tiles p l q) {b c : Block} (hb : b ∈ l)
    (hc : c ∈ l) (he : b.addr = c.addr) : b = c := by
  obtain ⟨pre, post, rfl⟩ := List.append_of_mem hb
  obtain ⟨h1, h2⟩ := tiles_around h
  rcases List.mem_append.mp hc with hc | hc
  · have := h1 c hc
    omega
  · rcases List.mem_cons.mp hc with rfl | hc
    · rfl
    · have := h2 c hc
      omega

/-- The tiles do not depend on the flags. -/
theorem tiles_flag {p q : ℕ} {pre post : List Block} {b : Block} {f : Bool}
    (h : Tiles p (pre ++ b :: post) q) : Tiles p (pre ++ { b with free := f } :: post) q := by
  obtain ⟨m, hpre, hpost⟩ := tiles_append.1 h
  exact tiles_append.2 ⟨m, hpre, hpost⟩

/-! ### Loads after stores -/

section
variable (h : EEJitHeap) {a b v i x : ℕ}

theorem word_set_word (hab : a + 8 ≤ b ∨ b + 8 ≤ a) : (h.set_word a v).word b = h.word b :=
  load_store_apart hab

theorem word_set_word_self (hv : v < 2 ^ 64) : (h.set_word a v).word a = v := by
  unfold word set_word
  rw [load_store_self]
  exact Nat.mod_eq_of_lt hv

theorem word_set_bin (hab : a + 17 ≤ b ∨ b + 8 ≤ a + 16) : (h.set_bin a v).word b = h.word b :=
  load_store_apart (by omega)

theorem bin_set_word (hab : a + 8 ≤ b + 16 ∨ b + 17 ≤ a) : (h.set_word a v).bin b = h.bin b :=
  load_store_apart (by omega)

theorem bin_set_bin (hab : a ≠ b) : (h.set_bin a v).bin b = h.bin b :=
  load_store_apart (by omega)

theorem bin_set_bin_self (hv : v < 256) : (h.set_bin a v).bin a = v := by
  unfold bin set_bin
  rw [load_store_self]
  exact Nat.mod_eq_of_lt hv

@[simp]
theorem word_set_list : (h.set_list i v).word b = h.word b := rfl

theorem mem_set_list {p : ℕ} : (h.set_list i v).mem p = h.mem p := rfl

@[simp]
theorem bin_set_list : (h.set_list i v).bin b = h.bin b := rfl

theorem mem_set_word {p : ℕ} (hp : p < a ∨ a + 8 ≤ p) : (h.set_word a v).mem p = h.mem p :=
  store_apply hp

theorem mem_set_bin {p : ℕ} (hp : p < a + 16 ∨ a + 17 ≤ p) : (h.set_bin a v).mem p = h.mem p :=
  store_apply (by omega)

@[simp]
theorem unlist_mem {n : ℕ} : (h.unlist i a n).mem = h.mem := by
  unfold unlist
  split_ifs <;> rfl

theorem link_prev_mem {n q p : ℕ} (hp : n ≠ 0 → p < n + 8 ∨ n + 16 ≤ p) :
    (h.link_prev n q).mem p = h.mem p := by
  unfold link_prev
  split_ifs with hn
  · exact mem_set_word _ (by have := hp hn; omega)
  · rfl

theorem link_next_mem {n q p : ℕ} (hp : q ≠ 0 → p < q ∨ q + 8 ≤ p) :
    (h.link_next q n).mem p = h.mem p := by
  unfold link_next
  split_ifs with hq
  · exact mem_set_word _ (hp hq)
  · rfl

end

/-! ### Tags -/

theorem check_pos {p : Prop} [Decidable p] (hp : p) : check p = some () := if_pos hp

section
variable {h : EEJitHeap} {obj size v : ℕ}

theorem get_end_eq (hsize : h.get_size obj = size) (hs : size % JIT_ALLOC_ALIGN = 0) :
    h.get_end obj = some (h.word (obj + size)) := by
  simp only [EEJitHeap.get_end, get_end_ptr, hsize, check_pos hs, Option.bind_eq_bind,
    Option.bind_some, Option.pure_def]

theorem set_end_eq (hsize : h.get_size obj = size) (hs : size % JIT_ALLOC_ALIGN = 0) :
    h.set_end obj v = some (h.set_word (obj + size) v) := by
  simp only [EEJitHeap.set_end, get_end_ptr, hsize, check_pos hs, Option.bind_eq_bind,
    Option.bind_some, Option.pure_def]

end

/-! ### The invariant -/

structure Laid (h : EEJitHeap) (blocks : List Block) (chains : ℕ → List ℕ) : Prop where
  below : h.heap + EE_JIT_HEAP_SIZE ≤ 2 ^ 64
  tiles : Tiles h.heap blocks (h.heap + EE_JIT_HEAP_SIZE)
  sized : ∀ b ∈ blocks, b.size % JIT_ALLOC_ALIGN = 0 ∧ 256 ≤ b.size
  tagged : ∀ b ∈ blocks, h.get_size b.addr = b.size ∧
    h.word (b.addr + b.size) = if b.free then b.size else 0
  linked : ∀ i, Linked h.next h.prev 0 (h.free_bin_lists i) (chains i)
  nodup : ∀ i, (chains i).Nodup
  binned : ∀ i, ∀ a ∈ chains i, h.bin a = i ∧
    ∃ b ∈ blocks, b.addr = a ∧ b.free = true ∧ pick_bin b.size = i
  covered : ∀ b ∈ blocks, b.free = true → b.addr ∈ chains (pick_bin b.size)

section
variable {h : EEJitHeap} {blocks pre post : List Block} {chains : ℕ → List ℕ} {b c : Block}

theorem Laid.same_or_apart (hl : Laid h blocks chains) (hb : b ∈ blocks) (hc : c ∈ blocks) :
    b = c ∨ b.addr + b.size + 16 ≤ c.addr ∨ c.addr + c.size + 16 ≤ b.addr := by
  rcases eq_or_ne b.addr c.addr with he | hne
  · exact Or.inl (tiles_inj hl.tiles hb hc he)
  · exact Or.inr (tiles_apart hl.tiles hb hc hne)

theorem Laid.bounds (hl : Laid h blocks chains) (hb : b ∈ blocks) :
    h.heap + 8 ≤ b.addr ∧ b.addr + b.size + 8 ≤ h.heap + EE_JIT_HEAP_SIZE :=
  tiles_bounds hl.tiles hb

theorem Laid.get_end (hl : Laid h blocks chains) (hb : b ∈ blocks) :
    h.get_end b.addr = some (if b.free then b.size else 0) := by
  rw [get_end_eq (hl.tagged b hb).1 (hl.sized b hb).1, (hl.tagged b hb).2]

theorem Laid.get_end_used (hl : Laid h blocks chains) (hb : b ∈ blocks) (hf : b.free = false) :
    h.get_end b.addr = some 0 := by
  rw [hl.get_end hb, hf, if_neg Bool.false_ne_true]

theorem Laid.get_end_free (hl : Laid h blocks chains) (hb : b ∈ blocks) (hf : b.free = true) :
    h.get_end b.addr = some b.size := by
  rw [hl.get_end hb, hf, if_pos rfl]

theorem Laid.chained (hl : Laid h blocks chains) {i a : ℕ} (ha : a ∈ chains i) :
    ∃ d ∈ blocks, d.addr = a ∧ d.free = true := by
  obtain ⟨-, d, hd, had, hf, -⟩ := hl.binned i a ha
  exact ⟨d, hd, had, hf⟩

/-- The head of a free list is a free block. -/
theorem Laid.head (hl : Laid h blocks chains) {i : ℕ} (h0 : h.free_bin_lists i ≠ 0) :
    ∃ d ∈ blocks, d.addr = h.free_bin_lists i ∧ d.free = true :=
  hl.chained ((hl.linked i).head_mem h0)

/-- The layout does not depend on `heap_usage`. -/
theorem Laid.usage (hl : Laid h blocks chains) (u : ℕ) : Laid { h with heap_usage := u } blocks chains :=
  ⟨hl.below, hl.tiles, hl.sized, hl.tagged, hl.linked, hl.nodup, hl.binned, hl.covered⟩

theorem pick_bin_lt (size : ℕ) : pick_bin size < 256 := by
  unfold pick_bin
  cases hf : (List.range JIT_ALLOC_BINS).find? fun i => decide (size < get_max_bin_size i) with
  | none => decide
  | some i =>
    have hi := List.mem_of_find?_eq_some hf
    rw [List.mem_range] at hi
    have : JIT_ALLOC_BINS = 8 := rfl
    rw [Option.getD_some]
    omega

end

/-! ### A block put into its list -/

/-- What `add_freed_memory_to_bin` leaves of an object at `a` with `s` bytes, where `hd` is at the
head of the list. -/
def freed (h : EEJitHeap) (a s i hd : ℕ) : EEJitHeap :=
  let h := ((h.set_next a hd).set_bin a i).set_prev a 0
  ((h.link_prev hd a).set_list i a).set_word (a + s) s

section
variable {h : EEJitHeap} {a s i hd x : ℕ}

theorem freed_fields : (freed h a s i hd).heap = h.heap ∧
    (freed h a s i hd).heap_usage = h.heap_usage ∧
    ∀ j, (freed h a s i hd).free_bin_lists j = if j = i then a else h.free_bin_lists j := by
  unfold freed link_prev
  split_ifs with hd0
  · exact ⟨rfl, rfl, fun j => Function.update_apply ..⟩
  · exact ⟨rfl, rfl, fun j => Function.update_apply ..⟩

theorem freed_mem {p : ℕ} (h1 : p < a ∨ a + 24 ≤ p) (h2 : hd ≠ 0 → p < hd + 8 ∨ hd + 16 ≤ p)
    (h3 : p < a + s ∨ a + s + 8 ≤ p) : (freed h a s i hd).mem p = h.mem p := by
  unfold freed set_next set_prev
  rw [mem_set_word _ h3, mem_set_list, link_prev_mem _ h2, mem_set_word _ (by omega),
    mem_set_bin _ (by omega), mem_set_word _ (by omega)]

theorem freed_word (h1 : x + 8 ≤ a ∨ a + 24 ≤ x) (h2 : hd ≠ 0 → x + 8 ≤ hd + 8 ∨ hd + 16 ≤ x)
    (h3 : x + 8 ≤ a + s ∨ a + s + 8 ≤ x) : (freed h a s i hd).word x = h.word x := by
  refine load_congr fun p _ _ => freed_mem (by omega) (fun h0 => ?_) (by omega)
  have := h2 h0
  omega

theorem freed_bin (h1 : x + 17 ≤ a ∨ a + 24 ≤ x) (h2 : hd ≠ 0 → x + 17 ≤ hd + 8 ∨ hd ≤ x)
    (h3 : x + 17 ≤ a + s ∨ a + s + 8 ≤ x) : (freed h a s i hd).bin x = h.bin x := by
  refine load_congr fun p _ _ => freed_mem (by omega) (fun h0 => ?_) (by omega)
  have := h2 h0
  omega

/-- The new cell, and the one behind it. -/
theorem freed_cell (hs : 24 ≤ s) (ha : a < 2 ^ 64) (hi : i < 256) (hdlt : hd < 2 ^ 64)
    (hapart : hd ≠ 0 → hd + 24 ≤ a ∨ a + s + 8 ≤ hd) :
    (freed h a s i hd).next a = hd ∧ (freed h a s i hd).prev a = 0 ∧
    (freed h a s i hd).bin a = i ∧ (hd ≠ 0 → (freed h a s i hd).prev hd = a) := by
  have hlink : ∀ x n, x + n ≤ a + 24 → a ≤ x →
      load n (((h.set_next a hd).set_bin a i).set_prev a 0 |>.link_prev hd a).mem x =
        load n (((h.set_next a hd).set_bin a i).set_prev a 0).mem x := by
    intro x n h1 h2
    refine load_congr fun p _ _ => link_prev_mem _ fun h0 => ?_
    have := hapart h0
    omega
  unfold freed EEJitHeap.next EEJitHeap.prev
  refine ⟨?_, ?_, ?_, fun h0 => ?_⟩
  · rw [word_set_word _ (by omega), word_set_list, word, hlink a 8 (by omega) (by omega)]
    change (((h.set_next a hd).set_bin a i).set_prev a 0).word a = hd
    unfold set_next set_prev
    rw [word_set_word _ (by omega), word_set_bin _ (by omega), word_set_word_self _ hdlt]
  · rw [word_set_word _ (by omega), word_set_list, word, hlink (a + 8) 8 (by omega) (by omega)]
    exact word_set_word_self _ (Nat.two_pow_pos 64)
  · rw [bin_set_word _ (by omega), bin_set_list, bin, hlink (a + 16) 1 (by omega) (by omega)]
    change (((h.set_next a hd).set_bin a i).set_prev a 0).bin a = i
    unfold set_next set_prev
    rw [bin_set_word _ (by omega), bin_set_bin_self _ hi]
  · have := hapart h0
    rw [word_set_word _ (by omega), word_set_list]
    unfold link_prev
    rw [if_pos h0]
    exact word_set_word_self _ ha

theorem add_freed_eq (hsize : h.get_size a = s) (hs : s % JIT_ALLOC_ALIGN = 0) (hmin : 24 ≤ s)
    (hend : h.word (a + s) = 0) (hlist : h.free_bin_lists (pick_bin s) = hd)
    (hprev : hd = 0 ∨ h.prev hd = 0) (ha8 : 8 ≤ a) (hdlt : hd < 2 ^ 64)
    (hapart : hd ≠ 0 → hd + 24 ≤ a - 8 ∨ a + s + 8 ≤ hd) :
    h.add_freed_memory_to_bin a = some (freed h a s (pick_bin s) hd) := by
  have hnext : (((h.set_next a hd).set_bin a (pick_bin s)).set_prev a 0).next a = hd := by
    unfold set_next set_prev EEJitHeap.next
    rw [word_set_word _ (by omega), word_set_bin _ (by omega), word_set_word_self _ hdlt]
  have hkept : (((((h.set_next a hd).set_bin a (pick_bin s)).set_prev a 0).link_prev hd a).set_list
      (pick_bin s) a).get_size a = s := by
    rw [← hsize]
    refine load_congr fun p _ _ => ?_
    rw [mem_set_list, link_prev_mem _ fun h0 => ?_]
    · unfold set_next set_prev
      rw [mem_set_word _ (by omega), mem_set_bin _ (by omega), mem_set_word _ (by omega)]
    · have := hapart h0
      omega
  have hget : h.get_end a = some 0 := by rw [get_end_eq hsize hs, hend]
  unfold add_freed_memory_to_bin
  dsimp only
  rw [hsize, hget, hlist, hnext, set_end_eq hkept hs]
  simp only [check, hs, hprev, if_true, Option.bind_eq_bind, Option.bind_some]
  rfl

end

/-- What a change of the layout leaves alone: the payloads in use. -/
structure Frame (h h' : EEJitHeap) (others : List Block) : Prop where
  heap : h'.heap = h.heap
  usage : h'.heap_usage = h.heap_usage
  payload : ∀ c ∈ others, c.free = false → ∀ p, c.addr ≤ p → p < c.addr + c.size →
    h'.mem p = h.mem p

theorem Frame.trans {h h' h'' : EEJitHeap} {l l' : List Block} (h1 : Frame h h' l)
    (h2 : Frame h' h'' l') (hsub : ∀ b ∈ l, b.free = false → b ∈ l') : Frame h h'' l where
  heap := h2.heap.trans h1.heap
  usage := h2.usage.trans h1.usage
  payload := by
    intro c hc hf p hp1 hp2
    rw [h2.payload c (hsub c hc hf) hf p hp1 hp2, h1.payload c hc hf p hp1 hp2]

theorem Frame.mono {h h' : EEJitHeap} {l l' : List Block} (h1 : Frame h h' l')
    (hsub : ∀ b ∈ l, b.free = false → b ∈ l') : Frame h h' l where
  heap := h1.heap
  usage := h1.usage
  payload := fun c hc hf => h1.payload c (hsub c hc hf) hf

theorem Frame.refl (h : EEJitHeap) (l : List Block) : Frame h h l :=
  ⟨rfl, rfl, fun _ _ _ _ _ _ => rfl⟩

section
variable {h : EEJitHeap} {pre post : List Block} {chains : ℕ → List ℕ} {b : Block}

/-- The other blocks of a layout. -/
theorem Laid.other (hl : Laid h (pre ++ b :: post) chains) {c : Block}
    (hc : c ∈ pre ∨ c ∈ post) :
    c ∈ pre ++ b :: post ∧ (c.addr + c.size + 16 ≤ b.addr ∨ b.addr + b.size + 16 ≤ c.addr) := by
  obtain ⟨h1, h2⟩ := tiles_around hl.tiles
  rcases hc with hc | hc
  · exact ⟨by simp [hc], Or.inl (h1 c hc)⟩
  · exact ⟨by simp [hc], Or.inr (h2 c hc)⟩

theorem mem_around {c : Block} (hc : c ∈ pre ++ b :: post) : c = b ∨ (c ∈ pre ∨ c ∈ post) := by
  simp only [List.mem_append, List.mem_cons] at hc
  exact or_left_comm.mp hc

/-- **A block is put into its list.** -/
theorem put_free (hl : Laid h (pre ++ b :: post) chains) (hb : b.free = false) :
    ∃ h', h.add_freed_memory_to_bin b.addr = some h' ∧
      Laid h' (pre ++ { b with free := true } :: post)
        (Function.update chains (pick_bin b.size) (b.addr :: chains (pick_bin b.size))) ∧
      Frame h h' (pre ++ post) ∧
      ∀ p, b.addr + 24 ≤ p → p < b.addr + b.size → h'.mem p = h.mem p := by
  have hbm : b ∈ pre ++ b :: post := by simp
  have hbound := hl.bounds hbm
  have hbelow := hl.below
  obtain ⟨halign, hmin⟩ := hl.sized b hbm
  obtain ⟨hsize, hend⟩ := hl.tagged b hbm
  rw [hb] at hend
  have hlinked := hl.linked (pick_bin b.size)
  -- the head of the list is a free block, so not this one
  have hhead : h.free_bin_lists (pick_bin b.size) ≠ 0 → ∃ d ∈ pre ++ b :: post,
      d.addr = h.free_bin_lists (pick_bin b.size) ∧ d.free = true ∧
      (d.addr + d.size + 16 ≤ b.addr ∨ b.addr + b.size + 16 ≤ d.addr) := by
    intro h0
    obtain ⟨d, hd, hda, hdf⟩ := hl.head h0
    refine ⟨d, hd, hda, hdf, ?_⟩
    rcases mem_around hd with rfl | hd'
    · exact absurd hdf (by rw [hb]; exact Bool.false_ne_true)
    · exact (hl.other hd').2
  generalize hhd : h.free_bin_lists (pick_bin b.size) = hd at hhead hlinked
  have hdlt : hd < 2 ^ 64 := by
    rcases eq_or_ne hd 0 with rfl | h0
    · exact Nat.two_pow_pos 64
    · obtain ⟨d, hdm, hda, -, -⟩ := hhead h0
      have := hl.bounds hdm
      omega
  have hdapart : hd ≠ 0 → hd + 24 ≤ b.addr - 8 ∨ b.addr + b.size + 8 ≤ hd := by
    intro h0
    obtain ⟨d, hdm, hda, -, hap⟩ := hhead h0
    have := (hl.sized d hdm).2
    omega
  have hprev : hd = 0 ∨ h.prev hd = 0 := by
    rcases eq_or_ne hd 0 with h0 | h0
    · exact Or.inl h0
    · exact Or.inr (hlinked.prev_head h0)
  have hpick := pick_bin_lt b.size
  -- where the other blocks are, as seen from the head
  have hfar : hd ≠ 0 → ∀ c ∈ pre ++ b :: post,
      c.addr = hd ∨ c.addr + c.size + 16 ≤ hd ∨ hd + 272 ≤ c.addr := by
    intro h0 c hc
    obtain ⟨d, hdm, hda, -, -⟩ := hhead h0
    have := (hl.sized d hdm).2
    rcases hl.same_or_apart hc hdm with rfl | hap <;> omega
  have hcell : ∀ i, ∀ e ∈ chains i, ∃ c, (c ∈ pre ∨ c ∈ post) ∧ c.addr = e ∧ c.free = true ∧
      pick_bin c.size = i := by
    intro i e he
    obtain ⟨-, c, hc, hce, hcf, hcb⟩ := hl.binned i e he
    rcases mem_around hc with rfl | hc'
    · exact absurd hcf (by rw [hb]; exact Bool.false_ne_true)
    · exact ⟨c, hc', hce, hcf, hcb⟩
  have hcells := fun h => freed_cell (h := h) (a := b.addr) (s := b.size) (by omega) (by omega)
    hpick hdlt fun h0 => by
      have := hdapart h0
      omega
  obtain ⟨hcn, hcp, hcb, hhp⟩ := hcells h
  refine ⟨_, add_freed_eq hsize halign (by omega) hend hhd hprev (by omega) hdlt hdapart, ?_, ?_,
    fun p h1 h2 => freed_mem (by omega) (fun h0 => by have := hdapart h0; omega) (by omega)⟩
  · have hnexts : ∀ i, ∀ e ∈ chains i,
        (freed h b.addr b.size (pick_bin b.size) hd).next e = h.next e ∧
        (freed h b.addr b.size (pick_bin b.size) hd).bin e = h.bin e ∧
        (e ≠ hd → (freed h b.addr b.size (pick_bin b.size) hd).prev e = h.prev e) := by
      intro i e he
      obtain ⟨c, hc, rfl, -, -⟩ := hcell i e he
      have hap := (hl.other hc).2
      have hcs := (hl.sized c (hl.other hc).1).2
      have hcd : hd ≠ 0 → c.addr = hd ∨ c.addr + c.size + 16 ≤ hd ∨ hd + 272 ≤ c.addr :=
        fun h0 => hfar h0 c (hl.other hc).1
      refine ⟨freed_word (by omega) (fun h0 => ?_) (by omega),
        freed_bin (by omega) (fun h0 => ?_) (by omega),
        fun hne => freed_word (by omega) (fun h0 => ?_) (by omega)⟩ <;>
      · have := hcd h0
        omega
    have htag : ∀ c, c ∈ pre ∨ c ∈ post →
        (freed h b.addr b.size (pick_bin b.size) hd).get_size c.addr = h.get_size c.addr ∧
        (freed h b.addr b.size (pick_bin b.size) hd).word (c.addr + c.size) =
          h.word (c.addr + c.size) := by
      intro c hc
      have hap := (hl.other hc).2
      have hcs := (hl.sized c (hl.other hc).1).2
      have hcb := hl.bounds (hl.other hc).1
      refine ⟨freed_word (by omega) (fun h0 => ?_) (by omega),
        freed_word (by omega) (fun h0 => ?_) (by omega)⟩ <;>
      · have := hfar h0 c (hl.other hc).1
        omega
    have htagb : (freed h b.addr b.size (pick_bin b.size) hd).get_size b.addr = b.size ∧
        (freed h b.addr b.size (pick_bin b.size) hd).word (b.addr + b.size) = b.size := by
      refine ⟨?_, word_set_word_self _ (by omega)⟩
      rw [← hsize]
      refine freed_word (by omega) (fun h0 => ?_) (by omega)
      have := hdapart h0
      omega
    have hother : ∀ {i}, i ≠ pick_bin b.size → ∀ e ∈ chains i, e ≠ hd := by
      rintro i hi e he rfl
      have h0 : e ≠ 0 := (hl.linked i).ne_zero he
      have hbin := (hl.binned _ e (hlinked.head_mem h0)).1
      exact hi (by rw [← hbin, (hl.binned i e he).1])
    have hfresh : b.addr ∉ chains (pick_bin b.size) := by
      intro hmem
      obtain ⟨c, hc, hca, -, -⟩ := hcell _ _ hmem
      have := (hl.other hc).2
      omega
    refine ⟨?_, ?_, ?_, ?_, ?_, ?_, ?_, ?_⟩
    · rw [freed_fields.1]
      exact hl.below
    · rw [freed_fields.1]
      exact tiles_flag hl.tiles
    · intro c hc
      rcases mem_around hc with rfl | hc'
      · exact ⟨halign, hmin⟩
      · exact hl.sized c (hl.other hc').1
    · intro c hc
      rcases mem_around hc with rfl | hc'
      · exact htagb
      · rw [(htag c hc').1, (htag c hc').2]
        exact hl.tagged c (hl.other hc').1
    · intro i
      rw [freed_fields.2.2]
      rcases eq_or_ne i (pick_bin b.size) with rfl | hi
      · rw [if_pos rfl, Function.update_self]
        exact hlinked.push (hl.nodup _) (by omega) hcn hcp (fun e he => (hnexts _ e he).1) hhp
          fun e he hne => (hnexts _ e he).2.2 hne
      · rw [if_neg hi, Function.update_of_ne hi]
        exact (hl.linked i).congr (fun e he => (hnexts i e he).1)
          fun e he => (hnexts i e he).2.2 (hother hi e he)
    · intro i
      rcases eq_or_ne i (pick_bin b.size) with rfl | hi
      · rw [Function.update_self]
        exact List.nodup_cons.mpr ⟨hfresh, hl.nodup _⟩
      · rw [Function.update_of_ne hi]
        exact hl.nodup i
    · intro i e he
      have hold : ∀ j, e ∈ chains j → (freed h b.addr b.size (pick_bin b.size) hd).bin e = j ∧
          ∃ c ∈ pre ++ { b with free := true } :: post, c.addr = e ∧ c.free = true ∧
            pick_bin c.size = j := by
        intro j hj
        obtain ⟨c, hc, hce, hcf, hcb⟩ := hcell j e hj
        refine ⟨by rw [(hnexts j e hj).2.1, (hl.binned j e hj).1], c, ?_, hce, hcf, hcb⟩
        rcases hc with hc | hc <;> simp [hc]
      rcases eq_or_ne i (pick_bin b.size) with rfl | hi
      · rw [Function.update_self] at he
        rcases List.mem_cons.mp he with rfl | he'
        · exact ⟨hcb, { b with free := true }, by simp, rfl, rfl, rfl⟩
        · exact hold _ he'
      · rw [Function.update_of_ne hi] at he
        exact hold i he
    · intro c hc hcf
      rcases mem_around hc with rfl | hc'
      · rw [Function.update_self]
        exact List.mem_cons_self
      · have hcov := hl.covered c (hl.other hc').1 hcf
        rcases eq_or_ne (pick_bin c.size) (pick_bin b.size) with he | hne
        · rw [he, Function.update_self]
          exact List.mem_cons_of_mem _ (he ▸ hcov)
        · rw [Function.update_of_ne hne]
          exact hcov
  · refine ⟨freed_fields.1, freed_fields.2.1, fun c hc hcf p h1 h2 => ?_⟩
    have hc' : c ∈ pre ∨ c ∈ post := List.mem_append.mp hc
    have hap := (hl.other hc').2
    refine freed_mem (by omega) (fun h0 => ?_) (by omega)
    obtain ⟨d, hdm, hda, hdf, -⟩ := hhead h0
    rcases hl.same_or_apart (hl.other hc').1 hdm with rfl | hap'
    · exact absurd hdf (by rw [hcf]; exact Bool.false_ne_true)
    · have := (hl.sized d hdm).2
      omega

end

/-! ### A block taken out of its list -/

/-- What `remove_memory_from_bin` leaves of an object at `a` with `s` bytes in list `i`, between `q`
and `n`. -/
def removed (h : EEJitHeap) (a s i n q : ℕ) : EEJitHeap :=
  (((h.unlist i a n).link_prev n q).link_next q n).set_word (a + s) 0

section
variable {h : EEJitHeap} {a s i n q x : ℕ}

theorem removed_mem {p : ℕ} (hn : n ≠ 0 → p < n + 8 ∨ n + 16 ≤ p)
    (hq : q ≠ 0 → p < q ∨ q + 8 ≤ p) (hs : p < a + s ∨ a + s + 8 ≤ p) :
    (removed h a s i n q).mem p = h.mem p := by
  unfold removed
  rw [mem_set_word _ hs, link_next_mem _ hq, link_prev_mem _ hn, unlist_mem]

theorem removed_word (hn : n ≠ 0 → x + 8 ≤ n + 8 ∨ n + 16 ≤ x)
    (hq : q ≠ 0 → x + 8 ≤ q ∨ q + 8 ≤ x) (hs : x + 8 ≤ a + s ∨ a + s + 8 ≤ x) :
    (removed h a s i n q).word x = h.word x := by
  refine load_congr fun p h1 h2 => removed_mem (fun hn0 => ?_) (fun hq0 => ?_) (by omega)
  · have := hn hn0
    omega
  · have := hq hq0
    omega

theorem removed_bin (hn : n ≠ 0 → x + 17 ≤ n + 8 ∨ n ≤ x) (hq : q ≠ 0 → x + 17 ≤ q ∨ q ≤ x)
    (hs : x + 17 ≤ a + s ∨ a + s + 8 ≤ x) : (removed h a s i n q).bin x = h.bin x := by
  refine load_congr fun p h1 h2 => removed_mem (fun hn0 => ?_) (fun hq0 => ?_) (by omega)
  · have := hn hn0
    omega
  · have := hq hq0
    omega

theorem removed_fields : (removed h a s i n q).heap = h.heap ∧
    (removed h a s i n q).heap_usage = h.heap_usage ∧
    ∀ j, (removed h a s i n q).free_bin_lists j =
      if h.free_bin_lists i = a ∧ j = i then n else h.free_bin_lists j := by
  unfold removed link_next link_prev unlist
  by_cases hh : h.free_bin_lists i = a
  · simp only [hh, true_and]
    split_ifs <;> exact ⟨rfl, rfl, fun j => Function.update_apply ..⟩
  · simp only [hh, false_and, if_false]
    split_ifs <;> exact ⟨rfl, rfl, fun j => rfl⟩

/-- The two links that now bypass the object. -/
theorem removed_links (hq : q < 2 ^ 64) (hn : n < 2 ^ 64)
    (hqs : q ≠ 0 → q + 24 ≤ a ∨ a + s + 8 ≤ q) (hns : n ≠ 0 → n + 24 ≤ a ∨ a + s + 8 ≤ n)
    (hqn : q ≠ 0 → n ≠ 0 → q = n ∨ q + 24 ≤ n ∨ n + 24 ≤ q) :
    (n ≠ 0 → (removed h a s i n q).prev n = q) ∧
    (q ≠ 0 → (removed h a s i n q).next q = n) := by
  unfold removed EEJitHeap.prev EEJitHeap.next
  refine ⟨fun hn0 => ?_, fun hq0 => ?_⟩
  · have := hns hn0
    have hkeep : (((h.unlist i a n).link_prev n q).link_next q n).word (n + 8) =
        ((h.unlist i a n).link_prev n q).word (n + 8) :=
      load_congr fun p h1 h2 => link_next_mem _ fun hq0 => by
        have := hqn hq0 hn0
        omega
    rw [word_set_word _ (by omega), hkeep]
    unfold link_prev
    rw [if_pos hn0]
    exact word_set_word_self _ hq
  · have := hqs hq0
    rw [word_set_word _ (by omega)]
    unfold link_next
    rw [if_pos hq0]
    exact word_set_word_self _ hn

theorem remove_eq (hsize : h.get_size a = s) (hs : s % JIT_ALLOC_ALIGN = 0) (hmin : 24 ≤ s)
    (hend : h.word (a + s) = s) (hbin : h.bin a = i) (hnext : h.next a = n) (hprev : h.prev a = q)
    (ha : 8 ≤ a) (hqs : q ≠ 0 → q + 24 ≤ a - 8 ∨ a + s + 8 ≤ q)
    (hns : n ≠ 0 → n + 24 ≤ a - 8 ∨ a + s + 8 ≤ n) :
    h.remove_memory_from_bin a = some (removed h a s i n q) := by
  have hunlist : (h.unlist i a n).next a = n ∧ (h.unlist i a n).prev a = q := by
    unfold EEJitHeap.next EEJitHeap.prev word
    rw [unlist_mem]
    exact ⟨hnext, hprev⟩
  have hprevs : ((h.unlist i a n).link_prev n q).next a = n ∧
      ((h.unlist i a n).link_prev n q).prev a = q := by
    refine ⟨(load_congr fun p _ _ => link_prev_mem _ fun hn0 => ?_).trans hunlist.1,
      (load_congr fun p _ _ => link_prev_mem _ fun hn0 => ?_).trans hunlist.2⟩ <;>
    · have := hns hn0
      omega
  have hsize' : (((h.unlist i a n).link_prev n q).link_next q n).get_size a = s := by
    rw [← hsize]
    refine load_congr fun p _ _ => ?_
    rw [link_next_mem _ fun hq0 => ?_, link_prev_mem _ fun hn0 => ?_, unlist_mem]
    · have := hns hn0
      omega
    · have := hqs hq0
      omega
  have hsize'' : (removed h a s i n q).get_size a = s := by
    unfold removed EEJitHeap.get_size
    rw [word_set_word _ (by omega)]
    exact hsize'
  have hget : h.get_end a = some s := by rw [get_end_eq hsize hs, hend]
  have hend' : (removed h a s i n q).get_end a = some 0 := by
    rw [get_end_eq hsize'' hs]
    unfold removed
    rw [word_set_word_self _ (Nat.two_pow_pos 64)]
  unfold remove_memory_from_bin
  dsimp only
  rw [hget, hsize, hbin, hnext, hunlist.1, hunlist.2, hprevs.1, hprevs.2, set_end_eq hsize' hs]
  change ((some s).bind fun x => (check (x = s)).bind fun _ => (some (removed h a s i n q)).bind
    fun h' => (h'.get_end a).bind fun e => (check (e = 0)).bind fun _ => some h') = _
  simp only [Option.bind_some, check, if_true, hend']

end

section
variable {h : EEJitHeap} {pre post : List Block} {chains : ℕ → List ℕ} {b : Block}

/-- The neighbours of a block in its list are other blocks of it, or none. -/
theorem Laid.neighbours (hl : Laid h (pre ++ b :: post) chains) (hb : b.free = true) :
    (h.next b.addr ≠ 0 → h.next b.addr ∈ chains (pick_bin b.size) ∧
      h.prev (h.next b.addr) = b.addr ∧ h.next b.addr ≠ b.addr) ∧
    (h.prev b.addr ≠ 0 → h.prev b.addr ∈ chains (pick_bin b.size) ∧
      h.next (h.prev b.addr) = b.addr ∧ h.prev b.addr ≠ b.addr) := by
  have hmem := hl.covered b (by simp) hb
  have hlinked := hl.linked (pick_bin b.size)
  have hne := hlinked.next_ne (hl.nodup _) hmem
  refine ⟨fun h0 => ⟨?_, hlinked.prev_next hmem h0, hne⟩, fun h0 => ?_⟩
  · rcases hlinked.next_mem hmem with h' | h'
    · exact absurd h' h0
    · exact h'
  · rcases hlinked.next_prev hmem with ⟨h', -⟩ | ⟨h1, h2⟩
    · exact absurd h' h0
    · refine ⟨h1, h2, fun he => hne ?_⟩
      rw [he] at h2
      exact h2

/-- **A block is taken out of its list.** -/
theorem take_free (hl : Laid h (pre ++ b :: post) chains) (hb : b.free = true) :
    ∃ h', h.remove_memory_from_bin b.addr = some h' ∧
      Laid h' (pre ++ { b with free := false } :: post)
        (Function.update chains (pick_bin b.size) ((chains (pick_bin b.size)).erase b.addr)) ∧
      Frame h h' (pre ++ post) := by
  have hbm : b ∈ pre ++ b :: post := by simp
  have hbound := hl.bounds hbm
  have hbelow := hl.below
  obtain ⟨halign, hmin⟩ := hl.sized b hbm
  obtain ⟨hsize, hend⟩ := hl.tagged b hbm
  rw [hb, if_pos rfl] at hend
  have hmem := hl.covered b hbm hb
  have hlinked := hl.linked (pick_bin b.size)
  obtain ⟨hnext, hprev⟩ := hl.neighbours hb
  generalize hn : h.next b.addr = n at hnext
  generalize hq : h.prev b.addr = q at hprev
  -- where a member of the list is, as seen from the other blocks
  have hcell : ∀ {i x}, x ∈ chains i → x ≠ b.addr → ∃ d, (d ∈ pre ∨ d ∈ post) ∧ d.addr = x ∧
      d.free = true ∧ pick_bin d.size = i := by
    intro i x hx hxb
    obtain ⟨-, d, hd, hdx, hdf, hdb⟩ := hl.binned i x hx
    rcases mem_around hd with rfl | hd'
    · exact absurd hdx.symm hxb
    · exact ⟨d, hd', hdx, hdf, hdb⟩
  have hfar : ∀ {i x}, x ∈ chains i → x ≠ b.addr → ∀ c ∈ pre ++ b :: post,
      c.addr = x ∨ c.addr + c.size + 16 ≤ x ∨ x + 272 ≤ c.addr := by
    intro i x hx hxb c hc
    obtain ⟨d, hd, rfl, -, -⟩ := hcell hx hxb
    have := (hl.sized d (hl.other hd).1).2
    rcases hl.same_or_apart hc (hl.other hd).1 with rfl | hap <;> omega
  have hnfar : n ≠ 0 → ∀ c ∈ pre ++ b :: post,
      c.addr = n ∨ c.addr + c.size + 16 ≤ n ∨ n + 272 ≤ c.addr := fun h0 =>
    hfar (hnext h0).1 (hnext h0).2.2
  have hqfar : q ≠ 0 → ∀ c ∈ pre ++ b :: post,
      c.addr = q ∨ c.addr + c.size + 16 ≤ q ∨ q + 272 ≤ c.addr := fun h0 =>
    hfar (hprev h0).1 (hprev h0).2.2
  have hnb : n ≠ 0 → n + 24 ≤ b.addr - 8 ∨ b.addr + b.size + 8 ≤ n := by
    intro h0
    have := (hnext h0).2.2
    rcases hnfar h0 b hbm with h' | h' | h' <;> omega
  have hqb : q ≠ 0 → q + 24 ≤ b.addr - 8 ∨ b.addr + b.size + 8 ≤ q := by
    intro h0
    have := (hprev h0).2.2
    rcases hqfar h0 b hbm with h' | h' | h' <;> omega
  have heval := remove_eq hsize halign (by omega) hend (hl.binned _ _ hmem).1 hn hq (by omega)
    hqb hnb
  have hlt : ∀ x, (x ≠ 0 → x ∈ chains (pick_bin b.size) ∧ x ≠ b.addr) → x < 2 ^ 64 := by
    intro x hx
    rcases eq_or_ne x 0 with rfl | h0
    · exact Nat.two_pow_pos 64
    · obtain ⟨d, hd, rfl, -⟩ := hcell (hx h0).1 (hx h0).2
      have := hl.bounds (hl.other hd).1
      omega
  obtain ⟨hnq, hqn⟩ := removed_links (h := h) (a := b.addr) (s := b.size) (i := pick_bin b.size)
    (hlt q fun h0 => ⟨(hprev h0).1, (hprev h0).2.2⟩)
    (hlt n fun h0 => ⟨(hnext h0).1, (hnext h0).2.2⟩)
    (fun h0 => by have := hqb h0; omega) (fun h0 => by have := hnb h0; omega)
    fun hq0 hn0 => by
      obtain ⟨d, hd, hda, -⟩ := hcell (hnext hn0).1 (hnext hn0).2.2
      have := (hl.sized d (hl.other hd).1).2
      have := hqfar hq0 d (hl.other hd).1
      omega
  refine ⟨_, heval, ?_, ?_⟩
  · have hkeep : ∀ c, c ∈ pre ∨ c ∈ post →
        (removed h b.addr b.size (pick_bin b.size) n q).bin c.addr = h.bin c.addr ∧
        (c.addr ≠ q → (removed h b.addr b.size (pick_bin b.size) n q).next c.addr = h.next c.addr) ∧
        (c.addr ≠ n → (removed h b.addr b.size (pick_bin b.size) n q).prev c.addr = h.prev c.addr) := by
      intro c hc
      obtain ⟨hcm, hap⟩ := hl.other hc
      have hcs := (hl.sized c hcm).2
      have hcn : n ≠ 0 → c.addr = n ∨ c.addr + c.size + 16 ≤ n ∨ n + 272 ≤ c.addr :=
        fun h0 => hnfar h0 c hcm
      have hcq : q ≠ 0 → c.addr = q ∨ c.addr + c.size + 16 ≤ q ∨ q + 272 ≤ c.addr :=
        fun h0 => hqfar h0 c hcm
      refine ⟨removed_bin (fun h0 => ?_) (fun h0 => ?_) (by omega),
        fun hne => removed_word (fun h0 => ?_) (fun h0 => ?_) (by omega),
        fun hne => removed_word (fun h0 => ?_) (fun h0 => ?_) (by omega)⟩ <;>
      · have := hcn
        have := hcq
        omega
    have htag : ∀ c, c ∈ pre ∨ c ∈ post →
        (removed h b.addr b.size (pick_bin b.size) n q).get_size c.addr = h.get_size c.addr ∧
        (removed h b.addr b.size (pick_bin b.size) n q).word (c.addr + c.size) =
          h.word (c.addr + c.size) := by
      intro c hc
      obtain ⟨hcm, hap⟩ := hl.other hc
      have hcs := (hl.sized c hcm).2
      have hcb := hl.bounds hcm
      refine ⟨removed_word (fun h0 => ?_) (fun h0 => ?_) (by omega),
        removed_word (fun h0 => ?_) (fun h0 => ?_) (by omega)⟩
      · have := hnfar h0 c hcm
        omega
      · have := hqfar h0 c hcm
        omega
      · have := hnfar h0 c hcm
        omega
      · have := hqfar h0 c hcm
        omega
    have htagb : (removed h b.addr b.size (pick_bin b.size) n q).get_size b.addr = b.size ∧
        (removed h b.addr b.size (pick_bin b.size) n q).word (b.addr + b.size) = 0 := by
      refine ⟨?_, word_set_word_self _ (Nat.two_pow_pos 64)⟩
      rw [← hsize]
      refine removed_word (fun h0 => ?_) (fun h0 => ?_) (by omega)
      · have := hnb h0
        omega
      · have := hqb h0
        omega
    have hother : ∀ {i}, i ≠ pick_bin b.size → ∀ {x y}, x ∈ chains i →
        y ∈ chains (pick_bin b.size) → x ≠ y := by
      rintro i hi x y hx hy rfl
      exact hi (by rw [← (hl.binned _ _ hy).1, (hl.binned _ _ hx).1])
    refine ⟨?_, ?_, ?_, ?_, ?_, ?_, ?_, ?_⟩
    · rw [removed_fields.1]
      exact hl.below
    · rw [removed_fields.1]
      exact tiles_flag hl.tiles
    · intro c hc
      rcases mem_around hc with rfl | hc'
      · exact ⟨halign, hmin⟩
      · exact hl.sized c (hl.other hc').1
    · intro c hc
      rcases mem_around hc with rfl | hc'
      · exact htagb
      · rw [(htag c hc').1, (htag c hc').2]
        exact hl.tagged c (hl.other hc').1
    · intro i
      rw [removed_fields.2.2]
      rcases eq_or_ne i (pick_bin b.size) with rfl | hi
      · rw [Function.update_self]
        simp only [and_true]
        refine hlinked.bypass (hl.nodup _) hmem (fun h0 => hlinked.ne_zero h0 rfl) hn hq ?_ ?_
        · intro e he hne
          obtain ⟨c, hc, rfl, -, -⟩ := hcell he hne
          have hc0 := hlinked.ne_zero he
          rcases eq_or_ne c.addr q with heq | hneq
          · have hq0 : q ≠ 0 := by rwa [← heq]
            rw [heq, hqn hq0, (hprev hq0).2.1, if_pos rfl]
          · rw [(hkeep c hc).2.1 hneq, if_neg]
            intro hto
            have hback := hlinked.prev_next he (by rw [hto]; exact hlinked.ne_zero hmem)
            rw [hto, hq] at hback
            exact hneq hback.symm
        · intro e he hne
          obtain ⟨c, hc, rfl, -, -⟩ := hcell he hne
          have hc0 := hlinked.ne_zero he
          rcases eq_or_ne c.addr n with heq | hneq
          · have hn0 : n ≠ 0 := by rwa [← heq]
            rw [heq, hnq hn0, (hnext hn0).2.1, if_pos rfl]
          · rw [(hkeep c hc).2.2 hneq, if_neg]
            intro hto
            rcases hlinked.next_prev he with ⟨h', -⟩ | ⟨-, h'⟩
            · exact hlinked.ne_zero hmem (by rw [← hto, h'])
            · rw [hto, hn] at h'
              exact hneq h'.symm
      · rw [Function.update_of_ne hi, if_neg fun h' => hi h'.2]
        refine (hl.linked i).congr (fun e he => ?_) fun e he => ?_
        · obtain ⟨c, hc, rfl, -, -⟩ := hcell he (hother hi he hmem)
          have hc0 := (hl.linked i).ne_zero he
          refine (hkeep c hc).2.1 ?_
          intro heq
          exact hother hi he (hprev (by rwa [← heq])).1 heq
        · obtain ⟨c, hc, rfl, -, -⟩ := hcell he (hother hi he hmem)
          have hc0 := (hl.linked i).ne_zero he
          refine (hkeep c hc).2.2 ?_
          intro heq
          exact hother hi he (hnext (by rwa [← heq])).1 heq
    · intro i
      rcases eq_or_ne i (pick_bin b.size) with rfl | hi
      · rw [Function.update_self]
        exact (hl.nodup _).erase _
      · rw [Function.update_of_ne hi]
        exact hl.nodup i
    · intro i e he
      have hmem' : e ∈ chains i ∧ e ≠ b.addr := by
        rcases eq_or_ne i (pick_bin b.size) with rfl | hi
        · rw [Function.update_self, (hl.nodup _).mem_erase_iff] at he
          exact ⟨he.2, he.1⟩
        · rw [Function.update_of_ne hi] at he
          exact ⟨he, hother hi he hmem⟩
      obtain ⟨c, hc, rfl, hcf, hcb⟩ := hcell hmem'.1 hmem'.2
      refine ⟨by rw [(hkeep c hc).1, (hl.binned i _ hmem'.1).1], c, ?_, rfl, hcf, hcb⟩
      rcases hc with hc | hc <;> simp [hc]
    · intro c hc hcf
      rcases mem_around hc with rfl | hc'
      · exact absurd hcf Bool.false_ne_true
      · have hcov := hl.covered c (hl.other hc').1 hcf
        rcases eq_or_ne (pick_bin c.size) (pick_bin b.size) with he | hne
        · rw [he, Function.update_self, (hl.nodup _).mem_erase_iff]
          have := (hl.other hc').2
          exact ⟨by omega, he ▸ hcov⟩
        · rw [Function.update_of_ne hne]
          exact hcov
  · refine ⟨removed_fields.1, removed_fields.2.1, fun c hc hcf p h1 h2 => ?_⟩
    have hc' : c ∈ pre ∨ c ∈ post := List.mem_append.mp hc
    have hap := (hl.other hc').2
    have hnot : ∀ {i x}, x ∈ chains i → c.addr ≠ x := by
      rintro i x hx rfl
      obtain ⟨d, hd, hda, hdf⟩ := hl.chained hx
      have := tiles_inj hl.tiles hd (hl.other hc').1 hda
      rw [this, hcf] at hdf
      exact Bool.false_ne_true hdf
    refine removed_mem (fun h0 => ?_) (fun h0 => ?_) (by omega)
    · have := hnot (hnext h0).1
      rcases hnfar h0 c (hl.other hc').1 with h' | h' | h' <;> omega
    · have := hnot (hprev h0).1
      rcases hqfar h0 c (hl.other hc').1 with h' | h' | h' <;> omega

end

/-! ### Blocks in use rewritten -/

section
variable {h h' : EEJitHeap} {pre mid mid' post : List Block} {chains : ℕ → List ℕ} {p q : ℕ}

/-- **Blocks in use become others** that tile the same bytes, when only these bytes change. -/
theorem rewrite_used (hl : Laid h (pre ++ mid ++ post) chains) (hpre : Tiles h.heap pre p)
    (hmid : Tiles p mid q) (hmid' : Tiles p mid' q)
    (hused : ∀ b ∈ mid, b.free = false) (hheap : h'.heap = h.heap)
    (hlists : h'.free_bin_lists = h.free_bin_lists)
    (hnew : ∀ b ∈ mid', b.free = false ∧ b.size % JIT_ALLOC_ALIGN = 0 ∧ 256 ≤ b.size ∧
      h'.get_size b.addr = b.size ∧ h'.word (b.addr + b.size) = 0)
    (hmem : ∀ x, x < p ∨ q ≤ x → h'.mem x = h.mem x) : Laid h' (pre ++ mid' ++ post) chains := by
  have htiles := hl.tiles
  rw [List.append_assoc] at htiles
  obtain ⟨p', hpre', hrest⟩ := tiles_append.1 htiles
  obtain ⟨q', hmid1, hpost⟩ := tiles_append.1 hrest
  obtain rfl := tiles_end hpre hpre'
  obtain rfl := tiles_end hmid hmid1
  have houtside : ∀ c, c ∈ pre ∨ c ∈ post → c ∈ pre ++ mid ++ post ∧
      (c.addr + c.size + 8 ≤ p ∨ q + 8 ≤ c.addr) := by
    rintro c (hc | hc)
    · have := tiles_bounds hpre hc
      exact ⟨by simp [hc], by omega⟩
    · have := tiles_bounds hpost hc
      exact ⟨by simp [hc], by omega⟩
  have hold : ∀ c ∈ pre ++ mid' ++ post, (c ∈ pre ∨ c ∈ post) ∨ c ∈ mid' := by
    intro c hc
    simp only [List.mem_append] at hc
    exact or_right_comm.mp hc
  have hfree : ∀ c ∈ pre ++ mid ++ post, c.free = true → c ∈ pre ∨ c ∈ post := by
    intro c hc hf
    simp only [List.mem_append] at hc
    rcases hc with (hc | hc) | hc
    · exact Or.inl hc
    · exact absurd hf (by rw [hused c hc]; exact Bool.false_ne_true)
    · exact Or.inr hc
  -- the cells of the lists are in free blocks, outside of the bytes that change
  have hcells : ∀ i, ∀ e ∈ chains i, h'.next e = h.next e ∧ h'.prev e = h.prev e ∧
      h'.bin e = h.bin e := by
    intro i e he
    obtain ⟨c, hc, rfl, hf⟩ := hl.chained he
    have hout := (houtside c (hfree c hc hf)).2
    have hcs := (hl.sized c hc).2
    refine ⟨load_congr fun x _ _ => hmem x ?_, load_congr fun x _ _ => hmem x ?_,
      load_congr fun x _ _ => hmem x ?_⟩ <;> omega
  refine ⟨by rw [hheap]; exact hl.below, ?_, ?_, ?_, ?_, hl.nodup, ?_, ?_⟩
  · rw [hheap, List.append_assoc]
    exact tiles_append.2 ⟨p, hpre, tiles_append.2 ⟨q, hmid', hpost⟩⟩
  · intro c hc
    rcases hold c hc with hc | hc
    · exact hl.sized c (houtside c hc).1
    · exact ⟨(hnew c hc).2.1, (hnew c hc).2.2.1⟩
  · intro c hc
    rcases hold c hc with hc | hc
    · obtain ⟨hcm, hout⟩ := houtside c hc
      have hcs := (hl.sized c hcm).2
      have h1 : h'.get_size c.addr = h.get_size c.addr :=
        load_congr fun x _ _ => hmem x (by omega)
      have h2 : h'.word (c.addr + c.size) = h.word (c.addr + c.size) :=
        load_congr fun x _ _ => hmem x (by omega)
      rw [h1, h2]
      exact hl.tagged c hcm
    · obtain ⟨hf, -, -, h1, h2⟩ := hnew c hc
      exact ⟨h1, by rw [h2, hf]; rfl⟩
  · intro i
    rw [hlists]
    exact (hl.linked i).congr (fun e he => (hcells i e he).1) fun e he => (hcells i e he).2.1
  · intro i e he
    obtain ⟨hbin, c, hc, hce, hf, hcb⟩ := hl.binned i e he
    refine ⟨by rw [(hcells i e he).2.2, hbin], c, ?_, hce, hf, hcb⟩
    rcases hfree c hc hf with hc | hc <;> simp [hc]
  · intro c hc hf
    rcases hold c hc with hc | hc
    · exact hl.covered c (houtside c hc).1 hf
    · exact absurd hf (by rw [(hnew c hc).1]; exact Bool.false_ne_true)

end

end DobieStation.JitHeap.Layout
