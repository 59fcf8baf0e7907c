import DobieStation.JitHeap.Allocator
import Mathlib.Algebra.GroupWithZero.Nat

/-! # The heap over runs of `jit_malloc` and `jit_free`

The state of a run is the heap and the objects handed out, each with the size asked for. Between the
calls whoever has an object writes to it. `Sound` is what holds of the heap in all runs whose sizes
are below 2^64 - 15: blocks that tile it, free lists, and the objects in use. A larger size wraps to
0 when it is rounded up, and the object is too small for it. -/

namespace DobieStation.JitHeap.Safety

open DobieStation.Lib.Memory DobieStation.Lib.LinkedList DobieStation.Lib.Reach
open DobieStation.JitHeap.Model DobieStation.JitHeap.Model.EEJitHeap
open DobieStation.JitHeap.Layout DobieStation.JitHeap.Allocator

/-! ### The two calls -/

section
variable {h : EEJitHeap} {pre post blocks : List Block} {chains : ℕ → List ℕ} {b : Block}

theorem free_within_eq {h₁ h₂ h₃ : EEJitHeap} {fuel ptr size : ℕ} (hne : ptr ≠ 0)
    (hsize : h.get_size ptr = size) (husage : size ≤ h.heap_usage)
    (hput : { h with heap_usage := h.heap_usage - size }.add_freed_memory_to_bin ptr = some h₁)
    (hfwd : whileMerge (merge_fwd · ptr) fuel h₁ = some h₂)
    (hbwd : whileMerge (merge_bwd · ptr) fuel h₂ = some h₃) :
    h.free_within fuel ptr = some h₃ := by
  unfold free_within
  rw [hsize, check_pos hne, check_pos husage]
  simp only [Option.bind_eq_bind, Option.bind_some, hput, hfwd, hbwd]

/-- **An object is freed.** -/
theorem jit_free_laid (hl : Laid h (pre ++ b :: post) chains) (hb : b.free = false)
    (husage : b.size ≤ h.heap_usage) :
    ∃ h' blocks' chains', h.jit_free b.addr = some h' ∧ Laid h' blocks' chains' ∧
      used blocks' = used pre ++ used post ∧ h'.heap = h.heap ∧
      h'.heap_usage = h.heap_usage - b.size ∧
      ∀ c ∈ pre ++ post, c.free = false → ∀ p, c.addr ≤ p → p < c.addr + c.size →
        h'.mem p = h.mem p := by
  have hbm : b ∈ pre ++ b :: post := by simp
  have hsize := (hl.tagged b hbm).1
  have hbound := hl.bounds hbm
  have hl₀ := hl.usage (h.heap_usage - b.size)
  obtain ⟨h₁, hput, hl₁, hframe₁, -⟩ := put_free hl₀ hb
  have hlen := tiles_length hl₁.tiles
  simp only [List.length_append, List.length_cons] at hlen
  have hpos : 2 ≤ EE_JIT_HEAP_SIZE := by decide
  obtain ⟨h₂, s₂, post₂, chains₂, hfwd, hl₂, hused₂, hframe₂⟩ :=
    merge_all_fwd post EE_JIT_HEAP_SIZE hl₁ rfl (by omega)
  obtain ⟨h₃, blocks₃, chains₃, hbwd, hl₃, hused₃, hframe₃⟩ := merge_all_bwd hl₂ rfl hpos
  have hframe := (hframe₁.trans hframe₂ fun _ hd _ => hd).trans hframe₃ fun d hd hf => by
    rcases List.mem_append.mp hd with hd | hd
    · simp [hd]
    · have : d ∈ used post₂ := by
        rw [hused₂]
        exact mem_used.mpr ⟨hd, hf⟩
      simp [(mem_used.mp this).1]
  refine ⟨h₃, blocks₃, chains₃, ?_, hl₃, by rw [hused₃, hused₂], hframe.heap, hframe.usage,
    hframe.payload⟩
  exact free_within_eq (by omega) hsize husage hput hfwd hbwd

/-- **An object is handed out, or none is.** -/
theorem jit_malloc_laid (hl : Laid h blocks chains) (size : ℕ) (hle : size ≤ 2 ^ 64 - 16) :
    h.jit_malloc size = some (0, h) ∨
    ∃ pre b post h' s' rest chains', blocks = pre ++ b :: post ∧ b.free = true ∧
      h.jit_malloc size = some (b.addr, h') ∧
      Laid h' (pre ++ ⟨b.addr, s', false⟩ :: (rest ++ post)) chains' ∧ size ≤ s' ∧
      (∀ c ∈ rest, c.free = true) ∧ h'.heap = h.heap ∧
      h'.heap_usage = h.heap_usage + s' ∧
      ∀ c ∈ pre ++ post, c.free = false → ∀ p, c.addr ≤ p → p < c.addr + c.size →
        h'.mem p = h.mem p := by
  have hround : size ≤ aligned_size size ∧ aligned_size size % JIT_ALLOC_ALIGN = 0 := by
    unfold aligned_size JIT_ALLOC_ALIGN
    omega
  generalize hn : max (get_min_bin_size 0) (aligned_size size) = n
  have h256 : get_min_bin_size 0 = 256 := rfl
  have hmin : 256 ≤ n := by omega
  have hal : n % JIT_ALLOC_ALIGN = 0 := by
    have h16 : JIT_ALLOC_ALIGN = 16 := rfl
    rw [h16] at hround ⊢
    omega
  have hlarge : ¬ n < FreeList_size := by
    unfold FreeList_size
    omega
  unfold jit_malloc
  rw [hn]
  dsimp only
  rw [if_neg hlarge]
  rcases find_memory_laid hl hal hmin with hnone | ⟨pre, b, post, h', s', rest, chains', rfl, hf,
    hfind, hl', hle', hrest, hframe⟩
  · left
    rw [hnone]
    rfl
  · right
    have hbm : (⟨b.addr, s', false⟩ : Block) ∈ pre ++ ⟨b.addr, s', false⟩ :: (rest ++ post) := by
      simp
    have hne : b.addr ≠ 0 := by
      have := (hl.bounds (b := b) (by simp)).1
      omega
    refine ⟨pre, b, post, { h' with heap_usage := h'.heap_usage + s' }, s', rest, chains', rfl, hf,
      ?_, hl'.usage _, by omega, hrest, hframe.heap, ?_, hframe.payload⟩
    · rw [hfind]
      simp only [Option.bind_eq_bind, Option.bind_some]
      rw [if_pos hne, (hl'.tagged _ hbm).1]
      rfl
    · dsimp only
      rw [hframe.usage]

end

/-! ### Runs -/

/-- The heap and the objects handed out: where each is, and the size that was asked for. -/
structure Machine where
  h : EEJitHeap
  live : List (ℕ × ℕ)

/-- A byte written. -/
def poke (h : EEJitHeap) (a : ℕ) (x : BitVec 8) : EEJitHeap :=
  { h with mem := Function.update h.mem a x }

inductive Act where
  | malloc (size : ℕ)
  | free (ptr : ℕ)
  | write (a : ℕ) (x : BitVec 8)

def exec (s : Machine) : Act → Option Machine
  | .malloc size =>
    (s.h.jit_malloc size).map fun r =>
      ⟨r.2, if r.1 = 0 then s.live else (r.1, size) :: s.live⟩
  | .free ptr => (s.h.jit_free ptr).map fun h => ⟨h, s.live.filter fun o => o.1 ≠ ptr⟩
  | .write a x => some ⟨poke s.h a x, s.live⟩

/-- Live pointers are freed, and only the bytes asked for are written. -/
def Legal (s : Machine) : Act → Prop
  | .malloc size => size < 2 ^ 64
  | .free ptr => ∃ o ∈ s.live, o.1 = ptr
  | .write a _ => ∃ o ∈ s.live, o.1 ≤ a ∧ a < o.1 + o.2

def Step (s : Machine) (a : Act) (s' : Machine) : Prop := Legal s a ∧ exec s a = some s'

def Init (s : Machine) : Prop :=
  s.live = [] ∧ ∃ mem heap, heap ≠ 0 ∧ heap + EE_JIT_HEAP_SIZE ≤ 2 ^ 64 ∧
    init_allocator mem heap = some s.h

/-- A size that can be rounded up. -/
def Act.Roundable : Act → Prop
  | .malloc size => size ≤ 2 ^ 64 - 16
  | _ => True

def used_size (l : List Block) : ℕ := ((used l).map Block.size).sum

/-- The heap is laid out, and the blocks in use are the objects that are live. -/
structure Sound (s : Machine) (blocks : List Block) (chains : ℕ → List ℕ) : Prop where
  laid : Laid s.h blocks chains
  distinct : (s.live.map Prod.fst).Nodup
  large : ∀ o ∈ s.live, ∃ b ∈ used blocks, b.addr = o.1 ∧ o.2 ≤ b.size
  owned : ∀ b ∈ used blocks, ∃ o ∈ s.live, o.1 = b.addr
  usage : s.h.heap_usage = used_size blocks

theorem used_size_append (l l' : List Block) : used_size (l ++ l') = used_size l + used_size l' := by
  unfold used_size
  rw [used_append, List.map_append, List.sum_append]

theorem used_size_cons {b : Block} (l : List Block) (hb : b.free = false) :
    used_size (b :: l) = b.size + used_size l := by
  unfold used_size
  rw [used_cons _ hb, List.map_cons, List.sum_cons]

theorem used_size_free {b : Block} (l : List Block) (hb : b.free = true) :
    used_size (b :: l) = used_size l := by
  unfold used_size
  rw [used_cons_free _ hb]

section
variable {s s' : Machine} {blocks : List Block} {chains : ℕ → List ℕ}

/-- What `init_within` leaves. -/
def fresh (mem : Bytes) (heap size : ℕ) : EEJitHeap :=
  (((((⟨mem, heap, fun _ => 0, 0⟩ : EEJitHeap).set_list JIT_ALLOC_BINS (heap + 8)).set_next
    (heap + 8) 0).set_prev (heap + 8) 0).set_bin (heap + 8) JIT_ALLOC_BINS).set_size (heap + 8)
      (size - 16) |>.set_word (heap + 8 + (size - 16)) (size - 16)

theorem heap_size_eq : EE_JIT_HEAP_SIZE = 67108864 := rfl

theorem heap_size_aligned : (EE_JIT_HEAP_SIZE - 16) % JIT_ALLOC_ALIGN = 0 := by
  rw [heap_size_eq]
  decide

theorem init_within_eq (mem : Bytes) {heap size : ℕ} (hal : (size - 16) % JIT_ALLOC_ALIGN = 0)
    (hmin : 16 ≤ size) (hmax : size < 2 ^ 64) :
    init_within mem heap size = some (fresh mem heap size) := by
  have hsize : ((((((⟨mem, heap, fun _ => 0, 0⟩ : EEJitHeap).set_list JIT_ALLOC_BINS
      (heap + 8)).set_next (heap + 8) 0).set_prev (heap + 8) 0).set_bin (heap + 8)
      JIT_ALLOC_BINS).set_size (heap + 8) (size - 16)).get_size (heap + 8) = size - 16 :=
    word_set_word_self _ (by omega)
  have hend : heap + 8 + (size - 16) + 8 = heap + size := by omega
  unfold init_within get_end_ptr
  dsimp only
  rw [hsize]
  simp only [check_pos hal, Option.bind_eq_bind, Option.bind_some, Option.pure_def,
    check_pos hend]
  rfl

theorem init_allocator_eq (mem : Bytes) (heap : ℕ) :
    init_allocator mem heap = some (fresh mem heap EE_JIT_HEAP_SIZE) :=
  init_within_eq mem heap_size_aligned (by rw [heap_size_eq]; decide)
    (by rw [heap_size_eq]; decide)

theorem fresh_laid {mem : Bytes} {heap : ℕ} (hbelow : heap + EE_JIT_HEAP_SIZE ≤ 2 ^ 64) :
    Laid (fresh mem heap EE_JIT_HEAP_SIZE) [⟨heap + 8, EE_JIT_HEAP_SIZE - 16, true⟩]
      (Function.update (fun _ => []) JIT_ALLOC_BINS [heap + 8]) := by
  have h64 := heap_size_eq
  have hbin : pick_bin (EE_JIT_HEAP_SIZE - 16) = JIT_ALLOC_BINS := by
    rw [heap_size_eq]
    decide
  have hsize : (fresh mem heap EE_JIT_HEAP_SIZE).get_size (heap + 8) = EE_JIT_HEAP_SIZE - 16 :=
    (word_set_word _ (by omega)).trans (word_set_word_self _ (by omega))
  have hnext : (fresh mem heap EE_JIT_HEAP_SIZE).next (heap + 8) = 0 := by
    unfold fresh set_size set_prev set_next EEJitHeap.next
    rw [word_set_word _ (by omega), word_set_word _ (by omega), word_set_bin _ (by omega),
      word_set_word _ (by omega), word_set_word_self _ (Nat.two_pow_pos 64)]
  have hprev : (fresh mem heap EE_JIT_HEAP_SIZE).prev (heap + 8) = 0 := by
    unfold fresh set_size set_prev set_next EEJitHeap.prev
    rw [word_set_word _ (by omega), word_set_word _ (by omega), word_set_bin _ (by omega),
      word_set_word_self _ (Nat.two_pow_pos 64)]
  have hbyte : (fresh mem heap EE_JIT_HEAP_SIZE).bin (heap + 8) = JIT_ALLOC_BINS := by
    unfold fresh set_size set_prev set_next
    rw [bin_set_word _ (by omega), bin_set_word _ (by omega), bin_set_bin_self _ (by decide)]
  have hlist : ∀ i, (fresh mem heap EE_JIT_HEAP_SIZE).free_bin_lists i =
      if i = JIT_ALLOC_BINS then heap + 8 else 0 := fun i => Function.update_apply ..
  refine ⟨hbelow, ⟨rfl, ?_⟩, ?_, ?_, ?_, ?_, ?_, ?_⟩
  · change heap + (EE_JIT_HEAP_SIZE - 16) + 16 = heap + EE_JIT_HEAP_SIZE
    omega
  · intro b hb
    rw [List.mem_singleton.mp hb]
    refine ⟨heap_size_aligned, ?_⟩
    dsimp only
    omega
  · intro b hb
    rw [List.mem_singleton.mp hb]
    exact ⟨hsize, word_set_word_self _ (by omega)⟩
  · intro i
    rw [hlist]
    rcases eq_or_ne i JIT_ALLOC_BINS with rfl | hi
    · rw [if_pos rfl, Function.update_self]
      exact ⟨rfl, by omega, hprev, hnext⟩
    · rw [if_neg hi, Function.update_of_ne hi]
      rfl
  · intro i
    rcases eq_or_ne i JIT_ALLOC_BINS with rfl | hi
    · rw [Function.update_self]
      exact List.nodup_singleton _
    · rw [Function.update_of_ne hi]
      exact List.nodup_nil
  · intro i a ha
    rcases eq_or_ne i JIT_ALLOC_BINS with rfl | hi
    · rw [Function.update_self] at ha
      rw [List.mem_singleton.mp ha]
      exact ⟨hbyte, _, List.mem_singleton_self _, rfl, rfl, hbin⟩
    · rw [Function.update_of_ne hi] at ha
      simp at ha
  · intro b hb _
    rw [List.mem_singleton.mp hb]
    dsimp only
    rw [hbin, Function.update_self]
    exact List.mem_singleton_self _

theorem init_sound (hi : Init s) : ∃ blocks chains, Sound s blocks chains := by
  obtain ⟨hlive, mem, heap, -, hbelow, hinit⟩ := hi
  rw [init_allocator_eq, Option.some.injEq] at hinit
  refine ⟨_, _, by rw [← hinit]; exact fresh_laid hbelow, ?_, ?_, ?_, ?_⟩
  · rw [hlive]
    exact List.nodup_nil
  · rw [hlive]
    simp
  · intro b hb
    obtain ⟨hbm, hbf⟩ := mem_used.mp hb
    rw [List.mem_singleton.mp hbm] at hbf
    exact absurd hbf.symm Bool.false_ne_true
  · rw [← hinit]
    rfl

/-- A null pointer is no object. -/
theorem live_ne_zero (hs : Sound s blocks chains) {o : ℕ × ℕ} (ho : o ∈ s.live) : o.1 ≠ 0 := by
  obtain ⟨b, hb, hbo, -⟩ := hs.large o ho
  have := (hs.laid.bounds (mem_used.mp hb).1).1
  omega

theorem malloc_sound (hs : Sound s blocks chains) {size : ℕ} (hfits : size ≤ 2 ^ 64 - 16) :
    ∃ s' blocks' chains', exec s (.malloc size) = some s' ∧ Sound s' blocks' chains' := by
  rcases jit_malloc_laid hs.laid size hfits with hnone | ⟨pre, b, post, h', n, rest, chains', rfl,
    hf, hmalloc, hl', hle, hrest, hheap, husage, -⟩
  · refine ⟨s, blocks, chains, ?_, hs⟩
    rw [exec, hnone]
    rfl
  · have hne : b.addr ≠ 0 := by
      have := (hs.laid.bounds (b := b) (by simp)).1
      omega
    have hold : used (pre ++ b :: post) = used pre ++ used post := by
      rw [used_append, used_cons_free _ hf]
    have hnew : used (pre ++ ⟨b.addr, n, false⟩ :: (rest ++ post)) =
        used pre ++ ⟨b.addr, n, false⟩ :: used post := by
      rw [used_append, used_cons _ rfl, used_append, used_free hrest]
      rfl
    have hmem : ∀ c, c ∈ used (pre ++ ⟨b.addr, n, false⟩ :: (rest ++ post)) ↔
        c = ⟨b.addr, n, false⟩ ∨ c ∈ used (pre ++ b :: post) := by
      intro c
      rw [hnew, hold]
      simp only [List.mem_append, List.mem_cons]
      exact or_left_comm
    refine ⟨⟨h', (b.addr, size) :: s.live⟩, _, chains', ?_, hl', ?_, ?_, ?_, ?_⟩
    · rw [exec, hmalloc, Option.map_some]
      dsimp only
      rw [if_neg hne]
    · rw [List.map_cons]
      refine List.nodup_cons.mpr ⟨fun hdup => ?_, hs.distinct⟩
      obtain ⟨o, ho, hob⟩ := List.mem_map.mp hdup
      obtain ⟨c, hc, hco, -⟩ := hs.large o ho
      have hsame := tiles_inj hs.laid.tiles (mem_used.mp hc).1 (c := b) (by simp) (by
        rw [hco, hob])
      rw [← hsame, (mem_used.mp hc).2] at hf
      exact Bool.false_ne_true hf
    · intro o ho
      rcases List.mem_cons.mp ho with rfl | ho
      · exact ⟨_, (hmem _).mpr (Or.inl rfl), rfl, hle⟩
      · obtain ⟨c, hc, hrest⟩ := hs.large o ho
        exact ⟨c, (hmem c).mpr (Or.inr hc), hrest⟩
    · intro c hc
      rcases (hmem c).mp hc with rfl | hc
      · exact ⟨_, List.mem_cons_self, rfl⟩
      · obtain ⟨o, ho, hoc⟩ := hs.owned c hc
        exact ⟨o, List.mem_cons_of_mem _ ho, hoc⟩
    · have hsum := hs.usage
      dsimp only
      unfold used_size at hsum ⊢
      rw [husage, hsum, hold, hnew]
      simp only [List.map_append, List.map_cons, List.sum_append, List.sum_cons]
      omega

/-- **A byte of an object is written.** -/
theorem poke_laid {h : EEJitHeap} {pre post : List Block} {b : Block} {a : ℕ} {x : BitVec 8}
    (hl : Laid h (pre ++ b :: post) chains) (hb : b.free = false) (h1 : b.addr ≤ a)
    (h2 : a < b.addr + b.size) : Laid (poke h a x) (pre ++ b :: post) chains := by
  have hbm : b ∈ pre ++ b :: post := by simp
  obtain ⟨hsize, hend⟩ := hl.tagged b hbm
  obtain ⟨hal, hmin⟩ := hl.sized b hbm
  rw [hb, if_neg Bool.false_ne_true] at hend
  obtain ⟨p, hpre, hp, -⟩ := tiles_append.mp hl.tiles
  have hone : Tiles p [b] (p + b.size + 16) := ⟨hp, rfl⟩
  have hword : ∀ y, a < y ∨ y + 8 ≤ a → (poke h a x).word y = h.word y :=
    fun y hy => load_update_apart hy
  have hnew : ∀ c ∈ [b], c.free = false ∧ c.size % JIT_ALLOC_ALIGN = 0 ∧ 256 ≤ c.size ∧
      (poke h a x).get_size c.addr = c.size ∧ (poke h a x).word (c.addr + c.size) = 0 := by
    intro c hc
    rw [List.mem_singleton.mp hc]
    refine ⟨hb, hal, hmin, ?_, ?_⟩
    · exact (hword _ (by omega)).trans hsize
    · exact (hword _ (by omega)).trans hend
  have hsame : ∀ c ∈ [b], c.free = false := fun c hc => (hnew c hc).1
  rw [List.append_cons] at hl ⊢
  exact rewrite_used hl hpre hone hone hsame rfl rfl hnew
    fun y hy => Function.update_of_ne (by omega) _ _

theorem free_sound (hs : Sound s blocks chains) {ptr : ℕ} (hlegal : Legal s (.free ptr)) :
    ∃ s' blocks' chains', exec s (.free ptr) = some s' ∧ Sound s' blocks' chains' := by
  obtain ⟨o, ho, rfl⟩ := hlegal
  obtain ⟨b, hb, hba, -⟩ := hs.large o ho
  obtain ⟨hbm, hbf⟩ := mem_used.mp hb
  obtain ⟨pre, post, rfl⟩ := List.append_of_mem hbm
  have husage := hs.usage
  rw [used_size_append, used_size_cons _ hbf] at husage
  obtain ⟨h', blocks', chains', hfree, hl', hused, hheap, husage', -⟩ :=
    jit_free_laid hs.laid hbf (by omega)
  rw [hba] at hfree
  have hothers : ∀ c, c ∈ used blocks' ↔ c ∈ used (pre ++ b :: post) ∧ c.addr ≠ o.1 := by
    intro c
    have hunused : used (pre ++ b :: post) = used pre ++ b :: used post := by
      rw [used_append, used_cons _ hbf]
    rw [hused, hunused]
    constructor
    · intro hc
      refine ⟨?_, ?_⟩
      · rcases List.mem_append.mp hc with hc | hc <;> simp [hc]
      · have hcm : c ∈ pre ∨ c ∈ post := by
          rcases List.mem_append.mp hc with hc | hc
          · exact Or.inl (mem_used.mp hc).1
          · exact Or.inr (mem_used.mp hc).1
        have := (hs.laid.other hcm).2
        omega
    · rintro ⟨hc, hne⟩
      rcases List.mem_append.mp hc with hc | hc
      · exact List.mem_append.mpr (Or.inl hc)
      · rcases List.mem_cons.mp hc with rfl | hc
        · exact absurd hba hne
        · exact List.mem_append.mpr (Or.inr hc)
  refine ⟨⟨h', s.live.filter fun p => p.1 ≠ o.1⟩, blocks', chains', ?_, hl', ?_, ?_, ?_, ?_⟩
  · rw [exec, hfree]
    rfl
  · exact hs.distinct.sublist (List.filter_sublist.map _)
  · intro p hp
    rw [List.mem_filter] at hp
    obtain ⟨c, hc, hcp, hle⟩ := hs.large p hp.1
    refine ⟨c, (hothers c).mpr ⟨hc, ?_⟩, hcp, hle⟩
    rw [hcp]
    simpa using hp.2
  · intro c hc
    obtain ⟨hc, hne⟩ := (hothers c).mp hc
    obtain ⟨p, hp, hpc⟩ := hs.owned c hc
    refine ⟨p, List.mem_filter.mpr ⟨hp, ?_⟩, hpc⟩
    rw [hpc]
    simpa using hne
  · dsimp only
    rw [husage']
    unfold used_size at husage ⊢
    rw [hused, List.map_append, List.sum_append]
    omega

theorem write_sound (hs : Sound s blocks chains) {a : ℕ} {x : BitVec 8}
    (hlegal : Legal s (.write a x)) :
    ∃ s' blocks' chains', exec s (.write a x) = some s' ∧ Sound s' blocks' chains' := by
  obtain ⟨o, ho, h1, h2⟩ := hlegal
  obtain ⟨b, hb, hbo, hle⟩ := hs.large o ho
  obtain ⟨hbm, hbf⟩ := mem_used.mp hb
  obtain ⟨pre, post, rfl⟩ := List.append_of_mem hbm
  have hlaid := poke_laid (x := x) hs.laid hbf (by omega) (by omega : a < b.addr + b.size)
  exact ⟨⟨poke s.h a x, s.live⟩, _, chains, rfl, hlaid, hs.distinct, hs.large, hs.owned,
    hs.usage⟩

/-- **A legal call runs to its end, no assertion fails, and the heap is sound after it.** -/
theorem step_sound (hs : Sound s blocks chains) {a : Act} (hfits : a.Roundable)
    (hlegal : Legal s a) :
    ∃ s' blocks' chains', exec s a = some s' ∧ Sound s' blocks' chains' := by
  cases a with
  | malloc size => exact malloc_sound hs hfits
  | free ptr => exact free_sound hs hlegal
  | write a x => exact write_sound hs hlegal

theorem reaches_sound (h : Reaches Init (Only (fun _ a => a.Roundable) Step) s) :
    ∃ blocks chains, Sound s blocks chains := by
  refine h.invariant (I := fun s => ∃ blocks chains, Sound s blocks chains)
    (fun s hi => init_sound hi) ?_
  rintro s a s' ⟨blocks, chains, hs⟩ ⟨hfits, hlegal, hexec⟩
  obtain ⟨s₁, blocks', chains', hexec', hs'⟩ := step_sound hs hfits hlegal
  rw [hexec', Option.some.injEq] at hexec
  rw [← hexec]
  exact ⟨blocks', chains', hs'⟩

/-! ### The safety of the heap -/

/-- `n` bytes from `a` on and `m` bytes from `b` on have none in common. -/
def Apart (a n b m : ℕ) : Prop := a + n ≤ b ∨ b + m ≤ a

/-- The heap is sound, a free block is in the list of its bin and in no other, and the payload of an
object is apart from all other payloads and from all tags. -/
structure Safe (s : Machine) (blocks : List Block) (chains : ℕ → List ℕ) : Prop where
  sound : Sound s blocks chains
  listed : ∀ b ∈ blocks, b.free = true → ∀ i, b.addr ∈ chains i ↔ i = pick_bin b.size
  large : ∀ o ∈ s.live, o.2 ≤ s.h.get_size o.1
  payloads : ∀ o ∈ s.live, ∀ o' ∈ s.live, o = o' ∨
    Apart o.1 (s.h.get_size o.1) o'.1 (s.h.get_size o'.1)
  tags : ∀ o ∈ s.live, ∀ b ∈ blocks, Apart o.1 (s.h.get_size o.1) (b.addr - 8) 8 ∧
    Apart o.1 (s.h.get_size o.1) (b.addr + b.size) 8

theorem Sound.safe (hs : Sound s blocks chains) : Safe s blocks chains := by
  have hblock : ∀ o ∈ s.live, ∃ b ∈ blocks, b.addr = o.1 ∧ o.2 ≤ b.size ∧
      s.h.get_size o.1 = b.size := by
    intro o ho
    obtain ⟨b, hb, hbo, hle⟩ := hs.large o ho
    have hbm := (mem_used.mp hb).1
    exact ⟨b, hbm, hbo, hle, hbo ▸ (hs.laid.tagged b hbm).1⟩
  refine ⟨hs, ?_, ?_, ?_, ?_⟩
  · intro b hb hf i
    constructor
    · intro hi
      obtain ⟨-, c, hc, hca, -, hci⟩ := hs.laid.binned i _ hi
      rw [← tiles_inj hs.laid.tiles hc hb hca]
      exact hci.symm
    · rintro rfl
      exact hs.laid.covered b hb hf
  · intro o ho
    obtain ⟨b, -, -, hle, hsize⟩ := hblock o ho
    omega
  · intro o ho o' ho'
    obtain ⟨b, hb, hbo, -, hsize⟩ := hblock o ho
    obtain ⟨c, hc, hco, -, hsize'⟩ := hblock o' ho'
    rcases eq_or_ne b.addr c.addr with he | hne
    · left
      refine List.inj_on_of_nodup_map hs.distinct ho ho' ?_
      rw [← hbo, ← hco, he]
    · right
      have := tiles_apart hs.laid.tiles hb hc hne
      unfold Apart
      omega
  · intro o ho c hc
    obtain ⟨b, hb, hbo, -, hsize⟩ := hblock o ho
    have hbc := hs.laid.bounds hc
    unfold Apart
    rcases hs.laid.same_or_apart hb hc with rfl | h
    · omega
    · omega

/-- **The heap is safe in every run that asks for sizes of at most 2^64 - 16**, and its next call runs
to its end. -/
theorem heap_safe (h : Reaches Init (Only (fun _ a => a.Roundable) Step) s) :
    (∃ blocks chains, Safe s blocks chains) ∧
    ∀ a : Act, a.Roundable → Legal s a → ∃ s', exec s a = some s' := by
  obtain ⟨blocks, chains, hs⟩ := reaches_sound h
  refine ⟨⟨blocks, chains, hs.safe⟩, fun a hfits hlegal => ?_⟩
  obtain ⟨s', -, -, hexec, -⟩ := step_sound hs hfits hlegal
  exact ⟨s', hexec⟩

end

/-! ### Two runs -/

/-- A heap at 4096 in memory that held zeros. -/
def atPage : Machine := ⟨fresh (fun _ => 0) 4096 EE_JIT_HEAP_SIZE, []⟩

theorem atPage_init : Init atPage :=
  ⟨rfl, fun _ => 0, 4096, by decide, by rw [heap_size_eq]; decide, init_allocator_eq _ _⟩

instance (a : Act) : Decidable a.Roundable := by
  cases a <;> unfold Act.Roundable <;> infer_instance

instance (s : Machine) (a : Act) : Decidable (Legal s a) := by
  cases a <;> unfold Legal <;> infer_instance

/-- A call that has to be legal and of a size that can be rounded up. -/
def checked (s : Machine) (a : Act) : Option Machine :=
  if a.Roundable ∧ Legal s a then exec s a else none

theorem checked_step {s s' : Machine} {a : Act} (h : checked s a = some s') :
    Only (fun _ a => a.Roundable) Step s a s' := by
  unfold checked at h
  split_ifs at h with hok
  exact ⟨hok.1, hok.2, h⟩

/-- Two objects, the first freed, and a third in its place. -/
theorem heap_safe_reused : ∃ s,
    [.malloc 100, .malloc 300, .free 4104, .malloc 20].foldlM checked atPage = some s ∧
    s.live = [(4104, 20), (4376, 300)] ∧ (∃ blocks chains, Safe s blocks chains) ∧
    ∀ a : Act, a.Roundable → Legal s a → ∃ s', exec s a = some s' := by
  have hrun : ([.malloc 100, .malloc 300, .free 4104, .malloc 20].foldlM checked atPage).map
      Machine.live = some [(4104, 20), (4376, 300)] := by
    decide +kernel
  obtain ⟨s, hs, hlive⟩ := Option.map_eq_some_iff.mp hrun
  have hreach := Reaches.exec _ (Reaches.start atPage_init) hs
  exact ⟨s, hs, hlive, heap_safe (hreach.mono fun _ _ _ => checked_step)⟩

/-- The size 2^64 - 1 wraps when it is rounded up: the object is smaller than what was asked for. -/
theorem huge_size_wraps : ¬ ∀ s, Reaches Init Step s → ∃ blocks chains, Safe s blocks chains := by
  intro hall
  have hexec : (exec atPage (.malloc (2 ^ 64 - 1))).map (fun s => (s.live, s.h.get_size 4104)) =
      some ([(4104, 2 ^ 64 - 1)], 256) := by
    decide +kernel
  obtain ⟨s, hs, hlive⟩ := Option.map_eq_some_iff.mp hexec
  have hsize := (Prod.mk.inj hlive).2
  have hobj := (Prod.mk.inj hlive).1
  obtain ⟨blocks, chains, hsafe⟩ := hall s ((Reaches.start atPage_init).next
    (a := Act.malloc (2 ^ 64 - 1)) ⟨by unfold Legal; omega, hs⟩)
  have hlarge := hsafe.large (4104, 2 ^ 64 - 1) (by rw [hobj]; exact List.mem_singleton_self _)
  rw [hsize] at hlarge
  revert hlarge
  decide

end DobieStation.JitHeap.Safety
