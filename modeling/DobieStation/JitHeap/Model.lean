import DobieStation.Lib.Memory
import DobieStation.Lib.Reach

/-! # The allocator of the EE JIT heap

The translation of `EEJitHeap`'s allocator in `jitcache.cpp`. Memory is bytes, a pointer is an
address and 0 the null pointer; the two tags of an object and the `FreeList` at its start are loads
and stores of that memory. A failed assertion and a loop that does not end are `none`.

Sums of addresses are not reduced modulo 2^64: the heap lies below. What is asked of `jit_malloc` may
be any `size_t`, so `aligned_size` is. -/

namespace DobieStation.JitHeap.Model

open DobieStation.Lib.Memory DobieStation.Lib.Reach

def EE_JIT_HEAP_SIZE : ℕ := 64 * 1024 * 1024

def JIT_ALLOC_ALIGN : ℕ := 16

def JIT_ALLOC_BIN_START : ℕ := 8

def JIT_ALLOC_BINS : ℕ := 8

/-- `sizeof(FreeList)`. -/
def FreeList_size : ℕ := 24

structure EEJitHeap where
  mem : Bytes
  heap : ℕ
  free_bin_lists : ℕ → ℕ
  heap_usage : ℕ

def check (p : Prop) [Decidable p] : Option Unit := if p then some () else none

def aligned_size (size : ℕ) : ℕ :=
  (size + JIT_ALLOC_ALIGN - 1) % 2 ^ 64 / JIT_ALLOC_ALIGN * JIT_ALLOC_ALIGN

/-! `bin` is below `JIT_ALLOC_BINS` wherever these two are called. -/

def get_min_bin_size (bin : ℕ) : ℕ := 2 ^ (JIT_ALLOC_BIN_START + bin)

def get_max_bin_size (bin : ℕ) : ℕ := 2 ^ (JIT_ALLOC_BIN_START + bin + 1)

namespace EEJitHeap

variable (h : EEJitHeap)

def word (a : ℕ) : ℕ := load 8 h.mem a

def set_word (a v : ℕ) : EEJitHeap := { h with mem := store 8 h.mem a v }

/-! ### `FreeList` -/

def next (elt : ℕ) : ℕ := h.word elt

def prev (elt : ℕ) : ℕ := h.word (elt + 8)

def bin (elt : ℕ) : ℕ := load 1 h.mem (elt + 16)

def set_next (elt v : ℕ) : EEJitHeap := h.set_word elt v

def set_prev (elt v : ℕ) : EEJitHeap := h.set_word (elt + 8) v

def set_bin (elt v : ℕ) : EEJitHeap := { h with mem := store 1 h.mem (elt + 16) v }

def set_list (bin v : ℕ) : EEJitHeap :=
  { h with free_bin_lists := Function.update h.free_bin_lists bin v }

/-- `if(elt) elt->prev = v`. -/
def link_prev (elt v : ℕ) : EEJitHeap := if elt ≠ 0 then h.set_prev elt v else h

/-- `if(elt) elt->next = v`. -/
def link_next (elt v : ℕ) : EEJitHeap := if elt ≠ 0 then h.set_next elt v else h

/-- `if(free_bin_lists[bin] == elt) free_bin_lists[bin] = v`. -/
def unlist (bin elt v : ℕ) : EEJitHeap :=
  if h.free_bin_lists bin = elt then h.set_list bin v else h

/-! ### Objects -/

/-- `*get_size_ptr(obj)`. -/
def get_size (obj : ℕ) : ℕ := h.word (obj - 8)

def set_size (obj v : ℕ) : EEJitHeap := h.set_word (obj - 8) v

def get_end_ptr (obj : ℕ) : Option ℕ := do
  let size := h.get_size obj
  check (size % JIT_ALLOC_ALIGN = 0)
  return obj + size

/-- `*get_end_ptr(obj)`. -/
def get_end (obj : ℕ) : Option ℕ := do
  return h.word (← h.get_end_ptr obj)

def set_end (obj v : ℕ) : Option EEJitHeap := do
  return h.set_word (← h.get_end_ptr obj) v

def get_next_object (obj : ℕ) : ℕ := obj + h.get_size obj + 16

/-! ### Bins -/

/-- The bin for objects of a size. -/
def pick_bin (size : ℕ) : ℕ :=
  ((List.range JIT_ALLOC_BINS).find? fun i => size < get_max_bin_size i).getD JIT_ALLOC_BINS

def add_freed_memory_to_bin (mem : ℕ) : Option EEJitHeap := do
  let size := h.get_size mem
  check (size % JIT_ALLOC_ALIGN = 0)
  check ((← h.get_end mem) = 0)
  let bin := pick_bin size
  let list := h.free_bin_lists bin
  check (list = 0 ∨ h.prev list = 0)
  let h := ((h.set_next mem list).set_bin mem bin).set_prev mem 0
  let h := h.link_prev (h.next mem) mem
  (h.set_list bin mem).set_end mem size

def remove_memory_from_bin (mem : ℕ) : Option EEJitHeap := do
  check ((← h.get_end mem) = h.get_size mem)
  let h := h.unlist (h.bin mem) mem (h.next mem)
  let h := h.link_prev (h.next mem) (h.prev mem)
  let h := h.link_next (h.prev mem) (h.next mem)
  let h ← h.set_end mem 0
  check ((← h.get_end mem) = 0)
  return h

/-- The object made two, the second freed; `shrink_size` is what it has behind the two tags. -/
def split_object (obj size old_size : ℕ) : Option EEJitHeap :=
  if size + 16 + get_min_bin_size 0 < old_size then do
    let h ← (h.set_size obj size).set_end obj 0
    let next := h.get_next_object obj
    (h.set_size next (old_size - size - 16)).add_freed_memory_to_bin next
  else some h

def shrink_object (obj size : ℕ) : Option EEJitHeap := do
  check ((← h.get_end obj) = 0)
  check (size ≤ h.get_size obj)
  let h ← h.split_object obj size (h.get_size obj)
  check ((← h.get_end obj) = 0)
  return h

/-! ### Finding memory -/

/-- The smallest chunk of the large bin that is large enough. -/
def find_smallest (size : ℕ) : ℕ → ℕ → ℕ → ℕ → Option ℕ
  | 0, _, _, _ => none
  | fuel + 1, selected_bin, min_so_far, min_mem =>
    if selected_bin = 0 then some min_mem
    else if size ≤ h.get_size selected_bin ∧ h.get_size selected_bin < min_so_far then
      find_smallest size fuel (h.next selected_bin) (h.get_size selected_bin) selected_bin
    else find_smallest size fuel (h.next selected_bin) min_so_far min_mem

/-- The first list with a chunk, of those whose chunks are all large enough. -/
def select_bin (size : ℕ) : ℕ :=
  let bin :=
    ((List.range JIT_ALLOC_BINS).find? fun i => size ≤ get_min_bin_size i).getD JIT_ALLOC_BINS
  match (List.range JIT_ALLOC_BINS).find? fun i => bin ≤ i ∧ h.free_bin_lists i ≠ 0 with
  | some i => h.free_bin_lists i
  | none => 0

def take (mem size : ℕ) : Option (ℕ × EEJitHeap) := do
  let h ← h.remove_memory_from_bin mem
  let h ← h.shrink_object mem size
  return (mem, h)

def find_memory (size : ℕ) : Option (ℕ × EEJitHeap) := do
  let selected_bin := h.select_bin size
  if selected_bin ≠ 0 then h.take selected_bin size
  else
    let min_mem ← h.find_smallest size EE_JIT_HEAP_SIZE (h.free_bin_lists JIT_ALLOC_BINS)
      (2 ^ 64 - 1) 0
    if min_mem ≠ 0 then h.take min_mem size else return (0, h)

/-! ### Merging -/

/-- The object at `mem` and the free one at `next`, which follows it, become one free object. -/
def merge (mem next : ℕ) (first second : ℕ) : Option EEJitHeap := do
  let combined_size := h.get_size mem + h.get_size next + 16
  let h ← h.remove_memory_from_bin first
  let h ← h.remove_memory_from_bin second
  let h ← (h.set_size mem combined_size).set_end mem 0
  h.add_freed_memory_to_bin mem

def merge_fwd (mem : ℕ) : Option (Bool × EEJitHeap) := do
  let next := h.get_next_object mem
  if h.heap + EE_JIT_HEAP_SIZE ≤ next then return (false, h)
  else if (← h.get_end next) ≠ 0 then
    check ((← h.get_end next) = h.get_size next)
    return (true, ← h.merge mem next mem next)
  else return (false, h)

def merge_bwd (mem : ℕ) : Option (Bool × EEJitHeap) := do
  let a_end := mem - 8 - 8
  if a_end ≤ h.heap then return (false, h)
  else if h.word a_end ≠ 0 then
    let a_start := a_end - h.word a_end
    check (h.get_size a_start = h.word a_end)
    return (true, ← h.merge a_start mem mem a_start)
  else return (false, h)

end EEJitHeap

/-- `while(merge(ptr)) { }`. -/
def whileMerge (merge : EEJitHeap → Option (Bool × EEJitHeap)) :
    ℕ → EEJitHeap → Option EEJitHeap
  | 0, _ => none
  | fuel + 1, h =>
    match merge h with
    | none => none
    | some (true, h) => whileMerge merge fuel h
    | some (false, h) => some h

/-! ### The interface -/

namespace EEJitHeap

/-- The allocator of a heap of `size` bytes at `heap`, where the memory held `mem`. -/
def init_within (mem : Bytes) (heap size : ℕ) : Option EEJitHeap := do
  let obj := heap + 8
  let h : EEJitHeap := ⟨mem, heap, fun _ => 0, 0⟩
  let h := h.set_list JIT_ALLOC_BINS obj
  let h := ((h.set_next obj 0).set_prev obj 0).set_bin obj JIT_ALLOC_BINS
  let h := h.set_size obj (size - 16)
  let end_ptr ← h.get_end_ptr obj
  check (end_ptr + 8 = heap + size)
  return h.set_word end_ptr (size - 16)

def init_allocator (mem : Bytes) (heap : ℕ) : Option EEJitHeap :=
  init_within mem heap EE_JIT_HEAP_SIZE

variable (h : EEJitHeap)

/-- The loops of `jit_free` go on until nothing is left to merge; `fuel` bounds them. The size is
read before `ptr` is compared to the null pointer, which has none. -/
def free_within (fuel ptr : ℕ) : Option EEJitHeap := do
  check (ptr ≠ 0)
  check (h.get_size ptr ≤ h.heap_usage)
  let h := { h with heap_usage := h.heap_usage - h.get_size ptr }
  let h ← h.add_freed_memory_to_bin ptr
  let h ← whileMerge (merge_fwd · ptr) fuel h
  whileMerge (merge_bwd · ptr) fuel h

def jit_free (ptr : ℕ) : Option EEJitHeap := h.free_within EE_JIT_HEAP_SIZE ptr

def jit_malloc (size : ℕ) : Option (ℕ × EEJitHeap) := do
  let size := max (get_min_bin_size 0) (aligned_size size)
  let size := if size < FreeList_size then FreeList_size else size
  let (mem, h) ← h.find_memory size
  if mem ≠ 0 then return (mem, { h with heap_usage := h.heap_usage + h.get_size mem })
  else return (mem, h)

end EEJitHeap

end DobieStation.JitHeap.Model
