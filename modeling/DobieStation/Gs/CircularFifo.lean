import DobieStation.Gs.Rendezvous
import DobieStation.Lib.Reach
import DobieStation.Lib.ReleaseAcquire
import Mathlib.Data.Finset.Insert
import Mathlib.Data.Nat.ModEq

/-! # The queue between the two threads

`CircularFifo`: a ring buffer of `Size + 1` elements with one thread that pushes and one that pops. The
two indices are atomic, the array is not. The steps of the threads are taken in any order, and a load
of the other thread's index may give an older one. -/

namespace DobieStation.Gs.CircularFifo

open DobieStation.Lib.Reach DobieStation.Lib.ReleaseAcquire
open DobieStation.Gs.Rendezvous (GSCommand System messageCapacity)

inductive Side where
  | producer | consumer
  deriving DecidableEq, Repr

instance : Fintype Side := ⟨{.producer, .consumer}, fun s => by cases s <;> decide⟩

inductive Index where
  | tail | head
  deriving DecidableEq, Repr

/-- The index that a side stores. -/
def Side.own : Side → Index
  | .producer => .tail
  | .consumer => .head

/-- Where `push` is. -/
inductive PushPC (E : Type*) where
  | idle
  | loaded (item : E) (current_tail : ℕ)
  | free (item : E) (current_tail : ℕ)
  | stored (item : E) (current_tail : ℕ)
  /-- `FIFO FULL!` -/
  | died

/-- Where `pop` is. -/
inductive PopPC (E : Type*) where
  | idle
  | loaded (current_head : ℕ)
  | filled (current_head : ℕ)
  | taken (item : E) (current_head : ℕ)

structure Fifo (E : Type*) where
  memory : Memory Side Index ℕ ℕ E
  push : PushPC E
  pop : PopPC E
  /-- The items of the pushes that have returned. -/
  pushed : List E
  /-- The items of the pops that have returned. -/
  popped : List E

inductive Act (E : Type*) where
  | push (item : E) (i : ℕ)
  | check (i : ℕ)
  | write
  | publish
  | pop (i : ℕ)
  | look (i : ℕ)
  | read
  | advance
  | was_empty (i j : ℕ)

variable {E : Type*} (Size : ℕ)

def Capacity : ℕ := Size + 1

def increment (idx : ℕ) : ℕ := (idx + 1) % Capacity Size

variable (s : Fifo E)

/-- `_tail.load(std::memory_order_relaxed)`. -/
def begin_push (item : E) (i : ℕ) : Option (Fifo E) :=
  match s.push with
  | .idle => do
    let (current_tail, memory) ← s.memory.relaxed_load .producer .tail i
    some { s with memory, push := .loaded item current_tail }
  | _ => none

/-- The next tail against `_head.load(std::memory_order_acquire)`. -/
def check (i : ℕ) : Option (Fifo E) :=
  match s.push with
  | .loaded item current_tail => do
    let (head, memory) ← s.memory.acquire_load .producer .head i
    some { s with
      memory
      push := if increment Size current_tail ≠ head then .free item current_tail else .died }
  | _ => none

/-- `_array[current_tail] = item`. -/
def write : Option (Fifo E) :=
  match s.push with
  | .free item current_tail => do
    let memory ← s.memory.plain_write .producer current_tail item
    some { s with memory, push := .stored item current_tail }
  | _ => none

/-- `_tail.store(next_tail, std::memory_order_release)`. -/
def publish : Option (Fifo E) :=
  match s.push with
  | .stored item current_tail =>
    some { s with
      memory := s.memory.release_store .producer .tail (increment Size current_tail)
      push := .idle
      pushed := s.pushed ++ [item] }
  | _ => none

/-- `_head.load(std::memory_order_relaxed)`. -/
def begin_pop (i : ℕ) : Option (Fifo E) :=
  match s.pop with
  | .idle => do
    let (current_head, memory) ← s.memory.relaxed_load .consumer .head i
    some { s with memory, pop := .loaded current_head }
  | _ => none

/-- The head against `_tail.load(std::memory_order_acquire)`; `pop` gives `false` if they agree. -/
def look (i : ℕ) : Option (Fifo E) :=
  match s.pop with
  | .loaded current_head => do
    let (tail, memory) ← s.memory.acquire_load .consumer .tail i
    some { s with memory, pop := if current_head = tail then .idle else .filled current_head }
  | _ => none

/-- `item = _array[current_head]`. -/
def read : Option (Fifo E) :=
  match s.pop with
  | .filled current_head => do
    let (item, memory) ← s.memory.plain_read .consumer current_head
    some { s with memory, pop := .taken item current_head }
  | _ => none

/-- `_head.store(increment(current_head), std::memory_order_release)`. -/
def advance : Option (Fifo E) :=
  match s.pop with
  | .taken item current_head =>
    some { s with
      memory := s.memory.release_store .consumer .head (increment Size current_head)
      pop := .idle
      popped := s.popped ++ [item] }
  | _ => none

/-- As the popping side calls it. -/
def was_empty (i j : ℕ) : Option (Bool × Fifo E) :=
  match s.pop with
  | .idle => do
    let (head, memory) ← s.memory.acquire_load .consumer .head i
    let (tail, memory) ← memory.acquire_load .consumer .tail j
    some (head = tail, { s with memory })
  | _ => none

def next : Act E → Option (Fifo E)
  | .push item i => begin_push s item i
  | .check i => check Size s i
  | .write => write s
  | .publish => publish Size s
  | .pop i => begin_pop s i
  | .look i => look s i
  | .read => read s
  | .advance => advance Size s
  | .was_empty i j => (was_empty s i j).map Prod.snd

def Step (s : Fifo E) (a : Act E) (s' : Fifo E) : Prop := next Size s a = some s'

/-- The constructor has been run, and both threads know it. -/
def Constructed (s : Fifo E) : Prop :=
  ∃ array, s = ⟨⟨fun _ => [⟨0, ⟨fun _ => 0, fun _ => 0⟩⟩],
    fun t => ⟨Function.update (fun _ => 0) t 1, fun _ => 0⟩, array, fun _ => (.producer, 0),
    fun _ _ => 0⟩, .idle, .idle, [], []⟩

/-! ### The invariant -/

/-- An item that is in the array already. -/
def PushPC.item : PushPC E → List E
  | .stored item _ => [item]
  | _ => []

/-- An item that has been read already. -/
def PopPC.item : PopPC E → List E
  | .taken item _ => [item]
  | _ => []

/-- Where the producer is with `n` pushes behind it, if it has seen `h` pops. -/
def PushPC.At (n h : ℕ) : PushPC E → Prop
  | .loaded _ t => t = n % Capacity Size
  | .free _ t | .stored _ t => t = n % Capacity Size ∧ n < h + Size
  | _ => True

/-- Where the consumer is with `n` pops behind it, if it has seen `t` pushes. -/
def PopPC.At (n t : ℕ) : PopPC E → Prop
  | .loaded h => h = n % Capacity Size
  | .filled h | .taken _ h => h = n % Capacity Size ∧ n < t
  | _ => True

def Fifo.seen_head : ℕ := (s.memory.view .producer).seen .head

def Fifo.seen_tail : ℕ := (s.memory.view .consumer).seen .tail

/-- The indices after `n` operations. -/
def indices (n : ℕ) : List ℕ := (List.range (n + 1)).map (· % Capacity Size)

structure Inv : Prop where
  owned : s.memory.Owned Side.own
  tails : s.memory.values .tail = indices Size s.pushed.length
  heads : s.memory.values .head = indices Size s.popped.length
  order : s.popped ++ s.pop.item <+: s.pushed
  room : s.pushed.length ≤ s.seen_head + Size
  ahead : s.popped.length ≤ s.seen_tail
  push_at : s.push.At Size s.pushed.length s.seen_head
  pop_at : s.pop.At Size s.popped.length s.seen_tail
  cells : ∀ k item, s.popped.length ≤ k → (s.pushed ++ s.push.item)[k]? = some item →
    s.memory.cell (k % Capacity Size) = item ∧
      s.memory.writer (k % Capacity Size) = (.producer, k + 1)
  writers : ∀ j, (s.memory.writer j).1 = .producer ∧
    (s.memory.writer j).2 ≤ s.pushed.length + 1
  readers : ∀ j, s.memory.reads j .producer = 0 ∧ ∀ r, s.memory.reads j .consumer = r + 1 →
    r % Capacity Size = j ∧ r < (s.popped ++ s.pop.item).length

section
variable {Size} {s s' : Fifo E} {m : Memory Side Index ℕ ℕ E} {i j : ℕ}

theorem own_injective : Side.own.Injective := by
  intro a b h
  cases a <;> cases b <;> first | rfl | cases h

theorem capacity_pos : 0 < Capacity Size := Nat.succ_pos _

@[simp] theorem length_indices (n : ℕ) : (indices Size n).length = n + 1 := by
  unfold indices
  rw [List.length_map, List.length_range]

theorem indices_succ (n : ℕ) :
    indices Size (n + 1) = indices Size n ++ [(n + 1) % Capacity Size] := by
  unfold indices
  rw [List.range_succ, List.map_append, List.map_singleton]

theorem indices_eq_some {n v : ℕ} (h : (indices Size n)[i]? = some v) :
    i ≤ n ∧ v = i % Capacity Size := by
  unfold indices at h
  rw [List.getElem?_map, Option.map_eq_some_iff] at h
  obtain ⟨k, hk, rfl⟩ := h
  obtain ⟨hi, hk⟩ := List.getElem?_eq_some_iff.mp hk
  rw [List.length_range] at hi
  rw [List.getElem_range] at hk
  exact ⟨Nat.le_of_lt_succ hi, by rw [hk]⟩

theorem increment_mod (n : ℕ) :
    increment Size (n % Capacity Size) = (n + 1) % Capacity Size := by
  unfold increment
  rw [Nat.mod_add_mod]

/-- Operations less than a round apart use different elements. -/
theorem slot_ne {k n : ℕ} (h1 : k < n) (h2 : n < k + Capacity Size) :
    k % Capacity Size ≠ n % Capacity Size := by
  intro h
  have hdvd := (Nat.modEq_iff_dvd' h1.le).mp h
  have := Nat.le_of_dvd (by omega) hdvd
  omega

/-- Operations on one element are a round apart. -/
theorem slot_eq {k n : ℕ} (h1 : k < n) (h : k % Capacity Size = n % Capacity Size) :
    k + Capacity Size ≤ n := by
  by_contra hlt
  exact slot_ne h1 (by omega) h

/-- What a side has seen of the other has happened. -/
theorem Inv.seen_head_le (h : Inv Size s) : s.seen_head ≤ s.popped.length := by
  have hlt := (h.owned.views .producer .consumer).2.1
  have hlen := length_values (m := s.memory) Index.head
  rw [h.heads, length_indices] at hlen
  change _ < (s.memory.history .head).length at hlt
  exact Nat.le_of_lt_succ (hlt.trans_eq hlen.symm)

theorem Inv.seen_tail_le (h : Inv Size s) : s.seen_tail ≤ s.pushed.length := by
  have hlt := (h.owned.views .consumer .producer).2.1
  have hlen := length_values (m := s.memory) Index.tail
  rw [h.tails, length_indices] at hlen
  change _ < (s.memory.history .tail).length at hlt
  exact Nat.le_of_lt_succ (hlt.trans_eq hlen.symm)

/-- A side's own index. -/
theorem Inv.own_tail (h : Inv Size s) :
    (s.memory.view .producer).seen .tail = s.pushed.length := by
  have hlast := h.owned.last .producer
  have hlen := length_values (m := s.memory) Index.tail
  rw [h.tails, length_indices] at hlen
  exact Nat.succ.inj (hlast.trans hlen.symm)

theorem Inv.own_head (h : Inv Size s) :
    (s.memory.view .consumer).seen .head = s.popped.length := by
  have hlast := h.owned.last .consumer
  have hlen := length_values (m := s.memory) Index.head
  rw [h.heads, length_indices] at hlen
  exact Nat.succ.inj (hlast.trans hlen.symm)

/-- A later view of the other side. -/
theorem Inv.with_memory (h : Inv Size s) (hm : m.Owned Side.own)
    (hv : ∀ a, m.values a = s.memory.values a) (hc : m.cell = s.memory.cell)
    (hw : m.writer = s.memory.writer) (hr : m.reads = s.memory.reads)
    (hhead : s.seen_head ≤ (m.view .producer).seen .head)
    (htail : s.seen_tail ≤ (m.view .consumer).seen .tail) : Inv Size { s with memory := m } where
  owned := hm
  tails := (hv _).trans h.tails
  heads := (hv _).trans h.heads
  order := h.order
  room := h.room.trans (Nat.add_le_add_right hhead _)
  ahead := h.ahead.trans htail
  push_at := by
    have hat := h.push_at
    unfold PushPC.At at hat ⊢
    dsimp only
    cases hp : s.push <;> rw [hp] at hat
    case free => exact ⟨hat.1, hat.2.trans_le (Nat.add_le_add_right hhead _)⟩
    case stored => exact ⟨hat.1, hat.2.trans_le (Nat.add_le_add_right hhead _)⟩
    all_goals exact hat
  pop_at := by
    have hat := h.pop_at
    unfold PopPC.At at hat ⊢
    dsimp only
    cases hp : s.pop <;> rw [hp] at hat
    case filled => exact ⟨hat.1, hat.2.trans_le htail⟩
    case taken => exact ⟨hat.1, hat.2.trans_le htail⟩
    all_goals exact hat
  cells := by
    dsimp only
    rw [hc, hw]
    exact h.cells
  writers := by
    dsimp only
    rw [hw]
    exact h.writers
  readers := by
    dsimp only
    rw [hr]
    exact h.readers

theorem Acquired.values_eq {m' : Memory Side Index ℕ ℕ E} {u t : Side}
    (h : Acquired Side.own m m' u t i) (a : Index) : m'.values a = m.values a := by
  unfold Memory.values
  rw [h.history]

/-- **The producer loads the head.** -/
theorem Inv.load_head (h : Inv Size s) {v : ℕ}
    (hload : s.memory.acquire_load .producer .head i = some (v, m)) :
    Inv Size { s with memory := m } ∧ s.seen_head ≤ i ∧ i ≤ s.popped.length ∧
      v = i % Capacity Size ∧ (m.view .producer).seen .head = i := by
  obtain ⟨hm, ha, hv⟩ := h.owned.acquire (t := .consumer) own_injective hload
  obtain ⟨hi, hv⟩ := indices_eq_some (h.heads ▸ hv)
  have hfresh : s.seen_head ≤ i := ha.fresh
  refine ⟨h.with_memory hm (Acquired.values_eq ha) ha.cell ha.writer ha.reads ?_ ?_, hfresh, hi, hv,
    ha.seen⟩
  · exact hfresh.trans_eq ha.seen.symm
  · rw [ha.others .consumer (by decide)]
    exact Nat.le_refl _

/-- **The consumer loads the tail.** -/
theorem Inv.load_tail (h : Inv Size s) {v : ℕ}
    (hload : s.memory.acquire_load .consumer .tail i = some (v, m)) :
    Inv Size { s with memory := m } ∧ s.seen_tail ≤ i ∧ i ≤ s.pushed.length ∧
      v = i % Capacity Size ∧ (m.view .consumer).seen .tail = i := by
  obtain ⟨hm, ha, hv⟩ := h.owned.acquire (t := .producer) own_injective hload
  obtain ⟨hi, hv⟩ := indices_eq_some (h.tails ▸ hv)
  have hfresh : s.seen_tail ≤ i := ha.fresh
  refine ⟨h.with_memory hm (Acquired.values_eq ha) ha.cell ha.writer ha.reads ?_ ?_, hfresh, hi, hv,
    ha.seen⟩
  · rw [ha.others .producer (by decide)]
    exact Nat.le_refl _
  · exact hfresh.trans_eq ha.seen.symm

/-! ### Steps of the producer -/

theorem begin_push_inv (h : Inv Size s) {item : E} (hs : begin_push s item i = some s') :
    Inv Size s' := by
  unfold begin_push at hs
  split at hs
  · next hp =>
    obtain ⟨⟨v, m⟩, hload, hs⟩ := Option.bind_eq_some_iff.mp hs
    obtain ⟨rfl, hi, hv⟩ := h.owned.own_load (t := .producer) hload
    obtain ⟨-, hv⟩ := indices_eq_some (h.tails ▸ hv)
    have hown := h.own_tail
    have hlen : i = s.pushed.length := hi.trans hown
    cases hs
    have hcells := h.cells
    rw [hp] at hcells
    exact { h with push_at := by rw [hv, hlen]; rfl, cells := hcells }
  · cases hs

theorem check_inv (h : Inv Size s) (hs : check Size s i = some s') : Inv Size s' := by
  unfold check at hs
  split at hs
  · next item t hp =>
    obtain ⟨⟨v, m⟩, hload, hs⟩ := Option.bind_eq_some_iff.mp hs
    obtain ⟨hinv, hle, hi, hv, hseen⟩ := h.load_head hload
    have hat := h.push_at
    rw [hp] at hat
    have hat : t = s.pushed.length % Capacity Size := hat
    have hcells := hinv.cells
    dsimp only at hcells hs
    rw [hp] at hcells
    split_ifs at hs with hfull
    · cases hs
      refine { hinv with push_at := ⟨hat, ?_⟩, cells := hcells }
      have hroom := h.room
      change s.pushed.length < (m.view .producer).seen .head + Size
      rw [hseen]
      refine Nat.lt_of_le_of_ne (by omega) fun heq => hfull ?_
      rw [hat, increment_mod, hv, heq]
      exact Nat.add_mod_right i (Capacity Size)
    · cases hs
      exact { hinv with push_at := trivial, cells := hcells }
  · cases hs

/-- The number of the epoch that a side is in. -/
theorem Inv.producer_epoch (h : Inv Size s) :
    (s.memory.view .producer).clock .producer = s.pushed.length + 1 := by
  rw [h.owned.epoch .producer, ← h.owned.last .producer]
  exact congrArg (· + 1) h.own_tail

theorem Inv.consumer_epoch (h : Inv Size s) :
    (s.memory.view .consumer).clock .consumer = s.popped.length + 1 := by
  rw [h.owned.epoch .consumer, ← h.owned.last .consumer]
  exact congrArg (· + 1) h.own_head

/-- **The element that is written is free**: the last access to it is known. -/
theorem Inv.write_ready (h : Inv Size s) {item : E} {t : ℕ} (hp : s.push = .free item t) :
    ∃ m, s.memory.plain_write .producer t item = some m := by
  have hat := h.push_at
  rw [hp] at hat
  obtain ⟨rfl, hroom⟩ := hat
  obtain ⟨hside, hwriter⟩ := h.writers (s.pushed.length % Capacity Size)
  obtain ⟨hzero, hreader⟩ := h.readers (s.pushed.length % Capacity Size)
  refine ⟨_, if_pos ⟨?_, fun u => ?_⟩⟩
  · unfold Memory.written
    rw [hside, h.producer_epoch]
    exact hwriter
  · cases u with
    | producer => exact hzero.trans_le (Nat.zero_le _)
    | consumer =>
      have hknown : s.seen_head ≤ (s.memory.view .producer).clock .consumer :=
        (h.owned.views .producer .consumer).1
      rcases hr : s.memory.reads (s.pushed.length % Capacity Size) .consumer with _ | r
      · exact Nat.zero_le _
      · obtain ⟨hmod, hlt⟩ := hreader r hr
        have hround := slot_eq (hlt.trans_le h.order.length_le) hmod
        unfold Capacity at hround
        omega

theorem write_inv (h : Inv Size s) (hs : write s = some s') : Inv Size s' := by
  unfold write at hs
  split at hs
  · next item t hp =>
    obtain ⟨m, hwrite, hs⟩ := Option.bind_eq_some_iff.mp hs
    have hat := h.push_at
    rw [hp] at hat
    obtain ⟨rfl, hroom⟩ := hat
    have hseen := h.seen_head_le
    have hcells := h.cells
    rw [hp] at hcells
    unfold Memory.plain_write at hwrite
    split_ifs at hwrite
    cases hwrite
    cases hs
    refine { h with
      owned := h.owned.congr rfl rfl
      push_at := ⟨rfl, hroom⟩
      cells := ?_
      writers := ?_ }
    · intro k x hk hx
      have hk : s.popped.length ≤ k := hk
      dsimp only [PushPC.item] at hx ⊢
      rcases Nat.lt_trichotomy k s.pushed.length with hlt | rfl | hgt
      · have hne : k % Capacity Size ≠ s.pushed.length % Capacity Size :=
          slot_ne hlt (by unfold Capacity; omega)
        rw [Function.update_of_ne hne, Function.update_of_ne hne]
        refine hcells k x hk ?_
        rw [List.getElem?_append_left hlt] at hx ⊢
        exact hx
      · rw [List.getElem?_append_right (Nat.le_refl _), Nat.sub_self] at hx
        rw [Function.update_self, Function.update_self, h.producer_epoch]
        exact ⟨Option.some.inj hx, rfl⟩
      · rw [List.getElem?_eq_none (by rw [List.length_append, List.length_singleton]; omega)] at hx
        cases hx
    · intro j
      dsimp only
      rcases eq_or_ne j (s.pushed.length % Capacity Size) with rfl | hne
      · rw [Function.update_self, h.producer_epoch]
        exact ⟨rfl, Nat.le_refl _⟩
      · rw [Function.update_of_ne hne]
        exact h.writers j
  · cases hs

theorem publish_inv (h : Inv Size s) (hs : publish Size s = some s') : Inv Size s' := by
  unfold publish at hs
  split at hs
  · next item t hp =>
    have hr : Released Side.own s.memory
        (s.memory.release_store .producer .tail (increment Size t)) .producer
        (increment Size t) := released own_injective
    have hat := h.push_at
    rw [hp] at hat
    obtain ⟨rfl, hroom⟩ := hat
    have hcells := h.cells
    rw [hp] at hcells
    cases hs
    have hlen : (s.pushed ++ [item]).length = s.pushed.length + 1 := by
      rw [List.length_append, List.length_singleton]
    have hhead := hr.seen .consumer (by decide)
    have htail := congrArg (fun v => v.seen Index.tail) (hr.others .consumer (by decide))
    refine ⟨h.owned.release (t := .producer) own_injective, ?_,
      (hr.other_values .consumer (by decide)).trans h.heads,
      h.order.trans (List.prefix_append _ _), ?_, h.ahead.trans_eq htail.symm, trivial, ?_, ?_,
      fun j => ?_, h.readers⟩
    · dsimp only
      rw [hlen, indices_succ, ← h.tails, ← increment_mod]
      exact hr.values
    · dsimp only
      rw [hlen]
      exact hroom.trans_eq (congrArg (· + Size) hhead.symm)
    · have hpop := h.pop_at
      unfold Fifo.seen_tail at hpop ⊢
      dsimp only at htail ⊢
      rw [htail]
      exact hpop
    · intro k x hk hx
      dsimp only [PushPC.item] at hx
      rw [List.append_nil] at hx
      exact hcells k x hk hx
    · dsimp only
      rw [hlen]
      exact ⟨(h.writers j).1, (h.writers j).2.trans (Nat.le_succ _)⟩
  · cases hs

/-! ### Steps of the consumer -/

theorem begin_pop_inv (h : Inv Size s) (hs : begin_pop s i = some s') : Inv Size s' := by
  unfold begin_pop at hs
  split at hs
  · next hp =>
    obtain ⟨⟨v, m⟩, hload, hs⟩ := Option.bind_eq_some_iff.mp hs
    obtain ⟨rfl, hi, hv⟩ := h.owned.own_load (t := .consumer) hload
    obtain ⟨-, hv⟩ := indices_eq_some (h.heads ▸ hv)
    have hlen : i = s.popped.length := hi.trans h.own_head
    cases hs
    have horder := h.order
    have hreaders := h.readers
    rw [hp] at horder hreaders
    exact { h with order := horder, pop_at := by rw [hv, hlen]; rfl, readers := hreaders }
  · cases hs

theorem look_inv (h : Inv Size s) (hs : look s i = some s') : Inv Size s' := by
  unfold look at hs
  split at hs
  · next hd hp =>
    obtain ⟨⟨v, m⟩, hload, hs⟩ := Option.bind_eq_some_iff.mp hs
    obtain ⟨hinv, hle, hi, hv, hseen⟩ := h.load_tail hload
    have hat := h.pop_at
    rw [hp] at hat
    have hat : hd = s.popped.length % Capacity Size := hat
    have horder := hinv.order
    have hreaders := hinv.readers
    dsimp only at horder hreaders hs
    rw [hp] at horder hreaders
    split_ifs at hs with hempty
    · cases hs
      exact { hinv with order := horder, pop_at := trivial, readers := hreaders }
    · cases hs
      refine { hinv with order := horder, pop_at := ⟨hat, ?_⟩, readers := hreaders }
      have hahead := h.ahead
      change s.popped.length < (m.view .consumer).seen .tail
      rw [hseen]
      refine Nat.lt_of_le_of_ne (hahead.trans hle) fun heq => hempty ?_
      rw [hat, hv, heq]
  · cases hs

/-- The element that is read is the next one. -/
theorem Inv.next_item (h : Inv Size s) {hd : ℕ} (hp : s.pop = .filled hd) :
    ∃ item, s.pushed[s.popped.length]? = some item ∧ s.memory.cell hd = item ∧
      s.memory.writer hd = (.producer, s.popped.length + 1) := by
  have hat := h.pop_at
  rw [hp] at hat
  obtain ⟨rfl, hlt⟩ := hat
  have hlt := hlt.trans_le h.seen_tail_le
  have hitem := List.getElem?_eq_getElem hlt
  refine ⟨_, hitem, h.cells _ _ (Nat.le_refl _) ?_⟩
  rw [List.getElem?_append_left hlt]
  exact hitem

/-- **The element that is read is complete**: its last write is known. -/
theorem Inv.read_ready (h : Inv Size s) {hd : ℕ} (hp : s.pop = .filled hd) :
    ∃ item m, s.memory.plain_read .consumer hd = some (item, m) ∧
      s.pushed[s.popped.length]? = some item := by
  obtain ⟨item, hitem, hcell, hwriter⟩ := h.next_item hp
  have hat := h.pop_at
  rw [hp] at hat
  have hknown : s.seen_tail ≤ (s.memory.view .consumer).clock .producer :=
    (h.owned.views .consumer .producer).1
  have hwritten : s.memory.written .consumer hd := by
    unfold Memory.written
    rw [hwriter]
    exact hat.2.trans_le hknown
  subst hcell
  exact ⟨_, _, if_pos hwritten, hitem⟩

/-- What comes next in a list goes behind a part of it. -/
theorem prefix_next {l l' : List E} {x : E} (h : l <+: l') (hx : l'[l.length]? = some x) :
    l ++ [x] <+: l' := by
  obtain ⟨t, rfl⟩ := h
  rw [List.getElem?_append_right (Nat.le_refl _), Nat.sub_self] at hx
  cases t with
  | nil => cases hx
  | cons y t =>
    cases hx
    exact ⟨t, List.append_assoc _ _ _⟩

theorem read_inv (h : Inv Size s) (hs : read s = some s') : Inv Size s' := by
  unfold read at hs
  split at hs
  · next hd hp =>
    obtain ⟨⟨item, m⟩, hread, hs⟩ := Option.bind_eq_some_iff.mp hs
    obtain ⟨item', m', hready, hitem⟩ := h.read_ready hp
    rw [hready, Option.some.injEq, Prod.mk.injEq] at hread
    obtain ⟨rfl, rfl⟩ := hread
    have hat := h.pop_at
    rw [hp] at hat
    obtain ⟨rfl, hlt⟩ := hat
    have horder := h.order
    have hreaders := h.readers
    rw [hp] at horder hreaders
    rw [show (PopPC.filled (s.popped.length % Capacity Size) : PopPC E).item = [] from rfl,
      List.append_nil] at horder hreaders
    unfold Memory.plain_read at hready
    split_ifs at hready
    cases hready
    cases hs
    refine { h with
      owned := h.owned.congr rfl rfl
      order := prefix_next horder hitem
      pop_at := ⟨rfl, hlt⟩
      readers := ?_ }
    intro j
    dsimp only [PopPC.item]
    rw [List.length_append, List.length_singleton]
    obtain ⟨hzero, hread⟩ := hreaders j
    rcases eq_or_ne j (s.popped.length % Capacity Size) with rfl | hne
    · rw [Function.update_self, Function.update_self, Function.update_of_ne (by decide)]
      refine ⟨hzero, fun r hr => ?_⟩
      rw [h.consumer_epoch] at hr
      have hlen : r = s.popped.length := (Nat.succ.inj hr).symm
      exact ⟨by rw [hlen], by omega⟩
    · rw [Function.update_of_ne hne]
      exact ⟨hzero, fun r hr => ⟨(hread r hr).1, (hread r hr).2.trans (Nat.lt_succ_self _)⟩⟩
  · cases hs

theorem advance_inv (h : Inv Size s) (hs : advance Size s = some s') : Inv Size s' := by
  unfold advance at hs
  split at hs
  · next item hd hp =>
    have hr : Released Side.own s.memory
        (s.memory.release_store .consumer .head (increment Size hd)) .consumer
        (increment Size hd) := released own_injective
    have hat := h.pop_at
    rw [hp] at hat
    obtain ⟨rfl, hlt⟩ := hat
    have horder := h.order
    have hreaders := h.readers
    rw [hp] at horder hreaders
    cases hs
    have hlen : (s.popped ++ [item]).length = s.popped.length + 1 := by
      rw [List.length_append, List.length_singleton]
    have htail := hr.seen .producer (by decide)
    have hhead := congrArg (fun v => v.seen Index.head) (hr.others .producer (by decide))
    refine ⟨h.owned.release (t := .consumer) own_injective,
      (hr.other_values .producer (by decide)).trans h.tails, ?_, ?_,
      h.room.trans_eq (congrArg (· + Size) hhead.symm), ?_, ?_, trivial, fun k x hk hx => ?_,
      h.writers, fun j => ?_⟩
    · dsimp only
      rw [hlen, indices_succ, ← h.heads, ← increment_mod]
      exact hr.values
    · dsimp only [PopPC.item]
      rw [List.append_nil]
      exact horder
    · dsimp only
      rw [hlen]
      exact hlt.trans_eq htail.symm
    · have hpush := h.push_at
      unfold Fifo.seen_head at hpush ⊢
      dsimp only at hhead ⊢
      rw [hhead]
      exact hpush
    · dsimp only at hk
      rw [hlen] at hk
      exact h.cells k x (Nat.le_of_succ_le hk) hx
    · dsimp only [PopPC.item]
      rw [List.append_nil]
      exact hreaders j
  · cases hs

/-- **A look whether there is anything** loads both indices. -/
theorem was_empty_spec (h : Inv Size s) {b : Bool} (hs : was_empty s i j = some (b, s')) :
    Inv Size s' ∧ j ≤ s.pushed.length ∧ s.popped.length ≤ j ∧ (b = true ↔ s.popped.length = j) := by
  unfold was_empty at hs
  split at hs
  · obtain ⟨⟨hd, m⟩, hload, hs⟩ := Option.bind_eq_some_iff.mp hs
    obtain ⟨⟨tl, m'⟩, hload', hs⟩ := Option.bind_eq_some_iff.mp hs
    obtain ⟨hm, ha, hv⟩ := h.owned.acquire (t := .consumer) own_injective hload
    obtain ⟨hi, hv⟩ := indices_eq_some (h.heads ▸ hv)
    have hfresh : (s.memory.view .consumer).seen .head ≤ i := ha.fresh
    rw [h.own_head] at hfresh
    have hlen : i = s.popped.length := Nat.le_antisymm hi hfresh
    have htail : s.seen_tail ≤ (m.view .consumer).seen .tail := ha.kept .producer (by decide)
    have h₁ := h.with_memory hm (Acquired.values_eq ha) ha.cell ha.writer ha.reads
      (by rw [ha.others .producer (by decide)]; exact Nat.le_refl _) htail
    obtain ⟨h₂, hle, hj, hv', -⟩ := h₁.load_tail hload'
    have hpj : s.popped.length ≤ j := h₁.ahead.trans hle
    cases hs
    refine ⟨h₂, hj, hpj, ?_⟩
    dsimp only at hv hv' hj
    rw [decide_eq_true_eq, hv, hv', hlen]
    constructor
    · intro hmod
      rcases Nat.lt_or_eq_of_le hpj with hlt | heq
      · have hround := slot_eq hlt hmod
        have hroom := h.room
        have hseen := h.seen_head_le
        unfold Capacity at hround
        omega
      · exact heq
    · intro heq
      rw [heq]
  · cases hs

/-! ### Runs -/

theorem constructed_inv (h : Constructed s) : Inv Size s := by
  obtain ⟨array, rfl⟩ := h
  refine ⟨⟨fun t => rfl, fun t => ?_, fun t i w hi => ?_, fun t t' => ?_, fun t w hw t' => ?_⟩,
    ?_, ?_, List.prefix_rfl, Nat.zero_le _, Nat.zero_le _, trivial, trivial, fun k x _ hx => ?_,
    fun j => ⟨rfl, Nat.zero_le _⟩, fun j => ⟨rfl, fun r hr => ?_⟩⟩
  · dsimp only
    rw [Function.update_self]
    rfl
  · rw [List.getElem?_singleton] at hi
    split_ifs at hi with h0
    cases hi
    exact ⟨h0.symm, h0.symm⟩
  · refine ⟨Nat.zero_le _, Nat.one_pos, ?_⟩
    dsimp only
    rcases eq_or_ne t' t with rfl | hne
    · rw [Function.update_self]
      exact Nat.le_refl _
    · rw [Function.update_of_ne hne]
      exact Nat.zero_le _
  · rw [List.mem_singleton.mp hw]
    exact ⟨Nat.le_refl _, Nat.one_pos, Nat.zero_le _⟩
  · rfl
  · rfl
  · cases hx
  · cases hr

theorem step_inv (h : Inv Size s) {a : Act E} (hs : Step Size s a s') : Inv Size s' := by
  cases a with
  | push item i => exact begin_push_inv h hs
  | check i => exact check_inv h hs
  | write => exact write_inv h hs
  | publish => exact publish_inv h hs
  | pop i => exact begin_pop_inv h hs
  | look i => exact look_inv h hs
  | read => exact read_inv h hs
  | advance => exact advance_inv h hs
  | was_empty i j =>
    obtain ⟨⟨b, s''⟩, hempty, hs⟩ := Option.map_eq_some_iff.mp hs
    cases hs
    exact (was_empty_spec h hempty).1

theorem reaches_inv (h : Reaches Constructed (Step Size) s) : Inv Size s :=
  h.invariant (fun _ hc => constructed_inv hc) fun _ _ _ hi hs => step_inv hi hs

/-- A push dies if, as far as it has seen, there is no room. -/
theorem check_died (h : Inv Size s) (hs : check Size s i = some s') :
    i ≤ s.popped.length ∧ (s'.push = .died ↔ s.pushed.length = i + Size) := by
  unfold check at hs
  split at hs
  · next item t hp =>
    obtain ⟨⟨v, m⟩, hload, hs⟩ := Option.bind_eq_some_iff.mp hs
    obtain ⟨-, hle, hi, hv, -⟩ := h.load_head hload
    have hat := h.push_at
    rw [hp] at hat
    have hat : t = s.pushed.length % Capacity Size := hat
    have hroom := h.room
    have hpops := (List.prefix_append s.popped s.pop.item).length_le.trans h.order.length_le
    refine ⟨hi, ?_⟩
    dsimp only at hs
    rw [hat, increment_mod, hv] at hs
    constructor
    · intro hdied
      split_ifs at hs with hne
      · cases hs
        cases hdied
      · rw [not_not] at hne
        have hround : i + Capacity Size ≤ s.pushed.length + 1 := slot_eq (by omega) hne.symm
        unfold Capacity at hround
        omega
    · intro hfull
      have hround : (i + Size + 1) % Capacity Size = i % Capacity Size :=
        Nat.add_mod_right i (Capacity Size)
      rw [hfull, if_neg (not_not_intro hround)] at hs
      cases hs
      rfl
  · cases hs

/-- A pop gives nothing if, as far as it has seen, there is nothing. -/
theorem look_idle (h : Inv Size s) (hs : look s i = some s') :
    s.popped.length ≤ i ∧ i ≤ s.pushed.length ∧ (s'.pop = .idle ↔ s.popped.length = i) := by
  unfold look at hs
  split at hs
  · next hd hp =>
    obtain ⟨⟨v, m⟩, hload, hs⟩ := Option.bind_eq_some_iff.mp hs
    obtain ⟨-, hle, hi, hv, -⟩ := h.load_tail hload
    have hat := h.pop_at
    rw [hp] at hat
    have hat : hd = s.popped.length % Capacity Size := hat
    have hpi := h.ahead.trans hle
    have hroom := h.room
    have hseen := h.seen_head_le
    refine ⟨hpi, hi, ?_⟩
    dsimp only at hs
    rw [hat, hv] at hs
    constructor
    · intro hidle
      split_ifs at hs with hmod
      · rcases Nat.lt_or_eq_of_le hpi with hlt | heq
        · have hround := slot_eq hlt hmod
          unfold Capacity at hround
          omega
        · exact heq
      · cases hs
        cases hidle
    · intro heq
      rw [heq, if_pos rfl] at hs
      cases hs
      rfl
  · cases hs

/-- **The queue is safe with one thread on each side**: no access to the array is a race or outside
it, what is popped is what was pushed, in order, and at most `Size` items are between. A push dies
exactly when it has seen `Size` items fewer popped than pushed, and a pop gives nothing exactly when
it has seen no more pushed than popped. -/
theorem race_free (h : Reaches Constructed (Step Size) s) :
    s.popped ++ s.pop.item <+: s.pushed ∧ s.pushed.length ≤ s.popped.length + Size ∧
    (∀ item t, s.push = .free item t → t < Capacity Size ∧ ∃ s', write s = some s') ∧
    (∀ hd, s.pop = .filled hd → hd < Capacity Size ∧ ∃ s', read s = some s') ∧
    (∀ i s', check Size s i = some s' →
      i ≤ s.popped.length ∧ (s'.push = .died ↔ s.pushed.length = i + Size)) ∧
    (∀ i s', look s i = some s' → s.popped.length ≤ i ∧ i ≤ s.pushed.length ∧
      (s'.pop = .idle ↔ s.popped.length = i)) ∧
    ∀ i j b s', was_empty s i j = some (b, s') →
      s.popped.length ≤ j ∧ j ≤ s.pushed.length ∧ (b = true ↔ s.popped.length = j) := by
  have hinv := reaches_inv h
  have hroom := hinv.room
  have hseen := hinv.seen_head_le
  refine ⟨hinv.order, by omega, fun item t hp => ?_, fun hd hp => ?_,
    fun i s' hs => check_died hinv hs, fun i s' hs => look_idle hinv hs, fun i j b s' hs => ?_⟩
  · have hat := hinv.push_at
    rw [hp] at hat
    obtain ⟨m, hm⟩ := hinv.write_ready hp
    refine ⟨hat.1.trans_lt (Nat.mod_lt _ capacity_pos), ?_⟩
    unfold write
    rw [hp]
    exact ⟨_, Option.bind_eq_some_iff.mpr ⟨m, hm, rfl⟩⟩
  · have hat := hinv.pop_at
    rw [hp] at hat
    obtain ⟨item, m, hm, -⟩ := hinv.read_ready hp
    refine ⟨hat.1.trans_lt (Nat.mod_lt _ capacity_pos), ?_⟩
    unfold read
    rw [hp]
    exact ⟨_, Option.bind_eq_some_iff.mpr ⟨(item, m), hm, rfl⟩⟩
  · obtain ⟨-, hj, hpj, hb⟩ := was_empty_spec hinv hs
    exact ⟨hpj, hj, hb⟩

/-! ### The queue of the rendezvous -/

/-- What has been pushed and not been popped. -/
def Fifo.queue (s : Fifo E) : List E := s.pushed.drop s.popped.length

theorem publish_queue (h : Inv Size s) (hs : publish Size s = some s') :
    s.queue.length < Size ∧ ∃ item, s'.queue = s.queue ++ [item] := by
  unfold publish at hs
  split at hs
  · next item t hp =>
    have hat := h.push_at
    rw [hp] at hat
    have hlt : s.pushed.length < s.seen_head + Size := hat.2
    have hseen := h.seen_head_le
    have hpops := (List.prefix_append s.popped s.pop.item).length_le.trans h.order.length_le
    cases hs
    unfold Fifo.queue
    rw [List.length_drop]
    exact ⟨by omega, item, List.drop_append_of_le_length hpops⟩
  · cases hs

theorem advance_queue (h : Inv Size s) (hs : advance Size s = some s') :
    ∃ item, s.queue = item :: s'.queue ∧ s'.popped = s.popped ++ [item] := by
  unfold advance at hs
  split at hs
  · next item hd hp =>
    have horder := h.order
    rw [hp] at horder
    obtain ⟨t, ht⟩ := horder
    cases hs
    refine ⟨item, ?_, rfl⟩
    unfold Fifo.queue
    dsimp only [PopPC.item] at ht ⊢
    rw [← ht, List.drop_left, List.append_assoc, List.drop_left]
    rfl
  · cases hs

/-- No other step changes the queue. -/
theorem other_queue {a : Act E} (hs : Step Size s a s') (h1 : a ≠ .publish) (h2 : a ≠ .advance) :
    s'.queue = s.queue := by
  have hsame : s'.pushed = s.pushed ∧ s'.popped = s.popped := by
    cases a with
    | publish => exact absurd rfl h1
    | advance => exact absurd rfl h2
    | was_empty i j =>
      obtain ⟨⟨b, s''⟩, hempty, heq⟩ := Option.map_eq_some_iff.mp hs
      have heq : s'' = s' := heq
      subst heq
      unfold was_empty at hempty
      split at hempty
      · obtain ⟨_, -, hempty⟩ := Option.bind_eq_some_iff.mp hempty
        obtain ⟨_, -, hempty⟩ := Option.bind_eq_some_iff.mp hempty
        cases hempty
        exact ⟨rfl, rfl⟩
      · cases hempty
    | _ =>
      unfold Step next at hs
      dsimp only at hs
      first
        | unfold begin_push at hs
        | unfold check at hs
        | unfold write at hs
        | unfold begin_pop at hs
        | unfold look at hs
        | unfold read at hs
      split at hs
      · obtain ⟨_, -, hs⟩ := Option.bind_eq_some_iff.mp hs
        cases hs
        exact ⟨rfl, rfl⟩
      · cases hs
  unfold Fifo.queue
  rw [hsame.1, hsame.2]

/-- **The queue of the rendezvous**: a run of `CircularFifo` pushes and pops, with every load as old
as it may be, what the threads of the rendezvous push and pop in one step. -/
theorem refines_messages {s s' : Fifo GSCommand} {a : Act GSCommand}
    (h : Reaches Constructed (Step messageCapacity) s) (hs : Step messageCapacity s a s')
    (x : System) (hx : x.messages = s.queue) :
    (a = .publish → ∃ m, x.pushMessage m = some { x with messages := s'.queue }) ∧
    (a = .advance → ∃ m, x.messages = m :: s'.queue ∧ s'.popped = s.popped ++ [m]) ∧
    (a ≠ .publish → a ≠ .advance → x.messages = s'.queue) := by
  have hinv := reaches_inv h
  refine ⟨fun ha => ?_, fun ha => ?_, fun h1 h2 => ?_⟩
  · subst ha
    obtain ⟨hlt, m, hm⟩ := publish_queue hinv hs
    refine ⟨m, ?_⟩
    unfold System.pushMessage
    rw [if_pos (by rw [hx]; exact hlt), hx, hm]
  · subst ha
    obtain ⟨m, hm, hpopped⟩ := advance_queue hinv hs
    exact ⟨m, hx.trans hm, hpopped⟩
  · rw [hx, other_queue hs h1 h2]

end

/-- A queue as the constructor leaves it, its array full of `e`. -/
def constructed (e : E) : Fifo E :=
  ⟨⟨fun _ => [⟨0, ⟨fun _ => 0, fun _ => 0⟩⟩],
    fun t => ⟨Function.update (fun _ => 0) t 1, fun _ => 0⟩, fun _ => e, fun _ => (.producer, 0),
    fun _ _ => 0⟩, .idle, .idle, [], []⟩

theorem constructed_start (e : E) : Reaches Constructed (Step Size) (constructed e) :=
  Reaches.start ⟨_, rfl⟩

/-- An item is found with one push behind. -/
theorem race_free_filled : ∃ s : Fifo ℕ,
    [.push 7 0, .check 0, .write, .publish, .pop 0, .look 1].foldlM (next 1) (constructed 0) =
      some s ∧ s.pop = .filled 0 ∧ 0 < Capacity 1 ∧ ∃ s', read s = some s' := by
  obtain ⟨s, hs, hp⟩ : ∃ s : Fifo ℕ,
      [.push 7 0, .check 0, .write, .publish, .pop 0, .look 1].foldlM (next 1) (constructed 0) =
        some s ∧ s.pop = .filled 0 := ⟨_, rfl, rfl⟩
  exact ⟨s, hs, hp, (race_free (Reaches.exec _ (constructed_start 1 0) hs)).2.2.2.1 0 hp⟩

/-- A message is published. -/
theorem refines_messages_die : ∃ s s' : Fifo GSCommand,
    [.push .die 0, .check 0, .write].foldlM (next messageCapacity) (constructed .die) = some s ∧
      Step messageCapacity s .publish s' ∧ ∃ m,
        (⟨s.queue, [], false, false, none, .next, [], .popping⟩ : System).pushMessage m =
          some ⟨s'.queue, [], false, false, none, .next, [], .popping⟩ := by
  obtain ⟨s, s', hs, hs'⟩ : ∃ s s' : Fifo GSCommand,
      [.push .die 0, .check 0, .write].foldlM (next messageCapacity) (constructed .die) = some s ∧
        Step messageCapacity s .publish s' := ⟨_, _, rfl, rfl⟩
  have hreach := Reaches.exec _ (constructed_start messageCapacity GSCommand.die) hs
  exact ⟨s, s', hs, hs',
    (refines_messages hreach hs' ⟨s.queue, [], false, false, none, .next, [], .popping⟩ rfl).1 rfl⟩

end DobieStation.Gs.CircularFifo
