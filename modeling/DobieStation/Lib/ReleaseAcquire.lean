import Mathlib.Data.Fintype.Defs
import Mathlib.Logic.Function.Basic
import Mathlib.Order.MinMax
import Mathlib.Tactic.Common

/-! # Release stores and acquire loads

Threads share atomic variables and plain cells. A load gives any store of its variable that is not
older than one the thread has seen, and an acquire load also hands over what was known at the store.
What a thread knows of another is the number of the other's last release (an epoch); a plain access
that is not known to come after the conflicting ones is a race, and gives `none`.

`Owned` is the discipline of a protocol where each variable is stored by one thread only and every
load of another thread's variable is an acquire load: then who has seen the store number `i` of a
thread knows the first `i` epochs of it. -/

namespace DobieStation.Lib.ReleaseAcquire

/-- The epochs that are known of each thread, and the newest store seen of each variable. -/
structure View (T A : Type*) where
  clock : T → ℕ
  seen : A → ℕ

/-- A store, with what its thread knew. -/
structure Store (T A V : Type*) where
  value : V
  view : View T A

structure Memory (T A P V E : Type*) where
  history : A → List (Store T A V)
  view : T → View T A
  cell : P → E
  /-- The last writer of a cell and its epoch then. -/
  writer : P → T × ℕ
  /-- The epoch in which each thread read a cell last. -/
  reads : P → T → ℕ

variable {T A P V E : Type*}

def View.join (v w : View T A) : View T A :=
  ⟨fun t => max (v.clock t) (w.clock t), fun a => max (v.seen a) (w.seen a)⟩

def View.observe [DecidableEq A] (v : View T A) (a : A) (i : ℕ) : View T A :=
  { v with seen := Function.update v.seen a i }

section
variable [DecidableEq T] [DecidableEq A] [DecidableEq P] (m : Memory T A P V E) (t : T)

/-- The store number `i`, if the thread may still load it. -/
def Memory.loadable (a : A) (i : ℕ) : Option (Store T A V) :=
  if (m.view t).seen a ≤ i then (m.history a)[i]? else none

def Memory.with_view (v : View T A) : Memory T A P V E :=
  { m with view := Function.update m.view t v }

def Memory.relaxed_load (a : A) (i : ℕ) : Option (V × Memory T A P V E) :=
  (m.loadable t a i).map fun w => (w.value, m.with_view t ((m.view t).observe a i))

def Memory.acquire_load (a : A) (i : ℕ) : Option (V × Memory T A P V E) :=
  (m.loadable t a i).map fun w =>
    (w.value, m.with_view t (((m.view t).observe a i).join w.view))

/-- What the thread knows goes with the store, which ends its epoch. -/
def Memory.release_store (a : A) (v : V) : Memory T A P V E :=
  let view := (m.view t).observe a (m.history a).length
  { m with
    history := Function.update m.history a (m.history a ++ [⟨v, view⟩])
    view := Function.update m.view t
      { view with clock := Function.update view.clock t (view.clock t + 1) } }

/-- The last write is known. -/
def Memory.written (p : P) : Prop := (m.writer p).2 ≤ (m.view t).clock (m.writer p).1

instance (p : P) : Decidable (m.written t p) := inferInstanceAs (Decidable (_ ≤ _))

def Memory.plain_read (p : P) : Option (E × Memory T A P V E) :=
  if m.written t p then
    let reads := Function.update (m.reads p) t ((m.view t).clock t)
    some (m.cell p, { m with reads := Function.update m.reads p reads })
  else none

def Memory.plain_write [Fintype T] (p : P) (e : E) : Option (Memory T A P V E) :=
  if m.written t p ∧ ∀ u, m.reads p u ≤ (m.view t).clock u then
    some { m with
      cell := Function.update m.cell p e
      writer := Function.update m.writer p (t, (m.view t).clock t) }
  else none

end

/-- What has been stored in a variable, in order. -/
def Memory.values (m : Memory T A P V E) (a : A) : List V := (m.history a).map Store.value

/-! ### One writer for each variable -/

/-- A view that knows what it has seen, and nothing that has not happened. -/
def View.Within (own : T → A) (n : T → ℕ) (v : View T A) : Prop :=
  ∀ t, v.seen (own t) ≤ v.clock t ∧ v.seen (own t) < n t ∧ v.clock t ≤ n t

structure Memory.Owned (m : Memory T A P V E) (own : T → A) : Prop where
  last : ∀ t, (m.view t).seen (own t) + 1 = (m.history (own t)).length
  epoch : ∀ t, (m.view t).clock t = (m.history (own t)).length
  stamped : ∀ (t : T) (i : ℕ) (w : Store T A V), (m.history (own t))[i]? = some w →
    w.view.seen (own t) = i ∧ w.view.clock t = i
  views : ∀ t, (m.view t).Within own fun t => (m.history (own t)).length
  stores : ∀ t, ∀ w ∈ m.history (own t), w.view.Within own fun t => (m.history (own t)).length

section
variable {m m' : Memory T A P V E} {own : T → A} {t u : T} {i : ℕ} {v : V} {p : P} {e : E}
  {n n' : T → ℕ}

theorem View.Within.mono {w : View T A} (h : w.Within own n) (hle : ∀ t, n t ≤ n' t) :
    w.Within own n' := by
  intro t
  obtain ⟨h1, h2, h3⟩ := h t
  exact ⟨h1, h2.trans_le (hle t), h3.trans (hle t)⟩

theorem View.Within.join {v w : View T A} (hv : v.Within own n) (hw : w.Within own n) :
    (v.join w).Within own n := by
  intro t
  obtain ⟨h1, h2, h3⟩ := hv t
  obtain ⟨h1', h2', h3'⟩ := hw t
  exact ⟨max_le_max h1 h1', max_lt h2 h2', max_le h3 h3'⟩

theorem loadable_eq_some {a : A} {w : Store T A V} (h : m.loadable t a i = some w) :
    (m.view t).seen a ≤ i ∧ (m.history a)[i]? = some w := by
  unfold Memory.loadable at h
  split_ifs at h with hi
  exact ⟨hi, h⟩

theorem length_values (a : A) : (m.values a).length = (m.history a).length := List.length_map ..

/-- Plain accesses are no matter. -/
theorem Memory.Owned.congr (hm : m.Owned own) (hh : m'.history = m.history)
    (hv : m'.view = m.view) : m'.Owned own := by
  obtain ⟨h1, h2, h3, h4, h5⟩ := hm
  exact ⟨by rwa [hh, hv], by rwa [hh, hv], by rwa [hh], by rwa [hh, hv], by rwa [hh]⟩

variable [DecidableEq T]

@[simp] theorem with_view_history (w : View T A) : (m.with_view u w).history = m.history := rfl

@[simp] theorem with_view_self (w : View T A) : (m.with_view u w).view u = w :=
  Function.update_self ..

theorem with_view_of_ne (w : View T A) (h : t ≠ u) : (m.with_view u w).view t = m.view t :=
  Function.update_of_ne h _ _

theorem Memory.Owned.with_view (hm : m.Owned own) {w : View T A}
    (hw : w.Within own fun t => (m.history (own t)).length)
    (hlast : w.seen (own u) + 1 = (m.history (own u)).length)
    (hepoch : w.clock u = (m.history (own u)).length) : (m.with_view u w).Owned own := by
  refine ⟨fun t => ?_, fun t => ?_, hm.stamped, fun t => ?_, hm.stores⟩
  · rcases eq_or_ne t u with rfl | hne
    · rw [with_view_self]
      exact hlast
    · rw [with_view_of_ne w hne]
      exact hm.last t
  · rcases eq_or_ne t u with rfl | hne
    · rw [with_view_self]
      exact hepoch
    · rw [with_view_of_ne w hne]
      exact hm.epoch t
  · rcases eq_or_ne t u with rfl | hne
    · rw [with_view_self]
      exact hw
    · rw [with_view_of_ne w hne]
      exact hm.views t

variable [DecidableEq A]

/-- **A thread loads its own variable**: there is nothing but the last store. -/
theorem Memory.Owned.own_load (hm : m.Owned own)
    (h : m.relaxed_load t (own t) i = some (v, m')) :
    m' = m ∧ i = (m.view t).seen (own t) ∧ (m.values (own t))[i]? = some v := by
  obtain ⟨w, hw, heq⟩ := Option.map_eq_some_iff.mp h
  obtain ⟨hle, hi⟩ := loadable_eq_some hw
  obtain ⟨hlt, -⟩ := List.getElem?_eq_some_iff.mp hi
  have hlast := hm.last t
  have hsame : i = (m.view t).seen (own t) := by omega
  rw [Prod.mk.injEq] at heq
  refine ⟨?_, hsame, by rw [Memory.values, List.getElem?_map, hi, Option.map_some, heq.1]⟩
  rw [← heq.2, hsame]
  unfold Memory.with_view View.observe
  rw [Function.update_eq_self, Function.update_eq_self]

/-- The store number `i` of the thread `t` has been loaded by the thread `u`, and nothing else has
changed. -/
structure Acquired (own : T → A) (m m' : Memory T A P V E) (u t : T) (i : ℕ) : Prop where
  history : m'.history = m.history
  cell : m'.cell = m.cell
  writer : m'.writer = m.writer
  reads : m'.reads = m.reads
  others : ∀ u', u' ≠ u → m'.view u' = m.view u'
  fresh : (m.view u).seen (own t) ≤ i
  exists_store : i < (m.history (own t)).length
  seen : (m'.view u).seen (own t) = i
  kept : ∀ t', t' ≠ t → (m.view u).seen (own t') ≤ (m'.view u).seen (own t')

/-- **An acquire load of the store number `i` of a thread** makes its first `i` epochs known. -/
theorem Memory.Owned.acquire (hm : m.Owned own) (hown : own.Injective)
    (h : m.acquire_load u (own t) i = some (v, m')) :
    m'.Owned own ∧ Acquired own m m' u t i ∧ (m.values (own t))[i]? = some v := by
  obtain ⟨w, hw, heq⟩ := Option.map_eq_some_iff.mp h
  obtain ⟨hle, hi⟩ := loadable_eq_some hw
  obtain ⟨hlt, -⟩ := List.getElem?_eq_some_iff.mp hi
  obtain ⟨hseen, hclock⟩ := hm.stamped t i w hi
  have hstore := hm.stores t w (List.mem_of_getElem? hi)
  rw [Prod.mk.injEq] at heq
  obtain ⟨hv, rfl⟩ := heq
  have hat : (((m.view u).observe (own t) i).join w.view).seen (own t) = i := by
    unfold View.join View.observe
    dsimp only
    rw [Function.update_self, hseen, max_self]
  have hother : ∀ t', t' ≠ t → (((m.view u).observe (own t) i).join w.view).seen (own t') =
      max ((m.view u).seen (own t')) (w.view.seen (own t')) := by
    intro t' hne
    unfold View.join View.observe
    dsimp only
    rw [Function.update_of_ne (hown.ne hne)]
  have hwithin : (((m.view u).observe (own t) i).join w.view).Within own
      fun t => (m.history (own t)).length := by
    intro s
    have hs := (hm.views u).join hstore s
    rcases eq_or_ne s t with rfl | hne
    · rw [hat]
      exact ⟨hclock.ge.trans (le_max_right _ _), hlt, hs.2.2⟩
    · rw [hother s hne]
      exact hs
  have hlast := hm.last u
  have hbound := (hwithin u).2.1
  refine ⟨hm.with_view hwithin ?_ (Nat.le_antisymm (hwithin u).2.2 ?_),
    ⟨rfl, rfl, rfl, rfl, fun u' hne => with_view_of_ne _ hne, hle, hlt, ?_, fun t' hne => ?_⟩,
    by rw [Memory.values, List.getElem?_map, hi, Option.map_some, hv]⟩
  · dsimp only at hbound
    rcases eq_or_ne u t with rfl | hne
    · rw [hat] at hbound ⊢
      omega
    · rw [hother u hne] at hbound ⊢
      omega
  · exact (hm.epoch u).ge.trans (le_max_left _ _)
  · rw [with_view_self, hat]
  · rw [with_view_self, hother t' hne]
    exact le_max_left _ _

/-- The thread `t` has stored `v`, and nothing else has changed. -/
structure Released (own : T → A) (m m' : Memory T A P V E) (t : T) (v : V) : Prop where
  values : m'.values (own t) = m.values (own t) ++ [v]
  other_values : ∀ t', t' ≠ t → m'.values (own t') = m.values (own t')
  cell : m'.cell = m.cell
  writer : m'.writer = m.writer
  reads : m'.reads = m.reads
  others : ∀ u, u ≠ t → m'.view u = m.view u
  seen : ∀ t', t' ≠ t → (m'.view t).seen (own t') = (m.view t).seen (own t')

theorem released (hown : own.Injective) : Released own m (m.release_store t (own t) v) t v := by
  refine ⟨?_, fun t' hne => ?_, rfl, rfl, rfl, fun u hne => Function.update_of_ne hne _ _,
    fun t' hne => ?_⟩
  · unfold Memory.values Memory.release_store
    dsimp only
    rw [Function.update_self, List.map_append, List.map_singleton]
  · unfold Memory.values Memory.release_store
    dsimp only
    rw [Function.update_of_ne (hown.ne hne)]
  · unfold Memory.release_store View.observe
    dsimp only
    rw [Function.update_self]
    exact Function.update_of_ne (hown.ne hne) _ _

/-- **A release store**: the history of the variable grows by one, and nothing else of it. -/
theorem Memory.Owned.release (hm : m.Owned own) (hown : own.Injective) :
    (m.release_store t (own t) v).Owned own := by
  have hlen : ∀ s, (m.history (own s)).length ≤
      ((m.release_store t (own t) v).history (own s)).length := by
    intro s
    unfold release_store
    dsimp only
    rcases eq_or_ne s t with rfl | hne
    · rw [Function.update_self, List.length_append]
      exact Nat.le_add_right _ _
    · rw [Function.update_of_ne (hown.ne hne)]
  have hself : (m.release_store t (own t) v).history (own t) =
      m.history (own t) ++ [⟨v, (m.view t).observe (own t) (m.history (own t)).length⟩] :=
    Function.update_self ..
  have hold : ∀ s, s ≠ t → (m.release_store t (own t) v).history (own s) = m.history (own s) :=
    fun s hne => Function.update_of_ne (hown.ne hne) _ _
  have hview : (m.release_store t (own t) v).view t =
      ⟨Function.update (m.view t).clock t ((m.view t).clock t + 1),
        Function.update (m.view t).seen (own t) (m.history (own t)).length⟩ :=
    Function.update_self ..
  have hviews : ∀ s, s ≠ t → (m.release_store t (own t) v).view s = m.view s :=
    fun s hne => Function.update_of_ne hne _ _
  have hsize : ((m.release_store t (own t) v).history (own t)).length =
      (m.history (own t)).length + 1 := by
    rw [hself, List.length_append, List.length_singleton]
  have hepoch := hm.epoch t
  have hnew : ((m.view t).observe (own t) (m.history (own t)).length).Within own
      fun s => ((m.release_store t (own t) v).history (own s)).length := by
    intro s
    obtain ⟨h1, h2, h3⟩ := hm.views t s
    dsimp only at h2 h3 ⊢
    unfold View.observe
    dsimp only
    rcases eq_or_ne s t with rfl | hne
    · rw [Function.update_self, hsize]
      omega
    · rw [Function.update_of_ne (hown.ne hne), hold s hne]
      exact ⟨h1, h2, h3⟩
  refine ⟨fun s => ?_, fun s => ?_, fun s i w hi => ?_, fun s => ?_, fun s w hw => ?_⟩
  · rcases eq_or_ne s t with rfl | hne
    · rw [hview, hsize]
      dsimp only
      rw [Function.update_self]
    · rw [hviews s hne, hold s hne]
      exact hm.last s
  · rcases eq_or_ne s t with rfl | hne
    · rw [hview, hsize]
      dsimp only
      rw [Function.update_self, hepoch]
    · rw [hviews s hne, hold s hne]
      exact hm.epoch s
  · rcases eq_or_ne s t with rfl | hne
    · rw [hself] at hi
      rcases Nat.lt_or_ge i (m.history (own s)).length with hlt | hge
      · rw [List.getElem?_append_left hlt] at hi
        exact hm.stamped s i w hi
      · rw [List.getElem?_append_right hge, List.getElem?_singleton] at hi
        split_ifs at hi with h0
        have hlast : i = (m.history (own s)).length := by omega
        cases hi
        exact ⟨(Function.update_self ..).trans hlast.symm, hepoch.trans hlast.symm⟩
    · rw [hold s hne] at hi
      exact hm.stamped s i w hi
  · rcases eq_or_ne s t with rfl | hne
    · rw [hview]
      intro r
      obtain ⟨h1, h2, h3⟩ := hnew r
      unfold View.observe at h1 h2 h3
      dsimp only at h1 h2 h3 ⊢
      rcases eq_or_ne r s with rfl | hne
      · rw [Function.update_self (f := (m.view r).clock), hsize] at *
        omega
      · rw [Function.update_of_ne hne _ (m.view s).clock]
        exact ⟨h1, h2, h3⟩
    · rw [hviews s hne]
      exact (hm.views s).mono hlen
  · rcases eq_or_ne s t with rfl | hne
    · rw [hself, List.mem_append, List.mem_singleton] at hw
      rcases hw with hw | rfl
      · exact (hm.stores s w hw).mono hlen
      · exact hnew
    · rw [hold s hne] at hw
      exact (hm.stores s w hw).mono hlen

end

end DobieStation.Lib.ReleaseAcquire
