import Mathlib.Algebra.GroupWithZero.Nat
import Mathlib.Data.List.SplitLengths

/-! # Ranges of a memory

A memory is a function on the naturals. `window m a n` lists its `n` cells from `a` on, and `put m a l`
is the memory after the list `l` has been written from `a` on. -/

namespace DobieStation.Lib.Windows

variable {α : Type*}

def window (m : ℕ → α) (a n : ℕ) : List α := (List.range' a n).map m

def put (m : ℕ → α) (a : ℕ) (l : List α) : ℕ → α :=
  fun k => if a ≤ k then (l[k - a]?).getD (m k) else m k

variable {m m' : ℕ → α} {a n k : ℕ} {l : List α}

@[simp] theorem window_length : (window m a n).length = n := by simp [window]

@[simp] theorem window_zero : window m a 0 = [] := rfl

theorem window_succ : window m a (n + 1) = m a :: window m (a + 1) n := rfl

theorem window_add : window m a (n + k) = window m a n ++ window m (a + n) k := by
  induction n generalizing a with
  | zero => simp
  | succ n ih =>
    rw [Nat.succ_add, window_succ, window_succ, ih, Nat.succ_add_eq_add_succ]
    rfl

theorem window_concat : window m a (n + 1) = window m a n ++ [m (a + n)] := window_add

theorem getElem?_window (h : k < n) : (window m a n)[k]? = some (m (a + k)) := by
  simp [window, h]

theorem window_congr (h : ∀ i, a ≤ i → i < a + n → m i = m' i) : window m a n = window m' a n := by
  unfold window
  refine List.map_congr_left ?_
  intro i hi
  obtain ⟨h1, h2⟩ := List.mem_range'_1.mp hi
  exact h i h1 h2

/-- A window is cut into windows. -/
theorem splitLengths_window {ns : List ℕ} :
    (n :: ns).splitLengths (window m a (n + ns.sum)) =
      window m a n :: ns.splitLengths (window m (a + n) ns.sum) := by
  rw [List.splitLengths_cons, window_add, List.take_left' window_length, List.drop_left' window_length]

theorem put_of_lt (h : k < a) : put m a l k = m k := if_neg (by omega)

theorem put_of_le (h : a + l.length ≤ k) : put m a l k = m k := by
  unfold put
  rw [List.getElem?_eq_none (by omega)]
  split_ifs <;> rfl

theorem put_of_mem (h : k < l.length) : put m a l (a + k) = l[k] := by
  unfold put
  rw [if_pos (by omega), Nat.add_sub_cancel_left, List.getElem?_eq_getElem h]
  rfl

@[simp] theorem put_nil : put m a [] = m := by
  funext k
  unfold put
  split_ifs <;> simp

theorem put_singleton {x : α} : put m a [x] = fun k => if k = a then x else m k := by
  funext k
  rcases Nat.lt_trichotomy k a with h | rfl | h
  · rw [put_of_lt h, if_neg h.ne]
  · rw [if_pos rfl]
    exact put_of_mem (k := 0) (by simp)
  · rw [put_of_le h, if_neg h.ne']

theorem put_append {l' : List α} : put (put m a l) (a + l.length) l' = put m a (l ++ l') := by
  funext k
  rcases Nat.lt_or_ge k a with h | h
  · rw [put_of_lt (by omega), put_of_lt h, put_of_lt h]
  obtain ⟨j, rfl⟩ := Nat.exists_eq_add_of_le h
  rcases Nat.lt_or_ge j l.length with hj | hj
  · rw [put_of_lt (by omega), put_of_mem hj, put_of_mem (by simp; omega), List.getElem_append_left hj]
  · obtain ⟨i, rfl⟩ := Nat.exists_eq_add_of_le hj
    have hle : a + l.length ≤ a + (l.length + i) := by omega
    unfold put
    rw [if_pos hle, if_pos h, if_pos h, ← Nat.add_assoc, Nat.add_sub_cancel_left, Nat.add_assoc,
      Nat.add_sub_cancel_left, List.getElem?_append_right (by omega), Nat.add_sub_cancel_left,
      List.getElem?_eq_none (l := l) (by omega)]
    rfl

@[simp] theorem window_put : window (put m a l) a l.length = l := by
  refine List.ext_getElem? fun k => ?_
  rcases Nat.lt_or_ge k l.length with h | h
  · rw [getElem?_window h, put_of_mem h, List.getElem?_eq_getElem h]
  · rw [List.getElem?_eq_none (by simpa using h), List.getElem?_eq_none h]

end DobieStation.Lib.Windows
