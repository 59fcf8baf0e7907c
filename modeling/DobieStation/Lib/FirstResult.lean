import DobieStation.Lib.Memory
import Mathlib.Data.List.Induction

/-! # Tables of first results

A cache of compiled code gives for a key what was compiled when the key came up first, until it is
cleared. `replay` is the table that a history of offers and clearings leaves, and `replay_eq_some_iff`
reads it off the history. The results are bytes in memory: `Holds` says where they stand, `copy` puts
them there. -/

namespace DobieStation.Lib.FirstResult

open DobieStation.Lib.Memory

/-! ### Histories -/

inductive Event (K V : Type*) where
  | clear
  | offer (k : K) (v : V)

section
variable {K V : Type*} [DecidableEq K] {l l' : List (Event K V)} {k k' : K} {v w : V}

/-- What is offered for a key that the table has is dropped. -/
def Event.apply (m : K → Option V) : Event K V → K → Option V
  | .clear => fun _ => none
  | .offer k v => if (m k).isNone then Function.update m k (some v) else m

/-- The table after a history. -/
def replay (l : List (Event K V)) : K → Option V := l.foldl Event.apply fun _ => none

@[simp] theorem replay_nil : replay ([] : List (Event K V)) k = none := rfl

theorem replay_append (e : Event K V) : replay (l ++ [e]) = e.apply (replay l) := by
  unfold replay
  rw [List.foldl_append, List.foldl_cons, List.foldl_nil]

@[simp] theorem replay_clear : replay (l ++ [.clear]) k = none := by
  rw [replay_append]
  rfl

theorem replay_hit (h : replay l k = some w) : replay (l ++ [.offer k v]) = replay l := by
  rw [replay_append, Event.apply, h]
  rfl

theorem replay_miss (h : replay l k = none) :
    replay (l ++ [.offer k v]) = Function.update (replay l) k (some v) := by
  rw [replay_append, Event.apply, h]
  rfl

theorem replay_other (h : k ≠ k') : replay (l ++ [.offer k v]) k' = replay l k' := by
  rw [replay_append, Event.apply]
  split_ifs
  · exact Function.update_of_ne (Ne.symm h) _ _
  · rfl

/-- **The first offer since the table was cleared last.** -/
theorem replay_eq_some_iff : replay l k = some v ↔
    ∃ pre post, l = pre ++ .offer k v :: post ∧ .clear ∉ post ∧ replay pre k = none := by
  induction l using List.reverseRecOn with
  | nil => simp
  | append_singleton l e ih =>
    constructor
    · intro h
      cases e with
      | clear => simp at h
      | offer k' w =>
        by_cases hnew : k' = k ∧ replay l k = none
        · obtain ⟨rfl, hnone⟩ := hnew
          rw [replay_miss hnone, Function.update_self, Option.some.injEq] at h
          exact ⟨l, [], by rw [h], List.not_mem_nil, hnone⟩
        · have hold : replay l k = some v := by
            rcases eq_or_ne k' k with rfl | hne
            · cases hr : replay l k' with
              | none => exact absurd ⟨rfl, hr⟩ hnew
              | some u =>
                rw [replay_hit hr] at h
                rw [← hr, h]
            · rwa [replay_other hne] at h
          obtain ⟨pre, post, rfl, hclear, hnone⟩ := ih.mp hold
          refine ⟨pre, post ++ [.offer k' w], by simp, ?_, hnone⟩
          simp [hclear]
    · rintro ⟨pre, post, hl, hclear, hnone⟩
      rcases List.eq_nil_or_concat post with rfl | ⟨post, e', rfl⟩
      · obtain ⟨rfl, he⟩ := List.append_inj' hl rfl
        rw [List.singleton_inj.mp he, replay_miss hnone, Function.update_self]
      · rw [List.concat_eq_append, ← List.cons_append, ← List.append_assoc] at hl
        obtain ⟨rfl, he⟩ := List.append_inj' hl rfl
        rw [List.concat_eq_append, List.mem_append, not_or, ← List.singleton_inj.mp he] at hclear
        have hold := ih.mpr ⟨pre, post, rfl, hclear.1, hnone⟩
        cases e with
        | clear => simp at hclear
        | offer k' w =>
          rcases eq_or_ne k' k with rfl | hne
          · rw [replay_hit hold, hold]
          · rw [replay_other hne, hold]

end

/-! ### Bytes -/

section
variable {m m' : Bytes} {a b n : ℕ} {l : List (BitVec 8)}

/-- The bytes of `l` from `a` on. -/
def Holds (m : Bytes) (a : ℕ) (l : List (BitVec 8)) : Prop :=
  ∀ i x, l[i]? = some x → m (a + i) = x

/-- The bytes of `l` put from `a` on. -/
def copy (m : Bytes) (a : ℕ) (l : List (BitVec 8)) : Bytes := fun p =>
  if a ≤ p ∧ p < a + l.length then l.getD (p - a) 0 else m p

theorem copy_apart {p : ℕ} (h : p < a ∨ a + l.length ≤ p) : copy m a l p = m p :=
  if_neg (by omega)

theorem holds_copy : Holds (copy m a l) a l := by
  intro i x hx
  obtain ⟨hi, rfl⟩ := List.getElem?_eq_some_iff.mp hx
  unfold copy
  rw [if_pos (by omega), Nat.add_sub_cancel_left, List.getD_eq_getElem?_getD, hx, Option.getD_some]

theorem Holds.congr (h : Holds m a l) (hm : ∀ p, a ≤ p → p < a + l.length → m' p = m p) :
    Holds m' a l := by
  intro i x hx
  obtain ⟨hi, -⟩ := List.getElem?_eq_some_iff.mp hx
  rw [hm _ (by omega) (by omega)]
  exact h i x hx

/-- The second part of what is held. -/
theorem Holds.right {l' : List (BitVec 8)} (h : Holds m a (l ++ l')) :
    Holds m (a + l.length) l' := by
  intro i x hx
  rw [Nat.add_assoc]
  refine h _ x ?_
  rw [List.getElem?_append_right (by omega), Nat.add_sub_cancel_left]
  exact hx

end

end DobieStation.Lib.FirstResult
