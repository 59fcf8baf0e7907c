import Mathlib.Tactic.Common

/-! # Properties of the steps of a run

`Along Step P s as`: in the run of the labels `as` from `s`, each step that is made meets `P`, a property of the
state before it and the label. Two properties that agree where an invariant holds agree along each run
(`along_congr`). -/

namespace DobieStation.Lib.Stepwise

variable {S A : Type*} {Step : S → A → S → Prop} {P Q : S → A → Prop} {I : S → Prop} {s s' : S} {a : A} {as : List A}

def Along (Step : S → A → S → Prop) (P : S → A → Prop) : S → List A → Prop
  | _, [] => True
  | s, a :: as => P s a ∧ ∀ s', Step s a s' → Along Step P s' as

theorem Along.head (h : Along Step P s (a :: as)) : P s a := h.1

theorem Along.tail (h : Along Step P s (a :: as)) (hs : Step s a s') : Along Step P s' as := h.2 s' hs

/-- A run that repeats a label. -/
theorem Along.repeated {f : ℕ → S} {k : ℕ} : ∀ m, (∀ n < m, Step (f n) a (f (n + 1))) →
    Along Step P (f 0) (List.replicate (m + k) a) → Along Step P (f m) (List.replicate k a)
  | 0, _, h => by
    rw [Nat.zero_add] at h
    exact h
  | m + 1, hstep, h => by
    rw [show m + 1 + k = m + (k + 1) by omega] at h
    have hlast := Along.repeated m (fun n hn => hstep n (Nat.lt_succ_of_lt hn)) h
    exact Along.tail hlast (hstep m (Nat.lt_succ_self m))

/-- The invariant has to be kept by the steps that meet the properties only. -/
theorem along_congr (hiff : ∀ s a, I s → (P s a ↔ Q s a))
    (hstep : ∀ s a s', I s → Q s a → Step s a s' → I s') (as : List A) (h : I s) :
    Along Step P s as ↔ Along Step Q s as := by
  induction as generalizing s with
  | nil => exact Iff.rfl
  | cons a as ih =>
    unfold Along
    rw [hiff s a h]
    refine and_congr_right fun hq => forall_congr' fun s' => forall_congr' fun hs => ?_
    exact ih (hstep s a s' h hq hs)

end DobieStation.Lib.Stepwise
