import Mathlib.Data.Fintype.EquivFin
import Mathlib.Logic.Function.Iterate
import Mathlib.Logic.Relation

/-! # Loops that may not end

A loop is given by its turn: from a state it goes on to another one, stops with a result, or faults. `Ends turn s r`
says that from `s` the loop stops with `r`, without a fault. Where there are finitely many states, a loop ends if and
only if no turn that it comes to faults or leads back to where it was (`ends_iff_never_back`). A loop that counts ends
if and only if it comes to a number at which it stops (`ends_iterate_iff`). -/

namespace DobieStation.Lib.Loops

inductive Turn (S R : Type*)
  | again (s : S)
  | stop (r : R)
  | fault

variable {S R : Type*} {turn : S → Turn S R} {s s' t t' : S} {r r' : R}

/-- Turns lead from one state to the other. -/
def Visits (turn : S → Turn S R) : S → S → Prop := Relation.ReflTransGen fun s s' => turn s = .again s'

def Ends (turn : S → Turn S R) (s : S) (r : R) : Prop := ∃ t, Visits turn s t ∧ turn t = .stop r

theorem Visits.tail (h : Visits turn s t) (ht : turn t = .again t') : Visits turn s t' :=
  Relation.ReflTransGen.tail h ht

theorem Visits.trans (h : Visits turn s t) (h' : Visits turn t t') : Visits turn s t' :=
  Relation.ReflTransGen.trans h h'

/-- A turn has one outcome, so that of two states that are visited one leads to the other. -/
theorem Visits.linear (h : Visits turn s t) (h' : Visits turn s t') : Visits turn t t' ∨ Visits turn t' t := by
  refine Relation.ReflTransGen.total_of_right_unique ?_ h h'
  intro a b c hb hc
  exact Turn.again.inj (hb.symm.trans hc)

/-- Nothing is visited from where the loop has come to an end. -/
theorem Visits.of_last (h : Visits turn s t) (hs : ∀ s', turn s ≠ .again s') : t = s := by
  rcases Relation.ReflTransGen.cases_head h with rfl | ⟨u, hu, -⟩
  · rfl
  · exact absurd hu (hs u)

theorem Ends.unique (h : Ends turn s r) (h' : Ends turn s r') : r = r' := by
  obtain ⟨t, hv, ht⟩ := h
  obtain ⟨t', hv', ht'⟩ := h'
  obtain rfl : t = t' := by
    rcases hv.linear hv' with hl | hl
    · exact (hl.of_last (by simp [ht])).symm
    · exact hl.of_last (by simp [ht'])
  exact Turn.stop.inj (ht.symm.trans ht')

/-- A state that is visited leads to the end. -/
theorem Ends.of_visits (h : Ends turn s r) (hv : Visits turn s t) : Ends turn t r := by
  obtain ⟨e, he, hstop⟩ := h
  rcases hv.linear he with hl | hl
  · exact ⟨e, hl, hstop⟩
  · obtain rfl := hl.of_last (by simp [hstop])
    exact ⟨t, .refl, hstop⟩

theorem Ends.not_fault (h : Ends turn s r) (hv : Visits turn s t) : turn t ≠ .fault := by
  intro hfault
  obtain ⟨e, he, hstop⟩ := h.of_visits hv
  obtain rfl := he.of_last (by simp [hfault])
  rw [hfault] at hstop
  cases hstop

/-- What lies on a way back to `t` leads to `t`. -/
theorem Visits.back (ht : turn t = .again t') (hback : Visits turn t' t) (h : Visits turn t s) :
    Visits turn s t := by
  induction h with
  | refl => exact .refl
  | @tail u v _ hu ih =>
    rcases Relation.ReflTransGen.cases_head ih with rfl | ⟨w, hw, hwt⟩
    · obtain rfl := Turn.again.inj (ht.symm.trans hu)
      exact hback
    · obtain rfl := Turn.again.inj (hw.symm.trans hu)
      exact hwt

theorem Ends.never_back (h : Ends turn s r) (hv : Visits turn s t) (ht : turn t = .again t') :
    ¬ Visits turn t' t := by
  intro hback
  obtain ⟨e, he, hstop⟩ := h.of_visits hv
  obtain rfl := (Visits.back ht hback he).of_last (by simp [hstop])
  rw [ht] at hstop
  cases hstop

/-! ### The state after a number of turns -/

section

variable {next : S → S}

theorem visits_iterate {n : ℕ} (h : ∀ i < n, turn (next^[i] s) = .again (next^[i + 1] s)) :
    ∀ m ≤ n, Visits turn (next^[m] s) (next^[n] s) := by
  induction n with
  | zero =>
    intro m hm
    obtain rfl : m = 0 := by omega
    exact .refl
  | succ n ih =>
    intro m hm
    rcases Nat.lt_or_eq_of_le hm with hlt | rfl
    · exact (ih (fun i hi => h i (by omega)) m (by omega)).tail (h n (Nat.lt_succ_self n))
    · exact .refl

/-- **A loop whose next state is known** ends if and only if it comes to a state where it stops. -/
theorem ends_iterate_iff (hnext : ∀ t t', turn t = .again t' → t' = next t) :
    Ends turn s r ↔ ∃ n, turn (next^[n] s) = .stop r ∧ ∀ i < n, turn (next^[i] s) = .again (next^[i + 1] s) := by
  constructor
  · rintro ⟨t, hv, hstop⟩
    have hat : ∃ n, next^[n] s = t ∧ ∀ i < n, turn (next^[i] s) = .again (next^[i + 1] s) := by
      clear hstop
      induction hv with
      | refl => exact ⟨0, rfl, fun _ h => absurd h (Nat.not_lt_zero _)⟩
      | tail _ hturn ih =>
        obtain ⟨n, rfl, hn⟩ := ih
        obtain rfl := hnext _ _ hturn
        refine ⟨n + 1, Function.iterate_succ_apply' next n s, fun i hi => ?_⟩
        rcases Nat.lt_succ_iff_lt_or_eq.mp hi with hlt | rfl
        · exact hn i hlt
        · rw [Function.iterate_succ_apply']
          exact hturn
    obtain ⟨n, rfl, hn⟩ := hat
    exact ⟨n, hstop, hn⟩
  · rintro ⟨n, hstop, hn⟩
    exact ⟨next^[n] s, visits_iterate hn 0 (Nat.zero_le n), hstop⟩

end

/-- **Finitely many states.** -/
theorem ends_iff_never_back [Finite S] : (∃ r, Ends turn s r) ↔
    ∀ t, Visits turn s t → turn t ≠ .fault ∧ ∀ t', turn t = .again t' → ¬ Visits turn t' t := by
  constructor
  · rintro ⟨r, h⟩ t hv
    exact ⟨h.not_fault hv, fun t' ht => h.never_back hv ht⟩
  · intro h
    by_contra hnot
    let next : S → S := fun t => match turn t with
      | .again t' => t'
      | _ => t
    have hagain : ∀ t, Visits turn s t → turn t = .again (next t) := by
      intro t hv
      rcases hturn : turn t with t' | r | _
      · simp only [next, hturn]
      · exact absurd ⟨r, t, hv, hturn⟩ hnot
      · exact absurd hturn (h t hv).1
    have hvisits : ∀ n, Visits turn s (next^[n] s) := by
      intro n
      induction n with
      | zero => exact .refl
      | succ n ih =>
        rw [Function.iterate_succ_apply']
        exact ih.tail (hagain _ ih)
    have hrun : ∀ n, turn (next^[n] s) = .again (next^[n + 1] s) := by
      intro n
      rw [Function.iterate_succ_apply']
      exact hagain _ (hvisits n)
    -- two numbers of turns lead to the same state
    obtain ⟨i, j, heq, hne⟩ := Function.not_injective_iff.mp (not_injective_infinite_finite fun n => next^[n] s)
    rcases Nat.lt_or_gt_of_ne hne with hlt | hlt
    · refine (h _ (hvisits i)).2 _ (hrun i) ?_
      have hback := visits_iterate (fun k _ => hrun k) (i + 1) (show i + 1 ≤ j from hlt)
      rwa [← heq] at hback
    · refine (h _ (hvisits j)).2 _ (hrun j) ?_
      have hback := visits_iterate (fun k _ => hrun k) (j + 1) (show j + 1 ≤ i from hlt)
      rwa [heq] at hback

end DobieStation.Lib.Loops
