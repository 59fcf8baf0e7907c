import Mathlib.Data.List.Induction
import Mathlib.Data.List.Nodup
import Mathlib.Order.Lattice

/-! # Pictures with depth

Two general facts. Where each step of a run goes to one cell and leaves the others alone, what a cell is
after the run is a matter of its own steps (`Cells.run`). And where a cell keeps what is nearest, what
it shows after a list of candidates is the nearest one of them, the last or the first of several
(`shown_foldl`), so that the order of the list is no matter if the depths differ (`foldl_keep_perm`). -/

namespace DobieStation.Lib.DepthBuffer

/-! ### Cells that do not interfere -/

section
variable {M A I V : Type*}

/-- A step changes the cell it goes to as `act` says, and no other one that is looked at. -/
structure Cells (step : M → A → Option M) (ok : A → Prop) (place : A → I) (view : I → M → V)
    (act : V → A → V) (seen : I → Prop) : Prop where
  runs : ∀ m a, ok a → ∃ m', step m a = some m'
  hit : ∀ m a m', ok a → step m a = some m' → view (place a) m' = act (view (place a) m) a
  miss : ∀ m a m' i, ok a → step m a = some m' → seen i → i ≠ place a → view i m' = view i m

/-- **The run of one cell.** -/
theorem Cells.run [DecidableEq I] {step : M → A → Option M} {ok : A → Prop} {place : A → I}
    {view : I → M → V} {act : V → A → V} {seen : I → Prop}
    (h : Cells step ok place view act seen) {l : List A} (hl : ∀ a ∈ l, ok a) (m : M) :
    ∃ m', l.foldlM step m = some m' ∧ ∀ i, seen i →
      view i m' = (l.filter fun a => place a = i).foldl act (view i m) := by
  induction l generalizing m with
  | nil => exact ⟨m, rfl, fun _ _ => rfl⟩
  | cons a l ih =>
    have ha := hl a List.mem_cons_self
    obtain ⟨m₁, h₁⟩ := h.runs m a ha
    obtain ⟨m', hrun, hview⟩ := ih (fun b hb => hl b (List.mem_cons_of_mem a hb)) m₁
    refine ⟨m', ?_, fun i hi => ?_⟩
    · rw [List.foldlM_cons, h₁]
      exact hrun
    · rw [hview i hi]
      by_cases hp : place a = i
      · rw [List.filter_cons_of_pos (by rw [decide_eq_true_eq]; exact hp), List.foldl_cons, ← hp,
          h.hit m a m₁ ha h₁]
      · rw [List.filter_cons_of_neg (by rw [decide_eq_true_eq]; exact hp),
          h.miss m a m₁ i ha h₁ hi (Ne.symm hp)]

end

/-! ### The nearest -/

section
variable {Z C : Type*} [LinearOrder Z]

/-- What is at the depth `b` covers what is at `a`. -/
def Passes (strict : Bool) (a b : Z) : Prop := if strict then a < b else a ≤ b

instance (strict : Bool) (a b : Z) : Decidable (Passes strict a b) :=
  inferInstanceAs (Decidable (if strict then a < b else a ≤ b))

def keep (strict : Bool) (p q : Z × C) : Z × C := if Passes strict p.1 q.1 then q else p

variable {strict : Bool} {a b c : Z}

theorem Passes.trans (h : Passes strict a b) (h' : Passes strict b c) : Passes strict a c := by
  cases strict
  · exact le_trans h h'
  · exact lt_trans h h'

/-- What does not cover it is covered by whatever covers it. -/
theorem covers (h : ¬ Passes strict a c) (h' : Passes strict a b) : Passes strict c b := by
  cases strict
  · exact (le_of_lt (not_le.mp h)).trans h'
  · exact lt_of_le_of_lt (not_lt.mp h) h'

/-- What is shown of `p` and the candidates that follow it. -/
inductive Shown (strict : Bool) (p : Z × C) (l : List (Z × C)) : Z × C → Prop where
  | kept (h : ∀ q ∈ l, ¬ Passes strict p.1 q.1) : Shown strict p l p
  | covered (pre post : List (Z × C)) (q : Z × C) (hl : l = pre ++ q :: post)
      (hp : Passes strict p.1 q.1) (hpre : ∀ a ∈ pre, Passes strict a.1 q.1)
      (hpost : ∀ a ∈ post, ¬ Passes strict q.1 a.1) : Shown strict p l q

/-- **The nearest candidate is shown.** -/
theorem shown_foldl (p : Z × C) (l : List (Z × C)) :
    Shown strict p l (l.foldl (keep strict) p) := by
  induction l using List.reverseRecOn with
  | nil => exact .kept fun q hq => absurd hq List.not_mem_nil
  | append_singleton l b ih =>
    rw [List.foldl_append, List.foldl_cons, List.foldl_nil]
    generalize l.foldl (keep strict) p = r at ih
    unfold keep
    split_ifs with hb
    · cases ih with
      | kept h => exact .covered l [] b rfl hb (fun a ha => covers (h a ha) hb) (by simp)
      | covered pre post _ hl hp hpre hpost =>
        refine .covered l [] b rfl (hp.trans hb) (fun a ha => ?_) (by simp)
        rw [hl, List.mem_append, List.mem_cons] at ha
        rcases ha with ha | rfl | ha
        · exact (hpre a ha).trans hb
        · exact hb
        · exact covers (hpost a ha) hb
    · cases ih with
      | kept h =>
        refine .kept fun q hq => ?_
        rw [List.mem_append, List.mem_singleton] at hq
        rcases hq with hq | rfl
        · exact h q hq
        · exact hb
      | covered pre post _ hl hp hpre hpost =>
        refine .covered pre (post ++ [b]) _ (by rw [hl, List.append_assoc]; rfl) hp hpre
          fun a ha => ?_
        rw [List.mem_append, List.mem_singleton] at ha
        rcases ha with ha | rfl
        · exact hpost a ha
        · exact hb

theorem Passes.le (h : Passes strict a b) : a ≤ b := by
  cases strict
  · exact h
  · exact le_of_lt h

theorem not_passes (h : ¬ Passes strict a b) : b ≤ a := by
  cases strict
  · exact le_of_lt (not_le.mp h)
  · exact not_lt.mp h

/-- What is shown is one of them, and nothing is nearer. -/
theorem Shown.mem {p r : Z × C} {l : List (Z × C)} (h : Shown strict p l r) : r ∈ p :: l := by
  cases h with
  | kept => exact List.mem_cons_self
  | covered pre post q hl => exact List.mem_cons_of_mem p (hl ▸ by simp)

theorem Shown.nearest {p r : Z × C} {l : List (Z × C)} (h : Shown strict p l r) :
    ∀ q ∈ p :: l, q.1 ≤ r.1 := by
  intro q hq
  rw [List.mem_cons] at hq
  cases h with
  | kept h =>
    rcases hq with rfl | hq
    · exact le_rfl
    · exact not_passes (h q hq)
  | covered pre post r hl hp hpre hpost =>
    rcases hq with rfl | hq
    · exact hp.le
    · rw [hl, List.mem_append, List.mem_cons] at hq
      rcases hq with hq | rfl | hq
      · exact (hpre q hq).le
      · exact le_rfl
      · exact not_passes (hpost q hq)

/-- **The order is no matter** where the depths differ, not even which of two comparisons is made. -/
theorem foldl_keep_perm {p : Z × C} {l l' : List (Z × C)} {strict' : Bool} (h : l.Perm l')
    (hd : ((p :: l).map Prod.fst).Nodup) :
    l.foldl (keep strict) p = l'.foldl (keep strict') p := by
  have h1 : Shown strict p l (l.foldl (keep strict) p) := shown_foldl p l
  have h2 : Shown strict' p l' (l'.foldl (keep strict') p) := shown_foldl p l'
  generalize l.foldl (keep strict) p = r at h1
  generalize l'.foldl (keep strict') p = r' at h2
  have hmem : r' ∈ p :: l := (h.symm.cons p).subset h2.mem
  have hmem' : r ∈ p :: l' := (h.cons p).subset h1.mem
  have hdepth : r.1 = r'.1 := le_antisymm (h2.nearest r hmem') (h1.nearest r' hmem)
  exact List.inj_on_of_nodup_map hd h1.mem hmem hdepth

end

end DobieStation.Lib.DepthBuffer
