import Mathlib.Data.List.Basic
import Mathlib.Tactic.Common

/-! # Programs that write programs

An `Emit` is a program that reads and writes a state, adds instructions to a code, and may stop without a
result. The code runs later, on a machine. `Wp` follows both at a time: if the program is run in the state
`s`, and what it writes is run on the machine `m`, then `Q` holds of the result and of what both are then.
There is one rule for each way of building such a program. -/

namespace DobieStation.Lib.Staged

variable {σ ι μ α β : Type}

/-! ### The machine -/

/-- The instructions in their order; one may go forward over some of those that follow it. -/
def run (exec : ι → μ → Option (μ × ℕ)) : ℕ → List ι → μ → Option μ
  | 0, [], m => some m
  | _ + 1, [], _ => none
  | 0, i :: code, m => (exec i m).bind fun r => run exec r.2 code r.1
  | n + 1, _ :: code, m => run exec n code m

section
variable {exec : ι → μ → Option (μ × ℕ)}

theorem run_cons {i : ι} {code : List ι} {n : ℕ} {m m' : μ} (h : exec i m = some (m', n)) :
    run exec 0 (i :: code) m = run exec n code m' := by
  rw [run, h]
  rfl

/-- What goes forward within the first part of a code is followed by the second part. -/
theorem run_append {code code' : List ι} {n : ℕ} {m m' : μ} (h : run exec n code m = some m') :
    run exec n (code ++ code') m = run exec 0 code' m' := by
  induction code generalizing n m with
  | nil =>
    cases n with
    | zero =>
      cases h
      rfl
    | succ n => cases h
  | cons i code ih =>
    cases n with
    | zero =>
      rw [run] at h
      obtain ⟨r, hr, h⟩ := Option.bind_eq_some_iff.mp h
      rw [List.cons_append, run, hr, Option.bind_some]
      exact ih h
    | succ n => exact ih h

end

/-! ### The programs -/

/-- A result, a state and the code that is added. -/
def Emit (σ ι α : Type) := σ → Option (α × σ × List ι)

namespace Emit

instance : Monad (Emit σ ι) where
  pure a := fun s => some (a, s, [])
  bind c k := fun s => (c s).bind fun r =>
    (k r.1 r.2.1).map fun r' => (r'.1, r'.2.1, r.2.2 ++ r'.2.2)

def emit (i : ι) : Emit σ ι Unit := fun s => some ((), s, [i])

/-- Several instructions at a time. -/
def emits (code : List ι) : Emit σ ι Unit := fun s => some ((), s, code)

def get : Emit σ ι σ := fun s => some (s, s, [])

def modify (f : σ → σ) : Emit σ ι Unit := fun s => some ((), f s, [])

def stop : Emit σ ι α := fun _ => none

end Emit

open Emit

/-- The program ends, its code runs, and `Q` holds then. -/
def Wp (exec : ι → μ → Option (μ × ℕ)) (c : Emit σ ι α) (s : σ) (m : μ) (Q : α → σ → μ → Prop) :
    Prop :=
  ∃ a s' code m', c s = some (a, s', code) ∧ run exec 0 code m = some m' ∧ Q a s' m'

section
variable {exec : ι → μ → Option (μ × ℕ)} {c : Emit σ ι α} {k : α → Emit σ ι β} {s : σ} {m : μ}
  {Q Q' : α → σ → μ → Prop}

theorem Wp.mono (h : Wp exec c s m Q) (hQ : ∀ a s' m', Q a s' m' → Q' a s' m') :
    Wp exec c s m Q' := by
  obtain ⟨a, s', code, m', hc, hr, hq⟩ := h
  exact ⟨a, s', code, m', hc, hr, hQ a s' m' hq⟩

theorem Wp.pure {a : α} (h : Q a s m) : Wp exec (pure a : Emit σ ι α) s m Q :=
  ⟨a, s, [], m, rfl, rfl, h⟩

theorem Wp.bind {R : β → σ → μ → Prop}
    (h : Wp exec c s m fun a s' m' => Wp exec (k a) s' m' R) : Wp exec (c >>= k) s m R := by
  obtain ⟨a, s', code, m', hc, hr, b, s'', code', m'', hk, hr', hq⟩ := h
  refine ⟨b, s'', code ++ code', m'', ?_, (run_append hr).trans hr', hq⟩
  change (c s).bind _ = _
  rw [hc, Option.bind_some, hk]
  rfl

/-- Two programs at a time. -/
theorem Wp.bind_assoc {γ : Type} {l : β → Emit σ ι γ} {R : γ → σ → μ → Prop}
    (h : Wp exec (c >>= k) s m fun b s' m' => Wp exec (l b) s' m' R) :
    Wp exec (c >>= fun a => k a >>= l) s m R := by
  obtain ⟨b, s', code, m', hck, hr, b', s'', code', m'', hl, hr', hq⟩ := h
  change (c s).bind _ = _ at hck
  obtain ⟨⟨a, s₁, code₁⟩, hc, hck⟩ := Option.bind_eq_some_iff.mp hck
  obtain ⟨⟨b₁, s₂, code₂⟩, hk, heq⟩ := Option.map_eq_some_iff.mp hck
  cases heq
  refine ⟨b', s'', code₁ ++ (code₂ ++ code'), m'', ?_, ?_, hq⟩
  · change (c s).bind _ = _
    rw [hc, Option.bind_some]
    change Option.map _ ((k a s₁).bind _) = _
    rw [hk, Option.bind_some]
    change Option.map _ (Option.map _ (l b₁ s₂)) = _
    rw [hl]
    rfl
  · rw [← List.append_assoc, run_append hr, hr']

theorem Wp.emit {i : ι} {m' : μ} {R : Unit → σ → μ → Prop} (h : exec i m = some (m', 0))
    (hq : R () s m') : Wp exec (Emit.emit i : Emit σ ι Unit) s m R := by
  refine ⟨(), s, [i], m', rfl, ?_, hq⟩
  rw [run, h]
  rfl

theorem Wp.emits {code : List ι} {m' : μ} {R : Unit → σ → μ → Prop}
    (h : run exec 0 code m = some m') (hq : R () s m') :
    Wp exec (Emit.emits code : Emit σ ι Unit) s m R :=
  ⟨(), s, code, m', rfl, h, hq⟩

theorem Wp.get {R : σ → σ → μ → Prop} (h : R s s m) : Wp exec (Emit.get : Emit σ ι σ) s m R :=
  ⟨s, s, [], m, rfl, rfl, h⟩

theorem Wp.modify {f : σ → σ} {R : Unit → σ → μ → Prop} (h : R () (f s) m) :
    Wp exec (Emit.modify f : Emit σ ι Unit) s m R :=
  ⟨(), f s, [], m, rfl, rfl, h⟩

theorem Wp.ite {p : Prop} [Decidable p] {c' : Emit σ ι α} (h : p → Wp exec c s m Q)
    (h' : ¬ p → Wp exec c' s m Q) : Wp exec (if p then c else c') s m Q := by
  by_cases hp : p
  · rw [if_pos hp]
    exact h hp
  · rw [if_neg hp]
    exact h' hp

/-- A program that writes nothing, and then one that writes nothing. -/
theorem bind_silent {a : α} {b : β} {s' s'' : σ} (h : c s = some (a, s', []))
    (h' : k a s' = some (b, s'', [])) : (c >>= k) s = some (b, s'', []) := by
  change (c s).bind _ = _
  rw [h, Option.bind_some, h']
  rfl

/-- A program that writes nothing, between two parts of a code. -/
theorem Wp.emits_silent_emits {a : α} {s' : σ} {code code' : List ι} {m' : μ} {R : Unit → σ → μ → Prop}
    (h : c s = some (a, s', [])) (hrun : run exec 0 (code ++ code') m = some m') (hq : R () s' m') :
    Wp exec (do Emit.emits code; let _ ← c; Emit.emits code') s m R := by
  refine ⟨(), s', code ++ code', m', ?_, hrun, hq⟩
  have hc : (do let _ ← c; Emit.emits code' : Emit σ ι Unit) s = some ((), s', code') := by
    change (c s).bind _ = _
    rw [h, Option.bind_some]
    rfl
  change Option.map _ ((do let _ ← c; Emit.emits code' : Emit σ ι Unit) s) = _
  rw [hc]
  rfl

/-- **Loops**: what every turn keeps. `I` also says which elements are done. -/
theorem Wp.forM {γ : Type} {f : γ → Emit σ ι Unit} (I : List γ → σ → μ → Prop) {l : List γ}
    (hstep : ∀ done x todo s m, l = done ++ x :: todo → I done s m →
      Wp exec (f x) s m fun _ s' m' => I (done ++ [x]) s' m') (h : I [] s m) :
    Wp exec (l.forM f) s m fun _ s' m' => I l s' m' := by
  suffices hrest : ∀ todo done s m, l = done ++ todo → I done s m →
      Wp exec (todo.forM f) s m fun _ s' m' => I l s' m' from hrest l [] s m rfl h
  intro todo
  induction todo with
  | nil =>
    intro done s m hl hi
    rw [List.append_nil] at hl
    subst hl
    exact Wp.pure hi
  | cons x todo ih =>
    intro done s m hl hi
    refine Wp.bind ((hstep done x todo s m hl hi).mono fun _ s' m' hi' => ?_)
    exact ih (done ++ [x]) s' m' (by rw [hl, List.append_assoc]; rfl) hi'

end

end DobieStation.Lib.Staged
