import DobieStation.Lib.Hoare
import Mathlib.Data.Option.Basic

/-! # Two runs side by side

`Lockstep R m`: started in two states that `R` relates, the program stops in both without a result,
or ends in both with the same result and in states that are related again. There is one rule for
each way of building a program, and `lockstep_foldlM` for a run of many steps. -/

namespace DobieStation.Lib.Relational

open DobieStation.Lib.Hoare

variable {σ α β : Type} {R : σ → σ → Prop}

/-- Both without an end, or both with the same result in related states. -/
def Alike (R : σ → σ → Prop) (x y : Option (α × σ)) : Prop :=
  Option.Rel (fun r r' => r.1 = r'.1 ∧ R r.2 r'.2) x y

def Lockstep (R : σ → σ → Prop) (m : StateT σ Option α) : Prop :=
  ∀ s s', R s s' → Alike R (m.run s) (m.run s')

theorem alike_some {a : α} {s s' : σ} (h : R s s') : Alike R (some (a, s)) (some (a, s')) :=
  .some ⟨rfl, h⟩

/-- The same run is alike itself, if it stays where `R` is reflexive. -/
theorem alike_refl (hrefl : ∀ s, R s s) : ∀ x : Option (α × σ), Alike R x x
  | none => .none
  | some r => .some ⟨rfl, hrefl r.2⟩

theorem lockstep_pure (a : α) : Lockstep R (pure a) := fun _ _ h => alike_some h

theorem lockstep_failure : Lockstep R (failure : StateT σ Option α) := fun _ _ _ => .none

theorem lockstep_modify {f : σ → σ} (hf : ∀ s s', R s s' → R (f s) (f s')) :
    Lockstep R (modify f : StateT σ Option PUnit) := fun s s' h => alike_some (hf s s' h)

/-- Programs that go on alike: what is bound may depend on what related states have in common. -/
theorem Alike.bind {x y : Option (α × σ)} {f g : α → StateT σ Option β} (h : Alike R x y)
    (hf : ∀ a s s', R s s' → Alike R ((f a).run s) ((g a).run s')) :
    Alike R (x.bind fun r => (f r.1).run r.2) (y.bind fun r => (g r.1).run r.2) := by
  cases h with
  | none => exact .none
  | @some r r' hr =>
    obtain ⟨a, s⟩ := r
    obtain ⟨a', s'⟩ := r'
    obtain ⟨rfl, hs⟩ := hr
    exact hf a s s' hs

theorem lockstep_bind {m : StateT σ Option α} {f : α → StateT σ Option β} (hm : Lockstep R m)
    (hf : ∀ a, Lockstep R (f a)) : Lockstep R (m >>= f) :=
  fun s s' h => (hm s s' h).bind fun a => hf a

/-- Related states give the same program. -/
theorem lockstep_get_bind {f : σ → StateT σ Option β} (hsame : ∀ s s', R s s' → f s = f s')
    (hf : ∀ s, Lockstep R (f s)) : Lockstep R (get >>= f) := by
  intro s s' h
  change Alike R ((f s).run s) ((f s').run s')
  rw [← hsame s s' h]
  exact hf s s s' h

/-- A value that related states have in common. -/
theorem lockstep_reads {p : σ → α} (hp : ∀ s s', R s s' → p s = p s') :
    Lockstep R (do return p (← get)) :=
  lockstep_get_bind (fun s s' h => by rw [hp s s' h]) fun _ => lockstep_pure _

theorem lockstep_ite {c : Prop} [Decidable c] {m m' : StateT σ Option α}
    (h : c → Lockstep R m) (h' : ¬ c → Lockstep R m') : Lockstep R (if c then m else m') := by
  split_ifs with hc
  · exact h hc
  · exact h' hc

theorem lockstep_repeatWhile {body : StateT σ Option Flow} (hb : Lockstep R body) :
    ∀ n count, Lockstep R (repeatWhile body n count)
  | 0, _ => lockstep_pure _
  | n + 1, count => by
    refine lockstep_bind hb fun fl => ?_
    cases fl with
    | next => exact lockstep_repeatWhile hb n (count + 1)
    | last => exact lockstep_pure _
    | stop => exact lockstep_pure _
    | leave => exact lockstep_pure _

/-- **Runs of steps in lockstep** end in related states, or both stop. -/
theorem lockstep_foldlM {A : Type} {step : A → StateT σ Option PUnit} {l : List A}
    (hstep : ∀ a ∈ l, Lockstep R (step a)) {s s' : σ} (h : R s s') :
    Option.Rel R (l.foldlM (fun s a => ((step a).run s).map Prod.snd) s)
      (l.foldlM (fun s a => ((step a).run s).map Prod.snd) s') := by
  induction l generalizing s s' with
  | nil => exact .some h
  | cons a l ih =>
    have ha := hstep a List.mem_cons_self s s' h
    rw [List.foldlM_cons, List.foldlM_cons]
    cases hx : (step a).run s with
    | none =>
      rw [hx] at ha
      cases hy : (step a).run s' with
      | none => exact .none
      | some r =>
        rw [hy] at ha
        cases ha
    | some r =>
      rw [hx] at ha
      cases hy : (step a).run s' with
      | none =>
        rw [hy] at ha
        cases ha
      | some r' =>
        rw [hy] at ha
        cases ha with
        | some hr => exact ih (fun b hb => hstep b (List.mem_cons_of_mem a hb)) hr.2

end DobieStation.Lib.Relational
