import DobieStation.Lib.Relational

/-! # Programs over an interface

`Code Reply α` is a program that may only make calls: each operation `o` of the interface answers
with a `Reply o`. Such a program is run on any machine that performs the operations (`Code.run`), and
what every operation keeps, the program keeps: `within_run` for a relation between the states before
and after, `lockstep_run` for two machines side by side. So a property of a machine is proved of its
operations alone, whatever the programs. -/

namespace DobieStation.Lib.Interaction

open DobieStation.Lib.Hoare DobieStation.Lib.Relational

inductive Code {Op : Type} (Reply : Op → Type) (α : Type) : Type where
  | ret (a : α)
  | call (o : Op) (k : Reply o → Code Reply α)

section
variable {Op : Type} {Reply : Op → Type} {σ α β : Type}

def Code.bind : Code Reply α → (α → Code Reply β) → Code Reply β
  | .ret a, f => f a
  | .call o k, f => .call o fun r => (k r).bind f

instance : Monad (Code Reply) where
  pure := .ret
  bind := .bind

/-- One call. -/
def ask (o : Op) : Code Reply (Reply o) := .call o .ret

/-- The run of a program on a machine that performs the operations. -/
def Code.run (perform : ∀ o, StateT σ Option (Reply o)) : Code Reply α → StateT σ Option α
  | .ret a => pure a
  | .call o k => perform o >>= fun r => (k r).run perform

variable (perform : ∀ o, StateT σ Option (Reply o))

@[simp] theorem run_pure (a : α) : (pure a : Code Reply α).run perform = pure a := rfl

@[simp] theorem run_bind (c : Code Reply α) (f : α → Code Reply β) :
    (c >>= f).run perform = c.run perform >>= fun a => (f a).run perform := by
  induction c with
  | ret a => rfl
  | call o k ih =>
    change (perform o >>= fun r => ((k r) >>= f).run perform) = _
    rw [Code.run, bind_assoc]
    exact congrArg (perform o >>= ·) (funext ih)

@[simp] theorem run_ask (o : Op) : (ask o : Code Reply (Reply o)).run perform = perform o :=
  bind_pure (perform o)

theorem run_ite (p : Prop) [Decidable p] (c c' : Code Reply α) :
    (if p then c else c').run perform = if p then c.run perform else c'.run perform := by
  split_ifs <;> rfl

variable {perform}

/-- What the operations keep. -/
theorem within_run {R : σ → σ → Prop} (hrefl : ∀ s, R s s)
    (htrans : ∀ s s' s'', R s s' → R s' s'' → R s s'') (hop : ∀ o, Within R (perform o))
    (c : Code Reply α) : Within R (c.run perform) := by
  induction c with
  | ret a => exact within_pure hrefl a
  | call o k ih => exact within_bind htrans (hop o) ih

/-- Machines that perform the operations in lockstep run every program in lockstep. -/
theorem lockstep_run {R : σ → σ → Prop} (hop : ∀ o, Lockstep R (perform o)) (c : Code Reply α) :
    Lockstep R (c.run perform) := by
  induction c with
  | ret a => exact lockstep_pure a
  | call o k ih => exact lockstep_bind (hop o) ih

end

end DobieStation.Lib.Interaction
