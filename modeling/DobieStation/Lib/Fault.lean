import Mathlib.Logic.Basic
import Mathlib.Tactic.Common

/-! # Programs that may fault

A program is a `StateT σ (Except ε)`: it ends with a result or stops with a fault. `Meets m s Q E` says
that from the state `s` the result and the state after it meet `Q`, or the fault meets `E`. The rules for
the ways of building a program are equivalences; `upTo` is a loop over the numbers below a bound. -/

namespace DobieStation.Lib.Fault

variable {σ ε α β : Type}

/-- The result and the state after it meet `Q`, or the fault meets `E`. -/
def Meets (m : StateT σ (Except ε) α) (s : σ) (Q : α → σ → Prop) (E : ε → Prop) : Prop :=
  (∀ a s', m.run s = .ok (a, s') → Q a s') ∧ ∀ e, m.run s = .error e → E e

theorem meets_of_ok {m : StateT σ (Except ε) α} {s s' : σ} {a : α} {Q : α → σ → Prop}
    {E : ε → Prop} (h : m.run s = .ok (a, s')) : Meets m s Q E ↔ Q a s' := by
  unfold Meets
  rw [h]
  constructor
  · rintro ⟨hq, -⟩
    exact hq a s' rfl
  · intro hq
    exact ⟨fun _ _ hr => (by cases hr; exact hq), fun _ hr => (by cases hr)⟩

theorem meets_of_error {m : StateT σ (Except ε) α} {s : σ} {e : ε} {Q : α → σ → Prop}
    {E : ε → Prop} (h : m.run s = .error e) : Meets m s Q E ↔ E e := by
  unfold Meets
  rw [h]
  constructor
  · rintro ⟨-, he⟩
    exact he e rfl
  · intro he
    exact ⟨fun _ _ hr => (by cases hr), fun _ hr => (by cases hr; exact he)⟩

theorem Meets.mono {m : StateT σ (Except ε) α} {s : σ} {Q Q' : α → σ → Prop} {E E' : ε → Prop}
    (h : Meets m s Q E) (hQ : ∀ a s', Q a s' → Q' a s') (hE : ∀ e, E e → E' e) :
    Meets m s Q' E' :=
  ⟨fun a s' hr => hQ a s' (h.1 a s' hr), fun e hr => hE e (h.2 e hr)⟩

@[simp]
theorem meets_pure {a : α} {s : σ} {Q : α → σ → Prop} {E : ε → Prop} :
    Meets (pure a : StateT σ (Except ε) α) s Q E ↔ Q a s := meets_of_ok rfl

@[simp]
theorem meets_bind {m : StateT σ (Except ε) α} {f : α → StateT σ (Except ε) β} {s : σ}
    {Q : β → σ → Prop} {E : ε → Prop} :
    Meets (m >>= f) s Q E ↔ Meets m s (fun a s' => Meets (f a) s' Q E) E := by
  rcases hm : m.run s with e | ⟨a, s'⟩
  · have hr : (m >>= f).run s = .error e := by
      rw [StateT.run_bind, hm]
      rfl
    rw [meets_of_error hm, meets_of_error hr]
  · have hr : (m >>= f).run s = (f a).run s' := by
      rw [StateT.run_bind, hm]
      rfl
    rw [meets_of_ok hm]
    unfold Meets
    rw [hr]

theorem Meets.bind {m : StateT σ (Except ε) α} {f : α → StateT σ (Except ε) β} {s : σ}
    {R : α → σ → Prop} {Q : β → σ → Prop} {E : ε → Prop} (hm : Meets m s R E)
    (hf : ∀ a s', R a s' → Meets (f a) s' Q E) : Meets (m >>= f) s Q E :=
  meets_bind.2 (hm.mono hf fun _ he => he)

@[simp]
theorem meets_get {s : σ} {Q : σ → σ → Prop} {E : ε → Prop} :
    Meets (get : StateT σ (Except ε) σ) s Q E ↔ Q s s := meets_of_ok rfl

@[simp]
theorem meets_modify {s : σ} {f : σ → σ} {Q : PUnit → σ → Prop} {E : ε → Prop} :
    Meets (modify f : StateT σ (Except ε) PUnit) s Q E ↔ Q ⟨⟩ (f s) := meets_of_ok rfl

@[simp]
theorem meets_throw {e : ε} {s : σ} {Q : α → σ → Prop} {E : ε → Prop} :
    Meets (throw e : StateT σ (Except ε) α) s Q E ↔ E e := meets_of_error rfl

theorem meets_ite {c : Prop} [Decidable c] {m m' : StateT σ (Except ε) α} {s : σ}
    {Q : α → σ → Prop} {E : ε → Prop} :
    Meets (if c then m else m') s Q E ↔ (c → Meets m s Q E) ∧ (¬ c → Meets m' s Q E) := by
  split_ifs with h <;> simp [h]

/-! ### A loop over the numbers below a bound -/

/-- `body first`, `body (first + 1)` and so on, `n` times. -/
def upTo (body : ℕ → StateT σ (Except ε) PUnit) : ℕ → ℕ → StateT σ (Except ε) PUnit
  | 0, _ => pure ⟨⟩
  | n + 1, first => do
    body first
    upTo body n (first + 1)

/-- The invariant of a loop is about the number that it has come to. -/
theorem meets_upTo {I : ℕ → σ → Prop} {E : ε → Prop} {b : ℕ → StateT σ (Except ε) PUnit} :
    ∀ (n first : ℕ) {s : σ},
      (∀ i s, first ≤ i → i < first + n → I i s → Meets (b i) s (fun _ s' => I (i + 1) s') E) →
      I first s → Meets (upTo b n first) s (fun _ s' => I (first + n) s') E
  | 0, first, s, _, h => meets_pure.2 h
  | n + 1, first, s, hbody, h => by
    rw [upTo, meets_bind]
    refine (hbody first s (Nat.le_refl first) (by omega) h).mono (fun _ s' h' => ?_) fun _ he => he
    have hrest := meets_upTo n (first + 1) (I := I) (E := E) (b := b)
      (fun i s hle hlt => hbody i s (by omega) (by omega)) h'
    rwa [show first + (n + 1) = first + 1 + n by omega]

/-! ### Keeping an invariant -/

/-- The program keeps `I`, and its faults meet `E`. -/
def Keeps (I : σ → Prop) (E : ε → Prop) (m : StateT σ (Except ε) α) : Prop :=
  ∀ s, I s → Meets m s (fun _ s' => I s') E

section

variable {I : σ → Prop} {E : ε → Prop}

theorem keeps_pure (a : α) : Keeps I E (pure a : StateT σ (Except ε) α) :=
  fun _ h => meets_pure.2 h

theorem keeps_modify {f : σ → σ} (h : ∀ s, I s → I (f s)) :
    Keeps I E (modify f : StateT σ (Except ε) PUnit) :=
  fun s hs => meets_modify.2 (h s hs)

theorem keeps_throw {e : ε} (h : E e) : Keeps I E (throw e : StateT σ (Except ε) α) :=
  fun _ _ => meets_throw.2 h

theorem keeps_get : Keeps I E (get : StateT σ (Except ε) σ) := fun _ h => meets_get.2 h

theorem keeps_bind {m : StateT σ (Except ε) α} {f : α → StateT σ (Except ε) β} (hm : Keeps I E m)
    (hf : ∀ a, Keeps I E (f a)) : Keeps I E (m >>= f) := by
  intro s hs
  rw [meets_bind]
  exact (hm s hs).mono (fun a s' hs' => hf a s' hs') fun _ he => he

/-- A program whose result meets `P`. -/
theorem keeps_bind_of {P : α → Prop} {m : StateT σ (Except ε) α} {f : α → StateT σ (Except ε) β}
    (hm : ∀ s, I s → Meets m s (fun a s' => P a ∧ I s') E) (hf : ∀ a, P a → Keeps I E (f a)) :
    Keeps I E (m >>= f) := by
  intro s hs
  rw [meets_bind]
  exact (hm s hs).mono (fun a s' hs' => hf a hs'.1 s' hs'.2) fun _ he => he

theorem Keeps.meets_bind {m : StateT σ (Except ε) α} {f : α → StateT σ (Except ε) β} {s : σ}
    {Q : β → σ → Prop} (hm : Keeps I E m) (hs : I s) (hf : ∀ a s', I s' → Meets (f a) s' Q E) :
    Meets (m >>= f) s Q E :=
  Fault.meets_bind.2 ((hm s hs).mono (fun a s' hs' => hf a s' hs') fun _ he => he)

theorem keeps_ite {c : Prop} [Decidable c] {m m' : StateT σ (Except ε) α} (h : c → Keeps I E m)
    (h' : ¬ c → Keeps I E m') : Keeps I E (if c then m else m') := by
  split_ifs with hc
  · exact h hc
  · exact h' hc

theorem keeps_upTo {body : ℕ → StateT σ (Except ε) PUnit} (hbody : ∀ i, Keeps I E (body i)) (n first : ℕ) :
    Keeps I E (upTo body n first) :=
  fun _ hs => meets_upTo (I := fun _ => I) n first (fun i s' _ _ h => hbody i s' h) hs

end

/-! ### Programs whose end is known -/

/-- From `s` the program ends without a fault, with the result `a` and in the state `s'`. -/
def Gives (m : StateT σ (Except ε) α) (s : σ) (a : α) (s' : σ) : Prop := m.run s = .ok (a, s')

section

variable {s s' s'' : σ} {a : α} {b : β}

theorem gives_pure : Gives (pure a : StateT σ (Except ε) α) s a s := rfl

theorem gives_get : Gives (get : StateT σ (Except ε) σ) s s s := rfl

theorem gives_modify {f : σ → σ} : Gives (modify f : StateT σ (Except ε) PUnit) s ⟨⟩ (f s) := rfl

theorem Gives.bind {m : StateT σ (Except ε) α} {f : α → StateT σ (Except ε) β} (h : Gives m s a s')
    (h' : Gives (f a) s' b s'') : Gives (m >>= f) s b s'' := by
  unfold Gives at h h' ⊢
  rw [StateT.run_bind, h]
  exact h'

/-- A program that cannot stop ends. -/
theorem Meets.gives {m : StateT σ (Except ε) α} {Q : α → σ → Prop} (h : Meets m s Q fun _ => False) :
    ∃ a s', Gives m s a s' ∧ Q a s' := by
  rcases hm : m.run s with e | ⟨a, s'⟩
  · exact (h.2 e hm).elim
  · exact ⟨a, s', hm, h.1 a s' hm⟩

/-- A loop, with the state that each turn leaves. -/
theorem gives_upTo {d : ℕ → StateT σ (Except ε) PUnit} {g : ℕ → σ} :
    ∀ n first, (∀ i, first ≤ i → i < first + n → Gives (d i) (g i) ⟨⟩ (g (i + 1))) →
      Gives (upTo d n first) (g first) ⟨⟩ (g (first + n))
  | 0, _, _ => gives_pure
  | n + 1, first, h => by
    refine (h first (Nat.le_refl first) (by omega)).bind ?_
    have hrest := gives_upTo n (first + 1) fun i h1 h2 => h i (by omega) (by omega)
    rwa [show first + (n + 1) = first + 1 + n by omega]

theorem gives_mapM_cons {f : α → StateT σ (Except ε) β} {l : List α} {bs : List β}
    (h : Gives (f a) s b s') (h' : Gives (l.mapM f) s' bs s'') : Gives ((a :: l).mapM f) s (b :: bs) s'' := by
  rw [List.mapM_cons]
  exact h.bind (h'.bind gives_pure)

theorem gives_mapM_append {f : α → StateT σ (Except ε) β} {l l' : List α} {bs bs' : List β}
    (h : Gives (l.mapM f) s bs s') (h' : Gives (l'.mapM f) s' bs' s'') :
    Gives ((l ++ l').mapM f) s (bs ++ bs') s'' := by
  rw [List.mapM_append]
  exact h.bind (h'.bind gives_pure)

/-- From `s` the program stops with the fault `e`. -/
def Stops (m : StateT σ (Except ε) α) (s : σ) (e : ε) : Prop := m.run s = .error e

theorem Stops.bind {m : StateT σ (Except ε) α} {f : α → StateT σ (Except ε) β} {e : ε} (h : Stops m s e) :
    Stops (m >>= f) s e := by
  unfold Stops at h ⊢
  rw [StateT.run_bind, h]
  rfl

theorem Gives.stops_bind {m : StateT σ (Except ε) α} {f : α → StateT σ (Except ε) β} {e : ε}
    (h : Gives m s a s') (h' : Stops (f a) s' e) : Stops (m >>= f) s e := by
  unfold Gives at h
  unfold Stops at h' ⊢
  rw [StateT.run_bind, h]
  exact h'

end

end DobieStation.Lib.Fault
