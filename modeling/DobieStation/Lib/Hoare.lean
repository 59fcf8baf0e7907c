import Mathlib.Logic.Basic
import Mathlib.Tactic.Common

/-! # Programs over a state that may stop

A program is a `StateT σ Option α`: it reads and writes a state and may stop without a result.
`Ensures m s Q` says that if `m` comes to an end from the state `s`, its result and the state it
leaves meet `Q`. There is one rule for each way of building a program (all of them equivalences, so
that `simp` computes the condition), a rule for a loop of known length (`ensures_repeatWhile`), and
`Within R m`, for a reflexive and transitive relation `R`: whatever `m` does stays within `R`. -/

namespace DobieStation.Lib.Hoare

variable {σ α β : Type}

/-- If the program ends, its result and the state it leaves meet `Q`. -/
def Ensures (m : StateT σ Option α) (s : σ) (Q : α → σ → Prop) : Prop :=
  ∀ a s', m.run s = some (a, s') → Q a s'

theorem Ensures.mono {m : StateT σ Option α} {s : σ} {Q Q' : α → σ → Prop} (h : Ensures m s Q)
    (hQ : ∀ a s', Q a s' → Q' a s') : Ensures m s Q' :=
  fun a s' hr => hQ a s' (h a s' hr)

theorem Ensures.and {m : StateT σ Option α} {s : σ} {Q Q' : α → σ → Prop} (h : Ensures m s Q)
    (h' : Ensures m s Q') : Ensures m s fun a s' => Q a s' ∧ Q' a s' :=
  fun a s' hr => ⟨h a s' hr, h' a s' hr⟩

theorem Ensures.imp {m : StateT σ Option α} {s : σ} {p : Prop} {Q : α → σ → Prop}
    (h : p → Ensures m s Q) : Ensures m s fun a s' => p → Q a s' :=
  fun a s' hr hp => h hp a s' hr

@[simp]
theorem ensures_pure {a : α} {s : σ} {Q : α → σ → Prop} :
    Ensures (pure a : StateT σ Option α) s Q ↔ Q a s := by
  constructor
  · intro h
    exact h a s rfl
  · intro h a' s' hr
    obtain ⟨rfl, rfl⟩ : a = a' ∧ s = s' := by simpa using hr
    exact h

@[simp]
theorem ensures_bind {m : StateT σ Option α} {f : α → StateT σ Option β} {s : σ}
    {Q : β → σ → Prop} :
    Ensures (m >>= f) s Q ↔ Ensures m s fun a s' => Ensures (f a) s' Q := by
  constructor
  · intro h a s' hr b s'' hr'
    refine h b s'' ?_
    rw [StateT.run_bind, hr]
    exact hr'
  · intro h b s'' hr
    rw [StateT.run_bind, Option.bind_eq_bind, Option.bind_eq_some_iff] at hr
    obtain ⟨⟨a, s'⟩, h1, h2⟩ := hr
    exact h a s' h1 b s'' h2

@[simp]
theorem ensures_map {m : StateT σ Option α} {f : α → β} {s : σ} {Q : β → σ → Prop} :
    Ensures (f <$> m) s Q ↔ Ensures m s fun a s' => Q (f a) s' := by
  rw [map_eq_pure_bind, ensures_bind]
  simp only [ensures_pure]

@[simp]
theorem ensures_get {s : σ} {Q : σ → σ → Prop} :
    Ensures (get : StateT σ Option σ) s Q ↔ Q s s := by
  constructor
  · intro h
    exact h s s rfl
  · intro h a s' hr
    obtain ⟨rfl, rfl⟩ : s = a ∧ s = s' := by simpa using hr
    exact h

@[simp]
theorem ensures_set {s s₁ : σ} {Q : PUnit → σ → Prop} :
    Ensures (set s₁ : StateT σ Option PUnit) s Q ↔ Q ⟨⟩ s₁ := by
  constructor
  · intro h
    exact h ⟨⟩ s₁ rfl
  · intro h a s' hr
    obtain rfl : s₁ = s' := by simpa using hr
    exact h

@[simp]
theorem ensures_modify {s : σ} {f : σ → σ} {Q : PUnit → σ → Prop} :
    Ensures (modify f : StateT σ Option PUnit) s Q ↔ Q ⟨⟩ (f s) := by
  constructor
  · intro h
    exact h ⟨⟩ (f s) rfl
  · intro h a s' hr
    obtain rfl : f s = s' := by simpa using hr
    exact h

@[simp]
theorem ensures_failure {s : σ} {Q : α → σ → Prop} :
    Ensures (failure : StateT σ Option α) s Q ↔ True := by
  refine iff_true_intro fun a s' hr => ?_
  cases (show none = some (a, s') from hr)

theorem ensures_ite {c : Prop} [Decidable c] {m m' : StateT σ Option α} {s : σ}
    {Q : α → σ → Prop} :
    Ensures (if c then m else m') s Q ↔ (c → Ensures m s Q) ∧ (¬ c → Ensures m' s Q) := by
  split_ifs with h <;> simp [h]

/-! ### A loop of known length -/

/-- How a turn of a loop ends: go on, count this turn and stop, stop, or leave the function. -/
inductive Flow where
  | next
  | last
  | stop
  | leave
  deriving DecidableEq, Repr

/-- At most `n` turns; `count` turns have been made. -/
def repeatWhile (body : StateT σ Option Flow) : ℕ → ℕ → StateT σ Option (Flow × ℕ)
  | 0, count => pure (.stop, count)
  | n + 1, count => do
    match ← body with
    | .next => repeatWhile body n (count + 1)
    | .last => pure (.stop, count + 1)
    | .stop => pure (.stop, count)
    | .leave => pure (.leave, count)

/-- A loop whose invariant counts the turns left. -/
theorem ensures_repeatWhile {I : ℕ → σ → Prop} {body : StateT σ Option Flow}
    (hbody : ∀ n s, I (n + 1) s → Ensures body s fun _ s' => I n s') (n k : ℕ) {s : σ}
    (h : I n s) : Ensures (repeatWhile body n k) s fun _ s' => ∃ m, I m s' := by
  induction n generalizing k s with
  | zero => exact ensures_pure.2 ⟨0, h⟩
  | succ n ih =>
    unfold repeatWhile
    rw [ensures_bind]
    refine (hbody n s h).mono fun fl s' h' => ?_
    cases fl with
    | next => exact ih (k + 1) h'
    | last => exact ensures_pure.2 ⟨n, h'⟩
    | stop => exact ensures_pure.2 ⟨n, h'⟩
    | leave => exact ensures_pure.2 ⟨n, h'⟩

/-! ### Staying within a relation -/

/-- Whatever the program does stays within `R`. -/
def Within (R : σ → σ → Prop) (m : StateT σ Option α) : Prop :=
  ∀ s, Ensures m s fun _ s' => R s s'

section

variable {R : σ → σ → Prop}

theorem Within.ensures {m : StateT σ Option α} (h : Within R m) {s : σ} {Q : α → σ → Prop}
    (hQ : ∀ a s', R s s' → Q a s') : Ensures m s Q :=
  (h s).mono hQ

theorem Within.mono {R' : σ → σ → Prop} {m : StateT σ Option α} (h : Within R m)
    (hR : ∀ s s', R s s' → R' s s') : Within R' m :=
  fun s => (h s).mono fun _ s' => hR s s'

theorem within_pure (hrefl : ∀ s, R s s) (a : α) : Within R (pure a) :=
  fun s => ensures_pure.2 (hrefl s)

theorem within_get (hrefl : ∀ s, R s s) : Within R (get : StateT σ Option σ) :=
  fun s => ensures_get.2 (hrefl s)

theorem within_modify {f : σ → σ} (h : ∀ s, R s (f s)) :
    Within R (modify f : StateT σ Option PUnit) :=
  fun s => ensures_modify.2 (h s)

theorem within_failure : Within R (failure : StateT σ Option α) :=
  fun _ => ensures_failure.2 trivial

theorem within_bind (htrans : ∀ s s' s'', R s s' → R s' s'' → R s s'') {m : StateT σ Option α}
    {f : α → StateT σ Option β} (hm : Within R m) (hf : ∀ a, Within R (f a)) :
    Within R (m >>= f) := by
  intro s
  rw [ensures_bind]
  refine (hm s).mono fun a s' h => ?_
  exact (hf a s').mono fun _ s'' h' => htrans s s' s'' h h'

theorem within_ite {c : Prop} [Decidable c] {m m' : StateT σ Option α} (h : c → Within R m)
    (h' : ¬ c → Within R m') : Within R (if c then m else m') := by
  split_ifs with hc
  · exact h hc
  · exact h' hc

theorem within_repeatWhile (hrefl : ∀ s, R s s)
    (htrans : ∀ s s' s'', R s s' → R s' s'' → R s s'') {body : StateT σ Option Flow}
    (hb : Within R body) : ∀ n count, Within R (repeatWhile body n count)
  | 0, _ => within_pure hrefl _
  | n + 1, count => by
    refine within_bind htrans hb fun fl => ?_
    cases fl with
    | next => exact within_repeatWhile hrefl htrans hb n (count + 1)
    | last => exact within_pure hrefl _
    | stop => exact within_pure hrefl _
    | leave => exact within_pure hrefl _

end

/-! ### Programs that come to an end -/

/-- From every state the program ends with a result. -/
def Ends (m : StateT σ Option α) : Prop := ∀ s, ∃ r, m.run s = some r

theorem ends_pure (a : α) : Ends (pure a : StateT σ Option α) := fun s => ⟨(a, s), rfl⟩

theorem ends_get : Ends (get : StateT σ Option σ) := fun s => ⟨(s, s), rfl⟩

theorem ends_modify (f : σ → σ) : Ends (modify f : StateT σ Option PUnit) :=
  fun s => ⟨(⟨⟩, f s), rfl⟩

theorem ends_bind {m : StateT σ Option α} {f : α → StateT σ Option β} (hm : Ends m)
    (hf : ∀ a, Ends (f a)) : Ends (m >>= f) := by
  intro s
  obtain ⟨⟨a, s'⟩, h⟩ := hm s
  obtain ⟨r, hr⟩ := hf a s'
  refine ⟨r, ?_⟩
  rw [StateT.run_bind, h]
  exact hr

theorem ends_ite {c : Prop} [Decidable c] {m m' : StateT σ Option α} (h : Ends m) (h' : Ends m') :
    Ends (if c then m else m') := by
  split_ifs
  · exact h
  · exact h'

end DobieStation.Lib.Hoare
