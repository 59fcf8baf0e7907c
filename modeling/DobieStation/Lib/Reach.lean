import Mathlib.Logic.Relation

/-! # Runs of a labelled transition system

`Reaches init step s`: some state of `init` leads to `s` by finitely many labelled steps. An
invariant is proved of a step and carried to every reachable state by `Reaches.invariant`; a
restriction of the labels (`Reaches.mono`) carries it to the runs whose steps all meet a
condition. -/

namespace DobieStation.Lib.Reach

variable {S A : Type*}

/-- One step under some label. -/
def Some1 (step : S → A → S → Prop) (s s' : S) : Prop := ∃ a, step s a s'

/-- `s` is reached from an initial state. -/
def Reaches (init : S → Prop) (step : S → A → S → Prop) (s : S) : Prop :=
  ∃ s₀, init s₀ ∧ Relation.ReflTransGen (Some1 step) s₀ s

/-- The steps that meet the condition `ok`, a condition on the state before and the label. -/
def Only (ok : S → A → Prop) (step : S → A → S → Prop) (s : S) (a : A) (s' : S) : Prop :=
  ok s a ∧ step s a s'

variable {init : S → Prop} {step : S → A → S → Prop}

theorem Reaches.start {s : S} (h : init s) : Reaches init step s := ⟨s, h, .refl⟩

theorem Reaches.next {s s' : S} {a : A} (h : Reaches init step s) (hs : step s a s') :
    Reaches init step s' := by
  obtain ⟨s₀, h0, hr⟩ := h
  exact ⟨s₀, h0, hr.tail ⟨a, hs⟩⟩

/-- **The invariant rule.** -/
theorem Reaches.invariant {I : S → Prop} (h0 : ∀ s, init s → I s)
    (hstep : ∀ s a s', I s → step s a s' → I s') {s : S} (h : Reaches init step s) : I s := by
  obtain ⟨s₀, hi, hr⟩ := h
  induction hr with
  | refl => exact h0 _ hi
  | tail _ hs ih =>
    obtain ⟨a, ha⟩ := hs
    exact hstep _ a _ ih ha

/-- A run of the restricted system is a run. -/
theorem Reaches.mono {step' : S → A → S → Prop} (hle : ∀ s a s', step s a s' → step' s a s')
    {s : S} (h : Reaches init step s) : Reaches init step' s := by
  obtain ⟨s₀, hi, hr⟩ := h
  exact ⟨s₀, hi, hr.lift id fun _ _ ⟨a, ha⟩ => ⟨a, hle _ _ _ ha⟩⟩

/-- Where a step is a partial function of the label, a list of labels is run by folding it. -/
theorem Reaches.exec {f : S → A → Option S} : ∀ (l : List A) {s s' : S},
    Reaches init (fun s a s' => f s a = some s') s → l.foldlM f s = some s' →
      Reaches init (fun s a s' => f s a = some s') s'
  | [], s, s', h, hl => by cases hl; exact h
  | a :: l, s, s', h, hl => by
    simp only [List.foldlM_cons, Option.bind_eq_bind, Option.bind_eq_some_iff] at hl
    obtain ⟨s1, h1, h2⟩ := hl
    exact Reaches.exec l (h.next h1) h2

/-- Labels that meet a condition in every state. -/
theorem Reaches.exec_only {f : S → A → Option S} {ok : S → A → Prop} {l : List A} {s s' : S}
    (h : Reaches init (Only ok fun s a s' => f s a = some s') s) (hok : ∀ a ∈ l, ∀ s, ok s a)
    (hl : l.foldlM f s = some s') : Reaches init (Only ok fun s a s' => f s a = some s') s' := by
  induction l generalizing s with
  | nil => cases hl; exact h
  | cons a l ih =>
    simp only [List.foldlM_cons, Option.bind_eq_bind, Option.bind_eq_some_iff] at hl
    obtain ⟨s₁, h₁, h₂⟩ := hl
    exact ih (h.next ⟨hok a List.mem_cons_self s, h₁⟩)
      (fun b hb => hok b (List.mem_cons_of_mem a hb)) h₂

/-- A program without a result, by the state that it leaves. -/
theorem run_iff_map {m : StateT S Option PUnit} {s s' : S} :
    m.run s = some (⟨⟩, s') ↔ (m.run s).map Prod.snd = some s' := by
  rw [Option.map_eq_some_iff]
  constructor
  · intro h
    exact ⟨_, h, rfl⟩
  · rintro ⟨⟨_, s''⟩, h, rfl⟩
    exact h

/-- Where a step is a program, too. -/
theorem Reaches.programs {program : A → StateT S Option PUnit} {l : List A} {s s' : S}
    (h : Reaches init (fun s a s' => (program a).run s = some (⟨⟩, s')) s)
    (hl : l.foldlM (fun s a => ((program a).run s).map Prod.snd) s = some s') :
    Reaches init (fun s a s' => (program a).run s = some (⟨⟩, s')) s' := by
  have hstart := h.mono fun s a s' => (run_iff_map (m := program a)).mp
  exact (Reaches.exec l hstart hl).mono fun s a s' => run_iff_map.2

end DobieStation.Lib.Reach
