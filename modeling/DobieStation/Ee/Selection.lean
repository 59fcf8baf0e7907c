import DobieStation.Ee.Run

/-! # Which interrupt is taken

`run` ends with a test of the first pending source only: INT0, else INT1, else the timer. What it takes is what is
due if and only if that source is not masked, or nothing is due (`finish_takes_iff`). -/

namespace DobieStation.Ee.Selection

open DobieStation.Ee.Interface DobieStation.Ee.Instructions DobieStation.Ee.Run

variable {D : Type}

/-- A source is pending, is not masked, and interrupts are enabled. -/
def Due (c : Cop0) : Prop :=
  c.intEnabled ∧ (c.cause.int0Pending ∧ c.status.int0Mask ∨ c.cause.int1Pending ∧ c.status.int1Mask ∨
    c.cause.timerIntPending ∧ c.status.timerIntMask)

instance (c : Cop0) : Decidable (Due c) := by unfold Due; infer_instance

/-- The first pending source is not masked. -/
def firstUnmasked (c : Cop0) : Bool :=
  if c.cause.int0Pending then c.status.int0Mask
  else if c.cause.int1Pending then c.status.int1Mask
  else c.cause.timerIntPending && c.status.timerIntMask

/-- An interrupt has been taken. -/
def Taken (m m' : Machine D) : Prop :=
  m'.core.cop0.status.exception = true ∧ ∃ epc bd handler, m'.log = .interrupt epc bd handler :: m.log

theorem due_of_firstUnmasked {c : Cop0} (henabled : c.intEnabled) (h : firstUnmasked c) : Due c := by
  refine ⟨henabled, ?_⟩
  unfold firstUnmasked at h
  by_cases h0 : c.cause.int0Pending
  · rw [if_pos h0] at h
    exact Or.inl ⟨h0, h⟩
  · rw [if_neg h0] at h
    by_cases h1 : c.cause.int1Pending
    · rw [if_pos h1] at h
      exact Or.inr (Or.inl ⟨h1, h⟩)
    · rw [if_neg h1, Bool.and_eq_true] at h
      exact Or.inr (Or.inr h)

/-! ### Runs of the handlers -/

theorem takeInterrupt_run (m : Machine D) : ∃ m', (exec takeInterrupt).run m = some ((), m') ∧ Taken m m' :=
  ⟨_, rfl, rfl, _, _, _, rfl⟩

/-- An interrupt under a condition. -/
theorem takeInterrupt_if (m : Machine D) (b : Bool) :
    ∃ m', (exec (if b then takeInterrupt else pure ())).run m = some ((), m') ∧ (Taken m m' ↔ b = true) := by
  cases b with
  | true =>
    obtain ⟨m', hrun, htaken⟩ := takeInterrupt_run m
    exact ⟨m', hrun, fun _ => rfl, fun _ => htaken⟩
  | false =>
    refine ⟨m, rfl, ?_, fun h => absurd h (by decide)⟩
    rintro ⟨-, epc, bd, handler, hlog⟩
    exact absurd hlog.symm (List.cons_ne_self _ _)

theorem takePending_run (m : Machine D) : (exec takePending).run m =
    (exec (if m.core.cop0.intEnabled && firstUnmasked m.core.cop0 then takeInterrupt else pure ())).run m := by
  change (exec (if m.core.cop0.intEnabled then
    (if m.core.cop0.cause.int0Pending then int0 else if m.core.cop0.cause.int1Pending then int1
      else if m.core.cop0.cause.timerIntPending then intTimer else pure ()) else pure ())).run m = _
  unfold firstUnmasked
  cases m.core.cop0.intEnabled
  · rfl
  cases m.core.cop0.cause.int0Pending
  · cases m.core.cop0.cause.int1Pending
    · cases m.core.cop0.cause.timerIntPending
      · rfl
      · rfl
    · rfl
  · rfl

/-! ### The end of a run, and the signal of INT0 -/

theorem finish_run (m : Machine D) (cycles : ℕ) :
    let c := countUp cycles m.core.cop0
    ∃ m', (exec (finish cycles)).run m = some ((), m') ∧ (Taken m m' ↔ c.intEnabled = true ∧ firstUnmasked c = true) := by
  intro c
  obtain ⟨m', hrun, htaken⟩ := takeInterrupt_if { m with core.cop0 := c } (c.intEnabled && firstUnmasked c)
  rw [← takePending_run { m with core.cop0 := c }] at hrun
  rw [Bool.and_eq_true] at htaken
  exact ⟨m', hrun, htaken⟩

/-- The signal takes INT0 where it is enabled and not masked. -/
theorem setInt0Signal_run (m : Machine D) (value : Bool) :
    ∃ m', (exec (setInt0Signal value)).run m = some ((), m') ∧
      (Taken m m' ↔ value = true ∧ m.core.cop0.intEnabled = true ∧ m.core.cop0.status.int0Mask = true) := by
  obtain ⟨m', hrun, htaken⟩ := takeInterrupt_if { m with core.cop0.cause.int0Pending := value }
    (value && (m.core.cop0.intEnabled && m.core.cop0.status.int0Mask))
  rw [Bool.and_eq_true, Bool.and_eq_true] at htaken
  refine ⟨m', hrun ▸ ?_, htaken⟩
  change (exec (if value && m.core.cop0.intEnabled then int0 else pure ())).run
    { m with core.cop0.cause.int0Pending := value } = _
  cases value
  · rfl
  cases m.core.cop0.intEnabled
  · rfl
  · rfl

/-- Nothing that is masked is taken, by the end of a run or by the signal of INT0. What is due is taken at the end
if and only if the first pending source is not masked, or nothing is due. -/
theorem finish_takes_iff (m : Machine D) (cycles : ℕ) (value : Bool) :
    let c := countUp cycles m.core.cop0
    ∃ m₁ m₂, (exec (finish cycles)).run m = some ((), m₁) ∧ (exec (setInt0Signal value)).run m = some ((), m₂) ∧
      (Taken m m₁ → Due c) ∧
      (Taken m m₂ ↔ value = true ∧ m.core.cop0.intEnabled = true ∧ m.core.cop0.status.int0Mask = true) ∧
      ((Taken m m₁ ↔ Due c) ↔ (Due c → firstUnmasked c = true)) := by
  intro c
  obtain ⟨m₁, hfinish, htaken⟩ := finish_run m cycles
  obtain ⟨m₂, hsignal, htaken₂⟩ := setInt0Signal_run m value
  refine ⟨m₁, m₂, hfinish, hsignal, ?_, htaken₂, ?_⟩
  · intro h
    obtain ⟨henabled, hfirst⟩ := htaken.mp h
    exact due_of_firstUnmasked henabled hfirst
  · constructor
    · intro h hdue
      exact (htaken.mp (h.mpr hdue)).2
    · intro h
      constructor
      · intro ht
        exact due_of_firstUnmasked (htaken.mp ht).1 (htaken.mp ht).2
      · intro hdue
        exact htaken.mpr ⟨hdue.1, h hdue⟩

/-- INT0 and INT1 are pending, and INT0 is masked. -/
def masked : Machine Unit where
  core := {
    regs := ⟨fun _ => 0, ⟨0, 0⟩, ⟨0, 0⟩, 0, ⟨⟨false, false, false, false, false, false, false, false, false⟩, fun _ => 0, 0⟩⟩
    PC := 0
    newPC := 0
    branchOn := false
    delaySlot := 0
    cyclesToRun := 0
    waitForIRQ := false
    waitForVU0 := false
    waitForInterlock := false
    icache := fun _ => resetICacheLine
    osdConfigParam := 0
    deci2handlers := fun _ => ⟨false, 0, 0⟩
    deci2size := 0
    cop0 := {
      gpr := fun _ => 0
      status := ⟨true, false, false, 0, false, false, true, false, true, false, false, false, false, 0⟩
      cause := ⟨0, true, true, false, 0, 0, false, false⟩
      EPC := 0
      ErrorEPC := 0
      PCCR := 0
      PCR0 := 0
      PCR1 := 0 }
    intc := ⟨0, 0, 0, false⟩
    world := ⟨(), ⟨fun _ => 0, fun _ => 0, fun _ => 0⟩, 0⟩ }
  pcNow := 0
  tlbMap := .kernel
  tlb := ⟨fun _ => .zero, fun _ => Tlb.Model.blank⟩
  log := []

/-- INT1 is due and is not taken. -/
theorem not_finish_takes : ¬ ∀ (m : Machine Unit) (cycles : ℕ) (m' : Machine Unit),
    (exec (finish cycles)).run m = some ((), m') → (Taken m m' ↔ Due (countUp cycles m.core.cop0)) := by
  intro h
  obtain ⟨m', hrun, htaken⟩ := finish_run masked 0
  have hfirst := htaken.mp ((h masked 0 m' hrun).mpr (by decide))
  exact absurd hfirst.2 (by decide)

end DobieStation.Ee.Selection
