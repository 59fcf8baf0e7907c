import DobieStation.Cdvd.Reading

/-! # Breaking off a command

A write to BREAK schedules an event of its own and leaves those that were scheduled before; whichever comes
first ends the command, and the others then find no command (`break_aborts`). -/

namespace DobieStation.Cdvd.Breaking

open DobieStation.Cdvd.Model DobieStation.Cdvd.Reading DobieStation.Lib.Fairness
open DobieStation.Lib.Reach

variable {v : Disc} {d d' d₀ : Drive}

/-- An N command is under way and has not been broken off. -/
def Active (d : Drive) : Prop := d.activeNCommand ≠ .NONE ∧ d.activeNCommand ≠ .BREAK

/-! ### The phases after a break -/

structure Waiting (d₀ d : Drive) : Prop where
  active : d.activeNCommand = .BREAK
  request : d.dmaRequest = false
  driveStatus : d.driveStatus = STOPPED
  interrupts : d.interrupts = d₀.interrupts
  delivered : d.delivered = d₀.delivered
  events : d.events ≠ []

structure Over (d₀ d : Drive) : Prop where
  active : d.activeNCommand = .NONE
  request : d.dmaRequest = false
  driveStatus : d.driveStatus = PAUSED
  interrupts : d.interrupts = d₀.interrupts + 1
  delivered : d.delivered = d₀.delivered
  status : d.NStatus = 0x4E

theorem writeBREAK_idle (h : ¬ Active d) : d.writeBREAK = d := by
  unfold Drive.writeBREAK
  refine if_pos ?_
  by_contra hc
  exact h ⟨fun hn => hc (Or.inl hn), fun hb => hc (Or.inr hb)⟩

theorem waiting_writeBREAK (h : Active d) (hq : d.dmaRequest = false) : Waiting d d.writeBREAK := by
  unfold Drive.writeBREAK
  rw [if_neg (not_or.mpr h)]
  exact ⟨rfl, hq, rfl, rfl, rfl, List.append_ne_nil_of_right_ne_nil _ (List.cons_ne_nil _ _)⟩

theorem Waiting.event {i : ℕ} (h : Waiting d₀ d) : Over d₀ ((without i d).handleNCommand v) := by
  have hh : (without i d).handleNCommand v = (without i d).finish 0x4E 0x2 := by
    unfold Drive.handleNCommand
    rw [show (without i d).activeNCommand = .BREAK from h.active]
  rw [hh]
  exact ⟨rfl, h.request, rfl, congrArg (· + 1) h.interrupts, h.delivered, rfl⟩

theorem Over.event {i : ℕ} (h : Over d₀ d) : Over d₀ ((without i d).handleNCommand v) := by
  have hh : (without i d).handleNCommand v = without i d := by
    unfold Drive.handleNCommand
    rw [show (without i d).activeNCommand = .NONE from h.active]
  rw [hh]
  exact ⟨h.active, h.request, h.driveStatus, h.interrupts, h.delivered, h.status⟩

/-- A step after a break is an event, which ends the command. -/
theorem step_waiting {t : Turn} (h : Waiting d₀ d) (hs : Step v d t d') : Over d₀ d' := by
  cases t with
  | event i =>
    obtain ⟨-, rfl⟩ := step_event.mp hs
    exact h.event
  | readToRAM => exact absurd ((step_readToRAM.mp hs).1.symm.trans h.request) (by decide)

/-- Nothing follows the end of the command. -/
theorem step_over {t : Turn} (h : Over d₀ d) (hs : Step v d t d') : Over d₀ d' := by
  cases t with
  | event i =>
    obtain ⟨-, rfl⟩ := step_event.mp hs
    exact h.event
  | readToRAM => exact absurd ((step_readToRAM.mp hs).1.symm.trans h.request) (by decide)

/-! ### The contract -/

/-- Whatever the order of the events and the DMA, the command `d` was carrying out delivers no more sectors
and the drive does not read again; and in a fair run the command ends with one interrupt. -/
structure Aborts (v : Disc) (d : Drive) : Prop where
  quiet : ∀ d', Reaches (· = d.writeBREAK) (Step v) d' →
    d'.delivered = d.delivered ∧ d'.activeNCommand ≠ .READ ∧ d'.activeNCommand ≠ .READ_SEEK ∧
      d'.driveStatus ≠ READING ∧ d'.interrupts ≤ d.interrupts + 1
  ends : ∀ r : Run (Step v), r.state 0 = d.writeBREAK → r.Fair Turn.kind →
    ∃ i, ∀ j, i ≤ j → (r.state j).NStatus = 0x4E ∧ (r.state j).interrupts = d.interrupts + 1 ∧
      (r.state j).delivered = d.delivered

def Broken (d₀ d : Drive) : Prop := Waiting d₀ d ∨ Over d₀ d

theorem step_broken {t : Turn} (h : Broken d₀ d) (hs : Step v d t d') : Over d₀ d' :=
  h.elim (step_waiting · hs) (step_over · hs)

theorem progress : Progress (Step v) Turn.kind (Broken d₀) (Over d₀) (fun _ => 0) fun _ => .event where
  keeps _ _ _ h _ hs := Or.inr (step_broken h hs)
  possible _ h ho := possible_event (h.resolve_right ho).events
  lowers _ _ _ h _ hs := Or.inl (step_broken h hs)

theorem aborts (h : Active d) (hq : d.dmaRequest = false) : Aborts v d where
  quiet d' hr := by
    have hb : Broken d d' := by
      refine hr.invariant (I := Broken d) ?_ ?_
      · rintro s rfl
        exact Or.inl (waiting_writeBREAK h hq)
      · intro s t s' hs hstep
        exact Or.inr (step_broken hs hstep)
    rcases hb with hw | ho
    · refine ⟨hw.delivered, ?_, ?_, ?_, hw.interrupts.le.trans (Nat.le_succ _)⟩
      · rw [hw.active]
        exact NCommand.noConfusion
      · rw [hw.active]
        exact NCommand.noConfusion
      · rw [hw.driveStatus]
        decide
    · refine ⟨ho.delivered, ?_, ?_, ?_, ho.interrupts.le⟩
      · rw [ho.active]
        exact NCommand.noConfusion
      · rw [ho.active]
        exact NCommand.noConfusion
      · rw [ho.driveStatus]
        decide
  ends r h0 hfair := by
    have hstart : Broken d (r.state 0) := h0.symm ▸ Or.inl (waiting_writeBREAK h hq)
    obtain ⟨i, -, ho⟩ := (progress (v := v)).leads r hfair hstart
    refine ⟨i, fun j hij => ?_⟩
    have hj : Over d (r.state j) := r.keeps (I := Over d) (fun _ _ _ => step_over) hij ho
    exact ⟨hj.status, hj.interrupts, hj.delivered⟩

/-- A break ends the command under way, if no block waits to be read; without a command it does
nothing. -/
theorem break_aborts (d : Drive) : (Active d → d.dmaRequest = false → Aborts v d) ∧
    (¬ Active d → d.writeBREAK = d) :=
  ⟨aborts, writeBREAK_idle⟩

/-- The drive is standing by. -/
def standby : Drive := { powerOn 0 with activeNCommand := .STANDBY, events := [0] }

theorem break_standby : Aborts image standby ∧ (¬ Active (powerOn 0) → (powerOn 0).writeBREAK = powerOn 0) :=
  ⟨(break_aborts standby).1 ⟨NCommand.noConfusion, NCommand.noConfusion⟩ rfl,
    (break_aborts (v := image) (powerOn 0)).2⟩

/-- Without a command no interrupt follows a break. -/
theorem break_idle : ∃ d, Init d ∧ ¬ Aborts image d := by
  refine ⟨powerOn 0, ⟨powerOn 0, rfl⟩, fun h => ?_⟩
  have hidle : (powerOn 0).writeBREAK = powerOn 0 := rfl
  let r : Run (Step image) :=
    { state := fun _ => powerOn 0
      label := fun _ => none
      idle := fun _ _ => rfl
      moves := fun _ _ hl => by cases hl }
  have hfair : r.Fair Turn.kind := by
    intro k i
    refine ⟨i, Nat.le_refl i, Or.inr ?_⟩
    rintro ⟨t, d', -, hs⟩
    cases t with
    | event j => exact absurd (step_event.mp hs).1 (Nat.not_lt_zero j)
    | readToRAM => exact absurd (step_readToRAM.mp hs).1 Bool.false_ne_true
  obtain ⟨i, hi⟩ := h.ends r hidle.symm hfair
  exact absurd (show (0x40 : Byte) = 0x4E from (hi i (Nat.le_refl i)).1) (by decide)

/-- A block that waits in the buffer is delivered after the break. -/
theorem aborts_iff (h : Active d) : Aborts v d ↔ d.dmaRequest = false := by
  refine ⟨fun ha => ?_, aborts h⟩
  by_contra hq
  have hwrite : d.writeBREAK.dmaRequest ∧ d.writeBREAK.delivered = d.delivered := by
    unfold Drive.writeBREAK
    rw [if_neg (not_or.mpr h)]
    exact ⟨Bool.eq_true_of_not_eq_false hq, rfl⟩
  have hdel := (ha.quiet _ (reaches_readToRAM reaches_self hwrite.1)).1
  rw [readToRAM_delivered, hwrite.2] at hdel
  exact absurd (List.append_right_eq_self.mp hdel) (List.cons_ne_nil _ _)

end DobieStation.Cdvd.Breaking
