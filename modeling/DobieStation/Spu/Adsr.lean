import DobieStation.Lib.Ranking
import Mathlib.Algebra.Order.Ring.Int
import Mathlib.Data.Prod.Lex
import Mathlib.Order.WellFounded
import Mathlib.Tactic.IntervalCases
import Mathlib.Tactic.Linarith
import Mathlib.Tactic.SplitIfs

/-! # The envelopes of the voices

The translation of `spu/spu_envelope.cpp` without the sweeps of the volumes. A conversion to a type of 16 bits
is written where the source has it (`int16`, `uint16`), a shift to the right rounds down, and a difference of
naturals is the `std::max(0, ..)` of the two shifts.

The invariant is `Sound`: what `set_stage` has written still fits the stage. The two legs of an attack
(`attack_leads`, `decay_leads`) and the release (`release_leads`) go down a rank of the distance that is left
and of the cycles before the next step. -/

namespace DobieStation.Spu.Adsr

open DobieStation.Lib.Ranking

def Short (x : ℤ) : Prop := -2 ^ 15 ≤ x ∧ x < 2 ^ 15

/-- The conversion to `int16_t`. -/
def int16 (x : ℤ) : ℤ := (x + 2 ^ 15) % 2 ^ 16 - 2 ^ 15

/-- The conversion to `uint16_t`. -/
def uint16 (n : ℕ) : ℕ := n % 2 ^ 16

/-- The conversion to `uint32_t`. -/
def uint32 (n : ℕ) : ℕ := n % 2 ^ 32

theorem int16_short {x : ℤ} (h : Short x) : int16 x = x := by
  unfold Short at h
  unfold int16
  omega

structure Envelope where
  exponential : Bool
  rising : Bool
  negativePhase : Bool
  cyclesLeft : ℕ
  shift : ℕ
  step : ℤ
  deriving DecidableEq, Repr

/-- `step << std::max(0, 11-shift)`, an `int`. -/
def Envelope.shifted (e : Envelope) : ℤ := e.step * 2 ^ (11 - e.shift)

/-- `(next_step*volume) >> 15`, an `int`. -/
def scaled (step volume : ℤ) : ℤ := step * volume / 2 ^ 15

/-- The cycles before the step after the next one. -/
def Envelope.nextCycles (e : Envelope) (volume : ℤ) : ℕ :=
  if e.exponential ∧ e.rising ∧ 0x6000 < volume then uint32 (2 ^ (e.shift - 11) * 4)
  else 2 ^ (e.shift - 11)

/-- The step once the cycles have run out. -/
def Envelope.dueStep (e : Envelope) (volume : ℤ) : ℤ :=
  if e.exponential ∧ ¬ e.rising then int16 (scaled (int16 e.shifted) volume) else int16 e.shifted

/-- `Envelope::next_step`. -/
def Envelope.nextStep (e : Envelope) (volume : ℤ) : ℤ × Envelope :=
  if 1 < e.cyclesLeft then (0, { e with cyclesLeft := e.cyclesLeft - 1 })
  else (e.dueStep volume, { e with cyclesLeft := e.nextCycles volume })

inductive Stage where
  | stopped
  | attack
  | decay
  | sustain
  | release
  deriving DecidableEq, Repr

structure ADSR where
  envelope : Envelope
  stage : Stage
  target : ℕ
  volume : ℤ
  adsr1 : BitVec 16
  adsr2 : BitVec 16
  deriving DecidableEq, Repr

/-- The value that the constructor of a voice gives, `adsr = {}`. -/
def ADSR.reset : ADSR := ⟨⟨false, false, false, 0, 0, 0⟩, .stopped, 0, 0, 0, 0⟩

/-- The step of a rising envelope or of a falling one, from its two bits. -/
def stepOf (rising : Bool) (bits : BitVec 2) : ℤ := if rising then 7 - bits.toNat else -8 + bits.toNat

/-- `adsr1 & 0x0F`, the level of the sustain. -/
def ADSR.level (s : ADSR) : ℕ := (s.adsr1.extractLsb' 0 4).toNat

/-- `ADSR::set_stage`. -/
def ADSR.setStage (s : ADSR) : Stage → ADSR
  | .attack =>
    { s with
      target := 0x7fff
      stage := .attack
      envelope :=
        { exponential := s.adsr1.getLsbD 15
          negativePhase := false
          rising := true
          cyclesLeft := 0
          shift := (s.adsr1.extractLsb' 10 5).toNat
          step := stepOf true (s.adsr1.extractLsb' 8 2) } }
  | .decay =>
    { s with
      target := uint16 ((s.level + 1) * 0x800)
      stage := .decay
      envelope :=
        { exponential := true
          negativePhase := false
          rising := false
          cyclesLeft := 0
          shift := (s.adsr1.extractLsb' 4 4).toNat
          step := -8 } }
  | .sustain =>
    { s with
      target := 0
      stage := .sustain
      envelope :=
        { exponential := s.adsr2.getLsbD 15
          negativePhase := false
          rising := !s.adsr2.getLsbD 14
          cyclesLeft := 0
          shift := (s.adsr2.extractLsb' 8 5).toNat
          step := stepOf (!s.adsr2.getLsbD 14) (s.adsr2.extractLsb' 6 2) } }
  | .release =>
    { s with
      target := 0
      stage := .release
      envelope :=
        { exponential := s.adsr2.getLsbD 5
          negativePhase := false
          rising := false
          cyclesLeft := 0
          shift := (s.adsr2.extractLsb' 0 5).toNat
          step := -8 } }
  | .stopped => { s with stage := .stopped, envelope := { s.envelope with cyclesLeft := 0 } }

/-- `ADSR::update`. -/
def ADSR.update (s : ADSR) : ADSR := s.setStage s.stage

/-- The sum that the volume becomes, clamped in `int`. -/
def clamped (volume step : ℤ) : ℤ := max (min (volume + step) 0x7fff) 0

/-- The volume has come to the target, or past it. -/
def ADSR.Arrived (s : ADSR) : Prop :=
  (s.envelope.rising ∧ (s.target : ℤ) ≤ s.volume) ∨ (¬ s.envelope.rising ∧ s.volume ≤ s.target)

instance (s : ADSR) : Decidable s.Arrived := inferInstanceAs (Decidable (_ ∨ _))

/-- The `switch` at the end of `advance`. -/
def ADSR.nextStage (s : ADSR) : ADSR :=
  match s.stage with
  | .attack => s.setStage .decay
  | .decay => s.setStage .sustain
  | .release => s.setStage .stopped
  | _ => s

/-- The first half of `advance`: the step and the volume. -/
def ADSR.move (s : ADSR) : ADSR :=
  let next := s.envelope.nextStep s.volume
  { s with volume := int16 (clamped s.volume next.1), envelope := next.2 }

/-- `ADSR::advance`. -/
def ADSR.advance (s : ADSR) : ADSR :=
  if s.stage = .stopped then s
  else if s.stage ≠ .sustain ∧ s.move.Arrived then s.move.nextStage
  else s.move

/-- What the registers and the mixer do to an envelope. `endSample` is the end of a sample without a loop,
which the mixer takes. -/
inductive Action where
  | writeAdsr1 (value : BitVec 16)
  | writeAdsr2 (value : BitVec 16)
  | keyOn
  | keyOff
  | endSample
  | advance
  deriving DecidableEq, Repr

def ADSR.keyOn (s : ADSR) : ADSR := { s.setStage .attack with volume := 0 }

def ADSR.keyOff (s : ADSR) : ADSR := s.setStage .release

def ADSR.endSample (s : ADSR) : ADSR := { s.setStage .release with volume := 0 }

def ADSR.act (s : ADSR) : Action → ADSR
  | .writeAdsr1 value => { s with adsr1 := value }.update
  | .writeAdsr2 value => { s with adsr2 := value }.update
  | .keyOn => s.keyOn
  | .keyOff => s.keyOff
  | .endSample => s.endSample
  | .advance => s.advance

def run (l : List Action) : ADSR := l.foldl ADSR.act .reset

/-! ## Bounds of the steps -/

/-- What the fields of four and five bits leave to an envelope. -/
structure Envelope.Fits (e : Envelope) : Prop where
  shift : e.shift ≤ 31
  low : -8 ≤ e.step
  high : e.step ≤ 7

theorem stepOf_rising (bits : BitVec 2) : 4 ≤ stepOf true bits ∧ stepOf true bits ≤ 7 := by
  have hb := bits.isLt
  simp only [stepOf, if_true]
  omega

theorem stepOf_fits (rising : Bool) (bits : BitVec 2) :
    -8 ≤ stepOf rising bits ∧ stepOf rising bits ≤ 7 := by
  have hb := bits.isLt
  unfold stepOf
  split <;> omega

theorem factor_bounds (n : ℕ) : (1 : ℤ) ≤ 2 ^ (11 - n) ∧ (2 : ℤ) ^ (11 - n) ≤ 2048 := by
  have hn : 11 - n ≤ 11 := Nat.sub_le 11 n
  generalize 11 - n = k at hn
  interval_cases k <;> norm_num

theorem shifted_short {e : Envelope} (h : e.Fits) : -16384 ≤ e.shifted ∧ e.shifted ≤ 14336 := by
  have hf := factor_bounds e.shift
  have hl := h.low
  have hh := h.high
  unfold Envelope.shifted
  generalize (2 : ℤ) ^ (11 - e.shift) = k at hf
  constructor <;> nlinarith

theorem scaled_short {x v : ℤ} (hx : -16384 ≤ x ∧ x ≤ 14336) (hv : 0 ≤ v ∧ v ≤ 0x7fff) :
    -16384 ≤ scaled x v ∧ scaled x v ≤ 14336 := by
  have hlow : -16384 * 2 ^ 15 ≤ x * v := by nlinarith
  have hhigh : x * v ≤ 14336 * 2 ^ 15 := by nlinarith
  unfold scaled
  omega

/-- Between two steps the volume stays, and a due step has the sign of the envelope. -/
theorem nextStep_rising {e : Envelope} {v : ℤ} (hf : e.Fits) (hr : e.rising = true) (hs : 4 ≤ e.step) :
    0 ≤ (e.nextStep v).1 ∧ (e.nextStep v).1 ≤ 14336 ∧ (e.cyclesLeft ≤ 1 → 4 ≤ (e.nextStep v).1) := by
  have hb := shifted_short hf
  have hpos : 4 ≤ e.shifted := by
    have := factor_bounds e.shift
    unfold Envelope.shifted
    nlinarith
  have hdue : e.dueStep v = e.shifted := by
    unfold Envelope.dueStep
    rw [if_neg (by simp [hr]), int16_short (by unfold Short; omega)]
  unfold Envelope.nextStep
  split_ifs with hc
  · exact ⟨le_rfl, by norm_num, fun h => absurd hc (by omega)⟩
  · rw [hdue]
    exact ⟨by omega, by omega, fun _ => hpos⟩

theorem scaled_negative {x v : ℤ} (hx : x ≤ -1) (hv : 0 < v) : scaled x v ≤ -1 := by
  have : x * v < 0 := by nlinarith
  unfold scaled
  omega

theorem dueStep_falling {e : Envelope} {v : ℤ} (hf : e.Fits) (hs : e.step = -8)
    (hv : 0 ≤ v ∧ v ≤ 0x7fff) : -16384 ≤ e.dueStep v ∧ e.dueStep v ≤ 0 ∧ (0 < v → e.dueStep v ≤ -1) := by
  have hb := shifted_short hf
  have hneg : e.shifted ≤ -1 := by
    have := factor_bounds e.shift
    unfold Envelope.shifted
    rw [hs]
    omega
  have h16 : int16 e.shifted = e.shifted := int16_short (by unfold Short; omega)
  unfold Envelope.dueStep
  rw [h16]
  split_ifs with he
  · have hsc := scaled_short hb hv
    rw [int16_short (by unfold Short; omega)]
    have hle : scaled e.shifted v ≤ 0 := by
      have : e.shifted * v ≤ 0 := by nlinarith
      unfold scaled
      omega
    exact ⟨hsc.1, hle, scaled_negative hneg⟩
  · exact ⟨hb.1, by omega, fun _ => hneg⟩

theorem nextStep_falling {e : Envelope} {v : ℤ} (hf : e.Fits) (hs : e.step = -8)
    (hv : 0 ≤ v ∧ v ≤ 0x7fff) :
    (e.nextStep v).1 ≤ 0 ∧ (e.cyclesLeft ≤ 1 → 0 < v → (e.nextStep v).1 ≤ -1) := by
  obtain ⟨-, hle, hlt⟩ := dueStep_falling hf hs hv
  unfold Envelope.nextStep
  split_ifs with hc
  · exact ⟨le_rfl, fun h => absurd hc (by omega)⟩
  · exact ⟨hle, fun _ => hlt⟩

theorem nextStep_fits {e : Envelope} (h : e.Fits) (v : ℤ) : (e.nextStep v).2.Fits := by
  unfold Envelope.nextStep
  split_ifs <;> exact ⟨h.shift, h.low, h.high⟩

/-- The clamp comes before the conversion. -/
theorem clamped_bounds (v x : ℤ) : 0 ≤ clamped v x ∧ clamped v x ≤ 0x7fff := by
  unfold clamped
  omega

theorem int16_clamped (v x : ℤ) : int16 (clamped v x) = clamped v x := by
  have := clamped_bounds v x
  exact int16_short (by unfold Short; omega)

/-! ## What a stage has been set to -/

/-- **The invariant.** In a stage with a target, the envelope goes towards the target of that stage. -/
structure Sound (s : ADSR) : Prop where
  low : 0 ≤ s.volume
  high : s.volume ≤ 0x7fff
  fits : s.envelope.Fits
  attack : s.stage = .attack →
    s.envelope.rising = true ∧ 4 ≤ s.envelope.step ∧ s.target = 0x7fff ∧ s.volume < 0x7fff
  decay : s.stage = .decay →
    s.envelope.rising = false ∧ s.envelope.step = -8 ∧ s.target = (s.level + 1) * 0x800
  release : s.stage = .release → s.envelope.rising = false ∧ s.envelope.step = -8 ∧ s.target = 0

theorem Sound.range {s : ADSR} (h : Sound s) : 0 ≤ s.volume ∧ s.volume ≤ 0x7fff := ⟨h.low, h.high⟩

theorem level_lt (s : ADSR) : s.level < 16 := (s.adsr1.extractLsb' 0 4).isLt

theorem reset_sound : Sound .reset where
  low := le_rfl
  high := by norm_num [ADSR.reset]
  fits := ⟨by norm_num [ADSR.reset], by norm_num [ADSR.reset], by norm_num [ADSR.reset]⟩
  attack := by rintro ⟨⟩
  decay := by rintro ⟨⟩
  release := by rintro ⟨⟩

@[simp] theorem setStage_stage (s : ADSR) (g : Stage) : (s.setStage g).stage = g := by
  cases g <;> rfl

@[simp] theorem setStage_volume (s : ADSR) (g : Stage) : (s.setStage g).volume = s.volume := by
  cases g <;> rfl

@[simp] theorem setStage_level (s : ADSR) (g : Stage) : (s.setStage g).level = s.level := by
  cases g <;> rfl

theorem setStage_fits {s : ADSR} (h : s.envelope.Fits) (g : Stage) : (s.setStage g).envelope.Fits := by
  cases g with
  | stopped => exact ⟨h.shift, h.low, h.high⟩
  | attack =>
    have hb := stepOf_fits true (s.adsr1.extractLsb' 8 2)
    exact ⟨by have := (s.adsr1.extractLsb' 10 5).isLt; exact Nat.le_of_lt_succ this, hb.1, hb.2⟩
  | decay =>
    have hb := (s.adsr1.extractLsb' 4 4).isLt
    refine ⟨?_, le_rfl, by norm_num [ADSR.setStage]⟩
    show (s.adsr1.extractLsb' 4 4).toNat ≤ 31
    omega
  | sustain =>
    have hb := stepOf_fits (!s.adsr2.getLsbD 14) (s.adsr2.extractLsb' 6 2)
    exact ⟨by have := (s.adsr2.extractLsb' 8 5).isLt; exact Nat.le_of_lt_succ this, hb.1, hb.2⟩
  | release =>
    refine ⟨?_, le_rfl, by norm_num [ADSR.setStage]⟩
    exact Nat.le_of_lt_succ (s.adsr2.extractLsb' 0 5).isLt

/-- Setting a stage asks only for the volume. -/
theorem setStage_sound {s : ADSR} (hv : 0 ≤ s.volume ∧ s.volume ≤ 0x7fff) (hf : s.envelope.Fits)
    {g : Stage} (hg : g = .attack → s.volume < 0x7fff) : Sound (s.setStage g) where
  low := by simpa using hv.1
  high := by simpa using hv.2
  fits := setStage_fits hf g
  attack := by
    intro h
    rw [setStage_stage] at h
    subst h
    exact ⟨rfl, (stepOf_rising _).1, rfl, by simpa using hg rfl⟩
  decay := by
    intro h
    rw [setStage_stage] at h
    subst h
    have hl := level_lt s
    refine ⟨rfl, rfl, ?_⟩
    show uint16 ((s.level + 1) * 0x800) = (s.level + 1) * 0x800
    unfold uint16
    omega
  release := by
    intro h
    rw [setStage_stage] at h
    subst h
    exact ⟨rfl, rfl, rfl⟩

theorem update_sound {s : ADSR} (hv : 0 ≤ s.volume ∧ s.volume ≤ 0x7fff) (hf : s.envelope.Fits)
    (ha : s.stage = .attack → s.volume < 0x7fff) : Sound s.update := setStage_sound hv hf ha

/-! ## One call of `advance` -/

@[simp] theorem move_stage (s : ADSR) : s.move.stage = s.stage := rfl

@[simp] theorem move_target (s : ADSR) : s.move.target = s.target := rfl

@[simp] theorem move_level (s : ADSR) : s.move.level = s.level := rfl

theorem move_volume (s : ADSR) : s.move.volume = clamped s.volume (s.envelope.nextStep s.volume).1 :=
  int16_clamped _ _

@[simp] theorem nextStep_shape (e : Envelope) (v : ℤ) :
    (e.nextStep v).2.rising = e.rising ∧ (e.nextStep v).2.step = e.step := by
  unfold Envelope.nextStep
  split_ifs <;> exact ⟨rfl, rfl⟩

theorem move_range (s : ADSR) : 0 ≤ s.move.volume ∧ s.move.volume ≤ 0x7fff := by
  rw [move_volume]
  exact clamped_bounds _ _

@[simp] theorem nextStage_volume (s : ADSR) : s.nextStage.volume = s.volume := by
  unfold ADSR.nextStage
  split <;> simp

theorem advance_volume {s : ADSR} (h : s.stage ≠ .stopped) : s.advance.volume = s.move.volume := by
  unfold ADSR.advance
  rw [if_neg h]
  split_ifs <;> simp

/-- In a stage with a target, `advance` goes on to the next stage when the target is there. -/
theorem advance_next {s : ADSR} (h : s.stage ≠ .stopped) (h' : s.stage ≠ .sustain) (ha : s.move.Arrived) :
    s.advance = s.move.nextStage := by
  unfold ADSR.advance
  rw [if_neg h, if_pos ⟨h', ha⟩]

theorem advance_stay {s : ADSR} (h : s.stage ≠ .stopped) (ha : ¬ s.move.Arrived) :
    s.advance = s.move := by
  unfold ADSR.advance
  rw [if_neg h, if_neg (by rintro ⟨-, h⟩; exact ha h)]

/-- The target of the attack is the top of the range. -/
theorem arrived_attack {s : ADSR} (h : Sound s) (hs : s.stage = .attack) :
    s.move.Arrived ↔ s.move.volume = 0x7fff := by
  obtain ⟨hr, -, ht, -⟩ := h.attack hs
  have hv := move_range s
  have hm : s.move.envelope.rising = true := (nextStep_shape _ _).1.trans hr
  unfold ADSR.Arrived
  rw [hm, move_target, ht]
  constructor
  · rintro (⟨-, h1⟩ | ⟨h1, -⟩)
    · exact le_antisymm hv.2 h1
    · exact absurd rfl h1
  · intro h1
    exact Or.inl ⟨rfl, h1.ge⟩

theorem arrived_falling {s : ADSR} (hr : s.envelope.rising = false) :
    s.move.Arrived ↔ s.move.volume ≤ s.target := by
  have hm : s.move.envelope.rising = false := (nextStep_shape _ _).1.trans hr
  unfold ADSR.Arrived
  rw [hm, move_target]
  constructor
  · rintro (⟨h1, -⟩ | ⟨-, h1⟩)
    · exact absurd h1 (by simp)
    · exact h1
  · intro h1
    exact Or.inr ⟨by simp, h1⟩

theorem attack_step {s : ADSR} (h : Sound s) (hs : s.stage = .attack) :
    s.volume ≤ s.move.volume ∧ (s.envelope.cyclesLeft ≤ 1 → s.move.volume ≠ 0x7fff → s.volume < s.move.volume) := by
  obtain ⟨hr, hstep, -, -⟩ := h.attack hs
  obtain ⟨hnn, -, hpos⟩ := nextStep_rising (v := s.volume) h.fits hr hstep
  have hrange := h.range
  rw [move_volume]
  unfold clamped
  refine ⟨by omega, ?_⟩
  intro hc hne
  have := hpos hc
  omega

theorem falling_step {s : ADSR} (h : Sound s) (hs : s.envelope.step = -8) :
    s.move.volume ≤ s.volume ∧ (s.envelope.cyclesLeft ≤ 1 → 0 < s.volume → s.move.volume < s.volume) := by
  have hrange := h.range
  obtain ⟨hle, hlt⟩ := nextStep_falling (v := s.volume) h.fits hs hrange
  rw [move_volume]
  unfold clamped
  refine ⟨by omega, ?_⟩
  intro hc hv
  have := hlt hc hv
  omega

theorem move_cycles {s : ADSR} (h : 1 < s.envelope.cyclesLeft) :
    s.move.volume = int16 (clamped s.volume 0) ∧
      s.move.envelope.cyclesLeft = s.envelope.cyclesLeft - 1 := by
  unfold ADSR.move Envelope.nextStep
  rw [if_pos h]
  exact ⟨rfl, rfl⟩

theorem move_sound {s : ADSR} (h : Sound s) (hs : s.stage = .attack → ¬ s.move.Arrived) : Sound s.move where
  low := (move_range s).1
  high := (move_range s).2
  fits := nextStep_fits h.fits _
  attack := by
    intro ha
    obtain ⟨hr, hstep, ht, -⟩ := h.attack ha
    have hne := mt (arrived_attack h ha).mpr (hs ha)
    have hle := (move_range s).2
    have hsh := nextStep_shape s.envelope s.volume
    exact ⟨hsh.1.trans hr, hsh.2.symm ▸ hstep, ht, lt_of_le_of_ne hle hne⟩
  decay := by
    intro hd
    obtain ⟨hr, hstep, ht⟩ := h.decay hd
    have hsh := nextStep_shape s.envelope s.volume
    exact ⟨hsh.1.trans hr, hsh.2.trans hstep, ht⟩
  release := by
    intro hd
    obtain ⟨hr, hstep, ht⟩ := h.release hd
    have hsh := nextStep_shape s.envelope s.volume
    exact ⟨hsh.1.trans hr, hsh.2.trans hstep, ht⟩

theorem nextStage_sound {s : ADSR} (hv : 0 ≤ s.volume ∧ s.volume ≤ 0x7fff) (hf : s.envelope.Fits)
    (hs : s.stage ≠ .stopped ∧ s.stage ≠ .sustain) : Sound s.nextStage := by
  unfold ADSR.nextStage
  split
  · exact setStage_sound hv hf (by rintro ⟨⟩)
  · exact setStage_sound hv hf (by rintro ⟨⟩)
  · exact setStage_sound hv hf (by rintro ⟨⟩)
  · rename_i h1 h2 h3
    obtain ⟨h4, h5⟩ := hs
    cases hst : s.stage <;> simp_all

theorem advance_sound {s : ADSR} (h : Sound s) : Sound s.advance := by
  by_cases hs : s.stage = .stopped
  · unfold ADSR.advance
    rwa [if_pos hs]
  by_cases hs' : s.stage = .sustain
  · have heq : s.advance = s.move := by
      unfold ADSR.advance
      rw [if_neg hs, if_neg (by rintro ⟨h1, -⟩; exact h1 hs')]
    rw [heq]
    exact move_sound h (by rw [hs']; rintro ⟨⟩)
  by_cases ha : s.move.Arrived
  · rw [advance_next hs hs' ha]
    exact nextStage_sound (move_range s) (nextStep_fits h.fits _) ⟨hs, hs'⟩
  · rw [advance_stay hs ha]
    exact move_sound h fun _ => ha

/-- **The step lemma.** -/
theorem act_sound {s : ADSR} (h : Sound s) (a : Action) : Sound (s.act a) := by
  cases a with
  | writeAdsr1 value => exact update_sound h.range h.fits fun ha => (h.attack ha).2.2.2
  | writeAdsr2 value => exact update_sound h.range h.fits fun ha => (h.attack ha).2.2.2
  | keyOn =>
    show Sound (({ s with volume := 0 } : ADSR).setStage .attack)
    exact setStage_sound (s := { s with volume := 0 }) ⟨le_rfl, by norm_num⟩ h.fits fun _ => by norm_num
  | keyOff =>
    show Sound (s.setStage .release)
    exact setStage_sound h.range h.fits (by rintro ⟨⟩)
  | endSample =>
    show Sound (({ s with volume := 0 } : ADSR).setStage .release)
    exact setStage_sound (s := { s with volume := 0 }) ⟨le_rfl, by norm_num⟩ h.fits (by rintro ⟨⟩)
  | advance => exact advance_sound h

/-- **The run lemma.** -/
theorem run_sound (l : List Action) : Sound (run l) := by
  have main : ∀ (l : List Action) (s : ADSR), Sound s → Sound (l.foldl ADSR.act s) := by
    intro l
    induction l with
    | nil => intro s h; exact h
    | cons a l ih => intro s h; exact ih _ (act_sound h a)
  exact main l _ reset_sound

/-! ## Where the stages lead -/

/-- The distance that is left and the cycles before the next step. -/
def rankUp (s : ADSR) : ℕ ×ₗ ℕ := toLex ((0x7fff - s.volume).toNat, s.envelope.cyclesLeft)

def rankDown (s : ADSR) : ℕ ×ₗ ℕ := toLex (s.volume.toNat, s.envelope.cyclesLeft)

/-- A call of `advance` moves the volume or counts a cycle. -/
theorem waits {s : ADSR} (h : Sound s) (hc : 1 < s.envelope.cyclesLeft) :
    s.move.volume = s.volume ∧ s.move.envelope.cyclesLeft < s.envelope.cyclesLeft := by
  obtain ⟨hv, hcy⟩ := move_cycles hc
  rw [int16_clamped] at hv
  have := h.range
  unfold clamped at hv
  omega

theorem attack_leads : Leads ADSR.advance (fun s => Sound s ∧ s.stage = .attack)
    (fun s => Sound s ∧ s.stage = .decay) := by
  refine Leads.of_rank rankUp ?_
  rintro s ⟨h, hs⟩
  have hstop : s.stage ≠ .stopped := by rw [hs]; rintro ⟨⟩
  by_cases ha : s.move.Arrived
  · left
    refine ⟨advance_sound h, ?_⟩
    rw [advance_next hstop (by rw [hs]; rintro ⟨⟩) ha]
    unfold ADSR.nextStage
    rw [move_stage, hs]
    rfl
  right
  refine ⟨⟨advance_sound h, by rw [advance_stay hstop ha]; exact hs⟩, ?_⟩
  rw [advance_stay hstop ha, rankUp, rankUp, Prod.Lex.toLex_lt_toLex]
  obtain ⟨hup, hdue⟩ := attack_step h hs
  have hne := mt (arrived_attack h hs).mpr ha
  have hrange := move_range s
  by_cases hc : s.envelope.cyclesLeft ≤ 1
  · have := hdue hc hne
    left
    show (0x7fff - s.move.volume).toNat < (0x7fff - s.volume).toNat
    omega
  · obtain ⟨hv, hlt⟩ := waits h (by omega)
    right
    exact ⟨by rw [hv], hlt⟩

/-- A falling stage with a target comes to its end. -/
theorem falling_leads {g : Stage} {Q : ADSR → Prop} (hg : g ≠ .stopped)
    (hfall : ∀ s, Sound s → s.stage = g → s.envelope.rising = false ∧ s.envelope.step = -8)
    (hend : ∀ s, Sound s → s.stage = g → s.move.Arrived → Q s.advance) :
    Leads ADSR.advance (fun s => Sound s ∧ s.stage = g) Q := by
  refine Leads.of_rank rankDown ?_
  rintro s ⟨h, hs⟩
  obtain ⟨hr, hstep⟩ := hfall s h hs
  by_cases ha : s.move.Arrived
  · exact Or.inl (hend s h hs ha)
  have hadv := advance_stay (by rw [hs]; exact hg) ha
  right
  refine ⟨⟨advance_sound h, by rw [hadv]; exact hs⟩, ?_⟩
  rw [hadv, rankDown, rankDown, Prod.Lex.toLex_lt_toLex]
  obtain ⟨hdown, hdue⟩ := falling_step h hstep
  have habove := mt (arrived_falling hr).mpr ha
  have hrange := move_range s
  by_cases hc : s.envelope.cyclesLeft ≤ 1
  · have := hdue hc (by omega)
    left
    show s.move.volume.toNat < s.volume.toNat
    omega
  · obtain ⟨hv, hlt⟩ := waits h (by omega)
    right
    exact ⟨by rw [hv], hlt⟩

theorem decay_leads : Leads ADSR.advance (fun s => Sound s ∧ s.stage = .decay)
    (fun s => s.stage = .sustain) := by
  refine falling_leads (by rintro ⟨⟩) (fun s h hs => ⟨(h.decay hs).1, (h.decay hs).2.1⟩) ?_
  intro s h hs ha
  rw [advance_next (by rw [hs]; rintro ⟨⟩) (by rw [hs]; rintro ⟨⟩) ha]
  unfold ADSR.nextStage
  rw [move_stage, hs]
  rfl

theorem release_leads : Leads ADSR.advance (fun s => Sound s ∧ s.stage = .release)
    (fun s => s.stage = .stopped ∧ s.volume = 0) := by
  refine falling_leads (by rintro ⟨⟩) (fun s h hs => ⟨(h.release hs).1, (h.release hs).2.1⟩) ?_
  intro s h hs ha
  obtain ⟨hr, -, ht⟩ := h.release hs
  have hle := (arrived_falling hr).mp ha
  have hrange := move_range s
  rw [advance_next (by rw [hs]; rintro ⟨⟩) (by rw [hs]; rintro ⟨⟩) ha]
  refine ⟨?_, ?_⟩
  · unfold ADSR.nextStage
    rw [move_stage, hs]
    rfl
  · rw [nextStage_volume]
    rw [ht] at hle
    exact le_antisymm hle hrange.1

/-! ## The contract -/

/-- Every value that becomes one of 16 bits, or a number of cycles, is one already. -/
structure NoWrap (s : ADSR) : Prop where
  shifted : Short s.envelope.shifted
  scaled : Short (scaled (int16 s.envelope.shifted) s.volume)
  clamped : Short (clamped s.volume (s.envelope.nextStep s.volume).1)
  target : (s.level + 1) * 0x800 < 2 ^ 16
  cycles : 2 ^ (s.envelope.shift - 11) * 4 < 2 ^ 32

theorem Sound.noWrap {s : ADSR} (h : Sound s) : NoWrap s := by
  have hb := shifted_short h.fits
  have hshort : Short s.envelope.shifted := by unfold Short; omega
  have hsc := scaled_short hb h.range
  have hcl := clamped_bounds s.volume (s.envelope.nextStep s.volume).1
  have hl := level_lt s
  refine ⟨hshort, ?_, ?_, by omega, ?_⟩
  · rw [int16_short hshort]
    unfold Short
    omega
  · unfold Short
    omega
  · have hk : s.envelope.shift - 11 ≤ 20 := by
      have := h.fits.shift
      omega
    have := Nat.pow_le_pow_right (n := 2) (by norm_num) hk
    omega

/-- What holds of an envelope between two actions, and what the next call of `advance` does to it. -/
structure Contract (s : ADSR) : Prop where
  range : 0 ≤ s.volume ∧ s.volume ≤ 0x7fff
  rises : s.stage = .attack → s.volume ≤ s.advance.volume
  falls : s.stage = .decay ∨ s.stage = .release → s.advance.volume ≤ s.volume
  attackBelow : s.stage = .attack → s.volume < 0x7fff
  attackLeft : s.stage = .attack → (s.advance.stage ≠ .attack ↔ s.advance.volume = 0x7fff)
  decayLeft : s.stage = .decay →
    (s.advance.stage ≠ .decay ↔ s.advance.volume ≤ (s.level + 1) * 0x800)
  noWrap : NoWrap s
  keyOn : ∃ n, (ADSR.advance^[n] s.keyOn).stage = .sustain
  keyOff : ∃ n, (ADSR.advance^[n] s.keyOff).stage = .stopped ∧ (ADSR.advance^[n] s.keyOff).volume = 0

/-- A stage with a target is left in the call that arrives. -/
theorem left_iff {s : ADSR} {g : Stage} (hs : s.stage = g) (hg : g = .attack ∨ g = .decay) :
    s.advance.stage ≠ g ↔ s.move.Arrived := by
  have hstop : s.stage ≠ .stopped := by rcases hg with rfl | rfl <;> rw [hs] <;> rintro ⟨⟩
  have hsus : s.stage ≠ .sustain := by rcases hg with rfl | rfl <;> rw [hs] <;> rintro ⟨⟩
  by_cases ha : s.move.Arrived
  · rw [advance_next hstop hsus ha]
    unfold ADSR.nextStage
    rw [move_stage, hs]
    rcases hg with rfl | rfl <;> simp [ha]
  · rw [advance_stay hstop ha, move_stage]
    simp [ha, hs]

theorem Sound.contract {s : ADSR} (h : Sound s) : Contract s where
  range := h.range
  rises := by
    intro hs
    rw [advance_volume (by rw [hs]; rintro ⟨⟩)]
    exact (attack_step h hs).1
  falls := by
    intro hs
    rw [advance_volume (by rcases hs with hs | hs <;> rw [hs] <;> rintro ⟨⟩)]
    rcases hs with hs | hs
    · exact (falling_step h (h.decay hs).2.1).1
    · exact (falling_step h (h.release hs).2.1).1
  attackBelow := fun hs => (h.attack hs).2.2.2
  attackLeft := by
    intro hs
    rw [advance_volume (by rw [hs]; rintro ⟨⟩), left_iff hs (Or.inl rfl), arrived_attack h hs]
  decayLeft := by
    intro hs
    obtain ⟨hr, -, ht⟩ := h.decay hs
    rw [advance_volume (by rw [hs]; rintro ⟨⟩), left_iff hs (Or.inr rfl), arrived_falling hr, ht]
    push_cast
    rfl
  noWrap := h.noWrap
  keyOn := attack_leads.trans decay_leads s.keyOn ⟨act_sound h .keyOn, rfl⟩
  keyOff := release_leads s.keyOff ⟨act_sound h .keyOff, rfl⟩

/-- **The contract of the envelopes.** It holds after every sequence of register writes, key-ons, key-offs,
sample ends and advances. -/
theorem run_contract (l : List Action) : Contract (run l) := (run_sound l).contract

end DobieStation.Spu.Adsr
