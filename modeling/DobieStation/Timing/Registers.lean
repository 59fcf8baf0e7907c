import DobieStation.Timing.Loop
import DobieStation.Timing.ZeroReturn

/-! # The registers of the timers

The ten timers by name, what their registers say (`Components.setting`), and the calls that keep a timer that is to
return to zero armed (`Call.Careful`): the compare interrupt is enabled with the return, the counter is below the target
whenever it, the target or the clock is set, it is not read and not paused while it is above the target, and no gate
starts the timer. -/

namespace DobieStation.Timing.Registers

open DobieStation.Timing.Model DobieStation.Timing.Counter DobieStation.Timing.Slots
open DobieStation.Timing.ZeroReturn DobieStation.Timing.Loop

/-- A timer of the EE or of the IOP. -/
inductive Which where
  | ee (i : Fin 4)
  | iop (i : Fin 6)
  deriving DecidableEq, Repr

/-- The number of a timer in the scheduler. -/
def Which.number : Which → ℕ
  | .iop i => i
  | .ee i => 6 + i

def zeroReturn (w : Components) : Which → Bool
  | .ee i => (w.ee.timers i).control.clearOnReference
  | .iop i => (w.iop.timers i).control.zeroReturn

def target (w : Components) : Which → ℕ
  | .ee i => (w.ee.timers i).compare
  | .iop i => (w.iop.timers i).target

def setting (w : Components) (x : Which) : Setting where
  callback := match x with
    | .ee _ => w.eeCallback
    | .iop _ => w.iopCallback
  param := match x with
    | .ee i => i
    | .iop i => i
  mask := match x with
    | .ee _ => 0xFFFF
    | .iop i => IOPTimers.overflowMask i
  exact := match x with
    | .ee _ => true
    | .iop _ => false
  free := match x with
    | .ee _ => false
    | .iop _ => true
  zeroReturn := zeroReturn w x
  target := target w x

/-- The components know their timers by the numbers that the reset has given them. -/
structure Numbered (w : Components) : Prop where
  ee : ∀ i, w.ee.events i = 6 + i
  iop : ∀ i, w.iop.events i = i
  callbacks : w.eeCallback ≠ w.iopCallback

theorem mod_four_lt (n : ℕ) : n % 4 < 4 := Nat.mod_lt n (Nat.succ_pos 3)

/-! ### Conditions on the state before a call -/

/-- What the timer would be read as now. -/
def Value (s : Scheduler) (x : Which) (P : ℤ → Prop) : Prop :=
  ∀ t ∈ s.timers[x.number]?, P (valueAt t s.eeCycles.count)

def Running (s : Scheduler) (x : Which) : Prop := ∀ t ∈ s.timers[x.number]?, t.paused = false

/-- The present clock of the timer is precise enough for the target. -/
def PreciseFor (s : Scheduler) (x : Which) (target : ℤ) : Prop :=
  ∀ t ∈ s.timers[x.number]?, Precise t.overflowMask target t.clockrate

/-- The EE timer that a number stands for. -/
def eeTimer (n : ℕ) : Fin 4 := ⟨n % 4, mod_four_lt n⟩

def Call.Careful (s : Scheduler) (w : Components) : Call → Prop
  | .eeReadCounter i => zeroReturn w (.ee i) = true → Value s (.ee i) (· ≤ target w (.ee i))
  | .eeWrite addr value =>
    let i := eeTimer (addr / 2 ^ 11)
    match addr / 2 ^ 4 % 4 with
    | 0 => zeroReturn w (.ee i) = true → value % 2 ^ 16 < target w (.ee i)
    -- ZRET needs CMPE
    | 1 => value.testBit 6 = true → value.testBit 8 = true ∧ Value s (.ee i) (· < target w (.ee i))
    | 2 => zeroReturn w (.ee i) = true → Value s (.ee i) (· < (value % 2 ^ 16 : ℕ))
    | _ => True
  | .eeGate VSYNC high => ∀ i : Fin 4, zeroReturn w (.ee i) = true →
    (w.ee.timers i).control.gateEnable && (w.ee.timers i).control.gateVBLANK == VSYNC →
      if EETimers.isTimerEnabled (EETimers.gateTimer VSYNC high w.ee i).1 i then Running s (.ee i)
      else Value s (.ee i) (· ≤ target w (.ee i))
  | .iopReadCounter i => zeroReturn w (.iop i) = true → Value s (.iop i) (· ≤ target w (.iop i))
  | .iopReadControl _ => True
  | .iopWriteCounter i value => zeroReturn w (.iop i) = true → value.toNat < target w (.iop i)
  | .iopWriteControl i value =>
    let v := value.toNat
    v.testBit 3 = true → v.testBit 4 = true ∧ 0 < target w (.iop i) ∧
      Precise (IOPTimers.overflowMask i) (target w (.iop i)) (IOPTimers.prescaled
        (IOPTimers.clockSource i (v.testBit 8)) (if i.val < 4 then v / 2 ^ 9 % 2 else v / 2 ^ 13 % 4))
  | .iopWriteTarget i value => zeroReturn w (.iop i) = true →
    Value s (.iop i) (· < value.toNat) ∧ PreciseFor s (.iop i) value.toNat
  | .addEvent f delta _ => f ≠ s.timerEventId ∧ s.eeCycles.count + delta < 2 ^ 63

/-! ### Operations on other timers -/

/-- The operation is not about timer `n`. -/
def Spares (n : ℕ) : Op → Prop
  | .getTimerCounter j | .setTimerCounter j _ | .setTimerTarget j _ | .setTimerClockrate j _ | .setTimerPause j _
  | .setTimerIntMask j _ _ => j ≠ n
  | _ => True

variable {w w' : Components} {s : Scheduler} {x : Which} {now : ℤ} {v v' : Slot}

theorem apply_spares {n : ℕ} {o : Op} (h : Spares n o) (v : Slot) : v.apply now n o = some v := by
  cases o <;> first | rfl | exact if_neg h | exact congrArg some (if_neg h)

theorem run_spares {n : ℕ} : ∀ {ops : List Op}, (∀ o ∈ ops, Spares n o) → ∀ v : Slot, v.run now n ops = some v
  | [], _, _ => rfl
  | o :: ops, h, v => by
    rw [Slot.run, List.foldlM_cons, apply_spares (h o List.mem_cons_self)]
    exact run_spares (fun o' ho' => h o' (List.mem_cons_of_mem o ho')) v

theorem run_append {n : ℕ} (ops ops' : List Op) (v : Slot) :
    v.run now n (ops ++ ops') = (v.run now n ops).bind (·.run now n ops') := by
  rw [Slot.run, List.foldlM_append]
  rfl

theorem number_inj {x y : Which} (h : x.number = y.number) : x = y := by
  cases x with
  | ee i =>
    cases y with
    | ee j =>
      have hij : i = j := Fin.ext (Nat.add_left_cancel h)
      rw [hij]
    | iop j =>
      simp only [Which.number] at h
      omega
  | iop i =>
    cases y with
    | ee j =>
      simp only [Which.number] at h
      omega
    | iop j =>
      have hij : i = j := Fin.ext h
      rw [hij]

/-! ### One timer of a component -/

theorem setting_ee (w : Components) (i : Fin 4) (t : EETimers.Timer) (x : Which) :
    setting { w with ee := w.ee.set i t } x =
      if x = .ee i then
        { setting w x with zeroReturn := t.control.clearOnReference, target := t.compare }
      else setting w x := by
  split_ifs with h
  · subst h
    simp [setting, zeroReturn, target, EETimers.EmotionTiming.set]
  · cases x with
    | iop j => rfl
    | ee j =>
      have hj : j ≠ i := fun hj => h (by rw [hj])
      simp [setting, zeroReturn, target, EETimers.EmotionTiming.set, Function.update_of_ne hj]

theorem setting_iop (w : Components) (i : Fin 6) (t : IOPTimers.Timer) (x : Which) :
    setting { w with iop := w.iop.set i t } x =
      if x = .iop i then { setting w x with zeroReturn := t.control.zeroReturn, target := t.target }
      else setting w x := by
  split_ifs with h
  · subst h
    simp [setting, zeroReturn, target, IOPTimers.IOPTiming.set]
  · cases x with
    | ee j => rfl
    | iop j =>
      have hj : j ≠ i := fun hj => h (by rw [hj])
      simp [setting, zeroReturn, target, IOPTimers.IOPTiming.set, Function.update_of_ne hj]

theorem numbered_ee (h : Numbered w) (i : Fin 4) (t : EETimers.Timer) :
    Numbered { w with ee := w.ee.set i t } := ⟨h.ee, h.iop, h.callbacks⟩

theorem numbered_iop (h : Numbered w) (i : Fin 6) (t : IOPTimers.Timer) :
    Numbered { w with iop := w.iop.set i t } := ⟨h.ee, h.iop, h.callbacks⟩

theorem run_one {n : ℕ} {o : Op} (h : v.run now n [o] = some v') : v.apply now n o = some v' := by
  rw [Slot.run, List.foldlM_cons, Option.bind_eq_bind, Option.bind_eq_some_iff] at h
  obtain ⟨v₁, h₁, h₂⟩ := h
  cases h₂
  exact h₁

/-- A timer that the call is not about. -/
theorem matches_other {ops : List Op} (hm : Matches (setting w x) now v) (hset : setting w' x = setting w x)
    (hops : ∀ o ∈ ops, Spares x.number o) (hv : v.run now x.number ops = some v') :
    Matches (setting w' x) now v' := by
  rw [run_spares hops] at hv
  obtain rfl := Option.some.inj hv
  rwa [hset]

/-- The clock sources of the EE are precise for every target. -/
theorem ee_rates : ∀ scale ∈ [1, 16, 256, 9371], 0 < busClockrate / scale ∧ busClockrate / scale ≤ eeClockrate ∧
    Precise 0xFFFF 0xFFFF (busClockrate / scale : ℕ) := by
  decide

theorem iop_rates : ∀ (i : Fin 6) (b : Bool), ∀ p < 4, 0 < IOPTimers.prescaled (IOPTimers.clockSource i b) p ∧
    IOPTimers.prescaled (IOPTimers.clockSource i b) p ≤ eeClockrate := by
  decide

/-! ### The calls -/

/-- What a call is made on: the timer `x` matches its registers. -/
structure Before (s : Scheduler) (w : Components) (x : Which) (v : Slot) : Prop where
  numbered : Numbered w
  timer : s.timers[x.number]? = some v.timer
  clock : s.eeCycles.count < 2 ^ 54
  set : Matches (setting w x) s.eeCycles.count v

variable {ops : List Op}

theorem Before.value (h : Before s w x v) {P : ℤ → Prop} (hp : Value s x P) : P (valueAt v.timer s.eeCycles.count) :=
  hp v.timer h.timer

/-- An operation on one timer of the EE. -/
theorem ee_one {i : Fin 4} {t : EETimers.Timer} {o : Op} (h : Before s w x v)
    (ho : ∀ n, n ≠ 6 + i.val → Spares n o)
    (hself : x = .ee i → v.apply s.eeCycles.count (6 + i) o = some v' →
      Matches { setting w x with zeroReturn := t.control.clearOnReference, target := t.compare } s.eeCycles.count v')
    (hv : v.run s.eeCycles.count x.number [o] = some v') :
    Matches (setting { w with ee := w.ee.set i t } x) s.eeCycles.count v' := by
  by_cases hx : x = .ee i
  · rw [setting_ee, if_pos hx]
    refine hself hx ?_
    subst hx
    exact run_one hv
  · refine matches_other h.set (by rw [setting_ee, if_neg hx]) (fun o' ho' => ?_) hv
    rw [List.mem_singleton] at ho'
    subst ho'
    exact ho _ fun hnum => hx (number_inj (show x.number = (Which.ee i).number from hnum))

/-- What `write_control` leaves of the component. -/
theorem writeControl_eq {e e' : EETimers.EmotionTiming} {i : Fin 4} {value : ℕ}
    (h : EETimers.writeControl e i value = some e') : ∃ t, e' = e.set i t ∧
      t.compare = (e.timers i).compare ∧ t.control.clearOnReference = value.testBit 6 ∧
      t.control.compareIntEnable = value.testBit 8 ∧ t.clockScale ∈ [1, 16, 256, 9371] := by
  have hgate : ¬ (value.testBit 2 = true ∧ value % 4 ≠ 3 ∧ value.testBit 3 = false) := by
    intro hgate
    simp [EETimers.writeControl, hgate] at h
  simp only [EETimers.writeControl, if_neg hgate] at h
  refine ⟨_, (Option.some.inj h).symm, rfl, rfl, rfl, ?_⟩
  obtain h0 | h1 | h2 | h3 : value % 4 = 0 ∨ value % 4 = 1 ∨ value % 4 = 2 ∨ value % 4 = 3 := by omega
  · simp [h0]
  · simp [h1]
  · simp [h2]
  · simp [h3]

theorem eeControl_matches {i : Fin 4} {value : ℕ} {e' : EETimers.EmotionTiming} (h : Before s w x v)
    (hc : value.testBit 6 = true → value.testBit 8 = true ∧ Value s (.ee i) (· < target w (.ee i)))
    (hw : EETimers.writeControl w.ee i value = some e')
    (hv : v.run s.eeCycles.count x.number [.setTimerPause (w.ee.events i) (!EETimers.isTimerEnabled e' i),
      .setTimerClockrate (w.ee.events i) (busClockrate / (e'.timers i).clockScale),
      .setTimerIntMask (w.ee.events i) (e'.timers i).control.overflowIntEnable
        (e'.timers i).control.compareIntEnable] = some v') :
    Matches (setting { w with ee := e' } x) s.eeCycles.count v' := by
  obtain ⟨t, rfl, hcompare, hz, hcan, hscale⟩ := writeControl_eq hw
  have htimer : (w.ee.set i t).timers i = t := by simp [EETimers.EmotionTiming.set]
  rw [h.numbered.ee, htimer] at hv
  by_cases hx : x = .ee i
  · rw [setting_ee, if_pos hx]
    subst hx
    obtain ⟨hpos, hle, hprecise⟩ := ee_rates t.clockScale hscale
    have hstop := h.set.stop
    have hpause : Matches _ _ (v.pause s.eeCycles.count (!EETimers.isTimerEnabled (w.ee.set i t) i)) :=
      matches_pause hstop h.clock (fun hf => absurd hf Bool.false_ne_true) fun hz => absurd hz Bool.false_ne_true
    simp only [Slot.run, List.foldlM_cons, List.foldlM_nil, Slot.apply, Which.number, if_true, Option.bind_eq_bind,
      Option.bind_some, Option.bind_eq_some_iff, Option.pure_def, Option.some.injEq] at hv
    obtain ⟨v₁, hv₁, rfl⟩ := hv
    obtain ⟨hm, hrate, -, harm⟩ := matches_clockrate hpause h.clock hpos hle (fun _ => hprecise) hv₁
    rw [pause_value h.set.sound h.clock] at harm
    rw [hcompare]
    refine matches_mask hm fun hz' => ?_
    obtain ⟨hcmpe, hbelow⟩ := hc (hz ▸ hz')
    have hsteady : Precise 0xFFFF (target w (.ee i)) (busClockrate / t.clockScale : ℕ) :=
      precise_of_mask hprecise (by omega)
    obtain ⟨htarget, hpos', hi⟩ := harm (h.value hbelow) hsteady
    exact ⟨hcan.trans hcmpe, htarget, hpos', hrate ▸ hsteady, hi⟩
  · refine matches_other h.set (by rw [setting_ee, if_neg hx]) (fun o ho => ?_) hv
    have hnum : 6 + i.val ≠ x.number := fun hnum => hx (number_inj hnum.symm)
    simp only [List.mem_cons, List.not_mem_nil, or_false] at ho
    rcases ho with rfl | rfl | rfl <;> exact hnum

theorem eeWrite_matches {addr value : ℕ} (h : Before s w x v) (hc : Call.Careful s w (.eeWrite addr value))
    (hr : (Call.eeWrite addr value).request w = some (w', ops))
    (hv : v.run s.eeCycles.count x.number ops = some v') : Matches (setting w' x) s.eeCycles.count v' := by
  obtain ⟨⟨e', ops'⟩, hw, heq⟩ := Option.map_eq_some_iff.mp hr
  obtain ⟨rfl, rfl⟩ := Prod.mk.inj heq
  dsimp only at hv ⊢
  have hclock := h.clock
  obtain h0 | h1 | h2 | h3 : addr / 2 ^ 4 % 4 = 0 ∨ addr / 2 ^ 4 % 4 = 1 ∨ addr / 2 ^ 4 % 4 = 2 ∨
      addr / 2 ^ 4 % 4 = 3 := by omega
  · -- the counter
    simp only [Call.Careful, h0] at hc
    simp only [EETimers.write32, h0, Option.some.injEq, Prod.mk.injEq] at hw
    obtain ⟨rfl, rfl⟩ := hw
    rw [h.numbered.ee] at hv
    refine ee_one h ?_ ?_ hv
    · exact fun n hn => hn.symm
    · intro hx hone
      subst hx
      rw [Slot.apply, if_pos rfl] at hone
      exact matches_counter h.set hclock (by omega) (fun hz => Or.inr (hc hz)) hone
  · -- the control register
    simp only [Call.Careful, h1] at hc
    simp only [EETimers.write32, h1, Option.map_eq_some_iff, Prod.mk.injEq] at hw
    obtain ⟨e₁, hwrite, rfl, rfl⟩ := hw
    exact eeControl_matches h hc hwrite hv
  · -- the target
    simp only [Call.Careful, h2] at hc
    simp only [EETimers.write32, h2, Option.some.injEq, Prod.mk.injEq] at hw
    obtain ⟨rfl, rfl⟩ := hw
    rw [h.numbered.ee] at hv
    refine ee_one h ?_ ?_ hv
    · exact fun n hn => hn.symm
    · intro hx hone
      subst hx
      rw [Slot.apply, if_pos rfl] at hone
      have hlt : value % 2 ^ 16 < 2 ^ 32 := by omega
      refine matches_target h.set hclock hlt (fun hz => ⟨h.value (hc hz), ?_⟩) hone
      have hsteady := h.set.set.steady rfl
      rw [h.set.set.mask] at hsteady
      exact precise_of_mask hsteady h.set.sound.rate_pos
  · -- no register
    simp only [EETimers.write32, h3, Option.some.injEq, Prod.mk.injEq] at hw
    obtain ⟨rfl, rfl⟩ := hw
    exact matches_other h.set rfl (by simp) hv

/-- An operation on one timer of the IOP. -/
theorem iop_one {i : Fin 6} {t : IOPTimers.Timer} {o : Op} (h : Before s w x v)
    (ho : ∀ n, n ≠ i.val → Spares n o)
    (hself : x = .iop i → v.apply s.eeCycles.count i o = some v' →
      Matches { setting w x with zeroReturn := t.control.zeroReturn, target := t.target } s.eeCycles.count v')
    (hv : v.run s.eeCycles.count x.number [o] = some v') :
    Matches (setting { w with iop := w.iop.set i t } x) s.eeCycles.count v' := by
  by_cases hx : x = .iop i
  · rw [setting_iop, if_pos hx]
    refine hself hx ?_
    subst hx
    exact run_one hv
  · refine matches_other h.set (by rw [setting_iop, if_neg hx]) (fun o' ho' => ?_) hv
    rw [List.mem_singleton] at ho'
    subst ho'
    exact ho _ fun hnum => hx (number_inj (show x.number = (Which.iop i).number from hnum))

/-- A read of the timer `y`. -/
theorem read_matches {y : Which} (h : Before s w x v)
    (hc : zeroReturn w y = true → Value s y (· ≤ target w y))
    (hv : v.run s.eeCycles.count x.number [.getTimerCounter y.number] = some v') :
    Matches (setting w x) s.eeCycles.count v' := by
  by_cases hx : x = y
  · subst hx
    have hread := run_one hv
    rw [Slot.apply, if_pos rfl] at hread
    obtain rfl := Option.some.inj hread
    exact matches_read h.set h.clock fun hz => h.value (hc hz)
  · refine matches_other h.set rfl (fun o ho => ?_) hv
    rw [List.mem_singleton] at ho
    subst ho
    exact fun hnum => hx (number_inj hnum).symm

theorem iopWriteCounter_matches {i : Fin 6} {value : BitVec 32} (h : Before s w x v)
    (hc : zeroReturn w (.iop i) = true → value.toNat < target w (.iop i))
    (hv : v.run s.eeCycles.count x.number (IOPTimers.writeCounter w.iop i value).2 = some v') :
    Matches (setting { w with iop := (IOPTimers.writeCounter w.iop i value).1 } x) s.eeCycles.count v' := by
  simp only [IOPTimers.writeCounter, h.numbered.iop] at hv ⊢
  refine iop_one h ?_ ?_ hv
  · exact fun n hn => hn.symm
  · intro hx hone
    subst hx
    rw [Slot.apply, if_pos rfl] at hone
    exact matches_counter h.set h.clock value.isLt (fun hz => Or.inr (hc hz)) hone

theorem iopWriteTarget_matches {i : Fin 6} {value : BitVec 32} (h : Before s w x v)
    (hc : zeroReturn w (.iop i) = true → Value s (.iop i) (· < value.toNat) ∧ PreciseFor s (.iop i) value.toNat)
    (hv : v.run s.eeCycles.count x.number (IOPTimers.writeTarget w.iop i value).2 = some v') :
    Matches (setting { w with iop := (IOPTimers.writeTarget w.iop i value).1 } x) s.eeCycles.count v' := by
  simp only [IOPTimers.writeTarget, h.numbered.iop] at hv ⊢
  refine iop_one h ?_ ?_ hv
  · exact fun n hn => hn.symm
  · intro hx hone
    subst hx
    rw [Slot.apply, if_pos rfl] at hone
    refine matches_target h.set h.clock value.isLt (fun hz => ⟨h.value (hc hz).1, ?_⟩) hone
    have hprecise := (hc hz).2 v.timer h.timer
    rwa [h.set.set.mask] at hprecise

/-- What `write_control` leaves of the component, and what it asks of the scheduler. -/
theorem iopControl_eq {p : IOPTimers.IOPTiming} {i : Fin 6} {value : BitVec 16} {r : IOPTimers.IOPTiming × List Op}
    (h : IOPTimers.writeControl p i value = some r) : ∃ t, r.1 = p.set i t ∧ t.target = (p.timers i).target ∧
      t.control.zeroReturn = value.toNat.testBit 3 ∧ t.control.compareInterruptEnabled = value.toNat.testBit 4 ∧
      t.control.externSignal = value.toNat.testBit 8 ∧
      t.control.prescale = (if i.val < 4 then value.toNat / 2 ^ 9 % 2 else value.toNat / 2 ^ 13 % 4) ∧
      t.control.prescale < 4 ∧
      r.2 = [.setTimerClockrate (p.events i)
          (IOPTimers.prescaled (IOPTimers.clockSource i t.control.externSignal) t.control.prescale),
        .setTimerCounter (p.events i) 0, .setTimerPause (p.events i) false,
        .setTimerIntMask (p.events i) t.control.overflowInterruptEnabled t.control.compareInterruptEnabled] := by
  have hgate : value.toNat.testBit 0 = false := by
    by_contra hgate
    rw [IOPTimers.writeControl, if_pos (by simpa using hgate)] at h
    cases h
  simp only [IOPTimers.writeControl, hgate, Bool.false_eq_true, if_false] at h
  obtain rfl := Option.some.inj h
  refine ⟨_, rfl, rfl, rfl, rfl, rfl, rfl, ?_, rfl⟩
  dsimp only
  split
  · omega
  · omega

theorem iopWriteControl_matches {i : Fin 6} {value : BitVec 16} {r : IOPTimers.IOPTiming × List Op}
    (h : Before s w x v) (hc : Call.Careful s w (.iopWriteControl i value))
    (hw : IOPTimers.writeControl w.iop i value = some r) (hv : v.run s.eeCycles.count x.number r.2 = some v') :
    Matches (setting { w with iop := r.1 } x) s.eeCycles.count v' := by
  obtain ⟨t, hset, htarget, hzero, hcmpe, hextern, hprescale, hscale, hops⟩ := iopControl_eq hw
  simp only [Call.Careful, ← hzero, ← hcmpe, ← hextern, ← hprescale] at hc
  rw [hops, h.numbered.iop] at hv
  rw [hset]
  by_cases hx : x = .iop i
  · rw [setting_iop, if_pos hx, htarget]
    subst hx
    obtain ⟨hpos, hle⟩ := iop_rates i t.control.externSignal t.control.prescale hscale
    simp only [Slot.run, List.foldlM_cons, List.foldlM_nil, Slot.apply, Which.number, if_true, Option.bind_eq_bind,
      Option.bind_some, Option.bind_eq_some_iff, Option.pure_def, Option.some.injEq] at hv
    obtain ⟨v₁, hv₁, v₂, hv₂, rfl⟩ := hv
    obtain ⟨hm₁, hrate, -, -⟩ := matches_clockrate h.set.stop h.clock hpos hle
      (fun he => absurd he Bool.false_ne_true) hv₁
    have hm₂ := matches_counter hm₁ h.clock (by decide) (fun hz => absurd hz Bool.false_ne_true) hv₂
    have hrun : v₂.pause s.eeCycles.count false = v₂ := by
      rw [Slot.pause, if_pos (hm₂.set.running rfl).symm]
    rw [hrun]
    refine matches_mask hm₂ fun hz => ?_
    obtain ⟨hcmpe, hpos', hprecise⟩ := hc hz
    obtain ⟨ha, -, hcounter, -⟩ := assign_counter hm₁.sound h.clock (by decide) hv₂
    have hrate₂ := ha.clockrate.trans hrate
    obtain ⟨htarget', -, hi⟩ := returns_of_assign ⟨fun _ => by simp only [Ownership.label], fun _ => by simp only⟩
      (fun _ => by simp only) hm₁.sound h.clock hv₂ hm₂.set.mode hm₂.sound
      (by rw [hcounter]; exact_mod_cast hpos') (by rw [hrate₂]; exact hprecise)
    exact ⟨hcmpe, htarget', hpos', by rw [hrate₂]; exact hprecise, hi⟩
  · refine matches_other h.set (by rw [setting_iop, if_neg hx]) (fun o ho => ?_) hv
    have hnum : i.val ≠ x.number := fun hnum => hx (number_inj hnum.symm)
    simp only [List.mem_cons, List.not_mem_nil, or_false] at ho
    rcases ho with rfl | rfl | rfl | rfl <;> exact hnum

/-! ### The gates -/

/-- What a gate does to a timer is up to the timer alone. -/
theorem gateTimer_eq (VSYNC high : Bool) (t : EETimers.Timer) : ∃ (t' : EETimers.Timer) (resets : Bool),
    t'.control = t.control ∧ t'.compare = t.compare ∧ ∀ (e : EETimers.EmotionTiming) (i : Fin 4), e.timers i = t →
      EETimers.gateTimer VSYNC high e i =
        if t.control.gateEnable && t.control.gateVBLANK == VSYNC then
          (e.set i t', (if resets then [.setTimerCounter (e.events i) 0] else []) ++
            [.setTimerPause (e.events i) (!(!t'.gated && t'.control.enabled))])
        else (e, []) := by
  obtain h0 | h1 | h2 | h3 | h4 : t.control.gateMode = 0 ∨ t.control.gateMode = 1 ∨ t.control.gateMode = 2 ∨
      t.control.gateMode = 3 ∨ 4 ≤ t.control.gateMode := by omega
  · refine ⟨{ t with gated := high }, false, rfl, rfl, fun e i he => ?_⟩
    simp [EETimers.gateTimer, he, h0, EETimers.isTimerEnabled, EETimers.EmotionTiming.set]
  · refine ⟨if high then { t with counter := 0, gated := false } else { t with gated := false }, high, ?_, ?_,
      fun e i he => ?_⟩
    · cases high <;> rfl
    · cases high <;> rfl
    · cases high <;> simp [EETimers.gateTimer, he, h1, EETimers.isTimerEnabled, EETimers.EmotionTiming.set]
  · refine ⟨if high then { t with gated := false } else { t with counter := 0, gated := false }, !high, ?_, ?_,
      fun e i he => ?_⟩
    · cases high <;> rfl
    · cases high <;> rfl
    · cases high <;> simp [EETimers.gateTimer, he, h2, EETimers.isTimerEnabled, EETimers.EmotionTiming.set]
  · refine ⟨{ t with counter := 0, gated := false }, true, rfl, rfl, fun e i he => ?_⟩
    simp [EETimers.gateTimer, he, h3, EETimers.isTimerEnabled, EETimers.EmotionTiming.set]
  · refine ⟨t, false, rfl, rfl, fun e i he => ?_⟩
    obtain ⟨k, hk⟩ := Nat.exists_eq_add_of_le' h4
    simp [EETimers.gateTimer, he, hk, EETimers.isTimerEnabled, EETimers.EmotionTiming.set]

/-- The body of the loop of `gate`. -/
def gateStep (VSYNC high : Bool) (r : EETimers.EmotionTiming × List Op) (i : Fin 4) :
    EETimers.EmotionTiming × List Op :=
  ((EETimers.gateTimer VSYNC high r.1 i).1, r.2 ++ (EETimers.gateTimer VSYNC high r.1 i).2)

theorem gateTimer_other (VSYNC high : Bool) (e : EETimers.EmotionTiming) (i : Fin 4) :
    (EETimers.gateTimer VSYNC high e i).1.events = e.events ∧
      (∀ j ≠ i, (EETimers.gateTimer VSYNC high e i).1.timers j = e.timers j) ∧
      ∀ o ∈ (EETimers.gateTimer VSYNC high e i).2, ∀ n, n ≠ e.events i → Spares n o := by
  obtain ⟨t, resets, -, -, heq⟩ := gateTimer_eq VSYNC high (e.timers i)
  rw [heq e i rfl]
  split_ifs
  · refine ⟨rfl, fun j hj => Function.update_of_ne hj _ _, fun o ho n hn => ?_⟩
    simp only [List.mem_append, List.mem_singleton] at ho
    rcases ho with rfl | rfl <;> exact hn.symm
  · refine ⟨rfl, fun j hj => Function.update_of_ne hj _ _, fun o ho n hn => ?_⟩
    simp only [List.nil_append, List.mem_singleton] at ho
    subst ho
    exact hn.symm
  · exact ⟨rfl, fun _ _ => rfl, fun o ho => absurd ho List.not_mem_nil⟩

/-- The gates of other timers. -/
theorem gates_other (VSYNC high : Bool) (now : ℤ) {j : Fin 4} : ∀ (l : List (Fin 4))
    (r : EETimers.EmotionTiming × List Op), j ∉ l → (∀ i, r.1.events i = 6 + i) →
    (l.foldl (gateStep VSYNC high) r).1.events = r.1.events ∧
      (l.foldl (gateStep VSYNC high) r).1.timers j = r.1.timers j ∧
      ∀ v : Slot, v.run now (6 + j) (l.foldl (gateStep VSYNC high) r).2 = v.run now (6 + j) r.2
  | [], _, _, _ => ⟨rfl, rfl, fun _ => rfl⟩
  | i :: l, r, hj, hev => by
    obtain ⟨hevents, htimers, hspares⟩ := gateTimer_other VSYNC high r.1 i
    have hji : j ≠ i := fun h => hj (h ▸ List.mem_cons_self)
    obtain ⟨hevents', htimers', hrun⟩ := gates_other VSYNC high now l (gateStep VSYNC high r i)
      (fun h => hj (List.mem_cons_of_mem i h)) (fun k => by rw [gateStep, hevents, hev])
    refine ⟨hevents'.trans hevents, htimers'.trans (htimers j hji), fun v => (hrun v).trans ?_⟩
    have hne : 6 + j.val ≠ r.1.events i := by
      rw [hev]
      exact fun h => hji (Fin.ext (Nat.add_left_cancel h))
    rw [gateStep, run_append]
    cases hv : v.run now (6 + j) r.2 with
    | none => rfl
    | some v' => exact run_spares (fun o ho => hspares o ho _ hne) v'

theorem gates_spare (VSYNC high : Bool) {n : ℕ} (hn : n < 6) : ∀ (l : List (Fin 4))
    (r : EETimers.EmotionTiming × List Op), (∀ i, r.1.events i = 6 + i) → (∀ o ∈ r.2, Spares n o) →
    ∀ o ∈ (l.foldl (gateStep VSYNC high) r).2, Spares n o
  | [], _, _, hr => hr
  | i :: l, r, hev, hr => by
    obtain ⟨hevents, -, hspares⟩ := gateTimer_other VSYNC high r.1 i
    refine gates_spare VSYNC high hn l (gateStep VSYNC high r i) (fun k => by rw [gateStep, hevents, hev]) ?_
    intro o ho
    rcases List.mem_append.mp ho with ho | ho
    · exact hr o ho
    · refine hspares o ho n ?_
      rw [hev]
      omega

/-- **A gate**, for one of the timers: what happens to the others plays no part. -/
theorem gate_one (VSYNC high : Bool) (now : ℤ) {e : EETimers.EmotionTiming} (hev : ∀ i, e.events i = 6 + i)
    (i : Fin 4) : (EETimers.gate e VSYNC high).1.events = e.events ∧
      (EETimers.gate e VSYNC high).1.timers i = (EETimers.gateTimer VSYNC high e i).1.timers i ∧
      ∀ v : Slot, v.run now (6 + i) (EETimers.gate e VSYNC high).2 =
        v.run now (6 + i) (EETimers.gateTimer VSYNC high e i).2 := by
  obtain ⟨l, l', hl⟩ := List.append_of_mem (List.mem_finRange i)
  have hnodup := List.nodup_finRange 4
  rw [hl] at hnodup
  have hnot : i ∉ l ∧ i ∉ l' := by
    rw [List.nodup_append, List.nodup_cons] at hnodup
    exact ⟨fun h => hnodup.2.2 i h i List.mem_cons_self rfl, hnodup.2.1.1⟩
  have hgate : EETimers.gate e VSYNC high =
      l'.foldl (gateStep VSYNC high) (gateStep VSYNC high (l.foldl (gateStep VSYNC high) (e, [])) i) := by
    show (List.finRange 4).foldl (gateStep VSYNC high) (e, []) = _
    rw [hl, List.foldl_append, List.foldl_cons]
  obtain ⟨hevents₁, htimers₁, hrun₁⟩ := gates_other VSYNC high now l (e, []) hnot.1 hev
  obtain ⟨t, resets, -, -, heq⟩ := gateTimer_eq VSYNC high (e.timers i)
  have hevents₂ := (gateTimer_other VSYNC high (l.foldl (gateStep VSYNC high) (e, [])).1 i).1
  obtain ⟨hevents₃, htimers₃, hrun₃⟩ := gates_other VSYNC high now l'
    (gateStep VSYNC high (l.foldl (gateStep VSYNC high) (e, [])) i) hnot.2
    (fun k => by rw [gateStep, hevents₂, hevents₁, hev])
  -- the gate of the timer itself, after the first ones and alone
  have hself : (EETimers.gateTimer VSYNC high (l.foldl (gateStep VSYNC high) (e, [])).1 i).1.timers i =
        (EETimers.gateTimer VSYNC high e i).1.timers i ∧
      (EETimers.gateTimer VSYNC high (l.foldl (gateStep VSYNC high) (e, [])).1 i).2 =
        (EETimers.gateTimer VSYNC high e i).2 := by
    rw [heq e i rfl, heq _ i htimers₁, hevents₁]
    split_ifs
    · exact ⟨by simp [EETimers.EmotionTiming.set], rfl⟩
    · exact ⟨by simp [EETimers.EmotionTiming.set], rfl⟩
    · exact ⟨htimers₁, rfl⟩
  rw [hgate]
  refine ⟨(hevents₃.trans hevents₂).trans hevents₁, htimers₃.trans hself.1, fun v => (hrun₃ v).trans ?_⟩
  rw [gateStep, run_append, hrun₁ v, hself.2]
  rfl

theorem gate_matches (VSYNC high : Bool) (h : Before s w x v) (hc : Call.Careful s w (.eeGate VSYNC high))
    (hv : v.run s.eeCycles.count x.number (EETimers.gate w.ee VSYNC high).2 = some v') :
    Matches (setting { w with ee := (EETimers.gate w.ee VSYNC high).1 } x) s.eeCycles.count v' := by
  cases x with
  | iop j =>
    exact matches_other h.set rfl (gates_spare VSYNC high j.isLt _ (w.ee, []) h.numbered.ee (by simp)) hv
  | ee i =>
    obtain ⟨-, htimers, hrun⟩ := gate_one VSYNC high s.eeCycles.count h.numbered.ee i
    obtain ⟨t, resets, hcontrol, hcompare, heq⟩ := gateTimer_eq VSYNC high (w.ee.timers i)
    have hset : setting { w with ee := (EETimers.gate w.ee VSYNC high).1 } (.ee i) = setting w (.ee i) := by
      simp only [setting, zeroReturn, target, htimers, heq w.ee i rfl]
      split_ifs <;> simp [EETimers.EmotionTiming.set, hcontrol, hcompare]
    have hcareful := hc i
    rw [Which.number, hrun, heq w.ee i rfl] at hv
    rw [heq w.ee i rfl] at hcareful
    rw [hset]
    by_cases hgated : ((w.ee.timers i).control.gateEnable && (w.ee.timers i).control.gateVBLANK == VSYNC) = true
    · rw [if_pos hgated] at hv hcareful
      have henabled : EETimers.isTimerEnabled (w.ee.set i t) i = (!t.gated && t.control.enabled) := by
        simp [EETimers.isTimerEnabled, EETimers.EmotionTiming.set]
      rw [henabled] at hcareful
      rw [h.numbered.ee, run_append] at hv
      obtain ⟨v₁, hv₁, hv₂⟩ := Option.bind_eq_some_iff.mp hv
      have hpause := run_one hv₂
      rw [Slot.apply, if_pos rfl] at hpause
      obtain rfl := Option.some.inj hpause
      -- the counter may be reset first
      have hm : Matches (setting w (.ee i)) s.eeCycles.count v₁ ∧ v₁.timer.paused = v.timer.paused ∧
          (valueAt v.timer s.eeCycles.count ≤ target w (.ee i) →
            valueAt v₁.timer s.eeCycles.count ≤ target w (.ee i)) := by
        cases resets with
        | false =>
          obtain rfl := Option.some.inj hv₁
          exact ⟨h.set, rfl, id⟩
        | true =>
          have hone := run_one hv₁
          rw [Slot.apply, if_pos rfl] at hone
          refine ⟨matches_counter h.set h.clock (by decide) (fun _ => Or.inl rfl) hone,
            (assign_counter h.set.sound h.clock (by decide) hone).2.2.2, fun _ => ?_⟩
          rw [assign_value h.set.sound h.clock (by decide) hone]
          exact_mod_cast Nat.zero_le _
      refine matches_pause hm.1 h.clock (fun hf => absurd hf Bool.false_ne_true) fun hz => ?_
      have hcond := hcareful hz hgated
      cases hp : !t.gated && t.control.enabled with
      | true =>
        rw [hp, if_pos rfl] at hcond
        simp only [Bool.not_true, Bool.false_eq_true, if_false]
        exact hm.2.1.trans (hcond v.timer h.timer)
      | false =>
        rw [hp, if_neg Bool.false_ne_true] at hcond
        simp only [Bool.not_false, if_true]
        exact hm.2.2 (h.value hcond)
    · rw [if_neg hgated] at hv
      obtain rfl := Option.some.inj hv
      exact h.set

/-! ### All calls -/

/-- The operation is about a timer. -/
def OnTimer : Op → Prop
  | .addEvent _ _ _ | .createTimer _ _ _ | .registerFunction | .registerTimerCallback => False
  | _ => True

theorem gates_onTimer (VSYNC high : Bool) : ∀ (l : List (Fin 4)) (r : EETimers.EmotionTiming × List Op),
    (∀ o ∈ r.2, OnTimer o) → ∀ o ∈ (l.foldl (gateStep VSYNC high) r).2, OnTimer o
  | [], _, hr => hr
  | i :: l, r, hr => by
    refine gates_onTimer VSYNC high l (gateStep VSYNC high r i) fun o ho => ?_
    rcases List.mem_append.mp ho with ho | ho
    · exact hr o ho
    · obtain ⟨t, resets, -, -, heq⟩ := gateTimer_eq VSYNC high (r.1.timers i)
      rw [heq r.1 i rfl] at ho
      split_ifs at ho
      · simp only [List.mem_append, List.mem_singleton] at ho
        rcases ho with rfl | rfl <;> trivial
      · simp only [List.nil_append, List.mem_singleton] at ho
        subst ho
        trivial
      · exact absurd ho List.not_mem_nil

/-- What a call asks of the scheduler is about timers, or is a new event. -/
theorem request_ops {c : Call} (hr : c.request w = some (w', ops)) :
    (∀ o ∈ ops, OnTimer o) ∨ ∃ f delta param, c = .addEvent f delta param ∧ ops = [.addEvent f delta param] := by
  cases c with
  | eeReadCounter i | iopReadCounter i | iopReadControl i =>
    cases hr
    exact Or.inl (by simp [OnTimer])
  | iopWriteCounter i value | iopWriteTarget i value =>
    cases hr
    exact Or.inl (by simp [OnTimer, IOPTimers.writeCounter, IOPTimers.writeTarget])
  | eeWrite addr value =>
    obtain ⟨⟨e', ops'⟩, hw, heq⟩ := Option.map_eq_some_iff.mp hr
    cases heq
    unfold EETimers.write32 at hw
    dsimp only at hw
    left
    split at hw
    · cases hw
      simp [OnTimer]
    · obtain ⟨e₁, -, heq⟩ := Option.map_eq_some_iff.mp hw
      cases heq
      simp [OnTimer]
    · cases hw
      simp [OnTimer]
    · cases hw
      simp
  | eeGate VSYNC high =>
    cases hr
    exact Or.inl (gates_onTimer VSYNC high _ (w.ee, []) (by simp))
  | iopWriteControl i value =>
    obtain ⟨r, hw, heq⟩ := Option.map_eq_some_iff.mp hr
    cases heq
    obtain ⟨t, -, -, -, -, -, -, -, hops⟩ := iopControl_eq hw
    rw [hops]
    exact Or.inl (by simp [OnTimer])
  | addEvent f delta param =>
    cases hr
    exact Or.inr ⟨f, delta, param, rfl, rfl⟩

theorem numbered_request {c : Call} (h : Numbered w) (hr : c.request w = some (w', ops)) : Numbered w' := by
  cases c with
  | eeReadCounter i | iopReadCounter i | iopReadControl i | addEvent f delta param =>
    cases hr
    exact ⟨h.ee, h.iop, h.callbacks⟩
  | iopWriteCounter i value | iopWriteTarget i value =>
    cases hr
    exact ⟨h.ee, h.iop, h.callbacks⟩
  | eeWrite addr value =>
    obtain ⟨⟨e', ops'⟩, hw, heq⟩ := Option.map_eq_some_iff.mp hr
    cases heq
    unfold EETimers.write32 at hw
    dsimp only at hw
    split at hw
    · cases hw
      exact ⟨h.ee, h.iop, h.callbacks⟩
    · obtain ⟨e₁, hw₁, heq⟩ := Option.map_eq_some_iff.mp hw
      cases heq
      obtain ⟨t, rfl, -⟩ := writeControl_eq hw₁
      exact ⟨h.ee, h.iop, h.callbacks⟩
    · cases hw
      exact ⟨h.ee, h.iop, h.callbacks⟩
    · cases hw
      exact ⟨h.ee, h.iop, h.callbacks⟩
  | eeGate VSYNC high =>
    cases hr
    exact ⟨fun i => by rw [(gate_one VSYNC high 0 h.ee i).1]; exact h.ee i, h.iop, h.callbacks⟩
  | iopWriteControl i value =>
    obtain ⟨r, hw, heq⟩ := Option.map_eq_some_iff.mp hr
    cases heq
    obtain ⟨t, hset, -⟩ := iopControl_eq hw
    refine ⟨h.ee, fun j => ?_, h.callbacks⟩
    rw [hset]
    exact h.iop j

/-- A component with other flags and another counter. -/
theorem setting_ee_same {i : Fin 4} {t : EETimers.Timer}
    (hz : t.control.clearOnReference = (w.ee.timers i).control.clearOnReference)
    (ht : t.compare = (w.ee.timers i).compare) (x : Which) :
    setting { w with ee := w.ee.set i t } x = setting w x := by
  rw [setting_ee]
  split_ifs with hx
  · subst hx
    rw [hz, ht]
    rfl
  · rfl

theorem setting_iop_same {i : Fin 6} {t : IOPTimers.Timer}
    (hz : t.control.zeroReturn = (w.iop.timers i).control.zeroReturn)
    (ht : t.target = (w.iop.timers i).target) (x : Which) :
    setting { w with iop := w.iop.set i t } x = setting w x := by
  rw [setting_iop]
  split_ifs with hx
  · subst hx
    rw [hz, ht]
    rfl
  · rfl

/-- **A careful call** leaves every timer as its registers say, and in time. -/
theorem call_matches {c : Call} (h : Before s w x v) (hc : Call.Careful s w c) (hr : c.request w = some (w', ops))
    (hv : v.run s.eeCycles.count x.number ops = some v') : Matches (setting w' x) s.eeCycles.count v' := by
  cases c with
  | eeReadCounter i =>
    cases hr
    rw [h.numbered.ee] at hv
    exact read_matches h hc hv
  | eeWrite addr value => exact eeWrite_matches h hc hr hv
  | eeGate VSYNC high =>
    cases hr
    exact gate_matches VSYNC high h hc hv
  | iopReadCounter i =>
    cases hr
    rw [h.numbered.iop] at hv
    exact read_matches h hc hv
  | iopReadControl i =>
    cases hr
    refine matches_other h.set ?_ (by simp) hv
    refine setting_iop_same ?_ ?_ x
    · rfl
    · rfl
  | iopWriteCounter i value =>
    cases hr
    exact iopWriteCounter_matches h hc hv
  | iopWriteControl i value =>
    obtain ⟨r, hw, heq⟩ := Option.map_eq_some_iff.mp hr
    cases heq
    exact iopWriteControl_matches h hc hw hv
  | iopWriteTarget i value =>
    cases hr
    exact iopWriteTarget_matches h hc hv
  | addEvent f delta param =>
    cases hr
    exact matches_other h.set rfl (by simp [Spares]) hv

theorem setting_answer (c : Call) (s : Scheduler) (h : Numbered w) :
    (∀ x, setting (c.answer s w) x = setting w x) ∧ Numbered (c.answer s w) := by
  cases c with
  | eeReadCounter i =>
    simp only [Call.answer]
    cases s.timers[w.ee.events i]? with
    | none => exact ⟨fun _ => rfl, h⟩
    | some t => exact ⟨setting_ee_same rfl rfl, numbered_ee h i _⟩
  | iopReadCounter i =>
    simp only [Call.answer]
    cases s.timers[w.iop.events i]? with
    | none => exact ⟨fun _ => rfl, h⟩
    | some t => exact ⟨setting_iop_same rfl rfl, numbered_iop h i _⟩
  | _ => exact ⟨fun _ => rfl, h⟩

end DobieStation.Timing.Registers
