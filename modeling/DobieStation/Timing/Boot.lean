import DobieStation.Timing.Restart

/-! # The reset of the timers

After the reset of the emulator the six timers of the IOP and the four of the EE are there, each as its registers say
(`boot_ready`). Those of the IOP run, and those of the EE stand at zero. -/

namespace DobieStation.Timing.Boot

open DobieStation.Timing.Model DobieStation.Timing.Events DobieStation.Timing.Armed DobieStation.Timing.Counter
open DobieStation.Timing.Ownership DobieStation.Timing.Timeliness DobieStation.Timing.Slots
open DobieStation.Timing.ZeroReturn DobieStation.Timing.Loop DobieStation.Timing.Registers
open DobieStation.Timing.Restart

variable {s s' : Scheduler} {n k : ℕ} {g g' : ℕ → Setting}

/-- In the reset: `k` callbacks are registered, and the first `n` timers are made. -/
structure Made (s : Scheduler) (n k : ℕ) (g : ℕ → Setting) : Prop where
  owned : Owned s
  bounded : Bounded s
  count : s.eeCycles.count = 0
  length : s.timers.length = n
  callbacks : s.timerCallbacks = k
  slot : ∀ id < n, ∃ v, Has s id v ∧ Matches (g id) 0 v

/-- A timer that is created with this callback, mask and parameter. -/
structure New (g : Setting) (c : ℤ) (m p : ℕ) : Prop where
  callback : g.callback = c
  mask : g.mask = m
  mask_lt : m < 2 ^ 32
  param : g.param = p
  target : g.target = 0
  free : g.free = false

def created (s : Scheduler) (c : ℤ) (m p : ℕ) : Scheduler :=
  { s with
    nextEventId := s.nextEventId + 1
    closestEventTime := min (int64 (s.eeCycles.count + timestampMax.toNat)) s.closestEventTime
    events := s.events ++ [⟨s.nextEventId, int64 (s.eeCycles.count + timestampMax.toNat), s.timers.length,
      s.timerEventId⟩]
    timers := s.timers ++ [⟨s.nextEventId, p, 0, timestampMax, int64 m, 1, 0, s.eeCycles.count, c, true, false,
      false⟩] }

theorem createTimer_eq_some {c : ℤ} {m p id : ℕ} (h : createTimer s c m p = some (id, s')) :
    (0 ≤ c ∧ c < s.timerCallbacks) ∧ s' = created s c m p := by
  unfold createTimer at h
  split_ifs at h with hc
  simp only [Option.bind_eq_bind, Option.bind_eq_some_iff, Option.pure_def, Option.some.injEq, Prod.mk.injEq] at h
  obtain ⟨⟨n', s₁⟩, h₁, -, rfl⟩ := h
  obtain ⟨rfl, rfl⟩ := addEvent_eq_some h₁
  exact ⟨by omega, rfl⟩

/-- A timer as it is created. -/
theorem created_matches {g : Setting} {c : ℤ} {m p eventId : ℕ} {due : ℤ} (h : New g c m p) :
    Matches g 0 ⟨⟨eventId, p, 0, timestampMax, int64 m, 1, 0, 0, c, true, false, false⟩, due⟩ := by
  have hm := h.mask_lt
  have hm0 : (0 : ℤ) ≤ m := Int.natCast_nonneg m
  have hpos : (0 : ℤ) < 1 := by decide
  have hle : (1 : ℤ) ≤ eeClockrate := by decide
  have hwait : (0 : ℤ) ≤ (2 ^ 8 * eeClockrate / 1 + 8 * 2 ^ 8) * 1 := by decide
  have hrange : (0 : ℤ) ≤ 2 ^ 33 + 0 := by decide
  have hscale : 2 ^ 8 ≤ clockScale ⟨eventId, p, 0, timestampMax, m, 1, 0, 0, c, true, false, false⟩ :=
    le_clockScale hpos hle
  rw [int64_nat (by omega)]
  refine ⟨⟨h.callback.symm, h.param.symm, h.mask.symm, Or.inr h.target, ?_, fun _ => ?_, fun hf => ?_⟩, ?_, fun _ => ?_⟩
  · rw [h.target]
    decide
  · show min (m : ℤ) m * ((2 ^ 8 * eeClockrate : ℤ) % 1) ≤ (2 ^ 8 * eeClockrate / 1 + 8 * 2 ^ 8) * 1
    rw [Int.emod_one, mul_zero]
    exact hwait
  · exact absurd (h.free.symm.trans hf) (by decide)
  · exact ⟨hm0, by dsimp only; omega, hpos, hle, le_rfl, (show (0 : ℤ) < 2 ^ 8 by decide).trans_le hscale, le_rfl,
      le_rfl, le_rfl, hrange⟩
  · exact Or.inr ⟨rfl, Int.natCast_nonneg _⟩

theorem Made.create (h : Made s n k g) {c : ℤ} {m p : ℕ} (hg : New (g n) c m p)
    (hs : Op.apply s (.createTimer c m p) = some s') : Made s' (n + 1) k g := by
  have hrange : InRange s.eeCycles (.createTimer c m p) := h.count
  have hbounded := (op_moves h.bounded hrange hs).bounded h.bounded
  obtain ⟨⟨id, s₁⟩, h₁, rfl⟩ := Option.map_eq_some_iff.mp hs
  obtain ⟨hc, rfl⟩ := createTimer_eq_some h₁
  have howned : Owned (created s c m p) := by
    refine h.owned.adopt hc ?_ ?_ rfl rfl rfl
    · rw [keys, created, List.map_append]
      rfl
    · rw [labels, created, List.map_append]
      rfl
  refine ⟨howned, hbounded, h.count, ?_, h.callbacks, fun id hid => ?_⟩
  · show (s.timers ++ [_]).length = n + 1
    rw [List.length_append, h.length]
    rfl
  · have hlen := h.length
    rcases Nat.lt_succ_iff_lt_or_eq.mp hid with hid | rfl
    · obtain ⟨v, hv, hm⟩ := h.slot id hid
      obtain ⟨e, he, hk⟩ := hv.event
      exact ⟨v, ⟨(List.getElem?_append_left (by omega)).trans hv.timer, e, List.mem_append_left _ he, hk⟩, hm⟩
    · refine ⟨⟨⟨s.nextEventId, p, 0, timestampMax, int64 m, 1, 0, s.eeCycles.count, c, true, false, false⟩, _⟩,
        ⟨?_, _, List.mem_append_right _ (List.mem_singleton_self _), ?_, rfl⟩, ?_⟩
      · rw [← hlen]
        exact List.getElem?_concat_length
      · rw [hlen]
        rfl
      · rw [h.count]
        exact created_matches hg

/-- The timers of a component are created one after the other. -/
theorem Made.creates {c : ℤ} {N : ℕ} (mask : Fin N → ℕ) : ∀ (l : List (Fin N)) {s s' : Scheduler} {n : ℕ},
    Made s n k g → (∀ (i : ℕ) (j : Fin N), l[i]? = some j → New (g (n + i)) c (mask j) j) →
    (l.map fun j : Fin N => Op.createTimer c (mask j) j).foldlM Op.apply s = some s' →
    Made s' (n + l.length) k g
  | [], s, s', n, h, _, hs => by
    cases hs
    exact h
  | j :: l, s, s', n, h, hg, hs => by
    rw [List.map_cons, List.foldlM_cons, Option.bind_eq_bind, Option.bind_eq_some_iff] at hs
    obtain ⟨s₁, h₁, h₂⟩ := hs
    have hmade := (h.create (hg 0 j rfl) h₁).creates mask l (fun i j' hj' => ?_) h₂
    · rw [List.length_cons, Nat.add_comm l.length, ← Nat.add_assoc]
      exact hmade
    · have hnext := hg (i + 1) j' hj'
      rwa [Nat.add_comm i, ← Nat.add_assoc] at hnext

theorem Made.register (h : Made s n k g) : Made (registerTimerCallback s).2 n (k + 1) g := by
  refine ⟨⟨h.owned.id_lt, h.owned.ids, h.owned.owns, h.owned.owner, fun l hl => ?_⟩, ?_, h.count, h.length, ?_,
    fun id hid => ?_⟩
  · obtain ⟨h0, h1⟩ := h.owned.callback l hl
    refine ⟨h0, ?_⟩
    simp only [registerTimerCallback]
    omega
  · exact (moves_of_events_eq rfl rfl rfl rfl : Moves s (registerTimerCallback s).2).bounded h.bounded
  · rw [registerTimerCallback, h.callbacks]
  · obtain ⟨v, hv, hm⟩ := h.slot id hid
    exact ⟨v, ⟨hv.timer, hv.event⟩, hm⟩

theorem pause_false_running (now : ℤ) (v : Slot) : (v.pause now false).timer.paused = false := by
  unfold Slot.pause
  split_ifs with hp hpause
  · exact hp.symm
  · exact hpause.elim
  · rfl

/-- Un-pausing several timers, for one of them. -/
theorem run_unpause (now : ℤ) (id : ℕ) : ∀ (l : List ℕ) (v : Slot),
    v.run now id (l.map fun j => Op.setTimerPause j false) = some (if id ∈ l then v.pause now false else v)
  | [], v => by simp [Slot.run]
  | j :: l, v => by
    have htwice : (v.pause now false).pause now false = v.pause now false := by
      rw [Slot.pause, if_pos (pause_false_running now v).symm]
    have hcons : v.run now id ((j :: l).map fun j => Op.setTimerPause j false) =
        (if j = id then v.pause now false else v).run now id (l.map fun j => Op.setTimerPause j false) := rfl
    rw [hcons, run_unpause now id l]
    by_cases hj : j = id
    · subst hj
      simp only [if_true, List.mem_cons, true_or]
      split_ifs
      · rw [htwice]
      · rfl
    · have hj' : id ≠ j := fun h => hj h.symm
      simp [hj, hj']

/-- The timers run, and are not to be paused any more. -/
theorem Made.unpause (h : Made s n k g) (l : List ℕ) (hz : ∀ id ∈ l, (g id).zeroReturn = false)
    (hg : ∀ id, id ∉ l → g' id = g id) (hl : ∀ id ∈ l, { g' id with free := false } = g id)
    (hs : (l.map fun j => Op.setTimerPause j false).foldlM Op.apply s = some s') : Made s' n k g' := by
  have hforeign : ∀ s₁ : Scheduler, s₁.timerEventId = s.timerEventId →
      ∀ o ∈ l.map fun j => Op.setTimerPause j false, Foreign s₁ o := fun s₁ _ o ho => by
    obtain ⟨j, -, rfl⟩ := List.mem_map.mp ho
    trivial
  have hgrows := ops_grow _ hforeign hs
  obtain ⟨hbounded, hcycles⟩ := ops_bounded _ h.bounded (fun o ho => by
    obtain ⟨j, -, rfl⟩ := List.mem_map.mp ho
    trivial) hs
  refine ⟨h.owned.grows hgrows, hbounded, by rw [hcycles]; exact h.count, (grows_length hgrows).trans h.length,
    hgrows.callbacks.trans h.callbacks, fun id hid => ?_⟩
  obtain ⟨v, hv, hm⟩ := h.slot id hid
  obtain ⟨v', hv', hhas⟩ := ops_slot _ h.owned hforeign hs hv
  rw [h.count, run_unpause] at hv'
  obtain rfl := Option.some.inj hv'
  refine ⟨_, hhas, ?_⟩
  split_ifs with hid'
  · have hfalse := hl id hid'
    have hpause : Matches (g id) 0 (v.pause 0 false) := matches_pause hm (by decide) (fun _ => rfl) fun hz' =>
      absurd ((hz id hid').symm.trans hz') (by decide)
    rw [← hfalse] at hpause
    have hset := hpause.set
    refine ⟨⟨hset.callback, hset.param, hset.mask, hset.target, hset.target_lt, hset.steady, fun _ => ?_⟩,
      hpause.sound, fun hz' => ?_⟩
    · exact pause_false_running 0 v
    · have hz'' := hz id hid'
      rw [← hfalse] at hz''
      exact absurd (hz''.symm.trans hz') (by decide)
  · rw [hg id hid']
    exact hm

/-! ### The reset of the emulator -/

theorem which_number (x : Which) : which x.number = x := by
  cases x with
  | iop i => exact dif_pos i.isLt
  | ee i =>
    rw [Which.number, which, dif_neg (by omega), Nat.add_sub_cancel_left]
    exact congrArg Which.ee (Fin.ofNat_val_eq_self i)

theorem finRange_get {N i : ℕ} {j : Fin N} (h : (List.finRange N)[i]? = some j) : i = j.val := by
  obtain ⟨hi, rfl⟩ := List.getElem?_eq_some_iff.mp h
  rw [List.getElem_finRange]
  rfl

theorem reset_made (s₀ : Scheduler) (functions : ℕ) (g : ℕ → Setting) :
    Made { reset s₀ with registeredFuncs := (reset s₀).registeredFuncs + functions } 0 s₀.timerCallbacks g := by
  have hbounded := init_bounded ⟨s₀, rfl⟩
  refine ⟨?_, ?_, rfl, rfl, rfl, fun id hid => absurd hid (Nat.not_lt_zero id)⟩
  · constructor <;> simp [keys, labels, reset, registerFunction]
  · exact ⟨hbounded.closest_le, hbounded.closest_max, hbounded.not_late, hbounded.id_lt, hbounded.count_nonneg,
      hbounded.count_max⟩

/-- The timers of the IOP. -/
theorem iop_made {p : IOPTimers.IOPTiming} {w : Components}
    (h : Made s 0 k fun id => { setting w (which id) with free := false })
    (hw : w.iop = (IOPTimers.reset p s).1 ∧ w.iopCallback = s.timerCallbacks)
    (hs : (IOPTimers.reset p s).2.foldlM Op.apply s = some s') : Made s' 6 (k + 1) fun id => setting w (which id) := by
  have hlen := h.length
  have hops : (IOPTimers.reset p s).2 = Op.registerTimerCallback ::
      (((List.finRange 6).map fun i => Op.createTimer s.timerCallbacks (IOPTimers.overflowMask i) i) ++
        ((List.finRange 6).map fun i => s.timers.length + i.val).map fun j => Op.setTimerPause j false) := by
    rw [List.map_map]
    rfl
  rw [hops, List.foldlM_cons, Option.bind_eq_bind, Op.apply, Option.bind_some, List.foldlM_append, Option.bind_eq_bind,
    Option.bind_eq_some_iff] at hs
  obtain ⟨s₁, h₁, h₂⟩ := hs
  have hmade : Made s₁ (0 + 6) (k + 1) fun id => { setting w (which id) with free := false } := by
    refine h.register.creates IOPTimers.overflowMask (List.finRange 6) (fun i j hj => ?_) h₁
    obtain rfl := finRange_get hj
    have hx : which (0 + j.val) = .iop j := by
      rw [Nat.zero_add]
      exact which_number (.iop j)
    have htarget : (w.iop.timers j).target = 0 := by rw [hw.1]; rfl
    dsimp only
    rw [hx]
    refine ⟨hw.2, rfl, ?_, rfl, htarget, rfl⟩
    unfold IOPTimers.overflowMask
    split <;> decide
  have hmem : ∀ id, id ∈ (List.finRange 6).map (fun i => s.timers.length + i.val) ↔ id < 6 := fun id => by
    rw [hlen, List.mem_map]
    constructor
    · rintro ⟨i, -, hi⟩
      omega
    · exact fun hid => ⟨⟨id, hid⟩, List.mem_finRange _, Nat.zero_add id⟩
  have hiop : ∀ id < 6, ∃ j : Fin 6, which id = .iop j := fun id hid => ⟨⟨id, hid⟩, dif_pos hid⟩
  refine hmade.unpause _ (fun id hid => ?_) (fun id hid => ?_) (fun id hid => ?_) h₂
  · obtain ⟨j, hj⟩ := hiop id ((hmem id).mp hid)
    dsimp only
    rw [hj]
    show (w.iop.timers j).control.zeroReturn = false
    rw [hw.1]
    rfl
  · have hee : ∃ j : Fin 4, which id = .ee j := ⟨_, dif_neg fun hlt => hid ((hmem id).mpr hlt)⟩
    obtain ⟨j, hj⟩ := hee
    dsimp only
    rw [hj]
    rfl
  · rfl

/-- The timers of the EE. -/
theorem ee_made {e : EETimers.EmotionTiming} {w : Components} (h : Made s 6 k fun id => setting w (which id))
    (hw : w.ee = (EETimers.reset e s).1 ∧ w.eeCallback = s.timerCallbacks)
    (hs : (EETimers.reset e s).2.foldlM Op.apply s = some s') : Made s' 10 (k + 1) fun id => setting w (which id) := by
  have hops : (EETimers.reset e s).2 = Op.registerTimerCallback ::
      ((List.finRange 4).map fun i => Op.createTimer s.timerCallbacks 0xFFFF i) := rfl
  rw [hops, List.foldlM_cons, Option.bind_eq_bind, Op.apply, Option.bind_some] at hs
  refine h.register.creates (fun _ => 0xFFFF) (List.finRange 4) (fun i j hj => ?_) hs
  obtain rfl := finRange_get hj
  have hx : which (6 + j.val) = .ee j := which_number (.ee j)
  have htarget : (w.ee.timers j).compare = 0 := by rw [hw.1]; rfl
  rw [hx]
  exact ⟨hw.2, rfl, by decide, rfl, htarget, rfl⟩

/-- **The reset** makes every timer as its registers say. -/
theorem boot_ready {s₀ : Scheduler} {e : EETimers.EmotionTiming} {p : IOPTimers.IOPTiming} {functions : ℕ} {m : Machine}
    (h : boot s₀ e p functions = some m) : Ready m.sched m.components ∧ m.phase = .between := by
  obtain ⟨s₂, h₂, h⟩ := Option.bind_eq_some_iff.mp h
  obtain ⟨s₃, h₃, rfl⟩ := Option.map_eq_some_iff.mp h
  have hmade₂ := iop_made (w := ⟨(EETimers.reset e s₂).1, s₂.timerCallbacks, _, _⟩) (reset_made s₀ functions _)
    ⟨rfl, rfl⟩ h₂
  have hmade₃ := ee_made hmade₂ ⟨rfl, rfl⟩ h₃
  refine ⟨⟨hmade₃.owned, hmade₃.bounded, ?_, ⟨fun i => ?_, fun i => ?_, ?_⟩, hmade₃.length, fun x => ?_⟩, rfl⟩
  · rw [hmade₃.count]
    decide
  · show s₂.timers.length + i.val = 6 + i.val
    rw [hmade₂.length]
  · exact Nat.zero_add i.val
  · show (s₂.timerCallbacks : ℤ) ≠ (s₀.timerCallbacks : ℤ)
    rw [hmade₂.callbacks]
    omega
  · have hlt : x.number < 10 := by
      cases x with
      | ee i => exact Nat.add_lt_add_left i.isLt 6
      | iop i => exact i.isLt.trans (by decide)
    obtain ⟨v, hv, hm⟩ := hmade₃.slot x.number hlt
    rw [which_number] at hm
    refine ⟨v, hv, ?_⟩
    rw [hmade₃.count]
    exact hm

end DobieStation.Timing.Boot
