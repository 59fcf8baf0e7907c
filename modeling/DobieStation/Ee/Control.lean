import DobieStation.Ee.ProgramOrder
import Mathlib.Tactic.Common

/-! # Control flow of the handlers

Between two instructions the machine stands at the place that its log leads to (`Match`). From a
fetch on, a handler either leaves control alone (`Held`) or sends it somewhere (`Ends`), and the end
of the turn makes that the next place. The one thing that leads astray is a store to the INTC that
takes an interrupt within the instruction: from there on the log is not one of program order. -/

namespace DobieStation.Ee.Control

open DobieStation.Lib.Interaction DobieStation.Lib.Hoare DobieStation.Lib.Reach
open DobieStation.Ee.Interface DobieStation.Ee.Instructions DobieStation.Ee.Run
open DobieStation.Ee.ProgramOrder

variable {D α β : Type} {P : Rest D} {m m' : Machine D} {o : Place}

/-! ### Running a handler -/

@[simp] theorem exec_pure (a : α) : exec (pure a : Program D α) = pure a := rfl

@[simp] theorem exec_bind (c : Program D α) (f : α → Program D β) :
    exec (c >>= f) = exec c >>= fun a => exec (f a) := run_bind perform c f

theorem exec_call (op : Op D) : exec (call op) = perform op := run_ask perform op

theorem exec_ite {p : Prop} [Decidable p] {c c' : Program D α} :
    exec (if p then c else c') = if p then exec c else exec c' := run_ite perform p c c'

section
variable {Q : Unit → Machine D → Prop}

@[simp] theorem ensures_see {Q : Core D → Machine D → Prop} :
    Ensures (exec see) m Q ↔ Q m.core m := by
  rw [show (exec see : Run D (Core D)) = perform .see from exec_call .see]
  simp only [perform, ensures_bind, ensures_get, ensures_pure]

@[simp] theorem ensures_getPC {Q : Word → Machine D → Prop} :
    Ensures (exec getPC) m Q ↔ Q m.core.PC m := by
  simp only [getPC, exec_bind, ensures_bind, ensures_see, exec_pure, ensures_pure]

@[simp] theorem ensures_change {f : Core D → Core D} :
    Ensures (exec (change f)) m Q ↔ Q () { m with core := f m.core } := by
  rw [show exec (change f) = perform (.change f) from exec_call (.change f)]
  exact ensures_modify

@[simp] theorem ensures_setPC {addr : Word} :
    Ensures (exec (setPC addr)) m Q ↔
      Q () { m with pcNow := addr, core := { m.core with PC := addr } } := by
  rw [show exec (setPC addr) = perform (.setPC addr) from exec_call (.setPC addr)]
  exact ensures_modify

@[simp] theorem ensures_record {e : Event} :
    Ensures (exec (record e)) m Q ↔ Q () { m with log := e :: m.log } := by
  rw [show exec (record e) = perform (.record e) from exec_call (.record e)]
  exact ensures_modify

@[simp] theorem ensures_setTlbMap :
    Ensures (exec setTlbMap) m Q ↔ Q () { m with tlbMap := m.core.cop0.status.vtlbMap } := by
  rw [show (exec setTlbMap : Run D Unit) = perform .setTlbMap from exec_call .setTlbMap]
  exact ensures_modify

@[simp] theorem ensures_die {Q : α → Machine D → Prop} : Ensures (exec die) m Q ↔ True := by
  refine iff_true_intro ?_
  rw [die, exec_bind, ensures_bind]
  rw [show (exec (call .stop) : Run D Empty) = perform .stop from exec_call .stop]
  exact ensures_failure.mpr trivial

end

/-! ### The log only grows -/

def Grows (m m' : Machine D) : Prop := ∃ l, m'.log = l ++ m.log

theorem grows_refl (m : Machine D) : Grows m m := ⟨[], rfl⟩

theorem grows_trans (m m' m'' : Machine D) (h : Grows m m') (h' : Grows m' m'') : Grows m m'' := by
  obtain ⟨l, h⟩ := h
  obtain ⟨l', h'⟩ := h'
  exact ⟨l' ++ l, by rw [h', h, List.append_assoc]⟩

theorem perform_grows (op : Op D) : Within Grows (perform op) := by
  intro m
  cases op with
  | record e =>
    simp only [perform, ensures_modify]
    exact ⟨[e], rfl⟩
  | setTlb =>
    simp only [perform, ensures_bind, ensures_get]
    split
    · exact ensures_set.mpr (grows_refl m)
    · exact ensures_failure.mpr trivial
  | tlbEntry =>
    simp only [perform, ensures_bind, ensures_get, ensures_ite, ensures_pure, ensures_failure]
    exact ⟨fun _ => grows_refl m, fun _ => trivial⟩
  | stop => exact ensures_failure.mpr trivial
  | _ =>
    simp only [perform, ensures_bind, ensures_get, ensures_modify, ensures_pure]
    exact ⟨[], rfl⟩

theorem exec_grows (c : Program D α) : Within Grows (exec c) :=
  within_run grows_refl grows_trans perform_grows c

/-- A store to the INTC took an interrupt, and the log is not one of program order. -/
def Broken (log : List Event) : Prop := track log = none ∧ .store true ∈ log

def Clean (log : List Event) : Prop := .store true ∉ log

theorem Broken.grows (h : Broken m.log) (hg : Grows m m') : Broken m'.log := by
  obtain ⟨l, hl⟩ := hg
  rw [hl]
  exact ⟨track_none_append h.1 l, List.mem_append_right l h.2⟩

/-! ### Steps that leave control alone -/

structure Keeps (c c' : Core D) : Prop where
  PC : c'.PC = c.PC
  newPC : c'.newPC = c.newPC
  branchOn : c'.branchOn = c.branchOn
  delaySlot : c'.delaySlot = c.delaySlot
  EPC : c'.cop0.EPC = c.cop0.EPC

theorem keeps_refl (c : Core D) : Keeps c c := ⟨rfl, rfl, rfl, rfl, rfl⟩

theorem Keeps.trans {c c' c'' : Core D} (h : Keeps c c') (h' : Keeps c' c'') : Keeps c c'' :=
  ⟨h'.PC.trans h.PC, h'.newPC.trans h.newPC, h'.branchOn.trans h.branchOn,
    h'.delaySlot.trans h.delaySlot, h'.EPC.trans h.EPC⟩

structure Still (m m' : Machine D) : Prop where
  core : Keeps m.core m'.core
  log : ∃ l, m'.log = l ++ m.log ∧ ∀ e ∈ l, e = Event.store false

theorem Keeps.still {c : Core D} (h : Keeps m.core c) : Still m { m with core := c } :=
  ⟨h, [], rfl, by simp⟩

theorem still_refl (m : Machine D) : Still m m := ⟨keeps_refl _, [], rfl, by simp⟩

theorem still_trans (m m' m'' : Machine D) (h : Still m m') (h' : Still m' m'') : Still m m'' := by
  obtain ⟨l, hl, hs⟩ := h.log
  obtain ⟨l', hl', hs'⟩ := h'.log
  refine ⟨h.core.trans h'.core, l' ++ l, ?_, ?_⟩
  · rw [hl', hl, List.append_assoc]
  · intro e he
    rcases List.mem_append.mp he with he | he
    · exact hs' e he
    · exact hs e he

theorem Still.clean (h : Still m m') (hm : Clean m.log) : Clean m'.log := by
  obtain ⟨l, hl, hs⟩ := h.log
  rw [Clean, hl, List.mem_append]
  rintro (he | he)
  · cases hs _ he
  · exact hm he

theorem Still.track (h : Still m m') : track m'.log = track m.log := by
  obtain ⟨l, hl, hs⟩ := h.log
  rw [hl, track_stores hs]

theorem Still.grows (h : Still m m') : Grows m m' := by
  obtain ⟨l, hl, -⟩ := h.log
  exact ⟨l, hl⟩

/-! ### Places -/

/-- The branch in whose delay slot the program counter stands. -/
def slotOf (c : Core D) : Option Slot := if c.branchOn then some ⟨c.PC - 4, c.newPC⟩ else none

/-- Between two instructions. -/
structure Match (c : Core D) (o : Place) : Prop where
  next : o.next = c.PC
  slot : o.slot = slotOf c
  delaySlot : c.branchOn = true → c.delaySlot = 0
  epc : ∀ e ∈ o.epc, e = c.cop0.EPC

/-- After a fetch. -/
structure Fetched (c : Core D) (o : Place) : Prop where
  current : o.current = c.PC
  before : o.before = slotOf c
  next : o.next = after (slotOf c) (c.PC + 4)
  slot : o.slot = none
  delaySlot : c.branchOn = true → c.delaySlot = 0
  epc : ∀ e ∈ o.epc, e = c.cop0.EPC

/-- Before the end of the turn: without a branch, with one that was just taken, in the delay slot of
one with the program counter reversed, or without. -/
structure Leaves (c : Core D) (o : Place) : Prop where
  straight : c.branchOn = false → o.next = c.PC + 4 ∧ o.slot = none
  taken : c.branchOn = true → c.delaySlot ≠ 0 →
    c.delaySlot = 1 ∧ o.next = c.PC + 4 ∧ o.slot = some ⟨c.PC, c.newPC⟩
  again : c.branchOn = true → c.delaySlot = 0 → c.PC + 4 = o.current →
    o.next = o.current ∧ o.slot = some ⟨o.current - 4, c.newPC⟩
  jumps : c.branchOn = true → c.delaySlot = 0 → c.PC + 4 ≠ o.current →
    o.next = c.newPC ∧ o.slot = none
  epc : ∀ e ∈ o.epc, e = c.cop0.EPC

theorem Keeps.slotOf {c c' : Core D} (h : Keeps c c') : slotOf c' = slotOf c := by
  rw [Control.slotOf, Control.slotOf, h.PC, h.newPC, h.branchOn]

theorem Match.keeps {c c' : Core D} (h : Match c o) (hk : Keeps c c') : Match c' o where
  next := h.next.trans hk.PC.symm
  slot := h.slot.trans hk.slotOf.symm
  delaySlot := by rw [hk.branchOn, hk.delaySlot]; exact h.delaySlot
  epc := by rw [hk.EPC]; exact h.epc

theorem Fetched.keeps {c c' : Core D} (h : Fetched c o) (hk : Keeps c c') : Fetched c' o where
  current := h.current.trans hk.PC.symm
  before := h.before.trans hk.slotOf.symm
  next := by rw [hk.slotOf, hk.PC]; exact h.next
  slot := h.slot
  delaySlot := by rw [hk.branchOn, hk.delaySlot]; exact h.delaySlot
  epc := by rw [hk.EPC]; exact h.epc

theorem Leaves.keeps {c c' : Core D} (h : Leaves c o) (hk : Keeps c c') : Leaves c' o where
  straight := by rw [hk.branchOn, hk.PC]; exact h.straight
  taken := by rw [hk.branchOn, hk.delaySlot, hk.PC, hk.newPC]; exact h.taken
  again := by rw [hk.branchOn, hk.delaySlot, hk.PC, hk.newPC]; exact h.again
  jumps := by rw [hk.branchOn, hk.delaySlot, hk.PC, hk.newPC]; exact h.jumps
  epc := by rw [hk.EPC]; exact h.epc

theorem add_four_ne (pc : Word) : pc + 4 ≠ pc := by
  intro h
  have := congrArg (· - pc) h
  simp at this

theorem after_slotOf_true {c : Core D} (hb : c.branchOn = true) (pc : Word) :
    after (slotOf c) pc = c.newPC := by rw [slotOf, if_pos hb, after]

theorem after_slotOf_false {c : Core D} (hb : c.branchOn = false) (pc : Word) :
    after (slotOf c) pc = pc := by rw [slotOf, if_neg (by simp [hb]), after]

/-- A handler that leaves control alone goes on to the next instruction, or to the target. -/
theorem Fetched.leaves {c : Core D} (h : Fetched c o) : Leaves c o where
  straight hb := ⟨by rw [h.next, after_slotOf_false hb], h.slot⟩
  taken hb hd := absurd (h.delaySlot hb) hd
  again _ _ hpc := absurd (hpc.trans h.current) (add_four_ne _)
  jumps hb _ _ := ⟨by rw [h.next, after_slotOf_true hb], h.slot⟩
  epc := h.epc

/-- The machine stands between two instructions. -/
def Settled (m : Machine D) : Prop :=
  (Clean m.log ∧ ∃ o, track m.log = some o ∧ Match m.core o) ∨ Broken m.log

/-- The machine has fetched an instruction, and control was left alone. -/
def Held (o : Place) (m : Machine D) : Prop :=
  (Clean m.log ∧ track m.log = some o ∧ Fetched m.core o) ∨ Broken m.log

/-- The handler of the instruction at `pc` has come to its end. -/
def Ends (pc : Word) (m : Machine D) : Prop :=
  (Clean m.log ∧ ∃ o, track m.log = some o ∧ o.current = pc ∧ Leaves m.core o) ∨ Broken m.log

theorem Held.ends (h : Held o m) : Ends o.current m := by
  rcases h with ⟨hc, ht, hf⟩ | h
  · exact .inl ⟨hc, o, ht, rfl, hf.leaves⟩
  · exact .inr h

theorem Settled.still (h : Settled m) (hs : Still m m') : Settled m' := by
  rcases h with ⟨hc, o, ht, hm⟩ | h
  · exact .inl ⟨hs.clean hc, o, hs.track.trans ht, hm.keeps hs.core⟩
  · exact .inr (h.grows hs.grows)

theorem Held.still (h : Held o m) (hs : Still m m') : Held o m' := by
  rcases h with ⟨hc, ht, hf⟩ | h
  · exact .inl ⟨hs.clean hc, hs.track.trans ht, hf.keeps hs.core⟩
  · exact .inr (h.grows hs.grows)

theorem Ends.still {pc : Word} (h : Ends pc m) (hs : Still m m') : Ends pc m' := by
  rcases h with ⟨hc, o, ht, ho, hl⟩ | h
  · exact .inl ⟨hs.clean hc, o, hs.track.trans ht, ho, hl.keeps hs.core⟩
  · exact .inr (h.grows hs.grows)

/-! ### Taking an interrupt -/

structure Entered (m m' : Machine D) : Prop where
  handler : m'.core.PC ∈ vectors
  log : m'.log =
    .interrupt (saved (slotOf m.core) m.core.PC) m.core.branchOn m'.core.PC :: m.log
  branchOn : m'.core.branchOn = false
  EPC : m'.core.cop0.EPC = saved (slotOf m.core) m.core.PC

theorem saved_slotOf (c : Core D) : saved (slotOf c) c.PC = if c.branchOn then c.PC - 4 else c.PC := by
  unfold saved slotOf
  cases c.branchOn <;> rfl

theorem isSome_slotOf (c : Core D) : (slotOf c).isSome = c.branchOn := by
  unfold slotOf
  cases c.branchOn <;> rfl

theorem handler_mem_vectors (s : COP0_STATUS) : s.handler 0x80000200 ∈ vectors := by
  unfold COP0_STATUS.handler
  cases s.bev <;> decide

theorem takeInterrupt_spec : Ensures (exec takeInterrupt) m fun _ m' => Entered m m' := by
  simp only [takeInterrupt, handleException, unhalt, exec_bind, ensures_bind, ensures_change,
    ensures_see, ensures_setPC, ensures_setTlbMap, ensures_record]
  exact ⟨handler_mem_vectors _, by rw [saved_slotOf], rfl, (saved_slotOf _).symm⟩

/-- Between two instructions the place is kept. -/
theorem Entered.settled (h : Settled m) (he : Entered m m') : Settled m' := by
  rcases h with ⟨hc, o, ht, hm⟩ | h
  · refine .inl ⟨?_, { o with
        next := m'.core.PC, before := none, slot := none
        epc := some (saved (slotOf m.core) m.core.PC) }, ?_, ?_⟩
    · rw [Clean, he.log]
      simpa [Clean] using hc
    · rw [he.log, track_cons, ht, Option.bind_some, follow, hm.next, hm.slot, isSome_slotOf,
        if_pos ⟨rfl, rfl, he.handler⟩]
    · refine ⟨rfl, by simp [slotOf, he.branchOn], by simp [he.branchOn], ?_⟩
      intro e hmem
      rw [he.EPC]
      exact (Option.mem_some.mp hmem).symm
  · exact .inr (h.grows ⟨[_], he.log⟩)

/-- Within an instruction it is lost. -/
theorem Entered.astray (ht : track m.log = some o) (hf : Fetched m.core o) (he : Entered m m') :
    track m'.log = none := by
  rw [he.log, track_cons, ht, Option.bind_some, follow, if_neg]
  rintro ⟨hepc, hbd, -⟩
  rw [hf.slot] at hepc hbd
  have hb : m.core.branchOn = false := hbd
  rw [saved, hf.next, after_slotOf_false hb, saved_slotOf, hb] at hepc
  exact add_four_ne _ hepc.symm

/-- Beside the count and the halting, the state is as before. -/
structure Awake (m m' : Machine D) : Prop where
  keeps : Keeps m.core m'.core
  log : m'.log = m.log
  cop0 : m'.core.cop0 = m.core.cop0
  STAT : m'.core.intc.STAT = m.core.intc.STAT
  MASK : m'.core.intc.MASK = m.core.intc.MASK

theorem Awake.still (h : Awake m m') : Still m m' := ⟨h.keeps, [], h.log, by simp⟩

theorem endSpeedhack_spec : Ensures (exec endSpeedhack) m fun _ m' => Awake m m' := by
  simp only [endSpeedhack, unhalt, exec_bind, exec_ite, ensures_bind, ensures_see, ensures_ite,
    ensures_change, exec_pure, ensures_pure]
  exact ⟨fun _ => ⟨⟨rfl, rfl, rfl, rfl, rfl⟩, rfl, rfl, rfl, rfl⟩,
    fun _ => ⟨keeps_refl _, rfl, rfl, rfl, rfl⟩⟩

/-- The core takes an interrupt, or control is left alone. -/
def Checked (taken : Bool) (m m' : Machine D) : Prop :=
  if taken then Entered m m' else Still m m'

theorem Checked.after {m₁ : Machine D} {taken : Bool} (hk : Keeps m.core m₁.core)
    (hlog : m₁.log = m.log) (hc : Checked taken m₁ m') : Checked taken m m' := by
  cases taken with
  | false => exact still_trans _ _ _ ⟨hk, [], hlog, by simp⟩ hc
  | true =>
    have he : Entered m₁ m' := hc
    have hsaved : saved (slotOf m₁.core) m₁.core.PC = saved (slotOf m.core) m.core.PC := by
      rw [hk.slotOf, hk.PC]
    exact ⟨he.handler, by rw [he.log, hsaved, hk.branchOn, hlog], he.branchOn,
      he.EPC.trans hsaved⟩

theorem setInt0Signal_spec (value : Bool) : Ensures (exec (setInt0Signal value)) m fun _ m' =>
    Checked (value && m.core.cop0.intEnabled && m.core.cop0.status.int0Mask) m m' := by
  simp only [setInt0Signal, int0, exec_bind, exec_ite, ensures_bind, ensures_change, ensures_see,
    ensures_ite, exec_pure, ensures_pure]
  have hkeeps : Still m { m with core := { m.core with cop0.cause.int0Pending := value } } :=
    Keeps.still ⟨rfl, rfl, rfl, rfl, rfl⟩
  refine ⟨fun hon => ⟨fun hmask => ?_, fun hmask => ?_⟩, fun hoff => ?_⟩
  · refine takeInterrupt_spec.mono fun _ m' he => ?_
    have htaken : (value && m.core.cop0.intEnabled && m.core.cop0.status.int0Mask) = true :=
      Bool.and_eq_true_iff.mpr ⟨hon, hmask⟩
    rw [htaken]
    exact ⟨he.handler, he.log, he.branchOn, he.EPC⟩
  · have htaken : (value && m.core.cop0.intEnabled && m.core.cop0.status.int0Mask) = false := by
      rw [Bool.and_eq_false_iff]
      exact .inr (Bool.eq_false_iff.mpr hmask)
    rw [htaken]
    exact hkeeps
  · have htaken : (value && m.core.cop0.intEnabled && m.core.cop0.status.int0Mask) = false := by
      rw [Bool.and_eq_false_iff]
      exact .inl (Bool.eq_false_iff.mpr hoff)
    rw [htaken]
    exact hkeeps

theorem int0Check_spec : Ensures (exec int0Check) m fun _ m' =>
    Checked (m.core.takes m.core.intc.STAT m.core.intc.MASK) m m' := by
  simp only [int0Check, exec_bind, ensures_bind, ensures_change, ensures_see]
  refine endSpeedhack_spec.mono fun _ m₁ h => ?_
  refine (setInt0Signal_spec _).mono fun _ m' hc => ?_
  have htakes : m₁.core.takes m₁.core.intc.STAT m₁.core.intc.MASK =
      m.core.takes m.core.intc.STAT m.core.intc.MASK := by
    rw [Core.takes, h.STAT, h.MASK, h.cop0, Core.takes]
  rw [← htakes]
  refine Checked.after ?_ ?_ hc
  · exact h.keeps.trans ⟨rfl, rfl, rfl, rfl, rfl⟩
  · exact h.log

/-! ### Handlers that leave control alone -/

def Calm (m m' : Machine D) : Prop := ∀ o, Held o m → Held o m'

theorem calm_refl (m : Machine D) : Calm m m := fun _ h => h

theorem calm_trans (m m' m'' : Machine D) (h : Calm m m') (h' : Calm m' m'') : Calm m m'' :=
  fun o ho => h' o (h o ho)

theorem Still.calm (h : Still m m') : Calm m m' := fun _ ho => ho.still h

def Quiet (c : Program D α) : Prop := Within Calm (exec c)

section
variable {c c' : Program D α} {f : α → Program D β}

theorem quiet_pure (a : α) : Quiet (pure a : Program D α) := within_pure calm_refl a

theorem Quiet.bind (hc : Quiet c) (hf : ∀ a, Quiet (f a)) : Quiet (c >>= f) := by
  rw [Quiet, exec_bind]
  exact within_bind calm_trans hc hf

theorem quiet_ite {p : Prop} [Decidable p] (h : Quiet c) (h' : Quiet c') :
    Quiet (if p then c else c') := by
  split_ifs
  · exact h
  · exact h'

theorem quiet_of_still (h : Within Still (exec c)) : Quiet c := h.mono fun _ _ => Still.calm

theorem still_of_perform {op : Op D} (h : Within Still (perform op)) : Quiet (call op) := by
  rw [Quiet, exec_call]
  exact h.mono fun _ _ => Still.calm

theorem quiet_see : Quiet (see : Program D (Core D)) :=
  still_of_perform fun m => by
    simp only [perform, ensures_bind, ensures_get, ensures_pure]
    exact still_refl m

theorem quiet_getPCNow : Quiet (getPCNow : Program D Word) :=
  still_of_perform fun m => by
    simp only [perform, ensures_bind, ensures_get, ensures_pure]
    exact still_refl m

theorem still_pointer (address : Word) : Within Still (exec (pointer address : Program D _)) := by
  rw [pointer, exec_call]
  intro m
  simp only [perform, ensures_bind, ensures_get, ensures_pure]
  exact still_refl m

theorem quiet_pointer (address : Word) : Quiet (pointer address : Program D _) :=
  quiet_of_still (still_pointer address)

theorem quiet_tlbEntry : Quiet (tlbEntry : Program D _) :=
  still_of_perform fun m => by
    simp only [perform, ensures_bind, ensures_get, ensures_ite, ensures_pure, ensures_failure]
    exact ⟨fun _ => still_refl m, fun _ => trivial⟩

theorem quiet_setTlb : Quiet (setTlb : Program D Unit) :=
  still_of_perform fun m => by
    simp only [perform, ensures_bind, ensures_get]
    split
    · exact ensures_set.mpr ⟨keeps_refl _, [], rfl, by simp⟩
    · exact ensures_failure.mpr trivial

theorem quiet_setTlbModified (address : Word) : Quiet (setTlbModified address : Program D Unit) :=
  still_of_perform fun _ => ensures_modify.mpr ⟨keeps_refl _, [], rfl, by simp⟩

theorem still_setTlbMap : Within Still (exec (setTlbMap : Program D Unit)) :=
  fun _ => ensures_setTlbMap.2 ⟨keeps_refl _, [], rfl, by simp⟩

theorem still_die : Within Still (exec (die : Program D α)) := fun _ => ensures_die.2 trivial

theorem quiet_die : Quiet (die : Program D α) := fun _ => ensures_die.2 trivial

theorem still_change {g : Core D → Core D} (h : ∀ c, Keeps c (g c)) :
    Within Still (exec (change g)) := fun m => ensures_change.2 (h m.core).still

theorem quiet_change {g : Core D → Core D} (h : ∀ c, Keeps c (g c)) : Quiet (change g) :=
  quiet_of_still (still_change h)

theorem quiet_getPC : Quiet (getPC : Program D Word) := quiet_see.bind fun _ => quiet_pure _

theorem quiet_getGpr (r : BitVec 5) : Quiet (getGpr r : Program D Quad) :=
  quiet_see.bind fun _ => quiet_pure _

theorem quiet_gpr (n : ℕ) (r : BitVec 5) : Quiet (gpr n r : Program D _) :=
  (quiet_getGpr r).bind fun _ => quiet_pure _

theorem still_setGpr {n : ℕ} (r : BitVec 5) (v : BitVec n) (offset : ℕ) :
    Within Still (exec (setGpr r v offset : Program D Unit)) :=
  still_change fun c => by
    split_ifs
    · exact keeps_refl c
    · exact ⟨rfl, rfl, rfl, rfl, rfl⟩

theorem quiet_setGpr {n : ℕ} (r : BitVec 5) (v : BitVec n) (offset : ℕ) :
    Quiet (setGpr r v offset : Program D Unit) := quiet_of_still (still_setGpr r v offset)

theorem quiet_peek (g : D → α) : Quiet (peek g) := quiet_see.bind fun _ => quiet_pure _

end

/-! ### The other components -/

theorem within_still_bind {c : Program D α} {f : α → Program D β} (hc : Within Still (exec c))
    (hf : ∀ a, Within Still (exec (f a))) : Within Still (exec (c >>= f)) := by
  rw [exec_bind]
  exact within_bind still_trans hc hf

theorem still_pure (a : α) : Within Still (exec (pure a : Program D α)) := within_pure still_refl a

theorem still_ite {p : Prop} [Decidable p] {c c' : Program D α} (h : Within Still (exec c))
    (h' : Within Still (exec c')) : Within Still (exec (if p then c else c')) := by
  split_ifs
  · exact h
  · exact h'

theorem still_see : Within Still (exec (see : Program D (Core D))) :=
  fun m => ensures_see.2 (still_refl m)

theorem still_halt : Within Still (exec (halt : Program D Unit)) :=
  still_change fun _ => ⟨rfl, rfl, rfl, rfl, rfl⟩

theorem still_sendSignal (x : Signal) : Within Still (exec (sendSignal x : Program D Unit)) := by
  cases x with
  | irq id =>
    exact within_still_bind (still_change fun _ => ⟨rfl, rfl, rfl, rfl, rfl⟩) fun _ m =>
      endSpeedhack_spec.mono fun _ _ h => h.still
  | int1 value => exact still_change fun _ => ⟨rfl, rfl, rfl, rfl, rfl⟩

theorem still_sendSignals : ∀ l : List Signal,
    Within Still (exec (sendSignals l : Program D Unit))
  | [] => within_pure still_refl ()
  | x :: l => within_still_bind (still_sendSignal x) fun _ => still_sendSignals l

theorem still_device (e : Effect D α) : Within Still (exec (device e)) := by
  refine within_still_bind still_see fun c => ?_
  split
  · exact fun _ => ensures_die.2 trivial
  · refine within_still_bind (still_change fun _ => ⟨rfl, rfl, rfl, rfl, rfl⟩) fun _ => ?_
    exact within_still_bind (still_sendSignals _) fun _ => within_pure still_refl _

theorem quiet_device (e : Effect D α) : Quiet (device e) := quiet_of_still (still_device e)

/-! ### Memory -/

theorem writeStat_spec (v : Word) : Ensures (exec (writeStat v)) m fun _ m' =>
    Checked (m.core.takes (m.core.intc.STAT &&& ~~~v) m.core.intc.MASK) m m' := by
  rw [writeStat, exec_bind, ensures_bind, ensures_change]
  refine int0Check_spec.mono fun _ m' hc => ?_
  refine Checked.after ?_ ?_ hc
  · exact ⟨rfl, rfl, rfl, rfl, rfl⟩
  · rfl

theorem writeMask_spec (v : Word) : Ensures (exec (writeMask v)) m fun _ m' =>
    Checked (m.core.takes m.core.intc.STAT (m.core.intc.MASK ^^^ (v &&& 0x7FFF))) m m' := by
  rw [writeMask, exec_bind, ensures_bind, ensures_change]
  refine int0Check_spec.mono fun _ m' hc => ?_
  refine Checked.after ?_ ?_ hc
  · exact ⟨rfl, rfl, rfl, rfl, rfl⟩
  · rfl

/-- **A store to the INTC within an instruction**: if it takes an interrupt, the place is lost. -/
theorem Checked.calm {taken : Bool}
    (hc : Checked taken { m with log := .store taken :: m.log } m') : Calm m m' := by
  intro o ho
  cases taken with
  | false =>
    have hs : Still m { m with log := .store false :: m.log } :=
      ⟨keeps_refl _, [.store false], rfl, by simp⟩
    exact ho.still (still_trans _ _ _ hs hc)
  | true =>
    have he : Entered { m with log := .store true :: m.log } m' := hc
    rcases ho with ⟨-, ht, hf⟩ | hb
    · refine .inr ⟨Entered.astray (o := o) ?_ ?_ he, ?_⟩
      · rw [track_cons, ht, Option.bind_some, follow]
      · exact hf
      · rw [he.log]
        simp
    · exact .inr (hb.grows ⟨[_, _], he.log⟩)

/-- The note of the store and the store itself. -/
theorem quiet_store (stat mask : Core D → Word) {act : Program D Unit}
    (hact : ∀ m : Machine D, Ensures (exec act) m fun _ m' =>
      Checked (m.core.takes (stat m.core) (mask m.core)) m m') (m : Machine D) :
    Ensures (exec (do noteStore (stat m.core) (mask m.core); act)) m fun _ m' => Calm m m' := by
  simp only [noteStore, exec_bind, ensures_bind, ensures_see, ensures_record]
  exact (hact _).mono fun _ _ hc => hc.calm

theorem quiet_emulatorWrite (n : ℕ) (addr : Word) (v : Quad) :
    Quiet (emulatorWrite P n addr v) := by
  intro m
  rw [emulatorWrite, exec_bind, ensures_bind, ensures_see, exec_ite, ensures_ite]
  refine ⟨fun _ => ?_, fun _ => ?_⟩
  · exact quiet_store (fun c => c.intc.STAT &&& ~~~(v.setWidth 32))
      (fun c => c.intc.MASK) (fun _ => writeStat_spec _) m
  · rw [exec_ite, ensures_ite]
    refine ⟨fun _ => ?_, fun _ => quiet_device _ m⟩
    exact quiet_store (fun c => c.intc.STAT)
      (fun c => c.intc.MASK ^^^ (v.setWidth 32 &&& 0x7FFF)) (fun _ => writeMask_spec _) m

theorem still_readStat : Within Still (exec (readStat : Program D Word)) := by
  refine within_still_bind (still_change ?_) fun _ => within_still_bind still_see fun _ => ?_
  · exact fun _ => ⟨rfl, rfl, rfl, rfl, rfl⟩
  refine within_still_bind ?_ fun _ => within_still_bind still_see fun _ => still_pure _
  refine still_ite (within_still_bind still_halt fun _ => ?_) (still_pure ())
  exact still_change fun _ => ⟨rfl, rfl, rfl, rfl, rfl⟩

theorem still_emulatorRead (n : ℕ) (addr : Word) : Within Still (exec (emulatorRead P n addr)) := by
  refine still_ite ?_ (still_ite ?_ (still_device _))
  · exact within_still_bind still_readStat fun _ => still_pure _
  · exact within_still_bind still_see fun _ => still_pure _

/-- A load leaves control alone. -/
theorem still_read (n : ℕ) (addr : Word) : Within Still (exec (Interface.read P n addr)) := by
  refine still_ite still_die (within_still_bind (still_pointer addr) fun p => ?_)
  cases p with
  | null => exact still_die
  | mmio => exact still_emulatorRead n _
  | _ => exact within_still_bind still_see fun _ => still_pure _

theorem quiet_read (n : ℕ) (addr : Word) : Quiet (Interface.read P n addr) :=
  quiet_of_still (still_read n addr)

theorem quiet_write (n : ℕ) (addr : Word) (v : Quad) : Quiet (Interface.write P n addr v) := by
  refine quiet_ite quiet_die ((quiet_pointer addr).bind fun p => ?_)
  cases p with
  | null => exact quiet_die
  | mmio => exact quiet_emulatorWrite n _ v
  | _ => exact (quiet_setTlbModified addr).bind fun _ => quiet_change fun _ =>
      ⟨rfl, rfl, rfl, rfl, rfl⟩

theorem still_read32 (addr : Word) : Within Still (exec (read32 P addr)) :=
  within_still_bind (still_read 4 addr) fun _ => still_pure _

theorem quiet_read32 (addr : Word) : Quiet (read32 P addr) := quiet_of_still (still_read32 addr)

theorem quiet_write32 (addr v : Word) : Quiet (write32 P addr v) := quiet_write 4 addr _

end DobieStation.Ee.Control
