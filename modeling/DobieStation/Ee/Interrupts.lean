import DobieStation.Ee.Precise
import DobieStation.Tlb.Translation

/-! # Interrupts of the interpreter

A turn leads from one place of program order to the next, and what the other steps of a run do leaves
the place alone or takes an interrupt there. So the place is lost only by a store to the INTC that
makes the core take an interrupt within the instruction. -/

namespace DobieStation.Ee.Interrupts

open DobieStation.Lib.Hoare DobieStation.Lib.Reach
open DobieStation.Ee.Interface DobieStation.Ee.Instructions DobieStation.Ee.Run
open DobieStation.Ee.ProgramOrder DobieStation.Ee.Control DobieStation.Ee.Precise

variable {D : Type} {P : Rest D} {m n : Machine D} {o : Place}

/-! ### The end of a turn -/

/-- The program counter goes on by four. -/
def advance (m : Machine D) : Machine D :=
  { m with pcNow := m.core.PC + 4, core := { m.core with PC := m.core.PC + 4 } }

theorem delayed_spec {lastPC : Word} (h : Ends lastPC m) (hs : Still (advance m) n) :
    Ensures (exec (delayed lastPC)) n fun _ n' => Settled n' := by
  rcases h with ⟨hc, o, ht, hcur, hl⟩ | hb
  · have hclean : Clean n.log := hs.clean (m := advance m) hc
    have htrack : track n.log = some o := hs.track.trans ht
    have hpc : n.core.PC = m.core.PC + 4 := hs.core.PC
    have hnew : n.core.newPC = m.core.newPC := hs.core.newPC
    have hbranch : n.core.branchOn = m.core.branchOn := hs.core.branchOn
    have hslot : n.core.delaySlot = m.core.delaySlot := hs.core.delaySlot
    have hepc : ∀ e ∈ o.epc, e = n.core.cop0.EPC := by
      rw [hs.core.EPC]
      exact hl.epc
    simp only [delayed, exec_bind, exec_ite, ensures_bind, ensures_see, ensures_ite, ensures_change,
      ensures_setPC, ensures_die, exec_pure, ensures_pure]
    refine ⟨fun hb => ⟨fun hd => ⟨fun hother => ⟨fun _ => trivial, fun _ => ?_⟩, fun hself => ?_⟩,
      fun hd => ?_⟩, fun hb => ?_⟩
    · rw [hbranch] at hb
      rw [hslot] at hd
      rw [hpc, ← hcur] at hother
      obtain ⟨hnext, hnone⟩ := hl.jumps hb hd hother
      exact .inl ⟨hclean, o, htrack, hnext.trans hnew.symm, hnone, by simp, hepc⟩
    · rw [not_ne_iff] at hself
      obtain ⟨hnext, hsome⟩ :=
        hl.again (hbranch.symm.trans hb) (hslot.symm.trans hd) ((hpc.symm.trans hself).trans hcur.symm)
      refine .inl ⟨hclean, o, htrack, hnext.trans (hcur.trans hself.symm), ?_, fun _ => hd, hepc⟩
      rw [hsome, slotOf, if_pos hb, hself, hcur, hnew]
    · obtain ⟨hone, hnext, hsome⟩ := hl.taken (hbranch.symm.trans hb) fun h => hd (hslot.trans h)
      refine .inl ⟨hclean, o, htrack, hnext.trans hpc.symm, ?_, fun _ => ?_, hepc⟩
      · have hslotOf : slotOf n.core = some ⟨m.core.PC, m.core.newPC⟩ := by
          rw [slotOf, if_pos hb, hpc, hnew, BitVec.add_sub_cancel]
        exact hsome.trans hslotOf.symm
      · change n.core.delaySlot - 1 = 0
        rw [hslot, hone]
    · have hoff : n.core.branchOn = false := Bool.eq_false_iff.mpr hb
      obtain ⟨hnext, hnone⟩ := hl.straight (hbranch.symm.trans hoff)
      refine .inl ⟨hclean, o, htrack, hnext.trans hpc.symm, ?_, fun h => absurd h hb, hepc⟩
      rw [hnone, slotOf, if_neg hb]
  · exact (exec_grows _ n).mono fun _ _ hg => .inr ((hb.grows hs.grows).grows hg)

/-- The second of two NOPs leaves control alone, too. -/
theorem pair_ends (h : Held o m) (hs : Still (advance m) n) :
    Ends o.current { n with log := .pair :: n.log } := by
  rcases h with ⟨hc, ht, hf⟩ | hb
  · refine ends_cons (m := n) .pair _ rfl (hs.clean (m := advance m) hc) (by simp)
      (hs.track.trans ht) rfl rfl ?_
    exact (leaves_skip hf).keeps hs.core
  · exact .inr ((hb.grows hs.grows).grows ⟨[_], rfl⟩)

theorem endTurn_nop (h : Held o m) :
    Ensures (exec (endTurn P o.current 0)) m fun _ m' => Settled m' := by
  rw [endTurn, exec_bind, ensures_bind, ensures_getPC, exec_bind, ensures_bind, ensures_setPC,
    exec_bind, ensures_bind]
  change Ensures _ (advance m) _
  rw [pairNops, if_pos rfl, exec_bind, ensures_bind, ensures_getPC, exec_bind, ensures_bind]
  refine (still_read32 _ (advance m)).mono fun next n hs => ?_
  rw [exec_ite, ensures_ite]
  refine ⟨fun _ => ?_, fun _ => ?_⟩
  · rw [exec_bind, ensures_bind, ensures_setPC, ensures_record, ← hs.core.PC]
    exact delayed_spec (pair_ends h hs) (still_refl _)
  · exact ensures_pure.mpr (delayed_spec h.ends hs)

theorem endTurn_spec {lastPC w : Word} (hw : w ≠ 0) (h : Ends lastPC m) :
    Ensures (exec (endTurn P lastPC w)) m fun _ m' => Settled m' := by
  rw [endTurn, exec_bind, ensures_bind, ensures_getPC, exec_bind, ensures_bind, ensures_setPC,
    exec_bind, ensures_bind, pairNops, if_neg hw]
  exact ensures_pure.mpr (delayed_spec h (still_refl _))

/-! ### Turns -/

theorem keeps_chargeFetch (cacheMode : ℕ) (address : Word) (c : Core D) :
    Keeps c (chargeFetch cacheMode address c) := by
  unfold chargeFetch lookupICache
  dsimp only
  split_ifs <;> exact ⟨rfl, rfl, rfl, rfl, rfl⟩

theorem still_readInstr (address : Word) : Within Still (readInstr address : Run D Word) := by
  intro m
  simp only [readInstr, ensures_bind, ensures_get, ensures_modify]
  have hs := (keeps_chargeFetch (m.tlb.vtlb (address.toNat / 4096)).vtlb_info.cache_mode address
    m.core).still
  split
  · exact ensures_failure.mpr trivial
  · exact ensures_failure.mpr trivial
  · exact ensures_pure.mpr hs

/-- The fetch of the instruction at the place. -/
theorem settled_fetch (h : Settled m) :
    ∃ o : Place, o.current = m.core.PC ∧ Held o { m with log := .fetch m.core.PC :: m.log } := by
  rcases h with ⟨hc, o, ht, hm⟩ | hb
  · refine ⟨{ o with
        current := m.core.PC, next := after o.slot (m.core.PC + 4), before := o.slot, slot := none },
      rfl, .inl ⟨clean_cons hc (by simp), ?_, ?_⟩⟩
    · rw [track_cons, ht, Option.bind_some, follow, if_pos hm.next.symm]
    · exact ⟨rfl, hm.slot, by rw [hm.slot], rfl, hm.delaySlot, hm.epc⟩
  · exact ⟨⟨m.core.PC, 0, none, none, none⟩, rfl, .inr (hb.grows ⟨[_], rfl⟩)⟩

/-- **A turn of the interpreter.** -/
theorem turn_settled (h : Settled m) : Ensures (turn P) m fun _ m' => Settled m' := by
  simp only [turn, ensures_bind, ensures_modify, ensures_get]
  have hcount : Still m { m with core := countTurn m.core } := Keeps.still ⟨rfl, rfl, rfl, rfl, rfl⟩
  refine (still_readInstr _ _).mono fun w m₁ hread => ?_
  have h₁ : Settled m₁ := h.still (still_trans _ _ _ hcount hread)
  have hpc : m₁.core.PC = m.core.PC := hread.core.PC
  obtain ⟨o, hcur, hheld⟩ := settled_fetch h₁
  rw [hpc] at hcur hheld
  change Ensures (exec _) m₁ _
  rw [exec_bind, ensures_bind, ensures_record, exec_bind, ensures_bind]
  change Ensures _ _ fun _ m₂ => Ensures (exec (endTurn P m.core.PC w)) m₂ _
  rw [← hcur]
  by_cases hw : w = 0
  · subst hw
    rw [interpret_nop]
    exact (quiet_compute P 0 _).mono fun _ _ hc => endTurn_nop (hc o hheld)
  · exact (interpret_sends P w _ o hheld).mono fun _ _ he => endTurn_spec hw he

/-! ### The other steps -/

theorem takeInterrupt_settled (h : Settled m) : Ensures (exec takeInterrupt) m fun _ m' => Settled m' :=
  takeInterrupt_spec.mono fun _ _ he => he.settled h

theorem takePending_settled (h : Settled m) : Ensures (exec takePending) m fun _ m' => Settled m' := by
  simp only [takePending, int0, int1, intTimer, exec_bind, exec_ite, ensures_bind, ensures_see,
    ensures_ite, exec_pure, ensures_pure]
  exact ⟨fun _ => ⟨fun _ => ⟨fun _ => takeInterrupt_settled h, fun _ => h⟩, fun _ =>
    ⟨fun _ => ⟨fun _ => takeInterrupt_settled h, fun _ => h⟩, fun _ =>
      ⟨fun _ => ⟨fun _ => takeInterrupt_settled h, fun _ => h⟩, fun _ => h⟩⟩⟩, fun _ => h⟩

theorem keeps_countUp (cycles : ℕ) (c : Core D) :
    Keeps c { c with cop0 := countUp cycles c.cop0 } := by
  refine ⟨rfl, rfl, rfl, rfl, ?_⟩
  change (countUpPerformance _ (countUpTimer _ c.cop0)).EPC = c.cop0.EPC
  unfold countUpPerformance
  split_ifs <;> rfl

theorem finish_settled (cycles : ℕ) (h : Settled m) :
    Ensures (exec (finish cycles)) m fun _ m' => Settled m' := by
  rw [finish, exec_bind, ensures_bind, ensures_change]
  exact takePending_settled (h.still (keeps_countUp cycles m.core).still)

theorem int0Check_settled (h : Settled m) : Ensures (exec int0Check) m fun _ m' => Settled m' := by
  refine int0Check_spec.mono fun _ m' hc => ?_
  cases htaken : m.core.takes m.core.intc.STAT m.core.intc.MASK with
  | false =>
    rw [htaken] at hc
    exact h.still hc
  | true =>
    rw [htaken] at hc
    exact Entered.settled h hc

theorem keeps_giveCycles (cycles : ℕ) (c : Core D) : Keeps c (giveCycles cycles c) := by
  unfold giveCycles
  split_ifs <;> exact ⟨rfl, rfl, rfl, rfl, rfl⟩

/-! ### Runs -/

/-- The steps of the interpreter. -/
def interprets : Act D → Prop
  | .blocks => False
  | _ => True

/-- A step of the interpreter comes to an end between two instructions. -/
theorem step_settled {s s' : System D} {a : Act D} (ha : interprets a)
    (hs : step P s a = some s') (h : Settled s.machine) : Settled s'.machine := by
  simp only [step, Option.bind_eq_bind, Option.bind_eq_some_iff] at hs
  obtain ⟨⟨prog, phase⟩, hplan, ⟨r, machine⟩, hrun, hs'⟩ := hs
  cases hs'
  suffices hprog : Ensures prog s.machine fun _ m' => Settled m' from hprog r machine hrun
  cases a with
  | start jit cycles =>
    simp only [plan] at hplan
    split_ifs at hplan
    cases hplan
    exact ensures_modify.mpr (h.still (keeps_giveCycles cycles s.machine.core).still)
  | turn =>
    simp only [plan] at hplan
    split at hplan
    · split_ifs at hplan
      cases hplan
      exact turn_settled h
    · cases hplan
  | blocks => exact ha.elim
  | finish =>
    simp only [plan] at hplan
    split at hplan
    · split_ifs at hplan
      cases hplan
      exact finish_settled _ h
    · cases hplan
      exact finish_settled _ h
    · cases hplan
  | int0Check =>
    simp only [plan] at hplan
    split_ifs at hplan
    cases hplan
    exact int0Check_settled h
  | others e =>
    simp only [plan] at hplan
    split_ifs at hplan
    cases hplan
    exact (still_device e s.machine).mono fun _ _ hs => h.still hs

theorem init_settled {s : System D} (h : Init s) : Settled s.machine := by
  obtain ⟨-, m, vtlb, -, hm⟩ := h
  rw [hm]
  exact .inl ⟨by simp [Clean, resetMachine], .start, rfl, rfl, rfl, by simp [resetMachine, resetCore],
    by simp [Place.start]⟩

/-- A run of the interpreter. -/
abbrev Interpreted (P : Rest D) (s : System D) : Prop :=
  Reaches Init (Only (fun _ a => interprets a) fun s a s' => step P s a = some s') s

theorem interpreted_settled {s : System D} (h : Interpreted P s) : Settled s.machine :=
  h.invariant (fun _ => init_settled) fun _ _ _ hs ha => step_settled ha.1 ha.2 hs

/-- Every fetch, interrupt and return so far was that of the place, and so is where the machine
stands. -/
def PreciseSoFar (m : Machine D) : Prop := ∃ o, track m.log = some o ∧ Match m.core o

/-- **Interrupts are precise**, unless a store of an instruction to the INTC takes one. -/
theorem interrupts_precise {s : System D} (h : Interpreted P s) :
    PreciseSoFar s.machine ↔ Event.store true ∉ s.machine.log := by
  rcases interpreted_settled h with ⟨hc, o, ht, hm⟩ | ⟨hnone, hmem⟩
  · exact iff_of_true ⟨o, ht, hm⟩ hc
  · refine iff_of_false ?_ (not_not_intro hmem)
    rintro ⟨o, ht, -⟩
    rw [hnone] at ht
    cases ht

/-! ### A store that lets the core take an interrupt -/

/-- A core without other components. -/
def alone (compute : Word → Registers → Option Registers) : Rest Unit where
  compute := compute
  read _ _ _ := none
  write _ _ _ _ := none
  dmacRead32 _ _ := 0
  vu0IsRunning _ := false
  vu1IsRunning _ := false
  vu0StoppedByTbit _ := false
  vu1StoppedByTbit _ := false
  vu0IsInterlocked _ := false
  cop2UpdatePipes _ := none
  vu0Run _ := none
  vu0StartProgram _ _ := none
  vu1StartProgram _ _ := none
  vu0ReadCMSAR0 _ := 0
  vu0Cfc _ _ := 0
  vu0Ctc _ _ _ := none
  vu0Gpr _ _ _ := 0
  vu0SetGpr _ _ _ _ := none
  vu0Execute _ _ := none
  interlockCop2Check _ := none
  clearCop2Interlock _ := none
  eeLogSifrpc _ _ _ := .done id
  fastBoot _ := none
  skipBIOS _ := none
  runBlocks := die

def zeroCore (BIOS : Lib.Memory.Bytes) : Core Unit where
  regs := ⟨fun _ => 0, ⟨0, 0⟩, ⟨0, 0⟩, 0,
    ⟨false, false, false, false, false, false, false, false, false⟩, fun _ => 0, 0⟩
  PC := 0
  newPC := 0
  branchOn := false
  delaySlot := 0
  cyclesToRun := 0
  waitForIRQ := false
  waitForVU0 := false
  waitForInterlock := false
  icache _ := resetICacheLine
  osdConfigParam := 0
  deci2handlers _ := ⟨false, 0, 0⟩
  deci2size := 0
  cop0 := ⟨fun _ => 0, statusOf 0, ⟨0, false, false, false, 0, 0, false, false⟩, 0, 0, 0, 0, 0⟩
  intc := ⟨0, 0, 0, false⟩
  world := ⟨(), ⟨fun _ => 0, BIOS, fun _ => 0⟩, 0⟩

/-- The tables after `init_tlb`. -/
def initPage (p : ℕ) : Tlb.Model.Page :=
  if Tlb.Model.unmapped_start / 4096 ≤ p ∧ p < Tlb.Model.unmapped_start / 4096 + 0x40000 then
    Tlb.Model.init_page
      (Tlb.Model.unmapped_start + 4096 * (p - Tlb.Model.unmapped_start / 4096)) Tlb.Model.blank
  else Tlb.Model.blank

/-- A machine after a reset, with a program in its BIOS. -/
def bootOf (BIOS : Lib.Memory.Bytes) : System Unit :=
  ⟨resetMachine ⟨zeroCore BIOS, 0, .kernel, ⟨fun _ => .zero, initPage⟩, []⟩ initPage, .idle⟩

theorem bootOf_init (BIOS : Lib.Memory.Bytes) : Init (bootOf BIOS) :=
  ⟨rfl, _, initPage, Tlb.Translation.init_tlb_eq, rfl⟩

def wordsAt (words : List Word) (a : ℕ) : BitVec 8 :=
  (words.getD (a / 4) 0 >>> (8 * (a % 4))).setWidth 8

/-- LUI and ORI. -/
def loadConstant (w : Word) (r : Registers) : Option Registers :=
  let put (v : BitVec 64) : Registers :=
    if rt w = 0 then r
    else { r with gpr := Function.update r.gpr (rt w) (insertBits (r.gpr (rt w)) 0 64 v) }
  match op w with
  | 0x0F => some (put (((w.setWidth 16).setWidth 32 <<< 16 : Word).signExtend 64))
  | 0x0D => some (put ((r.gpr (rs w)).setWidth 64 ||| (w.setWidth 16).setWidth 64))
  | _ => none

/-- Interrupts are enabled, and the last instruction is a SW to INTC_MASK. -/
def unmasking : List Word :=
  [0x3C090001, 0x35290401, 0x40896000, 0x3C08B000, 0x3508F010, 0x340A0004, 0xAD0A0000]

def raiseIRQ : Effect Unit Unit := fun w => some ((), [.irq 2], w)

def unmaskingRun (l : List (Act Unit)) : Option (System Unit) :=
  l.foldlM (step (alone loadConstant)) (bootOf (wordsAt unmasking))

theorem interpreted_steps {l : List (Act Unit)} {s : System Unit} (hl : ∀ a ∈ l, interprets a)
    (hs : unmaskingRun l = some s) : Interpreted (alone loadConstant) s :=
  (Reaches.start (bootOf_init _)).exec_only (fun a ha _ => hl a ha) hs

/-- The interrupt comes after the slice. -/
theorem interrupts_precise_slice : ∃ s, Interpreted (alone loadConstant) s ∧
    Event.interrupt 0xBFC0001C false 0x80000200 ∈ s.machine.log ∧ PreciseSoFar s.machine := by
  have hrun : (unmaskingRun (.start false 119 :: List.replicate 7 .turn ++
      [.finish, .others raiseIRQ, .int0Check])).map (fun s => s.machine.log) =
      some ([.interrupt 0xBFC0001C false 0x80000200, .store false] ++
        (List.range 7).reverse.map fun i => .fetch (0xBFC00000 + BitVec.ofNat 32 (4 * i))) := by
    decide +kernel
  obtain ⟨s, hs, hlog⟩ := Option.map_eq_some_iff.mp hrun
  have hreach := interpreted_steps (by simp [interprets]) hs
  refine ⟨s, hreach, by simp [hlog], (interrupts_precise hreach).mpr ?_⟩
  rw [hlog]
  decide

/-- **The store itself takes the interrupt**: the address of the store is saved, and the handler
starts at its second instruction. -/
theorem imprecise_interrupt : ¬ ∀ s, Interpreted (alone loadConstant) s → PreciseSoFar s.machine := by
  intro hall
  have hrun : (unmaskingRun (.others raiseIRQ :: .start false 119 :: List.replicate 7 .turn)).map
      (fun s => (s.machine.core.PC, s.machine.core.cop0.EPC, s.machine.log.head?,
        decide (track s.machine.log = none))) =
      some (0x80000204, 0xBFC00018, some (.interrupt 0xBFC00018 false 0x80000200), true) := by
    decide +kernel
  obtain ⟨s, hs, hlast⟩ := Option.map_eq_some_iff.mp hrun
  have hreach := interpreted_steps (by simp [interprets]) hs
  obtain ⟨o, ho, -⟩ := hall s hreach
  simp only [Prod.mk.injEq, decide_eq_true_eq] at hlast
  rw [hlast.2.2.2] at ho
  cases ho

end DobieStation.Ee.Interrupts
