import DobieStation.EeJit.Coherence

/-! # Registers are allocated

What `alloc_reg` and its callers leave. An entry that was asked for lately stays where it is (`Recent`), so that
the registers of one instruction are different from each other wherever they have to be. -/

namespace DobieStation.EeJit.RegisterCache

open DobieStation.Lib.Memory DobieStation.Lib.Staged DobieStation.EeJit.Host

section
variable {L : Layout} {C C' : Cache} {m m' : Machine} {g : File} {i d : REG_64} {r : ℤ}

/-! ### Flushes -/

/-- What code leaves that writes the cache back and nothing else. -/
structure Flushed (L : Layout) (m m' : Machine) : Prop where
  regs : ∀ i, i ≠ .RAX → m'.regs i = m.regs i
  framed : Framed L m m'

theorem Flushed.refl (L : Layout) (m : Machine) : Flushed L m m := ⟨fun _ _ => rfl, Framed.refl L m⟩

theorem Flushed.trans {m'' : Machine} (h : Flushed L m m') (h' : Flushed L m' m'') : Flushed L m m'' :=
  ⟨fun i hi => (h'.regs i hi).trans (h.regs i hi), h.framed.trans h'.framed⟩

/-- The entry is also in memory. -/
def Current (L : Layout) (C : Cache) (m : Machine) (g : File) (i : REG_64) : Prop :=
  Holds C i → load 8 m.mem (L.place (C i).reg) = (g (C i).reg).toNat

/-- What a flush leaves of the registers that are in memory. -/
theorem Stored.current (hw : Wf C) (hs : Stored L m (C i).reg (g (C i).reg) m') {j : REG_64}
    (hj : Current L C m g j) : Current L C m' g j := by
  intro hold
  by_cases hreg : (C j).reg = (C i).reg
  · rw [hreg]
    exact hs.here
  · rw [hs.others _ (hw.range j hold) hreg]
    exact hj hold

theorem wp_flush_int_reg (hw : Wf C) (hc : Coherent L C m g) (i : REG_64) :
    Wp exec (flush_int_reg L i) C m fun _ C' m' => C' = C ∧ Coherent L C m' g ∧ Flushed L m m' ∧
      Current L C m' g i ∧ ∀ j, Current L C m g j → Current L C m' g j := by
  unfold flush_int_reg
  refine Wp.bind (Wp.get (Wp.ite (fun h => ?_) fun h => ?_))
  · rw [Bool.and_eq_true, Bool.and_eq_true] at h
    obtain ⟨hold, hr0⟩ := hw.clean i h.1.1 h.1.2
    have hrange := hw.range i hold
    refine (wp_store_reg hc.base hrange hr0 (hold.ne_RAX hw)).mono ?_
    rintro - C' m' ⟨rfl, hs⟩
    rw [hc.held i hold] at hs
    refine ⟨rfl, ⟨(hs.regs _ (by decide)).trans hc.base, hc.zero, fun j hj => ?_, fun r hr hdirty => ?_⟩,
      ⟨hs.regs, hs.framed⟩, fun _ => hs.here, fun j hj => hs.current hw hj⟩
    · rw [hs.regs j (hj.ne_RAX hw)]
      exact hc.held j hj
    · by_cases hreg : r = (C' i).reg
      · rw [hreg]
        exact hs.here
      · rw [hs.others r hr hreg]
        exact hc.memory r hr hdirty
  · refine Wp.pure ⟨rfl, hc, Flushed.refl L m, fun hold => ?_, fun _ hj => hj⟩
    refine hc.memory _ (hw.range i hold) fun j hj hmod hreg => h ?_
    rw [hw.unique j i hj hold hreg] at hmod
    rw [hold.used, hmod, hold.type]
    rfl

/-- **All registers are written back.** -/
theorem wp_flush_regs (hw : Wf C) (hc : Coherent L C m g) :
    Wp exec (flush_regs L) C m fun _ C' m' =>
      C' = C ∧ Coherent L C m' g ∧ Flushed L m m' ∧ ∀ i, Current L C m' g i := by
  refine (Wp.forM (fun done C' m' => C' = C ∧ Coherent L C m' g ∧ Flushed L m m' ∧
    ∀ i ∈ done, Current L C m' g i) ?_ ⟨rfl, hc, Flushed.refl L m, by simp⟩).mono ?_
  · rintro done i todo C' m' - ⟨rfl, hc', hfl, hdone⟩
    refine (wp_flush_int_reg hw hc' i).mono ?_
    rintro - C'' m'' ⟨rfl, hc'', hfl', hi, hkept⟩
    refine ⟨rfl, hc'', hfl.trans hfl', fun j hj => ?_⟩
    rcases List.mem_append.mp hj with hj | hj
    · exact hkept j (hdone j hj)
    · rw [List.mem_singleton.mp hj]
      exact hi
  · rintro - C' m' ⟨hC, hc', hfl, hall⟩
    exact ⟨hC, hc', hfl, fun i => hall i (REG_64.mem_all i)⟩

/-! ### Loads -/

/-- No locked entry is of $zero with another value in it. -/
def ZeroKept (C : Cache) (m : Machine) : Prop :=
  ∀ i, (C i).used = true → (C i).locked = true → (C i).type = .GPR → m.regs i = 0

/-- One register is changed. -/
structure OnlySets (m : Machine) (d : REG_64) (v : BitVec 64) (m' : Machine) : Prop where
  here : m'.regs d = v
  regs : ∀ i, i ≠ d → m'.regs i = m.regs i
  mem : m'.mem = m.mem

theorem onlySets_set (v : BitVec 64) : OnlySets m d v (m.set d v) :=
  ⟨Machine.set_self m d v, fun _ hi => Machine.set_of_ne m hi v, rfl⟩

theorem onlySets_clobber (v : BitVec 64) : OnlySets m d v (m.set d v).clobber :=
  ⟨Machine.set_self m d v, fun _ hi => Machine.set_of_ne m hi v, rfl⟩

theorem wp_load_reg (hw : Wf C) (hc : Coherent L C m g) (hr : InFile r)
    (hz : r = 0 → ZeroKept C m) :
    Wp exec (load_reg L r .GPR d) C m fun _ C' m' => C' = C ∧ OnlySets m d (g r) m' := by
  unfold load_reg
  refine Wp.bind (Wp.get ?_)
  cases hfind : REG_64.all.find? fun i => (C i).holds r .GPR with
  | some i =>
    have hholds := List.find?_some hfind
    obtain ⟨hu, hreg, ht⟩ := holds_iff.1 hholds
    have hv : m.regs i = g r := by
      by_cases hl : (C i).locked = true
      · have hr0 : r = 0 := hreg.symm.trans (hw.locked i hu hl ht)
        rw [hz hr0 i hu hl ht, hr0]
        exact hc.zero.symm
      · rw [Bool.not_eq_true] at hl
        rw [hc.held i ⟨hu, hl, ht⟩, hreg]
    refine Wp.emit rfl ⟨rfl, ?_⟩
    rw [← hv]
    exact onlySets_set _
  | none =>
    change Wp exec (orDie (L.get_gpr_addr r) >>= _) C m _
    rw [get_gpr_addr_eq L hr]
    refine Wp.bind (Wp.pure (Wp.bind (Wp.emit rfl (Wp.emit rfl ⟨rfl, ?_⟩))))
    have hmem : load 8 m.mem (L.place r) = (g r).toNat :=
      hc.memory r hr fun i hi _ hreg =>
        List.find?_eq_none.mp hfind i (REG_64.mem_all i) (holds_iff.2 ⟨hi.used, hreg, hi.type⟩)
    have haddr : (m.set d (BitVec.ofNat 64 (L.place r))).address d 0 = L.place r :=
      address_place hr (onlySets_set _).here
    refine ⟨?_, fun i hi => (Machine.set_of_ne _ hi _).trans (Machine.set_of_ne m hi _), rfl⟩
    change ((m.set d _).set d (BitVec.ofNat 64 (load 8 m.mem _))).regs d = _
    rw [Machine.set_self, haddr, hmem, BitVec.ofNat_toNat, BitVec.setWidth_eq]

/-! ### Allocations -/

/-- The entry is one of the `n` that were asked for last. -/
structure Recent (C : Cache) (n : ℕ) (i : REG_64) (r : ℤ) : Prop where
  holds : Holds C i
  reg : (C i).reg = r
  age : (C i).age < n

/-- What an allocation of `r` leaves that gives `d`. -/
structure Allocated (L : Layout) (C : Cache) (m : Machine) (r : ℤ) (d : REG_64) (C' : Cache)
    (m' : Machine) : Prop where
  wf : Wf C'
  mine : Recent C' 1 d r
  kept : ∀ n i s, n ≤ 8 → Recent C n i s → Recent C' (n + 1) i s ∧ m'.regs i = m.regs i ∧
    ((C i).modified = true → (C' i).modified = true)
  locked : ∀ i, (C i).locked = true → C' i = C.grow i ∧ (i ≠ .RAX → m'.regs i = m.regs i)
  unlocked : ∀ i, (C i).locked = false → (C' i).locked = false
  framed : Framed L m m'

/-- A register is given that held `r` before, or none that was asked for lately. -/
theorem allocated (hw : Wf C) (hd : (C d).locked = false) {e : AllocReg} (he : Fits C.grow d e)
    (hreg : e.reg = r) (hfl : ∀ i, i ≠ d → i ≠ .RAX → m'.regs i = m.regs i) (hframed : Framed L m m')
    (hold : (Holds C d ∧ (C d).reg = r ∧ m'.regs d = m.regs d ∧
      ((C d).modified = true → e.modified = true)) ∨ ((C d).used = true → 8 ≤ (C d).age)) :
    Allocated L C m r d (Function.update C.grow d e) m' := by
  have hmine : Recent (Function.update C.grow d e) 1 d r := by
    refine ⟨⟨?_, ?_, ?_⟩, ?_, ?_⟩ <;> rw [Function.update_self]
    · exact he.used
    · exact he.unlocked
    · exact he.type
    · exact hreg
    · rw [he.age]
      decide
  have hl : (C.grow d).locked = false := (grow_entry d).2.1.trans hd
  refine ⟨hw.grow.take hl he, hmine, fun n i s hn hi => ?_, fun i hi => ?_, fun i hi => ?_, hframed⟩
  · by_cases hid : i = d
    · subst hid
      rcases hold with ⟨-, hr, hv, hmod⟩ | hage
      · refine ⟨⟨hmine.holds, hmine.reg.trans (hr.symm.trans hi.reg), ?_⟩, hv, ?_⟩
        · exact hmine.age.trans_le (Nat.succ_le_succ (Nat.zero_le n))
        · rw [Function.update_self]
          exact hmod
      · exact absurd (hage hi.holds.used) (Nat.not_le.mpr (hi.age.trans_le hn))
    · refine ⟨⟨(holds_of_ne hid).mpr (holds_grow.2 hi.holds), ?_, ?_⟩,
        hfl i hid (hi.holds.ne_RAX hw), ?_⟩ <;> rw [Function.update_of_ne hid]
      · exact (grow_entry i).2.2.2.1.trans hi.reg
      · rw [age_grow hi.holds]
        exact Nat.succ_lt_succ hi.age
      · rw [(grow_entry i).2.2.1]
        exact fun h => h
  · have hid : i ≠ d := by
      rintro rfl
      exact absurd (hd.symm.trans hi) Bool.false_ne_true
    exact ⟨Function.update_of_ne hid _ _, hfl i hid⟩
  · rcases eq_or_ne i d with rfl | hid
    · rw [Function.update_self]
      exact he.unlocked
    · rw [Function.update_of_ne hid]
      exact (grow_entry i).2.1.trans hi

theorem ZeroKept.mono (hz : ZeroKept C m) (hw : Wf C)
    (hC : ∀ i, (C' i).used = true → (C' i).locked = true →
      (C i).used = true ∧ (C i).locked = true ∧ (C i).type = (C' i).type)
    (hm : ∀ i, i ≠ .RAX → m'.regs i = m.regs i) : ZeroKept C' m' := by
  intro i hu hl ht
  obtain ⟨hu', hl', ht'⟩ := hC i hu hl
  have hne : i ≠ .RAX := by
    rintro rfl
    exact absurd ((hw.reserved .RAX (by decide)).2.symm.trans hu') Bool.false_ne_true
  exact (hm i hne).trans (hz i hu' hl' (ht'.trans ht))

theorem wp_setEntry {f : AllocReg → AllocReg} {e : AllocReg} {R : Unit → Cache → Machine → Prop}
    (he : f (C d) = e) (h : R () (Function.update C d e) m) : Wp exec (setEntry d f) C m R := by
  subst he
  exact Wp.modify h

/-- What is left when `d` is given up. -/
structure GivenUp (L : Layout) (C : Cache) (m : Machine) (g : File) (d : REG_64) (C' : Cache)
    (m' : Machine) : Prop where
  self : C' d = { C d with used := false }
  other : ∀ i, i ≠ d → C' i = C i
  wf : Wf C'
  coherent : Coherent L C' m' g
  flushed : Flushed L m m'

theorem GivenUp.not_holds (h : GivenUp L C m g d C' m') : ¬ Holds C' d := by
  intro hold
  have hu := hold.used
  rw [h.self] at hu
  exact Bool.false_ne_true hu

theorem GivenUp.zeroKept (h : GivenUp L C m g d C' m') (hw : Wf C) (hz : ZeroKept C m) :
    ZeroKept C' m' := by
  refine hz.mono hw (fun i hu hl => ?_) h.flushed.regs
  have hid : i ≠ d := by
    rintro rfl
    rw [h.self] at hu
    exact Bool.false_ne_true hu
  rw [h.other i hid] at hu hl ⊢
  exact ⟨hu, hl, rfl⟩

/-- The old value goes to memory, and the entry is free. -/
theorem wp_give_up {α : Type} (hw : Wf C) (hc : Coherent L C m g) (hd : (C d).locked = false)
    {k : Jit α} {Q : α → Cache → Machine → Prop}
    (h : ∀ C' m', GivenUp L C m g d C' m' → Wp exec k C' m' Q) :
    Wp exec (do flush_int_reg L d; setEntry d (fun e => { e with used := false }); k) C m Q := by
  refine Wp.bind ((wp_flush_int_reg hw hc d).mono ?_)
  rintro - C₁ m₁ ⟨rfl, hc₁, hfl, hcur, -⟩
  have hhid : Hidden d { C₁ d with used := false } := ⟨fun _ => hd, Or.inl rfl⟩
  refine Wp.bind (wp_setEntry rfl (h _ m₁ ⟨Function.update_self _ _ _, ?_, ?_, ?_, hfl⟩))
  · exact fun i hi => Function.update_of_ne hi _ _
  · exact hw.hide (fun h => not_reserved hw hd h rfl) hhid
  · exact hc₁.drop hhid.not_holds hcur

/-- `d` holds the register that is asked for. -/
theorem wp_found (hw : Wf C) (hc : Coherent L C m g) (hr : InFile r) (hd : Holds C d)
    (hreg : (C d).reg = r) {dirty : Bool} (h0 : dirty = true → r ≠ 0) {f : AllocReg → AllocReg}
    (hf : f (C.grow d) = { C.grow d with modified := (C.grow d).modified || dirty, age := 0 }) :
    Wp exec (setEntry d f) C.grow m fun _ C' m' => Allocated L C m r d C' m' ∧
      (dirty = true → (C' d).modified = true) ∧
      Coherent L C' m' (Function.update g r (m'.regs d)) ∧ m'.regs d = g r := by
  obtain ⟨hu, hl, hm, hreg', ht, -⟩ := grow_entry (C := C) d
  have hgd : Holds C.grow d := holds_grow.2 hd
  have hgr : (C.grow d).reg = r := hreg'.trans hreg
  have hv : m.regs d = g r := (hc.held d hd).trans (by rw [hreg])
  have hfits : Fits C.grow d { C.grow d with modified := (C.grow d).modified || dirty, age := 0 } := by
    refine ⟨hgd.used, hgd.unlocked, hgd.type, hgr.symm ▸ hr, rfl, fun hmod => ?_,
      fun i hid hi h => hid (hw.grow.unique i d hi hgd h), fun i _ hi => ?_⟩
    · rcases Bool.or_eq_true_iff.mp hmod with hmod | hmod
      · exact (hw.grow.clean d hgd.used hmod).2
      · exact hgr.symm ▸ h0 hmod
    · rw [age_grow (holds_grow.1 hi)]
      exact Nat.succ_ne_zero _
  have hkept : (C d).modified = true → ((C.grow d).modified || dirty) = true := by
    intro hmod
    rw [hm, hmod, Bool.true_or]
  refine wp_setEntry hf ⟨allocated hw hd.unlocked hfits hgr (fun _ _ _ => rfl) (Framed.refl L m)
    (Or.inl ⟨hd, hreg, rfl, hkept⟩), fun hdirty => ?_, ?_, hv⟩
  · rw [Function.update_self, hdirty, Bool.or_true]
  · rw [hv, Function.update_eq_self]
    exact hc.grow.touch hgd dirty

/-- `d` is free or old, and becomes a register of the EE. -/
theorem wp_taken (hw : Wf C) (hc : Coherent L C m g) (hr : InFile r) {state : REG_STATE}
    (h0 : state = .WRITE → r ≠ 0) (hz : r = 0 → ZeroKept C m) (hd : (C d).locked = false)
    (hnone : ∀ i, Holds C i → (C i).reg ≠ r) (hage : (C d).used = true → 8 ≤ (C d).age) :
    Wp exec (do
        flush_int_reg L d
        setEntry d (fun e => { e with used := false })
        load_unless_write L r state d
        setEntry d fun e =>
          { e with modified := dirties r state, reg := r, type := .GPR, used := true, age := 0 })
      C.grow m fun _ C' m' => Allocated L C m r d C' m' ∧
        (dirties r state = true → (C' d).modified = true) ∧
        Coherent L C' m' (Function.update g r (m'.regs d)) ∧ (state ≠ .WRITE → m'.regs d = g r) := by
  have hl : (C.grow d).locked = false := (grow_entry d).2.1.trans hd
  refine wp_give_up hw.grow hc.grow hl fun C₁ m₁ h₁ => ?_
  have hload : Wp exec (load_unless_write L r state d) C₁ m₁ fun _ C' m' => C' = C₁ ∧
      (∀ i, i ≠ d → m'.regs i = m₁.regs i) ∧ m'.mem = m₁.mem ∧ (state ≠ .WRITE → m'.regs d = g r) := by
    unfold load_unless_write
    refine Wp.ite (fun h => Wp.pure ⟨rfl, fun _ _ => rfl, rfl, fun h' => absurd h h'⟩) fun _ => ?_
    have hz₁ : r = 0 → ZeroKept C₁ m₁ := by
      refine fun hr0 => h₁.zeroKept hw.grow ((hz hr0).mono hw (fun i hu' hl' => ?_) fun _ _ => rfl)
      obtain ⟨h1, h2, -, -, h5, -⟩ := grow_entry (C := C) i
      exact ⟨h1.symm.trans hu', h2.symm.trans hl', h5.symm⟩
    refine (wp_load_reg h₁.wf h₁.coherent hr hz₁).mono ?_
    rintro - C' m' ⟨rfl, hld⟩
    exact ⟨rfl, hld.regs, hld.mem, fun _ => hld.here⟩
  refine Wp.bind (hload.mono ?_)
  rintro - C₂ m' ⟨rfl, hregs, hmem, hv⟩
  obtain ⟨e, he⟩ : ∃ e : AllocReg, e = { C₂ d with
    modified := dirties r state, reg := r, type := .GPR, used := true, age := 0 } := ⟨_, rfl⟩
  have hel : e.locked = false := by
    rw [he, h₁.self]
    exact hl
  have hfits : Fits C.grow d e := by
    rw [he] at hel ⊢
    refine ⟨rfl, hel, rfl, hr, rfl, fun h => ?_, fun i _ hi hri => ?_, fun i _ hi => ?_⟩
    · change (decide (state ≠ .READ) && decide (r ≠ 0)) = true at h
      rw [Bool.and_eq_true, decide_eq_true_eq, decide_eq_true_eq] at h
      exact h.2
    · exact hnone i (holds_grow.1 hi) ((grow_entry i).2.2.2.1.symm.trans hri)
    · rw [age_grow (holds_grow.1 hi)]
      exact Nat.succ_ne_zero _
  have hupdate : Function.update C₂ d e = Function.update C.grow d e := by
    funext i
    rcases eq_or_ne i d with rfl | hid
    · rw [Function.update_self, Function.update_self]
    · rw [Function.update_of_ne hid, Function.update_of_ne hid, h₁.other i hid]
  refine wp_setEntry he.symm ⟨?_, fun hdirty => ?_, ?_, hv⟩
  · rw [hupdate]
    refine allocated hw hd hfits (by rw [he])
      (fun i hid hi => (hregs i hid).trans (h₁.flushed.regs i hi)) (fun p hp => ?_) (Or.inr hage)
    rw [hmem]
    exact h₁.flushed.framed p hp
  · rw [Function.update_self, he]
    exact hdirty
  · refine h₁.coherent.take h₁.not_holds (not_reserved hw hd (by decide)) (fun i hi => ?_) (by rw [he])
      hmem hregs ?_ ?_
    · have hid : i ≠ d := by
        rintro rfl
        exact h₁.not_holds hi
      rw [h₁.other i hid]
      refine fun hri => hnone i ?_ ((grow_entry i).2.2.2.1.symm.trans hri)
      have hC := h₁.other i hid
      exact holds_grow.1 ⟨hC ▸ hi.used, hC ▸ hi.unlocked, hC ▸ hi.type⟩
    · by_cases hs : state = .WRITE
      · refine Or.inr ⟨?_, h0 hs⟩
        rw [he, hs]
        exact decide_eq_true (h0 hs)
      · exact Or.inl (hv hs)
    · constructor <;> rw [Function.update_self]
      · exact hfits.used
      · exact hfits.unlocked
      · exact hfits.type

/-- **A register of the EE is allocated.** Its new value is that of the register that is given, whatever this
is: the old one if it is asked for. -/
theorem wp_alloc_reg (hw : Wf C) (hc : Coherent L C m g) (hr : InFile r) {state : REG_STATE}
    (h0 : state = .WRITE → r ≠ 0) (hz : r = 0 → ZeroKept C m) :
    Wp exec (alloc_reg L r .GPR state none) C m fun d C' m' => Allocated L C m r d C' m' ∧
      (dirties r state = true → (C' d).modified = true) ∧
      Coherent L C' m' (Function.update g r (m'.regs d)) ∧ (state ≠ .WRITE → m'.regs d = g r) := by
  obtain ⟨d, hd, hdl, hold⟩ := search_spec hw r
  obtain ⟨hu, hl, -, hreg, ht, -⟩ := grow_entry (C := C) d
  unfold alloc_reg
  refine Wp.bind (Wp.get ?_)
  rw [Option.none_or, hd]
  refine Wp.bind (Wp.pure (Wp.ite (fun h => ?_) fun _ => Wp.bind ?_))
  · exact absurd (hdl.symm.trans h) Bool.false_ne_true
  unfold allocAt allocGpr
  refine Wp.bind (Wp.modify (Wp.bind (Wp.get (Wp.ite (fun h => ?_) fun h => ?_))))
  · obtain ⟨h1, h2, h3⟩ := holds_iff.1 h
    have hdirty : dirties r state = true → r ≠ 0 := fun h => by
      unfold dirties at h
      rw [Bool.and_eq_true, decide_eq_true_eq, decide_eq_true_eq] at h
      exact h.2
    refine (wp_found hw hc hr ⟨hu.symm.trans h1, hdl, ht.symm.trans h3⟩ (hreg.symm.trans h2) hdirty
      rfl).mono ?_
    rintro - C' m' ⟨ha, hmod, hc', hv⟩
    exact Wp.pure ⟨ha, hmod, hc', fun _ => hv⟩
  · rcases hold with ⟨hcd, hr'⟩ | ⟨hnone, hage⟩
    · exact absurd (holds_iff.2 ⟨hu.trans hcd.used, hreg.trans hr', ht.trans hcd.type⟩) h
    refine (wp_taken hw hc hr h0 hz hdl hnone hage).mono ?_
    rintro - C' m' h'
    exact Wp.pure h'

end

/-! ## Locked registers, and the end of a block

An instruction that needs a certain register of the host locks it and frees it again. Between instructions
nothing is locked (`Ready`). At the end of a block all registers of the EE are in memory. -/

section
variable {L : Layout} {C C' : Cache} {m m' : Machine} {g : File} {i d : REG_64} {r : ℤ}

/-- The cache between two instructions. -/
structure Ready (L : Layout) (C : Cache) (m : Machine) (g : File) : Prop where
  wf : Wf C
  coherent : Coherent L C m g
  idle : ∀ i, (C i).locked = true → i ∈ reserved

theorem Ready.zeroKept (h : Ready L C m g) : ZeroKept C m := by
  intro i hu hl _
  exact absurd ((h.wf.reserved i (h.idle i hl)).2.symm.trans hu) Bool.false_ne_true

/-- The cache while one register is locked. -/
structure Locked (L : Layout) (C : Cache) (m : Machine) (g : File) (d : REG_64) : Prop where
  wf : Wf C
  coherent : Coherent L C m g
  idle : ∀ i, (C i).locked = true → i ∈ reserved ∨ i = d
  locked : (C d).locked = true
  modified : (C d).modified = false
  here : d ∉ reserved ∧ d ∉ always

/-! ### Instructions between allocations -/

/-- A machine that differs in registers that are not of the cache. -/
theorem Coherent.other (hc : Coherent L C m g) (hmem : m'.mem = m.mem)
    (h15 : m'.regs .R15 = m.regs .R15) (hregs : ∀ i, Holds C i → m'.regs i = m.regs i) :
    Coherent L C m' g := by
  refine ⟨h15.trans hc.base, hc.zero, fun i hi => ?_, fun r hr hdirty => ?_⟩
  · rw [hregs i hi]
    exact hc.held i hi
  · rw [hmem]
    exact hc.memory r hr hdirty

theorem Locked.not_holds (h : Locked L C m g d) : ¬ Holds C d := fun hold =>
  Bool.false_ne_true (hold.unlocked.symm.trans h.locked)

theorem Locked.ne_R15 (h : Locked L C m g d) : .R15 ≠ d := by
  rintro rfl
  exact h.here.1 (by decide)

/-- Nothing is wrong with a locked $zero. -/
theorem Locked.zeroKept (h : Locked L C m g d) (hv : m.regs d = 0) : ZeroKept C m := by
  intro i hu hl _
  rcases h.idle i hl with hi | rfl
  · exact absurd ((h.wf.reserved i hi).2.symm.trans hu) Bool.false_ne_true
  · exact hv

theorem Locked.zeroKept_scratchpad (h : Locked L C m g d) (ht : (C d).type = .INTSCRATCHPAD) :
    ZeroKept C m := by
  intro i hu hl ht'
  rcases h.idle i hl with hi | rfl
  · exact absurd ((h.wf.reserved i hi).2.symm.trans hu) Bool.false_ne_true
  · exact absurd (ht.symm.trans ht') (by decide)

/-! ### Allocations between instructions, and while a register is locked -/

theorem Allocated.ready {g' : File} {m'' : Machine} (ha : Allocated L C m r i C' m') (h : Ready L C m g)
    (hc : Coherent L C' m'' g') : Ready L C' m'' g' := by
  refine ⟨ha.wf, hc, fun j hj => h.idle j ?_⟩
  rw [← Bool.not_eq_false]
  exact fun hl => Bool.false_ne_true ((ha.unlocked j hl).symm.trans hj)

theorem Allocated.lock {g' : File} {m'' : Machine} (ha : Allocated L C m r i C' m')
    (h : Locked L C m g d) (hc : Coherent L C' m'' g') : Locked L C' m'' g' d := by
  have hd := (ha.locked d h.locked).1
  refine ⟨ha.wf, hc, fun j hj => h.idle j ?_, ?_, ?_, h.here⟩
  · rw [← Bool.not_eq_false]
    exact fun hl => Bool.false_ne_true ((ha.unlocked j hl).symm.trans hj)
  · rw [hd]
    exact (grow_entry d).2.1.trans h.locked
  · rw [hd]
    exact (grow_entry d).2.2.1.trans h.modified

theorem Allocated.type_eq (ha : Allocated L C m r i C' m') (h : Locked L C m g d) :
    (C' d).type = (C d).type := by
  rw [(ha.locked d h.locked).1]
  exact (grow_entry d).2.2.2.2.1

theorem Allocated.regs_eq (ha : Allocated L C m r i C' m') (h : Locked L C m g d) :
    m'.regs d = m.regs d := by
  refine (ha.locked d h.locked).2 ?_
  rintro rfl
  exact h.here.1 (by decide)

theorem Allocated.ne (ha : Allocated L C m r i C' m') (h : Locked L C m g d) : i ≠ d := by
  rintro rfl
  have hl : (C' i).locked = true := by
    rw [(ha.locked i h.locked).1]
    exact (grow_entry i).2.1.trans h.locked
  exact Bool.false_ne_true (ha.mine.holds.unlocked.symm.trans hl)

/-- The locked register is changed. -/
theorem Locked.change (h : Locked L C m g d) (hmem : m'.mem = m.mem)
    (hregs : ∀ i, i ≠ d → m'.regs i = m.regs i) : Locked L C m' g d := by
  refine ⟨h.wf, h.coherent.other hmem (hregs _ h.ne_R15) fun i hi => hregs i ?_, h.idle, h.locked,
    h.modified, h.here⟩
  rintro rfl
  exact h.not_holds hi

/-! ### Locks -/

/-- An entry is locked that held nothing, or what is in memory. -/
theorem locked_of_entry (hw : Wf C) (hc : Coherent L C m g)
    (hidle : ∀ i, i ≠ d → (C i).locked = true → i ∈ reserved) (hd : d ∉ reserved ∧ d ∉ always)
    (hcur : Current L C m g d) {e : AllocReg} (hl : e.locked = true) (hm : e.modified = false)
    (he : e.type = .GPR → e.reg = 0) : Locked L (Function.update C d e) m g d := by
  have hhid : Hidden d e := ⟨fun h => absurd h hd.2, Or.inr ⟨hl, hm, he⟩⟩
  refine ⟨hw.hide hd.1 hhid, hc.drop hhid.not_holds hcur, fun i hi => ?_, ?_, ?_, hd⟩
  · by_cases hid : i = d
    · exact Or.inr hid
    · rw [Function.update_of_ne hid] at hi
      exact Or.inl (hidle i hid hi)
  · rw [Function.update_self]
    exact hl
  · rw [Function.update_self]
    exact hm

theorem Ready.free (h : Ready L C m g) (hd : d ∉ reserved) : (C d).locked = false := by
  rw [← Bool.not_eq_true]
  exact fun hl => hd (h.idle d hl)

/-- **A register of the host is locked as a scratchpad.** -/
theorem wp_lalloc_scratchpad (h : Ready L C m g) (hd : d ∉ reserved ∧ d ∉ always) {state : REG_STATE} :
    Wp exec (lalloc_int_reg L r .INTSCRATCHPAD state (some d)) C m fun d' C' m' => d' = d ∧
      Locked L C' m' g d ∧ (C' d).type = .INTSCRATCHPAD ∧ Framed L m m' := by
  have hdl := h.free hd.1
  unfold lalloc_int_reg alloc_reg
  refine Wp.bind (Wp.bind (Wp.get (Wp.bind (Wp.pure (Wp.ite (fun hl => ?_) fun _ => Wp.bind ?_)))))
  · exact absurd (hdl.symm.trans hl) Bool.false_ne_true
  unfold allocAt allocScratchpad
  refine Wp.bind ((wp_flush_int_reg h.wf h.coherent d).mono ?_)
  rintro - C₁ m₁ ⟨rfl, hc₁, hfl, hcur, -⟩
  refine wp_setEntry rfl (Wp.pure (Wp.bind (wp_setEntry rfl (Wp.pure ⟨rfl, ?_, ?_, hfl.framed⟩))))
  · rw [Function.update_idem, Function.update_self]
    exact locked_of_entry h.wf hc₁ (fun i _ => h.idle i) hd hcur
      (e := ⟨true, true, false, 0, -1, .INTSCRATCHPAD⟩) rfl rfl fun ht => REG_TYPE.noConfusion ht
  · rw [Function.update_self, Function.update_self]

/-- **$zero is locked**, wherever else it may be. -/
theorem wp_lalloc_zero (h : Ready L C m g) (hd : d ∉ reserved ∧ d ∉ always) :
    Wp exec (lalloc_int_reg L 0 .GPR .SCRATCHPAD (some d)) C m fun d' C' m' => d' = d ∧
      Locked L C' m' g d ∧ ZeroKept C' m' ∧ Framed L m m' := by
  have hdl := h.free hd.1
  have hgl : ∀ i, (C.grow i).locked = true → i ∈ reserved := fun i hi =>
    h.idle i ((grow_entry i).2.1.symm.trans hi)
  have hr : InFile 0 := by decide
  unfold lalloc_int_reg alloc_reg
  refine Wp.bind (Wp.bind (Wp.get (Wp.bind (Wp.pure (Wp.ite (fun hl => ?_) fun _ => Wp.bind ?_)))))
  · exact absurd (hdl.symm.trans hl) Bool.false_ne_true
  unfold allocAt allocGpr
  refine Wp.bind (Wp.modify (Wp.bind (Wp.get (Wp.ite (fun hh => ?_) fun _ => ?_))))
  · obtain ⟨hu, hreg, ht⟩ := holds_iff.1 hh
    have hold : Holds C.grow d := ⟨hu, (grow_entry d).2.1.trans hdl, ht⟩
    have hv : m.regs d = 0 := by
      rw [h.coherent.grow.held d hold, hreg]
      exact h.coherent.zero
    have hm : (C.grow d).modified = false := by
      rw [← Bool.not_eq_true]
      exact fun hm => (h.wf.grow.clean d hu hm).2 hreg
    have hcur : Current L C.grow m g d := fun hold' =>
      h.coherent.grow.memory _ (h.wf.grow.range d hold') fun j hj hmj hrj => by
        rw [h.wf.grow.unique j d hj hold hrj, hm] at hmj
        exact Bool.false_ne_true hmj
    refine wp_setEntry rfl (Wp.pure (Wp.bind (wp_setEntry rfl (Wp.pure ⟨rfl, ?_⟩))))
    rw [Function.update_idem, Function.update_self]
    have hlocked := locked_of_entry h.wf.grow h.coherent.grow (fun i _ => hgl i) hd hcur
      (e := ⟨(C.grow d).used, true, (C.grow d).modified || dirties 0 .SCRATCHPAD, 0, (C.grow d).reg,
        (C.grow d).type⟩) rfl (by rw [hm]; rfl) fun _ => hreg
    exact ⟨hlocked, hlocked.zeroKept hv, Framed.refl L m⟩
  · refine wp_give_up h.wf.grow h.coherent.grow ((grow_entry d).2.1.trans hdl) fun C₁ m₁ h₁ => ?_
    have hz₁ : ZeroKept C₁ m₁ := h₁.zeroKept h.wf.grow fun i hu hl _ =>
      absurd ((h.wf.grow.reserved i (hgl i hl)).2.symm.trans hu) Bool.false_ne_true
    refine Wp.bind ((wp_load_reg h₁.wf h₁.coherent hr fun _ => hz₁).mono ?_)
    rintro - C₂ m₂ ⟨rfl, hld⟩
    refine wp_setEntry rfl (Wp.pure (Wp.bind (wp_setEntry rfl (Wp.pure ⟨rfl, ?_⟩))))
    rw [Function.update_idem, Function.update_self]
    have hne : .R15 ≠ d := by
      rintro rfl
      exact hd.1 (by decide)
    have hc₂ : Coherent L C₂ m₂ g := h₁.coherent.other hld.mem (hld.regs _ hne) fun i hi =>
      hld.regs i (by rintro rfl; exact h₁.not_holds hi)
    have hlocked := locked_of_entry h₁.wf hc₂ (d := d)
      (fun i hid hi => hgl i (by rw [← h₁.other i hid]; exact hi)) hd
      (fun hold => absurd hold h₁.not_holds)
      (e := ⟨true, true, dirties 0 .SCRATCHPAD, 0, 0, .GPR⟩) rfl rfl fun _ => rfl
    refine ⟨hlocked, hlocked.zeroKept (hld.here.trans h.coherent.zero), fun p hp => ?_⟩
    rw [hld.mem]
    exact h₁.flushed.framed p hp

/-! ### The end of an instruction, and of a block -/

/-- **The locked register is free again**, and no code is written for this. -/
theorem free_int_reg_locked (h : Locked L C m g d) :
    ∃ C', free_int_reg L d C = some ((), C', []) ∧ Ready L C' m g := by
  obtain ⟨C₁, hC₁⟩ : ∃ C₁, C₁ = Function.update C d { C d with locked := false } := ⟨_, rfl⟩
  have hself : C₁ d = { C d with locked := false } := by rw [hC₁, Function.update_self]
  have hflush : flush_int_reg L d C₁ = some ((), C₁, []) := by
    unfold flush_int_reg
    refine bind_silent rfl ?_
    rw [hself, h.modified, Bool.and_false, Bool.false_and, if_neg Bool.false_ne_true]
    rfl
  obtain ⟨e, he⟩ : ∃ e : AllocReg, e = { C₁ d with used := false } := ⟨_, rfl⟩
  have hupdate : Function.update C₁ d e = Function.update C d e := by rw [hC₁, Function.update_idem]
  have hel : e.locked = false := by rw [he, hself]
  have hhid : Hidden d e := ⟨fun _ => hel, Or.inl (by rw [he])⟩
  refine ⟨Function.update C d e, ?_, h.wf.hide h.here.1 hhid,
    h.coherent.drop hhid.not_holds fun hold => absurd hold h.not_holds, fun i hi => ?_⟩
  · rw [← hupdate, he]
    unfold free_int_reg
    have hunlock : setEntry d (fun e => { e with locked := false }) C = some ((), C₁, []) := by
      rw [hC₁]
      rfl
    exact bind_silent hunlock (bind_silent hflush rfl)
  · rcases eq_or_ne i d with rfl | hid
    · rw [Function.update_self, hel] at hi
      exact absurd hi Bool.false_ne_true
    · rw [Function.update_of_ne hid] at hi
      exact (h.idle i hi).resolve_right hid

theorem wp_free_int_reg (h : Locked L C m g d) :
    Wp exec (free_int_reg L d) C m fun _ C' m' => m' = m ∧ Ready L C' m' g := by
  obtain ⟨C', hfree, hready⟩ := free_int_reg_locked h
  exact ⟨(), C', [], m, hfree, rfl, rfl, hready⟩

/-- **The end of a block**: every register of the EE is in memory, and none is in the cache. -/
theorem wp_cleanup_regs (h : Ready L C m g) :
    Wp exec (cleanup_regs L) C m fun _ C' m' => Ready L C' m' g ∧ (∀ i, (C' i).used = false) ∧
      (∀ r, InFile r → load 8 m'.mem (L.place r) = (g r).toNat) ∧ Framed L m m' := by
  unfold cleanup_regs
  refine Wp.bind ((wp_flush_regs h.wf h.coherent).mono ?_)
  rintro - C₁ m' ⟨rfl, hc, hfl, hcur⟩
  have hmem : ∀ r, InFile r → load 8 m'.mem (L.place r) = (g r).toNat := by
    intro r hr
    by_cases hh : ∃ i, Holds C₁ i ∧ (C₁ i).reg = r
    · obtain ⟨i, hi, rfl⟩ := hh
      exact hcur i hi
    · exact hc.memory r hr fun i hi _ hri => hh ⟨i, hi, hri⟩
  have hnone : ∀ i, ¬ Holds (fun i => { C₁ i with age := 0, used := false }) i := fun i hi =>
    Bool.false_ne_true hi.used
  refine Wp.modify ⟨⟨⟨?_, ?_, ?_, ?_, ?_, ?_, ?_, ?_⟩, ⟨hc.base, hc.zero, ?_, ?_⟩, h.idle⟩,
    fun _ => rfl, hmem, hfl.framed⟩
  · exact fun i hi => ⟨(h.wf.reserved i hi).1, rfl⟩
  · exact h.wf.always
  · exact fun i hu => absurd hu Bool.false_ne_true
  · exact fun i hi => absurd hi (hnone i)
  · exact fun i j hi => absurd hi (hnone i)
  · exact fun i j hi => absurd hi (hnone i)
  · exact fun i hu => absurd hu Bool.false_ne_true
  · exact fun i hu => absurd hu Bool.false_ne_true
  · exact fun i hi => absurd hi (hnone i)
  · exact fun r hr _ => hmem r hr

/-- **The beginning of a block.** -/
theorem ready_reset (hbase : m.regs .R15 = BitVec.ofNat 64 L.ee) (hzero : g 0 = 0)
    (hmem : ∀ r, InFile r → load 8 m.mem (L.place r) = (g r).toNat) : Ready L Cache.reset m g := by
  have hnone : ∀ i, ¬ Holds Cache.reset i := fun i hi => Bool.false_ne_true hi.used
  refine ⟨⟨?_, ?_, ?_, ?_, ?_, ?_, ?_, ?_⟩, ⟨hbase, hzero, ?_, fun r hr _ => hmem r hr⟩, ?_⟩
  · exact fun i hi => ⟨decide_eq_true hi, rfl⟩
  · intro i hi
    refine decide_eq_false fun h => ?_
    revert i
    decide
  · exact fun i hu => absurd hu Bool.false_ne_true
  · exact fun i hi => absurd hi (hnone i)
  · exact fun i j hi => absurd hi (hnone i)
  · exact fun i j hi => absurd hi (hnone i)
  · exact fun i hu => absurd hu Bool.false_ne_true
  · exact fun i hu => absurd hu Bool.false_ne_true
  · exact fun i hi => absurd hi (hnone i)
  · exact fun i hi => of_decide_eq_true hi

end

end DobieStation.EeJit.RegisterCache
