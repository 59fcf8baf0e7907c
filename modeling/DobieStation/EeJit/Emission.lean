import DobieStation.EeJit.Effects

/-! # Every instruction is written correctly

The code that `emit_instruction` adds does what the instruction means, and leaves the cache in agreement with
the machine: first for every shape of the code, then for every instruction. -/

namespace DobieStation.EeJit.Integer

open DobieStation.Lib.Memory DobieStation.Lib.Staged DobieStation.EeJit.Host DobieStation.EeJit.RegisterCache

section
variable {L : Layout} {C : Cache} {m : Machine} {g : File} {r : ℤ} {instr : Instruction} {v : BitVec 64}

/-- What an instruction leaves that changes the registers of the EE to `g'`. -/
def Does (L : Layout) (m : Machine) (g' : File) (C' : Cache) (m' : Machine) : Prop :=
  Ready L C' m' g' ∧ Framed L m m'

/-! ### Allocations -/

/-- A register is read. -/
theorem wp_read (hw : Wf C) (hc : Coherent L C m g) (hr : InFile r) (hz : r = 0 → ZeroKept C m) :
    Wp exec (alloc_reg L r .GPR .READ none) C m fun d C' m' =>
      Allocated L C m r d C' m' ∧ Coherent L C' m' g ∧ m'.regs d = g r := by
  refine (wp_alloc_reg hw hc hr (fun h => by cases h) hz).mono ?_
  rintro d C' m' ⟨ha, -, hc', hv⟩
  have hv' := hv (by decide)
  rw [hv', Function.update_eq_self] at hc'
  exact ⟨ha, hc', hv'⟩

theorem dirties_of_ne {state : REG_STATE} (hs : state ≠ .READ) (hr : r ≠ 0) : dirties r state = true := by
  unfold dirties
  rw [decide_eq_true hs, decide_eq_true hr]
  rfl

/-- The register of an entry is written. -/
theorem Coherent.set {C' : Cache} {m' m'' : Machine} {d : REG_64} {g' : File} (hw : Wf C')
    (hc : Coherent L C' m' g') (hd : Recent C' 1 d r) (hmod : (C' d).modified = true) (hr : r ≠ 0)
    (h : OnlySets m' d v m'') : Coherent L C' m'' (Function.update g' r v) := by
  have h15 : .R15 ≠ d := (hd.holds.ne_reserved hw (by decide)).symm
  have hc' := hc.write hw hd.holds hd.reg hmod hr h.mem (fun i _ hi => h.regs i hi) (h.regs _ h15)
  rw [h.here] at hc'
  exact hc'

/-- **A register is allocated, and code gives it its new value.** -/
theorem wp_write {state : REG_STATE} (hs : state ≠ .READ) (hw : Wf C) (hc : Coherent L C m g)
    (hr : InFile r) (hr0 : r ≠ 0) {code : REG_64 → List Instr}
    (hcode : ∀ d C' m', Allocated L C m r d C' m' → (state ≠ .WRITE → m'.regs d = g r) →
      Gives (code d) m' d v) :
    Wp exec (do let d ← alloc_reg L r .GPR state none; Emit.emits (code d)) C m fun _ C' m' =>
      ∃ d m₁, Allocated L C m r d C' m₁ ∧ OnlySets m₁ d v m' ∧
        Coherent L C' m' (Function.update g r v) := by
  refine Wp.bind ((wp_alloc_reg hw hc hr (fun _ => hr0) fun h => absurd h hr0).mono ?_)
  rintro d C₁ m₁ ⟨ha, hmod, hc₁, hv⟩
  obtain ⟨m', hrun, hset⟩ := hcode d C₁ m₁ ha hv
  have hc' := Coherent.set ha.wf hc₁ ha.mine (hmod (dirties_of_ne hs hr0)) hr0 hset
  rw [Function.update_idem] at hc'
  exact Wp.emits hrun ⟨d, m₁, ha, hset, hc'⟩

theorem Framed.of_mem {m₁ m' : Machine} (h : Framed L m m₁) (hmem : m'.mem = m₁.mem) : Framed L m m' := by
  intro p hp
  rw [hmem]
  exact h p hp

/-! ### The shapes -/

theorem wp_nullary (h : Ready L C m g) (hd : InDest instr) {code : REG_64 → List Instr}
    (hcode : ∀ d m', Gives (code d) m' d v) :
    Wp exec (nullary L instr code) C m fun _ C' m' =>
      Does L m (Function.update g instr.dest v) C' m' := by
  refine (wp_write (by decide) h.wf h.coherent hd.1 hd.2 fun d _ m' _ _ => hcode d m').mono ?_
  rintro - C' m' ⟨d, m₁, ha, hset, hc'⟩
  exact ⟨ha.ready h hc', Framed.of_mem ha.framed hset.mem⟩

theorem wp_unary (h : Ready L C m g) (hs : InFile instr.source_reg) (hd : InDest instr)
    {code : REG_64 → REG_64 → List Instr}
    (hcode : ∀ s d m', m'.regs s = g instr.source_reg → Gives (code s d) m' d v) :
    Wp exec (unary L instr code) C m fun _ C' m' =>
      Does L m (Function.update g instr.dest v) C' m' := by
  refine Wp.bind ((wp_read h.wf h.coherent hs fun _ => h.zeroKept).mono ?_)
  rintro s C₁ m₁ ⟨ha₁, hc₁, hv⟩
  refine (wp_write (by decide) ha₁.wf hc₁ hd.1 hd.2 fun d C₂ m₂ ha₂ _ => hcode s d m₂ ?_).mono ?_
  · exact (ha₂.kept 1 s _ (by decide) ha₁.mine).2.1.trans hv
  · rintro - C' m' ⟨d, m₂, ha₂, hset, hc'⟩
    refine ⟨ha₂.ready (ha₁.ready h hc₁) hc', ?_⟩
    exact ha₁.framed.trans (Framed.of_mem ha₂.framed hset.mem)

theorem wp_binary {state : REG_STATE} (hstate : state ≠ .READ) (h : Ready L C m g)
    (hs : InFile instr.source_reg ∧ InFile instr.source2_reg) (hd : InDest instr)
    {code : REG_64 → REG_64 → REG_64 → List Instr}
    (hcode : ∀ s t d m', m'.regs s = g instr.source_reg → m'.regs t = g instr.source2_reg →
      (state ≠ .WRITE → m'.regs d = g instr.dest) → Gives (code s t d) m' d v) :
    Wp exec (binary L instr state code) C m fun _ C' m' =>
      Does L m (Function.update g instr.dest v) C' m' := by
  refine Wp.bind ((wp_read h.wf h.coherent hs.1 fun _ => h.zeroKept).mono ?_)
  rintro s C₁ m₁ ⟨ha₁, hc₁, hv₁⟩
  have h₁ := ha₁.ready h hc₁
  refine Wp.bind ((wp_read h₁.wf hc₁ hs.2 fun _ => h₁.zeroKept).mono ?_)
  rintro t C₂ m₂ ⟨ha₂, hc₂, hv₂⟩
  have hs₂ := ha₂.kept 1 s _ (by decide) ha₁.mine
  refine (wp_write hstate ha₂.wf hc₂ hd.1 hd.2 fun d C₃ m₃ ha₃ hold => hcode s t d m₃ ?_ ?_ hold).mono ?_
  · exact (ha₃.kept 2 s _ (by decide) hs₂.1).2.1.trans (hs₂.2.1.trans hv₁)
  · exact (ha₃.kept 1 t _ (by decide) ha₂.mine).2.1.trans hv₂
  · rintro - C' m' ⟨d, m₃, ha₃, hset, hc'⟩
    refine ⟨ha₃.ready (ha₂.ready h₁ hc₂) hc', ?_⟩
    exact ha₁.framed.trans (ha₂.framed.trans (Framed.of_mem ha₃.framed hset.mem))

/-- The variable shifts. While RCX is locked for $zero, the source must not be $zero. -/
theorem wp_variableShift {type : REG_TYPE} (h : Ready L C m g)
    (hs : InFile instr.source_reg ∧ InFile instr.source2_reg) (hd : InDest instr)
    (htype : type = .INTSCRATCHPAD ∨ instr.source_reg ≠ 0) {mask : List Instr} {P : BitVec 8 → Prop}
    (hmask : ∀ m', m'.low 8 .RCX = (g instr.source2_reg).setWidth 8 →
      ∃ x m'', run exec 0 mask m' = some m'' ∧ OnlySets m' .RCX x m'' ∧ P (m''.low 8 .RCX))
    {code : REG_64 → REG_64 → List Instr}
    (hcode : ∀ s d m', m'.regs s = g instr.source_reg → d ≠ .RCX → P (m'.low 8 .RCX) →
      Gives (code s d) m' d v) :
    Wp exec (variableShift L instr type mask code) C m fun _ C' m' =>
      Does L m (Function.update g instr.dest v) C' m' := by
  have hlock : Wp exec (lalloc_int_reg L 0 type .SCRATCHPAD (some .RCX)) C m fun d C' m' => d = .RCX ∧
      Locked L C' m' g .RCX ∧ ZeroKept C' m' ∧ Framed L m m' ∧
      (type = .INTSCRATCHPAD → (C' .RCX).type = .INTSCRATCHPAD) := by
    cases type with
    | INTSCRATCHPAD =>
      refine (wp_lalloc_scratchpad h (by decide)).mono ?_
      rintro d C' m' ⟨hd, hl, ht, hf⟩
      exact ⟨hd, hl, hl.zeroKept_scratchpad ht, hf, fun _ => ht⟩
    | GPR =>
      refine (wp_lalloc_zero h (by decide)).mono ?_
      rintro d C' m' ⟨hd, hl, hz, hf⟩
      exact ⟨hd, hl, hz, hf, fun h => by cases h⟩
  refine Wp.bind (hlock.mono ?_)
  rintro - C₁ m₁ ⟨rfl, hl₁, hz₁, hf₁, ht₁⟩
  refine Wp.bind ((wp_read hl₁.wf hl₁.coherent hs.2 fun _ => hz₁).mono ?_)
  rintro t C₂ m₂ ⟨ha₂, hc₂, hv₂⟩
  have hl₂ := ha₂.lock hl₁ hc₂
  -- from here on RCX has the amount
  have hmov : OnlySets m₂ .RCX _ (m₂.setLow 8 .RCX (m₂.low 8 t)) := onlySets_set _
  have hlow : Machine.low (m₂.setLow 8 .RCX (m₂.low 8 t)) 8 .RCX = (g instr.source2_reg).setWidth 8 := by
    rw [Machine.low, hmov.here, low_setLow _ 8 (by decide), Machine.low, hv₂]
  obtain ⟨x, m₃, hrun, hset, hP⟩ := hmask _ hlow
  have hl₃ := (hl₂.change hmov.mem hmov.regs).change hset.mem hset.regs
  refine Wp.bind (Wp.emits hrun ?_)
  have hz₃ : instr.source_reg = 0 → ZeroKept C₂ m₃ := fun h0 =>
    hl₃.zeroKept_scratchpad ((ha₂.type_eq hl₁).trans (ht₁ (htype.resolve_right fun h => h h0)))
  refine Wp.bind ((wp_read hl₃.wf hl₃.coherent hs.1 hz₃).mono ?_)
  rintro s C₄ m₄ ⟨ha₄, hc₄, hv₄⟩
  have hl₄ := ha₄.lock hl₃ hc₄
  have hgives : ∀ d C₅ m₅, Allocated L C₄ m₄ instr.dest d C₅ m₅ → Gives (code s d) m₅ d v := by
    intro d C₅ m₅ ha₅
    refine hcode s d m₅ ?_ (ha₅.ne hl₄) ?_
    · exact (ha₅.kept 1 s _ (by decide) ha₄.mine).2.1.trans hv₄
    · rw [Machine.low, ha₅.regs_eq hl₄, ha₄.regs_eq hl₃]
      exact hP
  have hwrite := wp_write (show REG_STATE.WRITE ≠ .READ by decide) hl₄.wf hc₄ hd.1 hd.2
    fun d C₅ m₅ ha₅ _ => hgives d C₅ m₅ ha₅
  refine Wp.bind_assoc (hwrite.mono ?_)
  rintro - C₅ m' ⟨d, m₅, ha₅, hset₅, hc₅⟩
  refine (wp_free_int_reg (ha₅.lock hl₄ hc₅)).mono ?_
  rintro - C₆ m' ⟨rfl, hr⟩
  refine ⟨hr, hf₁.trans (ha₂.framed.trans ?_)⟩
  have hf₄ := Framed.of_mem (Framed.refl L m₂) (hset.mem.trans hmov.mem)
  exact hf₄.trans (ha₄.framed.trans (Framed.of_mem ha₅.framed hset₅.mem))

/-! ### Products and quotients -/

/-- The registers of the host for an instruction that writes LO and HI. -/
structure Operands (L : Layout) (C : Cache) (m : Machine) (g g' : File) (instr : Instruction) (hi : Bool)
    (s t lo' hi' : REG_64) : Prop where
  locked : Locked L C m g' .RDX
  scratch : (C .RDX).type = .INTSCRATCHPAD
  source : m.regs s = g instr.source_reg
  source2 : m.regs t = g instr.source2_reg
  entry : Recent C 4 s instr.source_reg
  entry2 : Recent C 3 t instr.source2_reg
  lo_entry : Recent C 2 lo' (lo_reg hi)
  hi_entry : Recent C 1 hi' (hi_reg hi)
  lo_modified : (C lo').modified = true
  hi_modified : (C hi').modified = true
  here : ∀ v w, Function.update (Function.update g' (lo_reg hi) v) (hi_reg hi) w = setLoHi hi g (v, w)

theorem lo_reg_file (hi : Bool) : InFile (lo_reg hi) ∧ lo_reg hi ≠ 0 := by cases hi <;> decide

theorem hi_reg_file (hi : Bool) : InFile (hi_reg hi) ∧ hi_reg hi ≠ 0 := by cases hi <;> decide

theorem lo_reg_ne_hi_reg (hi : Bool) : lo_reg hi ≠ hi_reg hi := by cases hi <;> decide

theorem wp_operands (h : Ready L C m g) (hs : InFile instr.source_reg ∧ InFile instr.source2_reg)
    {hi : Bool} {k : REG_64 → REG_64 → REG_64 → REG_64 → REG_64 → Jit Unit}
    {Q : Unit → Cache → Machine → Prop}
    (hk : ∀ s t lo' hi' g' C' m', Operands L C' m' g g' instr hi s t lo' hi' → Framed L m m' →
      Wp exec (k .RDX s t lo' hi') C' m' Q) :
    Wp exec (do
      let rdx ← lalloc_int_reg L 0 .INTSCRATCHPAD .SCRATCHPAD (some .RDX)
      let source ← alloc_reg L instr.source_reg .GPR .READ none
      let source2 ← alloc_reg L instr.source2_reg .GPR .READ none
      let LO ← alloc_reg L (lo_reg hi) .GPR .WRITE none
      let HI ← alloc_reg L (hi_reg hi) .GPR .WRITE none
      k rdx source source2 LO HI) C m Q := by
  refine Wp.bind ((wp_lalloc_scratchpad h (by decide)).mono ?_)
  rintro - C₁ m₁ ⟨rfl, hl₁, ht₁, hf₁⟩
  refine Wp.bind ((wp_read hl₁.wf hl₁.coherent hs.1 fun _ => hl₁.zeroKept_scratchpad ht₁).mono ?_)
  rintro s C₂ m₂ ⟨ha₂, hc₂, hv₂⟩
  have hl₂ := ha₂.lock hl₁ hc₂
  have ht₂ := (ha₂.type_eq hl₁).trans ht₁
  refine Wp.bind ((wp_read hl₂.wf hl₂.coherent hs.2 fun _ => hl₂.zeroKept_scratchpad ht₂).mono ?_)
  rintro t C₃ m₃ ⟨ha₃, hc₃, hv₃⟩
  have hl₃ := ha₃.lock hl₂ hc₃
  have ht₃ := (ha₃.type_eq hl₂).trans ht₂
  have hs₃ := ha₃.kept 1 s _ (by decide) ha₂.mine
  obtain ⟨hlo, hlo0⟩ := lo_reg_file hi
  obtain ⟨hhi, hhi0⟩ := hi_reg_file hi
  refine Wp.bind ((wp_alloc_reg hl₃.wf hc₃ hlo (fun _ => hlo0) fun h => absurd h hlo0).mono ?_)
  rintro lo' C₄ m₄ ⟨ha₄, hmod₄, hc₄, -⟩
  have hl₄ := ha₄.lock hl₃ hc₄
  have ht₄ := (ha₄.type_eq hl₃).trans ht₃
  have hs₄ := ha₄.kept 2 s _ (by decide) hs₃.1
  have ht'₄ := ha₄.kept 1 t _ (by decide) ha₃.mine
  refine Wp.bind ((wp_alloc_reg hl₄.wf hc₄ hhi (fun _ => hhi0) fun h => absurd h hhi0).mono ?_)
  rintro hi' C₅ m₅ ⟨ha₅, hmod₅, hc₅, -⟩
  have hs₅ := ha₅.kept 3 s _ (by decide) hs₄.1
  have ht'₅ := ha₅.kept 2 t _ (by decide) ht'₄.1
  have hlo₅ := ha₅.kept 1 lo' _ (by decide) ha₄.mine
  refine hk s t lo' hi' _ C₅ m₅ ⟨ha₅.lock hl₄ hc₅, (ha₅.type_eq hl₄).trans ht₄, ?_, ?_, hs₅.1, ht'₅.1,
    hlo₅.1, ha₅.mine, hlo₅.2.2 (hmod₄ (dirties_of_ne (by decide) hlo0)),
    hmod₅ (dirties_of_ne (by decide) hhi0), fun v w => ?_⟩ ?_
  · exact hs₅.2.1.trans (hs₄.2.1.trans (hs₃.2.1.trans hv₂))
  · exact ht'₅.2.1.trans (ht'₄.2.1.trans hv₃)
  · funext i
    unfold setLoHi
    by_cases hih : i = hi_reg hi
    · rw [hih, Function.update_self, Function.update_self]
    · by_cases hil : i = lo_reg hi
      · have hne := lo_reg_ne_hi_reg hi
        rw [hil, Function.update_of_ne hne, Function.update_of_ne hne, Function.update_self,
          Function.update_self]
      · rw [Function.update_of_ne hih, Function.update_of_ne hih, Function.update_of_ne hil,
          Function.update_of_ne hil, Function.update_of_ne hih, Function.update_of_ne hil]
  · exact hf₁.trans (ha₂.framed.trans (ha₃.framed.trans (ha₄.framed.trans ha₅.framed)))

theorem Operands.ne {g' : File} {hi : Bool} {s t lo' hi' : REG_64}
    (ho : Operands L C m g g' instr hi s t lo' hi') : lo' ≠ hi' := by
  rintro rfl
  exact lo_reg_ne_hi_reg hi (ho.lo_entry.reg.symm.trans ho.hi_entry.reg)

theorem Operands.holds_ne {g' : File} {hi : Bool} {s t lo' hi' i : REG_64}
    (ho : Operands L C m g g' instr hi s t lo' hi') (hold : Holds C i) : i ≠ .RAX ∧ i ≠ .RDX := by
  refine ⟨hold.ne_RAX ho.locked.wf, ?_⟩
  rintro rfl
  exact ho.locked.not_holds hold

/-- **LO and HI have their values.** -/
theorem Operands.results {g' : File} {hi : Bool} {s t lo' hi' : REG_64} {p : BitVec 64 × BitVec 64}
    {m' : Machine} (ho : Operands L C m g g' instr hi s t lo' hi') (hp : SetsPair m lo' hi' p m') :
    Locked L C m' (setLoHi hi g p) .RDX := by
  have hw := ho.locked.wf
  have h15 : m'.regs .R15 = m.regs .R15 :=
    hp.regs _ (ho.lo_entry.holds.ne_reserved hw (by decide)).symm
      (ho.hi_entry.holds.ne_reserved hw (by decide)).symm (by decide) (by decide)
  -- as if HI were written after LO
  have hset : OnlySets m' hi' (m.regs hi') (m'.set hi' (m.regs hi')) := onlySets_set _
  generalize m'.set hi' (m.regs hi') = m₁ at hset
  have hmem : m₁.mem = m.mem := hset.mem.trans hp.mem
  have hlo := ho.locked.coherent.write hw ho.lo_entry.holds ho.lo_entry.reg ho.lo_modified
    (lo_reg_file hi).2 hmem (fun i hold hil => ?_) ?_
  · have hhi := hlo.write hw ho.hi_entry.holds ho.hi_entry.reg ho.hi_modified (hi_reg_file hi).2
      hset.mem.symm (fun i _ hne => (hset.regs i hne).symm) (h15.trans ?_)
    · rw [hp.hi, hset.regs lo' ho.ne, hp.lo, ho.here] at hhi
      exact ⟨hw, hhi, ho.locked.idle, ho.locked.locked, ho.locked.modified, ho.locked.here⟩
    · rw [hset.regs _ (ho.hi_entry.holds.ne_reserved hw (by decide)).symm, h15]
  · by_cases hih : i = hi'
    · rw [hih, hset.here]
    · rw [hset.regs i hih]
      exact hp.regs i hil hih (ho.holds_ne hold).1 (ho.holds_ne hold).2
  · rw [hset.regs _ (ho.hi_entry.holds.ne_reserved hw (by decide)).symm, h15]

theorem Operands.apart {g' : File} {hi : Bool} {s t lo' hi' : REG_64}
    (ho : Operands L C m g g' instr hi s t lo' hi') : Apart s t lo' hi' :=
  ⟨ho.holds_ne ho.entry.holds, ho.holds_ne ho.entry2.holds, ho.holds_ne ho.lo_entry.holds,
    ho.holds_ne ho.hi_entry.holds, ho.ne⟩

theorem wp_write_lo {g' : File} {d : REG_64} (hl : Locked L C m g' .RDX) (hd : InFile instr.dest)
    (hv : m.regs d = v) {n : ℕ} (hn : n ≤ 8) (hlo : Recent C n d r) :
    Wp exec (write_lo L instr d) C m fun _ C' m' => Framed L m m' ∧
      Locked L C' m' (if instr.dest = 0 then g' else Function.update g' instr.dest v) .RDX := by
  unfold write_lo
  refine Wp.ite (fun h0 => ?_) fun h0 => ?_
  · rw [if_pos h0]
    exact Wp.pure ⟨Framed.refl L m, hl⟩
  · rw [if_neg h0]
    have hgives : ∀ e C₁ m₁, Allocated L C m instr.dest e C₁ m₁ → Gives [.MOV64_MR d e] m₁ e v := by
      intro e C₁ m₁ ha
      rw [← hv, ← (ha.kept n d r hn hlo).2.1]
      exact gives_of rfl
    refine (wp_write (show REG_STATE.WRITE ≠ .READ by decide) hl.wf hl.coherent hd h0
      fun e C₁ m₁ ha _ => hgives e C₁ m₁ ha).mono ?_
    rintro - C' m' ⟨e, m₁, ha, hset, hc⟩
    exact ⟨Framed.of_mem ha.framed hset.mem, ha.lock hl hc⟩

theorem wp_multiply {op : REG_64 → Instr} {f : BitVec 32 → BitVec 32 → BitVec 64}
    (hop : ∀ m t, exec (op t) m = some (Host.multiply m (f (m.low 32 .RAX) (m.low 32 t)), 0))
    (h : Ready L C m g) (hs : InFile instr.source_reg ∧ InFile instr.source2_reg) (hd : InFile instr.dest)
    (hi : Bool) :
    Wp exec (multiply L instr op hi) C m fun _ C' m' => Does L m (multiplied instr g hi
      (f (word (g instr.source_reg)) (word (g instr.source2_reg)))) C' m' := by
  refine wp_operands h hs fun s t lo' hi' g' C₁ m₁ ho hf => ?_
  obtain ⟨m₂, hrun, hp⟩ := run_multiply hop ho.apart ho.source ho.source2
  refine Wp.bind (Wp.emits hrun ?_)
  refine Wp.bind ((wp_write_lo (ho.results hp) hd hp.lo (by decide) ho.lo_entry).mono ?_)
  rintro - C₃ m₃ ⟨hf₃, hl₃⟩
  refine (wp_free_int_reg hl₃).mono ?_
  rintro - C₄ m₄ ⟨rfl, hr⟩
  exact ⟨hr, hf.trans ((Framed.of_mem (Framed.refl L m₁) hp.mem).trans hf₃)⟩

theorem wp_divide_unsigned_word (h : Ready L C m g)
    (hs : InFile instr.source_reg ∧ InFile instr.source2_reg) (hi : Bool) :
    Wp exec (divide_unsigned_word L instr hi) C m fun _ C' m' => Does L m (setLoHi hi g
      (quotientUnsigned (word (g instr.source_reg)) (word (g instr.source2_reg)))) C' m' := by
  refine wp_operands h hs fun s t lo' hi' g' C₁ m₁ ho hf => ?_
  obtain ⟨m₂, hrun, hp⟩ := run_divide_unsigned ho.apart ho.source ho.source2
  -- the register is freed before the end of the code, for which nothing is written
  obtain ⟨C₂, hfree, hr⟩ := free_int_reg_locked (ho.results hp)
  exact Wp.emits_silent_emits hfree hrun ⟨hr, hf.trans (Framed.of_mem (Framed.refl L m₁) hp.mem)⟩

theorem wp_divide_word (h : Ready L C m g)
    (hs : InFile instr.source_reg ∧ InFile instr.source2_reg) (h32 : instr.source_reg < 32)
    (hext : word (g instr.source2_reg) = 0 → extend (word (g instr.source_reg)) = g instr.source_reg)
    (hi : Bool) :
    Wp exec (divide_word L instr hi) C m fun _ C' m' => Does L m (setLoHi hi g
      (quotient (word (g instr.source_reg)) (word (g instr.source2_reg)))) C' m' := by
  refine wp_operands h hs fun s t lo' hi' g' C₁ m₁ ho hf => ?_
  have hslo : s ≠ lo' := by
    rintro rfl
    have hreg := ho.entry.reg.symm.trans ho.lo_entry.reg
    rw [hreg] at h32
    exact absurd h32 (by cases hi <;> decide)
  obtain ⟨m₂, hrun, hp⟩ := run_divide ho.apart ho.source ho.source2 hslo hext
  refine Wp.bind (Wp.emits hrun ((wp_free_int_reg (ho.results hp)).mono ?_))
  rintro - C₃ m₃ ⟨rfl, hr⟩
  exact ⟨hr, hf.trans (Framed.of_mem (Framed.refl L m₁) hp.mem)⟩

/-! ### All instructions -/

/-- **Every instruction is written correctly.** -/
theorem wp_emit_instruction (h : Ready L C m g) (hv : Valid instr g) :
    Wp exec (emit_instruction L instr) C m fun _ C' m' => Does L m (meaning instr g) C' m' := by
  obtain ⟨op, dest, source, source2⟩ := instr
  cases op with
  | Null => exact Wp.pure ⟨h, Framed.refl L m⟩
  | AddDoublewordImm =>
    obtain ⟨hs, hd⟩ := hv
    exact wp_unary h hs hd fun s d m' ha => ha ▸ gives_of rfl
  | AddDoublewordReg =>
    obtain ⟨hs, hd⟩ := hv
    exact wp_binary (by decide) h hs hd fun s t d m' ha hb _ => ha ▸ hb ▸ gives_of rfl
  | AddWordImm =>
    obtain ⟨hs, hd⟩ := hv
    refine wp_unary h hs hd fun s d m' ha => gives_word rfl (onlySets_set _) ?_
    rw [word_setWidth, word_add, ← ha]
    exact congrArg _ (word_extend _).symm
  | AddWordReg =>
    obtain ⟨hs, hd⟩ := hv
    refine wp_binary (by decide) h hs hd fun s t d m' ha hb _ => gives_word rfl (onlySets_set _) ?_
    rw [word_setWidth, word_add, ← ha, ← hb]
    rfl
  | AndImm =>
    obtain ⟨hs, hd⟩ := hv
    exact wp_unary h hs hd fun s d m' ha => gives_and_imm ha _
  | AndReg =>
    obtain ⟨hs, hd⟩ := hv
    exact wp_binary (by decide) h hs hd fun s t d m' ha hb _ =>
      gives_combine (fun _ _ _ => rfl) BitVec.and_comm ha hb
  | ClearDoublewordReg =>
    refine wp_nullary h hv fun d m' => ?_
    have hx : m'.regs d ^^^ m'.regs d = (0 : BitVec 64) := BitVec.xor_self
    rw [← hx]
    exact gives_of_clobber rfl
  | ClearWordReg =>
    refine wp_nullary h hv fun d m' => ?_
    have hx : (m'.low 32 d ^^^ m'.low 32 d).setWidth 64 = (0 : BitVec 64) := by
      rw [BitVec.xor_self]
      rfl
    rw [← hx]
    exact gives_of_clobber rfl
  | DivideUnsignedWord => exact wp_divide_unsigned_word h hv false
  | DivideUnsignedWord1 => exact wp_divide_unsigned_word h hv true
  | DivideWord =>
    obtain ⟨hs, h32, hext⟩ := hv
    exact wp_divide_word h hs h32 hext false
  | DivideWord1 =>
    obtain ⟨hs, h32, hext⟩ := hv
    exact wp_divide_word h hs h32 hext true
  | DoublewordShiftLeftLogical =>
    obtain ⟨hs, hd⟩ := hv
    refine wp_unary h hs hd fun s d m' ha => gives_copy64 ha fun m₁ hd₁ _ => ?_
    rw [← hd₁, amount64_imm]
    exact gives_of_clobber rfl
  | DoublewordShiftLeftLogicalVariable =>
    obtain ⟨hs, hd, h0⟩ := hv
    refine wp_variableShift h hs hd (Or.inr h0) (mask_nil (n := 64) (by decide) _) fun s d m' ha hne hP =>
      gives_copy64 ha fun m₁ hd₁ hregs => ?_
    rw [← hd₁, amount64_CL hP (hregs _ hne.symm)]
    exact gives_of_clobber rfl
  | DoublewordShiftRightArithmetic =>
    obtain ⟨hs, hd⟩ := hv
    refine wp_unary h hs hd fun s d m' ha => gives_copy64 ha fun m₁ hd₁ _ => ?_
    rw [← hd₁, amount64_imm]
    exact gives_of_clobber rfl
  | DoublewordShiftRightArithmeticVariable =>
    obtain ⟨hs, hd, h0⟩ := hv
    refine wp_variableShift h hs hd (Or.inr h0) (mask_nil (n := 64) (by decide) _) fun s d m' ha hne hP =>
      gives_copy64 ha fun m₁ hd₁ hregs => ?_
    rw [← hd₁, amount64_CL hP (hregs _ hne.symm)]
    exact gives_of_clobber rfl
  | DoublewordShiftRightLogical =>
    obtain ⟨hs, hd⟩ := hv
    refine wp_unary h hs hd fun s d m' ha => gives_copy64 ha fun m₁ hd₁ _ => ?_
    rw [← hd₁, amount64_imm]
    exact gives_of_clobber rfl
  | DoublewordShiftRightLogicalVariable =>
    obtain ⟨hs, hd, h0⟩ := hv
    refine wp_variableShift h hs hd (Or.inr h0) (mask_nil (n := 64) (by decide) _) fun s d m' ha hne hP =>
      gives_copy64 ha fun m₁ hd₁ hregs => ?_
    rw [← hd₁, amount64_CL hP (hregs _ hne.symm)]
    exact gives_of_clobber rfl
  | LoadConst => exact wp_nullary h hv fun d m' => gives_of rfl
  | MoveConditionalOnNotZero =>
    obtain ⟨hs, hd⟩ := hv
    exact wp_binary (by decide) h hs hd fun s t d m' ha hb hold =>
      gives_move_on_not_zero ha hb (hold (by decide))
  | MoveConditionalOnZero =>
    obtain ⟨hs, hd⟩ := hv
    exact wp_binary (by decide) h hs hd fun s t d m' ha hb hold =>
      gives_move_on_zero ha hb (hold (by decide))
  | MoveDoublewordReg =>
    obtain ⟨hs, hd⟩ := hv
    exact wp_unary h hs hd fun s d m' ha => ha ▸ gives_of rfl
  | MoveWordReg =>
    obtain ⟨hs, hd⟩ := hv
    exact wp_unary h hs hd fun s d m' ha => ha ▸ gives_of rfl
  | MultiplyUnsignedWord =>
    obtain ⟨hs, hd⟩ := hv
    exact wp_multiply (f := fun x y => x.setWidth 64 * y.setWidth 64) (fun _ _ => rfl) h hs hd false
  | MultiplyUnsignedWord1 =>
    obtain ⟨hs, hd⟩ := hv
    exact wp_multiply (f := fun x y => x.setWidth 64 * y.setWidth 64) (fun _ _ => rfl) h hs hd true
  | MultiplyWord =>
    obtain ⟨hs, hd⟩ := hv
    exact wp_multiply (f := fun x y => extend x * extend y) (fun _ _ => rfl) h hs hd false
  | MultiplyWord1 =>
    obtain ⟨hs, hd⟩ := hv
    exact wp_multiply (f := fun x y => extend x * extend y) (fun _ _ => rfl) h hs hd true
  | NegateDoublewordReg =>
    obtain ⟨hs, hd⟩ := hv
    refine wp_unary h hs hd fun s d m' ha => gives_copy64 ha fun m₁ hd₁ _ => ?_
    rw [← hd₁]
    exact gives_of_clobber rfl
  | NegateWordReg =>
    obtain ⟨hs, hd⟩ := hv
    refine wp_unary h hs hd fun s d m' ha => gives_copy32 ha fun m₁ hd₁ _ => ?_
    rw [← hd₁]
    exact gives_of_clobber rfl
  | NorReg =>
    obtain ⟨hs, hd⟩ := hv
    exact wp_binary (by decide) h hs hd fun s t d m' ha hb _ => gives_nor ha hb
  | OrImm =>
    obtain ⟨hs, hd⟩ := hv
    exact wp_unary h hs hd fun s d m' ha => gives_or_imm ha _
  | OrReg =>
    obtain ⟨hs, hd⟩ := hv
    exact wp_binary (by decide) h hs hd fun s t d m' ha hb _ =>
      gives_combine (fun _ _ _ => rfl) BitVec.or_comm ha hb
  | SetOnLessThan =>
    obtain ⟨hs, hd⟩ := hv
    refine wp_binary (by decide) h hs hd fun s t d m' ha hb _ => ?_
    rw [← ha, ← hb, ← holds_L]
    exact gives_setOn rfl
  | SetOnLessThanImmediate =>
    obtain ⟨hs, hd⟩ := hv
    refine wp_unary h hs hd fun s d m' ha => ?_
    rw [← ha, ← holds_L]
    exact gives_setOn rfl
  | SetOnLessThanImmediateUnsigned =>
    obtain ⟨hs, hd⟩ := hv
    refine wp_unary h hs hd fun s d m' ha => ?_
    rw [← ha, ← holds_B]
    exact gives_setOn rfl
  | SetOnLessThanUnsigned =>
    obtain ⟨hs, hd⟩ := hv
    refine wp_binary (by decide) h hs hd fun s t d m' ha hb _ => ?_
    rw [← ha, ← hb, ← holds_B]
    exact gives_setOn rfl
  | ShiftLeftLogical =>
    obtain ⟨hs, hd⟩ := hv
    refine wp_unary h hs hd fun s d m' ha => gives_copy32 ha fun m₁ hd₁ _ =>
      gives_shift32 (F := fun x n => x <<< n) hd₁ (amount32_imm _) rfl
  | ShiftLeftLogicalVariable =>
    obtain ⟨hs, hd⟩ := hv
    exact wp_variableShift h hs hd (Or.inl rfl) (mask_nil (n := 32) (by decide) _) fun s d m' ha hne hP =>
      gives_copy32 ha fun m₁ hd₁ hregs => gives_shift32 (F := fun x n => x <<< n) hd₁ (amount32_CL hP (hregs _ hne.symm)) rfl
  | ShiftRightArithmetic =>
    obtain ⟨hs, hd⟩ := hv
    refine wp_unary h hs hd fun s d m' ha => gives_copy32 ha fun m₁ hd₁ _ =>
      gives_shift32 (F := BitVec.sshiftRight) hd₁ (amount32_imm _) rfl
  | ShiftRightArithmeticVariable =>
    obtain ⟨hs, hd⟩ := hv
    exact wp_variableShift h hs hd (Or.inl rfl) (mask_nil (n := 32) (by decide) _) fun s d m' ha hne hP =>
      gives_copy32 ha fun m₁ hd₁ hregs => gives_shift32 (F := BitVec.sshiftRight) hd₁ (amount32_CL hP (hregs _ hne.symm)) rfl
  | ShiftRightLogical =>
    obtain ⟨hs, hd⟩ := hv
    refine wp_unary h hs hd fun s d m' ha => gives_copy32 ha fun m₁ hd₁ _ =>
      gives_shift32 (F := fun x n => x >>> n) hd₁ (amount32_imm _) rfl
  | ShiftRightLogicalVariable =>
    obtain ⟨hs, hd⟩ := hv
    exact wp_variableShift h hs hd (Or.inl rfl) (mask_and _) fun s d m' ha hne hP =>
      gives_copy32 ha fun m₁ hd₁ hregs => gives_shift32 (F := fun x n => x >>> n) hd₁ (amount32_CL hP (hregs _ hne.symm)) rfl
  | SubDoublewordReg =>
    obtain ⟨hs, hd⟩ := hv
    exact wp_binary (by decide) h hs hd fun s t d m' ha hb _ => gives_sub_doubleword ha hb
  | SubWordReg =>
    obtain ⟨hs, hd⟩ := hv
    exact wp_binary (by decide) h hs hd fun s t d m' ha hb _ => gives_sub_word ha hb
  | XorImm =>
    obtain ⟨hs, hd⟩ := hv
    exact wp_unary h hs hd fun s d m' ha => gives_xor_imm ha _
  | XorReg =>
    obtain ⟨hs, hd⟩ := hv
    exact wp_binary (by decide) h hs hd fun s t d m' ha hb _ =>
      gives_combine (fun _ _ _ => rfl) BitVec.xor_comm ha hb

end

/-! ## A block of integer code

The code of a whole block: while it is written and run the cache and the machine agree after every instruction,
and at its end the registers of the EE are in memory with the values that the instructions give them. -/

/-- What the instructions of a block mean, one after the other. -/
def meanings (block : List Instruction) (g : File) : File := block.foldl (fun g instr => meaning instr g) g

/-- Every instruction is valid where it is reached. -/
def ValidBlock : List Instruction → File → Prop
  | [], _ => True
  | instr :: block, g => Valid instr g ∧ ValidBlock block (meaning instr g)

/-- A layout without gaps, and a machine whose memory is zero. -/
def compact : Layout :=
  ⟨4096, 0, 512, 528, 544, by decide, by decide, by decide, by decide, by decide⟩

def blank (L : Layout) : Machine := ⟨fun _ => BitVec.ofNat 64 L.ee, none, fun _ => 0⟩

theorem load_blank (L : Layout) (a : ℕ) : load 8 (blank L).mem a = 0 := rfl

section
variable {L : Layout} {C : Cache} {m : Machine} {g : File} {block : List Instruction}

theorem meanings_append (block block' : List Instruction) (g : File) :
    meanings (block ++ block') g = meanings block' (meanings block g) := List.foldl_append

theorem validBlock_append {block block' : List Instruction} {g : File} :
    ValidBlock (block ++ block') g ↔ ValidBlock block g ∧ ValidBlock block' (meanings block g) := by
  induction block generalizing g with
  | nil => exact (and_iff_right trivial).symm
  | cons instr block ih =>
    change _ ∧ ValidBlock (block ++ block') _ ↔ (_ ∧ _) ∧ _
    rw [ih, and_assoc]
    rfl

/-- **The instructions of a block.** -/
theorem wp_instructions (h : Ready L C m g) (hv : ValidBlock block g) :
    Wp exec (block.forM (emit_instruction L)) C m fun _ C' m' => Does L m (meanings block g) C' m' := by
  refine Wp.forM (fun done C' m' => Does L m (meanings done g) C' m') ?_ ⟨h, Framed.refl L m⟩
  rintro done instr todo C' m' hblock ⟨hr, hf⟩
  rw [hblock, validBlock_append] at hv
  refine (wp_emit_instruction hr hv.2.1).mono ?_
  rintro - C'' m'' ⟨hr', hf'⟩
  rw [meanings_append]
  exact ⟨hr', hf.trans hf'⟩

/-- **The whole block**, from any cache in agreement with the machine. -/
theorem wp_recompile_block (h : Ready L C m g) (hv : ValidBlock block g) :
    Wp exec (recompile_block L block) C m fun _ C' m' => Ready L C' m' (meanings block g) ∧
      (∀ i, (C' i).used = false) ∧
      (∀ r, InFile r → load 8 m'.mem (L.place r) = (meanings block g r).toNat) ∧ Framed L m m' := by
  refine Wp.bind ((wp_instructions h hv).mono ?_)
  rintro - C₁ m₁ ⟨hr, hf⟩
  refine (wp_cleanup_regs hr).mono ?_
  rintro - C' m' ⟨hr', hu, hmem, hf'⟩
  exact ⟨hr', hu, hmem, hf.trans hf'⟩

/-- **The recompiler is correct for integer code.** The block is recompiled without an error, the code runs
without an exception of the host, and it leaves the registers of the EE in memory as the instructions of the
block say. Nothing else in memory changes. -/
theorem block_correct (hbase : m.regs .R15 = BitVec.ofNat 64 L.ee) (hzero : g 0 = 0)
    (hmem : ∀ r, InFile r → load 8 m.mem (L.place r) = (g r).toNat) (hv : ValidBlock block g) :
    ∃ C' code m', recompile_block L block Cache.reset = some ((), C', code) ∧
      run exec 0 code m = some m' ∧ (∀ i, (C' i).used = false) ∧
      (∀ r, InFile r → load 8 m'.mem (L.place r) = (meanings block g r).toNat) ∧
      ∀ p, Outside L p → m'.mem p = m.mem p := by
  obtain ⟨_, C', code, m', hc, hrun, -, hu, hmem', hf⟩ :=
    wp_recompile_block (ready_reset hbase hzero hmem) hv
  exact ⟨C', code, m', hc, hrun, hu, hmem', hf⟩

/-- 5 is divided by 3. -/
theorem divided_block : ∃ C' code m',
    recompile_block compact [⟨.LoadConst, 5, 7, 0⟩, ⟨.LoadConst, 6, 3, 0⟩, ⟨.DivideWord, 0, 5, 6⟩]
      Cache.reset = some ((), C', code) ∧
      run exec 0 code (blank compact) = some m' ∧
      load 8 m'.mem (compact.place EE_SpecialReg.LO) = 2 ∧
      load 8 m'.mem (compact.place EE_SpecialReg.HI) = 1 := by
  obtain ⟨C', code, m', hc, hrun, -, hmem, -⟩ := @block_correct compact (blank compact)
    (fun _ => 0) [⟨.LoadConst, 5, 7, 0⟩, ⟨.LoadConst, 6, 3, 0⟩, ⟨.DivideWord, 0, 5, 6⟩] rfl rfl
    (fun r _ => load_blank compact _)
    ⟨⟨by decide, by decide⟩, ⟨by decide, by decide⟩, ⟨by decide, by decide, by decide⟩, trivial⟩
  exact ⟨C', code, m', hc, hrun, (hmem _ (by decide)).trans (by decide), (hmem _ (by decide)).trans (by decide)⟩

/-- **The cache agrees with the machine after every instruction**, also where registers have been taken from
others: a register of the EE that is in the cache has its value there and nowhere else, and one that is not
modified or not in the cache is in memory. -/
theorem cache_coherent {done todo : List Instruction} (hbase : m.regs .R15 = BitVec.ofNat 64 L.ee)
    (hzero : g 0 = 0) (hmem : ∀ r, InFile r → load 8 m.mem (L.place r) = (g r).toNat)
    (hv : ValidBlock (done ++ todo) g) :
    ∃ C' code m', done.forM (emit_instruction L) Cache.reset = some ((), C', code) ∧
      run exec 0 code m = some m' ∧
      (∀ i, (C' i).used = true → m'.regs i = meanings done g (C' i).reg) ∧
      (∀ i j, (C' i).used = true → (C' j).used = true → (C' i).reg = (C' j).reg → i = j) ∧
      ∀ r, InFile r → (∀ i, (C' i).used = true → (C' i).modified = true → (C' i).reg ≠ r) →
        load 8 m'.mem (L.place r) = (meanings done g r).toNat := by
  obtain ⟨_, C', code, m', hc, hrun, hr, -⟩ :=
    wp_instructions (ready_reset hbase hzero hmem) (validBlock_append.1 hv).1
  have hholds : ∀ i, (C' i).used = true → Holds C' i := by
    intro i hu
    have hl : (C' i).locked = false := by
      rw [← Bool.not_eq_true]
      exact fun hl => Bool.false_ne_true ((hr.wf.reserved i (hr.idle i hl)).2.symm.trans hu)
    exact ⟨hu, hl, hr.wf.plain i hu hl⟩
  refine ⟨C', code, m', hc, hrun, fun i hu => hr.coherent.held i (hholds i hu),
    fun i j hi hj => hr.wf.unique i j (hholds i hi) (hholds j hj), fun r hin hdirty => ?_⟩
  exact hr.coherent.memory r hin fun i hi => hdirty i hi.used

/-- The quotient is in a register before the block ends. -/
theorem quotient_in_cache : ∃ C' code m',
    [⟨.LoadConst, 5, 7, 0⟩, ⟨.LoadConst, 6, 3, 0⟩, ⟨.DivideWord, 0, 5, 6⟩].forM (emit_instruction compact)
      Cache.reset = some ((), C', code) ∧
      run exec 0 code (blank compact) = some m' ∧
      ∀ i, (C' i).used = true → (C' i).reg = EE_SpecialReg.LO → m'.regs i = 2 := by
  obtain ⟨C', code, m', hc, hrun, hheld, -⟩ := @cache_coherent compact (blank compact)
    (fun _ => 0) [⟨.LoadConst, 5, 7, 0⟩, ⟨.LoadConst, 6, 3, 0⟩, ⟨.DivideWord, 0, 5, 6⟩]
    [⟨.OrReg, 7, 6, 5⟩] rfl rfl
    (fun r _ => load_blank compact _)
    ⟨⟨by decide, by decide⟩, ⟨by decide, by decide⟩, ⟨by decide, by decide, by decide⟩,
      ⟨by decide, by decide, by decide⟩, trivial⟩
  refine ⟨C', code, m', hc, hrun, fun i hu hlo => ?_⟩
  rw [hheld i hu, hlo]
  decide

end

end DobieStation.EeJit.Integer
