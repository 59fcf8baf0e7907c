import DobieStation.Ee.Control

/-! # Precise interrupts

Every handler ends at a place of program order, so every turn of the interpreter leads from one place
to the next, and what is taken between two instructions is taken at a place. -/

namespace DobieStation.Ee.Precise

open DobieStation.Lib.Interaction DobieStation.Lib.Hoare DobieStation.Lib.Reach
open DobieStation.Ee.Interface DobieStation.Ee.Instructions DobieStation.Ee.Run
open DobieStation.Ee.ProgramOrder DobieStation.Ee.Control

variable {D α β : Type} {P : Rest D} {m m' : Machine D} {o : Place}

/-- From a fetch, the handler comes to its end. -/
def Sends (c : Program D α) : Prop :=
  ∀ (m : Machine D) (o : Place), Held o m → Ensures (exec c) m fun _ m' => Ends o.current m'

section
variable {c c' : Program D α} {f : α → Program D β}

theorem quiet_sends (h : Quiet c) : Sends c := fun m o ho =>
  (h m).mono fun _ _ hc => (hc o ho).ends

theorem quiet_bind_sends (hc : Quiet c) (hf : ∀ a, Sends (f a)) : Sends (c >>= f) := by
  intro m o ho
  rw [exec_bind, ensures_bind]
  exact (hc m).mono fun a m' h => hf a m' o (h o ho)

theorem Sends.bind_still (hc : Sends c) (hf : ∀ a, Within Still (exec (f a))) :
    Sends (c >>= f) := by
  intro m o ho
  rw [exec_bind, ensures_bind]
  refine (hc m o ho).mono fun a m' h => ?_
  exact (hf a m').mono fun _ _ hs => h.still hs

theorem sends_ite {p : Prop} [Decidable p] (h : Sends c) (h' : Sends c') :
    Sends (if p then c else c') := by
  split_ifs
  · exact h
  · exact h'

end

/-! ### Control -/

/-- A handler that sends control somewhere, as long as the log is one of program order. -/
theorem sends_of {c : Program D Unit}
    (h : ∀ (m : Machine D) (o : Place), Clean m.log → track m.log = some o → Fetched m.core o →
      Ensures (exec c) m fun _ m' => Ends o.current m') : Sends c := by
  intro m o ho
  rcases ho with ⟨hc, ht, hf⟩ | hb
  · exact h m o hc ht hf
  · exact (exec_grows c m).mono fun _ _ hg => .inr (hb.grows hg)

theorem clean_cons {e : Event} {log : List Event} (h : Clean log) (he : e ≠ .store true) :
    Clean (e :: log) := by
  rw [Clean, List.mem_cons]
  rintro (h' | h')
  · exact he h'.symm
  · exact h h'

/-- One more event, and the place that it leads to. -/
theorem ends_cons {n : Machine D} (e : Event) (o' : Place) (hlog : n.log = e :: m.log)
    (hc : Clean m.log) (he : e ≠ .store true) (ht : track m.log = some o)
    (hfollow : follow o e = some o') (hcur : o'.current = o.current) (hl : Leaves n.core o') :
    Ends o.current n := by
  refine .inl ⟨?_, o', ?_, hcur, hl⟩
  · rw [hlog]
    exact clean_cons hc he
  · rw [hlog, track_cons, ht, Option.bind_some, hfollow]

theorem sends_jp (addr : Word) : Sends (jp addr : Program D Unit) := by
  refine sends_of fun m o hc ht hf => ?_
  simp only [jp, exec_bind, ensures_bind, ensures_change, ensures_record]
  refine ends_cons (.branch addr) _ rfl hc (by simp) ht rfl rfl ?_
  refine ⟨by simp, fun _ _ => ⟨rfl, by rw [hf.current], by rw [hf.current]⟩, by simp, by simp, ?_⟩
  exact hf.epc

theorem sends_branch (condition : Bool) (offset : Word) :
    Sends (branch condition offset : Program D Unit) :=
  sends_ite (quiet_bind_sends quiet_getPC fun _ => sends_jp _) (quiet_sends (quiet_pure _))

theorem add_eight (pc : Word) : pc + 4 + 4 = pc + 8 := by
  rw [BitVec.add_assoc]
  rfl

theorem add_eight_ne (pc : Word) : pc + 8 ≠ pc := by
  intro h
  have := congrArg (· - pc) h
  simp at this

/-- The instruction after `pc` is left out. -/
theorem leaves_skip {c : Core D} (hf : Fetched c o) :
    Leaves { c with PC := c.PC + 4 } { o with next := after o.before (o.current + 8) } where
  straight hb := by
    have hb : c.branchOn = false := hb
    dsimp only
    rw [hf.before, after_slotOf_false hb, hf.current, add_eight]
    exact ⟨rfl, hf.slot⟩
  taken hb hd := absurd (hf.delaySlot hb) hd
  again _ _ hpc := by
    have hpc : c.PC + 4 + 4 = o.current := hpc
    rw [hf.current, add_eight] at hpc
    exact absurd hpc (add_eight_ne _)
  jumps hb _ _ := by
    have hb : c.branchOn = true := hb
    dsimp only
    rw [hf.before, after_slotOf_true hb]
    exact ⟨rfl, hf.slot⟩
  epc := hf.epc

theorem sends_branchLikely (condition : Bool) (offset : Word) :
    Sends (branchLikely condition offset : Program D Unit) := by
  refine sends_ite (quiet_bind_sends quiet_getPC fun _ => sends_jp _) ?_
  refine sends_of fun m o hc ht hf => ?_
  simp only [exec_bind, ensures_bind, ensures_getPC, ensures_setPC, ensures_record]
  exact ends_cons .nullify _ rfl hc (by simp) ht rfl rfl (leaves_skip hf)

theorem sends_stall : Sends (stall : Program D Unit) := by
  refine sends_of fun m o hc ht hf => ?_
  simp only [stall, exec_bind, ensures_bind, ensures_getPC, ensures_setPC, ensures_record]
  refine ends_cons .stall _ rfl hc (by simp) ht rfl rfl ?_
  have hback : m.core.PC - 4 + 4 = m.core.PC := BitVec.sub_add_cancel _ _
  refine ⟨fun hb => ?_, fun hb hd => absurd (hf.delaySlot hb) hd, fun hb _ _ => ?_, fun _ _ hpc => ?_,
    hf.epc⟩
  · have hb : m.core.branchOn = false := hb
    dsimp only
    rw [hback, hf.before, slotOf, hb]
    exact ⟨hf.current, rfl⟩
  · have hb : m.core.branchOn = true := hb
    dsimp only
    rw [hf.before, slotOf, if_pos hb, hf.current]
    exact ⟨rfl, rfl⟩
  · exact absurd (hback.trans hf.current.symm) hpc

theorem sends_raise (code : BitVec 8) : Sends (raise code : Program D Unit) := by
  refine sends_of fun m o hc ht hf => ?_
  simp only [raise, handleException, unhalt, exec_bind, ensures_bind, ensures_change,
    ensures_see, ensures_setPC, ensures_setTlbMap, ensures_record]
  have hsaved : saved o.before o.current = if m.core.branchOn then m.core.PC - 4 else m.core.PC := by
    rw [hf.before, hf.current, saved_slotOf]
  have hbd : m.core.branchOn = o.before.isSome := by rw [hf.before, isSome_slotOf]
  refine ends_cons (.trap _ _ _) _ rfl hc (by simp) ht (if_pos ⟨hsaved.symm, hbd⟩) rfl ?_
  refine ⟨fun _ => ⟨rfl, rfl⟩, by simp, by simp, by simp, fun e he => ?_⟩
  exact (Option.mem_some.mp he).symm

/-! ### COP0 -/

theorem sends_mtc0 (index : BitVec 5) (v : Word) : Sends (mtc0 index v : Program D Unit) := by
  unfold mtc0
  split
  · exact quiet_sends (quiet_change fun _ => ⟨rfl, rfl, rfl, rfl, rfl⟩)
  · exact quiet_sends (quiet_pure _)
  · refine sends_of fun m o hc ht hf => ?_
    simp only [exec_bind, ensures_bind, ensures_change, ensures_record]
    have hl := hf.leaves
    refine ends_cons (.setEPC v) _ rfl hc (by simp) ht rfl rfl
      ⟨hl.straight, hl.taken, hl.again, hl.jumps, fun e he => ?_⟩
    exact (Option.mem_some.mp he).symm
  · exact quiet_sends (quiet_change fun _ => ⟨rfl, rfl, rfl, rfl, rfl⟩)
  · refine quiet_bind_sends (quiet_change fun _ => ⟨rfl, rfl, rfl, rfl, rfl⟩) fun _ => ?_
    exact quiet_sends (quiet_change fun _ => ⟨rfl, rfl, rfl, rfl, rfl⟩)
  · exact quiet_sends (quiet_change fun _ => ⟨rfl, rfl, rfl, rfl, rfl⟩)

theorem sends_cop0_mtc (w : Word) : Sends (cop0_mtc w : Program D Unit) := by
  refine quiet_bind_sends (quiet_gpr 32 (rt w)) fun v => sends_ite ?_ ?_
  · refine quiet_sends (quiet_ite (quiet_ite ?_ ?_) ?_)
    all_goals exact quiet_change fun _ => ⟨rfl, rfl, rfl, rfl, rfl⟩
  · exact (sends_mtc0 (rd w) v).bind_still fun _ => still_setTlbMap

/-- In an ERET: what a branch before it left. -/
structure Jumping (c : Core D) (o : Place) : Prop where
  before : o.before = if c.branchOn then some ⟨o.current - 4, c.newPC⟩ else none
  delaySlot : c.branchOn = true → c.delaySlot = 0
  epc : ∀ e ∈ o.epc, e = c.cop0.EPC

/-- In an ERET: the program counter is the one to go on at. -/
def Jumped (o : Place) (m : Machine D) : Prop :=
  (Clean m.log ∧ track m.log = some (o.jump m.core.PC) ∧ Jumping m.core o) ∨ Broken m.log

theorem jumping_of_fetched {c : Core D} (h : Fetched c o) : Jumping c o where
  before := by rw [h.before, h.current, slotOf]
  delaySlot := h.delaySlot
  epc := h.epc

theorem Jumping.keeps {c c' : Core D} (h : Jumping c o) (hk : Keeps c c') : Jumping c' o where
  before := by rw [hk.branchOn, hk.newPC]; exact h.before
  delaySlot := by rw [hk.branchOn, hk.delaySlot]; exact h.delaySlot
  epc := by rw [hk.EPC]; exact h.epc

theorem Jumped.still (h : Jumped o m) (hs : Still m m') : Jumped o m' := by
  rcases h with ⟨hc, ht, hj⟩ | h
  · refine .inl ⟨hs.clean hc, ?_, hj.keeps hs.core⟩
    rw [hs.track, ht, hs.core.PC]
  · exact .inr (h.grows hs.grows)

/-- Of two jumps the last one counts. -/
theorem jump_jump (o : Place) (pc pc' : Word) : (o.jump pc).jump pc' = o.jump pc' := by
  unfold Place.jump
  split_ifs <;> simp_all

theorem Jumping.leaves {c : Core D} (h : Jumping c o) {pc : Word} (hpc : c.PC + 4 = pc) :
    Leaves c (o.jump pc) where
  straight hb := by
    have hnone : o.before = none := by rw [h.before, hb]; rfl
    rw [Place.jump, hnone, if_neg (by simp), hpc]
    exact ⟨rfl, rfl⟩
  taken hb hd := absurd (h.delaySlot hb) hd
  again hb _ hself := by
    have hsome : o.before = some ⟨o.current - 4, c.newPC⟩ := by rw [h.before, hb]; rfl
    have hcur : (o.jump pc).current = o.current := by unfold Place.jump; split_ifs <;> rfl
    rw [hcur] at hself ⊢
    rw [Place.jump, if_pos ⟨by rw [hsome]; rfl, hpc.symm.trans hself⟩]
    exact ⟨hpc.symm.trans hself, hsome⟩
  jumps hb _ hother := by
    have hsome : o.before = some ⟨o.current - 4, c.newPC⟩ := by rw [h.before, hb]; rfl
    have hcur : (o.jump pc).current = o.current := by unfold Place.jump; split_ifs <;> rfl
    rw [hcur] at hother
    rw [Place.jump, if_neg fun hself => hother (hpc.trans hself.2), hsome]
    exact ⟨rfl, rfl⟩
  epc := by
    have hepc : (o.jump pc).epc = o.epc := by unfold Place.jump; split_ifs <;> rfl
    rw [hepc]
    exact h.epc

theorem leaveException_spec (h : Held o m) :
    Ensures (exec leaveException) m fun _ m' => Jumped o m' := by
  rcases h with ⟨hc, ht, hf⟩ | hb
  · have hj := jumping_of_fetched hf
    simp only [leaveException, exec_bind, exec_ite, ensures_bind, ensures_see, ensures_ite,
      ensures_setPC, ensures_change, ensures_record]
    refine ⟨fun _ => .inl ⟨clean_cons hc (by simp), ?_, ⟨hj.before, hj.delaySlot, hj.epc⟩⟩,
      fun _ => .inl ⟨clean_cons hc (by simp), ?_, ⟨hj.before, hj.delaySlot, hj.epc⟩⟩⟩
    · rw [track_cons, ht, Option.bind_some, follow]
    · rw [track_cons, ht, Option.bind_some, follow, if_pos fun e he => (hf.epc e he).symm]
  · exact (exec_grows _ m).mono fun _ _ hg => .inr (hb.grows hg)

theorem skipBIOS_spec (h : Jumped o m) :
    Ensures (exec (skipBIOS P)) m fun _ m' => Jumped o m' := by
  rw [skipBIOS, exec_bind, ensures_bind]
  refine (still_device P.skipBIOS m).mono fun r m₁ hs => ?_
  have h₁ := h.still hs
  cases r with
  | none => exact ensures_pure.mpr h₁
  | some entry =>
    simp only [exec_bind, ensures_bind, ensures_setPC, ensures_record]
    rcases h₁ with ⟨hc, ht, hj⟩ | hb
    · refine .inl ⟨clean_cons hc (by simp), ?_, ⟨hj.before, hj.delaySlot, hj.epc⟩⟩
      rw [track_cons, ht, Option.bind_some, follow, jump_jump]
    · exact .inr (hb.grows ⟨[_], rfl⟩)

theorem sends_eret (P : Rest D) : Sends (eret P) := by
  intro m o ho
  rw [eret, exec_bind, ensures_bind]
  refine (leaveException_spec ho).mono fun _ m₁ h₁ => ?_
  rw [exec_bind, ensures_bind, ensures_getPC, exec_bind, ensures_bind]
  refine (still_ite (still_device P.fastBoot) (still_pure ()) m₁).mono fun _ m₂ h₂ => ?_
  rw [exec_bind, ensures_bind, ensures_getPC, exec_bind, ensures_bind]
  refine (still_ite still_halt (still_pure ()) m₂).mono fun _ m₃ h₃ => ?_
  have hj : Jumped o m₃ := (h₁.still h₂).still h₃
  rw [exec_bind, ensures_bind]
  have hboot : Ensures (exec (if 0x00100000 ≤ m₂.core.PC ∧ m₂.core.PC < 0x00100010 then skipBIOS P
      else pure ())) m₃ fun _ m₄ => Jumped o m₄ := by
    split_ifs
    · exact skipBIOS_spec hj
    · exact ensures_pure.mpr hj
  refine hboot.mono fun _ m₄ h₄ => ?_
  simp only [exec_bind, ensures_bind, ensures_getPC, ensures_setPC, ensures_setTlbMap]
  rcases h₄ with ⟨hc, ht, hjump⟩ | hb
  · refine .inl ⟨hc, _, ht, ?_, ?_⟩
    · unfold Place.jump
      split_ifs <;> rfl
    · have hback : Jumping { m₄.core with PC := m₄.core.PC - 4 } o :=
        ⟨hjump.before, hjump.delaySlot, hjump.epc⟩
      exact hback.leaves (BitVec.sub_add_cancel _ _)
  · exact .inr hb

/-! ### Handlers of loads and stores -/

section
variable (P)

theorem quiet_address (w : Word) : Quiet (address w : Program D Word) :=
  (quiet_gpr 32 (rs w)).bind fun _ => quiet_pure _

theorem quiet_loadSigned (n : ℕ) (w : Word) : Quiet (loadSigned P n w) :=
  (quiet_address w).bind fun _ => (quiet_read n _).bind fun _ => quiet_setGpr _ _ _

theorem quiet_loadUnsigned (n : ℕ) (w : Word) : Quiet (loadUnsigned P n w) :=
  (quiet_address w).bind fun _ => (quiet_read n _).bind fun _ => quiet_setGpr _ _ _

theorem quiet_storeOf (n : ℕ) (w : Word) : Quiet (store P n w) :=
  (quiet_address w).bind fun _ => (quiet_gpr _ _).bind fun _ => quiet_write n _ _

theorem quiet_loadPart (n : ℕ) {merge : ℕ → BitVec (8 * n) → BitVec (8 * n) → BitVec (8 * n)}
    {put : ℕ → BitVec (8 * n) → Program D Unit} (hput : ∀ shift v, Quiet (put shift v)) (w : Word) :
    Quiet (loadPart P n merge put w) :=
  (quiet_address w).bind fun _ => (quiet_read n _).bind fun _ => (quiet_gpr _ _).bind fun _ =>
    hput _ _

theorem quiet_storePart (n : ℕ) (merge : ℕ → BitVec (8 * n) → BitVec (8 * n) → BitVec (8 * n))
    (w : Word) : Quiet (storePart P n merge w) :=
  (quiet_address w).bind fun _ => (quiet_read n _).bind fun _ => (quiet_gpr _ _).bind fun _ =>
    quiet_write n _ _

theorem quiet_lq (w : Word) : Quiet (lq P w) :=
  (quiet_address w).bind fun _ => (quiet_read 16 _).bind fun _ => quiet_setGpr _ _ _

theorem quiet_sq (w : Word) : Quiet (sq P w) :=
  (quiet_address w).bind fun _ => (quiet_getGpr _).bind fun _ => quiet_write 16 _ _

theorem quiet_lwl (w : Word) : Quiet (lwl P w) :=
  quiet_loadPart P 4 (fun _ _ => quiet_setGpr _ _ _) w

theorem quiet_lwr (w : Word) : Quiet (lwr P w) :=
  quiet_loadPart P 4 (fun _ _ => quiet_ite (quiet_setGpr _ _ _) (quiet_setGpr _ _ _)) w

theorem quiet_ldl (w : Word) : Quiet (ldl P w) :=
  quiet_loadPart P 8 (fun _ _ => quiet_setGpr _ _ _) w

theorem quiet_ldr (w : Word) : Quiet (ldr P w) :=
  quiet_loadPart P 8 (fun _ _ => quiet_setGpr _ _ _) w

theorem quiet_lwc1 (w : Word) : Quiet (lwc1 P w) :=
  (quiet_address w).bind fun _ => (quiet_read32 _).bind fun _ =>
    quiet_change fun _ => ⟨rfl, rfl, rfl, rfl, rfl⟩

theorem quiet_swc1 (w : Word) : Quiet (swc1 P w) :=
  (quiet_address w).bind fun _ => quiet_see.bind fun _ => quiet_write32 _ _

theorem quiet_cache (w : Word) : Quiet (cache w : Program D Unit) :=
  (quiet_address w).bind fun _ =>
    quiet_ite (quiet_change fun _ => ⟨rfl, rfl, rfl, rfl, rfl⟩) (quiet_pure _)

/-! ### Handlers of VU0 -/

theorem quiet_tick (n : BitVec 64) : Quiet (tick n : Program D Unit) :=
  quiet_change fun _ => ⟨rfl, rfl, rfl, rfl, rfl⟩

theorem quiet_cop2UpdateVu0 : Quiet (cop2UpdateVu0 P) := by
  refine quiet_see.bind fun _ => quiet_ite ?_ (quiet_ite (quiet_device _) (quiet_pure _))
  refine quiet_getPCNow.bind fun _ => (quiet_read32 _).bind fun _ => ?_
  exact (quiet_ite (quiet_tick 1) (quiet_pure _)).bind fun _ => quiet_device _

theorem quiet_checkInterlock : Quiet (checkInterlock P) :=
  (quiet_peek P.vu0IsRunning).bind fun _ => quiet_ite (quiet_pure _) (quiet_device _)

theorem quiet_eachField {f : ℕ → Program D Unit} (hf : ∀ i, Quiet (f i)) : Quiet (eachField f) :=
  (hf 0).bind fun _ => (hf 1).bind fun _ => (hf 2).bind fun _ => hf 3

theorem sends_interlocked {wait : Program D Bool} {act : Program D Unit} (hwait : Quiet wait)
    (hact : Quiet act) (w : Word) : Sends (interlocked P wait w act) := by
  refine sends_ite (quiet_bind_sends hwait fun _ => sends_ite sends_stall ?_) (quiet_sends hact)
  exact quiet_sends ((quiet_device _).bind fun _ => hact)

theorem sends_cop2_cfc (w : Word) : Sends (cop2_cfc P w) := by
  refine quiet_bind_sends (quiet_cop2UpdateVu0 P) fun _ => ?_
  exact sends_interlocked P (quiet_peek _) (quiet_see.bind fun _ => quiet_setGpr _ _ _) w

theorem sends_cop2_ctc (w : Word) : Sends (cop2_ctc P w) := by
  refine quiet_bind_sends (quiet_cop2UpdateVu0 P) fun _ => ?_
  refine quiet_bind_sends (quiet_gpr 32 (rt w)) fun v => ?_
  exact sends_interlocked P (quiet_checkInterlock P) (quiet_ite (quiet_device _) (quiet_device _)) w

theorem sends_cop2_qmfc2 (w : Word) : Sends (cop2_qmfc2 P w) := by
  refine quiet_bind_sends (quiet_cop2UpdateVu0 P) fun _ => ?_
  refine sends_interlocked P (quiet_peek _) (quiet_eachField fun _ => ?_) w
  exact (quiet_peek _).bind fun _ => quiet_setGpr _ _ _

theorem sends_cop2_qmtc2 (w : Word) : Sends (cop2_qmtc2 P w) := by
  refine quiet_bind_sends (quiet_cop2UpdateVu0 P) fun _ => ?_
  refine sends_interlocked P (quiet_checkInterlock P) (quiet_eachField fun _ => ?_) w
  exact (quiet_getGpr _).bind fun _ => quiet_device _

theorem quiet_lqc2 (w : Word) : Quiet (lqc2 P w) := by
  refine (quiet_address w).bind fun _ => (quiet_cop2UpdateVu0 P).bind fun _ => ?_
  exact quiet_eachField fun _ => (quiet_read32 _).bind fun _ => quiet_device _

theorem quiet_sqc2 (w : Word) : Quiet (sqc2 P w) := by
  refine (quiet_address w).bind fun _ => (quiet_cop2UpdateVu0 P).bind fun _ => ?_
  exact quiet_eachField fun _ => (quiet_peek _).bind fun _ => quiet_write32 _ _

theorem quiet_startVu0 (addr : Word) : Quiet (startVu0 P addr) :=
  (quiet_device _).bind fun _ => (quiet_tick 1).bind fun _ => (quiet_device _).bind fun _ =>
    quiet_tick (-1)

theorem sends_cop2_special (w : Word) : Sends (cop2_special P w) := by
  refine sends_ite (quiet_sends quiet_die) (quiet_bind_sends (quiet_peek _) fun _ => ?_)
  refine sends_ite sends_stall (quiet_sends (quiet_ite (quiet_startVu0 P _) (quiet_ite ?_ ?_)))
  · exact (quiet_peek _).bind fun _ => quiet_startVu0 P _
  · exact (quiet_cop2UpdateVu0 P).bind fun _ => quiet_device _

/-! ### System calls -/

theorem quiet_deci2handler (id : ℕ) : Quiet (deci2handler id : Program D Deci2Handler) :=
  quiet_ite (quiet_see.bind fun _ => quiet_pure _) quiet_die

theorem quiet_setDeci2 (id : ℕ) (f : Deci2Handler → Deci2Handler) :
    Quiet (setDeci2 id f : Program D Unit) := quiet_change fun _ => ⟨rfl, rfl, rfl, rfl, rfl⟩

theorem quiet_deci2Open (param : Word) : Quiet (deci2Open P param) := by
  refine quiet_see.bind fun _ => ?_
  refine Quiet.bind (quiet_change fun _ => ⟨rfl, rfl, rfl, rfl, rfl⟩) fun _ => ?_
  refine (quiet_deci2handler _).bind fun _ => (quiet_setDeci2 _ _).bind fun _ => ?_
  refine (quiet_read32 _).bind fun _ => (quiet_setDeci2 _ _).bind fun _ => ?_
  exact (quiet_read32 _).bind fun _ => (quiet_setDeci2 _ _).bind fun _ => quiet_setGpr _ _ _

theorem quiet_deci2Send (param : Word) : Quiet (deci2Send P param) := by
  refine (quiet_read32 _).bind fun _ => (quiet_deci2handler _).bind fun h => ?_
  refine Quiet.bind (quiet_ite ?_ (quiet_pure _)) fun _ => quiet_setGpr _ _ _
  refine (quiet_read32 _).bind fun _ => (quiet_read32 _).bind fun _ => ?_
  exact quiet_ite quiet_die (quiet_pure _)

theorem quiet_deci2Poll (param : Word) : Quiet (deci2Poll P param) := by
  refine (quiet_read32 _).bind fun _ => (quiet_deci2handler _).bind fun h => ?_
  exact (quiet_ite (quiet_write32 _ _) (quiet_pure _)).bind fun _ => quiet_setGpr _ _ _

theorem quiet_deci2call (func param : Word) : Quiet (deci2call P func param) := by
  unfold deci2call
  split
  · exact quiet_deci2Open P param
  · exact quiet_deci2Send P param
  · exact quiet_deci2Poll P param
  · exact quiet_pure _

theorem quiet_runProbe : ∀ p : Probe D, Quiet (runProbe P p)
  | .done _ => quiet_change fun _ => ⟨rfl, rfl, rfl, rfl, rfl⟩
  | .read _ next => (quiet_read32 _).bind fun _ => quiet_see.bind fun _ => quiet_runProbe (next _ _)

theorem quiet_hleSyscall (op : ℕ) : Quiet (hleSyscall P op) := by
  unfold hleSyscall
  split
  · exact quiet_die
  · refine (quiet_gpr 32 4).bind fun _ => (quiet_read32 _).bind fun _ => ?_
    refine Quiet.bind (quiet_change ?_) fun _ => quiet_pure _
    exact fun _ => ⟨rfl, rfl, rfl, rfl, rfl⟩
  · refine (quiet_gpr 32 4).bind fun _ => quiet_see.bind fun _ => ?_
    exact (quiet_write32 _ _).bind fun _ => quiet_pure _
  · refine (quiet_gpr 32 4).bind fun _ => (quiet_gpr 32 5).bind fun _ => quiet_see.bind fun _ => ?_
    exact (quiet_runProbe P _).bind fun _ => quiet_pure _
  · refine (quiet_gpr 32 4).bind fun _ => (quiet_gpr 32 5).bind fun _ => ?_
    exact (quiet_deci2call P _ _).bind fun _ => quiet_pure _
  · exact quiet_pure _

theorem sends_syscallException : Sends (syscallException P) := by
  refine quiet_bind_sends (quiet_gpr 32 3) fun _ => ?_
  refine quiet_bind_sends (quiet_hleSyscall P _) fun _ => ?_
  exact sends_ite (sends_raise _) (quiet_sends (quiet_pure _))

/-! ### Branches -/

theorem sends_jal (w : Word) : Sends (jal w : Program D Unit) :=
  quiet_bind_sends quiet_getPC fun _ => (sends_jp _).bind_still fun _ => still_setGpr _ _ _

theorem sends_jalr (w : Word) : Sends (jalr w : Program D Unit) :=
  quiet_bind_sends quiet_getPC fun _ => quiet_bind_sends (quiet_gpr 32 (rs w)) fun _ =>
    (sends_jp _).bind_still fun _ => still_setGpr _ _ _

theorem sends_branches (likely condition : Bool) (offset : Word) :
    Sends (if likely then branchLikely condition offset else branch condition offset :
      Program D Unit) :=
  sends_ite (sends_branchLikely _ _) (sends_branch _ _)

theorem sends_compareBranch (likely : Bool) (test : BitVec 64 → BitVec 64 → Bool) (w : Word) :
    Sends (compareBranch likely test w : Program D Unit) :=
  quiet_bind_sends (quiet_gpr 64 (rs w)) fun _ => quiet_bind_sends (quiet_gpr 64 (rt w)) fun _ =>
    sends_branches _ _ _

theorem sends_zeroBranch (likely link : Bool) (test : ℤ → Bool) (w : Word) :
    Sends (zeroBranch likely link test w : Program D Unit) := by
  refine quiet_bind_sends (quiet_gpr 64 (rs w)) fun _ => quiet_bind_sends (quiet_ite ?_ ?_) fun _ =>
    sends_branches _ _ _
  · exact quiet_getPC.bind fun _ => quiet_setGpr _ _ _
  · exact quiet_pure _

theorem sends_conditionBranch (condition : Bool) (w : Word) :
    Sends (conditionBranch condition w : Program D Unit) :=
  sends_ite (quiet_sends quiet_die) (sends_ite (sends_branchLikely _ _) (sends_branch _ _))

/-! ### Every instruction -/

theorem quiet_compute (w : Word) : Quiet (compute P w) := by
  refine quiet_see.bind fun c => ?_
  split
  · exact quiet_die
  · exact quiet_change fun _ => ⟨rfl, rfl, rfl, rfl, rfl⟩

theorem sends_special (w : Word) : Sends (special P w) := by
  unfold special
  split
  · exact quiet_bind_sends (quiet_gpr 32 (rs w)) fun _ => sends_jp _
  · exact sends_jalr w
  · exact sends_syscallException P
  · exact quiet_sends quiet_die
  · exact quiet_sends (quiet_pure _)
  · refine quiet_bind_sends (quiet_gpr 64 (rs w)) fun _ => ?_
    refine quiet_bind_sends (quiet_gpr 64 (rt w)) fun _ => ?_
    exact sends_ite (sends_raise _) (quiet_sends (quiet_pure _))
  · exact quiet_sends (quiet_compute P w)

theorem sends_regimm (w : Word) : Sends (regimm P w) := by
  unfold regimm
  split
  case h_9 | h_10 => exact quiet_sends (quiet_compute P w)
  case h_11 => exact quiet_sends quiet_die
  all_goals exact sends_zeroBranch _ _ _ w

theorem quiet_tlbr : Quiet (tlbr : Program D Unit) := by
  have hset : ∀ (i : ℕ) (v : Word), Quiet (setCop0 i v : Program D Unit) := fun _ _ =>
    quiet_change fun _ => ⟨rfl, rfl, rfl, rfl, rfl⟩
  exact quiet_tlbEntry.bind fun _ => (hset _ _).bind fun _ => (hset _ _).bind fun _ =>
    (hset _ _).bind fun _ => hset _ _

theorem sends_cop0_co (w : Word) : Sends (cop0_co P w) := by
  unfold cop0_co
  split
  · exact quiet_sends quiet_tlbr
  · exact quiet_sends quiet_setTlb
  · exact sends_eret P
  case h_6 => exact quiet_sends quiet_die
  all_goals
    refine quiet_sends (quiet_see.bind fun _ => quiet_ite (quiet_change ?_) (quiet_pure _))
    exact fun _ => ⟨rfl, rfl, rfl, rfl, rfl⟩

theorem sends_cop0 (w : Word) : Sends (cop0 P w) := by
  unfold cop0
  split
  · exact quiet_sends (quiet_see.bind fun _ => quiet_setGpr _ _ _)
  · exact sends_cop0_mtc w
  · exact quiet_bind_sends (quiet_peek _) fun _ => sends_conditionBranch _ w
  · exact sends_cop0_co P w
  · exact quiet_sends quiet_die

theorem sends_cop1 (w : Word) : Sends (cop1 P w) := by
  refine sends_ite ?_ (sends_ite (quiet_sends (quiet_compute P w)) (quiet_sends quiet_die))
  exact quiet_bind_sends quiet_see fun _ => sends_conditionBranch _ w

theorem sends_cop2 (w : Word) : Sends (cop2 P w) := by
  refine sends_ite (sends_cop2_special P w) ?_
  split
  · exact sends_cop2_qmfc2 P w
  · exact sends_cop2_cfc P w
  · exact sends_cop2_qmtc2 P w
  · exact sends_cop2_ctc P w
  · exact quiet_bind_sends (quiet_peek _) fun _ => sends_conditionBranch _ w
  · exact quiet_sends quiet_die

theorem quiet_loads (w : Word) : Quiet (loads P w) := by
  unfold loads
  split
  · exact quiet_ldl P w
  · exact quiet_ldr P w
  · exact quiet_lq P w
  · exact quiet_loadSigned P 1 w
  · exact quiet_loadSigned P 2 w
  · exact quiet_lwl P w
  · exact quiet_loadSigned P 4 w
  · exact quiet_loadUnsigned P 1 w
  · exact quiet_loadUnsigned P 2 w
  · exact quiet_lwr P w
  · exact quiet_loadUnsigned P 4 w
  · exact quiet_cache w
  · exact quiet_lwc1 P w
  · exact quiet_pure _
  · exact quiet_lqc2 P w
  · exact quiet_loadUnsigned P 8 w
  · exact quiet_die

theorem quiet_stores (w : Word) : Quiet (stores P w) := by
  unfold stores
  split
  · exact quiet_sq P w
  · exact quiet_storeOf P 1 w
  · exact quiet_storeOf P 2 w
  · exact quiet_storePart P 4 _ w
  · exact quiet_storeOf P 4 w
  · exact quiet_storePart P 8 _ w
  · exact quiet_storePart P 8 _ w
  · exact quiet_storePart P 4 _ w
  · exact quiet_swc1 P w
  · exact quiet_sqc2 P w
  · exact quiet_storeOf P 8 w
  · exact quiet_loads P w

theorem sends_branchOps (w : Word) : Sends (branches P w) := by
  unfold branches
  split
  · exact quiet_bind_sends quiet_getPC fun _ => sends_jp _
  · exact sends_jal w
  · exact sends_compareBranch _ _ w
  · exact sends_compareBranch _ _ w
  · exact sends_zeroBranch _ _ _ w
  · exact sends_zeroBranch _ _ _ w
  · exact sends_compareBranch _ _ w
  · exact sends_compareBranch _ _ w
  · exact sends_zeroBranch _ _ _ w
  · exact sends_zeroBranch _ _ _ w
  · exact quiet_sends (quiet_stores P w)

/-- **Every handler comes to an end in program order**, unless a store took an interrupt. -/
theorem interpret_sends (w : Word) : Sends (interpret P w) := by
  refine sends_ite (quiet_sends (quiet_compute P w)) ?_
  split
  · exact sends_special P w
  · exact sends_regimm P w
  · exact sends_cop0 P w
  · exact sends_cop1 P w
  · exact sends_cop2 P w
  · exact sends_branchOps P w

/-- A NOP leaves control alone. -/
theorem interpret_nop : interpret P 0 = compute P 0 := rfl

end

end DobieStation.Ee.Precise
