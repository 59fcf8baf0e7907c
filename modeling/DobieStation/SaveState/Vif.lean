import DobieStation.Lib.Serial
import DobieStation.Vif.Frame

/-! # The saved state of a VIF

`VectorInterface` in `serialize.cpp`. Neither function has `fifo_reverse`, `direct_wait`,
`wait_for_PATH3`, `stall_condition_active` and `MARK`; a reset clears the first four of them. -/

namespace DobieStation.SaveState.Vif

open DobieStation.Lib.Serial DobieStation.Lib.Reach DobieStation.Lib.Hoare
open DobieStation.Dma.Model (Quad)
open DobieStation.Vif.Model DobieStation.Vif.Frame

variable {W : Type} {P : Peripherals W} {s : State W} {v r v₀ : VectorInterface}

/-! ### The two functions -/

/-- The stalls as a byte. -/
def stallByte (s : Stalls) : BitVec 8 :=
  (if s.IBIT then 1 else 0) ||| (if s.MSKPATH3 then 2 else 0) ||| (if s.STOP then 4 else 0) |||
  (if s.DIRECT then 8 else 0) ||| (if s.FORCEBREAK then 16 else 0)

def stallsOf (byte : BitVec 8) : Stalls :=
  ⟨byte.getLsbD 0, byte.getLsbD 1, byte.getLsbD 2, byte.getLsbD 3, byte.getLsbD 4⟩

theorem stallsOf_stallByte (s : Stalls) : stallsOf (stallByte s) = s := by
  obtain ⟨a, b, c, d, e⟩ := s
  revert a b c d e
  decide

instance : Image Stalls := Image.ofLeftInverse stallByte stallsOf stallsOf_stallByte

def statusByte : Status → BitVec 8
  | .VIF_IDLE => 0
  | .VIF_WAIT => 1
  | .VIF_DECODE => 2
  | .VIF_TRANSFER => 3

def statusOf (byte : BitVec 8) : Status :=
  if byte = 0 then .VIF_IDLE
  else if byte = 1 then .VIF_WAIT
  else if byte = 2 then .VIF_DECODE
  else .VIF_TRANSFER

instance : Image Status :=
  Image.ofLeftInverse statusByte statusOf fun status => by cases status <;> decide

instance : Image Unpack :=
  Image.ofLeftInverse
    (fun u : Unpack => (u.addr, u.signExtend, u.masked, u.offset, u.num, u.cmd, u.blocksWritten,
      u.wordsPerOp))
    (fun ⟨addr, signExtend, masked, offset, num, cmd, blocksWritten, wordsPerOp⟩ =>
      ⟨addr, signExtend, masked, offset, num, cmd, blocksWritten, wordsPerOp⟩)
    fun _ => rfl

instance : Image ErrReg :=
  Image.ofLeftInverse
    (fun e : ErrReg => (e.maskInterrupt, e.maskDmatagError, e.maskVifcodeError))
    (fun ⟨maskInterrupt, maskDmatagError, maskVifcodeError⟩ =>
      ⟨maskInterrupt, maskDmatagError, maskVifcodeError⟩)
    fun _ => rfl

/-- The words of a FIFO, which pass through an array of 64. -/
def saveFIFO (words : List Word) : Option File :=
  if words.length ≤ 64 then some (writeLength words.length ++ writeAll words) else none

def loadFIFO : Load (List Word) := do
  let size ← readLength
  (if size ≤ 64 then readAll size else failure)

def save_state (v : VectorInterface) : Option File := do
  let FIFO ← saveFIFO v.FIFO
  let internalFIFO ← saveFIFO v.internalFIFO
  return FIFO ++ internalFIFO ++ write v.imm ++ write v.command ++ write v.mpgAddr ++
    write v.unpack ++ write v.waitForVU ++ write v.flushStall ++ write v.waitCmdValue ++
    write v.bufferSize ++ write v.buffer ++ write v.DBF ++ write (v.CL, v.WL) ++ write v.OFST ++
    write v.BASE ++ write v.TOP ++ write v.TOPS ++ write v.ITOP ++ write v.ITOPS ++ write v.MODE ++
    write v.MASK ++ write v.ROW ++ write v.COL ++ write v.CODE ++ write v.commandLen ++
    write v.ibitDetected ++ write v.interrupt ++ write v.stalled ++ write v.stop ++
    write v.forcebreak ++ write v.cmdStatus ++ write v.internalWL ++ write v.markDetected ++
    write v.ERR

def load_state (v : VectorInterface) : Load VectorInterface := do
  let FIFO ← loadFIFO
  let internalFIFO ← loadFIFO
  let imm ← read
  let command ← read
  let mpgAddr ← read
  let unpack ← read
  let waitForVU ← read
  let flushStall ← read
  let waitCmdValue ← read
  let bufferSize ← read
  let buffer ← read
  let DBF ← read
  let cycle : BitVec 8 × BitVec 8 ← read
  let OFST ← read
  let BASE ← read
  let TOP ← read
  let TOPS ← read
  let ITOP ← read
  let ITOPS ← read
  let MODE ← read
  let MASK ← read
  let ROW ← read
  let COL ← read
  let CODE ← read
  let commandLen ← read
  let ibitDetected ← read
  let interrupt ← read
  let stalled ← read
  let stop ← read
  let forcebreak ← read
  let cmdStatus ← read
  let internalWL ← read
  let markDetected ← read
  let ERR ← read
  return { v with
    FIFO := v.FIFO ++ FIFO
    internalFIFO := v.internalFIFO ++ internalFIFO
    CL := cycle.1
    WL := cycle.2
    imm, command, mpgAddr, unpack, waitForVU, flushStall, waitCmdValue, bufferSize, buffer, DBF,
    OFST, BASE, TOP, TOPS, ITOP, ITOPS, MODE, MASK, ROW, COL, CODE, commandLen, ibitDetected,
    interrupt, stalled, stop, forcebreak, cmdStatus, internalWL, markDetected, ERR }

/-- What is loaded: `v`, but for the five fields that the loading VIF keeps. -/
def restored (r v : VectorInterface) : VectorInterface :=
  { v with
    id := r.id
    fifoReverse := r.fifoReverse
    directWait := r.directWait
    waitForPATH3 := r.waitForPATH3
    stallConditionActive := r.stallConditionActive
    MARK := r.MARK }

theorem run_loadFIFO_bind {β : Type} (f : List Word → Load β) {words : List Word}
    (hlen : words.length ≤ 64) (rest : File) :
    (loadFIFO >>= f).run ((writeLength words.length ++ writeAll words) ++ rest) =
      (f words).run rest := by
  unfold loadFIFO
  rw [bind_assoc, List.append_assoc, run_readLength_bind _ (by omega), if_pos hlen,
    run_readAll_bind]

theorem load_save (hr : r.FIFO = []) (hr' : r.internalFIFO = []) (hlen : v.FIFO.length ≤ 64)
    (hlen' : v.internalFIFO.length ≤ 64) :
    ∃ file, save_state v = some file ∧
      ∀ rest, (load_state r).run (file ++ rest) = some (restored r v, rest) := by
  unfold save_state saveFIFO
  rw [if_pos hlen, if_pos hlen']
  refine ⟨_, rfl, fun rest => ?_⟩
  unfold load_state
  simp only [List.append_assoc]
  rw [← List.append_assoc, run_loadFIFO_bind _ hlen, ← List.append_assoc,
    run_loadFIFO_bind _ hlen']
  simp only [run_read_bind, hr, hr', List.nil_append]
  rfl

/-! ### The FIFOs stay within their sizes -/

structure Fits (v : VectorInterface) : Prop where
  FIFO : v.FIFO.length ≤ v.fifoSize
  internalFIFO : v.internalFIFO.length ≤ 8

/-- What fits goes on fitting, in the same VIF. -/
def KeepsFits (s s' : State W) : Prop := s'.vif.id = s.vif.id ∧ (Fits s.vif → Fits s'.vif)

theorem fits_refl (s : State W) : KeepsFits s s := ⟨rfl, id⟩

theorem fits_trans (s s' s'' : State W) (h : KeepsFits s s') (h' : KeepsFits s' s'') :
    KeepsFits s s'' := ⟨h'.1.trans h.1, fun hf => h'.2 (h.2 hf)⟩

theorem keepsFits_of_beside {s s' : State W} (h : Beside s s') : KeepsFits s s' := by
  refine ⟨h.id, fun hf => ⟨?_, ?_⟩⟩
  · rw [h.FIFO, VectorInterface.fifoSize, h.id]
    exact hf.FIFO
  · rw [h.internalFIFO]
    exact hf.internalFIFO

theorem fits_of_beside {α : Type} {m : M W α} (h : Within Beside m) : Within KeepsFits m :=
  h.mono fun _ _ => keepsFits_of_beside

theorem fits_bind {α β : Type} {m : M W α} {f : α → M W β} (hm : Within KeepsFits m)
    (hf : ∀ a, Within KeepsFits (f a)) : Within KeepsFits (m >>= f) := within_bind fits_trans hm hf

theorem fits_pure {α : Type} (a : α) : Within KeepsFits (pure a : M W α) := within_pure fits_refl a

theorem fits_vif : Within KeepsFits (vif : M W VectorInterface) := fits_of_beside beside_vif

theorem fits_modify {f : VectorInterface → VectorInterface} (hid : ∀ v, (f v).id = v.id)
    (hf : ∀ v, Fits v → Fits (f v)) : Within KeepsFits (modifyVIF f : M W Unit) :=
  within_modify fun s => ⟨hid s.vif, hf s.vif⟩

theorem fits_refill : Within KeepsFits (modifyVIF refill : M W Unit) := by
  refine fits_modify (fun v => ?_) fun v hf => ?_
  · unfold refill
    split_ifs <;> rfl
  · obtain ⟨h, h'⟩ := hf
    unfold refill
    split_ifs
    · exact ⟨h, h'⟩
    · constructor
      · refine le_trans ?_ h
        simp
      · simp only [List.length_append, List.length_take]
        omega

theorem fits_popWord : Within KeepsFits (popWord P) := by
  refine fits_bind fits_vif fun _ => within_ite (fun _ => ?_) fun _ => fits_pure _
  refine fits_bind (fits_modify (fun _ => rfl) fun v hf => ⟨hf.FIFO, ?_⟩) fun _ =>
    fits_bind fits_vif fun _ => fits_of_beside (beside_when (beside_drive _))
  have := hf.internalFIFO
  simp only [List.length_tail]
  omega

theorem fits_updateTurn (cycles run_cycles : ℕ) :
    Within KeepsFits (updateTurn P cycles run_cycles) := by
  refine fits_bind fits_refill fun _ => fits_bind (fits_of_beside (beside_waitsOver P _)) fun _ =>
    within_ite (fun _ => ?_) fun _ => fits_pure _
  refine fits_bind (fits_of_beside (beside_unpackStep P)) fun _ => fits_bind fits_vif fun _ =>
    fits_bind (fits_of_beside (beside_checkVifStall P _)) fun _ => fits_bind fits_vif fun v => ?_
  have hrest (first : Bool) : Within KeepsFits (do rest P first; return false) :=
    fits_bind (fits_of_beside (beside_rest P _)) fun _ => fits_pure _
  rcases v.internalFIFO with - | ⟨value, words⟩
  · exact hrest _
  · refine within_ite (fun _ => hrest _) fun _ =>
      fits_bind (fits_of_beside (beside_processDataWord P _)) fun _ => fits_bind ?_ fun _ => fits_pure _
    exact within_ite (fun _ => fits_popWord) fun _ => fits_pure _

theorem fits_updateLoop (cycles run_cycles : ℕ) :
    Within KeepsFits (updateLoop P cycles run_cycles) := by
  induction run_cycles with
  | zero => exact fits_pure _
  | succ run_cycles ih =>
    refine fits_bind fits_vif fun _ => within_ite (fun _ => fits_pure _) fun _ => ?_
    exact fits_bind (fits_updateTurn _ _) fun _ => within_ite (fun _ => ih) fun _ => fits_pure _

/-- The room is tested before words are pushed. -/
theorem pushFIFO_fits {words : List Word} (h : s.vif.FIFO.length + words.length ≤ s.vif.fifoSize) :
    Ensures (pushFIFO words) s fun _ s' => KeepsFits s s' := by
  refine ensures_modify.mpr ⟨rfl, fun hf => ⟨?_, hf.internalFIFO⟩⟩
  rw [List.length_append]
  exact h

theorem fifoSize_ge (v : VectorInterface) : 32 ≤ v.fifoSize ∧ v.fifoSize ≤ 64 := by
  unfold VectorInterface.fifoSize
  split_ifs <;> omega

theorem fits_readGS (cycles : ℕ) : Within KeepsFits (readGS P cycles) := by
  induction cycles with
  | zero => exact fits_pure _
  | succ cycles ih =>
    intro s
    simp only [readGS, vif, ensures_bind, ensures_get, ensures_pure, ensures_ite]
    refine ⟨fun hroom => ?_, fun _ => fits_refl s⟩
    have hsize := fifoSize_ge s.vif
    refine (beside_needGIF s).mono fun _ s₁ h₁ => ((beside_ask _) s₁).mono fun data s₂ h₂ => ?_
    have hb := beside_trans _ _ _ h₁ h₂
    refine ⟨fun _ => ?_, fun _ => keepsFits_of_beside hb⟩
    have hroom₂ : s₂.vif.FIFO.length + 4 ≤ s₂.vif.fifoSize := by
      rw [hb.FIFO, VectorInterface.fifoSize, hb.id]
      change s.vif.FIFO.length + 4 ≤ s.vif.fifoSize
      omega
    refine (pushFIFO_fits hroom₂).mono fun _ s₃ h₃ => ?_
    refine (ih s₃).mono fun _ s₄ h₄ => ?_
    exact fits_trans _ _ _ (keepsFits_of_beside hb) (fits_trans _ _ _ h₃ h₄)

theorem fits_update (cycles : ℕ) : Within KeepsFits (update P cycles) := by
  have hclear : Within Beside (clearStalls P) :=
    beside_bind (beside_modify fun _ => ⟨rfl, rfl, rfl⟩) fun _ => beside_bind beside_vif fun _ =>
      beside_when (beside_bind beside_needGIF fun _ => beside_bind (beside_drive _) fun _ =>
        beside_modify fun _ => ⟨rfl, rfl, rfl⟩)
  refine fits_bind fits_vif fun _ => within_ite (fun _ => ?_) fun _ => ?_
  · exact fits_bind (fits_of_beside (beside_setStatus _)) fun _ => fits_readGS cycles
  · exact fits_bind (fits_of_beside hclear) fun _ => fits_updateLoop _ _

theorem fits_feedWords {room : ℕ} {words : List Word} (hwords : words.length = room)
    (hroom : room ≤ 4) : Within KeepsFits (feedWords P room words) := by
  intro s
  simp only [feedWords, vif, ensures_bind, ensures_get, ensures_pure, ensures_ite]
  have hsize := fifoSize_ge s.vif
  refine ⟨fun _ => ?_, fun _ => pushFIFO_fits (by omega)⟩
  exact (beside_drive _ s).mono fun _ _ => keepsFits_of_beside

theorem fits_transferWord (value : Word) :
    Within KeepsFits (transferWord value : M W Bool) := by
  intro s
  simp only [transferWord, vif, ensures_bind, ensures_get, ensures_pure, ensures_ite]
  have hsize := fifoSize_ge s.vif
  refine ⟨fun _ => fits_refl s, fun _ => pushFIFO_fits ?_⟩
  rw [List.length_singleton]
  omega

theorem fits_readFIFO : Within KeepsFits (readFIFO : M W (Option Quad)) := by
  intro s
  simp only [readFIFO, vif, ensures_bind, ensures_get, ensures_pure]
  split
  · exact ensures_pure.mpr (fits_refl s)
  · next x y z w words heq =>
    rw [ensures_bind, modifyVIF, ensures_modify, ensures_pure]
    refine ⟨rfl, fun hf => ⟨?_, hf.internalFIFO⟩⟩
    have := hf.FIFO
    rw [heq] at this
    simp only [List.length_cons] at this
    change words.length ≤ s.vif.fifoSize
    omega
  · exact ensures_failure.mpr trivial

/-- Nothing is left in the FIFO, or what was there. -/
theorem fits_shrink {f : VectorInterface → VectorInterface}
    (hf : ∀ v, (f v).id = v.id ∧ ((f v).FIFO = v.FIFO ∨ (f v).FIFO = []) ∧
      (f v).internalFIFO = v.internalFIFO) : Within KeepsFits (modifyVIF f : M W Unit) := by
  refine fits_modify (fun v => (hf v).1) fun v hv => ?_
  obtain ⟨hid, hfifo, hinternal⟩ := hf v
  refine ⟨?_, ?_⟩
  · rw [VectorInterface.fifoSize, hid]
    rcases hfifo with h | h
    · rw [h]
      exact hv.FIFO
    · rw [h]
      exact Nat.zero_le _
  · rw [hinternal]
    exact hv.internalFIFO

theorem fits_setStat (value : Word) : Within KeepsFits (setStat value : M W Unit) := by
  refine fits_shrink fun v => ⟨rfl, ?_, rfl⟩
  dsimp only
  split_ifs
  · exact .inl rfl
  · exact .inr rfl

theorem fits_setFbrst (value : Word) : Within KeepsFits (setFbrst value : M W Unit) := by
  refine fits_shrink fun v => ?_
  dsimp only [cancelStalls, forceBreak, resetUnit]
  split_ifs <;> exact ⟨rfl, by simp, rfl⟩

theorem fits_step (a : Act W) : Within KeepsFits (a.exec P) := by
  cases a with
  | update cycles => exact fits_bind (fits_update cycles) fun _ => fits_pure _
  | transferWord value => exact fits_bind (fits_transferWord value) fun _ => fits_pure _
  | transferDMAtag tag =>
    exact fits_bind (fits_feedWords rfl (by decide)) fun _ => fits_pure _
  | feedDMA quad => exact fits_bind (fits_feedWords rfl (by decide)) fun _ => fits_pure _
  | readFIFO => exact fits_bind fits_readFIFO fun _ => fits_pure _
  | getStat => exact fits_bind fits_vif fun _ => fits_pure _
  | getMark => exact fits_bind fits_vif fun _ => fits_pure _
  | getErr => exact fits_bind fits_vif fun _ => fits_pure _
  | getMode => exact fits_bind fits_vif fun _ => fits_pure _
  | getRow address =>
    have hrow : Within Beside (getRow address : M W Word) :=
      beside_bind (beside_index4 _) fun _ => beside_bind beside_vif fun _ => beside_pure _
    exact fits_bind (fits_of_beside hrow) fun _ => fits_pure _
  | getCode => exact fits_bind fits_vif fun _ => fits_pure _
  | getTop => exact fits_bind fits_vif fun _ => fits_pure _
  | setStat value => exact fits_bind (fits_setStat value) fun _ => fits_pure _
  | setMark value =>
    exact fits_bind (fits_of_beside (beside_modify fun _ => ⟨rfl, rfl, rfl⟩)) fun _ => fits_pure _
  | setErr value =>
    exact fits_bind (fits_of_beside (beside_modify fun _ => ⟨rfl, rfl, rfl⟩)) fun _ => fits_pure _
  | setFbrst value => exact fits_bind (fits_setFbrst value) fun _ => fits_pure _
  | «outside» f =>
    exact fits_bind fits_vif fun _ => fits_bind (fits_of_beside (beside_drive _)) fun _ =>
      fits_pure _

theorem reaches_fits (h : Reaches Init (Step P) s) : Fits s.vif := by
  refine h.invariant (I := fun s => Fits s.vif) ?_ ?_
  · rintro s ⟨v, hv⟩
    rw [hv]
    exact ⟨Nat.zero_le _, Nat.zero_le _⟩
  · rintro s a s' hf ⟨reply, hrun⟩
    exact (fits_step a s reply s' hrun).2 hf

/-! ### The round trip -/

/-- The answers of a VIF to calls, and what it has driven. -/
def behaviour (P : Peripherals W) (as : List (Act W)) (s : State W) : Option (List Reply × W) :=
  ((as.mapM (Act.exec P)).run s).map fun r => (r.1, r.2.world)

/-- The VIF that loads, freshly reset, goes on as the one that was saved. -/
def RoundTrip (P : Peripherals W) (v₀ : VectorInterface) (s : State W) : Prop :=
  ∃ file, save_state s.vif = some file ∧
    ∀ rest, ∃ v', (load_state (reset v₀)).run (file ++ rest) = some (v', rest) ∧
      ∀ as, behaviour P as { s with vif := v' } = behaviour P as s

/-- What is not saved is as the loading VIF has it after its reset. -/
structure Unchanged (v₀ v : VectorInterface) : Prop where
  fifoReverse : v.fifoReverse = false
  directWait : v.directWait = false
  waitForPATH3 : v.waitForPATH3 = false
  stallConditionActive : v.stallConditionActive = false
  MARK : v.MARK = v₀.MARK

theorem restored_eq (hid : v₀.id = v.id) (h : Unchanged v₀ v) : restored (reset v₀) v = v := by
  obtain ⟨h₁, h₂, h₃, h₄, h₅⟩ := h
  cases v
  dsimp only at hid h₁ h₂ h₃ h₄ h₅
  subst h₁ h₂ h₃ h₄ h₅
  unfold restored reset
  rw [hid]

/-- **A VIF is restored** if the fields that are not saved hold what a reset leaves in them. -/
theorem vif_restored (h : Reaches Init (Step P) s) (hid : v₀.id = s.vif.id)
    (hsame : Unchanged v₀ s.vif) : RoundTrip P v₀ s := by
  obtain ⟨hfifo, hinternal⟩ := reaches_fits h
  have hsize := (fifoSize_ge s.vif).2
  obtain ⟨file, hsave, hload⟩ := load_save (r := reset v₀) rfl rfl (by omega : s.vif.FIFO.length ≤ 64)
    (by omega)
  refine ⟨file, hsave, fun rest => ⟨_, hload rest, fun as => ?_⟩⟩
  rw [restored_eq hid hsame]

/-! ### A VIF1 with a VU that only starts programs -/

structure Machine where
  running : Bool
  started : List Word
  deriving DecidableEq, Repr

def machine : Peripherals Machine where
  activePath _ := 0
  pathQueue _ := 0
  requestPATH2 _ := id
  pathActive2 _ w := (true, w)
  deactivatePATH2 := id
  sendPATH2 _ := id
  setPath3Vifmask _ w := (false, w)
  resumePath3 := id
  path3Done _ := true
  readGSFIFO w := ((0, false), w)
  vuIsRunning w := w.running
  vuStoppedByTbit _ := false
  vuStartProgram addr _ w := { w with started := w.started ++ [addr] }
  vuGetPC _ := 0
  vuWriteInstr _ _ := id
  vuReadMem _ _ := 0
  vuWriteMem _ _ := id
  assertIRQ := id
  setDMARequest := id
  clearDMARequest := id

def blank : VectorInterface where
  id := true
  FIFO := []
  internalFIFO := []
  imm := 0
  command := 0
  mpgAddr := 0
  unpack := ⟨0, false, false, 0, 0, 0, 0, 0⟩
  ibitDetected := false
  stalled := Stalls.none
  cmdStatus := .VIF_IDLE
  interrupt := false
  stop := false
  forcebreak := false
  fifoReverse := false
  waitForVU := false
  directWait := false
  waitForPATH3 := false
  flushStall := false
  stallConditionActive := false
  waitCmdValue := 0
  buffer _ := 0
  bufferSize := 0
  internalWL := 0
  DBF := false
  markDetected := false
  ERR := ⟨false, false, false⟩
  CL := 0
  WL := 0
  OFST := 0
  BASE := 0
  TOPS := 0
  TOP := 0
  ITOPS := 0
  ITOP := 0
  MODE := 0
  MASK := 0
  CODE := 0
  ROW _ := 0
  COL _ := 0
  MARK := 0
  commandLen := 0

/-- The VU is at work when the run starts. -/
def powerOn : State Machine := ⟨blank, ⟨true, []⟩⟩

theorem init_powerOn : Init powerOn := ⟨blank, rfl⟩

/-- The state after a call. -/
def next (s : State Machine) (a : Act Machine) : Option (State Machine) :=
  ((a.exec machine).run s).map Prod.snd

theorem reaches_of_acts {as : List (Act Machine)} {s : State Machine}
    (h : as.foldlM next powerOn = some s) : Reaches Init (Step machine) s := by
  have hstart : Reaches Init (fun s a s' => next s a = some s') powerOn := Reaches.start init_powerOn
  refine (hstart.exec as h).mono fun s a s' hs => ?_
  obtain ⟨⟨reply, s''⟩, hrun, rfl⟩ := Option.map_eq_some_iff.mp hs
  exact ⟨reply, hrun⟩

instance (v₀ v : VectorInterface) : Decidable (Unchanged v₀ v) :=
  decidable_of_iff (v.fifoReverse = false ∧ v.directWait = false ∧ v.waitForPATH3 = false ∧
    v.stallConditionActive = false ∧ v.MARK = v₀.MARK)
    ⟨fun ⟨h₁, h₂, h₃, h₄, h₅⟩ => ⟨h₁, h₂, h₃, h₄, h₅⟩,
      fun ⟨h₁, h₂, h₃, h₄, h₅⟩ => ⟨h₁, h₂, h₃, h₄, h₅⟩⟩

/-- STROW with two of its four words. -/
theorem vif_restored_inRow : ∃ s,
    [.feedDMA 0x00000007000000003000000000000000#128, .update 1].foldlM next powerOn = some s ∧
      s.vif.command = 0x30 ∧ s.vif.commandLen = 2 ∧ RoundTrip machine blank s := by
  have hrun : ([.feedDMA 0x00000007000000003000000000000000#128, .update 1].foldlM next powerOn).map
      (fun s : State Machine =>
        (s.vif.command, s.vif.commandLen, s.vif.id, decide (Unchanged blank s.vif))) =
      some (0x30#8, 2, true, true) := by
    decide
  obtain ⟨s, hs, heq⟩ := Option.map_eq_some_iff.mp hrun
  simp only [Prod.mk.injEq, decide_eq_true_eq] at heq
  obtain ⟨hcommand, hlen, hid, hsame⟩ := heq
  exact ⟨s, hs, hcommand, hlen, vif_restored (reaches_of_acts hs) hid.symm hsame⟩

/-- The program of an MSCAL that waits for the VU is not started after the load. -/
theorem wait_forgotten : ¬ ∀ (s : State Machine) (v₀ : VectorInterface),
    Reaches Init (Step machine) s → v₀.id = s.vif.id → RoundTrip machine v₀ s := by
  intro hall
  let later : List (Act Machine) := [.outside fun _ _ w => { w with running := false }, .update 1]
  have hrun : ([.feedDMA 0x14000000#128, .update 1].foldlM next powerOn).map (fun s : State Machine =>
      (s.vif.FIFO.length, s.vif.internalFIFO.length, s.vif.id,
        (behaviour machine later s).map Prod.snd,
        (behaviour machine later { s with vif := restored (reset blank) s.vif }).map Prod.snd)) =
      some (0, 3, true, some ⟨false, [0]⟩, some ⟨false, []⟩) := by
    decide
  obtain ⟨s, hs, heq⟩ := Option.map_eq_some_iff.mp hrun
  simp only [Prod.mk.injEq] at heq
  obtain ⟨hfifo, hinternal, hid, hstarted, hlost⟩ := heq
  obtain ⟨file, hsave, hload⟩ := load_save (v := s.vif) (r := reset blank) rfl rfl
    (by omega : s.vif.FIFO.length ≤ 64) (by omega)
  obtain ⟨file', hsave', hround⟩ := hall s blank (reaches_of_acts hs) hid.symm
  obtain rfl : file = file' := Option.some.inj (hsave.symm.trans hsave')
  obtain ⟨v', hv', hsame⟩ := hround []
  obtain rfl : restored (reset blank) s.vif = v' := by
    rw [hload, Option.some.injEq, Prod.mk.injEq] at hv'
    exact hv'.1
  rw [hsame later, hstarted] at hlost
  exact absurd hlost (by decide)

end DobieStation.SaveState.Vif
