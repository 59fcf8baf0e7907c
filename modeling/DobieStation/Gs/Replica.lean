import DobieStation.Gs.Manager
import DobieStation.Lib.Replica

/-! # The registers of the two threads

The GS thread draws from registers that follow those of the main thread by messages. They follow them
in all that a reset or a write sets. A reset sets the two copies, each for itself, but not all of them:
what it leaves alone agrees afterwards if it did before. -/

namespace DobieStation.Gs.Replica

open DobieStation.Gs.Registers DobieStation.Gs.Manager DobieStation.Lib.Reach DobieStation.Lib.Replica

/-! ### What is rendered -/

/-- What the GS thread reads in order to render a frame. -/
structure Rendered where
  PMODE : PMODE
  SMODE2 : SMODE2
  DISPLAY1 : DISPLAY
  DISPLAY2 : DISPLAY
  DISPFB1 : DISPFB
  DISPFB2 : DISPFB
  BGCOLOR : BitVec 32
  deinterlaceMethod : DeinterlaceMethod
  isOddFrame : Bool
  deriving DecidableEq, Repr

def rendered (r : GSRegisters) : Rendered where
  PMODE := r.PMODE
  SMODE2 := r.SMODE2
  DISPLAY1 := r.DISPLAY1
  DISPLAY2 := r.DISPLAY2
  DISPFB1 := r.DISPFB1
  DISPFB2 := r.DISPFB2
  BGCOLOR := r.BGCOLOR
  deinterlaceMethod := r.deinterlaceMethod
  isOddFrame := r.CSR.isOddFrame

/-! ### The two threads -/

/-- `gs_fifo` has room for as many messages. -/
def protocol : Protocol GraphicsSynthesizer GSRegisters Operation Message where
  perform := perform
  messages gs o := messages gs.reg o
  handle := handle
  capacity := 1024 * 1024 * 16

abbrev Threads := System GraphicsSynthesizer GSRegisters Message Rendered

def next (s : Threads) (a : Act Operation) : Option Threads :=
  step protocol (fun gs => rendered gs.reg) s a

/-- `GraphicsSynthesizer::reset` where the registers of the main thread were `main` and those of the GS
thread `thread`. The GS thread resets its own before it starts. The message is that of `set_CRT`. -/
def reset (main thread : GSRegisters) : Threads :=
  let reg := (main.setCRT false 0x2 false).reset false
  { primary := { reg, irqs := 0 }
    replica := thread.reset false
    queue := [.setCrt false 0x2 false]
    handled := 0
    views := [rendered reg] }

/-- What a reset leaves alone. -/
structure SameUnset (main thread : GSRegisters) : Prop where
  outputSwitching : main.PMODE.outputSwitching = thread.PMODE.outputSwitching
  useALP : main.PMODE.useALP = thread.PMODE.useALP
  out1Circuit2 : main.PMODE.out1Circuit2 = thread.PMODE.out1Circuit2
  blendWithBg : main.PMODE.blendWithBg = thread.PMODE.blendWithBg
  ALP : main.PMODE.ALP = thread.PMODE.ALP
  format1 : main.DISPFB1.format = thread.DISPFB1.format
  format2 : main.DISPFB2.format = thread.DISPFB2.format
  BGCOLOR : main.BGCOLOR = thread.BGCOLOR

/-! ### Registers that differ in what the threads keep for themselves -/

/-- The main thread uses `SIGNALIrqPending` for its interrupts and `BUSDIR` for its downloads. -/
def withOwn (pending : Bool) (BUSDIR : BitVec 8) (r : GSRegisters) : GSRegisters :=
  { r with CSR := { r.CSR with SIGNALIrqPending := pending }, BUSDIR }

def Same (main thread : GSRegisters) : Prop := ∃ pending BUSDIR, main = withOwn pending BUSDIR thread

variable {r r' : GSRegisters} {gs : GraphicsSynthesizer} {w : ℕ} {value : BitVec w}

theorem Same.rendered (h : Same r r') : rendered r = rendered r' := by
  obtain ⟨_, _, rfl⟩ := h
  rfl

theorem Same.pending {pending : Bool} (h : Same r r') :
    Same { r with CSR := { r.CSR with SIGNALIrqPending := pending } } r' := by
  obtain ⟨_, _, rfl⟩ := h
  exact ⟨_, _, rfl⟩

theorem Same.reset (h : Same r r') (softReset : Bool) :
    Same (r.reset softReset) (r'.reset softReset) := by
  obtain ⟨_, _, rfl⟩ := h
  exact ⟨_, _, rfl⟩

theorem Same.setCRT (h : Same r r') (interlaced : Bool) (mode : BitVec 8) (frameMode : Bool) :
    Same (r.setCRT interlaced mode frameMode) (r'.setCRT interlaced mode frameMode) := by
  obtain ⟨_, _, rfl⟩ := h
  exact ⟨_, _, rfl⟩

theorem Same.swapFIELD (h : Same r r') : Same r.swapFIELD r'.swapFIELD := by
  obtain ⟨_, _, rfl⟩ := h
  exact ⟨_, _, rfl⟩

theorem Same.acknowledgeSIGNAL (h : Same r r') : Same r.acknowledgeSIGNAL r'.acknowledgeSIGNAL := by
  obtain ⟨pending, BUSDIR, rfl⟩ := h
  have hstall : (withOwn pending BUSDIR r').CSR.SIGNALStall = r'.CSR.SIGNALStall := rfl
  rw [GSRegisters.acknowledgeSIGNAL, GSRegisters.acknowledgeSIGNAL, hstall]
  split_ifs
  · exact ⟨_, _, rfl⟩
  · exact ⟨_, _, rfl⟩

theorem Same.clearCSR (h : Same r r') (value : BitVec w) :
    Same { r with CSR := clearCSR value r.CSR } { r' with CSR := clearCSR value r'.CSR } := by
  obtain ⟨_, _, rfl⟩ := h
  exact ⟨_, _, rfl⟩

theorem Same.writeCSR (h : Same r r') (value : BitVec w) :
    Same (r.writeCSR value) (r'.writeCSR value) := by
  have hack : Same (if value.getLsbD 0 then r.acknowledgeSIGNAL else r)
      (if value.getLsbD 0 then r'.acknowledgeSIGNAL else r') := by
    split_ifs
    · exact h.acknowledgeSIGNAL
    · exact h
  unfold GSRegisters.writeCSR
  by_cases hreset : value.getLsbD 9 = true
  · simp only [if_pos hreset]
    exact (hack.clearCSR value).reset true
  · simp only [if_neg hreset]
    exact hack.clearCSR value

/-! ### Writes -/

theorem Same.write64Privileged (h : Same r r') (addr : BitVec 32) (value : BitVec 64) :
    Option.Rel Same (r.write64Privileged addr value) (r'.write64Privileged addr value) := by
  have hcsr := h.writeCSR value
  obtain ⟨_, _, rfl⟩ := h
  unfold GSRegisters.write64Privileged
  split
  case h_16 => exact .some hcsr
  case h_14 =>
    split_ifs
    · exact .none
    · exact .some ⟨_, _, rfl⟩
  case h_20 => exact .none
  all_goals exact .some ⟨_, _, rfl⟩

theorem Same.write32Privileged (h : Same r r') (addr value : BitVec 32) :
    Option.Rel Same (r.write32Privileged addr value) (r'.write32Privileged addr value) := by
  have hcsr := h.writeCSR value
  obtain ⟨_, _, rfl⟩ := h
  unfold GSRegisters.write32Privileged
  split
  case h_4 => exact .some hcsr
  case h_7 => exact .none
  all_goals exact .some ⟨_, _, rfl⟩

theorem Same.write64 (h : Same r r') (addr : BitVec 32) (value : BitVec 64) :
    Same ((r.write64 addr value).getD r) ((r'.write64 addr value).getD r') := by
  obtain ⟨pending, BUSDIR, rfl⟩ := h
  have hgenerated : (withOwn pending BUSDIR r').CSR.SIGNALGenerated = r'.CSR.SIGNALGenerated := rfl
  unfold GSRegisters.write64
  rw [hgenerated]
  split
  · split_ifs
    · exact ⟨_, _, rfl⟩
    · exact ⟨_, _, rfl⟩
  all_goals exact ⟨_, _, rfl⟩

theorem reset_writeCSR {value : BitVec w} (hreset : value.getLsbD 9 = true) :
    (r.writeCSR value).reset true = r.writeCSR value := by
  unfold GSRegisters.writeCSR
  simp only [if_pos hreset]
  rfl

/-- The GS thread resets once more after a write that resets, which changes nothing. -/
theorem softResetAt_writeCSR (value : BitVec w) :
    softResetAt 0x12001000 (value.getLsbD 9) (r.writeCSR value) = r.writeCSR value := by
  unfold softResetAt
  split_ifs with hreset
  · exact reset_writeCSR hreset.2
  · rfl

theorem map_softResetAt {written : Option GSRegisters} {addr : BitVec 32} {value : BitVec w}
    (hcsr : addr = 0x12001000 → written = some (r.writeCSR value)) :
    written.map (softResetAt addr (value.getLsbD 9)) = written := by
  by_cases haddr : addr = 0x12001000
  · rw [hcsr haddr, haddr, Option.map_some, softResetAt_writeCSR]
  · have hid : softResetAt addr (value.getLsbD 9) = id := funext fun r => if_neg fun h => haddr h.1
    rw [hid, Option.map_id]
    rfl

theorem handle_write64Privileged (addr : BitVec 32) (value : BitVec 64) :
    handle r (.write64Privileged addr value) = r.write64Privileged addr value :=
  map_softResetAt (by rintro rfl; rfl)

theorem handle_write32Privileged (addr value : BitVec 32) :
    handle r (.write32Privileged addr value) = r.write32Privileged addr value :=
  map_softResetAt (by rintro rfl; rfl)

/-! ### What the main thread does besides -/

theorem Same.checkIMR (h : Same gs.reg r) (oldIMR : Bool) : Same (gs.checkIMR oldIMR).reg r := by
  unfold GraphicsSynthesizer.checkIMR
  split_ifs
  · exact h.pending
  · exact h

theorem Same.checkSIGNAL (h : Same gs.reg r) : Same gs.checkSIGNAL.reg r := by
  unfold GraphicsSynthesizer.checkSIGNAL
  split_ifs
  · exact h
  · exact h.pending
  · exact h

theorem Same.asserted {q : GSRegisters × Bool} (h : Same q.1 r) : Same (gs.asserted q).reg r := by
  unfold GraphicsSynthesizer.asserted
  split_ifs
  · exact h
  · exact h

theorem Same.assertFINISH (h : Same r r') : Same r.assertFINISH.1 r'.assertFINISH.1 := by
  obtain ⟨pending, BUSDIR, rfl⟩ := h
  change Same (if r'.CSR.FINISHRequested && !r'.CSR.FINISHGenerated then _ else _ : _ × Bool).1 _
  unfold GSRegisters.assertFINISH
  split_ifs
  · exact ⟨_, _, rfl⟩
  · exact ⟨_, _, rfl⟩

theorem Same.assertHBLANK (h : Same r r') : Same r.assertHBLANK.1 r'.assertHBLANK.1 := by
  obtain ⟨pending, BUSDIR, rfl⟩ := h
  change Same (if r'.CSR.HBLANKGenerated then _ else _ : _ × Bool).1 _
  unfold GSRegisters.assertHBLANK
  split_ifs
  · exact ⟨_, _, rfl⟩
  · exact ⟨_, _, rfl⟩

theorem Same.assertVSYNC (h : Same r r') : Same r.assertVSYNC.1 r'.assertVSYNC.1 := by
  obtain ⟨pending, BUSDIR, rfl⟩ := h
  change Same (if r'.CSR.VBLANKGenerated then _ else _ : _ × Bool).1 _
  unfold GSRegisters.assertVSYNC
  split_ifs
  · exact ⟨_, _, rfl⟩
  · exact ⟨_, _, rfl⟩

/-! ### The replica follows -/

variable {gs' : GraphicsSynthesizer}

abbrev Led (gs : GraphicsSynthesizer) : GSRegisters → List Message → List Rendered → Prop :=
  Leads protocol rendered (fun gs r => Same gs.reg r) gs

/-- One message that brings the replica to where the primary is. -/
theorem led_single {m : Message} (hhandle : handle r m = some r') (h : Same gs.reg r') :
    Led gs r [m] [rendered gs.reg] :=
  .next hhandle h.rendered.symm (.done h)

/-- So does a request for a download after it. -/
theorem led_download {m : Message} (hhandle : handle r m = some r') (h : Same gs.reg r') :
    Led gs r [m, .requestLocalHostTx] [rendered gs.reg, rendered gs.reg] :=
  .next hhandle h.rendered.symm (.next rfl h.rendered.symm (.done h))

theorem led_written {m : Message} {written written' : Option GSRegisters} {old download : Bool}
    (hrel : Option.Rel Same written written') (hhandle : handle r m = written')
    (hwritten : written.map (fun reg => (gs.withReg reg).checkIMR old) = some gs') :
    Led gs' r (if download then [m, .requestLocalHostTx] else [m])
      ((if download then [m, .requestLocalHostTx] else [m]).map fun _ => rendered gs'.reg) := by
  cases hrel with
  | none => cases hwritten
  | @some reg reg' hsame =>
    obtain rfl : (gs.withReg reg).checkIMR old = gs' := Option.some.inj hwritten
    have hsame' : Same ((gs.withReg reg).checkIMR old).reg reg' := Same.checkIMR hsame old
    cases download with
    | true => exact led_download hhandle hsame'
    | false => exact led_single hhandle hsame'

theorem follows : Follows protocol (fun gs => rendered gs.reg) rendered fun gs r => Same gs.reg r where
  view _ _ h := h.rendered
  operate gs gs' r o h hperform := by
    cases o with
    | write64 addr value =>
      obtain rfl : gs.write64 addr value = gs' := Option.some.inj hperform
      refine led_single rfl ?_
      unfold GraphicsSynthesizer.write64
      split_ifs
      · exact Same.checkSIGNAL (h.write64 addr value)
      · exact h.write64 addr value
    | write64Privileged addr value =>
      exact led_written (h.write64Privileged addr value) (handle_write64Privileged addr value) hperform
    | write32Privileged addr value =>
      exact led_written (h.write32Privileged addr value) (handle_write32Privileged addr value) hperform
    | setCRT interlaced mode frameMode =>
      obtain rfl := Option.some.inj hperform
      exact led_single rfl (h.setCRT interlaced mode frameMode)
    | assertFINISH =>
      obtain rfl := Option.some.inj hperform
      exact led_single rfl h.assertFINISH.asserted
    | assertHBLANK =>
      obtain rfl := Option.some.inj hperform
      exact led_single rfl h.assertHBLANK.asserted
    | assertVSYNC =>
      obtain rfl := Option.some.inj hperform
      exact led_single rfl h.assertVSYNC.asserted
    | swapCSRField =>
      obtain rfl := Option.some.inj hperform
      exact led_single rfl h.swapFIELD

/-! ### From a reset on -/

variable {main thread : GSRegisters}

theorem same_reset (h : SameUnset main thread) :
    Same ((main.setCRT false 0x2 false).reset false) ((thread.reset false).setCRT false 0x2 false) := by
  refine ⟨false, main.BUSDIR, ?_⟩
  simp only [GSRegisters.reset, GSRegisters.setCRT, withOwn, h.outputSwitching, h.useALP,
    h.out1Circuit2, h.blendWithBg, h.ALP, h.format1, h.format2, h.BGCOLOR]
  rfl

theorem inv_reset (h : SameUnset main thread) :
    Inv protocol rendered (fun gs r => Same gs.reg r) (reset main thread) where
  room := Nat.zero_le _
  leads := @led_single _ _ (reset main thread).primary _ rfl (same_reset h)
  agrees _ hn := by cases hn

/-- The message of the reset is handled: what the reset left alone shows. -/
theorem sameUnset_of_agrees
    (h : ∀ s, Reaches (fun s => s = reset main thread) (fun s a s' => next s a = some s') s →
      Agrees rendered s) : SameUnset main thread := by
  have hstep : next (reset main thread) .handle = some { reset main thread with
      replica := (thread.reset false).setCRT false 0x2 false
      queue := []
      handled := 1 } := rfl
  have hstart : Reaches (fun s => s = reset main thread) (fun s a s' => next s a = some s')
    (reset main thread) := .start rfl
  have hagrees : Agrees rendered _ := h _ (hstart.next hstep)
  have hview := Option.some.inj (hagrees 0 rfl)
  constructor
  case outputSwitching => exact congrArg (fun v => v.PMODE.outputSwitching) hview
  case useALP => exact congrArg (fun v => v.PMODE.useALP) hview
  case out1Circuit2 => exact congrArg (fun v => v.PMODE.out1Circuit2) hview
  case blendWithBg => exact congrArg (fun v => v.PMODE.blendWithBg) hview
  case ALP => exact congrArg (fun v => v.PMODE.ALP) hview
  case format1 => exact congrArg (fun v => v.DISPFB1.format) hview
  case format2 => exact congrArg (fun v => v.DISPFB2.format) hview
  case BGCOLOR => exact congrArg (fun v => v.BGCOLOR) hview

/-- **The two copies agree from a reset on exactly if they agreed in what the reset leaves alone.** -/
theorem agrees_iff (main thread : GSRegisters) :
    (∀ s, Reaches (fun s => s = reset main thread) (fun s a s' => next s a = some s') s →
      Agrees rendered s) ↔ SameUnset main thread := by
  constructor
  · exact sameUnset_of_agrees
  · intro h s hs
    refine Lib.Replica.agrees follows ?_ hs
    rintro _ rfl
    exact inv_reset h

/-- A background that was left in one of the copies stays there. -/
theorem not_agrees : ¬ ∀ main thread s,
    Reaches (fun s => s = reset main thread) (fun s a s' => next s a = some s') s →
      Agrees rendered s := by
  intro h
  have hsame := sameUnset_of_agrees (h zeroed { zeroed with BGCOLOR := 0xFFFFFF })
  exact absurd hsame.BGCOLOR (by decide)

end DobieStation.Gs.Replica
