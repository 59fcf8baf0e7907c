import Mathlib.Data.BitVec

/-! # The privileged registers of the Graphics Synthesizer

`GS_REGISTERS` is kept twice: the main thread answers the EE from its copy and raises the interrupts,
and the GS thread draws from the other one. -/

namespace DobieStation.Gs.Registers

/-! ### The registers -/

structure PMODE where
  circuit1 : Bool
  circuit2 : Bool
  outputSwitching : BitVec 8
  useALP : Bool
  out1Circuit2 : Bool
  blendWithBg : Bool
  ALP : BitVec 8
  deriving DecidableEq, Repr

structure SMODE1 where
  PLLReset : Bool
  YCBCRColor : Bool
  PLLReferenceDivider : BitVec 8
  PLLLoopDivider : BitVec 8
  PLLOutputDivider : BitVec 8
  colorSystem : BitVec 8
  deriving DecidableEq, Repr

structure SMODE2 where
  interlaced : Bool
  frameMode : Bool
  powerMode : BitVec 8
  deriving DecidableEq, Repr

structure SYNCH1 where
  horizontalFrontPorch : BitVec 16
  horizontalBackPorch : BitVec 16
  deriving DecidableEq, Repr

structure SYNCV where
  verticalFrontPorch : BitVec 16
  verticalBackPorch : BitVec 16
  halflinesAfterFrontPorch : BitVec 16
  halflinesAfterBackPorch : BitVec 16
  halflinesWithVideo : BitVec 16
  halflinesWithVsync : BitVec 16
  deriving DecidableEq, Repr

structure DISPFB where
  frameBase : ℕ
  width : ℕ
  format : BitVec 8
  x : BitVec 16
  y : BitVec 16
  deriving DecidableEq, Repr

structure DISPLAY where
  x : ℕ
  y : ℕ
  magnifyX : ℕ
  magnifyY : ℕ
  width : ℕ
  height : ℕ
  deriving DecidableEq, Repr

structure IMR where
  signal : Bool
  finish : Bool
  hsync : Bool
  vsync : Bool
  rawt : Bool
  deriving DecidableEq, Repr

structure CSR where
  SIGNALGenerated : Bool
  SIGNALStall : Bool
  SIGNALIrqPending : Bool
  HBLANKGenerated : Bool
  VBLANKGenerated : Bool
  isOddFrame : Bool
  FINISHGenerated : Bool
  FINISHRequested : Bool
  FIFOStatus : BitVec 8
  deriving DecidableEq, Repr

structure SIGLBLID where
  sigId : BitVec 32
  backupSigId : BitVec 32
  lblId : BitVec 32
  deriving DecidableEq, Repr

inductive DeinterlaceMethod where
  | noDeinterlace | mergeField | blendScanline | bob
  deriving DecidableEq, Repr

structure GSRegisters where
  PMODE : PMODE
  SMODE1 : SMODE1
  SMODE2 : SMODE2
  SYNCH1 : SYNCH1
  SYNCV : SYNCV
  DISPFB1 : DISPFB
  DISPFB2 : DISPFB
  DISPLAY1 : DISPLAY
  DISPLAY2 : DISPLAY
  IMR : IMR
  CSR : CSR
  BUSDIR : BitVec 8
  CRTMode : BitVec 8
  SIGLBLID : SIGLBLID
  BGCOLOR : BitVec 32
  deinterlaceMethod : DeinterlaceMethod
  deriving DecidableEq, Repr

variable {w : ℕ}

/-- The bits of a register from `start` on, as a field of `m` bits. -/
def bits (value : BitVec w) (start n : ℕ) {m : ℕ} : BitVec m := (value.extractLsb' start n).setWidth m

/-- Memory that was never written. -/
def zeroed : GSRegisters where
  PMODE := ⟨false, false, 0, false, false, false, 0⟩
  SMODE1 := ⟨false, false, 0, 0, 0, 0⟩
  SMODE2 := ⟨false, false, 0⟩
  SYNCH1 := ⟨0, 0⟩
  SYNCV := ⟨0, 0, 0, 0, 0, 0⟩
  DISPFB1 := ⟨0, 0, 0, 0, 0⟩
  DISPFB2 := ⟨0, 0, 0, 0, 0⟩
  DISPLAY1 := ⟨0, 0, 0, 0, 0, 0⟩
  DISPLAY2 := ⟨0, 0, 0, 0, 0, 0⟩
  IMR := ⟨false, false, false, false, false⟩
  CSR := ⟨false, false, false, false, false, false, false, false, 0⟩
  BUSDIR := 0
  CRTMode := 0
  SIGLBLID := ⟨0, 0, 0⟩
  BGCOLOR := 0
  deinterlaceMethod := .noDeinterlace

/-! ### Reset -/

def GSRegisters.setCRT (interlaced : Bool) (mode : BitVec 8) (frameMode : Bool) (r : GSRegisters) :
    GSRegisters :=
  { r with
    SMODE2 := { r.SMODE2 with interlaced, frameMode }
    CRTMode := mode }

/-- What is not set keeps its value: most of `PMODE`, the formats of `DISPFB1` and `DISPFB2`,
`BUSDIR` and `BGCOLOR`. -/
def GSRegisters.reset (softReset : Bool) (r : GSRegisters) : GSRegisters :=
  GSRegisters.setCRT false 0x2 false
    { r with
      SMODE1 := ⟨false, false, 0, 0, 0, 0⟩
      SMODE2 := ⟨false, false, 0⟩
      deinterlaceMethod := .bob
      SYNCH1 := ⟨0, 0⟩
      SYNCV := ⟨0, 0, 0, 0, 0, 0⟩
      DISPFB1 := { frameBase := 0, width := 0, format := r.DISPFB1.format, x := 0, y := 0 }
      DISPFB2 := { frameBase := 0, width := 0, format := r.DISPFB2.format, x := 0, y := 0 }
      DISPLAY1 := { x := 0, y := 0, magnifyX := 1, magnifyY := 1, width := 0, height := 0 }
      DISPLAY2 := { x := 0, y := 0, magnifyX := 1, magnifyY := 1, width := 0, height := 0 }
      IMR := ⟨true, true, true, true, true⟩
      CSR :=
        { SIGNALGenerated := false
          SIGNALStall := false
          SIGNALIrqPending := false
          HBLANKGenerated := false
          VBLANKGenerated := false
          isOddFrame := if softReset then r.CSR.isOddFrame else true
          FINISHGenerated := false
          FINISHRequested := false
          FIFOStatus := 0x1 }
      SIGLBLID := ⟨0, 0, 0⟩
      PMODE := { r.PMODE with circuit1 := false, circuit2 := false } }

/-! ### Writes by the EE -/

def writePMODE (value : BitVec 64) : PMODE where
  circuit1 := value.getLsbD 0
  circuit2 := value.getLsbD 1
  outputSwitching := bits value 2 3
  useALP := value.getLsbD 5
  out1Circuit2 := value.getLsbD 6
  blendWithBg := value.getLsbD 7
  ALP := bits value 8 8

def writeSMODE1 (value : BitVec 64) : SMODE1 where
  PLLReferenceDivider := bits value 0 3
  PLLLoopDivider := bits value 3 7
  PLLOutputDivider := bits value 10 2
  colorSystem := bits value 13 2
  PLLReset := value.getLsbD 16
  YCBCRColor := value.getLsbD 25

def writeSMODE2 (value : BitVec 64) : SMODE2 where
  interlaced := value.getLsbD 0
  frameMode := value.getLsbD 1
  powerMode := bits value 2 2

def writeSYNCH1 (value : BitVec 64) : SYNCH1 where
  horizontalFrontPorch := bits value 0 11
  horizontalBackPorch := bits value 11 11

def writeSYNCV (value : BitVec 64) : SYNCV where
  verticalFrontPorch := bits value 0 10
  halflinesAfterFrontPorch := bits value 10 10
  verticalBackPorch := bits value 20 12
  halflinesAfterBackPorch := bits value 32 10
  halflinesWithVideo := bits value 42 11
  halflinesWithVsync := bits value 53 11

/-- The fields of the lower half of DISPFB1 or DISPFB2, which are all that a write of 32 bits sets. -/
def writeDISPFBLow (value : BitVec w) (d : DISPFB) : DISPFB :=
  { d with
    frameBase := (value.extractLsb' 0 9).toNat * 2048
    width := (value.extractLsb' 9 6).toNat * 64
    format := bits value 15 5 }

def writeDISPFB (value : BitVec 64) (d : DISPFB) : DISPFB :=
  { writeDISPFBLow value d with
    x := bits value 32 11
    y := bits value 43 11 }

def writeDISPLAY (value : BitVec 64) : DISPLAY :=
  let magnifyX := (value.extractLsb' 23 4).toNat + 1
  let magnifyY := (value.extractLsb' 27 2).toNat + 1
  { magnifyX
    magnifyY
    x := (value.extractLsb' 0 12).toNat / magnifyX
    y := (value.extractLsb' 12 11).toNat / magnifyY
    width := ((value.extractLsb' 32 12).toNat + 1) / magnifyX
    height := ((value.extractLsb' 44 11).toNat + 1) / magnifyY }

def writeIMR (value : BitVec w) : IMR where
  signal := value.getLsbD 8
  finish := value.getLsbD 9
  hsync := value.getLsbD 10
  vsync := value.getLsbD 11
  rawt := value.getLsbD 12

/-- The acknowledgement of a SIGNAL. -/
def GSRegisters.acknowledgeSIGNAL (r : GSRegisters) : GSRegisters :=
  if r.CSR.SIGNALStall then
    -- the IRQ of the stalled SIGNAL waits for IMR
    { r with
      CSR := { r.CSR with SIGNALStall := false, SIGNALGenerated := true, SIGNALIrqPending := true }
      SIGLBLID := { r.SIGLBLID with sigId := r.SIGLBLID.backupSigId } }
  else
    { r with CSR := { r.CSR with SIGNALGenerated := false, SIGNALIrqPending := false } }

def clearCSR (value : BitVec w) (c : CSR) : CSR :=
  { c with
    FINISHGenerated := c.FINISHGenerated && !value.getLsbD 1
    HBLANKGenerated := c.HBLANKGenerated && !value.getLsbD 2
    VBLANKGenerated := c.VBLANKGenerated && !value.getLsbD 3 }

def GSRegisters.writeCSR (value : BitVec w) (r : GSRegisters) : GSRegisters :=
  let r := if value.getLsbD 0 then r.acknowledgeSIGNAL else r
  let r := { r with CSR := clearCSR value r.CSR }
  if value.getLsbD 9 then r.reset true else r

/-- `none` is the end of the emulation by `Errors::die`. -/
def GSRegisters.write64Privileged (addr : BitVec 32) (value : BitVec 64) (r : GSRegisters) :
    Option GSRegisters :=
  match addr &&& 0x13F0 with
  | 0x0000 => some { r with PMODE := writePMODE value }
  | 0x0010 => some { r with SMODE1 := writeSMODE1 value }
  | 0x0020 =>
    let SMODE2 := writeSMODE2 value
    some { r with
      SMODE2
      deinterlaceMethod := if SMODE2.interlaced && SMODE2.frameMode then .noDeinterlace else .bob }
  | 0x0030 => some r
  | 0x0040 => some { r with SYNCH1 := writeSYNCH1 value }
  | 0x0050 => some r
  | 0x0060 => some { r with SYNCV := writeSYNCV value }
  | 0x0070 => some { r with DISPFB1 := writeDISPFB value r.DISPFB1 }
  | 0x0080 => some { r with DISPLAY1 := writeDISPLAY value }
  | 0x0090 => some { r with DISPFB2 := writeDISPFB value r.DISPFB2 }
  | 0x00A0 => some { r with DISPLAY2 := writeDISPLAY value }
  | 0x00B0 => some r
  | 0x00C0 => some r
  | 0x00D0 => if value.getLsbD 0 then none else some r
  | 0x00E0 => some { r with BGCOLOR := bits value 0 24 }
  | 0x1000 => some (r.writeCSR value)
  | 0x1010 => some { r with IMR := writeIMR value }
  | 0x1040 => some { r with BUSDIR := bits value 0 8 }
  | 0x1080 =>
    some { r with SIGLBLID := { r.SIGLBLID with sigId := bits value 0 32, lblId := bits value 32 32 } }
  | _ => none

def GSRegisters.write32Privileged (addr : BitVec 32) (value : BitVec 32) (r : GSRegisters) :
    Option GSRegisters :=
  match addr &&& 0x13F0 with
  | 0x0070 => some { r with DISPFB1 := writeDISPFBLow value r.DISPFB1 }
  | 0x0090 => some { r with DISPFB2 := writeDISPFBLow value r.DISPFB2 }
  | 0x00E0 => some { r with BGCOLOR := bits value 0 24 }
  | 0x1000 => some (r.writeCSR value)
  | 0x1010 => some { r with IMR := writeIMR value }
  | 0x1080 => some { r with SIGLBLID := { r.SIGLBLID with sigId := value } }
  | _ => none

def GSRegisters.read64Privileged (addr : BitVec 32) (r : GSRegisters) : BitVec 64 :=
  match addr &&& 0x13F0 with
  | 0x1080 => r.SIGLBLID.sigId.setWidth 64 ||| (r.SIGLBLID.lblId.setWidth 64 <<< 32)
  | _ =>
    (BitVec.ofBool r.CSR.SIGNALGenerated).setWidth 64 |||
      ((BitVec.ofBool r.CSR.FINISHGenerated).setWidth 64 <<< 1) |||
      ((BitVec.ofBool r.CSR.HBLANKGenerated).setWidth 64 <<< 2) |||
      ((BitVec.ofBool r.CSR.VBLANKGenerated).setWidth 64 <<< 3) |||
      ((BitVec.ofBool r.CSR.isOddFrame).setWidth 64 <<< 13) |||
      (r.CSR.FIFOStatus.setWidth 64 <<< 14) ||| (0x1B <<< 16) ||| (0x55 <<< 24)

/-! ### Writes by the GIF -/

/-- The value under the mask in the upper half. -/
def masked (old : BitVec 32) (value : BitVec 64) : BitVec 32 :=
  let mask : BitVec 32 := bits value 32 32
  (old &&& ~~~mask) ||| (bits value 0 32 &&& mask)

/-- `none` if the address is not one of these registers. -/
def GSRegisters.write64 (addr : BitVec 32) (value : BitVec 64) (r : GSRegisters) : Option GSRegisters :=
  match addr &&& 0xFFFF with
  | 0x0060 =>
    if r.CSR.SIGNALGenerated then
      some { r with
        CSR := { r.CSR with SIGNALStall := true }
        SIGLBLID := { r.SIGLBLID with backupSigId := masked r.SIGLBLID.sigId value } }
    else
      some { r with
        CSR := { r.CSR with SIGNALGenerated := true }
        SIGLBLID := { r.SIGLBLID with sigId := masked r.SIGLBLID.sigId value } }
  | 0x0061 => some { r with CSR := { r.CSR with FINISHRequested := true } }
  | 0x0062 => some { r with SIGLBLID := { r.SIGLBLID with lblId := masked r.SIGLBLID.lblId value } }
  | _ => none

/-! ### Events -/

def GSRegisters.swapFIELD (r : GSRegisters) : GSRegisters :=
  { r with CSR := { r.CSR with
      isOddFrame := if r.SYNCV.verticalFrontPorch.getLsbD 0 then !r.CSR.isOddFrame else true } }

/-- The asserts return whether the interrupt should be processed. -/
def GSRegisters.assertHBLANK (r : GSRegisters) : GSRegisters × Bool :=
  if r.CSR.HBLANKGenerated then (r, false)
  else ({ r with CSR := { r.CSR with HBLANKGenerated := true } }, !r.IMR.hsync)

def GSRegisters.assertVSYNC (r : GSRegisters) : GSRegisters × Bool :=
  if r.CSR.VBLANKGenerated then (r, false)
  else ({ r with CSR := { r.CSR with VBLANKGenerated := true } }, !r.IMR.vsync)

def GSRegisters.assertFINISH (r : GSRegisters) : GSRegisters × Bool :=
  if r.CSR.FINISHRequested && !r.CSR.FINISHGenerated then
    ({ r with CSR := { r.CSR with FINISHRequested := false, FINISHGenerated := true } },
      !r.IMR.finish)
  else (r, false)

end DobieStation.Gs.Registers
