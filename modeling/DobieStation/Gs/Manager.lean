import DobieStation.Gs.Registers

/-! # The manager of the Graphics Synthesizer

`GraphicsSynthesizer` runs on the main thread. Each operation sends a message to the GS thread, which
repeats the operation on its own copy of the registers when it gets to it, and is then applied to the
copy here, where the interrupts come from. -/

namespace DobieStation.Gs.Manager

open DobieStation.Gs.Registers

/-- The messages that concern the registers. -/
inductive Message where
  | write64 (addr : BitVec 32) (value : BitVec 64)
  | write64Privileged (addr : BitVec 32) (value : BitVec 64)
  | write32Privileged (addr : BitVec 32) (value : BitVec 32)
  | setCrt (interlaced : Bool) (mode : BitVec 8) (frameMode : Bool)
  | assertFinish
  | assertHblank
  | assertVsync
  | swapField
  | requestLocalHostTx
  deriving DecidableEq, Repr

structure GraphicsSynthesizer where
  reg : GSRegisters
  /-- How often `Interrupt::GS` was asserted. -/
  irqs : ℕ
  deriving DecidableEq, Repr

namespace GraphicsSynthesizer

variable (gs : GraphicsSynthesizer)

def assertIRQ : GraphicsSynthesizer := { gs with irqs := gs.irqs + 1 }

def withReg (reg : GSRegisters) : GraphicsSynthesizer := { gs with reg }

/-- Takes the registers and the interrupt of an assert. -/
def asserted (r : GSRegisters × Bool) : GraphicsSynthesizer :=
  if r.2 then (gs.withReg r.1).assertIRQ else gs.withReg r.1

/-- "We need a check for SIGNAL here so that we can fire the interrupt as soon as possible". -/
def checkSIGNAL : GraphicsSynthesizer :=
  if gs.reg.CSR.SIGNALGenerated && !gs.reg.CSR.SIGNALStall then
    if !gs.reg.IMR.signal then gs.assertIRQ
    else gs.withReg { gs.reg with CSR := { gs.reg.CSR with SIGNALIrqPending := true } }
  else gs

def write64 (addr : BitVec 32) (value : BitVec 64) : GraphicsSynthesizer :=
  let gs := gs.withReg ((gs.reg.write64 addr value).getD gs.reg)
  if addr = 0x60 then gs.checkSIGNAL else gs

/-- "When SIGNAL is written to twice, the interrupt will not be processed until IMR.signal is flipped
from 1 to 0." -/
def checkIMR (oldIMR : Bool) : GraphicsSynthesizer :=
  if oldIMR && !gs.reg.IMR.signal && gs.reg.CSR.SIGNALIrqPending then
    (gs.withReg { gs.reg with CSR := { gs.reg.CSR with SIGNALIrqPending := false } }).assertIRQ
  else gs

def write64Privileged (addr : BitVec 32) (value : BitVec 64) : Option GraphicsSynthesizer :=
  (gs.reg.write64Privileged addr value).map fun reg =>
    (gs.withReg reg).checkIMR gs.reg.IMR.signal

def write32Privileged (addr value : BitVec 32) : Option GraphicsSynthesizer :=
  (gs.reg.write32Privileged addr value).map fun reg =>
    (gs.withReg reg).checkIMR gs.reg.IMR.signal

end GraphicsSynthesizer

/-! ### Operations -/

inductive Operation where
  | write64 (addr : BitVec 32) (value : BitVec 64)
  | write64Privileged (addr : BitVec 32) (value : BitVec 64)
  | write32Privileged (addr : BitVec 32) (value : BitVec 32)
  | setCRT (interlaced : Bool) (mode : BitVec 8) (frameMode : Bool)
  | assertFINISH
  | assertHBLANK
  | assertVSYNC
  | swapCSRField
  deriving DecidableEq, Repr

/-- A write to BUSDIR that turns the bus around requests a download. -/
def requestsDownload (addr : BitVec 32) (nonzero : Bool) (r : GSRegisters) : Bool :=
  addr = 0x12001040 && r.BUSDIR = 0 && nonzero

/-- What an operation sends. -/
def messages (r : GSRegisters) : Operation → List Message
  | .write64 addr value => [.write64 addr value]
  | .write64Privileged addr value =>
    if requestsDownload addr (value ≠ 0) r then [.write64Privileged addr value, .requestLocalHostTx]
    else [.write64Privileged addr value]
  | .write32Privileged addr value =>
    if requestsDownload addr (value ≠ 0) r then [.write32Privileged addr value, .requestLocalHostTx]
    else [.write32Privileged addr value]
  | .setCRT interlaced mode frameMode => [.setCrt interlaced mode frameMode]
  | .assertFINISH => [.assertFinish]
  | .assertHBLANK => [.assertHblank]
  | .assertVSYNC => [.assertVsync]
  | .swapCSRField => [.swapField]

def perform (gs : GraphicsSynthesizer) : Operation → Option GraphicsSynthesizer
  | .write64 addr value => some (gs.write64 addr value)
  | .write64Privileged addr value => gs.write64Privileged addr value
  | .write32Privileged addr value => gs.write32Privileged addr value
  | .setCRT interlaced mode frameMode => some (gs.withReg (gs.reg.setCRT interlaced mode frameMode))
  | .assertFINISH => some (gs.asserted gs.reg.assertFINISH)
  | .assertHBLANK => some (gs.asserted gs.reg.assertHBLANK)
  | .assertVSYNC => some (gs.asserted gs.reg.assertVSYNC)
  | .swapCSRField => some (gs.withReg gs.reg.swapFIELD)

/-! ### The GS thread -/

/-- `soft_reset` as far as the registers are concerned. -/
def softResetAt (addr : BitVec 32) (bit : Bool) (r : GSRegisters) : GSRegisters :=
  if addr = 0x12001000 ∧ bit then r.reset true else r

/-- One message in `event_loop`. -/
def handle (r : GSRegisters) : Message → Option GSRegisters
  | .write64 addr value => some ((r.write64 addr value).getD r)
  | .write64Privileged addr value =>
    (r.write64Privileged addr value).map (softResetAt addr (value.getLsbD 9))
  | .write32Privileged addr value =>
    (r.write32Privileged addr value).map (softResetAt addr (value.getLsbD 9))
  | .setCrt interlaced mode frameMode => some (r.setCRT interlaced mode frameMode)
  | .assertFinish => some r.assertFINISH.1
  | .assertHblank => some r.assertHBLANK.1
  | .assertVsync => some r.assertVSYNC.1
  | .swapField => some r.swapFIELD
  | .requestLocalHostTx => some r

end DobieStation.Gs.Manager
