import DobieStation.Dma.Outside
import DobieStation.Iop.Arbiter

/-! # The two DMA controllers and the SIF between them

The EE's controller runs on a world that holds the IOP's side of the SIF (`Side`) besides its other
peripherals: its handlers for SIF0 and SIF1 call the SIF (`withSif`), and what the IOP's side asks
of it comes as requests. A step of the machine is one of either controller. Only the SIF changes
the requests of the channels `IOP_SIF0` and `IOP_SIF1`. -/

namespace DobieStation.Sif.Machine

open DobieStation.Lib.Hoare DobieStation.Lib.Reach
open DobieStation.Dma.Model (Memory Quad Reply Request State)
open DobieStation.Dma.Outside (isControl)
open DobieStation.Iop.Model (Act Chan IOP_SIF0 IOP_SIF1 Side Word)

variable {E F V : Type}

/-- The IOP's side of the SIF, and the other peripherals of the EE. -/
abbrev World (E F : Type) := Side E × F

def other {α : Type} (f : F → Reply F α) (w : World E F) : Reply (World E F) α :=
  let r := f w.2
  ⟨r.value, (w.1, r.world), r.requests⟩

/-- The IOP's side after a call of the SIF, with the requests it makes. -/
def fromSif {α : Type} (value : α) (s : Side E) (w : F) : Reply (World E F) α :=
  ⟨value, ({ s with toEE := [] }, w), s.toEE⟩

/-- The EE's handler reads no more words than the FIFO holds. -/
def readSIF0 (w : World E F) : Reply (World E F) Word :=
  match w.1.readSIF0 with
  | some (value, s) => fromSif value s w.2
  | none => ⟨0, w, []⟩

def withSif (Q : Dma.Model.Peripherals F V) : Dma.Model.Peripherals (World E F) V where
  vuRead := Q.vuRead
  vuWrite := Q.vuWrite
  vif0FeedDMA q := other (Q.vif0FeedDMA q)
  vif0TransferDMAtag q := other (Q.vif0TransferDMAtag q)
  vif1FeedDMA q := other (Q.vif1FeedDMA q)
  vif1TransferDMAtag q := other (Q.vif1TransferDMAtag q)
  vif1ReadFIFO := other Q.vif1ReadFIFO
  gifDmaRunning b w := (w.1, Q.gifDmaRunning b w.2)
  gifDeactivatePATH3 := other Q.gifDeactivatePATH3
  gifFifoFull w := Q.gifFifoFull w.2
  gifFifoDraining w := Q.gifFifoDraining w.2
  gifSendPATH3 q := other (Q.gifSendPATH3 q)
  ipuCanReadFIFO w := Q.ipuCanReadFIFO w.2
  ipuReadFIFO := other Q.ipuReadFIFO
  ipuCanWriteFIFO w := Q.ipuCanWriteFIFO w.2
  ipuWriteFIFO q := other (Q.ipuWriteFIFO q)
  sifGetSIF0Size w := w.1.sif.SIF0_FIFO.length
  sifReadSIF0 := readSIF0
  sifWriteSIF1 q w := fromSif () (w.1.writeSIF1 q) w.2

/-- A step of the EE's controller, a change of the EE's memory and other peripherals by the rest of
the machine, or a step of the IOP's controller. -/
inductive Input (E F V : Type) where
  | ee (a : Dma.Model.Action (World E F) V)
  | memory (mem : Memory V) (w : F)
  | iop (a : Act E)

/-- Whether the step asks for a change of a request that belongs to the SIF. -/
def asksSif : Act E → Bool
  | .setDMARequest i | .clearDMARequest i => i = IOP_SIF0 || i = IOP_SIF1
  | _ => false

variable (P : Iop.Model.Peripherals E) (Q : Dma.Model.Peripherals F V)

/-- A step of the IOP's controller, and what it asks of the EE's. -/
def iopStep (a : Act E) : Dma.Model.M (World E F) V Unit := do
  match (a.exec P).run (← get).world.1 with
  | none => failure
  | some (_, side) =>
    modify fun s => { s with world := ({ side with toEE := [] }, s.world.2) }
    side.toEE.forM Request.apply

def Input.exec : Input E F V → Dma.Model.M (World E F) V Unit
  | .ee (.outside _ _) => failure
  | .ee a => a.exec (withSif Q)
  | .memory mem w => modify fun s => { s with mem := mem, world := (s.world.1, w) }
  | .iop a => if asksSif a then failure else iopStep P a

def Step (s : State (World E F) V) (i : Input E F V) (s' : State (World E F) V) : Prop :=
  (i.exec P Q).run s = some ((), s')

def Init (s : State (World E F) V) : Prop := Dma.Model.Init s ∧ Iop.Model.Init s.world.1

/-- The state after a step. -/
def next (s : State (World E F) V) (i : Input E F V) : Option (State (World E F) V) :=
  ((i.exec P Q).run s).map Prod.snd

variable {P Q}

theorem exec_control {a : Dma.Model.Action (World E F) V} (h : isControl a = true) :
    (Input.ee a).exec P Q = a.exec (withSif Q) := by
  cases a with
  | outside => exact absurd h Bool.false_ne_true
  | _ => rfl

/-- A list of steps leads to a reachable state. -/
theorem reaches_of_inputs {s s' : State (World E F) V} {is : List (Input E F V)} (h0 : Init s)
    (h : is.foldlM (next P Q) s = some s') : Reaches Init (Step P Q) s' := by
  have hstart : Reaches Init (Step P Q) s := Reaches.start h0
  exact hstart.programs h

/-- Both controllers after their resets, with memories to run on. -/
def powerOn (ram : Iop.Model.Ram) (rdram : BitVec 32 → Quad) : State (World Unit Unit) Unit where
  dmac := Dma.Model.reset Dma.Model.blank
  mem := ⟨rdram, fun _ => 0, ()⟩
  world := (Iop.Model.powerOn ram, ())
  int1 := false
  trace := []

theorem init_powerOn (ram : Iop.Model.Ram) (rdram : BitVec 32 → Quad) :
    Init (powerOn ram rdram) :=
  ⟨⟨⟨_, rfl⟩, rfl⟩, Iop.Model.init_powerOn ram⟩

end DobieStation.Sif.Machine
