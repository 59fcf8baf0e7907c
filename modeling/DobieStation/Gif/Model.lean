import DobieStation.Dma.Model
import DobieStation.Lib.Reach

/-! # The graphics interface

The translation of `gif.cpp`: the three paths to the GS, the queue of those that wait, and the FIFO
of PATH3. The GS is a parameter: it takes commands, and tells whether it stalls and where its bus is
directed. The requests that the GIF makes of the DMA controller are collected in `toDMAC`.

`log` is history that no function reads: the quadwords that PATH3 has been sent, those that have
been fed, and each change of `active_path`. -/

namespace DobieStation.Gif.Model

open DobieStation.Lib.Hoare DobieStation.Lib.Reach
open DobieStation.Dma.Model (Quad Request)

structure GIFtag where
  NLOOP : BitVec 16
  endOfPacket : Bool
  outputPRIM : Bool
  PRIM : BitVec 16
  format : BitVec 8
  regCount : BitVec 8
  regs : BitVec 64
  regsLeft : BitVec 8
  dataLeft : BitVec 32
  deriving DecidableEq, Repr

/-- What the GIF tells the GS. -/
inductive Command where
  | write64 (addr : BitVec 32) (value : BitVec 64)
  | setRGBA (r g b a : BitVec 8) (q : BitVec 32)
  | setST (s t : BitVec 32)
  | setUV (u v : BitVec 16)
  | setXYZ (x y z : BitVec 32) (drawingKick : Bool)
  | setXYZF (x y z : BitVec 32) (fog : BitVec 8) (drawingKick : Bool)
  | setCSRFIFO (value : BitVec 8)
  | assertFINISH
  | wakeThread
  deriving DecidableEq, Repr

/-- The GS, on its state `G`. -/
structure GraphicsSynthesizer (G : Type) where
  exec : Command → G → G
  stalled : G → Bool
  busdir : G → Bool

/-- A path; 0 stands for none of them. -/
inductive Path where
  | PATH0
  | PATH1
  | PATH2
  | PATH3
  deriving DecidableEq, Repr

def Path.index : Path → ℕ
  | .PATH0 => 0
  | .PATH1 => 1
  | .PATH2 => 2
  | .PATH3 => 3

/-- A change of `active_path`: the status of the path that was active, whether it can be
interrupted, and which paths are queued afterwards. -/
structure Handover where
  old : Path
  new : Path
  status : BitVec 8
  intermittent : Bool
  queue : BitVec 8
  deriving DecidableEq, Repr

inductive Event where
  | sent (q : Quad)
  | fed (path : Path) (q : Quad)
  | handover (h : Handover)
  deriving DecidableEq, Repr

/-- A status of 4 is idle, others are the format of the last tag. -/
structure GraphicsInterface (G : Type) where
  gs : G
  toDMAC : List Request
  path : Path → GIFtag
  FIFO : List Quad
  activePath : Path
  outputtingPath : Bool
  pathQueue : BitVec 8
  pathStatus : Path → BitVec 8
  path3VifMasked : Bool
  path3ModeMasked : Bool
  intermittentMode : Bool
  path3DmaRunning : Bool
  gifTemporaryStop : Bool
  internalQ : BitVec 32
  log : List Event

variable {G : Type}

abbrev M (G α : Type) := StateT (GraphicsInterface G) Option α

/-! ### Access to the state -/

/-- A path is in the queue. -/
def GraphicsInterface.queued (g : GraphicsInterface G) (index : Path) : Bool :=
  g.pathQueue.getLsbD index.index

def GraphicsInterface.tag (g : GraphicsInterface G) : GIFtag := g.path g.activePath

def record (e : Event) : M G Unit := modify fun g => { g with log := g.log ++ [e] }

def request (r : Request) : M G Unit := modify fun g => { g with toDMAC := g.toDMAC ++ [r] }

def setActive (new : Path) : M G Unit := modify fun g =>
  { g with
    activePath := new
    log := g.log ++ [.handover ⟨g.activePath, new, g.pathStatus g.activePath, g.intermittentMode,
      g.pathQueue⟩] }

def setQueue (f : BitVec 8 → BitVec 8) : M G Unit :=
  modify fun g => { g with pathQueue := f g.pathQueue }

/-- The tag of the active path is changed. -/
def modifyTag (f : GIFtag → GIFtag) : M G Unit :=
  modify fun g => { g with path := Function.update g.path g.activePath (f g.tag) }

variable (S : GraphicsSynthesizer G)

def issue (c : Command) : M G Unit := modify fun g => { g with gs := S.exec c g.gs }

/-! ### The arbiter -/

def bit (index : Path) : BitVec 8 := BitVec.twoPow 8 index.index

/-- The waiting path with the lowest number becomes active, unless the active one has a lower
number. -/
def arbitratePaths : M G Unit := do
  let g ← get
  match [.PATH1, .PATH2, .PATH3].find? fun newPath => g.queued newPath with
  | none => pure ()
  | some newPath =>
    if g.activePath ≠ .PATH0 ∧ g.activePath.index < newPath.index then pure ()
    else
      setQueue fun queue =>
        (if g.activePath ≠ .PATH0 then queue ||| bit g.activePath else queue) &&& ~~~bit newPath
      setActive newPath
      if newPath = .PATH3 ∧ g.FIFO.length ≤ 8 then request (.set .GIF)

/-- Only a path that is idle can be deactivated. -/
def deactivatePATH (index : Path) : M G Unit := do
  let g ← get
  if g.pathStatus index = 4 then
    setQueue fun queue => queue &&& ~~~bit index
    if g.activePath = index then
      setActive .PATH0
      arbitratePaths
  else if g.activePath = index then issue S (.setCSRFIFO 1)

/-- Whether PATH3 is masked: a mask is on, and PATH3 is idle. -/
def GraphicsInterface.masked (g : GraphicsInterface G) : Bool :=
  (g.path3VifMasked || g.path3ModeMasked) && g.pathStatus .PATH3 == 4

/-- If PATH3 is masked, it is deactivated. -/
def path3Masked (index : Path) : M G Bool := do
  let g ← get
  if index = .PATH3 ∧ g.masked then
    deactivatePATH S .PATH3
    return true
  else return false

/-- PATH3 is between the quadwords of an image and can be interrupted there. -/
def GraphicsInterface.interruptible (g : GraphicsInterface G) : Bool :=
  g.intermittentMode && (g.pathStatus .PATH3 == 2 || g.pathStatus .PATH3 == 3)

def interruptPath3 (index : Path) : M G Bool := do
  let g ← get
  if g.activePath ≠ .PATH3 then return false
  else if index = .PATH3 then return true
  else
    let interrupted ← (if g.interruptible then pure true else path3Masked S .PATH3)
    if interrupted then
      arbitratePaths
      return true
    else return false

def requestPATH (index : Path) (canInterruptPath3 : Bool) : M G Unit := do
  let g ← get
  if g.activePath = .PATH0 ∨ g.activePath = index then
    setActive index
    if index = .PATH3 then
      let masked ← path3Masked S .PATH3
      if masked = false ∨ (← get).FIFO.length ≤ 15 then request (.set .GIF)
  else
    setQueue fun queue => queue ||| bit index
    if canInterruptPath3 then
      let _ ← interruptPath3 S index

def pathActive (index : Path) (canInterruptPath3 : Bool) : M G Bool := do
  if index ≠ .PATH3 ∧ canInterruptPath3 then
    let _ ← interruptPath3 S index
  let g ← get
  return g.activePath = index && !S.stalled g.gs && !g.gifTemporaryStop && !S.busdir g.gs

/-! ### The tags and their data -/

/-- The number of the register that comes next. -/
def nextReg (tag : GIFtag) : BitVec 8 :=
  let offset := (tag.regCount.setWidth 64 - tag.regsLeft.setWidth 64) <<< 2
  ((tag.regs >>> offset.toNat).setWidth 8) &&& 0xF#8

/-- Infinities and NaNs become the largest number. -/
def clampFloat (x : BitVec 32) : BitVec 32 :=
  if x &&& 0x7F800000#32 = 0x7F800000#32 then (x &&& 0x80000000#32) ||| 0x7F7FFFFF#32 else x

def processPACKED (data : Quad) : M G Unit := do
  let data1 := data.extractLsb' 0 64
  let data2 := data.extractLsb' 64 64
  let g ← get
  match (nextReg g.tag).toNat with
  | 0x0 => issue S (.write64 0 data1)
  | 0x1 => issue S (.setRGBA (data1.extractLsb' 0 8) (data1.extractLsb' 32 8)
      (data2.extractLsb' 0 8) (data2.extractLsb' 32 8) g.internalQ)
  | 0x2 =>
    modify fun g =>
      { g with internalQ := clampFloat (data2.extractLsb' 0 32 &&& 0xFFFFFF00#32) }
    issue S (.setST (clampFloat (data1.extractLsb' 0 32 &&& 0xFFFFFF00#32))
      (clampFloat (data1.extractLsb' 32 32 &&& 0xFFFFFF00#32)))
  | 0x3 => issue S (.setUV ((data1.extractLsb' 0 14).setWidth 16)
      ((data1.extractLsb' 32 14).setWidth 16))
  | 0x4 => issue S (.setXYZF ((data1.extractLsb' 0 16).setWidth 32)
      ((data1.extractLsb' 32 16).setWidth 32) ((data2.extractLsb' 4 24).setWidth 32)
      (data2.extractLsb' 36 8) (!data2.getLsbD 47))
  | 0x5 => issue S (.setXYZ ((data1.extractLsb' 0 16).setWidth 32)
      ((data1.extractLsb' 32 16).setWidth 32) (data2.extractLsb' 0 32) (!data2.getLsbD 47))
  | 0xA => issue S (.write64 0xA (data2 <<< 20))
  | 0xE =>
    if data2.extractLsb' 0 8 ≠ 0x7F#8 then
      issue S (.write64 ((data2.extractLsb' 0 8).setWidth 32) data1)
  | 0xF => pure ()
  | reg => issue S (.write64 (BitVec.ofNat 32 reg) data1)

/-- A register has been written; after the last one the next loop begins. -/
def countReg (tag : GIFtag) : GIFtag :=
  if tag.regsLeft - 1 = 0 then
    { tag with regsLeft := tag.regCount, dataLeft := tag.dataLeft - 1 }
  else { tag with regsLeft := tag.regsLeft - 1 }

def registerREGLIST (data : BitVec 64) : M G Unit := do
  let reg := nextReg (← get).tag
  (if reg ≠ 0xE#8 then issue S (.write64 (reg.setWidth 32) data) else pure ())
  modifyTag countReg

/-- If the number of registers is odd, the last 64 bits are discarded. -/
def processREGLIST (data : Quad) : M G Unit := do
  registerREGLIST S (data.extractLsb' 0 64)
  if (← get).tag.dataLeft = 0 then pure ()
  else registerREGLIST S (data.extractLsb' 64 64)

def readTag (tag : GIFtag) (data1 data2 : BitVec 64) : GIFtag :=
  let count := data1.extractLsb' 60 4
  let regCount : BitVec 8 := if count = 0 then 16 else count.setWidth 8
  { tag with
    NLOOP := (data1.extractLsb' 0 15).setWidth 16
    endOfPacket := data1.getLsbD 15
    outputPRIM := data1.getLsbD 46
    PRIM := (data1.extractLsb' 47 11).setWidth 16
    format := (data1.extractLsb' 58 2).setWidth 8
    regCount := regCount
    regs := data2
    regsLeft := regCount
    dataLeft := (data1.extractLsb' 0 15).setWidth 32 }

/-- A tag without data sets nothing but the end of the packet. -/
def feedTag (data : Quad) : M G Unit := do
  modifyTag fun tag => readTag tag (data.extractLsb' 0 64) (data.extractLsb' 64 64)
  modify fun g =>
    { g with
      pathStatus := Function.update g.pathStatus g.activePath g.tag.format
      internalQ := 0x3F800000 }
  let tag := (← get).tag
  if tag.dataLeft ≠ 0 then
    issue S (.setCSRFIFO 2)
    if tag.outputPRIM ∧ tag.format = 0 then issue S (.write64 0 (tag.PRIM.setWidth 64))

def feedData (data : Quad) : M G Unit := do
  match (← get).tag.format.toNat with
  | 0 =>
    processPACKED S data
    modifyTag countReg
  | 1 => processREGLIST S data
  | 2 | 3 =>
    issue S (.write64 0x54 (data.extractLsb' 0 64))
    issue S (.write64 0x54 (data.extractLsb' 64 64))
    modifyTag fun tag => { tag with dataLeft := tag.dataLeft - 1 }
  | _ => pure ()

/-- If no path waits, the output is finished. -/
def finishOutput : M G Unit := do
  if (← get).pathQueue = 0 then
    issue S .assertFINISH
    issue S (.setCSRFIFO 1)
    modify fun g => { g with outputtingPath := false }

/-- The last quadword of a packet has been fed. -/
def endPacket : M G Unit := do
  modify fun g => { g with pathStatus := Function.update g.pathStatus g.activePath 4 }
  finishOutput S
  issue S .wakeThread
  deactivatePATH S (← get).activePath

def feedGIF (data : Quad) : M G Unit := do
  record (.fed (← get).activePath data)
  modify fun g => { g with outputtingPath := true }
  let left := (← get).tag.dataLeft
  (if left = 0 then feedTag S data else feedData S data)
  let tag := (← get).tag
  if tag.dataLeft = 0 ∧ tag.endOfPacket then endPacket S

/-! ### The FIFO of PATH3 -/

def flushPath3FIFO : M G Unit := do
  match (← get).FIFO with
  | [] => failure
  | quad :: _ =>
    feedGIF S quad
    modify fun g => { g with FIFO := g.FIFO.tail }
    let g ← get
    if g.FIFO = [] then
      let idle ← (if g.path3DmaRunning = false then pure true else path3Masked S .PATH3)
      if idle then deactivatePATH S .PATH3 else request (.set .GIF)

/-- The loop of `run`: the conditions are tested in this order. -/
def runLoop : ℕ → M G Unit
  | 0 => do
    if ← pathActive S .PATH3 false then
      let _ ← path3Masked S .PATH3
  | cycles + 1 => do
    if ← pathActive S .PATH3 false then
      if (← path3Masked S .PATH3) = false then
        if (← get).FIFO ≠ [] then
          flushPath3FIFO S
          runLoop cycles

/-- PATH3 is requested if its FIFO can be flushed. -/
def requestFlush : M G Unit := do
  if (← path3Masked S .PATH3) = false then
    if (← get).FIFO ≠ [] then requestPATH S .PATH3 false

def run (cycles : ℕ) : M G Unit := do
  requestFlush S
  runLoop S cycles

def fifoDraining : M G Bool := do
  if (← get).FIFO = [] then return false
  else return !(← path3Masked S .PATH3)

/-- PATH3 is neither active nor waiting. -/
def GraphicsInterface.path3Done (g : GraphicsInterface G) : Bool :=
  !g.queued .PATH3 && g.activePath != .PATH3

/-- A quadword goes to the FIFO. -/
def pushFIFO (data : Quad) : M G Unit := modify fun g => { g with FIFO := g.FIFO ++ [data] }

def claimPATH3 : M G Unit := do
  if (← get).path3Done then requestPATH S .PATH3 false

def sendPATH3 (data : Quad) : M G Unit := do
  record (.sent data)
  claimPATH3 S
  let masked ← path3Masked S .PATH3
  let active ← (if masked then pure false else pathActive S .PATH3 false)
  if active then feedGIF S data
  else if (← get).FIFO.length < 16 then
    pushFIFO data
    if 15 < (← get).FIFO.length then request (.clear .GIF)

/-- A full FIFO drops the quadword. -/
def sendPATH3FIFO (data : Quad) : M G Unit := do
  if (← get).FIFO.length < 16 then
    record (.sent data)
    pushFIFO data

/-! ### The masks and the registers -/

def resumePath3 : M G Unit := do
  let g ← get
  if g.path3VifMasked || g.path3ModeMasked then pure ()
  else if g.FIFO ≠ [] ∧ g.pathStatus .PATH3 = 4 then
    modify fun g => { g with pathStatus := Function.update g.pathStatus .PATH3 0 }
    requestPATH S .PATH3 false

def setPath3Vifmask (value : Bool) : M G Bool := do
  let g ← get
  modify fun g => { g with path3VifMasked := value }
  return g.path3VifMasked && !value

def writeMODE (value : BitVec 32) : M G Unit := do
  let g ← get
  modify fun g => { g with intermittentMode := value.getLsbD 2, path3ModeMasked := value.getLsbD 0 }
  if g.path3ModeMasked && !value.getLsbD 0 then resumePath3 S

def dmaRunning (running : Bool) : M G Unit := modify fun g => { g with path3DmaRunning := running }

/-- What `reset` does not set keeps its value. -/
def reset : M G Unit := do
  modify fun g =>
    { g with
      path := fun index => { g.path index with dataLeft := 0 }
      activePath := .PATH0
      pathQueue := 0
      pathStatus := fun _ => 4
      FIFO := []
      intermittentMode := false
      path3VifMasked := false
      path3ModeMasked := false
      path3DmaRunning := false
      gifTemporaryStop := false
      outputtingPath := false }
  issue S (.setCSRFIFO 1)

def writeCTRL (value : BitVec 32) : M G Unit := do
  (if value.getLsbD 0 then reset S else pure ())
  modify fun g => { g with gifTemporaryStop := value.getLsbD 1 }

/-! ### The callers -/

/-- PATH1 is sent a quadword while it is active (`handle_XGKICK` and the loops around it), which
ends the transfer with the packet. -/
def kickPATH1 (data : Quad) : M G Bool := do
  if ← pathActive S .PATH1 true then
    feedGIF S data
    let tag := (← get).path .PATH1
    return tag.dataLeft == 0 && tag.endOfPacket
  else return false

/-- PATH2 is sent a quadword while it is active (`process_data_word` for DIRECT and DIRECTHL). -/
def directPATH2 (canInterruptPath3 : Bool) (data : Quad) : M G Unit := do
  requestPATH S .PATH2 canInterruptPath3
  if ← pathActive S .PATH2 canInterruptPath3 then feedGIF S data

/-- The turn of `process_GIF`: a quadword is sent if the FIFO takes it. -/
def processGIF (data : Quad) : M G Unit := do
  if (← get).FIFO.length ≠ 16 then
    if (← fifoDraining S) = false then sendPATH3 S data

/-! ### Runs -/

/-- Everything that happens to the GIF. `outside` changes the GS. -/
inductive Act (G : Type) where
  | requestPATH (index : Path) (canInterruptPath3 : Bool)
  | deactivatePATH (index : Path)
  | pathActive (index : Path) (canInterruptPath3 : Bool)
  | kickPATH1 (data : Quad)
  | directPATH2 (canInterruptPath3 : Bool) (data : Quad)
  | processGIF (data : Quad)
  | sendPATH3FIFO (data : Quad)
  | run (cycles : ℕ)
  | dmaRunning (running : Bool)
  | setPath3Vifmask (value : Bool)
  | resumePath3
  | writeMODE (value : BitVec 32)
  | writeCTRL (value : BitVec 32)
  | outside (gs : G)

/-- Only the paths 1 to 3 are requested. A reset starts a new run. -/
def Act.exec : Act G → M G Unit
  | .requestPATH index can => if index = .PATH0 then failure else Model.requestPATH S index can
  | .deactivatePATH index => Model.deactivatePATH S index
  | .pathActive index can => do let _ ← Model.pathActive S index can
  | .kickPATH1 data => do let _ ← Model.kickPATH1 S data
  | .directPATH2 can data => Model.directPATH2 S can data
  | .processGIF data => Model.processGIF S data
  | .sendPATH3FIFO data => Model.sendPATH3FIFO data
  | .run cycles => Model.run S cycles
  | .dmaRunning running => Model.dmaRunning running
  | .setPath3Vifmask value => do let _ ← Model.setPath3Vifmask value
  | .resumePath3 => Model.resumePath3 S
  | .writeMODE value => Model.writeMODE S value
  | .writeCTRL value => if value.getLsbD 0 then failure else Model.writeCTRL S value
  | .outside gs => modify fun g => { g with gs := gs }

def Step (g : GraphicsInterface G) (a : Act G) (g' : GraphicsInterface G) : Prop :=
  (a.exec S).run g = some ((), g')

/-- The GIF has been reset. -/
def Init (g : GraphicsInterface G) : Prop := g.log = [] ∧ ∃ g₀, (reset S).run g₀ = some ((), g)

/-- The state after a step. -/
def next (g : GraphicsInterface G) (a : Act G) : Option (GraphicsInterface G) :=
  ((a.exec S).run g).map Prod.snd

variable {S}

/-- A list of steps leads to a reachable state. -/
theorem reaches_of_acts {g g' : GraphicsInterface G} {as : List (Act G)} (h0 : Init S g)
    (h : as.foldlM (next S) g = some g') : Reaches (Init S) (Step S) g' := by
  have hstart : Reaches (Init S) (Step S) g := Reaches.start h0
  exact hstart.programs h

/-! A GIF to run: its GS takes everything. -/

def silentGS : GraphicsSynthesizer Unit where
  exec _ _ := ()
  stalled _ := false
  busdir _ := false

def blankTag : GIFtag := ⟨0, false, false, 0, 0, 0, 0, 0, 0⟩

def powerOn : GraphicsInterface Unit where
  gs := ()
  toDMAC := []
  path _ := blankTag
  FIFO := []
  activePath := .PATH0
  outputtingPath := false
  pathQueue := 0
  pathStatus _ := 4
  path3VifMasked := false
  path3ModeMasked := false
  intermittentMode := false
  path3DmaRunning := false
  gifTemporaryStop := false
  internalQ := 0
  log := []

theorem init_powerOn : Init silentGS powerOn := ⟨rfl, powerOn, rfl⟩

end DobieStation.Gif.Model
