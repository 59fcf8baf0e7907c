import DobieStation.GsThread.Context
import DobieStation.Lib.Hoare

/-! # Vertices

The registers of `gsthread.cpp` that make up a vertex, and the queue in which the vertices of a primitive
wait. A vertex that is sent and a primitive that is rendered are recorded in `log`, which no function
reads. Numbers in floating point are kept as their bits. -/

namespace DobieStation.GsThread

/-- The colours have 16 bits because of overflows. -/
structure RGBAQReg where
  r : BitVec 16
  g : BitVec 16
  b : BitVec 16
  a : BitVec 16
  q : BitVec 32
  deriving DecidableEq, Repr

structure STReg where
  s : BitVec 32
  t : BitVec 32
  deriving DecidableEq, Repr

structure UVReg where
  u : BitVec 16
  v : BitVec 16
  deriving DecidableEq, Repr

structure Vertex where
  x : BitVec 32
  y : BitVec 32
  z : BitVec 32
  rgbaq : RGBAQReg
  uv : UVReg
  s : BitVec 32
  t : BitVec 32
  fog : BitVec 8
  deriving DecidableEq, Repr

/-- `render` is a call of `render_primitive`. -/
inductive VertexEvent where
  | prim (primType : BitVec 8)
  | vertex (vtx : Vertex) (drawingKick : Bool)
  | render (primType : BitVec 8) (vtxQueue : Vector Vertex 3)
  deriving DecidableEq, Repr

structure VertexUnit where
  primType : BitVec 8
  RGBAQ : RGBAQReg
  ST : STReg
  UV : UVReg
  FOG : BitVec 16
  currentVtx : Vertex
  vtxQueue : Vector Vertex 3
  numVertices : ℕ
  log : List VertexEvent
  deriving DecidableEq, Repr

namespace Vertices

abbrev M := StateT VertexUnit Option

def record (e : VertexEvent) : M Unit := modify fun u => { u with log := u.log ++ [e] }

def setCount (n : ℕ) : M Unit := modify fun u => { u with numVertices := n }

/-- The first vertices of the queue are moved up, the last one first. There is no place 3. -/
def moveUp : ℕ → Vector Vertex 3 → Option (Vector Vertex 3)
  | 0, queue => some queue
  | i + 1, queue => if h : i + 1 < 3 then moveUp i (queue.set (i + 1) queue[i]) else none

def renderPrimitive : M Unit := do
  let u ← get
  record (.render u.primType u.vtxQueue)

/-- The vertex that is sent has the colour, the texture coordinates and the fog of the registers. -/
def sentVtx (u : VertexUnit) : Vertex :=
  { u.currentVtx with
    rgbaq := u.RGBAQ
    uv := u.UV
    s := u.ST.s
    t := u.ST.t
    fog := u.FOG.setWidth 8 }

/-- A primitive of `n` vertices is complete; `rest` of them are left. -/
def complete (n rest : ℕ) : M Bool := do
  if (← get).numVertices = n then
    setCount rest
    return true
  else return false

/-- All the triangles of a fan have the first vertex in common. -/
def triangleFan (drawingKick : Bool) : M Bool := do
  if ← complete 3 2 then
    (if drawingKick then renderPrimitive else pure ())
    modify fun u => { u with vtxQueue := u.vtxQueue.set 1 u.vtxQueue[2] }
  return false

/-- The vertex that is sent is the first of the queue. -/
def enqueue (drawingKick : Bool) : M Unit := do
  let u ← get
  let queue ← moveUp u.numVertices u.vtxQueue
  let vtx := sentVtx u
  set { u with
    currentVtx := vtx
    vtxQueue := queue.set 0 vtx
    numVertices := u.numVertices + 1 }
  record (.vertex vtx drawingKick)

def vertexKick (drawingKick : Bool) : M Unit := do
  enqueue drawingKick
  let u ← get
  let requestDrawKick ← match u.primType.toNat with
    | 0 => do
      modify fun u => { u with numVertices := u.numVertices - 1 }
      pure true
    | 1 => complete 2 0
    | 2 => complete 2 1
    | 3 => complete 3 0
    | 4 => complete 3 2
    | 5 => triangleFan drawingKick
    | 6 => complete 2 0
    | _ => failure
  if drawingKick && requestDrawKick then renderPrimitive

/-! ### The registers -/

def setXYZ (x y z : BitVec 32) (drawingKick : Bool) : M Unit := do
  modify fun u => { u with currentVtx := { u.currentVtx with x := x, y := y, z := z } }
  vertexKick drawingKick

def setXYZF (x y z : BitVec 32) (fog : BitVec 8) (drawingKick : Bool) : M Unit := do
  modify fun u => { u with currentVtx := { u.currentVtx with x := x, y := y, z := z }, FOG := fog.setWidth 16 }
  vertexKick drawingKick

def setRGBA (r g b a : BitVec 8) (q : BitVec 32) : M Unit := modify fun u =>
  { u with RGBAQ := ⟨r.setWidth 16, g.setWidth 16, b.setWidth 16, a.setWidth 16, q⟩ }

def setST (s t : BitVec 32) : M Unit := modify fun u => { u with ST := ⟨s, t⟩ }

def setUV (u v : BitVec 16) : M Unit := modify fun unit => { unit with UV := ⟨u, v⟩ }

/-- A new primitive has no vertices. -/
def writePRIM (value : BitVec 64) : M Unit := do
  let primType : BitVec 8 := (value.extractLsb' 0 3).setWidth 8
  modify fun u => { u with primType := primType, numVertices := 0 }
  record (.prim primType)

/-- The registers that have to do with vertices. -/
def write64 (addr : BitVec 32) (value : BitVec 64) : M Unit :=
  match (addr &&& 0x7F#32).toNat with
  | 0x00 => writePRIM value
  | 0x01 | 0x11 => setRGBA (value.extractLsb' 0 8) (value.extractLsb' 8 8) (value.extractLsb' 16 8)
      (value.extractLsb' 24 8) (value.extractLsb' 32 32 &&& 0xFFFFFF00#32)
  | 0x02 => setST (value.extractLsb' 0 32 &&& 0xFFFFFF00#32) (value.extractLsb' 32 32 &&& 0xFFFFFF00#32)
  | 0x03 => setUV (value.extractLsb' 0 16 &&& 0x3FFF#16) (value.extractLsb' 16 16 &&& 0x3FFF#16)
  | 0x04 => setXYZF ((value.extractLsb' 0 16).setWidth 32) ((value.extractLsb' 16 16).setWidth 32)
      ((value.extractLsb' 32 24).setWidth 32) (value.extractLsb' 56 8) true
  | 0x05 => setXYZ ((value.extractLsb' 0 16).setWidth 32) ((value.extractLsb' 16 16).setWidth 32)
      (value.extractLsb' 32 32) true
  | 0x0A => modify fun u => { u with FOG := (value.extractLsb' 56 8).setWidth 16 }
  | 0x0C => setXYZF ((value.extractLsb' 0 16).setWidth 32) ((value.extractLsb' 16 16).setWidth 32)
      ((value.extractLsb' 32 24).setWidth 32) (value.extractLsb' 56 8) false
  | 0x0D => setXYZ ((value.extractLsb' 0 16).setWidth 32) ((value.extractLsb' 16 16).setWidth 32)
      (value.extractLsb' 32 32) false
  | _ => pure ()

/-- The messages to the thread that have to do with vertices. -/
inductive Act where
  | write64 (addr : BitVec 32) (value : BitVec 64)
  | setRGBA (r g b a : BitVec 8) (q : BitVec 32)
  | setST (s t : BitVec 32)
  | setUV (u v : BitVec 16)
  | setXYZ (x y z : BitVec 32) (drawingKick : Bool)
  | setXYZF (x y z : BitVec 32) (fog : BitVec 8) (drawingKick : Bool)
  deriving DecidableEq, Repr

def Act.exec : Act → M Unit
  | .write64 addr value => Vertices.write64 addr value
  | .setRGBA r g b a q => Vertices.setRGBA r g b a q
  | .setST s t => Vertices.setST s t
  | .setUV u v => Vertices.setUV u v
  | .setXYZ x y z drawingKick => Vertices.setXYZ x y z drawingKick
  | .setXYZF x y z fog drawingKick => Vertices.setXYZF x y z fog drawingKick

end Vertices

end DobieStation.GsThread
