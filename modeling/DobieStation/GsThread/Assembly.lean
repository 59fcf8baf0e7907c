import DobieStation.GsThread.Vertices

/-! # The assembly of primitives

The vertices after a write to PRIM are decomposed in the standard way (`corners`): the queue holds the
vertices that later primitives need (`Holds`), so the primitive that a vertex completes is rendered from
its own vertices. -/

namespace DobieStation.GsThread.Vertices

open DobieStation.Lib.Hoare

/-! ### The standard decomposition -/

/-- The vertices of the primitive that vertex `n` completes, the newest first. -/
def corners (primType : BitVec 8) (n : ℕ) : Option (List ℕ) :=
  match primType.toNat with
  | 0 => some [n]
  | 1 | 6 => if n % 2 = 1 then some [n, n - 1] else none
  | 2 => if 1 ≤ n then some [n, n - 1] else none
  | 3 => if n % 3 = 2 then some [n, n - 1, n - 2] else none
  | 4 => if 2 ≤ n then some [n, n - 1, n - 2] else none
  | 5 => if 2 ≤ n then some [n, n - 1, 0] else none
  | _ => none

/-- A vertex, and whether it may complete a primitive that is drawn. -/
structure Kick where
  vtx : Vertex
  drawingKick : Bool
  deriving DecidableEq, Repr

/-- What is seen of an event: of the queue, the vertices of the primitive. -/
inductive View where
  | prim (primType : BitVec 8)
  | vertex (kick : Kick)
  | render (primType : BitVec 8) (vertices : List Vertex)
  deriving DecidableEq, Repr

/-- How many vertices a primitive has. -/
def size (primType : BitVec 8) : ℕ :=
  match primType.toNat with
  | 0 => 1
  | 1 | 2 | 6 => 2
  | _ => 3

def VertexEvent.view : VertexEvent → View
  | .prim primType => .prim primType
  | .vertex vtx drawingKick => .vertex ⟨vtx, drawingKick⟩
  | .render primType vtxQueue => .render primType (vtxQueue.toList.take (size primType))

def vertexAt (kicks : List Kick) (i : ℕ) : Option Vertex := (kicks[i]?).map Kick.vtx

/-- What the last of the vertices does. -/
def completed (primType : BitVec 8) (kicks : List Kick) (kick : Kick) : List View :=
  match corners primType kicks.length with
  | some is =>
    if kick.drawingKick then [.render primType (is.filterMap (vertexAt (kicks ++ [kick])))] else []
  | none => []

/-- The events from the write to PRIM on. -/
inductive Decomposes (primType : BitVec 8) : List Kick → List View → Prop where
  | start : Decomposes primType [] [.prim primType]
  | vertex {kicks : List Kick} {views : List View} (kick : Kick) (h : Decomposes primType kicks views) :
    Decomposes primType (kicks ++ [kick]) (views ++ .vertex kick :: completed primType kicks kick)

/-! ### The vertices that wait -/

/-- The vertices in the queue after `n` of them, the newest first. -/
def waiting (primType : BitVec 8) (n : ℕ) : List ℕ :=
  match primType.toNat with
  | 1 | 6 => if n % 2 = 1 then [n - 1] else []
  | 2 => if 1 ≤ n then [n - 1] else []
  | 3 => if n % 3 = 0 then [] else if n % 3 = 1 then [n - 1] else [n - 1, n - 2]
  | 4 => if n = 0 then [] else if n = 1 then [0] else [n - 1, n - 2]
  | 5 => if n = 0 then [] else if n = 1 then [0] else [n - 1, 0]
  | _ => []

/-- How many vertices are left when a primitive is complete. -/
def rest (primType : BitVec 8) : ℕ :=
  match primType.toNat with
  | 2 => 1
  | 4 | 5 => 2
  | _ => 0

theorem vector_three (queue : Vector Vertex 3) : ∃ v₀ v₁ v₂, queue = #v[v₀, v₁, v₂] := by
  obtain ⟨⟨vs⟩, hsize⟩ := queue
  match vs, hsize with
  | [v₀, v₁, v₂], _ => exact ⟨v₀, v₁, v₂, rfl⟩

/-- The vertex that is sent comes before those that wait. -/
theorem moveUp_run {m : ℕ} (hm : m ≤ 2) (queue : Vector Vertex 3) (vtx : Vertex) : ∃ queue',
    moveUp m queue = some queue' ∧ (queue'.set 0 vtx).toList.take (m + 1) = vtx :: queue.toList.take m := by
  obtain ⟨v₀, v₁, v₂, rfl⟩ := vector_three queue
  have hcases : m = 0 ∨ m = 1 ∨ m = 2 := by omega
  rcases hcases with rfl | rfl | rfl
  · exact ⟨#v[v₀, v₁, v₂], rfl, rfl⟩
  · exact ⟨#v[v₀, v₀, v₂], rfl, rfl⟩
  · exact ⟨#v[v₀, v₀, v₁], rfl, rfl⟩

/-- What is left of the vertices of a complete primitive: of a fan, the first and the last one. -/
def keep {α : Type} (primType : BitVec 8) (vertices : List α) : List α :=
  match primType.toNat with
  | 2 => vertices.take 1
  | 4 => vertices.take 2
  | 5 => vertices.eraseIdx 1
  | _ => []

/-- The vertices that wait in the queue. -/
def held (u : VertexUnit) : List Vertex := u.vtxQueue.toList.take u.numVertices

/-- The queue after these vertices. -/
structure Assembled (t : BitVec 8) (kicks : List Kick) (u : VertexUnit) : Prop where
  primType : u.primType = t
  room : u.numVertices < size t
  held : (waiting t kicks.length).map (vertexAt kicks) = (Vertices.held u).map some

variable {t : BitVec 8} {kicks : List Kick} {u u' : VertexUnit}

/-- A message that sends a vertex, and whether with a drawing kick. -/
def Act.drawingKick : Act → Option Bool
  | .write64 addr _ =>
    match (addr &&& 0x7F#32).toNat with
    | 0x04 | 0x05 => some true
    | 0x0C | 0x0D => some false
    | _ => none
  | .setXYZ _ _ _ drawingKick | .setXYZF _ _ _ _ drawingKick => some drawingKick
  | _ => none

/-- Vertices with these drawing kicks have been sent, and what was rendered is what they complete. -/
def Sends (t : BitVec 8) (kicks : List Kick) (u : VertexUnit) (drawingKicks : List Bool)
    (result : Option (Unit × VertexUnit)) : Prop :=
  ∃ u' events more, result = some ((), u') ∧ Assembled t (kicks ++ more) u' ∧ u'.log = u.log ++ events ∧
    more.map Kick.drawingKick = drawingKicks ∧
    ∀ views, Decomposes t kicks views → Decomposes t (kicks ++ more) (views ++ events.map VertexEvent.view)

/-- The registers of a vertex do not matter. -/
theorem Assembled.registers (h : Assembled t kicks u) (htype : u'.primType = u.primType)
    (hcount : u'.numVertices = u.numVertices) (hqueue : u'.vtxQueue = u.vtxQueue) : Assembled t kicks u' := by
  refine ⟨htype.trans h.primType, hcount ▸ h.room, ?_⟩
  rw [h.held]
  unfold Vertices.held
  rw [hqueue, hcount]

def blankVertex : Vertex := ⟨0, 0, 0, ⟨0, 0, 0, 0, 0⟩, ⟨0, 0⟩, 0, 0, 0⟩

def blankUnit : VertexUnit where
  primType := 0
  RGBAQ := ⟨0, 0, 0, 0, 0⟩
  ST := ⟨0, 0⟩
  UV := ⟨0, 0⟩
  FOG := 0
  currentVtx := blankVertex
  vtxQueue := Vector.replicate 3 blankVertex
  numVertices := 0
  log := []

end DobieStation.GsThread.Vertices
