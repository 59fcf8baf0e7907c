import DobieStation.GsThread.Vertices
import DobieStation.Lib.Grid

/-! # Points, lines and sprites

The positions `render_point`, `render_line` and `render_sprite` of `gsthread.cpp` pass to `draw_pixel`, in
the order of the calls. The colour of a pixel has no part in its position and is left out. -/

namespace DobieStation.GsThread

open Grid

/-- A register or a packet has 16 bits for a coordinate, of which 4 are a fraction. -/
structure SentVertex extends Vertex where
  x_lt : x.toNat < 2 ^ 16
  y_lt : y.toNat < 2 ^ 16

/-- No coordinate of these leaves the range of `int32_t`, nor does a difference of two. -/
structure RelVertex where
  x : ℤ
  y : ℤ
  z : BitVec 32
  deriving DecidableEq, Repr

def SentVertex.toRelative (v : SentVertex) (xyoffset : XYOFFSET) : RelVertex where
  x := v.x.toNat - xyoffset.x.toNat
  y := v.y.toNat - xyoffset.y.toNat
  z := v.z

/-- Exchanges the coordinates. -/
def RelVertex.swap (v : RelVertex) : RelVertex := { v with x := v.y, y := v.x }

/-- A call of `draw_pixel`. -/
structure Draw where
  x : ℤ
  y : ℤ
  z : BitVec 32
  deriving DecidableEq, Repr

def Draw.swap (d : Draw) : Draw := { d with x := d.y, y := d.x }

/-- The pixel that is drawn. -/
def Draw.pixel (d : Draw) : ℤ × ℤ := (d.x >>> (4 : ℕ), d.y >>> (4 : ℕ))

namespace Rasterizer

/-- The result is an `int64_t`; the caller's type may be narrower. -/
def interpolate (x u1 x1 u2 x2 : ℤ) : ℤ :=
  if x2 - x1 = 0 then u1 else (u1 * (x2 - x) + u2 * (x - x1)).tdiv (x2 - x1)

/-- `edge` is the first coordinate of the scissor. -/
def minBound (a b : ℤ) (edge : ℕ) : ℤ := ((max (min a b) edge + 8) >>> (4 : ℕ)) <<< (4 : ℕ)

/-- `edge` is the last coordinate of the scissor. -/
def maxBound (a b : ℤ) (edge : ℕ) : ℤ := ((min (max a b) (edge + 0x10) + 8) >>> (4 : ℕ)) <<< (4 : ℕ)

variable (c : GSContext)

def renderPoint (vtx0 : SentVertex) : List Draw :=
  let v1 := vtx0.toRelative c.xyoffset
  if v1.x < c.scissor.x1 ∨ v1.x > c.scissor.x2 ∨ v1.y < c.scissor.y1 ∨ v1.y > c.scissor.y2 then []
  else [{ x := v1.x, y := v1.y, z := v1.z }]

def isSteep (v1 v2 : RelVertex) : Bool := (v2.x - v1.x).natAbs < (v2.y - v1.y).natAbs

/-- The vertices of a line from the left to the right. -/
def leftToRight (v1 v2 : RelVertex) : RelVertex × RelVertex := if v1.x > v2.x then (v2, v1) else (v1, v2)

/-- A column of a line. -/
def lineDraw (v1 v2 : RelVertex) (x : ℤ) : Draw where
  x := x
  y := (BitVec.ofInt 32 (interpolate x v1.y v1.x v2.y v2.x)).toInt
  z := BitVec.ofInt 32 (interpolate x v1.z.toNat v1.x v2.z.toNat v2.x)

def lineLoop (v1 v2 : RelVertex) (minX maxX : ℤ) : List Draw :=
  (steps 0x10 minX maxX).map (lineDraw (leftToRight v1 v2).1 (leftToRight v1 v2).2)

/-- A steep line is transposed, and so are the pixels it is made of. -/
def renderLine (vtx1 vtx0 : SentVertex) : List Draw :=
  let v1 := vtx1.toRelative c.xyoffset
  let v2 := vtx0.toRelative c.xyoffset
  let minY := minBound v1.y v2.y c.scissor.y1
  let minX := minBound v1.x v2.x c.scissor.x1
  let maxY := maxBound v1.y v2.y c.scissor.y2
  let maxX := maxBound v1.x v2.x c.scissor.x2
  if isSteep v1 v2 then (lineLoop v1.swap v2.swap minY maxY).map Draw.swap else lineLoop v1 v2 minX maxX

def renderSprite (vtx1 vtx0 : SentVertex) : List Draw :=
  let v1 := vtx1.toRelative c.xyoffset
  let v2 := vtx0.toRelative c.xyoffset
  let minY := minBound v1.y v2.y c.scissor.y1
  let minX := minBound v1.x v2.x c.scissor.x1
  let maxY := maxBound v1.y v2.y c.scissor.y2
  let maxX := maxBound v1.x v2.x c.scissor.x2
  (steps 0x10 minY maxY).flatMap fun y =>
    (steps 0x10 minX maxX).map fun x => { x := x, y := y, z := v2.z }

end Rasterizer

end DobieStation.GsThread
