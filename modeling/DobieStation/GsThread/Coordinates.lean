import DobieStation.GsThread.Rasterizer

/-! # The coordinates of the vertices

A vertex that waits in the queue, and so a vertex of a primitive that is rendered, has coordinates of 16
bits: the registers and the packets of the GIF have no more. -/

namespace DobieStation.GsThread.Vertices

open DobieStation.Lib.Hoare

def Short (v : Vertex) : Prop := v.x.toNat < 2 ^ 16 ∧ v.y.toNat < 2 ^ 16

/-- The rasterizer takes vertices of this kind. -/
def Short.sent {v : Vertex} (h : Short v) : SentVertex := { v with x_lt := h.1, y_lt := h.2 }

/-- The vertices of a primitive that is rendered. -/
def ShortEvent : VertexEvent → Prop
  | .render _ queue => ∀ v ∈ queue, Short v
  | _ => True

structure ShortUnit (u : VertexUnit) : Prop where
  current : Short u.currentVtx
  queue : ∀ v ∈ u.vtxQueue, Short v
  log : ∀ e ∈ u.log, ShortEvent e

/-- A message of the GIF, which has masked the coordinates. -/
def Act.Short : Act → Prop
  | .setXYZ x y _ _ => x.toNat < 2 ^ 16 ∧ y.toNat < 2 ^ 16
  | .setXYZF x y _ _ _ => x.toNat < 2 ^ 16 ∧ y.toNat < 2 ^ 16
  | _ => True

/-- A step that keeps the coordinates short. -/
def KeepsShort {α : Type} (m : M α) : Prop := ∀ u, ShortUnit u → Ensures m u fun _ u' => ShortUnit u'

variable {α β : Type} {u : VertexUnit}

theorem keepsShort_pure (a : α) : KeepsShort (pure a : M α) := fun _ hu => ensures_pure.mpr hu

theorem keepsShort_bind {m : M α} {f : α → M β} (hm : KeepsShort m) (hf : ∀ a, KeepsShort (f a)) :
    KeepsShort (m >>= f) := fun u hu =>
  ensures_bind.mpr ((hm u hu).mono fun a u' hu' => hf a u' hu')

/-- The registers other than the vertices. -/
theorem keepsShort_modify {f : VertexUnit → VertexUnit} (hcur : ∀ u, (f u).currentVtx = u.currentVtx)
    (hqueue : ∀ u, (f u).vtxQueue = u.vtxQueue) (hlog : ∀ u, (f u).log = u.log) :
    KeepsShort (modify f : M Unit) := fun u hu => ensures_modify.mpr
  ⟨(hcur u).symm ▸ hu.current, (hqueue u).symm ▸ hu.queue, (hlog u).symm ▸ hu.log⟩

theorem ShortUnit.record (hu : ShortUnit u) {e : VertexEvent} (he : ShortEvent e) :
    ShortUnit { u with log := u.log ++ [e] } := by
  refine ⟨hu.current, hu.queue, fun e' he' => ?_⟩
  rcases List.mem_append.mp he' with h | h
  · exact hu.log e' h
  · rw [List.mem_singleton.mp h]
    exact he

theorem keepsShort_setCount (n : ℕ) : KeepsShort (setCount n) :=
  keepsShort_modify (fun _ => rfl) (fun _ => rfl) (fun _ => rfl)

theorem keepsShort_renderPrimitive : KeepsShort renderPrimitive := fun _ hu =>
  ensures_bind.mpr (ensures_get.mpr (ensures_modify.mpr (hu.record hu.queue)))

theorem keepsShort_complete (n rest : ℕ) : KeepsShort (complete n rest) := by
  intro u hu
  refine ensures_bind.mpr (ensures_get.mpr (ensures_ite.mpr ⟨fun _ => ?_, fun _ => ensures_pure.mpr hu⟩))
  exact keepsShort_bind (keepsShort_setCount rest) (fun _ => keepsShort_pure true) u hu

theorem forall_set {queue : Vector Vertex 3} (h : ∀ v ∈ queue, Short v) {v : Vertex} (hv : Short v)
    {i : ℕ} (hi : i < 3) : ∀ w ∈ queue.set i v, Short w := by
  intro w hw
  rcases Vector.mem_or_eq_of_mem_set hw with hmem | rfl
  · exact h w hmem
  · exact hv

theorem moveUp_short {n : ℕ} {queue queue' : Vector Vertex 3} (h : ∀ v ∈ queue, Short v)
    (hm : moveUp n queue = some queue') : ∀ v ∈ queue', Short v := by
  induction n generalizing queue with
  | zero =>
    obtain rfl := Option.some.inj hm
    exact h
  | succ i ih =>
    unfold moveUp at hm
    split at hm
    · exact ih (forall_set h (h _ (Vector.getElem_mem _)) _) hm
    · cases hm

theorem keepsShort_triangleFan (drawingKick : Bool) : KeepsShort (triangleFan drawingKick) := by
  refine keepsShort_bind (keepsShort_complete 3 2) fun full => ?_
  cases full with
  | false => exact keepsShort_pure false
  | true =>
    refine keepsShort_bind ?_ fun _ => keepsShort_bind (fun u hu => ensures_modify.mpr ?_)
      fun _ => keepsShort_pure false
    · cases drawingKick with
      | false => exact keepsShort_pure ()
      | true => exact keepsShort_renderPrimitive
    · exact ⟨hu.current, forall_set hu.queue (hu.queue _ (Vector.getElem_mem _)) (by decide), hu.log⟩

theorem keepsShort_enqueue (drawingKick : Bool) : KeepsShort (enqueue drawingKick) := by
  intro u hu
  refine ensures_bind.mpr (ensures_get.mpr (ensures_bind.mpr ?_))
  rintro queue u' hrun
  obtain ⟨hqueue, rfl⟩ : moveUp u.numVertices u.vtxQueue = some queue ∧ u = u' := by
    cases hm : moveUp u.numVertices u.vtxQueue with
    | none => simp [hm] at hrun
    | some q => simpa [hm] using hrun
  have hsent : Short (sentVtx u) := hu.current
  refine ensures_bind.mpr (ensures_set.mpr (ensures_modify.mpr (ShortUnit.record ?_ trivial)))
  exact ⟨hsent, forall_set (moveUp_short hu.queue hqueue) hsent (by decide), hu.log⟩

theorem keepsShort_vertexKick (drawingKick : Bool) : KeepsShort (vertexKick drawingKick) := by
  have hrender : ∀ full : Bool,
      KeepsShort (if (drawingKick && full) = true then renderPrimitive else pure ()) := by
    intro full
    split
    · exact keepsShort_renderPrimitive
    · exact keepsShort_pure ()
  refine keepsShort_bind (keepsShort_enqueue drawingKick) fun _ u hu =>
    ensures_bind.mpr (ensures_get.mpr ?_)
  dsimp only
  split
  · refine keepsShort_bind ?_ (fun _ => keepsShort_bind (keepsShort_pure true) hrender) u hu
    exact keepsShort_modify (fun _ => rfl) (fun _ => rfl) fun _ => rfl
  · exact keepsShort_bind (keepsShort_complete 2 0) hrender u hu
  · exact keepsShort_bind (keepsShort_complete 2 1) hrender u hu
  · exact keepsShort_bind (keepsShort_complete 3 0) hrender u hu
  · exact keepsShort_bind (keepsShort_complete 3 2) hrender u hu
  · exact keepsShort_bind (keepsShort_triangleFan drawingKick) hrender u hu
  · exact keepsShort_bind (keepsShort_complete 2 0) hrender u hu
  · exact keepsShort_bind (fun _ _ => ensures_failure.mpr trivial) hrender u hu

theorem keepsShort_setXYZ {x y : BitVec 32} (hx : x.toNat < 2 ^ 16) (hy : y.toNat < 2 ^ 16) (z : BitVec 32)
    (drawingKick : Bool) : KeepsShort (setXYZ x y z drawingKick) :=
  keepsShort_bind (fun _ hu => ensures_modify.mpr ⟨⟨hx, hy⟩, hu.queue, hu.log⟩)
    fun _ => keepsShort_vertexKick drawingKick

theorem keepsShort_setXYZF {x y : BitVec 32} (hx : x.toNat < 2 ^ 16) (hy : y.toNat < 2 ^ 16) (z : BitVec 32)
    (fog : BitVec 8) (drawingKick : Bool) : KeepsShort (setXYZF x y z fog drawingKick) :=
  keepsShort_bind (fun _ hu => ensures_modify.mpr ⟨⟨hx, hy⟩, hu.queue, hu.log⟩)
    fun _ => keepsShort_vertexKick drawingKick

/-- A field of 16 bits. -/
theorem setWidth_lt (v : BitVec 16) : (v.setWidth 32).toNat < 2 ^ 16 := by
  rw [BitVec.toNat_setWidth]
  exact Nat.lt_of_le_of_lt (Nat.mod_le _ _) v.isLt

theorem keepsShort_write64 (addr : BitVec 32) (value : BitVec 64) : KeepsShort (write64 addr value) := by
  have hset : ∀ f : VertexUnit → VertexUnit, (∀ u, (f u).currentVtx = u.currentVtx) →
      (∀ u, (f u).vtxQueue = u.vtxQueue) → (∀ u, (f u).log = u.log) → KeepsShort (modify f : M Unit) :=
    fun _ => keepsShort_modify
  unfold write64
  split
  · exact keepsShort_bind (hset _ (fun _ => rfl) (fun _ => rfl) fun _ => rfl)
      fun _ u hu => ensures_modify.mpr (hu.record trivial)
  · exact hset _ (fun _ => rfl) (fun _ => rfl) fun _ => rfl
  · exact hset _ (fun _ => rfl) (fun _ => rfl) fun _ => rfl
  · exact hset _ (fun _ => rfl) (fun _ => rfl) fun _ => rfl
  · exact hset _ (fun _ => rfl) (fun _ => rfl) fun _ => rfl
  · exact keepsShort_setXYZF (setWidth_lt _) (setWidth_lt _) _ _ _
  · exact keepsShort_setXYZ (setWidth_lt _) (setWidth_lt _) _ _
  · exact hset _ (fun _ => rfl) (fun _ => rfl) fun _ => rfl
  · exact keepsShort_setXYZF (setWidth_lt _) (setWidth_lt _) _ _ _
  · exact keepsShort_setXYZ (setWidth_lt _) (setWidth_lt _) _ _
  · exact keepsShort_pure ()

theorem keepsShort_exec {a : Act} (ha : a.Short) : KeepsShort a.exec := by
  cases a with
  | write64 addr value => exact keepsShort_write64 addr value
  | setRGBA r g b a q => exact keepsShort_modify (fun _ => rfl) (fun _ => rfl) fun _ => rfl
  | setST s t => exact keepsShort_modify (fun _ => rfl) (fun _ => rfl) fun _ => rfl
  | setUV u v => exact keepsShort_modify (fun _ => rfl) (fun _ => rfl) fun _ => rfl
  | setXYZ x y z drawingKick => exact keepsShort_setXYZ ha.1 ha.2 z drawingKick
  | setXYZF x y z fog drawingKick => exact keepsShort_setXYZF ha.1 ha.2 z fog drawingKick

/-- In a run, only vertices with short coordinates are rendered. -/
theorem keepsShort_run (as : List Act) (has : ∀ a ∈ as, a.Short) : KeepsShort (as.forM Act.exec) := by
  induction as with
  | nil => exact keepsShort_pure ()
  | cons a as ih =>
    show KeepsShort (a.exec >>= fun _ => as.forM Act.exec)
    exact keepsShort_bind (keepsShort_exec (has a List.mem_cons_self)) fun _ =>
      ih fun a' ha' => has a' (List.mem_cons_of_mem _ ha')

/-- The vertices of a primitive are vertices the rasterizer takes. -/
theorem rendered_sent (hu : ShortUnit u) (as : List Act) (has : ∀ a ∈ as, a.Short) {u' : VertexUnit}
    (hrun : (as.forM Act.exec).run u = some ((), u')) {primType : BitVec 8} {queue : Vector Vertex 3}
    (he : .render primType queue ∈ u'.log) : ∀ v ∈ queue, ∃ s : SentVertex, s.toVertex = v := by
  have hshort := (keepsShort_run as has u hu () u' hrun).log _ he
  exact fun v hv => ⟨(hshort v hv).sent, rfl⟩

end DobieStation.GsThread.Vertices
