import DobieStation.Gif.Arbiter
import DobieStation.Gif.Stream
import DobieStation.Lib.Serial

/-! # The saved state of the GIF

`GraphicsInterface` in `serialize.cpp`. Neither function has `path_status`, which a reset makes idle
for all paths: a path that was in a packet when the state was saved can be deactivated after it was
loaded. -/

namespace DobieStation.SaveState.Gif

open DobieStation.Lib.Serial DobieStation.Lib.Reach DobieStation.Lib.Hoare
open DobieStation.Dma.Model (Quad)
open DobieStation.Gif.Model DobieStation.Gif.Feed

variable {G : Type} {S : GraphicsSynthesizer G} {g g' r : GraphicsInterface G}

/-! ### The two functions -/

instance : Inhabited GIFtag := ⟨blankTag⟩

instance : Image GIFtag :=
  Image.ofLeftInverse
    (fun t : GIFtag => (t.NLOOP, t.endOfPacket, t.outputPRIM, t.PRIM, t.format, t.regCount, t.regs,
      t.regsLeft, t.dataLeft))
    (fun ⟨NLOOP, endOfPacket, outputPRIM, PRIM, format, regCount, regs, regsLeft, dataLeft⟩ =>
      ⟨NLOOP, endOfPacket, outputPRIM, PRIM, format, regCount, regs, regsLeft, dataLeft⟩)
    fun _ => rfl

def allPaths : List Path := [.PATH0, .PATH1, .PATH2, .PATH3]

theorem mem_allPaths (p : Path) : p ∈ allPaths := by cases p <;> decide

instance : Image (Path → GIFtag) := Image.array allPaths mem_allPaths

/-- A path as a byte. -/
def byteOf (p : Path) : BitVec 8 := BitVec.ofNat 8 p.index

def pathAt (byte : BitVec 8) : Option Path := allPaths.find? fun p => byteOf p = byte

theorem pathAt_byteOf (p : Path) : pathAt (byteOf p) = some p := by cases p <;> decide

/-- The array in between holds 16 quadwords, as many as the FIFO. -/
def save_state (g : GraphicsInterface G) : File :=
  writeLength g.FIFO.length ++ writeAll g.FIFO ++ write g.path ++
  write (byteOf g.activePath) ++ write g.pathQueue ++ write g.path3VifMasked ++
  write g.internalQ ++ write g.path3DmaRunning ++ write g.intermittentMode ++
  write g.outputtingPath ++ write g.path3ModeMasked ++ write g.gifTemporaryStop

def load_state (g : GraphicsInterface G) : Load (GraphicsInterface G) := do
  let size ← readLength
  let quads ← readAll size
  let path ← read
  let active : BitVec 8 ← read
  let activePath ← (pathAt active : Option Path)
  let pathQueue ← read
  let path3VifMasked ← read
  let internalQ ← read
  let path3DmaRunning ← read
  let intermittentMode ← read
  let outputtingPath ← read
  let path3ModeMasked ← read
  let gifTemporaryStop ← read
  return { g with
    path, activePath, pathQueue, path3VifMasked, internalQ, path3DmaRunning, intermittentMode,
    outputtingPath, path3ModeMasked, gifTemporaryStop
    FIFO := g.FIFO ++ quads }

/-- The state that is loaded after a reset, with the GS, the requests and the history of `g`. -/
def restored (r g : GraphicsInterface G) : GraphicsInterface G := { g with pathStatus := r.pathStatus }

theorem load_save (hr : r.FIFO = []) (hlen : g.FIFO.length ≤ 16) (rest : File) :
    (load_state r).run (save_state g ++ rest) =
      some ({ restored r g with gs := r.gs, toDMAC := r.toDMAC, log := r.log }, rest) := by
  unfold load_state save_state
  simp only [List.append_assoc]
  rw [run_readLength_bind _ (by omega), run_readAll_bind]
  simp only [run_read_bind, pathAt_byteOf, run_some_bind, hr, List.nil_append]
  rfl

/-- A reset leaves nothing in the FIFO and all paths idle. -/
theorem reset_spec : Ensures (reset S) g fun _ g' => g'.FIFO = [] ∧ ∀ p, g'.pathStatus p = 4 := by
  rw [reset, ensures_bind, ensures_modify, issue, ensures_modify]
  exact ⟨rfl, fun _ => rfl⟩

/-! ### No quadword is fed while no path is active -/

/-- The same path is active, and only its status changes. -/
structure Elsewhere (g g' : GraphicsInterface G) : Prop where
  activePath : g'.activePath = g.activePath
  pathStatus : ∀ p, p ≠ g.activePath → g'.pathStatus p = g.pathStatus p

theorem elsewhere_allows :
    Allows (Elsewhere : GraphicsInterface G → GraphicsInterface G → Prop) where
  refl _ := ⟨rfl, fun _ _ => rfl⟩
  trans _ _ _ h h' := ⟨h'.activePath.trans h.activePath, fun p hp =>
    (h'.pathStatus p (h.activePath ▸ hp)).trans (h.pathStatus p hp)⟩
  issue _ _ := ⟨rfl, fun _ _ => rfl⟩
  tag _ _ := ⟨rfl, fun _ _ => rfl⟩
  internalQ _ _ := ⟨rfl, fun _ _ => rfl⟩

theorem elsewhere_update (g : GraphicsInterface G) (status : BitVec 8) :
    Elsewhere g { g with pathStatus := Function.update g.pathStatus g.activePath status } :=
  ⟨rfl, fun _ hp => Function.update_of_ne hp _ _⟩

/-- A path that is not active keeps its status. -/
theorem feedGIF_status (data : Quad) : Ensures (feedGIF S data) g fun _ g' =>
    ∀ p, p ≠ g.activePath → g'.pathStatus p = g.pathStatus p := by
  have he := elsewhere_allows (G := G)
  have hfinish : Within Elsewhere (finishOutput S) := by
    refine he.bind he.get fun _ => within_ite (fun _ => ?_) fun _ => he.pure _
    exact he.bind (he.command _) fun _ => he.bind (he.command _) fun _ =>
      within_modify fun _ => ⟨rfl, fun _ _ => rfl⟩
  have hfeed (left : BitVec 32) :
      Within Elsewhere (if left = 0 then feedTag S data else feedData S data) :=
    within_ite (fun _ => he.feedTag elsewhere_update data) fun _ => he.feedData data
  simp only [feedGIF, record, ensures_bind, ensures_get, ensures_modify]
  refine (hfeed _ _).mono fun _ g₁ h₁ => ?_
  have h₁ : Elsewhere g g₁ := ⟨h₁.activePath, h₁.pathStatus⟩
  rw [ensures_ite]
  refine ⟨fun _ => ?_, fun _ => ensures_pure.mpr h₁.pathStatus⟩
  simp only [endPacket, issue, ensures_bind, ensures_modify, ensures_get]
  refine (hfinish _).mono fun _ g₂ h₂ => ?_
  have h₂ := he.trans _ _ _ h₁ (he.trans _ _ _ (elsewhere_update g₁ 4) h₂)
  refine (Gif.Stream.deactivatePATH_quiet _ _).mono fun _ g₃ h₃ p hp => ?_
  rw [h₃.pathStatus]
  exact h₂.pathStatus p hp

/-- No path has the number 0, and nothing is fed under it. -/
def Unfed (g : GraphicsInterface G) : Prop := g.pathStatus .PATH0 = 4

def KeepsUnfed (g g' : GraphicsInterface G) : Prop := Unfed g → Unfed g'

theorem keeps_bind {α β : Type} {m : M G α} {f : α → M G β} (hm : Within KeepsUnfed m)
    (hf : ∀ a, Within KeepsUnfed (f a)) : Within KeepsUnfed (m >>= f) :=
  within_bind (fun _ _ _ h h' hg => h' (h hg)) hm hf

theorem keeps_quiet {α : Type} {m : M G α} (h : Within Gif.Stream.Quiet m) :
    Within KeepsUnfed m := h.mono fun _ _ hq hg => by rwa [Unfed, hq.pathStatus]

theorem keeps_status {f : GraphicsInterface G → GraphicsInterface G}
    (hf : ∀ g, (f g).pathStatus .PATH0 = g.pathStatus .PATH0) :
    Within KeepsUnfed (modify f : M G Unit) :=
  within_modify fun g hg => by rwa [Unfed, hf]

theorem keeps_pure {α : Type} (a : α) : Within KeepsUnfed (pure a : M G α) :=
  within_pure (fun _ => id) a

theorem keeps_get : Within KeepsUnfed (get : M G (GraphicsInterface G)) := within_get fun _ => id

/-- A quadword is fed after a test that a path is active. -/
theorem keeps_feed {α : Type} {test : M G Bool} {m m' : M G α} {p : Path}
    (htest : ∀ g, Ensures test g fun active g' =>
      Gif.Stream.Quiet g g' ∧ (active = true → g'.activePath = p))
    (hm : ∀ g, g.activePath = p → Ensures m g fun _ g' => KeepsUnfed g g')
    (hm' : Within KeepsUnfed m') : Within KeepsUnfed (test >>= fun b => if b then m else m') := by
  intro g
  rw [ensures_bind]
  refine (htest g).mono fun active g' hg' => ?_
  have hg : KeepsUnfed g g' := fun h => by rwa [Unfed, hg'.1.pathStatus]
  rw [ensures_ite]
  refine ⟨fun ha => (hm g' (hg'.2 ha)).mono fun _ _ h hu => h (hg hu), fun _ => ?_⟩
  exact (hm' g').mono fun _ _ h hu => h (hg hu)

theorem feedGIF_keeps (data : Quad) (ha : g.activePath ≠ .PATH0) :
    Ensures (feedGIF S data) g fun _ g' => KeepsUnfed g g' :=
  (feedGIF_status data).mono fun _ _ h hu => (h _ ha.symm).trans hu

theorem ensures_bind_keeps {α β : Type} {m : M G α} {f : α → M G β}
    (hm : Ensures m g fun _ g' => KeepsUnfed g g') (hf : ∀ a, Within KeepsUnfed (f a)) :
    Ensures (m >>= f) g fun _ g' => KeepsUnfed g g' := by
  rw [ensures_bind]
  exact hm.mono fun a g₁ h₁ => (hf a g₁).mono fun _ _ h₂ hu => h₂ (h₁ hu)

section
open Gif.Stream (path3Masked_quiet path3Masked_spec deactivatePATH_quiet requestPATH_quiet
  request_quiet quiet_pure pathActive_quiet pathActive_spec)

theorem keeps_masked : Within KeepsUnfed (path3Masked S .PATH3) := keeps_quiet path3Masked_quiet

theorem flushPath3FIFO_keeps (ha : g.activePath = .PATH3) :
    Ensures (flushPath3FIFO S) g fun _ g' => KeepsUnfed g g' := by
  have hne : g.activePath ≠ .PATH0 := by
    rw [ha]
    decide
  unfold flushPath3FIFO
  rw [ensures_bind, ensures_get]
  split
  · exact ensures_failure.mpr trivial
  · refine ensures_bind_keeps (feedGIF_keeps _ hne) fun _ =>
      keeps_bind (keeps_status fun _ => rfl) fun _ => keeps_bind keeps_get fun _ =>
        within_ite (fun _ => ?_) fun _ => keeps_pure _
    refine keeps_bind (within_ite (fun _ => keeps_pure _) fun _ => keeps_masked) fun _ => ?_
    exact within_ite (fun _ => keeps_quiet (deactivatePATH_quiet _)) fun _ =>
      keeps_quiet (request_quiet _)

theorem runLoop_keeps (cycles : ℕ) : Within KeepsUnfed (runLoop S cycles) := by
  induction cycles with
  | zero =>
    refine keeps_bind (keeps_quiet (pathActive_quiet _ _)) fun _ => within_ite (fun _ => ?_)
      fun _ => keeps_pure _
    exact keeps_bind keeps_masked fun _ => keeps_pure _
  | succ cycles ih =>
    refine keeps_feed (pathActive_spec .PATH3 false) (fun g ha => ?_) (keeps_pure _)
    rw [ensures_bind]
    refine (path3Masked_spec g).mono fun masked g₁ hg₁ => ?_
    rw [ensures_ite]
    refine ⟨fun hm => ?_, fun _ => ensures_pure.mpr fun hu => ?_⟩
    · obtain rfl := hg₁.2.2 hm
      rw [ensures_bind, ensures_get, ensures_ite]
      exact ⟨fun _ => ensures_bind_keeps (flushPath3FIFO_keeps ha) fun _ => ih,
        fun _ => ensures_pure.mpr id⟩
    · rwa [Unfed, hg₁.2.1.pathStatus]

theorem sendPATH3_keeps (data : Quad) : Within KeepsUnfed (sendPATH3 S data) := by
  have hclaim : Within KeepsUnfed (claimPATH3 S) :=
    keeps_bind keeps_get fun _ =>
      within_ite (fun _ => keeps_quiet (requestPATH_quiet _ _)) fun _ => keeps_pure _
  refine keeps_bind (keeps_status fun _ => rfl) fun _ => keeps_bind hclaim fun _ =>
    keeps_bind keeps_masked fun masked => keeps_feed (p := .PATH3) ?_ ?_ ?_
  · intro g
    rw [ensures_ite]
    refine ⟨fun _ => ensures_pure.mpr ⟨Gif.Stream.quiet_refl g, fun h => ?_⟩,
      fun _ => pathActive_spec .PATH3 false g⟩
    exact absurd h Bool.false_ne_true
  · intro g ha
    exact feedGIF_keeps data (by rw [ha]; decide)
  · refine keeps_bind keeps_get fun _ => within_ite (fun _ => ?_) fun _ => keeps_pure _
    refine keeps_bind (keeps_status fun _ => rfl) fun _ => keeps_bind keeps_get fun _ => ?_
    exact within_ite (fun _ => keeps_quiet (request_quiet _)) fun _ => keeps_pure _

theorem resumePath3_keeps : Within KeepsUnfed (resumePath3 S) := by
  refine keeps_bind keeps_get fun _ => within_ite (fun _ => keeps_pure _) fun _ =>
    within_ite (fun _ => ?_) fun _ => keeps_pure _
  refine keeps_bind (keeps_status fun g => ?_) fun _ => keeps_quiet (requestPATH_quiet _ _)
  have hne : Path.PATH0 ≠ .PATH3 := by decide
  dsimp only
  rw [Function.update_of_ne hne]

theorem exec_keeps (a : Act G) : Within KeepsUnfed (a.exec S) := by
  have hreq (index : Path) (can : Bool) : Within KeepsUnfed (requestPATH S index can) :=
    keeps_quiet (requestPATH_quiet index can)
  cases a with
  | requestPATH index can => exact within_ite (fun _ => within_failure) fun _ => hreq index can
  | deactivatePATH index => exact keeps_quiet (deactivatePATH_quiet index)
  | pathActive index can =>
    exact keeps_bind (keeps_quiet (pathActive_quiet index can)) fun _ => keeps_pure _
  | kickPATH1 data =>
    refine keeps_bind (keeps_feed (pathActive_spec .PATH1 true) (fun g ha => ?_) (keeps_pure _))
      fun _ => keeps_pure _
    have hne : g.activePath ≠ .PATH0 := by
      rw [ha]
      decide
    exact ensures_bind_keeps (feedGIF_keeps data hne) fun _ =>
      keeps_bind keeps_get fun _ => keeps_pure _
  | directPATH2 can data =>
    refine keeps_bind (hreq .PATH2 can) fun _ =>
      keeps_feed (p := .PATH2) (pathActive_spec .PATH2 can)
        (fun g ha => ?_) (keeps_pure _)
    have hne : g.activePath ≠ .PATH0 := by
      rw [ha]
      decide
    exact feedGIF_keeps data hne
  | processGIF data =>
    have hdrain : Within KeepsUnfed (fifoDraining S) :=
      keeps_bind keeps_get fun _ => within_ite (fun _ => keeps_pure _) fun _ =>
        keeps_bind keeps_masked fun _ => keeps_pure _
    refine keeps_bind keeps_get fun _ => within_ite (fun _ => ?_) fun _ => keeps_pure _
    exact keeps_bind hdrain fun _ => within_ite (fun _ => sendPATH3_keeps data) fun _ => keeps_pure _
  | sendPATH3FIFO data =>
    refine keeps_bind keeps_get fun _ => within_ite (fun _ => ?_) fun _ => keeps_pure _
    exact keeps_bind (keeps_status fun _ => rfl) fun _ => keeps_status fun _ => rfl
  | run cycles =>
    refine keeps_bind (keeps_bind keeps_masked fun _ => ?_) fun _ => runLoop_keeps cycles
    refine within_ite (fun _ => ?_) fun _ => keeps_pure _
    exact keeps_bind keeps_get fun _ => within_ite (fun _ => hreq _ _) fun _ => keeps_pure _
  | dmaRunning running => exact keeps_status fun _ => rfl
  | setPath3Vifmask value =>
    refine keeps_bind (keeps_bind keeps_get fun _ => ?_) fun _ => keeps_pure _
    exact keeps_bind (keeps_status fun _ => rfl) fun _ => keeps_pure _
  | resumePath3 => exact resumePath3_keeps
  | writeMODE value =>
    refine keeps_bind keeps_get fun _ => keeps_bind (keeps_status fun _ => rfl) fun _ => ?_
    exact within_ite (fun _ => resumePath3_keeps) fun _ => keeps_pure _
  | writeCTRL value =>
    refine within_ite (fun _ => within_failure) fun hr => ?_
    refine keeps_bind (within_ite (fun h => absurd h hr) fun _ => keeps_pure _) fun _ => ?_
    exact keeps_status fun _ => rfl
  | outside gs =>
    have houtside : Within KeepsUnfed (modify fun g => { g with gs := gs } : M G Unit) :=
      keeps_status fun _ => rfl
    exact houtside

end

theorem reaches_unfed (h : Reaches (Init S) (Step S) g) : Unfed g := by
  refine Reaches.invariant (I := fun g => Unfed g) ?_
    (fun _ a _ hg hs => exec_keeps a _ () _ hs hg) h
  rintro g ⟨-, g₀, hreset⟩
  exact (reset_spec _ _ hreset).2 .PATH0

/-! ### What others see -/

section
open Gif.Arbiter

/-- The GS, the requests, and what `get_active_path` and `get_path_queue` return. -/
def seen (g : GraphicsInterface G) : G × List Dma.Model.Request × Path × BitVec 8 :=
  (g.gs, g.toDMAC, g.activePath, g.pathQueue)

/-- What was saved of `g` is loaded after the reset that has left `r`, and goes on as `g`. -/
def RoundTrip (S : GraphicsSynthesizer G) (r g : GraphicsInterface G) (rest : File) : Prop :=
  ∃ g', (load_state r).run (save_state g ++ rest) = some (g', rest) ∧
    ∀ as : List (Act G),
      (as.foldlM (next S) { g' with gs := g.gs, toDMAC := g.toDMAC, log := g.log }).map seen =
        (as.foldlM (next S) g).map seen

theorem arbitratePaths_ends : Ends (arbitratePaths : M G Unit) := by
  refine ends_bind ends_get fun g => ?_
  split
  · exact ends_pure _
  · refine ends_ite (ends_pure _) (ends_bind (ends_modify _) fun _ => ends_bind (ends_modify _)
      fun _ => ends_ite (ends_modify _) (ends_pure _))

theorem deactivatePATH_ends (p : Path) : Ends (deactivatePATH S p) := by
  refine ends_bind ends_get fun g => ends_ite (ends_bind (ends_modify _) fun _ => ends_ite ?_
    (ends_pure _)) (ends_ite (ends_modify _) (ends_pure _))
  exact ends_bind (ends_modify _) fun _ => arbitratePaths_ends

theorem requestPATH_ends (p : Path) : Ends (requestPATH S p false) := by
  have hmasked : Ends (path3Masked S .PATH3) :=
    ends_bind ends_get fun _ => ends_ite (ends_bind (deactivatePATH_ends _) fun _ => ends_pure _)
      (ends_pure _)
  refine ends_bind ends_get fun g => ends_ite (ends_bind (ends_modify _) fun _ => ends_ite ?_
    (ends_pure _)) (ends_bind (ends_modify _) fun _ => ends_pure _)
  exact ends_bind hmasked fun _ => ends_bind ends_get fun _ =>
    ends_ite (ends_modify _) (ends_pure _)

/-- A path in a packet cannot be deactivated. -/
theorem deactivatePATH_busy {p : Path} (h : g.pathStatus p ≠ 4) :
    Ensures (deactivatePATH S p) g fun _ g' => ∀ i, Asks g' i ↔ Asks g i := by
  unfold deactivatePATH
  rw [ensures_bind, ensures_get, if_neg h, ensures_ite, issue, ensures_modify]
  exact ⟨fun _ _ => Iff.rfl, fun _ => ensures_pure.mpr fun _ => Iff.rfl⟩

/-- A path in a packet asks when it was requested. -/
theorem requestPATH_busy {p : Path} (hp : p ≠ .PATH0) (h : g.pathStatus p ≠ 4) :
    Ensures (requestPATH S p false) g fun _ g' => Asks g' p := by
  unfold requestPATH
  rw [ensures_bind, ensures_get, ensures_ite]
  refine ⟨fun _ => ?_, fun _ => ?_⟩
  · rw [ensures_bind, setActive, ensures_modify, ensures_ite]
    refine ⟨fun h3 => ?_, fun _ => ensures_pure.mpr ⟨hp, Or.inr rfl⟩⟩
    subst h3
    rw [ensures_bind]
    refine (Gif.Stream.path3Masked_spec _).mono fun masked g₁ hg₁ => ?_
    have hmasked : masked = false := by
      rw [hg₁.1]
      simp only [GraphicsInterface.masked, Bool.and_eq_false_iff, beq_eq_false_iff_ne]
      exact Or.inr h
    rw [hg₁.2.2 hmasked, ensures_bind, ensures_get, ensures_ite, request, ensures_modify,
      ensures_pure]
    exact ⟨fun _ => ⟨hp, Or.inr rfl⟩, fun _ => ⟨hp, Or.inr rfl⟩⟩
  · rw [ensures_bind, setQueue, ensures_modify, ensures_ite]
    refine ⟨fun hf => absurd hf Bool.false_ne_true, fun _ => ensures_pure.mpr ⟨hp, Or.inl ?_⟩⟩
    unfold GraphicsInterface.queued
    dsimp only
    rw [BitVec.getLsbD_or, bit_getLsbD, decide_eq_true rfl, Bool.or_true]

/-- What is seen of a state decides which paths ask. -/
theorem asks_of_seen (h : seen g = seen g') (p : Path) : Asks g p ↔ Asks g' p := by
  unfold seen at h
  simp only [Prod.mk.injEq] at h
  unfold Asks GraphicsInterface.queued
  rw [h.2.2.1, h.2.2.2]

/-- The path is requested and deactivated. -/
def requestDeactivate (p : Path) : List (Act G) := [.requestPATH p false, .deactivatePATH p]

theorem requestDeactivate_run {p : Path} (hp : p ≠ .PATH0) : ∃ g₁ g₂,
    (requestPATH S p false).run g = some ((), g₁) ∧
    (deactivatePATH S p).run g₁ = some ((), g₂) ∧
    (requestDeactivate p).foldlM (next S) g = some g₂ := by
  obtain ⟨⟨⟨⟩, g₁⟩, h₁⟩ := requestPATH_ends (S := S) p g
  obtain ⟨⟨⟨⟩, g₂⟩, h₂⟩ := deactivatePATH_ends (S := S) p g₁
  have hexec : (Act.requestPATH p false : Act G).exec S = requestPATH S p false := if_neg hp
  refine ⟨g₁, g₂, h₁, h₂, ?_⟩
  rw [requestDeactivate, List.foldlM_cons, next, hexec, h₁]
  change List.foldlM (next S) g₁ [.deactivatePATH p] = _
  rw [List.foldlM_cons, next, Act.exec, h₂]
  rfl

/-- **The GIF is restored exactly if no path is in a packet.** -/
theorem gif_restored_iff (h : Reaches (Init S) (Step S) g) {g₀ : GraphicsInterface G}
    (hr : (reset S).run g₀ = some ((), r)) (rest : File) :
    RoundTrip S r g rest ↔ ∀ p, g.pathStatus p = 4 := by
  obtain ⟨hfifo, hidle⟩ := reset_spec _ _ hr
  have hload := load_save hfifo (Gif.Stream.path3_stream h).2 rest
  constructor
  · rintro ⟨g', hg', hruns⟩ p
    rw [hload, Option.some.injEq, Prod.mk.injEq] at hg'
    obtain ⟨rfl, -⟩ := hg'
    by_contra hbusy
    have hp : p ≠ .PATH0 := by
      rintro rfl
      exact hbusy (reaches_unfed h)
    -- the original's path goes on asking, the restored one's does not
    obtain ⟨g₁, g₂, h₁, h₂, hrun⟩ := requestDeactivate_run (S := S) (g := g) hp
    obtain ⟨r₁, r₂, h₁', h₂', hrun'⟩ := requestDeactivate_run (S := S) (g := restored r g) hp
    have hasks : Asks g₂ p := by
      have hbusy₁ : g₁.pathStatus p ≠ 4 := by
        rwa [(Gif.Stream.requestPATH_quiet p false _ _ _ h₁).pathStatus]
      exact (deactivatePATH_busy hbusy₁ _ _ h₂ p).mpr (requestPATH_busy hp hbusy _ _ h₁)
    have hquiet : ¬ Asks r₂ p := by
      have howned := reaches_owned h
      have howned : Owned (restored r g) := ⟨⟨howned.apart, howned.paths, howned.fair⟩, howned.idle⟩
      have hidle₁ : r₁.pathStatus p = 4 := by
        rw [(Gif.Stream.requestPATH_quiet p false _ _ _ h₁').pathStatus]
        exact hidle p
      exact ((deactivatePATH_owned (requestPATH_keeps hp false _ _ _ h₁' howned) p _ _ h₂').2
        hidle₁).1
    have hseen := hruns (requestDeactivate p)
    change Option.map seen ((requestDeactivate p).foldlM (next S) (restored r g)) = _ at hseen
    rw [hrun, hrun', Option.map_some, Option.map_some, Option.some.injEq] at hseen
    exact hquiet ((asks_of_seen hseen p).mpr hasks)
  · intro hall
    refine ⟨_, hload, fun as => ?_⟩
    have hsame : r.pathStatus = g.pathStatus := funext fun p => (hidle p).trans (hall p).symm
    unfold restored
    rw [hsame]

/-- PATH1 is active, and PATH3 waits with a quadword in its FIFO. -/
theorem gif_restored_waiting : ∃ g, [.requestPATH .PATH1 true, .processGIF 5].foldlM
    (next silentGS) powerOn = some g ∧ g.FIFO = [5] ∧
    (RoundTrip silentGS powerOn g [] ↔ ∀ p, g.pathStatus p = 4) := by
  have hrun : ([.requestPATH .PATH1 true, .processGIF 5].foldlM (next silentGS) powerOn).map
      (fun g : GraphicsInterface Unit => g.FIFO) = some [5] := by
    decide
  obtain ⟨g, hg, hfifo⟩ := Option.map_eq_some_iff.mp hrun
  have hreset : (reset silentGS).run powerOn = some ((), powerOn) := rfl
  exact ⟨g, hg, hfifo, gif_restored_iff (reaches_of_acts init_powerOn hg) hreset []⟩

/-- PATH2 has been sent a tag with one quadword of data to follow. The restored PATH2 can be
deactivated before it. -/
theorem packet_forgotten : ¬ ∀ (g r : GraphicsInterface Unit) rest,
    Reaches (Init silentGS) (Step silentGS) g → (∃ g₀, (reset silentGS).run g₀ = some ((), r)) →
    RoundTrip silentGS r g rest := by
  intro hall
  have hrun : ([.directPATH2 false 1].foldlM (next silentGS) powerOn).map
      (fun g : GraphicsInterface Unit => (g.FIFO,
        (next silentGS g (.deactivatePATH .PATH2)).map (·.activePath),
        (next silentGS (restored powerOn g) (.deactivatePATH .PATH2)).map (·.activePath))) =
      some ([], some .PATH2, some .PATH0) := by
    decide
  obtain ⟨g, hg, heq⟩ := Option.map_eq_some_iff.mp hrun
  simp only [Prod.mk.injEq] at heq
  obtain ⟨hfifo, hbusy, hgone⟩ := heq
  obtain ⟨g', hload', hruns⟩ := hall g powerOn [] (reaches_of_acts init_powerOn hg) ⟨powerOn, rfl⟩
  have hload := load_save (r := powerOn) rfl (by rw [hfifo]; decide : g.FIFO.length ≤ 16) []
  rw [hload, Option.some.injEq, Prod.mk.injEq] at hload'
  obtain ⟨rfl, -⟩ := hload'
  have hseen := hruns [.deactivatePATH .PATH2]
  rw [List.foldlM_cons, List.foldlM_cons] at hseen
  obtain ⟨g₁, hg₁, h₁⟩ := Option.map_eq_some_iff.mp hbusy
  obtain ⟨r₁, hr₁, h₂⟩ := Option.map_eq_some_iff.mp hgone
  change Option.map seen (next silentGS (restored powerOn g) _ >>= _) = _ at hseen
  rw [hg₁, hr₁] at hseen
  have hactive : r₁.activePath = g₁.activePath := by
    simpa [seen] using congrArg (Option.map fun x => x.2.2.1) hseen
  rw [h₁, h₂] at hactive
  exact absurd hactive (by decide)

end

end DobieStation.SaveState.Gif
