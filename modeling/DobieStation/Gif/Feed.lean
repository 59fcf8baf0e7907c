import DobieStation.Gif.Model

/-! # What feeding a quadword leaves alone

A quadword that is fed changes the tag of the active path, its status and the GS. What the arbiter
and the FIFO of PATH3 depend on is the same until the end of the packet (`Feeds`). -/

namespace DobieStation.Gif.Feed

open DobieStation.Lib.Hoare
open DobieStation.Dma.Model (Quad Request)
open DobieStation.Gif.Model

variable {G : Type} {S : GraphicsSynthesizer G}

/-- The arbiter, the FIFO, the masks and the history are the same. -/
structure Feeds (g g' : GraphicsInterface G) : Prop where
  activePath : g'.activePath = g.activePath
  pathQueue : g'.pathQueue = g.pathQueue
  FIFO : g'.FIFO = g.FIFO
  log : g'.log = g.log
  vif : g'.path3VifMasked = g.path3VifMasked
  mode : g'.path3ModeMasked = g.path3ModeMasked

theorem feeds_refl (g : GraphicsInterface G) : Feeds g g := ⟨rfl, rfl, rfl, rfl, rfl, rfl⟩

theorem feeds_trans (g g' g'' : GraphicsInterface G) (h : Feeds g g') (h' : Feeds g' g'') :
    Feeds g g'' :=
  ⟨h'.activePath.trans h.activePath, h'.pathQueue.trans h.pathQueue, h'.FIFO.trans h.FIFO,
    h'.log.trans h.log, h'.vif.trans h.vif, h'.mode.trans h.mode⟩

/-- The relation allows what feeding data does: commands to the GS, the tag of the active path, and
Q. -/
structure Allows (R : GraphicsInterface G → GraphicsInterface G → Prop) : Prop where
  refl : ∀ g, R g g
  trans : ∀ g g' g'', R g g' → R g' g'' → R g g''
  issue : ∀ g gs, R g { g with gs := gs }
  tag : ∀ g path, R g { g with path := path }
  internalQ : ∀ g q, R g { g with internalQ := q }

namespace Allows

variable {R : GraphicsInterface G → GraphicsInterface G → Prop} (h : Allows R)
include h

theorem bind {α β : Type} {m : M G α} {f : α → M G β} (hm : Within R m)
    (hf : ∀ a, Within R (f a)) : Within R (m >>= f) := within_bind h.trans hm hf

theorem pure {α : Type} (a : α) : Within R (Pure.pure a : M G α) := within_pure h.refl a

theorem get : Within R (MonadState.get : M G (GraphicsInterface G)) := within_get h.refl

theorem command (c : Command) : Within R (Model.issue S c) := within_modify fun g => h.issue g _

theorem modifyTag (f : GIFtag → GIFtag) : Within R (modifyTag f : M G Unit) :=
  within_modify fun g => h.tag g _

theorem processPACKED (data : Quad) : Within R (processPACKED S data) := by
  refine h.bind h.get fun g => ?_
  split
  case h_3 => exact h.bind (within_modify fun g => h.internalQ g _) fun _ => h.command _
  case h_8 => exact within_ite (fun _ => h.command _) fun _ => h.pure _
  case h_9 => exact h.pure _
  all_goals exact h.command _

theorem registerREGLIST (data : BitVec 64) : Within R (registerREGLIST S data) := by
  refine h.bind h.get fun g => h.bind ?_ fun _ => h.modifyTag _
  exact within_ite (fun _ => h.command _) fun _ => h.pure _

theorem processREGLIST (data : Quad) : Within R (processREGLIST S data) :=
  h.bind (h.registerREGLIST _) fun _ => h.bind h.get fun _ =>
    within_ite (fun _ => h.pure _) fun _ => h.registerREGLIST _

theorem feedData (data : Quad) : Within R (feedData S data) := by
  refine h.bind h.get fun g => ?_
  split
  · exact h.bind (h.processPACKED data) fun _ => h.modifyTag _
  · exact h.processREGLIST data
  · exact h.bind (h.command _) fun _ => h.bind (h.command _) fun _ => h.modifyTag _
  · exact h.bind (h.command _) fun _ => h.bind (h.command _) fun _ => h.modifyTag _
  · exact h.pure _

/-- A tag is read, if its status is allowed too. -/
theorem feedTag (hs : ∀ g status,
    R g { g with pathStatus := Function.update g.pathStatus g.activePath status }) (data : Quad) :
    Within R (feedTag S data) := by
  refine h.bind (h.modifyTag _) fun _ => h.bind (within_modify fun g => ?_) fun _ =>
    h.bind h.get fun _ => within_ite (fun _ => ?_) fun _ => h.pure _
  · exact h.trans _ _ _ (hs g g.tag.format) (h.internalQ _ _)
  · exact h.bind (h.command _) fun _ => within_ite (fun _ => h.command _) fun _ => h.pure _

end Allows

theorem feeds_allows : Allows (Feeds : GraphicsInterface G → GraphicsInterface G → Prop) where
  refl := feeds_refl
  trans := feeds_trans
  issue _ _ := ⟨rfl, rfl, rfl, rfl, rfl, rfl⟩
  tag _ _ := ⟨rfl, rfl, rfl, rfl, rfl, rfl⟩
  internalQ _ _ := ⟨rfl, rfl, rfl, rfl, rfl, rfl⟩

theorem feeds_request (r : Request) : Within Feeds (request r : M G Unit) :=
  within_modify fun _ => ⟨rfl, rfl, rfl, rfl, rfl, rfl⟩

theorem feedTag_feeds (data : Quad) : Within Feeds (feedTag S data) :=
  feeds_allows.feedTag (fun _ _ => ⟨rfl, rfl, rfl, rfl, rfl, rfl⟩) data

theorem feedData_feeds (data : Quad) : Within Feeds (feedData S data) := feeds_allows.feedData data

theorem finishOutput_feeds (g : GraphicsInterface G) : Ensures (finishOutput S) g fun _ g' =>
    Feeds g g' ∧ g'.pathStatus = g.pathStatus := by
  simp only [finishOutput, issue, ensures_bind, ensures_get, ensures_modify, ensures_ite,
    ensures_pure]
  exact ⟨fun _ => ⟨⟨rfl, rfl, rfl, rfl, rfl, rfl⟩, trivial⟩, fun _ => ⟨feeds_refl g, trivial⟩⟩

/-- A quadword has been fed. The last one of a packet deactivates its path, which is idle now. -/
theorem feedGIF_cases {Q : Unit → GraphicsInterface G → Prop} (data : Quad)
    {g : GraphicsInterface G} (hfed : ∀ g', Feeds { g with
        log := g.log ++ [.fed g.activePath data] } g' → Q () g')
    (hend : ∀ g', Feeds { g with log := g.log ++ [.fed g.activePath data] } g' →
      g'.pathStatus g'.activePath = 4 → Ensures (deactivatePATH S g'.activePath) g' Q) :
    Ensures (feedGIF S data) g Q := by
  have hfeed (left : BitVec 32) : Within Feeds
      (if left = 0 then feedTag S data else feedData S data) :=
    within_ite (fun _ => feedTag_feeds data) fun _ => feedData_feeds data
  simp only [feedGIF, record, ensures_bind, ensures_get, ensures_modify]
  refine (hfeed _ _).mono fun _ g₁ h₁ => ?_
  have h₁ : Feeds { g with log := g.log ++ [.fed g.activePath data] } g₁ :=
    ⟨h₁.activePath, h₁.pathQueue, h₁.FIFO, h₁.log, h₁.vif, h₁.mode⟩
  rw [ensures_ite]
  refine ⟨fun _ => ?_, fun _ => ensures_pure.mpr (hfed g₁ h₁)⟩
  simp only [endPacket, issue, ensures_bind, ensures_modify, ensures_get]
  refine (finishOutput_feeds _).mono fun _ g₂ hg₂ => ?_
  obtain ⟨h₂, hstatus⟩ := hg₂
  have h₃ : Feeds g₁ { g₂ with gs := S.exec .wakeThread g₂.gs } :=
    ⟨h₂.activePath, h₂.pathQueue, h₂.FIFO, h₂.log, h₂.vif, h₂.mode⟩
  refine hend { g₂ with gs := S.exec .wakeThread g₂.gs } (feeds_trans _ _ _ h₁ h₃) ?_
  have hactive : g₂.activePath = g₁.activePath := h₂.activePath
  dsimp only
  rw [hstatus, hactive]
  exact Function.update_self _ _ _

end DobieStation.Gif.Feed
