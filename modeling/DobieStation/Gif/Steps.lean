import DobieStation.Gif.Feed

/-! # The steps of the GIF, from their parts

A relation that allows the arbiter, the feeding of a quadword and whatever concerns neither the paths nor
the history allows every step (`Parts.exec`). -/

namespace DobieStation.Gif.Steps

open DobieStation.Lib.Hoare
open DobieStation.Dma.Model (Quad)
open DobieStation.Gif.Model

variable {G : Type} {S : GraphicsSynthesizer G} {R : GraphicsInterface G → GraphicsInterface G → Prop}

/-! ### The arbiter -/

/-- The relation allows the changes that the arbiter makes. -/
structure Arbitrates (R : GraphicsInterface G → GraphicsInterface G → Prop) : Prop where
  refl : ∀ g, R g g
  trans : ∀ g g' g'', R g g' → R g' g'' → R g g''
  active : ∀ g new h, R g { g with activePath := new, log := g.log ++ [.handover h] }
  queue : ∀ g queue, R g { g with pathQueue := queue }
  request : ∀ g requests, R g { g with toDMAC := requests }
  issue : ∀ g gs, R g { g with gs := gs }

namespace Arbitrates

variable (h : Arbitrates R)
include h

theorem bind {α β : Type} {m : M G α} {f : α → M G β} (hm : Within R m) (hf : ∀ a, Within R (f a)) :
    Within R (m >>= f) := within_bind h.trans hm hf

theorem pure {α : Type} (a : α) : Within R (Pure.pure a : M G α) := within_pure h.refl a

theorem get : Within R (MonadState.get : M G (GraphicsInterface G)) := within_get h.refl

theorem setActive (new : Path) : Within R (setActive new : M G Unit) := within_modify fun g => h.active g new _

theorem setQueue (f : BitVec 8 → BitVec 8) : Within R (setQueue f : M G Unit) :=
  within_modify fun g => h.queue g _

theorem ask (r : Dma.Model.Request) : Within R (Model.request r : M G Unit) :=
  within_modify fun g => h.request g _

theorem command (c : Command) : Within R (Model.issue S c) := within_modify fun g => h.issue g _

theorem arbitratePaths : Within R (arbitratePaths : M G Unit) := by
  refine h.bind h.get fun g => ?_
  split
  · exact h.pure _
  · refine within_ite (fun _ => h.pure _) fun _ => ?_
    refine h.bind (h.setQueue _) fun _ => h.bind (h.setActive _) fun _ => ?_
    exact within_ite (fun _ => h.ask _) fun _ => h.pure _

theorem deactivatePATH (index : Path) : Within R (deactivatePATH S index) := by
  refine h.bind h.get fun g => within_ite (fun _ => ?_) fun _ => ?_
  · refine h.bind (h.setQueue _) fun _ => within_ite (fun _ => ?_) fun _ => h.pure _
    exact h.bind (h.setActive _) fun _ => h.arbitratePaths
  · exact within_ite (fun _ => h.command _) fun _ => h.pure _

theorem path3Masked : Within R (path3Masked S .PATH3) :=
  h.bind h.get fun _ =>
    within_ite (fun _ => h.bind (h.deactivatePATH .PATH3) fun _ => h.pure _) fun _ => h.pure _

theorem interruptPath3 (index : Path) : Within R (interruptPath3 S index) := by
  refine h.bind h.get fun g => within_ite (fun _ => h.pure _) fun _ =>
    within_ite (fun _ => h.pure _) fun _ => ?_
  refine h.bind (within_ite (fun _ => h.pure _) fun _ => h.path3Masked) fun _ => ?_
  exact within_ite (fun _ => h.bind h.arbitratePaths fun _ => h.pure _) fun _ => h.pure _

theorem requestPATH (index : Path) (can : Bool) : Within R (requestPATH S index can) := by
  refine h.bind h.get fun g => within_ite (fun _ => ?_) fun _ => ?_
  · refine h.bind (h.setActive _) fun _ => within_ite (fun _ => ?_) fun _ => h.pure _
    refine h.bind h.path3Masked fun _ => h.bind h.get fun _ => ?_
    exact within_ite (fun _ => h.ask _) fun _ => h.pure _
  · refine h.bind (h.setQueue _) fun _ => within_ite (fun _ => ?_) fun _ => h.pure _
    exact h.bind (h.interruptPath3 index) fun _ => h.pure _

theorem pathActive (index : Path) (can : Bool) : Within R (pathActive S index can) := by
  have hread : Within R (do
      let g ← MonadState.get
      return g.activePath = index && !S.stalled g.gs && !g.gifTemporaryStop && !S.busdir g.gs) :=
    h.bind h.get fun _ => h.pure _
  exact within_ite (fun _ => h.bind (h.interruptPath3 index) fun _ => hread) fun _ => hread

end Arbitrates

/-! ### Steps -/

/-- The relation allows the parts of a step. -/
structure Parts (S : GraphicsSynthesizer G) (R : GraphicsInterface G → GraphicsInterface G → Prop) : Prop where
  refl : ∀ g, R g g
  trans : ∀ g g' g'', R g g' → R g' g'' → R g g''
  requestPATH : ∀ index, index ≠ .PATH0 → ∀ can, Within R (requestPATH S index can)
  deactivatePATH : ∀ index, Within R (deactivatePATH S index)
  path3Masked : Within R (path3Masked S .PATH3)
  pathActive : ∀ index can, Within R (pathActive S index can)
  feedGIF : ∀ q, Within R (feedGIF S q)
  sent : ∀ g q, R g { g with log := g.log ++ [.sent q] }
  aside : ∀ g g', g'.path = g.path → g'.activePath = g.activePath → g'.pathQueue = g.pathQueue →
    g'.log = g.log → R g g'

namespace Parts

variable (h : Parts S R)
include h

theorem bind {α β : Type} {m : M G α} {f : α → M G β} (hm : Within R m) (hf : ∀ a, Within R (f a)) :
    Within R (m >>= f) := within_bind h.trans hm hf

theorem pure {α : Type} (a : α) : Within R (Pure.pure a : M G α) := within_pure h.refl a

theorem get : Within R (MonadState.get : M G (GraphicsInterface G)) := within_get h.refl

theorem update {f : GraphicsInterface G → GraphicsInterface G} (hf : ∀ g, (f g).path = g.path ∧
    (f g).activePath = g.activePath ∧ (f g).pathQueue = g.pathQueue ∧ (f g).log = g.log) :
    Within R (modify f : M G Unit) := by
  refine within_modify fun g => ?_
  obtain ⟨hpath, hactive, hqueue, hlog⟩ := hf g
  exact h.aside g (f g) hpath hactive hqueue hlog

theorem ask (r : Dma.Model.Request) : Within R (request r : M G Unit) :=
  h.update fun _ => ⟨rfl, rfl, rfl, rfl⟩

theorem flushPath3FIFO : Within R (flushPath3FIFO S) := by
  have hpop : Within R (modify fun g => { g with FIFO := g.FIFO.tail } : M G Unit) :=
    h.update fun _ => ⟨rfl, rfl, rfl, rfl⟩
  refine h.bind h.get fun g => ?_
  split
  · exact within_failure
  · refine h.bind (h.feedGIF _) fun _ => h.bind hpop fun _ => h.bind h.get fun _ => ?_
    refine within_ite (fun _ => ?_) fun _ => h.pure _
    refine h.bind (within_ite (fun _ => h.pure _) fun _ => h.path3Masked) fun _ => ?_
    exact within_ite (fun _ => h.deactivatePATH .PATH3) fun _ => h.ask _

theorem runLoop (cycles : ℕ) : Within R (runLoop S cycles) := by
  induction cycles with
  | zero =>
    refine h.bind (h.pathActive .PATH3 false) fun _ => within_ite (fun _ => ?_) fun _ => h.pure _
    exact h.bind h.path3Masked fun _ => h.pure _
  | succ cycles ih =>
    refine h.bind (h.pathActive .PATH3 false) fun _ => within_ite (fun _ => ?_) fun _ => h.pure _
    refine h.bind h.path3Masked fun _ => within_ite (fun _ => ?_) fun _ => h.pure _
    refine h.bind h.get fun _ => within_ite (fun _ => ?_) fun _ => h.pure _
    exact h.bind h.flushPath3FIFO fun _ => ih

theorem requestPATH3 : Within R (Model.requestPATH S .PATH3 false) := h.requestPATH .PATH3 (by decide) false

theorem sendPATH3 (data : Quad) : Within R (sendPATH3 S data) := by
  have hrecord : Within R (record (.sent data) : M G Unit) := within_modify fun g => h.sent g data
  have hclaim : Within R (claimPATH3 S) :=
    h.bind h.get fun _ => within_ite (fun _ => h.requestPATH3) fun _ => h.pure _
  have hpush : Within R (pushFIFO data : M G Unit) := h.update fun _ => ⟨rfl, rfl, rfl, rfl⟩
  refine h.bind hrecord fun _ => h.bind hclaim fun _ => h.bind h.path3Masked fun _ =>
    h.bind (within_ite (fun _ => h.pure _) fun _ => h.pathActive .PATH3 false) fun _ =>
      within_ite (fun _ => h.feedGIF data) fun _ => ?_
  refine h.bind h.get fun _ => within_ite (fun _ => ?_) fun _ => h.pure _
  exact h.bind hpush fun _ => h.bind h.get fun _ => within_ite (fun _ => h.ask _) fun _ => h.pure _

theorem resumePath3 : Within R (resumePath3 S) := by
  refine h.bind h.get fun _ => within_ite (fun _ => h.pure _) fun _ =>
    within_ite (fun _ => ?_) fun _ => h.pure _
  exact h.bind (h.update fun _ => ⟨rfl, rfl, rfl, rfl⟩) fun _ => h.requestPATH3

/-- **A step of the GIF.** -/
theorem exec (a : Act G) : Within R (a.exec S) := by
  cases a with
  | requestPATH index can =>
    exact within_ite (fun _ => within_failure) fun hi => h.requestPATH index hi can
  | deactivatePATH index => exact h.deactivatePATH index
  | pathActive index can => exact h.bind (h.pathActive index can) fun _ => h.pure _
  | kickPATH1 data =>
    refine h.bind (h.bind (h.pathActive .PATH1 true) fun _ => ?_) fun _ => h.pure _
    refine within_ite (fun _ => ?_) fun _ => h.pure _
    exact h.bind (h.feedGIF data) fun _ => h.bind h.get fun _ => h.pure _
  | directPATH2 can data =>
    refine h.bind (h.requestPATH .PATH2 (by decide) can) fun _ => ?_
    refine h.bind (h.pathActive .PATH2 can) fun _ => ?_
    exact within_ite (fun _ => h.feedGIF data) fun _ => h.pure _
  | processGIF data =>
    have hdrain : Within R (fifoDraining S) :=
      h.bind h.get fun _ => within_ite (fun _ => h.pure _) fun _ => h.bind h.path3Masked fun _ => h.pure _
    refine h.bind h.get fun _ => within_ite (fun _ => ?_) fun _ => h.pure _
    exact h.bind hdrain fun _ => within_ite (fun _ => h.sendPATH3 data) fun _ => h.pure _
  | sendPATH3FIFO data =>
    refine h.bind h.get fun _ => within_ite (fun _ => ?_) fun _ => h.pure _
    refine h.bind (within_modify fun g => h.sent g data) fun _ => ?_
    exact h.update fun _ => ⟨rfl, rfl, rfl, rfl⟩
  | run cycles =>
    refine h.bind (h.bind h.path3Masked fun _ => ?_) fun _ => h.runLoop cycles
    refine within_ite (fun _ => ?_) fun _ => h.pure _
    exact h.bind h.get fun _ => within_ite (fun _ => h.requestPATH3) fun _ => h.pure _
  | dmaRunning running => exact h.update fun _ => ⟨rfl, rfl, rfl, rfl⟩
  | setPath3Vifmask value =>
    refine h.bind (h.bind h.get fun _ => ?_) fun _ => h.pure _
    exact h.bind (h.update fun _ => ⟨rfl, rfl, rfl, rfl⟩) fun _ => h.pure _
  | resumePath3 => exact h.resumePath3
  | writeMODE value =>
    refine h.bind h.get fun _ => h.bind (h.update fun _ => ⟨rfl, rfl, rfl, rfl⟩) fun _ => ?_
    exact within_ite (fun _ => h.resumePath3) fun _ => h.pure _
  | writeCTRL value =>
    refine within_ite (fun _ => within_failure) fun hr => ?_
    refine h.bind (within_ite (fun h => absurd h hr) fun _ => h.pure _) fun _ => ?_
    exact h.update fun _ => ⟨rfl, rfl, rfl, rfl⟩
  | outside gs =>
    have houtside : Within R (modify fun g => { g with gs := gs } : M G Unit) :=
      h.update fun _ => ⟨rfl, rfl, rfl, rfl⟩
    exact houtside

end Parts

/-- A relation that allows the arbiter allows the parts of a step, if it allows the rest. -/
theorem Arbitrates.parts (h : Arbitrates R) (hfeed : ∀ q, Within R (feedGIF S q))
    (hsent : ∀ g q, R g { g with log := g.log ++ [.sent q] })
    (haside : ∀ g g', g'.path = g.path → g'.activePath = g.activePath → g'.pathQueue = g.pathQueue →
      g'.log = g.log → R g g') : Parts S R where
  refl := h.refl
  trans := h.trans
  requestPATH index _ can := h.requestPATH index can
  deactivatePATH := h.deactivatePATH
  path3Masked := h.path3Masked
  pathActive := h.pathActive
  feedGIF := hfeed
  sent := hsent
  aside := haside

end DobieStation.Gif.Steps
