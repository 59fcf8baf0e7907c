import DobieStation.Gif.Steps

/-! # The stream of PATH3

What PATH3 has been sent is, in every reachable state, what has been fed while PATH3 was active
followed by what the FIFO holds (`Streams`). A quadword is sent while the FIFO is empty or PATH3 is
masked, so it is not fed ahead of the FIFO; the FIFO is flushed while PATH3 is active, and a
quadword of the other paths is fed while they are. -/

namespace DobieStation.Gif.Stream

open DobieStation.Lib.Hoare DobieStation.Lib.Reach
open DobieStation.Dma.Model (Quad)
open DobieStation.Gif.Model DobieStation.Gif.Feed

variable {G : Type} {S : GraphicsSynthesizer G} {g g' g'' : GraphicsInterface G}

/-! ### The history -/

def sentOf : Event → Option Quad
  | .sent q => some q
  | _ => none

/-- What PATH3 has been sent. -/
def sent (log : List Event) : List Quad := log.filterMap sentOf

def fedOf : Event → Option Quad
  | .fed path q => if path = .PATH3 then some q else none
  | _ => none

/-- What has been fed while PATH3 was active. -/
def fed3 (log : List Event) : List Quad := log.filterMap fedOf

theorem sent_append (log : List Event) (e : Event) :
    sent (log ++ [e]) = sent log ++ (sentOf e).toList := by
  unfold sent
  rw [List.filterMap_append]
  cases h : sentOf e <;> simp [h]

theorem fed3_append (log : List Event) (e : Event) :
    fed3 (log ++ [e]) = fed3 log ++ (fedOf e).toList := by
  unfold fed3
  rw [List.filterMap_append]
  cases h : fedOf e <;> simp [h]

/-- **The stream**: what was sent has been fed or is in the FIFO, in this order. -/
structure Streams (g : GraphicsInterface G) : Prop where
  order : sent g.log = fed3 g.log ++ g.FIFO
  room : g.FIFO.length ≤ 16

/-! ### The arbiter -/

/-- The FIFO, the masks, the statuses and what has been sent and fed are the same. -/
structure Quiet (g g' : GraphicsInterface G) : Prop where
  FIFO : g'.FIFO = g.FIFO
  sent : sent g'.log = sent g.log
  fed3 : fed3 g'.log = fed3 g.log
  vif : g'.path3VifMasked = g.path3VifMasked
  mode : g'.path3ModeMasked = g.path3ModeMasked
  pathStatus : g'.pathStatus = g.pathStatus

theorem quiet_refl (g : GraphicsInterface G) : Quiet g g := ⟨rfl, rfl, rfl, rfl, rfl, rfl⟩

theorem quiet_trans (g g' g'' : GraphicsInterface G) (h : Quiet g g') (h' : Quiet g' g'') :
    Quiet g g'' :=
  ⟨h'.FIFO.trans h.FIFO, h'.sent.trans h.sent, h'.fed3.trans h.fed3, h'.vif.trans h.vif,
    h'.mode.trans h.mode, h'.pathStatus.trans h.pathStatus⟩

theorem Quiet.masked (h : Quiet g g') : g'.masked = g.masked := by
  unfold GraphicsInterface.masked
  rw [h.vif, h.mode, h.pathStatus]

theorem Quiet.streams (h : Quiet g g') (hg : Streams g) : Streams g' := by
  constructor
  · rw [h.sent, h.fed3, h.FIFO]
    exact hg.order
  · rw [h.FIFO]
    exact hg.room

theorem quiet_bind {α β : Type} {m : M G α} {f : α → M G β} (hm : Within Quiet m)
    (hf : ∀ a, Within Quiet (f a)) : Within Quiet (m >>= f) := within_bind quiet_trans hm hf

theorem quiet_pure {α : Type} (a : α) : Within Quiet (pure a : M G α) := within_pure quiet_refl a

theorem quiet_get : Within Quiet (get : M G (GraphicsInterface G)) := within_get quiet_refl

theorem quiet_arbitrates : Steps.Arbitrates (Quiet : GraphicsInterface G → GraphicsInterface G → Prop) where
  refl := quiet_refl
  trans := quiet_trans
  active g new h := by
    refine ⟨rfl, ?_, ?_, rfl, rfl, rfl⟩
    · rw [sent_append]
      exact List.append_nil _
    · rw [fed3_append]
      exact List.append_nil _
  queue _ _ := ⟨rfl, rfl, rfl, rfl, rfl, rfl⟩
  request _ _ := ⟨rfl, rfl, rfl, rfl, rfl, rfl⟩
  issue _ _ := ⟨rfl, rfl, rfl, rfl, rfl, rfl⟩

theorem request_quiet (r : Dma.Model.Request) : Within Quiet (request r : M G Unit) :=
  within_modify fun _ => ⟨rfl, rfl, rfl, rfl, rfl, rfl⟩

theorem deactivatePATH_quiet (index : Path) : Within Quiet (deactivatePATH S index) :=
  quiet_arbitrates.deactivatePATH index

/-- `path3_masked` tells whether PATH3 is masked, and does nothing if it is not. -/
theorem path3Masked_spec (g : GraphicsInterface G) : Ensures (path3Masked S .PATH3) g fun masked g' =>
    masked = g.masked ∧ Quiet g g' ∧ (masked = false → g' = g) := by
  unfold path3Masked
  rw [ensures_bind, ensures_get, ensures_ite]
  refine ⟨fun hm => ?_, fun hm => ensures_pure.mpr ⟨?_, quiet_refl g, fun _ => rfl⟩⟩
  · rw [ensures_bind]
    refine (deactivatePATH_quiet .PATH3 g).mono fun _ g' h => ensures_pure.mpr ?_
    exact ⟨hm.2.symm, h, nofun⟩
  · exact (Bool.eq_false_iff.mpr fun h => hm ⟨rfl, h⟩).symm

theorem path3Masked_quiet : Within Quiet (path3Masked S .PATH3) := quiet_arbitrates.path3Masked

theorem requestPATH_quiet (index : Path) (can : Bool) : Within Quiet (requestPATH S index can) :=
  quiet_arbitrates.requestPATH index can

/-- `path_active` holds for the active path only. -/
theorem pathActive_spec (index : Path) (can : Bool) (g : GraphicsInterface G) :
    Ensures (pathActive S index can) g fun active g' =>
      Quiet g g' ∧ (active = true → g'.activePath = index) := by
  have hread (g : GraphicsInterface G) : Ensures (do
      let g ← get
      return g.activePath = index && !S.stalled g.gs && !g.gifTemporaryStop && !S.busdir g.gs) g
      fun active g' => g' = g ∧ (active = true → g'.activePath = index) := by
    rw [ensures_bind, ensures_get]
    refine ensures_pure.mpr ⟨rfl, fun h => ?_⟩
    simp only [Bool.and_eq_true, decide_eq_true_eq] at h
    exact h.1.1.1
  unfold pathActive
  dsimp only
  rw [ensures_ite]
  refine ⟨fun _ => ?_, fun _ => (hread g).mono fun _ g' h => ⟨h.1 ▸ quiet_refl g, h.2⟩⟩
  rw [ensures_bind]
  refine (quiet_arbitrates.interruptPath3 index g).mono fun _ g₁ h₁ => ?_
  exact (hread g₁).mono fun _ g' h => ⟨h.1 ▸ h₁, h.2⟩

/-! ### Feeding and sending -/

/-- A quadword is fed for the path that is active. -/
theorem feedGIF_spec (data : Quad) (g : GraphicsInterface G) :
    Ensures (feedGIF S data) g fun _ g' => g'.FIFO = g.FIFO ∧ sent g'.log = sent g.log ∧
      fed3 g'.log = fed3 g.log ++ if g.activePath = .PATH3 then [data] else [] := by
  have hfed (g' : GraphicsInterface G)
      (hf : Feeds { g with log := g.log ++ [.fed g.activePath data] } g') :
      g'.FIFO = g.FIFO ∧ sent g'.log = sent g.log ∧
        fed3 g'.log = fed3 g.log ++ if g.activePath = .PATH3 then [data] else [] := by
    refine ⟨hf.FIFO, ?_, ?_⟩
    · rw [hf.log, sent_append]
      exact List.append_nil _
    · rw [hf.log, fed3_append]
      simp only [fedOf]
      split_ifs <;> rfl
  refine feedGIF_cases data hfed fun g' hf _ => ?_
  obtain ⟨hfifo, hsent, hfed⟩ := hfed g' hf
  refine (deactivatePATH_quiet _ g').mono fun _ g'' hq => ?_
  exact ⟨hq.FIFO.trans hfifo, hq.sent.trans hsent, hq.fed3.trans hfed⟩

/-- Another path is fed. -/
theorem feedGIF_other (data : Quad) (h : Streams g) (ha : g.activePath ≠ .PATH3) :
    Ensures (feedGIF S data) g fun _ g' => Streams g' := by
  refine (feedGIF_spec data g).mono fun _ g' hg' => ?_
  obtain ⟨hfifo, hsent, hfed⟩ := hg'
  rw [if_neg ha, List.append_nil] at hfed
  exact ⟨by rw [hsent, hfed, hfifo]; exact h.order, hfifo ▸ h.room⟩

/-- The first quadword of the FIFO is fed while PATH3 is active. -/
theorem flushPath3FIFO_streams (h : Streams g) (ha : g.activePath = .PATH3) :
    Ensures (flushPath3FIFO S) g fun _ g' => Streams g' := by
  unfold flushPath3FIFO
  rw [ensures_bind, ensures_get]
  split
  · exact ensures_failure.mpr trivial
  · rename_i quad rest hf
    rw [ensures_bind]
    refine (feedGIF_spec quad g).mono fun _ g₁ hg₁ => ?_
    obtain ⟨hfifo, hsent, hfed⟩ := hg₁
    rw [if_pos ha] at hfed
    have hpop : Streams { g₁ with FIFO := g₁.FIFO.tail } := by
      constructor
      · dsimp only
        rw [hsent, hfed, hfifo, h.order, hf]
        simp
      · have := h.room
        dsimp only
        rw [hfifo, List.length_tail]
        omega
    rw [ensures_bind, ensures_modify, ensures_bind, ensures_get, ensures_ite]
    refine ⟨fun _ => ?_, fun _ => ensures_pure.mpr hpop⟩
    have hend : Within Quiet (do
        let idle ← (if g₁.path3DmaRunning = false then pure true else path3Masked S .PATH3)
        if idle then deactivatePATH S .PATH3 else request (.set .GIF)) := by
      refine quiet_bind (within_ite (fun _ => quiet_pure _) fun _ => path3Masked_quiet) fun _ => ?_
      exact within_ite (fun _ => deactivatePATH_quiet .PATH3) fun _ => request_quiet _
    exact (hend _).mono fun _ g' hq => hq.streams hpop

theorem runLoop_streams (cycles : ℕ) (h : Streams g) :
    Ensures (runLoop S cycles) g fun _ g' => Streams g' := by
  induction cycles generalizing g with
  | zero =>
    have hquiet : Within Quiet (runLoop S 0) := by
      refine quiet_bind (quiet_arbitrates.pathActive .PATH3 false) fun _ => ?_
      refine within_ite (fun _ => ?_) fun _ => quiet_pure _
      exact quiet_bind path3Masked_quiet fun _ => quiet_pure _
    exact (hquiet g).mono fun _ g' hq => hq.streams h
  | succ cycles ih =>
    unfold runLoop
    rw [ensures_bind]
    refine (pathActive_spec .PATH3 false g).mono fun active g₁ hg₁ => ?_
    have h₁ := hg₁.1.streams h
    rw [ensures_ite]
    refine ⟨fun ha => ?_, fun _ => ensures_pure.mpr h₁⟩
    rw [ensures_bind]
    refine (path3Masked_spec g₁).mono fun masked g₂ hg₂ => ?_
    rw [ensures_ite]
    refine ⟨fun hm => ?_, fun _ => ensures_pure.mpr (hg₂.2.1.streams h₁)⟩
    obtain rfl := hg₂.2.2 hm
    rw [ensures_bind, ensures_get, ensures_ite]
    refine ⟨fun _ => ?_, fun _ => ensures_pure.mpr h₁⟩
    rw [ensures_bind]
    exact (flushPath3FIFO_streams h₁ (hg₁.2 ha)).mono fun _ g₃ h₃ => ih h₃

/-- A quadword is sent while the FIFO is empty, or PATH3 is masked and the FIFO is not full. -/
theorem sendPATH3_streams (data : Quad) (h : Streams g) (hfull : g.FIFO.length ≠ 16)
    (hwait : g.FIFO = [] ∨ g.masked = true) :
    Ensures (sendPATH3 S data) g fun _ g' => Streams g' := by
  have hclaim : Within Quiet (claimPATH3 S) :=
    quiet_bind quiet_get fun _ =>
      within_ite (fun _ => requestPATH_quiet .PATH3 false) fun _ => quiet_pure _
  unfold sendPATH3
  rw [ensures_bind, record, ensures_modify, ensures_bind]
  refine (hclaim _).mono fun _ g₁ h₁ => ?_
  rw [ensures_bind]
  refine (path3Masked_spec g₁).mono fun masked g₂ hg₂ => ?_
  obtain ⟨hmasked, h₂, -⟩ := hg₂
  have hmasked : masked = g.masked := hmasked.trans h₁.masked
  rw [ensures_bind]
  have hactive : Ensures (if masked = true then pure false else pathActive S .PATH3 false) g₂
      fun active g₃ => Quiet g₂ g₃ ∧ (active = true → g.FIFO = [] ∧ g₃.activePath = .PATH3) := by
    rw [ensures_ite]
    refine ⟨fun _ => ensures_pure.mpr ⟨quiet_refl _, fun h => absurd h Bool.false_ne_true⟩,
      fun hm => ?_⟩
    refine (pathActive_spec .PATH3 false g₂).mono fun active g₃ hg₃ => ⟨hg₃.1, fun ha => ⟨?_, hg₃.2 ha⟩⟩
    exact hwait.resolve_right fun hw => hm (hmasked.trans hw)
  refine hactive.mono fun active g₃ hg₃ => ?_
  obtain ⟨h₃, hfeed⟩ := hg₃
  have hq := quiet_trans _ _ _ (quiet_trans _ _ _ h₁ h₂) h₃
  have hsent : sent g₃.log = fed3 g.log ++ (g.FIFO ++ [data]) := by
    rw [hq.sent, sent_append, h.order, List.append_assoc]
    rfl
  have hfed : fed3 g₃.log = fed3 g.log := by
    rw [hq.fed3, fed3_append]
    exact List.append_nil _
  have hfifo : g₃.FIFO = g.FIFO := hq.FIFO
  have hroom := h.room
  rw [ensures_ite]
  refine ⟨fun ha => ?_, fun _ => ?_⟩
  · obtain ⟨hempty, ha3⟩ := hfeed ha
    refine (feedGIF_spec data g₃).mono fun _ g₄ hg₄ => ?_
    obtain ⟨hfifo', hsent', hfed'⟩ := hg₄
    rw [if_pos ha3] at hfed'
    constructor
    · rw [hsent', hsent, hfed', hfed, hfifo', hfifo, hempty]
      simp
    · rw [hfifo', hfifo]
      exact hroom
  · rw [ensures_bind, ensures_get, ensures_ite]
    refine ⟨fun _ => ?_, fun hlen => ?_⟩
    · have hpush : Streams { g₃ with FIFO := g₃.FIFO ++ [data] } := by
        constructor
        · dsimp only
          rw [hsent, hfed, hfifo]
        · dsimp only
          rw [hfifo, List.length_append, List.length_singleton]
          omega
      rw [ensures_bind, pushFIFO, ensures_modify, ensures_bind, ensures_get, ensures_ite]
      refine ⟨fun _ => ?_, fun _ => ensures_pure.mpr hpush⟩
      exact (request_quiet _ _).mono fun _ _ hq => hq.streams hpush
    · rw [hfifo] at hlen
      omega

/-! ### Steps -/

def Keeps (g g' : GraphicsInterface G) : Prop := Streams g → Streams g'

theorem keeps_quiet {α : Type} {m : M G α} (h : Within Quiet m) : Within Keeps m :=
  h.mono fun _ _ hq hg => hq.streams hg

theorem keeps_bind {α β : Type} {m : M G α} {f : α → M G β} (hm : Within Keeps m)
    (hf : ∀ a, Within Keeps (f a)) : Within Keeps (m >>= f) :=
  within_bind (fun _ _ _ h h' hg => h' (h hg)) hm hf

theorem pathActive_quiet (index : Path) (can : Bool) : Within Quiet (pathActive S index can) :=
  quiet_arbitrates.pathActive index can

/-- `process_GIF` sends a quadword only when the FIFO cannot be overtaken. -/
theorem processGIF_keeps (data : Quad) : Within Keeps (processGIF S data) := by
  refine fun g => Ensures.imp fun h => ?_
  unfold processGIF
  rw [ensures_bind, ensures_get, ensures_ite]
  refine ⟨fun hfull => ?_, fun _ => ensures_pure.mpr h⟩
  have hdrain : Ensures (fifoDraining S) g fun draining g' =>
      Quiet g g' ∧ (draining = false → g'.FIFO = [] ∨ g'.masked = true) := by
    unfold fifoDraining
    rw [ensures_bind, ensures_get, ensures_ite]
    refine ⟨fun hf => ensures_pure.mpr ⟨quiet_refl g, fun _ => .inl hf⟩, fun _ => ?_⟩
    rw [ensures_bind]
    refine (path3Masked_spec g).mono fun masked g' hg' => ensures_pure.mpr ⟨hg'.2.1, fun hm => ?_⟩
    rw [hg'.2.1.masked, ← hg'.1]
    exact .inr (by simpa using hm)
  rw [ensures_bind]
  refine hdrain.mono fun draining g' hg' => ?_
  have h' := hg'.1.streams h
  rw [ensures_ite]
  refine ⟨fun hd => ?_, fun _ => ensures_pure.mpr h'⟩
  exact sendPATH3_streams data h' (hg'.1.FIFO ▸ hfull) (hg'.2 hd)

theorem sendPATH3FIFO_keeps (data : Quad) : Within Keeps (sendPATH3FIFO data : M G Unit) := by
  refine fun g => Ensures.imp fun h => ?_
  unfold sendPATH3FIFO
  rw [ensures_bind, ensures_get, ensures_ite]
  refine ⟨fun hlen => ?_, fun _ => ensures_pure.mpr h⟩
  rw [ensures_bind, record, ensures_modify, pushFIFO, ensures_modify]
  constructor
  · dsimp only
    rw [sent_append, fed3_append, h.order]
    simp [sentOf, fedOf]
  · dsimp only
    rw [List.length_append, List.length_singleton]
    omega

theorem run_keeps (cycles : ℕ) : Within Keeps (run S cycles) := by
  have hrequest : Within Quiet (requestFlush S) := by
    refine quiet_bind path3Masked_quiet fun _ => within_ite (fun _ => ?_) fun _ => quiet_pure _
    refine quiet_bind quiet_get fun _ => ?_
    exact within_ite (fun _ => requestPATH_quiet .PATH3 false) fun _ => quiet_pure _
  exact keeps_bind (keeps_quiet hrequest) fun _ _ => Ensures.imp fun h => runLoop_streams cycles h

theorem kickPATH1_keeps (data : Quad) : Within Keeps (kickPATH1 S data) := by
  refine fun g => Ensures.imp fun h => ?_
  unfold kickPATH1
  rw [ensures_bind]
  refine (pathActive_spec .PATH1 true g).mono fun active g₁ hg₁ => ?_
  have h₁ := hg₁.1.streams h
  rw [ensures_ite]
  refine ⟨fun ha => ?_, fun _ => ensures_pure.mpr h₁⟩
  rw [ensures_bind]
  refine (feedGIF_other data h₁ (by rw [hg₁.2 ha]; decide)).mono fun _ g₂ h₂ => ?_
  rw [ensures_bind, ensures_get]
  exact ensures_pure.mpr h₂

theorem directPATH2_keeps (can : Bool) (data : Quad) : Within Keeps (directPATH2 S can data) := by
  refine keeps_bind (keeps_quiet (requestPATH_quiet .PATH2 can)) fun _ g => Ensures.imp fun h => ?_
  rw [ensures_bind]
  refine (pathActive_spec .PATH2 can g).mono fun active g₁ hg₁ => ?_
  have h₁ := hg₁.1.streams h
  rw [ensures_ite]
  refine ⟨fun ha => ?_, fun _ => ensures_pure.mpr h₁⟩
  exact feedGIF_other data h₁ (by rw [hg₁.2 ha]; decide)

theorem keeps_modify {f : GraphicsInterface G → GraphicsInterface G}
    (hf : ∀ g, (f g).FIFO = g.FIFO ∧ (f g).log = g.log) : Within Keeps (modify f : M G Unit) := by
  refine within_modify fun g h => ?_
  obtain ⟨hfifo, hlog⟩ := hf g
  exact ⟨by rw [hlog, hfifo]; exact h.order, hfifo ▸ h.room⟩

theorem keeps_pure {α : Type} (a : α) : Within Keeps (pure a : M G α) :=
  keeps_quiet (quiet_pure a)

theorem keeps_get : Within Keeps (get : M G (GraphicsInterface G)) := keeps_quiet quiet_get

theorem resumePath3_keeps : Within Keeps (resumePath3 S) := by
  refine keeps_bind keeps_get fun _ => within_ite (fun _ => keeps_pure _) fun _ =>
    within_ite (fun _ => ?_) fun _ => keeps_pure _
  exact keeps_bind (keeps_modify fun _ => ⟨rfl, rfl⟩) fun _ =>
    keeps_quiet (requestPATH_quiet .PATH3 false)

/-- **A step of the GIF.** -/
theorem exec_keeps (a : Act G) : Within Keeps (a.exec S) := by
  cases a with
  | requestPATH index can =>
    exact within_ite (fun _ => within_failure) fun _ => keeps_quiet (requestPATH_quiet index can)
  | deactivatePATH index => exact keeps_quiet (deactivatePATH_quiet index)
  | pathActive index can =>
    exact keeps_bind (keeps_quiet (pathActive_quiet index can)) fun _ => keeps_pure _
  | kickPATH1 data => exact keeps_bind (kickPATH1_keeps data) fun _ => keeps_pure _
  | directPATH2 can data => exact directPATH2_keeps can data
  | processGIF data => exact processGIF_keeps data
  | sendPATH3FIFO data => exact sendPATH3FIFO_keeps data
  | run cycles => exact run_keeps cycles
  | dmaRunning running => exact keeps_modify fun _ => ⟨rfl, rfl⟩
  | setPath3Vifmask value =>
    refine keeps_bind (keeps_bind keeps_get fun _ => ?_) fun _ => keeps_pure _
    exact keeps_bind (keeps_modify fun _ => ⟨rfl, rfl⟩) fun _ => keeps_pure _
  | resumePath3 => exact resumePath3_keeps
  | writeMODE value =>
    refine keeps_bind keeps_get fun _ => keeps_bind (keeps_modify fun _ => ⟨rfl, rfl⟩) fun _ => ?_
    exact within_ite (fun _ => resumePath3_keeps) fun _ => keeps_pure _
  | writeCTRL value =>
    refine within_ite (fun _ => within_failure) fun hr => ?_
    refine keeps_bind (within_ite (fun h => absurd h hr) fun _ => keeps_pure _) fun _ => ?_
    exact keeps_modify fun _ => ⟨rfl, rfl⟩
  | outside gs =>
    have houtside : Within Keeps (modify fun g => { g with gs := gs } : M G Unit) :=
      keeps_modify fun _ => ⟨rfl, rfl⟩
    exact houtside

theorem init_streams (h : Init S g) : Streams g := by
  obtain ⟨hlog, g₀, hreset⟩ := h
  have hr : Ensures (reset S) g₀ fun _ g' => g'.FIFO = [] := by
    rw [reset, ensures_bind, ensures_modify, issue, ensures_modify]
  have hfifo : g.FIFO = [] := hr _ _ hreset
  exact ⟨by rw [hlog, hfifo]; rfl, by rw [hfifo]; exact Nat.zero_le _⟩

/-- **The integrity of PATH3's stream**: in every reachable state what PATH3 was sent has been fed
while it was active or is in its FIFO, in the order it was sent, and the FIFO is not overfull. -/
theorem path3_stream (h : Reaches (Init S) (Step S) g) :
    sent g.log = fed3 g.log ++ g.FIFO ∧ g.FIFO.length ≤ 16 := by
  have hs : Streams g := Reaches.invariant (I := fun g => Streams g) (fun _ => init_streams)
    (fun _ a _ hg hs => exec_keeps a _ () _ hs hg) h
  exact ⟨hs.order, hs.room⟩

/-- PATH3 waits behind PATH1, and goes on with its FIFO when that has ended. -/
def behindPATH1 : List (Act Unit) :=
  [.requestPATH .PATH1 true, .processGIF 5, .kickPATH1 0x8000#128, .run 4, .processGIF 6]

theorem path3_stream_behindPATH1 : ∃ g, behindPATH1.foldlM (next silentGS) powerOn = some g ∧
    sent g.log = [5, 6] ∧ sent g.log = fed3 g.log ++ g.FIFO ∧ g.FIFO.length ≤ 16 := by
  have hrun : (behindPATH1.foldlM (next silentGS) powerOn).map
      (fun g : GraphicsInterface Unit => sent g.log) = some [5, 6] := by
    decide
  obtain ⟨g, hg, hsent⟩ := Option.map_eq_some_iff.mp hrun
  exact ⟨g, hg, hsent, path3_stream (reaches_of_acts init_powerOn hg)⟩

end DobieStation.Gif.Stream
