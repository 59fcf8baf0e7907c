import DobieStation.Gif.Arbiter
import DobieStation.Gif.Packets

/-! # The framing of a path

What a quadword does is determined by the quadwords that its path was fed before it (`feed`): it is read
as a tag, or its items are processed one after the other, each under its own descriptor. -/

namespace DobieStation.Gif.Framing

open DobieStation.Lib.Hoare DobieStation.Lib.Reach
open DobieStation.Dma.Model (Quad)
open DobieStation.Gif.Model DobieStation.Gif.Packets

variable {G : Type} {S : GraphicsSynthesizer G} {g g' : GraphicsInterface G}

/-! ### The items of a quadword -/

/-- A tag with this descriptor only. -/
def soleTag (d : BitVec 4) : GIFtag := { blankTag with regCount := 1, regsLeft := 1, regs := d.setWidth 64 }

/-- An item is processed under its own descriptor, whatever the tag is. -/
def process (S : GraphicsSynthesizer G) (flg : BitVec 2) (item : Item) : M G Unit := do
  let path := (← get).path
  modify fun g => { g with path := fun _ => soleTag item.descriptor }
  (if flg = 0 then processPACKED S item.data else registerREGLIST S (lower item.data))
  modify fun g => { g with path := path }

theorem nextReg_soleTag (d : BitVec 4) : nextReg (soleTag d) = d.setWidth 8 := by
  revert d
  decide

variable (g) in
/-- The tag matters for its next register only. -/
theorem processPACKED_eq (path : Path → GIFtag) (data : Quad)
    (h : nextReg (path g.activePath) = nextReg g.tag) :
    ∃ gs internalQ, (processPACKED S data).run g = some ((), { g with gs := gs, internalQ := internalQ }) ∧
      (processPACKED S data).run { g with path := path } =
        some ((), { g with path := path, gs := gs, internalQ := internalQ }) := by
  unfold processPACKED
  have hreg : nextReg ({ g with path := path } : GraphicsInterface G).tag = nextReg g.tag := h
  simp only [StateT.run_bind, StateT.run_get, Option.bind_eq_bind, Option.pure_def, Option.bind_some, hreg]
  split
  case h_8 => split_ifs <;> exact ⟨_, _, rfl, rfl⟩
  all_goals exact ⟨_, _, rfl, rfl⟩

variable (g) in
theorem process_PACKED (item : Item) : ∃ gs internalQ,
    (process S 0 item).run g = some ((), { g with gs := gs, internalQ := internalQ }) ∧
    ∀ path : Path → GIFtag, nextReg (path g.activePath) = item.descriptor.setWidth 8 →
      (processPACKED S item.data).run { g with path := path } =
        some ((), { g with path := path, gs := gs, internalQ := internalQ }) := by
  let sole : GraphicsInterface G := { g with path := fun _ => soleTag item.descriptor }
  have hsole : nextReg sole.tag = item.descriptor.setWidth 8 := nextReg_soleTag item.descriptor
  obtain ⟨gs, internalQ, hrun, -⟩ := processPACKED_eq (S := S) sole sole.path item.data rfl
  refine ⟨gs, internalQ, ?_, fun path hpath => ?_⟩
  · show ((processPACKED S item.data).run sole).bind _ = _
    rw [hrun]
    rfl
  · obtain ⟨gs', internalQ', hrun', hpath'⟩ :=
      processPACKED_eq (S := S) sole path item.data (hpath.trans hsole.symm)
    have hsame := Option.some.inj (hrun.symm.trans hrun')
    have hgs : gs = gs' := congrArg (fun r => r.2.gs) hsame
    have hQ : internalQ = internalQ' := congrArg (fun r => r.2.internalQ) hsame
    rw [hgs, hQ]
    exact hpath'

variable (g) in
theorem process_REGLIST (item : Item) : ∃ gs internalQ,
    (process S 1 item).run g = some ((), { g with gs := gs, internalQ := internalQ }) ∧
    ∀ path : Path → GIFtag, nextReg (path g.activePath) = item.descriptor.setWidth 8 →
      (registerREGLIST S (lower item.data)).run { g with path := path } = some ((), { g with
        path := Function.update path g.activePath (countReg (path g.activePath))
        gs := gs
        internalQ := internalQ }) := by
  have hsole : nextReg (soleTag item.descriptor) = item.descriptor.setWidth 8 := nextReg_soleTag item.descriptor
  by_cases hskip : item.descriptor.setWidth 8 ≠ 0xE#8
  · refine ⟨S.exec (.write64 ((item.descriptor.setWidth 8).setWidth 32) (lower item.data)) g.gs, g.internalQ,
      ?_, fun path hpath => ?_⟩
    · simp [process, registerREGLIST, GraphicsInterface.tag, hsole, hskip, issue, modifyTag]
    · simp [registerREGLIST, GraphicsInterface.tag, hpath, hskip, issue, modifyTag]
  · refine ⟨g.gs, g.internalQ, ?_, fun path hpath => ?_⟩
    · simp [process, registerREGLIST, GraphicsInterface.tag, hsole, hskip, issue, modifyTag]
    · simp [registerREGLIST, GraphicsInterface.tag, hpath, hskip, issue, modifyTag]

/-! ### A quadword -/

instance (f : Frame) : Decidable f.ends := inferInstanceAs (Decidable (_ ∧ _))

/-- The next quadword on a path that is at `f` is read. -/
def read (S : GraphicsSynthesizer G) (f : Frame) (q : Quad) : M G Unit := do
  if f.read = quads f.tag then feedTag S q
  else if FLG f.tag = 0 ∨ FLG f.tag = 1 then
    (f.items q).forM (process S (FLG f.tag))
    modifyTag readData
  else feedData S q

/-- What the next quadword does on a path that is at `f`. -/
def feed (S : GraphicsSynthesizer G) (f : Frame) (q : Quad) : M G Unit := do
  record (.fed (← get).activePath q)
  modify fun g => { g with outputtingPath := true }
  read S f q
  if (f.next q).ends then endPacket S

variable {f : Frame} {q : Quad}

theorem feedData_PACKED (h : g.tag.format.toNat = 0) :
    (feedData S q).run g = (do
      processPACKED S q
      modifyTag countReg : M G Unit).run g := by
  unfold feedData
  simp only [StateT.run_bind, StateT.run_get, Option.pure_def, Option.bind_eq_bind, Option.bind_some, h]

theorem feedData_REGLIST (h : g.tag.format.toNat = 1) : (feedData S q).run g = (processREGLIST S q).run g := by
  unfold feedData
  simp only [StateT.run_bind, StateT.run_get, Option.pure_def, Option.bind_eq_bind, Option.bind_some, h]

theorem lower_setWidth (data : BitVec 64) : lower (data.setWidth 128) = data := by
  apply BitVec.eq_of_getLsbD_eq
  intro i hi
  simp only [lower, BitVec.getLsbD_extractLsb', BitVec.getLsbD_setWidth, hi, decide_true, Bool.true_and, Nat.zero_add]
  rw [decide_eq_true (by omega), Bool.true_and]

/-- The items of a quadword are processed in order. -/
theorem feedData_items (h : Follows f g.tag) (hread : f.read < quads f.tag)
    (hflg : FLG f.tag = 0 ∨ FLG f.tag = 1) : ∃ gs internalQ,
      ((f.items q).forM (process S (FLG f.tag))).run g =
        some ((), { g with gs := gs, internalQ := internalQ }) ∧
      (feedData S q).run g = some ((), { g with
        path := Function.update g.path g.activePath (readData g.tag)
        gs := gs
        internalQ := internalQ }) := by
  have hr : Reads f.tag g.tag := h.reads hread
  have hc : CountsQuads f.tag f.read g.tag := h.counts hread
  have hformat : g.tag.format.toNat = (FLG f.tag).toNat := format_toNat hr
  unfold Frame.items
  rcases hflg with hflg | hflg
  · rw [countsQuads_PACKED hflg] at hc
    rw [hflg] at hformat ⊢
    obtain ⟨gs, internalQ, hprocess, hpath⟩ := process_PACKED (S := S) g (f.item f.read q)
    have hdata : (processPACKED S q).run g = some ((), { g with gs := gs, internalQ := internalQ }) :=
      hpath g.path (nextReg_eq hr hc)
    refine ⟨gs, internalQ, ?_, ?_⟩
    · show ((process S 0 (f.item f.read q)).run g).bind _ = _
      rw [hprocess]
      rfl
    · rw [feedData_PACKED hformat, readData_PACKED hr hflg]
      show ((processPACKED S q).run g).bind _ = _
      rw [hdata]
      rfl
  · rw [countsQuads_REGLIST hflg] at hc
    rw [quads_REGLIST hflg] at hread
    rw [hflg] at hformat ⊢
    rw [feedData_REGLIST hformat, readData_REGLIST hr hflg]
    have hleft : (countReg g.tag).dataLeft = 0 ↔ 2 * f.read + 1 = items f.tag :=
      reglist_left hr hc (by omega)
    obtain ⟨gs, internalQ, hprocess, hpath⟩ :=
      process_REGLIST (S := S) g (f.item (2 * f.read) ((lower q).setWidth 128))
    have hfirst : (registerREGLIST S (lower q)).run g = some ((), { g with
        path := Function.update g.path g.activePath (countReg g.tag)
        gs := gs
        internalQ := internalQ }) := by
      rw [← lower_setWidth (lower q)]
      exact hpath g.path (nextReg_eq hr hc)
    let g₁ : GraphicsInterface G := { g with
      path := Function.update g.path g.activePath (countReg g.tag)
      gs := gs
      internalQ := internalQ }
    have htag : g₁.tag = countReg g.tag := Function.update_self _ _ _
    have hrest : (processREGLIST S q).run g =
        (if (countReg g.tag).dataLeft = 0 then pure () else registerREGLIST S (upper q) : M G Unit).run g₁ := by
      rw [← htag]
      show ((registerREGLIST S (lower q)).run g).bind _ = _
      rw [hfirst]
      rfl
    rw [hrest]
    by_cases hodd : 2 * f.read + 1 = items f.tag
    · rw [if_pos (hleft.mpr hodd)]
      refine ⟨gs, internalQ, ?_, ?_⟩
      · rw [if_neg (by omega)]
        show ((process S 1 _).run g).bind _ = _
        rw [hprocess]
        rfl
      · rw [if_pos (hleft.mpr hodd)]
        rfl
    · have hodd' : (countReg g.tag).dataLeft ≠ 0 := fun h0 => hodd (hleft.mp h0)
      rw [if_neg hodd', if_neg hodd']
      have hnext : Counts f.tag (2 * f.read + 1) (countReg g.tag) :=
        counts_countReg hr.regCount hc (by show 2 * f.read < _; omega)
      let g₂ : GraphicsInterface G := { g with
        gs := gs
        internalQ := internalQ }
      obtain ⟨gs', internalQ', hprocess', hpath'⟩ :=
        process_REGLIST (S := S) g₂ (f.item (2 * f.read + 1) ((upper q).setWidth 128))
      have hdescriptor : nextReg g₁.tag = (f.item (2 * f.read + 1) ((upper q).setWidth 128)).descriptor.setWidth 8 := by
        rw [htag]
        exact nextReg_eq (reads_countReg hr) hnext
      have hsecond : (registerREGLIST S (upper q)).run g₁ = some ((), { g₁ with
          path := Function.update g₁.path g.activePath (countReg (countReg g.tag))
          gs := gs'
          internalQ := internalQ' }) := by
        rw [← lower_setWidth (upper q), ← htag]
        exact hpath' g₁.path hdescriptor
      refine ⟨gs', internalQ', ?_, ?_⟩
      · rw [if_pos (by omega)]
        show ((process S 1 _).run g).bind _ = _
        rw [hprocess]
        show ((process S 1 _).run g₂).bind _ = _
        rw [hprocess']
        rfl
      · rw [hsecond]
        show some ((), { g with path := Function.update (Function.update _ _ _) _ _, gs := _, internalQ := _ }) = _
        rw [Function.update_idem]

/-- A quadword of data is read. -/
theorem feedData_run (h : Follows f g.tag) (hread : f.read < quads f.tag) : ∃ gs internalQ,
    (feedData S q).run g = some ((), { g with
      path := Function.update g.path g.activePath (readData g.tag)
      gs := gs
      internalQ := internalQ }) := by
  rcases FLG_cases f.tag with hflg | hflg | hflg
  · obtain ⟨gs, internalQ, -, hfeed⟩ := feedData_items (S := S) (q := q) h hread (.inl hflg)
    exact ⟨gs, internalQ, hfeed⟩
  · obtain ⟨gs, internalQ, -, hfeed⟩ := feedData_items (S := S) (q := q) h hread (.inr hflg)
    exact ⟨gs, internalQ, hfeed⟩
  · have hr : Reads f.tag g.tag := h.reads hread
    have hformat : g.tag.format.toNat = (FLG f.tag).toNat := format_toNat hr
    refine ⟨S.exec (.write64 0x54 (q.extractLsb' 64 64)) (S.exec (.write64 0x54 (q.extractLsb' 0 64)) g.gs),
      g.internalQ, ?_⟩
    rw [readData_IMAGE hr hflg]
    unfold feedData
    rcases hflg with hflg | hflg
    all_goals
      rw [hflg] at hformat
      simp only [StateT.run_bind, StateT.run_get, Option.pure_def, Option.bind_eq_bind, Option.bind_some, hformat]
      rfl

/-- A tag is read. -/
theorem feedTag_run (g : GraphicsInterface G) (q : Quad) : ∃ gs pathStatus,
    (feedTag S q).run g = some ((), { g with
      path := Function.update g.path g.activePath (readTag g.tag (lower q) (upper q))
      pathStatus := pathStatus
      internalQ := 0x3F800000
      gs := gs }) := by
  unfold feedTag
  simp only [modifyTag, issue, StateT.run_bind, StateT.run_get, StateT.run_modify, Option.pure_def,
    Option.bind_eq_bind, Option.bind_some]
  split_ifs
  all_goals exact ⟨_, _, rfl⟩

/-- The quadword has been read, and its path is where it should be. -/
structure HasRead (f : Frame) (q : Quad) (g g' : GraphicsInterface G) : Prop where
  activePath : g'.activePath = g.activePath
  log : g'.log = g.log
  others : ∀ p, p ≠ g.activePath → g'.path p = g.path p
  follows : Follows (f.next q) g'.tag
  endOfPacket : g'.tag.endOfPacket = EOP (f.next q).tag

theorem hasRead_update {t : GIFtag} {g' : GraphicsInterface G} (ha : g'.activePath = g.activePath)
    (hl : g'.log = g.log) (hp : g'.path = Function.update g.path g.activePath t)
    (hf : Follows (f.next q) t) (he : t.endOfPacket = EOP (f.next q).tag) : HasRead f q g g' := by
  have htag : g'.tag = t := by
    unfold GraphicsInterface.tag
    rw [ha, hp, Function.update_self]
  refine ⟨ha, hl, fun p hne => ?_, htag ▸ hf, htag ▸ he⟩
  rw [hp, Function.update_of_ne hne]

theorem read_run (h : Follows f g.tag) : ∃ g', HasRead f q g g' ∧ (read S f q).run g = some ((), g') ∧
    (if g.tag.dataLeft = 0 then feedTag S q else feedData S q).run g = some ((), g') := by
  unfold read
  by_cases hcomplete : f.read = quads f.tag
  · obtain ⟨gs, pathStatus, hfeed⟩ := feedTag_run (S := S) g q
    rw [if_pos (h.left.mpr hcomplete), if_pos hcomplete, hfeed]
    have hend : (readTag g.tag (lower q) (upper q)).endOfPacket = EOP (f.next q).tag := by
      rw [next_of_complete hcomplete]
      exact (readTag_reads g.tag).endOfPacket
    refine ⟨_, ?_, rfl, rfl⟩
    exact hasRead_update rfl rfl rfl (follows_tag hcomplete) hend
  · have hread : f.read < quads f.tag := Nat.lt_of_le_of_ne h.le hcomplete
    have hend : (readData g.tag).endOfPacket = EOP (f.next q).tag := by
      rw [next_of_lt hread]
      exact (readData_reads (h.reads hread)).endOfPacket
    rw [if_neg (fun h0 => hcomplete (h.left.mp h0)), if_neg hcomplete]
    by_cases hflg : FLG f.tag = 0 ∨ FLG f.tag = 1
    · obtain ⟨gs, internalQ, hitems, hfeed⟩ := feedData_items (S := S) (q := q) h hread hflg
      rw [if_pos hflg, hfeed]
      refine ⟨_, ?_, ?_, rfl⟩
      · exact hasRead_update rfl rfl rfl (follows_data h hread) hend
      show (((f.items q).forM (process S (FLG f.tag))).run g).bind _ = _
      rw [hitems]
      rfl
    · obtain ⟨gs, internalQ, hfeed⟩ := feedData_run (S := S) (q := q) h hread
      rw [if_neg hflg, hfeed]
      refine ⟨_, ?_, rfl, rfl⟩
      exact hasRead_update rfl rfl rfl (follows_data h hread) hend

/-! ### The paths -/

/-- What the path `p` has been fed. -/
def fedTo (p : Path) (log : List Event) : List Quad := log.filterMap fun
  | .fed path q => if path = p then some q else none
  | _ => none

/-- Every path is where its stream is. -/
def Framed (g : GraphicsInterface G) : Prop := ∀ p, Follows (frame (fedTo p g.log)) (g.path p)

theorem fedTo_append (p : Path) (log log' : List Event) : fedTo p (log ++ log') = fedTo p log ++ fedTo p log' :=
  List.filterMap_append

theorem frame_append (qs : List Quad) (q : Quad) : frame (qs ++ [q]) = (frame qs).next q := List.foldl_concat ..

theorem HasRead.ends_iff {g' : GraphicsInterface G} (h : HasRead f q g g') :
    (g'.tag.dataLeft = 0 ∧ g'.tag.endOfPacket = true) ↔ (f.next q).ends := by
  rw [h.follows.left, h.endOfPacket]
  rfl

/-! ### The end of a packet -/

/-- The paths are where they were. -/
structure Still (g g' : GraphicsInterface G) : Prop where
  path : g'.path = g.path
  fedTo : ∀ p, fedTo p g'.log = fedTo p g.log

theorem still_arbitrates : Steps.Arbitrates (Still : GraphicsInterface G → GraphicsInterface G → Prop) where
  refl _ := ⟨rfl, fun _ => rfl⟩
  trans _ _ _ h h' := ⟨h'.path.trans h.path, fun p => (h'.fedTo p).trans (h.fedTo p)⟩
  active g new h := by
    refine ⟨rfl, fun p => ?_⟩
    rw [fedTo_append]
    exact List.append_nil _
  queue _ _ := ⟨rfl, fun _ => rfl⟩
  request _ _ := ⟨rfl, fun _ => rfl⟩
  issue _ _ := ⟨rfl, fun _ => rfl⟩

theorem Still.framed (h : Still g g') (hg : Framed g) : Framed g' := by
  intro p
  rw [h.fedTo p, h.path]
  exact hg p

theorem endPacket_still : Within Still (endPacket S) := by
  have ha := still_arbitrates (G := G)
  have hfinish : Within Still (finishOutput S) := by
    refine ha.bind ha.get fun _ => within_ite (fun _ => ?_) fun _ => ha.pure _
    exact ha.bind (ha.command _) fun _ => ha.bind (ha.command _) fun _ => within_modify fun _ => ⟨rfl, fun _ => rfl⟩
  refine ha.bind (within_modify fun _ => ⟨rfl, fun _ => rfl⟩) fun _ => ha.bind hfinish fun _ =>
    ha.bind (ha.command _) fun _ => ha.bind ha.get fun _ => ha.deactivatePATH _

/-- The active path is deactivated if it is idle. -/
theorem deactivatePATH_released (h : g.activePath ≠ .PATH0) (hidle : g.pathStatus g.activePath = 4) :
    Ensures (deactivatePATH S g.activePath) g fun _ g' => g'.activePath ≠ g.activePath := by
  unfold deactivatePATH
  rw [ensures_bind, ensures_get, if_pos hidle, ensures_bind, setQueue, ensures_modify, if_pos rfl, ensures_bind,
    setActive, ensures_modify]
  refine (Arbiter.arbitratePaths_asks _).mono fun _ g' hasks hactive => ?_
  -- The path is neither active nor in the queue when the next one is chosen.
  obtain ⟨-, hqueued | hzero⟩ := hasks g.activePath ⟨h, .inr hactive⟩
  · exact (Arbiter.mem_removed hqueued).2 rfl
  · exact h hzero.symm

theorem endPacket_released (h : g.activePath ≠ .PATH0) :
    Ensures (endPacket S) g fun _ g' => g'.activePath ≠ g.activePath := by
  simp only [endPacket, issue, ensures_bind, ensures_modify, ensures_get]
  refine (Feed.finishOutput_feeds _).mono fun _ g₁ hg₁ => ?_
  obtain ⟨hfeeds, hstatus⟩ := hg₁
  have hactive : g₁.activePath = g.activePath := hfeeds.activePath
  have hidle : g₁.pathStatus g₁.activePath = 4 := by
    rw [hstatus, hactive]
    exact Function.update_self _ _ _
  rw [← hactive] at h ⊢
  let g₂ : GraphicsInterface G := { g₁ with gs := S.exec .wakeThread g₁.gs }
  exact deactivatePATH_released (g := g₂) h hidle

/-! ### Feeding -/

theorem endPacket_ends : Ends (endPacket S) := by
  have hfinish : Ends (finishOutput S) :=
    ends_bind ends_get fun _ => ends_ite
      (ends_bind (ends_modify _) fun _ => ends_bind (ends_modify _) fun _ => ends_modify _) (ends_pure _)
  have harbitrate : Ends (arbitratePaths : M G Unit) := by
    refine ends_bind ends_get fun g => ?_
    split
    · exact ends_pure _
    · exact ends_ite (ends_pure _) (ends_bind (ends_modify _) fun _ => ends_bind (ends_modify _) fun _ =>
        ends_ite (ends_modify _) (ends_pure _))
  have hdeactivate (index : Path) : Ends (deactivatePATH S index) :=
    ends_bind ends_get fun _ => ends_ite
      (ends_bind (ends_modify _) fun _ => ends_ite (ends_bind (ends_modify _) fun _ => harbitrate) (ends_pure _))
      (ends_ite (ends_modify _) (ends_pure _))
  exact ends_bind (ends_modify _) fun _ => ends_bind hfinish fun _ => ends_bind (ends_modify _) fun _ =>
    ends_bind ends_get fun _ => hdeactivate _

/-- What feeding a quadword does to the paths. -/
structure Feeds (q : Quad) (g g' : GraphicsInterface G) : Prop where
  framed : Framed g'
  fedTo : fedTo g.activePath g'.log = fedTo g.activePath g.log ++ [q]
  others : ∀ p, p ≠ g.activePath → g'.path p = g.path p ∧ Framing.fedTo p g'.log = Framing.fedTo p g.log
  released : g.activePath ≠ .PATH0 →
    (g'.activePath ≠ g.activePath ↔ (frame (Framing.fedTo g.activePath g'.log)).ends)

theorem feedGIF_run (h : Framed g) (q : Quad) : ∃ g', Feeds q g g' ∧ (feedGIF S q).run g = some ((), g') ∧
    (feed S (frame (fedTo g.activePath g.log)) q).run g = some ((), g') := by
  let f : Frame := frame (fedTo g.activePath g.log)
  let g₀ : GraphicsInterface G := { g with
    log := g.log ++ [.fed g.activePath q]
    outputtingPath := true }
  have hfollows : Follows f g₀.tag := h g.activePath
  obtain ⟨g₁, hread, hrun, hrun'⟩ := read_run (g := g₀) (f := f) (S := S) (q := q) hfollows
  have hfedTo (p : Path) : fedTo p g₁.log = fedTo p g.log ++ if g.activePath = p then [q] else [] := by
    rw [hread.log]
    show fedTo p (g.log ++ [.fed g.activePath q]) = _
    rw [fedTo_append]
    split_ifs with hp <;> simp [fedTo, hp]
  have hframe : frame (fedTo g.activePath g₁.log) = f.next q := by
    rw [hfedTo, if_pos rfl, frame_append]
  have hothers (p : Path) (hp : p ≠ g.activePath) : g₁.path p = g.path p ∧ fedTo p g₁.log = fedTo p g.log := by
    refine ⟨hread.others p hp, ?_⟩
    rw [hfedTo, if_neg hp.symm, List.append_nil]
  have hframed : Framed g₁ := by
    intro p
    by_cases hp : p = g.activePath
    · have hfollows : Follows (f.next q) (g₁.path g₁.activePath) := hread.follows
      rw [hread.activePath] at hfollows
      rw [hp, hframe]
      exact hfollows
    · obtain ⟨hpath, hfed⟩ := hothers p hp
      rw [hpath, hfed]
      exact h p
  have hactive : g₁.activePath = g.activePath := hread.activePath
  have hGIF : (feedGIF S q).run g = (if (f.next q).ends then endPacket S else pure ()).run g₁ := by
    have hrest : (feedGIF S q).run g = ((if g₀.tag.dataLeft = 0 then feedTag S q else feedData S q).run g₀).bind
        fun r => (if r.2.tag.dataLeft = 0 ∧ r.2.tag.endOfPacket then endPacket S else pure ()).run r.2 := rfl
    rw [hrest, hrun', Option.bind_some]
    exact congrArg (fun m : M G Unit => m.run g₁) (if_congr hread.ends_iff rfl rfl)
  have hspec : (feed S f q).run g = (if (f.next q).ends then endPacket S else pure ()).run g₁ := by
    have hrest : (feed S f q).run g = ((read S f q).run g₀).bind
        fun r => (if (f.next q).ends then endPacket S else pure ()).run r.2 := rfl
    rw [hrest, hrun, Option.bind_some]
  rw [hGIF, hspec]
  by_cases hends : (f.next q).ends
  · rw [if_pos hends]
    obtain ⟨⟨⟨⟩, g₂⟩, hend⟩ := endPacket_ends (S := S) g₁
    have hstill : Still g₁ g₂ := endPacket_still g₁ _ _ hend
    refine ⟨g₂, ⟨hstill.framed hframed, ?_, fun p hp => ?_, fun h0 => ?_⟩, hend, hend⟩
    · rw [hstill.fedTo, hfedTo, if_pos rfl]
    · rw [hstill.path, hstill.fedTo]
      exact hothers p hp
    · rw [hstill.fedTo, hframe, ← hactive]
      exact iff_of_true (endPacket_released (hactive ▸ h0) _ _ hend) hends
  · rw [if_neg hends]
    refine ⟨g₁, ⟨hframed, ?_, hothers, fun _ => ?_⟩, rfl, rfl⟩
    · rw [hfedTo, if_pos rfl]
    · rw [hframe]
      exact iff_of_false (fun hne => hne hactive) hends

/-! ### The data of a packet -/

/-- The data of the item `i`, where `data k` is the quadword `k` after the tag. -/
def datum (tag : Quad) (data : ℕ → Quad) (i : ℕ) : Quad :=
  if FLG tag = 0 then data i
  else if i % 2 = 0 then (lower (data (i / 2))).setWidth 128
  else (upper (data (i / 2))).setWidth 128

/-- The items of the first quadwords of REGLIST. -/
theorem reglist_items {tag : Quad} (data : ℕ → Quad) (hflg : FLG tag = 1) {k : ℕ} (hk : 2 * k ≤ items tag + 1) :
    (List.range k).flatMap (fun k => (Frame.mk tag k).items (data k)) =
      (List.range (min (2 * k) (items tag))).map fun i => Item.mk (descriptor tag (i % NREG tag)) (datum tag data i) := by
  induction k with
  | zero => simp
  | succ k ih =>
    rw [List.range_succ, List.flatMap_append, ih (by omega), List.flatMap_singleton, Nat.min_eq_left (by omega)]
    have hfirst : (Frame.mk tag k).item (2 * k) ((lower (data k)).setWidth 128) =
        Item.mk (descriptor tag (2 * k % NREG tag)) (datum tag data (2 * k)) := by
      unfold datum
      rw [hflg, if_neg (by decide), if_pos (by omega), show 2 * k / 2 = k by omega]
      rfl
    have hsecond : (Frame.mk tag k).item (2 * k + 1) ((upper (data k)).setWidth 128) =
        Item.mk (descriptor tag ((2 * k + 1) % NREG tag)) (datum tag data (2 * k + 1)) := by
      unfold datum
      rw [hflg, if_neg (by decide), if_neg (by omega), show (2 * k + 1) / 2 = k by omega]
      rfl
    have hitems : (Frame.mk tag k).items (data k) =
        (Frame.mk tag k).item (2 * k) ((lower (data k)).setWidth 128) ::
          if 2 * k + 1 < items tag then [(Frame.mk tag k).item (2 * k + 1) ((upper (data k)).setWidth 128)]
          else [] := by
      unfold Frame.items
      rw [hflg]
      rfl
    rw [hitems, hfirst, hsecond]
    by_cases hodd : 2 * k + 1 < items tag
    · rw [if_pos hodd, Nat.min_eq_left (by omega), show 2 * (k + 1) = 2 * k + 1 + 1 by omega, List.range_succ,
        List.range_succ, List.map_append, List.map_append, List.append_assoc]
      rfl
    · rw [if_neg hodd, Nat.min_eq_right (by omega), show items tag = 2 * k + 1 by omega, List.range_succ,
        List.map_append]
      rfl

/-- The items of a packet: the descriptors are used in turn, and no data is left out. -/
theorem packet_items {tag : Quad} (data : ℕ → Quad) (hflg : FLG tag = 0 ∨ FLG tag = 1) :
    (List.range (quads tag)).flatMap (fun k => (Frame.mk tag k).items (data k)) =
      (List.range (items tag)).map fun i => Item.mk (descriptor tag (i % NREG tag)) (datum tag data i) := by
  rcases hflg with hflg | hflg
  · have hitems (k : ℕ) : (Frame.mk tag k).items (data k) =
        [Item.mk (descriptor tag (k % NREG tag)) (datum tag data k)] := by
      unfold Frame.items datum
      rw [hflg]
      rfl
    rw [quads_PACKED hflg, ← List.flatMap_pure_eq_map]
    exact congrArg (List.flatMap · _) (funext hitems)
  · rw [quads_REGLIST hflg, reglist_items data hflg (by omega), Nat.min_eq_right (by omega)]

/-! ### Runs -/

theorem framed_parts : Steps.Parts S (fun g g' : GraphicsInterface G => Framed g → Framed g') := by
  have hstill {α : Type} {m : M G α} (h : Within Still m) : Within (fun g g' => Framed g → Framed g') m :=
    h.mono fun _ _ hs hg => hs.framed hg
  have ha := still_arbitrates (G := G)
  constructor
  case refl => exact fun _ => id
  case trans => exact fun _ _ _ h h' hg => h' (h hg)
  case requestPATH => exact fun index _ can => hstill (ha.requestPATH index can)
  case deactivatePATH => exact fun index => hstill (ha.deactivatePATH index)
  case path3Masked => exact hstill ha.path3Masked
  case pathActive => exact fun index can => hstill (ha.pathActive index can)
  case feedGIF =>
    intro q g _ g' hrun h
    obtain ⟨g₁, hfeeds, hrun₁, -⟩ := feedGIF_run (S := S) h q
    rw [hrun₁] at hrun
    obtain rfl : g₁ = g' := congrArg Prod.snd (Option.some.inj hrun)
    exact hfeeds.framed
  case sent =>
    intro g q hg p
    rw [fedTo_append]
    simpa [fedTo] using hg p
  case aside =>
    intro g g' hpath _ _ hlog hg p
    rw [hpath, hlog]
    exact hg p

theorem init_framed (h : Init S g) : Framed g := by
  obtain ⟨hlog, g₀, hreset⟩ := h
  have hr : Ensures (reset S) g₀ fun _ g' => ∀ p, (g'.path p).dataLeft = 0 := by
    rw [reset, ensures_bind, ensures_modify, issue, ensures_modify]
    exact fun _ => rfl
  intro p
  have hleft : (g.path p).dataLeft = 0 := hr _ _ hreset p
  have hquads : quads 0 = 0 := quads_eq_zero.mpr rfl
  rw [hlog]
  constructor
  case le => exact Nat.zero_le _
  case left => exact iff_of_true hleft hquads.symm
  case reads => exact fun hlt => absurd hlt (by show ¬ 0 < quads 0; omega)
  case counts => exact fun hlt => absurd hlt (by show ¬ 0 < quads 0; omega)

/-- **The framing of the paths**: in every reachable state each path is where the quadwords that it was
fed put it, the next one does what it does there, and the items of a packet are all processed, in
order. -/
theorem framing (S : GraphicsSynthesizer G) :
    (∀ g, Reaches (Init S) (Step S) g → Framed g) ∧
    (∀ g, Framed g → ∀ q, ∃ g', Feeds q g g' ∧ (feedGIF S q).run g = some ((), g') ∧
      (feed S (frame (fedTo g.activePath g.log)) q).run g = some ((), g')) ∧
    ∀ tag (data : ℕ → Quad), FLG tag = 0 ∨ FLG tag = 1 →
      (List.range (quads tag)).flatMap (fun k => (Frame.mk tag k).items (data k)) =
        (List.range (items tag)).map fun i => Item.mk (descriptor tag (i % NREG tag)) (datum tag data i) := by
  refine ⟨fun g h => ?_, fun g h q => feedGIF_run h q, fun tag data hflg => packet_items data hflg⟩
  exact Reaches.invariant (I := fun g => Framed g) (fun _ => init_framed)
    (fun _ a _ hg hs => framed_parts.exec a _ () _ hs hg) h

/-- PATH1 interrupts PATH3 in an image, and begins a packet of its own. -/
def interrupted : List (Act Unit) :=
  [.writeMODE 4, .processGIF 0x0800000000008002#128, .requestPATH .PATH1 true,
    .kickPATH1 0x51000000000008002#128]

theorem framing_interrupted : ∃ g, interrupted.foldlM (next silentGS) powerOn = some g ∧ Framed g ∧
    frame (fedTo .PATH1 g.log) = ⟨0x51000000000008002#128, 0⟩ ∧
    (fedTo .PATH3 g.log).length = 1 ∧ ∃ g', Feeds 7 g g' ∧ (feedGIF silentGS 7).run g = some ((), g') ∧
      (feed silentGS ⟨0x51000000000008002#128, 0⟩ 7).run g = some ((), g') := by
  have hrun : (interrupted.foldlM (next silentGS) powerOn).map (fun g : GraphicsInterface Unit =>
      (g.activePath, frame (fedTo .PATH1 g.log), (fedTo .PATH3 g.log).length)) =
      some (.PATH1, ⟨0x51000000000008002#128, 0⟩, 1) := by
    decide
  obtain ⟨g, hg, hstate⟩ := Option.map_eq_some_iff.mp hrun
  obtain ⟨hactive, hframe, hlength⟩ : g.activePath = .PATH1 ∧
      frame (fedTo .PATH1 g.log) = ⟨0x51000000000008002#128, 0⟩ ∧ (fedTo .PATH3 g.log).length = 1 := by
    simpa only [Prod.mk.injEq] using hstate
  have hframed : Framed g := (framing silentGS).1 g (reaches_of_acts init_powerOn hg)
  obtain ⟨g', hfeeds, hrun', hfeed⟩ := (framing silentGS).2.1 g hframed 7
  rw [hactive, hframe] at hfeed
  exact ⟨g, hg, hframed, hframe, hlength, g', hfeeds, hrun', hfeed⟩

end DobieStation.Gif.Framing
