import DobieStation.Gif.Steps

/-! # The arbiter of the GIF

In every reachable state no path waits unless another is active, the active path does not wait, and
only the paths 1 to 3 do (`Owned`). Whenever the active path changes, the new one has a lower number
than those that wait, and the old one is idle, or PATH3 in an image in intermittent mode (`Fair`).

The mask of PATH3 is not looked at by the arbiter: PATH3 can become active while it is masked
(`masked_elected`). `path3_masked` takes it out as soon as it is called. -/

namespace DobieStation.Gif.Arbiter

open DobieStation.Lib.Hoare DobieStation.Lib.Reach
open DobieStation.Dma.Model (Quad)
open DobieStation.Gif.Model DobieStation.Gif.Feed

variable {G : Type} {S : GraphicsSynthesizer G} {g g' : GraphicsInterface G} {p index : Path}

/-! ### The invariant -/

/-- The new path is the lowest of those that ask, and the old one could be replaced. -/
structure Fair (h : Handover) : Prop where
  lowest : h.new ≠ .PATH0 → h.old ≠ h.new → ∀ i : Path, h.queue.getLsbD i.index = true → h.new.index < i.index
  replaceable : h.old ≠ .PATH0 → h.old ≠ h.new → h.status = 4 ∨
    (h.old = .PATH3 ∧ h.intermittent = true ∧ (h.status = 2 ∨ h.status = 3))

/-- The queue holds no path but 1, 2 and 3, and not the active one. -/
structure Queue (g : GraphicsInterface G) : Prop where
  apart : g.queued g.activePath = false
  paths : ∀ i, g.pathQueue.getLsbD i = true → 1 ≤ i ∧ i ≤ 3
  fair : ∀ h, Event.handover h ∈ g.log → Fair h

structure Owned (g : GraphicsInterface G) : Prop extends Queue g where
  idle : g.activePath = .PATH0 → g.pathQueue = 0

/-- The active path has the lowest number. -/
def Led (g : GraphicsInterface G) : Prop :=
  (g.activePath = .PATH0 → g.pathQueue = 0) ∧
    ∀ i : Path, g.queued i = true → g.activePath.index < i.index

/-- The active path can be replaced. -/
def Replaceable (g : GraphicsInterface G) : Prop :=
  g.activePath = .PATH0 ∨ g.pathStatus g.activePath = 4 ∨ (g.activePath = .PATH3 ∧ g.interruptible = true)

theorem Queue.owned (h : Queue g) (hl : Led g) : Owned g := ⟨h, hl.1⟩

/-! ### The operations of the arbiter -/

theorem index_inj {p q : Path} (h : p.index = q.index) : p = q := by
  cases p <;> cases q <;> first | rfl | cases h

theorem index_le (p : Path) : p.index ≤ 3 := by cases p <;> decide

theorem index_pos (h : p ≠ .PATH0) : 1 ≤ p.index := by
  cases p with
  | PATH0 => exact absurd rfl h
  | _ => decide

theorem bit_getLsbD (p : Path) (i : ℕ) : (bit p).getLsbD i = decide (p.index = i) := by
  have hp : p.index < 8 := by have := index_le p; omega
  unfold bit
  rw [BitVec.getLsbD_twoPow, decide_eq_true hp, Bool.true_and]

/-- The queue that the arbiter leaves. -/
def arbitrated (g : GraphicsInterface G) (p : Path) : BitVec 8 :=
  (if g.activePath ≠ .PATH0 then g.pathQueue ||| bit g.activePath else g.pathQueue) &&& ~~~bit p

theorem mem_arbitrated {i : ℕ} (h : (arbitrated g p).getLsbD i = true) : p.index ≠ i ∧
    (g.pathQueue.getLsbD i = true ∨ (g.activePath.index = i ∧ g.activePath ≠ .PATH0)) := by
  unfold arbitrated at h
  rw [BitVec.getLsbD_and, BitVec.getLsbD_not, bit_getLsbD] at h
  split_ifs at h with ha
  · rw [BitVec.getLsbD_or, bit_getLsbD] at h
    simp at h
    refine ⟨h.2.2, ?_⟩
    rcases h.1 with h | h
    · exact .inl h
    · exact .inr ⟨h, ha⟩
  · simp at h
    exact ⟨h.2.2, .inl h.1⟩

theorem Queue.queued_ne (h : Queue g) (hq : g.queued p = true) : p ≠ .PATH0 := by
  rintro rfl
  have := (h.paths 0 hq).1
  omega

theorem Queue.find_none (h : Queue g)
    (hf : [.PATH1, .PATH2, .PATH3].find? (fun p => g.queued p) = none) : g.pathQueue = 0 := by
  rw [List.find?_eq_none] at hf
  apply BitVec.eq_of_getLsbD_eq
  intro i hi
  by_contra hq
  simp only [BitVec.ofNat_eq_ofNat, BitVec.getLsbD_zero, Bool.not_eq_false] at hq
  have hi := h.paths i hq
  rcases (show i = 1 ∨ i = 2 ∨ i = 3 by omega) with rfl | rfl | rfl
  · exact hf .PATH1 (by simp) hq
  · exact hf .PATH2 (by simp) hq
  · exact hf .PATH3 (by simp) hq

/-- The path that is found is the lowest. -/
theorem Queue.find_some (h : Queue g)
    (hf : [.PATH1, .PATH2, .PATH3].find? (fun p => g.queued p) = some p) :
    g.queued p = true ∧ ∀ i : Path, g.queued i = true → p.index ≤ i.index := by
  have hq : g.queued p = true := by simpa using List.find?_some hf
  refine ⟨hq, fun i hi => ?_⟩
  cases i with
  | PATH0 => exact absurd rfl (h.queued_ne hi)
  | PATH1 =>
    simp [hi] at hf
    exact hf ▸ le_rfl
  | PATH2 =>
    cases p with
    | PATH3 => cases h1 : g.queued .PATH1 <;> simp [h1, hi] at hf
    | _ => decide
  | PATH3 => exact index_le p

/-- The paths that are left have higher numbers. -/
theorem lt_of_arbitrated (hlow : ∀ i : Path, g.queued i = true → p.index ≤ i.index)
    (ha : ¬ (g.activePath ≠ .PATH0 ∧ g.activePath.index < p.index)) {i : Path}
    (hi : (arbitrated g p).getLsbD i.index = true) : p.index < i.index := by
  obtain ⟨hne, hi | ⟨hi, h0⟩⟩ := mem_arbitrated hi
  · exact lt_of_le_of_ne (hlow i hi) hne
  · rw [← hi] at hne ⊢
    exact lt_of_le_of_ne (not_lt.mp fun hlt => ha ⟨h0, hlt⟩) hne

theorem fair_arbitrated (hg : Replaceable g ∨ Led g)
    (hqp : g.queued p = true) (hlow : ∀ i : Path, g.queued i = true → p.index ≤ i.index)
    (ha : ¬ (g.activePath ≠ .PATH0 ∧ g.activePath.index < p.index)) :
    Fair ⟨g.activePath, p, g.pathStatus g.activePath, g.intermittentMode, arbitrated g p⟩ where
  lowest _ _ _ hi := lt_of_arbitrated hlow ha hi
  replaceable h0 _ := by
    rcases hg with (hg | hg | ⟨hg, hint⟩) | hg
    · exact absurd hg h0
    · exact .inl hg
    · right
      simp only [GraphicsInterface.interruptible, Bool.and_eq_true, Bool.or_eq_true,
        beq_iff_eq] at hint
      refine ⟨hg, hint.1, ?_⟩
      dsimp only
      rw [hg]
      exact hint.2
    · exact absurd ⟨h0, hg.2 p hqp⟩ ha

theorem Queue.handover (h : Queue g) {e : Handover} (he : Fair e) {h' : Handover}
    (hh' : Event.handover h' ∈ g.log ++ [.handover e]) : Fair h' := by
  rcases List.mem_append.mp hh' with hh' | hh'
  · exact h.fair h' hh'
  · simp only [List.mem_singleton, Event.handover.injEq] at hh'
    exact hh' ▸ he

theorem arbitratePaths_led (h : Queue g) (hg : Replaceable g ∨ Led g) :
    Ensures arbitratePaths g fun _ g' => Queue g' ∧ Led g' := by
  unfold arbitratePaths
  rw [ensures_bind, ensures_get]
  split
  · rename_i hf
    have h0 := h.find_none hf
    refine ensures_pure.mpr ⟨h, fun _ => h0, fun i hi => ?_⟩
    unfold GraphicsInterface.queued at hi
    rw [h0] at hi
    simp at hi
  · rename_i p hf
    obtain ⟨hqp, hlow⟩ := h.find_some hf
    rw [ensures_ite]
    refine ⟨fun ha => ensures_pure.mpr ⟨h, fun h0 => absurd h0 ha.1, fun i hi => ?_⟩, fun ha => ?_⟩
    · exact lt_of_lt_of_le ha.2 (hlow i hi)
    · have hfair := fair_arbitrated hg hqp hlow ha
      have hp0 := h.queued_ne hqp
      simp only [setQueue, setActive, request, ensures_bind, ensures_modify, ensures_ite,
        ensures_pure]
      change (_ → Queue { g with
          pathQueue := arbitrated g p, activePath := p, log := _, toDMAC := _ } ∧ _) ∧
        (_ → Queue { g with pathQueue := arbitrated g p, activePath := p, log := _ } ∧ _)
      have hq (d : List Dma.Model.Request) : Queue { g with
          pathQueue := arbitrated g p
          activePath := p
          log := g.log ++ [.handover ⟨g.activePath, p, g.pathStatus g.activePath,
            g.intermittentMode, arbitrated g p⟩]
          toDMAC := d } := by
        refine ⟨?_, fun i hi => ?_, fun h' hh' => ?_⟩
        · exact Bool.eq_false_iff.mpr fun hm => (mem_arbitrated hm).1 rfl
        · obtain ⟨-, hi | ⟨hi, h0⟩⟩ := mem_arbitrated hi
          · exact h.paths i hi
          · have := index_pos h0
            have := index_le g.activePath
            omega
        · exact h.handover hfair hh'
      have hl (i : Path) (hi : (arbitrated g p).getLsbD i.index = true) : p.index < i.index :=
        lt_of_arbitrated hlow ha hi
      exact ⟨fun _ => ⟨hq _, fun h0 => absurd h0 hp0, hl⟩,
        fun _ => ⟨hq _, fun h0 => absurd h0 hp0, hl⟩⟩

/-- The path is active or waits. -/
def Asks (g : GraphicsInterface G) (i : Path) : Prop :=
  i ≠ .PATH0 ∧ (g.queued i = true ∨ g.activePath = i)

theorem arbitratePaths_asks (g : GraphicsInterface G) :
    Ensures arbitratePaths g fun _ g' => ∀ i, Asks g' i → Asks g i := by
  unfold arbitratePaths
  rw [ensures_bind, ensures_get]
  split
  · exact ensures_pure.mpr fun _ h => h
  · rename_i p hf
    have hqp : g.queued p = true := by simpa using List.find?_some hf
    rw [ensures_ite]
    refine ⟨fun _ => ensures_pure.mpr fun _ h => h, fun _ => ?_⟩
    have hasks (i : Path) (h0 : i ≠ .PATH0)
        (hi : (arbitrated g p).getLsbD i.index = true ∨ p = i) :
        Asks g i := by
      refine ⟨h0, ?_⟩
      rcases hi with hi | rfl
      · rcases (mem_arbitrated hi).2 with hi | ⟨hi, -⟩
        · exact .inl hi
        · exact .inr (index_inj hi)
      · exact .inl hqp
    simp only [setQueue, setActive, request, ensures_bind, ensures_modify, ensures_ite,
      ensures_pure]
    exact ⟨fun _ i hi => hasks i hi.1 hi.2, fun _ i hi => hasks i hi.1 hi.2⟩

/-- Everything but the arbiter keeps what it has. -/
theorem Owned.feeds (h : Owned g) (hf : Feeds g g') : Owned g' := by
  refine ⟨⟨?_, fun i hi => ?_, fun e he => ?_⟩, fun h0 => ?_⟩
  · unfold GraphicsInterface.queued
    rw [hf.activePath, hf.pathQueue]
    exact h.apart
  · rw [hf.pathQueue] at hi
    exact h.paths i hi
  · rw [hf.log] at he
    exact h.fair e he
  · rw [hf.pathQueue]
    exact h.idle (hf.activePath ▸ h0)

theorem mem_removed {i : ℕ} (h : (g.pathQueue &&& ~~~bit p).getLsbD i = true) :
    g.pathQueue.getLsbD i = true ∧ p.index ≠ i := by
  rw [BitVec.getLsbD_and, BitVec.getLsbD_not, bit_getLsbD] at h
  simp at h
  exact ⟨h.1, h.2.2⟩

/-- An idle path that is deactivated asks no more. -/
theorem deactivatePATH_owned (h : Owned g) (index : Path) :
    Ensures (deactivatePATH S index) g fun _ g' => Owned g' ∧
      (g.pathStatus index = 4 → ¬ Asks g' index ∧ (g.activePath = index → Led g')) := by
  unfold deactivatePATH
  rw [ensures_bind, ensures_get, ensures_ite]
  refine ⟨fun hidle => ?_, fun hbusy => ?_⟩
  · rw [ensures_bind, setQueue, ensures_modify, ensures_ite]
    refine ⟨fun ha => ?_, fun ha => ?_⟩
    · simp only [setActive, ensures_bind, ensures_modify]
      have hfair : Fair ⟨g.activePath, .PATH0, g.pathStatus g.activePath, g.intermittentMode,
          g.pathQueue &&& ~~~bit index⟩ :=
        ⟨fun h0 => absurd rfl h0, fun _ _ => .inl (ha ▸ hidle)⟩
      have hq : Queue { g with
          pathQueue := g.pathQueue &&& ~~~bit index
          activePath := .PATH0
          log := g.log ++ [.handover ⟨g.activePath, .PATH0, g.pathStatus g.activePath,
            g.intermittentMode, g.pathQueue &&& ~~~bit index⟩] } := by
        refine ⟨?_, fun i hi => h.paths i (mem_removed hi).1, fun _ => h.handover hfair⟩
        refine Bool.eq_false_iff.mpr fun hm => ?_
        have := h.paths 0 (mem_removed hm).1
        omega
      have hled := arbitratePaths_led hq (.inl (.inl rfl))
      refine (hled.and (arbitratePaths_asks _)).mono fun _ g' hg' => ?_
      obtain ⟨⟨hq', hl⟩, hasks⟩ := hg'
      refine ⟨hq'.owned hl, fun _ => ⟨fun hi => ?_, fun _ => hl⟩⟩
      obtain ⟨h0, hi | hi⟩ := hasks index hi
      · exact (mem_removed hi).2 rfl
      · exact h0 hi.symm
    · refine ensures_pure.mpr ⟨⟨⟨?_, fun i hi => h.paths i (mem_removed hi).1, h.fair⟩, ?_⟩, ?_⟩
      · refine Bool.eq_false_iff.mpr fun hm => ?_
        exact Bool.eq_false_iff.mp h.apart (mem_removed hm).1
      · intro h0
        have hq := h.idle h0
        dsimp only
        rw [hq]
        exact BitVec.zero_and
      · refine fun _ => ⟨fun hi => ?_, fun ha' => absurd ha' ha⟩
        rcases hi.2 with hi | hi
        · exact (mem_removed hi).2 rfl
        · exact ha hi
  · rw [ensures_ite]
    refine ⟨fun _ => ensures_modify.mpr ?_, fun _ => ensures_pure.mpr ⟨h, ?_⟩⟩
    · exact ⟨h.feeds ⟨rfl, rfl, rfl, rfl, rfl, rfl⟩, fun hidle => absurd hidle hbusy⟩
    · exact fun hidle => absurd hidle hbusy

/-- **The mask of PATH3**: where it is found to be masked, it asks no more. -/
theorem path3Masked_owned (h : Owned g) : Ensures (path3Masked S .PATH3) g fun masked g' =>
    Owned g' ∧ (masked = true → ¬ Asks g' .PATH3 ∧ (g.activePath = .PATH3 → Led g')) := by
  unfold path3Masked
  rw [ensures_bind, ensures_get, ensures_ite]
  refine ⟨fun hm => ?_, fun _ => ensures_pure.mpr ⟨h, nofun⟩⟩
  have hidle : g.pathStatus .PATH3 = 4 := by
    have hm := hm.2
    simp only [GraphicsInterface.masked, Bool.and_eq_true, beq_iff_eq] at hm
    exact hm.2
  rw [ensures_bind]
  refine (deactivatePATH_owned h .PATH3).mono fun _ g' hg' => ensures_pure.mpr ?_
  exact ⟨hg'.1, fun _ => hg'.2 hidle⟩

/-! ### Owned states stay owned -/

def Keeps (g g' : GraphicsInterface G) : Prop := Owned g → Owned g'

theorem keeps_bind {α β : Type} {m : M G α} {f : α → M G β} (hm : Within Keeps m)
    (hf : ∀ a, Within Keeps (f a)) : Within Keeps (m >>= f) :=
  within_bind (fun _ _ _ h h' hg => h' (h hg)) hm hf

theorem keeps_pure {α : Type} (a : α) : Within Keeps (pure a : M G α) := within_pure (fun _ => id) a

theorem keeps_get : Within Keeps (get : M G (GraphicsInterface G)) := within_get fun _ => id

theorem keeps_feeds {α : Type} {m : M G α} (h : Within Feeds m) : Within Keeps m :=
  h.mono fun _ _ hf hg => hg.feeds hf

theorem deactivatePATH_keeps (index : Path) : Within Keeps (deactivatePATH S index) :=
  fun _ => Ensures.imp fun h => (deactivatePATH_owned h index).mono fun _ _ h' => h'.1

theorem path3Masked_keeps : Within Keeps (path3Masked S .PATH3) :=
  fun _ => Ensures.imp fun h => (path3Masked_owned h).mono fun _ _ h' => h'.1

/-- Only PATH3 is interrupted, if it is interruptible or turns out to be masked. -/
theorem interruptPath3_keeps (index : Path) : Within Keeps (interruptPath3 S index) := by
  refine fun g => Ensures.imp fun h => ?_
  have hdone (g' : GraphicsInterface G) (hq : Queue g') (hg' : Replaceable g' ∨ Led g') :
      Ensures (do arbitratePaths; return true) g' fun _ g'' => Owned g'' := by
    rw [ensures_bind]
    refine (arbitratePaths_led hq hg').mono fun _ g'' hg'' => ensures_pure.mpr ?_
    exact hg''.1.owned hg''.2
  unfold interruptPath3
  rw [ensures_bind, ensures_get, ensures_ite]
  refine ⟨fun _ => ensures_pure.mpr h, fun ha => ?_⟩
  have ha := not_ne_iff.mp ha
  rw [ensures_ite]
  refine ⟨fun _ => ensures_pure.mpr h, fun _ => ?_⟩
  rw [ensures_bind, ensures_ite]
  refine ⟨fun hi => ensures_pure.mpr ?_, fun _ => ?_⟩
  · exact hdone g h.toQueue (.inl (.inr (.inr ⟨ha, hi⟩)))
  · refine (path3Masked_owned h).mono fun masked g' hg' => ?_
    rw [ensures_ite]
    refine ⟨fun hm => ?_, fun _ => ensures_pure.mpr hg'.1⟩
    exact hdone g' hg'.1.toQueue (.inr ((hg'.2 hm).2 ha))

theorem Owned.activate (h : Owned g) (hi : index ≠ .PATH0)
    (ha : g.activePath = .PATH0 ∨ g.activePath = index) : Owned { g with
      activePath := index
      log := g.log ++ [.handover ⟨g.activePath, index, g.pathStatus g.activePath,
        g.intermittentMode, g.pathQueue⟩] } := by
  have hempty (h0 : g.activePath = .PATH0) (i : ℕ) : g.pathQueue.getLsbD i = false := by
    rw [h.idle h0]
    exact BitVec.getLsbD_zero
  have hfair : Fair ⟨g.activePath, index, g.pathStatus g.activePath, g.intermittentMode,
      g.pathQueue⟩ := by
    rcases ha with h0 | rfl
    · exact ⟨fun _ _ i hq => absurd hq (by simp [hempty h0]), fun hne => absurd h0 hne⟩
    · exact ⟨fun _ hne => absurd rfl hne, fun _ hne => absurd rfl hne⟩
  refine ⟨⟨?_, h.paths, fun _ => h.handover hfair⟩, fun h0 => absurd h0 hi⟩
  rcases ha with h0 | rfl
  · exact hempty h0 index.index
  · exact h.apart

theorem Owned.enqueue (h : Owned g) (hi : index ≠ .PATH0) (ha : g.activePath ≠ .PATH0)
    (hne : g.activePath ≠ index) : Owned { g with pathQueue := g.pathQueue ||| bit index } := by
  have hmem (i : ℕ) : (g.pathQueue ||| bit index).getLsbD i =
      (g.pathQueue.getLsbD i || decide (index.index = i)) := by
    rw [BitVec.getLsbD_or, bit_getLsbD]
  refine ⟨⟨?_, fun i hm => ?_, h.fair⟩, fun h0 => absurd h0 ha⟩
  · have hapart : g.pathQueue.getLsbD g.activePath.index = false := h.apart
    unfold GraphicsInterface.queued
    rw [hmem, hapart, Bool.false_or]
    exact decide_eq_false fun h => hne (index_inj h).symm
  · rw [hmem, Bool.or_eq_true, decide_eq_true_eq] at hm
    rcases hm with hm | rfl
    · exact h.paths i hm
    · exact ⟨index_pos hi, index_le index⟩

theorem requestPATH_keeps (hi : index ≠ .PATH0) (can : Bool) :
    Within Keeps (requestPATH S index can) := by
  refine fun g => Ensures.imp fun h => ?_
  have hrequest : Within Keeps (do
      if index = .PATH3 then
        let masked ← path3Masked S .PATH3
        if masked = false ∨ (← get).FIFO.length ≤ 15 then request (.set .GIF)) := by
    refine within_ite (fun _ => ?_) fun _ => keeps_pure _
    refine keeps_bind path3Masked_keeps fun _ => keeps_bind keeps_get fun _ => ?_
    exact within_ite (fun _ => keeps_feeds (feeds_request _)) fun _ => keeps_pure _
  unfold requestPATH
  rw [ensures_bind, ensures_get, ensures_ite]
  refine ⟨fun ha => ?_, fun ha => ?_⟩
  · rw [ensures_bind, setActive, ensures_modify]
    exact (hrequest _).mono fun _ g' hg' => hg' (h.activate hi ha)
  · rw [not_or] at ha
    rw [ensures_bind, setQueue, ensures_modify, ensures_ite]
    refine ⟨fun _ => ?_, fun _ => ensures_pure.mpr (h.enqueue hi ha.1 ha.2)⟩
    rw [ensures_bind]
    refine (interruptPath3_keeps index _).mono fun _ g' hg' => ensures_pure.mpr ?_
    exact hg' (h.enqueue hi ha.1 ha.2)

theorem pathActive_keeps (index : Path) (can : Bool) : Within Keeps (pathActive S index can) := by
  have hread : Within Keeps (do
      let g ← get
      return g.activePath = index && !S.stalled g.gs && !g.gifTemporaryStop && !S.busdir g.gs) :=
    keeps_bind keeps_get fun _ => keeps_pure _
  refine within_ite (fun _ => ?_) fun _ => hread
  exact keeps_bind (interruptPath3_keeps index) fun _ => hread

theorem Owned.record (h : Owned g) {e : Event} (he : ∀ h', e ≠ .handover h') :
    Owned { g with log := g.log ++ [e] } := by
  refine ⟨⟨h.apart, h.paths, fun h' hh' => ?_⟩, h.idle⟩
  rcases List.mem_append.mp hh' with hh' | hh'
  · exact h.fair h' hh'
  · exact absurd (List.mem_singleton.mp hh').symm (he h')

theorem feedGIF_keeps (data : Quad) : Within Keeps (feedGIF S data) := by
  refine fun g => Ensures.imp fun h => ?_
  have hrecord := h.record (e := .fed g.activePath data) fun _ => by simp
  refine feedGIF_cases data (fun g' hf => hrecord.feeds hf) fun g' hf _ => ?_
  exact (deactivatePATH_keeps _ g').mono fun _ _ hg'' => hg'' (hrecord.feeds hf)

theorem keeps_parts : Steps.Parts S (Keeps : GraphicsInterface G → GraphicsInterface G → Prop) where
  refl _ := id
  trans _ _ _ h h' hg := h' (h hg)
  requestPATH _ hi can := requestPATH_keeps hi can
  deactivatePATH := deactivatePATH_keeps
  path3Masked := path3Masked_keeps
  pathActive := pathActive_keeps
  feedGIF := feedGIF_keeps
  sent _ _ h := h.record fun _ => by simp
  aside g g' _ ha hq hl h := by
    refine ⟨⟨?_, fun i hi => h.paths i (hq ▸ hi), fun e he => h.fair e (hl ▸ he)⟩, fun h0 => ?_⟩
    · unfold GraphicsInterface.queued
      rw [ha, hq]
      exact h.apart
    · rw [hq]
      exact h.idle (ha ▸ h0)

theorem init_owned (h : Init S g) : Owned g := by
  obtain ⟨hlog, g₀, hreset⟩ := h
  have hr : Ensures (reset S) g₀ fun _ g' => g'.activePath = .PATH0 ∧ g'.pathQueue = 0 := by
    rw [reset, ensures_bind, ensures_modify, issue, ensures_modify]
    exact ⟨rfl, rfl⟩
  obtain ⟨ha, hq⟩ := hr _ _ hreset
  refine ⟨⟨?_, fun i hi => ?_, fun h hh => ?_⟩, fun _ => hq⟩
  · unfold GraphicsInterface.queued
    rw [hq]
    exact BitVec.getLsbD_zero
  · rw [hq] at hi
    simp at hi
  · rw [hlog] at hh
    cases hh

theorem reaches_owned (h : Reaches (Init S) (Step S) g) : Owned g :=
  Reaches.invariant (I := fun g => Owned g) (fun _ => init_owned)
    (fun _ a _ hg hs => keeps_parts.exec a _ () _ hs hg) h

/-- **The arbiter of the GIF**: in every reachable state no path waits without an active one, the
active one does not wait, only 1 to 3 wait, every change of the active path was fair, and if PATH3
is found to be masked it is neither active nor waiting then. -/
theorem arbiter_fair (h : Reaches (Init S) (Step S) g) :
    (g.activePath = .PATH0 → g.pathQueue = 0) ∧ g.queued g.activePath = false ∧
      (∀ i, g.pathQueue.getLsbD i = true → 1 ≤ i ∧ i ≤ 3) ∧
      (∀ e, Event.handover e ∈ g.log → Fair e) ∧
      Ensures (path3Masked S .PATH3) g fun masked g' => masked = true → ¬ Asks g' .PATH3 := by
  have ho := reaches_owned h
  refine ⟨ho.idle, ho.apart, ho.paths, ho.fair, ?_⟩
  exact (path3Masked_owned ho).mono fun _ _ hm h => (hm.2 h).1

/-- PATH3 waits behind PATH1 and is masked then. -/
def maskedBehind : List (Act Unit) := [.requestPATH .PATH1 true, .processGIF 5, .setPath3Vifmask true]

theorem arbiter_fair_maskedBehind : ∃ g, maskedBehind.foldlM (next silentGS) powerOn = some g ∧
    g.queued .PATH3 = true ∧ (g.activePath = .PATH0 → g.pathQueue = 0) ∧ g.queued g.activePath = false ∧
      (∀ i, g.pathQueue.getLsbD i = true → 1 ≤ i ∧ i ≤ 3) ∧
      (∀ e, Event.handover e ∈ g.log → Fair e) ∧
      Ensures (path3Masked silentGS .PATH3) g fun masked g' => masked = true → ¬ Asks g' .PATH3 := by
  have hrun : (maskedBehind.foldlM (next silentGS) powerOn).map
      (fun g : GraphicsInterface Unit => g.queued .PATH3) = some true := by
    decide
  obtain ⟨g, hg, hq⟩ := Option.map_eq_some_iff.mp hrun
  exact ⟨g, hg, hq, arbiter_fair (reaches_of_acts init_powerOn hg)⟩

/-- At the end of PATH1's packet PATH3 becomes active, though it is masked. -/
theorem masked_elected : ∃ g g', Reaches (Init silentGS) (Step silentGS) g ∧
    Step silentGS g (.kickPATH1 0x8000#128) g' ∧ g.activePath = .PATH1 ∧ g.masked = true ∧
      g'.activePath = .PATH3 ∧ g'.masked = true := by
  have hrun : ((maskedBehind.foldlM (next silentGS) powerOn).bind fun g =>
      (next silentGS g (.kickPATH1 0x8000#128)).map fun g' => (g, g')).map
        (fun r : GraphicsInterface Unit × GraphicsInterface Unit =>
          (r.1.activePath, r.1.masked, r.2.activePath, r.2.masked)) = some (.PATH1, true, .PATH3, true) := by
    decide
  obtain ⟨⟨g, g'⟩, h, hobs⟩ := Option.map_eq_some_iff.mp hrun
  obtain ⟨g₁, hg, h₂⟩ := Option.bind_eq_some_iff.mp h
  obtain ⟨g₂, hkick, heq⟩ := Option.map_eq_some_iff.mp h₂
  obtain ⟨rfl, rfl⟩ := Prod.mk.inj heq
  simp only [Prod.mk.injEq] at hobs
  exact ⟨g₁, g₂, reaches_of_acts init_powerOn hg, run_iff_map.mpr hkick, hobs⟩

end DobieStation.Gif.Arbiter
