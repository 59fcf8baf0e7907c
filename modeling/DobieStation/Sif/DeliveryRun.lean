import DobieStation.Sif.Delivery

/-! # Runs that deliver packets

A run from where both sides are set up for a list of packets (`Starts`) takes turns: SIF0 is served
on either side, or a step leaves the transfer alone (`Turn`). Every state of it has stored the
packets up to some quadword, and all of them once the IOP's side has ended and the FIFO is empty
(`packets_delivered`). The words of each packet have to fill quadwords: `send_SIF0_junk` copies one
word of the four, so the junk behind other packets comes from the stack (`junk_undefined`). -/

namespace DobieStation.Sif.DeliveryRun

open DobieStation.Lib.Hoare DobieStation.Lib.Reach
open DobieStation.Dma.Model (Channel DMAChannel Memory Quad State)
open DobieStation.Dma.ChainFrame (Arbitrates SameRegisters arbitrates_aside)
open DobieStation.Dma.Outside (isControl)
open DobieStation.Iop.Model DobieStation.Iop.Arbiter
open DobieStation.Sif.Machine DobieStation.Sif.Packets DobieStation.Sif.Bound
open DobieStation.Sif.Delivery

variable {E F V : Type} {P : Iop.Model.Peripherals E} {Q : Dma.Model.Peripherals F V}
variable {src : Word → Option Word} {addrs : List (BitVec 32)} {s s' : State (World E F) V}

/-! ### The arbiter of the IOP's controller -/

/-- The calls of the SIF by the EE's handlers only raise requests on the IOP's side. -/
theorem allows_arbitrated (c : Channel) : Dma.Handlers.Allows (withSif Q) c
    (OnSide (V := V) fun side side' : Side E => Arbitrated side.dma → Arbitrated side'.dma) := by
  refine (ignores_onSide (fun _ => id) fun _ _ _ h h' ha => h' (h ha)).allows
    (fun _ _ _ => id) fun hc s h => ?_
  cases hc with
  | sifReadSIF0 =>
    show Arbitrated (readSIF0 s.world).world.1.dma
    unfold Machine.readSIF0
    split
    · rename_i hr
      unfold Side.readSIF0 at hr
      split at hr
      · cases hr
      · obtain ⟨-, rfl⟩ := Prod.mk.inj (Option.some.inj hr)
        exact h.setDMARequest
    · exact h
  | sifWriteSIF1 q => exact h.setDMARequest
  | _ => exact h

/-- The IOP's arbiter stays exact whatever the machine does. -/
theorem step_arbitrated {i : Input E F V} (h : Arbitrated s.world.1.dma)
    (hs : Machine.Step P Q s i s') : Arbitrated s'.world.1.dma := by
  have hexec : Ensures (i.exec P Q) s fun _ s' => Arbitrated s'.world.1.dma := by
    cases i with
    | memory mem w => exact ensures_modify.mpr h
    | iop a =>
      unfold Input.exec
      rw [ensures_ite]
      refine ⟨fun _ => ensures_failure.mpr trivial, fun _ => ?_⟩
      unfold iopStep
      rw [ensures_bind, ensures_get]
      cases hrun : (a.exec P).run s.world.1 with
      | none => exact ensures_failure.mpr trivial
      | some r =>
        have ha := exec_arbitrated (P := P) a s.world.1 _ _ hrun h
        dsimp only
        rw [ensures_bind, ensures_modify]
        have hreq := (ignores_eq (E := E) (F := F) (V := V) (Q := Q)).arbitrates.requests
        refine (hreq r.2.toEE _).mono fun _ s' h' => ?_
        rw [← show _ = s'.world.1 from h']
        exact ha
    | ee a =>
      by_cases hc : isControl a = true
      · rw [exec_control hc]
        exact (ignores_eq.control hc s).mono fun _ s' h' => h' ▸ h
      · cases a with
        | serve =>
          show Ensures (Dma.Model.serveActive (withSif Q)) s _
          unfold Dma.Model.serveActive
          rw [ensures_bind, Dma.Handlers.ensures_dmac]
          cases s.dmac.activeChannel with
          | none => exact ensures_failure.mpr trivial
          | some c =>
            dsimp only
            rw [ensures_bind]
            refine ((allows_arbitrated c).process s).mono fun n s₁ h₁ => ?_
            rw [ensures_bind, Dma.Handlers.ensures_channel, Dma.Handlers.ensures_modifyDMAC]
            exact h₁ h
        | outside m w => exact ensures_failure.mpr trivial
        | _ => exact absurd rfl hc
  exact hexec () s' hs

theorem reaches_arbitrated (h : Reaches Machine.Init (Machine.Step P Q) s) :
    Arbitrated s.world.1.dma :=
  Reaches.invariant (I := fun s => Arbitrated s.world.1.dma)
    (fun _ ⟨_, ⟨_, hd⟩, _⟩ => hd ▸ arbitrated_reset) (fun _ _ _ hi hs => step_arbitrated hi hs) h

/-! ### Turns -/

/-- The step serves SIF0, on either side. -/
def serves (s : State (World E F) V) : Input E F V → Bool
  | .ee .serve => s.dmac.activeChannel = some .EE_SIF0
  | .iop (.serve _) => s.world.1.dma.activeChannel = some IOP_SIF0
  | _ => false

/-- The transfer is left alone: SIF0 on both sides, its FIFO, the packets, and the memory that they
go to. -/
structure Untouched (src : Word → Option Word) (Q : Dma.Model.Peripherals F V)
    (addrs : List (BitVec 32)) (s s' : State (World E F) V) : Prop where
  registers : SameRegisters (s.dmac.channels .EE_SIF0) (s'.dmac.channels .EE_SIF0)
  progress : progress s'.world.1 = progress s.world.1
  fifo : s'.world.1.sif.SIF0_FIFO = s.world.1.sif.SIF0_FIFO
  ram : InRam src s'.world.1.ram
  mem : Agree Q addrs s.mem s'.mem

/-- SIF0 is served on either side, or the transfer is left alone. -/
def Turn (src : Word → Option Word) (P : Iop.Model.Peripherals E) (Q : Dma.Model.Peripherals F V)
    (addrs : List (BitVec 32)) (s : State (World E F) V) (i : Input E F V)
    (s' : State (World E F) V) : Prop :=
  Machine.Step P Q s i s' ∧ (serves s i = true ∨ Untouched src Q addrs s s')

section

variable {m : Memory V} {target : List Store}

theorem agree_trans {m' m'' : Memory V} (h : Agree Q addrs m m') (h' : Agree Q addrs m' m'') :
    Agree Q addrs m m'' where
  fetch a ha := (h.fetch a ha).trans (h'.fetch a ha)
  vu ha := (h.vu ha).trans (h'.vu ha)

theorem untouched_delivers (h : Delivering src Q m target s)
    (hu : Untouched src Q (target.map Prod.fst) s s') : Delivering src Q m target s' := by
  obtain ⟨-, ws, done, ho, hd, hm⟩ := h
  refine ⟨hu.ram, ws, done, ho.same hu.fifo hu.progress, ?_, agree_trans hm hu.mem⟩
  rw [due_same hu.registers]
  exact hd

theorem ee_serve_delivers (h : Delivering src Q m target s)
    (hact : s.dmac.activeChannel = some .EE_SIF0) :
    Ensures (Dma.Model.serveActive (withSif Q)) s fun _ s' => Delivering src Q m target s' := by
  unfold Dma.Model.serveActive
  rw [ensures_bind, Dma.Handlers.ensures_dmac, hact]
  dsimp only
  rw [ensures_bind]
  refine (processSIF0_delivers h).mono fun n s₁ h₁ => ?_
  rw [ensures_bind, Dma.Handlers.ensures_channel, Dma.Handlers.ensures_modifyDMAC]
  obtain ⟨hram, ws, done, ho, hd, hm⟩ := h₁
  exact ⟨hram, ws, done, ho, hd, hm⟩

theorem iop_serve_delivers (stack : Fin 4 → Word) (h : Delivering src Q m target s)
    (ha : Arbitrated s.world.1.dma) (hact : s.world.1.dma.activeChannel = some IOP_SIF0) :
    Ensures (iopStep P (.serve stack)) s fun _ s' => Delivering src Q m target s' := by
  have hbusy : (progress s.world.1).busy = true := by
    have hmem : IOP_SIF0 ∈ (arbiter s.world.1.dma).members := by
      simp [arbiter, Lib.Arbitration.Arbiter.members, hact]
    exact ((ha.holds.2 IOP_SIF0).mp hmem).1
  obtain ⟨hram, ws, done, ho, hd, hm⟩ := h
  have hserve : Ensures ((Act.serve stack).exec P) s.world.1 fun _ side =>
      side.ram = s.world.1.ram ∧ Owes src side ws := by
    show Ensures (serveActive P stack) _ _
    unfold serveActive
    rw [ensures_bind, ensures_get, hact]
    exact processSIF0_owes stack hram hbusy ho
  unfold iopStep
  rw [ensures_bind, ensures_get]
  cases hrun : ((Act.serve stack).exec P).run s.world.1 with
  | none => exact ensures_failure.mpr trivial
  | some r =>
    obtain ⟨hram', ho'⟩ := hserve _ _ hrun
    dsimp only
    rw [ensures_bind, ensures_modify]
    have hsent : Delivering src Q m target
        { s with world := ({ r.2 with toEE := [] }, s.world.2) } := by
      refine ⟨?_, ws, done, ho'.same rfl rfl, hd, hm⟩
      rw [← hram'] at hram
      exact hram
    exact (arbitrates_took.requests r.2.toEE _).mono fun _ s' h' => hsent.aside h'

theorem turn_delivers {i : Input E F V} (h : Delivering src Q m target s)
    (ha : Arbitrated s.world.1.dma) (ht : Turn src P Q (target.map Prod.fst) s i s') :
    Delivering src Q m target s' := by
  obtain ⟨hs, hi | hu⟩ := ht
  · cases i with
    | memory mem w => cases hi
    | ee a =>
      cases a with
      | serve => exact ee_serve_delivers h (of_decide_eq_true hi) () s' hs
      | _ => cases hi
    | iop a =>
      cases a with
      | serve stack => exact iop_serve_delivers stack h ha (of_decide_eq_true hi) () s' hs
      | _ => cases hi
  · exact untouched_delivers h hu

end

/-! ### Packets -/

/-- Both sides are set up for a list of packets, and the FIFO is empty. -/
structure Starts (src : Word → Option Word) (ps : List Packet) (s : State (World E F) V) :
    Prop where
  ram : InRam src s.world.1.ram
  fifo : s.world.1.sif.SIF0_FIFO = []
  busy : (s.world.1.dma.channels IOP_SIF0).control.busy = true
  wordCount : (s.world.1.dma.channels IOP_SIF0).wordCount = 0
  tagEnd : (s.world.1.dma.channels IOP_SIF0).tagEnd = false
  list : Laid src (s.world.1.dma.channels IOP_SIF0).tagAddr ps
  quadwordCount : (s.dmac.channels .EE_SIF0).quadwordCount = 0
  ended : (s.dmac.channels .EE_SIF0).tagEnd = false
  chained : Chained (tie (s.dmac.channels .EE_SIF0).control) ps

theorem Starts.delivering {ps : List Packet} (h : Starts src ps s) (hw : ∀ p ∈ ps, p.Whole) :
    Delivering src Q s.mem (ps.flatMap Packet.stores) s := by
  refine ⟨h.ram, ps.flatMap Packet.stream, [], ⟨ps.flatMap Packet.stream, ?_, ?_⟩, ?_, ?_⟩
  · have hblock : block src (progress s.world.1).addr (progress s.world.1).wordCount.toNat =
        some [] := by
      show block src _ (s.world.1.dma.channels IOP_SIF0).wordCount.toNat = some []
      rw [h.wordCount]
      rfl
    exact .between h.busy h.tagEnd (fun hne => absurd h.wordCount hne) hblock h.list hw
  · rw [h.fifo]
    rfl
  · unfold due
    rw [h.ended, h.quadwordCount, List.nil_append]
    exact (receive_packets h.chained hw _).symm
  · exact ⟨fun _ _ => rfl, fun _ => rfl⟩

/-- **The delivery of packets**: in every state of a run the packets have been stored up to some
quadword; if the IOP's side has ended and the FIFO is empty, they have all been. -/
theorem packets_delivered {ps : List Packet} {s₁ : State (World E F) V}
    (h₁ : Reaches Machine.Init (Machine.Step P Q) s₁) (hstart : Starts src ps s₁)
    (hw : ∀ p ∈ ps, p.Whole) (h : Reaches (fun s => s = s₁)
      (Turn src P Q ((ps.flatMap Packet.stores).map Prod.fst)) s) :
    ∃ done rest, ps.flatMap Packet.stores = done ++ rest ∧
      Agree Q ((ps.flatMap Packet.stores).map Prod.fst) (storeAll Q s₁.mem done) s.mem ∧
      ((s.world.1.dma.channels IOP_SIF0).control.busy = false →
        s.world.1.sif.SIF0_FIFO = [] → rest = []) := by
  have hinv : Delivering src Q s₁.mem (ps.flatMap Packet.stores) s ∧ Arbitrated s.world.1.dma := by
    refine Reaches.invariant (I := fun s => Delivering src Q s₁.mem (ps.flatMap Packet.stores) s ∧
      Arbitrated s.world.1.dma) ?_ ?_ h
    · rintro _ rfl
      exact ⟨hstart.delivering hw, reaches_arbitrated h₁⟩
    · rintro s i s' ⟨hd, ha⟩ ht
      exact ⟨turn_delivers hd ha ht, step_arbitrated ha ht.1⟩
  obtain ⟨⟨-, ws, done, ⟨rest, hs, rfl⟩, hd, hm⟩, -⟩ := hinv
  refine ⟨done, _, hd, hm, fun hb hf => ?_⟩
  rw [hf, hs.nil_of_ended hb]
  exact receive_nil _ _ _

/-! ### One packet -/

/-- A packet of `size` words at 0x200, for 0x1000: its tag at 0x100, the last of the list. -/
def packetAt (size : Word) : List (Word × Word) :=
  [(0x100, 0x80000200), (0x104, size), (0x108, 0x70000001), (0x10C, 0x1000),
    (0x200, 1), (0x204, 2), (0x208, 3), (0x20C, 4)]

def ramOf (l : List (Word × Word)) : Ram := l.foldl (fun ram p => ram.write32 p.1 p.2) fun _ => 0

/-- Both sides of SIF0 are started. -/
def startSIF0 : List (Input Unit Unit Unit) :=
  [.iop (.setChanTagAddr IOP_SIF0 0x100#32), .iop (.setChanControl IOP_SIF0 0x01000000#32),
    .ee (.write32 0x1000C000#32 0x184#32)]

/-- The IOP's side takes `n` turns, with a word on its stack, and the EE's two. -/
def serveSIF0 (junk : Word) (n : ℕ) : List (Input Unit Unit Unit) :=
  List.replicate n (.iop (.serve fun _ => junk)) ++ List.replicate 2 (.ee .serve)

/-- A step that serves SIF0. -/
def served (s : State (World Unit Unit) Unit) (i : Input Unit Unit Unit) :
    Option (State (World Unit Unit) Unit) :=
  if serves s i then Machine.next silent Dma.Model.ready s i else none

theorem turn_of_served {s s' : State (World Unit Unit) Unit} {i : Input Unit Unit Unit}
    (h : served s i = some s') : Turn src silent Dma.Model.ready addrs s i s' := by
  unfold served at h
  split_ifs at h with hi
  exact ⟨run_iff_map.mpr h, .inl hi⟩

theorem inRam_lookup {l : List (Word × Word)} {ram : Ram}
    (h : l.all fun p => ram.read32 p.1 = p.2) : InRam (fun a => l.lookup a) ram := by
  intro a w ha
  obtain ⟨l₁, l₂, rfl, -⟩ := List.lookup_eq_some_iff.mp ha
  simp at h
  exact h.2.1

theorem laid_packetAt : Laid (fun a => (packetAt 4).lookup a) 0x100
    [⟨0x70000001, 0x1000, [1, 2, 3, 4]⟩] := by
  have htag : TagAt (fun a => (packetAt 4).lookup a) 0x100 0x80000200 4
      ⟨0x70000001, 0x1000, [1, 2, 3, 4]⟩ := ⟨rfl, rfl, rfl, rfl, by decide⟩
  exact .last htag (by decide) (by decide)

/-- What `Starts` says of the packet of four words. -/
def started (s : State (World Unit Unit) Unit) : Bool :=
  ((packetAt 4).all fun p => s.world.1.ram.read32 p.1 = p.2) &&
    s.world.1.sif.SIF0_FIFO = [] && (s.world.1.dma.channels IOP_SIF0).control.busy &&
    (s.world.1.dma.channels IOP_SIF0).wordCount = 0 &&
    !(s.world.1.dma.channels IOP_SIF0).tagEnd &&
    (s.world.1.dma.channels IOP_SIF0).tagAddr = 0x100 &&
    (s.dmac.channels .EE_SIF0).quadwordCount = 0 && !(s.dmac.channels .EE_SIF0).tagEnd

theorem starts_of_started {s : State (World Unit Unit) Unit} (h : started s = true) :
    Starts (fun a => (packetAt 4).lookup a) [⟨0x70000001, 0x1000, [1, 2, 3, 4]⟩] s := by
  unfold started at h
  simp only [Bool.and_eq_true, Bool.not_eq_true', decide_eq_true_eq] at h
  obtain ⟨⟨⟨⟨⟨⟨⟨hram, hfifo⟩, hbusy⟩, hword⟩, hend⟩, htag⟩, hq⟩, hended⟩ := h
  exact ⟨inRam_lookup hram, hfifo, hbusy, hword, hend, htag ▸ laid_packetAt, hq, hended, rfl⟩

theorem packets_delivered_packetAt : ∃ s₁ s, startSIF0.foldlM
      (Machine.next silent Dma.Model.ready) (powerOn (ramOf (packetAt 4)) fun _ => 0) = some s₁ ∧
    (serveSIF0 0 5).foldlM served s₁ = some s ∧ ∃ done rest,
      [(0x1000#32, 0x00000004000000030000000200000001#128)] = done ++ rest ∧
      Agree Dma.Model.ready [0x1000#32] (storeAll Dma.Model.ready s₁.mem done) s.mem ∧
      ((s.world.1.dma.channels IOP_SIF0).control.busy = false →
        s.world.1.sif.SIF0_FIFO = [] → rest = []) := by
  have hrun : ((startSIF0.foldlM (Machine.next silent Dma.Model.ready)
      (powerOn (ramOf (packetAt 4)) fun _ => 0)).bind fun s₁ =>
        ((serveSIF0 0 5).foldlM served s₁).map fun s => (s₁, s)).map
          (fun r => started r.1) = some true := by
    decide +kernel
  obtain ⟨⟨s₁, s⟩, h, hobs⟩ := Option.map_eq_some_iff.mp hrun
  obtain ⟨s₁', h₁, h₂⟩ := Option.bind_eq_some_iff.mp h
  obtain ⟨s', hserve, heq⟩ := Option.map_eq_some_iff.mp h₂
  obtain ⟨rfl, rfl⟩ := Prod.mk.inj heq
  have hreach := reaches_of_inputs (init_powerOn _ _) h₁
  have hstart : Reaches (fun s => s = s₁') (fun s i s' => served s i = some s') s₁' :=
    Reaches.start rfl
  have hturns : Reaches (fun s => s = s₁') (Turn (fun a => (packetAt 4).lookup a) silent
      Dma.Model.ready [0x1000#32]) s' :=
    (hstart.exec _ hserve).mono fun _ _ _ => turn_of_served
  exact ⟨s₁', s', h₁, hserve,
    packets_delivered hreach (starts_of_started hobs) (by simp [Packet.Whole]) hturns⟩

/-- A packet of one word is filled up with what was on the stack. -/
theorem junk_undefined : ∃ s s',
    (startSIF0 ++ serveSIF0 0 2).foldlM (Machine.next silent Dma.Model.ready)
        (powerOn (ramOf (packetAt 1)) fun _ => 0) = some s ∧
    (startSIF0 ++ serveSIF0 0xAAAAAAAA 2).foldlM (Machine.next silent Dma.Model.ready)
        (powerOn (ramOf (packetAt 1)) fun _ => 0) = some s' ∧
    s.mem.fetch128 Dma.Model.ready 0x1000#32 = 0x1#128 ∧
    s'.mem.fetch128 Dma.Model.ready 0x1000#32 = 0xAAAAAAAAAAAAAAAAAAAAAAAA00000001#128 := by
  have hrun : ((startSIF0 ++ serveSIF0 0 2).foldlM (Machine.next silent Dma.Model.ready)
      (powerOn (ramOf (packetAt 1)) fun _ => 0)).map
        (fun s : State (World Unit Unit) Unit => s.mem.fetch128 Dma.Model.ready 0x1000#32) =
          some 0x1#128 := by
    decide +kernel
  have hrun' : ((startSIF0 ++ serveSIF0 0xAAAAAAAA 2).foldlM (Machine.next silent Dma.Model.ready)
      (powerOn (ramOf (packetAt 1)) fun _ => 0)).map
        (fun s : State (World Unit Unit) Unit => s.mem.fetch128 Dma.Model.ready 0x1000#32) =
          some 0xAAAAAAAAAAAAAAAAAAAAAAAA00000001#128 := by
    decide +kernel
  obtain ⟨s, h, hmem⟩ := Option.map_eq_some_iff.mp hrun
  obtain ⟨s', h', hmem'⟩ := Option.map_eq_some_iff.mp hrun'
  exact ⟨s, s', h, h', hmem, hmem'⟩

end DobieStation.Sif.DeliveryRun
