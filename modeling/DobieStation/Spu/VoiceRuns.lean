import DobieStation.Spu.Voices

/-! # The runs of a voice

A voice is keyed on, its addresses are written, samples are taken, and the rest of the program does what it
likes to anything else: to the RAM, to the pitch and the modulation, to the envelope and to ENDX. -/

namespace DobieStation.Spu.VoiceRuns

open DobieStation.Lib.Fault DobieStation.Spu.Model DobieStation.Spu.Playback DobieStation.Spu.Voices
open DobieStation.Spu.Containment (put_self silent blankCore)

variable {U N : Type} {Y : Synth U N} {id : Id} {v : ℕ} {E : Stop → Prop}
  {x : Voice U} {e st : Word} {r : ℕ → HalfWord} {s : SPUs U N} {p : Walk U}

/-! ### The other steps -/

theorem meets_keyOnVoice (hv : v < 24) (h : Follows id v p s) :
    Meets (keyOnVoice Y id v) s (fun _ s' => Follows id v (p.keyOn Y) s') E := by
  refine h.at.keyOnVoice.mono (fun _ s' hat => ?_) fun _ hf => hf
  obtain ⟨hs, hbase, hfraction, -, -, -⟩ := h
  have hclear : ((s.core id).ENDX &&& ~~~((1 : Word) <<< v)).getLsbD v = false := by
    simp [show v < 32 by omega]
  have hstart := hs.start
  refine ⟨hs.keyOn, ?_, ?_, ?_, ?_, ?_⟩
  · rw [hat.voice]
    refine ⟨hbase.start, hbase.loop, rfl, ?_, ⟨[], rfl⟩⟩
    simp only [keyedOn, Walk.keyOn, hbase.unit]
  · rw [hat.voice]
    exact hfraction
  · rw [hat.endx]
    exact hclear
  · intro _
    rw [hat.voice]
    refine ⟨rfl, ?_⟩
    show ((((s.core id).voices v).startAddr ||| 1).toNat) % ramSize / 8 * 8 = p.start
    unfold BlockAddr ramSize at *
    rw [toNat_or_one (by rw [hbase.start]; exact hstart.1), hbase.start]
    omega
  · intro hfalse
    cases hfalse

theorem toNat_setAddrHigh_eq (value : HalfWord) (w : Word) :
    (setAddrHigh value w).toNat = w.toNat % 65536 + value.toNat % 16 * 65536 := by
  have hlow : w.toNat &&& 0xFFFF = w.toNat % 2 ^ 16 := Nat.and_two_pow_sub_one_eq_mod _ 16
  have hvalue : value.toNat &&& 0xF = value.toNat % 2 ^ 4 := Nat.and_two_pow_sub_one_eq_mod _ 4
  have heq : (setAddrHigh value w).toNat =
      (w.toNat &&& 0xFFFF) ||| (value.toNat &&& 0xF) <<< 16 % 2 ^ 32 := by
    rw [setAddrHigh, BitVec.toNat_or, BitVec.toNat_and, BitVec.toNat_shiftLeft,
      BitVec.toNat_setWidth_of_le (by decide), BitVec.toNat_and]
    rfl
  rw [heq, hlow, hvalue, Nat.shiftLeft_eq,
    Nat.mod_eq_of_lt (a := value.toNat % 2 ^ 4 * 2 ^ 16) (by omega), Nat.or_comm, Nat.mul_comm _ (2 ^ 16),
    ← Nat.two_pow_add_eq_or_of_lt (Nat.mod_lt _ (by decide))]
  omega

theorem toNat_setLow_eq (value : HalfWord) (w : Word) :
    (setLow (value &&& 0xFFF8) w).toNat = w.toNat / 65536 * 65536 + value.toNat / 8 * 8 := by
  have hhigh : w.toNat &&& 0xFFFF0000 = 2 ^ 16 * (w.toNat / 2 ^ 16) := by
    refine Nat.eq_of_testBit_eq fun i => ?_
    rw [show 0xFFFF0000 = 2 ^ 16 * (2 ^ 16 - 1) from rfl, Nat.testBit_and, Nat.testBit_two_pow_mul,
      Nat.testBit_two_pow_mul, Nat.testBit_two_pow_sub_one, Nat.testBit_div_two_pow]
    by_cases h16 : 16 ≤ i
    · rw [show i - 16 + 16 = i by omega]
      by_cases h32 : i < 32
      · simp [h16, show i - 16 < 16 by omega]
      · have hbit : w.toNat.testBit i = false :=
          Nat.testBit_lt_two_pow (Nat.lt_of_lt_of_le w.isLt (Nat.pow_le_pow_right (by decide) (by omega)))
        simp [hbit]
    · simp [h16]
  have hvalue : value.toNat &&& 0xFFF8 = value.toNat / 8 * 8 := by
    refine Nat.eq_of_testBit_eq fun i => ?_
    rw [show 0xFFF8 = 2 ^ 3 * (2 ^ 13 - 1) from rfl, show 8 = 2 ^ 3 from rfl, Nat.testBit_and,
      Nat.testBit_two_pow_mul, Nat.testBit_mul_two_pow, Nat.testBit_two_pow_sub_one, Nat.testBit_div_two_pow]
    by_cases h3 : 3 ≤ i
    · rw [show i - 3 + 3 = i by omega]
      by_cases h16 : i < 16
      · simp [h3, show i - 3 < 13 by omega]
      · have hbit : value.toNat.testBit i = false :=
          Nat.testBit_lt_two_pow (Nat.lt_of_lt_of_le value.isLt
            (Nat.pow_le_pow_right (by decide) (by omega)))
        simp [hbit]
    · simp [h3]
  have hlt := value.isLt
  have heq : (setLow (value &&& 0xFFF8) w).toNat = (w.toNat &&& 0xFFFF0000) ||| (value.toNat &&& 0xFFF8) := by
    rw [setLow, BitVec.toNat_or, BitVec.toNat_and, BitVec.toNat_setWidth_of_le (by decide), BitVec.toNat_and]
    rfl
  rw [heq, hhigh, hvalue, ← Nat.two_pow_add_eq_or_of_lt (by omega)]
  omega

theorem writeAddr_other {reg : ℕ} (value : HalfWord) (h0 : reg ≠ 0) (h2 : reg ≠ 2) (h4 : reg ≠ 4)
    (h6 : reg ≠ 6) : Voice.writeAddr reg value x = x := by
  unfold Voice.writeAddr
  split <;> first | contradiction | rfl

theorem base_writeAddr (h : Base p x) (reg : ℕ) (value : HalfWord) :
    Base (p.writeAddr reg value.toNat) (Voice.writeAddr reg value x) := by
  unfold Walk.writeAddr
  split
  · refine ⟨?_, h.loop, h.written, h.unit, h.history⟩
    simp only [← h.start]
    exact toNat_setAddrHigh_eq value _
  · refine ⟨?_, h.loop, h.written, h.unit, h.history⟩
    simp only [← h.start]
    exact toNat_setLow_eq value _
  · refine ⟨h.start, ?_, rfl, h.unit, h.history⟩
    simp only [← h.loop]
    exact toNat_setAddrHigh_eq value _
  · refine ⟨h.start, ?_, rfl, h.unit, h.history⟩
    simp only [← h.loop]
    exact toNat_setLow_eq value _
  · rename_i h0 h2 h4 h6
    rw [writeAddr_other value h0 h2 h4 h6]
    exact h

/-- What a write of an address leaves alone. -/
theorem voice_writeAddr (reg : ℕ) (value : HalfWord) : Voice.writeAddr reg value x =
    { x with
      startAddr := (Voice.writeAddr reg value x).startAddr
      loopAddr := (Voice.writeAddr reg value x).loopAddr
      loopAddrSpecified := (Voice.writeAddr reg value x).loopAddrSpecified } := by
  unfold Voice.writeAddr
  split <;> rfl

theorem walk_writeAddr (reg value : ℕ) : p.writeAddr reg value =
    { p with
      start := (p.writeAddr reg value).start
      loop := (p.writeAddr reg value).loop
      written := (p.writeAddr reg value).written } := by
  unfold Walk.writeAddr
  split <;> rfl

theorem meets_writeAddr (h : Follows id v p s) (reg : ℕ) (value : HalfWord) :
    Meets (modifyVoice id v (Voice.writeAddr reg value)) s
      (fun _ s' => Follows id v (p.writeAddr reg value.toNat) s') E := by
  have hpitch : ∀ x : Voice U, (Voice.writeAddr reg value x).pitch = x.pitch := by
    intro x
    rw [voice_writeAddr]
  refine (h.at.modifyVoice (hpitch _)).mono (fun _ s' hat => ?_) fun _ hf => hf
  obtain ⟨hs, hbase, hfraction, he, hpending, hplace⟩ := h
  refine ⟨hs.writeAddr reg value.isLt, ?_, ?_, ?_, ?_, ?_⟩
  · rw [hat.voice]
    exact base_writeAddr hbase reg value
  · rw [hat.voice, voice_writeAddr, walk_writeAddr]
    exact hfraction
  · rw [hat.endx, walk_writeAddr]
    exact he
  · rw [hat.voice, voice_writeAddr, walk_writeAddr]
    exact hpending
  · rw [hat.voice, voice_writeAddr, walk_writeAddr]
    intro hfalse
    have hx := hplace hfalse
    exact ⟨hx.block, hx.sample, hx.pcm, hx.ends, hx.repeats, hx.newBlock, hx.addr⟩

/-- The two voices are at the same place, with the same addresses. -/
structure Same (x y : Voice U) : Prop where
  start : y.startAddr = x.startAddr
  current : y.currentAddr = x.currentAddr
  loop : y.loopAddr = x.loopAddr
  written : y.loopAddrSpecified = x.loopAddrSpecified
  counter : y.counter = x.counter
  sampleIdx : y.sampleIdx = x.sampleIdx
  loopCode : y.loopCode = x.loopCode
  newBlock : y.newBlock = x.newBlock
  old1 : y.old1 = x.old1
  old2 : y.old2 = x.old2
  old3 : y.old3 = x.old3
  nextSample : y.nextSample = x.nextSample
  pcm : y.pcm = x.pcm

theorem Same.refl (x : Voice U) : Same x x := ⟨rfl, rfl, rfl, rfl, rfl, rfl, rfl, rfl, rfl, rfl, rfl, rfl, rfl⟩

/-- Whatever the rest of the program does. -/
theorem follows_apart {s' : SPUs U N} (h : Follows id v p s)
    (hsame : Same ((s.core id).voices v) ((s'.core id).voices v)) :
    Follows id v (p.apart ((s'.core id).ENDX.getLsbD v) ((s'.core id).voices v).unit) s' := by
  obtain ⟨hs, hbase, hfraction, -, hpending, hplace⟩ := h
  refine ⟨hs.apart _ _, ⟨?_, ?_, ?_, rfl, ?_⟩, ?_, rfl, ?_, ?_⟩
  · rw [hsame.start]
    exact hbase.start
  · rw [hsame.loop]
    exact hbase.loop
  · rw [hsame.written]
    exact hbase.written
  · rw [hsame.old1, hsame.old2, hsame.old3, hsame.nextSample]
    exact hbase.history
  · rw [hsame.counter]
    exact hfraction
  · unfold Ready at *
    rw [hsame.newBlock, hsame.current]
    exact hpending
  · intro hfalse
    have hx := hplace hfalse
    refine ⟨hx.block, ?_, ?_, ?_, ?_, ?_, ?_⟩
    · rw [hsame.sampleIdx]
      exact hx.sample
    · rw [hsame.pcm]
      exact hx.pcm
    · rw [hsame.loopCode]
      exact hx.ends
    · rw [hsame.loopCode]
      exact hx.repeats
    · rw [hsame.newBlock]
      exact hx.newBlock
    · rw [hsame.current]
      exact hx.addr

/-! ### Runs -/

/-- The walk of a voice that was reset. -/
def initial (x : Voice U) : Walk U where
  start := 0
  loop := 0
  written := false
  pending := true
  blocks := []
  current := ⟨0, [], fun _ => 0⟩
  index := 0
  next := 0
  fraction := 0
  entered := [x.old3, x.old2, x.old1, x.nextSample]
  endx := false
  unit := x.unit

/-- A run of the voice `v`, and the walk that looks the loop address up at the sample `k`. -/
inductive Run (Y : Synth U N) (id : Id) (v k : ℕ) : SPUs U N → Walk U → Prop
  | reset (s : SPUs U N) : Run Y id v k (reset Y s) (initial (((reset Y s).core id).voices v))
  | keyOn {s s' : SPUs U N} {p : Walk U} (h : Run Y id v k s p)
      (hr : (keyOnVoice Y id v).run s = .ok (⟨⟩, s')) : Run Y id v k s' (p.keyOn Y)
  | sample {s s' : SPUs U N} {p : Walk U} {out : Stereo} (h : Run Y id v k s p)
      (hr : (voiceGenSample Y id v).run s = .ok (out, s')) :
      Run Y id v k s' (p.play Y k s.ram (voiceStep (s.core id) v).toNat)
  | writeAddr {s s' : SPUs U N} {p : Walk U} (reg : ℕ) (value : HalfWord) (h : Run Y id v k s p)
      (hr : (modifyVoice id v (Voice.writeAddr reg value)).run s = .ok (⟨⟩, s')) :
      Run Y id v k s' (p.writeAddr reg value.toNat)
  | apart {s s' : SPUs U N} {p : Walk U} (h : Run Y id v k s p)
      (hsame : Same ((s.core id).voices v) ((s'.core id).voices v)) :
      Run Y id v k s' (p.apart ((s'.core id).ENDX.getLsbD v) ((s'.core id).voices v).unit)

theorem follows_reset (s : SPUs U N) :
    Follows id v (initial (((reset Y s).core id).voices v)) (reset Y s) := by
  have hzero : BlockAddr 0 := ⟨rfl, by decide⟩
  have hfraction : 0 < 0x1000 := by decide
  refine ⟨⟨hzero, hzero, hzero, hfraction, Nat.le_refl 4, fun _ => ⟨rfl, rfl⟩, ?_, ?_⟩, ?_, rfl, ?_, ?_, ?_⟩
  · rintro ⟨⟩
  · rintro ⟨⟩
  · exact ⟨rfl, rfl, rfl, rfl, [], rfl⟩
  · exact BitVec.getLsbD_zero
  · have hready : (0 : Word).toNat % ramSize / 8 * 8 = 0 := by decide
    exact fun _ => ⟨rfl, hready⟩
  · rintro ⟨⟩

/-- **What a voice plays.** In every run the voice follows the walk that looks the loop address up at the
sample 24: it decodes the blocks of the walk, enters each of their samples once and in order, and its sample
index stays below 28. -/
theorem follows_walk (hv : v < 24) (h : Run Y id v 24 s p) : Follows id v p s := by
  induction h with
  | reset s => exact follows_reset s
  | keyOn _ hr ih => exact (meets_keyOnVoice (E := fun _ => True) hv ih).1 _ _ hr
  | sample _ hr ih => exact (meets_voiceGenSample hv ih).1 _ _ hr
  | writeAddr reg value _ hr ih => exact (meets_writeAddr (E := fun _ => True) ih reg value).1 _ _ hr
  | apart _ hsame ih => exact follows_apart ih hsame

/-! ### Concrete runs -/

inductive Move where
  | keyOn
  | sample
  | write (reg : ℕ) (value : HalfWord)
  | pitch (value : HalfWord)
  deriving DecidableEq, Repr

/-- The state after a program, if it does not stop. -/
def after {α : Type} (m : M U N α) (s : SPUs U N) : Option (SPUs U N) := (m.run s).toOption.map Prod.snd

def Move.exec (Y : Synth U N) (id : Id) (v k : ℕ) (c : SPUs U N × Walk U) : Move → Option (SPUs U N × Walk U)
  | .keyOn => (after (keyOnVoice Y id v) c.1).map fun s' => (s', c.2.keyOn Y)
  | .sample => (after (voiceGenSample Y id v) c.1).map fun s' =>
      (s', c.2.play Y k c.1.ram (voiceStep (c.1.core id) v).toNat)
  | .write reg value => (after (modifyVoice id v (Voice.writeAddr reg value)) c.1).map fun s' =>
      (s', c.2.writeAddr reg value.toNat)
  | .pitch value => (after (modifyVoice id v (Voice.writeReg Y 4 value)) c.1).map fun s' =>
      (s', c.2.apart ((s'.core id).ENDX.getLsbD v) ((s'.core id).voices v).unit)

theorem run_of_after {α : Type} {m : M U N α} {s' : SPUs U N} (h : after m s = some s') :
    ∃ a, m.run s = .ok (a, s') := by
  unfold after at h
  cases hm : m.run s with
  | error e =>
    rw [hm] at h
    cases h
  | ok r =>
    rw [hm] at h
    cases h
    exact ⟨r.1, rfl⟩

theorem Run.exec {k : ℕ} {m : Move} {s' : SPUs U N} {p' : Walk U} (h : Run Y id v k s p)
    (hm : m.exec Y id v k (s, p) = some (s', p')) : Run Y id v k s' p' := by
  cases m with
  | keyOn =>
    simp only [Move.exec, Option.map_eq_some_iff] at hm
    obtain ⟨s1, hs1, heq⟩ := hm
    cases heq
    obtain ⟨_, hr⟩ := run_of_after hs1
    exact h.keyOn hr
  | sample =>
    simp only [Move.exec, Option.map_eq_some_iff] at hm
    obtain ⟨s1, hs1, heq⟩ := hm
    cases heq
    obtain ⟨_, hr⟩ := run_of_after hs1
    exact h.sample hr
  | write reg value =>
    simp only [Move.exec, Option.map_eq_some_iff] at hm
    obtain ⟨s1, hs1, heq⟩ := hm
    cases heq
    obtain ⟨_, hr⟩ := run_of_after hs1
    exact h.writeAddr reg value hr
  | pitch value =>
    simp only [Move.exec, Option.map_eq_some_iff] at hm
    obtain ⟨s1, hs1, heq⟩ := hm
    cases heq
    obtain ⟨_, hr⟩ := run_of_after hs1
    refine h.apart ?_
    cases hr
    simp only [put_self, Core.setVoice, if_true]
    exact ⟨rfl, rfl, rfl, rfl, rfl, rfl, rfl, rfl, rfl, rfl, rfl, rfl, rfl⟩

theorem Run.moves {k : ℕ} : ∀ (ms : List Move) {c c' : SPUs U N × Walk U}, Run Y id v k c.1 c.2 →
    ms.foldlM (Move.exec Y id v k) c = some c' → Run Y id v k c'.1 c'.2
  | [], _, _, h, hm => by
    cases hm
    exact h
  | m :: ms, c, c', h, hm => by
    simp only [List.foldlM_cons, Option.bind_eq_bind, Option.bind_eq_some_iff] at hm
    obtain ⟨c1, h1, h2⟩ := hm
    exact Run.moves ms (h.exec h1) h2

/-- Every block of the RAM has the end flag. -/
def ending : SPUs Unit Unit :=
  reset silent
    { ram := fun k => if k % 8 = 0 then 0x0100 else 0
      spdifIrq := 0
      coreAtt := fun _ => 0
      IRQA := fun _ => 0
      signals := []
      core := fun _ => blankCore }

/-- The loop address is written before the first block, and again after its sample 24. -/
def lateWrite : List Move :=
  [.keyOn, .pitch 0x3000, .write 6 0x100] ++ List.replicate 8 .sample ++ [.write 6 0x200] ++
    List.replicate 2 .sample

theorem exec_lateWrite (k : ℕ) {c : SPUs Unit Unit × Walk Unit}
    (h : lateWrite.foldlM (Move.exec silent .one 0 k) (ending, initial ((ending.core .one).voices 0)) = some c) :
    Run silent .one 0 k c.1 c.2 :=
  Run.moves lateWrite (Run.reset _) h

/-- The blocks of the walk and the place it has come to, and the address of the voice. -/
structure Outcome where
  blocks : List ℕ
  pending : Bool
  walk : ℕ
  voice : ℕ
  deriving DecidableEq

def outcome (c : SPUs Unit Unit × Walk Unit) : Outcome where
  blocks := c.2.blocks.map Block.addr
  pending := c.2.pending
  walk := position c.2
  voice := ((c.1.core .one).voices 0).currentAddr.toNat

def runLateWrite (k : ℕ) : Option Outcome :=
  (lateWrite.foldlM (Move.exec silent .one 0 k) (ending, initial ((ending.core .one).voices 0))).map outcome

theorem follows_lateWrite : ∃ s p, Run silent .one 0 24 s p ∧ p.blocks.map Block.addr = [0, 0x100] ∧
    Follows .one 0 p s := by
  have hrun : runLateWrite 24 = some ⟨[0, 0x100], false, 0x101, 0x101⟩ := by decide +kernel
  obtain ⟨c, hc, heq⟩ := Option.map_eq_some_iff.mp hrun
  have h := exec_lateWrite 24 hc
  exact ⟨c.1, c.2, h, congrArg Outcome.blocks heq, follows_walk (by decide) h⟩

/-- A loop address that is written behind the sample 24 of a block with the end flag is not the address of
the block that follows. -/
theorem not_follows_end : ¬ ∀ (s : SPUs Unit Unit) (p : Walk Unit), Run silent .one 0 28 s p →
    Follows .one 0 p s := by
  intro hall
  have hrun : runLateWrite 28 = some ⟨[0, 0x200], false, 0x201, 0x101⟩ := by decide +kernel
  obtain ⟨c, hc, heq⟩ := Option.map_eq_some_iff.mp hrun
  have hplace := (hall c.1 c.2 (exec_lateWrite 28 hc)).place (congrArg Outcome.pending heq)
  have hvoice : ((c.1.core .one).voices 0).currentAddr.toNat = 0x101 := congrArg Outcome.voice heq
  have hwalk : position c.2 = 0x201 := congrArg Outcome.walk heq
  have haddr := hplace.addr
  rw [hvoice, hwalk] at haddr
  cases haddr

end DobieStation.Spu.VoiceRuns
