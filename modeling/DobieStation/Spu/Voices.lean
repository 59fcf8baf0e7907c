import DobieStation.Spu.Containment
import DobieStation.Spu.Playback

/-! # A voice against its walk

The state of a voice is followed through `voice_gen_sample`: `current_addr` moves on by one for every four
samples and by the mask at the end of a block, and the loop address takes its place at the sample 24. -/

namespace DobieStation.Spu.Voices

open DobieStation.Lib.Fault DobieStation.Spu.Model DobieStation.Spu.Playback
open DobieStation.Spu.Containment (voice_put put_self toNat_following)

variable {U N : Type} {Y : Synth U N} {id : Id} {v : ℕ} {E : Stop → Prop}

/-! ### What does not change a core -/

section

variable {P : (ℕ → HalfWord) → Core U N → Prop}

theorem frame_signal {x : Signal} : Keeps (fun s => P s.ram (s.core id)) E (signal x : M U N PUnit) :=
  keeps_modify fun _ hs => hs

theorem frame_checkIrqOf {k : Id} {address : Word} :
    Keeps (fun s => P s.ram (s.core id)) E (checkIrqOf k address : M U N PUnit) := by
  refine keeps_bind keeps_get fun s => keeps_ite (fun _ => ?_) fun _ => keeps_pure _
  refine keeps_bind keeps_get fun s' => keeps_ite (fun _ => keeps_pure _) fun _ => ?_
  exact keeps_bind (keeps_modify fun _ hs => hs) fun _ => frame_signal

theorem frame_spuCheckIrq (address : Word) :
    Keeps (fun s => P s.ram (s.core id)) E (spuCheckIrq address : M U N PUnit) :=
  keeps_bind frame_checkIrqOf fun _ => frame_checkIrqOf

end

section

variable {P : Core U N → Prop}

theorem frame_store (hE : ∀ i, E (.ram i)) {addr : Word} {value : HalfWord} :
    Keeps (fun s => P (s.core id)) E (store addr value : M U N PUnit) :=
  keeps_ite (fun _ => keeps_modify fun _ hs => hs) fun _ => keeps_throw (hE _)

theorem frame_write (hE : ∀ i, E (.ram i)) {addr : Word} {data : HalfWord} :
    Keeps (fun s => P (s.core id)) E (write addr data : M U N PUnit) :=
  keeps_bind (frame_spuCheckIrq (P := fun _ c => P c) addr) fun _ => frame_store hE

theorem frame_core {k : Id} : Keeps (fun s => P (s.core id)) E (core k : M U N (Core U N)) :=
  keeps_bind keeps_get fun _ => keeps_pure _

theorem frame_memout (hE : ∀ i, E (.ram i)) {k : Id} {area : Word} {sample : Sample} :
    Keeps (fun s => P (s.core id)) E (memout k area sample : M U N PUnit) :=
  keeps_bind frame_core fun _ => frame_write hE

end

/-! ### One voice -/

/-- A voice, ENDX, the RAM and the step of the voice. -/
structure At (id : Id) (v : ℕ) (x : Voice U) (e : Word) (r : ℕ → HalfWord) (st : Word) (s : SPUs U N) :
    Prop where
  voice : (s.core id).voices v = x
  endx : (s.core id).ENDX = e
  ram : s.ram = r
  step : voiceStep (s.core id) v = st

variable {x : Voice U} {e st : Word} {r : ℕ → HalfWord} {s : SPUs U N} {α : Type}

theorem voiceStep_setVoice {c : Core U N} {f : Voice U → Voice U}
    (hf : (f (c.voices v)).pitch = (c.voices v).pitch) : voiceStep (c.setVoice v f) v = voiceStep c v := by
  have hv : (c.setVoice v f).voices v = f (c.voices v) := if_pos rfl
  have hmod : (c.setVoice v f).voicePitchMod = c.voicePitchMod := rfl
  by_cases h0 : v = 0
  · simp only [voiceStep, h0, ne_eq, not_true_eq_false, and_false, if_false]
    rw [h0] at hv hf
    rw [hv, hf]
  · have hprev : (c.setVoice v f).voices (v - 1) = c.voices (v - 1) := if_neg (by omega)
    simp only [voiceStep, hv, hf, hmod, hprev]

theorem At.modifyVoice (h : At id v x e r st s) {f : Voice U → Voice U} (hf : (f x).pitch = x.pitch) :
    Meets (modifyVoice id v f) s (fun _ s' => At id v (f x) e r st s') E := by
  rw [Model.modifyVoice, modifyCore, meets_modify]
  refine ⟨?_, ?_, h.ram, ?_⟩
  · rw [voice_put, h.voice]
  · simp only [put_self]
    exact h.endx
  · simp only [put_self]
    rw [voiceStep_setVoice (by rw [h.voice]; exact hf)]
    exact h.step

theorem At.voiceAt (h : At id v x e r st s) :
    Meets (Model.voice id v) s (fun y s' => y = x ∧ At id v x e r st s') E := by
  rw [Containment.meets_voice]
  exact ⟨h.voice, h⟩

theorem At.spuCheckIrq (h : At id v x e r st s) (address : Word) :
    Meets (spuCheckIrq address) s (fun _ s' => At id v x e r st s') E := by
  have hkeeps : Keeps (fun s : SPUs U N => (s.core id).voices v = x ∧ (s.core id).ENDX = e ∧ s.ram = r ∧
      voiceStep (s.core id) v = st) E (Model.spuCheckIrq address) :=
    frame_spuCheckIrq (P := fun ram c => c.voices v = x ∧ c.ENDX = e ∧ ram = r ∧ voiceStep c v = st) address
  exact (hkeeps s ⟨h.voice, h.endx, h.ram, h.step⟩).mono
    (fun _ _ hs' => ⟨hs'.1, hs'.2.1, hs'.2.2.1, hs'.2.2.2⟩) fun _ he => he

theorem At.load (h : At id v x e r st s) {addr : Word} (haddr : addr.toNat < ramSize) :
    Meets (load addr) s (fun a s' => a = r addr.toNat ∧ At id v x e r st s') E := by
  rw [Model.load, meets_bind, meets_get, if_pos haddr, meets_pure]
  exact ⟨by rw [h.ram], h⟩

theorem toNat_add_small {addr : Word} {n : ℕ} (h : addr.toNat + n < ramSize) :
    (addr + BitVec.ofNat 32 n).toNat = addr.toNat + n := by
  have hsize : ramSize = 0x100000 := rfl
  rw [BitVec.toNat_add, BitVec.toNat_ofNat]
  omega

theorem At.loadNext (h : At id v x e r st s) {addr : Word} {n : ℕ} (haddr : addr.toNat + n < ramSize) :
    Meets (Model.load (addr + BitVec.ofNat 32 n)) s
      (fun a s' => a = r (addr.toNat + n) ∧ At id v x e r st s') E := by
  have hload : Meets (Model.load (addr + BitVec.ofNat 32 n)) s
      (fun a s' => a = r (addr + BitVec.ofNat 32 n).toNat ∧ At id v x e r st s') E :=
    h.load (by rwa [toNat_add_small haddr])
  rwa [toNat_add_small haddr] at hload

theorem At.loadBlock (h : At id v x e r st s) {addr : Word} (haddr : addr.toNat + 7 < ramSize) :
    Meets (loadBlock addr) s (fun ws s' => ws = blockAt r addr.toNat ∧ At id v x e r st s') E := by
  refine (h.load (by omega)).bind ?_
  rintro _ s0 ⟨rfl, h0⟩
  refine (h0.loadNext (n := 1) (by omega)).bind ?_
  rintro _ s1 ⟨rfl, h1⟩
  refine (h1.loadNext (n := 2) (by omega)).bind ?_
  rintro _ s2 ⟨rfl, h2⟩
  refine (h2.loadNext (n := 3) (by omega)).bind ?_
  rintro _ s3 ⟨rfl, h3⟩
  refine (h3.loadNext (n := 4) (by omega)).bind ?_
  rintro _ s4 ⟨rfl, h4⟩
  refine (h4.loadNext (n := 5) (by omega)).bind ?_
  rintro _ s5 ⟨rfl, h5⟩
  refine (h5.loadNext (n := 6) (by omega)).bind ?_
  rintro _ s6 ⟨rfl, h6⟩
  refine (h6.loadNext (n := 7) (by omega)).bind ?_
  rintro _ s7 ⟨rfl, h7⟩
  exact meets_pure.mpr ⟨rfl, h7⟩

/-- A voice after `switch_block`. -/
def fetched (Y : Synth U N) (r : ℕ → HalfWord) (x : Voice U) : Voice U :=
  let a := x.currentAddr &&& 0x000FFFF8
  let y := (Voice.header (r a.toNat) { x with currentAddr := a }).decoded Y (blockAt r a.toNat)
  Voice.shift { y with currentAddr := following y.currentAddr, newBlock := false }

/-- A block begins at a multiple of eight. -/
theorem toNat_blockMask (a : Word) : (a &&& 0x000FFFF8).toNat = a.toNat % ramSize / 8 * 8 := by
  have hmask : (0x000FFFF8 : Word).toNat = (2 ^ 17 - 1) * 2 ^ 3 := by decide
  rw [BitVec.toNat_and, hmask, show ramSize = 2 ^ 20 from rfl, show 8 = 2 ^ 3 from rfl]
  refine Nat.eq_of_testBit_eq fun i => ?_
  rw [Nat.testBit_and, Nat.testBit_mul_two_pow, Nat.testBit_mul_two_pow, Nat.testBit_two_pow_sub_one,
    Nat.testBit_div_two_pow, Nat.testBit_mod_two_pow]
  by_cases h3 : 3 ≤ i
  · rw [show i - 3 + 3 = i by omega]
    by_cases h20 : i < 20
    · simp [h3, h20, show i - 3 < 17 by omega]
    · simp [h3, h20, show ¬ i - 3 < 17 by omega]
  · simp [h3]

theorem At.switchBlock (h : At id v x e r st s) :
    Meets (switchBlock Y id v) s (fun _ s' => At id v (fetched Y r x) e r st s') E := by
  have hle : (x.currentAddr &&& 0x000FFFF8).toNat + 7 < ramSize := by
    rw [toNat_blockMask]
    unfold ramSize
    omega
  refine (h.modifyVoice rfl).bind fun _ s1 h1 => ?_
  refine h1.voiceAt.bind ?_
  rintro _ s2 ⟨rfl, h2⟩
  refine (h2.load (Nat.lt_of_le_of_lt (Nat.le_add_right _ 7) hle)).bind ?_
  rintro _ s3 ⟨rfl, h3⟩
  refine (h3.modifyVoice rfl).bind fun _ s4 h4 => ?_
  refine (h4.loadBlock hle).bind ?_
  rintro _ s5 ⟨rfl, h5⟩
  refine (h5.modifyVoice rfl).bind fun _ s6 h6 => ?_
  refine (h6.spuCheckIrq _).bind fun _ s7 h7 => ?_
  exact h7.modifyVoice rfl

/-- A voice after one more sample, as long as that does not end its block. -/
def counted (x : Voice U) : Voice U :=
  { x with counter := x.counter - 0x1000, sampleIdx := x.sampleIdx + 1 }

def moved (x : Voice U) : Voice U :=
  if x.sampleIdx % 4 = 0 then { x with currentAddr := following x.currentAddr } else x

def jumped (x : Voice U) : Voice U :=
  if x.sampleIdx = 24 ∧ x.loopCode.getLsbD 0 then { x with currentAddr := x.loopAddr ||| 1 } else x

def turned (x : Voice U) : Voice U := jumped (moved (counted x))

/-- The end of a looping block. -/
def released (Y : Synth U N) (x : Voice U) : Voice U :=
  if x.loopCode.getLsbD 1 then x else { x with unit := Y.endRelease x.unit }

theorem At.endBlock (h : At id v x e r st s) :
    Meets (endBlock Y id v) s (fun _ s' => At id v (released Y x) (e ||| (1 : Word) <<< v) r st s') E := by
  refine Meets.bind (R := fun _ s' => At id v x (e ||| (1 : Word) <<< v) r st s') ?_ fun _ s1 h1 => ?_
  · rw [modifyCore, meets_modify]
    refine ⟨?_, ?_, h.ram, ?_⟩
    · simp only [put_self]
      exact h.voice
    · simp only [put_self, h.endx]
    · simp only [put_self]
      exact h.step
  refine h1.voiceAt.bind ?_
  rintro _ s2 ⟨rfl, h2⟩
  unfold released
  rw [meets_ite]
  constructor
  · intro hc
    rw [if_pos hc]
    exact meets_pure.mpr h2
  · intro hc
    rw [if_neg hc]
    exact h2.modifyVoice rfl

theorem moved_eq (x : Voice U) (h : x.sampleIdx % 4 = 0) :
    moved x = { x with currentAddr := following x.currentAddr } := if_pos h

theorem sampleIdx_moved : (moved x).sampleIdx = x.sampleIdx := by unfold moved; split <;> rfl
theorem loopCode_moved : (moved x).loopCode = x.loopCode := by unfold moved; split <;> rfl
theorem pitch_moved : (moved x).pitch = x.pitch := by unfold moved; split <;> rfl
theorem pitch_jumped : (jumped x).pitch = x.pitch := by unfold jumped; split <;> rfl
theorem sampleIdx_jumped : (jumped x).sampleIdx = x.sampleIdx := by unfold jumped; split <;> rfl
theorem loopCode_jumped : (jumped x).loopCode = x.loopCode := by unfold jumped; split <;> rfl

theorem sampleIdx_turned : (turned x).sampleIdx = x.sampleIdx + 1 := by
  rw [turned, sampleIdx_jumped, sampleIdx_moved]
  rfl

theorem loopCode_turned : (turned x).loopCode = x.loopCode := by
  rw [turned, loopCode_jumped, loopCode_moved]
  rfl

/-- The voice after a turn of the loop. -/
def entered (Y : Synth U N) (r : ℕ → HalfWord) (x : Voice U) : Voice U :=
  if x.sampleIdx + 1 = 28 then
    fetched Y r (if x.loopCode.getLsbD 0 then released Y (turned x) else turned x)
  else (turned x).shift

/-- ENDX after a turn of the loop. -/
def endxAfter (v : ℕ) (x : Voice U) (e : Word) : Word :=
  if x.sampleIdx + 1 = 28 ∧ x.loopCode.getLsbD 0 then e ||| (1 : Word) <<< v else e

theorem At.voiceTurn (h : At id v x e r st s) :
    Meets (voiceTurn Y id v) s (fun _ s' => At id v (entered Y r x) (endxAfter v x e) r st s') E := by
  refine (h.modifyVoice (f := counted) rfl).bind fun _ s1 h1 => ?_
  refine h1.voiceAt.bind ?_
  rintro _ s2 ⟨rfl, h2⟩
  refine Meets.bind (R := fun _ s' => At id v (moved (counted x)) e r st s') ?_ fun _ s3 h3 => ?_
  · rw [meets_ite]
    constructor
    · intro hc
      refine (h2.spuCheckIrq _).bind fun _ s' h' => ?_
      rw [moved_eq _ hc]
      exact h'.modifyVoice rfl
    · intro hc
      rw [moved, if_neg hc]
      exact meets_pure.mpr h2
  refine Meets.bind (R := fun _ s' => At id v (turned x) e r st s') ?_ fun _ s4 h4 => ?_
  · have hcond : (moved (counted x)).sampleIdx = (counted x).sampleIdx := sampleIdx_moved
    have hcode : (moved (counted x)).loopCode = (counted x).loopCode := loopCode_moved
    rw [meets_ite]
    constructor
    · intro hc
      rw [turned, jumped, if_pos (by rw [hcond, hcode]; exact hc)]
      exact h3.modifyVoice rfl
    · intro hc
      rw [turned, jumped, if_neg (by rw [hcond, hcode]; exact hc)]
      exact meets_pure.mpr h3
  rw [meets_ite]
  constructor
  · intro hend
    have hend' : x.sampleIdx + 1 = 28 := hend
    unfold entered endxAfter
    rw [if_pos hend']
    by_cases hloop : x.loopCode.getLsbD 0
    · have hloop' : (counted x).loopCode.getLsbD 0 := hloop
      rw [if_pos hloop', if_pos hloop, if_pos ⟨hend', hloop⟩]
      exact h4.endBlock.bind fun _ s5 h5 => h5.switchBlock
    · have hloop' : ¬ (counted x).loopCode.getLsbD 0 := hloop
      rw [if_neg hloop', if_neg hloop, if_neg fun hc => hloop hc.2]
      exact Meets.bind (R := fun _ s' => At id v (turned x) e r st s') (meets_pure.mpr h4)
        fun _ s5 h5 => h5.switchBlock
  · intro hend
    have hend' : ¬ x.sampleIdx + 1 = 28 := hend
    unfold entered endxAfter
    rw [if_neg hend', if_neg fun hc => hend' hc.1]
    exact h4.modifyVoice rfl

/-! ### The voice and its walk -/

/-- What does not depend on the place in a block. -/
structure Base (p : Walk U) (x : Voice U) : Prop where
  start : x.startAddr.toNat = p.start
  loop : x.loopAddr.toNat = p.loop
  written : x.loopAddrSpecified = p.written
  unit : x.unit = p.unit
  history : ∃ l, p.entered = l ++ [x.old3, x.old2, x.old1, x.nextSample]

/-- The address that the voice has come to. -/
def position (p : Walk U) : ℕ :=
  if 24 ≤ p.index ∧ p.current.ends then p.next + 1 else p.current.addr + 1 + p.index / 4

/-- The place in a block. -/
structure Place (p : Walk U) (x : Voice U) : Prop where
  block : BlockAddr p.current.addr
  sample : x.sampleIdx = p.index
  pcm : x.pcm = p.current.pcm
  ends : x.loopCode.getLsbD 0 = p.current.ends
  repeats : x.loopCode.getLsbD 1 = p.current.repeats
  newBlock : x.newBlock = false
  addr : x.currentAddr.toNat = position p

/-- The voice is about to take a block. -/
def Ready (p : Walk U) (x : Voice U) : Prop := x.currentAddr.toNat % ramSize / 8 * 8 = p.next

variable {p : Walk U}

theorem toNat_following_eq (a : Word) : (following a).toNat = (a.toNat + 1) % ramSize := by
  have hmask : addrMask.toNat = 2 ^ 20 - 1 := rfl
  have hsize : ramSize = 2 ^ 20 := rfl
  rw [following, BitVec.toNat_and, hmask, Nat.and_two_pow_sub_one_eq_mod, BitVec.toNat_add, hsize,
    show (1 : Word).toNat = 1 from rfl, Nat.mod_mod_of_dvd _ (by decide)]

theorem history_shift {es : List Sample} {a b c d : Sample} (n : Sample)
    (h : ∃ l, es = l ++ [a, b, c, d]) : ∃ l, es ++ [n] = l ++ [b, c, d, n] := by
  obtain ⟨l, hl⟩ := h
  refine ⟨l ++ [a], ?_⟩
  rw [hl, List.append_assoc, List.append_assoc]
  rfl

theorem fetch_follows (h : Base p x) (hnext : BlockAddr p.next) (hx : Ready p x) :
    Base (p.fetch Y r) (fetched Y r x) ∧ Place (p.fetch Y r) (fetched Y r x) := by
  have ha : (x.currentAddr &&& 0x000FFFF8).toNat = p.next := by rw [toNat_blockMask, hx]
  have hhead : (blockAt r p.next).headD 0 = r p.next := rfl
  refine ⟨⟨h.start, ?_, h.written, ?_, ?_⟩, ⟨hnext, rfl, ?_, ?_, ?_, rfl, ?_⟩⟩
  · simp only [fetched, Voice.shift, Voice.decoded, Voice.header, Walk.fetch, Block.starts, Block.header, ha,
      hhead, h.written]
    split
    · exact ha
    · exact h.loop
  · simp only [fetched, Voice.shift, Voice.decoded, Voice.header, Walk.fetch, ha, h.unit]
  · simp only [fetched, Voice.shift, Voice.decoded, Voice.header, Walk.fetch, ha, h.unit]
    exact history_shift _ h.history
  · simp only [fetched, Voice.shift, Voice.decoded, Voice.header, Walk.fetch, ha, h.unit]
  · simp only [fetched, Voice.shift, Voice.decoded, Voice.header, Walk.fetch, Block.ends, Block.header, ha,
      hhead]
    simp
  · simp only [fetched, Voice.shift, Voice.decoded, Voice.header, Walk.fetch, Block.repeats, Block.header, ha,
      hhead]
    simp
  · have hlt := hnext.2
    have h8 := hnext.1
    simp only [fetched, Voice.shift, Voice.decoded, Voice.header, Walk.fetch, position, toNat_following_eq, ha]
    unfold ramSize at *
    simp only [show ¬ 24 ≤ 0 by decide, false_and, if_false]
    omega

/-- The walk after one more sample, as long as that does not end its block. -/
def onward (p : Walk U) : Walk U := Walk.look 24 { p with index := p.index + 1 }

theorem toNat_or_one {a : Word} (h : a.toNat % 8 = 0) : (a ||| 1).toNat = a.toNat + 1 := by
  have hmul : a.toNat = 2 ^ 3 * (a.toNat / 8) := by omega
  rw [BitVec.toNat_or, show (1 : Word).toNat = 1 from rfl, hmul,
    ← Nat.two_pow_add_eq_or_of_lt (by decide : 1 < 2 ^ 3)]

theorem toNat_turned (hloop : x.loopAddr.toNat % 8 = 0) : (turned x).currentAddr.toNat =
    if x.sampleIdx + 1 = 24 ∧ x.loopCode.getLsbD 0 then x.loopAddr.toNat + 1
    else if (x.sampleIdx + 1) % 4 = 0 then (x.currentAddr.toNat + 1) % ramSize
    else x.currentAddr.toNat := by
  have hloopAddr : (moved (counted x)).loopAddr = x.loopAddr := by unfold moved; split <;> rfl
  rw [turned, jumped, sampleIdx_moved, loopCode_moved]
  by_cases hc : x.sampleIdx + 1 = 24 ∧ x.loopCode.getLsbD 0
  · have hc' : (counted x).sampleIdx = 24 ∧ (counted x).loopCode.getLsbD 0 := hc
    rw [if_pos hc', if_pos hc]
    simp only [hloopAddr]
    exact toNat_or_one hloop
  · have hc' : ¬ ((counted x).sampleIdx = 24 ∧ (counted x).loopCode.getLsbD 0) := hc
    rw [if_neg hc', if_neg hc, moved]
    by_cases h4 : (x.sampleIdx + 1) % 4 = 0
    · have h4' : (counted x).sampleIdx % 4 = 0 := h4
      rw [if_pos h4', if_pos h4]
      simp only [toNat_following_eq]
      rfl
    · have h4' : ¬ (counted x).sampleIdx % 4 = 0 := h4
      rw [if_neg h4', if_neg h4]
      rfl

/-- Everything but the counter and the address. -/
theorem turned_eq : turned x = { x with
    counter := (turned x).counter
    sampleIdx := (turned x).sampleIdx
    currentAddr := (turned x).currentAddr } := by
  unfold turned jumped moved counted
  split <;> split <;> rfl

theorem counter_turned : (turned x).counter = x.counter - 0x1000 := by
  unfold turned jumped moved counted
  split <;> split <;> rfl

theorem Base.turned (h : Base p x) : Base (onward p) (turned x) := by
  rw [turned_eq]
  exact ⟨h.start, h.loop, h.written, h.unit, h.history⟩

/-- Where the address stands after a turn. -/
theorem toNat_turned_onward (h : Base p x) (hx : Place p x) (hs : Sound p) (hp : p.pending = false) :
    (p.index + 1 < 28 → (turned x).currentAddr.toNat = position (onward p)) ∧
      (p.index + 1 = 28 → Ready (onward p) (turned x)) := by
  have hloop : x.loopAddr.toNat % 8 = 0 := by
    rw [h.loop]
    exact hs.loop.1
  have hindex := hs.index hp
  have hnext : BlockAddr p.next := hs.next
  have hcurrent := (hs.playing hp).next
  have hblock := hx.block
  have haddr := hx.addr
  unfold Ready
  rw [toNat_turned hloop, hx.sample, hx.ends, haddr, h.loop]
  unfold position onward Walk.look BlockAddr ramSize at *
  dsimp only
  cases hends : p.current.ends with
  | true =>
    simp only [hends, and_true] at haddr ⊢
    split_ifs <;> omega
  | false =>
    have hnext' := hcurrent hends
    simp only [hends, and_false, Bool.false_eq_true, if_false] at haddr ⊢
    split_ifs <;> omega

theorem Place.turned (hx : Place p x)
    (haddr : (Voices.turned x).currentAddr.toNat = position (onward p)) :
    Place (onward p) (Voices.turned x) := by
  have hidx : (Voices.turned x).sampleIdx = p.index + 1 := by rw [sampleIdx_turned, hx.sample]
  rw [turned_eq]
  exact ⟨hx.block, hidx, hx.pcm, hx.ends, hx.repeats, hx.newBlock, haddr⟩

theorem finish_follows {q : Walk U} {y : Voice U} (h : Base q y)
    (hends : y.loopCode.getLsbD 0 = q.current.ends) (hrepeats : y.loopCode.getLsbD 1 = q.current.repeats) :
    Base (q.finish Y) (if y.loopCode.getLsbD 0 then released Y y else y) := by
  unfold Walk.finish released
  rw [hends, hrepeats]
  split
  · split
    · exact ⟨h.start, h.loop, h.written, h.unit, h.history⟩
    · exact ⟨h.start, h.loop, h.written, by rw [h.unit], h.history⟩
  · exact h

theorem enter_eq (p : Walk U) : p.enter Y 24 r =
    if p.index + 1 = 28 then ((onward p).finish Y).fetch Y r
    else { onward p with entered := p.entered ++ [p.current.pcm (p.index + 1)] } := rfl

theorem enter_follows (h : Base p x) (hx : Place p x) (hs : Sound p) (hp : p.pending = false) :
    Base (p.enter Y 24 r) (entered Y r x) ∧ Place (p.enter Y 24 r) (entered Y r x) := by
  have haddr := toNat_turned_onward h hx hs hp
  rw [enter_eq, entered, hx.sample]
  by_cases hend : p.index + 1 = 28
  · rw [if_pos hend, if_pos hend]
    have hcode : (turned x).loopCode = x.loopCode := loopCode_turned
    have hfinish := finish_follows (Y := Y) h.turned (by rw [hcode]; exact hx.ends)
      (by rw [hcode]; exact hx.repeats)
    have hnext : BlockAddr ((onward p).finish Y).next := by
      rw [Walk.next_finish]
      exact blockAddr_look hs.loop hs.next
    have hready : Ready ((onward p).finish Y)
        (if (turned x).loopCode.getLsbD 0 then released Y (turned x) else turned x) := by
      have hsame : (if (turned x).loopCode.getLsbD 0 then released Y (turned x) else turned x).currentAddr =
          (turned x).currentAddr := by
        unfold released
        split_ifs <;> rfl
      unfold Ready
      rw [hsame, Walk.next_finish]
      exact haddr.2 hend
    rw [← hcode]
    exact fetch_follows hfinish hnext hready
  · rw [if_neg hend, if_neg hend]
    have hlt : p.index + 1 < 28 := by
      have hindex := hs.index hp
      omega
    have hbase := h.turned
    have hplace := hx.turned (haddr.1 hlt)
    generalize turned x = y at hbase hplace
    refine ⟨⟨hbase.start, hbase.loop, hbase.written, hbase.unit, ?_⟩,
      ⟨hplace.block, hplace.sample, hplace.pcm, hplace.ends, hplace.repeats, hplace.newBlock, hplace.addr⟩⟩
    have hpcm : y.pcm y.sampleIdx = p.current.pcm (p.index + 1) := by
      rw [hplace.pcm, hplace.sample]
      rfl
    rw [← hpcm]
    exact history_shift _ hbase.history

theorem counter_released : (released Y x).counter = x.counter := by
  unfold released
  split <;> rfl

theorem counter_fetched : (fetched Y r x).counter = x.counter := rfl

theorem counter_entered : (entered Y r x).counter = x.counter - 0x1000 := by
  rw [← counter_turned]
  unfold entered
  generalize turned x = y
  split
  · rw [counter_fetched]
    split
    · exact counter_released
    · rfl
  · rfl

theorem endx_enter (hv : v < 24) (hx : Place p x) (he : e.getLsbD v = p.endx) :
    (endxAfter v x e).getLsbD v = (p.enter Y 24 r).endx := by
  rw [enter_eq, endxAfter, hx.sample, hx.ends]
  by_cases hend : p.index + 1 = 28
  · rw [if_pos hend]
    by_cases hends : p.current.ends = true
    · have honward : (onward p).current.ends = true := hends
      rw [if_pos ⟨hend, hends⟩]
      simp only [Walk.fetch, Walk.finish, honward, if_true, BitVec.getLsbD_or, BitVec.getLsbD_shiftLeft,
        Nat.sub_self]
      simp [show v < 32 by omega]
    · have honward : ¬ (onward p).current.ends = true := hends
      rw [if_neg fun hc => hends hc.2]
      simp only [Walk.fetch, Walk.finish, honward]
      exact he
  · rw [if_neg hend, if_neg fun hc => hend hc.1]
    exact he

/-! ### A sample -/

/-- The voice, ENDX and the counter against the walk. -/
structure Follows (id : Id) (v : ℕ) (p : Walk U) (s : SPUs U N) : Prop where
  sound : Sound p
  base : Base p ((s.core id).voices v)
  fraction : ((s.core id).voices v).counter.toNat = p.fraction
  endx : (s.core id).ENDX.getLsbD v = p.endx
  pending : p.pending = true → ((s.core id).voices v).newBlock = true ∧ Ready p ((s.core id).voices v)
  place : p.pending = false → Place p ((s.core id).voices v)

/-- The loop of `voice_gen_sample`: after `i` turns. -/
structure Turning (id : Id) (v : ℕ) (r : ℕ → HalfWord) (st : Word) (total : ℕ) (p : Walk U) (i : ℕ)
    (s : SPUs U N) : Prop where
  voice : ∃ x e, At id v x e r st s ∧ Base p x ∧ Place p x ∧ e.getLsbD v = p.endx ∧
    x.counter.toNat + 0x1000 * i = total
  sound : Sound p
  pending : p.pending = false

theorem meets_turns (hv : v < 24) {total : ℕ} (h : Turning id v r st total p 0 s) {n : ℕ}
    (hn : 0x1000 * n ≤ total) :
    Meets (upTo (fun _ => voiceTurn Y id v) n 0) s
      (fun _ s' => Turning id v r st total ((Walk.enter Y 24 r)^[n] p) n s') E := by
  have hrun := meets_upTo (E := E) (b := fun _ => voiceTurn Y id v) n 0 (s := s)
    (I := fun i s' => Turning id v r st total ((Walk.enter Y 24 r)^[i] p) i s') ?_ h
  · rwa [Nat.zero_add] at hrun
  · rintro i s' - hi ⟨⟨x, e, hat, hbase, hplace, he, hcounter⟩, hsound, hpending⟩
    refine hat.voiceTurn.mono (fun _ s'' hat' => ?_) fun _ hf => hf
    rw [Function.iterate_succ_apply']
    obtain ⟨hbase', hplace'⟩ := enter_follows (Y := Y) (r := r) hbase hplace hsound hpending
    refine ⟨⟨_, _, hat', hbase', hplace', endx_enter hv hplace he, ?_⟩, hsound.enter hpending,
      pending_enter hpending⟩
    have hge : 0x1000 ≤ x.counter.toNat := by omega
    rw [counter_entered, BitVec.toNat_sub, show (0x1000 : Word).toNat = 0x1000 from rfl]
    have hlt := x.counter.isLt
    omega

theorem toNat_capped (w : Word) : (if w.toNat < 0x3FFF then w else 0x3FFF).toNat ≤ 0x3FFF := by
  split
  · omega
  · decide

theorem voiceStep_le (c : Core U N) (v : ℕ) : (voiceStep c v).toNat ≤ 0x3FFF := toNat_capped _

/-- A core after the turns. -/
structure Turned (v : ℕ) (p : Walk U) (f : ℕ) (c : Core U N) : Prop where
  base : Base p (c.voices v)
  place : Place p (c.voices v)
  endx : c.ENDX.getLsbD v = p.endx
  counter : (c.voices v).counter.toNat = f

theorem Turning.turned {total i : ℕ} (h : Turning id v r st total p i s) :
    Turned v p (total - 0x1000 * i) (s.core id) := by
  obtain ⟨⟨x, e, hat, hbase, hplace, he, hcounter⟩, -, -⟩ := h
  refine ⟨?_, ?_, ?_, ?_⟩
  · rw [hat.voice]
    exact hbase
  · rw [hat.voice]
    exact hplace
  · rw [hat.endx]
    exact he
  · rw [hat.voice]
    omega

/-- The first block is taken before the step. -/
theorem meets_first (h : Follows id v p s) :
    Meets (if ((s.core id).voices v).newBlock then switchBlock Y id v else pure ⟨⟩) s
      (fun _ s' => ∃ x e, At id v x e s.ram (voiceStep (s.core id) v) s' ∧
        Base (if p.pending then p.fetch Y s.ram else p) x ∧
        Place (if p.pending then p.fetch Y s.ram else p) x ∧ e.getLsbD v = p.endx ∧
        x.counter.toNat = p.fraction) E := by
  have hat : At id v ((s.core id).voices v) (s.core id).ENDX s.ram (voiceStep (s.core id) v) s :=
    ⟨rfl, rfl, rfl, rfl⟩
  by_cases hpending : p.pending = true
  · obtain ⟨hnew, hready⟩ := h.pending hpending
    rw [if_pos hnew]
    refine hat.switchBlock.mono (fun _ s' hs' => ?_) fun _ hf => hf
    simp only [hpending, if_true]
    obtain ⟨hbase, hplace⟩ := fetch_follows (Y := Y) (r := s.ram) h.base h.sound.next hready
    exact ⟨_, _, hs', hbase, hplace, h.endx, h.fraction⟩
  · have hfalse : p.pending = false := by simpa using hpending
    have hplace := h.place hfalse
    rw [if_neg (by rw [hplace.newBlock]; decide), meets_pure]
    simp only [hfalse, Bool.false_eq_true, if_false]
    exact ⟨_, _, hat, h.base, hplace, h.endx, h.fraction⟩

/-- The counter moves on by the step. -/
theorem meets_counted {f : ℕ} (hf : f < 0x1000) (hs : Sound p) (hp : p.pending = false)
    (h : ∃ x e, At id v x e r st s ∧ Base p x ∧ Place p x ∧ e.getLsbD v = p.endx ∧ x.counter.toNat = f) :
    Meets (modifyCore id fun c => c.setVoice v fun x => { x with counter := x.counter + voiceStep c v }) s
      (fun _ s' => Turning id v r st (f + st.toNat) p 0 s') E := by
  obtain ⟨x, e, hat, hbase, hplace, he, hcounter⟩ := h
  have hat' : Meets (modifyVoice id v fun x => { x with counter := x.counter + st }) s
      (fun _ s' => At id v { x with counter := x.counter + st } e r st s') E := hat.modifyVoice rfl
  have hsame : (modifyCore id fun c => c.setVoice v fun x => { x with counter := x.counter + voiceStep c v } :
      M U N PUnit).run s = (modifyVoice id v fun x => { x with counter := x.counter + st }).run s := by
    show Except.ok _ = Except.ok _
    simp only [hat.step]
  have hle : st.toNat ≤ 0x3FFF := by
    rw [← hat.step]
    exact voiceStep_le _ _
  unfold Meets
  rw [hsame]
  refine hat'.mono (fun _ s' hs' => ?_) fun _ hf => hf
  refine ⟨⟨_, e, hs', ⟨hbase.start, hbase.loop, hbase.written, hbase.unit, hbase.history⟩,
    ⟨hplace.block, hplace.sample, hplace.pcm, hplace.ends, hplace.repeats, hplace.newBlock, hplace.addr⟩, he,
    ?_⟩, hs, hp⟩
  show (x.counter + st).toNat + 0x1000 * 0 = f + st.toNat
  rw [BitVec.toNat_add, hcounter]
  omega

theorem keeps_turned {f : ℕ} {k : Id} {g : Core U N → Core U N}
    (hg : ∀ c, Turned v p f c → Turned v p f (g c)) :
    Keeps (fun s => Turned v p f (s.core k)) E (modifyCore k g : M U N PUnit) := by
  refine keeps_modify fun s hs => ?_
  simp only [put_self]
  exact hg _ hs

/-- What follows the turns: the outputs, and the envelope's advance. -/
theorem meets_outputs {f : ℕ} {x : Voice U} {out : Stereo} (h : Turned v p f (s.core id)) :
    Meets (do
      (if v = 1 then memout id VOICE1 x.outx else pure ⟨⟩)
      (if v = 3 then memout id VOICE3 x.outx else pure ⟨⟩)
      modifyVoice id v fun x => { x with unit := Y.advance x.unit }
      pure out : M U N Stereo) s
      (fun _ s' => Turned v { p with unit := Y.advance p.unit } f (s'.core id)) (· ≠ .died) := by
  have hram : ∀ i, Stop.ram i ≠ Stop.died := by
    intro i hc
    cases hc
  have hout : ∀ (c : Prop) [Decidable c] (area : Word) (sample : Sample),
      Keeps (fun s => Turned v p f (s.core id)) (· ≠ .died)
        (if c then memout id area sample else pure ⟨⟩ : M U N PUnit) := fun c _ area sample =>
    keeps_ite (fun _ => frame_memout (P := Turned v p f) hram) fun _ => keeps_pure _
  refine (hout (v = 1) VOICE1 x.outx).meets_bind h fun _ s1 h1 => ?_
  refine (hout (v = 3) VOICE3 x.outx).meets_bind h1 fun _ s2 h2 => ?_
  rw [meets_bind, modifyVoice, modifyCore, meets_modify, meets_pure]
  obtain ⟨hbase, hplace, he, hcounter⟩ := h2
  refine ⟨?_, ?_, ?_, ?_⟩
  · rw [voice_put]
    exact ⟨hbase.start, hbase.loop, hbase.written, by simp only [hbase.unit], hbase.history⟩
  · rw [voice_put]
    exact ⟨hplace.block, hplace.sample, hplace.pcm, hplace.ends, hplace.repeats, hplace.newBlock, hplace.addr⟩
  · simp only [put_self]
    exact he
  · rw [voice_put]
    exact hcounter

/-- **A sample of a voice is a step of its walk.** -/
theorem meets_voiceGenSample (hv : v < 24) (h : Follows id v p s) :
    Meets (voiceGenSample Y id v) s
      (fun _ s' => Follows id v (p.play Y 24 s.ram (voiceStep (s.core id) v).toNat) s') (· ≠ .died) := by
  have hfraction := h.sound.fraction
  set p0 := if p.pending then p.fetch Y s.ram else p with hp0
  have hsound : Sound p0 ∧ p0.pending = false ∧ p0.fraction = p.fraction ∧ p0.endx = p.endx := by
    rw [hp0]
    split_ifs with hpending
    · exact ⟨h.sound.fetch hpending, rfl, rfl, rfl⟩
    · exact ⟨h.sound, by simpa using hpending, rfl, rfl⟩
  obtain ⟨hs0, hpending0, hfraction0, hendx0⟩ := hsound
  unfold voiceGenSample
  rw [meets_bind, Containment.meets_voice]
  refine (meets_first (Y := Y) h).bind fun _ s1 h1 => ?_
  rw [← hp0] at h1
  rw [← hendx0] at h1
  refine (meets_counted hfraction hs0 hpending0 h1).bind fun _ s2 h2 => ?_
  rw [meets_bind, Containment.meets_voice]
  have hturns : ((s2.core id).voices v).counter.toNat = p.fraction + (voiceStep (s.core id) v).toNat := by
    have hcounter := h2.turned.counter
    omega
  rw [hturns]
  set total := p.fraction + (voiceStep (s.core id) v).toNat with htotal
  have hn : 0x1000 * (total / 0x1000) ≤ total := Nat.mul_div_le _ _
  refine (meets_turns (Y := Y) hv h2 hn).bind fun _ s3 h3 => ?_
  have hturned := h3.turned
  have hmod : total - 0x1000 * (total / 0x1000) = total % 0x1000 := by omega
  rw [hmod] at hturned
  have hs3 := h3.sound
  have hpending3 := h3.pending
  refine (keeps_turned (E := (· ≠ .died)) (fun c hc => ?_)).meets_bind hturned fun _ s4 h4 => ?_
  · obtain ⟨hbase, hplace, he, hcounter⟩ := hc
    have hvoice : ∀ f : Voice U → Voice U, (c.setVoice v f).voices v = f (c.voices v) := fun _ => if_pos rfl
    refine ⟨?_, ?_, he, ?_⟩
    · rw [hvoice]
      exact ⟨hbase.start, hbase.loop, hbase.written, hbase.unit, hbase.history⟩
    · rw [hvoice]
      exact ⟨hplace.block, hplace.sample, hplace.pcm, hplace.ends, hplace.repeats, hplace.newBlock,
        hplace.addr⟩
    · rw [hvoice]
      exact hcounter
  rw [meets_bind, Containment.meets_voice]
  refine (meets_outputs (Y := Y) h4).mono (fun _ s5 h5 => ?_) fun _ he => he
  obtain ⟨hbase, hplace, he, hcounter⟩ := h5
  have hsound5 : Sound (p.play Y 24 s.ram (voiceStep (s.core id) v).toNat) :=
    h.sound.play (voiceStep (s.core id) v).toNat
  have hplay : p.play Y 24 s.ram (voiceStep (s.core id) v).toNat =
      { (Walk.enter Y 24 s.ram)^[total / 0x1000] p0 with
        fraction := total % 0x1000
        unit := Y.advance ((Walk.enter Y 24 s.ram)^[total / 0x1000] p0).unit } := by
    rw [Walk.play, ← hp0]
  rw [hplay] at hsound5 ⊢
  refine ⟨hsound5, ⟨hbase.start, hbase.loop, hbase.written, hbase.unit, hbase.history⟩, hcounter, he, ?_, ?_⟩
  · intro hpending
    have hcontra : ((Walk.enter Y 24 s.ram)^[total / 0x1000] p0).pending = true := hpending
    rw [hpending3] at hcontra
    cases hcontra
  · intro _
    exact ⟨hplace.block, hplace.sample, hplace.pcm, hplace.ends, hplace.repeats, hplace.newBlock, hplace.addr⟩

/-! ### Keying on -/

/-- A voice after `key_on_voice`. -/
def keyedOn (Y : Synth U N) (x : Voice U) : Voice U :=
  { x with
    currentAddr := x.startAddr ||| 1
    newBlock := true
    loopAddrSpecified := false
    old3 := 0
    old2 := 0
    old1 := 0
    nextSample := 0
    unit := Y.attack x.unit }

theorem Follows.at (_ : Follows id v p s) :
    At id v ((s.core id).voices v) (s.core id).ENDX s.ram (voiceStep (s.core id) v) s := ⟨rfl, rfl, rfl, rfl⟩

theorem At.keyOnVoice (h : At id v x e r st s) : Meets (keyOnVoice Y id v) s
    (fun _ s' => At id v (keyedOn Y x) (e &&& ~~~((1 : Word) <<< v)) r st s') E := by
  refine Meets.bind (R := fun _ s' => At id v x (e &&& ~~~((1 : Word) <<< v)) r st s') ?_ fun _ s1 h1 => ?_
  · rw [modifyCore, meets_modify]
    refine ⟨?_, ?_, h.ram, ?_⟩
    · simp only [put_self]
      exact h.voice
    · simp only [put_self, h.endx]
    · simp only [put_self]
      exact h.step
  · exact h1.modifyVoice rfl

end DobieStation.Spu.Voices
