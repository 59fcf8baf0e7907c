import DobieStation.Spu.Model
import Mathlib.Logic.Function.Iterate
import Mathlib.Data.List.Chain

/-! # What a voice plays

The walk of a voice through the blocks of the RAM, apart from the addresses in which the code keeps its
place. A voice plays the blocks sample by sample: after the last sample of a block comes the first one of
the next block, which is the block behind it, or the loop address where the block has the end flag. The
number `k` of the sample at which that address is looked up is a parameter: 28 is the end of the block. -/

namespace DobieStation.Spu.Playback

open DobieStation.Spu.Model

/-- A block as it was decoded. -/
structure Block where
  addr : ℕ
  words : List HalfWord
  pcm : ℕ → Sample

def Block.header (b : Block) : HalfWord := b.words.headD 0

def Block.ends (b : Block) : Bool := b.header.getLsbD 8
def Block.repeats (b : Block) : Bool := b.header.getLsbD 9
def Block.starts (b : Block) : Bool := b.header.getLsbD 10

def Block.samples (b : Block) : List Sample := (List.range 28).map b.pcm

/-- A voice since it was keyed on. -/
structure Walk (U : Type) where
  start : ℕ
  loop : ℕ
  /-- The loop address was written since then. -/
  written : Bool
  /-- No block has been decoded. -/
  pending : Bool
  /-- The blocks that were decoded, in their order. -/
  blocks : List Block
  current : Block
  /-- The sample of the current block that was entered last. -/
  index : ℕ
  /-- The address of the block to come. -/
  next : ℕ
  /-- What is left of the steps, in 4096ths of a sample. -/
  fraction : ℕ
  /-- The samples that have entered the interpolation, after the four it began with. -/
  entered : List Sample
  endx : Bool
  unit : U

variable {U N : Type} (Y : Synth U N)

/-- The eight half-words of a block. -/
def blockAt (ram : ℕ → HalfWord) (addr : ℕ) : List HalfWord :=
  (List.range 8).map fun i => ram (addr + i)

/-- The next block is decoded, and its first sample is entered. -/
def Walk.fetch (ram : ℕ → HalfWord) (p : Walk U) : Walk U :=
  let r := Y.decodeBlock (blockAt ram p.next) p.unit
  let b : Block := ⟨p.next, blockAt ram p.next, r.1⟩
  { p with
    loop := if b.starts ∧ ¬ p.written then p.next else p.loop
    pending := false
    blocks := p.blocks ++ [b]
    current := b
    index := 0
    next := (p.next + 8) % ramSize
    entered := p.entered ++ [b.pcm 0]
    unit := r.2 }

/-- The end of a block: without the repeat flag the voice is released, and its volume is 0. -/
def Walk.finish (p : Walk U) : Walk U :=
  if p.current.ends then
    { p with
      endx := true
      unit := if p.current.repeats then p.unit else Y.endRelease p.unit }
  else p

/-- The loop address is looked up at the sample `k` of a block with the end flag. -/
def Walk.look (k : ℕ) (p : Walk U) : Walk U :=
  { p with next := if p.index = k ∧ p.current.ends then p.loop else p.next }

/-- The next sample is entered. -/
def Walk.enter (k : ℕ) (ram : ℕ → HalfWord) (p : Walk U) : Walk U :=
  let q := Walk.look k { p with index := p.index + 1 }
  if q.index = 28 then (q.finish Y).fetch Y ram
  else { q with entered := q.entered ++ [q.current.pcm q.index] }

/-- A step of the pitch: a sample is entered for each 4096 of it. -/
def Walk.play (k : ℕ) (ram : ℕ → HalfWord) (step : ℕ) (p : Walk U) : Walk U :=
  let p0 := if p.pending then p.fetch Y ram else p
  let p1 := (Walk.enter Y k ram)^[(p.fraction + step) / 0x1000] p0
  { p1 with fraction := (p.fraction + step) % 0x1000, unit := Y.advance p1.unit }

/-- The voice is keyed on. -/
def Walk.keyOn (p : Walk U) : Walk U :=
  { p with
    written := false
    pending := true
    blocks := []
    next := p.start
    entered := [0, 0, 0, 0]
    endx := false
    unit := Y.attack p.unit }

/-- A write of one of the addresses of the voice. -/
def Walk.writeAddr (reg value : ℕ) (p : Walk U) : Walk U :=
  match reg with
  | 0 => { p with start := p.start % 65536 + value % 16 * 65536 }
  | 2 => { p with start := p.start / 65536 * 65536 + value / 8 * 8 }
  | 4 => { p with loop := p.loop % 65536 + value % 16 * 65536, written := true }
  | 6 => { p with loop := p.loop / 65536 * 65536 + value / 8 * 8, written := true }
  | _ => p

/-- What the rest of the program does to the envelope and to ENDX. -/
def Walk.apart (endx : Bool) (unit : U) (p : Walk U) : Walk U :=
  { p with endx := endx, unit := unit }

/-! ### What has been played -/

/-- An address of a block. -/
def BlockAddr (a : ℕ) : Prop := a % 8 = 0 ∧ a < ramSize

/-- The samples of the blocks up to the last one entered. -/
def Walk.played (p : Walk U) : List Sample :=
  p.blocks.dropLast.flatMap Block.samples ++ p.current.samples.take (p.index + 1)

/-- While blocks are played: every sample of the blocks so far has been entered once and in order, and
without the end flag a block is followed by the eight half-words behind it. -/
structure Playing (p : Walk U) : Prop where
  last : p.blocks.getLast? = some p.current
  entered : p.entered.drop 4 = p.played
  chain : p.blocks.IsChain fun b b' => b.ends = false → b'.addr = (b.addr + 8) % ramSize
  next : p.current.ends = false → p.next = (p.current.addr + 8) % ramSize

structure Sound (p : Walk U) : Prop where
  start : BlockAddr p.start
  loop : BlockAddr p.loop
  next : BlockAddr p.next
  fraction : p.fraction < 0x1000
  length : 4 ≤ p.entered.length
  pending : p.pending = true → p.blocks = [] ∧ p.entered.length = 4
  index : p.pending = false → p.index < 28
  playing : p.pending = false → Playing p

variable {Y} {p : Walk U} {ram : ℕ → HalfWord} {k : ℕ}

/-- Every block so far has been played to its end. -/
structure Complete (p : Walk U) : Prop where
  entered : p.entered.drop 4 = p.blocks.flatMap Block.samples
  chain : p.blocks.IsChain fun b b' => b.ends = false → b'.addr = (b.addr + 8) % ramSize
  next : ∀ b ∈ p.blocks.getLast?, b.ends = false → p.next = (b.addr + 8) % ramSize

theorem samples_take_one (b : Block) : b.samples.take 1 = [b.pcm 0] := rfl

theorem samples_take_succ (b : Block) {n : ℕ} (h : n < 28) :
    b.samples.take (n + 1) = b.samples.take n ++ [b.pcm n] := by
  have hlt : n < b.samples.length := by
    rw [Block.samples, List.length_map, List.length_range]
    exact h
  rw [List.take_succ_eq_append_getElem hlt]
  congr 2
  simp only [Block.samples, List.getElem_map, List.getElem_range]

theorem samples_take_all (b : Block) : b.samples.take 28 = b.samples :=
  List.take_of_length_le (by simp only [Block.samples, List.length_map, List.length_range, le_refl])

theorem blockAddr_next {a : ℕ} (h : BlockAddr a) : BlockAddr ((a + 8) % ramSize) := by
  obtain ⟨h8, hlt⟩ := h
  unfold BlockAddr ramSize at *
  exact ⟨by omega, by omega⟩

theorem Complete.fetch (h : Complete p) (hlen : 4 ≤ p.entered.length) : Playing (p.fetch Y ram) where
  last := by
    simp only [Walk.fetch]
    exact List.getLast?_concat
  entered := by
    simp only [Walk.fetch, Walk.played]
    rw [List.drop_append_of_le_length hlen, h.entered, List.dropLast_concat, Nat.zero_add, samples_take_one]
  chain := by
    simp only [Walk.fetch]
    refine List.IsChain.append h.chain (List.isChain_singleton _) ?_
    intro b hb b' hb' hends
    rw [List.head?_cons, Option.mem_some_iff] at hb'
    rw [← hb']
    exact h.next b hb hends
  next := fun _ => rfl

theorem Playing.complete (h : Playing p) (hindex : p.index = 27) : Complete p where
  entered := by
    have hne : p.blocks ≠ [] := by
      intro hnil
      have hlast := h.last
      rw [hnil] at hlast
      cases hlast
    have hlast : p.blocks.getLast hne = p.current := by
      have hsome := h.last
      rw [List.getLast?_eq_some_getLast hne] at hsome
      exact Option.some.inj hsome
    rw [h.entered, Walk.played, hindex, samples_take_all]
    conv_rhs => rw [← List.dropLast_append_getLast hne, hlast]
    rw [List.flatMap_append, List.flatMap_singleton]
  chain := h.chain
  next := by
    intro b hb hends
    have hcurrent : b = p.current := by
      have hlast := h.last
      rw [Option.mem_def.mp hb] at hlast
      exact Option.some.inj hlast
    rw [hcurrent] at hends ⊢
    exact h.next hends

theorem Sound.complete (h : Sound p) (hpending : p.pending = true) : Complete p := by
  obtain ⟨hblocks, hlen⟩ := h.pending hpending
  refine ⟨?_, ?_, ?_⟩
  · rw [hblocks, List.drop_eq_nil_of_le (Nat.le_of_eq hlen)]
    rfl
  · rw [hblocks]
    exact List.isChain_nil
  · rw [hblocks]
    rintro b ⟨⟩

/-- A block is taken from the address of a block. -/
theorem sound_fetch (hstart : BlockAddr p.start) (hloop : BlockAddr p.loop) (hnext : BlockAddr p.next)
    (hfraction : p.fraction < 0x1000) (hlen : 4 ≤ p.entered.length) (h : Complete p) :
    Sound (p.fetch Y ram) where
  start := hstart
  loop := by
    simp only [Walk.fetch]
    split
    · exact hnext
    · exact hloop
  next := blockAddr_next hnext
  fraction := hfraction
  length := by
    simp only [Walk.fetch, List.length_append]
    omega
  pending := by
    intro hfalse
    cases hfalse
  index := fun _ => by
    show 0 < 28
    decide
  playing := fun _ => h.fetch hlen

theorem Sound.fetch (h : Sound p) (hpending : p.pending = true) : Sound (p.fetch Y ram) :=
  sound_fetch h.start h.loop h.next h.fraction h.length (h.complete hpending)

theorem Walk.blocks_finish : (p.finish Y).blocks = p.blocks := by unfold Walk.finish; split <;> rfl
theorem Walk.next_finish : (p.finish Y).next = p.next := by unfold Walk.finish; split <;> rfl
theorem Walk.entered_finish : (p.finish Y).entered = p.entered := by unfold Walk.finish; split <;> rfl
theorem Walk.start_finish : (p.finish Y).start = p.start := by unfold Walk.finish; split <;> rfl
theorem Walk.loop_finish : (p.finish Y).loop = p.loop := by unfold Walk.finish; split <;> rfl
theorem Walk.fraction_finish : (p.finish Y).fraction = p.fraction := by unfold Walk.finish; split <;> rfl

theorem Complete.finish (h : Complete p) : Complete (p.finish Y) where
  entered := by rw [Walk.entered_finish, Walk.blocks_finish, h.entered]
  chain := by rw [Walk.blocks_finish]; exact h.chain
  next := by rw [Walk.blocks_finish, Walk.next_finish]; exact h.next

/-- The look-up has no part in a block without the end flag. -/
theorem Complete.look (h : Complete p) (hlast : p.blocks.getLast? = some p.current) :
    Complete (p.look k) where
  entered := h.entered
  chain := h.chain
  next := by
    intro b hb hends
    have hcurrent : b = p.current := by
      have hsome := Option.mem_def.mp hb
      simp only [Walk.look] at hsome
      rw [hlast] at hsome
      exact (Option.some.inj hsome).symm
    have hno : ¬ (p.index = k ∧ p.current.ends = true) := by
      rintro ⟨-, hyes⟩
      rw [hcurrent, hyes] at hends
      cases hends
    simp only [Walk.look]
    rw [if_neg hno]
    exact h.next b hb hends

theorem blockAddr_look (hloop : BlockAddr p.loop) (hnext : BlockAddr p.next) :
    BlockAddr (p.look k).next := by
  simp only [Walk.look]
  split
  · exact hloop
  · exact hnext

/-- The next sample of a block is entered. -/
theorem Playing.enter {n : ℕ} {q : Walk U} (h : Playing p) (hlen : 4 ≤ p.entered.length) (hn : n < 28)
    (hindex : p.index + 1 = n) (hblocks : q.blocks = p.blocks) (hcurrent : q.current = p.current)
    (hq : q.index = n) (hentered : q.entered = p.entered ++ [p.current.pcm n])
    (hnext : p.current.ends = false → q.next = p.next) : Playing q where
  last := by rw [hblocks, hcurrent, h.last]
  entered := by
    rw [hentered, List.drop_append_of_le_length hlen, h.entered, Walk.played, Walk.played, hblocks, hcurrent,
      hq, samples_take_succ _ hn, hindex, List.append_assoc]
  chain := by
    rw [hblocks]
    exact h.chain
  next := by
    intro hends
    rw [hcurrent] at hends ⊢
    rw [hnext hends, h.next hends]

theorem Sound.enter (h : Sound p) (hpending : p.pending = false) : Sound (p.enter Y k ram) := by
  have hplaying := h.playing hpending
  have hindex := h.index hpending
  unfold Walk.enter
  simp only
  split
  · rename_i hend
    have h27 : p.index = 27 := by
      have hsucc : p.index + 1 = 28 := hend
      omega
    have hcomplete : Complete { p with index := p.index + 1 } :=
      ⟨(hplaying.complete h27).entered, (hplaying.complete h27).chain, (hplaying.complete h27).next⟩
    have hlook : Complete (Walk.look k { p with index := p.index + 1 }) := hcomplete.look hplaying.last
    refine sound_fetch ?_ ?_ ?_ ?_ ?_ hlook.finish
    · rw [Walk.start_finish]
      exact h.start
    · rw [Walk.loop_finish]
      exact h.loop
    · rw [Walk.next_finish]
      exact blockAddr_look h.loop h.next
    · rw [Walk.fraction_finish]
      exact h.fraction
    · rw [Walk.entered_finish]
      exact h.length
  · rename_i hend
    have hlt : p.index + 1 < 28 := by
      have hne : p.index + 1 ≠ 28 := hend
      omega
    refine ⟨h.start, h.loop, blockAddr_look h.loop h.next, h.fraction, ?_, ?_, fun _ => hlt, fun _ => ?_⟩
    · show 4 ≤ (p.entered ++ [_]).length
      rw [List.length_append]
      exact Nat.le_add_right_of_le h.length
    · intro htrue
      have hcontra : p.pending = true := htrue
      rw [hpending] at hcontra
      cases hcontra
    · refine hplaying.enter h.length hlt rfl rfl rfl rfl rfl fun hends => ?_
      have hno : ¬ (p.index + 1 = k ∧ p.current.ends = true) := by
        rintro ⟨-, hyes⟩
        rw [hends] at hyes
        cases hyes
      exact if_neg hno

theorem pending_enter (hpending : p.pending = false) : (p.enter Y k ram).pending = false := by
  unfold Walk.enter
  simp only
  split
  · rfl
  · exact hpending

/-- Any number of samples. -/
theorem sound_iterate (n : ℕ) (h : Sound p) (hpending : p.pending = false) :
    Sound ((Walk.enter Y k ram)^[n] p) ∧ ((Walk.enter Y k ram)^[n] p).pending = false := by
  induction n with
  | zero => exact ⟨h, hpending⟩
  | succ n ih =>
    rw [Function.iterate_succ_apply']
    exact ⟨ih.1.enter ih.2, pending_enter ih.2⟩

/-- What the blocks do not depend on. -/
theorem Sound.other {f : ℕ} {e : Bool} {u : U} (h : Sound p) (hf : f < 0x1000) :
    Sound { p with fraction := f, endx := e, unit := u } where
  start := h.start
  loop := h.loop
  next := h.next
  fraction := hf
  length := h.length
  pending := h.pending
  index := h.index
  playing := fun hpending =>
    have hplaying := h.playing hpending
    ⟨hplaying.last, hplaying.entered, hplaying.chain, hplaying.next⟩

theorem Sound.play (h : Sound p) (step : ℕ) : Sound (p.play Y k ram step) := by
  have hmod : (p.fraction + step) % 0x1000 < 0x1000 := Nat.mod_lt _ (by decide)
  by_cases hpending : p.pending = true
  · simp only [Walk.play, hpending, if_true]
    exact (sound_iterate _ (h.fetch hpending) rfl).1.other hmod
  · have hfalse : p.pending = false := by simpa using hpending
    simp only [Walk.play, hfalse, Bool.false_eq_true, if_false]
    exact (sound_iterate _ h hfalse).1.other hmod

theorem Sound.apart (h : Sound p) (e : Bool) (u : U) : Sound (p.apart e u) := h.other h.fraction

theorem Sound.keyOn (h : Sound p) : Sound (p.keyOn Y) where
  start := h.start
  loop := h.loop
  next := h.start
  fraction := h.fraction
  length := Nat.le_refl 4
  pending := fun _ => ⟨rfl, rfl⟩
  index := by
    intro hfalse
    cases hfalse
  playing := by
    intro hfalse
    cases hfalse

theorem Sound.addresses {a b : ℕ} {w : Bool} (h : Sound p) (ha : BlockAddr a) (hb : BlockAddr b) :
    Sound { p with start := a, loop := b, written := w } where
  start := ha
  loop := hb
  next := h.next
  fraction := h.fraction
  length := h.length
  pending := h.pending
  index := h.index
  playing := fun hpending =>
    have hplaying := h.playing hpending
    ⟨hplaying.last, hplaying.entered, hplaying.chain, hplaying.next⟩

theorem blockAddr_high {a : ℕ} (value : ℕ) (h : BlockAddr a) :
    BlockAddr (a % 65536 + value % 16 * 65536) := by
  obtain ⟨h8, hlt⟩ := h
  unfold BlockAddr ramSize at *
  omega

theorem blockAddr_low {a : ℕ} {value : ℕ} (hvalue : value < 65536) (h : BlockAddr a) :
    BlockAddr (a / 65536 * 65536 + value / 8 * 8) := by
  obtain ⟨h8, hlt⟩ := h
  unfold BlockAddr ramSize at *
  omega

theorem Sound.writeAddr {value : ℕ} (h : Sound p) (reg : ℕ) (hvalue : value < 65536) :
    Sound (p.writeAddr reg value) := by
  unfold Walk.writeAddr
  split
  · exact h.addresses (blockAddr_high value h.start) h.loop
  · exact h.addresses (blockAddr_low hvalue h.start) h.loop
  · exact h.addresses h.start (blockAddr_high value h.loop)
  · exact h.addresses h.start (blockAddr_low hvalue h.loop)
  · exact h

end DobieStation.Spu.Playback
