import DobieStation.Iop.Model

/-! # What the packets of SIF0 are for

A packet is the EE's tag and its words. The IOP's controller sends the tag and the words of each
packet one after the other (`stream`); the EE's takes a tag of two words, then as many quadwords as
the tag says, and goes on with the next tag unless the tag was an ending one (`receive`). For
packets of whole quadwords whose tags announce their length, what is received is what the packets are
for: their words, by quadwords, from their destination on (`receive_packets`). -/

namespace DobieStation.Sif.Packets

open DobieStation.Dma.Model (Quad)
open DobieStation.Iop.Model (Word)

/-- A quadword that is stored, and where. -/
abbrev Store := BitVec 32 × Quad

/-- The EE's tag, its words `lo` and `hi`, and the words of the packet. -/
structure Packet where
  lo : Word
  hi : Word
  words : List Word

/-- The number of quadwords that a tag announces. -/
def tagQwc (lo : Word) : ℕ := (lo &&& 0xFFFF#32).toNat

/-- A tag is an ending one by its id, or by its interrupt bit if `tie` is set. -/
def ends (tie : Bool) (lo : Word) : Bool :=
  lo.extractLsb' 28 3 == 7#3 || (lo.getLsbD 31 && tie)

/-- The words by quadwords, from an address on. -/
def storesFrom (addr : BitVec 32) : List Word → List Store
  | w0 :: w1 :: w2 :: w3 :: rest => (addr, w3 ++ w2 ++ w1 ++ w0) :: storesFrom (addr + 16) rest
  | _ => []

/-- What the packet is for. -/
def Packet.stores (p : Packet) : List Store := storesFrom p.hi p.words

/-- What is sent. -/
def Packet.stream (p : Packet) : List Word := p.lo :: p.hi :: p.words

/-- What is received of the words to come, where the EE's channel has an address, a number of
quadwords left, and whether its tag was an ending one. -/
def receive (tie : Bool) : List Word → Bool → BitVec 32 → ℕ → List Store
  | w0 :: w1 :: w2 :: w3 :: rest, ending, addr, n + 1 =>
    (addr, w3 ++ w2 ++ w1 ++ w0) :: receive tie rest ending (addr + 16) n
  | lo :: hi :: rest, false, _, 0 => receive tie rest (ends tie lo) hi (tagQwc lo)
  | _, _, _, _ => []

variable {tie : Bool}

theorem receive_nil (ending : Bool) (addr : BitVec 32) (n : ℕ) :
    receive tie [] ending addr n = [] := by
  unfold receive
  rfl

theorem receive_words {ws : List Word} {n : ℕ} (hn : ws.length = 4 * n) (rest : List Word)
    (ending : Bool) (addr : BitVec 32) : receive tie (ws ++ rest) ending addr n =
      storesFrom addr ws ++ receive tie rest ending (addr + BitVec.ofNat 32 (16 * n)) 0 := by
  induction n generalizing ws addr with
  | zero =>
    obtain rfl : ws = [] := List.length_eq_zero_iff.mp hn
    simp [storesFrom]
  | succ n ih =>
    match ws, hn with
    | w0 :: w1 :: w2 :: w3 :: ws, hn =>
      have hn : ws.length = 4 * n := by simp at hn; omega
      have haddr : addr + 16 + BitVec.ofNat 32 (16 * n) = addr + BitVec.ofNat 32 (16 * (n + 1)) := by
        have h16 : (16 : BitVec 32).toNat = 16 := rfl
        apply BitVec.eq_of_toNat_eq
        simp only [BitVec.toNat_add, BitVec.toNat_ofNat, h16]
        omega
      simp only [List.cons_append, receive, storesFrom]
      rw [ih hn, haddr]

/-- The tag announces as many quadwords as the words fill. -/
def Packet.Announced (p : Packet) : Prop := tagQwc p.lo = (p.words.length + 3) / 4

/-- The words fill quadwords. -/
def Packet.Whole (p : Packet) : Prop := 4 ∣ p.words.length

theorem Packet.Announced.length {p : Packet} (h : p.Announced) (hw : p.Whole) :
    p.words.length = 4 * tagQwc p.lo := by
  unfold Announced at h
  unfold Whole at hw
  omega

/-- Packets of which at most the last one has an ending tag. -/
def Chained (tie : Bool) : List Packet → Prop
  | [] => True
  | [p] => p.Announced
  | p :: q :: ps => p.Announced ∧ ends tie p.lo = false ∧ Chained tie (q :: ps)

theorem receive_packet {p : Packet} (hp : p.Announced) (hw : p.Whole) (rest : List Word) (addr : BitVec 32) :
    receive tie (p.stream ++ rest) false addr 0 = p.stores ++
      receive tie rest (ends tie p.lo) (p.hi + BitVec.ofNat 32 (16 * tagQwc p.lo)) 0 := by
  unfold Packet.stream
  rw [List.cons_append, List.cons_append]
  have htag : receive tie (p.lo :: p.hi :: (p.words ++ rest)) false addr 0 =
      receive tie (p.words ++ rest) (ends tie p.lo) p.hi (tagQwc p.lo) := by
    rw [receive]
  rw [htag, receive_words (hp.length hw)]
  rfl

/-- **The packets arrive.** -/
theorem receive_packets {ps : List Packet} (h : Chained tie ps) (hw : ∀ p ∈ ps, p.Whole)
    (addr : BitVec 32) :
    receive tie (ps.flatMap Packet.stream) false addr 0 = ps.flatMap Packet.stores := by
  induction ps generalizing addr with
  | nil => exact receive_nil _ _ _
  | cons p ps ih =>
    rw [List.flatMap_cons, List.flatMap_cons]
    obtain ⟨hwp, hwps⟩ := List.forall_mem_cons.mp hw
    match ps, h with
    | [], h =>
      rw [receive_packet h hwp]
      simp [receive_nil]
    | q :: ps, ⟨hp, he, hps⟩ =>
      rw [receive_packet hp hwp, he, ih hps hwps]

end DobieStation.Sif.Packets
