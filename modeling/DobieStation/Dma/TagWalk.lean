import DobieStation.Dma.Model

/-! # The atomic walk of a list of DMA tags

What a source chain is for: the quadwords of each tag are read in order, then the next tag, until
the data of an ending tag (`Walk`). The list is a part of memory, the quadwords it consists of by
their addresses; a walk reads nothing else. A walk can be cut after a quadword (`Walk.quad`) or a
tag (`Walk.tag`), and what is left is again a walk. -/

namespace DobieStation.Dma.TagWalk

open DobieStation.Dma.Model (Quad)

/-- What a walk gives: quadwords and, if they are transferred, the upper halves of the tags. -/
inductive Item where
  | quad (q : Quad)
  | tag (half : BitVec 64)
  deriving DecidableEq, Repr

/-- Where a walk is: the address and number of the quadwords left, the address of the next tag, the
addresses that `call` has saved, and whether the tag was an ending one. -/
structure Position where
  madr : BitVec 32
  qwc : ℕ
  tadr : BitVec 32
  stack : List (BitVec 32)
  ending : Bool
  deriving DecidableEq, Repr

/-- The addresses that `call` has saved, by the address stack pointer. -/
def savedAddresses (pointer : ℕ) (save0 save1 : BitVec 32) : List (BitVec 32) :=
  match pointer with
  | 0 => []
  | 1 => [save0]
  | _ => [save1, save0]

/-- The address after `n` quadwords. -/
def past (a : BitVec 32) (n : ℕ) : BitVec 32 := a + BitVec.ofNat 32 n * 16

theorem past_zero (a : BitVec 32) : past a 0 = a := by simp [past]

theorem past_one (a : BitVec 32) : past a 1 = a + 16 := by simp [past]

theorem past_succ (a : BitVec 32) (n : ℕ) : past (a + 16) n = past a (n + 1) := by
  unfold past
  apply BitVec.eq_of_toNat_eq
  simp
  omega

def tagQwc (tag : Quad) : ℕ := (tag.extractLsb' 0 16).toNat

def tagId (tag : Quad) : ℕ := (tag.extractLsb' 28 3).toNat

def tagIrq (tag : Quad) : Bool := tag.getLsbD 31

def tagAddress (tag : Quad) : BitVec 32 := tag.extractLsb' 32 32 &&& 0xFFFFFFF0#32

def upperHalf (tag : Quad) : BitVec 64 := tag.extractLsb' 64 64

/-- The position after a tag has been read; `call` nests no deeper than two. A tag with its
interrupt bit set is an ending one if `tie` is set. -/
def Position.follow (tie : Bool) (tag : Quad) (p : Position) : Option Position :=
  let data := past p.tadr 1
  let q : Position :=
    { p with madr := data, qwc := tagQwc tag, tadr := data, ending := tagIrq tag && tie }
  match tagId tag with
  -- refe
  | 0 => some { q with madr := tagAddress tag, ending := true }
  -- cnt
  | 1 => some { q with tadr := past data (tagQwc tag) }
  -- next
  | 2 => some { q with tadr := tagAddress tag }
  -- ref, refs
  | 3 | 4 => some { q with madr := tagAddress tag }
  -- call
  | 5 =>
    if p.stack.length < 2 then
      some { q with tadr := tagAddress tag, stack := past data (tagQwc tag) :: p.stack }
    else none
  -- ret
  | 6 =>
    match p.stack with
    | [] => some { q with tadr := p.tadr, ending := true }
    | a :: rest => some { q with tadr := a, stack := rest }
  -- end
  | _ => some { q with tadr := p.tadr, ending := true }

/-- The position at which a chain starts, by the registers of its channel. With quadwords left it
starts in the data of the tag whose upper half is in the control register. -/
def Position.start (madr qwc tadr asr0 asr1 chcr : BitVec 32) : Position :=
  let id := chcr.extractLsb' 28 3
  { madr := madr
    qwc := qwc.toNat
    tadr := if id = 1 ∧ qwc ≠ 0 then past madr qwc.toNat else tadr
    stack := savedAddresses (chcr.extractLsb' 4 2).toNat asr0 asr1
    ending := qwc != 0 && (id == 0 || id == 7 || (chcr.getLsbD 7 && chcr.getLsbD 31)) }

/-- `n` quadwords of the list. -/
def block (list : BitVec 32 → Option Quad) (a : BitVec 32) : ℕ → Option (List Quad)
  | 0 => some []
  | n + 1 =>
    match list a, block list (a + 16) n with
    | some q, some qs => some (q :: qs)
    | _, _ => none

/-- **The walk**: from this position the list gives these items. `tte` is whether the upper halves
of the tags are transferred. -/
inductive Walk (list : BitVec 32 → Option Quad) (tte tie : Bool) : Position → List Item → Prop
  | last {p : Position} {qs : List Quad} : block list p.madr p.qwc = some qs → p.ending = true →
      Walk list tte tie p (qs.map .quad)
  | more {p p' : Position} {qs : List Quad} {tag : Quad} {items : List Item} :
      block list p.madr p.qwc = some qs → p.ending = false → list p.tadr = some tag →
      p.follow tie tag = some p' → Walk list tte tie p' items →
      Walk list tte tie p
        (qs.map .quad ++ ((if tte then [.tag (upperHalf tag)] else []) ++ items))

variable {list : BitVec 32 → Option Quad} {tte tie : Bool} {p : Position} {items : List Item}

theorem block_succ {a : BitVec 32} {n : ℕ} {qs : List Quad} (h : block list a (n + 1) = some qs) :
    ∃ q qs', list a = some q ∧ block list (a + 16) n = some qs' ∧ qs = q :: qs' := by
  unfold block at h
  split at h
  · rename_i q qs' hq hqs
    exact ⟨q, qs', hq, hqs, (Option.some.inj h).symm⟩
  · cases h

/-- A quadword of the walk. -/
theorem Walk.quad {n : ℕ} (h : Walk list tte tie p items) (hn : p.qwc = n + 1) :
    ∃ q items', list p.madr = some q ∧ items = .quad q :: items' ∧
      Walk list tte tie { p with madr := p.madr + 16, qwc := n } items' := by
  cases h with
  | last hd he =>
    rw [hn] at hd
    obtain ⟨q, qs', hq, hqs, rfl⟩ := block_succ hd
    exact ⟨q, qs'.map .quad, hq, rfl, .last hqs he⟩
  | more hd he ht hf hw =>
    rw [hn] at hd
    obtain ⟨q, qs', hq, hqs, rfl⟩ := block_succ hd
    exact ⟨q, _, hq, rfl, .more (p := { p with madr := p.madr + 16, qwc := n }) hqs he ht hf hw⟩

/-- A tag of the walk. -/
theorem Walk.tag (h : Walk list tte tie p items) (hn : p.qwc = 0) (he : p.ending = false) :
    ∃ tag p' items', list p.tadr = some tag ∧ p.follow tie tag = some p' ∧
      items = (if tte then [.tag (upperHalf tag)] else []) ++ items' ∧
        Walk list tte tie p' items' := by
  cases h with
  | last _ he' =>
    rw [he] at he'
    cases he'
  | more hd _ ht hf hw =>
    rw [hn] at hd
    obtain rfl := Option.some.inj hd
    exact ⟨_, _, _, ht, hf, rfl, hw⟩

/-- The walk ends after the data of the first ending tag. -/
theorem Walk.done (h : Walk list tte tie p items) (hn : p.qwc = 0) (he : p.ending = true) :
    items = [] := by
  cases h with
  | last hd _ =>
    rw [hn] at hd
    obtain rfl := Option.some.inj hd
    rfl
  | more _ he' _ _ _ =>
    rw [he] at he'
    cases he'

end DobieStation.Dma.TagWalk
