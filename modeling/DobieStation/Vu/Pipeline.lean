import Mathlib.Data.BitVec

/-! # The pipelines of a vector unit

What `VectorUnit` and `VU_JitTranslator` keep of the instructions before: the registers that they
write, stage by stage, and the delays of the DIV and EFU units. The interpreter moves its pipelines as
the cycles pass, the translator has a static model of them. -/

namespace DobieStation.Vu.Pipeline

/-- The two instructions of a pair. -/
inductive Half where
  | upper
  | lower
  deriving DecidableEq, Repr

def halves {α : Type} (upper lower : α) : Half → α
  | .upper => upper
  | .lower => lower

structure DecodedRegs where
  vfWrite : Half → BitVec 8
  vfWriteField : Half → BitVec 8
  vfRead0 : Half → BitVec 8
  vfRead1 : Half → BitVec 8
  vfRead0Field : Half → BitVec 8
  vfRead1Field : Half → BitVec 8
  viRead0 : BitVec 8
  viRead1 : BitVec 8
  viWrite : BitVec 8
  viWriteFromLoad : BitVec 8

def DecodedRegs.reset : DecodedRegs where
  vfWrite _ := 0
  vfWriteField _ := 0
  vfRead0 _ := 0
  vfRead1 _ := 0
  vfRead0Field _ := 0
  vfRead1Field _ := 0
  viRead0 := 0
  viRead1 := 0
  viWrite := 0
  viWriteFromLoad := 0

/-- The four stages of a pipeline, the newest first. -/
structure Stages (α : Type) where
  s0 : α
  s1 : α
  s2 : α
  s3 : α
  deriving DecidableEq, Repr

/-- Everything moves on by one stage. -/
def Stages.push {α : Type} (x : α) (s : Stages α) : Stages α := ⟨x, s.s0, s.s1, s.s2⟩

@[simp] theorem Stages.push_s0 {α : Type} (x : α) (s : Stages α) : (s.push x).s0 = x := rfl
@[simp] theorem Stages.push_s1 {α : Type} (x : α) (s : Stages α) : (s.push x).s1 = s.s0 := rfl
@[simp] theorem Stages.push_s2 {α : Type} (x : α) (s : Stages α) : (s.push x).s2 = s.s1 := rfl
@[simp] theorem Stages.push_s3 {α : Type} (x : α) (s : Stages α) : (s.push x).s3 = s.s2 := rfl

/-! ### Fields of packed words -/

/-- The lowest `n` bits of a value, from the bit `start` of a word on. -/
def field (start n : ℕ) {w : ℕ} (v : BitVec w) : BitVec 64 := (v.setWidth n).setWidth 64 <<< start

theorem extract_field_self {n start w : ℕ} (h : start + n ≤ 64) (v : BitVec w) :
    (field start n v).extractLsb' start n = v.setWidth n := by
  ext i hi
  have h64 : start + i < 64 := by omega
  simp [field, h64, hi]

theorem extract_field_apart {n start w a m : ℕ} (h : start + n ≤ a ∨ a + m ≤ start)
    (v : BitVec w) : (field start n v).extractLsb' a m = 0#m := by
  ext i hi
  simp only [field, BitVec.getElem_extractLsb', BitVec.getLsbD_shiftLeft, BitVec.getLsbD_setWidth]
  rcases h with h | h
  · have hout : ¬ a + i - start < n := by omega
    simp [hout]
  · have hout : a + i < start := by omega
    simp [hout]

/-! ### The interpreter -/

structure VectorUnit where
  decoder : DecodedRegs
  newMACFlags : BitVec 16
  MAC : Stages (BitVec 64)
  clipFlags : BitVec 32
  CLIP : Stages (BitVec 32)
  ILW : Stages (BitVec 16)
  status : BitVec 32
  statusPipe : ℕ
  statusValue : BitVec 32
  Q : BitVec 32
  P : BitVec 32
  newQInstance : BitVec 32
  newPInstance : BitVec 32
  cycleCount : ℕ
  finishDIVEvent : ℕ
  DIVEventStarted : Bool
  finishEFUEvent : ℕ
  EFUEventStarted : Bool
  pipelineState : BitVec 64 × BitVec 64

def flag (b : Prop) [Decidable b] (v : BitVec 32) : BitVec 32 := if b then v else 0

def updateStatus (MACFlags : BitVec 64) (status : BitVec 32) : BitVec 32 :=
  let s := (status &&& ~~~0x3F) ||| flag (MACFlags &&& 0x000F ≠ 0) 1 |||
    flag (MACFlags &&& 0x00F0 ≠ 0) 2 ||| flag (MACFlags &&& 0x0F00 ≠ 0) 4 |||
    flag (MACFlags &&& 0xF000 ≠ 0) 8
  s ||| ((s &&& 0x3F) <<< 6)

/-- The flags and the vector registers that the decoded pair writes. -/
def macEntry (flags : BitVec 16) (d : DecodedRegs) : BitVec 64 :=
  field 0 16 flags ||| field 16 8 (d.vfWrite .upper) ||| field 24 8 (d.vfWrite .lower) |||
    field 32 8 (d.vfWriteField .upper) ||| field 36 8 (d.vfWriteField .lower)

def updateMacPipeline (vu : VectorUnit) : VectorUnit :=
  let MAC := vu.MAC.push (macEntry vu.newMACFlags vu.decoder)
  let status := if vu.MAC.s3.setWidth 16 = vu.MAC.s2.setWidth 16 then vu.status
    else updateStatus MAC.s3 vu.status
  { vu with
    MAC := MAC
    CLIP := vu.CLIP.push vu.clipFlags
    ILW := vu.ILW.push (vu.decoder.viWriteFromLoad.setWidth 16)
    statusPipe := vu.statusPipe - 1
    status := if vu.statusPipe = 1 then (status &&& 0x3F) ||| (vu.statusValue &&& 0xFFF)
      else status }

def updateDIVEFUPipes (vu : VectorUnit) : VectorUnit :=
  let vu := if vu.DIVEventStarted ∧ vu.finishDIVEvent ≤ vu.cycleCount then
      { vu with DIVEventStarted := false, Q := vu.newQInstance } else vu
  if vu.EFUEventStarted ∧ vu.finishEFUEvent ≤ vu.cycleCount then
    { vu with EFUEventStarted := false, P := vu.newPInstance } else vu

/-! ### The translator -/

/-- A stage of `stall_pipe`: the registers that the decoded pair writes. -/
def stallEntry (d : DecodedRegs) : BitVec 64 :=
  field 0 5 (d.vfWrite .upper) ||| field 5 5 (d.vfWrite .lower) |||
    field 10 4 (d.vfWriteField .upper) ||| field 14 4 (d.vfWriteField .lower) |||
    field 18 4 d.viWriteFromLoad

def updatePipeline (d : DecodedRegs) : ℕ → Stages (BitVec 64) → Stages (BitVec 64)
  | 0, s => s
  | n + 1, s => updatePipeline d n (s.push (stallEntry d))

end DobieStation.Vu.Pipeline
