import DobieStation.Cdvd.Model
import DobieStation.Lib.Fault
import Mathlib.Data.List.GetD
import Mathlib.Tactic.SplitIfs

/-! # The S commands of the CDVD drive

The translation of the S commands of `iop/cdvd/cdvd.cpp`, with their registers and the clock. A program stops where
an index is beyond its array and where the drive gives up (`Errors::die`). -/

namespace DobieStation.Cdvd.SCommands

open DobieStation.Cdvd.Model DobieStation.Lib.Fault

inductive Fault where
  | beyond
  | died
  deriving DecidableEq, Repr

/-! ### The clock -/

/-- `RTC`. The vsyncs are counted up to 60 from the reset on. -/
structure RTC where
  vsyncs : ℕ
  second : ℕ
  minute : ℕ
  hour : ℕ
  day : ℕ
  month : ℕ
  year : ℕ
  vsyncs_lt : vsyncs < 60

/-- The array has a place more than the months. -/
def monthmap : List ℕ := [31, 28, 31, 30, 31, 30, 31, 31, 30, 31, 30, 31, 0]

/-- The last day of the month, if the index is inside of `monthmap`. -/
def RTC.lastDay (r : RTC) : Option ℕ :=
  if r.month = 2 ∧ r.year % 4 = 0 then some 29
  else if r.month = 0 then none
  else monthmap[r.month - 1]?

theorem zero_lt_sixty : 0 < 60 := by decide

/-- A second is over. -/
def RTC.carry (r : RTC) : Option RTC :=
  let r := { r with vsyncs := 0, vsyncs_lt := zero_lt_sixty }
  if r.second + 1 < 60 then some { r with second := r.second + 1 }
  else if r.minute + 1 < 60 then some { r with second := 0, minute := r.minute + 1 }
  else if r.hour + 1 < 24 then some { r with second := 0, minute := 0, hour := r.hour + 1 }
  else
    r.lastDay.map fun lastDay =>
      if r.day + 1 ≤ lastDay then { r with second := 0, minute := 0, hour := 0, day := r.day + 1 }
      else if r.month + 1 < 13 then { r with second := 0, minute := 0, hour := 0, day := 1, month := r.month + 1 }
      else if r.year + 1 < 100 then
        { r with second := 0, minute := 0, hour := 0, day := 1, month := 1, year := r.year + 1 }
      else { r with second := 0, minute := 0, hour := 0, day := 1, month := 1, year := 0 }

def RTC.vsync (r : RTC) : Option RTC :=
  if h : r.vsyncs + 1 < 60 then some { r with vsyncs := r.vsyncs + 1, vsyncs_lt := h } else r.carry

/-! ### The registers -/

structure Mechacon where
  rtc : RTC
  SCommand : Byte
  /-- An array of 16 bytes, as the next one is. -/
  SCommandParams : ℕ → Byte
  SOutdata : ℕ → Byte
  SParams : ℕ
  SOutParams : ℕ
  SStatus : Byte

abbrev M := StateT Mechacon (Except Fault)

def Mechacon.reset (s : Mechacon) : Mechacon := { s with SParams := 0, SStatus := 0x40, SOutParams := 0 }

def writeSData (value : Byte) : M PUnit := do
  let s ← get
  if 15 < s.SParams then throw .died
  else if 16 ≤ s.SParams then throw .beyond
  else
    modify fun s => { s with
      SCommandParams := Function.update s.SCommandParams s.SParams value
      SParams := s.SParams + 1 }

def readSData : M Byte := do
  let s ← get
  if s.SOutParams = 0 then pure 0
  else if 16 ≤ s.SParams then throw .beyond
  else
    if s.SOutParams = 1 then modify fun s => { s with SStatus := s.SStatus ||| 0x40, SParams := 0, SOutParams := 0 }
    else modify fun s => { s with SParams := s.SParams + 1, SOutParams := s.SOutParams - 1 }
    pure (s.SOutdata s.SParams)

def prepareSOutdata (amount : ℕ) : M PUnit := do
  if 16 < amount then throw .died
  else
    modify fun s => { s with SOutParams := amount, SStatus := s.SStatus &&& ~~~(0x40#8), SParams := 0 }

/-- `itob` of an `int`. -/
def itob (i : ℕ) : Byte := BitVec.ofNat 8 (i / 10 * 16 + i % 10)

/-- The results that are always the same. -/
def results : List (Byte × List Byte) :=
  [(0x05, [0]),
   (0x09, [0]),
   (0x12, [0x00, 0xAC, 0xFF, 0xFF, 0xFF, 0xFF, 0xB9, 0x86, 0x00]),
   (0x13, [0]),
   (0x15, [5]),
   (0x17, [0, 0, 0, 0, 0, 0, 0, 0, 0]),
   (0x1A, [1]),
   (0x1B, [0]),
   (0x1E, [0x00, 0x14, 0x00, 0x00, 0x00]),
   (0x22, [0, 0, 0, 0, 0, 0, 0, 0, 0, 0]),
   (0x24, [0]),
   (0x36, [0, 8, 0, 0x80, 0x1, 0, 0, 0, 0, 0, 0, 0, 0, 0, 0]),
   (0x40, [0]),
   (0x41, [0, 0, 0, 0, 0, 0, 0, 0, 0, 0, 0, 0, 0, 0, 0, 0]),
   (0x42, [0]),
   (0x43, [0]),
   (0x80, [0]),
   (0x81, [0]),
   (0x82, [0]),
   (0x83, [0]),
   (0x84, [0, 0x21, 0xdc, 0x31, 0x96, 0xce, 0x72, 0xe0, 0xc8, 0x69, 0xda, 0x34, 0x9b]),
   (0x85, [0, 0xeb, 0x01, 0xc7, 0xa9, 0x3f, 0x9c, 0x5b, 0x19, 0x31, 0xa0, 0xb3, 0xa3]),
   (0x86, [0]),
   (0x87, [0]),
   (0x88, [0]),
   (0x8F, [0])]

/-- The result of ReadClock. -/
def RTC.bytes (r : RTC) : List Byte :=
  [0, itob r.second, itob r.minute, itob r.hour, 0, itob r.day, itob r.month, itob r.year]

/-- `S_command_sub`. -/
def subResult (func : Byte) : Option (List Byte) := if func = 0x00 then some [0x03, 0x06, 0x02, 0x00] else none

/-- The result of a command, where there is one of this number. -/
def Mechacon.result (value : Byte) (s : Mechacon) : Option (List Byte) :=
  if value = 0x03 then subResult (s.SCommandParams 0)
  else if value = 0x08 then some s.rtc.bytes
  else results.lookup value

/-- The clock takes the bytes as they are. -/
def RTC.write (params : ℕ → Byte) (r : RTC) : RTC :=
  { r with
    second := (params 0).toNat
    minute := (params 1).toNat % 60
    hour := (params 2).toNat % 24
    day := (params 4).toNat
    month := (params 5 &&& 0x7F#8).toNat
    year := (params 6).toNat }

/-- The bytes are written from the first place on. -/
def overwrite (bytes : List Byte) (data : ℕ → Byte) : ℕ → Byte := fun i => bytes.getD i (data i)

def sendSCommand (value : Byte) : M PUnit := do
  modify fun s => { s with SStatus := s.SStatus &&& ~~~(0x40#8), SCommand := value }
  match (← get).result value with
  | none => throw .died
  | some bytes => do
    prepareSOutdata bytes.length
    modify fun s => { s with
      SOutdata := overwrite bytes s.SOutdata
      rtc := if value = 0x09 then s.rtc.write s.SCommandParams else s.rtc }

/-! ### What the programs do -/

theorem results_length : ∀ p ∈ results, 0 < p.2.length ∧ p.2.length ≤ 16 := by decide

theorem mem_of_lookup {α β : Type*} [BEq α] [LawfulBEq α] {a : α} {b : β} : ∀ {l : List (α × β)},
    l.lookup a = some b → (a, b) ∈ l
  | [], h => by cases h
  | (a', b') :: l, h => by
    rw [List.lookup_cons] at h
    split at h
    · next heq =>
      cases h
      rw [eq_of_beq heq]
      exact List.mem_cons_self
    · exact List.mem_cons_of_mem _ (mem_of_lookup h)

variable {s s' : Mechacon} {value : Byte} {bytes : List Byte}

theorem result_length (h : s.result value = some bytes) : 0 < bytes.length ∧ bytes.length ≤ 16 := by
  unfold Mechacon.result subResult at h
  split_ifs at h
  · cases h
    decide
  · cases h
    exact ⟨Nat.zero_lt_succ 7, Nat.le_add_right 8 8⟩
  · exact results_length _ (mem_of_lookup h)

theorem overwrite_of_lt {data : ℕ → Byte} {i : ℕ} (h : i < bytes.length) : overwrite bytes data i = bytes[i] :=
  List.getD_eq_getElem _ _ h

/-- The registers after a command, which clears the bit of the status twice. -/
def Mechacon.answered (value : Byte) (bytes : List Byte) (s : Mechacon) : Mechacon :=
  { s with
    SCommand := value
    SOutdata := overwrite bytes s.SOutdata
    SParams := 0
    SOutParams := bytes.length
    SStatus := s.SStatus &&& ~~~(0x40#8) &&& ~~~(0x40#8)
    rtc := if value = 0x09 then s.rtc.write s.SCommandParams else s.rtc }

theorem run_sendSCommand : (sendSCommand value).run s =
    match s.result value with
    | none => .error .died
    | some bytes => .ok (⟨⟩, s.answered value bytes) := by
  have hrun : (sendSCommand value).run s = StateT.run (match s.result value with
    | none => throw .died
    | some bytes => do
      prepareSOutdata bytes.length
      modify fun s => { s with
        SOutdata := overwrite bytes s.SOutdata
        rtc := if value = 0x09 then s.rtc.write s.SCommandParams else s.rtc } : M PUnit)
      { s with SStatus := s.SStatus &&& ~~~(0x40#8), SCommand := value } := rfl
  rw [hrun]
  cases hr : s.result value with
  | none => rfl
  | some bytes =>
    have hlength : ¬ 16 < bytes.length := Nat.not_lt.mpr (result_length hr).2
    dsimp only
    unfold prepareSOutdata Mechacon.answered
    rw [if_neg hlength]
    rfl

theorem run_writeSData : (writeSData value).run s =
    if 15 < s.SParams then .error .died
    else .ok (⟨⟩, { s with
      SCommandParams := Function.update s.SCommandParams s.SParams value
      SParams := s.SParams + 1 }) := by
  have hrun : (writeSData value).run s = StateT.run (
    if 15 < s.SParams then throw .died
    else if 16 ≤ s.SParams then throw .beyond
    else modify fun s => { s with
      SCommandParams := Function.update s.SCommandParams s.SParams value
      SParams := s.SParams + 1 } : M PUnit) s := rfl
  rw [hrun]
  split_ifs
  · rfl
  · omega
  · rfl

/-- The registers after a byte of the result has been read. -/
def Mechacon.consumed (s : Mechacon) : Mechacon :=
  if s.SOutParams = 1 then { s with SStatus := s.SStatus ||| 0x40, SParams := 0, SOutParams := 0 }
  else { s with SParams := s.SParams + 1, SOutParams := s.SOutParams - 1 }

theorem run_readSData : readSData.run s =
    if s.SOutParams = 0 then .ok (0, s)
    else if 16 ≤ s.SParams then .error .beyond
    else .ok (s.SOutdata s.SParams, s.consumed) := by
  have hrun : readSData.run s = StateT.run (
    if s.SOutParams = 0 then pure 0
    else if 16 ≤ s.SParams then throw .beyond
    else do
      if s.SOutParams = 1 then modify fun s => { s with SStatus := s.SStatus ||| 0x40, SParams := 0, SOutParams := 0 }
      else modify fun s => { s with SParams := s.SParams + 1, SOutParams := s.SOutParams - 1 }
      pure (s.SOutdata s.SParams) : M Byte) s := rfl
  rw [hrun]
  unfold Mechacon.consumed
  split_ifs
  · rfl
  · rfl
  · rfl
  · rfl

end DobieStation.Cdvd.SCommands
