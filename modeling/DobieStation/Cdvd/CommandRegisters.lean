import DobieStation.Cdvd.SCommands
import DobieStation.Lib.Stepwise

/-! # The registers of the commands

The parameters of an S command are written and its result is read through one index. A program that has read a part
of a result and then writes a parameter, or that has written a parameter and then reads the result, finds the index
at another place (`registers_iff`). -/

namespace DobieStation.Cdvd.CommandRegisters

open DobieStation.Lib.Fault DobieStation.Lib.Stepwise DobieStation.Cdvd.Model DobieStation.Cdvd.SCommands

/-- The drive, and what a program has done with the registers of the S commands: the parameters that it has given
since the last command, or since the result of this was read, this result, and how much of it has been read. -/
structure Desk where
  drive : Drive
  mechacon : Mechacon
  given : List Byte
  result : List Byte
  taken : ℕ

inductive Action where
  | writeSData (value : Byte)
  | sendSCommand (value : Byte)
  | readSData
  /-- The N commands and their parameters, and what else happens in the drive. -/
  | drive (a : Act)
  | vsync

/-- A byte of the result has been read, if one was left. With the last one the parameters begin anew. -/
def Desk.read (l : Desk) : Desk :=
  if l.taken = l.result.length then l
  else if l.taken + 1 = l.result.length then { l with given := [], taken := l.taken + 1 }
  else { l with taken := l.taken + 1 }

def Step (v : Disc) (l : Desk) (a : Action) (l' : Desk) : Prop :=
  match a with
  | .writeSData value => ∃ s, Gives (writeSData value) l.mechacon ⟨⟩ s ∧
      l' = { l with mechacon := s, given := l.given ++ [value] }
  | .sendSCommand value => ∃ s bytes, Gives (sendSCommand value) l.mechacon ⟨⟩ s ∧
      l.mechacon.result value = some bytes ∧ l' = { l with mechacon := s, given := [], result := bytes, taken := 0 }
  | .readSData => ∃ byte s, Gives readSData l.mechacon byte s ∧ l' = { l.read with mechacon := s }
  | .drive a => ∃ d, next v l.drive a = some d ∧ l' = { l with drive := d }
  | .vsync => ∃ r, l.mechacon.rtc.vsync = some r ∧ l' = { l with mechacon := { l.mechacon with rtc := r } }

/-! ### What is asked of the registers -/

/-- The parameters that a command looks at. -/
def operands (value : Byte) : List ℕ :=
  if value = 0x03 then [0] else if value = 0x09 then [0, 1, 2, 4, 5, 6] else []

/-- The command does the same with other parameters elsewhere. -/
theorem operands_suffice {m : Mechacon} {value : Byte} {f : ℕ → Byte}
    (h : ∀ i ∈ operands value, f i = m.SCommandParams i) :
    Mechacon.result value { m with SCommandParams := f } = m.result value ∧
      (value = 0x09 → m.rtc.write f = m.rtc.write m.SCommandParams) := by
  constructor
  · unfold Mechacon.result
    by_cases h3 : value = 0x03
    · subst h3
      exact congrArg subResult (h 0 (by decide))
    · rw [if_neg h3, if_neg h3]
  · rintro rfl
    unfold RTC.write
    rw [h 0 (by decide), h 1 (by decide), h 2 (by decide), h 4 (by decide), h 5 (by decide), h 6 (by decide)]

/-- Bit 6 of the status says that no byte of the result is left. -/
def Signals (l : Desk) : Prop := l.mechacon.SStatus.getLsbD 6 = true ↔ l.taken = l.result.length

/-- The drive with other bytes where its parameters are. -/
def withParams (f : ℕ → Byte) (d : Drive) : Drive := { d with params := f }

/-- The bytes of the array, and what is beyond it. -/
def patch (params f : ℕ → Byte) : ℕ → Byte := fun i => if i < 11 then params i else f i

/-- Nothing beyond `N_command_params` is read or written. -/
def Inside (v : Disc) (d : Drive) (a : Act) : Prop :=
  ∀ f : ℕ → Byte, (∀ i < 11, f i = d.params i) →
    next v (withParams f d) a = (next v d a).map fun d' => withParams (patch d'.params f) d'

/-- What a call does. -/
def Served (v : Disc) (l : Desk) : Action → Prop
  /- The parameter goes behind those that have been given. -/
  | .writeSData value => ¬ Stops (writeSData value) l.mechacon .beyond ∧
      ∀ s, Gives (writeSData value) l.mechacon ⟨⟩ s → l.mechacon.SParams = l.given.length ∧
        s.SCommandParams = Function.update l.mechacon.SCommandParams l.given.length value
  /- The command sees the parameters that have been given. -/
  | .sendSCommand value => ¬ Stops (sendSCommand value) l.mechacon .beyond ∧
      (∀ i ∈ operands value, l.given[i]? = some (l.mechacon.SCommandParams i)) ∧
        ∀ (i : ℕ) (h : i < l.given.length), l.mechacon.SCommandParams i = l.given[i]
  /- The next byte of the result is read. -/
  | .readSData => ¬ Stops readSData l.mechacon .beyond ∧
      ∀ byte s, Gives readSData l.mechacon byte s → byte = (l.result.drop l.taken).headD 0 ∧
        (l.taken < l.result.length → l.mechacon.SParams = l.taken)
  | .drive a => Inside v l.drive a
  | .vsync => True

def Good (v : Disc) (l : Desk) (a : Action) : Prop :=
  Served v l a ∧ ∀ l', Step v l a l' → Signals l'

/-- No parameter is given while a result has been read in part (the drive may give up), none has been given where a
byte of a result is read, and a command has been given the parameters that it looks at. -/
def Fine (l : Desk) : Action → Prop
  | .writeSData _ => 0 < l.taken → l.taken < l.result.length → 16 ≤ l.taken + l.given.length
  | .sendSCommand value => ∀ i ∈ operands value, i < l.given.length
  | .readSData => l.taken < l.result.length → l.given = []
  | _ => True

/-! ### The parameters of the N commands -/

variable {v : Disc} {d d' : Drive} {f : ℕ → Byte} {a : Act}

theorem patch_eq (h : ∀ i < 11, f i = d.params i) : patch d.params f = f := by
  funext i
  unfold patch
  split_ifs with hi
  · exact (h i hi).symm
  · rfl

theorem param32_congr {i : ℕ} (hi : i + 3 < 11) (h : ∀ i < 11, f i = d.params i) :
    (withParams f d).param32 i = d.param32 i := by
  show (f (i + 3) ++ f (i + 2) ++ f (i + 1) ++ f i : Word) = d.param32 i
  rw [h i (by omega), h (i + 1) (by omega), h (i + 2) (by omega), h (i + 3) hi]
  rfl

theorem startRead_congr (h : ∀ i < 11, f i = d.params i) (blockSize speed : ℕ) :
    (withParams f d).startRead v blockSize speed = withParams f (d.startRead v blockSize speed) := by
  unfold Drive.startRead
  rw [param32_congr (by omega) h, param32_congr (by omega) h]
  rfl

theorem cdBlockSize_congr (h : ∀ i < 11, f i = d.params i) : (withParams f d).cdBlockSize = d.cdBlockSize := by
  unfold Drive.cdBlockSize withParams
  simp only [h 10 (by omega)]

/-- The drive does the same with other bytes beyond the array, and leaves the parameters. -/
def Blind (g : Drive → Option Drive) (f : ℕ → Byte) (d : Drive) : Prop :=
  g (withParams f d) = (g d).map (withParams f) ∧ ∀ d' ∈ g d, d'.params = d.params

theorem blind_some {g : Drive → Drive} (h : g (withParams f d) = withParams f (g d))
    (hparams : (g d).params = d.params) : Blind (fun d => some (g d)) f d := by
  refine ⟨congrArg some h, ?_⟩
  rintro _ ⟨⟩
  exact hparams

theorem blind_runNCommand (h : ∀ i < 11, f i = d.params i) : Blind (Drive.runNCommand v) f d := by
  have hcommand : (withParams f d).command = d.command := rfl
  unfold Blind Drive.runNCommand
  rw [hcommand]
  split
  · exact blind_some (g := Drive.assertIrq) rfl rfl
  · exact blind_some (g := Drive.assertIrq) rfl rfl
  · exact blind_some (g := fun d =>
      { ({ d with sectorPos := 0 } : Drive).startSeek v with activeNCommand := .STANDBY }) rfl rfl
  · exact blind_some (g := fun d => { d.addEvent (IOP_CLOCK / 6) with activeNCommand := .STOP }) rfl rfl
  · exact blind_some (g := fun d => { d.assertIrq with driveStatus := PAUSED }) rfl rfl
  · refine blind_some (g := fun d =>
      { ({ d with sectorPos := (d.param32 0).setWidth 64 } : Drive).startSeek v with activeNCommand := .SEEK }) ?_ rfl
    dsimp only
    rw [param32_congr (by omega) h]
    rfl
  · refine blind_some (g := Drive.NCommandRead v) ?_ rfl
    unfold Drive.NCommandRead
    rw [cdBlockSize_congr h, startRead_congr h]
  · exact blind_some (g := Drive.NCommandDvdread v) (startRead_congr h 2064 4) rfl
  · exact blind_some (g := Drive.NCommandGettoc v) rfl rfl
  · refine blind_some (g := fun d => d.NCommandReadkey v (d.param32 3)) ?_ rfl
    rw [param32_congr (by omega) h]
    rfl
  · exact ⟨rfl, fun _ h => by cases h⟩

theorem handleNCommand_congr : (withParams f d).handleNCommand v = withParams f (d.handleNCommand v) ∧
    (d.handleNCommand v).params = d.params := by
  have hactive : (withParams f d).activeNCommand = d.activeNCommand := rfl
  unfold Drive.handleNCommand
  rw [hactive]
  cases d.activeNCommand with
  | READ =>
    unfold Drive.readCDSector withParams
    dsimp only
    split_ifs <;> exact ⟨rfl, rfl⟩
  | _ => exact ⟨rfl, rfl⟩

theorem readToRAM_congr : (withParams f d).readToRAM = withParams f d.readToRAM ∧ d.readToRAM.params = d.params := by
  unfold Drive.readToRAM withParams
  dsimp only
  split_ifs <;> exact ⟨rfl, rfl⟩

theorem writeBREAK_congr : (withParams f d).writeBREAK = withParams f d.writeBREAK ∧
    d.writeBREAK.params = d.params := by
  unfold Drive.writeBREAK withParams
  dsimp only
  split_ifs <;> exact ⟨rfl, rfl⟩

theorem blind_guarded {g : Drive → Drive} {c : Drive → Prop} [DecidablePred c] (hc : c (withParams f d) ↔ c d)
    (h : g (withParams f d) = withParams f (g d)) (hparams : (g d).params = d.params) :
    Blind (fun d => if c d then some (g d) else none) f d := by
  by_cases hd : c d
  · constructor
    · dsimp only
      rw [if_pos hd, if_pos (hc.mpr hd), h]
      rfl
    · rintro d' hd'
      dsimp only at hd'
      rw [if_pos hd] at hd'
      cases hd'
      exact hparams
  · constructor
    · dsimp only
      rw [if_neg hd, if_neg (mt hc.mp hd)]
      rfl
    · rintro d' hd'
      dsimp only at hd'
      rw [if_neg hd] at hd'
      cases hd'

theorem blind_map {g : Drive → Option Drive} {k : Drive → Drive} (h : Blind g f d)
    (hk : ∀ d, k (withParams f d) = withParams f (k d)) (hparams : ∀ d, (k d).params = d.params) :
    Blind (fun d => (g d).map k) f d := by
  constructor
  · show (g (withParams f d)).map k = ((g d).map k).map (withParams f)
    rw [h.1, Option.map_map, Option.map_map]
    exact Option.map_congr fun d' _ => hk d'
  · rintro d' hd
    obtain ⟨e, he, rfl⟩ := Option.map_eq_some_iff.mp hd
    exact (hparams e).trans (h.2 e he)

/-- Everything but the writing of a parameter. -/
theorem blind_next (h : ∀ i < 11, f i = d.params i) (hwrite : ∀ value, a ≠ .writeNData value) :
    Blind (fun d => next v d a) f d := by
  cases a with
  | sendNCommand value =>
    have hrun := blind_runNCommand (v := v) (d := { d with command := value }) h
    exact blind_map (g := fun d => Drive.runNCommand v { d with command := value })
      (k := fun d => { d with paramCount := 0 }) hrun (fun _ => rfl) fun _ => rfl
  | writeNData value => exact absurd rfl (hwrite value)
  | writeBREAK => exact blind_some (writeBREAK_congr (f := f)).1 (writeBREAK_congr (f := f)).2
  | writeISTAT value => exact blind_some (g := fun d => { d with ISTAT := d.ISTAT &&& ~~~value }) rfl rfl
  | writeMechaDecode value => exact blind_some (g := fun d => { d with mechaDecode := value }) rfl rfl
  | event i =>
    have hturn := handleNCommand_congr (v := v) (d := { d with events := d.events.eraseIdx i }) (f := f)
    exact blind_guarded (c := fun d => i < d.events.length)
      (g := fun d => ({ d with events := d.events.eraseIdx i } : Drive).handleNCommand v) Iff.rfl hturn.1 hturn.2
  | readToRAM =>
    exact blind_guarded (c := fun d => d.dmaRequest = true) Iff.rfl (readToRAM_congr (f := f)).1
      (readToRAM_congr (f := f)).2

theorem patch_update (h : ∀ i < 11, f i = d.params i) {count : ℕ} (hcount : count < 11) (value : Byte) :
    (fun k => if k = count then value else f k) = patch (fun k => if k = count then value else d.params k) f := by
  funext i
  unfold patch
  dsimp only
  by_cases hi : i = count
  · rw [if_pos hi, if_pos (show i < 11 by omega), if_pos hi]
  · rw [if_neg hi, if_neg hi]
    exact (congrFun (patch_eq h) i).symm

theorem inside_writeNData (value : Byte) : Inside v d (.writeNData value) := by
  intro f h
  have hcount : (withParams f d).paramCount = d.paramCount := rfl
  unfold next Drive.writeNData
  dsimp only
  rw [hcount]
  split_ifs with hfull
  · rfl
  · exact congrArg (fun g => some (withParams g { d with paramCount := d.paramCount + 1 }))
      (patch_update h (by omega) value)

/-- **Every index of the N commands is inside of its array.** -/
theorem inside (v : Disc) (d : Drive) (a : Act) : Inside v d a := by
  by_cases hwrite : ∀ value, a ≠ .writeNData value
  · intro f h
    obtain ⟨hsame, hparams⟩ := blind_next (v := v) h hwrite
    refine hsame.trans (Option.map_congr fun d' hd => ?_)
    rw [hparams d' hd, patch_eq h]
  · obtain ⟨value, hvalue⟩ := not_forall.mp hwrite
    obtain rfl := not_not.mp hvalue
    exact inside_writeNData value

/-! ### The registers of the S commands -/

variable {l l' : Desk}

/-- What holds as long as the steps are fine: the index is behind what has been read of the result and behind the
parameters that have been given since. -/
structure Inv (l : Desk) : Prop where
  taken_le : l.taken ≤ l.result.length
  length_le : l.result.length ≤ 16
  left : l.mechacon.SOutParams = l.result.length - l.taken
  index : l.mechacon.SParams = (if l.taken = l.result.length then 0 else l.taken) + l.given.length
  index_le : l.mechacon.SParams ≤ 16
  outdata : ∀ (i : ℕ) (h : i < l.result.length), l.mechacon.SOutdata i = l.result[i]
  params : ∀ (i : ℕ) (h : i < l.given.length), l.mechacon.SCommandParams i = l.given[i]
  signals : Signals l

theorem Inv.index_given (h : Inv l) (hw : ¬ (0 < l.taken ∧ l.taken < l.result.length)) :
    l.mechacon.SParams = l.given.length := by
  have hle := h.taken_le
  rw [h.index]
  split_ifs with heq
  · omega
  · omega

theorem Inv.index_taken (h : Inv l) (ht : l.taken < l.result.length) :
    l.mechacon.SParams = l.taken + l.given.length := by
  rw [h.index, if_neg (by omega)]

theorem set_bit (status : Byte) : (status ||| 0x40#8).getLsbD 6 = true := by
  rw [BitVec.getLsbD_or, show (0x40#8).getLsbD 6 = true by decide, Bool.or_true]

theorem clear_bit (status : Byte) : (status &&& ~~~(0x40#8)).getLsbD 6 = false := by
  rw [BitVec.getLsbD_and, show (~~~(0x40#8)).getLsbD 6 = false by decide, Bool.and_false]

section

variable {m s : Mechacon} {value byte : Byte}

theorem writeSData_written (h : Gives (writeSData value) m ⟨⟩ s) : m.SParams < 16 ∧ s = { m with
    SCommandParams := Function.update m.SCommandParams m.SParams value
    SParams := m.SParams + 1 } := by
  unfold Gives at h
  rw [run_writeSData] at h
  split_ifs at h with hfull
  cases h
  exact ⟨by omega, rfl⟩

theorem writeSData_gives (value : Byte) (h : m.SParams < 16) : ∃ s, Gives (writeSData value) m ⟨⟩ s := by
  unfold Gives
  rw [run_writeSData, if_neg (by omega)]
  exact ⟨_, rfl⟩

theorem writeSData_inside : ¬ Stops (writeSData value) m .beyond := by
  unfold Stops
  rw [run_writeSData]
  split_ifs <;> simp

theorem sendSCommand_sent (h : Gives (sendSCommand value) m ⟨⟩ s) :
    ∃ bytes, m.result value = some bytes ∧ s = m.answered value bytes := by
  unfold Gives at h
  rw [run_sendSCommand] at h
  cases hr : m.result value with
  | none =>
    rw [hr] at h
    cases h
  | some bytes =>
    rw [hr] at h
    cases h
    exact ⟨bytes, rfl, rfl⟩

theorem sendSCommand_inside : ¬ Stops (sendSCommand value) m .beyond := by
  unfold Stops
  rw [run_sendSCommand]
  cases m.result value <;> simp

theorem readSData_none (h : Gives readSData m byte s) (hn : m.SOutParams = 0) : byte = 0 ∧ s = m := by
  unfold Gives at h
  rw [run_readSData, if_pos hn] at h
  cases h
  exact ⟨rfl, rfl⟩

theorem readSData_byte (h : Gives readSData m byte s) (hn : m.SOutParams ≠ 0) :
    byte = m.SOutdata m.SParams ∧ s = m.consumed := by
  unfold Gives at h
  rw [run_readSData, if_neg hn] at h
  split_ifs at h
  cases h
  exact ⟨rfl, rfl⟩

theorem readSData_gives (hn : m.SOutParams ≠ 0) (h : m.SParams < 16) : ∃ byte s, Gives readSData m byte s := by
  unfold Gives
  rw [run_readSData, if_neg hn, if_neg (by omega)]
  exact ⟨_, _, rfl⟩

theorem readSData_stops_iff : Stops readSData m .beyond ↔ m.SOutParams ≠ 0 ∧ 16 ≤ m.SParams := by
  unfold Stops
  rw [run_readSData]
  split_ifs with hn h
  · simp [hn]
  · simp [hn, h]
  · simp [h]

end

/-! ### One step -/

theorem Inv.write {s : Mechacon} {value : Byte} (h : Inv l) (hf : Fine l (.writeSData value))
    (hs : Gives (writeSData value) l.mechacon ⟨⟩ s) : l.mechacon.SParams = l.given.length ∧
      s.SCommandParams = Function.update l.mechacon.SCommandParams l.given.length value ∧
      Inv { l with mechacon := s, given := l.given ++ [value] } := by
  obtain ⟨hroom, rfl⟩ := writeSData_written hs
  have hindex : l.mechacon.SParams = l.given.length := by
    refine h.index_given fun hw => ?_
    have hfull := hf hw.1 hw.2
    rw [← h.index_taken hw.2] at hfull
    omega
  refine ⟨hindex, by rw [← hindex], h.taken_le, h.length_le, h.left, ?_, hroom, h.outdata, ?_, h.signals⟩
  · have hlength := h.index
    simp only [List.length_append, List.length_singleton]
    omega
  · intro i hi
    rw [List.length_append, List.length_singleton] at hi
    dsimp only
    rw [hindex]
    by_cases hlt : i < l.given.length
    · rw [Function.update_of_ne (by omega), List.getElem_append_left hlt]
      exact h.params i hlt
    · obtain rfl : i = l.given.length := by omega
      rw [Function.update_self, List.getElem_concat_length rfl]

theorem inv_send {s : Mechacon} {value : Byte} {bytes : List Byte} (hs : s = l.mechacon.answered value bytes)
    (hbytes : l.mechacon.result value = some bytes) :
    Inv { l with mechacon := s, given := [], result := bytes, taken := 0 } := by
  obtain ⟨hpos, hle⟩ := result_length hbytes
  subst hs
  refine ⟨Nat.zero_le _, hle, (Nat.sub_zero _).symm, ?_, Nat.zero_le _, fun i hi => overwrite_of_lt hi, ?_, ?_⟩
  · simp [Mechacon.answered]
  · intro i hi
    exact absurd hi (Nat.not_lt_zero i)
  · refine iff_of_false ?_ (Nat.ne_of_lt hpos)
    rw [show (l.mechacon.answered value bytes).SStatus =
      l.mechacon.SStatus &&& ~~~(0x40#8) &&& ~~~(0x40#8) from rfl, clear_bit]
    exact Bool.false_ne_true

theorem Inv.read {s : Mechacon} {byte : Byte} (h : Inv l) (hf : Fine l .readSData)
    (hs : Gives readSData l.mechacon byte s) : byte = (l.result.drop l.taken).headD 0 ∧
      (l.taken < l.result.length → l.mechacon.SParams = l.taken) ∧ Inv { l.read with mechacon := s } := by
  have hle := h.taken_le
  have hleft := h.left
  by_cases ht : l.taken = l.result.length
  · obtain ⟨rfl, rfl⟩ := readSData_none hs (by omega)
    refine ⟨?_, fun hlt => absurd ht (Nat.ne_of_lt hlt), ?_⟩
    · rw [ht, List.drop_length]
      rfl
    · unfold Desk.read
      rw [if_pos ht]
      exact h
  · have hlt : l.taken < l.result.length := by omega
    have hnone : l.given = [] := hf hlt
    have hindex : l.mechacon.SParams = l.taken := by
      rw [h.index_taken hlt, hnone]
      rfl
    obtain ⟨rfl, rfl⟩ := readSData_byte hs (by omega)
    refine ⟨?_, fun _ => hindex, ?_⟩
    · rw [hindex, h.outdata _ hlt, List.drop_eq_getElem_cons hlt]
      rfl
    · unfold Desk.read Mechacon.consumed
      rw [if_neg ht]
      by_cases hlast : l.taken + 1 = l.result.length
      · rw [if_pos hlast, if_pos (by omega)]
        refine ⟨hlast.le, h.length_le, ?_, ?_, Nat.zero_le _, h.outdata, ?_, iff_of_true (set_bit _) hlast⟩
        · show 0 = l.result.length - (l.taken + 1)
          omega
        · show 0 = (if l.taken + 1 = l.result.length then 0 else l.taken + 1) + 0
          rw [if_pos hlast]
        · intro i hi
          exact absurd hi (Nat.not_lt_zero i)
      · rw [if_neg hlast, if_neg (by omega)]
        refine ⟨by show l.taken + 1 ≤ l.result.length; omega, h.length_le, ?_, ?_, ?_, h.outdata, h.params, ?_⟩
        · show l.mechacon.SOutParams - 1 = l.result.length - (l.taken + 1)
          omega
        · show l.mechacon.SParams + 1 = (if l.taken + 1 = l.result.length then 0 else l.taken + 1) + l.given.length
          rw [if_neg hlast, hindex, hnone]
          rfl
        · show l.mechacon.SParams + 1 ≤ 16
          have hlength := h.length_le
          omega
        · refine iff_of_false ?_ hlast
          exact mt h.signals.mp ht

/-- **The step lemma.** -/
theorem inv_step {v : Disc} {a : Action} (h : Inv l) (hf : Fine l a) (hs : Step v l a l') : Inv l' := by
  cases a with
  | writeSData value =>
    obtain ⟨s, hgives, rfl⟩ := hs
    exact (h.write hf hgives).2.2
  | sendSCommand value =>
    obtain ⟨s, bytes, hgives, hbytes, rfl⟩ := hs
    obtain ⟨bytes', hbytes', rfl⟩ := sendSCommand_sent hgives
    cases hbytes.symm.trans hbytes'
    exact inv_send rfl hbytes
  | readSData =>
    obtain ⟨byte, s, hgives, rfl⟩ := hs
    exact (h.read hf hgives).2.2
  | drive a =>
    obtain ⟨d, -, rfl⟩ := hs
    exact ⟨h.taken_le, h.length_le, h.left, h.index, h.index_le, h.outdata, h.params, h.signals⟩
  | vsync =>
    obtain ⟨r, -, rfl⟩ := hs
    exact ⟨h.taken_le, h.length_le, h.left, h.index, h.index_le, h.outdata, h.params, h.signals⟩

/-- A fine call does what is asked. -/
theorem Inv.served {a : Action} (v : Disc) (h : Inv l) (hf : Fine l a) : Served v l a := by
  cases a with
  | writeSData value =>
    exact ⟨writeSData_inside, fun s hs => ⟨(h.write hf hs).1, (h.write hf hs).2.1⟩⟩
  | sendSCommand value =>
    refine ⟨sendSCommand_inside, fun i hi => ?_, h.params⟩
    have hlt := hf i hi
    rw [List.getElem?_eq_getElem hlt, h.params i hlt]
  | readSData =>
    refine ⟨fun hstops => ?_, fun byte s hs => ⟨(h.read hf hs).1, (h.read hf hs).2.1⟩⟩
    obtain ⟨hleft, hfull⟩ := readSData_stops_iff.1 hstops
    have hle := h.taken_le
    have hlength := h.length_le
    have hlt : l.taken < l.result.length := by
      have hout := h.left
      omega
    have hnone : l.given = [] := hf hlt
    have hindex := h.index_taken hlt
    rw [hnone, List.length_nil] at hindex
    omega
  | drive a => exact inside v l.drive a
  | vsync => trivial

/-- What is asked is done by a fine call only. -/
theorem Inv.fine {v : Disc} {a : Action} (h : Inv l) (hs : Served v l a) : Fine l a := by
  cases a with
  | writeSData value =>
    intro hpos hlt
    by_contra hroom
    have hindex := h.index_taken hlt
    obtain ⟨s, hgives⟩ := writeSData_gives (m := l.mechacon) value (by omega)
    have hgiven := (hs.2 s hgives).1
    omega
  | sendSCommand value =>
    intro i hi
    obtain ⟨hlt, -⟩ := List.getElem?_eq_some_iff.mp (hs.2.1 i hi)
    exact hlt
  | readSData =>
    intro hlt
    have hindex := h.index_taken hlt
    have hleft : l.mechacon.SOutParams ≠ 0 := by
      rw [h.left]
      omega
    have hroom : l.mechacon.SParams < 16 := by
      by_contra hfull
      exact hs.1 (readSData_stops_iff.2 ⟨hleft, by omega⟩)
    obtain ⟨byte, s, hgives⟩ := readSData_gives hleft hroom
    have htaken := (hs.2 byte s hgives).2 hlt
    exact List.length_eq_zero_iff.mp (by omega)
  | drive a => trivial
  | vsync => trivial

theorem good_iff_fine (v : Disc) (h : Inv l) (a : Action) : Good v l a ↔ Fine l a := by
  constructor
  · rintro ⟨hs, -⟩
    exact h.fine hs
  · intro hf
    exact ⟨h.served v hf, fun l' hs => (inv_step h hf hs).signals⟩

/-- The drive has been reset, and no command has been sent. -/
structure Fresh (l : Desk) : Prop where
  mechacon : l.mechacon = l.mechacon.reset
  given : l.given = []
  result : l.result = []
  taken : l.taken = 0

theorem Fresh.inv (h : Fresh l) : Inv l := by
  obtain ⟨drive, mechacon, given, result, taken⟩ := l
  obtain ⟨hmechacon, rfl, rfl, rfl⟩ := h
  dsimp only at hmechacon
  rw [hmechacon]
  refine ⟨Nat.le_refl 0, Nat.zero_le 16, rfl, rfl, Nat.zero_le 16, ?_, ?_, iff_of_true (set_bit 0) rfl⟩
  · intro i hi
    exact absurd hi (Nat.not_lt_zero i)
  · intro i hi
    exact absurd hi (Nat.not_lt_zero i)

/-- **The registers of the commands.** -/
theorem registers_iff (v : Disc) (h : Fresh l) (as : List Action) :
    Along (Step v) (Good v) l as ↔ Along (Step v) Fine l as :=
  along_congr (fun _ a hl => good_iff_fine v hl a) (fun _ _ _ hl hf hs => inv_step hl hf hs) as h.inv

def disc : Disc :=
  { container := .ISO, fileSize := 0, LBA := 2048, volumeSize := 0, letters := 0, code := 0 }

def powerOn : Desk :=
  { drive :=
      { file := ⟨0, false⟩, readBytesLeft := 0, speed := 4, currentSector := 0, sectorPos := 0, sectorsLeft := 0
        blockSize := 0, readBuffer := ⟨.plain, 0, none, none⟩, ISTAT := 0, driveStatus := STOPPED, isSpinning := false
        activeNCommand := .NONE, command := 0, params := fun _ => 0, paramCount := 0, NStatus := 0x40, cdkey4 := 0
        mechaDecode := 0, dmaRequest := false, events := [], interrupts := 0, delivered := [] }
    mechacon :=
      { rtc := ⟨0, 0, 0, 0, 1, 1, 0, zero_lt_sixty⟩, SCommand := 0, SCommandParams := fun _ => 0
        SOutdata := fun _ => 0, SParams := 0, SOutParams := 0, SStatus := 0x40 }
    given := []
    result := []
    taken := 0 }

theorem registers_iff_powerOn :
    Along (Step disc) (Good disc) powerOn [.writeSData 0, .sendSCommand 0x03, .readSData] ↔
      Along (Step disc) Fine powerOn [.writeSData 0, .sendSCommand 0x03, .readSData] :=
  registers_iff disc ⟨rfl, rfl, rfl, rfl⟩ _

/-- The result of `BootCertify` is 1; after a parameter has been written, 0 is read. -/
theorem not_registers : ¬ ∀ (v : Disc) (l : Desk) (as : List Action), Fresh l → Along (Step v) (Good v) l as := by
  intro h
  have hrun := h disc powerOn [.sendSCommand 0x1A, .writeSData 7, .readSData] ⟨rfl, rfl, rfl, rfl⟩
  have hwrite := hrun.tail ⟨_, [1], rfl, rfl, rfl⟩
  have hread := hwrite.tail ⟨_, rfl, rfl⟩
  have hbyte := (hread.head.1.2 _ _ rfl).1
  exact absurd hbyte (by decide)

end DobieStation.Cdvd.CommandRegisters
