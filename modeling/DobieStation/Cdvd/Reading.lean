import DobieStation.Cdvd.Model
import DobieStation.Lib.Fairness
import Mathlib.Data.List.Range

/-! # Reading sectors

After a reading command the drive goes from the seek to the reading of the first sector, and then each
sector waits in the buffer until the DMA has read it (`Seeking`, `Empty`, `Full`). What the DMA gets are the
sectors that were asked for, and then the command ends, for every order of the events and the DMA
(`delivers_iff`). This needs that no block of an earlier command waits in the buffer, and that there is a
sector to be read: the count is decremented before it is compared with zero. -/

namespace DobieStation.Cdvd.Reading

open DobieStation.Cdvd.Model DobieStation.Lib.Fairness DobieStation.Lib.Reach

/-! ### The steps of the drive itself -/

inductive Turn where
  | event (i : ℕ)
  | readToRAM
  deriving DecidableEq, Repr

inductive Kind where
  | event
  | dma
  deriving DecidableEq, Repr

def Turn.act : Turn → Act
  | .event i => .event i
  | .readToRAM => .readToRAM

def Turn.kind : Turn → Kind
  | .event _ => .event
  | .readToRAM => .dma

def Step (v : Disc) (d : Drive) (t : Turn) (d' : Drive) : Prop := next v d t.act = some d'

variable {v : Disc} {d d' d₀ : Drive}

/-- The drive after one of its events was taken. -/
def without (i : ℕ) (d : Drive) : Drive := { d with events := d.events.eraseIdx i }

theorem step_event {i : ℕ} : Step v d (.event i) d' ↔
    i < d.events.length ∧ (without i d).handleNCommand v = d' := by
  show (if i < d.events.length then _ else none) = some d' ↔ _
  split
  next hi => simp [hi, without]
  next hi => simp [hi]

theorem step_readToRAM : Step v d .readToRAM d' ↔ d.dmaRequest ∧ d.readToRAM = d' := by
  show (if d.dmaRequest then _ else none) = some d' ↔ _
  split
  next h => simp [h]
  next h => simp [h]

theorem possible_event (h : d.events ≠ []) : Possible (Step v) Turn.kind .event d :=
  ⟨.event 0, _, rfl, step_event.2 ⟨List.length_pos_iff.mpr h, rfl⟩⟩

theorem possible_dma (h : d.dmaRequest) : Possible (Step v) Turn.kind .dma d :=
  ⟨.readToRAM, _, rfl, step_readToRAM.2 ⟨h, rfl⟩⟩

theorem not_possible_dma (h : d.dmaRequest = false) : ¬ Possible (Step v) Turn.kind .dma d := by
  rintro ⟨t, d', hk, hs⟩
  cases t with
  | event i => cases hk
  | readToRAM =>
    rw [step_readToRAM, h] at hs
    exact absurd hs.1 Bool.false_ne_true

/-! ### The stream -/

/-- The stream after `i` readings. -/
def after (v : Disc) (bytes : ℕ) : ℕ → Stream → Stream
  | 0, f => f
  | i + 1, f => ((after v bytes i f).read v bytes).2

/-- What is read from a stream that stands at `p` and has not failed. -/
theorem read_good {bytes p : ℕ} : Stream.read v bytes ⟨p, false⟩ =
    if p + v.container.taken bytes ≤ v.fileSize then
      (some p, ⟨p + v.container.taken bytes, false⟩)
    else (none, ⟨p, true⟩) := rfl

theorem read_failed {bytes : ℕ} {f : Stream} (h : f.failed) : f.read v bytes = (none, f) := by
  unfold Stream.read
  rw [if_pos h]

theorem after_failed {bytes : ℕ} {f : Stream} (h : f.failed) (i : ℕ) : after v bytes i f = f := by
  induction i with
  | zero => rfl
  | succ i ih => rw [after, ih, read_failed h]

/-- The `i`-th reading from a stream that has not failed. -/
theorem after_good {bytes p i : ℕ} (h : p + i * v.container.taken bytes ≤ v.fileSize ∨ i = 0) :
    after v bytes i ⟨p, false⟩ = ⟨p + i * v.container.taken bytes, false⟩ := by
  induction i with
  | zero => simp [after]
  | succ i ih =>
    have hi : p + i * v.container.taken bytes + v.container.taken bytes ≤ v.fileSize := by
      rw [Nat.succ_mul] at h
      omega
    rw [after, ih (Or.inl (by omega)), read_good, if_pos hi, Nat.succ_mul, Nat.add_assoc]

/-- A reading beyond the end makes the stream fail for good. -/
theorem after_beyond {bytes p i : ℕ} (h : v.fileSize < p + i * v.container.taken bytes) (hi : 0 < i) :
    (after v bytes i ⟨p, false⟩).failed := by
  induction i with
  | zero => omega
  | succ i ih =>
    rw [after]
    by_cases hb : (after v bytes i ⟨p, false⟩).failed
    · rw [read_failed hb]
      exact hb
    have hin : p + i * v.container.taken bytes ≤ v.fileSize ∨ i = 0 := by
      by_contra hc
      exact hb (ih (by omega) (by omega))
    rw [after_good hin, read_good, if_neg (by rw [Nat.succ_mul] at h; omega)]

/-- Where the bytes of the `i`-th reading come from. -/
theorem data_good {bytes p i : ℕ} : ((after v bytes i ⟨p, false⟩).read v bytes).1 =
    if p + i * v.container.taken bytes + v.container.taken bytes ≤ v.fileSize then
      some (p + i * v.container.taken bytes)
    else none := by
  by_cases hin : p + i * v.container.taken bytes ≤ v.fileSize ∨ i = 0
  · rw [after_good hin, read_good]
    split <;> rfl
  · rw [read_failed (after_beyond (by omega) (by omega)), if_neg (by omega)]

/-! ### A command that was issued -/

/-- The header of a sector. -/
def headerOf (v : Disc) (d : Drive) (sector : DoubleWord) : Header :=
  if d.command = 0x06 then if d.blockSize = 2340 then cdromHeader sector else .plain
  else v.dvdHeader sector

/-- The bytes of the image in a block. -/
def imageBytes (d : Drive) : ℕ :=
  if d.command = 0x06 ∧ d.blockSize ≠ 2340 then d.blockSize else 2048

/-- A reading command has just been written. -/
structure Issued (v : Disc) (d₀ : Drive) : Prop where
  active : d₀.activeNCommand = .READ_SEEK
  format : (d₀.command = 0x06 ∧ d₀.blockSize ≠ 0) ∨ (d₀.command = 0x08 ∧ d₀.blockSize = 2064)
  events : d₀.events ≠ []
  status : d₀.NStatus = 0x40
  seeked : d₀.file.failed = false → d₀.file.position = v.seekTo d₀.sectorPos * v.container.sectorSize

theorem issued_startRead {bs speed : ℕ}
    (hf : (d.command = 0x06 ∧ bs ≠ 0) ∨ (d.command = 0x08 ∧ bs = 2064)) :
    Issued v (d.startRead v bs speed) where
  active := rfl
  format := hf
  events := List.append_ne_nil_of_right_ne_nil _ (List.cons_ne_nil _ _)
  status := rfl
  seeked hf := by
    have hs : (Stream.seek v (v.seekTo ((d.param32 0).setWidth 64)) d.file).failed = false := hf
    show (Stream.seek v _ d.file).position = _
    unfold Stream.seek at hs ⊢
    split at hs
    next hfailed => exact absurd (hfailed.symm.trans hs) (by decide)
    next hgood =>
      rw [if_neg hgood]
      rfl

/-- What the reading commands are. -/
theorem sendNCommand_read {cmd : Byte} (hcmd : cmd = 0x06 ∨ cmd = 0x08) :
    d.sendNCommand v cmd = some { ({ d with command := cmd } : Drive).startRead v
      (if cmd = 0x06 then d.cdBlockSize else 2064) (if cmd = 0x06 then 24 else 4) with
      paramCount := 0 } := by
  rcases hcmd with rfl | rfl <;> rfl

theorem cdBlockSize_ne_zero : d.cdBlockSize ≠ 0 := by
  unfold Drive.cdBlockSize
  split
  · decide
  · split <;> decide

theorem issued_sendNCommand {cmd : Byte} (hcmd : cmd = 0x06 ∨ cmd = 0x08)
    (h : d.sendNCommand v cmd = some d₀) : Issued v d₀ := by
  rw [sendNCommand_read hcmd] at h
  cases h
  have hi : Issued v (({ d with command := cmd } : Drive).startRead v
      (if cmd = 0x06 then d.cdBlockSize else 2064) (if cmd = 0x06 then 24 else 4)) := by
    refine issued_startRead ?_
    rcases hcmd with rfl | rfl
    · exact Or.inl ⟨rfl, cdBlockSize_ne_zero⟩
    · exact Or.inr ⟨rfl, rfl⟩
  exact ⟨hi.active, hi.format, hi.events, hi.status, hi.seeked⟩

/-- The block that the drive takes from the image as the `i`-th. -/
def taken (v : Disc) (d₀ : Drive) (i : ℕ) : Block × ℕ :=
  ({ header := headerOf v d₀ (d₀.sectorPos + BitVec.ofNat 64 i)
     bytes := imageBytes d₀
     data := ((after v (imageBytes d₀) i d₀.file).read v (imageBytes d₀)).1
     cipher := d₀.cipher }, d₀.blockSize)

/-- The block of the `i`-th sector that was asked for. -/
def asked (v : Disc) (d₀ : Drive) (i : ℕ) : Block × ℕ :=
  ({ header := headerOf v d₀ (d₀.sectorPos + BitVec.ofNat 64 i)
     bytes := imageBytes d₀
     data := some ((v.seekTo d₀.sectorPos + i) * v.container.sectorSize)
     cipher := d₀.cipher }, d₀.blockSize)

/-- The sectors that were asked for. -/
def count (d₀ : Drive) : ℕ := d₀.sectorsLeft.toNat

/-! ### The phases of a reading -/

/-- What the reading leaves alone, after `k` blocks were delivered. -/
structure Common (v : Disc) (d₀ : Drive) (k : ℕ) (d : Drive) : Prop where
  command : d.command = d₀.command
  blockSize : d.blockSize = d₀.blockSize
  cipher : d.cipher = d₀.cipher
  interrupts : d.interrupts = d₀.interrupts
  status : d.NStatus = d₀.NStatus
  delivered : d.delivered = d₀.delivered ++ (List.range k).map (taken v d₀)

structure Seeking (v : Disc) (d₀ d : Drive) : Prop extends Common v d₀ 0 d where
  active : d.activeNCommand = .READ_SEEK
  left : d.readBytesLeft = 0
  request : d.dmaRequest = false
  sectorPos : d.sectorPos = d₀.sectorPos
  sectorsLeft : d.sectorsLeft = d₀.sectorsLeft
  file : d.file = d₀.file
  events : d.events ≠ []

structure Empty (v : Disc) (d₀ : Drive) (k : ℕ) (d : Drive) : Prop extends Common v d₀ k d where
  active : d.activeNCommand = .READ
  left : d.readBytesLeft = 0
  request : d.dmaRequest = false
  currentSector : d.currentSector = d₀.sectorPos + BitVec.ofNat 64 k
  sectorsLeft : d.sectorsLeft.toNat + k = count d₀
  file : d.file = after v (imageBytes d₀) k d₀.file
  events : d.events ≠ []

structure Full (v : Disc) (d₀ : Drive) (k : ℕ) (d : Drive) : Prop extends Common v d₀ k d where
  active : d.activeNCommand = .READ
  left : d.readBytesLeft = d₀.blockSize
  request : d.dmaRequest
  currentSector : d.currentSector = d₀.sectorPos + BitVec.ofNat 64 (k + 1)
  sectorsLeft : d.sectorsLeft.toNat + (k + 1) = count d₀
  file : d.file = after v (imageBytes d₀) (k + 1) d₀.file
  readBuffer : d.readBuffer = (taken v d₀ k).1

/-- The command is over. -/
structure Done (v : Disc) (d₀ d : Drive) : Prop where
  active : d.activeNCommand = .NONE
  request : d.dmaRequest = false
  status : d.NStatus = 0x4E
  driveStatus : d.driveStatus = PAUSED
  interrupts : d.interrupts = d₀.interrupts + 1
  delivered : d.delivered = d₀.delivered ++ (List.range (count d₀)).map (taken v d₀)

/-- No block waits to be read, and no request of one. -/
def Drained (d : Drive) : Prop := d.readBytesLeft = 0 ∧ d.dmaRequest = false

theorem seeking_issued (hi : Issued v d₀) (hd : Drained d₀) : Seeking v d₀ d₀ where
  command := rfl
  blockSize := rfl
  cipher := rfl
  interrupts := rfl
  status := rfl
  delivered := (List.append_nil _).symm
  active := hi.active
  left := hd.1
  request := hd.2
  sectorPos := rfl
  sectorsLeft := rfl
  file := rfl
  events := hi.events

theorem Common.without {k i : ℕ} (h : Common v d₀ k d) : Common v d₀ k (without i d) :=
  ⟨h.command, h.blockSize, h.cipher, h.interrupts, h.status, h.delivered⟩

/-- The seek ends. -/
theorem Seeking.event {i : ℕ} (h : Seeking v d₀ d) :
    Empty v d₀ 0 ((without i d).handleNCommand v) := by
  have hh : (without i d).handleNCommand v = ({ without i d with
      driveStatus := READING ||| SPINNING
      activeNCommand := .READ
      currentSector := d.sectorPos } : Drive).addEvent (without i d).getBlockTiming := by
    unfold Drive.handleNCommand
    rw [show (without i d).activeNCommand = .READ_SEEK from h.active]
    rfl
  rw [hh]
  exact
    { command := h.command
      blockSize := h.blockSize
      cipher := h.cipher
      interrupts := h.interrupts
      status := h.status
      delivered := h.delivered
      active := rfl
      left := h.left
      request := h.request
      currentSector := h.sectorPos.trans (BitVec.add_zero _).symm
      sectorsLeft := congrArg BitVec.toNat h.sectorsLeft
      file := h.file
      events := List.append_ne_nil_of_right_ne_nil _ (List.cons_ne_nil _ _) }

/-- The reading of a sector into the buffer. -/
theorem handle_read (hi : Issued v d₀) (hcommand : d.command = d₀.command) (hsize : d.blockSize = d₀.blockSize)
    (hactive : d.activeNCommand = .READ) (hleft : d.readBytesLeft = 0) :
    d.handleNCommand v =
      d.fill v (headerOf v d₀ d.currentSector) (imageBytes d₀) d₀.blockSize := by
  unfold Drive.handleNCommand
  simp only [hactive, if_pos hleft]
  unfold headerOf imageBytes
  rcases hi.format with ⟨hc, -⟩ | ⟨hc, hs⟩
  · rw [if_pos (hcommand.trans hc), if_pos hc, Drive.readCDSector, hsize]
    by_cases hb : d₀.blockSize = 2340
    · rw [if_pos hb, if_pos hb, if_neg fun h => h.2 hb]
    · rw [if_neg hb, if_neg hb, if_pos ⟨hc, hb⟩]
  · rw [hcommand, hc, if_neg (by decide), if_pos rfl, if_neg (by decide),
      if_neg fun h => absurd h.1 (by decide), hs]
    rfl

/-- A sector is read into the buffer. -/
theorem Empty.event {k i : ℕ} (hi : Issued v d₀) (h : Empty v d₀ k d) (hk : k < count d₀) :
    Full v d₀ k ((without i d).handleNCommand v) := by
  rw [handle_read hi (d := without i d) h.command h.blockSize h.active h.left]
  have hleft := h.sectorsLeft
  have hpos : 0 < d.sectorsLeft.toNat := by omega
  have hdec : (d.sectorsLeft - 1).toNat + 1 = d.sectorsLeft.toNat := by
    rw [BitVec.toNat_sub_of_le (by rw [BitVec.le_def]; exact hpos)]
    exact Nat.sub_add_cancel hpos
  exact
    { command := h.command
      blockSize := h.blockSize
      cipher := h.cipher
      interrupts := h.interrupts
      status := h.status
      delivered := h.delivered
      active := h.active
      left := rfl
      request := rfl
      currentSector := by
        show d.currentSector + 1 = _
        rw [h.currentSector, BitVec.add_assoc, BitVec.ofNat_add k 1]
        rfl
      sectorsLeft := by
        show (d.sectorsLeft - 1).toNat + _ = _
        omega
      file := by
        show (d.file.read v _).2 = _
        rw [h.file]
        rfl
      readBuffer := by
        show Block.mk _ _ (d.file.read v _).1 d.cipher = _
        rw [h.file, h.cipher]
        show Block.mk (headerOf v d₀ d.currentSector) _ _ _ = _
        rw [h.currentSector]
        rfl }

/-- The buffer is full: the event is scheduled again. -/
theorem Full.event {k i : ℕ} (hi : Issued v d₀) (h : Full v d₀ k d) :
    Full v d₀ k ((without i d).handleNCommand v) := by
  have hne : (without i d).readBytesLeft ≠ 0 := by
    rw [show (without i d).readBytesLeft = d₀.blockSize from h.left]
    rcases hi.format with ⟨-, hb⟩ | ⟨-, hb⟩ <;> omega
  have hh : (without i d).handleNCommand v = (without i d).addEvent 1000 := by
    unfold Drive.handleNCommand
    rw [show (without i d).activeNCommand = .READ from h.active]
    exact if_neg hne
  rw [hh]
  exact
    { command := h.command
      blockSize := h.blockSize
      cipher := h.cipher
      interrupts := h.interrupts
      status := h.status
      delivered := h.delivered
      active := h.active
      left := h.left
      request := h.request
      currentSector := h.currentSector
      sectorsLeft := h.sectorsLeft
      file := h.file
      readBuffer := h.readBuffer }

theorem delivered_next {k : ℕ} (h : d.delivered = d₀.delivered ++ (List.range k).map (taken v d₀))
    {b : Block × ℕ} (hb : b = taken v d₀ k) :
    d.delivered ++ [b] = d₀.delivered ++ (List.range (k + 1)).map (taken v d₀) := by
  rw [h, hb, List.range_succ, List.map_append, List.append_assoc]
  rfl

/-- What the reading of the buffer leaves. -/
def Drive.afterRead (d : Drive) : Drive :=
  { d with
    delivered := d.delivered ++ [(d.readBuffer, d.blockSize)]
    dmaRequest := false
    readBytesLeft := d.readBytesLeft - d.blockSize }

theorem readToRAM_eq : d.readToRAM =
    if (Drive.afterRead d).readBytesLeft ≤ 0 then
      if d.sectorsLeft = 0 then (Drive.afterRead d).finish 0x4E 0x3
      else ({ Drive.afterRead d with activeNCommand := .READ } : Drive).addEvent
        (Drive.afterRead d).getBlockTiming
    else Drive.afterRead d := rfl

/-- The DMA reads the buffer, and the next sector follows unless it was the last. -/
theorem Full.readToRAM {k : ℕ} (h : Full v d₀ k d) :
    (k + 1 < count d₀ ∧ Empty v d₀ (k + 1) d.readToRAM) ∨
      (k + 1 = count d₀ ∧ Done v d₀ d.readToRAM) := by
  have hleft : (Drive.afterRead d).readBytesLeft = 0 := by
    show d.readBytesLeft - d.blockSize = 0
    rw [h.left, h.blockSize]
    omega
  have hbuffer : (d.readBuffer, d.blockSize) = taken v d₀ k := by
    rw [h.readBuffer, h.blockSize]
    rfl
  have hdelivered := delivered_next h.delivered hbuffer
  have hcount := h.sectorsLeft
  rw [readToRAM_eq, if_pos (by omega)]
  by_cases hz : d.sectorsLeft = 0
  · have hlast : k + 1 = count d₀ := by
      rw [← hcount, hz]
      exact (Nat.zero_add _).symm
    rw [if_pos hz]
    refine Or.inr ⟨hlast, ?_⟩
    exact
      { active := rfl
        request := rfl
        status := rfl
        driveStatus := rfl
        interrupts := congrArg (· + 1) h.interrupts
        delivered := hlast ▸ hdelivered }
  · have hpos : 0 < d.sectorsLeft.toNat :=
      Nat.pos_of_ne_zero fun h0 => hz (BitVec.eq_of_toNat_eq h0)
    rw [if_neg hz]
    refine Or.inl ⟨by omega, ?_⟩
    exact
      { command := h.command
        blockSize := h.blockSize
        cipher := h.cipher
        interrupts := h.interrupts
        status := h.status
        delivered := hdelivered
        active := rfl
        left := hleft
        request := rfl
        currentSector := h.currentSector
        sectorsLeft := hcount
        file := h.file
        events := List.append_ne_nil_of_right_ne_nil _ (List.cons_ne_nil _ _) }

theorem Done.event {i : ℕ} (h : Done v d₀ d) : Done v d₀ ((without i d).handleNCommand v) := by
  have hh : (without i d).handleNCommand v = without i d := by
    unfold Drive.handleNCommand
    rw [show (without i d).activeNCommand = .NONE from h.active]
  rw [hh]
  exact ⟨h.active, h.request, h.status, h.driveStatus, h.interrupts, h.delivered⟩

/-! ### Every run -/

/-- The phases of a reading. -/
inductive Phases (v : Disc) (d₀ d : Drive) : Prop where
  | seeking (h : Seeking v d₀ d)
  | empty (k : ℕ) (hk : k < count d₀) (h : Empty v d₀ k d)
  | full (k : ℕ) (hk : k < count d₀) (h : Full v d₀ k d)
  | done (h : Done v d₀ d)

/-- The readings of the image that are still to come, twice, and where the drive is in one. -/
def rank (d : Drive) : ℕ :=
  match d.activeNCommand with
  | .READ_SEEK => 2 * d.sectorsLeft.toNat + 2
  | .READ => 2 * d.sectorsLeft.toNat + (if d.dmaRequest then 2 else 1)
  | _ => 0

/-- A block that waits in the buffer waits for the DMA; all else waits for an event. -/
def helpful (d : Drive) : Kind := if d.dmaRequest then .dma else .event

theorem rank_seeking (h : Seeking v d₀ d) : rank d = 2 * count d₀ + 2 := by
  unfold rank
  rw [h.active, h.sectorsLeft]
  rfl

theorem rank_empty {k : ℕ} (h : Empty v d₀ k d) : rank d + 2 * k = 2 * count d₀ + 1 := by
  have hleft := h.sectorsLeft
  unfold rank
  rw [h.active, h.request]
  show 2 * d.sectorsLeft.toNat + 1 + 2 * k = _
  omega

theorem rank_full {k : ℕ} (h : Full v d₀ k d) : rank d + 2 * k = 2 * count d₀ := by
  have hleft := h.sectorsLeft
  unfold rank
  rw [h.active, h.request]
  show 2 * d.sectorsLeft.toNat + 2 + 2 * k = _
  omega

theorem rank_done (h : Done v d₀ d) : rank d = 0 := by
  unfold rank
  rw [h.active]

/-- Where a step leads from each phase. -/
theorem step_phases (hi : Issued v d₀) (hn : count d₀ ≠ 0) {t : Turn} (h : Phases v d₀ d)
    (hs : Step v d t d') : Phases v d₀ d' ∧ (Done v d₀ d → Done v d₀ d') ∧ (Done v d₀ d ∨ Done v d₀ d' ∨
      rank d' < rank d ∨ (rank d' = rank d ∧ helpful d' = helpful d ∧ t.kind ≠ helpful d)) := by
  have hnone : ∀ {x : NCommand}, d.activeNCommand = x → x ≠ .NONE → ¬ Done v d₀ d :=
    fun hx hne hd => hne (hx.symm.trans hd.active)
  cases t with
  | event i =>
    obtain ⟨-, rfl⟩ := step_event.1 hs
    cases h with
    | seeking h =>
      have h' := h.event (i := i)
      have h₁ := rank_seeking h
      have h₂ := rank_empty h'
      exact ⟨.empty 0 (by omega) h', fun hd => absurd hd (hnone h.active (by decide)),
        Or.inr (Or.inr (Or.inl (by omega)))⟩
    | empty k hk h =>
      have h' := h.event (i := i) hi hk
      have h₁ := rank_empty h
      have h₂ := rank_full h'
      exact ⟨.full k hk h', fun hd => absurd hd (hnone h.active (by decide)),
        Or.inr (Or.inr (Or.inl (by omega)))⟩
    | full k hk h =>
      have h' := h.event (i := i) hi
      have h₁ := rank_full h
      have h₂ := rank_full h'
      have hdma : helpful d = .dma := if_pos h.request
      have hdma' : helpful _ = .dma := if_pos h'.request
      refine ⟨.full k hk h', fun hd => absurd hd (hnone h.active (by decide)),
        Or.inr (Or.inr (Or.inr ⟨by omega, hdma'.trans hdma.symm, ?_⟩))⟩
      rw [hdma]
      exact Kind.noConfusion
    | done h => exact ⟨.done h.event, fun hd => hd.event, Or.inl h⟩
  | readToRAM =>
    obtain ⟨hr, rfl⟩ := step_readToRAM.1 hs
    cases h with
    | seeking h => exact absurd (hr.symm.trans h.request) (by decide)
    | empty k hk h => exact absurd (hr.symm.trans h.request) (by decide)
    | full k hk h =>
      have hnot := hnone h.active (by decide)
      rcases h.readToRAM with ⟨hk', h'⟩ | ⟨-, h'⟩
      · have h₁ := rank_full h
        have h₂ := rank_empty h'
        exact ⟨.empty (k + 1) hk' h', fun hd => absurd hd hnot, Or.inr (Or.inr (Or.inl (by omega)))⟩
      · exact ⟨.done h', fun hd => absurd hd hnot, Or.inr (Or.inl h')⟩
    | done h => exact absurd (hr.symm.trans h.request) (by decide)

theorem helpful_event (h : d.dmaRequest = false) : helpful d = .event := by
  unfold helpful
  rw [h]
  rfl

theorem progress (hi : Issued v d₀) (hn : count d₀ ≠ 0) :
    Progress (Step v) Turn.kind (Phases v d₀) (Done v d₀) rank helpful where
  keeps _ _ _ h _ hs := (step_phases hi hn h hs).1
  possible d h hd := by
    cases h with
    | seeking h =>
      rw [helpful_event h.request]
      exact possible_event h.events
    | empty k hk h =>
      rw [helpful_event h.request]
      exact possible_event h.events
    | full k hk h =>
      rw [show helpful d = .dma from if_pos h.request]
      exact possible_dma h.request
    | done h => exact absurd h hd
  lowers _ _ _ h hd hs := (step_phases hi hn h hs).2.2.resolve_left hd

/-- What the DMA was given in each phase. -/
theorem Phases.delivered (h : Phases v d₀ d) :
    ∃ k, k ≤ count d₀ ∧ d.delivered = d₀.delivered ++ (List.range k).map (taken v d₀) := by
  cases h with
  | seeking h => exact ⟨0, Nat.zero_le _, h.delivered⟩
  | empty k hk h => exact ⟨k, hk.le, h.delivered⟩
  | full k hk h => exact ⟨k, hk.le, h.delivered⟩
  | done h => exact ⟨_, Nat.le_refl _, h.delivered⟩

/-! ### The contract -/

/-- The command has ended with all that was asked for delivered. -/
structure Ended (v : Disc) (d₀ d : Drive) : Prop where
  status : d.NStatus = 0x4E
  driveStatus : d.driveStatus = PAUSED
  interrupts : d.interrupts = d₀.interrupts + 1
  delivered : d.delivered = d₀.delivered ++ (List.range (count d₀)).map (asked v d₀)

/-- Whatever the order of the events and the DMA, the DMA gets the sectors that were asked for, each once
and in order; and in a fair run the command ends. -/
structure Delivers (v : Disc) (d₀ : Drive) : Prop where
  inOrder : ∀ d, Reaches (· = d₀) (Step v) d →
    ∃ k, k ≤ count d₀ ∧ d.delivered = d₀.delivered ++ (List.range k).map (asked v d₀)
  ends : ∀ r : Run (Step v), r.state 0 = d₀ → r.Fair Turn.kind →
    ∃ i, ∀ j, i ≤ j → Ended v d₀ (r.state j)

/-- The blocks that are taken from the image are the sectors. -/
def Whole (v : Disc) (d₀ : Drive) : Prop := ∀ i < count d₀, taken v d₀ i = asked v d₀ i

theorem map_eq_of_whole (hw : Whole v d₀) {k : ℕ} (hk : k ≤ count d₀) :
    (List.range k).map (taken v d₀) = (List.range k).map (asked v d₀) :=
  List.map_congr_left fun i hi => hw i ((List.mem_range.mp hi).trans_le hk)

/-- **The reading of a drained drive.** -/
theorem delivers (hi : Issued v d₀) (hd : Drained d₀) (hn : count d₀ ≠ 0) (hw : Whole v d₀) :
    Delivers v d₀ where
  inOrder d h := by
    have hp : Phases v d₀ d := by
      refine h.invariant (I := Phases v d₀) ?_ ?_
      · rintro d rfl
        exact .seeking (seeking_issued hi hd)
      · intro d t d' hp hs
        exact (step_phases hi hn hp hs).1
    obtain ⟨k, hk, hdel⟩ := hp.delivered
    exact ⟨k, hk, map_eq_of_whole hw hk ▸ hdel⟩
  ends r h0 hfair := by
    have hstart : Phases v d₀ (r.state 0) := h0.symm ▸ .seeking (seeking_issued hi hd)
    obtain ⟨i, -, hdone⟩ := (progress hi hn).leads r hfair hstart
    refine ⟨i, fun j hij => ?_⟩
    have hj : Done v d₀ (r.state j) :=
      r.keeps (I := Done v d₀) (fun d t d' h hs => (step_phases hi hn (.done h) hs).2.1 h) hij hdone
    exact ⟨hj.status, hj.driveStatus, hj.interrupts, map_eq_of_whole hw (Nat.le_refl _) ▸ hj.delivered⟩

/-! ### Whole sectors -/

/-- The sectors lie on the image, from which whole sectors are taken if there is more than one. -/
structure OnImage (v : Disc) (d₀ : Drive) : Prop where
  stream : d₀.file.failed = false
  aligned : count d₀ = 1 ∨ v.container.taken (imageBytes d₀) = v.container.sectorSize
  last : (v.seekTo d₀.sectorPos + (count d₀ - 1)) * v.container.sectorSize +
    v.container.taken (imageBytes d₀) ≤ v.fileSize

theorem sectorSize_pos : 0 < v.container.sectorSize := by
  cases v.container <;> decide

theorem taken_eq_iff {i : ℕ} (hi : Issued v d₀) (hs : d₀.file.failed = false) :
    taken v d₀ i = asked v d₀ i ↔
      v.seekTo d₀.sectorPos * v.container.sectorSize + i * v.container.taken (imageBytes d₀) +
          v.container.taken (imageBytes d₀) ≤ v.fileSize ∧
        i * v.container.taken (imageBytes d₀) = i * v.container.sectorSize := by
  have hfile : d₀.file = ⟨v.seekTo d₀.sectorPos * v.container.sectorSize, false⟩ := by
    rw [← hi.seeked hs, ← hs]
  have hdata : taken v d₀ i = asked v d₀ i ↔
      ((after v (imageBytes d₀) i d₀.file).read v (imageBytes d₀)).1 =
        some ((v.seekTo d₀.sectorPos + i) * v.container.sectorSize) := by
    constructor
    · intro h
      exact congrArg (fun b => b.1.data) h
    · intro h
      unfold taken asked
      rw [h]
  rw [hdata, hfile, data_good, Nat.add_mul]
  split
  next hfit =>
    constructor
    · intro h
      exact ⟨hfit, Nat.add_left_cancel (Option.some.inj h)⟩
    · intro h
      rw [h.2]
  next hfit =>
    constructor
    · intro h
      cases h
    · intro h
      exact absurd h.1 hfit

theorem taken_failed {i : ℕ} (hs : d₀.file.failed) : taken v d₀ i ≠ asked v d₀ i := by
  intro h
  have hdata : ((after v (imageBytes d₀) i d₀.file).read v (imageBytes d₀)).1 = some _ :=
    congrArg (fun b : Block × ℕ => b.1.data) h
  rw [after_failed hs, read_failed hs] at hdata
  cases hdata

theorem whole_iff (hi : Issued v d₀) (hn : count d₀ ≠ 0) : Whole v d₀ ↔ OnImage v d₀ := by
  constructor
  · intro h
    have hs : d₀.file.failed = false :=
      Bool.eq_false_iff.mpr fun hf => taken_failed hf (h 0 (Nat.pos_of_ne_zero hn))
    have hall := fun i hic => (taken_eq_iff hi hs).mp (h i hic)
    have haligned : count d₀ = 1 ∨ v.container.taken (imageBytes d₀) = v.container.sectorSize := by
      by_cases h1 : count d₀ = 1
      · exact Or.inl h1
      · have hone := (hall 1 (by omega)).2
        rw [Nat.one_mul, Nat.one_mul] at hone
        exact Or.inr hone
    refine ⟨hs, haligned, ?_⟩
    obtain ⟨hlast, heq⟩ := hall (count d₀ - 1) (by omega)
    rw [Nat.add_mul, ← heq]
    exact hlast
  · rintro ⟨hs, haligned, hlast⟩ i hic
    rw [Nat.add_mul] at hlast
    refine (taken_eq_iff hi hs).mpr ?_
    rcases haligned with h1 | ha
    · obtain rfl : i = 0 := by omega
      rw [h1] at hlast
      exact ⟨by omega, by omega⟩
    · rw [ha] at hlast ⊢
      have hle : i * v.container.sectorSize ≤ (count d₀ - 1) * v.container.sectorSize :=
        Nat.mul_le_mul_right _ (by omega)
      exact ⟨by omega, rfl⟩

/-! ### The readings that fail -/

theorem prefix_of_delivers {bs : List (Block × ℕ)} (h : Delivers v d₀)
    (hr : Reaches (· = d₀) (Step v) d) (hd : d.delivered = d₀.delivered ++ bs) :
    bs.length ≤ count d₀ ∧ bs = (List.range bs.length).map (asked v d₀) := by
  obtain ⟨k, hk, hdel⟩ := h.inOrder d hr
  have hbs : bs = (List.range k).map (asked v d₀) := List.append_cancel_left (hd.symm.trans hdel)
  have hlen : bs.length = k := by rw [hbs, List.length_map, List.length_range]
  exact ⟨hlen ▸ hk, hlen ▸ hbs⟩

/-- Every sector is delivered in some run. -/
theorem reaches_full (hi : Issued v d₀) (hd : Drained d₀) (k : ℕ) (hk : k < count d₀) :
    ∃ d, Reaches (· = d₀) (Step v) d ∧ Full v d₀ k d := by
  have hseek : Reaches (· = d₀) (Step v) d₀ := Reaches.start rfl
  have hread : ∀ {d k}, k < count d₀ → Reaches (· = d₀) (Step v) d → Empty v d₀ k d →
      ∃ d, Reaches (· = d₀) (Step v) d ∧ Full v d₀ k d := by
    intro d k hk hr he
    exact ⟨_, hr.next (step_event.2 ⟨List.length_pos_iff.mpr he.events, rfl⟩), he.event hi hk⟩
  induction k with
  | zero =>
    refine hread hk (hseek.next (step_event.2 ⟨List.length_pos_iff.mpr hi.events, rfl⟩)) ?_
    exact (seeking_issued hi hd).event
  | succ k ih =>
    obtain ⟨d, hr, hf⟩ := ih (by omega)
    rcases hf.readToRAM with ⟨-, he⟩ | ⟨hlast, -⟩
    · exact hread hk (hr.next (step_readToRAM.2 ⟨hf.request, rfl⟩)) he
    · omega

theorem whole_of_delivers (hi : Issued v d₀) (hd : Drained d₀) (h : Delivers v d₀) : Whole v d₀ := by
  intro i hic
  obtain ⟨d, hr, hf⟩ := reaches_full hi hd i hic
  have hdel : d.readToRAM.delivered =
      d₀.delivered ++ (List.range (i + 1)).map (taken v d₀) := by
    rcases hf.readToRAM with ⟨-, h'⟩ | ⟨hlast, h'⟩
    · exact h'.delivered
    · exact hlast ▸ h'.delivered
  obtain ⟨-, heq⟩ := prefix_of_delivers h
    (hr.next (step_readToRAM.2 ⟨hf.request, rfl⟩)) hdel
  rw [List.length_map, List.length_range] at heq
  exact List.map_inj_left.mp heq i (List.mem_range.mpr (Nat.lt_succ_self i))

/-- The drive waits for a buffer that nobody reads to become empty. -/
structure Stuck (d : Drive) : Prop where
  active : d.activeNCommand = .READ_SEEK ∨ d.activeNCommand = .READ
  left : d.readBytesLeft ≠ 0
  request : d.dmaRequest = false
  events : d.events ≠ []
  status : d.NStatus = 0x40

theorem Stuck.event {i : ℕ} (h : Stuck d) : Stuck ((without i d).handleNCommand v) := by
  have hevents : ∀ n, (without i d).events ++ [n] ≠ [] := fun n =>
    List.append_ne_nil_of_right_ne_nil _ (List.cons_ne_nil _ _)
  unfold Drive.handleNCommand
  rcases h.active with ha | ha
  · rw [show (without i d).activeNCommand = .READ_SEEK from ha]
    exact ⟨Or.inr rfl, h.left, h.request, hevents _, h.status⟩
  · rw [show (without i d).activeNCommand = .READ from ha]
    dsimp only
    rw [if_neg (show (without i d).readBytesLeft ≠ 0 from h.left)]
    exact ⟨Or.inr ha, h.left, h.request, hevents _, h.status⟩

theorem Stuck.step (h : Stuck d) :
    Step v d (.event 0) ((without 0 d).handleNCommand v) :=
  step_event.2 ⟨List.length_pos_iff.mpr h.events, rfl⟩

/-- A fair run of a stuck drive. -/
theorem Stuck.run (h : Stuck d) : ∃ r : Run (Step v), r.state 0 = d ∧ r.Fair Turn.kind ∧
    ∀ i, Stuck (r.state i) := by
  have hkeeps : ∀ s : Drive, Stuck s → Stuck ((without 0 s).handleNCommand v) := fun _ hs => hs.event
  refine ⟨Run.iterate (fun s => (without 0 s).handleNCommand v) (fun _ => .event 0) hkeeps
    (fun _ hs => hs.step) d h, rfl, ?_, fun i => iterate_keeps hkeeps h i⟩
  intro k i
  refine ⟨i, Nat.le_refl i, ?_⟩
  cases k with
  | event => exact Or.inl ⟨.event 0, rfl, rfl⟩
  | dma => exact Or.inr (not_possible_dma (iterate_keeps hkeeps h i).request)

theorem not_ended_of_status (h : d.NStatus = 0x40) : ¬ Ended v d₀ d := fun he =>
  absurd (h.symm.trans he.status) (by decide)

theorem not_delivers_of_stuck (h : Stuck d₀) : ¬ Delivers v d₀ := by
  intro hd
  obtain ⟨r, h0, hfair, hall⟩ := h.run (v := v)
  obtain ⟨i, hi⟩ := hd.ends r h0 hfair
  exact not_ended_of_status (hall i).status (hi i (Nat.le_refl i))

/-- The drive is stuck after a first step. -/
theorem not_delivers_of_step {t : Turn} (hs : Step v d₀ t d) (h : Stuck d) : ¬ Delivers v d₀ := by
  intro hd
  obtain ⟨r, rfl, hfair, hall⟩ := h.run (v := v)
  obtain ⟨i, hi⟩ := hd.ends (r.cons hs) rfl hfair.cons
  exact not_ended_of_status (hall i).status (hi (i + 1) (Nat.le_succ i))

theorem readToRAM_delivered : d.readToRAM.delivered = d.delivered ++ [(d.readBuffer, d.blockSize)] := by
  rw [readToRAM_eq]
  split
  · split <;> rfl
  · rfl

theorem reaches_self : Reaches (· = d₀) (Step v) d₀ := Reaches.start rfl

theorem reaches_event (hr : Reaches (· = d₀) (Step v) d) (h : d.events ≠ []) :
    Reaches (· = d₀) (Step v) ((without 0 d).handleNCommand v) :=
  hr.next (step_event.2 ⟨List.length_pos_iff.mpr h, rfl⟩)

theorem reaches_readToRAM (hr : Reaches (· = d₀) (Step v) d) (h : d.dmaRequest) :
    Reaches (· = d₀) (Step v) d.readToRAM :=
  hr.next (step_readToRAM.2 ⟨h, rfl⟩)

/-- Without a sector to be read, one is read. -/
theorem not_delivers_of_none (hi : Issued v d₀) (hd : Drained d₀) (hn : count d₀ = 0) :
    ¬ Delivers v d₀ := by
  intro h
  have he := (seeking_issued (v := v) hi hd).event (i := 0)
  have hread := handle_read hi (d := without 0 ((without 0 d₀).handleNCommand v)) he.command
    he.blockSize he.active he.left (v := v)
  have hr := reaches_event (reaches_event (reaches_self (v := v)) hi.events) he.events
  rw [hread] at hr
  have hdel := readToRAM_delivered (d := Drive.fill v
    (headerOf v d₀ (without 0 ((without 0 d₀).handleNCommand v)).currentSector) (imageBytes d₀)
    d₀.blockSize (without 0 ((without 0 d₀).handleNCommand v)))
  have hsame : d₀.delivered ++ (List.range 0).map (taken v d₀) = d₀.delivered := List.append_nil _
  have hlen := (prefix_of_delivers h (reaches_readToRAM hr rfl)
    (hdel.trans (congrArg (· ++ _) (he.delivered.trans hsame)))).1
  rw [hn] at hlen
  exact absurd hlen (Nat.not_succ_le_zero _)

/-- The stream stands at the first sector. -/
theorem not_read_second (bytes : ℕ) (hi : Issued v d₀) :
    (d₀.file.read v bytes).1 ≠ some ((v.seekTo d₀.sectorPos + 1) * v.container.sectorSize) := by
  intro h
  have hpos := sectorSize_pos (v := v)
  by_cases hf : d₀.file.failed
  · rw [read_failed hf] at h
    cases h
  · have hseeked := hi.seeked (Bool.eq_false_iff.mpr hf)
    rw [Nat.add_mul] at h
    unfold Stream.read at h
    rw [if_neg hf] at h
    split at h
    · have heq : d₀.file.position = _ := Option.some.inj h
      omega
    · cases h

/-- A block of an earlier command waits in the buffer. -/
theorem not_delivers_of_request (hi : Issued v d₀) (hq : d₀.dmaRequest) : ¬ Delivers v d₀ := by
  intro h
  have hr := reaches_readToRAM (reaches_self (v := v)) hq
  have hone := prefix_of_delivers h hr readToRAM_delivered
  have hn : d₀.sectorsLeft ≠ 0 := by
    intro h0
    have hcount : count d₀ = 0 := by
      unfold count
      rw [h0]
      rfl
    rw [hcount] at hone
    exact absurd hone.1 (Nat.not_succ_le_zero _)
  have hstep : Step v d₀ .readToRAM d₀.readToRAM := step_readToRAM.2 ⟨hq, rfl⟩
  have hread := readToRAM_eq (d := d₀)
  by_cases hle : (Drive.afterRead d₀).readBytesLeft ≤ 0
  · rw [if_pos hle, if_neg hn] at hread
    have hevents : d₀.readToRAM.events ≠ [] := by
      rw [hread]
      exact List.append_ne_nil_of_right_ne_nil _ (List.cons_ne_nil _ _)
    by_cases hz : (Drive.afterRead d₀).readBytesLeft = 0
    · -- the first sector follows a second time
      have hfill := handle_read hi (v := v) (d := without 0 d₀.readToRAM) (by rw [hread]; rfl)
        (by rw [hread]; rfl) (by rw [hread]; rfl) (by rw [hread]; exact hz)
      have hr₂ := reaches_event hr hevents
      rw [hfill] at hr₂
      have hdel : (without 0 d₀.readToRAM).delivered =
          d₀.delivered ++ [(d₀.readBuffer, d₀.blockSize)] := readToRAM_delivered
      have htwo := (prefix_of_delivers h (reaches_readToRAM hr₂ rfl)
        (readToRAM_delivered.trans ((congrArg (· ++ _) hdel).trans (List.append_assoc _ _ _)))).2
      have hsecond := congrArg (fun l : List (Block × ℕ) => (l[1]?).map fun b => b.1.data) htwo
      have hfile : (without 0 d₀.readToRAM).file = d₀.file := by
        rw [hread]
        rfl
      refine not_read_second (imageBytes d₀) hi ?_
      rw [← hfile]
      exact Option.some.inj hsecond
    · refine not_delivers_of_step hstep ?_ h
      rw [hread]
      exact ⟨Or.inr rfl, hz, rfl, List.append_ne_nil_of_right_ne_nil _ (List.cons_ne_nil _ _), hi.status⟩
  · rw [if_neg hle] at hread
    refine not_delivers_of_step hstep ?_ h
    rw [hread]
    exact ⟨Or.inl hi.active, fun h0 => hle (h0 ▸ Int.le_refl 0), rfl, hi.events, hi.status⟩

/-- Without a request, something is left of the buffer. -/
theorem not_delivers_of_left (hi : Issued v d₀) (hq : d₀.dmaRequest = false)
    (hl : d₀.readBytesLeft ≠ 0) : ¬ Delivers v d₀ :=
  not_delivers_of_stuck ⟨Or.inl hi.active, hl, hq, hi.events, hi.status⟩

theorem drained_of_delivers (hi : Issued v d₀) (h : Delivers v d₀) : Drained d₀ := by
  by_cases hq : d₀.dmaRequest
  · exact absurd h (not_delivers_of_request hi hq)
  have hq' := Bool.eq_false_iff.mpr hq
  by_cases hl : d₀.readBytesLeft = 0
  · exact ⟨hl, hq'⟩
  · exact absurd h (not_delivers_of_left hi hq' hl)

/-- What a reading command takes from its parameters, and what it leaves alone. -/
theorem sendNCommand_params {cmd : Byte} (hcmd : cmd = 0x06 ∨ cmd = 0x08)
    (h : d.sendNCommand v cmd = some d₀) :
    d₀.sectorPos = (d.param32 0).setWidth 64 ∧ count d₀ = (d.param32 4).toNat ∧
      (Drained d₀ ↔ Drained d) := by
  rw [sendNCommand_read hcmd] at h
  cases h
  refine ⟨rfl, ?_, Iff.rfl⟩
  exact BitVec.toNat_setWidth_of_le (by decide)

/-- A reading command delivers its sectors, for every order of the events and the DMA, if and only if
it asks for one at least, nothing of an earlier command is in the buffer, and the image has the
sectors. -/
theorem delivers_iff {cmd : Byte} (hcmd : cmd = 0x06 ∨ cmd = 0x08)
    (h : d.sendNCommand v cmd = some d₀) :
    Delivers v d₀ ↔ d.param32 4 ≠ 0 ∧ Drained d ∧ OnImage v d₀ := by
  have hi := issued_sendNCommand hcmd h
  obtain ⟨-, hcount, hdrained⟩ := sendNCommand_params hcmd h
  have hzero : d.param32 4 ≠ 0 ↔ count d₀ ≠ 0 := by
    rw [hcount]
    exact not_congr ⟨fun h0 => by rw [h0]; rfl, fun h0 => BitVec.eq_of_toNat_eq h0⟩
  rw [hzero, ← hdrained]
  constructor
  · intro hdel
    have hd := drained_of_delivers hi hdel
    have hn : count d₀ ≠ 0 := fun h0 => not_delivers_of_none hi hd h0 hdel
    exact ⟨hn, hd, (whole_iff hi hn).mp (whole_of_delivers hi hd hdel)⟩
  · rintro ⟨hn, hd, himage⟩
    exact delivers hi hd hn ((whole_iff hi hn).mpr himage)

/-- An image of 32 sectors. -/
def image : Disc where
  container := .ISO
  fileSize := 0x10000
  LBA := 2048
  volumeSize := 32
  letters := 0
  code := 0

/-- A drive that was reset, with the number of sectors among its parameters. -/
def powerOn (sectors : Byte) : Drive where
  file := ⟨0, false⟩
  readBytesLeft := 0
  speed := 4
  currentSector := 0
  sectorPos := 0
  sectorsLeft := 0
  blockSize := 0
  readBuffer := ⟨.plain, 0, none, none⟩
  ISTAT := 0
  driveStatus := STOPPED
  isSpinning := false
  activeNCommand := .NONE
  command := 0
  params k := if k = 4 then sectors else 0
  paramCount := 0
  NStatus := 0x40
  cdkey4 := 0
  mechaDecode := 0
  dmaRequest := false
  events := []
  interrupts := 0
  delivered := []

theorem delivers_one : ∃ d₀, (powerOn 1).sendNCommand image 0x06 = some d₀ ∧ Delivers image d₀ := by
  refine ⟨_, rfl, (delivers_iff (d := powerOn 1) (Or.inl rfl) rfl).mpr ⟨by decide, ⟨rfl, rfl⟩, ?_⟩⟩
  exact ⟨rfl, Or.inl rfl, by decide⟩

/-- The reading of no sectors. -/
theorem not_delivers_none : ∃ d d₀, Init d ∧ d.sendNCommand image 0x06 = some d₀ ∧
    d.param32 4 = 0 ∧ ¬ Delivers image d₀ := by
  refine ⟨powerOn 0, _, ⟨powerOn 0, rfl⟩, rfl, rfl, ?_⟩
  exact not_delivers_of_none (issued_sendNCommand (d := powerOn 0) (Or.inl rfl) rfl) ⟨rfl, rfl⟩ rfl

end DobieStation.Cdvd.Reading
