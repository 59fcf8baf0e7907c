import DobieStation.Gs.Manager
import DobieStation.Lib.Reach
import Mathlib.Tactic.Basic

/-! # SIGNAL

A program in the GIF's data writes SIGNAL to tell the EE how far the GS has come. The EE reads the id,
acknowledges it and waits for the next. The registers have room for one SIGNAL that waits for an
acknowledgement and for another one behind it. The GIF holds its paths as long as that one waits. -/

namespace DobieStation.Gs.Signal

open DobieStation.Gs.Registers DobieStation.Gs.Manager DobieStation.Lib.Reach

/-! ### What is promised -/

inductive Event where
  | signal (value : BitVec 64)
  | csr64 (value : BitVec 64)
  | csr32 (value : BitVec 32)
  | imr64 (value : BitVec 64)
  | imr32 (value : BitVec 32)
  | readSIGLBLID
  deriving DecidableEq, Repr

/-- All SIGNALs so far, and what the EE is to see of them. -/
structure History where
  /-- `SIGLBLID.sig_id` before the first SIGNAL. -/
  first : BitVec 32
  written : List (BitVec 64)
  /-- How many are acknowledged. -/
  acked : ℕ
  /-- Those for which an interrupt was raised. -/
  raised : List ℕ
  signalMasked : Bool
  deriving DecidableEq, Repr

namespace History

variable (h : History)

/-- The id left by the SIGNALs that are visible: each becomes so by the acknowledgement of the one
before it. -/
def visible : BitVec 32 := (h.written.take (h.acked + 1)).foldl masked h.first

/-- A SIGNAL that finds all others acknowledged is raised at once, unless it is masked. -/
def signal (value : BitVec 64) : History :=
  { h with
    written := h.written ++ [value]
    raised := if h.acked = h.written.length ∧ !h.signalMasked then h.raised ++ [h.written.length]
      else h.raised }

def acknowledge (bit : Bool) : History :=
  { h with acked := if bit ∧ h.acked < h.written.length then h.acked + 1 else h.acked }

/-- The first unmasking raises the visible SIGNAL, if it is not raised yet. -/
def mask (bit : Bool) : History :=
  { h with
    signalMasked := bit
    raised := if h.signalMasked ∧ !bit ∧ h.acked < h.written.length ∧ h.acked ∉ h.raised then
      h.raised ++ [h.acked] else h.raised }

def note : Event → History
  | .signal value => h.signal value
  | .csr64 value => h.acknowledge (value.getLsbD 0)
  | .csr32 value => h.acknowledge (value.getLsbD 0)
  | .imr64 value => h.mask (value.getLsbD 8)
  | .imr32 value => h.mask (value.getLsbD 8)
  | .readSIGLBLID => h

end History

structure System where
  gs : GraphicsSynthesizer
  history : History
  deriving DecidableEq, Repr

def act (gs : GraphicsSynthesizer) : Event → Option GraphicsSynthesizer
  | .signal value => perform gs (.write64 0x60 value)
  | .csr64 value => perform gs (.write64Privileged 0x12001000 value)
  | .csr32 value => perform gs (.write32Privileged 0x12001000 value)
  | .imr64 value => perform gs (.write64Privileged 0x12001010 value)
  | .imr32 value => perform gs (.write32Privileged 0x12001010 value)
  | .readSIGLBLID => some gs

def step (s : System) (e : Event) : Option System :=
  (act s.gs e).map fun gs => { gs, history := s.history.note e }

def sigId (r : GSRegisters) : BitVec 32 := (r.read64Privileged 0x12001080).setWidth 32

structure Delivered (s : System) : Prop where
  visible : sigId s.gs.reg = s.history.visible
  irqs : s.gs.irqs = s.history.raised.length
  once : s.history.raised.Nodup

/-- No SIGNAL is outstanding. -/
structure Quiet (s : System) : Prop where
  generated : s.gs.reg.CSR.SIGNALGenerated = false
  stall : s.gs.reg.CSR.SIGNALStall = false
  irqPending : s.gs.reg.CSR.SIGNALIrqPending = false
  irqs : s.gs.irqs = 0
  history : s.history = ⟨s.gs.reg.SIGLBLID.sigId, [], 0, [], s.gs.reg.IMR.signal⟩

/-- The bit of CSR that resets the GS is not written. -/
def NoReset : Event → Prop
  | .csr64 value => value.getLsbD 9 = false
  | .csr32 value => value.getLsbD 9 = false
  | _ => True

/-- `path_active` holds the GIF while a SIGNAL is stalled, so none is written then. -/
def Held (s : System) : Event → Prop
  | .signal _ => s.gs.reg.CSR.SIGNALStall = false
  | _ => True

def Unreset (_ : System) (e : Event) : Prop := NoReset e

def Gated (s : System) (e : Event) : Prop := NoReset e ∧ Held s e

/-! ### The registers follow the history -/

structure Tracks (s : System) : Prop where
  room : s.history.acked ≤ s.history.written.length ∧
    s.history.written.length ≤ s.history.acked + 2
  masked : s.gs.reg.IMR.signal = s.history.signalMasked
  generated : s.gs.reg.CSR.SIGNALGenerated = decide (s.history.acked < s.history.written.length)
  stall : s.gs.reg.CSR.SIGNALStall = decide (s.history.acked + 1 < s.history.written.length)
  sigId : s.gs.reg.SIGLBLID.sigId = s.history.visible
  backup : s.gs.reg.CSR.SIGNALStall = true →
    s.gs.reg.SIGLBLID.backupSigId = s.history.written.foldl Registers.masked s.history.first
  pending : s.gs.reg.CSR.SIGNALIrqPending =
    decide (s.history.acked < s.history.written.length ∧ s.history.acked ∉ s.history.raised)
  irqs : s.gs.irqs = s.history.raised.length
  raised : ∀ i ∈ s.history.raised, i ≤ s.history.acked ∧ i < s.history.written.length
  once : s.history.raised.Nodup

variable {s : System}

theorem sigId_eq (r : GSRegisters) : sigId r = r.SIGLBLID.sigId := by
  change (r.SIGLBLID.sigId.setWidth 64 ||| (r.SIGLBLID.lblId.setWidth 64 <<< 32)).setWidth 32 = _
  ext i hi
  simp

theorem Tracks.delivered (h : Tracks s) : Delivered s :=
  ⟨(sigId_eq _).trans h.sigId, h.irqs, h.once⟩

theorem tracks_of_quiet (h : Quiet s) : Tracks s where
  room := by simp [h.history]
  masked := by simp [h.history]
  generated := by simp [h.history, h.generated]
  stall := by simp [h.history, h.stall]
  sigId := by simp [h.history, History.visible]
  backup := by simp [h.stall]
  pending := by simp [h.history, h.irqPending]
  irqs := by simp [h.history, h.irqs]
  raised := by simp [h.history]
  once := by simp [h.history]

/-! ### A SIGNAL is written -/

variable {gs : GraphicsSynthesizer} {value : BitVec 64}

theorem write64_first (hg : gs.reg.CSR.SIGNALGenerated = false)
    (hs : gs.reg.CSR.SIGNALStall = false) : gs.write64 0x60 value =
      { reg := { gs.reg with
          CSR := { gs.reg.CSR with
            SIGNALGenerated := true
            SIGNALIrqPending := gs.reg.IMR.signal || gs.reg.CSR.SIGNALIrqPending }
          SIGLBLID := { gs.reg.SIGLBLID with sigId := masked gs.reg.SIGLBLID.sigId value } }
        irqs := if gs.reg.IMR.signal then gs.irqs else gs.irqs + 1 } := by
  have hw : gs.reg.write64 0x60 value = some { gs.reg with
      CSR := { gs.reg.CSR with SIGNALGenerated := true }
      SIGLBLID := { gs.reg.SIGLBLID with sigId := masked gs.reg.SIGLBLID.sigId value } } := by
    change (if gs.reg.CSR.SIGNALGenerated then _ else _) = _
    rw [hg]
    rfl
  rw [GraphicsSynthesizer.write64, hw, if_pos rfl]
  cases hm : gs.reg.IMR.signal <;>
    simp [GraphicsSynthesizer.checkSIGNAL, GraphicsSynthesizer.withReg, GraphicsSynthesizer.assertIRQ,
      hs, hm]

theorem write64_second (hg : gs.reg.CSR.SIGNALGenerated = true) : gs.write64 0x60 value =
      { gs with reg := { gs.reg with
          CSR := { gs.reg.CSR with SIGNALStall := true }
          SIGLBLID := { gs.reg.SIGLBLID with
            backupSigId := masked gs.reg.SIGLBLID.sigId value } } } := by
  have hw : gs.reg.write64 0x60 value = some { gs.reg with
      CSR := { gs.reg.CSR with SIGNALStall := true }
      SIGLBLID := { gs.reg.SIGLBLID with backupSigId := masked gs.reg.SIGLBLID.sigId value } } := by
    change (if gs.reg.CSR.SIGNALGenerated then _ else _) = _
    rw [hg]
    rfl
  rw [GraphicsSynthesizer.write64, hw, if_pos rfl]
  simp [GraphicsSynthesizer.checkSIGNAL, GraphicsSynthesizer.withReg]

theorem foldl_append (l : List (BitVec 64)) (first : BitVec 32) :
    (l ++ [value]).foldl masked first = masked (l.foldl masked first) value := by
  rw [List.foldl_append]
  rfl

theorem visible_all {h : History} (hroom : h.written.length ≤ h.acked + 1) :
    h.visible = h.written.foldl masked h.first := by
  rw [History.visible, List.take_of_length_le hroom]

theorem visible_append {h : History} (room : h.acked < h.written.length) :
    (h.signal value).visible = h.visible := by
  simp only [History.visible, History.signal]
  rw [List.take_append_of_le_length (by omega)]

theorem Tracks.signal (h : Tracks s) (hheld : s.gs.reg.CSR.SIGNALStall = false) (value : BitVec 64) :
    Tracks ⟨s.gs.write64 0x60 value, s.history.signal value⟩ := by
  have hroom : s.history.written.length ≤ s.history.acked + 1 := by
    have := h.stall
    rw [hheld, eq_comm, decide_eq_false_iff_not] at this
    omega
  have hlen : (s.history.written ++ [value]).length = s.history.written.length + 1 := by simp
  by_cases hnew : s.history.acked = s.history.written.length
  · -- all others are acknowledged: it is visible at once
    have hg : s.gs.reg.CSR.SIGNALGenerated = false := by
      rw [h.generated, hnew]
      exact decide_eq_false (Nat.lt_irrefl _)
    have hfresh : s.history.acked ∉ s.history.raised := fun hi => by
      have := (h.raised _ hi).2
      omega
    rw [write64_first hg hheld]
    constructor
    case room => simp only [History.signal, hlen]; omega
    case masked => exact h.masked
    case generated => simp only [History.signal, hlen]; exact (decide_eq_true (by omega)).symm
    case stall =>
      simp only [History.signal, hlen]
      exact hheld.trans (decide_eq_false (by omega)).symm
    case sigId =>
      rw [visible_all (by simp only [History.signal, hlen]; omega)]
      simp only [History.signal, foldl_append]
      rw [h.sigId, visible_all hroom]
    case backup => exact fun hs => absurd (hheld.symm.trans hs) (by decide)
    case pending =>
      have hpending : s.gs.reg.CSR.SIGNALIrqPending = false := by
        rw [h.pending]
        exact decide_eq_false fun hp => by omega
      simp only [History.signal, hlen, hpending, Bool.or_false, h.masked]
      cases hm : s.history.signalMasked
      · simp [hnew]
      · simp [hnew ▸ hfresh, hnew]
    case irqs =>
      simp only [History.signal, h.masked, h.irqs]
      cases hm : s.history.signalMasked <;> simp [hnew]
    case raised =>
      intro i hi
      simp only [History.signal, hlen] at hi ⊢
      split_ifs at hi
      · rcases List.mem_append.mp hi with hi | hi
        · have := h.raised i hi
          omega
        · have := List.mem_singleton.mp hi
          omega
      · have := h.raised i hi
        omega
    case once =>
      simp only [History.signal]
      split_ifs
      · refine List.nodup_append.mpr ⟨h.once, List.nodup_singleton _, ?_⟩
        rintro i hi j hj rfl
        exact hfresh ((List.mem_singleton.mp hj).trans hnew.symm ▸ hi)
      · exact h.once
  · -- one waits for its acknowledgement: this one is stalled
    have hlt : s.history.acked < s.history.written.length := by
      have := h.room.1
      omega
    have hg : s.gs.reg.CSR.SIGNALGenerated = true := by
      rw [h.generated]
      exact decide_eq_true hlt
    have hraised : (s.history.signal value).raised = s.history.raised :=
      if_neg fun hp => hnew hp.1
    rw [write64_second hg]
    constructor
    case room => simp only [History.signal, hlen]; omega
    case masked => exact h.masked
    case generated =>
      simp only [History.signal, hlen]
      exact hg.trans (decide_eq_true (by omega)).symm
    case stall => simp only [History.signal, hlen]; exact (decide_eq_true (by omega)).symm
    case sigId => exact h.sigId.trans (visible_append hlt).symm
    case backup =>
      intro _
      simp only [History.signal, foldl_append]
      rw [h.sigId, visible_all hroom]
    case pending =>
      simp only [hraised]
      simp only [History.signal, hlen]
      rw [h.pending, decide_eq_decide]
      exact and_congr_left fun _ => iff_of_true hlt (by omega)
    case irqs => simp only [hraised, h.irqs]
    case raised =>
      intro i hi
      simp only [hraised] at hi
      have := h.raised i hi
      simp only [History.signal, hlen]
      omega
    case once => simp only [hraised, h.once]

/-! ### A SIGNAL is acknowledged -/

/-- The registers agree in what concerns SIGNAL. -/
structure SameSignal (r r' : GSRegisters) : Prop where
  masked : r'.IMR.signal = r.IMR.signal
  generated : r'.CSR.SIGNALGenerated = r.CSR.SIGNALGenerated
  stall : r'.CSR.SIGNALStall = r.CSR.SIGNALStall
  pending : r'.CSR.SIGNALIrqPending = r.CSR.SIGNALIrqPending
  sigId : r'.SIGLBLID.sigId = r.SIGLBLID.sigId
  backup : r'.SIGLBLID.backupSigId = r.SIGLBLID.backupSigId

theorem Tracks.same {r : GSRegisters} (h : Tracks s) (hr : SameSignal s.gs.reg r) :
    Tracks ⟨s.gs.withReg r, s.history⟩ where
  room := h.room
  masked := hr.masked.trans h.masked
  generated := hr.generated.trans h.generated
  stall := hr.stall.trans h.stall
  sigId := hr.sigId.trans h.sigId
  backup hs := hr.backup.trans (h.backup (hr.stall.symm.trans hs))
  pending := hr.pending.trans h.pending
  irqs := h.irqs
  raised := h.raised
  once := h.once

theorem Tracks.acknowledgeSIGNAL (h : Tracks s) :
    Tracks ⟨s.gs.withReg s.gs.reg.acknowledgeSIGNAL, s.history.acknowledge true⟩ := by
  have hroom := h.room
  by_cases hstall : s.gs.reg.CSR.SIGNALStall = true
  · -- the next SIGNAL takes its place
    have hnext : s.history.acked + 1 < s.history.written.length :=
      of_decide_eq_true (h.stall.symm.trans hstall)
    have hacked : (s.history.acknowledge true).acked = s.history.acked + 1 :=
      if_pos ⟨rfl, by omega⟩
    rw [GSRegisters.acknowledgeSIGNAL, if_pos hstall]
    constructor
    case room => rw [hacked]; simp only [History.acknowledge]; omega
    case masked => exact h.masked
    case generated => rw [hacked]; exact (decide_eq_true hnext).symm
    case stall =>
      rw [hacked]
      refine (decide_eq_false ?_).symm
      simp only [History.acknowledge]
      omega
    case sigId =>
      rw [visible_all (by rw [hacked]; simp only [History.acknowledge]; omega)]
      exact h.backup hstall
    case backup => exact fun hs => absurd hs (by simp [GraphicsSynthesizer.withReg])
    case pending =>
      rw [hacked]
      refine (decide_eq_true ⟨hnext, fun hi => ?_⟩).symm
      have := (h.raised _ hi).1
      omega
    case irqs => exact h.irqs
    case raised =>
      intro i hi
      have := h.raised i hi
      rw [hacked]
      exact ⟨by omega, this.2⟩
    case once => exact h.once
  · -- none is left
    rw [Bool.not_eq_true] at hstall
    have hlast : s.history.written.length ≤ s.history.acked + 1 := by
      have := h.stall
      rw [hstall, eq_comm, decide_eq_false_iff_not] at this
      omega
    have hacked : (s.history.acknowledge true).acked = s.history.written.length := by
      simp only [History.acknowledge, true_and]
      split_ifs <;> omega
    rw [GSRegisters.acknowledgeSIGNAL, if_neg (by simp [hstall])]
    constructor
    case room => rw [hacked]; simp only [History.acknowledge]; omega
    case masked => exact h.masked
    case generated => rw [hacked]; exact (decide_eq_false (Nat.lt_irrefl _)).symm
    case stall =>
      rw [hacked]
      exact hstall.trans (decide_eq_false (by simp [History.acknowledge])).symm
    case sigId =>
      rw [visible_all (by rw [hacked]; simp [History.acknowledge])]
      exact h.sigId.trans (visible_all hlast)
    case backup => exact fun hs => absurd (hstall.symm.trans hs) (by decide)
    case pending =>
      rw [hacked]
      exact (decide_eq_false fun hp => Nat.lt_irrefl _ hp.1).symm
    case irqs => exact h.irqs
    case raised =>
      intro i hi
      have := h.raised i hi
      rw [hacked]
      exact ⟨by omega, this.2⟩
    case once => exact h.once

theorem Tracks.writeCSR {w : ℕ} {v : BitVec w} (h : Tracks s) (hv : v.getLsbD 9 = false) :
    Tracks ⟨s.gs.withReg (s.gs.reg.writeCSR v), s.history.acknowledge (v.getLsbD 0)⟩ := by
  rw [GSRegisters.writeCSR, if_neg (by simp [hv])]
  cases hbit : v.getLsbD 0 with
  | true => exact h.acknowledgeSIGNAL.same ⟨rfl, rfl, rfl, rfl, rfl, rfl⟩
  | false =>
    have hsame : s.history.acknowledge false = s.history := by simp [History.acknowledge]
    rw [hsame]
    exact h.same ⟨rfl, rfl, rfl, rfl, rfl, rfl⟩

/-! ### The mask is written -/

theorem checkIMR_raised {old : Bool}
    (h : (old && !gs.reg.IMR.signal && gs.reg.CSR.SIGNALIrqPending) = true) : gs.checkIMR old =
      (gs.withReg { gs.reg with CSR := { gs.reg.CSR with SIGNALIrqPending := false } }).assertIRQ :=
  if_pos h

theorem checkIMR_quiet {old : Bool}
    (h : ¬ (old && !gs.reg.IMR.signal && gs.reg.CSR.SIGNALIrqPending) = true) :
    gs.checkIMR old = gs :=
  if_neg h

theorem Tracks.writeIMR {imr : IMR} (h : Tracks s) :
    Tracks ⟨(s.gs.withReg { s.gs.reg with IMR := imr }).checkIMR s.gs.reg.IMR.signal,
      s.history.mask imr.signal⟩ := by
  have hcheck : (s.gs.reg.IMR.signal && !imr.signal && s.gs.reg.CSR.SIGNALIrqPending) = true ↔
      s.history.signalMasked ∧ !imr.signal ∧ s.history.acked < s.history.written.length ∧
        s.history.acked ∉ s.history.raised := by
    rw [h.masked, h.pending, Bool.and_eq_true, Bool.and_eq_true, decide_eq_true_iff, and_assoc]
  by_cases hraise : s.history.signalMasked ∧ !imr.signal ∧
      s.history.acked < s.history.written.length ∧ s.history.acked ∉ s.history.raised
  · have hraised : (s.history.mask imr.signal).raised = s.history.raised ++ [s.history.acked] :=
      if_pos hraise
    have hgs : (s.gs.withReg { s.gs.reg with IMR := imr }).checkIMR s.gs.reg.IMR.signal = _ :=
      checkIMR_raised (hcheck.mpr hraise)
    rw [hgs]
    constructor
    case room => exact h.room
    case masked => rfl
    case generated => exact h.generated
    case stall => exact h.stall
    case sigId => exact h.sigId
    case backup => exact h.backup
    case pending =>
      rw [hraised]
      exact (decide_eq_false fun hp => hp.2 (by simp [History.mask])).symm
    case irqs =>
      rw [hraised, List.length_append]
      exact congrArg (· + 1) h.irqs
    case raised =>
      intro i hi
      rw [hraised] at hi
      rcases List.mem_append.mp hi with hi | hi
      · exact h.raised i hi
      · rw [List.mem_singleton.mp hi]
        exact ⟨Nat.le_refl _, hraise.2.2.1⟩
    case once =>
      rw [hraised]
      refine List.nodup_append.mpr ⟨h.once, List.nodup_singleton _, ?_⟩
      rintro i hi j hj rfl
      exact hraise.2.2.2 (List.mem_singleton.mp hj ▸ hi)
  · have hraised : (s.history.mask imr.signal).raised = s.history.raised := if_neg hraise
    have hgs : (s.gs.withReg { s.gs.reg with IMR := imr }).checkIMR s.gs.reg.IMR.signal = _ :=
      checkIMR_quiet (mt hcheck.mp hraise)
    rw [hgs]
    constructor
    case room => exact h.room
    case masked => rfl
    case generated => exact h.generated
    case stall => exact h.stall
    case sigId => exact h.sigId
    case backup => exact h.backup
    case pending => rw [hraised]; exact h.pending
    case irqs => rw [hraised]; exact h.irqs
    case raised => rw [hraised]; exact h.raised
    case once => rw [hraised]; exact h.once

/-! ### Runs -/

theorem checkIMR_same (old : Bool) (h : gs.reg.IMR.signal = old) : gs.checkIMR old = gs := by
  refine checkIMR_quiet ?_
  rw [h]
  cases old <;> simp

theorem writeCSR_masked {w : ℕ} {v : BitVec w} {r : GSRegisters} (hv : v.getLsbD 9 = false) :
    (r.writeCSR v).IMR.signal = r.IMR.signal := by
  rw [GSRegisters.writeCSR, if_neg (by simp [hv])]
  change (if v.getLsbD 0 then r.acknowledgeSIGNAL else r).IMR.signal = r.IMR.signal
  split_ifs
  · rw [GSRegisters.acknowledgeSIGNAL]
    split_ifs <;> rfl
  · rfl

/-- What the events do. No event but a reset ends the emulation. -/
theorem act_csr64 {v : BitVec 64} (hv : v.getLsbD 9 = false) :
    act gs (.csr64 v) = some (gs.withReg (gs.reg.writeCSR v)) :=
  congrArg some (checkIMR_same _ (writeCSR_masked hv))

theorem act_csr32 {v : BitVec 32} (hv : v.getLsbD 9 = false) :
    act gs (.csr32 v) = some (gs.withReg (gs.reg.writeCSR v)) :=
  congrArg some (checkIMR_same _ (writeCSR_masked hv))

theorem step_tracks (h : Tracks s) {e : Event} (hok : Gated s e) :
    ∃ s', step s e = some s' ∧ Tracks s' := by
  cases e with
  | signal value => exact ⟨_, rfl, h.signal hok.2 value⟩
  | csr64 value =>
    rw [step, act_csr64 hok.1]
    exact ⟨_, rfl, h.writeCSR hok.1⟩
  | csr32 value =>
    rw [step, act_csr32 hok.1]
    exact ⟨_, rfl, h.writeCSR hok.1⟩
  | imr64 value => exact ⟨_, rfl, h.writeIMR⟩
  | imr32 value => exact ⟨_, rfl, h.writeIMR⟩
  | readSIGLBLID => exact ⟨_, rfl, h⟩

/-- In every run in which the GIF is held while a SIGNAL is stalled, the SIGNALs are delivered, and
the run can go on. -/
theorem delivered_of_gated (h : Reaches Quiet (Only Gated fun s e s' => step s e = some s') s) :
    Delivered s ∧ ∀ e, Gated s e → (step s e).isSome := by
  have htracks : Tracks s := by
    refine h.invariant (fun _ h => tracks_of_quiet h) ?_
    rintro s e s' hs ⟨hok, hstep⟩
    obtain ⟨s'', hstep', hs'⟩ := step_tracks hs hok
    cases hstep.symm.trans hstep'
    exact hs'
  refine ⟨htracks.delivered, fun e he => ?_⟩
  obtain ⟨s', hs', -⟩ := step_tracks htracks he
  exact hs' ▸ rfl

/-! ### From reset -/

def afterReset : System where
  gs := { reg := zeroed.reset false, irqs := 0 }
  history := { first := 0, written := [], acked := 0, raised := [], signalMasked := true }

theorem quiet_afterReset : Quiet afterReset := ⟨rfl, rfl, rfl, rfl, rfl⟩

/-- A SIGNAL that is acknowledged. -/
theorem delivered_acknowledged : ∃ s,
    [Event.signal 0x100000001, Event.csr64 1].foldlM step afterReset = some s ∧ Delivered s := by
  obtain ⟨s₁, h₁⟩ := Option.isSome_iff_exists.mp
    (show (step afterReset (.signal 0x100000001)).isSome by decide)
  have hheld : Gated afterReset (.signal 0x100000001) := ⟨trivial, rfl⟩
  have hfirst : Reaches Quiet (Only Gated fun s e s' => step s e = some s') s₁ :=
    (Reaches.start quiet_afterReset).next ⟨hheld, h₁⟩
  have hgated : Gated s₁ (.csr64 1) := ⟨rfl, trivial⟩
  obtain ⟨s₂, h₂⟩ := Option.isSome_iff_exists.mp ((delivered_of_gated hfirst).2 _ hgated)
  refine ⟨s₂, ?_, (delivered_of_gated (hfirst.next ⟨hgated, h₂⟩)).1⟩
  rw [List.foldlM_cons, h₁, Option.bind_eq_bind, Option.bind_some, List.foldlM_cons, h₂]
  rfl

/-- Of three SIGNALs before the first acknowledgement, the second is lost. -/
theorem not_delivered :
    ¬ ∀ s, Reaches Quiet (Only Unreset fun s e s' => step s e = some s') s → Delivered s := by
  intro h
  have hrun : ([Event.signal 0x100000001, .signal 0x200000002, .signal 0x400000004, .csr64 1,
      .csr32 1].foldlM step afterReset).map (fun s => (sigId s.gs.reg, s.history.visible)) =
      some (5, 7) := by decide
  obtain ⟨s, hs, heq⟩ := Option.map_eq_some_iff.mp hrun
  have hreach : Reaches Quiet (Only Unreset fun s e s' => step s e = some s') s := by
    refine (Reaches.start quiet_afterReset).exec_only (fun e he s => ?_) hs
    revert e
    simp [Unreset, NoReset]
  have hvisible := (h s hreach).visible
  rw [(Prod.mk.inj heq).1, (Prod.mk.inj heq).2] at hvisible
  exact absurd hvisible (by decide)

end DobieStation.Gs.Signal
