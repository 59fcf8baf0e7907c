import DobieStation.Cdvd.Model
import DobieStation.Iop.Arbiter

/-! # The sectors that the IOP reads from the drive

`process_CDVD` copies a block of the drive at a time, whatever has been programmed. What it writes is the range that the
channel has been programmed for if and only if that range is one block of the drive, or some of them and the
block size of the channel divides theirs. -/

namespace DobieStation.Iop.SectorWindow

open DobieStation.Lib.Hoare DobieStation.Iop.Model DobieStation.Iop.Arbiter
open DobieStation.Cdvd.Model (Drive Disc Byte)

theorem blockSize_handleNCommand (v : Disc) (d : Drive) : (d.handleNCommand v).blockSize = d.blockSize := by
  unfold Drive.handleNCommand
  cases d.activeNCommand with
  | READ =>
    dsimp only
    split_ifs
    · unfold Drive.readCDSector
      split_ifs <;> rfl
    · rfl
    · rfl
    · rfl
  | _ => rfl

theorem blockSize_readToRAM (d : Drive) : d.readToRAM.blockSize = d.blockSize := by
  unfold Drive.readToRAM
  dsimp only
  split_ifs <;> rfl

/-- The drive, the contents of its buffer, and how many bytes the channel has been given. The buffer has 4096 bytes, and
the commands set blocks of 2048, 2064, 2328 or 2340. -/
structure Feed where
  drive : Drive
  readBuffer : ℕ → Byte
  written : ℕ
  fits : drive.blockSize ≤ 4096

/-- `read_to_RAM`. The length that is asked for is not looked at. -/
def readToRAM (addr _bytes : Word) (ram : Ram) (f : Feed) : Reply Feed Word where
  value := BitVec.ofNat 32 f.drive.blockSize
  ram := fun x => if (x - addr).toNat < f.drive.blockSize then f.readBuffer (x - addr).toNat else ram x
  world :=
    { f with
      drive := f.drive.readToRAM
      written := f.written + f.drive.blockSize
      fits := (blockSize_readToRAM f.drive).trans_le f.fits }
  requests := [false]

def withDrive (P : Peripherals Feed) : Peripherals Feed := { P with cdvdReadToRAM := readToRAM }

/-- The event of the drive that brings the next sector into the buffer. -/
def arrive (v : Disc) (sector : ℕ → Byte) (s : Side Feed) : Side Feed :=
  { s with
    dma := s.dma.setDMARequest IOP_CDVD
    world :=
      { s.world with
        drive := s.world.drive.handleNCommand v
        readBuffer := sector
        fits := (blockSize_handleNCommand v s.world.drive).trans_le s.world.fits } }

variable (P : Peripherals Feed) (v : Disc)

/-- A sector and the call of the handler for it. -/
def pass (sector : ℕ → Byte) (s : Side Feed) : Option (Side Feed) :=
  ((processCDVD (withDrive P)).run (arrive v sector s)).map Prod.snd

def passes (sectors : ℕ → ℕ → Byte) : ℕ → Side Feed → Option (Side Feed)
  | 0, s => some s
  | n + 1, s => (passes sectors n s).bind (pass P v (sectors n))

/-- What a program writes to the registers of the channel. -/
def program (address block : Word) (s : Side Feed) : Side Feed :=
  { s with
    dma := s.dma.modifyChannel IOP_CDVD fun ch =>
      resize { ch with
        addr := address
        blockSize := block.setWidth 16
        wordCount := block >>> 16
        control := { ch.control with busy := true } } }

def Busy (s : Side Feed) : Prop := (s.dma.channels IOP_CDVD).control.busy = true

/-- The bytes of the blocks, one after the other. -/
def stream (B : ℕ) (sectors : ℕ → ℕ → Byte) (j : ℕ) : Byte := sectors (j / B) (j % B)

/-- The transfer ends, and has written the first `total` bytes of the sectors from the address on. -/
def Delivers (sectors : ℕ → ℕ → Byte) (address : Word) (total : ℕ) (s : Side Feed) : Prop :=
  ∃ n s', passes P v sectors n s = some s' ∧ ¬ Busy s' ∧
    (∀ k < n, ∀ s', passes P v sectors k s = some s' → Busy s') ∧
    s'.world.written = s.world.written + total ∧
    ∀ x, s'.ram x =
      if (x - address).toNat < total then stream s.world.drive.blockSize sectors (x - address).toNat else s.ram x

/-- The bytes of a block of the channel. -/
def blockBytes (block : Word) : ℕ := 4 * (block.toNat % 2 ^ 16)

def totalBytes (block : Word) : ℕ := block.toNat / 2 ^ 16 * blockBytes block

/-- The two sizes match. -/
def Matched (block : Word) (B : ℕ) : Prop :=
  totalBytes block = B ∨ 0 < totalBytes block ∧ blockBytes block ∣ B ∧ B ∣ totalBytes block

/-! ### One pass -/

variable {P v} {s s' : Side Feed} {sector : ℕ → Byte} {sectors : ℕ → ℕ → Byte}

/-- The registers of the channel. -/
def chan (s : Side Feed) : IOP_DMA_Channel := s.dma.channels IOP_CDVD

theorem chan_arrive : chan (arrive v sector s) = { chan s with dmaReq := true } := by
  show (s.dma.setDMARequest IOP_CDVD).channels IOP_CDVD = _
  rw [channels_setDMARequest, channels_modifyChannel, Function.update_self]
  rfl

/-- The state after the copy. -/
def copied (s : Side Feed) : Side Feed :=
  { s with
    dma := s.dma.clearDMARequest IOP_CDVD
    ram := (readToRAM (chan s).addr 0 s.ram s.world).ram
    world := (readToRAM (chan s).addr 0 s.ram s.world).world }

theorem chan_copied : chan (copied s) = { chan s with dmaReq := false } := by
  show (s.dma.clearDMARequest IOP_CDVD).channels IOP_CDVD = _
  rw [channels_clearDMARequest, channels_modifyChannel, Function.update_self]
  rfl

theorem run_processCDVD : (processCDVD (withDrive P)).run s =
    StateT.run (if byteCount (chan s) ≤ BitVec.ofNat 32 s.world.drive.blockSize then do
      transferEnd IOP_CDVD
      setChanBlock IOP_CDVD 0
    else modifyChannel IOP_CDVD fun ch =>
      { ch with
        addr := ch.addr + BitVec.ofNat 32 s.world.drive.blockSize
        wordCount := ch.wordCount - BitVec.ofNat 32 s.world.drive.blockSize / (ch.blockSize.setWidth 32 * 4) })
      (copied s) := rfl

/-- What a pass does. -/
structure Passed (sector : ℕ → Byte) (s s' : Side Feed) : Prop where
  size : s'.world.drive.blockSize = s.world.drive.blockSize
  written : s'.world.written = s.world.written + s.world.drive.blockSize
  ram : ∀ x, s'.ram x = if (x - (chan s).addr).toNat < s.world.drive.blockSize then sector (x - (chan s).addr).toNat
    else s.ram x
  ended : byteCount (chan s) ≤ BitVec.ofNat 32 s.world.drive.blockSize → ¬ Busy s'
  going : ¬ byteCount (chan s) ≤ BitVec.ofNat 32 s.world.drive.blockSize → chan s' = { chan s with
    dmaReq := false
    addr := (chan s).addr + BitVec.ofNat 32 s.world.drive.blockSize
    wordCount :=
      (chan s).wordCount - BitVec.ofNat 32 s.world.drive.blockSize / ((chan s).blockSize.setWidth 32 * 4) }

/-- The end of the transfer. -/
theorem ensures_finish (s : Side Feed) : Ensures (do transferEnd IOP_CDVD; setChanBlock IOP_CDVD 0) s
    fun _ s' => s'.ram = s.ram ∧ s'.world = s.world ∧ ¬ Busy s' := by
  unfold transferEnd setChanBlock modifyChannel modifyDMA flagInterrupt
  simp only [ensures_bind, ensures_modify]
  have hidle : ((s.dma.endTransfer IOP_CDVD).channels IOP_CDVD).control.busy = false := by
    rw [channels_endTransfer, channels_modifyChannel, Function.update_self]
    rfl
  have hbusy (d : IOP_DMA) (hd : d.channels = (s.dma.endTransfer IOP_CDVD).channels)
      (f : IOP_DMA_Channel → IOP_DMA_Channel) (hf : ∀ ch, (f ch).control = ch.control) :
      ((d.modifyChannel IOP_CDVD f).channels IOP_CDVD).control.busy ≠ true := by
    rw [channels_modifyChannel, Function.update_self, hf, hd, hidle]
    exact Bool.false_ne_true
  split_ifs
  · exact ⟨rfl, rfl, hbusy _ rfl _ fun _ => rfl⟩
  · exact ⟨rfl, rfl, hbusy _ rfl _ fun _ => rfl⟩

theorem ends_finish : Ends (do transferEnd IOP_CDVD; setChanBlock IOP_CDVD 0 : M Feed Unit) :=
  ends_bind (ends_bind (ends_modify _) fun _ => ends_modify _) fun _ => ends_modify _

theorem pass_passed (sector : ℕ → Byte) (s : Side Feed) : ∃ s', pass P v sector s = some s' ∧ Passed sector s s' := by
  have hsize : (arrive v sector s).world.drive.blockSize = s.world.drive.blockSize := blockSize_handleNCommand v _
  have hsize' : (copied (arrive v sector s)).world.drive.blockSize = s.world.drive.blockSize :=
    (blockSize_readToRAM _).trans hsize
  have hcount : byteCount (chan (arrive v sector s)) = byteCount (chan s) := by
    rw [chan_arrive]
    rfl
  have hwritten : (copied (arrive v sector s)).world.written = s.world.written + s.world.drive.blockSize :=
    congrArg (s.world.written + ·) hsize
  have hram : ∀ x, (copied (arrive v sector s)).ram x = if (x - (chan s).addr).toNat < s.world.drive.blockSize then
      sector (x - (chan s).addr).toNat else s.ram x := by
    intro x
    have haddr : (chan (arrive v sector s)).addr = (chan s).addr := by
      rw [chan_arrive]
    show (if (x - (chan (arrive v sector s)).addr).toNat < (arrive v sector s).world.drive.blockSize then
      sector (x - (chan (arrive v sector s)).addr).toNat else s.ram x) = _
    rw [haddr, hsize]
  unfold pass
  rw [run_processCDVD, hcount, hsize]
  by_cases hend : byteCount (chan s) ≤ BitVec.ofNat 32 s.world.drive.blockSize
  · obtain ⟨⟨_, s'⟩, hrun⟩ := ends_finish (copied (arrive v sector s))
    obtain ⟨hram', hworld, hbusy⟩ := ensures_finish (copied (arrive v sector s)) _ _ hrun
    rw [if_pos hend, hrun]
    refine ⟨s', rfl, ?_, ?_, ?_, fun _ => hbusy, fun hn => absurd hend hn⟩
    · rw [hworld, hsize']
    · rw [hworld, hwritten]
    · intro x
      rw [hram', hram]
  · rw [if_neg hend]
    refine ⟨_, rfl, hsize', hwritten, hram, fun he => absurd he hend, fun _ => ?_⟩
    have hchan : (copied (arrive v sector s)).dma.channels IOP_CDVD = { chan s with dmaReq := false } := by
      show chan (copied (arrive v sector s)) = _
      rw [chan_copied, chan_arrive]
    unfold chan
    rw [channels_modifyChannel, Function.update_self, hchan]
    rfl

/-! ### The count of the channel -/

/-- The bytes that the channel still counts after `k` passes. -/
def counted (wc w4 B k : ℕ) : ℕ := (wc - k * (B / w4)) * w4 % 2 ^ 32

variable {wc w4 B k n : ℕ}

theorem counted_of_dvd (hd : w4 ∣ B) (hT : wc * w4 < 2 ^ 32) : counted wc w4 B k = wc * w4 - k * B := by
  unfold counted
  rw [Nat.sub_mul, Nat.mul_assoc, Nat.div_mul_cancel hd]
  exact Nat.mod_eq_of_lt (by omega)

theorem total_lt (hw : wc < 2 ^ 16) (h4 : w4 ≤ 4096) : wc * w4 < 2 ^ 32 := by
  have hle : wc * w4 ≤ 2 ^ 16 * 4096 := Nat.mul_le_mul hw.le h4
  omega

/-- Where the count comes to an end after as many blocks as have been asked for. -/
theorem ends_iff (w4 : ℕ) (hw : wc < 2 ^ 16) (hB : B ≤ 4096) :
    (∃ n, (∀ k < n, B < counted wc w4 B k) ∧ counted wc w4 B n ≤ B ∧ (n + 1) * B = wc * w4) ↔
      wc * w4 = B ∨ 0 < wc * w4 ∧ w4 ∣ B ∧ B ∣ wc * w4 := by
  constructor
  · rintro ⟨n, hgoing, hend, htotal⟩
    rcases Nat.eq_zero_or_pos n with rfl | hn
    · left
      omega
    right
    have hfirst := hgoing 0 hn
    have hle : w4 ≤ B := by
      by_contra hlt
      unfold counted at hfirst hend
      rw [Nat.div_eq_of_lt (by omega), Nat.mul_zero] at hfirst hend
      omega
    have hpos : 0 < w4 := by
      rcases Nat.eq_zero_or_pos w4 with rfl | hpos
      · unfold counted at hfirst
        rw [Nat.mul_zero, Nat.zero_mod] at hfirst
        omega
      · exact hpos
    have hT := total_lt hw (hle.trans hB)
    have hcount : counted wc w4 B n = wc * w4 - n * (B / w4 * w4) := by
      unfold counted
      rw [Nat.sub_mul, Nat.mul_assoc]
      exact Nat.mod_eq_of_lt (by omega)
    have hB' : B ≤ B / w4 * w4 := by
      refine Nat.le_of_mul_le_mul_left ?_ hn
      rw [hcount, ← htotal, Nat.add_one_mul] at hend
      omega
    refine ⟨?_, ⟨B / w4, ?_⟩, ⟨n + 1, ?_⟩⟩
    · rw [← htotal]
      exact Nat.mul_pos (Nat.succ_pos n) (by omega)
    · rw [Nat.mul_comm]
      exact hB'.antisymm (Nat.div_mul_le_self B w4)
    · rw [← htotal, Nat.mul_comm]
  · rintro (htotal | ⟨hpos, hd, c, hc⟩)
    · refine ⟨0, fun k hk => absurd hk (Nat.not_lt_zero k), ?_, by omega⟩
      unfold counted
      rw [Nat.zero_mul, Nat.sub_zero, htotal]
      exact Nat.mod_le B _
    · have hB0 : 0 < B := Nat.pos_of_mul_pos_right (hc ▸ hpos)
      have hT := total_lt hw ((Nat.le_of_dvd hB0 hd).trans hB)
      obtain ⟨n, rfl⟩ : ∃ n, c = n + 1 := by
        refine Nat.exists_eq_succ_of_ne_zero ?_
        rintro rfl
        omega
      have hcount : ∀ k ≤ n, counted wc w4 B k = (n - k) * B + B := by
        intro k hk
        rw [counted_of_dvd hd hT, hc, Nat.mul_comm B, ← Nat.sub_mul, ← Nat.add_one_mul]
        congr 1
        omega
      refine ⟨n, fun k hk => ?_, ?_, by rw [hc, Nat.mul_comm]⟩
      · rw [hcount k hk.le]
        have hmore : 0 < (n - k) * B := Nat.mul_pos (by omega) hB0
        omega
      · rw [hcount n le_rfl, Nat.sub_self, Nat.zero_mul, Nat.zero_add]

/-! ### A transfer -/

variable {address block : Word} {s₀ : Side Feed}

/-- The number of blocks of the channel. -/
def blockCount (block : Word) : ℕ := block.toNat / 2 ^ 16

/-- After `n` passes. -/
def Copied (sectors : ℕ → ℕ → Byte) (address : Word) (s₀ : Side Feed) (n : ℕ) (s : Side Feed) : Prop :=
  n * s₀.world.drive.blockSize ≤ 2 ^ 32 → ∀ x, s.ram x =
    if (x - address).toNat < n * s₀.world.drive.blockSize then
      stream s₀.world.drive.blockSize sectors (x - address).toNat
    else s₀.ram x

/-- The transfer goes on. -/
structure Going (sectors : ℕ → ℕ → Byte) (address block : Word) (s₀ : Side Feed) (n : ℕ) (s : Side Feed) : Prop
    where
  copied : Copied sectors address s₀ n s
  busy : Busy s
  size : s.world.drive.blockSize = s₀.world.drive.blockSize
  addr : (chan s).addr = address + BitVec.ofNat 32 (n * s₀.world.drive.blockSize)
  blockSize : (chan s).blockSize = block.setWidth 16
  wordCount : (chan s).wordCount.toNat = blockCount block - n * (s₀.world.drive.blockSize / blockBytes block)

theorem toNat_blockSize : ((block.setWidth 16).setWidth 32 * 4 : Word).toNat = blockBytes block := by
  unfold blockBytes
  rw [BitVec.toNat_mul, BitVec.toNat_setWidth, BitVec.toNat_setWidth]
  show block.toNat % 2 ^ 16 % 2 ^ 32 * 4 % 2 ^ 32 = _
  omega

theorem toNat_byteCount {ch : IOP_DMA_Channel} (h : ch.blockSize = block.setWidth 16) :
    (byteCount ch).toNat = ch.wordCount.toNat * blockBytes block % 2 ^ 32 := by
  unfold byteCount
  rw [BitVec.mul_assoc, BitVec.toNat_mul, h, toNat_blockSize]

/-- The window of the next block. -/
theorem window_next {x : Word} {m B : ℕ} (h : m + B ≤ 2 ^ 32) :
    (x - (address + BitVec.ofNat 32 m)).toNat < B ↔ m ≤ (x - address).toNat ∧ (x - address).toNat < m + B := by
  simp only [BitVec.toNat_sub, BitVec.toNat_add, BitVec.toNat_ofNat]
  omega

theorem window_place {x : Word} {m : ℕ} (hm : m < 2 ^ 32) (h : m ≤ (x - address).toNat) :
    (x - (address + BitVec.ofNat 32 m)).toNat = (x - address).toNat - m := by
  simp only [BitVec.toNat_sub, BitVec.toNat_add, BitVec.toNat_ofNat] at h ⊢
  omega

theorem stream_place {B n j : ℕ} (h : n * B ≤ j) (h' : j < n * B + B) : stream B sectors j = sectors n (j - n * B) := by
  unfold stream
  have hdiv : j / B = n := Nat.div_eq_of_lt_le h (by rwa [Nat.add_one_mul])
  rw [hdiv, Nat.mod_eq_sub_div_mul, hdiv]

/-- **The step lemma.** -/
theorem Going.pass {n : ℕ} (h : Going sectors address block s₀ n s) :
    ∃ s', pass P v (sectors n) s = some s' ∧ Copied sectors address s₀ (n + 1) s' ∧
      (counted (blockCount block) (blockBytes block) s₀.world.drive.blockSize n ≤ s₀.world.drive.blockSize →
        ¬ Busy s') ∧
      (s₀.world.drive.blockSize < counted (blockCount block) (blockBytes block) s₀.world.drive.blockSize n →
        Going sectors address block s₀ (n + 1) s') := by
  have hB := s₀.world.fits
  obtain ⟨s', hpass, hp⟩ := pass_passed (P := P) (v := v) (sectors n) s
  have hcount : (byteCount (chan s)).toNat =
      counted (blockCount block) (blockBytes block) s₀.world.drive.blockSize n := by
    rw [toNat_byteCount h.blockSize, h.wordCount]
    rfl
  have hle : byteCount (chan s) ≤ BitVec.ofNat 32 s.world.drive.blockSize ↔
      counted (blockCount block) (blockBytes block) s₀.world.drive.blockSize n ≤ s₀.world.drive.blockSize := by
    rw [BitVec.le_def, hcount, h.size, BitVec.toNat_ofNat, Nat.mod_eq_of_lt (by omega)]
  have hcopied : Copied sectors address s₀ (n + 1) s' := by
    intro hlen x
    rw [Nat.add_one_mul] at hlen ⊢
    rw [hp.ram, h.size, h.addr]
    by_cases hnew : (x - (address + BitVec.ofNat 32 (n * s₀.world.drive.blockSize))).toNat < s₀.world.drive.blockSize
    · obtain ⟨hlo, hhi⟩ := (window_next hlen).mp hnew
      rw [if_pos hnew, if_pos hhi, stream_place hlo hhi, window_place (by omega) hlo]
    · rw [if_neg hnew, h.copied (by omega) x]
      rw [window_next hlen] at hnew
      by_cases hold : (x - address).toNat < n * s₀.world.drive.blockSize
      · rw [if_pos hold, if_pos (by omega)]
      · rw [if_neg hold, if_neg (by omega)]
  refine ⟨s', hpass, hcopied, fun hend => hp.ended (hle.mpr hend), fun hgo => ?_⟩
  have hgoing := hp.going (mt hle.mp (by omega))
  rw [h.size, h.blockSize, h.addr] at hgoing
  refine ⟨hcopied, ?_, hp.size.trans h.size, ?_, ?_, ?_⟩
  · show (chan s').control.busy = true
    rw [hgoing]
    exact h.busy
  · rw [hgoing]
    show address + BitVec.ofNat 32 _ + BitVec.ofNat 32 _ = _
    rw [BitVec.add_assoc, ← BitVec.ofNat_add, Nat.add_one_mul]
  · rw [hgoing]
    exact h.blockSize
  · have hquotient : (BitVec.ofNat 32 s₀.world.drive.blockSize / ((block.setWidth 16).setWidth 32 * 4)).toNat =
        s₀.world.drive.blockSize / blockBytes block := by
      rw [BitVec.toNat_udiv, toNat_blockSize, BitVec.toNat_ofNat, Nat.mod_eq_of_lt (by omega)]
    have hmore : s₀.world.drive.blockSize / blockBytes block < (chan s).wordCount.toNat := by
      refine Nat.lt_of_mul_lt_mul_right (a := blockBytes block) ?_
      calc s₀.world.drive.blockSize / blockBytes block * blockBytes block
          ≤ s₀.world.drive.blockSize := Nat.div_mul_le_self _ _
        _ < (chan s).wordCount.toNat * blockBytes block % 2 ^ 32 := by
          rw [h.wordCount]
          exact hgo
        _ ≤ (chan s).wordCount.toNat * blockBytes block := Nat.mod_le _ _
    rw [hgoing]
    show ((chan s).wordCount - BitVec.ofNat 32 s₀.world.drive.blockSize / _).toNat = _
    rw [BitVec.toNat_sub_of_le (by rw [BitVec.le_def, hquotient]; exact hmore.le), hquotient, h.wordCount,
      Nat.add_one_mul]
    omega

def quietSPU : SPU Feed where
  runningADMA _ := false
  writeADMA _ ram f := ⟨(), ram, f, []⟩
  writeDMA _ ram f := ⟨(), ram, f, []⟩
  readDMA ram f := ⟨0, ram, f, []⟩
  finishDMA ram f := ⟨(), ram, f, []⟩
  startDMA _ f := f
  pauseDMA f := f

def quiet : Peripherals Feed where
  cdvdReadToRAM := readToRAM
  spu := quietSPU
  spu2 := quietSPU
  sio2DmaReset ram f := ⟨(), ram, f, []⟩
  sio2WriteDma _ ram f := ⟨(), ram, f, []⟩
  sio2ReadSerial ram f := ⟨0, ram, f, []⟩

end DobieStation.Iop.SectorWindow
