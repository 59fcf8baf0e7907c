import Mathlib.Data.BitVec

/-! # The CDVD drive

The translation of `iop/cdvd/cdvd.cpp`: the N commands, the events that carry them on, and the buffer of
one sector that the IOP's DMA reads. The scheduler is the list of the delays asked for; the request line of
the DMA channel and what the channel has read are part of the state. A byte of the image is known by its
place, so the buffer is described by what it was filled with. -/

namespace DobieStation.Cdvd.Model

abbrev Byte := BitVec 8
abbrev Word := BitVec 32
abbrev DoubleWord := BitVec 64

def IOP_CLOCK : ℕ := 36864000
def PSX_CD_READSPEED : ℕ := 153600
def PSX_DVD_READSPEED : ℕ := 1382400

/-- `CDVD_STATUS`. -/
def STOPPED : Byte := 0x00
def SPINNING : Byte := 0x02
def READING : Byte := 0x06
def PAUSED : Byte := 0x0A
def SEEKING : Byte := 0x12

inductive NCommand where
  | NONE | SEEK | STANDBY | STOP | READ_SEEK | READ | BREAK
  deriving DecidableEq, Repr

/-! ### The image -/

inductive Container where
  | ISO
  | BIN_CUE
  deriving DecidableEq, Repr

/-- The image: its container, its size in bytes, the size of a logical block and the size of the volume from
the descriptor, and of the serial what `N_command_readkey` takes from it. -/
structure Disc where
  container : Container
  fileSize : ℕ
  LBA : ℕ
  volumeSize : DoubleWord
  letters : Word
  code : Word

/-- The bytes of a sector in the image. -/
def Container.sectorSize : Container → ℕ
  | .ISO => 2048
  | .BIN_CUE => 0x930

/-- The bytes that are taken from the image by a reading of `bytes`. -/
def Container.taken (bytes : ℕ) : Container → ℕ
  | .ISO => bytes
  | .BIN_CUE => 0x930

/-- The stream of the image: its position, and whether a reading went beyond the end. -/
structure Stream where
  position : ℕ
  failed : Bool
  deriving DecidableEq, Repr

/-- A stream that has failed does not move. -/
def Stream.seek (v : Disc) (sector : ℕ) (f : Stream) : Stream :=
  if f.failed then f else { f with position := sector * v.container.sectorSize }

/-- Where the bytes come from, where they are all there. -/
def Stream.read (v : Disc) (bytes : ℕ) (f : Stream) : Option ℕ × Stream :=
  if f.failed then (none, f)
  else if f.position + v.container.taken bytes ≤ v.fileSize then
    (some f.position, { f with position := f.position + v.container.taken bytes })
  else (none, { f with failed := true })

/-! ### The buffer -/

inductive Header where
  | plain
  | cdrom (minutes seconds fragments : Byte)
  | dvd (layer : Byte) (lsn : Word)
  | toc (start : Option Word)
  deriving DecidableEq, Repr

/-- A block: its header, how many bytes of the image it has and from where on, and the decoding that it went
through. -/
structure Block where
  header : Header
  bytes : ℕ
  data : Option ℕ
  cipher : Option (Byte × Byte)
  deriving DecidableEq, Repr

structure Drive where
  file : Stream
  readBytesLeft : ℤ
  speed : ℕ
  currentSector : DoubleWord
  sectorPos : DoubleWord
  sectorsLeft : DoubleWord
  blockSize : ℕ
  readBuffer : Block
  ISTAT : Byte
  driveStatus : Byte
  isSpinning : Bool
  activeNCommand : NCommand
  command : Byte
  params : ℕ → Byte
  paramCount : ℕ
  NStatus : Byte
  cdkey4 : Byte
  mechaDecode : Byte
  /-- The request line of the DMA channel. -/
  dmaRequest : Bool
  /-- The events that are scheduled for the drive. -/
  events : List ℕ
  /-- How often interrupt 2 was asserted. -/
  interrupts : ℕ
  /-- The blocks that were copied into the RAM, and how many bytes of each. -/
  delivered : List (Block × ℕ)

def Drive.addEvent (cycles : ℕ) (d : Drive) : Drive := { d with events := d.events ++ [cycles * 8] }

def Drive.assertIrq (d : Drive) : Drive := { d with interrupts := d.interrupts + 1 }

/-- `N_command != 0x06`. -/
def Drive.isDVD (d : Drive) : Bool := d.command ≠ 0x06

def Drive.getBlockTiming (d : Drive) : ℕ :=
  IOP_CLOCK * d.blockSize /
    (d.speed * if d.isDVD then PSX_DVD_READSPEED else PSX_CD_READSPEED) % 2 ^ 32

/-! ### The sectors -/

/-- Where the second layer begins. -/
def Disc.dualLayer (v : Disc) : Option DoubleWord :=
  if v.volumeSize.toNat < v.fileSize / v.LBA then some v.volumeSize else none

def itob (i : Word) : Byte := (i / 10 * 16 + i % 10).setWidth 8

/-- The header that `fill_CDROM_sector` writes. -/
def cdromHeader (sector : DoubleWord) : Header :=
  let readSector := sector + 150
  let minutes : Word := (readSector / 4500).setWidth 32
  let inMinute := readSector - (minutes * 4500).setWidth 64
  let seconds : Word := (inMinute / 75).setWidth 32
  let fragments : Word := (inMinute - (seconds * 75).setWidth 64).setWidth 32
  .cdrom (itob minutes) (itob seconds) (itob fragments)

/-- The header that `read_DVD_sector` writes, of whose `lsn` three bytes go into the buffer. -/
def Disc.dvdHeader (v : Disc) (sector : DoubleWord) : Header :=
  match v.dualLayer with
  | some start =>
    if start ≤ sector then .dvd 0x21 ((sector - start + 0x30000).setWidth 32 &&& 0xFFFFFF)
    else .dvd 0x20 ((sector + 0x30000).setWidth 32 &&& 0xFFFFFF)
  | none => .dvd 0x20 ((sector + 0x30000).setWidth 32 &&& 0xFFFFFF)

/-- `decrypt_mechacon_sector`. -/
def Drive.cipher (d : Drive) : Option (Byte × Byte) :=
  if d.mechaDecode ≠ 0 then some (d.mechaDecode, d.cdkey4) else none

/-- A sector is in the buffer: its header, `bytes` bytes of the image, and `left` bytes to be read. -/
def Drive.fill (v : Disc) (header : Header) (bytes left : ℕ) (d : Drive) : Drive :=
  { d with
    readBuffer :=
      { header := header
        bytes := bytes
        data := (d.file.read v bytes).1
        cipher := d.cipher }
    file := (d.file.read v bytes).2
    readBytesLeft := left
    currentSector := d.currentSector + 1
    sectorsLeft := d.sectorsLeft - 1
    dmaRequest := true }

def Drive.readCDSector (v : Disc) (d : Drive) : Drive :=
  if d.blockSize = 2340 then d.fill v (cdromHeader d.currentSector) 2048 d.blockSize
  else d.fill v .plain d.blockSize d.blockSize

def Drive.readDVDSector (v : Disc) (d : Drive) : Drive :=
  d.fill v (v.dvdHeader d.currentSector) 2048 2064

/-! ### The commands -/

/-- The place of a sector; a negative number counts from the end of the disc. -/
def Disc.seekTo (v : Disc) (sector : DoubleWord) : ℕ :=
  if (sector.setWidth 32).toInt < 0 then
    (BitVec.ofNat 32 (v.fileSize / v.LBA) + sector.setWidth 32).toNat
  else sector.toNat

/-- The distance to the sector that is looked for. -/
def Drive.delta (d : Drive) : ℕ :=
  ((d.currentSector.setWidth 32).toInt - (d.sectorPos.setWidth 32).toInt).natAbs

def Drive.cyclesToSeek (d : Drive) : ℕ :=
  if ¬ d.isSpinning then IOP_CLOCK / 3
  else if d.delta < (if d.isDVD then 16 else 8) then d.getBlockTiming * d.delta
  else if d.delta < (if d.isDVD then 14764 else 4371) then IOP_CLOCK * 30 / 1000
  else IOP_CLOCK * 100 / 1000

def Drive.startSeek (v : Disc) (d : Drive) : Drive :=
  ({ d with
      NStatus := 0x40
      driveStatus := if d.isSpinning ∧ d.delta = 0 then READING ||| SPINNING else SEEKING
      isSpinning := true
      file := d.file.seek v (v.seekTo d.sectorPos) } : Drive).addEvent d.cyclesToSeek

/-- A word of the parameters. -/
def Drive.param32 (i : ℕ) (d : Drive) : Word :=
  d.params (i + 3) ++ d.params (i + 2) ++ d.params (i + 1) ++ d.params i

/-- A reading begins with the seek. -/
def Drive.startRead (v : Disc) (blockSize speed : ℕ) (d : Drive) : Drive :=
  { ({ d with
        sectorPos := (d.param32 0).setWidth 64
        sectorsLeft := (d.param32 4).setWidth 64
        blockSize := blockSize
        speed := speed } : Drive).startSeek v with
    activeNCommand := .READ_SEEK }

/-- The size of a block of a CD. -/
def Drive.cdBlockSize (d : Drive) : ℕ :=
  if d.params 10 = 1 then 2328 else if d.params 10 = 2 then 2340 else 2048

def Drive.NCommandRead (v : Disc) (d : Drive) : Drive := d.startRead v d.cdBlockSize 24

def Drive.NCommandDvdread (v : Disc) (d : Drive) : Drive := d.startRead v 2064 4

def Drive.NCommandGettoc (v : Disc) (d : Drive) : Drive :=
  { d with
    sectorsLeft := 0
    blockSize := 2064
    readBytesLeft := 2064
    readBuffer :=
      { header := .toc (v.dualLayer.map fun start => (start + 0x30000 - 1).setWidth 32)
        bytes := 0
        data := none
        cipher := none }
    NStatus := 0x40
    driveStatus := READING
    dmaRequest := true }

/-- `N_command_readkey`, of whose key the decoding uses one byte. -/
def Drive.NCommandReadkey (v : Disc) (arg : Word) (d : Drive) : Drive :=
  ({ d with
      cdkey4 :=
        if arg = 4246 then 0
        else ((v.code &&& 0x1F) <<< 3 ||| (0x0E000000 &&& v.letters) >>> 25).setWidth 8
      ISTAT := d.ISTAT ||| 0x2 } : Drive).assertIrq

/-- The command, where there is one of this number. -/
def Drive.runNCommand (v : Disc) (d : Drive) : Option Drive :=
  match d.command with
  | 0x00 => some d.assertIrq
  | 0x01 => some d.assertIrq
  | 0x02 => some { ({ d with sectorPos := 0 } : Drive).startSeek v with activeNCommand := .STANDBY }
  | 0x03 => some { d.addEvent (IOP_CLOCK / 6) with activeNCommand := .STOP }
  | 0x04 => some { d.assertIrq with driveStatus := PAUSED }
  | 0x05 => some
      { ({ d with sectorPos := (d.param32 0).setWidth 64 } : Drive).startSeek v with
        activeNCommand := .SEEK }
  | 0x06 => some (d.NCommandRead v)
  | 0x08 => some (d.NCommandDvdread v)
  | 0x09 => some (d.NCommandGettoc v)
  | 0x0C => some (d.NCommandReadkey v (d.param32 3))
  | _ => none

def Drive.sendNCommand (v : Disc) (value : Byte) (d : Drive) : Option Drive :=
  (({ d with command := value } : Drive).runNCommand v).map fun d' => { d' with paramCount := 0 }

def Drive.writeNData (value : Byte) (d : Drive) : Option Drive :=
  if 10 < d.paramCount then none
  else some { d with
    params := fun k => if k = d.paramCount then value else d.params k
    paramCount := d.paramCount + 1 }

def Drive.writeBREAK (d : Drive) : Drive :=
  if d.activeNCommand = .NONE ∨ d.activeNCommand = .BREAK then d
  else { d.addEvent 64 with
    activeNCommand := .BREAK
    driveStatus := STOPPED
    readBytesLeft := 0 }

/-! ### The events and the buffer -/

/-- A command is over: the interrupt `flags` are raised. -/
def Drive.finish (status : Byte) (flags : Byte) (d : Drive) : Drive :=
  ({ d with
      driveStatus := PAUSED
      activeNCommand := .NONE
      NStatus := status
      ISTAT := d.ISTAT ||| flags } : Drive).assertIrq

def Drive.handleNCommand (v : Disc) (d : Drive) : Drive :=
  match d.activeNCommand with
  | .SEEK => ({ d with currentSector := d.sectorPos } : Drive).finish 0x4E 0x2
  | .STANDBY => d.finish 0x40 0x2
  | .STOP => ({ d with
      isSpinning := false
      driveStatus := STOPPED
      NStatus := 0x40
      ISTAT := d.ISTAT ||| 0x2 } : Drive).assertIrq
  | .READ =>
    if d.readBytesLeft = 0 then
      if d.command = 0x06 then d.readCDSector v
      else if d.command = 0x08 then d.readDVDSector v
      else d
    else d.addEvent 1000
  | .READ_SEEK => ({ d with
      driveStatus := READING ||| SPINNING
      activeNCommand := .READ
      currentSector := d.sectorPos } : Drive).addEvent d.getBlockTiming
  | .BREAK => d.finish 0x4E 0x2
  | .NONE => d

def Drive.readToRAM (d : Drive) : Drive :=
  let d' : Drive := { d with
    delivered := d.delivered ++ [(d.readBuffer, d.blockSize)]
    dmaRequest := false
    readBytesLeft := d.readBytesLeft - d.blockSize }
  if d'.readBytesLeft ≤ 0 then
    if d'.sectorsLeft = 0 then d'.finish 0x4E 0x3
    else ({ d' with activeNCommand := .READ } : Drive).addEvent d'.getBlockTiming
  else d'

/-! ### Runs -/

def Drive.reset (d : Drive) : Drive :=
  { d with
    speed := 4
    currentSector := 0
    driveStatus := STOPPED
    isSpinning := false
    activeNCommand := .NONE
    NStatus := 0x40
    paramCount := 0
    command := 0
    readBytesLeft := 0
    ISTAT := 0
    mechaDecode := 0 }

/-- The drive, the channel and the scheduler have been reset. -/
def Init (d : Drive) : Prop :=
  ∃ d' : Drive, d = ({ d' with dmaRequest := false, events := [] } : Drive).reset

inductive Act where
  | sendNCommand (value : Byte)
  | writeNData (value : Byte)
  | writeBREAK
  | writeISTAT (value : Byte)
  | writeMechaDecode (value : Byte)
  /-- The event at this place of the list is due. -/
  | event (i : ℕ)
  /-- The DMA channel reads the buffer. -/
  | readToRAM
  deriving DecidableEq, Repr

/-- A step: an event has to be scheduled, and the DMA reads the buffer on a request. -/
def next (v : Disc) (d : Drive) : Act → Option Drive
  | .sendNCommand value => d.sendNCommand v value
  | .writeNData value => d.writeNData value
  | .writeBREAK => some d.writeBREAK
  | .writeISTAT value => some { d with ISTAT := d.ISTAT &&& ~~~value }
  | .writeMechaDecode value => some { d with mechaDecode := value }
  | .event i =>
    if i < d.events.length then
      some (({ d with events := d.events.eraseIdx i } : Drive).handleNCommand v)
    else none
  | .readToRAM => if d.dmaRequest then some d.readToRAM else none

end DobieStation.Cdvd.Model
