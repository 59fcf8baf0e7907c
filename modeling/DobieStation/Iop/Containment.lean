import DobieStation.Iop.Serial

/-! # What the console reaches of a memory card

The accesses of the response buffer are in range in every run. Those of the image are where the address
that the last sector command has left, advanced by the reads and the writes since, is below the end of the
image by as much as the next command takes. -/

namespace DobieStation.Iop.Containment

open DobieStation.Lib.Fault DobieStation.Lib.Reach DobieStation.Iop.Serial

/-- What decides the accesses. -/
structure View where
  length : ℤ
  params : ℕ
  cmd : Byte
  addr : Word
  size : Byte
  written : ℕ

def view (c : Memcard) : View :=
  ⟨c.cmdLength, c.cmdParams, c.cmd, c.memAddr, c.memWriteSize, c.responseWritePos⟩

/-- The accesses of the image that a later byte of a transfer leads to are in range: those of a read
when its length comes, and that of each byte to be written. -/
def InTransfer (c : Memcard) (data : Byte) : Prop :=
  (c.cmd = 0x43 → c.cmdParams = 0 → data = 0 ∨ c.memAddr.toNat + data.toNat ≤ imageSize) ∧
  (c.cmd = 0x42 → c.cmdParams ≠ 0 → c.cmdParams ≤ c.memWriteSize.toNat →
    c.memAddr.toNat < imageSize)

/-- The accesses of the image that a byte leads to are in range. -/
def InImage (c : Memcard) (data : Byte) : Prop :=
  (c.cmdLength = 0 → data = 0x82 → c.memAddr.toNat + eraseSize ≤ imageSize) ∧
  (c.cmdLength ≠ 0 → InTransfer c data)

/-- A death is harmless, no access of the response buffer is out of range, and one of the image only
if a condition fails. -/
def Fault (p : Prop) : Stop → Prop
  | .died _ => p
  | .image _ => ¬ p
  | .response _ => False

theorem Fault.congr {p q : Prop} {e : Stop} (h : Fault p e) (hpq : p ↔ q) : Fault q e := by
  rwa [← propext hpq]

/-- The state of a card between two bytes. -/
structure Ready (v : View) : Prop where
  length : v.length = 0 ∨ 2 ≤ v.length ∧ v.length ≤ 132
  written : v.written < bufferSize
  fresh : v.length = 0 → v.written = 0 ∧ v.params = 0
  header : v.length ≠ 0 → v.cmd = 0x43 → v.params = 0 → v.written = 2

section

variable {α : Type} {c : Memcard} {p : Prop} {Q : α → Memcard → Prop} {E : Stop → Prop}

/-! ### Accesses in range -/

/-- `n` bytes of the answer have been written since. -/
def After (v : View) (n : ℕ) (c : Memcard) : Prop := view c = { v with written := v.written + n }

end

/-! ### Through SIO2 -/

variable {P : Type} {G : Gamepad P}

theorem meets_onCard {α : Type} {m : M α} {s : SIO2 P} {Q : α → SIO2 P → Prop} {E : Stop → Prop}
    (h : Meets m s.memcard (fun a c => Q a { s with memcard := c }) E) :
    Meets (onCard m : S P α) s Q E := by
  rcases hm : m.run s.memcard with e | ⟨a, c⟩
  · have hr : (onCard m : S P α).run s = .error e := by
      show onCard m s = _
      unfold onCard
      rw [hm]
    exact (meets_of_error hr).mpr ((meets_of_error hm).mp h)
  · have hr : (onCard m : S P α).run s = .ok (a, { s with memcard := c }) := by
      show onCard m s = _
      unfold onCard
      rw [hm]
    exact (meets_of_ok hr).mpr ((meets_of_ok hm).mp h)

/-- A byte goes to `Memcard::write_serial`. -/
def ReachesCard (s : SIO2 P) (value : Byte) : Prop :=
  s.commandLength ≠ 0 ∧ choose value s.activeCommand = .MEMCARD ∧ s.port = false ∧
    s.memcard.fileOpened = true ∧ s.newCommand = false

/-- The accesses of the image that a step leads to are in range. -/
def Within (s : SIO2 P) : Act → Prop
  | .writeSerial value beyond =>
    ReachesCard (fetchCommand beyond s) value → InImage s.memcard value
  | .writeDma value beyond =>
    ¬ (s.commandLength = 0 ∧ s.dmaBytesReceived % 0x90 ≠ 0) →
      ReachesCard (fetchCommand beyond s) value → InImage s.memcard value
  | _ => True

/-- Where no device has been chosen no command is going on, and the card has begun a transfer when it is
sent a byte. -/
structure Begun (s : SIO2 P) : Prop where
  none : s.activeCommand = .NONE → s.commandLength = 0
  card : s.activeCommand = .MEMCARD → s.newCommand = false → Ready (view s.memcard)

/-- A card is in the slot; nothing else of it has been set. -/
def powerOn : SIO2 Unit where
  send3 _ := 0
  RECV1 := 0x1D100
  port := false
  dmaBytesReceived := 0
  FIFO := []
  control := 0
  newCommand := false
  activeCommand := .NONE
  commandLength := 0
  send3Port := 0
  pad := ()
  memcard := {
    specs := ⟨0x200, 16, 0x4000⟩
    mem := fun _ => 0
    cmdLength := 0
    cmdParams := 0
    cmd := 0
    terminator := 0x55
    fileOpened := true
    isDirty := false
    responseBuffer := fun _ => 0
    responseReadPos := 0
    responseWritePos := 0
    responseSize := 0
    memAddr := 0
    memWriteSize := 0
    authF0DoXor := false
    authF0Checksum := 0 }

theorem init_powerOn : Init powerOn := ⟨powerOn, rfl⟩

end DobieStation.Iop.Containment
