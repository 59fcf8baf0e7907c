import DobieStation.Lib.Stepwise
import DobieStation.Lib.Fault
import Mathlib.Data.BitVec
import Mathlib.Tactic.SplitIfs

/-! # The pad

The translation of `iop/gamepad.cpp`. An access outside of the command buffer, of the rumble values or of a
reply template stops the program with a fault, and `Errors::die` does too. A template has seven bytes, and
`set_result` copies as many as a pointer has.

`Link` counts the bytes of a transfer beside the pad. A run keeps the bytes within the length of its command
(`Good`) if and only if it never takes one of the branches that leave it (`Fine`). -/

namespace DobieStation.Iop.Gamepad

open DobieStation.Lib.Stepwise DobieStation.Lib.Fault

abbrev Byte := BitVec 8

inductive Stop where
  | died (value : Byte)
  | commandBuffer (index : ℕ)
  | rumbleValues (index : ℕ)
  | template (index : ℕ)
  deriving DecidableEq, Repr

inductive PAD_BUTTON where
  | SELECT | L3 | R3 | START | UP | RIGHT | DOWN | LEFT | L2 | R2 | L1 | R1 | TRIANGLE | CIRCLE | CROSS | SQUARE
  deriving DecidableEq, Repr

inductive JOYSTICK where
  | RIGHT
  | LEFT
  deriving DecidableEq, Repr

inductive JOYSTICK_AXIS where
  | X
  | Y
  deriving DecidableEq, Repr

inductive PAD_MODE where
  | DIGITAL
  | ANALOG
  | DS2_NATIVE
  deriving DecidableEq, Repr

def PAD_MODE.value : PAD_MODE → Byte
  | .DIGITAL => 0x41
  | .ANALOG => 0x73
  | .DS2_NATIVE => 0x79

/-- The members of `Gamepad`, with the static `mask_mode`. -/
structure Pad where
  commandBuffer : ℕ → Byte
  rumbleValues : ℕ → Byte
  modeLock : Byte
  buttons : BitVec 16
  joysticks : JOYSTICK → JOYSTICK_AXIS → Byte
  buttonPressure : PAD_BUTTON → Byte
  command : Byte
  commandLength : ℕ
  dataCount : ℕ
  mask : ℕ → Byte
  maskMode : ℕ → Byte
  padMode : PAD_MODE
  configMode : Bool

abbrev M := StateT Pad (Except Stop)

/-! ### The reply templates -/

def vrefParam : List Byte := [0x5A, 0x00, 0x00, 0x02, 0x00, 0x00, 0x5A]
def configExit : List Byte := [0x5A, 0x00, 0x00, 0x00, 0x00, 0x00, 0x00]
def setMode : List Byte := [0x5A, 0x00, 0x00, 0x00, 0x00, 0x00, 0x00]
def queryModelDS2 : List Byte := [0x5A, 0x03, 0x02, 0x00, 0x02, 0x01, 0x00]
def queryAct0 : List Byte := [0x5A, 0x00, 0x00, 0x01, 0x02, 0x00, 0x0A]
def queryAct1 : List Byte := [0x5A, 0x00, 0x00, 0x01, 0x01, 0x01, 0x14]
def queryComb : List Byte := [0x5A, 0x00, 0x00, 0x02, 0x00, 0x01, 0x00]
def queryMode : List Byte := [0x5A, 0x00, 0x00, 0x00, 0x00, 0x00, 0x00]
def nativeMode : List Byte := [0x5A, 0x00, 0x00, 0x00, 0x00, 0x00, 0x5A]

/-! ### The buffers -/

def loadCommand (index : ℕ) : M Byte := do
  let p ← get
  if index < 25 then pure (p.commandBuffer index) else throw (.commandBuffer index)

def storeCommand (index : ℕ) (value : Byte) : M PUnit :=
  if index < 25 then
    modify fun p => { p with commandBuffer := fun k => if k = index then value else p.commandBuffer k }
  else throw (.commandBuffer index)

def storeRumble (index : ℕ) (value : Byte) : M PUnit :=
  if index < 8 then
    modify fun p => { p with rumbleValues := fun k => if k = index then value else p.rumbleValues k }
  else throw (.rumbleValues index)

def loadTemplate (result : List Byte) (index : ℕ) : M Byte :=
  match result[index]? with
  | some value => pure value
  | none => throw (.template index)

/-- `sizeof(result)`, where `result` is a pointer. -/
def pointerSize : ℕ := 8

def copyTemplate (result : List Byte) (i : ℕ) : M PUnit := do
  let value ← loadTemplate result i
  storeCommand (i + 2) value

def setResult (result : List Byte) : M PUnit := do
  upTo (copyTemplate result) pointerSize 0
  modify fun p => { p with commandLength := pointerSize + 2 }

def vibrateReset (k : ℕ) : Byte := if k = 0 then 0x5A else 0xFF

def resetVibrate : M PUnit := modify fun p => { p with rumbleValues := vibrateReset }

def reset (p : Pad) : Pad :=
  { p with
    commandBuffer := fun k => if k = 0 then 0xFF else p.commandBuffer k
    configMode := false
    buttons := 0xFFFF
    joysticks := fun _ _ => 0x80
    commandLength := 0
    padMode := .DIGITAL
    command := 0
    dataCount := 0
    mask := fun _ => 0xFF
    modeLock := 0
    rumbleValues := vibrateReset }

/-! ### The user -/

def pressButton (button : PAD_BUTTON) (p : Pad) : Pad :=
  { p with
    buttons := p.buttons &&& ~~~(1#16 <<< button.ctorIdx)
    buttonPressure := fun b => if b = button then 0xFF else p.buttonPressure b }

def releaseButton (button : PAD_BUTTON) (p : Pad) : Pad :=
  { p with
    buttons := p.buttons ||| 1#16 <<< button.ctorIdx
    buttonPressure := fun b => if b = button then 0 else p.buttonPressure b }

def updateJoystick (joystick : JOYSTICK) (axis : JOYSTICK_AXIS) (val : Byte) (p : Pad) : Pad :=
  { p with joysticks := fun j a => if j = joystick ∧ a = axis then val else p.joysticks j a }

/-! ### A transfer -/

def startTransfer (_value : Byte) : M Byte := do
  modify fun p => { p with dataCount := 0, commandLength := 5 }
  pure 0xFF

/-- The bytes of the buttons and of the sticks. -/
def dataByte (p : Pad) : ℕ → Byte
  | 2 => 0x5A
  | 3 => p.buttons.extractLsb' 0 8
  | 4 => p.buttons.extractLsb' 8 8
  | 5 => p.joysticks .RIGHT .X
  | 6 => p.joysticks .RIGHT .Y
  | 7 => p.joysticks .LEFT .X
  | 8 => p.joysticks .LEFT .Y
  | 9 => p.buttonPressure .RIGHT
  | 10 => p.buttonPressure .LEFT
  | 11 => p.buttonPressure .UP
  | 12 => p.buttonPressure .DOWN
  | 13 => p.buttonPressure .TRIANGLE
  | 14 => p.buttonPressure .CIRCLE
  | 15 => p.buttonPressure .CROSS
  | 16 => p.buttonPressure .SQUARE
  | 17 => p.buttonPressure .L1
  | 18 => p.buttonPressure .R1
  | 19 => p.buttonPressure .L2
  | 20 => p.buttonPressure .R2
  | _ => 0

/-- A byte of the state is written to the command buffer, `d` places further. -/
def storeFrom (f : Pad → ℕ → Byte) (d i : ℕ) : M PUnit := do
  storeCommand (i + d) (f (← get) i)

/-- The bytes from `first` on, `n` of them. -/
def storeData (n first : ℕ) : M PUnit := upTo (storeFrom dataByte 0) n first

def setLength (length : ℕ) : M PUnit := modify fun p => { p with commandLength := length }

/-- The case of `B` in `write_SIO`. -/
def readData : M Byte := do
  storeData 3 2
  let p ← get
  (if p.padMode ≠ .DIGITAL then do
    setLength 9
    storeData 4 5
    (if p.padMode ≠ .ANALOG ∧ ¬ p.configMode then do
      storeData 12 9
      setLength 21
    else pure ⟨⟩)
  else setLength 5)
  pure p.padMode.value

/-- `mask_mode` as the query of the masked mode leaves it. -/
def queryMask (p : Pad) : Pad :=
  if p.padMode = .DIGITAL then
    { p with maskMode := fun k => if k = 1 ∨ k = 2 ∨ k = 3 ∨ k = 6 then 0 else p.maskMode k }
  else
    { p with
      maskMode := fun k =>
        if k = 1 then p.mask 0 else if k = 2 then p.mask 1 else if k = 3 then 0x03
        else if k = 6 then 0x5A else p.maskMode k }

/-- A command that is answered by a template. -/
def template (result : List Byte) : M Byte := do
  setResult result
  pure 0xF3

/-- The first `switch` of `write_SIO`. -/
def beginCommand (value : Byte) : M Byte := do
  match value.toNat with
  | 0x43 => if (← get).configMode then template configExit else readData
  | 0x42 => readData
  | 0x40 => template vrefParam
  | 0x41 => do
    modify queryMask
    template ((List.range 7).map (← get).maskMode)
  | 0x44 => do
    setResult setMode
    resetVibrate
    pure 0xF3
  | 0x45 => do
    setResult queryModelDS2
    storeCommand 5 (if (← get).padMode.value &&& 0xF ≠ 0x1 then 1 else 0)
    pure 0xF3
  | 0x46 => template queryAct0
  | 0x47 => template queryComb
  | 0x4C => template queryMode
  | 0x4D => do
    setLength 9
    upTo (storeFrom Pad.rumbleValues 2) 7 0
    resetVibrate
    pure 0xF3
  | 0x4F => template nativeMode
  | _ => throw (.died value)

/-- `D`, the mode and its lock. -/
def lockMode (value : Byte) (p : Pad) : Pad :=
  if p.dataCount = 3 then
    if value.toNat < 2 ∧ p.modeLock = 0 then
      { p with padMode := if value ≠ 0 then .ANALOG else .DIGITAL }
    else p
  else if p.dataCount = 4 then { p with modeLock := if value = 3 then 3 else 0 }
  else p

/-- `O`, the masks and the native mode. -/
def native (value : Byte) (p : Pad) : Pad :=
  if p.dataCount = 3 ∨ p.dataCount = 4 then
    { p with mask := fun k => if k = p.dataCount - 3 then value else p.mask k }
  else if p.dataCount = 5 then
    { p with
      padMode := if value &&& 0x1 = 0 then .DIGITAL else if value &&& 0x2 = 0 then .ANALOG else .DS2_NATIVE }
  else p

/-- The second `switch` of `write_SIO`. -/
def continueCommand (value : Byte) : M PUnit := do
  let p ← get
  match p.command.toNat with
  | 0x43 => if p.dataCount = 3 then modify fun p => { p with configMode := value ≠ 0 } else pure ⟨⟩
  | 0x44 => modify (lockMode value)
  | 0x46 =>
    if p.dataCount = 3 ∧ value.toNat < 2 then setResult (if value = 0 then queryAct0 else queryAct1)
    else pure ⟨⟩
  | 0x4C => if p.dataCount = 3 ∧ value.toNat < 2 then storeCommand 6 (4 + value * 3) else pure ⟨⟩
  | 0x4D => if 3 ≤ p.dataCount then storeRumble (p.dataCount - 2) value else pure ⟨⟩
  | 0x4F => modify (native value)
  | _ => pure ⟨⟩

/-- Outside of the config mode only `B` and `C` are taken. -/
def Refused (p : Pad) (value : Byte) : Prop := p.configMode = false ∧ value ≠ 0x42 ∧ value ≠ 0x43

instance (p : Pad) (value : Byte) : Decidable (Refused p value) := inferInstanceAs (Decidable (_ ∧ _))

def writeSio (value : Byte) : M Byte := do
  let p ← get
  if p.commandLength < p.dataCount then pure 0
  else if p.dataCount = 0 then
    if Refused p value then do
      modify fun p => { p with commandLength := 0, dataCount := 1 }
      pure 0xF3
    else do
      modify fun p => { p with command := value, dataCount := 1 }
      beginCommand value
  else do
    modify fun p => { p with dataCount := p.dataCount + 1 }
    continueCommand value
    loadCommand (p.dataCount + 1)

/-! ### The bytes of a transfer -/

/-- The commands that a template answers. -/
def Templated (p : Pad) (value : Byte) : Prop :=
  p.configMode = true ∧ value.toNat ∈ [0x40, 0x41, 0x43, 0x44, 0x45, 0x46, 0x47, 0x4C, 0x4F]

instance (p : Pad) (value : Byte) : Decidable (Templated p value) := inferInstanceAs (Decidable (_ ∧ _))

/-- The length of an answer with the buttons: with the sticks from the analog mode on, and with the pressures in
the native one. -/
def dataLength (p : Pad) : ℕ :=
  if p.padMode = .DIGITAL then 5 else if p.padMode = .ANALOG ∨ p.configMode = true then 9 else 21

/-- The length of the transfer of a command. A command that is refused ends with its own byte. -/
def lengthOf (p : Pad) (value : Byte) : ℕ :=
  if Refused p value then 2
  else if value = 0x42 ∨ value = 0x43 ∧ p.configMode = false then dataLength p
  else 9

/-- The pad, the bytes that the transfer has had and the length of its command. -/
structure Link where
  pad : Pad
  sent : ℕ
  length : ℕ

/-- A pad before the first command, in any mode. -/
def fresh (p : Pad) : Link := ⟨{ p with dataCount := 0 }, 1, 2⟩

inductive Action where
  | startTransfer (value : Byte)
  | writeSio (value : Byte)
  | pressButton (button : PAD_BUTTON)
  | releaseButton (button : PAD_BUTTON)
  | updateJoystick (joystick : JOYSTICK) (axis : JOYSTICK_AXIS) (val : Byte)
  deriving DecidableEq, Repr

def Link.exec (l : Link) : Action → Except Stop (Byte × Link)
  | .startTransfer value => ((startTransfer value).run l.pad).map fun out => (out.1, ⟨out.2, 1, 2⟩)
  | .writeSio value => ((writeSio value).run l.pad).map fun out =>
      (out.1, ⟨out.2, l.sent + 1, if l.sent = 1 then lengthOf l.pad value else l.length⟩)
  | .pressButton button => .ok (0, { l with pad := pressButton button l.pad })
  | .releaseButton button => .ok (0, { l with pad := releaseButton button l.pad })
  | .updateJoystick joystick axis val => .ok (0, { l with pad := updateJoystick joystick axis val l.pad })

def Step (l : Link) (a : Action) (l' : Link) : Prop := ∃ r, l.exec a = .ok (r, l')

/-- Nothing but the count of the bytes has changed. -/
def Same (p p' : Pad) : Prop := p' = { p with dataCount := p'.dataCount }

/-- What is asked of a byte: no access is out of bounds, and behind the length of its command the byte is
answered with zero and changes nothing. -/
structure GoodByte (l : Link) (value : Byte) : Prop where
  bounds : ∀ e, (writeSio value).run l.pad = .error e → e = .died value
  behind : 2 ≤ l.sent → l.length ≤ l.sent → ∀ r p', (writeSio value).run l.pad = .ok (r, p') →
    r = 0 ∧ Same l.pad p'

def Good (l : Link) : Action → Prop
  | .writeSio value => GoodByte l value
  | _ => True

/-- A byte behind the length that the check of `write_SIO` lets through finds a zero in the command buffer.
The vibration command stores one of them, the same value again. -/
def Behind (l : Link) (value : Byte) : Prop :=
  l.length ≤ l.sent → l.pad.dataCount ≤ l.pad.commandLength →
    l.pad.commandBuffer l.sent = 0 ∧ (l.pad.command = 0x4D → l.sent = 9 ∧ l.pad.rumbleValues 7 = value)

/-- The branches that go wrong are not taken. -/
def Fine (l : Link) : Action → Prop
  | .writeSio value => if l.sent = 1 then ¬ Templated l.pad value else Behind l value
  | _ => True

/-! ### What each byte does -/

/-- A transfer whose command has been refused. -/
structure Ended (l : Link) : Prop where
  sent : 2 ≤ l.sent
  length : l.length = 2
  count : l.pad.dataCount = 1
  command : l.pad.commandLength = 0

/-- A transfer of a command that no template answers. -/
structure Active (l : Link) : Prop where
  sent : 2 ≤ l.sent
  length : l.length = 5 ∨ l.length = 9 ∨ l.length = 21
  commandLength : l.pad.commandLength = l.length
  count : l.pad.dataCount = min (l.sent - 1) (l.length + 1)
  command : l.pad.command = 0x42 ∨ l.pad.command = 0x43 ∨ l.pad.command = 0x4D ∧ l.length = 9

/-- **The invariant.** -/
def Inv (l : Link) : Prop := l.sent = 1 ∧ l.pad.dataCount = 0 ∨ Ended l ∨ Active l

variable {p p' : Pad} {l l' : Link} {value r : Byte}

theorem gives_storeCommand {i : ℕ} (h : i < 25) : Gives (storeCommand i value) p ⟨⟩
    { p with commandBuffer := fun k => if k = i then value else p.commandBuffer k } := by
  unfold storeCommand
  rw [if_pos h]
  exact gives_modify

/-- Some bytes of the command buffer have been written. -/
def Filled (p p' : Pad) : Prop := p' = { p with commandBuffer := p'.commandBuffer }

theorem Filled.after {p'' : Pad} (h' : Filled p' p'') (h : Filled p p') : Filled p p'' := by
  unfold Filled at h h' ⊢
  rw [h', h]

theorem gives_storeFrom {f : Pad → ℕ → Byte} {d i : ℕ} (h : i + d < 25) : Gives (storeFrom f d i) p ⟨⟩
    { p with commandBuffer := fun k => if k = i + d then f p i else p.commandBuffer k } := by
  unfold storeFrom
  exact gives_get.bind (gives_storeCommand h)

theorem gives_fill (f : Pad → ℕ → Byte) (d : ℕ) : ∀ n first p, first + n + d ≤ 25 →
    ∃ p', Gives (upTo (storeFrom f d) n first) p ⟨⟩ p' ∧ Filled p p'
  | 0, _, p, _ => ⟨p, gives_pure, rfl⟩
  | n + 1, first, p, h => by
    obtain ⟨p', hrest, hfilled⟩ := gives_fill f d n (first + 1)
      { p with commandBuffer := fun k => if k = first + d then f p first else p.commandBuffer k } (by omega)
    exact ⟨p', (gives_storeFrom (by omega)).bind hrest, hfilled.after rfl⟩

/-- The answer to `B`, with the length that its mode gives. -/
theorem gives_readData (p : Pad) :
    ∃ p', Gives readData p p.padMode.value p' ∧ Filled { p with commandLength := dataLength p } p' := by
  obtain ⟨p₁, h₁, f₁⟩ := gives_fill dataByte 0 3 2 p (by omega)
  obtain ⟨p₂, h₂, f₂⟩ := gives_fill dataByte 0 4 5 { p₁ with commandLength := 9 } (by omega)
  obtain ⟨p₃, h₃, f₃⟩ := gives_fill dataByte 0 12 9 p₂ (by omega)
  have hmode : p.padMode = p₁.padMode ∧ p.configMode = p₁.configMode := by
    rw [f₁]
    exact ⟨rfl, rfl⟩
  have hlen : dataLength p = dataLength p₁ := by
    unfold dataLength
    rw [hmode.1, hmode.2]
  rw [hmode.1, hlen]
  unfold readData dataLength
  by_cases hd : p₁.padMode = .DIGITAL
  · rw [if_pos hd]
    refine ⟨{ p₁ with commandLength := 5 }, ?_, ?_⟩
    · refine h₁.bind (gives_get.bind ?_)
      rw [if_neg (not_not.mpr hd)]
      exact gives_modify.bind gives_pure
    · rw [f₁]
      rfl
  rw [if_neg hd]
  by_cases ha : p₁.padMode = .ANALOG ∨ p₁.configMode = true
  · rw [if_pos ha]
    refine ⟨p₂, ?_, ?_⟩
    · refine h₁.bind (gives_get.bind ?_)
      rw [if_pos hd, if_neg fun h => ha.elim h.1 h.2]
      refine Gives.bind (a := ⟨⟩) ?_ gives_pure
      exact gives_modify.bind (h₂.bind gives_pure)
    · refine f₂.after ?_
      rw [f₁]
      rfl
  · rw [if_neg ha]
    refine ⟨{ p₃ with commandLength := 21 }, ?_, ?_⟩
    · refine h₁.bind (gives_get.bind ?_)
      rw [if_pos hd, if_pos (not_or.mp ha)]
      refine Gives.bind (a := ⟨⟩) ?_ gives_pure
      exact gives_modify.bind (h₂.bind (h₃.bind gives_modify))
    · rw [f₃, f₂, f₁]
      rfl

/-! ### The first byte of a command -/

/-- A command that a template answers stops when the eighth byte of the template is read. -/
theorem setResult_stops {t : List Byte} (ht : t.length = 7) (p : Pad) : Stops (setResult t) p (.template 7) := by
  have hcopy : ∀ n first p, first + n = 8 → first ≤ 7 →
      Stops (upTo (copyTemplate t) n first) p (.template 7) := by
    intro n
    induction n with
    | zero =>
      intro first p h1 h2
      omega
    | succ n ih =>
      intro first p h1 h2
      rcases Nat.lt_or_ge first 7 with hlt | hge
      · have hload : Gives (loadTemplate t first) p t[first] p := by
          unfold loadTemplate
          rw [List.getElem?_eq_getElem (by omega)]
          exact gives_pure
        exact (hload.bind (gives_storeCommand (by omega))).stops_bind (ih (first + 1) _ (by omega) (by omega))
      · obtain rfl : first = 7 := by omega
        have hload : Stops (loadTemplate t 7) p (.template 7) := by
          unfold loadTemplate
          rw [List.getElem?_eq_none (by omega)]
          rfl
        exact hload.bind.bind
  exact (hcopy 8 0 p rfl (by omega)).bind

theorem template_stops {t : List Byte} (ht : t.length = 7) (p : Pad) : Stops (template t) p (.template 7) :=
  (setResult_stops ht p).bind

theorem byte_cases (v : Byte) (n : ℕ) (h : v.toNat = n) : v = BitVec.ofNat 8 n := by
  rw [← h, BitVec.ofNat_toNat, BitVec.setWidth_eq]

/-- The first byte of a command: it stops at a template, it is unknown, or it begins a transfer. -/
theorem beginCommand_cases (p : Pad) (value : Byte) :
    (value.toNat ∈ [0x40, 0x41, 0x44, 0x45, 0x46, 0x47, 0x4C, 0x4F] ∧ Stops (beginCommand value) p (.template 7)) ∨
    (value = 0x43 ∧ p.configMode = true ∧ Stops (beginCommand value) p (.template 7)) ∨
    (value = 0x42 ∨ value = 0x43 ∧ p.configMode = false) ∧
      (∃ p', Gives (beginCommand value) p p.padMode.value p' ∧ Filled { p with commandLength := dataLength p } p') ∨
    (value = 0x4D ∧ ∃ p', Gives (beginCommand value) p 0xF3 p' ∧
      p' = { p with commandBuffer := p'.commandBuffer, commandLength := 9, rumbleValues := vibrateReset }) ∨
    (value.toNat ∉ [0x40, 0x41, 0x42, 0x43, 0x44, 0x45, 0x46, 0x47, 0x4C, 0x4D, 0x4F] ∧
      Stops (beginCommand value) p (.died value)) := by
  unfold beginCommand
  split
  · rename_i hv
    have hv' := byte_cases value _ hv
    by_cases hc : p.configMode = true
    · refine Or.inr (Or.inl ⟨hv', hc, gives_get.stops_bind ?_⟩)
      rw [if_pos hc]
      exact template_stops rfl p
    · refine Or.inr (Or.inr (Or.inl ⟨Or.inr ⟨hv', Bool.not_eq_true _ ▸ hc⟩, ?_⟩))
      obtain ⟨p', h, hf⟩ := gives_readData p
      refine ⟨p', gives_get.bind ?_, hf⟩
      rw [if_neg hc]
      exact h
  · rename_i hv
    exact Or.inr (Or.inr (Or.inl ⟨Or.inl (byte_cases value _ hv), gives_readData p⟩))
  · rename_i hv
    exact Or.inl ⟨by rw [hv]; decide, template_stops rfl p⟩
  · rename_i hv
    refine Or.inl ⟨by rw [hv]; decide, gives_modify.stops_bind (gives_get.stops_bind (template_stops ?_ _))⟩
    rw [List.length_map, List.length_range]
  · rename_i hv
    exact Or.inl ⟨by rw [hv]; decide, (setResult_stops rfl p).bind⟩
  · rename_i hv
    exact Or.inl ⟨by rw [hv]; decide, (setResult_stops rfl p).bind⟩
  · rename_i hv
    exact Or.inl ⟨by rw [hv]; decide, template_stops rfl p⟩
  · rename_i hv
    exact Or.inl ⟨by rw [hv]; decide, template_stops rfl p⟩
  · rename_i hv
    exact Or.inl ⟨by rw [hv]; decide, template_stops rfl p⟩
  · rename_i hv
    refine Or.inr (Or.inr (Or.inr (Or.inl ⟨byte_cases value _ hv, ?_⟩)))
    obtain ⟨p₁, h₁, f₁⟩ := gives_fill Pad.rumbleValues 2 7 0 { p with commandLength := 9 } (by omega)
    refine ⟨{ p₁ with rumbleValues := vibrateReset }, ?_, ?_⟩
    · exact gives_modify.bind (h₁.bind (gives_modify.bind gives_pure))
    · rw [f₁]
  · rename_i hv
    exact Or.inl ⟨by rw [hv]; decide, template_stops rfl p⟩
  · refine Or.inr (Or.inr (Or.inr (Or.inr ⟨?_, rfl⟩)))
    simp only [List.mem_cons, List.not_mem_nil, or_false, not_or]
    refine ⟨?_, ?_, ?_, ?_, ?_, ?_, ?_, ?_, ?_, ?_, ?_⟩ <;> assumption

/-! ### A byte of a transfer -/

theorem write_blocked (value : Byte) (h : p.commandLength < p.dataCount) : Gives (writeSio value) p 0 p := by
  unfold writeSio
  refine gives_get.bind ?_
  rw [if_pos h]
  exact gives_pure

theorem write_refused (h : p.dataCount = 0) (hr : Refused p value) :
    Gives (writeSio value) p 0xF3 { p with commandLength := 0, dataCount := 1 } := by
  unfold writeSio
  refine gives_get.bind ?_
  rw [if_neg (by omega), if_pos h, if_pos hr]
  exact gives_modify.bind gives_pure

/-- The pad when its command has been taken. -/
def accepted (p : Pad) (value : Byte) : Pad := { p with command := value, dataCount := 1 }

theorem write_first (h : p.dataCount = 0) (hr : ¬ Refused p value) :
    (writeSio value).run p = (beginCommand value).run (accepted p value) := by
  have hgive : Gives (get : M Pad) p p p := gives_get
  unfold writeSio
  rw [StateT.run_bind, hgive]
  show StateT.run (if p.commandLength < p.dataCount then _ else _) p = _
  rw [if_neg (by omega), if_pos h, if_neg hr]
  rfl

theorem write_later (value : Byte) (h : ¬ p.commandLength < p.dataCount) (h0 : p.dataCount ≠ 0)
    (hc : Gives (continueCommand value) { p with dataCount := p.dataCount + 1 } ⟨⟩ p')
    (hroom : p.dataCount + 1 < 25) : Gives (writeSio value) p (p'.commandBuffer (p.dataCount + 1)) p' := by
  have hload : Gives (loadCommand (p.dataCount + 1)) p' (p'.commandBuffer (p.dataCount + 1)) p' := by
    unfold loadCommand
    refine gives_get.bind ?_
    rw [if_pos hroom]
    exact gives_pure
  unfold writeSio
  refine gives_get.bind ?_
  rw [if_neg h, if_neg h0]
  exact gives_modify.bind (hc.bind hload)

theorem write_stops {e : Stop} (h : ¬ p.commandLength < p.dataCount) (h0 : p.dataCount ≠ 0)
    (hc : Stops (continueCommand value) { p with dataCount := p.dataCount + 1 } e) : Stops (writeSio value) p e := by
  unfold writeSio
  refine gives_get.stops_bind ?_
  rw [if_neg h, if_neg h0]
  exact gives_modify.stops_bind hc.bind

theorem continue_buttons (hp : p.command = 0x42) : Gives (continueCommand value) p ⟨⟩ p := by
  unfold continueCommand
  refine gives_get.bind ?_
  rw [hp]
  exact gives_pure

theorem continue_config (hp : p.command = 0x43) : Gives (continueCommand value) p ⟨⟩
    { p with configMode := if p.dataCount = 3 then value ≠ 0 else p.configMode } := by
  have hgo (p' : Pad) (h : Gives (if p.dataCount = 3 then modify fun p => { p with configMode := value ≠ 0 }
      else pure ⟨⟩ : M PUnit) p ⟨⟩ p') : Gives (continueCommand value) p ⟨⟩ p' := by
    unfold continueCommand
    refine gives_get.bind ?_
    rw [hp]
    exact h
  refine hgo _ ?_
  by_cases h3 : p.dataCount = 3
  · rw [if_pos h3, if_pos h3]
    exact gives_modify
  · rw [if_neg h3, if_neg h3]
    exact gives_pure

/-- The rumble values after the byte with the number `n`. -/
def rumbled (p : Pad) (n : ℕ) (value : Byte) : ℕ → Byte :=
  fun k => if 3 ≤ n ∧ k = n - 2 then value else p.rumbleValues k

theorem continue_vibration (hp : p.command = 0x4D) (hn : p.dataCount ≤ 9) :
    Gives (continueCommand value) p ⟨⟩ { p with rumbleValues := rumbled p p.dataCount value } := by
  have hgo (p' : Pad) (h : Gives (if 3 ≤ p.dataCount then storeRumble (p.dataCount - 2) value
      else pure ⟨⟩ : M PUnit) p ⟨⟩ p') : Gives (continueCommand value) p ⟨⟩ p' := by
    unfold continueCommand
    refine gives_get.bind ?_
    rw [hp]
    exact h
  refine hgo _ ?_
  unfold rumbled
  by_cases h3 : 3 ≤ p.dataCount
  · rw [if_pos h3]
    unfold storeRumble
    rw [if_pos (by omega)]
    simp only [h3, true_and]
    exact gives_modify
  · rw [if_neg h3]
    simp only [h3, false_and, if_false]
    exact gives_pure

theorem stops_vibration (hp : p.command = 0x4D) (hn : p.dataCount = 10) :
    Stops (continueCommand value) p (.rumbleValues 8) := by
  unfold continueCommand
  refine gives_get.stops_bind ?_
  rw [hp]
  show Stops (if 3 ≤ p.dataCount then storeRumble _ _ else _) _ _
  rw [if_pos (by omega), hn]
  rfl

/-- What a byte of an active transfer does. -/
theorem active_byte (h : Active l) (value : Byte) :
    (l.length + 2 ≤ l.sent ∧ Gives (writeSio value) l.pad 0 l.pad) ∨
    (l.sent ≤ l.length + 1 ∧ l.pad.command ≠ 0x4D ∧ ∃ c, (5 ≤ l.sent → c = l.pad.configMode) ∧
      Gives (writeSio value) l.pad (l.pad.commandBuffer l.sent)
        { l.pad with dataCount := l.sent, configMode := c }) ∨
    (l.sent ≤ 9 ∧ l.length = 9 ∧ l.pad.command = 0x4D ∧ Gives (writeSio value) l.pad (l.pad.commandBuffer l.sent)
      { l.pad with dataCount := l.sent, rumbleValues := rumbled l.pad l.sent value }) ∨
    (l.sent = 10 ∧ l.length = 9 ∧ l.pad.command = 0x4D ∧ Stops (writeSio value) l.pad (.rumbleValues 8)) := by
  have hsent := h.sent
  have hlen := h.length
  have hcl := h.commandLength
  have hcount := h.count
  rcases Nat.lt_or_ge (l.length + 1) l.sent with hbeyond | hin
  · exact Or.inl ⟨hbeyond, write_blocked value (by omega)⟩
  have hnext : l.pad.dataCount + 1 = l.sent := by omega
  have hopen : ¬ l.pad.commandLength < l.pad.dataCount := by omega
  have hnz : l.pad.dataCount ≠ 0 := by omega
  right
  rcases h.command with hp | hp | ⟨hp, h9⟩
  · left
    refine ⟨hin, by rw [hp]; decide, l.pad.configMode, fun _ => rfl, ?_⟩
    have hw := write_later value hopen hnz (continue_buttons hp) (by omega)
    rwa [hnext] at hw
  · left
    have hw := write_later value hopen hnz (continue_config hp) (by omega)
    rw [hnext] at hw
    exact ⟨hin, by rw [hp]; decide, _, fun h5 => if_neg (by show ¬ l.sent = 3; omega), hw⟩
  · right
    rcases Nat.lt_or_ge l.sent 10 with hlt | hge
    · left
      have hw := write_later value hopen hnz (continue_vibration hp (by show _ + 1 ≤ 9; omega)) (by omega)
      rw [hnext] at hw
      exact ⟨by omega, h9, hp, hw⟩
    · right
      exact ⟨by omega, h9, hp, write_stops hopen hnz (stops_vibration hp (by show _ + 1 = 10; omega))⟩

/-! ### The condition -/

theorem goodByte_of_gives (h : Gives (writeSio value) l.pad r p') :
    GoodByte l value ↔ (2 ≤ l.sent → l.length ≤ l.sent → r = 0 ∧ Same l.pad p') := by
  unfold Gives at h
  constructor
  · intro hg h2 hl
    exact hg.behind h2 hl r p' h
  · intro hb
    refine ⟨fun e he => ?_, fun h2 hl r' q hr => ?_⟩
    · rw [h] at he
      cases he
    · rw [h] at hr
      cases hr
      exact hb h2 hl

theorem goodByte_of_stops {e : Stop} (h : Stops (writeSio value) l.pad e) : GoodByte l value ↔ e = .died value := by
  unfold Stops at h
  constructor
  · intro hg
    exact hg.bounds e h
  · intro he
    refine ⟨fun e' he' => ?_, fun _ _ r q hr => ?_⟩
    · rw [h] at he'
      cases he'
      exact he
    · rw [h] at hr
      cases hr

/-- The command byte goes wrong where a template answers. -/
theorem good_command (h1 : l.sent = 1) (h0 : l.pad.dataCount = 0) (value : Byte) :
    GoodByte l value ↔ ¬ Templated l.pad value := by
  have hbehind (P : Prop) : (2 ≤ l.sent → P) ↔ True := by
    rw [h1]
    simp
  by_cases hr : Refused l.pad value
  · rw [goodByte_of_gives (write_refused h0 hr), hbehind, true_iff]
    rintro ⟨hc, -⟩
    rw [hr.1] at hc
    cases hc
  have hrun := write_first h0 hr
  have hgives {r : Byte} {p' : Pad} (h : Gives (beginCommand value) (accepted l.pad value) r p') :
      Gives (writeSio value) l.pad r p' := hrun.trans h
  have hstops {e : Stop} (h : Stops (beginCommand value) (accepted l.pad value) e) :
      Stops (writeSio value) l.pad e := hrun.trans h
  have hother (hv : value.toNat ∉ [0x42, 0x43]) : l.pad.configMode = true := by
    cases hc : l.pad.configMode with
    | true => rfl
    | false =>
      refine absurd ⟨hc, ?_, ?_⟩ hr
      · rintro rfl
        exact hv (by decide)
      · rintro rfl
        exact hv (by decide)
  rcases beginCommand_cases (accepted l.pad value) value with
    ⟨hv, h⟩ | ⟨hv, hc, h⟩ | ⟨hv, p', h, -⟩ | ⟨hv, p', h, -⟩ | ⟨hv, h⟩
  · rw [goodByte_of_stops (hstops h)]
    refine iff_of_false (by simp) (not_not.mpr ⟨hother ?_, ?_⟩)
    · simp only [List.mem_cons, List.not_mem_nil, or_false] at hv ⊢
      omega
    · simp only [List.mem_cons, List.not_mem_nil, or_false] at hv ⊢
      omega
  · rw [goodByte_of_stops (hstops h)]
    exact iff_of_false (by simp) (not_not.mpr ⟨hc, by rw [hv]; decide⟩)
  · rw [goodByte_of_gives (hgives h), hbehind, true_iff]
    rintro ⟨hc, hmem⟩
    rcases hv with hv | ⟨-, hf⟩
    · rw [hv] at hmem
      exact absurd hmem (by decide)
    · exact absurd (hf.symm.trans hc) (by simp)
  · rw [goodByte_of_gives (hgives h), hbehind, true_iff]
    rintro ⟨-, hmem⟩
    rw [hv] at hmem
    exact absurd hmem (by decide)
  · rw [goodByte_of_stops (hstops h)]
    refine iff_of_true rfl ?_
    rintro ⟨-, hmem⟩
    simp only [List.mem_cons, List.not_mem_nil, or_false] at hv hmem
    omega

/-- A later byte goes wrong behind the length, where the check lets it through. -/
theorem good_later (h : Active l) (value : Byte) : GoodByte l value ↔ Behind l value := by
  have hsent := h.sent
  have hlen := h.length
  have hcl := h.commandLength
  have hcount := h.count
  unfold Behind
  rcases active_byte h value with ⟨hin, hw⟩ | ⟨hin, hp, c, hc, hw⟩ | ⟨hin, h9, hp, hw⟩ | ⟨hin, h9, hp, hw⟩
  · rw [goodByte_of_gives hw]
    exact iff_of_true (fun _ _ => ⟨rfl, rfl⟩) fun _ hle => absurd hle (by omega)
  · rw [goodByte_of_gives hw]
    constructor
    · intro hg hl _
      exact ⟨(hg hsent hl).1, fun hm => absurd hm hp⟩
    · intro hb _ hl
      refine ⟨(hb hl (by omega)).1, ?_⟩
      rw [hc (by omega)]
      rfl
  · rw [goodByte_of_gives hw]
    constructor
    · intro hg hl _
      obtain ⟨hz, hsame⟩ := hg hsent hl
      have hrumble : rumbled l.pad l.sent value = l.pad.rumbleValues := congrArg Pad.rumbleValues hsame
      refine ⟨hz, fun _ => ⟨by omega, ?_⟩⟩
      rw [← hrumble]
      exact if_pos ⟨by omega, by omega⟩
    · intro hb _ hl
      obtain ⟨hz, hm⟩ := hb hl (by omega)
      obtain ⟨hs, hv⟩ := hm hp
      have hrumble : rumbled l.pad l.sent value = l.pad.rumbleValues := by
        funext k
        unfold rumbled
        split_ifs with hk
        · rw [show k = 7 by omega, hv]
        · rfl
      refine ⟨hz, ?_⟩
      rw [hrumble]
      rfl
  · rw [goodByte_of_stops hw]
    refine iff_of_false (by simp) fun hb => ?_
    have hm := (hb (by omega) (by omega)).2 hp
    omega

theorem good_ended (h : Ended l) (value : Byte) : GoodByte l value ↔ Behind l value := by
  have hcount := h.count
  have hcommand := h.command
  rw [goodByte_of_gives (write_blocked value (by omega))]
  exact iff_of_true (fun _ _ => ⟨rfl, rfl⟩) fun _ hle => absurd hle (by omega)

/-- **The condition is exact** for each step. -/
theorem good_iff_fine (h : Inv l) (a : Action) : Good l a ↔ Fine l a := by
  cases a with
  | writeSio value =>
    show GoodByte l value ↔ if l.sent = 1 then ¬ Templated l.pad value else Behind l value
    rcases h with ⟨h1, h0⟩ | h | h
    · rw [if_pos h1]
      exact good_command h1 h0 value
    · have hsent := h.sent
      rw [if_neg (by omega)]
      exact good_ended h value
    · have hsent := h.sent
      rw [if_neg (by omega)]
      exact good_later h value
  | startTransfer _ => exact Iff.rfl
  | pressButton _ => exact Iff.rfl
  | releaseButton _ => exact Iff.rfl
  | updateJoystick _ _ _ => exact Iff.rfl

theorem dataLength_cases (p : Pad) : dataLength p = 5 ∨ dataLength p = 9 ∨ dataLength p = 21 := by
  unfold dataLength
  split_ifs <;> omega

/-- The command byte leaves a transfer that is refused or active. -/
theorem inv_command (h0 : l.pad.dataCount = 0) (hw : Gives (writeSio value) l.pad r p') :
    Inv ⟨p', 2, lengthOf l.pad value⟩ := by
  right
  by_cases hr : Refused l.pad value
  · left
    have heq := hw.symm.trans (write_refused h0 hr)
    simp only [Except.ok.injEq, Prod.mk.injEq] at heq
    rw [heq.2]
    exact ⟨le_rfl, if_pos hr, rfl, rfl⟩
  right
  have hb : Gives (beginCommand value) (accepted l.pad value) r p' := (write_first h0 hr).symm.trans hw
  have hnot {e : Stop} (h : Stops (beginCommand value) (accepted l.pad value) e) : False := by
    cases h.symm.trans hb
  rcases beginCommand_cases (accepted l.pad value) value with
    ⟨-, h⟩ | ⟨-, -, h⟩ | ⟨hv, q, h, hf⟩ | ⟨hv, q, h, hq⟩ | ⟨-, h⟩
  · exact absurd h hnot
  · exact absurd h hnot
  · have heq := hb.symm.trans h
    simp only [Except.ok.injEq, Prod.mk.injEq] at heq
    have hlen : lengthOf l.pad value = dataLength l.pad := by
      have hv' : value = 0x42 ∨ value = 0x43 ∧ l.pad.configMode = false := hv
      unfold lengthOf
      rw [if_neg hr, if_pos hv']
    have hcases := dataLength_cases l.pad
    rw [heq.2, hlen, hf]
    refine ⟨le_rfl, hcases, rfl, ?_, ?_⟩
    · show 1 = min 1 (dataLength l.pad + 1)
      omega
    · rcases hv with hv | ⟨hv, -⟩
      · exact Or.inl hv
      · exact Or.inr (Or.inl hv)
  · have heq := hb.symm.trans h
    simp only [Except.ok.injEq, Prod.mk.injEq] at heq
    have hlen : lengthOf l.pad value = 9 := by
      unfold lengthOf
      rw [if_neg hr, if_neg (by rw [hv]; rintro (h | ⟨h, -⟩) <;> exact absurd h (by decide))]
    rw [heq.2, hlen, hq]
    exact ⟨le_rfl, Or.inr (Or.inl rfl), rfl, rfl, Or.inr (Or.inr ⟨hv, rfl⟩)⟩
  · exact absurd h hnot

theorem active_next (h : Active l) (hw : Gives (writeSio value) l.pad r p') :
    Active ⟨p', l.sent + 1, l.length⟩ := by
  have hsent := h.sent
  have hcount := h.count
  have hout {r' : Byte} {q : Pad} (h' : Gives (writeSio value) l.pad r' q) : p' = q := by
    have heq := hw.symm.trans h'
    simp only [Except.ok.injEq, Prod.mk.injEq] at heq
    exact heq.2
  rcases active_byte h value with ⟨hin, hw'⟩ | ⟨hin, -, c, -, hw'⟩ | ⟨hin, h9, -, hw'⟩ | ⟨-, -, -, hw'⟩
  · rw [hout hw']
    refine ⟨by show 2 ≤ l.sent + 1; omega, h.length, h.commandLength, ?_, h.command⟩
    show l.pad.dataCount = min (l.sent + 1 - 1) (l.length + 1)
    omega
  · rw [hout hw']
    refine ⟨by show 2 ≤ l.sent + 1; omega, h.length, h.commandLength, ?_, h.command⟩
    show l.sent = min (l.sent + 1 - 1) (l.length + 1)
    omega
  · rw [hout hw']
    refine ⟨by show 2 ≤ l.sent + 1; omega, h.length, h.commandLength, ?_, h.command⟩
    show l.sent = min (l.sent + 1 - 1) (l.length + 1)
    omega
  · cases hw.symm.trans hw'

/-- The user changes nothing that the invariant is about. -/
theorem inv_user (h : Inv l) {q : Pad} (hq : q.dataCount = l.pad.dataCount ∧
    q.commandLength = l.pad.commandLength ∧ q.command = l.pad.command) : Inv ⟨q, l.sent, l.length⟩ := by
  obtain ⟨hd, hc, hm⟩ := hq
  rcases h with ⟨h1, h0⟩ | h | h
  · exact Or.inl ⟨h1, hd.trans h0⟩
  · exact Or.inr (Or.inl ⟨h.sent, h.length, hd.trans h.count, hc.trans h.command⟩)
  · refine Or.inr (Or.inr ⟨h.sent, h.length, hc.trans h.commandLength, hd.trans h.count, ?_⟩)
    show q.command = _ ∨ q.command = _ ∨ q.command = _ ∧ _
    rw [hm]
    exact h.command

/-- **The step lemma.** -/
theorem inv_step (h : Inv l) {a : Action} (he : l.exec a = .ok (r, l')) : Inv l' := by
  cases a with
  | startTransfer value =>
    cases he
    exact Or.inl ⟨rfl, rfl⟩
  | writeSio value =>
    obtain ⟨r', p', hw, heq⟩ : ∃ r' p', Gives (writeSio value) l.pad r' p' ∧
        (⟨p', l.sent + 1, if l.sent = 1 then lengthOf l.pad value else l.length⟩ : Link) = l' := by
      replace he : Except.map _ ((writeSio value).run l.pad) = .ok (r, l') := he
      cases hrun : (writeSio value).run l.pad with
      | error e =>
        rw [hrun] at he
        cases he
      | ok out =>
        rw [hrun] at he
        cases he
        exact ⟨out.1, out.2, hrun, rfl⟩
    rw [← heq]
    rcases h with ⟨h1, h0⟩ | h | h
    · rw [if_pos h1, h1]
      exact inv_command h0 hw
    · have hsent := h.sent
      have hblocked := hw.symm.trans (write_blocked value (by rw [h.count, h.command]; omega))
      simp only [Except.ok.injEq, Prod.mk.injEq] at hblocked
      rw [if_neg (by omega), hblocked.2]
      exact Or.inr (Or.inl ⟨by show 2 ≤ l.sent + 1; omega, h.length, h.count, h.command⟩)
    · have hsent := h.sent
      rw [if_neg (by omega)]
      exact Or.inr (Or.inr (active_next h hw))
  | pressButton button =>
    cases he
    exact inv_user h ⟨rfl, rfl, rfl⟩
  | releaseButton button =>
    cases he
    exact inv_user h ⟨rfl, rfl, rfl⟩
  | updateJoystick joystick axis val =>
    cases he
    exact inv_user h ⟨rfl, rfl, rfl⟩

/-- **The run lemma.** -/
theorem along_iff (h : Inv l) (as : List Action) : Along Step Good l as ↔ Along Step Fine l as :=
  along_congr (fun _ a hl => good_iff_fine hl a) (fun _ _ _ hl _ ⟨_, he⟩ => inv_step hl he) as h

end DobieStation.Iop.Gamepad
