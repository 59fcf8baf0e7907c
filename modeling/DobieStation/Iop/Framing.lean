import DobieStation.Iop.Containment
import DobieStation.Lib.Stepwise
import Mathlib.Tactic.IntervalCases
import Mathlib.Tactic.SplitIfs

/-! # The commands of SIO2

The registers SEND3 up to the first zero tell which command each byte belongs to (`schedule`). A run after a
control write deals the bytes out as they tell (`Good`) if and only if it never comes to the end of the array of
registers, to an entry without bytes before another command, or to an inserted card with a first byte other than
0x81 (`Fine`). -/

namespace DobieStation.Iop.Framing

open DobieStation.Lib.Fault DobieStation.Lib.Stepwise DobieStation.Iop.Serial
open DobieStation.Iop.Containment (meets_onCard)

/-- A byte of the command of an entry. -/
structure Slot where
  entry : ℕ
  offset : ℕ
  deriving DecidableEq, Repr

/-- Bits 8 to 16. -/
def lengthOf (w : Word) : ℕ := (w >>> 8 &&& 0x1FF).toNat

/-- The last `m` bytes of the command of entry `i`. -/
def lastOf (send3 : ℤ → Word) (i m : ℕ) : List Slot :=
  (List.range' (lengthOf (send3 i) - m) m).map fun k => ⟨i, k⟩

/-- The bytes of `n` entries from `first` on, up to the first zero. -/
def schedule (send3 : ℤ → Word) : ℕ → ℕ → List Slot
  | 0, _ => []
  | n + 1, first =>
    if send3 first = 0 then []
    else lastOf send3 first (lengthOf (send3 first)) ++ schedule send3 n (first + 1)

/-- SIO2 and the bytes that its commands still take. -/
structure Session (P : Type) where
  io : SIO2 P
  left : List Slot

variable {P : Type} (G : Gamepad P)

/-- After a control write. -/
def start (value : Word) (s : SIO2 P) : Session P := ⟨setControl value s, schedule s.send3 16 0⟩

inductive Action where
  | writeSerial (value : Byte) (beyond : Word)
  | writeDma (value : Byte) (beyond : Word)
  | dmaReset
  | readSerial
  deriving DecidableEq, Repr

inductive Kind where
  | padding
  | ofCommand (x : Slot)
  | behind
  deriving DecidableEq, Repr

/-- Between two commands the bytes by DMA are padding up to the next multiple of 0x90. -/
def Padding (l : Session P) : Prop := (∀ x ∈ l.left.head?, x.offset = 0) ∧ l.io.dmaBytesReceived % 0x90 ≠ 0

instance (l : Session P) : Decidable (Padding l) := inferInstanceAs (Decidable (_ ∧ _))

def kindOf (l : Session P) (byDma : Bool) : Kind :=
  if byDma ∧ Padding l then .padding
  else match l.left with
    | [] => .behind
    | x :: _ => .ofCommand x

def rest (l : Session P) : Kind → List Slot
  | .ofCommand _ => l.left.tail
  | _ => l.left

def Action.byte : Action → Option (Byte × Bool)
  | .writeSerial value _ => some (value, false)
  | .writeDma value _ => some (value, true)
  | _ => none

def Action.exec : Action → S P PUnit
  | .writeSerial value beyond => sio2WriteSerial G value beyond
  | .writeDma value beyond => Serial.writeDma G value beyond
  | .dmaReset => modify fun s => { s with dmaBytesReceived := 0 }
  | .readSerial => modify fun s => { s with FIFO := s.FIFO.tail }

def Step (l : Session P) (a : Action) (l' : Session P) : Prop :=
  Gives (a.exec G) l.io ⟨⟩ l'.io ∧
    l'.left = match a.byte with
      | some (_, byDma) => rest l (kindOf l byDma)
      | none => l.left

/-! ### What is asked of a byte -/

def Untouched (s s' : SIO2 P) : Prop := s'.pad = s.pad ∧ s'.memcard = s.memcard

/-- A byte of a command reaches the device that the session has chosen, on port 0 only and the card only if it is
there. The first one starts a transfer, and no later byte does. -/
def Reached (first : Bool) (value : Byte) (s s' : SIO2 P) : Prop :=
  match s'.activeCommand with
  | .PAD =>
    if s'.port then Untouched s s'
    else s'.newCommand = false ∧ s'.memcard = s.memcard ∧
      s'.pad = (if first then G.startTransfer value s.pad else G.writeSIO value s.pad).2
  | .MEMCARD =>
    if s'.port ∨ s.memcard.fileOpened = false then Untouched s s'
    else s'.newCommand = false ∧ s'.pad = s.pad ∧
      if first then Gives startTransfer s.memcard ⟨⟩ s'.memcard
      else ∃ reply, Gives (writeSerial value) s.memcard reply s'.memcard
  | _ => Untouched s s'

/-- What a byte of each kind does. -/
def Effect (value : Byte) (s s' : SIO2 P) : Kind → Prop
  | .padding => Untouched s s' ∧ s'.send3Port = s.send3Port ∧ s'.commandLength = s.commandLength
  | .behind => Untouched s s'
  | .ofCommand x =>
    s'.send3Port = x.entry + 1 ∧ s'.commandLength = lengthOf (s.send3 x.entry) - (x.offset + 1) ∧
      s'.port = (s.send3 x.entry).getLsbD 0 ∧ s'.activeCommand = choose value s.activeCommand ∧
      Reached G (x.offset = 0) value s s'

/-- The byte makes `write_serial` look at `send3[send3_port]`. -/
def Looks (s : SIO2 P) (byDma : Bool) : Prop :=
  s.commandLength = 0 ∧ (byDma → s.dmaBytesReceived % 0x90 = 0)

structure GoodByte (l : Session P) (a : Action) (value : Byte) (byDma : Bool) : Prop where
  index : Looks l.io byDma → 0 ≤ l.io.send3Port ∧ l.io.send3Port < 16
  answered : ∀ s', Gives (a.exec G) l.io ⟨⟩ s' → (∃ reply, s'.FIFO = l.io.FIFO ++ [reply]) ∧
    Effect G value l.io s' (kindOf l byDma)

def Good (l : Session P) (a : Action) : Prop :=
  match a.byte with
  | some (value, byDma) => GoodByte G l a value byDma
  | none => True

/-- The register that is looked at. -/
def entry (s : SIO2 P) : Word := s.send3 s.send3Port

/-- The branches that go wrong are not taken. -/
structure FineByte (l : Session P) (value : Byte) : Prop where
  index : l.io.send3Port < 16
  nonempty : entry l.io ≠ 0 → lengthOf (entry l.io) = 0 → l.left = []
  card : entry l.io ≠ 0 → lengthOf (entry l.io) ≠ 0 → choose value l.io.activeCommand = .MEMCARD →
    (entry l.io).getLsbD 0 = false → l.io.memcard.fileOpened = true → value = 0x81

def Fine (l : Session P) (a : Action) : Prop :=
  match a.byte with
  | some (value, byDma) => Looks l.io byDma → FineByte l value
  | none => True

/-- The register that a write of the IOP is to. -/
def send3Index (address : ℕ) : Option ℕ :=
  if 0x1F808200 ≤ address ∧ address < 0x1F808240 then some ((address - 0x1F808200) / 4) else none

/-- What is asked of a session. -/
structure Framed (G : Gamepad P) (l : Session P) (as : List Action) : Prop where
  written : ∀ address i, send3Index address = some i → i < 16
  bytes : Along (Step G) (Good G) l as

/-! ### The devices -/

/-- The device of the session is there. -/
def Present (s : SIO2 P) : Prop :=
  match s.activeCommand with
  | .PAD => s.port = false
  | .MEMCARD => s.port = false ∧ s.memcard.fileOpened = true
  | _ => False

structure SameFrame (s s' : SIO2 P) : Prop where
  send3 : s'.send3 = s.send3
  send3Port : s'.send3Port = s.send3Port
  commandLength : s'.commandLength = s.commandLength
  port : s'.port = s.port
  activeCommand : s'.activeCommand = s.activeCommand

variable {G} {first : Bool} {value : Byte} {s s' : SIO2 P}

/-- A byte that a device has been given. -/
structure Served (G : Gamepad P) (first : Bool) (value : Byte) (s s' : SIO2 P) : Prop where
  answered : ∃ reply, s'.FIFO = s.FIFO ++ [reply]
  frame : SameFrame s s'
  reached : Reached G first value s s'

theorem reached_absent (hf : SameFrame s s') (hu : Untouched s s') (ha : ¬ Present s) :
    Reached G first value s s' := by
  unfold Reached
  unfold Present at ha
  rw [hf.activeCommand, hf.port]
  cases hd : s.activeCommand with
  | NONE => exact hu
  | PAD =>
    rw [hd] at ha
    exact (if_pos (Bool.not_eq_false _ ▸ ha)).mpr hu
  | MEMCARD =>
    rw [hd] at ha
    refine (if_pos ?_).mpr hu
    cases hp : s.port with
    | true => exact Or.inl rfl
    | false => exact Or.inr (Bool.eq_false_iff.mpr fun ho => ha ⟨hp, ho⟩)
  | DUMMY => exact hu

theorem reached_pad (hd : s'.activeCommand = .PAD) (hp : s'.port = false) (hn : s'.newCommand = false)
    (hm : s'.memcard = s.memcard)
    (h : s'.pad = (if first then G.startTransfer value s.pad else G.writeSIO value s.pad).2) :
    Reached G first value s s' := by
  unfold Reached
  rw [hd]
  exact (if_neg (by rw [hp]; decide)).mpr ⟨hn, hm, h⟩

theorem reached_card (hd : s'.activeCommand = .MEMCARD) (hp : s'.port = false) (ho : s.memcard.fileOpened = true)
    (hn : s'.newCommand = false) (hpad : s'.pad = s.pad)
    (h : if first then Gives startTransfer s.memcard ⟨⟩ s'.memcard
      else ∃ reply, Gives (writeSerial value) s.memcard reply s'.memcard) :
    Reached G first value s s' := by
  unfold Reached
  rw [hd]
  exact (if_neg (by rw [hp, ho]; decide)).mpr ⟨hn, hpad, h⟩

theorem meets_pad (hd : s.activeCommand = .PAD) (hnew : Present s → s.newCommand = first) :
    Meets (deviceByte G value) s (fun _ s' => Served G first value s s') fun _ => True := by
  have hpresent : Present s ↔ s.port = false := by
    unfold Present
    rw [hd]
  unfold deviceByte
  simp only [meets_bind, meets_get, hd, meets_modify]
  rw [meets_ite, push, meets_modify, meets_modify]
  constructor
  · intro hp
    have hframe : SameFrame s { s with RECV1 := 0x1100, FIFO := s.FIFO ++ [0x00] } := ⟨rfl, rfl, rfl, rfl, rfl⟩
    rw [← hd]
    refine ⟨⟨_, rfl⟩, hframe, reached_absent hframe ⟨rfl, rfl⟩ ?_⟩
    rw [hpresent]
    exact Bool.not_eq_false _ ▸ hp
  · intro hp
    have hport : s.port = false := Bool.eq_false_iff.mpr hp
    refine ⟨⟨_, rfl⟩, ⟨rfl, rfl, rfl, rfl, hd.symm⟩, reached_pad rfl hport rfl rfl ?_⟩
    rw [← hnew (hpresent.mpr hport)]
    rfl

/-- The card at the start of a transfer. -/
def restarted (c : Memcard) : Memcard := { c with
  cmdLength := 0
  cmdParams := 0
  responseReadPos := 0
  responseWritePos := 0
  responseSize := 0
  authF0DoXor := false
  responseBuffer := fun _ => 0 }

theorem gives_startTransfer (c : Memcard) : Gives startTransfer c ⟨⟩ (restarted c) := gives_modify

theorem meets_card (hd : s.activeCommand = .MEMCARD) (hnew : Present s → s.newCommand = first)
    (hcard : first = true → Present s → value = 0x81) :
    Meets (deviceByte G value) s (fun _ s' => Served G first value s s') fun _ => True := by
  have hpresent : Present s ↔ s.port = false ∧ s.memcard.fileOpened = true := by
    unfold Present
    rw [hd]
  unfold deviceByte
  simp only [meets_bind, meets_get, hd, meets_modify]
  by_cases hp : Present s
  · obtain ⟨hport, hopen⟩ := hpresent.mp hp
    rw [if_neg (by simp only [hport, hopen]; decide)]
    cases first with
    | true =>
      rw [if_pos (hnew hp), if_pos (hcard rfl hp), meets_bind, meets_modify, meets_bind]
      refine meets_onCard ((meets_of_ok (gives_startTransfer s.memcard)).mpr ?_)
      rw [push, meets_modify]
      exact ⟨⟨_, rfl⟩, ⟨rfl, rfl, rfl, rfl, hd.symm⟩,
        reached_card rfl hport hopen rfl rfl (gives_startTransfer s.memcard)⟩
    | false =>
      rw [if_neg (by rw [hnew hp]; decide), meets_bind]
      refine meets_onCard ⟨fun reply c hr => ?_, fun _ _ => trivial⟩
      show Meets (push reply) _ _ _
      rw [push, meets_modify]
      exact ⟨⟨_, rfl⟩, ⟨rfl, rfl, rfl, rfl, hd.symm⟩,
        reached_card rfl hport hopen (hnew hp) rfl (by rw [if_neg Bool.false_ne_true]; exact ⟨reply, hr⟩)⟩
  · have hframe : SameFrame s { s with
        RECV1 := if s.memcard.fileOpened then 0x1100 else 0x1D100, FIFO := s.FIFO ++ [0x00] } :=
      ⟨rfl, rfl, rfl, rfl, rfl⟩
    have hgone : s.port = true ∨ (if s.memcard.fileOpened then (0x1100 : Word) else 0x1D100) = 0x1D100 := by
      cases hport : s.port with
      | true => exact Or.inl rfl
      | false =>
        right
        exact if_neg fun ho => hp (hpresent.mpr ⟨hport, ho⟩)
    rw [if_pos hgone, push, meets_modify, ← hd]
    exact ⟨⟨_, rfl⟩, hframe, reached_absent hframe ⟨rfl, rfl⟩ hp⟩

/-- A byte that a device is given. -/
theorem meets_device (hd : s.activeCommand ≠ .NONE) (hnew : Present s → s.newCommand = first)
    (hcard : first = true → s.activeCommand = .MEMCARD → Present s → value = 0x81) :
    Meets (deviceByte G value) s (fun _ s' => Served G first value s s') fun _ => True := by
  cases h : s.activeCommand with
  | NONE => exact absurd h hd
  | PAD => exact meets_pad h hnew
  | MEMCARD => exact meets_card h hnew fun hf => hcard hf h
  | DUMMY =>
    have hframe : SameFrame s { s with FIFO := s.FIFO ++ [0x00], RECV1 := 0x1D100 } := ⟨rfl, rfl, rfl, rfl, rfl⟩
    have ha : ¬ Present s := by
      unfold Present
      rw [h]
      exact not_false
    unfold deviceByte
    simp only [meets_bind, meets_get, h, push, meets_modify]
    rw [← h]
    exact ⟨⟨_, rfl⟩, hframe, reached_absent hframe ⟨rfl, rfl⟩ ha⟩

/-- A card waits on if the first byte of a command is not 0x81. -/
theorem meets_ignored (hd : s.activeCommand = .MEMCARD) (hp : Present s) (hn : s.newCommand = true)
    (hv : value ≠ 0x81) : Meets (deviceByte G value) s
      (fun _ s' => s'.newCommand = true ∧ SameFrame s s') fun _ => False := by
  obtain ⟨hport, hopen⟩ : s.port = false ∧ s.memcard.fileOpened = true := by
    unfold Present at hp
    rwa [hd] at hp
  unfold deviceByte
  simp only [meets_bind, meets_get, hd, meets_modify]
  rw [if_neg (by simp only [hport, hopen]; decide), if_pos hn, if_neg hv, push, meets_modify]
  exact ⟨hn, ⟨rfl, rfl, rfl, rfl, hd.symm⟩⟩

/-! ### The schedule -/

theorem lengthOf_le (w : Word) : lengthOf w ≤ 0x1FF := by
  unfold lengthOf
  rw [BitVec.toNat_and]
  exact Nat.and_le_right

variable {send3 : ℤ → Word} {n i m : ℕ} {x : Slot}

theorem lastOf_succ (h : m < lengthOf (send3 i)) :
    lastOf send3 i (m + 1) = ⟨i, lengthOf (send3 i) - (m + 1)⟩ :: lastOf send3 i m := by
  unfold lastOf
  rw [List.range'_succ, List.map_cons, show lengthOf (send3 i) - (m + 1) + 1 = lengthOf (send3 i) - m by omega]

theorem lastOf_entry (h : x ∈ lastOf send3 i m) : x.entry = i := by
  obtain ⟨k, -, rfl⟩ := List.mem_map.mp h
  rfl

theorem schedule_entry : ∀ n i, x ∈ schedule send3 n i → i ≤ x.entry
  | 0, _, h => absurd h List.not_mem_nil
  | n + 1, i, h => by
    unfold schedule at h
    split_ifs at h
    · exact absurd h List.not_mem_nil
    · rcases List.mem_append.mp h with h | h
      · exact (lastOf_entry h).ge
      · exact (Nat.le_succ i).trans (schedule_entry n (i + 1) h)

theorem schedule_cons (hw : send3 i ≠ 0) (hm : lengthOf (send3 i) = m + 1) :
    schedule send3 (n + 1) i = ⟨i, 0⟩ :: (lastOf send3 i m ++ schedule send3 n (i + 1)) := by
  rw [schedule, if_neg hw, hm, lastOf_succ (by omega), hm, Nat.sub_self]
  rfl

/-- A schedule begins with the first byte of a command. -/
theorem schedule_head : ∀ n i, ∀ x ∈ (schedule send3 n i).head?, x.offset = 0
  | 0, _, x, h => by cases h
  | n + 1, i, x, h => by
    unfold schedule at h
    split_ifs at h
    · cases h
    · cases hl : lengthOf (send3 i) with
      | zero =>
        rw [hl] at h
        exact schedule_head n (i + 1) x h
      | succ m =>
        rw [hl, lastOf_succ (by omega), List.cons_append, List.head?_cons, Option.mem_some_iff] at h
        rw [← h, hl]
        exact Nat.sub_self _

/-! ### The invariant -/

/-- Between two commands. -/
structure Between (l : Session P) (p : ℕ) : Prop where
  bound : p ≤ 16
  send3Port : l.io.send3Port = p
  commandLength : l.io.commandLength = 0
  left : l.left = schedule l.io.send3 (16 - p) p

/-- Within a command, which still takes `m + 1` bytes. -/
structure Amid (l : Session P) (i m : ℕ) : Prop where
  bound : i < 16
  send3Port : l.io.send3Port = i + 1
  commandLength : l.io.commandLength = m + 1
  length : m + 1 < lengthOf (l.io.send3 i)
  port : l.io.port = (l.io.send3 i).getLsbD 0
  chosen : l.io.activeCommand ≠ .NONE
  begun : Present l.io → l.io.newCommand = false
  left : l.left = lastOf l.io.send3 i (m + 1) ++ schedule l.io.send3 (15 - i) (i + 1)

def Inv (l : Session P) : Prop := (∃ p, Between l p) ∨ ∃ i m, Amid l i m

theorem card_begun (h : Reached G first value s s') (hd : s'.activeCommand = .MEMCARD) (hp : s'.port = false)
    (ho : s.memcard.fileOpened = true) : s'.newCommand = false := by
  unfold Reached at h
  rw [hd] at h
  exact ((if_neg (by rw [hp, ho]; decide)).mp h).1

theorem present_begun (h : Reached G first value s s') (hp : Present s') : s'.newCommand = false := by
  unfold Present at hp
  cases hd : s'.activeCommand with
  | PAD =>
    unfold Reached at h
    rw [hd] at h hp
    exact ((if_neg (by rw [hp]; decide)).mp h).1
  | MEMCARD =>
    rw [hd] at hp
    by_cases ho : s.memcard.fileOpened = true
    · exact card_begun h hd hp.1 ho
    · unfold Reached at h
      rw [hd] at h
      have hu : Untouched s s' := (if_pos (Or.inr (Bool.eq_false_iff.mpr ho))).mp h
      exact absurd (hu.2 ▸ hp.2) ho
  | NONE =>
    rw [hd] at hp
    exact hp.elim
  | DUMMY =>
    rw [hd] at hp
    exact hp.elim

/-- The state when a byte is given to the device. -/
def sent (value : Byte) (s : SIO2 P) : SIO2 P :=
  { s with commandLength := s.commandLength - 1, activeCommand := choose value s.activeCommand }

theorem choose_ne (value : Byte) (d : SIO_DEVICE) : choose value d ≠ .NONE := by
  cases d with
  | NONE =>
    unfold choose
    split_ifs <;> decide
  | PAD => exact (by decide : SIO_DEVICE.PAD ≠ .NONE)
  | MEMCARD => exact (by decide : SIO_DEVICE.MEMCARD ≠ .NONE)
  | DUMMY => exact (by decide : SIO_DEVICE.DUMMY ≠ .NONE)

theorem effect_of_served {f : SIO2 P} (hs : Served G first value (sent value f) s') (hi : i < 16)
    (hp : f.send3Port = i + 1) (hc : f.commandLength = m + 1) (hm : m < lengthOf (f.send3 i))
    (hport : f.port = (f.send3 i).getLsbD 0) (hfirst : first = decide (lengthOf (f.send3 i) - (m + 1) = 0)) :
    (∃ reply, s'.FIFO = f.FIFO ++ [reply]) ∧
      Effect G value f s' (.ofCommand ⟨i, lengthOf (f.send3 i) - (m + 1)⟩) ∧
      Inv ⟨s', lastOf f.send3 i m ++ schedule f.send3 (15 - i) (i + 1)⟩ := by
  have hsend3 : s'.send3 = f.send3 := hs.frame.send3
  have hp' : s'.send3Port = i + 1 := hs.frame.send3Port.trans hp
  have hc' : s'.commandLength = m := by
    have hlength : s'.commandLength = f.commandLength - 1 := hs.frame.commandLength
    omega
  have hport' : s'.port = (f.send3 i).getLsbD 0 := hs.frame.port.trans hport
  refine ⟨hs.answered, ⟨hp', ?_, hport', hs.frame.activeCommand, ?_⟩, ?_⟩
  · show s'.commandLength = lengthOf (f.send3 i) - ((lengthOf (f.send3 i) - (m + 1) : ℕ) + 1)
    omega
  · have hreached := hs.reached
    rw [hfirst] at hreached
    exact hreached
  · cases m with
    | zero =>
      refine Or.inl ⟨i + 1, by omega, hp', hc', ?_⟩
      show lastOf f.send3 i 0 ++ _ = schedule s'.send3 (16 - (i + 1)) (i + 1)
      rw [hsend3, show 16 - (i + 1) = 15 - i by omega]
      rfl
    | succ m =>
      have hchosen : s'.activeCommand ≠ .NONE := hs.frame.activeCommand ▸ choose_ne value f.activeCommand
      refine Or.inr ⟨i, m, hi, hp', by rw [hc']; rfl, ?_, ?_, hchosen, present_begun hs.reached, ?_⟩
      · show m + 1 < lengthOf (s'.send3 i)
        rwa [hsend3]
      · show s'.port = (s'.send3 i).getLsbD 0
        rwa [hsend3]
      · show _ = lastOf s'.send3 i (m + 1) ++ schedule s'.send3 (15 - i) (i + 1)
        rw [hsend3]

/-! ### A byte for `write_serial` -/

variable {left : List Slot} {beyond : Word} {p : ℕ}

theorem serial_device (value : Byte) (h : (fetchCommand beyond s).commandLength ≠ 0) :
    (sio2WriteSerial G value beyond).run s = (deviceByte G value).run (sent value (fetchCommand beyond s)) := by
  have hrun : (sio2WriteSerial G value beyond).run s =
      StateT.run (if (fetchCommand beyond s).commandLength ≠ 0 then do
        modify fun s => { s with commandLength := s.commandLength - 1 }
        writeDevice G value
      else push 0xFF) (fetchCommand beyond s) := rfl
  rw [hrun, if_pos h]
  rfl

theorem serial_none (value : Byte) (h : (fetchCommand beyond s).commandLength = 0) :
    Gives (sio2WriteSerial G value beyond) s ⟨⟩
      { fetchCommand beyond s with FIFO := (fetchCommand beyond s).FIFO ++ [0xFF] } := by
  have hrun : (sio2WriteSerial G value beyond).run s =
      StateT.run (if (fetchCommand beyond s).commandLength ≠ 0 then do
        modify fun s => { s with commandLength := s.commandLength - 1 }
        writeDevice G value
      else push 0xFF) (fetchCommand beyond s) := rfl
  unfold Gives
  rw [hrun, if_neg (not_not.mpr h)]
  rfl

theorem fetch_amid (h : s.commandLength ≠ 0) : fetchCommand beyond s = s := if_neg fun hc => h hc.1

theorem nextSend3_eq (hp : s.send3Port = p) (h : p < 16) : nextSend3 beyond s = s.send3 p := by
  unfold nextSend3
  rw [if_pos ⟨by omega, by omega⟩, hp]

/-- The command of a register that is not zero. -/
def fetched (w : Word) (s : SIO2 P) : SIO2 P :=
  { s with
    commandLength := lengthOf w
    port := w.getLsbD 0
    send3Port := s.send3Port + 1
    newCommand := true }

theorem fetch_nonzero (beyond : Word) (hc : s.commandLength = 0) (hp : s.send3Port = p) (h : p < 16) (hw : s.send3 p ≠ 0) :
    fetchCommand beyond s = fetched (s.send3 p) s := by
  unfold fetchCommand
  rw [nextSend3_eq hp h, if_pos ⟨hc, hw⟩]
  rfl

theorem fetch_zero (beyond : Word) (hp : s.send3Port = p) (h : p < 16) (hw : s.send3 p = 0) : fetchCommand beyond s = s := by
  unfold fetchCommand
  rw [nextSend3_eq hp h]
  exact if_neg fun hc => hc.2 hw

/-- A later byte of a command. -/
theorem amid_byte (h : Amid ⟨s, left⟩ i m) (hg : Gives (sio2WriteSerial G value beyond) s ⟨⟩ s') :
    (∃ reply, s'.FIFO = s.FIFO ++ [reply]) ∧
      Effect G value s s' (.ofCommand ⟨i, lengthOf (s.send3 i) - (m + 1)⟩) ∧ Inv ⟨s', left.tail⟩ := by
  have hlength : m + 1 < lengthOf (s.send3 i) := h.length
  have hc : s.commandLength = m + 1 := h.commandLength
  have hleft : left = lastOf s.send3 i (m + 1) ++ schedule s.send3 (15 - i) (i + 1) := h.left
  have hchoose : choose value s.activeCommand = s.activeCommand := by
    have hchosen := h.chosen
    cases hd : s.activeCommand with
    | NONE => exact absurd hd hchosen
    | PAD => rfl
    | MEMCARD => rfl
    | DUMMY => rfl
  have hfetch : fetchCommand beyond s = s := fetch_amid (by omega)
  have hdevice : Gives (deviceByte G value) (sent value s) ⟨⟩ s' := by
    have hrun := serial_device (G := G) (s := s) value (by rw [hfetch]; omega)
    rw [hfetch] at hrun
    exact hrun.symm.trans hg
  have hpresent : Present (sent value s) → s.newCommand = false := by
    intro hp
    refine h.begun ?_
    unfold Present sent at hp
    rwa [hchoose] at hp
  have hserved : Served G false value (sent value s) s' :=
    (meets_device (s := sent value s) (choose_ne value s.activeCommand) hpresent
      fun hf => absurd hf Bool.false_ne_true).1 _ _ hdevice
  have heffect := effect_of_served hserved h.bound h.send3Port hc (by omega) h.port
    (by rw [decide_eq_false (by omega)])
  rw [hleft, lastOf_succ (by omega)]
  exact heffect

/-- The first byte of a command. -/
theorem first_byte (h : Between ⟨s, left⟩ p) (hp : p < 16) (hw : s.send3 p ≠ 0) (hl : lengthOf (s.send3 p) ≠ 0)
    (hcard : choose value s.activeCommand = .MEMCARD → (s.send3 p).getLsbD 0 = false →
      s.memcard.fileOpened = true → value = 0x81)
    (hg : Gives (sio2WriteSerial G value beyond) s ⟨⟩ s') :
    (∃ reply, s'.FIFO = s.FIFO ++ [reply]) ∧ Effect G value s s' (.ofCommand ⟨p, 0⟩) ∧ Inv ⟨s', left.tail⟩ := by
  obtain ⟨m, hm⟩ := Nat.exists_eq_succ_of_ne_zero hl
  have hleft : left = schedule s.send3 (16 - p) p := h.left
  have hfetch := fetch_nonzero beyond h.commandLength h.send3Port hp hw
  have hlength : (fetched (s.send3 p) s).commandLength = m + 1 := by
    show ((lengthOf (s.send3 p) : ℕ) : ℤ) = m + 1
    omega
  have hdevice : Gives (deviceByte G value) (sent value (fetched (s.send3 p) s)) ⟨⟩ s' := by
    have hrun := serial_device (G := G) (s := s) value
      (by rw [hfetch, hlength]; omega)
    rw [hfetch] at hrun
    exact hrun.symm.trans hg
  have hserved : Served G true value (sent value (fetched (s.send3 p) s)) s' :=
    (meets_device (choose_ne value s.activeCommand) (fun _ => rfl) (fun _ hd hpresent => by
      unfold Present at hpresent
      rw [hd] at hpresent
      exact hcard hd hpresent.1 hpresent.2)).1 _ _ hdevice
  have hport : (fetched (s.send3 p) s).send3Port = p + 1 := congrArg (· + 1) h.send3Port
  obtain ⟨hanswer, heffect, hinv⟩ := effect_of_served (m := m) hserved hp hport hlength (by
    show m < lengthOf (s.send3 p)
    omega) rfl (by
    show true = decide (lengthOf (s.send3 p) - (m + 1) = 0)
    rw [decide_eq_true (by omega)])
  have hoffset : lengthOf ((fetched (s.send3 p) s).send3 p) - (m + 1) = 0 := by
    show lengthOf (s.send3 p) - (m + 1) = 0
    omega
  rw [hoffset] at heffect
  refine ⟨hanswer, heffect, ?_⟩
  rw [hleft, show 16 - p = 15 - p + 1 by omega, schedule_cons hw hm]
  exact hinv

theorem entry_eq {l : Session P} (h : Between l p) : entry l.io = l.io.send3 p := by
  unfold entry
  rw [h.send3Port]

/-- A register without bytes answers a byte and is done. -/
theorem gives_swallowed (h : Between ⟨s, left⟩ p) (hp : p < 16) (hw : s.send3 p ≠ 0) (hl : lengthOf (s.send3 p) = 0) :
    Gives (sio2WriteSerial G value beyond) s ⟨⟩ { fetched (s.send3 p) s with FIFO := s.FIFO ++ [0xFF] } := by
  have hfetch := fetch_nonzero beyond h.commandLength h.send3Port hp hw
  have hnone := serial_none (G := G) (s := s) value (by
    rw [hfetch]
    exact congrArg Nat.cast hl)
  rw [hfetch] at hnone
  exact hnone

/-- A byte behind the last command. -/
theorem behind_byte (h : Between ⟨s, []⟩ p) (hp : p < 16) (hg : Gives (sio2WriteSerial G value beyond) s ⟨⟩ s') :
    (∃ reply, s'.FIFO = s.FIFO ++ [reply]) ∧ Untouched s s' ∧ Inv ⟨s', []⟩ := by
  have hleft : [] = schedule s.send3 (15 - p + 1) p := by
    rw [show 15 - p + 1 = 16 - p by omega]
    exact h.left
  by_cases hw : s.send3 p = 0
  · have hfetch := fetch_zero beyond h.send3Port hp hw
    have hnone := serial_none (G := G) (s := s) value (by
      rw [hfetch]
      exact h.commandLength)
    rw [hfetch] at hnone
    obtain ⟨-, rfl⟩ := Prod.mk.inj (Except.ok.inj (hg.symm.trans hnone))
    exact ⟨⟨_, rfl⟩, ⟨rfl, rfl⟩, Or.inl ⟨p, h.bound, h.send3Port, h.commandLength, h.left⟩⟩
  · rcases Nat.eq_zero_or_pos (lengthOf (s.send3 p)) with hl | hl
    · obtain ⟨-, rfl⟩ := Prod.mk.inj (Except.ok.inj (hg.symm.trans (gives_swallowed h hp hw hl)))
      refine ⟨⟨_, rfl⟩, ⟨rfl, rfl⟩, Or.inl ⟨p + 1, by omega, congrArg (· + 1) h.send3Port, congrArg Nat.cast hl, ?_⟩⟩
      rw [schedule, if_neg hw, hl] at hleft
      rw [show 16 - (p + 1) = 15 - p by omega]
      exact hleft
    · obtain ⟨m, hm⟩ := Nat.exists_eq_succ_of_ne_zero hl.ne'
      rw [schedule_cons hw hm] at hleft
      cases hleft

/-! ### The condition -/

variable {l : Session P} {a : Action} {byDma : Bool}

theorem kind_command {x : Slot} {xs : List Slot} (hleft : l.left = x :: xs) (hpad : ¬ (byDma ∧ Padding l)) :
    kindOf l byDma = .ofCommand x := by
  unfold kindOf
  rw [if_neg hpad, hleft]

theorem kind_behind (hleft : l.left = []) (hpad : ¬ (byDma ∧ Padding l)) : kindOf l byDma = .behind := by
  unfold kindOf
  rw [if_neg hpad, hleft]

theorem rest_kind (hpad : ¬ (byDma ∧ Padding l)) : rest l (kindOf l byDma) = l.left.tail := by
  cases hleft : l.left with
  | nil =>
    rw [kind_behind hleft hpad]
    exact hleft
  | cons x xs =>
    rw [kind_command hleft hpad]
    exact congrArg List.tail hleft

theorem padding_between (h : Between l p) : Padding l ↔ l.io.dmaBytesReceived % 0x90 ≠ 0 := by
  refine and_iff_right fun x hx => ?_
  rw [h.left] at hx
  exact schedule_head _ _ x hx

theorem left_amid (h : Amid l i m) : l.left = ⟨i, lengthOf (l.io.send3 i) - (m + 1)⟩ ::
    (lastOf l.io.send3 i m ++ schedule l.io.send3 (15 - i) (i + 1)) := by
  have hlength := h.length
  rw [h.left, lastOf_succ (by omega), List.cons_append]

theorem not_padding_amid (h : Amid l i m) : ¬ Padding l := by
  have hlength := h.length
  rintro ⟨hhead, -⟩
  have hzero := hhead _ (by rw [left_amid h]; rfl)
  simp only at hzero
  omega

/-- The count of the bytes by DMA is no matter of `write_serial`. -/
def counted (n : ℕ) (s : SIO2 P) : SIO2 P := { s with dmaBytesReceived := n }

/-- What a byte does, with the invariant behind it. -/
structure Dealt (G : Gamepad P) (l : Session P) (value : Byte) (byDma : Bool) (s' : SIO2 P) : Prop where
  answered : ∃ reply, s'.FIFO = l.io.FIFO ++ [reply]
  effect : Effect G value l.io s' (kindOf l byDma)
  inv : Inv ⟨s', rest l (kindOf l byDma)⟩

theorem dealt_between (h : Between l p) (hpad : ¬ (byDma ∧ Padding l)) (hf : FineByte l value) {n : ℕ}
    (hg : Gives (sio2WriteSerial G value beyond) (counted n l.io) ⟨⟩ s') : Dealt G l value byDma s' := by
  obtain ⟨hindex, hempty, hcard⟩ := hf
  rw [entry_eq h] at hempty hcard
  have hport := h.send3Port
  have hp : p < 16 := by omega
  have hat : Between ⟨counted n l.io, l.left⟩ p := ⟨h.bound, h.send3Port, h.commandLength, h.left⟩
  have hrest := rest_kind hpad
  cases hleft : l.left with
  | nil =>
    have hkind := kind_behind hleft hpad
    rw [hleft] at hat hrest
    obtain ⟨hanswer, heffect, hinv⟩ := behind_byte hat hp hg
    exact ⟨hanswer, hkind ▸ heffect, hrest ▸ hinv⟩
  | cons x xs =>
    have hschedule : x :: xs = schedule l.io.send3 (15 - p + 1) p := by
      rw [← hleft, h.left, show 16 - p = 15 - p + 1 by omega]
    have hw : l.io.send3 p ≠ 0 := by
      intro hw
      rw [schedule, if_pos hw] at hschedule
      cases hschedule
    have hl : lengthOf (l.io.send3 p) ≠ 0 := by
      intro hl
      cases hleft.symm.trans (hempty hw hl)
    obtain ⟨m, hm⟩ := Nat.exists_eq_succ_of_ne_zero hl
    rw [schedule_cons hw hm] at hschedule
    obtain ⟨rfl, -⟩ := List.cons.inj hschedule
    obtain ⟨hanswer, heffect, hinv⟩ := first_byte hat hp hw hl (hcard hw hl) hg
    exact ⟨hanswer, kind_command hleft hpad ▸ heffect, hrest ▸ hinv⟩

theorem dealt_amid (h : Amid l i m) {n : ℕ}
    (hg : Gives (sio2WriteSerial G value beyond) (counted n l.io) ⟨⟩ s') : Dealt G l value byDma s' := by
  have hat : Amid ⟨counted n l.io, l.left⟩ i m :=
    ⟨h.bound, h.send3Port, h.commandLength, h.length, h.port, h.chosen, h.begun, h.left⟩
  have hpad : ¬ (byDma ∧ Padding l) := fun hp => not_padding_amid h hp.2
  obtain ⟨hanswer, heffect, hinv⟩ := amid_byte hat hg
  exact ⟨hanswer, kind_command (left_amid h) hpad ▸ heffect, rest_kind hpad ▸ hinv⟩

theorem not_looks_amid (h : Amid l i m) : ¬ Looks l.io byDma := by
  rintro ⟨hc, -⟩
  have hc' := h.commandLength
  omega

/-- A byte by DMA between two commands. -/
theorem dealt_padding (h : Between l p) (hp : l.io.dmaBytesReceived % 0x90 ≠ 0) :
    Dealt G l value true { counted (l.io.dmaBytesReceived + 1) l.io with FIFO := l.io.FIFO ++ [0x00] } := by
  have hkind : kindOf l true = .padding := if_pos ⟨rfl, (padding_between h).mpr hp⟩
  refine ⟨⟨_, rfl⟩, ?_, ?_⟩
  · rw [hkind]
    exact ⟨⟨rfl, rfl⟩, rfl, rfl⟩
  · rw [hkind]
    exact Or.inl ⟨p, h.bound, h.send3Port, h.commandLength, h.left⟩

/-- The bytes of a session that the code looks a register up for. -/
theorem fine_of_dealt (h : Between l p) (hpad : ¬ (byDma ∧ Padding l)) (hp : p < 16) {n : ℕ}
    (hg : ∀ s', Gives (sio2WriteSerial G value beyond) (counted n l.io) ⟨⟩ s' →
      Effect G value l.io s' (kindOf l byDma)) : FineByte l value := by
  have hat : Between ⟨counted n l.io, l.left⟩ p := ⟨h.bound, h.send3Port, h.commandLength, h.left⟩
  have hport := h.send3Port
  refine ⟨by omega, ?_, ?_⟩
  · rw [entry_eq h]
    intro hw hl
    cases hleft : l.left with
    | nil => rfl
    | cons x xs =>
      have heffect := hg _ (gives_swallowed hat hp hw hl)
      rw [kind_command hleft hpad] at heffect
      have hentry : p + 1 ≤ x.entry := by
        have hx : x ∈ schedule l.io.send3 (15 - p + 1) p := by
          rw [show 15 - p + 1 = 16 - p by omega, ← h.left, hleft]
          exact List.mem_cons_self
        rw [schedule, if_neg hw, hl] at hx
        exact schedule_entry _ _ hx
      have hnext : l.io.send3Port + 1 = x.entry + 1 := heffect.1
      omega
  · rw [entry_eq h]
    intro hw hl hd hbit ho
    by_contra hv
    obtain ⟨m, hm⟩ := Nat.exists_eq_succ_of_ne_zero hl
    have hleft : l.left = ⟨p, 0⟩ :: (lastOf l.io.send3 p m ++ schedule l.io.send3 (15 - p) (p + 1)) := by
      rw [h.left, show 16 - p = 15 - p + 1 by omega, schedule_cons hw hm]
    have hfetch : fetchCommand beyond (counted n l.io) = fetched (l.io.send3 p) (counted n l.io) :=
      fetch_nonzero beyond hat.commandLength hat.send3Port hp hw
    have hrun := serial_device (G := G) (s := counted n l.io) value (by
      rw [hfetch]
      show ((lengthOf (l.io.send3 p) : ℕ) : ℤ) ≠ 0
      omega)
    rw [hfetch] at hrun
    have hpresent : Present (sent value (fetched (l.io.send3 p) (counted n l.io))) := by
      unfold Present
      rw [show (sent value (fetched (l.io.send3 p) (counted n l.io))).activeCommand = .MEMCARD from hd]
      exact ⟨hbit, ho⟩
    obtain ⟨_, s', hgives, hnew, hframe⟩ := (meets_ignored (G := G) hd hpresent rfl hv).gives
    have heffect := hg s' (hrun.trans hgives)
    rw [kind_command hleft hpad] at heffect
    obtain ⟨-, -, -, -, hreached⟩ := heffect
    have hbegun := card_begun hreached (hframe.activeCommand.trans hd) (hframe.port.trans hbit) ho
    exact absurd (hnew.symm.trans hbegun) (by decide)

/-- A byte that is handed to `write_serial`. -/
structure Handed (G : Gamepad P) (l : Session P) (a : Action) (value : Byte) (byDma : Bool) : Prop where
  unpadded : l.io.commandLength = 0 → byDma → l.io.dmaBytesReceived % 0x90 = 0
  run : ∃ n beyond, ∀ s', Gives (a.exec G) l.io ⟨⟩ s' ↔
    Gives (sio2WriteSerial G value beyond) (counted n l.io) ⟨⟩ s'

theorem Handed.not_padding (hh : Handed G l a value byDma) (h : Between l p) : ¬ (byDma ∧ Padding l) := by
  rintro ⟨hb, hp⟩
  exact (padding_between h).mp hp (hh.unpadded h.commandLength hb)

theorem Handed.dealt (hh : Handed G l a value byDma) (h : Inv l) (hf : Looks l.io byDma → FineByte l value)
    (hg : Gives (a.exec G) l.io ⟨⟩ s') : Dealt G l value byDma s' := by
  obtain ⟨n, beyond, hrun⟩ := hh.run
  rcases h with ⟨p, h⟩ | ⟨i, m, h⟩
  · exact dealt_between h (hh.not_padding h) (hf ⟨h.commandLength, hh.unpadded h.commandLength⟩) ((hrun s').mp hg)
  · exact dealt_amid h ((hrun s').mp hg)

theorem Handed.good_iff (hh : Handed G l a value byDma) (h : Inv l) :
    GoodByte G l a value byDma ↔ (Looks l.io byDma → FineByte l value) := by
  constructor
  · intro hg hl
    obtain ⟨n, beyond, hrun⟩ := hh.run
    rcases h with ⟨p, h⟩ | ⟨i, m, h⟩
    · have hindex := hg.index hl
      have hport := h.send3Port
      exact fine_of_dealt h (hh.not_padding h) (by omega) fun s' hs => (hg.answered s' ((hrun s').mpr hs)).2
    · exact absurd hl (not_looks_amid h)
  · intro hf
    refine ⟨fun hl => ?_, fun s' hg => ?_⟩
    · have hindex := (hf hl).index
      rcases h with ⟨p, h⟩ | ⟨i, m, h⟩
      · have hport := h.send3Port
        omega
      · exact absurd hl (not_looks_amid h)
    · have hdealt := hh.dealt h hf hg
      exact ⟨hdealt.answered, hdealt.effect⟩

theorem handed_serial : Handed G l (.writeSerial value beyond) value false :=
  ⟨fun _ hb => absurd hb Bool.false_ne_true, l.io.dmaBytesReceived, beyond, fun _ => Iff.rfl⟩

theorem handed_dma (h : ¬ (l.io.commandLength = 0 ∧ l.io.dmaBytesReceived % 0x90 ≠ 0)) :
    Handed G l (.writeDma value beyond) value true := by
  refine ⟨fun hc _ => ?_, l.io.dmaBytesReceived + 1, beyond, fun s' => ?_⟩
  · by_contra hn
    exact h ⟨hc, hn⟩
  · have hrun : (writeDma G value beyond).run l.io =
        StateT.run (if l.io.commandLength = 0 ∧ l.io.dmaBytesReceived % 0x90 ≠ 0 then do
          modify fun s => { s with dmaBytesReceived := s.dmaBytesReceived + 1 }
          push 0x00
        else do
          modify fun s => { s with dmaBytesReceived := s.dmaBytesReceived + 1 }
          sio2WriteSerial G value beyond) l.io := rfl
    unfold Gives
    show (writeDma G value beyond).run l.io = _ ↔ _
    rw [hrun, if_neg h]
    exact Iff.rfl

/-- A byte of padding is not looked up, and does what is asked of it. -/
theorem padded_dma (h : Inv l) (hp : l.io.commandLength = 0 ∧ l.io.dmaBytesReceived % 0x90 ≠ 0)
    (hg : Gives (writeDma G value beyond) l.io ⟨⟩ s') : Dealt G l value true s' := by
  rcases h with ⟨p, h⟩ | ⟨i, m, h⟩
  · have hgives : Gives (writeDma G value beyond) l.io ⟨⟩
        { counted (l.io.dmaBytesReceived + 1) l.io with FIFO := l.io.FIFO ++ [0x00] } := by
      unfold writeDma
      refine gives_get.bind ?_
      rw [if_pos hp]
      exact gives_modify.bind gives_modify
    obtain ⟨-, rfl⟩ := Prod.mk.inj (Except.ok.inj (hg.symm.trans hgives))
    exact dealt_padding h hp.2
  · have hc := h.commandLength
    omega

theorem not_looks_padded (hp : l.io.commandLength = 0 ∧ l.io.dmaBytesReceived % 0x90 ≠ 0) : ¬ Looks l.io true :=
  fun hl => hp.2 (hl.2 rfl)

/-- **The condition is exact** for each step. -/
theorem good_iff_fine (h : Inv l) (a : Action) : Good G l a ↔ Fine l a := by
  cases a with
  | writeSerial value beyond => exact handed_serial.good_iff h
  | writeDma value beyond =>
    by_cases hp : l.io.commandLength = 0 ∧ l.io.dmaBytesReceived % 0x90 ≠ 0
    · refine iff_of_true ⟨fun hl => absurd hl (not_looks_padded hp), fun s' hg => ?_⟩
        fun hl => absurd hl (not_looks_padded hp)
      have hdealt := padded_dma h hp hg
      exact ⟨hdealt.answered, hdealt.effect⟩
    · exact (handed_dma hp).good_iff h
  | dmaReset => exact Iff.rfl
  | readSerial => exact Iff.rfl

/-- What has nothing to do with the bytes keeps the invariant. -/
theorem inv_other (h : Inv l) {n : ℕ} {fifo : List Byte} :
    Inv ⟨{ l.io with dmaBytesReceived := n, FIFO := fifo }, l.left⟩ := by
  rcases h with ⟨p, h⟩ | ⟨i, m, h⟩
  · exact Or.inl ⟨p, h.bound, h.send3Port, h.commandLength, h.left⟩
  · exact Or.inr ⟨i, m, h.bound, h.send3Port, h.commandLength, h.length, h.port, h.chosen, h.begun, h.left⟩

/-- **The step lemma.** -/
theorem inv_step {l' : Session P} (h : Inv l) (hf : Fine l a) (hs : Step G l a l') : Inv l' := by
  obtain ⟨io, left⟩ := l'
  obtain ⟨hg, rfl⟩ := hs
  cases a with
  | writeSerial value beyond => exact (handed_serial.dealt h hf hg).inv
  | writeDma value beyond =>
    by_cases hp : l.io.commandLength = 0 ∧ l.io.dmaBytesReceived % 0x90 ≠ 0
    · exact (padded_dma h hp hg).inv
    · exact ((handed_dma hp).dealt h hf hg).inv
  | dmaReset =>
    cases hg
    exact inv_other h
  | readSerial =>
    cases hg
    exact inv_other h

theorem inv_start {w : Word} (hw : w.getLsbD 0 = false) (s : SIO2 P) : Inv (start w s) := by
  have hcontrol : setControl w s =
      { s with control := 0, activeCommand := .NONE, send3Port := 0, commandLength := 0 } := if_neg (by rw [hw]; decide)
  unfold start
  rw [hcontrol]
  exact Or.inl ⟨0, Nat.zero_le 16, rfl, rfl, rfl⟩

/-- **The run lemma.** -/
theorem along_iff (h : Inv l) (as : List Action) : Along (Step G) (Good G) l as ↔ Along (Step G) Fine l as :=
  along_congr (fun _ a hl => good_iff_fine hl a) (fun _ _ _ hl hf hs => inv_step hl hf hs) as h

theorem send3Index_lt {address i : ℕ} (h : send3Index address = some i) : i < 16 := by
  unfold send3Index at h
  split_ifs at h with ha
  cases h
  omega

/-- **The framing of SIO2.** After a control write that resets the interface, the bytes of a run are dealt out as
the registers tell if and only if no byte finds the registers at their end, an entry without bytes before another
command, or an inserted card with another first byte than 0x81. -/
theorem framed_iff {w : Word} (hw : w.getLsbD 0 = false) (s : SIO2 P) (as : List Action) :
    Framed G (start w s) as ↔ Along (Step G) Fine (start w s) as := by
  have hiff : Along (Step G) (Good G) (start w s) as ↔ Along (Step G) Fine (start w s) as :=
    along_iff (inv_start hw s) as
  exact ⟨fun h => hiff.mp h.bytes, fun h => ⟨fun _ _ => send3Index_lt, hiff.mpr h⟩⟩

/-! ### Sixteen commands of a byte -/

def noPad : Gamepad Unit := ⟨fun _ p => (0xFF, p), fun _ p => (0, p)⟩

def noCard : Memcard :=
  { specs := ⟨0, 0, 0⟩
    mem := fun _ => 0
    cmdLength := 0
    cmdParams := 0
    cmd := 0
    terminator := 0x55
    fileOpened := false
    isDirty := false
    responseBuffer := fun _ => 0
    responseReadPos := 0
    responseWritePos := 0
    responseSize := 0
    memAddr := 0
    memWriteSize := 0
    authF0DoXor := false
    authF0Checksum := 0 }

/-- The interface after `n` of the commands. -/
def after (n : ℕ) : SIO2 Unit :=
  { send3 := fun _ => 0x100
    RECV1 := 0x1D100
    port := false
    dmaBytesReceived := 0
    FIFO := List.replicate n 0
    control := 0
    newCommand := n != 0
    activeCommand := if n = 0 then .NONE else .DUMMY
    commandLength := 0
    send3Port := n
    pad := ()
    memcard := noCard }

def sessionAfter (n : ℕ) : Session Unit := ⟨after n, (List.range' n (16 - n)).map fun i => ⟨i, 0⟩⟩

theorem session_step : ∀ n < 16, Step noPad (sessionAfter n) (.writeSerial 0x02 0) (sessionAfter (n + 1)) := by
  intro n hn
  interval_cases n <;> exact ⟨rfl, rfl⟩

theorem framed_iff_sixteen : Framed noPad (start 0 (after 0)) (List.replicate 17 (.writeSerial 0x02 0)) ↔
    Along (Step noPad) Fine (start 0 (after 0)) (List.replicate 17 (.writeSerial 0x02 0)) :=
  framed_iff rfl _ _

/-- The seventeenth byte looks for a seventeenth register. -/
theorem not_framed : ¬ ∀ (s : SIO2 Unit) (as : List Action), Framed noPad (start 0 s) as := by
  intro h
  have hrun := (h (after 0) (List.replicate 17 (.writeSerial 0x02 0))).bytes
  have hlast : GoodByte noPad (sessionAfter 16) (.writeSerial 0x02 0) 0x02 false :=
    (Along.repeated (f := sessionAfter) (k := 1) 16 session_step hrun).head
  exact absurd (hlast.index ⟨rfl, fun hb => absurd hb Bool.false_ne_true⟩).2 (by decide)

end DobieStation.Iop.Framing
