import DobieStation.Lib.Reach
import Mathlib.Data.Nat.Notation
import Mathlib.Tactic.Common

/-! # The rendezvous of the main thread with the GS thread

The main thread sends messages to the GS thread and waits for its answers to some of them. Each thread
goes to sleep when its queue is empty, on one condition variable with a mutex, and each has a flag that
tells it not to. The steps of the two threads are taken in any order. -/

namespace DobieStation.Gs.Rendezvous

open DobieStation.Lib.Reach

/-! ### Messages -/

inductive GSCommand where
  | write64 | write64Privileged | write32Privileged
  | setRgba | setSt | setUv | setXyz | setXyzf | setCrt
  | renderCrt | assertFinish | assertHblank | assertVsync | swapField | memdump | die
  | saveState | loadState | gsdump | requestLocalHostTx
  deriving DecidableEq, Repr

inductive GSReturn where
  | renderComplete | deathError | saveStateDone | loadStateDone | gsdumpRenderPartialDone
  | localHostTransfer
  deriving DecidableEq, Repr

/-- The answer of the GS thread. -/
def GSCommand.reply : GSCommand → Option GSReturn
  | .renderCrt => some .renderComplete
  | .memdump => some .gsdumpRenderPartialDone
  | .loadState => some .loadStateDone
  | .saveState => some .saveStateDone
  | .requestLocalHostTx => some .localHostTransfer
  | _ => none

/-! ### The threads -/

inductive Thread where
  | main | gs
  deriving DecidableEq, Repr

/-- What an operation of the main thread is made of. -/
inductive Todo where
  | sendMessage (m : GSCommand)
  | wakeThread
  | waitForReturn (t : GSReturn)
  /-- `thread.join`, then the rest of `GraphicsSynthesizerThread::reset`: new queues and a new thread. -/
  | restart
  deriving DecidableEq, Repr

/-- Where the main thread is. `next` is between two functions. -/
inductive MainPC where
  | next
  | sending (m : GSCommand)
  | notifying
  | wakeUnlocking
  | popping (t : GSReturn)
  /-- Before `was_empty`, with a message that is not the one. -/
  | examining (t k : GSReturn)
  | puttingBack (t k : GSReturn) (last : Bool)
  | locking (t : GSReturn)
  /-- Before the test of `recieve_data` in `wait`, which is made with the mutex held. -/
  | checking (t : GSReturn)
  /-- The test has failed. The thread is about to release the mutex and to block. -/
  | blocking (t : GSReturn)
  | blocked (t : GSReturn)
  | resetting (t : GSReturn)
  | unlocking (t : GSReturn)
  deriving DecidableEq, Repr

/-- Where the GS thread is. -/
inductive GsPC where
  | popping
  | handling (m : GSCommand)
  | replying (k : GSReturn)
  | replyLocking
  | replySetting
  | replyNotifying
  | replyUnlocking
  /-- `recieve_data = true` without the mutex; `last` if the thread ends. -/
  | setting (last : Bool)
  | notifying (last : Bool)
  | locking
  | checking
  | blocking
  | blocked
  | resetting
  | unlocking
  | terminated
  deriving DecidableEq, Repr

structure System where
  messages : List GSCommand
  returns : List GSReturn
  sendData : Bool
  recieveData : Bool
  mutex : Option Thread
  main : MainPC
  todo : List Todo
  gs : GsPC
  deriving DecidableEq, Repr

/-- Who waits for the condition variable goes for the mutex again. -/
def MainPC.notified : MainPC → MainPC
  | .blocked t => .locking t
  | pc => pc

def GsPC.notified : GsPC → GsPC
  | .blocked => .locking
  | pc => pc

def messageCapacity : ℕ := 1024 * 1024 * 16

def returnCapacity : ℕ := 1024

/-! ### Steps -/

variable (s : System)

/-- The acquisition of the mutex, which has to be free. -/
def System.lock (thread : Thread) : Option System :=
  if s.mutex = none then some { s with mutex := some thread } else none

/-- A push to a full queue ends the emulation. -/
def System.pushMessage (m : GSCommand) : Option System :=
  if s.messages.length < messageCapacity then some { s with messages := s.messages ++ [m] } else none

def System.pushReturn (k : GSReturn) : Option System :=
  if s.returns.length < returnCapacity then some { s with returns := s.returns ++ [k] } else none

/-- The main thread starts with the next function. -/
def begin (todo : List Todo) : Todo → Option System
  | .sendMessage m => (s.pushMessage m).map fun s => { s with main := .sending m, todo }
  | .wakeThread => (s.lock .main).map fun s => { s with main := .notifying, todo }
  | .waitForReturn t => some { s with main := .popping t, todo }
  | .restart =>
    if s.gs = .terminated then some { s with messages := [], returns := [], gs := .popping, todo }
    else none

/-- What was popped: `deathError` throws, so that the operation ends. -/
def popped (t : GSReturn) : List GSReturn → System
  | [] => { s with main := .locking t }
  | k :: returns =>
    if k = .deathError then { s with returns, main := .next, todo := [] }
    else if k = t then { s with returns, main := .next }
    else { s with returns, main := .examining t k }

def mainStep : Option System :=
  match s.main with
  | .next =>
    match s.todo with
    | [] => none
    | x :: todo => begin s todo x
  | .sending _ => some { s with sendData := true, main := .next }
  | .notifying => some { s with gs := s.gs.notified, main := .wakeUnlocking }
  | .wakeUnlocking => some { s with mutex := none, main := .next }
  | .popping t => some (popped s t s.returns)
  | .examining t k => some { s with main := .puttingBack t k (s.returns = []) }
  | .puttingBack t k last => (s.pushReturn k).map fun s =>
    { s with main := if last then .locking t else .popping t }
  | .locking t => (s.lock .main).map fun s => { s with main := .checking t }
  | .checking t => some { s with main := if s.recieveData then .resetting t else .blocking t }
  | .blocking t => some { s with mutex := none, main := .blocked t }
  | .blocked _ => none
  | .resetting t => some { s with recieveData := false, main := .unlocking t }
  | .unlocking t => some { s with mutex := none, main := .popping t }

/-- `event_loop` after the message `m`; `fails` if handling it throws. -/
def handled (m : GSCommand) (fails : Bool) : GsPC :=
  if fails then .replying .deathError
  else if m = .die then .terminated
  else m.reply.elim .popping .replying

/-- The answers are flagged under the mutex, but for that to `save_state_t` and the last one. -/
def replied (k : GSReturn) : GsPC :=
  if k = .deathError then .setting true
  else if k = .saveStateDone then .setting false
  else .replyLocking

def gsStep (fails : Bool) : Option System :=
  match s.gs with
  | .popping =>
    match s.messages with
    | [] => some { s with gs := .locking }
    | m :: messages => some { s with messages, gs := .handling m }
  | .handling m => some { s with gs := handled m fails }
  | .replying k => (s.pushReturn k).map fun s => { s with gs := replied k }
  | .replyLocking => (s.lock .gs).map fun s => { s with gs := .replySetting }
  | .replySetting => some { s with recieveData := true, gs := .replyNotifying }
  | .replyNotifying => some { s with main := s.main.notified, gs := .replyUnlocking }
  | .replyUnlocking => some { s with mutex := none, gs := .popping }
  | .setting last => some { s with recieveData := true, gs := .notifying last }
  | .notifying last =>
    some { s with main := s.main.notified, gs := if last then .terminated else .popping }
  | .locking => (s.lock .gs).map fun s => { s with gs := .checking }
  | .checking => some { s with gs := if s.sendData then .resetting else .blocking }
  | .blocking => some { s with mutex := none, gs := .blocked }
  | .blocked => none
  | .resetting => some { s with sendData := false, gs := .unlocking }
  | .unlocking => some { s with mutex := none, gs := .popping }
  | .terminated => none

/-! ### Operations of the main thread -/

/-- The operations of `GraphicsSynthesizer`. `post` stands for all that only send a message. -/
inductive Operation where
  | post (m : GSCommand)
  | swapCSRField
  | sendDumpRequest
  | wakeGsThread
  | renderCRT
  | getFramebuffer
  | renderPartialFrame
  | loadState
  | saveState
  | requestGsDownload
  | reset
  deriving DecidableEq, Repr

def request (m : GSCommand) (t : GSReturn) : List Todo :=
  [.sendMessage m, .wakeThread, .waitForReturn t]

def Operation.todo : Operation → List Todo
  | .post m => [.sendMessage m]
  | .swapCSRField => [.sendMessage .swapField, .wakeThread]
  | .sendDumpRequest => [.sendMessage .gsdump, .wakeThread]
  | .wakeGsThread => [.wakeThread]
  | .renderCRT => [.sendMessage .renderCrt, .wakeThread]
  | .getFramebuffer => [.waitForReturn .renderComplete]
  | .renderPartialFrame => request .memdump .gsdumpRenderPartialDone
  | .loadState => request .loadState .loadStateDone
  | .saveState => request .saveState .saveStateDone
  | .requestGsDownload => request .requestLocalHostTx .localHostTransfer
  | .reset => [.sendMessage .die, .wakeThread, .restart, .sendMessage .setCrt]

/-- What asks for an answer is not sent by itself. -/
def Operation.allowed : Operation → Bool
  | .post m => m.reply = none
  | _ => true

inductive Act where
  | call (o : Operation)
  | main
  | gs (fails : Bool)
  /-- Spurious wake-ups. -/
  | mainWakes
  | gsWakes
  deriving DecidableEq, Repr

def step : Act → Option System
  | .call o =>
    if s.main = .next ∧ s.todo = [] ∧ o.allowed then some { s with todo := o.todo } else none
  | .main => mainStep s
  | .gs fails => gsStep s fails
  | .mainWakes => some { s with main := s.main.notified }
  | .gsWakes => some { s with gs := s.gs.notified }

/-- The GS thread has just been started. The flags may be left over from the one before. -/
structure Started : Prop where
  messages : s.messages = []
  returns : s.returns = []
  mutex : s.mutex = none
  main : s.main = .next
  todo : s.todo = []
  gs : s.gs = .popping

/-! ### What is promised -/

def MainPC.waitsFor : MainPC → Option GSReturn
  | .popping t => some t
  | .examining t _ => some t
  | .puttingBack t _ _ => some t
  | .locking t => some t
  | .checking t => some t
  | .blocking t => some t
  | .blocked t => some t
  | .resetting t => some t
  | .unlocking t => some t
  | _ => none

/-- An answer to who waits for `t`. -/
def Answered (t : GSReturn) : Prop := t ∈ s.returns ∨ .deathError ∈ s.returns

/-- The main thread sleeps over its answer, and the GS thread will not wake it. -/
def Overslept : Prop :=
  ∃ t, s.main = .blocked t ∧ Answered s t ∧ (s.gs = .blocked ∨ s.gs = .terminated)

/-- The GS thread sleeps over a message that the main thread waits for. -/
def Ignored : Prop :=
  s.gs = .blocked ∧ ∃ m ∈ s.messages, ∃ t, m.reply = some t ∧ s.main.waitsFor = some t

structure Meet : Prop where
  main : ¬ Overslept s
  gs : ¬ Ignored s

/-- The GS thread does not notify outside of the mutex while the main thread is between its test of
`recieve_data` and its sleep. -/
def Gated (a : Act) : Prop :=
  ∀ t last fails, s.main = .blocking t → s.gs = .notifying last → a ≠ .gs fails

/-! ### The invariant -/

/-- The states in which the mutex is held. -/
def MainPC.owns : MainPC → Bool
  | .notifying => true
  | .wakeUnlocking => true
  | .checking _ => true
  | .blocking _ => true
  | .resetting _ => true
  | .unlocking _ => true
  | _ => false

def GsPC.owns : GsPC → Bool
  | .replySetting => true
  | .replyNotifying => true
  | .replyUnlocking => true
  | .checking => true
  | .blocking => true
  | .resetting => true
  | .unlocking => true
  | _ => false

/-- The main thread has seen no answer and is on its way to the test of the flag. -/
def MainPC.settling : MainPC → Option GSReturn
  | .puttingBack t _ true => some t
  | .locking t => some t
  | .checking t => some t
  | _ => none

def MainPC.sleeping : MainPC → Option GSReturn
  | .blocking t => some t
  | .blocked t => some t
  | _ => none

/-- The GS thread is on its way to setting the flag. -/
def GsPC.due : GsPC → Bool
  | .replyLocking => true
  | .replySetting => true
  | .setting _ => true
  | _ => false

def GsPC.notifies : GsPC → Bool
  | .replyNotifying => true
  | .notifying _ => true
  | _ => false

/-- The GS thread has seen no message and is on its way to the test of its flag. -/
def GsPC.settling : GsPC → Bool
  | .locking => true
  | .checking => true
  | _ => false

def GsPC.sleeping : GsPC → Bool
  | .blocking => true
  | .blocked => true
  | _ => false

/-- A message that asks for an answer is followed by a wake-up. -/
def Arranged : List Todo → Prop
  | [] => True
  | .sendMessage m :: todo => (m.reply ≠ none → todo.head? = some .wakeThread) ∧ Arranged todo
  | _ :: todo => Arranged todo

/-- The main thread is about to wake the GS thread. -/
def Waking : Prop :=
  s.main = .notifying ∨
    ((s.main = .next ∨ ∃ m, s.main = .sending m) ∧ s.todo.head? = some .wakeThread)

/-- The message that the main thread is to put back, and what it waits for. -/
def MainPC.held : MainPC → Option (GSReturn × GSReturn)
  | .examining t k => some (t, k)
  | .puttingBack t k _ => some (t, k)
  | _ => none

structure Inv : Prop where
  mainOwns : s.main.owns = true ↔ s.mutex = some .main
  gsOwns : s.gs.owns = true ↔ s.mutex = some .gs
  arranged : Arranged s.todo
  sending : ∀ m, s.main = .sending m → m.reply ≠ none → s.todo.head? = some .wakeThread
  held : ∀ t k, s.main.held = some (t, k) → k ≠ t ∧ k ≠ .deathError
  noticed : s.gs.settling ∨ s.gs.sleeping → s.sendData ∨ s.messages = [] ∨
    ∃ m, s.main = .sending m ∧ s.messages = [m]
  woken : s.gs.sleeping → ∀ m ∈ s.messages, m.reply ≠ none → Waking s
  answered : ∀ t, s.main.settling = some t → Answered s t → s.recieveData ∨ s.gs.due
  roused : ∀ t, s.main.sleeping = some t → Answered s t →
    s.gs.due ∨ (s.gs.notifies ∧ s.recieveData)

variable {s} {s' : System}

theorem inv_started (h : Started s) : Inv s := by
  obtain ⟨hmessages, -, hmutex, hmain, htodo, hgs⟩ := h
  constructor <;>
    simp [hmessages, hmutex, hmain, htodo, hgs, MainPC.owns, GsPC.owns, Arranged, MainPC.held,
      GsPC.settling, GsPC.sleeping, MainPC.settling, MainPC.sleeping]

theorem Inv.meet (h : Inv s) : Meet s := by
  constructor
  · rintro ⟨t, hmain, hanswered, hgs⟩
    have hroused := h.roused t (by rw [hmain]; rfl) hanswered
    rcases hgs with hgs | hgs <;> simp [hgs, GsPC.due, GsPC.notifies] at hroused
  · rintro ⟨hgs, m, hm, t, hreply, hwaits⟩
    have hwaking := h.woken (by rw [hgs]; rfl) m hm (by rw [hreply]; simp)
    rcases hwaking with hmain | ⟨hmain | ⟨m', hmain⟩, -⟩ <;> simp [hmain, MainPC.waitsFor] at hwaits

/-! ### Wake-ups -/

theorem Inv.mainWakes (h : Inv s) : Inv { s with main := s.main.notified } := by
  cases hmain : s.main with
  | blocked t =>
    have howns := h.mainOwns
    rw [hmain] at howns
    refine ⟨howns, h.gsOwns, h.arranged, by simp [MainPC.notified],
      by simp [MainPC.notified, MainPC.held], ?_, ?_, ?_, by simp [MainPC.notified, MainPC.sleeping]⟩
    · intro hidle
      have := h.noticed hidle
      simpa [hmain, MainPC.notified] using this
    · intro hsleeping m hm hreply
      have := h.woken hsleeping m hm hreply
      simp [Waking, hmain] at this
    · intro t' ht hanswered
      obtain rfl : t = t' := Option.some.inj ht
      rcases h.roused t (by rw [hmain]; rfl) hanswered with hdue | ⟨-, hflag⟩
      · exact .inr hdue
      · exact .inl hflag
  | _ =>
    have hsame : s.main.notified = s.main := by rw [hmain]; rfl
    rw [← hmain, hsame]
    exact h

theorem Inv.gsWakes (h : Inv s) : Inv { s with gs := s.gs.notified } := by
  cases hgs : s.gs with
  | blocked =>
    have howns := h.gsOwns
    rw [hgs] at howns
    refine ⟨h.mainOwns, howns, h.arranged, h.sending, h.held, ?_, ?_, ?_, ?_⟩
    · intro _
      exact h.noticed (by simp [hgs, GsPC.sleeping])
    · intro hsleeping
      cases hsleeping
    · intro t ht hanswered
      have := h.answered t ht hanswered
      exact .inl (by simpa [hgs, GsPC.due] using this)
    · intro t ht hanswered
      have := h.roused t ht hanswered
      simp [hgs, GsPC.due, GsPC.notifies] at this
  | _ =>
    have hsame : s.gs.notified = s.gs := by rw [hgs]; rfl
    rw [← hgs, hsame]
    exact h

/-! ### The GS thread -/

section
variable {pc : GsPC} {mutex : Option Thread}

/-- A step that changes no more than the mutex. -/
theorem Inv.gsMoves (h : Inv s) (hmain : s.main.owns = true ↔ mutex = some .main)
    (hgs : pc.owns = true ↔ mutex = some .gs)
    (hidle : pc.settling ∨ pc.sleeping → s.gs.settling ∨ s.gs.sleeping)
    (hwoken : pc.sleeping → ∀ m ∈ s.messages, m.reply ≠ none → Waking s)
    (hdue : s.gs.due → pc.due) (hroused : s.gs.notifies → s.main.sleeping = none) :
    Inv { s with mutex, gs := pc } where
  mainOwns := hmain
  gsOwns := hgs
  arranged := h.arranged
  sending := h.sending
  held := h.held
  noticed hpc := h.noticed (hidle hpc)
  woken := hwoken
  answered t ht hanswered := (h.answered t ht hanswered).imp_right hdue
  roused t ht hanswered := by
    rcases h.roused t ht hanswered with hd | ⟨hn, -⟩
    · exact .inl (hdue hd)
    · rw [hroused hn] at ht
      cases ht

/-- The flag is set. -/
theorem Inv.gsFlags (h : Inv s) (hgs : pc.owns = s.gs.owns)
    (hidle : pc.settling = false ∧ pc.sleeping = false) (hnotifies : pc.notifies) :
    Inv { s with recieveData := true, gs := pc } where
  mainOwns := h.mainOwns
  gsOwns := hgs ▸ h.gsOwns
  arranged := h.arranged
  sending := h.sending
  held := h.held
  noticed hpc := by simp [hidle] at hpc
  woken hpc := by simp [hidle] at hpc
  answered _ _ _ := .inl rfl
  roused _ _ _ := .inr ⟨hnotifies, rfl⟩

/-- An answer is pushed, or a message is popped: the thread does not sleep. -/
theorem Inv.gsBusy {messages : List GSCommand} {returns : List GSReturn} (h : Inv s)
    (hgs : pc.owns = s.gs.owns) (hidle : pc.settling = false ∧ pc.sleeping = false)
    (hdue : pc.due ∨ (returns = s.returns ∧ s.gs.due = false ∧ s.gs.notifies = false)) :
    Inv { s with messages, returns, gs := pc } where
  mainOwns := h.mainOwns
  gsOwns := hgs ▸ h.gsOwns
  arranged := h.arranged
  sending := h.sending
  held := h.held
  noticed hpc := by simp [hidle] at hpc
  woken hpc := by simp [hidle] at hpc
  answered t ht hanswered := by
    rcases hdue with hdue | ⟨rfl, hd, -⟩
    · exact .inr hdue
    · exact (h.answered t ht hanswered).imp_right fun hd' => absurd (hd.symm.trans hd') (by simp)
  roused t ht hanswered := by
    rcases hdue with hdue | ⟨rfl, hd, hn⟩
    · exact .inl hdue
    · have := h.roused t ht hanswered
      simp [hd, hn] at this

end

theorem due_replied (k : GSReturn) : (replied k).due = true := by
  unfold replied
  split_ifs <;> rfl

theorem handled_idle (m : GSCommand) (fails : Bool) : (handled m fails).owns = false ∧
    (handled m fails).settling = false ∧ (handled m fails).sleeping = false := by
  unfold handled
  split_ifs
  · exact ⟨rfl, rfl, rfl⟩
  · exact ⟨rfl, rfl, rfl⟩
  · cases m.reply <;> exact ⟨rfl, rfl, rfl⟩

theorem replied_idle (k : GSReturn) : (replied k).owns = false ∧
    (replied k).settling = false ∧ (replied k).sleeping = false := by
  unfold replied
  split_ifs <;> exact ⟨rfl, rfl, rfl⟩

/-- Not both threads hold the mutex. -/
theorem Inv.exclusive (h : Inv s) (hgs : s.gs.owns = true) : s.main.owns = false := by
  rw [Bool.eq_false_iff]
  intro hmain
  have := (h.mainOwns.mp hmain).symm.trans (h.gsOwns.mp hgs)
  cases this

theorem Inv.lock_main (h : Inv s) (hmutex : s.mutex = none) : s.main.owns = false := by
  rw [Bool.eq_false_iff]
  intro hmain
  have := (h.mainOwns.mp hmain).symm.trans hmutex
  cases this

theorem lock_eq {thread : Thread} (h : s.lock thread = some s') :
    s.mutex = none ∧ s' = { s with mutex := some thread } := by
  unfold System.lock at h
  split_ifs at h with hmutex
  exact ⟨hmutex, (Option.some.inj h).symm⟩

theorem pushReturn_eq {k : GSReturn} (h : s.pushReturn k = some s') :
    s' = { s with returns := s.returns ++ [k] } := by
  unfold System.pushReturn at h
  split_ifs at h
  exact (Option.some.inj h).symm

theorem Inv.gsStep {fails : Bool} (h : Inv s) (hgate : Gated s (.gs fails))
    (hs : gsStep s fails = some s') : Inv s' := by
  unfold Rendezvous.gsStep at hs
  cases hg : s.gs with
  | popping =>
    simp only [hg] at hs
    cases hm : s.messages with
    | nil =>
      rw [hm] at hs
      obtain rfl := Option.some.inj hs
      have howns := h.gsOwns
      rw [hg] at howns
      refine ⟨h.mainOwns, howns, h.arranged, h.sending, h.held, fun _ => .inr (.inl rfl), ?_, ?_, ?_⟩
      · intro hsleeping
        cases hsleeping
      · intro t ht hanswered
        have := h.answered t ht hanswered
        simpa [hg, GsPC.due] using this
      · intro t ht hanswered
        have := h.roused t ht hanswered
        simp [hg, GsPC.due, GsPC.notifies] at this
    | cons m messages =>
      rw [hm] at hs
      obtain rfl := Option.some.inj hs
      exact h.gsBusy (by rw [hg]; rfl) ⟨rfl, rfl⟩ (.inr ⟨rfl, by rw [hg]; rfl, by rw [hg]; rfl⟩)
  | handling m =>
    simp only [hg] at hs
    obtain rfl := Option.some.inj hs
    obtain ⟨howns, hidle⟩ := handled_idle m fails
    exact h.gsBusy (by rw [hg, howns]; rfl) hidle (.inr ⟨rfl, by rw [hg]; rfl, by rw [hg]; rfl⟩)
  | replying k =>
    simp only [hg] at hs
    obtain ⟨s₁, h₁, rfl⟩ := Option.map_eq_some_iff.mp hs
    obtain rfl := pushReturn_eq h₁
    obtain ⟨howns, hidle⟩ := replied_idle k
    exact h.gsBusy (by rw [hg, howns]; rfl) hidle (.inl (due_replied k))
  | replyLocking =>
    simp only [hg] at hs
    obtain ⟨s₁, h₁, rfl⟩ := Option.map_eq_some_iff.mp hs
    obtain ⟨hmutex, rfl⟩ := lock_eq h₁
    refine h.gsMoves ?_ ?_ ?_ ?_ ?_ ?_
    · simp [h.lock_main hmutex]
    · simp [GsPC.owns]
    · simp [GsPC.settling, GsPC.sleeping]
    · simp [GsPC.sleeping]
    · exact fun _ => rfl
    · simp [hg, GsPC.notifies]
  | replySetting =>
    simp only [hg] at hs
    obtain rfl := Option.some.inj hs
    exact h.gsFlags (by rw [hg]; rfl) ⟨rfl, rfl⟩ rfl
  | replyNotifying =>
    simp only [hg] at hs
    obtain rfl := Option.some.inj hs
    have howned : s.main.owns = false := h.exclusive (by rw [hg]; rfl)
    refine h.mainWakes.gsMoves ?_ ?_ ?_ ?_ ?_ ?_
    · exact h.mainWakes.mainOwns
    · exact iff_of_true rfl (h.gsOwns.mp (by rw [hg]; rfl))
    · simp [GsPC.settling, GsPC.sleeping]
    · simp [GsPC.sleeping]
    · simp [hg, GsPC.due]
    · intro _
      cases hm : s.main with
      | blocking t => rw [hm] at howned; cases howned
      | _ => rfl
  | replyUnlocking =>
    simp only [hg] at hs
    obtain rfl := Option.some.inj hs
    have howned : s.main.owns = false := h.exclusive (by rw [hg]; rfl)
    refine h.gsMoves ?_ ?_ ?_ ?_ ?_ ?_
    · simp [howned]
    · simp [GsPC.owns]
    · simp [GsPC.settling, GsPC.sleeping]
    · simp [GsPC.sleeping]
    · simp [hg, GsPC.due]
    · simp [hg, GsPC.notifies]
  | setting last =>
    simp only [hg] at hs
    obtain rfl := Option.some.inj hs
    exact h.gsFlags (by rw [hg]; rfl) ⟨rfl, rfl⟩ rfl
  | notifying last =>
    simp only [hg] at hs
    obtain rfl := Option.some.inj hs
    have howns := h.gsOwns
    rw [hg] at howns
    refine h.mainWakes.gsMoves ?_ ?_ ?_ ?_ ?_ ?_
    · exact h.mainWakes.mainOwns
    · cases last <;> exact howns
    · cases last <;> simp [GsPC.settling, GsPC.sleeping]
    · cases last <;> simp [GsPC.sleeping]
    · simp [hg, GsPC.due]
    · -- here a notification could be lost
      intro _
      cases hm : s.main with
      | blocking t => exact absurd rfl (hgate t last fails hm hg)
      | _ => rfl
  | locking =>
    simp only [hg] at hs
    obtain ⟨s₁, h₁, rfl⟩ := Option.map_eq_some_iff.mp hs
    obtain ⟨hmutex, rfl⟩ := lock_eq h₁
    refine h.gsMoves ?_ ?_ ?_ ?_ ?_ ?_
    · simp [h.lock_main hmutex]
    · simp [GsPC.owns]
    · exact fun _ => .inl (by rw [hg]; rfl)
    · simp [GsPC.sleeping]
    · simp [hg, GsPC.due]
    · simp [hg, GsPC.notifies]
  | checking =>
    simp only [hg] at hs
    obtain rfl := Option.some.inj hs
    have howned : s.mutex = some .gs := h.gsOwns.mp (by rw [hg]; rfl)
    refine h.gsMoves h.mainOwns ?_ ?_ ?_ ?_ ?_
    · split_ifs <;> exact iff_of_true rfl howned
    · exact fun _ => .inl (by rw [hg]; rfl)
    · intro hsleeping m hm hreply
      by_cases hflag : s.sendData = true
      · simp [hflag, GsPC.sleeping] at hsleeping
      · rcases h.noticed (.inl (by rw [hg]; rfl)) with hsent | hnone | ⟨m', hmain, hone⟩
        · exact absurd hsent hflag
        · rw [hnone] at hm
          cases hm
        · rw [hone, List.mem_singleton] at hm
          subst hm
          exact .inr ⟨.inr ⟨m, hmain⟩, h.sending m hmain hreply⟩
    · simp [hg, GsPC.due]
    · simp [hg, GsPC.notifies]
  | blocking =>
    simp only [hg] at hs
    obtain rfl := Option.some.inj hs
    have howned : s.main.owns = false := h.exclusive (by rw [hg]; rfl)
    refine h.gsMoves ?_ ?_ ?_ ?_ ?_ ?_
    · simp [howned]
    · simp [GsPC.owns]
    · exact fun _ => .inr (by rw [hg]; rfl)
    · exact fun _ => h.woken (by rw [hg]; rfl)
    · simp [hg, GsPC.due]
    · simp [hg, GsPC.notifies]
  | blocked =>
    simp only [hg] at hs
    cases hs
  | resetting =>
    simp only [hg] at hs
    obtain rfl := Option.some.inj hs
    have howned : s.mutex = some .gs := h.gsOwns.mp (by rw [hg]; rfl)
    refine ⟨h.mainOwns, iff_of_true rfl howned, h.arranged, h.sending, h.held, ?_, ?_, ?_, ?_⟩
    · simp [GsPC.settling, GsPC.sleeping]
    · simp [GsPC.sleeping]
    · intro t ht hanswered
      exact .inl (by simpa [hg, GsPC.due] using h.answered t ht hanswered)
    · intro t ht hanswered
      have := h.roused t ht hanswered
      simp [hg, GsPC.due, GsPC.notifies] at this
  | unlocking =>
    simp only [hg] at hs
    obtain rfl := Option.some.inj hs
    have howned : s.main.owns = false := h.exclusive (by rw [hg]; rfl)
    refine h.gsMoves ?_ ?_ ?_ ?_ ?_ ?_
    · simp [howned]
    · simp [GsPC.owns]
    · simp [GsPC.settling, GsPC.sleeping]
    · simp [GsPC.sleeping]
    · simp [hg, GsPC.due]
    · simp [hg, GsPC.notifies]
  | terminated =>
    simp only [hg] at hs
    cases hs

/-! ### The main thread -/

section
variable {pc : MainPC} {mutex : Option Thread} {todo : List Todo}

/-- A step that changes no more than the mutex and what is to do, and does not come from a push. -/
theorem Inv.mainMoves (h : Inv s) (hmain : pc.owns = true ↔ mutex = some .main)
    (hgs : s.gs.owns = true ↔ mutex = some .gs) (hfrom : ∀ m, s.main ≠ .sending m)
    (hto : ∀ m, pc ≠ .sending m) (htodo : Arranged todo)
    (hheld : ∀ t k, pc.held = some (t, k) → k ≠ t ∧ k ≠ .deathError)
    (hwaking : Waking s → Waking { s with main := pc, mutex, todo })
    (hanswered : ∀ t, pc.settling = some t → Answered s t → s.recieveData ∨ s.gs.due)
    (hroused : ∀ t, pc.sleeping = some t → Answered s t →
      s.gs.due ∨ (s.gs.notifies ∧ s.recieveData)) :
    Inv { s with main := pc, mutex, todo } where
  mainOwns := hmain
  gsOwns := hgs
  arranged := htodo
  sending m hm := absurd hm (hto m)
  held := hheld
  noticed hidle := by
    rcases h.noticed hidle with hsent | hnone | ⟨m, hm, -⟩
    · exact .inl hsent
    · exact .inr (.inl hnone)
    · exact absurd hm (hfrom m)
  woken hsleeping m hm hreply := hwaking (h.woken hsleeping m hm hreply)
  answered := hanswered
  roused := hroused

/-- A step to where the thread does not mean to sleep. -/
theorem Inv.mainAwake {returns : List GSReturn} {recieveData : Bool} (h : Inv s)
    (hmain : pc.owns = s.main.owns) (hfrom : ∀ m, s.main ≠ .sending m) (hto : ∀ m, pc ≠ .sending m)
    (htodo : Arranged todo) (hheld : ∀ t k, pc.held = some (t, k) → k ≠ t ∧ k ≠ .deathError)
    (hwaking : ¬ Waking s) (hawake : pc.settling = none ∧ pc.sleeping = none) :
    Inv { s with returns, recieveData, main := pc, todo } where
  mainOwns := hmain ▸ h.mainOwns
  gsOwns := h.gsOwns
  arranged := htodo
  sending m hm := absurd hm (hto m)
  held := hheld
  noticed hidle := by
    rcases h.noticed hidle with hsent | hnone | ⟨m, hm, -⟩
    · exact .inl hsent
    · exact .inr (.inl hnone)
    · exact absurd hm (hfrom m)
  woken hsleeping m hm hreply := absurd (h.woken hsleeping m hm hreply) hwaking
  answered t ht := by simp [hawake] at ht
  roused t ht := by simp [hawake] at ht

end

theorem not_waking (hm : s.main ≠ .notifying) (hn : s.main ≠ .next)
    (hs : ∀ m, s.main ≠ .sending m) : ¬ Waking s := by
  rintro (h | ⟨h | ⟨m, h⟩, -⟩)
  · exact hm h
  · exact hn h
  · exact hs m h

theorem pushMessage_eq {m : GSCommand} (h : s.pushMessage m = some s') :
    s' = { s with messages := s.messages ++ [m] } := by
  unfold System.pushMessage at h
  split_ifs at h
  exact (Option.some.inj h).symm

theorem Inv.lock_gs (h : Inv s) (hmutex : s.mutex = none) : s.gs.owns = false := by
  rw [Bool.eq_false_iff]
  intro hgs
  have := (h.gsOwns.mp hgs).symm.trans hmutex
  cases this

theorem Inv.alone (h : Inv s) (hmain : s.main.owns = true) : s.gs.owns = false := by
  rw [Bool.eq_false_iff]
  intro hgs
  rw [h.exclusive hgs] at hmain
  cases hmain

theorem Inv.begin {x : Todo} {todo : List Todo} (h : Inv s) (hmain : s.main = .next)
    (htodo : s.todo = x :: todo) (hs : begin s todo x = some s') : Inv s' := by
  have harranged := h.arranged
  have howns := h.mainOwns
  rw [htodo] at harranged
  rw [hmain] at howns
  cases x with
  | sendMessage m =>
    obtain ⟨s₁, h₁, rfl⟩ := Option.map_eq_some_iff.mp hs
    obtain rfl := pushMessage_eq h₁
    refine ⟨howns, h.gsOwns, harranged.2, ?_, by simp [MainPC.held], ?_, ?_,
      by simp [MainPC.settling], by simp [MainPC.sleeping]⟩
    · intro m' hm' hreply
      obtain rfl : m = m' := MainPC.sending.inj hm'
      exact harranged.1 hreply
    · intro hidle
      rcases h.noticed hidle with hsent | hnone | ⟨m', hm', -⟩
      · exact .inl hsent
      · exact .inr (.inr ⟨m, rfl, by simp [hnone]⟩)
      · rw [hmain] at hm'
        cases hm'
    · intro hsleeping m' hm' hreply
      rcases List.mem_append.mp hm' with hm' | hm'
      · have := h.woken hsleeping m' hm' hreply
        simp [Waking, hmain, htodo] at this
      · obtain rfl := List.mem_singleton.mp hm'
        exact .inr ⟨.inr ⟨m', rfl⟩, harranged.1 hreply⟩
  | wakeThread =>
    obtain ⟨s₁, h₁, rfl⟩ := Option.map_eq_some_iff.mp hs
    obtain ⟨hmutex, rfl⟩ := lock_eq h₁
    refine h.mainMoves ?_ ?_ ?_ ?_ harranged ?_ ?_ ?_ ?_
    · simp [MainPC.owns]
    · simp [h.lock_gs hmutex]
    · simp [hmain]
    · simp
    · simp [MainPC.held]
    · exact fun _ => .inl rfl
    · simp [MainPC.settling]
    · simp [MainPC.sleeping]
  | waitForReturn t =>
    obtain rfl := Option.some.inj hs
    have hwaking : ¬ Waking s := by simp [Waking, hmain, htodo]
    refine h.mainMoves howns h.gsOwns ?_ ?_ harranged ?_ ?_ ?_ ?_
    · simp [hmain]
    · simp
    · simp [MainPC.held]
    · exact fun hw => absurd hw hwaking
    · simp [MainPC.settling]
    · simp [MainPC.sleeping]
  | restart =>
    unfold Rendezvous.begin at hs
    simp only at hs
    split_ifs at hs with hgs
    obtain rfl := Option.some.inj hs
    have hgsOwns := h.gsOwns
    rw [hgs] at hgsOwns
    refine ⟨h.mainOwns, hgsOwns, harranged, ?_, h.held, ?_, ?_, ?_, ?_⟩
    · simp [hmain]
    · simp
    · simp [GsPC.sleeping]
    · simp [hmain, MainPC.settling]
    · simp [hmain, MainPC.sleeping]

/-- The main thread looks at the queue of the answers. -/
theorem Inv.popped {t : GSReturn} (h : Inv s) (hmain : s.main = .popping t) :
    Inv (popped s t s.returns) := by
  have howns := h.mainOwns
  rw [hmain] at howns
  have hwaking : ¬ Waking s := not_waking (by simp [hmain]) (by simp [hmain]) (by simp [hmain])
  have hfrom : ∀ m, s.main ≠ .sending m := by simp [hmain]
  cases hr : s.returns with
  | nil =>
    refine h.mainMoves howns h.gsOwns hfrom ?_ h.arranged ?_ (fun hw => absurd hw hwaking) ?_ ?_
    · simp
    · simp [MainPC.held]
    · intro t' _ hanswered
      simp [Answered, hr] at hanswered
    · simp [MainPC.sleeping]
  | cons k returns =>
    unfold Rendezvous.popped
    dsimp only
    have hsame : (MainPC.next).owns = s.main.owns := by rw [hmain]; rfl
    split_ifs with hdeath ht
    · exact h.mainAwake hsame hfrom (by simp) trivial (by simp [MainPC.held]) hwaking ⟨rfl, rfl⟩
    · exact h.mainAwake hsame hfrom (by simp) h.arranged (by simp [MainPC.held]) hwaking ⟨rfl, rfl⟩
    · refine h.mainAwake hsame hfrom (by simp) h.arranged ?_ hwaking ⟨rfl, rfl⟩
      rintro t' k' heq
      obtain ⟨rfl, rfl⟩ := Prod.mk.inj (Option.some.inj heq)
      exact ⟨ht, hdeath⟩

theorem Inv.mainStep (h : Inv s) (hs : mainStep s = some s') : Inv s' := by
  have howns := h.mainOwns
  unfold Rendezvous.mainStep at hs
  cases hmain : s.main with
  | next =>
    simp only [hmain] at hs
    cases htodo : s.todo with
    | nil =>
      rw [htodo] at hs
      cases hs
    | cons x todo =>
      simp only [htodo] at hs
      exact h.begin hmain htodo hs
  | sending m =>
    simp only [hmain] at hs
    obtain rfl := Option.some.inj hs
    rw [hmain] at howns
    refine ⟨howns, h.gsOwns, h.arranged, ?_, ?_, fun _ => .inl rfl, ?_, ?_, ?_⟩
    · simp
    · simp [MainPC.held]
    · intro hsleeping m' hm' hreply
      have := h.woken hsleeping m' hm' hreply
      simpa [Waking, hmain] using this
    · simp [MainPC.settling]
    · simp [MainPC.sleeping]
  | notifying =>
    simp only [hmain] at hs
    obtain rfl := Option.some.inj hs
    have hgs : s.gs.owns = false := h.alone (by rw [hmain]; rfl)
    have hawake : s.gs.notified.sleeping = false := by
      cases hg : s.gs with
      | blocking => rw [hg] at hgs; cases hgs
      | _ => rfl
    have h' := h.gsWakes
    refine ⟨?_, h'.gsOwns, h.arranged, ?_, ?_, ?_, ?_, ?_, ?_⟩
    · exact iff_of_true rfl (howns.mp (by rw [hmain]; rfl))
    · simp
    · simp [MainPC.held]
    · intro hidle
      simpa [hmain] using h'.noticed hidle
    · simp [hawake]
    · simp [MainPC.settling]
    · simp [MainPC.sleeping]
  | wakeUnlocking =>
    simp only [hmain] at hs
    obtain rfl := Option.some.inj hs
    have hgs : s.gs.owns = false := h.alone (by rw [hmain]; rfl)
    have hwaking : ¬ Waking s := not_waking (by simp [hmain]) (by simp [hmain]) (by simp [hmain])
    refine h.mainMoves ?_ ?_ ?_ ?_ h.arranged ?_ (fun hw => absurd hw hwaking) ?_ ?_
    · simp [MainPC.owns]
    · simp [hgs]
    · simp [hmain]
    · simp
    · simp [MainPC.held]
    · simp [MainPC.settling]
    · simp [MainPC.sleeping]
  | popping t =>
    simp only [hmain] at hs
    obtain rfl := Option.some.inj hs
    exact h.popped hmain
  | examining t k =>
    simp only [hmain] at hs
    obtain rfl := Option.some.inj hs
    obtain hheld := h.held t k (by rw [hmain]; rfl)
    rw [hmain] at howns
    have hwaking : ¬ Waking s := not_waking (by simp [hmain]) (by simp [hmain]) (by simp [hmain])
    refine h.mainMoves howns h.gsOwns ?_ ?_ h.arranged ?_ (fun hw => absurd hw hwaking) ?_ ?_
    · simp [hmain]
    · simp
    · rintro t' k' heq
      obtain ⟨rfl, rfl⟩ := Prod.mk.inj (Option.some.inj heq)
      exact hheld
    · intro t' ht hanswered
      -- the queue was empty, if this is the last message
      by_cases hempty : s.returns = []
      · simp [Answered, hempty] at hanswered
      · simp [MainPC.settling, hempty] at ht
    · simp [MainPC.sleeping]
  | puttingBack t k last =>
    simp only [hmain] at hs
    obtain ⟨s₁, h₁, rfl⟩ := Option.map_eq_some_iff.mp hs
    obtain rfl := pushReturn_eq h₁
    obtain ⟨hk, hdeath⟩ := h.held t k (by rw [hmain]; rfl)
    rw [hmain] at howns
    have hwaking : ¬ Waking s := not_waking (by simp [hmain]) (by simp [hmain]) (by simp [hmain])
    refine ⟨?_, h.gsOwns, h.arranged, ?_, ?_, ?_, ?_, ?_, ?_⟩
    · cases last <;> exact howns
    · cases last <;> simp
    · cases last <;> simp [MainPC.held]
    · intro hidle
      have hnoticed := h.noticed hidle
      simp only [hmain, reduceCtorEq, false_and, exists_false, or_false] at hnoticed
      exact hnoticed.imp_right .inl
    · exact fun hsleeping m hm hreply => absurd (h.woken hsleeping m hm hreply) hwaking
    · intro t' ht hanswered
      cases last with
      | false => cases ht
      | true =>
        obtain rfl : t = t' := Option.some.inj ht
        refine h.answered t (by rw [hmain]; rfl) ?_
        simpa [Answered, hk.symm, hdeath.symm] using hanswered
    · cases last <;> simp [MainPC.sleeping]
  | locking t =>
    simp only [hmain] at hs
    obtain ⟨s₁, h₁, rfl⟩ := Option.map_eq_some_iff.mp hs
    obtain ⟨hmutex, rfl⟩ := lock_eq h₁
    have hwaking : ¬ Waking s := not_waking (by simp [hmain]) (by simp [hmain]) (by simp [hmain])
    refine h.mainMoves ?_ ?_ ?_ ?_ h.arranged ?_ (fun hw => absurd hw hwaking) ?_ ?_
    · simp [MainPC.owns]
    · simp [h.lock_gs hmutex]
    · simp [hmain]
    · simp
    · simp [MainPC.held]
    · exact fun t' ht => h.answered t' (by rw [hmain]; exact ht)
    · simp [MainPC.sleeping]
  | checking t =>
    simp only [hmain] at hs
    obtain rfl := Option.some.inj hs
    have howned := howns.mp (by rw [hmain]; rfl)
    have hwaking : ¬ Waking s := not_waking (by simp [hmain]) (by simp [hmain]) (by simp [hmain])
    by_cases hflag : s.recieveData = true
    · rw [if_pos hflag]
      exact h.mainAwake (by rw [hmain]; rfl) (by simp [hmain]) (by simp) h.arranged
        (by simp [MainPC.held]) hwaking ⟨rfl, rfl⟩
    · rw [if_neg hflag]
      refine h.mainMoves ?_ h.gsOwns ?_ ?_ h.arranged ?_ (fun hw => absurd hw hwaking) ?_ ?_
      · exact iff_of_true rfl howned
      · simp [hmain]
      · simp
      · simp [MainPC.held]
      · simp [MainPC.settling]
      · intro t' ht hanswered
        have hdue := h.answered t' (by rw [hmain]; exact ht) hanswered
        exact .inl (hdue.resolve_left hflag)
  | blocking t =>
    simp only [hmain] at hs
    obtain rfl := Option.some.inj hs
    have hgs : s.gs.owns = false := h.alone (by rw [hmain]; rfl)
    have hwaking : ¬ Waking s := not_waking (by simp [hmain]) (by simp [hmain]) (by simp [hmain])
    refine h.mainMoves ?_ ?_ ?_ ?_ h.arranged ?_ (fun hw => absurd hw hwaking) ?_ ?_
    · simp [MainPC.owns]
    · simp [hgs]
    · simp [hmain]
    · simp
    · simp [MainPC.held]
    · simp [MainPC.settling]
    · exact fun t' ht => h.roused t' (by rw [hmain]; exact ht)
  | blocked t =>
    simp only [hmain] at hs
    cases hs
  | resetting t =>
    simp only [hmain] at hs
    obtain rfl := Option.some.inj hs
    have hwaking : ¬ Waking s := not_waking (by simp [hmain]) (by simp [hmain]) (by simp [hmain])
    exact h.mainAwake (by rw [hmain]; rfl) (by simp [hmain]) (by simp) h.arranged
      (by simp [MainPC.held]) hwaking ⟨rfl, rfl⟩
  | unlocking t =>
    simp only [hmain] at hs
    obtain rfl := Option.some.inj hs
    have hgs : s.gs.owns = false := h.alone (by rw [hmain]; rfl)
    have hwaking : ¬ Waking s := not_waking (by simp [hmain]) (by simp [hmain]) (by simp [hmain])
    refine h.mainMoves ?_ ?_ ?_ ?_ h.arranged ?_ (fun hw => absurd hw hwaking) ?_ ?_
    · simp [MainPC.owns]
    · simp [hgs]
    · simp [hmain]
    · simp
    · simp [MainPC.held]
    · simp [MainPC.settling]
    · simp [MainPC.sleeping]

/-! ### Runs -/

theorem arranged_todo {o : Operation} (h : o.allowed) : Arranged o.todo := by
  cases o with
  | post m =>
    have hreply : m.reply = none := of_decide_eq_true h
    exact ⟨fun hne => absurd hreply hne, trivial⟩
  | _ => simp [Operation.todo, request, Arranged, GSCommand.reply]

theorem Inv.step {a : Act} (h : Inv s) (hgate : Gated s a) (hs : step s a = some s') : Inv s' := by
  cases a with
  | call o =>
    simp only [Rendezvous.step] at hs
    split_ifs at hs with hcall
    obtain rfl := Option.some.inj hs
    obtain ⟨hmain, htodo, hallowed⟩ := hcall
    have hwaking : ¬ Waking s := by simp [Waking, hmain, htodo]
    exact h.mainMoves h.mainOwns h.gsOwns (by simp [hmain]) (by simp [hmain]) (arranged_todo hallowed)
      h.held (fun hw => absurd hw hwaking) h.answered h.roused
  | main => exact h.mainStep hs
  | gs fails => exact h.gsStep hgate hs
  | mainWakes =>
    obtain rfl := Option.some.inj hs
    exact h.mainWakes
  | gsWakes =>
    obtain rfl := Option.some.inj hs
    exact h.gsWakes

/-- **No thread oversleeps** in a run in which no notification falls between a test and its sleep. -/
theorem meet_of_gated (h : Reaches Started (Only Gated fun s a s' => step s a = some s') s) : Meet s := by
  have hinv : Inv s := by
    refine h.invariant (fun _ h => inv_started h) ?_
    rintro s a s' hi ⟨hgate, hs⟩
    exact hi.step hgate hs
  exact hinv.meet

def idle : System where
  messages := []
  returns := []
  sendData := false
  recieveData := false
  mutex := none
  main := .next
  todo := []
  gs := .popping

theorem started_idle : Started idle := ⟨rfl, rfl, rfl, rfl, rfl, rfl⟩

/-- The main thread asks for a download and falls asleep before the GS thread has begun with it. -/
theorem meet_asleep : ∃ s, s.main = .blocked .localHostTransfer ∧
    s.messages = [.requestLocalHostTx] ∧ Meet s := by
  have hrun : ((.call .requestGsDownload :: List.replicate 10 .main : List Act).foldlM step idle).map
      (fun s => (s.main, s.messages)) =
      some (.blocked .localHostTransfer, [.requestLocalHostTx]) := by decide
  obtain ⟨s, hs, heq⟩ := Option.map_eq_some_iff.mp hrun
  obtain ⟨hmain, hmessages⟩ := Prod.mk.inj heq
  refine ⟨s, hmain, hmessages, meet_of_gated ((Reaches.start started_idle).exec_only ?_ hs)⟩
  intro a ha s t last fails _ _
  rcases List.mem_cons.mp ha with rfl | ha
  · simp
  · simp [List.eq_of_mem_replicate ha]

/-- `save_state_t` is answered while the main thread is about to sleep over it, and the GS thread goes
to sleep as well. -/
theorem not_meet :
    ¬ ∀ s, Reaches Started (fun s a s' => step s a = some s') s → Meet s := by
  intro h
  have hrun : ((.call .saveState :: List.replicate 9 .main ++ List.replicate 5 (.gs false) ++ [.main] ++
      List.replicate 9 (.gs false) : List Act).foldlM step idle).map
      (fun s => (s.main, s.returns, s.gs)) =
      some (.blocked .saveStateDone, [.saveStateDone], .blocked) := by decide
  obtain ⟨s, hs, heq⟩ := Option.map_eq_some_iff.mp hrun
  obtain ⟨hmain, heq⟩ := Prod.mk.inj heq
  obtain ⟨hreturns, hgs⟩ := Prod.mk.inj heq
  refine (h s (Reaches.exec _ (.start started_idle) hs)).main ⟨.saveStateDone, hmain, ?_, .inl hgs⟩
  exact .inl (by rw [hreturns]; exact List.mem_singleton.mpr rfl)

end DobieStation.Gs.Rendezvous
