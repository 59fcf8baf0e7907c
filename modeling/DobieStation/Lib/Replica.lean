import DobieStation.Lib.Reach
import Mathlib.Data.List.Basic

/-! # A replica behind a queue

A primary performs operations and sends messages about them; a replica handles the messages in the order
in which they were sent, at any later time. If handling a message keeps a relation between the two that
an operation and its messages establish, then the replica looks, after the first `n` messages, as the
primary did after the operation that sent the `n`-th. -/

namespace DobieStation.Lib.Replica

open DobieStation.Lib.Reach

variable {P R O M V : Type*}

/-- Who performs what, and who handles it how. An operation or a message may fail. -/
structure Protocol (P R O M : Type*) where
  perform : P → O → Option P
  messages : P → O → List M
  handle : R → M → Option R
  capacity : ℕ

structure System (P R M V : Type*) where
  primary : P
  replica : R
  queue : List M
  /-- How many messages the replica has handled. -/
  handled : ℕ
  /-- How the primary looked after the operation that sent the message, for all messages so far. -/
  views : List V

inductive Act (O : Type*) where
  | operate (o : O)
  | handle

variable (p : Protocol P R O M) (viewP : P → V) (viewR : R → V)

def step (s : System P R M V) : Act O → Option (System P R M V)
  | .operate o =>
    let sent := p.messages s.primary o
    if s.queue.length + sent.length ≤ p.capacity then
      (p.perform s.primary o).map fun primary =>
        { s with
          primary
          queue := s.queue ++ sent
          views := s.views ++ sent.map fun _ => viewP primary }
    else none
  | .handle =>
    match s.queue with
    | [] => none
    | m :: queue =>
      (p.handle s.replica m).map fun replica => { s with replica, queue, handled := s.handled + 1 }

/-- The replica is where the primary was. -/
def Agrees (s : System P R M V) : Prop :=
  ∀ n, s.handled = n + 1 → s.views[n]? = some (viewR s.replica)

/-- Handling all the messages leads through the views to the primary. -/
inductive Leads (Rel : P → R → Prop) (primary : P) : R → List M → List V → Prop
  | done {r : R} (rel : Rel primary r) : Leads Rel primary r [] []
  | next {r r' : R} {m : M} {queue : List M} {v : V} {views : List V}
      (handled : p.handle r m = some r') (view : viewR r' = v) (rest : Leads Rel primary r' queue views) :
      Leads Rel primary r (m :: queue) (v :: views)

/-- What an operation has to do with its messages. -/
structure Follows (Rel : P → R → Prop) : Prop where
  view : ∀ primary r, Rel primary r → viewP primary = viewR r
  operate : ∀ primary primary' r o, Rel primary r → p.perform primary o = some primary' →
    Leads p viewR Rel primary' r (p.messages primary o)
      ((p.messages primary o).map fun _ => viewP primary')

variable {p viewP viewR} {Rel : P → R → Prop} {s s' : System P R M V} {primary primary' : P} {r : R}

theorem Leads.append {queue sent : List M} {views seen : List V}
    (h : Leads p viewR Rel primary r queue views)
    (hsent : ∀ r, Rel primary r → Leads p viewR Rel primary' r sent seen) :
    Leads p viewR Rel primary' r (queue ++ sent) (views ++ seen) := by
  induction h with
  | done rel => exact hsent _ rel
  | next handled view rest ih => exact .next handled view ih

theorem Leads.length {queue : List M} {views : List V} (h : Leads p viewR Rel primary r queue views) :
    queue.length = views.length := by
  induction h with
  | done rel => rfl
  | next handled view rest ih => rw [List.length_cons, List.length_cons, ih]

/-- The views behind those of the handled messages are still to come. -/
structure Inv (p : Protocol P R O M) (viewR : R → V) (Rel : P → R → Prop) (s : System P R M V) :
    Prop where
  room : s.handled ≤ s.views.length
  leads : Leads p viewR Rel s.primary s.replica s.queue (s.views.drop s.handled)
  agrees : Agrees viewR s

theorem Inv.step (hf : Follows p viewP viewR Rel) (h : Inv p viewR Rel s) {a : Act O}
    (hs : step p viewP s a = some s') : Inv p viewR Rel s' := by
  cases a with
  | operate o =>
    simp only [Replica.step] at hs
    split_ifs at hs
    obtain ⟨primary, hperform, rfl⟩ := Option.map_eq_some_iff.mp hs
    refine ⟨?_, ?_, ?_⟩
    · simp only [List.length_append]
      have := h.room
      omega
    · simp only [List.drop_append_of_le_length h.room]
      exact h.leads.append fun r hr => hf.operate _ _ r o hr hperform
    · intro n hn
      have hroom := h.room
      have hn' : s.handled = n + 1 := hn
      rw [List.getElem?_append_left (by omega)]
      exact h.agrees n hn
  | handle =>
    obtain ⟨hroom, hleads, -⟩ := h
    simp only [Replica.step] at hs
    generalize hviews : s.views.drop s.handled = views at hleads
    cases hq : s.queue with
    | nil => rw [hq] at hs; cases hs
    | cons m queue =>
      rw [hq] at hs hleads
      obtain ⟨r', hhandle, rfl⟩ := Option.map_eq_some_iff.mp hs
      cases hleads with
      | @next _ r'' _ _ v views handled view rest =>
        cases handled.symm.trans hhandle
        have hlen := congrArg List.length hviews
        rw [List.length_drop, List.length_cons] at hlen
        refine ⟨by simp only; omega, ?_, ?_⟩
        · have hdrop := congrArg List.tail hviews
          rw [List.tail_drop, List.tail_cons] at hdrop
          exact hdrop.symm ▸ rest
        · intro n hn
          obtain rfl : s.handled = n := Nat.succ.inj hn
          have hget := congrArg List.head? hviews
          rw [List.head?_drop, List.head?_cons] at hget
          exact hget.trans (congrArg some view.symm)

/-- **The replica rule.** -/
theorem agrees {init : System P R M V → Prop} (hf : Follows p viewP viewR Rel)
    (h0 : ∀ s, init s → Inv p viewR Rel s)
    (h : Reaches init (fun s a s' => step p viewP s a = some s') s) : Agrees viewR s :=
  (h.invariant h0 fun _ _ _ hi hs => hi.step hf hs).agrees

end DobieStation.Lib.Replica
