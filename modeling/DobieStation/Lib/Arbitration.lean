import Mathlib.Data.List.Perm.Basic

/-! # An arbiter: one active member and a queue

A member joins by becoming active, or by waiting in the queue if another one is active. `elect`
puts the active member last and makes the first active; `dismiss` takes a member out, and the next
of the queue becomes active if it was the active one. All of them only permute the members, apart
from the one that comes or goes (`join_perm`, `elect_perm`, `dismiss_perm`), and keep the arbiter
busy: something is active as long as anybody waits (`Busy`). Queueing without electing (`park`)
keeps it busy only if something is active. -/

namespace DobieStation.Lib.Arbitration

variable {ι : Type}

structure Arbiter (ι : Type) where
  active : Option ι
  queue : List ι

namespace Arbiter

/-- The active member and those who wait. -/
def members (a : Arbiter ι) : List ι := a.active.toList ++ a.queue

/-- Something is active as long as anybody waits. -/
def Busy (a : Arbiter ι) : Prop := a.active = none → a.queue = []

def park (a : Arbiter ι) (c : ι) : Arbiter ι := { a with queue := a.queue ++ [c] }

def join (a : Arbiter ι) (c : ι) : Arbiter ι :=
  match a.active with
  | none => { a with active := some c }
  | some _ => a.park c

def elect (a : Arbiter ι) : Arbiter ι :=
  match a.queue ++ a.active.toList with
  | [] => a
  | c :: rest => ⟨some c, rest⟩

def dismiss [DecidableEq ι] (a : Arbiter ι) (c : ι) : Arbiter ι :=
  if a.active = some c then elect ⟨none, a.queue⟩ else { a with queue := a.queue.erase c }

variable {a : Arbiter ι} {c : ι}

theorem park_perm : (a.park c).members.Perm (c :: a.members) := by
  unfold members park
  rw [← List.append_assoc]
  exact List.perm_append_singleton c _

theorem join_perm : (a.join c).members.Perm (c :: a.members) := by
  unfold join
  split
  · rename_i h
    simp [members, h]
  · exact park_perm

theorem elect_perm : a.elect.members.Perm a.members := by
  unfold elect
  split
  · exact List.Perm.refl _
  · rename_i c rest h
    show (c :: rest).Perm _
    rw [← h]
    exact List.perm_append_comm

theorem elect_of_queue_nil (h : a.queue = []) : a.elect = a := by
  obtain ⟨active, queue⟩ := a
  subst h
  cases active <;> rfl

theorem dismiss_perm [DecidableEq ι] : (a.dismiss c).members.Perm (a.members.erase c) := by
  unfold dismiss
  split_ifs with h
  · refine elect_perm.trans ?_
    simp [members, h]
  · unfold members
    cases hact : a.active with
    | none => simp
    | some b =>
      rw [hact] at h
      have hbc : b ≠ c := fun hc => h (by rw [hc])
      simp [hbc]

theorem park_busy (h : a.active ≠ none) : (a.park c).Busy := fun hc => absurd hc h

theorem join_busy : (a.join c).Busy := by
  unfold join
  split
  · intro hc
    cases hc
  · rename_i b hb
    exact park_busy (by rw [hb]; exact Option.some_ne_none b)

theorem elect_busy : a.elect.Busy := by
  unfold elect
  split
  · rename_i h
    intro _
    exact (List.append_eq_nil_iff.mp h).1
  · intro hc
    cases hc

theorem dismiss_busy [DecidableEq ι] (h : a.Busy) : (a.dismiss c).Busy := by
  unfold dismiss
  split_ifs with hc
  · exact elect_busy
  · intro hn
    show a.queue.erase c = []
    rw [h hn]
    rfl

end Arbiter

/-- Without repetition, and with exactly the members `P` says. -/
def Holds (a : Arbiter ι) (P : ι → Prop) : Prop :=
  a.members.Nodup ∧ ∀ c, c ∈ a.members ↔ P c

variable {a b : Arbiter ι} {P Q : ι → Prop} {c : ι}

theorem Holds.perm (h : Holds a P) (hp : b.members.Perm a.members) : Holds b P :=
  ⟨hp.nodup_iff.mpr h.1, fun d => hp.mem_iff.trans (h.2 d)⟩

/-- A new member. -/
theorem Holds.cons (h : Holds a P) (hp : b.members.Perm (c :: a.members)) (hc : ¬ P c)
    (hQ : ∀ d, Q d ↔ d = c ∨ P d) : Holds b Q := by
  refine ⟨hp.nodup_iff.mpr (List.nodup_cons.mpr ⟨fun hm => hc ((h.2 c).mp hm), h.1⟩), fun d => ?_⟩
  rw [hp.mem_iff, List.mem_cons, h.2 d, hQ d]

/-- A member that goes, or was none. -/
theorem Holds.erase [DecidableEq ι] (h : Holds a P) (hp : b.members.Perm (a.members.erase c))
    (hQ : ∀ d, Q d ↔ d ≠ c ∧ P d) : Holds b Q := by
  refine ⟨hp.nodup_iff.mpr (h.1.erase c), fun d => ?_⟩
  rw [hp.mem_iff, h.1.mem_erase_iff, h.2 d, hQ d]

theorem Holds.congr (h : Holds a P) (hQ : ∀ d, Q d ↔ P d) : Holds a Q :=
  ⟨h.1, fun d => (h.2 d).trans (hQ d).symm⟩

end DobieStation.Lib.Arbitration
