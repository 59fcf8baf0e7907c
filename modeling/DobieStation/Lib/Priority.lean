import DobieStation.Lib.Arbitration
import Mathlib.Order.MinMax

/-! # An arbiter whose active member is the greatest

A member that joins takes the place of a smaller active one, which goes to the queue (`seize`). When
the active one leaves, the greatest of the queue takes its place (`promote`). The active member is
then the greatest of all (`Led`), and there is one as long as there is any member. -/

namespace DobieStation.Lib.Arbitration

variable {ι : Type} [LinearOrder ι]

local instance lawfulOrderMax : Std.LawfulOrderMax ι where
  max_eq_or := max_choice

namespace Arbiter

/-- Every member is at most the active one. -/
def Led (a : Arbiter ι) : Prop := ∀ c ∈ a.members, ∃ b, a.active = some b ∧ c ≤ b

def seize (a : Arbiter ι) (c : ι) : Arbiter ι :=
  match a.active with
  | none => { a with active := some c }
  | some b => if b < c then ⟨some c, a.queue ++ [b]⟩ else a.park c

def promote (a : Arbiter ι) : Arbiter ι :=
  match a.queue.max? with
  | none => { a with active := none }
  | some c => ⟨some c, a.queue.erase c⟩

def withdraw (a : Arbiter ι) (c : ι) : Arbiter ι :=
  if a.active = some c then a.promote else { a with queue := a.queue.erase c }

variable {a b : Arbiter ι} {c : ι}

theorem Led.of_subset (h : a.Led) (hact : b.active = a.active)
    (hsub : ∀ d ∈ b.members, d ∈ a.members) : b.Led := by
  intro d hd
  rw [hact]
  exact h d (hsub d hd)

theorem seize_perm : (a.seize c).members.Perm (c :: a.members) := by
  unfold seize
  split
  · rename_i h
    simp [members, h]
  · rename_i b h
    split_ifs
    · have hm : a.members = b :: a.queue := by simp [members, h]
      rw [hm]
      exact (List.perm_append_singleton b a.queue).cons c
    · exact park_perm

theorem promote_perm : a.promote.members.Perm a.queue := by
  unfold promote
  split
  · simp [members]
  · rename_i c h
    exact (List.perm_cons_erase (List.max?_eq_some_iff.mp h).1).symm

theorem withdraw_perm : (a.withdraw c).members.Perm (a.members.erase c) := by
  unfold withdraw
  split_ifs with h
  · refine promote_perm.trans ?_
    simp [members, h]
  · unfold members
    cases hact : a.active with
    | none => simp
    | some b =>
      have hbc : b ≠ c := by
        rintro rfl
        exact h hact
      simp [hbc]

theorem seize_led (h : a.Led) : (a.seize c).Led := by
  intro d hd
  rw [seize_perm.mem_iff, List.mem_cons] at hd
  unfold seize
  split
  · rename_i hact
    rcases hd with rfl | hd
    · exact ⟨d, rfl, le_rfl⟩
    · obtain ⟨b, hb, -⟩ := h d hd
      rw [hact] at hb
      cases hb
  · rename_i b hact
    have hle : d ∈ a.members → d ≤ b := by
      intro hm
      obtain ⟨b', hb, hdb⟩ := h d hm
      obtain rfl : b = b' := by simpa [hact] using hb
      exact hdb
    split_ifs with hbc
    · refine ⟨c, rfl, ?_⟩
      rcases hd with rfl | hd
      · exact le_rfl
      · exact (hle hd).trans hbc.le
    · refine ⟨b, hact, ?_⟩
      rcases hd with rfl | hd
      · exact not_lt.mp hbc
      · exact hle hd

theorem promote_led : a.promote.Led := by
  intro d hd
  rw [promote_perm.mem_iff] at hd
  unfold promote
  split
  · rename_i h
    rw [List.max?_eq_none_iff.mp h] at hd
    cases hd
  · rename_i c h
    exact ⟨c, rfl, (List.max?_eq_some_iff.mp h).2 d hd⟩

theorem withdraw_led (h : a.Led) : (a.withdraw c).Led := by
  unfold withdraw
  split_ifs with hc
  · exact promote_led
  · refine h.of_subset rfl fun d hd => ?_
    rcases List.mem_append.mp hd with hd | hd
    · exact List.mem_append_left _ hd
    · exact List.mem_append_right _ (List.mem_of_mem_erase hd)

/-- The greatest member is the active one. -/
theorem Led.active_of_greatest (h : a.Led) (hc : c ∈ a.members) (hle : ∀ d ∈ a.members, d ≤ c) :
    a.active = some c := by
  obtain ⟨b, hb, hcb⟩ := h c hc
  have hm : b ∈ a.members := List.mem_append_left _ (by simp [hb])
  rw [hb, le_antisymm (hle b hm) hcb]

end Arbiter

end DobieStation.Lib.Arbitration
