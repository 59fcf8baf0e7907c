import Mathlib.Data.List.Basic
import Mathlib.Data.List.Nodup
import Mathlib.Tactic.Common
import Mathlib.Tactic.SplitIfs

/-! # Doubly linked lists

The cells are numbers, 0 is no cell, and `next` and `prev` give the two links of a cell.
`Linked next prev p h l`: from `h` on the links make the list `l`, and the first cell has `p` before
it. Only the links of the members matter (`Linked.congr`); there are two operations, a new cell in
front (`Linked.push`) and a cell bypassed (`Linked.bypass`). -/

namespace DobieStation.Lib.LinkedList

variable {next prev next' prev' : ℕ → ℕ}

def Linked (next prev : ℕ → ℕ) : ℕ → ℕ → List ℕ → Prop
  | _, h, [] => h = 0
  | p, h, a :: l => h = a ∧ a ≠ 0 ∧ prev a = p ∧ Linked next prev a (next a) l

theorem Linked.congr {l : List ℕ} {p h : ℕ} (hl : Linked next prev p h l)
    (hnext : ∀ a ∈ l, next' a = next a) (hprev : ∀ a ∈ l, prev' a = prev a) :
    Linked next' prev' p h l := by
  induction l generalizing p h with
  | nil => exact hl
  | cons a l ih =>
    obtain ⟨rfl, h0, hp, ht⟩ := hl
    refine ⟨rfl, h0, by rw [hprev h (by simp), hp], ?_⟩
    rw [hnext h (by simp)]
    exact ih ht (fun b hb => hnext b (by simp [hb])) fun b hb => hprev b (by simp [hb])

theorem Linked.head_eq {l : List ℕ} {p h : ℕ} (hl : Linked next prev p h l) : h = l.headD 0 := by
  cases l with
  | nil => exact hl
  | cons a l => exact hl.1

theorem Linked.ne_zero {l : List ℕ} {p h a : ℕ} (hl : Linked next prev p h l) (ha : a ∈ l) :
    a ≠ 0 := by
  induction l generalizing p h with
  | nil => simp at ha
  | cons b l ih =>
    rcases List.mem_cons.mp ha with rfl | ha
    · exact hl.2.1
    · exact ih hl.2.2.2 ha

theorem Linked.head_mem {l : List ℕ} {p h : ℕ} (hl : Linked next prev p h l) (h0 : h ≠ 0) :
    h ∈ l := by
  cases l with
  | nil => exact absurd hl h0
  | cons a l =>
    rw [hl.1]
    exact List.mem_cons_self

theorem Linked.prev_head {l : List ℕ} {p h : ℕ} (hl : Linked next prev p h l) (h0 : h ≠ 0) :
    prev h = p := by
  cases l with
  | nil => exact absurd hl h0
  | cons a l => rw [hl.1, hl.2.2.1]

/-- After a cell comes no cell or one of the list. -/
theorem Linked.next_mem {l : List ℕ} {p h a : ℕ} (hl : Linked next prev p h l) (ha : a ∈ l) :
    next a = 0 ∨ next a ∈ l := by
  induction l generalizing p h with
  | nil => simp at ha
  | cons b l ih =>
    obtain ⟨-, -, -, ht⟩ := hl
    rcases List.mem_cons.mp ha with rfl | ha
    · rcases eq_or_ne (next a) 0 with h0 | h0
      · exact Or.inl h0
      · exact Or.inr (List.mem_cons_of_mem _ (ht.head_mem h0))
    · rcases ih ht ha with h | h
      · exact Or.inl h
      · exact Or.inr (List.mem_cons_of_mem _ h)

/-- The two links agree. -/
theorem Linked.prev_next {l : List ℕ} {p h a : ℕ} (hl : Linked next prev p h l) (ha : a ∈ l)
    (h0 : next a ≠ 0) : prev (next a) = a := by
  induction l generalizing p h with
  | nil => simp at ha
  | cons b l ih =>
    obtain ⟨-, -, -, ht⟩ := hl
    rcases List.mem_cons.mp ha with rfl | ha
    · exact ht.prev_head h0
    · exact ih ht ha

theorem Linked.next_prev {l : List ℕ} {p h a : ℕ} (hl : Linked next prev p h l) (ha : a ∈ l) :
    (prev a = p ∧ a = h) ∨ (prev a ∈ l ∧ next (prev a) = a) := by
  induction l generalizing p h with
  | nil => simp at ha
  | cons b l ih =>
    obtain ⟨rfl, -, hp, ht⟩ := hl
    rcases List.mem_cons.mp ha with rfl | ha
    · exact Or.inl ⟨hp, rfl⟩
    · rcases ih ht ha with ⟨h1, h2⟩ | ⟨h1, h2⟩
      · exact Or.inr ⟨by rw [h1]; exact List.mem_cons_self, by rw [h1, ← h2]⟩
      · exact Or.inr ⟨List.mem_cons_of_mem _ h1, h2⟩

theorem Linked.next_ne {l : List ℕ} {p h a : ℕ} (hl : Linked next prev p h l) (hnd : l.Nodup)
    (ha : a ∈ l) : next a ≠ a := by
  induction l generalizing p h with
  | nil => simp at ha
  | cons b l ih =>
    obtain ⟨-, h0, -, ht⟩ := hl
    obtain ⟨hb, hnd'⟩ := List.nodup_cons.mp hnd
    rcases List.mem_cons.mp ha with rfl | ha
    · intro he
      exact hb (by rw [← he]; exact ht.head_mem (by rwa [he]))
    · exact ih ht hnd' ha

/-- **A cell in front.** -/
theorem Linked.push {l : List ℕ} {h e : ℕ} (hl : Linked next prev 0 h l) (hnd : l.Nodup)
    (he : e ≠ 0) (hnext : next' e = h) (hprev : prev' e = 0)
    (hnexts : ∀ a ∈ l, next' a = next a) (hhead : h ≠ 0 → prev' h = e)
    (hprevs : ∀ a ∈ l, a ≠ h → prev' a = prev a) : Linked next' prev' 0 e (e :: l) := by
  refine ⟨rfl, he, hprev, ?_⟩
  rw [hnext]
  cases l with
  | nil => exact hl
  | cons a l =>
    obtain ⟨rfl, h0, -, ht⟩ := hl
    refine ⟨rfl, h0, hhead h0, ?_⟩
    rw [hnexts h (by simp)]
    refine ht.congr (fun b hb => hnexts b (by simp [hb])) fun b hb => hprevs b (by simp [hb]) ?_
    rintro rfl
    exact (List.nodup_cons.mp hnd).1 hb

/-- **A cell bypassed**: who pointed to `e` points to where `e` points. -/
theorem Linked.bypass {l : List ℕ} {p h e n q : ℕ} (hl : Linked next prev p h l) (hnd : l.Nodup)
    (he : e ∈ l) (hpl : p ∉ l) (hn : next e = n) (hq : prev e = q)
    (hnext : ∀ a ∈ l, a ≠ e → next' a = if next a = e then n else next a)
    (hprev : ∀ a ∈ l, a ≠ e → prev' a = if prev a = e then q else prev a) :
    Linked next' prev' p (if h = e then n else h) (l.erase e) := by
  subst hn hq
  induction l generalizing p h with
  | nil => simp at he
  | cons b l ih =>
    obtain ⟨rfl, h0, hp, ht⟩ := hl
    obtain ⟨hbl, hnd'⟩ := List.nodup_cons.mp hnd
    rcases eq_or_ne h e with rfl | hne
    · rw [if_pos rfl, List.erase_cons_head]
      have hnexts : ∀ a ∈ l, next' a = next a := by
        intro a ha
        have hah : a ≠ h := by
          rintro rfl
          exact hbl ha
        rw [hnext a (List.mem_cons_of_mem _ ha) hah, if_neg]
        rintro hea
        rcases ht.next_mem ha with h' | h'
        · exact h0 (hea ▸ h')
        · exact hbl (hea ▸ h')
      cases l with
      | nil => exact ht
      | cons c l =>
        obtain ⟨hc, hc0, hcp, ht'⟩ := ht
        have hcl := (List.nodup_cons.mp hnd').1
        refine ⟨hc, hc0, ?_, ?_⟩
        · have hch : c ≠ h := by
            rintro rfl
            exact hbl List.mem_cons_self
          rw [hprev c (by simp) hch, if_pos hcp, hp]
        · rw [hnexts c (by simp)]
          refine ht'.congr (fun a ha => hnexts a (by simp [ha])) fun a ha => ?_
          have hah : a ≠ h := by
            rintro rfl
            exact hbl (by simp [ha])
          rw [hprev a (by simp [ha]) hah, if_neg]
          intro hpa
          rcases ht'.next_prev ha with ⟨h', -⟩ | ⟨h', -⟩
          · exact hbl (by rw [← hpa, h']; exact List.mem_cons_self)
          · exact hbl (by rw [← hpa]; exact List.mem_cons_of_mem _ h')
    · have hel : e ∈ l := by
        rcases List.mem_cons.mp he with h' | h'
        · exact absurd h'.symm hne
        · exact h'
      rw [if_neg hne, List.erase_cons_tail (by simpa using hne)]
      have hpe : p ≠ e := by
        rintro rfl
        exact hpl he
      refine ⟨rfl, h0, ?_, ?_⟩
      · rw [hprev h (by simp) hne, hp, if_neg hpe]
      · rw [hnext h (by simp) hne]
        exact ih ht hnd' hel hbl (fun a ha => hnext a (by simp [ha]))
          fun a ha => hprev a (by simp [ha])

end DobieStation.Lib.LinkedList
