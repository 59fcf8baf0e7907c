import Mathlib.Data.List.Infix

/-! # Prefix codes

The entries of a code have a word each. In a prefix-free code at most one entry's word begins an input, and
no entry's word begins an input that ends inside another word. -/

namespace PrefixCode

variable {α ι : Type*} {word : ι → List α} {C : List ι} {s : List α}

/-- No entry's word begins another's. -/
def PrefixFree (word : ι → List α) (C : List ι) : Prop :=
  C.Pairwise fun e f => ¬ word e <+: word f ∧ ¬ word f <+: word e

/-- However the input goes on, no entry's word begins it. -/
def Dead (word : ι → List α) (C : List ι) (s : List α) : Prop :=
  ∀ t, s <+: t → ∀ e ∈ C, ¬ word e <+: t

/-- The input has to go on before it is known whether an entry's word begins it. -/
def Undecided (word : ι → List α) (C : List ι) (s : List α) : Prop :=
  (∀ e ∈ C, ¬ word e <+: s) ∧ ¬ Dead word C s

theorem PrefixFree.eq_of_prefix (h : PrefixFree word C) {e f : ι} (he : e ∈ C) (hf : f ∈ C)
    (hef : word e <+: word f) : e = f := by
  by_contra hne
  rcases List.pairwise_iff_getElem.mp h with hp
  obtain ⟨i, hi, rfl⟩ := List.getElem_of_mem he
  obtain ⟨j, hj, rfl⟩ := List.getElem_of_mem hf
  rcases Nat.lt_trichotomy i j with hij | rfl | hij
  · exact (hp i j hi hj hij).1 hef
  · exact hne rfl
  · exact (hp j i hj hi hij).2 hef

/-- The entry whose word begins the input is unique. -/
theorem PrefixFree.unique (h : PrefixFree word C) {e f : ι} (he : e ∈ C) (hf : f ∈ C)
    (hes : word e <+: s) (hfs : word f <+: s) : e = f := by
  rcases List.prefix_or_prefix_of_prefix hes hfs with hef | hfe
  · exact h.eq_of_prefix he hf hef
  · exact (h.eq_of_prefix hf he hfe).symm

/-- Inside a word no other word has been read. -/
theorem PrefixFree.not_prefix (h : PrefixFree word C) {e : ι} (he : e ∈ C) (hs : s <+: word e)
    (hne : s ≠ word e) : ∀ f ∈ C, ¬ word f <+: s := by
  intro f hf hfs
  obtain rfl := h.eq_of_prefix hf he (hfs.trans hs)
  exact hne (hs.eq_of_length (hs.length_le.antisymm hfs.length_le))

theorem dead_iff : Dead word C s ↔ ∀ e ∈ C, ¬ word e <+: s ∧ ¬ s <+: word e := by
  constructor
  · intro h e he
    exact ⟨h s List.prefix_rfl e he, fun hs => h (word e) hs e he List.prefix_rfl⟩
  · intro h t hst e he het
    rcases List.prefix_or_prefix_of_prefix hst het with hse | hes
    · exact (h e he).2 hse
    · exact (h e he).1 hes

/-- An input as long as every word that none begins. -/
theorem dead_of_length (hlen : ∀ e ∈ C, (word e).length ≤ s.length) (h : ∀ e ∈ C, ¬ word e <+: s) :
    Dead word C s := by
  rw [dead_iff]
  intro e he
  refine ⟨h e he, fun hs => h e he ?_⟩
  rw [hs.eq_of_length (hs.length_le.antisymm (hlen e he))]

end PrefixCode
