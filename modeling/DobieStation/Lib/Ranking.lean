import Mathlib.Logic.Function.Iterate
import Mathlib.Order.WellFounded

/-! # What iterating a function leads to

`Leads f P Q`: from every state of `P`, finitely many applications of `f` reach a state of `Q`. The rule
`Leads.of_rank` asks for a rank that goes down until `Q` holds, and `Leads.trans` joins two legs. -/

namespace DobieStation.Lib.Ranking

variable {S W : Type*} {f : S → S} {P Q R : S → Prop}

def Leads (f : S → S) (P Q : S → Prop) : Prop := ∀ s, P s → ∃ n : ℕ, Q (f^[n] s)

theorem Leads.mono {P' Q' : S → Prop} (h : Leads f P Q) (hP : ∀ s, P' s → P s)
    (hQ : ∀ s, Q s → Q' s) : Leads f P' Q' := by
  intro s hs
  obtain ⟨n, hn⟩ := h s (hP s hs)
  exact ⟨n, hQ _ hn⟩

theorem Leads.trans (h : Leads f P Q) (h' : Leads f Q R) : Leads f P R := by
  intro s hs
  obtain ⟨n, hn⟩ := h s hs
  obtain ⟨m, hm⟩ := h' _ hn
  refine ⟨m + n, ?_⟩
  rwa [Function.iterate_add_apply]

/-- **The rule of the rank.** Each application reaches `Q`, or keeps `P` with a smaller rank. -/
theorem Leads.of_rank [Preorder W] [WellFoundedLT W] (rank : S → W)
    (h : ∀ s, P s → Q (f s) ∨ (P (f s) ∧ rank (f s) < rank s)) : Leads f P Q := by
  have main : ∀ w s, rank s = w → P s → ∃ n : ℕ, Q (f^[n] s) := by
    intro w
    induction w using WellFoundedLT.induction with
    | ind w ih =>
      intro s hw hs
      rcases h s hs with hq | ⟨hp, hlt⟩
      · exact ⟨1, hq⟩
      · obtain ⟨n, hn⟩ := ih (rank (f s)) (by rw [← hw]; exact hlt) (f s) rfl hp
        exact ⟨n + 1, hn⟩
  intro s hs
  exact main (rank s) s rfl hs

end DobieStation.Lib.Ranking
