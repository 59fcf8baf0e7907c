import DobieStation.EeJit.Cycles
import Mathlib.Tactic.Basic

/-! # What the cycle counts of a block keep

The starts that `issue_cycle_analysis` gives determine a shape: which instructions are alone and which
come in pairs. A pass that adds penalties keeps the shape, but for a pair at the head of the block:
nothing tells the loop that the second instruction belongs to the first, so a penalty of the first one
splits the pair. -/

namespace DobieStation.EeJit.CycleCount

open DobieStation.EeJit.Cycles

/-! ### What is promised -/

def start (l : List InstrInfo) (i : ℕ) : Option ℕ := l[i]?.map InstrInfo.cyclesBefore

def ends (l : List InstrInfo) : Option ℕ := l.getLast?.map InstrInfo.cyclesAfter

structure Consistent (r : Analysis) : Prop where
  nondecreasing : r.instrInfo.Pairwise fun x y => x.cyclesBefore ≤ y.cyclesBefore
  before_le_after : ∀ x ∈ r.instrInfo, x.cyclesBefore ≤ x.cyclesAfter
  paired : ∀ i, i + 1 < r.issued.length → start r.issued i = start r.issued (i + 1) →
    start r.instrInfo i = start r.instrInfo (i + 1)
  last : ends r.instrInfo = some r.cycleCount

/-- The first instruction is issued with the second, and holds up what follows: it is a load or a
store, or it waits for itself. -/
def HeldUp (a : InstrInfo) (rest : List InstrInfo) : Prop :=
  ∃ b ∈ rest.head?, dualIssueAnalysis a b = some true ∧
    (a.isBiased ∨ ¬ a.writeDependencies.Nodup ∧ a.latency ≠ 0)

/-! ### Shapes -/

/-- `true` stands for a pair. -/
inductive Shaped : List Bool → ℕ → List InstrInfo → Prop
  | nil (lo : ℕ) : Shaped [] lo []
  | single {p : List Bool} {lo : ℕ} {a : InstrInfo} {l : List InstrInfo} (low : lo ≤ a.cyclesBefore)
      (runs : a.cyclesBefore < a.cyclesAfter) (rest : Shaped p (a.cyclesBefore + 1) l) :
      Shaped (false :: p) lo (a :: l)
  | pair {p : List Bool} {lo : ℕ} {a b : InstrInfo} {l : List InstrInfo} (low : lo ≤ a.cyclesBefore)
      (together : b.cyclesBefore = a.cyclesBefore) (runs : a.cyclesBefore < a.cyclesAfter)
      (runs' : b.cyclesBefore < b.cyclesAfter) (rest : Shaped p (a.cyclesBefore + 1) l) :
      Shaped (true :: p) lo (a :: b :: l)

variable {p : List Bool} {lo lo' : ℕ} {a b : InstrInfo} {l l' rest : List InstrInfo}

theorem Shaped.low (h : Shaped p lo l) : ∀ x ∈ l, lo ≤ x.cyclesBefore := by
  induction h with
  | nil lo => simp
  | single low runs rest ih =>
    rintro x hx
    rcases List.mem_cons.mp hx with rfl | hx
    · exact low
    · have := ih x hx
      omega
  | pair low together runs runs' rest ih =>
    rintro x hx
    rcases List.mem_cons.mp hx with rfl | hx
    · exact low
    rcases List.mem_cons.mp hx with rfl | hx
    · omega
    · have := ih x hx
      omega

theorem Shaped.nondecreasing (h : Shaped p lo l) :
    l.Pairwise fun x y => x.cyclesBefore ≤ y.cyclesBefore := by
  induction h with
  | nil lo => exact .nil
  | single low runs rest ih =>
    refine .cons (fun x hx => ?_) ih
    have := rest.low x hx
    omega
  | pair low together runs runs' rest ih =>
    have hrest := rest.low
    refine .cons (fun x hx => ?_) (.cons (fun x hx => ?_) ih)
    · rcases List.mem_cons.mp hx with rfl | hx
      · omega
      · have := hrest x hx
        omega
    · have := hrest x hx
      omega

theorem Shaped.before_lt_after (h : Shaped p lo l) : ∀ x ∈ l, x.cyclesBefore < x.cyclesAfter := by
  induction h with
  | nil lo => simp
  | single low runs rest ih => simpa [runs] using ih
  | pair low together runs runs' rest ih => simpa [runs, runs'] using ih

theorem Shaped.startsWith (h : Shaped p (a.cyclesBefore + 1) l) : startsWith a l = false := by
  cases l with
  | nil => rfl
  | cons x l =>
    have := h.low x (by simp)
    simp only [Cycles.startsWith, beq_eq_false_iff_ne]
    omega

theorem Shaped.start_ne (h : Shaped p (a.cyclesBefore + 1) l) (hl : l ≠ []) :
    some a.cyclesBefore ≠ start l 0 := by
  cases l with
  | nil => exact absurd rfl hl
  | cons x l =>
    have := h.low x (by simp)
    simp only [start, List.getElem?_cons_zero, Option.map_some, ne_eq, Option.some.injEq]
    omega

theorem start_cons (i : ℕ) : start (a :: l) (i + 1) = start l i := by
  simp [start]

/-- Blocks of one shape have the same pairs. -/
theorem Shaped.paired (h : Shaped p lo l) (h' : Shaped p lo' l') :
    ∀ i, i + 1 < l.length → start l i = start l (i + 1) → start l' i = start l' (i + 1) := by
  induction h generalizing lo' l' with
  | nil lo => intro i hi; simp at hi
  | @single p lo a l low runs rest ih =>
    cases h' with
    | single low' runs' rest' =>
      intro i hi heq
      cases i with
      | zero =>
        refine absurd heq ?_
        rw [start_cons]
        refine rest.start_ne ?_
        rintro rfl
        simp at hi
      | succ i =>
        simp only [start_cons] at heq ⊢
        exact ih rest' i (by simpa using hi) heq
  | @pair p lo a b l low together runs runs' rest ih =>
    cases h' with
    | @pair _ _ a' b' l' low' together' _ _ rest' =>
      intro i hi heq
      rcases i with _ | _ | i
      · simp [start, together']
      · refine absurd heq ?_
        rw [start_cons, start_cons, start_cons]
        have hne := rest.start_ne (a := a) (l := l) (by rintro rfl; simp at hi)
        simpa [start, together] using hne
      · simp only [start_cons] at heq ⊢
        exact ih rest' i (by simpa using hi) heq

/-! ### A pass keeps the shape behind the head of the block -/

@[simp] theorem startingAt_cyclesBefore (n : ℕ) : (a.startingAt n).cyclesBefore = n := rfl

@[simp] theorem startingAt_cyclesAfter (n : ℕ) : (a.startingAt n).cyclesAfter = a.cyclesAfter := rfl

@[simp] theorem endingAt_cyclesBefore (n : ℕ) : (a.endingAt n).cyclesBefore = a.cyclesBefore := rfl

@[simp] theorem endingAt_cyclesAfter (n : ℕ) : (a.endingAt n).cyclesAfter = n := rfl

section

variable {σ : Type} {visit : σ → InstrInfo → σ} {penalty : σ → ℕ} {s : σ}

theorem propagate_second : propagate visit penalty true s a (b :: l) =
    (a.endingAt (a.cyclesAfter + penalty (visit s a)) ::
        (propagate visit penalty false (visit s a) (b.startingAt a.cyclesBefore) l).1,
      (propagate visit penalty false (visit s a) (b.startingAt a.cyclesBefore) l).2) := rfl

theorem propagate_next : propagate visit penalty false s a (b :: l) =
    (a.endingAt (a.cyclesAfter + penalty (visit s a)) ::
        (propagate visit penalty (startsWith b l) (visit s a)
          (b.startingAt (b.cyclesBefore + penalty (visit s a))) l).1,
      (propagate visit penalty (startsWith b l) (visit s a)
        (b.startingAt (b.cyclesBefore + penalty (visit s a))) l).2) := rfl

/-- The pairs are found as long as the starts of different pairs differ. -/
theorem Shaped.propagate (hmono : ∀ s x, penalty s ≤ penalty (visit s x)) {c : ℕ}
    (h : Shaped p (c + 1) l) (ha : a.cyclesBefore ≤ c + penalty s) :
    ∃ out, (propagate visit penalty false s a l).1 =
        a.endingAt (a.cyclesAfter + penalty (visit s a)) :: out ∧
      Shaped p (a.cyclesBefore + 1) out := by
  generalize hlo : c + 1 = lo at h
  induction h generalizing a s c with
  | nil lo => exact ⟨[], rfl, .nil _⟩
  | @single p lo b l low runs rest ih =>
    have hs := hmono s a
    have hs' := hmono (visit s a) (b.startingAt (b.cyclesBefore + penalty (visit s a)))
    obtain ⟨out, hout, hshape⟩ := ih (s := visit s a)
      (a := b.startingAt (b.cyclesBefore + penalty (visit s a))) (Nat.le_refl _) rfl
    rw [propagate_next, rest.startsWith, hout]
    refine ⟨_, rfl, .single ?_ ?_ hshape⟩
    · simp only [endingAt_cyclesBefore, startingAt_cyclesBefore]
      omega
    · simp only [endingAt_cyclesBefore, startingAt_cyclesBefore, endingAt_cyclesAfter,
        startingAt_cyclesAfter]
      omega
  | @pair p lo b d l low together runs runs' rest ih =>
    have hs := hmono s a
    have hs' := hmono (visit s a) (b.startingAt (b.cyclesBefore + penalty (visit s a)))
    have hs'' := hmono (visit (visit s a) (b.startingAt (b.cyclesBefore + penalty (visit s a))))
      (d.startingAt (b.cyclesBefore + penalty (visit s a)))
    obtain ⟨out, hout, hshape⟩ := ih
      (s := visit (visit s a) (b.startingAt (b.cyclesBefore + penalty (visit s a))))
      (a := d.startingAt (b.cyclesBefore + penalty (visit s a))) (Nat.add_le_add_left hs' _) rfl
    have hsame : Cycles.startsWith b (d :: l) = true := by simp [Cycles.startsWith, together]
    rw [propagate_next, hsame, propagate_second]
    simp only [startingAt_cyclesBefore, startingAt_cyclesAfter, hout]
    refine ⟨_, rfl, .pair ?_ rfl ?_ ?_ hshape⟩
    · simp only [endingAt_cyclesBefore, startingAt_cyclesBefore]
      omega
    · simp only [endingAt_cyclesBefore, startingAt_cyclesBefore, endingAt_cyclesAfter]
      omega
    · simp only [endingAt_cyclesBefore, startingAt_cyclesBefore, endingAt_cyclesAfter]
      omega

/-- What a penalty `k` of the first instruction makes of the shape. -/
def splitHead (k : ℕ) : List Bool → List Bool
  | true :: p => if k = 0 then true :: p else false :: false :: p
  | p => p

theorem Shaped.propagateAll (hmono : ∀ s x, penalty s ≤ penalty (visit s x))
    (h : Shaped p lo (a :: rest)) :
    ∃ out, (propagateAll visit penalty s (a :: rest)).1 =
        a.endingAt (a.cyclesAfter + penalty (visit s a)) :: out ∧
      Shaped (splitHead (penalty (visit s a)) p) lo
        (a.endingAt (a.cyclesAfter + penalty (visit s a)) :: out) := by
  cases h with
  | single low runs rest =>
    obtain ⟨out, hout, hshape⟩ := rest.propagate (s := s) (a := a) hmono (Nat.le_add_right _ _)
    refine ⟨out, hout, .single low ?_ hshape⟩
    simp only [endingAt_cyclesBefore, endingAt_cyclesAfter]
    omega
  | @pair p _ _ b l low together runs runs' rest =>
    have hrest : Shaped p (b.cyclesBefore + 1) l := together ▸ rest
    have hs := hmono (visit s a) (b.startingAt (b.cyclesBefore + penalty (visit s a)))
    obtain ⟨out, hout, hshape⟩ := hrest.propagate (s := visit s a)
      (a := b.startingAt (b.cyclesBefore + penalty (visit s a))) hmono (Nat.le_refl _)
    rw [Cycles.propagateAll, propagate_next, hrest.startsWith, hout]
    refine ⟨_, rfl, ?_⟩
    simp only [startingAt_cyclesBefore] at hshape
    unfold splitHead
    split_ifs with hk
    · rw [hk, Nat.add_zero, together] at hshape
      refine .pair low ?_ ?_ ?_ hshape
      · simp only [endingAt_cyclesBefore, startingAt_cyclesBefore]
        omega
      · simp only [endingAt_cyclesBefore, endingAt_cyclesAfter]
        omega
      · simp only [endingAt_cyclesBefore, endingAt_cyclesAfter, startingAt_cyclesBefore,
          startingAt_cyclesAfter]
        omega
    · refine .single low ?_ (.single ?_ ?_ hshape)
      · simp only [endingAt_cyclesBefore, endingAt_cyclesAfter]
        omega
      · simp only [endingAt_cyclesBefore, startingAt_cyclesBefore]
        omega
      · simp only [endingAt_cyclesBefore, endingAt_cyclesAfter, startingAt_cyclesBefore,
          startingAt_cyclesAfter]
        omega

theorem ends_cons (hl : l ≠ []) : ends (a :: l) = ends l := by
  cases l with
  | nil => exact absurd rfl hl
  | cons b l => rw [ends, List.getLast?_cons_cons, ends]

theorem ends_startingAt (n : ℕ) : ends (a.startingAt n :: l) = ends (a :: l) := by
  cases l with
  | nil => rfl
  | cons b l => rw [ends_cons (List.cons_ne_nil b l), ends_cons (List.cons_ne_nil b l)]

theorem propagate_ne_nil (dualIssue : Bool) : (propagate visit penalty dualIssue s a l).1 ≠ [] := by
  cases l <;> simp [Cycles.propagate]

/-- The last instruction ends later by the whole penalty. -/
theorem ends_propagate (dualIssue : Bool) :
    ends (propagate visit penalty dualIssue s a l).1 =
      (ends (a :: l)).map (· + penalty (propagate visit penalty dualIssue s a l).2) := by
  induction l generalizing dualIssue s a with
  | nil => rfl
  | cons b l ih =>
    rw [ends_cons (List.cons_ne_nil b l)]
    cases dualIssue with
    | true => rw [propagate_second, ends_cons (propagate_ne_nil _), ih, ends_startingAt]
    | false => rw [propagate_next, ends_cons (propagate_ne_nil _), ih, ends_startingAt]

variable (a l visit penalty s) in
theorem ends_propagateAll :
    ends (propagateAll visit penalty s (a :: l)).1 =
      (ends (a :: l)).map (· + penalty (propagateAll visit penalty s (a :: l)).2) :=
  ends_propagate false

end

/-! ### The instructions are issued -/

theorem issueCycleAnalysis_pair {c : ℕ} (h : dualIssueAnalysis a b = some true) :
    issueCycleAnalysis c (a :: b :: l) = (issueCycleAnalysis (c + 1) l).map
      fun r => (a.issuedAt c :: b.issuedAt c :: r.1, r.2) := by
  rw [issueCycleAnalysis, h]
  cases issueCycleAnalysis (c + 1) l <;> rfl

theorem issueCycleAnalysis_single {c : ℕ} (h : dualIssueAnalysis a b = some false) :
    issueCycleAnalysis c (a :: b :: l) = (issueCycleAnalysis (c + 1) (b :: l)).map
      fun r => (a.issuedAt c :: r.1, r.2) := by
  rw [issueCycleAnalysis, h]
  cases issueCycleAnalysis (c + 1) (b :: l) <;> rfl

theorem Shaped.issue {c : ℕ} (h : Shaped p (c + 1) l) : Shaped (false :: p) c (a.issuedAt c :: l) :=
  .single (Nat.le_refl c) (Nat.lt_succ_self c) h

theorem Shaped.issuePair {c : ℕ} (h : Shaped p (c + 1) l) :
    Shaped (true :: p) c (a.issuedAt c :: b.issuedAt c :: l) :=
  .pair (Nat.le_refl c) rfl (Nat.lt_succ_self c) (Nat.lt_succ_self c) h

theorem ends_cons_of {c c' : ℕ} (hnil : l = [] → c' = c + 1) (hl : l ≠ [] → ends l = some c') :
    ends (a.issuedAt c :: l) = some c' := by
  cases l with
  | nil => rw [hnil rfl]; rfl
  | cons b l => rw [ends_cons (List.cons_ne_nil b l), hl (List.cons_ne_nil b l)]

/-- Every cycle issues one instruction or a pair. -/
theorem issueCycleAnalysis_shaped : ∀ {l out : List InstrInfo} {c c' : ℕ},
    issueCycleAnalysis c l = some (out, c') →
      (∃ p, Shaped p c out) ∧ (out = [] → c' = c) ∧ (out ≠ [] → ends out = some c')
  | [], out, c, c', h => by
    cases h
    exact ⟨⟨[], .nil _⟩, fun _ => rfl, fun h => absurd rfl h⟩
  | [a], out, c, c', h => by
    cases h
    exact ⟨⟨_, (Shaped.nil _).issue⟩, fun h => (List.cons_ne_nil _ _ h).elim, fun _ => rfl⟩
  | a :: b :: l, out, c, c', h => by
    rcases hd : dualIssueAnalysis a b with _ | _ | _
    · rw [issueCycleAnalysis, hd] at h
      cases h
    · rw [issueCycleAnalysis_single hd] at h
      obtain ⟨⟨out, c'⟩, hrest, heq⟩ := Option.map_eq_some_iff.mp h
      cases heq
      obtain ⟨⟨p, hp⟩, hnil, hends⟩ := issueCycleAnalysis_shaped hrest
      exact ⟨⟨_, hp.issue⟩, fun h => (List.cons_ne_nil _ _ h).elim, fun _ => ends_cons_of hnil hends⟩
    · rw [issueCycleAnalysis_pair hd] at h
      obtain ⟨⟨out, c'⟩, hrest, heq⟩ := Option.map_eq_some_iff.mp h
      cases heq
      obtain ⟨⟨p, hp⟩, hnil, hends⟩ := issueCycleAnalysis_shaped hrest
      refine ⟨⟨_, hp.issuePair⟩, fun h => (List.cons_ne_nil _ _ h).elim, fun _ => ?_⟩
      rw [ends_cons (List.cons_ne_nil _ _)]
      exact ends_cons_of hnil hends

/-- The block starts with a pair if the first two instructions can be issued together. -/
theorem issueCycleAnalysis_head {out : List InstrInfo} {c c' : ℕ}
    (h : issueCycleAnalysis c (a :: rest) = some (out, c')) :
    ∃ p tail, out = a.issuedAt c :: tail ∧ Shaped p c out ∧
      (p.head? = some true ↔ ∃ b ∈ rest.head?, dualIssueAnalysis a b = some true) := by
  cases rest with
  | nil =>
    cases h
    exact ⟨_, [], rfl, (Shaped.nil _).issue, by simp⟩
  | cons b l =>
    rcases hd : dualIssueAnalysis a b with _ | _ | _
    · rw [issueCycleAnalysis, hd] at h
      cases h
    · rw [issueCycleAnalysis_single hd] at h
      obtain ⟨⟨out, c'⟩, hrest, heq⟩ := Option.map_eq_some_iff.mp h
      cases heq
      obtain ⟨⟨p, hp⟩, -⟩ := issueCycleAnalysis_shaped hrest
      exact ⟨_, _, rfl, hp.issue, by simp [hd]⟩
    · rw [issueCycleAnalysis_pair hd] at h
      obtain ⟨⟨out, c'⟩, hrest, heq⟩ := Option.map_eq_some_iff.mp h
      cases heq
      obtain ⟨⟨p, hp⟩, -⟩ := issueCycleAnalysis_shaped hrest
      exact ⟨_, _, rfl, hp.issuePair, by simp [hd]⟩

/-! ### The penalties of the first instruction -/

theorem LoadStores.visit_le (s : LoadStores) (x : InstrInfo) :
    s.loadPenalty ≤ (s.visit x).loadPenalty := by
  rw [s.loadPenalty_eq, (s.visit x).loadPenalty_eq, LoadStores.visit]
  split
  · exact Nat.le_succ _
  · exact Nat.le_refl _

theorem LoadStores.visit_none : (LoadStores.none.visit a).loadPenalty = 0 ↔ ¬ a.isBiased := by
  rw [(LoadStores.none.visit a).loadPenalty_eq, LoadStores.visit]
  split <;> simp_all [LoadStores.none]

theorem Dependencies.visit_le (s : Dependencies) (x : InstrInfo) :
    s.totalPenalty ≤ (s.visit x).totalPenalty :=
  Nat.le_add_right _ _

theorem readPenalty_zero (ds : List DependencyInfo) : readPenalty (fun _ => 0) 0 ds = 0 := by
  induction ds with
  | nil => rfl
  | cons d ds ih =>
    unfold readPenalty at ih ⊢
    rw [List.foldl_cons]
    cases d.isZero <;> exact ih

theorem overwrite_penalty (latency : ℕ) (ds : List DependencyInfo) (p : ℕ)
    (table : DependencyInfo → ℕ) :
    (ds.foldl (overwrite latency) (p, table)).1 = 0 ↔
      p = 0 ∧ (∀ d ∈ ds, table d = 0) ∧ (ds.Nodup ∨ latency = 0) := by
  induction ds generalizing p table with
  | nil => simp
  | cons d ds ih =>
    rw [List.foldl_cons, overwrite, ih]
    have hpenalty : (if table d > 0 then max p (table d) else p) = 0 ↔ p = 0 ∧ table d = 0 := by
      split <;> omega
    have htable : (∀ e ∈ ds, Function.update table d latency e = 0) ↔
        (d ∈ ds → latency = 0) ∧ ∀ e ∈ ds, e ≠ d → table e = 0 := by
      constructor
      · refine fun h => ⟨fun hd => ?_, fun e he hne => ?_⟩
        · simpa using h d hd
        · simpa [hne] using h e he
      · rintro ⟨hd, hrest⟩ e he
        by_cases hne : e = d
        · subst hne
          simpa using hd he
        · simpa [hne] using hrest e he hne
    simp only [hpenalty, htable, List.forall_mem_cons, List.nodup_cons]
    constructor
    · rintro ⟨⟨hp, hd⟩, ⟨hmem, hrest⟩, hnodup⟩
      refine ⟨hp, ⟨hd, fun e he => ?_⟩, ?_⟩
      · by_cases hne : e = d
        · rw [hne, hd]
        · exact hrest e he hne
      · by_cases hl : latency = 0
        · exact Or.inr hl
        · exact Or.inl ⟨fun h => hl (hmem h), hnodup.resolve_right hl⟩
    · rintro ⟨hp, ⟨hd, hrest⟩, hnodup⟩
      refine ⟨⟨hp, hd⟩, ⟨fun hmem => ?_, fun e he _ => hrest e he⟩, ?_⟩
      · exact hnodup.resolve_left fun h => h.1 hmem
      · exact hnodup.imp_left And.right

/-- Nothing is pending before the first instruction. -/
theorem Dependencies.visit_first : (Dependencies.visit {} a).totalPenalty =
    (a.writeDependencies.foldl (overwrite a.latency) (0, fun _ => 0)).1 := by
  have helapse : Dependencies.elapse {} ((a.cyclesBefore : ℤ) - (0 : ℕ)) = {} := by
    simp [Dependencies.elapse]
  simp only [Dependencies.visit, helapse, readPenalty_zero]
  split <;> simp

theorem Dependencies.visit_start :
    (Dependencies.visit {} a).totalPenalty = 0 ↔ a.writeDependencies.Nodup ∨ a.latency = 0 := by
  rw [visit_first, overwrite_penalty]
  simp

/-! ### The block -/

theorem splitHead_eq_self {k : ℕ} : splitHead k p = p ↔ (p.head? = some true → k = 0) := by
  cases p with
  | nil => simp [splitHead]
  | cons x p =>
    cases x with
    | false => simp [splitHead]
    | true =>
      by_cases hk : k = 0 <;> simp [splitHead, hk]

theorem loadStoreAnalysis_shaped {c : ℕ} (h : Shaped p lo (a :: l))
    (hc : ends (a :: l) = some c) :
    ∃ out, (loadStoreAnalysis (a :: l) c).1 =
        a.endingAt (a.cyclesAfter + (LoadStores.none.visit a).loadPenalty) :: out ∧
      Shaped (splitHead (LoadStores.none.visit a).loadPenalty p) lo (loadStoreAnalysis (a :: l) c).1 ∧
      ends (loadStoreAnalysis (a :: l) c).1 = some (loadStoreAnalysis (a :: l) c).2 := by
  obtain ⟨out, hout, hshape⟩ := h.propagateAll (s := LoadStores.none) LoadStores.visit_le
  refine ⟨out, hout, hout ▸ hshape, ?_⟩
  have hsum : ∀ s : LoadStores, s.sum >>> 8 = s.loadPenalty := by
    intro s
    rw [s.sum_eq, s.loadPenalty_eq, bias_mul]
  have hends := ends_propagateAll a l LoadStores.visit LoadStores.loadPenalty .none
  rw [hc, ← hsum] at hends
  exact hends

theorem dataDependencyAnalysis_shaped {c : ℕ} (h : Shaped p lo (a :: l))
    (hc : ends (a :: l) = some c) :
    Shaped (splitHead (Dependencies.visit {} a).totalPenalty p) lo
        (dataDependencyAnalysis (a :: l) c).1 ∧
      ends (dataDependencyAnalysis (a :: l) c).1 = some (dataDependencyAnalysis (a :: l) c).2 := by
  obtain ⟨out, hout, hshape⟩ := h.propagateAll (s := {}) Dependencies.visit_le
  have hends := ends_propagateAll a l Dependencies.visit Dependencies.totalPenalty {}
  rw [hc] at hends
  exact ⟨hout ▸ hshape, hends⟩

theorem analyse_eq {r : Analysis} (h : analyse l = some r) :
    ∃ issued c, issueCycleAnalysis 0 l = some (issued, c) ∧ r.issued = issued ∧
      r.instrInfo = (dataDependencyAnalysis (loadStoreAnalysis issued c).1
        (loadStoreAnalysis issued c).2).1 ∧
      r.cycleCount = (dataDependencyAnalysis (loadStoreAnalysis issued c).1
        (loadStoreAnalysis issued c).2).2 := by
  obtain ⟨⟨issued, c⟩, hissue, hr⟩ := Option.bind_eq_some_iff.mp h
  cases hr
  exact ⟨issued, c, hissue, rfl, rfl, rfl⟩

theorem analyse_shaped {r : Analysis} (h : analyse (a :: rest) = some r) :
    ∃ p, Shaped p 0 r.issued ∧
      Shaped (splitHead (Dependencies.visit {} a).totalPenalty
        (splitHead (LoadStores.none.visit a).loadPenalty p)) 0 r.instrInfo ∧
      ends r.instrInfo = some r.cycleCount ∧
      (p.head? = some true ↔ ∃ b ∈ rest.head?, dualIssueAnalysis a b = some true) := by
  obtain ⟨issued, c, hissue, hr, hinfo, hcount⟩ := analyse_eq h
  obtain ⟨p, tail, rfl, hp, hhead⟩ := issueCycleAnalysis_head hissue
  obtain ⟨-, -, hends⟩ := issueCycleAnalysis_shaped hissue
  obtain ⟨out, hout, hshape, hends'⟩ := loadStoreAnalysis_shaped hp (hends (List.cons_ne_nil _ _))
  rw [hout] at hshape hends'
  obtain ⟨hshape', hends''⟩ := dataDependencyAnalysis_shaped hshape hends'
  rw [hinfo, hcount, hr, hout]
  -- the first instruction starts in cycle 0, and neither penalty depends on where it ends
  rw [Dependencies.visit_first] at hshape' ⊢
  exact ⟨p, hp, hshape', hends'', hhead⟩

theorem Shaped.start_eq (h : Shaped (true :: p) lo l) : 1 < l.length ∧ start l 0 = start l 1 := by
  cases h with
  | pair low together runs runs' rest => simp [start, together]

theorem Shaped.start_split (h : Shaped (false :: false :: p) lo l) : start l 0 ≠ start l 1 := by
  cases h with
  | single low runs rest =>
    rw [start_cons]
    refine rest.start_ne ?_
    rintro rfl
    cases rest

theorem splitHead_pair {k k' : ℕ} (h : k ≠ 0 ∨ k' ≠ 0) :
    splitHead k' (splitHead k (true :: p)) = false :: false :: p := by
  by_cases hk : k = 0
  · simp [splitHead, hk, h.resolve_left (not_not.mpr hk)]
  · simp [splitHead, hk]

theorem analysed_consistent_iff {r : Analysis} (h : analyse (a :: rest) = some r) :
    Consistent r ↔ ¬ HeldUp a rest := by
  obtain ⟨p, hissued, hinfo, hends, hhead⟩ := analyse_shaped h
  have hheld : a.isBiased ∨ ¬ a.writeDependencies.Nodup ∧ a.latency ≠ 0 ↔
      (LoadStores.none.visit a).loadPenalty ≠ 0 ∨ (Dependencies.visit {} a).totalPenalty ≠ 0 := by
    rw [ne_eq, ne_eq, ne_eq, LoadStores.visit_none, Dependencies.visit_start, not_not, not_or]
  constructor
  · rintro hr ⟨b, hb, hdual, hpenalty⟩
    cases p with
    | nil =>
      have := hhead.mpr ⟨b, hb, hdual⟩
      simp at this
    | cons x p =>
      obtain rfl : x = true := by simpa using hhead.mpr ⟨b, hb, hdual⟩
      rw [splitHead_pair (hheld.mp hpenalty)] at hinfo
      obtain ⟨hlen, heq⟩ := hissued.start_eq
      exact hinfo.start_split (hr.paired 0 hlen heq)
  · intro hfree
    have hzero (hp : p.head? = some true) : (LoadStores.none.visit a).loadPenalty = 0 ∧
        (Dependencies.visit {} a).totalPenalty = 0 := by
      obtain ⟨b, hb, hdual⟩ := hhead.mp hp
      by_contra hne
      exact hfree ⟨b, hb, hdual, hheld.mpr (by omega)⟩
    rw [splitHead_eq_self.2 fun hp => (hzero hp).1, splitHead_eq_self.2 fun hp => (hzero hp).2] at hinfo
    exact ⟨hinfo.nondecreasing, fun x hx => (hinfo.before_lt_after x hx).le,
      hissued.paired hinfo, hends⟩

theorem dualIssueAnalysis_isSome (ha : (pipes.lookup a.pipeline).isSome)
    (hb : (pipes.lookup b.pipeline).isSome) : (dualIssueAnalysis a b).isSome := by
  obtain ⟨pipe1, ha⟩ := Option.isSome_iff_exists.mp ha
  obtain ⟨pipe2, hb⟩ := Option.isSome_iff_exists.mp hb
  simp only [dualIssueAnalysis, ha, hb, Option.bind_eq_bind, Option.bind_some]
  split_ifs <;> rfl

theorem issueCycleAnalysis_isSome : ∀ {l : List InstrInfo} {c : ℕ},
    (∀ x ∈ l, (pipes.lookup x.pipeline).isSome) → (issueCycleAnalysis c l).isSome
  | [], _, _ => rfl
  | [_], _, _ => rfl
  | a :: b :: l, c, h => by
    simp only [List.forall_mem_cons] at h
    obtain ⟨ha, hb, hl⟩ := h
    obtain ⟨d, hd⟩ := Option.isSome_iff_exists.mp (dualIssueAnalysis_isSome ha hb)
    cases d with
    | true =>
      rw [issueCycleAnalysis_pair hd, Option.isSome_map]
      exact issueCycleAnalysis_isSome hl
    | false =>
      rw [issueCycleAnalysis_single hd, Option.isSome_map]
      exact issueCycleAnalysis_isSome (List.forall_mem_cons.mpr ⟨hb, hl⟩)

/-- The decoder gives each instruction a pipeline of the table, so a block is analysed. Its counts are
consistent exactly when no penalty falls on the first half of a leading pair. -/
theorem consistent_iff (h : ∀ x ∈ a :: rest, (pipes.lookup x.pipeline).isSome) :
    ∃ r, analyse (a :: rest) = some r ∧ (Consistent r ↔ ¬ HeldUp a rest) := by
  have hsome : (analyse (a :: rest)).isSome := by
    obtain ⟨⟨issued, c⟩, hissue⟩ := Option.isSome_iff_exists.mp (issueCycleAnalysis_isSome (c := 0) h)
    rw [analyse, hissue]
    rfl
  obtain ⟨r, hr⟩ := Option.isSome_iff_exists.mp hsome
  exact ⟨r, hr, analysed_consistent_iff hr⟩

/-! ### A load at the head of a block

`LW $v0, 0($a0)` and `ADDIU $v1, $v1, 1` are issued together. -/

def lw : InstrInfo where
  pipeline := .LoadStore
  writeDependencies := [{ type := .gpr, reg := 2 }]
  readDependencies := [{ type := .gpr, reg := 4 }]

def addiu : InstrInfo where
  pipeline := .IntGeneric
  writeDependencies := [{ type := .gpr, reg := 3 }]
  readDependencies := [{ type := .gpr, reg := 3 }]

def jr : InstrInfo where
  pipeline := .Branch
  readDependencies := [{ type := .gpr, reg := 31 }]

def sll : InstrInfo where
  pipeline := .IntGeneric
  writeDependencies := [{ type := .gpr, reg := 0 }]
  readDependencies := [{ type := .gpr, reg := 0 }]

/-- The block `ADDIU; LW; JR; NOP` starts with a pair that nothing holds up. -/
theorem consistent_addiu : ∃ r, analyse [addiu, lw, jr, sll] = some r ∧ Consistent r := by
  obtain ⟨r, hr, hiff⟩ := consistent_iff (show ∀ x ∈ addiu :: [lw, jr, sll], (pipes.lookup x.pipeline).isSome by decide)
  refine ⟨r, hr, hiff.mpr ?_⟩
  rintro ⟨b, -, -, hbiased | ⟨hdup, -⟩⟩
  · exact absurd hbiased (by decide)
  · exact hdup (by decide)

theorem not_consistent : ¬ ∀ l : List InstrInfo, l ≠ [] →
    (∀ x ∈ l, (pipes.lookup x.pipeline).isSome) → ∀ r, analyse l = some r → Consistent r := by
  intro h
  have hstarts : (analyse [lw, addiu, jr, sll]).map (fun r =>
      (r.issued.length, start r.issued 0, start r.issued 1, start r.instrInfo 0, start r.instrInfo 1)) =
      some (4, some 0, some 0, some 0, some 1) := by decide
  obtain ⟨r, hr, heq⟩ := Option.map_eq_some_iff.mp hstarts
  simp only [Prod.mk.injEq] at heq
  obtain ⟨hlen, h0, h1, h0', h1'⟩ := heq
  have hpair := (h _ (List.cons_ne_nil _ _) (by decide) r hr).paired 0 (by omega) (h0.trans h1.symm)
  rw [h0', h1'] at hpair
  exact absurd hpair (by decide)

end DobieStation.EeJit.CycleCount
