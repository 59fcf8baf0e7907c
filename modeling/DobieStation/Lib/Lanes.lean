import Mathlib.Tactic.Common
import Mathlib.Data.BitVec

/-! # Loops in place

`sweep body n` runs the iterations `0, …, n-1` of a loop on a state that is seen as cells with values.
Iteration `i` writes the cells `cells i`, and what it writes there, `new i`, it computes from the cells
that it finds. If no iteration reads or writes a cell that an earlier one has written, the loop does to
the cells what all of its iterations would do to them at once. -/

namespace DobieStation.Lib.InPlace

variable {σ ι V : Type*}

def sweep (body : ℕ → σ → σ) : ℕ → σ → σ
  | 0, s => s
  | n + 1, s => body n (sweep body n s)

/-- The body of the loop, seen through its cells. -/
structure Pass (view : σ → ι → V) (body : ℕ → σ → σ) (n : ℕ) (cells : ℕ → ι → Prop)
    (new : ℕ → (ι → V) → ι → V) : Prop where
  write : ∀ i < n, ∀ s x, cells i x → view (body i s) x = new i (view s) x
  frame : ∀ i < n, ∀ s x, ¬ cells i x → view (body i s) x = view s x

/-- No iteration writes a cell of an earlier one, or reads one. -/
structure Apart (n : ℕ) (cells : ℕ → ι → Prop) (new : ℕ → (ι → V) → ι → V) : Prop where
  writes : ∀ i j x, i < j → j < n → cells i x → ¬ cells j x
  reads : ∀ j < n, ∀ f g : ι → V, (∀ x, (∀ i < j, ¬ cells i x) → f x = g x) →
    ∀ x, cells j x → new j f x = new j g x

variable {view : σ → ι → V} {body : ℕ → σ → σ} {n k : ℕ} {cells : ℕ → ι → Prop}
  {new : ℕ → (ι → V) → ι → V} {s : σ} {x : ι}

theorem sweep_other (h : Pass view body n cells new) (hk : k ≤ n) (hx : ∀ i < k, ¬ cells i x) :
    view (sweep body k s) x = view s x := by
  induction k with
  | zero => rfl
  | succ k ih =>
    rw [sweep, h.frame k hk _ x (hx k (Nat.lt_succ_self k))]
    exact ih (Nat.le_of_succ_le hk) fun i hi => hx i (Nat.lt_succ_of_lt hi)

theorem sweep_written (h : Pass view body n cells new) (ha : Apart n cells new) (hk : k ≤ n)
    {i : ℕ} (hi : i < k) (hx : cells i x) : view (sweep body k s) x = new i (view s) x := by
  induction k with
  | zero => omega
  | succ k ih =>
    rw [sweep]
    rcases Nat.lt_succ_iff_lt_or_eq.mp hi with hlt | rfl
    · rw [h.frame k hk _ x (ha.writes i k x hlt hk hx)]
      exact ih (Nat.le_of_succ_le hk) hlt
    · rw [h.write i hk _ x hx]
      -- what the iteration reads, the earlier ones have left as it was
      exact ha.reads i hk _ _ (fun y hy => sweep_other h (Nat.le_of_succ_le hk) hy) x hx

/-- An iteration that writes without reading. -/
theorem Apart.of_const {v : ℕ → ι → V} (h : ∀ i j x, i < j → j < n → cells i x → ¬ cells j x) :
    Apart n cells fun i _ x => v i x :=
  ⟨h, fun _ _ _ _ _ _ _ => rfl⟩

end DobieStation.Lib.InPlace

/-! # Lanes of a word

A word of `m` bits as lanes of `w` bits, the lowest first: `lane` reads one, `setLane` writes one, and
`ofLanes` makes a word of lanes that are given. A word is determined by its lanes (`eq_of_lanes`). -/

namespace DobieStation.Lib.Lanes

open DobieStation.Lib.InPlace

variable {m w n i j k b : ℕ} {x y : BitVec m} {v : BitVec w} {f : ℕ → BitVec w}

def lane (w : ℕ) (x : BitVec m) (i : ℕ) : BitVec w := x.extractLsb' (i * w) w

def setLane (x : BitVec m) (i : ℕ) (v : BitVec w) : BitVec m :=
  (x &&& ~~~((BitVec.allOnes w).setWidth m <<< (i * w))) ||| (v.setWidth m <<< (i * w))

/-- The word with the lanes `f 0, …, f (n-1)`. -/
def ofLanes (m n : ℕ) (f : ℕ → BitVec w) : BitVec m := sweep (fun i x => setLane x i (f i)) n 0

theorem getLsbD_lane : (lane w x i).getLsbD b = (decide (b < w) && x.getLsbD (i * w + b)) := by
  rw [lane, BitVec.getLsbD_extractLsb']

theorem getLsbD_setLane (hb : b < m) :
    (setLane x i v).getLsbD b =
      if i * w ≤ b ∧ b < i * w + w then v.getLsbD (b - i * w) else x.getLsbD b := by
  simp only [setLane, BitVec.getLsbD_or, BitVec.getLsbD_and, BitVec.getLsbD_not,
    BitVec.getLsbD_shiftLeft, BitVec.getLsbD_setWidth, BitVec.getLsbD_allOnes, hb]
  have hm : b - i * w < m := by omega
  by_cases hlow : b < i * w
  · have : ¬ i * w ≤ b := by omega
    simp [hlow, this]
  · by_cases hhigh : b < i * w + w
    · have h1 : b - i * w < w := by omega
      have h2 : i * w ≤ b := by omega
      simp [hlow, hhigh, h1, h2, hm]
    · have h1 : ¬ b - i * w < w := by omega
      have h2 : v.getLsbD (b - i * w) = false := BitVec.getLsbD_of_ge v _ (by omega)
      simp [hlow, hhigh, h1, h2]

/-! ### Reading what was written -/

theorem lane_setLane_self (h : i * w + w ≤ m) : lane w (setLane x i v) i = v := by
  apply BitVec.eq_of_getLsbD_eq
  intro b hb
  rw [getLsbD_lane, getLsbD_setLane (by omega), if_pos (by omega)]
  simp [hb]

theorem lane_setLane_ne (h : i ≠ j) : lane w (setLane x i v) j = lane w x j := by
  apply BitVec.eq_of_getLsbD_eq
  intro b hb
  rw [getLsbD_lane, getLsbD_lane]
  by_cases hm : j * w + b < m
  · have hout : ¬ (i * w ≤ j * w + b ∧ j * w + b < i * w + w) := by
      rintro ⟨h1, h2⟩
      rcases Nat.lt_or_gt_of_ne h with hlt | hlt
      · have : (i + 1) * w ≤ j * w := Nat.mul_le_mul_right w hlt
        rw [Nat.succ_mul] at this
        omega
      · have : (j + 1) * w ≤ i * w := Nat.mul_le_mul_right w hlt
        rw [Nat.succ_mul] at this
        omega
    rw [getLsbD_setLane hm, if_neg hout]
  · rw [BitVec.getLsbD_of_ge _ _ (by omega), BitVec.getLsbD_of_ge _ _ (by omega)]

theorem lane_setLane (h : i * w + w ≤ m) :
    lane w (setLane x i v) j = if i = j then v else lane w x j := by
  by_cases hij : i = j
  · subst hij
    rw [if_pos rfl, lane_setLane_self h]
  · rw [if_neg hij, lane_setLane_ne hij]

/-! ### A word is its lanes -/

theorem lane_room (hm : n * w = m) (hi : i < n) : i * w + w ≤ m := by
  have := Nat.mul_le_mul_right w hi
  rwa [Nat.succ_mul, hm] at this

theorem eq_of_lanes (hm : n * w = m) (h : ∀ i < n, lane w x i = lane w y i) : x = y := by
  apply BitVec.eq_of_getLsbD_eq
  intro b hb
  have hw : 0 < w := by
    rcases Nat.eq_zero_or_pos w with rfl | hw
    · omega
    · exact hw
  have hi : b / w < n := Nat.div_lt_of_lt_mul (by rwa [Nat.mul_comm, hm])
  have hbit := congrArg (BitVec.getLsbD · (b % w)) (h _ hi)
  simp only [getLsbD_lane, Nat.mod_lt _ hw, decide_true, Bool.true_and] at hbit
  rwa [Nat.mul_comm, Nat.div_add_mod] at hbit

theorem lane_ofLanes (hm : n * w = m) (hi : i < n) : lane w (ofLanes m n f) i = f i := by
  have hpass : Pass (fun x i => lane w x i) (fun i x => setLane (m := m) x i (f i)) n (fun i k => i = k)
      fun i _ _ => f i := by
    constructor
    · rintro i hi x _ rfl
      exact lane_setLane_self (lane_room hm hi)
    · intro i _ x k h
      exact lane_setLane_ne h
  refine sweep_written hpass (Apart.of_const ?_) (Nat.le_refl n) hi rfl
  intro i j k hij _ hik hjk
  omega

theorem eq_ofLanes (hm : n * w = m) (h : ∀ i < n, lane w x i = f i) : x = ofLanes m n f :=
  eq_of_lanes hm fun i hi => by rw [h i hi, lane_ofLanes hm hi]

theorem ofLanes_inj {f' : ℕ → BitVec w} (hm : n * w = m) :
    ofLanes m n f = ofLanes m n f' ↔ ∀ i < n, f i = f' i := by
  constructor
  · intro h i hi
    have heq := congrArg (fun x => lane w x i) h
    simpa only [lane_ofLanes hm hi] using heq
  · intro h
    exact eq_ofLanes hm fun i hi => (lane_ofLanes hm hi).trans (h i hi)

theorem lane_whole : lane m x 0 = x := by
  apply BitVec.eq_of_getLsbD_eq
  intro b hb
  rw [getLsbD_lane, Nat.zero_mul, Nat.zero_add, decide_eq_true hb, Bool.true_and]

theorem setLane_whole : setLane x 0 y = y := by
  rw [← lane_whole (x := setLane x 0 y), lane_setLane_self (by omega)]

/-- A lane of a lane. -/
theorem lane_lane (hj : j < k) : lane w (lane (k * w) x i) j = lane w x (i * k + j) := by
  apply BitVec.eq_of_getLsbD_eq
  intro b hb
  have hin : j * w + b < k * w := by
    have := Nat.mul_le_mul_right w hj
    rw [Nat.succ_mul] at this
    omega
  simp only [getLsbD_lane, hin, decide_true, Bool.true_and]
  rw [Nat.add_mul, Nat.mul_assoc, Nat.add_assoc]

theorem lane_eq_ofNat : lane w x i = BitVec.ofNat w (x.toNat / 2 ^ (i * w)) := by
  rw [lane, BitVec.extractLsb', Nat.shiftRight_eq_div_pow]

theorem lane_setWidth (h : i * w + w ≤ k) : lane w (x.setWidth k) i = lane w x i := by
  apply BitVec.eq_of_getLsbD_eq
  intro b hb
  have hk : i * w + b < k := by omega
  rw [getLsbD_lane, getLsbD_lane, BitVec.getLsbD_setWidth, decide_eq_true hk, Bool.true_and]

/-! ### Parts of two words -/

/-- The `k` lowest lanes of `x` and above them the lowest of `y`. -/
def joinLow (w k : ℕ) (x y : BitVec m) : BitVec m :=
  (x &&& (BitVec.allOnes m >>> (m - k * w))) ||| (y <<< (k * w))

/-- The lanes of `y` from the `k`-th on and above them the `k` highest of `x`. -/
def joinHigh (w k : ℕ) (x y : BitVec m) : BitVec m :=
  (x &&& (BitVec.allOnes m <<< (m - k * w))) ||| (y >>> (k * w))

theorem lane_joinLow (hm : n * w = m) (hk : k ≤ n) (hi : i < n) :
    lane w (joinLow w k x y) i = if i < k then lane w x i else lane w y (i - k) := by
  apply BitVec.eq_of_getLsbD_eq
  intro b hb
  have hroom := lane_room hm hi
  have hkm := Nat.mul_le_mul_right w hk
  have hin : i * w + b < m := by omega
  have hones : m - k * w + (i * w + b) < m ↔ i * w + b < k * w := by omega
  simp only [joinLow, getLsbD_lane, BitVec.getLsbD_or, BitVec.getLsbD_and,
    BitVec.getLsbD_ushiftRight, BitVec.getLsbD_allOnes, BitVec.getLsbD_shiftLeft, hb, hin, hones,
    decide_true, Bool.true_and]
  split_ifs with hik
  · have := Nat.mul_le_mul_right w hik
    rw [Nat.succ_mul] at this
    have hlow : i * w + b < k * w := by omega
    rw [getLsbD_lane]
    simp [hb, hlow]
  · have := Nat.mul_le_mul_right w (Nat.not_lt.mp hik)
    have hhigh : ¬ i * w + b < k * w := by omega
    have hsub : i * w + b - k * w = (i - k) * w + b := by
      rw [Nat.sub_mul]
      omega
    rw [getLsbD_lane]
    simp [hb, hhigh, hsub]

theorem lane_joinHigh (hm : n * w = m) (hk : k ≤ n) (hi : i < n) :
    lane w (joinHigh w k x y) i = if i + k < n then lane w y (i + k) else lane w x i := by
  apply BitVec.eq_of_getLsbD_eq
  intro b hb
  have hroom := lane_room hm hi
  have hkm := Nat.mul_le_mul_right w hk
  have hin : i * w + b < m := by omega
  simp only [joinHigh, getLsbD_lane, BitVec.getLsbD_or, BitVec.getLsbD_and,
    BitVec.getLsbD_ushiftRight, BitVec.getLsbD_allOnes, BitVec.getLsbD_shiftLeft, hb, hin,
    decide_true, Bool.true_and]
  have hadd : k * w + (i * w + b) = (i + k) * w + b := by
    rw [Nat.add_mul]
    omega
  split_ifs with hik
  · have hroom' := lane_room hm hik
    rw [Nat.add_mul] at hroom'
    have hlow : i * w + b < m - k * w := by omega
    rw [getLsbD_lane]
    simp [hb, hlow, hadd]
  · have := Nat.mul_le_mul_right w (Nat.not_lt.mp hik)
    rw [hm, Nat.add_mul] at this
    have hhigh : ¬ i * w + b < m - k * w := by omega
    have hout : y.getLsbD ((i + k) * w + b) = false := by
      refine BitVec.getLsbD_of_ge _ _ ?_
      rw [Nat.add_mul]
      omega
    have hsub : i * w + b - (m - k * w) < m := by omega
    rw [getLsbD_lane]
    simp [hb, hhigh, hadd, hout, hsub]

end DobieStation.Lib.Lanes
