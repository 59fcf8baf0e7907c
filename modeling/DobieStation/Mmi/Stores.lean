import DobieStation.Mmi.Meaning
import Mathlib.Tactic.IntervalCases

/-! # What the loops leave in the registers

A handler stores into one register, lane by lane. Where an iteration loads no lane that an earlier one
has stored, the register ends with the lanes that the sources give before the instruction, whatever
registers they are, and no other register changes: `sweep_write`, and from it one theorem a family. -/

namespace DobieStation.Mmi.Stores

open DobieStation.Lib.InPlace DobieStation.Lib.Lanes DobieStation.Mmi.Model DobieStation.Mmi.Meaning
open DobieStation.Ee.Interface (Word Quad U128 Registers)
open DobieStation.Ee.Instructions (rs rt rd)

variable {w n t j k : ℕ} {g g' : File} {id id' : BitVec 5} {i i' : Word}

def view (w : ℕ) (g : File) (x : BitVec 5 × ℕ) : BitVec w := lane w (g x.1) x.2

/-! ### One store -/

theorem lane_setGpr {v : BitVec w} (h : k * w + w ≤ 128) :
    lane w (setGpr g id v k id') j =
      if id' = id ∧ id ≠ 0 ∧ j = k then v else lane w (g id') j := by
  unfold setGpr
  by_cases hz : id = 0
  · rw [if_pos hz, if_neg fun h => h.2.1 hz]
  · rw [if_neg hz]
    by_cases hid : id' = id
    · subst hid
      rw [Function.update_self, lane_setLane h]
      by_cases hk : k = j
      · rw [if_pos hk, if_pos ⟨rfl, hz, hk.symm⟩]
      · rw [if_neg hk, if_neg fun h => hk h.2.2.symm]
    · rw [Function.update_of_ne hid, if_neg fun h => hid h.1]

theorem setGpr_quad {q : Quad} : setGpr g id q 0 = write g id q := by
  simp only [setGpr, write, setLane_whole]

theorem getGpr_quad : getGpr 128 g id 0 = g id := lane_whole

theorem eq_write {f : ℕ → BitVec w} (hn : n * w = 128)
    (hother : ∀ r, r ≠ id ∨ id = 0 → ∀ k < n, lane w (g' r) k = lane w (g r) k)
    (hdest : id ≠ 0 → ∀ k < n, lane w (g' id) k = f k) :
    g' = write g id (ofLanes 128 n f) := by
  funext r
  unfold write
  by_cases hz : id = 0
  · rw [if_pos hz]
    exact eq_of_lanes hn (hother r (.inr hz))
  · rw [if_neg hz]
    by_cases hr : r = id
    · subst hr
      rw [Function.update_self]
      exact eq_ofLanes hn (hdest hz)
    · rw [Function.update_of_ne hr]
      exact eq_of_lanes hn (hother r (.inl hr))

/-! ### A loop of stores -/

section
variable {body : ℕ → File → File} {cells : ℕ → ℕ → Prop}
  {new : ℕ → (BitVec 5 × ℕ → BitVec w) → ℕ → BitVec w}

/-- The iteration `k` stores the lanes `cells k` of the register `id`. -/
def Cell (id : BitVec 5) (cells : ℕ → ℕ → Prop) (k : ℕ) (x : BitVec 5 × ℕ) : Prop :=
  x.1 = id ∧ id ≠ 0 ∧ cells k x.2

/-- Such an iteration. -/
def Storing (w : ℕ) (id : BitVec 5) (t : ℕ) (body : ℕ → File → File) (cells : ℕ → ℕ → Prop)
    (new : ℕ → (BitVec 5 × ℕ → BitVec w) → ℕ → BitVec w) : Prop :=
  Pass (view w) body t (Cell id cells) fun k f x => new k f x.2

/-- An iteration loads no lane that an earlier one has stored, of the register `id`. -/
def Unread (id : BitVec 5) (t : ℕ) (cells : ℕ → ℕ → Prop)
    (new : ℕ → (BitVec 5 × ℕ → BitVec w) → ℕ → BitVec w) : Prop :=
  ∀ j < t, ∀ f f' : BitVec 5 × ℕ → BitVec w,
    (∀ r k, (r = id → id ≠ 0 → ∀ i < j, ¬ cells i k) → f (r, k) = f' (r, k)) →
      ∀ k, cells j k → new j f k = new j f' k

theorem Unread.apart (hr : Unread id t cells new)
    (hw : ∀ i j k, i < j → j < t → cells i k → ¬ cells j k) :
    Apart t (Cell id cells) fun k f x => new k f x.2 := by
  constructor
  · rintro i j ⟨r, k⟩ hij hj ⟨hid, hz, hc⟩ ⟨_, _, hc'⟩
    exact hw i j k hij hj hc hc'
  · rintro j hj f f' hff ⟨r, k⟩ ⟨hid, hz, hc⟩
    refine hr j hj f f' (fun r k h => hff (r, k) ?_) k hc
    rintro i hi ⟨hid', hz', hc'⟩
    exact h hid' hz' i hi hc'

/-- A loop whose iterations keep out of one another's way, and the lanes that they cover. -/
theorem sweep_write {f : ℕ → BitVec w} (hn : n * w = 128) (h : Storing w id t body cells new)
    (hw : ∀ i j k, i < j → j < t → cells i k → ¬ cells j k) (hr : Unread id t cells new)
    (hcover : id ≠ 0 → ∀ k < n, ∃ m < t, cells m k ∧ new m (view w g) k = f k) :
    sweep body t g = write g id (ofLanes 128 n f) := by
  refine eq_write hn ?_ ?_
  · intro r hr k _
    refine sweep_other (x := (r, k)) h (Nat.le_refl t) fun m _ hm => ?_
    rcases hr with hr | hr
    · exact hr hm.1
    · exact hm.2.1 hr
  · intro hz k hk
    obtain ⟨m, hm, hc, hv⟩ := hcover hz k hk
    rw [← hv]
    exact sweep_written (x := (id, k)) h (hr.apart hw) (Nat.le_refl t) hm ⟨rfl, hz, hc⟩

end

/-! ### The families -/

theorem stores_one {p : ℕ → ℕ} {e : ℕ → (BitVec 5 × ℕ → BitVec w) → BitVec w}
    (hp : ∀ k < t, p k * w + w ≤ 128) :
    Storing w id t (fun k g => setGpr g id (e k (view w g)) (p k)) (fun k j => j = p k)
      fun k f _ => e k f := by
  constructor
  · rintro k hk g ⟨r, j⟩ ⟨hr, hz, hj⟩
    exact (lane_setGpr (hp k hk)).trans (if_pos ⟨hr, hz, hj⟩)
  · rintro k hk g ⟨r, j⟩ h
    exact (lane_setGpr (hp k hk)).trans (if_neg h)

/-- An iteration that loads all that it needs and stores two lanes. -/
theorem stores_two {p q : ℕ → ℕ} {a b : ℕ → (BitVec 5 × ℕ → BitVec w) → BitVec w}
    (hp : ∀ k < t, p k * w + w ≤ 128) (hq : ∀ k < t, q k * w + w ≤ 128) :
    Storing w id t
      (fun k g => setGpr (setGpr g id (a k (view w g)) (p k)) id (b k (view w g)) (q k))
      (fun k j => j = p k ∨ j = q k) fun k f j => if j = q k then b k f else a k f := by
  constructor
  · rintro k hk g ⟨r, j⟩ ⟨hr, hz, hj⟩
    refine (lane_setGpr (hq k hk)).trans ?_
    rw [lane_setGpr (hp k hk)]
    change r = id at hr
    change j = p k ∨ j = q k at hj
    by_cases hjq : j = q k
    · rw [if_pos ⟨hr, hz, hjq⟩]
      exact (if_pos hjq).symm
    · rw [if_neg fun h => hjq h.2.2, if_pos ⟨hr, hz, hj.resolve_right hjq⟩]
      exact (if_neg hjq).symm
  · rintro k hk g ⟨r, j⟩ h
    have hj : ¬ (r = id ∧ id ≠ 0 ∧ j = q k) := fun hc => h ⟨hc.1, hc.2.1, .inr hc.2.2⟩
    have hj' : ¬ (r = id ∧ id ≠ 0 ∧ j = p k) := fun hc => h ⟨hc.1, hc.2.1, .inl hc.2.2⟩
    refine (lane_setGpr (hq k hk)).trans ?_
    rw [if_neg hj, lane_setGpr (hp k hk), if_neg hj']
    rfl

theorem lanewise_eq {f : BitVec w → BitVec w → BitVec w} (hn : n * w = 128) :
    lanewise n f i g =
      write g (rd i) (ofLanes 128 n fun k => f (lane w (g (rs i)) k) (lane w (g (rt i)) k)) := by
  have h : Storing w (rd i) n
      (fun k g => setGpr g (rd i) (f (getGpr w g (rs i) k) (getGpr w g (rt i) k)) k)
      (fun k j => j = k) fun k c _ => f (c (rs i, k)) (c (rt i, k)) :=
    stores_one (p := fun k => k) (e := fun k c => f (c (rs i, k)) (c (rt i, k)))
      fun k hk => lane_room hn hk
  refine sweep_write hn h ?_ ?_ ?_
  · intro i j k hij _ hi hj
    omega
  · intro j _ c c' hc k _
    -- an earlier iteration has stored an earlier lane
    have heq (r : BitVec 5) : c (r, j) = c' (r, j) := hc r j fun _ _ i hi h => by omega
    simp only [heq]
  · intro _ k hk
    exact ⟨k, hk, rfl, rfl⟩

theorem compared_eq {p : BitVec w → BitVec w → Bool} :
    compared n p i g = write g (rd i) (ofLanes 128 n fun k =>
      if p (lane w (g (rs i)) k) (lane w (g (rt i)) k) then BitVec.allOnes w else 0#w) := by
  simp only [compared, setGpr_quad, getGpr_quad]

/-- Stores to two lanes an iteration, of values that are loaded before all of them. -/
theorem stores_known {p q : ℕ → ℕ} {a b f : ℕ → BitVec w} (hn : n * w = 128)
    (hp : ∀ k < t, p k < n) (hq : ∀ k < t, q k < n)
    (hpq : ∀ i j, i < j → j < t → p i ≠ p j ∧ p i ≠ q j ∧ q i ≠ p j ∧ q i ≠ q j)
    (hcover : ∀ k < n, ∃ m < t, (k = p m ∨ k = q m) ∧ (if k = q m then b m else a m) = f k) :
    sweep (fun k g => setGpr (setGpr g id (a k) (p k)) id (b k) (q k)) t g =
      write g id (ofLanes 128 n f) := by
  have h : Storing w id t (fun k g => setGpr (setGpr g id (a k) (p k)) id (b k) (q k))
      (fun k j => j = p k ∨ j = q k) fun k _ j => if j = q k then b k else a k :=
    stores_two (a := fun k _ => a k) (b := fun k _ => b k) (fun k hk => lane_room hn (hp k hk))
      fun k hk => lane_room hn (hq k hk)
  refine sweep_write hn h ?_ ?_ fun _ => hcover
  · intro i j k hij hj hi hk
    have := hpq i j hij hj
    omega
  · intro j _ _ _ _ k _
    rfl

theorem pext_eq {half : ℕ} (hn : n * w = 64) :
    pext w n half i g = write g (rd i) (interleaved (2 * n)
      (lane w (lane 64 (g (rt i)) half)) (lane w (lane 64 (g (rs i)) half))) := by
  have hn' : 2 * n * w = 128 := by rw [Nat.mul_assoc, hn]
  refine stores_known (p := fun k => k * 2) (q := fun k => k * 2 + 1) hn' ?_ ?_ ?_ ?_
  · intro k hk
    omega
  · intro k hk
    omega
  · intro i j hij _
    omega
  · intro k hk
    refine ⟨k / 2, by omega, by omega, ?_⟩
    by_cases hk2 : k % 2 = 0
    · rw [if_neg (by omega), if_pos hk2]
      rfl
    · rw [if_pos (by omega), if_neg hk2]
      rfl

theorem ppac_eq (hn : 2 * n * w = 128) :
    ppac w n i g = write g (rd i) (joined (2 * n)
      (fun k => (lane (2 * w) (g (rt i)) k).setWidth w)
      fun k => (lane (2 * w) (g (rs i)) k).setWidth w) := by
  simp only [ppac, getGpr_quad]
  refine stores_known (p := fun k => k + n) (q := fun k => k) hn ?_ ?_ ?_ ?_
  · intro k hk
    omega
  · intro k hk
    omega
  · intro i j hij _
    omega
  · intro k hk
    rw [show 2 * n / 2 = n by omega]
    by_cases hlow : k < n
    · exact ⟨k, hlow, .inr rfl, by rw [if_pos rfl, if_pos hlow]⟩
    · refine ⟨k - n, by omega, by omega, ?_⟩
      rw [if_neg (by omega), if_neg hlow]

/-! ### Loops that load and store two lanes -/

theorem padsbh_eq : padsbh i g = write g (rd i) (joined 8
    (fun k => lane 16 (g (rs i)) k - lane 16 (g (rt i)) k)
    fun k => lane 16 (g (rs i)) (k + 4) + lane 16 (g (rt i)) (k + 4)) := by
  have h : Storing 16 (rd i) 4 _ _ _ := stores_two (p := fun k => k) (q := fun k => k + 4)
    (a := fun k c => c (rs i, k) - c (rt i, k))
    (b := fun k c => c (rs i, k + 4) + c (rt i, k + 4)) (by omega) (by omega)
  refine sweep_write (n := 8) rfl h ?_ ?_ ?_
  · intro i j k hij hj hi hk
    omega
  · intro j hj c c' hc k hk
    -- an earlier iteration has stored its own two lanes
    have hlow (r : BitVec 5) : c (r, j) = c' (r, j) := hc r j fun _ _ i hi h => by omega
    have hhigh (r : BitVec 5) : c (r, j + 4) = c' (r, j + 4) :=
      hc r (j + 4) fun _ _ i hi h => by omega
    simp only [hlow, hhigh]
  · intro _ k hk
    by_cases hlow : k < 4
    · refine ⟨k, hlow, .inl rfl, ?_⟩
      rw [if_neg (by omega), if_pos (by omega)]
      rfl
    · refine ⟨k - 4, by omega, .inr (by omega), ?_⟩
      rw [if_pos (by omega), if_neg (by omega)]
      rfl

theorem low_half {x : Quad} {w : ℕ} : (lane (2 * w) x k).setWidth w = lane w x (2 * k) := by
  apply BitVec.eq_of_getLsbD_eq
  intro b hb
  have hin : b < 2 * w := by omega
  simp only [BitVec.getLsbD_setWidth, getLsbD_lane, hb, hin, decide_true, Bool.true_and]
  rw [Nat.mul_left_comm, Nat.mul_assoc]

/-- Loads a halfword of each source and stores both next to each other. -/
theorem paired_eq {p q : ℕ → ℕ} (hr : ∀ i j, i < j → j < 4 →
      (q j ≠ 2 * i ∧ q j ≠ 2 * i + 1 ∨ rd i' ≠ rt i' ∨ rd i' = 0) ∧
      (p j ≠ 2 * i ∧ p j ≠ 2 * i + 1)) :
    sweep (fun k g => setGpr (setGpr g (rd i') (getGpr 16 g (rs i') (p k)) (k * 2 + 1)) (rd i')
        (getGpr 16 g (rt i') (q k)) (k * 2)) 4 g =
      write g (rd i') (interleaved 8 (fun k => lane 16 (g (rt i')) (q k))
        fun k => lane 16 (g (rs i')) (p k)) := by
  have h : Storing 16 (rd i') 4 _ _ _ := stores_two (p := fun k => k * 2 + 1) (q := fun k => k * 2)
    (a := fun k c => c (rs i', p k)) (b := fun k c => c (rt i', q k)) (by omega) (by omega)
  refine sweep_write (n := 8) rfl h ?_ ?_ ?_
  · intro i j k hij hj hi hk
    omega
  · intro j hj c c' hc k hk
    have hrs : c (rs i', p j) = c' (rs i', p j) := hc _ _ fun _ _ i hi h => by
      have := (hr i j hi hj).2
      omega
    have hrt : c (rt i', q j) = c' (rt i', q j) := hc _ _ fun hid hz i hi h => by
      rcases (hr i j hi hj).1 with hne | hne | hne
      · omega
      · exact hne hid.symm
      · exact hz hne
    simp only [hrs, hrt]
  · intro _ k hk
    refine ⟨k / 2, by omega, by omega, ?_⟩
    by_cases hk2 : k % 2 = 0
    · rw [if_pos (by omega), if_pos hk2]
      rfl
    · rw [if_neg (by omega), if_neg hk2]
      rfl

theorem pinteh_eq : pinteh i g = write g (rd i) (interleaved 8 (fun k => lane 16 (g (rt i)) (2 * k))
    fun k => lane 16 (g (rs i)) (2 * k)) := by
  have hload (g : File) (r : BitVec 5) (k : ℕ) :
      (getGpr 32 g r k &&& 0xFFFF).setWidth 16 = getGpr 16 g r (2 * k) := by
    rw [show getGpr 16 g r (2 * k) = (getGpr 32 g r k).setWidth 16 from low_half.symm]
    refine BitVec.eq_of_getLsbD_eq fun b hb => ?_
    have hones : (0xFFFF : BitVec 32) = (BitVec.allOnes 16).setWidth 32 := by decide
    simp only [BitVec.getLsbD_setWidth, BitVec.getLsbD_and, hones, BitVec.getLsbD_allOnes, hb,
      show b < 32 by omega, decide_true, Bool.true_and, Bool.and_true]
  simp only [pinteh, hload]
  refine paired_eq fun i j hij hj => ?_
  omega

/-- PINTH unless it overwrites RT. -/
theorem pinth_eq (h : rd i ≠ rt i ∨ rd i = 0) : pinth i g = write g (rd i) (interleaved 8
    (lane 16 (g (rt i))) fun k => lane 16 (g (rs i)) (k + 4)) := by
  refine paired_eq fun _ j hij hj => ⟨.inr h, ?_⟩
  omega

/-! ### PINTH in place -/

/-- The halfwords of RD where it is RT: the halfwords 1, 2 and 3 are loaded after they were stored. -/
def overlapped (rs rt : Quad) : ℕ → BitVec 16
  | 0 => lane 16 rt 0
  | 3 => lane 16 rs 5
  | 5 => lane 16 rs 6
  | 6 => lane 16 rs 5
  | 7 => lane 16 rs 7
  | _ => lane 16 rs 4

theorem pinth_overlapped (h : rd i = rt i) (hz : rd i ≠ 0) :
    pinth i g = write g (rd i) (ofLanes 128 8 (overlapped (g (rs i)) (g (rt i)))) := by
  have hs : Storing 16 (rd i) 4 _ _ _ := stores_two (p := fun k => k * 2 + 1) (q := fun k => k * 2)
    (a := fun k c => c (rs i, k + 4)) (b := fun k c => c (rt i, k)) (by omega) (by omega)
  refine eq_write rfl ?_ ?_
  · rintro r hr k _
    refine sweep_other (x := (r, k)) hs (Nat.le_refl 4) fun m _ hm => ?_
    rcases hr with hr | hr
    · exact hr hm.1
    · exact hz hr
  · intro _ k hk
    have hz' : ¬ rt i = 0#5 := h ▸ hz
    simp only [pinth, sweep, getGpr, h]
    by_cases hrs : rs i = rt i
    · interval_cases k <;> simp [lane_setGpr, hrs, hz', overlapped]
    · interval_cases k <;> simp [lane_setGpr, hrs, hz', overlapped]

/-! ### Loops that store one lane -/

/-- Stores of values that are loaded before all of them. -/
theorem lane_stores {c n : ℕ} {v : ℕ → BitVec w} (hc : (n + c) * w ≤ 128) :
    lane w (sweep (fun k g => setGpr g id (v k) (k + c)) n g id') j =
      if id' = id ∧ id ≠ 0 ∧ c ≤ j ∧ j < n + c then v (j - c) else lane w (g id') j := by
  induction n with
  | zero =>
    rw [if_neg (by omega)]
    rfl
  | succ n ih =>
    have hn : (n + c) * w + w ≤ 128 := by
      rw [← Nat.succ_mul, show (n + c).succ = n + 1 + c by omega]
      exact hc
    rw [sweep, lane_setGpr hn, ih (by omega)]
    by_cases hj : j = n + c
    · subst hj
      by_cases hid : id' = id ∧ id ≠ 0
      · rw [if_pos ⟨hid.1, hid.2, rfl⟩, if_pos ⟨hid.1, hid.2, by omega⟩, Nat.add_sub_cancel]
      · rw [if_neg fun h => hid ⟨h.1, h.2.1⟩, if_neg fun h => hid ⟨h.1, h.2.1⟩,
          if_neg fun h => hid ⟨h.1, h.2.1⟩]
    · rw [if_neg fun h => hj h.2.2]
      have hiff : (c ≤ j ∧ j < n + c) ↔ c ≤ j ∧ j < n + 1 + c := by omega
      simp only [hiff]

theorem swap_comp {α β : Type} {a b : ℕ} {f : α → β} {d : ℕ → α} :
    swap a b (fun k => f (d k)) = fun k => f (swap a b d k) := by
  funext j
  simp only [swap, Function.update_apply]
  split_ifs <;> rfl

theorem swaps_comp {α β : Type} {f : α → β} (pairs : List (ℕ × ℕ)) : ∀ d : ℕ → α,
    pairs.foldl (fun d p => swap p.1 p.2 d) (fun k => f (d k)) =
      fun k => f (pairs.foldl (fun d p => swap p.1 p.2 d) d k) := by
  induction pairs with
  | nil => exact fun _ => rfl
  | cons p ps ih =>
    intro d
    rw [List.foldl_cons, swap_comp, ih]
    rfl

theorem exchanged_eq {pairs : List (ℕ × ℕ)} {table : List ℕ} (hn : n * w = 128)
    (ht : ∀ k < n, pairs.foldl (fun d p => swap p.1 p.2 d) (fun k => k) k = table.getD k 0) :
    exchanged w n pairs i g = write g (rd i) (permuted w n table (g (rt i))) := by
  have hc : (n + 0) * w ≤ 128 := by rw [Nat.add_zero, hn]
  refine eq_write hn ?_ ?_
  · rintro r hr k _
    refine (lane_stores hc).trans (if_neg ?_)
    rintro ⟨hid, hz, _⟩
    rcases hr with hr | hr
    · exact hr hid
    · exact hz hr
  · intro hz k hk
    refine (lane_stores hc).trans ?_
    rw [if_pos ⟨rfl, hz, by omega⟩, Nat.sub_zero, swaps_comp pairs (fun k => k)]
    exact congrArg (lane w (g (rt i))) (ht k hk)

/-- The halfword that is copied is stored to itself too, and stays what the other iterations load. -/
theorem copies_eq {c n : ℕ} (hc : (n + c) * w ≤ 128) :
    sweep (fun k g => setGpr g (rd i) (getGpr w g (rt i) c) (k + c)) n g =
      sweep (fun k f => setGpr f (rd i) (getGpr w g (rt i) c) (k + c)) n g := by
  induction n with
  | zero => rfl
  | succ n ih =>
    have hn : (n + c) * w ≤ 128 := by
      refine Nat.le_trans (Nat.mul_le_mul_right w ?_) hc
      omega
    have hload : getGpr w (sweep (fun k f => setGpr f (rd i) (getGpr w g (rt i) c) (k + c)) n g) (rt i) c =
        getGpr w g (rt i) c := by
      refine (lane_stores hn).trans ?_
      split <;> rfl
    rw [sweep, sweep, ih hn, hload]

theorem pcpyh_eq :
    pcpyh i g = write g (rd i) (permuted 16 8 [0, 0, 0, 0, 4, 4, 4, 4] (g (rt i))) := by
  have h0 : (4 + 0) * 16 ≤ 128 := by decide
  have h4 : (4 + 4) * 16 ≤ 128 := by decide
  have hfirst (r : BitVec 5) (j : ℕ) :
      lane 16 (sweep (fun k f => setGpr f (rd i) (getGpr 16 g (rt i) 0) (k + 0)) 4 g r) j =
        if r = rd i ∧ rd i ≠ 0 ∧ 0 ≤ j ∧ j < 4 + 0 then getGpr 16 g (rt i) 0 else lane 16 (g r) j :=
    lane_stores h0
  have heq : pcpyh i g = sweep (fun k f => setGpr f (rd i) (getGpr 16 g (rt i) 4) (k + 4)) 4
      (sweep (fun k f => setGpr f (rd i) (getGpr 16 g (rt i) 0) (k + 0)) 4 g) := by
    unfold pcpyh
    rw [show (sweep (fun k g => setGpr g (rd i) (getGpr 16 g (rt i) 0) k) 4 g) = _ from copies_eq h0,
      copies_eq h4]
    rw [show getGpr 16 _ (rt i) 4 = getGpr 16 g (rt i) 4 from
      (hfirst (rt i) 4).trans (if_neg (by omega))]
  rw [heq]
  refine eq_write rfl ?_ ?_
  · intro r hr k hk
    have hno : ¬ (r = rd i ∧ rd i ≠ 0) := by
      rintro ⟨hid, hz⟩
      rcases hr with hr | hr
      · exact hr hid
      · exact hz hr
    rw [lane_stores h4, if_neg fun h => hno ⟨h.1, h.2.1⟩, hfirst, if_neg fun h => hno ⟨h.1, h.2.1⟩]
  · intro hz k hk
    by_cases hk4 : k < 4
    · rw [lane_stores h4, if_neg (by omega), hfirst, if_pos ⟨rfl, hz, by omega⟩]
      interval_cases k <;> rfl
    · rw [lane_stores h4, if_pos ⟨rfl, hz, by omega⟩]
      interval_cases k <;> rfl

/-! ### Handlers without a loop -/

theorem two_doublewords {a b : BitVec 64} : setGpr (setGpr g id a 0) id b 1 =
    write g id (joined 2 (fun _ => a) fun _ => b) := by
  refine stores_known (t := 1) (p := fun _ => 0) (q := fun _ => 1) (a := fun _ => a)
    (b := fun _ => b) (n := 2) rfl ?_ ?_ ?_ ?_
  · intro k _
    omega
  · intro k _
    omega
  · intro i j hij hj
    omega
  · intro k hk
    refine ⟨0, Nat.one_pos, by omega, ?_⟩
    by_cases hk1 : k = 1
    · rw [if_pos hk1, if_neg (by omega)]
    · rw [if_neg hk1, if_pos (by omega)]

theorem ppacw_eq : ppacw i g = write g (rd i) (joined 4
    (fun k => lane 32 (g (rt i)) (2 * k)) fun k => lane 32 (g (rs i)) (2 * k)) := by
  have hlow (x : Quad) (k : ℕ) : (lane 64 x k).setWidth 32 = lane 32 x (2 * k) := low_half
  simp only [ppacw, getGpr_quad, hlow]
  refine stores_known (t := 2) (p := fun k => k * 2) (q := fun k => k * 2 + 1)
    (a := fun k => if k = 0 then lane 32 (g (rt i)) 0 else lane 32 (g (rs i)) 0)
    (b := fun k => if k = 0 then lane 32 (g (rt i)) 2 else lane 32 (g (rs i)) 2)
    (n := 4) rfl ?_ ?_ ?_ ?_
  · intro k _
    omega
  · intro k _
    omega
  · intro i j hij _
    omega
  · intro k hk
    refine ⟨k / 2, by omega, by omega, ?_⟩
    interval_cases k <;> rfl

theorem lane_swapLanes {a b : ℕ} {q : Quad} (ha : a * w + w ≤ 128) (hb : b * w + w ≤ 128) :
    lane w (swapLanes w a b q) k = lane w q (swap a b (fun k => k) k) := by
  rw [swapLanes, lane_setLane hb, lane_setLane ha, swap, Function.update_apply,
    Function.update_apply]
  by_cases hkb : b = k
  · rw [if_pos hkb, if_pos hkb.symm]
  · rw [if_neg hkb, if_neg (Ne.symm hkb)]
    by_cases hka : a = k
    · rw [if_pos hka, if_pos hka.symm]
    · rw [if_neg hka, if_neg (Ne.symm hka)]

theorem pexeh_eq :
    pexeh i g = write g (rd i) (permuted 16 8 [2, 1, 0, 3, 6, 5, 4, 7] (g (rt i))) := by
  have htable : ∀ k < 8, swap 0 2 (fun k => k) (swap 4 6 (fun k => k) k) =
      [2, 1, 0, 3, 6, 5, 4, 7].getD k 0 := by decide
  rw [pexeh, setGpr_quad, getGpr_quad]
  refine congrArg (write g (rd i)) (eq_ofLanes rfl fun k hk => ?_)
  rw [lane_swapLanes (by omega) (by omega), lane_swapLanes (by omega) (by omega)]
  exact congrArg (lane 16 _) (htable k hk)

theorem prevh_eq :
    prevh i g = write g (rd i) (permuted 16 8 [3, 2, 1, 0, 7, 6, 5, 4] (g (rt i))) := by
  have htable : ∀ k < 8, swap 0 3 (fun k => k) (swap 1 2 (fun k => k) (swap 4 7 (fun k => k) (swap 5 6 (fun k => k) k))) =
      [3, 2, 1, 0, 7, 6, 5, 4].getD k 0 := by decide
  simp only [prevh, setGpr_quad, getGpr_quad]
  refine congrArg (write g (rd i)) (eq_ofLanes rfl fun k hk => ?_)
  rw [lane_swapLanes (by omega) (by omega), lane_swapLanes (by omega) (by omega),
    lane_swapLanes (by omega) (by omega), lane_swapLanes (by omega) (by omega)]
  exact congrArg (lane 16 _) (htable k hk)

theorem pexew_eq : pexew i g = write g (rd i) (permuted 32 4 [2, 1, 0, 3] (g (rt i))) := by
  have htable : ∀ k < 4, swap 0 2 (fun k => k) k =
      [2, 1, 0, 3].getD k 0 := by decide
  rw [pexew, setGpr_quad, getGpr_quad]
  refine congrArg (write g (rd i)) (eq_ofLanes rfl fun k hk => ?_)
  rw [lane_swapLanes (by omega) (by omega)]
  exact congrArg (lane 32 _) (htable k hk)

theorem prot3w_eq : prot3w i g = write g (rd i) (permuted 32 4 [1, 2, 0, 3] (g (rt i))) := by
  simp only [prot3w, setGpr_quad, getGpr_quad]
  refine congrArg (write g (rd i)) (eq_ofLanes rfl fun k hk => ?_)
  rw [lane_setLane (by omega), lane_setLane (by omega), lane_setLane (by omega),
    lane_setLane (by omega)]
  interval_cases k <;> rfl

/-! ### LO and HI -/

theorem quad_eq {u : U128} : quad u = joined 2 (fun _ => u.lo) fun _ => u.hi := by
  refine eq_ofLanes rfl fun k hk => ?_
  refine BitVec.eq_of_getLsbD_eq fun b hb => ?_
  rw [getLsbD_lane, quad, BitVec.getLsbD_append, decide_eq_true hb, Bool.true_and]
  by_cases hk0 : k = 0
  · rw [if_pos (by omega), if_pos (by omega)]
    simp only [hk0, Nat.zero_mul, Nat.zero_add]
  · rw [if_neg (by omega), if_neg (by omega), show k * 64 + b - 64 = b by omega]

theorem moved_eq {u : U128} : moved u i g = write g (rd i) (quad u) := by
  rw [moved, two_doublewords, quad_eq]

theorem lane_pairs {a b : ℕ → BitVec w} {x : Quad} (hn : 2 * n * w ≤ 128) (hk : k < 2 * n) :
    lane w (sweep (fun k q => setLane (setLane q (k * 2) (a k)) (k * 2 + 1) (b k)) n x) k =
      if k % 2 = 0 then a (k / 2) else b (k / 2) := by
  induction n with
  | zero => omega
  | succ n ih =>
    have hroom : (n * 2 + 1) * w + w ≤ 128 := by
      rw [← Nat.succ_mul]
      exact Nat.le_trans (Nat.mul_le_mul_right w (by omega)) hn
    have hroom' : n * 2 * w + w ≤ 128 := by
      rw [Nat.succ_mul] at hroom
      omega
    have hn' : 2 * n * w ≤ 128 := Nat.le_trans (Nat.mul_le_mul_right w (by omega)) hn
    rw [sweep, lane_setLane hroom, lane_setLane hroom']
    by_cases hlow : k < 2 * n
    · rw [if_neg (by omega), if_neg (by omega), ih hn' hlow]
    · by_cases heven : k = n * 2
      · rw [if_neg (by omega), if_pos heven.symm, if_pos (by omega), show k / 2 = n by omega]
      · rw [if_pos (by omega), if_neg (by omega), show k / 2 = n by omega]

theorem pairs_eq {a b : ℕ → BitVec w} {x : Quad} (hn : 2 * n * w = 128) :
    sweep (fun k q => setLane (setLane q (k * 2) (a k)) (k * 2 + 1) (b k)) n x =
      interleaved (2 * n) a b :=
  eq_ofLanes hn fun _ hk => lane_pairs (Nat.le_of_eq hn) hk

theorem pmfhllw_eq {r : Registers} : pmfhllw r i g = write g (rd i) (interleaved 4
    (fun k => lane 32 (quad r.LO) (2 * k)) fun k => lane 32 (quad r.HI) (2 * k)) := by
  simp only [Nat.mul_comm 2]
  rw [pmfhllw, fromHILO, setGpr_quad]
  exact congrArg (write g (rd i)) (pairs_eq (n := 2) rfl)

theorem pmfhluw_eq {r : Registers} : pmfhluw r i g = write g (rd i) (interleaved 4
    (fun k => lane 32 (quad r.LO) (2 * k + 1)) fun k => lane 32 (quad r.HI) (2 * k + 1)) := by
  simp only [Nat.mul_comm 2]
  rw [pmfhluw, fromHILO, setGpr_quad]
  exact congrArg (write g (rd i)) (pairs_eq (n := 2) rfl)

/-- The lower half of a word, apart from the order in which `halfwords` takes them. -/
theorem lane_halfwords {f : BitVec 32 → BitVec 16} {s : Sources} (hk : k < 8) :
    lane 16 (halfwords f s) k =
      f (lane 32 (if k / 2 % 2 = 0 then s.LO else s.HI) (k / 4 * 2 + k % 2)) :=
  lane_ofLanes rfl hk

theorem pmfhllh_eq {r : Registers} : pmfhllh r i g =
    write g (rd i) (halfwords (fun x => x.setWidth 16) (sources i r)) := by
  have htable : ∀ k < 8, swap 1 2 (fun k => k) (swap 5 6 (fun k => k) k) =
      k / 4 * 4 + k % 2 * 2 + k / 2 % 2 := by decide
  simp only [pmfhllh, fromHILO, setGpr_quad]
  refine congrArg (write g (rd i)) (eq_of_lanes (n := 8) (w := 16) rfl fun k hk => ?_)
  rw [lane_swapLanes (by omega) (by omega), lane_swapLanes (by omega) (by omega), htable k hk,
    lane_pairs (by omega) (by omega), lane_halfwords hk, low_half]
  by_cases hlow : k / 2 % 2 = 0
  · rw [if_pos (by omega), if_pos hlow]
    exact congrArg (lane 16 _) (by omega)
  · rw [if_neg (by omega), if_neg hlow]
    exact congrArg (lane 16 _) (by omega)

theorem pmfhlsh_eq {r : Registers} : pmfhlsh r i g =
    write g (rd i) (halfwords clampHalfword (sources i r)) := by
  simp only [pmfhlsh, fromHILO, setGpr_quad]
  refine congrArg (write g (rd i)) (eq_of_lanes (n := 8) (w := 16) rfl fun k hk => ?_)
  rw [lane_halfwords hk]
  iterate 8 rw [lane_setLane (by omega)]
  interval_cases k <;> simp [sources]

theorem pmfhlslw_eq {r : Registers} : pmfhlslw r i g =
    write g (rd i) (joined 2
      (fun _ => clampDoubleword (lane 32 (quad r.HI) 0 ++ lane 32 (quad r.LO) 0))
      fun _ => clampDoubleword (lane 32 (quad r.HI) 2 ++ lane 32 (quad r.LO) 2)) := by
  have hword (x y : BitVec 32) : x.setWidth 64 ||| y.setWidth 64 <<< 32 = y ++ x := by
    refine BitVec.eq_of_getLsbD_eq fun b hb => ?_
    rw [BitVec.getLsbD_or, BitVec.getLsbD_shiftLeft, BitVec.getLsbD_append, BitVec.getLsbD_setWidth,
      BitVec.getLsbD_setWidth]
    by_cases hlow : b < 32
    · simp [hlow, hb]
    · have hx : x.getLsbD b = false := BitVec.getLsbD_of_ge x b (by omega)
      simp [hlow, hb, hx, show b - 32 < 64 by omega]
  simp only [pmfhlslw, fromHILO, setGpr_quad, hword]
  refine congrArg (write g (rd i)) (eq_ofLanes (n := 2) rfl fun k hk => ?_)
  rw [lane_setLane (by omega), lane_setLane (by omega)]
  interval_cases k
  · rw [if_neg (by omega), if_pos rfl, if_pos (by omega)]
  · rw [if_pos rfl, if_neg (by omega)]

/-- PMTHL keeps the upper words. -/
theorem pmthllw_eq {r : Registers} : pmthllw i r = result .pmthllw i r := by
  have heven (x y : Quad) (c : ℕ) :
      sweep (fun k q => setLane q (k * 2) (lane 32 x (k * 2 + c))) 2 y =
        interleaved 4 (fun k => lane 32 x (2 * k + c)) fun k => lane 32 y (2 * k + 1) := by
    refine eq_ofLanes rfl fun k hk => ?_
    simp only [sweep]
    rw [lane_setLane (by omega), lane_setLane (by omega)]
    by_cases hk2 : k % 2 = 0
    · rw [if_pos hk2]
      by_cases hk0 : k = 0
      · rw [if_neg (by omega), if_pos (by omega), hk0]
      · rw [if_pos (by omega), show k = 2 by omega]
    · rw [if_neg (by omega), if_neg (by omega), if_neg hk2, show 2 * (k / 2) + 1 = k by omega]
  have hlow (x y : Quad) := heven x y 0
  simp only [Nat.add_zero] at hlow
  simp only [pmthllw, result, sources, getGpr_quad, heven, hlow]

end DobieStation.Mmi.Stores
