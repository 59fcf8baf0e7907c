import DobieStation.EeJit.RegisterCache
import Mathlib.Data.BitVec

/-! # The cache and the machine agree

`Coherent` says what the code that is written so far has done: every register of the EE has its value in the
register of the host that the cache names, and else in memory. Every function of the cache keeps this. -/

namespace DobieStation.EeJit.RegisterCache

open DobieStation.Lib.Memory DobieStation.Lib.Staged DobieStation.EeJit.Host


structure Coherent (L : Layout) (C : Cache) (m : Machine) (g : File) : Prop where
  base : m.regs .R15 = BitVec.ofNat 64 L.ee
  zero : g 0 = 0
  held : ∀ i, Holds C i → m.regs i = g (C i).reg
  memory : ∀ r, InFile r → (∀ i, Holds C i → (C i).modified = true → (C i).reg ≠ r) →
    load 8 m.mem (L.place r) = (g r).toNat

/-- The byte is not part of a register of the EE. -/
def Outside (L : Layout) (p : ℕ) : Prop := ∀ r, InFile r → p < L.place r ∨ L.place r + 8 ≤ p

/-- Nothing is written but registers of the EE. -/
def Framed (L : Layout) (m m' : Machine) : Prop := ∀ p, Outside L p → m'.mem p = m.mem p

theorem Framed.refl (L : Layout) (m : Machine) : Framed L m m := fun _ _ => rfl

theorem Framed.trans {L : Layout} {m m' m'' : Machine} (h : Framed L m m') (h' : Framed L m' m'') :
    Framed L m m'' :=
  fun p hp => (h' p hp).trans (h p hp)

section
variable {L : Layout} {C : Cache} {m : Machine} {g : File} {i d : REG_64} {r : ℤ}

/-! ### Stores -/

/-- A value of 64 bits is loaded as it was stored. -/
theorem load_store_reg (b : Bytes) (a : ℕ) (v : BitVec 64) : load 8 (store 8 b a v.toNat) a = v.toNat := by
  rw [load_store_self]
  exact Nat.mod_eq_of_lt v.isLt

/-- The address that a store of the cache computes, from R15. -/
theorem address_gpr (hm : m.regs .R15 = BitVec.ofNat 64 L.ee) (hr : InFile r) (h32 : r < 32) :
    m.address .R15 (BitVec.ofNat 32 (L.gpr + r.toNat * 16)) = L.place r := by
  have h1 := L.gpr_small
  have hlt := place_lt L hr
  rw [place_eq L hr, if_pos h32] at hlt ⊢
  have hoff : L.gpr + r.toNat * 16 < 2 ^ 31 := by
    have := hr.1
    omega
  have hsign : (BitVec.ofNat 32 (L.gpr + r.toNat * 16)).signExtend 64 =
      BitVec.ofNat 64 (L.gpr + r.toNat * 16) := by
    rw [BitVec.signExtend_eq_setWidth_of_msb_false]
    · rw [← BitVec.toNat_inj, BitVec.toNat_setWidth, BitVec.toNat_ofNat, BitVec.toNat_ofNat]
      omega
    · rw [BitVec.msb_eq_false_iff_two_mul_lt, BitVec.toNat_ofNat]
      omega
  unfold Machine.address
  rw [hm, hsign, ← BitVec.ofNat_add, BitVec.toNat_ofNat]
  omega

/-- The address that is in a register of the host. -/
theorem address_place (hr : InFile r) (h : m.regs i = BitVec.ofNat 64 (L.place r)) :
    m.address i 0 = L.place r := by
  have hlt := place_lt L hr
  have hzero : (0 : BitVec 32).signExtend 64 = 0#64 := by decide
  unfold Machine.address
  rw [h, hzero, BitVec.add_zero, BitVec.toNat_ofNat]
  omega

/-- What a flush leaves: one register of the EE is in memory, and RAX may be lost. -/
structure Stored (L : Layout) (m : Machine) (r : ℤ) (v : BitVec 64) (m' : Machine) : Prop where
  regs : ∀ i, i ≠ .RAX → m'.regs i = m.regs i
  here : load 8 m'.mem (L.place r) = v.toNat
  others : ∀ r', InFile r' → r' ≠ r → load 8 m'.mem (L.place r') = load 8 m.mem (L.place r')
  framed : Framed L m m'

theorem stored_of_eq {m' : Machine} {v : BitVec 64} (hr : InFile r)
    (hregs : ∀ i, i ≠ .RAX → m'.regs i = m.regs i)
    (hmem : m'.mem = store 8 m.mem (L.place r) v.toNat) : Stored L m r v m' := by
  refine ⟨hregs, ?_, fun r' hr' hne => ?_, fun p hp => ?_⟩
  · rw [hmem]
    exact load_store_reg _ _ _
  · rw [hmem]
    exact load_store_apart (place_apart L hr hr' hne.symm)
  · rw [hmem]
    exact store_apply (hp r hr)

theorem wp_store_reg (hm : m.regs .R15 = BitVec.ofNat 64 L.ee) (hr : InFile r) (hr0 : r ≠ 0)
    (hi : i ≠ .RAX) :
    Wp exec (store_reg L i r) C m fun _ C' m' => C' = C ∧ Stored L m r (m.regs i) m' := by
  unfold store_reg
  rw [if_neg hr0]
  refine Wp.ite (fun h32 => ?_) fun h32 => ?_
  · refine Wp.emit rfl ⟨rfl, stored_of_eq hr (fun _ _ => rfl) ?_⟩
    rw [address_gpr hm hr h32]
  · rw [get_gpr_addr_eq L hr]
    refine Wp.bind (Wp.pure ?_)
    refine Wp.bind (Wp.emit rfl ?_)
    refine Wp.emit rfl ⟨rfl, stored_of_eq hr (fun j hj => ?_) ?_⟩
    · exact Function.update_of_ne hj _ m.regs
    · change store 8 m.mem _ (Function.update m.regs .RAX _ i).toNat = _
      rw [Function.update_of_ne hi, address_place hr]
      exact Function.update_self .RAX _ m.regs

/-! ### Entries that change -/

theorem Holds.ne_reserved (hw : Wf C) (h : Holds C i) {j : REG_64} (hj : j ∈ reserved) : i ≠ j := by
  rintro rfl
  exact absurd (h.unlocked.symm.trans (hw.reserved i hj).1) Bool.false_ne_true

theorem Holds.ne_RAX (hw : Wf C) (h : Holds C i) : i ≠ .RAX := h.ne_reserved hw (by decide)

theorem holds_of_ne {e : AllocReg} (hne : i ≠ d) : Holds (Function.update C d e) i ↔ Holds C i := by
  have he : Function.update C d e i = C i := Function.update_of_ne hne _ _
  constructor
  · rintro ⟨h1, h2, h3⟩
    rw [he] at h1 h2 h3
    exact ⟨h1, h2, h3⟩
  · rintro ⟨h1, h2, h3⟩
    exact ⟨by rw [he]; exact h1, by rw [he]; exact h2, by rw [he]; exact h3⟩

/-- A register that is given up is in memory from then on. -/
theorem Coherent.drop (hc : Coherent L C m g) {e : AllocReg} (he : ¬ Holds (Function.update C d e) d)
    (hd : Holds C d → load 8 m.mem (L.place (C d).reg) = (g (C d).reg).toNat) :
    Coherent L (Function.update C d e) m g := by
  refine ⟨hc.base, hc.zero, fun i hi => ?_, fun r hr hdirty => ?_⟩
  · have hne : i ≠ d := by
      rintro rfl
      exact he hi
    rw [Function.update_of_ne hne]
    exact hc.held i ((holds_of_ne hne).mp hi)
  · by_cases hold : Holds C d ∧ (C d).reg = r
    · obtain ⟨hold, rfl⟩ := hold
      exact hd hold
    · refine hc.memory r hr fun i hi hmod hreg => ?_
      by_cases hid : i = d
      · subst hid
        exact hold ⟨hi, hreg⟩
      · refine hdirty i ((holds_of_ne hid).mpr hi) ?_ ?_
        · rw [Function.update_of_ne hid]
          exact hmod
        · rw [Function.update_of_ne hid]
          exact hreg

/-- A register is taken for `r`, with the value `v`. -/
theorem Coherent.take (hc : Coherent L C m g) (hd : ¬ Holds C d)
    (hd15 : d ≠ .R15) (hreg : ∀ i, Holds C i → (C i).reg ≠ r) {e : AllocReg} (he : e.reg = r)
    {m' : Machine} (hmem : m'.mem = m.mem) (hregs : ∀ i, i ≠ d → m'.regs i = m.regs i)
    (hv : m'.regs d = g r ∨ e.modified = true ∧ r ≠ 0) (hhold : Holds (Function.update C d e) d) :
    Coherent L (Function.update C d e) m' (Function.update g r (m'.regs d)) := by
  refine ⟨(hregs _ hd15.symm).trans hc.base, ?_, fun i hi => ?_, fun r' hr' hdirty => ?_⟩
  · by_cases hr0 : r = 0
    · subst hr0
      rw [Function.update_self]
      rcases hv with hv | ⟨-, hv⟩
      · exact hv.trans hc.zero
      · exact absurd rfl hv
    · rw [Function.update_of_ne (Ne.symm hr0)]
      exact hc.zero
  · by_cases hid : i = d
    · subst hid
      rw [Function.update_self, he, Function.update_self]
    · have hi' := (holds_of_ne hid).mp hi
      rw [Function.update_of_ne hid, Function.update_of_ne (hreg i hi'), hregs i hid]
      exact hc.held i hi'
  · rw [hmem]
    by_cases hrr : r' = r
    · subst hrr
      rw [Function.update_self]
      rcases hv with hv | ⟨hmod, -⟩
      · rw [hv]
        exact hc.memory r' hr' fun i hi _ => hreg i hi
      · exact absurd (by rw [Function.update_self]; exact he)
          (hdirty d hhold (by rw [Function.update_self]; exact hmod))
    · rw [Function.update_of_ne hrr]
      refine hc.memory r' hr' fun i hi hmod => ?_
      have hid : i ≠ d := by
        rintro rfl
        exact hd hi
      have := hdirty i ((holds_of_ne hid).mpr hi)
      rw [Function.update_of_ne hid] at this
      exact this hmod

/-- An entry of `r` that is written. -/
theorem Coherent.write (hw : Wf C) (hc : Coherent L C m g) (hd : Holds C d) (hr : (C d).reg = r)
    (hmod : (C d).modified = true) (hr0 : r ≠ 0) {m' : Machine} (hmem : m'.mem = m.mem)
    (hregs : ∀ i, Holds C i → i ≠ d → m'.regs i = m.regs i) (h15 : m'.regs .R15 = m.regs .R15) :
    Coherent L C m' (Function.update g r (m'.regs d)) := by
  refine ⟨h15.trans hc.base, ?_, fun i hi => ?_, fun r' hr' hdirty => ?_⟩
  · rw [Function.update_of_ne (Ne.symm hr0)]
    exact hc.zero
  · by_cases hid : i = d
    · subst hid
      rw [hr, Function.update_self]
    · have hne : (C i).reg ≠ r := fun h => hid (hw.unique i d hi hd (h.trans hr.symm))
      rw [Function.update_of_ne hne, hregs i hi hid]
      exact hc.held i hi
  · have hne : r' ≠ r := by
      rintro rfl
      exact hdirty d hd hmod hr
    rw [hmem, Function.update_of_ne hne]
    exact hc.memory r' hr' hdirty

/-- An entry that is found becomes younger, and it may be written from now on. -/
theorem Coherent.touch (hc : Coherent L C m g) (hd : Holds C d) (dirty : Bool) :
    Coherent L (Function.update C d { C d with modified := (C d).modified || dirty, age := 0 }) m g := by
  have hentry : ∀ i, Holds (Function.update C d
      { C d with modified := (C d).modified || dirty, age := 0 }) i ↔ Holds C i := by
    intro i
    by_cases hid : i = d
    · subst hid
      refine ⟨fun _ => hd, fun _ => ⟨?_, ?_, ?_⟩⟩ <;> rw [Function.update_self]
      · exact hd.used
      · exact hd.unlocked
      · exact hd.type
    · exact holds_of_ne hid
  have hreg : ∀ i, (Function.update C d
      { C d with modified := (C d).modified || dirty, age := 0 } i).reg = (C i).reg := by
    intro i
    by_cases hid : i = d
    · subst hid
      rw [Function.update_self]
    · rw [Function.update_of_ne hid]
  refine ⟨hc.base, hc.zero, fun i hi => ?_, fun r' hr' hdirty => ?_⟩
  · rw [hreg]
    exact hc.held i ((hentry i).mp hi)
  · refine hc.memory r' hr' fun i hi hmod hr => ?_
    refine hdirty i ((hentry i).mpr hi) ?_ ((hreg i).trans hr)
    by_cases hid : i = d
    · subst hid
      rw [Function.update_self]
      change ((C i).modified || dirty) = true
      rw [hmod, Bool.true_or]
    · rw [Function.update_of_ne hid]
      exact hmod

/-! ### Caches that stay well formed -/

theorem grow_entry (i : REG_64) : (C.grow i).used = (C i).used ∧ (C.grow i).locked = (C i).locked ∧
    (C.grow i).modified = (C i).modified ∧ (C.grow i).reg = (C i).reg ∧
    (C.grow i).type = (C i).type ∧ (C.grow i).age = (C i).age + if (C i).used then 1 else 0 := by
  unfold Cache.grow
  cases hu : (C i).used
  · exact ⟨hu, rfl, rfl, rfl, rfl, rfl⟩
  · exact ⟨hu, rfl, rfl, rfl, rfl, rfl⟩

theorem holds_grow : Holds C.grow i ↔ Holds C i := by
  obtain ⟨h1, h2, -, -, h5, -⟩ := grow_entry (C := C) i
  constructor
  · rintro ⟨a, b, c⟩
    exact ⟨h1 ▸ a, h2 ▸ b, h5 ▸ c⟩
  · rintro ⟨a, b, c⟩
    exact ⟨h1.trans a, h2.trans b, h5.trans c⟩

theorem age_grow (h : Holds C i) : (C.grow i).age = (C i).age + 1 := by
  rw [(grow_entry i).2.2.2.2.2, h.used, if_pos rfl]

theorem Wf.grow (hw : Wf C) : Wf C.grow := by
  have hreg : ∀ i, (C.grow i).reg = (C i).reg := fun i => (grow_entry i).2.2.2.1
  refine ⟨fun i hi => ?_, fun i hi => ?_, fun i hu hl => ?_, fun i hi => ?_, fun i j hi hj h => ?_,
    fun i j hi hj h => ?_, fun i hu hm => ?_, fun i hu hl ht => ?_⟩
  · exact ⟨(grow_entry i).2.1.trans (hw.reserved i hi).1, (grow_entry i).1.trans (hw.reserved i hi).2⟩
  · exact (grow_entry i).2.1.trans (hw.always i hi)
  · rw [(grow_entry i).1] at hu
    rw [(grow_entry i).2.1] at hl
    exact (grow_entry i).2.2.2.2.1.trans (hw.plain i hu hl)
  · rw [hreg]
    exact hw.range i (holds_grow.1 hi)
  · rw [hreg, hreg] at h
    exact hw.unique i j (holds_grow.1 hi) (holds_grow.1 hj) h
  · rw [age_grow (holds_grow.1 hi), age_grow (holds_grow.1 hj)] at h
    exact hw.ages i j (holds_grow.1 hi) (holds_grow.1 hj) (Nat.succ.inj h)
  · rw [(grow_entry i).1] at hu
    rw [(grow_entry i).2.2.1] at hm
    rw [holds_grow, hreg]
    exact hw.clean i hu hm
  · rw [(grow_entry i).1] at hu
    rw [(grow_entry i).2.1] at hl
    rw [(grow_entry i).2.2.2.2.1] at ht
    rw [hreg]
    exact hw.locked i hu hl ht

theorem Coherent.grow (hc : Coherent L C m g) : Coherent L C.grow m g := by
  have hreg : ∀ i, (C.grow i).reg = (C i).reg := fun i => (grow_entry i).2.2.2.1
  refine ⟨hc.base, hc.zero, fun i hi => ?_, fun r hr hdirty => ?_⟩
  · rw [hreg]
    exact hc.held i (holds_grow.1 hi)
  · refine hc.memory r hr fun i hi hmod h => ?_
    exact hdirty i (holds_grow.2 hi) ((grow_entry i).2.2.1.trans hmod) ((hreg i).trans h)

/-- A register that can be taken. -/
theorem not_reserved (hw : Wf C) (hd : (C d).locked = false) {j : REG_64} (hj : j ∈ reserved) :
    d ≠ j := by
  rintro rfl
  exact absurd (hd.symm.trans (hw.reserved d hj).1) Bool.false_ne_true

/-- An entry for a register of the EE that no other entry is of. -/
structure Fits (C : Cache) (d : REG_64) (e : AllocReg) : Prop where
  used : e.used = true
  unlocked : e.locked = false
  type : e.type = .GPR
  range : InFile e.reg
  age : e.age = 0
  clean : e.modified = true → e.reg ≠ 0
  unique : ∀ i, i ≠ d → Holds C i → (C i).reg ≠ e.reg
  ages : ∀ i, i ≠ d → Holds C i → (C i).age ≠ 0

theorem Wf.take (hw : Wf C) (hd : (C d).locked = false) {e : AllocReg} (he : Fits C d e) :
    Wf (Function.update C d e) := by
  have hhold : Holds (Function.update C d e) d := by
    constructor <;> rw [Function.update_self]
    · exact he.used
    · exact he.unlocked
    · exact he.type
  refine ⟨fun i hi => ?_, fun i hi => ?_, fun i => ?_, fun i hi => ?_, fun i j hi hj h => ?_,
    fun i j hi hj h => ?_, fun i => ?_, fun i => ?_⟩
  · rw [Function.update_of_ne (not_reserved hw hd hi).symm]
    exact hw.reserved i hi
  · rcases eq_or_ne i d with rfl | hne
    · rw [Function.update_self]
      exact he.unlocked
    · rw [Function.update_of_ne hne]
      exact hw.always i hi
  · rcases eq_or_ne i d with rfl | hne
    · rw [Function.update_self]
      exact fun _ _ => he.type
    · rw [Function.update_of_ne hne]
      exact hw.plain i
  · rcases eq_or_ne i d with rfl | hne
    · rw [Function.update_self]
      exact he.range
    · rw [Function.update_of_ne hne]
      exact hw.range i ((holds_of_ne hne).mp hi)
  · rcases eq_or_ne i d with hid | hi' <;> rcases eq_or_ne j d with hjd | hj'
    · exact hid.trans hjd.symm
    · rw [hid, Function.update_self, Function.update_of_ne hj'] at h
      exact absurd h.symm (he.unique j hj' ((holds_of_ne hj').mp hj))
    · rw [hjd, Function.update_self, Function.update_of_ne hi'] at h
      exact absurd h (he.unique i hi' ((holds_of_ne hi').mp hi))
    · rw [Function.update_of_ne hi', Function.update_of_ne hj'] at h
      exact hw.unique i j ((holds_of_ne hi').mp hi) ((holds_of_ne hj').mp hj) h
  · rcases eq_or_ne i d with hid | hi' <;> rcases eq_or_ne j d with hjd | hj'
    · exact hid.trans hjd.symm
    · rw [hid, Function.update_self, Function.update_of_ne hj', he.age] at h
      exact absurd h.symm (he.ages j hj' ((holds_of_ne hj').mp hj))
    · rw [hjd, Function.update_self, Function.update_of_ne hi', he.age] at h
      exact absurd h (he.ages i hi' ((holds_of_ne hi').mp hi))
    · rw [Function.update_of_ne hi', Function.update_of_ne hj'] at h
      exact hw.ages i j ((holds_of_ne hi').mp hi) ((holds_of_ne hj').mp hj) h
  · rcases eq_or_ne i d with rfl | hne
    · rw [Function.update_self]
      exact fun _ hm => ⟨hhold, he.clean hm⟩
    · rw [Function.update_of_ne hne, holds_of_ne hne]
      exact hw.clean i
  · rcases eq_or_ne i d with rfl | hne
    · rw [Function.update_self]
      exact fun _ hl => absurd (he.unlocked.symm.trans hl) Bool.false_ne_true
    · rw [Function.update_of_ne hne]
      exact hw.locked i

/-- An entry that cannot be found: it is not used, or it is a locked one that nothing is written from. -/
structure Hidden (d : REG_64) (e : AllocReg) : Prop where
  always : d ∈ RegisterCache.always → e.locked = false
  unused : e.used = false ∨ e.locked = true ∧ e.modified = false ∧ (e.type = .GPR → e.reg = 0)

theorem Hidden.not_holds {e : AllocReg} (he : Hidden d e) : ¬ Holds (Function.update C d e) d := by
  rintro ⟨hu, hl, -⟩
  rw [Function.update_self] at hu hl
  rcases he.unused with h | ⟨h, -, -⟩
  · exact absurd (h.symm.trans hu) Bool.false_ne_true
  · exact absurd (hl.symm.trans h) Bool.false_ne_true

theorem Wf.hide (hw : Wf C) (hd : d ∉ RegisterCache.reserved) {e : AllocReg} (he : Hidden d e) :
    Wf (Function.update C d e) := by
  have hne : ∀ i, Holds (Function.update C d e) i → i ≠ d := by
    rintro i hi rfl
    exact he.not_holds hi
  refine ⟨fun i hi => ?_, fun i hi => ?_, fun i => ?_, fun i hi => ?_, fun i j hi hj h => ?_,
    fun i j hi hj h => ?_, fun i => ?_, fun i => ?_⟩
  · rw [Function.update_of_ne (by rintro rfl; exact hd hi)]
    exact hw.reserved i hi
  · rcases eq_or_ne i d with rfl | hid
    · rw [Function.update_self]
      exact he.always hi
    · rw [Function.update_of_ne hid]
      exact hw.always i hi
  · rcases eq_or_ne i d with rfl | hid
    · rw [Function.update_self]
      intro hu hl
      rcases he.unused with h | ⟨h, -, -⟩
      · exact absurd (h.symm.trans hu) Bool.false_ne_true
      · exact absurd (hl.symm.trans h) Bool.false_ne_true
    · rw [Function.update_of_ne hid]
      exact hw.plain i
  · rw [Function.update_of_ne (hne i hi)]
    exact hw.range i ((holds_of_ne (hne i hi)).mp hi)
  · rw [Function.update_of_ne (hne i hi), Function.update_of_ne (hne j hj)] at h
    exact hw.unique i j ((holds_of_ne (hne i hi)).mp hi) ((holds_of_ne (hne j hj)).mp hj) h
  · rw [Function.update_of_ne (hne i hi), Function.update_of_ne (hne j hj)] at h
    exact hw.ages i j ((holds_of_ne (hne i hi)).mp hi) ((holds_of_ne (hne j hj)).mp hj) h
  · rcases eq_or_ne i d with rfl | hid
    · rw [Function.update_self]
      intro hu hm
      rcases he.unused with h | ⟨-, h, -⟩
      · exact absurd (h.symm.trans hu) Bool.false_ne_true
      · exact absurd (h.symm.trans hm) Bool.false_ne_true
    · rw [Function.update_of_ne hid, holds_of_ne hid]
      exact hw.clean i
  · rcases eq_or_ne i d with rfl | hid
    · rw [Function.update_self]
      intro hu hl
      rcases he.unused with h | ⟨-, -, h⟩
      · exact absurd (h.symm.trans hu) Bool.false_ne_true
      · exact h
    · rw [Function.update_of_ne hid]
      exact hw.locked i

end

end DobieStation.EeJit.RegisterCache
