import DobieStation.Tlb.Model
import Mathlib.Tactic.Common

/-! # The tables hold pages

Every pointer of the software page tables is to the start of a page: a mapping takes whole pages of
the physical memory. -/

namespace DobieStation.Tlb.Alignment

open DobieStation.Tlb.Model DobieStation.Lib.Reach

def WholePage : Pointer → Prop
  | .RDRAM offset => offset % 4096 = 0
  | .BIOS offset => offset % 4096 = 0
  | .spr offset => offset % 4096 = 0
  | .null => True
  | .mmio => True

structure Whole (p : Page) : Prop where
  kernel : WholePage p.kernel_vtlb
  sup : WholePage p.sup_vtlb
  user : WholePage p.user_vtlb

def Aligned (t : ℕ → Page) : Prop := ∀ page, Whole (t page)

variable {t t' : ℕ → Page} {c c' : Cop0} {gpr : ℕ → BitVec 32}

theorem whole_blank : Whole blank := ⟨trivial, trivial, trivial⟩

theorem wholePage_get_mem_pointer {paddr : ℕ} (h : paddr % 4096 = 0) :
    WholePage (get_mem_pointer paddr) := by
  unfold get_mem_pointer
  split_ifs
  · exact (Nat.mod_mod_of_dvd paddr (show 4096 ∣ 1024 * 1024 * 32 by decide)).trans h
  · exact (Nat.mod_mod_of_dvd paddr (show 4096 ∣ 1024 * 1024 * 4 by decide)).trans h
  · trivial

/-! ### Loops over pages -/

theorem Aligned.store {page : ℕ} {f : Page → Page} (ht : Aligned t) (hf : ∀ x, Whole x → Whole (f x))
    (h : store page f t = some t') : Aligned t' := by
  unfold Model.store at h
  split_ifs at h
  obtain rfl := Option.some.inj h
  intro p
  by_cases hp : p = page
  · rw [hp, Function.update_self]
    exact hf _ (ht page)
  · rw [Function.update_of_ne hp]
    exact ht p

theorem Aligned.storePages {page : ℕ} {f : ℕ → Page → Page} (hf : ∀ i x, Whole x → Whole (f i x)) :
    ∀ (l : List ℕ) {t t' : ℕ → Page}, Aligned t →
      l.foldlM (fun t map_index => Model.store (page + map_index) (f map_index) t) t = some t' →
      Aligned t'
  | [], _, _, ht, h => by
    obtain rfl := Option.some.inj h
    exact ht
  | i :: l, _, _, ht, h => by
    simp only [List.foldlM_cons, Option.bind_eq_bind, Option.bind_eq_some_iff] at h
    obtain ⟨t₁, h₁, h₂⟩ := h
    exact Aligned.storePages hf l (ht.store (hf i) h₁) h₂

/-- A loop gives its pages multiples of 4096. -/
theorem Aligned.eachPage {page size : ℕ} {f : ℕ → Page → Page} (ht : Aligned t)
    (hf : ∀ i x, i % 4096 = 0 → Whole x → Whole (f i x)) (h : eachPage page size f t = some t') :
    Aligned t' :=
  Aligned.storePages (fun i x hx => hf (4096 * i) x (Nat.mul_mod_right 4096 i) hx) _ ht h

theorem Aligned.whenValid {lo : EntryLo} {act : (ℕ → Page) → Option (ℕ → Page)} (ht : Aligned t)
    (hact : act t = some t' → Aligned t') (h : whenValid lo act t = some t') : Aligned t' := by
  unfold Model.whenValid at h
  split_ifs at h
  · exact hact h
  · obtain rfl := Option.some.inj h
    exact ht

/-! ### Entries -/

theorem whole_init_page {i : ℕ} {x : Page} (hi : i % 4096 = 0) (hx : Whole x) :
    Whole (init_page i x) :=
  ⟨wholePage_get_mem_pointer ((Nat.mod_mod_of_dvd i (show 4096 ∣ 0x20000000 by decide)).trans hi),
    hx.sup, hx.user⟩

theorem whole_map_page {lo : EntryLo} {virt phy i : ℕ} {x : Page} (hphy : phy % 4096 = 0)
    (hi : i % 4096 = 0) (hx : Whole x) : Whole (map_page lo virt phy i x) := by
  have hmem : WholePage (get_mem_pointer (u32 (phy + i))) := by
    refine wholePage_get_mem_pointer ?_
    unfold u32
    omega
  refine ⟨hmem, ?_, ?_⟩
  · simp only [map_page]
    split_ifs
    · exact hmem
    · exact hx.sup
  · simp only [map_page]
    split_ifs
    · exact hmem
    · exact hx.user

/-- The page sizes are whole, that of an invalid mask is none. -/
theorem page_sizing_whole (mask : ℕ) : (page_sizing mask).1 % 4096 = 0 := by
  unfold page_sizing
  split_ifs <;> rfl

theorem Aligned.unmap_tlb {e : TLB_Entry} (ht : Aligned t) (h : unmap_tlb e t = some t') :
    Aligned t' := by
  have hunmap : ∀ i x, i % 4096 = 0 → Whole x → Whole (unmap_page x) :=
    fun _ _ _ _ => ⟨trivial, trivial, trivial⟩
  unfold Model.unmap_tlb at h
  split_ifs at h
  · exact ht.whenValid (ht.eachPage hunmap) h
  · simp only [Option.bind_eq_bind, Option.bind_eq_some_iff] at h
    obtain ⟨t₁, h₁, h₂⟩ := h
    have ht₁ := ht.whenValid (ht.eachPage hunmap) h₁
    exact ht₁.whenValid (ht₁.eachPage hunmap) h₂

theorem Aligned.map_half {e : TLB_Entry} {lo : EntryLo} {virt : ℕ} (ht : Aligned t)
    (he : e.page_size % 4096 = 0) (h : map_half e lo virt t = some t') : Aligned t' := by
  have hphy : phy_addr e lo % 4096 = 0 := by
    have hmul := Nat.mul_mod (lo.pfn / 2 ^ e.page_shift) e.page_size 4096
    rw [he, Nat.mul_zero, Nat.zero_mod] at hmul
    unfold phy_addr u32
    omega
  exact ht.whenValid (ht.eachPage fun i x hi hx => whole_map_page hphy hi hx) h

theorem Aligned.map_tlb {e : TLB_Entry} (ht : Aligned t) (he : e.page_size % 4096 = 0)
    (h : map_tlb e t = some t') : Aligned t' := by
  have hscratchpad : ∀ i x, i % 4096 = 0 → Whole x → Whole (map_scratchpad i x) :=
    fun _ _ hi _ => ⟨hi, hi, hi⟩
  unfold Model.map_tlb at h
  split_ifs at h
  · exact ht.whenValid (ht.eachPage hscratchpad) h
  · simp only [Option.bind_eq_bind, Option.bind_eq_some_iff] at h
    obtain ⟨t₁, h₁, h₂⟩ := h
    exact (ht.map_half he h₁).map_half he h₂

/-! ### Runs -/

theorem aligned_init (h : Init c) : Aligned c.vtlb := by
  have hblank : Aligned fun _ => blank := fun _ => whole_blank
  refine hblank.eachPage (fun i x hi hx => whole_init_page ?_ hx) h.2
  unfold unmapped_start
  omega

theorem Aligned.tlbwi (hc : Aligned c.vtlb) (h : tlbwi gpr c = some c') : Aligned c'.vtlb := by
  unfold Model.tlbwi set_tlb at h
  split_ifs at h
  simp only [Option.bind_eq_bind, Option.bind_eq_some_iff] at h
  obtain ⟨t₁, h₁, t₂, h₂, h₃⟩ := h
  obtain rfl := Option.some.inj h₃
  exact (hc.unmap_tlb h₁).map_tlb (page_sizing_whole _) h₂

/-- **After every run of TLBWI, the tables hold pages.** -/
theorem aligned (h : Reaches Init (fun c gpr c' => tlbwi gpr c = some c') c) : Aligned c.vtlb :=
  h.invariant (I := fun c => Aligned c.vtlb) (fun _ => aligned_init) fun _ _ _ hi hs => hi.tlbwi hs

end DobieStation.Tlb.Alignment
