import DobieStation.Tlb.Model
import Mathlib.Tactic.IntervalCases
import Mathlib.Tactic.SplitIfs

/-! # The page tables agree with the TLB

What an entry of the TLB says of a page is `Covers` and `translation`: the page is of the entry
where `VPN2` agrees under `PageMask`, the half is picked by the page number, and the rest of the page
number is the offset within a large page. An entry for the scratchpad stands for its 16 KB, whatever
its mask.

`unmap_tlb_eq` and `map_tlb_eq` say what the two loops do to the tables, page by page; that a write
of an entry keeps `Agrees` then compares pages. -/

namespace DobieStation.Tlb.Translation

open DobieStation.Lib.Reach DobieStation.Tlb.Model

/-! ### What an entry says of a page -/

/-- The page masks that stand for a size of page. -/
def page_masks : List ℕ := [0x000, 0x003, 0x00F, 0x03F, 0x0FF, 0x3FF, 0xFFF]

section
variable (e : TLB_Entry)

/-- How many pages of 4 KB a half has. -/
def pages : ℕ := e.page_mask + 1

/-- The first page of the entry: `VPN2` under `PageMask`. -/
def first : ℕ := e.vpn2 / pages e * (2 * pages e)

def Matches (page : ℕ) : Prop := page / 2 / pages e = e.vpn2 / pages e

def half (page : ℕ) : EntryLo := if page / pages e % 2 = 0 then e.even else e.odd

/-- The entry is valid, and for this page. -/
def Covers (page : ℕ) : Prop :=
  if e.is_scratchpad then e.even.valid ∧ first e ≤ page ∧ page < first e + 4
  else Matches e page ∧ (half e page).valid

def translation (page : ℕ) : Pointer :=
  if e.is_scratchpad then .spr (4096 * (page - first e))
  else get_mem_pointer (4096 * ((half e page).pfn / pages e * pages e + page % pages e))

instance decidableCovers (page : ℕ) : Decidable (Covers e page) := by
  unfold Covers Matches
  infer_instance

/-- Some half that is looked at is valid. -/
def Live : Prop := e.even.valid ∨ (e.is_scratchpad = false ∧ e.odd.valid)

end

/-- kseg0 and kseg1. -/
def Unmapped (page : ℕ) : Prop := unmapped_start / 4096 ≤ page ∧ page < unmapped_end / 4096

/-- The supervisor's segments: those of the user, and sseg. -/
def Supervised (page : ℕ) : Prop := page < 0x80000 ∨ (0xC0000 ≤ page ∧ page < 0xE0000)

instance decidableUnmapped (page : ℕ) : Decidable (Unmapped page) := by
  unfold Unmapped
  infer_instance

instance decidableSupervised (page : ℕ) : Decidable (Supervised page) := by
  unfold Supervised
  infer_instance

/-- An entry that can be written: its mask is that of a size, `VPN2` does not have the highest bit
under the mask, and no page is unmapped by the TLB or outside of the tables. -/
structure Fits (e : TLB_Entry) : Prop where
  mask : e.page_mask ∈ page_masks
  aligned : 2 * (e.vpn2 % pages e) ≤ e.page_mask
  inside : ∀ page, Covers e page → page < vtlb_pages ∧ ¬ Unmapped page

/-- Any two entries are for different pages. -/
def Apart (tlb : ℕ → TLB_Entry) : Prop :=
  ∀ i < tlb_entries, ∀ j < tlb_entries, i ≠ j → ∀ page, Covers (tlb i) page →
    ¬ Covers (tlb j) page

/-! ### Loops over the tables -/

theorem storePages_eq {page n : ℕ} {f : ℕ → Page → Page} (t : ℕ → Page)
    (h : page + n ≤ vtlb_pages) :
    storePages page n f t = some fun p =>
      if page ≤ p ∧ p < page + n then f (p - page) (t p) else t p := by
  unfold storePages
  induction n with
  | zero =>
    have hnone : ∀ p, ¬ (page ≤ p ∧ p < page + 0) := by omega
    simp only [List.range_zero, List.foldlM_nil, if_neg (hnone _)]
    rfl
  | succ n ih =>
    rw [List.range_succ, List.foldlM_append, ih (by omega)]
    simp only [List.foldlM_cons, List.foldlM_nil, Option.bind_eq_bind, Option.bind_some, store,
      if_pos (show page + n < vtlb_pages by omega), Option.pure_def, Option.some.injEq]
    funext p
    rcases eq_or_ne p (page + n) with rfl | hp
    · rw [Function.update_self, if_neg (by omega), if_pos (by omega), Nat.add_sub_cancel_left]
    · rw [Function.update_of_ne hp]
      have hiff : (page ≤ p ∧ p < page + n) ↔ (page ≤ p ∧ p < page + (n + 1)) := by omega
      simp only [hiff]

theorem storePages_none {page n : ℕ} {f : ℕ → Page → Page} (t : ℕ → Page)
    (h : vtlb_pages < page + n) (hn : 0 < n) : storePages page n f t = none := by
  unfold storePages
  induction n with
  | zero => omega
  | succ n ih =>
    rw [List.range_succ, List.foldlM_append]
    rcases Nat.lt_or_ge vtlb_pages (page + n) with hlt | hge
    · rcases Nat.eq_zero_or_pos n with rfl | hpos
      · simp only [List.range_zero, List.foldlM_nil, List.foldlM_cons, Option.bind_eq_bind,
          Option.pure_def, Option.bind_some, store, if_neg (show ¬ page + 0 < vtlb_pages by omega),
          Option.bind_none]
      · rw [ih hlt hpos]
        rfl
    · obtain ⟨t', ht⟩ : ∃ t', storePages page n f t = some t' := ⟨_, storePages_eq t hge⟩
      unfold storePages at ht
      rw [ht]
      simp only [List.foldlM_nil, List.foldlM_cons, Option.bind_eq_bind, Option.bind_some, store,
        if_neg (show ¬ page + n < vtlb_pages by omega), Option.bind_none]

theorem eachPage_eq {page n : ℕ} {f : ℕ → Page → Page} (t : ℕ → Page)
    (h : page + n ≤ vtlb_pages) :
    eachPage page (4096 * n) f t = some fun p =>
      if page ≤ p ∧ p < page + n then f (4096 * (p - page)) (t p) else t p := by
  unfold eachPage
  rw [show (4096 * n + 4095) / 4096 = n by omega]
  exact storePages_eq t h

/-! ### The arithmetic of an entry -/

/-- What `set_tlb` makes of the registers. -/
structure Decoded (e : TLB_Entry) : Prop where
  size : e.page_size = 4096 * pages e
  shift : 2 ^ e.page_shift = pages e
  vpn2 : e.vpn2 < 2 ^ 19
  pfn : ∀ page, (half e page).pfn < 2 ^ 20

theorem entry_lo_pfn (reg : BitVec 32) : (entry_lo reg).pfn < 2 ^ 20 :=
  Nat.mod_lt _ (by norm_num)

theorem page_sizing_eq {page_mask : ℕ} (h : page_mask ∈ page_masks) :
    (page_sizing page_mask).1 = 4096 * (page_mask + 1) ∧
      2 ^ (page_sizing page_mask).2 = page_mask + 1 := by
  simp only [page_masks, List.mem_cons, List.not_mem_nil, or_false] at h
  rcases h with rfl | rfl | rfl | rfl | rfl | rfl | rfl <;> exact ⟨by decide, by decide⟩

theorem new_entry_decoded {gpr : ℕ → BitVec 32} (h : (new_entry gpr).page_mask ∈ page_masks) :
    Decoded (new_entry gpr) where
  size := (page_sizing_eq h).1
  shift := (page_sizing_eq h).2
  vpn2 := by
    have := (gpr 10).isLt
    simp only [new_entry, BitVec.toNat_ushiftRight, Nat.shiftRight_eq_div_pow]
    omega
  pfn := by
    intro page
    unfold half
    split_ifs
    · exact entry_lo_pfn _
    · exact entry_lo_pfn _

section
variable {e : TLB_Entry}

/-- Statements about the seven sizes, one by one. -/
theorem pages_cases (h : e.page_mask ∈ page_masks) :
    pages e = 1 ∨ pages e = 4 ∨ pages e = 16 ∨ pages e = 64 ∨ pages e = 256 ∨ pages e = 1024 ∨
      pages e = 4096 := by
  simp only [page_masks, List.mem_cons, List.not_mem_nil, or_false] at h
  unfold pages
  omega

theorem real_vpn_eq (hf : Fits e) (hd : Decoded e) : real_vpn e = 2 * (e.vpn2 / pages e) := by
  have hv := hd.vpn2
  have ha := hf.aligned
  have hm : e.page_mask + 1 = pages e := rfl
  unfold real_vpn u32
  rw [hd.shift, Nat.mod_eq_of_lt (by omega)]
  rcases pages_cases hf.mask with h | h | h | h | h | h | h <;> rw [h] at ha hm ⊢ <;> omega

theorem even_page_eq (hf : Fits e) (hd : Decoded e) : even_page e = first e := by
  have hv := hd.vpn2
  unfold even_page first u32
  rw [real_vpn_eq hf hd, hd.size]
  rcases pages_cases hf.mask with h | h | h | h | h | h | h <;> rw [h] <;> omega

theorem odd_page_eq (hf : Fits e) (hd : Decoded e) : odd_page e = first e + pages e := by
  have hv := hd.vpn2
  unfold odd_page first u32
  rw [real_vpn_eq hf hd, hd.size]
  rcases pages_cases hf.mask with h | h | h | h | h | h | h <;> rw [h] <;> omega

theorem first_inside (hf : Fits e) (hd : Decoded e) : first e + 2 * pages e ≤ vtlb_pages := by
  have hv := hd.vpn2
  unfold first vtlb_pages
  rcases pages_cases hf.mask with h | h | h | h | h | h | h <;> rw [h] <;> omega

theorem matches_iff (hm : e.page_mask ∈ page_masks) {page : ℕ} :
    Matches e page ↔ first e ≤ page ∧ page < first e + 2 * pages e := by
  unfold Matches first
  rcases pages_cases hm with h | h | h | h | h | h | h <;> rw [h] <;> omega

theorem half_iff (hmask : e.page_mask ∈ page_masks) {page : ℕ} (hm : Matches e page) :
    page / pages e % 2 = 0 ↔ page < first e + pages e := by
  unfold Matches at hm
  unfold first
  rcases pages_cases hmask with h | h | h | h | h | h | h <;> rw [h] at hm ⊢ <;> omega

theorem covers_scratchpad (hs : e.is_scratchpad = true) {page : ℕ} :
    Covers e page ↔ e.even.valid = true ∧ first e ≤ page ∧ page < first e + 4 := by
  unfold Covers
  rw [if_pos hs]

theorem covers_halves (hmask : e.page_mask ∈ page_masks) (hs : ¬ e.is_scratchpad = true) {page : ℕ} :
    Covers e page ↔ (e.even.valid = true ∧ first e ≤ page ∧ page < first e + pages e) ∨
      (e.odd.valid = true ∧ first e + pages e ≤ page ∧
        page < first e + pages e + pages e) := by
  unfold Covers half
  rw [if_neg hs]
  constructor
  · rintro ⟨hm, hv⟩
    have hr := (matches_iff hmask).mp hm
    split_ifs at hv with hp
    · exact Or.inl ⟨hv, hr.1, (half_iff hmask hm).mp hp⟩
    · have hp' := (half_iff hmask hm).not.mp hp
      exact Or.inr ⟨hv, by omega, by omega⟩
  · rintro (⟨hv, h1, h2⟩ | ⟨hv, h1, h2⟩)
    · have hm : Matches e page := (matches_iff hmask).mpr ⟨h1, by omega⟩
      exact ⟨hm, by rwa [if_pos ((half_iff hmask hm).mpr h2)]⟩
    · have hm : Matches e page := (matches_iff hmask).mpr ⟨by omega, by omega⟩
      have hp : ¬ page < first e + pages e := by omega
      exact ⟨hm, by rwa [if_neg ((half_iff hmask hm).not.mpr hp)]⟩

theorem invalid (h : ¬ Live e) :
    ¬ e.even.valid = true ∧ (¬ e.is_scratchpad = true → ¬ e.odd.valid = true) := by
  unfold Live at h
  push Not at h
  exact ⟨h.1, fun hs => h.2 (Bool.eq_false_of_not_eq_true hs)⟩

theorem not_covers (h : ¬ Live e) (page : ℕ) : ¬ Covers e page := by
  obtain ⟨he, ho⟩ := invalid h
  unfold Covers half
  split_ifs with hs hp
  · exact fun hc => he hc.1
  · exact fun hc => he hc.2
  · exact fun hc => ho hs hc.2

/-! ### What the loops do to a page -/

theorem whenValid_eq {lo : EntryLo} {page n : ℕ} {f : ℕ → Page → Page} (t : ℕ → Page)
    (h : lo.valid = true → page + n ≤ vtlb_pages) :
    whenValid lo (eachPage page (4096 * n) f) t = some fun p =>
      if lo.valid = true ∧ page ≤ p ∧ p < page + n then f (4096 * (p - page)) (t p) else t p := by
  unfold whenValid
  split_ifs with hv
  · rw [eachPage_eq t (h hv)]
    simp only [hv, true_and]
  · simp only [hv, false_and, if_false, Bool.false_eq_true]

theorem scratchpad_inside (hf : Fits e) (hs : e.is_scratchpad = true)
    (hv : e.even.valid = true) : first e + 4 ≤ vtlb_pages := by
  have h := (hf.inside (first e + 3) ((covers_scratchpad hs).mpr ⟨hv, by omega, by omega⟩)).1
  omega

/-- What a page holds once the entry has been mapped. -/
def mapped (e : TLB_Entry) (page : ℕ) (x : Page) : Page where
  kernel_vtlb := translation e page
  sup_vtlb := if e.is_scratchpad ∨ Supervised page then translation e page else x.sup_vtlb
  user_vtlb := if e.is_scratchpad ∨ page < 0x80000 then translation e page else x.user_vtlb
  vtlb_info :=
    { x.vtlb_info with
      cache_mode := if e.is_scratchpad then CACHE_MODE.SPR.value else (half e page).cache_mode }

/-- A half lies within one segment. -/
theorem segment_iff (hf : Fits e) {virt page : ℕ} (hvirt : virt % pages e = 0)
    (h1 : virt ≤ page) (h2 : page < virt + pages e) :
    (virt * 4096 < 0x80000000 ↔ page < 0x80000) ∧
      (virt * 4096 < 0x80000000 ∨ (0xC0000000 ≤ virt * 4096 ∧ virt * 4096 < 0xE0000000) ↔
        Supervised page) := by
  unfold Supervised
  rcases pages_cases hf.mask with h | h | h | h | h | h | h <;> rw [h] at hvirt h2 <;> omega

theorem phy_addr_eq (hf : Fits e) (hd : Decoded e) {virt page : ℕ} (hvirt : virt % pages e = 0)
    (h1 : virt ≤ page) (h2 : page < virt + pages e) :
    u32 (phy_addr e (half e page) + 4096 * (page - virt)) =
      4096 * ((half e page).pfn / pages e * pages e + page % pages e) := by
  have hp := hd.pfn page
  unfold phy_addr u32
  rw [hd.shift, hd.size]
  rcases pages_cases hf.mask with h | h | h | h | h | h | h <;> rw [h] at hvirt h2 ⊢ <;> omega

theorem map_page_eq (hf : Fits e) (hd : Decoded e) (hs : ¬ e.is_scratchpad = true)
    {virt page : ℕ} (hvirt : virt % pages e = 0) (h1 : virt ≤ page)
    (h2 : page < virt + pages e) (x : Page) :
    map_page (half e page) (virt * 4096) (phy_addr e (half e page)) (4096 * (page - virt)) x =
      mapped e page x := by
  obtain ⟨huser, hsup⟩ := segment_iff hf hvirt h1 h2
  unfold map_page mapped translation
  simp only [phy_addr_eq hf hd hvirt h1 h2, hsup, hs, if_false, false_or, Bool.false_eq_true]
  simp only [huser]

/-- The pages of the two halves, one after the other. -/
theorem halves_apart {f g f' : Page → Page} {ev od : Bool} {a n p : ℕ} {x : Page}
    (hf : a ≤ p → p < a + n → f x = f' x) (hg : a + n ≤ p → p < a + n + n → g x = f' x) :
    (if od = true ∧ a + n ≤ p ∧ p < a + n + n then
        g (if ev = true ∧ a ≤ p ∧ p < a + n then f x else x)
      else if ev = true ∧ a ≤ p ∧ p < a + n then f x else x) =
    if (ev = true ∧ a ≤ p ∧ p < a + n) ∨ (od = true ∧ a + n ≤ p ∧ p < a + n + n) then f' x
    else x := by
  by_cases ho : od = true ∧ a + n ≤ p ∧ p < a + n + n
  · have he : ¬ (ev = true ∧ a ≤ p ∧ p < a + n) := by omega
    rw [if_pos ho, if_neg he, if_pos (Or.inr ho), hg ho.2.1 ho.2.2]
  · rw [if_neg ho]
    by_cases he : ev = true ∧ a ≤ p ∧ p < a + n
    · rw [if_pos he, if_pos (Or.inl he), hf he.2.1 he.2.2]
    · rw [if_neg he, if_neg (not_or.mpr ⟨he, ho⟩)]

theorem unmap_tlb_eq (h : Live e → Fits e ∧ Decoded e) (t : ℕ → Page) :
    unmap_tlb e t = some fun p => if Covers e p then unmap_page (t p) else t p := by
  by_cases hl : Live e
  · obtain ⟨hf, hd⟩ := h hl
    have hin := first_inside hf hd
    unfold unmap_tlb
    rw [even_page_eq hf hd, odd_page_eq hf hd, hd.size]
    split_ifs with hs
    · rw [show 1024 * 16 = 4096 * 4 by norm_num, whenValid_eq t (scratchpad_inside hf hs)]
      simp only [covers_scratchpad hs]
    · rw [whenValid_eq t fun _ => by omega]
      simp only [Option.bind_eq_bind, Option.bind_some]
      rw [whenValid_eq _ fun _ => by omega, Option.some.injEq]
      funext p
      simp only [covers_halves hf.mask hs]
      exact halves_apart (fun _ _ => rfl) fun _ _ => rfl
  · simp only [if_neg (not_covers hl _)]
    obtain ⟨he, ho⟩ := invalid hl
    unfold unmap_tlb whenValid
    by_cases hs : e.is_scratchpad = true
    · rw [if_pos hs, if_neg he]
    · rw [if_neg hs, if_neg he, Option.bind_eq_bind, Option.bind_some, if_neg (ho hs)]

theorem first_mod : first e % pages e = 0 := by
  unfold first
  rw [mul_comm 2, ← mul_assoc, mul_right_comm]
  exact Nat.mul_mod_left _ _

/-- The two halves of an entry with `n` pages each, mapped at a page. -/
def map_halves (e : TLB_Entry) (n p : ℕ) (x : Page) : Page :=
  let x := if e.even.valid = true ∧ even_page e ≤ p ∧ p < even_page e + n then
      map_page e.even (even_page e * 4096) (phy_addr e e.even) (4096 * (p - even_page e)) x
    else x
  if e.odd.valid = true ∧ odd_page e ≤ p ∧ p < odd_page e + n then
    map_page e.odd (odd_page e * 4096) (phy_addr e e.odd) (4096 * (p - odd_page e)) x
  else x

theorem map_tlb_halves (hs : ¬ e.is_scratchpad = true) {n : ℕ} (hsize : e.page_size = 4096 * n)
    (he : even_page e + n ≤ vtlb_pages) (ho : odd_page e + n ≤ vtlb_pages) (t : ℕ → Page) :
    map_tlb e t = some fun p => map_halves e n p (t p) := by
  unfold map_tlb map_half
  rw [if_neg hs, hsize, whenValid_eq t fun _ => he]
  simp only [Option.bind_eq_bind, Option.bind_some]
  rw [whenValid_eq _ fun _ => ho]
  rfl

theorem map_tlb_scratchpad (hs : e.is_scratchpad = true)
    (h : e.even.valid = true → even_page e + 4 ≤ vtlb_pages) (t : ℕ → Page) :
    map_tlb e t = some fun p =>
      if e.even.valid = true ∧ even_page e ≤ p ∧ p < even_page e + 4 then
        map_scratchpad (4096 * (p - even_page e)) (t p)
      else t p := by
  unfold map_tlb
  rw [if_pos hs, show 1024 * 16 = 4096 * 4 by norm_num, whenValid_eq t h]

theorem map_tlb_eq (h : Live e → Fits e ∧ Decoded e) (t : ℕ → Page) :
    map_tlb e t = some fun p => if Covers e p then mapped e p (t p) else t p := by
  by_cases hl : Live e
  · obtain ⟨hf, hd⟩ := h hl
    have hin := first_inside hf hd
    have heven := even_page_eq hf hd
    have hodd := odd_page_eq hf hd
    by_cases hs : e.is_scratchpad = true
    · rw [map_tlb_scratchpad hs (by rw [heven]; exact scratchpad_inside hf hs), heven]
      simp only [covers_scratchpad hs, mapped, translation, map_scratchpad, hs, if_true, true_or]
    · rw [map_tlb_halves hs hd.size (by omega) (by omega), Option.some.injEq]
      funext p
      unfold map_halves
      rw [heven, hodd]
      simp only [covers_halves hf.mask hs]
      refine halves_apart (fun h1 h2 => ?_) fun h1 h2 => ?_
      · have hm : Matches e p := (matches_iff hf.mask).mpr ⟨h1, by omega⟩
        have hh : half e p = e.even := if_pos ((half_iff hf.mask hm).mpr h2)
        rw [← hh]
        exact map_page_eq hf hd hs first_mod h1 h2 _
      · have hm : Matches e p := (matches_iff hf.mask).mpr ⟨by omega, by omega⟩
        have hh : half e p = e.odd := if_neg ((half_iff hf.mask hm).not.mpr (by omega))
        rw [← hh]
        exact map_page_eq hf hd hs (by rw [Nat.add_mod_right]; exact first_mod) h1 h2 _
  · simp only [if_neg (not_covers hl _)]
    obtain ⟨he, ho⟩ := invalid hl
    unfold map_tlb map_half whenValid
    by_cases hs : e.is_scratchpad = true
    · rw [if_pos hs, if_neg he]
    · rw [if_neg hs, if_neg he, Option.bind_eq_bind, Option.bind_some, if_neg (ho hs)]

end

/-! ### The invariant -/

/-- The tables give a page the translation of `e`, in the modes that may use it. -/
structure Holds (e : TLB_Entry) (page : ℕ) (x : Page) : Prop where
  kernel : x.kernel_vtlb = translation e page
  sup : x.sup_vtlb = if e.is_scratchpad ∨ Supervised page then translation e page else .null
  user : x.user_vtlb = if e.is_scratchpad ∨ page < 0x80000 then translation e page else .null

/-- No entry is for the page. -/
structure Absent (page : ℕ) (x : Page) : Prop where
  kernel : x.kernel_vtlb =
    if Unmapped page then get_mem_pointer (4096 * page % 0x20000000) else .null
  sup : x.sup_vtlb = .null
  user : x.user_vtlb = .null

structure Agrees (c : Cop0) : Prop where
  covered : ∀ page, ∀ i < tlb_entries, Covers (c.tlb i) page → Holds (c.tlb i) page (c.vtlb page)
  absent : ∀ page, (∀ i < tlb_entries, ¬ Covers (c.tlb i) page) → Absent page (c.vtlb page)

/-- A write that may be made of the entries of `c`. -/
structure Allowed (c : Cop0) (gpr : ℕ → BitVec 32) : Prop where
  index : (gpr 0).toNat < tlb_entries
  fits : Live (new_entry gpr) → Fits (new_entry gpr)
  apart : Apart (Function.update c.tlb (gpr 0).toNat (new_entry gpr))

structure Invariant (c : Cop0) : Prop where
  fits : ∀ i < tlb_entries, Live (c.tlb i) → Fits (c.tlb i) ∧ Decoded (c.tlb i)
  apart : Apart c.tlb
  agrees : Agrees c

theorem zero_not_covers (page : ℕ) : ¬ Covers .zero page :=
  not_covers (by simp [Live, TLB_Entry.zero, EntryLo.zero]) page

theorem init_tlb_eq : init_tlb = some fun p =>
    if unmapped_start / 4096 ≤ p ∧ p < unmapped_start / 4096 + 0x40000 then
      init_page (unmapped_start + 4096 * (p - unmapped_start / 4096)) blank
    else blank := by
  have hlen : unmapped_end - unmapped_start = 4096 * 0x40000 := by decide
  unfold init_tlb
  rw [hlen]
  exact eachPage_eq _ (by decide)

theorem init_vtlb {c : Cop0} (h : Init c) (page : ℕ) :
    c.vtlb page = if Unmapped page then init_page (4096 * page) blank else blank := by
  have hvtlb := h.2
  rw [init_tlb_eq, Option.some.injEq] at hvtlb
  rw [← hvtlb]
  have hiff : (unmapped_start / 4096 ≤ page ∧ page < unmapped_start / 4096 + 0x40000) ↔
      Unmapped page := by
    unfold Unmapped unmapped_start unmapped_end
    omega
  simp only [hiff]
  split_ifs with hp
  · unfold Unmapped unmapped_start at hp
    rw [show unmapped_start + 4096 * (page - unmapped_start / 4096) = 4096 * page by
      unfold unmapped_start; omega]
  · rfl

theorem init_invariant {c : Cop0} (h : Init c) : Invariant c := by
  have htlb := h.1
  refine ⟨fun i _ hl => ?_, fun i _ j _ _ page hc => ?_, fun page i _ hc => ?_, fun page _ => ?_⟩
  · rw [htlb] at hl
    exact absurd hl (by simp [Live, TLB_Entry.zero, EntryLo.zero])
  · rw [htlb] at hc
    exact absurd hc (zero_not_covers page)
  · rw [htlb] at hc
    exact absurd hc (zero_not_covers page)
  · rw [init_vtlb h]
    split_ifs with hp
    · exact ⟨by rw [if_pos hp]; rfl, rfl, rfl⟩
    · exact ⟨by rw [if_neg hp]; rfl, rfl, rfl⟩

section
variable {c : Cop0} {gpr : ℕ → BitVec 32}

/-- What a write leaves in the tables. -/
theorem tlbwi_eq (hi : Invariant c) (ha : Allowed c gpr) :
    tlbwi gpr c = some ⟨Function.update c.tlb (gpr 0).toNat (new_entry gpr), fun p =>
      let x := if Covers (c.tlb (gpr 0).toNat) p then unmap_page (c.vtlb p) else c.vtlb p
      if Covers (new_entry gpr) p then mapped (new_entry gpr) p x else x⟩ := by
  have hnew : Live (new_entry gpr) → Fits (new_entry gpr) ∧ Decoded (new_entry gpr) := fun hl =>
    ⟨ha.fits hl, new_entry_decoded (ha.fits hl).mask⟩
  unfold tlbwi set_tlb
  rw [if_pos ha.index, unmap_tlb_eq (hi.fits _ ha.index)]
  simp only [Option.bind_eq_bind, Option.bind_some]
  rw [map_tlb_eq hnew]
  rfl

theorem tlbwi_tables {c' : Cop0} (hi : Invariant c) (ha : Allowed c gpr)
    (hw : tlbwi gpr c = some c') :
    c'.tlb = Function.update c.tlb (gpr 0).toNat (new_entry gpr) ∧
    ∀ p, c'.vtlb p =
      if Covers (new_entry gpr) p then
        mapped (new_entry gpr) p
          (if Covers (c.tlb (gpr 0).toNat) p then unmap_page (c.vtlb p) else c.vtlb p)
      else if Covers (c.tlb (gpr 0).toNat) p then unmap_page (c.vtlb p) else c.vtlb p := by
  rw [tlbwi_eq hi ha, Option.some.injEq] at hw
  subst hw
  exact ⟨rfl, fun _ => rfl⟩

/-- A page of which the entries other than `i` say nothing, once entry `i` has been unmapped. -/
theorem absent_unmapped (hi : Invariant c) {i page : ℕ} (hlt : i < tlb_entries)
    (hothers : ∀ j < tlb_entries, j ≠ i → ¬ Covers (c.tlb j) page) :
    Absent page (if Covers (c.tlb i) page then unmap_page (c.vtlb page) else c.vtlb page) := by
  split_ifs with hc
  · have hl : Live (c.tlb i) := by
      by_contra hl
      exact not_covers hl page hc
    have hseg := ((hi.fits i hlt hl).1.inside page hc).2
    exact ⟨by rw [if_neg hseg]; rfl, rfl, rfl⟩
  · refine hi.agrees.absent page fun j hj hcj => ?_
    rcases eq_or_ne j i with rfl | hne
    · exact hc hcj
    · exact hothers j hj hne hcj

theorem mapped_holds {e : TLB_Entry} {page : ℕ} {x : Page} (h : Absent page x) :
    Holds e page (mapped e page x) where
  kernel := rfl
  sup := by
    unfold mapped
    rw [h.sup]
  user := by
    unfold mapped
    rw [h.user]

/-- **A write keeps the invariant.** -/
theorem tlbwi_invariant {c' : Cop0} (hi : Invariant c) (ha : Allowed c gpr)
    (hw : tlbwi gpr c = some c') : Invariant c' := by
  obtain ⟨htlb, hvtlb⟩ := tlbwi_tables hi ha hw
  have hlt := ha.index
  have hapart := ha.apart
  refine ⟨fun j hj hl => ?_, by rwa [htlb], fun page j hj hc => ?_, fun page hnone => ?_⟩
  · rw [htlb] at hl ⊢
    rcases eq_or_ne j (gpr 0).toNat with rfl | hne
    · rw [Function.update_self] at hl ⊢
      exact ⟨ha.fits hl, new_entry_decoded (ha.fits hl).mask⟩
    · rw [Function.update_of_ne hne] at hl ⊢
      exact hi.fits j hj hl
  · rw [htlb] at hc ⊢
    rw [hvtlb]
    rcases eq_or_ne j (gpr 0).toNat with rfl | hne
    · rw [Function.update_self] at hc ⊢
      rw [if_pos hc]
      refine mapped_holds (absent_unmapped hi hlt fun k hk hne hck => ?_)
      refine hapart k hk _ hlt hne page ?_ ?_
      · rwa [Function.update_of_ne hne]
      · rwa [Function.update_self]
    · rw [Function.update_of_ne hne] at hc ⊢
      have hnew : ¬ Covers (new_entry gpr) page := by
        have h := hapart j hj _ hlt hne page (by rwa [Function.update_of_ne hne])
        rwa [Function.update_self] at h
      have hold := hi.apart j hj _ hlt hne page hc
      rw [if_neg hnew, if_neg hold]
      exact hi.agrees.covered page j hj hc
  · rw [htlb] at hnone
    have hnew : ¬ Covers (new_entry gpr) page := by
      have h := hnone _ hlt
      rwa [Function.update_self] at h
    rw [hvtlb, if_neg hnew]
    refine absent_unmapped hi hlt fun j hj hne => ?_
    have h := hnone j hj
    rwa [Function.update_of_ne hne] at h

end

/-! ### Runs -/

/-- A run of writes of entries that fit and stay apart. -/
def Written (c : Cop0) : Prop :=
  Reaches Init (Only Allowed fun c gpr c' => tlbwi gpr c = some c') c

theorem Written.invariant {c : Cop0} (h : Written c) : Invariant c :=
  Reaches.invariant (I := Invariant) (fun _ => init_invariant)
    (fun _ _ _ hi hs => tlbwi_invariant hi hs.1 hs.2) h

/-- **The tables agree with the TLB after every run of writes, and no write leaves the tables.** -/
theorem vtlb_agrees {c : Cop0} (h : Written c) :
    Agrees c ∧ (∀ page, Unmapped page →
      (c.vtlb page).kernel_vtlb = get_mem_pointer (4096 * page % 0x20000000)) ∧
    ∀ gpr, Allowed c gpr → ∃ c', tlbwi gpr c = some c' := by
  have hi := h.invariant
  refine ⟨hi.agrees, fun page hp => ?_, fun gpr ha => ⟨_, tlbwi_eq hi ha⟩⟩
  have habsent : Absent page (c.vtlb page) := by
    refine hi.agrees.absent page fun i hlt hc => ?_
    have hl : Live (c.tlb i) := by
      by_contra hl
      exact not_covers hl page hc
    exact ((hi.fits i hlt hl).1.inside page hc).2 hp
  rw [habsent.kernel, if_pos hp]

/-! ### Single writes -/

theorem init_exists : ∃ c, Init c := ⟨⟨_, _⟩, rfl, init_tlb_eq⟩

/-- The registers of a write to entry 0. -/
def registers (entry_lo0 entry_lo1 page_mask entry_hi : BitVec 32) (r : ℕ) : BitVec 32 :=
  if r = 2 then entry_lo0 else if r = 3 then entry_lo1 else if r = 5 then page_mask
  else if r = 10 then entry_hi else 0

theorem tlbwi_init {c : Cop0} (h : Init c) (lo0 lo1 mask hi : BitVec 32) :
    tlbwi (registers lo0 lo1 mask hi) c =
      (map_tlb (new_entry (registers lo0 lo1 mask hi)) c.vtlb).map fun t =>
        ⟨Function.update c.tlb 0 (new_entry (registers lo0 lo1 mask hi)), t⟩ := by
  have hz : (registers lo0 lo1 mask hi 0).toNat = 0 := rfl
  unfold tlbwi set_tlb
  rw [hz, if_pos (by decide), h.1, unmap_tlb_eq fun hl =>
    absurd hl (by simp [Live, TLB_Entry.zero, EntryLo.zero])]
  simp only [Option.bind_eq_bind, Option.bind_some, if_neg (zero_not_covers _)]
  cases map_tlb (new_entry (registers lo0 lo1 mask hi)) c.vtlb <;> rfl

/-- That the tables have the translation of whatever valid entry matches the page under its mask,
in all modes, and otherwise none; a page of kseg0 or kseg1 has its own. -/
def Translated (c : Cop0) (page : ℕ) : Prop :=
  if Unmapped page then (c.vtlb page).kernel_vtlb = get_mem_pointer (4096 * page % 0x20000000)
  else (∀ i < tlb_entries, Matches (c.tlb i) page → (half (c.tlb i) page).valid →
      (c.vtlb page).kernel_vtlb = translation (c.tlb i) page ∧
      (c.vtlb page).sup_vtlb = translation (c.tlb i) page ∧
      (c.vtlb page).user_vtlb = translation (c.tlb i) page) ∧
    ((∀ i < tlb_entries, Matches (c.tlb i) page → ¬ (half (c.tlb i) page).valid) →
      (c.vtlb page).kernel_vtlb = .null ∧ (c.vtlb page).sup_vtlb = .null ∧
      (c.vtlb page).user_vtlb = .null)

/-- From the start, the write (the only entry) leaves the page without its translation. -/
def Strays (gpr : ℕ → BitVec 32) (page : ℕ) : Prop :=
  ∀ c₀, Init c₀ → ∃ c, tlbwi gpr c₀ = some c ∧ (∀ i, i ≠ 0 → c.tlb i = .zero) ∧
    ¬ Translated c page

section
variable {lo0 lo1 mask hi : BitVec 32} {page : ℕ}

/-- A write that maps a page as `f` does, and what then holds of the page. -/
theorem strays_of_map {f : Page → Page}
    (hmap : ∀ t, ∃ t', map_tlb (new_entry (registers lo0 lo1 mask hi)) t = some t' ∧
      t' page = f (t page))
    (hpage : ∀ c, c.tlb 0 = new_entry (registers lo0 lo1 mask hi) →
      (∀ i, i ≠ 0 → c.tlb i = .zero) →
      c.vtlb page = f (if Unmapped page then init_page (4096 * page) blank else blank) →
      ¬ Translated c page) : Strays (registers lo0 lo1 mask hi) page := by
  intro c₀ h₀
  obtain ⟨t', ht, htp⟩ := hmap c₀.vtlb
  have hself : Function.update c₀.tlb 0 (new_entry (registers lo0 lo1 mask hi)) 0 =
      new_entry (registers lo0 lo1 mask hi) := Function.update_self ..
  have hz : ∀ i, i ≠ 0 → Function.update c₀.tlb 0 (new_entry (registers lo0 lo1 mask hi)) i =
      .zero := by
    intro i hi
    rw [Function.update_of_ne hi, h₀.1]
  refine ⟨⟨Function.update c₀.tlb 0 (new_entry (registers lo0 lo1 mask hi)), t'⟩, ?_, hz, ?_⟩
  · rw [tlbwi_init h₀, ht]
    rfl
  · refine hpage _ hself hz ?_
    rw [← init_vtlb h₀]
    exact htp

/-- What the tables hold of a matching page, in the mode `view`, is not its translation. -/
theorem strays_of_match {f : Page → Page} {view : Page → Pointer}
    (hmap : ∀ t, ∃ t', map_tlb (new_entry (registers lo0 lo1 mask hi)) t = some t' ∧
      t' page = f (t page))
    (hview : view = Page.kernel_vtlb ∨ view = Page.user_vtlb) (hseg : ¬ Unmapped page)
    (hm : Matches (new_entry (registers lo0 lo1 mask hi)) page)
    (hv : (half (new_entry (registers lo0 lo1 mask hi)) page).valid)
    (hne : view (f blank) ≠ translation (new_entry (registers lo0 lo1 mask hi)) page) :
    Strays (registers lo0 lo1 mask hi) page := by
  refine strays_of_map hmap fun c h0 _ hp ht => ?_
  rw [Translated, if_neg hseg] at ht
  have h := ht.1 0 (by decide) (by rwa [h0]) (by rwa [h0])
  rw [hp, if_neg hseg, h0] at h
  rcases hview with rfl | rfl
  · exact hne h.1
  · exact hne h.2.2

theorem map_halves_at {n : ℕ}
    (hs : ¬ (new_entry (registers lo0 lo1 mask hi)).is_scratchpad = true)
    (hsize : (new_entry (registers lo0 lo1 mask hi)).page_size = 4096 * n)
    (he : even_page (new_entry (registers lo0 lo1 mask hi)) + n ≤ vtlb_pages)
    (ho : odd_page (new_entry (registers lo0 lo1 mask hi)) + n ≤ vtlb_pages) (page : ℕ)
    (t : ℕ → Page) :
    ∃ t', map_tlb (new_entry (registers lo0 lo1 mask hi)) t = some t' ∧
      t' page = map_halves (new_entry (registers lo0 lo1 mask hi)) n page (t page) :=
  ⟨_, map_tlb_halves hs hsize he ho t, rfl⟩

end

theorem strays_supervised : Strays (registers 0x00001007 0 0 0xC0000000) 0xC0000 :=
  strays_of_match (map_halves_at (n := 1) (by decide) (by decide) (by decide) (by decide) _)
    (Or.inr rfl) (by decide) (by unfold Matches; decide) (by decide) (by decide)

theorem strays_masked : Strays (registers 0x00001007 0x00001107 0x00006000 0x00004000) 0 :=
  strays_of_match (map_halves_at (n := 4) (by decide) (by decide) (by decide) (by decide) _)
    (Or.inl rfl) (by decide) (by unfold Matches; decide) (by decide) (by decide)

theorem strays_unsized : Strays (registers 0x00001007 0x00001107 0x00002000 0) 0 :=
  strays_of_match (map_halves_at (n := 0) (by decide) (by decide) (by decide) (by decide) _)
    (Or.inl rfl) (by decide) (by unfold Matches; decide) (by decide) (by decide)

theorem strays_unmapped : Strays (registers 0x00001007 0 0 0x80000000) 0x80000 := by
  refine strays_of_map
    (map_halves_at (n := 1) (by decide) (by decide) (by decide) (by decide) _)
    fun c _ _ hp ht => ?_
  rw [Translated, if_pos (by decide), hp] at ht
  exact absurd ht (by decide)

theorem strays_scratchpad : Strays (registers 0x80000007 7 0 0x70000000) 0x70002 := by
  refine strays_of_map (f := map_scratchpad 8192)
    (fun t => ⟨_, map_tlb_scratchpad (by decide) (by decide) t, if_pos (by decide)⟩)
    fun c h0 hz hp ht => ?_
  rw [Translated, if_neg (by decide)] at ht
  have hnone := ht.2 fun i _ hm hv => by
    rcases eq_or_ne i 0 with rfl | hi
    · rw [h0] at hm
      exact absurd hm (by unfold Matches; decide)
    · rw [hz i hi] at hv
      unfold half at hv
      split_ifs at hv <;> exact absurd hv (by decide)
  have hk := hnone.1
  rw [hp] at hk
  exact absurd hk (by decide)

theorem scratchpad_outside {c : Cop0} (h : Init c) :
    tlbwi (registers 0x80000007 7 0 0xFFFFE000) c = none := by
  have hs : (new_entry (registers 0x80000007 7 0 0xFFFFE000)).is_scratchpad = true := by decide
  have hv : (new_entry (registers 0x80000007 7 0 0xFFFFE000)).even.valid = true := by decide
  rw [tlbwi_init h]
  unfold map_tlb whenValid eachPage
  rw [if_pos hs, if_pos hv, storePages_none _ (by decide) (by decide)]
  rfl

/-- 16 KB pages at address 0, of which both are valid. -/
def largePages : ℕ → BitVec 32 := registers 0x00001007 0x00001107 0x00006000 0

theorem largePages_allowed {c : Cop0} (h : Init c) : Allowed c largePages where
  index := by decide
  fits := by
    intro _
    have hmask : (new_entry largePages).page_mask ∈ page_masks := by decide
    have hs : ¬ (new_entry largePages).is_scratchpad = true := by decide
    refine ⟨hmask, by decide, fun page hc => ?_⟩
    rw [covers_halves hmask hs] at hc
    have hfirst : first (new_entry largePages) = 0 := by decide
    have hpages : pages (new_entry largePages) = 4 := by decide
    unfold Unmapped unmapped_start vtlb_pages
    omega
  apart := by
    have hz : (largePages 0).toNat = 0 := by decide
    intro i _ j _ hne page hi hj
    rw [hz, h.1] at hi hj
    rcases eq_or_ne i 0 with rfl | h0
    · rw [Function.update_of_ne hne.symm] at hj
      exact zero_not_covers page hj
    · rw [Function.update_of_ne h0] at hi
      exact zero_not_covers page hi

theorem vtlb_agrees_largePages :
    ∃ c, c.tlb 0 = new_entry largePages ∧ Agrees c ∧
      (c.vtlb 6).kernel_vtlb = .RDRAM (4096 * 70) := by
  obtain ⟨c₀, h₀⟩ := init_exists
  have hallowed := largePages_allowed h₀
  obtain ⟨c, hc⟩ := (vtlb_agrees (Reaches.start h₀)).2.2 largePages hallowed
  have htlb : c.tlb 0 = new_entry largePages := by
    rw [(tlbwi_tables (init_invariant h₀) hallowed hc).1]
    rfl
  have hw : Written c := Reaches.next (a := largePages) (Reaches.start h₀) ⟨hallowed, hc⟩
  have hagrees := (vtlb_agrees hw).1
  refine ⟨c, htlb, hagrees, ?_⟩
  have hcover := hagrees.covered 6 0 (by decide) (by rw [htlb]; decide)
  rw [hcover.kernel, htlb]
  decide

/-- Not every entry is translated so in all tables: not a page of sseg for the user, not a
scratchpad beyond the pages of its mask, not where `VPN2` has bits under the mask, where the mask is
of no size, or within kseg0; and a scratchpad at the end of the address space leaves the tables. -/
theorem entries_stray : Strays (registers 0x00001007 0 0 0xC0000000) 0xC0000 ∧
    Strays (registers 0x80000007 7 0 0x70000000) 0x70002 ∧
    Strays (registers 0x00001007 0x00001107 0x00006000 0x00004000) 0 ∧
    Strays (registers 0x00001007 0x00001107 0x00002000 0) 0 ∧
    Strays (registers 0x00001007 0 0 0x80000000) 0x80000 ∧
    ∃ c, Init c ∧ tlbwi (registers 0x80000007 7 0 0xFFFFE000) c = none := by
  obtain ⟨c, hc⟩ := init_exists
  exact ⟨strays_supervised, strays_scratchpad, strays_masked, strays_unsized, strays_unmapped,
    c, hc, scratchpad_outside hc⟩

end DobieStation.Tlb.Translation
