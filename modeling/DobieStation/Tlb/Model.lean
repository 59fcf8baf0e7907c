import DobieStation.Lib.Reach
import Mathlib.Data.Nat.Bitwise
import Mathlib.Logic.Function.Basic

/-! # The TLB and the software page tables

The translation of `cop0.cpp` as far as addresses are concerned: the 48 entries of the TLB, the
tables `kernel_vtlb`, `sup_vtlb` and `user_vtlb`, and `vtlb_info`. The four tables have 2^20
entries each and one index, the page; `Page` is what they hold there. A store outside of them is
undefined (`none`). Addresses and page numbers are natural numbers, with the 32 bits of the source's
arithmetic written out. -/

namespace DobieStation.Tlb.Model

/-- A `uint8_t*`; 1 stands for memory-mapped registers. -/
inductive Pointer where
  | null
  | RDRAM (offset : ℕ)
  | BIOS (offset : ℕ)
  | spr (offset : ℕ)
  | mmio
  deriving DecidableEq, Repr

inductive CACHE_MODE where
  | UNCACHED
  | CACHED
  | UCAB
  | SPR

def CACHE_MODE.value : CACHE_MODE → ℕ
  | .UNCACHED => 2
  | .CACHED => 3
  | .UCAB => 7
  | .SPR => 8

/-- The fields that an entry has twice, for its even and its odd page. -/
structure EntryLo where
  valid : Bool
  dirty : Bool
  cache_mode : ℕ
  pfn : ℕ
  deriving DecidableEq, Repr

structure TLB_Entry where
  even : EntryLo
  odd : EntryLo
  is_scratchpad : Bool
  is_global : Bool
  asid : ℕ
  vpn2 : ℕ
  page_size : ℕ
  page_mask : ℕ
  page_shift : ℕ
  deriving DecidableEq, Repr

structure VTLB_Info where
  cache_mode : ℕ
  modified : Bool
  deriving DecidableEq, Repr

structure Page where
  kernel_vtlb : Pointer
  sup_vtlb : Pointer
  user_vtlb : Pointer
  vtlb_info : VTLB_Info
  deriving DecidableEq, Repr

structure Cop0 where
  tlb : ℕ → TLB_Entry
  vtlb : ℕ → Page

def tlb_entries : ℕ := 48

def vtlb_pages : ℕ := 1024 * 1024

def u32 (n : ℕ) : ℕ := n % 2 ^ 32

def get_mem_pointer (paddr : ℕ) : Pointer :=
  if paddr < 0x10000000 then .RDRAM (paddr % (1024 * 1024 * 32))
  else if 0x1FC00000 ≤ paddr ∧ paddr < 0x20000000 then .BIOS (paddr % (1024 * 1024 * 4))
  else .mmio

/-! ### Stores to the tables -/

def store (page : ℕ) (f : Page → Page) (t : ℕ → Page) : Option (ℕ → Page) :=
  if page < vtlb_pages then some (Function.update t page (f (t page))) else none

/-- `n` turns of a loop over the pages from `page` on. -/
def storePages (page n : ℕ) (f : ℕ → Page → Page) (t : ℕ → Page) : Option (ℕ → Page) :=
  (List.range n).foldlM (fun t map_index => store (page + map_index) (f map_index) t) t

/-- `for (i = 0; i < size; i += 4096)`, where `f` is given `i`. -/
def eachPage (page size : ℕ) (f : ℕ → Page → Page) : (ℕ → Page) → Option (ℕ → Page) :=
  storePages page ((size + 4095) / 4096) fun map_index => f (4096 * map_index)

/-! ### The start -/

def blank : Page := ⟨.null, .null, .null, ⟨0, false⟩⟩

def unmapped_start : ℕ := 0x80000000

def unmapped_end : ℕ := 0xC0000000

/-- The segments that the TLB does not map: only the kernel sees them. -/
def init_page (i : ℕ) (p : Page) : Page :=
  { p with
    kernel_vtlb := get_mem_pointer (i % 0x20000000)
    vtlb_info.cache_mode :=
      if i < 0xA0000000 then CACHE_MODE.CACHED.value else CACHE_MODE.UNCACHED.value }

def init_tlb : Option (ℕ → Page) :=
  eachPage (unmapped_start / 4096) (unmapped_end - unmapped_start)
    (fun i => init_page (unmapped_start + i)) fun _ => blank

def EntryLo.zero : EntryLo := ⟨false, false, 0, 0⟩

/-- The entries as `reset` leaves them. -/
def TLB_Entry.zero : TLB_Entry := ⟨.zero, .zero, false, false, 0, 0, 0, 0, 0⟩

/-! ### Unmapping and mapping -/

variable (e : TLB_Entry)

def real_vpn : ℕ := u32 (e.vpn2 * 2) / 2 ^ e.page_shift

def even_page : ℕ := u32 (real_vpn e * e.page_size) / 4096

def odd_page : ℕ := u32 ((real_vpn e + 1) * e.page_size) / 4096

def unmap_page (p : Page) : Page :=
  { p with kernel_vtlb := .null, sup_vtlb := .null, user_vtlb := .null }

/-- One of the halves of an entry, where it is valid. -/
def whenValid (lo : EntryLo) (act : (ℕ → Page) → Option (ℕ → Page)) (t : ℕ → Page) :
    Option (ℕ → Page) :=
  if lo.valid then act t else some t

def unmap_tlb (t : ℕ → Page) : Option (ℕ → Page) :=
  if e.is_scratchpad then
    whenValid e.even (eachPage (even_page e) (1024 * 16) fun _ => unmap_page) t
  else do
    let t ← whenValid e.even (eachPage (even_page e) e.page_size fun _ => unmap_page) t
    whenValid e.odd (eachPage (odd_page e) e.page_size fun _ => unmap_page) t

def map_scratchpad (i : ℕ) (p : Page) : Page :=
  { p with
    kernel_vtlb := .spr i
    sup_vtlb := .spr i
    user_vtlb := .spr i
    vtlb_info.cache_mode := CACHE_MODE.SPR.value }

/-- A page of the half `lo`, which starts at `virt_addr` and `phy_addr`. -/
def map_page (lo : EntryLo) (virt_addr phy_addr i : ℕ) (p : Page) : Page :=
  let mem := get_mem_pointer (u32 (phy_addr + i))
  { kernel_vtlb := mem
    sup_vtlb :=
      if virt_addr < 0x80000000 ∨ (0xC0000000 ≤ virt_addr ∧ virt_addr < 0xE0000000) then mem
      else p.sup_vtlb
    user_vtlb := if virt_addr < 0x80000000 then mem else p.user_vtlb
    vtlb_info := { p.vtlb_info with cache_mode := lo.cache_mode } }

def phy_addr (lo : EntryLo) : ℕ := u32 (lo.pfn / 2 ^ e.page_shift * e.page_size)

def map_half (lo : EntryLo) (virt_page : ℕ) : (ℕ → Page) → Option (ℕ → Page) :=
  whenValid lo <| eachPage virt_page e.page_size <|
    map_page lo (virt_page * 4096) (phy_addr e lo)

def map_tlb (t : ℕ → Page) : Option (ℕ → Page) :=
  if e.is_scratchpad then
    whenValid e.even (eachPage (even_page e) (1024 * 16) map_scratchpad) t
  else do
    let t ← map_half e e.even (even_page e) t
    map_half e e.odd (odd_page e) t

/-! ### Writing an entry -/

/-- The size of a page, in bytes, and its `page_shift`. -/
def page_sizing (page_mask : ℕ) : ℕ × ℕ :=
  if page_mask = 0x000 then (1024 * 4, 0)
  else if page_mask = 0x003 then (1024 * 16, 2)
  else if page_mask = 0x00F then (1024 * 64, 4)
  else if page_mask = 0x03F then (1024 * 256, 6)
  else if page_mask = 0x0FF then (1024 * 1024, 8)
  else if page_mask = 0x3FF then (1024 * 1024 * 4, 10)
  else if page_mask = 0xFFF then (1024 * 1024 * 16, 12)
  else (0, 0)

def entry_lo (reg : BitVec 32) : EntryLo where
  valid := reg.getLsbD 1
  dirty := reg.getLsbD 2
  cache_mode := (reg >>> 3).toNat % 8
  pfn := (reg >>> 6).toNat % 2 ^ 20

/-- The entry that the registers of COP0 describe. -/
def new_entry (gpr : ℕ → BitVec 32) : TLB_Entry :=
  let page_mask := (gpr 5 >>> 13).toNat % 2 ^ 12
  { even := entry_lo (gpr 2)
    odd := entry_lo (gpr 3)
    is_scratchpad := (gpr 2).getLsbD 31
    is_global := (gpr 2).getLsbD 0 && (gpr 3).getLsbD 0
    asid := (gpr 10).toNat % 2 ^ 8
    vpn2 := (gpr 10 >>> 13).toNat
    page_size := (page_sizing page_mask).1
    page_mask := page_mask
    page_shift := (page_sizing page_mask).2 }

def set_tlb (gpr : ℕ → BitVec 32) (index : ℕ) (c : Cop0) : Option Cop0 :=
  if index < tlb_entries then do
    let t ← unmap_tlb (c.tlb index) c.vtlb
    let t ← map_tlb (new_entry gpr) t
    some ⟨Function.update c.tlb index (new_entry gpr), t⟩
  else none

/-- The instruction, with what the registers of COP0 hold at that time. -/
def tlbwi (gpr : ℕ → BitVec 32) (c : Cop0) : Option Cop0 :=
  set_tlb gpr (gpr 0).toNat c

def Init (c : Cop0) : Prop :=
  c.tlb = (fun _ => .zero) ∧ init_tlb = some c.vtlb

end DobieStation.Tlb.Model
