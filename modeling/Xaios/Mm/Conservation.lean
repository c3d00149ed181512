import Xaios.Foundation.Loop
import Xaios.Mm.Pmm

/-!
# Conservation of pages

Runs of `pmm_alloc_page` and `pmm_free_page` in which every page that is freed was handed
out before and has not been freed since. Beside the allocator stands the set of the pages
that are held.

Pages are conserved as long as free pages and held pages together are the pages there were
at boot, and the count of the allocator agrees; then a request fails only when every page
is held. `pmm_free_page` keeps a record of the pages that were freed, and nothing takes a
page out of the record when it is handed out again. So a page that comes back for the second
time is refused and lost. A page at address zero is lost too, when it is handed out. A run
conserves pages exactly if neither happens
(`Mm.pages_conserved_iff`).
-/

namespace Xaios.Mm

open Foundation Finset

/-- A call of the allocator. -/
inductive PageCall where
  | alloc
  | free (page : ℕ)
  deriving DecidableEq

/-- The allocator and the pages that are held. -/
structure Holding where
  pmm : Pmm
  held : Finset ℕ

namespace Holding

/-- One call. -/
def step (s : Holding) : PageCall → Holding
  | .alloc =>
    let r := s.pmm.allocPage
    ⟨r.2, if r.1 = 0 then s.held else insert r.1 s.held⟩
  | .free page => ⟨s.pmm.freePage page, s.held.erase page⟩

end Holding

/-- Only pages that are held are freed. -/
def PageCall.Disciplined (s : Holding) : PageCall → Prop
  | .alloc => True
  | .free page => page ∈ s.held

/-- No page is gone and none is counted twice, since `p₀`. -/
structure Conserved (p₀ : Pmm) (s : Holding) : Prop where
  pages : s.pmm.pages ∪ s.held = p₀.pages
  disjoint : Disjoint s.pmm.pages s.held
  count : s.pmm.freePages + s.held.card = p₀.freePages

/-- A call leaves pages conserved, and it fails for want of a page only if all are held. -/
def PageCall.Conserves (p₀ : Pmm) (s : Holding) (c : PageCall) : Prop :=
  Conserved p₀ (s.step c) ∧ (c = .alloc → s.pmm.allocPage.1 = 0 → s.held = p₀.pages)

/-- The page that is freed is not in the record of freed pages, and the page that is handed out
is not at address zero. The record holds the first 64 pages that were freed and forgets none. -/
def PageCall.KeepsPages (s : Holding) : PageCall → Prop
  | .alloc => s.pmm.next ≠ some 0
  | .free page => page ∉ s.pmm.freed.map Prod.fst

/-- What holds between calls. -/
structure Holding.Inv (p₀ : Pmm) (s : Holding) : Prop extends Conserved p₀ s where
  counted : s.pmm.Counted
  owned : ∀ p ∈ p₀.pages, s.pmm.Owns p
  nonzero : 0 ∉ s.held

namespace Holding.Inv

variable {p₀ : Pmm} {s : Holding} {page : ℕ}

/-- A call for a page conserves pages unless it takes the page at zero. -/
theorem alloc (h : s.Inv p₀) :
    (PageCall.Conserves p₀ s .alloc ↔ PageCall.KeepsPages s .alloc) ∧
      (PageCall.KeepsPages s .alloc → (s.step .alloc).Inv p₀) := by
  rcases Pmm.allocPage_cases h.counted with ⟨hempty, hnext, halloc⟩ | ht
  · have hstep : s.step .alloc = s := by
      rw [step, halloc]
      rfl
    have hall : s.held = p₀.pages := by rw [← h.pages, hempty, empty_union]
    rw [PageCall.Conserves, PageCall.KeepsPages, hstep, hnext]
    exact ⟨iff_of_true ⟨h.toConserved, fun _ _ => hall⟩ (Option.some_ne_none 0).symm, fun _ => h⟩
  · rw [PageCall.Conserves, PageCall.KeepsPages, ht.next, step]
    by_cases hzero : s.pmm.allocPage.1 = 0
    · -- the page is neither free nor held
      rw [if_pos hzero, hzero]
      refine ⟨iff_of_false (fun hc => ?_) (fun hne => hne rfl), fun hne => absurd rfl hne⟩
      have hcount := hc.1.count
      have hbefore := h.count
      have htaken := ht.count
      dsimp only at hcount
      omega
    · rw [if_neg hzero]
      have hfree : s.pmm.allocPage.1 ∉ s.held := disjoint_left.mp h.disjoint ht.mem
      have hc : Conserved p₀ ⟨s.pmm.allocPage.2, insert s.pmm.allocPage.1 s.held⟩ := by
        refine ⟨?_, ?_, ?_⟩
        · rw [ht.pages, union_insert, ← insert_union, insert_erase ht.mem,
            h.pages]
        · rw [ht.pages, disjoint_insert_right]
          exact ⟨notMem_erase _ _, h.disjoint.mono_left (erase_subset _ _)⟩
        · dsimp only
          have hbefore := h.count
          have htaken := ht.count
          rw [card_insert_of_notMem hfree]
          omega
      refine ⟨iff_of_true ⟨hc, fun _ hz => absurd hz hzero⟩
        fun hsome => hzero (Option.some_inj.mp hsome),
        fun _ => ⟨hc, ht.counted, fun p hp => (ht.owns p).mpr (h.owned p hp), ?_⟩⟩
      rw [mem_insert, not_or]
      exact ⟨fun hz => hzero hz.symm, h.nonzero⟩

/-- A page that is given back conserves pages unless it is in the record. -/
theorem free (h : s.Inv p₀) (hheld : page ∈ s.held) :
    (PageCall.Conserves p₀ s (.free page) ↔ PageCall.KeepsPages s (.free page)) ∧
      (PageCall.KeepsPages s (.free page) → (s.step (.free page)).Inv p₀) := by
  have hused : page ∉ s.pmm.pages := disjoint_right.mp h.disjoint hheld
  have hown : s.pmm.Owns page := h.owned page (h.pages ▸ mem_union_right _ hheld)
  have hne : page ≠ 0 := fun hz => h.nonzero (hz ▸ hheld)
  have hcard := card_erase_add_one hheld
  have hbefore := h.count
  rw [PageCall.Conserves, PageCall.KeepsPages, step]
  rcases Pmm.freePage_cases h.counted hown hne hused with ⟨hmem, hnodes⟩ | ⟨hmem, hg⟩
  · refine ⟨iff_of_false (fun hc => ?_) (not_not.mpr hmem), fun hkeep => absurd hmem hkeep⟩
    have hcount := hc.1.count
    dsimp only at hcount
    rw [Pmm.freePages, hnodes, ← Pmm.freePages] at hcount
    omega
  · have hc : Conserved p₀ ⟨s.pmm.freePage page, s.held.erase page⟩ := by
      refine ⟨?_, ?_, ?_⟩
      · rw [hg.pages, insert_union, ← union_insert, insert_erase hheld, h.pages]
      · rw [hg.pages, disjoint_insert_left]
        exact ⟨notMem_erase _ _, h.disjoint.mono_right (erase_subset _ _)⟩
      · dsimp only
        have hgiven := hg.count
        omega
    refine ⟨iff_of_true ⟨hc, fun hcall => by cases hcall⟩ hmem, fun _ => ⟨hc, hg.counted,
      fun p hp => (hg.owns p).mpr (h.owned p hp), fun hz => h.nonzero (mem_of_mem_erase hz)⟩⟩

/-- **A call conserves pages exactly if it keeps them.** -/
theorem conserves_iff (h : s.Inv p₀) {c : PageCall} (hc : c.Disciplined s) :
    (c.Conserves p₀ s ↔ c.KeepsPages s) ∧ (c.KeepsPages s → (s.step c).Inv p₀) := by
  cases c with
  | alloc => exact h.alloc
  | free page => exact h.free hc

end Holding.Inv

theorem inv_pmmInit {boot : BootInfo} {p₀ : Pmm} (h : pmmInit boot = some p₀) :
    Holding.Inv p₀ ⟨p₀, ∅⟩ := by
  have hcounted := counted_pmmInit h
  refine ⟨⟨union_empty _, disjoint_empty_right _, Nat.add_zero _⟩, hcounted,
    fun p hp => Pmm.owns_of_mem hp hcounted, notMem_empty 0⟩

/-- **Conservation of pages.** After `pmm_init`, in every run that frees only pages it
holds: every call leaves free and held pages together the pages of the boot, and requests
fail only when all pages are held, exactly if no call frees a page of the record and none
hands out the page at address zero. -/
theorem pages_conserved_iff {boot : BootInfo} {p₀ : Pmm} (hboot : pmmInit boot = some p₀)
    {cs : List PageCall} (hcs : Along Holding.step (fun s c => c.Disciplined s) ⟨p₀, ∅⟩ cs) :
    Along Holding.step (fun s c => c.Conserves p₀ s) ⟨p₀, ∅⟩ cs ↔
      Along Holding.step (fun s c => c.KeepsPages s) ⟨p₀, ∅⟩ cs := by
  have hcongr := Along.congr
    (Q := fun s c => PageCall.Disciplined s c ∧ c.KeepsPages s) (inv_pmmInit hboot)
    (fun s c hs hc => (hs.conserves_iff hc.1).2 hc.2)
    (fun s c hs => and_congr_right fun hc => (hs.conserves_iff hc).1) cs
  rw [along_and, along_and] at hcongr
  exact ⟨fun h => (hcongr.mp ⟨hcs, h⟩).2, fun h => (hcongr.mpr ⟨hcs, h⟩).2⟩

/-! ### A machine with one free page -/

theorem onePage_aligned :
    ∀ d ∈ [MemoryDescriptor.mk 7 0x40000000 1], d.physicalStart % 4096 = 0 := by
  decide

theorem onePage_bounded : ∀ d ∈ [MemoryDescriptor.mk 7 0x40000000 1], d.regionEnd ≤ 2 ^ 48 := by
  decide

/-- One page of memory, with the kernel and the memory map elsewhere. -/
def onePage : BootInfo where
  memoryMap := [⟨7, 0x40000000, 1⟩]
  memoryMapBase := 0x50000000
  memoryMapSize := 40
  kernelPhysBase := 0x60000000
  kernelPhysEnd := 0x60100000
  uartBase := 0x9000000
  aligned := onePage_aligned
  bounded := onePage_bounded

/-- The allocator of that machine after `pmm_init`. -/
def onePagePmm : Pmm := (pmmInit onePage).getD ⟨[], 0, 0, []⟩

theorem pmmInit_onePage : pmmInit onePage = some onePagePmm := rfl

/-- The page is taken, given back, taken and given back again. -/
def recycle : List PageCall := [.alloc, .free 0x40000000, .alloc, .free 0x40000000]

open Holding

theorem disciplined_recycle :
    Along Holding.step (fun s c => c.Disciplined s) ⟨onePagePmm, ∅⟩ recycle := by
  have hfirst : 0x40000000 ∈ (step ⟨onePagePmm, ∅⟩ .alloc).held := by decide +kernel
  have hsecond : 0x40000000 ∈ ((recycle.take 3).foldl step ⟨onePagePmm, ∅⟩).held := by
    decide +kernel
  exact ⟨trivial, hfirst, trivial, hsecond, trivial⟩

/-- The result at the first round of the page. -/
theorem pages_conserved_once :
    Along Holding.step (fun s c => c.Disciplined s) ⟨onePagePmm, ∅⟩ (recycle.take 2) ∧
    Along Holding.step (fun s c => c.Conserves onePagePmm s) ⟨onePagePmm, ∅⟩ (recycle.take 2) := by
  have hfirst : 0x40000000 ∈ (step ⟨onePagePmm, ∅⟩ .alloc).held := by decide +kernel
  have hnext : onePagePmm.next ≠ some 0 := by decide +kernel
  have hfreed : 0x40000000 ∉ (step ⟨onePagePmm, ∅⟩ .alloc).pmm.freed.map Prod.fst := by
    decide +kernel
  have hcalls : Along step (fun s c => c.Disciplined s) ⟨onePagePmm, ∅⟩
      (recycle.take 2) := ⟨trivial, hfirst, trivial⟩
  exact ⟨hcalls, (pages_conserved_iff pmmInit_onePage hcalls).mpr ⟨hnext, hfreed, trivial⟩⟩

/-- **A page that is given back twice is lost**: nobody holds it, none is free, and the next
request fails. -/
theorem recycled_page_lost :
    Along Holding.step (fun s c => c.Disciplined s) ⟨onePagePmm, ∅⟩ recycle ∧
    onePagePmm.freePages = 1 ∧
    (recycle.foldl Holding.step ⟨onePagePmm, ∅⟩).held = ∅ ∧
    (recycle.foldl Holding.step ⟨onePagePmm, ∅⟩).pmm.freePages = 0 ∧
    (recycle.foldl Holding.step ⟨onePagePmm, ∅⟩).pmm.allocPage.1 = 0 ∧
    ¬Along Holding.step (fun s c => c.Conserves onePagePmm s) ⟨onePagePmm, ∅⟩ recycle := by
  refine ⟨disciplined_recycle, by decide +kernel, by decide +kernel, by decide +kernel,
    by decide +kernel, ?_⟩
  rintro ⟨-, -, -, ⟨hlast, -⟩, -⟩
  have hcount := hlast.count
  revert hcount
  decide +kernel

end Xaios.Mm
