import Mathlib.Algebra.Ring.Nat
import Mathlib.Data.Finset.Union
import Xaios.Foundation.Bitmap

/-!
# Physical pages

The allocator of physical pages: the nodes of `mm/numa.c` with their bitmaps, and
`mm/pmm.c` on top of them, which also keeps a record of the pages that were freed.

A node starts with the pages of the firmware's memory map that are not reserved. Taking a
page clears a bit and giving it back sets it; what the two do to the set of free pages is
said once (`Mm.Pmm.allocPage_cases`, `Mm.Pmm.freePage_cases`) and used wherever
pages are taken.

Addresses are numbers: the memory map is below 2^48 (`Mm.BootInfo.bounded`), so no
sum of the source wraps round.
-/

namespace Xaios.Mm

open Foundation List Bitmap

/-! ### The memory map -/

/-- `align_down` and `align_up` to pages. -/
def alignDown (a : ℕ) : ℕ := a / 4096 * 4096

@[inherit_doc alignDown] def alignUp (a : ℕ) : ℕ := (a + 4095) / 4096 * 4096

/-- `overlaps`. -/
def overlaps (start stop usedStart usedStop : ℕ) : Bool :=
  decide (start < usedStop) && decide (usedStart < stop)

/-- `xaios_memory_descriptor_t`, as far as it is read. -/
structure MemoryDescriptor where
  type : UInt32
  physicalStart : ℕ
  numberOfPages : ℕ

namespace MemoryDescriptor

/-- `XAIOS_MEMORY_TYPE_CONVENTIONAL`. -/
def conventional (d : MemoryDescriptor) : Bool := d.type == 7

/-- `region_end`. -/
def regionEnd (d : MemoryDescriptor) : ℕ := d.physicalStart + d.numberOfPages * 4096

/-- The pages that the loop over a region goes through. -/
def pages (d : MemoryDescriptor) : List ℕ :=
  (range ((alignDown d.regionEnd - alignUp d.physicalStart) / 4096)).map fun k =>
    alignUp d.physicalStart + k * 4096

end MemoryDescriptor

/-- `xaios_boot_info_t`. The firmware describes memory in whole pages and below 2^48. -/
structure BootInfo where
  memoryMap : List MemoryDescriptor
  memoryMapBase : ℕ
  memoryMapSize : ℕ
  kernelPhysBase : ℕ
  kernelPhysEnd : ℕ
  uartBase : ℕ
  aligned : ∀ d ∈ memoryMap, d.physicalStart % 4096 = 0
  bounded : ∀ d ∈ memoryMap, d.regionEnd ≤ 2 ^ 48

/-- `page_is_reserved`. -/
def BootInfo.pageIsReserved (boot : BootInfo) (page : ℕ) : Bool :=
  overlaps page (page + 4096) boot.kernelPhysBase boot.kernelPhysEnd ||
    overlaps page (page + 4096) boot.memoryMapBase (boot.memoryMapBase + boot.memoryMapSize)

/-! ### Nodes -/

/-- `xaios_numa_node_t`. -/
structure Node where
  physStart : ℕ
  physEnd : ℕ
  totalPages : ℕ
  freeCount : ℕ
  allocHint : ℕ
  bitmap : Bitmap

/-- One round of the second loop of `numa_init`. -/
def Node.addPage (boot : BootInfo) (n : Node) (page : ℕ) : Node :=
  let i := (page - n.physStart) / 4096
  if page < n.physStart ∨ n.physEnd ≤ page ∨ 262144 ≤ i ∨ boot.pageIsReserved page then
    { n with totalPages := n.totalPages + 1 }
  else
    { n with
      totalPages := n.totalPages + 1
      bitmap := n.bitmap.set i
      freeCount := n.freeCount + 1 }

/-- `numa_init`: the nodes that are there, which is one if there is any memory. -/
def numaInit (boot : BootInfo) : List Node :=
  let regions := boot.memoryMap.filter MemoryDescriptor.conventional
  let lowest := regions.foldl (fun m d => min m d.physicalStart) 0xffffffffffffffff
  let highest := regions.foldl (fun m d => max m d.regionEnd) 0
  if highest ≤ lowest then []
  else [(regions.flatMap MemoryDescriptor.pages).foldl (Node.addPage boot)
    ⟨lowest, highest, 0, 0, 0, fun _ => 0⟩]

namespace Node

variable (n : Node)

/-- `max_page`. -/
def maxPage : ℕ := min ((n.physEnd - n.physStart) / 4096) 262144

/-- `used_words`. -/
def usedWords : ℕ := max ((n.maxPage + 63) / 64) 1

/-- The page that is taken next. -/
def nextPage : Option ℕ :=
  let startWord := n.allocHint / 64
  n.bitmap.nextFit (if n.usedWords ≤ startWord then 0 else startWord) n.usedWords n.maxPage

/-- The address of a page of the node. -/
def address (i : ℕ) : ℕ := n.physStart + i * 4096

/-- `numa_alloc_page_on_node` on a node that is there. -/
def allocPage : ℕ × Node :=
  if n.freeCount = 0 then (0, n)
  else
    match n.nextPage with
    | none => (0, n)
    | some i => (n.address i, { n with
        bitmap := n.bitmap.clear i
        freeCount := n.freeCount - 1
        allocHint := i + 1 })

/-- `numa_free_page` on the node of the page. -/
def freePage (page : ℕ) : Node :=
  let i := (page - n.physStart) / 4096
  if i < 262144 ∧ n.bitmap.test i = false then
    { n with bitmap := n.bitmap.set i, freeCount := n.freeCount + 1 }
  else n

end Node

/-- `numa_alloc_page_on_node`. -/
def numaAllocPageOnNode (nodes : List Node) (id : ℕ) : ℕ × List Node :=
  match nodes[id]? with
  | none => (0, nodes)
  | some n => (n.allocPage.1, nodes.set id n.allocPage.2)

/-- `numa_node_of_phys`. -/
def numaNodeOfPhys (nodes : List Node) (phys : ℕ) : Option ℕ :=
  nodes.findIdx? fun n => decide (n.physStart ≤ phys) && decide (phys < n.physEnd)

/-- `numa_free_page`. -/
def numaFreePage (nodes : List Node) (page : ℕ) : List Node :=
  if page = 0 then nodes
  else
    match numaNodeOfPhys nodes page with
    | none => nodes
    | some id => nodes.modify id fun n => n.freePage page

/-! ### The allocator -/

/-- The state of `mm/pmm.c`. The entries of `g_freed_pages` in use are a list of addresses
and counts. -/
structure Pmm where
  nodes : List Node
  totalPages : ℕ
  reservedPages : ℕ
  freed : List (ℕ × ℕ)

/-- Nodes tried one after the other until one has a page. -/
def allocFrom : List ℕ → List Node → ℕ × List Node
  | [], nodes => (0, nodes)
  | id :: ids, nodes =>
    let r := numaAllocPageOnNode nodes id
    if r.1 ≠ 0 then r else allocFrom ids r.2

namespace Pmm

variable (s : Pmm)

/-- `pmm_free_pages`. -/
def freePages : ℕ := (s.nodes.map Node.freeCount).sum

/-- `pmm_alloc_page`: zero is no page. -/
def allocPage : ℕ × Pmm :=
  let r := allocFrom (0 :: (range s.nodes.length).filter (0 < ·)) s.nodes
  (r.1, { s with nodes := r.2 })

/-- `pmm_free_page`: a page in the record of freed pages is refused. -/
def freePage (page : ℕ) : Pmm :=
  if page = 0 then s
  else
    match s.freed.findIdx? fun e => e.1 == page with
    | some k => { s with freed := s.freed.modify k fun e => (e.1, e.2 + 1) }
    | none => { s with
        freed := if s.freed.length < 64 then s.freed ++ [(page, 1)] else s.freed
        nodes := numaFreePage s.nodes page }

end Pmm

/-- `pmm_init` after `numa_init`; without a free page the kernel stops. -/
def pmmInit (boot : BootInfo) : Option Pmm :=
  let nodes := numaInit boot
  let total := (nodes.map Node.totalPages).sum
  let free := (nodes.map Node.freeCount).sum
  if free = 0 then none else some ⟨nodes, total, total - free, []⟩

/-! ### The free pages of a node -/

namespace Node

variable {n : Node} {i j : ℕ}

/-- The free pages of a node, by their index. -/
def bits (n : Node) : Finset ℕ := (Finset.range n.maxPage).filter fun i => n.bitmap.test i = true

/-- The free pages of a node. -/
def pages (n : Node) : Finset ℕ := n.bits.image n.address

theorem mem_bits : i ∈ n.bits ↔ i < n.maxPage ∧ n.bitmap.test i = true := by
  rw [bits, Finset.mem_filter, Finset.mem_range]

theorem address_injective (n : Node) : Function.Injective n.address := by
  intro i j h
  rw [address, address] at h
  omega

theorem maxPage_le_usedWords (n : Node) : n.maxPage ≤ n.usedWords * 64 := by
  rw [usedWords]
  omega

/-- A node at a page taken. -/
def take (n : Node) (i : ℕ) : Node :=
  { n with bitmap := n.bitmap.clear i, freeCount := n.freeCount - 1, allocHint := i + 1 }

theorem bits_take (n : Node) (i : ℕ) : (n.take i).bits = n.bits.erase i := by
  ext j
  rw [Finset.mem_erase, mem_bits, mem_bits, take, test_clear, Bool.and_eq_true,
    Bool.not_eq_true', decide_eq_false_iff_not]
  exact and_left_comm

/-- **What taking a page does**: there is none, or a free one is taken. -/
theorem allocPage_cases (h : n.bits.card ≤ n.freeCount) :
    (n.bits = ∅ ∧ n.allocPage = (0, n)) ∨
      ∃ i ∈ n.bits, n.nextPage = some i ∧ n.allocPage = (n.address i, n.take i) := by
  rw [allocPage]
  by_cases hzero : n.freeCount = 0
  · left
    rw [hzero, Nat.le_zero, Finset.card_eq_zero] at h
    exact ⟨h, if_pos hzero⟩
  · rw [if_neg hzero]
    cases hnext : n.nextPage with
    | none =>
      refine .inl ⟨Finset.eq_empty_of_forall_notMem fun i hi => ?_, rfl⟩
      obtain ⟨hlt, htest⟩ := mem_bits.mp hi
      rw [nextFit_complete hnext n.maxPage_le_usedWords hlt] at htest
      cases htest
    | some i =>
      obtain ⟨htest, hlt⟩ := nextFit_sound hnext
      exact .inr ⟨i, mem_bits.mpr ⟨hlt, htest⟩, rfl, rfl⟩

/-- **What giving a page back does.** -/
theorem freePage_address (hi : i < n.maxPage) (hfree : i ∉ n.bits) :
    (n.freePage (n.address i)).bits = insert i n.bits ∧
      (n.freePage (n.address i)).freeCount = n.freeCount + 1 := by
  have hindex : (n.address i - n.physStart) / 4096 = i := by
    rw [address, Nat.add_sub_cancel_left, Nat.mul_div_cancel _ (by decide)]
  have hlimit : i < 262144 := lt_of_lt_of_le hi (Nat.min_le_right _ _)
  have htest : n.bitmap.test i = false := by
    rw [mem_bits, not_and, Bool.not_eq_true] at hfree
    exact hfree hi
  rw [freePage, hindex, if_pos ⟨hlimit, htest⟩]
  refine ⟨?_, rfl⟩
  ext j
  rw [Finset.mem_insert, mem_bits, mem_bits, test_set, Bool.or_eq_true, decide_eq_true_eq]
  constructor
  · rintro ⟨hlt, hji | hj⟩
    · exact .inl hji
    · exact .inr ⟨hlt, hj⟩
  · rintro (rfl | ⟨hlt, hj⟩)
    · exact ⟨hi, .inl rfl⟩
    · exact ⟨hlt, .inr hj⟩

theorem address_freePage (n : Node) (page : ℕ) : (n.freePage page).address = n.address := by
  rw [freePage]
  split <;> rfl

theorem maxPage_freePage (n : Node) (page : ℕ) : (n.freePage page).maxPage = n.maxPage := by
  rw [freePage]
  split <;> rfl

end Node

/-! ### The free pages of the allocator -/

namespace Pmm

variable {s : Pmm} {p q : ℕ}

/-- The free pages. -/
def pages (s : Pmm) : Finset ℕ := (s.nodes.map Node.pages).foldr (· ∪ ·) ∅

/-- There is one node, and it counts at least its free pages. -/
def Counted (s : Pmm) : Prop := ∃ n, s.nodes = [n] ∧ n.bits.card ≤ n.freeCount

/-- A page is one that the node can hand out. -/
def Owns (s : Pmm) (p : ℕ) : Prop := ∃ n ∈ s.nodes, ∃ i < n.maxPage, p = n.address i

variable {n : Node}

theorem pages_of_nodes (h : s.nodes = [n]) : s.pages = n.pages := by
  rw [pages, h]
  exact Finset.union_empty _

theorem freePages_of_nodes (h : s.nodes = [n]) : s.freePages = n.freeCount := by
  rw [freePages, h]
  exact Nat.add_zero _

open Node

theorem owns_of_mem (h : p ∈ s.pages) (hs : s.Counted) : s.Owns p := by
  obtain ⟨n, hn, -⟩ := hs
  rw [pages_of_nodes hn, Node.pages, Finset.mem_image] at h
  obtain ⟨i, hi, rfl⟩ := h
  exact ⟨n, hn ▸ mem_singleton_self n, i, (mem_bits.mp hi).1, rfl⟩

/-- The only node is asked. -/
theorem allocPage_of_nodes (h : s.nodes = [n]) :
    s.allocPage = (n.allocPage.1, { s with nodes := [n.allocPage.2] }) := by
  have hids : (0 :: (range s.nodes.length).filter (0 < ·)) = [0] := by
    rw [h]
    rfl
  rw [allocPage, hids, h, allocFrom, allocFrom, numaAllocPageOnNode]
  dsimp only [getElem?_cons_zero, set_cons_zero]
  split
  · rfl
  · next hzero =>
    rw [not_not] at hzero
    rw [hzero]

/-- The page that is handed out next. -/
def next (s : Pmm) : Option ℕ := s.nodes.head?.bind fun n => n.nextPage.map n.address

/-- A page is taken out of the free ones. -/
structure Takes (s t : Pmm) (p : ℕ) : Prop where
  next : s.next = some p
  mem : p ∈ s.pages
  pages : t.pages = s.pages.erase p
  count : t.freePages + 1 = s.freePages
  freed : t.freed = s.freed
  counted : t.Counted
  owns : ∀ q, t.Owns q ↔ s.Owns q

theorem owns_of_nodes (h : s.nodes = [n]) (q : ℕ) :
    s.Owns q ↔ ∃ i < n.maxPage, q = n.address i := by
  rw [Owns, h]
  simp only [mem_singleton, exists_eq_left]

/-- **What `pmm_alloc_page` does**: no page is free, or a free one is taken. A page at
address zero is taken as well, although the answer then says that there is none. -/
theorem allocPage_cases (h : s.Counted) :
    (s.pages = ∅ ∧ s.next = none ∧ s.allocPage = (0, s)) ∨
      s.Takes s.allocPage.2 s.allocPage.1 := by
  obtain ⟨n, hn, hcount⟩ := h
  have hnext : s.next = n.nextPage.map n.address := by
    rw [next, hn]
    rfl
  rw [allocPage_of_nodes hn, pages_of_nodes hn]
  rcases Node.allocPage_cases hcount with ⟨hempty, halloc⟩ | ⟨i, hi, hpage, halloc⟩
  · left
    rw [halloc, hnext, Node.pages, hempty, ← hn]
    refine ⟨rfl, ?_, rfl⟩
    rw [Option.map_eq_none_iff, Option.eq_none_iff_forall_not_mem]
    intro i hi
    obtain ⟨htest, hlt⟩ := nextFit_sound hi
    exact absurd (mem_bits.mpr ⟨hlt, htest⟩) (hempty ▸ Finset.notMem_empty i)
  · right
    have hpos : 0 < n.bits.card := Finset.card_pos.mpr ⟨i, hi⟩
    rw [halloc]
    refine ⟨?_, ?_, ?_, ?_, rfl, ⟨n.take i, rfl, ?_⟩, fun q => ?_⟩
    · rw [hnext, hpage]
      rfl
    · rw [pages_of_nodes hn]
      exact Finset.mem_image_of_mem _ hi
    · rw [pages_of_nodes hn]
      change Finset.image n.address (n.take i).bits ∪ ∅ = _
      rw [Finset.union_empty, bits_take, Finset.image_erase n.address_injective, Node.pages]
    · rw [freePages_of_nodes hn, freePages_of_nodes rfl]
      exact Nat.sub_add_cancel (hpos.trans_le hcount)
    · rw [bits_take, Finset.card_erase_of_mem hi]
      exact Nat.sub_le_sub_right hcount 1
    · rw [owns_of_nodes hn, owns_of_nodes rfl]
      rfl

/-- The page is given back to the only node. -/
theorem numaFreePage_of_nodes {i : ℕ} (hi : i < n.maxPage) (hne : n.address i ≠ 0) :
    numaFreePage [n] (n.address i) = [n.freePage (n.address i)] := by
  have hle : n.maxPage ≤ (n.physEnd - n.physStart) / 4096 := Nat.min_le_left _ _
  have hlow : n.physStart ≤ n.address i := Nat.le_add_right _ _
  have hhigh : n.address i < n.physEnd := by
    rw [address]
    omega
  rw [numaFreePage, if_neg hne, numaNodeOfPhys, findIdx?_cons, decide_eq_true hlow,
    decide_eq_true hhigh]
  rfl

/-- A page is one of the free ones again. -/
structure GivesBack (s t : Pmm) (p : ℕ) : Prop where
  pages : t.pages = insert p s.pages
  count : t.freePages = s.freePages + 1
  counted : t.Counted
  owns : ∀ q, t.Owns q ↔ s.Owns q

/-- **What `pmm_free_page` does** to a page of the node that is not free: it is refused if it
is in the record, and free otherwise. -/
theorem freePage_cases (h : s.Counted) (hown : s.Owns p) (hne : p ≠ 0) (hused : p ∉ s.pages) :
    (p ∈ s.freed.map Prod.fst ∧ (s.freePage p).nodes = s.nodes) ∨
      (p ∉ s.freed.map Prod.fst ∧ s.GivesBack (s.freePage p) p) := by
  obtain ⟨n, hn, hcount⟩ := h
  obtain ⟨n', hn', i, hi, rfl⟩ := hown
  rw [hn, mem_singleton] at hn'
  subst hn'
  rw [pages_of_nodes hn] at hused
  have hfree : i ∉ n'.bits := fun hmem => hused (Finset.mem_image_of_mem _ hmem)
  rw [freePage, if_neg hne]
  cases hfind : s.freed.findIdx? fun e => e.1 == n'.address i with
  | some k =>
    left
    obtain ⟨hk, hfound, -⟩ := findIdx?_eq_some_iff_getElem.mp hfind
    exact ⟨mem_map.mpr ⟨s.freed[k], getElem_mem hk, beq_iff_eq.mp hfound⟩, rfl⟩
  | none =>
    right
    obtain ⟨hbits, hfreed⟩ := freePage_address hi hfree
    rw [hn, numaFreePage_of_nodes hi hne]
    refine ⟨fun hmem => ?_, ?_, ?_, ⟨n'.freePage (n'.address i), rfl, ?_⟩, fun q => ?_⟩
    · obtain ⟨e, he, heq⟩ := mem_map.mp hmem
      have hnone := findIdx?_eq_none_iff.mp hfind e he
      rw [heq, beq_self_eq_true] at hnone
      cases hnone
    · rw [pages_of_nodes hn]
      change Finset.image (n'.freePage (n'.address i)).address _ ∪ ∅ = _
      rw [Finset.union_empty, address_freePage, hbits, Finset.image_insert, Node.pages]
    · rw [freePages_of_nodes hn, ← hfreed]
      exact Nat.add_zero _
    · rw [hbits, hfreed, Finset.card_insert_of_notMem hfree]
      exact Nat.succ_le_succ hcount
    · rw [owns_of_nodes hn, owns_of_nodes rfl, address_freePage, maxPage_freePage]

end Pmm

/-! ### The allocator at boot -/

variable {n : Node}

theorem Node.card_bits_addPage (boot : BootInfo) (page : ℕ) (h : n.bits.card ≤ n.freeCount) :
    (n.addPage boot page).bits.card ≤ (n.addPage boot page).freeCount := by
  rw [addPage]
  split
  · exact h
  · -- one page is counted, and at most one bit is new
    have hinsert := Finset.card_insert_le ((page - n.physStart) / 4096) n.bits
    refine le_trans (Finset.card_le_card fun j hj => ?_) (hinsert.trans (Nat.succ_le_succ h))
    rw [mem_bits, test_set, Bool.or_eq_true, decide_eq_true_eq] at hj
    rw [Finset.mem_insert, mem_bits]
    exact hj.2.imp_right fun htest => ⟨hj.1, htest⟩

theorem Node.bits_empty (physStart physEnd : ℕ) :
    (Node.mk physStart physEnd 0 0 0 fun _ => 0).bits = ∅ := by
  refine Finset.eq_empty_of_forall_notMem fun i hi => ?_
  have htest := (mem_bits.mp hi).2
  change (0#64).getLsbD (i % 64) = true at htest
  rw [BitVec.getLsbD_zero] at htest
  cases htest

theorem numaInit_cases (boot : BootInfo) : numaInit boot = [] ∨
    ∃ n, numaInit boot = [n] ∧ n.bits.card ≤ n.freeCount := by
  rw [numaInit]
  split
  · exact .inl rfl
  · refine .inr ⟨_, rfl, foldlRecOn _ (Node.addPage boot)
      (motive := fun n => n.bits.card ≤ n.freeCount) ?_ fun _ h page _ =>
        Node.card_bits_addPage boot page h⟩
    rw [Node.bits_empty]
    exact le_refl 0

variable {boot : BootInfo}

theorem counted_pmmInit {s : Pmm} (h : pmmInit boot = some s) : s.Counted := by
  rw [pmmInit] at h
  rcases numaInit_cases boot with hnone | ⟨n, hn, hcount⟩
  · rw [hnone] at h
    cases h
  · rw [hn] at h
    split at h
    · cases h
    · cases h
      exact ⟨n, rfl, hcount⟩

/-- A page of the memory map that the allocator may hand out. -/
structure BootInfo.Usable (boot : BootInfo) (p : ℕ) : Prop where
  aligned : p % 4096 = 0
  bounded : p + 4096 ≤ 2 ^ 48
  free : boot.pageIsReserved p = false

theorem MemoryDescriptor.mem_pages {d : MemoryDescriptor} {p : ℕ} (h : p ∈ d.pages) :
    p % 4096 = 0 ∧ p + 4096 ≤ d.regionEnd := by
  rw [pages, mem_map] at h
  obtain ⟨k, hk, rfl⟩ := h
  rw [mem_range, alignDown, alignUp] at hk
  rw [alignUp]
  omega

theorem Node.usable_addPage {page : ℕ} (hstart : n.physStart % 4096 = 0) (hpage : page % 4096 = 0)
    (hbound : page + 4096 ≤ 2 ^ 48) (h : ∀ i, n.bitmap.test i = true → boot.Usable (n.address i))
    (i : ℕ) (hi : (n.addPage boot page).bitmap.test i = true) :
    boot.Usable ((n.addPage boot page).address i) := by
  rw [addPage] at hi ⊢
  split at hi
  · next hskip =>
    rw [if_pos hskip]
    exact h i hi
  · next hkeep =>
    rw [if_neg hkeep]
    rw [not_or, not_or, not_or, Bool.not_eq_true] at hkeep
    rw [test_set, Bool.or_eq_true, decide_eq_true_eq] at hi
    rcases hi with rfl | hi
    · -- the index gives back the page
      have haddr : n.address ((page - n.physStart) / 4096) = page := by
        rw [address]
        omega
      change boot.Usable (n.address _)
      rw [haddr]
      exact ⟨hpage, hbound, hkeep.2.2.2⟩
    · exact h i hi

theorem Node.usable_foldl {l : List ℕ} (hstart : n.physStart % 4096 = 0)
    (hl : ∀ p ∈ l, p % 4096 = 0 ∧ p + 4096 ≤ 2 ^ 48)
    (h : ∀ i, n.bitmap.test i = true → boot.Usable (n.address i)) (i : ℕ)
    (hi : (l.foldl (addPage boot) n).bitmap.test i = true) :
    boot.Usable ((l.foldl (addPage boot) n).address i) := by
  induction l generalizing n with
  | nil => exact h i hi
  | cons page l ih =>
    obtain ⟨hpage, hbound⟩ := hl page mem_cons_self
    refine ih ?_ (fun p hp => hl p (mem_cons_of_mem page hp)) (fun j hj => ?_) hi
    · rw [addPage]
      split <;> exact hstart
    · exact usable_addPage hstart hpage hbound h j hj

/-- The start of the node is the start of a region. -/
theorem foldl_min_cases (l : List MemoryDescriptor) (m : ℕ) :
    l.foldl (fun m d => min m d.physicalStart) m = m ∨
      ∃ d ∈ l, l.foldl (fun m d => min m d.physicalStart) m = d.physicalStart := by
  induction l generalizing m with
  | nil => exact .inl rfl
  | cons d l ih =>
    rw [foldl_cons]
    rcases ih (min m d.physicalStart) with h | ⟨e, he, h⟩
    · rcases min_choice m d.physicalStart with hm | hm
      · exact .inl (h.trans hm)
      · exact .inr ⟨d, mem_cons_self, h.trans hm⟩
    · exact .inr ⟨e, mem_cons_of_mem d he, h⟩

theorem foldl_max_le {l : List MemoryDescriptor} {m b : ℕ} (hm : m ≤ b)
    (hl : ∀ d ∈ l, d.regionEnd ≤ b) : l.foldl (fun m d => max m d.regionEnd) m ≤ b := by
  induction l generalizing m with
  | nil => exact hm
  | cons d l ih =>
    exact ih (max_le hm (hl d mem_cons_self)) fun e he => hl e (mem_cons_of_mem d he)

open MemoryDescriptor

theorem usable_numaInit (hn : n ∈ numaInit boot) {i : ℕ} (hi : n.bitmap.test i = true) :
    boot.Usable (n.address i) := by
  have hmem : ∀ d ∈ boot.memoryMap.filter conventional, d ∈ boot.memoryMap :=
    fun d hd => (mem_filter.mp hd).1
  rw [numaInit] at hn
  split at hn
  · cases hn
  · next hsome =>
    rw [mem_singleton] at hn
    subst hn
    refine Node.usable_foldl ?_ (fun p hp => ?_) (fun j hj => ?_) i hi
    · rcases foldl_min_cases (boot.memoryMap.filter conventional)
        0xffffffffffffffff with hnone | ⟨d, hd, hstart⟩
      · have hhigh := foldl_max_le (Nat.zero_le (2 ^ 48)) fun d hd => boot.bounded d (hmem d hd)
        rw [hnone] at hsome
        omega
      · rw [hstart]
        exact boot.aligned d (hmem d hd)
    · obtain ⟨d, hd, hp⟩ := mem_flatMap.mp hp
      obtain ⟨hpage, hend⟩ := mem_pages hp
      exact ⟨hpage, hend.trans (boot.bounded d (hmem d hd))⟩
    · change (0#64).getLsbD (j % 64) = true at hj
      rw [BitVec.getLsbD_zero] at hj
      cases hj

/-- **Every page of the allocator at boot is usable**: whole, below 2^48 and not part of the
kernel or of the memory map. -/
theorem usable_pmmInit {s : Pmm} (h : pmmInit boot = some s) {p : ℕ}
    (hp : p ∈ s.pages) : boot.Usable p := by
  have hnodes : s.nodes = numaInit boot := by
    rw [pmmInit] at h
    split at h
    · cases h
    · cases h
      rfl
  obtain ⟨n, hn, -⟩ := counted_pmmInit h
  rw [Pmm.pages_of_nodes hn, Node.pages, Finset.mem_image] at hp
  obtain ⟨i, hi, rfl⟩ := hp
  refine usable_numaInit ?_ (Node.mem_bits.mp hi).2
  rw [← hnodes, hn]
  exact mem_singleton_self n

end Xaios.Mm
