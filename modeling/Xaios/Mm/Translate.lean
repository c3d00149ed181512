import Xaios.Mm.Identity

/-!
# What is mapped is found

`vmm_translate` after `vmm_map_page` and `vmm_unmap_page`, in every state that is reached.

The tables that the walk goes through are not the page that is mapped, since no table is
used on two levels, so the walk ends at the descriptor that was written
(`Mm.Ensured.translate_write`). The address is the one that was mapped. The flags are
the ones of the request exactly if they do not ask for the right to execute, or are those of
a writable and executable page of the kernel (`Mm.map_translate_iff`). All this is for
addresses whose own page is none that the kernel uses: to map a table elsewhere takes it away
from the walk.
-/

namespace Xaios.Mm

open Option Vmm

/-! ### Walks -/

section Walks

variable {K : Kernel} {v v' : Vmm} {role role' : ℕ → Role} {va o l2 l3 : ℕ}

/-- A word of the last table is written; the way to it stays. -/
theorem Ensured.walk_write (h : Ensured K v role va v' role' l2 l3) (i : ℕ) (w : Word) :
    Walk K (v'.write l3 i w) va l2 l3 := by
  have htop : K.l1Table ≠ l3 := ne_of_role h.roles.top rfl h.last.ne.symm
  have hmid : l2 ≠ l3 := ne_of_role h.middle rfl h.last.ne.symm
  refine ⟨h.walk.low, ?_, ?_⟩
  · rw [table_write_of_ne _ _ _ _ htop]
    exact h.walk.l1
  · rw [table_write_of_ne _ _ _ _ hmid]
    exact h.walk.l2

/-- What is found in a page after a descriptor for it was written. -/
theorem Ensured.translate_write (h : Ensured K v role va v' role' l2 l3) (hva : va % 4096 = 0)
    (ho : o < 4096) (w : Word) :
    (v'.write l3 (l3Index va) w).translate K (va + o) = if !isValid w then none
      else (v'.write l3 (l3Index va) w).found (va + o) (tableAddr w + o) w := by
  have hw := (h.walk_write (l3Index va) w).add hva ho
  have hmod : (va + o) % 4096 = o := by omega
  rw [(h.roles.write_last h.last).translate_of_walk hw h.middle h.last, (index_add hva ho).2.2.2,
    table_write_self, hmod]

end Walks

/-! ### The law -/

section Law

variable {K : Kernel} {s : Space} {role : ℕ → Role} {va pa o : ℕ} {flags : Flags}

/-- The window of the devices is made of whole pages. -/
theorem Space.Inv.inMmio_add (h : s.Inv K role) {v : Vmm} (hstart : v.mmioStart = s.vmm.mmioStart)
    (hend : v.mmioEnd = s.vmm.mmioEnd) (hva : va % 4096 = 0) (ho : o < 4096)
    (hout : s.vmm.inMmio va = false) : v.inMmio (va + o) = false := by
  rw [inMmio, Bool.and_eq_false_iff, decide_eq_false_iff_not, decide_eq_false_iff_not] at hout ⊢
  rw [hstart, hend]
  have hs := h.mmioStart
  omega

/-- **After a page is mapped**, its addresses lead to it, with the flags that are read back. -/
theorem Space.Inv.translate_mapPage (h : s.Inv K role) (hpa : GoodPage pa)
    (hout : s.vmm.inMmio va = false) {v : Vmm}
    (hmap : s.vmm.mapPage K va pa flags = some (.ok, v)) (ho : o < 4096) :
    v.translate K (va + o) =
      (descriptorToFlags false (pageDescriptor pa (attrsFromFlags flags))).map (pa + o, ·) := by
  cases stored_mapPage hmap with
  | @written l3 v₁ hva he =>
    obtain ⟨role', l2, hens⟩ := h.roles.ensureL3Table he
    have hmmio : (v₁.write l3 (l3Index va)
        (pageDescriptor pa (attrsFromFlags flags))).inMmio (va + o) = false :=
      h.inMmio_add hens.mmioStart hens.mmioEnd hva ho hout
    rw [hens.translate_write hva ho, isValid_pageDescriptor,
      tableAddr_pageDescriptor hpa (attrsFromFlags_and flags), found, hmmio]
    rfl

/-- **After a page is unmapped**, none of its addresses leads anywhere. -/
theorem Space.Inv.translate_unmapPage (h : s.Inv K role) {v : Vmm}
    (hunmap : s.vmm.unmapPage K va = some (.ok, v)) (ho : o < 4096) :
    v.translate K (va + o) = none := by
  cases stored_unmapPage hunmap with
  | written hva he =>
    obtain ⟨role', l2, hens⟩ := h.roles.ensureL3Table he
    rw [hens.translate_write hva ho]
    rfl

/-- **Mapping and translating.** In every state that is reached by calls that spare the pages the
kernel uses, and for every address outside of these pages: after `vmm_map_page` answered `ok`,
each address of the page translates to the address in the mapped page with the flags of the
request, exactly if the request does not ask for the right to execute or asks for a writable
and executable page of the kernel. After `vmm_unmap_page` answered `ok` no address of the page
translates. The tables are still found at their own addresses. Addresses from 2^39 on stop the
kernel. -/
theorem map_translate_iff {U : Set ℕ} (hU : K.Spared U) {cs : List SpaceCall}
    (hs : Reached K (fun s c => c.Allowed K s ∧ c.Spares U s) cs s) (hva : va % 2 ^ 48 ∉ U)
    (hoffers : ∀ p, s.vmm.pmm.Offers p → p ∈ U) (hpa : GoodPage pa) (hflags : MappingFlags flags)
    (hout : s.vmm.inMmio va = false) :
    (∀ v, s.vmm.mapPage K va pa flags = some (.ok, v) → v.Direct K ∧
      ((∀ o < 4096, v.translate K (va + o) = some (pa + o, flags)) ↔
        flags &&& vmmExecutable = 0 ∨ flags = vmmPresent ||| vmmWritable ||| vmmExecutable)) ∧
    (∀ v, s.vmm.unmapPage K va = some (.ok, v) → v.Direct K ∧
      ∀ o < 4096, v.translate K (va + o) = none) := by
  obtain ⟨role, h⟩ := hs.sound hU fun _ _ hc => hc
  have hspares : ∀ va', some va = some va' → va' % 2 ^ 48 ∉ U := by
    rintro va' ⟨⟩
    exact hva
  refine ⟨fun v hmap => ⟨?_, ?_⟩, fun v hunmap => ⟨?_, fun o ho => ?_⟩⟩
  · obtain ⟨role', h'⟩ := h.exec hU (c := .map va pa flags) trivial ⟨hoffers, hspares⟩
      (bind_eq_some_iff.mpr ⟨_, hmap, rfl⟩)
    exact h'.direct hU
  · rw [← descriptorToFlags_pageDescriptor_eq_iff hflags pa]
    have htrans := fun o ho => h.inv.translate_mapPage hpa hout hmap (o := o) ho
    constructor
    · intro hall
      have hzero := (htrans 0 (by decide)).symm.trans (hall 0 (by decide))
      obtain ⟨got, hgot, heq⟩ := map_eq_some_iff.mp hzero
      rw [hgot, (Prod.mk.inj heq).2]
    · intro hread o ho
      rw [htrans o ho, hread]
      rfl
  · obtain ⟨role', h'⟩ := h.exec hU (c := .unmap va) trivial ⟨hoffers, hspares⟩
      (bind_eq_some_iff.mpr ⟨_, hunmap, rfl⟩)
    exact h'.direct hU
  · exact h.inv.translate_unmapPage hunmap ho

end Law

/-! ### Buffers of processes -/

section Buffers

variable {K : Kernel} {v : Vmm} {va size a o : ℕ} {required : Flags}

/-- **All addresses of a page have its rights**, whatever the tables hold, if the window of
the devices is made of whole pages. -/
theorem Vmm.grants_add (hstart : v.mmioStart % 4096 = 0) (hend : v.mmioEnd % 4096 = 0)
    (hva : va % 4096 = 0) (ho : o < 4096) :
    v.grants K required (va + o) = v.grants K required va := by
  have hmmio : v.inMmio (va + o) = v.inMmio va := by
    have hlow : v.mmioStart ≤ va + o ↔ v.mmioStart ≤ va := by omega
    have hhigh : va + o < v.mmioEnd ↔ va < v.mmioEnd := by omega
    rw [inMmio, inMmio, decide_eq_decide.mpr hlow, decide_eq_decide.mpr hhigh]
  have hfound : ∀ x y d (p : ℕ × Flags → Bool), (∀ r, p r = p (0, r.2)) →
      (v.found (va + o) x d).any p = (v.found va y d).any p := by
    intro x y d p hp
    rw [found, found, hmmio]
    cases descriptorToFlags (v.inMmio va) d with
    | none => rfl
    | some flags => exact (hp (x, flags)).trans (hp (y, flags)).symm
  obtain ⟨h0, h1, h2, h3⟩ := index_add hva ho
  rw [grants, grants, translate, translate, h0, h1, h2, h3]
  dsimp only
  split_ifs
  · rfl
  · rfl
  · rfl
  · exact hfound _ _ _ _ fun _ => rfl
  · rfl
  · exact hfound _ _ _ _ fun _ => rfl

theorem Vmm.grants_iff : v.grants K required a = true ↔
    ∃ r, v.translate K a = some r ∧ r.2 &&& vmmUser ≠ 0 ∧ r.2 &&& required = required := by
  simp only [grants, any_eq_true, Bool.and_eq_true, bne_iff_ne, beq_iff_eq]

/-- **The check of a user's pointer is exact.** Whatever the tables hold and for all numbers
of 64 bits, `vmm_validate_user_buffer` answers `ok` exactly if there is a byte, and every byte
of the buffer lies in the user's range and translates with the user's right and all rights
that are required. -/
theorem validateUserBuffer_iff (hstart : v.mmioStart % 4096 = 0) (hend : v.mmioEnd % 4096 = 0)
    (hsize : size < 2 ^ 64) : v.validateUserBuffer K va size required = .ok ↔
      0 < size ∧ ∀ a, va ≤ a → a < va + size → Vmm.userBase ≤ a ∧ a < Vmm.userLimit ∧
        ∃ r, v.translate K a = some r ∧ r.2 &&& vmmUser ≠ 0 ∧ r.2 &&& required = required := by
  have hadd : ∀ {p o : ℕ}, p % 4096 = 0 → o < 4096 →
      v.grants K required (p + o) = v.grants K required p := grants_add hstart hend
  simp only [← grants_iff]
  rw [validateUserBuffer, userBase, userLimit]
  dsimp only
  split
  · next hbad =>
    refine iff_of_false (fun h => by cases h) ?_
    rintro ⟨hpos, hall⟩
    have hfirst := hall va (le_refl va) (by omega)
    have hlast := hall (va + size - 1) (by omega) (by omega)
    omega
  · next hgood =>
    have hstop : (va + size) % 2 ^ 64 = va + size := by omega
    rw [hstop, alignDown, alignUp]
    -- a byte is in the page that is asked for, and in each of these pages is a byte
    split
    · next hpages =>
      refine iff_of_true rfl ⟨by omega, fun a hlow hhigh => ⟨by omega, by omega, ?_⟩⟩
      have hpage := List.all_eq_true.mp hpages (a / 4096 * 4096) (List.mem_map.mpr
        ⟨a / 4096 - va / 4096, List.mem_range.mpr (by omega), by omega⟩)
      rw [← hpage, ← hadd (Nat.mul_mod_left _ _) (Nat.mod_lt a (by decide)), Nat.div_add_mod']
    · next hpages =>
      refine iff_of_false (fun h => by cases h) fun hall => hpages (List.all_eq_true.mpr ?_)
      intro page hpage
      obtain ⟨k, hk, rfl⟩ := List.mem_map.mp hpage
      rw [List.mem_range] at hk
      have hbyte := hall.2 (max va (va / 4096 * 4096 + k * 4096)) (le_max_left _ _) (by omega)
      rw [← hbyte.2.2, ← hadd (o := max va (va / 4096 * 4096 + k * 4096) -
        (va / 4096 * 4096 + k * 4096)) (by omega) (by omega)]
      congr 1
      omega

end Buffers

/-! ### A small machine -/

theorem sampleBoot_aligned :
    ∀ d ∈ [MemoryDescriptor.mk 7 0x40000000 8], d.physicalStart % 4096 = 0 := by
  decide

theorem sampleBoot_bounded :
    ∀ d ∈ [MemoryDescriptor.mk 7 0x40000000 8], d.regionEnd ≤ 2 ^ 48 := by
  decide

/-- Eight pages of memory beside the kernel. -/
def sampleBoot : BootInfo where
  memoryMap := [⟨7, 0x40000000, 8⟩]
  memoryMapBase := 0x40200000
  memoryMapSize := 40
  kernelPhysBase := 0x40080000
  kernelPhysEnd := 0x40100000
  uartBase := 0x9000000
  aligned := sampleBoot_aligned
  bounded := sampleBoot_bounded

theorem sample_nodup : (staticTables 0x40090000 0x40091000 0x40092000 0x40096000).Nodup := by
  decide +kernel

theorem sample_aligned :
    ∀ t ∈ staticTables 0x40090000 0x40091000 0x40092000 0x40096000, t % 4096 = 0 := by
  decide +kernel

theorem sample_inImage : ∀ t ∈ staticTables 0x40090000 0x40091000 0x40092000 0x40096000,
    sampleBoot.kernelPhysBase ≤ t ∧ t + 4096 ≤ sampleBoot.kernelPhysEnd := by
  decide +kernel

theorem sample_low : sampleBoot.kernelPhysEnd ≤ 2 ^ 32 := by decide

theorem sample_uart : sampleBoot.uartBase < 2 ^ 38 := by decide

/-- A kernel of half a megabyte. -/
def sample : Kernel where
  boot := sampleBoot
  sections := ⟨(0x40080000, 0x40088000), (0x40088000, 0x40090000), (0x40090000, 0x400f0000),
    (0x400f0000, 0x40100000), (0, 0), (0, 0), (0, 0)⟩
  l0Table := 0x40090000
  l1Table := 0x40091000
  l2Tables := 0x40092000
  l3Tables := 0x40096000
  nodup := sample_nodup
  aligned := sample_aligned
  inImage := sample_inImage
  low := sample_low
  uart := sample_uart

/-- The pages of the memory and of the image. -/
def samplePages : Set ℕ := {p | p % 4096 = 0 ∧ 0x40000000 ≤ p ∧ p < 0x40100000}

instance (p : ℕ) : Decidable (p ∈ samplePages) :=
  inferInstanceAs (Decidable (p % 4096 = 0 ∧ 0x40000000 ≤ p ∧ p < 0x40100000))

theorem Pmm.mem_of_offers {pmm : Pmm} {U : Set ℕ}
    (h : pmm.allocPage.1 ∈ U ∧ pmm.allocPage.2.allocPage.1 ∈ U) :
    ∀ p, pmm.Offers p → p ∈ U := by
  rintro p ⟨-, rfl | rfl⟩
  · exact h.1
  · exact h.2

theorem sample_spared : sample.Spared samplePages where
  ordinary := by
    rintro p ⟨haligned, hlow, hhigh⟩
    refine ⟨haligned, by omega, by omega, fun hin => ?_⟩
    rw [InUserBlocks, l1Index, l2Index] at hin
    omega
  image p haligned hbase hend := by
    change 0x40080000 ≤ p at hbase
    exact ⟨haligned, by omega, hend⟩
  offers := by
    have hall : ∀ pmm ∈ pmmInit sampleBoot, pmm.allocPage.1 ∈ samplePages ∧
        pmm.allocPage.2.allocPage.1 ∈ samplePages := by
      decide +kernel
    exact fun pmm hpmm => Pmm.mem_of_offers (hall pmm hpmm)

/-- The state after `vmm_init`. -/
def bootSpace (K : Kernel) : Option Space := do
  let pmm ← pmmInit K.boot
  let v ← vmmInit K pmm
  return ⟨v, fun _ => [], ∅⟩

theorem reached_bootSpace {K : Kernel} {P : Space → SpaceCall → Prop} {s : Space}
    (h : bootSpace K = some s) : Reached K P [] s := by
  obtain ⟨pmm, hpmm, h⟩ := bind_eq_some_iff.mp h
  obtain ⟨v, hv, h⟩ := bind_eq_some_iff.mp h
  cases h
  exact .boot hpmm hv

/-- The result at a page of data beside page zero. -/
theorem map_translate_data : ∃ s v, bootSpace sample = some s ∧
    s.vmm.mapPage sample 0x1000 0x40007000 (vmmPresent ||| vmmWritable) = some (.ok, v) ∧
      ∀ o < 4096, v.translate sample (0x1000 + o) =
        some (0x40007000 + o, vmmPresent ||| vmmWritable) := by
  obtain ⟨s, hs, hmmio, hoffers, ⟨st, v⟩, hmap, rfl⟩ : ∃ s ∈ bootSpace sample,
      s.vmm.inMmio 0x1000 = false ∧ (s.vmm.pmm.allocPage.1 ∈ samplePages ∧
        s.vmm.pmm.allocPage.2.allocPage.1 ∈ samplePages) ∧
      ∃ r ∈ s.vmm.mapPage sample 0x1000 0x40007000 (vmmPresent ||| vmmWritable), r.1 = .ok := by
    decide +kernel
  refine ⟨s, v, hs, hmap, ?_⟩
  exact ((map_translate_iff sample_spared (reached_bootSpace hs) (by decide)
    (Pmm.mem_of_offers hoffers) ⟨by decide, by decide⟩ ⟨by decide, by decide⟩
    hmmio).1 v hmap).2.mpr (.inl (by decide))

/-- The check at a buffer in a page of a process. -/
theorem validateUserBuffer_mapped : ∃ v : Vmm,
    v.validateUserBuffer sample 0x41000010 16 vmmWritable = .ok ∧
    ∀ a, 0x41000010 ≤ a → a < 0x41000020 → ∃ r, v.translate sample a = some r ∧
      r.2 &&& vmmUser ≠ 0 ∧ r.2 &&& vmmWritable = vmmWritable := by
  obtain ⟨s, -, r, -, hstart, hend, hok⟩ : ∃ s ∈ bootSpace sample, ∃ r ∈ s.vmm.mapPage sample
      0x41000000 0x40007000 (vmmPresent ||| vmmWritable ||| vmmUser), r.2.mmioStart % 4096 = 0 ∧
      r.2.mmioEnd % 4096 = 0 ∧ r.2.validateUserBuffer sample 0x41000010 16 vmmWritable = .ok := by
    decide +kernel
  have hall := ((validateUserBuffer_iff hstart hend (by decide)).mp hok).2
  exact ⟨r.2, hok, fun a hlow hhigh => (hall a hlow hhigh).2.2⟩

/-- **The right to execute is lost with all the others**: a page of code for a process is
read back as one of the kernel that is writable. -/
theorem code_page_writable : ∃ s v, bootSpace sample = some s ∧
    s.vmm.mapPage sample 0x1000 0x40007000 (vmmPresent ||| vmmUser ||| vmmExecutable) =
      some (.ok, v) ∧
    v.translate sample 0x1000 =
      some (0x40007000, vmmPresent ||| vmmWritable ||| vmmExecutable) := by
  obtain ⟨s, hs, ⟨st, v⟩, hmap, rfl, hfound⟩ : ∃ s ∈ bootSpace sample, ∃ r ∈ s.vmm.mapPage sample
      0x1000 0x40007000 (vmmPresent ||| vmmUser ||| vmmExecutable), r.1 = .ok ∧
      r.2.translate sample 0x1000 =
        some (0x40007000, vmmPresent ||| vmmWritable ||| vmmExecutable) := by
    decide +kernel
  exact ⟨s, v, hs, hmap, hfound⟩

end Xaios.Mm
