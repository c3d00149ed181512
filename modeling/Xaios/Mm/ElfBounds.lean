import Xaios.Mm.Elf

/-!
# What the loader reads and maps

The loader once more, told by what it touches: the bytes of the file, at offsets from the
base that wrap round, and the pages it maps.

All pages are in the user's range. But the sums `phoff + phnum * phentsize` and
`offset + filesz` wrap round in the checks, so that headers and segments far behind the file
pass them (`Mm.far_headers_read`). The loader stays in the file exactly if neither the
first sum nor the second of a segment it gets a page for wraps round
(`Mm.elf_in_file_iff`).
-/

namespace Xaios.Mm

open List

/-- A range of the file that is read, or a page that is mapped. -/
inductive ElfAccess where
  | read (offset len : ℕ)
  | map (va : ℕ)
  deriving DecidableEq

/-- The bytes are of the file, and the page is in the user's range. -/
def ElfAccess.Inside (f : ElfFile) : ElfAccess → Prop
  | read o len => ∀ j < len, (o + j) % 2 ^ 64 < f.size
  | map va => Vmm.userBase ≤ va ∧ va + 4096 ≤ Vmm.userLimit

/-- What is read of the file for a page of a segment, as in `Mm.Phdr.fill`. -/
def Phdr.copied (ph : Phdr) (va : ℕ) : ElfAccess :=
  let fileEnd := ph.vaddr + ph.filesz
  if va < fileEnd ∧ ph.vaddr < va + 4096 then
    let copyStart := if ph.vaddr < va then va else ph.vaddr
    let copyEnd := if va + 4096 < fileEnd then va + 4096 else fileEnd
    .read ((ph.offset + (copyStart - ph.vaddr)) % 2 ^ 64) (copyEnd - copyStart)
  else .read 0 0

namespace ElfFile

variable (K : Kernel) (f : ElfFile) (id : ℕ)

/-- A field of a program header is read. -/
def reads (i k len : ℕ) : ElfAccess := .read ((f.phoff + i * f.phentsize + k) % 2 ^ 64) len

/-- The fields that the checks of `load_segment` look at, one after the other, and the flags. -/
def checked (i : ℕ) : List ElfAccess :=
  let ph := f.phdr i
  [f.reads i 40 8, f.reads i 32 8] ++
    (if ph.memsz < ph.filesz then []
    else f.reads i 8 8 :: if f.size < (ph.offset + ph.filesz) % 2 ^ 64 then []
    else [f.reads i 16 8]) ++
    if ph.valid f then [f.reads i 4 4] else []

/-- The loop of `load_segment`. -/
def pagesTouched (ph : Phdr) : List ℕ → Loader → List ElfAccess
  | [], _ => []
  | va :: vas, st =>
    (if st.space.vmm.pmm.allocPage.1 = 0 then [] else [ph.copied va, .map va]) ++
      match loadPage K f id ph va st with
      | some (.ok, st) => pagesTouched ph vas st
      | _ => []

/-- The loop of `elf_loader_load`. -/
def headersTouched : List ℕ → Loader → List ElfAccess
  | [], _ => []
  | i :: is, st =>
    let ph := f.phdr i
    f.reads i 0 4 ::
      if ph.load then
        f.checked i ++ (if ph.valid f then f.pagesTouched K id ph ph.pages st else []) ++
          match loadSegment K f id ph st with
          | some (.ok, st) => headersTouched is st
          | _ => []
      else headersTouched is st

/-- `elf_loader_load`. -/
def touched (st : Loader) : List ElfAccess :=
  (if 64 ≤ f.size ∧ f.executable then [.read 0 64] else []) ++
    if f.validateElf then
      match st.space.exec K (.create id) with
      | some space => f.headersTouched K id (range f.phnum) ⟨space, st.mem, []⟩
      | none => []
    else []

/-- The segments to be loaded. -/
def segments : List Phdr := f.phdrs.filter Phdr.load

/-- **The condition on segments**: `offset + filesz` does not wrap round for one that passes the
checks and gets a page, as far as the load comes. -/
def Unwrapped : List Phdr → Loader → Prop
  | [], _ => True
  | ph :: phs, st =>
    (ph.valid f = true → st.space.vmm.pmm.allocPage.1 ≠ 0 → ph.offset + ph.filesz < 2 ^ 64) ∧
      ∀ st', loadSegment K f id ph st = some (.ok, st') → Unwrapped phs st'

end ElfFile

section Touched

variable {K : Kernel} {f : ElfFile} {id i : ℕ} {ph : Phdr} {st : Loader}

open ElfAccess

theorem ElfFile.unwrapped_of_forall {phs : List Phdr}
    (h : ∀ ph ∈ phs, ph.offset + ph.filesz < 2 ^ 64) : f.Unwrapped K id phs st := by
  induction phs generalizing st with
  | nil => trivial
  | cons ph phs ih =>
    obtain ⟨hph, hphs⟩ := forall_mem_cons.mp h
    exact ⟨fun _ _ => hph, fun st' _ => ih hphs⟩

/-- A segment that `load_segment` takes lies in the user's range, and its sums do not wrap
round. -/
theorem Phdr.valid_iff (ph : Phdr) (f : ElfFile) : ph.valid f = true ↔ ph.filesz ≤ ph.memsz ∧
    (ph.offset + ph.filesz) % 2 ^ 64 ≤ f.size ∧ Vmm.userBase ≤ ph.vaddr ∧
      ph.vaddr + ph.memsz ≤ Vmm.userLimit := by
  have hm := ph.memsz_lt
  rw [valid, Bool.not_eq_true', Bool.or_eq_false_iff, Bool.or_eq_false_iff, Bool.or_eq_false_iff,
    Bool.or_eq_false_iff, decide_eq_false_iff_not, decide_eq_false_iff_not, decide_eq_false_iff_not,
    decide_eq_false_iff_not, decide_eq_false_iff_not, not_lt, not_lt, not_lt, not_lt, not_lt]
  rw [Vmm.userLimit]
  omega

/-- The headers that `validate_elf` takes have the size it expects, and end in the file up to a
wrap. -/
theorem ElfFile.headers_of_validateElf (hf : f.validateElf = true) :
    f.phentsize = 56 ∧ f.phnum ≠ 0 ∧ (f.phoff + f.phnum * 56) % 2 ^ 64 ≤ f.size := by
  simp only [validateElf, Bool.and_eq_true, beq_iff_eq, bne_iff_ne, decide_eq_true_eq] at hf
  obtain ⟨⟨-, ⟨⟨-, hsize⟩, hnum⟩, hend⟩, -⟩ := hf
  rw [hsize] at hend
  exact ⟨hsize, hnum, hend⟩

/-- A field of a header that is there. -/
theorem ElfFile.inside_reads (hf : f.validateElf = true)
    (hwrap : f.phoff + f.phnum * f.phentsize < 2 ^ 64) (hi : i < f.phnum) {k len : ℕ}
    (hk : k + len ≤ 56) : (f.reads i k len).Inside f := by
  obtain ⟨hsize, -, hend⟩ := headers_of_validateElf hf
  intro j hj
  rw [hsize] at hwrap ⊢
  omega

/-- The first header, if the end of the headers wraps round. -/
theorem ElfFile.not_inside_reads (hf : f.validateElf = true) (hlt : f.size < 2 ^ 63)
    (hwrap : 2 ^ 64 ≤ f.phoff + f.phnum * f.phentsize) : ¬(f.reads 0 0 4).Inside f := by
  obtain ⟨hsize, -, -⟩ := headers_of_validateElf hf
  intro h
  have hoff : f.phoff < 256 ^ 8 := f.field_lt 8 32
  have hnum : f.phnum < 256 ^ 2 := f.field_lt 2 56
  have hfirst := h 0 (by decide)
  rw [hsize] at hwrap
  omega

/-- The part of the file for a page. -/
theorem Phdr.inside_copied (hvalid : ph.valid f = true) (hwrap : ph.offset + ph.filesz < 2 ^ 64)
    (va : ℕ) : (ph.copied va).Inside f := by
  obtain ⟨-, hend, -, -⟩ := (ph.valid_iff f).mp hvalid
  rw [copied]
  split
  · intro j hj
    split_ifs at hj ⊢ <;> omega
  · exact fun j hj => absurd hj (Nat.not_lt_zero j)

/-- The part for the first page, if the end of the segment wraps round. -/
theorem Phdr.not_inside_copied (hvalid : ph.valid f = true) (hlt : f.size < 2 ^ 63)
    (hwrap : 2 ^ 64 ≤ ph.offset + ph.filesz) :
    ∃ vas, ph.pages = alignDown ph.vaddr :: vas ∧ ¬(ph.copied (alignDown ph.vaddr)).Inside f := by
  obtain ⟨hsize, -, hbase, hlimit⟩ := (ph.valid_iff f).mp hvalid
  have hoff := ph.offset_lt
  rw [Vmm.userBase] at hbase
  rw [Vmm.userLimit] at hlimit
  have hdown : alignDown ph.vaddr = ph.vaddr / 4096 * 4096 := rfl
  obtain ⟨n, hn⟩ : ∃ n, (alignUp (ph.vaddr + ph.memsz) - alignDown ph.vaddr) / 4096 = n + 1 := by
    rw [alignUp, hdown]
    exact Nat.exists_eq_succ_of_ne_zero (by omega)
  refine ⟨((range n).map Nat.succ).map fun k => alignDown ph.vaddr + k * 4096, ?_, fun h => ?_⟩
  · dsimp only [pages]
    rw [hn, range_succ_eq_map, map_cons, Nat.zero_mul, Nat.add_zero]
  · rw [copied, hdown, if_pos (by omega)] at h
    have hfirst := h 0 (by split_ifs <;> omega)
    split_ifs at hfirst <;> omega

theorem Phdr.inside_map (hvalid : ph.valid f = true) {va : ℕ} (hva : va ∈ ph.pages) :
    (ElfAccess.map va).Inside f := by
  obtain ⟨-, -, hbase, hlimit⟩ := (ph.valid_iff f).mp hvalid
  obtain ⟨k, hk, rfl⟩ := mem_map.mp hva
  rw [mem_range, alignDown, alignUp] at hk
  rw [Vmm.userBase] at hbase
  rw [Vmm.userLimit] at hlimit
  constructor
  · rw [alignDown, Vmm.userBase]
    omega
  · rw [alignDown, Vmm.userLimit]
    omega

theorem ElfFile.inside_pagesTouched (hvalid : ph.valid f = true)
    (hwrap : ph.offset + ph.filesz < 2 ^ 64) {vas : List ℕ} (hvas : vas ⊆ ph.pages) :
    ∀ a ∈ f.pagesTouched K id ph vas st, a.Inside f := by
  induction vas generalizing st with
  | nil => exact fun a ha => by cases ha
  | cons va vas ih =>
    obtain ⟨hva, hvas⟩ := cons_subset.mp hvas
    rw [pagesTouched]
    refine forall_mem_append.mpr ⟨?_, ?_⟩
    · split
      · exact forall_mem_nil _
      · exact forall_mem_cons.mpr ⟨Phdr.inside_copied hvalid hwrap va,
          forall_mem_singleton.mpr (Phdr.inside_map hvalid hva)⟩
    · split
      · exact ih hvas
      · exact forall_mem_nil _

/-- **One segment**: all is in the file exactly if no page is filled or the end does not wrap. -/
theorem ElfFile.inside_segment_iff (hlt : f.size < 2 ^ 63) :
    (∀ a ∈ if ph.valid f then f.pagesTouched K id ph ph.pages st else [], a.Inside f) ↔
      (ph.valid f = true → st.space.vmm.pmm.allocPage.1 ≠ 0 → ph.offset + ph.filesz < 2 ^ 64) := by
  split
  · next hvalid =>
    constructor
    · intro h _ hpage
      by_contra hwrap
      obtain ⟨vas, hpages, hout⟩ := Phdr.not_inside_copied hvalid hlt (Nat.le_of_not_lt hwrap)
      rw [hpages, pagesTouched, if_neg hpage] at h
      exact hout (h _ mem_cons_self)
    · intro h
      by_cases hpage : st.space.vmm.pmm.allocPage.1 = 0
      · -- without a page nothing is filled
        cases ph.pages with
        | nil => exact forall_mem_nil _
        | cons va vas =>
          obtain ⟨st', hnone⟩ : ∃ st', loadPage K f id ph va st = some (.noMemory, st') :=
            ⟨_, if_pos hpage⟩
          rw [pagesTouched, if_pos hpage, hnone]
          exact forall_mem_nil _
      · exact inside_pagesTouched hvalid (h hvalid hpage) (Subset.refl _)
  · next hvalid => exact iff_of_true (forall_mem_nil _) fun h => absurd h hvalid

/-- The loop over the headers, if these are in the file. -/
theorem ElfFile.inside_headersTouched_iff (hf : f.validateElf = true) (hlt : f.size < 2 ^ 63)
    (hwrap : f.phoff + f.phnum * f.phentsize < 2 ^ 64) {is : List ℕ} (his : ∀ i ∈ is, i < f.phnum) :
    (∀ a ∈ f.headersTouched K id is st, a.Inside f) ↔
      f.Unwrapped K id ((is.map f.phdr).filter Phdr.load) st := by
  induction is generalizing st with
  | nil => exact iff_of_true (forall_mem_nil _) trivial
  | cons i is ih =>
    obtain ⟨hi, his⟩ := forall_mem_cons.mp his
    have hread : ∀ k len, k + len ≤ 56 → (f.reads i k len).Inside f :=
      fun k len => inside_reads hf hwrap hi
    rw [headersTouched, forall_mem_cons, and_iff_right (hread 0 4 (by decide)), map_cons,
      filter_cons]
    split
    · have hchecked : ∀ a ∈ f.checked i, a.Inside f := by
        dsimp only [checked]
        split_ifs <;> simp [hread]
      rw [forall_mem_append, forall_mem_append, and_iff_right hchecked, inside_segment_iff hlt,
        Unwrapped]
      refine and_congr_right fun _ => ?_
      split
      · next st' hload =>
        rw [ih his]
        refine ⟨fun h st'' heq => ?_, fun h => h st' hload⟩
        rw [hload] at heq
        cases heq
        exact h
      · next hload => exact iff_of_true (forall_mem_nil _) fun st' heq => absurd heq (hload st')
    · exact ih his

/-- **The loader stays in the file** exactly if the file is refused, or the tables of the process
cannot be made, or neither the end of the program headers nor the end of a segment that gets a
page wraps round. The pages that it maps are in the user's range in any case. -/
theorem elf_in_file_iff (K : Kernel) (f : ElfFile) (id : ℕ) (st : Loader) (hlt : f.size < 2 ^ 63) :
    (∀ a ∈ f.touched K id st, a.Inside f) ↔
      (f.validateElf = true → ∀ space, st.space.exec K (.create id) = some space →
        f.phoff + f.phnum * f.phentsize < 2 ^ 64 ∧
          f.Unwrapped K id f.segments ⟨space, st.mem, []⟩) := by
  have hhead : ∀ a ∈ if 64 ≤ f.size ∧ f.executable then [ElfAccess.read 0 64] else [],
      a.Inside f := by
    split
    · next hsize =>
      refine forall_mem_singleton.mpr fun j hj => ?_
      have hsize := hsize.1
      omega
    · exact forall_mem_nil _
  rw [ElfFile.touched, forall_mem_append, and_iff_right hhead]
  split
  · next hf =>
    split
    · next space hspace =>
      by_cases hwrap : f.phoff + f.phnum * f.phentsize < 2 ^ 64
      · rw [ElfFile.inside_headersTouched_iff hf hlt hwrap fun i hi => mem_range.mp hi]
        refine ⟨fun h _ space' heq => ⟨hwrap, ?_⟩, fun h => (h hf space hspace).2⟩
        rw [hspace] at heq
        cases heq
        exact h
      · refine iff_of_false (fun h => ?_) fun h => hwrap (h hf space hspace).1
        obtain ⟨n, hn⟩ := Nat.exists_eq_succ_of_ne_zero (ElfFile.headers_of_validateElf hf).2.1
        rw [hn, range_succ_eq_map, ElfFile.headersTouched] at h
        exact ElfFile.not_inside_reads hf hlt (Nat.le_of_not_lt hwrap) (h _ mem_cons_self)
    · next hnone =>
      refine iff_of_true (forall_mem_nil _) fun _ space heq => ?_
      rw [hnone] at heq
      cases heq
  · next hf => exact iff_of_true (forall_mem_nil _) fun h => absurd h hf

end Touched

/-! ### A file with two segments -/

open Foundation

/-- A program header for four bytes at an offset. -/
def phdrBytes (offset vaddr : ℕ) : List UInt8 :=
  leBytes 4 1 ++ leBytes 4 6 ++ leBytes 8 offset ++ leBytes 8 vaddr ++ leBytes 8 vaddr ++
    leBytes 8 4 ++ leBytes 8 4 ++ leBytes 8 4096

theorem twoSegments_size : 184 < 2 ^ 64 := by decide

/-- Four bytes at the start of the user's range and four in the page behind it. The two program
headers are at an offset. -/
def twoSegments (phoff : ℕ) : ElfFile :=
  ⟨fun o => ([0x7f, 0x45, 0x4c, 0x46, 2, 1, 1, 0, 0, 0, 0, 0, 0, 0, 0, 0] ++ leBytes 2 2 ++
    leBytes 2 183 ++ leBytes 4 1 ++ leBytes 8 0x41000000 ++ leBytes 8 phoff ++ leBytes 8 0 ++
    leBytes 4 0 ++ leBytes 2 64 ++ leBytes 2 56 ++ leBytes 2 2 ++ leBytes 6 0 ++
    phdrBytes 176 0x41000000 ++ phdrBytes 180 0x41001000 ++
    [0x11, 0x22, 0x33, 0x44, 0x55, 0x66, 0x77, 0x88]).getD o 0, 184, true, twoSegments_size⟩

/-- The result at a file whose headers are where they should be. -/
theorem elf_in_file_twoSegments : ∃ s ∈ bootSpace sample, (twoSegments 64).validateElf = true ∧
    ∀ a ∈ (twoSegments 64).touched sample 0 ⟨s, fun _ => 0, []⟩, a.Inside (twoSegments 64) := by
  obtain ⟨s, hs, hf⟩ : ∃ s ∈ bootSpace sample, (twoSegments 64).validateElf = true := by
    decide +kernel
  refine ⟨s, hs, hf, (elf_in_file_iff sample _ 0 _ (by decide)).mpr fun _ _ _ => ⟨?_, ?_⟩⟩
  · decide +kernel
  · exact ElfFile.unwrapped_of_forall (by decide +kernel)

/-- **Headers far behind the file are read**: the end of the headers wraps round to zero. -/
theorem far_headers_read : ∃ s ∈ bootSpace sample,
    .read (2 ^ 64 - 112) 4 ∈ (twoSegments (2 ^ 64 - 112)).touched sample 0 ⟨s, fun _ => 0, []⟩ ∧
      (twoSegments (2 ^ 64 - 112)).size = 184 := by
  decide +kernel

end Xaios.Mm
