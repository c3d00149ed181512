import Xaios.Foundation.Codec
import Xaios.Mm.Translate

/-!
# The loader of programs

`mm/elf_loader.c`: the header of an ELF64 file is checked, and the segments to be loaded are
put into fresh pages one page after the other, which are mapped in the address space of the
process.

The file is given by its bytes from the base on. Offsets are numbers of 64 bits, and the
sums in the checks wrap round as in the source. The two loops over bytes are told by what
they leave.
-/

namespace Xaios.Mm

open Foundation List

/-! ### Files -/

/-- `xaios_initramfs_file_t`, as far as the loader reads it; the bytes are by their offset
from the base. -/
structure ElfFile where
  byte : ℕ → UInt8
  size : ℕ
  executable : Bool
  size_lt : size < 2 ^ 64

namespace ElfFile

variable (f : ElfFile)

/-- The byte at an offset, which wraps round. -/
def byteAt (o : ℕ) : UInt8 := f.byte (o % 2 ^ 64)

/-- A field of `n` bytes. -/
def field (n o : ℕ) : ℕ := leNat ((range n).map fun j => f.byteAt (o + j))

end ElfFile

theorem ElfFile.field_lt (f : ElfFile) (n o : ℕ) : f.field n o < 256 ^ n := by
  have hlt := leNat_lt ((range n).map fun j => f.byteAt (o + j))
  rwa [length_map, length_range] at hlt

/-- `elf64_phdr_t`, as far as it is read. -/
structure Phdr where
  type : ℕ
  flags : ℕ
  offset : ℕ
  vaddr : ℕ
  filesz : ℕ
  memsz : ℕ
  offset_lt : offset < 2 ^ 64
  vaddr_lt : vaddr < 2 ^ 64
  filesz_lt : filesz < 2 ^ 64
  memsz_lt : memsz < 2 ^ 64
  deriving DecidableEq

namespace ElfFile

variable (f : ElfFile)

/-- The fields of `elf64_ehdr_t`. -/
def entry : ℕ := f.field 8 24

@[inherit_doc entry] def phoff : ℕ := f.field 8 32

@[inherit_doc entry] def phentsize : ℕ := f.field 2 54

@[inherit_doc entry] def phnum : ℕ := f.field 2 56

/-- A program header. -/
def phdr (i : ℕ) : Phdr :=
  let o := f.phoff + i * f.phentsize
  { type := f.field 4 o
    flags := f.field 4 (o + 4)
    offset := f.field 8 (o + 8)
    vaddr := f.field 8 (o + 16)
    filesz := f.field 8 (o + 32)
    memsz := f.field 8 (o + 40)
    offset_lt := f.field_lt 8 _
    vaddr_lt := f.field_lt 8 _
    filesz_lt := f.field_lt 8 _
    memsz_lt := f.field_lt 8 _ }

/-- `validate_elf`. -/
def validateElf : Bool :=
  decide (64 ≤ f.size) && f.executable &&
    (f.field 4 0 == 0x464c457f && f.field 1 4 == 2 && f.field 1 5 == 1 && f.field 2 16 == 2 &&
      f.field 2 18 == 183 && f.phentsize == 56 && f.phnum != 0 &&
      decide ((f.phoff + f.phnum * f.phentsize) % 2 ^ 64 ≤ f.size)) &&
    (decide (Vmm.userBase ≤ f.entry) && decide (f.entry < Vmm.userLimit))

/-- The program headers in their order. -/
def phdrs : List Phdr := (range f.phnum).map f.phdr

end ElfFile

namespace Phdr

variable (ph : Phdr)

/-- `PT_LOAD`. -/
def load : Bool := ph.type == 1

/-- `vmm_flags_from_phdr`. -/
def vmmFlags : Flags :=
  let flags := vmmPresent ||| vmmUser ||| vmmNg
  let flags := if ph.flags.testBit 1 then flags ||| vmmWritable else flags
  if ph.flags.testBit 0 then flags ||| vmmExecutable else flags

/-- The checks of `load_segment`. -/
def valid (f : ElfFile) : Bool :=
  !(decide (ph.memsz < ph.filesz) || decide (f.size < (ph.offset + ph.filesz) % 2 ^ 64) ||
    decide (ph.vaddr < Vmm.userBase) || decide ((ph.vaddr + ph.memsz) % 2 ^ 64 < ph.vaddr) ||
    decide (Vmm.userLimit < (ph.vaddr + ph.memsz) % 2 ^ 64))

/-- The pages of a segment, in the order of the loop of `load_segment`. -/
def pages : List ℕ :=
  let mapStart := alignDown ph.vaddr
  let mapEnd := alignUp (ph.vaddr + ph.memsz)
  (range ((mapEnd - mapStart) / 4096)).map fun k => mapStart + k * 4096

end Phdr

/-! ### Memory -/

/-- `bytes_zero`. -/
def bytesZero (p size : ℕ) (mem : ℕ → UInt8) : ℕ → UInt8 :=
  fun x => if p ≤ x ∧ x < p + size then 0 else mem x

/-- `bytes_copy`, from a source given by its bytes. -/
def bytesCopy (dst : ℕ) (src : ℕ → UInt8) (size : ℕ) (mem : ℕ → UInt8) : ℕ → UInt8 :=
  fun x => if dst ≤ x ∧ x < dst + size then src (x - dst) else mem x

/-- What a page of a segment is filled with. -/
def Phdr.fill (ph : Phdr) (f : ElfFile) (va page : ℕ) (mem : ℕ → UInt8) : ℕ → UInt8 :=
  let mem := bytesZero page 4096 mem
  let fileEnd := ph.vaddr + ph.filesz
  if va < fileEnd ∧ ph.vaddr < va + 4096 then
    let copyStart := if ph.vaddr < va then va else ph.vaddr
    let copyEnd := if va + 4096 < fileEnd then va + 4096 else fileEnd
    let fileOffset := ph.offset + (copyStart - ph.vaddr)
    bytesCopy (page + (copyStart - va)) (fun i => f.byteAt (fileOffset + i))
      (copyEnd - copyStart) mem
  else mem

/-! ### Loading -/

/-- The kernel at the load of a process: the bytes of memory, and the pages that the process
keeps track of. -/
structure Loader where
  space : Space
  mem : ℕ → UInt8
  pages : List (ℕ × ℕ)

section Load

variable (K : Kernel) (f : ElfFile) (id : ℕ)

/-- One round of the loop of `load_segment`. -/
def loadPage (ph : Phdr) (va : ℕ) (st : Loader) : Option (Status × Loader) := do
  let page := st.space.vmm.pmm.allocPage.1
  let space ← st.space.exec K .alloc
  if page = 0 then return (.noMemory, { st with space := space })
  else
    let mem := ph.fill f va page st.mem
    let (answer, v) ← space.vmm.mapUserPage K va page ph.vmmFlags (space.aspaces id)
    let space := { space with vmm := v }
    if answer ≠ .ok then
      let space ← space.exec K (.free page)
      return (.invalid, ⟨space, mem, st.pages⟩)
    else if 64 ≤ st.pages.length then
      let space ← space.exec K (.free page)
      return (.noMemory, ⟨space, mem, st.pages⟩)
    else return (.ok, ⟨space, mem, st.pages ++ [(va, page)]⟩)

/-- The loop of `load_segment`. -/
def loadPages (ph : Phdr) : List ℕ → Loader → Option (Status × Loader)
  | [], st => some (.ok, st)
  | va :: vas, st => do
    let (answer, st) ← loadPage K f id ph va st
    if answer = .ok then loadPages ph vas st else return (answer, st)

/-- `load_segment`. -/
def loadSegment (ph : Phdr) (st : Loader) : Option (Status × Loader) :=
  if ph.valid f then loadPages K f id ph ph.pages st else some (.invalid, st)

end Load

end Xaios.Mm
