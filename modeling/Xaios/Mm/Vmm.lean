import Xaios.Mm.Descriptor
import Xaios.Mm.Pmm
import Xaios.Status

/-!
# Virtual memory

The page tables of `arch/aarch64/mmu.c`: how `vmm_init` builds them, the walk of
`vmm_translate`, the mapping of pages with the tables it may have to allocate and the blocks
it may have to split, and the tables of the processes.

Tables are named by their physical address, at which the kernel reaches them. A table is
its 512 words; what else is in memory is not part of the state. `kassert` stops the kernel,
so functions that contain one answer `none` when it fails.
-/

namespace Xaios.Mm

open Function List

/-! ### The kernel image -/

/-- The sections of the image, from the symbols of the linker script. -/
structure Sections where
  text : ℕ × ℕ
  rodata : ℕ × ℕ
  data : ℕ × ℕ
  bss : ℕ × ℕ
  userText : ℕ × ℕ
  userRodata : ℕ × ℕ
  userStack : ℕ × ℕ

/-- The static tables, one page each: `g_l0_table`, `g_l1_table`, `g_l2_tables` and
`g_kernel_l3_tables`. -/
def staticTables (l0 l1 l2 l3 : ℕ) : List ℕ :=
  l0 :: l1 :: ((range 4).map fun i => l2 + i * 4096) ++
    (range 16).map fun i => l3 + i * 4096

/-- The kernel with what the firmware handed over. The static tables are different pages of
the image, the image is below 4 GiB, and the serial port is where level 1 can map it. -/
structure Kernel where
  boot : BootInfo
  sections : Sections
  l0Table : ℕ
  l1Table : ℕ
  l2Tables : ℕ
  l3Tables : ℕ
  nodup : (staticTables l0Table l1Table l2Tables l3Tables).Nodup
  aligned : ∀ t ∈ staticTables l0Table l1Table l2Tables l3Tables, t % 4096 = 0
  inImage : ∀ t ∈ staticTables l0Table l1Table l2Tables l3Tables,
    boot.kernelPhysBase ≤ t ∧ t + 4096 ≤ boot.kernelPhysEnd
  low : boot.kernelPhysEnd ≤ 2 ^ 32
  uart : boot.uartBase < 2 ^ 38

namespace Kernel

variable (K : Kernel)

/-- `g_l2_tables[i]`. -/
def l2Table (i : ℕ) : ℕ := K.l2Tables + i * 4096

/-- `g_kernel_l3_tables[i]`. -/
def l3Table (i : ℕ) : ℕ := K.l3Tables + i * 4096

/-- `kernel_page_attrs`. -/
def pageAttrs (address : ℕ) : Word :=
  let touches := fun r : ℕ × ℕ => overlaps address (address + 4096) r.1 r.2
  let inside := fun r : ℕ × ℕ => decide (r.1 ≤ address) && decide (address < r.2)
  if touches K.sections.userText then userRxAttrs
  else if touches K.sections.userRodata then userRoNxAttrs
  else if touches K.sections.userStack then userRwNxAttrs
  else if inside K.sections.text then normalRxAttrs
  else if inside K.sections.rodata then normalRoNxAttrs
  else if inside K.sections.data || inside K.sections.bss then normalRwNxAttrs
  else normalRwNxAttrs

end Kernel

/-! ### The first tables -/

/-- The words of all tables, by the address of the table and the index. -/
abbrev Tables : Type := ℕ → ℕ → Word

/-- `map_identity_l2_blocks`: the entries of the static tables of level 2 for the blocks from
`start` below `stop`. The loop stops the kernel at a block above the four tables. -/
def mapIdentityL2Blocks (K : Kernel) (start stop : ℕ) (attrs : Word) (table : Tables) :
    Option Tables :=
  if 2 ^ 32 < stop then none
  else some fun t i =>
    match (range 4).find? fun j => K.l2Table j == t with
    | none => table t i
    | some j =>
      let address := j * 2 ^ 30 + i * 2 ^ 21
      if i < 512 ∧ start ≤ address ∧ address < stop then blockDescriptor address attrs
      else table t i

/-- `map_kernel_pages`: the blocks of the image get tables of level 3, in their order. -/
def mapKernelPages (K : Kernel) (start stop : ℕ) (table : Tables) : Option Tables :=
  let tableStart := start / 2 ^ 21 * 2 ^ 21
  let count := ((stop + (2 ^ 21 - 1)) / 2 ^ 21 * 2 ^ 21 - tableStart) / 2 ^ 21
  if 16 < count then none
  else some fun t i =>
    match (range 4).find? fun j => K.l2Table j == t with
    | some j =>
      let address := j * 2 ^ 30 + i * 2 ^ 21
      if i < 512 ∧ tableStart ≤ address ∧ address < tableStart + count * 2 ^ 21 then
        tableDescriptor (K.l3Table ((address - tableStart) / 2 ^ 21))
      else table t i
    | none =>
      match (range count).find? fun k => K.l3Table k == t with
      | some k =>
        let address := tableStart + k * 2 ^ 21 + i * 4096
        if i < 512 then pageDescriptor address (K.pageAttrs address) else table t i
      | none => table t i

/-- The tables before any block is mapped. -/
def rootTables (K : Kernel) : Tables := fun t i =>
  if t = K.l0Table then if i = 0 then tableDescriptor K.l1Table else 0
  else if t = K.l1Table then if i < 4 then tableDescriptor (K.l2Table i) else 0
  else 0

/-- The state of virtual memory: the tables and the window of the devices, and the allocator
below. -/
structure Vmm where
  pmm : Pmm
  table : Tables
  mmioStart : ℕ
  mmioEnd : ℕ

/-- `build_tables`. -/
def buildTables (K : Kernel) (pmm : Pmm) : Option Vmm := do
  let mmioStart := K.boot.uartBase / 2 ^ 21 * 2 ^ 21
  let mmioEnd := (K.boot.uartBase + 4096 + (2 ^ 21 - 1)) / 2 ^ 21 * 2 ^ 21
  let table ← mapIdentityL2Blocks K 0 (2 ^ 32) normalRwNxAttrs (rootTables K)
  let table ← mapIdentityL2Blocks K mmioStart mmioEnd normalRwNxAttrs table
  let table ← mapKernelPages K K.boot.kernelPhysBase K.boot.kernelPhysEnd table
  return ⟨pmm, table, mmioStart, mmioEnd⟩

/-! ### The walk -/

/-- The indices of a virtual address. -/
def l0Index (va : ℕ) : ℕ := va / 2 ^ 39 % 512

@[inherit_doc l0Index] def l1Index (va : ℕ) : ℕ := va / 2 ^ 30 % 512

@[inherit_doc l0Index] def l2Index (va : ℕ) : ℕ := va / 2 ^ 21 % 512

@[inherit_doc l0Index] def l3Index (va : ℕ) : ℕ := va / 2 ^ 12 % 512

namespace Vmm

variable (K : Kernel) (s : Vmm)

/-- The window of the devices. -/
def inMmio (va : ℕ) : Bool := decide (s.mmioStart ≤ va) && decide (va < s.mmioEnd)

/-- The flags of a descriptor with the address it leads to. -/
def found (va physical : ℕ) (d : Word) : Option (ℕ × Flags) :=
  (descriptorToFlags (s.inMmio va) d).map fun flags => (physical, flags)

/-- `vmm_translate`: the physical address and the flags. -/
def translate (va : ℕ) : Option (ℕ × Flags) :=
  let l0Desc := s.table K.l0Table (l0Index va)
  if !isTable l0Desc then none
  else
    let l1Desc := s.table (tableAddr l0Desc) (l1Index va)
    if !isTable l1Desc then none
    else
      let l2Desc := s.table (tableAddr l1Desc) (l2Index va)
      if !isValid l2Desc then none
      else if l2Desc &&& pteTable = 0 then
        s.found va ((l2Desc &&& pteBlockL2AddrMask).toNat + va % 2 ^ 21) l2Desc
      else
        let l3Desc := s.table (tableAddr l2Desc) (l3Index va)
        if !isValid l3Desc then none else s.found va (tableAddr l3Desc + va % 4096) l3Desc

/-! ### Mapping -/

/-- A word of a table is written. -/
def write (t i : ℕ) (w : Word) : Vmm :=
  { s with table := update s.table t (update (s.table t) i w) }

/-- A page for a table, all zero. Without a page the kernel stops. -/
def allocTable : Option (ℕ × Vmm) :=
  let r := s.pmm.allocPage
  if r.1 = 0 then none
  else some (r.1, { s with pmm := r.2, table := update s.table r.1 fun _ => 0 })

/-- The first part of `ensure_l3_table`: there is a table of level 2. -/
def ensureL2Table (va : ℕ) : Option Vmm :=
  if isTable (s.table K.l1Table (l1Index va)) then some s
  else do
    let (l2, s) ← s.allocTable
    return s.write K.l1Table (l1Index va) (tableDescriptor l2)

/-- The pages of a block in a table of level 3. -/
def splitBlock (l3 : ℕ) (d : Word) : Vmm :=
  let base := (d &&& pteBlockL2AddrMask).toNat
  { s with table := update s.table l3 fun i =>
      pageDescriptor (base + i * 4096) (d &&& ~~~pteBlockL2AddrMask) }

/-- The second part of `ensure_l3_table`: there is a table of level 3, with what the block
had mapped if there was one. -/
def ensureL3In (l2 va : ℕ) : Option (ℕ × Vmm) :=
  let d := s.table l2 (l2Index va)
  if isTable d then some (tableAddr d, s)
  else do
    let (l3, s) ← s.allocTable
    let s := if isValid d && d &&& pteTable == 0 then s.splitBlock l3 d else s
    return (l3, s.write l2 (l2Index va) (tableDescriptor l3))

/-- `ensure_l3_table`. -/
def ensureL3Table (va : ℕ) : Option (ℕ × Vmm) :=
  if l0Index va ≠ 0 then none
  else do
    let s ← s.ensureL2Table K va
    s.ensureL3In (tableAddr (s.table K.l1Table (l1Index va))) va

/-- `vmm_map_page`. -/
def mapPage (va pa : ℕ) (flags : Flags) : Option (Status × Vmm) :=
  if va % 4096 ≠ 0 ∨ pa % 4096 ≠ 0 ∨ flags &&& vmmPresent = 0 then some (.invalid, s)
  else do
    let (l3, s) ← s.ensureL3Table K va
    return (.ok, s.write l3 (l3Index va) (pageDescriptor pa (attrsFromFlags flags)))

/-- `vmm_unmap_page`. -/
def unmapPage (va : ℕ) : Option (Status × Vmm) :=
  if va % 4096 ≠ 0 then some (.invalid, s)
  else do
    let (l3, s) ← s.ensureL3Table K va
    return (.ok, s.write l3 (l3Index va) 0)

/-! ### Address spaces of processes -/

/-- `XAIOS_USER_BASE`. -/
def userBase : ℕ := 0x41000000

/-- `XAIOS_USER_LIMIT`. -/
def userLimit : ℕ := 0x50000000

/-- `XAIOS_USER_STACK_TOP`. -/
def userStackTop : ℕ := 0x4f000000

/-- `vmm_create_user_aspace`: the entries of `l3_tables` below the count. -/
def createUserAspace : Option (List ℕ × Vmm) := do
  let (code, s) ← s.allocTable
  let (stack, s) ← s.allocTable
  return ([code, stack], s)

/-- Which of its tables a process uses for an address. -/
def l3Slot (va : ℕ) : ℕ := if userStackTop - 3 * 4096 ≤ va then 1 else 0

/-- `vmm_map_user_page`. -/
def mapUserPage (va pa : ℕ) (flags : Flags) (l3Tables : List ℕ) : Option (Status × Vmm) :=
  if va % 4096 ≠ 0 ∨ pa % 4096 ≠ 0 ∨ flags &&& vmmPresent = 0 then some (.invalid, s)
  else if va < userBase ∨ userLimit ≤ va then some (.invalid, s)
  else if l2Index va ≠ 8 then some (.invalid, s)
  else
    let l3 := l3Tables.getD (l3Slot va) 0
    if l3 = 0 then some (.invalid, s)
    else do
      let s := s.write l3 (l3Index va) (pageDescriptor pa (attrsFromFlags flags))
      -- the answer of `vmm_map_page` is not looked at
      let (_, s) ← s.mapPage K va pa flags
      return (.ok, s)

/-- `vmm_unmap_user_page`. -/
def unmapUserPage (va : ℕ) (l3Tables : List ℕ) : Option (Status × Vmm) :=
  if va % 4096 ≠ 0 then some (.invalid, s)
  else do
    let l3 := l3Tables.getD (l3Slot va) 0
    let s := if l3 = 0 then s else s.write l3 (l3Index va) 0
    let (_, s) ← s.unmapPage K va
    return (.ok, s)

/-- The entries of level 2 for the tables of a process. -/
def install (l2 : ℕ) : List ℕ → ℕ → Vmm → Vmm
  | [], _, s => s
  | t :: ts, i, s => install l2 ts (i + 1) (if t = 0 then s else s.write l2 i (tableDescriptor t))

/-- `vmm_switch_user_aspace`; no tables stand for no process. -/
def switchUserAspace (l3Tables : List ℕ) : Vmm :=
  let l0Desc := s.table K.l0Table (l0Index userBase)
  if !isTable l0Desc then s
  else
    let l1Desc := s.table (tableAddr l0Desc) (l1Index userBase)
    if !isTable l1Desc then s
    else
      let l2 := tableAddr l1Desc
      match l3Tables with
      | [] => (s.write l2 (l2Index userBase) 0).write l2 (l2Index userBase + 1) 0
      | ts => install l2 (ts.take 2) (l2Index userBase) s

/-- `vmm_destroy_user_aspace`. -/
def destroyUserAspace (l3Tables : List ℕ) : Vmm :=
  { s with pmm := l3Tables.foldl (fun pmm t => if t = 0 then pmm else pmm.freePage t) s.pmm }

/-! ### Buffers of processes -/

/-- What `vmm_validate_user_buffer` asks of a page. -/
def grants (required : Flags) (page : ℕ) : Bool :=
  (s.translate K page).any fun r => r.2 &&& vmmUser != 0 && r.2 &&& required == required

/-- `vmm_validate_user_buffer`, at numbers of 64 bits. -/
def validateUserBuffer (va size : ℕ) (required : Flags) : Status :=
  let stop := (va + size) % 2 ^ 64
  if size = 0 ∨ va < userBase ∨ stop < va ∨ userLimit < stop then .invalid
  else
    let pages := (range ((alignUp stop - alignDown va) / 4096)).map (alignDown va + · * 4096)
    if pages.all (s.grants K required) then .ok else .invalid

end Vmm

/-- `vmm_init` on the allocator as `pmm_init` left it: the tables are built, and page zero is
mapped without the right to write. -/
def vmmInit (K : Kernel) (pmm : Pmm) : Option Vmm := do
  let s ← buildTables K pmm
  let (_, s) ← s.mapPage K 0 0 vmmPresent
  return s

end Xaios.Mm
