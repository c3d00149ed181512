import Mathlib.Algebra.Ring.Nat
import Mathlib.Tactic.Common

/-!
# Descriptors

The words of the page tables of `arch/aarch64/mmu.c`: how addresses and access rights are
put into a descriptor and read out of it again.

Addresses survive (`Mm.tableAddr_tableDescriptor`, `Mm.tableAddr_pageDescriptor`).
Rights survive only without the right to execute: the macros `PTE_PXN` and `PTE_UXN` are not
in parentheses, so `~PTE_UXN` is `~1 << 54`, and clearing the bit clears all attributes. What
is read back is then writable and for the kernel only
(`Mm.descriptorToFlags_pageDescriptor`).
-/

namespace Xaios.Mm

/-- A word of a table. -/
abbrev Word : Type := BitVec 64

/-- `PTE_VALID` and the other bits of a descriptor. -/
def pteValid : Word := 0x1

@[inherit_doc pteValid] def pteTable : Word := 0x2

@[inherit_doc pteValid] def pteAttrDevice : Word := 0x4

@[inherit_doc pteValid] def pteApEl0 : Word := 0x40

@[inherit_doc pteValid] def pteApRo : Word := 0x80

@[inherit_doc pteValid] def pteShInner : Word := 0x300

@[inherit_doc pteValid] def pteAf : Word := 0x400

@[inherit_doc pteValid] def pteNg : Word := 0x800

@[inherit_doc pteValid] def ptePxn : Word := 1 <<< 53

@[inherit_doc pteValid] def pteUxn : Word := 1 <<< 54

/-- `~PTE_PXN` as the compiler reads it, `~UINT64_C(1) << 53`. -/
def notPtePxn : Word := ~~~(1 : Word) <<< 53

/-- `~PTE_UXN` as the compiler reads it, `~UINT64_C(1) << 54`. -/
def notPteUxn : Word := ~~~(1 : Word) <<< 54

/-- `PTE_ADDR_MASK`. -/
def pteAddrMask : Word := 0x0000fffffffff000

/-- `PTE_BLOCK_L2_ADDR_MASK`. -/
def pteBlockL2AddrMask : Word := 0x0000ffffffe00000

/-- The flags of a mapping. -/
abbrev Flags : Type := BitVec 32

/-- `XAIOS_VMM_PRESENT` and the other flags. -/
def vmmPresent : Flags := 0x1

@[inherit_doc vmmPresent] def vmmWritable : Flags := 0x2

@[inherit_doc vmmPresent] def vmmExecutable : Flags := 0x4

@[inherit_doc vmmPresent] def vmmDevice : Flags := 0x8

@[inherit_doc vmmPresent] def vmmUser : Flags := 0x10

@[inherit_doc vmmPresent] def vmmNg : Flags := 0x20

/-! ### Writing -/

/-- `table_descriptor`. -/
def tableDescriptor (table : ℕ) : Word :=
  (BitVec.ofNat 64 table &&& pteAddrMask) ||| pteValid ||| pteTable

/-- `page_descriptor`. -/
def pageDescriptor (physicalAddress : ℕ) (attrs : Word) : Word :=
  (BitVec.ofNat 64 physicalAddress &&& pteAddrMask) ||| attrs ||| pteValid ||| pteTable ||| pteAf

/-- `block_descriptor`. -/
def blockDescriptor (physicalAddress : ℕ) (attrs : Word) : Word :=
  (BitVec.ofNat 64 physicalAddress &&& pteBlockL2AddrMask) ||| attrs ||| pteValid ||| pteAf

/-- `normal_rw_nx_attrs`. -/
def normalRwNxAttrs : Word := pteShInner ||| ptePxn ||| pteUxn

/-- `device_rw_nx_attrs`. -/
def deviceRwNxAttrs : Word := pteAttrDevice ||| ptePxn ||| pteUxn

/-- `normal_ro_nx_attrs`. -/
def normalRoNxAttrs : Word := pteShInner ||| pteApRo ||| ptePxn ||| pteUxn

/-- `normal_rx_attrs`. -/
def normalRxAttrs : Word := pteShInner ||| pteUxn

/-- `user_rx_attrs`. -/
def userRxAttrs : Word := pteShInner ||| pteApEl0 ||| ptePxn

/-- `user_ro_nx_attrs`. -/
def userRoNxAttrs : Word := pteShInner ||| pteApEl0 ||| pteApRo ||| ptePxn ||| pteUxn

/-- `user_rw_nx_attrs`. -/
def userRwNxAttrs : Word := pteShInner ||| pteApEl0 ||| ptePxn ||| pteUxn

/-- `attrs_from_flags`. -/
def attrsFromFlags (flags : Flags) : Word :=
  let attrs := if flags &&& vmmDevice ≠ 0 then deviceRwNxAttrs else normalRwNxAttrs
  let attrs := if flags &&& vmmUser ≠ 0 then attrs ||| pteApEl0 ||| pteNg else attrs
  let attrs := if flags &&& vmmWritable = 0 then attrs ||| pteApRo else attrs
  let attrs := if flags &&& vmmExecutable ≠ 0 then attrs &&& notPteUxn else attrs
  if flags &&& vmmUser = 0 ∧ flags &&& vmmExecutable ≠ 0 then attrs &&& notPtePxn else attrs

/-! ### Reading -/

/-- A descriptor with both `PTE_VALID` and `PTE_TABLE`. -/
def isTable (d : Word) : Bool := d &&& (pteValid ||| pteTable) == (pteValid ||| pteTable)

/-- A descriptor with `PTE_VALID`. -/
def isValid (d : Word) : Bool := d &&& pteValid != 0

/-- The address of a table or a page in a descriptor. -/
def tableAddr (d : Word) : ℕ := (d &&& pteAddrMask).toNat

/-- `descriptor_to_flags`, for an address in the window of the devices or not. -/
def descriptorToFlags (mmio : Bool) (d : Word) : Option Flags :=
  if !isValid d then none
  else
    let out := vmmPresent
    let out := if (d >>> 2) &&& 7 = 1 then out ||| vmmDevice else out
    let out := if mmio then out ||| vmmDevice else out
    let out := if d &&& pteApRo = 0 then out ||| vmmWritable else out
    let out := if d &&& ptePxn = 0 then out ||| vmmExecutable else out
    some (if d &&& pteApEl0 ≠ 0 then out ||| vmmUser else out)

/-! ### What is read is what was written -/

/-- An address of a page that fits into a descriptor. -/
structure GoodPage (p : ℕ) : Prop where
  aligned : p % 4096 = 0
  bounded : p < 2 ^ 48

theorem and_pteAddrMask {p : ℕ} (h : GoodPage p) :
    BitVec.ofNat 64 p &&& pteAddrMask = BitVec.ofNat 64 p := by
  obtain ⟨k, rfl⟩ : ∃ k, p = 2 ^ 12 * k := ⟨p / 4096, by have := h.aligned; omega⟩
  have hk : k < 2 ^ 36 := by have := h.bounded; omega
  apply BitVec.eq_of_getLsbD_eq
  intro i hi
  have hmask : pteAddrMask.getLsbD i = (decide (12 ≤ i) && decide (i < 48)) := by
    revert i
    decide
  rw [BitVec.getLsbD_and, hmask, BitVec.getLsbD_ofNat, Nat.testBit_two_pow_mul]
  by_cases hlow : 12 ≤ i
  · by_cases hhigh : i < 48
    · rw [decide_eq_true hlow, decide_eq_true hhigh, Bool.and_true, Bool.and_true]
    · have hbit : k.testBit (i - 12) = false :=
        Nat.testBit_lt_two_pow (Nat.lt_of_lt_of_le hk (Nat.pow_le_pow_right (by decide) (by omega)))
      rw [hbit, Bool.and_false, Bool.and_false, Bool.false_and]
  · rw [decide_eq_false hlow, Bool.false_and, Bool.and_false, Bool.false_and]

theorem toNat_ofNat_goodPage {p : ℕ} (h : GoodPage p) : (BitVec.ofNat 64 p).toNat = p := by
  have hlt := h.bounded
  rw [BitVec.toNat_ofNat]
  exact Nat.mod_eq_of_lt (by omega)

section Masks

variable {x y b m : Word}

theorem or_and_eq_right (h : x &&& m = 0#64) : (x ||| b) &&& m = b &&& m := by
  rw [BitVec.and_or_distrib_right, h, BitVec.zero_or]

theorem or_and_eq_left (h : b &&& m = 0#64) : (x ||| b) &&& m = x &&& m := by
  rw [BitVec.and_or_distrib_right, h, BitVec.or_zero]

/-- An address has no bits outside of its mask. -/
theorem and_pteAddrMask_and (y : Word) (h : pteAddrMask &&& m = 0#64) :
    y &&& pteAddrMask &&& m = 0#64 := by
  rw [BitVec.and_assoc, h, BitVec.and_zero]

end Masks

theorem tableDescriptor_and (t : ℕ) {m : Word} (h : pteAddrMask &&& m = 0#64) :
    tableDescriptor t &&& m = (pteValid ||| pteTable) &&& m := by
  rw [tableDescriptor, BitVec.or_assoc, or_and_eq_right (and_pteAddrMask_and _ h)]

theorem pageDescriptor_eq (p : ℕ) (attrs : Word) : pageDescriptor p attrs =
    (BitVec.ofNat 64 p &&& pteAddrMask) ||| (attrs ||| pteValid ||| pteTable ||| pteAf) := by
  rw [pageDescriptor, BitVec.or_assoc, BitVec.or_assoc, BitVec.or_assoc, BitVec.or_assoc,
    BitVec.or_assoc]

theorem pageDescriptor_and (p : ℕ) (attrs : Word) {m : Word} (h : pteAddrMask &&& m = 0#64) :
    pageDescriptor p attrs &&& m = (attrs ||| pteValid ||| pteTable ||| pteAf) &&& m := by
  rw [pageDescriptor_eq, or_and_eq_right (and_pteAddrMask_and _ h)]

theorem isTable_tableDescriptor (t : ℕ) : isTable (tableDescriptor t) = true := by
  rw [isTable, tableDescriptor_and t rfl]
  rfl

/-- **A table is found where its descriptor points.** -/
theorem tableAddr_tableDescriptor {t : ℕ} (h : GoodPage t) : tableAddr (tableDescriptor t) = t := by
  rw [tableAddr, tableDescriptor, BitVec.or_assoc, or_and_eq_left rfl, BitVec.and_assoc,
    BitVec.and_self, and_pteAddrMask h, toNat_ofNat_goodPage h]

theorem isValid_pageDescriptor (p : ℕ) (attrs : Word) :
    isValid (pageDescriptor p attrs) = true := by
  rw [isValid, pageDescriptor_and p attrs rfl, bne_iff_ne]
  intro hzero
  have hbit := congrArg (BitVec.getLsbD · 0) hzero
  simp [pteValid] at hbit

/-- The attributes leave the address alone. -/
theorem attrsFromFlags_and (flags : Flags) : attrsFromFlags flags &&& pteAddrMask = 0#64 := by
  unfold attrsFromFlags
  split_ifs <;> rfl

/-- **A page is found where its descriptor points.** -/
theorem tableAddr_pageDescriptor {p : ℕ} (h : GoodPage p) {attrs : Word}
    (hattrs : attrs &&& pteAddrMask = 0#64) : tableAddr (pageDescriptor p attrs) = p := by
  have hbits : (attrs ||| pteValid ||| pteTable ||| pteAf) &&& pteAddrMask = 0#64 := by
    rw [or_and_eq_left rfl, or_and_eq_left rfl, or_and_eq_left rfl, hattrs]
  rw [tableAddr, pageDescriptor_eq, or_and_eq_left hbits, BitVec.and_assoc, BitVec.and_self,
    and_pteAddrMask h, toNat_ofNat_goodPage h]

theorem exists_flags {d : Word} (mmio : Bool) (h : isValid d = true) :
    ∃ flags, descriptorToFlags mmio d = some flags := by
  rw [descriptorToFlags, h]
  exact ⟨_, rfl⟩

/-! ### The identity mapping -/

/-- The descriptor of a block of the identity mapping, by the number of the block. -/
def identityBlock (k : ℕ) : Word := blockDescriptor (k * 2 ^ 21) normalRwNxAttrs

/-- The descriptor leads to a page. -/
structure LeadsTo (d : Word) (p : ℕ) : Prop where
  valid : isValid d = true
  addr : tableAddr d = p

theorem leadsTo_pageDescriptor {p : ℕ} (h : GoodPage p) {attrs : Word}
    (hattrs : attrs &&& pteAddrMask = 0#64) : LeadsTo (pageDescriptor p attrs) p :=
  ⟨isValid_pageDescriptor p attrs, tableAddr_pageDescriptor h hattrs⟩

/-- The bits of the blocks below 4 GiB. -/
theorem identityBlock_bits {k : ℕ} (hk : k < 2048) :
    (identityBlock k &&& pteBlockL2AddrMask).toNat = k * 2 ^ 21 ∧
      isValid (identityBlock k) = true ∧ identityBlock k &&& pteTable = 0 ∧
      isTable (identityBlock k) = false ∧
      identityBlock k &&& ~~~pteBlockL2AddrMask &&& pteAddrMask = 0#64 := by
  have hall : ∀ k : Fin 2048, (identityBlock k &&& pteBlockL2AddrMask).toNat = k * 2 ^ 21 ∧
      isValid (identityBlock k) = true ∧ identityBlock k &&& pteTable = 0 ∧
      isTable (identityBlock k) = false ∧
      identityBlock k &&& ~~~pteBlockL2AddrMask &&& pteAddrMask = 0#64 := by
    decide +kernel
  exact hall ⟨k, hk⟩

/-- The flags do not depend on the address. -/
theorem descriptorToFlags_congr (mmio : Bool) (p : ℕ) (attrs : Word) :
    descriptorToFlags mmio (pageDescriptor p attrs) =
      descriptorToFlags mmio (attrs ||| pteValid ||| pteTable ||| pteAf) := by
  have hindex : ∀ d : Word, (d >>> 2) &&& (7 : Word) = (d &&& (0x1c : Word)) >>> 2 := by
    intro d
    rw [BitVec.ushiftRight_and_distrib]
    rfl
  rw [descriptorToFlags, descriptorToFlags, isValid, isValid, hindex, hindex,
    pageDescriptor_and p attrs rfl, pageDescriptor_and p attrs rfl, pageDescriptor_and p attrs rfl,
    pageDescriptor_and p attrs rfl, pageDescriptor_and p attrs rfl]

/-- The flags of a mapping: present, and any of writable, executable, device and user. -/
structure MappingFlags (flags : Flags) : Prop where
  present : flags &&& vmmPresent ≠ 0
  known : flags < 32

/-- **What is read back**: the flags themselves, but after a request for the right to
execute a page that is writable and executable for the kernel. -/
theorem descriptorToFlags_pageDescriptor {flags : Flags} (h : MappingFlags flags) (p : ℕ) :
    descriptorToFlags false (pageDescriptor p (attrsFromFlags flags)) =
      some (if flags &&& vmmExecutable = 0 then flags
        else vmmPresent ||| vmmWritable ||| vmmExecutable) := by
  rw [descriptorToFlags_congr]
  obtain ⟨hpresent, hknown⟩ := h
  have hall : ∀ k : Fin 32, BitVec.ofNat 32 k &&& vmmPresent ≠ 0 →
      descriptorToFlags false (attrsFromFlags (BitVec.ofNat 32 k) ||| pteValid ||| pteTable |||
        pteAf) = some (if BitVec.ofNat 32 k &&& vmmExecutable = 0 then BitVec.ofNat 32 k
          else vmmPresent ||| vmmWritable ||| vmmExecutable) := by
    decide +kernel
  have hofNat : BitVec.ofNat 32 flags.toNat = flags := by
    rw [BitVec.ofNat_toNat, BitVec.setWidth_eq]
  have hk := hall ⟨flags.toNat, hknown⟩
  rw [hofNat] at hk
  exact hk hpresent

/-- The flags come back exactly if the page is not executable, or writable and for the
kernel. -/
theorem descriptorToFlags_pageDescriptor_eq_iff {flags : Flags} (h : MappingFlags flags) (p : ℕ) :
    descriptorToFlags false (pageDescriptor p (attrsFromFlags flags)) = some flags ↔
      flags &&& vmmExecutable = 0 ∨ flags = vmmPresent ||| vmmWritable ||| vmmExecutable := by
  rw [descriptorToFlags_pageDescriptor h]
  split
  · next hx => exact iff_of_true rfl (.inl hx)
  · next hx => rw [Option.some_inj, or_iff_right hx, eq_comm]

end Xaios.Mm
