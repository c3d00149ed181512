import Mathlib.Algebra.BigOperators.Group.Finset.Basic
import Mathlib.Data.Int.ModEq
import Mathlib.Tactic.Linarith
import Mathlib.Tactic.Ring
import Xaios.Foundation.Loop

/-!
# The quantised matrix products

The INT8, INT6 and INT4 kernels of `kernel/runtime/ai_kernels.c`. The packed formats are
unpacked into heap memory and then handed to the INT8 kernel, which computes eight columns
at a time, one in each lane of two vectors of sums.

The sums are right whatever the shape (`AiKernels.accumulate_lane`), but not all are
stored: of a group of eight columns the kernel stores lanes 0 to 3 if the group has four
columns, lane 4 if it has five, lane 5 if it has six, and lanes 6 and 7 never. All positions
are written exactly if a row has 4, 5 or 6 columns and the numbers of positions fit the 32-bit
index. What is stored is then the product of the operands as they were unpacked, and the
unpacking leaves out an incomplete last group, lets the sign of a byte of INT6 spread over the
values behind it and, for INT4, keeps the whole byte in place of its low half. So the shape
is necessary for an exact product, and together with complete groups of such bytes it is
sufficient (`AiKernels.matmul_exact`).
-/

namespace Xaios.AiKernels

open Foundation Finset Function

theorem neZero_lanes : NeZero 4 := ⟨Nat.succ_ne_zero 3⟩

attribute [local instance] neZero_lanes

/-- Bytes of an operand, by index. -/
abbrev Bytes := ℕ → Int8

/-- The result, by index. -/
abbrev Words := ℕ → Int32

/-- A vector register. -/
abbrev Vec (n : ℕ) (α : Type) := Fin n → α

/-- `rows_a`, `cols_a` and `cols_b`. -/
structure Shape where
  rowsA : UInt32
  colsA : UInt32
  colsB : UInt32

/-! ### The intrinsics -/

/-- `vld1_s8`: eight bytes from an index on. -/
def vld1S8 (memory : Bytes) (index : ℕ) : Vec 8 Int8 := fun l => memory (index + l)

/-- `vmull_s8`. -/
def vmullS8 (a b : Vec 8 Int8) : Vec 8 Int16 := fun l => (a l).toInt16 * (b l).toInt16

/-- `vaddw_s16` with `vget_low_s16`: the lower lanes are added. -/
def addLow (acc : Vec 4 Int32) (prod : Vec 8 Int16) : Vec 4 Int32 :=
  fun l => acc l + (prod (Fin.castAdd 4 l)).toInt32

/-- `vaddw_high_s16`: the upper lanes are added. -/
def addHigh (acc : Vec 4 Int32) (prod : Vec 8 Int16) : Vec 4 Int32 :=
  fun l => acc l + (prod (Fin.natAdd 4 l)).toInt32

/-- `vst1q_s32`: four words from an index on. -/
def vst1qS32 (memory : Words) (index : ℕ) (v : Vec 4 Int32) : Words := fun p =>
  if index ≤ p ∧ p < index + 4 then v (Fin.ofNat 4 (p - index)) else memory p

/-! ### The INT8 kernel -/

section Int8

variable (s : Shape) (matA matB : Bytes)

/-- The products of one pass over `k`, for eight columns from `j` on. -/
def products (i j : UInt32) (k : ℕ) : Vec 8 Int16 :=
  vmullS8 (fun _ => matA (i * s.colsA + UInt32.ofNat k).toNat)
    (vld1S8 matB (UInt32.ofNat k * s.colsB + j).toNat)

/-- The loop over `k`: `acc_low` and `acc_high`. -/
def accumulate (i j : UInt32) : Vec 4 Int32 × Vec 4 Int32 :=
  (List.range s.colsA.toNat).foldl
    (fun acc k => (addLow acc.1 (products s matA matB i j k),
      addHigh acc.2 (products s matA matB i j k)))
    (fun _ => 0, fun _ => 0)

/-- The stores behind the loop over `k`. -/
def storeGroup (result : Words) (index process : UInt32) (acc : Vec 4 Int32 × Vec 4 Int32) :
    Words :=
  let low := if 4 ≤ process then vst1qS32 result index.toNat acc.1 else result
  if 4 < process then
    let fifth := update low (index + 4).toNat (acc.2 (Fin.ofNat 4 0))
    if 5 < process then update fifth (index + 5).toNat (acc.2 (Fin.ofNat 4 1))
    else fifth
  else low

/-- The columns of the group that starts at `j`. -/
def process (j : UInt32) : UInt32 := if s.colsB - j < 8 then s.colsB - j else 8

/-- The loop over `j`. The index wraps around when a row has more than `2 ^ 32 - 8` columns,
and the loop does not end: `none`. -/
def columnLoop (i : UInt32) : ℕ → UInt32 → Words → Option Words
  | 0, _, _ => none
  | rounds + 1, j, result =>
    if j < s.colsB then
      columnLoop i rounds (j + 8)
        (storeGroup result (i * s.colsB + j) (process s j) (accumulate s matA matB i j))
    else some result

/-- The loop over `i`, for the first rows. -/
def rowLoop (rows : ℕ) (result : Words) : Option Words :=
  (List.range rows).foldlM
    (fun result i => columnLoop s matA matB (UInt32.ofNat i) (s.colsB.toNat / 8 + 2) 0 result)
    result

/-- `matmul_int8_neon`. -/
def matmulInt8Neon (result : Words) : Option Words := rowLoop s matA matB s.rowsA.toNat result

end Int8

/-! ### The packed formats -/

/-- An unpacking loop: every pass writes a group of `size` values. -/
def unpackGroups (size : ℕ) (value : ℕ → ℕ → Int8) (groups : ℕ) (memory : Bytes) : Bytes :=
  (List.range groups).foldl
    (fun memory i p => if i * size ≤ p ∧ p < i * size + size then value i (p - i * size)
      else memory p) memory

/-- `packed`: three bytes, each of them sign-extended to 32 bits first. -/
def packedWord (packed : Bytes) (i : ℕ) : UInt32 :=
  (packed (i * 3)).toInt32.toUInt32 ||| ((packed (i * 3 + 1)).toInt32.toUInt32 <<< 8) |||
    ((packed (i * 3 + 2)).toInt32.toUInt32 <<< 16)

/-- `(int8_t)((int32_t)(packed << shift) >> 26)`, for the shifts 26, 20, 14 and 8. -/
def int6Field (word : UInt32) (l : ℕ) : Int8 :=
  ((word <<< UInt32.ofNat (26 - 6 * l)).toInt32 >>> 26).toInt8

/-- An operand of the INT6 kernel. -/
def unpackInt6 (packed : Bytes) (count : UInt32) (memory : Bytes) : Bytes :=
  unpackGroups 4 (fun i l => int6Field (packedWord packed i) l) (count / 4).toNat memory

/-- The two values the INT4 kernel reads from a byte: `(int8_t)((b << 4) >> 4)`, computed in
`int`, and `(int8_t)(b >> 4)`. -/
def int4Field (byte : Int8) (l : ℕ) : Int8 :=
  if l = 0 then ((byte.toInt32 <<< 4) >>> 4).toInt8 else (byte.toInt32 >>> 4).toInt8

/-- An operand of the INT4 kernel. -/
def unpackInt4 (packed : Bytes) (count : UInt32) (memory : Bytes) : Bytes :=
  unpackGroups 2 (fun i l => int4Field (packed i) l) (count / 2).toNat memory

/-- The packed operands, and what `kheap_alloc` answers to the requests for the unpacked
ones: no memory, or memory with what it held before. -/
structure Operands where
  matA : Bytes
  matB : Bytes
  heapA : Option Bytes
  heapB : Option Bytes

/-- The head of the two kernels for packed operands: nothing is done for an empty operand or
without memory. -/
def unpackOperands (s : Shape) (o : Operands) (unpack : Bytes → UInt32 → Bytes → Bytes) :
    Option (Bytes × Bytes) :=
  if s.rowsA.toUInt64 * s.colsA.toUInt64 = 0 ∨ s.colsA.toUInt64 * s.colsB.toUInt64 = 0 then none
  else
    match o.heapA, o.heapB with
    | some memoryA, some memoryB =>
      some (unpack o.matA (s.rowsA * s.colsA) memoryA, unpack o.matB (s.colsA * s.colsB) memoryB)
    | _, _ => none

/-- A kernel for packed operands. -/
def matmulPacked (s : Shape) (o : Operands) (unpack : Bytes → UInt32 → Bytes → Bytes)
    (result : Words) : Option Words :=
  match unpackOperands s o unpack with
  | none => some result
  | some (matA, matB) => matmulInt8Neon s matA matB result

/-- `matmul_int6_neon`. -/
def matmulInt6Neon (s : Shape) (o : Operands) (result : Words) : Option Words :=
  matmulPacked s o unpackInt6 result

/-- `matmul_int4_neon`. -/
def matmulInt4Neon (s : Shape) (o : Operands) (result : Words) : Option Words :=
  matmulPacked s o unpackInt4 result

/-! ### The exact product -/

/-- The formats of the operands. -/
inductive Format where
  | int8
  | int6
  | int4
  deriving DecidableEq

/-- The kernel of a format. -/
def Format.matmul (f : Format) (s : Shape) (o : Operands) (result : Words) : Option Words :=
  match f with
  | .int8 => matmulInt8Neon s o.matA o.matB result
  | .int6 => matmulInt6Neon s o result
  | .int4 => matmulInt4Neon s o result

/-- The value with an index, sign-extended: a byte, six bits of a word of three bytes, or half
a byte. -/
def Format.value (f : Format) (packed : Bytes) (e : ℕ) : ℤ :=
  let byte (p : ℕ) : ℕ := (packed p).toUInt8.toNat
  match f with
  | .int8 => (packed e).toInt
  | .int6 =>
    Int.bmod ((byte (e / 4 * 3) + 256 * byte (e / 4 * 3 + 1) + 65536 * byte (e / 4 * 3 + 2)) /
      64 ^ (e % 4) % 64 : ℕ) 64
  | .int4 => Int.bmod (byte (e / 2) / 16 ^ (e % 2) % 16 : ℕ) 16

/-- The sum over `k` of `A[i][k] * B[k][j]`. -/
def Format.exactSum (f : Format) (s : Shape) (o : Operands) (i j : ℕ) : ℤ :=
  ∑ k ∈ range s.colsA.toNat,
    f.value o.matA (i * s.colsA.toNat + k) * f.value o.matB (k * s.colsB.toNat + j)

/-- A property of all positions of the result. -/
def Shape.All (s : Shape) (P : ℕ → ℕ → Prop) : Prop :=
  ∀ i < s.rowsA.toNat, ∀ j < s.colsB.toNat, P i j

/-- The exact sums fit the accumulator. -/
def Format.Fits (f : Format) (s : Shape) (o : Operands) : Prop :=
  s.All fun i j => -2 ^ 31 ≤ f.exactSum s o i j ∧ f.exactSum s o i j < 2 ^ 31

/-- **The product is exact**: whatever the result held before, the kernel returns with the
exact sum at every position. -/
def Format.Exact (f : Format) (s : Shape) (o : Operands) : Prop :=
  ∀ before, ∃ result, f.matmul s o before = some result ∧
    s.All fun i j => (result (i * s.colsB.toNat + j)).toInt = f.exactSum s o i j

/-- The operands the INT8 kernel gets. -/
def Format.operands (f : Format) (s : Shape) (o : Operands) : Option (Bytes × Bytes) :=
  match f with
  | .int8 => some (o.matA, o.matB)
  | .int6 => unpackOperands s o unpackInt6
  | .int4 => unpackOperands s o unpackInt4

/-- The sum the kernel computes, with its 32-bit indices. -/
def readSum (s : Shape) (matA matB : Bytes) (i j : UInt32) (lane : ℕ) : ℤ :=
  ∑ k ∈ range s.colsA.toNat,
    (matA (i * s.colsA + UInt32.ofNat k).toNat).toInt *
      (matB ((UInt32.ofNat k * s.colsB + j).toNat + lane)).toInt

/-- The shapes of which all positions are stored: a row has 4, 5 or 6 columns, and all
positions have a 32-bit index. -/
def Shape.Stored (s : Shape) : Prop :=
  (s.colsB = 4 ∨ s.colsB = 5 ∨ s.colsB = 6) ∧ s.rowsA.toNat * s.colsB.toNat ≤ 2 ^ 32

/-- A kernel for packed operands gets beyond its head. -/
def Format.Handed (f : Format) (s : Shape) (o : Operands) : Prop :=
  f = .int8 ∨ s.colsA ≠ 0 ∧ o.heapA.isSome ∧ o.heapB.isSome

/-- An operand of `count` values: its groups are complete, and their bytes are good. -/
structure Grouped (size count : ℕ) (Good : ℕ → Prop) : Prop where
  count_lt : count < 2 ^ 32
  complete : size ∣ count
  good : ∀ g < count / size, Good g

/-- Packed bytes that are unpacked right: all of INT8, groups of INT6 whose first two bytes have
no sign, and bytes of INT4 that are their own low half. -/
def Format.Unpacks (f : Format) (packed : Bytes) (count : ℕ) : Prop :=
  match f with
  | .int8 => count ≤ 2 ^ 32
  | .int6 => Grouped 4 count fun g => 0 ≤ (packed (g * 3)).toInt ∧ 0 ≤ (packed (g * 3 + 1)).toInt
  | .int4 => Grouped 2 count fun g => -8 ≤ (packed g).toInt ∧ (packed g).toInt < 8

/-! ### The lanes -/

section Lanes

variable {s : Shape} {matA matB : Bytes}

/-- The product of two bytes does not leave the 16 bits. -/
theorem toInt32_mul (a b : Int8) :
    (a.toInt16 * b.toInt16).toInt32 = Int32.ofInt (a.toInt * b.toInt) := by
  have ha := a.le_toInt
  have ha' := a.toInt_lt
  have hb := b.le_toInt
  have hb' := b.toInt_lt
  have hlow : -16384 ≤ a.toInt * b.toInt := by nlinarith
  have hhigh : a.toInt * b.toInt ≤ 16384 := by nlinarith
  rw [← Int32.toInt_inj, Int16.toInt_toInt32, Int16.toInt_mul, Int8.toInt_toInt16,
    Int8.toInt_toInt16, Int32.toInt_ofInt, Int.bmod_eq_of_le (by omega) (by omega),
    Int.bmod_eq_of_le]
  · change -(4294967296 / 2 : ℤ) ≤ _
    omega
  · change _ < ((4294967296 + 1) / 2 : ℤ)
    omega

/-- A lane of the products of one pass. -/
theorem products_lane (i j : UInt32) (k : ℕ) (l : Fin 8) :
    (products s matA matB i j k l).toInt32 =
      Int32.ofInt ((matA (i * s.colsA + UInt32.ofNat k).toNat).toInt *
        (matB ((UInt32.ofNat k * s.colsB + j).toNat + l)).toInt) :=
  toInt32_mul _ _

/-- **Every lane holds its sum**, in 32 bits: lanes 0 to 3 in the one vector and lanes 4 to 7
in the other. -/
theorem accumulate_lane (i j : UInt32) (l : Fin 4) :
    (accumulate s matA matB i j).1 l = Int32.ofInt (readSum s matA matB i j l) ∧
      (accumulate s matA matB i j).2 l = Int32.ofInt (readSum s matA matB i j (4 + l)) := by
  unfold accumulate readSum
  induction s.colsA.toNat with
  | zero => exact ⟨rfl, rfl⟩
  | succ n ih =>
    rw [List.range_succ, List.foldl_append, sum_range_succ, sum_range_succ, Int32.ofInt_add,
      Int32.ofInt_add, ← ih.1, ← ih.2]
    refine ⟨congrArg (_ + ·) ?_, congrArg (_ + ·) ?_⟩
    · exact products_lane i j n (Fin.castAdd 4 l)
    · exact products_lane i j n (Fin.natAdd 4 l)

end Lanes

/-! ### The positions that are written -/

/-- The stores of a group write a position. -/
def Written (index process : UInt32) (p : ℕ) : Prop :=
  (4 ≤ process ∧ index.toNat ≤ p ∧ p < index.toNat + 4) ∨
    (4 < process ∧ p = (index + 4).toNat) ∨ (5 < process ∧ p = (index + 5).toNat)

section Frame

variable {s : Shape} {matA matB : Bytes} {p : ℕ}

/-- What the stores of a group leave at a position. -/
theorem storeGroup_apply (result : Words) (index process : UInt32)
    (acc : Vec 4 Int32 × Vec 4 Int32) :
    storeGroup result index process acc p =
      if 5 < process ∧ p = (index + 5).toNat then acc.2 (Fin.ofNat 4 1)
      else if 4 < process ∧ p = (index + 4).toNat then acc.2 (Fin.ofNat 4 0)
      else if 4 ≤ process ∧ index.toNat ≤ p ∧ p < index.toNat + 4 then
        acc.1 (Fin.ofNat 4 (p - index.toNat))
      else result p := by
  have hfour : 5 < process → 4 < process := UInt32.lt_trans (by decide)
  simp only [storeGroup, vst1qS32, ite_apply, update_apply]
  split_ifs <;> tauto

theorem storeGroup_of_not_written {result : Words} {index process : UInt32}
    {acc : Vec 4 Int32 × Vec 4 Int32} (h : ¬Written index process p) :
    storeGroup result index process acc p = result p := by
  simp only [Written, not_or] at h
  rw [storeGroup_apply, if_neg h.2.2, if_neg h.2.1, if_neg h.1]

/-- A position that no group of a row writes. -/
def Spared (s : Shape) (i : UInt32) (p : ℕ) : Prop :=
  ∀ j : UInt32, j.toNat % 8 = 0 → j < s.colsB → ¬Written (i * s.colsB + j) (process s j) p

theorem columnLoop_of_spared {i j : UInt32} {rounds : ℕ} {before result : Words}
    (hp : Spared s i p) (hj : j.toNat % 8 = 0)
    (h : columnLoop s matA matB i rounds j before = some result) : result p = before p := by
  induction rounds generalizing j before with
  | zero => cases h
  | succ rounds ih =>
    rw [columnLoop] at h
    split at h
    · next hlt =>
      have hnext : (j + 8).toNat % 8 = 0 := by
        rw [UInt32.toNat_add]
        change (j.toNat + 8) % 4294967296 % 8 = 0
        omega
      rw [ih hnext h, storeGroup_of_not_written (hp j hj hlt)]
    · cases h
      rfl

theorem rowLoop_succ (rows : ℕ) (before : Words) :
    rowLoop s matA matB (rows + 1) before =
      (rowLoop s matA matB rows before).bind
        (columnLoop s matA matB (UInt32.ofNat rows) (s.colsB.toNat / 8 + 2) 0) := by
  rw [rowLoop, List.range_succ, List.foldlM_append, ← rowLoop]
  congr 1
  funext result
  rw [List.foldlM_cons]
  exact bind_pure _

/-- **What no group writes is as it was.** -/
theorem rowLoop_of_spared {rows : ℕ} {before result : Words}
    (hp : ∀ i < rows, Spared s (UInt32.ofNat i) p)
    (h : rowLoop s matA matB rows before = some result) : result p = before p := by
  induction rows generalizing result with
  | zero =>
    cases h
    rfl
  | succ rows ih =>
    rw [rowLoop_succ] at h
    obtain ⟨middle, hmiddle, hrow⟩ := Option.bind_eq_some_iff.mp h
    rw [columnLoop_of_spared (hp rows (Nat.lt_succ_self rows)) rfl hrow]
    exact ih (fun i hi => hp i (hi.trans (Nat.lt_succ_self rows))) hmiddle

end Frame

/-! ### A position that is spared -/

section Spared

variable {s : Shape}

/-- The stores of a group, with row, group and columns as numbers. -/
def Stored (cols i j p : ℕ) : Prop :=
  (j + 4 ≤ cols ∧ (i * cols + j) % 2 ^ 32 ≤ p ∧ p < (i * cols + j) % 2 ^ 32 + 4) ∨
    (j + 4 < cols ∧ p = (i * cols + j + 4) % 2 ^ 32) ∨
      (j + 5 < cols ∧ p = (i * cols + j + 5) % 2 ^ 32)

theorem toNat_index (i : ℕ) (j c : UInt32) :
    (UInt32.ofNat i * s.colsB + j + c).toNat =
      (i * s.colsB.toNat + j.toNat + c.toNat) % 2 ^ 32 := by
  rw [UInt32.toNat_add, UInt32.toNat_add, UInt32.toNat_mul, UInt32.toNat_ofNat']
  simp only [Nat.mod_mul_mod, Nat.mod_add_mod]

theorem lt_process_iff {j : UInt32} {c : UInt32} (hj : j < s.colsB) (hc : c.toNat < 8) :
    c < process s j ↔ j.toNat + c.toNat < s.colsB.toNat := by
  have hsub : (s.colsB - j).toNat = s.colsB.toNat - j.toNat :=
    UInt32.toNat_sub_of_le _ _ (UInt32.le_of_lt hj)
  rw [UInt32.lt_iff_toNat_lt] at hj
  unfold process
  split
  · rw [UInt32.lt_iff_toNat_lt, hsub]
    omega
  · next hge =>
    rw [UInt32.lt_iff_toNat_lt, hsub] at hge
    rw [UInt32.lt_iff_toNat_lt]
    change ¬_ < 8 at hge
    change _ < 8 ↔ _
    omega

theorem written_iff {i : ℕ} {j : UInt32} {p : ℕ} (hj : j < s.colsB) :
    Written (UInt32.ofNat i * s.colsB + j) (process s j) p ↔
      Stored s.colsB.toNat i j.toNat p := by
  have hfour : 4 ≤ process s j ↔ j.toNat + 4 ≤ s.colsB.toNat := by
    have h : 4 ≤ process s j ↔ 3 < process s j := by
      rw [UInt32.le_iff_toNat_le, UInt32.lt_iff_toNat_lt]
      exact .rfl
    rw [h, lt_process_iff hj (by decide)]
    exact .rfl
  have hindex : (UInt32.ofNat i * s.colsB + j).toNat =
      (i * s.colsB.toNat + j.toNat) % 2 ^ 32 := by
    have h := toNat_index (s := s) i j 0
    rwa [UInt32.add_zero] at h
  rw [Written, Stored, hfour, hindex, lt_process_iff hj (by decide),
    lt_process_iff hj (by decide), toNat_index, toNat_index]
  exact .rfl

/-- No 32-bit index is that large. -/
theorem ne_index {n : ℕ} (c : ℕ) : 2 ^ 32 + c ≠ n % 2 ^ 32 := fun h =>
  absurd (h ▸ Nat.mod_lt n (Nat.two_pow_pos 32)) (Nat.not_lt.mpr (Nat.le_add_right _ c))

/-- Six columns, with a last row that starts below index `2 ^ 32` and ends above it: its
last lanes go to the front of the result. -/
theorem not_stored_of_six {rows i j : ℕ} (hrows : 2 ^ 32 < rows * 6)
    (hfew : rows * 6 < 2 ^ 32 + 4) (hi : i < rows) (hj : j < 6) (h8 : j % 8 = 0) :
    ¬Stored 6 i j (rows * 6 - 1) := by
  have hj0 : j = 0 := by omega
  have hlast : rows * 6 - 1 = 2 ^ 32 + 1 := by omega
  have hstart : i * 6 + 0 < 2 ^ 32 := by omega
  subst hj0
  rw [hlast]
  rintro (⟨-, -, hs⟩ | ⟨-, hs⟩ | ⟨-, hs⟩)
  · rw [Nat.mod_eq_of_lt hstart] at hs
    omega
  · exact ne_index 1 hs
  · exact ne_index 1 hs

/-- Lane 6 of the first group. No other group gets to its position. -/
theorem not_stored_six {rows cols i j : ℕ} (hcols : 7 ≤ cols)
    (hfew : rows * cols < 2 ^ 32 + 4) (hi : i < rows) (h8 : j % 8 = 0) : ¬Stored cols i j 6 := by
  have hend : i * cols + cols ≤ rows * cols := by
    rw [← Nat.succ_mul]
    exact Nat.mul_le_mul_right cols hi
  have hrow : i * cols = 0 ∨ cols ≤ i * cols := by
    rcases Nat.eq_zero_or_pos i with rfl | hpos
    · exact .inl (Nat.zero_mul cols)
    · exact .inr (Nat.le_mul_of_pos_left cols hpos)
  unfold Stored
  generalize i * cols = start at *
  rintro (⟨hlane, hle, hlt⟩ | ⟨hlane, hs⟩ | ⟨hlane, hs⟩)
  · rw [Nat.mod_eq_of_lt (by omega)] at hle hlt
    omega
  · omega
  · omega

/-- **Some position is not stored** unless a row has 4, 5 or 6 columns and all positions have a
32-bit index. -/
theorem exists_not_stored {rows cols : ℕ} (hrows : 0 < rows) (hcols : 0 < cols)
    (h : ¬((cols = 4 ∨ cols = 5 ∨ cols = 6) ∧ rows * cols ≤ 2 ^ 32)) :
    ∃ p < rows * cols, ∀ i < rows, ∀ j < cols, j % 8 = 0 → ¬Stored cols i j p := by
  have hsize : cols ≤ rows * cols := Nat.le_mul_of_pos_left cols hrows
  rcases Nat.lt_or_ge cols 4 with hsmall | hlarge
  -- a group of fewer than four columns is not stored at all
  · refine ⟨0, by omega, fun i _ j _ _ hs => ?_⟩
    rcases hs with hs | hs | hs <;> omega
  rcases Nat.lt_or_ge (rows * cols) (2 ^ 32 + 4) with hfew | hmany
  · rcases Nat.lt_or_ge cols 7 with hseven | hseven
    · have hsix : cols = 6 := by
        rcases (by omega : cols = 4 ∨ cols = 5 ∨ cols = 6) with rfl | rfl | rfl <;> omega
      subst hsix
      exact ⟨rows * 6 - 1, by omega, fun i hi j hj h8 =>
        not_stored_of_six (by omega) hfew hi hj h8⟩
    · exact ⟨6, by omega, fun i hi j _ h8 => not_stored_six hseven hfew hi h8⟩
  · refine ⟨2 ^ 32 + 3, by omega, fun i hi j hj h8 hs => ?_⟩
    rcases hs with ⟨-, -, hs⟩ | ⟨-, hs⟩ | ⟨-, hs⟩
    · omega
    · exact ne_index 3 hs
    · exact ne_index 3 hs

/-- A position that the kernel spares. -/
theorem exists_spared (hrows : s.rowsA ≠ 0) (hcols : s.colsB ≠ 0)
    (h : ¬((s.colsB = 4 ∨ s.colsB = 5 ∨ s.colsB = 6) ∧
      s.rowsA.toNat * s.colsB.toNat ≤ 2 ^ 32)) :
    ∃ i < s.rowsA.toNat, ∃ j < s.colsB.toNat,
      ∀ r < s.rowsA.toNat, Spared s (UInt32.ofNat r) (i * s.colsB.toNat + j) := by
  have hpos : 0 < s.colsB.toNat := UInt32.lt_iff_toNat_lt.mp (UInt32.pos_iff_ne_zero.mpr hcols)
  simp only [← UInt32.toNat_inj] at h
  obtain ⟨p, hp, hspared⟩ := exists_not_stored
    (UInt32.lt_iff_toNat_lt.mp (UInt32.pos_iff_ne_zero.mpr hrows)) hpos h
  refine ⟨p / s.colsB.toNat, Nat.div_lt_of_lt_mul (by rwa [Nat.mul_comm]),
    p % s.colsB.toNat, Nat.mod_lt p hpos, fun r hr j h8 hj hw => ?_⟩
  rw [Nat.div_add_mod', written_iff hj] at hw
  exact hspared r hr j.toNat (UInt32.lt_iff_toNat_lt.mp hj) h8 hw

end Spared

/-! ### Rows of four to six columns -/

section Rows

variable {s : Shape} {matA matB : Bytes}

/-- What the stores of one group leave at its positions, if all of them are stored. -/
theorem storeGroup_lane {result : Words} {index process : UInt32}
    {acc : Vec 4 Int32 × Vec 4 Int32} {c : ℕ} (hfour : 4 ≤ process.toNat)
    (hsix : process.toNat ≤ 6) (hend : index.toNat + process.toNat ≤ 2 ^ 32)
    (hc : c < process.toNat) :
    storeGroup result index process acc (index.toNat + c) =
      if c < 4 then acc.1 (Fin.ofNat 4 c) else acc.2 (Fin.ofNat 4 (c - 4)) := by
  have hindex : ∀ k : UInt32, k.toNat < process.toNat →
      (index + k).toNat = index.toNat + k.toNat := fun k hk => by
    rw [UInt32.toNat_add]
    exact Nat.mod_eq_of_lt (by omega)
  have hother : ∀ k : UInt32, k.toNat ≠ c → ¬(k < process ∧ index.toNat + c = (index + k).toNat) :=
    fun k hk ⟨hlt, heq⟩ => by
      rw [hindex k (UInt32.lt_iff_toNat_lt.mp hlt)] at heq
      omega
  rw [storeGroup_apply]
  rcases (by omega : c < 4 ∨ c = 4 ∨ c = 5) with hlow | rfl | rfl
  · rw [if_neg (hother 5 (Nat.ne_of_gt (hlow.trans (by decide)))),
      if_neg (hother 4 (Nat.ne_of_gt hlow)), if_pos hlow,
      if_pos ⟨UInt32.le_iff_toNat_le.mpr hfour, by omega⟩, Nat.add_sub_cancel_left]
  · rw [if_neg (hother 5 (by decide)), if_pos ⟨UInt32.lt_iff_toNat_lt.mpr hc, (hindex 4 hc).symm⟩]
    rfl
  · rw [if_pos ⟨UInt32.lt_iff_toNat_lt.mpr hc, (hindex 5 hc).symm⟩]
    rfl

/-- A lane of the two vectors, by its number in the group. -/
theorem accumulate_column {i j : UInt32} {c : ℕ} (hc : c < 8) :
    (if c < 4 then (accumulate s matA matB i j).1 (Fin.ofNat 4 c)
      else (accumulate s matA matB i j).2 (Fin.ofNat 4 (c - 4))) =
      Int32.ofInt (readSum s matA matB i j c) := by
  split
  · next hc4 =>
    rw [(accumulate_lane i j _).1, Fin.val_ofNat, Nat.mod_eq_of_lt hc4]
  · next hc4 =>
    rw [(accumulate_lane i j _).2, Fin.val_ofNat, Nat.mod_eq_of_lt (by omega),
      Nat.add_sub_cancel' (Nat.not_lt.mp hc4)]

/-- A row of at most eight columns is one group. -/
theorem columnLoop_one (hpos : 0 < s.colsB) (hsmall : s.colsB.toNat < 8) (i : UInt32)
    (result : Words) :
    columnLoop s matA matB i (s.colsB.toNat / 8 + 2) 0 result =
      some (storeGroup result (i * s.colsB + 0) (process s 0) (accumulate s matA matB i 0)) := by
  have hnot : ¬(0 + 8 : UInt32) < s.colsB := fun h => by
    rw [UInt32.lt_iff_toNat_lt] at h
    change 8 < _ at h
    omega
  rw [Nat.div_eq_of_lt hsmall, columnLoop, if_pos hpos, columnLoop, if_neg hnot]

/-- A position is below the number of positions. -/
theorem position_lt {m n x y : ℕ} (hx : x < m) (hy : y < n) : x * n + y < m * n := by
  have h := Nat.mul_le_mul_right n hx
  rw [Nat.succ_mul] at h
  omega

/-- **Rows of four to six columns are stored**, each at its place. -/
theorem rowLoop_served (hcols : 4 ≤ s.colsB.toNat ∧ s.colsB.toNat ≤ 6) {rows : ℕ}
    (hsize : rows * s.colsB.toNat ≤ 2 ^ 32) (before : Words) :
    ∃ result, rowLoop s matA matB rows before = some result ∧
      ∀ i < rows, ∀ j < s.colsB.toNat, result (i * s.colsB.toNat + j) =
        Int32.ofInt (readSum s matA matB (UInt32.ofNat i) 0 j) := by
  have hpos : 0 < s.colsB := by
    rw [UInt32.lt_iff_toNat_lt]
    exact Nat.lt_of_lt_of_le (by decide : 0 < 4) hcols.1
  have hprocess : (process s 0).toNat = s.colsB.toNat := by
    have hlt : s.colsB - 0 < 8 := by
      rw [UInt32.sub_zero, UInt32.lt_iff_toNat_lt]
      exact Nat.lt_of_le_of_lt hcols.2 (by decide : 6 < 8)
    rw [process, if_pos hlt, UInt32.sub_zero]
  induction rows with
  | zero => exact ⟨before, rfl, fun i hi => absurd hi (Nat.not_lt_zero i)⟩
  | succ rows ih =>
    rw [Nat.succ_mul] at hsize
    obtain ⟨result, hresult, hvalue⟩ := ih (by omega)
    have hindex : (UInt32.ofNat rows * s.colsB + 0).toNat = rows * s.colsB.toNat := by
      have h := toNat_index (s := s) rows 0 0
      rw [UInt32.add_zero] at h
      rw [h]
      exact Nat.mod_eq_of_lt (by change rows * s.colsB.toNat + 0 + 0 < 2 ^ 32; omega)
    refine ⟨_, by rw [rowLoop_succ, hresult, Option.bind_some, columnLoop_one hpos (by omega)],
      fun i hi j hj => ?_⟩
    rcases Nat.lt_succ_iff_lt_or_eq.mp hi with hlt | rfl
    -- a row that is already there
    · have hbefore := position_lt hlt hj
      rw [storeGroup_of_not_written, hvalue i hlt j hj]
      rw [written_iff hpos]
      rintro (⟨-, hs, -⟩ | ⟨h4, hs⟩ | ⟨h5, hs⟩)
      · rw [Nat.mod_eq_of_lt (by change rows * s.colsB.toNat + 0 < 2 ^ 32; omega)] at hs
        exact absurd hbefore (Nat.not_lt.mpr hs)
      · rw [Nat.mod_eq_of_lt (by change rows * s.colsB.toNat + 0 + 4 < 2 ^ 32; omega)] at hs
        omega
      · rw [Nat.mod_eq_of_lt (by change rows * s.colsB.toNat + 0 + 5 < 2 ^ 32; omega)] at hs
        omega
    -- the row of this pass
    · rw [← hindex, storeGroup_lane (by omega) (by omega) (by omega) (by omega),
        accumulate_column (by omega)]

/-- Without columns nothing is done. -/
theorem rowLoop_of_empty (hcols : s.colsB = 0) (rows : ℕ) (before : Words) :
    rowLoop s matA matB rows before = some before := by
  induction rows with
  | zero => rfl
  | succ rows ih =>
    have hnot : ¬(0 : UInt32) < s.colsB := by
      rw [hcols]
      exact UInt32.lt_irrefl 0
    rw [rowLoop_succ, ih, Option.bind_some, hcols, columnLoop, if_neg hnot]

end Rows

/-! ### What is unpacked -/

/-- A property of bytes that holds of all 256. -/
theorem forall_int8 {P : Int8 → Prop} (h : ∀ n : Fin 256, P ⟨⟨⟨n⟩⟩⟩) (b : Int8) : P b := by
  rcases b with ⟨⟨⟨n⟩⟩⟩
  exact h n

/-- An arithmetic shift is a division. -/
theorem toInt_shiftRight (x : Int32) : (x >>> 26).toInt = x.toInt / 2 ^ 26 := by
  rw [← Int32.toInt_toBitVec, Int32.toBitVec_shiftRight, BitVec.toInt_sshiftRight',
    Int.shiftRight_eq_div_pow]
  rfl

theorem toInt_toInt32 (w : UInt32) : w.toInt32.toInt = (w.toNat : ℤ).bmod (2 ^ 32) := by
  rw [← Int32.toInt_toBitVec]
  exact BitVec.toInt_eq_toNat_bmod _

/-- Six bits at the top of a word, taken with their sign. -/
theorem top_six_bits {q r : ℕ} (hq : q < 64) (hr : r < 67108864) :
    (((q * 67108864 + r : ℕ) : ℤ).bmod 4294967296 / 67108864).bmod 256 = Int.bmod q 64 := by
  rcases Nat.lt_or_ge q 32 with hlow | hhigh
  · have hword : ((q * 67108864 + r : ℕ) : ℤ).bmod 4294967296 = q * 67108864 + r := by
      rw [Int.bmod_eq_of_le] <;> push_cast <;> omega
    have hdiv : ((q : ℤ) * 67108864 + r) / 67108864 = q := by omega
    rw [hword, hdiv, Int.bmod_eq_of_le (by omega) (by omega),
      Int.bmod_eq_of_le (by omega) (by omega)]
  · have hword : ((q * 67108864 + r : ℕ) : ℤ).bmod 4294967296 =
        ((q : ℤ) - 64) * 67108864 + r := by
      rw [← Int.sub_mul_bmod_self_right _ 1 4294967296, Int.bmod_eq_of_le] <;> push_cast <;> omega
    have hdiv : (((q : ℤ) - 64) * 67108864 + r) / 67108864 = q - 64 := by omega
    rw [hword, hdiv, ← Int.sub_mul_bmod_self_right (q : ℤ) 1 64,
      Int.bmod_eq_of_le (by omega) (by omega), Int.bmod_eq_of_le (by omega) (by omega)]
    omega

/-- Shifting six bits to the top of the word leaves nothing above them. -/
theorem mul_mod_top (n : ℕ) {l : ℕ} (hl : l < 4) :
    ∃ r < 67108864, n * 2 ^ (26 - 6 * l) % 4294967296 = n / 64 ^ l % 64 * 67108864 + r := by
  have htop : 64 ^ l * 2 ^ (26 - 6 * l) = 67108864 := by
    rcases (by omega : l = 0 ∨ l = 1 ∨ l = 2 ∨ l = 3) with rfl | rfl | rfl | rfl <;> rfl
  have hsize : 4294967296 = 64 ^ l * 64 * 2 ^ (26 - 6 * l) := by
    rw [Nat.mul_right_comm, htop]
  refine ⟨n % 64 ^ l * 2 ^ (26 - 6 * l), ?_, ?_⟩
  · rw [← htop]
    exact Nat.mul_lt_mul_of_pos_right (Nat.mod_lt _ (Nat.pow_pos (by decide)))
      (Nat.two_pow_pos _)
  · rw [hsize, Nat.mul_mod_mul_right, Nat.mod_mul, ← htop]
    ring

/-- Shifting six bits to the top and back sign-extends them. -/
theorem int6Field_eq (w : UInt32) {l : ℕ} (hl : l < 4) :
    (int6Field w l).toInt = Int.bmod (w.toNat / 64 ^ l % 64 : ℕ) 64 := by
  obtain ⟨r, hr, hword⟩ := mul_mod_top w.toNat hl
  rw [int6Field, Int32.toInt_toInt8, toInt_shiftRight, toInt_toInt32, UInt32.toNat_shiftLeft,
    Nat.shiftLeft_eq, UInt32.toNat_ofNat', Nat.mod_eq_of_lt (by omega : 26 - 6 * l < 2 ^ 32),
    Nat.mod_eq_of_lt (by omega : 26 - 6 * l < 32)]
  change ((((w.toNat * 2 ^ (26 - 6 * l) % 4294967296 : ℕ) : ℤ).bmod 4294967296) / 67108864).bmod
    256 = _
  rw [hword, top_six_bits (Nat.mod_lt _ (by decide)) hr]

/-- **The low INT4 value is the whole byte**: it is right for bytes that are their own low
half only. -/
theorem int4Field_low_iff (b : Int8) :
    (int4Field b 0).toInt = Int.bmod (b.toUInt8.toNat % 16 : ℕ) 16 ↔
      -8 ≤ b.toInt ∧ b.toInt < 8 := by
  revert b
  exact forall_int8 (by decide +kernel)

/-- The high INT4 value is right. -/
theorem int4Field_high (b : Int8) :
    (int4Field b 1).toInt = Int.bmod (b.toUInt8.toNat / 16 % 16 : ℕ) 16 := by
  revert b
  exact forall_int8 (by decide +kernel)

/-- A byte without sign is extended by zeros. -/
theorem toNat_nonneg (b : Int8) :
    0 ≤ b.toInt → b.toInt32.toUInt32.toNat = b.toUInt8.toNat := by
  revert b
  exact forall_int8 (by decide +kernel)

/-- The sign of the third byte ends above the 24 bits. -/
theorem toNat_top (b : Int8) :
    (b.toInt32.toUInt32 <<< 16).toNat % 2 ^ 24 = 65536 * b.toUInt8.toNat := by
  revert b
  exact forall_int8 (by decide +kernel)

/-- **A group of INT6 whose first two bytes have no sign** is the word of its bytes. -/
theorem packedWord_mod {packed : Bytes} {i : ℕ} (h0 : 0 ≤ (packed (i * 3)).toInt)
    (h1 : 0 ≤ (packed (i * 3 + 1)).toInt) :
    (packedWord packed i).toNat % 2 ^ 24 =
      (packed (i * 3)).toUInt8.toNat + 256 * (packed (i * 3 + 1)).toUInt8.toNat +
        65536 * (packed (i * 3 + 2)).toUInt8.toNat := by
  have hb0 := (packed (i * 3)).toUInt8.toNat_lt
  have hb1 := (packed (i * 3 + 1)).toUInt8.toNat_lt
  have hshift : ((packed (i * 3 + 1)).toInt32.toUInt32 <<< 8).toNat =
      2 ^ 8 * (packed (i * 3 + 1)).toUInt8.toNat := by
    rw [UInt32.toNat_shiftLeft, toNat_nonneg _ h1, Nat.shiftLeft_eq, Nat.mul_comm]
    exact Nat.mod_eq_of_lt (by change 2 ^ 8 * _ < 2 ^ 32; omega)
  rw [packedWord, UInt32.toNat_or, UInt32.toNat_or, Nat.or_mod_two_pow, toNat_top,
    toNat_nonneg _ h0, hshift, Nat.or_comm (packed (i * 3)).toUInt8.toNat,
    ← Nat.two_pow_add_eq_or_of_lt hb0, Nat.mod_eq_of_lt (by omega), Nat.or_comm,
    show 65536 * (packed (i * 3 + 2)).toUInt8.toNat =
      2 ^ 16 * (packed (i * 3 + 2)).toUInt8.toNat from rfl,
    ← Nat.two_pow_add_eq_or_of_lt (by omega)]
  omega

/-- What an unpacking loop leaves at an index. -/
theorem unpackGroups_eq {size : ℕ} (hsize : 0 < size) (value : ℕ → ℕ → Int8) (groups : ℕ)
    (memory : Bytes) (p : ℕ) :
    unpackGroups size value groups memory p =
      if p < groups * size then value (p / size) (p % size) else memory p := by
  unfold unpackGroups
  induction groups with
  | zero => rw [Nat.zero_mul, if_neg (Nat.not_lt_zero p)]; rfl
  | succ groups ih =>
    rw [List.range_succ, List.foldl_append, List.foldl_cons, List.foldl_nil, ih, Nat.succ_mul]
    rcases Nat.lt_or_ge p (groups * size) with hlt | hge
    · rw [if_neg (by omega), if_pos hlt, if_pos (by omega)]
    · by_cases hin : p < groups * size + size
      · have hdiv : p / size = groups := Nat.div_eq_of_lt_le hge (by rwa [Nat.succ_mul])
        have hmod : p % size = p - groups * size := by
          rw [← hdiv, Nat.mul_comm]
          exact Nat.mod_eq_sub_mul_div
        rw [if_pos ⟨hge, hin⟩, if_pos hin, hdiv, hmod]
      · rw [if_neg (by omega), if_neg (by omega), if_neg hin]

theorem int6Field_value {packed : Bytes} {e : ℕ} (h0 : 0 ≤ (packed (e / 4 * 3)).toInt)
    (h1 : 0 ≤ (packed (e / 4 * 3 + 1)).toInt) :
    (int6Field (packedWord packed (e / 4)) (e % 4)).toInt = Format.int6.value packed e := by
  have hl : e % 4 < 4 := Nat.mod_lt e (by decide)
  have hbits : ∀ n : ℕ, n / 64 ^ (e % 4) % 64 = n % 2 ^ 24 / 64 ^ (e % 4) % 64 := fun n => by
    rcases (by omega : e % 4 = 0 ∨ e % 4 = 1 ∨ e % 4 = 2 ∨ e % 4 = 3) with h | h | h | h <;>
      rw [h] <;> omega
  rw [int6Field_eq _ hl, hbits, packedWord_mod h0 h1]
  rfl

/-- **An INT6 operand is unpacked right** in complete groups whose first two bytes have no
sign. -/
theorem unpackInt6_value {packed memory : Bytes} {count : UInt32} {e : ℕ}
    (he : e < (count / 4).toNat * 4) (h0 : 0 ≤ (packed (e / 4 * 3)).toInt)
    (h1 : 0 ≤ (packed (e / 4 * 3 + 1)).toInt) :
    (unpackInt6 packed count memory e).toInt = Format.int6.value packed e := by
  rw [unpackInt6, unpackGroups_eq (by decide), if_pos he, int6Field_value h0 h1]

theorem int4Field_value_iff {packed : Bytes} {e : ℕ} :
    (int4Field (packed (e / 2)) (e % 2)).toInt = Format.int4.value packed e ↔
      e % 2 = 1 ∨ (-8 ≤ (packed (e / 2)).toInt ∧ (packed (e / 2)).toInt < 8) := by
  rw [Format.value]
  rcases Nat.mod_two_eq_zero_or_one e with h | h
  · rw [h, Nat.pow_zero, Nat.div_one, int4Field_low_iff, or_iff_right (by decide)]
  · rw [h, Nat.pow_one]
    exact iff_of_true (int4Field_high _) (.inl rfl)

/-- **An INT4 operand is unpacked right** in complete pairs: the second value always, the first
one if the byte is its own low half. -/
theorem unpackInt4_value_iff {packed memory : Bytes} {count : UInt32} {e : ℕ}
    (he : e < (count / 2).toNat * 2) :
    (unpackInt4 packed count memory e).toInt = Format.int4.value packed e ↔
      e % 2 = 1 ∨ (-8 ≤ (packed (e / 2)).toInt ∧ (packed (e / 2)).toInt < 8) := by
  rw [unpackInt4, unpackGroups_eq (by decide), if_pos he, int4Field_value_iff]

/-- An index of an operand in complete groups is unpacked. -/
theorem Grouped.lt_groups {size count : ℕ} {Good : ℕ → Prop} (h : Grouped size count Good) {e : ℕ}
    (he : e < count) {m n k : UInt32} (hcount : m.toNat * n.toNat = count)
    (hsize : k.toNat = size) : e < (m * n / k).toNat * size := by
  rw [UInt32.toNat_div, UInt32.toNat_mul, hcount, Nat.mod_eq_of_lt h.count_lt, hsize,
    Nat.div_mul_cancel h.complete]
  exact he

/-! ### When the product is exact -/

section Exact

variable {s : Shape} {matA matB : Bytes}

/-- A sum in the accumulator is a number that fits it exactly if both agree in 32 bits. -/
theorem toInt_ofInt_eq_iff {x t : ℤ} (hlow : -2 ^ 31 ≤ t) (hhigh : t < 2 ^ 31) :
    (Int32.ofInt x).toInt = t ↔ x ≡ t [ZMOD 2 ^ 32] := by
  rw [Int32.toInt_ofInt, Int.ModEq]
  change x.bmod 4294967296 = t ↔ x % 4294967296 = t % 4294967296
  rw [Int.bmod_def]
  split <;> omega

/-- A word other than a number. -/
theorem exists_word_ne (t : ℤ) : ∃ w : Int32, w.toInt ≠ t := by
  rcases eq_or_ne t 0 with rfl | hne
  · exact ⟨1, by decide⟩
  · exact ⟨0, fun h => hne h.symm⟩

/-- **When the INT8 kernel is exact**, for sums that fit the accumulator. -/
theorem matmulInt8Neon_exact_iff {target : ℕ → ℕ → ℤ} (hrows : s.rowsA ≠ 0) (hcols : s.colsB ≠ 0)
    (hfits : s.All fun i j => -2 ^ 31 ≤ target i j ∧ target i j < 2 ^ 31) :
    (∀ before, ∃ result, matmulInt8Neon s matA matB before = some result ∧
      s.All fun i j => (result (i * s.colsB.toNat + j)).toInt = target i j) ↔
      (s.colsB = 4 ∨ s.colsB = 5 ∨ s.colsB = 6) ∧ s.rowsA.toNat * s.colsB.toNat ≤ 2 ^ 32 ∧
        s.All fun i j =>
          readSum s matA matB (UInt32.ofNat i) 0 j ≡ target i j [ZMOD 2 ^ 32] := by
  by_cases hshape : (s.colsB = 4 ∨ s.colsB = 5 ∨ s.colsB = 6) ∧
      s.rowsA.toNat * s.colsB.toNat ≤ 2 ^ 32
  · have hsix : 4 ≤ s.colsB.toNat ∧ s.colsB.toNat ≤ 6 := by
      rcases hshape.1 with h | h | h <;> rw [h] <;> decide
    rw [← and_assoc, and_iff_right hshape]
    constructor
    · intro hexact i hi j hj
      obtain ⟨result, hresult, hvalue⟩ := hexact fun _ => 0
      obtain ⟨result', hresult', hstored⟩ := rowLoop_served hsix hshape.2 fun _ => 0
      cases hresult.symm.trans hresult'
      rw [← toInt_ofInt_eq_iff (hfits i hi j hj).1 (hfits i hi j hj).2, ← hstored i hi j hj]
      exact hvalue i hi j hj
    · intro hread before
      obtain ⟨result, hresult, hstored⟩ := rowLoop_served hsix hshape.2 before
      refine ⟨result, hresult, fun i hi j hj => ?_⟩
      change (result (i * s.colsB.toNat + j)).toInt = target i j
      rw [hstored i hi j hj, toInt_ofInt_eq_iff (hfits i hi j hj).1 (hfits i hi j hj).2]
      exact hread i hi j hj
  · refine iff_of_false (fun hexact => ?_) fun h => hshape ⟨h.1, h.2.1⟩
    obtain ⟨i, hi, j, hj, hspared⟩ := exists_spared hrows hcols hshape
    obtain ⟨w, hw⟩ := exists_word_ne (target i j)
    obtain ⟨result, hresult, hvalue⟩ := hexact fun _ => w
    have hkept := rowLoop_of_spared hspared hresult
    exact hw (hkept ▸ hvalue i hi j hj)

/-- A kernel hands its operands to the INT8 kernel, or returns without them. -/
theorem Format.matmul_eq (f : Format) (s : Shape) (o : Operands) (before : Words) :
    f.matmul s o before =
      match f.operands s o with
      | none => some before
      | some (matA, matB) => matmulInt8Neon s matA matB before := by
  cases f with
  | int8 | int6 | int4 => rfl

/-- Without rows or columns the kernels return, and there is no position. -/
theorem Format.exact_of_empty {f : Format} {o : Operands} (h : s.rowsA = 0 ∨ s.colsB = 0) :
    f.Exact s o := by
  have hall : ∀ P, s.All P := by
    intro P i hi j hj
    rcases h with h | h
    · rw [h] at hi
      exact absurd hi (Nat.not_lt_zero i)
    · rw [h] at hj
      exact absurd hj (Nat.not_lt_zero j)
  have hloop : ∀ matA matB before, matmulInt8Neon s matA matB before = some before := by
    intro matA matB before
    rcases h with h | h
    · rw [matmulInt8Neon, h]
      rfl
    · exact rowLoop_of_empty h _ before
  intro before
  refine ⟨before, ?_, hall _⟩
  rw [f.matmul_eq]
  rcases f.operands s o with _ | ⟨matA, matB⟩
  · rfl
  · exact hloop matA matB before

/-- The product is exact if the sums are read right. -/
theorem Format.exact_of_readSum {f : Format} {o : Operands} (hfits : f.Fits s o)
    (hop : f.operands s o = some (matA, matB)) (hshape : s.Stored)
    (hsum : s.All fun i j => readSum s matA matB (UInt32.ofNat i) 0 j = f.exactSum s o i j) :
    f.Exact s o := by
  by_cases hrows : s.rowsA = 0
  · exact exact_of_empty (.inl hrows)
  have hzero : s.colsB ≠ 0 := by rcases hshape.1 with h | h | h <;> rw [h] <;> decide
  intro before
  rw [f.matmul_eq, hop]
  exact (matmulInt8Neon_exact_iff hrows hzero hfits).mpr
    ⟨hshape.1, hshape.2, fun i hi j hj => congrArg (· % 2 ^ 32) (hsum i hi j hj)⟩ before

/-- Sums over operands that are unpacked right are read right, if all indices have 32 bits. -/
theorem Format.readSum_eq {f : Format} {o : Operands}
    (hsizeA : s.rowsA.toNat * s.colsA.toNat ≤ 2 ^ 32)
    (hsizeB : s.colsA.toNat * s.colsB.toNat ≤ 2 ^ 32)
    (hA : ∀ e < s.rowsA.toNat * s.colsA.toNat, (matA e).toInt = f.value o.matA e)
    (hB : ∀ e < s.colsA.toNat * s.colsB.toNat, (matB e).toInt = f.value o.matB e) :
    s.All fun i j => readSum s matA matB (UInt32.ofNat i) 0 j = f.exactSum s o i j := by
  intro i hi j hj
  refine sum_congr rfl fun k hk => ?_
  rw [mem_range] at hk
  have ha := position_lt hi hk
  have hb := position_lt hk hj
  have hindexA : (UInt32.ofNat i * s.colsA + UInt32.ofNat k).toNat = i * s.colsA.toNat + k := by
    rw [UInt32.toNat_add, UInt32.toNat_mul, UInt32.toNat_ofNat', UInt32.toNat_ofNat',
      Nat.mod_mul_mod, Nat.mod_add_mod, Nat.add_mod_mod]
    exact Nat.mod_eq_of_lt (Nat.lt_of_lt_of_le ha hsizeA)
  have hindexB : (UInt32.ofNat k * s.colsB + 0).toNat = k * s.colsB.toNat := by
    rw [UInt32.add_zero, UInt32.toNat_mul, UInt32.toNat_ofNat', Nat.mod_mul_mod]
    exact Nat.mod_eq_of_lt (by omega)
  rw [hindexA, hindexB, hA _ ha, hB _ hb]

/-- **The product of operands that are unpacked right is exact**, in shapes whose indices all
have 32 bits. -/
theorem Format.exact_of_unpacked {f : Format} {o : Operands} (hfits : f.Fits s o)
    (hop : f.operands s o = some (matA, matB))
    (hcols : s.colsB = 4 ∨ s.colsB = 5 ∨ s.colsB = 6)
    (hresult : s.rowsA.toNat * s.colsB.toNat ≤ 2 ^ 32)
    (hsizeA : s.rowsA.toNat * s.colsA.toNat ≤ 2 ^ 32)
    (hsizeB : s.colsA.toNat * s.colsB.toNat ≤ 2 ^ 32)
    (hA : ∀ e < s.rowsA.toNat * s.colsA.toNat, (matA e).toInt = f.value o.matA e)
    (hB : ∀ e < s.colsA.toNat * s.colsB.toNat, (matB e).toInt = f.value o.matB e) :
    f.Exact s o :=
  exact_of_readSum hfits hop ⟨hcols, hresult⟩ (readSum_eq hsizeA hsizeB hA hB)

/-- The head of a kernel for packed operands. -/
theorem unpackOperands_eq (hrows : s.rowsA ≠ 0) (hcols : s.colsB ≠ 0) (o : Operands)
    (unpack : Bytes → UInt32 → Bytes → Bytes) :
    unpackOperands s o unpack =
      if s.colsA = 0 then none
      else
        match o.heapA, o.heapB with
        | some memoryA, some memoryB => some (unpack o.matA (s.rowsA * s.colsA) memoryA,
          unpack o.matB (s.colsA * s.colsB) memoryB)
        | _, _ => none := by
  have hproduct : ∀ a b : UInt32, a.toUInt64 * b.toUInt64 = 0 ↔ a = 0 ∨ b = 0 := fun a b => by
    have hlt := Nat.mul_lt_mul'' a.toNat_lt b.toNat_lt
    rw [← UInt64.toNat_inj, UInt64.toNat_mul, UInt32.toNat_toUInt64, UInt32.toNat_toUInt64,
      Nat.mod_eq_of_lt hlt, ← UInt32.toNat_inj, ← UInt32.toNat_inj]
    exact Nat.mul_eq_zero
  refine if_congr ?_ rfl rfl
  rw [hproduct, hproduct, or_iff_right hrows, or_iff_left hcols, or_self]

/-- Which operands get beyond the head. -/
theorem Format.operands_isSome_iff (hrows : s.rowsA ≠ 0) (hcols : s.colsB ≠ 0) (f : Format)
    (o : Operands) : (f.operands s o).isSome ↔ f.Handed s o := by
  have hpacked : ∀ unpack, (unpackOperands s o unpack).isSome ↔
      s.colsA ≠ 0 ∧ o.heapA.isSome ∧ o.heapB.isSome := fun unpack => by
    rw [unpackOperands_eq hrows hcols]
    split
    · next h => exact iff_of_false (by simp) fun hc => hc.1 h
    · next h => rcases o.heapA with _ | a <;> rcases o.heapB with _ | b <;> simp [h]
  cases f with
  | int8 => exact iff_of_true rfl (.inl rfl)
  | int6 | int4 => exact (hpacked _).trans (or_iff_right nofun).symm

/-- What is handed over has the values of the packed operands. -/
theorem Format.operands_value {f : Format} {o : Operands} (hrows : s.rowsA ≠ 0)
    (hcols : s.colsB ≠ 0) (hop : f.operands s o = some (matA, matB))
    (hA : f.Unpacks o.matA (s.rowsA.toNat * s.colsA.toNat))
    (hB : f.Unpacks o.matB (s.colsA.toNat * s.colsB.toNat)) :
    (∀ e < s.rowsA.toNat * s.colsA.toNat, (matA e).toInt = f.value o.matA e) ∧
      ∀ e < s.colsA.toNat * s.colsB.toNat, (matB e).toInt = f.value o.matB e := by
  have hpacked : ∀ {unpack}, unpackOperands s o unpack = some (matA, matB) →
      ∃ memoryA memoryB, matA = unpack o.matA (s.rowsA * s.colsA) memoryA ∧
        matB = unpack o.matB (s.colsA * s.colsB) memoryB := fun {unpack} h => by
    rw [unpackOperands_eq hrows hcols] at h
    split at h
    · cases h
    · split at h
      · cases h
        exact ⟨_, _, rfl, rfl⟩
      · cases h
  cases f with
  | int8 =>
    cases hop
    exact ⟨fun _ _ => rfl, fun _ _ => rfl⟩
  | int6 =>
    obtain ⟨memoryA, memoryB, rfl, rfl⟩ := hpacked hop
    have hvalue : ∀ {packed memory : Bytes} {m n : UInt32} {e : ℕ},
        Format.int6.Unpacks packed (m.toNat * n.toNat) → e < m.toNat * n.toNat →
          (unpackInt6 packed (m * n) memory e).toInt = Format.int6.value packed e :=
      fun h he => by
        obtain ⟨h0, h1⟩ := h.good _ (Nat.div_lt_div_of_lt_of_dvd h.complete he)
        rw [unpackInt6, unpackGroups_eq (by decide), if_pos (h.lt_groups he rfl rfl),
          int6Field_value h0 h1]
    exact ⟨fun e he => hvalue hA he, fun e he => hvalue hB he⟩
  | int4 =>
    obtain ⟨memoryA, memoryB, rfl, rfl⟩ := hpacked hop
    have hvalue : ∀ {packed memory : Bytes} {m n : UInt32} {e : ℕ},
        Format.int4.Unpacks packed (m.toNat * n.toNat) → e < m.toNat * n.toNat →
          (unpackInt4 packed (m * n) memory e).toInt = Format.int4.value packed e :=
      fun h he => by
        rw [unpackInt4, unpackGroups_eq (by decide), if_pos (h.lt_groups he rfl rfl),
          int4Field_value_iff]
        exact .inr (h.good _ (Nat.div_lt_div_of_lt_of_dvd h.complete he))
    exact ⟨fun e he => hvalue hA he, fun e he => hvalue hB he⟩

/-- Operands that are unpacked right have 32-bit indices. -/
theorem Format.Unpacks.count_le {f : Format} {packed : Bytes} {count : ℕ}
    (h : f.Unpacks packed count) : count ≤ 2 ^ 32 := by
  cases f with
  | int8 => exact h
  | int6 | int4 => exact Nat.le_of_lt h.count_lt

/-- **The products are exact** for operands whose sums fit the accumulator, if the shape is one
that is stored and the packed bytes are unpacked right; and only in such shapes, unless the
result is empty. The bytes are not necessary: zeros in one operand hide what is wrong in the
other. -/
theorem matmul_exact (f : Format) (s : Shape) (o : Operands) (hfits : f.Fits s o) :
    (f.Exact s o → s.rowsA = 0 ∨ s.colsB = 0 ∨ s.Stored ∧ f.Handed s o) ∧
      (s.Stored → f.Handed s o → f.Unpacks o.matA (s.rowsA.toNat * s.colsA.toNat) →
        f.Unpacks o.matB (s.colsA.toNat * s.colsB.toNat) → f.Exact s o) := by
  by_cases hempty : s.rowsA = 0 ∨ s.colsB = 0
  · exact ⟨fun _ => or_assoc.mp (.inl hempty), fun _ _ _ _ => Format.exact_of_empty hempty⟩
  obtain ⟨hrows, hcols⟩ := not_or.mp hempty
  rw [← f.operands_isSome_iff hrows hcols o]
  rcases hop : f.operands s o with _ | ⟨matA, matB⟩
  -- the kernel returns and leaves what was there
  · refine ⟨fun hexact => ?_, nofun⟩
    obtain ⟨w, hw⟩ := exists_word_ne (f.exactSum s o 0 0)
    obtain ⟨result, hresult, hvalue⟩ := hexact fun _ => w
    rw [f.matmul_eq, hop] at hresult
    cases hresult
    exact absurd (hvalue 0 (UInt32.lt_iff_toNat_lt.mp (UInt32.pos_iff_ne_zero.mpr hrows)) 0
      (UInt32.lt_iff_toNat_lt.mp (UInt32.pos_iff_ne_zero.mpr hcols))) hw
  · refine ⟨fun hexact => .inr (.inr ⟨?_, rfl⟩), fun hshape _ hA hB => ?_⟩
    · simp only [Format.Exact, f.matmul_eq, hop] at hexact
      obtain ⟨hfour, hsize, -⟩ := (matmulInt8Neon_exact_iff hrows hcols hfits).mp hexact
      exact ⟨hfour, hsize⟩
    · obtain ⟨hvalueA, hvalueB⟩ := Format.operands_value hrows hcols hop hA hB
      exact Format.exact_of_readSum hfits hop hshape
        (Format.readSum_eq hA.count_le hB.count_le hvalueA hvalueB)

end Exact

/-- An operand of ones. -/
def ones : Operands := ⟨fun _ => 1, fun _ => 1, none, none⟩

theorem unpackInt6_value_ones :
    (unpackInt6 ones.matA 4 (fun _ => 0) 3).toInt = Format.int6.value ones.matA 3 :=
  unpackInt6_value (by decide) (by decide) (by decide)

theorem unpackInt4_value_ones :
    (unpackInt4 ones.matA 2 (fun _ => 0) 0).toInt = Format.int4.value ones.matA 0 :=
  (unpackInt4_value_iff (by decide)).mpr (.inr (by decide))

/-- INT6 ones, and INT4 bytes of the pairs 3 and 0. -/
def int6Ones : Operands :=
  let packed := fun p => if p % 3 = 0 then 65 else if p % 3 = 1 then 16 else 4
  ⟨packed, packed, some fun _ => 0, some fun _ => 0⟩

@[inherit_doc int6Ones] def int4Threes : Operands :=
  ⟨fun _ => 3, fun _ => 3, some fun _ => 0, some fun _ => 0⟩

theorem exact_int4Threes : Format.int4.exactSum ⟨1, 2, 4⟩ int4Threes 0 0 = 9 ∧
    Format.int4.Exact ⟨1, 2, 4⟩ int4Threes := by
  refine ⟨by decide +kernel, Format.exact_of_unpacked ?_ rfl (.inl rfl) (by decide) (by decide)
    (by decide) ?_ ?_⟩
  · unfold Format.Fits Shape.All
    decide +kernel
  · decide +kernel
  · decide +kernel

theorem exact_int6Ones : Format.int6.exactSum ⟨1, 4, 4⟩ int6Ones 0 0 = 4 ∧
    Format.int6.Exact ⟨1, 4, 4⟩ int6Ones := by
  refine ⟨by decide +kernel, (matmul_exact .int6 ⟨1, 4, 4⟩ int6Ones ?_).2 ⟨.inl rfl, by decide⟩
    (.inr ⟨by decide, rfl, rfl⟩) ⟨by decide, by decide, ?_⟩ ⟨by decide, by decide, ?_⟩⟩
  · unfold Format.Fits Shape.All
    decide +kernel
  · decide +kernel
  · decide +kernel

/-- Three bytes of INT6 with the sign bit of the first set, against ones. -/
def signedInt6 : Operands := { int6Ones with matA := fun p => if p = 0 then -128 else 0 }

/-- Bytes of two INT4 ones. -/
def int4Ones : Operands := ⟨fun _ => 17, fun _ => 17, some fun _ => 0, some fun _ => 0⟩

/-- The word the kernel leaves at a position, in a result of zeros. -/
def Format.wordAt (f : Format) (s : Shape) (o : Operands) (p : ℕ) : Option ℤ :=
  (f.matmul s o fun _ => 0).map fun result => (result p).toInt

/-- The sum of one product is not stored at all, lane 6 of eight columns neither; the sign of a
byte spreads over the INT6 values behind it, and the low INT4 value is the whole byte. -/
theorem products_not_exact :
    (Format.int8.wordAt ⟨1, 1, 1⟩ ones 0 = some 0 ∧ Format.int8.exactSum ⟨1, 1, 1⟩ ones 0 0 = 1) ∧
    (Format.int8.wordAt ⟨1, 1, 8⟩ ones 6 = some 0 ∧ Format.int8.exactSum ⟨1, 1, 8⟩ ones 0 6 = 1) ∧
    (Format.int6.wordAt ⟨1, 4, 4⟩ signedInt6 0 = some (-4) ∧
      Format.int6.exactSum ⟨1, 4, 4⟩ signedInt6 0 0 = 2) ∧
    (Format.int4.wordAt ⟨1, 2, 4⟩ int4Ones 0 = some 306 ∧
      Format.int4.exactSum ⟨1, 2, 4⟩ int4Ones 0 0 = 2) := by
  decide +kernel

end Xaios.AiKernels
