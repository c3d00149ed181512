import Xaios.MutableFs.Volume

/-!
# Data blocks: the bitmap allocator

`allocate_blocks` and `free_blocks` of `mutable_fs.c`. The allocator scans the
bitmap upwards and takes the first free blocks; when there are not enough it
puts back the ones it took. `MutableFs.Volume.allocateBlocks_eq` says all of it
in one equation: the blocks handed out are the first `count` entries of
`MutableFs.Volume.freeList`, and a failed allocation leaves the volume as it
was.
-/

namespace Xaios.MutableFs.Volume

open List

/-! ### Setting bits -/

/-- `block_bitmap[b] = x` for each of the blocks in turn. -/
def setBits (v : Volume) (x : UInt8) (bs : List UInt16) : Volume :=
  bs.foldl (fun v b => v.setBit b.toNat x) v

variable (v : Volume)

variable (x : UInt8) (bs : List UInt16)

@[simp] theorem setBits_nil : v.setBits x [] = v := rfl

@[simp] theorem setBits_cons (b : UInt16) (bs : List UInt16) :
    v.setBits x (b :: bs) = (v.setBit b.toNat x).setBits x bs := rfl

/-- The bitmap is all that setting a bit changes. -/
theorem setBit_eq (b : ℕ) (x : UInt8) :
    v.setBit b x = { v with blockBitmap := (v.setBit b x).blockBitmap } := by
  unfold setBit
  split <;> rfl

/-- The bitmap is all that setting bits changes. -/
theorem setBits_eq : v.setBits x bs = { v with blockBitmap := (v.setBits x bs).blockBitmap } := by
  induction bs generalizing v with
  | nil => rfl
  | cons b bs ih =>
    rw [setBits_cons, ih (v.setBit b.toNat x), setBit_eq v]

theorem bit_setBits (hbs : ∀ b ∈ bs, b.toNat < 256) (c : ℕ) :
    (v.setBits x bs).bit c = if c ∈ bs.map UInt16.toNat then x else v.bit c := by
  induction bs generalizing v with
  | nil => simp
  | cons b bs ih =>
    rw [setBits_cons, ih _ fun b' hb' => hbs b' (by simp [hb']),
      bit_setBit _ _ _ _ (hbs b (by simp))]
    by_cases h1 : c ∈ bs.map UInt16.toNat
    · rw [if_pos h1, map_cons, if_pos (mem_cons_of_mem _ h1)]
    · rw [if_neg h1]
      refine if_congr ?_ rfl rfl
      rw [map_cons, mem_cons, or_iff_left h1]

/-- Two volumes that differ in the bitmap at most are equal when their bits
are. -/
theorem eq_of_bit_eq {v w : Volume} (hw : w = { v with blockBitmap := w.blockBitmap })
    (h : ∀ b, w.bit b = v.bit b) : w = v := by
  rw [hw]
  have hb : w.blockBitmap = v.blockBitmap := by
    funext b
    have := h b
    simpa [bit, b.isLt] using this
  rw [hb]

/-! ### Freeing -/

/-- `free_blocks`. -/
def freeBlocks (v : Volume) (g : Geometry) (bs : List UInt16) : Volume :=
  bs.foldl (fun v b =>
    if b.toNat < g.dataSectors ∧ v.bit b.toNat ≠ 0 then v.setBit b.toNat 0 else v) v

variable (g : Geometry)

@[simp] theorem freeBlocks_nil : v.freeBlocks g [] = v := rfl

theorem freeBlocks_cons (b : UInt16) (bs : List UInt16) :
    v.freeBlocks g (b :: bs) =
      (if b.toNat < g.dataSectors ∧ v.bit b.toNat ≠ 0 then v.setBit b.toNat 0
        else v).freeBlocks g bs :=
  rfl

/-- The bitmap is all that freeing changes. -/
theorem freeBlocks_eq :
    v.freeBlocks g bs = { v with blockBitmap := (v.freeBlocks g bs).blockBitmap } := by
  induction bs generalizing v with
  | nil => rfl
  | cons b bs ih =>
    rw [freeBlocks_cons]
    split
    · rw [ih (v.setBit b.toNat 0), setBit_eq v]
    · exact ih v

/-- **What freeing does to the bitmap**: it clears the listed blocks of the data
region and no other. -/
theorem bit_freeBlocks (c : ℕ) :
    (v.freeBlocks g bs).bit c =
      if c < g.dataSectors ∧ c ∈ bs.map UInt16.toNat then 0 else v.bit c := by
  induction bs generalizing v with
  | nil => simp
  | cons b bs ih =>
    have hstep : (if b.toNat < g.dataSectors ∧ v.bit b.toNat ≠ 0 then v.setBit b.toNat 0
        else v).bit c = if c < g.dataSectors ∧ c = b.toNat then 0 else v.bit c := by
      by_cases hb : b.toNat < g.dataSectors
      · have hb256 : b.toNat < 256 := lt_of_lt_of_le hb g.dataSectors_le
        rcases eq_or_ne (v.bit b.toNat) 0 with h0 | h0
        · rw [if_neg fun h => h.2 h0]
          rcases eq_or_ne c b.toNat with rfl | hc
          · simp [h0]
          · simp [hc]
        · rw [if_pos ⟨hb, h0⟩, bit_setBit _ _ _ _ hb256]
          rcases eq_or_ne c b.toNat with rfl | hc
          · simp [hb]
          · simp [hc]
      · rw [if_neg fun h => hb h.1, if_neg]
        rintro ⟨h1, rfl⟩
        exact hb h1
    rw [freeBlocks_cons, ih, hstep]
    by_cases h1 : c < g.dataSectors ∧ c ∈ bs.map UInt16.toNat
    · rw [if_pos h1, map_cons, if_pos ⟨h1.1, mem_cons_of_mem _ h1.2⟩]
    · rw [if_neg h1]
      refine if_congr ?_ rfl rfl
      rw [map_cons, mem_cons]
      exact ⟨fun h => ⟨h.1, .inl h.2⟩, fun h => ⟨h.1, h.2.resolve_right fun hm => h1 ⟨h.1, hm⟩⟩⟩

/-! ### Allocating -/

/-- The free blocks of the data region, in the order of the scan. -/
def freeList (v : Volume) (g : Geometry) : List ℕ :=
  (range g.dataSectors).filter fun b => v.bit b = 0

/-- The scan of `allocate_blocks` over the remaining block numbers, with the
blocks found so far. -/
def allocScan (count : ℕ) : List ℕ → Volume → List UInt16 → Volume × List UInt16
  | [], v, found => (v, found)
  | b :: rest, v, found =>
    if found.length < count then
      if v.bit b = 0 then allocScan count rest (v.setBit b 1) (found ++ [UInt16.ofNat b])
      else allocScan count rest v found
    else (v, found)

/-- `allocate_blocks`: the status, the volume and the blocks handed out. -/
def allocateBlocks (v : Volume) (g : Geometry) (count : ℕ) : Status × Volume × List UInt16 :=
  if g.fileMaxBlocks < count then (.invalid, v, [])
  else if count = 0 then (.ok, v, [])
  else
    let r := allocScan count (range g.dataSectors) v []
    if r.2.length ≠ count then (.noMemory, r.1.setBits 0 r.2, []) else (.ok, r.1, r.2)

/-- What a scan finds: the first free blocks it passes, up to the count. -/
theorem allocScan_eq (count : ℕ) (idx : List ℕ) (v : Volume) (found : List UInt16)
    (hnd : idx.Nodup) (hlt : ∀ b ∈ idx, b < 256) :
    allocScan count idx v found =
      (v.setBits 1
        (((idx.filter fun b => v.bit b = 0).take (count - found.length)).map UInt16.ofNat),
        found ++
          ((idx.filter fun b => v.bit b = 0).take (count - found.length)).map UInt16.ofNat) := by
  induction idx generalizing v found with
  | nil => simp [allocScan]
  | cons b rest ih =>
    obtain ⟨hb, hnd'⟩ := nodup_cons.mp hnd
    have hlt' : ∀ c ∈ rest, c < 256 := fun c hc => hlt c (by simp [hc])
    have hb256 : b < 256 := hlt b (by simp)
    rw [allocScan]
    by_cases hf : found.length < count
    · rw [if_pos hf]
      by_cases h0 : v.bit b = 0
      · -- the block is taken: the rest of the scan does not meet it again
        have hrest : (rest.filter fun c => (v.setBit b 1).bit c = 0) =
            rest.filter fun c => v.bit c = 0 := by
          refine filter_congr fun c hc => ?_
          have hcb : c ≠ b := fun h => hb (h ▸ hc)
          rw [bit_setBit _ _ _ _ hb256, if_neg hcb]
        have hsub : count - found.length = (count - (found ++ [UInt16.ofNat b]).length) + 1 := by
          simp only [length_append, length_singleton]
          omega
        have hofNat : (UInt16.ofNat b).toNat = b := by
          simpa using Nat.mod_eq_of_lt (by omega : b < 65536)
        rw [if_pos h0, ih _ _ hnd' hlt', hrest, filter_cons_of_pos (by simpa using h0), hsub,
          take_succ_cons, map_cons, setBits_cons, hofNat, append_assoc,
          singleton_append]
      · rw [if_neg h0, ih _ _ hnd' hlt', filter_cons_of_neg (by simpa using h0)]
    · rw [if_neg hf, show count - found.length = 0 by omega]
      simp

/-- The blocks an allocation of `count` blocks looks at. -/
def firstFree (v : Volume) (g : Geometry) (count : ℕ) : List UInt16 :=
  ((v.freeList g).take count).map UInt16.ofNat

theorem toNat_ofNat_of_mem_freeList {v : Volume} {g : Geometry} {b : ℕ} (h : b ∈ v.freeList g) :
    (UInt16.ofNat b).toNat = b := by
  have hb : b < g.dataSectors := by
    have := mem_filter.mp h
    simpa using this.1
  have := g.dataSectors_le
  simpa using Nat.mod_eq_of_lt (by omega : b < 65536)

/-- Every block an allocation hands out is free and in the data region. -/
theorem mem_firstFree {v : Volume} {g : Geometry} {count : ℕ} {b : UInt16}
    (h : b ∈ v.firstFree g count) : b.toNat < g.dataSectors ∧ v.bit b.toNat = 0 := by
  obtain ⟨c, hc, rfl⟩ := mem_map.mp h
  have hmem : c ∈ v.freeList g := mem_of_mem_take hc
  rw [toNat_ofNat_of_mem_freeList hmem]
  have := mem_filter.mp hmem
  simpa using this

theorem map_toNat_firstFree (count : ℕ) :
    (v.firstFree g count).map UInt16.toNat = (v.freeList g).take count := by
  rw [firstFree, map_map]
  conv_rhs => rw [← map_id ((v.freeList g).take count)]
  exact map_congr_left fun b hb => toNat_ofNat_of_mem_freeList (mem_of_mem_take hb)

/-- The blocks an allocation hands out are pairwise different. -/
theorem nodup_firstFree (count : ℕ) : (v.firstFree g count).Nodup := by
  refine List.Nodup.of_map UInt16.toNat ?_
  rw [map_toNat_firstFree]
  exact (nodup_range.filter _).sublist (take_sublist _ _)

theorem length_firstFree (count : ℕ) :
    (v.firstFree g count).length = min count (v.freeList g).length := by
  simp [firstFree]

/-- Marking free blocks and clearing them again changes nothing. -/
theorem setBits_zero_setBits_one {v : Volume} {bs : List UInt16} (hlt : ∀ b ∈ bs, b.toNat < 256)
    (h0 : ∀ b ∈ bs, v.bit b.toNat = 0) : (v.setBits 1 bs).setBits 0 bs = v := by
  refine eq_of_bit_eq ?_ fun c => ?_
  · rw [setBits_eq, setBits_eq v]
  · rw [bit_setBits _ _ _ hlt, bit_setBits _ _ _ hlt]
    by_cases hc : c ∈ bs.map UInt16.toNat
    · obtain ⟨b, hb, rfl⟩ := mem_map.mp hc
      rw [if_pos hc, h0 b hb]
    · rw [if_neg hc, if_neg hc]

/-- **The allocator in one equation.** It hands out the first free blocks, and
when there are fewer of them than asked for it leaves the volume as it was. -/
theorem allocateBlocks_eq {count : ℕ} (hcount : count ≤ g.fileMaxBlocks) :
    v.allocateBlocks g count =
      if count ≤ (v.freeList g).length then
        (.ok, v.setBits 1 (v.firstFree g count), v.firstFree g count)
      else (.noMemory, v, []) := by
  have hlt : ∀ b ∈ range g.dataSectors, b < 256 := fun b hb =>
    lt_of_lt_of_le (mem_range.mp hb) g.dataSectors_le
  have hscan : allocScan count (range g.dataSectors) v [] =
      (v.setBits 1 (v.firstFree g count), v.firstFree g count) := by
    rw [allocScan_eq count _ v [] nodup_range hlt]
    rfl
  rw [allocateBlocks, if_neg (by omega)]
  rcases Nat.eq_zero_or_pos count with rfl | hpos
  · simp [firstFree]
  · rw [if_neg (by omega), hscan]
    simp only [length_firstFree]
    by_cases hle : count ≤ (v.freeList g).length
    · rw [if_pos hle, if_neg (by omega)]
    · rw [if_neg hle, if_pos (by omega), setBits_zero_setBits_one]
      · intro b hb
        exact lt_of_lt_of_le (mem_firstFree hb).1 g.dataSectors_le
      · exact fun b hb => (mem_firstFree hb).2

end Xaios.MutableFs.Volume
