import Xaios.Mm.Roles

/-!
# The tables at boot

`build_tables` puts the static tables into their roles: one root, one table of level 1, four
of level 2 with the identity mapping in blocks, and tables of level 3 for the blocks of the
kernel image (`Mm.built_buildTables`). The pages of the allocator are not among them,
since the image is reserved (`Mm.roles_buildTables`).
-/

namespace Xaios.Mm

open List Option

namespace Kernel

variable (K : Kernel)

/-- The static tables. -/
def statics : List ℕ := staticTables K.l0Table K.l1Table K.l2Tables K.l3Tables

theorem l0Table_mem : K.l0Table ∈ K.statics := mem_cons_self

theorem l1Table_mem : K.l1Table ∈ K.statics := mem_cons_of_mem _ mem_cons_self

variable {i : ℕ}

theorem l2Table_mem (hi : i < 4) : K.l2Table i ∈ K.statics :=
  mem_cons_of_mem _ (mem_cons_of_mem _ (mem_append_left _
    (mem_map.mpr ⟨i, mem_range.mpr hi, rfl⟩)))

theorem l3Table_mem (hi : i < 16) : K.l3Table i ∈ K.statics :=
  mem_cons_of_mem _ (mem_cons_of_mem _ (mem_append_right _
    (mem_map.mpr ⟨i, mem_range.mpr hi, rfl⟩)))

theorem l2Table_injective : Function.Injective K.l2Table := by
  intro i j h
  rw [l2Table, l2Table] at h
  omega

theorem l3Table_injective : Function.Injective K.l3Table := by
  intro i j h
  rw [l3Table, l3Table] at h
  omega

theorem l0_ne_l1 : K.l0Table ≠ K.l1Table := fun h =>
  (nodup_cons.mp K.nodup).1 (h ▸ mem_cons_self)

theorem l0_ne_l2 (hi : i < 4) : K.l0Table ≠ K.l2Table i := fun h =>
  (nodup_cons.mp K.nodup).1 (h ▸ mem_cons_of_mem _ (mem_append_left _
    (mem_map.mpr ⟨i, mem_range.mpr hi, rfl⟩)))

theorem l0_ne_l3 (hi : i < 16) : K.l0Table ≠ K.l3Table i := fun h =>
  (nodup_cons.mp K.nodup).1 (h ▸ mem_cons_of_mem _ (mem_append_right _
    (mem_map.mpr ⟨i, mem_range.mpr hi, rfl⟩)))

theorem l1_ne_l2 (hi : i < 4) : K.l1Table ≠ K.l2Table i := fun h =>
  (nodup_cons.mp (nodup_cons.mp K.nodup).2).1 (h ▸ mem_append_left _
    (mem_map.mpr ⟨i, mem_range.mpr hi, rfl⟩))

theorem l1_ne_l3 (hi : i < 16) : K.l1Table ≠ K.l3Table i := fun h =>
  (nodup_cons.mp (nodup_cons.mp K.nodup).2).1 (h ▸ mem_append_right _
    (mem_map.mpr ⟨i, mem_range.mpr hi, rfl⟩))

theorem l2_ne_l3 {i j : ℕ} (hi : i < 4) (hj : j < 16) : K.l2Table i ≠ K.l3Table j := fun h =>
  disjoint_of_nodup_append (nodup_cons.mp (nodup_cons.mp K.nodup).2).2
    (mem_map.mpr ⟨i, mem_range.mpr hi, rfl⟩)
    (mem_map.mpr ⟨j, mem_range.mpr hj, h.symm⟩)

theorem good_of_mem {t : ℕ} (h : t ∈ K.statics) : GoodPage t := by
  have hend := (K.inImage t h).2
  have hlow := K.low
  exact ⟨K.aligned t h, by omega⟩

/-- A page that may be handed out is none of the static tables. -/
theorem not_mem_of_usable {p : ℕ} (h : K.boot.Usable p) : p ∉ K.statics := by
  intro hmem
  obtain ⟨hbase, hend⟩ := K.inImage p hmem
  have hfree := h.free
  rw [BootInfo.pageIsReserved, Bool.or_eq_false_iff, overlaps, Bool.and_eq_false_iff,
    decide_eq_false_iff_not, decide_eq_false_iff_not] at hfree
  omega

/-- The roles of the static tables. The image has one table of level 3 for each block. -/
def role (p : ℕ) : Role :=
  if p = K.l0Table then .root
  else if p = K.l1Table then .top
  else if p ∈ (range 4).map K.l2Table then .middle ((p - K.l2Tables) / 4096)
  else if p ∈ (range 16).map K.l3Table then
    let block := K.boot.kernelPhysBase / 2 ^ 21 + (p - K.l3Tables) / 4096
    .leaf (block / 512) (block % 512)
  else .free

theorem role_l1 : K.role K.l1Table = .top := by
  rw [role, if_neg K.l0_ne_l1.symm, if_pos rfl]

theorem role_l2 (hi : i < 4) : K.role (K.l2Table i) = .middle i := by
  have hindex : (K.l2Table i - K.l2Tables) / 4096 = i := by
    rw [l2Table]
    omega
  rw [role, if_neg (K.l0_ne_l2 hi).symm, if_neg (K.l1_ne_l2 hi).symm,
    if_pos (mem_map.mpr ⟨i, mem_range.mpr hi, rfl⟩), hindex]

theorem role_l3 (hi : i < 16) : K.role (K.l3Table i) =
    .leaf ((K.boot.kernelPhysBase / 2 ^ 21 + i) / 512)
      ((K.boot.kernelPhysBase / 2 ^ 21 + i) % 512) := by
  have hindex : (K.l3Table i - K.l3Tables) / 4096 = i := by
    rw [l3Table]
    omega
  rw [role, if_neg (K.l0_ne_l3 hi).symm, if_neg (K.l1_ne_l3 hi).symm, if_neg,
    if_pos (mem_map.mpr ⟨i, mem_range.mpr hi, rfl⟩), hindex]
  intro hmem
  obtain ⟨j, hj, heq⟩ := mem_map.mp hmem
  exact K.l2_ne_l3 (mem_range.mp hj) hi heq

theorem mem_of_role {p : ℕ} (h : K.role p ≠ .free) : p ∈ K.statics := by
  rw [role] at h
  split_ifs at h with h0 h1 h2 h3
  · exact h0 ▸ K.l0Table_mem
  · exact h1 ▸ K.l1Table_mem
  · obtain ⟨i, hi, rfl⟩ := mem_map.mp h2
    exact K.l2Table_mem (mem_range.mp hi)
  · obtain ⟨i, hi, rfl⟩ := mem_map.mp h3
    exact K.l3Table_mem (mem_range.mp hi)
  · exact absurd rfl h

theorem role_eq_middle {p : ℕ} (h : K.role p = .middle i) : i < 4 ∧ p = K.l2Table i := by
  have hmem : p ∈ (range 4).map K.l2Table := by
    rw [role] at h
    split_ifs at h with h0 h1 h2 h3
    exact h2
  obtain ⟨j, hj, rfl⟩ := mem_map.mp hmem
  rw [mem_range] at hj
  rw [K.role_l2 hj, Role.middle.injEq] at h
  exact ⟨h ▸ hj, by rw [h]⟩

theorem role_not_owned (p : ℕ) : ¬(K.role p).IsOwned := by
  rintro (h | ⟨id, h⟩) <;> rw [role] at h <;> split_ifs at h

theorem pageAttrs_and (a : ℕ) : K.pageAttrs a &&& pteAddrMask = 0#64 := by
  unfold pageAttrs
  extract_lets touches inside
  split_ifs <;> rfl

end Kernel

/-! ### What is written -/

section Find

variable {f : ℕ → ℕ} {n t i : ℕ}

/-- Which of the tables a table is. -/
theorem find_table (hf : Function.Injective f) (hi : i < n) :
    (range n).find? (fun j => f j == f i) = some i := by
  rw [find?_range_eq_some]
  refine ⟨beq_self_eq_true _, mem_range.mpr hi, fun j hj => ?_⟩
  rw [Bool.not_eq_true', beq_eq_false_iff_ne]
  exact fun h => hj.ne (hf h)

theorem find_table_none (h : ∀ i < n, t ≠ f i) :
    (range n).find? (fun j => f j == t) = none := by
  rw [find?_eq_none]
  intro j hj
  rw [beq_iff_eq]
  exact fun heq => h j (mem_range.mp hj) heq.symm

end Find

/-- What `build_tables` leaves. -/
structure Built (K : Kernel) (pmm : Pmm) (v : Vmm) : Prop where
  pmm : v.pmm = pmm
  l0 : v.table K.l0Table 0 = tableDescriptor K.l1Table
  l1 : ∀ i, v.table K.l1Table i = if i < 4 then tableDescriptor (K.l2Table i) else 0
  behind : ∀ j < 4, ∀ i, 512 ≤ i → v.table (K.l2Table j) i = 0
  l2 : ∀ j < 4, ∀ i < 512, v.table (K.l2Table j) i = identityBlock (j * 512 + i) ∨
    ∃ k < 16, K.boot.kernelPhysBase / 2 ^ 21 + k = j * 512 + i ∧
      v.table (K.l2Table j) i = tableDescriptor (K.l3Table k) ∧
      ∀ i' < 512, LeadsTo (v.table (K.l3Table k) i') ((j * 512 + i) * 2 ^ 21 + i' * 4096)
  mmioStart : v.mmioStart = K.boot.uartBase / 2 ^ 21 * 2 ^ 21
  mmioEnd : v.mmioEnd = (K.boot.uartBase + 4096 + (2 ^ 21 - 1)) / 2 ^ 21 * 2 ^ 21

section Boot

variable {K : Kernel} {start stop : ℕ} {table table' : Tables}

/-- Blocks are mapped in tables of level 2, and nothing else is written. -/
theorem mapIdentityL2Blocks_spec {attrs : Word}
    (h : mapIdentityL2Blocks K start stop attrs table = some table') :
    (∀ t, (∀ j < 4, t ≠ K.l2Table j) → table' t = table t) ∧
      ∀ j < 4, ∀ i, table' (K.l2Table j) i =
        if i < 512 ∧ start ≤ j * 2 ^ 30 + i * 2 ^ 21 ∧ j * 2 ^ 30 + i * 2 ^ 21 < stop
        then blockDescriptor (j * 2 ^ 30 + i * 2 ^ 21) attrs else table (K.l2Table j) i := by
  rw [mapIdentityL2Blocks] at h
  split at h
  · cases h
  · cases h
    refine ⟨fun t ht => ?_, fun j hj i => ?_⟩
    · dsimp only
      rw [find_table_none ht]
    · dsimp only
      rw [find_table K.l2Table_injective hj]

/-- The blocks of the image get tables of level 3, and no table above level 2 is written. -/
theorem mapKernelPages_spec (h : mapKernelPages K start stop table = some table') :
    (∀ t, (∀ j < 4, t ≠ K.l2Table j) → (∀ k < 16, t ≠ K.l3Table k) → table' t = table t) ∧
      ∀ j < 4, ∀ i, table' (K.l2Table j) i = table (K.l2Table j) i ∨
        i < 512 ∧ ∃ k < 16, start / 2 ^ 21 + k = j * 512 + i ∧
          table' (K.l2Table j) i = tableDescriptor (K.l3Table k) ∧
          ∀ i' < 512, LeadsTo (table' (K.l3Table k) i') ((j * 512 + i) * 2 ^ 21 + i' * 4096) := by
  unfold mapKernelPages at h
  extract_lets tableStart count at h
  have hstart : tableStart = start / 2 ^ 21 * 2 ^ 21 := rfl
  -- how many tables the image gets does not matter
  clear_value tableStart count
  split at h
  · cases h
  · next hcount =>
    rw [some_inj] at h
    subst h
    refine ⟨fun t ht2 ht3 => ?_, fun j hj i => ?_⟩
    · beta_reduce
      rw [find_table_none ht2, find_table_none fun k hk => ht3 k (by omega)]
    · beta_reduce
      rw [find_table K.l2Table_injective hj]
      by_cases hin : i < 512 ∧ tableStart ≤ j * 2 ^ 30 + i * 2 ^ 21 ∧
          j * 2 ^ 30 + i * 2 ^ 21 < tableStart + count * 2 ^ 21
      · obtain ⟨k, hk⟩ : ∃ k, k = (j * 2 ^ 30 + i * 2 ^ 21 - tableStart) / 2 ^ 21 := ⟨_, rfl⟩
        refine .inr ⟨hin.1, k, by omega, by omega, hk ▸ if_pos hin, fun i' hi' => ?_⟩
        rw [find_table_none fun j' hj' => (K.l2_ne_l3 hj' (by omega)).symm,
          find_table K.l3Table_injective (by omega)]
        dsimp only
        have haddr : tableStart + k * 2 ^ 21 + i' * 4096 =
            (j * 512 + i) * 2 ^ 21 + i' * 4096 := by omega
        rw [if_pos hi', haddr]
        exact leadsTo_pageDescriptor ⟨by omega, by omega⟩ (K.pageAttrs_and _)
      · exact .inl (if_neg hin)

/-- **What `build_tables` does.** -/
theorem built_buildTables {pmm : Pmm} {v : Vmm} (h : buildTables K pmm = some v) :
    Built K pmm v := by
  rw [buildTables] at h
  obtain ⟨table₁, h₁, h⟩ := bind_eq_some_iff.mp h
  obtain ⟨table₂, h₂, h⟩ := bind_eq_some_iff.mp h
  obtain ⟨table₃, h₃, h⟩ := bind_eq_some_iff.mp h
  cases h
  obtain ⟨hkeep₁, hblock₁⟩ := mapIdentityL2Blocks_spec h₁
  obtain ⟨hkeep₂, hblock₂⟩ := mapIdentityL2Blocks_spec h₂
  obtain ⟨hkeep₃, hblock₃⟩ := mapKernelPages_spec h₃
  have hl2entry : ∀ j < 4, ∀ i, rootTables K (K.l2Table j) i = 0 := by
    intro j hj i
    rw [rootTables, if_neg (K.l0_ne_l2 hj).symm, if_neg (K.l1_ne_l2 hj).symm]
  refine ⟨rfl, ?_, fun i => ?_, fun j hj i hi => ?_, fun j hj i hi => ?_, rfl, rfl⟩ <;> dsimp only
  · rw [hkeep₃ _ (fun j => K.l0_ne_l2) (fun k => K.l0_ne_l3), hkeep₂ _ (fun j => K.l0_ne_l2),
      hkeep₁ _ (fun j => K.l0_ne_l2), rootTables, if_pos rfl, if_pos rfl]
  · rw [hkeep₃ _ (fun j => K.l1_ne_l2) (fun k => K.l1_ne_l3), hkeep₂ _ (fun j => K.l1_ne_l2),
      hkeep₁ _ (fun j => K.l1_ne_l2), rootTables, if_neg K.l0_ne_l1.symm, if_pos rfl]
  · rcases hblock₃ j hj i with heq | ⟨hlt, -⟩
    · rw [heq, hblock₂ j hj, if_neg (by omega), hblock₁ j hj, if_neg (by omega), hl2entry j hj]
    · omega
  · refine (hblock₃ j hj i).imp (fun heq => ?_) fun hk => hk.2
    -- the devices are mapped like the rest
    have haddr : (j * 512 + i) * 2 ^ 21 = j * 2 ^ 30 + i * 2 ^ 21 := by omega
    rw [heq, hblock₂ j hj, identityBlock, haddr]
    split
    · rfl
    · rw [hblock₁ j hj, if_pos (by omega)]

/-- **The tables at boot have their roles.** -/
theorem roles_buildTables {pmm : Pmm} {v : Vmm} (hpmm : pmmInit K.boot = some pmm)
    (h : Built K pmm v) : Roles K v K.role := by
  have hpages := h.pmm
  subst hpages
  refine ⟨counted_pmmInit hpmm, fun p hp => ?_, fun p hp => ?_, fun p hp => ?_, fun p hp => ?_,
    if_pos rfl,
    K.role_l1, K.role_l2 (by decide), h.l0, fun i hi => ?_, ?_, fun t i ht j hj => ?_⟩
  · -- the image is reserved
    by_contra hrole
    exact K.not_mem_of_usable (usable_pmmInit hpmm hp) (K.mem_of_role hrole)
  · have hu := usable_pmmInit hpmm hp
    exact ⟨hu.aligned, by have := hu.bounded; omega⟩
  · exact K.good_of_mem (K.mem_of_role hp)
  · exact absurd hp (K.role_not_owned p)
  · rw [h.l1] at hi ⊢
    split at hi
    · next hlt =>
      rw [if_pos hlt]
      exact ⟨_, K.role_l2 hlt, rfl⟩
    · cases hi
  · rw [h.l1]
    rfl
  · obtain ⟨hi, rfl⟩ := K.role_eq_middle ht
    by_cases hlt : j < 512
    · rcases h.l2 i hi j hlt with hblock | ⟨k, hk, hindex, heq, -⟩
      · rw [hblock, (identityBlock_bits (by omega)).2.2.2.1] at hj
        cases hj
      · refine ⟨_, heq, .inl ?_⟩
        rw [K.role_l3 hk, hindex, Role.leaf.injEq]
        omega
    · rw [h.behind i hi j (by omega)] at hj
      cases hj

end Boot

end Xaios.Mm
