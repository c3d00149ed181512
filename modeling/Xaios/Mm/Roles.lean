import Xaios.Mm.Vmm

/-!
# What pages are used for

The tables of all levels come from the same allocator as the pages of processes, and a table
is found by following addresses. That these addresses lead where they should rests on every
page being used for one thing at a time.

A role says for each page what it is used for: it is free, a table of one of the four levels,
a table of a process, or a page that somebody else holds. The tables agree with the roles if
each entry of a table leads to the table of the next level for it (`Mm.Roles`). Every
function of virtual memory keeps this, with roles that change only for pages that were free
(`Mm.Roles.ensureL3Table`, …).
-/

namespace Xaios.Mm

open Function Option Vmm

/-- What a page is used for. The tables of the last two levels have the indices of the entries
that lead to them. -/
inductive Role where
  | free
  | root
  | top
  | middle (i : ℕ)
  | leaf (i j : ℕ)
  | user (id : ℕ)
  | data
  deriving DecidableEq

namespace Role

/-- The page is a table of level 3. -/
def IsLast (r : Role) : Prop := (∃ i j, r = .leaf i j) ∨ ∃ id, r = .user id

/-- The page belongs to a process or to somebody else, who may give it back. -/
def IsOwned (r : Role) : Prop := r = .data ∨ ∃ id, r = .user id

theorem IsLast.ne {r r' : Role} (h : r.IsLast) (hleaf : ∀ i j, r' ≠ .leaf i j := by rintro i j ⟨⟩)
    (huser : ∀ id, r' ≠ .user id := by rintro id ⟨⟩) : r ≠ r' := by
  rcases h with ⟨i, j, rfl⟩ | ⟨id, rfl⟩
  · exact (hleaf i j).symm
  · exact (huser id).symm

end Role

variable {role : ℕ → Role} {p : ℕ}

/-- Pages with different roles are different. -/
theorem ne_of_role {q : ℕ} {r r' : Role} (hp : role p = r) (hq : role q = r')
    (hne : r ≠ r' := by rintro ⟨⟩) : p ≠ q := by
  rintro rfl
  exact hne (hp.symm.trans hq)

/-- **Tables and roles agree.** Only the two entries of a process lead to its tables. -/
structure Roles (K : Kernel) (v : Vmm) (role : ℕ → Role) : Prop where
  counted : v.pmm.Counted
  free : ∀ p ∈ v.pmm.pages, role p = .free
  goodFree : ∀ p ∈ v.pmm.pages, GoodPage p
  good : ∀ p, role p ≠ .free → GoodPage p
  owned : ∀ p, (role p).IsOwned → v.pmm.Owns p ∧ p ≠ 0
  root : role K.l0Table = .root
  top : role K.l1Table = .top
  middle : role (K.l2Table 1) = .middle 1
  l0 : v.table K.l0Table 0 = tableDescriptor K.l1Table
  l1 : ∀ i, isTable (v.table K.l1Table i) = true →
    ∃ t, role t = .middle i ∧ v.table K.l1Table i = tableDescriptor t
  l1User : v.table K.l1Table 1 = tableDescriptor (K.l2Table 1)
  l2 : ∀ t i, role t = .middle i → ∀ j, isTable (v.table t j) = true →
    ∃ q, v.table t j = tableDescriptor q ∧
      (role q = .leaf i j ∨ t = K.l2Table 1 ∧ (j = 8 ∨ j = 9) ∧ ∃ id, role q = .user id)

/-- Roles change for free pages only. -/
def Extends (role role' : ℕ → Role) : Prop := ∀ p, role p ≠ .free → role' p = role p

theorem Extends.eq_of {role' : ℕ → Role} (h : Extends role role') {r : Role} (hp : role p = r)
    (hr : r ≠ .free := by rintro ⟨⟩) : role' p = r :=
  (h p (hp ▸ hr)).trans hp

theorem Extends.refl (role : ℕ → Role) : Extends role role := fun _ _ => rfl

theorem Extends.trans {role' role'' : ℕ → Role} (h : Extends role role')
    (h' : Extends role' role'') : Extends role role'' := by
  intro p hp
  rw [h' p (by rw [h p hp]; exact hp), h p hp]

theorem Extends.update (h : role p = .free) (r : Role) : Extends role (update role p r) := by
  intro q hq
  exact update_of_ne (ne_of_role rfl h hq) _ _

namespace Vmm

variable (v : Vmm) (t i : ℕ) (w : Word)

@[simp] theorem table_write_self : (v.write t i w).table t i = w := by
  change update v.table t (update (v.table t) i w) t i = w
  rw [update_self, update_self]

theorem table_write_of_ne {t' : ℕ} (h : t' ≠ t) : (v.write t i w).table t' = v.table t' :=
  update_of_ne h _ _

theorem table_write_index {i' : ℕ} (h : i' ≠ i) : (v.write t i w).table t i' = v.table t i' := by
  change update v.table t (update (v.table t) i w) t i' = _
  rw [update_self, update_of_ne h]

/-- A page was taken for a table. -/
structure Allocated (v v' : Vmm) (p : ℕ) : Prop where
  nonzero : p ≠ 0
  page : p = v.pmm.allocPage.1
  pmm : v'.pmm = v.pmm.allocPage.2
  others : ∀ q, q ≠ p → v'.table q = v.table q
  mmioStart : v'.mmioStart = v.mmioStart
  mmioEnd : v'.mmioEnd = v.mmioEnd

end Vmm

theorem not_isTable_zero : isTable 0 = false := rfl

theorem tableDescriptor_injective {q : ℕ} (hp : GoodPage p) (hq : GoodPage q)
    (h : tableDescriptor p = tableDescriptor q) : p = q := by
  rw [← tableAddr_tableDescriptor hp, h, tableAddr_tableDescriptor hq]

namespace Roles

variable {K : Kernel} {v v' : Vmm} {role : ℕ → Role} {t i p : ℕ} {w : Word}

section

variable (h : Roles K v role)

include h

theorem good_of {r : Role} (hp : role p = r) (hr : r ≠ .free := by rintro ⟨⟩) : GoodPage p :=
  h.good p (hp ▸ hr)

/-- Tables of level 3 and other pages may hold anything. -/
theorem congr (hpmm : v'.pmm = v.pmm)
    (htable : ∀ t, role t = .root ∨ role t = .top ∨ (∃ i, role t = .middle i) →
      v'.table t = v.table t) :
    Roles K v' role where
  counted := hpmm ▸ h.counted
  free := hpmm ▸ h.free
  goodFree := hpmm ▸ h.goodFree
  good := h.good
  owned := hpmm ▸ h.owned
  root := h.root
  top := h.top
  middle := h.middle
  l0 := by
    rw [htable _ (.inl h.root)]
    exact h.l0
  l1 := by
    rw [htable _ (.inr (.inl h.top))]
    exact h.l1
  l1User := by
    rw [htable _ (.inr (.inl h.top))]
    exact h.l1User
  l2 := by
    intro t i ht
    rw [htable t (.inr (.inr ⟨i, ht⟩))]
    exact h.l2 t i ht

/-- A word of a table of level 3 is written. -/
theorem write_last (ht : (role t).IsLast) : Roles K (v.write t i w) role := by
  refine h.congr rfl fun t' ht' => table_write_of_ne v t i w ?_
  rintro rfl
  rcases ht' with ht' | ht' | ⟨i, ht'⟩ <;> exact absurd ht' ht.ne

/-- An entry of level 2 is written. -/
theorem write_middle {j : ℕ} (ht : role t = .middle i)
    (hw : isTable w = true → ∃ q, w = tableDescriptor q ∧
      (role q = .leaf i j ∨ t = K.l2Table 1 ∧ (j = 8 ∨ j = 9) ∧ ∃ id, role q = .user id)) :
    Roles K (v.write t j w) role := by
  have hroot : K.l0Table ≠ t := ne_of_role h.root ht
  have htop : K.l1Table ≠ t := ne_of_role h.top ht
  refine ⟨h.counted, h.free, h.goodFree, h.good, h.owned, h.root, h.top, h.middle, ?_, ?_, ?_, ?_⟩
  · rw [table_write_of_ne v t j w hroot]
    exact h.l0
  · rw [table_write_of_ne v t j w htop]
    exact h.l1
  · rw [table_write_of_ne v t j w htop]
    exact h.l1User
  · intro t' i' ht' j'
    by_cases htt : t' = t
    · subst htt
      obtain rfl := Role.middle.inj (ht'.symm.trans ht)
      by_cases hjj : j' = j
      · subst hjj
        rw [table_write_self]
        exact hw
      · rw [table_write_index v t' j w hjj]
        exact h.l2 t' i' ht' j'
    · rw [table_write_of_ne v t j w htt]
      exact h.l2 t' i' ht' j'

/-- An entry of level 1 is written. -/
theorem write_top {q : ℕ} (hi : i ≠ 1) (hq : role q = .middle i) :
    Roles K (v.write K.l1Table i (tableDescriptor q)) role := by
  have hroot : K.l0Table ≠ K.l1Table := ne_of_role h.root h.top
  refine ⟨h.counted, h.free, h.goodFree, h.good, h.owned, h.root, h.top, h.middle, ?_, ?_, ?_, ?_⟩
  · rw [table_write_of_ne _ _ _ _ hroot]
    exact h.l0
  · intro i'
    by_cases hii : i' = i
    · subst hii
      rw [table_write_self]
      exact fun _ => ⟨q, hq, rfl⟩
    · rw [table_write_index _ _ _ _ hii]
      exact h.l1 i'
  · rw [table_write_index _ _ _ _ hi.symm]
    exact h.l1User
  · intro t' i' ht'
    rw [table_write_of_ne _ _ _ _ (ne_of_role ht' h.top)]
    exact h.l2 t' i' ht'

/-- **A page is taken**: it was free, and it may get any role. -/
theorem take (ht : v.pmm.Takes v'.pmm p) (hne : p ≠ 0)
    (htable : ∀ q, q ≠ p → v'.table q = v.table q) {r : Role}
    (hr : ∀ i, r = .middle i → ∀ j, isTable (v'.table p j) = false) :
    Roles K v' (update role p r) := by
  have hfree := h.free _ ht.mem
  have hext := Extends.update hfree r
  have hkeep : ∀ q, role q ≠ .free → v'.table q = v.table q := by
    intro q hq
    exact htable q (ne_of_role rfl hfree hq)
  refine ⟨ht.counted, fun q hq => ?_, fun q hq => ?_, fun q hq => ?_, fun q hq => ?_, ?_, ?_, ?_,
    ?_, ?_, ?_, fun t i ht' => ?_⟩
  · rw [ht.pages, Finset.mem_erase] at hq
    rw [update_of_ne hq.1]
    exact h.free q hq.2
  · rw [ht.pages, Finset.mem_erase] at hq
    exact h.goodFree q hq.2
  · by_cases hqp : q = p
    · rw [hqp]
      exact h.goodFree _ ht.mem
    · rw [update_of_ne hqp] at hq
      exact h.good q hq
  · by_cases hqp : q = p
    · rw [hqp]
      exact ⟨(ht.owns _).mpr (Pmm.owns_of_mem ht.mem h.counted), hne⟩
    · rw [update_of_ne hqp] at hq
      obtain ⟨howns, hq0⟩ := h.owned q hq
      exact ⟨(ht.owns q).mpr howns, hq0⟩
  · exact hext.eq_of h.root
  · exact hext.eq_of h.top
  · exact hext.eq_of h.middle
  · rw [hkeep _ (by rw [h.root]; decide)]
    exact h.l0
  · rw [hkeep _ (by rw [h.top]; decide)]
    intro i hi
    obtain ⟨t, ht', heq⟩ := h.l1 i hi
    exact ⟨t, hext.eq_of ht', heq⟩
  · rw [hkeep _ (by rw [h.top]; decide)]
    exact h.l1User
  · intro j hj
    by_cases htp : t = p
    · subst htp
      rw [update_self] at ht'
      rw [hr i ht' j] at hj
      cases hj
    · rw [update_of_ne htp] at ht'
      rw [htable t htp] at hj ⊢
      obtain ⟨q, heq, hq⟩ := h.l2 t i ht' j hj
      refine ⟨q, heq, ?_⟩
      rcases hq with hq | ⟨htu, hiu, id, hq⟩
      · exact .inl (hext.eq_of hq)
      · exact .inr ⟨htu, hiu, id, hext.eq_of hq⟩

/-- A page is taken for a table. -/
theorem allocTable (halloc : v.allocTable = some (p, v')) (r : Role) :
    Roles K v' (update role p r) ∧ role p = .free ∧ v.Allocated v' p := by
  rw [Vmm.allocTable] at halloc
  split at halloc
  · cases halloc
  · next hne =>
    rw [some_inj, Prod.mk.injEq] at halloc
    obtain ⟨hp, hv'⟩ := halloc
    subst hp hv'
    rcases Pmm.allocPage_cases h.counted with ⟨-, -, hnone⟩ | ht
    · rw [hnone] at hne
      exact absurd rfl hne
    refine ⟨h.take ht hne (fun q hq => update_of_ne hq _ _) fun _ _ i => ?_,
      h.free _ ht.mem, hne, rfl, rfl, fun q hq => update_of_ne hq _ _, rfl, rfl⟩
    dsimp only
    rw [update_self]
    exact not_isTable_zero

/-- Fewer pages may be free. -/
theorem mono (htable : v'.table = v.table) (hcounted : v'.pmm.Counted)
    (hpages : v'.pmm.pages ⊆ v.pmm.pages) (howns : ∀ q, v'.pmm.Owns q ↔ v.pmm.Owns q) :
    Roles K v' role where
  counted := hcounted
  free p hp := h.free p (hpages hp)
  goodFree p hp := h.goodFree p (hpages hp)
  good := h.good
  owned p hp := ⟨(howns p).mpr (h.owned p hp).1, (h.owned p hp).2⟩
  root := h.root
  top := h.top
  middle := h.middle
  l0 := htable ▸ h.l0
  l1 := htable ▸ h.l1
  l1User := htable ▸ h.l1User
  l2 := htable ▸ h.l2

/-- A page that no entry leads to loses its role. -/
theorem forget (hp : (role p).IsOwned) (hentry : ∀ i, v.table (K.l2Table 1) i ≠ tableDescriptor p)
    (hnot : p ∉ v.pmm.pages) : Roles K v (update role p .free) := by
  have hother : ∀ {q r}, role q = r → ¬r.IsOwned → q ≠ p := by
    rintro q r hq hr rfl
    exact hr (hq ▸ hp)
  have hnot_owned : ∀ {r : Role}, r = .root ∨ r = .top ∨ (∃ i, r = .middle i) ∨
      (∃ i j, r = .leaf i j) → ¬r.IsOwned := by
    rintro r (rfl | rfl | ⟨i, rfl⟩ | ⟨i, j, rfl⟩) (h | ⟨id, h⟩) <;> cases h
  refine ⟨h.counted, fun q hq => ?_, h.goodFree, fun q hq => ?_, fun q hq => ?_, ?_, ?_, ?_, h.l0,
    fun i hi => ?_, h.l1User, fun t i ht j hj => ?_⟩
  · have hqp : q ≠ p := by
      rintro rfl
      exact hnot hq
    rw [update_of_ne hqp]
    exact h.free q hq
  · by_cases hqp : q = p
    · rw [hqp, update_self] at hq
      exact absurd rfl hq
    · rw [update_of_ne hqp] at hq
      exact h.good q hq
  · by_cases hqp : q = p
    · rw [hqp, update_self] at hq
      rcases hq with hq | ⟨id, hq⟩ <;> cases hq
    · rw [update_of_ne hqp] at hq
      exact h.owned q hq
  · rw [update_of_ne (hother h.root (hnot_owned (.inl rfl))), h.root]
  · rw [update_of_ne (hother h.top (hnot_owned (.inr (.inl rfl)))), h.top]
  · rw [update_of_ne (hother h.middle (hnot_owned (.inr (.inr (.inl ⟨1, rfl⟩))))), h.middle]
  · obtain ⟨t, ht, heq⟩ := h.l1 i hi
    exact ⟨t, by rw [update_of_ne (hother ht (hnot_owned (.inr (.inr (.inl ⟨i, rfl⟩))))), ht], heq⟩
  · have htp : t ≠ p := by
      rintro rfl
      rw [update_self] at ht
      cases ht
    rw [update_of_ne htp] at ht
    obtain ⟨q, heq, hq⟩ := h.l2 t i ht j hj
    refine ⟨q, heq, ?_⟩
    rcases hq with hq | ⟨htu, hiu, id, hq⟩
    · have hqp : q ≠ p := hother hq (hnot_owned (.inr (.inr (.inr ⟨i, j, rfl⟩))))
      exact .inl (by rw [update_of_ne hqp, hq])
    · have hqp : q ≠ p := by
        rintro rfl
        exact hentry j (htu ▸ heq)
      exact .inr ⟨htu, hiu, id, by rw [update_of_ne hqp, hq]⟩

/-- **A page is given back** that no entry leads to. -/
theorem freePage (hp : (role p).IsOwned)
    (hentry : ∀ i, v.table (K.l2Table 1) i ≠ tableDescriptor p) :
    Roles K { v with pmm := v.pmm.freePage p } (update role p .free) := by
  obtain ⟨howns, hne⟩ := h.owned p hp
  have hpf : role p ≠ .free := by
    rcases hp with hp | ⟨id, hp⟩ <;> rw [hp] <;> exact Role.noConfusion
  have hnot : p ∉ v.pmm.pages := fun hmem => hpf (h.free p hmem)
  have hf := h.forget hp hentry hnot
  rcases Pmm.freePage_cases h.counted howns hne hnot with ⟨-, hnodes⟩ | ⟨-, hg⟩
  · have hpages : (v.pmm.freePage p).pages = v.pmm.pages := by rw [Pmm.pages, hnodes, Pmm.pages]
    refine hf.mono rfl ?_ (hpages ▸ Finset.Subset.refl _) fun q => ?_
    · obtain ⟨n, hn, hcount⟩ := h.counted
      exact ⟨n, hnodes.trans hn, hcount⟩
    · rw [Pmm.Owns, hnodes, Pmm.Owns]
  · refine ⟨hg.counted, fun q hq => ?_, fun q hq => ?_, hf.good, fun q hq => ?_, hf.root, hf.top,
      hf.middle, hf.l0, hf.l1, hf.l1User, hf.l2⟩
    · rw [hg.pages, Finset.mem_insert] at hq
      rcases hq with rfl | hq
      · exact update_self _ _ _
      · exact hf.free q hq
    · rw [hg.pages, Finset.mem_insert] at hq
      rcases hq with rfl | hq
      · exact h.good q hpf
      · exact h.goodFree q hq
    · exact ⟨(hg.owns q).mpr (hf.owned q hq).1, (hf.owned q hq).2⟩

/-- An entry of the user's table of level 2 leads to a table of level 3. -/
theorem isLast_of_entry (hp : GoodPage p) (heq : v.table (K.l2Table 1) i = tableDescriptor p) :
    (role p).IsLast := by
  have htable : isTable (v.table (K.l2Table 1) i) = true := by
    rw [heq]
    exact isTable_tableDescriptor p
  obtain ⟨q, hq, hrole⟩ := h.l2 _ 1 h.middle i htable
  have hlast : (role q).IsLast := hrole.imp (fun hleaf => ⟨1, i, hleaf⟩) fun hu => hu.2.2
  rwa [tableDescriptor_injective hp (h.good q hlast.ne) (heq.symm.trans hq)]

/-- An entry of level 1 leads to the table of level 2 for it. -/
theorem middle_of_entry (hp : GoodPage p) (heq : v.table K.l1Table i = tableDescriptor p) :
    role p = .middle i := by
  obtain ⟨t, ht, heq'⟩ := h.l1 i (heq ▸ isTable_tableDescriptor p)
  rwa [tableDescriptor_injective hp (h.good_of ht) (heq.symm.trans heq')]

/-- No entry of the user's table of level 2 leads to a page that is no table. -/
theorem ne_tableDescriptor (hp : role p = .data) (i : ℕ) :
    v.table (K.l2Table 1) i ≠ tableDescriptor p := by
  intro heq
  exact absurd hp (h.isLast_of_entry (h.good_of hp) heq).ne

end

end Roles

/-! ### Walks -/

/-- The tables on the way to an address. -/
structure Walk (K : Kernel) (v : Vmm) (va l2 l3 : ℕ) : Prop where
  low : l0Index va = 0
  l1 : v.table K.l1Table (l1Index va) = tableDescriptor l2
  l2 : v.table l2 (l2Index va) = tableDescriptor l3

/-- The page is one of the two that the allocator hands out next. -/
def Pmm.Offers (pmm : Pmm) (p : ℕ) : Prop :=
  p ≠ 0 ∧ (p = pmm.allocPage.1 ∨ p = pmm.allocPage.2.allocPage.1)

/-- What `ensure_l3_table` does: afterwards there are tables for the address, new ones or
those there were. Other entries of level 2 and all that was in tables of level 3 stay, and the
pages of a block are in the table that replaces it. -/
structure Ensured (K : Kernel) (v : Vmm) (role : ℕ → Role) (va : ℕ) (v' : Vmm) (role' : ℕ → Role)
    (l2 l3 : ℕ) : Prop where
  roles : Roles K v' role'
  extends_ : Extends role role'
  fresh : ∀ p, role p = .free → role' p = .free ∨ v.pmm.Offers p ∧ ¬(role' p).IsOwned
  walk : Walk K v' va l2 l3
  middle : role' l2 = .middle (l1Index va)
  last : (role' l3).IsLast
  tops : ∀ i, isTable (v.table K.l1Table i) = true → v'.table K.l1Table i = v.table K.l1Table i
  lasts : ∀ t, (role t).IsLast → v'.table t = v.table t
  middles : ∀ t i, role t = .middle i → ∀ j,
    isTable (v.table t j) = true ∨ j ≠ l2Index va ∨ t ≠ l2 → v'.table t j = v.table t j
  split : role l2 ≠ .free → ∀ k < 2048, v.table l2 (l2Index va) = identityBlock k → ∀ i < 512,
    LeadsTo (v'.table l3 i) (k * 2 ^ 21 + i * 4096)
  mmioStart : v'.mmioStart = v.mmioStart
  mmioEnd : v'.mmioEnd = v.mmioEnd

namespace Roles

variable {K : Kernel} {v v' : Vmm} {role : ℕ → Role} {va l3 : ℕ}

/-- There is a table of level 2 for an address. -/
theorem ensureL2Table (h : Roles K v role) (he : v.ensureL2Table K va = some v') :
    ∃ role' l2, Roles K v' role' ∧ Extends role role' ∧ role' l2 = .middle (l1Index va) ∧
      v'.table K.l1Table (l1Index va) = tableDescriptor l2 ∧
      (v'.pmm = v.pmm ∧ role' = role ∨ v'.pmm = v.pmm.allocPage.2 ∧
        ∀ p, role p = .free → role' p = .free ∨
          p ≠ 0 ∧ p = v.pmm.allocPage.1 ∧ role' p = .middle (l1Index va)) ∧
      (∀ i, isTable (v.table K.l1Table i) = true → v'.table K.l1Table i = v.table K.l1Table i) ∧
      (∀ t, role t ≠ .free → t ≠ K.l1Table → v'.table t = v.table t) ∧
      v'.mmioStart = v.mmioStart ∧ v'.mmioEnd = v.mmioEnd := by
  rw [Vmm.ensureL2Table] at he
  by_cases htable : isTable (v.table K.l1Table (l1Index va)) = true
  · rw [if_pos htable, some_inj] at he
    subst he
    obtain ⟨l2, hl2, heq⟩ := h.l1 _ htable
    exact ⟨role, l2, h, .refl role, hl2, heq, .inl ⟨rfl, rfl⟩, fun _ _ => rfl, fun t _ _ => rfl,
      rfl, rfl⟩
  · rw [if_neg htable] at he
    obtain ⟨⟨p, v₁⟩, halloc, he⟩ := bind_eq_some_iff.mp he
    cases he
    obtain ⟨h₁, hfree, ha⟩ := h.allocTable halloc (.middle (l1Index va))
    have hindex : l1Index va ≠ 1 := fun heq => by
      rw [heq, h.l1User, isTable_tableDescriptor] at htable
      exact htable rfl
    have htop : v₁.table K.l1Table = v.table K.l1Table := ha.others _ (ne_of_role h.top hfree)
    refine ⟨_, p, h₁.write_top hindex (update_self _ _ _), .update hfree _, update_self _ _ _,
      table_write_self _ _ _ _, .inr ⟨ha.pmm, fun q hq => ?_⟩, fun i hi => ?_, fun t ht hne => ?_,
      ha.mmioStart, ha.mmioEnd⟩
    · by_cases hqp : q = p
      · rw [hqp, update_self]
        exact .inr ⟨ha.nonzero, ha.page, rfl⟩
      · rw [update_of_ne hqp]
        exact .inl hq
    · have hii : i ≠ l1Index va := by
        rintro rfl
        exact htable hi
      rw [table_write_index _ _ _ _ hii, htop]
    · rw [table_write_of_ne _ _ _ _ hne]
      exact ha.others t (ne_of_role rfl hfree ht)

/-- There is a table of level 3 behind one of level 2. -/
theorem ensureL3In (h : Roles K v role) {l2 i : ℕ} (hl2 : role l2 = .middle i)
    (he : v.ensureL3In l2 va = some (l3, v')) :
    ∃ role', Roles K v' role' ∧ Extends role role' ∧ (role' l3).IsLast ∧
      v'.table l2 (l2Index va) = tableDescriptor l3 ∧
      (∀ p, role p = .free → role' p = .free ∨
        p ≠ 0 ∧ p = v.pmm.allocPage.1 ∧ role' p = .leaf i (l2Index va)) ∧
      (∀ t, role t ≠ .free → t ≠ l2 → v'.table t = v.table t) ∧
      (∀ j, isTable (v.table l2 j) = true ∨ j ≠ l2Index va → v'.table l2 j = v.table l2 j) ∧
      (∀ k < 2048, v.table l2 (l2Index va) = identityBlock k → ∀ j < 512,
        LeadsTo (v'.table l3 j) (k * 2 ^ 21 + j * 4096)) ∧
      v'.mmioStart = v.mmioStart ∧ v'.mmioEnd = v.mmioEnd := by
  rw [Vmm.ensureL3In] at he
  by_cases htable : isTable (v.table l2 (l2Index va)) = true
  · rw [if_pos htable, some_inj, Prod.mk.injEq] at he
    obtain ⟨rfl, rfl⟩ := he
    obtain ⟨q, heq, hq⟩ := h.l2 l2 i hl2 _ htable
    have hlast : (role q).IsLast := hq.imp (fun hleaf => ⟨_, _, hleaf⟩) fun hu => hu.2.2
    rw [heq, tableAddr_tableDescriptor (h.good q hlast.ne)]
    refine ⟨role, h, .refl role, hlast, rfl, fun p hp => .inl hp, fun t _ _ => rfl, fun j _ => rfl,
      fun k hk hblock => ?_, rfl, rfl⟩
    rw [heq, hblock, (identityBlock_bits hk).2.2.2.1] at htable
    cases htable
  · rw [if_neg htable] at he
    obtain ⟨⟨p, v₁⟩, halloc, he⟩ := bind_eq_some_iff.mp he
    obtain ⟨h₁, hfree, ha⟩ := h.allocTable halloc (.leaf i (l2Index va))
    -- what the new table holds does not matter to the roles
    obtain ⟨v₂, hv₂⟩ : ∃ v₂, v₂ = if (isValid (v.table l2 (l2Index va)) &&
        v.table l2 (l2Index va) &&& pteTable == 0) = true
        then v₁.splitBlock p (v.table l2 (l2Index va)) else v₁ := ⟨_, rfl⟩
    have hothers : ∀ q, q ≠ p → v₂.table q = v₁.table q := by
      intro q hq
      rw [hv₂]
      split
      · exact update_of_ne hq _ _
      · rfl
    have hmmio : v₂.mmioStart = v₁.mmioStart ∧ v₂.mmioEnd = v₁.mmioEnd ∧ v₂.pmm = v₁.pmm := by
      rw [hv₂]
      split <;> exact ⟨rfl, rfl, rfl⟩
    have hp : update role p (Role.leaf i (l2Index va)) p = .leaf i (l2Index va) :=
      update_self _ _ _
    have hl2p : l2 ≠ p := ne_of_role hl2 hfree
    have h₂ : Roles K v₂ (update role p (.leaf i (l2Index va))) := by
      refine h₁.congr hmmio.2.2 fun t ht => hothers t ?_
      rintro rfl
      rw [hp] at ht
      rcases ht with ht | ht | ⟨i, ht⟩ <;> cases ht
    have hl2' : update role p (Role.leaf i (l2Index va)) l2 = .middle i := by
      rw [update_of_ne hl2p, hl2]
    have hres : some (p, v₂.write l2 (l2Index va) (tableDescriptor p)) = some (l3, v') := by
      rw [hv₂]
      exact he
    rw [some_inj, Prod.mk.injEq] at hres
    obtain ⟨rfl, rfl⟩ := hres
    refine ⟨_, h₂.write_middle hl2' fun _ => ⟨p, rfl, .inl hp⟩, .update hfree _, .inl ⟨_, _, hp⟩,
      table_write_self _ _ _ _, fun q hq => ?_, fun t ht hne => ?_, fun j hj => ?_,
      fun k hk hblock j hj => ?_, hmmio.1.trans ha.mmioStart, hmmio.2.1.trans ha.mmioEnd⟩
    · by_cases hqp : q = p
      · rw [hqp]
        exact .inr ⟨ha.nonzero, ha.page, hp⟩
      · rw [update_of_ne hqp]
        exact .inl hq
    · have htp : t ≠ p := ne_of_role rfl hfree ht
      rw [table_write_of_ne _ _ _ _ hne, hothers t htp, ha.others t htp]
    · have hjj : j ≠ l2Index va := by
        rintro rfl
        exact hj.elim htable fun hne => hne rfl
      rw [table_write_index _ _ _ _ hjj, hothers l2 hl2p, ha.others l2 hl2p]
    · -- the block is split
      obtain ⟨haddr, hvalid, hnot, -, hattrs⟩ := identityBlock_bits hk
      rw [table_write_of_ne _ _ _ _ hl2p.symm, hv₂, hblock, hvalid, hnot]
      change LeadsTo (update v₁.table p _ p j) _
      rw [update_self, haddr]
      exact leadsTo_pageDescriptor ⟨by omega, by omega⟩ hattrs

/-- **What `ensure_l3_table` does.** -/
theorem ensureL3Table (h : Roles K v role) (he : v.ensureL3Table K va = some (l3, v')) :
    ∃ role' l2, Ensured K v role va v' role' l2 l3 := by
  rw [Vmm.ensureL3Table] at he
  split at he
  · cases he
  · next hlow =>
    obtain ⟨v₁, he₁, he₂⟩ := bind_eq_some_iff.mp he
    obtain ⟨role₁, l2, h₁, hext₁, hl2, hl1, hfresh₁, htops₁, hkeep₁, hms₁, hme₁⟩ :=
      h.ensureL2Table he₁
    rw [hl1, tableAddr_tableDescriptor (h₁.good_of hl2)] at he₂
    obtain ⟨role₂, h₂, hext₂, hlast, hentry, hfresh₂, hkeep₂, hentries₂, hsplit₂, hms₂, hme₂⟩ :=
      h₁.ensureL3In hl2 he₂
    have htop : role₁ K.l1Table ≠ .free := by
      rw [h₁.top]
      exact Role.noConfusion
    have htop2 : K.l1Table ≠ l2 := ne_of_role h₁.top hl2
    refine ⟨role₂, l2, h₂, hext₁.trans hext₂, fun p hp => ?_, ⟨not_not.mp hlow, ?_, hentry⟩, ?_,
      hlast,
      fun i hi => ?_, fun t ht => ?_, fun t i ht j hj => ?_, fun hl2f k hk hblock => ?_,
      hms₂.trans hms₁, hme₂.trans hme₁⟩
    · -- the second page comes after the first, if there is a first
      have hleaf : ∀ {q}, role₁ q = .free → v₁.pmm.allocPage.1 = v.pmm.allocPage.1 ∨
          v₁.pmm.allocPage.1 = v.pmm.allocPage.2.allocPage.1 → role₂ q = .free ∨
            v.pmm.Offers q ∧ ¬(role₂ q).IsOwned := by
        intro q hq hpage
        refine (hfresh₂ q hq).imp_right fun ⟨hne, heq, hr⟩ => ⟨⟨hne, heq ▸ hpage⟩, ?_⟩
        rw [hr]
        rintro (hr | ⟨id, hr⟩) <;> cases hr
      rcases hfresh₁ with ⟨hpmm, rfl⟩ | ⟨hpmm, hfresh₁⟩
      · exact hleaf hp (.inl (by rw [hpmm]))
      · rcases hfresh₁ p hp with hfree | ⟨hne, heq, hmid⟩
        · exact hleaf hfree (.inr (by rw [hpmm]))
        · refine .inr ⟨⟨hne, .inl heq⟩, ?_⟩
          rw [hext₂.eq_of hmid]
          rintro (hr | ⟨id, hr⟩) <;> cases hr
    · rw [hkeep₂ _ htop htop2, hl1]
    · exact hext₂.eq_of hl2
    · rw [hkeep₂ _ htop htop2, htops₁ i hi]
    · -- a table of level 3 is neither of the two that were written
      have htf : role t ≠ .free := ht.ne
      have ht1 : t ≠ K.l1Table := ne_of_role rfl h.top ht.ne
      have ht2 : t ≠ l2 := ne_of_role (hext₁ t htf) hl2 ht.ne
      rw [hkeep₂ t (by rw [hext₁ t htf]; exact htf) ht2, hkeep₁ t htf ht1]
    · have htf : role t ≠ .free := by
        rw [ht]
        exact Role.noConfusion
      have ht1 : t ≠ K.l1Table := ne_of_role ht h.top
      by_cases htl : t = l2
      · subst htl
        have hj' : isTable (v₁.table t j) = true ∨ j ≠ l2Index va := by
          rw [hkeep₁ t htf ht1]
          exact hj.imp_right fun hj => hj.resolve_right fun hne => hne rfl
        rw [hentries₂ j hj', hkeep₁ t htf ht1]
      · rw [hkeep₂ t (by rw [hext₁ t htf]; exact htf) htl, hkeep₁ t htf ht1]
    · exact hsplit₂ k hk (by rw [hkeep₁ l2 hl2f htop2.symm, hblock])

end Roles

end Xaios.Mm
