import Xaios.Mm.Space

/-!
# Pages at their own address

The kernel reaches a table at its physical address, and so every page that it has taken. Its
loads and stores go through the very tables that the calls change, so that to name a table by
its physical address is right only while the page is mapped to itself.

In runs that spare a set of pages it is (`Mm.Reached.sound`). No page of the set is
mapped or unmapped or lies in the 4 MiB that the switch installs tables for, and the allocator
hands out pages of the set only (`Mm.SpaceCall.Spares`). The callers have to see to this:
nothing in the source keeps the pages in these 4 MiB out of the allocator.
-/

namespace Xaios.Mm

open Function List Option Vmm

/-- The addresses that the switch installs tables for. -/
def InUserBlocks (va : ℕ) : Prop := l1Index va = 1 ∧ (l2Index va = 8 ∨ l2Index va = 9)

/-- A page of the identity mapping that the kernel may use. Page zero cannot be written. -/
structure Ordinary (p : ℕ) : Prop where
  aligned : p % 4096 = 0
  nonzero : p ≠ 0
  low : p < 2 ^ 32
  apart : ¬InUserBlocks p

/-- The tables lead from a page to itself. -/
inductive Vmm.Plain (K : Kernel) (v : Vmm) (p : ℕ) : Prop where
  | block {t : ℕ} : GoodPage t → v.table K.l1Table (l1Index p) = tableDescriptor t →
    v.table t (l2Index p) = identityBlock (p / 2 ^ 21) → Plain K v p
  | page {t q : ℕ} : GoodPage t → GoodPage q → v.table K.l1Table (l1Index p) = tableDescriptor t →
    v.table t (l2Index p) = tableDescriptor q → LeadsTo (v.table q (l3Index p)) p → Plain K v p

/-- The page is in use, and not a table of a process. -/
def Role.IsShared (r : Role) : Prop := r ≠ .free ∧ ∀ id, r ≠ .user id

theorem isShared_of {role : ℕ → Role} {p : ℕ} {r : Role} (hp : role p = r)
    (hfree : r ≠ .free := by rintro ⟨⟩) (huser : ∀ id, r ≠ .user id := by rintro id ⟨⟩) :
    (role p).IsShared :=
  hp ▸ ⟨hfree, huser⟩

section Walks

variable {K : Kernel} {v v' : Vmm} {role role' : ℕ → Role} {va o l2 l3 p i : ℕ}

/-- Addresses in one page have the same indices. -/
theorem index_add (hva : va % 4096 = 0) (ho : o < 4096) :
    l0Index (va + o) = l0Index va ∧ l1Index (va + o) = l1Index va ∧
      l2Index (va + o) = l2Index va ∧ l3Index (va + o) = l3Index va := by
  rw [l0Index, l0Index, l1Index, l1Index, l2Index, l2Index, l3Index, l3Index]
  omega

theorem block_add_l3Index (hp : p % 4096 = 0) : p / 2 ^ 21 * 2 ^ 21 + l3Index p * 4096 = p := by
  rw [l3Index]
  omega

/-- The tables on the way are the same for the whole page. -/
theorem Walk.add (h : Walk K v va l2 l3) (hva : va % 4096 = 0) (ho : o < 4096) :
    Walk K v (va + o) l2 l3 := by
  obtain ⟨h0, h1, h2, -⟩ := index_add hva ho
  exact ⟨h0.trans h.low, h1 ▸ h.l1, h2 ▸ h.l2⟩

theorem tableDescriptor_and_pteTable (t : ℕ) : tableDescriptor t &&& pteTable ≠ 0 := by
  rw [tableDescriptor_and t rfl]
  decide

theorem isValid_tableDescriptor (t : ℕ) : isValid (tableDescriptor t) = true := by
  rw [isValid, tableDescriptor_and t rfl]
  rfl

/-- **The walk ends in the last table.** -/
theorem Roles.translate_of_walk (h : Roles K v role) (hw : Walk K v va l2 l3)
    (hl2 : role l2 = .middle i) (hl3 : (role l3).IsLast) :
    v.translate K va = if !isValid (v.table l3 (l3Index va)) then none
      else v.found va (tableAddr (v.table l3 (l3Index va)) + va % 4096)
        (v.table l3 (l3Index va)) := by
  have hgood1 : tableAddr (tableDescriptor K.l1Table) = K.l1Table :=
    tableAddr_tableDescriptor (h.good_of h.top)
  have hgood2 : tableAddr (tableDescriptor l2) = l2 :=
    tableAddr_tableDescriptor (h.good_of hl2)
  have hgood3 : tableAddr (tableDescriptor l3) = l3 :=
    tableAddr_tableDescriptor (h.good _ hl3.ne)
  rw [Vmm.translate, hw.low, h.l0, isTable_tableDescriptor, hgood1, hw.l1]
  dsimp only
  rw [isTable_tableDescriptor, hgood2, hw.l2, isValid_tableDescriptor,
    if_neg (tableDescriptor_and_pteTable l3), hgood3]
  rfl

/-- The tables on the way from a page to itself have their roles. -/
theorem Roles.plain_cases (h : Roles K v role) (hp : Ordinary p) (hplain : v.Plain K p) :
    ∃ t, role t = .middle (l1Index p) ∧ ¬(t = K.l2Table 1 ∧ (l2Index p = 8 ∨ l2Index p = 9)) ∧
      v.table K.l1Table (l1Index p) = tableDescriptor t ∧
      (v.table t (l2Index p) = identityBlock (p / 2 ^ 21) ∨
        ∃ q, role q = .leaf (l1Index p) (l2Index p) ∧ v.table t (l2Index p) = tableDescriptor q ∧
          LeadsTo (v.table q (l3Index p)) p) := by
  have hside : ∀ {t}, role t = .middle (l1Index p) →
      ¬(t = K.l2Table 1 ∧ (l2Index p = 8 ∨ l2Index p = 9)) := by
    rintro t ht ⟨rfl, hj⟩
    exact hp.apart ⟨Role.middle.inj (ht.symm.trans h.middle), hj⟩
  cases hplain with
  | @block t ht hl1 hblock =>
    have hmid := h.middle_of_entry ht hl1
    exact ⟨t, hmid, hside hmid, hl1, .inl hblock⟩
  | @page t q ht hq hl1 hl2 hleads =>
    have hmid := h.middle_of_entry ht hl1
    obtain ⟨q', heq, hrole⟩ := h.l2 t _ hmid _ (hl2 ▸ isTable_tableDescriptor q)
    have hleaf := hrole.resolve_right fun hu => hside hmid ⟨hu.1, hu.2.1⟩
    obtain rfl := tableDescriptor_injective hq (h.good_of hleaf) (hl2.symm.trans heq)
    exact ⟨t, hmid, hside hmid, hl1, .inr ⟨q, hleaf, hl2, hleads⟩⟩

theorem found_fst (v : Vmm) (a x : ℕ) {d : Word} (h : isValid d = true) :
    (v.found a x d).map Prod.fst = some x := by
  obtain ⟨flags, hflags⟩ := exists_flags (v.inMmio a) h
  rw [found, hflags]
  rfl

/-- **The page is found at its own address.** -/
theorem Roles.translate_plain (h : Roles K v role) (hp : Ordinary p) (hplain : v.Plain K p)
    (ho : o < 4096) : (v.translate K (p + o)).map Prod.fst = some (p + o) := by
  obtain ⟨t, hmid, -, hl1, hcases⟩ := h.plain_cases hp hplain
  have haligned := hp.aligned
  have hlow := hp.low
  have hl0 : l0Index p = 0 := by
    rw [l0Index]
    omega
  rcases hcases with hblock | ⟨q, hleaf, hl2, hleads⟩
  · obtain ⟨haddr, hvalid, hnot, -⟩ := identityBlock_bits (k := p / 2 ^ 21) (by omega)
    obtain ⟨h0, h1, h2, -⟩ := index_add haligned ho
    have hphysical : p / 2 ^ 21 * 2 ^ 21 + (p + o) % 2 ^ 21 = p + o := by omega
    rw [Vmm.translate, h0, h1, h2, hl0, h.l0, isTable_tableDescriptor,
      tableAddr_tableDescriptor (h.good_of h.top), hl1]
    dsimp only
    rw [isTable_tableDescriptor, tableAddr_tableDescriptor (h.good_of hmid), hblock, hvalid,
      if_pos hnot, haddr, hphysical]
    exact found_fst _ _ _ hvalid
  · have hmod : (p + o) % 4096 = o := by omega
    rw [h.translate_of_walk (Walk.add ⟨hl0, hl1, hl2⟩ haligned ho) hmid (.inl ⟨_, _, hleaf⟩),
      (index_add haligned ho).2.2.2, hleads.valid, hleads.addr, hmod]
    exact found_fst _ _ _ hleads.valid

/-- Only tables of processes and their two entries are written. -/
theorem Roles.plain_of_same (h : Roles K v role) (hp : Ordinary p)
    (hsame : ∀ t j, (role t).IsShared → ¬(t = K.l2Table 1 ∧ (j = 8 ∨ j = 9)) →
      v'.table t j = v.table t j) (hplain : v.Plain K p) : v'.Plain K p := by
  obtain ⟨t, hmid, hside, hl1, hcases⟩ := h.plain_cases hp hplain
  have htop : v'.table K.l1Table (l1Index p) = tableDescriptor t := by
    rw [hsame _ _ (isShared_of h.top) fun hc => absurd hc.1 (ne_of_role h.top h.middle), hl1]
  have hentry := hsame t (l2Index p) (isShared_of hmid) hside
  rcases hcases with hblock | ⟨q, hleaf, hl2, hleads⟩
  · exact .block (h.good_of hmid) htop (hentry.trans hblock)
  · refine .page (h.good_of hmid) (h.good_of hleaf) htop (hentry.trans hl2) ?_
    rw [hsame q _ (isShared_of hleaf) fun hc => absurd hc.1 (ne_of_role hleaf h.middle)]
    exact hleads

/-- **A word is written for another page.** A block that is split keeps its other pages, and the
last table of the address is not the one of a page in another block. -/
theorem Ensured.plain_write (h : Ensured K v role va v' role' l2 l3) (hr : Roles K v role)
    (hva : va % 4096 = 0) (hp : Ordinary p) (hne : p ≠ va % 2 ^ 48) (hplain : v.Plain K p)
    (w : Word) : (v'.write l3 (l3Index va) w).Plain K p := by
  obtain ⟨t, hmid, -, hl1, hcases⟩ := hr.plain_cases hp hplain
  have haligned := hp.aligned
  have hlow := hp.low
  have hindex : l1Index p = l1Index va → l2Index p = l2Index va → l3Index p ≠ l3Index va := by
    have hl0 := h.walk.low
    rw [l0Index] at hl0
    rw [l1Index, l1Index, l2Index, l2Index, l3Index, l3Index]
    omega
  have hmid' : role' t = .middle (l1Index p) := h.extends_.eq_of hmid
  have htl : t ≠ l3 := ne_of_role hmid' rfl h.last.ne.symm
  have htop : (v'.write l3 (l3Index va) w).table K.l1Table (l1Index p) = tableDescriptor t := by
    rw [table_write_of_ne _ _ _ _ (ne_of_role h.roles.top rfl h.last.ne.symm),
      h.tops _ (hl1 ▸ isTable_tableDescriptor t), hl1]
  by_cases hstays : isTable (v.table t (l2Index p)) = true ∨ l2Index p ≠ l2Index va ∨ t ≠ l2
  · have hentry := h.middles t _ hmid _ hstays
    rw [← table_write_of_ne v' l3 (l3Index va) w htl] at hentry
    rcases hcases with hblock | ⟨q, hleaf, hl2, hleads⟩
    · exact .block (hr.good_of hmid) htop (hentry.trans hblock)
    · refine .page (hr.good_of hmid) (hr.good_of hleaf) htop (hentry.trans hl2) ?_
      have hkeep : v'.table q = v.table q := h.lasts q (.inl ⟨_, _, hleaf⟩)
      by_cases hql : q = l3
      · subst hql
        have hleaf' := h.extends_.eq_of hleaf
        obtain ⟨q', heq, hrole⟩ := h.roles.l2 l2 _ h.middle (l2Index va)
          (h.walk.l2 ▸ isTable_tableDescriptor q)
        have hlast' : (role' q').IsLast := hrole.imp (fun hr => ⟨_, _, hr⟩) fun hu => hu.2.2
        obtain rfl := tableDescriptor_injective (hr.good_of hleaf) (h.roles.good q' hlast'.ne)
          (h.walk.l2.symm.trans heq)
        rw [hleaf'] at hrole
        rcases hrole with hrole | ⟨-, -, id, hrole⟩
        · obtain ⟨hi, hj⟩ := Role.leaf.inj hrole
          rw [table_write_index _ _ _ _ (hindex hi hj), hkeep]
          exact hleads
        · cases hrole
      · rw [table_write_of_ne _ _ _ _ hql, hkeep]
        exact hleads
  · rw [not_or, not_or, not_not, not_not] at hstays
    obtain ⟨hnot, hj, rfl⟩ := hstays
    have hblock := hcases.resolve_right fun ⟨q, _, hl2, _⟩ => hnot (hl2 ▸ isTable_tableDescriptor q)
    have hi := Role.middle.inj (hmid'.symm.trans h.middle)
    refine .page (hr.good_of hmid) (h.roles.good l3 h.last.ne) htop ?_ ?_
    · rw [table_write_of_ne _ _ _ _ htl, hj, h.walk.l2]
    · have hfree : role t ≠ .free := (isShared_of hmid).1
      have hleads := h.split hfree (p / 2 ^ 21) (by omega) (hj ▸ hblock) (l3Index p)
        (Nat.mod_lt _ (by decide))
      rw [table_write_index _ _ _ _ (hindex hi hj)]
      rwa [block_add_l3Index haligned] at hleads

theorem Roles.plain_stored {w : Word} {st : Status} (h : Roles K v role)
    (hs : v.Stored K va w st v') (hp : Ordinary p) (hne : p ≠ va % 2 ^ 48)
    (hplain : v.Plain K p) : v'.Plain K p := by
  cases hs with
  | refused => exact hplain
  | written hva he =>
    obtain ⟨role', l2, hens⟩ := h.ensureL3Table he
    exact hens.plain_write h hva hp hne hplain w

/-- The translation of another page is changed. -/
theorem Roles.plain_remaps {ts : List ℕ} {id : ℕ} (h : Roles K v role)
    (hts : ∀ t ∈ ts, role t = .user id) (hr : v.Remaps K ts va v') (hp : Ordinary p)
    (hne : p ≠ va % 2 ^ 48) (hplain : v.Plain K p) : v'.Plain K p := by
  cases hr with
  | stored hs => exact h.plain_stored hs hp hne hplain
  | @own t j w' w st ht hs =>
    refine (h.write_last (.inr ⟨id, hts t ht⟩)).plain_stored hs hp hne
      (h.plain_of_same hp (fun t' j' ht' _ => ?_) hplain)
    have hne' : t' ≠ t := by
      rintro rfl
      exact ht'.2 id (hts t' ht)
    rw [table_write_of_ne _ _ _ _ hne']

/-- The two entries of a process are written. -/
theorem table_write_entries_of_ne {t j : ℕ} (x y : Word)
    (h : ¬(t = K.l2Table 1 ∧ (j = 8 ∨ j = 9))) :
    ((v.write (K.l2Table 1) 8 x).write (K.l2Table 1) 9 y).table t j = v.table t j := by
  by_cases ht : t = K.l2Table 1
  · rw [ht, table_write_index _ _ _ _ fun hj => h ⟨ht, .inr hj⟩,
      table_write_index _ _ _ _ fun hj => h ⟨ht, .inl hj⟩]
  · rw [table_write_of_ne _ _ _ _ ht, table_write_of_ne _ _ _ _ ht]

end Walks

/-! ### Runs that spare a set of pages -/

/-- **The condition on calls**: the page whose translation is changed is not in the set, and the
pages that may be taken are. Of an address the lowest 48 bits count. -/
def SpaceCall.Spares (U : Set ℕ) (s : Space) (c : SpaceCall) : Prop :=
  (∀ p, s.vmm.pmm.Offers p → p ∈ U) ∧ ∀ va, c.remaps = some va → va % 2 ^ 48 ∉ U

/-- **The condition on the set**: its pages are ordinary ones, and the pages of the image and
those that may be taken at boot are in it. -/
structure Kernel.Spared (K : Kernel) (U : Set ℕ) : Prop where
  ordinary : ∀ p ∈ U, Ordinary p
  image : ∀ p, p % 4096 = 0 → K.boot.kernelPhysBase ≤ p → p < K.boot.kernelPhysEnd → p ∈ U
  offers : ∀ pmm, pmmInit K.boot = some pmm → ∀ p, pmm.Offers p → p ∈ U

/-- Each page has one use, those in use are in the set, and these are mapped to themselves. -/
structure Space.Sound (K : Kernel) (U : Set ℕ) (s : Space) (role : ℕ → Role) : Prop where
  inv : s.Inv K role
  used : ∀ p, role p ≠ .free → p ∈ U
  plain : ∀ p ∈ U, s.vmm.Plain K p

/-- **The kernel finds every page that is in use at its own address**: the tables of all levels,
those of the processes, and the pages that others hold. -/
def Vmm.Direct (K : Kernel) (v : Vmm) : Prop :=
  ∃ role, Roles K v role ∧ ∀ p, role p ≠ .free → ∀ o < 4096,
    (v.translate K (p + o)).map Prod.fst = some (p + o)

section Runs

variable {K : Kernel} {U : Set ℕ} {s s' : Space} {role : ℕ → Role} {c : SpaceCall} {p : ℕ}

/-- A call for another page leaves the tables to a page. -/
theorem Space.Inv.plain_exec (h : s.Inv K role) (hp : Ordinary p)
    (hc : ∀ va, c.remaps = some va → p ≠ va % 2 ^ 48) (he : s.exec K c = some s')
    (hplain : s.vmm.Plain K p) : s'.vmm.Plain K p := by
  cases c with
  | map va | unmap va | mapUser _ va | unmapUser _ va =>
    obtain ⟨id, v, rfl, hr⟩ := exec_remaps rfl he
    exact h.roles.plain_remaps (fun t ht => (h.aspaces id t).mp ht) hr hp (hc va rfl) hplain
  | create id =>
    obtain ⟨⟨ts, v⟩, hm, he⟩ := bind_eq_some_iff.mp he
    cases he
    obtain ⟨code, stack, rfl, hnew, -⟩ := h.roles.createUserAspace id hm
    refine h.roles.plain_of_same hp (fun t j ht _ => ?_) hplain
    dsimp only
    rw [hnew.old t ht.1]
  | switch id =>
    cases he
    refine h.roles.plain_of_same hp (fun t j _ hside => ?_) hplain
    dsimp only
    obtain ⟨x, y, -, -, heq⟩ := h.switch_eq id
    rw [heq]
    exact table_write_entries_of_ne x y hside
  | destroy id | alloc | free page =>
    cases he
    exact h.roles.plain_of_same hp (fun _ _ _ _ => rfl) hplain

/-- At boot the blocks and the tables of the image lead to themselves. -/
theorem Built.plain {pmm : Pmm} {v : Vmm} (h : Built K pmm v) (hp : Ordinary p) : v.Plain K p := by
  have haligned := hp.aligned
  have hlow := hp.low
  have hj : l1Index p < 4 := by
    rw [l1Index]
    omega
  have hblock : l1Index p * 512 + l2Index p = p / 2 ^ 21 := by
    rw [l1Index, l2Index]
    omega
  have htop : v.table K.l1Table (l1Index p) = tableDescriptor (K.l2Table (l1Index p)) := by
    rw [h.l1, if_pos hj]
  have hgood := K.good_of_mem (K.l2Table_mem hj)
  rcases h.l2 _ hj (l2Index p) (Nat.mod_lt _ (by decide)) with heq | ⟨k, hk, -, heq, hleads⟩
  · exact .block hgood htop (hblock ▸ heq)
  · refine .page hgood (K.good_of_mem (K.l3Table_mem hk)) htop heq ?_
    have hleads := hleads (l3Index p) (Nat.mod_lt _ (by decide))
    rwa [hblock, block_add_l3Index haligned] at hleads

variable (hU : K.Spared U)

include hU

theorem Space.Sound.direct (h : s.Sound K U role) : s.vmm.Direct K :=
  ⟨role, h.inv.roles, fun p hp _ ho =>
    h.inv.roles.translate_plain (hU.ordinary p (h.used p hp)) (h.plain p (h.used p hp)) ho⟩

theorem Space.Sound.exec (h : s.Sound K U role) (hc : c.Allowed K s) (hspares : c.Spares U s)
    (he : s.exec K c = some s') : ∃ role', s'.Sound K U role' := by
  obtain ⟨role', hinv, htaken⟩ := h.inv.exec hc he
  refine ⟨role', hinv, fun p hp => ?_, fun p hp => ?_⟩
  · exact (htaken p hp).elim (h.used p) (hspares.1 p)
  · refine h.inv.plain_exec (hU.ordinary p hp) (fun va hva heq => ?_) he (h.plain p hp)
    exact hspares.2 va hva (heq ▸ hp)

theorem sound_vmmInit {pmm : Pmm} {v : Vmm} (hpmm : pmmInit K.boot = some pmm)
    (hv : vmmInit K pmm = some v) : ∃ role, Space.Sound K U ⟨v, fun _ => [], ∅⟩ role := by
  obtain ⟨role, hinv, hused⟩ := inv_vmmInit hpmm hv
  refine ⟨role, hinv, fun p hp => ?_, fun p hp => ?_⟩
  · rcases hused p hp with hstatic | hoffer
    · obtain ⟨hbase, hend⟩ := K.inImage p hstatic
      exact hU.image p (K.aligned p hstatic) hbase (by omega)
    · exact hU.offers pmm hpmm p hoffer
  · rw [vmmInit] at hv
    obtain ⟨v₀, hbuild, hv⟩ := bind_eq_some_iff.mp hv
    obtain ⟨⟨st, v₁⟩, hmap, hv⟩ := bind_eq_some_iff.mp hv
    cases hv
    have hbuilt := built_buildTables hbuild
    exact (roles_buildTables hpmm hbuilt).plain_stored (stored_mapPage hmap) (hU.ordinary p hp)
      (hU.ordinary p hp).nonzero (hbuilt.plain (hU.ordinary p hp))

/-- **In every state that is reached** by calls that spare the set. -/
theorem Reached.sound {P : Space → SpaceCall → Prop} {cs : List SpaceCall}
    (hP : ∀ s c, P s c → c.Allowed K s ∧ c.Spares U s) (h : Reached K P cs s) :
    ∃ role, s.Sound K U role := by
  induction h with
  | boot hpmm hv => exact sound_vmmInit hU hpmm hv
  | call _ hc he ih =>
    obtain ⟨role, hsound⟩ := ih
    exact hsound.exec hU (hP _ _ hc).1 (hP _ _ hc).2 he

end Runs

end Xaios.Mm
