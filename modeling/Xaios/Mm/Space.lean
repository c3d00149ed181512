import Xaios.Mm.Boot

/-!
# Runs of virtual memory

The states that are reached from `vmm_init` by calls of virtual memory and of the allocator:
pages are mapped and unmapped, processes get tables and lose them, and others take pages and
give them back.

Every call keeps it so that each page has one use (`Mm.Space.Inv.exec`). Two things are
asked of the callers: the tables of a process are given back only after they have been taken
out of the table of level 2, as `elf_loader_unload` does, and only pages that are held are
freed.
-/

namespace Xaios.Mm

open Function List Option Vmm

/-! ### Indices -/

theorem l0Index_userBase : l0Index Vmm.userBase = 0 := rfl

theorem l1Index_userBase : l1Index Vmm.userBase = 1 := rfl

theorem l2Index_userBase : l2Index Vmm.userBase = 8 := rfl

namespace Vmm

variable {K : Kernel} {v v' : Vmm} {va pa l2 l3 : ℕ} {flags : Flags} {st : Status}

variable {ts : List ℕ}

theorem getD_mem {i : ℕ} (h : ts.getD i 0 ≠ 0) : ts.getD i 0 ∈ ts := by
  rw [getD_eq_getElem?_getD] at h ⊢
  cases hget : ts[i]? with
  | none =>
    rw [hget] at h
    exact absurd rfl h
  | some t => exact mem_of_getElem? hget

/-- A word is written for an address, or the request is refused. -/
inductive Stored (K : Kernel) (v : Vmm) (va : ℕ) (w : Word) : Status → Vmm → Prop where
  | refused : Stored K v va w .invalid v
  | written {l3 : ℕ} {v₁ : Vmm} : va % 4096 = 0 → v.ensureL3Table K va = some (l3, v₁) →
    Stored K v va w .ok (v₁.write l3 (l3Index va) w)

/-- What `vmm_map_page` does. -/
theorem stored_mapPage (h : v.mapPage K va pa flags = some (st, v')) :
    Stored K v va (pageDescriptor pa (attrsFromFlags flags)) st v' := by
  rw [mapPage] at h
  split at h
  · cases h
    exact .refused
  · next hargs =>
    obtain ⟨⟨l3, v₁⟩, hl3, h⟩ := bind_eq_some_iff.mp h
    cases h
    rw [not_or, not_not] at hargs
    exact .written hargs.1 hl3

/-- What `vmm_unmap_page` does. -/
theorem stored_unmapPage (h : v.unmapPage K va = some (st, v')) : Stored K v va 0 st v' := by
  rw [unmapPage] at h
  split at h
  · cases h
    exact .refused
  · next hargs =>
    obtain ⟨⟨l3, v₁⟩, hl3, h⟩ := bind_eq_some_iff.mp h
    cases h
    exact .written (not_not.mp hargs) hl3

/-- What the functions do that change the translation of an address: a word is written for it,
perhaps after one in a table of the process. -/
inductive Remaps (K : Kernel) (v : Vmm) (ts : List ℕ) (va : ℕ) (v' : Vmm) : Prop where
  | stored {w : Word} {st : Status} : Stored K v va w st v' → Remaps K v ts va v'
  | own {t i : ℕ} {w' w : Word} {st : Status} : t ∈ ts → Stored K (v.write t i w') va w st v' →
    Remaps K v ts va v'

theorem remaps_mapUserPage (h : v.mapUserPage K va pa flags ts = some (st, v')) :
    Remaps K v ts va v' := by
  rw [mapUserPage] at h
  split_ifs at h with hargs hrange hindex
  · cases h
    exact .stored (w := 0) .refused
  · cases h
    exact .stored (w := 0) .refused
  · cases h
    exact .stored (w := 0) .refused
  · by_cases hnone : ts.getD (l3Slot va) 0 = 0
    · rw [if_pos hnone] at h
      cases h
      exact .stored (w := 0) .refused
    · rw [if_neg hnone] at h
      obtain ⟨⟨st', v₁⟩, hmap, h⟩ := bind_eq_some_iff.mp h
      cases h
      exact .own (getD_mem hnone) (stored_mapPage hmap)

theorem remaps_unmapUserPage (h : v.unmapUserPage K va ts = some (st, v')) :
    Remaps K v ts va v' := by
  rw [unmapUserPage] at h
  split_ifs at h with hargs
  · cases h
    exact .stored (w := 0) .refused
  · obtain ⟨⟨st', v₁⟩, hmap, h⟩ := bind_eq_some_iff.mp h
    cases h
    split_ifs at hmap with hnone
    · exact .stored (stored_unmapPage hmap)
    · exact .own (getD_mem hnone) (stored_unmapPage hmap)

end Vmm

/-! ### Runs -/

/-- Virtual memory, the tables of the processes, and the pages that others hold. -/
structure Space where
  vmm : Vmm
  aspaces : ℕ → List ℕ
  held : Finset ℕ

/-- A call. -/
inductive SpaceCall where
  | map (va pa : ℕ) (flags : Flags)
  | unmap (va : ℕ)
  | create (id : ℕ)
  | mapUser (id va pa : ℕ) (flags : Flags)
  | unmapUser (id va : ℕ)
  | switch (id : Option ℕ)
  | destroy (id : ℕ)
  | alloc
  | free (page : ℕ)

namespace Space

variable (K : Kernel) (s : Space)

/-- One call; `none` if the kernel stops. -/
def exec : SpaceCall → Option Space
  | .map va pa flags => do
    let (_, v) ← s.vmm.mapPage K va pa flags
    return { s with vmm := v }
  | .unmap va => do
    let (_, v) ← s.vmm.unmapPage K va
    return { s with vmm := v }
  | .create id => do
    let (tables, v) ← s.vmm.createUserAspace
    return { s with vmm := v, aspaces := update s.aspaces id tables }
  | .mapUser id va pa flags => do
    let (_, v) ← s.vmm.mapUserPage K va pa flags (s.aspaces id)
    return { s with vmm := v }
  | .unmapUser id va => do
    let (_, v) ← s.vmm.unmapUserPage K va (s.aspaces id)
    return { s with vmm := v }
  | .switch id =>
    some { s with vmm := s.vmm.switchUserAspace K (id.elim [] s.aspaces) }
  | .destroy id =>
    some { s with
      vmm := s.vmm.destroyUserAspace (s.aspaces id)
      aspaces := update s.aspaces id [] }
  | .alloc =>
    let r := s.vmm.pmm.allocPage
    some { s with
      vmm := { s.vmm with pmm := r.2 }
      held := if r.1 = 0 then s.held else insert r.1 s.held }
  | .free page =>
    some { s with
      vmm := { s.vmm with pmm := s.vmm.pmm.freePage page }
      held := s.held.erase page }

end Space

/-- The address whose translation a call changes. -/
def SpaceCall.remaps : SpaceCall → Option ℕ
  | .map va _ _ | .unmap va | .mapUser _ va _ _ | .unmapUser _ va => some va
  | _ => none

theorem Space.exec_remaps {K : Kernel} {s s' : Space} {c : SpaceCall} {va : ℕ}
    (hc : c.remaps = some va) (he : s.exec K c = some s') :
    ∃ id v, s' = { s with vmm := v } ∧ s.vmm.Remaps K (s.aspaces id) va v := by
  cases c with
  | map va pa flags =>
    obtain ⟨⟨st, v⟩, hm, he⟩ := bind_eq_some_iff.mp he
    cases he
    cases hc
    exact ⟨0, v, rfl, .stored (stored_mapPage hm)⟩
  | unmap va =>
    obtain ⟨⟨st, v⟩, hm, he⟩ := bind_eq_some_iff.mp he
    cases he
    cases hc
    exact ⟨0, v, rfl, .stored (stored_unmapPage hm)⟩
  | mapUser id va pa flags =>
    obtain ⟨⟨st, v⟩, hm, he⟩ := bind_eq_some_iff.mp he
    cases he
    cases hc
    exact ⟨id, v, rfl, remaps_mapUserPage hm⟩
  | unmapUser id va =>
    obtain ⟨⟨st, v⟩, hm, he⟩ := bind_eq_some_iff.mp he
    cases he
    cases hc
    exact ⟨id, v, rfl, remaps_unmapUserPage hm⟩
  | create _ | switch _ | destroy _ | alloc | free _ => cases hc

/-- What is asked of the caller. -/
def SpaceCall.Allowed (K : Kernel) (s : Space) : SpaceCall → Prop
  | .create id => s.aspaces id = []
  | .destroy id => ∀ t ∈ s.aspaces id, ∀ i, s.vmm.table (K.l2Table 1) i ≠ tableDescriptor t
  | .free page => page ∈ s.held
  | _ => True

/-- A state that is reached by calls that meet a condition, the last call first. -/
inductive Reached (K : Kernel) (P : Space → SpaceCall → Prop) : List SpaceCall → Space → Prop where
  | boot {pmm : Pmm} {v : Vmm} : pmmInit K.boot = some pmm → vmmInit K pmm = some v →
    Reached K P [] ⟨v, fun _ => [], ∅⟩
  | call {cs : List SpaceCall} {s s' : Space} {c : SpaceCall} : Reached K P cs s → P s c →
    s.exec K c = some s' → Reached K P (c :: cs) s'

/-! ### One step -/

/-- The only pages that came into use are among those that the allocator offered. -/
def Taken (pmm : Pmm) (role role' : ℕ → Role) : Prop :=
  ∀ p, role' p ≠ .free → role p ≠ .free ∨ pmm.Offers p

/-- What a function of virtual memory leaves: pages that were free may be tables now. -/
structure Kept (K : Kernel) (v : Vmm) (role : ℕ → Role) (v' : Vmm) (role' : ℕ → Role) : Prop where
  roles : Roles K v' role'
  extends_ : Extends role role'
  fresh : ∀ p, role p = .free → role' p = .free ∨ v.pmm.Offers p ∧ ¬(role' p).IsOwned
  mmioStart : v'.mmioStart = v.mmioStart
  mmioEnd : v'.mmioEnd = v.mmioEnd

namespace Kept

variable {K : Kernel} {v v' : Vmm} {role role' : ℕ → Role}

theorem of_roles (h : Roles K v' role) (hstart : v'.mmioStart = v.mmioStart)
    (hend : v'.mmioEnd = v.mmioEnd) : Kept K v role v' role :=
  ⟨h, .refl role, fun _ hp => .inl hp, hstart, hend⟩

theorem taken (h : Kept K v role v' role') : Taken v.pmm role role' := by
  intro p hp
  by_cases hfree : role p = .free
  · exact .inr ((h.fresh p hfree).resolve_left hp).1
  · exact .inl hfree

/-- The tables of processes and the pages of others are the same. -/
theorem owned_iff (h : Kept K v role v' role') (p : ℕ) {r : Role} (hr : r.IsOwned) :
    role' p = r ↔ role p = r := by
  have hne : r ≠ .free := by
    rcases hr with rfl | ⟨id, rfl⟩ <;> exact Role.noConfusion
  constructor
  · intro hp
    by_cases hfree : role p = .free
    · rcases h.fresh p hfree with heq | ⟨-, hnot⟩
      · exact absurd (hp.symm.trans heq) hne
      · exact absurd (hp ▸ hr) hnot
    · rw [← h.extends_ p hfree, hp]
  · intro hp
    exact h.extends_.eq_of hp hne

end Kept

/-- What `vmm_create_user_aspace` does: two free pages become tables. -/
structure Created (v : Vmm) (role : ℕ → Role) (v' : Vmm) (code stack : ℕ) : Prop where
  codeFree : role code = .free
  stackFree : role stack = .free
  ne : code ≠ stack
  codeOffer : v.pmm.Offers code
  stackOffer : v.pmm.Offers stack
  old : ∀ t, role t ≠ .free → v'.table t = v.table t

/-- An entry for processes: none, or one to a table of a process. -/
def UserEntry (role : ℕ → Role) (w : Word) : Prop :=
  w = 0 ∨ ∃ t id, w = tableDescriptor t ∧ role t = .user id

namespace Roles

variable {K : Kernel} {v v' : Vmm} {role : ℕ → Role} {va pa id : ℕ} {flags : Flags} {st : Status}
  {w : Word}

section

variable (h : Roles K v role)

include h

/-- Tables for an address, and a word of the last one is written. -/
theorem stored (hs : v.Stored K va w st v') : ∃ role', Kept K v role v' role' := by
  cases hs with
  | refused => exact ⟨role, .of_roles h rfl rfl⟩
  | written _ he =>
    obtain ⟨role', l2, hens⟩ := h.ensureL3Table he
    exact ⟨role', hens.roles.write_last hens.last, hens.extends_, hens.fresh, hens.mmioStart,
      hens.mmioEnd⟩

variable {i : ℕ}

/-- The same after a word is written to a table of a process. -/
theorem write_stored {t : ℕ} {w' : Word} (ht : role t = .user id)
    (hs : (v.write t i w').Stored K va w st v') : ∃ role', Kept K v role v' role' := by
  have hr : Roles K (v.write t i w') role := h.write_last (.inr ⟨id, ht⟩)
  obtain ⟨role', hkept⟩ := hr.stored hs
  exact ⟨role', hkept.roles, hkept.extends_, hkept.fresh, hkept.mmioStart, hkept.mmioEnd⟩

variable {ts : List ℕ}

theorem remaps (hts : ∀ t ∈ ts, role t = .user id) (hr : v.Remaps K ts va v') :
    ∃ role', Kept K v role v' role' := by
  cases hr with
  | stored hs => exact h.stored hs
  | own ht hs => exact h.write_stored (hts _ ht) hs

theorem createUserAspace (id : ℕ) (hc : v.createUserAspace = some (ts, v')) :
    ∃ code stack, ts = [code, stack] ∧ Created v role v' code stack ∧
      Roles K v' (update (update role code (.user id)) stack (.user id)) ∧
      v'.mmioStart = v.mmioStart ∧ v'.mmioEnd = v.mmioEnd := by
  rw [Vmm.createUserAspace] at hc
  obtain ⟨⟨code, v₁⟩, hcode, hc⟩ := bind_eq_some_iff.mp hc
  obtain ⟨⟨stack, v₂⟩, hstack, hc⟩ := bind_eq_some_iff.mp hc
  cases hc
  obtain ⟨h₁, hfree₁, ha₁⟩ := h.allocTable hcode (.user id)
  obtain ⟨h₂, hfree₂, ha₂⟩ := h₁.allocTable hstack (.user id)
  have hne : code ≠ stack := by
    rintro rfl
    rw [update_self] at hfree₂
    cases hfree₂
  rw [update_of_ne hne.symm] at hfree₂
  refine ⟨code, stack, rfl, ⟨hfree₁, hfree₂, hne, ⟨ha₁.nonzero, .inl ha₁.page⟩,
    ⟨ha₂.nonzero, .inr (ha₁.pmm ▸ ha₂.page)⟩, fun t ht => ?_⟩, h₂,
    ha₂.mmioStart.trans ha₁.mmioStart, ha₂.mmioEnd.trans ha₁.mmioEnd⟩
  rw [ha₂.others t (ne_of_role rfl hfree₂ ht), ha₁.others t (ne_of_role rfl hfree₁ ht)]

/-- The switch finds the table of level 2 for processes. -/
theorem switchUserAspace_eq (ts : List ℕ) :
    v.switchUserAspace K ts = match ts with
      | [] => (v.write (K.l2Table 1) 8 0).write (K.l2Table 1) 9 0
      | ts => Vmm.install (K.l2Table 1) (ts.take 2) 8 v := by
  have hl1 : tableAddr (tableDescriptor K.l1Table) = K.l1Table :=
    tableAddr_tableDescriptor (h.good_of h.top)
  have hl2 : tableAddr (tableDescriptor (K.l2Table 1)) = K.l2Table 1 :=
    tableAddr_tableDescriptor (h.good_of h.middle)
  rw [switchUserAspace, l0Index_userBase, l1Index_userBase, l2Index_userBase, h.l0,
    isTable_tableDescriptor, hl1, h.l1User]
  dsimp only
  rw [isTable_tableDescriptor, hl2]
  rfl

/-- The switch to a process installs its two tables. -/
theorem switchUserAspace_pair {code stack : ℕ} (hcode : role code = .user id)
    (hstack : role stack = .user id) : v.switchUserAspace K [code, stack] =
      (v.write (K.l2Table 1) 8 (tableDescriptor code)).write (K.l2Table 1) 9
        (tableDescriptor stack) := by
  have hcode0 := (h.owned code (.inr ⟨id, hcode⟩)).2
  have hstack0 := (h.owned stack (.inr ⟨id, hstack⟩)).2
  rw [h.switchUserAspace_eq]
  change install (K.l2Table 1) [code, stack] 8 v = _
  rw [install, install, install, if_neg hcode0, if_neg hstack0]

theorem write_entry (hi : i = 8 ∨ i = 9) (hw : UserEntry role w) :
    Roles K (v.write (K.l2Table 1) i w) role := by
  refine h.write_middle h.middle fun htable => ?_
  rcases hw with rfl | ⟨t, id, rfl, ht⟩
  · cases htable
  · exact ⟨t, rfl, .inr ⟨rfl, hi, id, ht⟩⟩

end

end Roles

/-- What holds between calls. -/
structure Space.Inv (K : Kernel) (s : Space) (role : ℕ → Role) : Prop where
  roles : Roles K s.vmm role
  aspaces : ∀ id t, t ∈ s.aspaces id ↔ role t = .user id
  shape : ∀ id, s.aspaces id = [] ∨ ∃ code stack, code ≠ stack ∧ s.aspaces id = [code, stack]
  held : ∀ p ∈ s.held, role p = .data
  mmioStart : s.vmm.mmioStart = K.boot.uartBase / 2 ^ 21 * 2 ^ 21
  mmioEnd : s.vmm.mmioEnd = (K.boot.uartBase + 4096 + (2 ^ 21 - 1)) / 2 ^ 21 * 2 ^ 21

theorem update_pair {α : Type} (f : ℕ → α) (a b t : ℕ) (x : α) :
    update (update f a x) b x t = if t = a ∨ t = b then x else f t := by
  by_cases hb : t = b
  · rw [hb, update_self, if_pos (.inr rfl)]
  · rw [update_of_ne hb]
    by_cases ha : t = a
    · rw [ha, update_self, if_pos (.inl rfl)]
    · rw [update_of_ne ha, if_neg (not_or.mpr ⟨ha, hb⟩)]

namespace Space.Inv

variable {K : Kernel} {s s' : Space} {role : ℕ → Role} {id : ℕ}

variable {v : Vmm}

section

variable (h : s.Inv K role)

include h

/-- A function of virtual memory leaves the processes and the others alone. -/
theorem kept {role' : ℕ → Role} (hk : Kept K s.vmm role v role') :
    Inv K { s with vmm := v } role' where
  roles := hk.roles
  aspaces id t := (h.aspaces id t).trans (hk.owned_iff t (.inr ⟨id, rfl⟩)).symm
  shape := h.shape
  held p hp := (hk.owned_iff p (.inl rfl)).mpr (h.held p hp)
  mmioStart := hk.mmioStart.trans h.mmioStart
  mmioEnd := hk.mmioEnd.trans h.mmioEnd

/-- Pages change hands between a process and the free ones. -/
theorem reassign {role' : ℕ → Role} {ts : List ℕ} (hr : Roles K v role')
    (hmem : ∀ t, t ∈ ts ↔ role' t = .user id)
    (hshape : ts = [] ∨ ∃ code stack, code ≠ stack ∧ ts = [code, stack])
    (hold : ∀ t, role' t = role t ∨
      (role t = .free ∨ role t = .user id) ∧ (role' t = .free ∨ role' t = .user id))
    (hstart : v.mmioStart = s.vmm.mmioStart) (hend : v.mmioEnd = s.vmm.mmioEnd) :
    Inv K { s with vmm := v, aspaces := update s.aspaces id ts } role' := by
  refine ⟨hr, fun id' t => ?_, fun id' => ?_, fun p hp => ?_, hstart.trans h.mmioStart,
    hend.trans h.mmioEnd⟩
  · dsimp only
    by_cases hid : id' = id
    · subst hid
      rw [update_self]
      exact hmem t
    · have hne : ∀ {r : Role}, r = .free ∨ r = .user id → r ≠ .user id' := by
        rintro r (rfl | rfl) heq
        · cases heq
        · exact hid (Role.user.inj heq).symm
      rw [update_of_ne hid, h.aspaces]
      rcases hold t with heq | ⟨hp, hp'⟩
      · rw [heq]
      · exact iff_of_false (hne hp) (hne hp')
  · dsimp only
    by_cases hid : id' = id
    · subst hid
      rw [update_self]
      exact hshape
    · rw [update_of_ne hid]
      exact h.shape id'
  · have hdata := h.held p hp
    rcases hold p with heq | ⟨hp', -⟩
    · exact heq.trans hdata
    · rw [hdata] at hp'
      rcases hp' with hp' | hp' <;> cases hp'

/-- A process gets two tables that were free. -/
theorem create (hid : s.aspaces id = []) {ts : List ℕ}
    (hc : s.vmm.createUserAspace = some (ts, v)) :
    ∃ role', Inv K { s with vmm := v, aspaces := update s.aspaces id ts } role' ∧
      Taken s.vmm.pmm role role' := by
  obtain ⟨code, stack, rfl, hnew, hr, hstart, hend⟩ := h.roles.createUserAspace id hc
  refine ⟨_, h.reassign hr (fun t => ?_) (.inr ⟨code, stack, hnew.ne, rfl⟩) (fun t => ?_) hstart
    hend, fun t ht => ?_⟩
  · rw [update_pair, mem_cons, mem_singleton]
    split
    · next ht => exact iff_of_true ht rfl
    · next ht =>
      rw [← h.aspaces, hid]
      exact iff_of_false ht not_mem_nil
  · rw [update_pair]
    split
    · next ht =>
      refine .inr ⟨.inl ?_, .inr rfl⟩
      rcases ht with rfl | rfl
      · exact hnew.codeFree
      · exact hnew.stackFree
    · exact .inl rfl
  · rw [update_pair] at ht
    split at ht
    · next hmem =>
      rcases hmem with rfl | rfl
      · exact .inr hnew.codeOffer
      · exact .inr hnew.stackOffer
    · exact .inl ht

/-- The two tables of an address space. -/
theorem pair {code stack : ℕ} (hts : s.aspaces id = [code, stack]) :
    role code = .user id ∧ role stack = .user id ∧ code ≠ stack := by
  have hmem := h.aspaces id
  rw [hts] at hmem
  refine ⟨(hmem code).mp (by simp), (hmem stack).mp (by simp), ?_⟩
  rcases h.shape id with hnil | ⟨code', stack', hne, hts'⟩
  · rw [hts] at hnil
    cases hnil
  · rw [hts] at hts'
    cases hts'
    exact hne

/-- The switch writes the two entries for processes. -/
theorem switch_eq (id : Option ℕ) : ∃ x y, UserEntry role x ∧ UserEntry role y ∧
    s.vmm.switchUserAspace K (id.elim [] s.aspaces) =
      (s.vmm.write (K.l2Table 1) 8 x).write (K.l2Table 1) 9 y := by
  rcases id with _ | id
  · exact ⟨0, 0, .inl rfl, .inl rfl, h.roles.switchUserAspace_eq []⟩
  · rw [elim_some]
    rcases h.shape id with hnil | ⟨code, stack, -, hts⟩
    · rw [hnil]
      exact ⟨0, 0, .inl rfl, .inl rfl, h.roles.switchUserAspace_eq []⟩
    · obtain ⟨hcode, hstack, -⟩ := h.pair hts
      rw [hts]
      exact ⟨_, _, .inr ⟨code, id, rfl, hcode⟩, .inr ⟨stack, id, rfl, hstack⟩,
        h.roles.switchUserAspace_pair hcode hstack⟩

theorem switch (id : Option ℕ) :
    Inv K { s with vmm := s.vmm.switchUserAspace K (id.elim [] s.aspaces) } role := by
  obtain ⟨x, y, hx, hy, heq⟩ := h.switch_eq id
  rw [heq]
  exact h.kept (.of_roles ((h.roles.write_entry (.inl rfl) hx).write_entry (.inr rfl) hy) rfl rfl)

/-- The tables of a process are given back. -/
theorem destroy (hout : ∀ t ∈ s.aspaces id, ∀ i, s.vmm.table (K.l2Table 1) i ≠ tableDescriptor t) :
    ∃ role', Inv K { s with
      vmm := s.vmm.destroyUserAspace (s.aspaces id)
      aspaces := update s.aspaces id [] } role' ∧ Taken s.vmm.pmm role role' := by
  rcases h.shape id with hts | ⟨code, stack, hne, hts⟩
  · rw [hts, ← hts, update_eq_self]
    rw [hts]
    exact ⟨role, h, fun _ => .inl⟩
  · obtain ⟨hcode, hstack, -⟩ := h.pair hts
    have hmem := h.aspaces id
    rw [hts] at hmem hout
    have hcode0 := (h.roles.owned code (.inr ⟨id, hcode⟩)).2
    have hstack0 := (h.roles.owned stack (.inr ⟨id, hstack⟩)).2
    have hstack' : update role code .free stack = .user id := by
      rw [update_of_ne hne.symm, hstack]
    have h₁ := h.roles.freePage (.inr ⟨id, hcode⟩) (hout code (by simp))
    have h₂ := h₁.freePage (.inr ⟨id, hstack'⟩) (hout stack (by simp))
    have hdestroy : s.vmm.destroyUserAspace [code, stack] =
        { s.vmm with pmm := (s.vmm.pmm.freePage code).freePage stack } := by
      rw [destroyUserAspace, foldl_cons, foldl_cons, foldl_nil, if_neg hcode0,
        if_neg hstack0]
    rw [hts, hdestroy]
    simp only [mem_cons, not_mem_nil, or_false] at hmem
    refine ⟨_, h.reassign h₂ (fun t => ?_) (.inl rfl) (fun t => ?_) rfl rfl, fun t ht => ?_⟩
    · rw [update_pair]
      refine iff_of_false not_mem_nil ?_
      split
      · exact Role.noConfusion
      · next ht => rwa [← hmem]
    · rw [update_pair]
      split
      · next ht => exact .inr ⟨.inr ((hmem t).mp ht), .inl rfl⟩
      · exact .inl rfl
    · rw [update_pair] at ht
      split at ht
      · exact absurd rfl ht
      · exact .inl ht

/-- Somebody else takes a page. -/
theorem alloc : ∃ role', Inv K { s with
    vmm := { s.vmm with pmm := s.vmm.pmm.allocPage.2 }
    held := if s.vmm.pmm.allocPage.1 = 0 then s.held else insert s.vmm.pmm.allocPage.1 s.held }
    role' ∧ Taken s.vmm.pmm role role' := by
  rcases Pmm.allocPage_cases h.roles.counted with ⟨-, -, hnone⟩ | ht
  · rw [hnone]
    exact ⟨role, h, fun _ => .inl⟩
  · by_cases hzero : s.vmm.pmm.allocPage.1 = 0
    · -- the page at zero is gone
      rw [if_pos hzero]
      refine ⟨role, ⟨h.roles.mono rfl ht.counted ?_ ht.owns, h.aspaces, h.shape, h.held,
        h.mmioStart, h.mmioEnd⟩, fun _ => .inl⟩
      rw [ht.pages]
      exact Finset.erase_subset _ _
    · rw [if_neg hzero]
      have hfree := h.roles.free _ ht.mem
      have htake : Roles K ⟨s.vmm.pmm.allocPage.2, s.vmm.table, s.vmm.mmioStart, s.vmm.mmioEnd⟩
          (update role s.vmm.pmm.allocPage.1 .data) := by
        refine h.roles.take ?_ hzero ?_ ?_
        · exact ht
        · exact fun _ _ => rfl
        · rintro i ⟨⟩
      refine ⟨_, ⟨htake, fun id t => ?_, h.shape, fun p hp => ?_, h.mmioStart, h.mmioEnd⟩,
        fun p hp => ?_⟩
      · by_cases htp : t = s.vmm.pmm.allocPage.1
        · rw [htp, update_self, h.aspaces, hfree]
          exact iff_of_false Role.noConfusion Role.noConfusion
        · rw [update_of_ne htp]
          exact h.aspaces id t
      · by_cases hpp : p = s.vmm.pmm.allocPage.1
        · rw [hpp, update_self]
        · rw [update_of_ne hpp]
          exact h.held p ((Finset.mem_insert.mp hp).resolve_left hpp)
      · by_cases hpp : p = s.vmm.pmm.allocPage.1
        · exact .inr ⟨hpp ▸ hzero, .inl hpp⟩
        · rw [update_of_ne hpp] at hp
          exact .inl hp

/-- Somebody else gives a page back. -/
theorem free {page : ℕ} (hpage : page ∈ s.held) : ∃ role', Inv K { s with
    vmm := { s.vmm with pmm := s.vmm.pmm.freePage page }
    held := s.held.erase page } role' ∧ Taken s.vmm.pmm role role' := by
  have hdata := h.held page hpage
  refine ⟨_, ⟨h.roles.freePage (.inl hdata) (h.roles.ne_tableDescriptor hdata), fun id t => ?_,
    h.shape, fun p hp => ?_, h.mmioStart, h.mmioEnd⟩, fun p hp => ?_⟩
  · by_cases htp : t = page
    · rw [htp, update_self, h.aspaces, hdata]
      exact iff_of_false Role.noConfusion Role.noConfusion
    · rw [update_of_ne htp]
      exact h.aspaces id t
  · obtain ⟨hne, hp⟩ := Finset.mem_erase.mp hp
    rw [update_of_ne hne]
    exact h.held p hp
  · by_cases hpp : p = page
    · rw [hpp, update_self] at hp
      exact absurd rfl hp
    · rw [update_of_ne hpp] at hp
      exact .inl hp

/-- **Every call keeps the uses of pages apart.** -/
theorem exec {c : SpaceCall} (hc : c.Allowed K s) (he : s.exec K c = some s') :
    ∃ role', s'.Inv K role' ∧ Taken s.vmm.pmm role role' := by
  cases c with
  | map va | unmap va | mapUser _ va | unmapUser _ va =>
    obtain ⟨id, v, rfl, hr⟩ := exec_remaps rfl he
    obtain ⟨role', hk⟩ := h.roles.remaps (fun t ht => (h.aspaces id t).mp ht) hr
    exact ⟨role', h.kept hk, hk.taken⟩
  | create id =>
    obtain ⟨⟨ts, v⟩, hm, he⟩ := bind_eq_some_iff.mp he
    cases he
    exact h.create hc hm
  | switch id =>
    cases he
    exact ⟨role, h.switch id, fun _ => .inl⟩
  | destroy id =>
    cases he
    exact h.destroy hc
  | alloc =>
    cases he
    exact h.alloc
  | free page =>
    cases he
    exact h.free hc

end

end Space.Inv

/-! ### The start -/

/-- The state that `vmm_init` leaves. -/
theorem inv_vmmInit {K : Kernel} {pmm : Pmm} {v : Vmm} (hpmm : pmmInit K.boot = some pmm)
    (hv : vmmInit K pmm = some v) : ∃ role, Space.Inv K ⟨v, fun _ => [], ∅⟩ role ∧
      ∀ p, role p ≠ .free → p ∈ K.statics ∨ pmm.Offers p := by
  rw [vmmInit] at hv
  obtain ⟨v₀, hbuild, hv⟩ := bind_eq_some_iff.mp hv
  obtain ⟨⟨st, v₁⟩, hmap, hv⟩ := bind_eq_some_iff.mp hv
  cases hv
  have hbuilt := built_buildTables hbuild
  obtain ⟨role, hk⟩ := (roles_buildTables hpmm hbuilt).stored (stored_mapPage hmap)
  refine ⟨role, ⟨hk.roles, fun id t => iff_of_false not_mem_nil fun ht => ?_, fun _ => .inl rfl,
    fun p hp => absurd hp (Finset.notMem_empty p), hk.mmioStart.trans hbuilt.mmioStart,
    hk.mmioEnd.trans hbuilt.mmioEnd⟩, fun p hp => ?_⟩
  · rw [hk.owned_iff t (.inr ⟨id, rfl⟩)] at ht
    exact K.role_not_owned t (.inr ⟨id, ht⟩)
  · exact (hk.taken p hp).imp K.mem_of_role fun hoffer => hbuilt.pmm ▸ hoffer

end Xaios.Mm
