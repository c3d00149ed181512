import Xaios.Foundation.Budget
import Xaios.Foundation.Ledger
import Xaios.MutableFs.Tree

/-!
# What the loops of commit and rollback leave

A step of these loops changes the entry of its slot and no other, and to one
value when it goes through and to another when it fails. So a loop that goes
through has changed every entry, and a loop that fails has changed the entries
before the failing slot, spoilt the one in it, and left the others
(`MutableFs.Tree.forEach_local`).

Whether a loop goes through is a matter of room. Both loops give back the blocks
of the version they replace before they take those of the new one, so each is a
loop on a budget (`MutableFs.Tree.commitLoop_ok_iff`,
`MutableFs.Tree.restoreLoop_ok_iff`).
-/

namespace Xaios.MutableFs

open Foundation Function Option Entry

variable {β : Type}

/-! ### Loops that change one entry at a time -/

namespace Tree

/-- **A loop of local steps.** -/
theorem forEach_local {F : Fin 64 → Tree β → Status × Tree β} {good bad : Entry β → Entry β}
    (hF : ∀ i t, (F i t).2 =
      t.setEntry i (if (F i t).1 = .ok then good (t.entry i) else bad (t.entry i)))
    {is : List (Fin 64)} (hnd : is.Nodup) (t : Tree β) :
    (forEach .ok F is t).2.generation = t.generation ∧
      (forEach .ok F is t).2.committed = t.committed ∧
      ((forEach .ok F is t).1 = .ok ∧
          (∀ j, (forEach .ok F is t).2.entry j = if j ∈ is then good (t.entry j) else t.entry j) ∨
        ∃ pre k post, is = pre ++ k :: post ∧ (forEach .ok F is t).1 ≠ .ok ∧
          (∃ t', t'.entry k = t.entry k ∧ (F k t').1 = (forEach .ok F is t).1) ∧
          ∀ j, (forEach .ok F is t).2.entry j =
            if j ∈ pre then good (t.entry j)
            else if j = k then bad (t.entry j) else t.entry j) := by
  induction is generalizing t with
  | nil => exact ⟨rfl, rfl, .inl ⟨rfl, fun j => by simp⟩⟩
  | cons i is ih =>
    obtain ⟨hi, hnd'⟩ := List.nodup_cons.mp hnd
    have hstep := hF i t
    rcases eq_or_ne (F i t).1 .ok with hok | herr
    · rw [if_pos hok] at hstep
      rw [forEach_cons_ok hok, hstep]
      obtain ⟨hgen, hcom, hloop⟩ := ih hnd' (t.setEntry i (good (t.entry i)))
      refine ⟨hgen, hcom, ?_⟩
      rcases hloop with ⟨hst, hent⟩ | ⟨pre, k, post, rfl, hst, ⟨t', ht', hk⟩, hent⟩
      · refine .inl ⟨hst, fun j => ?_⟩
        rw [hent j, setEntry_entry]
        rcases eq_or_ne j i with rfl | hne
        · simp [hi]
        · simp [hne]
      · have hki : k ≠ i := by
          rintro rfl
          exact hi (by simp)
        rw [setEntry_entry, update_of_ne hki] at ht'
        refine .inr ⟨i :: pre, k, post, rfl, hst, ⟨t', ht', hk⟩, fun j => ?_⟩
        rw [hent j, setEntry_entry]
        rcases eq_or_ne j i with rfl | hne
        · have hj : j ∉ pre := fun h => hi (by simp [h])
          simp [hj, hki.symm]
        · simp [hne]
    · rw [if_neg herr] at hstep
      rw [forEach_cons_err herr]
      refine ⟨by rw [hstep]; rfl, by rw [hstep]; rfl, .inr ⟨[], i, is, rfl, herr, ⟨t, rfl, rfl⟩,
        fun j => ?_⟩⟩
      rw [hstep, setEntry_entry]
      rcases eq_or_ne j i with rfl | hne
      · simp
      · simp [hne]

end Tree

/-! ### The entries -/

namespace Entry

/-- The entry a step of the commit loop leaves. -/
def committed (e : Entry β) : Entry β := { e with snap := e.live }

/-- The entry a failing step of the commit loop leaves. -/
def spoiltSnap [Inhabited β] (e : Entry β) : Entry β := { e with snap := e.live.map Version.hollow }

/-- The entry a step of the restore loop for one kind leaves. -/
def restoredKind (k : Kind) (e : Entry β) : Entry β :=
  if e.snap.any fun c => c.kind = k then { e with live := e.snap } else e

/-- The entry a failing step of the restore loop leaves. -/
def spoiltLive [Inhabited β] (e : Entry β) : Entry β := { e with live := e.snap.map Version.hollow }

/-- The blocks a step of the commit loop gives back and takes. -/
def commitCost (e : Entry β) : ℕ × ℕ := (Version.blocksOf e.snap, Version.blocksOf e.live)

/-- The blocks a step of the restore loop for files gives back and takes. -/
def restoreCost (e : Entry β) : ℕ × ℕ :=
  if e.snap.any fun c => c.kind = .file then (Version.blocksOf e.live, Version.blocksOf e.snap)
  else (0, 0)

/-- The blocks a rollback gives back before it restores the first file. -/
def givenUp (committed : UInt64) (e : Entry β) : ℕ :=
  if e.snap.isNone then
    if e.live.any fun c => committed ≤ c.generation then Version.blocksOf e.live else 0
  else if e.snap.any fun c => c.kind = .dir then Version.blocksOf e.live else 0

/-- The entry a rollback leaves. -/
def restored (committed : UInt64) (e : Entry β) : Entry β :=
  if e.snap.isSome then { e with live := e.snap } else Tree.keepEntry committed e

end Entry

namespace Tree

variable [Inhabited β] {g : Geometry} {f : Fault} {t : Tree β} {i : Fin 64}

theorem commitEntry_of_none (h : (t.entry i).live = none) :
    t.commitEntry g f i = (.ok, t.setEntry i (t.entry i).committed) := by
  simp only [commitEntry, Entry.committed, h]

variable {c : Version β}

theorem commitEntry_of_some (h : (t.entry i).live = some c) :
    t.commitEntry g f i =
      if c.kind = .file ∧ 0 < c.blocks ∧ f = .data i then
        (.io, t.setEntry i (t.entry i).spoiltSnap)
      else if c.kind = .file ∧ (t.setEntry i (t.entry i).spoiltSnap).free g < c.blocks then
        (.noMemory, t.setEntry i (t.entry i).spoiltSnap)
      else (.ok, t.setEntry i (t.entry i).committed) := by
  simp only [commitEntry, Entry.committed, spoiltSnap, h, map_some]

theorem restoreEntry_of_some (h : (t.entry i).snap = some c) :
    t.restoreEntry g f i =
      if c.kind = .file ∧ 0 < c.blocks ∧ f = .data i then
        (.io, t.setEntry i (t.entry i).spoiltLive)
      else if c.kind = .file ∧ (t.setEntry i (t.entry i).spoiltLive).free g < c.blocks then
        (.noMemory, t.setEntry i (t.entry i).spoiltLive)
      else (.ok, t.setEntry i { t.entry i with live := some c }) := by
  simp only [restoreEntry, spoiltLive, h, map_some]

/-- A step of the commit loop changes its entry only. -/
theorem commitEntry_local (i : Fin 64) (t : Tree β) :
    (t.commitEntry g f i).2 = t.setEntry i
      (if (t.commitEntry g f i).1 = .ok then (t.entry i).committed
        else (t.entry i).spoiltSnap) := by
  cases hlive : (t.entry i).live with
  | none => simp [commitEntry_of_none hlive]
  | some c =>
    rw [commitEntry_of_some hlive]
    split
    · simp
    · split <;> simp

/-- A failing step of the commit loop is one of a file with blocks. -/
theorem kind_of_commitEntry_err (h : (t.commitEntry g f i).1 ≠ .ok) :
    ∃ c, (t.entry i).live = some c ∧ c.kind = .file ∧ 0 < c.blocks := by
  cases hlive : (t.entry i).live with
  | none => simp [commitEntry_of_none hlive] at h
  | some c =>
    rw [commitEntry_of_some hlive] at h
    split at h
    · next hfault => exact ⟨c, rfl, hfault.1, hfault.2.1⟩
    · split at h
      · next hroom => exact ⟨c, rfl, hroom.1, Nat.zero_lt_of_lt hroom.2⟩
      · exact absurd rfl h

/-- Restoring a node changes its entry only. -/
theorem restoreEntry_local (hc : (t.entry i).snap = some c) :
    (t.restoreEntry g f i).2 = t.setEntry i
      (if (t.restoreEntry g f i).1 = .ok then { t.entry i with live := some c }
        else (t.entry i).spoiltLive) := by
  rw [restoreEntry_of_some hc]
  split
  · simp
  · split <;> simp

theorem restorePass_of_kind {k : Kind} (h : (t.entry i).snap = some c) (hk : c.kind = k) :
    t.restorePass g f k i =
      (if (t.restoreEntry g f i).1 = .ok then .ok else .io, (t.restoreEntry g f i).2) := by
  rw [restorePass, h, any_some, if_pos (by simpa using hk)]

theorem restorePass_of_not_kind {k : Kind}
    (h : ∀ c, (t.entry i).snap = some c → c.kind ≠ k) : t.restorePass g f k i = (.ok, t) := by
  rw [restorePass, if_neg]
  cases hs : (t.entry i).snap with
  | none => simp
  | some c => simpa using h c hs

/-- A step of the restore loop changes its entry only. -/
theorem restorePass_local (k : Kind) (i : Fin 64) (t : Tree β) :
    (t.restorePass g f k i).2 = t.setEntry i
      (if (t.restorePass g f k i).1 = .ok then (t.entry i).restoredKind k
        else (t.entry i).spoiltLive) := by
  rcases em (∃ c, (t.entry i).snap = some c ∧ c.kind = k) with ⟨c, hc, hk⟩ | hno
  · have hkind : (t.entry i).restoredKind k = { t.entry i with live := some c } := by
      rw [restoredKind, if_pos (by simpa [hc] using hk)]
      simp [hc]
    rw [restorePass_of_kind hc hk, restoreEntry_local hc, hkind]
    rcases eq_or_ne (t.restoreEntry g f i).1 .ok with h | h
    · simp [h]
    · simp [h]
  · have hnot : ∀ c, (t.entry i).snap = some c → c.kind ≠ k := fun c hc hk => hno ⟨c, hc, hk⟩
    have hkind : (t.entry i).restoredKind k = t.entry i := by
      rw [restoredKind, if_neg]
      cases hs : (t.entry i).snap with
      | none => simp
      | some c => simpa using hnot c hs
    rw [restorePass_of_not_kind hnot, if_pos rfl, hkind, setEntry, update_eq_self]

/-- A failing step of the restore loop is one of a file. -/
theorem kind_of_restorePass_err {k : Kind} (h : (t.restorePass g f k i).1 ≠ .ok) :
    k = .file ∧ ∃ c, (t.entry i).snap = some c ∧ c.kind = .file := by
  rcases em (∃ c, (t.entry i).snap = some c ∧ c.kind = k) with ⟨c, hc, hk⟩ | hno
  · rcases eq_or_ne c.kind .file with hf | hf
    · exact ⟨hk.symm.trans hf, c, hc, hf⟩
    · rw [restorePass_of_kind hc hk, restoreEntry_of_some hc] at h
      simp [hf] at h
  · exact absurd (by rw [restorePass_of_not_kind fun c hc hk => hno ⟨c, hc, hk⟩]) h

/-! ### The two operations -/

/-- **What a commit leaves.** Either the loop goes through and every snapshot is
the live version, or it fails in a file slot, and the snapshot in that slot is
hollow. -/
theorem commit_entries (g : Geometry) (f : Fault) (t : Tree β) :
    (t.commit g f).2.generation = t.generation ∧
      ((t.commit g f).1 = f.final ∧ (t.commit g f).2.committed = t.generation ∧
          (∀ j, (t.commit g f).2.entry j =
            if j ∈ slots g then (t.entry j).committed else t.entry j) ∨
        (t.commit g f).1 ≠ .ok ∧ (t.commit g f).2.committed = t.committed ∧
          ∃ pre k post, slots g = pre ++ k :: post ∧
            (∃ c, (t.entry k).live = some c ∧ c.kind = .file ∧ 0 < c.blocks) ∧
            ∀ j, (t.commit g f).2.entry j = if j ∈ pre then (t.entry j).committed
              else if j = k then (t.entry j).spoiltSnap else t.entry j) := by
  obtain ⟨hgen, hcom, hloop⟩ := forEach_local (F := commitEntry g f) commitEntry_local
    (nodup_slots g) t
  unfold commit
  rcases hloop with ⟨hok, hent⟩ | ⟨pre, k, post, hsl, herr, ⟨t', ht', hk⟩, hent⟩
  · simp only [hok, ne_eq, not_true_eq_false, if_false]
    exact ⟨hgen, .inl ⟨trivial, hgen, hent⟩⟩
  · rw [if_pos herr]
    refine ⟨hgen, .inr ⟨herr, hcom, pre, k, post, hsl, ?_, hent⟩⟩
    rw [← ht']
    exact kind_of_commitEntry_err (by rw [hk]; exact herr)

/-- **A commit that succeeds** leaves every snapshot the live version. -/
theorem commit_entry_of_ok
    (hout : ∀ i, i ∉ slots g → (t.entry i).live = none ∧ (t.entry i).snap = none)
    (hok : (t.commit g f).1 = .ok) (i : Fin 64) :
    (t.commit g f).2.entry i = (t.entry i).committed := by
  obtain ⟨-, ⟨-, -, hent⟩ | ⟨herr, -⟩⟩ := commit_entries g f t
  · rw [hent i]
    split
    · rfl
    · rename_i hi
      obtain ⟨hl, hs⟩ := hout i hi
      exact Entry.ext rfl rfl (hs.trans hl.symm)
  · exact absurd hok herr

omit [Inhabited β] in
/-- An entry with a snapshot is kept by the first loop of a rollback. -/
theorem keepEntry_of_snap {committed : UInt64} {e : Entry β} (h : e.snap.isSome) :
    keepEntry committed e = e := by
  rw [keepEntry, if_neg]
  rintro ⟨hn, -⟩
  rw [isNone_iff_eq_none] at hn
  simp [hn] at h

omit [Inhabited β] in
@[simp] theorem snap_keepEntry (committed : UInt64) (e : Entry β) :
    (keepEntry committed e).snap = e.snap := by
  unfold keepEntry
  split <;> rfl

omit [Inhabited β] in
@[simp] theorem name_keepEntry (committed : UInt64) (e : Entry β) :
    (keepEntry committed e).name = e.name := by
  unfold keepEntry
  split <;> rfl

omit [Inhabited β] in
/-- What has no snapshot and is from after the commit goes in the first loop. -/
theorem live_keepEntry {committed : UInt64} {e : Entry β} (hs : e.snap = none)
    (hrecent : ∀ c, e.live = some c → committed ≤ c.generation) :
    (keepEntry committed e).live = none := by
  cases hl : e.live with
  | none => simp [keepEntry, hl]
  | some c => simp [keepEntry, hl, hs, hrecent c hl]

omit [Inhabited β] in
/-- Restoring the directories and then the files restores everything. -/
theorem restoredKind_file_dir (committed : UInt64) (e : Entry β) :
    ((keepEntry committed e).restoredKind .dir).restoredKind .file = e.restored committed := by
  unfold restored
  cases hs : e.snap with
  | none => simp [restoredKind, hs]
  | some c =>
    rw [keepEntry_of_snap (by simp [hs])]
    cases hk : c.kind <;> simp [restoredKind, hs, hk]

/-- **The loop that restores the directories** goes through: they need no room. -/
theorem restoreDirs (g : Geometry) (f : Fault) (t : Tree β) :
    ∃ t₁, forEach .ok (restorePass g f .dir) (slots g) t.discard = (.ok, t₁) ∧
      t₁.generation = t.generation ∧ t₁.committed = t.committed ∧ ∀ j, t₁.entry j =
        if j ∈ slots g then (keepEntry t.committed (t.entry j)).restoredKind .dir
        else keepEntry t.committed (t.entry j) := by
  obtain ⟨hgen, hcom, ⟨hok, hent⟩ | ⟨_, k, _, -, herr, ⟨t', -, hk⟩, -⟩⟩ := forEach_local
    (restorePass_local .dir) (nodup_slots g) t.discard
  · exact ⟨_, Prod.ext hok rfl, hgen, hcom, hent⟩
  · cases (kind_of_restorePass_err (by rw [hk]; exact herr)).1

/-- **What a rollback leaves.** Either everything is restored, or the loop fails in
a file slot: then the directories and the files before it are restored, the live
version in the slot is hollow, and the later files are as they were. -/
theorem rollback_entries (g : Geometry) (f : Fault) (t : Tree β) :
    (t.rollback g f).2.committed = t.committed ∧
      ((t.rollback g f).1 = f.final ∧ (t.rollback g f).2.generation = t.generation + 1 ∧
          (∀ j, (t.rollback g f).2.entry j = if j ∈ slots g then (t.entry j).restored t.committed
            else keepEntry t.committed (t.entry j)) ∨
        (t.rollback g f).1 ≠ .ok ∧ (t.rollback g f).2.generation = t.generation ∧
          ∃ pre k post, slots g = pre ++ k :: post ∧
            (∃ c, (t.entry k).snap = some c ∧ c.kind = .file) ∧
            ∀ j, (t.rollback g f).2.entry j = if j ∈ pre then (t.entry j).restored t.committed
              else if j = k then (t.entry j).spoiltLive
              else if j ∈ slots g then (keepEntry t.committed (t.entry j)).restoredKind .dir
              else keepEntry t.committed (t.entry j)) := by
  obtain ⟨t₁, hdir, hgen₁, hcom₁, hent₁⟩ := restoreDirs g f t
  obtain ⟨hgen, hcom, hloop⟩ := forEach_local (F := restorePass g f .file)
    (restorePass_local .file) (nodup_slots g) t₁
  unfold rollback
  simp only [hdir, ne_eq, not_true_eq_false, if_false]
  rcases hloop with ⟨hok, hent⟩ | ⟨pre, k, post, hsl, herr, ⟨t', ht', hk⟩, hent⟩
  · simp only [hok, not_true_eq_false, if_false]
    refine ⟨hcom.trans hcom₁, .inl ⟨trivial, by rw [hgen, hgen₁], fun j => ?_⟩⟩
    rw [hent j, hent₁ j]
    rcases em (j ∈ slots g) with hj | hj
    · rw [if_pos hj, if_pos hj, if_pos hj, restoredKind_file_dir]
    · rw [if_neg hj, if_neg hj, if_neg hj]
  · simp only [herr, not_false_eq_true, if_true]
    obtain ⟨-, c, hc, hkind⟩ := kind_of_restorePass_err (by rw [hk]; exact herr)
    have hmem : ∀ j, j ∈ pre ∨ j = k → j ∈ slots g := by
      rintro j (hj | rfl) <;> rw [hsl]
      · simp [hj]
      · simp
    -- the snapshot of the failing slot is the one from before
    have hek := hent₁ k
    rw [if_pos (hmem k (.inr rfl))] at hek
    have hsnap : (t.entry k).snap = some c := by
      rw [ht', hek] at hc
      unfold restoredKind at hc
      split at hc <;> simpa using hc
    have hkeep : keepEntry t.committed (t.entry k) = t.entry k :=
      keepEntry_of_snap (by simp [hsnap])
    refine ⟨hcom.trans hcom₁, .inr ⟨trivial, hgen.trans hgen₁, pre, k, post, hsl,
      ⟨c, hsnap, hkind⟩, fun j => ?_⟩⟩
    rw [hent j, hent₁ j]
    rcases em (j ∈ pre) with hj | hj
    · rw [if_pos hj, if_pos hj, if_pos (hmem j (.inl hj)), restoredKind_file_dir]
    · rw [if_neg hj, if_neg hj]
      rcases eq_or_ne j k with rfl | hne
      · rw [if_pos rfl, if_pos rfl, if_pos (hmem j (.inr rfl)), hkeep, restoredKind, if_neg]
        simp [hsnap, hkind]
      · rw [if_neg hne, if_neg hne]

/-! ### Room -/

omit [Inhabited β] in
theorem used_setEntry (t : Tree β) (i : Fin 64) (e : Entry β) :
    (t.setEntry i e).used + (t.entry i).blocks = t.used + e.blocks := by
  have hcongr : ∀ j, ((t.setEntry i e).entry j).blocks =
      update (fun j => (t.entry j).blocks) i e.blocks j := by
    intro j
    rcases eq_or_ne j i with rfl | hne
    · simp
    · simp [hne]
  rw [used, used, ← Fin.sum_univ_def, ← Fin.sum_univ_def, Finset.sum_congr rfl fun j _ => hcongr j]
  exact sum_update_add (fun j => (t.entry j).blocks) i e.blocks

/-- **A tree that a volume can hold**: no more blocks in use than there are, none
for a directory, and nothing outside the table. -/
structure Sized (g : Geometry) (t : Tree β) : Prop where
  used_le : t.used ≤ g.dataSectors
  live_dir : ∀ i c, (t.entry i).live = some c → c.kind = .dir → c.blocks = 0
  snap_dir : ∀ i c, (t.entry i).snap = some c → c.kind = .dir → c.blocks = 0
  outside : ∀ i, i ∉ slots g → (t.entry i).live = none ∧ (t.entry i).snap = none

omit [Inhabited β] in
/-- Replacing an entry keeps the tree one a volume can hold. -/
theorem Sized.setEntry (h : t.Sized g) {e : Entry β}
    (hused : (t.setEntry i e).used ≤ g.dataSectors)
    (hlive : ∀ c, e.live = some c → c.kind = .dir → c.blocks = 0)
    (hsnap : ∀ c, e.snap = some c → c.kind = .dir → c.blocks = 0)
    (hout : i ∉ slots g → e.live = none ∧ e.snap = none) : (t.setEntry i e).Sized g where
  used_le := hused
  live_dir := (forall_update_iff t.entry fun _ e =>
    ∀ c, e.live = some c → c.kind = .dir → c.blocks = 0).mpr ⟨hlive, fun j _ => h.live_dir j⟩
  snap_dir := (forall_update_iff t.entry fun _ e =>
    ∀ c, e.snap = some c → c.kind = .dir → c.blocks = 0).mpr ⟨hsnap, fun j _ => h.snap_dir j⟩
  outside := (forall_update_iff t.entry fun j e => j ∉ slots g → e.live = none ∧ e.snap = none).mpr
    ⟨hout, fun j _ => h.outside j⟩

theorem blocks_spoiltSnap (e : Entry β) : e.spoiltSnap.blocks = Version.blocksOf e.live := by
  unfold blocks spoiltSnap
  cases e.live <;> simp [Version.hollow]

theorem blocks_spoiltLive (e : Entry β) : e.spoiltLive.blocks = Version.blocksOf e.snap := by
  unfold blocks spoiltLive
  cases e.snap <;> simp [Version.hollow]

omit [Inhabited β] in
/-- **When a loop of local steps goes through.** An entry has a cost: the blocks it gives
back and the blocks it takes. A step goes through when they can be paid, and the good
entry that it leaves has them. -/
theorem forEach_ok_iff_of_local {F : Fin 64 → Tree β → Status × Tree β}
    {good bad : Entry β → Entry β}
    (hF : ∀ i t, (F i t).2 =
      t.setEntry i (if (F i t).1 = .ok then good (t.entry i) else bad (t.entry i)))
    (cost : Entry β → ℕ × ℕ)
    (hok : ∀ i t, t.Sized g →
      ((F i t).1 = .ok ↔ (cost (t.entry i)).2 ≤ t.free g + (cost (t.entry i)).1))
    (hcost : ∀ e, (good e).blocks + (cost e).1 = e.blocks + (cost e).2)
    (hlive : ∀ e, (good e).live = e.live ∨ (good e).live = e.snap)
    (hsnap : ∀ e, (good e).snap = e.live ∨ (good e).snap = e.snap)
    (ht : t.Sized g) {is : List (Fin 64)} (hnd : is.Nodup) :
    (forEach .ok F is t).1 = .ok ↔ Fits (t.free g) (is.map fun i => cost (t.entry i)) := by
  have hused : ∀ i t, (F i t).1 = .ok →
      (F i t).2.used + (cost (t.entry i)).1 = t.used + (cost (t.entry i)).2 := by
    intro i t h
    have hset := used_setEntry t i (good (t.entry i))
    have hgood := hcost (t.entry i)
    rw [hF, if_pos h]
    omega
  refine forEach_ok_iff_fits (free g) (fun i (t : Tree β) => cost (t.entry i)) (Sized g) hok
    (fun i t ht h => ?_) (fun i j t _ h hne => ?_) (fun i t ht h => ?_) hnd ht
  · have hpaid := (hok i t ht).mp h
    have hstep := hused i t h
    have hle := ht.used_le
    simp only [free] at hpaid ⊢
    omega
  · rw [hF, if_pos h, setEntry_entry, update_of_ne hne]
  · have hpaid := (hok i t ht).mp h
    have hstep := hused i t h
    have hle := ht.used_le
    rw [hF, if_pos h] at hstep ⊢
    refine ht.setEntry ?_ (fun c hc => ?_) (fun c hc => ?_) fun hi => ?_
    · simp only [free] at hpaid
      omega
    · rcases hlive (t.entry i) with heq | heq
      · exact ht.live_dir i c (heq ▸ hc)
      · exact ht.snap_dir i c (heq ▸ hc)
    · rcases hsnap (t.entry i) with heq | heq
      · exact ht.live_dir i c (heq ▸ hc)
      · exact ht.snap_dir i c (heq ▸ hc)
    · obtain ⟨hl, hs⟩ := ht.outside i hi
      exact ⟨(hlive (t.entry i)).elim (·.trans hl) (·.trans hs),
        (hsnap (t.entry i)).elim (·.trans hl) (·.trans hs)⟩

/-- A step of the commit loop goes through when the live version fits into what is free
without the snapshot. -/
theorem commitEntry_ok_iff (ht : t.Sized g) (i : Fin 64) :
    (t.commitEntry g .none i).1 = .ok ↔
      Version.blocksOf (t.entry i).live ≤ t.free g + Version.blocksOf (t.entry i).snap := by
  cases hlive : (t.entry i).live with
  | none => simp [commitEntry_of_none hlive]
  | some c =>
    have hu := used_setEntry t i (t.entry i).spoiltSnap
    have hle := ht.used_le
    rw [blocks_spoiltSnap, blocks, hlive, Version.blocksOf_some] at hu
    rw [commitEntry_of_some hlive, Version.blocksOf_some]
    cases hk : c.kind with
    | dir => simp [ht.live_dir i c hlive hk]
    | file =>
      simp only [reduceCtorEq, and_false, if_false, true_and, free]
      split
      · simp only [reduceCtorEq, false_iff]
        omega
      · simp only [true_iff]
        omega

/-- **When the commit loop goes through.** -/
theorem commitLoop_ok_iff (ht : t.Sized g) {is : List (Fin 64)} (hnd : is.Nodup) :
    (forEach .ok (commitEntry g .none) is t).1 = .ok ↔
      Fits (t.free g) (is.map fun i => (t.entry i).commitCost) := by
  refine forEach_ok_iff_of_local commitEntry_local commitCost
    (fun i t ht => commitEntry_ok_iff ht i) (fun e => ?_) (fun _ => .inl rfl)
    (fun _ => .inl rfl) ht hnd
  simp only [Entry.committed, blocks, commitCost]
  omega

omit [Inhabited β] in
theorem restoreCost_of_file {e : Entry β} (hc : e.snap = some c)
    (hk : c.kind = .file) : e.restoreCost = (Version.blocksOf e.live, c.blocks) := by
  rw [restoreCost, hc, any_some, if_pos (by simpa using hk)]
  rfl

/-- A step of the restore loop goes through when the snapshot fits into what is free
without the live version. -/
theorem restorePass_ok_iff (ht : t.Sized g) (i : Fin 64) :
    (t.restorePass g .none .file i).1 = .ok ↔
      (t.entry i).restoreCost.2 ≤ t.free g + (t.entry i).restoreCost.1 := by
  rcases em (∃ c, (t.entry i).snap = some c ∧ c.kind = .file) with ⟨c, hc, hk⟩ | hno
  · have hu := used_setEntry t i (t.entry i).spoiltLive
    have hle := ht.used_le
    rw [blocks_spoiltLive, blocks, hc, Version.blocksOf_some] at hu
    rw [restorePass_of_kind hc hk, restoreEntry_of_some hc, restoreCost_of_file hc hk]
    simp only [hk, reduceCtorEq, and_false, if_false, true_and, free]
    split
    · simp only [reduceCtorEq, if_false, false_iff]
      omega
    · simp only [if_true, true_iff]
      omega
  · have hany : ¬((t.entry i).snap.any fun c => c.kind = .file) = true := by
      intro h
      obtain ⟨c, hc, hk⟩ := (any_eq_true _ _).mp h
      exact hno ⟨c, hc, of_decide_eq_true hk⟩
    rw [restorePass_of_not_kind fun c hc hk => hno ⟨c, hc, hk⟩, restoreCost, if_neg hany]
    exact iff_of_true rfl (Nat.zero_le _)

omit [Inhabited β] in
/-- A restored file has the blocks of its snapshot twice. -/
theorem blocks_restoredKind (e : Entry β) :
    (e.restoredKind .file).blocks + e.restoreCost.1 = e.blocks + e.restoreCost.2 := by
  unfold restoredKind restoreCost
  split
  · simp only [blocks]
    omega
  · rfl

/-- **When the restore loop goes through.** -/
theorem restoreLoop_ok_iff (ht : t.Sized g) {is : List (Fin 64)} (hnd : is.Nodup) :
    (forEach .ok (restorePass g .none .file) is t).1 = .ok ↔
      Fits (t.free g) (is.map fun i => (t.entry i).restoreCost) := by
  refine forEach_ok_iff_of_local (restorePass_local .file) restoreCost
    (fun i t ht => restorePass_ok_iff ht i) blocks_restoredKind (fun e => ?_) (fun e => ?_) ht hnd
  · unfold restoredKind
    split
    · exact .inr rfl
    · exact .inl rfl
  · unfold restoredKind
    split <;> exact .inr rfl

end Tree

end Xaios.MutableFs
