import Xaios.MutableFs.Room
import Xaios.MutableFs.TreeSteps

/-!
# The name space

Active paths are distinct, and an active path that is not directly below `/` has
an active directory above it: the invariant `MutableFs.Tree.Tidy` says this of
the live versions and of the snapshots at once, because each of them becomes the
other.

The operations look at different sets of paths. `mkdir` and `write` refuse
nothing that is in the snapshot, they take its slot; `rename` looks at active
paths only, and it moves the snapshot of the slot with the live version. So it can
put a node on the path of a deleted one, a directory below itself, and a
snapshot out of its directory. A commit that runs out of blocks leaves
snapshots of two times in the table. In every run without these steps the
invariant holds (`MutableFs.tidy_of_orderly_run`).
-/

namespace Xaios.MutableFs

open Foundation BlockDevice Function Entry

variable {D β : Type}

namespace Tree

/-- A directory among the live versions, or among the snapshots. -/
def HasDir (version : Entry β → Option (Version β)) (t : Tree β) (path : CString) : Prop :=
  ∃ j c, version (t.entry j) = some c ∧ c.kind = .dir ∧ (t.entry j).name = path

/-- The slots in use are slots of the table, and two of them have two paths. -/
structure Named (g : Geometry) (t : Tree β) : Prop where
  inside : ∀ i, (t.entry i).Visible → i ∈ slots g
  distinct : ∀ i j, (t.entry i).Visible → (t.entry j).Visible →
    (t.entry i).name = (t.entry j).name → i = j

/-- **The invariant of the name space.** -/
structure Tidy (g : Geometry) (t : Tree β) : Prop extends Named g t where
  /-- The paths in use are valid. -/
  valid : ∀ i, (t.entry i).Visible → validatePath (t.entry i).name = .ok
  /-- The parent of a live path is a live directory. -/
  live_parent : ∀ i, (t.entry i).live.isSome → parentPathOf (t.entry i).name ≠ rootPath →
    t.HasDir Entry.live (parentPathOf (t.entry i).name)
  /-- The parent of a path in the snapshot is a directory in the snapshot. -/
  snap_parent : ∀ i, (t.entry i).snap.isSome → parentPathOf (t.entry i).name ≠ rootPath →
    t.HasDir Entry.snap (parentPathOf (t.entry i).name)
  /-- What is live and not in the snapshot is from after the commit. -/
  recent : ∀ i c, (t.entry i).snap = none → (t.entry i).live = some c → t.committed ≤ c.generation
  committed_le : t.committed ≤ t.generation

variable {g : Geometry} {f : Fault} {t : Tree β} {path : CString} {i : Fin 64}

theorem Named.fresh : (Tree.fresh β).Named g where
  inside := fun _ h => absurd h (by simp [Visible, Tree.fresh])
  distinct := fun _ _ h => absurd h (by simp [Visible, Tree.fresh])

theorem Tidy.fresh : (Tree.fresh β).Tidy g where
  toNamed := Named.fresh
  valid := fun _ h => absurd h (by simp [Visible, Tree.fresh])
  live_parent := fun _ h => absurd h (by simp [Tree.fresh])
  snap_parent := fun _ h => absurd h (by simp [Tree.fresh])
  recent := fun _ _ _ h => absurd h (by simp [Tree.fresh])
  committed_le := (by decide : (0 : UInt64) ≤ 1)

/-! ### Paths -/

/-- What is visible keeps its name, and nothing else becomes visible. -/
theorem Named.of_visible {t' : Tree β} (h : t.Named g)
    (hname : ∀ i, (t'.entry i).name = (t.entry i).name)
    (hvis : ∀ i, (t'.entry i).Visible → (t.entry i).Visible) : t'.Named g where
  inside := fun i hi => h.inside i (hvis i hi)
  distinct := fun i j hi hj hij =>
    h.distinct i j (hvis i hi) (hvis j hj) ((hname i).symm.trans (hij.trans (hname j)))

/-- One entry changes to a path that is not in use elsewhere. -/
theorem Named.setEntry (h : t.Named g) (hi : i ∈ slots g) {e : Entry β} {n : UInt64}
    (hdistinct : e.Visible → ∀ j, j ≠ i → (t.entry j).Visible → (t.entry j).name ≠ e.name) :
    Named g { t.setEntry i e with generation := n } where
  inside := fun j hj => by
    rcases eq_or_ne j i with rfl | hne
    · exact hi
    · simp only [setEntry_entry, ne_eq, hne, not_false_eq_true, update_of_ne] at hj
      exact h.inside j hj
  distinct := fun j k hj hk hjk => by
    rcases eq_or_ne j i with rfl | hji <;> rcases eq_or_ne k j with rfl | hkj
    · rfl
    · simp only [setEntry_entry, update_self, ne_eq, hkj, not_false_eq_true,
        update_of_ne] at hj hk hjk
      exact absurd hjk.symm (hdistinct hj k hkj hk)
    · rfl
    · rcases eq_or_ne k i with rfl | hki
      · simp only [setEntry_entry, update_self, ne_eq, hji, not_false_eq_true,
          update_of_ne] at hj hk hjk
        exact absurd hjk (hdistinct hk j hji hj)
      · simp only [setEntry_entry, ne_eq, hji, hki, not_false_eq_true,
          update_of_ne] at hj hk hjk
        exact h.distinct j k hj hk hjk

/-- The slot for a path is the only one that can have it. -/
theorem Named.name_ne (h : t.Named g) (hslot : t.SlotFor g path i) {j : Fin 64} (hji : j ≠ i)
    (hj : (t.entry j).Visible) : (t.entry j).name ≠ path := by
  intro hname
  rcases hslot with hfind | ⟨hnone, -⟩
  · obtain ⟨-, hi, hvis⟩ := of_find hfind
    exact hji (h.distinct j i hj (hvis.imp_right And.right) (hname.trans hi.symm))
  · exact of_find_none hnone (h.inside j hj) (hj.imp_right fun hs => ⟨rfl, hs⟩) hname

/-- **An operation on live versions keeps the paths distinct**, when a rename goes to a
path that is not in the snapshot either. -/
theorem Named.effect [Inhabited β] (h : t.Named g) {o : TreeOp β} {r : Status × Tree β}
    (he : Effect g f t o r)
    (hrename : ∀ oldPath newPath i, o = .rename oldPath newPath →
      t.find g oldPath false = some i → t.find g newPath false = none →
      t.parentExistsFor g newPath = true → t.find g newPath true = none) : r.2.Named g := by
  cases he with
  | refused | present => exact h
  | mkdir hpath hparent hslot hlive | write hpath hparent hsize hslot hlive =>
    exact h.setEntry hslot.mem fun _ j hji hj => h.name_ne hslot hji hj
  | @delete path i hfind hempty =>
    obtain ⟨hi, rfl, -⟩ := of_find hfind
    obtain ⟨c, hc⟩ := live_of_find hfind
    exact h.setEntry hi fun _ j hji hj hname =>
      hji (h.distinct j i hj (.inl (by simp [hc])) hname)
  | @rename oldPath newPath i hpath hparent hfind hnew hempty =>
    have hnone := hrename oldPath newPath i rfl hfind hnew hparent
    exact h.setEntry (of_find hfind).1 fun _ j hji hj =>
      of_find_none hnone (h.inside j hj) (hj.imp_right fun hs => ⟨rfl, hs⟩)

/-! ### Parents -/

/-- A directory elsewhere is still there when one entry changes. -/
theorem HasDir.setEntry {version : Entry β → Option (Version β)} (h : t.HasDir version path)
    {e : Entry β} {n : UInt64}
    (hi : ∀ c, version (t.entry i) = some c → c.kind = .dir → (t.entry i).name = path →
      version e = some c ∧ e.name = path) :
    HasDir version { t.setEntry i e with generation := n } path := by
  obtain ⟨j, c, hc, hk, hn⟩ := h
  rcases eq_or_ne j i with rfl | hne
  · obtain ⟨he, hen⟩ := hi c hc hk hn
    exact ⟨j, c, by simpa using he, hk, by simpa using hen⟩
  · exact ⟨j, c, by simpa [hne] using hc, hk, by simpa [hne] using hn⟩

/-- **One entry changes.** The new version has its parent, and nothing was in the
directory that goes. -/
theorem Tidy.setEntry (h : t.Tidy g) (hgen : t.generation.toNat + 1 < 2 ^ 64) {e : Entry β}
    (hnamed : Named g { t.setEntry i e with generation := t.generation + 1 })
    (hvalid : e.Visible → validatePath e.name = .ok)
    (hlive : e.live.isSome → parentPathOf e.name ≠ rootPath →
      ∃ j c, j ≠ i ∧ (t.entry j).live = some c ∧ c.kind = .dir ∧
        (t.entry j).name = parentPathOf e.name)
    (hlivekids : ∀ j c, j ≠ i → (t.entry j).live.isSome → parentPathOf (t.entry j).name ≠ rootPath →
      (t.entry i).live = some c → c.kind = .dir → (t.entry i).name ≠ parentPathOf (t.entry j).name)
    (hsnap : e.snap = (t.entry i).snap)
    (hsnapname : e.snap.isSome → e.name = (t.entry i).name ∨
      (parentPathOf e.name ≠ rootPath → ∃ j c, j ≠ i ∧ (t.entry j).snap = some c ∧ c.kind = .dir ∧
        (t.entry j).name = parentPathOf e.name) ∧
      ∀ j c, j ≠ i → (t.entry j).snap.isSome → parentPathOf (t.entry j).name ≠ rootPath →
        e.snap = some c → c.kind = .dir → (t.entry i).name ≠ parentPathOf (t.entry j).name)
    (hrecent : ∀ c, e.snap = none → e.live = some c → t.committed ≤ c.generation) :
    Tidy g { t.setEntry i e with generation := t.generation + 1 } where
  toNamed := hnamed
  valid := (forall_update_iff t.entry fun _ e => e.Visible → validatePath e.name = .ok).mpr
    ⟨hvalid, fun j _ => h.valid j⟩
  live_parent := fun j hj hne => by
    rcases eq_or_ne j i with rfl | hji
    · simp only [setEntry_entry, update_self] at hj hne ⊢
      obtain ⟨k, c, hk, hc, hd, hn⟩ := hlive hj hne
      exact ⟨k, c, by simpa [hk] using hc, hd, by simpa [hk] using hn⟩
    · simp only [setEntry_entry, ne_eq, hji, not_false_eq_true, update_of_ne] at hj hne ⊢
      exact (h.live_parent j hj hne).setEntry fun c hc hd hn =>
        absurd hn (hlivekids j c hji hj hne hc hd)
  snap_parent := fun j hj hne => by
    rcases eq_or_ne j i with rfl | hji
    · simp only [setEntry_entry, update_self] at hj hne ⊢
      rcases hsnapname hj with hname | ⟨hparent, -⟩
      · rw [hname] at hne ⊢
        rw [hsnap] at hj
        exact (h.snap_parent j hj hne).setEntry fun c hc _ hn =>
          ⟨hsnap.trans hc, hname.trans hn⟩
      · obtain ⟨k, c, hk, hc, hd, hn⟩ := hparent hne
        exact ⟨k, c, by simpa [hk] using hc, hd, by simpa [hk] using hn⟩
    · simp only [setEntry_entry, ne_eq, hji, not_false_eq_true, update_of_ne] at hj hne ⊢
      refine (h.snap_parent j hj hne).setEntry fun c hc hd hn => ?_
      have he : e.snap = some c := hsnap.trans hc
      rcases hsnapname (by simp [he]) with hname | ⟨-, hkids⟩
      · exact ⟨he, hname.trans hn⟩
      · exact absurd hn (hkids j c hji hj hne he hd)
  recent := (forall_update_iff t.entry fun _ e =>
    ∀ c, e.snap = none → e.live = some c → t.committed ≤ c.generation).mpr
    ⟨hrecent, fun j _ => h.recent j⟩
  committed_le := le_add_one_of_le h.committed_le hgen

/-! ### The operations on live versions -/

/-- **The renames that keep the name space in order**: nothing is at the new path,
not even in the snapshot; the node does not go below itself; and if the slot has
a snapshot, the new parent is a directory of the snapshot, and no snapshot is
left behind below the old path. -/
structure RenameOk (g : Geometry) (t : Tree β) (oldPath newPath : CString) (i : Fin 64) :
    Prop where
  unused : t.find g newPath true = none
  not_below : parentPathOf newPath ≠ oldPath
  snap_parent : (t.entry i).snap.isSome → parentPathOf newPath ≠ rootPath →
    t.HasDir Entry.snap (parentPathOf newPath)
  snap_empty : ∀ c, (t.entry i).snap = some c → c.kind = .dir → ∀ j, (t.entry j).snap.isSome →
    parentPathOf (t.entry j).name = oldPath → oldPath = rootPath

/-- Where a parent is checked for, there is a directory. -/
theorem hasDir_of_parentExistsFor (h : t.parentExistsFor g path = true)
    (hne : parentPathOf path ≠ rootPath) :
    ∃ j c, (t.entry j).live = some c ∧ c.kind = .dir ∧ (t.entry j).name = parentPathOf path := by
  rcases parentExistsFor_iff.mp h with hroot | ⟨j, c, hfind, hc, hk⟩
  · exact absurd hroot hne
  · exact ⟨j, c, hc, hk, (of_find hfind).2.1⟩

/-- Nothing live is in a directory without active children. -/
theorem Tidy.not_parent (h : t.Tidy g) (hempty : ¬t.hasActiveChildren g path = true) {j : Fin 64}
    (hj : (t.entry j).live.isSome) (hne : parentPathOf (t.entry j).name ≠ rootPath) :
    path ≠ parentPathOf (t.entry j).name := by
  rintro rfl
  have hbelow := isBelow_parentPathOf hne (length_of_validatePath (h.valid j (.inl hj)))
  rw [of_hasActiveChildren hempty (h.inside j (.inl hj)) hj] at hbelow
  cases hbelow

/-- A version is put in the slot for its path. -/
theorem Tidy.place (h : t.Tidy g) (hgen : t.generation.toNat + 1 < 2 ^ 64) {c : Version β}
    (hnamed : (t.place i path c).Named g) (hpath : validatePath path = .ok)
    (hparent : t.parentExistsFor g path = true) (hslot : t.SlotFor g path i)
    (hlive : ∀ c', (t.entry i).live = some c' → c'.kind ≠ .dir)
    (hc : c.generation = t.generation) : (t.place i path c).Tidy g := by
  refine h.setEntry hgen hnamed (fun _ => hpath) (fun _ hne => ?_)
    (fun j c' _ _ _ hc' hk => absurd hk (hlive c' hc')) rfl
    (fun hs => .inl (hslot.name_eq (.inr hs)).symm) fun c' _ hc' => ?_
  · -- the parent is in another slot, because no path is its own parent
    obtain ⟨k, c', hc', hk, hn⟩ := hasDir_of_parentExistsFor hparent hne
    refine ⟨k, c', ?_, hc', hk, hn⟩
    rintro rfl
    have hself := hslot.name_eq (.inl (by simp [hc']))
    exact parentPathOf_ne_self hne (length_of_validatePath hpath) (hn.symm.trans hself)
  · cases hc'
    rw [hc]
    exact h.committed_le

/-- **An operation on live versions keeps the name space in order**, when a rename is
one of those that do. -/
theorem Tidy.effect [Inhabited β] (h : t.Tidy g) {o : TreeOp β} {r : Status × Tree β}
    (he : Effect g f t o r) (hgen : t.generation.toNat + 1 < 2 ^ 64)
    (hrename : ∀ oldPath newPath i, o = .rename oldPath newPath →
      t.find g oldPath false = some i → t.find g newPath false = none →
      t.parentExistsFor g newPath = true → t.RenameOk g oldPath newPath i) : r.2.Tidy g := by
  have hnamed : r.2.Named g := h.toNamed.effect he fun oldPath newPath i ho hfind hnew hparent =>
    (hrename oldPath newPath i ho hfind hnew hparent).unused
  cases he with
  | refused | present => exact h
  | mkdir hpath hparent hslot hlive =>
    exact h.place hgen hnamed hpath hparent hslot (fun c hc => by simp [hlive] at hc) rfl
  | write hpath hparent hsize hslot hlive =>
    exact h.place hgen hnamed hpath hparent hslot (fun c hc hk => by simp [hlive c hc] at hk) rfl
  | @delete path i hfind hempty =>
    obtain ⟨hi, rfl, -⟩ := of_find hfind
    obtain ⟨c₀, hc₀⟩ := live_of_find hfind
    refine h.setEntry hgen hnamed (fun _ => h.valid i (.inl (by simp [hc₀]))) nofun
      (fun j c _ hj hne hc hk => ?_) rfl (fun _ => .inl rfl) nofun
    exact h.not_parent (hempty c hc hk) hj hne
  | @rename oldPath newPath i hpath hparent hfind hnew hempty =>
    have hok := hrename oldPath newPath i rfl hfind hnew hparent
    obtain ⟨hi, rfl, -⟩ := of_find hfind
    refine h.setEntry hgen hnamed (fun _ => hpath) (fun _ hne => ?_)
      (fun j c _ hj hne hc hk => h.not_parent (hempty c hc hk) hj hne) rfl
      (fun hs => .inr ⟨fun hne => ?_, fun j c _ hj hne hc hk hn => ?_⟩) fun c _ hc => ?_
    · obtain ⟨k, c, hc, hk, hn⟩ := hasDir_of_parentExistsFor hparent hne
      refine ⟨k, c, ?_, hc, hk, hn⟩
      rintro rfl
      exact hok.not_below hn.symm
    · -- the snapshot moves to a directory of the snapshot
      obtain ⟨k, c, hc, hk, hn⟩ := hok.snap_parent hs hne
      refine ⟨k, c, ?_, hc, hk, hn⟩
      rintro rfl
      exact hok.not_below hn.symm
    · -- and leaves nothing behind
      exact hne (hn.symm.trans (hok.snap_empty c hc hk j hj hn.symm))
    · obtain ⟨c', -, rfl⟩ := Option.map_eq_some_iff.mp hc
      exact h.committed_le

/-! ### Commit and rollback -/

variable [Inhabited β]

omit [Inhabited β] in
/-- Nothing is outside the table. -/
theorem Named.outside (h : t.Named g) (i : Fin 64) (hi : i ∉ slots g) :
    (t.entry i).live = none ∧ (t.entry i).snap = none := by
  have hvis : ¬(t.entry i).Visible := fun hv => hi (h.inside i hv)
  simpa [Visible] using hvis

omit [Inhabited β] in
/-- **A tree with the names of another one, where what is visible was there in one version**,
live or in the snapshot, and the directories of that version are both. -/
theorem Tidy.of_version (h : t.Tidy g) {t' : Tree β} {version : Entry β → Option (Version β)}
    (hversion : version = Entry.live ∨ version = Entry.snap)
    (hname : ∀ i, (t'.entry i).name = (t.entry i).name)
    (hvis : ∀ i, (t'.entry i).Visible → (version (t.entry i)).isSome)
    (hdir : ∀ i c, version (t.entry i) = some c → c.kind = .dir →
      (t'.entry i).live = some c ∧ (t'.entry i).snap = some c)
    (hlive : ∀ i, (t'.entry i).snap = none → (t'.entry i).live = none)
    (hle : t'.committed ≤ t'.generation) : t'.Tidy g := by
  have hvis' : ∀ i, (t'.entry i).Visible → (t.entry i).Visible := by
    rcases hversion with rfl | rfl
    · exact fun i hi => .inl (hvis i hi)
    · exact fun i hi => .inr (hvis i hi)
  have hparent : ∀ i, (t'.entry i).Visible → parentPathOf (t'.entry i).name ≠ rootPath →
      t'.HasDir live (parentPathOf (t'.entry i).name) ∧
        t'.HasDir snap (parentPathOf (t'.entry i).name) := by
    intro i hi hne
    rw [hname] at hne ⊢
    obtain ⟨j, c, hc, hk, hn⟩ : t.HasDir version (parentPathOf (t.entry i).name) := by
      rcases hversion with rfl | rfl
      · exact h.live_parent i (hvis i hi) hne
      · exact h.snap_parent i (hvis i hi) hne
    exact ⟨⟨j, c, (hdir j c hc hk).1, hk, (hname j).trans hn⟩,
      ⟨j, c, (hdir j c hc hk).2, hk, (hname j).trans hn⟩⟩
  refine ⟨h.of_visible hname hvis', fun i hi => ?_, fun i hi hne => (hparent i (.inl hi) hne).1,
    fun i hi hne => (hparent i (.inr hi) hne).2, fun i c hs hl => ?_, hle⟩
  · rw [hname]
    exact h.valid i (hvis' i hi)
  · cases (hlive i hs).symm.trans hl

/-- **A commit that succeeds keeps the name space in order**: the snapshots are the
live versions. -/
theorem Tidy.commit (h : t.Tidy g) (hok : (t.commit g f).1 = .ok) : (t.commit g f).2.Tidy g := by
  have hent := commit_entry_of_ok h.outside hok
  refine h.of_version (.inl rfl) (fun i => by rw [hent]; rfl) (fun i hi => ?_)
    (fun i c hc _ => ?_) (fun i hs => ?_) ?_
  · rw [hent] at hi
    exact hi.elim id id
  · rw [hent]
    exact ⟨hc, hc⟩
  · rw [hent] at hs ⊢
    exact hs
  · obtain ⟨hgen, ⟨-, hcom, -⟩ | ⟨herr, -⟩⟩ := commit_entries g f t
    · exact UInt64.le_of_eq (hcom.trans hgen.symm)
    · exact absurd hok herr

/-- **What a rollback does to the name space, whether it succeeds or not**: names and
snapshots stay, what has no snapshot goes, and the directories are back. -/
theorem Tidy.rollback_entry (h : t.Tidy g) (i : Fin 64) :
    ((t.rollback g f).2.entry i).name = (t.entry i).name ∧
      ((t.rollback g f).2.entry i).snap = (t.entry i).snap ∧
      ((t.entry i).snap = none → ((t.rollback g f).2.entry i).live = none) ∧
      ∀ c, (t.entry i).snap = some c → c.kind = .dir →
        ((t.rollback g f).2.entry i).live = some c := by
  -- what the first loop leaves, and what all loops leave
  have hkeep : (t.entry i).snap = none → (keepEntry t.committed (t.entry i)).live = none :=
    fun hs => live_keepEntry hs fun c => h.recent i c hs
  have hrestored : ((t.entry i).restored t.committed).name = (t.entry i).name ∧
      ((t.entry i).restored t.committed).snap = (t.entry i).snap ∧
      ((t.entry i).snap = none → ((t.entry i).restored t.committed).live = none) ∧
      ∀ c, (t.entry i).snap = some c → c.kind = .dir →
        ((t.entry i).restored t.committed).live = some c := by
    unfold restored
    cases hs : (t.entry i).snap with
    | none => simpa [hs] using hkeep hs
    | some c => simp
  -- outside the table there is nothing to restore
  have hout : i ∉ slots g →
      keepEntry t.committed (t.entry i) = (t.entry i).restored t.committed := fun hi => by
    simp [restored, (h.outside i hi).2]
  obtain ⟨-, ⟨-, -, hent⟩ | ⟨-, -, pre, k, post, -, ⟨c, hc, hk⟩, hent⟩⟩ := rollback_entries g f t
  · rw [hent i]
    split_ifs with hi
    · exact hrestored
    · rwa [hout hi]
  · rw [hent i]
    split_ifs with hpre hik hi
    · exact hrestored
    · -- the file the loop fails at
      subst hik
      simp [spoiltLive, hc, hk]
    · cases hs : (t.entry i).snap with
      | none => simpa [restoredKind, hs] using hkeep hs
      | some c' =>
        rw [keepEntry_of_snap (by simp [hs])]
        cases hk' : c'.kind <;> simp [restoredKind, hs, hk']
    · rwa [hout hi]

/-- **A rollback keeps the name space in order, even one that fails**: what is live
afterwards is in the snapshot, and the directories of the snapshot are all there. -/
theorem Tidy.rollback (h : t.Tidy g) (hgen : t.generation.toNat + 1 < 2 ^ 64) :
    (t.rollback g f).2.Tidy g := by
  have hent := h.rollback_entry (f := f)
  refine h.of_version (.inr rfl) (fun i => (hent i).1) (fun i hi => ?_)
    (fun i c hc hk => ⟨(hent i).2.2.2 c hc hk, (hent i).2.1.trans hc⟩)
    (fun i hs => (hent i).2.2.1 ((hent i).2.1.symm.trans hs)) ?_
  · obtain ⟨-, hs, hnone, -⟩ := hent i
    cases hsn : (t.entry i).snap with
    | none =>
      rw [Visible, hnone hsn, hs, hsn] at hi
      simp at hi
    | some c => rfl
  · obtain ⟨hcom, ⟨-, hg, -⟩ | ⟨-, hg, -⟩⟩ := rollback_entries g f t
    · rw [hcom, hg]
      exact le_add_one_of_le h.committed_le hgen
    · rw [hcom, hg]
      exact h.committed_le

end Tree

/-! ### On the volume -/

/-- The renames that keep the name space in order, on the volume
(`MutableFs.Tree.RenameOk`). -/
structure Volume.RenameOk (v : Volume) (g : Geometry) (oldPath newPath : CString) (i : Fin 64) :
    Prop where
  unused : v.findNode g newPath true = none
  not_below : parentPathOf newPath ≠ oldPath
  snap_parent : (v.nodes i).snapshotActive ≠ 0 → parentPathOf newPath ≠ rootPath →
    ∃ j, (v.nodes j).snapshotActive ≠ 0 ∧ (v.nodes j).snapshotType = nodeDir ∧
      (v.nodes j).name = parentPathOf newPath
  snap_empty : (v.nodes i).snapshotActive ≠ 0 → (v.nodes i).snapshotType = nodeDir →
    ∀ j, (v.nodes j).snapshotActive ≠ 0 → parentPathOf (v.nodes j).name = oldPath →
      oldPath = rootPath

/-- **The operations that keep the name space in order**: every `mkdir`, `write`,
`delete` and `rollback`, a `rename` that is refused or in order, and a `commit`
there is room for. -/
def Op.Orderly (s : Fs D) : Op → Prop
  | .rename oldPath newPath => ∀ i, s.vol.findNode s.geo oldPath false = some i →
      s.vol.findNode s.geo newPath false = none → s.vol.parentExistsFor s.geo newPath = true →
      s.vol.RenameOk s.geo oldPath newPath i
  | .commit => s.vol.CommitFits s.geo
  | _ => True

/-- Such an operation, while there are generation numbers left. -/
def OrderlyStep (s : Fs D) (o : Op) : Prop := o.Orderly s ∧ s.vol.generation.toNat + 1 < 2 ^ 64

namespace View

variable [BlockDevice 512 D] [Inhabited β] {g : Geometry} (V : View D g β)

/-- A snapshot version is there when its flag is set. -/
theorem snap_eq_some_iff {d : D} {n : Node} : (∃ c, V.snap d n = some c ∧ c.kind = .dir) ↔
    n.snapshotActive ≠ 0 ∧ n.snapshotType = nodeDir := by
  rcases eq_or_ne n.snapshotActive 0 with h | h
  · simp [V.snap_of_inactive h, h]
  · simp [V.snap_of_active h, h, kindOf_eq_dir]

theorem renameOk_tree {s : Fs D} {oldPath newPath : CString} {i : Fin 64}
    (h : s.vol.RenameOk g oldPath newPath i) : (V.tree s).RenameOk g oldPath newPath i where
  unused := by
    rw [V.find_tree]
    exact h.unused
  not_below := h.not_below
  snap_parent := fun hs hne => by
    change (V.snap s.dev (s.vol.nodes i)).isSome at hs
    rw [V.isSome_snap, bne_iff_ne] at hs
    obtain ⟨j, ha, ht, hn⟩ := h.snap_parent hs hne
    obtain ⟨c, hc, hk⟩ := V.snap_eq_some_iff.mpr ⟨ha, ht⟩
    exact ⟨j, c, hc, hk, hn⟩
  snap_empty := fun c hc hk j hj hparent => by
    obtain ⟨ha, ht⟩ := V.snap_eq_some_iff.mp ⟨c, hc, hk⟩
    change (V.snap s.dev (s.vol.nodes j)).isSome at hj
    rw [V.isSome_snap, bne_iff_ne] at hj
    exact h.snap_empty ha ht j hj hparent

/-- **An orderly operation keeps the name space in order.** -/
theorem tidy_exec {s : Fs D} (hinv : V.Inv s) (hr : V.reliable) (h : (V.tree s).Tidy g) {o : Op}
    (ho : OrderlyStep s o) : (V.tree (o.exec s).2).Tidy g := by
  obtain ⟨horderly, hgen⟩ := ho
  have hgeo := hinv.geo
  have htree : V.tree (o.exec s).2 = ((V.op o).exec g .none (V.tree s)).2 :=
    congrArg Prod.snd (V.exec_of_reliable hinv hr o)
  rw [htree]
  cases o with
  | mkdir path => exact h.effect (Tree.mkdir_effect path) hgen nofun
  | write path data => exact h.effect (Tree.write_effect path _ _ _) hgen nofun
  | delete path => exact h.effect (Tree.delete_effect path) hgen nofun
  | rename oldPath newPath =>
    refine h.effect (Tree.rename_effect oldPath newPath) hgen fun p q i hpq hfind hnew hparent => ?_
    cases hpq
    rw [V.find_tree] at hfind hnew
    rw [V.parentExistsFor_tree] at hparent
    subst hgeo
    exact V.renameOk_tree (horderly i hfind hnew hparent)
  | commit =>
    have hfits : s.vol.CommitFits g := hgeo ▸ horderly
    refine h.commit ?_
    rw [← (V.commit_of_reliable hinv hr).1]
    exact (V.commitSnapshot_ok_iff hinv hr).mpr hfits
  | rollback => exact h.rollback hgen

end View

/-! ### Every run -/

/-- **The name space of a run of orderly operations.** From a freshly formatted
volume on a device that serves every request: the active paths are distinct, and
an active path that is not directly below `/` has an active directory as its
parent. -/
theorem tidy_of_orderly_run [FaultFreeDevice 512 D] (s : Fs D)
    (hcap : dataStartSector + s.geo.dataSectors ≤ capacity 512 s.dev) (os : List Op)
    (hsteps : Along (fun s o => (Op.exec s o).2) OrderlyStep (formatted s) os) :
    let v := (runOps (formatted s) os).vol
    (∀ i j, (v.nodes i).active ≠ 0 → (v.nodes j).active ≠ 0 →
        (v.nodes i).name = (v.nodes j).name → i = j) ∧
      ∀ i, (v.nodes i).active ≠ 0 → parentPathOf (v.nodes i).name ≠ rootPath →
        ∃ j, (v.nodes j).active ≠ 0 ∧ (v.nodes j).type = nodeDir ∧
          (v.nodes j).name = parentPathOf (v.nodes i).name := by
  let V := (View.names D s.geo).served
  have hinv : V.Inv (formatted s) := V.inv_formatted rfl ⟨trivial, hcap⟩
  obtain ⟨-, htidy⟩ := hsteps.foldl_induct (I := fun x => V.Inv x ∧ (V.tree x).Tidy s.geo)
    ⟨hinv, by rw [V.tree_formatted]; exact Tree.Tidy.fresh⟩
    fun x o hx ho => ⟨(V.exec_refines hx.1 o).1, V.tidy_exec hx.1 trivial hx.2 ho⟩
  change (V.tree (runOps (formatted s) os)).Tidy s.geo at htidy
  generalize runOps (formatted s) os = u at *
  have hsome : ∀ i, (u.vol.nodes i).active ≠ 0 → ((V.tree u).entry i).live.isSome := by
    intro i hi
    change (V.live u.dev (u.vol.nodes i)).isSome
    rw [V.isSome_live, bne_iff_ne]
    exact hi
  refine ⟨fun i j hi hj => htidy.distinct i j (.inl (hsome i hi)) (.inl (hsome j hj)),
    fun i hi hne => ?_⟩
  obtain ⟨j, c, hc, hk, hn⟩ := htidy.live_parent i (hsome i hi) hne
  change V.live u.dev (u.vol.nodes j) = some c at hc
  rcases eq_or_ne (u.vol.nodes j).active 0 with ha | ha
  · rw [V.live_of_inactive ha] at hc
    cases hc
  · rw [V.live_of_active ha] at hc
    cases hc
    exact ⟨j, ha, kindOf_eq_dir.mp hk, hn⟩

/-- The path `/d/e`. -/
def nestedPath : CString := ⟨[slash, 100, slash, 101], by decide⟩

/-- A directory and a file in it. -/
theorem tidy_of_mkdir_write :
    let v := (runOps blankFs [.mkdir pathD, .write nestedPath []]).vol
    (∀ i j, (v.nodes i).active ≠ 0 → (v.nodes j).active ≠ 0 →
        (v.nodes i).name = (v.nodes j).name → i = j) ∧
      ∀ i, (v.nodes i).active ≠ 0 → parentPathOf (v.nodes i).name ≠ rootPath →
        ∃ j, (v.nodes j).active ≠ 0 ∧ (v.nodes j).type = nodeDir ∧
          (v.nodes j).name = parentPathOf (v.nodes i).name := by
  refine tidy_of_orderly_run _ (by decide) _ ⟨⟨trivial, ?_⟩, ⟨trivial, ?_⟩, trivial⟩
  · decide +kernel
  · decide +kernel

/-- A directory is renamed to a path below itself. -/
def nestingOps : List Op :=
  [.mkdir pathD, .rename pathD nestedPath]

/-- A file is renamed to the path of one that is deleted and in the snapshot. -/
def twinOps : List Op :=
  [.write pathA [], .write pathB [], .commit, .delete pathA, .rename pathB pathA, .rollback]

/-- **Two ways out of order**: an active node without a parent, and two active nodes
with one path. -/
theorem disorderly_runs :
    (((runOps blankFs nestingOps).vol.nodes 0).active ≠ 0 ∧
      parentPathOf ((runOps blankFs nestingOps).vol.nodes 0).name ≠ rootPath ∧
      ∀ j, ((runOps blankFs nestingOps).vol.nodes j).active ≠ 0 →
        ((runOps blankFs nestingOps).vol.nodes j).name ≠
          parentPathOf ((runOps blankFs nestingOps).vol.nodes 0).name) ∧
    (((runOps blankFs twinOps).vol.nodes 0).active ≠ 0 ∧
      ((runOps blankFs twinOps).vol.nodes 1).active ≠ 0 ∧
      ((runOps blankFs twinOps).vol.nodes 0).name =
        ((runOps blankFs twinOps).vol.nodes 1).name) := by
  decide +kernel

end Xaios.MutableFs
