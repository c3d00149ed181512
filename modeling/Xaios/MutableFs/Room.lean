import Xaios.MutableFs.Runs
import Xaios.MutableFs.TreeLoops

/-!
# Room for a commit and for a rollback

Both loops replace versions slot by slot, and in each slot they give blocks back
before they take new ones. A rollback gives the blocks of the live version back
and takes those of the snapshot, while later slots still hold what was written
after the commit. So it can run out of blocks, although the live versions and
the snapshots of the commit fitted together.

`MutableFs.rollback_ok_iff_fits` says when: exactly when some prefix of the
slots takes more than is free and given back up to there. This is the condition
`MutableFs.Volume.RollbackFits` on the volume before the rollback.
-/

namespace Xaios.MutableFs

open Foundation BlockDevice List Entry

variable {D β : Type}

/-! ### On the tree -/

/-- A sum over the slots of a geometry, when there is nothing outside. -/
theorem sum_slots {g : Geometry} {h : Fin 64 → ℕ} (h0 : ∀ i, i ∉ slots g → h i = 0) :
    ((slots g).map h).sum = ∑ i, h i := by
  have hfilter : ∀ l : List (Fin 64),
      ((l.filter fun i => i.val < g.maxNodes).map h).sum = (l.map h).sum := by
    intro l
    induction l with
    | nil => rfl
    | cons i l ih =>
      rcases em (i.val < g.maxNodes) with hi | hi
      · rw [filter_cons_of_pos (by simpa using hi), map_cons, map_cons,
          sum_cons, sum_cons, ih]
      · rw [filter_cons_of_neg (by simpa using hi), map_cons, sum_cons, ih,
          h0 i fun hm => hi (mem_slots.mp hm), Nat.zero_add]
  rw [slots, hfilter, Fin.sum_univ_def]

namespace Tree

variable {g : Geometry}

/-- The blocks an entry keeps until the first file is restored, and those it gives
up. -/
theorem blocks_add_givenUp {t : Tree β} (ht : t.Sized g) (i : Fin 64) :
    ((keepEntry t.committed (t.entry i)).restoredKind .dir).blocks +
      (t.entry i).givenUp t.committed = (t.entry i).blocks := by
  unfold givenUp
  cases hs : (t.entry i).snap with
  | none =>
    have hr : (keepEntry t.committed (t.entry i)).restoredKind .dir =
        keepEntry t.committed (t.entry i) := by
      simp [restoredKind, hs]
    rw [hr, keepEntry, hs]
    simp only [Option.isNone_none, true_and, if_true]
    split
    · simp [blocks, hs]
    · simp
  | some c =>
    rw [keepEntry_of_snap (by simp [hs])]
    cases hk : c.kind with
    | dir =>
      have := ht.snap_dir i c hs hk
      simp [restoredKind, blocks, hs, hk, this]
    | file => simp [restoredKind, hs, hk]

/-- What restoring a file costs does not depend on what is restored before. -/
theorem restoreCost_restoredKind (committed : UInt64) (e : Entry β) :
    ((keepEntry committed e).restoredKind .dir).restoreCost = e.restoreCost := by
  cases hs : e.snap with
  | none => simp [restoredKind, restoreCost, hs]
  | some c =>
    rw [keepEntry_of_snap (by simp [hs])]
    cases hk : c.kind <;> simp [restoredKind, restoreCost, hs, hk]

/-- **When a commit goes through**, on a device without faults. -/
theorem commit_ok_iff [Inhabited β] {t : Tree β} (ht : t.Sized g) :
    (t.commit g .none).1 = .ok ↔
      Fits (t.free g) ((slots g).map fun i => (t.entry i).commitCost) := by
  rw [← commitLoop_ok_iff ht (nodup_slots g)]
  dsimp only [commit]
  split
  · rfl
  · rename_i h
    rw [not_not] at h
    exact iff_of_true rfl h

/-- **When a rollback goes through**, on a device without faults. -/
theorem rollback_ok_iff [Inhabited β] {t : Tree β} (ht : t.Sized g) :
    (t.rollback g .none).1 = .ok ↔
      Fits (t.free g + ((slots g).map fun i => (t.entry i).givenUp t.committed).sum)
        ((slots g).map fun i => (t.entry i).restoreCost) := by
  obtain ⟨t₁, hdir, -, -, hent⟩ := restoreDirs g .none t
  -- outside the table nothing is there, so the second branch is the first
  have hent' : ∀ j, t₁.entry j = (keepEntry t.committed (t.entry j)).restoredKind .dir := by
    intro j
    rw [hent j]
    split
    · rfl
    · rename_i hj
      simp [restoredKind, (ht.outside j hj).2]
  have hused : t₁.used + ((slots g).map fun i => (t.entry i).givenUp t.committed).sum = t.used := by
    rw [sum_slots fun i hi => ?_]
    · rw [used, used, ← Fin.sum_univ_def, ← Fin.sum_univ_def, ← Finset.sum_add_distrib]
      exact Finset.sum_congr rfl fun i _ => by rw [hent', blocks_add_givenUp ht]
    · simp [givenUp, (ht.outside i hi).1, (ht.outside i hi).2]
  have hle := ht.used_le
  have hsized : t₁.Sized g := by
    refine ⟨by omega, fun i c hc => ?_, fun i c hc => ?_, fun i hi => ?_⟩
    · rw [hent'] at hc
      unfold restoredKind at hc
      split at hc
      · exact ht.snap_dir i c (by simpa using hc)
      · unfold keepEntry at hc
        split at hc
        · simp at hc
        · exact ht.live_dir i c hc
    · rw [hent'] at hc
      refine ht.snap_dir i c ?_
      unfold restoredKind at hc
      split at hc <;> simpa using hc
    · rw [hent']
      obtain ⟨hl, hs⟩ := ht.outside i hi
      simp [restoredKind, keepEntry, hl, hs]
  have hfree : t₁.free g = t.free g +
      ((slots g).map fun i => (t.entry i).givenUp t.committed).sum := by
    unfold free
    omega
  have hcost : ((slots g).map fun i => (t₁.entry i).restoreCost) =
      (slots g).map fun i => (t.entry i).restoreCost :=
    map_congr_left fun i _ => by rw [hent', restoreCost_restoredKind]
  rw [← hfree, ← hcost, ← restoreLoop_ok_iff hsized (nodup_slots g)]
  unfold rollback
  simp only [hdir, ne_eq, not_true_eq_false, if_false]
  split
  · rfl
  · rename_i h
    rw [not_not] at h
    exact iff_of_true rfl h

end Tree

/-! ### On the volume -/

namespace Node

/-- The blocks of the node that a rollback gives back before it restores the first
file: those of a live version that the first loop drops, or that a directory
replaces. -/
def givenUp (committed : UInt64) (n : Node) : ℕ :=
  if n.snapshotActive = 0 then if committed ≤ n.generation then n.liveBlocks.length else 0
  else if n.snapshotType = nodeDir then n.liveBlocks.length else 0

/-- The blocks committing the node gives back and takes. -/
def commitCost (n : Node) : ℕ × ℕ := (n.snapBlocks.length, n.liveBlocks.length)

/-- The blocks restoring the node as a file gives back and takes. -/
def restoreCost (n : Node) : ℕ × ℕ :=
  if n.snapshotActive ≠ 0 ∧ n.snapshotType = nodeFile then
    (n.liveBlocks.length, n.snapBlocks.length)
  else (0, 0)

end Node

/-- **There is room for a commit**: with the blocks that are free, the snapshots can
be replaced in the order of their slots. -/
def Volume.CommitFits (v : Volume) (g : Geometry) : Prop :=
  Fits (v.freeList g).length ((slots g).map fun i => (v.nodes i).commitCost)

/-- **There is room for a rollback**: with the blocks that are free or given up,
the files can be restored in the order of their slots. -/
def Volume.RollbackFits (v : Volume) (g : Geometry) : Prop :=
  Fits ((v.freeList g).length +
      ((slots g).map fun i => (v.nodes i).givenUp v.committedGeneration).sum)
    ((slots g).map fun i => (v.nodes i).restoreCost)

namespace View

variable [BlockDevice 512 D] [Inhabited β] {g : Geometry} (V : View D g β)

open Version

theorem givenUp_entry (d : D) (committed : UInt64) (n : Node) :
    (V.entry d n).givenUp committed = n.givenUp committed := by
  have hlive := V.blocksOf_live d n
  unfold givenUp Node.givenUp
  rcases eq_or_ne n.snapshotActive 0 with hs | hs
  · have hsnap : (V.entry d n).snap = none := V.snap_of_inactive hs
    rw [if_pos hs, hsnap, Option.isNone_none, if_pos rfl]
    change (if (V.live d n).any _ then blocksOf (V.live d n) else 0) = _
    rw [hlive]
    rcases eq_or_ne n.active 0 with ha | ha
    · simp [V.live_of_inactive ha, Node.liveBlocks, ha]
    · simp [V.live_of_active ha]
  · have hsnap : (V.entry d n).snap = V.snap d n := rfl
    rw [if_neg hs, hsnap, V.snap_of_active hs]
    change (if _ then _ else if _ then blocksOf (V.live d n) else 0) = _
    simp [hlive, kindOf_eq_dir]

theorem commitCost_entry (d : D) (n : Node) : (V.entry d n).commitCost = n.commitCost := by
  unfold commitCost Node.commitCost
  rw [← V.blocksOf_live d, ← V.blocksOf_snap d]
  rfl

theorem restoreCost_entry (d : D) {n : Node} (hn : n.Valid) :
    (V.entry d n).restoreCost = n.restoreCost := by
  unfold restoreCost Node.restoreCost
  change (if (V.snap d n).any _ then (blocksOf (V.live d n), blocksOf (V.snap d n))
    else (0, 0)) = _
  rw [V.blocksOf_live, V.blocksOf_snap]
  rcases eq_or_ne n.snapshotActive 0 with hs | hs
  · simp [V.snap_of_inactive hs, hs]
  · simp [V.snap_of_active hs, hs, kindOf_eq_file (hn.snapshotType hs)]

/-- **The tree of a sound volume is one the volume can hold.** -/
theorem sized_tree {s : Fs D} (h : s.vol.Sound g []) : (V.tree s).Sized g where
  used_le := by
    have hsum := V.used_tree s
    have := h.length_freeList
    omega
  live_dir := fun i c hc hk => by
    have hb := V.blocksOf_live s.dev (s.vol.nodes i)
    rw [show V.live s.dev (s.vol.nodes i) = some c from hc, blocksOf_some] at hb
    rcases eq_or_ne (s.vol.nodes i).active 0 with ha | ha
    · exact absurd ((V.live_of_inactive ha).symm.trans hc) (by simp)
    · obtain rfl := Option.some.inj ((V.live_of_active ha).symm.trans hc)
      have htype : (s.vol.nodes i).type = nodeDir := kindOf_eq_dir.mp hk
      simp [Node.liveBlocks, htype, nodeDir_ne_nodeFile]
  snap_dir := fun i c hc hk => by
    rcases eq_or_ne (s.vol.nodes i).snapshotActive 0 with ha | ha
    · exact absurd ((V.snap_of_inactive ha).symm.trans hc) (by simp)
    · obtain rfl := Option.some.inj ((V.snap_of_active ha).symm.trans hc)
      have htype : (s.vol.nodes i).snapshotType = nodeDir := kindOf_eq_dir.mp hk
      simp [Node.snapBlocks, htype, nodeDir_ne_nodeFile]
  outside := fun i hi => by
    have hn : s.vol.nodes i = Node.zero := h.within.nodes i (by simpa [mem_slots] using hi)
    exact ⟨V.live_of_inactive (by rw [hn]; rfl), V.snap_of_inactive (by rw [hn]; rfl)⟩

/-- **When a commit on the volume goes through**, on a reliable device. -/
theorem commitSnapshot_ok_iff {s : Fs D} (h : V.Inv s) (hr : V.reliable) :
    (commitSnapshot s).1 = .ok ↔ s.vol.CommitFits g := by
  have hcost : ((slots g).map fun i => ((V.tree s).entry i).commitCost) =
      (slots g).map fun i => (s.vol.nodes i).commitCost :=
    map_congr_left fun i _ => V.commitCost_entry _ _
  rw [(V.commit_of_reliable h hr).1, Tree.commit_ok_iff (V.sized_tree h.sound),
    V.free_tree h.sound, hcost]
  rfl

/-- **When a rollback on the volume goes through**, on a reliable device. -/
theorem rollbackSnapshot_ok_iff {s : Fs D} (h : V.Inv s) (hr : V.reliable) :
    (rollbackSnapshot s).1 = .ok ↔ s.vol.RollbackFits g := by
  have hgive : ((slots g).map fun i => ((V.tree s).entry i).givenUp (V.tree s).committed) =
      (slots g).map fun i => (s.vol.nodes i).givenUp s.vol.committedGeneration :=
    map_congr_left fun i _ => V.givenUp_entry _ _ _
  have hcost : ((slots g).map fun i => ((V.tree s).entry i).restoreCost) =
      (slots g).map fun i => (s.vol.nodes i).restoreCost :=
    map_congr_left fun i _ => V.restoreCost_entry _ (Node.valid_iff.mp (h.sound.valid i))
  rw [(V.rollback_of_reliable h hr).1, Tree.rollback_ok_iff (V.sized_tree h.sound),
    V.free_tree h.sound, hgive, hcost]
  rfl

end View

/-! ### Every run -/

/-- **When a rollback succeeds.** From a freshly formatted volume, after every
list of operations on a device that serves every request, `rollback_snapshot`
answers OK exactly when the restored files fit in the order of their slots. -/
theorem rollback_ok_iff_fits [FaultFreeDevice 512 D] (s : Fs D)
    (hcap : dataStartSector + s.geo.dataSectors ≤ capacity 512 s.dev) (os : List Op) :
    (rollbackSnapshot (runOps (formatted s) os)).1 = .ok ↔
      (runOps (formatted s) os).vol.RollbackFits s.geo :=
  let V := (View.names D s.geo).served
  V.rollbackSnapshot_ok_iff (V.inv_runOps (V.inv_formatted rfl ⟨trivial, hcap⟩) os) trivial

/-- A file that was deleted after the commit fits again. -/
theorem rollback_ok_iff_fits_deleted :
    dataStartSector + 96 ≤ capacity 512 (MemDisk.blank 512 4096) ∧
      (runOps blankFs [.write pathA [1, 2, 3], .commit, .delete pathA]).vol.RollbackFits .v2 :=
  ⟨by decide, (rollback_ok_iff_fits _ (by decide) _).mp (by decide +kernel)⟩

/-- Three files of sixteen blocks and an empty one. With their snapshots they use
all 96 blocks there are. -/
def fillOps : List Op :=
  [.write pathA (replicate 8192 0), .write pathB (replicate 8192 0),
    .write pathC (replicate 8192 0), .write pathD []]

/-- The first file is deleted, and the empty one grows to the blocks that frees. -/
def growOps : List Op :=
  [.delete pathA, .write pathD (replicate 8192 0)]

/-- **A rollback that runs out of blocks** after a commit that succeeded: the
deleted file is restored first, while the last one still holds the blocks it has
grown to. -/
theorem rollback_growOps :
    (commitSnapshot (runOps blankFs fillOps)).1 = .ok ∧
      (rollbackSnapshot (runOps blankFs (fillOps ++ .commit :: growOps))).1 = .io := by
  decide +kernel

end Xaios.MutableFs
