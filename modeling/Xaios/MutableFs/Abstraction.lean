import Xaios.MutableFs.View

/-!
# The tree of a volume

The abstraction from the globals of `mutable_fs.c` to a tree. A node is an entry
whose versions are there when their flags are set; the contents are what the view
reads at the blocks of the version.

The questions the operations ask have the same answers on both sides. The number
of free blocks is the one on the tree because the invariant says who owns the
others.
-/

namespace Xaios.MutableFs

open Foundation BlockDevice MutableFs.Tree

variable {D β : Type}

/-- The kind a type word stands for. -/
def kindOf (type : UInt32) : Kind := if type = nodeDir then .dir else .file

theorem kindOf_eq_dir {type : UInt32} : kindOf type = .dir ↔ type = nodeDir := by
  unfold kindOf
  split <;> simp_all

theorem nodeDir_ne_nodeFile : nodeDir ≠ nodeFile := by decide

/-- For the two types that occur, what is not a file is a directory. -/
theorem kindOf_eq_file {type : UInt32} (h : type = nodeDir ∨ type = nodeFile) :
    kindOf type = .file ↔ type = nodeFile := by
  rcases h with rfl | rfl <;> decide

namespace View

variable [BlockDevice 512 D] [Inhabited β] {g : Geometry} (V : View D g β)

/-! ### The abstraction -/

/-- The live version of a node. -/
def live (d : D) (n : Node) : Option (Version β) :=
  if n.active ≠ 0 then
    some ⟨kindOf n.type, n.size, n.contentHash, n.generation, n.liveBlocks.length,
      V.file d n.liveBlocks n.size.toNat⟩
  else none

/-- The snapshot version of a node. -/
def snap (d : D) (n : Node) : Option (Version β) :=
  if n.snapshotActive ≠ 0 then
    some ⟨kindOf n.snapshotType, n.snapshotSize, n.snapshotHash, n.snapshotGeneration,
      n.snapBlocks.length, V.file d n.snapBlocks n.snapshotSize.toNat⟩
  else none

/-- The entry of a node. -/
def entry (d : D) (n : Node) : Entry β := ⟨n.name, V.live d n, V.snap d n⟩

/-- **The tree of the globals.** -/
def tree (s : Fs D) : Tree β where
  entry := fun i => V.entry s.dev (s.vol.nodes i)
  generation := s.vol.generation
  committed := s.vol.committedGeneration

theorem isSome_live (d : D) (n : Node) : (V.live d n).isSome = (n.active != 0) := by
  unfold live
  by_cases h : n.active = 0 <;> simp [h]

theorem isSome_snap (d : D) (n : Node) : (V.snap d n).isSome = (n.snapshotActive != 0) := by
  unfold snap
  by_cases h : n.snapshotActive = 0 <;> simp [h]

variable {d : D} {n : Node}

theorem live_of_active (h : n.active ≠ 0) :
    V.live d n = some ⟨kindOf n.type, n.size, n.contentHash, n.generation, n.liveBlocks.length,
      V.file d n.liveBlocks n.size.toNat⟩ := if_pos h

theorem live_of_inactive (h : n.active = 0) : V.live d n = none :=
  if_neg fun h' => h' h

theorem snap_of_active (h : n.snapshotActive ≠ 0) :
    V.snap d n = some ⟨kindOf n.snapshotType, n.snapshotSize, n.snapshotHash,
      n.snapshotGeneration, n.snapBlocks.length, V.file d n.snapBlocks n.snapshotSize.toNat⟩ :=
  if_pos h

theorem snap_of_inactive (h : n.snapshotActive = 0) : V.snap d n = none :=
  if_neg fun h' => h' h

theorem blocksOf_live (d : D) (n : Node) : Version.blocksOf (V.live d n) = n.liveBlocks.length := by
  unfold live Node.liveBlocks
  by_cases h : n.active = 0 <;> simp [h]

theorem blocksOf_snap (d : D) (n : Node) : Version.blocksOf (V.snap d n) = n.snapBlocks.length := by
  unfold snap Node.snapBlocks
  by_cases h : n.snapshotActive = 0 <;> simp [h]

theorem blocks_entry (d : D) (n : Node) : (V.entry d n).blocks = n.owned.length := by
  rw [Entry.blocks, Node.owned, List.length_append, ← V.blocksOf_live d, ← V.blocksOf_snap d]
  rfl

/-! ### Questions -/

variable (s : Fs D)

theorem find_tree (path : CString) (b : Bool) :
    (V.tree s).find g path b = s.vol.findNode g path b := by
  simp only [find, Volume.findNode, tree, Entry.isMatch, Node.isMatch, entry, isSome_live,
    isSome_snap]

theorem findFree_tree : (V.tree s).findFree g = s.vol.findFreeNode g := by
  have h : ∀ (d : D) (n : Node), ((V.live d n).isNone && (V.snap d n).isNone) =
      (n.active == 0 && n.snapshotActive == 0) := fun d n => by
    rw [← Option.not_isSome, ← Option.not_isSome, isSome_live, isSome_snap]
    simp only [bne, Bool.not_not]
  simp only [findFree, Volume.findFreeNode, tree, entry, h]

theorem any_kind_live (d : D) (n : Node) :
    ((V.live d n).any fun c => c.kind = .dir) = (n.active != 0 && n.type == nodeDir) := by
  unfold live
  by_cases h : n.active = 0
  · simp [h]
  · have hd : decide (kindOf n.type = .dir) = (n.type == nodeDir) := by
      rw [beq_eq_decide]
      exact decide_eq_decide.mpr kindOf_eq_dir
    simp [h, hd]

theorem parentExistsFor_tree (path : CString) :
    (V.tree s).parentExistsFor g path = s.vol.parentExistsFor g path := by
  unfold parentExistsFor Volume.parentExistsFor
  rw [V.find_tree]
  split
  · rfl
  · cases s.vol.findNode g (parentPathOf path) false with
    | none => rfl
    | some i => exact V.any_kind_live _ _

theorem hasActiveChildren_tree (path : CString) :
    (V.tree s).hasActiveChildren g path = s.vol.hasActiveChildren g path := by
  simp only [hasActiveChildren, Volume.hasActiveChildren, tree, entry, isSome_live]

theorem used_tree (s : Fs D) : (V.tree s).used = ∑ i, (s.vol.nodes i).owned.length := by
  rw [used, ← Fin.sum_univ_def]
  exact Finset.sum_congr rfl fun i _ => V.blocks_entry _ _

/-- **The tree knows how many blocks are free.** -/
theorem free_tree {s : Fs D} {pending : List UInt16} (h : s.vol.Sound g pending) :
    (V.tree s).free g = (s.vol.freeList g).length + pending.length := by
  have := h.length_freeList
  rw [free, used_tree]
  omega

/-- What `find_node` finds is in the table and matches. -/
theorem of_findNode {v : Volume} {path : CString} {b : Bool} {i : Fin 64}
    (h : v.findNode g path b = some i) :
    i.val < g.maxNodes ∧ (v.nodes i).isMatch path b = true := by
  have hm := List.find?_some h
  exact ⟨mem_slots.mp (List.mem_of_find?_eq_some h), hm⟩

/-- What `find_free_node` finds is in the table and unused. -/
theorem of_findFreeNode {v : Volume} {i : Fin 64} (h : v.findFreeNode g = some i) :
    i.val < g.maxNodes ∧ (v.nodes i).active = 0 ∧ (v.nodes i).snapshotActive = 0 := by
  have hm := List.find?_some h
  simp only [Bool.and_eq_true, beq_iff_eq] at hm
  exact ⟨mem_slots.mp (List.mem_of_find?_eq_some h), hm⟩

end View

end Xaios.MutableFs
