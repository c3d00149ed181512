import Xaios.MutableFs.Handles
import Xaios.MutableFs.Mount

/-!
# What the operations leave alone

No operation on nodes touches the description of the layout at the head of the
volume, the active geometry or the two counters that record how mounts went
(`MutableFs.Fs.frame`). And every operation that succeeds and changes
something ends in `write_metadata` (`MutableFs.written_exec`), so what is on
the device is what that wrote.
-/

namespace Xaios.MutableFs

open Foundation BlockDevice Fs

variable {D : Type} [BlockDevice 512 D]

/-- The fields of the header that describe the layout. -/
def Volume.layout (v : Volume) : (Fin 8 → UInt8) × UInt32 × UInt32 × UInt32 × UInt32 × UInt64 ×
    UInt64 × UInt64 × UInt64 × UInt64 :=
  ⟨v.magic, v.version, v.sectorSize, v.metadataSectors, v.maxNodes, v.startSector,
    v.journalHeaderSector, v.journalDataSector, v.dataStartSector, v.dataSectors⟩

/-- What no operation on nodes touches. -/
def Fs.frame (s : Fs D) := (s.vol.layout, s.geo, s.bootLoadCount, s.formatCount)

namespace Volume

variable (v : Volume) (g : Geometry)

@[simp] theorem layout_setNode (i : Fin 64) (n : Node) :
    (v.setNode i n).layout = v.layout := rfl

@[simp] theorem layout_setBits (x : UInt8) (bs : List UInt16) :
    (v.setBits x bs).layout = v.layout := by
  rw [setBits_eq]
  rfl

@[simp] theorem layout_freeBlocks (bs : List UInt16) : (v.freeBlocks g bs).layout = v.layout := by
  rw [freeBlocks_eq]
  rfl

/-- Whether a list of blocks is given back or not. -/
theorem layout_ite (bs : List UInt16) (p : Prop) [Decidable p] :
    (if p then v.freeBlocks g bs else v).layout = v.layout := by
  split
  · exact v.layout_freeBlocks g bs
  · rfl

@[simp] theorem layout_allocateBlocks (count : ℕ) :
    (v.allocateBlocks g count).2.1.layout = v.layout := by
  rcases Nat.lt_or_ge g.fileMaxBlocks count with h | h
  · rw [allocateBlocks, if_pos h]
  · rw [allocateBlocks_eq v g h]
    split
    · exact v.layout_setBits _ _
    · rfl

end Volume

omit [BlockDevice 512 D] in
/-- The frame is a matter of the layout when the rest is the same. -/
theorem Fs.frame_congr {s t : Fs D} (hv : t.vol.layout = s.vol.layout) (hg : t.geo = s.geo)
    (hb : t.bootLoadCount = s.bootLoadCount) (hf : t.formatCount = s.formatCount) :
    t.frame = s.frame := by
  rw [frame, frame, hv, hg, hb, hf]

variable (s : Fs D)

@[simp] theorem frame_writeMetadata : (writeMetadata s).2.frame = s.frame := rfl

variable (i : Fin 64)

theorem frame_putNode (n : Node) : (s.putNode i n).2.frame = s.frame := rfl

/-! ### The live operations -/

variable (path : CString)

theorem frame_createDir : (createDir s path).2.frame = s.frame := by
  dsimp only [createDir]
  split
  · rfl
  split
  · split
    · rfl
    · exact frame_putNode s _ _
  · split
    · exact frame_putNode s _ _
    · rfl

theorem frame_putFile (path : CString) (data : List UInt8) (blocks : List UInt16) :
    (s.putFile i path data blocks).2.frame = s.frame :=
  (frame_putNode _ i _).trans (frame_congr (Volume.layout_ite _ _ _ _) rfl rfl rfl)

theorem frame_writeFile (data : List UInt8) :
    (writeFile s path data).2.frame = s.frame := by
  unfold writeFile
  split
  · rfl
  have halloc := s.vol.layout_allocateBlocks s.geo (blockCountForSize data.length)
  generalize s.vol.allocateBlocks s.geo (blockCountForSize data.length) = a at halloc ⊢
  dsimp only
  -- with the blocks taken, and with the blocks given back again
  have htaken : ∀ d : D, frame { s with vol := a.2.1, dev := d } = s.frame :=
    fun d => frame_congr halloc rfl rfl rfl
  have hback : ∀ d : D, frame { s with vol := a.2.1.freeBlocks s.geo a.2.2, dev := d } = s.frame :=
    fun d => frame_congr ((Volume.layout_freeBlocks _ _ _).trans halloc) rfl rfl rfl
  split
  · exact htaken _
  split
  · exact hback _
  split
  · split
    · exact hback _
    · exact (frame_putFile _ _ _ _ _).trans (htaken _)
  · split
    · exact (frame_putFile _ _ _ _ _).trans (htaken _)
    · exact hback _

theorem frame_deleteNode : (deleteNode s path).2.frame = s.frame := by
  dsimp only [deleteNode]
  split
  · rfl
  split
  · rfl
  split
  · rfl
  split
  · rfl
  · exact (frame_putNode _ _ _).trans (frame_congr (Volume.layout_ite _ _ _ _) rfl rfl rfl)

theorem frame_renameNode (oldPath newPath : CString) :
    (renameNode s oldPath newPath).2.frame = s.frame := by
  dsimp only [renameNode]
  split
  · rfl
  split
  · rfl
  split
  · rfl
  split
  · rfl
  split
  · rfl
  · exact frame_putNode _ _ _

/-! ### The snapshot operations -/

theorem frame_copyBlocks (source : List UInt16) (count size : ℕ) :
    (copyBlocks s source count size).2.1.frame = s.frame := by
  dsimp only [copyBlocks]
  split
  · rfl
  split
  · exact frame_congr (by simp) rfl rfl rfl
  split
  · exact frame_congr (by simp) rfl rfl rfl
  · exact frame_congr (by simp) rfl rfl rfl

omit [BlockDevice 512 D] in
/-- The blocks of a version are freed. -/
theorem frame_opened (bs : List UInt16) (p : Prop) [Decidable p] (n : Node) :
    Fs.frame { s with vol := (if p then s.vol.freeBlocks s.geo bs else s.vol).setNode i n } =
      s.frame :=
  frame_congr (Volume.layout_ite _ _ _ _) rfl rfl rfl

/-- The blocks of a version are copied. -/
theorem frame_copied (p : Prop) [Decidable p] (bs : List UInt16) (count size : ℕ) (n : Node) :
    (let c := copyBlocks s bs count size
    if p then
      if c.1 ≠ .ok then (c.1, c.2.1)
      else (.ok, { c.2.1 with vol := c.2.1.vol.setNode i n })
    else (.ok, s)).2.frame = s.frame := by
  have hcopy := frame_copyBlocks s bs count size
  dsimp only
  split_ifs
  · exact hcopy
  · exact (frame_congr rfl rfl rfl rfl).trans hcopy
  · rfl

theorem frame_commitSlot (s : Fs D) : (commitSlot i s).2.frame = s.frame := by
  by_cases ha : (s.vol.nodes i).active = 0
  · rw [commitSlot, if_pos ha]
    exact frame_opened ..
  · rw [commitSlot, if_neg ha]
    exact (frame_copied ..).trans (frame_opened ..)

theorem frame_commitSnapshot : (commitSnapshot s).2.frame = s.frame := by
  dsimp only [commitSnapshot]
  split
  · rfl
  have hloop : (forEach .ok commitSlot (slots s.geo) s).2.frame = s.frame :=
    forEach_induct
      (fun i _ t ht => (frame_commitSlot i t).trans ht) rfl
  split
  · exact hloop
  · exact (frame_writeMetadata _).trans ((frame_congr rfl rfl rfl rfl).trans hloop)

theorem frame_restoreSnapshotNode (s : Fs D) : (restoreSnapshotNode i s).2.frame = s.frame := by
  by_cases hs : (s.vol.nodes i).snapshotActive = 0
  · rw [restoreSnapshotNode, if_pos hs]
  · rw [restoreSnapshotNode, if_neg hs]
    exact (frame_copied ..).trans (frame_opened ..)

theorem frame_restorePass (type : UInt32) (i : Fin 64) (s : Fs D) :
    (restorePass type i s).2.frame = s.frame := by
  dsimp only [restorePass]
  split
  · rfl
  split
  · exact frame_restoreSnapshotNode i s
  · rfl

theorem Volume.layout_discardSlot (g : Geometry) (v : Volume) (i : Fin 64) :
    (discardSlot g v i).layout = v.layout := by
  dsimp only [discardSlot]
  split
  · rw [layout_setNode, layout_ite]
  · rfl

theorem frame_rollbackSnapshot : (rollbackSnapshot s).2.frame = s.frame := by
  dsimp only [rollbackSnapshot]
  split
  · rfl
  have hkept : ∀ (is : List (Fin 64)) (v : Volume),
      (is.foldl (discardSlot s.geo) v).layout = v.layout := by
    intro is
    induction is with
    | nil => exact fun _ => rfl
    | cons i is ih => exact fun v => (ih _).trans (v.layout_discardSlot s.geo i)
  have hpass : ∀ (type : UInt32) (t : Fs D),
      (forEach .ok (restorePass type) (slots s.geo) t).2.frame = t.frame := fun type t =>
    forEach_induct
      (fun i _ u hu => (frame_restorePass type i u).trans hu) rfl
  have hdirs := (hpass nodeDir _).trans
    (frame_congr (t := { s with vol := (slots s.geo).foldl (discardSlot s.geo) s.vol })
      (hkept _ _) rfl rfl rfl)
  split
  · exact hdirs
  have hfiles := (hpass nodeFile _).trans hdirs
  split
  · exact hfiles
  · exact (frame_writeMetadata _).trans ((frame_congr rfl rfl rfl rfl).trans hfiles)

/-- **No operation touches the frame.** -/
theorem frame_exec (o : Op) : (o.exec s).2.frame = s.frame := by
  cases o with
  | mkdir path => exact frame_createDir s path
  | write path data => exact frame_writeFile s path data
  | delete path => exact frame_deleteNode s path
  | rename oldPath newPath => exact frame_renameNode s oldPath newPath
  | commit => exact frame_commitSnapshot s
  | rollback => exact frame_rollbackSnapshot s

/-! ### What success means -/

/-- The globals are as they were, or as a metadata write left them. -/
def Written (s : Fs D) (r : Status × Fs D) : Prop := r.2 = s ∨ ∃ t, r = writeMetadata t

theorem written_createDir : Written s (createDir s path) := by
  dsimp only [createDir]
  split
  · exact .inl rfl
  split
  · split
    · exact .inl rfl
    · exact .inr ⟨_, rfl⟩
  · split
    · exact .inr ⟨_, rfl⟩
    · exact .inl rfl

theorem written_deleteNode : Written s (deleteNode s path) := by
  dsimp only [deleteNode]
  split
  · exact .inl rfl
  split
  · exact .inl rfl
  split
  · exact .inl rfl
  split
  · exact .inl rfl
  · exact .inr ⟨_, rfl⟩

theorem written_renameNode (oldPath newPath : CString) :
    Written s (renameNode s oldPath newPath) := by
  dsimp only [renameNode]
  split
  · exact .inl rfl
  split
  · exact .inl rfl
  split
  · exact .inl rfl
  split
  · exact .inl rfl
  split
  · exact .inl rfl
  · exact .inr ⟨_, rfl⟩

theorem written_commitSnapshot {s : Fs D} (h : (commitSnapshot s).1 = .ok) :
    Written s (commitSnapshot s) := by
  dsimp only [commitSnapshot] at h ⊢
  split at h
  · cases h
  rename_i hw
  rw [if_neg hw]
  split at h
  · rename_i herr
    exact absurd h herr
  · rename_i hok
    rw [if_neg hok]
    exact .inr ⟨_, rfl⟩

theorem written_rollbackSnapshot {s : Fs D} (h : (rollbackSnapshot s).1 = .ok) :
    Written s (rollbackSnapshot s) := by
  dsimp only [rollbackSnapshot] at h ⊢
  split at h
  · cases h
  rename_i hw
  rw [if_neg hw]
  split at h
  · rename_i herr
    exact absurd h herr
  rename_i hdirs
  rw [if_neg hdirs]
  split at h
  · rename_i herr
    exact absurd h herr
  · rename_i hfiles
    rw [if_neg hfiles]
    exact .inr ⟨_, rfl⟩

/-- **An operation that succeeds has changed nothing or written the metadata.** -/
theorem written_exec {s : Fs D} {o : Op} (h : (o.exec s).1 = .ok) : Written s (o.exec s) := by
  cases o with
  | mkdir path => exact written_createDir s path
  | write path data =>
    obtain ⟨-, -, -, v, bs, i, -, -, -, heq⟩ := writeFile_of_ok h
    exact .inr ⟨_, heq⟩
  | delete path => exact written_deleteNode s path
  | rename oldPath newPath => exact written_renameNode s oldPath newPath
  | commit => exact written_commitSnapshot h
  | rollback => exact written_rollbackSnapshot h

/-! ### The rest of a mount -/

theorem frame_clearJournal : (clearJournal s).2.frame = s.frame := by
  dsimp only [clearJournal]
  split <;> rfl

theorem frame_replayJournal : (replayJournal s).2.frame = s.frame := by
  dsimp only [replayJournal]
  split
  · rfl
  split
  · rfl
  split
  · exact (frame_clearJournal _).trans rfl
  split
  · rfl
  split
  · exact (frame_clearJournal _).trans rfl
  split
  · exact (frame_writeFile _ _ _).trans rfl
  · exact (frame_clearJournal _).trans ((frame_writeFile _ _ _).trans rfl)

theorem frame_mountRoot : (mountRoot s).2.frame = s.frame := by
  dsimp only [mountRoot]
  split
  · exact frame_createDir s rootPath
  · split
    · exact frame_restoreSnapshotNode _ s
    · rfl

end Xaios.MutableFs
