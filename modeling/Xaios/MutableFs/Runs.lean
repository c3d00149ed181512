import Xaios.MutableFs.Handles
import Xaios.MutableFs.SnapshotRefinement

/-!
# Runs

From a freshly formatted volume the invariant holds after every list of calls,
whatever they answer, on every device (`View.inv_runCalls`). The tree of the
volume follows the tree operations: one for each operation, and at most two
writes for each call that works on handles.

The first use is `MutableFs.bitmap_iff_owned`: the bitmap marks exactly the
blocks of the files and their snapshots, each of them once.
-/

namespace Xaios.MutableFs

open Foundation BlockDevice List Volume

variable {D β : Type} [BlockDevice 512 D] [Inhabited β] {g : Geometry}

/-! ### The fresh volume -/

theorem sound_freshVolume (g : Geometry) : (freshVolume g).Sound g [] where
  perm := by
    have hbit : ∀ b, (freshVolume g).bit b = 0 := fun b => by
      unfold bit freshVolume
      split <;> rfl
    have hused : (freshVolume g).usedList g = [] := by
      simp [usedList, hbit]
    have howned : (freshVolume g).owned = [] := by
      rw [owned, eq_nil_iff_forall_not_mem]
      intro b hb
      obtain ⟨i, hi⟩ := mem_total.mp hb
      change b ∈ Node.zero.owned at hi
      simp [Node.owned, Node.liveBlocks, Node.snapBlocks, Node.zero] at hi
    rw [hused, howned]
    exact Perm.refl _
  within := ⟨fun _ _ => rfl, fun _ _ => rfl⟩
  valid := fun _ => Node.valid_iff.mpr ⟨fun h => absurd rfl (h.elim id id), fun h => absurd rfl h,
    fun h => absurd rfl h, Nat.zero_le _, Nat.zero_le _, Nat.zero_le _, Nat.zero_le _⟩

/-- What `format_volume` leaves of the volume: everything but the checksum is set
up, whatever the device answers. -/
theorem formatVolume_vol (s : Fs D) :
    (formatVolume s).2.geo = s.geo ∧
      ∃ c, (formatVolume s).2.vol = { freshVolume s.geo with checksum := c } := by
  have hclear : ∀ t : Fs D, (clearJournal t).2.vol = t.vol ∧ (clearJournal t).2.geo = t.geo := by
    intro t
    dsimp only [clearJournal]
    split <;> exact ⟨rfl, rfl⟩
  obtain ⟨hv, hg⟩ := hclear { s with vol := freshVolume s.geo, formatCount := s.formatCount + 1 }
  dsimp only [formatVolume]
  generalize clearJournal { s with vol := freshVolume s.geo, formatCount := s.formatCount + 1 } = r
    at hv hg ⊢
  split
  · refine ⟨hg, (writeMetadata r.2).2.vol.checksum, ?_⟩
    change { r.2.vol with checksum := (writeMetadata r.2).2.vol.checksum } = _
    generalize (writeMetadata r.2).2.vol.checksum = c
    rw [hv]
  · exact ⟨hg, 0, hv⟩

namespace View

variable (V : View D g β) {s : Fs D}

theorem good_formatVolume (h : V.good s.dev) : V.good (formatVolume s).2.dev := by
  have hclear : ∀ t : Fs D, V.good t.dev → V.good (clearJournal t).2.dev := by
    intro t ht
    dsimp only [clearJournal]
    split
    · exact V.good_write _ _ (V.good_write _ _ ht)
    · exact V.good_write _ _ ht
  dsimp only [formatVolume]
  split
  · exact V.good_writeRaw _ _ _ (hclear _ h)
  · exact hclear _ h

/-- **The invariant holds of a freshly formatted volume.** -/
theorem inv_formatted (hgeo : s.geo = g) (hgood : V.good s.dev) : V.Inv (formatted s) := by
  obtain ⟨hg, c, hv⟩ := formatVolume_vol s
  subst hgeo
  refine ⟨hg, (by decide : (true && (mountReadWrite &&& mountReadWrite) != 0) = true), ?_,
    V.good_formatVolume hgood⟩
  change (formatVolume s).2.vol.Sound s.geo []
  rw [hv]
  exact (sound_freshVolume s.geo).congr rfl rfl

theorem tree_formatted (s : Fs D) : V.tree (formatted s) = Tree.fresh β := by
  obtain ⟨-, c, hv⟩ := formatVolume_vol s
  have hvol : (formatted s).vol = { freshVolume s.geo with checksum := c } := hv
  refine Tree.ext (funext fun i => ?_) (by simp [tree, hvol, freshVolume, Tree.fresh])
    (by simp [tree, hvol, freshVolume, Tree.fresh])
  have hn : (formatted s).vol.nodes i = Node.zero := by rw [hvol]; rfl
  change V.entry _ ((formatted s).vol.nodes i) = _
  rw [hn, entry, V.live_of_inactive rfl, V.snap_of_inactive rfl]
  exact congrArg (fun n => (⟨n, none, none⟩ : Entry β)) cstr_zero

/-! ### Operations -/

/-- The tree operation of an operation. -/
def op : Op → TreeOp β
  | .mkdir path => .mkdir path
  | .write path data => .write path data.length (fnv1a64 data) (V.ofBytes data)
  | .delete path => .delete path
  | .rename oldPath newPath => .rename oldPath newPath
  | .commit => .commit
  | .rollback => .rollback

section

variable (h : V.Inv s)

include h

/-- **Every operation refines its tree operation.** -/
theorem exec_refines (o : Op) : V.Refines (o.exec s) fun f => (V.op o).exec g f (V.tree s) := by
  cases o with
  | mkdir path => exact V.createDir_refines h path
  | write path data => exact V.writeFile_refines h path data
  | delete path => exact V.deleteNode_refines h path
  | rename oldPath newPath => exact V.renameNode_refines h oldPath newPath
  | commit => exact V.commitSnapshot_refines h
  | rollback => exact V.rollbackSnapshot_refines h

theorem inv_runOps (os : List Op) : V.Inv (runOps s os) := by
  induction os generalizing s with
  | nil => exact h
  | cons o os ih => exact ih (V.exec_refines h o).1

/-- The tree after operations on a device without faults. -/
def runTree (g : Geometry) (t : Tree β) (os : List (TreeOp β)) : Tree β :=
  os.foldl (fun t o => (o.exec g .none t).2) t

/-- **On a reliable device the tree is computed by the tree operations alone.** -/
theorem exec_of_reliable (hr : V.reliable) (o : Op) :
    ((o.exec s).1, V.tree (o.exec s).2) = (V.op o).exec g .none (V.tree s) := by
  obtain ⟨-, f, hf, heq⟩ := V.exec_refines h o
  rw [heq, hf hr]

theorem commit_of_reliable (hr : V.reliable) :
    (commitSnapshot s).1 = ((V.tree s).commit g .none).1 ∧
      V.tree (commitSnapshot s).2 = ((V.tree s).commit g .none).2 :=
  Prod.ext_iff.mp (V.exec_of_reliable h hr .commit)

theorem rollback_of_reliable (hr : V.reliable) :
    (rollbackSnapshot s).1 = ((V.tree s).rollback g .none).1 ∧
      V.tree (rollbackSnapshot s).2 = ((V.tree s).rollback g .none).2 :=
  Prod.ext_iff.mp (V.exec_of_reliable h hr .rollback)

/-- **The tree of the volume follows the tree operations** in every run, on a device that is
reliable. -/
theorem tree_runOps (hr : V.reliable) (os : List Op) :
    V.tree (runOps s os) = runTree g (V.tree s) (os.map V.op) := by
  induction os generalizing s with
  | nil => rfl
  | cons o os ih =>
    have hstep : V.tree (o.exec s).2 = ((V.op o).exec g .none (V.tree s)).2 :=
      congrArg Prod.snd (V.exec_of_reliable h hr o)
    change V.tree (runOps (o.exec s).2 os) = _
    rw [ih (V.exec_refines h o).1, hstep]
    rfl

/-! ### Calls -/

/-- A tree and the same tree after at most one write. -/
def Wrote (t t' : Tree β) : Prop :=
  t' = t ∨ ∃ f path size hash contents, (V.reliable → f = .none) ∧
    t' = (t.write g f path size hash contents).2

/-- `read_file` changes the device, and nothing that can be seen of it. -/
theorem readFile_spec (path : CString) (buffer : List UInt8) :
    V.Inv (readFile s path buffer).2 ∧ V.tree (readFile s path buffer).2 = V.tree s := by
  unfold readFile
  split
  · exact ⟨h, rfl⟩
  · cases s.vol.findNode s.geo path false with
    | none => exact ⟨h, rfl⟩
    | some i =>
      have hread := V.inv_read h (s.vol.nodes i).blockList (s.vol.nodes i).size.toNat buffer
      have htree := V.tree_read s (s.vol.nodes i).blockList (s.vol.nodes i).size.toNat buffer
      dsimp only
      split
      · exact ⟨h, rfl⟩
      · split
        · exact ⟨hread, htree⟩
        · split <;> exact ⟨hread, htree⟩

/-- `write_file` is one write. -/
theorem writeFile_wrote (path : CString) (data : List UInt8) :
    V.Inv (writeFile s path data).2 ∧ V.Wrote (V.tree s) (V.tree (writeFile s path data).2) := by
  obtain ⟨hinv, f, hf, heq⟩ := V.writeFile_refines h path data
  exact ⟨hinv, .inr ⟨f, path, _, _, _, hf, congrArg Prod.snd heq⟩⟩

/-- `mutable_fs_open` writes at most twice. -/
theorem openFile_spec (path : CString) (flags : UInt32) :
    V.Inv (openFile s path flags).2 ∧
      ∃ t, V.Wrote (V.tree s) t ∧ V.Wrote t (V.tree (openFile s path flags).2) := by
  have hwrite : ∀ {s : Fs D}, V.Inv s → ∀ p : Prop, ∀ [Decidable p],
      V.Inv (if p then writeFile s path [] else (.ok, s)).2 ∧
        V.Wrote (V.tree s) (V.tree (if p then writeFile s path [] else (.ok, s)).2) := by
    intro s h p _
    split
    · exact V.writeFile_wrote h path []
    · exact ⟨h, .inl rfl⟩
  have hwrites : V.Inv (s.openWrites path flags).2 ∧
      ∃ t, V.Wrote (V.tree s) t ∧ V.Wrote t (V.tree (s.openWrites path flags).2) := by
    obtain ⟨hinv, hw⟩ :=
      hwrite h (flags &&& openCreate ≠ 0 ∧ s.vol.findNode s.geo path false = none)
    rw [Fs.openWrites]
    split
    · exact ⟨hinv, _, hw, .inl rfl⟩
    · exact ⟨(hwrite hinv _).1, _, hw, (hwrite hinv _).2⟩
  obtain ⟨hinv, hw⟩ := hwrites
  rw [openFile_eq]
  generalize s.openWrites path flags = c at hinv hw ⊢
  split
  · exact ⟨h, V.tree s, .inl rfl, .inl rfl⟩
  split
  · exact ⟨hinv, hw⟩
  split
  · exact ⟨hinv, hw⟩
  · exact ⟨⟨hinv.geo, hinv.writable, hinv.sound, hinv.good⟩, hw⟩

/-- `mutable_fs_read_fd` changes the device and a cursor. -/
theorem readFd_spec (fd size : ℕ) :
    V.Inv (readFd s fd size).2.2 ∧ V.tree (readFd s fd size).2.2 = V.tree s := by
  unfold readFd
  cases handleForFd s fd with
  | none => exact ⟨h, rfl⟩
  | some i =>
    obtain ⟨hinv, htree⟩ := V.readFile_spec h (s.openFiles i).path (replicate 8192 0)
    dsimp only
    split
    · exact ⟨h, rfl⟩
    · generalize readFile s (s.openFiles i).path (replicate 8192 0) = r at hinv htree ⊢
      split
      · exact ⟨hinv, htree⟩
      · split
        · exact ⟨hinv, htree⟩
        · exact ⟨⟨hinv.geo, hinv.writable, hinv.sound, hinv.good⟩, htree⟩

/-- `mutable_fs_write_fd` writes at most once. -/
theorem writeFd_spec (fd : ℕ) (buffer : List UInt8) :
    V.Inv (writeFd s fd buffer).2 ∧ V.Wrote (V.tree s) (V.tree (writeFd s fd buffer).2) := by
  unfold writeFd
  cases handleForFd s fd with
  | none => exact ⟨h, .inl rfl⟩
  | some i =>
    dsimp only
    split
    · exact ⟨h, .inl rfl⟩
    have hr : ∀ p : Prop, ∀ [Decidable p],
        let r := if p then readFile s (s.openFiles i).path (replicate 8192 0)
          else (⟨.ok, replicate 8192 0, some 0⟩, s)
        V.Inv r.2 ∧ V.tree r.2 = V.tree s := by
      intro p _ r
      dsimp only [r]
      split
      · exact V.readFile_spec h _ _
      · exact ⟨h, rfl⟩
    obtain ⟨hinv, htree⟩ := hr ((s.vol.findNode s.geo (s.openFiles i).path false).isSome = true)
    generalize (if (s.vol.findNode s.geo (s.openFiles i).path false).isSome = true then
      readFile s (s.openFiles i).path (replicate 8192 0)
      else (⟨.ok, replicate 8192 0, some 0⟩, s)) = r at hinv htree ⊢
    split
    · exact ⟨hinv, .inl htree⟩
    obtain ⟨hinv', hw⟩ := V.writeFile_wrote hinv (s.openFiles i).path
      ((overlay r.1.buffer (s.openFiles i).cursor buffer).take
        (max ((s.openFiles i).cursor + buffer.length) (r.1.outSize.getD 0)))
    rw [htree] at hw
    split
    · exact ⟨hinv', hw⟩
    · exact ⟨⟨hinv'.geo, hinv'.writable, hinv'.sound, hinv'.good⟩, hw⟩

/-- **What a call does**: it is an operation, or it writes at most twice. -/
theorem call_spec (c : Call) :
    V.Inv (c.exec s) ∧ ((∃ o, c = .op o) ∨
      ∃ t, V.Wrote (V.tree s) t ∧ V.Wrote t (V.tree (c.exec s))) := by
  cases c with
  | op o => exact ⟨(V.exec_refines h o).1, .inl ⟨o, rfl⟩⟩
  | read path buffer =>
    obtain ⟨hinv, htree⟩ := V.readFile_spec h path buffer
    exact ⟨hinv, .inr ⟨V.tree s, .inl rfl, .inl htree⟩⟩
  | openFile path flags =>
    obtain ⟨hinv, hw⟩ := V.openFile_spec h path flags
    exact ⟨hinv, .inr hw⟩
  | readFd fd size =>
    obtain ⟨hinv, htree⟩ := V.readFd_spec h fd size
    exact ⟨hinv, .inr ⟨V.tree s, .inl rfl, .inl htree⟩⟩
  | writeFd fd buffer =>
    obtain ⟨hinv, hw⟩ := V.writeFd_spec h fd buffer
    exact ⟨hinv, .inr ⟨V.tree s, .inl rfl, hw⟩⟩
  | close fd =>
    refine ⟨?_, .inr ⟨V.tree s, .inl rfl, .inl ?_⟩⟩ <;> dsimp only [Call.exec, closeFile] <;>
      cases handleForFd s fd
    · exact h
    · exact ⟨h.geo, h.writable, h.sound, h.good⟩
    · rfl
    · rfl

/-- **The invariant holds along every run.** -/
theorem inv_runCalls (cs : List Call) : V.Inv (runCalls s cs) := by
  induction cs generalizing s with
  | nil => exact h
  | cons c cs ih => exact ih (V.call_spec h c).1

end

end View

/-! ### A blank disk -/

/-- A freshly formatted volume on a disk in memory. -/
def blankFs : Fs (MemDisk 512) := formatted (Fs.boot (MemDisk.blank 512 4096))

/-- A directory and a file in a snapshot, the file renamed, and a rollback. -/
def renameOps : List Op :=
  [.mkdir pathA, .write pathB [1, 2, 3], .commit, .rename pathB pathC, .rollback]

theorem tree_runOps_rename :
    let V := (View.bytes (MemDisk 512)).served
    V.tree (runOps blankFs renameOps) =
      View.runTree .v2 (V.tree blankFs) (renameOps.map V.op) :=
  View.tree_runOps _ ((View.bytes _).served.inv_formatted rfl ⟨trivial, by decide⟩) trivial
    renameOps

/-! ### Block ownership -/

/-- **Every block belongs to one file version or to none, and the bitmap says
which.** From a freshly formatted volume, after every run of calls on every
device, an entry of the bitmap is set exactly when the block is in the list of an
active file node or in the snapshot list of a snapshot-active one, and no block
occurs twice in all those lists. -/
theorem bitmap_iff_owned (s : Fs D) (cs : List Call) :
    let v := (runCalls (formatted s) cs).vol
    (∀ b : Fin 256, v.blockBitmap b ≠ 0 ↔ ∃ i : Fin 64,
      (v.nodes i).active ≠ 0 ∧ (v.nodes i).type = nodeFile ∧
          UInt16.ofNat b ∈ (v.nodes i).blockList ∨
        (v.nodes i).snapshotActive ≠ 0 ∧ (v.nodes i).snapshotType = nodeFile ∧
          UInt16.ofNat b ∈ (v.nodes i).snapshotBlockList) ∧
      v.owned.Nodup := by
  intro v
  have hinv := (View.names D s.geo).inv_runCalls
    ((View.names D s.geo).inv_formatted rfl trivial) cs
  have hs : v.Sound s.geo [] := hinv.sound
  refine ⟨fun b => ?_, by simpa using hs.nodup⟩
  have hb : (UInt16.ofNat b).toNat = b := by
    simpa using Nat.mod_eq_of_lt (by omega : b.val < 65536)
  have hbit : v.bit b = v.blockBitmap b := by simp [bit]
  have hused : v.blockBitmap b ≠ 0 ↔ UInt16.ofNat b ∈ v.usedList s.geo := by
    rw [mem_usedList, hb, hbit]
    refine ⟨fun h => ⟨?_, h⟩, fun h => h.2⟩
    by_contra hlt
    exact h (hs.within.bitmap b (by omega))
  rw [hused, ← hs.perm.mem_iff, append_nil, owned, mem_total]
  refine exists_congr fun i => ?_
  rw [Node.owned, mem_append, Node.liveBlocks, Node.snapBlocks]
  refine or_congr ?_ ?_
  · split <;> simp_all
  · split <;> simp_all

end Xaios.MutableFs
