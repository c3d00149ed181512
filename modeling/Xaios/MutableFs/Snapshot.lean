import Xaios.MutableFs.Files

/-!
# Snapshots

`commit_snapshot`, `restore_snapshot_node` and `rollback_snapshot` of
`mutable_fs.c`. Both directions copy file contents through a buffer, block list
to block list, one slot after the other; the loops leave at the first error and
keep what was done up to there.

The copy buffer of the source is an uninitialised array of 8192 bytes; here it
is zeroed.
-/

namespace Xaios.MutableFs

open Foundation BlockDevice

variable {D : Type} [BlockDevice 512 D]

/-! ### Copying a file -/

/-- The copy both directions make: the bytes of a block list are read into the
buffer, as many blocks are taken, and the buffer is written to them. `error` is
the status of the first step that fails; the blocks taken go back if it is the
last one. -/
def copyBlocks (s : Fs D) (source : List UInt16) (count size : ℕ) :
    Status × Fs D × List UInt16 :=
  let r := readBlocks s.dev source size (List.replicate 8192 0)
  if r.1 ≠ .ok then (.io, { s with dev := r.2.2 }, [])
  else
    let a := s.vol.allocateBlocks s.geo count
    if a.1 ≠ .ok then (.noMemory, { s with vol := a.2.1, dev := r.2.2 }, [])
    else
      let w := writeBlocks r.2.2 a.2.2 (r.2.1.take size)
      if w.1 ≠ .ok then
        (.io, { s with vol := a.2.1.freeBlocks s.geo a.2.2, dev := w.2 }, [])
      else (.ok, { s with vol := a.2.1, dev := w.2 }, a.2.2)

/-! ### Commit -/

/-- The node with its snapshot fields cleared. -/
def Node.clearSnapshot (n : Node) : Node :=
  { n with
    snapshotActive := 0
    snapshotType := nodeFree
    snapshotSize := 0
    snapshotHash := 0
    snapshotGeneration := 0
    snapshotBlockCount := 0
    snapshotBlocks := blockArray [] }

/-- The node with the snapshot fields taken from the live ones, the blocks not
yet. -/
def Node.openSnapshot (n : Node) : Node :=
  { n.clearSnapshot with
    snapshotActive := 1
    snapshotType := n.type
    snapshotSize := n.size
    snapshotHash := n.contentHash
    snapshotGeneration := n.generation }

/-- The body of the loop of `commit_snapshot`. -/
def commitSlot (i : Fin 64) (s : Fs D) : Status × Fs D :=
  let n := s.vol.nodes i
  let vol := if n.snapshotActive ≠ 0 ∧ n.snapshotType = nodeFile then
    s.vol.freeBlocks s.geo n.snapshotBlockList else s.vol
  if n.active = 0 then (.ok, { s with vol := vol.setNode i n.clearSnapshot })
  else
    let opened : Fs D := { s with vol := vol.setNode i n.openSnapshot }
    if n.type = nodeFile then
      let c := copyBlocks opened n.blockList n.blockCount.toNat n.size.toNat
      if c.1 ≠ .ok then (c.1, c.2.1)
      else (.ok, { c.2.1 with vol := c.2.1.vol.setNode i { n.openSnapshot with
        snapshotBlockCount := n.blockCount, snapshotBlocks := blockArray c.2.2 } })
    else (.ok, opened)

/-- `commit_snapshot`. -/
def commitSnapshot (s : Fs D) : Status × Fs D :=
  if !s.writable then (.invalid, s)
  else
    let r := forEach .ok commitSlot (slots s.geo) s
    if r.1 ≠ .ok then r
    else writeMetadata
      { r.2 with vol := { r.2.vol with committedGeneration := r.2.vol.generation } }

/-! ### Rollback -/

/-- The node with the live fields taken from the snapshot ones, the blocks not
yet. -/
def Node.openLive (n : Node) : Node :=
  { n with
    active := 1
    type := n.snapshotType
    size := n.snapshotSize
    contentHash := n.snapshotHash
    generation := n.snapshotGeneration
    blockCount := 0
    blocks := blockArray [] }

/-- `restore_snapshot_node`. The live blocks go back before the restored ones are
taken. -/
def restoreSnapshotNode (i : Fin 64) (s : Fs D) : Status × Fs D :=
  let n := s.vol.nodes i
  if n.snapshotActive = 0 then (.ok, s)
  else
    let vol := if n.active ≠ 0 ∧ n.type = nodeFile then
      s.vol.freeBlocks s.geo n.blockList else s.vol
    let opened : Fs D := { s with vol := vol.setNode i n.openLive }
    if n.snapshotType = nodeFile then
      let c := copyBlocks opened n.snapshotBlockList n.snapshotBlockCount.toNat
        n.snapshotSize.toNat
      if c.1 ≠ .ok then (c.1, c.2.1)
      else (.ok, { c.2.1 with vol := c.2.1.vol.setNode i { n.openLive with
        blockCount := n.snapshotBlockCount, blocks := blockArray c.2.2 } })
    else (.ok, opened)

/-- The node `rollback_snapshot` leaves of one that was created after the
commit. -/
def Node.discarded (n : Node) : Node :=
  { n with active := 0, blockCount := 0, blocks := blockArray [] }

/-- The body of the first loop of `rollback_snapshot`: a node without a snapshot
whose generation is not older than the commit goes. -/
def discardSlot (g : Geometry) (v : Volume) (i : Fin 64) : Volume :=
  let n := v.nodes i
  if n.snapshotActive = 0 ∧ n.active ≠ 0 ∧ v.committedGeneration ≤ n.generation then
    (if n.type = nodeFile then v.freeBlocks g n.blockList else v).setNode i n.discarded
  else v

/-- The body of the second loop: the snapshots of one type are restored. -/
def restorePass (type : UInt32) (i : Fin 64) (s : Fs D) : Status × Fs D :=
  let n := s.vol.nodes i
  if n.snapshotActive = 0 then (.ok, s)
  else if n.snapshotType = type then
    let r := restoreSnapshotNode i s
    (if r.1 = .ok then .ok else .io, r.2)
  else (.ok, s)

/-- `rollback_snapshot`. Directories are restored before files. -/
def rollbackSnapshot (s : Fs D) : Status × Fs D :=
  if !s.writable then (.invalid, s)
  else
    let kept : Fs D := { s with vol := (slots s.geo).foldl (discardSlot s.geo) s.vol }
    let dirs := forEach .ok (restorePass nodeDir) (slots s.geo) kept
    if dirs.1 ≠ .ok then dirs
    else
      let files := forEach .ok (restorePass nodeFile) (slots s.geo) dirs.2
      if files.1 ≠ .ok then files
      else writeMetadata
        { files.2 with vol := { files.2.vol with generation := files.2.vol.generation + 1 } }

end Xaios.MutableFs
