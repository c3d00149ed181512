import Mathlib.Data.List.FinRange
import Xaios.Foundation.BlockDevice
import Xaios.Foundation.CString
import Xaios.Status

/-!
# The in-memory volume of the mutable file system

The data model of `kernel/fs/mutable_fs.c`: the sector geometry, the node record
`xaios_mfs_node_t`, the volume `xaios_mfs_state_t` that the file keeps in
`g_mfs`, and the other globals the operations read.

A node is one slot of a fixed table. It carries a live version and a snapshot
version of one file or directory, which share the slot and share the path. The
data of a version is a list of block numbers, each a sector of the data region;
`block_bitmap` says which blocks are taken.

The six `g_active_*` globals are always set together, by `set_active_v2` or by
`set_active_v3`, so they are one value of `MutableFs.Geometry`. The
statistics counters are left out, except the two that record which way a mount
went.
-/

namespace Xaios.MutableFs

open Foundation

/-! ### Geometry -/

/-- `MFS_START_SECTOR`. -/
def startSector : ℕ := 3072

/-- `MFS_JOURNAL_HEADER_SECTOR`: it is placed behind the sixteen metadata
sectors of version 2, in both versions. -/
def journalHeaderSector : ℕ := startSector + 16

/-- `MFS_JOURNAL_DATA_SECTOR`. -/
def journalDataSector : ℕ := journalHeaderSector + 1

/-- `MFS_DATA_START_SECTOR`: it too is computed from the metadata sectors of
version 2, in both versions. -/
def dataStartSector : ℕ := startSector + 16 + 2

/-- The two settings of the `g_active_*` globals. -/
inductive Geometry where
  /-- `set_active_v2`. -/
  | v2
  /-- `set_active_v3`. -/
  | v3
  deriving DecidableEq, Repr

namespace Geometry

/-- `g_active_metadata_sectors`. -/
def metadataSectors : Geometry → ℕ
  | v2 => 16
  | v3 => 32

/-- `g_active_max_nodes`. -/
def maxNodes : Geometry → ℕ
  | v2 => 32
  | v3 => 64

/-- `g_active_file_max_blocks`. -/
def fileMaxBlocks : Geometry → ℕ
  | v2 => 16
  | v3 => 16

/-- `g_active_max_file_bytes`. -/
def maxFileBytes (g : Geometry) : ℕ := g.fileMaxBlocks * 512

/-- `g_active_data_sectors`. -/
def dataSectors : Geometry → ℕ
  | v2 => 96
  | v3 => 256

/-- `g_active_version`. -/
def version : Geometry → UInt32
  | v2 => 2
  | v3 => 3

variable (g : Geometry)

theorem maxNodes_le : g.maxNodes ≤ 64 := by
  cases g <;> decide

theorem fileMaxBlocks_eq : g.fileMaxBlocks = 16 := by
  cases g <;> rfl

theorem maxFileBytes_eq : g.maxFileBytes = 8192 := by
  cases g <;> rfl

theorem dataSectors_le : g.dataSectors ≤ 256 := by
  cases g <;> decide

end Geometry

/-! ### Nodes -/

/-- The type words of a node, `MFS_NODE_FREE`, `MFS_NODE_DIR` and
`MFS_NODE_FILE`. They are stored on disk, so a type is a word and not one of
three constructors. -/
def nodeFree : UInt32 := 0

@[inherit_doc nodeFree] def nodeDir : UInt32 := 1

@[inherit_doc nodeFree] def nodeFile : UInt32 := 2

/-- `xaios_mfs_node_t`, with the four bytes of padding that `sizeof` counts and
that every copy of a node carries along. -/
@[ext] structure Node where
  active : UInt32
  snapshotActive : UInt32
  type : UInt32
  snapshotType : UInt32
  size : UInt64
  contentHash : UInt64
  generation : UInt64
  snapshotSize : UInt64
  snapshotHash : UInt64
  snapshotGeneration : UInt64
  blockCount : UInt16
  snapshotBlockCount : UInt16
  blocks : Fin 16 → UInt16
  snapshotBlocks : Fin 16 → UInt16
  path : Fin 96 → UInt8
  padding : UInt32

namespace Node

/-- The node `bytes_zero(node, sizeof(*node))` leaves. -/
def zero : Node where
  active := 0
  snapshotActive := 0
  type := 0
  snapshotType := 0
  size := 0
  contentHash := 0
  generation := 0
  snapshotSize := 0
  snapshotHash := 0
  snapshotGeneration := 0
  blockCount := 0
  snapshotBlockCount := 0
  blocks := fun _ => 0
  snapshotBlocks := fun _ => 0
  path := fun _ => 0
  padding := 0

/-- The path of a node as a string. -/
def name (n : Node) : CString := cstr n.path

/-- `blocks[0 .. block_count)`. -/
def blockList (n : Node) : List UInt16 := (List.ofFn n.blocks).take n.blockCount.toNat

/-- `snapshot_blocks[0 .. snapshot_block_count)`. -/
def snapshotBlockList (n : Node) : List UInt16 :=
  (List.ofFn n.snapshotBlocks).take n.snapshotBlockCount.toNat

/-- `find_node`'s test: active, or in the snapshot when that is asked for. -/
def isMatch (n : Node) (path : CString) (includeSnapshot : Bool) : Bool :=
  (n.active != 0 || (includeSnapshot && n.snapshotActive != 0)) && n.name == path

end Node

/-- A list of block numbers in an array that was zeroed first. -/
def blockArray (bs : List UInt16) : Fin 16 → UInt16 := fun i => bs.getD i 0

/-! ### The volume -/

/-- `xaios_mfs_state_t`, the in-memory volume `g_mfs`. -/
@[ext] structure Volume where
  magic : Fin 8 → UInt8
  version : UInt32
  sectorSize : UInt32
  metadataSectors : UInt32
  maxNodes : UInt32
  startSector : UInt64
  journalHeaderSector : UInt64
  journalDataSector : UInt64
  dataStartSector : UInt64
  dataSectors : UInt64
  generation : UInt64
  committedGeneration : UInt64
  checksum : UInt64
  blockBitmap : Fin 256 → UInt8
  nodes : Fin 64 → Node

/-- The slots the loops `i < g_active_max_nodes` run over. -/
def slots (g : Geometry) : List (Fin 64) := (List.finRange 64).filter fun i => i.val < g.maxNodes

theorem mem_slots {g : Geometry} {i : Fin 64} : i ∈ slots g ↔ i.val < g.maxNodes := by
  simp [slots]

theorem nodup_slots (g : Geometry) : (slots g).Nodup :=
  (List.nodup_finRange 64).filter _

namespace Volume

variable (v : Volume)

/-- `block_bitmap[b]`. -/
def bit (b : ℕ) : UInt8 := if h : b < 256 then v.blockBitmap ⟨b, h⟩ else 0

/-- `block_bitmap[b] = x`. -/
def setBit (b : ℕ) (x : UInt8) : Volume :=
  if h : b < 256 then { v with blockBitmap := Function.update v.blockBitmap ⟨b, h⟩ x } else v

/-- The volume with one node replaced. -/
def setNode (i : Fin 64) (n : Node) : Volume := { v with nodes := Function.update v.nodes i n }

/-- `find_node(path, include_snapshot)`: the first slot that matches. -/
def findNode (g : Geometry) (path : CString) (includeSnapshot : Bool) : Option (Fin 64) :=
  (slots g).find? fun i => (v.nodes i).isMatch path includeSnapshot

/-- `find_free_node`. -/
def findFreeNode (g : Geometry) : Option (Fin 64) :=
  (slots g).find? fun i => (v.nodes i).active == 0 && (v.nodes i).snapshotActive == 0

variable (i : Fin 64) (n : Node)

@[simp] theorem setNode_nodes :
    (v.setNode i n).nodes = Function.update v.nodes i n := rfl

@[simp] theorem setNode_bit (b : ℕ) : (v.setNode i n).bit b = v.bit b := rfl

@[simp] theorem setNode_generation :
    (v.setNode i n).generation = v.generation := rfl

@[simp] theorem setNode_committedGeneration :
    (v.setNode i n).committedGeneration = v.committedGeneration := rfl

theorem bit_setBit (b c : ℕ) (x : UInt8) (hb : b < 256) :
    (v.setBit b x).bit c = if c = b then x else v.bit c := by
  unfold bit setBit
  by_cases hc : c < 256
  · rcases eq_or_ne c b with rfl | hne
    · simp [hc]
    · have hf : (⟨c, hc⟩ : Fin 256) ≠ ⟨b, hb⟩ := fun h => hne (congrArg Fin.val h)
      simp [hb, hc, hne, hf]
  · have hne : c ≠ b := fun h => hc (h ▸ hb)
    simp [hc, hne]

end Volume

/-! ### The globals -/

/-- `xaios_mfs_file_handle_t`. -/
structure FileHandle where
  inUse : Bool
  flags : UInt32
  cursor : ℕ
  path : CString

/-- The globals of `mutable_fs.c`, with the device that `blk_read` and
`blk_write` reach. -/
structure Fs (D : Type) where
  /-- `g_mfs`. -/
  vol : Volume
  /-- The `g_active_*` values. -/
  geo : Geometry
  /-- `g_mounted`. -/
  mounted : Bool
  /-- `g_mount_flags`. -/
  mountFlags : UInt32
  /-- `g_open_files`. -/
  openFiles : Fin 8 → FileHandle
  /-- `g_metadata_verified_checksum`. -/
  verifiedChecksum : UInt64
  /-- `g_boot_load_count`. -/
  bootLoadCount : ℕ
  /-- `g_format_count`. -/
  formatCount : ℕ
  /-- The block device. -/
  dev : D

/-- The volume of a zeroed `g_mfs`. -/
def Volume.zero : Volume where
  magic := fun _ => 0
  version := 0
  sectorSize := 0
  metadataSectors := 0
  maxNodes := 0
  startSector := 0
  journalHeaderSector := 0
  journalDataSector := 0
  dataStartSector := 0
  dataSectors := 0
  generation := 0
  committedGeneration := 0
  checksum := 0
  blockBitmap := fun _ => 0
  nodes := fun _ => Node.zero

/-- The globals at boot: the geometry is initialised to version 2, the rest is
zero. -/
def Fs.boot {D : Type} (d : D) : Fs D where
  vol := Volume.zero
  geo := .v2
  mounted := false
  mountFlags := 0
  openFiles := fun _ => ⟨false, 0, 0, .empty⟩
  verifiedChecksum := 0
  bootLoadCount := 0
  formatCount := 0
  dev := d

@[simp] theorem Fs.dev_boot {D : Type} (d : D) : (Fs.boot d).dev = d := rfl

/-- `MFS_MOUNT_READ_WRITE`. -/
def mountReadWrite : UInt32 := 1

/-- Mounted, and mounted read-write: the test at the head of every operation
that changes the volume. -/
def Fs.writable {D : Type} (s : Fs D) : Bool := s.mounted && (s.mountFlags &&& mountReadWrite) != 0

end Xaios.MutableFs
