import Xaios.MutableFs.Blocks
import Xaios.MutableFs.Metadata

/-!
# Operations on live nodes

`create_dir`, `write_file`, `read_file`, `delete_node` and `rename_node` of
`mutable_fs.c`, on the globals as they stand. Each operation answers a status
and leaves the globals; an operation that changes the volume ends in
`write_metadata` and answers what that answers.

Null pointers are not represented: a path is a string and a buffer is a list of
bytes. `normalize_path` copies a path that `validate_path` accepts, which
therefore fits, so the operations use the path itself.
-/

namespace Xaios.MutableFs

open Foundation BlockDevice

variable {D : Type} [BlockDevice 512 D]

/-! ### Directories -/

/-- The node fields `create_dir` sets. A slot that no snapshot uses is zeroed
first. -/
def Node.makeDir (n : Node) (path : CString) (generation : UInt64) : Node :=
  let n := if n.snapshotActive = 0 then Node.zero else n
  { n with
    active := 1
    type := nodeDir
    size := 0
    contentHash := 0
    generation := generation
    blockCount := 0
    blocks := blockArray []
    path := copyInto n.path path }

/-- The node `n` in slot `i`, with the next generation number handed out and the
metadata written. -/
def Fs.putNode (s : Fs D) (i : Fin 64) (n : Node) : Status × Fs D :=
  writeMetadata
    { s with vol := { s.vol.setNode i n with generation := s.vol.generation + 1 } }

/-- `create_dir`. -/
def createDir (s : Fs D) (path : CString) : Status × Fs D :=
  if !s.writable || validatePath path != .ok || !s.vol.parentExistsFor s.geo path then
    (.invalid, s)
  else
    match s.vol.findNode s.geo path true with
    | some i =>
      if (s.vol.nodes i).active ≠ 0 then
        (if (s.vol.nodes i).type = nodeDir then .ok else .invalid, s)
      else s.putNode i ((s.vol.nodes i).makeDir path s.vol.generation)
    | none =>
      match s.vol.findFreeNode s.geo with
      | some i => s.putNode i ((s.vol.nodes i).makeDir path s.vol.generation)
      | none => (.noMemory, s)

/-! ### Files -/

/-- The node fields `write_file` sets. -/
def Node.makeFile (n : Node) (path : CString) (data : List UInt8) (generation : UInt64)
    (blocks : List UInt16) : Node :=
  { n with
    active := 1
    type := nodeFile
    size := UInt64.ofNat data.length
    contentHash := fnv1a64 data
    generation := generation
    blockCount := UInt16.ofNat (blockCountForSize data.length)
    blocks := blockArray blocks
    path := copyInto n.path path }

/-- The end of `write_file`: the blocks of the file that was there go back, and
the node takes the new ones. -/
def Fs.putFile (s : Fs D) (i : Fin 64) (path : CString) (data : List UInt8)
    (blocks : List UInt16) : Status × Fs D :=
  let n := s.vol.nodes i
  let vol := if n.active ≠ 0 ∧ n.type = nodeFile then s.vol.freeBlocks s.geo n.blockList else s.vol
  Fs.putNode { s with vol := vol } i (n.makeFile path data vol.generation blocks)

/-- `write_file`. The new blocks are taken and written before the node is looked
up, and go back on every error. -/
def writeFile (s : Fs D) (path : CString) (data : List UInt8) : Status × Fs D :=
  if !s.writable || validatePath path != .ok || !s.vol.parentExistsFor s.geo path ||
      s.geo.maxFileBytes < data.length then (.invalid, s)
  else
    let a := s.vol.allocateBlocks s.geo (blockCountForSize data.length)
    if a.1 ≠ .ok then (.noMemory, { s with vol := a.2.1 })
    else
      let w := writeBlocks s.dev a.2.2 data
      let taken : Fs D := { s with vol := a.2.1, dev := w.2 }
      let back : Fs D := { s with vol := a.2.1.freeBlocks s.geo a.2.2, dev := w.2 }
      if w.1 ≠ .ok then (.io, back)
      else
        match taken.vol.findNode s.geo path true with
        | some i =>
          if (taken.vol.nodes i).active ≠ 0 ∧ (taken.vol.nodes i).type ≠ nodeFile then
            (.invalid, back)
          else taken.putFile i path data a.2.2
        | none =>
          match taken.vol.findFreeNode s.geo with
          | some i => taken.putFile i path data a.2.2
          | none => (.noMemory, back)

/-- The slot `write_file` uses: that of the path, live or in the snapshot, or a free
one. -/
def Volume.writeSlot (v : Volume) (g : Geometry) (path : CString) : Option (Fin 64) :=
  (v.findNode g path true).or (v.findFreeNode g)

/-- **A write that succeeds** passes the checks, gets its blocks, writes them, and puts the
file in its slot. -/
theorem writeFile_of_ok {s : Fs D} {path : CString} {data : List UInt8}
    (hok : (writeFile s path data).1 = .ok) :
    s.writable = true ∧ validatePath path = .ok ∧ data.length ≤ s.geo.maxFileBytes ∧
      ∃ v bs i, s.vol.allocateBlocks s.geo (blockCountForSize data.length) = (.ok, v, bs) ∧
        (writeBlocks s.dev bs data).1 = .ok ∧ v.writeSlot s.geo path = some i ∧
        writeFile s path data =
          Fs.putFile { s with vol := v, dev := (writeBlocks s.dev bs data).2 } i path data bs := by
  unfold writeFile at hok ⊢
  split at hok
  · cases hok
  rename_i hguard
  rw [if_neg hguard]
  simp only [Bool.or_eq_true, Bool.not_eq_true', bne_iff_ne, decide_eq_true_eq, not_or, not_lt,
    Bool.not_eq_false, not_not] at hguard
  refine ⟨hguard.1.1.1, hguard.1.1.2, hguard.2, ?_⟩
  generalize s.vol.allocateBlocks s.geo (blockCountForSize data.length) = a at hok ⊢
  obtain ⟨status, v, bs⟩ := a
  dsimp only at hok ⊢
  split at hok
  · cases hok
  rename_i halloc
  rw [if_neg halloc]
  split at hok
  · cases hok
  rename_i hwrite
  rw [if_neg hwrite]
  refine ⟨v, bs, ?_⟩
  rw [not_not] at halloc hwrite
  subst halloc
  rw [Volume.writeSlot]
  cases hfind : v.findNode s.geo path true with
  | some i =>
    rw [hfind] at hok
    dsimp only at hok ⊢
    split at hok
    · cases hok
    · rename_i hdir
      rw [if_neg hdir]
      exact ⟨i, rfl, hwrite, rfl, rfl⟩
  | none =>
    rw [hfind] at hok
    cases hfree : v.findFreeNode s.geo with
    | some i => exact ⟨i, rfl, hwrite, rfl, rfl⟩
    | none =>
      rw [hfree] at hok
      cases hok

/-- What `read_file` answers: the status, the caller's buffer, and the value of
`out_size` if it was set. -/
structure ReadResult where
  status : Status
  buffer : List UInt8
  outSize : Option ℕ

/-- `read_file`, into a buffer of the caller. -/
def readFile (s : Fs D) (path : CString) (buffer : List UInt8) : ReadResult × Fs D :=
  if !s.mounted || validatePath path != .ok then (⟨.invalid, buffer, none⟩, s)
  else
    match s.vol.findNode s.geo path false with
    | none => (⟨.notFound, buffer, none⟩, s)
    | some i =>
      let n := s.vol.nodes i
      if n.active = 0 ∨ n.type ≠ nodeFile ∨ buffer.length < n.size.toNat then
        (⟨.notFound, buffer, none⟩, s)
      else
        let r := readBlocks s.dev n.blockList n.size.toNat buffer
        if r.1 ≠ .ok then (⟨.io, r.2.1, none⟩, { s with dev := r.2.2 })
        else if fnv1a64 (r.2.1.take n.size.toNat) ≠ n.contentHash then
          (⟨.invalid, r.2.1, none⟩, { s with dev := r.2.2 })
        else (⟨.ok, r.2.1, some n.size.toNat⟩, { s with dev := r.2.2 })

/-! ### Deleting and renaming -/

/-- The node fields `delete_node` sets. -/
def Node.deleted (n : Node) (generation : UInt64) : Node :=
  { n with
    blockCount := if n.type = nodeFile then 0 else n.blockCount
    active := 0
    generation := generation }

/-- `delete_node`. -/
def deleteNode (s : Fs D) (path : CString) : Status × Fs D :=
  if !s.writable || validatePath path != .ok then (.invalid, s)
  else
    match s.vol.findNode s.geo path false with
    | none => (.notFound, s)
    | some i =>
      let n := s.vol.nodes i
      if n.active = 0 then (.notFound, s)
      else if n.type = nodeDir ∧ s.vol.hasActiveChildren s.geo path then (.busy, s)
      else
        let vol := if n.type = nodeFile then s.vol.freeBlocks s.geo n.blockList else s.vol
        Fs.putNode { s with vol := vol } i (n.deleted vol.generation)

/-- The node fields `rename_node` sets. -/
def Node.renamed (n : Node) (path : CString) (generation : UInt64) : Node :=
  { n with path := copyInto n.path path, generation := generation }

/-- `rename_node`. The new path is looked up among the active nodes only. -/
def renameNode (s : Fs D) (oldPath newPath : CString) : Status × Fs D :=
  if !s.writable || validatePath oldPath != .ok || validatePath newPath != .ok ||
      !s.vol.parentExistsFor s.geo newPath then (.invalid, s)
  else
    match s.vol.findNode s.geo oldPath false with
    | none => (.notFound, s)
    | some i =>
      let n := s.vol.nodes i
      if n.active = 0 then (.notFound, s)
      else if (s.vol.findNode s.geo newPath false).isSome then (.busy, s)
      else if n.type = nodeDir ∧ s.vol.hasActiveChildren s.geo oldPath then (.busy, s)
      else s.putNode i (n.renamed newPath s.vol.generation)

end Xaios.MutableFs
