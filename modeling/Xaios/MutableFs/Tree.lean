import Mathlib.Algebra.BigOperators.Fin
import Xaios.Foundation.Loop
import Xaios.MutableFs.BlockIo
import Xaios.MutableFs.Path

/-!
# The file system as a tree with a snapshot

What `mutable_fs.c` is for, without sectors, blocks and bitmaps: a table of
entries, each with a path, a live version and a snapshot version, and a number
of blocks that all versions together may use. A version has its contents in it,
so copying one is copying a value.

The operations are the ones of the source, on this state. They are
deterministic given what the device does wrong in the course of one operation
(`MutableFs.Fault`); with no fault they describe a run on a device that
serves every request. The type of contents is a parameter: byte strings when the
contents matter, nothing when only names and sizes do.
-/

namespace Xaios.MutableFs

open Foundation

variable {β : Type}

/-! ### Entries -/

/-- What a version is. -/
inductive Kind where
  | dir
  | file
  deriving DecidableEq, Repr

/-- A version of a file or directory: the fields of the node that describe it,
the number of blocks it uses and its contents. -/
@[ext] structure Version (β : Type) where
  kind : Kind
  size : UInt64
  hash : UInt64
  generation : UInt64
  blocks : ℕ
  contents : β

/-- The version whose contents have been lost: the description is there and the
blocks are not. -/
def Version.hollow [Inhabited β] (c : Version β) : Version β :=
  { c with blocks := 0, contents := default }

/-- An entry of the table. -/
@[ext] structure Entry (β : Type) where
  name : CString
  live : Option (Version β)
  snap : Option (Version β)

/-- The blocks of a version that may be missing. -/
def Version.blocksOf (c : Option (Version β)) : ℕ := (c.map Version.blocks).getD 0

@[simp] theorem Version.blocksOf_none : Version.blocksOf (none : Option (Version β)) = 0 := rfl

@[simp] theorem Version.blocksOf_some (c : Version β) : Version.blocksOf (some c) = c.blocks := rfl

/-- The blocks an entry uses. -/
def Entry.blocks (e : Entry β) : ℕ := Version.blocksOf e.live + Version.blocksOf e.snap

/-- `find_node`'s test on an entry. -/
def Entry.isMatch (e : Entry β) (path : CString) (includeSnapshot : Bool) : Bool :=
  (e.live.isSome || (includeSnapshot && e.snap.isSome)) && e.name == path

/-- The tree: the table and the two generation numbers. -/
@[ext] structure Tree (β : Type) where
  entry : Fin 64 → Entry β
  generation : UInt64
  committed : UInt64

/-- The tree of a fresh volume. -/
def Tree.fresh (β : Type) : Tree β where
  entry := fun _ => ⟨.empty, none, none⟩
  generation := 1
  committed := 0

namespace Tree

variable (g : Geometry) (t : Tree β)

/-! ### Questions -/

/-- `find_node`. -/
def find (path : CString) (includeSnapshot : Bool) : Option (Fin 64) :=
  (slots g).find? fun i => (t.entry i).isMatch path includeSnapshot

/-- `find_free_node`. -/
def findFree : Option (Fin 64) :=
  (slots g).find? fun i => (t.entry i).live.isNone && (t.entry i).snap.isNone

/-- `parent_exists_for`. -/
def parentExistsFor (path : CString) : Bool :=
  if parentPathOf path = rootPath then true
  else match t.find g (parentPathOf path) false with
    | none => false
    | some i => (t.entry i).live.any fun c => c.kind = .dir

/-- `has_active_children`. -/
def hasActiveChildren (path : CString) : Bool :=
  (slots g).any fun i => (t.entry i).live.isSome && isBelow (t.entry i).name path

/-- The blocks in use. -/
def used : ℕ := ((List.finRange 64).map fun i => (t.entry i).blocks).sum

/-- The blocks left. -/
def free : ℕ := g.dataSectors - t.used

/-! ### Changes -/

/-- One entry replaced. -/
def setEntry (i : Fin 64) (e : Entry β) : Tree β := { t with entry := Function.update t.entry i e }

/-- A live version put under a path, with the next generation number handed
out. -/
def place (i : Fin 64) (path : CString) (c : Version β) : Tree β :=
  { t.setEntry i ⟨path, some c, (t.entry i).snap⟩ with generation := t.generation + 1 }

/-- A live version taken away. -/
def remove (i : Fin 64) : Tree β :=
  { t.setEntry i { t.entry i with live := none } with generation := t.generation + 1 }

/-- A live version moved to a path. The slot moves, and the snapshot with it. -/
def move (i : Fin 64) (path : CString) : Tree β :=
  { t.setEntry i { t.entry i with
      name := path
      live := (t.entry i).live.map fun c => { c with generation := t.generation } } with
    generation := t.generation + 1 }

@[simp] theorem setEntry_entry (i : Fin 64) (e : Entry β) :
    (t.setEntry i e).entry = Function.update t.entry i e := rfl

@[simp] theorem setEntry_generation (i : Fin 64) (e : Entry β) :
    (t.setEntry i e).generation = t.generation := rfl

@[simp] theorem setEntry_committed (i : Fin 64) (e : Entry β) :
    (t.setEntry i e).committed = t.committed := rfl

end Tree

/-! ### Operations -/

/-- What goes wrong on the device during one operation: nothing, the contents of
the version in one slot cannot be copied or written, or the metadata cannot be
written at the end. -/
inductive Fault where
  | none
  | data (i : Fin 64)
  | metadata
  deriving DecidableEq

/-- The answer of the metadata write that ends an operation. -/
def Fault.final : Fault → Status
  | metadata => .io
  | _ => .ok

/-- Whether the contents of a new file can be written. -/
def Fault.hitsData : Fault → Bool
  | data _ => true
  | _ => false

namespace Tree

variable [Inhabited β] (g : Geometry) (f : Fault) (t : Tree β)

/-- `create_dir`. -/
def mkdir (path : CString) : Status × Tree β :=
  if validatePath path ≠ .ok ∨ !t.parentExistsFor g path then (.invalid, t)
  else
    let c : Version β := ⟨.dir, 0, 0, t.generation, 0, default⟩
    match t.find g path true with
    | some i =>
      match (t.entry i).live with
      | some c' => (if c'.kind = .dir then .ok else .invalid, t)
      | none => (f.final, t.place i path c)
    | none =>
      match t.findFree g with
      | some i => (f.final, t.place i path c)
      | none => (.noMemory, t)

/-- `write_file`, of a file of a given size, hash and contents. -/
def write (path : CString) (size : ℕ) (hash : UInt64) (contents : β) : Status × Tree β :=
  if validatePath path ≠ .ok ∨ !t.parentExistsFor g path ∨ g.maxFileBytes < size then (.invalid, t)
  else if t.free g < blockCountForSize size then (.noMemory, t)
  else if f.hitsData then (.io, t)
  else
    let c : Version β :=
      ⟨.file, UInt64.ofNat size, hash, t.generation, blockCountForSize size, contents⟩
    match t.find g path true with
    | some i =>
      if (t.entry i).live.any fun c' => c'.kind = .dir then (.invalid, t)
      else (f.final, t.place i path c)
    | none =>
      match t.findFree g with
      | some i => (f.final, t.place i path c)
      | none => (.noMemory, t)

/-- `delete_node`. -/
def delete (path : CString) : Status × Tree β :=
  if validatePath path ≠ .ok then (.invalid, t)
  else
    match t.find g path false with
    | none => (.notFound, t)
    | some i =>
      if ((t.entry i).live.any fun c => c.kind = .dir) ∧ t.hasActiveChildren g path then (.busy, t)
      else (f.final, t.remove i)

/-- `rename_node`. -/
def rename (oldPath newPath : CString) : Status × Tree β :=
  if validatePath oldPath ≠ .ok ∨ validatePath newPath ≠ .ok ∨ !t.parentExistsFor g newPath then
    (.invalid, t)
  else
    match t.find g oldPath false with
    | none => (.notFound, t)
    | some i =>
      if (t.find g newPath false).isSome then (.busy, t)
      else if ((t.entry i).live.any fun c => c.kind = .dir) ∧ t.hasActiveChildren g oldPath then
        (.busy, t)
      else (f.final, t.move i newPath)

/-- The body of the loop of `commit_snapshot`: the snapshot becomes the live
version. The old snapshot is given up first, so that on an error a hollow one is
left. -/
def commitEntry (i : Fin 64) (t : Tree β) : Status × Tree β :=
  let e := t.entry i
  match e.live with
  | none => (.ok, t.setEntry i { e with snap := none })
  | some c =>
    let opened := t.setEntry i { e with snap := some c.hollow }
    if c.kind = .file ∧ 0 < c.blocks ∧ f = .data i then (.io, opened)
    else if c.kind = .file ∧ opened.free g < c.blocks then (.noMemory, opened)
    else (.ok, t.setEntry i { e with snap := some c })

/-- `commit_snapshot`. -/
def commit : Status × Tree β :=
  let r := forEach .ok (commitEntry g f) (slots g) t
  if r.1 ≠ .ok then r else (f.final, { r.2 with committed := r.2.generation })

/-- `restore_snapshot_node`. The live version is given up first, so that on an
error a hollow one is left. -/
def restoreEntry (i : Fin 64) (t : Tree β) : Status × Tree β :=
  let e := t.entry i
  match e.snap with
  | none => (.ok, t)
  | some c =>
    let opened := t.setEntry i { e with live := some c.hollow }
    if c.kind = .file ∧ 0 < c.blocks ∧ f = .data i then (.io, opened)
    else if c.kind = .file ∧ opened.free g < c.blocks then (.noMemory, opened)
    else (.ok, t.setEntry i { e with live := some c })

/-- The body of the second loop of `rollback_snapshot`: the snapshots of one kind
are restored. -/
def restorePass (k : Kind) (i : Fin 64) (t : Tree β) : Status × Tree β :=
  if (t.entry i).snap.any fun c => c.kind = k then
    let r := t.restoreEntry g f i
    (if r.1 = .ok then .ok else .io, r.2)
  else (.ok, t)

/-- The entry after the first loop of `rollback_snapshot`: a live version without
a snapshot goes, unless it is older than the commit. -/
def keepEntry (committed : UInt64) (e : Entry β) : Entry β :=
  if e.snap.isNone ∧ (e.live.any fun c => committed ≤ c.generation) then { e with live := none }
  else e

/-- The tree after the first loop of `rollback_snapshot`. -/
def discard : Tree β := { t with entry := fun i => keepEntry t.committed (t.entry i) }

/-- `rollback_snapshot`. -/
def rollback : Status × Tree β :=
  let dirs := forEach .ok (restorePass g f .dir) (slots g) t.discard
  if dirs.1 ≠ .ok then dirs
  else
    let files := forEach .ok (restorePass g f .file) (slots g) dirs.2
    if files.1 ≠ .ok then files
    else (f.final, { files.2 with generation := files.2.generation + 1 })

end Tree

/-- The operations on the tree. -/
inductive TreeOp (β : Type) where
  | mkdir (path : CString)
  | write (path : CString) (size : ℕ) (hash : UInt64) (contents : β)
  | delete (path : CString)
  | rename (oldPath newPath : CString)
  | commit
  | rollback

/-- One operation on the tree. -/
def TreeOp.exec [Inhabited β] (g : Geometry) (f : Fault) (t : Tree β) : TreeOp β → Status × Tree β
  | mkdir path => t.mkdir g f path
  | write path size hash contents => t.write g f path size hash contents
  | delete path => t.delete g f path
  | rename oldPath newPath => t.rename g f oldPath newPath
  | commit => t.commit g f
  | rollback => t.rollback g f

end Xaios.MutableFs
