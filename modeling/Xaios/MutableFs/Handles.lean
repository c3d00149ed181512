import Xaios.MutableFs.Snapshot

/-!
# File handles and calls

`mutable_fs_open`, `mutable_fs_read_fd`, `mutable_fs_write_fd` and
`mutable_fs_close` of `mutable_fs.c`, and the calls a client of the file system
can make. A handle keeps a path and a cursor; reading and writing through it go
through `read_file` and `write_file` on the whole file.

`MutableFs.Op` are the operations that change the volume,
`MutableFs.Call` adds the reading ones and the handles. A run is a list of
them, whatever each answers.
-/

namespace Xaios.MutableFs

open Foundation BlockDevice List

variable {D : Type} [BlockDevice 512 D]

/-- The bits of the open flags, `XAIOS_MFS_OPEN_READ` and the rest. -/
def openRead : UInt32 := 1

@[inherit_doc openRead] def openWrite : UInt32 := 2

@[inherit_doc openRead] def openCreate : UInt32 := 4

@[inherit_doc openRead] def openTruncate : UInt32 := 8

/-- The errors of `mutable_fs_open` before anything is written. -/
def openCheck (s : Fs D) (path : CString) (flags : UInt32) : Status :=
  if validatePath path ≠ .ok ∨ flags &&& (openRead ||| openWrite) = 0 ∨
      flags &&& ~~~(openRead ||| openWrite ||| openCreate ||| openTruncate) ≠ 0 then .invalid
  else
    match s.vol.findNode s.geo path false with
    | none =>
      if flags &&& openCreate = 0 then .notFound
      else if flags &&& openWrite = 0 ∨ !s.vol.parentExistsFor s.geo path then .invalid
      else .ok
    | some i => if (s.vol.nodes i).type ≠ nodeFile then .invalid else .ok

/-- The globals with one handle replaced. -/
def Fs.setHandle (s : Fs D) (i : Fin 8) (h : FileHandle) : Fs D :=
  { s with openFiles := Function.update s.openFiles i h }

/-- `mutable_fs_open`: a file that is to be created or truncated is written
empty, then the first unused handle is taken. -/
def openFile (s : Fs D) (path : CString) (flags : UInt32) : Int × Fs D :=
  if openCheck s path flags ≠ .ok then ((openCheck s path flags).code, s)
  else
    let c := if flags &&& openCreate ≠ 0 ∧ s.vol.findNode s.geo path false = none then
      writeFile s path [] else (.ok, s)
    if c.1 ≠ .ok then (Status.io.code, c.2)
    else
      let t := if flags &&& openTruncate ≠ 0 ∧ (c.2.vol.findNode c.2.geo path false).isSome then
        writeFile c.2 path [] else (.ok, c.2)
      if t.1 ≠ .ok then (Status.io.code, t.2)
      else
        match (finRange 8).find? fun i => !(t.2.openFiles i).inUse with
        | none => (Status.noMemory.code, t.2)
        | some i => ((i : ℕ) + 1, t.2.setHandle i ⟨true, flags, 0, path⟩)

/-- The file is created, if that is wanted and it is not there. -/
def Fs.create (s : Fs D) (path : CString) (flags : UInt32) : Status × Fs D :=
  if flags &&& openCreate ≠ 0 ∧ s.vol.findNode s.geo path false = none then writeFile s path []
  else (.ok, s)

/-- The file is truncated, if that is wanted and it is there. -/
def Fs.truncate (s : Fs D) (path : CString) (flags : UInt32) : Status × Fs D :=
  if flags &&& openTruncate ≠ 0 ∧ (s.vol.findNode s.geo path false).isSome then writeFile s path []
  else (.ok, s)

/-- The writes of `mutable_fs_open`. -/
def Fs.openWrites (s : Fs D) (path : CString) (flags : UInt32) : Status × Fs D :=
  if (s.create path flags).1 ≠ .ok then s.create path flags
  else (s.create path flags).2.truncate path flags

/-- **`mutable_fs_open` in three parts**: the check, the writes, and the search for a handle. -/
theorem openFile_eq (s : Fs D) (path : CString) (flags : UInt32) : openFile s path flags =
    if openCheck s path flags ≠ .ok then ((openCheck s path flags).code, s)
    else if (s.openWrites path flags).1 ≠ .ok then
      (Status.io.code, (s.openWrites path flags).2)
    else
      match (finRange 8).find? fun i => !((s.openWrites path flags).2.openFiles i).inUse with
      | none => (Status.noMemory.code, (s.openWrites path flags).2)
      | some i =>
        ((i : ℕ) + 1, (s.openWrites path flags).2.setHandle i ⟨true, flags, 0, path⟩) := by
  rw [Fs.openWrites]
  by_cases hc : (s.create path flags).1 ≠ .ok
  · rw [if_pos hc, if_pos hc]
    exact if_congr .rfl rfl (if_pos hc)
  · rw [if_neg hc]
    exact if_congr .rfl rfl (if_neg hc)

/-- `handle_for_fd`. -/
def handleForFd (s : Fs D) (fd : ℕ) : Option (Fin 8) :=
  if h : 0 < fd ∧ fd ≤ 8 then
    let i : Fin 8 := ⟨fd - 1, by omega⟩
    if (s.openFiles i).inUse then some i else none
  else none

/-- The handle with its cursor moved. -/
def Fs.advance (s : Fs D) (i : Fin 8) (count : ℕ) : Fs D :=
  s.setHandle i { s.openFiles i with cursor := (s.openFiles i).cursor + count }

/-- `mutable_fs_read_fd`: the answer, the bytes copied and the globals. -/
def readFd (s : Fs D) (fd size : ℕ) : Int × List UInt8 × Fs D :=
  match handleForFd s fd with
  | none => (Status.invalid.code, [], s)
  | some i =>
    let h := s.openFiles i
    if size = 0 ∨ h.flags &&& openRead = 0 then (Status.invalid.code, [], s)
    else
      let r := readFile s h.path (replicate 8192 0)
      if r.1.status ≠ .ok then (Status.io.code, [], r.2)
      else
        let fileSize := r.1.outSize.getD 0
        if fileSize ≤ h.cursor then (0, [], r.2)
        else
          let copy := min (fileSize - h.cursor) size
          (copy, (r.1.buffer.drop h.cursor).take copy, r.2.advance i copy)

/-- `mutable_fs_write_fd`: the file is read, the bytes are laid over it at the
cursor, and the whole is written. -/
def writeFd (s : Fs D) (fd : ℕ) (buffer : List UInt8) : Int × Fs D :=
  match handleForFd s fd with
  | none => (Status.invalid.code, s)
  | some i =>
    let h := s.openFiles i
    if buffer.length = 0 ∨ h.flags &&& openWrite = 0 ∨ s.geo.maxFileBytes < h.cursor ∨
        s.geo.maxFileBytes - h.cursor < buffer.length then (Status.invalid.code, s)
    else
      let r := if (s.vol.findNode s.geo h.path false).isSome then
          readFile s h.path (replicate 8192 0)
        else (⟨.ok, replicate 8192 0, some 0⟩, s)
      if r.1.status ≠ .ok then (Status.io.code, r.2)
      else
        let newSize := max (h.cursor + buffer.length) (r.1.outSize.getD 0)
        let w := writeFile r.2 h.path ((overlay r.1.buffer h.cursor buffer).take newSize)
        if w.1 ≠ .ok then (Status.io.code, w.2)
        else (buffer.length, w.2.advance i buffer.length)

/-- `mutable_fs_close`. -/
def closeFile (s : Fs D) (fd : ℕ) : Status × Fs D :=
  match handleForFd s fd with
  | none => (.invalid, s)
  | some i => (.ok, s.setHandle i ⟨false, 0, 0, .empty⟩)

/-! ### Runs -/

/-- The operations that change the volume. -/
inductive Op where
  | mkdir (path : CString)
  | write (path : CString) (data : List UInt8)
  | delete (path : CString)
  | rename (oldPath newPath : CString)
  | commit
  | rollback

/-- One operation. -/
def Op.exec (s : Fs D) : Op → Status × Fs D
  | mkdir path => createDir s path
  | write path data => writeFile s path data
  | delete path => deleteNode s path
  | rename oldPath newPath => renameNode s oldPath newPath
  | commit => commitSnapshot s
  | rollback => rollbackSnapshot s

/-- The state after a list of operations, whatever they answer. -/
def runOps (s : Fs D) (os : List Op) : Fs D := os.foldl (fun s o => (o.exec s).2) s

/-- The calls of a client. -/
inductive Call where
  | op (o : Op)
  | read (path : CString) (buffer : List UInt8)
  | openFile (path : CString) (flags : UInt32)
  | readFd (fd size : ℕ)
  | writeFd (fd : ℕ) (buffer : List UInt8)
  | close (fd : ℕ)

/-- The state after one call. -/
def Call.exec (s : Fs D) : Call → Fs D
  | op o => (o.exec s).2
  | read path buffer => (readFile s path buffer).2
  | openFile path flags => (MutableFs.openFile s path flags).2
  | readFd fd size => (MutableFs.readFd s fd size).2.2
  | writeFd fd buffer => (MutableFs.writeFd s fd buffer).2
  | close fd => (closeFile s fd).2

/-- The state after a list of calls, whatever they answer. -/
def runCalls (s : Fs D) (cs : List Call) : Fs D := cs.foldl Call.exec s

/-- The state a mount works on once it has formatted the volume: mounted
read-write. -/
def formatted (s : Fs D) : Fs D :=
  { (formatVolume s).2 with mounted := true, mountFlags := mountReadWrite }

end Xaios.MutableFs
