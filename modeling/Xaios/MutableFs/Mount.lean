import Xaios.MutableFs.Snapshot

/-!
# Mounting

`replay_journal` and `mount_volume` of `mutable_fs.c`. A mount reads the metadata,
keeps it if `validate_disk` accepts it and formats the volume otherwise, replays the
journal, and sees to the node `/`.
-/

namespace Xaios.MutableFs

open Foundation BlockDevice

/-! ### The journal record -/

/-- `xaios_mfs_journal_t`. -/
structure Journal where
  magic : Fin 8 → UInt8
  version : UInt32
  state : UInt32
  op : UInt32
  reserved : UInt32
  size : UInt64
  contentHash : UInt64
  checksum : UInt64
  path : Fin 96 → UInt8
  padding : Fin 368 → UInt8

/-- The bytes of the journal record, one sector. -/
def journalCodec : Codec Journal :=
  ((Codec.array 8 Codec.u8).prod <| Codec.u32.prod <| Codec.u32.prod <| Codec.u32.prod <|
    Codec.u32.prod <| Codec.u64.prod <| Codec.u64.prod <| Codec.u64.prod <|
    (Codec.array 96 Codec.u8).prod (Codec.array 368 Codec.u8)).map
    (fun ⟨magic, version, state, op, reserved, size, contentHash, checksum, path, padding⟩ =>
      ⟨magic, version, state, op, reserved, size, contentHash, checksum, path, padding⟩)
    (fun j => ⟨j.magic, j.version, j.state, j.op, j.reserved, j.size, j.contentHash, j.checksum,
      j.path, j.padding⟩)
    (fun _ => rfl)

/-- The eight bytes of `MFS_JOURNAL_MAGIC` that are used, `XAIOSMFJ`. -/
def journalMagic : List UInt8 := [88, 65, 73, 79, 83, 77, 70, 74]

/-- `journal_checksum`: the hash of the record with a zero checksum. -/
def journalChecksum (j : Journal) : UInt64 := fnv1a64 (journalCodec.encode { j with checksum := 0 })

/-- The record is one that asks for a file of at most one sector to be written:
version 1, pending, operation 1. -/
def Journal.pending (j : Journal) : Bool :=
  j.version == 1 && j.state == 1 && j.op == 1 && j.size != 0 && j.size.toNat ≤ 512 &&
    journalChecksum j == j.checksum && validatePath (cstr j.path) == .ok

variable {D : Type} [BlockDevice 512 D]

/-- `replay_journal`. -/
def replayJournal (s : Fs D) : Status × Fs D :=
  let r := read (n := 512) s.dev journalHeaderSector
  match r.1 with
  | none => (.io, { s with dev := r.2 })
  | some header =>
    let s := { s with dev := r.2 }
    let j := journalCodec.decode header.val
    if List.ofFn j.magic ≠ journalMagic ∨ j.state = 0 then (.ok, s)
    else if !j.pending then clearJournal s
    else
      let r := read (n := 512) s.dev journalDataSector
      match r.1 with
      | none => (.io, { s with dev := r.2 })
      | some sector =>
        let s := { s with dev := r.2 }
        let data := sector.val.take j.size.toNat
        if fnv1a64 data ≠ j.contentHash then clearJournal s
        else
          let w := writeFile s (cstr j.path) data
          if w.1 ≠ .ok then (.io, w.2)
          else
            let c := clearJournal w.2
            (if c.1 = .ok then .ok else .io, c.2)

/-! ### Mounting a volume -/

/-- The middle of both mounts: what `read_metadata` left is kept if it is valid
for the active geometry, and the volume is formatted otherwise. -/
def loadOrFormat (s : Fs D) : Status × Fs D :=
  if validateDisk s.vol s.geo s.verifiedChecksum = .ok ∧ s.vol.checksum = s.verifiedChecksum then
    (.ok, { s with bootLoadCount := s.bootLoadCount + 1 })
  else formatVolume s

/-- The last part of `mount_volume`, on a read-write mount: the node `/` is
created, restored from its snapshot or checked. -/
def mountRoot (s : Fs D) : Status × Fs D :=
  match s.vol.findNode s.geo rootPath true with
  | none =>
    let r := createDir s rootPath
    (if r.1 = .ok then .ok else .io, r.2)
  | some i =>
    if (s.vol.nodes i).active = 0 then
      let r := restoreSnapshotNode i s
      (if r.1 = .ok then .ok else .io, r.2)
    else (if (s.vol.nodes i).type = nodeDir then .ok else .invalid, s)

/-- `mount_volume`. -/
def mountVolume (s : Fs D) (mountFlags : UInt32) : Status × Fs D :=
  let s := { s with geo := .v2 }
  if capacity 512 s.dev < dataStartSector + s.geo.dataSectors then (.io, s)
  else
    let r := readMetadata { s with mountFlags := mountFlags }
    if r.1 ≠ .ok then (.io, r.2)
    else
      let l := loadOrFormat r.2
      if l.1 ≠ .ok then (.io, l.2)
      else
        let j := replayJournal { l.2 with mounted := true }
        if j.1 ≠ .ok then (.io, j.2)
        else if (j.2.mountFlags &&& mountReadWrite) ≠ 0 then mountRoot j.2
        else (.ok, j.2)

end Xaios.MutableFs
