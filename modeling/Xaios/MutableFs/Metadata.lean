import Xaios.Foundation.Codec
import Xaios.Foundation.Fnv
import Xaios.Foundation.Loop
import Xaios.MutableFs.BlockIo
import Xaios.MutableFs.Path

/-!
# The metadata image

`write_metadata` and `read_metadata` of `mutable_fs.c`, the checksum between
them, and `validate_disk`. The volume is laid down field by field in a 16 KiB
buffer of zeros: 72 bytes of geometry and generation, the committed generation,
the checksum, the bitmap and the node table. The first sixteen (version 2) or
thirty-two (version 3) sectors of the buffer go to the device.

The writer computes the checksum while the field that will hold it is zero, and
stores it afterwards; the reader computes it over the bytes as they come from
the device. In between, `mfs_checksum` blanks eight bytes of its own copy, at
offset 72.
-/

namespace Xaios.MutableFs

open Foundation BlockDevice Codec

/-! ### The layout -/

/-- The bytes of a node, 232 with the padding. -/
def nodeCodec : Codec Node :=
  (u32.prod <| u32.prod <| u32.prod <| u32.prod <| u64.prod <|
    u64.prod <| u64.prod <| u64.prod <| u64.prod <| u64.prod <|
    u16.prod <| u16.prod <| (array 16 u16).prod <|
    (array 16 u16).prod <| (array 96 u8).prod u32).map
    (fun ⟨active, snapshotActive, type, snapshotType, size, contentHash, generation, snapshotSize,
        snapshotHash, snapshotGeneration, blockCount, snapshotBlockCount, blocks, snapshotBlocks,
        path, padding⟩ =>
      ⟨active, snapshotActive, type, snapshotType, size, contentHash, generation, snapshotSize,
        snapshotHash, snapshotGeneration, blockCount, snapshotBlockCount, blocks, snapshotBlocks,
        path, padding⟩)
    (fun n => ⟨n.active, n.snapshotActive, n.type, n.snapshotType, n.size, n.contentHash,
      n.generation, n.snapshotSize, n.snapshotHash, n.snapshotGeneration, n.blockCount,
      n.snapshotBlockCount, n.blocks, n.snapshotBlocks, n.path, n.padding⟩)
    (fun _ => rfl)

/-- The fields of the volume in front of the committed generation. -/
abbrev Head := (Fin 8 → UInt8) × UInt32 × UInt32 × UInt32 × UInt32 × UInt64 × UInt64 × UInt64 ×
  UInt64 × UInt64 × UInt64

/-- The bytes of those fields, 72 of them. -/
def headCodec : Codec Head :=
  (array 8 u8).prod <| u32.prod <| u32.prod <| u32.prod <|
    u32.prod <| u64.prod <| u64.prod <| u64.prod <| u64.prod <|
    u64.prod u64

theorem width_headCodec : headCodec.width = 72 := rfl

/-- The bitmap and the node table, as far as the geometry uses them. -/
abbrev Tables (g : Geometry) := (Fin g.dataSectors → UInt8) × (Fin g.maxNodes → Node)

/-- The bytes of the bitmap and the node table. -/
def tablesCodec (g : Geometry) : Codec (Tables g) :=
  (array g.dataSectors u8).prod (array g.maxNodes nodeCodec)

/-- The whole record: head, committed generation, checksum, tables. -/
def recordCodec (g : Geometry) : Codec (Head × UInt64 × UInt64 × Tables g) :=
  headCodec.prod <| u64.prod <| u64.prod (tablesCodec g)

/-- The size of the buffer `raw`. -/
def rawBytes : ℕ := 32 * 512

theorem width_recordCodec_le (g : Geometry) : (recordCodec g).width ≤ g.metadataSectors * 512 := by
  cases g <;> decide

namespace Volume

/-- The head of a volume. -/
def head (v : Volume) : Head :=
  ⟨v.magic, v.version, v.sectorSize, v.metadataSectors, v.maxNodes, v.startSector,
    v.journalHeaderSector, v.journalDataSector, v.dataStartSector, v.dataSectors, v.generation⟩

/-- The part of the bitmap and of the node table that is laid down. -/
def tables (v : Volume) (g : Geometry) : Tables g :=
  (fun b => v.blockBitmap ⟨b, lt_of_lt_of_le b.isLt g.dataSectors_le⟩,
    fun i => v.nodes ⟨i, lt_of_lt_of_le i.isLt g.maxNodes_le⟩)

/-- The buffer `raw` with a given value in the checksum field. -/
def rawImage (v : Volume) (g : Geometry) (checksum : UInt64) : List UInt8 :=
  (recordCodec g).encode (v.head, v.committedGeneration, checksum, v.tables g) ++
    List.replicate (rawBytes - (recordCodec g).width) 0

/-- The volume `read_metadata` takes from the buffer `raw`. Nodes and bitmap
entries that the geometry does not lay down are zeroed. -/
def ofRaw (g : Geometry) (raw : List UInt8) : Volume :=
  let r := (recordCodec g).decode raw
  let h := r.1
  { magic := h.1
    version := h.2.1
    sectorSize := h.2.2.1
    metadataSectors := h.2.2.2.1
    maxNodes := h.2.2.2.2.1
    startSector := h.2.2.2.2.2.1
    journalHeaderSector := h.2.2.2.2.2.2.1
    journalDataSector := h.2.2.2.2.2.2.2.1
    dataStartSector := h.2.2.2.2.2.2.2.2.1
    dataSectors := h.2.2.2.2.2.2.2.2.2.1
    generation := h.2.2.2.2.2.2.2.2.2.2
    committedGeneration := r.2.1
    checksum := r.2.2.1
    blockBitmap := fun b => if hb : b.val < g.dataSectors then r.2.2.2.1 ⟨b, hb⟩ else 0
    nodes := fun i => if hi : i.val < g.maxNodes then r.2.2.2.2 ⟨i, hi⟩ else Node.zero }

/-- A volume that uses no node and no bitmap entry outside its geometry. -/
structure Within (v : Volume) (g : Geometry) : Prop where
  bitmap : ∀ b : Fin 256, g.dataSectors ≤ b.val → v.blockBitmap b = 0
  nodes : ∀ i : Fin 64, g.maxNodes ≤ i.val → v.nodes i = Node.zero

/-- **The two serialisers agree**: what the writer lays down the reader takes
back, field by field. -/
theorem ofRaw_rawImage {v : Volume} {g : Geometry} (h : v.Within g) (checksum : UInt64) :
    ofRaw g (v.rawImage g checksum) = { v with checksum := checksum } := by
  rw [ofRaw, rawImage, decode_append]
  apply Volume.ext <;> try rfl
  · funext b
    change (if hb : b.val < g.dataSectors then v.blockBitmap b else 0) = v.blockBitmap b
    split
    · rfl
    · exact (h.bitmap b (by omega)).symm
  · funext i
    change (if hi : i.val < g.maxNodes then v.nodes i else Node.zero) = v.nodes i
    split
    · rfl
    · exact (h.nodes i (by omega)).symm

end Volume

/-! ### The checksum -/

/-- `mfs_checksum`: the hash of a copy of the first `size` bytes in which the
eight bytes at offset 72 are blanked. -/
def mfsChecksum (raw : List UInt8) (size : ℕ) : UInt64 :=
  fnv1a64 (overlay (raw.take size) 72 (List.replicate 8 0))

/-! ### Sectors in a row -/

variable {D : Type}

section Device

variable [BlockDevice 512 D]

/-- The writing loop of `write_metadata`: `n` sectors of the buffer, from sector
`k` on. -/
def writeRaw : D → ℕ → ℕ → List UInt8 → Status × D
  | d, _, 0, _ => (.ok, d)
  | d, k, n + 1, raw =>
    let r := write d k (Sector.ofBytes 512 (raw.take 512))
    if r.1 then writeRaw r.2 (k + 1) n (raw.drop 512) else (.io, r.2)

/-- The reading loop of `read_metadata`: `n` sectors, from sector `k` on. -/
def readRaw : D → ℕ → ℕ → Option (List UInt8) × D
  | d, _, 0 => (some [], d)
  | d, k, n + 1 =>
    let r := read (n := 512) d k
    match r.1 with
    | none => (none, r.2)
    | some x =>
      let rest := readRaw r.2 (k + 1) n
      (rest.1.map (x.val ++ ·), rest.2)

/-! ### Writing and reading the metadata -/

/-- `write_metadata`. -/
def writeMetadata (s : Fs D) : Status × Fs D :=
  let raw := s.vol.rawImage s.geo 0
  let checksum := mfsChecksum raw (s.geo.metadataSectors * 512)
  let r := writeRaw s.dev startSector s.geo.metadataSectors
    (overlay raw 80 (u64.encode checksum))
  (r.1, { s with vol := { s.vol with checksum := checksum }, dev := r.2 })

/-- The geometry the reader assumes for a version found on the disk. -/
def diskGeometry (version : UInt32) : Geometry := if version = 3 then .v3 else .v2

/-- `read_metadata`. The first sector is read for the version, and the others
follow it into the buffer. -/
def readMetadata (s : Fs D) : Status × Fs D :=
  let r := read (n := 512) s.dev startSector
  match r.1 with
  | none => (.io, { s with dev := r.2 })
  | some first =>
    let g := diskGeometry (u32.decode (first.val.drop 8))
    let rest := readRaw r.2 (startSector + 1) (g.metadataSectors - 1)
    match rest.1 with
    | none => (.io, { s with dev := rest.2 })
    | some bytes =>
      let raw := first.val ++ bytes ++ List.replicate (rawBytes - g.metadataSectors * 512) 0
      (.ok, { s with
        vol := Volume.ofRaw g raw
        verifiedChecksum := mfsChecksum raw (g.metadataSectors * 512)
        dev := rest.2 })

/-- `clear_journal`. -/
def clearJournal (s : Fs D) : Status × Fs D :=
  let r := write s.dev journalHeaderSector (Sector.zero 512)
  if r.1 then
    let r' := write r.2 journalDataSector (Sector.zero 512)
    (if r'.1 then .ok else .io, { s with dev := r'.2 })
  else (.io, { s with dev := r.2 })

/-! ### Formatting and validating -/

/-- The eight bytes of `MFS_MAGIC` that are used, `XAIOSMFS`. -/
def mfsMagic : List UInt8 := [88, 65, 73, 79, 83, 77, 70, 83]

/-- The volume `format_volume` sets up. -/
def freshVolume (g : Geometry) : Volume where
  magic := fun i => mfsMagic.getD i 0
  version := g.version
  sectorSize := 512
  metadataSectors := UInt32.ofNat g.metadataSectors
  maxNodes := UInt32.ofNat g.maxNodes
  startSector := UInt64.ofNat startSector
  journalHeaderSector := UInt64.ofNat journalHeaderSector
  journalDataSector := UInt64.ofNat journalDataSector
  dataStartSector := UInt64.ofNat dataStartSector
  dataSectors := UInt64.ofNat g.dataSectors
  generation := 1
  committedGeneration := 0
  checksum := 0
  blockBitmap := fun _ => 0
  nodes := fun _ => Node.zero

/-- `format_volume`. -/
def formatVolume (s : Fs D) : Status × Fs D :=
  let r := clearJournal { s with vol := freshVolume s.geo, formatCount := s.formatCount + 1 }
  if r.1 = .ok then writeMetadata r.2 else (.io, r.2)

end Device

/-- The checks of `validate_disk` on one node. -/
def Node.valid (n : Node) (g : Geometry) : Bool :=
  !((n.active != 0 || n.snapshotActive != 0) && validatePath n.name != .ok) &&
    !(n.active != 0 && n.type != nodeDir && n.type != nodeFile) &&
    !(n.snapshotActive != 0 && n.snapshotType != nodeDir && n.snapshotType != nodeFile) &&
    n.blockCount.toNat ≤ g.fileMaxBlocks && n.snapshotBlockCount.toNat ≤ g.fileMaxBlocks &&
    n.size.toNat ≤ g.maxFileBytes && n.snapshotSize.toNat ≤ g.maxFileBytes

/-- What `Node.valid` says, check by check. -/
structure Node.Valid (n : Node) : Prop where
  path : n.active ≠ 0 ∨ n.snapshotActive ≠ 0 → validatePath n.name = .ok
  type : n.active ≠ 0 → n.type = nodeDir ∨ n.type = nodeFile
  snapshotType : n.snapshotActive ≠ 0 → n.snapshotType = nodeDir ∨ n.snapshotType = nodeFile
  blockCount : n.blockCount.toNat ≤ 16
  snapshotBlockCount : n.snapshotBlockCount.toNat ≤ 16
  size : n.size.toNat ≤ 8192
  snapshotSize : n.snapshotSize.toNat ≤ 8192

theorem Node.valid_iff {n : Node} {g : Geometry} : n.valid g = true ↔ n.Valid := by
  -- a check refuses a condition together with failures, so it is an implication
  have himp : ∀ p q : Bool, (!(p && !q)) = true ↔ (p = true → q = true) := by decide
  have himp₂ : ∀ p q r : Bool, (!(p && !q && !r)) = true ↔ (p = true → q = true ∨ r = true) := by
    decide
  have h1 := himp (n.active != 0 || n.snapshotActive != 0) (validatePath n.name == .ok)
  have h2 := himp₂ (n.active != 0) (n.type == nodeDir) (n.type == nodeFile)
  have h3 := himp₂ (n.snapshotActive != 0) (n.snapshotType == nodeDir) (n.snapshotType == nodeFile)
  simp only [Bool.or_eq_true, bne_iff_ne, beq_iff_eq] at h1 h2 h3
  rw [Node.valid, g.fileMaxBlocks_eq, g.maxFileBytes_eq]
  simp only [Bool.and_eq_true, decide_eq_true_eq]
  constructor
  · rintro ⟨⟨⟨⟨⟨⟨c1, c2⟩, c3⟩, c4⟩, c5⟩, c6⟩, c7⟩
    exact ⟨h1.mp c1, h2.mp c2, h3.mp c3, c4, c5, c6, c7⟩
  · rintro ⟨c1, c2, c3, c4, c5, c6, c7⟩
    exact ⟨⟨⟨⟨⟨⟨h1.mpr c1, h2.mpr c2⟩, h3.mpr c3⟩, c4⟩, c5⟩, c6⟩, c7⟩

/-- The checks of `validate_disk` on the header. -/
def Volume.headerValid (v : Volume) (g : Geometry) : Bool :=
  List.ofFn v.magic == mfsMagic && v.version == g.version && v.sectorSize == 512 &&
    v.metadataSectors.toNat == g.metadataSectors && v.maxNodes.toNat == g.maxNodes &&
    v.startSector.toNat == MutableFs.startSector &&
    v.journalHeaderSector.toNat == MutableFs.journalHeaderSector &&
    v.journalDataSector.toNat == MutableFs.journalDataSector &&
    v.dataStartSector.toNat == MutableFs.dataStartSector && v.dataSectors.toNat == g.dataSectors

/-- `validate_disk`. -/
def validateDisk (v : Volume) (g : Geometry) (expectedChecksum : UInt64) : Status :=
  if v.headerValid g && v.checksum == expectedChecksum && (slots g).all fun i => (v.nodes i).valid g
  then .ok else .invalid

end Xaios.MutableFs
