import Xaios.MutableFs.RoundTrip

/-!
# The persistent geometry

Version 3 doubles the metadata to 32 sectors and keeps the sectors of the journal
and of the data where version 2 has them, directly behind 16 sectors. So
`write_metadata` writes over the journal and over the data blocks 0 to 13
(`MutableFs.Geometry.covers_v3`).

`write_file` writes the blocks first and the metadata at its end. What can then be
read back is told by `MutableFs.readFile_written_iff`: the bytes that the
blocks of the file hold after the metadata was written. If a covered block is free,
the allocator hands it out first, and the file begins with a byte of the metadata.
-/

namespace Xaios.MutableFs

open Foundation BlockDevice HonestDevice Function List Codec Volume View Node

variable {D : Type}

/-! ### What lies under the metadata -/

/-- The sectors `write_metadata` writes. -/
def Geometry.Covers (g : Geometry) (sector : ℕ) : Prop :=
  startSector ≤ sector ∧ sector < startSector + g.metadataSectors

instance (g : Geometry) (sector : ℕ) : Decidable (g.Covers sector) :=
  inferInstanceAs (Decidable (_ ∧ _))

/-- **Version 3 writes the metadata over the journal and the first data blocks.** -/
theorem Geometry.covers_v3 (b : UInt16) :
    Geometry.v3.Covers journalHeaderSector ∧ Geometry.v3.Covers journalDataSector ∧
      (Geometry.v3.Covers (absoluteDataSector b) ↔ b.toNat < 14) := by
  refine ⟨by decide, by decide, ?_⟩
  change 3072 ≤ 3090 + b.toNat ∧ 3090 + b.toNat < 3104 ↔ _
  omega

/-! ### The slot of a file -/

namespace Volume

/-- **The file is found where it was put**: no slot in front of it has the path. -/
theorem findNode_writeSlot {v : Volume} {g : Geometry} {path : CString} {i : Fin 64} {n : Node}
    (h : v.writeSlot g path = some i) (hactive : n.active ≠ 0) (hname : n.name = path) :
    (v.setNode i n).findNode g path false = some i := by
  have hmatch : ((v.setNode i n).nodes i).isMatch path false = true := by
    simp [isMatch, hactive, hname]
  -- a node that is not the new one is looked at as before
  have hother : ∀ j, j ≠ i → (v.nodes j).isMatch path true = false →
      ((v.setNode i n).nodes j).isMatch path false = false := by
    intro j hj hno
    rw [setNode_nodes, update_of_ne hj]
    simp only [isMatch, Bool.true_and, Bool.and_eq_false_iff, Bool.or_eq_false_iff] at hno ⊢
    rcases hno with ⟨ha, -⟩ | hn
    · exact .inl ⟨ha, .inl trivial⟩
    · exact .inr hn
  obtain ⟨as, bs, hslots, has⟩ : ∃ as bs, slots g = as ++ i :: bs ∧
      ∀ j ∈ as, (v.nodes j).isMatch path true = false := by
    rw [writeSlot, Option.or_eq_some_iff] at h
    rcases h with hfind | ⟨hnone, hfree⟩
    · obtain ⟨-, as, bs, hslots, has⟩ := find?_eq_some_iff_append.mp hfind
      exact ⟨as, bs, hslots, fun j hj => by simpa using has j hj⟩
    · obtain ⟨as, bs, hslots⟩ := append_of_mem (mem_of_find?_eq_some hfree)
      refine ⟨as, bs, hslots, fun j hj => ?_⟩
      simpa using find?_eq_none.mp hnone j (by rw [hslots]; simp [hj])
  refine find?_eq_some_iff_append.mpr ⟨hmatch, as, bs, hslots, fun j hj => ?_⟩
  have hne : j ≠ i := by
    rintro rfl
    have hnodup := nodup_slots g
    rw [hslots, nodup_append] at hnodup
    exact hnodup.2.2 j hj j (by simp) rfl
  rw [hother j hne (has j hj)]
  rfl

end Volume

/-! ### What `write_file` leaves -/

section Write

variable [BlockDevice 512 D]

/-- The blocks `write_file` takes. -/
def Fs.newBlocks (s : Fs D) (size : ℕ) : List UInt16 :=
  s.vol.firstFree s.geo (blockCountForSize size)

/-- The volume after a file of `size` bytes was put in slot `i`. The data shows in the hash
only. -/
def Fs.fileVolume (s : Fs D) (i : Fin 64) (path : CString) (size : ℕ) (hash : UInt64) : Volume :=
  { ((s.vol.setBits 1 (s.newBlocks size)).freeBlocks s.geo (s.vol.nodes i).liveBlocks).setNode i
      { (s.vol.nodes i).makeFile path (replicate size 0) s.vol.generation
          (s.newBlocks size) with contentHash := hash } with
    generation := s.vol.generation + 1 }

/-- What holds when `write_file` succeeds. -/
structure Wrote (s : Fs D) (path : CString) (data : List UInt8) (i : Fin 64) : Prop where
  slot : s.vol.writeSlot s.geo path = some i
  valid : validatePath path = .ok
  mounted : s.mounted = true
  size : data.length ≤ 8192
  blocks : (s.newBlocks data.length).length = blockCountForSize data.length
  stored : (writeBlocks s.dev (s.newBlocks data.length) data).1 = .ok
  eq : writeFile s path data = writeMetadata { s with
    vol := s.fileVolume i path data.length (fnv1a64 data)
    dev := (writeBlocks s.dev (s.newBlocks data.length) data).2 }

/-- The node of a file, but for the hash, depends on the size of the data. -/
theorem Node.makeFile_eq (n : Node) (path : CString) (data : List UInt8) (gen : UInt64)
    (bs : List UInt16) : n.makeFile path data gen bs =
      { n.makeFile path (replicate data.length 0) gen bs with contentHash := fnv1a64 data } := by
  simp only [makeFile, length_replicate]

theorem putFile_eq {s : Fs D} {i : Fin 64} {path : CString} {data : List UInt8} {d : D} :
    Fs.putFile { s with vol := s.vol.setBits 1 (s.newBlocks data.length), dev := d } i path data
        (s.newBlocks data.length) =
      writeMetadata { s with vol := s.fileVolume i path data.length (fnv1a64 data), dev := d } := by
  unfold Fs.putFile
  dsimp only
  rw [setBits_nodes, freeBlocks_liveBlocks, Fs.putNode, makeFile_eq]
  simp only [freeBlocks_generation, setBits_generation]
  rfl

/-- **A write that succeeds**, in one equation. -/
theorem wrote_of_ok {s : Fs D} {path : CString} {data : List UInt8}
    (hok : (writeFile s path data).1 = .ok) : ∃ i, Wrote s path data i := by
  obtain ⟨hwritable, hpath, hsize, v, bs, i, halloc, hwrite, hslot, heq⟩ := writeFile_of_ok hok
  rw [s.geo.maxFileBytes_eq] at hsize
  have hcount : blockCountForSize data.length ≤ s.geo.fileMaxBlocks := by
    rw [s.geo.fileMaxBlocks_eq]
    exact blockCountForSize_le hsize
  rw [allocateBlocks_eq _ _ hcount] at halloc
  split at halloc
  · rename_i hroom
    simp only [Prod.mk.injEq, true_and] at halloc
    obtain ⟨rfl, rfl⟩ := halloc
    refine ⟨i, ?_, hpath, ?_, hsize, ?_, hwrite, heq.trans putFile_eq⟩
    · simpa only [writeSlot, findNode, findFreeNode, setBits_nodes]
        using hslot
    · rw [Fs.writable, Bool.and_eq_true] at hwritable
      exact hwritable.1
    · rw [Fs.newBlocks, length_firstFree, Nat.min_eq_left hroom]
  · simp at halloc

end Write

/-! ### What `read_file` then gives -/

section Read

variable [HonestDevice 512 D]

theorem length_fileBytes {d : D} {bs : List UInt16} {size : ℕ} (h : size ≤ 512 * bs.length) :
    (fileBytes d bs size).length = size := by
  rw [fileBytes, length_take, length_sectorBytes, Nat.min_eq_left h]

omit [HonestDevice 512 D] in
/-- The node of the file, and where it is found. -/
theorem Wrote.node [BlockDevice 512 D] {s : Fs D} {path : CString} {data : List UInt8} {i : Fin 64}
    (h : Wrote s path data i) :
    (writeFile s path data).2.vol.findNode (writeFile s path data).2.geo path false = some i ∧
      (writeFile s path data).2.vol.nodes i = (s.vol.nodes i).makeFile path data s.vol.generation
        (s.newBlocks data.length) := by
  rw [h.eq, makeFile_eq]
  constructor
  · change (s.fileVolume i path data.length (fnv1a64 data)).findNode s.geo path false = some i
    rw [Fs.fileVolume]
    refine findNode_writeSlot ?_ (by decide : (1 : UInt32) ≠ 0) (name_copyInto h.valid)
    have hslot := h.slot
    simpa only [writeSlot, findNode, findFreeNode, freeBlocks_nodes,
      setBits_nodes] using hslot
  · exact update_self _ _ _

/-- **A file that was written is read back** exactly if its blocks still hold the data when
the metadata has been written. -/
theorem readFile_written_iff {s : Fs D} {path : CString} {data : List UInt8} {i : Fin 64}
    (h : Wrote s path data i) (buffer : List UInt8) (hbuffer : data.length ≤ buffer.length)
    (hread : (readBlocks (writeFile s path data).2.dev (s.newBlocks data.length) data.length
      buffer).1 = .ok) :
    (readFile (writeFile s path data).2 path buffer).1 =
        ⟨.ok, data ++ buffer.drop data.length, some data.length⟩ ↔
      fileBytes (writeFile s path data).2.dev (s.newBlocks data.length) data.length = data := by
  obtain ⟨hfind, hnode⟩ := h.node
  have hmounted : (writeFile s path data).2.mounted = true := by
    rw [h.eq]
    exact h.mounted
  have hbuf := readBlocks_buffer hbuffer hread
  have hlen : (fileBytes (writeFile s path data).2.dev (s.newBlocks data.length)
      data.length).length = data.length :=
    length_fileBytes (by rw [h.blocks]; exact le_mul_blockCountForSize _)
  generalize (writeFile s path data).2 = t at hfind hnode hmounted hread hbuf hlen ⊢
  have hblocks : ((s.vol.nodes i).makeFile path data s.vol.generation
      (s.newBlocks data.length)).liveBlocks = s.newBlocks data.length :=
    liveBlocks_makeFile s.vol.generation h.size h.blocks
  have hsize : ((s.vol.nodes i).makeFile path data s.vol.generation
      (s.newBlocks data.length)).size.toNat = data.length :=
    toNat_size_makeFile s.vol.generation h.size
  rw [← hnode] at hblocks hsize
  have hactive : (t.vol.nodes i).active ≠ 0 := by
    rw [hnode]
    exact (by decide : (1 : UInt32) ≠ 0)
  have htype : (t.vol.nodes i).type = nodeFile := by
    rw [hnode]
    rfl
  have hhash : (t.vol.nodes i).contentHash = fnv1a64 data := by
    rw [hnode]
    rfl
  rw [liveBlocks, if_pos ⟨hactive, htype⟩] at hblocks
  rw [readFile, if_neg (by simp [hmounted, h.valid]), hfind]
  dsimp only
  rw [if_neg (by simp [hactive, htype, hsize, hbuffer]), hblocks, hsize, hhash,
    if_neg (by simp [hread]), hbuf, overlay, hlen, take_zero, nil_append, Nat.zero_add]
  generalize fileBytes t.dev (s.newBlocks data.length) data.length = bytes at hlen ⊢
  have htake : (bytes ++ buffer.drop data.length).take data.length = bytes := by
    rw [← hlen, take_left]
  rw [htake]
  constructor
  · intro heq
    split at heq
    · cases heq
    · have hbytes := congrArg (fun r => r.buffer.take data.length) heq
      rwa [htake, take_left] at hbytes
  · rintro rfl
    rw [if_neg (by simp)]

end Read

/-! ### The byte under a block -/

/-- The hash of the contents is laid down behind the first 24 bytes of a node. -/
theorem encode_node_eq (n : Node) : ∃ before behind : List UInt8, before.length = 24 ∧
    ∀ hash, nodeCodec.encode { n with contentHash := hash } =
      before ++ (Codec.u64.encode hash ++ behind) := by
  refine ⟨u32.encode n.active ++ (u32.encode n.snapshotActive ++
      (u32.encode n.type ++ (u32.encode n.snapshotType ++ u64.encode n.size))),
    u64.encode n.generation ++ (u64.encode n.snapshotSize ++
      (u64.encode n.snapshotHash ++ (Codec.u64.encode n.snapshotGeneration ++
        (Codec.u16.encode n.blockCount ++ (Codec.u16.encode n.snapshotBlockCount ++
          ((Codec.array 16 Codec.u16).encode n.blocks ++
            ((Codec.array 16 Codec.u16).encode n.snapshotBlocks ++
              ((Codec.array 96 Codec.u8).encode n.path ++ Codec.u32.encode n.padding)))))))),
    ?_, fun hash => ?_⟩
  · simp only [length_append, Codec.length_encode, Codec.width_u32, Codec.width_u64]
  · simp only [nodeCodec, Codec.map, Codec.prod, append_assoc]

namespace Volume

variable (v : Volume) (checksum : UInt64)

/-- The image up to the nodes, and the nodes. -/
theorem rawImage_v3_eq : ∃ before : List UInt8,
    before.length = 344 ∧ v.rawImage .v3 checksum = before ++
      ((Codec.array 64 nodeCodec).encode v.nodes ++ replicate 1192 0) := by
  refine ⟨headCodec.encode v.head ++ u64.encode v.committedGeneration ++
    u64.encode checksum ++ (array 256 u8).encode v.blockBitmap, ?_, ?_⟩
  · simp only [length_append, length_encode, width_u64, width_array,
      width_u8, width_headCodec]
  · have htables : (tablesCodec .v3).encode (v.tables .v3) =
        (array 256 u8).encode v.blockBitmap ++
          (array 64 nodeCodec).encode v.nodes := rfl
    have hzeros : rawBytes - (recordCodec .v3).width = 1192 := rfl
    rw [rawImage_eq, htables, hzeros]
    simp only [append_assoc]

/-- Where the nodes are in the image. -/
theorem getElem?_rawImage_node (i : Fin 64) {r : ℕ} (hr : r < 232) :
    (v.rawImage .v3 checksum)[344 + (i.val * 232 + r)]? = (nodeCodec.encode (v.nodes i))[r]? := by
  obtain ⟨before, hlen, heq⟩ := v.rawImage_v3_eq checksum
  rw [heq, getElem?_append_right (by omega), hlen, Nat.add_sub_cancel_left]
  exact getElem?_array nodeCodec v.nodes i hr _

/-- Behind the nodes the image is zero. -/
theorem getElem?_rawImage_zero {k : ℕ} (hk : 15192 ≤ k) (hlt : k < 16384) :
    (v.rawImage .v3 checksum)[k]? = some 0 := by
  obtain ⟨before, hlen, heq⟩ := v.rawImage_v3_eq checksum
  have hnodes : ((array 64 nodeCodec).encode v.nodes).length = 14848 :=
    length_encode _ _
  rw [heq, getElem?_append_right (by omega), hlen, getElem?_append_right (by omega),
    hnodes, getElem?_replicate, if_pos (by omega)]

/-- **The byte that a covered block begins with**, as a function of the hash of one file: it
is the same for all hashes, or it is the last byte of the hash. -/
theorem covered_byte (i : Fin 64) (n : Node) {b : ℕ} (hb : b < 14) :
    (∃ x, ∀ hash checksum, ((v.setNode i { n with contentHash := hash }).rawImage .v3 checksum)[
        512 * (18 + b)]? = some x) ∨
      ∀ hash checksum, ((v.setNode i { n with contentHash := hash }).rawImage .v3 checksum)[
        512 * (18 + b)]? = some (UInt8.ofNat hash.toNat) := by
  rcases Nat.lt_or_ge b 12 with hlt | hge
  · -- the byte is byte `r` of node `j`
    obtain ⟨j, r, hr, hoff, hpos⟩ : ∃ (j : Fin 64) (r : ℕ), r < 232 ∧
        512 * (18 + b) = 344 + (j.val * 232 + r) ∧ (r < 24 ∨ r = 24 ∨ 32 ≤ r) := by
      refine ⟨⟨(8872 + 512 * b) / 232, by omega⟩, (8872 + 512 * b) % 232, by omega, ?_, ?_⟩
      · change _ = 344 + ((8872 + 512 * b) / 232 * 232 + (8872 + 512 * b) % 232)
        omega
      · -- the hash begins at a multiple of eight, and so do the blocks
        omega
    rw [hoff]
    simp only [getElem?_rawImage_node _ _ j hr, setNode_nodes]
    rcases eq_or_ne j i with rfl | hne
    · obtain ⟨before, behind, hlen, hnode⟩ := encode_node_eq n
      have h8 : ∀ hash, (u64.encode hash).length = 8 := fun hash => length_encode _ _
      simp only [update_self, hnode]
      rcases hpos with hpos | rfl | hpos
      · left
        have hbyte : ∀ hash, (before ++ (u64.encode hash ++ behind))[r]? = before[r]? :=
          fun hash => getElem?_append_left (by omega)
        simp only [hbyte]
        exact ⟨before.get ⟨r, by omega⟩, fun _ _ => getElem?_eq_getElem _⟩
      · right
        intro hash checksum
        rw [getElem?_append_right hlen.le, hlen]
        rfl
      · left
        have hbyte : ∀ hash, (before ++ (u64.encode hash ++ behind))[r]? =
            behind[r - 32]? := by
          intro hash
          rw [getElem?_append_right (by omega), hlen,
            getElem?_append_right (by rw [h8]; omega), h8]
          congr 1
        have hwidth : (nodeCodec.encode { n with contentHash := 0 }).length = 232 :=
          length_encode _ _
        rw [hnode, length_append, length_append, h8, hlen] at hwidth
        simp only [hbyte]
        exact ⟨behind.get ⟨r - 32, by omega⟩, fun _ _ => getElem?_eq_getElem _⟩
    · left
      have hwidth : (nodeCodec.encode (v.nodes j)).length = 232 := length_encode _ _
      simp only [update_of_ne hne]
      exact ⟨(nodeCodec.encode (v.nodes j)).get ⟨r, by omega⟩, fun _ _ =>
        getElem?_eq_getElem _⟩
  · left
    exact ⟨0, fun hash checksum => getElem?_rawImage_zero _ _ (by omega) (by omega)⟩

end Volume

/-! ### Which files survive -/

section Survive

variable [HonestDevice 512 D]

/-- The first byte of a sector in a row. -/
theorem getElem?_rowBytes (d : D) {k n j : ℕ} (hj : j < n) :
    (rowBytes d k n)[512 * j]? = (content (n := 512) d (k + j)).val[0]? := by
  induction n generalizing k j with
  | zero => omega
  | succ n ih =>
    have hlen : (content d k).val.length = 512 := (content d k).2
    rw [rowBytes]
    cases j with
    | zero => rw [getElem?_append_left (by omega)]; rfl
    | succ j =>
      rw [getElem?_append_right (by omega), hlen,
        show 512 * (j + 1) - 512 = 512 * j by omega, ih (by omega),
        show k + 1 + j = k + (j + 1) by omega]

/-- **Blocks that the metadata does not cover keep the file.** -/
theorem fileBytes_of_not_covered {s : Fs D} {path : CString} {data : List UInt8} {i : Fin 64}
    (h : Wrote s path data i)
    (hfree : ∀ b ∈ s.newBlocks data.length, ¬s.geo.Covers (absoluteDataSector b)) :
    fileBytes (writeFile s path data).2.dev (s.newBlocks data.length) data.length = data := by
  have hstored := fileBytes_writeBlocks (nodup_firstFree _ _ _)
    (by rw [← Fs.newBlocks, h.blocks]; exact le_mul_blockCountForSize _) h.stored
  refine Eq.trans ?_ hstored
  rw [h.eq, fileBytes, fileBytes]
  congr 1
  refine sectorBytes_congr fun b hb => content_writeRaw_of_not_mem _ _ _ _ ?_
  -- a sector that is not covered is in front of the metadata or behind it
  have hcovers := hfree b hb
  change absoluteDataSector b < startSector ∨ startSector + s.geo.metadataSectors ≤ _
  unfold Geometry.Covers at hcovers
  omega

/-- **A file in a covered block begins with a byte of the metadata.** -/
theorem head_of_covered {s : Fs D} {path : CString} {data : List UInt8} {i : Fin 64}
    (h : Wrote s path data i) (hok : (writeFile s path data).1 = .ok) (hgeo : s.geo = .v3)
    {b : UInt16} {bs : List UInt16} (hblocks : s.newBlocks data.length = b :: bs)
    (hb : b.toNat < 14) (hpos : 0 < data.length)
    (hread : fileBytes (writeFile s path data).2.dev (s.newBlocks data.length) data.length = data) :
    ∃ checksum, data[0]? = ((s.fileVolume i path data.length (fnv1a64 data)).rawImage .v3 checksum)[
      512 * (18 + b.toNat)]? := by
  rw [h.eq] at hok
  obtain ⟨checksum, hrow⟩ : ∃ checksum, rowBytes (writeMetadata _).2.dev startSector
      s.geo.metadataSectors = ((s.fileVolume i path data.length (fnv1a64 data)).rawImage s.geo
        checksum).take (s.geo.metadataSectors * 512) := ⟨_, (onDisk_writeMetadata hok).bytes⟩
  rw [← h.eq] at hrow
  generalize (writeFile s path data).2.dev = d at hrow hread
  rw [hgeo] at hrow
  refine ⟨checksum, ?_⟩
  have hsector : absoluteDataSector b = startSector + (18 + b.toNat) := by
    change 3090 + b.toNat = 3072 + (18 + b.toNat)
    omega
  calc data[0]? = (fileBytes d (b :: bs) data.length)[0]? := by rw [← hblocks, hread]
    _ = (content d (absoluteDataSector b)).val[0]? := by
      rw [fileBytes, getElem?_take_of_lt hpos, sectorBytes_cons, getElem?_append_left]
      rw [(content d (absoluteDataSector b)).2]
      decide
    _ = (rowBytes d startSector 32)[512 * (18 + b.toNat)]? := by
      rw [getElem?_rowBytes d (by omega), hsector]
    _ = _ := by
      rw [show 32 = Geometry.v3.metadataSectors from rfl, hrow]
      exact getElem?_take_of_lt (by change _ < 32 * 512; omega)

end Survive

/-! ### Free blocks in front -/

namespace Volume

/-- A free block in front of `k` is handed out before all blocks from `k` on. -/
theorem firstFree_eq_cons {v : Volume} {g : Geometry} {b k count : ℕ} (hb : b < k)
    (hk : k ≤ g.dataSectors) (hfree : v.bit b = 0) (hcount : 0 < count) :
    ∃ c cs, v.firstFree g count = c :: cs ∧ c.toNat < k := by
  have hmem : b ∈ v.freeList g := by
    refine mem_filter.mpr ⟨mem_range.mpr (by omega), by simp [hfree]⟩
  have hsorted : (v.freeList g).Pairwise (· < ·) := pairwise_lt_range.filter _
  obtain ⟨count, rfl⟩ := Nat.exists_eq_succ_of_ne_zero (Nat.ne_of_gt hcount)
  cases hlist : v.freeList g with
  | nil =>
    rw [hlist] at hmem
    cases hmem
  | cons c cs =>
    have hc := toNat_ofNat_of_mem_freeList (b := c) (by rw [hlist]; simp)
    refine ⟨UInt16.ofNat c, (cs.take count).map UInt16.ofNat, by rw [firstFree, hlist]; rfl, ?_⟩
    rw [hc]
    rw [hlist] at hmem hsorted
    rcases mem_cons.mp hmem with rfl | hmem
    · exact hb
    · exact lt_trans ((pairwise_cons.mp hsorted).1 b hmem) hb

end Volume

/-- The last byte of the hash of `%` and zeros is zero: the first step makes it zero, and
the others multiply. -/
theorem fnv1a64_percent (n : ℕ) :
    UInt8.ofNat (fnv1a64 (37 :: replicate n 0)).toNat = 0 := by
  have hstep : (fnvStep fnvOffset 37).toNat = 256 * 49367626694394233 := by decide +kernel
  have hmod : (fnv1a64 (37 :: replicate n 0)).toNat % 256 = 0 := by
    rw [fnv1a64, fnvFrom_cons, toNat_fnvFrom_replicate_zero, hstep,
      Nat.mod_mod_of_dvd _ (by decide : 256 ∣ 2 ^ 64), Nat.mul_assoc, Nat.mul_mod_right]
  rw [← UInt8.toNat_inj, UInt8.toNat_ofNat', hmod]
  rfl

section Persistent

variable [FaultFreeDevice 512 D]

/-- Reading the blocks of a file that was written, on a device that serves every request. -/
theorem readBlocks_written {s : Fs D} (hinv : (View.names D .v3).served.Inv s) {path : CString}
    {data : List UInt8} (buffer : List UInt8) :
    (readBlocks (writeFile s path data).2.dev (s.newBlocks data.length) data.length buffer).1 =
      .ok := by
  refine (names D .v3).served.readBlocksFrom_ok _ _ _ trivial
    ((names D .v3).served.writeFile_refines hinv path data).1.good fun b hb => ?_
  rw [← hinv.geo]
  exact (mem_firstFree hb).1

/-- **Which files can be read back on a persistent volume.** After every run, for every path
and every size for which a write succeeds: all data of this size is read back exactly when
there is none, or no block under the metadata is free. -/
theorem readFile_writeFile_iff (s : Fs D) (hgeo : s.geo = .v3)
    (hcap : dataStartSector + Geometry.v3.dataSectors ≤ capacity 512 s.dev) (cs : List Call)
    (path : CString) (n : ℕ)
    (hok : ∀ data, data.length = n →
      (writeFile (runCalls (formatted s) cs) path data).1 = .ok) :
    (∀ data buffer, data.length = n → n ≤ buffer.length →
      (readFile (writeFile (runCalls (formatted s) cs) path data).2 path buffer).1 =
        ⟨.ok, data ++ buffer.drop n, some n⟩) ↔
      n = 0 ∨ ∀ b < 14, (runCalls (formatted s) cs).vol.bit b ≠ 0 := by
  let V := (names D .v3).served
  have hinv : V.Inv (runCalls (formatted s) cs) :=
    V.inv_runCalls (V.inv_formatted hgeo ⟨trivial, hcap⟩) cs
  generalize runCalls (formatted s) cs = u at hinv hok ⊢
  constructor
  · intro hall
    by_contra hno
    obtain ⟨hn, hfree⟩ := not_or.mp hno
    obtain ⟨b, hb, hbit⟩ : ∃ b < 14, u.vol.bit b = 0 := by simpa using hfree
    have hcount : 0 < blockCountForSize n := by
      unfold blockCountForSize
      omega
    obtain ⟨c, bs, hblocks, hc⟩ := firstFree_eq_cons (g := u.geo) hb
      (by rw [hinv.geo]; decide) hbit hcount
    obtain ⟨m, rfl⟩ := Nat.exists_eq_succ_of_ne_zero hn
    obtain ⟨i, hi⟩ := wrote_of_ok (hok (replicate (m + 1) 0) (by simp))
    -- the first byte of every file is a byte of the image
    have hhead : ∀ data, data.length = m + 1 → ∃ checksum, data[0]? =
        ((u.fileVolume i path (m + 1) (fnv1a64 data)).rawImage .v3 checksum)[
          512 * (18 + c.toNat)]? := by
      intro data hlen
      obtain ⟨j, hj⟩ := wrote_of_ok (hok data hlen)
      obtain rfl : j = i := Option.some.inj (hj.slot.symm.trans hi.slot)
      have hread := (readFile_written_iff hj _ le_rfl (readBlocks_written hinv data)).mp
        (by rw [hlen]; exact hall data data hlen hlen.ge)
      rw [← hlen]
      exact head_of_covered hj (hok data hlen) hinv.geo (by rw [Fs.newBlocks, hlen, hblocks]) hc
        (by omega) hread
    obtain ⟨chk, h37⟩ := hhead (37 :: replicate m 0) (by simp)
    rcases covered_byte { (u.vol.setBits 1 (u.newBlocks (m + 1))).freeBlocks u.geo
        (u.vol.nodes i).liveBlocks with generation := u.vol.generation + 1 } i
      ((u.vol.nodes i).makeFile path (replicate (m + 1) 0) u.vol.generation
        (u.newBlocks (m + 1))) hc with ⟨x, hx⟩ | hx
    · obtain ⟨chk', h0⟩ := hhead (0 :: replicate m 0) (by simp)
      have h := (h37.trans (hx _ chk)).trans (h0.trans (hx _ chk')).symm
      simp at h
    · have h := h37.trans (hx _ chk)
      rw [fnv1a64_percent] at h
      simp at h
  · rintro hfree data buffer rfl hbuffer
    obtain ⟨i, h⟩ := wrote_of_ok (hok data rfl)
    refine (readFile_written_iff h buffer hbuffer (readBlocks_written hinv buffer)).mpr
      (fileBytes_of_not_covered h fun b hb => ?_)
    rw [hinv.geo, (Geometry.covers_v3 b).2.2, Nat.not_lt]
    rcases hfree with hzero | hfree
    · rw [Fs.newBlocks, hzero] at hb
      cases hb
    · by_contra hlt
      exact hfree _ (not_le.mp hlt) (mem_firstFree hb).2

end Persistent

/-! ### A fresh persistent volume -/

/-- A freshly formatted persistent volume on a disk in memory. -/
def persistentFs : Fs (MemDisk 512) :=
  formatted { Fs.boot (MemDisk.blank 512 4096) with geo := .v3 }

theorem inv_persistentFs : (View.names (MemDisk 512) .v3).served.Inv persistentFs :=
  (names (MemDisk 512) .v3).served.inv_formatted rfl ⟨trivial, by decide⟩

/-- One byte can be written to it. -/
theorem write_persistentFs (x : UInt8) :
    (writeFile persistentFs pathA [x]).1 = .ok := by
  let V := (names (MemDisk 512) .v3).served
  have hexec := V.exec_of_reliable inv_persistentFs trivial
    (.write pathA [x])
  have htree : V.tree persistentFs = Tree.fresh Unit := V.tree_formatted _
  rw [htree] at hexec
  refine (congrArg Prod.fst hexec).trans ?_
  change (Tree.write .v3 .none (Tree.fresh Unit) pathA 1 (fnv1a64 [x]) ()).1 = _
  generalize fnv1a64 [x] = hash
  rfl

/-- Files of one byte on the fresh volume. -/
theorem readFile_writeFile_iff_byte :
    (∀ data buffer : List UInt8, data.length = 1 → 1 ≤ buffer.length →
      (readFile (writeFile (runCalls persistentFs []) pathA data).2
        pathA buffer).1 = ⟨.ok, data ++ buffer.drop 1, some 1⟩) ↔
      1 = 0 ∨ ∀ b < 14, (runCalls persistentFs []).vol.bit b ≠ 0 := by
  refine readFile_writeFile_iff _ rfl (by decide) [] _ 1 fun data hlen => ?_
  obtain ⟨x, rfl⟩ := length_eq_one_iff.mp hlen
  exact write_persistentFs x

/-- **A byte that is lost.** The first file of a persistent volume gets block 0, which is
sector 18 of the metadata: the byte 1 is written, and the metadata puts a zero there. -/
theorem read_of_persistentFs :
    (writeFile persistentFs pathA [1]).1 = .ok ∧
      (readFile (writeFile persistentFs pathA [1]).2
        pathA [0]).1 ≠ ⟨.ok, [1], some 1⟩ ∧
      Geometry.v3.Covers journalHeaderSector ∧ Geometry.v3.Covers journalDataSector ∧
      Geometry.v3.Covers (absoluteDataSector 0) := by
  have h : (writeFile persistentFs pathA [1]).1 = .ok ∧
      (readFile (writeFile persistentFs pathA [1]).2
        pathA [0]).1.buffer ≠ [1] := by
    decide +kernel
  exact ⟨h.1, fun hread => h.2 (congrArg ReadResult.buffer hread), by decide, by decide, by decide⟩

end Xaios.MutableFs
