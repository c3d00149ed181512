import Xaios.MutableFs.Frame
import Xaios.MutableFs.Runs

/-!
# Reloading a volume

What a mount finds of a volume that the operations left on the device. The image
comes back field by field (`MutableFs.readMetadata_of_onDisk`), so the two
serialisers agree. The checksums do not: the checksum is stored at offset 80, and
`mfs_checksum` blanks the eight bytes at offset 72, which are the committed
generation. The writer computes the checksum with a zero in its place, and the
reader over the stored value. They agree only if these eight bytes happen to have
the same hash as eight zeros (`MutableFs.Volume.ChecksumNeutral`); otherwise
the mount formats the volume (`MutableFs.mount_loads_iff`).
-/

namespace Xaios.MutableFs

open Foundation BlockDevice HonestDevice List Codec FaultFreeDevice Volume
  MutableFs.Geometry Fs

variable {D : Type}

/-! ### Sectors in a row -/

section Honest

variable [HonestDevice 512 D]

/-- What `n` sectors hold, from sector `k` on. -/
def rowBytes (d : D) : ℕ → ℕ → List UInt8
  | _, 0 => []
  | k, n + 1 => (content (n := 512) d k).val ++ rowBytes d (k + 1) n

theorem rowBytes_congr {d d' : D} {k n : ℕ}
    (h : ∀ j, k ≤ j → j < k + n → content (n := 512) d' j = content d j) :
    rowBytes d' k n = rowBytes d k n := by
  induction n generalizing k with
  | zero => rfl
  | succ n ih =>
    rw [rowBytes, rowBytes, h k le_rfl (by omega), ih fun j hj hlt => h j (by omega) (by omega)]

/-- **Sectors that were written hold the buffer.** -/
theorem rowBytes_writeRaw {d : D} {k n : ℕ} {raw : List UInt8} (hlen : 512 * n ≤ raw.length)
    (hok : (writeRaw d k n raw).1 = .ok) :
    rowBytes (writeRaw d k n raw).2 k n = raw.take (512 * n) := by
  induction n generalizing d k raw with
  | zero => simp [rowBytes]
  | succ n ih =>
    rw [writeRaw] at hok ⊢
    split at hok
    · rename_i hw
      rw [if_pos hw]
      have hfirst : content (writeRaw (write d k (Sector.ofBytes 512 (raw.take 512))).2
          (k + 1) n (raw.drop 512)).2 k = Sector.ofBytes 512 (raw.take 512) := by
        rw [content_writeRaw_of_not_mem _ _ _ _ (.inl (Nat.lt_succ_self k)),
          content_write_self _ _ _ hw]
      have hval : (Sector.ofBytes 512 (raw.take 512)).val = raw.take 512 :=
        Sector.ofBytes_of_length (by rw [length_take]; omega)
      rw [rowBytes, hfirst, hval, ih (by rw [length_drop]; omega) hok, ← take_add]
      congr 1
      ring
    · cases hok

end Honest

/-- **Reading sectors gives what they hold**, on a device that serves every request. -/
theorem readRaw_eq [FaultFreeDevice 512 D] {d : D} {k n : ℕ} (hcap : k + n ≤ capacity 512 d) :
    (readRaw d k n).1 = some (rowBytes d k n) := by
  induction n generalizing d k with
  | zero => rfl
  | succ n ih =>
    have hread := read_content d (by omega : k < capacity 512 d)
    have hcap' : capacity 512 (read d k).2 = capacity 512 d :=
      capacity_read d k
    have hrow : rowBytes (read d k).2 (k + 1) n = rowBytes d (k + 1) n :=
      rowBytes_congr fun j _ _ => by rw [content_read]
    rw [readRaw]
    simp only [hread]
    rw [ih (by omega), hrow]
    rfl

/-! ### The image -/

/-- Laying bytes over as many bytes. -/
theorem overlay_append (pre mid post data : List UInt8) (h : mid.length = data.length) :
    overlay (pre ++ mid ++ post) pre.length data = pre ++ data ++ post := by
  have htake : (pre ++ mid ++ post).take pre.length = pre := by
    rw [append_assoc, take_left]
  have hdrop : (pre ++ mid ++ post).drop (pre.length + data.length) = post := by
    rw [← h, ← length_append, drop_left]
  rw [overlay, htake, hdrop]

namespace Volume

variable (v : Volume) (g : Geometry)

/-- The bytes behind the checksum, as far as they are on the device. -/
def tail : List UInt8 :=
  ((tablesCodec g).encode (v.tables g) ++
    replicate (rawBytes - (recordCodec g).width) 0).take (g.metadataSectors * 512 - 88)

/-- The hash in front of the checksum: the head and the blanked bytes. -/
def headHash : UInt64 := fnv1a64 (headCodec.encode v.head ++ replicate 8 0)

/-- **The checksum does not show**: its eight bytes have the same effect on the hash as
eight zeros. -/
def ChecksumNeutral : Prop :=
  fnvFrom v.headHash (Codec.u64.encode v.checksum) = fnvFrom v.headHash (replicate 8 0)

instance : Decidable v.ChecksumNeutral := inferInstanceAs (Decidable (_ = _))

variable (checksum : UInt64)

/-- The image, field by field. -/
theorem rawImage_eq : v.rawImage g checksum =
    headCodec.encode v.head ++ Codec.u64.encode v.committedGeneration ++
      Codec.u64.encode checksum ++ ((tablesCodec g).encode (v.tables g) ++
        replicate (rawBytes - (recordCodec g).width) 0) := by
  simp only [rawImage, recordCodec, Codec.prod, append_assoc]

theorem length_rawImage : (v.rawImage g checksum).length = rawBytes := by
  have hwidth : (recordCodec g).width ≤ rawBytes := by
    cases g <;> decide
  rw [rawImage, length_append, length_encode, length_replicate]
  omega

/-- Storing the checksum in the image that was made without it. -/
theorem overlay_rawImage :
    overlay (v.rawImage g 0) 80 (Codec.u64.encode checksum) = v.rawImage g checksum := by
  rw [rawImage_eq, rawImage_eq]
  have hlen : (headCodec.encode v.head ++ u64.encode v.committedGeneration).length = 80 := by
    rw [length_append, length_encode, length_encode]
    rfl
  have hover := overlay_append (headCodec.encode v.head ++ u64.encode v.committedGeneration)
    (u64.encode 0) ((tablesCodec g).encode (v.tables g) ++
      replicate (rawBytes - (recordCodec g).width) 0) (u64.encode checksum)
    (by rw [length_encode, length_encode])
  rwa [hlen] at hover

/-- **What `mfs_checksum` hashes**: the head, eight zeros, the checksum field and the
rest. -/
theorem mfsChecksum_rawImage :
    mfsChecksum (v.rawImage g checksum) (g.metadataSectors * 512) =
      fnvFrom (fnvFrom v.headHash (Codec.u64.encode checksum)) (v.tail g) := by
  have hlen : (headCodec.encode v.head).length = 72 := headCodec.length_encode _
  have hlen' : (headCodec.encode v.head ++ u64.encode v.committedGeneration ++
      u64.encode checksum).length = 88 := by
    rw [length_append, length_append, hlen, length_encode, length_encode]
    rfl
  have hsize : 88 ≤ g.metadataSectors * 512 := by
    cases g <;> decide
  -- the device has the fields up to the checksum, and then the tail
  have htake : (v.rawImage g checksum).take (g.metadataSectors * 512) =
      headCodec.encode v.head ++ u64.encode v.committedGeneration ++
        (u64.encode checksum ++ v.tail g) := by
    rw [rawImage_eq, take_append, hlen', take_of_length_le (by rw [hlen']; exact hsize),
      append_assoc]
    rfl
  have hover := overlay_append (headCodec.encode v.head) (u64.encode v.committedGeneration)
    (u64.encode checksum ++ v.tail g) (replicate 8 0)
    (by rw [length_encode, length_replicate]; rfl)
  rw [hlen] at hover
  rw [mfsChecksum, htake, hover, fnv1a64, fnvFrom_append, fnvFrom_append]
  rfl

/-- The part of the image that goes to the device is all of it but zeros. -/
theorem take_rawImage_append :
    (v.rawImage g checksum).take (g.metadataSectors * 512) ++
      replicate (rawBytes - g.metadataSectors * 512) 0 = v.rawImage g checksum := by
  have hwidth := width_recordCodec_le g
  rw [rawImage, take_append, length_encode, take_replicate,
    take_of_length_le (by rw [length_encode]; exact hwidth), append_assoc,
    ← replicate_add]
  congr 2
  omega

/-- The version is in the first sector, behind the magic. -/
theorem decode_version :
    Codec.u32.decode (((v.rawImage g checksum).take 512).drop 8) = v.version := by
  obtain ⟨rest, hhead⟩ : ∃ rest, headCodec.encode v.head =
      (array 8 u8).encode v.magic ++ (u32.encode v.version ++ rest) := ⟨_, rfl⟩
  obtain ⟨rest', hdrop⟩ : ∃ rest', (v.rawImage g checksum).drop 8 =
      u32.encode v.version ++ rest' := by
    rw [rawImage_eq, hhead]
    simp only [append_assoc]
    exact ⟨_, drop_encode (array 8 u8) v.magic _⟩
  rw [drop_take, hdrop, take_append,
    take_of_length_le (by rw [length_encode]; decide), decode_append]

end Volume

/-! ### What is on the device -/

section Disk

variable [HonestDevice 512 D]

/-- **The volume is on the device**, with the checksum of its image. -/
structure OnDisk (s : Fs D) : Prop where
  checksum : s.vol.checksum = mfsChecksum (s.vol.rawImage s.geo 0) (s.geo.metadataSectors * 512)
  bytes : rowBytes s.dev startSector s.geo.metadataSectors =
    (s.vol.rawImage s.geo s.vol.checksum).take (s.geo.metadataSectors * 512)

theorem onDisk_writeMetadata {s : Fs D} (hok : (writeMetadata s).1 = .ok) :
    OnDisk (writeMetadata s).2 where
  checksum := rfl
  bytes := by
    dsimp only [writeMetadata] at hok ⊢
    rw [overlay_rawImage] at hok ⊢
    have hlen : 512 * s.geo.metadataSectors ≤
        (s.vol.rawImage s.geo (mfsChecksum (s.vol.rawImage s.geo 0)
          (s.geo.metadataSectors * 512))).length := by
      rw [length_rawImage]
      cases s.geo <;> decide
    rw [rowBytes_writeRaw hlen hok, Nat.mul_comm]
    rfl

end Disk

/-! ### Mounting it again -/

section Mount

variable [FaultFreeDevice 512 D]

/-- **The reader takes back what the writer laid down.** -/
theorem readMetadata_of_onDisk {s : Fs D} (boot : Fs D) (h : OnDisk s) (hgeo : s.geo = .v2)
    (hversion : s.vol.version = 2) (hwithin : s.vol.Within .v2) (hdev : boot.dev = s.dev)
    (hcap : startSector + 16 ≤ capacity 512 s.dev) :
    ∃ d, readMetadata boot = (.ok, { boot with
      vol := s.vol
      verifiedChecksum := mfsChecksum (s.vol.rawImage .v2 s.vol.checksum) (16 * 512)
      dev := d }) := by
  have hbytes := h.bytes
  rw [hgeo] at hbytes
  -- the first sector, and the others
  have hfirst : (content (n := 512) s.dev startSector).val =
      (s.vol.rawImage .v2 s.vol.checksum).take 512 := by
    have htake := congrArg (take 512) hbytes
    rw [take_take] at htake
    refine Eq.trans ?_ htake
    change _ = ((content s.dev startSector).val ++ _).take 512
    rw [take_append_of_le_length (by rw [(content s.dev startSector).2]),
      take_of_length_le (by rw [(content s.dev startSector).2])]
  have hread := read_content s.dev
    (by omega : startSector < capacity 512 s.dev)
  have hrest : (readRaw (read (n := 512) s.dev startSector).2 (startSector + 1) 15).1 =
      some (rowBytes s.dev (startSector + 1) 15) := by
    rw [readRaw_eq (by rw [capacity_read]; omega)]
    exact congrArg some (rowBytes_congr fun j _ _ => by rw [content_read])
  have hraw : (content (n := 512) s.dev startSector).val ++ rowBytes s.dev (startSector + 1) 15 ++
      replicate (rawBytes - 16 * 512) 0 = s.vol.rawImage .v2 s.vol.checksum := by
    rw [← s.vol.take_rawImage_append .v2]
    exact congrArg (· ++ replicate (rawBytes - 16 * 512) 0) hbytes
  refine ⟨(readRaw (read (n := 512) s.dev startSector).2 (startSector + 1) 15).2, ?_⟩
  have hdisk : diskGeometry 2 = .v2 := rfl
  have hsectors : v2.metadataSectors = 16 := rfl
  rw [readMetadata, hdev, hread]
  dsimp only
  rw [hfirst, decode_version, hversion, ← hfirst, hdisk, hsectors, hrest]
  dsimp only
  rw [hraw, ofRaw_rawImage hwithin]

/-- **When a volume that is on the device is kept**: exactly when the checksum does not
show. -/
theorem loadOrFormat_counts {s : Fs D} (hchecksum : s.vol.checksum =
      mfsChecksum (s.vol.rawImage .v2 0) (16 * 512))
    (hverified : s.verifiedChecksum = mfsChecksum (s.vol.rawImage .v2 s.vol.checksum) (16 * 512))
    (hgeo : s.geo = .v2) (hheader : s.vol.headerValid .v2 = true)
    (hvalid : ∀ i, (s.vol.nodes i).valid .v2 = true) :
    (s.verifiedChecksum = s.vol.checksum ↔ s.vol.ChecksumNeutral) ∧
      (s.vol.ChecksumNeutral → (loadOrFormat s).2.bootLoadCount = s.bootLoadCount + 1 ∧
        (loadOrFormat s).2.formatCount = s.formatCount) ∧
      (¬s.vol.ChecksumNeutral → (loadOrFormat s).2.bootLoadCount = s.bootLoadCount ∧
        (loadOrFormat s).2.formatCount = s.formatCount + 1) := by
  have heq : s.verifiedChecksum = s.vol.checksum ↔ s.vol.ChecksumNeutral := by
    have h1 := s.vol.mfsChecksum_rawImage .v2 s.vol.checksum
    have h0 := s.vol.mfsChecksum_rawImage .v2 0
    rw [hverified]
    conv_lhs => rhs; rw [hchecksum]
    rw [show (16 * 512 : ℕ) = v2.metadataSectors * 512 from rfl, h1, h0, fnvFrom_inj]
    have hzero : u64.encode 0 = replicate 8 0 := leBytes_zero 8
    rw [hzero]
    exact .rfl
  refine ⟨heq, fun hn => ?_, fun hn => ?_⟩
  · have hver := heq.mpr hn
    have hdisk : validateDisk s.vol s.geo s.verifiedChecksum = .ok := by
      rw [validateDisk, hgeo, hheader, hver]
      simp [hvalid]
    rw [loadOrFormat, if_pos ⟨hdisk, hver.symm⟩]
    exact ⟨rfl, rfl⟩
  · have hver : s.vol.checksum ≠ s.verifiedChecksum := fun hv => hn (heq.mp hv.symm)
    rw [loadOrFormat, if_neg fun hc => hver hc.2]
    dsimp only [formatVolume]
    have hclear := frame_clearJournal { s with
      vol := freshVolume s.geo, formatCount := s.formatCount + 1 }
    simp only [frame, Prod.mk.injEq] at hclear
    split
    · exact ⟨hclear.2.2.1, hclear.2.2.2⟩
    · exact ⟨hclear.2.2.1, hclear.2.2.2⟩

/-- The counters after a mount are those after the volume was loaded or formatted. -/
theorem counts_mountVolume {s : Fs D} {flags : UInt32} {r : Fs D}
    (hcap : dataStartSector + Geometry.v2.dataSectors ≤ capacity 512 s.dev)
    (hread : readMetadata { s with geo := .v2, mountFlags := flags } = (.ok, r)) :
    (mountVolume s flags).2.bootLoadCount = (loadOrFormat r).2.bootLoadCount ∧
      (mountVolume s flags).2.formatCount = (loadOrFormat r).2.formatCount := by
  have hframe : (mountVolume s flags).2.frame = (loadOrFormat r).2.frame := by
    unfold mountVolume
    rw [if_neg (Nat.not_lt.mpr hcap), hread]
    dsimp only
    rw [if_neg (by simp)]
    split
    · rfl
    have hjournal := (frame_replayJournal { (loadOrFormat r).2 with mounted := true }).trans
      (frame_congr rfl rfl rfl rfl)
    split
    · exact hjournal
    split
    · exact (frame_mountRoot _).trans hjournal
    · exact hjournal
  simp only [frame, Prod.mk.injEq] at hframe
  exact ⟨hframe.2.2.1, hframe.2.2.2⟩

omit [FaultFreeDevice 512 D] in
/-- The checks on the header are checks of the layout. -/
theorem headerValid_congr {v w : Volume} {g : Geometry} (h : w.layout = v.layout) :
    w.headerValid g = v.headerValid g := by
  simp only [layout, Prod.mk.injEq] at h
  obtain ⟨h1, h2, h3, h4, h5, h6, h7, h8, h9, h10⟩ := h
  simp only [headerValid, h1, h2, h3, h4, h5, h6, h7, h8, h9, h10]

/-- Formatting succeeds on a device that is large enough. -/
theorem formatVolume_ok {s : Fs D} (hgeo : s.geo = .v2)
    (hcap : dataStartSector + Geometry.v2.dataSectors ≤ capacity 512 s.dev) :
    (formatVolume s).1 = .ok ∧ ∃ t, formatVolume s = writeMetadata t := by
  have hlt : journalDataSector < capacity 512 s.dev := lt_of_lt_of_le (by decide) hcap
  have h1 := write_isOk s.dev journalHeaderSector (Sector.zero 512)
    (lt_of_lt_of_le (by decide) hcap)
  have h2 := write_isOk
    (write s.dev journalHeaderSector (Sector.zero 512)).2 journalDataSector (Sector.zero 512)
    (by rwa [capacity_write])
  have hclear : ∀ t : Fs D, t.dev = s.dev → (clearJournal t).1 = .ok ∧
      capacity 512 (clearJournal t).2.dev = capacity 512 s.dev ∧
        (clearJournal t).2.geo = t.geo := by
    intro t ht
    dsimp only [clearJournal]
    rw [ht, h1, h2]
    exact ⟨rfl, by simp, rfl⟩
  obtain ⟨hok, hcap', hgeo'⟩ := hclear { s with
    vol := freshVolume s.geo, formatCount := s.formatCount + 1 } rfl
  rw [formatVolume, if_pos hok]
  refine ⟨?_, _, rfl⟩
  refine (View.names D .v2).served.writeRaw_ok _ trivial ⟨trivial, by rw [hcap']; exact hcap⟩ ?_
  rw [hgeo', hgeo]
  decide

variable (s : Fs D) (hgeo : s.geo = .v2)
  (hcap : dataStartSector + Geometry.v2.dataSectors ≤ capacity 512 s.dev) (os : List Op)
  (hsteps : Along (fun s o => (Op.exec s o).2) (fun s o => (o.exec s).1 = .ok) (formatted s) os)
  (boot : Fs D) (hdev : boot.dev = (runOps (formatted s) os).dev) (flags : UInt32)
include hgeo hcap hsteps hdev

/-- **What a mount finds after operations that all succeeded**: the volume, and a checksum
that is the stored one only if that does not show. -/
theorem mount_after_run :
    (∃ d checksum, readMetadata { boot with geo := .v2, mountFlags := flags } = (.ok, { boot with
        geo := .v2
        mountFlags := flags
        vol := (runOps (formatted s) os).vol
        verifiedChecksum := checksum
        dev := d }) ∧
      (checksum = (runOps (formatted s) os).vol.checksum ↔
        (runOps (formatted s) os).vol.ChecksumNeutral)) ∧
      ((runOps (formatted s) os).vol.ChecksumNeutral →
        (mountVolume boot flags).2.bootLoadCount = boot.bootLoadCount + 1 ∧
          (mountVolume boot flags).2.formatCount = boot.formatCount) ∧
      (¬(runOps (formatted s) os).vol.ChecksumNeutral →
        (mountVolume boot flags).2.bootLoadCount = boot.bootLoadCount ∧
          (mountVolume boot flags).2.formatCount = boot.formatCount + 1) := by
  let V := (View.names D .v2).served
  obtain ⟨hok, t, ht⟩ := formatVolume_ok hgeo hcap
  -- the run keeps the volume on the device, and the layout
  have hstart : V.Inv (formatted s) ∧ OnDisk (formatted s) ∧
      (formatted s).vol.layout = (freshVolume .v2).layout := by
    refine ⟨V.inv_formatted hgeo ⟨trivial, hcap⟩, ?_, ?_⟩
    · have hdisk := onDisk_writeMetadata (by rw [← ht]; exact hok)
      rw [← ht] at hdisk
      exact ⟨hdisk.checksum, hdisk.bytes⟩
    · obtain ⟨-, c, hv⟩ := formatVolume_vol s
      change (formatVolume s).2.vol.layout = _
      rw [hv, hgeo]
      rfl
  obtain ⟨hinv, hdisk, hlayout⟩ := hsteps.foldl_induct (I := fun x => V.Inv x ∧ OnDisk x ∧
    x.vol.layout = (freshVolume .v2).layout) hstart fun x o hx ho => by
      obtain ⟨hxinv, hxdisk, hxlayout⟩ := hx
      refine ⟨(V.exec_refines hxinv o).1, ?_, ?_⟩
      · rcases written_exec ho with heq | ⟨u, hu⟩
        · rw [heq]
          exact hxdisk
        · rw [hu] at ho ⊢
          exact onDisk_writeMetadata ho
      · have hframe := frame_exec x o
        simp only [frame, Prod.mk.injEq] at hframe
        exact hframe.1.trans hxlayout
  change V.Inv (runOps (formatted s) os) at hinv
  change OnDisk (runOps (formatted s) os) at hdisk
  change (runOps (formatted s) os).vol.layout = _ at hlayout
  generalize runOps (formatted s) os = u at hinv hdisk hlayout hdev ⊢
  have hcapacity : dataStartSector + v2.dataSectors ≤ capacity 512 u.dev := hinv.good.2
  have hheader : u.vol.headerValid .v2 = true := (headerValid_congr hlayout).trans (by decide)
  have hversion : u.vol.version = 2 := congrArg (fun l => l.2.1) hlayout
  have hchecksum := hdisk.checksum
  rw [hinv.geo] at hchecksum
  obtain ⟨d, hread⟩ := readMetadata_of_onDisk
    { boot with geo := .v2, mountFlags := flags } hdisk hinv.geo hversion
    hinv.sound.within hdev (le_trans (by decide) hcapacity)
  generalize hverified : mfsChecksum (u.vol.rawImage .v2 u.vol.checksum) (16 * 512) = verified
    at hread
  obtain ⟨hiff, hneutral, hshows⟩ := loadOrFormat_counts (s := { boot with
      geo := .v2
      mountFlags := flags
      vol := u.vol
      verifiedChecksum := verified
      dev := d }) hchecksum hverified.symm rfl hheader hinv.sound.valid
  obtain ⟨hboot, hformat⟩ := counts_mountVolume (by rw [hdev]; exact hcapacity) hread
  rw [hboot, hformat]
  exact ⟨⟨d, verified, hread, hiff⟩, hneutral, hshows⟩

/-- **When a mount loads what the operations left.** On a device that serves every
request, after every run of operations that all succeeded, for every later mount:
the reader takes back the volume as it is in memory; but the checksum it computes
is the stored one, and the mount loads the volume and does not format it, exactly
when the checksum does not show in its own hash. -/
theorem mount_loads_iff :
    (∃ d checksum, readMetadata { boot with geo := .v2, mountFlags := flags } = (.ok, { boot with
        geo := .v2
        mountFlags := flags
        vol := (runOps (formatted s) os).vol
        verifiedChecksum := checksum
        dev := d }) ∧
      (checksum = (runOps (formatted s) os).vol.checksum ↔
        (runOps (formatted s) os).vol.ChecksumNeutral)) ∧
      ((mountVolume boot flags).2.bootLoadCount = boot.bootLoadCount + 1 ∧
          (mountVolume boot flags).2.formatCount = boot.formatCount ↔
        (runOps (formatted s) os).vol.ChecksumNeutral) := by
  obtain ⟨hread, hneutral, hshows⟩ := mount_after_run s hgeo hcap os hsteps _ hdev flags
  refine ⟨hread, ?_, hneutral⟩
  rintro ⟨-, hkept⟩
  -- a mount that formats counts it
  by_contra hn
  exact absurd (hkept.symm.trans (hshows hn).2) (Nat.ne_of_lt (Nat.lt_succ_self _))

end Mount

/-- A mount after one directory was made. -/
theorem mount_loads_iff_mkdir :
    let u := runOps blankFs [.mkdir pathD]
    let boot := Fs.boot u.dev
    (mountVolume boot mountReadWrite).2.bootLoadCount = boot.bootLoadCount + 1 ∧
        (mountVolume boot mountReadWrite).2.formatCount = boot.formatCount ↔
      u.vol.ChecksumNeutral := by
  have hsteps : ((Op.mkdir pathD).exec blankFs).1 = .ok := by
    decide +kernel
  unfold blankFs at hsteps ⊢
  intro u boot
  have h := (mount_loads_iff _ rfl (by decide) [.mkdir pathD]
    ⟨hsteps, trivial⟩ boot (dev_boot _) mountReadWrite).2
  rw [h]

/-! ### A volume that is formatted twice -/

/-- **A volume is formatted again when it is mounted again**: the disk was formatted, and
nothing else was done. The mount reads back the volume as it is, computes another checksum
than the stored one, counts no load and formats. -/
theorem mount_of_blankFs :
    (readMetadata { Fs.boot blankFs.dev with geo := .v2, mountFlags := mountReadWrite }).1 = .ok ∧
      (readMetadata { Fs.boot blankFs.dev with
        geo := .v2, mountFlags := mountReadWrite }).2.vol = blankFs.vol ∧
      (readMetadata { Fs.boot blankFs.dev with
        geo := .v2, mountFlags := mountReadWrite }).2.verifiedChecksum ≠ blankFs.vol.checksum ∧
      (mountVolume (Fs.boot blankFs.dev) mountReadWrite).2.bootLoadCount = 0 ∧
      (mountVolume (Fs.boot blankFs.dev) mountReadWrite).2.formatCount = 1 := by
  have hn : ¬blankFs.vol.ChecksumNeutral := by
    decide +kernel
  have hcap : dataStartSector + v2.dataSectors ≤
      capacity 512 (boot (MemDisk.blank 512 4096)).dev := by
    decide
  unfold blankFs at hn ⊢
  generalize hs : boot (MemDisk.blank 512 4096) = s at hn hcap ⊢
  obtain ⟨⟨d, checksum, hread, hiff⟩, -, hshows⟩ := mount_after_run s (by rw [← hs]; rfl) hcap []
    trivial (boot (formatted s).dev) (dev_boot _) mountReadWrite
  rw [hread]
  exact ⟨rfl, rfl, fun h => hn (hiff.mp h), hshows hn⟩

end Xaios.MutableFs
