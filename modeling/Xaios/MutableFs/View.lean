import Xaios.MutableFs.Ownership
import Xaios.MutableFs.Tree

/-!
# Looking at a volume as a tree

A `MutableFs.View` says how to read the contents of a block list off a
device, and what is known of the device. Through it the globals are a
`MutableFs.Tree`, the nodes being the entries (`View.tree`).

There are three views. `View.names` reads nothing and asks nothing of the
device, and `View.bytes` reads the bytes of the file on an honest device in the
version 2 geometry, where writing the metadata touches no data block. Either of
them can be used with a device that serves every request (`View.served`).
-/

namespace Xaios.MutableFs

open Foundation BlockDevice

variable {D β : Type}

/-! ### Views -/

/-- A way to read contents off a device, with the laws the operations need. -/
structure View (D : Type) [BlockDevice 512 D] (g : Geometry) (β : Type) [Inhabited β] where
  /-- The contents of a block list, cut at a size. -/
  file : D → List UInt16 → ℕ → β
  /-- The contents a byte string is. -/
  ofBytes : List UInt8 → β
  /-- What is known of the device. -/
  good : D → Prop
  /-- Whether requests in the region of the volume are always served. -/
  reliable : Prop
  file_nil : ∀ d size, file d [] size = default
  file_write : ∀ {d bs data}, bs.Nodup → data.length ≤ 512 * bs.length →
    (writeBlocks d bs data).1 = .ok → file (writeBlocks d bs data).2 bs data.length = ofBytes data
  file_write_of_disjoint : ∀ d {bs cs} data size, (∀ c ∈ cs, c ∉ bs) →
    file (writeBlocks d bs data).2 cs size = file d cs size
  file_read : ∀ d bs size buffer cs size',
    file (readBlocks d bs size buffer).2.2 cs size' = file d cs size'
  file_copy : ∀ {d e bs cs size buffer}, size ≤ buffer.length →
    (readBlocks d bs size buffer).1 = .ok → cs.Nodup → cs.length = bs.length →
    (writeBlocks e cs ((readBlocks d bs size buffer).2.1.take size)).1 = .ok →
    file (writeBlocks e cs ((readBlocks d bs size buffer).2.1.take size)).2 cs size =
      file d bs size
  file_metadata : ∀ d raw cs size,
    file (writeRaw d startSector g.metadataSectors raw).2 cs size = file d cs size
  good_read : ∀ {d} k, good d → good (read (n := 512) d k).2
  good_write : ∀ {d} k x, good d → good (write (n := 512) d k x).2
  serves_read : ∀ {d k}, reliable → good d → k < dataStartSector + g.dataSectors →
    (read (n := 512) d k).1.isSome
  serves_write : ∀ {d k} x, reliable → good d → k < dataStartSector + g.dataSectors →
    (write (n := 512) d k x).1 = true

/-- The view that reads nothing, of any device. -/
def View.names (D : Type) [BlockDevice 512 D] (g : Geometry) : View D g Unit where
  file := fun _ _ _ => ()
  ofBytes := fun _ => ()
  good := fun _ => True
  reliable := False
  file_nil := fun _ _ => rfl
  file_write := fun _ _ _ => rfl
  file_write_of_disjoint := fun _ _ _ _ _ _ => rfl
  file_read := fun _ _ _ _ _ _ => rfl
  file_copy := fun _ _ _ _ _ => rfl
  file_metadata := fun _ _ _ _ => rfl
  good_read := fun _ _ => trivial
  good_write := fun _ _ _ => trivial
  serves_read := fun h => h.elim
  serves_write := fun _ h => h.elim

/-- Writing sectors in a row touches no other sector. -/
theorem content_writeRaw_of_not_mem [HonestDevice 512 D] (d : D) (k n : ℕ) (raw : List UInt8)
    {j : ℕ} (hj : j < k ∨ k + n ≤ j) :
    HonestDevice.content (n := 512) (writeRaw d k n raw).2 j = HonestDevice.content d j := by
  induction n generalizing d k raw with
  | zero => rfl
  | succ n ih =>
    rw [writeRaw]
    split
    · rw [ih _ _ _ (by omega), HonestDevice.content_write_of_ne _ _ _ _ (by omega)]
    · exact HonestDevice.content_write_of_ne _ _ _ _ (by omega)

theorem fileBytes_readBlocks [HonestDevice 512 D] (d : D) (bs : List UInt16) (size : ℕ)
    (buffer : List UInt8) (cs : List UInt16) (size' : ℕ) :
    fileBytes (readBlocks d bs size buffer).2.2 cs size' = fileBytes d cs size' := by
  have hsectors : sectorBytes (readBlocks d bs size buffer).2.2 cs = sectorBytes d cs :=
    sectorBytes_congr fun c _ => by rw [readBlocks, content_readBlocksFrom]
  rw [fileBytes, hsectors, fileBytes]

/-- The metadata of version 2 ends before the data region. -/
theorem fileBytes_writeRaw [HonestDevice 512 D] (d : D) (raw : List UInt8) (cs : List UInt16)
    (size : ℕ) :
    fileBytes (writeRaw d startSector Geometry.v2.metadataSectors raw).2 cs size =
      fileBytes d cs size := by
  have hsectors : sectorBytes (writeRaw d startSector Geometry.v2.metadataSectors raw).2 cs =
      sectorBytes d cs := by
    refine sectorBytes_congr fun c _ => content_writeRaw_of_not_mem _ _ _ _ (.inr ?_)
    change startSector + 16 ≤ startSector + 16 + 2 + c.toNat
    omega
  rw [fileBytes, hsectors, fileBytes]

/-- The view of the bytes, of an honest device in the version 2 geometry. -/
def View.bytes (D : Type) [HonestDevice 512 D] : View D .v2 (List UInt8) where
  file := fileBytes
  ofBytes := id
  good := fun _ => True
  reliable := False
  file_nil := fun _ _ => List.take_nil
  file_write := fileBytes_writeBlocks
  file_write_of_disjoint := fileBytes_writeBlocks_of_disjoint
  file_read := fileBytes_readBlocks
  file_copy := fileBytes_copy
  file_metadata := fileBytes_writeRaw
  good_read := fun _ _ => trivial
  good_write := fun _ _ _ => trivial
  serves_read := fun h => h.elim
  serves_write := fun _ h => h.elim

/-- A view of a device that serves every request, when it is large enough. -/
def View.served [FaultFreeDevice 512 D] {g : Geometry} [Inhabited β] (V : View D g β) :
    View D g β :=
  { V with
    good := fun d => V.good d ∧ dataStartSector + g.dataSectors ≤ capacity 512 d
    reliable := True
    good_read := fun k h =>
      ⟨V.good_read k h.1, by rw [FaultFreeDevice.capacity_read]; exact h.2⟩
    good_write := fun k x h =>
      ⟨V.good_write k x h.1, by rw [FaultFreeDevice.capacity_write]; exact h.2⟩
    serves_read := fun _ h hk => FaultFreeDevice.read_isSome _ _ (lt_of_lt_of_le hk h.2)
    serves_write := fun x _ h hk => FaultFreeDevice.write_isOk _ _ x (lt_of_lt_of_le hk h.2) }

namespace View

variable [BlockDevice 512 D] [Inhabited β] {g : Geometry} (V : View D g β)

/-! ### The loops on a view -/

theorem good_writeBlocks {d : D} (bs : List UInt16) (data : List UInt8) (h : V.good d) :
    V.good (writeBlocks d bs data).2 := by
  induction bs generalizing d data with
  | nil => exact h
  | cons b bs ih =>
    rw [writeBlocks]
    split
    · exact ih _ (V.good_write _ _ h)
    · exact V.good_write _ _ h

theorem good_readBlocksFrom {d : D} (bs : List UInt16) (size offset : ℕ) (buffer : List UInt8)
    (h : V.good d) : V.good (readBlocksFrom d bs size offset buffer).2.2 := by
  induction bs generalizing d offset buffer with
  | nil => exact h
  | cons b bs ih =>
    rw [readBlocksFrom]
    split
    · exact V.good_read _ h
    · exact ih _ _ (V.good_read _ h)

theorem good_writeRaw {d : D} (k n : ℕ) (raw : List UInt8) (h : V.good d) :
    V.good (writeRaw d k n raw).2 := by
  induction n generalizing d k raw with
  | zero => exact h
  | succ n ih =>
    rw [writeRaw]
    split
    · exact ih _ _ (V.good_write _ _ h)
    · exact V.good_write _ _ h

/-- A reliable device writes blocks of the data region. -/
theorem writeBlocks_ok {d : D} {bs : List UInt16} (data : List UInt8) (hr : V.reliable)
    (h : V.good d) (hbs : ∀ b ∈ bs, b.toNat < g.dataSectors) : (writeBlocks d bs data).1 = .ok := by
  induction bs generalizing d data with
  | nil => rfl
  | cons b bs ih =>
    have hb : absoluteDataSector b < dataStartSector + g.dataSectors :=
      Nat.add_lt_add_left (hbs b (by simp)) _
    rw [writeBlocks, if_pos (V.serves_write _ hr h hb)]
    exact ih _ (V.good_write _ _ h) fun c hc => hbs c (by simp [hc])

/-- A reliable device reads blocks of the data region. -/
theorem readBlocksFrom_ok {d : D} {bs : List UInt16} (size offset : ℕ) (buffer : List UInt8)
    (hr : V.reliable) (h : V.good d) (hbs : ∀ b ∈ bs, b.toNat < g.dataSectors) :
    (readBlocksFrom d bs size offset buffer).1 = .ok := by
  induction bs generalizing d offset buffer with
  | nil => rfl
  | cons b bs ih =>
    have hb : absoluteDataSector b < dataStartSector + g.dataSectors :=
      Nat.add_lt_add_left (hbs b (by simp)) _
    obtain ⟨x, hx⟩ := Option.isSome_iff_exists.mp (V.serves_read hr h hb)
    rw [readBlocksFrom]
    simp only [hx]
    exact ih _ _ (V.good_read _ h) fun c hc => hbs c (by simp [hc])

/-- A reliable device writes sectors in a row. -/
theorem writeRaw_ok {d : D} {k n : ℕ} (raw : List UInt8) (hr : V.reliable) (h : V.good d)
    (hk : k + n ≤ dataStartSector + g.dataSectors) : (writeRaw d k n raw).1 = .ok := by
  induction n generalizing d k raw with
  | zero => rfl
  | succ n ih =>
    rw [writeRaw, if_pos (V.serves_write _ hr h (by omega))]
    exact ih _ (V.good_write _ _ h) (by omega)

end View

end Xaios.MutableFs
