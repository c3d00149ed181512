import Mathlib.Tactic.Ring
import Xaios.MutableFs.Volume

/-!
# Data blocks: reading and writing file contents

`write_blocks` and `read_blocks` of `mutable_fs.c`. A file of `size` bytes is cut
into sectors, the last one filled up with zeros; reading puts the sectors one
behind the other and copies no more than `size` bytes.

On a device that returns what was written, the bytes a block list holds are
`MutableFs.fileBytes`: writing makes them the data
(`MutableFs.fileBytes_writeBlocks`), touches no other block
(`MutableFs.content_writeBlocks_of_not_mem`), and reading fills the buffer
with them (`MutableFs.readBlocks_buffer`).
-/

namespace Xaios.MutableFs

open Foundation BlockDevice HonestDevice List

variable {D : Type}

/-- `absolute_data_sector`. -/
def absoluteDataSector (b : UInt16) : ℕ := dataStartSector + b.toNat

theorem absoluteDataSector_inj {b c : UInt16} (h : absoluteDataSector b = absoluteDataSector c) :
    b = c :=
  UInt16.toNat_inj.mp (by simpa [absoluteDataSector] using h)

/-- `block_count_for_size`. -/
def blockCountForSize (size : ℕ) : ℕ := (size + 511) / 512

/-! ### The loops -/

section Loops

variable [BlockDevice 512 D]

/-- `write_blocks`: each block gets the next 512 bytes of the data, in a sector
buffer that was zeroed first. -/
def writeBlocks : D → List UInt16 → List UInt8 → Status × D
  | d, [], _ => (.ok, d)
  | d, b :: bs, data =>
    let r := write d (absoluteDataSector b) (Sector.ofBytes 512 (data.take 512))
    if r.1 then writeBlocks r.2 bs (data.drop 512) else (.io, r.2)

/-- `bytes_copy(buffer + offset, data, …)`. -/
def overlay (buffer : List UInt8) (offset : ℕ) (data : List UInt8) : List UInt8 :=
  buffer.take offset ++ data ++ buffer.drop (offset + data.length)

/-- The loop of `read_blocks` from a block on that starts at `offset`. -/
def readBlocksFrom : D → List UInt16 → ℕ → ℕ → List UInt8 → Status × List UInt8 × D
  | d, [], _, _, buffer => (.ok, buffer, d)
  | d, b :: bs, size, offset, buffer =>
    let r := read (n := 512) d (absoluteDataSector b)
    match r.1 with
    | none => (.io, buffer, r.2)
    | some x =>
      readBlocksFrom r.2 bs size (offset + 512)
        (overlay buffer offset (x.val.take (min (size - offset) 512)))

/-- `read_blocks`. -/
def readBlocks (d : D) (bs : List UInt16) (size : ℕ) (buffer : List UInt8) :
    Status × List UInt8 × D :=
  readBlocksFrom d bs size 0 buffer

@[simp] theorem writeBlocks_nil (d : D) (data : List UInt8) :
    writeBlocks d [] data = (.ok, d) := rfl

end Loops

/-! ### What the blocks hold -/

section Honest

variable [HonestDevice 512 D]

/-- The sectors of a block list, one behind the other. -/
def sectorBytes (d : D) (bs : List UInt16) : List UInt8 :=
  (bs.map fun b => (content (n := 512) d (absoluteDataSector b)).val).flatten

/-- **The bytes of a file**: its sectors one behind the other, cut at its size. -/
def fileBytes (d : D) (bs : List UInt16) (size : ℕ) : List UInt8 := (sectorBytes d bs).take size

@[simp] theorem sectorBytes_nil (d : D) : sectorBytes d [] = [] := rfl

@[simp] theorem sectorBytes_cons (d : D) (b : UInt16) (bs : List UInt16) :
    sectorBytes d (b :: bs) =
      (content (n := 512) d (absoluteDataSector b)).val ++ sectorBytes d bs := rfl

theorem length_sectorBytes (d : D) (bs : List UInt16) :
    (sectorBytes d bs).length = 512 * bs.length := by
  induction bs with
  | nil => rfl
  | cons b bs ih =>
    rw [sectorBytes_cons, length_append, ih, (content d (absoluteDataSector b)).2,
      length_cons]
    ring

variable {bs : List UInt16}

variable {d : D}

/-- The bytes of a file depend on its blocks only. -/
theorem sectorBytes_congr {d' : D}
    (h : ∀ b ∈ bs,
      content (n := 512) d' (absoluteDataSector b) = content d (absoluteDataSector b)) :
    sectorBytes d' bs = sectorBytes d bs := by
  unfold sectorBytes
  rw [map_congr_left fun b hb => by rw [h b hb]]

/-! ### Writing -/

/-- **Writing blocks touches those blocks only**, whether or not it succeeds. -/
theorem content_writeBlocks_of_not_mem (d : D) (bs : List UInt16) (data : List UInt8) {k : ℕ}
    (hk : ∀ b ∈ bs, k ≠ absoluteDataSector b) :
    content (n := 512) (writeBlocks d bs data).2 k = content d k := by
  induction bs generalizing d data with
  | nil => rfl
  | cons b bs ih =>
    have hne : k ≠ absoluteDataSector b := hk b (by simp)
    rw [writeBlocks]
    split
    · rw [ih _ _ fun c hc => hk c (by simp [hc]), content_write_of_ne _ _ _ _ hne]
    · exact content_write_of_ne _ _ _ _ hne

/-- The zeros that fill up the last sector. -/
theorem ofBytes_append_take (data : List UInt8) (m : ℕ) :
    (Sector.ofBytes 512 (data.take 512)).val ++ (data.drop 512 ++ replicate m 0).take m =
      (data ++ replicate (512 + m) 0).take (512 + m) := by
  change (data.take 512 ++ replicate 512 0).take 512 ++ _ = _
  rcases Nat.lt_or_ge data.length 512 with h | h
  · rw [take_of_length_le h.le, drop_eq_nil_of_le h.le, nil_append,
      take_of_length_le (by simp : (replicate m (0 : UInt8)).length ≤ m),
      take_append, take_append, take_of_length_le h.le,
      take_of_length_le (by omega : data.length ≤ 512 + m), take_replicate,
      take_replicate, append_assoc, replicate_append_replicate]
    congr 2
    omega
  · have h512 : (data.take 512).length = 512 := by simp [h]
    rw [take_append_of_le_length h512.ge, take_of_length_le h512.le, take_add,
      take_append_of_le_length h, drop_append_of_le_length h]
    congr 1
    rw [take_append, take_append, take_replicate, take_replicate]
    congr 2
    omega

/-- **What a successful write leaves**: the data, filled up with zeros. -/
theorem sectorBytes_writeBlocks {data : List UInt8} (hnd : bs.Nodup)
    (hok : (writeBlocks d bs data).1 = .ok) :
    sectorBytes (writeBlocks d bs data).2 bs =
      (data ++ replicate (512 * bs.length) 0).take (512 * bs.length) := by
  induction bs generalizing d data with
  | nil => simp
  | cons b bs ih =>
    obtain ⟨hb, hnd'⟩ := nodup_cons.mp hnd
    rw [writeBlocks] at hok ⊢
    by_cases hw : (write d (absoluteDataSector b) (Sector.ofBytes 512 (data.take 512))).1 = true
    · rw [if_pos hw] at hok ⊢
      have hhead : content (writeBlocks (write d (absoluteDataSector b)
          (Sector.ofBytes 512 (data.take 512))).2 bs (data.drop 512)).2 (absoluteDataSector b) =
          Sector.ofBytes 512 (data.take 512) := by
        rw [content_writeBlocks_of_not_mem, content_write_self _ _ _ hw]
        intro c hc h
        exact hb (absoluteDataSector_inj h ▸ hc)
      rw [sectorBytes_cons, hhead, ih hnd' hok, ofBytes_append_take, length_cons,
        show 512 * (bs.length + 1) = 512 + 512 * bs.length by ring]
    · rw [if_neg hw] at hok
      simp at hok

/-- **A file written is the data**, when it has blocks enough. -/
theorem fileBytes_writeBlocks {data : List UInt8} (hnd : bs.Nodup)
    (hlen : data.length ≤ 512 * bs.length) (hok : (writeBlocks d bs data).1 = .ok) :
    fileBytes (writeBlocks d bs data).2 bs data.length = data := by
  rw [fileBytes, sectorBytes_writeBlocks hnd hok, take_take, Nat.min_eq_left hlen]
  simp

/-- A block list that shares no block with the written one keeps its bytes. -/
theorem fileBytes_writeBlocks_of_disjoint (d : D) {bs cs : List UInt16} (data : List UInt8)
    (size : ℕ) (h : ∀ c ∈ cs, c ∉ bs) :
    fileBytes (writeBlocks d bs data).2 cs size = fileBytes d cs size := by
  unfold fileBytes
  rw [sectorBytes_congr fun c hc => content_writeBlocks_of_not_mem d bs data fun b hb hbc =>
    h c hc (absoluteDataSector_inj hbc ▸ hb)]

/-! ### Reading -/

theorem content_readBlocksFrom (d : D) (bs : List UInt16) (size offset : ℕ) (buffer : List UInt8) :
    content (n := 512) (readBlocksFrom d bs size offset buffer).2.2 = content d := by
  induction bs generalizing d offset buffer with
  | nil => rfl
  | cons b bs ih =>
    rw [readBlocksFrom]
    split
    · exact content_read _ _
    · rw [ih]
      exact content_read _ _

theorem overlay_nil (buffer : List UInt8) (offset : ℕ) : overlay buffer offset [] = buffer := by
  simp [overlay]

/-- Two copies, the second right behind the first, are one. -/
theorem overlay_overlay (buffer : List UInt8) {offset : ℕ} (xs ys : List UInt8)
    (hoff : offset ≤ buffer.length) :
    overlay (overlay buffer offset xs) (offset + xs.length) ys =
      overlay buffer offset (xs ++ ys) := by
  have hlen : (buffer.take offset ++ xs).length = offset + xs.length := by simp [hoff]
  have h1 : (overlay buffer offset xs).take (offset + xs.length) = buffer.take offset ++ xs := by
    rw [overlay, ← hlen, take_left]
  have h2 : (overlay buffer offset xs).drop (offset + xs.length + ys.length) =
      buffer.drop (offset + xs.length + ys.length) := by
    rw [overlay, ← drop_drop, ← hlen, drop_left, hlen, drop_drop]
  rw [overlay, h1, h2, overlay, length_append]
  simp [Nat.add_assoc]

variable {size : ℕ} {buffer : List UInt8}

/-- What the loop of `read_blocks` leaves in the buffer: the bytes of the file
from the offset on, over what was there. -/
theorem readBlocksFrom_buffer {offset : ℕ} (hsize : size ≤ buffer.length)
    (hoff : offset ≤ buffer.length ∨ size ≤ offset)
    (hok : (readBlocksFrom d bs size offset buffer).1 = .ok) :
    (readBlocksFrom d bs size offset buffer).2.1 =
      overlay buffer offset ((sectorBytes d bs).take (size - offset)) := by
  induction bs generalizing d offset buffer with
  | nil => simp [readBlocksFrom, overlay_nil]
  | cons b bs ih =>
    rw [readBlocksFrom] at hok ⊢
    split at hok
    · simp at hok
    · rename_i x hx
      obtain rfl : x = content d (absoluteDataSector b) := read_eq _ _ _ hx
      set X := (content (n := 512) d (absoluteDataSector b)).val with hX
      have hX512 : X.length = 512 := (content d (absoluteDataSector b)).2
      have hcongr : sectorBytes (read d (absoluteDataSector b)).2 bs = sectorBytes d bs :=
        sectorBytes_congr fun c _ => by rw [content_read]
      rcases Nat.lt_or_ge (size - offset) 512 with hlt | hge
      · -- the last block: nothing is copied behind it
        have hlen : (overlay buffer offset (X.take (min (size - offset) 512))).length =
            buffer.length := by
          simp only [overlay, length_append, length_take, length_drop, hX512]
          omega
        have htake : ((X ++ sectorBytes d bs).take (size - offset)) = X.take (size - offset) :=
          take_append_of_le_length (by omega)
        rw [ih (by omega) (.inr (by omega)) hok, hcongr, sectorBytes_cons, ← hX, htake,
          show size - (offset + 512) = 0 by omega, take_zero, overlay_nil,
          Nat.min_eq_left hlt.le]
      · have hoff' : offset ≤ buffer.length := by omega
        have htake : X.take (min (size - offset) 512) = X := by
          rw [Nat.min_eq_right hge, take_of_length_le (by omega)]
        have hlen : (overlay buffer offset X).length = buffer.length := by
          simp only [overlay, length_append, length_take, length_drop, hX512]
          omega
        rw [htake] at hok ⊢
        have hsplit : (X ++ sectorBytes d bs).take (size - offset) =
            X ++ (sectorBytes d bs).take (size - (offset + 512)) := by
          rw [take_append, take_of_length_le (by omega), hX512, Nat.sub_sub]
        have hover :=
          overlay_overlay buffer X ((sectorBytes d bs).take (size - (offset + 512))) hoff'
        rw [hX512] at hover
        rw [ih (by omega) (by omega) hok, hcongr, sectorBytes_cons, ← hX, hsplit, hover]

/-- **What `read_blocks` leaves in the buffer**: the bytes of the file over what
was there. -/
theorem readBlocks_buffer (hsize : size ≤ buffer.length)
    (hok : (readBlocks d bs size buffer).1 = .ok) :
    (readBlocks d bs size buffer).2.1 = overlay buffer 0 (fileBytes d bs size) := by
  have h := readBlocksFrom_buffer hsize (.inl (Nat.zero_le _)) hok
  rwa [Nat.sub_zero] at h

/-- **A copy of a file through a buffer is the file.** The bytes read are written
back to as many blocks, which hold the same file afterwards. -/
theorem fileBytes_copy {e : D} {bs cs : List UInt16} (hsize : size ≤ buffer.length)
    (hr : (readBlocks d bs size buffer).1 = .ok) (hnd : cs.Nodup) (hlen : cs.length = bs.length)
    (hw : (writeBlocks e cs ((readBlocks d bs size buffer).2.1.take size)).1 = .ok) :
    fileBytes (writeBlocks e cs ((readBlocks d bs size buffer).2.1.take size)).2 cs size =
      fileBytes d bs size := by
  rw [fileBytes, sectorBytes_writeBlocks hnd hw, readBlocks_buffer hsize hr, overlay,
    take_zero, nil_append, Nat.zero_add, hlen, ← length_sectorBytes d bs]
  set F := sectorBytes d bs with hF
  have hfb : fileBytes d bs size = F.take size := rfl
  rw [hfb]
  rcases Nat.le_total size F.length with h | h
  · have h1 : (F.take size).length = size := by simp [h]
    rw [take_append_of_le_length h1.ge, take_of_length_le h1.le, take_take,
      Nat.min_eq_left h, take_append_of_le_length h1.ge, take_of_length_le h1.le]
  · -- fewer blocks than the size asks for: all that they hold is copied
    have hle : F.length ≤ ((F ++ buffer.drop F.length).take size).length := by
      simp [h]
    rw [take_of_length_le h, take_append_of_le_length hle, take_take,
      Nat.min_eq_right h, take_take, Nat.min_eq_left h, take_left]

end Honest

end Xaios.MutableFs
