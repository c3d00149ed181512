import Mathlib.Data.List.Induction
import Mathlib.Data.List.Nodup
import Xaios.Foundation.Guarded
import Xaios.Foundation.Loop
import Xaios.Net.Checksum

/-!
# Fragments

`ipv4_fragment` and `ipv4_reassemble` of `net/ipv4.c`: a datagram is cut into pieces of
1392 bytes, and a table of eight buckets collects the pieces that arrive.

The two do not fit together. The fragmenter writes offsets in units of eight bytes, as the
header has them; the reassembly takes them for bytes. So the last piece of a datagram of
two seems to end before the first one does, the bucket is complete as soon as the last
piece is there, and what is returned is never longer than the first piece. Whatever pieces
arrive in whatever order, the first last piece among them is answered wrongly
(`Net.Fragment.not_reassembles`).

The copies of the reassembly stay inside of their buffers as long as the header length of a
frame is not more than the frame, and no piece ends more than 1486 bytes behind the header
(`Net.Fragment.reassemble_in_bounds_iff`). Nothing checks the one, and the check of the
other is for 1500.
-/

namespace Xaios.Net.Fragment

open Foundation Function List

/-! ### The fragmenter -/

/-- The header of a fragment with its checksum field. -/
def header (length : ℕ) (id flagsOff : UInt16) (protocol : UInt8) (srcIp dstIp : UInt32)
    (cksum : UInt16) : List UInt8 :=
  [0x45, 0] ++ writeBe16 (UInt16.ofNat (20 + length)) ++ writeBe16 id ++ writeBe16 flagsOff ++
    [64, protocol] ++ writeBe16 cksum ++ writeBe32 srcIp ++ writeBe32 dstIp

/-- One round of the loop of `ipv4_fragment`: the piece of the payload at an offset, behind
the hardware addresses of the frame and a header of its own. The source reads the two
protocol addresses at 12 and 16, before the place where a frame has them. -/
def fragment (frame : List UInt8) (offset length : ℕ) (more : Bool) : List UInt8 :=
  let flagsOff := (if more then 0x2000 else 0) ||| UInt16.ofNat (offset / 8)
  let header := header length (readU16be frame 18) flagsOff (byteAt frame 23)
    (readU32be frame 12) (readU32be frame 16)
  (range 12).map (byteAt frame) ++ writeBe16 0x0800 ++ header (checksumU16 (header 0)) ++
    slice frame (34 + offset) length

/-- The loop of `ipv4_fragment`. Every round takes more than one byte of the capacity. -/
def fragmentFrom (frame : List UInt8) (capacity payloadLen : ℕ) :
    ℕ → ℕ → ℕ → Status × List (List UInt8)
  | 0, _, _ => (.noMemory, [])
  | fuel + 1, offset, written =>
    if offset < payloadLen then
      let thisFrag := min (payloadLen - offset) 1392
      if capacity < written + (34 + thisFrag) then (.noMemory, [])
      else
        let rest := fragmentFrom frame capacity payloadLen fuel (offset + thisFrag)
          (written + (34 + thisFrag))
        (rest.1, fragment frame offset thisFrag (offset + thisFrag < payloadLen) :: rest.2)
    else (.ok, [])

/-- `ipv4_fragment`: the frames that stand one behind the other in the output buffer. -/
def ipv4Fragment (frame : List UInt8) (capacity : ℕ) : Status × List (List UInt8) :=
  let payloadLen := (UInt64.ofNat (ipTotalLength frame) - 20).toNat
  if frame.length < 34 then (.invalid, [])
  else if payloadLen ≤ 1400 then
    if capacity < frame.length then (.noMemory, []) else (.ok, [frame])
  else fragmentFrom frame capacity payloadLen (capacity + 1) 0 0

/-! ### The reassembly -/

/-- A piece in a bucket: `frag_offsets`, `frag_lens` and `frags` of a slot. -/
structure Piece where
  offset : ℕ
  length : ℕ
  data : List UInt8
  deriving DecidableEq

/-- `ipv4_frag_bucket_t`. The slots below `frag_count` are a list. -/
structure Bucket where
  active : Bool
  srcIp : UInt32
  id : UInt16
  firstArrivalNs : UInt64
  totalLen : ℕ
  frags : List Piece

/-- `g_frag_buckets`. -/
abbrev Buckets : Type := Fin 8 → Bucket

/-- The table at boot. -/
def Buckets.boot : Buckets := fun _ => ⟨false, 0, 0, 0, 0, []⟩

/-- The bucket of a datagram. -/
def findBucket (t : Buckets) (id : UInt16) (srcIp : UInt32) : Option (Fin 8) :=
  (finRange 8).find? fun i => (t i).active && (t i).id == id && (t i).srcIp == srcIp

/-- The bucket that is given up when none is free. -/
def oldestBucket (t : Buckets) : Fin 8 :=
  ((finRange 8).foldl (fun best i =>
    if (t i).active && (t i).firstArrivalNs < best.1 then ((t i).firstArrivalNs, i) else best)
    (0xffffffffffffffff, ⟨0, Nat.zero_lt_succ 7⟩)).2

/-- The bucket a fragment goes to, opened when there is none. -/
def claimBucket (t : Buckets) (id : UInt16) (srcIp : UInt32) : Fin 8 × Buckets :=
  match findBucket t id srcIp with
  | some i => (i, t)
  | none =>
    let i := ((finRange 8).find? fun i => !(t i).active).getD (oldestBucket t)
    (i, update t i { t i with
      active := true
      srcIp := srcIp
      id := id
      totalLen := 0
      frags := [] })

/-- The bucket with a piece more. -/
def Bucket.add (b : Bucket) (p : Piece) (more : Bool) : Bucket :=
  { b with
    frags := b.frags ++ [p]
    totalLen := if more then b.totalLen else p.offset + p.length }

/-- Where the pieces of a bucket end. -/
def Bucket.maxOff (b : Bucket) : ℕ := b.frags.foldl (fun m p => max m (p.offset + p.length)) 0

/-- Bytes written over a buffer. -/
def patch (buffer : List UInt8) (offset : ℕ) (bytes : List UInt8) : List UInt8 :=
  buffer.take offset ++ bytes ++ buffer.drop (offset + bytes.length)

/-- The buffer with the pieces of a bucket behind a header. -/
def assemble (buffer : List UInt8) (id : UInt16) (reasmLen : ℕ) (frags : List Piece) :
    List UInt8 :=
  let buffer := patch buffer 16 (writeBe16 (UInt16.ofNat (20 + reasmLen)))
  let buffer := patch buffer 18 (writeBe16 id)
  let buffer := patch buffer 20 (writeBe16 0)
  frags.foldl (fun buffer p => patch buffer (34 + p.offset) p.data) buffer

/-- `ipv4_reassemble` on the first `frameLen` bytes of a buffer: the status, the frame that
the buffer then holds, and the table. The key of a bucket is read at 12 as well. -/
def ipv4Reassemble (t : Buckets) (buffer : List UInt8) (frameLen : ℕ) :
    Status × List UInt8 × Buckets :=
  if frameLen < 34 then (.invalid, buffer.take frameLen, t)
  else
    let id := readU16be buffer 18
    let headerBytes := (byteAt buffer 14 &&& 0x0f).toNat * 4
    let flagsOff := readU16be buffer 20
    let offset := (flagsOff &&& 0x1fff).toNat
    let length := (UInt64.ofNat frameLen - 14 - UInt64.ofNat headerBytes).toUInt16.toNat
    let (i, t) := claimBucket t id (readU32be buffer 12)
    if 16 ≤ (t i).frags.length then (.noMemory, buffer.take frameLen, t)
    else
      let b := (t i).add ⟨offset, length, slice buffer (14 + headerBytes) length⟩
        (flagsOff &&& 0x2000 != 0)
      if 0 < b.totalLen ∧ b.totalLen ≤ b.maxOff ∧ b.maxOff ≤ 1500 then
        let reasmLen := min b.maxOff 1480
        (.ok, (assemble buffer id reasmLen b.frags).take (34 + reasmLen),
          update t i { b with active := false })
      else (.invalid, buffer.take frameLen, update t i b)

/-! ### What the two are for -/

/-- A frame of version 4 with a header of twenty bytes and a payload of more than 1400 and
at most 1480 bytes, that was cut with enough room for the pieces. -/
structure Datagram where
  frame : List UInt8
  capacity : ℕ
  etherType : readU16be frame 12 = 0x0800
  versionIhl : byteAt frame 14 = 0x45
  complete : 14 + ipTotalLength frame ≤ frame.length
  large : 1420 < ipTotalLength frame
  small : ipTotalLength frame ≤ 1500
  sent : (ipv4Fragment frame capacity).1 = .ok

/-- The pieces of a datagram. -/
def Datagram.fragments (d : Datagram) : List (List UInt8) := (ipv4Fragment d.frame d.capacity).2

/-- What tells a datagram from the others. -/
def Datagram.key (d : Datagram) : UInt32 × UInt32 × UInt8 × UInt16 :=
  (readU32be d.frame 26, readU32be d.frame 30, byteAt d.frame 23, readU16be d.frame 18)

/-- The payload of a frame with a header of twenty bytes. -/
def payload (frame : List UInt8) : List UInt8 := slice frame 34 (ipTotalLength frame - 20)

/-- Source, destination, protocol and payload of two frames are the same. -/
def SameDatagram (out frame : List UInt8) : Prop :=
  readU32be out 26 = readU32be frame 26 ∧ readU32be out 30 = readU32be frame 30 ∧
    byteAt out 23 = byteAt frame 23 ∧ payload out = payload frame

/-- A fragment that arrives, in a buffer that may be larger. -/
structure Arrival where
  datagram : Datagram
  index : ℕ
  frame : List UInt8
  buffer : List UInt8
  isFragment : datagram.fragments[index]? = some frame
  inBuffer : frame <+: buffer

/-- `ipv4_reassemble` on a fragment that arrives. -/
def Arrival.reassemble (x : Arrival) (t : Buckets) : Status × List UInt8 × Buckets :=
  ipv4Reassemble t x.buffer x.frame.length

/-- The table after fragments have arrived. -/
def feed (l : List Arrival) : Buckets := l.foldl (fun t x => (x.reassemble t).2.2) .boot

/-- Some but not all fragments of a datagram have arrived. -/
def InProgress (l : List Arrival) (d : Datagram) : Prop :=
  (∃ x ∈ l, x.datagram = d) ∧ ∃ k < d.fragments.length, ∀ x ∈ l, x.datagram = d → x.index ≠ k

/-- The fragments of some datagrams in any order, each one once, with at most eight
datagrams in progress at any time. -/
structure Schedule (l : List Arrival) : Prop where
  once : (l.map fun x => (x.datagram, x.index)).Nodup
  all : ∀ x ∈ l, ∀ k < x.datagram.fragments.length, ∃ y ∈ l, y.datagram = x.datagram ∧ y.index = k
  keys : ∀ x ∈ l, ∀ y ∈ l, x.datagram.key = y.datagram.key → x.datagram = y.datagram
  inProgress : ∀ l', l' <+: l → ∀ ds : List Datagram, ds.Nodup → (∀ d ∈ ds, InProgress l' d) →
    ds.length ≤ 8

/-- Every fragment is answered with success exactly when it is the last one missing, and
then with the datagram. -/
def Reassembles (l : List Arrival) : Prop :=
  ∀ before x after, l = before ++ x :: after →
    ((x.reassemble (feed before)).1 = .ok ↔
      ∀ k < x.datagram.fragments.length, k ≠ x.index →
        ∃ y ∈ before, y.datagram = x.datagram ∧ y.index = k) ∧
    ((x.reassemble (feed before)).1 = .ok →
      SameDatagram (x.reassemble (feed before)).2.1 x.datagram.frame)

/-! ### The fragments of a datagram -/

section Cutting

variable {frame : List UInt8} {capacity payloadLen offset length : ℕ} {more : Bool}

variable {fuel : ℕ}

/-- A round that succeeds puts one fragment before those of the other rounds. -/
theorem fragmentFrom_of_lt {written : ℕ} (hlt : offset < payloadLen)
    (h : (fragmentFrom frame capacity payloadLen fuel offset written).1 = .ok) :
    ∃ fuel' written', (fragmentFrom frame capacity payloadLen fuel'
        (offset + min (payloadLen - offset) 1392) written').1 = .ok ∧
      (fragmentFrom frame capacity payloadLen fuel offset written).2 =
        fragment frame offset (min (payloadLen - offset) 1392)
          (offset + min (payloadLen - offset) 1392 < payloadLen) ::
          (fragmentFrom frame capacity payloadLen fuel'
            (offset + min (payloadLen - offset) 1392) written').2 := by
  cases fuel with
  | zero => cases h
  | succ fuel =>
    rw [fragmentFrom, if_pos hlt] at h ⊢
    dsimp only at h ⊢
    split at h
    · cases h
    · next hroom =>
      rw [if_neg hroom]
      exact ⟨fuel, _, h, rfl⟩

theorem fragmentFrom_of_le {written : ℕ} (hle : payloadLen ≤ offset) :
    (fragmentFrom frame capacity payloadLen fuel offset written).2 = [] := by
  cases fuel with
  | zero => rfl
  | succ fuel => rw [fragmentFrom, if_neg (Nat.not_lt.mpr hle)]

/-- A payload of more than one and at most two pieces is cut into two. -/
theorem fragmentFrom_of_two (hmore : 1392 < payloadLen) (hle : payloadLen ≤ 2784)
    (h : (fragmentFrom frame capacity payloadLen fuel 0 0).1 = .ok) :
    (fragmentFrom frame capacity payloadLen fuel 0 0).2 =
      [fragment frame 0 1392 true, fragment frame 1392 (payloadLen - 1392) false] := by
  obtain ⟨fuel₁, written₁, h₁, heq₁⟩ := fragmentFrom_of_lt (by omega) h
  have hfirst : 0 + min (payloadLen - 0) 1392 = 1392 := by omega
  rw [hfirst] at h₁ heq₁
  obtain ⟨fuel₂, written₂, -, heq₂⟩ := fragmentFrom_of_lt hmore h₁
  have hlast : min (payloadLen - 1392) 1392 = payloadLen - 1392 := by omega
  have hend : 1392 + (payloadLen - 1392) = payloadLen := by omega
  rw [hlast, hend, fragmentFrom_of_le (le_refl _)] at heq₂
  rw [heq₁, heq₂, decide_eq_true hmore, decide_eq_false (lt_irrefl _)]
  rw [Nat.zero_add] at hfirst
  rw [hfirst]

theorem toNat_payloadLen {n : ℕ} (h : 20 ≤ n) (hlt : n < 65536) :
    (UInt64.ofNat n - 20).toNat = n - 20 := by
  simp only [UInt64.toNat_sub, UInt64.toNat_ofNat', UInt64.reduceToNat]
  omega

theorem length_fragment (h : 34 + offset + length ≤ frame.length) :
    (fragment frame offset length more).length = 34 + length := by
  have hslice : (slice frame (34 + offset) length).length = length := by
    rw [slice, length_take, length_drop]
    omega
  rw [fragment, length_append, hslice]
  rfl

theorem versionIhl_fragment : byteAt (fragment frame offset length more) 14 = 0x45 := rfl

theorem flagsOff_fragment : readU16be (fragment frame offset length more) 20 =
    (if more then 0x2000 else 0) ||| UInt16.ofNat (offset / 8) := Foundation.be16_bytes _

end Cutting

/-- The size of the last piece of a datagram. -/
def Datagram.rest (d : Datagram) : ℕ := ipTotalLength d.frame - 1412

variable (d : Datagram)

theorem Datagram.add_rest : 1412 + d.rest = ipTotalLength d.frame := by
  have hlarge := d.large
  exact Nat.add_sub_cancel' (by omega)

/-- A datagram goes out in two pieces. -/
theorem Datagram.fragments_eq :
    d.fragments = [fragment d.frame 0 1392 true, fragment d.frame 1392 d.rest false] := by
  have hlarge := d.large
  have hsmall := d.small
  have hcomplete := d.complete
  have hlen := toNat_payloadLen (n := ipTotalLength d.frame) (by omega) (by omega)
  have hrest : ipTotalLength d.frame - 20 - 1392 = d.rest := by
    have hadd := d.add_rest
    omega
  have hsent := d.sent
  rw [Datagram.fragments]
  rw [ipv4Fragment, hlen, if_neg (by omega), if_neg (by omega)] at hsent ⊢
  rw [fragmentFrom_of_two (by omega) (by omega) hsent, hrest]

theorem byteAt_of_isPrefix {l r : List UInt8} (h : l <+: r) {i : ℕ} (hi : i < l.length) :
    byteAt r i = byteAt l i := by
  obtain ⟨t, rfl⟩ := h
  rw [byteAt, byteAt, getD, getD, getElem?_append_left hi]

/-- A fragment in a buffer, as the reassembly reads it. -/
structure Received (buffer : List UInt8) (frameLen flagsOff length : ℕ) : Prop where
  frameLen : frameLen = 34 + length
  versionIhl : byteAt buffer 14 = 0x45
  flagsOff : readU16be buffer 20 = UInt16.ofNat flagsOff

theorem received_fragment {frame buffer : List UInt8} {offset length : ℕ} {more : Bool}
    (hfits : 34 + offset + length ≤ frame.length)
    (h : fragment frame offset length more <+: buffer) :
    Received buffer (fragment frame offset length more).length
      ((if more then 0x2000 else 0) ||| UInt16.ofNat (offset / 8)).toNat length where
  frameLen := length_fragment hfits
  versionIhl := by
    rw [byteAt_of_isPrefix h (by rw [length_fragment hfits]; omega), versionIhl_fragment]
  flagsOff := by
    rw [readU16be, byteAt_of_isPrefix h (by rw [length_fragment hfits]; omega),
      byteAt_of_isPrefix h (by rw [length_fragment hfits]; omega), UInt16.ofNat_toNat]
    exact flagsOff_fragment

/-- **An arrival is a first or a last piece**: the first 1392 bytes with more to come, or
what is left, at 174 units. -/
theorem Arrival.received (x : Arrival) :
    (x.index = 0 ∧ Received x.buffer x.frame.length 0x2000 1392) ∨
      (x.index = 1 ∧ Received x.buffer x.frame.length 174 x.datagram.rest) := by
  have hcomplete := x.datagram.complete
  have hrest := x.datagram.add_rest
  have hx := x.isFragment
  have hbuf := x.inBuffer
  rw [Datagram.fragments_eq] at hx
  match hi : x.index with
  | 0 =>
    rw [hi, getElem?_cons_zero, Option.some_inj] at hx
    rw [← hx] at hbuf ⊢
    exact .inl ⟨rfl, received_fragment (by omega) hbuf⟩
  | 1 =>
    rw [hi, getElem?_cons_succ, getElem?_cons_zero, Option.some_inj] at hx
    rw [← hx] at hbuf ⊢
    exact .inr ⟨rfl, received_fragment (by omega) hbuf⟩
  | n + 2 =>
    rw [hi, getElem?_cons_succ, getElem?_cons_succ, getElem?_nil] at hx
    cases hx

/-! ### The table of buckets -/

/-- Only first pieces, at most `n` of them, are in the buckets in use. -/
def OnlyFirst (n : ℕ) (t : Buckets) : Prop :=
  ∀ i, (t i).active = true → (t i).totalLen = 0 ∧ (t i).frags.length ≤ n ∧
    ∀ p ∈ (t i).frags, p.offset = 0 ∧ p.length = 1392

section Table

variable {t : Buckets} {n : ℕ}

theorem onlyFirst_claimBucket (h : OnlyFirst n t) (id : UInt16) (srcIp : UInt32) :
    OnlyFirst n (claimBucket t id srcIp).2 ∧
      ((claimBucket t id srcIp).2 (claimBucket t id srcIp).1).active = true := by
  rw [claimBucket]
  cases hfind : findBucket t id srcIp with
  | some i =>
    have hactive := find?_some hfind
    rw [Bool.and_eq_true, Bool.and_eq_true] at hactive
    exact ⟨h, hactive.1.1⟩
  | none =>
    dsimp only
    refine ⟨fun j hj => ?_, by rw [update_self]⟩
    by_cases hij : j = ((finRange 8).find? fun i => !(t i).active).getD (oldestBucket t)
    · rw [hij, update_self]
      exact ⟨rfl, Nat.zero_le n, fun p hp => absurd hp not_mem_nil⟩
    · rw [update_of_ne hij] at hj ⊢
      exact h j hj

theorem Bucket.maxOff_add (b : Bucket) (p : Piece) (more : Bool) :
    (b.add p more).maxOff = max b.maxOff (p.offset + p.length) := by
  rw [maxOff, add, foldl_append]
  rfl

theorem Bucket.maxOff_le {b : Bucket} {m : ℕ} (h : ∀ p ∈ b.frags, p.offset + p.length ≤ m) :
    b.maxOff ≤ m := by
  rw [maxOff]
  generalize b.frags = l at h
  suffices ∀ k ≤ m, l.foldl (fun m p => max m (p.offset + p.length)) k ≤ m from
    this 0 (Nat.zero_le m)
  induction l with
  | nil => exact fun k hk => hk
  | cons p l ih =>
    exact fun k hk => ih (fun q hq => h q (mem_cons_of_mem p hq)) _
      (max_le hk (h p mem_cons_self))

variable {buffer : List UInt8} {frameLen : ℕ}

theorem Received.length_eq {flagsOff length : ℕ} (h : Received buffer frameLen flagsOff length)
    (hlt : length < 65536) :
    (UInt64.ofNat frameLen - 14 -
      UInt64.ofNat ((byteAt buffer 14 &&& 0x0f).toNat * 4)).toUInt16.toNat
      = length := by
  have hheader : UInt64.ofNat ((0x45 &&& 0x0f : UInt8).toNat * 4) = 20 := rfl
  rw [h.frameLen, h.versionIhl, hheader]
  simp only [UInt64.toNat_toUInt16, UInt64.toNat_sub, UInt64.toNat_ofNat', UInt64.reduceToNat]
  omega

/-- A first piece is kept. -/
theorem onlyFirst_reassemble (h : OnlyFirst n t) (hr : Received buffer frameLen 0x2000 1392) :
    OnlyFirst (n + 1) (ipv4Reassemble t buffer frameLen).2.2 := by
  obtain ⟨hclaim, hactive⟩ := onlyFirst_claimBucket h (readU16be buffer 18) (readU32be buffer 12)
  rw [ipv4Reassemble, if_neg (by rw [hr.frameLen]; omega)]
  dsimp only
  rw [hr.length_eq (by omega), hr.flagsOff]
  generalize claimBucket t (readU16be buffer 18) (readU32be buffer 12) = c at hclaim hactive ⊢
  obtain ⟨htotal, hcount, hfirst⟩ := hclaim c.1 hactive
  have hmono : OnlyFirst (n + 1) c.2 := fun i hi =>
    ⟨(hclaim i hi).1, Nat.le_succ_of_le (hclaim i hi).2.1, (hclaim i hi).2.2⟩
  split
  · exact hmono
  · -- more is to come, so the length of the datagram is still unknown
    rw [if_neg]
    · intro i hi
      dsimp only at hi ⊢
      by_cases hic : i = c.1
      · rw [hic, update_self]
        refine ⟨htotal, ?_, fun p hp => ?_⟩
        · rw [Bucket.add, length_append]
          exact Nat.add_le_add_right hcount 1
        · rcases mem_append.mp hp with hp | hp
          · exact hfirst p hp
          · rw [mem_singleton.mp hp]
            exact ⟨rfl, rfl⟩
      · rw [update_of_ne hic] at hi ⊢
        exact hmono i hi
    · have hkeep : ∀ p : Piece, ((c.2 c.1).add p (UInt16.ofNat 0x2000 &&& 0x2000 != 0)).totalLen =
        (c.2 c.1).totalLen := fun p => rfl
      rintro ⟨hpos, -⟩
      rw [hkeep, htotal] at hpos
      exact lt_irrefl 0 hpos

/-- **A last piece is answered with success**, whether its first piece is there or not, and
with no more bytes than a first piece has. -/
theorem reassemble_last {rest : ℕ} (h : OnlyFirst n t) (hn : n < 16)
    (hr : Received buffer frameLen 174 rest) (hrest : rest ≤ 1218) :
    (ipv4Reassemble t buffer frameLen).1 = .ok ∧
      (ipv4Reassemble t buffer frameLen).2.1.length ≤ 34 + 1392 := by
  obtain ⟨hclaim, hactive⟩ := onlyFirst_claimBucket h (readU16be buffer 18) (readU32be buffer 12)
  rw [ipv4Reassemble, if_neg (by rw [hr.frameLen]; omega)]
  dsimp only
  rw [hr.length_eq (by omega), hr.flagsOff]
  generalize claimBucket t (readU16be buffer 18) (readU32be buffer 12) = c at hclaim hactive ⊢
  obtain ⟨-, hcount, hfirst⟩ := hclaim c.1 hactive
  have hbound : (c.2 c.1).maxOff ≤ 1392 := Bucket.maxOff_le fun p hp => by
    rw [(hfirst p hp).1, (hfirst p hp).2]
  rw [if_neg (by omega), Bucket.maxOff_add]
  have hoffset : (UInt16.ofNat 174 &&& 0x1fff).toNat = 174 := rfl
  have htotal : ∀ p : Piece, ((c.2 c.1).add p (UInt16.ofNat 174 &&& 0x2000 != 0)).totalLen =
    p.offset + p.length := fun p => rfl
  rw [htotal]
  dsimp only
  rw [hoffset, if_pos (by omega)]
  refine ⟨rfl, ?_⟩
  rw [length_take]
  omega

end Table

/-! ### Runs -/

theorem feed_append (l : List Arrival) (x : Arrival) :
    feed (l ++ [x]) = (x.reassemble (feed l)).2.2 := by
  rw [feed, foldl_append]
  rfl

variable {l : List Arrival}

theorem onlyFirst_feed (h : ∀ x ∈ l, x.index ≠ 1) : OnlyFirst l.length (feed l) := by
  induction l using reverseRecOn with
  | nil => exact fun i hi => absurd hi Bool.false_ne_true
  | append_singleton l x ih =>
    have hl := ih fun y hy => h y (mem_append_left _ hy)
    rw [feed_append, length_append]
    rcases x.received with ⟨-, hr⟩ | ⟨hx, -⟩
    · exact onlyFirst_reassemble hl hr
    · exact absurd hx (h x (mem_append_right _ (mem_singleton_self x)))

/-- While only first pieces have arrived, every one of them is of a datagram in progress. -/
theorem Schedule.length_le {before : List Arrival} (h : Schedule l) (hpre : before <+: l)
    (hfirst : ∀ x ∈ before, x.index ≠ 1) : before.length ≤ 8 := by
  have hindex : ∀ x ∈ before, (x.datagram, x.index) = (x.datagram, 0) := by
    intro x hx
    rcases x.received with ⟨hx0, -⟩ | ⟨hx1, -⟩
    · rw [hx0]
    · exact absurd hx1 (hfirst x hx)
  have hnodup : (before.map Arrival.datagram).Nodup := by
    have honce := (hpre.map fun x : Arrival => (x.datagram, x.index)).sublist.nodup h.once
    rw [map_congr_left hindex] at honce
    refine List.Nodup.of_map (fun d => (d, 0)) ?_
    rw [map_map]
    exact honce
  have hcount := h.inProgress before hpre (before.map Arrival.datagram) hnodup
  rw [length_map] at hcount
  refine hcount fun d hd => ?_
  obtain ⟨x, hx, rfl⟩ := mem_map.mp hd
  refine ⟨⟨x, hx, rfl⟩, 1, ?_, fun y hy _ => hfirst y hy⟩
  rw [Datagram.fragments_eq]
  exact Nat.lt_succ_self 1

theorem length_payload_le (frame : List UInt8) : (payload frame).length ≤ frame.length - 34 := by
  rw [payload, slice, length_take, length_drop]
  exact Nat.min_le_right _ _

theorem Datagram.lt_length_payload : 1400 < (payload d.frame).length := by
  have hlarge := d.large
  have hcomplete := d.complete
  rw [payload, slice, length_take, length_drop]
  omega

/-- What comes back for a last piece is not its datagram. -/
theorem not_sameDatagram_last {x : Arrival} {t : Buckets} {n : ℕ} (h : OnlyFirst n t)
    (hn : n < 16) (hx : x.index = 1) :
    (x.reassemble t).1 = .ok ∧ ¬SameDatagram (x.reassemble t).2.1 x.datagram.frame := by
  rcases x.received with ⟨hx0, -⟩ | ⟨-, hr⟩
  · rw [hx0] at hx
    cases hx
  have hsmall := x.datagram.small
  have hrest := x.datagram.add_rest
  obtain ⟨hok, hlength⟩ := reassemble_last h hn hr (by omega)
  refine ⟨hok, fun hsame => ?_⟩
  have hlong := x.datagram.lt_length_payload
  have hshort := length_payload_le (x.reassemble t).2.1
  rw [← hsame.2.2.2] at hlong
  change (x.reassemble t).2.1.length ≤ 34 + 1392 at hlength
  omega

/-- **No datagram survives.** Let the pieces of datagrams arrive in any order, with at most
eight datagrams in progress. Then the answers are not those of a reassembly: the first last
piece to arrive is answered with success and with something else than its datagram. -/
theorem not_reassembles {l : List Arrival} (h : Schedule l) (hne : l ≠ []) : ¬Reassembles l := by
  intro hreassembles
  obtain ⟨x₀, hx₀⟩ := exists_mem_of_ne_nil l hne
  obtain ⟨y, hy, -, hy1⟩ := h.all x₀ hx₀ 1 (by
    rw [Datagram.fragments_eq]
    exact Nat.lt_succ_self 1)
  -- the first last piece that arrives
  obtain ⟨x, hfind⟩ := Option.isSome_iff_exists.mp
    (find?_isSome (p := fun z : Arrival => decide (z.index = 1)).mpr
      ⟨y, hy, decide_eq_true hy1⟩)
  obtain ⟨hx, before, after, rfl, hbefore⟩ := find?_eq_some_iff_append.mp hfind
  have hfirst : ∀ z ∈ before, z.index ≠ 1 := fun z hz hz1 => by
    have := hbefore z hz
    rw [decide_eq_true hz1] at this
    cases this
  have hcount := h.length_le (prefix_append before _) hfirst
  obtain ⟨hok, hother⟩ := not_sameDatagram_last (onlyFirst_feed hfirst) (by omega)
    (of_decide_eq_true hx)
  exact hother ((hreassembles before x after rfl).2 hok)

/-! ### One datagram -/

/-- A fragment of a datagram in a buffer with room for a frame. -/
def Datagram.arrival (d : Datagram) (k : ℕ) (frame : List UInt8)
    (h : d.fragments[k]? = some frame) : Arrival :=
  ⟨d, k, frame, frame ++ replicate 1534 0, h, prefix_append frame _⟩

theorem Datagram.first_eq :
    d.fragments[0]? = some (fragment d.frame 0 1392 true) := by
  rw [d.fragments_eq]
  rfl

theorem Datagram.last_eq :
    d.fragments[1]? = some (fragment d.frame 1392 d.rest false) := by
  rw [d.fragments_eq]
  rfl

/-- The first piece of a datagram arrives. -/
def Datagram.first (d : Datagram) : Arrival := d.arrival 0 _ d.first_eq

/-- The last piece of a datagram arrives. -/
def Datagram.last (d : Datagram) : Arrival := d.arrival 1 _ d.last_eq

/-- The two pieces of one datagram may arrive in either order. -/
theorem schedule_pair (h : l.Perm [d.first, d.last]) : Schedule l := by
  have hd : ∀ x ∈ l, x.datagram = d := by
    intro x hx
    rcases mem_pair.mp (h.mem_iff.mp hx) with rfl | rfl <;> rfl
  refine ⟨?_, ?_, fun x hx y hy _ => (hd x hx).trans (hd y hy).symm, ?_⟩
  · rw [(h.map _).nodup_iff]
    exact nodup_cons.mpr ⟨fun hmem => absurd (mem_singleton.mp hmem)
      fun heq => Nat.zero_ne_one (Prod.mk.inj heq).2, nodup_singleton _⟩
  · intro x hx k hk
    rw [hd x hx, d.fragments_eq] at hk
    have hfirst := h.mem_iff.mpr mem_cons_self
    have hlast := h.mem_iff.mpr (mem_cons_of_mem d.first (mem_singleton_self d.last))
    match k, hk with
    | 0, _ => exact ⟨d.first, hfirst, (hd x hx).symm, rfl⟩
    | 1, _ => exact ⟨d.last, hlast, (hd x hx).symm, rfl⟩
  · intro l' hl' ds hds hall
    have hone : ∀ e ∈ ds, e = d := by
      intro e he
      obtain ⟨⟨x, hx, rfl⟩, -⟩ := hall e he
      exact hd x (hl'.subset hx)
    have hle : ds.length ≤ 1 := by
      match ds, hds, hone with
      | [], _, _ => exact Nat.zero_le 1
      | [_], _, _ => exact le_refl 1
      | a :: b :: _, hds, hone =>
        have hab : a = b := (hone a mem_cons_self).trans
          (hone b (mem_cons_of_mem a mem_cons_self)).symm
        exact absurd (hab ▸ mem_cons_self) (nodup_cons.mp hds).1
    omega

/-- A datagram with a payload of 1401 bytes. -/
def sampleFrame : List UInt8 :=
  replicate 12 2 ++ [0x08, 0x00, 0x45, 0] ++ writeBe16 1421 ++
    [0, 7, 0, 0, 64, 17, 0, 0, 10, 0, 2, 15, 10, 0, 2, 2] ++ replicate 1401 0x41

theorem sampleFrame_ok : readU16be sampleFrame 12 = 0x0800 ∧ byteAt sampleFrame 14 = 0x45 ∧
    14 + ipTotalLength sampleFrame ≤ sampleFrame.length ∧ 1420 < ipTotalLength sampleFrame ∧
    ipTotalLength sampleFrame ≤ 1500 ∧ (ipv4Fragment sampleFrame 2048).1 = .ok := by
  decide +kernel

/-- The datagram of the frame. -/
def sample : Datagram :=
  ⟨sampleFrame, 2048, sampleFrame_ok.1, sampleFrame_ok.2.1, sampleFrame_ok.2.2.1,
    sampleFrame_ok.2.2.2.1, sampleFrame_ok.2.2.2.2.1, sampleFrame_ok.2.2.2.2.2⟩

/-- The result at the pieces of one datagram in their order. -/
theorem not_reassembles_sample : Schedule [sample.first, sample.last] ∧
    ¬Reassembles [sample.first, sample.last] :=
  ⟨schedule_pair sample (.refl _),
    not_reassembles (schedule_pair sample (.refl _)) (cons_ne_nil _ _)⟩

/-- **The last piece alone is answered with success**, and with 183 bytes for a payload of
1401: the piece is put 174 bytes behind the header. In the other order the answer has the
1392 bytes of the first piece. -/
theorem last_piece_completes :
    Schedule [sample.last, sample.first] ∧
    (sample.last.reassemble (feed [])).1 = .ok ∧
    (payload (sample.last.reassemble (feed [])).2.1).length = 183 ∧
    (sample.last.reassemble (feed [sample.first])).1 = .ok ∧
    (payload (sample.last.reassemble (feed [sample.first])).2.1).length = 1392 ∧
    (payload sample.frame).length = 1401 ∧
    ¬Reassembles [sample.last, sample.first] := by
  refine ⟨schedule_pair sample (.swap _ _ _), by decide +kernel, by decide +kernel,
    by decide +kernel, by decide +kernel, by decide +kernel, fun h => ?_⟩
  have hfirst : ∀ x ∈ ([] : List Arrival), x.index ≠ 1 := fun x hx => absurd hx not_mem_nil
  obtain ⟨hok, hother⟩ := not_sameDatagram_last (x := sample.last) (onlyFirst_feed hfirst)
    (Nat.zero_lt_succ 15) rfl
  exact hother ((h [] sample.last [sample.first] rfl).2 hok)

/-! ### The copies of the reassembly -/

/-- A frame in the buffer that `ipv4_reassemble` is given. -/
structure Frame where
  buffer : List UInt8
  length : ℕ
  room : buffer.length = 1520
  low : 34 ≤ length
  high : length ≤ 1520

namespace Frame

variable (x : Frame)

/-- `ip_hdr_bytes`. -/
def headerBytes : ℕ := (byteAt x.buffer 14 &&& 0x0f).toNat * 4

/-- `frag_data_len`: a difference of 64 bits, cut off to 16. -/
def dataLen : ℕ := (UInt64.ofNat x.length - 14 - UInt64.ofNat x.headerBytes).toUInt16.toNat

/-- The table after the frame. -/
def step (t : Buckets) : Buckets := (ipv4Reassemble t x.buffer x.length).2.2

/-- The bucket that has taken the piece of the frame, if there was a slot for it. -/
def bucket (t : Buckets) : Option Bucket :=
  let (i, t) := claimBucket t (readU16be x.buffer 18) (readU32be x.buffer 12)
  if 16 ≤ (t i).frags.length then none
  else
    let flagsOff := readU16be x.buffer 20
    some ((t i).add ⟨(flagsOff &&& 0x1fff).toNat, x.dataLen,
      slice x.buffer (14 + x.headerBytes) x.dataLen⟩ (flagsOff &&& 0x2000 != 0))

end Frame

/-- The pieces of the bucket are put together. -/
def Bucket.Complete (b : Bucket) : Prop :=
  0 < b.totalLen ∧ b.totalLen ≤ b.maxOff ∧ b.maxOff ≤ 1500

instance (b : Bucket) : Decidable b.Complete := inferInstanceAs (Decidable (_ ∧ _))

/-- `ipv4_reassemble` with its subtraction and its copies checked: the piece goes from the frame
into a slot of 1520 bytes, and the header, its three fields and the pieces go into the frame. -/
def Frame.reassemble (t : Buckets) (x : Frame) : Guarded (Status × List UInt8 × Buckets) := do
  let id := readU16be x.buffer 18
  let flagsOff := readU16be x.buffer 20
  let length ← guardedSub (x.length - 14) x.headerBytes
  let (i, t) := claimBucket t id (readU32be x.buffer 12)
  if 16 ≤ (t i).frags.length then return (.noMemory, x.buffer.take x.length, t)
  else
    let _ ← fetchRange x.buffer (14 + x.headerBytes) length
    let _ ← fetchRange (replicate 1520 0) 0 length
    let b := (t i).add ⟨(flagsOff &&& 0x1fff).toNat, length,
      slice x.buffer (14 + x.headerBytes) length⟩ (flagsOff &&& 0x2000 != 0)
    if b.Complete then
      let reasmLen := min b.maxOff 1480
      let _ ← [(14, 20), (16, 2), (18, 2), (20, 2)].mapM fun c => fetchRange x.buffer c.1 c.2
      let _ ← b.frags.mapM fun p => fetchRange x.buffer (34 + p.offset) p.length
      return (.ok, (assemble x.buffer id reasmLen b.frags).take (34 + reasmLen),
        update t i { b with active := false })
    else return (.invalid, x.buffer.take x.length, update t i b)

/-- The checks do not stop the reassembly: it makes the same steps without them. -/
def Frame.InBounds (t : Buckets) (x : Frame) : Prop :=
  x.reassemble t = .ok (ipv4Reassemble t x.buffer x.length)

/-- The header that a frame speaks of is in it, and when a bucket is put together no piece of
it ends behind 1486. -/
def Frame.Tame (t : Buckets) (x : Frame) : Prop :=
  14 + x.headerBytes ≤ x.length ∧
    ∀ b, x.bucket t = some b → b.Complete → ∀ p ∈ b.frags, p.length = 0 ∨ p.offset + p.length ≤ 1486

theorem Frame.dataLen_eq {x : Frame} (h : 14 + x.headerBytes ≤ x.length) :
    x.dataLen = x.length - 14 - x.headerBytes := by
  have hhigh := x.high
  rw [Frame.dataLen, UInt64.toNat_toUInt16]
  simp only [UInt64.toNat_sub, UInt64.toNat_ofNat', UInt64.reduceToNat]
  omega

/-- The copies of the pieces are all in the frame, or one of them stops. -/
theorem Frame.mapM_pieces (x : Frame) (frags : List Piece) :
    (∃ r, (frags.mapM fun p => fetchRange x.buffer (34 + p.offset) p.length) = .ok r) ↔
      ∀ p ∈ frags, p.length = 0 ∨ p.offset + p.length ≤ 1486 := by
  constructor
  · rintro ⟨r, hr⟩ p hp
    by_contra hout
    have hstop : ∃ e, fetchRange x.buffer (34 + p.offset) p.length = .error e :=
      fetchRange_error (by omega) (by rw [x.room]; omega)
    obtain ⟨e, he⟩ := mapM_error (f := fun p : Piece =>
      fetchRange x.buffer (34 + p.offset) p.length) ⟨p, hp, hstop⟩
    cases hr.symm.trans he
  · intro h
    refine ⟨frags.map fun p => (range p.length).map fun k =>
      x.buffer.getD (34 + p.offset + k) 0, mapM_eq fun p hp => ?_⟩
    rcases h p hp with hzero | hend
    · rw [hzero]
      rfl
    · exact fetchRange_eq (by rw [x.room]; omega) 0

theorem Frame.inBounds_iff (t : Buckets) (x : Frame) : x.InBounds t ↔ x.Tame t := by
  have hlow := x.low
  have hhigh := x.high
  by_cases hheader : 14 + x.headerBytes ≤ x.length
  · have hlen : guardedSub (x.length - 14) x.headerBytes = .ok x.dataLen := by
      rw [dataLen_eq hheader]
      exact guardedSub_eq (by omega)
    have hle := dataLen_eq hheader
    have hbytes : (byteAt x.buffer 14 &&& 0x0f).toNat * 4 = x.headerBytes := rfl
    have hdata : (UInt64.ofNat x.length - 14 - UInt64.ofNat x.headerBytes).toUInt16.toNat =
      x.dataLen := rfl
    rw [InBounds, reassemble, ipv4Reassemble, if_neg (Nat.not_lt.mpr hlow), hlen, Tame,
      and_iff_right hheader, bucket, hbytes]
    dsimp only [ok_bind]
    rw [hdata]
    split
    · exact iff_of_true rfl fun b hb => by cases hb
    · rw [fetchRange_eq (by rw [x.room]; omega) 0, ok_bind,
        fetchRange_eq (by rw [length_replicate]; omega) 0, ok_bind]
      generalize claimBucket t (readU16be x.buffer 18) (readU32be x.buffer 12) = r
      generalize (r.2 r.1).add _ _ = b
      have hall : (∀ b', some b = some b' → b'.Complete →
          ∀ p ∈ b'.frags, p.length = 0 ∨ p.offset + p.length ≤ 1486) ↔ (b.Complete →
          ∀ p ∈ b.frags, p.length = 0 ∨ p.offset + p.length ≤ 1486) :=
        ⟨fun h => h b rfl, fun h b' hb => Option.some_inj.mp hb ▸ h⟩
      rw [hall]
      by_cases hc : b.Complete
      · have hfields : [(14, 20), (16, 2), (18, 2), (20, 2)].mapM
            (fun c => fetchRange x.buffer c.1 c.2) = .ok _ :=
          mapM_eq fun c hc => fetchRange_eq (by
            rw [x.room]
            revert c
            decide) 0
        rw [if_pos hc, if_pos (show _ ∧ _ from hc), hfields, ok_bind, forall_prop_of_true hc,
          ← x.mapM_pieces]
        cases b.frags.mapM fun p => fetchRange x.buffer (34 + p.offset) p.length with
        | error e => exact iff_of_false (fun h => by cases h) fun ⟨r, hr⟩ => by cases hr
        | ok r => exact iff_of_true rfl ⟨r, rfl⟩
      · rw [if_neg hc, if_neg (show ¬(_ ∧ _) from hc)]
        exact iff_of_true rfl fun h => absurd h hc
  · refine iff_of_false (fun h => ?_) fun h => hheader h.1
    rw [InBounds, reassemble, guardedSub, if_neg (by omega)] at h
    cases h

/-- **The copies stay in bounds** along a sequence of frames exactly if every one of them is
tame. -/
theorem reassemble_in_bounds_iff (xs : List Frame) :
    Foundation.Along (fun t x => x.step t) Frame.InBounds .boot xs ↔
      Foundation.Along (fun t x => x.step t) Frame.Tame .boot xs := by
  refine Foundation.Along.congr trivial (fun _ _ _ _ => trivial) (fun t x _ => ?_) xs
    (I := fun _ => True)
  exact x.inBounds_iff t

/-- A buffer with two bytes of a header. -/
def headed (versionIhl offset : UInt8) : List UInt8 :=
  replicate 14 0 ++ versionIhl :: (replicate 6 0 ++ offset :: replicate 1498 0)

theorem length_headed (versionIhl offset : UInt8) : (headed versionIhl offset).length = 1520 := by
  rw [headed, length_append, length_cons, length_append, length_cons,
    length_replicate, length_replicate, length_replicate]

/-- A frame of 34 bytes with a header of 60. -/
def longHeader : Frame := ⟨headed 0x4f 0, 34, length_headed _ _, by decide, by decide⟩

/-- A full frame whose piece is put ten bytes behind the header. -/
def lateEnd : Frame := ⟨headed 0x45 10, 1520, length_headed _ _, by decide, by decide⟩

/-- **Two frames that are copied out of bounds**, each as the first one: 65496 bytes go into
the slot of a piece, and ten bytes go behind the end of the frame. -/
theorem copies_out_of_bounds :
    (longHeader.reassemble .boot).map Prod.fst = .error (.underflow 20 60) ∧
      longHeader.dataLen = 65496 ∧ ¬lateEnd.InBounds .boot ∧
      (∃ b ∈ lateEnd.bucket .boot, b.Complete ∧
        b.frags.map (fun p => (34 + p.offset, p.length)) = [(44, 1486)]) ∧
      (ipv4Reassemble .boot lateEnd.buffer lateEnd.length).1 = .ok := by
  have hlate : ∃ b ∈ lateEnd.bucket .boot, b.Complete ∧
      b.frags.map (fun p => (34 + p.offset, p.length)) = [(44, 1486)] := by
    decide +kernel
  refine ⟨by decide +kernel, by decide +kernel, fun h => ?_, hlate, by decide +kernel⟩
  obtain ⟨b, hb, hcomplete, hfrags⟩ := hlate
  obtain ⟨p, hp, hpiece⟩ := mem_map.mp (hfrags ▸ mem_cons_self)
  have hend := ((lateEnd.inBounds_iff .boot).mp h).2 b hb hcomplete p hp
  rw [Prod.mk.injEq] at hpiece
  omega

end Xaios.Net.Fragment
