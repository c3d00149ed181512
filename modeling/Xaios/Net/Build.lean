import Xaios.Foundation.BigEndian
import Xaios.Net.Flow
import Xaios.Status

/-!
# The frames of the segments

How `tcp_build_and_send_segment` and its version 6 twin put a segment into a frame, and
what `parse_tcp` and `parse_tcp_v6` make of it.

The builder writes each field where the parser looks for it, and the payload right behind
the header (`Net.SegmentBytes.fields_tcp`, `Net.SegmentBytes.drop_tcp`). Only
the length of the header goes wrong: it is the upper half of a byte, and the builder
writes the number of words into the lower half. The parsers read a header of no bytes, so
they refuse every frame that is built (`Net.built_segments_refused`).
-/

namespace Xaios.Net

open Foundation List

/-! ### Words in network order -/

/-- `write_be16`. -/
def writeBe16 (v : UInt16) : List UInt8 := [(v >>> 8).toUInt8, v.toUInt8]

/-- `write_be32`. -/
def writeBe32 (v : UInt32) : List UInt8 :=
  [(v >>> 24).toUInt8, (v >>> 16).toUInt8, (v >>> 8).toUInt8, v.toUInt8]

/-! ### The builders -/

/-- The Ethernet header. -/
def ethHeader (srcMac dstMac : Fin 6 → UInt8) (etherType : UInt16) : List UInt8 :=
  [dstMac 0, dstMac 1, dstMac 2, dstMac 3, dstMac 4, dstMac 5,
    srcMac 0, srcMac 1, srcMac 2, srcMac 3, srcMac 4, srcMac 5] ++ writeBe16 etherType

/-- `ipv4_build_header`. The checksum is that of the header with a zero in its place. -/
def ipv4BuildHeader (totalLength : UInt16) (protocol : UInt8) (srcIp dstIp : UInt32) :
    List UInt8 :=
  let header := fun cksum : UInt16 =>
    [0x45, 0] ++ writeBe16 totalLength ++ writeBe16 0 ++ writeBe16 0x4000 ++ [64, protocol] ++
      writeBe16 cksum ++ writeBe32 srcIp ++ writeBe32 dstIp
  header (checksumU16 (header 0))

/-- The header of version 6, which the builder writes itself. -/
def ipv6Header (payloadLength : UInt16) (nextHeader : UInt8) (src dst : IpAddr) : List UInt8 :=
  writeBe32 0x60000000 ++ writeBe16 payloadLength ++ [nextHeader, 64] ++ ofFn src.addr ++
    ofFn dst.addr

/-- What both builders put into the TCP part of a frame. -/
structure SegmentBytes where
  srcPort : UInt16
  dstPort : UInt16
  seg : OutSegment
  options : List UInt8

namespace SegmentBytes

/-- `opt_padded`. -/
def optPadded (b : SegmentBytes) : ℕ := (b.options.length + 3) / 4 * 4

/-- `tcp_hdr_bytes`. -/
def hdrBytes (b : SegmentBytes) : UInt8 := UInt8.ofNat (20 + b.optPadded)

/-- The TCP header and the payload, with a value for the checksum. The length of the header
is `data_offset_val`, the number of its words. -/
def tcp (b : SegmentBytes) (cksum : UInt16) : List UInt8 :=
  writeBe16 b.srcPort ++ writeBe16 b.dstPort ++ writeBe32 b.seg.seq ++ writeBe32 b.seg.ack ++
    [b.hdrBytes >>> 2, b.seg.flags] ++ writeBe16 b.seg.window ++ writeBe16 cksum ++ writeBe16 0 ++
    (b.options ++ replicate (b.optPadded - b.options.length) 0) ++ b.seg.payload

/-- `tcp_seg_len`. -/
def length (b : SegmentBytes) : UInt16 := UInt16.ofNat (b.hdrBytes.toNat + b.seg.payload.length)

end SegmentBytes

/-- The options of `tcp_build_and_send_segment`: the segment size and the window scale, in a
SYN. The last bytes of the array are sent without having been set. -/
def tcpOptions (flags : UInt8) (unset : Fin 3 → UInt8) : List UInt8 :=
  if flags &&& flagSyn ≠ 0 ∧ flags &&& flagAck = 0 then
    [2, 4] ++ writeBe16 (UInt16.ofNat tcpMss) ++ [1, 3, 3, 0, 1, 1, 0, unset 2]
  else if flags &&& flagSyn ≠ 0 then
    [2, 4] ++ writeBe16 (UInt16.ofNat tcpMss) ++ [1, 3, 3, 0, 0, unset 0, unset 1, unset 2]
  else []

/-- The options of `tcp_build_and_send_segment_v6`. -/
def tcpOptionsV6 (flags : UInt8) (unset : Fin 3 → UInt8) : List UInt8 :=
  if flags &&& flagSyn ≠ 0 then
    [2, 4] ++ writeBe16 (UInt16.ofNat tcpMss) ++ [1, 3, 3, 0, 0, unset 0, unset 1, unset 2]
  else []

/-- `tcp_build_and_send_segment`, up to the frame that is handed to `virtio_net_tx`. -/
def tcpBuildSegment (srcMac dstMac : Fin 6 → UInt8) (srcIp dstIp : UInt32)
    (srcPort dstPort : UInt16) (seg : OutSegment) (unset : Fin 3 → UInt8) :
    Except Status (List UInt8) :=
  let b : SegmentBytes := ⟨srcPort, dstPort, seg, tcpOptions seg.flags unset⟩
  if 1520 < 14 + 20 + b.hdrBytes.toNat + seg.payload.length then .error .invalid
  else
    let ipTotal := UInt16.ofNat (20 + b.hdrBytes.toNat + seg.payload.length)
    let cksum := ipv4PseudoChecksum srcIp dstIp 6 b.length ((b.tcp 0).take b.length.toNat)
    .ok (ethHeader srcMac dstMac 0x0800 ++ ipv4BuildHeader ipTotal 6 srcIp dstIp ++ b.tcp cksum)

/-- `tcp_build_and_send_segment_v6`. -/
def tcpBuildSegmentV6 (srcMac dstMac : Fin 6 → UInt8) (src dst : IpAddr)
    (srcPort dstPort : UInt16) (seg : OutSegment) (unset : Fin 3 → UInt8) :
    Except Status (List UInt8) :=
  let b : SegmentBytes := ⟨srcPort, dstPort, seg, tcpOptionsV6 seg.flags unset⟩
  if 1520 < 14 + 40 + b.hdrBytes.toNat + seg.payload.length then .error .invalid
  else
    let cksum := ipv6PseudoChecksum src dst 6 b.length.toUInt32 ((b.tcp 0).take b.length.toNat)
    .ok (ethHeader srcMac dstMac 0x86DD ++ ipv6Header b.length 6 src dst ++ b.tcp cksum)

/-! ### What is read back -/

theorem byteAt_append (l r : List UInt8) (i : ℕ) : byteAt (l ++ r) (l.length + i) = byteAt r i := by
  simp [byteAt, getElem?_append_right]

/-- The fields of a header do not depend on what is before it. -/
theorem tcpFields_append (l r : List UInt8) : tcpFields (l ++ r) l.length = tcpFields r 0 := by
  simp only [tcpFields, readU16be, readU32be, Nat.add_assoc, byteAt_append, Nat.zero_add]
  have hzero := byteAt_append l r 0
  rw [Nat.add_zero] at hzero
  rw [hzero]

namespace SegmentBytes

variable (b : SegmentBytes) (cksum : UInt16)

/-- **The fields are where the parsers look for them.** -/
theorem fields_tcp :
    tcpFields (b.tcp cksum) 0 = ⟨b.srcPort, b.dstPort, b.seg.seq, b.seg.ack, b.seg.flags⟩ := by
  have hsrc : readU16be (b.tcp cksum) 0 = b.srcPort := be16_bytes b.srcPort
  have hdst : readU16be (b.tcp cksum) 2 = b.dstPort := be16_bytes b.dstPort
  have hseq : readU32be (b.tcp cksum) 4 = b.seg.seq := be32_bytes b.seg.seq
  have hack : readU32be (b.tcp cksum) 8 = b.seg.ack := be32_bytes b.seg.ack
  rw [tcpFields, hsrc, hdst, hseq, hack]
  rfl

/-- **The payload is right behind the header.** -/
theorem drop_tcp : (b.tcp cksum).drop (20 + b.optPadded) = b.seg.payload := by
  have hle : b.options.length ≤ b.optPadded := by
    unfold optPadded
    omega
  refine drop_left' ?_
  simp only [writeBe16, writeBe32, length_append, length_cons, length_nil,
    length_replicate]
  omega

theorem optPadded_le (hopt : b.options.length ≤ 12) : b.optPadded ≤ 12 := by
  unfold optPadded
  omega

theorem toNat_hdrBytes (hopt : b.options.length ≤ 12) : b.hdrBytes.toNat = 20 + b.optPadded := by
  have hle := b.optPadded_le hopt
  rw [hdrBytes, UInt8.toNat_ofNat']
  omega

/-- **The header has no length**: its number of words is in the wrong half of the byte. -/
theorem tcpHeaderBytes_tcp (hopt : b.options.length ≤ 12) :
    tcpHeaderBytes (b.tcp cksum) 0 = 0 := by
  have hle := b.optPadded_le hopt
  have hoffset : byteAt (b.tcp cksum) (0 + 12) = b.hdrBytes >>> 2 := rfl
  rw [tcpHeaderBytes, hoffset]
  simp only [UInt8.toNat_shiftRight, b.toNat_hdrBytes hopt, UInt8.reduceToNat, Nat.reduceMod]
  omega

end SegmentBytes

variable {frame : List UInt8}

theorem ipHeaderBytes_of_first (h : byteAt frame 14 = 0x45) : ipHeaderBytes frame = 20 := by
  rw [ipHeaderBytes, h]
  rfl

/-- The parser of version 4 refuses a header that is too short. -/
theorem parseTcp_of_short (h : tcpHeaderBytes frame (14 + ipHeaderBytes frame) < 20) :
    parseTcp frame = none := by
  simp only [parseTcp]
  split_ifs <;> first | rfl | omega

@[inherit_doc parseTcp_of_short]
theorem parseTcpV6_of_short (h : tcpHeaderBytes frame 54 < 20) : parseTcpV6 frame = none := by
  simp only [parseTcpV6]
  split_ifs <;> first | rfl | omega

theorem length_tcpOptions (flags : UInt8) (unset : Fin 3 → UInt8) :
    (tcpOptions flags unset).length ≤ 12 := by
  unfold tcpOptions
  split_ifs
  · exact le_rfl
  · exact le_rfl
  · exact Nat.zero_le 12

theorem length_tcpOptionsV6 (flags : UInt8) (unset : Fin 3 → UInt8) :
    (tcpOptionsV6 flags unset).length ≤ 12 := by
  unfold tcpOptionsV6
  split_ifs
  · exact le_rfl
  · exact Nat.zero_le 12

/-- What a parser finds in a frame from the TCP header on. -/
structure Built (frame : List UInt8) (tcp : ℕ) (srcPort dstPort : UInt16) (seg : OutSegment) :
    Prop where
  fields : tcpFields frame tcp = ⟨srcPort, dstPort, seg.seq, seg.ack, seg.flags⟩
  payload : ∃ headerBytes, 20 ≤ headerBytes ∧ frame.drop (tcp + headerBytes) = seg.payload
  headerBytes : tcpHeaderBytes frame tcp = 0

theorem SegmentBytes.built (b : SegmentBytes) (cksum : UInt16) {l : List UInt8} {tcp : ℕ}
    (hl : l.length = tcp) (hopt : b.options.length ≤ 12) :
    Built (l ++ b.tcp cksum) tcp b.srcPort b.dstPort b.seg := by
  subst hl
  refine ⟨?_, ⟨20 + b.optPadded, Nat.le_add_right 20 _, ?_⟩, ?_⟩
  · rw [tcpFields_append, b.fields_tcp]
  · rw [← drop_drop, drop_left, b.drop_tcp]
  · rw [tcpHeaderBytes, byteAt_append]
    exact b.tcpHeaderBytes_tcp cksum hopt

/-- A segment of at most `NETWORK_TCP_MSS` bytes has room in a frame. -/
theorem SegmentBytes.fits (b : SegmentBytes) {ip : ℕ} (hip : ip ≤ 40) (hopt : b.options.length ≤ 12)
    (hlen : b.seg.payload.length ≤ tcpMss) :
    ¬ 1520 < 14 + ip + b.hdrBytes.toNat + b.seg.payload.length := by
  have hpad := b.optPadded_le hopt
  rw [b.toNat_hdrBytes hopt]
  unfold tcpMss at hlen
  omega

section Frames

variable (srcMac dstMac : Fin 6 → UInt8) (srcPort dstPort : UInt16) {seg : OutSegment}
  (unset : Fin 3 → UInt8)

/-- The frame of version 4. -/
theorem built_tcpBuildSegment (srcIp dstIp : UInt32) (hlen : seg.payload.length ≤ tcpMss) :
    ∃ frame, tcpBuildSegment srcMac dstMac srcIp dstIp srcPort dstPort seg unset = .ok frame ∧
      Built frame 34 srcPort dstPort seg ∧ parseTcp frame = none := by
  have hopt := length_tcpOptions seg.flags unset
  let b : SegmentBytes := ⟨srcPort, dstPort, seg, tcpOptions seg.flags unset⟩
  rw [tcpBuildSegment, if_neg (b.fits (by decide) hopt hlen)]
  have hbuilt := fun (ip : List UInt8) (hip : ip.length = 34) cksum => b.built cksum hip hopt
  refine ⟨_, rfl, hbuilt _ rfl _, parseTcp_of_short ?_⟩
  rw [ipHeaderBytes_of_first rfl, (hbuilt _ rfl _).headerBytes]
  decide

/-- The frame of version 6. -/
theorem built_tcpBuildSegmentV6 (src dst : IpAddr) (hlen : seg.payload.length ≤ tcpMss) :
    ∃ frame, tcpBuildSegmentV6 srcMac dstMac src dst srcPort dstPort seg unset = .ok frame ∧
      Built frame 54 srcPort dstPort seg ∧ parseTcpV6 frame = none := by
  have hopt := length_tcpOptionsV6 seg.flags unset
  let b : SegmentBytes := ⟨srcPort, dstPort, seg, tcpOptionsV6 seg.flags unset⟩
  rw [tcpBuildSegmentV6, if_neg (b.fits (by decide) hopt hlen)]
  have hip : (ethHeader srcMac dstMac 0x86DD ++ ipv6Header b.length 6 src dst).length = 54 := by
    simp [ethHeader, ipv6Header, writeBe16, writeBe32]
  have hbuilt := fun cksum => b.built cksum hip hopt
  refine ⟨_, rfl, hbuilt _, parseTcpV6_of_short ?_⟩
  rw [(hbuilt _).headerBytes]
  decide

end Frames

/-- **Builder and parser never agree.** For all addresses and ports, every sequence number,
acknowledgement, flags and window and every payload that a segment may have, either builder
hands a frame to the driver. Ports, numbers, flags and payload are in their places there,
but the parser of the version refuses the frame. -/
theorem built_segments_refused (srcMac dstMac : Fin 6 → UInt8) (srcIp dstIp : UInt32)
    (src dst : IpAddr) (srcPort dstPort : UInt16) (seg : OutSegment) (unset : Fin 3 → UInt8)
    (hlen : seg.payload.length ≤ tcpMss) :
    (∃ frame, tcpBuildSegment srcMac dstMac srcIp dstIp srcPort dstPort seg unset = .ok frame ∧
        Built frame 34 srcPort dstPort seg ∧ parseTcp frame = none) ∧
      ∃ frame, tcpBuildSegmentV6 srcMac dstMac src dst srcPort dstPort seg unset = .ok frame ∧
        Built frame 54 srcPort dstPort seg ∧ parseTcpV6 frame = none := by
  exact ⟨built_tcpBuildSegment srcMac dstMac srcPort dstPort unset srcIp dstIp hlen,
    built_tcpBuildSegmentV6 srcMac dstMac srcPort dstPort unset src dst hlen⟩

/-- An acknowledgement without data, from port 80 to port 4660. -/
def plainAck : OutSegment := ⟨1001, 2001, flagAck, 8192, []⟩

theorem built_plainAck_refused :
    plainAck.payload.length ≤ tcpMss ∧
      (∃ frame, tcpBuildSegment (fun _ => 2) (fun _ => 4) 0x0a00020f 0x0a000202 80 4660 plainAck
          (fun _ => 0) = .ok frame ∧
        Built frame 34 80 4660 plainAck ∧ parseTcp frame = none) ∧
      ∃ frame, tcpBuildSegmentV6 (fun _ => 2) (fun _ => 4) IpAddr.zero IpAddr.zero 80 4660 plainAck
          (fun _ => 0) = .ok frame ∧
        Built frame 54 80 4660 plainAck ∧ parseTcpV6 frame = none :=
  ⟨by decide, built_segments_refused _ _ _ _ _ _ _ _ _ _ (by decide)⟩

/-- **The frame of a plain acknowledgement**, byte by byte: `0x05` in the place of the length
of the header, where the parser expects `0x50`. -/
theorem plainAck_refused :
    ∃ frame, tcpBuildSegment (fun _ => 2) (fun _ => 4) 0x0a00020f 0x0a000202 80 4660 plainAck
        (fun _ => 0) = .ok frame ∧
      byteAt frame 46 = 0x05 ∧ parseTcp frame = none := by
  refine ⟨_, rfl, ?_, ?_⟩ <;> decide +kernel

end Xaios.Net
