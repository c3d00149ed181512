import Mathlib.Data.Nat.Notation
import Mathlib.Tactic.Common

/-!
# Frames

How `network_stack.c` reads UDP and TCP out of an Ethernet frame. A frame is the list
of its bytes and `frame_len` is its length. The parsers answer the header fields, or
nothing when the frame is refused.

The parsers of version 4 load the addresses as words of a little-endian machine, and
the pseudo header sums the words as they were loaded; the rest is read byte by byte
in network order.
-/

namespace Xaios.Net

/-! ### Bytes and words -/

/-- `frame[i]`. -/
def byteAt (frame : List UInt8) (i : ℕ) : UInt8 := frame.getD i 0

/-- `len` bytes from an offset on. -/
def slice (frame : List UInt8) (offset len : ℕ) : List UInt8 := (frame.drop offset).take len

/-- `read_u16_be`. -/
def readU16be (frame : List UInt8) (i : ℕ) : UInt16 :=
  (byteAt frame i).toUInt16 <<< 8 ||| (byteAt frame (i + 1)).toUInt16

/-- `read_u32_be`. -/
def readU32be (frame : List UInt8) (i : ℕ) : UInt32 :=
  (byteAt frame i).toUInt32 <<< 24 ||| (byteAt frame (i + 1)).toUInt32 <<< 16 |||
    (byteAt frame (i + 2)).toUInt32 <<< 8 ||| (byteAt frame (i + 3)).toUInt32

/-- A word as the machine loads it, and as `ip4_addr_host_order` puts its bytes together
again. -/
def readU32le (frame : List UInt8) (i : ℕ) : UInt32 :=
  (byteAt frame i).toUInt32 ||| (byteAt frame (i + 1)).toUInt32 <<< 8 |||
    (byteAt frame (i + 2)).toUInt32 <<< 16 ||| (byteAt frame (i + 3)).toUInt32 <<< 24

/-! ### Checksums -/

/-- The sum of the words of some bytes in network order; an odd byte at the end is the
upper half of a word. -/
def sumWords : List UInt8 → ℕ
  | [] => 0
  | [a] => a.toNat * 256
  | a :: b :: rest => a.toNat * 256 + b.toNat + sumWords rest

/-- The loop that adds the carries back in until none is left. -/
def foldCarry (sum : ℕ) : ℕ :=
  if sum < 65536 then sum else foldCarry (sum % 65536 + sum / 65536)
termination_by sum
decreasing_by omega

/-- The end of the checksum functions: the carries are folded and the sum is inverted. -/
def checksumOf (sum : ℕ) : UInt16 := ~~~(UInt16.ofNat (foldCarry sum))

/-- `checksum_u16`. -/
def checksumU16 (data : List UInt8) : UInt16 := checksumOf (sumWords data)

/-- `ipv4_pseudo_checksum`. -/
def ipv4PseudoChecksum (srcIp dstIp : UInt32) (protocol : UInt8) (payloadLength : UInt16)
    (payload : List UInt8) : UInt16 :=
  checksumOf (srcIp.toNat / 65536 + srcIp.toNat % 65536 + dstIp.toNat / 65536 +
    dstIp.toNat % 65536 + protocol.toNat + payloadLength.toNat + sumWords payload)

/-! ### Addresses -/

/-- `xaios_ip_addr_t`: an address of version 4 is in the first four bytes. -/
structure IpAddr where
  family : UInt8
  addr : Fin 16 → UInt8

namespace IpAddr

/-- `xaios_ip_addr_zero`. -/
def zero : IpAddr := ⟨0, fun _ => 0⟩

/-- `xaios_ip_addr_from_raw_ipv6`. -/
def fromRawIpv6 (frame : List UInt8) (offset : ℕ) : IpAddr :=
  ⟨6, fun i => byteAt frame (offset + i)⟩

/-- How many bytes of an address count. -/
def size (a : IpAddr) : ℕ := if a.family = 4 then 4 else 16

/-- `xaios_ip_addr_equal`. -/
def equal (a b : IpAddr) : Bool :=
  a.family == b.family && (List.finRange 16).all fun i => i.val ≥ a.size || a.addr i == b.addr i

/-- Four bytes of an address as a word in network order. -/
def word (a : IpAddr) (i : Fin 4) : UInt32 :=
  readU32be (List.ofFn a.addr) (4 * i)

/-- `xaios_ip_addr_hash`: the words that count, combined by exclusive or. -/
def hash (a : IpAddr) : UInt32 :=
  if a.family = 4 then a.word 0 else a.word 0 ^^^ a.word 1 ^^^ a.word 2 ^^^ a.word 3

/-- `xaios_ip_addr_to_ipv4`. -/
def toIpv4 (a : IpAddr) : UInt32 := if a.family = 4 then a.word 0 else 0

end IpAddr

/-- `ipv6_pseudo_checksum`. -/
def ipv6PseudoChecksum (src dst : IpAddr) (nextHeader : UInt8) (upperLayerLength : UInt32)
    (payload : List UInt8) : UInt16 :=
  checksumOf (sumWords (List.ofFn src.addr) + sumWords (List.ofFn dst.addr) +
    upperLayerLength.toNat / 65536 + upperLayerLength.toNat % 65536 + nextHeader.toNat +
    sumWords payload)

/-! ### Parsers of version 4 -/

/-- `eth_frame_has_ipv4`. -/
def ethFrameHasIpv4 (frame : List UInt8) : Bool :=
  34 ≤ frame.length && readU16be frame 12 == 0x0800 && byteAt frame 14 >>> 4 == 4

/-- The length of the version 4 header. -/
def ipHeaderBytes (frame : List UInt8) : ℕ := (byteAt frame 14 &&& 0x0f).toNat * 4

/-- The total length in the version 4 header. -/
def ipTotalLength (frame : List UInt8) : ℕ := (readU16be frame 16).toNat

/-- The check of the header checksum, which a zero field switches off. -/
def ipChecksumOk (frame : List UInt8) : Bool :=
  readU16be frame 24 == 0 || checksumU16 (slice frame 14 (ipHeaderBytes frame)) == 0

/-- What `parse_udp` reads. -/
structure UdpFields where
  srcPort : UInt16
  dstPort : UInt16
  payloadLen : UInt16
  srcAddress : UInt32
  dstAddress : UInt32

/-- `parse_udp`. -/
def parseUdp (frame : List UInt8) : Option UdpFields :=
  let ipLen := ipTotalLength frame
  let udp := 14 + ipHeaderBytes frame
  let udpLength := readU16be frame (udp + 4)
  if !ethFrameHasIpv4 frame then none
  else if byteAt frame 23 ≠ 17 then none
  else if ipHeaderBytes frame < 20 ∨ ipLen < ipHeaderBytes frame then none
  else if frame.length < 14 + ipLen ∨ ipLen < ipHeaderBytes frame + 8 then none
  else if udpLength < 8 ∨ 14 + ipLen < udp + 8 ∨ 14 + ipLen < udp + udpLength.toNat then none
  else if !ipChecksumOk frame then none
  else some
    { srcPort := readU16be frame udp
      dstPort := readU16be frame (udp + 2)
      payloadLen := udpLength
      srcAddress := readU32le frame 26
      dstAddress := readU32le frame 30 }

/-- What `parse_tcp` reads. -/
structure TcpFields where
  srcPort : UInt16
  dstPort : UInt16
  seq : UInt32
  ack : UInt32
  flags : UInt8
  deriving DecidableEq

/-- The fields of a TCP header at an offset. -/
def tcpFields (frame : List UInt8) (tcp : ℕ) : TcpFields where
  srcPort := readU16be frame tcp
  dstPort := readU16be frame (tcp + 2)
  seq := readU32be frame (tcp + 4)
  ack := readU32be frame (tcp + 8)
  flags := byteAt frame (tcp + 13)

/-- The length of the TCP header at an offset, options included. -/
def tcpHeaderBytes (frame : List UInt8) (tcp : ℕ) : ℕ := (byteAt frame (tcp + 12) >>> 4).toNat * 4

/-- `parse_tcp`. -/
def parseTcp (frame : List UInt8) : Option TcpFields :=
  let ipLen := ipTotalLength frame
  let tcp := 14 + ipHeaderBytes frame
  let headerBytes := tcpHeaderBytes frame tcp
  let tcpLen := UInt16.ofNat (headerBytes + (ipLen - ipHeaderBytes frame - headerBytes))
  if !ethFrameHasIpv4 frame then none
  else if byteAt frame 23 ≠ 6 then none
  else if ipHeaderBytes frame < 20 ∨ ipLen < ipHeaderBytes frame + 20 then none
  else if frame.length < 14 + ipLen then none
  else if headerBytes < 20 ∨ 60 < headerBytes then none
  else if ipLen - ipHeaderBytes frame < headerBytes ∨ ipLen < headerBytes then none
  else if !ipChecksumOk frame then none
  else if readU16be frame (tcp + 16) ≠ 0 ∧ ipv4PseudoChecksum (readU32le frame 26)
      (readU32le frame 30) 6 tcpLen (slice frame tcp tcpLen.toNat) ≠ 0 then none
  else some (tcpFields frame tcp)

/-! ### Parsers of version 6 -/

/-- `eth_frame_has_ipv6`. -/
def ethFrameHasIpv6 (frame : List UInt8) : Bool :=
  54 ≤ frame.length && readU16be frame 12 == 0x86DD && byteAt frame 14 >>> 4 == 6

/-- The payload length in the version 6 header. -/
def ip6PayloadLength (frame : List UInt8) : ℕ := (readU16be frame 18).toNat

/-- What `parse_udp_v6` reads. -/
structure UdpFieldsV6 where
  srcPort : UInt16
  dstPort : UInt16
  payloadLen : UInt16
  srcAddr : IpAddr
  dstAddr : IpAddr

/-- `parse_udp_v6`. A zero checksum is refused. -/
def parseUdpV6 (frame : List UInt8) : Option UdpFieldsV6 :=
  let src := IpAddr.fromRawIpv6 frame 22
  let dst := IpAddr.fromRawIpv6 frame 38
  let udpLen := readU16be frame 58
  if !ethFrameHasIpv6 frame then none
  else if byteAt frame 20 ≠ 17 then none
  else if frame.length < 62 then none
  else if frame.length < 54 + ip6PayloadLength frame then none
  else if udpLen < 8 ∨ ip6PayloadLength frame < udpLen.toNat then none
  else if readU16be frame 60 = 0 then none
  else if ipv6PseudoChecksum src dst 17 udpLen.toUInt32 (slice frame 54 udpLen.toNat) ≠ 0 then none
  else some
    { srcPort := readU16be frame 54
      dstPort := readU16be frame 56
      payloadLen := udpLen
      srcAddr := src
      dstAddr := dst }

/-- `parse_tcp_v6`; the addresses it answers are in the version 6 header. -/
def parseTcpV6 (frame : List UInt8) : Option (TcpFields × IpAddr × IpAddr) :=
  let plen := ip6PayloadLength frame
  let headerBytes := tcpHeaderBytes frame 54
  let src := IpAddr.fromRawIpv6 frame 22
  let dst := IpAddr.fromRawIpv6 frame 38
  let tcpTotal := headerBytes + (plen - headerBytes)
  if !ethFrameHasIpv6 frame then none
  else if byteAt frame 20 ≠ 6 then none
  else if frame.length < 74 then none
  else if frame.length < 54 + plen then none
  else if headerBytes < 20 ∨ 60 < headerBytes then none
  else if plen < headerBytes then none
  else if readU16be frame 70 ≠ 0 ∧ ipv6PseudoChecksum src dst 6 (UInt32.ofNat tcpTotal)
      (slice frame 54 tcpTotal) ≠ 0 then none
  else some (tcpFields frame 54, src, dst)

/-! ### Segments -/

/-- The loop of `parse_tcp_options` over the bytes of the options that are left: the
segment size and the window scale, as far as they were seen. -/
def parseTcpOptionsFrom : ℕ → List UInt8 → UInt16 → UInt8 → UInt16 × UInt8
  | 0, _, mss, ws => (mss, ws)
  | _ + 1, [], mss, ws => (mss, ws)
  | fuel + 1, kind :: rest, mss, ws =>
    if kind = 0 then (mss, ws)
    else if kind = 1 then parseTcpOptionsFrom fuel rest mss ws
    else
      let len := (byteAt rest 0).toNat
      if rest = [] ∨ len < 2 ∨ rest.length + 1 < len then (mss, ws)
      else if kind = 2 ∧ len = 4 then
        parseTcpOptionsFrom fuel (rest.drop (len - 1)) (readU16be rest 1) ws
      else if kind = 3 ∧ len = 3 then
        parseTcpOptionsFrom fuel (rest.drop (len - 1)) mss (byteAt rest 1)
      else parseTcpOptionsFrom fuel (rest.drop (len - 1)) mss ws

/-- `parse_tcp_options`. Every round uses up a byte, so there are no more rounds than
bytes. -/
def parseTcpOptions (options : List UInt8) : UInt16 × UInt8 :=
  parseTcpOptionsFrom options.length options 0 0

/-- What the handlers take from a TCP frame. -/
structure Segment where
  fields : TcpFields
  options : List UInt8
  payload : List UInt8

/-- The flags of a segment. -/
def Segment.has (seg : Segment) (flag : UInt8) : Bool := seg.fields.flags &&& flag != 0

/-- `NETWORK_TCP_FLAG_FIN` and the others. -/
def flagFin : UInt8 := 0x01

@[inherit_doc flagFin] def flagSyn : UInt8 := 0x02

@[inherit_doc flagFin] def flagRst : UInt8 := 0x04

@[inherit_doc flagFin] def flagPsh : UInt8 := 0x08

@[inherit_doc flagFin] def flagAck : UInt8 := 0x10

/-- The segment in a frame of version 4 that `parse_tcp` accepted. -/
def segmentV4 (frame : List UInt8) (fields : TcpFields) : Segment :=
  let tcp := 14 + ipHeaderBytes frame
  let headerBytes := tcpHeaderBytes frame tcp
  { fields := fields
    options := slice frame (tcp + 20) (headerBytes - 20)
    payload := slice frame (tcp + headerBytes)
      (ipTotalLength frame - ipHeaderBytes frame - headerBytes) }

/-- The segment in a frame of version 6 that `parse_tcp_v6` accepted. -/
def segmentV6 (frame : List UInt8) (fields : TcpFields) : Segment :=
  let headerBytes := tcpHeaderBytes frame 54
  { fields := fields
    options := slice frame 74 (headerBytes - 20)
    payload := slice frame (54 + headerBytes) (ip6PayloadLength frame - headerBytes) }

/-! ### Frames that are accepted -/

section Accepted

variable {frame : List UInt8}

theorem spec_of_parseUdp {fields : UdpFields} (h : parseUdp frame = some fields) :
    34 ≤ frame.length ∧ fields.payloadLen ≠ 0 ∧
      14 + ipHeaderBytes frame + fields.payloadLen.toNat ≤ frame.length := by
  unfold parseUdp at h
  dsimp only at h
  split_ifs at h with _ _ _ _ hlen
  cases h
  refine ⟨by omega, fun hzero => hlen (.inl ?_), by dsimp only; omega⟩
  dsimp only at hzero
  rw [hzero]
  decide

theorem spec_of_parseUdpV6 {fields : UdpFieldsV6} (h : parseUdpV6 frame = some fields) :
    62 ≤ frame.length ∧ fields.payloadLen ≠ 0 ∧ 54 + fields.payloadLen.toNat ≤ frame.length ∧
      fields.dstAddr.toIpv4 = 0 ∧ fields.srcAddr.toIpv4 = 0 := by
  unfold parseUdpV6 at h
  dsimp only at h
  split_ifs at h with _ _ _ _ hlen
  cases h
  refine ⟨by omega, fun hzero => hlen (.inl ?_), by dsimp only; omega, rfl, rfl⟩
  dsimp only at hzero
  rw [hzero]
  decide

theorem spec_of_parseTcp {fields : TcpFields} (h : parseTcp frame = some fields) :
    54 ≤ frame.length ∧ 20 ≤ tcpHeaderBytes frame (14 + ipHeaderBytes frame) ∧
      ipHeaderBytes frame + tcpHeaderBytes frame (14 + ipHeaderBytes frame) ≤
        ipTotalLength frame ∧
      14 + ipTotalLength frame ≤ frame.length := by
  unfold parseTcp at h
  dsimp only at h
  split_ifs at h
  omega

theorem spec_of_parseTcpV6 {r : TcpFields × IpAddr × IpAddr} (h : parseTcpV6 frame = some r) :
    74 ≤ frame.length ∧ tcpHeaderBytes frame 54 ≤ ip6PayloadLength frame ∧
      54 + ip6PayloadLength frame ≤ frame.length := by
  unfold parseTcpV6 at h
  dsimp only at h
  split_ifs at h
  omega

end Accepted

end Xaios.Net
