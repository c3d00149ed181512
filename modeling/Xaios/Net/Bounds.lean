import Mathlib.Algebra.Ring.Parity
import Xaios.Foundation.Guarded
import Xaios.Net.Checksum

/-!
# The parsers stay in bounds

The parsers of `network_stack.c` once more, with every read of the frame and every
subtraction of lengths as a step that may fail (`Foundation.Guarded`), in the order in
which the source takes them. The loops of the checksums and of the options are written
out.

Each of these functions is then shown to succeed with the value of its model in
`Net.Wire`, for every frame. So no read is at or beyond `frame_len` and no length
goes below zero (`Net.Bounds.parsers_in_bounds`). Every length that the frame itself
gives is compared with `frame_len` before it is used: the total length of version 4 and the
payload length of version 6 by the parsers, the lengths of headers, options and datagrams
against these.
-/

namespace Xaios.Net.Bounds

open Foundation List Bool

/-! ### Bytes and words -/

/-- `read_u16_be`. -/
def readU16be (frame : List UInt8) (i : ℕ) : Guarded UInt16 := do
  let hi ← fetch frame i
  let lo ← fetch frame (i + 1)
  return hi.toUInt16 <<< 8 ||| lo.toUInt16

/-- `read_u32_be`. -/
def readU32be (frame : List UInt8) (i : ℕ) : Guarded UInt32 := do
  let a ← fetch frame i
  let b ← fetch frame (i + 1)
  let c ← fetch frame (i + 2)
  let d ← fetch frame (i + 3)
  return a.toUInt32 <<< 24 ||| b.toUInt32 <<< 16 ||| c.toUInt32 <<< 8 ||| d.toUInt32

/-- A word as the machine loads it. -/
def readU32le (frame : List UInt8) (i : ℕ) : Guarded UInt32 := do
  let a ← fetch frame i
  let b ← fetch frame (i + 1)
  let c ← fetch frame (i + 2)
  let d ← fetch frame (i + 3)
  return a.toUInt32 ||| b.toUInt32 <<< 8 ||| c.toUInt32 <<< 16 ||| d.toUInt32 <<< 24

/-- The loop of the checksum functions over the bytes from an offset on. -/
def sumBytes (frame : List UInt8) (offset length : ℕ) : Guarded ℕ := do
  let sum ← (range (length / 2)).foldlM (fun sum k => do
    let hi ← fetch frame (offset + 2 * k)
    let lo ← fetch frame (offset + (2 * k + 1))
    return sum + (hi.toNat * 256 + lo.toNat)) 0
  if length % 2 = 1 then
    let last ← guardedSub length 1
    let hi ← fetch frame (offset + last)
    return sum + hi.toNat * 256
  else
    return sum

/-- `checksum_u16`. -/
def checksumU16 (frame : List UInt8) (offset length : ℕ) : Guarded UInt16 := do
  return checksumOf (← sumBytes frame offset length)

/-- `ipv4_pseudo_checksum`. -/
def ipv4PseudoChecksum (srcIp dstIp : UInt32) (protocol : UInt8) (payloadLength : UInt16)
    (frame : List UInt8) (offset : ℕ) : Guarded UInt16 := do
  let sum ← sumBytes frame offset payloadLength.toNat
  return checksumOf (srcIp.toNat / 65536 + srcIp.toNat % 65536 + dstIp.toNat / 65536 +
    dstIp.toNat % 65536 + protocol.toNat + payloadLength.toNat + sum)

/-- `xaios_ip_addr_from_raw_ipv6`. -/
def fromRawIpv6 (frame : List UInt8) (offset : ℕ) : Guarded IpAddr := do
  let bytes ← fetchRange frame offset 16
  return ⟨6, fun i => bytes.getD i 0⟩

/-- `ipv6_pseudo_checksum`. The forty bytes of the pseudo header are in a buffer of their
own. -/
def ipv6PseudoChecksum (src dst : IpAddr) (nextHeader : UInt8) (upperLayerLength : ℕ)
    (frame : List UInt8) (offset : ℕ) : Guarded UInt16 := do
  let sum ← sumBytes frame offset upperLayerLength
  return checksumOf (sumWords (ofFn src.addr) + sumWords (ofFn dst.addr) +
    (UInt32.ofNat upperLayerLength).toNat / 65536 + (UInt32.ofNat upperLayerLength).toNat % 65536 +
    nextHeader.toNat + sum)

section Words

variable {frame : List UInt8} {i offset length : ℕ}

theorem fetch_byteAt (h : i < frame.length) : fetch frame i = .ok (byteAt frame i) := fetch_eq h 0

theorem readU16be_eq (h : i + 1 < frame.length) :
    readU16be frame i = .ok (Net.readU16be frame i) := by
  simp (disch := omega) only [readU16be, fetch_byteAt, ok_bind]
  rfl

theorem readU32be_eq (h : i + 3 < frame.length) :
    readU32be frame i = .ok (Net.readU32be frame i) := by
  simp (disch := omega) only [readU32be, fetch_byteAt, ok_bind]
  rfl

theorem readU32le_eq (h : i + 3 < frame.length) :
    readU32le frame i = .ok (Net.readU32le frame i) := by
  simp (disch := omega) only [readU32le, fetch_byteAt, ok_bind]
  rfl

theorem fetchRange_slice (h : offset + length ≤ frame.length) :
    fetchRange frame offset length = .ok (slice frame offset length) := by
  rw [fetchRange_eq h 0, slice_eq_map h]
  rfl

/-- The pairs that the loop has summed are an even number of bytes. -/
theorem foldl_pairs (frame : List UInt8) (offset n : ℕ) (h : offset + 2 * n ≤ frame.length) :
    (range n).foldl (fun sum k => sum + ((byteAt frame (offset + 2 * k)).toNat * 256 +
      (byteAt frame (offset + (2 * k + 1))).toNat)) 0 = sumWords (slice frame offset (2 * n)) := by
  induction n with
  | zero => rfl
  | succ n ih =>
    rw [range_succ, foldl_append, ih (by omega), slice_eq_map (by omega),
      slice_eq_map h, Nat.mul_add_one, range_succ, range_succ, map_append,
      map_append, append_assoc, sumWords_append _ _ (by simp)]
    simp only [map_cons, map_nil, cons_append, nil_append, sumWords,
      foldl_cons, foldl_nil, Nat.add_zero]

/-- **The loop sums the words of the slice**, an odd byte at the end included. -/
theorem sumBytes_eq (h : offset + length ≤ frame.length) :
    sumBytes frame offset length = .ok (sumWords (slice frame offset length)) := by
  have hloop : (range (length / 2)).foldlM (fun sum k => do
      let hi ← fetch frame (offset + 2 * k)
      let lo ← fetch frame (offset + (2 * k + 1))
      return sum + (hi.toNat * 256 + lo.toNat)) 0 =
      (.ok (sumWords (slice frame offset (2 * (length / 2)))) : Guarded ℕ) := by
    rw [← foldl_pairs frame offset (length / 2) (by omega)]
    refine foldlM_eq 0 fun sum k hk => ?_
    rw [mem_range] at hk
    rw [fetch_byteAt (by omega), ok_bind, fetch_byteAt (by omega)]
    rfl
  rw [sumBytes, hloop, ok_bind]
  rcases Nat.even_or_odd' length with ⟨n, rfl | rfl⟩
  · have hhalf : 2 * n / 2 = n := by omega
    rw [if_neg (by omega), hhalf]
    rfl
  · have hhalf : (2 * n + 1) / 2 = n := by omega
    have hlast : slice frame offset (2 * n + 1) =
        slice frame offset (2 * n) ++ [byteAt frame (offset + 2 * n)] := by
      rw [slice_eq_map h, slice_eq_map (by omega), range_succ, map_append]
      rfl
    have heven : (slice frame offset (2 * n)).length % 2 = 0 := by
      rw [slice_eq_map (by omega)]
      simp
    rw [if_pos (by omega), guardedSub_eq (by omega), ok_bind, Nat.add_sub_cancel,
      fetch_byteAt (by omega), ok_bind, hhalf, hlast, sumWords_append _ _ heven]
    rfl

theorem checksumU16_eq (h : offset + length ≤ frame.length) :
    checksumU16 frame offset length = .ok (Net.checksumU16 (slice frame offset length)) := by
  rw [checksumU16, sumBytes_eq h]
  rfl

/-- A loop over more bytes than there are stops. -/
theorem sumBytes_error (hlen : 1 < length) (h : frame.length < offset + length) :
    ∃ e, sumBytes frame offset length = .error e := by
  rcases Nat.lt_or_ge frame.length (offset + 2 * (length / 2)) with hlt | hge
  · -- the last pair is not in the frame
    refine bind_error (foldlM_error ⟨length / 2 - 1, mem_range.mpr (by omega), fun sum => ?_⟩ _) _
    cases fetch frame (offset + 2 * (length / 2 - 1)) with
    | error e => exact ⟨e, rfl⟩
    | ok hi => exact bind_error ⟨_, fetch_error (by omega)⟩ _
  · -- the odd byte is not
    unfold sumBytes
    cases (range (length / 2)).foldlM (m := Guarded) _ 0 with
    | error e => exact ⟨e, rfl⟩
    | ok sum =>
      rw [ok_bind, if_pos (by omega), guardedSub_eq (by omega), ok_bind]
      exact bind_error ⟨_, fetch_error (by omega)⟩ _

theorem fromRawIpv6_eq (h : offset + 16 ≤ frame.length) :
    fromRawIpv6 frame offset = .ok (IpAddr.fromRawIpv6 frame offset) := by
  rw [fromRawIpv6, fetchRange_eq h 0, ok_bind]
  have hbytes : ∀ i : Fin 16, ((range 16).map fun k => frame.getD (offset + k) 0).getD i 0 =
      byteAt frame (offset + i) := by
    intro i
    have hi : (i : ℕ) < ((range 16).map fun k => frame.getD (offset + k) 0).length := by
      simp
    rw [getD, getElem?_eq_getElem hi, getElem_map, getElem_range]
    rfl
  rw [funext hbytes]
  rfl

end Words

/-! ### Version 4 -/

/-- `eth_frame_has_ipv4`. -/
def ethFrameHasIpv4 (frame : List UInt8) : Guarded Bool := do
  if frame.length < 34 then return false
  if (← readU16be frame 12) ≠ 0x0800 then return false
  if (← fetch frame 14) >>> 4 ≠ 4 then return false
  return true

/-- The check of the header checksum. -/
def ipChecksumOk (frame : List UInt8) (headerBytes : ℕ) : Guarded Bool := do
  if (← readU16be frame 24) = 0 then return true
  return (← checksumU16 frame 14 headerBytes) == 0

/-- `parse_udp`. -/
def parseUdp (frame : List UInt8) : Guarded (Option UdpFields) := do
  if !(← ethFrameHasIpv4 frame) then return none
  let headerBytes := ((← fetch frame 14) &&& 0x0f).toNat * 4
  let ipLen := (← readU16be frame 16).toNat
  if (← fetch frame 23) ≠ 17 then return none
  if headerBytes < 20 ∨ ipLen < headerBytes then return none
  let udp := 14 + headerBytes
  if frame.length < 14 + ipLen ∨ ipLen < headerBytes + 8 then return none
  let udpLength ← readU16be frame (udp + 4)
  if udpLength < 8 ∨ 14 + ipLen < udp + 8 ∨ 14 + ipLen < udp + udpLength.toNat then return none
  if !(← ipChecksumOk frame headerBytes) then return none
  let srcPort ← readU16be frame udp
  let dstPort ← readU16be frame (udp + 2)
  let srcAddress ← readU32le frame 26
  let dstAddress ← readU32le frame 30
  return some ⟨srcPort, dstPort, udpLength, srcAddress, dstAddress⟩

/-- The fields of a TCP header. -/
def tcpFields (frame : List UInt8) (tcp : ℕ) : Guarded TcpFields := do
  let srcPort ← readU16be frame tcp
  let dstPort ← readU16be frame (tcp + 2)
  let seq ← readU32be frame (tcp + 4)
  let ack ← readU32be frame (tcp + 8)
  let flags ← fetch frame (tcp + 13)
  return ⟨srcPort, dstPort, seq, ack, flags⟩

/-- The check of the TCP checksum, which a zero field switches off. -/
def tcpChecksumOk (frame : List UInt8) (tcp : ℕ) (tcpLen : UInt16) : Guarded Bool := do
  let srcIp ← readU32le frame 26
  let dstIp ← readU32le frame 30
  if (← readU16be frame (tcp + 16)) = 0 then return true
  return (← ipv4PseudoChecksum srcIp dstIp 6 tcpLen frame tcp) == 0

/-- `parse_tcp`. -/
def parseTcp (frame : List UInt8) : Guarded (Option TcpFields) := do
  if !(← ethFrameHasIpv4 frame) then return none
  let headerBytes := ((← fetch frame 14) &&& 0x0f).toNat * 4
  let ipLen := (← readU16be frame 16).toNat
  if (← fetch frame 23) ≠ 6 then return none
  if headerBytes < 20 ∨ ipLen < headerBytes + 20 then return none
  if frame.length < 14 + ipLen then return none
  let tcp := 14 + headerBytes
  let tcpBytes := ((← fetch frame (tcp + 12)) >>> 4).toNat * 4
  if tcpBytes < 20 ∨ 60 < tcpBytes then return none
  let room ← guardedSub ipLen headerBytes
  if room < tcpBytes then return none
  let payloadLen ← guardedSub room tcpBytes
  let tcpLen := UInt16.ofNat (tcpBytes + payloadLen)
  if ipLen < tcpBytes then return none
  if !(← ipChecksumOk frame headerBytes) then return none
  if !(← tcpChecksumOk frame tcp tcpLen) then return none
  return some (← tcpFields frame tcp)

/-! ### Version 6 -/

/-- `eth_frame_has_ipv6`. -/
def ethFrameHasIpv6 (frame : List UInt8) : Guarded Bool := do
  if frame.length < 54 then return false
  if (← readU16be frame 12) ≠ 0x86DD then return false
  if (← fetch frame 14) >>> 4 ≠ 6 then return false
  return true

/-- The check of a checksum of version 6. -/
def checksumOkV6 (frame : List UInt8) (nextHeader : UInt8) (length : ℕ) : Guarded Bool := do
  let src ← fromRawIpv6 frame 22
  let dst ← fromRawIpv6 frame 38
  return (← ipv6PseudoChecksum src dst nextHeader length frame 54) == 0

/-- `parse_udp_v6`. -/
def parseUdpV6 (frame : List UInt8) : Guarded (Option UdpFieldsV6) := do
  if !(← ethFrameHasIpv6 frame) then return none
  let plen := (← readU16be frame 18).toNat
  if (← fetch frame 20) ≠ 17 then return none
  if frame.length < 62 then return none
  if frame.length < 54 + plen then return none
  let udpLen ← readU16be frame 58
  if udpLen < 8 ∨ plen < udpLen.toNat then return none
  let srcPort ← readU16be frame 54
  let dstPort ← readU16be frame 56
  if (← readU16be frame 60) = 0 then return none
  if !(← checksumOkV6 frame 17 udpLen.toNat) then return none
  let src ← fromRawIpv6 frame 22
  let dst ← fromRawIpv6 frame 38
  return some ⟨srcPort, dstPort, udpLen, src, dst⟩

/-- `parse_tcp_v6`. -/
def parseTcpV6 (frame : List UInt8) : Guarded (Option (TcpFields × IpAddr × IpAddr)) := do
  if !(← ethFrameHasIpv6 frame) then return none
  let plen := (← readU16be frame 18).toNat
  if (← fetch frame 20) ≠ 6 then return none
  if frame.length < 74 then return none
  if frame.length < 54 + plen then return none
  let tcpBytes := ((← fetch frame 66) >>> 4).toNat * 4
  if tcpBytes < 20 ∨ 60 < tcpBytes then return none
  if plen < tcpBytes then return none
  let fields ← tcpFields frame 54
  let tcpTotal := tcpBytes + (← guardedSub plen tcpBytes)
  let cksum ← readU16be frame 70
  if !(← (if cksum = 0 then pure true else checksumOkV6 frame 6 tcpTotal)) then return none
  let src ← fromRawIpv6 frame 22
  let dst ← fromRawIpv6 frame 38
  return some (fields, src, dst)

section Parsers

variable {frame : List UInt8}

/-- The common form of the two checks of the header. -/
theorem ethFrameHas_eq (frame : List UInt8) {len : ℕ} (hlen : 15 ≤ len) (etherType : UInt16)
    (version : UInt8) :
    (do if frame.length < len then return false
        if (← readU16be frame 12) ≠ etherType then return false
        if (← fetch frame 14) >>> 4 ≠ version then return false
        return true : Guarded Bool) =
      .ok (decide (len ≤ frame.length) && Net.readU16be frame 12 == etherType &&
        byteAt frame 14 >>> 4 == version) := by
  by_cases hshort : frame.length < len
  · rw [if_pos hshort, decide_eq_false (Nat.not_le.mpr hshort)]
    rfl
  · rw [if_neg hshort, decide_eq_true (Nat.not_lt.mp hshort), readU16be_eq (by omega), ok_bind]
    by_cases htype : Net.readU16be frame 12 = etherType
    · rw [if_neg (not_not.mpr htype), fetch_byteAt (by omega), ok_bind, beq_iff_eq.mpr htype]
      by_cases hversion : byteAt frame 14 >>> 4 = version
      · rw [if_neg (not_not.mpr hversion), beq_iff_eq.mpr hversion]
        rfl
      · rw [if_pos hversion, beq_false_of_ne hversion, Bool.and_false]
        rfl
    · rw [if_pos htype, beq_false_of_ne htype, Bool.and_false, Bool.false_and]
      rfl

theorem ethFrameHasIpv4_eq (frame : List UInt8) :
    ethFrameHasIpv4 frame = .ok (Net.ethFrameHasIpv4 frame) :=
  ethFrameHas_eq frame (by decide) 0x0800 4

theorem ethFrameHasIpv6_eq (frame : List UInt8) :
    ethFrameHasIpv6 frame = .ok (Net.ethFrameHasIpv6 frame) :=
  ethFrameHas_eq frame (by decide) 0x86DD 6

theorem ipChecksumOk_eq (hlen : 34 ≤ frame.length)
    (hheader : 14 + ipHeaderBytes frame ≤ frame.length) :
    ipChecksumOk frame (ipHeaderBytes frame) = .ok (Net.ipChecksumOk frame) := by
  rw [ipChecksumOk, Net.ipChecksumOk, readU16be_eq (by omega), ok_bind]
  by_cases hzero : Net.readU16be frame 24 = 0
  · rw [if_pos hzero, hzero]
    rfl
  · rw [if_neg hzero, checksumU16_eq hheader, beq_false_of_ne hzero, Bool.false_or]
    rfl

/-- A frame with a header has the bytes of it. -/
theorem length_of_ethFrameHas {len : ℕ} {etherType version : Bool}
    (h : ¬(!(decide (len ≤ frame.length) && etherType && version)) = true) :
    len ≤ frame.length := by
  rw [not_eq_true', not_eq_false, and_eq_true, and_eq_true, decide_eq_true_eq] at h
  exact h.1.1

theorem header_fold : (byteAt frame 14 &&& 0x0f).toNat * 4 = ipHeaderBytes frame := rfl

theorem total_fold : (Net.readU16be frame 16).toNat = ipTotalLength frame := rfl

theorem tcp_fold {tcp : ℕ} :
    (byteAt frame (tcp + 12) >>> 4).toNat * 4 = tcpHeaderBytes frame tcp := rfl

/-- **`parse_udp` stays in the frame.** -/
theorem parseUdp_eq (frame : List UInt8) : parseUdp frame = .ok (Net.parseUdp frame) := by
  rw [parseUdp, Net.parseUdp, ethFrameHasIpv4_eq, ok_bind]
  refine ite_eq_ok fun heth => ?_
  have hlen : 34 ≤ frame.length := length_of_ethFrameHas heth
  simp (disch := omega) only [fetch_byteAt, readU16be_eq, ok_bind, header_fold, total_fold]
  refine ite_eq_ok fun _ => ite_eq_ok fun hheader => ite_eq_ok fun hend => ?_
  rw [readU16be_eq (by omega), ok_bind]
  refine ite_eq_ok fun _ => ?_
  rw [ipChecksumOk_eq hlen (by omega), ok_bind]
  refine ite_eq_ok fun _ => ?_
  simp (disch := omega) only [readU16be_eq, readU32le_eq, ok_bind]
  rfl

theorem tcpFields_eq {tcp : ℕ} (h : tcp + 20 ≤ frame.length) :
    tcpFields frame tcp = .ok (Net.tcpFields frame tcp) := by
  simp (disch := omega) only [tcpFields, readU16be_eq, readU32be_eq, fetch_byteAt, ok_bind]
  rfl

theorem checksumOkV6_eq (nextHeader : UInt8) {len : ℕ} (hlen : 54 + len ≤ frame.length) :
    checksumOkV6 frame nextHeader len =
      .ok (Net.ipv6PseudoChecksum (IpAddr.fromRawIpv6 frame 22) (IpAddr.fromRawIpv6 frame 38)
        nextHeader (UInt32.ofNat len) (slice frame 54 len) == 0) := by
  simp (disch := omega) only
    [checksumOkV6, fromRawIpv6_eq, ipv6PseudoChecksum, sumBytes_eq, ok_bind]
  rfl

/-- An optional check answers whether it is switched off or passed. -/
theorem not_check_iff {off : Prop} [Decidable off] {sum : UInt16} :
    (!(if off then true else sum == 0)) = true ↔ ¬off ∧ sum ≠ 0 := by
  split <;> simp [*]

theorem tcpChecksumOk_eq {tcp : ℕ} {len : UInt16} (hlen : 34 ≤ frame.length)
    (htcp : tcp + 20 ≤ frame.length) (hend : tcp + len.toNat ≤ frame.length) :
    tcpChecksumOk frame tcp len =
      .ok (if Net.readU16be frame (tcp + 16) = 0 then true
        else Net.ipv4PseudoChecksum (Net.readU32le frame 26) (Net.readU32le frame 30) 6 len
          (slice frame tcp len.toNat) == 0) := by
  simp (disch := omega) only [tcpChecksumOk, readU32le_eq, readU16be_eq, ok_bind]
  refine ite_eq_ok fun _ => ?_
  rw [ipv4PseudoChecksum, sumBytes_eq hend]
  rfl

/-- **`parse_tcp` stays in the frame**, and the length of the payload does not go below
zero. -/
theorem parseTcp_eq (frame : List UInt8) : parseTcp frame = .ok (Net.parseTcp frame) := by
  rw [parseTcp, Net.parseTcp, ethFrameHasIpv4_eq, ok_bind]
  refine ite_eq_ok fun heth => ?_
  have hlen : 34 ≤ frame.length := length_of_ethFrameHas heth
  rw [fetch_byteAt (by omega), ok_bind, readU16be_eq (by omega), ok_bind,
    fetch_byteAt (by omega), ok_bind]
  simp only [header_fold, total_fold]
  refine ite_eq_ok fun _ => ite_eq_ok fun hheader => ite_eq_ok fun hend => ?_
  rw [fetch_byteAt (by omega), ok_bind]
  simp only [tcp_fold]
  refine ite_eq_ok fun htcp => ?_
  rw [guardedSub_eq (by omega), ok_bind, ite_or]
  refine ite_eq_ok fun hroom => ?_
  rw [guardedSub_eq (by omega), ok_bind]
  have htotal := (Net.readU16be frame 16).toNat_lt
  change ipTotalLength frame < 65536 at htotal
  have hseg : (UInt16.ofNat (tcpHeaderBytes frame (14 + ipHeaderBytes frame) +
      (ipTotalLength frame - ipHeaderBytes frame -
        tcpHeaderBytes frame (14 + ipHeaderBytes frame)))).toNat =
      ipTotalLength frame - ipHeaderBytes frame := by
    rw [UInt16.toNat_ofNat']
    omega
  refine ite_eq_ok fun _ => ?_
  rw [ipChecksumOk_eq hlen (by omega), ok_bind]
  refine ite_eq_ok fun _ => ?_
  rw [tcpChecksumOk_eq hlen (by omega) (by omega), ok_bind]
  simp only [not_check_iff]
  refine ite_eq_ok fun _ => ?_
  rw [tcpFields_eq (by omega)]
  rfl

/-- **`parse_udp_v6` stays in the frame.** -/
theorem parseUdpV6_eq (frame : List UInt8) : parseUdpV6 frame = .ok (Net.parseUdpV6 frame) := by
  rw [parseUdpV6, Net.parseUdpV6, ethFrameHasIpv6_eq, ok_bind]
  refine ite_eq_ok fun heth => ?_
  have hlen : 54 ≤ frame.length := length_of_ethFrameHas heth
  rw [readU16be_eq (by omega), ok_bind, fetch_byteAt (by omega), ok_bind]
  refine ite_eq_ok fun _ => ite_eq_ok fun hheader => ite_eq_ok fun hend => ?_
  change ¬frame.length < 54 + ip6PayloadLength frame at hend
  rw [readU16be_eq (by omega), ok_bind]
  refine ite_eq_ok fun hudp => ?_
  change ¬(Net.readU16be frame 58 < 8 ∨
    ip6PayloadLength frame < (Net.readU16be frame 58).toNat) at hudp
  simp (disch := omega) only [readU16be_eq, ok_bind]
  refine ite_eq_ok fun _ => ?_
  rw [checksumOkV6_eq 17 (by omega), ok_bind, UInt32.ofNat_uInt16ToNat]
  simp only [not_eq_true', beq_eq_false_iff_ne]
  refine ite_eq_ok fun _ => ?_
  rw [fromRawIpv6_eq (by omega), ok_bind, fromRawIpv6_eq (by omega)]
  rfl

/-- **`parse_tcp_v6` stays in the frame**, and the length of the payload does not go below
zero. -/
theorem parseTcpV6_eq (frame : List UInt8) : parseTcpV6 frame = .ok (Net.parseTcpV6 frame) := by
  rw [parseTcpV6, Net.parseTcpV6, ethFrameHasIpv6_eq, ok_bind]
  refine ite_eq_ok fun heth => ?_
  have hlen : 54 ≤ frame.length := length_of_ethFrameHas heth
  rw [readU16be_eq (by omega), ok_bind, fetch_byteAt (by omega), ok_bind]
  refine ite_eq_ok fun _ => ite_eq_ok fun hheader => ite_eq_ok fun hend => ?_
  change ¬frame.length < 54 + ip6PayloadLength frame at hend
  rw [fetch_byteAt (by omega), ok_bind]
  refine ite_eq_ok fun _ => ite_eq_ok fun hroom => ?_
  change ¬ip6PayloadLength frame < tcpHeaderBytes frame 54 at hroom
  rw [tcpFields_eq (by omega), ok_bind]
  change (guardedSub (ip6PayloadLength frame) (tcpHeaderBytes frame 54) >>= _) = _
  rw [guardedSub_eq (by omega), ok_bind, readU16be_eq (by omega), ok_bind]
  have hcheck := fun _ : ¬Net.readU16be frame 70 = 0 =>
    checksumOkV6_eq 6 (show 54 + (tcpHeaderBytes frame 54 +
      (ip6PayloadLength frame - tcpHeaderBytes frame 54)) ≤ frame.length by omega)
  change ((if Net.readU16be frame 70 = 0 then pure true else checksumOkV6 frame 6
    (tcpHeaderBytes frame 54 + _)) >>= _) = _
  rw [ite_eq_ok hcheck, ok_bind]
  simp only [not_check_iff]
  refine ite_eq_ok fun _ => ?_
  rw [fromRawIpv6_eq (by omega), ok_bind, fromRawIpv6_eq (by omega)]
  rfl

end Parsers

/-! ### Options -/

/-- The loop of `parse_tcp_options`, with the rounds it may take. -/
def parseTcpOptionsFrom (frame : List UInt8) (tcp headerBytes : ℕ) :
    ℕ → ℕ → UInt16 → UInt8 → Guarded (UInt16 × UInt8)
  | 0, _, _, _ => .error .unfinished
  | fuel + 1, offset, mss, ws => do
    if headerBytes < offset + 1 then return (mss, ws)
    let kind ← fetch frame (tcp + offset)
    if kind = 0 then return (mss, ws)
    if kind = 1 then
      parseTcpOptionsFrom frame tcp headerBytes fuel (offset + 1) mss ws
    else
      if headerBytes < offset + 2 then return (mss, ws)
      let len := (← fetch frame (tcp + (offset + 1))).toNat
      if len < 2 ∨ headerBytes < offset + len then return (mss, ws)
      if kind = 2 ∧ len = 4 ∧ offset + 4 ≤ headerBytes then
        let mss ← readU16be frame (tcp + (offset + 2))
        parseTcpOptionsFrom frame tcp headerBytes fuel (offset + len) mss ws
      else if kind = 3 ∧ len = 3 then
        let ws ← fetch frame (tcp + (offset + 2))
        parseTcpOptionsFrom frame tcp headerBytes fuel (offset + len) mss ws
      else
        parseTcpOptionsFrom frame tcp headerBytes fuel (offset + len) mss ws

/-- `parse_tcp_options` on the header at an offset of the frame. -/
def parseTcpOptions (frame : List UInt8) (tcp headerBytes : ℕ) : Guarded (UInt16 × UInt8) :=
  parseTcpOptionsFrom frame tcp headerBytes (headerBytes + 1) 20 0 0

section Options

variable {frame : List UInt8} {tcp headerBytes offset : ℕ}

theorem slice_eq_cons {len : ℕ} (h : offset < frame.length) :
    slice frame offset (len + 1) = byteAt frame offset :: slice frame (offset + 1) len := by
  rw [slice, drop_eq_getElem_cons h, take_succ_cons, byteAt, getD,
    getElem?_eq_getElem h]
  rfl

theorem drop_slice (n len : ℕ) :
    (slice frame offset len).drop n = slice frame (offset + n) (len - n) := by
  rw [slice, drop_take, drop_drop, slice]

theorem byteAt_slice {i len : ℕ} (h : i < len) :
    byteAt (slice frame offset len) i = byteAt frame (offset + i) := by
  rw [byteAt, byteAt, getD, getD, slice, getElem?_take_of_lt h, getElem?_drop]

theorem length_slice {len : ℕ} (h : offset + len ≤ frame.length) :
    (slice frame offset len).length = len := by
  rw [slice, length_take, length_drop]
  omega

/-- **The loop over the options reads the header only**: what is left of the header is what
is left of the list. -/
theorem parseTcpOptionsFrom_eq (hend : tcp + headerBytes ≤ frame.length) {fuel fuel' : ℕ}
    (hoffset : offset ≤ headerBytes) (hfuel : headerBytes - offset < fuel)
    (hfuel' : headerBytes - offset ≤ fuel') (mss : UInt16) (ws : UInt8) :
    parseTcpOptionsFrom frame tcp headerBytes fuel offset mss ws =
      .ok (Net.parseTcpOptionsFrom fuel' (slice frame (tcp + offset) (headerBytes - offset))
        mss ws) := by
  induction fuel generalizing offset fuel' mss ws with
  | zero => omega
  | succ fuel ih =>
    rw [parseTcpOptionsFrom]
    by_cases hdone : headerBytes < offset + 1
    · have hnone : headerBytes - offset = 0 := by omega
      rw [if_pos hdone, hnone, slice, take_zero]
      cases fuel' <;> rfl
    obtain ⟨n, hn⟩ : ∃ n, headerBytes - offset = n + 1 := ⟨headerBytes - offset - 1, by omega⟩
    obtain ⟨fuel', rfl⟩ : ∃ m, fuel' = m + 1 := ⟨fuel' - 1, by omega⟩
    rw [if_neg hdone, fetch_byteAt (by omega), ok_bind, hn, slice_eq_cons (by omega),
      Net.parseTcpOptionsFrom]
    refine ite_eq_ok fun _ => ?_
    have hnext : ∀ k, 1 ≤ k → offset + k ≤ headerBytes → ∀ mss ws,
        parseTcpOptionsFrom frame tcp headerBytes fuel (offset + k) mss ws =
          .ok (Net.parseTcpOptionsFrom fuel'
            ((slice frame (tcp + offset + 1) n).drop (k - 1)) mss ws) := by
      intro k hk hle mss ws
      rw [ih hle (by omega) (show headerBytes - (offset + k) ≤ fuel' by omega), drop_slice]
      congr 3 <;> omega
    by_cases hnop : byteAt frame (tcp + offset) = 1
    · rw [if_pos hnop, if_pos hnop, hnext 1 (le_refl 1) (by omega), Nat.sub_self, drop_zero]
    rw [if_neg hnop, if_neg hnop]
    by_cases hshort : headerBytes < offset + 2
    · have hn0 : n = 0 := by omega
      rw [if_pos hshort, hn0, slice, take_zero, if_pos (.inl rfl)]
      rfl
    have hlen : (slice frame (tcp + offset + 1) n).length = n := length_slice (by omega)
    have hsize : byteAt (slice frame (tcp + offset + 1) n) 0 = byteAt frame (tcp + (offset + 1)) :=
      byteAt_slice (by omega)
    have hfits : (slice frame (tcp + offset + 1) n = [] ∨
        (byteAt frame (tcp + (offset + 1))).toNat < 2 ∨
        (slice frame (tcp + offset + 1) n).length + 1 < (byteAt frame (tcp + (offset + 1))).toNat) ↔
        ((byteAt frame (tcp + (offset + 1))).toNat < 2 ∨
          headerBytes < offset + (byteAt frame (tcp + (offset + 1))).toNat) := by
      rw [← length_eq_zero_iff, hlen]
      omega
    rw [if_neg hshort, fetch_byteAt (by omega), ok_bind]
    simp only [hsize, hfits]
    refine ite_eq_ok fun hbad => ?_
    by_cases hmss : byteAt frame (tcp + offset) = 2 ∧
        (byteAt frame (tcp + (offset + 1))).toNat = 4
    · have hword : Net.readU16be (slice frame (tcp + offset + 1) n) 1 =
          Net.readU16be frame (tcp + (offset + 2)) := by
        rw [Net.readU16be, byteAt_slice (by omega), byteAt_slice (by omega)]
        rfl
      rw [if_pos ⟨hmss.1, hmss.2, by omega⟩, if_pos hmss, readU16be_eq (by omega), ok_bind,
        hnext _ (by omega) (by omega), hword]
    rw [if_neg (fun h => hmss ⟨h.1, h.2.1⟩), if_neg hmss]
    by_cases hscale : byteAt frame (tcp + offset) = 3 ∧
        (byteAt frame (tcp + (offset + 1))).toNat = 3
    · have hbyte : byteAt (slice frame (tcp + offset + 1) n) 1 =
          byteAt frame (tcp + (offset + 2)) := byteAt_slice (by omega)
      rw [if_pos hscale, if_pos hscale, fetch_byteAt (by omega), ok_bind,
        hnext _ (by omega) (by omega), hbyte]
    rw [if_neg hscale, if_neg hscale, hnext _ (by omega) (by omega)]

/-- **`parse_tcp_options` reads the header only** and ends, whatever the lengths in it. -/
theorem parseTcpOptions_eq (hend : tcp + headerBytes ≤ frame.length) (hheader : 20 ≤ headerBytes) :
    parseTcpOptions frame tcp headerBytes =
      .ok (Net.parseTcpOptions (slice frame (tcp + 20) (headerBytes - 20))) := by
  rw [parseTcpOptions, Net.parseTcpOptions, length_slice (by omega)]
  exact parseTcpOptionsFrom_eq hend hheader (by omega) (le_refl _) 0 0

end Options

/-! ### Payloads -/

/-- What `network_stack_process_udp_frame` reads: the fields, and the data that goes to the
buffer of the flow. -/
def readUdpFrame (frame : List UInt8) : Guarded (Option (UdpFields × List UInt8)) := do
  if frame.length < 34 then return none
  let some fields ← parseUdp frame | return none
  if fields.payloadLen.toNat ≤ 8 then return some (fields, [])
  let headerBytes := ((← fetch frame 14) &&& 0x0f).toNat * 4
  let dataLen ← guardedSub fields.payloadLen.toNat 8
  return some (fields, ← fetchRange frame (14 + headerBytes + 8) dataLen)

/-- What `network_stack_process_udp_frame_v6` reads. -/
def readUdpFrameV6 (frame : List UInt8) : Guarded (Option (UdpFieldsV6 × List UInt8)) := do
  if frame.length < 62 then return none
  let some fields ← parseUdpV6 frame | return none
  if fields.payloadLen.toNat ≤ 8 then return some (fields, [])
  let dataLen ← guardedSub fields.payloadLen.toNat 8
  return some (fields, ← fetchRange frame 62 dataLen)

/-- What `network_stack_process_tcp_frame` reads: the fields, the options as for a SYN, and
the payload as for an open connection. -/
def readTcpFrame (frame : List UInt8) :
    Guarded (Option (TcpFields × (UInt16 × UInt8) × List UInt8)) := do
  if frame.length < 54 then return none
  let some fields ← parseTcp frame | return none
  let headerBytes := ((← fetch frame 14) &&& 0x0f).toNat * 4
  let tcp := 14 + headerBytes
  let tcpBytes := ((← fetch frame (tcp + 12)) >>> 4).toNat * 4
  let options ← parseTcpOptions frame tcp tcpBytes
  let ipTotal := (← readU16be frame 16).toNat
  let payloadLen ← guardedSub (← guardedSub ipTotal headerBytes) tcpBytes
  return some (fields, options, ← fetchRange frame (tcp + tcpBytes) payloadLen)

/-- What `network_stack_process_tcp_frame_v6` reads: the fields, the addresses and the
payload as for an open connection. -/
def readTcpFrameV6 (frame : List UInt8) :
    Guarded (Option ((TcpFields × IpAddr × IpAddr) × List UInt8)) := do
  if frame.length < 74 then return none
  let some fields ← parseTcpV6 frame | return none
  let tcpBytes := ((← fetch frame 66) >>> 4).toNat * 4
  let plen := (← readU16be frame 18).toNat
  let payloadLen ← guardedSub plen tcpBytes
  return some (fields, ← fetchRange frame (54 + tcpBytes) payloadLen)

theorem readUdpFrame_eq (frame : List UInt8) :
    readUdpFrame frame = .ok ((Net.parseUdp frame).map fun fields =>
      (fields, slice frame (14 + ipHeaderBytes frame + 8) (fields.payloadLen.toNat - 8))) := by
  rw [readUdpFrame, parseUdp_eq, ok_bind]
  cases h : Net.parseUdp frame with
  | none => exact ite_self _
  | some fields =>
    obtain ⟨hlen, -, hend⟩ := spec_of_parseUdp h
    rw [if_neg (by omega)]
    by_cases hdata : fields.payloadLen.toNat ≤ 8
    · have hnone : fields.payloadLen.toNat - 8 = 0 := by omega
      dsimp only
      rw [if_pos hdata, Option.map_some, hnone, slice, take_zero]
      rfl
    · dsimp only
      rw [if_neg hdata, fetch_byteAt (by omega), ok_bind, guardedSub_eq (by omega), ok_bind]
      change (fetchRange frame (14 + ipHeaderBytes frame + 8) _ >>= _) = _
      rw [fetchRange_slice (by omega)]
      rfl

theorem readUdpFrameV6_eq (frame : List UInt8) :
    readUdpFrameV6 frame = .ok ((Net.parseUdpV6 frame).map fun fields =>
      (fields, slice frame 62 (fields.payloadLen.toNat - 8))) := by
  rw [readUdpFrameV6, parseUdpV6_eq, ok_bind]
  cases h : Net.parseUdpV6 frame with
  | none => exact ite_self _
  | some fields =>
    obtain ⟨hlen, -, hend, -⟩ := spec_of_parseUdpV6 h
    rw [if_neg (by omega)]
    by_cases hdata : fields.payloadLen.toNat ≤ 8
    · have hnone : fields.payloadLen.toNat - 8 = 0 := by omega
      dsimp only
      rw [if_pos hdata, Option.map_some, hnone, slice, take_zero]
      rfl
    · dsimp only
      rw [if_neg hdata, guardedSub_eq (by omega), ok_bind, fetchRange_slice (by omega)]
      rfl

theorem readTcpFrame_eq (frame : List UInt8) :
    readTcpFrame frame = .ok ((Net.parseTcp frame).map fun fields =>
      (fields, Net.parseTcpOptions (segmentV4 frame fields).options,
        (segmentV4 frame fields).payload)) := by
  rw [readTcpFrame, parseTcp_eq, ok_bind]
  cases h : Net.parseTcp frame with
  | none => exact ite_self _
  | some fields =>
    obtain ⟨hlen, htcp, htotal, hend⟩ := spec_of_parseTcp h
    rw [if_neg (by omega)]
    dsimp only
    rw [fetch_byteAt (by omega), ok_bind]
    simp only [header_fold]
    rw [fetch_byteAt (by omega), ok_bind]
    simp only [tcp_fold]
    rw [parseTcpOptions_eq (by omega) htcp, ok_bind, readU16be_eq (by omega), ok_bind]
    simp only [total_fold]
    rw [guardedSub_eq (by omega), ok_bind, guardedSub_eq (by omega), ok_bind,
      fetchRange_slice (by omega)]
    rfl

theorem readTcpFrameV6_eq (frame : List UInt8) :
    readTcpFrameV6 frame = .ok ((Net.parseTcpV6 frame).map fun r =>
      (r, (segmentV6 frame r.1).payload)) := by
  rw [readTcpFrameV6, parseTcpV6_eq, ok_bind]
  cases h : Net.parseTcpV6 frame with
  | none => exact ite_self _
  | some r =>
    obtain ⟨hlen, htcp, hend⟩ := spec_of_parseTcpV6 h
    rw [if_neg (by omega)]
    dsimp only
    rw [fetch_byteAt (by omega), ok_bind, readU16be_eq (by omega), ok_bind]
    change (guardedSub (ip6PayloadLength frame) (tcpHeaderBytes frame 54) >>= _) = _
    rw [guardedSub_eq htcp, ok_bind]
    change (fetchRange frame (54 + tcpHeaderBytes frame 54) _ >>= _) = _
    rw [fetchRange_slice (by omega)]
    rfl

/-- **The transport parsers stay in bounds.** For every frame, the four parsers and what
the four handlers read of a frame, options and payload included, make no fault: each
succeeds with what the model of the stack has for it. -/
theorem parsers_in_bounds (frame : List UInt8) :
    parseUdp frame = .ok (Net.parseUdp frame) ∧
    parseTcp frame = .ok (Net.parseTcp frame) ∧
    parseUdpV6 frame = .ok (Net.parseUdpV6 frame) ∧
    parseTcpV6 frame = .ok (Net.parseTcpV6 frame) ∧
    readUdpFrame frame = .ok ((Net.parseUdp frame).map fun fields =>
      (fields, slice frame (14 + ipHeaderBytes frame + 8) (fields.payloadLen.toNat - 8))) ∧
    readTcpFrame frame = .ok ((Net.parseTcp frame).map fun fields =>
      (fields, Net.parseTcpOptions (segmentV4 frame fields).options,
        (segmentV4 frame fields).payload)) ∧
    readUdpFrameV6 frame = .ok ((Net.parseUdpV6 frame).map fun fields =>
      (fields, slice frame 62 (fields.payloadLen.toNat - 8))) ∧
    readTcpFrameV6 frame = .ok ((Net.parseTcpV6 frame).map fun r =>
      (r, (segmentV6 frame r.1).payload)) :=
  ⟨parseUdp_eq frame, parseTcp_eq frame, parseUdpV6_eq frame, parseTcpV6_eq frame,
    readUdpFrame_eq frame, readTcpFrame_eq frame, readUdpFrameV6_eq frame,
    readTcpFrameV6_eq frame⟩

end Xaios.Net.Bounds
