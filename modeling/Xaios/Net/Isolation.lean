import Xaios.Net.Checksum
import Xaios.Net.Datagrams
import Xaios.Net.Pool

/-!
# Isolation of UDP peers

Which peers share a flow. The peers whose datagrams the flow of a slot has taken are kept
beside the stack (`Net.Traced`). They all have the key of the flow
(`Net.Traced.Tagged`). So a set of peers is isolated, in every run in which no other
peer sends a datagram, exactly when no two of them have the same key
(`Net.udp_isolated_iff`).

For the converse every peer gets a datagram of its own (`Net.Endpoints.call`), with a
right checksum, and two peers with one key send theirs one after the other.
-/

namespace Xaios.Net

open Foundation Stack Function List

variable {s t : Stack} {c : Call} {e : Endpoints} {i : Fin 16}

/-! ### Runs -/

/-- A stack, and for each slot the peers whose datagrams its last flow has taken. -/
structure Traced where
  stack : Stack
  seen : Fin 16 → List Endpoints

/-- The peers whose datagrams the flow of a slot has taken; without a flow there are none. -/
def Traced.earlier (w : Traced) (i : Fin 16) : List Endpoints :=
  if (w.stack.udpFlows i).active then w.seen i else []

/-- A call. A datagram that is taken is noted. -/
def Traced.exec (w : Traced) (c : Call) : Traced where
  stack := c.exec w.stack
  seen :=
    match c.received w.stack with
    | some (e, i) => update w.seen i (w.earlier i ++ [e])
    | none => w.seen

/-- **What a call may do with a datagram.** The flow that takes it has only taken datagrams
of the same peer, and nothing is written but into the receive buffer of this flow, which
no other flow has. -/
structure Traced.Isolated (w : Traced) (c : Call) : Prop where
  peers : ∀ e i, c.received w.stack = some (e, i) → ∀ e' ∈ w.earlier i, e' = e
  delivered : c.endpoints ≠ none → ∀ b, (c.exec w.stack).pool b ≠ w.stack.pool b →
    ∃ e i, c.received w.stack = some (e, i) ∧ ∀ r, (c.exec w.stack).ref r = some b ↔ r = .udp i

/-- What is noted at an active slot has the key of its flow. -/
structure Traced.Tagged (D : Set Endpoints) (w : Traced) : Prop where
  sound : w.stack.custody.Sound
  key : ∀ i, (w.stack.udpFlows i).active = true → ∀ e ∈ w.seen i, e.key = (w.stack.udpFlows i).key
  known : ∀ i, ∀ e ∈ w.seen i, e ∈ D

/-- The stack at boot, with nothing noted. -/
def tracedBoot : Traced := ⟨boot, fun _ => []⟩

section Runs

variable {D : Set Endpoints} {w : Traced}

theorem tagged_tracedBoot : tracedBoot.Tagged D :=
  ⟨conserved_boot.toSound, fun _ _ _ h => (nomatch h), fun _ _ h => (nomatch h)⟩

open Traced

theorem Traced.seen_exec_of_none (h : c.received w.stack = none) : (w.exec c).seen = w.seen := by
  simp only [exec, h]

theorem Traced.seen_exec_of_some (h : c.received w.stack = some (e, i)) :
    (w.exec c).seen = update w.seen i (w.earlier i ++ [e]) := by
  simp only [exec, h]

theorem received_of_endpoints (h : c.endpoints = none) : c.received s = none := by
  rw [Call.received, h]
  exact ite_self none

theorem Traced.mem_earlier {e' : Endpoints} (h : e' ∈ w.earlier i) :
    (w.stack.udpFlows i).active = true ∧ e' ∈ w.seen i := by
  unfold earlier at h
  split at h
  · next hactive => exact ⟨hactive, h⟩
  · nomatch h

/-- A call that takes no datagram: the flows that are left have their keys. -/
theorem Traced.Tagged.exec_of_none (hw : w.Tagged D) (hnone : c.received w.stack = none)
    (hflows : ∀ i, ((c.exec w.stack).udpFlows i).active = true →
      (w.stack.udpFlows i).active = true ∧
        ((c.exec w.stack).udpFlows i).key = (w.stack.udpFlows i).key) :
    (w.exec c).Tagged D := by
  refine ⟨(custody_exec w.stack c).sound hw.sound, fun i hactive e he => ?_, ?_⟩
  · rw [seen_exec_of_none hnone] at he
    obtain ⟨hbefore, hkey⟩ := hflows i hactive
    exact (hw.key i hbefore e he).trans hkey.symm
  · rw [seen_exec_of_none hnone]
    exact hw.known

/-- The flow of a slot takes a datagram: it has its key already, or it is new. -/
theorem Traced.Tagged.exec_of_takes (hw : w.Tagged D) (he : e ∈ D)
    (hsome : c.received w.stack = some (e, i)) {b : QueueBinding}
    (h : Takes w.stack (c.exec w.stack) e.key b i) : (w.exec c).Tagged D := by
  refine ⟨(custody_exec w.stack c).sound hw.sound, fun j hactive e' he' => ?_, fun j e' he' => ?_⟩
  · rw [seen_exec_of_some hsome] at he'
    rcases eq_or_ne j i with rfl | hne
    · rw [update_self, mem_append, mem_singleton] at he'
      refine Eq.trans ?_ h.key.symm
      rcases he' with hearlier | rfl
      · obtain ⟨hbefore, hmem⟩ := mem_earlier hearlier
        exact (hw.key j hbefore e' hmem).trans (key_of_udpSlot h.slot hbefore)
      · rfl
    · rw [update_of_ne hne] at he'
      have hflow : (w.exec c).stack.udpFlows j = w.stack.udpFlows j := h.others j hne
      rw [hflow] at hactive ⊢
      exact hw.key j hactive e' he'
  · rw [seen_exec_of_some hsome] at he'
    rcases eq_or_ne j i with rfl | hne
    · rw [update_self, mem_append, mem_singleton] at he'
      rcases he' with hearlier | rfl
      · exact hw.known j e' (mem_earlier hearlier).2
      · exact he
    · rw [update_of_ne hne] at he'
      exact hw.known j e' he'

/-- **One call**: peers with different keys are isolated. -/
theorem Traced.Tagged.isolated (hw : w.Tagged D) (hinj : Set.InjOn Endpoints.key D)
    (hc : ∀ e, c.endpoints = some e → e ∈ D) : w.Isolated c ∧ (w.exec c).Tagged D := by
  rcases he : c.endpoints with _ | e
  · have hnone := received_of_endpoints (s := w.stack) he
    refine ⟨⟨fun e i h => ?_, fun h => absurd he h⟩, hw.exec_of_none hnone fun i hactive => ?_⟩
    · rw [hnone] at h
      nomatch h
    · rcases udpFlows_exec w.stack he i with heq | hdead
      · rw [heq] at hactive ⊢
        exact ⟨hactive, rfl⟩
      · rw [hdead] at hactive
        nomatch hactive
  · rcases exec_datagram_cases w.stack he with ⟨hnone, h⟩ | ⟨b, i, hsome, h⟩
    · refine ⟨⟨fun e i hsome => ?_, fun _ b hb => absurd (congrFun h.pool b) hb⟩,
        hw.exec_of_none hnone fun i hactive => ⟨(h.active i).symm.trans hactive, h.key i⟩⟩
      rw [hnone] at hsome
      nomatch hsome
    · have hw' := hw.exec_of_takes (hc e he) hsome h
      refine ⟨⟨fun e₁ i₁ hsome₁ e' he' => ?_, fun _ c₁ hpool => ⟨e, i, hsome, fun r => ?_⟩⟩, hw'⟩
      · rw [hsome] at hsome₁
        obtain ⟨rfl, rfl⟩ := Prod.mk.inj (Option.some.inj hsome₁)
        obtain ⟨hbefore, hmem⟩ := mem_earlier he'
        refine hinj (hw.known i e' hmem) (hc e he) ?_
        exact (hw.key i hbefore e' hmem).trans (key_of_udpSlot h.slot hbefore)
      · have hself : (c.exec w.stack).ref (.udp i) = some c₁ := h.pool c₁ hpool
        constructor
        · exact fun hr => hw'.sound.distinct r (.udp i) c₁ hr hself
        · rintro rfl
          exact hself

end Runs

/-! ### A datagram of every peer -/

/-- A word as `Net.readU32le` reads it. -/
def writeLe32 (v : UInt32) : List UInt8 :=
  [v.toUInt8, (v >>> 8).toUInt8, (v >>> 16).toUInt8, (v >>> 24).toUInt8]

theorem le32_writeLe32 (v : UInt32) :
    v.toUInt8.toUInt32 ||| (v >>> 8).toUInt8.toUInt32 <<< 8 |||
      (v >>> 16).toUInt8.toUInt32 <<< 16 ||| (v >>> 24).toUInt8.toUInt32 <<< 24 = v := by
  have hswap : ∀ a b c d : UInt32, a ||| b ||| c ||| d = d ||| c ||| b ||| a := by
    intro a b c d
    rw [UInt32.or_comm _ d, UInt32.or_comm _ c, UInt32.or_comm a b, UInt32.or_assoc,
      UInt32.or_assoc]
  exact (hswap _ _ _ _).trans (be32_bytes v)

/-- A datagram of one byte, of version 4. -/
def udpFrameOf (localAddress remoteAddress : UInt32) (localPort remotePort : UInt16) (x : UInt8) :
    List UInt8 :=
  [0, 0, 0, 0, 0, 0, 0, 0, 0, 0, 0, 0, 0x08, 0x00, 0x45, 0, 0, 29, 0, 0, 0, 0, 64, 17, 0, 0] ++
    (writeLe32 remoteAddress ++ (writeLe32 localAddress ++
      (writeBe16 remotePort ++ (writeBe16 localPort ++ [0, 9, 0, 0, x]))))

/-- What `parse_udp` checks in a frame without options. -/
theorem parseUdp_of_fields {frame : List UInt8} (heth : ethFrameHasIpv4 frame = true)
    (hproto : byteAt frame 23 = 17) (hip : ipHeaderBytes frame = 20)
    (htotal : ipTotalLength frame = 29) (hlen : frame.length = 43)
    (hudp : readU16be frame 38 = 9) (hsum : ipChecksumOk frame = true) :
    parseUdp frame = some ⟨readU16be frame 34, readU16be frame 36, 9, readU32le frame 26,
      readU32le frame 30⟩ := by
  have hshort : ¬((9 : UInt16) < 8 ∨ 14 + 29 < 14 + 20 + 8 ∨
      14 + 29 < 14 + 20 + (9 : UInt16).toNat) := by decide
  unfold parseUdp
  dsimp only
  rw [hip, htotal, hlen, heth, hproto, hsum, hudp, if_neg (by decide), if_neg (by decide),
    if_neg (by decide), if_neg (by decide), if_neg hshort, if_neg (by decide)]

theorem parseUdp_udpFrameOf (localAddress remoteAddress : UInt32) (localPort remotePort : UInt16)
    (x : UInt8) : parseUdp (udpFrameOf localAddress remoteAddress localPort remotePort x) =
      some ⟨remotePort, localPort, 9, remoteAddress, localAddress⟩ := by
  obtain ⟨frame, hframe⟩ :
      ∃ frame, frame = udpFrameOf localAddress remoteAddress localPort remotePort x := ⟨_, rfl⟩
  have hlen : frame.length = 43 := hframe ▸ rfl
  have htype : readU16be frame 12 = (8 : UInt8).toUInt16 <<< 8 ||| 0 := hframe ▸ rfl
  have hversion : byteAt frame 14 = 0x45 := hframe ▸ rfl
  have hzero : readU16be frame 24 = (0 : UInt8).toUInt16 <<< 8 ||| 0 := hframe ▸ rfl
  have htotal : readU16be frame 16 = (0 : UInt8).toUInt16 <<< 8 ||| (29 : UInt8).toUInt16 :=
    hframe ▸ rfl
  have hudp : readU16be frame 38 = (0 : UInt8).toUInt16 <<< 8 ||| (9 : UInt8).toUInt16 :=
    hframe ▸ rfl
  have hsrc : readU16be frame 34 = remotePort := hframe ▸ be16_bytes remotePort
  have hdst : readU16be frame 36 = localPort := hframe ▸ be16_bytes localPort
  have hremote : readU32le frame 26 = remoteAddress := hframe ▸ le32_writeLe32 remoteAddress
  have hlocal : readU32le frame 30 = localAddress := hframe ▸ le32_writeLe32 localAddress
  rw [← hframe, parseUdp_of_fields _ (hframe ▸ rfl) (ipHeaderBytes_of_first hversion) _ hlen _ _,
    hsrc, hdst, hremote, hlocal]
  · rw [ethFrameHasIpv4, hlen, htype, hversion]
    rfl
  · rw [ipTotalLength, htotal]
    rfl
  · rw [hudp]
    rfl
  · rw [ipChecksumOk, hzero]
    rfl

/-- What `parse_udp_v6` checks in a frame with one byte of payload. -/
theorem parseUdpV6_of_fields {frame : List UInt8} {src dst : Fin 16 → UInt8}
    (heth : ethFrameHasIpv6 frame = true) (hnext : byteAt frame 20 = 17)
    (hlen : frame.length = 63) (hpayload : ip6PayloadLength frame = 9)
    (hudp : readU16be frame 58 = 9) (hsum : readU16be frame 60 ≠ 0)
    (hsrc : IpAddr.fromRawIpv6 frame 22 = ⟨6, src⟩) (hdst : IpAddr.fromRawIpv6 frame 38 = ⟨6, dst⟩)
    (hcksum : ipv6PseudoChecksum ⟨6, src⟩ ⟨6, dst⟩ 17 9 (slice frame 54 9) = 0) :
    parseUdpV6 frame = some ⟨readU16be frame 54, readU16be frame 56, 9, ⟨6, src⟩, ⟨6, dst⟩⟩ := by
  have hshort : ¬((9 : UInt16) < 8 ∨ 9 < (9 : UInt16).toNat) := by decide
  have hright : ¬ipv6PseudoChecksum ⟨6, src⟩ ⟨6, dst⟩ 17 (9 : UInt16).toUInt32
      (slice frame 54 (9 : UInt16).toNat) ≠ 0 := not_not.mpr hcksum
  unfold parseUdpV6
  rw [hsrc, hdst, hudp, hpayload, hlen, heth, hnext, if_neg (by decide), if_neg (by decide),
    if_neg (by decide), if_neg (by decide), if_neg hshort, if_neg hsum, if_neg hright]

/-- The bytes of an address. -/
theorem fromRawIpv6_append (l r : List UInt8) (a : Fin 16 → UInt8) :
    IpAddr.fromRawIpv6 (l ++ (List.ofFn a ++ r)) l.length = ⟨6, a⟩ := by
  unfold IpAddr.fromRawIpv6
  congr 1
  funext i
  rw [byteAt_append]
  have hi : i.val < (List.ofFn a).length := by
    rw [length_ofFn]
    exact i.isLt
  rw [byteAt, getD_eq_getElem?_getD, getElem?_append_left hi,
    List.getElem?_eq_getElem hi, List.getElem_ofFn]
  rfl

section FrameV6

variable (localAddr remoteAddr : Fin 16 → UInt8) (localPort remotePort cksum : UInt16) (x : UInt8)

/-- The Ethernet header and the version 6 header up to the addresses. -/
def udpLeadV6 : List UInt8 :=
  [0, 0, 0, 0, 0, 0, 0, 0, 0, 0, 0, 0, 0x86, 0xDD, 0x60, 0, 0, 0, 0, 9, 17, 64]

/-- The UDP header and one byte of payload. -/
def udpPart : List UInt8 :=
  writeBe16 remotePort ++ (writeBe16 localPort ++ ([0, 9] ++ (writeBe16 cksum ++ [x])))

/-- What is summed for the checksum of a datagram of one byte, but the checksum. -/
def udpSum : ℕ :=
  sumWords (List.ofFn remoteAddr) + sumWords (List.ofFn localAddr) + remotePort.toNat +
    localPort.toNat + 256 * x.toNat + 35

/-- The checksum that is right. -/
def udpCksum : UInt16 :=
  UInt16.ofNat (65535 - udpSum localAddr remoteAddr localPort remotePort x % 65535)

/-- A datagram of one byte, of version 6. -/
def udpFrameV6Of : List UInt8 :=
  (udpLeadV6 ++ List.ofFn remoteAddr) ++ List.ofFn localAddr ++
    udpPart localPort remotePort (udpCksum localAddr remoteAddr localPort remotePort x) x

theorem length_udpLeadV6 :
    ((udpLeadV6 ++ List.ofFn remoteAddr) ++ List.ofFn localAddr).length = 54 := by
  rw [length_append, length_append, length_ofFn, length_ofFn]
  rfl

theorem readU16be_udpFrameV6Of (j : ℕ) :
    readU16be (udpFrameV6Of localAddr remoteAddr localPort remotePort x) (54 + j) =
      readU16be (udpPart localPort remotePort
        (udpCksum localAddr remoteAddr localPort remotePort x) x) j := by
  rw [udpFrameV6Of, ← length_udpLeadV6 localAddr remoteAddr, readU16be, readU16be, Nat.add_assoc,
    byteAt_append, byteAt_append]

theorem slice_udpFrameV6Of :
    slice (udpFrameV6Of localAddr remoteAddr localPort remotePort x) 54 9 =
      udpPart localPort remotePort (udpCksum localAddr remoteAddr localPort remotePort x) x := by
  rw [slice, udpFrameV6Of, drop_left' (length_udpLeadV6 localAddr remoteAddr)]
  rfl

theorem srcAddr_udpFrameV6Of :
    IpAddr.fromRawIpv6 (udpFrameV6Of localAddr remoteAddr localPort remotePort x) 22 =
      ⟨6, remoteAddr⟩ := by
  rw [udpFrameV6Of, append_assoc, append_assoc]
  exact fromRawIpv6_append udpLeadV6 _ remoteAddr

theorem dstAddr_udpFrameV6Of :
    IpAddr.fromRawIpv6 (udpFrameV6Of localAddr remoteAddr localPort remotePort x) 38 =
      ⟨6, localAddr⟩ := by
  have hlen : (udpLeadV6 ++ List.ofFn remoteAddr).length = 38 := by
    rw [length_append, length_ofFn]
    rfl
  rw [udpFrameV6Of, append_assoc, ← hlen]
  exact fromRawIpv6_append _ _ localAddr

theorem toNat_udpCksum : (udpCksum localAddr remoteAddr localPort remotePort x).toNat =
    65535 - udpSum localAddr remoteAddr localPort remotePort x % 65535 :=
  UInt16.toNat_ofNat_of_lt' (Nat.lt_of_le_of_lt (Nat.sub_le _ _) (by decide))

theorem sumWords_udpPart : sumWords (udpPart localPort remotePort cksum x) =
    remotePort.toNat + localPort.toNat + 9 + cksum.toNat + 256 * x.toNat := by
  have hword : ∀ (v : UInt16) (r : List UInt8), sumWords (writeBe16 v ++ r) =
      v.toNat + sumWords r := by
    intro v r
    rw [sumWords_append _ _ (by simp [writeBe16]), sumWords_writeBe16]
  have hlen : sumWords [0, 9] = 9 := rfl
  have hx : sumWords [x] = x.toNat * 256 := rfl
  rw [udpPart, hword, hword, sumWords_append _ _ rfl, hword, hlen, hx]
  omega

/-- **The checksum is right.** -/
theorem ipv6PseudoChecksum_udpPart :
    ipv6PseudoChecksum ⟨6, remoteAddr⟩ ⟨6, localAddr⟩ 17 9 (udpPart localPort remotePort
      (udpCksum localAddr remoteAddr localPort remotePort x) x) = 0 := by
  have h9 : (9 : UInt32).toNat = 9 := rfl
  have h17 : (17 : UInt8).toNat = 17 := rfl
  rw [ipv6PseudoChecksum, checksumOf_eq_zero_iff, sumWords_udpPart, toNat_udpCksum, h9, h17]
  unfold udpSum
  dsimp only
  omega

theorem parseUdpV6_udpFrameV6Of :
    parseUdpV6 (udpFrameV6Of localAddr remoteAddr localPort remotePort x) =
      some ⟨remotePort, localPort, 9, ⟨6, remoteAddr⟩, ⟨6, localAddr⟩⟩ := by
  have hword := readU16be_udpFrameV6Of localAddr remoteAddr localPort remotePort x
  have hsrc := srcAddr_udpFrameV6Of localAddr remoteAddr localPort remotePort x
  have hdst := dstAddr_udpFrameV6Of localAddr remoteAddr localPort remotePort x
  have hslice := slice_udpFrameV6Of localAddr remoteAddr localPort remotePort x
  have hcksum := toNat_udpCksum localAddr remoteAddr localPort remotePort x
  have hsum := ipv6PseudoChecksum_udpPart localAddr remoteAddr localPort remotePort x
  rw [← hslice] at hsum
  obtain ⟨frame, hframe⟩ :
      ∃ frame, frame = udpFrameV6Of localAddr remoteAddr localPort remotePort x := ⟨_, rfl⟩
  have htype : readU16be frame 12 = (0x86 : UInt8).toUInt16 <<< 8 ||| (0xDD : UInt8).toUInt16 :=
    hframe ▸ rfl
  have hversion : byteAt frame 14 = 0x60 := hframe ▸ rfl
  have hnext : byteAt frame 20 = 17 := hframe ▸ rfl
  have hpayload : readU16be frame 18 = (0 : UInt8).toUInt16 <<< 8 ||| (9 : UInt8).toUInt16 :=
    hframe ▸ rfl
  have hlen : frame.length = 63 := by
    rw [hframe, udpFrameV6Of, length_append, length_udpLeadV6]
    rfl
  rw [← hframe] at hword hsrc hdst hsum ⊢
  have hudp : readU16be frame 58 = (0 : UInt8).toUInt16 <<< 8 ||| (9 : UInt8).toUInt16 := hword 4
  have hstored : readU16be frame 60 = udpCksum localAddr remoteAddr localPort remotePort x :=
    (hword 6).trans (be16_bytes _)
  have hremotePort : readU16be frame 54 = remotePort := (hword 0).trans (be16_bytes remotePort)
  have hlocalPort : readU16be frame 56 = localPort := (hword 2).trans (be16_bytes localPort)
  rw [parseUdpV6_of_fields _ hnext hlen _ _ _ hsrc hdst hsum, hremotePort, hlocalPort]
  · rw [ethFrameHasIpv6, hlen, htype, hversion]
    rfl
  · rw [ip6PayloadLength, hpayload]
    rfl
  · rw [hudp]
    rfl
  · rw [hstored]
    intro hzero
    rw [hzero] at hcksum
    have hpos : 0 = 65535 - udpSum localAddr remoteAddr localPort remotePort x % 65535 := hcksum
    omega

end FrameV6

/-- **A datagram of a given peer.** -/
def Endpoints.call (e : Endpoints) (x : UInt8) : Call :=
  match e.hosts with
  | .v4 localAddress remoteAddress =>
    .udpFrame 0 (udpFrameOf localAddress remoteAddress e.localPort e.remotePort x)
  | .v6 localAddr remoteAddr =>
    .udpFrameV6 0 (udpFrameV6Of localAddr remoteAddr e.localPort e.remotePort x)

theorem endpoints_call (e : Endpoints) (x : UInt8) :
    (e.call x).endpoints = some e ∧ (e.call x).datagram.length ≤ 1520 := by
  obtain ⟨hosts, localPort, remotePort, hl, hr⟩ := e
  cases hosts with
  | v4 localAddress remoteAddress =>
    refine ⟨?_, (by decide : 43 ≤ 1520)⟩
    have hparse := parseUdp_udpFrameOf localAddress remoteAddress localPort remotePort x
    rw [Endpoints.call, Call.endpoints, hparse, Option.bind_some]
    exact dif_pos ⟨hl, hr⟩
  | v6 localAddr remoteAddr =>
    have hparse := parseUdpV6_udpFrameV6Of localAddr remoteAddr localPort remotePort x
    constructor
    · rw [Endpoints.call, Call.endpoints, hparse, Option.bind_some]
      exact dif_pos ⟨hl, hr⟩
    · rw [Endpoints.call, Call.datagram, udpFrameV6Of, length_append, length_udpLeadV6]
      exact (by decide : 54 + 9 ≤ 1520)

/-! ### Peers with one key -/

/-- The queue that is bound. -/
def homeQueue : QueueBinding := ⟨1, 0, 1, true⟩

/-- The stack at boot with one queue bound. -/
def bound : Stack := (Call.bindQueue 0 1 1).exec boot

/-- One queue is bound, and every flow is on it. -/
structure Homed (s : Stack) : Prop where
  idle : Idle s
  bindings : s.bindings = bound.bindings
  home : ∀ i, (s.udpFlows i).active = true → (s.udpFlows i).home = (1, 0)

theorem homed_bound : Homed bound where
  idle := (advances_exec idle_boot (.bindQueue 0 1 1)).idle
  bindings := rfl
  home _ h := nomatch (h : false = true)

theorem Homed.findBinding (hs : Homed s) : s.findBinding 1 = some homeQueue := by
  unfold Stack.findBinding
  rw [hs.bindings]
  rfl

theorem Homed.activeBindings (hs : Homed s) : s.activeBindings = [homeQueue] := by
  unfold Stack.activeBindings
  rw [hs.bindings]
  rfl

theorem Homed.udpBinding (hs : Homed s) {flow : Option (Fin 16)}
    (hflow : ∀ i, flow = some i → (s.udpFlows i).active = true) (p q : UInt16) (a b : UInt32) :
    s.udpBinding flow p q a b = some homeQueue := by
  rcases flow with _ | i
  · rw [Stack.udpBinding, selectBindingForFlow, hs.activeBindings, length_singleton,
      Nat.mod_one]
    rfl
  · have hqueue : (s.udpFlows i).queueId = 1 := congrArg Prod.fst (hs.home i (hflow i rfl))
    rw [Stack.udpBinding, hqueue]
    exact hs.findBinding

/-- **A datagram that has a slot is taken.** -/
theorem Homed.takes (hs : Homed s) (he : c.endpoints = some e)
    (hlen : c.datagram.length ≤ 1520) (hslot : s.udpSlot e.key = some i) :
    c.received s = some (e, i) ∧ Takes s (c.exec s) e.key homeQueue i := by
  obtain ⟨hpos, flow, p, q, a, a', addrs, payload, now, hflow, heq⟩ := exec_of_endpoints s he
  rw [hs.udpBinding hflow] at heq
  have hqueue : (s.findBinding homeQueue.queueId).isSome = true := by
    rw [show homeQueue.queueId = 1 from rfl, hs.findBinding]
    rfl
  obtain ⟨t, ht, hstatus, hcore⟩ := dispatch_of_idle hs.idle (takeUdp e.key addrs payload now)
    hqueue hpos hlen
  rw [← heq] at hstatus hcore
  have hflows := udpFlows_of_core ht
  have hslot' : t.udpSlot e.key = some i := by
    rw [udpSlot, findUdpFlow, hflows]
    exact hslot
  have hok := takeUdp_ok (b := homeQueue) hslot' (by rw [hflows]; exact hs.home i) addrs payload now
  refine ⟨received_of_ok (hstatus.trans hok) he hslot, ?_⟩
  rcases takeUdp_cases t e.key addrs payload now homeQueue with ⟨hno, -⟩ | ⟨-, j, h⟩
  · exact absurd hok hno
  · obtain rfl : j = i := Option.some.inj (h.slot.symm.trans hslot')
    rwa [← takes_core, hcore, ← ht, takes_core]

theorem Homed.exec (hs : Homed s) (h : Takes s (c.exec s) e.key homeQueue i) :
    Homed (c.exec s) := by
  refine ⟨(advances_exec hs.idle c).idle, h.bindings.trans hs.bindings, fun j hactive => ?_⟩
  rcases eq_or_ne j i with rfl | hne
  · exact h.home
  · rw [h.others j hne] at hactive ⊢
    exact hs.home j hactive

theorem udpSlot_bound (k : UdpKey) : bound.udpSlot k = some 0 := by
  have hnone : bound.findUdpFlow k.localPort k.remotePort k.localAddress k.remoteAddress = none :=
    find?_eq_none.mpr fun i _ h => nomatch (h : false = true)
  rw [udpSlot, hnone, Option.none_or]
  exact find?_cons_of_pos rfl

/-- The first slot is found first. -/
theorem udpSlot_of_key {k : UdpKey} (hactive : (s.udpFlows 0).active = true)
    (hkey : (s.udpFlows 0).key = k) : s.udpSlot k = some 0 := by
  have hfind : s.findUdpFlow k.localPort k.remotePort k.localAddress k.remoteAddress = some 0 := by
    refine find?_cons_of_pos ?_
    rw [← hkey]
    simp [hactive, UdpFlow.key]
  rw [udpSlot, hfind, Option.some_or]

/-- **Two peers with one key share a flow**: one queue is bound, and each of them sends a
datagram. -/
theorem eq_of_isolated {e' : Endpoints} (x y : UInt8) (hkey : e.key = e'.key)
    (h : Along Traced.exec Traced.Isolated tracedBoot [.bindQueue 0 1 1, e.call x, e'.call y]) :
    e = e' := by
  obtain ⟨he, hlen⟩ := endpoints_call e x
  obtain ⟨he', hlen'⟩ := endpoints_call e' y
  obtain ⟨hsome, htakes⟩ := homed_bound.takes he hlen (udpSlot_bound e.key)
  have hhomed := homed_bound.exec htakes
  obtain ⟨hsome', -⟩ := hhomed.takes he' hlen'
    (udpSlot_of_key htakes.active (htakes.key.trans hkey))
  refine h.2.2.1.peers e' 0 hsome' e ?_
  have hactive : (((tracedBoot.exec (.bindQueue 0 1 1)).exec (e.call x)).stack.udpFlows 0).active =
      true := htakes.active
  rw [Traced.earlier, if_pos hactive, Traced.seen_exec_of_some hsome, update_self]
  exact mem_append_right _ (mem_singleton.mpr rfl)

/-- **Isolation of UDP peers.** For every set of peers: in every run from boot in which all
valid datagrams come from these peers, each datagram is taken by a flow that has only taken
datagrams of the same peer, and written to no buffer but the flow's own, if and only if no
two of the peers have the same ports and the same addresses of version 4, which are zero for
version 6. -/
theorem udp_isolated_iff (D : Set Endpoints) :
    (∀ cs : List Call, (∀ c ∈ cs, ∀ e, c.endpoints = some e → e ∈ D) →
        Along Traced.exec Traced.Isolated tracedBoot cs) ↔
      Set.InjOn Endpoints.key D := by
  constructor
  · intro h e he e' he' hkey
    refine eq_of_isolated 0 0 hkey (h _ fun c hc e₁ hc₁ => ?_)
    rcases mem_cons.mp hc with rfl | hc
    · nomatch hc₁
    · rcases mem_cons.mp hc with rfl | hc
      · rw [(endpoints_call e 0).1] at hc₁
        exact Option.some.inj hc₁ ▸ he
      · obtain rfl := mem_singleton.mp hc
        rw [(endpoints_call e' 0).1] at hc₁
        exact Option.some.inj hc₁ ▸ he'
  · intro hinj cs hcs
    exact along_of_forall tagged_tracedBoot hcs
      fun w c hw hc => hw.isolated hinj hc

/-- A host of version 6, by the last byte of its address, that sends from port 7 to port 9. -/
def hostEndpoints (h : UInt8) : Endpoints where
  hosts :=
    .v6 (fun i => if i = Fin.last 15 then 1 else 0) (fun i => if i = Fin.last 15 then h else 0)
  localPort := 9
  remotePort := 7
  localPort_ne := by decide
  remotePort_ne := by decide

/-- Two hosts send a byte each. -/
def hostCalls : List Call :=
  [.bindQueue 0 1 1, (hostEndpoints 2).call 65, (hostEndpoints 3).call 66]

/-- **Two hosts of version 6 share a flow**, and the bytes of both are in its buffer. -/
theorem hosts_share_flow :
    ¬Along Traced.exec Traced.Isolated tracedBoot hostCalls ∧
      let s := runCalls boot hostCalls
      (∀ i, (s.udpFlows i).active = decide (i = 0)) ∧ (s.udpFlows 0).rxBuf = some 0 ∧
        (s.pool 0).buf.contents = [65, 66] := by
  refine ⟨fun h => ?_, ?_, ?_, ?_⟩
  · have hsame : hostEndpoints 2 = hostEndpoints 3 := eq_of_isolated 65 66 rfl h
    exact absurd hsame (by decide +kernel)
  · decide +kernel
  · decide +kernel
  · decide +kernel

end Xaios.Net
