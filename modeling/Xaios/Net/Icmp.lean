import Xaios.Net.Bounds

/-!
# Echo requests

`icmp_process_echo_request` and `icmp_build_echo_reply` of `icmp.c`, as `network_poll_tick`
calls them, with every read of the request and every write of the reply as a step that may
fail (`Foundation.Guarded`).

Both functions take the length of the message from the total length in the header, less
twenty, as an unsigned number of 64 bits. A total length of less than twenty wraps around: the
sum in the check that follows wraps back, and the checksum runs over the rest of four
gigabytes. All other frames are handled in bounds (`Net.Icmp.echo_in_bounds_iff`).
-/

namespace Xaios.Net.Icmp

open Foundation Bounds List

/-! ### The functions -/

/-- `icmp_len`, which wraps around below twenty. -/
def icmpLen (ipTotalLen : UInt16) : UInt64 := ipTotalLen.toUInt64 - 20

/-- `icmp_process_echo_request`: the identifier and the sequence number, unless it answers
INVALID. -/
def icmpProcessEchoRequest (frame : List UInt8) : Guarded (Option (UInt16 × UInt16)) := do
  if frame.length < 34 then return none
  if frame.length < 42 then return none
  if (← Bounds.readU16be frame 12) ≠ 0x0800 then return none
  if (← fetch frame 34) ≠ 8 then return none
  let len := icmpLen (← Bounds.readU16be frame 16)
  if UInt64.ofNat frame.length < 34 + len then return none
  if (← Bounds.checksumU16 frame 34 len.toUInt32.toNat) ≠ 0 then return none
  let identifier ← Bounds.readU16be frame 38
  let sequence ← Bounds.readU16be frame 40
  return some (identifier, sequence)

/-- `icmp_build_echo_reply`: the reply and its length, unless it answers INVALID. -/
def icmpBuildEchoReply (reply : List UInt8) (srcMac dstMac : Fin 6 → UInt8) (srcIp dstIp : UInt32)
    (request : List UInt8) : Guarded (Option (List UInt8 × UInt64)) := do
  if request.length < 42 then return none
  let len := icmpLen (← Bounds.readU16be request 16)
  if UInt64.ofNat request.length < 34 + len ∨ len < 8 then return none
  let total := 14 + 20 + len
  let reply ← putRange reply 0 (replicate total.toNat 0)
  let reply ← putRange reply 0 (ethHeader srcMac dstMac 0x0800)
  let reply ← putRange reply 14 (ipv4BuildHeader (20 + len).toUInt16 1 srcIp dstIp)
  let reply ← putRange reply 34 [0, 0, 0, 0]
  let ids ← fetchRange request 38 4
  let reply ← putRange reply 38 ids
  let data ← fetchRange request 42 (len - 8).toNat
  let reply ← putRange reply 42 data
  let cksum ← Bounds.checksumU16 reply 34 len.toUInt32.toNat
  let reply ← putRange reply 36 (writeBe16 cksum)
  return some (reply, total)

/-- The branch of `network_poll_tick` for ICMP: the request is processed, and a reply is built
in `reply_buf`. -/
def pollEcho (localMac : Fin 6 → UInt8) (frame reply : List UInt8) :
    Guarded (Option (List UInt8 × UInt64)) := do
  match ← icmpProcessEchoRequest frame with
  | none => return none
  | some _ =>
    let mac ← fetchRange frame 6 6
    let peer ← Bounds.readU32be frame 26
    icmpBuildEchoReply reply localMac (fun i => mac.getD i 0) 0x0a00020f peer frame

/-! ### Lengths -/

variable {n : UInt16}

/-- A total length that covers the header. -/
theorem toNat_icmpLen (h : 20 ≤ n.toNat) : (icmpLen n).toNat = n.toNat - 20 := by
  rw [icmpLen, UInt64.toNat_sub_of_le _ _ (by rw [UInt64.le_iff_toNat_le]; simpa using h)]
  simp

theorem toNat_toUInt32_icmpLen (h : 20 ≤ n.toNat) : (icmpLen n).toUInt32.toNat = n.toNat - 20 := by
  have hlt := n.toNat_lt
  rw [UInt64.toNat_toUInt32, toNat_icmpLen h]
  omega

/-- The check of the length, for a total length that covers the header. -/
theorem lt_add_icmpLen_iff (h : 20 ≤ n.toNat) {len : ℕ} (hlen : len < 2 ^ 64) :
    UInt64.ofNat len < 34 + icmpLen n ↔ len < 14 + n.toNat := by
  have hn := n.toNat_lt
  have hsum : (34 + icmpLen n).toNat = 14 + n.toNat := by
    rw [UInt64.toNat_add, toNat_icmpLen h, Nat.mod_eq_of_lt]
    · change 34 + (n.toNat - 20) = _
      omega
    · change 34 + (n.toNat - 20) < _
      omega
  rw [UInt64.lt_iff_toNat_lt, hsum, UInt64.toNat_ofNat_of_lt' hlen]

/-- A shorter total length passes the check: the length wraps around, and back. -/
theorem add_icmpLen_of_lt (h : n.toNat < 20) : (34 + icmpLen n).toNat < 34 := by
  have hwrap : (icmpLen n).toNat = 2 ^ 64 - 20 + n.toNat := by
    rw [icmpLen, UInt64.toNat_sub, UInt16.toNat_toUInt64]
    change (2 ^ 64 - 20 + n.toNat) % 2 ^ 64 = _
    omega
  rw [UInt64.toNat_add, hwrap]
  change (34 + (2 ^ 64 - 20 + n.toNat)) % 2 ^ 64 < 34
  omega

/-- The checksum then runs over nearly four gigabytes. -/
theorem le_toUInt32_icmpLen (h : n.toNat < 20) : 2 ^ 32 - 20 ≤ (icmpLen n).toUInt32.toNat := by
  have hle : ∀ k < 20, 2 ^ 32 - 20 ≤ (icmpLen (UInt16.ofNat k)).toUInt32.toNat := by decide
  have hn := hle n.toNat h
  rwa [UInt16.ofNat_toNat] at hn

/-! ### Bounds -/

section Bounds

variable {frame : List UInt8}

/-- **The request**: in bounds, if it is refused for its type or its total length covers the
header. An accepted one has a message inside of the frame. -/
theorem icmpProcessEchoRequest_ok (hlen : frame.length < 2 ^ 64)
    (h : byteAt frame 34 ≠ 8 ∨ 20 ≤ (Net.readU16be frame 16).toNat) :
    ∃ r, icmpProcessEchoRequest frame = .ok r ∧
      (r.isSome → 42 ≤ frame.length ∧ 20 ≤ (Net.readU16be frame 16).toNat ∧
        14 + (Net.readU16be frame 16).toNat ≤ frame.length) := by
  unfold icmpProcessEchoRequest
  split
  · exact ⟨none, rfl, by rintro ⟨⟩⟩
  split
  · exact ⟨none, rfl, by rintro ⟨⟩⟩
  rename_i hlen42
  rw [readU16be_eq (by omega), ok_bind]
  split
  · exact ⟨none, rfl, by rintro ⟨⟩⟩
  rw [fetch_byteAt (by omega), ok_bind]
  split
  · exact ⟨none, rfl, by rintro ⟨⟩⟩
  rename_i htype
  have htotal := h.resolve_left htype
  rw [readU16be_eq (by omega), ok_bind]
  simp only [lt_add_icmpLen_iff htotal hlen]
  split
  · exact ⟨none, rfl, by rintro ⟨⟩⟩
  rename_i hfits
  rw [checksumU16_eq (by rw [toNat_toUInt32_icmpLen htotal]; omega), ok_bind]
  split
  · exact ⟨none, rfl, by rintro ⟨⟩⟩
  rw [readU16be_eq (by omega), ok_bind, readU16be_eq (by omega), ok_bind]
  exact ⟨_, rfl, fun _ => ⟨by omega, htotal, by omega⟩⟩

/-- A request whose total length does not cover the header is summed beyond its end. -/
theorem icmpProcessEchoRequest_error (hlen : 42 ≤ frame.length) (hmax : frame.length < 2 ^ 32 - 20)
    (hether : Net.readU16be frame 12 = 0x0800) (htype : byteAt frame 34 = 8)
    (htotal : (Net.readU16be frame 16).toNat < 20) :
    ∃ e, icmpProcessEchoRequest frame = .error e := by
  have hchecked : ¬UInt64.ofNat frame.length < 34 + icmpLen (Net.readU16be frame 16) := by
    have hlt := add_icmpLen_of_lt htotal
    have hsize : frame.length < 2 ^ 64 := by omega
    rw [UInt64.lt_iff_toNat_lt, UInt64.toNat_ofNat_of_lt' hsize]
    omega
  have hsum := le_toUInt32_icmpLen htotal
  unfold icmpProcessEchoRequest
  rw [if_neg (by omega), if_neg (by omega), readU16be_eq (by omega), ok_bind,
    if_neg (not_not.mpr hether), fetch_byteAt (by omega), ok_bind, if_neg (not_not.mpr htype),
    readU16be_eq (by omega), ok_bind]
  rw [if_neg hchecked]
  exact bind_error (bind_error (sumBytes_error (by omega) (by omega)) _) _

/-- **The reply**: of a request whose message is inside of the frame, it is no longer than the
request. -/
theorem icmpBuildEchoReply_ok {reply : List UInt8} (srcMac dstMac : Fin 6 → UInt8)
    (srcIp dstIp : UInt32) (hlen : frame.length < 2 ^ 64) (hreply : frame.length ≤ reply.length)
    (hmin : 42 ≤ frame.length) (htotal : 20 ≤ (Net.readU16be frame 16).toNat)
    (hfits : 14 + (Net.readU16be frame 16).toNat ≤ frame.length) :
    ∃ r, icmpBuildEchoReply reply srcMac dstMac srcIp dstIp frame = .ok r := by
  unfold icmpBuildEchoReply
  rw [if_neg (by omega), readU16be_eq (by omega), ok_bind]
  simp only [lt_add_icmpLen_iff htotal hlen]
  split
  · exact ⟨none, rfl⟩
  rename_i hcheck
  have hnat := toNat_icmpLen htotal
  have h32 := toNat_toUInt32_icmpLen htotal
  have hmsg : 8 ≤ (icmpLen (Net.readU16be frame 16)).toNat := by
    have hge := (not_or.mp hcheck).2
    rw [UInt64.lt_iff_toNat_lt] at hge
    exact Nat.le_of_not_lt hge
  generalize icmpLen (Net.readU16be frame 16) = len at hnat h32 hmsg ⊢
  have hall : (14 + 20 + len).toNat = 34 + len.toNat := by
    rw [UInt64.toNat_add]
    change (34 + len.toNat) % 2 ^ 64 = _
    omega
  have hdata : (len - 8).toNat = len.toNat - 8 :=
    UInt64.toNat_sub_of_le _ _ (UInt64.le_iff_toNat_le.mpr hmsg)
  refine putRange_bind (by rw [length_replicate, hall]; omega) fun r₁ hl₁ => ?_
  refine putRange_bind (by change 0 + 14 ≤ _; omega) fun r₂ hl₂ => ?_
  refine putRange_bind (by change 14 + 20 ≤ _; omega) fun r₃ hl₃ => ?_
  refine putRange_bind (by change 34 + 4 ≤ _; omega) fun r₄ hl₄ => ?_
  refine fetchRange_bind (by omega) fun ids hids => ?_
  refine putRange_bind (by omega) fun r₅ hl₅ => ?_
  refine fetchRange_bind (by rw [hdata]; omega) fun data hdlen => ?_
  rw [hdata] at hdlen
  refine putRange_bind (by omega) fun r₆ hl₆ => ?_
  rw [checksumU16_eq (by omega), ok_bind]
  exact putRange_bind (by change 36 + 2 ≤ _; omega) fun r₇ _ => ⟨_, rfl⟩

/-- **Echo requests are handled in bounds** exactly if they are refused for their type or their
total length covers the header. -/
theorem echo_in_bounds_iff (localMac : Fin 6 → UInt8) {frame reply : List UInt8}
    (hmin : 42 ≤ frame.length) (hmax : frame.length ≤ 1520)
    (hether : Net.readU16be frame 12 = 0x0800) (hreply : reply.length = 1520) :
    (∃ r, pollEcho localMac frame reply = .ok r) ↔
      byteAt frame 34 ≠ 8 ∨ 20 ≤ (Net.readU16be frame 16).toNat := by
  have hsize : frame.length < 2 ^ 64 := by omega
  constructor
  · rintro ⟨r, hr⟩
    by_contra hcon
    rw [not_or, not_not, Nat.not_le] at hcon
    obtain ⟨e, he⟩ := icmpProcessEchoRequest_error hmin (by omega) hether hcon.1 hcon.2
    rw [pollEcho, he] at hr
    cases hr
  · intro h
    obtain ⟨r, hr, haccepted⟩ := icmpProcessEchoRequest_ok hsize h
    rw [pollEcho, hr, ok_bind]
    cases r with
    | none => exact ⟨none, rfl⟩
    | some ids =>
      obtain ⟨-, htotal, hfits⟩ := haccepted rfl
      refine fetchRange_bind (by omega) fun mac _ => ?_
      rw [readU32be_eq (by omega), ok_bind]
      exact icmpBuildEchoReply_ok localMac _ _ _ hsize (by omega) hmin htotal hfits

/-- The request of the self test. -/
def echoRequest (total : UInt16) (cksum : UInt16) : List UInt8 :=
  ethHeader (fun i => byteAt [0x52, 0x54, 0x00, 0x12, 0x35, 0x02] i)
      (fun i => byteAt [0x02, 0x00, 0x00, 0x00, 0x00, 0x15] i) 0x0800 ++
    ipv4BuildHeader total 1 0x0a000202 0x0a00020f ++ [8, 0] ++ writeBe16 cksum ++
    writeBe16 0x1234 ++ writeBe16 1

/-- It is handled in bounds, and answered. -/
theorem echoRequest_in_bounds :
    icmpProcessEchoRequest (echoRequest 28 0xe5ca) = .ok (some (0x1234, 1)) ∧
      ∃ r, pollEcho (fun _ => 2) (echoRequest 28 0xe5ca) (replicate 1520 0) = .ok r :=
  ⟨by decide +kernel, (echo_in_bounds_iff (fun _ => 2) (by decide +kernel) (by decide +kernel)
    (by decide +kernel) (by rw [length_replicate])).mpr (.inr (by decide +kernel))⟩

/-- **A request with a total length of zero** is summed beyond its end. -/
theorem empty_packet_out_of_bounds :
    42 = (echoRequest 0 0).length ∧
      ∃ e, pollEcho (fun _ => 2) (echoRequest 0 0) (replicate 1520 0) = .error e := by
  refine ⟨by decide +kernel, ?_⟩
  exact bind_error (icmpProcessEchoRequest_error (by decide +kernel) (by decide +kernel)
    (by decide +kernel) (by decide +kernel) (by decide +kernel)) _

end Bounds

end Xaios.Net.Icmp
