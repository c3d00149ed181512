import Xaios.Net.Icmp
import Xaios.Net.Neighbors

/-!
# Checksums that are inserted

A checksum that is computed with a zero in its field and then stored there makes the sum a
positive multiple of `2 ^ 16 - 1`, so the same function answers zero
(`Net.inserts_checksumOf`). The builders of headers and messages all store it that way
(`Net.checksums_verify`).
-/

namespace Xaios.Net

open Foundation List Bounds Icmp

/-- A checksum function verifies what was inserted into a field of zeros at an even offset. -/
def Inserts (sum : List UInt8 → UInt16) : Prop :=
  ∀ l r : List UInt8, l.length % 2 = 0 →
    sum (l ++ writeBe16 (sum (l ++ writeBe16 0 ++ r)) ++ r) = 0

theorem sumWords_field {l : List UInt8} (hl : l.length % 2 = 0) (v : UInt16) (r : List UInt8) :
    sumWords (l ++ writeBe16 v ++ r) = sumWords l + v.toNat + sumWords r := by
  have heven : (l ++ writeBe16 v).length % 2 = 0 := by
    rw [length_append, writeBe16, length_cons, length_singleton]
    omega
  rw [sumWords_append _ _ heven, sumWords_append _ _ hl, sumWords_writeBe16]

/-- The checksum completes a sum to a positive multiple. -/
theorem checksumOf_add (n : ℕ) : checksumOf (n + (checksumOf n).toNat) = 0 := by
  have hrep := onesRep_foldCarry n
  have hle := hrep.le
  have hmod := hrep.modEq
  have hzero := hrep.eq_zero_iff
  have hnot : (checksumOf n).toNat = 65535 - foldCarry n := by
    rw [checksumOf, UInt16.toNat_not, UInt16.toNat_ofNat', UInt16.size]
    omega
  unfold Nat.ModEq at hmod
  rw [checksumOf_eq_zero_iff, hnot]
  omega

/-- **Insertion and verification agree**, whatever is summed besides. -/
theorem inserts_checksumOf (n : ℕ) : Inserts fun data => checksumOf (n + sumWords data) := by
  intro l r hl
  dsimp only
  rw [sumWords_field hl, sumWords_field hl]
  have hzero : (0 : UInt16).toNat = 0 := rfl
  rw [hzero, Nat.add_zero]
  have hsum := checksumOf_add (n + (sumWords l + sumWords r))
  rwa [show ∀ c, n + (sumWords l + sumWords r) + c = n + (sumWords l + c + sumWords r) by omega]
    at hsum

theorem inserts_checksumU16 : Inserts checksumU16 := by
  have h := inserts_checksumOf 0
  simp only [Nat.zero_add] at h
  exact h

/-! ### Echo replies -/

/-- `icmpv6_build_echo_reply`, unless it answers INVALID. -/
def icmpv6BuildEchoReply (srcMac dstMac : Fin 6 → UInt8) (srcIp dstIp : IpAddr)
    (request : List UInt8) : Option (List UInt8) :=
  let payloadLength := readU16be request 18
  if request.length < 62 then none
  else if request.length < 54 + payloadLength.toNat ∨ payloadLength.toNat < 8 then none
  else
    let icmpv6 := fun cksum =>
      [129, 0] ++ writeBe16 cksum ++ slice request 58 (payloadLength.toNat - 4)
    let cksum := ipv6PseudoChecksum srcIp dstIp 58 payloadLength.toUInt32 (icmpv6 0)
    some (ethHeader srcMac dstMac 0x86DD ++ ipv6Header payloadLength 58 srcIp dstIp ++ icmpv6 cksum)

/-- **The reply of version 4**: headers, and a message with the data of the request. -/
theorem take_icmpBuildEchoReply {reply request out : List UInt8} {srcMac dstMac : Fin 6 → UInt8}
    {srcIp dstIp : UInt32} {total : UInt64} (hlen : request.length < 2 ^ 64)
    (h : Icmp.icmpBuildEchoReply reply srcMac dstMac srcIp dstIp request =
      .ok (some (out, total))) :
    ∃ totalLength data, total.toNat = 38 + data.length ∧ out.take total.toNat =
      ethHeader srcMac dstMac 0x0800 ++ ipv4BuildHeader totalLength 1 srcIp dstIp ++ ([0, 0] ++
        writeBe16 (checksumU16 ([0, 0] ++ writeBe16 0 ++ data)) ++ data) := by
  rw [icmpBuildEchoReply] at h
  split at h
  · cases h
  rename_i hmin
  rw [readU16be_eq (by omega), ok_bind] at h
  generalize hn : icmpLen (readU16be request 16) = len at h
  dsimp only at h
  split at h
  · cases h
  rename_i hcheck
  obtain ⟨r₁, h₁, h⟩ := exists_of_bind h
  obtain ⟨r₂, h₂, h⟩ := exists_of_bind h
  obtain ⟨r₃, h₃, h⟩ := exists_of_bind h
  obtain ⟨r₄, h₄, h⟩ := exists_of_bind h
  obtain ⟨ids, hids, h⟩ := exists_of_bind h
  obtain ⟨r₅, h₅, h⟩ := exists_of_bind h
  obtain ⟨data, hdata, h⟩ := exists_of_bind h
  obtain ⟨r₆, h₆, h⟩ := exists_of_bind h
  obtain ⟨cksum, hcksum, h⟩ := exists_of_bind h
  obtain ⟨r₇, h₇, h⟩ := exists_of_bind h
  cases h
  -- the data were read, so the length has not wrapped around
  have hmsg : 8 ≤ len.toNat := Nat.not_lt.mp fun hlt =>
    hcheck (.inr (UInt64.lt_iff_toNat_lt.mpr hlt))
  have hrest : (len - 8).toNat = len.toNat - 8 :=
    UInt64.toNat_sub_of_le _ _ (UInt64.le_iff_toNat_le.mpr hmsg)
  have hroom : 34 + len.toNat ≤ request.length := by
    by_contra hend
    obtain ⟨e, he⟩ := fetchRange_error (show 0 < (len - 8).toNat by omega)
      (show request.length < 42 + (len - 8).toNat by omega)
    rw [hdata] at he
    cases he
  have htotal : (14 + 20 + len).toNat = 34 + len.toNat := by
    rw [UInt64.toNat_add]
    change (34 + len.toNat) % 2 ^ 64 = _
    omega
  have hcovers : 20 ≤ (readU16be request 16).toNat := Nat.not_lt.mp fun hlt => by
    have hwrap := add_icmpLen_of_lt hlt
    rw [hn] at hwrap
    change (14 + 20 + len).toNat < 34 at hwrap
    omega
  have h32 := toNat_toUInt32_icmpLen hcovers
  rw [← toNat_icmpLen hcovers, hn] at h32
  rw [fetchRange_slice (by omega)] at hids hdata
  cases hids
  cases hdata
  have hids : (slice request 38 4).length = 4 := length_slice (by omega)
  have hdata : (slice request 42 (len - 8).toNat).length = len.toNat - 8 :=
    (length_slice (by omega)).trans hrest
  obtain ⟨l₂, t₂⟩ := take_of_putRange h₂ (Nat.zero_le _)
  obtain ⟨l₃, t₃⟩ := take_of_putRange h₃ l₂
  obtain ⟨l₄, t₄⟩ := take_of_putRange h₄ l₃
  obtain ⟨l₅, t₅⟩ := take_of_putRange h₅ l₄
  rw [hids] at l₅ t₅
  obtain ⟨l₆, t₆⟩ := take_of_putRange h₆ l₅
  rw [hdata] at l₆ t₆
  have hall : r₆.take (34 + len.toNat) = ethHeader srcMac dstMac 0x0800 ++
      ipv4BuildHeader (20 + len).toUInt16 1 srcIp dstIp ++ [0, 0, 0, 0] ++
        (slice request 38 4 ++ slice request 42 (len - 8).toNat) := by
    rw [show 34 + len.toNat = 42 + (len.toNat - 8) by omega, t₆, show r₅.take 42 = _ from t₅,
      show r₄.take 38 = _ from t₄, show r₃.take 34 = _ from t₃, show r₂.take 14 = _ from t₂,
      ← append_assoc]
    rfl
  refine ⟨(20 + len).toUInt16, slice request 38 4 ++ slice request 42 (len - 8).toNat, ?_, ?_⟩
  · rw [htotal, length_append, hids, hdata]
    omega
  rw [checksumU16_eq (by omega), h32] at hcksum
  cases hcksum
  rw [putRange_eq (show 36 + 2 ≤ r₆.length by omega)] at h₇
  cases h₇
  have hslice : slice r₆ 34 len.toNat = (r₆.take (34 + len.toNat)).drop 34 := by
    rw [drop_take, Nat.add_sub_cancel_left]
    rfl
  have hleft : r₆.take 36 = (r₆.take (34 + len.toNat)).take 36 := by
    rw [take_take, Nat.min_eq_left (by omega)]
  have hright : (r₆.drop 38).take (34 + len.toNat - 38) =
      slice request 38 4 ++ slice request 42 (len - 8).toNat := by
    rw [← drop_take, hall]
    rfl
  rw [htotal, hslice, hleft, hall, take_append,
    take_of_length_le (show 38 ≤ 34 + len.toNat by omega)]
  exact congrArg (List.append _) hright

/-- **Checksums that are inserted verify.** -/
theorem checksums_verify :
    Inserts checksumU16 ∧
    (∀ srcIp dstIp protocol len, Inserts (ipv4PseudoChecksum srcIp dstIp protocol len)) ∧
    (∀ src dst nextHeader len, Inserts (ipv6PseudoChecksum src dst nextHeader len)) ∧
    (∀ totalLength protocol srcIp dstIp,
      checksumU16 (ipv4BuildHeader totalLength protocol srcIp dstIp) = 0) ∧
    (∀ reply srcMac dstMac srcIp dstIp request out total, request.length < 2 ^ 64 →
      Icmp.icmpBuildEchoReply reply srcMac dstMac srcIp dstIp request = .ok (some (out, total)) →
        checksumU16 (slice out 14 20) = 0 ∧ checksumU16 (slice out 34 (total.toNat - 34)) = 0) ∧
    (∀ srcMac dstMac srcIp dstIp request frame,
      icmpv6BuildEchoReply srcMac dstMac srcIp dstIp request = some frame →
        ipv6PseudoChecksum srcIp dstIp 58 (readU16be frame 18).toUInt32 (frame.drop 54) = 0) ∧
    ∀ srcMac dstMac srcIp dstIp target, ipv6PseudoChecksum srcIp dstIp 58 32
      ((Ndp.sent (Ndp.icmpv6BuildNeighborAdvertisement srcMac dstMac srcIp dstIp target)).drop 54) =
        0 := by
  have hheader : ∀ totalLength protocol srcIp dstIp,
      checksumU16 (ipv4BuildHeader totalLength protocol srcIp dstIp) = 0 := by
    intro totalLength protocol srcIp dstIp
    have hsum := inserts_checksumU16 ([0x45, 0] ++ writeBe16 totalLength ++ writeBe16 0 ++
      writeBe16 0x4000 ++ [64, protocol]) (writeBe32 srcIp ++ writeBe32 dstIp) (by simp [writeBe16])
    simp only [← append_assoc] at hsum
    exact hsum
  refine ⟨inserts_checksumU16, fun srcIp dstIp protocol len => inserts_checksumOf _,
    fun src dst nextHeader len => inserts_checksumOf _, hheader,
    fun reply srcMac dstMac srcIp dstIp request out total hlen h => ?_,
    fun srcMac dstMac srcIp dstIp request frame h => ?_,
    fun srcMac dstMac srcIp dstIp target => ?_⟩
  · obtain ⟨totalLength, data, htotal, hout⟩ := take_icmpBuildEchoReply hlen h
    have hslice : ∀ offset n, offset + n ≤ total.toNat →
        slice out offset n = slice (out.take total.toNat) offset n := by
      intro offset n hn
      rw [slice, slice, drop_take, take_take, Nat.min_eq_left (by omega)]
    rw [hslice 14 20 (by omega), hslice 34 (total.toNat - 34) (by omega), hout]
    have hmessage : slice (ethHeader srcMac dstMac 0x0800 ++
        ipv4BuildHeader totalLength 1 srcIp dstIp ++ ([0, 0] ++
          writeBe16 (checksumU16 ([0, 0] ++ writeBe16 0 ++ data)) ++ data)) 34 (total.toNat - 34) =
        [0, 0] ++ writeBe16 (checksumU16 ([0, 0] ++ writeBe16 0 ++ data)) ++ data :=
      take_of_length_le (show data.length + 4 ≤ total.toNat - 34 by omega)
    rw [hmessage]
    exact ⟨hheader totalLength 1 srcIp dstIp, inserts_checksumU16 [0, 0] data rfl⟩
  · rw [icmpv6BuildEchoReply] at h
    split at h
    · cases h
    split at h
    · cases h
    cases h
    generalize hframe : ethHeader srcMac dstMac 0x86DD ++ _ ++ _ = frame
    have hlength : readU16be frame 18 = readU16be request 18 := hframe ▸ be16_bytes _
    rw [hlength, ← hframe]
    exact inserts_checksumOf _ [129, 0] _ rfl
  · exact inserts_checksumOf _ [136, 0] _ rfl

/-- A field behind two bytes and before one, and the replies to requests of eight bytes. -/
theorem checksums_verify_replies :
    checksumU16 ([1, 2] ++ writeBe16 (checksumU16 ([1, 2] ++ writeBe16 0 ++ [3])) ++ [3]) = 0 ∧
    (∃ out, checksumU16 (slice out 14 20) = 0 ∧
      Icmp.icmpBuildEchoReply (replicate 42 0) (fun _ => 1) (fun _ => 2) 1 2
        (replicate 16 0 ++ [0, 28] ++ replicate 24 0) = .ok (some (out, 42))) ∧
    ∃ frame, ipv6PseudoChecksum .zero .zero 58 (readU16be frame 18).toUInt32 (frame.drop 54) = 0 ∧
      icmpv6BuildEchoReply (fun _ => 1) (fun _ => 2) .zero .zero
        (replicate 18 0 ++ [0, 8] ++ replicate 42 0) = some frame := by
  obtain ⟨hinsert, -, -, -, hreply, hreplyV6, -⟩ := checksums_verify
  refine ⟨hinsert [1, 2] [3] rfl, ?_, _, hreplyV6 (fun _ => 1) (fun _ => 2) .zero .zero
    (replicate 18 0 ++ [0, 8] ++ replicate 42 0) _ rfl, rfl⟩
  have hbuilt : icmpBuildEchoReply (replicate 42 0) (fun _ => 1) (fun _ => 2) 1 2
      (replicate 16 0 ++ [0, 28] ++ replicate 24 0) = .ok (some (_, 42)) := rfl
  exact ⟨_, (hreply _ _ _ _ _ _ _ _ (by decide) hbuilt).1, hbuilt⟩

end Xaios.Net
