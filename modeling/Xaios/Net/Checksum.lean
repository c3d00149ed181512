import Xaios.Foundation.OnesComplement
import Xaios.Net.Build

/-!
# The checksum of inbound segments

What `parse_tcp` accepts, against the one's complement sum over the pseudo header and the
segment (`Net.rfc793Sum`). The parser sums the segment as words in network order,
but the two addresses as the machine loaded them, with the bytes of each word exchanged.
Modulo `2 ^ 16 - 1` this multiplies the sum of the address words by `256`, which leaves it
as it is exactly when it is a multiple of `257`.

So for addresses with such a sum the check is exact, and for all others it refuses every
segment with a right checksum (`Net.tcp_checksum_exact_iff`).
-/

namespace Xaios.Net

open Foundation List

/-! ### The sum -/

/-- The words of some bytes in network order. -/
def words : List UInt8 → List ℕ
  | [] => []
  | [a] => [a.toNat * 256]
  | a :: b :: rest => (a.toNat * 256 + b.toNat) :: words rest

theorem sum_words (bytes : List UInt8) : (words bytes).sum = sumWords bytes := by
  induction bytes using words.induct with
  | case1 => rfl
  | case2 a => simp [words, sumWords]
  | case3 a b rest ih => rw [words, sum_cons, ih, sumWords]

theorem le_of_mem_words (bytes : List UInt8) : ∀ w ∈ words bytes, w ≤ 65535 := by
  induction bytes using words.induct with
  | case1 => exact fun _ hw => nomatch hw
  | case2 a =>
    intro w hw
    have ha := a.toNat_lt
    obtain rfl := mem_singleton.mp hw
    omega
  | case3 a b rest ih =>
    have ha := a.toNat_lt
    have hb := b.toNat_lt
    rw [words, forall_mem_cons]
    exact ⟨by omega, ih⟩

/-- **The loop of the checksum functions** folds to the word of the sum. -/
theorem onesRep_foldCarry (n : ℕ) : OnesRep 65535 n (foldCarry n) := by
  induction n using foldCarry.induct with
  | case1 n hlt =>
    rw [foldCarry, if_pos hlt]
    exact .self (Nat.le_of_lt_succ hlt)
  | case2 n hge ih =>
    rw [foldCarry, if_neg hge]
    refine ⟨ih.le, ih.modEq.trans ?_, ih.eq_zero_iff.trans (by omega)⟩
    -- a carry is worth `65536`, one more than the modulus
    show (n % 65536 + n / 65536) % 65535 = n % 65535
    omega

theorem checksumOf_eq_zero_iff (n : ℕ) : checksumOf n = 0 ↔ 0 < n ∧ 65535 ∣ n := by
  have hrep := onesRep_foldCarry n
  rw [← hrep.eq_max_iff (by decide)]
  have hle := hrep.le
  rw [checksumOf, ← UInt16.toNat_inj, UInt16.toNat_not, UInt16.toNat_ofNat']
  have hzero : (0 : UInt16).toNat = 0 := rfl
  rw [hzero, UInt16.size]
  omega

/-! ### The two readings of a frame -/

/-- The length of the TCP part. -/
def tcpLength (frame : List UInt8) : ℕ := ipTotalLength frame - ipHeaderBytes frame

/-- The TCP part. -/
def tcpPart (frame : List UInt8) : List UInt8 :=
  slice frame (14 + ipHeaderBytes frame) (tcpLength frame)

/-- The pseudo header: source, destination, zero, protocol and length in network order. -/
def pseudoHeader (frame : List UInt8) : List UInt8 :=
  slice frame 26 8 ++ [0, 6] ++ writeBe16 (UInt16.ofNat (tcpLength frame))

/-- The one's complement sum over the pseudo header and the segment. -/
def rfc793Sum (frame : List UInt8) : ℕ :=
  onesSum 65535 (words (pseudoHeader frame) ++ words (tcpPart frame))

/-- The checks of `parse_tcp` on lengths, version, protocol and the header of version 4. -/
structure Checked (frame : List UInt8) : Prop where
  ipv4 : ethFrameHasIpv4 frame = true
  protocol : byteAt frame 23 = 6
  ipHeader : 20 ≤ ipHeaderBytes frame
  ipLength : ipHeaderBytes frame + 20 ≤ ipTotalLength frame
  frameLength : 14 + ipTotalLength frame ≤ frame.length
  tcpHeader : 20 ≤ tcpHeaderBytes frame (14 + ipHeaderBytes frame)
  tcpFits : tcpHeaderBytes frame (14 + ipHeaderBytes frame) ≤ tcpLength frame
  ipChecksum : ipChecksumOk frame = true

/-- The checksum field of the TCP header. -/
def tcpChecksum (frame : List UInt8) : UInt16 := readU16be frame (14 + ipHeaderBytes frame + 16)

/-- The sum of the words that the machine loads for the addresses. -/
def loadedSum (frame : List UInt8) : ℕ :=
  (readU32le frame 26).toNat / 65536 + (readU32le frame 26).toNat % 65536 +
    (readU32le frame 30).toNat / 65536 + (readU32le frame 30).toNat % 65536

/-- What is summed besides the addresses. -/
def restSum (frame : List UInt8) : ℕ := 6 + tcpLength frame + sumWords (tcpPart frame)

theorem tcpLength_lt (frame : List UInt8) : tcpLength frame < 65536 := by
  have h := (readU16be frame 16).toNat_lt
  rw [tcpLength, ipTotalLength]
  omega

theorem tcpHeaderBytes_le (frame : List UInt8) (tcp : ℕ) : tcpHeaderBytes frame tcp ≤ 60 := by
  have h := (byteAt frame (tcp + 12)).toNat_lt
  rw [tcpHeaderBytes, UInt8.toNat_shiftRight]
  simp only [UInt8.reduceToNat, Nat.reduceMod]
  omega

variable {frame : List UInt8}

/-- **What the parser accepts** among the frames that pass the other checks. -/
theorem Checked.isSome_parseTcp_iff (h : Checked frame) (hsum : tcpChecksum frame ≠ 0) :
    (parseTcp frame).isSome = true ↔ 65535 ∣ loadedSum frame + restSum frame := by
  have hlen := tcpLength_lt frame
  have hbytes := tcpHeaderBytes_le frame (14 + ipHeaderBytes frame)
  have hfits := h.tcpFits
  have hseg : tcpHeaderBytes frame (14 + ipHeaderBytes frame) + (ipTotalLength frame -
      ipHeaderBytes frame - tcpHeaderBytes frame (14 + ipHeaderBytes frame)) = tcpLength frame := by
    rw [tcpLength] at hfits ⊢
    omega
  have htotal : loadedSum frame + restSum frame = (readU32le frame 26).toNat / 65536 +
      (readU32le frame 26).toNat % 65536 + (readU32le frame 30).toNat / 65536 +
      (readU32le frame 30).toNat % 65536 + 6 + tcpLength frame + sumWords (tcpPart frame) := by
    rw [loadedSum, restSum]
    omega
  have hpos : 0 < loadedSum frame + restSum frame := by
    rw [restSum]
    omega
  have hzero : ipv4PseudoChecksum (readU32le frame 26) (readU32le frame 30) 6
      (UInt16.ofNat (tcpLength frame)) (tcpPart frame) = 0 ↔
        65535 ∣ loadedSum frame + restSum frame := by
    have hsix : (6 : UInt8).toNat = 6 := rfl
    rw [ipv4PseudoChecksum, UInt16.toNat_ofNat_of_lt' hlen, checksumOf_eq_zero_iff, hsix, ← htotal]
    exact and_iff_right hpos
  rw [← hzero, tcpPart]
  have hip := h.ipHeader
  have htcp := h.tcpHeader
  -- all checks before the last one are passed
  simp only [parseTcp, hseg, UInt16.toNat_ofNat_of_lt' hlen]
  rw [if_neg (by simp [h.ipv4]), if_neg (by simp [h.protocol]),
    if_neg (by have := h.ipLength; omega), if_neg (by have := h.frameLength; omega),
    if_neg (by omega), if_neg (by rw [tcpLength] at hfits; omega), if_neg (by simp [h.ipChecksum])]
  split
  · next hrefused => simpa using hrefused.2
  · next haccepted => exact iff_of_true rfl (not_not.mp fun hne => haccepted ⟨hsum, hne⟩)

/-! ### The bytes of the addresses -/

theorem slice_eq_map {offset len : ℕ} (h : offset + len ≤ frame.length) :
    slice frame offset len = (range len).map fun i => byteAt frame (offset + i) := by
  refine ext_getElem (by simp [slice]; omega) fun i hi hi' => ?_
  have hlt : offset + i < frame.length := by
    simp [slice] at hi
    omega
  simp [slice, byteAt, hlt]

theorem toNat_readU32le (frame : List UInt8) (i : ℕ) :
    (readU32le frame i).toNat = 2 ^ 24 * (byteAt frame (i + 3)).toNat +
      2 ^ 16 * (byteAt frame (i + 2)).toNat + 2 ^ 8 * (byteAt frame (i + 1)).toNat +
        (byteAt frame i).toNat := by
  have hreverse : ∀ a b c d : UInt32, a ||| b ||| c ||| d = d ||| c ||| b ||| a := by
    intro a b c d
    ac_rfl
  rw [← toNat_be32, readU32le, hreverse]

/-- **The bytes of the address words are exchanged**: modulo `65535` the sum that was loaded
is `256` times the sum of the words on the wire. -/
theorem loadedSum_modEq (h : 34 ≤ frame.length) :
    loadedSum frame ≡ 256 * sumWords (slice frame 26 8) [MOD 65535] := by
  have hbytes := fun i => (byteAt frame i).toNat_lt
  rw [slice_eq_map (by omega), loadedSum, toNat_readU32le, toNat_readU32le]
  simp only [range, range.loop, map_cons, map_nil, sumWords, Nat.reduceAdd,
    Nat.add_zero]
  unfold Nat.ModEq
  omega

theorem sumWords_append (l r : List UInt8) (heven : l.length % 2 = 0) :
    sumWords (l ++ r) = sumWords l + sumWords r := by
  induction l using sumWords.induct with
  | case1 => simp [sumWords]
  | case2 a => exact absurd heven Nat.one_ne_zero
  | case3 a b rest ih =>
    have hrest : rest.length % 2 = 0 := by
      simp only [length_cons] at heven
      omega
    rw [cons_append, cons_append, sumWords, sumWords, ih hrest]
    omega

theorem sumWords_writeBe16 (v : UInt16) : sumWords (writeBe16 v) = v.toNat := by
  have hv := v.toNat_lt
  simp only [writeBe16, sumWords, UInt16.toNat_toUInt8, UInt16.toNat_shiftRight, UInt16.reduceToNat,
    Nat.reduceMod]
  omega

/-- **When a checksum is right.** -/
theorem rfc793Sum_eq_iff (h : 34 ≤ frame.length) : rfc793Sum frame = 0xFFFF ↔
    65535 ∣ sumWords (slice frame 26 8) + restSum frame := by
  have hrep : OnesRep 65535 (words (pseudoHeader frame) ++ words (tcpPart frame)).sum
      (rfc793Sum frame) := by
    refine onesRep_onesSum _ fun w hw => ?_
    rcases mem_append.mp hw with hw | hw
    · exact le_of_mem_words _ w hw
    · exact le_of_mem_words _ w hw
  have hslice : (slice frame 26 8).length = 8 := by
    simp only [slice, length_take, length_drop]
    omega
  have hpseudo : sumWords (pseudoHeader frame) =
      sumWords (slice frame 26 8) + 6 + tcpLength frame := by
    have hsix : sumWords [0, 6] = 6 := rfl
    rw [pseudoHeader, sumWords_append _ _ (by simp [hslice]),
      sumWords_append _ _ (by simp [hslice]), hsix, sumWords_writeBe16,
      UInt16.toNat_ofNat_of_lt' (tcpLength_lt frame)]
  rw [hrep.eq_max_iff (by decide), sum_append, sum_words, sum_words, hpseudo, restSum]
  have hassoc : sumWords (slice frame 26 8) + 6 + tcpLength frame + sumWords (tcpPart frame) =
      sumWords (slice frame 26 8) + (6 + tcpLength frame + sumWords (tcpPart frame)) := by omega
  rw [hassoc]
  exact and_iff_right (by omega)

theorem Checked.le_length (h : Checked frame) : 34 ≤ frame.length := by
  have htotal := h.ipLength
  have hframe := h.frameLength
  omega

/-- **A right checksum is accepted exactly when `257` divides the sum of the addresses.** -/
theorem Checked.isSome_iff_of_rfc793Sum (h : Checked frame) (hsum : tcpChecksum frame ≠ 0)
    (hright : rfc793Sum frame = 0xFFFF) :
    (parseTcp frame).isSome = true ↔ 257 ∣ sumWords (slice frame 26 8) := by
  have hlen := h.le_length
  have hloaded := loadedSum_modEq hlen
  rw [rfc793Sum_eq_iff hlen] at hright
  rw [h.isSome_parseTcp_iff hsum]
  unfold Nat.ModEq at hloaded
  omega

theorem Checked.isSome_iff_of_dvd (h : Checked frame) (hsum : tcpChecksum frame ≠ 0)
    (hdvd : 257 ∣ sumWords (slice frame 26 8)) :
    (parseTcp frame).isSome = true ↔ rfc793Sum frame = 0xFFFF := by
  have hlen := h.le_length
  have hloaded := loadedSum_modEq hlen
  rw [rfc793Sum_eq_iff hlen, h.isSome_parseTcp_iff hsum]
  unfold Nat.ModEq at hloaded
  omega

/-! ### A frame for all addresses -/

/-- A frame with a bare TCP header, for the bytes of the addresses and a checksum. -/
def summedFrame (a : Fin 8 → UInt8) (cksum : UInt16) : List UInt8 :=
  [0, 0, 0, 0, 0, 0, 0, 0, 0, 0, 0, 0, 0x08, 0x00,
    0x45, 0, 0, 40, 0, 0, 0, 0, 64, 6, 0, 0, a 0, a 1, a 2, a 3, a 4, a 5, a 6, a 7,
    0, 0, 0, 0, 0, 0, 0, 0, 0, 0, 0, 0, 0x50, 0, 0, 0] ++ writeBe16 cksum ++ [0, 0]

section SummedFrame

variable (a : Fin 8 → UInt8) (cksum : UInt16)

theorem ipHeaderBytes_summedFrame : ipHeaderBytes (summedFrame a cksum) = 20 :=
  ipHeaderBytes_of_first rfl

theorem ipTotalLength_summedFrame : ipTotalLength (summedFrame a cksum) = 40 := by
  have hword : readU16be (summedFrame a cksum) 16 =
      (0 : UInt8).toUInt16 <<< 8 ||| (40 : UInt8).toUInt16 := rfl
  rw [ipTotalLength, hword]
  rfl

theorem tcpHeaderBytes_summedFrame : tcpHeaderBytes (summedFrame a cksum) 34 = 20 := by
  have hbyte : byteAt (summedFrame a cksum) (34 + 12) = 0x50 := rfl
  rw [tcpHeaderBytes, hbyte]
  rfl

theorem checked_summedFrame : Checked (summedFrame a cksum) := by
  have hip := ipHeaderBytes_summedFrame a cksum
  have htotal := ipTotalLength_summedFrame a cksum
  have htcp := tcpHeaderBytes_summedFrame a cksum
  have htype : readU16be (summedFrame a cksum) 12 = (8 : UInt8).toUInt16 <<< 8 ||| 0 := rfl
  have hversion : byteAt (summedFrame a cksum) 14 = 0x45 := rfl
  have hlen : (summedFrame a cksum).length = 54 := rfl
  have hzero : readU16be (summedFrame a cksum) 24 = (0 : UInt8).toUInt16 <<< 8 ||| 0 := rfl
  constructor
  · rw [ethFrameHasIpv4, htype, hversion, hlen]
    rfl
  · rfl
  · rw [hip]
  · rw [hip, htotal]
  · rw [htotal, hlen]
  · rw [hip, htcp]
  · rw [hip, htcp, tcpLength, htotal, hip]
  · rw [ipChecksumOk, hzero]
    rfl

theorem slice_summedFrame : slice (summedFrame a cksum) 26 8 = ofFn a := by
  simp [slice, summedFrame, ofFn_succ]

theorem tcpChecksum_summedFrame : tcpChecksum (summedFrame a cksum) = cksum := by
  rw [tcpChecksum, ipHeaderBytes_summedFrame]
  exact be16_bytes cksum

theorem restSum_summedFrame : restSum (summedFrame a cksum) = 20506 + cksum.toNat := by
  have hpart : tcpPart (summedFrame a cksum) =
      [0, 0, 0, 0, 0, 0, 0, 0, 0, 0, 0, 0, 0x50, 0, 0, 0] ++ (writeBe16 cksum ++ [0, 0]) := by
    rw [tcpPart, tcpLength, ipTotalLength_summedFrame, ipHeaderBytes_summedFrame]
    rfl
  have hhead : sumWords [0, 0, 0, 0, 0, 0, 0, 0, 0, 0, 0, 0, 0x50, 0, 0, 0] = 20480 := rfl
  have htail : sumWords [0, 0] = 0 := rfl
  rw [restSum, hpart, tcpLength, ipTotalLength_summedFrame, ipHeaderBytes_summedFrame,
    sumWords_append _ _ rfl, hhead, sumWords_append (writeBe16 cksum) _ (by simp [writeBe16]),
    sumWords_writeBe16, htail]
  omega

/-- Every checksum but zero occurs, and one makes the sum right. -/
theorem exists_right_checksum : ∃ frame, Checked frame ∧ slice frame 26 8 = ofFn a ∧
    tcpChecksum frame ≠ 0 ∧ rfc793Sum frame = 0xFFFF := by
  obtain ⟨n, hn⟩ : ∃ n, n = 65535 - (sumWords (ofFn a) + 20506) % 65535 := ⟨_, rfl⟩
  have hcksum : (UInt16.ofNat n).toNat = n := UInt16.toNat_ofNat_of_lt' (show n < 65536 by omega)
  refine ⟨summedFrame a (UInt16.ofNat n), checked_summedFrame a _, slice_summedFrame a _, ?_, ?_⟩
  · rw [tcpChecksum_summedFrame]
    intro hzero
    rw [hzero] at hcksum
    have hn' : 0 = n := hcksum
    omega
  · have hlen : 34 ≤ (summedFrame a (UInt16.ofNat n)).length := Nat.le_add_left 34 20
    rw [rfc793Sum_eq_iff hlen, slice_summedFrame, restSum_summedFrame, hcksum]
    omega

end SummedFrame

/-- **When the check is exact.** For every pair of addresses, the parser accepts exactly
the frames with a right checksum if and only if `257` divides the sum of the four address
words; if it does not, no frame with a right checksum is accepted. -/
theorem tcp_checksum_exact_iff (a : Fin 8 → UInt8) :
    ((∀ frame, Checked frame → slice frame 26 8 = ofFn a → tcpChecksum frame ≠ 0 →
        ((parseTcp frame).isSome = true ↔ rfc793Sum frame = 0xFFFF)) ↔
      257 ∣ sumWords (ofFn a)) ∧
    (¬ 257 ∣ sumWords (ofFn a) → ∀ frame, Checked frame → slice frame 26 8 = ofFn a →
      tcpChecksum frame ≠ 0 → rfc793Sum frame = 0xFFFF → parseTcp frame = none) := by
  refine ⟨⟨fun hexact => ?_, fun hdvd frame h ha hsum => ?_⟩, fun hdvd frame h ha hsum hright => ?_⟩
  · obtain ⟨frame, h, ha, hsum, hright⟩ := exists_right_checksum a
    rw [← ha, ← h.isSome_iff_of_rfc793Sum hsum hright]
    exact (hexact frame h ha hsum).mpr hright
  · exact h.isSome_iff_of_dvd hsum (ha ▸ hdvd)
  · rw [← ha, ← h.isSome_iff_of_rfc793Sum hsum hright] at hdvd
    exact Option.not_isSome_iff_eq_none.mp hdvd

/-- The addresses 10.0.2.2 and 10.0.2.15. -/
def guestAddresses : Fin 8 → UInt8 := fun i => byteAt [10, 0, 2, 2, 10, 0, 2, 15] i

/-- **A right checksum that is refused.** -/
theorem right_checksum_refused :
    let frame := summedFrame guestAddresses 0x97d4
    Checked frame ∧ tcpChecksum frame = 0x97d4 ∧ rfc793Sum frame = 0xFFFF ∧
      parseTcp frame = none := by
  intro frame
  have hchecked : Checked frame := checked_summedFrame _ _
  have hcksum : tcpChecksum frame = 0x97d4 := tcpChecksum_summedFrame _ _
  have hright : rfc793Sum frame = 0xFFFF := by decide +kernel
  refine ⟨hchecked, hcksum, hright, Option.not_isSome_iff_eq_none.mp fun hsome => ?_⟩
  have hdvd := (hchecked.isSome_iff_of_rfc793Sum (hcksum ▸ by decide) hright).mp hsome
  exact absurd hdvd (by decide +kernel)

end Xaios.Net
