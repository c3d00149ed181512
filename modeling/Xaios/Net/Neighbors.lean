import Mathlib.Data.List.GetD
import Xaios.Foundation.Loop
import Xaios.Net.Ndp

/-!
# Neighbours

The messages that the kernel builds, and what it makes of them itself; and the detection of
duplicate addresses.

`ndp_build_neighbor_solicitation` gives the message 28 bytes, and the option with the
link-layer address ends at 32. So the option is not in the frame, the receiver does not look
for it, and its cache stays as it was; an advertisement has all of its 32 bytes
(`Net.Ndp.messages_round_trip_iff`).

An advertisement of the address under detection is noted in a copy of the state that
`ndp_dad_init` made, and `ndp_dad_tick` looks at the original: it never says that an address
is a duplicate (`Net.Ndp.dad_sound_iff`).
-/

namespace Xaios

namespace Net

namespace Ndp

open Foundation Function List Bounds

/-! ### Builders -/

/-- `solicited_node_mcast`. -/
def solicitedNodeMcast (target : IpAddr) : IpAddr :=
  ⟨6, fun i => [0xFF, 0x02, 0, 0, 0, 0, 0, 0, 0, 0, 0, 0x01, 0xFF, target.addr 13, target.addr 14,
    target.addr 15].getD i 0⟩

/-- `mcast_eth_from_ipv6`. -/
def mcastEthFromIpv6 (ip : IpAddr) : Mac :=
  fun i => [0x33, 0x33, ip.addr 12, ip.addr 13, ip.addr 14, ip.addr 15].getD i 0

/-- `ipv6_build_header`, with the hop limit that the builders write over it. -/
def ndpHeader (payloadLength : UInt16) (src dst : IpAddr) : List UInt8 :=
  (ipv6Header payloadLength 58 src dst).set 7 255

/-- A message with a target and an option. -/
def message (type : UInt8) (cksum : UInt16) (flags : UInt8) (target : IpAddr) (kind : UInt8)
    (mac : Mac) : List UInt8 :=
  [type, 0] ++ writeBe16 cksum ++ [flags, 0, 0, 0] ++ List.ofFn target.addr ++ [kind, 1] ++
    List.ofFn mac

/-- `ndp_build_neighbor_solicitation`: the bytes that it writes, and the length of the
frame. -/
def ndpBuildNeighborSolicitation (srcMac : Mac) (srcIp targetIp : IpAddr) : List UInt8 × ℕ :=
  let mcastDst := solicitedNodeMcast targetIp
  let icmpv6 := fun cksum => message 135 cksum 0 targetIp 1 srcMac
  let cksum := ipv6PseudoChecksum srcIp mcastDst 58 28 ((icmpv6 0).take 28)
  (ethHeader srcMac (mcastEthFromIpv6 mcastDst) 0x86DD ++ ndpHeader 28 srcIp mcastDst ++
    icmpv6 cksum, 14 + 40 + 28)

/-- `icmpv6_build_neighbor_advertisement`. -/
def icmpv6BuildNeighborAdvertisement (srcMac dstMac : Mac) (srcIp dstIp target : IpAddr) :
    List UInt8 × ℕ :=
  let icmpv6 := fun cksum => message 136 cksum 0x60 target 2 srcMac
  let cksum := ipv6PseudoChecksum srcIp dstIp 58 32 (icmpv6 0)
  (ethHeader srcMac dstMac 0x86DD ++ ndpHeader 32 srcIp dstIp ++ icmpv6 cksum, 14 + 40 + 32)

/-- The frame that is sent. -/
def sent (built : List UInt8 × ℕ) : List UInt8 := built.1.take built.2

/-- **A message is accepted** if its header is that of a neighbor message. -/
theorem acceptMessage_of_header {frame : List UInt8} {type : UInt8} (len : UInt8)
    (hlen : 62 ≤ frame.length) (h : [12, 13, 14, 18, 19, 20, 21, 54].map (byteAt frame) =
      [0x86, 0xDD, 0x60, 0, len, 58, 255, type]) (hmin : 24 ≤ len.toNat) :
    acceptMessage frame type 24 = .ok (some len.toNat) := by
  simp only [map_cons, map_nil, cons.injEq, and_true] at h
  obtain ⟨h12, h13, h14, h18, h19, hnext, hhops, htype⟩ := h
  have hpayload : ip6PayloadLength frame = len.toNat := by
    simp [ip6PayloadLength, readU16be, h18, h19]
  have heth : readU16be frame 12 = 0x86DD := by
    rw [readU16be, h12, h13]
    rfl
  have hversion : byteAt frame 14 >>> 4 = 6 := by
    rw [h14]
    rfl
  rw [acceptMessage_of_accepts hlen
    ⟨hhops, heth, hversion, hnext, htype, hmin.trans_eq hpayload.symm⟩, hpayload]

theorem byteAt_ofFn {n : ℕ} (f : Fin n → UInt8) (rest : List UInt8) (i : Fin n) :
    byteAt (List.ofFn f ++ rest) i = f i := by
  have hi : (i : ℕ) < (List.ofFn f).length := by simp
  rw [byteAt, List.getD_append _ _ _ _ hi, List.getD_eq_getElem _ _ hi, List.getElem_ofFn]

/-- **A solicitation is accepted, and changes nothing**: the walk ends before its option. -/
theorem process_solicitation (srcMac : Mac) (srcIp targetIp : IpAddr) (s : Neighbors) :
    ndpProcessNeighborSolicitation s (sent (ndpBuildNeighborSolicitation srcMac srcIp targetIp)) =
      .ok (.ok, s) := by
  have hlen : (sent (ndpBuildNeighborSolicitation srcMac srcIp targetIp)).length = 82 := rfl
  have hacc : acceptMessage (sent _) 135 24 = _ :=
    acceptMessage_of_header 28 (by rw [hlen]; decide) rfl (by decide)
  generalize sent (ndpBuildNeighborSolicitation srcMac srcIp targetIp) = frame at hlen hacc
  rw [ndpProcessNeighborSolicitation, hacc, ok_bind]
  dsimp only
  rw [fromRawIpv6_eq (by omega), ok_bind, fromRawIpv6_eq (by omega), ok_bind]
  rfl

/-- What a receiver reads off an advertisement. -/
structure Advertises (frame : List UInt8) (mac : Mac) (addr : Fin 16 → UInt8) : Prop where
  length : frame.length = 86
  accept : acceptMessage frame 136 24 = .ok (some 32)
  target : target frame = ⟨6, addr⟩
  option : byteAt frame 78 = 2 ∧ byteAt frame 79 = 1
  mac : (fun i : Fin 6 => byteAt frame (80 + i)) = mac

theorem advertises_sent (srcMac dstMac : Mac) (srcIp dstIp targetIp : IpAddr) :
    Advertises (sent (icmpv6BuildNeighborAdvertisement srcMac dstMac srcIp dstIp targetIp)) srcMac
      targetIp.addr := by
  -- the frame up to the target, the target, and the rest
  obtain ⟨head, hhead, hsent⟩ : ∃ head : List UInt8, head.length = 62 ∧
      sent (icmpv6BuildNeighborAdvertisement srcMac dstMac srcIp dstIp targetIp) =
        head ++ (List.ofFn targetIp.addr ++ ([2, 1] ++ (List.ofFn srcMac ++ []))) :=
    ⟨_, rfl, (take_append_drop 62 _).symm⟩
  have hlen80 : (head ++ (List.ofFn targetIp.addr ++ [2, 1])).length = 80 := by simp [hhead]
  refine ⟨rfl, acceptMessage_of_header 32 (Nat.le_add_left 62 24) rfl (by decide),
    congrArg (IpAddr.mk 6) (funext fun i => ?_), ⟨rfl, rfl⟩, funext fun i => ?_⟩
  · rw [hsent, ← hhead, byteAt_append, byteAt_ofFn]
  · rw [hsent, ← hlen80, ← append_assoc (List.ofFn targetIp.addr), ← append_assoc head,
      byteAt_append, byteAt_ofFn]

section Advertised

variable {s : Neighbors} {frame : List UInt8} {mac : Mac} {addr : Fin 16 → UInt8}
  (h : Advertises frame mac addr)

include h

/-- **An advertisement is accepted**, and its link-layer address goes into the cache. -/
theorem process_advertisement (hdad : s.dadActive = false) :
    ndpProcessNeighborAdvertisement s frame = ndpCacheInsert s ⟨6, addr⟩ (.ok mac) := by
  obtain ⟨hlen, hacc, htarget, ⟨htype, hoptlen⟩, hmac⟩ := h
  rw [target] at htarget
  rw [ndpProcessNeighborAdvertisement, hacc, ok_bind]
  dsimp only
  rw [fromRawIpv6_eq (by omega), ok_bind, htarget, hdad, Bool.false_and,
    if_neg Bool.false_ne_true, walkOptions, if_pos (by decide), fetch_byteAt (by omega),
    ok_bind, fetch_byteAt (by omega), ok_bind, htype, hoptlen, if_neg (by decide),
    if_pos ⟨rfl, rfl⟩, fetchMac_eq (by omega), hmac]
  cases ndpCacheInsert s ⟨6, addr⟩ (.ok mac) with
  | error | ok => rfl

/-- **An advertisement of the address under detection** is noted in the globals. -/
theorem process_duplicate (hdad : s.dadActive = true)
    (haddr : s.dadState.tentativeAddr = ⟨6, addr⟩) :
    ndpProcessNeighborAdvertisement s frame =
      .ok (.ok, { s with dadState := { s.dadState with duplicateFound := true } }) := by
  obtain ⟨hlen, hacc, htarget, -, -⟩ := h
  rw [target] at htarget
  rw [ndpProcessNeighborAdvertisement, hacc, ok_bind]
  dsimp only
  rw [fromRawIpv6_eq (by omega), ok_bind, htarget, hdad, haddr, Bool.true_and,
    if_pos (IpAddr.equal_refl _)]
  rfl

end Advertised

/-! ### Round trips -/

/-- A solicitation is accepted, and its sender is known then. -/
def SolicitationArrives (s : Neighbors) (srcMac : Mac) (src target : Fin 16 → UInt8) : Prop :=
  ∃ s', ndpProcessNeighborSolicitation s
      (sent (ndpBuildNeighborSolicitation srcMac ⟨6, src⟩ ⟨6, target⟩)) = .ok (.ok, s') ∧
    (ndpCacheLookup s' ⟨6, src⟩).1 = some srcMac

/-- An advertisement is accepted, and its target is known then. -/
def AdvertisementArrives (s : Neighbors) (mac dstMac : Mac) (srcIp dstIp : IpAddr)
    (target : Fin 16 → UInt8) : Prop :=
  ∃ s', ndpProcessNeighborAdvertisement s
      (sent (icmpv6BuildNeighborAdvertisement mac dstMac srcIp dstIp ⟨6, target⟩)) = .ok (.ok, s') ∧
    (ndpCacheLookup s' ⟨6, target⟩).1 = some mac

/-- **What the messages tell the receiver.** A solicitation tells it nothing, so its sender is
only known if it was before; an advertisement tells it the link-layer address, unless there is
no place for it. -/
theorem messages_round_trip_iff (s : Neighbors) (hdad : s.dadActive = false) (srcMac : Mac)
    (src solicited : Fin 16 → UInt8) (mac dstMac : Mac) (srcIp dstIp : IpAddr)
    (target : Fin 16 → UInt8) :
    (SolicitationArrives s srcMac src solicited ↔
        (ndpCacheLookup s ⟨6, src⟩).1 = some srcMac) ∧
      (AdvertisementArrives s mac dstMac srcIp dstIp target ↔ ¬s.Refuses ⟨6, target⟩) := by
  refine ⟨?_, ?_⟩
  · rw [SolicitationArrives, process_solicitation]
    constructor
    · rintro ⟨s', heq, hknown⟩
      cases heq
      exact hknown
    · intro hknown
      exact ⟨s, rfl, hknown⟩
  · rw [AdvertisementArrives, process_advertisement (advertises_sent _ _ _ _ _) hdad]
    constructor
    · rintro ⟨s', heq, -⟩ hrefuses
      rw [ndpCacheInsert_of_refuses hrefuses] at heq
      cases heq
    · intro hplace
      obtain ⟨i, e, heq, hknown⟩ := ndpCacheInsert_ok hplace mac
      exact ⟨_, heq, hknown⟩

/-- An address of the self test. -/
def linkLocal (last : UInt8) : Fin 16 → UInt8 := fun i =>
  [0xFE, 0x80, 0, 0, 0, 0, 0, 0, 0, 0, 0, 0, 0, 0, 0, last].getD i 0

/-- A link-layer address of the self test. -/
def testMac : Mac := fun i => [0x52, 0x54, 0x00, 0x12, 0x35, 0x02].getD i 0

/-- **A solicitation does not make its sender known.** -/
theorem solicitation_unknown :
    testMac 0 ≠ 0 ∧
      ndpProcessNeighborSolicitation quiet
        (sent (ndpBuildNeighborSolicitation testMac ⟨6, linkLocal 10⟩ ⟨6, linkLocal 1⟩)) =
        .ok (.ok, quiet) ∧
      (ndpCacheLookup quiet ⟨6, linkLocal 10⟩).1 = none :=
  ⟨by decide, process_solicitation _ _ _ _, rfl⟩

/-- A cache that knows the sender already. -/
def knowing : Neighbors :=
  quiet.setEntry ⟨0, Nat.zero_lt_succ 31⟩ ⟨⟨6, linkLocal 10⟩, testMac, true, .reachable, 0, 0, 0, 0⟩

/-- Both messages arrive there. -/
theorem known_sender_arrives :
    SolicitationArrives knowing testMac (linkLocal 10) (linkLocal 1) ∧
      AdvertisementArrives knowing testMac testMac ⟨6, linkLocal 10⟩ ⟨6, linkLocal 1⟩
        (linkLocal 10) := by
  obtain ⟨hsolicitation, hadvertisement⟩ := messages_round_trip_iff knowing rfl testMac
    (linkLocal 10) (linkLocal 1) testMac testMac ⟨6, linkLocal 10⟩ ⟨6, linkLocal 1⟩ (linkLocal 10)
  exact ⟨hsolicitation.mpr rfl, hadvertisement.mpr fun h => absurd h.2 (by decide)⟩

/-! ### Timers -/

/-- One entry in `ndp_cache_age`. -/
def ageEntry (nowNs : UInt64) (e : NdpEntry) : NdpEntry :=
  if !e.active then e
  else
    let e := if e.nudState = .reachable ∧ 30000000000 ≤ nowNs - e.nudTimestampNs then
      { e with nudState := .stale } else e
    if e.nudState = .incomplete ∧ 30000000000 ≤ nowNs - e.insertNs then expireEntry e else e

/-- `ndp_cache_age`. -/
def ndpCacheAge (s : Neighbors) (nowNs : UInt64) : Neighbors :=
  { s with cache := fun i => ageEntry nowNs (s.cache i) }

/-- `ndp_nud_update_on_traffic`. -/
def ndpNudUpdateOnTraffic (s : Neighbors) (target : IpAddr) : Neighbors :=
  match s.find target with
  | none => s
  | some i =>
    let e := { s.cache i with lastUsedNs := s.lastTickNs }
    s.setEntry i
      (match e.nudState with
      | .stale => { e with nudState := .delay, nudTimestampNs := s.lastTickNs }
      | .reachable => { e with nudTimestampNs := s.lastTickNs }
      | _ => e)

/-- One entry in `ndp_nud_tick`. -/
def tickEntry (nowNs : UInt64) (e : NdpEntry) : NdpEntry :=
  if !e.active then e
  else
    match e.nudState with
    | .delay =>
      if 5000000000 ≤ nowNs - e.nudTimestampNs then
        { e with nudState := .probe, nudTimestampNs := nowNs, probeCount := 0 }
      else e
    | .probe =>
      if 1000000000 ≤ nowNs - e.nudTimestampNs ∧ 3 ≤ e.probeCount then
        { e with nudState := .incomplete }
      else e
    | _ => e

/-- `ndp_nud_tick`. -/
def ndpNudTick (s : Neighbors) (nowNs : UInt64) : Neighbors :=
  let s := ndpCacheAge { s with lastTickNs := nowNs } nowNs
  { s with cache := fun i => tickEntry nowNs (s.cache i) }

/-! ### Duplicate addresses -/

/-- `ndp_dad_init`: the state of the caller, and the globals. The solicitation that it builds
is not sent. -/
def ndpDadInit (s : Neighbors) (addr : IpAddr) : DadState × Neighbors :=
  let dad : DadState := ⟨addr, s.lastTickNs, true, false⟩
  (dad, { s with dadActive := true, dadState := dad })

/-- `ndp_dad_tick`: what it answers, the state of the caller, and the globals. -/
def ndpDadTick (s : Neighbors) (dad : DadState) (nowNs : UInt64) : ℤ × DadState × Neighbors :=
  if !dad.active then (1, dad, s)
  else if dad.duplicateFound then
    (-1, { dad with active := false }, { s with dadActive := false })
  else if 1000000000 ≤ nowNs - dad.startNs then
    (1, { dad with active := false }, { s with dadActive := false })
  else (0, dad, s)

/-- The globals, and the states that callers have. -/
structure World (ι : Type) where
  ndp : Neighbors
  dads : ι → DadState

/-- The calls of `ndp.h`. -/
inductive Call (ι : Type) where
  | init
  | cacheLookup (ip : IpAddr)
  | cacheInsert (ip : IpAddr) (mac : Mac)
  | neighborSolicitation (frame : List UInt8)
  | neighborAdvertisement (frame : List UInt8)
  | routerAdvertisement (frame : List UInt8)
  | cacheAge (nowNs : UInt64)
  | nudUpdateOnTraffic (target : IpAddr)
  | nudTick (nowNs : UInt64)
  | dadInit (dad : ι) (addr : IpAddr)
  | dadTick (dad : ι) (nowNs : UInt64)

section Runs

variable {ι : Type} [DecidableEq ι]

/-- A call. It stops where it would read outside of its frame. -/
def Call.exec (w : World ι) : Call ι → Guarded (World ι)
  | init => .ok { w with ndp := ndpInit w.ndp }
  | cacheLookup ip => .ok { w with ndp := (ndpCacheLookup w.ndp ip).2 }
  | cacheInsert ip mac => do return { w with ndp := (← ndpCacheInsert w.ndp ip (.ok mac)).2 }
  | neighborSolicitation frame => do
    return { w with ndp := (← ndpProcessNeighborSolicitation w.ndp frame).2 }
  | neighborAdvertisement frame => do
    return { w with ndp := (← ndpProcessNeighborAdvertisement w.ndp frame).2 }
  | routerAdvertisement frame => do
    return { w with ndp := (← ndpProcessRouterAdvertisement w.ndp frame).2 }
  | cacheAge nowNs => .ok { w with ndp := ndpCacheAge w.ndp nowNs }
  | nudUpdateOnTraffic target => .ok { w with ndp := ndpNudUpdateOnTraffic w.ndp target }
  | nudTick nowNs => .ok { w with ndp := ndpNudTick w.ndp nowNs }
  | dadInit dad addr =>
    let r := ndpDadInit w.ndp addr
    .ok ⟨r.2, update w.dads dad r.1⟩
  | dadTick dad nowNs =>
    let r := ndpDadTick w.ndp (w.dads dad) nowNs
    .ok ⟨r.2.2, update w.dads dad r.2.1⟩

/-- Calls one after the other. -/
def run (w : World ι) (cs : List (Call ι)) : Guarded (World ι) := cs.foldlM Call.exec w

/-- An advertisement of an address is accepted in a run. -/
def Advertised (w : World ι) (cs : List (Call ι)) (addr : IpAddr) : Prop :=
  ∃ before frame after w' s', cs = before ++ .neighborAdvertisement frame :: after ∧
    run w before = .ok w' ∧ ndpProcessNeighborAdvertisement w'.ndp frame = .ok (.ok, s') ∧
    (target frame).equal addr = true

/-- The state of a caller is as the caller made it, or done: nothing else writes it. -/
theorem exec_dads {w w' : World ι} {c : Call ι} {dad : ι} (hexec : c.exec w = .ok w')
    (hinit : ∀ addr, c ≠ .dadInit dad addr)
    (h : (w.dads dad).duplicateFound = false) : (w'.dads dad).duplicateFound = false := by
  -- the other calls change the globals only
  have hkeeps : ∀ x : Guarded (Status × Neighbors),
      (do return { w with ndp := (← x).2 }) = (.ok w' : Guarded (World ι)) → w'.dads = w.dads := by
    intro x hx
    cases x with
    | error e => cases hx
    | ok r =>
      cases hx
      rfl
  cases c with
  | cacheInsert | neighborSolicitation | neighborAdvertisement | routerAdvertisement =>
    rw [hkeeps _ hexec, h]
  | dadInit i addr =>
    cases hexec
    rcases eq_or_ne dad i with rfl | hne
    · exact absurd rfl (hinit addr)
    · dsimp only
      rw [update_of_ne hne, h]
  | dadTick i nowNs =>
    cases hexec
    dsimp only
    rcases eq_or_ne dad i with rfl | hne
    · rw [update_self]
      unfold ndpDadTick
      split
      · exact h
      split
      · exact h
      split
      · exact h
      · exact h
    · rw [update_of_ne hne, h]
  | _ =>
    cases hexec
    exact h

theorem run_dads {w w' : World ι} {cs : List (Call ι)} {dad : ι} (hrun : run w cs = .ok w')
    (hinit : ∀ addr, .dadInit dad addr ∉ cs) (h : (w.dads dad).duplicateFound = false) :
    (w'.dads dad).duplicateFound = false := by
  induction cs generalizing w with
  | nil =>
    cases hrun
    exact h
  | cons c cs ih =>
    rw [run, foldlM_cons] at hrun
    cases hexec : c.exec w with
    | error e =>
      rw [hexec] at hrun
      cases hrun
    | ok w₁ =>
      rw [hexec] at hrun
      refine ih hrun (fun addr hmem => hinit addr (mem_cons_of_mem c hmem)) ?_
      refine exec_dads hexec (fun addr hc => hinit addr ?_) h
      rw [hc]
      exact mem_cons_self

/-- **No address is found to be a duplicate**: between the start of the detection and a tick of
it, an advertisement of the address leads to that verdict exactly if there is none. -/
theorem dad_sound_iff (w : World ι) (dad : ι) (addr : IpAddr) {cs : List (Call ι)}
    (hinit : ∀ a, .dadInit dad a ∉ cs) {w₁ w₂ : World ι}
    (hstart : Call.exec w (.dadInit dad addr) = .ok w₁) (hrun : run w₁ cs = .ok w₂)
    (nowNs : UInt64) :
    (Advertised w₁ cs addr → (ndpDadTick w₂.ndp (w₂.dads dad) nowNs).1 = -1) ↔
      ¬Advertised w₁ cs addr := by
  have hfound : (w₁.dads dad).duplicateFound = false := by
    cases hstart
    dsimp only
    rw [update_self]
    rfl
  have hnever : (ndpDadTick w₂.ndp (w₂.dads dad) nowNs).1 ≠ -1 := by
    have h := run_dads hrun hinit hfound
    unfold ndpDadTick
    rw [h]
    split
    · exact (by decide : (1 : ℤ) ≠ -1)
    · rw [if_neg Bool.false_ne_true]
      split
      · exact (by decide : (1 : ℤ) ≠ -1)
      · exact (by decide : (0 : ℤ) ≠ -1)
  exact ⟨fun h hadv => hnever (h hadv), fun h hadv => absurd hadv h⟩

end Runs

/-- A caller that has not begun a detection. -/
def caller : World Unit := ⟨quiet, fun _ => ⟨.zero, 0, false, false⟩⟩

/-- It begins one. -/
def detecting : World Unit :=
  ⟨(ndpDadInit quiet ⟨6, linkLocal 0xFE⟩).2, fun _ => (ndpDadInit quiet ⟨6, linkLocal 0xFE⟩).1⟩

theorem exec_caller : Call.exec caller (.dadInit () ⟨6, linkLocal 0xFE⟩) = .ok detecting := by
  refine congrArg Except.ok (congrArg (World.mk _) (funext fun i => ?_))
  exact update_self _ _ _

/-- Without an advertisement the verdict is sound. -/
theorem silent_detection_sound :
    (Advertised detecting [.nudTick 1000000000] ⟨6, linkLocal 0xFE⟩ →
        (ndpDadTick (ndpNudTick detecting.ndp 1000000000) (detecting.dads ()) 1000000000).1 = -1) ↔
      ¬Advertised detecting [.nudTick 1000000000] ⟨6, linkLocal 0xFE⟩ := by
  have hinit : ∀ a, Call.dadInit () a ∉ [Call.nudTick 1000000000] := by
    intro a h
    cases mem_singleton.mp h
  exact dad_sound_iff caller () ⟨6, linkLocal 0xFE⟩ hinit exec_caller rfl 1000000000

/-- An advertisement of the address under detection. -/
def duplicate : List UInt8 :=
  sent (icmpv6BuildNeighborAdvertisement testMac testMac ⟨6, linkLocal 1⟩ ⟨6, linkLocal 10⟩
    ⟨6, linkLocal 0xFE⟩)

/-- The globals then. -/
def noted : Neighbors :=
  { detecting.ndp with dadState := { detecting.ndp.dadState with duplicateFound := true } }

/-- **A duplicate that is called unique.** -/
theorem duplicate_called_unique :
    run detecting [.neighborAdvertisement duplicate] = .ok { detecting with ndp := noted } ∧
      Advertised detecting [.neighborAdvertisement duplicate] ⟨6, linkLocal 0xFE⟩ ∧
      (ndpDadTick noted (detecting.dads ()) 1000000000).1 = 1 := by
  have hprocess : ndpProcessNeighborAdvertisement detecting.ndp duplicate = .ok (.ok, noted) :=
    process_duplicate (advertises_sent _ _ _ _ _) rfl rfl
  have htarget : target duplicate = ⟨6, linkLocal 0xFE⟩ := (advertises_sent _ _ _ _ _).target
  refine ⟨?_, ⟨[], duplicate, [], detecting, noted, rfl, rfl, hprocess, ?_⟩, rfl⟩
  · rw [run, foldlM_cons, Call.exec, hprocess]
    rfl
  · rw [htarget]
    exact IpAddr.equal_refl _

end Ndp

end Net

end Xaios
