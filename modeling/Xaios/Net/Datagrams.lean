import Mathlib.Data.Fintype.Basic
import Xaios.Net.Changes

/-!
# Datagrams

Which flow takes a datagram. A datagram comes from a peer (`Net.Endpoints`): the
version, both addresses and both ports. A flow is found by less than that
(`Net.Endpoints.key`): `network_stack_process_udp_frame_v6` asks `alloc_udp_flow`
for the addresses of version 4, which are zero in a packet of version 6, so all hosts of
version 6 that use one pair of ports have one key, and they share it with the peer
`0.0.0.0` of version 4.

Both handlers hand a valid datagram to one body (`Net.exec_of_endpoints`), and what
becomes of it is `Net.exec_datagram_cases`: it is refused, and no flow and no buffer
is another one, or it is taken by the flow of one slot, which has the key. All other calls
leave the flows alone or end them (`Net.udpFlows_exec`).
-/

namespace Xaios.Net

open Foundation Function Option List

/-! ### Peers and keys -/

/-- The hosts of a datagram, of either version. -/
inductive UdpHosts where
  | v4 (localAddress remoteAddress : UInt32)
  | v6 (localAddr remoteAddr : Fin 16 → UInt8)
  deriving DecidableEq

/-- Where a datagram comes from and where it goes. A datagram with a port that is zero is
refused. -/
structure Endpoints where
  hosts : UdpHosts
  localPort : UInt16
  remotePort : UInt16
  localPort_ne : localPort ≠ 0
  remotePort_ne : remotePort ≠ 0
  deriving DecidableEq

/-- What `find_udp_flow` compares. -/
structure UdpKey where
  localPort : UInt16
  remotePort : UInt16
  localAddress : UInt32
  remoteAddress : UInt32
  deriving DecidableEq

/-- **The key by which the flow of a datagram is found.** -/
def Endpoints.key (e : Endpoints) : UdpKey :=
  match e.hosts with
  | .v4 localAddress remoteAddress => ⟨e.localPort, e.remotePort, localAddress, remoteAddress⟩
  | .v6 _ _ => ⟨e.localPort, e.remotePort, 0, 0⟩

/-- The key of a flow. -/
def UdpFlow.key (f : UdpFlow) : UdpKey :=
  ⟨f.localPort, f.remotePort, f.localAddress, f.remoteAddress⟩

/-- The queue and the cell of a flow. -/
def UdpFlow.home (f : UdpFlow) : UInt32 × UInt32 := (f.queueId, f.cellId)

def UdpFields.endpoints (fields : UdpFields) : Option Endpoints :=
  if h : fields.dstPort ≠ 0 ∧ fields.srcPort ≠ 0 then
    some ⟨.v4 fields.dstAddress fields.srcAddress, fields.dstPort, fields.srcPort, h.1, h.2⟩
  else none

def UdpFieldsV6.endpoints (fields : UdpFieldsV6) : Option Endpoints :=
  if h : fields.dstPort ≠ 0 ∧ fields.srcPort ≠ 0 then
    some ⟨.v6 fields.dstAddr.addr fields.srcAddr.addr, fields.dstPort, fields.srcPort, h.1, h.2⟩
  else none

/-- The peer of the datagram that a call brings, if the frame is a valid one. -/
def Call.endpoints : Call → Option Endpoints
  | .udpFrame _ frame => (parseUdp frame).bind UdpFields.endpoints
  | .udpFrameV6 _ frame => (parseUdpV6 frame).bind UdpFieldsV6.endpoints
  | _ => none

/-- The frame of a datagram. -/
def Call.datagram : Call → List UInt8
  | .udpFrame _ frame => frame
  | .udpFrameV6 _ frame => frame
  | _ => []

namespace Stack

variable {s t : Stack} {i : Fin 16} {k : UdpKey}

/-- The slot that `alloc_udp_flow` answers: the flow with the key, or the first slot that
is not active. -/
def udpSlot (s : Stack) (k : UdpKey) : Option (Fin 16) :=
  (s.findUdpFlow k.localPort k.remotePort k.localAddress k.remoteAddress).or
    ((finRange 16).find? fun i => !(s.udpFlows i).active)

theorem key_of_findUdpFlow
    (h : s.findUdpFlow k.localPort k.remotePort k.localAddress k.remoteAddress = some i) :
    (s.udpFlows i).active = true ∧ (s.udpFlows i).key = k := by
  have hfound := find?_some h
  simp only [Bool.and_eq_true, beq_iff_eq] at hfound
  obtain ⟨⟨⟨⟨hactive, hlp⟩, hrp⟩, hla⟩, hra⟩ := hfound
  refine ⟨hactive, ?_⟩
  rw [UdpFlow.key, hlp, hrp, hla, hra]

/-- A slot that is active already has the key. -/
theorem key_of_udpSlot (h : s.udpSlot k = some i) (hactive : (s.udpFlows i).active = true) :
    (s.udpFlows i).key = k := by
  unfold udpSlot at h
  rcases hfind : s.findUdpFlow k.localPort k.remotePort k.localAddress k.remoteAddress with _ | j
  · rw [hfind, none_or] at h
    have hidle := find?_some h
    rw [Bool.not_eq_true', hactive] at hidle
    nomatch hidle
  · rw [hfind, some_or] at h
    obtain rfl := some.inj h
    exact (key_of_findUdpFlow hfind).2

/-! ### What a datagram does -/

theorem udpFlows_setUdpFlow_self (s : Stack) (i : Fin 16) (f : UdpFlow) :
    (s.setUdpFlow i f).udpFlows i = f := update_self _ _ _

/-- A flow for a key was found or made. -/
structure Allocated (s t : Stack) (k : UdpKey) (b : QueueBinding) (i : Fin 16) : Prop where
  slot : s.udpSlot k = some i
  active : (t.udpFlows i).active = true
  key : (t.udpFlows i).key = k
  home : (t.udpFlows i).home =
    if (s.udpFlows i).active then (s.udpFlows i).home else (b.queueId, b.cellId)
  others : ∀ j, j ≠ i → t.udpFlows j = s.udpFlows j
  pool : ∀ c, t.pool c ≠ s.pool c →
    (s.udpFlows i).active = false ∧ (t.udpFlows i).rxBuf = some c
  bindings : t.bindings = s.bindings

theorem takeBuf_of_pool_ne {c : Fin 32} (h : s.takeBuf.2.pool c ≠ s.pool c) :
    s.takeBuf.1 = some c := by
  unfold takeBuf sockbufAlloc at h ⊢
  split at h
  · next k hfind =>
    by_contra hne
    have hck : c ≠ k := fun hck => hne (congrArg some hck.symm)
    exact h (update_of_ne hck _ _)
  · exact absurd rfl h

theorem allocUdpFlow_cases (s : Stack) (b : QueueBinding) (k : UdpKey) (now : UInt64) :
    s.udpSlot k = none ∧
        s.allocUdpFlow b k.localPort k.remotePort k.localAddress k.remoteAddress now = (none, s) ∨
      ∃ i t, s.allocUdpFlow b k.localPort k.remotePort k.localAddress k.remoteAddress now =
        (some i, t) ∧ Allocated s t k b i := by
  unfold allocUdpFlow udpSlot
  rcases hfind : s.findUdpFlow k.localPort k.remotePort k.localAddress k.remoteAddress with _ | i
  · rcases hidle : (finRange 16).find? fun i => !(s.udpFlows i).active with _ | i
    · exact .inl ⟨rfl, rfl⟩
    · have hactive := find?_some hidle
      rw [Bool.not_eq_true'] at hactive
      refine .inr ⟨i, _, rfl, ?_, ?_, ?_, ?_, ?_, ?_, ?_⟩
      · rw [udpSlot, hfind, none_or, hidle]
      · rw [udpFlows_setUdpFlow_self]
      · rw [udpFlows_setUdpFlow_self]
        rfl
      · rw [udpFlows_setUdpFlow_self, hactive]
        rfl
      · intro j hj
        rw [takeFlowId_eq]
        exact update_of_ne hj _ _
      · intro c hc
        refine ⟨hactive, ?_⟩
        rw [udpFlows_setUdpFlow_self]
        rw [takeFlowId_eq] at hc ⊢
        exact takeBuf_of_pool_ne hc
      · rw [takeFlowId_eq]
        rfl
  · obtain ⟨hactive, hkey⟩ := key_of_findUdpFlow hfind
    refine .inr ⟨i, _, rfl, ?_, ?_, ?_, ?_, ?_, ?_, rfl⟩
    · rw [udpSlot, hfind, some_or]
    · rw [udpFlows_setUdpFlow_self]
      exact hactive
    · rw [udpFlows_setUdpFlow_self]
      exact hkey
    · rw [udpFlows_setUdpFlow_self, hactive]
      rfl
    · exact fun j hj => update_of_ne hj _ _
    · exact fun c hc => absurd rfl hc

/-- What both handlers do with a datagram: the flow is found or made, version 6 puts its
addresses into it, and the payload is delivered. -/
def takeUdp (k : UdpKey) (addrs : UdpFlow → IpAddr × IpAddr) (payload : List UInt8) (now : UInt64)
    (b : QueueBinding) (s : Stack) : Status × Stack :=
  match s.allocUdpFlow b k.localPort k.remotePort k.localAddress k.remoteAddress now with
  | (none, s) => (.noMemory, s)
  | (some i, s) =>
    (s.setUdpFlow i { s.udpFlows i with
      localAddr := (addrs (s.udpFlows i)).1
      remoteAddr := (addrs (s.udpFlows i)).2 }).receiveUdp i payload b

/-- A datagram was refused: the flows and the buffers are what they were. -/
structure Refuses (s t : Stack) : Prop where
  active : ∀ j, (t.udpFlows j).active = (s.udpFlows j).active
  key : ∀ j, (t.udpFlows j).key = (s.udpFlows j).key
  pool : t.pool = s.pool

/-- A datagram was taken by the flow of a slot: the other flows are what they were, and so
are all buffers but the receive buffer of this one. -/
structure Takes (s t : Stack) (k : UdpKey) (b : QueueBinding) (i : Fin 16) : Prop where
  slot : s.udpSlot k = some i
  active : (t.udpFlows i).active = true
  key : (t.udpFlows i).key = k
  home : (t.udpFlows i).home = (b.queueId, b.cellId)
  others : ∀ j, j ≠ i → t.udpFlows j = s.udpFlows j
  pool : ∀ c, t.pool c ≠ s.pool c → (t.udpFlows i).rxBuf = some c
  bindings : t.bindings = s.bindings

variable {b : QueueBinding}

theorem Allocated.withAddrs (h : Allocated s t k b i) (localAddr remoteAddr : IpAddr) :
    Allocated s (t.setUdpFlow i { t.udpFlows i with
      localAddr := localAddr
      remoteAddr := remoteAddr }) k b i := by
  have hself := udpFlows_setUdpFlow_self t i
    { t.udpFlows i with localAddr := localAddr, remoteAddr := remoteAddr }
  refine ⟨h.slot, ?_, ?_, ?_, fun j hj => (update_of_ne hj _ _).trans (h.others j hj), ?_,
    h.bindings⟩
  · rw [hself]
    exact h.active
  · rw [hself]
    exact h.key
  · rw [hself]
    exact h.home
  · rw [hself]
    exact h.pool

/-- A flow on another queue is one that was there before. -/
theorem Allocated.refuses (h : Allocated s t k b i)
    (hhome : (t.udpFlows i).home ≠ (b.queueId, b.cellId)) : Refuses s t := by
  have hactive : (s.udpFlows i).active = true := by
    by_contra hno
    exact hhome (h.home.trans (if_neg hno))
  constructor
  · intro j
    rcases eq_or_ne j i with rfl | hne
    · rw [h.active, hactive]
    · rw [h.others j hne]
  · intro j
    rcases eq_or_ne j i with rfl | hne
    · rw [h.key, key_of_udpSlot h.slot hactive]
    · rw [h.others j hne]
  · funext c
    by_contra hc
    rw [(h.pool c hc).1] at hactive
    nomatch hactive

theorem Allocated.takes (h : Allocated s t k b i)
    (hhome : (t.udpFlows i).home = (b.queueId, b.cellId)) (payload : List UInt8) :
    Takes s (t.deliverUdp i payload) k b i := by
  have hflows : (t.deliverUdp i payload).udpFlows = t.udpFlows := by
    unfold deliverUdp
    split
    · rfl
    · split <;> rfl
  have hbindings : (t.deliverUdp i payload).bindings = t.bindings := by
    unfold deliverUdp
    split
    · rfl
    · split <;> rfl
  have hpool : ∀ c, (t.deliverUdp i payload).pool c ≠ t.pool c → (t.udpFlows i).rxBuf = some c := by
    intro c hc
    unfold deliverUdp at hc
    split at hc
    · exact absurd rfl hc
    · next d hd =>
      split at hc
      · exact absurd rfl hc
      · by_contra hne
        have hcd : c ≠ d := fun hcd => hne (hd.trans (congrArg some hcd.symm))
        exact hc (update_of_ne hcd _ _)
  constructor
  · exact h.slot
  · rw [hflows]
    exact h.active
  · rw [hflows]
    exact h.key
  · rw [hflows]
    exact hhome
  · rw [hflows]
    exact h.others
  · intro c hc
    rw [hflows]
    by_cases hct : (t.deliverUdp i payload).pool c = t.pool c
    · exact (h.pool c (hct ▸ hc)).2
    · exact hpool c hct
  · exact hbindings.trans h.bindings

/-- **What becomes of a datagram.** -/
theorem takeUdp_cases (s : Stack) (k : UdpKey) (addrs : UdpFlow → IpAddr × IpAddr)
    (payload : List UInt8) (now : UInt64) (b : QueueBinding) :
    (takeUdp k addrs payload now b s).1 ≠ .ok ∧ Refuses s (takeUdp k addrs payload now b s).2 ∨
      (takeUdp k addrs payload now b s).1 = .ok ∧
        ∃ i, Takes s (takeUdp k addrs payload now b s).2 k b i := by
  unfold takeUdp
  rcases s.allocUdpFlow_cases b k now with ⟨-, halloc⟩ | ⟨i, t, halloc, h⟩
  · rw [halloc]
    exact .inl ⟨nofun, fun _ => rfl, fun _ => rfl, rfl⟩
  · rw [halloc]
    have h' := h.withAddrs (addrs (t.udpFlows i)).1 (addrs (t.udpFlows i)).2
    dsimp only
    unfold receiveUdp
    split
    · next hhome =>
      refine .inl ⟨nofun, h'.refuses fun heq => ?_⟩
      obtain ⟨hqueue, hcell⟩ := Prod.mk.inj heq
      exact hhome.elim (absurd hqueue) (absurd hcell)
    · next hhome =>
      rw [not_or, not_not, not_not] at hhome
      exact .inr ⟨rfl, i, h'.takes (Prod.ext hhome.1 hhome.2) payload⟩

/-- A flow on the queue of the datagram takes it, and so does a new one. -/
theorem takeUdp_ok (hslot : s.udpSlot k = some i)
    (hhome : (s.udpFlows i).active = true → (s.udpFlows i).home = (b.queueId, b.cellId))
    (addrs : UdpFlow → IpAddr × IpAddr) (payload : List UInt8) (now : UInt64) :
    (takeUdp k addrs payload now b s).1 = .ok := by
  rcases s.allocUdpFlow_cases b k now with ⟨hnone, -⟩ | ⟨j, t, halloc, h⟩
  · rw [hslot] at hnone
    nomatch hnone
  · have hij : j = i := some.inj (h.slot.symm.trans hslot)
    rw [hij] at h halloc
    have h' := h.withAddrs (addrs (t.udpFlows i)).1 (addrs (t.udpFlows i)).2
    have hnew : (if (s.udpFlows i).active then (s.udpFlows i).home else (b.queueId, b.cellId)) =
        (b.queueId, b.cellId) := by
      split
      · next hactive => exact hhome hactive
      · rfl
    obtain ⟨hqueue, hcell⟩ := Prod.mk.inj (h'.home.trans hnew)
    rw [takeUdp, halloc]
    dsimp only
    rw [receiveUdp, if_neg]
    rw [not_or, not_not, not_not]
    exact ⟨hqueue, hcell⟩

theorem udpBody_eq (fields : UdpFields) (payload : List UInt8) (now : UInt64) :
    udpBody fields payload now =
      takeUdp ⟨fields.dstPort, fields.srcPort, fields.dstAddress, fields.srcAddress⟩
        (fun f => (f.localAddr, f.remoteAddr)) payload now := by
  funext b s
  unfold udpBody takeUdp
  rcases s.allocUdpFlow b fields.dstPort fields.srcPort fields.dstAddress fields.srcAddress now
    with ⟨_ | i, t⟩
  · rfl
  · have hself : t.setUdpFlow i (t.udpFlows i) = t := by
      rw [setUdpFlow, update_eq_self]
    exact congrArg (fun u : Stack => u.receiveUdp i payload b) hself.symm

/-! ### The handlers -/

/-- The queue of a datagram: that of the flow it belongs to, or a choice. -/
def udpBinding (s : Stack) (flow : Option (Fin 16)) (localPort remotePort : UInt16)
    (localAddress remoteAddress : UInt32) : Option QueueBinding :=
  match flow with
  | some i => s.findBinding (s.udpFlows i).queueId
  | none => s.selectBindingForFlow localPort remotePort localAddress remoteAddress

end Stack

open Stack

/-- What the handler of a datagram answers. -/
def Call.udpStatus (s : Stack) : Call → Status
  | .udpFrame now frame => (s.processUdpFrame now frame).1
  | .udpFrameV6 now frame => (s.processUdpFrameV6 now frame).1
  | _ => .invalid

/-- **The datagram that a call brings, and the slot whose flow takes it.** -/
def Call.received (s : Stack) (c : Call) : Option (Endpoints × Fin 16) :=
  if c.udpStatus s = .ok then
    c.endpoints.bind fun e => (s.udpSlot e.key).map fun i => (e, i)
  else none

variable {s t : Stack} {c : Call} {e : Endpoints} {i : Fin 16}

/-- **Both handlers hand a valid datagram to the same body.** -/
theorem exec_of_endpoints (s : Stack) (he : c.endpoints = some e) :
    0 < c.datagram.length ∧ ∃ flow p q a b addrs payload now,
      (∀ i, flow = some i → (s.udpFlows i).active = true) ∧
      (c.udpStatus s, c.exec s) =
        s.dispatch (s.udpBinding flow p q a b) c.datagram.length
          (takeUdp e.key addrs payload now) := by
  cases c with
  | udpFrame now frame =>
    obtain ⟨fields, hparse, he⟩ := bind_eq_some_iff.mp he
    obtain ⟨hlen, hpayload, -⟩ := spec_of_parseUdp hparse
    rw [UdpFields.endpoints] at he
    split at he
    · next hports =>
      obtain rfl := some.inj he
      have hvalid : ¬(fields.srcPort = 0 ∨ fields.dstPort = 0 ∨ fields.payloadLen = 0) := by
        rw [not_or, not_or]
        exact ⟨hports.2, hports.1, hpayload⟩
      refine ⟨Nat.lt_of_lt_of_le (by decide) hlen,
        s.findUdpFlow fields.dstPort fields.srcPort fields.dstAddress fields.srcAddress,
        fields.dstPort, fields.srcPort, fields.dstAddress, fields.srcAddress,
        fun f => (f.localAddr, f.remoteAddr), slice frame (14 + ipHeaderBytes frame + 8)
          (fields.payloadLen.toNat - 8), now, fun i hi => ?_, ?_⟩
      · exact (key_of_findUdpFlow (k := ⟨_, _, _, _⟩) hi).1
      · rw [Call.udpStatus, Call.exec, processUdpFrame, if_neg (Nat.not_lt.mpr hlen), hparse]
        dsimp only
        rw [if_neg hvalid, udpBody_eq]
        rfl
    · cases he
  | udpFrameV6 now frame =>
    obtain ⟨fields, hparse, he⟩ := bind_eq_some_iff.mp he
    obtain ⟨hlen, hpayload, -, hdst, hsrc⟩ := spec_of_parseUdpV6 hparse
    rw [UdpFieldsV6.endpoints] at he
    split at he
    · next hports =>
      obtain rfl := some.inj he
      have hvalid : ¬(fields.srcPort = 0 ∨ fields.dstPort = 0 ∨ fields.payloadLen = 0) := by
        rw [not_or, not_or]
        exact ⟨hports.2, hports.1, hpayload⟩
      refine ⟨Nat.lt_of_lt_of_le (by decide) hlen,
        s.findUdpFlowV6 fields.dstPort fields.srcPort fields.dstAddr fields.srcAddr,
        fields.dstPort, fields.srcPort, fields.dstAddr.hash, fields.srcAddr.hash,
        fun _ => (fields.dstAddr, fields.srcAddr), slice frame 62 (fields.payloadLen.toNat - 8),
        now, fun i hi => ?_, ?_⟩
      · have hfound := find?_some hi
        simp only [Bool.and_eq_true] at hfound
        exact hfound.1.1.1.1
      rw [Call.udpStatus, Call.exec, processUdpFrameV6, if_neg (Nat.not_lt.mpr hlen), hparse]
      dsimp only
      unfold udpBodyV6
      rw [if_neg hvalid, hdst, hsrc]
      rfl
    · cases he
  | _ => cases he

theorem refuses_core : Refuses s.core t.core ↔ Refuses s t :=
  ⟨fun h => ⟨h.active, h.key, h.pool⟩, fun h => ⟨h.active, h.key, h.pool⟩⟩

theorem takes_core {k : UdpKey} {b : QueueBinding} :
    Takes s.core t.core k b i ↔ Takes s t k b i :=
  ⟨fun h => ⟨h.slot, h.active, h.key, h.home, h.others, h.pool, h.bindings⟩,
    fun h => ⟨h.slot, h.active, h.key, h.home, h.others, h.pool, h.bindings⟩⟩

theorem received_of_ok (hok : c.udpStatus s = .ok) (he : c.endpoints = some e)
    (hslot : s.udpSlot e.key = some i) : c.received s = some (e, i) := by
  rw [Call.received, if_pos hok, he, bind_some, hslot, map_some]

/-- **A valid datagram is refused or taken.** -/
theorem exec_datagram_cases (s : Stack) (he : c.endpoints = some e) :
    c.received s = none ∧ Refuses s (c.exec s) ∨
      ∃ b i, c.received s = some (e, i) ∧ Takes s (c.exec s) e.key b i := by
  obtain ⟨-, flow, p, q, a, a', addrs, payload, now, -, heq⟩ := exec_of_endpoints s he
  have hcases := dispatch_status_cases s (s.udpBinding flow p q a a') c.datagram.length
    (takeUdp e.key addrs payload now)
  rw [← heq] at hcases
  rcases hcases with ⟨hok, hcore⟩ | ⟨b, t, -, ht, hok, hcore⟩
  · refine .inl ⟨if_neg hok, ?_⟩
    rw [← refuses_core, hcore]
    exact ⟨fun _ => rfl, fun _ => rfl, rfl⟩
  · rcases takeUdp_cases t e.key addrs payload now b with ⟨hno, h⟩ | ⟨hyes, i, h⟩
    · refine .inl ⟨if_neg fun hyes => hno (hok.symm.trans hyes), ?_⟩
      rwa [← refuses_core, hcore, ← ht, refuses_core]
    · have htakes : Takes s (c.exec s) e.key b i := by
        rwa [← takes_core, hcore, ← ht, takes_core]
      exact .inr ⟨b, i, received_of_ok (hok.trans hyes) he htakes.slot, htakes⟩

/-! ### The other calls -/

theorem Stack.Performs.udpFlows (h : Performs c s t) (hudp : ¬c.udp = true) :
    t.udpFlows = s.udpFlows := by
  cases h with
  | served h => exact h.udpFlows hudp
  | datagram hc => exact absurd hc hudp
  | segment hc h =>
    exact (h.imp Body.udpFlows).lift
      (fun _ _ => .rfl) fun _ => rfl
  | listener => rfl
  | @rebind hc j b queueId =>
    have hudpFlows := udpFlows_of_core (s.core_rebind j b queueId)
    exact hudpFlows

/-- **Only datagrams and the expiry change UDP flows.** -/
theorem udpFlows_exec_eq (s : Stack) (hc : c.endpoints = none)
    (hexpire : ∀ now, c ≠ .expireUdpFlows now) : (c.exec s).udpFlows = s.udpFlows := by
  by_cases hudp : c.udp = true
  · cases c with
    | udpFrame now frame | udpFrameV6 now frame =>
      -- a frame that is not valid is refused before any flow is looked for
      simp only [Call.exec, processUdpFrame, processUdpFrameV6]
      split
      · rfl
      · split
        · rfl
        · next fields hparse =>
          simp only [Call.endpoints, hparse, bind_some, UdpFields.endpoints,
            UdpFieldsV6.endpoints, dite_eq_right_iff] at hc
          rw [if_pos]
          by_contra hports
          rw [not_or, not_or] at hports
          cases hc ⟨hports.2.1, hports.1⟩
    | expireUdpFlows now => exact absurd rfl (hexpire now)
    | _ => cases hudp
  · exact (performs_exec s c).udpFlows hudp

/-- **A call that brings no datagram leaves every flow as it is, or ends it.** -/
theorem udpFlows_exec (s : Stack) (hc : c.endpoints = none) (i : Fin 16) :
    (c.exec s).udpFlows i = s.udpFlows i ∨ ((c.exec s).udpFlows i).active = false := by
  by_cases hexpire : ∃ now, c = .expireUdpFlows now
  · obtain ⟨now, rfl⟩ := hexpire
    rw [Call.exec, expireUdpFlows]
    dsimp only
    split
    · exact .inr rfl
    · exact .inl rfl
  · exact .inl (congrFun (udpFlows_exec_eq s hc (not_exists.mp hexpire)) i)

end Xaios.Net
