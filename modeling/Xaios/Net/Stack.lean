import Xaios.Net.Flow
import Xaios.Status

/-!
# The network stack

The globals of `network_stack.c` and the functions around the flow tables: queue
bindings, queue rings, packet descriptors, listeners and the lookup of flows.

A frame occupies a packet descriptor and a place in a queue ring while it is
processed. Every handler ends by completing or dropping the packet, so this is one
function with the handler's body in the middle, `Net.Stack.dispatch`.

Statistics (the counters that only their getters read, the latency samples and the
ring counters `completed` and `drops`) are left out. `network_stack_init` gives ring
`i` the queue number `i` for good, so a ring is found by its index.
-/

namespace Xaios.Net

open Foundation Function List

/-- `network_queue_binding_t`. -/
structure QueueBinding where
  queueId : UInt32
  cellId : UInt32
  coreMask : UInt32
  inUse : Bool

/-- `network_queue_ring_t`. -/
structure QueueRing where
  rxDepth : ℕ
  txDepth : ℕ

/-- `network_packet_state_t`. -/
inductive PacketState where
  | free
  | rxOwned
  | txQueued
  | complete
  | dropped
  deriving DecidableEq, Repr

/-- `network_packet_desc_t`, as far as it is read. -/
structure PacketDesc where
  state : PacketState
  queueId : UInt32

/-- `network_udp_flow_t`. -/
structure UdpFlow where
  active : Bool
  flowId : UInt32
  queueId : UInt32
  cellId : UInt32
  localPort : UInt16
  remotePort : UInt16
  localAddress : UInt32
  remoteAddress : UInt32
  localAddr : IpAddr
  remoteAddr : IpAddr
  lastSeenNs : UInt64
  rxBuf : Option (Fin 32)

/-- `listener_accept_entry_t`. -/
structure AcceptEntry where
  flowId : UInt32
  peerIp : UInt32
  peerAddr : IpAddr
  peerPort : UInt16
  localPort : UInt16

/-- `network_listener_ex_t`. The backlog has room for `NETWORK_LISTENER_BACKLOG` entries. -/
structure Listener where
  port : UInt16
  sockfd : UInt64
  active : Bool
  backlog : List AcceptEntry

/-- The globals. -/
structure Stack where
  bindings : Fin 4 → QueueBinding
  rings : Fin 4 → QueueRing
  nextFlowId : UInt64
  packets : Fin 16 → PacketDesc
  udpFlows : Fin 16 → UdpFlow
  tcpFlows : Fin 16 → TcpFlow
  halfOpen : ℕ
  listeners : Fin 8 → Listener
  pool : Pool

/-- `XAIOS_NETWORK_QUEUE_ID_INVALID`. -/
def queueIdInvalid : UInt32 := 0xffffffff

/-- A flow of zeroed memory after `network_stack_init`. -/
def TcpFlow.init : TcpFlow where
  state := .free
  flowId := 0
  queueId := queueIdInvalid
  cellId := 0
  localPort := 0
  remotePort := 0
  remoteAddress := 0
  localAddress := 0
  remoteAddr := .zero
  localAddr := .zero
  localSeq := 0
  lastSeenNs := 0
  retransmits := 0
  rxBuf := none
  txBuf := none
  expectedSeq := 0
  nextSendSeq := 0
  windowSize := 0
  pendingSynack := false
  pendingFin := false
  pendingAck := false
  closeRequested := false
  remoteMac := none
  lastTxNs := 0
  rtoNs := 0
  inRetransmit := false
  ooo := fun _ => ⟨0, false, []⟩
  peerMss := 0
  cwnd := 0
  ssthresh := 0
  dupAckCount := 0
  inFlight := 0
  keepaliveLastTxNs := 0
  keepaliveProbesSent := 0

/-- A UDP flow of zeroed memory after `network_stack_init`. -/
def UdpFlow.init : UdpFlow where
  active := false
  flowId := 0
  queueId := queueIdInvalid
  cellId := 0
  localPort := 0
  remotePort := 0
  localAddress := 0
  remoteAddress := 0
  localAddr := .zero
  remoteAddr := .zero
  lastSeenNs := 0
  rxBuf := none

/-- The globals at boot, after `network_stack_init` and `sockbuf_pool_init`. -/
def Stack.boot : Stack where
  bindings := fun _ => ⟨queueIdInvalid, 0, 0, false⟩
  rings := fun _ => ⟨0, 0⟩
  nextFlowId := 1
  packets := fun _ => ⟨.free, queueIdInvalid⟩
  udpFlows := fun _ => UdpFlow.init
  tcpFlows := fun _ => TcpFlow.init
  halfOpen := 0
  listeners := fun _ => ⟨0, 0, false, []⟩
  pool := Pool.init

/-- The descriptors `alloc_packet_desc` may take. -/
def PacketDesc.idle (desc : PacketDesc) : Bool :=
  desc.state = .free || desc.state = .complete || desc.state = .dropped

/-- The fields `alloc_tcp_flow` sets in a slot it takes. -/
def TcpFlow.fresh (f : TcpFlow) : TcpFlow :=
  { f with
    state := .synRecv
    retransmits := 0
    rxBuf := none
    txBuf := none
    expectedSeq := 0
    nextSendSeq := 0
    windowSize := 0
    pendingSynack := false
    pendingFin := false
    pendingAck := false
    closeRequested := false
    remoteMac := none
    lastTxNs := 0
    rtoNs := 500000
    inRetransmit := false
    ooo := fun _ => ⟨0, false, []⟩
    peerMss := 0
    cwnd := 1400
    ssthresh := 16 * 1400
    dupAckCount := 0
    inFlight := 0
    keepaliveLastTxNs := 0
    keepaliveProbesSent := 0 }

namespace Stack

variable (s : Stack)

/-! ### Queues -/

/-- `find_binding`. -/
def findBinding (queueId : UInt32) : Option QueueBinding :=
  ((finRange 4).map s.bindings).find? fun b => b.inUse && b.queueId == queueId

/-- The bindings in use, in the order of the table. -/
def activeBindings : List QueueBinding := ((finRange 4).map s.bindings).filter (·.inUse)

/-- `select_binding_for_flow`: a binding in use, chosen by a hash. -/
def selectBindingForFlow (localPort remotePort : UInt16) (localAddress remoteAddress : UInt32) :
    Option QueueBinding :=
  let hash := localPort.toUInt32 ^^^ (remotePort.toUInt32 <<< 3) ^^^ localAddress ^^^
    (remoteAddress >>> 8)
  s.activeBindings[hash.toNat % s.activeBindings.length]?

/-- `find_queue_ring`. -/
def findQueueRing (queueId : UInt32) : Option (Fin 4) :=
  if h : queueId.toNat < 4 then some ⟨queueId.toNat, h⟩ else none

/-- A change of one ring. -/
def setRing (i : Fin 4) (ring : QueueRing) : Stack := { s with rings := update s.rings i ring }

/-- `queue_ring_reset`. -/
def queueRingReset (queueId : UInt32) : Stack :=
  match findQueueRing queueId with
  | some i => s.setRing i ⟨0, 0⟩
  | none => s

/-- `queue_ring_rx_enqueue`. -/
def queueRingRxEnqueue (queueId : UInt32) : Bool × Stack :=
  match findQueueRing queueId with
  | some i =>
    if 8 ≤ (s.rings i).rxDepth then (false, s)
    else (true, s.setRing i { s.rings i with rxDepth := (s.rings i).rxDepth + 1 })
  | none => (false, s)

/-- `queue_ring_rx_complete`. -/
def queueRingRxComplete (queueId : UInt32) : Stack :=
  match findQueueRing queueId with
  | some i => s.setRing i { s.rings i with rxDepth := (s.rings i).rxDepth - 1 }
  | none => s

/-- `queue_ring_tx_enqueue`. -/
def queueRingTxEnqueue (queueId : UInt32) : Bool × Stack :=
  match findQueueRing queueId with
  | some i =>
    if 8 ≤ (s.rings i).txDepth then (false, s)
    else (true, s.setRing i { s.rings i with txDepth := (s.rings i).txDepth + 1 })
  | none => (false, s)

/-- `queue_ring_tx_complete`. -/
def queueRingTxComplete (queueId : UInt32) : Stack :=
  match findQueueRing queueId with
  | some i => s.setRing i { s.rings i with txDepth := (s.rings i).txDepth - 1 }
  | none => s

/-- The binding `i` replaced, and the ring of a queue reset. -/
def rebind (i : Fin 4) (b : QueueBinding) (queueId : UInt32) : Stack :=
  { s with bindings := update s.bindings i b }.queueRingReset queueId

/-- `network_stack_bind_queue`. -/
def bindQueue (cellId queueId coreMask : UInt32) : Status × Stack :=
  if 4 ≤ queueId ∨ coreMask = 0 ∨ cellId = 0xffffffff then (.invalid, s)
  else if (s.findBinding queueId).isSome then (.busy, s)
  else
    match (finRange 4).find? fun i => !(s.bindings i).inUse with
    | some i => (.ok, s.rebind i ⟨queueId, cellId, coreMask, true⟩ queueId)
    | none => (.noMemory, s)

/-- `network_stack_release_queue`. -/
def releaseQueue (queueId cellId : UInt32) : Status × Stack :=
  match (finRange 4).find? fun i => (s.bindings i).inUse &&
      (s.bindings i).queueId == queueId && (s.bindings i).cellId == cellId with
  | some i => (.ok, s.rebind i ⟨queueIdInvalid, 0, 0, false⟩ queueId)
  | none => (.notFound, s)

/-! ### Packets -/

/-- A change of one packet descriptor. -/
def setPacket (p : Fin 16) (desc : PacketDesc) : Stack :=
  { s with packets := update s.packets p desc }

/-- `alloc_packet_desc`. -/
def allocPacketDesc (queueId : UInt32) (length : ℕ) : Option (Fin 16) × Stack :=
  if (s.findBinding queueId).isNone ∨ length = 0 ∨ 1520 < length then (none, s)
  else
    let r := s.queueRingRxEnqueue queueId
    if r.1 then
      match (finRange 16).find? fun p => (r.2.packets p).idle with
      | some p => (some p, r.2.setPacket p ⟨.rxOwned, queueId⟩)
      | none => (none, r.2.queueRingRxComplete queueId)
    else (none, r.2)

/-- `packet_mark_dropped`. -/
def packetMarkDropped (p : Fin 16) : Stack :=
  let desc := s.packets p
  match desc.state with
  | .dropped => s
  | .rxOwned => (s.queueRingRxComplete desc.queueId).setPacket p { desc with state := .dropped }
  | .txQueued => (s.queueRingTxComplete desc.queueId).setPacket p { desc with state := .dropped }
  | _ => s.setPacket p { desc with state := .dropped }

/-- `packet_mark_tx`. -/
def packetMarkTx (p : Fin 16) : Stack :=
  let desc := s.packets p
  if desc.state = .rxOwned then
    let r := s.queueRingTxEnqueue desc.queueId
    if r.1 then (r.2.queueRingRxComplete desc.queueId).setPacket p { desc with state := .txQueued }
    else r.2.packetMarkDropped p
  else s

/-- `packet_mark_complete`. -/
def packetMarkComplete (p : Fin 16) : Stack :=
  let desc := s.packets p
  if desc.state = .txQueued then
    (s.queueRingTxComplete desc.queueId).setPacket p { desc with state := .complete }
  else s

/-- The frame of the four handlers: a packet descriptor is taken on the queue of the
binding, the body runs, and the packet is completed or dropped as the body answers. -/
def dispatch (binding : Option QueueBinding) (length : ℕ)
    (body : QueueBinding → Stack → Status × Stack) : Status × Stack :=
  match binding with
  | none => (.notFound, s)
  | some b =>
    match s.allocPacketDesc b.queueId length with
    | (none, s) => (.noMemory, s)
    | (some p, s) =>
      let r := body b s
      (r.1,
        if r.1 = .ok then (r.2.packetMarkTx p).packetMarkComplete p else r.2.packetMarkDropped p)

/-! ### Listeners -/

/-- A change of one listener. -/
def setListener (i : Fin 8) (l : Listener) : Stack :=
  { s with listeners := update s.listeners i l }

/-- `find_listener_ex`. -/
def findListenerEx (port : UInt16) : Option (Fin 8) :=
  (finRange 8).find? fun i => (s.listeners i).active && (s.listeners i).port == port

/-- `network_stack_has_listener`. -/
def hasListener (port : UInt16) : Bool := (s.findListenerEx port).isSome

/-- `network_stack_register_listener`. -/
def registerListener (port : UInt16) (sockfd : UInt64) : Stack :=
  match (finRange 8).find? fun i => !(s.listeners i).active with
  | some i => s.setListener i ⟨port, sockfd, true, []⟩
  | none => s

/-- `network_stack_unregister_listener`. -/
def unregisterListener (port : UInt16) : Stack :=
  match s.findListenerEx port with
  | some i => s.setListener i { s.listeners i with active := false, backlog := [] }
  | none => s

/-- `listener_enqueue_backlog`, through `accept_queue_enqueue`. -/
def acceptQueueEnqueue (entry : AcceptEntry) : Stack :=
  match s.findListenerEx entry.localPort with
  | some i =>
    if 8 ≤ (s.listeners i).backlog.length then s
    else s.setListener i { s.listeners i with backlog := (s.listeners i).backlog ++ [entry] }
  | none => s

/-- A backlog depends on the listeners, and only they change. -/
theorem acceptQueueEnqueue_eq {t : Stack} (h : t.listeners = s.listeners) (entry : AcceptEntry) :
    t.acceptQueueEnqueue entry =
      { t with listeners := (s.acceptQueueEnqueue entry).listeners } := by
  have hfind : t.findListenerEx entry.localPort = s.findListenerEx entry.localPort := by
    rw [findListenerEx, h, findListenerEx]
  unfold acceptQueueEnqueue
  rw [hfind, h]
  split
  · split
    · rw [← h]
    · rw [setListener, h]
      rfl
  · rw [← h]

/-- `network_stack_accept_connection`: the oldest entry of the backlog. -/
def acceptConnection (listenPort : UInt16) : Option AcceptEntry × Stack :=
  match s.findListenerEx listenPort with
  | none => (none, s)
  | some i =>
    match (s.listeners i).backlog with
    | [] => (none, s)
    | entry :: rest => (some entry, s.setListener i { s.listeners i with backlog := rest })

/-! ### Flows and their buffers -/

/-- A change of one TCP flow. -/
def setFlow (i : Fin 16) (f : TcpFlow) : Stack := { s with tcpFlows := update s.tcpFlows i f }

@[simp] theorem tcpFlows_setFlow_self (i : Fin 16) (f : TcpFlow) :
    (s.setFlow i f).tcpFlows i = f := by
  simp only [setFlow, update_self]

/-- A field that a change of one flow keeps is the same in every slot. -/
theorem field_setFlow {γ : Type} (field : TcpFlow → γ) {j : Fin 16} {f : TcpFlow}
    (h : field f = field (s.tcpFlows j)) (i : Fin 16) :
    field ((s.setFlow j f).tcpFlows i) = field (s.tcpFlows i) := by
  rcases eq_or_ne i j with rfl | hne
  · rw [tcpFlows_setFlow_self, h]
  · simp only [setFlow, update_of_ne hne]

/-- `find_flow_by_ports`. -/
def findFlowByPorts (localPort remotePort : UInt16) (remoteAddress : UInt32) : Option (Fin 16) :=
  (finRange 16).find? fun i =>
    (s.tcpFlows i).state != .free && (s.tcpFlows i).localPort == localPort &&
      (s.tcpFlows i).remotePort == remotePort && (s.tcpFlows i).remoteAddress == remoteAddress

/-- `find_flow_by_ports_v6`. -/
def findFlowByPortsV6 (localPort remotePort : UInt16) (remoteAddr : IpAddr) : Option (Fin 16) :=
  (finRange 16).find? fun i =>
    (s.tcpFlows i).state != .free && (s.tcpFlows i).localPort == localPort &&
      (s.tcpFlows i).remotePort == remotePort && (s.tcpFlows i).remoteAddr.equal remoteAddr

/-- `find_udp_flow`. -/
def findUdpFlow (localPort remotePort : UInt16) (localAddress remoteAddress : UInt32) :
    Option (Fin 16) :=
  (finRange 16).find? fun i =>
    (s.udpFlows i).active && (s.udpFlows i).localPort == localPort &&
      (s.udpFlows i).remotePort == remotePort && (s.udpFlows i).localAddress == localAddress &&
      (s.udpFlows i).remoteAddress == remoteAddress

/-- `find_udp_flow_v6`. -/
def findUdpFlowV6 (localPort remotePort : UInt16) (localAddr remoteAddr : IpAddr) :
    Option (Fin 16) :=
  (finRange 16).find? fun i =>
    (s.udpFlows i).active && (s.udpFlows i).localPort == localPort &&
      (s.udpFlows i).remotePort == remotePort && (s.udpFlows i).localAddr.equal localAddr &&
      (s.udpFlows i).remoteAddr.equal remoteAddr

/-- A buffer of the pool replaced. -/
def setBuf (b : Fin 32) (buf : SocketBuffer) : Stack :=
  { s with pool := update s.pool b { s.pool b with buf := buf } }

/-- `sockbuf_alloc`. -/
def takeBuf : Option (Fin 32) × Stack :=
  let r := sockbufAlloc s.pool
  (r.1, { s with pool := r.2 })

/-- `g_next_flow_id++` and the check for zero: the number of a new flow. -/
def takeFlowId : UInt32 × Stack :=
  let id := s.nextFlowId.toUInt32
  if id = 0 then (1, { s with nextFlowId := 2 })
  else (id, { s with nextFlowId := s.nextFlowId + 1 })

/-- `alloc_tcp_flow`: the first free slot, unless too many handshakes are open. -/
def allocTcpFlow : Option (Fin 16) × Stack :=
  if 8 ≤ s.halfOpen then (none, s)
  else
    match (finRange 16).find? fun i => (s.tcpFlows i).state = .free with
    | some i => (some i, { s.setFlow i (s.tcpFlows i).fresh with halfOpen := s.halfOpen + 1 })
    | none => (none, s)

end Stack

end Xaios.Net
