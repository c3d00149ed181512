import Xaios.Net.Stack

/-!
# TCP

The handlers of TCP frames of both versions, and the calls that work on TCP flows:
`network_stack_tcp_send`, `network_stack_tcp_recv`, `network_stack_tcp_close_flow`,
`tcp_drain_pending` and the timers.

The two handlers share the reset, the first part of the handshake and the delivery
of a payload. They differ in what they do with an open connection: version 4 counts
acknowledgements and keeps a congestion window, version 6 also accepts segments in
`FIN_WAIT_2` and `TIME_WAIT`.

A handler reads the timer several times. The first reading is `start`; the one that
makes the initial sequence number is `later`.
-/

namespace Xaios.Net

open Foundation List

/-- The readings of the timer in one call. -/
structure Clock where
  start : UInt64
  later : UInt64

namespace Stack

variable (s : Stack)

/-! ### Connections -/

/-- The reset of a flow: it is closed and its buffers go back to the pool. -/
def resetFlow (i : Fin 16) : Stack :=
  let f := s.tcpFlows i
  { s with
    tcpFlows :=
      Function.update s.tcpFlows i { f with state := .closed, rxBuf := none, txBuf := none }
    halfOpen := if f.state = .synRecv then s.halfOpen - 1 else s.halfOpen
    pool := sockbufFree (sockbufFree s.pool f.rxBuf) f.txBuf }

/-- The first part of the handshake, a SYN that no flow matches: a new flow, set up by
`address` with what is particular to the version. -/
def openFlow (seg : Segment) (clock : Clock) (b : QueueBinding) (address : TcpFlow → TcpFlow) :
    Status × Stack :=
  if !s.hasListener seg.fields.dstPort then (.notFound, s)
  else
    match s.allocTcpFlow with
    | (none, s) => (.noMemory, s)
    | (some i, s) =>
      let id := s.takeFlowId
      let rx := id.2.takeBuf
      let tx := rx.2.takeBuf
      let localSeq := (clock.later ^^^ id.1.toUInt64).toUInt32
      let f : TcpFlow := { tx.2.tcpFlows i with
        flowId := id.1
        localPort := seg.fields.dstPort
        remotePort := seg.fields.srcPort
        queueId := b.queueId
        cellId := b.cellId
        expectedSeq := seg.fields.seq + 1
        localSeq := localSeq
        nextSendSeq := localSeq + 1
        windowSize := 4096
        pendingSynack := true
        pendingFin := false
        pendingAck := false
        closeRequested := false
        remoteMac := none
        rxBuf := rx.1
        txBuf := tx.1
        lastSeenNs := clock.start
        state := .synRecv
        retransmits := 0 }
      (.ok, tx.2.setFlow i (address f))

/-- The second part of the handshake: the flow is established and goes to the backlog of
its listener. -/
def establishFlow (i : Fin 16) (seg : Segment) (start : UInt64) (peerIp : UInt32)
    (peerAddr : IpAddr) : Stack :=
  let f := s.tcpFlows i
  let s := { s.setFlow i { f with
      state := .established
      localSeq := seg.fields.ack
      nextSendSeq := seg.fields.ack
      lastSeenNs := start } with
    halfOpen := s.halfOpen - 1 }
  s.acceptQueueEnqueue ⟨f.flowId, peerIp, peerAddr, seg.fields.srcPort, seg.fields.dstPort⟩

/-- The payload of a segment goes to the flow, if it has a receive buffer. -/
def deliver (i : Fin 16) (seg : Segment) : Stack :=
  match (s.tcpFlows i).rxBuf with
  | none => s
  | some b =>
    if seg.payload = [] then s
    else
      let r := Receiver.payload ⟨s.tcpFlows i, (s.pool b).buf⟩ seg.fields.seq seg.payload
      (s.setFlow i r.flow).setBuf b r.buf

/-- No send buffer, or nothing in it. -/
def txIdle (f : TcpFlow) : Bool := f.txBuf.all fun b => sockbufUsed (s.pool b).buf = 0

/-- When the application has closed the flow and all data has gone, a FIN is due. -/
def closeWhenIdle (i : Fin 16) : Stack :=
  let f := s.tcpFlows i
  if f.closeRequested ∧ s.txIdle f then s.setFlow i { f with pendingFin := true } else s

/-! ### Version 4 -/

/-- A segment for an open connection. -/
def openSegment (i : Fin 16) (seg : Segment) (start : UInt64) : Stack :=
  let f := { s.tcpFlows i with lastSeenNs := start }
  let s := (s.setFlow i ((f.handleFin seg start).handleFinAck seg start)).deliver i seg
  let f := { (s.tcpFlows i).handleAck seg with keepaliveLastTxNs := 0, keepaliveProbesSent := 0 }
  (s.setFlow i f).closeWhenIdle i

/-- An address with its bytes the other way round. -/
def swapBytes (a : UInt32) : UInt32 :=
  (a &&& 0xFF) <<< 24 ||| ((a >>> 8) &&& 0xFF) <<< 16 ||| ((a >>> 16) &&& 0xFF) <<< 8 |||
    ((a >>> 24) &&& 0xFF)

/-- The addresses of a new flow, and the segment size its SYN asks for. -/
def addressV4 (localAddress remoteAddress : UInt32) (seg : Segment) (f : TcpFlow) : TcpFlow :=
  let mss := (parseTcpOptions seg.options).1
  { f with
    remoteAddress := remoteAddress
    localAddress := localAddress
    peerMss := if 0 < mss ∧ mss < 1400 then mss else 1400 }

/-- The part of `network_stack_process_tcp_frame` that holds a packet. -/
def tcpBody (flow : Option (Fin 16)) (localAddress remoteAddress : UInt32) (seg : Segment)
    (clock : Clock) (b : QueueBinding) (s : Stack) : Status × Stack :=
  if seg.has flagRst then
    match flow with
    | some i => (.invalid, s.resetFlow i)
    | none => (.invalid, s)
  else
    match flow with
    | none =>
      if seg.has flagSyn then s.openFlow seg clock b (addressV4 localAddress remoteAddress seg)
      else (.invalid, s)
    | some i =>
      let state := (s.tcpFlows i).state
      if state = .synRecv ∧ seg.has flagAck then
        (.ok, s.establishFlow i seg clock.start (swapBytes remoteAddress) ⟨4, fun _ => 0⟩)
      else if state = .established ∨ state = .closeWait then
        (.ok, s.openSegment i seg clock.start)
      else (.invalid, s)

/-- `network_stack_process_tcp_frame`. -/
def processTcpFrame (clock : Clock) (frame : List UInt8) : Status × Stack :=
  if frame.length < 54 then (.invalid, s)
  else
    match parseTcp frame with
    | none => (.invalid, s)
    | some fields =>
      let remoteAddress := readU32le frame 26
      let localAddress := readU32le frame 30
      let flow := s.findFlowByPorts fields.dstPort fields.srcPort remoteAddress
      let binding := match flow with
        | some i => s.findBinding (s.tcpFlows i).queueId
        | none => s.selectBindingForFlow fields.dstPort fields.srcPort localAddress remoteAddress
      s.dispatch binding frame.length
        (tcpBody flow localAddress remoteAddress (segmentV4 frame fields) clock)

/-! ### Version 6 -/

/-- A segment for an open connection, on version 6. -/
def openSegmentV6 (i : Fin 16) (seg : Segment) (start : UInt64) : Stack :=
  let f := { s.tcpFlows i with lastSeenNs := start }
  let s := (s.setFlow i (f.handleFinV6 seg)).deliver i seg
  (s.setFlow i ((s.tcpFlows i).handleAckV6 seg)).closeWhenIdle i

/-- The part of `network_stack_process_tcp_frame_v6` that holds a packet. -/
def tcpBodyV6 (flow : Option (Fin 16)) (localAddr remoteAddr : IpAddr) (seg : Segment)
    (clock : Clock) (b : QueueBinding) (s : Stack) : Status × Stack :=
  if seg.has flagRst then
    match flow with
    | some i => (.invalid, s.resetFlow i)
    | none => (.invalid, s)
  else
    match flow with
    | none =>
      if seg.has flagSyn then
        s.openFlow seg clock b fun f => { f with remoteAddr := remoteAddr, localAddr := localAddr }
      else (.invalid, s)
    | some i =>
      let state := (s.tcpFlows i).state
      if state = .synRecv ∧ seg.has flagAck then
        (.ok, s.establishFlow i seg clock.start 0 remoteAddr)
      else if state = .established ∨ state = .closeWait ∨ state = .finWait2 ∨ state = .timeWait then
        (.ok, s.openSegmentV6 i seg clock.start)
      else (.invalid, s)

/-- `network_stack_process_tcp_frame_v6`. -/
def processTcpFrameV6 (clock : Clock) (frame : List UInt8) : Status × Stack :=
  if frame.length < 74 then (.invalid, s)
  else
    match parseTcpV6 frame with
    | none => (.invalid, s)
    | some (fields, src, dst) =>
      let flow := s.findFlowByPortsV6 fields.dstPort fields.srcPort src
      let binding := match flow with
        | some i => s.findBinding (s.tcpFlows i).queueId
        | none => s.selectBindingForFlow fields.dstPort fields.srcPort dst.hash src.hash
      s.dispatch binding frame.length (tcpBodyV6 flow dst src (segmentV6 frame fields) clock)

/-! ### Calls of the application -/

/-- `network_stack_tcp_send`: the status, and how many bytes were taken. -/
def tcpSend (flowId : UInt32) (data : List UInt8) : Status × Option ℕ × Stack :=
  match (finRange 16).find? fun i => (s.tcpFlows i).flowId == flowId &&
      ((s.tcpFlows i).state = .established || (s.tcpFlows i).state = .closeWait) with
  | none => (.notFound, none, s)
  | some i =>
    match (s.tcpFlows i).txBuf with
    | none => (.invalid, none, s)
    | some b =>
      let w := sockbufWrite (s.pool b).buf data
      (.ok, some w.1, s.setBuf b w.2)

/-- `network_stack_tcp_recv`: the bytes that were read. -/
def tcpRecv (flowId : UInt32) (bufferSize : ℕ) : List UInt8 × Stack :=
  match (finRange 16).find? fun i => (s.tcpFlows i).flowId == flowId &&
      (s.tcpFlows i).rxBuf.isSome with
  | none => ([], s)
  | some i =>
    match (s.tcpFlows i).rxBuf with
    | none => ([], s)
    | some b =>
      let r := sockbufRead (s.pool b).buf bufferSize
      (r.1, (s.setBuf b r.2).setFlow i { s.tcpFlows i with windowSize := sockbufAvailable r.2 })

/-- `network_stack_tcp_close_flow`. -/
def tcpCloseFlow (flowId : UInt32) : Status × Stack :=
  match (finRange 16).find? fun i => (s.tcpFlows i).flowId == flowId with
  | none => (.notFound, s)
  | some i => (.ok, s.setFlow i { s.tcpFlows i with closeRequested := true, pendingFin := true })

/-! ### Sending -/

/-- `tcp_drain_pending` for one slot. `resolve` is what the neighbour or the ARP cache
answers, which is asked while the peer is not known; without an answer nothing is sent. -/
def drainFlow (resolve : Fin 16 → Option (Fin 6 → UInt8))
    (r : List (Fin 16 × OutSegment) × Stack) (i : Fin 16) : List (Fin 16 × OutSegment) × Stack :=
  let f := r.2.tcpFlows i
  if f.state = .free ∨ f.state = .closed then r
  else
    match f.remoteMac.or (resolve i) with
    | none => r
    | some mac =>
      let p := Sender.drain ⟨{ f with remoteMac := some mac },
        f.txBuf.map fun b => (r.2.pool b).buf, []⟩
      let s := r.2.setFlow i p.flow
      let s := match f.txBuf, p.buf with
        | some b, some buf => s.setBuf b buf
        | _, _ => s
      (r.1 ++ p.sent.map (i, ·), s)

/-- `tcp_drain_pending`: the segments that were sent, and the stack. -/
def tcpDrainPending (resolve : Fin 16 → Option (Fin 6 → UInt8)) :
    List (Fin 16 × OutSegment) × Stack :=
  (finRange 16).foldl (drainFlow resolve) ([], s)

/-! ### Timers -/

/-- `network_stack_retransmit_tcp_flows`: how many flows, and the stack. -/
def retransmitTcpFlows (now : UInt64) : ℕ × Stack :=
  ((finRange 16).countP fun i => (s.tcpFlows i).retransmitDue now,
    { s with tcpFlows := fun i => (s.tcpFlows i).retransmit now })

/-- `network_stack_expire_tcp_flows` for one slot. -/
def expireFlow (now : UInt64) (r : ℕ × Stack) (i : Fin 16) : ℕ × Stack :=
  let f := r.2.tcpFlows i
  (r.1 + f.expireCount now, { r.2.setFlow i (f.expire now) with
    halfOpen := if (f.expireWait now).synExpired now then r.2.halfOpen - 1 else r.2.halfOpen })

/-- `network_stack_expire_tcp_flows`: what it counts, and the stack. -/
def expireTcpFlows (now : UInt64) : ℕ × Stack := (finRange 16).foldl (expireFlow now) (0, s)

end Stack

end Xaios.Net
