import Xaios.Net.SocketBuffer
import Xaios.Net.Wire

/-!
# TCP flows

The record of one connection, `network_tcp_flow_t`, and what the handlers do to it
on its own: the reorder buffer, the receive path, acknowledgements and timers. The
receive path works on a flow together with its receive buffer.

Counters that only statistics read (`packets_rx`, `packets_tx`) and fields that are
written and never read (`remote_seq`, `rto_retries`, `mss_parsed`, `ws_parsed`,
`peer_ws`, `our_ws`, `highest_acked`) are left out.
-/

namespace Xaios.Net

open Foundation

/-- `xaios_network_flow_state_t`. -/
inductive FlowState where
  | free
  | synRecv
  | established
  | closed
  | finWait
  | finWait2
  | closeWait
  | lastAck
  | timeWait
  deriving DecidableEq, Repr

/-- An entry of the reorder buffer `ooo_buf`. The bytes behind `len` are never read, so
the data has the length of the entry. -/
structure OooEntry where
  seq : UInt32
  inUse : Bool
  data : List UInt8

/-- `network_tcp_flow_t`. -/
structure TcpFlow where
  state : FlowState
  flowId : UInt32
  queueId : UInt32
  cellId : UInt32
  localPort : UInt16
  remotePort : UInt16
  remoteAddress : UInt32
  localAddress : UInt32
  remoteAddr : IpAddr
  localAddr : IpAddr
  localSeq : UInt32
  lastSeenNs : UInt64
  retransmits : UInt32
  rxBuf : Option (Fin 32)
  txBuf : Option (Fin 32)
  expectedSeq : UInt32
  nextSendSeq : UInt32
  windowSize : UInt16
  pendingSynack : Bool
  pendingFin : Bool
  pendingAck : Bool
  closeRequested : Bool
  remoteMac : Option (Fin 6 → UInt8)
  lastTxNs : UInt64
  rtoNs : UInt64
  inRetransmit : Bool
  ooo : Fin 4 → OooEntry
  peerMss : UInt16
  cwnd : UInt32
  ssthresh : UInt32
  dupAckCount : UInt32
  inFlight : UInt32
  keepaliveLastTxNs : UInt64
  keepaliveProbesSent : UInt32

/-- `NETWORK_TCP_MSS`. -/
def tcpMss : ℕ := 1400

/-! ### The reorder buffer -/

/-- `ooo_buffer_store`: the segment goes to the first entry that is not in use. -/
def TcpFlow.oooBufferStore (f : TcpFlow) (seq : UInt32) (data : List UInt8) (expectedSeq : UInt32) :
    TcpFlow :=
  if data = [] ∨ seq ≤ expectedSeq then f
  else
    match (List.finRange 4).find? fun i => !(f.ooo i).inUse with
    | some i => { f with ooo := Function.update f.ooo i ⟨seq, true, data.take tcpMss⟩ }
    | none => f

/-- The flow and its receive buffer. -/
structure Receiver where
  flow : TcpFlow
  buf : SocketBuffer

/-- Bytes that are in order go to the receive buffer, as far as there is room. -/
def Receiver.accept (r : Receiver) (data : List UInt8) : Receiver :=
  let w := sockbufWrite r.buf data
  { flow := { r.flow with
      expectedSeq := r.flow.expectedSeq + UInt32.ofNat w.1
      pendingAck := true
      windowSize := sockbufAvailable w.2 }
    buf := w.2 }

/-- One entry in a round of `ooo_buffer_drain`, with the flag `progress`: an entry that is
next in order is delivered and given up. -/
def Receiver.drainEntry (p : Bool × Receiver) (i : Fin 4) : Bool × Receiver :=
  let e := p.2.flow.ooo i
  if e.inUse ∧ e.seq = p.2.flow.expectedSeq then
    let r := p.2.accept e.data
    (true, { r with flow := { r.flow with
      ooo := Function.update r.flow.ooo i { e with inUse := false } } })
  else p

/-- A round over the entries: whether one was delivered, and the flow. -/
def Receiver.drainRound (r : Receiver) : Bool × Receiver :=
  (List.finRange 4).foldl Receiver.drainEntry (false, r)

/-- The loop of `ooo_buffer_drain`: rounds until one delivers nothing. -/
def Receiver.drainRounds : ℕ → Receiver → Receiver
  | 0, r => r
  | fuel + 1, r => if r.drainRound.1 then drainRounds fuel r.drainRound.2 else r.drainRound.2

/-- `ooo_buffer_drain`. A round that delivers gives up an entry, so at most four rounds do
and the fifth ends the loop. -/
def Receiver.oooBufferDrain (r : Receiver) : Receiver := r.drainRounds 5

/-! ### The receive path -/

/-- A payload that arrives for a flow with a receive buffer: in order it is delivered,
with what was waiting for it; ahead of order it is put aside. -/
def Receiver.payload (r : Receiver) (seq : UInt32) (data : List UInt8) : Receiver :=
  if seq = r.flow.expectedSeq then (r.accept data).oooBufferDrain
  else if r.flow.expectedSeq < seq then
    { r with flow := r.flow.oooBufferStore seq data r.flow.expectedSeq }
  else r

namespace TcpFlow

/-- An incoming FIN on the version 4 path. -/
def handleFin (f : TcpFlow) (seg : Segment) (start : UInt64) : TcpFlow :=
  if seg.has flagFin then
    let f := { f with expectedSeq := seg.fields.seq + 1, pendingAck := true }
    if f.state = .established then { f with state := .closeWait }
    else if f.state = .finWait2 then { f with state := .timeWait, lastSeenNs := start }
    else f
  else f

/-- An acknowledgement of the own FIN on the version 4 path. -/
def handleFinAck (f : TcpFlow) (seg : Segment) (start : UInt64) : TcpFlow :=
  if seg.has flagAck ∧ f.state = .finWait ∧ f.localSeq < seg.fields.ack then
    { f with state := .finWait2, lastSeenNs := start }
  else f

/-- The segment size of the peer, or the own one if none was negotiated. -/
def mss (f : TcpFlow) : UInt32 := if 0 < f.peerMss then f.peerMss.toUInt32 else 1400

/-- The acknowledgement of own data on the version 4 path, with congestion control. -/
def handleAck (f : TcpFlow) (seg : Segment) : TcpFlow :=
  if seg.has flagAck ∧ f.localSeq < seg.fields.ack then
    let acked := seg.fields.ack - f.localSeq
    let f := { f with
      localSeq := seg.fields.ack
      inFlight := if 0 < acked ∧ acked ≤ f.inFlight then f.inFlight - acked else 0
      dupAckCount := 0 }
    if f.cwnd < f.ssthresh then { f with cwnd := f.cwnd + f.mss }
    else { f with cwnd := f.cwnd + f.mss * f.mss / (if 0 < f.cwnd then f.cwnd else 1) }
  else if seg.has flagAck ∧ seg.fields.ack = f.localSeq then
    let f : TcpFlow := { f with dupAckCount := f.dupAckCount + 1 }
    if (3 : UInt32) ≤ f.dupAckCount ∧ (0 : UInt32) < f.inFlight ∧ !f.inRetransmit then
      let ssthresh : UInt32 := if (1 : UInt32) < f.cwnd then f.cwnd >>> 1 else 1
      { f with
        ssthresh := ssthresh
        cwnd := ssthresh + 3 * 1400
        inRetransmit := true
        inFlight := 0 }
    else f
  else f

/-- An incoming FIN on the version 6 path. -/
def handleFinV6 (f : TcpFlow) (seg : Segment) : TcpFlow :=
  if seg.has flagFin then
    let f := { f with expectedSeq := seg.fields.seq + 1, pendingAck := true }
    if f.state = .established then { f with state := .closeWait } else f
  else f

/-- The acknowledgement of own data on the version 6 path. -/
def handleAckV6 (f : TcpFlow) (seg : Segment) : TcpFlow :=
  if seg.has flagAck ∧ f.localSeq < seg.fields.ack then { f with localSeq := seg.fields.ack } else f

end TcpFlow

/-! ### The send path -/

/-- What is handed to `tcp_build_and_send_segment` and its version 6 twin, apart from the
addresses and ports of the flow. -/
structure OutSegment where
  seq : UInt32
  ack : UInt32
  flags : UInt8
  window : UInt16
  payload : List UInt8

/-- A flow with its send buffer and the segments that were sent for it. -/
structure Sender where
  flow : TcpFlow
  buf : Option SocketBuffer
  sent : List OutSegment

namespace Sender

/-- A segment for the flow as it is. -/
def send (p : Sender) (seq : UInt32) (flags : UInt8) (payload : List UInt8) : Sender :=
  { p with sent := p.sent ++ [⟨seq, p.flow.expectedSeq, flags, p.flow.windowSize, payload⟩] }

/-- No send buffer, or nothing in it. -/
def idle (p : Sender) : Bool := p.buf.all fun b => sockbufUsed b = 0

/-- The pending SYN-ACK. -/
def synack (p : Sender) : Sender :=
  if p.flow.pendingSynack then
    let p := p.send p.flow.localSeq (flagSyn ||| flagAck) []
    { p with flow := { p.flow with pendingSynack := false } }
  else p

/-- Data of the send buffer, in states that send. -/
def data (p : Sender) : Sender :=
  match p.buf with
  | none => p
  | some b =>
    if 0 < sockbufUsed b ∧ (p.flow.state = .established ∨ p.flow.state = .closeWait) then
      let r := sockbufRead b tcpMss
      let p := { p.send p.flow.nextSendSeq (flagAck ||| flagPsh) r.1 with buf := some r.2 }
      { p with flow := { p.flow with nextSendSeq := p.flow.nextSendSeq + UInt32.ofNat r.1.length } }
    else p

/-- The pending acknowledgement, when there is no data to carry it. -/
def ack (p : Sender) : Sender :=
  if p.flow.pendingAck ∧ p.idle then
    let p := p.send p.flow.nextSendSeq flagAck []
    { p with flow := { p.flow with pendingAck := false } }
  else p

/-- The pending FIN, when all data has gone. -/
def fin (p : Sender) : Sender :=
  if p.flow.pendingFin ∧ p.idle then
    let p := p.send p.flow.nextSendSeq (flagFin ||| flagAck) []
    { p with flow := { p.flow with
        pendingFin := false
        nextSendSeq := p.flow.nextSendSeq + 1
        state := if p.flow.state = .established then .finWait
          else if p.flow.state = .closeWait then .lastAck else p.flow.state } }
  else p

/-- What `tcp_drain_pending` does for one flow whose peer is resolved. -/
def drain (p : Sender) : Sender := p.synack.data.ack.fin

end Sender

/-! ### Timers -/

namespace TcpFlow

/-- Whether a time lies at least `wait` behind. -/
def elapsed (now since wait : UInt64) : Bool := since < now && wait ≤ now - since

/-- Whether the SYN-ACK of a flow is due again. -/
def retransmitDue (f : TcpFlow) (now : UInt64) : Bool :=
  f.state = .synRecv && elapsed now f.lastSeenNs 500000 && f.retransmits < 2

/-- `network_stack_retransmit_tcp_flows`, for one flow. -/
def retransmit (f : TcpFlow) (now : UInt64) : TcpFlow :=
  if f.retransmitDue now then { f with retransmits := f.retransmits + 1, lastSeenNs := now } else f

/-- Whether a flow has waited a minute for the end of the connection. -/
def waitExpired (f : TcpFlow) (now : UInt64) : Bool :=
  (f.state = .timeWait || f.state = .finWait) && elapsed now f.lastSeenNs 60000000000

/-- Whether the handshake of a flow has timed out. -/
def synExpired (f : TcpFlow) (now : UInt64) : Bool :=
  f.state = .synRecv && elapsed now f.lastSeenNs 3000000

/-- Whether the retransmission timer for data has run out. -/
def dataExpired (f : TcpFlow) (now : UInt64) : Bool :=
  (f.state = .established || f.state = .closeWait) && 0 < f.lastTxNs && 0 < f.inFlight &&
    elapsed now f.lastTxNs f.rtoNs

/-- Whether the keepalive timer has run out. -/
def keepaliveExpired (f : TcpFlow) (now : UInt64) : Bool :=
  f.state = .established && 0 < f.keepaliveLastTxNs && elapsed now f.keepaliveLastTxNs 10000000000

/-- The end of a wait: the flow is closed. -/
def expireWait (f : TcpFlow) (now : UInt64) : TcpFlow :=
  if f.waitExpired now then { f with state := .closed } else f

/-- The retransmission timer for data. -/
def expireData (f : TcpFlow) (now : UInt64) : TcpFlow :=
  if f.dataExpired now then
    { f with
      retransmits := f.retransmits + 1
      rtoNs := min (f.rtoNs * 2) 60000000000
      inRetransmit := true
      inFlight := 0
      ssthresh := if 1 < f.cwnd then f.cwnd >>> 1 else 1
      cwnd := 1400 }
  else f

/-- The keepalive timer: a probe, or after three of them the end. -/
def expireKeepalive (f : TcpFlow) (now : UInt64) : TcpFlow :=
  if f.keepaliveExpired now then
    if f.keepaliveProbesSent < 3 then
      { f with
        keepaliveProbesSent := f.keepaliveProbesSent + 1
        keepaliveLastTxNs := now
        pendingAck := true }
    else { f with state := .closed }
  else f

/-- `network_stack_expire_tcp_flows`, for one flow. -/
def expire (f : TcpFlow) (now : UInt64) : TcpFlow :=
  let f := f.expireWait now
  if f.synExpired now then { f with state := .closed } else (f.expireData now).expireKeepalive now

/-- What `network_stack_expire_tcp_flows` counts for one flow. -/
def expireCount (f : TcpFlow) (now : UInt64) : ℕ :=
  let g := f.expireWait now
  (f.waitExpired now).toNat +
    if g.synExpired now then 1
    else (g.dataExpired now).toNat +
      ((g.expireData now).keepaliveExpired now && 3 ≤ (g.expireData now).keepaliveProbesSent).toNat

end TcpFlow

end Xaios.Net
