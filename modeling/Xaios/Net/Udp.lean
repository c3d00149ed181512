import Xaios.Net.Stack

/-!
# UDP

The handlers of UDP frames of both versions and the expiry of UDP flows. A flow is
made by the first datagram of its ports and addresses.

The version 6 handler makes its flows with `alloc_udp_flow`, which looks for a flow
and sets up a new one by the version 4 addresses. These are zero for a frame of
version 6. The version 6 addresses are put into the flow afterwards.
-/

namespace Xaios.Net

open Foundation

namespace Stack

variable (s : Stack)

/-- A change of one UDP flow. -/
def setUdpFlow (i : Fin 16) (f : UdpFlow) : Stack :=
  { s with udpFlows := Function.update s.udpFlows i f }

/-- `alloc_udp_flow`: the flow of the ports and addresses, or a new one. -/
def allocUdpFlow (b : QueueBinding) (localPort remotePort : UInt16)
    (localAddress remoteAddress : UInt32) (now : UInt64) : Option (Fin 16) × Stack :=
  match s.findUdpFlow localPort remotePort localAddress remoteAddress with
  | some i => (some i, s.setUdpFlow i { s.udpFlows i with lastSeenNs := now })
  | none =>
    match (List.finRange 16).find? fun i => !(s.udpFlows i).active with
    | none => (none, s)
    | some i =>
      let id := s.takeFlowId
      let rx := id.2.takeBuf
      (some i, rx.2.setUdpFlow i { rx.2.udpFlows i with
        active := true
        flowId := id.1
        queueId := b.queueId
        cellId := b.cellId
        localPort := localPort
        remotePort := remotePort
        localAddress := localAddress
        remoteAddress := remoteAddress
        rxBuf := rx.1
        lastSeenNs := now })

/-- The payload of a datagram goes to the flow, if it has a receive buffer. -/
def deliverUdp (i : Fin 16) (payload : List UInt8) : Stack :=
  match (s.udpFlows i).rxBuf with
  | none => s
  | some b =>
    if payload = [] then s else s.setBuf b (sockbufWrite (s.pool b).buf payload).2

/-- What both handlers do once they have the flow: a flow on another queue or cell is
refused. -/
def receiveUdp (i : Fin 16) (payload : List UInt8) (b : QueueBinding) : Status × Stack :=
  if (s.udpFlows i).queueId ≠ b.queueId ∨ (s.udpFlows i).cellId ≠ b.cellId then (.busy, s)
  else (.ok, s.deliverUdp i payload)

/-- The part of `network_stack_process_udp_frame` that holds a packet. -/
def udpBody (fields : UdpFields) (payload : List UInt8) (now : UInt64) (b : QueueBinding)
    (s : Stack) : Status × Stack :=
  match s.allocUdpFlow b fields.dstPort fields.srcPort fields.dstAddress fields.srcAddress now with
  | (none, s) => (.noMemory, s)
  | (some i, s) => s.receiveUdp i payload b

/-- `network_stack_process_udp_frame`. -/
def processUdpFrame (now : UInt64) (frame : List UInt8) : Status × Stack :=
  if frame.length < 34 then (.invalid, s)
  else
    match parseUdp frame with
    | none => (.invalid, s)
    | some fields =>
      if fields.srcPort = 0 ∨ fields.dstPort = 0 ∨ fields.payloadLen = 0 then (.invalid, s)
      else
        let binding :=
          match s.findUdpFlow fields.dstPort fields.srcPort fields.dstAddress fields.srcAddress with
          | some i => s.findBinding (s.udpFlows i).queueId
          | none => s.selectBindingForFlow fields.dstPort fields.srcPort fields.dstAddress
              fields.srcAddress
        let payload := slice frame (14 + ipHeaderBytes frame + 8) (fields.payloadLen.toNat - 8)
        s.dispatch binding frame.length (udpBody fields payload now)

/-- The part of `network_stack_process_udp_frame_v6` that holds a packet. -/
def udpBodyV6 (fields : UdpFieldsV6) (payload : List UInt8) (now : UInt64) (b : QueueBinding)
    (s : Stack) : Status × Stack :=
  match s.allocUdpFlow b fields.dstPort fields.srcPort fields.dstAddr.toIpv4 fields.srcAddr.toIpv4
      now with
  | (none, s) => (.noMemory, s)
  | (some i, s) =>
    let s := s.setUdpFlow i { s.udpFlows i with
      localAddr := fields.dstAddr
      remoteAddr := fields.srcAddr }
    s.receiveUdp i payload b

/-- `network_stack_process_udp_frame_v6`. -/
def processUdpFrameV6 (now : UInt64) (frame : List UInt8) : Status × Stack :=
  if frame.length < 62 then (.invalid, s)
  else
    match parseUdpV6 frame with
    | none => (.invalid, s)
    | some fields =>
      if fields.srcPort = 0 ∨ fields.dstPort = 0 ∨ fields.payloadLen = 0 then (.invalid, s)
      else
        let binding :=
          match s.findUdpFlowV6 fields.dstPort fields.srcPort fields.dstAddr fields.srcAddr with
          | some i => s.findBinding (s.udpFlows i).queueId
          | none => s.selectBindingForFlow fields.dstPort fields.srcPort fields.dstAddr.hash
              fields.srcAddr.hash
        let payload := slice frame 62 (fields.payloadLen.toNat - 8)
        s.dispatch binding frame.length (udpBodyV6 fields payload now)

/-- A flow that was idle for too long. -/
def udpExpired (now : UInt64) (i : Fin 16) : Bool :=
  (s.udpFlows i).active && TcpFlow.elapsed now (s.udpFlows i).lastSeenNs 2000000

/-- `network_stack_expire_udp_flows`: how many flows, and the stack. -/
def expireUdpFlows (now : UInt64) : ℕ × Stack :=
  ((List.finRange 16).countP (s.udpExpired now), { s with
    udpFlows := fun i =>
      if s.udpExpired now i then { s.udpFlows i with active := false } else s.udpFlows i })

end Stack

end Xaios.Net
