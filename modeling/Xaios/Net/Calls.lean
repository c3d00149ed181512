import Xaios.Net.Tcp
import Xaios.Net.Udp

/-!
# Runs of the network stack

The calls of the network interface as data, so that a run is a list of calls:
frames that arrive, calls of the application, listeners and queues, the drain and the
timers.
-/

namespace Xaios.Net

/-- The calls. A frame comes with the time at which it is processed. -/
inductive Call where
  | bindQueue (cellId queueId coreMask : UInt32)
  | releaseQueue (queueId cellId : UInt32)
  | registerListener (port : UInt16) (sockfd : UInt64)
  | unregisterListener (port : UInt16)
  | acceptConnection (port : UInt16)
  | tcpFrame (clock : Clock) (frame : List UInt8)
  | tcpFrameV6 (clock : Clock) (frame : List UInt8)
  | udpFrame (now : UInt64) (frame : List UInt8)
  | udpFrameV6 (now : UInt64) (frame : List UInt8)
  | tcpSend (flowId : UInt32) (data : List UInt8)
  | tcpRecv (flowId : UInt32) (size : ℕ)
  | tcpCloseFlow (flowId : UInt32)
  | tcpDrainPending (resolve : Fin 16 → Option (Fin 6 → UInt8))
  | retransmitTcpFlows (now : UInt64)
  | expireTcpFlows (now : UInt64)
  | expireUdpFlows (now : UInt64)

/-- What a call does to the stack. -/
def Call.exec (s : Stack) : Call → Stack
  | .bindQueue cellId queueId coreMask => (s.bindQueue cellId queueId coreMask).2
  | .releaseQueue queueId cellId => (s.releaseQueue queueId cellId).2
  | .registerListener port sockfd => s.registerListener port sockfd
  | .unregisterListener port => s.unregisterListener port
  | .acceptConnection port => (s.acceptConnection port).2
  | .tcpFrame clock frame => (s.processTcpFrame clock frame).2
  | .tcpFrameV6 clock frame => (s.processTcpFrameV6 clock frame).2
  | .udpFrame now frame => (s.processUdpFrame now frame).2
  | .udpFrameV6 now frame => (s.processUdpFrameV6 now frame).2
  | .tcpSend flowId data => (s.tcpSend flowId data).2.2
  | .tcpRecv flowId size => (s.tcpRecv flowId size).2
  | .tcpCloseFlow flowId => (s.tcpCloseFlow flowId).2
  | .tcpDrainPending resolve => (s.tcpDrainPending resolve).2
  | .retransmitTcpFlows now => (s.retransmitTcpFlows now).2
  | .expireTcpFlows now => (s.expireTcpFlows now).2
  | .expireUdpFlows now => (s.expireUdpFlows now).2

/-- A run of calls. -/
def runCalls (s : Stack) (cs : List Call) : Stack := cs.foldl Call.exec s

end Xaios.Net
