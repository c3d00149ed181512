import Xaios.Net.Admission

/-!
# The two TCP handlers side by side

What `network_stack_process_tcp_frame` and `network_stack_process_tcp_frame_v6` do with the
same segment for the same flow, compared by the status and by the fields of the flows that
make up the state machine (`Net.Control`).

The handlers share the reset, the handshake and the delivery of a payload. They part in
three places: version 4 stores a segment size when it opens a flow and version 6 does not;
version 6 takes segments in `FIN_WAIT_2` and `TIME_WAIT` and version 4 refuses them; and
only version 4 lets an acknowledgement change the congestion variables. What is left is
`Net.Stack.Parity`, and there the handlers agree (`Net.handlers_agree_iff`).
-/

namespace Xaios.Net

open Foundation TcpFlow Stack

/-- The fields of a flow that make up the state machine. -/
structure Control where
  state : FlowState
  expectedSeq : UInt32
  localSeq : UInt32
  nextSendSeq : UInt32
  pendingSynack : Bool
  pendingFin : Bool
  pendingAck : Bool
  peerMss : UInt16
  cwnd : UInt32
  ssthresh : UInt32
  dupAckCount : UInt32
  inFlight : UInt32
  inRetransmit : Bool
  deriving DecidableEq

namespace TcpFlow

/-- What the handlers are compared by. -/
def control (f : TcpFlow) : Control where
  state := f.state
  expectedSeq := f.expectedSeq
  localSeq := f.localSeq
  nextSendSeq := f.nextSendSeq
  pendingSynack := f.pendingSynack
  pendingFin := f.pendingFin
  pendingAck := f.pendingAck
  peerMss := f.peerMss
  cwnd := f.cwnd
  ssthresh := f.ssthresh
  dupAckCount := f.dupAckCount
  inFlight := f.inFlight
  inRetransmit := f.inRetransmit

/-- An acknowledgement that leaves the congestion variables alone: one from the past, or a
new one of a flow without data under way that is out of slow start and whose window is so
large that it does not grow. -/
def AckNeutral (f : TcpFlow) (seg : Segment) : Prop :=
  seg.has flagAck = true → seg.fields.ack < f.localSeq ∨
    f.localSeq < seg.fields.ack ∧ f.ssthresh ≤ f.cwnd ∧
      f.mss * f.mss / (if 0 < f.cwnd then f.cwnd else 1) = 0 ∧ f.dupAckCount = 0 ∧ f.inFlight = 0

variable {f g : TcpFlow} {seg : Segment}

theorem mss_ne_zero (f : TcpFlow) : f.mss ≠ 0 := by
  unfold mss
  split
  · next hpos =>
    intro hzero
    have h := congrArg UInt32.toNat hzero
    rw [UInt16.toNat_toUInt32] at h
    rw [UInt16.lt_iff_toNat_lt] at hpos
    exact absurd h hpos.ne'
  · decide

theorem inFlight_acked_iff (x acked : UInt32) (hpos : 0 < acked) :
    (if 0 < acked ∧ acked ≤ x then x - acked else 0) = x ↔ x = 0 := by
  split <;> grind

/-- By how much a new acknowledgement opens the congestion window. -/
def growth (f : TcpFlow) : UInt32 :=
  if f.cwnd < f.ssthresh then f.mss else f.mss * f.mss / (if 0 < f.cwnd then f.cwnd else 1)

theorem growth_eq_zero_iff : f.growth = 0 ↔
    f.ssthresh ≤ f.cwnd ∧ f.mss * f.mss / (if 0 < f.cwnd then f.cwnd else 1) = 0 := by
  unfold growth
  split
  · next hslow =>
    refine iff_of_false f.mss_ne_zero fun h => ?_
    exact absurd hslow (UInt32.not_lt.mpr h.1)
  · next hfast => exact (and_iff_right (UInt32.not_lt.mp hfast)).symm

/-- A new acknowledgement, on version 4. -/
theorem handleAck_of_new (h : seg.has flagAck = true ∧ f.localSeq < seg.fields.ack) :
    f.handleAck seg = { f with
      localSeq := seg.fields.ack
      inFlight := if 0 < seg.fields.ack - f.localSeq ∧ seg.fields.ack - f.localSeq ≤ f.inFlight then
        f.inFlight - (seg.fields.ack - f.localSeq) else 0
      dupAckCount := 0
      cwnd := f.cwnd + f.growth } := by
  rw [handleAck, if_pos h, growth]
  dsimp only
  split <;> rfl

/-- **When an acknowledgement has the same effect in both handlers.** -/
theorem control_handleAck_iff :
    (f.handleAck seg).control = (f.handleAckV6 seg).control ↔ f.AckNeutral seg := by
  unfold AckNeutral
  by_cases hack : seg.has flagAck = true
  · simp only [hack, true_imp_iff]
    by_cases hlt : f.localSeq < seg.fields.ack
    · have hpos : 0 < seg.fields.ack - f.localSeq := by grind
      have hnot : ¬ seg.fields.ack < f.localSeq := by grind
      have hflight := inFlight_acked_iff f.inFlight _ hpos
      have hv6 : f.handleAckV6 seg = { f with localSeq := seg.fields.ack } := if_pos ⟨hack, hlt⟩
      rw [handleAck_of_new ⟨hack, hlt⟩, hv6]
      simp only [control, Control.mk.injEq, true_and, and_true, UInt32.add_eq_left,
        growth_eq_zero_iff, hflight, hnot, false_or, hlt, eq_comm (a := (0 : UInt32))]
      exact and_assoc
    · by_cases heq : seg.fields.ack = f.localSeq
      · -- a duplicate is counted
        refine iff_of_false (fun hsame => ?_) (by grind)
        have hcount := congrArg Control.dupAckCount hsame
        have hone : (f.handleAck seg).dupAckCount = f.dupAckCount + 1 := by
          rw [handleAck, if_neg fun h => hlt h.2, if_pos ⟨hack, heq⟩]
          dsimp only
          split <;> rfl
        rw [handleAckV6, if_neg fun h => hlt h.2] at hcount
        exact absurd (UInt32.add_eq_left.mp (hone.symm.trans hcount)) (by decide)
      · have hpast : seg.fields.ack < f.localSeq := by grind
        simp [handleAck, handleAckV6, hlt, heq, hpast]
  · simp [handleAck, handleAckV6, hack]

/-- What neither handler changes with an acknowledgement. -/
theorem frame_handleAck (f : TcpFlow) (seg : Segment) :
    (f.handleAck seg).closeRequested = (f.handleAckV6 seg).closeRequested ∧
      (f.handleAck seg).txBuf = (f.handleAckV6 seg).txBuf ∧
      (f.handleAck seg).pendingFin = (f.handleAckV6 seg).pendingFin := by
  unfold handleAck handleAckV6
  dsimp only
  split_ifs <;> exact ⟨rfl, rfl, rfl⟩

/-- In the states in which version 4 takes segments, the FIN is handled alike. -/
theorem handleFin_eq_handleFinV6 (seg : Segment)
    (h : f.state = .established ∨ f.state = .closeWait) (start : UInt64) :
    (f.handleFin seg start).handleFinAck seg start = f.handleFinV6 seg := by
  have hack : ∀ g : TcpFlow, g.state ≠ .finWait → g.handleFinAck seg start = g :=
    fun g hg => if_neg fun hc => hg hc.2.1
  by_cases hfin : seg.has flagFin = true
  · rcases h with h | h
    · simp [handleFin, handleFinV6, hfin, h, hack]
    · simp [handleFin, handleFinV6, hfin, h, hack]
  · have hstate : f.state ≠ .finWait := by
      rcases h with h | h <;> simp [h]
    simp [handleFin, handleFinV6, hfin, hack f hstate]

theorem ackNeutral_handleFinV6 : (f.handleFinV6 seg).AckNeutral seg ↔ f.AckNeutral seg := by
  unfold handleFinV6
  dsimp only
  split_ifs <;> exact .rfl

end TcpFlow

/-- The same status, and slot by slot the same control fields. -/
def SameControl (r r' : Status × Stack) : Prop :=
  r.1 = r'.1 ∧ ∀ i, (r.2.tcpFlows i).control = (r'.2.tcpFlows i).control

theorem SameControl.refl (r : Status × Stack) : SameControl r r := ⟨rfl, fun _ => rfl⟩

namespace Stack

variable {s t : Stack} {i : Fin 16} {x y : TcpFlow} {seg : Segment}

theorem control_setFlow_iff :
    (∀ j, ((t.setFlow i x).tcpFlows j).control = ((t.setFlow i y).tcpFlows j).control) ↔
      x.control = y.control := by
  constructor
  · intro h
    simpa using h i
  · intro h j
    rcases eq_or_ne j i with rfl | hne
    · simpa using h
    · simp only [setFlow, Function.update_of_ne hne]

theorem closeWhenIdle_setFlow (t : Stack) (i : Fin 16) (x : TcpFlow) :
    (t.setFlow i x).closeWhenIdle i =
      t.setFlow i (if x.closeRequested ∧ t.txIdle x then { x with pendingFin := true } else x) := by
  rw [closeWhenIdle, tcpFlows_setFlow_self]
  have hidle : (t.setFlow i x).txIdle x = t.txIdle x := rfl
  rw [hidle]
  split
  · simp only [setFlow, Function.update_idem]
  · rfl

/-- The last step of both handlers is the same one. -/
theorem control_closeWhenIdle_iff (hclose : x.closeRequested = y.closeRequested)
    (htx : x.txBuf = y.txBuf) (hfin : x.pendingFin = y.pendingFin) :
    (∀ j, (((t.setFlow i x).closeWhenIdle i).tcpFlows j).control =
        (((t.setFlow i y).closeWhenIdle i).tcpFlows j).control) ↔ x.control = y.control := by
  have hidle : t.txIdle x = t.txIdle y := by
    rw [txIdle, txIdle, htx]
  rw [closeWhenIdle_setFlow, closeWhenIdle_setFlow, control_setFlow_iff, ← hclose, ← hidle]
  split
  · simp only [TcpFlow.control, Control.mk.injEq, hfin, true_and]
  · exact .rfl

/-- The delivery of a payload touches the receiving side of the flow only. -/
theorem touches_deliver (s : Stack) (i : Fin 16) (seg : Segment) : ∃ e a w o,
    (s.deliver i seg).tcpFlows i = (s.tcpFlows i).withReceived e a w o := by
  unfold deliver
  split
  · exact ⟨_, _, _, _, rfl⟩
  · next b hrx =>
    split
    · exact ⟨_, _, _, _, rfl⟩
    · have hself := s.tcpFlows_setFlow_self i
        (Receiver.payload ⟨s.tcpFlows i, (s.pool b).buf⟩ seg.fields.seq seg.payload).flow
      rw [setBuf]
      rw [hself]
      exact Receiver.touches_payload ⟨s.tcpFlows i, (s.pool b).buf⟩ _ _

theorem ackNeutral_deliver :
    ((s.deliver i seg).tcpFlows i).AckNeutral seg ↔ (s.tcpFlows i).AckNeutral seg := by
  obtain ⟨e, a, w, o, heq⟩ := s.touches_deliver i seg
  rw [heq]
  exact .rfl

/-- The end of both handlers for an open connection, after the FIN and the payload. -/
theorem control_acknowledged_iff (t : Stack) (i : Fin 16) (seg : Segment) :
    (∀ j, (((t.setFlow i { (t.tcpFlows i).handleAck seg with
          keepaliveLastTxNs := 0
          keepaliveProbesSent := 0 }).closeWhenIdle i).tcpFlows j).control =
        (((t.setFlow i ((t.tcpFlows i).handleAckV6 seg)).closeWhenIdle i).tcpFlows j).control) ↔
      (t.tcpFlows i).AckNeutral seg := by
  obtain ⟨hclose, htx, hfin⟩ := (t.tcpFlows i).frame_handleAck seg
  refine (control_closeWhenIdle_iff ?_ ?_ ?_).trans control_handleAck_iff
  · exact hclose
  · exact htx
  · exact hfin

/-- **An open connection** is treated alike exactly when the acknowledgement is neutral. -/
theorem control_openSegment_iff
    (h : (s.tcpFlows i).state = .established ∨ (s.tcpFlows i).state = .closeWait)
    (start : UInt64) :
    (∀ j, ((s.openSegment i seg start).tcpFlows j).control =
        ((s.openSegmentV6 i seg start).tcpFlows j).control) ↔ (s.tcpFlows i).AckNeutral seg := by
  have hfin := handleFin_eq_handleFinV6 (f := { s.tcpFlows i with lastSeenNs := start })
    seg h start
  rw [Stack.openSegment, hfin]
  refine (control_acknowledged_iff _ i seg).trans (ackNeutral_deliver.trans ?_)
  rw [tcpFlows_setFlow_self]
  exact ackNeutral_handleFinV6

/-- A flow is opened: a listener, room for a handshake and a free slot. -/
def Opens (s : Stack) (seg : Segment) : Prop :=
  s.hasListener seg.fields.dstPort = true ∧ s.halfOpen < 8 ∧ ∃ i, (s.tcpFlows i).state = .free

/-- Whatever sets the addresses, the flow that is opened is otherwise the same, and has no
segment size yet. -/
theorem exists_openFlow {i : Fin 16} (hlisten : s.hasListener seg.fields.dstPort = true)
    (halloc : s.allocTcpFlow = (some i, t)) (clock : Clock) (b : QueueBinding) :
    ∃ (u : Stack) (f : TcpFlow), f.peerMss = 0 ∧
      ∀ address, s.openFlow seg clock b address = (.ok, u.setFlow i (address f)) := by
  have hmss : (t.takeFlowId.2.takeBuf.2.takeBuf.2.tcpFlows i).peerMss = 0 := by
    obtain ⟨-, -, rfl⟩ := state_of_allocTcpFlow halloc
    rw [takeFlowId_eq]
    exact congrArg peerMss (s.tcpFlows_setFlow_self i (s.tcpFlows i).fresh)
  refine ⟨t.takeFlowId.2.takeBuf.2.takeBuf.2, ?flow, ?size, fun address => ?opened⟩
  case opened => rw [openFlow, if_neg (by simp [hlisten]), halloc]
  case size => exact hmss

/-- **A flow that is opened** has a segment size on version 4 only. -/
theorem sameControl_openFlow_iff (clock : Clock) (b : QueueBinding)
    (localAddress remoteAddress : UInt32) (localAddr remoteAddr : IpAddr) :
    SameControl (s.openFlow seg clock b (addressV4 localAddress remoteAddress seg))
        (s.openFlow seg clock b fun f =>
          { f with remoteAddr := remoteAddr, localAddr := localAddr }) ↔
      ¬ s.Opens seg := by
  by_cases hlisten : s.hasListener seg.fields.dstPort = true
  · rcases halloc : s.allocTcpFlow with ⟨_ | i, t⟩
    · refine iff_of_true ?_ ?_
      · simp only [openFlow, hlisten, halloc]
        exact .refl _
      · rintro ⟨-, hhalf, hfree⟩
        obtain ⟨i, t', hsome⟩ := allocTcpFlow_isSome hhalf hfree
        cases (Prod.mk.inj (halloc.symm.trans hsome)).1
    · obtain ⟨hfree, hhalf, -⟩ := state_of_allocTcpFlow halloc
      obtain ⟨u, f, hmss, hopen⟩ := exists_openFlow hlisten halloc clock b
      refine iff_of_false (fun hsame => ?_) (not_not.mpr ⟨hlisten, hhalf, i, hfree⟩)
      rw [hopen, hopen] at hsame
      have hsize := congrArg Control.peerMss (control_setFlow_iff.mp hsame.2)
      have hpos : (addressV4 localAddress remoteAddress seg f).peerMss ≠ 0 := by
        unfold addressV4
        dsimp only
        split
        · next h => exact fun hzero => absurd h.1 (by rw [hzero]; decide)
        · decide
      exact hpos (hsize.trans hmss)
  · refine iff_of_true ?_ fun h => hlisten h.1
    simp only [openFlow, hlisten]
    exact .refl _

/-- A completed handshake changes the same slot in the same way. -/
theorem tcpFlows_establishFlow (s : Stack) (i : Fin 16) (seg : Segment) (start : UInt64)
    (peerIp : UInt32) (peerAddr : IpAddr) :
    (s.establishFlow i seg start peerIp peerAddr).tcpFlows =
      (s.setFlow i { s.tcpFlows i with
        state := .established
        localSeq := seg.fields.ack
        nextSendSeq := seg.fields.ack
        lastSeenNs := start }).tcpFlows := by
  obtain ⟨listeners, heq, -⟩ := s.establishFlow_eq i seg start peerIp peerAddr
  rw [heq]

/-- The segments and stacks for which the two handlers do the same. -/
def Parity (s : Stack) (flow : Option (Fin 16)) (seg : Segment) : Prop :=
  seg.has flagRst = true ∨
    match flow with
    | none => seg.has flagSyn = true → ¬ s.Opens seg
    | some i =>
      (s.tcpFlows i).state ≠ .finWait2 ∧ (s.tcpFlows i).state ≠ .timeWait ∧
        ((s.tcpFlows i).state = .established ∨ (s.tcpFlows i).state = .closeWait →
          (s.tcpFlows i).AckNeutral seg)

end Stack

/-- **When the handlers agree.** For every stack, every flow that was found or none, every
segment and all addresses, the handlers of the two versions answer the same status and
leave the same control fields in all slots if and only if the segment is in `Parity`. -/
theorem handlers_agree_iff (s : Stack) (flow : Option (Fin 16)) (seg : Segment) (clock : Clock)
    (b : QueueBinding) (localAddress remoteAddress : UInt32) (localAddr remoteAddr : IpAddr) :
    SameControl (Stack.tcpBody flow localAddress remoteAddress seg clock b s)
        (Stack.tcpBodyV6 flow localAddr remoteAddr seg clock b s) ↔ s.Parity flow seg := by
  unfold tcpBody tcpBodyV6 Parity
  by_cases hrst : seg.has flagRst = true
  · -- the reset is the same in both
    rw [if_pos hrst, if_pos hrst]
    exact iff_of_true (.refl _) (.inl hrst)
  · rw [if_neg hrst, if_neg hrst, or_iff_right hrst]
    cases flow with
    | none =>
      by_cases hsyn : seg.has flagSyn = true
      · simp only [hsyn, if_true, true_imp_iff]
        exact sameControl_openFlow_iff clock b localAddress remoteAddress localAddr remoteAddr
      · simp only [hsyn, Bool.false_eq_true, if_false, false_imp_iff, iff_true]
        exact .refl _
    | some i =>
      dsimp only
      by_cases hsyn : (s.tcpFlows i).state = .synRecv ∧ seg.has flagAck = true
      · rw [if_pos hsyn, if_pos hsyn, hsyn.1]
        refine iff_of_true ⟨rfl, fun j => ?_⟩ (by simp)
        rw [tcpFlows_establishFlow, tcpFlows_establishFlow]
      · rw [if_neg hsyn, if_neg hsyn]
        by_cases hopen : (s.tcpFlows i).state = .established ∨ (s.tcpFlows i).state = .closeWait
        · have hopen6 : (s.tcpFlows i).state = .established ∨ (s.tcpFlows i).state = .closeWait ∨
              (s.tcpFlows i).state = .finWait2 ∨ (s.tcpFlows i).state = .timeWait :=
            hopen.imp_right .inl
          have hlate : (s.tcpFlows i).state ≠ .finWait2 ∧ (s.tcpFlows i).state ≠ .timeWait := by
            rcases hopen with h | h <;> simp [h]
          rw [if_pos hopen, if_pos hopen6]
          refine (and_iff_right rfl).trans
            ((control_openSegment_iff hopen clock.start).trans ?_)
          exact ⟨fun h => ⟨hlate.1, hlate.2, fun _ => h⟩, fun h => h.2.2 hopen⟩
        · rw [if_neg hopen]
          by_cases hlate : (s.tcpFlows i).state = .finWait2 ∨ (s.tcpFlows i).state = .timeWait
          · -- version 4 refuses what version 6 takes
            rw [if_pos (.inr (.inr hlate))]
            refine iff_of_false (fun hsame => nomatch hsame.1) fun h => ?_
            exact hlate.elim h.1 h.2.1
          · rw [if_neg (by tauto)]
            refine iff_of_true (.refl _) ⟨fun h => hlate (.inl h), fun h => hlate (.inr h), ?_⟩
            exact fun h => absurd h hopen

/-- A SYN for port 80. -/
def plainSyn : Segment := ⟨⟨8080, 80, 1, 0, flagSyn⟩, [], []⟩

/-- **The same SYN opens different flows**: with the segment size of the stack itself on
version 4, and with none on version 6. -/
theorem handlers_differ_on_syn :
    let s := runCalls Stack.boot listenCalls
    let r := Stack.tcpBody none 0x0202000a 0x0f02000a plainSyn ⟨1000, 1001⟩ (s.bindings 0) s
    let r' := Stack.tcpBodyV6 none IpAddr.zero IpAddr.zero plainSyn ⟨1000, 1001⟩ (s.bindings 0) s
    r.1 = .ok ∧ r'.1 = .ok ∧ (r.2.tcpFlows 0).peerMss = 1400 ∧ (r'.2.tcpFlows 0).peerMss = 0 := by
  decide +kernel

end Xaios.Net
