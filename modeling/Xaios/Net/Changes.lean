import Xaios.Foundation.Loop
import Xaios.Net.Calls
import Xaios.Net.Queues
import Xaios.Net.Transitions

/-!
# What a call can do

The elementary changes of the tables (`Net.Stack.Change`): a flow continues, a slot
is opened, a handshake is completed, a flow is reset or timed out, a buffer or a listener
changes. Every call is a sequence of such changes, apart from what it does to the queues
(`Net.Stack.steps_exec`), so an invariant of the tables has to be checked for the
changes only (`Net.Stack.Steps.induct`).

Some of the changes end something: the handshake of a flow, a connection that is reset or
whose timer runs out, and a UDP flow that was idle. Which of them a call makes is known from its
arguments and the stack before it (`Net.Call.Ends`).
-/

namespace Xaios.Net

open Function List TcpFlow

/-- The changes that end something, with the flow before them. -/
inductive Ending where
  /-- The handshake of a flow is completed. -/
  | handshake (f : TcpFlow)
  /-- A reset closes a flow. -/
  | reset (f : TcpFlow)
  /-- A timer closes a flow. -/
  | timeout (f : TcpFlow)
  /-- A UDP flow was idle for too long. -/
  | idle (f : UdpFlow)

namespace Stack

/-- **The elementary changes of the tables.** The changes that end something are those
that `P` allows. -/
inductive Change (P : Ending → Prop) : Stack → Stack → Prop where
  /-- Bytes are written to a buffer or read from it. -/
  | buf (s : Stack) (b : Fin 32) (buf : SocketBuffer) : Change P s (s.setBuf b buf)
  /-- A listener is opened or closed, or a connection is taken from its backlog. -/
  | listener (s : Stack) (j : Fin 8) (l : Listener) (h : l.backlog ⊆ (s.listeners j).backlog) :
      Change P s (s.setListener j l)
  /-- A flow number is taken. -/
  | number (s : Stack) (n : UInt64) : Change P s { s with nextFlowId := n }
  /-- A datagram arrives for a UDP flow. -/
  | udp (s : Stack) (i : Fin 16) (f : UdpFlow) (ha : f.active = (s.udpFlows i).active)
      (hr : f.rxBuf = (s.udpFlows i).rxBuf) : Change P s (s.setUdpFlow i f)
  /-- A UDP flow is made, with a new buffer. -/
  | openUdp (s : Stack) (i : Fin 16) (f : UdpFlow) (hi : (s.udpFlows i).active = false)
      (ha : f.active = true) (hr : f.rxBuf = s.takeBuf.1) :
      Change P s (s.takeBuf.2.setUdpFlow i f)
  /-- UDP flows are given up. -/
  | idleUdp (s : Stack) (now : UInt64)
      (hp : ∀ i, s.udpExpired now i = true → P (.idle (s.udpFlows i))) :
      Change P s (s.expireUdpFlows now).2
  /-- A connection continues. -/
  | flow (s : Stack) (i : Fin 16) (f : TcpFlow) (h : (s.tcpFlows i).Continues f) :
      Change P s (s.setFlow i f)
  /-- SYN-ACKs are due again. -/
  | retransmit (s : Stack) (now : UInt64) : Change P s (s.retransmitTcpFlows now).2
  /-- A SYN takes a free slot and two new buffers. -/
  | openTcp (s : Stack) (i : Fin 16) (f : TcpFlow) (hi : (s.tcpFlows i).state = .free)
      (hf : f.state = .synRecv) (hr : f.rxBuf = s.takeBuf.1)
      (ht : f.txBuf = s.takeBuf.2.takeBuf.1) :
      Change P s { s.takeBuf.2.takeBuf.2.setFlow i f with halfOpen := s.halfOpen + 1 }
  /-- The handshake is completed, and the flow goes to the backlog of a listener. -/
  | establish (s : Stack) (i : Fin 16) (f : TcpFlow) (listeners : Fin 8 → Listener)
      (hi : (s.tcpFlows i).state = .synRecv) (hf : f.state = .established)
      (he : f.endpoint = (s.tcpFlows i).endpoint)
      (hl : ∀ j, ∀ e ∈ (listeners j).backlog,
        e ∈ (s.listeners j).backlog ∨ e.flowId = (s.tcpFlows i).flowId)
      (hp : P (.handshake (s.tcpFlows i))) :
      Change P s { s.setFlow i f with halfOpen := s.halfOpen - 1, listeners := listeners }
  /-- A reset closes a flow and gives its buffers back. -/
  | reset (s : Stack) (i : Fin 16) (hi : (s.tcpFlows i).state ≠ .free)
      (hp : P (.reset (s.tcpFlows i))) : Change P s (s.resetFlow i)
  /-- A timer closes a flow. -/
  | timeout (s : Stack) (i : Fin 16) (f : TcpFlow) (hi : (s.tcpFlows i).state ≠ .free)
      (hi' : (s.tcpFlows i).state ≠ .closed) (hf : f.state = .closed)
      (he : f.endpoint = (s.tcpFlows i).endpoint) (hp : P (.timeout (s.tcpFlows i))) :
      Change P s { s.setFlow i f with
        halfOpen := if (s.tcpFlows i).state = .synRecv then s.halfOpen - 1 else s.halfOpen }

/-- Some changes, one after the other. -/
abbrev Changes (P : Ending → Prop) (s t : Stack) : Prop := Relation.ReflTransGen (Change P) s t

variable {P : Ending → Prop} {D : Prop} {s t u : Stack} {i : Fin 16} {f : TcpFlow}

/-! ### What is done for the flows that exist -/

/-- Queues and listeners stay, and outside a set of slots no flow changes its state. -/
structure Confined (K : Set (Fin 16)) (s t : Stack) : Prop where
  bindings : t.bindings = s.bindings
  listeners : t.listeners = s.listeners
  state : ∀ k, k ∉ K → (t.tcpFlows k).state = (s.tcpFlows k).state

/-- The slots that are taken. -/
def taken (s : Stack) : Set (Fin 16) := {k | (s.tcpFlows k).state ≠ .free}

theorem Confined.refl (s : Stack) : Confined s.taken s s := ⟨rfl, rfl, fun _ _ => rfl⟩

theorem Confined.trans (h : Confined s.taken s t) (h' : Confined t.taken t u) :
    Confined s.taken s u where
  bindings := h'.bindings.trans h.bindings
  listeners := h'.listeners.trans h.listeners
  state k hk := by
    have hstate := h.state k hk
    refine (h'.state k ?_).trans hstate
    rwa [taken, Set.mem_ofPred_eq, hstate]

/-- **A change for the flows that exist**: it leaves the queues, the listeners and the free
slots alone, and the UDP flows unless they are allowed for. -/
structure Serves (P : Ending → Prop) (D : Prop) (s t : Stack) : Prop where
  change : Change P s t
  confined : Confined s.taken s t
  udpFlows : ¬D → t.udpFlows = s.udpFlows

/-- Some such changes, one after the other. -/
abbrev Served (P : Ending → Prop) (D : Prop) (s t : Stack) : Prop :=
  Relation.ReflTransGen (Serves P D) s t

theorem Serves.buf (s : Stack) (b : Fin 32) (buf : SocketBuffer) : Serves P D s (s.setBuf b buf) :=
  ⟨.buf s b buf, ⟨rfl, rfl, fun _ _ => rfl⟩, fun _ => rfl⟩

/-- A change of a slot that stays free if it is. -/
theorem Serves.of_update (h : Change P s t) (ht : t.tcpFlows = update s.tcpFlows i f)
    (hb : t.bindings = s.bindings) (hl : t.listeners = s.listeners) (hu : t.udpFlows = s.udpFlows)
    (hf : (s.tcpFlows i).state = .free → f.state = .free) : Serves P D s t := by
  refine ⟨h, ⟨hb, hl, fun k hk => ?_⟩, fun _ => hu⟩
  rw [ht]
  rcases eq_or_ne k i with rfl | hne
  · have hfree : (s.tcpFlows k).state = .free := not_not.mp hk
    rw [update_self, hf hfree, hfree]
  · rw [update_of_ne hne]

theorem Serves.flow (h : (s.tcpFlows i).Continues f) : Serves P D s (s.setFlow i f) := by
  refine .of_update (.flow s i f h) rfl rfl rfl rfl fun hfree => ?_
  rcases h.state.eq_or_open with heq | ⟨hopen, -⟩
  · exact heq.trans hfree
  · exact absurd hfree hopen.1

/-- A change of the UDP flows, the buffers and the next number. -/
theorem Serves.udp (hD : D) (h : Change P s t) (ht : t.tcpFlows = s.tcpFlows)
    (hb : t.bindings = s.bindings) (hl : t.listeners = s.listeners) : Serves P D s t :=
  ⟨h, ⟨hb, hl, fun k _ => by rw [ht]⟩, absurd hD⟩

theorem Served.changes (h : Served P D s t) : Changes P s t :=
  Relation.ReflTransGen.mono (fun _ _ h => h.change) _ _ h

theorem Served.confined (h : Served P D s t) : Confined s.taken s t := by
  induction h with
  | refl => exact .refl s
  | tail _ hstep ih => exact ih.trans hstep.confined

theorem Served.udpFlows (h : Served P D s t) (hD : ¬D) : t.udpFlows = s.udpFlows := by
  induction h with
  | refl => rfl
  | tail _ hstep ih => exact (hstep.udpFlows hD).trans ih

/-! ### Flow numbers and slots -/

theorem takeFlowId_eq : s.takeFlowId.2 = { s with nextFlowId := s.takeFlowId.2.nextFlowId } := by
  unfold takeFlowId
  dsimp only
  split <;> rfl

theorem state_of_allocTcpFlow (h : s.allocTcpFlow = (some i, t)) :
    (s.tcpFlows i).state = .free ∧ s.halfOpen < 8 ∧
      t = { s.setFlow i (s.tcpFlows i).fresh with halfOpen := s.halfOpen + 1 } := by
  unfold allocTcpFlow at h
  split at h
  · nomatch h
  · next hhalf =>
    split at h
    · next j hfind =>
      obtain ⟨hij, ht⟩ := Prod.mk.inj h
      obtain rfl := Option.some.inj hij
      have hfree := find?_some hfind
      exact ⟨of_decide_eq_true hfree, Nat.lt_of_not_le hhalf, ht.symm⟩
    · nomatch h

theorem allocTcpFlow_none (h : s.allocTcpFlow = (none, t)) : t = s := by
  unfold allocTcpFlow at h
  split at h
  · exact (Prod.mk.inj h).2.symm
  · split at h
    · nomatch h
    · exact (Prod.mk.inj h).2.symm

theorem allocTcpFlow_isSome (hhalf : s.halfOpen < 8) (h : ∃ i, (s.tcpFlows i).state = .free) :
    ∃ i t, s.allocTcpFlow = (some i, t) := by
  obtain ⟨i, hi⟩ := h
  have hsome :
      ((finRange 16).find? fun i => decide ((s.tcpFlows i).state = .free)).isSome := by
    rw [find?_isSome]
    exact ⟨i, mem_finRange i, decide_eq_true hi⟩
  obtain ⟨j, hj⟩ := Option.isSome_iff_exists.mp hsome
  refine ⟨j, { s.setFlow j (s.tcpFlows j).fresh with halfOpen := s.halfOpen + 1 }, ?_⟩
  rw [allocTcpFlow, if_neg (Nat.not_le.mpr hhalf), hj]

/-- A slot that was taken, given a number and filled in. -/
theorem openSlot_eq (n : UInt64) (g : TcpFlow) :
    ({ ({ s.setFlow i (s.tcpFlows i).fresh with halfOpen := s.halfOpen + 1 } : Stack) with
        nextFlowId := n } : Stack).takeBuf.2.takeBuf.2.setFlow i g =
      { ({ s with nextFlowId := n } : Stack).takeBuf.2.takeBuf.2.setFlow i g with
        halfOpen := s.halfOpen + 1 } := by
  simp only [setFlow, takeBuf, update_idem]

/-! ### TCP frames -/

/-- A completed handshake puts at most the flow itself into a backlog. -/
theorem backlog_acceptQueueEnqueue (entry : AcceptEntry) :
    ∃ listeners, s.acceptQueueEnqueue entry = { s with listeners := listeners } ∧
      ∀ j, ∀ e ∈ (listeners j).backlog, e ∈ (s.listeners j).backlog ∨ e.flowId = entry.flowId := by
  unfold acceptQueueEnqueue
  split
  · next k hk =>
    split
    · exact ⟨s.listeners, rfl, fun j e he => .inl he⟩
    · refine ⟨_, rfl, fun j e he => ?_⟩
      rcases eq_or_ne j k with rfl | hne
      · rw [update_self, mem_append, mem_singleton] at he
        exact he.imp_right (congrArg AcceptEntry.flowId)
      · rw [update_of_ne hne] at he
        exact .inl he
  · exact ⟨s.listeners, rfl, fun j e he => .inl he⟩

variable (s i) in
/-- **What completes a handshake** establishes the flow, which goes to a backlog or nowhere. -/
theorem establishFlow_eq (seg : Segment) (start : UInt64) (peerIp : UInt32) (peerAddr : IpAddr) :
    ∃ listeners, s.establishFlow i seg start peerIp peerAddr =
        { s.setFlow i { s.tcpFlows i with
            state := .established
            localSeq := seg.fields.ack
            nextSendSeq := seg.fields.ack
            lastSeenNs := start } with
          halfOpen := s.halfOpen - 1, listeners := listeners } ∧
      ∀ j, ∀ e ∈ (listeners j).backlog,
        e ∈ (s.listeners j).backlog ∨ e.flowId = (s.tcpFlows i).flowId :=
  backlog_acceptQueueEnqueue _

theorem served_deliver (hi : (s.tcpFlows i).state.Open) (seg : Segment) :
    Served P D s (s.deliver i seg) := by
  unfold deliver
  split
  · exact .refl
  · next b hb =>
    split
    · exact .refl
    · have hkeeps := Receiver.keeps_payload ⟨s.tcpFlows i, (s.pool b).buf⟩ seg.fields.seq
        seg.payload
      exact .head (.flow (.of_open hi hkeeps.endpoint (.of_eq hkeeps.state)))
        (.single (.buf _ _ _))

theorem state_deliver (seg : Segment) :
    ((s.deliver i seg).tcpFlows i).state = (s.tcpFlows i).state := by
  unfold deliver
  split
  · rfl
  · next b hb =>
    split
    · rfl
    · have hself := s.tcpFlows_setFlow_self i
        (Receiver.payload ⟨s.tcpFlows i, (s.pool b).buf⟩ seg.fields.seq seg.payload).flow
      exact (congrArg state hself).trans (Receiver.keeps_payload _ _ _).state

theorem served_closeWhenIdle (i : Fin 16) : Served P D s (s.closeWhenIdle i) := by
  unfold closeWhenIdle
  dsimp only
  split
  · exact .single (.flow ⟨rfl, .refl _, fun _ => rfl⟩)
  · exact .refl

/-- The common shape of a segment for an open connection: the flow is changed, the payload
is delivered, the flow is changed again, and a FIN may become due. -/
theorem served_segment (seg : Segment) {g h : TcpFlow} (hi : (s.tcpFlows i).state.Open)
    (hg : (s.tcpFlows i).Continues g)
    (hh : (((s.setFlow i g).deliver i seg).tcpFlows i).state.Open →
      (((s.setFlow i g).deliver i seg).tcpFlows i).Continues h) :
    Served P D s ((((s.setFlow i g).deliver i seg).setFlow i h).closeWhenIdle i) := by
  have hopen : ((s.setFlow i g).tcpFlows i).state.Open := by
    rw [tcpFlows_setFlow_self]
    exact hg.state.isOpen hi
  have hopen' : (((s.setFlow i g).deliver i seg).tcpFlows i).state.Open := by
    rw [state_deliver]
    exact hopen
  refine .head (.flow hg) ((served_deliver hopen seg).trans ?_)
  exact .head (.flow (hh hopen')) (served_closeWhenIdle i)

theorem served_openSegment
    (hi : (s.tcpFlows i).state = .established ∨ (s.tcpFlows i).state = .closeWait) (seg : Segment)
    (start : UInt64) : Served P D s (s.openSegment i seg start) := by
  have hopen : (s.tcpFlows i).state.Open := by
    rcases hi with hstate | hstate <;> rw [hstate] <;> decide
  refine served_segment seg hopen ?_ fun hopen => ?_
  · have hstart : (s.tcpFlows i).Continues { s.tcpFlows i with lastSeenNs := start } :=
      ⟨rfl, .refl _, fun _ => rfl⟩
    exact hstart.trans (continues_handleFin _ seg start hi)
  · have hack := continues_handleAck _ seg hopen
    exact ⟨hack.endpoint, hack.state, hack.localSeq⟩

theorem served_openSegmentV6 (hi : (s.tcpFlows i).state.Open) (seg : Segment) (start : UInt64) :
    Served P D s (s.openSegmentV6 i seg start) := by
  refine served_segment seg hi ?_ fun hopen => continues_handleAckV6 _ seg hopen
  have hstart : (s.tcpFlows i).Continues { s.tcpFlows i with lastSeenNs := start } :=
    ⟨rfl, .refl _, fun _ => rfl⟩
  exact hstart.trans (continues_handleFinV6 _ seg)

/-- **What a segment does**: it is refused or served, a free slot is taken for a binding, a
handshake is completed, or a flow is reset. -/
inductive Body (P : Ending → Prop) (s : Stack) : Stack → Prop where
  | served {t : Stack} (h : Served P False s t) : Body P s t
  | opens (i : Fin 16) (f : TcpFlow) (n : UInt64) (hi : (s.tcpFlows i).state = .free)
      (hf : f.state = .synRecv) (hr : f.rxBuf = s.takeBuf.1) (ht : f.txBuf = s.takeBuf.2.takeBuf.1)
      (hb : ∃ j, (s.bindings j).inUse = true ∧ f.queueId = (s.bindings j).queueId ∧
        f.cellId = (s.bindings j).cellId) :
      Body P s { ({ s with nextFlowId := n } : Stack).takeBuf.2.takeBuf.2.setFlow i f with
        halfOpen := s.halfOpen + 1 }
  | completes (i : Fin 16) (seg : Segment) (start : UInt64) (peerIp : UInt32) (peerAddr : IpAddr)
      (hi : (s.tcpFlows i).state = .synRecv) (hp : P (.handshake (s.tcpFlows i))) :
      Body P s (s.establishFlow i seg start peerIp peerAddr)
  | resets (i : Fin 16) (hi : (s.tcpFlows i).state ≠ .free) (hp : P (.reset (s.tcpFlows i))) :
      Body P s (s.resetFlow i)

theorem Body.changes (h : Body P s t) : Changes P s t := by
  cases h with
  | served h => exact h.changes
  | opens i f n hi hf hr ht hb =>
    exact .head (.number s n) (.single (.openTcp { s with nextFlowId := n } i f hi hf hr ht))
  | completes i seg start peerIp peerAddr hi hp =>
    obtain ⟨listeners, heq, hl⟩ := s.establishFlow_eq i seg start peerIp peerAddr
    rw [heq]
    exact .single (.establish s i _ listeners hi rfl rfl hl hp)
  | resets i hi hp => exact .single (.reset s i hi hp)

theorem Body.udpFlows (h : Body P s t) : t.udpFlows = s.udpFlows := by
  cases h with
  | served h => exact h.udpFlows id
  | completes i seg start peerIp peerAddr hi hp =>
    obtain ⟨listeners, heq, -⟩ := s.establishFlow_eq i seg start peerIp peerAddr
    rw [heq]
    rfl
  | opens | resets => rfl

theorem body_openFlow (seg : Segment) (clock : Clock) {b : QueueBinding}
    (hb : ∃ j, s.bindings j = b ∧ b.inUse = true) {address : TcpFlow → TcpFlow}
    (ha : ∀ f, (address f).state = f.state ∧ (address f).rxBuf = f.rxBuf ∧
      (address f).txBuf = f.txBuf ∧ (address f).queueId = f.queueId ∧
      (address f).cellId = f.cellId) : Body P s (s.openFlow seg clock b address).2 := by
  unfold openFlow
  split
  · exact .served .refl
  · split
    · next t halloc => exact allocTcpFlow_none halloc ▸ .served .refl
    · next i t halloc =>
      obtain ⟨hfree, -, rfl⟩ := state_of_allocTcpFlow halloc
      obtain ⟨j, rfl, huse⟩ := hb
      dsimp only
      rw [takeFlowId_eq, openSlot_eq]
      obtain ⟨hstate, hrx, htx, howner⟩ := ha _
      exact .opens i _ _ hfree hstate hrx htx ⟨j, huse, howner⟩

section Body

variable {flow : Option (Fin 16)} {seg : Segment} {b : QueueBinding}
  (hflow : ∀ i, flow = some i → (s.tcpFlows i).state ≠ .free)
  (hb : ∃ j, s.bindings j = b ∧ b.inUse = true)
  (hp : ∀ i, flow = some i → (s.tcpFlows i).state = .synRecv → seg.has flagAck = true →
    seg.has flagRst = false → P (.handshake (s.tcpFlows i)))
  (hp' : ∀ i, flow = some i → seg.has flagRst = true → P (.reset (s.tcpFlows i)))

include hflow hb hp hp'

theorem body_tcpBody (localAddress remoteAddress : UInt32) (clock : Clock) :
    Body P s (tcpBody flow localAddress remoteAddress seg clock b s).2 := by
  unfold tcpBody
  rcases flow with _ | i
  · split_ifs
    · exact .served .refl
    · exact body_openFlow seg clock hb fun _ => ⟨rfl, rfl, rfl, rfl, rfl⟩
    · exact .served .refl
  · dsimp only
    split_ifs with hrst hack hopen
    · exact .resets i (hflow i rfl) (hp' i rfl hrst)
    · exact .completes i seg _ _ _ hack.1 (hp i rfl hack.1 hack.2 (Bool.eq_false_iff.mpr hrst))
    · exact .served (served_openSegment hopen seg _)
    · exact .served .refl

theorem body_tcpBodyV6 (localAddr remoteAddr : IpAddr) (clock : Clock) :
    Body P s (tcpBodyV6 flow localAddr remoteAddr seg clock b s).2 := by
  unfold tcpBodyV6
  rcases flow with _ | i
  · split_ifs
    · exact .served .refl
    · exact body_openFlow seg clock hb fun _ => ⟨rfl, rfl, rfl, rfl, rfl⟩
    · exact .served .refl
  · dsimp only
    split_ifs with hrst hack hopen
    · exact .resets i (hflow i rfl) (hp' i rfl hrst)
    · exact .completes i seg _ _ _ hack.1 (hp i rfl hack.1 hack.2 (Bool.eq_false_iff.mpr hrst))
    · refine .served (served_openSegmentV6 ?_ seg _)
      rcases hopen with hstate | hstate | hstate | hstate <;> rw [hstate] <;> decide
    · exact .served .refl

end Body

/-- Only slots that are taken are found, and by their port. -/
theorem of_findFlowByPorts {localPort remotePort : UInt16} {remoteAddress : UInt32}
    (h : s.findFlowByPorts localPort remotePort remoteAddress = some i) :
    (s.tcpFlows i).state ≠ .free ∧ (s.tcpFlows i).localPort = localPort := by
  have hfound := find?_some h
  simp only [Bool.and_eq_true, bne_iff_ne, beq_iff_eq] at hfound
  exact hfound.1.1

theorem of_findFlowByPortsV6 {localPort remotePort : UInt16} {remoteAddr : IpAddr}
    (h : s.findFlowByPortsV6 localPort remotePort remoteAddr = some i) :
    (s.tcpFlows i).state ≠ .free ∧ (s.tcpFlows i).localPort = localPort := by
  have hfound := find?_some h
  simp only [Bool.and_eq_true, bne_iff_ne, beq_iff_eq] at hfound
  exact hfound.1.1

/-! ### UDP frames -/

theorem served_allocUdpFlow (hD : D) (b : QueueBinding) (localPort remotePort : UInt16)
    (localAddress remoteAddress : UInt32) (now : UInt64) :
    Served P D s (s.allocUdpFlow b localPort remotePort localAddress remoteAddress now).2 := by
  unfold allocUdpFlow
  split
  · exact .single (.udp hD (.udp s _ _ rfl rfl) rfl rfl rfl)
  · split
    · exact .refl
    · next i hi =>
      have hidle := find?_some hi
      rw [Bool.not_eq_true'] at hidle
      dsimp only
      rw [takeFlowId_eq]
      exact .head (.udp hD (.number s s.takeFlowId.2.nextFlowId) rfl rfl rfl)
        (.single (.udp hD (.openUdp _ i _ hidle rfl rfl) rfl rfl rfl))

theorem served_receiveUdp (i : Fin 16) (payload : List UInt8) (b : QueueBinding) :
    Served P D s (s.receiveUdp i payload b).2 := by
  unfold receiveUdp deliverUdp
  split
  · exact .refl
  · split
    · exact .refl
    · split
      · exact .refl
      · exact .single (.buf _ _ _)

theorem served_udpBody (hD : D) (fields : UdpFields) (payload : List UInt8) (now : UInt64)
    (b : QueueBinding) : Served P D s (udpBody fields payload now b s).2 := by
  have halloc := served_allocUdpFlow (P := P) (s := s) hD b fields.dstPort fields.srcPort
    fields.dstAddress fields.srcAddress now
  unfold udpBody
  split
  · next t h => rwa [h] at halloc
  · next i t h =>
    rw [h] at halloc
    exact halloc.trans (served_receiveUdp i payload b)

theorem served_udpBodyV6 (hD : D) (fields : UdpFieldsV6) (payload : List UInt8) (now : UInt64)
    (b : QueueBinding) : Served P D s (udpBodyV6 fields payload now b s).2 := by
  have halloc := served_allocUdpFlow (P := P) (s := s) hD b fields.dstPort fields.srcPort
    fields.dstAddr.toIpv4 fields.srcAddr.toIpv4 now
  unfold udpBodyV6
  split
  · next t h => rwa [h] at halloc
  · next i t h =>
    rw [h] at halloc
    have haddr : Serves P D t (t.setUdpFlow i { t.udpFlows i with
        localAddr := fields.dstAddr
        remoteAddr := fields.srcAddr }) := .udp hD (.udp t i _ rfl rfl) rfl rfl rfl
    exact halloc.trans (.head haddr (served_receiveUdp i payload b))

/-! ### The other calls -/

theorem served_tcpSend (flowId : UInt32) (data : List UInt8) :
    Served P D s (s.tcpSend flowId data).2.2 := by
  unfold tcpSend
  split
  · exact .refl
  · split
    · exact .refl
    · exact .single (.buf _ _ _)

theorem served_tcpRecv (flowId : UInt32) (size : ℕ) : Served P D s (s.tcpRecv flowId size).2 := by
  unfold tcpRecv
  split
  · exact .refl
  · split
    · exact .refl
    · exact .head (.buf _ _ _) (.single (.flow ⟨rfl, .refl _, fun _ => rfl⟩))

theorem served_tcpCloseFlow (flowId : UInt32) : Served P D s (s.tcpCloseFlow flowId).2 := by
  unfold tcpCloseFlow
  split
  · exact .refl
  · exact .single (.flow ⟨rfl, .refl _, fun _ => rfl⟩)

theorem served_drainFlow (resolve : Fin 16 → Option (Fin 6 → UInt8))
    (r : List (Fin 16 × OutSegment) × Stack) (i : Fin 16) :
    Served P D r.2 (drainFlow resolve r i).2 := by
  unfold drainFlow
  dsimp only
  split
  · exact .refl
  · split
    · exact .refl
    · next mac hmac =>
      have hdrain := Sender.continues_drain ⟨{ r.2.tcpFlows i with remoteMac := some mac },
        (r.2.tcpFlows i).txBuf.map fun b => (r.2.pool b).buf, []⟩
      have hflow : Serves P D r.2 (r.2.setFlow i _) :=
        .flow ⟨hdrain.endpoint, hdrain.state, hdrain.localSeq⟩
      split
      · exact .head hflow (.single (.buf _ _ _))
      · exact .single hflow

theorem served_tcpDrainPending (resolve : Fin 16 → Option (Fin 6 → UInt8)) :
    Served P D s (s.tcpDrainPending resolve).2 := by
  refine foldlRecOn (motive := fun r : List (Fin 16 × OutSegment) × Stack => Served P D s r.2)
    _ _ .refl ?_
  intro r hr i _
  exact hr.trans (served_drainFlow resolve r i)

theorem serves_expireFlow (now : UInt64) (r : ℕ × Stack) (i : Fin 16)
    (hp : (r.2.tcpFlows i).timesOut now = true → P (.timeout (r.2.tcpFlows i))) :
    Serves P D r.2 (expireFlow now r i).2 := by
  have hsyn := (r.2.tcpFlows i).synExpired_expireWait now
  by_cases hout : (r.2.tcpFlows i).timesOut now = true
  · obtain ⟨hclosed, hendpoint⟩ := expire_of_timesOut _ now hout
    obtain ⟨hfree, hopen⟩ := state_of_timesOut _ now hout
    have hsyn : ((r.2.tcpFlows i).expireWait now).synExpired now = true ↔
        (r.2.tcpFlows i).state = .synRecv := hsyn.trans (and_iff_right hout)
    have hchange := Change.timeout r.2 i _ hfree hopen hclosed hendpoint (hp hout)
    simp only [expireFlow, hsyn]
    exact .of_update hchange rfl rfl rfl rfl fun h => absurd h hfree
  · have heq : (expireFlow now r i).2 = r.2.setFlow i ((r.2.tcpFlows i).expire now) := by
      have hno : ¬((r.2.tcpFlows i).expireWait now).synExpired now = true :=
        fun h => hout (hsyn.mp h).1
      simp only [expireFlow, if_neg hno, setFlow]
    rw [heq]
    exact .flow (continues_expire _ now (Bool.eq_false_iff.mpr hout))

/-- The slots that are still to come are as they were before the call. -/
theorem expireFlow_foldl (now : UInt64) {is : List (Fin 16)} (hnodup : is.Nodup)
    {r : ℕ × Stack} (hr : ∀ i ∈ is, r.2.tcpFlows i = s.tcpFlows i)
    (hp : ∀ i, (s.tcpFlows i).timesOut now = true → P (.timeout (s.tcpFlows i))) :
    Served P D r.2 (is.foldl (expireFlow now) r).2 := by
  induction is generalizing r with
  | nil => exact .refl
  | cons i is ih =>
    obtain ⟨hi, hnodup⟩ := nodup_cons.mp hnodup
    have hstep : Serves P D r.2 (expireFlow now r i).2 := by
      refine serves_expireFlow now r i ?_
      rw [hr i mem_cons_self]
      exact hp i
    refine .head hstep (ih hnodup fun j hj => ?_)
    rw [← hr j (mem_cons_of_mem i hj)]
    exact update_of_ne (ne_of_mem_of_not_mem hj hi) _ _

/-- A slot that the loop does not come to. -/
theorem tcpFlows_expireFlow_of_notMem (now : UInt64) (r : ℕ × Stack) {is : List (Fin 16)}
    (hi : i ∉ is) : (is.foldl (expireFlow now) r).2.tcpFlows i = r.2.tcpFlows i := by
  induction is generalizing r with
  | nil => rfl
  | cons k is ih =>
    rw [mem_cons, not_or] at hi
    rw [foldl_cons, ih _ hi.2]
    exact update_of_ne hi.1 _ _

/-- **The loop over the slots does to each of them what it does to it alone.** -/
theorem tcpFlows_expireTcpFlows (s : Stack) (now : UInt64) (i : Fin 16) :
    (s.expireTcpFlows now).2.tcpFlows i = (s.tcpFlows i).expire now := by
  have hloop : ∀ (is : List (Fin 16)) (r : ℕ × Stack), is.Nodup → i ∈ is →
      (is.foldl (expireFlow now) r).2.tcpFlows i = (r.2.tcpFlows i).expire now := by
    intro is
    induction is with
    | nil => exact fun _ _ hi => nomatch hi
    | cons k is ih =>
      intro r hnodup hi
      obtain ⟨hk, hnodup⟩ := nodup_cons.mp hnodup
      rw [foldl_cons]
      rcases mem_cons.mp hi with rfl | htail
      · rw [tcpFlows_expireFlow_of_notMem now _ hk]
        exact update_self _ _ _
      · rw [ih _ hnodup htail]
        exact congrArg (fun f : TcpFlow => f.expire now)
          (update_of_ne (ne_of_mem_of_not_mem htail hk) _ _)
  exact hloop _ (0, s) (nodup_finRange 16) (mem_finRange i)

theorem pool_expireTcpFlows (s : Stack) (now : UInt64) :
    (s.expireTcpFlows now).2.pool = s.pool := by
  have hstep : ∀ r i, (expireFlow now r i).2.pool = r.2.pool := fun _ _ => rfl
  rw [expireTcpFlows]
  exact Foundation.foldl_frame (fun r : ℕ × Stack => r.2.pool) hstep _ _

/-! ### Calls -/

/-- The tables of a stack: all but the queues. -/
def tables (s : Stack) : Stack :=
  { s.core with bindings := fun _ => ⟨queueIdInvalid, 0, 0, false⟩ }

theorem tables_of_core (h : t.core = s.core) : t.tables = s.tables :=
  congrArg (fun s : Stack => { s with bindings := fun _ => ⟨queueIdInvalid, 0, 0, false⟩ }) h

/-- Changes between two stacks, up to their queues. -/
def Steps (P : Ending → Prop) (s t : Stack) : Prop :=
  ∃ s' t', s'.tables = s.tables ∧ Changes P s' t' ∧ t'.tables = t.tables

theorem Changes.steps (h : Changes P s t) : Steps P s t := ⟨s, t, rfl, h, rfl⟩

theorem Steps.of_tables (h : t.tables = s.tables) : Steps P s t := ⟨s, s, rfl, .refl, h.symm⟩

/-- **The rule of invariants**: a property of the tables that every change keeps is kept. -/
theorem Steps.induct {I : Stack → Prop} (h : Steps P s t) (hs : I s)
    (htables : ∀ s, I s.tables ↔ I s) (hchange : ∀ s t, I s → Change P s t → I t) : I t := by
  obtain ⟨s', t', hs', hchanges, ht'⟩ := h
  have hstart : I s' := by
    rw [← htables, hs', htables]
    exact hs
  have hend : I t' := by
    clear ht'
    induction hchanges with
    | refl => exact hstart
    | tail _ hstep ih => exact hchange _ _ ih hstep
  rwa [← htables, ← ht', htables]

/-- **A handler** refuses a frame, or hands it to a body with an effect `B`. -/
inductive Handles (B : Stack → Stack → Prop) (s : Stack) : Stack → Prop where
  | refused : Handles B s s
  | handed {binding : Option QueueBinding} {length : ℕ}
      {body : QueueBinding → Stack → Status × Stack}
      (hbody : ∀ b t, binding = some b ∧ (s.findBinding b.queueId).isSome = true ∧ length ≤ 1520 →
        t.core = s.core → B t (body b t).2) : Handles B s (s.dispatch binding length body).2

namespace Handles

variable {B C : Stack → Stack → Prop}

theorem imp (h : Handles B s t) (hBC : ∀ {t u}, B t u → C t u) : Handles C s t := by
  cases h with
  | refused => exact .refused
  | handed hbody => exact .handed fun b t hb ht => hBC (hbody b t hb ht)

/-- What holds of every body and does not look at the queues holds of the handler. -/
theorem lift {Q : Stack → Stack → Prop} (h : Handles Q s t)
    (hcore : ∀ s t, Q s.core t.core ↔ Q s t) (hrefl : ∀ s, Q s s) : Q s t := by
  cases h with
  | refused => exact hrefl s
  | @handed binding length body hbody =>
    rcases s.dispatch_status_cases binding length body with ⟨-, hsame⟩ | ⟨b, t, hb, ht, -, hsame⟩
    · rw [← hcore, hsame]
      exact hrefl s.core
    · rw [← hcore, hsame, ← ht, hcore]
      exact hbody b t hb ht

theorem steps (h : Handles (Changes P) s t) : Steps P s t := by
  cases h with
  | refused => exact Changes.steps .refl
  | @handed binding length body hbody =>
    rcases s.dispatch_status_cases binding length body with ⟨-, hcore⟩ | ⟨b, t, hb, ht, -, hcore⟩
    · exact .of_tables (tables_of_core hcore)
    · exact ⟨t, (body b t).2, tables_of_core ht, hbody b t hb ht, (tables_of_core hcore).symm⟩

end Handles

theorem core_rebind (j : Fin 4) (b : QueueBinding) (queueId : UInt32) :
    (s.rebind j b queueId).core = { s with bindings := update s.bindings j b }.core :=
  core_queueRingReset

end Stack

/-- A segment that completes the handshake of the flow it is for: it acknowledges
something, whatever the number, its queue is bound and its frame fits into a packet. -/
structure Stack.Completes (s : Stack) (f : TcpFlow) (seg : Segment) (length : ℕ) : Prop where
  state : f.state = .synRecv
  ack : seg.has flagAck = true
  noRst : seg.has flagRst = false
  bound : (s.findBinding f.queueId).isSome = true
  size : length ≤ 1520

/-- **What a call ends**, told from its arguments and the stack before it. -/
def Call.Ends (s : Stack) : Call → Ending → Prop
  | .tcpFrame _ frame, .handshake f => ∃ fields i, parseTcp frame = some fields ∧
      s.findFlowByPorts fields.dstPort fields.srcPort (readU32le frame 26) = some i ∧
      s.tcpFlows i = f ∧ s.Completes f (segmentV4 frame fields) frame.length
  | .tcpFrameV6 _ frame, .handshake f => ∃ fields src dst i,
      parseTcpV6 frame = some (fields, src, dst) ∧
      s.findFlowByPortsV6 fields.dstPort fields.srcPort src = some i ∧
      s.tcpFlows i = f ∧ s.Completes f (segmentV6 frame fields) frame.length
  | .tcpFrame _ frame, .reset f => ∃ fields i, parseTcp frame = some fields ∧
      s.findFlowByPorts fields.dstPort fields.srcPort (readU32le frame 26) = some i ∧
      s.tcpFlows i = f ∧ (segmentV4 frame fields).has flagRst = true
  | .tcpFrameV6 _ frame, .reset f => ∃ fields src dst i,
      parseTcpV6 frame = some (fields, src, dst) ∧
      s.findFlowByPortsV6 fields.dstPort fields.srcPort src = some i ∧
      s.tcpFlows i = f ∧ (segmentV6 frame fields).has flagRst = true
  | .expireTcpFlows now, .timeout f => ∃ i, s.tcpFlows i = f ∧ f.timesOut now = true
  | .expireUdpFlows now, .idle f => ∃ i, s.udpFlows i = f ∧ s.udpExpired now i = true
  | _, _ => False

/-- The calls that bind a queue or release one. -/
def Call.rebinds : Call → Bool
  | .bindQueue _ _ _ => true
  | .releaseQueue _ _ => true
  | _ => false

/-- The calls of a listener. -/
def Call.listens : Call → Bool
  | .registerListener _ _ => true
  | .unregisterListener _ => true
  | .acceptConnection _ => true
  | _ => false

/-- The calls that bring a TCP segment. -/
def Call.segment : Call → Bool
  | .tcpFrame _ _ => true
  | .tcpFrameV6 _ _ => true
  | _ => false

/-- The calls that change UDP flows. -/
def Call.udp : Call → Bool
  | .udpFrame _ _ => true
  | .udpFrameV6 _ _ => true
  | .expireUdpFlows _ => true
  | _ => false

namespace Stack

variable {s t u : Stack} {i : Fin 16} {c : Call}

/-- **What a call does.** -/
inductive Performs (c : Call) (s : Stack) : Stack → Prop where
  | served {t : Stack} (h : Served (c.Ends s) (c.udp = true) s t) : Performs c s t
  | datagram {t : Stack} (hc : c.udp = true) (h : Handles (Served (c.Ends s) True) s t) :
      Performs c s t
  | segment {t : Stack} (hc : c.segment = true) (h : Handles (Body (c.Ends s)) s t) : Performs c s t
  | listener (hc : c.listens = true) (j : Fin 8) (l : Listener)
      (h : l.backlog ⊆ (s.listeners j).backlog) : Performs c s (s.setListener j l)
  | rebind (hc : c.rebinds = true) (j : Fin 4) {b : QueueBinding} (queueId : UInt32)
      (hb : b.inUse = true → b.queueId.toNat < 4) : Performs c s (s.rebind j b queueId)

theorem Performs.steps (h : Performs c s t) : Steps (c.Ends s) s t := by
  cases h with
  | served h => exact h.changes.steps
  | datagram hc h => exact (h.imp Served.changes).steps
  | segment hc h => exact (h.imp Body.changes).steps
  | listener hc j l h => exact Changes.steps (.single (.listener s j l h))
  | @rebind hc j b queueId =>
    have htables := tables_of_core (s.core_rebind j b queueId)
    exact .of_tables htables

theorem mem_activeBindings {b : QueueBinding} :
    b ∈ s.activeBindings ↔ (∃ j, s.bindings j = b) ∧ b.inUse = true := by
  simp [activeBindings]

/-- The binding of a frame, by the queue of its flow or by the hash, is in use. -/
theorem inUse_of_binding {flow : Option (Fin 16)} {q : Fin 16 → UInt32} {b : QueueBinding}
    {localPort remotePort : UInt16} {localAddress remoteAddress : UInt32}
    (h : (match flow with
      | some i => s.findBinding (q i)
      | none => s.selectBindingForFlow localPort remotePort localAddress remoteAddress) = some b) :
    ∃ j, s.bindings j = b ∧ b.inUse = true := by
  rcases flow with _ | i
  · obtain ⟨⟨j, hj⟩, huse⟩ := mem_activeBindings.mp (mem_of_getElem? h)
    exact ⟨j, hj, huse⟩
  · obtain ⟨j, hj, huse, -⟩ := inUse_of_findBinding h
    exact ⟨j, hj, huse⟩

theorem handles_tcpFrame (clock : Clock) (frame : List UInt8) :
    Handles (Body ((Call.tcpFrame clock frame).Ends s)) s (s.processTcpFrame clock frame).2 := by
  unfold processTcpFrame
  split
  · exact .refused
  · split
    · exact .refused
    · next fields hparse =>
      refine .handed fun b t hb ht => body_tcpBody ?_ ?_ ?_ ?_ _ _ _
      · intro i hi
        rw [tcpFlows_of_core ht]
        exact (of_findFlowByPorts hi).1
      · rw [bindings_of_core ht]
        exact inUse_of_binding hb.1
      · intro i hi hsyn hack hrst
        rw [tcpFlows_of_core ht] at hsyn ⊢
        rw [hi] at hb
        have hbound := Option.isSome_of_mem hb.1
        exact ⟨fields, i, hparse, hi, rfl, hsyn, hack, hrst, hbound, hb.2.2⟩
      · intro i hi hrst
        exact ⟨fields, i, hparse, hi, (congrFun (tcpFlows_of_core ht) i).symm, hrst⟩

theorem handles_tcpFrameV6 (clock : Clock) (frame : List UInt8) :
    Handles (Body ((Call.tcpFrameV6 clock frame).Ends s)) s
      (s.processTcpFrameV6 clock frame).2 := by
  unfold processTcpFrameV6
  split
  · exact .refused
  · split
    · exact .refused
    · next fields src dst hparse =>
      refine .handed fun b t hb ht => body_tcpBodyV6 ?_ ?_ ?_ ?_ _ _ _
      · intro i hi
        rw [tcpFlows_of_core ht]
        exact (of_findFlowByPortsV6 hi).1
      · rw [bindings_of_core ht]
        exact inUse_of_binding hb.1
      · intro i hi hsyn hack hrst
        rw [tcpFlows_of_core ht] at hsyn ⊢
        rw [hi] at hb
        have hbound := Option.isSome_of_mem hb.1
        exact ⟨fields, src, dst, i, hparse, hi, rfl, hsyn, hack, hrst, hbound, hb.2.2⟩
      · intro i hi hrst
        exact ⟨fields, src, dst, i, hparse, hi, (congrFun (tcpFlows_of_core ht) i).symm, hrst⟩

theorem handles_udpFrame {P : Ending → Prop} (now : UInt64) (frame : List UInt8) :
    Handles (Served P True) s (s.processUdpFrame now frame).2 := by
  unfold processUdpFrame
  split
  · exact .refused
  · split
    · exact .refused
    · split
      · exact .refused
      · exact .handed fun b t _ _ => served_udpBody trivial _ _ now b

theorem handles_udpFrameV6 {P : Ending → Prop} (now : UInt64) (frame : List UInt8) :
    Handles (Served P True) s (s.processUdpFrameV6 now frame).2 := by
  unfold processUdpFrameV6
  split
  · exact .refused
  · split
    · exact .refused
    · split
      · exact .refused
      · exact .handed fun b t _ _ => served_udpBodyV6 trivial _ _ now b

/-- What every call does, and that it ends what it says. -/
theorem performs_exec (s : Stack) (c : Call) : Performs c s (c.exec s) := by
  cases c with
  | bindQueue cellId queueId coreMask =>
    rw [Call.exec, bindQueue]
    split_ifs with hargs
    · exact .served .refl
    · exact .served .refl
    · rw [not_or, UInt32.not_le] at hargs
      split
      · exact .rebind rfl _ _ fun _ => hargs.1
      · exact .served .refl
  | releaseQueue queueId cellId =>
    rw [Call.exec, releaseQueue]
    split
    · refine .rebind rfl _ _ ?_
      rintro ⟨⟩
    · exact .served .refl
  | registerListener port sockfd =>
    rw [Call.exec, registerListener]
    split
    · exact .listener rfl _ _ (nil_subset _)
    · exact .served .refl
  | unregisterListener port =>
    rw [Call.exec, unregisterListener]
    split
    · exact .listener rfl _ _ (nil_subset _)
    · exact .served .refl
  | acceptConnection port =>
    rw [Call.exec, acceptConnection]
    split
    · exact .served .refl
    · split
      · exact .served .refl
      · next entry rest hlog =>
        refine .listener rfl _ _ ?_
        rw [hlog]
        exact subset_cons_self entry rest
  | tcpFrame clock frame => exact .segment rfl (handles_tcpFrame clock frame)
  | tcpFrameV6 clock frame => exact .segment rfl (handles_tcpFrameV6 clock frame)
  | udpFrame now frame => exact .datagram rfl (handles_udpFrame now frame)
  | udpFrameV6 now frame => exact .datagram rfl (handles_udpFrameV6 now frame)
  | tcpSend flowId data => exact .served (served_tcpSend flowId data)
  | tcpRecv flowId size => exact .served (served_tcpRecv flowId size)
  | tcpCloseFlow flowId => exact .served (served_tcpCloseFlow flowId)
  | tcpDrainPending resolve => exact .served (served_tcpDrainPending resolve)
  | retransmitTcpFlows now =>
    exact .served (.single ⟨.retransmit s now,
      ⟨rfl, rfl, fun k _ => (s.tcpFlows k).state_retransmit now⟩, fun _ => rfl⟩)
  | expireTcpFlows now =>
    exact .served (expireFlow_foldl (r := (0, s)) now (nodup_finRange 16) (fun _ _ => rfl)
      fun i hi => ⟨i, rfl, hi⟩)
  | expireUdpFlows now =>
    exact .served (.single (.udp rfl (.idleUdp s now fun i hi => ⟨i, rfl, hi⟩) rfl rfl rfl))

/-- **Every call is a sequence of changes**, and ends what it says. -/
theorem steps_exec (s : Stack) (c : Call) : Steps (c.Ends s) s (c.exec s) :=
  (performs_exec s c).steps

end Stack

end Xaios.Net
