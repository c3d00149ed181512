import Xaios.Net.Stack

/-!
# What happens to one flow

The functions on a single flow, seen from outside: which of them keep the endpoint of
the connection (its numbers, ports, addresses and buffers, `Net.TcpFlow.endpoint`),
and how they change its state. A flow continues (`Net.TcpFlow.Continues`) unless a
timer ends it (`Net.TcpFlow.timesOut`).
-/

namespace Xaios.Net

open Foundation Bool

/-! ### States -/

/-- The states a connection can be in after its handshake. -/
def FlowState.PastHandshake (a : FlowState) : Prop := a ≠ .free ∧ a ≠ .synRecv

instance : DecidablePred FlowState.PastHandshake := fun a =>
  inferInstanceAs (Decidable (a ≠ .free ∧ a ≠ .synRecv))

theorem FlowState.pastHandshake_closed : PastHandshake .closed := by decide

theorem FlowState.pastHandshake_established : PastHandshake .established := by decide

/-- A connection keeps its state, or it changes after the handshake. -/
def FlowState.Moves (a b : FlowState) : Prop := b = a ∨ a.PastHandshake ∧ b.PastHandshake

/-- The states of a connection that is open, or half closed. -/
def FlowState.Open (a : FlowState) : Prop := a ≠ .free ∧ a ≠ .synRecv ∧ a ≠ .closed

instance : DecidablePred FlowState.Open := fun a =>
  inferInstanceAs (Decidable (a ≠ .free ∧ a ≠ .synRecv ∧ a ≠ .closed))

/-- **The transitions of an open connection.** It is closed by the peer or by the own side;
nothing leads to `finWait2` and `timeWait`. -/
inductive FlowState.Progress : FlowState → FlowState → Prop where
  | refl (a : FlowState) : Progress a a
  /-- A FIN of the peer. -/
  | closeWait : Progress .established .closeWait
  /-- A FIN of the own side. -/
  | finWait : Progress .established .finWait
  /-- A FIN of the own side after one of the peer. -/
  | lastAck : Progress .closeWait .lastAck
  /-- Both. -/
  | both : Progress .established .lastAck

namespace FlowState.Progress

variable {a b c : FlowState}

theorem trans (h : Progress a b) (h' : Progress b c) : Progress a c := by
  cases h with
  | refl => exact h'
  | closeWait =>
    cases h' with
    | refl => exact .closeWait
    | lastAck => exact .both
  | finWait =>
    cases h'
    exact .finWait
  | lastAck =>
    cases h'
    exact .lastAck
  | both =>
    cases h'
    exact .both

/-- A connection keeps its state, or it changes while it is open. -/
theorem eq_or_open (h : Progress a b) : b = a ∨ a.Open ∧ b.Open := by
  cases h with
  | refl => exact .inl rfl
  | closeWait | finWait | lastAck | both => exact .inr (by decide)

theorem isOpen (h : Progress a b) (ha : a.Open) : b.Open := by
  rcases h.eq_or_open with rfl | ⟨-, hb⟩
  · exact ha
  · exact hb

theorem moves (h : Progress a b) : Moves a b :=
  h.eq_or_open.imp_right fun ⟨ha, hb⟩ => ⟨⟨ha.1, ha.2.1⟩, hb.1, hb.2.1⟩

theorem of_eq (h : b = a) : Progress a b := h ▸ .refl a

end FlowState.Progress

/-! ### Endpoints -/

/-- The fields that stay what they are while a connection lasts; the others are blank. -/
def TcpFlow.endpoint (f : TcpFlow) : TcpFlow :=
  { TcpFlow.init with
    flowId := f.flowId
    queueId := f.queueId
    cellId := f.cellId
    localPort := f.localPort
    remotePort := f.remotePort
    remoteAddress := f.remoteAddress
    localAddress := f.localAddress
    remoteAddr := f.remoteAddr
    localAddr := f.localAddr
    rxBuf := f.rxBuf
    txBuf := f.txBuf }

section Endpoint

variable {f g : TcpFlow}

theorem TcpFlow.rxBuf_of_endpoint (h : g.endpoint = f.endpoint) : g.rxBuf = f.rxBuf :=
  (congrArg rxBuf h : g.endpoint.rxBuf = f.endpoint.rxBuf)

theorem TcpFlow.txBuf_of_endpoint (h : g.endpoint = f.endpoint) : g.txBuf = f.txBuf :=
  (congrArg txBuf h : g.endpoint.txBuf = f.endpoint.txBuf)

end Endpoint

/-- The same connection a little later: it has the same endpoint, it has not ended, and in
the handshake its own sequence number is the same. -/
structure TcpFlow.Continues (f g : TcpFlow) : Prop where
  endpoint : g.endpoint = f.endpoint
  state : f.state.Progress g.state
  localSeq : f.state = .synRecv → g.localSeq = f.localSeq

namespace TcpFlow.Continues

variable {f g h : TcpFlow}

theorem refl (f : TcpFlow) : f.Continues f := ⟨rfl, .refl _, fun _ => rfl⟩

theorem trans (hfg : f.Continues g) (hgh : g.Continues h) : f.Continues h where
  endpoint := hgh.endpoint.trans hfg.endpoint
  state := hfg.state.trans hgh.state
  localSeq hf := by
    rcases hfg.state.eq_or_open with heq | ⟨hopen, -⟩
    · exact (hgh.localSeq (heq.trans hf)).trans (hfg.localSeq hf)
    · exact absurd hf hopen.2.1

/-- While the connection is open its sequence number may change. -/
theorem of_open (hopen : f.state.Open) (he : g.endpoint = f.endpoint)
    (hs : f.state.Progress g.state) : f.Continues g :=
  ⟨he, hs, fun hsyn => absurd hsyn hopen.2.1⟩

end TcpFlow.Continues

/-! ### The receive path -/

/-- The receive path writes these fields of a flow and no others. -/
def TcpFlow.withReceived (f : TcpFlow) (expectedSeq : UInt32) (pendingAck : Bool)
    (windowSize : UInt16) (ooo : Fin 4 → OooEntry) : TcpFlow :=
  { f with
    expectedSeq := expectedSeq
    pendingAck := pendingAck
    windowSize := windowSize
    ooo := ooo }

namespace Receiver

/-- The flow differs by what the receive path writes. -/
def Touches (r r' : Receiver) : Prop := ∃ e a w o, r'.flow = r.flow.withReceived e a w o

variable (r : Receiver)

theorem Touches.refl : Touches r r := ⟨_, _, _, _, rfl⟩

theorem Touches.trans {r₁ r₂ r₃ : Receiver} (h : Touches r₁ r₂) (h' : Touches r₂ r₃) :
    Touches r₁ r₃ := by
  obtain ⟨_, _, _, _, h⟩ := h
  obtain ⟨e, a, w, o, h'⟩ := h'
  exact ⟨e, a, w, o, by rw [h', h]; rfl⟩

theorem touches_drainEntry (p : Bool × Receiver) (i : Fin 4) : Touches p.2 (drainEntry p i).2 := by
  unfold drainEntry
  dsimp only
  split
  · exact ⟨_, _, _, _, rfl⟩
  · exact .refl _

theorem touches_drainRound : Touches r r.drainRound.2 := by
  unfold drainRound
  refine List.foldlRecOn (motive := fun p : Bool × Receiver => Touches r p.2) _ _ (.refl r) ?_
  intro p hp i _
  exact hp.trans (touches_drainEntry p i)

theorem touches_drainRounds (fuel : ℕ) (r : Receiver) : Touches r (r.drainRounds fuel) := by
  induction fuel generalizing r with
  | zero => exact .refl r
  | succ fuel ih =>
    rw [drainRounds]
    split
    · exact (touches_drainRound r).trans (ih _)
    · exact touches_drainRound r

/-- **What a payload can change of a flow.** -/
theorem touches_payload (seq : UInt32) (data : List UInt8) : Touches r (r.payload seq data) := by
  unfold payload
  split
  · have haccept : Touches r (r.accept data) := ⟨_, _, _, _, rfl⟩
    exact haccept.trans (touches_drainRounds 5 _)
  · split
    · unfold TcpFlow.oooBufferStore
      split
      · exact .refl r
      · split <;> exact ⟨_, _, _, _, rfl⟩
    · exact .refl r

/-- What the receive path leaves alone: the endpoint and the state. -/
structure Keeps (r r' : Receiver) : Prop where
  endpoint : r'.flow.endpoint = r.flow.endpoint
  state : r'.flow.state = r.flow.state

theorem keeps_payload (seq : UInt32) (data : List UInt8) : Keeps r (r.payload seq data) := by
  obtain ⟨e, a, w, o, heq⟩ := touches_payload r seq data
  constructor
  · rw [heq]
    rfl
  · rw [heq]
    rfl

end Receiver

/-! ### Segments -/

namespace TcpFlow

variable (f : TcpFlow) (seg : Segment) (start : UInt64)

theorem endpoint_handleFin : (f.handleFin seg start).endpoint = f.endpoint := by
  unfold handleFin
  dsimp only
  split_ifs <;> rfl

theorem endpoint_handleFinAck : (f.handleFinAck seg start).endpoint = f.endpoint := by
  unfold handleFinAck
  split_ifs <;> rfl

theorem endpoint_handleAck : (f.handleAck seg).endpoint = f.endpoint := by
  unfold handleAck
  dsimp only
  split_ifs <;> rfl

theorem state_handleAck : (f.handleAck seg).state = f.state := by
  unfold handleAck
  dsimp only
  split_ifs <;> rfl

theorem state_handleAckV6 : (f.handleAckV6 seg).state = f.state := by
  unfold handleAckV6
  split_ifs <;> rfl

/-- The states in which the version 4 handler takes segments. -/
theorem continues_handleFin (h : f.state = .established ∨ f.state = .closeWait) :
    f.Continues ((f.handleFin seg start).handleFinAck seg start) := by
  -- in these states the own FIN has not been sent, so its acknowledgement is no matter
  have hack : ∀ g : TcpFlow, g.state ≠ .finWait → g.handleFinAck seg start = g :=
    fun g hg => if_neg fun hc => hg hc.2.1
  have hwait' : f.state ≠ .finWait := by
    rcases h with h | h <;> rw [h] <;> decide
  unfold handleFin
  dsimp only
  split_ifs with hfin hest hwait
  · rw [hack]
    · refine ⟨rfl, ?_, fun _ => rfl⟩
      rw [hest]
      exact .closeWait
    · exact nofun
  · rw [hwait] at h
    rcases h with h | h <;> nomatch h
  · rw [hack]
    · exact ⟨rfl, .refl _, fun _ => rfl⟩
    · exact hwait'
  · rw [hack]
    · exact .refl f
    · exact hwait'

theorem continues_handleFinV6 : f.Continues (f.handleFinV6 seg) := by
  unfold handleFinV6
  dsimp only
  split_ifs with hfin hest
  · refine ⟨rfl, ?_, fun _ => rfl⟩
    rw [hest]
    exact .closeWait
  · exact ⟨rfl, .refl _, fun _ => rfl⟩
  · exact .refl f

theorem continues_handleAck (hopen : f.state.Open) : f.Continues (f.handleAck seg) :=
  .of_open hopen (f.endpoint_handleAck seg) (.of_eq (f.state_handleAck seg))

theorem continues_handleAckV6 (hopen : f.state.Open) : f.Continues (f.handleAckV6 seg) := by
  refine .of_open hopen ?_ (.of_eq (f.state_handleAckV6 seg))
  unfold handleAckV6
  split_ifs <;> rfl

end TcpFlow

/-! ### Sending -/

namespace Sender

variable (p : Sender)

theorem continues_synack : p.flow.Continues p.synack.flow := by
  unfold synack
  split <;> exact ⟨rfl, .refl _, fun _ => rfl⟩

theorem continues_data : p.flow.Continues p.data.flow := by
  unfold data
  split
  · exact .refl _
  · split <;> exact ⟨rfl, .refl _, fun _ => rfl⟩

theorem continues_ack : p.flow.Continues p.ack.flow := by
  unfold ack
  split <;> exact ⟨rfl, .refl _, fun _ => rfl⟩

theorem continues_fin : p.flow.Continues p.fin.flow := by
  unfold fin
  dsimp only [send]
  split_ifs with hfin hest hwait
  · refine ⟨rfl, ?_, fun _ => rfl⟩
    rw [hest]
    exact .finWait
  · refine ⟨rfl, ?_, fun _ => rfl⟩
    rw [hwait]
    exact .lastAck
  · exact ⟨rfl, .refl _, fun _ => rfl⟩
  · exact .refl _

theorem continues_drain : p.flow.Continues p.drain.flow :=
  p.continues_synack.trans (p.synack.continues_data.trans
    (p.synack.data.continues_ack.trans p.synack.data.ack.continues_fin))

end Sender

/-! ### Timers -/

namespace TcpFlow

variable (f : TcpFlow) (now : UInt64)

theorem state_retransmit : (f.retransmit now).state = f.state := by
  unfold retransmit
  split <;> rfl

theorem continues_retransmit : f.Continues (f.retransmit now) := by
  unfold retransmit
  split
  · exact ⟨rfl, .refl _, fun _ => rfl⟩
  · exact .refl f

/-- The three ways in which a timer ends a connection: the wait at its end, the handshake,
and keepalive probes without an answer. -/
def timesOut : Bool :=
  f.waitExpired now || f.synExpired now ||
    f.keepaliveExpired now && decide (3 ≤ f.keepaliveProbesSent)

/-- A connection in one of the two states that wait. -/
theorem waiting_of_waitExpired (h : f.waitExpired now = true) :
    f.state = .timeWait ∨ f.state = .finWait := by
  simp only [waitExpired, and_eq_true, or_eq_true, decide_eq_true_eq] at h
  exact h.1

theorem synRecv_of_synExpired (h : f.synExpired now = true) : f.state = .synRecv := by
  simp only [synExpired, and_eq_true, decide_eq_true_eq] at h
  exact h.1

theorem established_of_keepaliveExpired (h : f.keepaliveExpired now = true) :
    f.state = .established := by
  simp only [keepaliveExpired, and_eq_true, decide_eq_true_eq] at h
  exact h.1.1

theorem continues_expireData : f.Continues (f.expireData now) := by
  unfold expireData
  split <;> exact ⟨rfl, .refl _, fun _ => rfl⟩

/-- The timer for data does not touch the one for keepalive probes. -/
theorem keepalive_expireData :
    (f.expireData now).keepaliveExpired now = f.keepaliveExpired now ∧
      (f.expireData now).keepaliveProbesSent = f.keepaliveProbesSent := by
  unfold expireData
  split <;> exact ⟨rfl, rfl⟩

/-- **A timer that does not end the connection lets it continue.** -/
theorem continues_expire (h : f.timesOut now = false) : f.Continues (f.expire now) := by
  simp only [timesOut, or_eq_false_iff] at h
  obtain ⟨⟨hwait, hsyn⟩, hkeep⟩ := h
  have heq : f.expire now = (f.expireData now).expireKeepalive now := by
    simp only [expire, expireWait, hwait, hsyn, false_eq_true, if_false]
  rw [heq]
  refine (f.continues_expireData now).trans ?_
  obtain ⟨hexp, hprobes⟩ := f.keepalive_expireData now
  unfold expireKeepalive
  split
  · next halive =>
    rw [hexp] at halive
    rw [halive, Bool.true_and, decide_eq_false_iff_not, UInt32.not_le] at hkeep
    rw [if_pos (hprobes ▸ hkeep)]
    exact ⟨rfl, .refl _, fun _ => rfl⟩
  · exact .refl _

/-- **A timer that ends a connection closes it**, and its buffers stay with the flow. -/
theorem expire_of_timesOut (h : f.timesOut now = true) :
    (f.expire now).state = .closed ∧ (f.expire now).endpoint = f.endpoint := by
  simp only [timesOut, or_eq_true, and_eq_true, decide_eq_true_eq] at h
  rcases h with (hwait | hsyn) | ⟨hkeep, hprobes⟩
  · -- nothing else happens to a flow that was closed
    simp [expire, expireWait, hwait, synExpired, expireData, dataExpired, expireKeepalive,
      keepaliveExpired, endpoint]
  · have hstate := f.synRecv_of_synExpired now hsyn
    simp [expire, expireWait, waitExpired, hstate, hsyn, endpoint]
  · have hstate := f.established_of_keepaliveExpired now hkeep
    obtain ⟨hexp, hsame⟩ := f.keepalive_expireData now
    have heq : f.expire now = { f.expireData now with state := .closed } := by
      simp [expire, expireWait, waitExpired, synExpired, hstate, expireKeepalive, hexp, hkeep,
        hsame, UInt32.not_lt.mpr hprobes]
    rw [heq]
    exact ⟨rfl, (f.continues_expireData now).endpoint⟩

/-- Only a connection that has not ended times out. -/
theorem state_of_timesOut (h : f.timesOut now = true) : f.state ≠ .free ∧ f.state ≠ .closed := by
  simp only [timesOut, or_eq_true, and_eq_true] at h
  rcases h with (hwait | hsyn) | ⟨hkeep, -⟩
  · rcases f.waiting_of_waitExpired now hwait with hstate | hstate <;> rw [hstate] <;> decide
  · rw [f.synRecv_of_synExpired now hsyn]
    decide
  · rw [f.established_of_keepaliveExpired now hkeep]
    decide

/-- The handshakes that time out are those that leave the counter of half-open
connections. -/
theorem synExpired_expireWait :
    (f.expireWait now).synExpired now = true ↔ f.timesOut now = true ∧ f.state = .synRecv := by
  constructor
  · intro h
    by_cases hwait : f.waitExpired now = true
    · simp [expireWait, hwait, synExpired] at h
    · rw [expireWait, if_neg hwait] at h
      exact ⟨by simp [timesOut, h], f.synRecv_of_synExpired now h⟩
  · rintro ⟨h, hstate⟩
    simpa [timesOut, expireWait, waitExpired, keepaliveExpired, hstate] using h

end TcpFlow

end Xaios.Net
