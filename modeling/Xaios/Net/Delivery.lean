import Xaios.Foundation.Loop
import Xaios.Foundation.Stream
import Xaios.Net.Calls
import Xaios.Net.Queues
import Xaios.Net.Transitions

/-!
# Delivery of a byte stream

What the receive path makes of the bytes of a peer, in whatever pieces and order they
arrive. `expected_seq` is meant to be the number of the next byte: then the bytes
written to the receive buffer are the first `k` bytes of the stream
(`Net.PeerStream.InStep`).

A payload keeps this, whether it is delivered, put aside, or only partly taken
because the buffer is full (`Net.Receives.payload`). A FIN does not: the handler
sets `expected_seq` to one past the segment's own number before it looks at the
payload, and without looking at the order. What is needed of a FIN is
`Net.Segment.FinInOrder`, and with it every run delivers a beginning of the stream
(`Net.inStep_of_finInOrder`).
-/

namespace Xaios.Net

open Foundation Function List TcpFlow

/-! ### The stream of the peer -/

/-- The bytes a peer sends and its initial sequence number. The numbers of the bytes and of
the FIN are distinct. -/
structure PeerStream where
  data : List UInt8
  isn : UInt32
  short : data.length + 1 < 2 ^ 32

namespace PeerStream

variable (p : PeerStream)

/-- The number of byte `k`; the FIN follows the last byte. -/
def seq (k : ℕ) : UInt32 := seqAt (p.isn + 1) k

variable {p}

theorem seq_inj {k m : ℕ} (hk : k ≤ p.data.length + 1) (hm : m ≤ p.data.length + 1)
    (h : p.seq k = p.seq m) : k = m := by
  have hshort := p.short
  exact seqAt_inj (by omega) (by omega) h

variable (p)

/-- **The receiver is in step**: it has written the first `k` bytes and expects the next
one, or it has all of them and has taken the FIN as well. -/
def InStep (fin : Bool) (written : List UInt8) (expected : UInt32) : Prop :=
  ∃ k, k ≤ p.data.length ∧ written = p.data.take k ∧
    (expected = p.seq k ∨ k = p.data.length ∧ fin = true ∧ expected = p.seq (k + 1))

/-- An entry of the reorder buffer holds bytes of the stream. -/
def Waiting (e : OooEntry) : Prop :=
  e.inUse = true → e.data ≠ [] ∧ ∃ a, e.seq = p.seq a ∧ PieceAt p.data a e.data

variable {p}

theorem waiting_update {ooo : Fin 4 → OooEntry} (h : ∀ j, p.Waiting (ooo j)) (j : Fin 4)
    {e : OooEntry} (he : p.Waiting e) : ∀ j', p.Waiting (update ooo j e j') :=
  (forall_update_iff ooo fun _ e => p.Waiting e).mpr ⟨he, fun j' _ => h j'⟩

variable {written : List UInt8} {expected : UInt32}

section

variable {fin fin' : Bool} {bs : List UInt8} {a : ℕ} (h : p.InStep fin written expected)

include h

/-- In step, a piece with the number that is expected is the next one. -/
theorem InStep.next (ha : expected = p.seq a) (hp : PieceAt p.data a bs) (hne : bs ≠ []) :
    written = p.data.take a := by
  obtain ⟨k, hk, rfl, hpos⟩ := h
  have hle := hp.length_le hne
  rcases hpos with hexp | ⟨rfl, -, hexp⟩
  · rw [seq_inj (by omega) (by omega) (hexp.symm.trans ha)]
  · -- after the FIN nothing is expected any more
    have heq := seq_inj (by omega) (by omega) (hexp.symm.trans ha)
    omega

/-- **Taking a part of the next piece keeps the receiver in step.** -/
theorem InStep.take (ha : expected = p.seq a) (hp : PieceAt p.data a bs) (hne : bs ≠ []) (n : ℕ) :
    p.InStep fin (written ++ bs.take n) (expected + UInt32.ofNat (bs.take n).length) := by
  have hle := hp.length_le hne
  have htake : (bs.take n).length ≤ bs.length := by
    rw [length_take]
    exact Nat.min_le_right n bs.length
  refine ⟨a + (bs.take n).length, by omega, ?_, .inl ?_⟩
  · rw [h.next ha hp hne, (hp.take n).take_append]
  · rw [ha, seq, seq, seqAt_add]

/-- A FIN that has been seen stays seen. -/
theorem InStep.mono (hfin : fin = true → fin' = true) : p.InStep fin' written expected := by
  obtain ⟨k, hk, hw, hpos⟩ := h
  exact ⟨k, hk, hw, hpos.imp_right fun ⟨hend, hseen, hexp⟩ => ⟨hend, hfin hseen, hexp⟩⟩

end

/-- A FIN that is expected, with all bytes before it. -/
theorem InStep.fin {fin : Bool} (h : p.InStep fin written (p.seq p.data.length)) :
    p.InStep true written (p.seq p.data.length + 1) := by
  obtain ⟨k, hk, hw, hpos⟩ := h
  have hend : k = p.data.length := by
    rcases hpos with hexp | ⟨hend, -, -⟩
    · exact (seq_inj (by omega) (by omega) hexp).symm
    · exact hend
  refine ⟨k, hk, hw, .inr ⟨hend, rfl, ?_⟩⟩
  rw [hend]
  exact seqAt_add (p.isn + 1) p.data.length 1

end PeerStream

/-! ### The receive path -/

/-- A receiver part of the way through a call. Before the call, `written` was all that had
ever been written and `unread` was in the buffer. -/
structure Receives (p : PeerStream) (fin : Bool) (written unread : List UInt8) (r : Receiver) :
    Prop where
  appended : ∃ bs, r.buf.contents = unread ++ bs ∧ p.InStep fin (written ++ bs) r.flow.expectedSeq
  waiting : ∀ j, p.Waiting (r.flow.ooo j)

namespace Receives

variable {p : PeerStream} {fin : Bool} {written unread : List UInt8} {r : Receiver}

variable {a : ℕ} {bs : List UInt8}

theorem accept (h : Receives p fin written unread r) (ha : r.flow.expectedSeq = p.seq a)
    (hp : PieceAt p.data a bs) (hne : bs ≠ []) : Receives p fin written unread (r.accept bs) := by
  obtain ⟨⟨new, hbuf, hstep⟩, hwait⟩ := h
  refine ⟨⟨new ++ bs.take r.buf.available, ?_, ?_⟩, hwait⟩
  · rw [← append_assoc, ← hbuf]
    exact r.buf.contents_write bs
  · have htake := hstep.take ha hp hne r.buf.available
    rw [append_assoc, length_take, Nat.min_comm] at htake
    exact htake

/-- One entry of the reorder buffer: what is next in order is delivered. -/
theorem drainEntry {q : Bool × Receiver} (h : Receives p fin written unread q.2) (j : Fin 4) :
    Receives p fin written unread (Receiver.drainEntry q j).2 := by
  unfold Receiver.drainEntry
  dsimp only
  split
  · next hnext =>
    obtain ⟨hne, a, hseq, hp⟩ := h.waiting j hnext.1
    have haccept := h.accept (hnext.2.symm.trans hseq) hp hne
    exact ⟨haccept.appended, PeerStream.waiting_update haccept.waiting j nofun⟩
  · exact h

section

variable (h : Receives p fin written unread r)

include h

theorem drainRound : Receives p fin written unread r.drainRound.2 := by
  unfold Receiver.drainRound
  refine foldlRecOn (motive := fun q : Bool × Receiver => Receives p fin written unread q.2)
    _ _ h ?_
  intro q hq j _
  exact hq.drainEntry j

theorem drainRounds (fuel : ℕ) : Receives p fin written unread (r.drainRounds fuel) := by
  induction fuel generalizing r with
  | zero => exact h
  | succ fuel ih =>
    rw [Receiver.drainRounds]
    split
    · exact ih h.drainRound
    · exact h.drainRound

/-- A piece that is put aside is a piece of the stream, also when it is cut. -/
theorem store (hp : PieceAt p.data a bs) (expected : UInt32) :
    Receives p fin written unread
      { r with flow := r.flow.oooBufferStore (p.seq a) bs expected } := by
  unfold oooBufferStore
  split
  · exact h
  · next hstore =>
    split
    · next j hj =>
      refine ⟨h.appended, PeerStream.waiting_update h.waiting j fun _ => ?_⟩
      rw [not_or] at hstore
      refine ⟨?_, a, rfl, hp.take tcpMss⟩
      rw [ne_eq, take_eq_nil_iff, not_or]
      exact ⟨by decide, hstore.1⟩
    · exact h

/-- **A payload of the stream keeps the receiver in step**, whatever its place. -/
theorem payload (hp : PieceAt p.data a bs) (hne : bs ≠ []) :
    Receives p fin written unread (r.payload (p.seq a) bs) := by
  unfold Receiver.payload
  split
  · next hexp => exact (h.accept hexp.symm hp hne).drainRounds 5
  · split
    · exact h.store hp _
    · exact h

end

end Receives

/-! ### Segments -/

/-- A segment of the peer: its payload is a piece of the stream at its number, and its FIN
follows the last byte. -/
def PeerStream.Sends (p : PeerStream) (seg : Segment) : Prop :=
  ∃ a, seg.fields.seq = p.seq a ∧ PieceAt p.data a seg.payload ∧
    (seg.has flagFin = true → a + seg.payload.length = p.data.length)

/-- **What is needed of a FIN**: it has no payload and is the next in order, or the number
it sets is the one that is expected anyway. -/
def Segment.FinInOrder (seg : Segment) (expected : UInt32) : Prop :=
  seg.has flagFin = true →
    expected = seg.fields.seq + 1 ∨ seg.payload = [] ∧ expected = seg.fields.seq

namespace TcpFlow

variable (f : TcpFlow) (seg : Segment) (start : UInt64)

theorem expectedSeq_handleFin : (f.handleFin seg start).expectedSeq =
    if seg.has flagFin then seg.fields.seq + 1 else f.expectedSeq := by
  unfold handleFin
  dsimp only
  split_ifs <;> rfl

theorem ooo_handleFin : (f.handleFin seg start).ooo = f.ooo := by
  unfold handleFin
  dsimp only
  split_ifs <;> rfl

theorem expectedSeq_handleFinAck : (f.handleFinAck seg start).expectedSeq = f.expectedSeq := by
  unfold handleFinAck
  split_ifs <;> rfl

theorem ooo_handleFinAck : (f.handleFinAck seg start).ooo = f.ooo := by
  unfold handleFinAck
  split_ifs <;> rfl

theorem expectedSeq_handleAck : (f.handleAck seg).expectedSeq = f.expectedSeq := by
  unfold handleAck
  dsimp only
  split_ifs <;> rfl

theorem ooo_handleAck : (f.handleAck seg).ooo = f.ooo := by
  unfold handleAck
  dsimp only
  split_ifs <;> rfl

end TcpFlow

/-- **A FIN in order keeps the receiver in step.** -/
theorem PeerStream.InStep.handleFin {p : PeerStream} {fin : Bool} {written : List UInt8}
    {f : TcpFlow} (h : p.InStep fin written f.expectedSeq) {seg : Segment} (hsends : p.Sends seg)
    (horder : seg.FinInOrder f.expectedSeq) (start : UInt64) :
    p.InStep (fin || seg.has flagFin) written (f.handleFin seg start).expectedSeq := by
  rw [expectedSeq_handleFin]
  split
  · next hfin =>
    rcases horder hfin with hexp | ⟨hempty, hexp⟩
    · rw [← hexp]
      exact h.mono fun hseen => by rw [hseen, Bool.true_or]
    · obtain ⟨a, hseq, -, hend⟩ := hsends
      have ha : a = p.data.length := by
        have hend := hend hfin
        rw [hempty] at hend
        exact hend
      rw [hexp, hseq, ha] at h
      rw [hfin, Bool.or_true, hseq, ha]
      exact h.fin
  · exact h.mono fun hseen => by rw [hseen, Bool.true_or]

namespace Stack

variable {s t u : Stack} {i : Fin 16}

/-- The bytes in the receive buffer of a slot. -/
def unread (s : Stack) (i : Fin 16) : List UInt8 :=
  match (s.tcpFlows i).rxBuf with
  | none => []
  | some b => (s.pool b).buf.contents

/-- Nothing that matters for receiving changes in a slot. -/
structure SameInbox (i : Fin 16) (s t : Stack) : Prop where
  expectedSeq : (t.tcpFlows i).expectedSeq = (s.tcpFlows i).expectedSeq
  ooo : (t.tcpFlows i).ooo = (s.tcpFlows i).ooo
  rxBuf : (t.tcpFlows i).rxBuf = (s.tcpFlows i).rxBuf
  pool : t.pool = s.pool

theorem SameInbox.unread (h : SameInbox i s t) : t.unread i = s.unread i := by
  rw [Stack.unread, Stack.unread, h.rxBuf, h.pool]

theorem SameInbox.trans (h : SameInbox i s t) (h' : SameInbox i t u) : SameInbox i s u :=
  ⟨h'.expectedSeq.trans h.expectedSeq, h'.ooo.trans h.ooo, h'.rxBuf.trans h.rxBuf,
    h'.pool.trans h.pool⟩

theorem sameInbox_of_core (h : t.core = s.core) : SameInbox i s t := by
  have hflows := tcpFlows_of_core h
  exact ⟨by rw [hflows], by rw [hflows], by rw [hflows], pool_of_core h⟩

theorem sameInbox_setFlow {f : TcpFlow} (he : f.expectedSeq = (s.tcpFlows i).expectedSeq)
    (ho : f.ooo = (s.tcpFlows i).ooo) (hr : f.rxBuf = (s.tcpFlows i).rxBuf) :
    SameInbox i s (s.setFlow i f) := by
  have hself := s.tcpFlows_setFlow_self i f
  exact ⟨by rw [hself, he], by rw [hself, ho], by rw [hself, hr], rfl⟩

theorem sameInbox_closeWhenIdle : SameInbox i s (s.closeWhenIdle i) := by
  unfold closeWhenIdle
  dsimp only
  split
  · exact sameInbox_setFlow rfl rfl rfl
  · exact ⟨rfl, rfl, rfl, rfl⟩

theorem sameInbox_establishFlow (seg : Segment) (start : UInt64) (peerIp : UInt32)
    (peerAddr : IpAddr) : SameInbox i s (s.establishFlow i seg start peerIp peerAddr) := by
  have hset := sameInbox_setFlow (f := { s.tcpFlows i with
    state := .established
    localSeq := seg.fields.ack
    nextSendSeq := seg.fields.ack
    lastSeenNs := start }) rfl rfl rfl
  rw [establishFlow, acceptQueueEnqueue_eq s (by rfl)]
  exact ⟨hset.expectedSeq, hset.ooo, hset.rxBuf, hset.pool⟩

/-- A call has written bytes of the stream, and the receiver is in step. -/
structure Appends (p : PeerStream) (i : Fin 16) (fin : Bool) (written : List UInt8) (s t : Stack) :
    Prop where
  appended : ∃ bs, t.unread i = s.unread i ++ bs ∧
    p.InStep fin (written ++ bs) (t.tcpFlows i).expectedSeq
  waiting : ∀ j, p.Waiting ((t.tcpFlows i).ooo j)

variable {p : PeerStream} {fin : Bool} {written : List UInt8}

theorem appends_nil (hstep : p.InStep fin written (t.tcpFlows i).expectedSeq)
    (hwait : ∀ j, p.Waiting ((t.tcpFlows i).ooo j)) (hunread : t.unread i = s.unread i) :
    Appends p i fin written s t :=
  ⟨⟨[], by rw [append_nil, hunread], by rwa [append_nil]⟩, hwait⟩

theorem Appends.sameInbox (h : Appends p i fin written s t) (hsame : SameInbox i t u) :
    Appends p i fin written s u := by
  obtain ⟨⟨bs, hbs, hstep⟩, hwait⟩ := h
  refine ⟨⟨bs, ?_, ?_⟩, ?_⟩
  · rw [hsame.unread, hbs]
  · rwa [hsame.expectedSeq]
  · rwa [hsame.ooo]

variable {seg : Segment}

section

variable (hstep : p.InStep fin written (s.tcpFlows i).expectedSeq)
  (hwait : ∀ j, p.Waiting ((s.tcpFlows i).ooo j))

include hstep hwait

/-- The delivery of a payload. -/
theorem appends_deliver (hsends : p.Sends seg) : Appends p i fin written s (s.deliver i seg) := by
  unfold deliver
  split
  · exact appends_nil hstep hwait rfl
  · next b hb =>
    split
    · exact appends_nil hstep hwait rfl
    · next hne =>
      obtain ⟨a, hseq, hp, -⟩ := hsends
      have hr : Receives p fin written (s.unread i) ⟨s.tcpFlows i, (s.pool b).buf⟩ := by
        refine ⟨⟨[], ?_, by rwa [append_nil]⟩, hwait⟩
        rw [append_nil, unread, hb]
      have hpayload := hr.payload hp hne
      have hkeeps := Receiver.keeps_payload ⟨s.tcpFlows i, (s.pool b).buf⟩ (p.seq a) seg.payload
      rw [hseq]
      generalize Receiver.payload ⟨s.tcpFlows i, (s.pool b).buf⟩ (p.seq a) seg.payload = r
        at hpayload hkeeps
      -- the slot holds the new flow and its buffer the new contents
      have hflow : ((s.setFlow i r.flow).setBuf b r.buf).tcpFlows i = r.flow :=
        s.tcpFlows_setFlow_self i r.flow
      have hunread : ((s.setFlow i r.flow).setBuf b r.buf).unread i = r.buf.contents := by
        rw [unread, hflow, rxBuf_of_endpoint hkeeps.endpoint, hb]
        simp [setBuf]
      refine ⟨?_, ?_⟩
      · rw [hunread, hflow]
        exact hpayload.appended
      · rw [hflow]
        exact hpayload.waiting

/-- **A segment of the peer for an open connection.** -/
theorem appends_openSegment (hsends : p.Sends seg)
    (horder : seg.FinInOrder (s.tcpFlows i).expectedSeq) (start : UInt64) :
    Appends p i (fin || seg.has flagFin) written s (s.openSegment i seg start) := by
  unfold openSegment
  dsimp only
  generalize hf : (handleFin { s.tcpFlows i with lastSeenNs := start } seg
    start).handleFinAck seg start = f
  have hself := s.tcpFlows_setFlow_self i f
  have hexp : f.expectedSeq =
      (handleFin { s.tcpFlows i with lastSeenNs := start } seg start).expectedSeq := by
    rw [← hf, expectedSeq_handleFinAck]
  have hooo : f.ooo = (s.tcpFlows i).ooo := by
    rw [← hf, ooo_handleFinAck, ooo_handleFin]
  have hrx : f.rxBuf = (s.tcpFlows i).rxBuf := by
    have hend := endpoint_handleFinAck
      (handleFin { s.tcpFlows i with lastSeenNs := start } seg start) seg start
    rw [hf] at hend
    exact (rxBuf_of_endpoint hend).trans
      (rxBuf_of_endpoint (endpoint_handleFin _ seg start))
  have hstep' : p.InStep (fin || seg.has flagFin) written
      ((s.setFlow i f).tcpFlows i).expectedSeq := by
    rw [hself, hexp]
    exact PeerStream.InStep.handleFin (f := { s.tcpFlows i with lastSeenNs := start }) hstep hsends
      horder start
  have hwait' : ∀ j, p.Waiting (((s.setFlow i f).tcpFlows i).ooo j) := by
    rw [hself, hooo]
    exact hwait
  have hunread : (s.setFlow i f).unread i = s.unread i := by
    rw [unread, unread, hself, hrx]
    rfl
  have hdeliver := appends_deliver hstep' hwait' hsends
  have happends :
      Appends p i (fin || seg.has flagFin) written s ((s.setFlow i f).deliver i seg) := by
    obtain ⟨⟨bs, hbs, hin⟩, hw⟩ := hdeliver
    exact ⟨⟨bs, by rw [hbs, hunread], hin⟩, hw⟩
  -- what follows concerns the own data
  refine happends.sameInbox (SameInbox.trans (sameInbox_setFlow ?_ ?_ ?_) sameInbox_closeWhenIdle)
  · exact expectedSeq_handleAck _ seg
  · exact ooo_handleAck _ seg
  · exact rxBuf_of_endpoint (endpoint_handleAck _ seg)

/-- A segment of the peer in the body of the handler. In the handshake, and after the
connection was closed, no payload is looked at. -/
theorem appends_tcpBody (hrst : seg.has flagRst = false) (hsends : p.Sends seg)
    (horder : seg.FinInOrder (s.tcpFlows i).expectedSeq) (localAddress remoteAddress : UInt32)
    (clock : Clock) (b : QueueBinding) :
    Appends p i (fin || seg.has flagFin) written s
      (tcpBody (some i) localAddress remoteAddress seg clock b s).2 := by
  have hstep' : p.InStep (fin || seg.has flagFin) written (s.tcpFlows i).expectedSeq :=
    hstep.mono fun hseen => by rw [hseen, Bool.true_or]
  simp only [tcpBody, hrst, Bool.false_eq_true, if_false]
  split_ifs with hack hopen
  · exact (appends_nil hstep' hwait rfl).sameInbox (sameInbox_establishFlow _ _ _ _)
  · exact appends_openSegment hstep hwait hsends horder clock.start
  · exact appends_nil hstep' hwait rfl

/-- A segment of the peer at the handler. If the frame is refused for another reason,
nothing happens. -/
theorem appends_processTcpFrame {frame : List UInt8} {fields : TcpFields}
    (hparsed : parseTcp frame = some fields)
    (hfound : s.findFlowByPorts fields.dstPort fields.srcPort (readU32le frame 26) = some i)
    (hrst : (segmentV4 frame fields).has flagRst = false)
    (hsends : p.Sends (segmentV4 frame fields))
    (horder : (segmentV4 frame fields).FinInOrder (s.tcpFlows i).expectedSeq) (clock : Clock) :
    Appends p i (fin || (segmentV4 frame fields).has flagFin) written s
      (s.processTcpFrame clock frame).2 := by
  have hrefused : Appends p i (fin || (segmentV4 frame fields).has flagFin) written s s :=
    appends_nil (hstep.mono fun hseen => by rw [hseen, Bool.true_or]) hwait rfl
  unfold processTcpFrame
  split
  · exact hrefused
  rw [hparsed]
  dsimp only
  rw [hfound]
  rcases s.dispatch_status_cases (s.findBinding (s.tcpFlows i).queueId) frame.length
      (tcpBody (some i) (readU32le frame 30) (readU32le frame 26) (segmentV4 frame fields) clock)
    with ⟨-, hcore⟩ | ⟨b, t, -, ht, -, hcore⟩
  · exact hrefused.sameInbox (sameInbox_of_core hcore)
  · -- the body runs on a stack with the same tables
    have hsame := sameInbox_of_core (i := i) ht
    have hbody := appends_tcpBody (hsame.expectedSeq ▸ hstep) (hsame.ooo ▸ hwait) hrst hsends
      (hsame.expectedSeq ▸ horder) (readU32le frame 30) (readU32le frame 26) clock b
    obtain ⟨⟨bs, hbs, hin⟩, hw⟩ := hbody.sameInbox (sameInbox_of_core hcore)
    exact ⟨⟨bs, by rw [← hsame.unread, ← hbs], hin⟩, hw⟩

end

/-- A call of `recv`, for this flow or another, takes bytes from the front of a buffer. -/
theorem inbox_tcpRecv (s : Stack) (i : Fin 16) (flowId : UInt32) (size : ℕ) :
    ((s.tcpRecv flowId size).2.tcpFlows i).expectedSeq = (s.tcpFlows i).expectedSeq ∧
      ((s.tcpRecv flowId size).2.tcpFlows i).ooo = (s.tcpFlows i).ooo ∧
      (s.tcpRecv flowId size).2.unread i <:+ s.unread i := by
  unfold tcpRecv
  split
  · exact ⟨rfl, rfl, suffix_rfl⟩
  · split
    · exact ⟨rfl, rfl, suffix_rfl⟩
    · next j hj b hb =>
      refine ⟨field_setFlow (s.setBuf b _) expectedSeq (by rfl) i,
        field_setFlow (s.setBuf b _) ooo (by rfl) i, ?_⟩
      rw [unread, unread, field_setFlow (s.setBuf b _) rxBuf (by rfl) i]
      dsimp only [setFlow, setBuf]
      split
      · exact suffix_rfl
      · next b' hb' =>
        rcases eq_or_ne b' b with rfl | hne
        · rw [update_self]
          dsimp only [sockbufRead]
          rw [Ring.contents_read]
          exact drop_suffix size _
        · rw [update_of_ne hne]

end Stack

/-! ### Runs -/

/-- What happens to a connection: a frame with one of its segments arrives, or the
application calls `recv`. -/
inductive Event where
  | segment (clock : Clock) (frame : List UInt8)
  | recv (flowId : UInt32) (size : ℕ)

/-- A stack with the history of one slot: all bytes ever written to its receive buffer, and
whether a FIN has arrived. -/
structure Trace where
  stack : Stack
  written : List UInt8
  fin : Bool

namespace Trace

/-- The beginning of a history. -/
def start (s : Stack) : Trace := ⟨s, [], false⟩

/-- A frame writes to the end of the buffer, so what it has written is what the buffer has
more than before. -/
def step (i : Fin 16) (t : Trace) : Event → Trace
  | .segment clock frame =>
    let s := (t.stack.processTcpFrame clock frame).2
    { stack := s
      written := t.written ++ (s.unread i).drop (t.stack.unread i).length
      fin := t.fin || (parseTcp frame).any fun fields => (segmentV4 frame fields).has flagFin }
  | .recv flowId size => { t with stack := (t.stack.tcpRecv flowId size).2 }

end Trace

/-- The frames of an event are segments of the peer for the flow in a slot. -/
def PeerStream.Drives (p : PeerStream) (i : Fin 16) (s : Stack) : Event → Prop
  | .segment _ frame => ∃ fields, parseTcp frame = some fields ∧
      s.findFlowByPorts fields.dstPort fields.srcPort (readU32le frame 26) = some i ∧
      (segmentV4 frame fields).has flagRst = false ∧ p.Sends (segmentV4 frame fields)
  | .recv _ _ => True

/-- A FIN among the events is in order. -/
def Event.FinInOrder (i : Fin 16) (s : Stack) : Event → Prop
  | .segment _ frame => ∀ fields, parseTcp frame = some fields →
      (segmentV4 frame fields).FinInOrder (s.tcpFlows i).expectedSeq
  | .recv _ _ => True

/-- The invariant of a run. -/
structure Trace.InStep (p : PeerStream) (i : Fin 16) (t : Trace) : Prop where
  inStep : p.InStep t.fin t.written (t.stack.tcpFlows i).expectedSeq
  waiting : ∀ j, p.Waiting ((t.stack.tcpFlows i).ooo j)
  unread : t.stack.unread i <:+ t.written

theorem Trace.InStep.step {p : PeerStream} {i : Fin 16} {t : Trace} (h : t.InStep p i) {e : Event}
    (hdrives : p.Drives i t.stack e) (horder : e.FinInOrder i t.stack) :
    (t.step i e).InStep p i := by
  cases e with
  | segment clock frame =>
    obtain ⟨fields, hparsed, hfound, hrst, hsends⟩ := hdrives
    obtain ⟨⟨bs, hbs, hin⟩, hwait⟩ := Stack.appends_processTcpFrame h.inStep h.waiting hparsed
      hfound hrst hsends (horder fields hparsed) clock
    have hwritten : (t.step i (.segment clock frame)).written = t.written ++ bs := by
      simp only [Trace.step, hbs, drop_left]
    have hfin : (t.step i (.segment clock frame)).fin =
        (t.fin || (segmentV4 frame fields).has flagFin) := by
      simp only [Trace.step, hparsed, Option.any_some]
    refine ⟨?_, hwait, ?_⟩
    · rw [hwritten, hfin]
      exact hin
    · obtain ⟨before, hbefore⟩ := h.unread
      rw [hwritten]
      exact ⟨before, by rw [← hbefore, append_assoc, ← hbs]; rfl⟩
  | recv flowId size =>
    obtain ⟨hexp, hooo, hunread⟩ := t.stack.inbox_tcpRecv i flowId size
    refine ⟨?_, ?_, hunread.trans h.unread⟩
    · exact (hexp ▸ h.inStep :)
    · exact (hooo ▸ h.waiting :)

/-- **A stream whose FIN comes in order is delivered without loss.** A slot starts with the
number after the initial one, an empty buffer and nothing put aside. Then after every run
of segments of the peer, in any order and any pieces, with calls of `recv` in between,
the bytes ever written are the first `k` of the stream and `expectedSeq` is the number of
the next one, or of what follows the FIN once all bytes were written. -/
theorem inStep_of_finInOrder (p : PeerStream) (i : Fin 16) (s : Stack)
    (hexp : (s.tcpFlows i).expectedSeq = p.isn + 1)
    (hooo : ∀ j, ((s.tcpFlows i).ooo j).inUse = false) (hempty : s.unread i = []) (es : List Event)
    (hrun : Along (Trace.step i) (fun t e => p.Drives i t.stack e ∧ e.FinInOrder i t.stack)
      (.start s) es) :
    let t := es.foldl (Trace.step i) (.start s)
    p.InStep t.fin t.written (t.stack.tcpFlows i).expectedSeq ∧ t.stack.unread i <:+ t.written := by
  have hstart : (Trace.start s).InStep p i := by
    refine ⟨⟨0, Nat.zero_le _, rfl, .inl ?_⟩, ?_, ?_⟩
    · exact hexp.trans (UInt32.add_zero _).symm
    · intro j hj
      rw [Trace.start, hooo j] at hj
      nomatch hj
    · rw [Trace.start, hempty]
  have hend := hrun.foldl_induct hstart
    fun t e ht he => ht.step he.1 he.2
  exact ⟨hend.inStep, hend.unread⟩

/-! ### A connection -/

/-- A segment to port 80 with its sequence number, checksums left out. -/
def streamFrame (flags seq : UInt8) (payload : List UInt8) : List UInt8 :=
  [0, 0, 0, 0, 0, 0, 0, 0, 0, 0, 0, 0, 8, 0,
    0x45, 0, 0, UInt8.ofNat (40 + payload.length), 0, 0, 0, 0, 64, 6, 0, 0, 10, 0, 2, 15, 10, 0,
    2, 2,
    0x1f, 1, 0, 80, 0, 0, 0, seq, 0, 0, 0, 1, 0x50, flags, 0, 0, 0, 0, 0, 0] ++ payload

/-- A stack with one connection, in slot 0, whose peer started at sequence number 1. -/
def connectedStack : Stack :=
  runCalls .boot [.bindQueue 0 1 1, .registerListener 80 3,
    .tcpFrame ⟨1000, 1001⟩ (streamFrame flagSyn 1 []),
    .tcpFrame ⟨2000, 2001⟩ (streamFrame flagAck 2 [])]

/-- Two bytes, and the FIN after them. -/
def twoBytes : PeerStream := ⟨[104, 105], 1, by decide⟩

/-- The second byte comes first, then the first one; the application reads one byte; then
comes the FIN. -/
def reordered : List Event :=
  [.segment ⟨3000, 3001⟩ (streamFrame flagAck 3 [105]),
    .segment ⟨4000, 4001⟩ (streamFrame flagAck 2 [104]), .recv 1 1,
    .segment ⟨5000, 5001⟩ (streamFrame (flagFin ||| flagAck) 4 [])]

theorem inStep_of_finInOrder_reordered :
    let t := reordered.foldl (Trace.step 0) (.start connectedStack)
    (connectedStack.tcpFlows 0).state = .established ∧
      twoBytes.InStep t.fin t.written (t.stack.tcpFlows 0).expectedSeq ∧
      t.stack.unread 0 <:+ t.written := by
  refine ⟨by decide +kernel, inStep_of_finInOrder twoBytes 0 connectedStack (by decide +kernel)
    (by decide +kernel) (by decide +kernel) reordered ⟨⟨?_, ?_⟩, ⟨?_, ?_⟩, ⟨trivial, trivial⟩,
      ⟨?_, ?_⟩, trivial⟩⟩
  · exact ⟨tcpFields (streamFrame flagAck 3 [105]) 34, by decide +kernel, by decide +kernel,
      by decide +kernel, 1, by decide +kernel, ⟨[], by decide +kernel⟩, by decide +kernel⟩
  · intro fields hfields hfin
    obtain rfl : tcpFields (streamFrame flagAck 3 [105]) 34 = fields :=
      Option.some.inj ((by decide +kernel : some _ = parseTcp _).trans hfields)
    exact absurd hfin (by decide +kernel)
  · exact ⟨tcpFields (streamFrame flagAck 2 [104]) 34, by decide +kernel, by decide +kernel,
      by decide +kernel, 0, by decide +kernel, ⟨[105], by decide +kernel⟩, by decide +kernel⟩
  · intro fields hfields hfin
    obtain rfl : tcpFields (streamFrame flagAck 2 [104]) 34 = fields :=
      Option.some.inj ((by decide +kernel : some _ = parseTcp _).trans hfields)
    exact absurd hfin (by decide +kernel)
  · exact ⟨tcpFields (streamFrame (flagFin ||| flagAck) 4 []) 34, by decide +kernel,
      by decide +kernel, by decide +kernel, 2, by decide +kernel, ⟨[], by decide +kernel⟩,
      by decide +kernel⟩
  · intro fields hfields _
    obtain rfl : tcpFields (streamFrame (flagFin ||| flagAck) 4 []) 34 = fields :=
      Option.some.inj ((by decide +kernel : some _ = parseTcp _).trans hfields)
    exact .inr (by decide +kernel)

/-- One segment with both bytes and the FIN: `expectedSeq` moves to the second byte, and
nothing is written. -/
theorem not_inStep_of_fin_payload :
    let e := Event.segment ⟨3000, 3001⟩ (streamFrame (flagFin ||| flagAck) 2 [104, 105])
    let t := (Trace.start connectedStack).step 0 e
    (connectedStack.tcpFlows 0).state = .established ∧ twoBytes.Drives 0 connectedStack e ∧
      (t.stack.tcpFlows 0).expectedSeq = twoBytes.isn + 1 + 1 ∧ t.written = [] ∧
      ¬twoBytes.InStep t.fin t.written (t.stack.tcpFlows 0).expectedSeq := by
  intro e t
  have hexp : (t.stack.tcpFlows 0).expectedSeq = twoBytes.isn + 1 + 1 := by decide +kernel
  have hwritten : t.written = [] := by decide +kernel
  refine ⟨by decide +kernel, ?_, hexp, hwritten, ?_⟩
  · exact ⟨tcpFields (streamFrame (flagFin ||| flagAck) 2 [104, 105]) 34, by decide +kernel,
      by decide +kernel, by decide +kernel, 0, by decide +kernel, ⟨[], by decide +kernel⟩,
      by decide +kernel⟩
  · rintro ⟨k, hk, hw, hpos⟩
    -- nothing was written, so `k` is zero and the first byte would be expected
    have hzero : k = 0 := by
      have hlen : 0 = (twoBytes.data.take k).length := congrArg length (hwritten.symm.trans hw)
      rw [length_take, show twoBytes.data.length = 2 from rfl] at hlen
      omega
    subst hzero
    rw [hexp] at hpos
    rcases hpos with hseq | ⟨hend, -, -⟩
    · exact absurd hseq (by decide)
    · nomatch hend

end Xaios.Net
