import Xaios.Foundation.Stream
import Xaios.Net.Close
import Xaios.Net.Pool

/-!
# The bytes that go out

What `network_stack_tcp_send` accepts and what `tcp_drain_pending` makes of it, when the
driver may refuse a frame. A round takes up to `NETWORK_TCP_MSS` bytes out of the send
buffer and moves `next_send_seq` past them before it calls `virtio_net_tx`, whose result
it does not look at.

So the bytes accepted so far are those transmitted, in order and without a gap, and those
still in the buffer (`Net.Outbound.Intact`) exactly as long as every data segment of
the flow was transmitted (`Net.outbound_intact_iff`).
-/

namespace Xaios.Net

open Foundation Function List OutSegment Sender

/-! ### One flow -/

/-- The states in which data is accepted and sent. -/
def TcpFlow.Sends (f : TcpFlow) : Prop := f.state = .established ∨ f.state = .closeWait

/-- A segment with data. -/
def OutSegment.isData (seg : OutSegment) : Bool := !seg.payload.isEmpty

namespace Sender

variable {p q r : Sender}

/-- A part of the drain in which no data goes out. -/
structure Silent (p q : Sender) : Prop where
  sent : q.sent.filter OutSegment.isData = p.sent.filter OutSegment.isData
  buf : q.buf = p.buf
  next : q.flow.Sends → p.flow.Sends ∧ q.flow.nextSendSeq = p.flow.nextSendSeq

theorem Silent.refl (p : Sender) : Silent p p := ⟨rfl, rfl, fun h => ⟨h, rfl⟩⟩

theorem Silent.trans (h : Silent p q) (h' : Silent q r) : Silent p r where
  sent := h'.sent.trans h.sent
  buf := h'.buf.trans h.buf
  next hr := by
    obtain ⟨hq, heq⟩ := h'.next hr
    obtain ⟨hp, heq'⟩ := h.next hq
    exact ⟨hp, heq.trans heq'⟩

theorem silent_synack (p : Sender) : Silent p p.synack := by
  unfold synack
  split
  · exact ⟨by simp [send, isData], rfl, fun h => ⟨h, rfl⟩⟩
  · exact .refl p

theorem silent_ack (p : Sender) : Silent p p.ack := by
  unfold ack
  split
  · exact ⟨by simp [send, isData], rfl, fun h => ⟨h, rfl⟩⟩
  · exact .refl p

/-- After the FIN a flow sends no data. -/
theorem silent_fin (p : Sender) : Silent p p.fin := by
  unfold fin
  split
  · refine ⟨by simp [send, isData], rfl, fun hsends => ?_⟩
    exfalso
    by_cases hest : p.flow.state = .established
    · simp [TcpFlow.Sends, send, hest] at hsends
    · by_cases hwait : p.flow.state = .closeWait
      · simp [TcpFlow.Sends, send, hwait] at hsends
      · simp [TcpFlow.Sends, send, hest, hwait] at hsends
  · exact .refl p

/-- What a flow with its send buffer emits. -/
inductive Emits (f : TcpFlow) (buf : Option SocketBuffer) (q : Sender) : Prop where
  /-- Nothing. -/
  | nothing (hsent : q.sent.filter OutSegment.isData = []) (hbuf : q.buf = buf)
      (hnext : q.flow.Sends → f.Sends ∧ q.flow.nextSendSeq = f.nextSendSeq)
  /-- The first bytes of the buffer, which are gone from it. -/
  | segment (b b' : SocketBuffer) (seg : OutSegment) (hsends : f.Sends) (hbuf : buf = some b)
      (hsent : q.sent.filter OutSegment.isData = [seg]) (hseq : seg.seq = f.nextSendSeq)
      (hload : seg.payload = b.contents.take tcpMss) (hne : seg.payload ≠ [])
      (hbuf' : q.buf = some b') (hrest : b'.contents = b.contents.drop tcpMss)
      (hnext : q.flow.Sends → q.flow.nextSendSeq = f.nextSendSeq + UInt32.ofNat seg.payload.length)

/-- **One round for one flow.** -/
theorem emits_drain (f : TcpFlow) (buf : Option SocketBuffer) :
    Emits f buf (Sender.drain ⟨f, buf, []⟩) := by
  have hsyn := silent_synack ⟨f, buf, []⟩
  obtain ⟨q, hq⟩ : ∃ q, synack ⟨f, buf, []⟩ = q := ⟨_, rfl⟩
  have htail := (silent_ack q.data).trans (silent_fin _)
  rw [hq] at hsyn
  have hdrain : drain ⟨f, buf, []⟩ = q.data.ack.fin := by rw [drain, hq]
  rw [hdrain]
  have hquiet : q.data = q → Emits f buf q.data.ack.fin := by
    intro hsame
    rw [hsame] at htail ⊢
    have hall := hsyn.trans htail
    exact .nothing hall.sent hall.buf hall.next
  rcases hbuf : q.buf with _ | b
  · exact hquiet (by simp only [data, hbuf])
  · by_cases hcond : 0 < sockbufUsed b ∧
        (q.flow.state = .established ∨ q.flow.state = .closeWait)
    · obtain ⟨hsends, hnext⟩ := hsyn.next hcond.2
      -- the segment is not empty, as the buffer is not
      have hne : (sockbufRead b tcpMss).1 ≠ [] := by
        have hpos : 0 < b.contents.length := by
          rw [Ring.length_contents]
          exact hcond.1
        rw [sockbufRead, Ring.read_eq, ne_eq, take_eq_nil_iff, not_or]
        exact ⟨by decide, ne_nil_of_length_pos hpos⟩
      simp only [data, hbuf, if_pos hcond, send] at htail ⊢
      refine .segment b (sockbufRead b tcpMss).2
        ⟨q.flow.nextSendSeq, q.flow.expectedSeq, flagAck ||| flagPsh, q.flow.windowSize,
          (sockbufRead b tcpMss).1⟩
        hsends (hsyn.buf.symm.trans hbuf) ?_ hnext (b.read_eq tcpMss) hne htail.buf
        (b.contents_read tcpMss) ?_
      · rw [htail.sent, filter_append, hsyn.sent]
        simp [isData, hne]
      · intro hsends
        rw [(htail.next hsends).2]
        exact congrArg (· + UInt32.ofNat (sockbufRead b tcpMss).1.length) hnext
    · exact hquiet (by simp only [data, hbuf, if_neg hcond])

end Sender

/-! ### One round -/

namespace Stack

variable {s t : Stack} {i k : Fin 16}

/-- The bytes in the send buffer of a slot. -/
def unsent (s : Stack) (i : Fin 16) : List UInt8 :=
  match (s.tcpFlows i).txBuf with
  | none => []
  | some b => (s.pool b).buf.contents

/-- The send buffer of a slot is its own. -/
def OwnTx (i : Fin 16) (s : Stack) : Prop :=
  ∀ k b, (s.tcpFlows i).txBuf = some b → (s.tcpFlows k).txBuf = some b → k = i

/-- The data segments of a slot. -/
def dataOf (i : Fin 16) (segs : List (Fin 16 × OutSegment)) : List OutSegment :=
  (segs.filter fun p => p.1 = i && p.2.isData).map Prod.snd

theorem dataOf_append (i : Fin 16) (l m : List (Fin 16 × OutSegment)) :
    dataOf i (l ++ m) = dataOf i l ++ dataOf i m := by
  simp [dataOf]

theorem dataOf_self (i : Fin 16) (segs : List OutSegment) :
    dataOf i (segs.map fun seg => (i, seg)) = segs.filter OutSegment.isData := by
  induction segs with
  | nil => rfl
  | cons seg segs ih =>
    rw [map_cons, filter_cons, ← ih]
    cases hseg : seg.isData <;> simp [dataOf, hseg]

/-- What a round does to one slot: the data segments handed to the driver, and what is
left. -/
inductive Round (i : Fin 16) (s t : Stack) : List OutSegment → Prop where
  /-- No data goes out. -/
  | nothing (hrest : t.unsent i = s.unsent i)
      (hnext : (t.tcpFlows i).Sends → (s.tcpFlows i).Sends ∧
        (t.tcpFlows i).nextSendSeq = (s.tcpFlows i).nextSendSeq) : Round i s t []
  /-- The first bytes go out. -/
  | segment (seg : OutSegment) (hsends : (s.tcpFlows i).Sends)
      (hseq : seg.seq = (s.tcpFlows i).nextSendSeq)
      (hload : s.unsent i = seg.payload ++ t.unsent i) (hne : seg.payload ≠ [])
      (hnext : (t.tcpFlows i).Sends → (t.tcpFlows i).nextSendSeq =
        (s.tcpFlows i).nextSendSeq + UInt32.ofNat seg.payload.length) : Round i s t [seg]

variable {resolve : Fin 16 → Option (Fin 6 → UInt8)} {r : List (Fin 16 × OutSegment) × Stack}

/-- The flow and the send buffer that the drain of a slot works on. -/
def sender (s : Stack) (k : Fin 16) (mac : Fin 6 → UInt8) : Sender :=
  ⟨{ s.tcpFlows k with remoteMac := some mac },
    (s.tcpFlows k).txBuf.map fun b => (s.pool b).buf, []⟩

/-- The flow and the send buffer put back. -/
def putSender (s : Stack) (k : Fin 16) (p : Sender) : Stack :=
  match (s.tcpFlows k).txBuf, p.buf with
  | some b, some buf => (s.setFlow k p.flow).setBuf b buf
  | _, _ => s.setFlow k p.flow

variable (resolve : Fin 16 → Option (Fin 6 → UInt8))

/-- The drain of one slot: nothing, or the flow with its send buffer is drained. -/
theorem drainFlow_cases (r : List (Fin 16 × OutSegment) × Stack) (k : Fin 16) :
    drainFlow resolve r k = r ∨ ∃ mac, drainFlow resolve r k =
      (r.1 ++ (r.2.sender k mac).drain.sent.map fun seg => (k, seg),
        r.2.putSender k (r.2.sender k mac).drain) := by
  unfold drainFlow
  dsimp only
  split
  · exact .inl rfl
  · split
    · exact .inl rfl
    · next mac hmac => exact .inr ⟨mac, rfl⟩

theorem tcpFlows_putSender (s : Stack) (k : Fin 16) (p : Sender) :
    (s.putSender k p).tcpFlows = update s.tcpFlows k p.flow := by
  unfold putSender
  split <;> rfl

/-- What is left in the send buffer of the slot. -/
theorem unsent_putSender {p : Sender} {b : Fin 32} {buf : SocketBuffer}
    (htx : (s.tcpFlows k).txBuf = some b) (hflow : p.flow.txBuf = (s.tcpFlows k).txBuf)
    (hbuf : p.buf = some buf) : (s.putSender k p).unsent k = buf.contents := by
  rw [htx] at hflow
  simp [unsent, putSender, htx, hbuf, setBuf, hflow]

theorem unsent_of_txBuf (h : (s.tcpFlows k).txBuf = none) : s.unsent k = [] := by
  rw [unsent, h]

/-- The flows keep their buffers. -/
theorem txBuf_drainFlow (r : List (Fin 16 × OutSegment) × Stack) (k j : Fin 16) :
    ((drainFlow resolve r k).2.tcpFlows j).txBuf = (r.2.tcpFlows j).txBuf := by
  rcases drainFlow_cases resolve r k with heq | ⟨mac, heq⟩
  · rw [heq]
  · rw [heq, tcpFlows_putSender]
    rcases eq_or_ne j k with rfl | hne
    · rw [update_self]
      exact TcpFlow.txBuf_of_endpoint (continues_drain (r.2.sender j mac)).endpoint
    · rw [update_of_ne hne]

theorem OwnTx.drainFlow (h : OwnTx i r.2) (resolve : Fin 16 → Option (Fin 6 → UInt8))
    (k : Fin 16) : OwnTx i (drainFlow resolve r k).2 := by
  intro j b hi hj
  rw [txBuf_drainFlow] at hi hj
  exact h j b hi hj

/-- The drain of another slot. -/
structure Aside (i : Fin 16) (r r' : List (Fin 16 × OutSegment) × Stack) : Prop where
  data : dataOf i r'.1 = dataOf i r.1
  flow : r'.2.tcpFlows i = r.2.tcpFlows i
  unsent : r'.2.unsent i = r.2.unsent i

theorem aside_drainFlow (hk : k ≠ i) (hown : OwnTx i r.2)
    (resolve : Fin 16 → Option (Fin 6 → UInt8)) : Aside i r (drainFlow resolve r k) := by
  rcases drainFlow_cases resolve r k with heq | ⟨mac, heq⟩
  · rw [heq]
    exact ⟨rfl, rfl, rfl⟩
  · have hflow : (drainFlow resolve r k).2.tcpFlows i = r.2.tcpFlows i := by
      rw [heq, tcpFlows_putSender, update_of_ne hk.symm]
    refine ⟨?_, hflow, ?_⟩
    · rw [heq, dataOf_append]
      simp [dataOf, hk]
    · -- the buffer that is written is not the one of the slot
      rw [Stack.unsent, Stack.unsent, hflow]
      rcases htx : (r.2.tcpFlows i).txBuf with _ | b
      · rfl
      · rw [heq, putSender]
        dsimp only
        split
        · next b' buf hk' hbuf =>
          have hne : b ≠ b' := by
            rintro rfl
            exact hk (hown k b htx hk')
          simp only [setBuf, update_of_ne hne]
          rfl
        · rfl

theorem round_drainFlow (r : List (Fin 16 × OutSegment) × Stack) (i : Fin 16) :
    ∃ segs, Round i r.2 (drainFlow resolve r i).2 segs ∧
      dataOf i (drainFlow resolve r i).1 = dataOf i r.1 ++ segs := by
  rcases drainFlow_cases resolve r i with heq | ⟨mac, heq⟩
  · rw [heq]
    exact ⟨[], .nothing rfl fun h => ⟨h, rfl⟩, (append_nil _).symm⟩
  · have htx := txBuf_drainFlow resolve r i i
    have hflow : (drainFlow resolve r i).2.tcpFlows i = (r.2.sender i mac).drain.flow := by
      rw [heq, tcpFlows_putSender, update_self]
    have hdata : dataOf i (drainFlow resolve r i).1 = dataOf i r.1 ++
        (r.2.sender i mac).drain.sent.filter isData := by
      rw [heq, dataOf_append, dataOf_self]
    refine ⟨_, ?_, hdata⟩
    have hkeep : (r.2.sender i mac).drain.flow.txBuf = (r.2.tcpFlows i).txBuf := by
      rw [← hflow, htx]
    have hemits : Emits { r.2.tcpFlows i with remoteMac := some mac }
        ((r.2.tcpFlows i).txBuf.map fun b => (r.2.pool b).buf) (r.2.sender i mac).drain :=
      emits_drain _ _
    cases hemits with
    | nothing hsent hbuf hnext =>
      rw [hsent]
      refine .nothing ?_ ?_
      · rcases hcase : (r.2.tcpFlows i).txBuf with _ | b
        · rw [unsent_of_txBuf (htx.trans hcase), unsent_of_txBuf hcase]
        · rw [hcase, Option.map_some] at hbuf
          rw [heq, unsent_putSender hcase hkeep hbuf, unsent, hcase]
      · rw [hflow]
        exact hnext
    | segment b b' seg hsends hbuf hsent hseq hload hne hbuf' hrest hnext =>
      obtain ⟨c, hcase, rfl⟩ := Option.map_eq_some_iff.mp hbuf
      rw [hsent]
      refine .segment seg hsends hseq ?_ hne ?_
      · rw [heq, unsent_putSender hcase hkeep hbuf', unsent, hcase, hrest, hload,
          take_append_drop]
      · rw [hflow]
        exact hnext

/-- **A round of `tcp_drain_pending`**: the slots before and after leave this one alone. -/
theorem round_tcpDrainPending (hown : OwnTx i s) (resolve : Fin 16 → Option (Fin 6 → UInt8)) :
    Round i s (s.tcpDrainPending resolve).2 (dataOf i (s.tcpDrainPending resolve).1) ∧
      OwnTx i (s.tcpDrainPending resolve).2 := by
  have haside : ∀ (ks : List (Fin 16)) (r : List (Fin 16 × OutSegment) × Stack), i ∉ ks →
      OwnTx i r.2 → Aside i r (ks.foldl (drainFlow resolve) r) ∧
        OwnTx i (ks.foldl (drainFlow resolve) r).2 := by
    intro ks
    induction ks with
    | nil => exact fun r _ hr => ⟨⟨rfl, rfl, rfl⟩, hr⟩
    | cons k ks ih =>
      intro r hk hr
      rw [mem_cons, not_or] at hk
      have hstep := aside_drainFlow (Ne.symm hk.1) hr resolve
      obtain ⟨hrest, hown'⟩ := ih _ hk.2 (hr.drainFlow resolve k)
      exact ⟨⟨hrest.data.trans hstep.data, hrest.flow.trans hstep.flow,
        hrest.unsent.trans hstep.unsent⟩, hown'⟩
  obtain ⟨pre, post, hsplit⟩ := append_of_mem (mem_finRange i)
  have hnodup := nodup_finRange 16
  rw [hsplit, nodup_append] at hnodup
  obtain ⟨-, htail, hdisjoint⟩ := hnodup
  have hpre : i ∉ pre := fun h => hdisjoint i h i mem_cons_self rfl
  have hpost : i ∉ post := (nodup_cons.mp htail).1
  -- before the slot, the slot itself, after the slot
  obtain ⟨hbefore, hown₁⟩ := haside pre ([], s) hpre hown
  obtain ⟨segs, hround, hdata⟩ :=
    round_drainFlow resolve (pre.foldl (drainFlow resolve) ([], s)) i
  obtain ⟨hafter, hown₂⟩ := haside post _ hpost (hown₁.drainFlow resolve i)
  have hall : s.tcpDrainPending resolve = post.foldl (drainFlow resolve)
      (drainFlow resolve (pre.foldl (drainFlow resolve) ([], s)) i) := by
    rw [tcpDrainPending, hsplit, foldl_append, foldl_cons]
  rw [hall, hafter.data, hdata, hbefore.data]
  refine ⟨?_, hown₂⟩
  cases hround with
  | nothing hrest hnext =>
    refine .nothing ?_ ?_
    · rw [hafter.unsent, hrest, hbefore.unsent]
    · rw [hafter.flow, ← hbefore.flow]
      exact hnext
  | segment seg hsends hseq hload hne hnext =>
    refine .segment seg (hbefore.flow ▸ hsends) ?_ ?_ hne ?_
    · rw [hseq, hbefore.flow]
    · rw [hafter.unsent, ← hload, hbefore.unsent]
    · rw [hafter.flow, ← hbefore.flow]
      exact hnext

/-! ### Accepting data -/

/-- The slot that `network_stack_tcp_send` writes to. -/
def sendSlot (s : Stack) (flowId : UInt32) : Option (Fin 16) :=
  (finRange 16).find? fun i => (s.tcpFlows i).flowId == flowId &&
    ((s.tcpFlows i).state = .established || (s.tcpFlows i).state = .closeWait)

/-- The bytes that `network_stack_tcp_send` accepts for a slot. -/
def accepts (s : Stack) (i : Fin 16) (flowId : UInt32) (data : List UInt8) : List UInt8 :=
  if s.sendSlot flowId = some i then data.take ((s.tcpSend flowId data).2.1.getD 0) else []

/-- **What is accepted goes to the end of the send buffer.** -/
theorem unsent_tcpSend (hown : OwnTx i s) (flowId : UInt32) (data : List UInt8) :
    (s.tcpSend flowId data).2.2.tcpFlows = s.tcpFlows ∧
      (s.tcpSend flowId data).2.2.unsent i = s.unsent i ++ s.accepts i flowId data := by
  unfold accepts
  rcases hslot : s.sendSlot flowId with _ | j
  · rw [sendSlot] at hslot
    simp [tcpSend, hslot]
  · rw [sendSlot] at hslot
    rcases htx : (s.tcpFlows j).txBuf with _ | b
    · simp [tcpSend, hslot, htx]
    · simp only [tcpSend, hslot, htx]
      refine ⟨rfl, ?_⟩
      by_cases hj : j = i
      · subst hj
        simp [unsent, setBuf, htx, sockbufWrite, Ring.contents_write, take_eq_take_min,
          Nat.min_comm]
      · have hsame : (s.setBuf b (sockbufWrite (s.pool b).buf data).2).unsent i = s.unsent i := by
          rcases hi : (s.tcpFlows i).txBuf with _ | b'
          · rw [unsent_of_txBuf (s := s.setBuf b _) hi, unsent_of_txBuf hi]
          · have hne : b' ≠ b := by
              rintro rfl
              exact hj (hown j b' hi htx)
            simp [unsent, setBuf, hi, update_of_ne hne]
        rw [hsame, if_neg (fun h => hj (Option.some.inj h)), append_nil]

/-- The data segments of a slot that a round hands to the driver, each with the place of its
transmission in the round. -/
def handed (s : Stack) (i : Fin 16) (resolve : Fin 16 → Option (Fin 6 → UInt8)) :
    List (OutSegment × ℕ) :=
  ((s.tcpDrainPending resolve).1.zipIdx.filter fun p => p.1.1 = i && p.1.2.isData).map fun p =>
    (p.1.2, p.2)

theorem map_fst_handed (s : Stack) (i : Fin 16) (resolve : Fin 16 → Option (Fin 6 → UInt8)) :
    (s.handed i resolve).map Prod.fst = dataOf i (s.tcpDrainPending resolve).1 := by
  obtain ⟨l, hl⟩ : ∃ l, (s.tcpDrainPending resolve).1 = l := ⟨_, rfl⟩
  rw [handed, dataOf, hl, map_map]
  nth_rewrite 2 [← zipIdx_map_fst 0 l]
  rw [filter_map, map_map]
  rfl

end Stack

open Stack

/-! ### Runs -/

/-- A call of `network_stack_tcp_send`, or a round of `tcp_drain_pending` with the results
of `virtio_net_tx` for its segments one after the other. -/
inductive TxEvent where
  | send (flowId : UInt32) (data : List UInt8)
  | drain (resolve : Fin 16 → Option (Fin 6 → UInt8)) (ok : ℕ → Bool)

/-- A stack with what was accepted for a flow and what was transmitted of it. -/
structure Outbound where
  stack : Stack
  accepted : List UInt8
  sent : List OutSegment

/-- An event, seen from a slot. -/
def Outbound.exec (i : Fin 16) (o : Outbound) : TxEvent → Outbound
  | .send flowId data =>
    { stack := (o.stack.tcpSend flowId data).2.2
      accepted := o.accepted ++ o.stack.accepts i flowId data
      sent := o.sent }
  | .drain resolve ok =>
    { stack := (o.stack.tcpDrainPending resolve).2
      accepted := o.accepted
      sent := o.sent ++ ((o.stack.handed i resolve).filter fun p => ok p.2).map Prod.fst }

/-- The flow as it is: what is in its send buffer was accepted and not sent. -/
def Outbound.start (s : Stack) (i : Fin 16) : Outbound := ⟨s, s.unsent i, []⟩

/-- Every data segment of the slot is transmitted. -/
def TxEvent.Transmitted (i : Fin 16) (o : Outbound) : TxEvent → Prop
  | .send _ _ => True
  | .drain resolve ok => ∀ p ∈ o.stack.handed i resolve, ok p.2 = true

/-- The bytes of some segments. -/
def payloads (segs : List OutSegment) : List UInt8 := segs.flatMap OutSegment.payload

/-- Each segment has the number that follows the one before. -/
def InOrder (base : UInt32) : List OutSegment → Prop
  | [] => True
  | seg :: segs => seg.seq = base ∧ InOrder (base + UInt32.ofNat seg.payload.length) segs

theorem InOrder.append {base : UInt32} {segs : List OutSegment} {seg : OutSegment}
    (h : InOrder base segs) (hseq : seg.seq = seqAt base (payloads segs).length) :
    InOrder base (segs ++ [seg]) := by
  induction segs generalizing base with
  | nil =>
    refine ⟨hseq.trans ?_, trivial⟩
    exact UInt32.add_zero base
  | cons first segs ih =>
    refine ⟨h.1, ih h.2 ?_⟩
    have hlen : (payloads (first :: segs)).length =
        first.payload.length + (payloads segs).length := by
      simp [payloads]
    rw [hseq, hlen, seqAt, seqAt, UInt32.ofNat_add, UInt32.add_assoc]

/-- **The outbound stream is intact**: the segments transmitted follow each other without a
gap, their bytes and those in the send buffer are what was accepted, and the next number
is that of the first byte in the buffer. -/
structure Outbound.Intact (i : Fin 16) (base : UInt32) (o : Outbound) : Prop where
  inOrder : InOrder base o.sent
  bytes : payloads o.sent ++ o.stack.unsent i = o.accepted
  next : (o.stack.tcpFlows i).Sends →
    (o.stack.tcpFlows i).nextSendSeq = seqAt base (payloads o.sent).length

variable {i : Fin 16} {base : UInt32} {o : Outbound}

theorem Outbound.Intact.send (h : o.Intact i base) (hown : OwnTx i o.stack) (flowId : UInt32)
    (data : List UInt8) :
    (o.exec i (.send flowId data)).Intact i base ∧
      OwnTx i (o.exec i (.send flowId data)).stack := by
  obtain ⟨hflows, hunsent⟩ := unsent_tcpSend hown flowId data
  refine ⟨⟨h.inOrder, ?_, ?_⟩, ?_⟩
  · rw [Outbound.exec, hunsent, ← append_assoc, h.bytes]
  · rw [Outbound.exec, hflows]
    exact h.next
  · rw [Outbound.exec, OwnTx, hflows]
    exact hown

/-- **A round keeps the stream intact exactly when its data segment is transmitted.** -/
theorem Outbound.Intact.round_iff (h : o.Intact i base) {t : Stack} {hs : List (OutSegment × ℕ)}
    (hround : Round i o.stack t (hs.map Prod.fst)) (ok : ℕ → Bool) :
    Outbound.Intact i base
        ⟨t, o.accepted, o.sent ++ (hs.filter fun p => ok p.2).map Prod.fst⟩ ↔
      ∀ p ∈ hs, ok p.2 = true := by
  obtain ⟨segs, hsegs⟩ : ∃ segs, hs.map Prod.fst = segs := ⟨_, rfl⟩
  rw [hsegs] at hround
  cases hround with
  | nothing hrest hnext =>
    obtain rfl := map_eq_nil_iff.mp hsegs
    refine iff_of_true ⟨?_, ?_, fun hsends => ?_⟩ (fun _ hp => nomatch hp)
    · simpa using h.inOrder
    · simpa [hrest] using h.bytes
    · obtain ⟨hbefore, heq⟩ := hnext hsends
      simpa [heq] using h.next hbefore
  | segment seg hsends hseq hload hne hnext =>
    obtain ⟨⟨seg', m⟩, rest, rfl, rfl, hrest⟩ := map_eq_cons_iff.mp hsegs
    obtain rfl := map_eq_nil_iff.mp hrest
    cases hok : ok m with
    | true =>
      refine iff_of_true ⟨?_, ?_, fun hsends' => ?_⟩ (by simp [hok])
      · simp only [filter_cons, hok, if_true, filter_nil, map_cons, map_nil]
        exact h.inOrder.append (hseq.trans (h.next hsends))
      · have hbytes := h.bytes
        rw [hload] at hbytes
        simpa [hok, payloads] using hbytes
      · rw [hnext hsends', h.next hsends, seqAt_add]
        simp [hok, payloads]
    | false =>
      -- the bytes are neither in the buffer nor on the wire
      refine iff_of_false (fun hintact => ?_) (by simp [hok])
      have hlost := congrArg length (hintact.bytes.trans h.bytes.symm)
      rw [hload] at hlost
      have hpos : 0 < seg'.payload.length := length_pos_of_ne_nil hne
      simp only [filter_cons, hok, Bool.false_eq_true, if_false, filter_nil,
        map_nil, append_nil, length_append] at hlost
      omega

theorem Outbound.Intact.drain_iff (h : o.Intact i base) (hown : OwnTx i o.stack)
    (resolve : Fin 16 → Option (Fin 6 → UInt8)) (ok : ℕ → Bool) :
    (o.exec i (.drain resolve ok)).Intact i base ↔
      (TxEvent.drain resolve ok).Transmitted i o := by
  obtain ⟨hround, -⟩ := round_tcpDrainPending hown resolve
  rw [← map_fst_handed] at hround
  exact h.round_iff hround ok

theorem ownTx_drain (hown : OwnTx i o.stack) (resolve : Fin 16 → Option (Fin 6 → UInt8))
    (ok : ℕ → Bool) : OwnTx i (o.exec i (.drain resolve ok)).stack := by
  obtain ⟨-, hown'⟩ := round_tcpDrainPending hown resolve
  -- the projection is taken by `simp`: the unifier would evaluate the round
  simpa only [Outbound.exec] using hown'

/-- In every run the send buffer of a slot is its own. -/
theorem ownTx_runCalls (cs : List Call) (i : Fin 16) : OwnTx i (runCalls boot cs) := by
  intro k b hi hk
  have heq := (sound_runCalls cs).distinct (.tx k) (.tx i) b hk hi
  exact BufField.tx.inj heq

/-- **Integrity of the outbound stream.** From every stack that is reached, for every flow
and every sequence of sends and rounds with any results of the driver, the stream is
intact in every state exactly when every data segment of the flow was transmitted. -/
theorem outbound_intact_iff (cs : List Call) (i : Fin 16) (es : List TxEvent) :
    let s := runCalls boot cs
    Along (Outbound.exec i) (fun o e => (o.exec i e).Intact i (s.tcpFlows i).nextSendSeq)
        (Outbound.start s i) es ↔
      Along (Outbound.exec i) (fun o e => e.Transmitted i o) (Outbound.start s i) es := by
  intro s
  refine Along.congr (I := fun o => o.Intact i (s.tcpFlows i).nextSendSeq ∧ OwnTx i o.stack)
    ⟨⟨trivial, rfl, fun _ => (UInt32.add_zero _).symm⟩, ownTx_runCalls cs i⟩ ?_ ?_ es
  · rintro o e ⟨hintact, hown⟩ htx
    cases e with
    | send flowId data => exact hintact.send hown flowId data
    | drain resolve ok =>
      exact ⟨(hintact.drain_iff hown resolve ok).mpr htx, ownTx_drain hown resolve ok⟩
  · rintro o e ⟨hintact, hown⟩
    cases e with
    | send flowId data => exact iff_of_true (hintact.send hown flowId data).1 trivial
    | drain resolve ok => exact hintact.drain_iff hown resolve ok

/-- Two bytes are accepted and a round takes them out, but the driver refuses the frame;
then a third byte is sent. -/
def refusedRound : List TxEvent :=
  [.send 1 [10, 11], .drain (fun _ => none) (fun _ => false), .send 1 [12],
    .drain (fun _ => none) (fun _ => true)]

/-- **The bytes of a refused frame are lost**: the only segment on the wire has the third
byte, two numbers past the first, and nothing is left in the buffer. -/
theorem bytes_lost_by_refusal :
    let o := refusedRound.foldl (Outbound.exec 0) (Outbound.start (runCalls boot openCalls) 0)
    o.accepted = [10, 11, 12] ∧ o.stack.unsent 0 = [] ∧
      o.sent.map (fun seg => (seg.seq, seg.payload)) = [(0x03eb, [12])] ∧
      ((runCalls boot openCalls).tcpFlows 0).nextSendSeq = 0x03e9 := by
  refine ⟨?_, ?_, ?_, ?_⟩ <;> decide +kernel

end Xaios.Net
