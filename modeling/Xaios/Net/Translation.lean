import Xaios.Net.Delivery
import Xaios.Net.Close
import Xaios.Net.Parity

/-!
# Shifted sequence numbers

Two runs of segments on a flow, one with all numbers of the peer shifted by `k` and all own
numbers by `j`. The handlers add to sequence numbers and test them for equality, and that
is not affected by a shift. But they also compare them as numbers, without regard to the
wrap: whether a payload is ahead of order, and whether an acknowledgement is new.

The two runs stay alike exactly as long as the shift changes none of these comparisons
(`Net.translation_invariant_iff`).
-/

namespace Xaios.Net

open Foundation List TcpFlow Stack Function Receiver

/-! ### What is shifted -/

/-- An entry of the reorder buffer with its number shifted, if it is in use. -/
structure OooEntry.Shifted (k : UInt32) (e e' : OooEntry) : Prop where
  inUse : e'.inUse = e.inUse
  seq : e.inUse = true → e'.seq = e.seq + k
  data : e.inUse = true → e'.data = e.data

theorem OooEntry.shifted_of_unused {k : UInt32} {e e' : OooEntry} (h : e.inUse = false)
    (h' : e'.inUse = false) : e.Shifted k e' :=
  ⟨h'.trans h.symm, fun huse => absurd huse (by simp [h]), fun huse => absurd huse (by simp [h])⟩

/-- The flow with its numbers shifted, and a reorder buffer. -/
def TcpFlow.shift (f : TcpFlow) (k j : UInt32) (ooo : Fin 4 → OooEntry) : TcpFlow :=
  { f with
    expectedSeq := f.expectedSeq + k
    localSeq := f.localSeq + j
    nextSendSeq := f.nextSendSeq + j
    ooo := ooo }

/-- Two flows that differ by the shift only. -/
def TcpFlow.Shifted (k j : UInt32) (f f' : TcpFlow) : Prop :=
  ∃ ooo, f' = f.shift k j ooo ∧ ∀ n, (f.ooo n).Shifted k (ooo n)

/-- A segment with its numbers shifted. -/
def Segment.shift (seg : Segment) (k j : UInt32) : Segment :=
  { seg with fields := { seg.fields with seq := seg.fields.seq + k, ack := seg.fields.ack + j } }

section

variable (seg : Segment) (k j : UInt32)

@[simp] theorem Segment.has_shift (flag : UInt8) : (seg.shift k j).has flag = seg.has flag := rfl

@[simp] theorem Segment.payload_shift : (seg.shift k j).payload = seg.payload := rfl

@[simp] theorem Segment.seq_shift : (seg.shift k j).fields.seq = seg.fields.seq + k := rfl

@[simp] theorem Segment.ack_shift : (seg.shift k j).fields.ack = seg.fields.ack + j := rfl

end

/-- Two stacks that differ by the shift of one slot only. -/
def Stack.ShiftedAt (k j : UInt32) (i : Fin 16) (s s' : Stack) : Prop :=
  ∃ f', (s.tcpFlows i).Shifted k j f' ∧ s' = s.setFlow i f'

variable {k j : UInt32}

theorem add_swap (a b c : UInt32) : a + b + c = a + c + b := by
  rw [UInt32.add_assoc, UInt32.add_comm b, UInt32.add_assoc]

/-- An entry is written in both flows. -/
theorem TcpFlow.Shifted.update {f f' : TcpFlow} {e e' : OooEntry} (h : f.Shifted k j f')
    (he : e.Shifted k e') (n : Fin 4) :
    TcpFlow.Shifted k j { f with ooo := Function.update f.ooo n e }
      { f' with ooo := Function.update f'.ooo n e' } := by
  obtain ⟨ooo, rfl, hooo⟩ := h
  refine ⟨Function.update ooo n e', rfl, fun m => ?_⟩
  dsimp only
  rcases eq_or_ne m n with rfl | hne
  · rwa [update_self, update_self]
  · rw [update_of_ne hne, update_of_ne hne]
    exact hooo m

/-! ### The receive path -/

namespace Receiver

/-- Two receivers that differ by the shift only. -/
def Shifted (k j : UInt32) (r r' : Receiver) : Prop :=
  r.flow.Shifted k j r'.flow ∧ r'.buf = r.buf

variable {r r' : Receiver}

theorem Shifted.accept (h : Shifted k j r r') (data : List UInt8) :
    Shifted k j (r.accept data) (r'.accept data) := by
  obtain ⟨f, buf⟩ := r
  obtain ⟨f', buf'⟩ := r'
  obtain ⟨⟨ooo, hflow, hooo⟩, hbuf⟩ := h
  dsimp only at hflow hooo hbuf
  subst hflow hbuf
  refine ⟨⟨ooo, ?_, hooo⟩, rfl⟩
  simp only [accept, shift, add_swap _ k]

/-- The entries are tested for equality with the expected number only. -/
theorem Shifted.drainEntry {p p' : Bool × Receiver} (h : p'.1 = p.1 ∧ Shifted k j p.2 p'.2)
    (n : Fin 4) :
    (Receiver.drainEntry p' n).1 = (Receiver.drainEntry p n).1 ∧
      Shifted k j (Receiver.drainEntry p n).2 (Receiver.drainEntry p' n).2 := by
  obtain ⟨hprogress, hshift⟩ := h
  obtain ⟨⟨ooo, hflow, hooo⟩, hbuf⟩ := hshift
  have hentry := hooo n
  have hexp : p'.2.flow.expectedSeq = p.2.flow.expectedSeq + k := congrArg _ hflow
  have hooo' : p'.2.flow.ooo = ooo := congrArg _ hflow
  have hdue : ((p'.2.flow.ooo n).inUse = true ∧ (p'.2.flow.ooo n).seq = p'.2.flow.expectedSeq) ↔
      ((p.2.flow.ooo n).inUse = true ∧ (p.2.flow.ooo n).seq = p.2.flow.expectedSeq) := by
    rw [hexp, hooo', hentry.inUse]
    refine and_congr_right fun huse => ?_
    rw [hentry.seq huse, UInt32.add_left_inj]
  by_cases hcase : (p.2.flow.ooo n).inUse = true ∧ (p.2.flow.ooo n).seq = p.2.flow.expectedSeq
  · rw [Receiver.drainEntry, Receiver.drainEntry, if_pos hcase, if_pos (hdue.mpr hcase)]
    refine ⟨rfl, ?_⟩
    have hdata : (p'.2.flow.ooo n).data = (p.2.flow.ooo n).data := hooo' ▸ hentry.data hcase.1
    rw [hdata]
    have haccept := Shifted.accept ⟨⟨ooo, hflow, hooo⟩, hbuf⟩ (p.2.flow.ooo n).data
    refine ⟨haccept.1.update ?_ n, haccept.2⟩
    exact OooEntry.shifted_of_unused rfl rfl
  · rw [Receiver.drainEntry, Receiver.drainEntry, if_neg hcase, if_neg (mt hdue.mp hcase)]
    exact ⟨hprogress, ⟨ooo, hflow, hooo⟩, hbuf⟩

theorem Shifted.drainRound (h : Shifted k j r r') :
    r'.drainRound.1 = r.drainRound.1 ∧ Shifted k j r.drainRound.2 r'.drainRound.2 := by
  unfold Receiver.drainRound
  exact foldl_rel (r := fun p p' : Bool × Receiver => p'.1 = p.1 ∧ Shifted k j p.2 p'.2)
    ⟨rfl, h⟩
    fun n _ p p' hp => Shifted.drainEntry hp n

theorem Shifted.drainRounds (fuel : ℕ) (h : Shifted k j r r') :
    Shifted k j (r.drainRounds fuel) (r'.drainRounds fuel) := by
  induction fuel generalizing r r' with
  | zero => exact h
  | succ fuel ih =>
    obtain ⟨hprogress, hround⟩ := h.drainRound
    rw [drainRounds, drainRounds, hprogress]
    split
    · exact ih hround
    · exact hround

end Receiver

/-- The shift does not change whether a payload counts as ahead of order, if that matters:
the flow has a receive buffer, and an entry to put the payload aside. The number that is
expected is the one after a FIN in the same segment. -/
def TcpFlow.OrderKept (k : UInt32) (f : TcpFlow) (seg : Segment) : Prop :=
  let e := if seg.has flagFin then seg.fields.seq + 1 else f.expectedSeq
  f.rxBuf.isSome = true → seg.payload ≠ [] → (∃ n, (f.ooo n).inUse = false) →
    (e < seg.fields.seq ↔ e + k < seg.fields.seq + k)

/-- The shift does not change whether an acknowledgement is new. -/
def TcpFlow.NewnessKept (j : UInt32) (f : TcpFlow) (seg : Segment) : Prop :=
  seg.has flagAck = true →
    (f.localSeq < seg.fields.ack ↔ f.localSeq + j < seg.fields.ack + j)

namespace TcpFlow

variable {f f' : TcpFlow} {seq : UInt32} {data : List UInt8}

theorem find_unused (h : f.Shifted k j f') :
    ((finRange 4).find? fun n => !(f'.ooo n).inUse) =
      (finRange 4).find? fun n => !(f.ooo n).inUse := by
  obtain ⟨ooo, rfl, hooo⟩ := h
  refine congrArg (fun p => (finRange 4).find? p) (funext fun n => ?_)
  exact congrArg _ (hooo n).inUse

/-- A payload that is put aside in both flows. -/
theorem Shifted.oooBufferStore (h : f.Shifted k j f') (hlt : f.expectedSeq < seq)
    (hlt' : f.expectedSeq + k < seq + k) (data : List UInt8) :
    TcpFlow.Shifted k j (f.oooBufferStore seq data f.expectedSeq)
      (f'.oooBufferStore (seq + k) data f'.expectedSeq) := by
  have hexp : f'.expectedSeq = f.expectedSeq + k := by
    obtain ⟨ooo, rfl, -⟩ := h
    rfl
  unfold TcpFlow.oooBufferStore
  rw [find_unused h]
  by_cases hnil : data = []
  · rw [if_pos (.inl hnil), if_pos (.inl hnil)]
    exact h
  · rw [if_neg (by grind), if_neg (by grind)]
    split
    · refine h.update ?_ _
      exact ⟨rfl, fun _ => rfl, fun _ => rfl⟩
    · exact h

/-- Nothing is put aside without data or without an entry for it. -/
theorem oooBufferStore_eq_self {e : UInt32} (h : data ≠ [] → ¬ ∃ n, (f.ooo n).inUse = false) :
    f.oooBufferStore seq data e = f := by
  unfold oooBufferStore
  split
  · rfl
  · next hcase =>
    split
    · next n hfind =>
      have hunused := find?_some hfind
      exact absurd ⟨n, by simpa using hunused⟩ (h fun hnil => hcase (.inl hnil))
    · rfl

/-- Where there is an entry for it, a payload ahead of order uses one. -/
theorem inUse_oooBufferStore (hlt : f.expectedSeq < seq) (hne : data ≠ [])
    (hfree : ∃ n, (f.ooo n).inUse = false) :
    ∃ n, (f.ooo n).inUse = false ∧
      ((f.oooBufferStore seq data f.expectedSeq).ooo n).inUse = true := by
  have hsome : ((finRange 4).find? fun n => !(f.ooo n).inUse).isSome := by
    obtain ⟨n, hn⟩ := hfree
    rw [find?_isSome]
    exact ⟨n, mem_finRange n, by simp [hn]⟩
  obtain ⟨n, hn⟩ := Option.isSome_iff_exists.mp hsome
  have hunused := find?_some hn
  refine ⟨n, by simpa using hunused, ?_⟩
  rw [oooBufferStore, if_neg (by grind), hn]
  dsimp only
  rw [update_self]

end TcpFlow

namespace Receiver

variable {r r' : Receiver} {seq : UInt32} {data : List UInt8}

theorem Shifted.expectedSeq (h : Shifted k j r r') :
    r'.flow.expectedSeq = r.flow.expectedSeq + k := by
  obtain ⟨⟨ooo, hflow, -⟩, -⟩ := h
  exact congrArg TcpFlow.expectedSeq hflow

theorem Shifted.inUse (h : Shifted k j r r') (n : Fin 4) :
    (r'.flow.ooo n).inUse = (r.flow.ooo n).inUse := by
  obtain ⟨⟨ooo, hflow, hooo⟩, -⟩ := h
  rw [congrArg TcpFlow.ooo hflow]
  exact (hooo n).inUse

/-- A payload that is not in order. -/
theorem payload_of_ne (hne : seq ≠ r.flow.expectedSeq) : r.payload seq data =
    if r.flow.expectedSeq < seq then
      { r with flow := r.flow.oooBufferStore seq data r.flow.expectedSeq } else r := by
  rw [payload, if_neg hne]

/-- **A payload does the same in both flows** if it is ahead of order in both or in
neither. -/
theorem Shifted.payload (h : Shifted k j r r')
    (horder : data ≠ [] → (∃ n, (r.flow.ooo n).inUse = false) →
      (r.flow.expectedSeq < seq ↔ r.flow.expectedSeq + k < seq + k)) :
    Shifted k j (r.payload seq data) (r'.payload (seq + k) data) := by
  have hexp := h.expectedSeq
  by_cases heq : seq = r.flow.expectedSeq
  · have heq' : seq + k = r'.flow.expectedSeq := by rw [hexp, heq]
    rw [Receiver.payload, if_pos heq, Receiver.payload, if_pos heq']
    exact (h.accept data).drainRounds 5
  · have heq' : seq + k ≠ r'.flow.expectedSeq := by
      rw [hexp]
      exact fun h => heq (UInt32.add_left_inj k |>.mp h)
    rw [payload_of_ne heq, payload_of_ne heq', hexp]
    by_cases hroom : data ≠ [] ∧ ∃ n, (r.flow.ooo n).inUse = false
    · have hiff := horder hroom.1 hroom.2
      by_cases hlt : r.flow.expectedSeq < seq
      · rw [if_pos hlt, if_pos (hiff.mp hlt)]
        have hstore := h.1.oooBufferStore hlt (hiff.mp hlt) data
        rw [hexp] at hstore
        exact ⟨hstore, h.2⟩
      · rw [if_neg hlt, if_neg (mt hiff.mpr hlt)]
        exact h
    · -- nothing is put aside in either
      have hroom' : data ≠ [] → ¬ ∃ n, (r'.flow.ooo n).inUse = false := by
        rintro hne ⟨n, hn⟩
        exact hroom ⟨hne, n, h.inUse n ▸ hn⟩
      rw [oooBufferStore_eq_self fun hne hfree => hroom ⟨hne, hfree⟩,
        oooBufferStore_eq_self hroom', ite_self, ite_self]
      exact h

/-- If it is ahead of order in one of them only, the reorder buffers differ afterwards. -/
theorem Shifted.order_of_payload (h : Shifted k j r r') (hne : data ≠ [])
    (hfree : ∃ n, (r.flow.ooo n).inUse = false)
    (hafter : ∀ n, ((r'.payload (seq + k) data).flow.ooo n).inUse =
      ((r.payload seq data).flow.ooo n).inUse) :
    r.flow.expectedSeq < seq ↔ r.flow.expectedSeq + k < seq + k := by
  have hexp := h.expectedSeq
  by_cases heq : seq = r.flow.expectedSeq
  · rw [heq]
    exact iff_of_false (UInt32.lt_irrefl _) (UInt32.lt_irrefl _)
  · have heq' : seq + k ≠ r'.flow.expectedSeq := by
      rw [hexp]
      exact fun h => heq (UInt32.add_left_inj k |>.mp h)
    rw [payload_of_ne heq, payload_of_ne heq'] at hafter
    have hfree' : ∃ n, (r'.flow.ooo n).inUse = false := by
      obtain ⟨n, hn⟩ := hfree
      exact ⟨n, (h.inUse n).trans hn⟩
    constructor
    · intro hlt
      by_contra hlt'
      obtain ⟨n, hn, hstored⟩ := inUse_oooBufferStore hlt hne hfree
      have hn' := hafter n
      rw [if_pos hlt, if_neg (hexp ▸ hlt')] at hn'
      rw [h.inUse, hn] at hn'
      exact absurd (hn'.trans hstored) (by decide)
    · intro hlt'
      by_contra hlt
      obtain ⟨n, hn, hstored⟩ := inUse_oooBufferStore (hexp ▸ hlt') hne hfree'
      have hn' := hafter n
      rw [if_neg hlt, if_pos (hexp ▸ hlt')] at hn'
      rw [← h.inUse, hn] at hn'
      exact absurd (hstored.symm.trans hn') (by decide)

end Receiver

/-! ### Acknowledgements -/

namespace TcpFlow

variable {f : TcpFlow} {seg : Segment}

/-- A duplicate acknowledgement on version 4: it is counted, and the third one starts the
fast retransmission. -/
def duplicate (f : TcpFlow) : TcpFlow :=
  let f : TcpFlow := { f with dupAckCount := f.dupAckCount + 1 }
  if (3 : UInt32) ≤ f.dupAckCount ∧ (0 : UInt32) < f.inFlight ∧ !f.inRetransmit then
    let ssthresh : UInt32 := if (1 : UInt32) < f.cwnd then f.cwnd >>> 1 else 1
    { f with
      ssthresh := ssthresh
      cwnd := ssthresh + 3 * 1400
      inRetransmit := true
      inFlight := 0 }
  else f

theorem handleAck_of_not_new (h : ¬ (seg.has flagAck = true ∧ f.localSeq < seg.fields.ack)) :
    f.handleAck seg =
      if seg.has flagAck = true ∧ seg.fields.ack = f.localSeq then f.duplicate else f := by
  rw [handleAck, if_neg h]
  rfl

theorem duplicate_shift (f : TcpFlow) (k j : UInt32) (ooo : Fin 4 → OooEntry) :
    (f.shift k j ooo).duplicate = f.duplicate.shift k j ooo := by
  unfold duplicate
  dsimp only [shift]
  split <;> rfl

section

variable (hnew : f.NewnessKept j seg)

include hnew

theorem new_shift_iff (ooo : Fin 4 → OooEntry) :
    ((seg.shift k j).has flagAck = true ∧
        (f.shift k j ooo).localSeq < (seg.shift k j).fields.ack) ↔
      (seg.has flagAck = true ∧ f.localSeq < seg.fields.ack) :=
  and_congr_right fun hset => (hnew hset).symm

/-- How much is acknowledged does not depend on the shift. -/
theorem handleAck_shift {ooo : Fin 4 → OooEntry} :
    (f.shift k j ooo).handleAck (seg.shift k j) = (f.handleAck seg).shift k j ooo := by
  have hiff := new_shift_iff (k := k) hnew ooo
  by_cases hcase : seg.has flagAck = true ∧ f.localSeq < seg.fields.ack
  · have hamount : seg.fields.ack + j - (f.localSeq + j) = seg.fields.ack - f.localSeq := by grind
    rw [handleAck_of_new hcase, handleAck_of_new (hiff.mpr hcase)]
    simp only [Segment.ack_shift, shift, hamount]
    rfl
  · have hsame : ((seg.shift k j).has flagAck = true ∧
        (seg.shift k j).fields.ack = (f.shift k j ooo).localSeq) ↔
        (seg.has flagAck = true ∧ seg.fields.ack = f.localSeq) :=
      and_congr_right fun _ => UInt32.add_left_inj j
    rw [handleAck_of_not_new hcase, handleAck_of_not_new (mt hiff.mp hcase), duplicate_shift]
    by_cases hdup : seg.has flagAck = true ∧ seg.fields.ack = f.localSeq
    · rw [if_pos hdup, if_pos (hsame.mpr hdup)]
    · rw [if_neg hdup, if_neg (mt hsame.mp hdup)]

theorem handleAckV6_shift (ooo : Fin 4 → OooEntry) :
    (f.shift k j ooo).handleAckV6 (seg.shift k j) = (f.handleAckV6 seg).shift k j ooo := by
  have hiff := new_shift_iff (k := k) hnew ooo
  unfold handleAckV6
  by_cases hcase : seg.has flagAck = true ∧ f.localSeq < seg.fields.ack
  · rw [if_pos hcase, if_pos (hiff.mpr hcase)]
    rfl
  · rw [if_neg hcase, if_neg (mt hiff.mp hcase)]

end

end TcpFlow

/-- The handler of a version, with the addresses of the flow. -/
inductive Handler where
  | v4 (localAddress remoteAddress : UInt32)
  | v6 (localAddr remoteAddr : IpAddr)

namespace Handler

/-- What the handler does with a segment for the flow in a slot. -/
def body (h : Handler) (i : Fin 16) (b : QueueBinding) (clock : Clock) (seg : Segment) (s : Stack) :
    Status × Stack :=
  match h with
  | .v4 localAddress remoteAddress =>
    Stack.tcpBody (some i) localAddress remoteAddress seg clock b s
  | .v6 localAddr remoteAddr => Stack.tcpBodyV6 (some i) localAddr remoteAddr seg clock b s

/-- The states in which the handler takes segments. -/
def Takes (h : Handler) (state : FlowState) : Prop :=
  match h with
  | .v4 _ _ => state = .established ∨ state = .closeWait
  | .v6 _ _ => state = .established ∨ state = .closeWait ∨ state = .finWait2 ∨ state = .timeWait

/-- The peer, as it is put into the backlog. -/
def peer : Handler → UInt32 × IpAddr
  | .v4 _ remoteAddress => (Stack.swapBytes remoteAddress, ⟨4, fun _ => 0⟩)
  | .v6 _ remoteAddr => (0, remoteAddr)

/-- What the handler makes of an acknowledgement. -/
def ack (h : Handler) (f : TcpFlow) (seg : Segment) : TcpFlow :=
  match h with
  | .v4 _ _ => { f.handleAck seg with keepaliveLastTxNs := 0, keepaliveProbesSent := 0 }
  | .v6 _ _ => f.handleAckV6 seg

variable {h : Handler} {f f' : TcpFlow} {seg : Segment}

theorem localSeq_ack : (h.ack f seg).localSeq =
    if seg.has flagAck ∧ f.localSeq < seg.fields.ack then seg.fields.ack else f.localSeq := by
  cases h with
  | v4 | v6 =>
    simp only [ack, handleAck, handleAckV6]
    split_ifs <;> rfl

theorem ooo_ack : (h.ack f seg).ooo = f.ooo := by
  cases h with
  | v4 | v6 =>
    simp only [ack, handleAck, handleAckV6]
    split_ifs <;> rfl

/-- **An acknowledgement does the same in both flows** if it is new in both or in neither. -/
theorem ack_shift (hnew : f.NewnessKept j seg) (ooo : Fin 4 → OooEntry) :
    h.ack (f.shift k j ooo) (seg.shift k j) = (h.ack f seg).shift k j ooo := by
  cases h with
  | v4 =>
    simp only [ack]
    rw [handleAck_shift hnew]
    rfl
  | v6 => exact handleAckV6_shift hnew ooo

/-- If it is new in one of them only, the acknowledged numbers differ afterwards. -/
theorem newness_of_ack (hlocal : f'.localSeq = f.localSeq + j)
    (hafter : (h.ack f' (seg.shift k j)).localSeq = (h.ack f seg).localSeq + j) :
    f.NewnessKept j seg := by
  intro hset
  rw [localSeq_ack, localSeq_ack, hlocal] at hafter
  simp only [Segment.has_shift, Segment.ack_shift, hset, true_and] at hafter
  constructor
  · intro hlt
    by_contra hlt'
    rw [if_pos hlt, if_neg hlt', UInt32.add_left_inj] at hafter
    exact UInt32.lt_irrefl _ (hafter ▸ hlt)
  · intro hlt'
    by_contra hlt
    rw [if_neg hlt, if_pos hlt', UInt32.add_left_inj] at hafter
    exact UInt32.lt_irrefl _ (hafter ▸ hlt')

end Handler

/-! ### The handlers -/

theorem TcpFlow.Shifted.handleFinV6 {f f' : TcpFlow} (h : f.Shifted k j f') (seg : Segment) :
    (f.handleFinV6 seg).Shifted k j (f'.handleFinV6 (seg.shift k j)) := by
  obtain ⟨ooo, rfl, hooo⟩ := h
  have hseq : (seg.shift k j).fields.seq + 1 = seg.fields.seq + 1 + k := add_swap _ k 1
  have hsame : (f.shift k j ooo).state = f.state := rfl
  unfold TcpFlow.handleFinV6
  rw [Segment.has_shift, hseq, hsame]
  by_cases hfin : seg.has flagFin = true
  · rw [if_pos hfin, if_pos hfin]
    by_cases hstate : f.state = .established
    · rw [if_pos hstate, if_pos hstate]
      exact ⟨ooo, rfl, hooo⟩
    · rw [if_neg hstate, if_neg hstate]
      exact ⟨ooo, rfl, hooo⟩
  · rw [if_neg hfin, if_neg hfin]
    exact ⟨ooo, rfl, hooo⟩

namespace Stack

variable {s s' t t' : Stack} {i : Fin 16} {seg : Segment}

/-- The stack with a slot shifted whose reorder buffer is empty. -/
def shiftSlot (s : Stack) (i : Fin 16) (k j : UInt32) : Stack :=
  s.setFlow i ((s.tcpFlows i).shift k j (s.tcpFlows i).ooo)

theorem shiftedAt_shiftSlot (h : ∀ n, ((s.tcpFlows i).ooo n).inUse = false) :
    s.ShiftedAt k j i (s.shiftSlot i k j) :=
  ⟨_, ⟨_, rfl, fun n => OooEntry.shifted_of_unused (h n) (h n)⟩, rfl⟩

section

variable (h : s.ShiftedAt k j i s')

include h

theorem ShiftedAt.flow : (s.tcpFlows i).Shifted k j (s'.tcpFlows i) := by
  obtain ⟨f', hf', rfl⟩ := h
  rwa [tcpFlows_setFlow_self]

theorem ShiftedAt.state : (s'.tcpFlows i).state = (s.tcpFlows i).state := by
  obtain ⟨ooo, heq, -⟩ := h.flow
  rw [heq]
  rfl

theorem ShiftedAt.localSeq : (s'.tcpFlows i).localSeq = (s.tcpFlows i).localSeq + j := by
  obtain ⟨ooo, heq, -⟩ := h.flow
  rw [heq]
  rfl

/-- The slot is written in both stacks. -/
theorem ShiftedAt.setFlow {x x' : TcpFlow} (hx : x.Shifted k j x') :
    (s.setFlow i x).ShiftedAt k j i (s'.setFlow i x') := by
  obtain ⟨f', -, rfl⟩ := h
  refine ⟨x', ?_, ?_⟩
  · rwa [tcpFlows_setFlow_self]
  · simp only [setFlow, update_idem]

/-- **The delivery of a payload** in both stacks. -/
theorem ShiftedAt.deliver (horder : (s.tcpFlows i).rxBuf.isSome = true → seg.payload ≠ [] →
      (∃ n, ((s.tcpFlows i).ooo n).inUse = false) →
        ((s.tcpFlows i).expectedSeq < seg.fields.seq ↔
          (s.tcpFlows i).expectedSeq + k < seg.fields.seq + k)) :
    (s.deliver i seg).ShiftedAt k j i (s'.deliver i (seg.shift k j)) := by
  obtain ⟨f', hf', rfl⟩ := h
  have hrx : f'.rxBuf = (s.tcpFlows i).rxBuf := by
    obtain ⟨ooo, rfl, -⟩ := hf'
    rfl
  rw [deliver, deliver, tcpFlows_setFlow_self, hrx, Segment.payload_shift,
    Segment.seq_shift]
  rcases hcase : (s.tcpFlows i).rxBuf with _ | b
  · exact ⟨f', hf', rfl⟩
  · dsimp only
    by_cases hnil : seg.payload = []
    · rw [if_pos hnil, if_pos hnil]
      exact ⟨f', hf', rfl⟩
    · rw [if_neg hnil, if_neg hnil]
      have hpayload : Shifted k j
          (payload ⟨s.tcpFlows i, (s.pool b).buf⟩ seg.fields.seq seg.payload)
          (payload ⟨f', (s.pool b).buf⟩ (seg.fields.seq + k) seg.payload) :=
        Shifted.payload ⟨hf', rfl⟩ (horder (by rw [hcase]; rfl))
      obtain ⟨hflow, hbuf⟩ := hpayload
      refine ⟨(payload ⟨f', (s.pool b).buf⟩ (seg.fields.seq + k) seg.payload).flow, ?_, ?_⟩
      · rw [setBuf]
        rwa [tcpFlows_setFlow_self]
      · have hpool : (s.setFlow i f').pool = s.pool := rfl
        rw [hpool, hbuf]
        simp only [Stack.setFlow, setBuf, update_idem]

/-- The reset of the flow. -/
theorem ShiftedAt.resetFlow : (s.resetFlow i).ShiftedAt k j i (s'.resetFlow i) := by
  obtain ⟨f', ⟨ooo, rfl, hooo⟩, rfl⟩ := h
  refine ⟨shift { s.tcpFlows i with state := .closed, rxBuf := none, txBuf := none } k j
    ooo, ⟨ooo, ?_, ?_⟩, ?_⟩
  · simp only [resetFlow, update_self]
  · simpa only [resetFlow, update_self] using hooo
  · simp only [resetFlow, Stack.setFlow, update_self, update_idem,
      shift]

end

theorem acceptQueueEnqueue_setFlow (s : Stack) (i : Fin 16) (f : TcpFlow) (entry : AcceptEntry) :
    (s.setFlow i f).acceptQueueEnqueue entry = (s.acceptQueueEnqueue entry).setFlow i f := by
  rw [acceptQueueEnqueue_eq s (by rfl), s.acceptQueueEnqueue_eq rfl]
  rfl

/-- The end of the handshake. -/
theorem ShiftedAt.establishFlow (h : s.ShiftedAt k j i s') (seg : Segment) (start : UInt64)
    (peerIp : UInt32) (peerAddr : IpAddr) :
    (s.establishFlow i seg start peerIp peerAddr).ShiftedAt k j i
      (s'.establishFlow i (seg.shift k j) start peerIp peerAddr) := by
  obtain ⟨f', ⟨ooo, rfl, hooo⟩, rfl⟩ := h
  let x : TcpFlow := { s.tcpFlows i with
    state := .established
    localSeq := seg.fields.ack
    nextSendSeq := seg.fields.ack
    lastSeenNs := start }
  refine ⟨x.shift k j ooo, ⟨ooo, ?_, ?_⟩, ?_⟩
  · rw [tcpFlows_establishFlow, tcpFlows_setFlow_self]
  · rw [tcpFlows_establishFlow, tcpFlows_setFlow_self]
    exact hooo
  · rw [establishFlow, establishFlow, ← acceptQueueEnqueue_setFlow]
    simp only [Stack.setFlow, update_self, update_idem]
    rfl

/-- The flow after the delivery of a payload. -/
theorem flow_deliver {b : Fin 32} (hrx : (s.tcpFlows i).rxBuf = some b) (hne : seg.payload ≠ []) :
    (s.deliver i seg).tcpFlows i =
      (Receiver.payload ⟨s.tcpFlows i, (s.pool b).buf⟩ seg.fields.seq seg.payload).flow := by
  simp only [deliver, hrx, if_neg hne, setBuf]
  exact s.tcpFlows_setFlow_self i _

/-- From the reorder buffers after a delivery it can be seen whether the payload was ahead of
order in both flows. -/
theorem ShiftedAt.order_of_deliver (h : s.ShiftedAt k j i s') (seg : Segment)
    (hrx : (s.tcpFlows i).rxBuf.isSome = true) (hne : seg.payload ≠ [])
    (hfree : ∃ n, ((s.tcpFlows i).ooo n).inUse = false)
    (hafter : ∀ n, (((s'.deliver i (seg.shift k j)).tcpFlows i).ooo n).inUse =
      (((s.deliver i seg).tcpFlows i).ooo n).inUse) :
    (s.tcpFlows i).expectedSeq < seg.fields.seq ↔
      (s.tcpFlows i).expectedSeq + k < seg.fields.seq + k := by
  obtain ⟨b, hb⟩ := Option.isSome_iff_exists.mp hrx
  have hflow := h.flow
  have hb' : (s'.tcpFlows i).rxBuf = some b := by
    obtain ⟨ooo, heq, -⟩ := hflow
    rw [heq]
    exact hb
  have hpool : s'.pool = s.pool := by
    obtain ⟨f', -, rfl⟩ := h
    rfl
  have hne' : (seg.shift k j).payload ≠ [] := hne
  rw [flow_deliver hb hne, flow_deliver hb' hne', hpool] at hafter
  have hshifted : Shifted k j ⟨s.tcpFlows i, (s.pool b).buf⟩
      ⟨s'.tcpFlows i, (s.pool b).buf⟩ := ⟨hflow, rfl⟩
  exact hshifted.order_of_payload hne hfree hafter

/-- The stack after the FIN and the payload of a segment for an open connection. -/
def received (s : Stack) (i : Fin 16) (seg : Segment) (start : UInt64) : Stack :=
  (s.setFlow i (TcpFlow.handleFinV6 { s.tcpFlows i with lastSeenNs := start } seg)).deliver i seg

/-- What the FIN leaves of the receiving side, and what the FIN and the payload leave of the
sending side. -/
theorem handleFinV6_fields (f : TcpFlow) (seg : Segment) (start : UInt64) :
    let x := TcpFlow.handleFinV6 { f with lastSeenNs := start } seg
    x.rxBuf = f.rxBuf ∧ x.ooo = f.ooo ∧ x.localSeq = f.localSeq ∧
      x.expectedSeq = if seg.has flagFin then seg.fields.seq + 1 else f.expectedSeq := by
  simp only [handleFinV6]
  split_ifs <;> exact ⟨rfl, rfl, rfl, rfl⟩

theorem localSeq_received (s : Stack) (i : Fin 16) (seg : Segment) (start : UInt64) :
    ((s.received i seg start).tcpFlows i).localSeq = (s.tcpFlows i).localSeq := by
  obtain ⟨e, a, w, o, heq⟩ := touches_deliver
    (s.setFlow i (handleFinV6 { s.tcpFlows i with lastSeenNs := start } seg)) i seg
  rw [received, heq, tcpFlows_setFlow_self]
  exact (handleFinV6_fields (s.tcpFlows i) seg start).2.2.1

section

variable (h : s.ShiftedAt k j i s')

include h

theorem ShiftedAt.fin (seg : Segment) (start : UInt64) :
    (s.setFlow i (TcpFlow.handleFinV6
        { s.tcpFlows i with lastSeenNs := start } seg)).ShiftedAt k j i
      (s'.setFlow i
        (TcpFlow.handleFinV6 { s'.tcpFlows i with lastSeenNs := start } (seg.shift k j))) := by
  refine h.setFlow (Shifted.handleFinV6 ?_ seg)
  obtain ⟨ooo, heq, hooo⟩ := h.flow
  rw [heq]
  exact ⟨ooo, rfl, hooo⟩

/-- **The FIN and the payload** in both stacks. -/
theorem ShiftedAt.received (start : UInt64) (horder : (s.tcpFlows i).OrderKept k seg) :
    (s.received i seg start).ShiftedAt k j i (s'.received i (seg.shift k j) start) := by
  refine (h.fin seg start).deliver ?_
  obtain ⟨hrx, hooo, -, hexp⟩ := handleFinV6_fields (s.tcpFlows i) seg start
  rw [tcpFlows_setFlow_self, hrx, hooo, hexp]
  exact horder

/-- From the reorder buffers afterwards it can be seen that the order was kept. -/
theorem ShiftedAt.order_of_received (start : UInt64)
    (hafter : ∀ n, (((s'.received i (seg.shift k j) start).tcpFlows i).ooo n).inUse =
      (((s.received i seg start).tcpFlows i).ooo n).inUse) : (s.tcpFlows i).OrderKept k seg := by
  intro hrx hne hfree
  obtain ⟨hrx', hooo, -, hexp⟩ := handleFinV6_fields (s.tcpFlows i) seg start
  have horder := (h.fin seg start).order_of_deliver seg
  rw [tcpFlows_setFlow_self, hrx', hooo, hexp] at horder
  exact horder hrx hne hfree hafter

end

end Stack

namespace Handler

variable {h : Handler} {s s' : Stack} {i : Fin 16} {seg : Segment}

/-- **A segment that is taken.** -/
theorem body_of_takes (b : QueueBinding) (clock : Clock) (seg : Segment)
    (hrst : seg.has flagRst = false) (htakes : h.Takes (s.tcpFlows i).state) :
    h.body i b clock seg s =
      let t := s.received i seg clock.start
      (.ok, (t.setFlow i (h.ack (t.tcpFlows i) seg)).closeWhenIdle i) := by
  cases h with
  | v4 =>
    have hopen : (s.tcpFlows i).state = .established ∨ (s.tcpFlows i).state = .closeWait := htakes
    have hsyn : ¬ ((s.tcpFlows i).state = .synRecv ∧ seg.has flagAck = true) := by
      rcases hopen with h | h <;> simp [h]
    have hfin := handleFin_eq_handleFinV6
      (f := { s.tcpFlows i with lastSeenNs := clock.start }) seg hopen clock.start
    simp only [body, tcpBody, hrst, Bool.false_eq_true, if_false, if_neg hsyn, if_pos hopen]
    rw [Stack.openSegment, hfin]
    rfl
  | v6 =>
    have hopen : (s.tcpFlows i).state = .established ∨ (s.tcpFlows i).state = .closeWait ∨
      (s.tcpFlows i).state = .finWait2 ∨ (s.tcpFlows i).state = .timeWait := htakes
    have hsyn : ¬ ((s.tcpFlows i).state = .synRecv ∧ seg.has flagAck = true) := by
      rcases hopen with h | h | h | h <;> simp [h]
    simp only [body, tcpBodyV6, hrst, Bool.false_eq_true, if_false, if_neg hsyn, if_pos hopen]
    rfl

/-- **A segment that is not taken**: a reset, the end of the handshake, or refused. -/
theorem body_of_not_takes (b : QueueBinding) (clock : Clock)
    (hno : seg.has flagRst = false → ¬ h.Takes (s.tcpFlows i).state) :
    h.body i b clock seg s =
      if seg.has flagRst then (.invalid, s.resetFlow i)
      else if (s.tcpFlows i).state = .synRecv ∧ seg.has flagAck then
        (.ok, s.establishFlow i seg clock.start h.peer.1 h.peer.2)
      else (.invalid, s) := by
  cases h with
  | v4 | v6 =>
    simp only [body, tcpBody, tcpBodyV6]
    by_cases hrst : seg.has flagRst = true
    · rw [if_pos hrst, if_pos hrst]
    · have hopen := hno (Bool.not_eq_true _ ▸ hrst)
      unfold Takes at hopen
      rw [if_neg hrst, if_neg hrst, if_neg hopen]
      rfl

/-- The two runs stay alike over a segment that is not taken. -/
theorem shiftedAt_of_not_takes (hs : s.ShiftedAt k j i s') (b : QueueBinding) (clock : Clock)
    (hno : seg.has flagRst = false → ¬ h.Takes (s.tcpFlows i).state) :
    (h.body i b clock (seg.shift k j) s').1 = (h.body i b clock seg s).1 ∧
      (h.body i b clock seg s).2.ShiftedAt k j i (h.body i b clock (seg.shift k j) s').2 := by
  have hstate := hs.state
  rw [body_of_not_takes b clock hno, body_of_not_takes b clock (hstate ▸ hno), hstate,
    Segment.has_shift, Segment.has_shift]
  split
  · exact ⟨rfl, hs.resetFlow⟩
  · split
    · exact ⟨rfl, hs.establishFlow seg clock.start _ _⟩
    · exact ⟨rfl, hs⟩

/-- **The acknowledgement and the close** in both stacks. -/
theorem shiftedAt_ack (hs : s.ShiftedAt k j i s')
    (hnew : (s.tcpFlows i).NewnessKept j seg) :
    ((s.setFlow i (h.ack (s.tcpFlows i) seg)).closeWhenIdle i).ShiftedAt k j i
      ((s'.setFlow i (h.ack (s'.tcpFlows i) (seg.shift k j))).closeWhenIdle i) := by
  obtain ⟨ooo, heq, hooo⟩ := hs.flow
  rw [heq, ack_shift hnew, closeWhenIdle_setFlow, closeWhenIdle_setFlow]
  have hidle : s'.txIdle ((h.ack (s.tcpFlows i) seg).shift k j ooo) =
      s.txIdle (h.ack (s.tcpFlows i) seg) := by
    obtain ⟨f', -, rfl⟩ := hs
    rfl
  have hclose : ((h.ack (s.tcpFlows i) seg).shift k j ooo).closeRequested =
      (h.ack (s.tcpFlows i) seg).closeRequested := rfl
  have hentries : ∀ n, ((h.ack (s.tcpFlows i) seg).ooo n).Shifted k (ooo n) := by
    rw [ooo_ack]
    exact hooo
  rw [hidle, hclose]
  refine hs.setFlow ?_
  split
  · exact ⟨ooo, rfl, hentries⟩
  · exact ⟨ooo, rfl, hentries⟩

/-- The slot after the acknowledgement and the close. -/
theorem flow_ack (s : Stack) (seg : Segment) :
    let f := ((s.setFlow i (h.ack (s.tcpFlows i) seg)).closeWhenIdle i).tcpFlows i
    f.ooo = (s.tcpFlows i).ooo ∧ f.localSeq = (h.ack (s.tcpFlows i) seg).localSeq := by
  simp only [closeWhenIdle_setFlow, tcpFlows_setFlow_self]
  split
  · exact ⟨ooo_ack, rfl⟩
  · exact ⟨ooo_ack, rfl⟩

/-- The shift changes no comparison that the handler makes. -/
def Alike (h : Handler) (k j : UInt32) (f : TcpFlow) (seg : Segment) : Prop :=
  seg.has flagRst = false → h.Takes f.state → f.OrderKept k seg ∧ f.NewnessKept j seg

/-- **One segment in both runs**: they stay alike exactly when the shift changes no
comparison. -/
theorem shiftedAt_body_iff (hs : s.ShiftedAt k j i s') (b : QueueBinding) (clock : Clock) :
    ((h.body i b clock (seg.shift k j) s').1 = (h.body i b clock seg s).1 ∧
        (h.body i b clock seg s).2.ShiftedAt k j i (h.body i b clock (seg.shift k j) s').2) ↔
      h.Alike k j (s.tcpFlows i) seg := by
  by_cases htaken : seg.has flagRst = false ∧ h.Takes (s.tcpFlows i).state
  · obtain ⟨hrst, htakes⟩ := htaken
    have htakes' : h.Takes (s'.tcpFlows i).state := hs.state ▸ htakes
    rw [body_of_takes b clock seg hrst htakes,
      body_of_takes b clock (seg.shift k j) hrst htakes']
    constructor
    · rintro ⟨-, hafter⟩ - -
      obtain ⟨ooo, heq, hooo⟩ := hafter.flow
      obtain ⟨hooo₁, hlocal₁⟩ := flow_ack (s.received i seg clock.start) seg
      obtain ⟨hooo₂, hlocal₂⟩ :=
        flow_ack (s'.received i (seg.shift k j) clock.start) (seg.shift k j)
      constructor
      · refine hs.order_of_received clock.start fun n => ?_
        have hn := (hooo n).inUse
        rw [hooo₁] at hn
        rw [← hn, ← hooo₂, heq]
        rfl
      · have hend := congrArg localSeq heq
        rw [hlocal₂] at hend
        have hnew := newness_of_ack
          (by rw [localSeq_received, localSeq_received, hs.localSeq])
          (hend.trans (congrArg (· + j) hlocal₁))
        rw [NewnessKept, localSeq_received] at hnew
        exact hnew
    · intro halike
      obtain ⟨horder, hnew⟩ := halike hrst htakes
      refine ⟨rfl, shiftedAt_ack (hs.received clock.start horder) ?_⟩
      intro hset
      rw [localSeq_received]
      exact hnew hset
  · refine iff_of_true (shiftedAt_of_not_takes hs b clock ?_) fun hrst htakes => ?_
    · exact fun hrst htakes => htaken ⟨hrst, htakes⟩
    · exact absurd ⟨hrst, htakes⟩ htaken

end Handler

/-! ### Runs -/

/-- Two runs, one with the segments and one with the shifted segments. -/
def shiftStep (h : Handler) (i : Fin 16) (b : QueueBinding) (k j : UInt32) (p : Stack × Stack)
    (e : Clock × Segment) : Stack × Stack :=
  ((h.body i b e.1 e.2 p.1).2, (h.body i b e.1 (e.2.shift k j) p.2).2)

/-- A step of the two runs answers the same status and leaves the same stack, but for the
numbers of the flow. -/
def StaysShifted (h : Handler) (i : Fin 16) (b : QueueBinding) (k j : UInt32) (p : Stack × Stack)
    (e : Clock × Segment) : Prop :=
  (h.body i b e.1 (e.2.shift k j) p.2).1 = (h.body i b e.1 e.2 p.1).1 ∧
    (shiftStep h i b k j p e).1.ShiftedAt k j i (shiftStep h i b k j p e).2

/-- **Sequence numbers can be shifted** as long as no comparison changes. For every flow,
every run of segments of either version and all shifts, the run and the shifted run answer
the same statuses and keep the same stack but for the numbers of the flow, if and only if
in every step the shift changes neither whether a payload is ahead of order nor whether an
acknowledgement is new. -/
theorem translation_invariant_iff (h : Handler) (i : Fin 16) (b : QueueBinding) (k j : UInt32)
    (s s' : Stack) (hs : s.ShiftedAt k j i s') (es : List (Clock × Segment)) :
    Along (shiftStep h i b k j) (StaysShifted h i b k j) (s, s') es ↔
      Along (shiftStep h i b k j) (fun p e => h.Alike k j (p.1.tcpFlows i) e.2) (s, s') es := by
  refine Along.congr (I := fun p => p.1.ShiftedAt k j i p.2) hs ?_ ?_ es
  · intro p e hp halike
    exact ((Handler.shiftedAt_body_iff hp b e.1).mpr halike).2
  · intro p e hp
    exact Handler.shiftedAt_body_iff hp b e.1

/-- A byte ahead of order, and then the one before it. -/
def aheadSegments : List (Clock × Segment) :=
  [(⟨3000, 3001⟩, ⟨⟨8080, 80, 3, 0x03e9, flagAck⟩, [], [7]⟩),
    (⟨4000, 4001⟩, ⟨⟨8080, 80, 2, 0x03e9, flagAck⟩, [], [5]⟩)]

/-- A shift that stays away from the wrap. -/
theorem translation_invariant_ahead :
    Along (shiftStep (.v4 0 0) 0 ⟨1, 0, 1, true⟩ 1000 2000)
      (StaysShifted (.v4 0 0) 0 ⟨1, 0, 1, true⟩ 1000 2000)
      (runCalls Stack.boot openCalls, (runCalls Stack.boot openCalls).shiftSlot 0 1000 2000)
      aheadSegments := by
  have hunused : ∀ n, (((runCalls boot openCalls).tcpFlows 0).ooo n).inUse = false := by
    decide +kernel
  refine (translation_invariant_iff _ _ _ _ _ _ _ (shiftedAt_shiftSlot hunused) _).mpr ?_
  refine ⟨fun _ _ => ⟨fun _ _ _ => ?_, fun _ => ?_⟩,
    fun _ _ => ⟨fun _ _ _ => ?_, fun _ => ?_⟩, trivial⟩
  all_goals decide +kernel

/-- **At the wrap a byte is lost**: shifted by `2 ^ 32 - 3`, the number of the byte ahead of
order is `0`, and it is thrown away. -/
theorem byte_lost_at_wrap :
    let p := aheadSegments.foldl (shiftStep (.v4 0 0) 0 ⟨1, 0, 1, true⟩ 0xfffffffd 0)
      (runCalls Stack.boot openCalls, (runCalls Stack.boot openCalls).shiftSlot 0 0xfffffffd 0)
    p.1.unread 0 = [5, 7] ∧ p.2.unread 0 = [5] := by
  decide +kernel

end Xaios.Net
