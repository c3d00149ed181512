import Xaios.Net.Lifecycle

/-!
# Admission of connections

When a SYN is accepted. `alloc_tcp_flow` takes only slots that are `free`, and no
call makes a slot `free` again (`Net.taken_runCalls`): a connection that has
ended keeps its slot in state `closed`. So a SYN can be refused although no
connection is open. It is accepted exactly when a slot was never used and some
queue is bound (`Net.syn_accepted_iff`).
-/

namespace Xaios.Net

open Stack List

/-! ### Queues for new flows -/

namespace Stack

variable {s t : Stack}

/-- A queue that was selected is bound. -/
theorem findBinding_of_select {localPort remotePort : UInt16} {localAddress remoteAddress : UInt32}
    {b : QueueBinding}
    (h : s.selectBindingForFlow localPort remotePort localAddress remoteAddress = some b) :
    (s.findBinding b.queueId).isSome = true := by
  obtain ⟨⟨j, rfl⟩, huse⟩ := mem_activeBindings.mp (mem_of_getElem? h)
  rw [findBinding, find?_isSome]
  exact ⟨s.bindings j, mem_map.mpr ⟨j, mem_finRange j, rfl⟩, by simp [huse]⟩

/-- **A queue is selected exactly when one is bound.** -/
theorem selectBindingForFlow_eq_none_iff {localPort remotePort : UInt16}
    {localAddress remoteAddress : UInt32} :
    s.selectBindingForFlow localPort remotePort localAddress remoteAddress = none ↔
      ¬∃ j, (s.bindings j).inUse = true := by
  have hnil : s.activeBindings = [] ↔ ¬∃ j, (s.bindings j).inUse = true := by
    rw [eq_nil_iff_forall_not_mem]
    constructor
    · rintro h ⟨j, hj⟩
      exact h _ (mem_activeBindings.mpr ⟨⟨j, rfl⟩, hj⟩)
    · rintro h b hb
      obtain ⟨⟨j, rfl⟩, huse⟩ := mem_activeBindings.mp hb
      exact h ⟨j, huse⟩
  rw [← hnil, selectBindingForFlow, getElem?_eq_none_iff]
  constructor
  · intro hle
    by_contra hne
    exact absurd (Nat.mod_lt _ (length_pos_of_ne_nil hne)) (Nat.not_lt.mpr hle)
  · intro hnil
    rw [hnil]
    exact Nat.zero_le _

/-! ### The first part of the handshake -/

/-- A SYN was accepted: the answer is `ok`, and a slot that was free holds a flow in the
handshake with the ports and the sequence number of the SYN and the address of the peer. -/
structure Accepted (s : Stack) (r : Status × Stack) (fields : TcpFields) (peer : TcpFlow → Prop) :
    Prop where
  ok : r.1 = .ok
  flow : ∃ i, (s.tcpFlows i).state = .free ∧ (r.2.tcpFlows i).state = .synRecv ∧
    (r.2.tcpFlows i).localPort = fields.dstPort ∧ (r.2.tcpFlows i).remotePort = fields.srcPort ∧
    (r.2.tcpFlows i).expectedSeq = fields.seq + 1 ∧ peer (r.2.tcpFlows i)

variable {fields : TcpFields} {peer : TcpFlow → Prop}

/-- Whether a SYN was accepted is a matter of the tables. -/
theorem accepted_congr {r r' : Status × Stack} (hs : t.core = s.core) (hr : r.1 = r'.1)
    (hr' : r.2.core = r'.2.core) : Accepted s r fields peer ↔ Accepted t r' fields peer := by
  constructor
  · rintro ⟨hok, hflow⟩
    rw [← tcpFlows_of_core hs, tcpFlows_of_core hr'] at hflow
    exact ⟨hr ▸ hok, hflow⟩
  · rintro ⟨hok, hflow⟩
    rw [tcpFlows_of_core hs, ← tcpFlows_of_core hr'] at hflow
    exact ⟨hr ▸ hok, hflow⟩

/-- **A SYN for a listening port is accepted exactly when a slot is free**, below the limit
of half-open connections. -/
theorem openFlow_accepted_iff {seg : Segment} {clock : Clock} {b : QueueBinding}
    {address : TcpFlow → TcpFlow} (hlisten : s.hasListener seg.fields.dstPort = true)
    (hhalf : s.halfOpen < 8)
    (hkeep : ∀ f, (address f).state = f.state ∧ (address f).localPort = f.localPort ∧
      (address f).remotePort = f.remotePort ∧ (address f).expectedSeq = f.expectedSeq)
    (hpeer : ∀ f, peer (address f)) :
    Accepted s (s.openFlow seg clock b address) seg.fields peer ↔
      ∃ i, (s.tcpFlows i).state = .free := by
  constructor
  · rintro ⟨-, i, hi, -⟩
    exact ⟨i, hi⟩
  · intro hfree
    obtain ⟨i, t, halloc⟩ := allocTcpFlow_isSome hhalf hfree
    refine ⟨?_, i, (state_of_allocTcpFlow halloc).1, ?_⟩
    · simp [openFlow, hlisten, halloc]
    · simp only [openFlow, hlisten, halloc, setFlow, Bool.not_true, Bool.false_eq_true, if_false,
        Function.update_self, hkeep, true_and]
      exact hpeer _

/-! ### The handlers -/

/-- A well-formed SYN of version 4 that no slot knows, for a port with a listener. -/
structure FreshSyn (s : Stack) (frame : List UInt8) (fields : TcpFields) : Prop where
  parsed : parseTcp frame = some fields
  size : frame.length ≤ 1520
  syn : (segmentV4 frame fields).has flagSyn = true
  noRst : (segmentV4 frame fields).has flagRst = false
  listening : s.hasListener fields.dstPort = true
  unknown : s.findFlowByPorts fields.dstPort fields.srcPort (readU32le frame 26) = none

/-- A well-formed SYN of version 6 that no slot knows, for a port with a listener. -/
structure FreshSynV6 (s : Stack) (frame : List UInt8) (fields : TcpFields) (src dst : IpAddr) :
    Prop where
  parsed : parseTcpV6 frame = some (fields, src, dst)
  size : frame.length ≤ 1520
  syn : (segmentV6 frame fields).has flagSyn = true
  noRst : (segmentV6 frame fields).has flagRst = false
  listening : s.hasListener fields.dstPort = true
  unknown : s.findFlowByPortsV6 fields.dstPort fields.srcPort src = none

variable {frame : List UInt8}

/-- What both handlers do with a SYN: a queue is selected, and the body opens a flow. -/
theorem dispatch_accepted_iff (seg : Segment) (hs : Idle s) (hhalf : s.halfOpen < 8)
    {binding : Option QueueBinding} (hnone : binding = none ↔ ¬∃ j, (s.bindings j).inUse = true)
    (hfind : ∀ b, binding = some b → (s.findBinding b.queueId).isSome = true) {length : ℕ}
    (h0 : 0 < length) (hmax : length ≤ 1520) {clock : Clock}
    {body : QueueBinding → Stack → Status × Stack} {address : TcpFlow → TcpFlow}
    (hlisten : s.hasListener seg.fields.dstPort = true)
    (hbody : ∀ b t, body b t = t.openFlow seg clock b address)
    (hkeep : ∀ f, (address f).state = f.state ∧ (address f).localPort = f.localPort ∧
      (address f).remotePort = f.remotePort ∧ (address f).expectedSeq = f.expectedSeq)
    (hpeer : ∀ f, peer (address f)) :
    Accepted s (s.dispatch binding length body) seg.fields peer ↔
      (∃ i, (s.tcpFlows i).state = .free) ∧ ∃ j, (s.bindings j).inUse = true := by
  rcases hb : binding with _ | b
  · -- without a queue the handler answers `notFound`
    constructor
    · rintro ⟨hok, -⟩
      nomatch hok
    · rintro ⟨-, hbound⟩
      exact absurd hbound (hnone.mp hb)
  · have hbound : ∃ j, (s.bindings j).inUse = true := by
      by_contra hc
      rw [hnone.mpr hc] at hb
      nomatch hb
    obtain ⟨t, ht, hstatus, hcore⟩ := dispatch_of_idle hs body (hfind b hb) h0 hmax
    rw [hbody] at hstatus hcore
    have hlisten' : t.hasListener seg.fields.dstPort = true := by
      rw [← hlisten, hasListener, hasListener, findListenerEx, findListenerEx, listeners_of_core ht]
    rw [accepted_congr ht hstatus hcore,
      openFlow_accepted_iff hlisten' (halfOpen_of_core ht ▸ hhalf) hkeep hpeer, tcpFlows_of_core ht]
    exact ⟨fun hfree => ⟨hfree, hbound⟩, And.left⟩

theorem processTcpFrame_accepted_iff (hs : Idle s) (hhalf : s.halfOpen < 8) (clock : Clock)
    (h : FreshSyn s frame fields) :
    Accepted s (s.processTcpFrame clock frame) fields
        (fun f => f.remoteAddress = readU32le frame 26) ↔
      (∃ i, (s.tcpFlows i).state = .free) ∧ ∃ j, (s.bindings j).inUse = true := by
  have hlen := (spec_of_parseTcp h.parsed).1
  rw [processTcpFrame, if_neg (Nat.not_lt.mpr hlen), h.parsed]
  dsimp only
  rw [h.unknown]
  have hbody : ∀ b t, tcpBody none (readU32le frame 30) (readU32le frame 26)
      (segmentV4 frame fields) clock b t = t.openFlow (segmentV4 frame fields) clock b
        (addressV4 (readU32le frame 30) (readU32le frame 26) (segmentV4 frame fields)) := by
    intro b t
    simp only [tcpBody, h.noRst, h.syn, Bool.false_eq_true, if_false, if_true]
  exact dispatch_accepted_iff (segmentV4 frame fields) hs hhalf
    selectBindingForFlow_eq_none_iff (fun b hb => findBinding_of_select hb) (by omega) h.size
    h.listening hbody (fun _ => ⟨rfl, rfl, rfl, rfl⟩) (fun _ => rfl)

theorem processTcpFrameV6_accepted_iff (hs : Idle s) (hhalf : s.halfOpen < 8) (clock : Clock)
    {src dst : IpAddr} (h : FreshSynV6 s frame fields src dst) :
    Accepted s (s.processTcpFrameV6 clock frame) fields (fun f => f.remoteAddr = src) ↔
      (∃ i, (s.tcpFlows i).state = .free) ∧ ∃ j, (s.bindings j).inUse = true := by
  have hlen := (spec_of_parseTcpV6 h.parsed).1
  rw [processTcpFrameV6, if_neg (Nat.not_lt.mpr hlen), h.parsed]
  dsimp only
  rw [h.unknown]
  have hbody : ∀ b t, tcpBodyV6 none dst src (segmentV6 frame fields) clock b t =
      t.openFlow (segmentV6 frame fields) clock b
        fun f => { f with remoteAddr := src, localAddr := dst } := by
    intro b t
    simp only [tcpBodyV6, h.noRst, h.syn, Bool.false_eq_true, if_false, if_true]
  exact dispatch_accepted_iff (segmentV6 frame fields) hs hhalf
    selectBindingForFlow_eq_none_iff (fun b hb => findBinding_of_select hb) (by omega) h.size
    h.listening hbody (fun _ => ⟨rfl, rfl, rfl, rfl⟩) (fun _ => rfl)

end Stack

/-- **When a SYN is accepted.** After every run of calls, with fewer than eight slots in the
handshake, a well-formed SYN from a peer that no slot knows, to a port with a listener,
is accepted exactly when some slot is `free` and some queue is bound. How many
connections are open does not matter: a slot in state `closed` is not `free`. -/
theorem syn_accepted_iff (cs : List Call) (clock : Clock)
    (hhalf : (runCalls boot cs).slots.count .synRecv < 8) :
    let s := runCalls boot cs
    (∀ frame fields, s.FreshSyn frame fields →
      (s.Accepted (s.processTcpFrame clock frame) fields
          (fun f => f.remoteAddress = readU32le frame 26) ↔
        (∃ i, (s.tcpFlows i).state = .free) ∧ ∃ j, (s.bindings j).inUse = true)) ∧
    (∀ frame fields src dst, s.FreshSynV6 frame fields src dst →
      (s.Accepted (s.processTcpFrameV6 clock frame) fields (fun f => f.remoteAddr = src) ↔
        (∃ i, (s.tcpFlows i).state = .free) ∧ ∃ j, (s.bindings j).inUse = true)) := by
  intro s
  have hidle : Idle s := (advances_runCalls idle_boot cs).idle
  have hopen : s.halfOpen < 8 := by
    rw [halfOpen_runCalls cs]
    exact hhalf
  constructor
  · intro frame fields h
    exact processTcpFrame_accepted_iff hidle hopen clock h
  · intro frame fields src dst h
    exact processTcpFrameV6_accepted_iff hidle hopen clock h

/-! ### Examples of runs -/

/-- A segment without payload from a port of one host to port 80, with checksums left out. -/
def bareFrame (port flags : UInt8) : List UInt8 :=
  [0, 0, 0, 0, 0, 0, 0, 0, 0, 0, 0, 0, 8, 0,
    0x45, 0, 0, 40, 0, 0, 0, 0, 64, 6, 0, 0, 10, 0, 2, 15, 10, 0, 2, 2,
    0x1f, port, 0, 80, 0, 0, 0, 1, 0, 0, 0, 0, 0x50, flags, 0, 0, 0, 0, 0, 0]

/-- The same segment over version 6. -/
def bareFrameV6 (port flags : UInt8) : List UInt8 :=
  [0, 0, 0, 0, 0, 0, 0, 0, 0, 0, 0, 0, 0x86, 0xDD,
    0x60, 0, 0, 0, 0, 20, 6, 64, 0xfe, 0x80, 0, 0, 0, 0, 0, 0, 0, 0, 0, 0, 0, 0, 0, 1,
    0xfe, 0x80, 0, 0, 0, 0, 0, 0, 0, 0, 0, 0, 0, 0, 0, 2,
    0x1f, port, 0, 80, 0, 0, 0, 1, 0, 0, 0, 0, 0x50, flags, 0, 0, 0, 0, 0, 0]

/-- A queue is bound and port 80 has a listener. -/
def listenCalls : List Call := [.bindQueue 0 1 1, .registerListener 80 3]

theorem syn_accepted_iff_listen :
    let s := runCalls boot listenCalls
    s.Accepted (s.processTcpFrame ⟨1000, 1001⟩ (bareFrame 1 flagSyn))
        (tcpFields (bareFrame 1 flagSyn) 34)
        (fun f => f.remoteAddress = readU32le (bareFrame 1 flagSyn) 26) ∧
      s.Accepted (s.processTcpFrameV6 ⟨1000, 1001⟩ (bareFrameV6 1 flagSyn))
        (tcpFields (bareFrameV6 1 flagSyn) 54)
        (fun f => f.remoteAddr = IpAddr.fromRawIpv6 (bareFrameV6 1 flagSyn) 22) := by
  intro s
  have hroom : (∃ i, (s.tcpFlows i).state = .free) ∧ ∃ j, (s.bindings j).inUse = true := by
    decide +kernel
  obtain ⟨hv4, hv6⟩ := syn_accepted_iff listenCalls ⟨1000, 1001⟩ (by decide +kernel)
  constructor
  · refine (hv4 _ _ ⟨?_, ?_, ?_, ?_, ?_, ?_⟩).mpr hroom <;> decide +kernel
  · refine (hv6 _ _ _ (IpAddr.fromRawIpv6 (bareFrameV6 1 flagSyn) 38)
      ⟨rfl, ?_, ?_, ?_, ?_, ?_⟩).mpr hroom <;> decide +kernel

/-- Sixteen peers, one after the other, open a connection and reset it. A day later the
timers run. -/
def resetCalls : List Call :=
  listenCalls ++ (range 16).flatMap (fun k =>
    [.tcpFrame ⟨UInt64.ofNat (1000 * k), UInt64.ofNat (1000 * k + 1)⟩
       (bareFrame (UInt8.ofNat k) flagSyn),
     .tcpFrame ⟨UInt64.ofNat (1000 * k + 500), UInt64.ofNat (1000 * k + 501)⟩
       (bareFrame (UInt8.ofNat k) flagRst)]) ++
  [.retransmitTcpFlows 86400000000000, .expireTcpFlows 86400000000000]

/-- Afterwards every connection is closed, and a SYN from another port is refused. -/
theorem syn_refused_after_resets :
    let s := runCalls boot resetCalls
    (∀ i, (s.tcpFlows i).state = .closed) ∧ s.slots.count .synRecv < 8 ∧
      (∃ j, (s.bindings j).inUse = true) ∧
      s.FreshSyn (bareFrame 16 flagSyn) (tcpFields (bareFrame 16 flagSyn) 34) ∧
      (s.processTcpFrame ⟨86400000000001, 86400000000002⟩ (bareFrame 16 flagSyn)).1 =
        .noMemory := by
  intro s
  -- one evaluation of the run for everything that is asked of its end
  have hend : (∀ i, (s.tcpFlows i).state = .closed) ∧ s.slots.count .synRecv < 8 ∧
      (∃ j, (s.bindings j).inUse = true) ∧
      s.hasListener (tcpFields (bareFrame 16 flagSyn) 34).dstPort = true ∧
      s.findFlowByPorts (tcpFields (bareFrame 16 flagSyn) 34).dstPort
        (tcpFields (bareFrame 16 flagSyn) 34).srcPort (readU32le (bareFrame 16 flagSyn) 26) = none ∧
      (s.processTcpFrame ⟨86400000000001, 86400000000002⟩ (bareFrame 16 flagSyn)).1 =
        .noMemory := by
    decide +kernel
  obtain ⟨hclosed, hcount, hbound, hlistening, hunknown, hstatus⟩ := hend
  refine ⟨hclosed, hcount, hbound, ⟨?_, ?_, ?_, ?_, hlistening, hunknown⟩, hstatus⟩ <;>
    decide +kernel

end Xaios.Net
