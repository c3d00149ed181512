import Xaios.Net.Admission

/-!
# Initialising the stack again

`network_stack_init` can be called at any time. It empties the tables, but it leaves the
counter of half-open connections as it is. So the counter is right as long as no
connection was in its handshake when the tables were emptied, and once it is wrong it
stays wrong: a call keeps what the counter has too much
(`Net.Slots.Step.excess`), and an initialisation adds the handshakes it forgets.
-/

namespace Xaios.Net

open Foundation Stack

/-- What `network_stack_init` does to a slot for TCP flows: the other fields stay. -/
def TcpFlow.cleared (f : TcpFlow) : TcpFlow :=
  { f with
    state := .free
    flowId := 0
    queueId := queueIdInvalid
    cellId := 0
    localPort := 0
    remotePort := 0
    remoteAddress := 0
    localAddress := 0
    localSeq := 0
    lastSeenNs := 0
    retransmits := 0 }

/-- What `network_stack_init` does to a slot for UDP flows. -/
def UdpFlow.cleared (f : UdpFlow) : UdpFlow :=
  { f with
    active := false
    flowId := 0
    queueId := queueIdInvalid
    cellId := 0
    localPort := 0
    remotePort := 0
    localAddress := 0
    remoteAddress := 0
    lastSeenNs := 0 }

/-- `network_stack_init`. The buffers of the pool and `g_half_open_count` are not touched. -/
def Stack.networkStackInit (s : Stack) : Stack where
  bindings := fun _ => ⟨queueIdInvalid, 0, 0, false⟩
  rings := fun _ => ⟨0, 0⟩
  nextFlowId := 1
  packets := fun _ => ⟨.free, queueIdInvalid⟩
  udpFlows := fun i => (s.udpFlows i).cleared
  tcpFlows := fun i => (s.tcpFlows i).cleared
  halfOpen := s.halfOpen
  listeners := fun _ => ⟨0, 0, false, []⟩
  pool := s.pool

theorem idle_networkStackInit (s : Stack) : Idle s.networkStackInit where
  rings := rfl
  packets _ := rfl
  bound _ h := nomatch h

/-- After an initialisation no slot is in its handshake. -/
theorem count_networkStackInit (s : Stack) : s.networkStackInit.slots.count .synRecv = 0 := by
  rw [Slots.count, Finset.card_eq_zero, Finset.filter_eq_empty_iff]
  intro i _ hi
  cases hi

/-! ### Runs with initialisations -/

/-- A call, or an initialisation. -/
inductive InitCall where
  | init
  | call (c : Call)

/-- What it does to the stack. -/
def InitCall.exec (s : Stack) : InitCall → Stack
  | .init => s.networkStackInit
  | .call c => c.exec s

/-- A run of calls and initialisations. -/
def runInitCalls (s : Stack) (cs : List InitCall) : Stack := cs.foldl InitCall.exec s

/-! ### Packets between calls -/

/-- **Between calls no packet is owned**, whatever the calls were. -/
theorem idle_runInitCalls {s : Stack} (hs : Idle s) (cs : List InitCall) :
    Idle (runInitCalls s cs) := by
  refine List.foldlRecOn cs InitCall.exec hs ?_
  rintro t ht (_ | c) -
  · exact idle_networkStackInit t
  · exact (advances_exec ht c).idle

/-- **The life of a packet descriptor.** After an initialisation and any run of calls every
descriptor is free, complete or dropped and every ring is empty. So a frame that fits
gets a descriptor on every queue that is bound, and a place in the ring for
transmission. -/
theorem packets_runInitCalls (s : Stack) (cs : List InitCall) :
    let t := runInitCalls s.networkStackInit cs
    (∀ p, (t.packets p).state = .free ∨ (t.packets p).state = .complete ∨
      (t.packets p).state = .dropped) ∧
    (∀ q, (t.rings q).rxDepth = 0 ∧ (t.rings q).txDepth = 0) ∧
    ∀ queueId length, (t.findBinding queueId).isSome = true → 0 < length → length ≤ 1520 →
      ∃ p u, t.allocPacketDesc queueId length = (some p, u) ∧
        ((u.packetMarkTx p).packets p).state = .txQueued := by
  have hidle := idle_runInitCalls (idle_networkStackInit s) cs
  refine ⟨?_, ?_, ?_⟩
  · intro p
    have hp := hidle.packets p
    rw [PacketDesc.idle, Bool.or_eq_true, Bool.or_eq_true, decide_eq_true_eq, decide_eq_true_eq,
      decide_eq_true_eq, or_assoc] at hp
    exact hp
  · intro q
    rw [hidle.rings]
    exact ⟨rfl, rfl⟩
  · intro queueId length hbound hpos hmax
    obtain ⟨p, u, halloc, hflight⟩ := hidle.allocPacketDesc hbound hpos hmax
    exact ⟨p, u, halloc, hflight.state_packetMarkTx⟩

/-! ### The counter of half-open connections -/

/-- An initialisation finds no slot in its handshake. -/
def InitCall.Settled (s : Stack) (c : InitCall) : Prop :=
  c = .init → s.slots.count .synRecv = 0

/-- What the counter has too much grows with each initialisation that forgets a handshake. -/
theorem excess_runInitCalls {s : Stack} (hs : Idle s) {e : ℕ}
    (he : s.halfOpen = s.slots.count .synRecv + e) (cs : List InitCall) :
    ∃ e', e ≤ e' ∧
      (runInitCalls s cs).halfOpen = (runInitCalls s cs).slots.count .synRecv + e' ∧
      (e' = e ↔ Along InitCall.exec InitCall.Settled s cs) := by
  induction cs generalizing s e with
  | nil => exact ⟨e, le_rfl, he, iff_of_true rfl trivial⟩
  | cons c cs ih =>
    cases c with
    | init =>
      -- the handshakes of the moment are forgotten
      have hinit : s.networkStackInit.halfOpen =
          s.networkStackInit.slots.count .synRecv + (s.slots.count .synRecv + e) := by
        rw [count_networkStackInit, Nat.zero_add]
        exact he
      obtain ⟨e', hle, hrun, hiff⟩ := ih (idle_networkStackInit s) hinit
      refine ⟨e', by omega, hrun, ?_⟩
      constructor
      · intro heq
        have hzero : s.slots.count .synRecv = 0 := by omega
        exact ⟨fun _ => hzero, hiff.mp (by omega)⟩
      · rintro ⟨hsettled, hrest⟩
        have hzero := hsettled rfl
        have heq := hiff.mpr hrest
        omega
    | call c =>
      have hadv := advances_exec hs c
      obtain ⟨e', hle, hrun, hiff⟩ := ih hadv.idle (hadv.slots.excess he)
      refine ⟨e', hle, hrun, hiff.trans ?_⟩
      exact ⟨fun hrest => ⟨nofun, hrest⟩, And.right⟩

/-- **The counter of half-open connections after a run with initialisations.** It is the
number of slots in the handshake exactly when every initialisation was called with no
slot in its handshake. -/
theorem halfOpen_runInitCalls_iff (cs : List InitCall) :
    (runInitCalls boot cs).halfOpen = (runInitCalls boot cs).slots.count .synRecv ↔
      Along InitCall.exec InitCall.Settled boot cs := by
  have hboot : boot.halfOpen = boot.slots.count .synRecv + 0 := by decide
  obtain ⟨e, -, hrun, hiff⟩ := excess_runInitCalls idle_boot hboot cs
  rw [← hiff]
  omega

/-- A SYN arrives, and the stack is initialised again; eight times. -/
def reinitCalls : List InitCall :=
  (List.range 8).flatMap fun k => listenCalls.map InitCall.call ++
    [.call (.tcpFrame ⟨UInt64.ofNat (1000 * k), UInt64.ofNat (1000 * k + 1)⟩ (bareFrame 1 flagSyn)),
      .init]

/-- Then the counter is eight and no slot is in its handshake; with a queue bound and a
listener, a SYN is refused. -/
theorem halfOpen_after_reinit :
    let s := runInitCalls boot (reinitCalls ++ listenCalls.map InitCall.call)
    s.halfOpen = 8 ∧ s.slots.count .synRecv = 0 ∧ (∀ i, (s.tcpFlows i).state = .free) ∧
      (s.processTcpFrame ⟨9000, 9001⟩ (bareFrame 1 flagSyn)).1 = .noMemory := by
  refine ⟨?_, ?_, ?_, ?_⟩ <;> decide +kernel

end Xaios.Net
