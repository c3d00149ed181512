import Xaios.Net.Close
import Xaios.Net.Footprint

/-!
# Cells

Whose queue a frame comes in on. A flow is made for the queue and the cell of a binding,
and both stay in the flow when the queue is released and bound again. The handlers of UDP
frames compare them with the binding; those of TCP frames only look for a binding of the
queue. So a segment of a connection is taken although its queue belongs to another cell
(`Net.segment_crosses_cells`).

The cells are kept apart in every run in which a queue is bound to a cell only while no
connection of another cell on that queue can take a segment
(`Net.cells_isolated`). The invariant is `Net.Stack.Owned`.
-/

namespace Xaios.Net

open Foundation Function Option

/-- The states in which a handler takes a segment. -/
def FlowState.Serving (a : FlowState) : Prop :=
  a = .synRecv ∨ a = .established ∨ a = .closeWait ∨ a = .finWait2 ∨ a = .timeWait

instance : DecidablePred FlowState.Serving := fun a =>
  inferInstanceAs (Decidable (a = .synRecv ∨ a = .established ∨ a = .closeWait ∨
    a = .finWait2 ∨ a = .timeWait))

theorem FlowState.Progress.serving {a b : FlowState} (h : a.Progress b) (hb : b.Serving) :
    a.Serving := by
  cases h with
  | refl => exact hb
  | closeWait | finWait | lastAck | both => decide

namespace Stack

variable {P : Ending → Prop} {s t : Stack} {i : Fin 16} {c : Call}

/-! ### Slots that are taken -/

/-- A slot that was taken has the same owner, is taken still, and takes segments only if
it did. -/
structure Held (f g : TcpFlow) : Prop where
  owner : g.owner = f.owner
  taken : g.state ≠ .free
  serving : g.state.Serving → f.state.Serving

variable {f : TcpFlow}

theorem Held.refl (h : f.state ≠ .free) : Held f f := ⟨rfl, h, id⟩

variable {g : TcpFlow}

theorem Held.trans {h : TcpFlow} (hfg : Held f g) (hgh : Held g h) : Held f h :=
  ⟨hgh.owner.trans hfg.owner, hgh.taken, fun hh => hfg.serving (hgh.serving hh)⟩

theorem Held.of_continues (h : f.Continues g) (hf : f.state ≠ .free) : Held f g where
  owner := TcpFlow.owner_of_endpoint h.endpoint
  taken := by
    rcases h.state.eq_or_open with heq | ⟨-, hopen⟩
    · rwa [heq]
    · exact hopen.1
  serving := h.state.serving

theorem Held.of_closed (howner : g.owner = f.owner) (hg : g.state = .closed) : Held f g := by
  have hserving : ¬FlowState.closed.Serving := by decide
  refine ⟨howner, ?_, fun h => absurd (hg ▸ h) hserving⟩
  rw [hg]
  decide

/-- A change of one flow. -/
theorem held_of_update {k : Fin 16} (ht : t.tcpFlows = update s.tcpFlows k f)
    (hi : (s.tcpFlows i).state ≠ .free)
    (hk : (s.tcpFlows k).state ≠ .free → Held (s.tcpFlows k) f) :
    Held (s.tcpFlows i) (t.tcpFlows i) := by
  rw [ht]
  rcases eq_or_ne i k with rfl | hne
  · rw [update_self]
    exact hk hi
  · rw [update_of_ne hne]
    exact .refl hi

/-- **A change keeps the owner of a slot that is taken.** -/
theorem Change.held (h : Change P s t) (hi : (s.tcpFlows i).state ≠ .free) :
    Held (s.tcpFlows i) (t.tcpFlows i) := by
  cases h with
  | buf | listener | number | udp | openUdp | idleUdp => exact .refl hi
  | flow k f h => exact held_of_update rfl hi fun hk => .of_continues h hk
  | retransmit now => exact .of_continues ((s.tcpFlows i).continues_retransmit now) hi
  | openTcp k f hk hf hr ht => exact held_of_update rfl hi fun hk' => absurd hk hk'
  | establish k f listeners hk hf he hl hp =>
    refine held_of_update rfl hi fun _ => ⟨TcpFlow.owner_of_endpoint he, ?_, fun _ => ?_⟩
    · rw [hf]
      decide
    · rw [hk]
      decide
  | reset k hk hp => exact held_of_update rfl hi fun _ => .of_closed rfl rfl
  | timeout k f hk hk' hf he hp =>
    exact held_of_update rfl hi fun _ => .of_closed (TcpFlow.owner_of_endpoint he) hf

theorem held_exec (c : Call) (hi : (s.tcpFlows i).state ≠ .free) :
    Held (s.tcpFlows i) ((c.exec s).tcpFlows i) :=
  (steps_exec s c).induct (I := fun t => Held (s.tcpFlows i) (t.tcpFlows i)) (.refl hi)
    (fun _ => .rfl) fun _ _ hheld hchange => hheld.trans (hchange.held hheld.taken)

/-! ### Owners -/

/-- **The cells are in order**: a queue is bound once, and the flows that take segments on
a queue belong to the cell that it is bound to. -/
structure Owned (s : Stack) : Prop where
  unique : ∀ i j, (s.bindings i).inUse = true → (s.bindings j).inUse = true →
    (s.bindings i).queueId = (s.bindings j).queueId → i = j
  owner : ∀ i j, (s.tcpFlows i).state.Serving → (s.bindings j).inUse = true →
    (s.bindings j).queueId = (s.tcpFlows i).queueId →
    (s.bindings j).cellId = (s.tcpFlows i).cellId

theorem owned_boot : Owned boot where
  unique _ _ h := nomatch h
  owner _ _ _ h := nomatch h

/-- A queue that is bound once is found. -/
theorem Owned.findBinding (hs : Owned s) {j : Fin 4} (hj : (s.bindings j).inUse = true) :
    s.findBinding (s.bindings j).queueId = some (s.bindings j) := by
  have hsome : (s.findBinding (s.bindings j).queueId).isSome = true := by
    rw [Stack.findBinding, List.find?_isSome]
    exact ⟨s.bindings j, List.mem_map.mpr ⟨j, List.mem_finRange j, rfl⟩, by simp [hj]⟩
  obtain ⟨b, hb⟩ := isSome_iff_exists.mp hsome
  obtain ⟨k, rfl, huse, hqueue⟩ := inUse_of_findBinding hb
  rw [hb, hs.unique k j huse hj hqueue]

/-- Calls that bind nothing keep the cells in order. -/
theorem Owned.of_admits (hs : Owned s) (h : Admits s t)
    (hheld : ∀ i, (s.tcpFlows i).state ≠ .free → Held (s.tcpFlows i) (t.tcpFlows i)) :
    Owned t where
  unique := by
    rw [h.bindings]
    exact hs.unique
  owner := by
    rw [h.bindings]
    intro i j hserving huse hqueue
    by_cases hfree : (s.tcpFlows i).state = .free
    · rcases h.opened i hfree with hstill | ⟨k, hk, howner⟩
      · rw [hstill] at hserving
        exact absurd hserving (by decide)
      · -- the slot was taken for binding `k`, and there is no other one of this queue
        obtain ⟨hq, hc⟩ := Prod.mk.inj howner
        rw [hq] at hqueue
        rw [hs.unique j k huse hk hqueue, hc]
    · have hi := hheld i hfree
      obtain ⟨hq, hc⟩ := Prod.mk.inj hi.owner
      rw [hq] at hqueue
      rw [hc]
      exact hs.owner i j (hi.serving hserving) huse hqueue

/-- One binding is replaced. -/
theorem Owned.rebind (hs : Owned s) {j : Fin 4} {b : QueueBinding} {queueId : UInt32}
    (hunique : b.inUse = true → ∀ k, (s.bindings k).inUse = true →
      (s.bindings k).queueId ≠ b.queueId)
    (howner : b.inUse = true → ∀ i, (s.tcpFlows i).state.Serving →
      b.queueId = (s.tcpFlows i).queueId → b.cellId = (s.tcpFlows i).cellId) :
    Owned (s.rebind j b queueId) := by
  have hcore : (s.rebind j b queueId).core =
      { s with bindings := update s.bindings j b }.core := core_queueRingReset
  constructor
  · rw [bindings_of_core hcore]
    intro i k hi hk heq
    dsimp only at hi hk heq
    rcases eq_or_ne i j with rfl | hij
    · rcases eq_or_ne k i with rfl | hki
      · rfl
      · rw [update_self] at hi heq
        rw [update_of_ne hki] at hk heq
        exact absurd heq.symm (hunique hi k hk)
    · rw [update_of_ne hij] at hi heq
      rcases eq_or_ne k j with rfl | hkj
      · rw [update_self] at hk heq
        exact absurd heq (hunique hk i hi)
      · rw [update_of_ne hkj] at hk heq
        exact hs.unique i k hi hk heq
  · rw [bindings_of_core hcore, tcpFlows_of_core hcore]
    intro i k hserving hk heq
    dsimp only at hk heq ⊢
    rcases eq_or_ne k j with rfl | hkj
    · rw [update_self] at hk heq ⊢
      exact howner hk i hserving heq
    · rw [update_of_ne hkj] at hk heq ⊢
      exact hs.owner i k hserving hk heq

end Stack

open Stack

variable {s : Stack} {c : Call}

/-- **A queue changes hands only when it is idle**: when a cell gets a queue, the flows on
that queue that take segments are its own. -/
def Call.KeepsCells (s : Stack) : Call → Prop
  | .bindQueue cellId queueId coreMask => (s.bindQueue cellId queueId coreMask).1 = .ok →
      ∀ i, (s.tcpFlows i).state.Serving → (s.tcpFlows i).queueId = queueId →
        (s.tcpFlows i).cellId = cellId
  | _ => True

theorem Stack.Owned.exec (hs : Owned s) (hc : c.KeepsCells s) : Owned (c.exec s) := by
  by_cases hbind : c.rebinds = false
  · exact hs.of_admits (admits_exec s hbind) fun _ hi => held_exec c hi
  · cases c with
    | bindQueue cellId queueId coreMask =>
      rw [Call.KeepsCells] at hc
      rw [Call.exec]
      unfold bindQueue at hc ⊢
      split_ifs at hc ⊢ with harg hbound
      · exact hs
      · exact hs
      · split
        · next j hj =>
          rw [hj] at hc
          refine hs.rebind (fun _ k hk heq => hbound ?_) fun _ i hserving heq =>
            (hc rfl i hserving heq.symm).symm
          have hfound := hs.findBinding hk
          rw [heq] at hfound
          exact isSome_of_mem hfound
        · exact hs
    | releaseQueue queueId cellId =>
      rw [Call.exec, releaseQueue]
      split
      · have hfree : ¬(false = true) := Bool.false_ne_true
        exact hs.rebind (fun h => absurd h hfree) fun h => absurd h hfree
      · exact hs
    | _ => exact absurd rfl hbind

/-! ### Frames -/

/-- What the handler of a frame answers. -/
def Call.frameStatus (s : Stack) : Call → Status
  | .tcpFrame clock frame => (s.processTcpFrame clock frame).1
  | .tcpFrameV6 clock frame => (s.processTcpFrameV6 clock frame).1
  | .udpFrame now frame => (s.processUdpFrame now frame).1
  | .udpFrameV6 now frame => (s.processUdpFrameV6 now frame).1
  | _ => .invalid

/-- **The queue and the cell of the flow that a frame is for**, if there is one already. -/
def Call.flowOwner (s : Stack) : Call → Option (UInt32 × UInt32)
  | .tcpFrame _ frame => (parseTcp frame).bind fun fields =>
      (s.findFlowByPorts fields.dstPort fields.srcPort (readU32le frame 26)).map fun i =>
        (s.tcpFlows i).owner
  | .tcpFrameV6 _ frame => (parseTcpV6 frame).bind fun r =>
      (s.findFlowByPortsV6 r.1.dstPort r.1.srcPort r.2.1).map fun i => (s.tcpFlows i).owner
  | c => c.endpoints.bind fun e =>
      (s.findUdpFlow e.key.localPort e.key.remotePort e.key.localAddress e.key.remoteAddress).map
        fun i => (s.udpFlows i).home

/-- **A frame that is taken for a flow that exists** comes in while the queue of the flow is
bound to the cell of the flow. -/
def Call.Isolated (s : Stack) (c : Call) : Prop :=
  ∀ queueId cellId, c.flowOwner s = some (queueId, cellId) → c.frameStatus s = .ok →
    ∃ b, s.findBinding queueId = some b ∧ b.cellId = cellId

variable {i : Fin 16} {b : QueueBinding}

/-- A segment is taken only in a state that takes segments. -/
theorem serving_of_tcpBody {localAddress remoteAddress : UInt32} {seg : Segment} {clock : Clock}
    (h : (tcpBody (some i) localAddress remoteAddress seg clock b s).1 = .ok) :
    (s.tcpFlows i).state.Serving := by
  unfold tcpBody at h
  dsimp only at h
  split_ifs at h with hrst hsyn hopen
  · exact .inl hsyn.1
  · exact .inr (hopen.imp_right .inl)

theorem serving_of_tcpBodyV6 {localAddr remoteAddr : IpAddr} {seg : Segment} {clock : Clock}
    (h : (tcpBodyV6 (some i) localAddr remoteAddr seg clock b s).1 = .ok) :
    (s.tcpFlows i).state.Serving := by
  unfold tcpBodyV6 at h
  dsimp only at h
  split_ifs at h with hrst hsyn hopen
  · exact .inl hsyn.1
  · exact .inr hopen

/-- A flow that serves on the queue of a binding belongs to its cell. -/
theorem Stack.Owned.isolated (hs : Owned s) {length : ℕ}
    {body : QueueBinding → Stack → Status × Stack}
    (hok : (s.dispatch (s.findBinding (s.tcpFlows i).queueId) length body).1 = .ok)
    (hbody : ∀ b t, (body b t).1 = .ok → (t.tcpFlows i).state.Serving) :
    ∃ b, s.findBinding (s.tcpFlows i).queueId = some b ∧ b.cellId = (s.tcpFlows i).cellId := by
  rcases dispatch_status_cases s (s.findBinding (s.tcpFlows i).queueId) length body with
    ⟨hno, -⟩ | ⟨b, t, ⟨hb, -⟩, ht, hstatus, -⟩
  · exact absurd hok hno
  · have hserving := hbody b t (hstatus.symm.trans hok)
    rw [tcpFlows_of_core ht] at hserving
    obtain ⟨j, rfl, huse, hqueue⟩ := inUse_of_findBinding hb
    exact ⟨s.bindings j, hb, hs.owner i j hserving huse hqueue⟩

/-- A flow that takes a datagram is one of the queue and the cell it came in on. -/
theorem home_of_takeUdp {k : UdpKey} {addrs : UdpFlow → IpAddr × IpAddr} {payload : List UInt8}
    {now : UInt64} (hok : (takeUdp k addrs payload now b s).1 = .ok)
    (hfind : s.findUdpFlow k.localPort k.remotePort k.localAddress k.remoteAddress = some i) :
    (s.udpFlows i).home = b.owner := by
  have hslot : s.udpSlot k = some i := by
    rw [udpSlot, hfind, some_or]
  rcases s.allocUdpFlow_cases b k now with ⟨hnone, -⟩ | ⟨j, t, halloc, h⟩
  · rw [hslot] at hnone
    cases hnone
  · obtain rfl := some.inj (h.slot.symm.trans hslot)
    have h' := h.withAddrs (addrs (t.udpFlows j)).1 (addrs (t.udpFlows j)).2
    have hhome := h'.home
    rw [if_pos (key_of_findUdpFlow hfind).1] at hhome
    rw [takeUdp, halloc] at hok
    dsimp only at hok
    rw [receiveUdp] at hok
    split at hok
    · cases hok
    · next heq =>
      rw [not_or, not_not, not_not] at heq
      rw [← hhome]
      exact Prod.ext heq.1 heq.2

/-- Datagrams are always kept apart. -/
theorem Stack.Owned.isolated_udp (hs : Owned s) {e : Endpoints} (he : c.endpoints = some e)
    (hok : c.udpStatus s = .ok)
    (hfind : s.findUdpFlow e.key.localPort e.key.remotePort e.key.localAddress
      e.key.remoteAddress = some i) :
    ∃ b, s.findBinding (s.udpFlows i).queueId = some b ∧ b.cellId = (s.udpFlows i).cellId := by
  obtain ⟨-, flow, p, q, a, a', addrs, payload, now, -, heq⟩ := exec_of_endpoints s he
  have hcases := dispatch_status_cases s (s.udpBinding flow p q a a') c.datagram.length
    (takeUdp e.key addrs payload now)
  rw [← heq] at hcases
  rcases hcases with ⟨hno, -⟩ | ⟨b, t, ⟨hb, -⟩, ht, hstatus, -⟩
  · exact absurd hok hno
  · obtain ⟨j, rfl, huse⟩ := inUse_of_binding hb
    have hfind' : t.findUdpFlow e.key.localPort e.key.remotePort e.key.localAddress
        e.key.remoteAddress = some i := by
      rw [Stack.findUdpFlow, udpFlows_of_core ht]
      exact hfind
    rw [← udpFlows_of_core ht]
    obtain ⟨hq, hcell⟩ := Prod.mk.inj (home_of_takeUdp (hstatus.symm.trans hok) hfind')
    rw [hq, hcell]
    exact ⟨s.bindings j, hs.findBinding huse, rfl⟩

/-- **When the cells are in order, every frame is isolated.** -/
theorem Stack.Owned.isolated_call (hs : Owned s) (c : Call) : c.Isolated s := by
  intro queueId cellId howner hok
  cases c with
  | tcpFrame clock frame =>
    obtain ⟨fields, hparse, hmap⟩ := bind_eq_some_iff.mp howner
    obtain ⟨i, hfind, heq⟩ := map_eq_some_iff.mp hmap
    obtain ⟨rfl, rfl⟩ := Prod.mk.inj heq
    have hlen := (spec_of_parseTcp hparse).1
    rw [Call.frameStatus, processTcpFrame, if_neg (Nat.not_lt.mpr hlen), hparse] at hok
    dsimp only at hok
    rw [hfind] at hok
    exact hs.isolated hok fun _ _ => serving_of_tcpBody
  | tcpFrameV6 clock frame =>
    obtain ⟨⟨fields, src, dst⟩, hparse, hmap⟩ := bind_eq_some_iff.mp howner
    obtain ⟨i, hfind, heq⟩ := map_eq_some_iff.mp hmap
    obtain ⟨rfl, rfl⟩ := Prod.mk.inj heq
    have hlen := (spec_of_parseTcpV6 hparse).1
    rw [Call.frameStatus, processTcpFrameV6, if_neg (Nat.not_lt.mpr hlen), hparse] at hok
    dsimp only at hok hfind
    rw [hfind] at hok
    exact hs.isolated hok fun _ _ => serving_of_tcpBodyV6
  | udpFrame now frame | udpFrameV6 now frame =>
    obtain ⟨e, he, hmap⟩ := bind_eq_some_iff.mp howner
    obtain ⟨i, hfind, heq⟩ := map_eq_some_iff.mp hmap
    obtain ⟨rfl, rfl⟩ := Prod.mk.inj heq
    exact hs.isolated_udp he hok hfind
  | _ => cases hok

/-- **Isolation of cells.** In a run from boot in which every queue is bound to a cell only
while no connection of another cell takes segments on it, every frame that is taken for a
flow that exists, TCP or UDP, comes in on a queue of the flow's own cell. -/
theorem cells_isolated (cs : List Call) (h : Along Call.exec Call.KeepsCells boot cs) :
    Along Call.exec Call.Isolated boot cs :=
  h.imp owned_boot fun _ c hs hc => ⟨hs.isolated_call c, hs.exec hc⟩

/-- A connection is opened on a queue of cell 0; the queue is released and bound to a cell,
and another segment of the connection arrives. -/
def rebindCalls (cellId : UInt32) : List Call :=
  listenCalls ++ [.tcpFrame ⟨1000, 1001⟩ (bareFrame 1 flagSyn),
    .tcpFrame ⟨2000, 2001⟩ (bareFrame 1 flagAck), .releaseQueue 1 0, .bindQueue cellId 1 1,
    .tcpFrame ⟨3000, 3001⟩ (bareFrame 1 flagAck)]

/-- Cell 0 may have its queue back. -/
theorem cells_isolated_rebind : Along Call.exec Call.Isolated boot (rebindCalls 0) := by
  refine cells_isolated _ ⟨?_, trivial, trivial, trivial, trivial, ?_, trivial, trivial⟩
  · exact fun _ i hi => absurd hi (by decide +revert +kernel)
  · exact fun _ i _ _ => by decide +revert +kernel

/-- **A segment of one cell is taken on the queue of another.** -/
theorem segment_crosses_cells :
    ¬Along Call.exec Call.Isolated boot (rebindCalls 2) ∧
      let s := runCalls boot ((rebindCalls 2).take 6)
      (s.processTcpFrame ⟨3000, 3001⟩ (bareFrame 1 flagAck)).1 = .ok ∧
        (s.tcpFlows 0).owner = (1, 0) ∧
        (s.findBinding 1).map QueueBinding.cellId = some 2 := by
  have hend : let s := runCalls boot ((rebindCalls 2).take 6)
      (s.processTcpFrame ⟨3000, 3001⟩ (bareFrame 1 flagAck)).1 = .ok ∧
        (s.tcpFlows 0).owner = (1, 0) ∧
        (s.findBinding 1).map QueueBinding.cellId = some 2 := by
    decide +kernel
  refine ⟨fun h => ?_, hend⟩
  -- the last call is the segment
  obtain ⟨b, hb, hcell⟩ := h.2.2.2.2.2.2.1 1 0 (by decide +kernel) hend.1
  have hbound := hend.2.2
  rw [show (runCalls boot ((rebindCalls 2).take 6)).findBinding 1 = some b from hb,
    map_some, hcell] at hbound
  cases hbound

end Xaios.Net
