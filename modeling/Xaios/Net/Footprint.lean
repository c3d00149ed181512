import Xaios.Net.Datagrams
import Xaios.Net.Handshake

/-!
# What a call leaves alone

Who changes the bindings, the listeners and the owners of flows. Queues are bound and
released by two calls only. Listeners are changed by their own
three calls and by the segment that completes a handshake, which puts one entry into a
backlog (`Net.listeners_exec`, `Net.completed_of_ends`). A slot that was free is
free still, or it belongs to the queue and the cell of a binding (`Net.admits_exec`).
-/

namespace Xaios.Net

open Foundation Function

/-- The queue and the cell a flow was made for. -/
def TcpFlow.owner (f : TcpFlow) : UInt32 × UInt32 := (f.queueId, f.cellId)

/-- The queue and the cell of a binding. -/
def QueueBinding.owner (b : QueueBinding) : UInt32 × UInt32 := (b.queueId, b.cellId)

theorem TcpFlow.owner_of_endpoint {f g : TcpFlow} (h : g.endpoint = f.endpoint) :
    g.owner = f.owner :=
  (congrArg owner h : g.endpoint.owner = f.endpoint.owner)

namespace Stack

variable {s t : Stack} {c : Call}

/-! ### Bindings and owners -/

/-- What a call may do that binds no queue: a slot that was free is taken only for a queue
and a cell that are bound. -/
structure Admits (s t : Stack) : Prop where
  bindings : t.bindings = s.bindings
  opened : ∀ k, (s.tcpFlows k).state = .free → (t.tcpFlows k).state = .free ∨
    ∃ j, (s.bindings j).inUse = true ∧ (t.tcpFlows k).owner = (s.bindings j).owner

theorem Admits.refl (s : Stack) : Admits s s := ⟨rfl, fun _ hk => Or.inl hk⟩

theorem Admits.core_iff : Admits s.core t.core ↔ Admits s t :=
  ⟨fun h => ⟨h.bindings, h.opened⟩, fun h => ⟨h.bindings, h.opened⟩⟩

theorem Confined.admits (h : Confined s.taken s t) : Admits s t where
  bindings := h.bindings
  opened k hk := .inl ((h.state k fun hne => hne hk).trans hk)

theorem Body.admits {P : Ending → Prop} (h : Body P s t) : Admits s t := by
  cases h with
  | served h => exact h.confined.admits
  | opens i f n hi hf hr ht hb =>
    refine ⟨rfl, fun k hk => ?_⟩
    rcases eq_or_ne k i with rfl | hne
    · obtain ⟨j, huse, hqueue, hcell⟩ := hb
      refine .inr ⟨j, huse, ?_⟩
      rw [tcpFlows_setFlow_self]
      exact Prod.ext hqueue hcell
    · exact .inl ((congrArg TcpFlow.state (update_of_ne hne _ _)).trans hk)
  | completes i seg start peerIp peerAddr hi hp =>
    obtain ⟨listeners, heq, -⟩ := s.establishFlow_eq i seg start peerIp peerAddr
    rw [heq]
    refine ⟨rfl, fun k hk => .inl ?_⟩
    have hne : k ≠ i := by
      rintro rfl
      rw [hk] at hi
      cases hi
    exact (congrArg TcpFlow.state (update_of_ne hne _ _)).trans hk
  | resets i hi hp =>
    refine ⟨rfl, fun k hk => .inl ?_⟩
    have hne : k ≠ i := fun hki => hi (hki ▸ hk)
    exact (congrArg TcpFlow.state (update_of_ne hne _ _)).trans hk

end Stack

open Stack

variable {s t : Stack} {c : Call}

theorem Stack.Performs.admits (h : Performs c s t) (hbind : c.rebinds = false) : Admits s t := by
  cases h with
  | served h => exact h.confined.admits
  | datagram hc h =>
    exact (h.imp fun h => h.confined.admits).lift (fun _ _ => Admits.core_iff) .refl
  | segment hc h => exact (h.imp Body.admits).lift (fun _ _ => Admits.core_iff) .refl
  | listener hc j l h => exact ⟨rfl, fun _ hk => .inl hk⟩
  | rebind hc => exact absurd hc (Bool.eq_false_iff.mp hbind)

theorem admits_exec (s : Stack) (hbind : c.rebinds = false) : Admits s (c.exec s) :=
  (performs_exec s c).admits hbind

/-! ### Listeners -/

theorem Stack.Performs.listeners (h : Performs c s t) (hlisten : c.listens = false)
    (hends : ∀ f, ¬c.Ends s (.handshake f)) : t.listeners = s.listeners := by
  cases h with
  | served h => exact h.confined.listeners
  | datagram hc h =>
    exact (h.imp fun h => h.confined.listeners).lift
      (fun _ _ => .rfl) fun _ => rfl
  | segment hc h =>
    refine (h.imp (C := fun s t => t.listeners = s.listeners) fun h => ?_).lift
      (fun _ _ => .rfl) fun _ => rfl
    cases h with
    | served h => exact h.confined.listeners
    | completes i seg start peerIp peerAddr hi hp => exact absurd hp (hends _)
    | opens | resets => rfl
  | listener hc => exact absurd hc (Bool.eq_false_iff.mp hlisten)
  | @rebind hc j b queueId =>
    have hlisteners := listeners_of_core (s.core_rebind j b queueId)
    exact hlisteners

/-- **Listeners are changed by their own calls and by completed handshakes only.** -/
theorem listeners_exec (s : Stack) (hlisten : c.listens = false)
    (hends : ∀ f, ¬c.Ends s (.handshake f)) : (c.exec s).listeners = s.listeners :=
  (performs_exec s c).listeners hlisten hends

/-- **A completed handshake** puts the flow into the backlog of the listener of its port, if
there is one and it has room. -/
theorem completed_of_ends (hs : Idle s) {f : TcpFlow} (h : c.Ends s (.handshake f)) :
    ∃ i entry, s.tcpFlows i = f ∧ f.state = .synRecv ∧ Establishes s (c.exec s) i ∧
      entry.flowId = f.flowId ∧ entry.localPort = f.localPort ∧
      (c.exec s).listeners = (s.acceptQueueEnqueue entry).listeners := by
  obtain ⟨i, seg, start, peerIp, peerAddr, rfl, hsyn, hport, hcore⟩ := exec_of_ends hs h
  refine ⟨i, ⟨(s.tcpFlows i).flowId, peerIp, peerAddr, seg.fields.srcPort, seg.fields.dstPort⟩,
    rfl, hsyn, (establishes_establishFlow i seg start peerIp peerAddr).of_core hcore, rfl, hport,
    ?_⟩
  rw [listeners_of_core hcore, establishFlow, acceptQueueEnqueue_eq s (by rfl)]

end Xaios.Net
