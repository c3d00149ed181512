import Xaios.Foundation.Ledger
import Xaios.Net.Changes

/-!
# The life of a flow slot

What calls can do to the sixteen slots for TCP flows, as a small transition system:
a slot is opened when it is free, leaves the handshake, or moves between the other
states (`Net.Slots.Step`). It has no transition back to `free`.

Every call of the stack is a sequence of such transitions and leaves the queues idle
(`Net.advances_exec`). Two facts about every run follow:
the counter of half-open connections is the number of slots in the handshake
(`Net.halfOpen_runCalls`), and a slot that was taken once is never free again
(`Net.taken_runCalls`).
-/

namespace Xaios.Net

open Foundation Function

/-! ### The transition system -/

/-- The states of the slots and the counter `g_half_open_count`. -/
@[ext]
structure Slots where
  states : Fin 16 → FlowState
  halfOpen : ℕ

/-- The slots of a stack. -/
def Stack.slots (s : Stack) : Slots := ⟨fun i => (s.tcpFlows i).state, s.halfOpen⟩

namespace Slots

/-- A slot changes its state. -/
inductive Step : Slots → Slots → Prop where
  /-- A SYN takes a free slot. -/
  | opens (t : Slots) (i : Fin 16) (hi : t.states i = .free) :
      Step t ⟨update t.states i .synRecv, t.halfOpen + 1⟩
  /-- A handshake ends, one way or the other. -/
  | leaves (t : Slots) (i : Fin 16) (b : FlowState) (hi : t.states i = .synRecv)
      (hfree : b ≠ .free) (hsyn : b ≠ .synRecv) :
      Step t ⟨update t.states i b, t.halfOpen - 1⟩
  /-- A connection moves on after its handshake. -/
  | moves (t : Slots) (i : Fin 16) (b : FlowState) (hi : t.states i ≠ .free)
      (hi' : t.states i ≠ .synRecv) (hfree : b ≠ .free) (hsyn : b ≠ .synRecv) :
      Step t ⟨update t.states i b, t.halfOpen⟩

/-- How many slots are in a state. -/
def count (t : Slots) (a : FlowState) : ℕ := (Finset.univ.filter fun i => t.states i = a).card

theorem count_eq_sum (t : Slots) (a : FlowState) :
    t.count a = ∑ i, if t.states i = a then 1 else 0 := by
  rw [count, Finset.card_filter]

/-- A change of one slot changes the count by that slot. -/
theorem count_update (t : Slots) (i : Fin 16) (b a : FlowState) (n : ℕ) :
    count ⟨update t.states i b, n⟩ a + (if t.states i = a then 1 else 0) =
      t.count a + if b = a then 1 else 0 := by
  have hcongr : ∀ j, (if update t.states i b j = a then 1 else 0) =
      update (fun j => if t.states j = a then 1 else 0) i (if b = a then 1 else 0) j := by
    intro j
    rcases eq_or_ne j i with rfl | hne
    · simp
    · simp [hne]
  rw [count_eq_sum, count_eq_sum, Finset.sum_congr rfl fun j _ => hcongr j, sum_update_add]

variable {t u : Slots}

/-- A transition keeps what the counter has above the number of slots in the handshake. -/
theorem Step.excess (h : Step t u) {e : ℕ} (ht : t.halfOpen = t.count .synRecv + e) :
    u.halfOpen = u.count .synRecv + e := by
  cases h with
  | opens i hi =>
    have hcount := t.count_update i .synRecv .synRecv (t.halfOpen + 1)
    simp only [hi, reduceCtorEq, if_false, if_true] at hcount
    dsimp only
    omega
  | leaves i b hi hfree hsyn =>
    have hcount := t.count_update i b .synRecv (t.halfOpen - 1)
    simp only [hi, hsyn, if_false, if_true] at hcount
    dsimp only
    omega
  | moves i b hi hi' hfree hsyn =>
    have hcount := t.count_update i b .synRecv t.halfOpen
    simp only [hi', hsyn, if_false] at hcount
    dsimp only
    omega

/-- The counter counts the slots in the handshake. -/
def Accounted (t : Slots) : Prop := t.halfOpen = t.count .synRecv

/-- **No transition gives a slot back.** -/
theorem Step.taken (h : Step t u) {i : Fin 16} (hi : t.states i ≠ .free) : u.states i ≠ .free := by
  have hupdate : ∀ j (b : FlowState), b ≠ .free → update t.states j b i ≠ .free := by
    intro j b hb
    rcases eq_or_ne i j with rfl | hne
    · rwa [update_self]
    · rwa [update_of_ne hne]
  cases h with
  | opens j hj => exact hupdate j _ nofun
  | leaves j b hj hfree hsyn => exact hupdate j b hfree
  | moves j b hj hj' hfree hsyn => exact hupdate j b hfree

/-- Slots after some transitions. -/
abbrev Evolves (t u : Slots) : Prop := Relation.ReflTransGen Step t u

theorem Evolves.excess (h : Evolves t u) {e : ℕ} (ht : t.halfOpen = t.count .synRecv + e) :
    u.halfOpen = u.count .synRecv + e := by
  induction h with
  | refl => exact ht
  | tail _ hstep ih => exact hstep.excess ih

theorem Evolves.accounted (h : Evolves t u) (ht : t.Accounted) : u.Accounted :=
  h.excess (e := 0) ht

theorem Evolves.taken (h : Evolves t u) {i : Fin 16} (hi : t.states i ≠ .free) :
    u.states i ≠ .free := by
  induction h with
  | refl => exact hi
  | tail _ hstep ih => exact hstep.taken ih

end Slots

/-! ### What a call can do -/

namespace Stack

variable {P : Ending → Prop} {s t u : Stack} {i : Fin 16} {f : TcpFlow}

/-- The effect of a call that binds no queue. -/
structure Effect (s t : Stack) : Prop where
  queues : KeepsQueues s t
  slots : Slots.Evolves s.slots t.slots

theorem Effect.refl (s : Stack) : Effect s s := ⟨⟨rfl, rfl, rfl⟩, .refl⟩

theorem Effect.trans (h : Effect s t) (h' : Effect t u) : Effect s u where
  queues :=
    { bindings := h'.queues.bindings.trans h.queues.bindings
      rings := h'.queues.rings.trans h.queues.rings
      packets := h'.queues.packets.trans h.queues.packets }
  slots := h.slots.trans h'.slots

/-- The slots after a change of one flow. -/
theorem slots_of_update (ht : t.tcpFlows = update s.tcpFlows i f) :
    t.slots = ⟨update s.slots.states i f.state, t.halfOpen⟩ := by
  refine Slots.ext ?_ rfl
  funext j
  have hj := apply_update (fun _ => TcpFlow.state) s.tcpFlows i f j
  rw [← ht] at hj
  exact hj

/-- A connection that continues keeps its state, or moves on after the handshake. -/
theorem evolves_flow (h : (s.tcpFlows i).state.Moves f.state) :
    Slots.Evolves s.slots (s.setFlow i f).slots := by
  rw [slots_of_update (t := s.setFlow i f) rfl]
  rcases h with heq | ⟨ha, hb⟩
  · have hsame : update s.slots.states i f.state = s.slots.states := by
      rw [heq]
      exact update_eq_self i s.slots.states
    rw [hsame]
    exact .refl
  · exact .single (.moves s.slots i f.state ha.1 ha.2 hb.1 hb.2)

/-- A handshake that ends is counted off. -/
theorem evolves_leave (ht : t.tcpFlows = update s.tcpFlows i f)
    (hn : t.halfOpen = s.halfOpen - 1) (hi : (s.tcpFlows i).state = .synRecv)
    (hf : f.state.PastHandshake) : Slots.Evolves s.slots t.slots := by
  rw [slots_of_update ht, hn]
  exact .single (.leaves s.slots i f.state hi hf.1 hf.2)

/-- A flow that is closed leaves the handshake, if it was in it. -/
theorem evolves_close (ht : t.tcpFlows = update s.tcpFlows i f)
    (hn : t.halfOpen = if (s.tcpFlows i).state = .synRecv then s.halfOpen - 1 else s.halfOpen)
    (hi : (s.tcpFlows i).state ≠ .free) (hf : f.state = .closed) :
    Slots.Evolves s.slots t.slots := by
  have hpast : f.state.PastHandshake := hf ▸ FlowState.pastHandshake_closed
  by_cases hsyn : (s.tcpFlows i).state = .synRecv
  · exact evolves_leave ht (hn.trans (if_pos hsyn)) hsyn hpast
  · rw [slots_of_update ht, hn, if_neg hsyn]
    exact .single (.moves s.slots i f.state hi hsyn hpast.1 hpast.2)

/-- **Every change is a transition of the slots, or none.** -/
theorem Change.effect (h : Change P s t) : Effect s t := by
  cases h with
  | buf | listener | number | udp | openUdp | idleUdp => exact ⟨⟨rfl, rfl, rfl⟩, .refl⟩
  | flow i f h => exact ⟨⟨rfl, rfl, rfl⟩, evolves_flow h.state.moves⟩
  | retransmit now =>
    refine ⟨⟨rfl, rfl, rfl⟩, ?_⟩
    have hslots : (s.retransmitTcpFlows now).2.slots = s.slots := by
      refine Slots.ext (funext fun i => ?_) rfl
      exact TcpFlow.state_retransmit (s.tcpFlows i) now
    rw [hslots]
  | openTcp i f hi hf hr ht =>
    refine ⟨⟨rfl, rfl, rfl⟩, ?_⟩
    have hopen := Slots.Step.opens s.slots i hi
    rw [← hf] at hopen
    rw [slots_of_update (t := { s.takeBuf.2.takeBuf.2.setFlow i f with
      halfOpen := s.halfOpen + 1 }) rfl]
    exact .single hopen
  | establish i f listeners hi hf he hl hp =>
    exact ⟨⟨rfl, rfl, rfl⟩, evolves_leave rfl rfl hi (hf ▸ FlowState.pastHandshake_established)⟩
  | reset i hi hp => exact ⟨⟨rfl, rfl, rfl⟩, evolves_close rfl rfl hi rfl⟩
  | timeout i f hi hi' hf he hp => exact ⟨⟨rfl, rfl, rfl⟩, evolves_close rfl rfl hi hf⟩

theorem Changes.effect (h : Changes P s t) : Effect s t := by
  induction h with
  | refl => exact .refl s
  | tail _ hstep ih => exact ih.trans hstep.effect

/-! ### Runs -/

/-- What a call does to an idle stack. -/
structure Advances (s t : Stack) : Prop where
  idle : Idle t
  slots : Slots.Evolves s.slots t.slots

theorem Effect.advances (h : Effect s t) (hs : Idle s) : Advances s t :=
  ⟨hs.of_eq h.queues.rings h.queues.packets h.queues.bindings, h.slots⟩

theorem slots_of_core (h : t.core = s.core) : t.slots = s.slots := by
  rw [slots, slots, tcpFlows_of_core h, halfOpen_of_core h]

/-- Binding a queue and releasing one: a ring that is reset was empty already. -/
theorem advances_rebind (hs : Idle s) (j : Fin 4) {b : QueueBinding} (queueId : UInt32)
    (hb : b.inUse = true → b.queueId.toNat < 4) : Advances s (s.rebind j b queueId) := by
  have hcore := s.core_rebind j b queueId
  have hbindings : (s.rebind j b queueId).bindings = update s.bindings j b :=
    bindings_of_core hcore
  refine ⟨⟨?_, ?_, ?_⟩, ?_⟩
  · unfold rebind queueRingReset
    split
    · rw [setRing, hs.rings, update_eq_self_iff.mpr rfl]
    · exact hs.rings
  · intro p
    unfold rebind queueRingReset
    split <;> exact hs.packets p
  · rw [hbindings]
    exact (forall_update_iff s.bindings fun _ b =>
      b.inUse = true → b.queueId.toNat < 4).mpr ⟨hb, fun k _ => hs.bound k⟩
  · rw [slots_of_core hcore]
    exact .refl

theorem Handles.advances (h : Handles (Changes P) s t) (hs : Idle s) : Advances s t := by
  cases h with
  | refused => exact (Effect.refl s).advances hs
  | @handed binding length body hbody =>
    refine ⟨idle_dispatch hs fun b t hb ht => (Changes.effect (hbody b t hb ht)).queues, ?_⟩
    rcases s.dispatch_status_cases binding length body with ⟨-, hcore⟩ | ⟨b, t, hb, ht, -, hcore⟩
    · rw [slots_of_core hcore]
    · rw [slots_of_core hcore, ← slots_of_core ht]
      exact (Changes.effect (hbody b t hb ht)).slots

theorem Performs.advances {c : Call} (h : Performs c s t) (hs : Idle s) : Advances s t := by
  cases h with
  | served h => exact (Changes.effect h.changes).advances hs
  | datagram hc h => exact (h.imp Served.changes).advances hs
  | segment hc h => exact (h.imp Body.changes).advances hs
  | listener hc j l h => exact Effect.advances ⟨⟨rfl, rfl, rfl⟩, .refl⟩ hs
  | rebind hc j queueId hb => exact advances_rebind hs j queueId hb

end Stack

open Stack

variable {s : Stack}

/-- **Every call is a sequence of transitions of the slots and leaves the queues idle.** -/
theorem advances_exec (hs : Idle s) (c : Call) : Advances s (c.exec s) :=
  (performs_exec s c).advances hs

theorem advances_runCalls (hs : Idle s) (cs : List Call) : Advances s (runCalls s cs) := by
  induction cs generalizing s with
  | nil => exact (Effect.refl s).advances hs
  | cons c cs ih =>
    have hc := advances_exec hs c
    have hcs := ih hc.idle
    exact ⟨hcs.idle, hc.slots.trans hcs.slots⟩

/-- **The counter of half-open connections is right in every run.** -/
theorem halfOpen_runCalls (cs : List Call) :
    (runCalls boot cs).halfOpen = (runCalls boot cs).slots.count .synRecv := by
  have hboot : boot.slots.halfOpen = boot.slots.count .synRecv := by decide
  exact (advances_runCalls idle_boot cs).slots.accounted hboot

/-- **A slot that was taken is never free again**, whatever happens to its connection. -/
theorem taken_runCalls (hs : Idle s) (cs : List Call) {i : Fin 16}
    (hi : (s.tcpFlows i).state ≠ .free) : ((runCalls s cs).tcpFlows i).state ≠ .free :=
  (advances_runCalls hs cs).slots.taken hi

end Xaios.Net
