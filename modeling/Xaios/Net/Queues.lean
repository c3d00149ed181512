import Xaios.Net.Stack

/-!
# Queues between calls

While a frame is processed it owns a packet descriptor and a place in a ring. Between
calls nothing is owned (`Net.Stack.Idle`), and this is why no frame is ever
refused for want of a descriptor: `Net.Stack.dispatch` leaves the stack idle
whenever its body keeps to the tables (`Net.Stack.idle_dispatch`), and in an
idle stack it runs the body (`Net.Stack.dispatch_of_idle`).

What a descriptor and the rings are at each moment in between is
`Net.Stack.InFlight`. Everything else is untouched: the functions on packets
keep the `Net.Stack.core`.
-/

namespace Xaios.Net.Stack

open Function List

variable {s t : Stack} {p : Fin 16} {queueId : UInt32}

/-! ### What packets leave alone -/

/-- The stack without its rings and packets. -/
def core (s : Stack) : Stack :=
  { s with rings := fun _ => ⟨0, 0⟩, packets := fun _ => ⟨.free, queueIdInvalid⟩ }

section

variable (h : t.core = s.core)

include h

/-- The functions that only see the tables do not see the difference. -/
theorem tcpFlows_of_core : t.tcpFlows = s.tcpFlows :=
  (congrArg tcpFlows h : t.core.tcpFlows = s.core.tcpFlows)

theorem halfOpen_of_core : t.halfOpen = s.halfOpen :=
  (congrArg halfOpen h : t.core.halfOpen = s.core.halfOpen)

theorem bindings_of_core : t.bindings = s.bindings :=
  (congrArg bindings h : t.core.bindings = s.core.bindings)

theorem listeners_of_core : t.listeners = s.listeners :=
  (congrArg listeners h : t.core.listeners = s.core.listeners)

theorem udpFlows_of_core : t.udpFlows = s.udpFlows :=
  (congrArg udpFlows h : t.core.udpFlows = s.core.udpFlows)

theorem pool_of_core : t.pool = s.pool :=
  (congrArg pool h : t.core.pool = s.core.pool)

end

@[simp] theorem core_setRing (i : Fin 4) (ring : QueueRing) :
    (s.setRing i ring).core = s.core := rfl

@[simp] theorem core_setPacket (desc : PacketDesc) : (s.setPacket p desc).core = s.core := rfl

@[simp] theorem core_queueRingReset : (s.queueRingReset queueId).core = s.core := by
  unfold queueRingReset
  split <;> rfl

@[simp] theorem core_queueRingRxEnqueue : (s.queueRingRxEnqueue queueId).2.core = s.core := by
  unfold queueRingRxEnqueue
  split
  · split <;> rfl
  · rfl

@[simp] theorem core_queueRingRxComplete : (s.queueRingRxComplete queueId).core = s.core := by
  unfold queueRingRxComplete
  split <;> rfl

@[simp] theorem core_queueRingTxEnqueue : (s.queueRingTxEnqueue queueId).2.core = s.core := by
  unfold queueRingTxEnqueue
  split
  · split <;> rfl
  · rfl

@[simp] theorem core_queueRingTxComplete : (s.queueRingTxComplete queueId).core = s.core := by
  unfold queueRingTxComplete
  split <;> rfl

@[simp] theorem core_allocPacketDesc (queueId : UInt32) (length : ℕ) :
    (s.allocPacketDesc queueId length).2.core = s.core := by
  unfold allocPacketDesc
  split
  · rfl
  · dsimp only
    split
    · split <;> simp
    · simp

@[simp] theorem core_packetMarkDropped : (s.packetMarkDropped p).core = s.core := by
  unfold packetMarkDropped
  dsimp only
  split <;> simp

@[simp] theorem core_packetMarkTx : (s.packetMarkTx p).core = s.core := by
  unfold packetMarkTx
  dsimp only
  split
  · split <;> simp
  · rfl

@[simp] theorem core_packetMarkComplete : (s.packetMarkComplete p).core = s.core := by
  unfold packetMarkComplete
  dsimp only
  split <;> simp

/-! ### Idle stacks -/

/-- **Between calls** the rings are empty, every descriptor can be taken, and a queue that
is bound has a ring. -/
structure Idle (s : Stack) : Prop where
  rings : s.rings = fun _ => ⟨0, 0⟩
  packets : ∀ p, (s.packets p).idle = true
  bound : ∀ i, (s.bindings i).inUse = true → (s.bindings i).queueId.toNat < 4

theorem idle_boot : Idle boot where
  rings := rfl
  packets _ := rfl
  bound _ h := nomatch h

/-- A change of the tables alone keeps a stack idle. -/
theorem Idle.of_eq (hs : Idle s) (hr : t.rings = s.rings) (hp : t.packets = s.packets)
    (hb : t.bindings = s.bindings) : Idle t where
  rings := hr.trans hs.rings
  packets p := by
    rw [hp]
    exact hs.packets p
  bound i := by
    rw [hb]
    exact hs.bound i

/-- One packet is in flight: it owns a descriptor, in a state, and its ring has the depths
that belong to the state. -/
structure InFlight (s : Stack) (p : Fin 16) (queueId : UInt32) (state : PacketState)
    (ring : QueueRing) : Prop where
  rings : ∃ q, findQueueRing queueId = some q ∧
    s.rings = update (fun _ => ⟨0, 0⟩) q ring
  packet : s.packets p = ⟨state, queueId⟩
  others : ∀ p', p' ≠ p → (s.packets p').idle = true

/-- The end of a packet: its ring is empty again and its descriptor can be taken. -/
theorem idle_of_done {d : PacketDesc} {q : Fin 4}
    (hring : t.rings = update s.rings q ⟨0, 0⟩)
    (hq : ∀ j, j ≠ q → s.rings j = ⟨0, 0⟩)
    (hpacket : t.packets = update s.packets p d) (hidle : d.idle = true)
    (hothers : ∀ p', p' ≠ p → (s.packets p').idle = true)
    (hbound : ∀ i, (t.bindings i).inUse = true → (t.bindings i).queueId.toNat < 4) :
    Idle t where
  rings := by
    rw [hring]
    funext j
    rcases eq_or_ne j q with rfl | hne
    · rw [update_self]
    · rw [update_of_ne hne, hq j hne]
  packets := by
    rw [hpacket]
    exact (forall_update_iff s.packets fun _ d => d.idle = true).mpr ⟨hidle, hothers⟩
  bound := hbound

/-- A packet that was received and is dropped. -/
theorem InFlight.idle_packetMarkDropped (h : InFlight s p queueId .rxOwned ⟨1, 0⟩)
    (hb : ∀ i, (s.bindings i).inUse = true → (s.bindings i).queueId.toNat < 4) :
    Idle (s.packetMarkDropped p) := by
  obtain ⟨⟨q, hq, hr⟩, hp, ho⟩ := h
  have heq : s.packetMarkDropped p = (s.setRing q ⟨0, 0⟩).setPacket p ⟨.dropped, queueId⟩ := by
    simp [packetMarkDropped, hp, queueRingRxComplete, hq, hr]
  rw [heq]
  refine idle_of_done rfl ?_ rfl rfl ho hb
  intro j hj
  rw [hr, update_of_ne hj]

/-- A packet that was received finds a place in the ring for transmission. -/
theorem packetMarkTx_eq {q : Fin 4} (hq : findQueueRing queueId = some q)
    (hr : s.rings = update (fun _ => ⟨0, 0⟩) q ⟨1, 0⟩)
    (hp : s.packets p = ⟨.rxOwned, queueId⟩) :
    s.packetMarkTx p = ((s.setRing q ⟨1, 1⟩).setRing q ⟨0, 1⟩).setPacket p
      ⟨.txQueued, queueId⟩ := by
  simp [packetMarkTx, hp, queueRingTxEnqueue, queueRingRxComplete, hq, hr, setRing]

theorem InFlight.state_packetMarkTx (h : InFlight s p queueId .rxOwned ⟨1, 0⟩) :
    ((s.packetMarkTx p).packets p).state = .txQueued := by
  obtain ⟨⟨q, hq, hr⟩, hp, -⟩ := h
  rw [packetMarkTx_eq hq hr hp]
  simp only [setPacket, update_self]

/-- A packet that was received and answered. -/
theorem InFlight.idle_packetMarkComplete (h : InFlight s p queueId .rxOwned ⟨1, 0⟩)
    (hb : ∀ i, (s.bindings i).inUse = true → (s.bindings i).queueId.toNat < 4) :
    Idle ((s.packetMarkTx p).packetMarkComplete p) := by
  obtain ⟨⟨q, hq, hr⟩, hp, ho⟩ := h
  have htx := packetMarkTx_eq hq hr hp
  have heq : (s.packetMarkTx p).packetMarkComplete p =
      (((s.packetMarkTx p).setRing q ⟨0, 0⟩).setPacket p ⟨.complete, queueId⟩) := by
    rw [htx]
    simp [packetMarkComplete, setPacket, queueRingTxComplete, hq, setRing]
  rw [heq, htx]
  refine idle_of_done (q := q) (d := ⟨.complete, queueId⟩)
    ?_ ?_ ?_ rfl ho hb
  · simp [setPacket, setRing]
  · intro j hj
    rw [hr, update_of_ne hj]
  · simp [setPacket, setRing]

/-! ### Frames -/

theorem inUse_of_findBinding {b : QueueBinding} (h : s.findBinding queueId = some b) :
    ∃ i, s.bindings i = b ∧ b.inUse = true ∧ b.queueId = queueId := by
  have hmem := mem_of_find?_eq_some h
  have hsome := find?_some h
  simp only [mem_map, mem_finRange, true_and] at hmem
  obtain ⟨i, rfl⟩ := hmem
  simp only [Bool.and_eq_true, beq_iff_eq] at hsome
  exact ⟨i, rfl, hsome⟩

/-- In an idle stack a queue that is bound has a descriptor for every frame that fits. -/
theorem Idle.allocPacketDesc (hs : Idle s) (hb : (s.findBinding queueId).isSome = true)
    {length : ℕ} (h0 : 0 < length) (hmax : length ≤ 1520) :
    ∃ p t, s.allocPacketDesc queueId length = (some p, t) ∧
      InFlight t p queueId .rxOwned ⟨1, 0⟩ := by
  obtain ⟨b, hb⟩ := Option.isSome_iff_exists.mp hb
  obtain ⟨i, rfl, hin, rfl⟩ := inUse_of_findBinding hb
  have hlt := hs.bound i hin
  have hq : findQueueRing (s.bindings i).queueId = some ⟨_, hlt⟩ := dif_pos hlt
  have hfind : (finRange 16).find? (fun p => (s.packets p).idle) = some 0 :=
    find?_cons_of_pos (hs.packets 0)
  refine ⟨0, (s.setRing ⟨_, hlt⟩ ⟨1, 0⟩).setPacket 0
    ⟨.rxOwned, (s.bindings i).queueId⟩, ?_, ?_⟩
  · have hcond : ¬((s.findBinding (s.bindings i).queueId).isNone = true ∨ length = 0 ∨
        1520 < length) := by
      rw [hb]
      simp only [Option.isNone_some, Bool.false_eq_true, false_or]
      omega
    rw [Stack.allocPacketDesc, if_neg hcond]
    simp [queueRingRxEnqueue, hq, hs.rings, setRing, hfind]
  · refine ⟨⟨_, hq, ?_⟩, ?_, ?_⟩
    · simp [setPacket, setRing, hs.rings]
    · simp [setPacket]
    · intro p' hp'
      simp only [setPacket, setRing, update_of_ne hp']
      exact hs.packets p'

/-- An idle stack gives out a descriptor or stays as it is. -/
theorem Idle.allocPacketDesc_cases (hs : Idle s) (queueId : UInt32) (length : ℕ) :
    s.allocPacketDesc queueId length = (none, s) ∨
      ∃ p t, s.allocPacketDesc queueId length = (some p, t) ∧
        InFlight t p queueId .rxOwned ⟨1, 0⟩ := by
  by_cases hc : (s.findBinding queueId).isNone = true ∨ length = 0 ∨ 1520 < length
  · exact .inl (by rw [Stack.allocPacketDesc, if_pos hc])
  · rw [not_or, not_or, Option.isNone_iff_eq_none, ← ne_eq, Option.ne_none_iff_isSome] at hc
    obtain ⟨hb, h0, hmax⟩ := hc
    exact .inr (hs.allocPacketDesc hb (Nat.pos_of_ne_zero h0) (Nat.le_of_not_lt hmax))

/-- What a body may do: anything but touch the queues. -/
structure KeepsQueues (s t : Stack) : Prop where
  bindings : t.bindings = s.bindings
  rings : t.rings = s.rings
  packets : t.packets = s.packets

theorem InFlight.of_keepsQueues {state : PacketState} {ring : QueueRing}
    (h : InFlight s p queueId state ring) (hk : KeepsQueues s t) :
    InFlight t p queueId state ring where
  rings := hk.rings ▸ h.rings
  packet := hk.packets ▸ h.packet
  others := hk.packets ▸ h.others

variable {binding : Option QueueBinding} {length : ℕ}
  {body : QueueBinding → Stack → Status × Stack}

/-- A packet descriptor is only taken on a bound queue and for a frame that fits. -/
theorem bound_of_allocPacketDesc {length : ℕ} (h : s.allocPacketDesc queueId length = (some p, t)) :
    (s.findBinding queueId).isSome = true ∧ length ≤ 1520 := by
  rw [Stack.allocPacketDesc] at h
  split at h
  · nomatch h
  · next hc =>
    rw [not_or, not_or, Option.isNone_iff_eq_none, ← ne_eq, Option.ne_none_iff_isSome] at hc
    exact ⟨hc.1, Nat.not_lt.mp hc.2.2⟩

/-- **Every handler leaves the stack idle**, whatever its body answers. -/
theorem idle_dispatch (hs : Idle s)
    (hbody : ∀ b t, binding = some b ∧ (s.findBinding b.queueId).isSome = true ∧ length ≤ 1520 →
      t.core = s.core → KeepsQueues t (body b t).2) :
    Idle (s.dispatch binding length body).2 := by
  rcases binding with _ | b
  · exact hs
  rcases hs.allocPacketDesc_cases b.queueId length with halloc | ⟨p, t, halloc, hflight⟩
  · simpa only [dispatch, halloc] using hs
  · have hcore : t.core = s.core := by
      rw [← core_allocPacketDesc (s := s) b.queueId length, halloc]
    have hkeeps := hbody b t ⟨rfl, bound_of_allocPacketDesc halloc⟩ hcore
    have hflight := hflight.of_keepsQueues hkeeps
    have hbound : ∀ i, ((body b t).2.bindings i).inUse = true →
        ((body b t).2.bindings i).queueId.toNat < 4 := by
      rw [hkeeps.bindings, bindings_of_core hcore]
      exact hs.bound
    simp only [dispatch, halloc]
    split
    · exact hflight.idle_packetMarkComplete hbound
    · exact hflight.idle_packetMarkDropped hbound

/-- **In an idle stack a frame on a bound queue is handed to the body**, on a stack with the
same tables, and the tables afterwards are those the body leaves. -/
theorem dispatch_of_idle (hs : Idle s) (body : QueueBinding → Stack → Status × Stack)
    {b : QueueBinding} (hb : (s.findBinding b.queueId).isSome = true) (h0 : 0 < length)
    (hmax : length ≤ 1520) :
    ∃ t, t.core = s.core ∧ (s.dispatch (some b) length body).1 = (body b t).1 ∧
      (s.dispatch (some b) length body).2.core = (body b t).2.core := by
  obtain ⟨p, t, halloc, -⟩ := hs.allocPacketDesc hb h0 hmax
  refine ⟨t, ?_, ?_, ?_⟩
  · rw [← core_allocPacketDesc (s := s) b.queueId length, halloc]
  · simp only [dispatch, halloc]
  · simp only [dispatch, halloc]
    split <;> simp

/-- A handler answers and does to the tables what its body does, or it refuses the frame and
does nothing. The body runs only for a bound queue and a frame that fits into a packet. -/
theorem dispatch_status_cases (s : Stack) (binding : Option QueueBinding) (length : ℕ)
    (body : QueueBinding → Stack → Status × Stack) :
    ((s.dispatch binding length body).1 ≠ .ok ∧
        (s.dispatch binding length body).2.core = s.core) ∨
      ∃ b t, (binding = some b ∧ (s.findBinding b.queueId).isSome = true ∧ length ≤ 1520) ∧
        t.core = s.core ∧ (s.dispatch binding length body).1 = (body b t).1 ∧
        (s.dispatch binding length body).2.core = (body b t).2.core := by
  unfold dispatch
  split
  · exact .inl ⟨nofun, rfl⟩
  · next b =>
    have hcore := core_allocPacketDesc (s := s) b.queueId length
    split
    · next t halloc =>
      rw [halloc] at hcore
      exact .inl ⟨nofun, hcore⟩
    · next p t halloc =>
      rw [halloc] at hcore
      refine .inr ⟨b, t, ⟨rfl, bound_of_allocPacketDesc halloc⟩, hcore, rfl, ?_⟩
      dsimp only
      split <;> simp

end Xaios.Net.Stack
