import Xaios.Foundation.Table
import Xaios.Net.Footprint

/-!
# Accepting connections

What `network_stack_accept_connection` returns. A completed handshake puts the flow into the
backlog of the listener that `find_listener_ex` finds for its port, and the accept call
takes the oldest entry from it. Between the two the entry can be lost: the answer of
`listener_enqueue_backlog` is ignored, so a flow is established although the backlog is full
or its listener is gone; `network_stack_unregister_listener` drops the backlog; and a
listener that is registered in a lower slot hides an older one of the same port.

The order in which connections were established and returned is kept beside the stack
(`Net.Accepting`). In a run every connection is returned once and in order, if accept
is called often enough, exactly when no step loses an entry in one of these ways
(`Net.accept_delivers_iff`).
-/

namespace Xaios.Net

open Foundation Function List Bool

/-- No transition of an open connection leads to `established`. -/
theorem FlowState.Progress.eq_established {a : FlowState} (h : a.Progress .established) :
    a = .established := by
  cases h
  rfl

namespace Stack

variable {s t : Stack} {i : Fin 8} {port : UInt16}

@[simp] theorem listeners_setListener_self (l : Listener) :
    (s.setListener i l).listeners i = l := update_self _ _ _

theorem listeners_setListener_of_ne {k : Fin 8} (h : k ≠ i) (l : Listener) :
    (s.setListener i l).listeners k = s.listeners k := update_of_ne h _ _

/-! ### The backlog of a port -/

/-- The connections that wait on a port, the oldest first. -/
def waiting (s : Stack) (port : UInt16) : List UInt32 :=
  match s.findListenerEx port with
  | some i => (s.listeners i).backlog.map AcceptEntry.flowId
  | none => []

theorem waiting_of_find (h : s.findListenerEx port = some i) :
    s.waiting port = (s.listeners i).backlog.map AcceptEntry.flowId := by
  rw [waiting, h]

theorem waiting_congr (hfind : t.findListenerEx port = s.findListenerEx port)
    (h : ∀ i, s.findListenerEx port = some i → (t.listeners i).backlog = (s.listeners i).backlog) :
    t.waiting port = s.waiting port := by
  rw [waiting, hfind, waiting]
  split
  · next i hi => rw [h i hi]
  · rfl

/-- The connections that some calls of `network_stack_accept_connection` on a port return. -/
def acceptAll (port : UInt16) : ℕ → Stack → List UInt32
  | 0, _ => []
  | n + 1, s =>
    ((s.acceptConnection port).1.map AcceptEntry.flowId).toList ++
      acceptAll port n (s.acceptConnection port).2

theorem active_of_find (h : s.findListenerEx port = some i) :
    (s.listeners i).active = true ∧ (s.listeners i).port = port := by
  have hfound := find?_some h
  rwa [and_eq_true, beq_iff_eq] at hfound

/-- Two ports have different listeners. -/
theorem ne_of_find_of_find {k : Fin 8} {port' : UInt16} (hk : s.findListenerEx port' = some k)
    (h : s.findListenerEx port = some i) (hne : port' ≠ port) : k ≠ i := by
  rintro rfl
  exact hne ((active_of_find hk).2.symm.trans (active_of_find h).2)

/-- A listener is replaced by one that answers for a port if the old one did. -/
theorem findListenerEx_setListener {l : Listener} (h : (l.active && l.port == port) =
      ((s.listeners i).active && (s.listeners i).port == port)) :
    (s.setListener i l).findListenerEx port = s.findListenerEx port := by
  have hpred : ∀ k, (((s.setListener i l).listeners k).active &&
      ((s.setListener i l).listeners k).port == port) =
      ((s.listeners k).active && (s.listeners k).port == port) := by
    intro k
    rcases eq_or_ne k i with rfl | hne
    · rw [listeners_setListener_self, h]
    · rw [listeners_setListener_of_ne hne]
  rw [findListenerEx, findListenerEx, funext hpred]

/-- The backlog of one listener is replaced. -/
theorem waiting_setBacklog (h : s.findListenerEx port = some i) (backlog : List AcceptEntry)
    (port' : UInt16) :
    (s.setListener i { s.listeners i with backlog := backlog }).waiting port' =
      if port' = port then backlog.map AcceptEntry.flowId else s.waiting port' := by
  have hfind : (s.setListener i { s.listeners i with backlog := backlog }).findListenerEx port' =
      s.findListenerEx port' := findListenerEx_setListener rfl
  split
  · next heq =>
    rw [heq] at hfind ⊢
    rw [waiting_of_find (hfind.trans h), listeners_setListener_self]
  · next hne =>
    refine waiting_congr hfind fun k hk => ?_
    rw [listeners_setListener_of_ne (ne_of_find_of_find hk h hne)]

/-- **Accept takes the oldest connection** that waits on the port. -/
theorem acceptConnection_waiting (s : Stack) (port : UInt16) :
    ((s.acceptConnection port).1.map AcceptEntry.flowId).toList = (s.waiting port).take 1 ∧
      ∀ port', (s.acceptConnection port).2.waiting port' =
        if port' = port then (s.waiting port).drop 1 else s.waiting port' := by
  have hnone : s.waiting port = [] → ∀ port', s.waiting port' =
      if port' = port then (s.waiting port).drop 1 else s.waiting port' := by
    intro hnil port'
    split
    · next heq => rw [heq, hnil, drop_nil]
    · rfl
  rw [acceptConnection]
  rcases hfind : s.findListenerEx port with _ | i
  · have hnil : s.waiting port = [] := by rw [waiting, hfind]
    rw [hnil]
    exact ⟨rfl, hnil ▸ hnone hnil⟩
  · dsimp only
    have hwait := waiting_of_find hfind
    rcases hlog : (s.listeners i).backlog with _ | ⟨entry, rest⟩
    · rw [hlog, map_nil] at hwait
      rw [hwait]
      exact ⟨rfl, hwait ▸ hnone hwait⟩
    · rw [hlog, map_cons] at hwait
      rw [hwait]
      refine ⟨rfl, fun port' => ?_⟩
      rw [drop_one, tail_cons]
      exact waiting_setBacklog hfind rest port'

/-- **Calls of accept return the connections that wait, in order.** -/
theorem acceptAll_eq (port : UInt16) (n : ℕ) (s : Stack) :
    acceptAll port n s = (s.waiting port).take n := by
  induction n generalizing s with
  | zero => rfl
  | succ n ih =>
    obtain ⟨htake, hdrop⟩ := s.acceptConnection_waiting port
    rw [acceptAll, ih, htake, hdrop port, if_pos rfl, Nat.add_comm, take_add]

/-! ### Changes of the listeners -/

/-- The listener of a port hides no connection: another one of the same port has an empty
backlog, and no backlog is longer than `NETWORK_LISTENER_BACKLOG`. -/
structure Listening (s : Stack) : Prop where
  room : ∀ i, (s.listeners i).backlog.length ≤ 8
  hidden : ∀ i, (s.listeners i).active = true →
    s.findListenerEx (s.listeners i).port ≠ some i → (s.listeners i).backlog = []

theorem Listening.of_eq (hs : Listening s) (h : t.listeners = s.listeners) : Listening t := by
  have hfind : ∀ port, t.findListenerEx port = s.findListenerEx port := by
    intro port
    rw [findListenerEx, h, findListenerEx]
  constructor
  · rw [h]
    exact hs.room
  · intro i
    rw [h, hfind]
    exact hs.hidden i

/-- The backlog of the listener of a port is replaced. -/
theorem Listening.setBacklog (hs : Listening s) (h : s.findListenerEx port = some i)
    {backlog : List AcceptEntry} (hlen : backlog.length ≤ 8) :
    Listening (s.setListener i { s.listeners i with backlog := backlog }) := by
  constructor
  · exact (forall_update_iff s.listeners fun _ l => l.backlog.length ≤ 8).mpr
      ⟨hlen, fun k _ => hs.room k⟩
  · intro k
    rw [findListenerEx_setListener (l := { s.listeners i with backlog := backlog }) rfl]
    rcases eq_or_ne k i with rfl | hne
    · rw [listeners_setListener_self]
      intro _ hne
      exact absurd ((active_of_find h).2 ▸ h) hne
    · rw [listeners_setListener_of_ne hne]
      exact hs.hidden k

/-! ### Opening and closing a listener -/

/-- A free slot is given to a listener, if there is one. -/
theorem registerListener_cases (s : Stack) (port : UInt16) (sockfd : UInt64) :
    s.registerListener port sockfd = s ∨ ∃ j, (s.listeners j).active = false ∧
      s.registerListener port sockfd = s.setListener j ⟨port, sockfd, true, []⟩ := by
  unfold registerListener
  split
  · next j hj =>
    have hfree := find?_some hj
    rw [not_eq_true'] at hfree
    exact .inr ⟨j, hfree, rfl⟩
  · exact .inl rfl

section Opened

variable {j : Fin 8} {sockfd : UInt64}

section

variable (hj : (s.listeners j).active = false)

include hj

/-- The new listener is the one of its port, unless an older one comes first. -/
theorem findListenerEx_opened :
    (s.setListener j ⟨port, sockfd, true, []⟩).findListenerEx port = s.findListenerEx port ∨
      (s.setListener j ⟨port, sockfd, true, []⟩).findListenerEx port = some j := by
  refine find?_finRange_insert (fun k hk => ?_) ?_ ?_
  · rw [listeners_setListener_of_ne hk]
  · rw [hj, Bool.false_and]
  · rw [listeners_setListener_self, Bool.true_and, beq_self_eq_true]

theorem findListenerEx_opened_of_ne {port' : UInt16} (hne : port' ≠ port) :
    (s.setListener j ⟨port, sockfd, true, []⟩).findListenerEx port' = s.findListenerEx port' := by
  refine findListenerEx_setListener ?_
  rw [hj, Bool.false_and, Bool.true_and]
  exact beq_false_of_ne hne.symm

/-- A listener that is found is not in a free slot. -/
theorem ne_of_find (h : s.findListenerEx port = some i) : i ≠ j := by
  rintro rfl
  rw [(active_of_find h).1] at hj
  cases hj

/-- Who waits on a port when a listener was registered. -/
theorem waiting_opened (port' : UInt16) :
    (s.setListener j ⟨port, sockfd, true, []⟩).waiting port' =
      if port' = port ∧ (s.setListener j ⟨port, sockfd, true, []⟩).findListenerEx port ≠
        s.findListenerEx port then [] else s.waiting port' := by
  split
  · next h =>
    obtain ⟨rfl, hfind⟩ := h
    rw [waiting_of_find ((findListenerEx_opened hj).resolve_left hfind),
      listeners_setListener_self, map_nil]
  · next h =>
    have hfind : (s.setListener j ⟨port, sockfd, true, []⟩).findListenerEx port' =
        s.findListenerEx port' := by
      rcases eq_or_ne port' port with rfl | hne
      · exact not_not.mp fun hfind => h ⟨rfl, hfind⟩
      · exact findListenerEx_opened_of_ne hj hne
    refine waiting_congr hfind fun k hk => ?_
    rw [listeners_setListener_of_ne (ne_of_find hj hk)]

end

theorem Listening.opened (hs : Listening s) (hj : (s.listeners j).active = false)
    (hkeep : s.waiting port = [] ∨
      (s.setListener j ⟨port, sockfd, true, []⟩).findListenerEx port = s.findListenerEx port) :
    Listening (s.setListener j ⟨port, sockfd, true, []⟩) := by
  constructor
  · exact (forall_update_iff s.listeners fun _ l => l.backlog.length ≤ 8).mpr
      ⟨Nat.zero_le 8, fun k _ => hs.room k⟩
  · intro k
    rcases eq_or_ne k j with rfl | hk
    · rw [listeners_setListener_self]
      exact fun _ _ => rfl
    · rw [listeners_setListener_of_ne hk]
      intro hactive hfind
      by_cases hold : s.findListenerEx (s.listeners k).port = some k
      · -- the listener was the one of its port, so it is now hidden by the new one
        have hport : (s.listeners k).port = port := by
          by_contra hne
          exact hfind ((findListenerEx_opened_of_ne hj hne).trans hold)
        rw [hport] at hold hfind
        rcases hkeep with hnil | hsame
        · rwa [waiting_of_find hold, map_eq_nil_iff] at hnil
        · exact absurd (hsame.trans hold) hfind
      · exact hs.hidden k hactive hold

end Opened

/-- A listener is found after a registration on its port when no slot before it was free. -/
theorem findListenerEx_registerListener_iff (h : s.findListenerEx port = some i)
    (sockfd : UInt64) : (s.registerListener port sockfd).findListenerEx port = some i ↔
      ∀ k, k < i → (s.listeners k).active = true := by
  obtain ⟨hi, hfirst⟩ := find?_finRange_eq_some_iff.mp h
  rw [registerListener]
  split
  · next j hj =>
    obtain ⟨hfree, htaken⟩ := find?_finRange_eq_some_iff.mp hj
    rw [not_eq_true'] at hfree
    have hij := ne_of_find hfree h
    rw [findListenerEx, find?_finRange_eq_some_iff]
    constructor
    · rintro ⟨-, hnone⟩ k hk
      refine not_eq_eq_eq_not.mp (htaken k (lt_of_lt_of_le hk (not_lt.mp fun hji => ?_)))
      -- the new listener would come first
      have hnew := hnone j hji
      rw [listeners_setListener_self, Bool.true_and, beq_self_eq_true] at hnew
      cases hnew
    · intro hall
      have hlt : i < j := lt_of_le_of_ne (not_lt.mp fun hji => by
        rw [hall j hji] at hfree
        cases hfree) hij
      refine ⟨?_, fun k hk => ?_⟩
      · rw [listeners_setListener_of_ne hij]
        exact hi
      · rw [listeners_setListener_of_ne (hk.trans hlt).ne]
        exact hfirst k hk
  · next hnone =>
    exact iff_of_true h fun k _ => not_eq_eq_eq_not.mp (find?_finRange_eq_none_iff.mp hnone k)

section Closed

variable (h : s.findListenerEx port = some i)
include h

/-- Other ports are not concerned. -/
theorem findListenerEx_closed_of_ne {port' : UInt16} (hne : port' ≠ port) :
    (s.unregisterListener port).findListenerEx port' = s.findListenerEx port' := by
  rw [unregisterListener, h]
  refine findListenerEx_setListener ?_
  rw [(active_of_find h).2, Bool.false_and, beq_false_of_ne hne.symm, Bool.and_false]

theorem listeners_closed_of_ne {k : Fin 8} (hk : k ≠ i) :
    (s.unregisterListener port).listeners k = s.listeners k := by
  rw [unregisterListener, h]
  exact listeners_setListener_of_ne hk _

theorem listeners_closed_self :
    (s.unregisterListener port).listeners i =
      { s.listeners i with active := false, backlog := [] } := by
  rw [unregisterListener, h]
  exact listeners_setListener_self _

/-- A listener that was hidden may come to light; nobody waits there. -/
theorem waiting_closed (hs : Listening s) (port' : UInt16) :
    (s.unregisterListener port).waiting port' = if port' = port then [] else s.waiting port' := by
  split
  · next heq =>
    subst heq
    rcases hfind : (s.unregisterListener port').findListenerEx port' with _ | k
    · rw [waiting, hfind]
    · obtain ⟨hactive, hport⟩ := active_of_find hfind
      have hk : k ≠ i := by
        rintro rfl
        rw [listeners_closed_self h] at hactive
        cases hactive
      rw [listeners_closed_of_ne h hk] at hactive hport
      rw [waiting_of_find hfind, listeners_closed_of_ne h hk, hs.hidden k hactive, map_nil]
      rw [hport, h]
      exact fun heq => hk (Option.some.inj heq).symm
  · next hne =>
    refine waiting_congr (findListenerEx_closed_of_ne h hne) fun k hk => ?_
    rw [listeners_closed_of_ne h (ne_of_find_of_find hk h hne)]

theorem Listening.closed (hs : Listening s) : Listening (s.unregisterListener port) := by
  constructor
  · intro k
    rcases eq_or_ne k i with rfl | hk
    · rw [listeners_closed_self h]
      exact Nat.zero_le 8
    · rw [listeners_closed_of_ne h hk]
      exact hs.room k
  · intro k
    rcases eq_or_ne k i with rfl | hk
    · rw [listeners_closed_self h]
      exact fun _ _ => rfl
    · rw [listeners_closed_of_ne h hk]
      intro hactive hfind
      refine hs.hidden k hactive fun hold => ?_
      rcases eq_or_ne (s.listeners k).port port with heq | hne
      · rw [heq, h] at hold
        exact hk (Option.some.inj hold).symm
      · exact hfind ((findListenerEx_closed_of_ne h hne).trans hold)

end Closed

/-! ### A completed handshake -/

/-- The connection waits behind the others, if its listener has room. -/
theorem waiting_enqueue {entry : AcceptEntry} (h : s.findListenerEx entry.localPort = some i)
    (hroom : (s.listeners i).backlog.length < 8) (port : UInt16) :
    (s.acceptQueueEnqueue entry).waiting port =
      s.waiting port ++ if port = entry.localPort then [entry.flowId] else [] := by
  rw [acceptQueueEnqueue, h]
  dsimp only
  rw [if_neg (Nat.not_le.mpr hroom), waiting_setBacklog h]
  split
  · next heq =>
    rw [heq, waiting_of_find h, map_append]
    rfl
  · rw [append_nil]

theorem Listening.enqueue (hs : Listening s) (entry : AcceptEntry) :
    Listening (s.acceptQueueEnqueue entry) := by
  unfold acceptQueueEnqueue
  split
  · next i hi =>
    split
    · exact hs
    · next hroom =>
      refine hs.setBacklog hi ?_
      rw [length_append, length_singleton]
      omega
  · exact hs

/-- Without room the connection is forgotten. -/
theorem enqueue_eq_self {entry : AcceptEntry} (h : ¬∃ i,
    s.findListenerEx entry.localPort = some i ∧ (s.listeners i).backlog.length < 8) :
    s.acceptQueueEnqueue entry = s := by
  unfold acceptQueueEnqueue
  split
  · next i hi =>
    split
    · rfl
    · next hroom => exact absurd ⟨i, hi, Nat.lt_of_not_le hroom⟩ h
  · rfl

theorem waiting_of_listeners (h : t.listeners = s.listeners) (port : UInt16) :
    t.waiting port = s.waiting port := by
  refine waiting_congr ?_ fun i _ => by rw [h]
  rw [findListenerEx, h, findListenerEx]

/-! ### Connections that become established -/

/-- The connections on a port that a step establishes. -/
def newlyEstablished (s t : Stack) (port : UInt16) : List UInt32 :=
  ((finRange 16).filter fun i => (s.tcpFlows i).state != .established &&
    (t.tcpFlows i).state == .established && (s.tcpFlows i).localPort == port).map fun i =>
      (s.tcpFlows i).flowId

/-- A change that completes no handshake establishes nothing. -/
theorem Change.established {P : Ending → Prop} (h : Change P s t) (hP : ∀ f, ¬P (.handshake f))
    {k : Fin 16} (hk : (t.tcpFlows k).state = .established) :
    (s.tcpFlows k).state = .established := by
  have hupdate : ∀ {j : Fin 16} {f : TcpFlow}, t.tcpFlows = update s.tcpFlows j f →
      (f.state = .established → (s.tcpFlows j).state = .established) →
      (s.tcpFlows k).state = .established := by
    intro j f ht hf
    rw [ht] at hk
    rcases eq_or_ne k j with rfl | hne
    · rw [update_self] at hk
      exact hf hk
    · rwa [update_of_ne hne] at hk
  cases h with
  | buf | listener | number | udp | openUdp | idleUdp => exact hk
  | flow i f h =>
    refine hupdate rfl fun hf => ?_
    have hprogress := h.state
    rw [hf] at hprogress
    exact hprogress.eq_established
  | retransmit now =>
    have hstate := (s.tcpFlows k).state_retransmit now
    exact hstate.symm.trans hk
  | openTcp i f hi hf hr ht =>
    refine hupdate rfl fun hest => ?_
    rw [hf] at hest
    cases hest
  | establish i f listeners hi hf he hl hp => exact absurd hp (hP _)
  | reset i hi hp =>
    refine hupdate rfl fun hest => ?_
    cases hest
  | timeout i f hi hi' hf he hp =>
    refine hupdate rfl fun hest => ?_
    rw [hf] at hest
    cases hest

theorem newlyEstablished_of_quiet {c : Call} (hc : ∀ f, ¬c.Ends s (.handshake f))
    (port : UInt16) : newlyEstablished s (c.exec s) port = [] := by
  rw [newlyEstablished, map_eq_nil_iff, filter_eq_nil_iff]
  intro k _ hk
  rw [and_eq_true, and_eq_true, bne_iff_ne, beq_iff_eq] at hk
  refine hk.1.1 ?_
  have hrun := (steps_exec s c).induct
    (I := fun t => (t.tcpFlows k).state = .established → (s.tcpFlows k).state = .established)
    id (fun _ => .rfl) fun _ _ ih hchange h => ih (hchange.established hc h)
  exact hrun hk.1.2

theorem newlyEstablished_of_establishes {k : Fin 16} (h : Establishes s t k)
    (hsyn : (s.tcpFlows k).state = .synRecv) (port : UInt16) :
    newlyEstablished s t port =
      if port = (s.tcpFlows k).localPort then [(s.tcpFlows k).flowId] else [] := by
  rw [newlyEstablished]
  split
  · next heq =>
    rw [filter_finRange_eq_singleton]
    · rfl
    · simp [hsyn, h.state, heq]
    · intro j hj
      rw [h.others j hj]
      rcases eq_or_ne (s.tcpFlows j).state .established with hest | hne
      · rw [hest]
        rfl
      · rw [beq_false_of_ne hne, Bool.and_false, Bool.false_and]
  · next hne =>
    rw [map_eq_nil_iff, filter_eq_nil_iff]
    intro j _ hj
    rw [and_eq_true, and_eq_true, bne_iff_ne, beq_iff_eq, beq_iff_eq] at hj
    rcases eq_or_ne j k with rfl | hjk
    · exact hne hj.2.symm
    · rw [h.others j hjk] at hj
      exact hj.1.1 hj.1.2

end Stack

open Stack

/-! ### Runs -/

/-- A stack, and for each port the connections that were established and those that accept
has returned, in order. -/
structure Accepting where
  stack : Stack
  established : UInt16 → List UInt32
  accepted : UInt16 → List UInt32

/-- The connection that a call returns to the application that listens on a port. -/
def Call.returned (s : Stack) (port : UInt16) : Call → List UInt32
  | .acceptConnection listenPort =>
    if listenPort = port then ((s.acceptConnection port).1.map AcceptEntry.flowId).toList else []
  | _ => []

theorem Call.returned_of_listens {c : Call} (h : c.listens = false) (s : Stack) (port : UInt16) :
    c.returned s port = [] := by
  cases c with
  | acceptConnection => cases h
  | _ => rfl

/-- A call. -/
def Accepting.exec (w : Accepting) (c : Call) : Accepting where
  stack := c.exec w.stack
  established port := w.established port ++ newlyEstablished w.stack (c.exec w.stack) port
  accepted port := w.accepted port ++ c.returned w.stack port

/-- **Every connection that was established is returned once, and in order**, when accept is
called as often as the backlog is long. -/
def Accepting.Delivers (w : Accepting) : Prop :=
  ∀ port n, 8 ≤ n → w.accepted port ++ acceptAll port n w.stack = w.established port

/-- **No connection is lost by a call.** A listener is registered on a port on which somebody
waits only when no slot before the listener of the port is free; a listener is given up only
when nobody waits; and a handshake is completed only when its port has a listener with room in
its backlog. -/
def Call.KeepsWaiting (s : Stack) : Call → Prop
  | .registerListener port _ => s.waiting port = [] ∨
      ∃ i, s.findListenerEx port = some i ∧ ∀ k, k < i → (s.listeners k).active = true
  | .unregisterListener port => s.waiting port = []
  | c => ∀ f, c.Ends s (.handshake f) →
      ∃ i, s.findListenerEx f.localPort = some i ∧ (s.listeners i).backlog.length < 8

/-- The connections that were established are those that were returned and those that wait. -/
structure Accepting.Ordered (w : Accepting) : Prop where
  idle : Idle w.stack
  listening : Listening w.stack
  order : ∀ port, w.accepted port ++ w.stack.waiting port = w.established port

variable {w : Accepting} {c : Call}

/-- To deliver means that all who were not returned wait. -/
theorem Accepting.delivers_iff (hroom : ∀ i, (w.stack.listeners i).backlog.length ≤ 8) :
    w.Delivers ↔ ∀ port, w.accepted port ++ w.stack.waiting port = w.established port := by
  have hall : ∀ port n, 8 ≤ n → acceptAll port n w.stack = w.stack.waiting port := by
    intro port n hn
    rw [acceptAll_eq, take_of_length_le]
    rw [waiting]
    split
    · next i hi =>
      rw [length_map]
      exact (hroom i).trans hn
    · exact Nat.zero_le n
  constructor
  · intro h port
    rw [← hall port 8 le_rfl]
    exact h port 8 le_rfl
  · intro h port n hn
    rw [hall port n hn]
    exact h port

open Accepting

/-- A call that establishes and returns nothing has to leave those who wait alone. -/
theorem Accepting.Ordered.order_iff (hw : w.Ordered) (hnew : ∀ port,
    newlyEstablished w.stack (c.exec w.stack) port = [])
    (hret : ∀ port, c.returned w.stack port = []) :
    (∀ port, (w.exec c).accepted port ++ (w.exec c).stack.waiting port =
      (w.exec c).established port) ↔
      ∀ port, (c.exec w.stack).waiting port = w.stack.waiting port := by
  refine forall_congr' fun port => ?_
  rw [exec]
  dsimp only
  rw [hnew port, hret port, append_nil, append_nil, ← hw.order port,
    append_right_inj]

/-- A call that establishes and returns nothing and leaves the listeners alone. -/
theorem Accepting.Ordered.quiet (hw : w.Ordered) (hc : ∀ f, ¬c.Ends w.stack (.handshake f))
    (hret : ∀ port, c.returned w.stack port = [])
    (hlisteners : (c.exec w.stack).listeners = w.stack.listeners) :
    (w.exec c).Delivers ∧ Listening (c.exec w.stack) := by
  have hlistening : Listening (c.exec w.stack) := hw.listening.of_eq hlisteners
  refine ⟨(delivers_iff hlistening.room).mpr ?_, hlistening⟩
  exact (hw.order_iff (newlyEstablished_of_quiet hc) hret).mpr (waiting_of_listeners hlisteners)

theorem Call.keepsWaiting_iff {s : Stack} (h : c.listens = false) : c.KeepsWaiting s ↔
    ∀ f, c.Ends s (.handshake f) →
      ∃ i, s.findListenerEx f.localPort = some i ∧ (s.listeners i).backlog.length < 8 := by
  cases c with
  | registerListener | unregisterListener => cases h
  | _ => exact .rfl

/-- A registration keeps who waits when the search for the port answers as before. -/
theorem Call.keepsWaiting_register_iff {s : Stack} {port : UInt16} {sockfd : UInt64} :
    (Call.registerListener port sockfd).KeepsWaiting s ↔ s.waiting port = [] ∨
      (s.registerListener port sockfd).findListenerEx port = s.findListenerEx port := by
  rw [KeepsWaiting]
  rcases hfind : s.findListenerEx port with _ | i
  · have hnil : s.waiting port = [] := by
      rw [waiting, hfind]
    exact iff_of_true (.inl hnil) (.inl hnil)
  · rw [findListenerEx_registerListener_iff hfind]
    refine or_congr_right ⟨?_, fun h => ⟨i, rfl, h⟩⟩
    rintro ⟨k, hk, h⟩
    cases hk
    exact h

/-- **One call**: it loses no connection exactly when it keeps all who wait. -/
theorem Accepting.Ordered.register (hw : w.Ordered) (port : UInt16) (sockfd : UInt64) :
    ((w.exec (.registerListener port sockfd)).Delivers ↔
      (Call.registerListener port sockfd).KeepsWaiting w.stack) ∧
    ((Call.registerListener port sockfd).KeepsWaiting w.stack →
      Listening (w.stack.registerListener port sockfd)) := by
  have hnew := newlyEstablished_of_quiet (s := w.stack) (c := .registerListener port sockfd)
    fun _ h => h
  rcases w.stack.registerListener_cases port sockfd with hself | ⟨j, hj, hopen⟩
  · obtain ⟨hdelivers, hlistening⟩ := hw.quiet (c := .registerListener port sockfd)
      (fun _ h => h) (fun _ => rfl) (congrArg listeners hself)
    exact ⟨iff_of_true hdelivers
      (Call.keepsWaiting_register_iff.mpr (.inr (congrArg (findListenerEx · port) hself))),
      fun _ => hlistening⟩
  · have hexec : (Call.registerListener port sockfd).exec w.stack =
        w.stack.setListener j ⟨port, sockfd, true, []⟩ := hopen
    rw [Call.keepsWaiting_register_iff, hopen]
    refine ⟨?_, hw.listening.opened hj⟩
    rw [delivers_iff, hw.order_iff hnew fun _ => rfl, hexec]
    · constructor
      · intro h
        have hport := h port
        rw [waiting_opened hj] at hport
        split at hport
        · exact .inl hport.symm
        · next hsame => exact .inr (not_not.mp fun hne => hsame ⟨rfl, hne⟩)
      · intro h port'
        rw [waiting_opened hj]
        split
        · next hhides =>
          obtain ⟨rfl, hne⟩ := hhides
          exact (h.resolve_right hne).symm
        · rfl
    · rw [exec, hexec]
      exact (forall_update_iff w.stack.listeners fun _ l => l.backlog.length ≤ 8).mpr
        ⟨Nat.zero_le 8, fun k _ => hw.listening.room k⟩

theorem Accepting.Ordered.unregister (hw : w.Ordered) (port : UInt16) :
    ((w.exec (.unregisterListener port)).Delivers ↔
      (Call.unregisterListener port).KeepsWaiting w.stack) ∧
    Listening (w.stack.unregisterListener port) := by
  have hnew := newlyEstablished_of_quiet (s := w.stack) (c := .unregisterListener port)
    fun _ h => h
  rw [Call.KeepsWaiting]
  rcases hfind : w.stack.findListenerEx port with _ | i
  · have hexec : w.stack.unregisterListener port = w.stack := by
      rw [unregisterListener, hfind]
    have hnil : w.stack.waiting port = [] := by
      rw [waiting, hfind]
    obtain ⟨hdelivers, hlistening⟩ := hw.quiet (c := .unregisterListener port)
      (fun _ h => h) (fun _ => rfl) (congrArg listeners hexec)
    exact ⟨iff_of_true hdelivers hnil, hlistening⟩
  · have hlistening := hw.listening.closed hfind
    refine ⟨?_, hlistening⟩
    rw [delivers_iff hlistening.room, hw.order_iff hnew fun _ => rfl, Call.exec]
    constructor
    · intro h
      have hport := h port
      rw [waiting_closed hfind hw.listening, if_pos rfl] at hport
      exact hport.symm
    · intro h port'
      rw [waiting_closed hfind hw.listening]
      split
      · next heq => rw [heq, h]
      · rfl

theorem Accepting.Ordered.accept (hw : w.Ordered) (port : UInt16) :
    (∀ port', (w.exec (.acceptConnection port)).accepted port' ++
      (w.exec (.acceptConnection port)).stack.waiting port' =
      (w.exec (.acceptConnection port)).established port') ∧
    Listening (w.stack.acceptConnection port).2 := by
  have hnew := newlyEstablished_of_quiet (s := w.stack) (c := .acceptConnection port)
    fun _ h => h
  obtain ⟨htake, hdrop⟩ := w.stack.acceptConnection_waiting port
  constructor
  · intro port'
    rw [exec]
    dsimp only
    rw [hnew, append_nil, ← hw.order port', Call.returned, Call.exec, hdrop]
    split
    · next heq =>
      subst heq
      rw [htake, if_pos rfl, append_assoc, take_append_drop]
    · next hne => rw [if_neg fun heq => hne heq.symm, append_nil]
  · rw [acceptConnection]
    split
    · exact hw.listening
    · next i hi =>
      split
      · exact hw.listening
      · next entry rest hlog =>
        have hroom := hw.listening.room i
        rw [hlog, length_cons] at hroom
        exact hw.listening.setBacklog hi (by omega)

/-- A handshake that is completed. -/
theorem Accepting.Ordered.completed (hw : w.Ordered) {f : TcpFlow}
    (h : c.Ends w.stack (.handshake f)) (hlisten : c.listens = false) :
    ((w.exec c).Delivers ↔ ∃ i, w.stack.findListenerEx f.localPort = some i ∧
      (w.stack.listeners i).backlog.length < 8) ∧ Listening (c.exec w.stack) := by
  obtain ⟨k, entry, rfl, hsyn, hest, hid, hport, hlisteners⟩ := completed_of_ends hw.idle h
  have hlistening : Listening (c.exec w.stack) := (hw.listening.enqueue entry).of_eq hlisteners
  refine ⟨?_, hlistening⟩
  have hret := Call.returned_of_listens hlisten w.stack
  have horder : (w.exec c).Delivers ↔ ∀ port, (w.stack.acceptQueueEnqueue entry).waiting port =
      w.stack.waiting port ++ if port = entry.localPort then [entry.flowId] else [] := by
    rw [delivers_iff hlistening.room]
    refine forall_congr' fun port => ?_
    rw [exec]
    dsimp only
    rw [hret, append_nil, waiting_of_listeners hlisteners,
      newlyEstablished_of_establishes hest hsyn, ← hw.order port, hid, hport, append_assoc,
      append_right_inj]
  rw [horder, ← hport]
  constructor
  · intro hall
    by_contra hfull
    -- the connection was forgotten, so nobody new waits on its port
    have hlost := hall entry.localPort
    rw [enqueue_eq_self hfull, if_pos rfl, self_eq_append_right] at hlost
    cases hlost
  · rintro ⟨i, hfind, hroom⟩
    exact waiting_enqueue hfind hroom

/-- **One call loses no connection exactly when it keeps all who wait**, and then the
listeners stay in order. -/
theorem Accepting.Ordered.step (hw : w.Ordered) (c : Call) :
    ((w.exec c).Delivers ↔ c.KeepsWaiting w.stack) ∧
      (c.KeepsWaiting w.stack → Listening (c.exec w.stack)) := by
  by_cases hlisten : c.listens = false
  · rw [Call.keepsWaiting_iff hlisten]
    by_cases hends : ∃ f, c.Ends w.stack (.handshake f)
    · obtain ⟨f, hf⟩ := hends
      obtain ⟨hiff, hlistening⟩ := hw.completed hf hlisten
      refine ⟨hiff.trans ?_, fun _ => hlistening⟩
      constructor
      · intro hroom g hg
        obtain ⟨i, -, rfl, -, hest, -⟩ := completed_of_ends hw.idle hf
        obtain ⟨k, -, rfl, hsyn, hest', -⟩ := completed_of_ends hw.idle hg
        -- a call completes one handshake only
        have hik : k = i := by
          by_contra hne
          have hstate := hest'.state
          rw [hest.others k hne, hsyn] at hstate
          cases hstate
        rwa [hik]
      · intro h
        exact h f hf
    · have hnone := not_exists.mp hends
      obtain ⟨hdelivers, hlistening⟩ := hw.quiet hnone (Call.returned_of_listens hlisten _)
        (listeners_exec w.stack hlisten hnone)
      exact ⟨iff_of_true hdelivers fun f hf => absurd hf (hnone f), fun _ => hlistening⟩
  · cases c with
    | registerListener port sockfd => exact hw.register port sockfd
    | unregisterListener port =>
      exact ⟨(hw.unregister port).1, fun _ => (hw.unregister port).2⟩
    | acceptConnection port =>
      obtain ⟨horder, hlistening⟩ := hw.accept port
      have hkeep : (Call.acceptConnection port).KeepsWaiting w.stack := fun _ h => nomatch h
      exact ⟨iff_of_true ((delivers_iff hlistening.room).mpr horder) hkeep, fun _ => hlistening⟩
    | _ => exact absurd rfl hlisten

/-- The stack at boot, before any connection. -/
def acceptingBoot : Accepting := ⟨boot, fun _ => [], fun _ => []⟩

theorem ordered_acceptingBoot : acceptingBoot.Ordered where
  idle := idle_boot
  listening := ⟨fun _ => Nat.zero_le 8, fun _ h => nomatch h⟩
  order _ := rfl

/-- **Accept delivers every connection once.** In a run from boot every connection that was
established has been returned by accept on its port, or is returned by further calls of
accept, once and in the order of establishment, exactly when no call loses a connection
that waits. -/
theorem accept_delivers_iff (cs : List Call) :
    Along Accepting.exec (fun w c => (w.exec c).Delivers) acceptingBoot cs ↔
      Along Accepting.exec (fun w c => c.KeepsWaiting w.stack) acceptingBoot cs := by
  refine Along.congr ordered_acceptingBoot (fun w c hw hc => ?_) (fun w c hw => (hw.step c).1) cs
  have hlistening := (hw.step c).2 hc
  exact ⟨(advances_exec hw.idle c).idle, hlistening,
    (delivers_iff hlistening.room).mp ((hw.step c).1.mpr hc)⟩

/-- Peers complete a handshake on port 80, one after the other, and nobody accepts. -/
def crowdedCalls (peers : ℕ) : List Call :=
  listenCalls ++ (range peers).flatMap fun k =>
    [.tcpFrame ⟨UInt64.ofNat (1000 * k), UInt64.ofNat (1000 * k + 1)⟩
       (bareFrame (UInt8.ofNat k) flagSyn),
     .tcpFrame ⟨UInt64.ofNat (1000 * k + 500), UInt64.ofNat (1000 * k + 501)⟩
       (bareFrame (UInt8.ofNat k) flagAck)]

/-- **The ninth connection is established and never returned.** -/
theorem ninth_connection_lost :
    ¬Along Accepting.exec (fun w c => (w.exec c).Delivers) acceptingBoot (crowdedCalls 9) ∧
      let w := (crowdedCalls 9).foldl Accepting.exec acceptingBoot
      (w.stack.tcpFlows 8).state = .established ∧ (w.stack.tcpFlows 8).flowId = 9 ∧
        w.established 80 = [1, 2, 3, 4, 5, 6, 7, 8, 9] ∧ w.accepted 80 = [] ∧
        acceptAll 80 9 w.stack = [1, 2, 3, 4, 5, 6, 7, 8] := by
  have hend : let w := (crowdedCalls 9).foldl exec acceptingBoot
      (w.stack.tcpFlows 8).state = .established ∧ (w.stack.tcpFlows 8).flowId = 9 ∧
        w.established 80 = [1, 2, 3, 4, 5, 6, 7, 8, 9] ∧ w.accepted 80 = [] ∧
        acceptAll 80 9 w.stack = [1, 2, 3, 4, 5, 6, 7, 8] := by
    decide +kernel
  refine ⟨fun h => ?_, hend⟩
  have hsplit : crowdedCalls 9 = (crowdedCalls 9).take 19 ++ (crowdedCalls 9).drop 19 :=
    (take_append_drop 19 _).symm
  rw [hsplit, along_append] at h
  have hlast := h.2.1 80 9 (by decide)
  obtain ⟨-, -, hest, hacc, hall⟩ := hend
  rw [hsplit, foldl_append] at hest hacc hall
  exact absurd ((congrArg₂ (· ++ ·) hacc hall).symm.trans (hlast.trans hest)) (by decide)

end Xaios.Net
