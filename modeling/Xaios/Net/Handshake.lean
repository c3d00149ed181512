import Xaios.Net.Admission

/-!
# Completing the handshake

Which segments complete a handshake. `network_stack_process_tcp_frame` and its version 6
twin establish a flow in `SYN_RECV` on any segment with the ACK flag; they do not compare
its acknowledgement number with the sequence number of the SYN-ACK.

The number a flow started with is kept beside the stack (`Net.Watched`); it is the
flow's `local_seq` as long as the handshake lasts. In a run, handshakes are completed by
the right acknowledgements only exactly when every segment that completes one carries the
right number (`Net.handshakes_sound_iff`).
-/

namespace Xaios.Net

open Foundation Function List.Subset

/-! ### Waiting for the acknowledgement -/

/-- A flow when no handshake is completed: one that waits keeps its sequence number or is
closed, and one that is closed stays closed. -/
structure TcpFlow.Awaits (f g : TcpFlow) : Prop where
  waiting : f.state = .synRecv →
    g.state = .synRecv ∧ g.localSeq = f.localSeq ∨ g.state = .closed
  closed : f.state = .closed → g.state = .closed

namespace TcpFlow.Awaits

variable {f g h : TcpFlow}

theorem trans (hfg : f.Awaits g) (hgh : g.Awaits h) : f.Awaits h where
  waiting hf := by
    rcases hfg.waiting hf with ⟨hg, hseq⟩ | hg
    · exact (hgh.waiting hg).imp_left fun ⟨hstate, heq⟩ => ⟨hstate, heq.trans hseq⟩
    · exact .inr (hgh.closed hg)
  closed hf := hgh.closed (hfg.closed hf)

theorem of_continues (hfg : f.Continues g) : f.Awaits g where
  waiting hf := by
    rcases hfg.state.eq_or_open with heq | ⟨hopen, -⟩
    · exact .inl ⟨heq.trans hf, hfg.localSeq hf⟩
    · exact absurd hf hopen.2.1
  closed hf := by
    rcases hfg.state.eq_or_open with heq | ⟨hopen, -⟩
    · exact heq.trans hf
    · exact absurd hf hopen.2.2

theorem refl (f : TcpFlow) : f.Awaits f := of_continues (.refl f)

theorem of_closed (hg : g.state = .closed) : f.Awaits g := ⟨fun _ => Or.inr hg, fun _ => hg⟩

end TcpFlow.Awaits

namespace Stack

variable {P : Ending → Prop} {s t u : Stack} {i : Fin 16}

/-- A step in which no handshake is completed: the flows wait, and no backlog grows. -/
structure Quiet (s t : Stack) : Prop where
  flows : ∀ i, (s.tcpFlows i).Awaits (t.tcpFlows i)
  backlog : ∀ j, (t.listeners j).backlog ⊆ (s.listeners j).backlog

theorem Quiet.trans (h : Quiet s t) (h' : Quiet t u) : Quiet s u :=
  ⟨fun i => (h.flows i).trans (h'.flows i), fun j => List.Subset.trans (h'.backlog j) (h.backlog j)⟩

theorem Quiet.refl (s : Stack) : Quiet s s := ⟨fun _ => .refl _, fun _ => List.Subset.refl _⟩

/-- A change of one flow. -/
theorem quiet_of_update {f : TcpFlow} (hflows : t.tcpFlows = update s.tcpFlows i f)
    (hlisteners : t.listeners = s.listeners) (h : (s.tcpFlows i).Awaits f) : Quiet s t := by
  refine ⟨?_, fun j => hlisteners ▸ refl _⟩
  rw [hflows]
  exact (forall_update_iff s.tcpFlows fun k g => (s.tcpFlows k).Awaits g).mpr
    ⟨h, fun _ _ => .refl _⟩

/-- **Every change that completes no handshake is quiet.** -/
theorem Change.quiet (h : Change P s t) (hP : ∀ f, ¬P (.handshake f)) : Quiet s t := by
  cases h with
  | buf b buf => exact ⟨fun _ => .refl _, fun _ => refl _⟩
  | listener j l h =>
    refine ⟨fun _ => .refl _, ?_⟩
    exact (forall_update_iff s.listeners fun k m =>
      m.backlog ⊆ (s.listeners k).backlog).mpr ⟨h, fun _ _ => refl _⟩
  | number | udp | openUdp | idleUdp => exact ⟨fun _ => .refl _, fun _ => refl _⟩
  | flow i f h => exact quiet_of_update rfl rfl (.of_continues h)
  | retransmit now =>
    exact ⟨fun i => .of_continues ((s.tcpFlows i).continues_retransmit now),
      fun _ => refl _⟩
  | openTcp i f hi hf hr ht =>
    -- a free slot neither waits nor is closed
    refine quiet_of_update rfl rfl ⟨fun hsyn => ?_, fun hclosed => ?_⟩
    · rw [hi] at hsyn
      nomatch hsyn
    · rw [hi] at hclosed
      nomatch hclosed
  | establish i f listeners hi hf he hl hp => exact absurd hp (hP _)
  | reset i hi hp => exact quiet_of_update rfl rfl (.of_closed rfl)
  | timeout i f hi hi' hf he hp => exact quiet_of_update rfl rfl (.of_closed hf)

theorem quiet_exec (c : Call) (hc : ∀ f, ¬c.Ends s (.handshake f)) : Quiet s (c.exec s) :=
  (steps_exec s c).induct (.refl s) (fun _ => ⟨fun h => ⟨h.flows, h.backlog⟩,
    fun h => ⟨h.flows, h.backlog⟩⟩) fun _ _ hquiet hchange => hquiet.trans (hchange.quiet hc)

/-! ### The segment that completes a handshake -/

/-- The handshake of a slot is completed, and nothing else happens to the flows and the
backlogs. -/
structure Establishes (s t : Stack) (i : Fin 16) : Prop where
  state : (t.tcpFlows i).state = .established
  others : ∀ k, k ≠ i → t.tcpFlows k = s.tcpFlows k
  backlog : ∀ j, ∀ e ∈ (t.listeners j).backlog,
    e ∈ (s.listeners j).backlog ∨ e.flowId = (s.tcpFlows i).flowId

theorem establishes_establishFlow (i : Fin 16) (seg : Segment) (start : UInt64) (peerIp : UInt32)
    (peerAddr : IpAddr) : Establishes s (s.establishFlow i seg start peerIp peerAddr) i := by
  obtain ⟨listeners, heq, hl⟩ := s.establishFlow_eq i seg start peerIp peerAddr
  rw [heq]
  refine ⟨?_, fun k hk => update_of_ne hk _ _, hl⟩
  simp only [setFlow, update_self]

theorem Establishes.of_core (h : Establishes s t i) (hcore : u.core = t.core) :
    Establishes s u i where
  state := by
    rw [tcpFlows_of_core hcore]
    exact h.state
  others := by
    rw [tcpFlows_of_core hcore]
    exact h.others
  backlog := by
    rw [listeners_of_core hcore]
    exact h.backlog

theorem core_acceptQueueEnqueue (entry : AcceptEntry) :
    (s.acceptQueueEnqueue entry).core = s.core.acceptQueueEnqueue entry :=
  (congrArg core (s.acceptQueueEnqueue_eq rfl entry)).trans
    (s.acceptQueueEnqueue_eq (t := s.core) rfl entry).symm

theorem core_establishFlow (i : Fin 16) (seg : Segment) (start : UInt64) (peerIp : UInt32)
    (peerAddr : IpAddr) : (s.establishFlow i seg start peerIp peerAddr).core =
      s.core.establishFlow i seg start peerIp peerAddr :=
  core_acceptQueueEnqueue _

/-- What the body does on a stack with the same tables, the handler does. -/
theorem core_dispatch_of_completes (hs : Idle s) {seg : Segment} {length : ℕ}
    (hc : s.Completes (s.tcpFlows i) seg length) (h0 : 0 < length) {start : UInt64}
    {peerIp : UInt32} {peerAddr : IpAddr} {body : QueueBinding → Stack → Status × Stack}
    (hbody : ∀ b t, (t.tcpFlows i).state = .synRecv →
      (body b t).2 = t.establishFlow i seg start peerIp peerAddr) :
    (s.dispatch (s.findBinding (s.tcpFlows i).queueId) length body).2.core =
      (s.establishFlow i seg start peerIp peerAddr).core := by
  obtain ⟨b, hb⟩ := Option.isSome_iff_exists.mp hc.bound
  obtain ⟨-, -, -, hqueue⟩ := inUse_of_findBinding hb
  obtain ⟨t, ht, -, hcore⟩ := dispatch_of_idle hs body (hqueue ▸ hc.bound) h0 hc.size
  have hsyn : (t.tcpFlows i).state = .synRecv := by
    rw [tcpFlows_of_core ht]
    exact hc.state
  rw [hb, hcore, hbody b t hsyn, core_establishFlow, core_establishFlow, ht]

/-- **The call that completes a handshake does nothing but establish the flow.** -/
theorem exec_of_ends (hs : Idle s) {c : Call} {f : TcpFlow} (h : c.Ends s (.handshake f)) :
    ∃ i seg start peerIp peerAddr, s.tcpFlows i = f ∧ f.state = .synRecv ∧
      seg.fields.dstPort = f.localPort ∧
      (c.exec s).core = (s.establishFlow i seg start peerIp peerAddr).core := by
  cases c with
  | tcpFrame clock frame =>
    obtain ⟨fields, i, hparse, hfind, rfl, hc⟩ := h
    have hlen := (spec_of_parseTcp hparse).1
    refine ⟨i, segmentV4 frame fields, clock.start, swapBytes (readU32le frame 26),
      ⟨4, fun _ => 0⟩, rfl, hc.state, (of_findFlowByPorts hfind).2.symm, ?_⟩
    rw [Call.exec, processTcpFrame, if_neg (Nat.not_lt.mpr hlen), hparse]
    dsimp only
    rw [hfind]
    refine core_dispatch_of_completes hs hc (by omega) fun b t hsyn => ?_
    simp only [tcpBody, hc.noRst, hc.ack, hsyn, Bool.false_eq_true, if_false, and_self, if_true]
  | tcpFrameV6 clock frame =>
    obtain ⟨fields, src, dst, i, hparse, hfind, rfl, hc⟩ := h
    have hlen := (spec_of_parseTcpV6 hparse).1
    refine ⟨i, segmentV6 frame fields, clock.start, 0, src, rfl, hc.state,
      (of_findFlowByPortsV6 hfind).2.symm, ?_⟩
    rw [Call.exec, processTcpFrameV6, if_neg (Nat.not_lt.mpr hlen), hparse]
    dsimp only
    rw [hfind]
    refine core_dispatch_of_completes hs hc (by omega) fun b t hsyn => ?_
    simp only [tcpBodyV6, hc.noRst, hc.ack, hsyn, Bool.false_eq_true, if_false, and_self, if_true]
  | _ => cases h

/-- **The call that completes a handshake establishes the flow.** -/
theorem establishes_of_ends (hs : Idle s) {c : Call} {f : TcpFlow} (h : c.Ends s (.handshake f)) :
    ∃ i, s.tcpFlows i = f ∧ f.state = .synRecv ∧ Establishes s (c.exec s) i := by
  obtain ⟨i, seg, start, peerIp, peerAddr, hi, hsyn, -, hcore⟩ := exec_of_ends hs h
  exact ⟨i, hi, hsyn, (establishes_establishFlow i seg start peerIp peerAddr).of_core hcore⟩

end Stack

open Stack

/-! ### Runs -/

/-- A stack, and for each slot the sequence number its flow started with. -/
structure Watched where
  stack : Stack
  iss : Fin 16 → UInt32

/-- A call. When a slot enters the handshake, its sequence number is noted. -/
def Watched.exec (w : Watched) (c : Call) : Watched where
  stack := c.exec w.stack
  iss i :=
    if (w.stack.tcpFlows i).state ≠ .synRecv ∧ ((c.exec w.stack).tcpFlows i).state = .synRecv then
      ((c.exec w.stack).tcpFlows i).localSeq
    else w.iss i

/-- The acknowledgement number of the segment that a call brings. -/
def Call.ackNumber : Call → Option UInt32
  | .tcpFrame _ frame => (parseTcp frame).map TcpFields.ack
  | .tcpFrameV6 _ frame => (parseTcpV6 frame).map fun r => r.1.ack
  | _ => none

/-- **What a call may do to handshakes.** A flow is established only by the acknowledgement
of the number it started with, and what enters a backlog is a flow that is being
established. -/
structure Watched.Sound (w : Watched) (c : Call) : Prop where
  established : ∀ i, (w.stack.tcpFlows i).state = .synRecv →
    ((c.exec w.stack).tcpFlows i).state = .established → c.ackNumber = some (w.iss i + 1)
  backlog : ∀ j, ∀ e ∈ ((c.exec w.stack).listeners j).backlog,
    e ∉ (w.stack.listeners j).backlog →
    ∃ i, (w.stack.tcpFlows i).state = .synRecv ∧
      ((c.exec w.stack).tcpFlows i).state = .established ∧ e.flowId = (w.stack.tcpFlows i).flowId

/-- Every segment that completes a handshake acknowledges the SYN-ACK. -/
def Watched.Acknowledged (w : Watched) (c : Call) : Prop :=
  ∀ f, c.Ends w.stack (.handshake f) → c.ackNumber = some (f.localSeq + 1)

/-- The noted numbers are those of the flows in the handshake. -/
structure Watched.Faithful (w : Watched) : Prop where
  idle : Idle w.stack
  iss : ∀ i, (w.stack.tcpFlows i).state = .synRecv → (w.stack.tcpFlows i).localSeq = w.iss i

variable {w : Watched}

theorem Watched.Faithful.exec (hw : w.Faithful) (c : Call) : (w.exec c).Faithful := by
  refine ⟨(advances_exec hw.idle c).idle, fun i hi => ?_⟩
  by_cases hsyn : (w.stack.tcpFlows i).state = .synRecv
  · -- the flow was in the handshake already, and its number has not changed
    have hiss : (w.exec c).iss i = w.iss i := if_neg fun h => h.1 hsyn
    rw [hiss, ← hw.iss i hsyn]
    by_cases hends : ∃ f, c.Ends w.stack (.handshake f)
    · obtain ⟨f, hf⟩ := hends
      obtain ⟨k, -, -, hest⟩ := establishes_of_ends hw.idle hf
      rcases eq_or_ne i k with rfl | hne
      · rw [Watched.exec, hest.state] at hi
        nomatch hi
      · rw [Watched.exec, hest.others i hne]
    · rcases ((quiet_exec c (not_exists.mp hends)).flows i).waiting hsyn with ⟨-, hseq⟩ | hclosed
      · exact hseq
      · rw [Watched.exec, hclosed] at hi
        nomatch hi
  · have hiss : (w.exec c).iss i = ((c.exec w.stack).tcpFlows i).localSeq := if_pos ⟨hsyn, hi⟩
    exact hiss.symm

/-- **One call**: its handshakes are sound exactly when the acknowledgement is right. -/
theorem Watched.Faithful.sound_iff (hw : w.Faithful) (c : Call) : w.Sound c ↔ w.Acknowledged c := by
  constructor
  · rintro hsound f hf
    obtain ⟨i, rfl, hsyn, hest⟩ := establishes_of_ends hw.idle hf
    rw [hw.iss i hsyn]
    exact hsound.established i hsyn hest.state
  · intro hack
    by_cases hends : ∃ f, c.Ends w.stack (.handshake f)
    · obtain ⟨f, hf⟩ := hends
      obtain ⟨i, rfl, hsyn, hest⟩ := establishes_of_ends hw.idle hf
      constructor
      · intro k hk hk'
        rcases eq_or_ne k i with rfl | hne
        · rw [← hw.iss k hk]
          exact hack _ hf
        · rw [hest.others k hne, hk] at hk'
          nomatch hk'
      · intro j e he hnew
        exact ⟨i, hsyn, hest.state, (hest.backlog j e he).resolve_left hnew⟩
    · have hquiet := quiet_exec c (not_exists.mp hends)
      constructor
      · intro i hsyn hest
        rcases (hquiet.flows i).waiting hsyn with ⟨hstate, -⟩ | hstate <;>
        · rw [hstate] at hest
          nomatch hest
      · intro j e he hnew
        exact absurd (hquiet.backlog j he) hnew

/-- The stack at boot, with nothing noted. -/
def watchedBoot : Watched := ⟨boot, fun _ => 0⟩

theorem faithful_watchedBoot : watchedBoot.Faithful :=
  ⟨idle_boot, fun _ hi => nomatch (hi : TcpFlow.init.state = .synRecv)⟩

/-- **Integrity of the handshake.** In a run from boot every handshake is completed by the
acknowledgement of its own number, and only flows being established enter a backlog,
exactly when every segment that completes a handshake carries that number. -/
theorem handshakes_sound_iff (cs : List Call) :
    Along Watched.exec Watched.Sound watchedBoot cs ↔
      Along Watched.exec Watched.Acknowledged watchedBoot cs :=
  Along.congr faithful_watchedBoot (fun _ c hw _ => hw.exec c) (fun _ c hw => hw.sound_iff c) cs

/-- A peer opens a connection and answers with acknowledgement number zero. -/
def blindCalls : List Call :=
  listenCalls ++ [.tcpFrame ⟨1000, 1001⟩ (bareFrame 1 flagSyn),
    .tcpFrame ⟨2000, 2001⟩ (bareFrame 1 flagAck)]

/-- The connection is established and waits in the backlog, although it started with
another number. -/
theorem established_by_blind_ack :
    ¬Along Watched.exec Watched.Sound watchedBoot blindCalls ∧
      let s := runCalls boot blindCalls
      (s.tcpFlows 0).state = .established ∧ ((s.listeners 0).backlog.map (·.flowId)) = [1] := by
  refine ⟨fun h => ?_, ?_, ?_⟩
  · -- the fourth call establishes the flow
    have hsound := h.2.2.2.1.established 0 (by decide +kernel) (by decide +kernel)
    exact absurd hsound (by decide +kernel)
  · decide +kernel
  · decide +kernel

end Xaios.Net
