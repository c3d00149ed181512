import Xaios.Net.Handshake

/-!
# The end of a connection

What becomes of a connection after the first FIN. The handlers have code for all
transitions of the close handshake, but it is behind a test that only lets segments of
`ESTABLISHED` and `CLOSE_WAIT` through (version 6 also those of `FIN_WAIT_2` and
`TIME_WAIT`, whose state it never changes). So a connection that has sent its FIN keeps
its state until it is reset or timed out (`Net.Stack.closing_exec`). The timers
know `FIN_WAIT` and `TIME_WAIT` only: a connection in `LAST_ACK` stays there for good
(`Net.lastAck_runCalls`), and the other two states are never reached
(`Net.reached_runCalls`).
-/

namespace Xaios.Net

open Foundation Function TcpFlow

/-- The states of a connection that has sent its FIN or has ended. -/
def FlowState.Closing (a : FlowState) : Prop :=
  a = .finWait ∨ a = .finWait2 ∨ a = .lastAck ∨ a = .timeWait ∨ a = .closed

namespace FlowState.Closing

variable {a b : FlowState}

/-- No transition of an open connection starts here. -/
theorem progress (ha : a.Closing) (h : a.Progress b) : b = a := by
  cases h with
  | refl => rfl
  | closeWait | finWait | lastAck | both => exact absurd ha (by simp [Closing])

theorem ne_free (ha : a.Closing) : a ≠ .free := by
  rcases ha with rfl | rfl | rfl | rfl | rfl <;> decide

theorem ne_synRecv (ha : a.Closing) : a ≠ .synRecv := by
  rcases ha with rfl | rfl | rfl | rfl | rfl <;> decide

end FlowState.Closing

namespace Stack

variable {P : Ending → Prop} {s t : Stack} {i : Fin 16} {a : FlowState}

/-- A slot that was in state `a` is so still, or its connection was reset or timed out. -/
def Rests (P : Ending → Prop) (i : Fin 16) (a : FlowState) (t : Stack) : Prop :=
  (t.tcpFlows i).state = a ∨
    (t.tcpFlows i).state = .closed ∧ ∃ f : TcpFlow, f.state = a ∧ (P (.reset f) ∨ P (.timeout f))

/-- A change of one flow. -/
theorem rests_of_update {k : Fin 16} {f : TcpFlow}
    (ht : t.tcpFlows = update s.tcpFlows k f) (hi : (s.tcpFlows i).state = a)
    (hk : (s.tcpFlows k).state = a → f.state = a ∨ f.state = .closed ∧
      (P (.reset (s.tcpFlows k)) ∨ P (.timeout (s.tcpFlows k)))) : Rests P i a t := by
  rw [Rests, ht]
  rcases eq_or_ne i k with rfl | hne
  · rw [update_self]
    exact (hk hi).imp_right fun ⟨hclosed, hp⟩ => ⟨hclosed, _, hi, hp⟩
  · rw [update_of_ne hne]
    exact .inl hi

/-- **A change leaves a closing connection alone**, or resets it or times it out. -/
theorem Change.rests (h : Change P s t) (ha : a.Closing) (hi : (s.tcpFlows i).state = a) :
    Rests P i a t := by
  cases h with
  | buf | listener | number | udp | openUdp | idleUdp => exact .inl hi
  | flow k f h =>
    refine rests_of_update rfl hi fun hk => .inl ?_
    rw [← hk] at ha ⊢
    exact ha.progress h.state
  | retransmit now => exact .inl ((state_retransmit _ now).trans hi)
  | openTcp k f hk hf hr ht =>
    exact rests_of_update rfl hi fun hk' => absurd (hk'.symm.trans hk) ha.ne_free
  | establish k f listeners hk hf he hl hp =>
    exact rests_of_update rfl hi fun hk' => absurd (hk'.symm.trans hk) ha.ne_synRecv
  | reset k hk hp => exact rests_of_update rfl hi fun _ => .inr ⟨rfl, .inl hp⟩
  | timeout k f hk hk' hf he hp => exact rests_of_update rfl hi fun _ => .inr ⟨hf, .inr hp⟩

/-- **A call leaves a closing connection alone**, or resets it or times it out. -/
theorem closing_exec (c : Call) (ha : a.Closing) (hi : (s.tcpFlows i).state = a) :
    Rests (c.Ends s) i a (c.exec s) := by
  refine (steps_exec s c).induct (.inl hi) (fun _ => .rfl) fun u v hu hchange => ?_
  rcases hu with hstate | ⟨hclosed, hwhy⟩
  · exact hchange.rests ha hstate
  · -- a connection that has ended does not come back
    have hend : FlowState.Closing .closed := by simp [FlowState.Closing]
    refine .inr ⟨?_, hwhy⟩
    rcases hchange.rests hend hclosed with h | ⟨h, -⟩ <;> exact h

end Stack

open Stack

/-! ### The last acknowledgement -/

/-- A call that brings a segment with the RST flag. -/
def Call.IsReset : Call → Prop
  | .tcpFrame _ frame => ∃ fields, parseTcp frame = some fields ∧
      (segmentV4 frame fields).has flagRst = true
  | .tcpFrameV6 _ frame => ∃ fields src dst, parseTcpV6 frame = some (fields, src, dst) ∧
      (segmentV6 frame fields).has flagRst = true
  | _ => False

variable {s : Stack} {c : Call} {f : TcpFlow}

theorem Call.isReset_of_ends (h : c.Ends s (.reset f)) : c.IsReset := by
  cases c with
  | tcpFrame clock frame =>
    obtain ⟨fields, -, hparse, -, -, hrst⟩ := h
    exact ⟨fields, hparse, hrst⟩
  | tcpFrameV6 clock frame =>
    obtain ⟨fields, src, dst, -, hparse, -, -, hrst⟩ := h
    exact ⟨fields, src, dst, hparse, hrst⟩
  | _ => nomatch h

theorem Call.timesOut_of_ends (h : c.Ends s (.timeout f)) : ∃ now, f.timesOut now = true := by
  cases c with
  | expireTcpFlows now =>
    obtain ⟨i, rfl, hout⟩ := h
    exact ⟨now, hout⟩
  | _ => nomatch h

/-- The timers do not know `LAST_ACK` and `FIN_WAIT_2`. -/
theorem TcpFlow.timesOut_eq_false (h : f.state = .lastAck ∨ f.state = .finWait2) (now : UInt64) :
    f.timesOut now = false := by
  rcases h with h | h <;> simp [timesOut, waitExpired, synExpired, keepaliveExpired, h]

theorem lastAck_exec {i : Fin 16} (hc : ¬c.IsReset) (hi : (s.tcpFlows i).state = .lastAck) :
    ((c.exec s).tcpFlows i).state = .lastAck := by
  have hlast : FlowState.Closing .lastAck := by simp [FlowState.Closing]
  rcases closing_exec c hlast hi with hstate | ⟨-, f, hf, hreset | htimeout⟩
  · exact hstate
  · exact absurd (Call.isReset_of_ends hreset) hc
  · obtain ⟨now, hout⟩ := Call.timesOut_of_ends htimeout
    rw [timesOut_eq_false (.inl hf)] at hout
    nomatch hout

/-- **A connection in `LAST_ACK` stays there** in every run without resets: neither an
acknowledgement nor any silence ends it. -/
theorem lastAck_runCalls {i : Fin 16} {cs : List Call} (hcs : ∀ c ∈ cs, ¬c.IsReset)
    (hi : (s.tcpFlows i).state = .lastAck) : ((runCalls s cs).tcpFlows i).state = .lastAck := by
  induction cs generalizing s with
  | nil => exact hi
  | cons c cs ih =>
    refine ih (fun c' hc' => hcs c' (List.mem_cons_of_mem c hc')) ?_
    exact lastAck_exec (hcs c List.mem_cons_self) hi

/-! ### States that are never reached -/

/-- The states other than `FIN_WAIT_2` and `TIME_WAIT`. -/
def FlowState.Reached (a : FlowState) : Prop := a ≠ .finWait2 ∧ a ≠ .timeWait

instance : DecidablePred FlowState.Reached := fun a =>
  inferInstanceAs (Decidable (a ≠ .finWait2 ∧ a ≠ .timeWait))

theorem FlowState.Reached.progress {a b : FlowState} (ha : a.Reached) (h : a.Progress b) :
    b.Reached := by
  cases h with
  | refl => exact ha
  | closeWait | finWait | lastAck | both => decide

theorem FlowState.reached_closed : Reached .closed := by decide

namespace Stack

variable {P : Ending → Prop} {s t : Stack}

theorem reached_of_update {k : Fin 16} {f : TcpFlow}
    (ht : t.tcpFlows = update s.tcpFlows k f) (hs : ∀ i, (s.tcpFlows i).state.Reached)
    (hf : f.state.Reached) : ∀ i, (t.tcpFlows i).state.Reached := by
  rw [ht]
  exact (forall_update_iff s.tcpFlows fun _ g => g.state.Reached).mpr
    ⟨hf, fun i _ => hs i⟩

theorem Change.reached (h : Change P s t) (hs : ∀ i, (s.tcpFlows i).state.Reached) :
    ∀ i, (t.tcpFlows i).state.Reached := by
  cases h with
  | buf | listener | number | udp | openUdp | idleUdp => exact hs
  | flow k f h => exact reached_of_update rfl hs ((hs k).progress h.state)
  | retransmit now =>
    intro i
    have hstate : ((s.retransmitTcpFlows now).2.tcpFlows i).state = (s.tcpFlows i).state :=
      state_retransmit _ now
    rw [hstate]
    exact hs i
  | openTcp k f hk hf hr ht =>
    refine reached_of_update rfl hs ?_
    rw [hf]
    decide
  | establish k f listeners hk hf he hl hp =>
    refine reached_of_update rfl hs ?_
    rw [hf]
    decide
  | reset k hk hp => exact reached_of_update rfl hs FlowState.reached_closed
  | timeout k f hk hk' hf he hp =>
    exact reached_of_update rfl hs (hf ▸ FlowState.reached_closed)

end Stack

/-- **`FIN_WAIT_2` and `TIME_WAIT` are never reached.** -/
theorem reached_runCalls (cs : List Call) :
    ∀ i, ((runCalls boot cs).tcpFlows i).state.Reached := by
  refine List.foldlRecOn (motive := fun s : Stack => ∀ i, (s.tcpFlows i).state.Reached) _ _ ?_ ?_
  · intro i
    exact (by decide : init.state.Reached)
  · intro s hs c _
    exact (steps_exec s c).induct hs (fun _ => .rfl) fun _ _ hu hchange => hchange.reached hu

/-! ### Silence -/

/-- After a minute the shorter timers have run out as well. -/
theorem TcpFlow.elapsed_mono {now since wait wait' : UInt64} (h : elapsed now since wait = true)
    (hle : wait' ≤ wait) : elapsed now since wait' = true := by
  simp only [elapsed, Bool.and_eq_true, decide_eq_true_eq] at h ⊢
  exact ⟨h.1, UInt64.le_trans hle h.2⟩

/-- **A minute of silence**: of the states that are neither open nor half closed, all but
`FIN_WAIT_2` and `LAST_ACK` end. -/
theorem TcpFlow.expire_closed_iff {now : UInt64}
    (hsilent : elapsed now f.lastSeenNs 60000000000 = true) (hfree : f.state ≠ .free)
    (hest : f.state ≠ .established) (hwait : f.state ≠ .closeWait) :
    (f.expire now).state = .closed ↔ f.state ≠ .finWait2 ∧ f.state ≠ .lastAck := by
  constructor
  · intro hclosed
    -- in the two states the flow continues, so it is not closed
    have hstays : f.state = .lastAck ∨ f.state = .finWait2 → False := by
      intro hstate
      have hcont := f.continues_expire now (timesOut_eq_false hstate now)
      have hclosing : f.state.Closing := by
        rcases hstate with h | h <;> simp [FlowState.Closing, h]
      rw [hclosing.progress hcont.state] at hclosed
      rcases hstate with h | h <;> rw [h] at hclosed <;> nomatch hclosed
    exact ⟨fun h => hstays (.inr h), fun h => hstays (.inl h)⟩
  · rintro ⟨hfin, hlast⟩
    by_cases hout : f.timesOut now = true
    · exact (f.expire_of_timesOut now hout).1
    · have hcont := f.continues_expire now (Bool.eq_false_iff.mpr hout)
      have hshort := elapsed_mono hsilent (by decide : (3000000 : UInt64) ≤ 60000000000)
      cases hstate : f.state with
      | free => exact absurd hstate hfree
      | established => exact absurd hstate hest
      | closeWait => exact absurd hstate hwait
      | finWait2 => exact absurd hstate hfin
      | lastAck => exact absurd hstate hlast
      | synRecv => exact absurd (by simp [timesOut, synExpired, hstate, hshort]) hout
      | finWait | timeWait => exact absurd (by simp [timesOut, waitExpired, hstate, hsilent]) hout
      | closed =>
        have hclosing : f.state.Closing := by simp [FlowState.Closing, hstate]
        exact (hclosing.progress hcont.state).trans hstate

/-! ### The close handshake -/

/-- **The close handshake makes no progress.** No call moves a connection from `FIN_WAIT`
to `FIN_WAIT_2` or from `FIN_WAIT_2` to `TIME_WAIT`, whatever segment it brings on either
path; without the RST flag none moves it out of `LAST_ACK`. After a minute of silence the
timers close the connections that are neither open nor half closed, exactly those in
`FIN_WAIT_2` and `LAST_ACK` excepted. -/
theorem close_makes_no_progress (s : Stack) (i : Fin 16) :
    (∀ c : Call, (s.tcpFlows i).state = .finWait →
      ((c.exec s).tcpFlows i).state ≠ .finWait2) ∧
    (∀ c : Call, (s.tcpFlows i).state = .finWait2 →
      ((c.exec s).tcpFlows i).state ≠ .timeWait) ∧
    (∀ c : Call, ¬c.IsReset → (s.tcpFlows i).state = .lastAck →
      ((c.exec s).tcpFlows i).state = .lastAck) ∧
    (∀ now, TcpFlow.elapsed now (s.tcpFlows i).lastSeenNs 60000000000 = true →
      (s.tcpFlows i).state ≠ .free → (s.tcpFlows i).state ≠ .established →
      (s.tcpFlows i).state ≠ .closeWait →
      (((s.expireTcpFlows now).2.tcpFlows i).state = .closed ↔
        (s.tcpFlows i).state ≠ .finWait2 ∧ (s.tcpFlows i).state ≠ .lastAck)) := by
  refine ⟨?_, ?_, fun c hc hi => lastAck_exec hc hi, ?_⟩
  · intro c hi hnext
    rcases closing_exec c (.inl rfl) hi with hstate | ⟨hstate, -⟩ <;>
    · rw [hstate] at hnext
      nomatch hnext
  · intro c hi hnext
    rcases closing_exec c (.inr (.inl rfl)) hi with hstate | ⟨hstate, -⟩ <;>
    · rw [hstate] at hnext
      nomatch hnext
  · intro now hsilent hfree hest hwait
    rw [tcpFlows_expireTcpFlows]
    exact expire_closed_iff hsilent hfree hest hwait

/-- A segment without payload whose acknowledgement number is below 2 ^ 16. -/
def ackFrame (seq flags ackHigh ackLow : UInt8) : List UInt8 :=
  [0, 0, 0, 0, 0, 0, 0, 0, 0, 0, 0, 0, 8, 0,
    0x45, 0, 0, 40, 0, 0, 0, 0, 64, 6, 0, 0, 10, 0, 2, 15, 10, 0, 2, 2,
    0x1f, 1, 0, 80, 0, 0, 0, seq, 0, 0, ackHigh, ackLow, 0x50, flags, 0, 0, 0, 0, 0, 0]

/-- A handshake with the right numbers: the flow starts with 1000, and 1001 is
acknowledged. -/
def openCalls : List Call :=
  listenCalls ++ [.tcpFrame ⟨1000, 1001⟩ (ackFrame 1 flagSyn 0 0),
    .tcpDrainPending fun _ => some fun _ => 0,
    .tcpFrame ⟨2000, 2001⟩ (ackFrame 2 flagAck 0x03 0xe9)]

/-- The application closes the connection, and the FIN, number 1001, goes out. -/
def activeClose : List Call :=
  openCalls ++ [.tcpCloseFlow 1, .tcpDrainPending fun _ => some fun _ => 0]

/-- The peer closes the connection first, and then the application does. -/
def passiveClose : List Call :=
  openCalls ++ [.tcpFrame ⟨3000, 3001⟩ (ackFrame 2 (flagFin ||| flagAck) 0x03 0xe9),
    .tcpCloseFlow 1, .tcpDrainPending fun _ => some fun _ => 0]

/-- The connection that the peer closed first, after a day. -/
theorem lastAck_after_day :
    ((runCalls (runCalls boot passiveClose)
      [.expireTcpFlows 86400000000000]).tcpFlows 0).state = .lastAck :=
  lastAck_runCalls (by simp [Call.IsReset]) (by decide +kernel)

theorem taken_after_close :
    ((runCalls (runCalls boot passiveClose) [.expireTcpFlows 0]).tcpFlows 0).state ≠ .free :=
  taken_runCalls (advances_runCalls idle_boot passiveClose).idle _ (by decide +kernel)

/-- **The acknowledgement of the FIN is refused** in `FIN_WAIT` and in `LAST_ACK`, and the
connection in `LAST_ACK` is still there a day later. -/
theorem finAck_refused :
    let ack := ackFrame 3 flagAck 0x03 0xea
    let s := runCalls boot activeClose
    let t := runCalls boot passiveClose
    let day := 86400000000000
    ((s.tcpFlows 0).state = .finWait ∧ (s.tcpFlows 0).nextSendSeq = 0x03ea ∧
      (s.processTcpFrame ⟨4000, 4001⟩ ack).1 = .invalid ∧
      ((s.processTcpFrame ⟨4000, 4001⟩ ack).2.tcpFlows 0).state = .finWait) ∧
    ((t.tcpFlows 0).state = .lastAck ∧ (t.tcpFlows 0).nextSendSeq = 0x03ea ∧
      (t.processTcpFrame ⟨4000, 4001⟩ ack).1 = .invalid ∧
      ((runCalls t [.tcpFrame ⟨4000, 4001⟩ ack, .expireTcpFlows day]).tcpFlows 0).state =
        .lastAck) := by
  refine ⟨⟨?_, ?_, ?_, ?_⟩, ?_, ?_, ?_, ?_⟩ <;> decide +kernel

/-- The connection that the peer closed first is not closed by its last acknowledgement. -/
theorem close_makes_no_progress_passive :
    ((Call.exec (runCalls boot passiveClose)
      (.tcpFrame ⟨4000, 4001⟩ (ackFrame 3 flagAck 0x03 0xea))).tcpFlows 0).state = .lastAck := by
  refine (close_makes_no_progress (runCalls boot passiveClose) 0).2.2.1
    (.tcpFrame ⟨4000, 4001⟩ (ackFrame 3 flagAck 0x03 0xea)) ?_ (by decide +kernel)
  rintro ⟨fields, hparse, hrst⟩
  have hfields : fields = tcpFields (ackFrame 3 flagAck 0x03 0xea) 34 := by
    have hframe : parseTcp (ackFrame 3 flagAck 0x03 0xea) =
        some (tcpFields (ackFrame 3 flagAck 0x03 0xea) 34) := by decide +kernel
    exact Option.some.inj (hparse.symm.trans hframe)
  rw [hfields] at hrst
  exact absurd hrst (by decide +kernel)

end Xaios.Net
