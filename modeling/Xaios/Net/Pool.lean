import Xaios.Foundation.Custody
import Xaios.Net.Admission

/-!
# The pool of socket buffers

Which flow holds which buffer of the pool. The fields that can refer to a buffer are the
`rx_buf` of the UDP flows and the `rx_buf` and `tx_buf` of the TCP flows, and they are
custodians in the sense of `Foundation.Custody`: a new flow takes buffers, a reset gives
them back.

The timers do neither. `network_stack_expire_udp_flows` clears `active`, and
`network_stack_expire_tcp_flows` sets the state to `CLOSED`, and the buffers stay in use
with nobody to free them. So the pool is conserved in a run exactly when no timer ever
ends a flow that holds a buffer (`Net.pool_conserved_iff`).
-/

namespace Xaios.Net

open Foundation Function

/-! ### Custody -/

/-- The fields that refer to buffers. -/
inductive BufField where
  /-- `rx_buf` of a UDP flow. -/
  | udp (i : Fin 16)
  /-- `rx_buf` of a TCP flow. -/
  | rx (i : Fin 16)
  /-- `tx_buf` of a TCP flow. -/
  | tx (i : Fin 16)
  deriving DecidableEq

/-- A TCP flow that is neither free nor closed. -/
def TcpFlow.alive (f : TcpFlow) : Bool := decide (f.state ≠ .free ∧ f.state ≠ .closed)

namespace Stack

/-- What a field refers to. -/
def ref (s : Stack) : BufField → Option (Fin 32)
  | .udp i => (s.udpFlows i).rxBuf
  | .rx i => (s.tcpFlows i).rxBuf
  | .tx i => (s.tcpFlows i).txBuf

/-- Whether the flow of a field is active, or neither free nor closed. -/
def alive (s : Stack) : BufField → Bool
  | .udp i => (s.udpFlows i).active
  | .rx i => (s.tcpFlows i).alive
  | .tx i => (s.tcpFlows i).alive

/-- Who holds which buffer. -/
def custody (s : Stack) : Custody BufField (Fin 32) where
  ref := s.ref
  used b := (s.pool b).inUse
  live := s.alive

/-- **The pool is conserved**: every buffer in use is referred to by exactly one field of a
flow that is alive, and no two fields refer to one buffer. -/
structure PoolConserved (s : Stack) : Prop where
  held : ∀ b, (s.pool b).inUse = true → ∃! r, s.alive r = true ∧ s.ref r = some b
  distinct : ∀ r r' b, s.ref r = some b → s.ref r' = some b → r = r'

variable {P : Ending → Prop} {s t : Stack} {i : Fin 16}

theorem poolConserved_of_custody (h : s.custody.Conserved) : s.PoolConserved :=
  ⟨fun _ hb => h.existsUnique hb, h.distinct⟩

theorem conserved_boot : boot.custody.Conserved where
  used r b h := by
    cases r <;> nomatch (h : none = some b)
  distinct r r' b h _ := by
    cases r <;> nomatch (h : none = some b)
  held b h := nomatch (h : false = true)
  dead r _ := by
    cases r <;> rfl

/-! ### The pool -/

theorem inUse_of_takeBuf {b : Fin 32} (h : s.takeBuf.1 = some b) : (s.pool b).inUse = false := by
  unfold takeBuf sockbufAlloc at h
  split at h
  · next k hfind =>
    obtain rfl := Option.some.inj h
    have hfree := List.find?_some hfind
    rwa [Bool.not_eq_true'] at hfree
  · nomatch h

theorem inUse_takeBuf (s : Stack) (b : Fin 32) :
    (s.takeBuf.2.pool b).inUse = (decide (s.takeBuf.1 = some b) || (s.pool b).inUse) := by
  unfold takeBuf sockbufAlloc
  split
  · next k hfind =>
    rcases eq_or_ne b k with rfl | hne
    · simp
    · simp [update_of_ne hne, hne.symm]
  · simp

theorem inUse_sockbufFree (pool : Pool) (x : Option (Fin 32)) (b : Fin 32) :
    (sockbufFree pool x b).inUse = (!decide (x = some b) && (pool b).inUse) := by
  unfold sockbufFree
  split
  · next k =>
    rcases eq_or_ne b k with rfl | hne
    · simp
    · simp [update_of_ne hne, hne.symm]
  · simp

/-! ### What changes do to custody -/

theorem field_of_update {F γ : Type} {flows flows' : Fin 16 → F} {f : F}
    (h : flows' = update flows i f) (field : F → γ) (k : Fin 16) :
    field (flows' k) = if k = i then field f else field (flows k) := by
  rw [h, update_apply, apply_ite field]

/-- A change of one UDP flow. -/
theorem custody_of_udpFlows {f : UdpFlow} (hudp : t.udpFlows = update s.udpFlows i f)
    (htcp : t.tcpFlows = s.tcpFlows) :
    t.custody = ⟨update s.ref (.udp i) f.rxBuf, fun b => (t.pool b).inUse,
      update s.alive (.udp i) f.active⟩ := by
  have hfield := fun {γ} => field_of_update (γ := γ) hudp
  refine Custody.ext ?_ rfl ?_
  · funext r
    cases r <;> simp [custody, ref, hfield, htcp, update_apply]
  · funext r
    cases r <;> simp [custody, alive, hfield, htcp, update_apply]

/-- A change of one TCP flow. -/
theorem custody_of_tcpFlows {f : TcpFlow} (htcp : t.tcpFlows = update s.tcpFlows i f)
    (hudp : t.udpFlows = s.udpFlows) :
    t.custody = ⟨update (update s.ref (.rx i) f.rxBuf) (.tx i) f.txBuf,
      fun b => (t.pool b).inUse,
      update (update s.alive (.rx i) f.alive) (.tx i) f.alive⟩ := by
  have hfield := fun {γ} => field_of_update (γ := γ) htcp
  refine Custody.ext ?_ rfl ?_
  · funext r
    cases r <;> simp [custody, ref, hfield, hudp, update_apply]
  · funext r
    cases r <;> simp [custody, alive, hfield, hudp, update_apply]

/-- A connection that continues, and one that is established, keeps its buffers. -/
theorem custody_of_keeps {f : TcpFlow} (htcp : t.tcpFlows = update s.tcpFlows i f)
    (hudp : t.udpFlows = s.udpFlows) (hpool : t.pool = s.pool)
    (he : f.endpoint = (s.tcpFlows i).endpoint) (halive : f.alive = (s.tcpFlows i).alive) :
    t.custody = s.custody := by
  rw [custody_of_tcpFlows htcp hudp, TcpFlow.rxBuf_of_endpoint he, TcpFlow.txBuf_of_endpoint he,
    halive, hpool]
  refine Custody.ext ?_ rfl ?_
  · funext r
    cases r <;> simp [custody, ref, update_apply] <;> rintro rfl <;> rfl
  · funext r
    cases r <;> simp [custody, alive, update_apply] <;> rintro rfl <;> rfl

end Stack

theorem TcpFlow.Continues.alive {f g : TcpFlow} (h : f.Continues g) : g.alive = f.alive := by
  rcases h.state.eq_or_open with heq | ⟨hf, hg⟩
  · rw [TcpFlow.alive, TcpFlow.alive, heq]
  · rw [TcpFlow.alive, TcpFlow.alive, decide_eq_true ⟨hg.1, hg.2.2⟩,
      decide_eq_true ⟨hf.1, hf.2.2⟩]

/-- An end that leaves no buffer behind. A reset gives the buffers back itself. -/
def Ending.Bufferless : Ending → Prop
  | .timeout f => f.rxBuf = none ∧ f.txBuf = none
  | .idle f => f.rxBuf = none
  | _ => True

namespace Stack

variable {P : Ending → Prop} {s t : Stack} {i : Fin 16}

/-- What happens to the bytes of a buffer does not change who holds it. -/
theorem custody_setBuf (b : Fin 32) (buf : SocketBuffer) :
    (s.setBuf b buf).custody = s.custody := by
  refine Custody.ext rfl ?_ rfl
  funext b'
  rcases eq_or_ne b' b with rfl | hne
  · simp [custody, setBuf]
  · simp [custody, setBuf, update_of_ne hne]

/-- A UDP flow that a datagram arrives for keeps its buffer. -/
theorem custody_setUdpFlow {f : UdpFlow} (ha : f.active = (s.udpFlows i).active)
    (hr : f.rxBuf = (s.udpFlows i).rxBuf) : (s.setUdpFlow i f).custody = s.custody := by
  refine Eq.trans (custody_of_udpFlows rfl rfl) ?_
  rw [hr, ha]
  exact Custody.ext (update_eq_self (.udp i) s.ref) rfl
    (update_eq_self (.udp i) s.alive)

/-- A new UDP flow takes a buffer. -/
theorem custody_openUdp {f : UdpFlow} (ha : f.active = true) (hr : f.rxBuf = s.takeBuf.1) :
    (s.takeBuf.2.setUdpFlow i f).custody = s.custody.take (.udp i) s.takeBuf.1 := by
  refine Eq.trans (custody_of_udpFlows rfl rfl) ?_
  rw [hr, ha]
  exact Custody.ext rfl (funext fun b => inUse_takeBuf s b) rfl

/-- A UDP flow that is given up keeps its buffer. -/
theorem custody_expireUdpFlows (now : UInt64) : (s.expireUdpFlows now).2.custody =
    { s.custody with live := (s.expireUdpFlows now).2.alive } := by
  refine Custody.ext ?_ rfl rfl
  funext r
  cases r with
  | udp k =>
    simp only [custody, ref, expireUdpFlows]
    split <;> rfl
  | rx | tx => rfl

theorem dead_of_expireUdpFlows {now : UInt64} {r : BufField}
    (hr : (s.expireUdpFlows now).2.alive r = false) :
    s.alive r = false ∨ ∃ k, r = .udp k ∧ s.udpExpired now k = true := by
  cases r with
  | udp k =>
    by_cases hexp : s.udpExpired now k = true
    · exact .inr ⟨k, rfl, hexp⟩
    · rw [alive, expireUdpFlows] at hr
      dsimp only at hr
      rw [if_neg hexp] at hr
      exact .inl hr
  | rx | tx => exact .inl hr

theorem custody_retransmitTcpFlows (now : UInt64) :
    (s.retransmitTcpFlows now).2.custody = s.custody := by
  have hcont := fun k => (s.tcpFlows k).continues_retransmit now
  refine Custody.ext ?_ rfl ?_
  · funext r
    cases r with
    | udp k => rfl
    | rx k => exact TcpFlow.rxBuf_of_endpoint (hcont k).endpoint
    | tx k => exact TcpFlow.txBuf_of_endpoint (hcont k).endpoint
  · funext r
    cases r with
    | udp k => rfl
    | rx k => exact (hcont k).alive
    | tx k => exact (hcont k).alive

/-- Two buffers are taken by a slot that was free. -/
theorem custody_openTcp {f : TcpFlow} {n : ℕ} (hf : f.state = .synRecv) (hr : f.rxBuf = s.takeBuf.1)
    (ht : f.txBuf = s.takeBuf.2.takeBuf.1) :
    ({ s.takeBuf.2.takeBuf.2.setFlow i f with halfOpen := n } : Stack).custody =
      (s.custody.take (.rx i) s.takeBuf.1).take (.tx i) s.takeBuf.2.takeBuf.1 := by
  have halive : f.alive = true := by
    rw [TcpFlow.alive, hf]
    rfl
  refine Eq.trans (custody_of_tcpFlows rfl rfl) ?_
  rw [hr, ht, halive]
  refine Custody.ext rfl ?_ rfl
  funext b
  exact (inUse_takeBuf s.takeBuf.2 b).trans (congrArg _ (inUse_takeBuf s b))

/-- The second buffer is not the first one. -/
theorem steps_openTcp {K : Prop} (hdead : (s.tcpFlows i).alive = false) :
    Custody.Steps K s.custody
      ((s.custody.take (.rx i) s.takeBuf.1).take (.tx i) s.takeBuf.2.takeBuf.1) := by
  have hrx : Custody.Step K s.custody (s.custody.take (.rx i) s.takeBuf.1) :=
    .take s.custody (.rx i) s.takeBuf.1 (fun b hb => inUse_of_takeBuf hb) hdead
  refine .head hrx (.single (.take _ (BufField.tx i) _ ?_ ?_))
  · intro b hb
    have hfresh := inUse_of_takeBuf hb
    rwa [inUse_takeBuf] at hfresh
  · have hother : (s.custody.take (.rx i) s.takeBuf.1).live (.tx i) = s.custody.live (.tx i) :=
      Custody.live_take_of_ne s.custody s.takeBuf.1 nofun
    exact hother.trans hdead

/-- A reset gives both buffers back. -/
theorem custody_resetFlow (i : Fin 16) :
    (s.resetFlow i).custody = (s.custody.drop (.rx i)).drop (.tx i) := by
  refine Eq.trans (custody_of_tcpFlows rfl rfl) (Custody.ext rfl ?_ rfl)
  funext b
  have hother : (s.custody.drop (.rx i)).ref (.tx i) = s.custody.ref (.tx i) :=
    Custody.ref_drop_of_ne s.custody nofun
  simp only [Custody.drop] at hother
  simp only [resetFlow, inUse_sockbufFree, Custody.drop, hother]
  rfl

/-- A timer gives nothing back. -/
theorem custody_timeout {f : TcpFlow} {n : ℕ} (hf : f.state = .closed)
    (he : f.endpoint = (s.tcpFlows i).endpoint) :
    ({ s.setFlow i f with halfOpen := n } : Stack).custody = { s.custody with
      live := update (update s.alive (.rx i) false) (.tx i) false } := by
  have hdead : f.alive = false := by
    rw [TcpFlow.alive, hf]
    rfl
  refine Eq.trans (custody_of_tcpFlows rfl rfl) ?_
  rw [TcpFlow.rxBuf_of_endpoint he, TcpFlow.txBuf_of_endpoint he, hdead]
  refine Custody.ext ?_ rfl rfl
  funext r
  cases r <;> simp [custody, ref, update_apply] <;> rintro rfl <;> rfl

theorem dead_of_timeout {r : BufField}
    (hr : update (update s.alive (.rx i) false) (.tx i) false r = false) :
    s.alive r = false ∨ r = .rx i ∨ r = .tx i := by
  by_cases htx : r = .tx i
  · exact .inr (.inr htx)
  · by_cases hrx : r = .rx i
    · exact .inr (.inl hrx)
    · rw [update_of_ne htx, update_of_ne hrx] at hr
      exact .inl hr

/-- **Every change is a sequence of steps of custody**, and nothing dies with a buffer
unless a timer ends it. -/
theorem Change.custody (h : Change P s t) :
    Custody.Steps (∀ e, P e → e.Bufferless) s.custody t.custody := by
  cases h with
  | buf b buf => rw [custody_setBuf]
  | listener | number => exact .refl
  | udp i f ha hr => rw [custody_setUdpFlow ha hr]
  | openUdp i f hi ha hr =>
    rw [custody_openUdp ha hr]
    exact .single (.take _ _ _ (fun b hb => inUse_of_takeBuf hb) hi)
  | idleUdp now hp =>
    rw [custody_expireUdpFlows]
    refine .single (.relive _ _ fun hK r hr => ?_)
    rcases dead_of_expireUdpFlows hr with hdead | ⟨k, rfl, hexp⟩
    · exact .inl hdead
    · exact .inr (hK _ (hp k hexp))
  | flow i f h =>
    have hsame : (s.setFlow i f).custody = s.custody :=
      custody_of_keeps rfl rfl rfl h.endpoint h.alive
    rw [hsame]
  | retransmit now => rw [custody_retransmitTcpFlows]
  | openTcp i f hi hf hr ht =>
    have hdead : (s.tcpFlows i).alive = false := by
      rw [TcpFlow.alive, hi]
      rfl
    rw [custody_openTcp hf hr ht]
    exact steps_openTcp hdead
  | establish i f listeners hi hf he hl hp =>
    have halive : f.alive = (s.tcpFlows i).alive := by
      rw [TcpFlow.alive, TcpFlow.alive, hi, hf]
      rfl
    have hsame : ({ s.setFlow i f with
        halfOpen := s.halfOpen - 1, listeners := listeners } : Stack).custody = s.custody :=
      custody_of_keeps rfl rfl rfl he halive
    rw [hsame]
  | reset i hi hp =>
    rw [custody_resetFlow]
    exact .head (.drop _ _) (.single (.drop _ _))
  | timeout i f hi hi' hf he hp =>
    rw [custody_timeout hf he]
    refine .single (.relive _ _ fun hK r hr => ?_)
    obtain ⟨hrx, htx⟩ := hK _ hp
    rcases dead_of_timeout hr with hdead | rfl | rfl
    · exact .inl hdead
    · exact .inr hrx
    · exact .inr htx

end Stack

open Stack

/-! ### Runs -/

/-- A call and the buffers: nothing that it ends holds one. -/
def Call.Bufferless (s : Stack) (c : Call) : Prop := ∀ e, c.Ends s e → e.Bufferless

theorem custody_exec (s : Stack) (c : Call) :
    Custody.Steps (c.Bufferless s) s.custody (c.exec s).custody :=
  (steps_exec s c).induct (I := fun t => Custody.Steps (c.Bufferless s) s.custody t.custody) .refl
    (fun _ => .rfl) fun _ _ hs hchange => hs.trans hchange.custody

/-- **No two fields ever refer to one buffer.** -/
theorem sound_runCalls (cs : List Call) : (runCalls boot cs).custody.Sound := by
  refine List.foldlRecOn (motive := fun s : Stack => s.custody.Sound) _ _ conserved_boot.toSound ?_
  intro s hs c _
  exact (custody_exec s c).sound hs

/-- A buffer that a field refers to which is not alive is lost. -/
theorem not_poolConserved {s : Stack} {r : BufField} {b : Fin 32} (hr : s.ref r = some b)
    (hdead : s.alive r = false) (huse : (s.pool b).inUse = true) : ¬s.PoolConserved := by
  rintro ⟨hheld, hdistinct⟩
  obtain ⟨r', ⟨hlive, hr'⟩, -⟩ := hheld b huse
  rw [hdistinct r' r b hr' hr, hdead] at hlive
  nomatch hlive

/-- A field that dies as it is in a conserved pool referred to nothing. -/
theorem ref_eq_none_of_dies {s t : Stack} (hs : s.custody.Sound) (ht : t.PoolConserved)
    (hpool : t.pool = s.pool) {r : BufField} (href : t.ref r = s.ref r)
    (hdead : t.alive r = false) : s.ref r = none := by
  by_contra hsome
  obtain ⟨b, hb⟩ := Option.ne_none_iff_exists'.mp hsome
  refine not_poolConserved (href.trans hb) hdead ?_ ht
  rw [hpool]
  exact hs.used r b hb

/-- A TCP flow that times out keeps its buffers and dies. -/
theorem bufferless_of_timesOut {s : Stack} (hs : s.custody.Sound) {now : UInt64}
    (hcons : (s.expireTcpFlows now).2.PoolConserved) {i : Fin 16}
    (hout : (s.tcpFlows i).timesOut now = true) : (Ending.timeout (s.tcpFlows i)).Bufferless := by
  obtain ⟨hclosed, hend⟩ := TcpFlow.expire_of_timesOut _ now hout
  have hflow := tcpFlows_expireTcpFlows s now i
  have hdead : ((s.expireTcpFlows now).2.tcpFlows i).alive = false := by
    rw [hflow, TcpFlow.alive, hclosed]
    rfl
  have hrx : (s.expireTcpFlows now).2.ref (.rx i) = s.ref (.rx i) := by
    rw [ref, ref, hflow, TcpFlow.rxBuf_of_endpoint hend]
  have htx : (s.expireTcpFlows now).2.ref (.tx i) = s.ref (.tx i) := by
    rw [ref, ref, hflow, TcpFlow.txBuf_of_endpoint hend]
  have hpool := pool_expireTcpFlows s now
  exact ⟨ref_eq_none_of_dies hs hcons hpool hrx hdead,
    ref_eq_none_of_dies hs hcons hpool htx hdead⟩

/-- A UDP flow that was idle for too long keeps its buffer and dies. -/
theorem bufferless_of_udpExpired {s : Stack} (hs : s.custody.Sound) {now : UInt64}
    (hcons : (s.expireUdpFlows now).2.PoolConserved) {i : Fin 16}
    (hexp : s.udpExpired now i = true) : (Ending.idle (s.udpFlows i)).Bufferless := by
  have hflow : (s.expireUdpFlows now).2.udpFlows i = { s.udpFlows i with active := false } := by
    simp only [expireUdpFlows, hexp, if_true]
  refine ref_eq_none_of_dies (r := .udp i) hs hcons rfl ?_ ?_
  · rw [ref, ref, hflow]
  · rw [alive, hflow]

/-- **One call**: it conserves the pool exactly when nothing it ends holds a buffer. -/
theorem poolConserved_exec_iff {s : Stack} (hs : s.custody.Conserved) (c : Call) :
    (c.exec s).PoolConserved ↔ c.Bufferless s := by
  constructor
  · intro hcons e he
    cases e with
    | handshake | reset => trivial
    | timeout f =>
      cases c with
      | expireTcpFlows now =>
        obtain ⟨i, rfl, hout⟩ := he
        exact bufferless_of_timesOut hs.toSound hcons hout
      | _ => nomatch he
    | idle f =>
      cases c with
      | expireUdpFlows now =>
        obtain ⟨i, rfl, hexp⟩ := he
        exact bufferless_of_udpExpired hs.toSound hcons hexp
      | _ => nomatch he
  · intro hc
    exact poolConserved_of_custody ((custody_exec s c).conserved hc hs)

/-- **Conservation of the pool.** In a run from boot the pool is conserved in every state
that is reached exactly when no timer ever ends a flow that holds a buffer: no active UDP
flow with a buffer is idle for too long at an expiry tick, and no TCP flow with a buffer
times out at one. -/
theorem pool_conserved_iff (cs : List Call) :
    Along Call.exec (fun s c => (c.exec s).PoolConserved) boot cs ↔
      Along Call.exec Call.Bufferless boot cs :=
  Along.congr (I := fun s => s.custody.Conserved) conserved_boot
    (fun s c hs hc => (custody_exec s c).conserved hc hs)
    (fun _ c hs => poolConserved_exec_iff hs c) cs

/-- A datagram of one byte from port 7 to port 9. -/
def datagram : List UInt8 :=
  [0, 0, 0, 0, 0, 0, 0, 0, 0, 0, 0, 0, 8, 0,
    0x45, 0, 0, 29, 0, 0, 0, 0, 64, 17, 0, 0, 10, 0, 2, 15, 10, 0, 2, 2,
    0, 7, 0, 9, 0, 9, 0, 0, 42]

/-- Thirty-two times a datagram arrives and its flow is idle for too long. -/
def idleCalls : List Call :=
  .bindQueue 0 1 1 :: (List.range 32).flatMap fun k =>
    [.udpFrame (UInt64.ofNat (10000000 * k + 1)) datagram,
      .expireUdpFlows (UInt64.ofNat (10000000 * k + 5000001))]

/-- **The first datagram that goes idle loses a buffer**, and after thirty-two of them no
flow is active and every buffer of the pool is in use. -/
theorem pool_lost_by_idle_flows :
    ¬(runCalls boot (idleCalls.take 3)).PoolConserved ∧
      (∀ i, ((runCalls boot idleCalls).udpFlows i).active = false) ∧
      ∀ b, ((runCalls boot idleCalls).pool b).inUse = true := by
  refine ⟨?_, by decide +kernel⟩
  exact not_poolConserved (r := .udp 0) (b := 0) (by decide +kernel) (by decide +kernel)
    (by decide +kernel)

end Xaios.Net
