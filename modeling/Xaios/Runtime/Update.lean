import Xaios.Crypto.Sha256
import Xaios.MutableFs.HandleMap
import Xaios.Runtime.Security

/-!
# Update transactions

The transactions of `kernel/runtime/update.c`. A transaction is begun with a signature, the
update is delivered in chunks to a staging file and its hash is verified, and then it is
committed; every change of state is recorded in a file.

What ties a committed update to its signature is the generation and the hash in it. The code
parses both and compares neither with what it is told later: `update_begin` takes any
generation, `update_verify_hash` any hash, and `update_stage` leads to a commit without a
verification (`Update.unsigned_commit`). An update that is committed is the signed one in
every run whose callers pass what the signature says and do not use `update_stage`
(`Update.commits_signed`).
-/

namespace Xaios.Update

open Foundation MutableFs Security Sha256

/-- `xaios_update_state_t`. -/
inductive State where
  | idle
  | pending
  | staged
  | committed
  | failed
  | recovered
  | rolledBack
deriving DecidableEq

/-- `state_name`. -/
def State.name : State → CString
  | idle => .ofAscii "idle"
  | pending => .ofAscii "pending"
  | staged => .ofAscii "staged"
  | committed => .ofAscii "committed"
  | failed => .ofAscii "failed"
  | recovered => .ofAscii "recovered"
  | rolledBack => .ofAscii "rolled-back"

/-- `xaios_update_transaction_t`. -/
structure Transaction where
  active : Bool
  generation : UInt32
  state : State
  target : CString
  rollbackLabel : CString

/-- `reset_transaction`. -/
def Transaction.zero : Transaction := ⟨false, 0, .idle, .empty, .empty⟩

/-- `xaios_update_delivery_status_t`. -/
structure Delivery where
  bytesReceived : UInt64
  bytesExpected : UInt64
  chunksWritten : UInt32
  hashVerified : Bool
  lastError : Status

/-- The globals of `update.c`, with the file system they are recorded in and
`g_last_update_generation` of `security.c`. -/
structure Updater (D : Type) where
  fs : Fs D
  update : Transaction
  delivery : Delivery
  chunkHash : Ctx
  chunkStagingActive : Bool
  lastUpdateGeneration : UInt64

/-- The globals before anything has run. -/
def Updater.boot {D : Type} (fs : Fs D) : Updater D :=
  ⟨fs, .zero, ⟨0, 0, 0, false, .ok⟩, xaiosSha256Init, false, 0⟩

/-! ### Checks -/

/-- `token_valid`. -/
def tokenValid (value : CString) (maxLen : ℕ) : Bool :=
  decide (value.length ≠ 0) && decide (value.length < maxLen) &&
    value.bytes.all fun c => 33 ≤ c && c ≤ 126 && !(ascii ":*?\"<>|").contains c

/-- `target_valid`. -/
def targetValid (target : CString) : Bool :=
  tokenValid target 32 && decide (2 ≤ target.length) && target.byteAt 0 == 47 &&
    target.byteAt (target.length - 1) != 47 &&
    (List.range target.length).all fun i =>
      !(target.byteAt i == 47 && target.byteAt (i + 1) == 47) &&
      !(target.byteAt i == 46 && target.byteAt (i + 1) == 46 &&
        (i == 0 || target.byteAt (i - 1) == 47) &&
        (target.byteAt (i + 2) == 47 || target.byteAt (i + 2) == 0))

/-! ### The record -/

/-- The file of the record. -/
def statePath : CString := .ofChars
  ['/', 's', 't', 'a', 't', 'e', '/', 'u', 'p', 'd', 'a', 't', 'e', 's', '/', 'u', 'p', 'd', 'a',
    't', 'e', '.', 's', 't', 'a', 't', 'e']

/-- `append_u32`. -/
def decimal (n : UInt32) : List UInt8 := (Nat.toDigits 10 n.toNat).map fun c => UInt8.ofNat c.toNat

/-- The text of `mutable_fs_record_update_transaction`. -/
def recordText (t : Transaction) : List UInt8 :=
  ascii "policy=signed-update-required\ntransaction_generation=" ++ decimal t.generation ++
    ascii "\nstate=" ++ t.state.name.bytes ++ ascii "\ntarget=" ++ t.target.bytes ++
    ascii "\nrollback=" ++ t.rollbackLabel.bytes ++ ascii "\n"

section Calls

variable {D : Type} [BlockDevice 512 D]

/-- `mutable_fs_record_update_transaction`. The terminator is part of the file. -/
def recordUpdateTransaction (fs : Fs D) (t : Transaction) : Status × Fs D :=
  if 256 ≤ (recordText t).length then (.invalid, fs)
  else writeFile fs statePath (recordText t ++ [0])

/-- `persist_update_state`. -/
def persistUpdateState (u : Updater D) : Status × Updater D :=
  let w := recordUpdateTransaction u.fs u.update
  (if w.1 = .ok then .ok else .io, { u with fs := w.2 })

/-- The record is written and a snapshot taken, as `update_stage`, `update_commit` and
`update_verify_hash` do. -/
def persistAndCommit (u : Updater D) : Status × Updater D :=
  let p := persistUpdateState u
  if p.1 ≠ .ok then (.io, p.2)
  else
    let c := commitSnapshot p.2.fs
    (if c.1 = .ok then .ok else .io, { p.2 with fs := c.2 })

/-- The transaction goes to a state. -/
def Updater.inState (u : Updater D) (state : State) : Updater D :=
  { u with update := { u.update with state := state } }

/-! ### Transactions -/

/-- The directory of the staging file. -/
def updateDir : CString := .ofChars ['/', 'u', 'p', 'd', 'a', 't', 'e']

/-- `update_runtime_init`. -/
def updateRuntimeInit (u : Updater D) : Updater D :=
  { u with
    fs := (createDir u.fs updateDir).2
    update := .zero
    delivery := ⟨0, 0, 0, false, .ok⟩
    chunkStagingActive := false }

/-- `update_begin`; `snapshot` is whether `persistence_snapshot_create` answers OK. -/
def updateBegin (u : Updater D) (generation : UInt32) (target signature : CString)
    (snapshot : Bool) : Status × Updater D :=
  if u.update.active || generation == 0 || !targetValid target then (.invalid, u)
  else
    match validateUpdateSignature u.lastUpdateGeneration signature with
    | none => (.invalid, u)
    | some s =>
      let begun : Updater D :=
        { u with
          lastUpdateGeneration := s.generation
          update := ⟨true, generation, .pending, target, .ofAscii "update-rp"⟩ }
      if !snapshot then (.io, { begun with update := .zero })
      else
        let p := persistUpdateState begun
        if p.1 ≠ .ok then (.io, { p.2 with update := .zero }) else (.ok, p.2)

/-- `update_stage`. -/
def updateStage (u : Updater D) : Status × Updater D :=
  if !u.update.active || u.update.state != .pending then (.invalid, u)
  else persistAndCommit (u.inState .staged)

/-- `update_commit`. -/
def updateCommit (u : Updater D) : Status × Updater D :=
  if !u.update.active || u.update.state != .staged then (.invalid, u)
  else persistAndCommit (u.inState .committed)

/-- `update_fail`. -/
def updateFail (u : Updater D) : Status × Updater D :=
  if !u.update.active || u.update.state != .staged then (.invalid, u)
  else persistUpdateState (u.inState .failed)

/-- The end of `update_recover_boot` and `update_rollback`; `restored` is whether
`persistence_rollback` answers OK. -/
def restore (u : Updater D) (state : State) (restored : Bool) : Status × Updater D :=
  if !restored then (.io, u)
  else
    let r := rollbackSnapshot u.fs
    if r.1 ≠ .ok then (.io, { u with fs := r.2 })
    else
      let p := persistUpdateState (Updater.inState { u with fs := r.2 } state)
      if p.1 ≠ .ok then (.io, p.2)
      else (.ok, { p.2 with update := { p.2.update with active := false } })

/-- `update_recover_boot`. -/
def updateRecoverBoot (u : Updater D) (restored : Bool) : Status × Updater D :=
  if !u.update.active || u.update.state != .failed then (.invalid, u)
  else restore u .recovered restored

/-- `update_rollback`. -/
def updateRollback (u : Updater D) (restored : Bool) : Status × Updater D :=
  if !u.update.active || u.update.state != .committed ||
      authorizeRollback u.update.target 1 != .ok then (.invalid, u)
  else restore u .rolledBack restored

/-! ### Delivery -/

/-- `XAIOS_UPDATE_STAGING_PATH`. -/
def stagingPath : CString := .ofChars
  ['/', 'u', 'p', 'd', 'a', 't', 'e', '/', 's', 't', 'a', 'g', 'i', 'n', 'g', '.', 'b', 'i', 'n']

/-- A delivery call that is refused keeps the reason. -/
def Updater.reject (u : Updater D) (reason : Status) : Status × Updater D :=
  (reason, { u with delivery := { u.delivery with lastError := reason } })

/-- The staging file is opened, written and closed; whether all was written. -/
def writeStaging (fs : Fs D) (data : List UInt8) : Bool × Fs D :=
  let o := openFile fs stagingPath (openWrite ||| openCreate)
  if o.1 < 0 then (false, o.2)
  else
    let w := writeFd o.2 o.1.toNat data
    (decide (w.1 = data.length), (closeFile w.2 o.1.toNat).2)

/-- The first chunk starts a new hash. -/
def Updater.startStaging (u : Updater D) : Updater D :=
  if u.chunkStagingActive then u
  else { u with chunkHash := xaiosSha256Init, chunkStagingActive := true }

/-- `update_stage_chunk`. -/
def updateStageChunk (u : Updater D) (data : List UInt8) : Status × Updater D :=
  let size := UInt64.ofNat data.length
  if !u.update.active || u.update.state != .pending then u.reject .invalid
  else if data.length = 0 ∨ 4096 < data.length then u.reject .invalid
  else if 0 < u.delivery.bytesExpected ∧
      u.delivery.bytesExpected < u.delivery.bytesReceived + size then u.reject .invalid
  else
    let started := u.startStaging
    let w := writeStaging started.fs data
    if !w.1 then Updater.reject { started with fs := w.2 } .io
    else
      (.ok,
        { started with
          fs := w.2
          chunkHash := xaiosSha256Update started.chunkHash data
          delivery :=
            { started.delivery with
              bytesReceived := started.delivery.bytesReceived + size
              chunksWritten := started.delivery.chunksWritten + 1 } })

/-- The hash is finished. -/
def Updater.stopStaging (u : Updater D) : Updater D := { u with chunkStagingActive := false }

/-- `update_verify_hash`, with the 32 bytes that are expected. -/
def updateVerifyHash (u : Updater D) (expected : List UInt8) : Status × Updater D :=
  if !u.update.active || !u.chunkStagingActive then u.reject .invalid
  else
    if xaiosSha256Final u.chunkHash ≠ expected then
      let p := persistUpdateState (u.stopStaging.inState .failed)
      (.invalid,
        { p.2 with delivery := { p.2.delivery with hashVerified := false, lastError := .invalid } })
    else
      let p := persistAndCommit (u.stopStaging.inState .staged)
      if p.1 ≠ .ok then
        (.io,
          { p.2 with delivery := { p.2.delivery with hashVerified := true, lastError := .io } })
      else (.ok, { p.2 with delivery := { p.2.delivery with hashVerified := true } })

/-- `update_parse_manifest`, once it has read a manifest with that payload size. -/
def updateParseManifest (u : Updater D) (payloadSize : UInt64) : Updater D :=
  { u with delivery := { u.delivery with bytesExpected := payloadSize } }

/-! ### Runs -/

/-- The calls, with what the snapshots of `persistence.c` answer. -/
inductive Call where
  | runtimeInit
  | start (generation : UInt32) (target signature : CString) (snapshot : Bool)
  | stage
  | commit
  | fail
  | recoverBoot (restored : Bool)
  | rollback (restored : Bool)
  | stageChunk (data : List UInt8)
  | verifyHash (expected : List UInt8)
  | parseManifest (payloadSize : UInt64)

/-- One call. -/
def Call.exec (u : Updater D) : Call → Status × Updater D
  | runtimeInit => (.ok, updateRuntimeInit u)
  | start generation target signature snapshot => updateBegin u generation target signature snapshot
  | stage => updateStage u
  | commit => updateCommit u
  | fail => updateFail u
  | recoverBoot restored => updateRecoverBoot u restored
  | rollback restored => updateRollback u restored
  | stageChunk data => updateStageChunk u data
  | verifyHash expected => updateVerifyHash u expected
  | parseManifest payloadSize => (.ok, updateParseManifest u payloadSize)

/-- What has been accepted in a transaction: its signature, its chunks and its hash. -/
structure Session where
  signature : Option UpdateSignature
  chunks : List (List UInt8)
  accepted : Option (List UInt8)

/-- The transaction in which nothing has been accepted. -/
def Session.empty : Session := ⟨none, [], none⟩

/-- The session after a call and its answer. -/
def Session.after (e : Session) (u : Updater D) (answer : Status) : Call → Session
  | .runtimeInit => .empty
  | .start _ _ signature _ =>
    if answer = .ok then ⟨validateUpdateSignature u.lastUpdateGeneration signature, [], none⟩ else e
  | .stageChunk data => if answer = .ok then { e with chunks := e.chunks ++ [data] } else e
  | .verifyHash expected => if answer = .ok then { e with accepted := some expected } else e
  | _ => e

/-- The updater and what it has accepted. -/
structure System (D : Type) where
  updater : Updater D
  session : Session

/-- A call. -/
def System.step (s : System D) (c : Call) : System D :=
  ⟨(c.exec s.updater).2, s.session.after s.updater (c.exec s.updater).1 c⟩

/-- The system before anything has run. -/
def System.boot (fs : Fs D) : System D := ⟨.boot fs, .empty⟩

/-! ### What the calls do to the transaction -/

variable (u : Updater D)

theorem update_persistUpdateState :
    (persistUpdateState u).2.update = u.update := by
  rw [persistUpdateState]

theorem persistUpdateState_ok_iff {u : Updater D} :
    (persistUpdateState u).1 = .ok ↔ (recordUpdateTransaction u.fs u.update).1 = .ok := by
  dsimp only [persistUpdateState]
  split <;> simp [*]

theorem staging_persistUpdateState :
    (persistUpdateState u).2.chunkStagingActive = u.chunkStagingActive ∧
      (persistUpdateState u).2.chunkHash = u.chunkHash := by
  rw [persistUpdateState]
  exact ⟨rfl, rfl⟩

theorem update_persistAndCommit : (persistAndCommit u).2.update = u.update := by
  have hpersist := update_persistUpdateState u
  dsimp only [persistAndCommit]
  generalize persistUpdateState u = p at hpersist ⊢
  split <;> dsimp only <;> exact hpersist

theorem staging_persistAndCommit :
    (persistAndCommit u).2.chunkStagingActive = u.chunkStagingActive ∧
      (persistAndCommit u).2.chunkHash = u.chunkHash := by
  have hpersist := staging_persistUpdateState u
  dsimp only [persistAndCommit]
  generalize persistUpdateState u = p at hpersist ⊢
  split <;> dsimp only <;> exact hpersist

theorem persistAndCommit_answer :
    (persistAndCommit u).1 = .ok ∨ (persistAndCommit u).1 = .io := by
  dsimp only [persistAndCommit]
  split
  · exact .inr rfl
  · split
    · exact .inl rfl
    · exact .inr rfl

/-- A transaction goes on without getting ready to be committed. -/
def Transaction.Calm (t t' : Transaction) : Prop :=
  t'.active = true → t.active = true ∧ t'.generation = t.generation ∧
    (t'.state = .staged → t.state = .staged)

theorem Transaction.Calm.refl (t : Transaction) : t.Calm t := fun h => ⟨h, rfl, id⟩

theorem Transaction.calm_state (t : Transaction) {state : State} (h : state ≠ .staged) :
    t.Calm { t with state := state } :=
  fun hactive => ⟨hactive, rfl, fun hs => absurd hs h⟩

theorem calm_updateCommit : u.update.Calm (updateCommit u).2.update := by
  unfold updateCommit
  split
  · exact Transaction.Calm.refl _
  · rw [update_persistAndCommit]
    exact u.update.calm_state (by decide)

theorem of_updateCommit_ok {u : Updater D} (h : (updateCommit u).1 = .ok) :
    u.update.active = true ∧ u.update.state = .staged := by
  unfold updateCommit at h
  split at h
  · cases h
  · rename_i hguard
    simpa using hguard

theorem calm_updateStage (h : u.update.active = true → u.update.state ≠ .pending) :
    u.update.Calm (updateStage u).2.update := by
  unfold updateStage
  split
  · exact Transaction.Calm.refl _
  · rename_i hguard
    simp only [Bool.or_eq_true, bne_iff_ne, Bool.not_eq_eq_eq_not, Bool.not_true, not_or,
      Bool.not_eq_false] at hguard
    exact absurd (not_not.mp hguard.2) (h hguard.1)

theorem calm_updateFail : u.update.Calm (updateFail u).2.update := by
  unfold updateFail
  split
  · exact Transaction.Calm.refl _
  · rw [update_persistUpdateState]
    exact u.update.calm_state (by decide)

theorem calm_restore {state : State} (restored : Bool) (h : state ≠ .staged) :
    u.update.Calm (restore u state restored).2.update := by
  dsimp only [restore]
  split
  · exact Transaction.Calm.refl _
  split
  · exact Transaction.Calm.refl _
  split
  · rw [update_persistUpdateState]
    exact u.update.calm_state h
  · exact fun hactive => absurd hactive Bool.false_ne_true

theorem calm_updateRecoverBoot (restored : Bool) :
    u.update.Calm (updateRecoverBoot u restored).2.update := by
  unfold updateRecoverBoot
  split
  · exact Transaction.Calm.refl _
  · exact calm_restore u restored (by decide)

theorem calm_updateRollback (restored : Bool) :
    u.update.Calm (updateRollback u restored).2.update := by
  unfold updateRollback
  split
  · exact Transaction.Calm.refl _
  · exact calm_restore u restored (by decide)

theorem update_updateStageChunk (data : List UInt8) :
    (updateStageChunk u data).2.update = u.update := by
  have hstart : u.startStaging.update = u.update := by
    unfold Updater.startStaging
    split <;> rfl
  dsimp only [updateStageChunk]
  split
  · rfl
  split
  · rfl
  split
  · rfl
  split
  · exact hstart
  · exact hstart

/-- The verification has come to an end, with the transaction in a state that was `saved`. -/
structure Verified (u : Updater D) (r : Status × Updater D) (state : State)
    (saved : Status × Updater D) : Prop where
  active : u.update.active = true
  staging : u.chunkStagingActive = true
  update : r.2.update = { u.update with state := state }
  stopped : r.2.chunkStagingActive = false
  fs : r.2.fs = saved.2.fs

/-- **What `update_verify_hash` does**: it is refused, the hash is not the one expected, or it
is and the transaction is staged. -/
theorem updateVerifyHash_cases (expected : List UInt8) :
    updateVerifyHash u expected = u.reject .invalid ∧
        ¬(u.update.active = true ∧ u.chunkStagingActive = true) ∨
      xaiosSha256Final u.chunkHash ≠ expected ∧ (updateVerifyHash u expected).1 = .invalid ∧
        Verified u (updateVerifyHash u expected) .failed
          (persistUpdateState (u.stopStaging.inState .failed)) ∨
      xaiosSha256Final u.chunkHash = expected ∧
        (updateVerifyHash u expected).1 = (persistAndCommit (u.stopStaging.inState .staged)).1 ∧
        Verified u (updateVerifyHash u expected) .staged
          (persistAndCommit (u.stopStaging.inState .staged)) := by
  unfold updateVerifyHash
  split
  · rename_i hguard
    refine .inl ⟨rfl, fun h => ?_⟩
    simp [h.1, h.2] at hguard
  rename_i hguard
  simp only [Bool.or_eq_true, Bool.not_eq_eq_eq_not, Bool.not_true, not_or, Bool.not_eq_false]
    at hguard
  obtain ⟨hactive, hstaging⟩ := hguard
  split
  · rename_i hne
    have hupdate := update_persistUpdateState (u.stopStaging.inState .failed)
    have hstop := (staging_persistUpdateState (u.stopStaging.inState .failed)).1
    generalize persistUpdateState (u.stopStaging.inState .failed) = p at hupdate hstop ⊢
    exact .inr (.inl ⟨hne, rfl, hactive, hstaging, hupdate, hstop, rfl⟩)
  · rename_i heq
    have hupdate := update_persistAndCommit (u.stopStaging.inState .staged)
    have hstop := (staging_persistAndCommit (u.stopStaging.inState .staged)).1
    have hanswer := persistAndCommit_answer (u.stopStaging.inState .staged)
    generalize persistAndCommit (u.stopStaging.inState .staged) = p at hupdate hstop hanswer ⊢
    refine .inr (.inr ⟨not_not.mp heq, ?_⟩)
    rcases hanswer with hok | hio
    · rw [if_neg (not_not.mpr hok)]
      exact ⟨hok.symm, hactive, hstaging, hupdate, hstop, rfl⟩
    · rw [if_pos (by rw [hio]; decide)]
      exact ⟨hio.symm, hactive, hstaging, hupdate, hstop, rfl⟩

/-! ### Committed updates -/

/-- The transaction is the one of the signature, and verified once it can be committed. -/
def System.Traced (s : System D) : Prop :=
  s.updater.update.active = true → ∃ sg, s.session.signature = some sg ∧
    s.updater.update.generation.toUInt64 = sg.generation ∧
    (s.updater.update.state = .staged → s.session.accepted = some sg.hash)

/-- Nothing but the signature can stop a transaction: none is open, the arguments are valid,
the snapshot is made and the record can be written. -/
def Updater.Ready (u : Updater D) (generation : UInt32) (target : CString) (snapshot : Bool) :
    Prop :=
  u.update.active = false ∧ generation ≠ 0 ∧ targetValid target = true ∧ snapshot = true ∧
    (recordUpdateTransaction u.fs
      ⟨true, generation, .pending, target, .ofAscii "update-rp"⟩).1 = .ok

/-- The callers pass what the signature says, and go through the verification: a transaction
is begun with the generation of its signature, chunks with the hash that is expected have the
hash of the signature and their transaction can be recorded as staged, and `update_stage` is
not called for a pending transaction. -/
def System.Honest (s : System D) : Call → Prop
  | .start generation target signature snapshot => s.updater.Ready generation target snapshot →
      ∀ sg, validateUpdateSignature s.updater.lastUpdateGeneration signature = some sg →
        generation.toUInt64 = sg.generation
  | .verifyHash expected => s.updater.update.active = true →
      s.updater.chunkStagingActive = true → xaiosSha256Final s.updater.chunkHash = expected →
        (persistAndCommit (s.updater.stopStaging.inState .staged)).1 = .ok ∧
          ∀ sg, s.session.signature = some sg → expected = sg.hash
  | .stage => s.updater.update.active = true → s.updater.update.state ≠ .pending
  | _ => True

/-- **A commit that succeeds commits what was signed**: the generation is the one of the
signature that was accepted for the transaction, and the hash that was accepted is the one of
the signature. -/
def System.Signed (s : System D) (c : Call) : Prop :=
  c = .commit → (c.exec s.updater).1 = .ok → ∃ sg, s.session.signature = some sg ∧
    s.updater.update.generation.toUInt64 = sg.generation ∧ s.session.accepted = some sg.hash

omit [BlockDevice 512 D] in
theorem System.Traced.of_calm {s s' : System D} (h : s.Traced)
    (hcalm : s.updater.update.Calm s'.updater.update)
    (hsignature : s'.session.signature = s.session.signature)
    (haccepted : s'.session.accepted = s.session.accepted) : s'.Traced := by
  intro hactive
  obtain ⟨hact, hgen, hstaged⟩ := hcalm hactive
  obtain ⟨sg, hsg, heq, hacc⟩ := h hact
  exact ⟨sg, hsignature.trans hsg, (congrArg _ hgen).trans heq,
    fun hst => haccepted.trans (hacc (hstaged hst))⟩

theorem System.Traced.start {s : System D} (h : s.Traced) {generation : UInt32}
    {target signature : CString} {snapshot : Bool}
    (hc : s.Honest (.start generation target signature snapshot)) :
    (s.step (.start generation target signature snapshot)).Traced := by
  dsimp only [System.step, Call.exec, Session.after]
  unfold updateBegin
  split
  · exact h
  rename_i hguard
  simp only [Bool.or_eq_true, beq_iff_eq, Bool.not_eq_eq_eq_not, Bool.not_true, not_or,
    Bool.not_eq_true, Bool.not_eq_false] at hguard
  obtain ⟨⟨hidle, hgeneration⟩, htarget⟩ := hguard
  cases hvalid : validateUpdateSignature s.updater.lastUpdateGeneration signature with
  | none => exact h
  | some sg =>
    dsimp only
    split
    · exact fun hactive => absurd hactive Bool.false_ne_true
    rename_i hsnap
    split
    · exact fun hactive => absurd hactive Bool.false_ne_true
    · rename_i hpersist
      intro hactive
      rw [if_pos rfl]
      have hrecord := persistUpdateState_ok_iff.mp (not_not.mp hpersist)
      have hready : s.updater.Ready generation target snapshot :=
        ⟨hidle, hgeneration, htarget, by simpa using hsnap, hrecord⟩
      exact ⟨sg, rfl, hc hready sg hvalid, fun hst => by cases hst⟩

theorem System.Traced.verifyHash {s : System D} (h : s.Traced) {expected : List UInt8}
    (hc : s.Honest (.verifyHash expected)) : (s.step (.verifyHash expected)).Traced := by
  dsimp only [System.step, Call.exec, Session.after]
  rcases updateVerifyHash_cases s.updater expected with
    ⟨heq, -⟩ | ⟨-, hanswer, hv⟩ | ⟨hhash, hanswer, hv⟩
  · rw [heq]
    exact h
  · rw [hanswer]
    refine h.of_calm ?_ rfl rfl
    rw [hv.update]
    exact s.updater.update.calm_state (by decide)
  · obtain ⟨hok, hsigned⟩ := hc hv.active hv.staging hhash
    intro hactive
    rw [hv.update] at hactive ⊢
    obtain ⟨sg, hsg, hgen, -⟩ := h hactive
    rw [if_pos (hanswer.trans hok)]
    exact ⟨sg, hsg, hgen, fun _ => congrArg some (hsigned sg hsg)⟩

theorem System.Traced.step {s : System D} (h : s.Traced) {c : Call} (hc : s.Honest c) :
    (s.step c).Traced := by
  cases c with
  | runtimeInit => exact fun hactive => absurd hactive Bool.false_ne_true
  | start generation target signature snapshot => exact h.start hc
  | stage =>
    exact h.of_calm (calm_updateStage s.updater hc) rfl rfl
  | commit => exact h.of_calm (calm_updateCommit s.updater) rfl rfl
  | fail => exact h.of_calm (calm_updateFail s.updater) rfl rfl
  | recoverBoot restored => exact h.of_calm (calm_updateRecoverBoot s.updater restored) rfl rfl
  | rollback restored => exact h.of_calm (calm_updateRollback s.updater restored) rfl rfl
  | stageChunk data =>
    have hcalm : s.updater.update.Calm (updateStageChunk s.updater data).2.update :=
      (update_updateStageChunk s.updater data).symm ▸ Transaction.Calm.refl _
    refine h.of_calm hcalm ?_ ?_ <;> dsimp only [System.step, Session.after] <;> split <;> rfl
  | verifyHash expected => exact h.verifyHash hc
  | parseManifest payloadSize => exact h.of_calm (Transaction.Calm.refl _) rfl rfl

/-- **A committed update is the signed one**, in every run in which the callers pass what the
signature says and go through the verification. -/
theorem commits_signed (fs : Fs D) (cs : List Call)
    (h : Along System.step System.Honest (System.boot fs) cs) :
    Along System.step System.Signed (System.boot fs) cs := by
  refine h.imp (I := System.Traced) (fun hactive => absurd hactive Bool.false_ne_true)
    fun s c hs hc => ⟨?_, hs.step hc⟩
  rintro rfl hok
  obtain ⟨hactive, hstaged⟩ := of_updateCommit_ok hok
  obtain ⟨sg, hsg, heq, hacc⟩ := hs hactive
  exact ⟨sg, hsg, heq, hacc hstaged⟩

end Calls

/-! ### A commit without a verification -/

/-- The directories of the record. -/
def stateDir : CString := .ofChars ['/', 's', 't', 'a', 't', 'e']

@[inherit_doc stateDir] def updatesDir : CString := .ofChars
  ['/', 's', 't', 'a', 't', 'e', '/', 'u', 'p', 'd', 'a', 't', 'e', 's']

/-- A disk with the directories of the record. -/
def devFs : Fs (MemDisk 512) := runOps blankFs [.mkdir stateDir, .mkdir updatesDir]

/-- The target of the updates of the self test. -/
def devTarget : CString := .ofAscii "/system/xaios"

/-- A signature of the self test, for a hash in hexadecimal. -/
def signatureOf (hash : List Char) : CString := .ofChars
  ("xaios-update:v1:gen=10:sha256=".toList ++ hash ++
    ":key=XAIOS-QEMU-DEV-PUBKEY:sig=".toList ++ hash)

@[inherit_doc signatureOf] def devSignature : CString := signatureOf
  ("ba7816bf8f01cfea414140de5dae2223".toList ++ "b00361a396177a9cb410ff61f20015ad".toList)

/-- A transaction of generation 11 that is staged by `update_stage`. -/
def unsignedRun : System (MemDisk 512) :=
  ((System.boot devFs).step (.start 11 devTarget devSignature true)).step .stage

/-- **A commit of what was not signed.** The transaction has generation 11 and the signature
that was accepted for it generation 10, no hash was accepted, and the commit succeeds. -/
theorem unsigned_commit :
    (updateCommit unsignedRun.updater).1 = .ok ∧
      unsignedRun.updater.update.generation = 11 ∧
      unsignedRun.session.signature.map UpdateSignature.generation = some 10 ∧
      unsignedRun.session.accepted = none := by
  decide +kernel

/-! ### An update of one byte -/

/-- What `xaios_sha256` answers for the byte 1. -/
def byteDigits : List Char :=
  "9a6d0f5daa8912d2295bc9c991c8e3ed".toList ++ "0f4e0d5304200a477759968152ada0f6".toList

@[inherit_doc byteDigits] def byteHash : List UInt8 :=
  hexBytes (byteDigits.map fun c => UInt8.ofNat c.toNat)

/-- The call that begins it. -/
def byteStart : Call := .start 10 devTarget (signatureOf byteDigits) true

/-- The calls of it. -/
def byteUpdate : List Call :=
  [.runtimeInit, byteStart, .stageChunk [1], .verifyHash byteHash]

/-- The update of one byte is committed and signed. -/
theorem byteUpdate_signed :
    (Call.exec (byteUpdate.foldl System.step (System.boot devFs)).updater .commit).1 = .ok ∧
      Along System.step System.Signed (System.boot devFs) (byteUpdate ++ [.commit]) := by
  have hsigned : ∀ {o : Option UpdateSignature} {sg : UpdateSignature},
      o.map (fun sg => (sg.generation, sg.hash)) = some (10, byteHash) → o = some sg →
      sg.generation = 10 ∧ sg.hash = byteHash := by
    rintro _ sg h rfl
    exact Prod.mk.inj (Option.some.inj h)
  refine ⟨by decide +kernel, commits_signed devFs _ ⟨trivial, fun _ sg hsg => ?_, trivial,
    fun _ _ _ => ⟨by decide +kernel, fun sg hsg => ?_⟩, trivial, trivial⟩⟩
  · exact (hsigned (by decide +kernel) hsg).1.symm
  · exact (hsigned (by decide +kernel) hsg).2.symm

end Xaios.Update
