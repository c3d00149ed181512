import Xaios.Runtime.Update

/-!
# The staging file

The chunks of an update are what is verified and what is left in the staging file, and an
update is committed if the hash of its chunks was accepted.

`update_stage_chunk` opens the file, writes the chunk and closes the file again, so every chunk
is laid over the beginning of the file: of two chunks the second is left
(`Update.second_chunk_over_first`), and of a file that an earlier update left behind the
end. The hash goes on from one transaction to the next as long as it is not verified, and
`update_stage` leads to a commit of chunks that were not. All of it is as it should be in
every run where an update is one chunk that covers the file and is verified before it is
committed (`Update.staging_integrity`).
-/

namespace Xaios.Update

open Foundation MutableFs BlockDevice Security Sha256 Updater

variable {D : Type} [FaultFreeDevice 512 D]

/-! ### What the calls do to the staging file -/

/-- The volume stays in order, and the staging file as it is. -/
structure Kept (fs fs' : Fs D) : Prop where
  intact : fs'.Intact
  file : fs'.fileMap stagingPath = fs.fileMap stagingPath

theorem Kept.refl {fs : Fs D} (h : fs.Intact) : Kept fs fs := ⟨h, rfl⟩

theorem statePath_ne : stagingPath ≠ statePath := by decide +kernel

theorem kept_persistUpdateState {u : Updater D} (h : u.fs.Intact) :
    Kept u.fs (persistUpdateState u).2.fs := by
  dsimp only [persistUpdateState]
  unfold recordUpdateTransaction
  split
  · exact Kept.refl h
  · obtain ⟨hint, hmap⟩ := h.writeFile statePath (recordText u.update ++ [0])
    refine ⟨hint, ?_⟩
    rw [hmap]
    split
    · exact Function.update_of_ne statePath_ne _ _
    · rfl

/-- What is left in the staging file is in the snapshot. -/
theorem kept_persistAndCommit {u : Updater D} (h : u.fs.Intact)
    (hio : (persistAndCommit u).1 ≠ .io) : Kept u.fs (persistAndCommit u).2.fs := by
  have hkept := kept_persistUpdateState h
  dsimp only [persistAndCommit] at hio ⊢
  generalize persistUpdateState u = p at hkept hio ⊢
  split
  · exact hkept
  · rename_i hok
    rw [if_neg hok] at hio
    have hcommit : (commitSnapshot p.2.fs).1 = .ok := by
      by_contra hne
      exact hio (if_neg hne)
    obtain ⟨hint, hmap⟩ := hkept.intact.commit hcommit
    exact ⟨hint, (congrFun hmap stagingPath).trans hkept.file⟩

/-- **What staging the bytes of a chunk does**: the bytes are laid over the beginning of the
staging file, or the file is as it was, empty if it was not there. -/
theorem writeStaging_cases {fs : Fs D} (h : fs.Intact) (data : List UInt8) :
    (writeStaging fs data).2.Intact ∧
      ((writeStaging fs data).1 = true ∧ (writeStaging fs data).2.fileMap stagingPath =
          some (.file (writeAt (fs.fileMap.bytes stagingPath) 0 data)) ∨
        (writeStaging fs data).1 = false ∧
          ((writeStaging fs data).2.fileMap stagingPath = fs.fileMap stagingPath ∨
            fs.fileMap stagingPath = none)) := by
  have hold : ∀ M : FileMap, M = fs.fileMap ∨
      M = emptied fs.fileMap stagingPath (openWrite ||| openCreate) →
      M stagingPath = fs.fileMap stagingPath ∨ fs.fileMap stagingPath = none := by
    rintro M (rfl | rfl)
    · exact .inl rfl
    · unfold emptied
      split
      · rename_i hp
        exact .inr (hp.resolve_left (by decide))
      · exact .inl rfl
  dsimp only [writeStaging]
  obtain ⟨hint, ⟨hneg, -, hmap⟩ | ⟨i, -, hfd, hopen, hmap⟩⟩ :=
    openFile_cases h stagingPath (openWrite ||| openCreate)
  · rw [if_pos hneg]
    exact ⟨hint, .inr ⟨rfl, hold _ hmap⟩⟩
  · generalize openFile fs stagingPath (openWrite ||| openCreate) = o at hint hfd hopen hmap ⊢
    have hhandle : o.2.openFiles i = ⟨true, openWrite ||| openCreate, 0, stagingPath⟩ := by
      rw [hopen, Function.update_self]
    have hnum : o.1.toNat = i + 1 := by rw [hfd]; rfl
    have hfor := handleForFd_of_inUse (by rw [hhandle])
    rw [hnum, if_neg (by rw [hfd]; omega)]
    obtain ⟨hint', ⟨hneg, hmap', -⟩ | ⟨j, hj, -, -, hlen, hmap', -⟩⟩ :=
      writeFd_cases hint (i + 1) data
    · obtain ⟨hint'', hmap''⟩ := closeFile_cases hint' (i + 1)
      refine ⟨hint'', .inr ⟨decide_eq_false (by omega), ?_⟩⟩
      rw [hmap'', hmap']
      exact hold _ (.inr hmap)
    · obtain ⟨hint'', hmap''⟩ := closeFile_cases hint' (i + 1)
      obtain rfl : i = j := Option.some.inj (hfor.symm.trans hj)
      refine ⟨hint'', .inl ⟨decide_eq_true hlen, ?_⟩⟩
      rw [hmap'', hmap', hhandle]
      rw [Function.update_self, hmap, bytes_emptied (by decide)]

/-- **What `update_stage_chunk` does**: it is refused, it fails, or the transaction is pending
and the chunk is written and hashed. -/
theorem updateStageChunk_cases (u : Updater D) (data : List UInt8) :
    ((updateStageChunk u data).1 = .invalid ∧
        ∃ d, (updateStageChunk u data).2 = { u with delivery := d }) ∨
      (updateStageChunk u data).1 = .io ∨
      ((updateStageChunk u data).1 = .ok ∧ u.update.state = .pending ∧
        (writeStaging u.fs data).1 = true ∧
        ∃ d, (updateStageChunk u data).2 = { u.startStaging with
          fs := (writeStaging u.fs data).2
          chunkHash := xaiosSha256Update u.startStaging.chunkHash data
          delivery := d }) := by
  have hstart : u.startStaging.fs = u.fs := by
    unfold startStaging
    split <;> rfl
  dsimp only [updateStageChunk]
  rw [hstart]
  split
  · exact .inl ⟨rfl, _, rfl⟩
  rename_i hguard
  split
  · exact .inl ⟨rfl, _, rfl⟩
  split
  · exact .inl ⟨rfl, _, rfl⟩
  split
  · exact .inr (.inl rfl)
  · rename_i hw
    simp only [Bool.or_eq_true, not_or, bne_iff_ne, not_not] at hguard
    rw [Bool.not_eq_true', Bool.not_eq_false] at hw
    exact .inr (.inr ⟨rfl, hguard.2, hw, _, rfl⟩)

/-- A rollback ends the transaction. -/
theorem restore_cases {u : Updater D} (h : u.fs.Intact) {state : State} {restored : Bool}
    (hio : (restore u state restored).1 ≠ .io) :
    (restore u state restored).2.fs.Intact ∧
      (restore u state restored).2.update.active = false := by
  dsimp only [restore] at hio ⊢
  split
  · rename_i hrest
    rw [if_pos hrest] at hio
    exact absurd rfl hio
  rename_i hrest
  rw [if_neg hrest] at hio
  split
  · rename_i hne
    rw [if_pos hne] at hio
    exact absurd rfl hio
  rename_i hok
  rw [if_neg hok] at hio
  have hkept := kept_persistUpdateState
    (u := inState { u with fs := (rollbackSnapshot u.fs).2 } state)
    (h.rollback (not_not.mp hok))
  generalize persistUpdateState (inState { u with fs := (rollbackSnapshot u.fs).2 } state)
    = p at hkept hio ⊢
  split
  · rename_i hne
    rw [if_pos hne] at hio
    exact absurd rfl hio
  · exact ⟨hkept.intact, rfl⟩

/-! ### Sessions -/

/-- The staging file holds the chunks of the session, and what is staged or committed was
accepted. -/
structure System.Delivered (s : System D) : Prop where
  file : s.updater.update.active = true → s.session.chunks ≠ [] →
    s.updater.fs.fileMap stagingPath = some (.file s.session.chunks.flatten)
  accepted : s.updater.update.active = true → s.session.chunks ≠ [] →
    s.updater.update.state = .committed →
    s.session.accepted = some (xaiosSha256 s.session.chunks.flatten)

/-- **Staging is faithful** in a call: after it the staging file is the concatenation of the
chunks of the transaction, and what is committed with chunks was verified; and a hash is
accepted exactly if it is the hash of that concatenation. -/
structure System.Faithful (s : System D) (c : Call) : Prop where
  delivered : (s.step c).Delivered
  verified : ∀ expected, c = .verifyHash expected → s.updater.update.active = true →
    s.session.chunks ≠ [] →
    ((c.exec s.updater).1 = .ok ↔ expected = xaiosSha256 s.session.chunks.flatten)

/-- An update is one chunk: it is the first of the transaction, no hash is left open from
another, and it covers the staging file. It is verified once, and `update_stage` is not used
for it. No call stops at an error of the file system. -/
def System.OneChunk (s : System D) (c : Call) : Prop :=
  (c.exec s.updater).1 ≠ .io ∧
    match c with
    | .stageChunk data => (c.exec s.updater).1 = .ok →
        s.session.chunks = [] ∧ s.updater.chunkStagingActive = false ∧
          (s.updater.fs.fileMap.bytes stagingPath).length ≤ data.length
    | .stage => (c.exec s.updater).1 = .ok → s.session.chunks = []
    | .verifyHash _ => s.updater.update.active = true → s.session.chunks ≠ [] →
        s.updater.chunkStagingActive = true
    | _ => True

/-- What holds between the calls of such a run. -/
structure System.Sound (s : System D) : Prop where
  intact : s.updater.fs.Intact
  delivered : s.Delivered
  staged : s.updater.update.active = true → s.session.chunks ≠ [] →
    s.updater.update.state = .staged →
    s.session.accepted = some (xaiosSha256 s.session.chunks.flatten)
  hash : s.updater.update.active = true → s.session.chunks ≠ [] →
    s.updater.chunkStagingActive = true → s.updater.chunkHash.Holds s.session.chunks.flatten

/-- Nothing is required of a transaction without chunks. -/
theorem System.Sound.of_intact {s : System D} (h : s.updater.fs.Intact)
    (hnone : s.updater.update.active = true → s.session.chunks = []) : s.Sound where
  intact := h
  delivered := ⟨fun ha hne => absurd (hnone ha) hne, fun ha hne => absurd (hnone ha) hne⟩
  staged := fun ha hne => absurd (hnone ha) hne
  hash := fun ha hne => absurd (hnone ha) hne

theorem xaiosSha256Final_of_holds {ctx : Ctx} {m : List UInt8} (h : ctx.Holds m) :
    xaiosSha256Final ctx = xaiosSha256 m :=
  (final_eq h).trans (final_eq (holds_init.update m)).symm

/-- A call that keeps the staging file, the hash and the transaction, except that it goes
from staged to another state or is refused, keeps what holds. -/
theorem System.Sound.of_kept {s s' : System D} (h : s.Sound) (hsession : s'.session = s.session)
    (hkept : Kept s.updater.fs s'.updater.fs)
    (hactive : s'.updater.update.active = true → s.updater.update.active = true)
    (hstate : s'.updater.update.state = s.updater.update.state ∨
      s'.updater.update.state ≠ .staged ∧
        (s'.updater.update.state = .committed → s.updater.update.state = .staged))
    (hhash : s'.updater.chunkStagingActive = true → s.updater.chunkStagingActive = true ∧
      s'.updater.chunkHash = s.updater.chunkHash) : s'.Sound where
  intact := hkept.intact
  delivered := by
    refine ⟨fun ha hne => ?_, fun ha hne hc => ?_⟩
    · rw [hsession] at hne ⊢
      exact hkept.file.trans (h.delivered.file (hactive ha) hne)
    · rw [hsession] at hne ⊢
      rcases hstate with heq | ⟨-, hstaged⟩
      · exact h.delivered.accepted (hactive ha) hne (heq ▸ hc)
      · exact h.staged (hactive ha) hne (hstaged hc)
  staged := by
    intro ha hne hst
    rw [hsession] at hne ⊢
    rcases hstate with heq | ⟨hns, -⟩
    · exact h.staged (hactive ha) hne (heq ▸ hst)
    · exact absurd hst hns
  hash := by
    intro ha hne hact
    obtain ⟨hact', hctx⟩ := hhash hact
    rw [hsession] at hne ⊢
    rw [hctx]
    exact h.hash (hactive ha) hne hact'

/-- A call that changes nothing. -/
theorem System.Sound.of_eq {s s' : System D} (h : s.Sound) (hsession : s'.session = s.session)
    (hfs : s'.updater.fs = s.updater.fs) (hupdate : s'.updater.update = s.updater.update)
    (hstaging : s'.updater.chunkStagingActive = s.updater.chunkStagingActive)
    (hhash : s'.updater.chunkHash = s.updater.chunkHash) : s'.Sound :=
  h.of_kept hsession ⟨hfs.symm ▸ h.intact, by rw [hfs]⟩ (by rw [hupdate]; exact id)
    (.inl (by rw [hupdate])) fun hact => ⟨hstaging ▸ hact, hhash⟩

namespace System.Sound

variable {s : System D}

/-! ### Calls -/

section

variable (h : s.Sound)

include h

theorem commit (hio : (updateCommit s.updater).1 ≠ .io) : (s.step .commit).Sound := by
  have heq : (s.step .commit).updater = (updateCommit s.updater).2 := rfl
  unfold updateCommit at hio heq
  split at heq
  · exact h.of_eq rfl (by rw [heq]) (by rw [heq]) (by rw [heq]) (by rw [heq])
  · rename_i hguard
    rw [if_neg hguard] at hio
    have hstaged : s.updater.update.state = .staged := by
      simp only [Bool.or_eq_true, not_or, bne_iff_ne, not_not] at hguard
      exact hguard.2
    have hupdate := update_persistAndCommit (s.updater.inState .committed)
    obtain ⟨hact, hctx⟩ := staging_persistAndCommit (s.updater.inState .committed)
    have hkept := kept_persistAndCommit (u := s.updater.inState .committed) h.intact hio
    refine h.of_kept rfl (heq ▸ hkept) ?_ (.inr ⟨?_, ?_⟩) ?_
    · rw [heq, hupdate]
      exact id
    · rw [heq, hupdate]
      rintro ⟨⟩
    · exact fun _ => hstaged
    · rw [heq, hact, hctx]
      exact fun ha => ⟨ha, rfl⟩

theorem fail : (s.step .fail).Sound := by
  have heq : (s.step .fail).updater = (updateFail s.updater).2 := rfl
  unfold updateFail at heq
  split at heq
  · exact h.of_eq rfl (by rw [heq]) (by rw [heq]) (by rw [heq]) (by rw [heq])
  · have hupdate := update_persistUpdateState (s.updater.inState .failed)
    obtain ⟨hact, hctx⟩ := staging_persistUpdateState (s.updater.inState .failed)
    have hkept := kept_persistUpdateState (u := s.updater.inState .failed) h.intact
    refine h.of_kept rfl (heq ▸ hkept) ?_ (.inr ⟨?_, ?_⟩) ?_
    · rw [heq, hupdate]
      exact id
    · rw [heq, hupdate]
      rintro ⟨⟩
    · rw [heq, hupdate]
      rintro ⟨⟩
    · rw [heq, hact, hctx]
      exact fun ha => ⟨ha, rfl⟩

/-- A transaction that is staged without a verification has no chunks. -/
theorem stage (hc : s.OneChunk .stage) : (s.step .stage).Sound := by
  have heq : (s.step .stage).updater = (updateStage s.updater).2 := rfl
  obtain ⟨hio, hnone⟩ := hc
  dsimp only [Call.exec] at hio hnone
  unfold updateStage at hio hnone heq
  split at heq
  · exact h.of_eq rfl (by rw [heq]) (by rw [heq]) (by rw [heq]) (by rw [heq])
  · rename_i hguard
    rw [if_neg hguard] at hio hnone
    have hkept := kept_persistAndCommit (u := s.updater.inState .staged) h.intact hio
    refine of_intact (heq ▸ hkept.intact) fun _ => ?_
    exact hnone ((persistAndCommit_answer (s.updater.inState .staged)).resolve_right hio)

theorem start {generation : UInt32} {target signature : CString} {snapshot : Bool}
    (hio : (updateBegin s.updater generation target signature snapshot).1 ≠ .io) :
    (s.step (.start generation target signature snapshot)).Sound := by
  dsimp only [System.step, Call.exec, Session.after]
  unfold updateBegin at hio ⊢
  split
  · exact h
  rename_i hguard
  rw [if_neg hguard] at hio
  cases hvalid : validateUpdateSignature s.updater.lastUpdateGeneration signature with
  | none => exact h
  | some sg =>
    simp only [hvalid] at hio ⊢
    split
    · rename_i hsnap
      rw [if_pos hsnap] at hio
      exact absurd rfl hio
    rename_i hsnap
    rw [if_neg hsnap] at hio
    split
    · rename_i hne
      rw [if_pos hne] at hio
      exact absurd rfl hio
    · have hkept := kept_persistUpdateState (u := { s.updater with
        lastUpdateGeneration := sg.generation
        update := ⟨true, generation, .pending, target, .ofAscii "update-rp"⟩ }) h.intact
      refine of_intact hkept.intact fun _ => ?_
      rw [if_pos rfl]

/-- A rollback ends the transaction, or is refused. -/
theorem restored {c : Call} (state : State) (restored : Bool) (hc : (s.step c).updater = s.updater ∨
      (s.step c).updater = (restore s.updater state restored).2 ∧
        (restore s.updater state restored).1 ≠ .io) (hsession : (s.step c).session = s.session) :
    (s.step c).Sound := by
  rcases hc with heq | ⟨heq, hio⟩
  · exact h.of_eq hsession (by rw [heq]) (by rw [heq]) (by rw [heq]) (by rw [heq])
  · obtain ⟨hint, hactive⟩ := restore_cases h.intact hio
    refine of_intact (heq ▸ hint) fun ha => ?_
    rw [heq, hactive] at ha
    cases ha

/-- **One chunk**: it is laid over the whole file, and the hash is its hash. -/
theorem stageChunk {data : List UInt8} (hc : s.OneChunk (.stageChunk data)) :
    (s.step (.stageChunk data)).Sound := by
  obtain ⟨hio, hone⟩ := hc
  dsimp only [Call.exec] at hio hone
  dsimp only [System.step, Call.exec, Session.after]
  rcases updateStageChunk_cases s.updater data with ⟨hans, d, heq⟩ | hans |
    ⟨hans, hpending, hw, d, heq⟩
  · rw [heq, hans]
    exact h.of_eq rfl rfl rfl rfl rfl
  · exact absurd hans hio
  · obtain ⟨hchunks, hstaging, hcover⟩ := hone hans
    have hnew : (s.session.chunks ++ [data]).flatten = data := by simp [hchunks]
    rw [heq, hans, if_pos rfl, startStaging, if_neg (by rw [hstaging]; decide)]
    obtain ⟨hint, ⟨-, hfile⟩ | ⟨hfail, -⟩⟩ := writeStaging_cases h.intact data
    · refine ⟨hint, ⟨fun _ _ => ?_, fun _ _ hst => ?_⟩, fun _ _ hst => ?_, fun _ _ _ => ?_⟩
      · rw [hnew, hfile]
        simp [writeAt, hcover]
      · cases hpending.symm.trans hst
      · cases hpending.symm.trans hst
      · rw [hnew]
        exact holds_init.update data
    · rw [hw] at hfail
      cases hfail

/-- **A verification** of chunks accepts their hash and no other. -/
theorem verifyHash_ok_iff {expected : List UInt8} (hc : s.OneChunk (.verifyHash expected))
    (hactive : s.updater.update.active = true) (hne : s.session.chunks ≠ []) :
    (updateVerifyHash s.updater expected).1 = .ok ↔
      expected = xaiosSha256 s.session.chunks.flatten := by
  have hstaging := hc.2 hactive hne
  have hhash := xaiosSha256Final_of_holds (h.hash hactive hne hstaging)
  have hio : (updateVerifyHash s.updater expected).1 ≠ .io := hc.1
  rcases updateVerifyHash_cases s.updater expected with ⟨-, hno⟩ | ⟨hne', hans, -⟩ | ⟨heq, hans, -⟩
  · exact absurd ⟨hactive, hstaging⟩ hno
  · refine iff_of_false (by rw [hans]; decide) fun he => hne' (hhash.trans he.symm)
  · refine iff_of_true ?_ (heq.symm.trans hhash)
    rw [hans] at hio ⊢
    exact (persistAndCommit_answer (s.updater.stopStaging.inState .staged)).resolve_right hio

theorem verifyHash {expected : List UInt8} (hc : s.OneChunk (.verifyHash expected)) :
    (s.step (.verifyHash expected)).Sound := by
  have hiff := h.verifyHash_ok_iff hc
  have hio : (updateVerifyHash s.updater expected).1 ≠ .io := hc.1
  dsimp only [System.step, Call.exec, Session.after]
  rcases updateVerifyHash_cases s.updater expected with ⟨heq, -⟩ | ⟨-, hans, hv⟩ | ⟨-, hans, hv⟩
  · rw [heq]
    exact h.of_eq rfl rfl rfl rfl rfl
  · have hkept := kept_persistUpdateState (u := s.updater.stopStaging.inState .failed) h.intact
    rw [hans]
    refine h.of_kept rfl ⟨?_, ?_⟩ (fun _ => hv.active) (.inr ⟨?_, ?_⟩) ?_
    · rw [hv.fs]
      exact hkept.intact
    · rw [hv.fs]
      exact hkept.file
    · rw [hv.update]
      rintro ⟨⟩
    · rw [hv.update]
      rintro ⟨⟩
    · rw [hv.stopped]
      rintro ⟨⟩
  · rw [hans] at hio
    have hkept := kept_persistAndCommit (u := s.updater.stopStaging.inState .staged) h.intact hio
    have hok := (persistAndCommit_answer (s.updater.stopStaging.inState .staged)).resolve_right hio
    rw [hans, hok, if_pos rfl]
    have haccepted : s.session.chunks ≠ [] →
        some expected = some (xaiosSha256 s.session.chunks.flatten) :=
      fun hne => congrArg some ((hiff hv.active hne).mp (hans.trans hok))
    refine ⟨?_, ⟨fun _ hne => ?_, fun _ hne _ => haccepted hne⟩, fun _ hne _ => haccepted hne, ?_⟩
    · rw [hv.fs]
      exact hkept.intact
    · rw [hv.fs]
      exact hkept.file.trans (h.delivered.file hv.active hne)
    · intro _ _ hact
      rw [hv.stopped] at hact
      cases hact

theorem step {c : Call} (hc : s.OneChunk c) : (s.step c).Sound := by
  cases c with
  | runtimeInit =>
    have hdir := h.intact.exec (o := .mkdir updateDir) rfl (.inl (by rintro _ _ ⟨⟩))
    exact of_intact hdir.1 fun hactive => absurd hactive Bool.false_ne_true
  | start generation target signature snapshot => exact h.start hc.1
  | stage => exact h.stage hc
  | commit => exact h.commit hc.1
  | fail => exact h.fail
  | recoverBoot restored =>
    have hio : (updateRecoverBoot s.updater restored).1 ≠ .io := hc.1
    refine h.restored .recovered restored ?_ rfl
    change (updateRecoverBoot s.updater restored).2 = _ ∨
      (updateRecoverBoot s.updater restored).2 = _ ∧ _
    unfold updateRecoverBoot at hio ⊢
    split
    · exact .inl rfl
    · rename_i hguard
      rw [if_neg hguard] at hio
      exact .inr ⟨rfl, hio⟩
  | rollback restored =>
    have hio : (updateRollback s.updater restored).1 ≠ .io := hc.1
    refine h.restored .rolledBack restored ?_ rfl
    change (updateRollback s.updater restored).2 = _ ∨
      (updateRollback s.updater restored).2 = _ ∧ _
    unfold updateRollback at hio ⊢
    split
    · exact .inl rfl
    · rename_i hguard
      rw [if_neg hguard] at hio
      exact .inr ⟨rfl, hio⟩
  | stageChunk data => exact h.stageChunk hc
  | verifyHash expected => exact h.verifyHash hc
  | parseManifest payloadSize => exact h.of_eq rfl rfl rfl rfl rfl

end

end System.Sound

/-- **The integrity of staging**, on a volume in order, in every run in which an update is one
chunk that covers the staging file and is verified before it is committed. -/
theorem staging_integrity {fs : Fs D} (hfs : fs.Intact) (cs : List Call)
    (h : Along System.step System.OneChunk (System.boot fs) cs) :
    Along System.step System.Faithful (System.boot fs) cs := by
  refine h.imp
    (System.Sound.of_intact hfs fun hactive => absurd hactive Bool.false_ne_true)
    fun s c hs hc => ⟨⟨(hs.step hc).delivered, ?_⟩, hs.step hc⟩
  rintro expected rfl hactive hne
  exact hs.verifyHash_ok_iff hc hactive hne

theorem intact_devFs : devFs.Intact := by
  have hblank : blankFs.Intact := Fs.intact_formatted rfl ⟨trivial, by decide⟩
  have hstate := hblank.exec (o := .mkdir stateDir) rfl (.inl (by rintro _ _ ⟨⟩))
  exact (hstate.1.exec rfl (.inl (by rintro _ _ ⟨⟩))).1

/-- The update of one byte is staged as it should be. -/
theorem byteUpdate_faithful : devFs.Intact ∧
    Along System.step System.Faithful (System.boot devFs) (byteUpdate ++ [.commit]) := by
  refine ⟨intact_devFs, staging_integrity intact_devFs _ ?_⟩
  refine ⟨⟨by decide +kernel, trivial⟩, ⟨by decide +kernel, trivial⟩,
    ⟨by decide +kernel, fun _ => by decide +kernel⟩,
    ⟨by decide +kernel, fun _ _ => by decide +kernel⟩, ⟨by decide +kernel, trivial⟩, trivial⟩

/-! ### Two chunks -/

/-- Two chunks of one byte each. -/
def twoChunks : List Call := [.runtimeInit, byteStart, .stageChunk [1], .stageChunk [2]]

/-- **The second chunk is laid over the first.** Both are accepted, and the staging file is the
second. -/
theorem second_chunk_over_first :
    (twoChunks.foldl System.step (System.boot devFs)).session.chunks = [[1], [2]] ∧
      (twoChunks.foldl System.step (System.boot devFs)).updater.update.active = true ∧
      (twoChunks.foldl System.step (System.boot devFs)).updater.fs.fileMap stagingPath =
        some (.file [2]) := by
  decide +kernel

end Xaios.Update
