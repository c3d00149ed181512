import Xaios.MutableFs.FileMap

/-!
# What handles do to the map

On a device that serves every request, and where the paths are distinct and the files are
what was written (`MutableFs.Fs.Intact`), the calls on handles are what they should be
on the map of the file system: `mutable_fs_write_fd` lays its bytes over the file at the
cursor, with zeros between the end of the file and the cursor, and `mutable_fs_read_fd` gives
the bytes from the cursor on. A call that is refused changes nothing, except that
`mutable_fs_open` may have created or truncated the file before it finds no handle.

Operations other than a rename keep that state of affairs (`MutableFs.Fs.Intact.exec`),
a commit and a rollback if they succeed.
-/

namespace Xaios.MutableFs

open Foundation BlockDevice Function List FileMap Option

/-- Errors are negative. -/
theorem code_neg {st : Status} (h : st ≠ .ok) : st.code < 0 := by
  cases st with
  | ok => exact absurd rfl h
  | _ => decide

namespace Tree

variable {β : Type} {g : Geometry} {f : Fault} {t : Tree β}

variable [Inhabited β]

theorem Named.commit (h : t.Named g) (hok : (t.commit g f).1 = .ok) : (t.commit g f).2.Named g := by
  have hent := commit_entry_of_ok h.outside hok
  refine h.of_visible (fun i => by rw [hent]; rfl) fun i hi => ?_
  rw [hent, Entry.Visible] at hi
  exact .inl (hi.elim id id)

/-- **A commit that succeeds leaves the map alone.** -/
theorem Named.lookup_commit {t : Tree (List UInt8)} (h : t.Named g)
    (hok : (t.commit g f).1 = .ok) : (t.commit g f).2.lookup g = t.lookup g := by
  have hent := commit_entry_of_ok h.outside hok
  funext path
  refine ext fun x => ?_
  rw [(h.commit hok).lookup_eq_some, h.lookup_eq_some]
  refine exists_congr fun i => exists_congr fun c => ?_
  rw [hent]
  rfl

theorem Named.rollback (h : t.Named g) (hok : (t.rollback g f).1 = .ok) :
    (t.rollback g f).2.Named g := by
  obtain ⟨-, ⟨-, -, hent⟩ | ⟨herr, -⟩⟩ := rollback_entries g f t
  · refine h.of_visible (fun i => ?_) fun i hi => ?_
    · rw [hent]
      split
      · unfold Entry.restored
        split
        · rfl
        · exact name_keepEntry _ _
      · exact name_keepEntry _ _
    · have hkeep : ∀ e : Entry β, (keepEntry t.committed e).Visible → e.Visible := by
        intro e he
        unfold keepEntry at he
        split at he
        · exact .inr (he.resolve_left fun hl => Bool.false_ne_true hl)
        · exact he
      rw [hent] at hi
      split at hi
      · unfold Entry.restored at hi
        split at hi
        · rename_i hs
          exact .inr hs
        · exact hkeep _ hi
      · exact hkeep _ hi
  · exact absurd hok herr

end Tree

/-! ### Bytes at a cursor -/

/-- The bytes with data laid over them at a cursor, and zeros before it where there are no
bytes. -/
def writeAt (bytes : List UInt8) (cursor : ℕ) (data : List UInt8) : List UInt8 :=
  bytes.take cursor ++ replicate (cursor - bytes.length) 0 ++ data ++
    bytes.drop (cursor + data.length)

/-- Laying data over a buffer that holds the bytes and zeros behind them. -/
theorem take_overlay {bytes data : List UInt8} {cursor n : ℕ} (hb : bytes.length ≤ n)
    (hd : cursor + data.length ≤ n) :
    (overlay (bytes ++ replicate (n - bytes.length) 0) cursor data).take
        (max (cursor + data.length) bytes.length) = writeAt bytes cursor data := by
  have hfirst : (bytes ++ replicate (n - bytes.length) 0).take cursor =
      bytes.take cursor ++ replicate (cursor - bytes.length) 0 := by
    rw [take_append, take_replicate, Nat.min_eq_left (by omega)]
  have hlen : (bytes.take cursor ++ replicate (cursor - bytes.length) (0 : UInt8) ++
      data).length = cursor + data.length := by
    simp only [length_append, length_take, length_replicate]
    omega
  have hrest : ((bytes ++ replicate (n - bytes.length) 0).drop (cursor + data.length)).take
      (max (cursor + data.length) bytes.length - (cursor + data.length)) =
      bytes.drop (cursor + data.length) := by
    have hend : max (cursor + data.length) bytes.length - (cursor + data.length) =
        (bytes.drop (cursor + data.length)).length := by
      rw [length_drop]
      omega
    rw [drop_append, hend, take_left]
  rw [overlay, hfirst, take_append, hlen, hrest,
    take_of_length_le (hlen.trans_le (Nat.le_max_left _ _)), writeAt]

/-- The bytes of the file a path leads to. -/
def FileMap.bytes (M : FileMap) (path : CString) : List UInt8 :=
  match M path with
  | some (.file bytes) => bytes
  | _ => []

variable {path : CString}

/-- What a read that succeeds has read. -/
theorem FileMap.read_ok {M : FileMap} {buffer : List UInt8}
    (h : (M.read path buffer).status = .ok) :
    ∃ bytes, M path = some (.file bytes) ∧ bytes.length ≤ buffer.length ∧
      M.read path buffer = ⟨.ok, bytes ++ buffer.drop bytes.length, some bytes.length⟩ := by
  unfold read at h ⊢
  split at h
  · cases h
  rename_i hpath
  rw [if_neg hpath]
  cases hM : M path with
  | none => rw [hM] at h; cases h
  | some x =>
    rw [hM] at h
    cases x with
    | dir => cases h
    | file bytes =>
      dsimp only at h ⊢
      split at h
      · rename_i hle
        exact ⟨bytes, rfl, hle, if_pos hle⟩
      · cases h

/-! ### Frames -/

section Frames

variable {D : Type} [BlockDevice 512 D]

variable (s : Fs D) (path : CString)

theorem openFiles_readFile (buffer : List UInt8) :
    (readFile s path buffer).2.openFiles = s.openFiles := by
  unfold readFile
  split
  · rfl
  · cases s.vol.findNode s.geo path false with
    | none => rfl
    | some i =>
      dsimp only
      split
      · rfl
      · split
        · rfl
        · split <;> rfl

theorem openFiles_putFile (i : Fin 64) (path : CString) (data : List UInt8) (blocks : List UInt16) :
    (s.putFile i path data blocks).2.openFiles = s.openFiles := rfl

theorem openFiles_writeFile (data : List UInt8) :
    (writeFile s path data).2.openFiles = s.openFiles := by
  dsimp only [writeFile]
  generalize s.vol.allocateBlocks s.geo (blockCountForSize data.length) = a
  generalize writeBlocks s.dev a.2.2 data = w
  split
  · rfl
  split
  · rfl
  split
  · rfl
  cases a.2.1.findNode s.geo path true with
  | some i =>
    dsimp only
    split
    · rfl
    · exact openFiles_putFile _ _ _ _ _
  | none =>
    cases a.2.1.findFreeNode s.geo with
    | some i => exact openFiles_putFile _ _ _ _ _
    | none => rfl

theorem openFiles_openWrites (flags : UInt32) :
    (s.openWrites path flags).2.openFiles = s.openFiles := by
  have hwrite : ∀ s : Fs D, ∀ p : Prop, ∀ [Decidable p],
      (if p then writeFile s path [] else (.ok, s)).2.openFiles = s.openFiles := by
    intro s p _
    split
    · exact openFiles_writeFile s path []
    · rfl
  rw [Fs.openWrites]
  split
  · exact hwrite s _
  · exact (hwrite _ _).trans (hwrite s _)

end Frames

variable {D : Type} [FaultFreeDevice 512 D] {s : Fs D}

/-- A freshly formatted volume is in order. -/
theorem Fs.intact_formatted (hgeo : s.geo = .v2)
    (hgood : (View.bytes D).served.good s.dev) : (formatted s).Intact where
  inv := (View.bytes D).served.inv_formatted hgeo hgood
  named := by
    rw [(View.bytes D).served.tree_formatted]
    exact Tree.Named.fresh
  intact := by
    rw [(View.bytes D).served.tree_formatted]
    exact Tree.all_fresh

namespace Fs.Intact

variable {s : Fs D}

/-! ### Operations -/

/-- **A commit that succeeds** keeps the volume in order, and the map. -/
theorem commit (h : s.Intact) (hok : (commitSnapshot s).1 = .ok) :
    (commitSnapshot s).2.Intact ∧ (commitSnapshot s).2.fileMap = s.fileMap := by
  have hinv' := ((View.bytes D).served.commitSnapshot_refines h.inv).1
  obtain ⟨hst, htree⟩ := (View.bytes D).served.commit_of_reliable h.inv trivial
  rw [hst] at hok
  rw [fileMap_eq_lookup hinv'.geo, fileMap_eq_lookup h.inv.geo, htree]
  refine ⟨⟨hinv', htree ▸ h.named.commit hok, htree ▸ fun i => ?_⟩, h.named.lookup_commit hok⟩
  rw [Tree.commit_entry_of_ok h.named.outside hok]
  exact (h.intact i).committed

/-- **A rollback that succeeds** keeps the volume in order. -/
theorem rollback (h : s.Intact) (hok : (rollbackSnapshot s).1 = .ok) :
    (rollbackSnapshot s).2.Intact := by
  have hinv' := ((View.bytes D).served.rollbackSnapshot_refines h.inv).1
  obtain ⟨hst, htree⟩ := (View.bytes D).served.rollback_of_reliable h.inv trivial
  rw [hst] at hok
  refine ⟨hinv', htree ▸ h.named.rollback hok, htree ▸ fun i => ?_⟩
  obtain ⟨-, ⟨-, -, hent⟩ | ⟨herr, -⟩⟩ :=
    Tree.rollback_entries .v2 .none ((View.bytes D).served.tree s)
  · rw [hent i]
    split
    · exact (h.intact i).restored _
    · exact (h.intact i).keepEntry _
  · exact absurd hok herr

/-! ### Files as a whole -/

theorem setHandle (h : s.Intact) (i : Fin 8) (hd : FileHandle) : (s.setHandle i hd).Intact :=
  ⟨⟨h.inv.geo, h.inv.writable, h.inv.sound, h.inv.good⟩, h.named, h.intact⟩

theorem readFile (h : s.Intact) (path : CString) (buffer : List UInt8) :
    (readFile s path buffer).2.Intact := by
  obtain ⟨hinv, htree⟩ := (View.bytes D).served.readFile_spec h.inv path buffer
  exact ⟨hinv, htree ▸ h.named, htree ▸ h.intact⟩

/-- **`write_file`** sets its path, or changes nothing. -/
theorem writeFile (h : s.Intact) (path : CString) (data : List UInt8) :
    (writeFile s path data).2.Intact ∧ (writeFile s path data).2.fileMap =
      if (writeFile s path data).1 = .ok then update s.fileMap path (some (.file data))
      else s.fileMap := by
  obtain ⟨hint, hmap, -⟩ := h.exec (o := .write path data) rfl (.inl (by rintro _ _ ⟨⟩))
  exact ⟨hint, hmap⟩

end Fs.Intact

/-! ### Handles -/

/-- **What a read through a handle does**: it is refused and nothing changes, or it gives the
bytes from the cursor on and moves the cursor behind them. -/
theorem readFd_cases (h : s.Intact) (fd size : ℕ) :
    (readFd s fd size).2.2.Intact ∧ (readFd s fd size).2.2.fileMap = s.fileMap ∧
      ((readFd s fd size).1 < 0 ∧ (readFd s fd size).2.1 = [] ∧
          (readFd s fd size).2.2.openFiles = s.openFiles ∨
        ∃ i bytes, handleForFd s fd = some i ∧ size ≠ 0 ∧
          (s.openFiles i).flags &&& openRead ≠ 0 ∧
          s.fileMap (s.openFiles i).path = some (.file bytes) ∧
          (readFd s fd size).2.1 = (bytes.drop (s.openFiles i).cursor).take size ∧
          (readFd s fd size).1 = (readFd s fd size).2.1.length ∧
          (readFd s fd size).2.2.openFiles = update s.openFiles i
            { s.openFiles i with
              cursor := (s.openFiles i).cursor + (readFd s fd size).2.1.length }) := by
  unfold readFd
  cases hfd : handleForFd s fd with
  | none => exact ⟨h, rfl, .inl ⟨@code_neg .invalid (by decide), rfl, rfl⟩⟩
  | some i =>
    dsimp only
    split
    · exact ⟨h, rfl, .inl ⟨@code_neg .invalid (by decide), rfl, rfl⟩⟩
    rename_i hguard
    obtain ⟨hsize, hread⟩ := not_or.mp hguard
    have hint := h.readFile (s.openFiles i).path (replicate 8192 0)
    have hmap := fileMap_readFile h.inv (s.openFiles i).path (replicate 8192 0)
    have hopen := openFiles_readFile s (s.openFiles i).path (replicate 8192 0)
    have hres := readFile_eq h.inv h.intact (s.openFiles i).path (replicate 8192 0)
    generalize readFile s (s.openFiles i).path (replicate 8192 0) = r at hint hmap hopen hres ⊢
    split
    · exact ⟨hint, hmap, .inl ⟨@code_neg .io (by decide), rfl, hopen⟩⟩
    rename_i hst
    rw [not_not, hres] at hst
    obtain ⟨bytes, hfile, hle, heq⟩ := read_ok hst
    rw [hres, heq]
    dsimp only [getD_some]
    split
    · rename_i hend
      have hnil : (bytes.drop (s.openFiles i).cursor).take size = [] := by
        rw [drop_of_length_le hend, take_nil]
      refine ⟨hint, hmap, .inr ⟨i, bytes, rfl, hsize, hread, hfile, hnil.symm, rfl, ?_⟩⟩
      rw [hopen]
      exact (update_eq_self i s.openFiles).symm
    · rename_i hend
      have hlen : ((bytes.drop (s.openFiles i).cursor).take size).length =
          min (bytes.length - (s.openFiles i).cursor) size := by
        rw [length_take, length_drop, Nat.min_comm]
      have hcopy : ((bytes ++ (replicate 8192 0).drop bytes.length).drop
          (s.openFiles i).cursor).take (min (bytes.length - (s.openFiles i).cursor) size) =
          (bytes.drop (s.openFiles i).cursor).take size := by
        rw [drop_append_of_le_length (by omega), take_append_of_le_length
          (by rw [length_drop]; omega), ← length_drop, Nat.min_comm,
          ← take_eq_take_min]
      rw [hcopy, hlen]
      refine ⟨hint.setHandle _ _, hmap, .inr ⟨i, bytes, rfl, hsize, hread, hfile, rfl, rfl, ?_⟩⟩
      rw [Fs.advance, Fs.setHandle, hopen]

/-- The file as it is before a write: what `mutable_fs_write_fd` reads, or nothing if there is
no file. -/
theorem readOld (h : s.Intact) (path : CString) :
    let r := if (s.vol.findNode s.geo path false).isSome then
        readFile s path (replicate 8192 0)
      else (⟨.ok, replicate 8192 0, some 0⟩, s)
    r.2.Intact ∧ r.2.fileMap = s.fileMap ∧ r.2.openFiles = s.openFiles ∧
      (r.1.status = .ok → (s.fileMap.bytes path).length ≤ 8192 ∧
        r.1 = ⟨.ok, s.fileMap.bytes path ++
            replicate (8192 - (s.fileMap.bytes path).length) 0,
          some (s.fileMap.bytes path).length⟩) := by
  split
  · have hres := readFile_eq h.inv h.intact path (replicate 8192 0)
    refine ⟨h.readFile path _, fileMap_readFile h.inv path _, openFiles_readFile s path _,
      fun hst => ?_⟩
    rw [hres] at hst ⊢
    obtain ⟨bytes, hfile, hle, heq⟩ := read_ok hst
    have hbytes : s.fileMap.bytes path = bytes := by rw [FileMap.bytes, hfile]
    rw [length_replicate] at hle
    rw [heq, hbytes, drop_replicate]
    exact ⟨hle, rfl⟩
  · rename_i hnone
    have hbytes : s.fileMap.bytes path = [] := by
      rw [bytes, Fs.fileMap, not_isSome_iff_eq_none.mp hnone]
      rfl
    rw [hbytes]
    exact ⟨h, rfl, rfl, fun _ => ⟨Nat.zero_le _, rfl⟩⟩

/-- **What a write through a handle does**: it is refused and nothing changes, or it lays its
bytes over the file at the cursor and moves the cursor behind them. -/
theorem writeFd_cases (h : s.Intact) (fd : ℕ) (buffer : List UInt8) :
    (writeFd s fd buffer).2.Intact ∧
      ((writeFd s fd buffer).1 < 0 ∧ (writeFd s fd buffer).2.fileMap = s.fileMap ∧
          (writeFd s fd buffer).2.openFiles = s.openFiles ∨
        ∃ i, handleForFd s fd = some i ∧ buffer.length ≠ 0 ∧
          (s.openFiles i).flags &&& openWrite ≠ 0 ∧
          (writeFd s fd buffer).1 = buffer.length ∧
          (writeFd s fd buffer).2.fileMap = update s.fileMap (s.openFiles i).path
            (some (.file (writeAt (s.fileMap.bytes (s.openFiles i).path) (s.openFiles i).cursor
              buffer))) ∧
          (writeFd s fd buffer).2.openFiles = update s.openFiles i
            { s.openFiles i with cursor := (s.openFiles i).cursor + buffer.length }) := by
  unfold writeFd
  cases hfd : handleForFd s fd with
  | none => exact ⟨h, .inl ⟨@code_neg .invalid (by decide), rfl, rfl⟩⟩
  | some i =>
    dsimp only
    split
    · exact ⟨h, .inl ⟨@code_neg .invalid (by decide), rfl, rfl⟩⟩
    rename_i hguard
    simp only [not_or, h.inv.geo, Geometry.maxFileBytes_eq, not_lt] at hguard
    obtain ⟨hsize, hwrite, hcursor, hroom⟩ := hguard
    obtain ⟨hint, hmap, hopen, hres⟩ := readOld h (s.openFiles i).path
    generalize (if (s.vol.findNode s.geo (s.openFiles i).path false).isSome then
      readFile s (s.openFiles i).path (replicate 8192 0)
      else (⟨.ok, replicate 8192 0, some 0⟩, s)) = r at hint hmap hopen hres ⊢
    split
    · exact ⟨hint, .inl ⟨@code_neg .io (by decide), hmap, hopen⟩⟩
    rename_i hst
    obtain ⟨hle, heq⟩ := hres (not_not.mp hst)
    have hnew : (overlay r.1.buffer (s.openFiles i).cursor buffer).take
        (max ((s.openFiles i).cursor + buffer.length) (r.1.outSize.getD 0)) =
        writeAt (s.fileMap.bytes (s.openFiles i).path) (s.openFiles i).cursor buffer := by
      rw [heq]
      exact take_overlay hle (by omega)
    rw [hnew]
    generalize hfile : writeAt (s.fileMap.bytes (s.openFiles i).path) (s.openFiles i).cursor
      buffer = file
    obtain ⟨hint', hmap'⟩ := hint.writeFile (s.openFiles i).path file
    have hopen' := (openFiles_writeFile r.2 (s.openFiles i).path file).trans hopen
    generalize writeFile r.2 (s.openFiles i).path file = w at hint' hmap' hopen' ⊢
    rw [hmap] at hmap'
    split
    · rename_i hw
      exact ⟨hint', .inl ⟨@code_neg .io (by decide), hmap'.trans (if_neg hw), hopen'⟩⟩
    · rename_i hw
      refine ⟨hint'.setHandle _ _, .inr ⟨i, rfl, hsize, hwrite, rfl,
        (hmap'.trans (if_pos (not_not.mp hw))).trans (by rw [hfile]), ?_⟩⟩
      rw [Fs.advance, Fs.setHandle, hopen']

theorem fileMap_eq_none_iff : s.fileMap path = none ↔ s.vol.findNode s.geo path false = none := by
  rw [Fs.fileMap, map_eq_none_iff]

/-- The file is written empty before a handle is taken, if it is to be created or truncated. -/
def emptied (M : FileMap) (path : CString) (flags : UInt32) : FileMap :=
  if flags &&& openTruncate ≠ 0 ∨ M path = none then update M path (some (.file []))
  else M

/-- A file that is written empty under a condition. -/
theorem writeEmpty (h : s.Intact) (path : CString) (p : Prop) [Decidable p] :
    let c := if p then writeFile s path [] else (.ok, s)
    c.2.Intact ∧ c.2.openFiles = s.openFiles ∧
      c.2.fileMap = if p ∧ c.1 = .ok then update s.fileMap path (some (.file []))
        else s.fileMap := by
  dsimp only
  split
  · rename_i hp
    obtain ⟨hint, hmap⟩ := h.writeFile path []
    rw [hmap]
    exact ⟨hint, openFiles_writeFile s path [], by simp [hp]⟩
  · rename_i hp
    exact ⟨h, rfl, by simp [hp]⟩

omit [FaultFreeDevice 512 D] in
/-- A file that is not there can only be opened to be created. -/
theorem create_of_openCheck [BlockDevice 512 D] {flags : UInt32}
    (h : openCheck s path flags = .ok) (hnone : s.vol.findNode s.geo path false = none) :
    flags &&& openCreate ≠ 0 := by
  unfold openCheck at h
  rw [hnone] at h
  intro hflag
  split at h
  · cases h
  · cases h

/-- **What an open does**: it takes the first handle that is not in use, and the file is there,
empty if it was created or truncated; or it is refused and takes no handle. It may have created
or truncated the file then too. -/
theorem openFile_cases (h : s.Intact) (path : CString) (flags : UInt32) :
    (openFile s path flags).2.Intact ∧
      ((openFile s path flags).1 < 0 ∧ (openFile s path flags).2.openFiles = s.openFiles ∧
          ((openFile s path flags).2.fileMap = s.fileMap ∨
            (openFile s path flags).2.fileMap = emptied s.fileMap path flags) ∨
        ∃ i, (s.openFiles i).inUse = false ∧ (openFile s path flags).1 = (i : ℕ) + 1 ∧
          (openFile s path flags).2.openFiles =
            update s.openFiles i ⟨true, flags, 0, path⟩ ∧
          (openFile s path flags).2.fileMap = emptied s.fileMap path flags) := by
  dsimp only [openFile]
  split
  · rename_i hcheck
    exact ⟨h, .inl ⟨code_neg hcheck, rfl, .inl rfl⟩⟩
  rename_i hcheck
  obtain ⟨hint₁, hopen₁, hmap₁⟩ := writeEmpty h path
    (flags &&& openCreate ≠ 0 ∧ s.vol.findNode s.geo path false = none)
  generalize (if flags &&& openCreate ≠ 0 ∧ s.vol.findNode s.geo path false = none then
    writeFile s path [] else (.ok, s)) = c at hint₁ hopen₁ hmap₁ ⊢
  -- what was not there is there now, or the open has failed
  have hmap₁' : c.1 = .ok → c.2.fileMap =
      if s.fileMap path = none then update s.fileMap path (some (.file []))
      else s.fileMap := by
    intro hc
    rw [hmap₁]
    refine if_congr ⟨fun hp => fileMap_eq_none_iff.mpr hp.1.2, fun hnone => ?_⟩ rfl rfl
    rw [fileMap_eq_none_iff] at hnone
    exact ⟨⟨create_of_openCheck (not_not.mp hcheck) hnone, hnone⟩, hc⟩
  split
  · rename_i hc
    exact ⟨hint₁, .inl ⟨@code_neg .io (by decide), hopen₁,
      .inl (hmap₁.trans (if_neg fun hp => hc hp.2))⟩⟩
  rename_i hc
  rw [not_not] at hc
  have hsome : (c.2.vol.findNode c.2.geo path false).isSome := by
    rw [isSome_iff_ne_none, Ne, ← fileMap_eq_none_iff, hmap₁' hc]
    split
    · rw [update_self]
      rintro ⟨⟩
    · assumption
  obtain ⟨hint₂, hopen₂, hmap₂⟩ := writeEmpty hint₁ path
    (flags &&& openTruncate ≠ 0 ∧ (c.2.vol.findNode c.2.geo path false).isSome)
  generalize (if flags &&& openTruncate ≠ 0 ∧ (c.2.vol.findNode c.2.geo path false).isSome then
    writeFile c.2 path [] else (.ok, c.2)) = t at hint₂ hopen₂ hmap₂ ⊢
  -- and it is empty if that was wanted
  have hmap₂' : t.1 = .ok → t.2.fileMap = emptied s.fileMap path flags := by
    intro ht
    rw [hmap₂, hmap₁' hc, emptied]
    simp only [hsome, ht, and_true]
    by_cases htrunc : flags &&& openTruncate ≠ 0
    · rw [if_pos htrunc, if_pos (Or.inl htrunc)]
      split
      · rw [update_idem]
      · rfl
    · rw [if_neg htrunc]
      exact if_congr (or_iff_right htrunc).symm rfl rfl
  split
  · rename_i ht
    refine ⟨hint₂, .inl ⟨@code_neg .io (by decide), hopen₂.trans hopen₁, ?_⟩⟩
    rw [hmap₂, if_neg fun hp => ht hp.2, hmap₁' hc, emptied]
    split
    · rename_i hnone
      exact .inr (if_pos (.inr hnone)).symm
    · exact .inl rfl
  rename_i ht
  rw [not_not] at ht
  rw [hopen₂, hopen₁]
  cases hfind : (finRange 8).find? fun i => !(s.openFiles i).inUse with
  | none =>
    exact ⟨hint₂, .inl ⟨@code_neg .noMemory (by decide), hopen₂.trans hopen₁,
      .inr (hmap₂' ht)⟩⟩
  | some i =>
    have hfree : (s.openFiles i).inUse = false := by simpa using find?_some hfind
    refine ⟨hint₂.setHandle _ _, .inr ⟨i, hfree, rfl, ?_, hmap₂' ht⟩⟩
    change update t.2.openFiles i _ = _
    rw [hopen₂, hopen₁]

/-- Creating a file does not change the bytes of its path. -/
theorem bytes_emptied {M : FileMap} {flags : UInt32} (h : flags &&& openTruncate = 0) :
    (emptied M path flags).bytes path = M.bytes path := by
  unfold emptied
  split
  · rename_i hp
    have hnone : M path = none := hp.resolve_left (not_not.mpr h)
    rw [bytes, update_self, bytes, hnone]
  · rfl

omit [FaultFreeDevice 512 D] in
/-- The number of a handle that is in use. -/
theorem handleForFd_of_inUse {i : Fin 8} (h : (s.openFiles i).inUse = true) :
    handleForFd s (i + 1) = some i := by
  have hi : (⟨(i : ℕ) + 1 - 1, by omega⟩ : Fin 8) = i := Fin.ext (Nat.add_sub_cancel _ _)
  rw [handleForFd, dif_pos ⟨Nat.succ_pos _, i.isLt⟩]
  rw [hi, if_pos h]

/-- Closing a file changes no file. -/
theorem closeFile_cases (h : s.Intact) (fd : ℕ) :
    (closeFile s fd).2.Intact ∧ (closeFile s fd).2.fileMap = s.fileMap := by
  unfold closeFile
  cases handleForFd s fd with
  | none => exact ⟨h, rfl⟩
  | some i => exact ⟨h.setHandle _ _, rfl⟩

end Xaios.MutableFs
