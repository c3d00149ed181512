import Xaios.MutableFs.HandleMap

/-!
# Descriptors

Calls on handles from two sides. `MutableFs.Descriptors` is what a client sees: a map
of files and eight handles, each with a cursor of its own. On a device that serves every
request each call that succeeds does what it does there, in every interleaving
(`MutableFs.fdCalls_follow`).

A call that fails is another matter. `mutable_fs_open` writes the file before it looks for a
handle, so an open that is refused may have created or emptied its file. This is so exactly
if there is something to create or to empty, and no handle is free or the device does not
take the metadata (`MutableFs.openAtomic_iff`).
-/

namespace Xaios.MutableFs

open Foundation BlockDevice Function Volume Fs List

/-! ### Calls that succeed -/

/-- The calls on handles. -/
inductive FdCall where
  | openFile (path : CString) (flags : UInt32)
  | readFd (fd size : ℕ)
  | writeFd (fd : ℕ) (buffer : List UInt8)
  | close (fd : ℕ)

/-- One call: its answer, the bytes it gives, and the globals. -/
def FdCall.exec {D : Type} [BlockDevice 512 D] (s : Fs D) : FdCall → (Int × List UInt8) × Fs D
  | openFile path flags =>
    (((MutableFs.openFile s path flags).1, []), (MutableFs.openFile s path flags).2)
  | readFd fd size =>
    (((MutableFs.readFd s fd size).1, (MutableFs.readFd s fd size).2.1),
      (MutableFs.readFd s fd size).2.2)
  | writeFd fd buffer =>
    (((MutableFs.writeFd s fd buffer).1, []), (MutableFs.writeFd s fd buffer).2)
  | close fd => (((closeFile s fd).1.code, []), (closeFile s fd).2)

/-- What a client sees: files and handles. -/
structure Descriptors where
  files : FileMap
  handles : Fin 8 → FileHandle

namespace Descriptors

/-- The handle a call is about: a free one for an open, and otherwise the one in use that the
caller names. -/
def Picks (m : Descriptors) (i : Fin 8) : FdCall → Prop
  | .openFile _ _ => (m.handles i).inUse = false
  | .readFd fd _ | .writeFd fd _ | .close fd => fd = i + 1 ∧ (m.handles i).inUse = true

/-- The handle with its cursor moved. -/
def advance (m : Descriptors) (i : Fin 8) (count : ℕ) : Fin 8 → FileHandle :=
  update m.handles i { m.handles i with cursor := (m.handles i).cursor + count }

/-- **What a call on a handle means**: a read gives the bytes from the cursor on, as many as
there are and as are asked for; a write lays its bytes over the file at the cursor. No other
handle and no other file changes. -/
def exec (m : Descriptors) (i : Fin 8) : FdCall → (Int × List UInt8) × Descriptors
  | .openFile path flags =>
    (((i : ℕ) + 1, []),
      ⟨emptied m.files path flags, update m.handles i ⟨true, flags, 0, path⟩⟩)
  | .readFd _ size =>
    let bytes := ((m.files.bytes (m.handles i).path).drop (m.handles i).cursor).take size
    ((bytes.length, bytes), ⟨m.files, m.advance i bytes.length⟩)
  | .writeFd _ buffer =>
    ((buffer.length, []),
      ⟨update m.files (m.handles i).path
          (some (.file (writeAt (m.files.bytes (m.handles i).path) (m.handles i).cursor buffer))),
        m.advance i buffer.length⟩)
  | .close _ => ((0, []), ⟨m.files, update m.handles i ⟨false, 0, 0, .empty⟩⟩)

end Descriptors

section FaultFree

variable {D : Type} [FaultFreeDevice 512 D]

/-- The globals as a client sees them. -/
def Fs.descriptors (s : Fs D) : Descriptors := ⟨s.fileMap, s.openFiles⟩

omit [FaultFreeDevice 512 D] in
/-- The handle a number names. -/
theorem inUse_of_handleForFd {s : Fs D} {fd : ℕ} {i : Fin 8} (h : handleForFd s fd = some i) :
    fd = i + 1 ∧ (s.openFiles i).inUse = true := by
  unfold handleForFd at h
  split at h
  · dsimp only at h
    split at h
    · rename_i hfd huse
      cases h
      exact ⟨(Nat.sub_add_cancel hfd.1).symm, huse⟩
    · cases h
  · cases h

/-- **One call on a volume in order**: if it succeeds it means what it should, and the volume
stays in order in any case. -/
theorem fdCall_follows {s : Fs D} (h : s.Intact) (c : FdCall) :
    (0 ≤ (c.exec s).1.1 → ∃ i, s.descriptors.Picks i c ∧
      s.descriptors.exec i c = ((c.exec s).1, (c.exec s).2.descriptors)) ∧ (c.exec s).2.Intact := by
  cases c with
  | openFile path flags =>
    obtain ⟨hint, ⟨hneg, -⟩ | ⟨i, hfree, hans, hopen, hmap⟩⟩ := openFile_cases h path flags
    · exact ⟨fun hge => absurd hge (not_le.mpr hneg), hint⟩
    · refine ⟨fun _ => ⟨i, hfree, ?_⟩, hint⟩
      dsimp only [FdCall.exec, Descriptors.exec, descriptors]
      rw [hans, hopen, hmap]
  | readFd fd size =>
    obtain ⟨hint, hmap, ⟨hneg, -⟩ | ⟨i, bytes, hfd, -, -, hfile, hgot, hans, hopen⟩⟩ :=
      readFd_cases h fd size
    · exact ⟨fun hge => absurd hge (not_le.mpr hneg), hint⟩
    · refine ⟨fun _ => ⟨i, inUse_of_handleForFd hfd, ?_⟩, hint⟩
      have hbytes : s.fileMap.bytes (s.openFiles i).path = bytes := by rw [FileMap.bytes, hfile]
      dsimp only [FdCall.exec, Descriptors.exec, Descriptors.advance, descriptors]
      rw [hans, hopen, hmap, hgot, hbytes]
  | writeFd fd buffer =>
    obtain ⟨hint, ⟨hneg, -⟩ | ⟨i, hfd, -, -, hans, hmap, hopen⟩⟩ := writeFd_cases h fd buffer
    · exact ⟨fun hge => absurd hge (not_le.mpr hneg), hint⟩
    · refine ⟨fun _ => ⟨i, inUse_of_handleForFd hfd, ?_⟩, hint⟩
      dsimp only [FdCall.exec, Descriptors.exec, Descriptors.advance, descriptors]
      rw [hans, hopen, hmap]
  | close fd =>
    refine ⟨fun hge => ?_, (closeFile_cases h fd).1⟩
    dsimp only [FdCall.exec, closeFile] at hge ⊢
    cases hfd : handleForFd s fd with
    | none =>
      rw [hfd] at hge
      exact absurd hge (not_le.mpr (@code_neg .invalid (by decide)))
    | some i => exact ⟨i, inUse_of_handleForFd hfd, rfl⟩

/-- **Descriptors.** On a version 2 volume whose device serves every request, with any files
on it, every call on handles that succeeds does to the files and the handles what it means,
whatever calls came before it. -/
theorem fdCalls_follow (s : Fs D) (hgeo : s.geo = .v2)
    (hcap : dataStartSector + Geometry.v2.dataSectors ≤ capacity 512 s.dev) (setup : List Call)
    (hsetup : ∀ c ∈ setup, c.isPlain = true) (cs : List FdCall) :
    Along (fun s c => (c.exec s).2)
      (fun s c => 0 ≤ (c.exec s).1.1 → ∃ i, s.descriptors.Picks i c ∧
        s.descriptors.exec i c = ((c.exec s).1, (c.exec s).2.descriptors))
      (runCalls (formatted s) setup) cs := by
  have hint : (runCalls (formatted s) setup).Intact := by
    obtain ⟨hinv, hplain⟩ := plain_runCalls
      ((View.bytes D).served.inv_formatted hgeo ⟨trivial, hcap⟩)
      (by rw [(View.bytes D).served.tree_formatted]; exact Tree.Plain.fresh) hsetup
    exact ⟨hinv, hplain.toNamed, hplain.intact⟩
  exact along_of_forall hint (fun _ _ => trivial)
    fun s c h _ => fdCall_follows h c

end FaultFree

/-- A file is opened twice on a blank disk, written through the first handle, and read through
the second. -/
def twoHandles : List FdCall :=
  [.openFile pathA (openWrite ||| openCreate), .openFile pathA openRead, .writeFd 1 [7, 8],
    .readFd 2 4]

/-- The read gives what was written through the other handle. -/
theorem fdCalls_follow_read :
    let s := (twoHandles.take 3).foldl (fun s c => (c.exec s).2) blankFs
    ((FdCall.readFd 2 4).exec s).1 = (2, [7, 8]) ∧ ∃ i, s.descriptors.Picks i (.readFd 2 4) ∧
      s.descriptors.exec i (.readFd 2 4) =
        (((FdCall.readFd 2 4).exec s).1, ((FdCall.readFd 2 4).exec s).2.descriptors) := by
  intro s
  have hans : ((FdCall.readFd 2 4).exec s).1 = (2, [7, 8]) := by decide +kernel
  obtain ⟨-, -, -, hread, -⟩ := fdCalls_follow (Fs.boot (MemDisk.blank 512 4096)) rfl
    (by decide) [] (by simp) twoHandles
  have hge : 0 ≤ ((FdCall.readFd 2 4).exec s).1.1 := by
    rw [hans]
    decide
  exact ⟨hans, hread hge⟩

/-! ### Opens that fail -/

section Opens

variable {D : Type} [BlockDevice 512 D]

/-- The slot `write_file` puts an empty file in. -/
def Fs.emptySlot (s : Fs D) (path : CString) : Option (Fin 64) :=
  if !s.writable || validatePath path != .ok || !s.vol.parentExistsFor s.geo path then none
  else (s.vol.writeSlot s.geo path).filter fun i =>
    (s.vol.nodes i).active = 0 ∨ (s.vol.nodes i).type = nodeFile

/-- **Writing an empty file** needs a slot and no blocks. -/
theorem writeFile_nil (s : Fs D) (path : CString) :
    (∃ i, s.emptySlot path = some i ∧ writeFile s path [] = s.putFile i path [] []) ∨
      s.emptySlot path = none ∧ ∃ st, st ≠ .ok ∧ writeFile s path [] = (st, s) := by
  have halloc : s.vol.allocateBlocks s.geo (blockCountForSize 0) = (.ok, s.vol, []) := by
    simp [allocateBlocks_eq _ _ (Nat.zero_le _), blockCountForSize, firstFree,
      setBits]
  unfold emptySlot writeFile
  simp only [length_nil, Nat.not_lt_zero, decide_false, Bool.or_false]
  split
  · exact .inr ⟨rfl, _, by decide, rfl⟩
  have hok : ¬(Status.ok ≠ .ok) := not_not.mpr rfl
  have hback : s.vol.freeBlocks s.geo [] = s.vol := rfl
  rw [halloc, writeSlot]
  dsimp only [writeBlocks]
  simp only [if_neg hok, hback]
  cases hfind : s.vol.findNode s.geo path true with
  | some i =>
    dsimp only [Option.some_or, Option.filter_some]
    by_cases hdir : (s.vol.nodes i).active ≠ 0 ∧ (s.vol.nodes i).type ≠ nodeFile
    · exact .inr ⟨by simp [hdir], _, by decide, if_pos hdir⟩
    · refine .inl ⟨i, ?_, if_neg hdir⟩
      rw [not_and_or, not_not, not_not] at hdir
      simp [hdir]
  | none =>
    cases hfree : s.vol.findFreeNode s.geo with
    | some i =>
      refine .inl ⟨i, ?_, rfl⟩
      simp [(View.of_findFreeNode hfree).2.1]
    | none => exact .inr ⟨rfl, _, by decide, rfl⟩

theorem Node.makeFile_active (n : Node) (path : CString) (data : List UInt8) (generation : UInt64)
    (blocks : List UInt16) : (n.makeFile path data generation blocks).active ≠ 0 := by
  change (1 : UInt32) ≠ 0
  decide

/-- Putting a file in a slot changes this slot. -/
theorem nodes_putFile (s : Fs D) (i : Fin 64) (path : CString) (data : List UInt8)
    (blocks : List UInt16) : (s.putFile i path data blocks).2.vol.nodes =
      update s.vol.nodes i
        ((s.vol.nodes i).makeFile path data s.vol.generation blocks) := by
  dsimp only [putFile]
  generalize hvol : (if (s.vol.nodes i).active ≠ 0 ∧ (s.vol.nodes i).type = nodeFile then
    s.vol.freeBlocks s.geo (s.vol.nodes i).blockList else s.vol) = v
  obtain ⟨hnodes, hgen⟩ : v.nodes = s.vol.nodes ∧ v.generation = s.vol.generation := by
    rw [← hvol]
    split <;> simp
  rw [hgen, ← hnodes]
  rfl

/-- A slot that is in use stays so when a file is written empty. -/
theorem active_writeFile_nil {s : Fs D} {i : Fin 64} (h : (s.vol.nodes i).active ≠ 0)
    (path : CString) : ((writeFile s path []).2.vol.nodes i).active ≠ 0 := by
  obtain ⟨j, -, heq⟩ | ⟨-, st, -, heq⟩ := writeFile_nil s path
  · rw [heq, nodes_putFile]
    rcases eq_or_ne i j with rfl | hij
    · rw [update_self]
      exact Node.makeFile_active _ _ _ _ _
    · rwa [update_of_ne hij]
  · rwa [heq]

/-- **The writes of the open change the table of files**: the file is not there or is to be
truncated, and there is a slot for it that does not hold the same already. -/
structure Fs.Rewrites (s : Fs D) (path : CString) (flags : UInt32) : Prop where
  check : openCheck s path flags = .ok
  wanted : s.vol.findNode s.geo path false = none ∨ flags &&& openTruncate ≠ 0
  changes : ∃ i, s.emptySlot path = some i ∧
    (s.vol.nodes i).makeFile path [] s.vol.generation [] ≠ s.vol.nodes i

omit [BlockDevice 512 D] in
/-- The slot for a file that is not there is not in use. -/
theorem active_emptySlot {s : Fs D} {path : CString} {i : Fin 64}
    (hnone : s.vol.findNode s.geo path false = none) (h : s.emptySlot path = some i) :
    (s.vol.nodes i).active = 0 := by
  unfold emptySlot at h
  split at h
  · cases h
  obtain ⟨hslot, -⟩ := Option.filter_eq_some_iff.mp h
  rw [writeSlot, Option.or_eq_some_iff] at hslot
  obtain hfind | ⟨-, hfree⟩ := hslot
  · by_contra hactive
    obtain ⟨hi, hmatch⟩ := View.of_findNode hfind
    refine find?_eq_none.mp hnone i (mem_slots.mpr hi) ?_
    simp only [Node.isMatch, Bool.and_eq_true] at hmatch ⊢
    simp [hactive, hmatch.2]
  · exact (View.of_findFreeNode hfree).2.1

/-- What the writes of an open do to the table of files. -/
theorem nodes_openWrites {s : Fs D} {path : CString} {flags : UInt32}
    (hcheck : openCheck s path flags = .ok) :
    (s.openWrites path flags).2.vol.nodes = s.vol.nodes ↔ ¬s.Rewrites path flags := by
  have hwrite : (writeFile s path []).2.vol.nodes = s.vol.nodes ↔
      ¬∃ i, s.emptySlot path = some i ∧
        (s.vol.nodes i).makeFile path [] s.vol.generation [] ≠ s.vol.nodes i := by
    obtain ⟨i, hslot, heq⟩ | ⟨hslot, st, -, heq⟩ := writeFile_nil s path
    · rw [heq, nodes_putFile, update_eq_self_iff, hslot]
      simp
    · rw [heq, hslot]
      simp
  rw [openWrites]
  cases hfind : s.vol.findNode s.geo path false with
  | none =>
    -- the file is created, and stays when it is truncated at once
    rw [show s.create path flags = writeFile s path [] from
      if_pos ⟨create_of_openCheck hcheck hfind, hfind⟩]
    obtain ⟨i, hslot, heq⟩ | ⟨hslot, st, hst, heq⟩ := writeFile_nil s path
    · have hactive := active_emptySlot hfind hslot
      have hnew : ((writeFile s path []).2.vol.nodes i).active ≠ 0 := by
        rw [heq, nodes_putFile, update_self]
        exact Node.makeFile_active _ _ _ _ _
      refine iff_of_false (fun hsame => ?_) (not_not.mpr ⟨hcheck, .inl hfind, i, hslot,
        fun hsame => Node.makeFile_active _ _ _ _ _ (by rw [hsame]; exact hactive)⟩)
      rw [← hsame] at hactive
      split at hactive
      · exact hnew hactive
      · rw [truncate] at hactive
        split at hactive
        · exact active_writeFile_nil hnew path hactive
        · exact hnew hactive
    · rw [heq, if_pos hst]
      exact iff_of_true rfl fun h => by
        obtain ⟨i, hi, -⟩ := h.changes
        rw [hslot] at hi
        cases hi
  | some j =>
    rw [show s.create path flags = (.ok, s) from
      if_neg fun hc => by rw [hfind] at hc; cases hc.2]
    rw [if_neg (not_not.mpr rfl), truncate, hfind]
    by_cases htrunc : flags &&& openTruncate ≠ 0
    · rw [if_pos ⟨htrunc, rfl⟩, hwrite]
      exact not_congr ⟨fun h => ⟨hcheck, .inr htrunc, h⟩, Rewrites.changes⟩
    · rw [if_neg fun hc => htrunc hc.1]
      exact iff_of_true rfl fun h => h.wanted.elim (by rw [hfind]; rintro ⟨⟩) htrunc

/-- **An open that fails leaves no trace**: the table of files and the handles are as before. -/
def OpenAtomic (s : Fs D) (path : CString) (flags : UInt32) : Prop :=
  (openFile s path flags).1 < 0 →
    (openFile s path flags).2.vol.nodes = s.vol.nodes ∧
      (openFile s path flags).2.openFiles = s.openFiles

/-- **What an open meets after its first write**, seen from before it: all handles are in use,
or the device does not take the metadata, with the file that is written empty or, if it is
created and truncated at once, the second time. -/
def Fs.Refuses (s : Fs D) (path : CString) (flags : UInt32) : Prop :=
  (∀ h, (s.openFiles h).inUse = true) ∨
    ∃ i, s.emptySlot path = some i ∧ ((s.putFile i path [] []).1 ≠ .ok ∨
      s.vol.findNode s.geo path false = none ∧
        ((s.putFile i path [] []).2.truncate path flags).1 ≠ .ok)

/-- How the writes of an open fail that has something to write. -/
theorem openWrites_ne_ok_iff {s : Fs D} {path : CString} {flags : UInt32} {i : Fin 64}
    (h : s.Rewrites path flags) (hslot : s.emptySlot path = some i) :
    (s.openWrites path flags).1 ≠ .ok ↔ (s.putFile i path [] []).1 ≠ .ok ∨
      s.vol.findNode s.geo path false = none ∧
        ((s.putFile i path [] []).2.truncate path flags).1 ≠ .ok := by
  have hput : writeFile s path [] = s.putFile i path [] [] := by
    obtain ⟨j, hj, heq⟩ | ⟨hnone, -⟩ := writeFile_nil s path
    · rw [heq, Option.some.inj (hj.symm.trans hslot)]
    · rw [hnone] at hslot
      cases hslot
  rw [openWrites]
  cases hfind : s.vol.findNode s.geo path false with
  | none =>
    rw [show s.create path flags = writeFile s path [] from
      if_pos ⟨create_of_openCheck h.check hfind, hfind⟩, hput]
    by_cases hok : (s.putFile i path [] []).1 ≠ .ok
    · rw [if_pos hok]
      exact iff_of_true hok (.inl hok)
    · rw [if_neg hok]
      exact ⟨fun hne => .inr ⟨rfl, hne⟩, fun hor => (hor.resolve_left hok).2⟩
  | some j =>
    have htrunc : flags &&& openTruncate ≠ 0 := by
      refine h.wanted.resolve_left fun hnone => ?_
      rw [hfind] at hnone
      cases hnone
    rw [show s.create path flags = (.ok, s) from
      if_neg fun hc => by rw [hfind] at hc; cases hc.2]
    rw [if_neg (not_not.mpr rfl), truncate, hfind, if_pos ⟨htrunc, rfl⟩, hput]
    exact ⟨.inl, fun hor => hor.elim id fun hnone => absurd hnone.1 (Option.some_ne_none j)⟩

/-- An open that has something to write is refused exactly for these reasons. -/
theorem openFile_neg_iff {s : Fs D} {path : CString} {flags : UInt32}
    (h : s.Rewrites path flags) : (openFile s path flags).1 < 0 ↔ s.Refuses path flags := by
  obtain ⟨i, hslot, -⟩ := h.changes
  have hwrites := openWrites_ne_ok_iff h hslot
  have hopen := openFiles_openWrites s path flags
  simp only [Fs.Refuses, hslot, Option.some.injEq, exists_eq_left', ← hwrites]
  rw [openFile_eq, if_neg (not_not.mpr h.check)]
  by_cases hw : (s.openWrites path flags).1 ≠ .ok
  · rw [if_pos hw]
    exact iff_of_true (@code_neg .io (by decide)) (.inr hw)
  rw [if_neg hw, or_iff_left hw, hopen]
  cases hfind : (finRange 8).find? fun i => !(s.openFiles i).inUse with
  | none =>
    refine iff_of_true (@code_neg .noMemory (by decide)) fun h => ?_
    simpa using find?_eq_none.mp hfind h (mem_finRange h)
  | some i =>
    refine iff_of_false (not_lt.mpr (Int.natCast_nonneg (i.val + 1))) fun hall => ?_
    have hfree := find?_some hfind
    rw [hall i] at hfree
    cases hfree

/-- **When an open is atomic**: on every device and in every state, unless it has something to
create or to empty and there is no handle for it, or the metadata is not taken. -/
theorem openAtomic_iff (s : Fs D) (path : CString) (flags : UInt32) :
    OpenAtomic s path flags ↔ ¬(s.Rewrites path flags ∧ s.Refuses path flags) := by
  rw [← and_congr_right openFile_neg_iff, OpenAtomic, not_and']
  refine forall_congr' fun hneg => ?_
  by_cases hcheck : openCheck s path flags = .ok
  · rw [← nodes_openWrites hcheck]
    have hopen := openFiles_openWrites s path flags
    rw [openFile_eq, if_neg (not_not.mpr hcheck)] at hneg ⊢
    generalize s.openWrites path flags = w at hopen hneg ⊢
    split
    · exact and_iff_left hopen
    rename_i hw
    rw [if_neg hw] at hneg
    cases hfind : (finRange 8).find? fun i => !(w.2.openFiles i).inUse with
    | none => exact and_iff_left hopen
    | some i =>
      rw [hfind] at hneg
      exact absurd hneg (not_lt.mpr (Int.natCast_nonneg (i.val + 1)))
  · rw [openFile_eq, if_pos hcheck]
    exact iff_of_true ⟨rfl, rfl⟩ fun h => hcheck h.check

end Opens

/-! ### All handles in use -/

/-- Every handle is in use on a file. -/
def fullFs : Fs (MemDisk 512) :=
  runCalls blankFs (.op (.write pathA []) :: replicate 8 (.openFile pathA openRead))

/-- **A refused open that has created its file**: no handle is free. -/
theorem refused_open_creates :
    (openFile fullFs pathB (openWrite ||| openCreate)).1 = Status.noMemory.code ∧
      fullFs.vol.findNode fullFs.geo pathB false = none ∧
      ((openFile fullFs pathB (openWrite ||| openCreate)).2.vol.findNode
        (openFile fullFs pathB (openWrite ||| openCreate)).2.geo pathB false).isSome ∧
      ¬OpenAtomic fullFs pathB (openWrite ||| openCreate) := by
  have hcode : (openFile fullFs pathB (openWrite ||| openCreate)).1 = Status.noMemory.code := by
    decide +kernel
  have hnode : ((openFile fullFs pathB (openWrite ||| openCreate)).2.vol.nodes 1).active ≠
      (fullFs.vol.nodes 1).active := by
    decide +kernel
  refine ⟨hcode, by decide +kernel, by decide +kernel, fun h => hnode ?_⟩
  rw [(h (by rw [hcode]; exact code_neg (by decide))).1]

end Xaios.MutableFs
