import Mathlib.Data.Set.Finite.Range
import Xaios.MutableFs.Namespace
import Xaios.MutableFs.Restore

/-!
# The file system as a map

Without snapshots the file system is a map from paths to directories and byte
strings (`MutableFs.FileMap`). A write sets its path, a delete clears it, a
rename moves one entry, what is refused changes nothing, and reading a path gives
the bytes of the map (`MutableFs.fileMap_refines`).

A path leads to the first slot that has it, so the map is one because paths are
distinct (`MutableFs.Tree.Named`). The bytes read are those of the map
because every file still has the size and the hash of its contents
(`MutableFs.Version.Intact`), and `read_file` checks both.
-/

namespace Xaios.MutableFs

open Foundation BlockDevice Function Option View Node

variable {D : Type}

/-! ### Maps -/

/-- What a path leads to. -/
inductive Item where
  | dir
  | file (bytes : List UInt8)
deriving DecidableEq

/-- **The abstract file system.** -/
abbrev FileMap : Type := CString → Option Item

namespace FileMap

/-- The map before anything is created. -/
def empty : FileMap := fun _ => none

/-- What reading a path into a buffer gives. -/
def read (M : FileMap) (path : CString) (buffer : List UInt8) : ReadResult :=
  if validatePath path ≠ .ok then ⟨.invalid, buffer, none⟩
  else
    match M path with
    | some (.file bytes) =>
      if bytes.length ≤ buffer.length then
        ⟨.ok, bytes ++ buffer.drop bytes.length, some bytes.length⟩
      else ⟨.notFound, buffer, none⟩
    | _ => ⟨.notFound, buffer, none⟩

end FileMap

/-- The operations that do not use snapshots. -/
def Op.isPlain : Op → Bool
  | commit | rollback => false
  | _ => true

/-- **What an operation that succeeds does to the map.** -/
def Op.onMap (M : FileMap) : Op → FileMap
  | mkdir path => update M path (some .dir)
  | write path data => update M path (some (.file data))
  | delete path => update M path none
  | rename oldPath newPath => update (update M oldPath none) newPath (M oldPath)
  | commit | rollback => M

/-- The same for the operation on the tree. -/
def TreeOp.onMap (M : FileMap) : TreeOp (List UInt8) → FileMap
  | mkdir path => update M path (some .dir)
  | write path _ _ contents => update M path (some (.file contents))
  | delete path => update M path none
  | rename oldPath newPath => update (update M oldPath none) newPath (M oldPath)
  | commit | rollback => M

/-! ### Looking up a path in the tree -/

/-- What a version is in the map. -/
def Version.item (c : Version (List UInt8)) : Item :=
  match c.kind with
  | .dir => .dir
  | .file => .file c.contents

namespace Tree

variable {g : Geometry} {f : Fault} {t : Tree (List UInt8)} {path : CString} {i : Fin 64}

/-- The map of a tree. -/
def lookup (g : Geometry) (t : Tree (List UInt8)) : FileMap := fun path =>
  (t.find g path false).bind fun i => (t.entry i).live.map Version.item

/-- Where paths are distinct, a path leads to the slot that has it. -/
theorem Named.lookup_eq_some (h : t.Named g) {x : Item} : t.lookup g path = some x ↔
    ∃ i c, (t.entry i).live = some c ∧ (t.entry i).name = path ∧ c.item = x := by
  rw [lookup]
  constructor
  · intro hx
    obtain ⟨i, hfind, hi⟩ := bind_eq_some_iff.mp hx
    obtain ⟨c, hc, hcx⟩ := map_eq_some_iff.mp hi
    exact ⟨i, c, hc, (of_find hfind).2.1, hcx⟩
  · rintro ⟨i, c, hc, hname, rfl⟩
    have hvis : (t.entry i).Visible := .inl (by simp [hc])
    cases hfind : t.find g path false with
    | none => exact absurd hname (of_find_none hfind (h.inside i hvis) (.inl (by simp [hc])))
    | some j =>
      obtain ⟨c', hc'⟩ := live_of_find hfind
      have hij : i = j := h.distinct i j hvis (.inl (by simp [hc']))
        (hname.trans (of_find hfind).2.1.symm)
      subst hij
      simp [hc]

/-- **The map when one entry changes**: the path of the new entry leads to it, the path
of the old one to nothing, and the others are as before. -/
theorem Named.lookup_setEntry (h : t.Named g) {e : Entry (List UInt8)} {n : UInt64}
    (h' : Named g { t.setEntry i e with generation := n }) (path : CString) :
    lookup g { t.setEntry i e with generation := n } path =
      if e.live.isSome ∧ e.name = path then e.live.map Version.item
      else if (t.entry i).live.isSome ∧ (t.entry i).name = path then none
      else t.lookup g path := by
  refine ext fun x => ?_
  rw [h'.lookup_eq_some]
  rcases em (e.live.isSome ∧ e.name = path) with hnew | hnew
  · obtain ⟨c, hc⟩ := isSome_iff_exists.mp hnew.1
    rw [if_pos hnew, hc, map_some, some.injEq]
    constructor
    · rintro ⟨j, c', hc', hname, rfl⟩
      -- the slot of the new entry has the path, so it is the only one
      have hji : j = i := h'.distinct j i (.inl (by rw [hc']; rfl))
        (.inl (by simp [hc])) (hname.trans (by simpa using hnew.2.symm))
      subst hji
      have : some c' = some c := by simpa [hc] using hc'.symm
      cases this
      rfl
    · rintro rfl
      exact ⟨i, c, by simpa using hc, by simpa using hnew.2, rfl⟩
  · rw [if_neg hnew]
    have hi : ∀ c', e.live = some c' → e.name ≠ path := fun c' hc' hname =>
      hnew ⟨by simp [hc'], hname⟩
    rcases em ((t.entry i).live.isSome ∧ (t.entry i).name = path) with hold | hold
    · rw [if_pos hold]
      refine iff_of_false ?_ (by simp)
      rintro ⟨j, c', hc', hname, -⟩
      rcases eq_or_ne j i with rfl | hne
      · exact hi c' (by simpa using hc') (by simpa using hname)
      · simp only [setEntry_entry, ne_eq, hne, not_false_eq_true, update_of_ne]
          at hc' hname
        exact hne (h.distinct j i (.inl (by simp [hc'])) (.inl hold.1)
          (hname.trans hold.2.symm))
    · rw [if_neg hold, h.lookup_eq_some]
      refine exists_congr fun j => exists_congr fun c' => ?_
      rcases eq_or_ne j i with rfl | hne
      · refine iff_of_false (fun hc' => hi c' (by simpa using hc'.1) (by simpa using hc'.2.1)) ?_
        rintro ⟨hc', hname, -⟩
        exact hold ⟨by simp [hc'], hname⟩
      · simp [hne]

/-- The map when a version is put in the slot for its path. -/
theorem Named.lookup_place (h : t.Named g) {c : Version (List UInt8)}
    (h' : (t.place i path c).Named g) (hslot : t.SlotFor g path i) :
    (t.place i path c).lookup g = update (t.lookup g) path (some c.item) := by
  funext p
  rw [place, h.lookup_setEntry h']
  rcases eq_or_ne p path with rfl | hne
  · simp
  · have hold : ¬((t.entry i).live.isSome ∧ (t.entry i).name = p) := fun ho =>
      hne (ho.2.symm.trans (hslot.name_eq (.inl ho.1)))
    rw [if_neg fun hn => hne hn.2.symm, if_neg hold, update_of_ne hne]

/-- **An operation without a fault does to the map what it says**, and one that is
refused does nothing. -/
theorem Named.lookup_effect (h : t.Named g) {o : TreeOp (List UInt8)}
    {r : Status × Tree (List UInt8)} (he : Effect g .none t o r) (h' : r.2.Named g) :
    r.2.lookup g = if r.1 = .ok then o.onMap (t.lookup g) else t.lookup g := by
  cases he with
  | refused hst => rw [if_neg hst]
  | @present path i c hfind hlive hkind =>
    have hpath : t.lookup g path = some .dir :=
      h.lookup_eq_some.mpr ⟨i, c, hlive, (of_find hfind).2.1, by rw [Version.item, hkind]⟩
    rw [if_pos rfl, TreeOp.onMap, ← hpath, update_eq_self]
  | mkdir hpath hparent hslot hlive => exact h.lookup_place h' hslot
  | write hpath hparent hsize hslot hlive => exact h.lookup_place h' hslot
  | @delete path i hfind hempty =>
    obtain ⟨c, hc⟩ := live_of_find hfind
    funext p
    rw [remove, h.lookup_setEntry h', hc, (of_find hfind).2.1]
    change _ = update (t.lookup g) path none p
    rcases eq_or_ne p path with rfl | hne
    · simp
    · simp [hne, hne.symm]
  | @rename oldPath newPath i hpath hparent hfind hnew hempty =>
    obtain ⟨c, hc⟩ := live_of_find hfind
    have hold : t.lookup g oldPath = some c.item :=
      h.lookup_eq_some.mpr ⟨i, c, hc, (of_find hfind).2.1, rfl⟩
    funext p
    rw [move, h.lookup_setEntry h', hc, (of_find hfind).2.1]
    change _ = update (update (t.lookup g) oldPath none) newPath
      (t.lookup g oldPath) p
    rcases eq_or_ne p newPath with rfl | hne
    · simp [hold, Version.item]
    · rcases eq_or_ne p oldPath with rfl | hne'
      · simp [hne, hne.symm]
      · simp [hne, hne.symm, hne', hne'.symm]

/-! ### Trees without snapshots -/

end Tree

/-- A file has the size and the hash of its contents. -/
def Version.Intact (c : Version (List UInt8)) : Prop :=
  c.kind = .file → c.size.toNat = c.contents.length ∧ c.hash = fnv1a64 c.contents

/-- **The trees of runs without snapshots.** -/
structure Tree.Plain (g : Geometry) (t : Tree (List UInt8)) : Prop extends t.Named g where
  no_snap : ∀ i, (t.entry i).snap = none
  intact : t.All Version.Intact

theorem Tree.Plain.fresh {g : Geometry} : (Tree.fresh (List UInt8)).Plain g where
  toNamed := Named.fresh
  no_snap := fun _ => rfl
  intact := all_fresh

/-- **Writing keeps files intact**, when what is written has its size and hash. -/
theorem Tree.intact_effect {g : Geometry} {t : Tree (List UInt8)} (h : t.All Version.Intact)
    {o : TreeOp (List UInt8)} {r : Status × Tree (List UInt8)} (he : Tree.Effect g .none t o r)
    (hwrite : ∀ path size hash contents, o = .write path size hash contents →
      size = contents.length ∧ hash = fnv1a64 contents) : r.2.All Version.Intact := by
  refine h.effect he (fun c n hi => hi) (fun n hk => by cases hk)
    fun path size hash contents n ho hsize _ => ?_
  obtain ⟨rfl, rfl⟩ := hwrite path size hash contents ho
  refine ⟨?_, rfl⟩
  rw [g.maxFileBytes_eq] at hsize
  rw [UInt64.toNat_ofNat']
  exact Nat.mod_eq_of_lt (by omega)

/-! ### The map of a volume -/

/-- What a node is in the map. -/
def Node.item [HonestDevice 512 D] (d : D) (n : Node) : Item :=
  if n.type = nodeDir then .dir else .file (fileBytes d n.liveBlocks n.size.toNat)

/-- **The map of the globals**: a path leads to the node `find_node` finds. -/
def Fs.fileMap [HonestDevice 512 D] (s : Fs D) : FileMap := fun path =>
  (s.vol.findNode s.geo path false).map fun i => (s.vol.nodes i).item s.dev

/-- The calls that do not use snapshots or handles. -/
def Call.isPlain : Call → Bool
  | op o => o.isPlain
  | read _ _ => true
  | _ => false

section FaultFree

variable [FaultFreeDevice 512 D]

omit [FaultFreeDevice 512 D] in
theorem active_of_findNode {v : Volume} {g : Geometry} {path : CString} {i : Fin 64}
    (h : v.findNode g path false = some i) : (v.nodes i).active ≠ 0 := by
  have hmatch := (of_findNode h).2
  simp only [isMatch, Bool.false_and, Bool.or_false, Bool.and_eq_true, bne_iff_ne] at hmatch
  exact hmatch.1

variable {s : Fs D}

theorem fileMap_eq_lookup (hgeo : s.geo = .v2) :
    s.fileMap = ((View.bytes D).served.tree s).lookup .v2 := by
  funext path
  rw [Fs.fileMap, Tree.lookup, find_tree, hgeo]
  cases hfind : s.vol.findNode .v2 path false with
  | none => rfl
  | some i =>
    have hactive := active_of_findNode hfind
    change some ((s.vol.nodes i).item s.dev) =
      Option.map _ ((bytes D).served.live s.dev (s.vol.nodes i))
    rw [(bytes D).served.live_of_active hactive, map_some, Version.item, item,
      kindOf]
    split
    · rfl
    · rfl

/-- The operation on the tree does to the map what the operation does. -/
theorem onMap_op (M : FileMap) (o : Op) : ((View.bytes D).served.op o).onMap M = o.onMap M := by
  cases o <;> rfl

/-- **A volume in order**: the paths are distinct, and every file has the size and the hash of
its contents. -/
structure Fs.Intact (s : Fs D) : Prop where
  inv : (View.bytes D).served.Inv s
  named : ((View.bytes D).served.tree s).Named .v2
  intact : ((View.bytes D).served.tree s).All Version.Intact

/-- **An operation on live files keeps the volume in order and does to the map what it
says**, if it is not a rename or there is no snapshot. It leaves the snapshot alone. -/
theorem Fs.Intact.exec (h : s.Intact) {o : Op} (ho : o.isPlain = true)
    (hrename : (∀ oldPath newPath, o ≠ .rename oldPath newPath) ∨
      ∀ i, (((View.bytes D).served.tree s).entry i).snap = none) :
    (o.exec s).2.Intact ∧
      (o.exec s).2.fileMap = (if (o.exec s).1 = .ok then o.onMap s.fileMap else s.fileMap) ∧
      ∀ i, (((View.bytes D).served.tree (o.exec s).2).entry i).snap =
        (((View.bytes D).served.tree s).entry i).snap := by
  have hinv' := ((bytes D).served.exec_refines h.inv o).1
  obtain ⟨hst, htree⟩ := Prod.ext_iff.mp ((bytes D).served.exec_of_reliable h.inv trivial o)
  dsimp only at hst htree
  have he := Tree.exec_effect (g := .v2) (f := .none) (t := (bytes D).served.tree s)
    (o := (bytes D).served.op o) (by intro hc; cases o <;> cases hc; cases ho)
    (by intro hc; cases o <;> cases hc; cases ho)
  have hnamed := h.named.effect he fun oldPath newPath i ho hfind hnew hparent => by
    rcases hrename with hne | hsnap
    · cases o <;> cases ho
      exact absurd rfl (hne oldPath newPath)
    · -- without snapshots, looking at them too finds nothing more
      rw [← hnew]
      simp only [Tree.find, Entry.isMatch, hsnap, isSome_none, Bool.and_false,
        Bool.or_false]
  have hintact := Tree.intact_effect h.intact he fun path size hash contents hw => by
    cases o <;> cases hw
    exact ⟨rfl, rfl⟩
  rw [fileMap_eq_lookup hinv'.geo, fileMap_eq_lookup h.inv.geo, ← onMap_op (D := D), hst, htree]
  exact ⟨⟨hinv', htree ▸ hnamed, htree ▸ hintact⟩, h.named.lookup_effect he hnamed, he.snap⟩

/-- **One operation of a plain run.** -/
theorem plain_exec (hinv : (View.bytes D).served.Inv s)
    (h : ((View.bytes D).served.tree s).Plain .v2) {o : Op} (ho : o.isPlain = true) :
    ((View.bytes D).served.tree (o.exec s).2).Plain .v2 ∧
      (o.exec s).2.fileMap = if (o.exec s).1 = .ok then o.onMap s.fileMap else s.fileMap := by
  obtain ⟨hint, hmap, hsnap⟩ := Fs.Intact.exec ⟨hinv, h.toNamed, h.intact⟩ ho (.inr h.no_snap)
  exact ⟨⟨hint.named, fun i => (hsnap i).trans (h.no_snap i), hint.intact⟩, hmap⟩

/-- The file in a node of an intact tree has the size and the hash of the node. -/
theorem intact_node (h : ((View.bytes D).served.tree s).All Version.Intact) (i : Fin 64)
    (hactive : (s.vol.nodes i).active ≠ 0) (htype : (s.vol.nodes i).type = nodeFile) :
    (fileBytes s.dev (s.vol.nodes i).liveBlocks (s.vol.nodes i).size.toNat).length =
        (s.vol.nodes i).size.toNat ∧
      (s.vol.nodes i).contentHash =
        fnv1a64 (fileBytes s.dev (s.vol.nodes i).liveBlocks (s.vol.nodes i).size.toNat) := by
  have hlive : (((bytes D).served.tree s).entry i).live = _ :=
    (bytes D).served.live_of_active hactive
  have hkind : kindOf (s.vol.nodes i).type = .file := (kindOf_eq_file (.inr htype)).mpr htype
  obtain ⟨hlen, hhash⟩ := (h i).live _ hlive hkind
  exact ⟨hlen.symm, hhash⟩

section

variable (hinv : (View.bytes D).served.Inv s)

include hinv

/-- A device that serves every request reads the file in a node. -/
theorem readBlocks_node (i : Fin 64) (hactive : (s.vol.nodes i).active ≠ 0)
    (htype : (s.vol.nodes i).type = nodeFile) (buffer : List UInt8)
    (hsize : (s.vol.nodes i).size.toNat ≤ buffer.length) :
    (readBlocks s.dev (s.vol.nodes i).blockList (s.vol.nodes i).size.toNat buffer).1 = .ok ∧
      (readBlocks s.dev (s.vol.nodes i).blockList (s.vol.nodes i).size.toNat buffer).2.1 =
        overlay buffer 0
          (fileBytes s.dev (s.vol.nodes i).liveBlocks (s.vol.nodes i).size.toNat) := by
  have hlist : (s.vol.nodes i).liveBlocks = (s.vol.nodes i).blockList := by
    rw [liveBlocks, if_pos ⟨hactive, htype⟩]
  have hok : (readBlocks s.dev (s.vol.nodes i).blockList (s.vol.nodes i).size.toNat buffer).1 =
      .ok := by
    refine (bytes D).served.readBlocksFrom_ok _ _ _ trivial hinv.good fun b hb => ?_
    rw [← hlist] at hb
    exact (hinv.sound.mem_used (List.mem_append_left _ hb)).1
  rw [hlist]
  exact ⟨hok, readBlocks_buffer hsize hok⟩

/-- **Reading gives what the map says.** -/
theorem readFile_eq (h : ((View.bytes D).served.tree s).All Version.Intact) (path : CString)
    (buffer : List UInt8) : (readFile s path buffer).1 = s.fileMap.read path buffer := by
  have hmounted : s.mounted = true := by
    have hw := hinv.writable
    rw [Fs.writable, Bool.and_eq_true] at hw
    exact hw.1
  unfold readFile FileMap.read
  rcases eq_or_ne (validatePath path) .ok with hpath | hpath
  · rw [if_neg (by simp [hmounted, hpath]), if_neg (by simp [hpath]), Fs.fileMap]
    cases hfind : s.vol.findNode s.geo path false with
    | none => rfl
    | some i =>
      have hactive := active_of_findNode hfind
      have hvalid := valid_iff.mp (hinv.sound.valid i)
      have hlen := intact_node h i hactive
      have hread := fun htype => readBlocks_node hinv i hactive htype buffer
      dsimp only [map_some, item]
      generalize s.vol.nodes i = n at hactive hvalid hlen hread ⊢
      rcases hvalid.type hactive with htype | htype
      · -- a directory
        simp [htype, nodeDir_ne_nodeFile]
      · obtain ⟨hlen, hhash⟩ := hlen htype
        have hitem : (if n.type = nodeDir then Item.dir
            else .file (fileBytes s.dev n.liveBlocks n.size.toNat)) =
            .file (fileBytes s.dev n.liveBlocks n.size.toNat) :=
          if_neg fun hd => nodeDir_ne_nodeFile (hd.symm.trans htype)
        rw [hitem]
        generalize fileBytes s.dev n.liveBlocks n.size.toNat = bytes at hlen hhash hread ⊢
        rcases Nat.lt_or_ge buffer.length n.size.toNat with hlt | hge
        · rw [if_pos (.inr (.inr hlt))]
          simp [hlen, hlt]
        · obtain ⟨hok, hbuf⟩ := hread htype hge
          have htake : (overlay buffer 0 bytes).take n.size.toNat = bytes := by
            simp [overlay, ← hlen]
          rw [if_neg (by simp [hactive, htype, hge]), if_neg (by simp [hok]), hbuf, htake,
            if_neg (by simp [hhash])]
          simp [hge, overlay, hlen]
  · rw [if_pos (by simp [hpath]), if_pos hpath]

/-- Reading changes nothing that the map shows. -/
theorem fileMap_readFile (path : CString) (buffer : List UInt8) :
    (readFile s path buffer).2.fileMap = s.fileMap := by
  obtain ⟨hinv', htree⟩ := (bytes D).served.readFile_spec hinv path buffer
  rw [fileMap_eq_lookup hinv'.geo, fileMap_eq_lookup hinv.geo, htree]

/-- **Plain runs keep the tree plain.** -/
theorem plain_runCalls (h : ((View.bytes D).served.tree s).Plain .v2) {cs : List Call}
    (hcs : ∀ c ∈ cs, c.isPlain = true) :
    (View.bytes D).served.Inv (runCalls s cs) ∧
      ((View.bytes D).served.tree (runCalls s cs)).Plain .v2 := by
  induction cs generalizing s with
  | nil => exact ⟨hinv, h⟩
  | cons c cs ih =>
    have hc := hcs c (by simp)
    have hrest : ∀ c ∈ cs, c.isPlain = true := fun d hd => hcs d (by simp [hd])
    cases c with
    | op o =>
      exact ih ((bytes D).served.exec_refines hinv o).1 (plain_exec hinv h hc).1 hrest
    | read path buffer =>
      obtain ⟨hinv', htree⟩ := (bytes D).served.readFile_spec hinv path buffer
      exact ih hinv' (htree ▸ h) hrest
    | openFile | readFd | writeFd | close => cases hc

end

/-- **Without snapshots the file system is a finite map.** From a freshly formatted
version 2 volume on a device that serves every request, where the map is empty,
after every run of operations and reads: an operation that succeeds does to the map
what it says, one that is refused does nothing, and reading a path gives the bytes
the map has there. -/
theorem fileMap_refines (s : Fs D) (hgeo : s.geo = .v2)
    (hcap : dataStartSector + Geometry.v2.dataSectors ≤ capacity 512 s.dev) (cs : List Call)
    (hcs : ∀ c ∈ cs, c.isPlain = true) :
    (formatted s).fileMap = FileMap.empty ∧
      {path | (runCalls (formatted s) cs).fileMap path ≠ none}.Finite ∧
      (∀ o : Op, o.isPlain = true →
        (o.exec (runCalls (formatted s) cs)).2.fileMap =
          if (o.exec (runCalls (formatted s) cs)).1 = .ok then
            o.onMap (runCalls (formatted s) cs).fileMap
          else (runCalls (formatted s) cs).fileMap) ∧
      ∀ path buffer,
        (readFile (runCalls (formatted s) cs) path buffer).1 =
            (runCalls (formatted s) cs).fileMap.read path buffer ∧
          (readFile (runCalls (formatted s) cs) path buffer).2.fileMap =
            (runCalls (formatted s) cs).fileMap := by
  have hinv₀ : (bytes D).served.Inv (formatted s) :=
    (bytes D).served.inv_formatted hgeo ⟨trivial, hcap⟩
  have htree₀ := (bytes D).served.tree_formatted s
  obtain ⟨hinv, hplain⟩ := plain_runCalls hinv₀ (by rw [htree₀]; exact Tree.Plain.fresh) hcs
  generalize runCalls (formatted s) cs = u at hinv hplain ⊢
  refine ⟨?_, ?_, fun o ho => (plain_exec hinv hplain ho).2,
    fun path buffer =>
      ⟨readFile_eq hinv hplain.intact path buffer, fileMap_readFile hinv path buffer⟩⟩
  · rw [fileMap_eq_lookup hinv₀.geo, htree₀]
    funext path
    refine eq_none_iff_forall_ne_some.mpr fun x hx => ?_
    obtain ⟨i, c, hc, -⟩ := Tree.Named.fresh.lookup_eq_some.mp hx
    cases hc
  · -- every path of the map is the path of one of the slots
    refine (Set.finite_range fun i => (u.vol.nodes i).name).subset fun path hpath => ?_
    obtain ⟨x, hx⟩ := ne_none_iff_exists'.mp hpath
    obtain ⟨i, hfind, -⟩ := map_eq_some_iff.mp hx
    have hmatch := (of_findNode hfind).2
    simp only [isMatch, Bool.and_eq_true, beq_iff_eq] at hmatch
    exact ⟨i, hmatch.2⟩

end FaultFree

/-- A run that writes a file and reads it. -/
theorem fileMap_refines_write :
    (readFile (runCalls blankFs [.op (.write pathA [7])])
        pathA [0, 0]).1 =
      (runCalls blankFs [.op (.write pathA [7])]).fileMap.read
        pathA [0, 0] :=
  ((fileMap_refines _ rfl (by decide) _ (by decide)).2.2.2 _ _).1

end Xaios.MutableFs
