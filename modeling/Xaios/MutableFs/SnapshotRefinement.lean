import Xaios.MutableFs.Refinement

/-!
# Snapshots refine the tree

`commit_snapshot` and `rollback_snapshot` on the tree. Both are loops of copies;
a copy either fails and leaves the tree, or hands back blocks that hold what the
source blocks hold (`View.copyBlocks_spec`). One step of a loop then does to the
tree what one step of the tree loop does (`View.commitSlot_refines`,
`View.restoreSnapshotNode_refines`), under no fault or under a fault in its own
slot, and a loop of such steps refines the loop (`View.forEach_refines`).
-/

namespace Xaios.MutableFs

open Foundation BlockDevice Function List MutableFs.Tree Node

variable {D β : Type} [BlockDevice 512 D] [Inhabited β] {g : Geometry}

namespace View

variable (V : View D g β)

/-! ### Copying -/

variable {s : Fs D}

/-- Reading changes the device, and nothing that can be seen of it. -/
theorem inv_read (h : V.Inv s) (bs : List UInt16) (size : ℕ) (buffer : List UInt8) :
    V.Inv { s with dev := (readBlocks s.dev bs size buffer).2.2 } :=
  ⟨h.geo, h.writable, h.sound, V.good_readBlocksFrom _ _ 0 _ h.good⟩

theorem tree_read (s : Fs D) (bs : List UInt16) (size : ℕ) (buffer : List UInt8) :
    V.tree { s with dev := (readBlocks s.dev bs size buffer).2.2 } = V.tree s := by
  simp only [tree, V.entry_readBlocks]

/-- **What a copy does.** Either it fails, for a fault of the device or for want
of room, and the tree is the one before; or there are new blocks that hold what
the source holds. -/
theorem copyBlocks_spec (h : V.Inv s) {source : List UInt16} {count size : ℕ}
    (hsrc : ∀ b ∈ source, b.toNat < g.dataSectors) (hlen : source.length = count) (h16 : count ≤ 16)
    (hsize : size ≤ 8192) :
    (V.Inv (copyBlocks s source count size).2.1 ∧
      V.tree (copyBlocks s source count size).2.1 = V.tree s ∧
      ((copyBlocks s source count size).1 = .io ∧ ¬V.reliable ∧ 0 < count ∨
        (copyBlocks s source count size).1 = .noMemory ∧ (V.tree s).free g < count)) ∨
    ∃ bs d, copyBlocks s source count size =
        (.ok, { s with vol := s.vol.setBits 1 bs, dev := d }, bs) ∧
      V.Fresh s.vol s.dev bs (.ok, d) ∧ bs.length = count ∧ count ≤ (V.tree s).free g ∧
      V.file d bs size = V.file s.dev source size := by
  have hgeo := h.geo
  subst hgeo
  have hfree := V.free_tree h.sound
  rw [length_nil, Nat.add_zero] at hfree
  rw [hfree]
  unfold copyBlocks
  have hinv := V.inv_read h source size (replicate 8192 0)
  have htree := V.tree_read s source size (replicate 8192 0)
  have hbuffer : size ≤ (replicate 8192 (0 : UInt8)).length := by
    rwa [length_replicate]
  by_cases hr : (readBlocks s.dev source size (replicate 8192 0)).1 = .ok
  swap
  · refine .inl ?_
    rw [if_pos hr]
    refine ⟨hinv, htree, .inl ⟨rfl, fun hrel =>
      hr (V.readBlocksFrom_ok size 0 _ hrel h.good hsrc), Nat.pos_of_ne_zero fun hzero => hr ?_⟩⟩
    rw [length_eq_zero_iff.mp (hlen.trans hzero)]
    rfl
  rw [if_neg (not_not.mpr hr),
    Volume.allocateBlocks_eq _ _ (by rw [s.geo.fileMaxBlocks_eq]; exact h16)]
  by_cases hroom : count ≤ (s.vol.freeList s.geo).length
  swap
  · refine .inl ?_
    rw [if_neg hroom]
    simp only [ne_eq, reduceCtorEq, not_false_eq_true, if_true]
    exact ⟨hinv, htree, .inr ⟨trivial, Nat.lt_of_not_le hroom⟩⟩
  rw [if_pos hroom]
  simp only [ne_eq, not_true_eq_false, if_false]
  have hfresh := V.fresh hinv.sound hinv.good count
    ((readBlocks s.dev source size (replicate 8192 0)).2.1.take size)
  have hblen : (s.vol.firstFree s.geo count).length = count := by
    rw [Volume.length_firstFree, Nat.min_eq_left hroom]
  have hcopy := V.file_copy (e := (readBlocks s.dev source size (replicate 8192 0)).2.2) hbuffer
    hr (Volume.nodup_firstFree s.vol s.geo count) (by rw [hblen, hlen])
  generalize hw : writeBlocks (readBlocks s.dev source size (replicate 8192 0)).2.2
    (s.vol.firstFree s.geo count)
    ((readBlocks s.dev source size (replicate 8192 0)).2.1.take size) = w at hfresh hcopy ⊢
  by_cases hwok : w.1 = .ok
  · refine .inr ⟨s.vol.firstFree s.geo count, w.2, ?_, ⟨hfresh.sound, hfresh.good, fun i => ?_,
      fun _ => rfl⟩, hblen, hroom, hcopy hwok⟩
    · rw [if_neg (not_not.mpr hwok)]
    · exact (hfresh.entry i).trans (V.entry_readBlocks _ _ _ _ _)
  · refine .inl ?_
    rw [if_pos hwok]
    refine ⟨hfresh.inv_back hinv, hfresh.tree_back.trans htree,
      .inl ⟨rfl, fun hrel => hwok (hfresh.ok hrel), Nat.pos_of_ne_zero fun hzero => hwok ?_⟩⟩
    rw [← hw, length_eq_zero_iff.mp (hblen.trans hzero)]
    rfl

/-! ### One slot -/

/-- A step of a loop in slot `i` refines a tree step: under no fault, or under a
fault in its slot that ends the loop. -/
def RefinesSlot (i : Fin 64) (r : Status × Fs D) (op : Fault → Status × Tree β) : Prop :=
  V.Inv r.2 ∧ ∃ f, (f = .none ∨ f = .data i ∧ ¬V.reliable ∧ r.1 ≠ .ok) ∧ (r.1, V.tree r.2) = op f

variable {i : Fin 64}

theorem refinesSlot_self {op : Fault → Status × Tree β} {status : Status}
    (h : V.Inv s) (hop : op .none = (status, V.tree s)) : V.RefinesSlot i (status, s) op :=
  ⟨h, .none, .inl rfl, hop.symm⟩

/-- The tree when a node is replaced and blocks are freed. -/
theorem tree_free_setNode (s : Fs D) (bs : List UInt16) (i : Fin 64) (n : Node) :
    V.tree { s with vol := (s.vol.freeBlocks g bs).setNode i n } =
      (V.tree s).setEntry i (V.entry s.dev n) := by
  refine Tree.ext (funext fun j => ?_) (by simp [tree]) (by simp [tree])
  rcases eq_or_ne j i with rfl | hne
  · simp [tree]
  · simp [tree, hne]

/-! ### Commit -/

section Commit

variable {n : Node}

theorem length_blockList (hn : n.Valid) : n.blockList.length = n.blockCount.toNat := by
  have := hn.blockCount
  rw [blockList, length_take, length_ofFn]
  omega

theorem snapBlocks_openSnapshot : n.openSnapshot.snapBlocks = [] := by
  unfold snapBlocks
  split <;> rfl

theorem valid_openSnapshot (hn : n.Valid) (ha : n.active ≠ 0) : n.openSnapshot.Valid :=
  ⟨fun _ => hn.path (.inl ha), hn.type, fun _ => hn.type ha, hn.blockCount, Nat.zero_le _,
    hn.size, hn.size⟩

theorem valid_clearSnapshot (hn : n.Valid) : n.clearSnapshot.Valid :=
  ⟨fun h => hn.path (.inl (h.resolve_right fun h' => h' rfl)), hn.type, fun h => absurd rfl h,
    hn.blockCount, Nat.zero_le _, hn.size, Nat.zero_le _⟩

/-- The node with its live version and its snapshot exchanged. -/
def exchange (n : Node) : Node :=
  { n with
    active := n.snapshotActive
    snapshotActive := n.active
    type := n.snapshotType
    snapshotType := n.type
    size := n.snapshotSize
    contentHash := n.snapshotHash
    generation := n.snapshotGeneration
    snapshotSize := n.size
    snapshotHash := n.contentHash
    snapshotGeneration := n.generation
    blockCount := n.snapshotBlockCount
    snapshotBlockCount := n.blockCount
    blocks := n.snapshotBlocks
    snapshotBlocks := n.blocks }

theorem valid_exchange (hn : n.Valid) : (exchange n).Valid :=
  ⟨fun h => hn.path h.symm, hn.snapshotType, hn.type, hn.snapshotBlockCount, hn.blockCount,
    hn.snapshotSize, hn.size⟩

/-- The node `commit_snapshot` leaves when the copy was made. -/
def closeSnapshot (n : Node) (bs : List UInt16) : Node :=
  { n.openSnapshot with snapshotBlockCount := n.blockCount, snapshotBlocks := blockArray bs }

theorem snapBlocks_closeSnapshot (hn : n.Valid) (hf : n.type = nodeFile) {bs : List UInt16}
    (hbs : bs.length = n.blockCount.toNat) : (closeSnapshot n bs).snapBlocks = bs := by
  have := hn.blockCount
  have ha : (closeSnapshot n bs).snapshotActive ≠ 0 := (by decide : (1 : UInt32) ≠ 0)
  rw [snapBlocks, if_pos ⟨ha, hf⟩]
  exact take_blockArray hbs.symm (by omega)

/-- The entry with the snapshot opened. -/
theorem entry_openSnapshot (d : D) (ha : n.active ≠ 0) :
    V.entry d n.openSnapshot =
      { V.entry d n with snap := (V.live d n).map Version.hollow } := by
  have hs : n.openSnapshot.snapshotActive ≠ 0 := (by decide : (1 : UInt32) ≠ 0)
  have hsnap : V.snap d n.openSnapshot = (V.live d n).map Version.hollow := by
    rw [V.snap_of_active hs, V.live_of_active ha, snapBlocks_openSnapshot, V.file_nil]
    rfl
  rw [entry, hsnap]
  rfl

/-- The entry with the snapshot closed. -/
theorem entry_closeSnapshot (hn : n.Valid) (ha : n.active ≠ 0) (hf : n.type = nodeFile) {d d' : D}
    {bs : List UInt16} (hbs : bs.length = n.blockCount.toNat)
    (hfile : V.file d' bs n.size.toNat = V.file d n.blockList n.size.toNat)
    (hd : V.entry d' n.openSnapshot = V.entry d n.openSnapshot) :
    V.entry d' (closeSnapshot n bs) = { V.entry d n with snap := V.live d n } := by
  have hs : (closeSnapshot n bs).snapshotActive ≠ 0 := (by decide : (1 : UInt32) ≠ 0)
  have hlb : n.liveBlocks = n.blockList := if_pos ⟨ha, hf⟩
  have hlive : V.live d' n = V.live d n := congrArg Entry.live hd
  have hsnap : V.snap d' (closeSnapshot n bs) = V.live d n := by
    rw [V.snap_of_active hs, V.live_of_active ha, snapBlocks_closeSnapshot hn hf hbs, hlb,
      length_blockList hn, hbs, ← hfile]
    rfl
  rw [entry, hsnap]
  change (⟨n.name, V.live d' n, V.live d n⟩ : Entry β) = _
  rw [hlive]
  rfl

end Commit

variable {d : D} {n : Node} {c : Version β}

theorem kind_of_live (hn : n.Valid) (ha : n.active ≠ 0) (hc : V.live d n = some c) :
    c.kind = .file ↔ n.type = nodeFile := by
  rw [V.live_of_active ha, Option.some.injEq] at hc
  subst hc
  exact kindOf_eq_file (hn.type ha)

theorem blocks_of_live (hn : n.Valid) (ha : n.active ≠ 0) (hf : n.type = nodeFile)
    (hc : V.live d n = some c) : c.blocks = n.blockCount.toNat := by
  have hlb : n.liveBlocks = n.blockList := if_pos ⟨ha, hf⟩
  rw [V.live_of_active ha, Option.some.injEq] at hc
  rw [← hc, hlb]
  exact length_blockList hn

/-- A directory has no contents to lose. -/
theorem hollow_of_not_file (hc : V.live d n = some c) (hf : n.type ≠ nodeFile) : c.hollow = c := by
  by_cases ha : n.active = 0
  · rw [V.live_of_inactive ha] at hc
    cases hc
  · have hlb : n.liveBlocks = [] := if_neg fun h => hf h.2
    rw [V.live_of_active ha, hlb, V.file_nil, Option.some.injEq] at hc
    subst hc
    rfl

variable {v : Volume}

/-- The old snapshot goes back, with whatever node replaces the one that had it. -/
theorem sound_freeSnap (h : v.Sound g []) (hi : i.val < g.maxNodes) (hv : n.Valid)
    (hl : n.liveBlocks = (v.nodes i).liveBlocks) (hs : n.snapBlocks = []) :
    ((v.freeBlocks g (v.nodes i).snapBlocks).setNode i n).Sound g [] := by
  refine h.freeNode hi (valid_iff.mpr hv) ?_
  rw [owned, hl, hs, owned, append_nil, append_nil]

/-- The second half of a step: the node is opened with no blocks of its own, and where there
is a file in the version it takes, its blocks are copied and the node is closed with them. -/
theorem opened_refines (h : V.Inv s) (hi : i.val < g.maxNodes) {o : Node} {freed : List UInt16}
    {e : Entry β} (close : List UInt16 → Node) (hn : n.Valid) (ha : n.active ≠ 0)
    (hc : V.live s.dev n = some c) (hsound : ((s.vol.freeBlocks g freed).setNode i o).Sound g [])
    (hmem : ∀ b ∈ n.liveBlocks, b ∈ (s.vol.nodes i).owned) (hvalid : ∀ bs, (close bs).Valid)
    (howned : n.type = nodeFile → ∀ bs, bs.length = n.blockCount.toNat →
      (close bs).owned.Perm (o.owned ++ bs))
    (hfile : n.type = nodeFile → ∀ d bs, bs.length = n.blockCount.toNat →
      V.file d bs n.size.toNat = V.file s.dev n.blockList n.size.toNat →
      V.entry d o = V.entry s.dev o → V.entry d (close bs) = e)
    (hdir : n.type ≠ nodeFile → V.entry s.dev o = e) :
    V.RefinesSlot i
      (let opened : Fs D := { s with vol := (s.vol.freeBlocks g freed).setNode i o }
      if n.type = nodeFile then
        let c := copyBlocks opened n.blockList n.blockCount.toNat n.size.toNat
        if c.1 ≠ .ok then (c.1, c.2.1)
        else (.ok, { c.2.1 with vol := c.2.1.vol.setNode i (close c.2.2) })
      else (.ok, opened))
      fun f =>
        let opened := (V.tree s).setEntry i (V.entry s.dev o)
        if c.kind = .file ∧ 0 < c.blocks ∧ f = .data i then (.io, opened)
        else if c.kind = .file ∧ opened.free g < c.blocks then (.noMemory, opened)
        else (.ok, (V.tree s).setEntry i e) := by
  have hkind := V.kind_of_live hn ha hc
  have hinv : V.Inv { s with vol := (s.vol.freeBlocks g freed).setNode i o } :=
    ⟨h.geo, h.writable, hsound, h.good⟩
  rw [← tree_free_setNode V s freed i o]
  by_cases hf : n.type = nodeFile
  swap
  · rw [if_neg hf]
    have hk : c.kind ≠ .file := fun hk => hf (hkind.mp hk)
    refine V.refinesSlot_self hinv ?_
    rw [if_neg fun h => hk h.1, if_neg fun h => hk h.1, tree_free_setNode, hdir hf]
  rw [if_pos hf, V.blocks_of_live hn ha hf hc]
  simp only [hkind.mpr hf, true_and]
  have hlb : n.liveBlocks = n.blockList := if_pos ⟨ha, hf⟩
  rcases V.copyBlocks_spec hinv (fun b hb => (h.sound.mem_used (hmem b (hlb ▸ hb))).1)
      (length_blockList hn) hn.blockCount hn.size with
    ⟨hinv', htree, hst⟩ | ⟨bs, d, heq, hfresh, hblen, hroom, hcopy⟩
  · rcases hst with ⟨hio, hrel, hpos⟩ | ⟨hmem, hroom⟩
    · rw [hio, if_pos (by simp)]
      refine ⟨hinv', .data i, .inr ⟨rfl, hrel, by simp⟩, ?_⟩
      dsimp only
      rw [if_pos ⟨hpos, rfl⟩, htree]
    · rw [hmem, if_pos (by simp)]
      refine ⟨hinv', .none, .inl rfl, ?_⟩
      dsimp only
      rw [if_neg (by simp), if_pos hroom, htree]
  · rw [heq]
    simp only [ne_eq, not_true_eq_false, if_false]
    have hclosed := hfresh.sound.setNode hi (by
      rw [append_nil, Volume.setBits_nodes, Volume.setNode_nodes, update_self]
      exact howned hf bs hblen) (valid_iff.mpr (hvalid bs))
    refine ⟨⟨h.geo, h.writable, hclosed, hfresh.good⟩, .none, .inl rfl, ?_⟩
    have hself := hfresh.entry i
    rw [Volume.setNode_nodes, update_self] at hself
    have hclose := hfile hf d bs hblen hcopy hself
    dsimp only
    rw [if_neg (by simp), if_neg (Nat.not_lt.mpr hroom)]
    refine Prod.ext rfl (Tree.ext (funext fun j => ?_) (by simp [tree]) (by simp [tree]))
    rcases eq_or_ne j i with rfl | hne
    · simpa [tree] using hclose
    · have := hfresh.entry j
      simpa [tree, hne] using this

/-- **A step of the commit loop.** -/
theorem commitSlot_refines (h : V.Inv s) (hi : i.val < g.maxNodes) :
    V.RefinesSlot i (commitSlot i s) fun f => (V.tree s).commitEntry g f i := by
  have hgeo := h.geo
  subst hgeo
  have hn := valid_iff.mp (h.sound.valid i)
  unfold commitSlot
  set n := s.vol.nodes i
  have hentry : (V.tree s).entry i = V.entry s.dev n := rfl
  simp only [freeBlocks_snapBlocks]
  by_cases ha : n.active = 0
  · rw [if_pos ha]
    have hsnap : n.clearSnapshot.snapBlocks = [] := if_neg fun h' => h'.1 rfl
    have hsound := sound_freeSnap h.sound hi (valid_clearSnapshot hn) rfl hsnap
    refine V.refinesSlot_self ⟨rfl, h.writable, hsound, h.good⟩ ?_
    have hlive : (V.entry s.dev n).live = none := V.live_of_inactive ha
    rw [commitEntry, hentry, tree_free_setNode]
    simp only [hlive]
    have : V.entry s.dev n.clearSnapshot = { V.entry s.dev n with snap := none } := by
      rw [entry, V.snap_of_inactive rfl]
      rfl
    rw [this]
    change _ = (Status.ok, (V.tree s).setEntry i ⟨n.name, (V.entry s.dev n).live, none⟩)
    rw [hlive]
    rfl
  · rw [if_neg ha]
    obtain ⟨c, hc⟩ : ∃ c, V.live s.dev n = some c := ⟨_, V.live_of_active ha⟩
    have hopen : V.entry s.dev n.openSnapshot = ⟨n.name, some c, some c.hollow⟩ := by
      rw [V.entry_openSnapshot _ ha, entry, hc]
      rfl
    have hstep := V.opened_refines h hi (closeSnapshot n) hn ha hc
      (sound_freeSnap h.sound hi (valid_openSnapshot hn ha) rfl snapBlocks_openSnapshot)
      (fun b => mem_append_left _)
      (fun bs => { valid_openSnapshot hn ha with snapshotBlockCount := hn.blockCount })
      (fun hf bs hbs => by
        rw [owned, snapBlocks_closeSnapshot hn hf hbs, owned, snapBlocks_openSnapshot,
          append_nil]
        rfl)
      (fun hf d bs hbs hfile hd => by
        rw [V.entry_closeSnapshot hn ha hf hbs hfile hd, entry, hc])
      (fun hf => by rw [hopen, V.hollow_of_not_file hc hf])
    simp only [commitEntry, hentry, entry, hc]
    rw [hopen] at hstep
    exact hstep

/-! ### Rollback -/

section Restore

variable {n : Node}

theorem liveBlocks_openLive : n.openLive.liveBlocks = [] :=
  snapBlocks_openSnapshot (n := exchange n)

/-- The node `restore_snapshot_node` leaves when the copy was made. -/
def closeLive (n : Node) (bs : List UInt16) : Node :=
  { n.openLive with blockCount := n.snapshotBlockCount, blocks := blockArray bs }

/-- An entry with its versions exchanged. -/
theorem entry_exchange {d : D} {e : Entry β} (h : V.entry d n = e) :
    V.entry d (exchange n) = ⟨e.name, e.snap, e.live⟩ := h ▸ rfl

end Restore

/-- **Restoring one node**, which is a commit of the node with its versions exchanged. -/
theorem restoreSnapshotNode_refines (h : V.Inv s) (hi : i.val < g.maxNodes) :
    V.RefinesSlot i (restoreSnapshotNode i s) fun f => (V.tree s).restoreEntry g f i := by
  have hgeo := h.geo
  subst hgeo
  have hn := valid_exchange (valid_iff.mp (h.sound.valid i))
  unfold restoreSnapshotNode
  set n := s.vol.nodes i with hni
  have hentry : (V.tree s).entry i = V.entry s.dev n := rfl
  simp only [freeBlocks_liveBlocks]
  by_cases hs : n.snapshotActive = 0
  · have hsnap : ((V.tree s).entry i).snap = none := V.snap_of_inactive hs
    rw [if_pos hs]
    refine V.refinesSlot_self h ?_
    simp only [restoreEntry, hsnap]
  rw [if_neg hs]
  have hsound : ((s.vol.freeBlocks s.geo n.liveBlocks).setNode i n.openLive).Sound s.geo [] := by
    refine h.sound.freeNode hi (valid_iff.mpr (valid_exchange (valid_openSnapshot hn hs))) ?_
    rw [owned, liveBlocks_openLive, ← hni, owned, append_nil]
    exact perm_append_comm
  obtain ⟨c, hc⟩ : ∃ c, V.live s.dev (exchange n) = some c := ⟨_, V.live_of_active hs⟩
  have hsnap : V.snap s.dev n = some c := hc
  have hopen : V.entry s.dev n.openLive = ⟨n.name, some c.hollow, some c⟩ := by
    refine (V.entry_exchange (V.entry_openSnapshot (n := exchange n) s.dev hs)).trans ?_
    rw [entry, hc]
    rfl
  have hstep := V.opened_refines (e := ⟨n.name, some c, some c⟩) h hi (closeLive n) hn hs hc hsound
    (fun b => mem_append_right _)
    (fun bs => { valid_exchange (valid_openSnapshot hn hs) with blockCount := hn.blockCount })
    (fun hf bs hbs => by
      have hlive : (closeLive n bs).liveBlocks = bs := snapBlocks_closeSnapshot hn hf hbs
      rw [owned, hlive, owned, liveBlocks_openLive, nil_append]
      exact perm_append_comm)
    (fun hf d bs hbs hfile hd => by
      have hclose := V.entry_closeSnapshot hn hs hf hbs hfile (V.entry_exchange hd)
      refine (V.entry_exchange hclose).trans ?_
      rw [entry, hc]
      rfl)
    (fun hf => by rw [hopen, V.hollow_of_not_file hc hf])
  simp only [restoreEntry, hentry, entry, hsnap]
  rw [hopen] at hstep
  exact hstep

/-! ### Loops -/

/-- **A loop of steps refines the loop of tree steps**, under the fault of the step
that ends it. -/
theorem forEach_refines {body : Fin 64 → Fs D → Status × Fs D}
    (abody : Fault → Fin 64 → Tree β → Status × Tree β) {is : List (Fin 64)} (hnd : is.Nodup)
    (hind : ∀ f i t, f ≠ .data i → abody f i t = abody .none i t)
    (hbody : ∀ i ∈ is, ∀ s, V.Inv s → V.RefinesSlot i (body i s) fun f => abody f i (V.tree s))
    (h : V.Inv s) :
    V.Inv (forEach .ok body is s).2 ∧ ∃ f,
      (f = .none ∨ (∃ i ∈ is, f = .data i) ∧ ¬V.reliable ∧ (forEach .ok body is s).1 ≠ .ok) ∧
      ((forEach .ok body is s).1, V.tree (forEach .ok body is s).2) =
        forEach .ok (abody f) is (V.tree s) := by
  induction is generalizing s with
  | nil => exact ⟨h, .none, .inl rfl, rfl⟩
  | cons i is ih =>
    obtain ⟨hi, hnd'⟩ := nodup_cons.mp hnd
    obtain ⟨hinv, f, hf, heq⟩ := hbody i (by simp) s h
    dsimp only at heq
    by_cases hok : (body i s).1 = .ok
    · -- the step went through, so no fault was in its slot
      obtain rfl : f = .none := hf.resolve_right fun hf => hf.2.2 hok
      obtain ⟨hinv', f', hf', heq'⟩ := ih hnd' (fun j hj => hbody j (by simp [hj])) hinv
      have hne : f' ≠ .data i := by
        rcases hf' with rfl | ⟨⟨j, hj, rfl⟩, -, -⟩
        · simp
        · simp only [ne_eq, Fault.data.injEq]
          rintro rfl
          exact hi hj
      have hstep : abody f' i (V.tree s) = (.ok, V.tree (body i s).2) := by
        rw [hind f' i _ hne, ← heq, hok]
      rw [forEach_cons_ok hok]
      refine ⟨hinv', f', ?_, ?_⟩
      · rcases hf' with rfl | ⟨⟨j, hj, rfl⟩, hrel, hst⟩
        · exact .inl rfl
        · exact .inr ⟨⟨j, by simp [hj], rfl⟩, hrel, hst⟩
      · rw [heq', forEach_cons_ok (by rw [hstep]), hstep]
    · rw [forEach_cons_err hok]
      refine ⟨hinv, f, ?_, ?_⟩
      · rcases hf with rfl | ⟨rfl, hrel, -⟩
        · exact .inl rfl
        · exact .inr ⟨⟨i, by simp, rfl⟩, hrel, hok⟩
      · have herr : (abody f i (V.tree s)).1 ≠ .ok := by
          rw [← heq]
          exact hok
        rw [forEach_cons_err herr, heq]

omit [Inhabited β] in
/-- A loop does not see a fault of the metadata. -/
theorem forEach_fault (abody : Fault → Fin 64 → Tree β → Status × Tree β)
    (hind : ∀ f i t, f ≠ .data i → abody f i t = abody .none i t) {f : Fault}
    (hf : f = .none ∨ f = .metadata) (is : List (Fin 64)) (t : Tree β) :
    forEach .ok (abody f) is t = forEach .ok (abody .none) is t := by
  have hbody : abody f = abody .none := funext fun i => funext fun t =>
    hind f i t (by rcases hf with rfl | rfl <;> simp)
  rw [hbody]

/-- Only a fault in its slot matters to a step of the commit loop. -/
theorem commitEntry_fault (f : Fault) (i : Fin 64) (t : Tree β) (hf : f ≠ .data i) :
    t.commitEntry g f i = t.commitEntry g .none i := by
  simp only [commitEntry, hf, and_false, if_false, reduceCtorEq]

/-- **`commit_snapshot` refines the tree operation.** -/
theorem commitSnapshot_refines (h : V.Inv s) :
    V.Refines (commitSnapshot s) fun f => (V.tree s).commit g f := by
  have hgeo := h.geo
  subst hgeo
  obtain ⟨hinv, f, hf, heq⟩ := V.forEach_refines (commitEntry s.geo) (nodup_slots s.geo)
    commitEntry_fault (fun i hi s h => V.commitSlot_refines h (mem_slots.mp hi)) h
  unfold commitSnapshot
  rw [if_neg (by simp [h.writable])]
  by_cases hok : (forEach .ok commitSlot (slots s.geo) s).1 = .ok
  swap
  · rw [if_pos hok]
    refine ⟨hinv, f, fun hrel => hf.resolve_right fun hf => hf.2.1 hrel, ?_⟩
    have herr : (forEach .ok (commitEntry s.geo f) (slots s.geo) (V.tree s)).1 ≠ .ok := by
      rw [← heq]
      exact hok
    dsimp only [commit]
    rw [if_pos herr, ← heq]
  · obtain rfl : f = .none := hf.resolve_right fun hf => hf.2.2 hok
    rw [if_neg (not_not.mpr hok)]
    refine V.refines_writeMetadata
      ⟨hinv.geo, hinv.writable, hinv.sound.congr rfl rfl, hinv.good⟩ fun f hf => ?_
    dsimp only [commit]
    rw [forEach_fault _ commitEntry_fault hf, ← heq, if_neg (not_not.mpr hok)]
    rfl

/-- The node the first loop of `rollback_snapshot` leaves. -/
def discardNode (committed : UInt64) (n : Node) : Node :=
  if n.snapshotActive = 0 ∧ n.active ≠ 0 ∧ committed ≤ n.generation then n.discarded else n

/-- The entry of that node. -/
theorem entry_discardNode (committed : UInt64) (d : D) (n : Node) :
    V.entry d (discardNode committed n) = Tree.keepEntry committed (V.entry d n) := by
  have hiff : ((V.entry d n).snap.isNone = true ∧
      (V.entry d n).live.any (fun c => decide (committed ≤ c.generation)) = true) ↔
      (n.snapshotActive = 0 ∧ n.active ≠ 0 ∧ committed ≤ n.generation) := by
    have hs : (V.entry d n).snap.isNone = true ↔ n.snapshotActive = 0 := by
      change (V.snap d n).isNone = true ↔ _
      rw [← Option.not_isSome, V.isSome_snap]
      simp
    refine and_congr hs ?_
    change (V.live d n).any (fun c => decide (committed ≤ c.generation)) = true ↔ _
    by_cases ha : n.active = 0
    · simp [V.live_of_inactive ha, ha]
    · simp [V.live_of_active ha, ha]
  unfold discardNode keepEntry
  by_cases hc : n.snapshotActive = 0 ∧ n.active ≠ 0 ∧ committed ≤ n.generation
  · rw [if_pos hc, if_pos (hiff.mpr hc), entry, V.live_of_inactive rfl]
    rfl
  · rw [if_neg hc, if_neg fun h => hc (hiff.mp h)]

/-- One step of the first loop of `rollback_snapshot`. -/
theorem discardSlot_spec (h : v.Sound g []) (hi : i.val < g.maxNodes) :
    (discardSlot g v i).Sound g [] ∧ (discardSlot g v i).generation = v.generation ∧
      (discardSlot g v i).committedGeneration = v.committedGeneration ∧
      (discardSlot g v i).nodes =
        update v.nodes i (discardNode v.committedGeneration (v.nodes i)) := by
  have hn := valid_iff.mp (h.valid i)
  unfold discardSlot discardNode
  by_cases hc : (v.nodes i).snapshotActive = 0 ∧ (v.nodes i).active ≠ 0 ∧
      v.committedGeneration ≤ (v.nodes i).generation
  · simp only [if_pos hc]
    have hvol : (if (v.nodes i).type = nodeFile then v.freeBlocks g (v.nodes i).blockList else v) =
        v.freeBlocks g (v.nodes i).liveBlocks := by
      rw [← freeBlocks_liveBlocks]
      simp only [ne_eq, hc.2.1, not_false_eq_true, true_and]
    rw [hvol]
    refine ⟨?_, by simp, by simp, by simp⟩
    refine h.freeNode hi (valid_iff.mpr ?_) ?_
    · exact ⟨fun h' => hn.path (.inl hc.2.1), fun h' => absurd rfl h', hn.snapshotType,
        Nat.zero_le _, hn.snapshotBlockCount, hn.size, hn.snapshotSize⟩
    · have hl : (v.nodes i).discarded.liveBlocks = [] := if_neg fun h' => h'.1 rfl
      rw [owned, hl, owned, append_nil]
      exact perm_append_comm
  · simp only [if_neg hc]
    exact ⟨h, trivial, trivial, (update_eq_self _ _).symm⟩

/-- **The first loop of `rollback_snapshot`.** -/
theorem discard_spec {is : List (Fin 64)} (hnd : is.Nodup) (his : ∀ i ∈ is, i.val < g.maxNodes)
    (h : v.Sound g []) :
    (is.foldl (discardSlot g) v).Sound g [] ∧
      (is.foldl (discardSlot g) v).generation = v.generation ∧
      (is.foldl (discardSlot g) v).committedGeneration = v.committedGeneration ∧
      ∀ j, (is.foldl (discardSlot g) v).nodes j =
        if j ∈ is then discardNode v.committedGeneration (v.nodes j) else v.nodes j := by
  induction is generalizing v with
  | nil => exact ⟨h, rfl, rfl, fun j => by simp⟩
  | cons i is ih =>
    obtain ⟨hi, hnd'⟩ := nodup_cons.mp hnd
    obtain ⟨h1, h2, h3, h4⟩ := discardSlot_spec h (his i (by simp))
    obtain ⟨k1, k2, k3, k4⟩ := ih hnd' (fun j hj => his j (by simp [hj])) h1
    refine ⟨k1, k2.trans h2, k3.trans h3, fun j => ?_⟩
    rw [foldl_cons, k4 j, h3, h4]
    rcases eq_or_ne j i with rfl | hne
    · rw [if_neg hi, update_self, if_pos (by simp)]
    · rw [update_of_ne hne]
      simp [hne]

/-- A step of the second loop of `rollback_snapshot`. -/
theorem restorePass_refines {type : UInt32} (ht : type = nodeDir ∨ type = nodeFile)
    (h : V.Inv s) (hi : i.val < g.maxNodes) :
    V.RefinesSlot i (restorePass type i s) fun f => (V.tree s).restorePass g f (kindOf type) i := by
  have hn := valid_iff.mp (h.sound.valid i)
  unfold restorePass
  by_cases hs : (s.vol.nodes i).snapshotActive = 0
  · have hsnap : ((V.tree s).entry i).snap = none := V.snap_of_inactive hs
    rw [if_pos hs]
    refine V.refinesSlot_self h ?_
    simp only [Tree.restorePass, hsnap, Option.any_none, Bool.false_eq_true, if_false]
  rw [if_neg hs]
  have hsnap : ((V.tree s).entry i).snap = some _ := V.snap_of_active hs
  have hkind : kindOf (s.vol.nodes i).snapshotType = kindOf type ↔
      (s.vol.nodes i).snapshotType = type := by
    rcases hn.snapshotType hs with h1 | h1 <;> rcases ht with rfl | rfl <;> rw [h1] <;> decide
  by_cases hty : (s.vol.nodes i).snapshotType = type
  · rw [if_pos hty]
    obtain ⟨hinv, f, hf, heq⟩ := V.restoreSnapshotNode_refines h hi
    have hpass : (V.tree s).restorePass g f (kindOf type) i =
        (if ((V.tree s).restoreEntry g f i).1 = .ok then .ok else .io,
          ((V.tree s).restoreEntry g f i).2) := by
      rw [Tree.restorePass, if_pos]
      rw [hsnap]
      simpa using hkind.mpr hty
    refine ⟨hinv, f, ?_, ?_⟩
    · rcases hf with rfl | ⟨rfl, hrel, hst⟩
      · exact .inl rfl
      · exact .inr ⟨rfl, hrel, by simp [hst]⟩
    · dsimp only at heq ⊢
      rw [hpass, ← heq]
  · rw [if_neg hty]
    refine V.refinesSlot_self h ?_
    rw [Tree.restorePass, if_neg]
    rw [hsnap]
    simpa using fun hk => hty (hkind.mp hk)

/-- Only a fault in its slot matters to a step of the second loop. -/
theorem restorePass_fault (k : Kind) (f : Fault) (i : Fin 64) (t : Tree β) (hf : f ≠ .data i) :
    t.restorePass g f k i = t.restorePass g .none k i := by
  simp only [Tree.restorePass, restoreEntry, hf, and_false, if_false, reduceCtorEq]

/-- Restoring directories is not affected by faults. -/
theorem restorePass_dir_fault (f : Fault) (i : Fin 64) (t : Tree β) :
    t.restorePass g f .dir i = t.restorePass g .none .dir i := by
  unfold Tree.restorePass
  cases hs : (t.entry i).snap with
  | none => rfl
  | some c =>
    by_cases hk : c.kind = .dir
    · simp [restoreEntry, hs, hk]
    · simp [hk]

/-- **`rollback_snapshot` refines the tree operation.** -/
theorem rollbackSnapshot_refines (h : V.Inv s) :
    V.Refines (rollbackSnapshot s) fun f => (V.tree s).rollback g f := by
  have hgeo := h.geo
  subst hgeo
  -- the first loop
  obtain ⟨hsound, hgen, hcom, hnodes⟩ :=
    discard_spec (nodup_slots s.geo) (fun i hi => mem_slots.mp hi) h.sound
  set kept : Fs D := { s with vol := (slots s.geo).foldl (discardSlot s.geo) s.vol } with hkept
  have hinv0 : V.Inv kept := ⟨rfl, h.writable, hsound, h.good⟩
  have htree0 : V.tree kept = (V.tree s).discard := by
    refine Tree.ext (funext fun j => ?_) hgen hcom
    change V.entry s.dev (((slots s.geo).foldl (discardSlot s.geo) s.vol).nodes j) =
      keepEntry s.vol.committedGeneration (V.entry s.dev (s.vol.nodes j))
    rw [hnodes, ← V.entry_discardNode]
    split
    · rfl
    · rename_i hj
      rw [h.sound.within.nodes j (by rw [mem_slots] at hj; omega)]
      rfl
  -- the directories
  obtain ⟨hinv1, f1, hf1, heq1⟩ := V.forEach_refines (fun f => Tree.restorePass s.geo f .dir)
    (nodup_slots s.geo) (restorePass_fault .dir)
    (fun i hi s h => V.restorePass_refines (.inl rfl) h (mem_slots.mp hi)) hinv0
  -- the files
  obtain ⟨hinv2, f2, hf2, heq2⟩ := V.forEach_refines (fun f => Tree.restorePass s.geo f .file)
    (nodup_slots s.geo) (restorePass_fault .file)
    (fun i hi s h => V.restorePass_refines (.inr rfl) h (mem_slots.mp hi)) hinv1
  have hdir : ∀ f, (Tree.restorePass s.geo f .dir : Fin 64 → Tree β → Status × Tree β) =
      Tree.restorePass s.geo f1 .dir := by
    intro f
    funext i t
    rw [restorePass_dir_fault f, restorePass_dir_fault f1]
  unfold rollbackSnapshot
  rw [if_neg (by simp [h.writable])]
  simp only [← hkept]
  rw [htree0] at heq1
  generalize forEach .ok (restorePass nodeDir) (slots s.geo) kept = r1
    at hinv1 hf1 heq1 hinv2 hf2 heq2 ⊢
  by_cases hok1 : r1.1 = .ok
  swap
  · rw [if_pos hok1]
    refine ⟨hinv1, f1, fun hrel => hf1.resolve_right fun hf => hf.2.1 hrel, ?_⟩
    dsimp only [rollback]
    rw [← heq1, if_pos hok1]
  rw [if_neg (not_not.mpr hok1)]
  generalize forEach .ok (restorePass nodeFile) (slots s.geo) r1.2 = r2 at hinv2 hf2 heq2 ⊢
  by_cases hok2 : r2.1 = .ok
  swap
  · rw [if_pos hok2]
    refine ⟨hinv2, f2, fun hrel => hf2.resolve_right fun hf => hf.2.1 hrel, ?_⟩
    dsimp only [rollback]
    rw [hdir f2, ← heq1, if_neg (not_not.mpr hok1)]
    rw [← heq2, if_pos hok2]
  · obtain rfl : f2 = .none := hf2.resolve_right fun hf => hf.2.2 hok2
    rw [if_neg (not_not.mpr hok2)]
    refine V.refines_writeMetadata
      ⟨hinv2.geo, hinv2.writable, hinv2.sound.congr rfl rfl, hinv2.good⟩ fun f hf => ?_
    dsimp only [Tree.rollback]
    rw [hdir, ← heq1, if_neg (not_not.mpr hok1)]
    rw [forEach_fault (fun f => Tree.restorePass s.geo f .file) (restorePass_fault .file) hf,
      ← heq2, if_neg (not_not.mpr hok2)]
    rfl

end View

end Xaios.MutableFs
