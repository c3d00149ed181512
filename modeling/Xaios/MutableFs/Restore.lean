import Xaios.MutableFs.Room
import Xaios.MutableFs.Versions

/-!
# Going back to the committed tree

What a rollback brings back, as the set of the active paths with their types and
bytes (`MutableFs.Fs.listing`).

After a commit the snapshots are the live versions. The operations that follow
leave the snapshots alone, but a slot has one path for both of its versions:
`rename` moves the snapshot along with the file, and a rollback then brings the
file back under its new name. In every run without such a rename the rollback
restores the listing of the commit (`MutableFs.rollback_restores`).

A commit that fails at a file has given up the old snapshot of it before it could copy
the new one, and a rollback leaves the file without its bytes. A commit that fails
with the metadata has made all copies, and a rollback gives the tree of this commit
(`MutableFs.hasTree_of_commit_rollback`).
-/

namespace Xaios.MutableFs

open Foundation BlockDevice Function View MutableFs.Tree List

variable {D β : Type}

/-! ### Since a commit -/

namespace Tree

/-- **A tree some time after the commit that left `a`**: the snapshots are the
ones of `a` and under their names, and a version without a snapshot is from
after the commit. -/
structure Since (a t : Tree β) : Prop where
  committed_le : t.committed ≤ t.generation
  snap : ∀ i, (t.entry i).snap = (a.entry i).snap
  name : ∀ i, (a.entry i).snap.isSome → (t.entry i).name = (a.entry i).name
  recent : ∀ i c, (t.entry i).snap = none → (t.entry i).live = some c → t.committed ≤ c.generation

variable {g : Geometry} {f : Fault} {a t : Tree β}

/-- One entry is replaced and a generation number handed out. -/
theorem Since.setEntry (h : a.Since t) (hgen : t.generation.toNat + 1 < 2 ^ 64) {i : Fin 64}
    {e : Entry β} (hsnap : e.snap = (t.entry i).snap)
    (hname : e.snap.isSome → e.name = (t.entry i).name)
    (hrecent : ∀ c, e.snap = none → e.live = some c → t.committed ≤ c.generation) :
    a.Since { t.setEntry i e with generation := t.generation + 1 } where
  committed_le := le_add_one_of_le h.committed_le hgen
  snap := (forall_update_iff t.entry fun j e => e.snap = (a.entry j).snap).mpr
    ⟨hsnap.trans (h.snap i), fun j _ => h.snap j⟩
  name := (forall_update_iff t.entry fun j e =>
    (a.entry j).snap.isSome → e.name = (a.entry j).name).mpr
    ⟨fun hi => (hname (by rwa [hsnap, h.snap])).trans (h.name i hi), fun j _ => h.name j⟩
  recent := (forall_update_iff t.entry fun _ e =>
    ∀ c, e.snap = none → e.live = some c → t.committed ≤ c.generation).mpr
    ⟨hrecent, fun j _ => h.recent j⟩

variable [Inhabited β]

/-- **A commit that succeeds**: the snapshots are the live versions, under their
names, and the tree is one since the commit. -/
theorem since_commit (hout : ∀ i, i ∉ slots g → (t.entry i).live = none ∧ (t.entry i).snap = none)
    (hok : (t.commit g f).1 = .ok) :
    (t.commit g f).2.Since (t.commit g f).2 ∧
      ∀ i, ((t.commit g f).2.entry i).snap = (t.entry i).live ∧
        ((t.commit g f).2.entry i).name = (t.entry i).name := by
  have hent := commit_entry_of_ok hout hok
  refine ⟨⟨?_, fun _ => rfl, fun _ _ => rfl, fun i c hs hl => ?_⟩, fun i => ?_⟩
  · obtain ⟨hgen, ⟨-, hcom, -⟩ | ⟨herr, -⟩⟩ := commit_entries g f t
    · exact UInt64.le_of_eq (hcom.trans hgen.symm)
    · exact absurd hok herr
  · -- everything live is in the snapshot
    rw [hent i] at hs hl
    exact absurd (hs.symm.trans hl) (by simp)
  · rw [hent i]
    exact ⟨rfl, rfl⟩

/-- **An operation that does not rename a snapshot** keeps the tree one since the
commit. -/
theorem Since.effect (h : a.Since t) {o : TreeOp β} {r : Status × Tree β} (he : Effect g f t o r)
    (hgen : t.generation.toNat + 1 < 2 ^ 64)
    (hrename : ∀ oldPath newPath i, o = .rename oldPath newPath →
      t.find g oldPath false = some i → (t.entry i).snap = none) : a.Since r.2 := by
  -- a version put into a slot with a snapshot has the path of the snapshot
  have hplace : ∀ {i path} {c : Version β}, t.SlotFor g path i → c.generation = t.generation →
      a.Since (t.place i path c) := by
    intro i path c hslot hc
    refine h.setEntry hgen rfl (fun hs => (hslot.name_eq (.inr hs)).symm) fun c' _ hc' => ?_
    cases hc'
    rw [hc]
    exact h.committed_le
  cases he with
  | refused | present => exact h
  | mkdir hpath hparent hslot hlive => exact hplace hslot rfl
  | write hpath hparent hsize hslot hlive => exact hplace hslot rfl
  | delete hfind hempty => exact h.setEntry hgen rfl (fun _ => rfl) nofun
  | @rename oldPath newPath i hpath hparent hfind hnew hempty =>
    have hnone : (t.entry i).snap = none := hrename oldPath newPath i rfl hfind
    refine h.setEntry hgen rfl (fun hs => absurd hs (by simp [hnone])) fun c _ hc => ?_
    obtain ⟨c', -, rfl⟩ := Option.map_eq_some_iff.mp hc
    exact h.committed_le

/-- **A rollback that succeeds brings back the snapshots of the commit.** -/
theorem Since.rollback (h : a.Since t) (hout : ∀ i, i ∉ slots g → (a.entry i).snap = none)
    (hok : (t.rollback g f).1 = .ok) (i : Fin 64) :
    ((t.rollback g f).2.entry i).live = (a.entry i).snap ∧
      ((a.entry i).snap.isSome → ((t.rollback g f).2.entry i).name = (a.entry i).name) := by
  obtain ⟨-, ⟨-, -, hent⟩ | ⟨herr, -⟩⟩ := rollback_entries g f t
  · rw [hent i]
    cases hs : (a.entry i).snap with
    | none =>
      have hs' : (t.entry i).snap = none := by rw [h.snap, hs]
      -- what is live is from after the commit and goes
      have hlive := live_keepEntry hs' fun c => h.recent i c hs'
      split
      · simpa [Entry.restored, hs'] using hlive
      · simpa using hlive
    | some c =>
      have hs' : (t.entry i).snap = some c := by rw [h.snap, hs]
      have hi : i ∈ slots g := by
        by_contra hi
        simp [hout i hi] at hs
      rw [if_pos hi]
      simpa [Entry.restored, hs'] using h.name i (by simp [hs])
  · exact absurd hok herr

end Tree

/-! ### Listings -/

/-- The bytes of the live version of a node: what its blocks hold, cut at its
size, and nothing when the blocks do not reach the size. -/
def Node.stored [HonestDevice 512 D] (d : D) (n : Node) : Option (List UInt8) :=
  if n.size.toNat ≤ 512 * n.liveBlocks.length then some (fileBytes d n.liveBlocks n.size.toNat)
  else none

/-- **The active paths with their types and bytes.** -/
def Fs.listing [HonestDevice 512 D] (s : Fs D) : Set (CString × UInt32 × Option (List UInt8)) :=
  {x | ∃ i, (s.vol.nodes i).active ≠ 0 ∧
    x = ((s.vol.nodes i).name, (s.vol.nodes i).type, (s.vol.nodes i).stored s.dev)}

/-- The tree of the volume is this set of paths with types and bytes: all of it
is there, and every file can be read. -/
def Fs.HasTree [HonestDevice 512 D] (s : Fs D) (S : Set (CString × UInt32 × List UInt8)) : Prop :=
  s.listing = (fun x => (x.1, x.2.1, some x.2.2)) '' S

/-- The type word of a kind. -/
def Kind.word : Kind → UInt32
  | dir => nodeDir
  | file => nodeFile

theorem word_kindOf {type : UInt32} (h : type = nodeDir ∨ type = nodeFile) :
    (kindOf type).word = type := by
  rcases h with rfl | rfl <;> decide

/-- The bytes of a version, as `MutableFs.Node.stored` has them. -/
def Version.stored (c : Version (List UInt8)) : Option (List UInt8) :=
  if c.size.toNat ≤ 512 * c.blocks then some c.contents else none

/-- What the listing says of one slot. -/
def Tree.listed (t : Tree (List UInt8)) (i : Fin 64) :
    Option (CString × UInt32 × Option (List UInt8)) :=
  (t.entry i).live.map fun c => ((t.entry i).name, c.kind.word, c.stored)

section Honest

variable [HonestDevice 512 D]

/-- The listing, read off the tree. -/
theorem mem_listing {s : Fs D} (h : (View.bytes D).Inv s)
    {x : CString × UInt32 × Option (List UInt8)} :
    x ∈ s.listing ↔ ∃ i, ((View.bytes D).tree s).listed i = some x := by
  refine exists_congr fun i => ?_
  have hvalid := Node.valid_iff.mp (h.sound.valid i)
  change _ ↔ (((bytes D).live s.dev (s.vol.nodes i)).map fun c =>
    ((s.vol.nodes i).name, c.kind.word, c.stored)) = some x
  rcases eq_or_ne (s.vol.nodes i).active 0 with ha | ha
  · simp [ha, (bytes D).live_of_inactive ha]
  · rw [(bytes D).live_of_active ha, Option.map_some, word_kindOf (hvalid.type ha),
      Option.some.injEq, eq_comm]
    exact and_iff_right ha

/-- The listing is a matter of the live versions and their names. -/
theorem listing_congr {s u : Fs D} (hs : (View.bytes D).Inv s) (hu : (View.bytes D).Inv u)
    (hlive : ∀ i, (((View.bytes D).tree u).entry i).live = (((View.bytes D).tree s).entry i).live)
    (hname : ∀ i, (((View.bytes D).tree s).entry i).live.isSome →
      (((View.bytes D).tree u).entry i).name = (((View.bytes D).tree s).entry i).name) :
    u.listing = s.listing := by
  ext x
  rw [mem_listing hu, mem_listing hs]
  refine exists_congr fun i => ?_
  rw [listed, listed, hlive i]
  cases hc : (((bytes D).tree s).entry i).live with
  | none => rfl
  | some c => rw [Option.map_some, Option.map_some, hname i (by simp [hc])]

/-! ### Rolling back -/

/-- A call between a commit and a rollback that leaves the paths of the snapshot
alone: it does not rename a node that is in the snapshot, and it is not another
commit or rollback. -/
def Call.KeepsSnapshot (s : Fs D) : Call → Prop
  | .op .commit => False
  | .op .rollback => False
  | .op (.rename oldPath _) => ∀ i, s.vol.findNode s.geo oldPath false = some i →
      (s.vol.nodes i).snapshotActive = 0
  | _ => True

/-- Such a call while the generation numbers, of which it may take two, do not run
out. -/
def SnapshotStep (s : Fs D) (c : Call) : Prop :=
  c.KeepsSnapshot s ∧ s.vol.generation.toNat + 2 < 2 ^ 64

/-- A write keeps the tree one since the commit and hands out at most one generation
number. -/
theorem since_wrote {a t t' : Tree (List UInt8)} (h : a.Since t)
    (hgen : t.generation.toNat + 1 < 2 ^ 64) (hw : (View.bytes D).Wrote t t') :
    a.Since t' ∧ t'.generation.toNat ≤ t.generation.toNat + 1 := by
  rcases hw with rfl | ⟨f, path, size, hash, contents, -, rfl⟩
  · exact ⟨h, Nat.le_succ _⟩
  · have he : Effect .v2 f t (.write path size hash contents)
        (t.write .v2 f path size hash contents) := write_effect path size hash contents
    refine ⟨h.effect he hgen nofun, ?_⟩
    rcases he.generation with hg | hg
    · rw [hg]
      exact Nat.le_succ _
    · rw [hg, UInt64.toNat_add]
      exact Nat.mod_le _ _

/-- **One call keeps the tree one since the commit.** -/
theorem since_call {a : Tree (List UInt8)} {s : Fs D} (hinv : (View.bytes D).Inv s)
    (h : a.Since ((View.bytes D).tree s)) {c : Call} (hc : SnapshotStep s c) :
    (View.bytes D).Inv (c.exec s) ∧ a.Since ((View.bytes D).tree (c.exec s)) := by
  obtain ⟨hkeep, hgen⟩ := hc
  have hgen' : ((bytes D).tree s).generation.toNat + 2 < 2 ^ 64 := hgen
  obtain ⟨hinv', ⟨o, rfl⟩ | ⟨t, hw₁, hw₂⟩⟩ := (bytes D).call_spec hinv c
  · refine ⟨hinv', ?_⟩
    obtain ⟨-, f, -, heq⟩ := (bytes D).exec_refines hinv o
    have hcommit : (bytes D).op o ≠ .commit := by
      rintro ho
      cases o <;> cases ho
      exact hkeep
    have hrollback : (bytes D).op o ≠ .rollback := by
      rintro ho
      cases o <;> cases ho
      exact hkeep
    have he := exec_effect (g := .v2) (f := f) (t := (bytes D).tree s) hcommit hrollback
    dsimp only at heq
    rw [← heq] at he
    refine h.effect he (by omega) fun oldPath newPath i ho hfind => ?_
    -- the node that is renamed is not in the snapshot
    cases o <;> cases ho
    rw [find_tree] at hfind
    rw [← hinv.geo] at hfind
    exact (bytes D).snap_of_inactive (hkeep i hfind)
  · obtain ⟨h₁, hle⟩ := since_wrote h (by omega) hw₁
    exact ⟨hinv', (since_wrote h₁ (by omega) hw₂).1⟩

/-- **A rollback restores the committed tree.** In the version 2 geometry on an
honest device: after any run of calls a commit succeeds, and then come calls
that rename no node of the snapshot; if a rollback then succeeds, the active
paths with their types and bytes are those of the commit. -/
theorem rollback_restores (s : Fs D) (hgeo : s.geo = .v2) (cs₁ cs₂ : List Call)
    (hcommit : (commitSnapshot (runCalls (formatted s) cs₁)).1 = .ok)
    (hsteps : Along Call.exec SnapshotStep (commitSnapshot (runCalls (formatted s) cs₁)).2 cs₂)
    (hrollback :
      (rollbackSnapshot (runCalls (commitSnapshot (runCalls (formatted s) cs₁)).2 cs₂)).1 = .ok) :
    (rollbackSnapshot (runCalls (commitSnapshot (runCalls (formatted s) cs₁)).2 cs₂)).2.listing =
      (runCalls (formatted s) cs₁).listing := by
  have hinv := (bytes D).inv_runCalls ((bytes D).inv_formatted hgeo trivial) cs₁
  generalize runCalls (formatted s) cs₁ = u at *
  -- the commit: the snapshots are the live versions
  obtain ⟨hinvc, f, -, heq⟩ := (bytes D).commitSnapshot_refines hinv
  dsimp only at heq
  have hsince := since_commit ((bytes D).sized_tree hinv.sound).outside
    ((congrArg Prod.fst heq).symm.trans hcommit)
  rw [← heq] at hsince
  obtain ⟨hsince, hcommitted⟩ := hsince
  generalize (commitSnapshot u).2 = c at *
  -- the calls: the tree stays one since the commit
  obtain ⟨hinvr, hsince⟩ := hsteps.foldl_induct
    (I := fun x => (bytes D).Inv x ∧ ((bytes D).tree c).Since ((bytes D).tree x))
    ⟨hinvc, hsince⟩ fun x d hx hd => since_call hx.1 hx.2 hd
  change (bytes D).Inv (runCalls c cs₂) at hinvr
  change ((bytes D).tree c).Since ((bytes D).tree (runCalls c cs₂)) at hsince
  generalize runCalls c cs₂ = r at *
  -- the rollback: the snapshots are live again
  obtain ⟨hinvb, f', -, heq'⟩ := (bytes D).rollbackSnapshot_refines hinvr
  dsimp only at heq'
  have hback := hsince.rollback
    (fun i hi => (((bytes D).sized_tree hinvc.sound).outside i hi).2)
    ((congrArg Prod.fst heq').symm.trans hrollback)
  rw [← heq'] at hback
  refine listing_congr hinv hinvb (fun i => (hback i).1.trans (hcommitted i).1) fun i hi => ?_
  rw [← (hcommitted i).1] at hi
  exact ((hback i).2 hi).trans (hcommitted i).2

end Honest

/-- A file is committed and deleted, and the rollback has it back. -/
theorem rollback_restores_deleted :
    (rollbackSnapshot (runCalls
        (commitSnapshot (runCalls blankFs [.op (.write pathA [7])])).2
        [.op (.delete pathA)])).2.listing =
      (runCalls blankFs [.op (.write pathA [7])]).listing := by
  have h : (commitSnapshot (runCalls blankFs [.op (.write pathA [7])])).1 =
      .ok ∧ (commitSnapshot (runCalls blankFs
        [.op (.write pathA [7])])).2.vol.generation.toNat + 2 < 2 ^ 64 ∧
      (rollbackSnapshot (runCalls
        (commitSnapshot (runCalls blankFs [.op (.write pathA [7])])).2
        [.op (.delete pathA)])).1 = .ok := by
    decide +kernel
  exact rollback_restores _ rfl _ _ h.1 ⟨⟨trivial, h.2.1⟩, trivial⟩ h.2.2

/-- **A rollback that brings a file back under another name**: it was renamed after
the commit, and at the path of the commit there is nothing. -/
theorem rollback_of_renamed :
    (commitSnapshot (runOps blankFs [.write pathA []])).1 = .ok ∧
      (rollbackSnapshot (runOps blankFs [.write pathA [], .commit,
        .rename pathA pathB])).1 = .ok ∧
      (pathA, nodeFile, some []) ∈
        (runOps blankFs [.write pathA []]).listing ∧
      ∀ x ∈ (runOps blankFs [.write pathA [], .commit,
        .rename pathA pathB, .rollback]).listing,
        x.1 ≠ pathA := by
  refine ⟨by decide +kernel, by decide +kernel, ⟨0, by decide +kernel⟩, ?_⟩
  rintro x ⟨i, hi, rfl⟩
  revert i
  decide +kernel

/-! ### After a failed commit -/

/-- All versions of a run are covered. -/
theorem View.covered_runCalls [BlockDevice 512 D] [Inhabited β] {g : Geometry} (V : View D g β)
    {s : Fs D} (h : V.Inv s) (hc : (V.tree s).All Version.Covered) (cs : List Call) :
    (V.tree (runCalls s cs)).All Version.Covered := by
  have hwrote : ∀ t t' : Tree β, V.Wrote t t' → t.All Version.Covered → t'.All Version.Covered := by
    rintro t t' (rfl | ⟨f, path, size, hash, contents, -, rfl⟩) ht
    · exact ht
    · exact covered_exec ht (.write path size hash contents)
  induction cs generalizing s with
  | nil => exact hc
  | cons c cs ih =>
    obtain ⟨hinv, ⟨o, rfl⟩ | ⟨t, hw₁, hw₂⟩⟩ := V.call_spec h c
    · obtain ⟨-, f, -, heq⟩ := V.exec_refines h o
      have hstep := covered_exec (g := g) (f := f) hc (V.op o)
      dsimp only at heq
      rw [← heq] at hstep
      exact ih hinv hstep
    · exact ih hinv (hwrote _ _ hw₂ (hwrote _ _ hw₁ hc))

/-- **What the loop of a commit leaves**: all snapshots are the live versions, or there is a
hollow one of a file with blocks. -/
theorem View.commitLoop_entries [BlockDevice 512 D] [Inhabited β] {g : Geometry} (V : View D g β)
    {u : Fs D} (h : V.Inv u) :
    V.Inv (forEach .ok commitSlot (slots g) u).2 ∧
      ((forEach .ok commitSlot (slots g) u).1 = .ok ∧
          (∀ j, (V.tree (forEach .ok commitSlot (slots g) u).2).entry j =
            if j ∈ slots g then ((V.tree u).entry j).committed else (V.tree u).entry j) ∨
        (forEach .ok commitSlot (slots g) u).1 ≠ .ok ∧
          ∃ k ∈ slots g, ∃ c, ((V.tree u).entry k).live = some c ∧ 0 < c.blocks ∧
            ((V.tree (forEach .ok commitSlot (slots g) u).2).entry k).snap = some c.hollow) := by
  obtain ⟨hinv, f, -, heq⟩ := V.forEach_refines (commitEntry g) (nodup_slots g) commitEntry_fault
    (fun i hi s h => V.commitSlot_refines h (mem_slots.mp hi)) h
  obtain ⟨hst, htree⟩ := Prod.ext_iff.mp heq
  dsimp only at hst htree
  refine ⟨hinv, ?_⟩
  rw [hst, htree]
  obtain ⟨-, -, hok | ⟨pre, k, post, hsl, herr, ⟨t, ht, hk⟩, hent⟩⟩ :=
    forEach_local (F := commitEntry g f) commitEntry_local (nodup_slots g) (V.tree u)
  · exact .inl hok
  · obtain ⟨c, hc, -, hpos⟩ := kind_of_commitEntry_err (hk.trans_ne herr)
    rw [ht] at hc
    have hnd := nodup_slots g
    rw [hsl] at hnd
    have hkpre : k ∉ pre := fun h => (nodup_append.mp hnd).2.2 k h k (by simp) rfl
    refine .inr ⟨herr, k, by simp [hsl], c, hc, hpos, ?_⟩
    rw [hent k, if_neg hkpre, if_pos rfl, Entry.spoiltSnap, hc]
    rfl

theorem Tree.keepEntry_of_live_none {n : UInt64} {e : Entry β} (h : e.live = none) :
    keepEntry n e = e := by
  simp [keepEntry, h]

/-- A rollback to the live versions changes nothing. -/
theorem Entry.restored_committed (n : UInt64) (e : Entry β) :
    e.committed.restored n = e.committed := by
  rw [Entry.restored]
  split
  · rfl
  · next h => exact keepEntry_of_live_none (Option.not_isSome_iff_eq_none.mp h)

/-- A rollback that succeeds makes the snapshots live. -/
theorem View.entry_rollback [BlockDevice 512 D] [Inhabited β] {g : Geometry} (V : View D g β)
    {v : Fs D} (h : V.Inv v) (hok : (rollbackSnapshot v).1 = .ok) (j : Fin 64) :
    (V.tree (rollbackSnapshot v).2).entry j = if j ∈ slots g then
      ((V.tree v).entry j).restored (V.tree v).committed
        else keepEntry (V.tree v).committed ((V.tree v).entry j) := by
  obtain ⟨-, f, -, heq⟩ := V.rollbackSnapshot_refines h
  obtain ⟨hst, htree⟩ := Prod.ext_iff.mp heq
  dsimp only at hst htree
  obtain ⟨-, ⟨-, -, hent⟩ | ⟨herr, -⟩⟩ := rollback_entries g f (V.tree v)
  · rw [htree, hent j]
  · exact absurd (hst.symm.trans hok) herr

/-- A file with a size and no blocks has lost its bytes. -/
theorem not_hasTree_of_hollow [HonestDevice 512 D] {g : Geometry} (V : View D g Unit) {w : Fs D}
    {k : Fin 64} {c : Version Unit} (hpos : 0 < c.blocks) (hcovered : c.Covered)
    (hlive : ((V.tree w).entry k).live = some c.hollow) (S : Set (CString × UInt32 × List UInt8)) :
    ¬w.HasTree S := by
  change V.live w.dev (w.vol.nodes k) = some c.hollow at hlive
  rcases eq_or_ne (w.vol.nodes k).active 0 with ha | ha
  · rw [V.live_of_inactive ha] at hlive
    cases hlive
  rw [V.live_of_active ha] at hlive
  have hversion := Option.some.inj hlive
  have hsize : (w.vol.nodes k).size = c.size := congrArg Version.size hversion
  have hblocks : (w.vol.nodes k).liveBlocks.length = 0 := congrArg Version.blocks hversion
  have hsizepos : 0 < c.size.toNat := by
    rcases hcovered with h0 | hb
    · omega
    · by_contra h0
      rw [Nat.eq_zero_of_not_pos h0] at hb
      exact absurd hpos (by rw [hb]; decide)
  have hlost : ((w.vol.nodes k).name, (w.vol.nodes k).type, none) ∈ w.listing := by
    refine ⟨k, ha, ?_⟩
    rw [Node.stored, hsize, hblocks, if_neg (by omega)]
  intro htree
  rw [htree] at hlost
  obtain ⟨x, -, hx⟩ := hlost
  simp at hx

/-- **A commit, also a failed one, and a rollback.** On every honest device, whatever requests
it refuses, and after every run of calls: if a rollback succeeds right after a commit, the
volume has the tree of a snapshot at most if the commit has made all its copies, so that it can
only have failed with the metadata. In the version 2 geometry, where the metadata is not on the
blocks of files, the tree is then the one of this commit, and no other. -/
theorem hasTree_of_commit_rollback [HonestDevice 512 D] (s : Fs D) (cs : List Call)
    (hok : (rollbackSnapshot (commitSnapshot (runCalls (formatted s) cs)).2).1 = .ok)
    (S : Set (CString × UInt32 × List UInt8)) :
    let u := runCalls (formatted s) cs
    let copied := (forEach .ok commitSlot (slots s.geo) u).1 = .ok
    ((rollbackSnapshot (commitSnapshot u).2).2.HasTree S → copied) ∧
      (s.geo = .v2 →
        ((rollbackSnapshot (commitSnapshot u).2).2.HasTree S ↔ copied ∧ u.HasTree S)) := by
  have hinv₀ : (names D s.geo).Inv (formatted s) := (names D s.geo).inv_formatted rfl trivial
  have hinv := (names D s.geo).inv_runCalls hinv₀ cs
  have hcov := (names D s.geo).covered_runCalls hinv₀
    (by rw [(names D s.geo).tree_formatted]; exact all_fresh) cs
  have hbytes : s.geo = .v2 → (bytes D).Inv (runCalls (formatted s) cs) := fun hgeo =>
    (bytes D).inv_runCalls ((bytes D).inv_formatted hgeo trivial) cs
  generalize runCalls (formatted s) cs = u at *
  have hgeo : u.geo = s.geo := hinv.geo
  have hcommit : commitSnapshot u = if (forEach .ok commitSlot (slots s.geo) u).1 ≠ .ok then
      forEach .ok commitSlot (slots s.geo) u
    else writeMetadata { (forEach .ok commitSlot (slots s.geo) u).2 with
      vol := { (forEach .ok commitSlot (slots s.geo) u).2.vol with
        committedGeneration := (forEach .ok commitSlot (slots s.geo) u).2.vol.generation } } := by
    rw [commitSnapshot, if_neg (by simp [hinv.writable]), hgeo]
  have hcopied : (rollbackSnapshot (commitSnapshot u).2).2.HasTree S →
      (forEach .ok commitSlot (slots s.geo) u).1 = .ok := by
    intro htree
    obtain ⟨hinvl, ⟨hloop, -⟩ | ⟨hloop, k, hk, c, hc, hpos, hsnap⟩⟩ :=
      (names D s.geo).commitLoop_entries hinv
    · exact hloop
    -- the commit failed at the file in slot `k`, and the rollback makes its hollow snapshot live
    · rw [if_pos hloop] at hcommit
      rw [hcommit] at hok htree
      have hentry := (names D s.geo).entry_rollback hinvl hok k
      rw [if_pos hk] at hentry
      have hlive : (((names D s.geo).tree (rollbackSnapshot (forEach .ok commitSlot (slots s.geo)
          u).2).2).entry k).live = some c.hollow := by
        rw [hentry]
        simp [Entry.restored, hsnap]
      exact absurd htree (not_hasTree_of_hollow _ hpos ((hcov k).live c hc) hlive S)
  refine ⟨hcopied, fun hv2 => ?_⟩
  have hback : (forEach .ok commitSlot (slots s.geo) u).1 = .ok →
      (rollbackSnapshot (commitSnapshot u).2).2.listing = u.listing := by
    intro hloop
    rw [if_neg (not_not.mpr hloop)] at hcommit
    rw [hcommit] at hok ⊢
    rw [hv2] at hok hloop hgeo ⊢
    have hinvu := hbytes hv2
    obtain ⟨hinvl, ⟨-, hent⟩ | ⟨hne, -⟩⟩ := (bytes D).commitLoop_entries hinvu
    swap
    · exact absurd hloop hne
    generalize (forEach .ok commitSlot (slots .v2) u).2 = l at *
    have hinvx : (bytes D).Inv { l with
        vol := { l.vol with committedGeneration := l.vol.generation } } :=
      ⟨hinvl.geo, hinvl.writable, hinvl.sound.congr rfl rfl, hinvl.good⟩
    have hinvc := (bytes D).inv_writeMetadata hinvx
    have htree := (bytes D).tree_writeMetadata hinvx.geo
    have hinvb := ((bytes D).rollbackSnapshot_refines hinvc).1
    -- every snapshot is the live version, and comes back as it was
    have hentry : ∀ j, ((bytes D).tree (rollbackSnapshot (writeMetadata { l with
        vol := { l.vol with committedGeneration := l.vol.generation } }).2).2).entry j =
          (((bytes D).tree u).entry j).committed := by
      intro j
      rw [(bytes D).entry_rollback hinvc hok j, htree]
      change (if j ∈ slots .v2 then (((bytes D).tree l).entry j).restored _
        else keepEntry _ (((bytes D).tree l).entry j)) = _
      rw [hent j]
      split
      · exact Entry.restored_committed _ _
      · next hj =>
        obtain ⟨hl, hs⟩ := ((bytes D).sized_tree hinvu.sound).outside j hj
        rw [keepEntry_of_live_none hl]
        exact Entry.ext rfl rfl (hs.trans hl.symm)
    refine listing_congr hinvu hinvb (fun j => ?_) fun j _ => ?_
    · rw [hentry j]
      rfl
    · rw [hentry j]
      rfl
  constructor
  · intro htree
    refine ⟨hcopied htree, ?_⟩
    rwa [Fs.HasTree, ← hback (hcopied htree)]
  · rintro ⟨hloop, htree⟩
    rwa [Fs.HasTree, hback hloop]

/-- A small file, to be committed. -/
def smallOps : List Op := [.write pathA (replicate 512 0)]

/-- Five large files are written, and the small one grows until one block is left.
There is no room for a second copy of it. -/
def crowdOps : List Op :=
  [.write pathB (replicate 8192 0), .write pathC (replicate 8192 0),
    .write pathD (replicate 8192 0), .write pathE (replicate 8192 0),
    .write pathF (replicate 8192 0), .write pathA (replicate 7168 0)]

/-- **A failed commit and a rollback that loses the committed bytes.** -/
theorem rollback_of_failed_commit :
    (commitSnapshot (runOps blankFs smallOps)).1 = .ok ∧
      (commitSnapshot (runOps blankFs (smallOps ++ .commit :: crowdOps))).1 = .noMemory ∧
      (rollbackSnapshot (runOps blankFs (smallOps ++ .commit :: crowdOps ++ [.commit]))).1 = .ok ∧
      (pathA, nodeFile, some (replicate 512 0)) ∈
        (runOps blankFs smallOps).listing ∧
      (pathA, nodeFile, none) ∈
        (runOps blankFs (smallOps ++ .commit :: crowdOps ++ [.commit, .rollback])).listing := by
  refine ⟨by decide +kernel, by decide +kernel, by decide +kernel, ⟨0, ?_⟩, ⟨0, ?_⟩⟩ <;>
    decide +kernel

/-- The tree of the first commit is not there. -/
theorem not_hasTree_crowdOps :
    (forEach .ok commitSlot (slots .v2) (runCalls blankFs
      ((smallOps ++ .commit :: crowdOps).map .op))).1 = .noMemory ∧
    ¬(rollbackSnapshot (commitSnapshot (runCalls blankFs
      ((smallOps ++ .commit :: crowdOps).map .op))).2).2.HasTree
      {(pathA, nodeFile, replicate 512 0)} := by
  have h : (rollbackSnapshot (commitSnapshot (runCalls blankFs
        ((smallOps ++ .commit :: crowdOps).map .op))).2).1 = .ok ∧
      (forEach .ok commitSlot (slots .v2) (runCalls blankFs
        ((smallOps ++ .commit :: crowdOps).map .op))).1 = .noMemory := by
    decide +kernel
  refine ⟨h.2, fun htree => ?_⟩
  have hloop := (hasTree_of_commit_rollback _ _ h.1 _).1 htree
  exact absurd (h.2.symm.trans hloop) (by decide)

end Xaios.MutableFs
