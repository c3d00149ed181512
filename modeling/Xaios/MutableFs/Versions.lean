import Xaios.MutableFs.TreeLoops
import Xaios.MutableFs.TreeSteps

/-!
# Properties of all versions

A property of versions that holds of what is created and that no operation can
destroy holds of every version in every run (`MutableFs.Tree.All`). Versions
are created by `mkdir` and `write`, get a new generation number from `rename`,
are copied by `commit` and `rollback`, and are hollowed when copying fails.
-/

namespace Xaios.MutableFs

open Foundation Function

variable {β : Type} {P : Version β → Prop}

/-- Both versions of an entry, where they are there, have a property. -/
structure Entry.All (P : Version β → Prop) (e : Entry β) : Prop where
  live : ∀ c, e.live = some c → P c
  snap : ∀ c, e.snap = some c → P c

/-- All versions of a tree have a property. -/
def Tree.All (P : Version β → Prop) (t : Tree β) : Prop := ∀ i, (t.entry i).All P

namespace Entry

variable {e : Entry β}

theorem All.committed (h : e.All P) : e.committed.All P := ⟨h.live, h.live⟩

theorem All.keepEntry (h : e.All P) (committed : UInt64) : (Tree.keepEntry committed e).All P := by
  unfold Tree.keepEntry
  split
  · exact ⟨nofun, h.snap⟩
  · exact h

theorem All.restored (h : e.All P) (committed : UInt64) : (e.restored committed).All P := by
  unfold Entry.restored
  split
  · exact ⟨h.snap, h.snap⟩
  · exact h.keepEntry committed

theorem All.restoredKind (h : e.All P) (k : Kind) : (e.restoredKind k).All P := by
  unfold Entry.restoredKind
  split
  · exact ⟨h.snap, h.snap⟩
  · exact h

variable [Inhabited β]

theorem All.spoiltSnap (h : e.All P) (hP : ∀ c, P c → P c.hollow) : e.spoiltSnap.All P := by
  refine ⟨h.live, fun c hc => ?_⟩
  obtain ⟨c', hc', rfl⟩ := Option.map_eq_some_iff.mp hc
  exact hP c' (h.live c' hc')

theorem All.spoiltLive (h : e.All P) (hP : ∀ c, P c → P c.hollow) : e.spoiltLive.All P := by
  refine ⟨fun c hc => ?_, h.snap⟩
  obtain ⟨c', hc', rfl⟩ := Option.map_eq_some_iff.mp hc
  exact hP c' (h.snap c' hc')

end Entry

namespace Tree

variable {g : Geometry} {f : Fault} {t : Tree β}

theorem All.setEntry (h : t.All P) {i : Fin 64} {e : Entry β} (he : e.All P) :
    (t.setEntry i e).All P :=
  (forall_update_iff t.entry fun _ e => e.All P).mpr ⟨he, fun j _ => h j⟩

theorem all_fresh : (Tree.fresh β).All P :=
  fun _ => ⟨nofun, nofun⟩

variable [Inhabited β]

/-- **An operation on live versions keeps a property of all versions** that holds of
the version it creates. -/
theorem All.effect (h : t.All P) {o : TreeOp β} {r : Status × Tree β} (he : Effect g f t o r)
    (hgen : ∀ c n, P c → P { c with generation := n })
    (hdir : ∀ n, P ⟨.dir, 0, 0, n, 0, default⟩)
    (hfile : ∀ path size hash contents n, o = .write path size hash contents →
      size ≤ g.maxFileBytes →
      P ⟨.file, UInt64.ofNat size, hash, n, blockCountForSize size, contents⟩) : r.2.All P := by
  -- a version put into a slot leaves the snapshot there
  have hplace : ∀ i path (c : Version β), P c → (t.place i path c).All P := by
    intro i path c hc
    exact h.setEntry ⟨fun c' hc' => by cases hc'; exact hc, (h i).snap⟩
  cases he with
  | refused | present => exact h
  | mkdir hpath hparent hslot hlive => exact hplace _ _ _ (hdir _)
  | write hpath hparent hsize hslot hlive => exact hplace _ _ _ (hfile _ _ _ _ _ rfl hsize)
  | @delete path i hfind hempty => exact h.setEntry ⟨nofun, (h i).snap⟩
  | @rename oldPath newPath i hpath hparent hfind hnew hempty =>
    refine h.setEntry ⟨fun c hc => ?_, (h i).snap⟩
    obtain ⟨c', hc', rfl⟩ := Option.map_eq_some_iff.mp hc
    exact hgen c' _ ((h i).live c' hc')

theorem All.commit (h : t.All P) (hP : ∀ c, P c → P c.hollow) : (t.commit g f).2.All P := by
  intro j
  obtain ⟨-, ⟨-, -, hent⟩ | ⟨-, -, pre, k, post, -, -, hent⟩⟩ := commit_entries g f t
  · rw [hent j]
    split
    · exact (h j).committed
    · exact h j
  · rw [hent j]
    split
    · exact (h j).committed
    · split
      · exact (h j).spoiltSnap hP
      · exact h j

theorem All.rollback (h : t.All P) (hP : ∀ c, P c → P c.hollow) : (t.rollback g f).2.All P := by
  intro j
  obtain ⟨-, ⟨-, -, hent⟩ | ⟨-, -, pre, k, post, -, -, hent⟩⟩ := rollback_entries g f t
  · rw [hent j]
    split
    · exact (h j).restored _
    · exact (h j).keepEntry _
  · rw [hent j]
    split
    · exact (h j).restored _
    · split
      · exact (h j).spoiltLive hP
      · split
        · exact ((h j).keepEntry _).restoredKind _
        · exact (h j).keepEntry _

/-- **Every operation keeps such a property** when hollowing does too. -/
theorem All.exec (h : t.All P) (o : TreeOp β) (hP : ∀ c, P c → P c.hollow)
    (hgen : ∀ c n, P c → P { c with generation := n })
    (hdir : ∀ n, P ⟨.dir, 0, 0, n, 0, default⟩)
    (hfile : ∀ path size hash contents n, o = .write path size hash contents →
      size ≤ g.maxFileBytes →
      P ⟨.file, UInt64.ofNat size, hash, n, blockCountForSize size, contents⟩) :
    (o.exec g f t).2.All P := by
  rcases eq_or_ne o .commit with rfl | hc
  · exact h.commit hP
  rcases eq_or_ne o .rollback with rfl | hr
  · exact h.rollback hP
  · exact h.effect (exec_effect hc hr) hgen hdir hfile

/-! ### Blocks and sizes -/

end Tree

/-- The blocks of the version hold its size, or there are none. -/
def Version.Covered (c : Version β) : Prop :=
  c.blocks = 0 ∨ c.blocks = blockCountForSize c.size.toNat

/-- A written file has the blocks its size needs. -/
theorem Version.covered_file {g : Geometry} {size : ℕ} (hsize : size ≤ g.maxFileBytes)
    (hash n : UInt64) (contents : β) :
    (⟨.file, UInt64.ofNat size, hash, n, blockCountForSize size, contents⟩ :
      Version β).Covered := by
  refine .inr ?_
  have hlt : size < 2 ^ 64 := by
    rw [g.maxFileBytes_eq] at hsize
    omega
  have htoNat : (UInt64.ofNat size).toNat = size := by
    rw [UInt64.toNat_ofNat']
    exact Nat.mod_eq_of_lt hlt
  rw [htoNat]

/-- Every operation keeps the versions covered. -/
theorem Tree.covered_exec [Inhabited β] {g : Geometry} {f : Fault} {t : Tree β}
    (h : t.All Version.Covered) (o : TreeOp β) : (o.exec g f t).2.All Version.Covered :=
  h.exec o (fun _ _ => .inl rfl) (fun _ _ hc => hc) (fun _ => .inl rfl)
    fun _ _ _ _ _ _ hsize => Version.covered_file hsize _ _ _

end Xaios.MutableFs
