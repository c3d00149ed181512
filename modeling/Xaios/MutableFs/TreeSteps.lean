import Xaios.MutableFs.Tree

/-!
# What the live operations do to the tree

One inversion lemma for `mkdir`, `write`, `delete` and `rename`: whatever they
answer, the tree is unchanged, or one version is put in a slot, taken away or
moved, and then the guards of the operation held (`MutableFs.Tree.Effect`,
`MutableFs.Tree.exec_effect`). The invariants of the name space are proved
from this and never look at the operations again.
-/

namespace Xaios.MutableFs

open Foundation List

variable {β : Type}

/-- An entry that `find_node` can see when it looks at snapshots too. -/
def Entry.Visible (e : Entry β) : Prop := e.live.isSome ∨ e.snap.isSome

/-- A generation number stays below the next ones, while there are any. -/
theorem le_add_one_of_le {x y : UInt64} (h : x ≤ y) (hy : y.toNat + 1 < 2 ^ 64) : x ≤ y + 1 := by
  rw [UInt64.le_iff_toNat_le] at h ⊢
  have hadd : (y + 1).toNat = y.toNat + 1 := by
    rw [UInt64.toNat_add]
    exact Nat.mod_eq_of_lt hy
  omega

namespace Tree

variable {g : Geometry} {f : Fault} {t : Tree β} {path : CString} {i : Fin 64}

/-! ### Searching -/

theorem of_find {b : Bool} (h : t.find g path b = some i) :
    i ∈ slots g ∧ (t.entry i).name = path ∧
      ((t.entry i).live.isSome ∨ b = true ∧ (t.entry i).snap.isSome) := by
  have hm := find?_some h
  simp only [Entry.isMatch, Bool.and_eq_true, Bool.or_eq_true, beq_iff_eq] at hm
  exact ⟨mem_of_find?_eq_some h, hm.2, hm.1⟩

/-- What is found without looking at snapshots is live. -/
theorem live_of_find (h : t.find g path false = some i) : ∃ c, (t.entry i).live = some c := by
  rcases (of_find h).2.2 with hl | ⟨hb, -⟩
  · exact Option.isSome_iff_exists.mp hl
  · exact absurd hb (by simp)

theorem of_find_none {b : Bool} (h : t.find g path b = none) {j : Fin 64} (hj : j ∈ slots g)
    (hv : (t.entry j).live.isSome ∨ b = true ∧ (t.entry j).snap.isSome) :
    (t.entry j).name ≠ path := by
  intro hname
  have hm := find?_eq_none.mp h j hj
  simp only [Entry.isMatch, Bool.and_eq_true, Bool.or_eq_true, beq_iff_eq] at hm
  exact hm ⟨hv, hname⟩

theorem of_findFree (h : t.findFree g = some i) :
    i ∈ slots g ∧ (t.entry i).live = none ∧ (t.entry i).snap = none := by
  have hm := find?_some h
  simp only [Bool.and_eq_true, Option.isNone_iff_eq_none] at hm
  exact ⟨mem_of_find?_eq_some h, hm⟩

theorem parentExistsFor_iff : t.parentExistsFor g path = true ↔
    parentPathOf path = rootPath ∨ ∃ i c, t.find g (parentPathOf path) false = some i ∧
      (t.entry i).live = some c ∧ c.kind = .dir := by
  unfold parentExistsFor
  split
  · rename_i h
    exact iff_of_true rfl (.inl h)
  · rename_i h
    cases hf : t.find g (parentPathOf path) false with
    | none => simp [h]
    | some i =>
      obtain ⟨c, hc⟩ := live_of_find hf
      simp [h, hc]

theorem of_hasActiveChildren (h : ¬t.hasActiveChildren g path = true) {j : Fin 64}
    (hj : j ∈ slots g) (hl : (t.entry j).live.isSome) : isBelow (t.entry j).name path = false := by
  rw [hasActiveChildren, any_eq_true] at h
  by_contra hb
  exact h ⟨j, hj, by simp [hl, hb]⟩

/-- The slot a new version for a path goes to: the one that has the path, live or
in the snapshot, or else a free one. -/
def SlotFor (g : Geometry) (t : Tree β) (path : CString) (i : Fin 64) : Prop :=
  t.find g path true = some i ∨ t.find g path true = none ∧ t.findFree g = some i

theorem SlotFor.mem (h : t.SlotFor g path i) : i ∈ slots g := by
  rcases h with h | ⟨-, h⟩
  · exact (of_find h).1
  · exact (of_findFree h).1

/-- What was in the slot had the path. -/
theorem SlotFor.name_eq (h : t.SlotFor g path i) (hv : (t.entry i).Visible) :
    (t.entry i).name = path := by
  rcases h with h | ⟨-, h⟩
  · exact (of_find h).2.1
  · obtain ⟨-, hl, hs⟩ := of_findFree h
    exact absurd hv (by simp [Entry.Visible, hl, hs])

/-! ### Effects -/

/-- **What an operation on live versions does**, with the guards that let it. -/
inductive Effect [Inhabited β] (g : Geometry) (f : Fault) (t : Tree β) :
    TreeOp β → Status × Tree β → Prop
  /-- It is refused. -/
  | refused {o : TreeOp β} {st : Status} (hst : st ≠ .ok) : Effect g f t o (st, t)
  /-- The directory is there already. -/
  | present {path : CString} {i : Fin 64} {c : Version β} (hfind : t.find g path true = some i)
      (hlive : (t.entry i).live = some c) (hkind : c.kind = .dir) :
      Effect g f t (.mkdir path) (.ok, t)
  /-- A directory is made. -/
  | mkdir {path : CString} {i : Fin 64} (hpath : validatePath path = .ok)
      (hparent : t.parentExistsFor g path = true) (hslot : t.SlotFor g path i)
      (hlive : (t.entry i).live = none) :
      Effect g f t (.mkdir path) (f.final, t.place i path ⟨.dir, 0, 0, t.generation, 0, default⟩)
  /-- A file is written. -/
  | write {path : CString} {i : Fin 64} {size : ℕ} {hash : UInt64} {contents : β}
      (hpath : validatePath path = .ok) (hparent : t.parentExistsFor g path = true)
      (hsize : size ≤ g.maxFileBytes) (hslot : t.SlotFor g path i)
      (hlive : ∀ c, (t.entry i).live = some c → c.kind = .file) :
      Effect g f t (.write path size hash contents)
        (f.final, t.place i path
          ⟨.file, UInt64.ofNat size, hash, t.generation, blockCountForSize size, contents⟩)
  /-- A live version is taken away. -/
  | delete {path : CString} {i : Fin 64} (hfind : t.find g path false = some i)
      (hempty : ∀ c, (t.entry i).live = some c → c.kind = .dir →
        ¬t.hasActiveChildren g path = true) :
      Effect g f t (.delete path) (f.final, t.remove i)
  /-- A slot gets another path. -/
  | rename {oldPath newPath : CString} {i : Fin 64} (hpath : validatePath newPath = .ok)
      (hparent : t.parentExistsFor g newPath = true) (hfind : t.find g oldPath false = some i)
      (hnew : t.find g newPath false = none)
      (hempty : ∀ c, (t.entry i).live = some c → c.kind = .dir →
        ¬t.hasActiveChildren g oldPath = true) :
      Effect g f t (.rename oldPath newPath) (f.final, t.move i newPath)

variable [Inhabited β]

/-- An operation hands out at most one generation number. -/
theorem Effect.generation {o : TreeOp β} {r : Status × Tree β} (h : Effect g f t o r) :
    r.2.generation = t.generation ∨ r.2.generation = t.generation + 1 := by
  cases h with
  | refused | present => exact .inl rfl
  | mkdir | write | delete | rename => exact .inr rfl

/-- An operation on live versions leaves the snapshots alone. -/
theorem Effect.snap {o : TreeOp β} {r : Status × Tree β} (h : Effect g f t o r) (j : Fin 64) :
    (r.2.entry j).snap = (t.entry j).snap := by
  have hset : ∀ i (e : Entry β), e.snap = (t.entry i).snap →
      ((t.setEntry i e).entry j).snap = (t.entry j).snap := by
    intro i e he
    rcases eq_or_ne j i with rfl | hne
    · simpa using he
    · simp [hne]
  cases h with
  | refused | present => rfl
  | mkdir | write | delete | rename => exact hset _ _ rfl

theorem mkdir_effect (path : CString) : Effect g f t (.mkdir path) (t.mkdir g f path) := by
  unfold Tree.mkdir
  split
  · exact .refused (by simp)
  · rename_i hguard
    simp only [not_or, not_not, Bool.not_eq_true', Bool.not_eq_false] at hguard
    cases hfind : t.find g path true with
    | none =>
      cases hfree : t.findFree g with
      | none => exact .refused (by simp)
      | some i =>
        exact .mkdir hguard.1 hguard.2 (.inr ⟨hfind, hfree⟩) (of_findFree hfree).2.1
    | some i =>
      dsimp only
      cases hlive : (t.entry i).live with
      | none => exact .mkdir hguard.1 hguard.2 (.inl hfind) hlive
      | some c =>
        dsimp only
        split
        · rename_i hk
          exact .present hfind hlive hk
        · exact .refused (by simp)

theorem write_effect (path : CString) (size : ℕ) (hash : UInt64) (contents : β) :
    Effect g f t (.write path size hash contents) (t.write g f path size hash contents) := by
  unfold Tree.write
  split
  · exact .refused (by simp)
  split
  · exact .refused (by simp)
  split
  · exact .refused (by simp)
  rename_i hguard _ _
  simp only [not_or, not_not, Bool.not_eq_true', Bool.not_eq_false, not_lt] at hguard
  cases hfind : t.find g path true with
  | none =>
    cases hfree : t.findFree g with
    | none => exact .refused (by simp)
    | some i =>
      refine .write hguard.1 hguard.2.1 hguard.2.2 (.inr ⟨hfind, hfree⟩) fun c hc => ?_
      rw [(of_findFree hfree).2.1] at hc
      cases hc
  | some i =>
    dsimp only
    split
    · exact .refused (by simp)
    · rename_i hdir
      refine .write hguard.1 hguard.2.1 hguard.2.2 (.inl hfind) fun c hc => ?_
      rw [hc] at hdir
      cases hk : c.kind with
      | dir => simp [hk] at hdir
      | file => rfl

theorem delete_effect (path : CString) : Effect g f t (.delete path) (t.delete g f path) := by
  unfold Tree.delete
  split
  · exact .refused (by simp)
  cases hfind : t.find g path false with
  | none => exact .refused (by simp)
  | some i =>
    dsimp only
    split
    · exact .refused (by simp)
    · rename_i hbusy
      exact .delete hfind fun c hc hk hch => hbusy ⟨by simp [hc, hk], hch⟩

theorem rename_effect (oldPath newPath : CString) :
    Effect g f t (.rename oldPath newPath) (t.rename g f oldPath newPath) := by
  unfold Tree.rename
  split
  · exact .refused (by simp)
  rename_i hguard
  simp only [not_or, not_not, Bool.not_eq_true', Bool.not_eq_false] at hguard
  cases hfind : t.find g oldPath false with
  | none => exact .refused (by simp)
  | some i =>
    dsimp only
    split
    · exact .refused (by simp)
    rename_i hnew
    split
    · exact .refused (by simp)
    · rename_i hbusy
      exact .rename hguard.2.1 hguard.2.2 hfind (by simpa using hnew) fun c hc hk hch =>
        hbusy ⟨by simp [hc, hk], hch⟩

/-- **Every operation that is not one on snapshots has such an effect.** -/
theorem exec_effect {o : TreeOp β} (hc : o ≠ .commit) (hr : o ≠ .rollback) :
    Effect g f t o (o.exec g f t) := by
  cases o with
  | mkdir path => exact mkdir_effect path
  | write path size hash contents => exact write_effect path size hash contents
  | delete path => exact delete_effect path
  | rename oldPath newPath => exact rename_effect oldPath newPath
  | commit => exact absurd rfl hc
  | rollback => exact absurd rfl hr

end Tree

end Xaios.MutableFs
