import Xaios.MutableFs.Runs

/-!
# The consistency check

`mutable_fs_fsck` of `mutable_fs.c`. It recomputes from the nodes which blocks are
referenced, and counts the blocks on which that and the bitmap disagree.

Its blocks in reference are those of live files. The bitmap also marks the blocks of
the snapshot, so on every volume that runs reach the errors it counts are exactly the
blocks of the snapshot (`MutableFs.fsck_errors`), and it calls the volume valid
exactly if the snapshot owns no block (`MutableFs.fsck_valid_iff`).
-/

namespace Xaios.MutableFs

open Foundation BlockDevice List

variable {D : Type} [BlockDevice 512 D]

/-- `xaios_mfs_fsck_result_t`. -/
structure FsckResult where
  valid : Bool
  version : UInt32
  files : ℕ
  directories : ℕ
  blocksUsed : ℕ
  errors : ℕ
  deriving DecidableEq, Repr

namespace Volume

variable (v : Volume) (g : Geometry)

/-- `node_count_by_type`. -/
def nodeCountByType (type : UInt32) : ℕ :=
  ((slots g).filter fun i => (v.nodes i).active ≠ 0 ∧ (v.nodes i).type = type).length

/-- `block_count_used`. -/
def blockCountUsed : ℕ := ((range g.dataSectors).filter fun b => v.bit b ≠ 0).length

/-- `referenced`: a block that an active file node lists. -/
def referenced (b : ℕ) : Bool :=
  (slots g).any fun i =>
    (v.nodes i).active ≠ 0 && (v.nodes i).type = nodeFile &&
      (v.nodes i).blockList.any fun c => c.toNat = b

/-- The blocks on which the bitmap and the nodes disagree. -/
def mismatches : List ℕ :=
  (range g.dataSectors).filter fun b => decide (v.bit b ≠ 0) != v.referenced g b

end Volume

/-- `mutable_fs_fsck`. -/
def fsck (s : Fs D) : FsckResult where
  valid := (s.vol.mismatches s.geo).length = 0
  version := s.geo.version
  files := s.vol.nodeCountByType s.geo nodeFile
  directories := s.vol.nodeCountByType s.geo nodeDir
  blocksUsed := s.vol.blockCountUsed s.geo
  errors := (s.vol.mismatches s.geo).length

omit [BlockDevice 512 D] in
theorem fsck_valid (s : Fs D) : (fsck s).valid = decide ((fsck s).errors = 0) := rfl

/-! ### What is referenced -/

namespace Volume

/-- The blocks of the live files. -/
def live (v : Volume) : List UInt16 := total fun i => (v.nodes i).liveBlocks

/-- The blocks of the snapshot. -/
def snapshot (v : Volume) : List UInt16 := total fun i => (v.nodes i).snapBlocks

variable {v : Volume} {g : Geometry}

/-- A block in reference belongs to a live file. -/
theorem referenced_iff (hin : v.Within g) {b : ℕ} (hb : b < g.dataSectors) :
    v.referenced g b = true ↔ UInt16.ofNat b ∈ v.live := by
  have heq : ∀ c : UInt16, c.toNat = b ↔ c = UInt16.ofNat b := fun c => by
    rw [← UInt16.toNat_inj, toNat_ofNat_of_lt hb]
  simp only [referenced, any_eq_true, Bool.and_eq_true, decide_eq_true_eq, heq,
    exists_eq_right, live, mem_total]
  constructor
  · rintro ⟨i, -, hfile, hmem⟩
    exact ⟨i, by rwa [Node.liveBlocks, if_pos hfile]⟩
  · rintro ⟨i, hmem⟩
    unfold Node.liveBlocks at hmem
    split at hmem
    · next hfile =>
      refine ⟨i, mem_slots.mpr ?_, hfile, hmem⟩
      by_contra hout
      -- a node outside the table is zero
      rw [hin.nodes i (Nat.not_lt.mp hout)] at hfile
      exact hfile.1 rfl
    · exact absurd hmem not_mem_nil

/-- Live files and the snapshot share the marked blocks. -/
theorem Sound.live_snapshot (h : v.Sound g []) : (v.live ++ v.snapshot).Perm (v.usedList g) := by
  have hperm := h.perm
  rw [append_nil] at hperm
  exact (total_append_perm _ _).symm.trans hperm

/-- **The mismatches are the blocks of the snapshot.** -/
theorem Sound.mismatches_perm (h : v.Sound g []) :
    ((v.mismatches g).map UInt16.ofNat).Perm v.snapshot := by
  have hnodup : (v.live ++ v.snapshot).Nodup :=
    h.live_snapshot.nodup_iff.mpr (nodup_usedList v g)
  obtain ⟨-, hsnap, hapart⟩ := nodup_append.mp hnodup
  have hmem : ∀ b < g.dataSectors, (v.bit b ≠ 0 ↔
      UInt16.ofNat b ∈ v.live ∨ UInt16.ofNat b ∈ v.snapshot) := fun b hb => by
    rw [← mem_append, h.live_snapshot.mem_iff, mem_usedList, toNat_ofNat_of_lt hb]
    exact (and_iff_right hb).symm
  have hmismatch : ∀ b < g.dataSectors, ((decide (v.bit b ≠ 0) != v.referenced g b) = true ↔
      UInt16.ofNat b ∈ v.snapshot) := fun b hb => by
    have href := referenced_iff h.within hb
    rw [bne_iff_ne, ne_eq, Bool.eq_iff_iff, decide_eq_true_eq, hmem b hb, href]
    constructor
    · intro hne
      by_contra hnot
      exact hne ⟨fun hor => hor.resolve_right hnot, .inl⟩
    · intro hin hiff
      exact hapart _ (hiff.mp (.inr hin)) _ hin rfl
  refine (perm_ext_iff_of_nodup ?_ hsnap).mpr fun c => ?_
  · refine List.Nodup.map_on (fun b hb c hc heq => ?_) (nodup_range.filter _)
    have hb' := mem_range.mp (mem_filter.mp hb).1
    have hc' := mem_range.mp (mem_filter.mp hc).1
    rw [← toNat_ofNat_of_lt hb', ← toNat_ofNat_of_lt hc', heq]
  · rw [mem_map]
    constructor
    · rintro ⟨b, hb, rfl⟩
      obtain ⟨hrange, hbit⟩ := mem_filter.mp hb
      exact (hmismatch b (mem_range.mp hrange)).mp hbit
    · intro hc
      have hused := h.live_snapshot.mem_iff.mp (mem_append_right _ hc)
      have hlt := (mem_usedList.mp hused).1
      have hof : UInt16.ofNat c.toNat = c := UInt16.ofNat_toNat
      refine ⟨c.toNat, mem_filter.mpr ⟨mem_range.mpr hlt, ?_⟩, hof⟩
      rw [hmismatch _ hlt, hof]
      exact hc

end Volume

/-! ### Runs -/

omit [BlockDevice 512 D] in
/-- **The errors of the check are the blocks of the snapshot.** -/
theorem fsck_errors {s : Fs D} (h : s.vol.Sound s.geo []) :
    (fsck s).errors = s.vol.snapshot.length := by
  rw [← h.mismatches_perm.length_eq, length_map]
  rfl

/-- The runs from a fresh format reach volumes in order. -/
theorem sound_runCalls (s : Fs D) (cs : List Call) :
    (runCalls (formatted s) cs).vol.Sound (runCalls (formatted s) cs).geo [] := by
  have hinv := (View.names D s.geo).inv_runCalls
    ((View.names D s.geo).inv_formatted rfl trivial) cs
  rw [hinv.geo]
  exact hinv.sound

/-- **The check calls a volume valid exactly if the snapshot owns no block**: from a fresh
format, after every run of calls on every device. -/
theorem fsck_valid_iff (s : Fs D) (cs : List Call) :
    ((fsck (runCalls (formatted s) cs)).valid = true ∧
        (fsck (runCalls (formatted s) cs)).errors = 0) ↔
      ∀ i, ((runCalls (formatted s) cs).vol.nodes i).snapBlocks = [] := by
  have herrors := fsck_errors (sound_runCalls s cs)
  have hvalid : (fsck (runCalls (formatted s) cs)).valid = true ↔
      (fsck (runCalls (formatted s) cs)).errors = 0 := by
    rw [fsck_valid, decide_eq_true_eq]
  rw [hvalid, and_self, herrors, length_eq_zero_iff, Volume.snapshot, total,
    flatMap_eq_nil_iff]
  exact ⟨fun h i => h i (mem_finRange i), fun h i _ => h i⟩

/-- **A file and a commit, both of which succeed**: one error. -/
theorem fsck_after_commit :
    ((Op.write pathA [7]).exec (runOps blankFs [])).1 = .ok ∧
      (commitSnapshot (runOps blankFs [.write pathA [7]])).1 = .ok ∧
      (fsck (runOps blankFs [.write pathA [7], .commit])).valid = false ∧
      (fsck (runOps blankFs [.write pathA [7], .commit])).errors = 1 := by
  decide +kernel

end Xaios.MutableFs
