import Xaios.MutableFs.Abstraction

/-!
# The live operations refine the tree

Each operation of `mutable_fs.c` keeps the invariant of the volume and does to the
tree what the tree operation of the same name does, with a fault that stands for
what went wrong on the device (`View.Refines`). On a reliable device there is
none.

The steps an operation is made of have one lemma each: writing the metadata
(`View.refines_writeMetadata`), writing to blocks nobody owns
(`View.entry_writeBlocks`) and putting a node (`View.putNode_refines`).
-/

namespace Xaios.MutableFs

open Foundation BlockDevice List Volume Node

variable {D β : Type} [BlockDevice 512 D] [Inhabited β] {g : Geometry} (v : Volume)

/-- The blocks `free_blocks` is called with on the live version. -/
theorem freeBlocks_liveBlocks (n : Node) :
    (if n.active ≠ 0 ∧ n.type = nodeFile then v.freeBlocks g n.blockList else v) =
      v.freeBlocks g n.liveBlocks := by
  unfold liveBlocks
  split <;> rfl

/-- The blocks `free_blocks` is called with on the snapshot version. -/
theorem freeBlocks_snapBlocks (n : Node) :
    (if n.snapshotActive ≠ 0 ∧ n.snapshotType = nodeFile then v.freeBlocks g n.snapshotBlockList
      else v) = v.freeBlocks g n.snapBlocks := by
  unfold snapBlocks
  split <;> rfl

theorem Volume.setBit_setNode (b : ℕ) (x : UInt8) (i : Fin 64) (n : Node) :
    (v.setBit b x).setNode i n = (v.setNode i n).setBit b x := by
  unfold setBit
  split <;> rfl

variable (bs : List UInt16)

/-- Freeing and replacing a node commute. -/
theorem Volume.freeBlocks_setNode (i : Fin 64) (n : Node) :
    (v.freeBlocks g bs).setNode i n = (v.setNode i n).freeBlocks g bs := by
  induction bs generalizing v with
  | nil => rfl
  | cons b bs ih =>
    rw [freeBlocks_cons, freeBlocks_cons, ih, setNode_bit]
    split
    · rw [setBit_setNode]
    · rfl

@[simp] theorem Volume.freeBlocks_nodes : (v.freeBlocks g bs).nodes = v.nodes := by
  rw [freeBlocks_eq]

@[simp] theorem Volume.freeBlocks_generation : (v.freeBlocks g bs).generation = v.generation := by
  rw [freeBlocks_eq]

@[simp] theorem Volume.freeBlocks_committedGeneration :
    (v.freeBlocks g bs).committedGeneration = v.committedGeneration := by
  rw [freeBlocks_eq]

/-- **Replacing a node** that gives blocks back. -/
theorem Volume.Sound.freeNode {v : Volume} {i : Fin 64} {n : Node} {bs pending : List UInt16}
    (h : v.Sound g pending) (hi : i.val < g.maxNodes) (hn : n.valid g = true)
    (hp : (n.owned ++ bs).Perm ((v.nodes i).owned ++ pending)) :
    ((v.freeBlocks g bs).setNode i n).Sound g [] := by
  rw [freeBlocks_setNode]
  exact Sound.free ((append_nil bs).symm ▸ h.setNode hi hp hn)

@[simp] theorem Volume.setBits_nodes (x : UInt8) (bs : List UInt16) :
    (v.setBits x bs).nodes = v.nodes := by
  rw [setBits_eq]

@[simp] theorem Volume.setBits_generation (x : UInt8) (bs : List UInt16) :
    (v.setBits x bs).generation = v.generation := by
  rw [setBits_eq]

@[simp] theorem Volume.setBits_committedGeneration (x : UInt8) (bs : List UInt16) :
    (v.setBits x bs).committedGeneration = v.committedGeneration := by
  rw [setBits_eq]

namespace View

variable (V : View D g β)

/-! ### The invariant and the refinement -/

/-- **The invariant of the globals** between operations: a mounted volume in the
geometry of the view that is sound. -/
structure Inv (s : Fs D) : Prop where
  geo : s.geo = g
  writable : s.writable = true
  sound : s.vol.Sound g []
  good : V.good s.dev

/-- **An operation refines a tree operation**: it keeps the invariant, and its
status and its tree are those of the tree operation under some fault. -/
def Refines (r : Status × Fs D) (op : Fault → Status × Tree β) : Prop :=
  V.Inv r.2 ∧ ∃ f, (V.reliable → f = .none) ∧ (r.1, V.tree r.2) = op f

variable {s : Fs D}

variable {op : Fault → Status × Tree β}

/-- An operation that does nothing. -/
theorem refines_self {status : Status} (h : V.Inv s) (hop : ∀ f, op f = (status, V.tree s)) :
    V.Refines (status, s) op :=
  ⟨h, .none, fun _ => rfl, (hop _).symm⟩

/-- A check that both make: an operation that does not pass it does nothing. -/
theorem refines_if {c c' : Prop} [Decidable c] [Decidable c'] {status : Status}
    {r : Status × Fs D} (h : V.Inv s) (hc : c' ↔ c) (hno : ¬c → V.Refines r op) :
    V.Refines (if c' then (status, s) else r) fun f => if c then (status, V.tree s) else op f := by
  by_cases hpos : c
  · simp only [if_pos hpos, if_pos (hc.mpr hpos)]
    exact V.refines_self h fun _ => rfl
  · simp only [if_neg hpos, if_neg (mt hc.mp hpos)]
    exact hno hpos

/-! ### Frames -/

variable {n : Node}

/-- An entry is what the view reads at its blocks. -/
theorem entry_congr {d d' : D}
    (h : ∀ bs size, bs = n.liveBlocks ∨ bs = n.snapBlocks → V.file d' bs size = V.file d bs size) :
    V.entry d' n = V.entry d n := by
  simp only [entry, live, snap, h _ _ (.inl rfl), h _ _ (.inr rfl)]

theorem entry_readBlocks (d : D) (bs : List UInt16) (size : ℕ) (buffer : List UInt8) (n : Node) :
    V.entry (readBlocks d bs size buffer).2.2 n = V.entry d n :=
  V.entry_congr fun _ _ _ => V.file_read _ _ _ _ _ _

/-- **Writing to pending blocks changes no entry.** -/
theorem entry_writeBlocks {v : Volume} {pending bs : List UInt16} (h : v.Sound g pending)
    (hbs : ∀ b ∈ bs, b ∈ pending) (d : D) (data : List UInt8) (i : Fin 64) :
    V.entry (writeBlocks d bs data).2 (v.nodes i) = V.entry d (v.nodes i) := by
  refine V.entry_congr fun cs size hcs => V.file_write_of_disjoint _ _ _ fun c hc hcb => ?_
  have hown : c ∈ (v.nodes i).owned := by
    rcases hcs with rfl | rfl
    · exact mem_append_left _ hc
    · exact mem_append_right _ hc
  exact h.not_mem_pending hown (hbs c hcb)

/-! ### Writing the metadata -/

/-- The fault a metadata write stands for. -/
def metadataFault (s : Fs D) : Fault := if (writeMetadata s).1 = .ok then .none else .metadata

theorem writeRaw_status (d : D) (k n : ℕ) (raw : List UInt8) :
    (writeRaw d k n raw).1 = .ok ∨ (writeRaw d k n raw).1 = .io := by
  induction n generalizing d k raw with
  | zero => exact .inl rfl
  | succ n ih =>
    rw [writeRaw]
    split
    · exact ih _ _ _
    · exact .inr rfl

theorem final_metadataFault (s : Fs D) : (metadataFault s).final = (writeMetadata s).1 := by
  unfold metadataFault
  rcases writeRaw_status s.dev startSector s.geo.metadataSectors _ with h | h
  · have : (writeMetadata s).1 = .ok := h
    rw [if_pos this, this]
    rfl
  · have : (writeMetadata s).1 = .io := h
    rw [this, if_neg (by simp)]
    rfl

theorem metadataFault_cases (s : Fs D) :
    metadataFault s = .none ∨ metadataFault s = .metadata := by
  unfold metadataFault
  split <;> simp

theorem metadataFault_of_reliable (hgeo : s.geo = g) (hgood : V.good s.dev)
    (hr : V.reliable) : metadataFault s = .none := by
  have h : (writeMetadata s).1 = .ok := by
    refine V.writeRaw_ok _ hr hgood ?_
    rw [hgeo]
    cases g <;> decide
  rw [metadataFault, if_pos h]

/-- Writing the metadata leaves the tree. -/
theorem tree_writeMetadata (hgeo : s.geo = g) :
    V.tree (writeMetadata s).2 = V.tree s := by
  have h : ∀ n, V.entry (writeMetadata s).2.dev n = V.entry s.dev n := fun n =>
    V.entry_congr fun bs size _ => by
      rw [writeMetadata, hgeo]
      exact V.file_metadata _ _ _ _
  simp only [tree, h]
  rfl

theorem inv_writeMetadata (h : V.Inv s) : V.Inv (writeMetadata s).2 where
  geo := h.geo
  writable := h.writable
  sound := h.sound.congr rfl rfl
  good := V.good_writeRaw _ _ _ h.good

/-- **An operation that ends in writing the metadata.** -/
theorem refines_writeMetadata (h : V.Inv s)
    (hop : ∀ f, f = .none ∨ f = .metadata → op f = (f.final, V.tree s)) :
    V.Refines (writeMetadata s) op := by
  refine ⟨V.inv_writeMetadata h, metadataFault s, V.metadataFault_of_reliable h.geo h.good, ?_⟩
  rw [hop _ (metadataFault_cases s), final_metadataFault, V.tree_writeMetadata h.geo]

variable {i : Fin 64}

/-- **Putting a node** that gives blocks back: the entry is replaced and a generation number is
handed out. -/
theorem putNode_refines (bs : List UInt16) {pending : List UInt16} (hgeo : s.geo = g)
    (hw : s.writable = true) (hgood : V.good s.dev) (hs : s.vol.Sound g pending)
    (hi : i.val < g.maxNodes) (hn : n.valid g = true)
    (hp : (n.owned ++ bs).Perm ((s.vol.nodes i).owned ++ pending))
    (hop : ∀ f, f = .none ∨ f = .metadata → op f = (f.final,
      { (V.tree s).setEntry i (V.entry s.dev n) with generation := s.vol.generation + 1 })) :
    V.Refines (Fs.putNode { s with vol := s.vol.freeBlocks g bs } i n) op := by
  refine V.refines_writeMetadata ⟨hgeo, hw, (hs.freeNode hi hn hp).congr rfl rfl, hgood⟩
    fun f hf => (hop f hf).trans (Prod.ext rfl (Tree.ext (funext fun j => ?_) ?_ ?_))
  · rcases eq_or_ne j i with rfl | hne
    · simp [tree]
    · simp [tree, hne]
  · exact congrArg (· + 1) (freeBlocks_generation _ _).symm
  · exact (freeBlocks_committedGeneration _ _).symm

/-! ### Directories -/

variable {path : CString}

theorem name_copyInto (h : validatePath path = .ok) :
    cstr (copyInto n.path path) = path := cstr_copyInto _ (length_of_validatePath h)

variable (gen : UInt64)

theorem valid_makeDir (hn : n.valid g = true) (hp : validatePath path = .ok) :
    (n.makeDir path gen).valid g = true := by
  have hv := valid_iff.mp hn
  have hname : (n.makeDir path gen).name = path := name_copyInto hp
  rw [valid_iff]
  unfold makeDir at hname ⊢
  by_cases h : n.snapshotActive = 0
  · simp only [if_pos h] at hname ⊢
    exact ⟨fun _ => by rw [hname, hp], fun _ => .inl rfl, fun h' => absurd rfl h',
      Nat.zero_le _, Nat.zero_le _, Nat.zero_le _, Nat.zero_le _⟩
  · simp only [if_neg h] at hname ⊢
    exact ⟨fun _ => by rw [hname, hp], fun _ => .inl rfl, hv.snapshotType, Nat.zero_le _,
      hv.snapshotBlockCount, Nat.zero_le _, hv.snapshotSize⟩

theorem liveBlocks_makeDir (n : Node) (path : CString) (gen : UInt64) :
    (n.makeDir path gen).liveBlocks = [] :=
  if_neg fun h => nodeDir_ne_nodeFile h.2

theorem snapBlocks_makeDir (n : Node) (path : CString) (gen : UInt64) :
    (n.makeDir path gen).snapBlocks = n.snapBlocks := by
  unfold snapBlocks makeDir
  by_cases h : n.snapshotActive = 0
  · simp [h, Node.zero]
  · simp only [if_neg h]
    rfl

/-- The entry of a new directory. -/
theorem entry_makeDir (d : D) (n : Node) (gen : UInt64)
    (hp : validatePath path = .ok) :
    V.entry d (n.makeDir path gen) = ⟨path, some ⟨.dir, 0, 0, gen, 0, default⟩, V.snap d n⟩ := by
  have hname : (n.makeDir path gen).name = path := name_copyInto hp
  have hlive : V.live d (n.makeDir path gen) = some ⟨.dir, 0, 0, gen, 0, default⟩ := by
    have ha : (n.makeDir path gen).active = 1 := rfl
    rw [V.live_of_active (by rw [ha]; decide), liveBlocks_makeDir, V.file_nil]
    rfl
  have hsnap : V.snap d (n.makeDir path gen) = V.snap d n := by
    by_cases h : n.snapshotActive = 0
    · have h' : (n.makeDir path gen).snapshotActive = 0 := by simp [makeDir, h, Node.zero]
      rw [V.snap_of_inactive h, V.snap_of_inactive h']
    · have h' : (n.makeDir path gen).snapshotActive ≠ 0 := by simp [makeDir, h]
      rw [V.snap_of_active h, V.snap_of_active h', snapBlocks_makeDir]
      simp [makeDir, h]
  rw [entry, hname, hlive, hsnap]

/-- The new directory in an inactive slot. -/
theorem putDir_refines (h : V.Inv s) (hi : i.val < g.maxNodes) (hp : validatePath path = .ok)
    (ha : (s.vol.nodes i).active = 0) :
    V.Refines (s.putNode i ((s.vol.nodes i).makeDir path s.vol.generation)) fun f =>
      (f.final, (V.tree s).place i path ⟨.dir, 0, 0, (V.tree s).generation, 0, default⟩) := by
  set n := s.vol.nodes i with hn
  have howned : (n.makeDir path s.vol.generation).owned = n.owned := by
    have : n.liveBlocks = [] := if_neg fun h' => h'.1 ha
    rw [Node.owned, liveBlocks_makeDir, snapBlocks_makeDir, Node.owned, this]
  refine V.putNode_refines [] h.geo h.writable h.good h.sound hi
    (valid_makeDir _ (h.sound.valid i) hp) (by rw [howned]) fun f _ => ?_
  rw [V.entry_makeDir _ _ _ hp]
  rfl

/-- **`create_dir` refines the tree operation.** -/
theorem createDir_refines (h : V.Inv s) (path : CString) :
    V.Refines (createDir s path) fun f => (V.tree s).mkdir g f path := by
  unfold createDir Tree.mkdir
  rw [h.geo, h.writable, V.parentExistsFor_tree, V.find_tree, V.findFree_tree]
  refine V.refines_if h (by simp) fun hgd => ?_
  have hp : validatePath path = .ok := by_contra fun hp => hgd (.inl hp)
  cases hfind : s.vol.findNode g path true with
  | some i =>
    obtain ⟨hi, -⟩ := of_findNode hfind
    by_cases ha : (s.vol.nodes i).active = 0
    · have hlive : ((V.tree s).entry i).live = none := V.live_of_inactive ha
      simp only [hlive]
      rw [if_neg (not_not.mpr ha)]
      exact V.putDir_refines h hi hp ha
    · have hlive : ((V.tree s).entry i).live = some _ := V.live_of_active ha
      simp only [hlive, kindOf_eq_dir]
      rw [if_pos ha]
      exact V.refines_self h fun _ => rfl
  | none =>
    cases hfree : s.vol.findFreeNode g with
    | some i =>
      obtain ⟨hi, ha, -⟩ := of_findFreeNode hfree
      exact V.putDir_refines h hi hp ha
    | none => exact V.refines_self h fun _ => rfl

/-! ### Files -/

theorem blockCountForSize_le {size : ℕ} (h : size ≤ 8192) : blockCountForSize size ≤ 16 := by
  unfold blockCountForSize
  omega

theorem le_mul_blockCountForSize (size : ℕ) : size ≤ 512 * blockCountForSize size := by
  unfold blockCountForSize
  omega

section MakeFile

variable {n : Node} {path : CString} {data : List UInt8} (gen : UInt64) {bs : List UInt16}

section

variable (hlen : data.length ≤ 8192)

include hlen

theorem toNat_size_makeFile : (n.makeFile path data gen bs).size.toNat = data.length := by
  change (UInt64.ofNat data.length).toNat = data.length
  simpa using Nat.mod_eq_of_lt (by omega : data.length < 2 ^ 64)

theorem toNat_blockCount_makeFile :
    (n.makeFile path data gen bs).blockCount.toNat = blockCountForSize data.length := by
  have := blockCountForSize_le hlen
  change (UInt16.ofNat (blockCountForSize data.length)).toNat = blockCountForSize data.length
  simpa using Nat.mod_eq_of_lt (by omega : blockCountForSize data.length < 65536)

theorem liveBlocks_makeFile (hbs : bs.length = blockCountForSize data.length) :
    (n.makeFile path data gen bs).liveBlocks = bs := by
  have h16 := blockCountForSize_le hlen
  have ha : (n.makeFile path data gen bs).active ≠ 0 := (by decide : (1 : UInt32) ≠ 0)
  rw [liveBlocks, if_pos ⟨ha, rfl⟩, blockList, toNat_blockCount_makeFile gen hlen]
  exact take_blockArray hbs.symm (by omega)

end

theorem valid_makeFile (hn : n.valid g = true) (hp : validatePath path = .ok)
    (hlen : data.length ≤ 8192) : (n.makeFile path data gen bs).valid g = true := by
  have hv := valid_iff.mp hn
  have hname : (n.makeFile path data gen bs).name = path := name_copyInto hp
  refine valid_iff.mpr ⟨fun _ => by rw [hname, hp], fun _ => .inr rfl, hv.snapshotType, ?_,
    hv.snapshotBlockCount, ?_, hv.snapshotSize⟩
  · rw [toNat_blockCount_makeFile gen hlen]
    exact blockCountForSize_le hlen
  · rwa [toNat_size_makeFile gen hlen]

/-- The entry of a written file. -/
theorem entry_makeFile (d : D) (hp : validatePath path = .ok) (hlen : data.length ≤ 8192)
    (hbs : bs.length = blockCountForSize data.length)
    (hfile : V.file d bs data.length = V.ofBytes data) :
    V.entry d (n.makeFile path data gen bs) = ⟨path, some ⟨.file, UInt64.ofNat data.length,
      fnv1a64 data, gen, blockCountForSize data.length, V.ofBytes data⟩, V.snap d n⟩ := by
  have hname : (n.makeFile path data gen bs).name = path := name_copyInto hp
  have ha : (n.makeFile path data gen bs).active ≠ 0 := (by decide : (1 : UInt32) ≠ 0)
  have hlive : V.live d (n.makeFile path data gen bs) = some ⟨.file, UInt64.ofNat data.length,
      fnv1a64 data, gen, blockCountForSize data.length, V.ofBytes data⟩ := by
    rw [V.live_of_active ha, liveBlocks_makeFile gen hlen hbs, toNat_size_makeFile gen hlen, hfile,
      hbs]
    rfl
  rw [entry, hname, hlive]
  rfl

end MakeFile

/-- The last part of `write_file`: the pending blocks become those of the node, and
its old ones go back. -/
theorem putFile_refines {data : List UInt8} {bs : List UInt16} {t : Tree β} (hgeo : s.geo = g)
    (hw : s.writable = true) (hgood : V.good s.dev) (hs : s.vol.Sound g bs) (ht : V.tree s = t)
    (hi : i.val < g.maxNodes) (hp : validatePath path = .ok) (hlen : data.length ≤ 8192)
    (hbs : bs.length = blockCountForSize data.length)
    (hfile : V.file s.dev bs data.length = V.ofBytes data)
    (hop : ∀ f, f = .none ∨ f = .metadata → op f = (f.final, t.place i path
      ⟨.file, UInt64.ofNat data.length, fnv1a64 data, t.generation, blockCountForSize data.length,
        V.ofBytes data⟩)) : V.Refines (s.putFile i path data bs) op := by
  subst ht
  set n := s.vol.nodes i with hn
  set n' := n.makeFile path data s.vol.generation bs with hn'
  have hperm : (n'.owned ++ n.liveBlocks).Perm (n.owned ++ bs) := by
    rw [Node.owned, liveBlocks_makeFile _ hlen hbs, Node.owned]
    refine perm_append_comm.trans ?_
    rw [append_assoc]
    exact perm_append_comm.append_left _
  have heq : s.putFile i path data bs =
      Fs.putNode { s with vol := s.vol.freeBlocks g n.liveBlocks } i n' := by
    rw [Fs.putFile, hgeo]
    simp only [freeBlocks_liveBlocks, freeBlocks_generation, ← hn, ← hn']
  rw [heq]
  refine V.putNode_refines _ hgeo hw hgood hs hi (valid_makeFile _ (hs.valid i) hp hlen) hperm
    fun f hf => (hop f hf).trans ?_
  rw [V.entry_makeFile _ _ hp hlen hbs hfile]
  rfl

/-- What holds after blocks were taken and written, whether or not the write
succeeded. -/
structure Fresh (v : Volume) (d : D) (bs : List UInt16) (w : Status × D) : Prop where
  sound : (v.setBits 1 bs).Sound g bs
  good : V.good w.2
  entry : ∀ i, V.entry w.2 (v.nodes i) = V.entry d (v.nodes i)
  ok : V.reliable → w.1 = .ok

/-- **Taking the first free blocks and writing them.** -/
theorem fresh {v : Volume} {d : D} (hs : v.Sound g []) (hgood : V.good d) (count : ℕ)
    (data : List UInt8) :
    V.Fresh v d (v.firstFree g count) (writeBlocks d (v.firstFree g count) data) := by
  have hs1 : (v.setBits 1 (v.firstFree g count)).Sound g (v.firstFree g count) := by
    simpa using hs.alloc count
  refine ⟨hs1, V.good_writeBlocks _ _ hgood, fun i => ?_, fun hr =>
    V.writeBlocks_ok data hr hgood fun b hb => (mem_firstFree hb).1⟩
  have := V.entry_writeBlocks hs1 (fun b hb => hb) d data i
  rwa [setBits_nodes] at this

namespace Fresh

variable {V} {s : Fs D} {bs : List UInt16} {w : Status × D}

section

variable (h : V.Fresh s.vol s.dev bs w)

include h

/-- The state with the blocks taken has the tree of before. -/
theorem tree_taken : V.tree { s with vol := s.vol.setBits 1 bs, dev := w.2 } = V.tree s := by
  simp only [tree, setBits_nodes, h.entry, setBits_generation,
    setBits_committedGeneration]

/-- The state with the blocks given back has the tree of before. -/
theorem tree_back :
    V.tree { s with vol := (s.vol.setBits 1 bs).freeBlocks g bs, dev := w.2 } = V.tree s := by
  simp only [tree, freeBlocks_nodes, setBits_nodes, h.entry,
    freeBlocks_generation, setBits_generation, freeBlocks_committedGeneration,
    setBits_committedGeneration]

theorem inv_back (hs : V.Inv s) :
    V.Inv { s with vol := (s.vol.setBits 1 bs).freeBlocks g bs, dev := w.2 } :=
  ⟨hs.geo, hs.writable, Sound.free (by simpa using h.sound), h.good⟩

end

end Fresh

/-- An active node is a directory with something in it. -/
theorem busy_iff (ha : (s.vol.nodes i).active ≠ 0) (path : CString) :
    ((s.vol.nodes i).type = nodeDir ∧ s.vol.hasActiveChildren s.geo path = true) ↔
      (((V.tree s).entry i).live.any (fun c => c.kind = .dir) = true ∧
        s.vol.hasActiveChildren s.geo path = true) := by
  have hdir : ((V.tree s).entry i).live.any (fun c => c.kind = .dir) =
      ((s.vol.nodes i).active != 0 && (s.vol.nodes i).type == nodeDir) := V.any_kind_live _ _
  rw [hdir]
  simp [ha]

/-- For an active node, what is not a file is a directory. -/
theorem dir_iff (h : V.Inv s) (i : Fin 64) :
    ((s.vol.nodes i).active ≠ 0 ∧ (s.vol.nodes i).type ≠ nodeFile) ↔
      ((V.tree s).entry i).live.any (fun c => c.kind = .dir) = true := by
  have hdir : ((V.tree s).entry i).live.any (fun c => c.kind = .dir) =
      ((s.vol.nodes i).active != 0 && (s.vol.nodes i).type == nodeDir) := V.any_kind_live _ _
  have hty := (valid_iff.mp (h.sound.valid i)).type
  rw [hdir]
  simp only [Bool.and_eq_true, bne_iff_ne, beq_iff_eq]
  refine and_congr_right fun ha => ⟨fun hne => (hty ha).resolve_right hne, fun he => ?_⟩
  rw [he]
  exact nodeDir_ne_nodeFile

/-- **`write_file` refines the tree operation.** -/
theorem writeFile_refines (h : V.Inv s) (path : CString) (data : List UInt8) :
    V.Refines (writeFile s path data) fun f =>
      (V.tree s).write g f path data.length (fnv1a64 data) (V.ofBytes data) := by
  have hgeo := h.geo
  subst hgeo
  unfold writeFile Tree.write
  rw [h.writable, V.parentExistsFor_tree, V.find_tree, V.findFree_tree, V.free_tree h.sound,
    length_nil, Nat.add_zero]
  refine V.refines_if h (by simp [or_assoc]) fun hgd => ?_
  push Not at hgd
  have hp := hgd.1
  have hmax : data.length ≤ 8192 := s.geo.maxFileBytes_eq ▸ hgd.2.2
  rw [allocateBlocks_eq _ _ (by rw [s.geo.fileMaxBlocks_eq]; exact blockCountForSize_le hmax)]
  by_cases hroom : blockCountForSize data.length ≤ (s.vol.freeList s.geo).length
  swap
  · -- no room: nothing was taken
    rw [if_neg hroom]
    simp only [if_pos (Nat.lt_of_not_le hroom)]
    exact V.refines_self h fun _ => rfl
  rw [if_pos hroom]
  simp only [if_neg (Nat.not_lt.mpr hroom), ne_eq, not_true_eq_false, if_false]
  have hfresh := V.fresh h.sound h.good (blockCountForSize data.length) data
  have hlen : (s.vol.firstFree s.geo (blockCountForSize data.length)).length =
      blockCountForSize data.length := by
    rw [length_firstFree, Nat.min_eq_left hroom]
  generalize hbs : s.vol.firstFree s.geo (blockCountForSize data.length) = bs at hfresh hlen ⊢
  by_cases hwok : (writeBlocks s.dev bs data).1 = .ok
  swap
  · rw [if_pos hwok]
    refine ⟨hfresh.inv_back h, .data 0, fun hr => absurd (hfresh.ok hr) hwok, ?_⟩
    rw [hfresh.tree_back]
    rfl
  rw [if_neg (not_not.mpr hwok)]
  have hput : ∀ i : Fin 64, i.val < s.geo.maxNodes →
      V.Refines
        (Fs.putFile { s with vol := s.vol.setBits 1 bs, dev := (writeBlocks s.dev bs data).2 }
        i path data bs) fun f =>
        if f.hitsData then (.io, V.tree s)
        else (f.final, (V.tree s).place i path ⟨.file, UInt64.ofNat data.length, fnv1a64 data,
          (V.tree s).generation, blockCountForSize data.length, V.ofBytes data⟩) := by
    intro i hi
    have hfile := V.file_write hfresh.sound.nodup_pending
      (by rw [hlen]; exact le_mul_blockCountForSize _) hwok
    refine V.putFile_refines (s := { s with
      vol := s.vol.setBits 1 bs, dev := (writeBlocks s.dev bs data).2 }) rfl h.writable hfresh.good
      hfresh.sound hfresh.tree_taken hi hp hmax hlen hfile fun f hf => ?_
    rcases hf with rfl | rfl <;> rfl
  -- the node is looked up in the table of before
  have hfind : (s.vol.setBits 1 bs).findNode s.geo path true = s.vol.findNode s.geo path true := by
    simp only [findNode, setBits_nodes]
  have hfree : (s.vol.setBits 1 bs).findFreeNode s.geo = s.vol.findFreeNode s.geo := by
    simp only [findFreeNode, setBits_nodes]
  rw [hfind, hfree]
  cases hfind' : s.vol.findNode s.geo path true with
  | some i =>
    have hiff := V.dir_iff h i
    simp only [setBits_nodes]
    by_cases hd : (s.vol.nodes i).active ≠ 0 ∧ (s.vol.nodes i).type ≠ nodeFile
    · simp only [if_pos (hiff.mp hd)]
      rw [if_pos hd]
      refine ⟨hfresh.inv_back h, .none, fun _ => rfl, ?_⟩
      rw [hfresh.tree_back]
      rfl
    · simp only [if_neg (fun hh => hd (hiff.mpr hh))]
      rw [if_neg hd]
      exact hput i (of_findNode hfind').1
  | none =>
    cases hfree' : s.vol.findFreeNode s.geo with
    | some i => exact hput i (of_findFreeNode hfree').1
    | none =>
      refine ⟨hfresh.inv_back h, .none, fun _ => rfl, ?_⟩
      rw [hfresh.tree_back]
      rfl

/-! ### Deleting and renaming -/

/-- A match among the active nodes is active and has the name. -/
theorem of_isMatch_false (h : n.isMatch path false = true) : n.active ≠ 0 ∧ n.name = path := by
  simpa [isMatch] using h

theorem valid_deleted (hn : n.valid g = true) : (n.deleted gen).valid g = true := by
  have hv := valid_iff.mp hn
  refine valid_iff.mpr ⟨fun h => hv.path (.inr (h.resolve_left fun h' => h' rfl)),
    fun h => absurd rfl h, hv.snapshotType, ?_, hv.snapshotBlockCount, hv.size, hv.snapshotSize⟩
  unfold deleted
  split
  · exact Nat.zero_le _
  · exact hv.blockCount

/-- **`delete_node` refines the tree operation.** -/
theorem deleteNode_refines (h : V.Inv s) (path : CString) :
    V.Refines (deleteNode s path) fun f => (V.tree s).delete g f path := by
  have hgeo := h.geo
  subst hgeo
  unfold deleteNode Tree.delete
  rw [h.writable, V.find_tree, V.hasActiveChildren_tree]
  refine V.refines_if h (by simp) fun _ => ?_
  cases hfind : s.vol.findNode s.geo path false with
  | none => exact V.refines_self h fun _ => rfl
  | some i =>
    obtain ⟨hi, hm⟩ := of_findNode hfind
    obtain ⟨ha, -⟩ := of_isMatch_false hm
    simp only [if_neg ha]
    refine V.refines_if h (V.busy_iff ha path) fun _ => ?_
    set n := s.vol.nodes i with hn
    have hvol : (if n.type = nodeFile then s.vol.freeBlocks s.geo n.blockList else s.vol) =
        s.vol.freeBlocks s.geo n.liveBlocks := by
      rw [← freeBlocks_liveBlocks]
      simp only [ne_eq, ha, not_false_eq_true, true_and]
    rw [hvol, freeBlocks_generation]
    have hperm : ((n.deleted s.vol.generation).owned ++ n.liveBlocks).Perm (n.owned ++ []) := by
      have hl : (n.deleted s.vol.generation).liveBlocks = [] := if_neg fun h' => h'.1 rfl
      rw [Node.owned, hl, Node.owned, append_nil]
      exact perm_append_comm
    refine V.putNode_refines _ rfl h.writable h.good h.sound hi (valid_deleted _ (h.sound.valid i))
      hperm fun f _ => ?_
    rw [entry, V.live_of_inactive rfl]
    rfl

theorem valid_renamed (hn : n.valid g = true) (hp : validatePath path = .ok) :
    (n.renamed path gen).valid g = true := by
  have hv := valid_iff.mp hn
  have hname : (n.renamed path gen).name = path := name_copyInto hp
  exact valid_iff.mpr ⟨fun _ => by rw [hname, hp], hv.type, hv.snapshotType, hv.blockCount,
    hv.snapshotBlockCount, hv.size, hv.snapshotSize⟩

/-- **`rename_node` refines the tree operation.** -/
theorem renameNode_refines (h : V.Inv s) (oldPath newPath : CString) :
    V.Refines (renameNode s oldPath newPath) fun f => (V.tree s).rename g f oldPath newPath := by
  have hgeo := h.geo
  subst hgeo
  unfold renameNode Tree.rename
  rw [h.writable, V.parentExistsFor_tree, V.find_tree, V.find_tree, V.hasActiveChildren_tree]
  refine V.refines_if h (by simp [or_assoc]) fun hgd => ?_
  push Not at hgd
  cases hfind : s.vol.findNode s.geo oldPath false with
  | none => exact V.refines_self h fun _ => rfl
  | some i =>
    obtain ⟨hi, hm⟩ := of_findNode hfind
    obtain ⟨ha, -⟩ := of_isMatch_false hm
    simp only [if_neg ha]
    refine V.refines_if h .rfl fun _ => V.refines_if h (V.busy_iff ha oldPath) fun _ => ?_
    refine V.putNode_refines [] rfl h.writable h.good h.sound hi
      (valid_renamed s.vol.generation (h.sound.valid i) hgd.2.1) (List.Perm.refl _) fun f _ => ?_
    have hname : ((s.vol.nodes i).renamed newPath s.vol.generation).name = newPath :=
      name_copyInto hgd.2.1
    have hlive : V.live s.dev ((s.vol.nodes i).renamed newPath s.vol.generation) =
        ((V.tree s).entry i).live.map fun c => { c with generation := s.vol.generation } := by
      have hl : ((V.tree s).entry i).live = some _ := V.live_of_active ha
      rw [hl, V.live_of_active (n := (s.vol.nodes i).renamed newPath s.vol.generation) ha]
      rfl
    rw [entry, hname, hlive]
    rfl

end View

end Xaios.MutableFs
