import Xaios.Foundation.Ledger
import Xaios.MutableFs.Snapshot

/-!
# Who owns which block

A block belongs to the live version of an active file node, to the snapshot
version of a snapshot-active one, or to nobody. The invariant is
`MutableFs.Volume.Sound`: what the nodes own together is, up to order, the
list of blocks the bitmap marks. Since the latter has no repetitions, no block is
owned twice, and since it is all that is marked, no block is lost.

In the middle of an operation there are blocks that are marked and belong to no
node yet, or no longer. They are carried as a list of pending blocks. The rules
move blocks between the nodes, the pending list and the bitmap: allocating
(`Sound.alloc`), freeing (`Sound.free`) and replacing a node (`Sound.setNode`).

The invariant also keeps what `validate_disk` asks of each node, which no
operation violates.
-/

namespace Xaios.MutableFs

open Foundation Function List

/-! ### The blocks of a node -/

namespace Node

/-- The blocks of the live version. -/
def liveBlocks (n : Node) : List UInt16 :=
  if n.active ≠ 0 ∧ n.type = nodeFile then n.blockList else []

/-- The blocks of the snapshot version. -/
def snapBlocks (n : Node) : List UInt16 :=
  if n.snapshotActive ≠ 0 ∧ n.snapshotType = nodeFile then n.snapshotBlockList else []

/-- The blocks of a node. -/
def owned (n : Node) : List UInt16 := n.liveBlocks ++ n.snapBlocks

end Node

/-- What a block array holds, up to the number of blocks put into it. -/
theorem take_blockArray {bs : List UInt16} {k : ℕ} (hk : k = bs.length) (h16 : bs.length ≤ 16) :
    (ofFn (blockArray bs)).take k = bs := by
  subst hk
  apply ext_getElem
  · simp [h16]
  · intro i h1 h2
    rw [List.getElem_take, List.getElem_ofFn, blockArray, List.getD_eq_getElem?_getD,
      getElem?_eq_getElem h2]
    rfl

/-! ### The marked blocks -/

namespace Volume

/-- The blocks of the data region that the bitmap marks. -/
def usedList (v : Volume) (g : Geometry) : List UInt16 :=
  ((range g.dataSectors).filter fun b => v.bit b ≠ 0).map UInt16.ofNat

/-- What the nodes own together. -/
def owned (v : Volume) : List UInt16 := total fun i => (v.nodes i).owned

variable {g : Geometry}

theorem toNat_ofNat_of_lt {b : ℕ} (h : b < g.dataSectors) : (UInt16.ofNat b).toNat = b := by
  have := g.dataSectors_le
  simpa using Nat.mod_eq_of_lt (by omega : b < 65536)

theorem mem_usedList {v : Volume} {b : UInt16} :
    b ∈ v.usedList g ↔ b.toNat < g.dataSectors ∧ v.bit b.toNat ≠ 0 := by
  constructor
  · intro h
    obtain ⟨c, hc, rfl⟩ := mem_map.mp h
    have hc' := mem_filter.mp hc
    have hlt : c < g.dataSectors := mem_range.mp hc'.1
    rw [toNat_ofNat_of_lt hlt]
    exact ⟨hlt, by simpa using hc'.2⟩
  · rintro ⟨hlt, h0⟩
    refine mem_map.mpr ⟨b.toNat, mem_filter.mpr ⟨mem_range.mpr hlt, by simpa using h0⟩,
      ?_⟩
    simp

theorem nodup_usedList (v : Volume) (g : Geometry) : (v.usedList g).Nodup := by
  refine List.Nodup.map_on ?_ (nodup_range.filter _)
  intro b hb c hc h
  have hb' : b < g.dataSectors := mem_range.mp (mem_filter.mp hb).1
  have hc' : c < g.dataSectors := mem_range.mp (mem_filter.mp hc).1
  rw [← toNat_ofNat_of_lt hb', ← toNat_ofNat_of_lt hc', h]

/-- Each block of the data region is either marked or free. -/
theorem length_usedList_add (v : Volume) (g : Geometry) :
    (v.usedList g).length + (v.freeList g).length = g.dataSectors := by
  have h := length_eq_length_filter_add (l := range g.dataSectors)
    (fun b => decide (v.bit b = 0))
  rw [length_range] at h
  have hnot : ((range g.dataSectors).filter fun b => v.bit b ≠ 0) =
      (range g.dataSectors).filter fun b => !decide (v.bit b = 0) :=
    filter_congr fun b _ => by simp
  rw [usedList, length_map, freeList, hnot]
  omega

/-- Allocating marks the blocks handed out. -/
theorem usedList_alloc (v : Volume) (g : Geometry) (count : ℕ) :
    ((v.setBits 1 (v.firstFree g count)).usedList g).Perm
      (v.firstFree g count ++ v.usedList g) := by
  have hlt : ∀ b ∈ v.firstFree g count, b.toNat < 256 := fun b hb =>
    lt_of_lt_of_le (mem_firstFree hb).1 g.dataSectors_le
  refine (perm_ext_iff_of_nodup (nodup_usedList _ _) ?_).mpr fun b => ?_
  · refine List.Nodup.append (nodup_firstFree v g count) (nodup_usedList v g) ?_
    intro b hb hb'
    exact (mem_usedList.mp hb').2 (mem_firstFree hb).2
  · have hmem : b.toNat ∈ (v.firstFree g count).map UInt16.toNat ↔ b ∈ v.firstFree g count :=
      mem_map_of_injective fun _ _ => UInt16.toNat_inj.mp
    rw [mem_append, mem_usedList, mem_usedList, bit_setBits _ _ _ hlt]
    by_cases hb : b ∈ v.firstFree g count
    · rw [if_pos (hmem.mpr hb)]
      simp [hb, (mem_firstFree hb).1]
    · rw [if_neg fun h => hb (hmem.mp h)]
      simp [hb]

/-- Freeing unmarks the blocks given back. -/
theorem usedList_free {v : Volume} {bs rest : List UInt16} (h : (bs ++ rest).Perm (v.usedList g)) :
    rest.Perm ((v.freeBlocks g bs).usedList g) := by
  have hnd : (bs ++ rest).Nodup := h.nodup_iff.mpr (nodup_usedList v g)
  obtain ⟨-, hrest, hdisj⟩ := nodup_append.mp hnd
  refine (perm_ext_iff_of_nodup hrest (nodup_usedList _ _)).mpr fun b => ?_
  have hmem : b.toNat ∈ bs.map UInt16.toNat ↔ b ∈ bs :=
    mem_map_of_injective fun _ _ => UInt16.toNat_inj.mp
  have hall : b ∈ bs ∨ b ∈ rest ↔ b.toNat < g.dataSectors ∧ v.bit b.toNat ≠ 0 := by
    rw [← mem_append, h.mem_iff, mem_usedList]
  rw [mem_usedList, bit_freeBlocks]
  by_cases hb : b ∈ bs
  · have hlt : b.toNat < g.dataSectors := (hall.mp (.inl hb)).1
    have hnot : b ∉ rest := fun hr => hdisj b hb b hr rfl
    rw [if_pos ⟨hlt, hmem.mpr hb⟩]
    simp [hnot]
  · rw [if_neg fun h => hb (hmem.mp h.2), ← hall]
    simp [hb]

/-! ### The invariant -/

/-- **The invariant of the volume**, with the blocks an operation holds at the
moment. -/
structure Sound (v : Volume) (g : Geometry) (pending : List UInt16) : Prop where
  /-- What the nodes own and what is pending is what the bitmap marks. -/
  perm : (v.owned ++ pending).Perm (v.usedList g)
  /-- Nothing is marked or stored outside the geometry. -/
  within : v.Within g
  /-- Each node passes the checks of `validate_disk`. -/
  valid : ∀ i, (v.nodes i).valid g = true

namespace Sound

variable {v w : Volume} {g : Geometry} {bs cs pending : List UInt16}

section

variable (h : v.Sound g pending)

include h

/-- The bitmap and the pending blocks change together. -/
theorem rebitmap (hn : w.nodes = v.nodes) (hp : (v.owned ++ cs).Perm (w.usedList g))
    (hout : ∀ b, g.dataSectors ≤ b → w.bit b = v.bit b) : w.Sound g cs where
  perm := by rwa [Volume.owned, hn]
  within := by
    refine ⟨fun b hb => ?_, fun i hi => hn ▸ h.within.nodes i hi⟩
    have hbit := hout b.val hb
    simp only [bit, b.isLt, dif_pos] at hbit
    rw [hbit]
    exact h.within.bitmap b hb
  valid := fun i => hn ▸ h.valid i

/-- The invariant is about the nodes and the bitmap. -/
theorem congr (hn : w.nodes = v.nodes) (hb : w.blockBitmap = v.blockBitmap) :
    w.Sound g pending := by
  have hbit : w.bit = v.bit := funext fun b => by rw [bit, bit, hb]
  refine h.rebitmap hn ?_ fun b _ => congrFun hbit b
  rw [usedList, hbit]
  exact h.perm

theorem nodup : (v.owned ++ pending).Nodup :=
  h.perm.nodup_iff.mpr (v.nodup_usedList g)

variable {i : Fin 64}

/-- The blocks of a node are marked. -/
theorem mem_used {b : UInt16} (hb : b ∈ (v.nodes i).owned) :
    b.toNat < g.dataSectors ∧ v.bit b.toNat ≠ 0 :=
  mem_usedList.mp (h.perm.mem_iff.mp (mem_append_left _ (mem_total.mpr ⟨i, hb⟩)))

/-- No pending block belongs to a node. -/
theorem not_mem_pending {b : UInt16} (hb : b ∈ (v.nodes i).owned) :
    b ∉ pending := fun hp =>
  (nodup_append.mp h.nodup).2.2 b (mem_total.mpr ⟨i, hb⟩) b hp rfl

theorem nodup_pending : pending.Nodup := (nodup_append.mp h.nodup).2.1

/-- **The blocks that are free**, by what the nodes own. -/
theorem length_freeList :
    (v.freeList g).length + (∑ i, (v.nodes i).owned.length) + pending.length = g.dataSectors := by
  have h1 := h.perm.length_eq
  rw [length_append, Volume.owned, length_total] at h1
  have h2 := v.length_usedList_add g
  omega

/-- Allocating adds to the pending blocks. -/
theorem alloc (count : ℕ) :
    (v.setBits 1 (v.firstFree g count)).Sound g (v.firstFree g count ++ pending) := by
  refine h.rebitmap (by rw [setBits_eq]) ?_ fun b hb => ?_
  · refine List.Perm.trans ?_ (v.usedList_alloc g count).symm
    refine List.Perm.trans ?_ (h.perm.append_left _)
    rw [← append_assoc, ← append_assoc]
    exact perm_append_comm.append_right _
  · rw [bit_setBits v 1 _ fun c hc => lt_of_lt_of_le (mem_firstFree hc).1 g.dataSectors_le, if_neg]
    intro hm
    obtain ⟨c, hc, rfl⟩ := mem_map.mp hm
    exact absurd (mem_firstFree hc).1 (Nat.not_lt.mpr hb)

end

/-- Freeing takes from the pending blocks. -/
theorem free (h : v.Sound g (bs ++ pending)) : (v.freeBlocks g bs).Sound g pending := by
  refine h.rebitmap (by rw [freeBlocks_eq]) ?_ fun b hb => ?_
  · refine usedList_free (List.Perm.trans ?_ h.perm)
    rw [← append_assoc, ← append_assoc]
    exact perm_append_comm.append_right _
  · rw [bit_freeBlocks, if_neg (by omega)]

/-- **Replacing a node** exchanges its blocks with pending ones. -/
theorem setNode {n : Node} (h : v.Sound g bs) (hi : i.val < g.maxNodes)
    (hp : (n.owned ++ cs).Perm ((v.nodes i).owned ++ bs)) (hn : n.valid g = true) :
    (v.setNode i n).Sound g cs := by
  have howned : (v.setNode i n).owned =
      total (update (fun j => (v.nodes j).owned) i n.owned) := by
    rw [Volume.owned]
    congr 1
    funext j
    rcases eq_or_ne j i with rfl | hne
    · simp
    · simp [hne]
  refine ⟨?_, ⟨h.within.bitmap, fun j hj => ?_⟩, fun j => ?_⟩
  · -- cancel what the node owned before
    refine List.Perm.trans ?_ h.perm
    rw [howned]
    have hu := total_update_perm (fun j => (v.nodes j).owned) i n.owned
    refine (perm_append_right_iff (v.nodes i).owned).mp ?_
    calc total (update (fun j => (v.nodes j).owned) i n.owned) ++ cs ++ (v.nodes i).owned
        _ |>.Perm (total (update (fun j => (v.nodes j).owned) i n.owned) ++
            (v.nodes i).owned ++ cs) := by
          rw [append_assoc, append_assoc]
          exact perm_append_comm.append_left _
        _ |>.Perm (v.owned ++ n.owned ++ cs) := hu.append_right cs
        _ |>.Perm (v.owned ++ ((v.nodes i).owned ++ bs)) := by
          rw [append_assoc]
          exact hp.append_left _
        _ |>.Perm (v.owned ++ bs ++ (v.nodes i).owned) := by
          rw [append_assoc]
          exact perm_append_comm.append_left _
  · have hne : j ≠ i := fun hji => by
      rw [hji] at hj
      omega
    rw [setNode_nodes, update_of_ne hne]
    exact h.within.nodes j hj
  · rw [setNode_nodes]
    rcases eq_or_ne j i with rfl | hne
    · rwa [update_self]
    · rw [update_of_ne hne]
      exact h.valid j

end Sound

end Volume

end Xaios.MutableFs
