import Xaios.Foundation.Ring

/-!
# The ring of the kernel log

The ring of `klog_ring.c`, from `klog_ring_init` on: the messages of the kernel go in at one
end, and `klog_flush` takes them out at the other. A full ring drops its oldest byte for each
new one, so that it is a queue of the newest 65536 bytes (`KlogRing.klogRing_refines`).
-/

namespace Xaios

open Foundation List Foundation.Ring

/-- `g_ring`. -/
structure KlogRing where
  ring : Ring UInt8 65536
  overflow : UInt32

/-- The calls on the ring. -/
inductive KlogCall where
  | write (data : List UInt8)
  | read (maxLen : ℕ)
  | clear

namespace KlogRing

/-- The ring after `klog_ring_init`. -/
def init : KlogRing := ⟨.empty fun _ => 0, 0⟩

/-- One round of `klog_ring_write`: a full ring drops its oldest byte, and counts it. -/
def put (k : KlogRing) (c : UInt8) : KlogRing :=
  ⟨k.ring.push c, if 65536 ≤ k.ring.count then k.overflow + 1 else k.overflow⟩

/-- `klog_ring_write`, `klog_ring_read` and `klog_ring_clear`: the bytes that are read, and the
ring. -/
def exec (k : KlogRing) : KlogCall → List UInt8 × KlogRing
  | .write data => ([], data.foldl put k)
  | .read maxLen => ((k.ring.read maxLen).1, ⟨(k.ring.read maxLen).2, k.overflow⟩)
  | .clear => ([], ⟨.empty k.ring.cells, k.overflow⟩)

/-- **What a call means**, on the bytes that are kept and the number of bytes dropped. -/
def queueExec (q : List UInt8 × ℕ) : KlogCall → List UInt8 × List UInt8 × ℕ
  | .write data => ([], newest 65536 (q.1 ++ data), q.2 + ((q.1 ++ data).length - 65536))
  | .read maxLen => (q.1.take maxLen, q.1.drop maxLen, q.2)
  | .clear => ([], [], q.2)

/-- The ring holds what the queue holds, and counts what it has dropped. -/
def Refines (k : KlogRing) (q : List UInt8 × ℕ) : Prop :=
  k.ring.contents = q.1 ∧ k.overflow = UInt32.ofNat q.2

/-- **The loop of `klog_ring_write`.** -/
theorem Refines.write {k : KlogRing} {q : List UInt8 × ℕ} (h : k.Refines q) (data : List UInt8) :
    (data.foldl put k).Refines (newest 65536 (q.1 ++ data),
      q.2 + ((q.1 ++ data).length - 65536)) := by
  induction data generalizing k q with
  | nil =>
    have hlen : (q.1 ++ []).length - 65536 = 0 := by
      rw [append_nil, ← h.1, length_contents]
      exact Nat.sub_eq_zero_of_le k.ring.count_le
    rwa [newest, hlen, drop_zero, append_nil]
  | cons c data ih =>
    have hcount : q.1.length = k.ring.count := by rw [← h.1, length_contents]
    have hle := k.ring.count_le
    have hput : (k.put c).Refines (newest 65536 (q.1 ++ [c]),
        q.2 + ((q.1 ++ [c]).length - 65536)) := by
      refine ⟨(k.ring.contents_push c).trans (by rw [h.1]), ?_⟩
      rw [length_append, length_singleton, hcount, put]
      dsimp only
      split
      · rw [show k.ring.count + 1 - 65536 = 1 by omega, UInt32.ofNat_add, ← h.2]
        rfl
      · rw [show k.ring.count + 1 - 65536 = 0 by omega, Nat.add_zero, h.2]
    have hsum : (q.1 ++ [c]).length - 65536 +
        ((newest 65536 (q.1 ++ [c]) ++ data).length - 65536) =
        (q.1 ++ c :: data).length - 65536 := by
      simp only [newest, length_append, length_drop, length_cons, length_nil]
      omega
    have hrest := ih hput
    dsimp only at hrest
    rwa [newest_newest, append_assoc, Nat.add_assoc, hsum] at hrest

/-- **One call** gives the bytes it should. -/
theorem Refines.exec {k : KlogRing} {q : List UInt8 × ℕ} (h : k.Refines q) (c : KlogCall) :
    (k.exec c).1 = (queueExec q c).1 ∧ (k.exec c).2.Refines (queueExec q c).2 := by
  cases c with
  | write data => exact ⟨rfl, h.write data⟩
  | read maxLen =>
    exact ⟨(k.ring.read_eq maxLen).trans (congrArg (take maxLen) h.1),
      (k.ring.contents_read maxLen).trans (congrArg (drop maxLen) h.1), h.2⟩
  | clear => exact ⟨rfl, rfl, h.2⟩

/-- **The log keeps the newest bytes.** After every run of calls the ring holds what the queue
holds, its counter is the number of bytes that were dropped, and every next call gives the same
bytes. -/
theorem klogRing_refines (cs : List KlogCall) :
    let k := cs.foldl (fun k c => (k.exec c).2) init
    let q := cs.foldl (fun q c => (queueExec q c).2) ([], 0)
    k.Refines q ∧ ∀ c, (k.exec c).1 = (queueExec q c).1 := by
  have hinit : Refines init ([], 0) := ⟨rfl, rfl⟩
  have h := foldl_rel (l := cs) hinit fun c _ _ _ h => (h.exec c).2
  exact ⟨h, fun c => (h.exec c).1⟩

end KlogRing

end Xaios
