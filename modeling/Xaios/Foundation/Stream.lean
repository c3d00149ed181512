import Mathlib.Data.UInt

/-!
# Pieces of a stream

A stream that arrives in pieces: `Foundation.PieceAt stream a bs` says that `bs` is what
the stream holds from position `a` on. A receiver that has the first `k` elements and
gets a piece at `k` has more of the stream (`Foundation.PieceAt.take_append`), and so
does one that keeps only a part of the piece (`Foundation.PieceAt.take`).

Positions are numbered modulo `2 ^ 32` from an arbitrary start (`Foundation.seqAt`).
Numbers of a stream shorter than `2 ^ 32` are distinct (`Foundation.seqAt_inj`).
-/

namespace Foundation

section Pieces

variable {α : Type} {stream bs : List α} {a : ℕ}

/-- The stream continues with `bs` at position `a`. -/
def PieceAt (stream : List α) (a : ℕ) (bs : List α) : Prop := bs <+: stream.drop a

theorem PieceAt.take (h : PieceAt stream a bs) (n : ℕ) : PieceAt stream a (bs.take n) := by
  have hpart := List.take_prefix n bs
  exact hpart.trans h

theorem PieceAt.length_le (h : PieceAt stream a bs) (hne : bs ≠ []) :
    a + bs.length ≤ stream.length := by
  have hle := List.IsPrefix.length_le h
  have hpos := List.length_pos_of_ne_nil hne
  rw [List.length_drop] at hle
  omega

/-- **A piece at the end of what has arrived extends it.** -/
theorem PieceAt.take_append (h : PieceAt stream a bs) :
    stream.take a ++ bs = stream.take (a + bs.length) := by
  rw [List.take_add, ← List.prefix_iff_eq_take.mp h]

end Pieces

/-- The number of a position, in a numbering that starts at `start`. -/
def seqAt (start : UInt32) (k : ℕ) : UInt32 := start + UInt32.ofNat k

theorem seqAt_add (start : UInt32) (k m : ℕ) :
    seqAt start k + UInt32.ofNat m = seqAt start (k + m) := by
  rw [seqAt, seqAt, UInt32.ofNat_add, UInt32.add_assoc]

theorem seqAt_inj {start : UInt32} {k m : ℕ} (hk : k < 2 ^ 32) (hm : m < 2 ^ 32)
    (h : seqAt start k = seqAt start m) : k = m := by
  have heq : UInt32.ofNat k = UInt32.ofNat m := (UInt32.add_right_inj start).mp h
  have hnat := congrArg UInt32.toNat heq
  rwa [UInt32.toNat_ofNat_of_lt' hk, UInt32.toNat_ofNat_of_lt' hm] at hnat

end Foundation
