import Mathlib.Data.List.Basic

/-!
# Block devices

A device of numbered sectors, in three strengths:

* `Foundation.BlockDevice` – sectors can be read and written, and either may
  fail. Nothing else is promised: a read may return anything, a write may go
  anywhere. What is proved of a program over an arbitrary device holds for every
  pattern of failures.
* `Foundation.HonestDevice` – the device may still refuse a request, but a read
  that succeeds returns the bytes last written, and a write touches the sector
  it names and no other.
* `Foundation.FaultFreeDevice` – an honest device that serves every request
  below its capacity.

`Foundation.MemDisk` is the fault-free device that keeps its sectors in memory.
-/

namespace Foundation

/-- The contents of a sector of `n` bytes. -/
abbrev Sector (n : ℕ) := {bytes : List UInt8 // bytes.length = n}

namespace Sector

variable {n : ℕ}

/-- A sector buffer of zeros with some bytes copied to its front. -/
def ofBytes (n : ℕ) (bs : List UInt8) : Sector n :=
  ⟨(bs ++ List.replicate n 0).take n, by simp⟩

/-- The sector of zeros. -/
def zero (n : ℕ) : Sector n := ⟨List.replicate n 0, by simp⟩

theorem ofBytes_of_length {bs : List UInt8} (h : bs.length = n) : (ofBytes n bs).val = bs := by
  change (bs ++ List.replicate n 0).take n = bs
  rw [List.take_append_of_le_length (by omega), List.take_of_length_le (by omega)]

end Sector

/-- A device of sectors of `n` bytes. A request answers whether it was served. -/
class BlockDevice (n : ℕ) (D : Type) where
  /-- The number of sectors. -/
  capacity : D → ℕ
  /-- Reads a sector; `none` is a failure. -/
  read : D → ℕ → Option (Sector n) × D
  /-- Writes a sector; `false` is a failure. -/
  write : D → ℕ → Sector n → Bool × D

/-- A device that returns what was last written, whenever it answers. A write
that fails may have damaged the sector it names, and no other. -/
class HonestDevice (n : ℕ) (D : Type) extends BlockDevice n D where
  /-- What the sectors hold. -/
  content : D → ℕ → Sector n
  content_read : ∀ d k, content (read d k).2 = content d
  read_eq : ∀ d k x, (read d k).1 = some x → x = content d k
  content_write_of_ne : ∀ d k x j, j ≠ k → content (write d k x).2 j = content d j
  content_write_self : ∀ d k x, (write d k x).1 = true → content (write d k x).2 k = x

/-- An honest device that serves every request below its capacity. -/
class FaultFreeDevice (n : ℕ) (D : Type) extends HonestDevice n D where
  capacity_read : ∀ d k, capacity (read d k).2 = capacity d
  capacity_write : ∀ d k x, capacity (write d k x).2 = capacity d
  read_isSome : ∀ d k, k < capacity d → (read d k).1.isSome
  write_isOk : ∀ d k x, k < capacity d → (write d k x).1 = true

attribute [simp] HonestDevice.content_read FaultFreeDevice.capacity_read
  FaultFreeDevice.capacity_write

namespace FaultFreeDevice

variable {n : ℕ} {D : Type} [FaultFreeDevice n D]

open BlockDevice HonestDevice

/-- A read below the capacity returns what the sector holds. -/
theorem read_content (d : D) {k : ℕ} (hk : k < capacity n d) :
    (read d k).1 = some (content (n := n) d k) := by
  obtain ⟨x, hx⟩ := Option.isSome_iff_exists.mp (read_isSome d k hk)
  rw [hx, read_eq d k x hx]

end FaultFreeDevice

/-- A device that keeps its sectors in memory. -/
structure MemDisk (n : ℕ) where
  /-- The number of sectors. -/
  capacity : ℕ
  /-- What each sector holds. -/
  sector : ℕ → Sector n

namespace MemDisk

variable {n : ℕ}

/-- A disk of zeros. -/
def blank (n capacity : ℕ) : MemDisk n := ⟨capacity, fun _ => Sector.zero n⟩

instance : BlockDevice n (MemDisk n) where
  capacity := MemDisk.capacity
  read := fun d k => if k < d.capacity then (some (d.sector k), d) else (none, d)
  write := fun d k x =>
    if k < d.capacity then (true, { d with sector := Function.update d.sector k x })
    else (false, d)

instance : FaultFreeDevice n (MemDisk n) where
  content := MemDisk.sector
  content_read := fun d k => by
    by_cases hk : k < d.capacity <;> simp [BlockDevice.read, hk]
  read_eq := fun d k x h => by
    by_cases hk : k < d.capacity <;> simp [BlockDevice.read, hk] at h
    exact h.symm
  content_write_of_ne := fun d k x j hj => by
    by_cases hk : k < d.capacity <;> simp [BlockDevice.write, hk, hj]
  content_write_self := fun d k x h => by
    by_cases hk : k < d.capacity <;> simp [BlockDevice.write, hk] at h ⊢
  capacity_read := fun d k => by
    by_cases hk : k < d.capacity <;> simp [BlockDevice.read, BlockDevice.capacity, hk]
  capacity_write := fun d k x => by
    by_cases hk : k < d.capacity <;> simp [BlockDevice.write, BlockDevice.capacity, hk]
  read_isSome := fun d k hk => by
    simp [BlockDevice.read, show k < d.capacity from hk]
  write_isOk := fun d k x hk => by
    simp [BlockDevice.write, show k < d.capacity from hk]

end MemDisk

end Foundation
