import Xaios.Foundation.Ring

/-!
# Socket buffers

The ring buffers of `socket_buffer.c` and the pool they come from. A pointer to a
buffer is an index of the pool; a null pointer is `none`.

The ring is `Foundation.Ring`, so what was written and not yet read is its contents.
`Net.socket_buffer_fifo` says what follows for every sequence of writes and reads.
-/

namespace Xaios.Net

open Foundation List

/-- `socket_buffer_t`, a ring of `SOCKET_BUFFER_SIZE` bytes. -/
abbrev SocketBuffer := Ring UInt8 4096

/-- `sockbuf_init`: the bytes stay where they are. -/
def sockbufInit (buf : SocketBuffer) : SocketBuffer := Ring.empty buf.cells

/-- `sockbuf_write`: how many bytes were taken, and the buffer. -/
def sockbufWrite (buf : SocketBuffer) (data : List UInt8) : ℕ × SocketBuffer :=
  (min data.length buf.available, buf.write data)

/-- `sockbuf_read`: the bytes, and the buffer. -/
def sockbufRead (buf : SocketBuffer) (len : ℕ) : List UInt8 × SocketBuffer := buf.read len

/-- `sockbuf_used`. -/
def sockbufUsed (buf : SocketBuffer) : ℕ := buf.count

/-- `sockbuf_available`, as the windows are computed from it. -/
def sockbufAvailable (buf : SocketBuffer) : UInt16 := UInt16.ofNat buf.available

/-- `sockbuf_pool_entry_t`. -/
structure PoolEntry where
  buf : SocketBuffer
  inUse : Bool

/-- `g_pool`. -/
abbrev Pool := Fin 32 → PoolEntry

/-- The pool after `sockbuf_pool_init` on zeroed memory. -/
def Pool.init : Pool := fun _ => ⟨Ring.empty fun _ => 0, false⟩

/-- `sockbuf_alloc`: the first entry that is not in use, emptied. -/
def sockbufAlloc (pool : Pool) : Option (Fin 32) × Pool :=
  match (finRange 32).find? fun i => !(pool i).inUse with
  | some i => (some i, Function.update pool i ⟨sockbufInit (pool i).buf, true⟩)
  | none => (none, pool)

/-- `sockbuf_free`. -/
def sockbufFree (pool : Pool) (buf : Option (Fin 32)) : Pool :=
  match buf with
  | some i => Function.update pool i ⟨sockbufInit (pool i).buf, false⟩
  | none => pool

/-! ### Runs -/

/-- A call on one buffer. -/
inductive BufferCall where
  | write (data : List UInt8)
  | read (len : ℕ)

/-- A buffer, with all bytes that it took and all that it gave. -/
structure Traffic where
  buf : SocketBuffer
  accepted : List UInt8
  taken : List UInt8

/-- One call. -/
def Traffic.step (t : Traffic) : BufferCall → Traffic
  | .write data =>
    let r := sockbufWrite t.buf data
    ⟨r.2, t.accepted ++ data.take r.1, t.taken⟩
  | .read len =>
    let r := sockbufRead t.buf len
    ⟨r.2, t.accepted, t.taken ++ r.1⟩

theorem contents_sockbufWrite (buf : SocketBuffer) (data : List UInt8) :
    (sockbufWrite buf data).2.contents = buf.contents ++ data.take (sockbufWrite buf data).1 := by
  rw [sockbufWrite, buf.contents_write, take_eq_take_min, Nat.min_comm]

/-- **What was taken and not yet given is what the buffer holds.** -/
theorem Traffic.accepted_step {t : Traffic} (h : t.accepted = t.taken ++ t.buf.contents)
    (c : BufferCall) : (t.step c).accepted = (t.step c).taken ++ (t.step c).buf.contents := by
  cases c with
  | write data =>
    dsimp only [step]
    rw [contents_sockbufWrite, h, append_assoc]
  | read len =>
    dsimp only [step]
    rw [sockbufRead, Ring.read_eq, Ring.contents_read, h, append_assoc, take_append_drop]

/-- **A socket buffer is a bounded queue.** After every sequence of calls, the positions and the
count agree; what was given is the beginning of what was taken, with as many bytes to come as
the count says; and the next write takes what there is room for, behind the rest. -/
theorem socket_buffer_fifo (buf : SocketBuffer) (calls : List BufferCall) :
    let t := calls.foldl Traffic.step ⟨sockbufInit buf, [], []⟩
    (t.buf.count = (t.buf.head - t.buf.tail).val ∨ t.buf.count = 4096 ∧ t.buf.head = t.buf.tail) ∧
      (∃ rest, t.accepted = t.taken ++ rest ∧ rest.length = t.buf.count) ∧
      ∀ data, (sockbufWrite t.buf data).1 = min data.length (4096 - t.buf.count) ∧
        (sockbufWrite t.buf data).2.contents =
          t.buf.contents ++ data.take (sockbufWrite t.buf data).1 := by
  intro t
  have hcount : (t.buf.head - t.buf.tail).val = t.buf.count % 4096 := by
    rw [t.buf.head_eq, add_sub_cancel_left]
    rfl
  have hrest : t.accepted = t.taken ++ t.buf.contents :=
    foldlRecOn calls Traffic.step (motive := fun t => t.accepted = t.taken ++ t.buf.contents)
      rfl fun _ h c _ => Traffic.accepted_step h c
  refine ⟨?_, ⟨_, hrest, t.buf.length_contents⟩, fun data => ⟨rfl, contents_sockbufWrite _ data⟩⟩
  rcases Nat.lt_or_ge t.buf.count 4096 with hlt | hge
  · exact .inl (by rw [hcount, Nat.mod_eq_of_lt hlt])
  · have hfull : t.buf.count = 4096 := le_antisymm t.buf.count_le hge
    refine .inr ⟨hfull, ?_⟩
    rw [t.buf.head_eq, hfull]
    exact add_zero _

end Xaios.Net
