import Mathlib.Data.List.OfFn
import Mathlib.Tactic.Ring

/-!
# Fixed-width codecs

A record that is laid down byte by byte and read back by walking a pointer over
the same bytes. A `Codec` is a writer and a reader of one width; the
combinators build the codec of a record out of the codecs of its fields in the
order in which they are laid down, and the round trip of the whole is the round
trip of the parts.

The law carried by a codec is `Codec.decode_append`: the reader does not look
past the bytes the writer produced. That is what makes the product and the
array codecs compose, since the reader of the second field is run on the bytes
that the first one leaves.

Integers are little-endian (`leBytes`, `leNat`).
-/

namespace Foundation

open List

/-! ### Little-endian numbers -/

/-- The `k` low bytes of a number, least significant first. -/
def leBytes : ℕ → ℕ → List UInt8
  | 0, _ => []
  | k + 1, n => UInt8.ofNat n :: leBytes k (n / 256)

/-- The number spelt by a list of bytes, least significant first. -/
def leNat : List UInt8 → ℕ
  | [] => 0
  | b :: bs => b.toNat + 256 * leNat bs

@[simp] theorem length_leBytes (k n : ℕ) : (leBytes k n).length = k := by
  induction k generalizing n with
  | zero => rfl
  | succ k ih => simp [leBytes, ih]

/-- Reading back `k` bytes of a number gives it modulo `256 ^ k`. -/
theorem leNat_leBytes (k n : ℕ) : leNat (leBytes k n) = n % 256 ^ k := by
  induction k generalizing n with
  | zero => simp [leBytes, leNat, Nat.mod_one]
  | succ k ih =>
    have hb : (UInt8.ofNat n).toNat = n % 256 := by simp
    rw [leBytes, leNat, ih, hb, Nat.pow_succ, Nat.mul_comm (256 ^ k) 256, Nat.mod_mul]

theorem leNat_lt (l : List UInt8) : leNat l < 256 ^ l.length := by
  induction l with
  | nil => exact Nat.one_pos
  | cons b l ih =>
    have hb := b.toNat_lt
    rw [leNat, length_cons, Nat.pow_succ]
    omega

theorem leBytes_zero (k : ℕ) : leBytes k 0 = replicate k 0 := by
  induction k with
  | zero => rfl
  | succ k ih => simp [leBytes, ih, replicate_succ]

/-! ### Codecs -/

/-- **A codec of one width**: what the writer lays down has that width, and the
reader run on it, whatever follows, gives the value back. -/
structure Codec (α : Type) where
  /-- The number of bytes a value takes. -/
  width : ℕ
  /-- The writer. -/
  encode : α → List UInt8
  /-- The reader, run on the bytes from the current position on. -/
  decode : List UInt8 → α
  length_encode : ∀ a, (encode a).length = width
  decode_append : ∀ a rest, decode (encode a ++ rest) = a

namespace Codec

variable {α β : Type}

attribute [simp] length_encode decode_append

/-- One byte. -/
def u8 : Codec UInt8 where
  width := 1
  encode := fun b => [b]
  decode := fun bs => bs.headD 0
  length_encode := fun _ => rfl
  decode_append := fun _ _ => rfl

/-- A word is read back from its bytes. -/
theorem leNat_take_leBytes {k n : ℕ} (h : n < 256 ^ k) (rest : List UInt8) :
    leNat ((leBytes k n ++ rest).take k) = n := by
  rw [take_append_of_le_length (by simp), take_of_length_le (by simp), leNat_leBytes,
    Nat.mod_eq_of_lt h]

/-- A 16-bit word. -/
def u16 : Codec UInt16 where
  width := 2
  encode := fun x => leBytes 2 x.toNat
  decode := fun bs => UInt16.ofNat (leNat (bs.take 2))
  length_encode := fun _ => by simp
  decode_append := fun x rest => by
    rw [leNat_take_leBytes (by simpa using x.toNat_lt)]
    simp

/-- A 32-bit word. -/
def u32 : Codec UInt32 where
  width := 4
  encode := fun x => leBytes 4 x.toNat
  decode := fun bs => UInt32.ofNat (leNat (bs.take 4))
  length_encode := fun _ => by simp
  decode_append := fun x rest => by
    rw [leNat_take_leBytes (by simpa using x.toNat_lt)]
    simp

/-- A 64-bit word. -/
def u64 : Codec UInt64 where
  width := 8
  encode := fun x => leBytes 8 x.toNat
  decode := fun bs => UInt64.ofNat (leNat (bs.take 8))
  length_encode := fun _ => by simp
  decode_append := fun x rest => by
    rw [leNat_take_leBytes (by simpa using x.toNat_lt)]
    simp

/-- One field after another. -/
def prod (c : Codec α) (d : Codec β) : Codec (α × β) where
  width := c.width + d.width
  encode := fun p => c.encode p.1 ++ d.encode p.2
  decode := fun bs => (c.decode bs, d.decode (bs.drop c.width))
  length_encode := fun p => by simp
  decode_append := fun p rest => by
    rw [append_assoc, c.decode_append, ← c.length_encode p.1, drop_left,
      d.decode_append]

/-- Dropping whole entries of a list of entries of one width. -/
theorem drop_flatten {w : ℕ} (L : List (List UInt8)) (hw : ∀ l ∈ L, l.length = w)
    (rest : List UInt8) {i : ℕ} (hi : i < L.length) :
    (L.flatten ++ rest).drop (i * w) = L.get ⟨i, hi⟩ ++ ((L.drop (i + 1)).flatten ++ rest) := by
  induction L generalizing i with
  | nil => simp at hi
  | cons l L ih =>
    cases i with
    | zero => simp
    | succ i =>
      have hl : l.length = w := hw l (by simp)
      have hdrop : (i + 1) * w = l.length + i * w := by rw [hl]; ring
      rw [hdrop, flatten_cons, append_assoc, ← drop_drop, drop_left,
        ih (fun l' hl' => hw l' (by simp [hl'])) (by simpa using hi)]
      rfl

theorem length_flatten_of_width {w : ℕ} (L : List (List UInt8)) (hw : ∀ l ∈ L, l.length = w) :
    L.flatten.length = L.length * w := by
  induction L with
  | nil => simp
  | cons l L ih =>
    rw [flatten_cons, length_append, hw l (by simp),
      ih fun l' hl' => hw l' (by simp [hl']), length_cons]
    ring

variable (c : Codec α)

/-- The bytes of fields of one kind are of one width. -/
theorem length_of_mem_ofFn {n : ℕ} (f : Fin n → α) :
    ∀ l ∈ ofFn fun i => c.encode (f i), l.length = c.width := by
  intro l hl
  obtain ⟨i, rfl⟩ := (mem_ofFn' _ _).mp hl
  exact c.length_encode _

/-- `n` fields of one kind, one after another. -/
def array (n : ℕ) (c : Codec α) : Codec (Fin n → α) where
  width := n * c.width
  encode := fun f => (ofFn fun i => c.encode (f i)).flatten
  decode := fun bs i => c.decode (bs.drop (i * c.width))
  length_encode := fun f => by
    rw [length_flatten_of_width _ (c.length_of_mem_ofFn f), length_ofFn]
  decode_append := fun f rest => by
    funext i
    rw [drop_flatten _ (c.length_of_mem_ofFn f) rest
      (by simp : (i : ℕ) < (ofFn fun i => c.encode (f i)).length)]
    simp

/-- A codec read through a presentation of its values. -/
def map (c : Codec α) (f : α → β) (g : β → α) (h : ∀ b, f (g b) = b) : Codec β where
  width := c.width
  encode := fun b => c.encode (g b)
  decode := fun bs => f (c.decode bs)
  length_encode := fun b => c.length_encode (g b)
  decode_append := fun b rest => by rw [c.decode_append, h]

@[simp] theorem width_u8 : u8.width = 1 := rfl

@[simp] theorem width_u16 : u16.width = 2 := rfl

@[simp] theorem width_u32 : u32.width = 4 := rfl

@[simp] theorem width_u64 : u64.width = 8 := rfl

@[simp] theorem width_prod (d : Codec β) : (c.prod d).width = c.width + d.width := rfl

@[simp] theorem width_array (n : ℕ) (c : Codec α) : (array n c).width = n * c.width := rfl

@[simp] theorem width_map (f : α → β) (g : β → α) (h : ∀ b, f (g b) = b) :
    (c.map f g h).width = c.width := rfl

/-- Past a value of known width. -/
@[simp] theorem drop_encode (a : α) (rest : List UInt8) :
    (c.encode a ++ rest).drop c.width = rest := by
  rw [← c.length_encode a, drop_left]

/-- A byte of an array is a byte of one of its values. -/
theorem getElem?_array {n : ℕ} (f : Fin n → α) (i : Fin n) {r : ℕ} (hr : r < c.width)
    (rest : List UInt8) :
    ((array n c).encode f ++ rest)[i * c.width + r]? = (c.encode (f i))[r]? := by
  have hdrop := drop_flatten _ (c.length_of_mem_ofFn f) rest
    (by simp : (i : ℕ) < (ofFn fun i => c.encode (f i)).length)
  rw [← getElem?_drop]
  refine (congrArg (fun l : List UInt8 => l[r]?) hdrop).trans ?_
  rw [getElem?_append_left (by simpa using hr)]
  simp

end Codec

end Foundation
