import Mathlib.Data.List.OfFn
import Mathlib.Data.List.TakeWhile

/-!
# C strings and the buffers that hold them

A C string is the list of its bytes up to the terminator, so it holds no zero
byte (`Foundation.CString`). A buffer of `n` bytes holds the string spelt before
its first zero (`Foundation.cstr`); whatever stands behind that zero is left
over from earlier writes. `Foundation.copyInto` is the copy loop of such code:
it writes the bytes and a terminator, and leaves the rest of the buffer alone.
-/

namespace Foundation

open List

/-- A C string: its bytes before the terminator. -/
@[ext] structure CString where
  /-- The bytes before the terminator. -/
  bytes : List UInt8
  noNul : 0 ∉ bytes
  deriving DecidableEq

namespace CString

/-- The number of bytes before the terminator. -/
def length (s : CString) : ℕ := s.bytes.length

/-- The byte at an index, the terminator at the end of the string. -/
def byteAt (s : CString) (i : ℕ) : UInt8 := s.bytes.getD i 0

/-- The string without bytes. -/
def empty : CString := ⟨[], by simp⟩

/-- The first `n` bytes of a string. -/
def take (s : CString) (n : ℕ) : CString :=
  ⟨s.bytes.take n, fun h => s.noNul (mem_of_mem_take h)⟩

@[simp] theorem bytes_take (s : CString) (n : ℕ) : (s.take n).bytes = s.bytes.take n := rfl

end CString

/-- The bytes of a text in ASCII. -/
def ascii (text : String) : List UInt8 := text.toList.map fun c => UInt8.ofNat c.toNat

/-- The string of a text. -/
def CString.ofChars (text : List Char) : CString where
  bytes := (text.map fun c => UInt8.ofNat c.toNat).takeWhile (· ≠ 0)
  noNul := fun h => by simpa using mem_takeWhile_imp h

/-- The string of a literal. -/
def CString.ofAscii (text : String) : CString := .ofChars text.toList

/-- The string a buffer holds. -/
def cstr {n : ℕ} (buf : Fin n → UInt8) : CString where
  bytes := (ofFn buf).takeWhile (· ≠ 0)
  noNul := fun h => by simpa using mem_takeWhile_imp h

/-- The copy loop `while (i + 1 < n && src[i] != 0) dst[i] = src[i]`, with the
terminator it writes behind the last byte. -/
def copyInto {n : ℕ} (dst : Fin n → UInt8) (src : CString) : Fin n → UInt8 := fun i =>
  if (i : ℕ) < min src.length (n - 1) then src.byteAt i
  else if (i : ℕ) = min src.length (n - 1) then 0 else dst i

/-- The bytes a buffer spells, when it is the string, a zero and a rest. -/
theorem cstr_bytes_of_prefix {n : ℕ} {buf : Fin n → UInt8} {s : CString} (hs : s.length < n)
    (hpre : ∀ i : Fin n, (i : ℕ) < s.length → buf i = s.byteAt i)
    (hend : buf ⟨s.length, hs⟩ = 0) : cstr buf = s := by
  have hsplit : ofFn buf = s.bytes ++ 0 :: (ofFn buf).drop (s.length + 1) := by
    apply ext_getElem?
    intro i
    rcases Nat.lt_trichotomy i s.length with hi | hi | hi
    · have hin : i < n := lt_trans hi hs
      have hb : i < s.bytes.length := hi
      rw [List.getElem?_append_left hb, List.getElem?_ofFn, dif_pos hin, hpre ⟨i, hin⟩ hi]
      simp [CString.byteAt, hb]
    · subst hi
      have hb : s.length = s.bytes.length := rfl
      rw [List.getElem?_append_right (by omega), List.getElem?_ofFn, dif_pos hs, hend, hb]
      simp
    · have hb : s.length = s.bytes.length := rfl
      rw [getElem?_append_right (by omega),
        show i - s.bytes.length = (i - s.bytes.length - 1) + 1 by omega, getElem?_cons_succ,
        getElem?_drop]
      congr 1
      omega
  ext1
  change (ofFn buf).takeWhile (· ≠ 0) = s.bytes
  have hall : ∀ b ∈ s.bytes, decide (b ≠ 0) = true := fun b hb =>
    decide_eq_true fun h0 => s.noNul (h0 ▸ hb)
  rw [hsplit, takeWhile_append_of_pos hall]
  simp

/-- **A string that fits is read back from the buffer it was copied into.** -/
theorem cstr_copyInto {n : ℕ} (dst : Fin n → UInt8) {s : CString} (hs : s.length < n) :
    cstr (copyInto dst s) = s := by
  have hmin : min s.length (n - 1) = s.length := by omega
  refine cstr_bytes_of_prefix hs (fun i hi => ?_) ?_
  · rw [copyInto, hmin, if_pos hi]
  · rw [copyInto, hmin]
    simp

/-- A buffer of zeros holds the empty string. -/
theorem cstr_zero {n : ℕ} : cstr (fun _ : Fin n => (0 : UInt8)) = .empty := by
  ext1
  change (ofFn fun _ : Fin n => (0 : UInt8)).takeWhile (· ≠ 0) = []
  cases n with
  | zero => rfl
  | succ n => simp [ofFn_succ]

end Foundation
