import Xaios.Foundation.BigEndian
import Xaios.Foundation.BlockStream

/-!
# SHA-256

The hash function of FIPS 180-4 on byte strings: the functions on words (4.1.2), the
constants (4.2.2), the padding (5.1.1), the message schedule and the rounds (6.2.2).

The padding ends with the length of the message. What the standard computes when another
number stands there is `Foundation.Sha256.digestWith`; two numbers give the same digest
exactly if the last block is compressed to the same hash value with either
(`Foundation.Sha256.digestWith_eq_iff`).
-/

namespace Foundation.Sha256

open List

/-! ### Words -/

/-- The rotation to the right. -/
def rotr (n x : UInt32) : UInt32 := (x >>> n) ||| (x <<< (32 - n))

/-- `Ch`. -/
def ch (x y z : UInt32) : UInt32 := (x &&& y) ^^^ (~~~x &&& z)

/-- `Maj`. -/
def maj (x y z : UInt32) : UInt32 := (x &&& y) ^^^ (x &&& z) ^^^ (y &&& z)

/-- `Σ₀`. -/
def bigSigma0 (x : UInt32) : UInt32 := rotr 2 x ^^^ rotr 13 x ^^^ rotr 22 x

/-- `Σ₁`. -/
def bigSigma1 (x : UInt32) : UInt32 := rotr 6 x ^^^ rotr 11 x ^^^ rotr 25 x

/-- `σ₀`. -/
def smallSigma0 (x : UInt32) : UInt32 := rotr 7 x ^^^ rotr 18 x ^^^ (x >>> 3)

/-- `σ₁`. -/
def smallSigma1 (x : UInt32) : UInt32 := rotr 17 x ^^^ rotr 19 x ^^^ (x >>> 10)

/-- The constants `K₀`, …, `K₆₃`. -/
def constants : List UInt32 :=
  [0x428a2f98, 0x71374491, 0xb5c0fbcf, 0xe9b5dba5, 0x3956c25b, 0x59f111f1, 0x923f82a4, 0xab1c5ed5,
    0xd807aa98, 0x12835b01, 0x243185be, 0x550c7dc3, 0x72be5d74, 0x80deb1fe, 0x9bdc06a7, 0xc19bf174,
    0xe49b69c1, 0xefbe4786, 0x0fc19dc6, 0x240ca1cc, 0x2de92c6f, 0x4a7484aa, 0x5cb0a9dc, 0x76f988da,
    0x983e5152, 0xa831c66d, 0xb00327c8, 0xbf597fc7, 0xc6e00bf3, 0xd5a79147, 0x06ca6351, 0x14292967,
    0x27b70a85, 0x2e1b2138, 0x4d2c6dfc, 0x53380d13, 0x650a7354, 0x766a0abb, 0x81c2c92e, 0x92722c85,
    0xa2bfe8a1, 0xa81a664b, 0xc24b8b70, 0xc76c51a3, 0xd192e819, 0xd6990624, 0xf40e3585, 0x106aa070,
    0x19a4c116, 0x1e376c08, 0x2748774c, 0x34b0bcb5, 0x391c0cb3, 0x4ed8aa4a, 0x5b9cca4f, 0x682e6ff3,
    0x748f82ee, 0x78a5636f, 0x84c87814, 0x8cc70208, 0x90befffa, 0xa4506ceb, 0xbef9a3f7, 0xc67178f2]

/-- `K_t`. -/
def constant (t : ℕ) : UInt32 := constants.getD t 0

/-- Word `t` of a block. -/
def blockWord (block : List UInt8) (t : ℕ) : UInt32 :=
  wordOf (block.getD (4 * t) 0) (block.getD (4 * t + 1) 0) (block.getD (4 * t + 2) 0)
    (block.getD (4 * t + 3) 0)

/-- The bytes of a double word, the most significant first. -/
def lengthBytes (n : UInt64) : List UInt8 :=
  [(n >>> 56).toUInt8, (n >>> 48).toUInt8, (n >>> 40).toUInt8, (n >>> 32).toUInt8,
    (n >>> 24).toUInt8, (n >>> 16).toUInt8, (n >>> 8).toUInt8, n.toUInt8]

/-! ### The compression of a block -/

/-- The eight words of a hash value, and the working variables `a`, …, `h`. -/
@[ext] structure Words where
  a : UInt32
  b : UInt32
  c : UInt32
  d : UInt32
  e : UInt32
  f : UInt32
  g : UInt32
  h : UInt32
  deriving DecidableEq

/-- The initial hash value, of 5.3.3. -/
def initial : Words :=
  ⟨0x6a09e667, 0xbb67ae85, 0x3c6ef372, 0xa54ff53a, 0x510e527f, 0x9b05688c, 0x1f83d9ab, 0x5be0cd19⟩

/-- The sum of hash values, word by word. -/
def Words.add (v w : Words) : Words :=
  ⟨v.a + w.a, v.b + w.b, v.c + w.c, v.d + w.d, v.e + w.e, v.f + w.f, v.g + w.g, v.h + w.h⟩

/-- The message schedule `W_t`, from the words of a block. -/
def schedule (M : ℕ → UInt32) (t : ℕ) : UInt32 :=
  if t < 16 then M t
  else
    smallSigma1 (schedule M (t - 2)) + schedule M (t - 7) + smallSigma0 (schedule M (t - 15)) +
      schedule M (t - 16)

theorem schedule_of_lt (M : ℕ → UInt32) {t : ℕ} (h : t < 16) : schedule M t = M t := by
  rw [schedule, if_pos h]

theorem schedule_add (M : ℕ → UInt32) (t : ℕ) :
    schedule M (t + 16) = smallSigma1 (schedule M (t + 14)) + schedule M (t + 9) +
      smallSigma0 (schedule M (t + 1)) + schedule M t := by
  rw [schedule, if_neg (by omega)]
  rfl

/-- One round, with the words of the schedule. -/
def round (W : ℕ → UInt32) (v : Words) (t : ℕ) : Words :=
  let t₁ := v.h + bigSigma1 v.e + ch v.e v.f v.g + constant t + W t
  let t₂ := bigSigma0 v.a + maj v.a v.b v.c
  ⟨t₁ + t₂, v.a, v.b, v.c, v.d + t₁, v.e, v.f, v.g⟩

/-- The hash value after a block. -/
def compress (H : Words) (block : List UInt8) : Words :=
  H.add ((range 64).foldl (round (schedule (blockWord block))) H)

/-- SHA-256 as a hash of blocks of 64 bytes. -/
def hash : BlockHash UInt8 Words where
  size := 64
  size_pos := by decide
  compress := compress

/-! ### The digest of a message -/

/-- How many zero bytes the padding of a message of some length has: the least number
that leaves room for the length in the last block. -/
def zeros (length : ℕ) : ℕ := (119 - length % 64) % 64

theorem mod_zeros (length : ℕ) : (length + 1 + zeros length) % 64 = 56 := by
  unfold zeros
  omega

/-- The message with the bit `1` and the zeros of the padding. -/
def padded (m : List UInt8) : List UInt8 := m ++ 0x80 :: replicate (zeros m.length) 0

theorem length_padded (m : List UInt8) : (padded m).length = m.length + 1 + zeros m.length := by
  simp only [padded, length_append, length_cons, length_replicate]
  omega

/-- The bytes of a hash value. -/
def Words.bytes (v : Words) : List UInt8 :=
  wordBytes v.a ++ wordBytes v.b ++ wordBytes v.c ++ wordBytes v.d ++ wordBytes v.e ++
    wordBytes v.f ++ wordBytes v.g ++ wordBytes v.h

/-- The hash value of a message with `n` in the place of its length. -/
def hashWith (n : UInt64) (m : List UInt8) : Words :=
  (hash.absorb initial (padded m ++ lengthBytes n)).1

/-- The digest of a message with `n` in the place of its length. -/
def digestWith (n : UInt64) (m : List UInt8) : List UInt8 := (hashWith n m).bytes

/-- **The SHA-256 digest**: the length is that of the message in bits. -/
def digest (m : List UInt8) : List UInt8 := digestWith (8 * UInt64.ofNat m.length) m

/-- The message authentication code of RFC 2104 over a hash function with blocks of `size`
bytes. -/
def hmac (H : List UInt8 → List UInt8) (size : ℕ) (key text : List UInt8) : List UInt8 :=
  let key := if size < key.length then H key else key
  let key := key ++ replicate (size - key.length) 0
  H (key.map (· ^^^ 0x5c) ++ H (key.map (· ^^^ 0x36) ++ text))

/-! ### The last block -/

/-- The hash value before the last block. -/
def beforeLast (m : List UInt8) : Words := (hash.absorb initial (padded m)).1

/-- The last block without the length. -/
def lastBlock (m : List UInt8) : List UInt8 := (hash.absorb initial (padded m)).2

theorem length_lastBlock (m : List UInt8) : (lastBlock m).length = 56 := by
  rw [lastBlock, hash.length_absorb, length_padded]
  exact mod_zeros m.length

theorem hashWith_eq (n : UInt64) (m : List UInt8) :
    hashWith n m = compress (beforeLast m) (lastBlock m ++ lengthBytes n) := by
  have hlen : (lastBlock m ++ lengthBytes n).length = hash.size := by
    rw [length_append, length_lastBlock]
    rfl
  rw [hashWith, hash.absorb_append]
  exact congrArg Prod.fst (hash.absorb_single hlen)

/-- A hash value is known from its bytes. -/
theorem bytes_inj {v w : Words} : v.bytes = w.bytes ↔ v = w := by
  refine ⟨fun h => ?_, fun h => by rw [h]⟩
  simp only [Words.bytes, append_assoc] at h
  -- word by word: the bytes of a word are four on either side
  obtain ⟨ha, h⟩ := append_inj h rfl
  obtain ⟨hb, h⟩ := append_inj h rfl
  obtain ⟨hc, h⟩ := append_inj h rfl
  obtain ⟨hd, h⟩ := append_inj h rfl
  obtain ⟨he, h⟩ := append_inj h rfl
  obtain ⟨hf, h⟩ := append_inj h rfl
  obtain ⟨hg, hh⟩ := append_inj h rfl
  exact Words.ext (wordBytes_inj.mp ha) (wordBytes_inj.mp hb) (wordBytes_inj.mp hc)
    (wordBytes_inj.mp hd) (wordBytes_inj.mp he) (wordBytes_inj.mp hf) (wordBytes_inj.mp hg)
    (wordBytes_inj.mp hh)

/-- **Two numbers in the place of the length** give one digest exactly if the last block
gives one hash value with either. -/
theorem digestWith_eq_iff (n n' : UInt64) (m : List UInt8) :
    digestWith n m = digestWith n' m ↔
      compress (beforeLast m) (lastBlock m ++ lengthBytes n) =
        compress (beforeLast m) (lastBlock m ++ lengthBytes n') := by
  rw [digestWith, digestWith, bytes_inj, hashWith_eq, hashWith_eq]

end Foundation.Sha256
