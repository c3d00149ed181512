import Xaios.Crypto.Sha256

/-!
# The SHA-256 and the HMAC of the SSH server

`userspace/sshd/ssh_crypto.c`: a second SHA-256 beside that of the kernel, and `hmac_sha256` on
it. Its constants, rotations and rounds are written as in `kernel/runtime/sha256.c`, and are
taken from there.

The buffer has no length of its own: `count % 64` bytes of it are in use. The padding is written
behind them and not counted, so the digest is that of FIPS 180-4 however the message is cut, and
the message authentication code is that of RFC 2104 (`Hmac.sha256_hmac_correct`).
-/

namespace Xaios.Hmac

open Foundation Foundation.Sha256 List Xaios.Sha256

/-- The two loops that fill `W`. -/
def fillW (block : List UInt8) : List UInt32 :=
  (range' 16 48).foldl
    (fun W i => W ++ [W.getD (i - 16) 0 + Xaios.Sha256.gamma0 (W.getD (i - 15) 0) +
      W.getD (i - 7) 0 + Xaios.Sha256.gamma1 (W.getD (i - 2) 0)])
    ((range 16).map fun i => Xaios.Sha256.loadBe32 (block.drop (i * 4)))

/-- `sha256_compress`. -/
def sha256Compress (state : Words) (block : List UInt8) : Words :=
  state.add ((range 64).foldl (Xaios.Sha256.round (fillW block)) state)

/-- `sha256_ctx_t`. -/
structure Sha256Ctx where
  state : Words
  count : UInt64
  /-- `buffer[0 .. count % 64)`. -/
  buffer : List UInt8

/-- `sha256_init`. -/
def sha256Init : Sha256Ctx where
  state :=
    { a := 0x6a09e667, b := 0xbb67ae85, c := 0x3c6ef372, d := 0xa54ff53a
      e := 0x510e527f, f := 0x9b05688c, g := 0x1f83d9ab, h := 0x5be0cd19 }
  count := 0
  buffer := []

/-- The loop over whole blocks in `sha256_update`, with a count, and the copy of what it leaves. -/
def takeBlocks (state : Words) (count : UInt64) (data : List UInt8) : Sha256Ctx :=
  let done := BlockHash.absorb ⟨64, hash.size_pos, sha256Compress⟩ state data
  ⟨done.1, count, done.2⟩

/-- `sha256_update`. -/
def sha256Update (ctx : Sha256Ctx) (data : List UInt8) : Sha256Ctx :=
  let bufLen := (ctx.count % 64).toNat
  let count := ctx.count + UInt64.ofNat data.length
  if 0 < bufLen then
    let fill := 64 - bufLen
    if data.length < fill then { ctx with count := count, buffer := ctx.buffer ++ data }
    else
      takeBlocks (sha256Compress ctx.state (ctx.buffer ++ data.take fill)) count (data.drop fill)
  else takeBlocks ctx.state count data

/-- `sha256_final`. -/
def sha256Final (ctx : Sha256Ctx) : List UInt8 :=
  let totalBits := ctx.count * 8
  let bufLen := (ctx.count % 64).toNat + 1
  let buffer := ctx.buffer ++ [0x80]
  let (state, buffer) :=
    if 56 < bufLen then
      (sha256Compress ctx.state (buffer ++ replicate (64 - bufLen) 0), replicate 56 0)
    else (ctx.state, buffer ++ replicate (56 - bufLen) 0)
  let s := sha256Compress state (buffer ++
    (range 8).reverse.map fun i => (totalBits >>> (UInt64.ofNat i * 8)).toUInt8)
  [s.a, s.b, s.c, s.d, s.e, s.f, s.g, s.h].flatMap Xaios.Sha256.storeBe32

/-- `sha256_hash`. -/
def sha256Hash (data : List UInt8) : List UInt8 := sha256Final (sha256Update sha256Init data)

/-- `hmac_sha256`. -/
def hmacSha256 (key data : List UInt8) : List UInt8 :=
  let key := if 64 < key.length then sha256Hash key else key
  let kPad := key ++ replicate (64 - key.length) 0
  let inner := sha256Final (sha256Update (sha256Update sha256Init (kPad.map (· ^^^ 0x36))) data)
  sha256Final (sha256Update (sha256Update sha256Init (kPad.map (· ^^^ 0x5c))) inner)

/-- **The compression is that of the kernel**, up to the order of a sum. -/
theorem sha256Compress_eq : sha256Compress = compress := by
  have hfill : fillW = Xaios.Sha256.fillW := by
    funext block
    simp only [fillW, Xaios.Sha256.fillW, Nat.mul_comm]
    congr 1
    funext W i
    congr 2
    ac_rfl
  rw [← Xaios.Sha256.sha256Compress_eq]
  funext state block
  rw [sha256Compress, hfill]
  rfl

/-- A context that has taken in a message. -/
structure Sha256Ctx.Holds (ctx : Sha256Ctx) (m : List UInt8) : Prop where
  absorbed : (ctx.state, ctx.buffer) = hash.absorb initial m
  counted : ctx.count = UInt64.ofNat m.length

variable {ctx : Sha256Ctx} {m : List UInt8}

theorem Sha256Ctx.Holds.length_buffer (h : ctx.Holds m) : ctx.buffer.length = m.length % 64 :=
  (congrArg (fun a => a.2.length) h.absorbed).trans (hash.length_absorb initial m)

/-- The bytes in use are known from the count. -/
theorem Sha256Ctx.Holds.bufLen (h : ctx.Holds m) : (ctx.count % 64).toNat = ctx.buffer.length := by
  rw [h.length_buffer, h.counted, UInt64.toNat_mod, UInt64.toNat_ofNat']
  exact Nat.mod_mod_of_dvd _ (by decide)

theorem holds_takeBlocks {state : Words} {data : List UInt8}
    (h : hash.absorb initial m = hash.absorb state data) :
    (takeBlocks state (UInt64.ofNat m.length) data).Holds m := by
  refine ⟨?_, rfl⟩
  rw [h, takeBlocks, sha256Compress_eq]
  rfl

/-- **An update appends to the message.** -/
theorem Sha256Ctx.Holds.update (h : ctx.Holds m) (data : List UInt8) :
    (sha256Update ctx data).Holds (m ++ data) := by
  have hcount : ctx.count + UInt64.ofNat data.length = UInt64.ofNat (m ++ data).length := by
    rw [h.counted, length_append, UInt64.ofNat_add]
  have habsorb := hash.absorb_append initial m data
  rw [← h.absorbed] at habsorb
  have hlength := h.length_buffer
  simp only [sha256Update, h.bufLen, hcount]
  split
  · split
    · -- all of the bytes go to the buffer
      next hlt =>
      have hshort : (ctx.buffer ++ data).length < 64 := by
        rw [length_append]
        omega
      exact ⟨(habsorb.trans (hash.absorb_of_lt hshort)).symm, rfl⟩
    · -- the buffer becomes a block
      next hge =>
      rw [sha256Compress_eq]
      have hle : ctx.buffer.length ≤ 64 := by omega
      exact holds_takeBlocks (habsorb.trans (hash.absorb_fill hle (not_lt.mp hge)))
  · next hempty =>
    rw [eq_nil_of_length_eq_zero (Nat.eq_zero_of_not_pos hempty)] at habsorb
    exact holds_takeBlocks habsorb

/-- **What is computed is the digest of the message**: the padding fills the block that is begun,
and a second one if the first has no room for the length. -/
theorem final_eq (h : ctx.Holds m) : sha256Final ctx = digest m := by
  have hlength := h.length_buffer
  have hbits : ((range 8).reverse.map fun i =>
      ((ctx.count * 8) >>> (UInt64.ofNat i * 8)).toUInt8) =
      lengthBytes (8 * UInt64.ofNat m.length) := by
    simp only [map_reverse, ← countBytes_eq, h.counted, UInt64.mul_comm _ 8]
    rfl
  have hhash : ∀ bits, hash.absorb initial (padded m ++ bits) = hash.absorb ctx.state
      (ctx.buffer ++ [0x80] ++ (replicate (zeros m.length) 0 ++ bits)) := fun bits => by
    rw [padded, append_assoc, hash.absorb_append, ← h.absorbed, append_assoc]
    rfl
  rw [digest, digestWith, hashWith, hhash, sha256Final, hbits, h.bufLen, sha256Compress_eq, zeros,
    ← hlength]
  have h8 : (lengthBytes (8 * UInt64.ofNat m.length)).length = 8 := rfl
  generalize lengthBytes (8 * UInt64.ofNat m.length) = bits at *
  by_cases hfull : 56 < ctx.buffer.length + 1
  · have hzeros : (119 - ctx.buffer.length) % 64 = 64 - (ctx.buffer.length + 1) + 56 := by omega
    rw [if_pos hfull, hzeros, replicate_add, append_assoc (replicate _ _), ← append_assoc,
      hash.absorb_block, hash.absorb_single]
    · exact flatMap_storeBe32 _
    · simp [h8, Sha256.hash]
    · simp [Sha256.hash]
      omega
  · have hzeros : (119 - ctx.buffer.length) % 64 = 56 - (ctx.buffer.length + 1) := by omega
    rw [if_neg hfull, hzeros, ← append_assoc, hash.absorb_single]
    · exact flatMap_storeBe32 _
    · simp [h8, Sha256.hash]
      omega

/-- **The hash functions of the SSH server are those of the standards**: SHA-256 of every message
in every way of cutting it, and HMAC with every key. -/
theorem sha256_hmac_correct :
    (∀ pieces : List (List UInt8),
      sha256Final (pieces.foldl sha256Update sha256Init) = digest pieces.flatten) ∧
    ∀ key data : List UInt8, hmacSha256 key data = hmac digest 64 key data := by
  have hdigest : ∀ pieces : List (List UInt8),
      sha256Final (pieces.foldl sha256Update sha256Init) = digest pieces.flatten :=
    fun pieces => final_eq (BlockHash.foldl_pieces (m := []) Sha256Ctx.Holds
      (fun _ _ data h => h.update data) ⟨rfl, rfl⟩ pieces)
  refine ⟨hdigest, fun key data => ?_⟩
  have hone : ∀ m, sha256Hash m = digest m := fun m => by
    simpa [sha256Hash] using hdigest [m]
  have htwo : ∀ m n, sha256Final (sha256Update (sha256Update sha256Init m) n) = digest (m ++ n) :=
    fun m n => by simpa using hdigest [m, n]
  simp only [hmacSha256, hmac, hone, htwo]

end Xaios.Hmac
