import Xaios.Foundation.Sha256

/-!
# The SHA-256 of the kernel

`kernel/runtime/sha256.c`: the compression of a block, and the interface
`xaios_sha256_init`, `xaios_sha256_update`, `xaios_sha256_final` that takes a message in
pieces.

A context has absorbed a message (`Sha256.Ctx.Holds`) when its state is the one
after the whole blocks, its buffer is the rest, and its counter is the number of bits.
An update goes from one message to the longer one, however the pieces are cut. The
padding of `xaios_sha256_final` goes through `xaios_sha256_update` like the message, so
it is counted too, and the counter is written to the last block after that
(`Sha256.final_eq`).

The functions on null pointers are not represented. Of the buffer only the part that is in
use is kept, `buffer[0 .. buffer_len)`: no function reads the rest.
-/

namespace Xaios.Sha256

open Foundation List

open Foundation.Sha256 hiding rotr ch maj round

/-! ### The compression of a block -/

/-- The round constants `K`. -/
def k : List UInt32 :=
  [0x428a2f98, 0x71374491, 0xb5c0fbcf, 0xe9b5dba5, 0x3956c25b, 0x59f111f1,
    0x923f82a4, 0xab1c5ed5, 0xd807aa98, 0x12835b01, 0x243185be, 0x550c7dc3,
    0x72be5d74, 0x80deb1fe, 0x9bdc06a7, 0xc19bf174, 0xe49b69c1, 0xefbe4786,
    0x0fc19dc6, 0x240ca1cc, 0x2de92c6f, 0x4a7484aa, 0x5cb0a9dc, 0x76f988da,
    0x983e5152, 0xa831c66d, 0xb00327c8, 0xbf597fc7, 0xc6e00bf3, 0xd5a79147,
    0x06ca6351, 0x14292967, 0x27b70a85, 0x2e1b2138, 0x4d2c6dfc, 0x53380d13,
    0x650a7354, 0x766a0abb, 0x81c2c92e, 0x92722c85, 0xa2bfe8a1, 0xa81a664b,
    0xc24b8b70, 0xc76c51a3, 0xd192e819, 0xd6990624, 0xf40e3585, 0x106aa070,
    0x19a4c116, 0x1e376c08, 0x2748774c, 0x34b0bcb5, 0x391c0cb3, 0x4ed8aa4a,
    0x5b9cca4f, 0x682e6ff3, 0x748f82ee, 0x78a5636f, 0x84c87814, 0x8cc70208,
    0x90befffa, 0xa4506ceb, 0xbef9a3f7, 0xc67178f2]

/-- `rotr`. -/
def rotr (x n : UInt32) : UInt32 := (x >>> n) ||| (x <<< (32 - n))

/-- `ch`. -/
def ch (x y z : UInt32) : UInt32 := (x &&& y) ^^^ (~~~x &&& z)

/-- `maj`. -/
def maj (x y z : UInt32) : UInt32 := (x &&& y) ^^^ (x &&& z) ^^^ (y &&& z)

/-- `sigma0`. -/
def sigma0 (x : UInt32) : UInt32 := rotr x 2 ^^^ rotr x 13 ^^^ rotr x 22

/-- `sigma1`. -/
def sigma1 (x : UInt32) : UInt32 := rotr x 6 ^^^ rotr x 11 ^^^ rotr x 25

/-- `gamma0`. -/
def gamma0 (x : UInt32) : UInt32 := rotr x 7 ^^^ rotr x 18 ^^^ (x >>> 3)

/-- `gamma1`. -/
def gamma1 (x : UInt32) : UInt32 := rotr x 17 ^^^ rotr x 19 ^^^ (x >>> 10)

/-- `load_be32`. -/
def loadBe32 (p : List UInt8) : UInt32 :=
  ((p.getD 0 0).toUInt32 <<< 24) ||| ((p.getD 1 0).toUInt32 <<< 16) |||
    ((p.getD 2 0).toUInt32 <<< 8) ||| (p.getD 3 0).toUInt32

/-- `store_be32`. -/
def storeBe32 (v : UInt32) : List UInt8 :=
  [(v >>> 24).toUInt8, (v >>> 16).toUInt8, (v >>> 8).toUInt8, v.toUInt8]

/-- `ctx->state[0]`, …, `ctx->state[7]`. -/
abbrev State : Type := Words

/-- The two loops that fill `W`. -/
def fillW (block : List UInt8) : List UInt32 :=
  (range' 16 48).foldl
    (fun W i => W ++ [gamma1 (W.getD (i - 2) 0) + W.getD (i - 7) 0 + gamma0 (W.getD (i - 15) 0) +
      W.getD (i - 16) 0])
    ((range 16).map fun i => loadBe32 (block.drop (4 * i)))

/-- The body of the loop over the rounds. -/
def round (W : List UInt32) (v : State) (i : ℕ) : State :=
  let t1 := v.h + sigma1 v.e + ch v.e v.f v.g + k.getD i 0 + W.getD i 0
  let t2 := sigma0 v.a + maj v.a v.b v.c
  { h := v.g, g := v.f, f := v.e, e := v.d + t1, d := v.c, c := v.b, b := v.a, a := t1 + t2 }

/-- `sha256_compress`. -/
def sha256Compress (state : State) (block : List UInt8) : State :=
  let v := (range 64).foldl (round (fillW block)) state
  { a := state.a + v.a, b := state.b + v.b, c := state.c + v.c, d := state.d + v.d
    e := state.e + v.e, f := state.f + v.f, g := state.g + v.g, h := state.h + v.h }

/-! ### The compression is that of the standard -/

theorem loadBe32_drop (block : List UInt8) (t : ℕ) :
    loadBe32 (block.drop (4 * t)) = blockWord block t := by
  simp only [loadBe32, blockWord, wordOf, getD_eq_getElem?_getD,
    getElem?_drop, Nat.add_zero]

/-- **The schedule**: the loop computes the words of the standard, one more each time. -/
theorem fillW_eq (block : List UInt8) :
    fillW block = (range 64).map (schedule (blockWord block)) := by
  set M := blockWord block
  have hinit : ((range 16).map fun i => loadBe32 (block.drop (4 * i))) =
      (range 16).map (schedule M) := by
    refine map_congr_left fun t ht => ?_
    rw [loadBe32_drop, schedule_of_lt M (mem_range.mp ht)]
  have hstep : ∀ n, (range' 16 n).foldl
      (fun W i => W ++ [gamma1 (W.getD (i - 2) 0) + W.getD (i - 7) 0 + gamma0 (W.getD (i - 15) 0) +
        W.getD (i - 16) 0]) ((range 16).map (schedule M)) =
      (range (n + 16)).map (schedule M) := by
    intro n
    induction n with
    | zero => rfl
    | succ n ih =>
      have hget : ∀ t < n + 16, ((range (n + 16)).map (schedule M)).getD t 0 =
          schedule M t := by
        intro t ht
        simp [getD_eq_getElem?_getD, ht]
      have hsucc : n + 1 + 16 = n + 16 + 1 := by omega
      have h2 : 16 + 1 * n - 2 = n + 14 := by omega
      have h7 : 16 + 1 * n - 7 = n + 9 := by omega
      have h15 : 16 + 1 * n - 15 = n + 1 := by omega
      have h16 : 16 + 1 * n - 16 = n := by omega
      rw [range'_concat, foldl_append, ih, hsucc, range_succ (n := n + 16),
        map_append, foldl_cons, foldl_nil, h2, h7, h15, h16, hget _ (by omega), hget _ (by omega),
        hget _ (by omega), hget _ (by omega), map_singleton, schedule_add]
      rfl
  rw [fillW, hinit, hstep]

/-- **The compression function is that of the standard.** -/
theorem sha256Compress_eq : sha256Compress = compress := by
  funext state block
  have hround : (range 64).foldl (round (fillW block)) state =
      (range 64).foldl (Foundation.Sha256.round (schedule (blockWord block))) state := by
    refine foldl_ext _ _ _ fun v i hi => ?_
    have hget : (fillW block).getD i 0 = schedule (blockWord block) i := by
      rw [fillW_eq]
      simp [getD_eq_getElem?_getD, mem_range.mp hi]
    rw [round, hget]
    rfl
  rw [sha256Compress, hround]
  rfl

/-! ### Contexts -/

/-- `xaios_sha256_ctx_t`. -/
structure Ctx where
  state : State
  bitCount : UInt64
  /-- `buffer[0 .. buffer_len)`. -/
  buffer : List UInt8

/-- `xaios_sha256_init`. -/
def xaiosSha256Init : Ctx where
  state :=
    { a := 0x6a09e667, b := 0xbb67ae85, c := 0x3c6ef372, d := 0xa54ff53a
      e := 0x510e527f, f := 0x9b05688c, g := 0x1f83d9ab, h := 0x5be0cd19 }
  bitCount := 0
  buffer := []

/-- The loop `while (len >= 64U)` and the bytes it leaves. -/
def processBlocks (state : State) (bytes : List UInt8) : State × List UInt8 :=
  BlockHash.absorb ⟨64, Nat.zero_lt_succ 63, sha256Compress⟩ state bytes

/-- The first part of `xaios_sha256_update`: a buffer that is not empty is filled, and
compressed when it is full. Answers the context and the bytes that are left. -/
def fillBuffer (ctx : Ctx) (bytes : List UInt8) : Ctx × List UInt8 :=
  if 0 < ctx.buffer.length then
    let space := 64 - ctx.buffer.length
    let toCopy := if bytes.length < space then bytes.length else space
    let buffer := ctx.buffer ++ bytes.take toCopy
    (if buffer.length = 64 then
        { ctx with state := sha256Compress ctx.state buffer, buffer := [] }
      else { ctx with buffer := buffer },
      bytes.drop toCopy)
  else (ctx, bytes)

/-- `xaios_sha256_update`. -/
def xaiosSha256Update (ctx : Ctx) (data : List UInt8) : Ctx :=
  if data.length = 0 then ctx
  else
    let ctx := { ctx with bitCount := ctx.bitCount + UInt64.ofNat data.length * 8 }
    let filled := fillBuffer ctx data
    let done := processBlocks filled.1.state filled.2
    { filled.1 with
      state := done.1
      buffer := if 0 < done.2.length then done.2 else filled.1.buffer }

/-- The loop of `xaios_sha256_final` that appends zeros until `buffer_len` is 56. -/
def padLoop : ℕ → Ctx → Ctx
  | 0, ctx => ctx
  | fuel + 1, ctx =>
    if ctx.buffer.length ≠ 56 then padLoop fuel (xaiosSha256Update ctx [0x00]) else ctx

/-- `count_bytes`. -/
def countBytes (bitCount : UInt64) : List UInt8 :=
  ((range 8).map fun i => (bitCount >>> (8 * UInt64.ofNat i)).toUInt8).reverse

/-- `xaios_sha256_final`. A buffer has 64 places, so the loop ends within 64 rounds. -/
def xaiosSha256Final (ctx : Ctx) : List UInt8 :=
  let ctx := xaiosSha256Update ctx [0x80]
  let ctx := padLoop 64 ctx
  let s := (xaiosSha256Update ctx (countBytes ctx.bitCount)).state
  [s.a, s.b, s.c, s.d, s.e, s.f, s.g, s.h].flatMap storeBe32

/-- `xaios_sha256`. -/
def xaiosSha256 (data : List UInt8) : List UInt8 :=
  xaiosSha256Final (xaiosSha256Update xaiosSha256Init data)

/-! ### Updates -/

theorem processBlocks_eq (state : State) (bytes : List UInt8) :
    processBlocks state bytes = hash.absorb state bytes := by
  rw [processBlocks, sha256Compress_eq]
  rfl

/-- Filling the buffer absorbs nothing else. Either the buffer is empty after it, or no
bytes are left. -/
theorem fillBuffer_spec (ctx : Ctx) (hctx : ctx.buffer.length < 64) (bytes : List UInt8) :
    hash.absorb (fillBuffer ctx bytes).1.state
        ((fillBuffer ctx bytes).1.buffer ++ (fillBuffer ctx bytes).2) =
      hash.absorb ctx.state (ctx.buffer ++ bytes) ∧
    ((fillBuffer ctx bytes).1.buffer = [] ∨
      (fillBuffer ctx bytes).2 = [] ∧ (fillBuffer ctx bytes).1.buffer.length < 64) := by
  unfold fillBuffer
  split
  · rename_i hbuffer
    dsimp only
    by_cases hlt : bytes.length < 64 - ctx.buffer.length
    · -- all of the bytes go to the buffer
      have hlen : (ctx.buffer ++ bytes).length < 64 := by
        rw [length_append]
        omega
      rw [if_pos hlt, take_length, drop_length, if_neg (by omega)]
      exact ⟨by rw [append_nil], .inr ⟨rfl, hlen⟩⟩
    · -- the buffer becomes a block
      have hlen : (ctx.buffer ++ bytes.take (64 - ctx.buffer.length)).length = 64 := by
        rw [length_append, length_take]
        omega
      rw [if_neg hlt, if_pos hlen, sha256Compress_eq]
      exact ⟨(hash.absorb_fill (Nat.le_of_lt hctx) (not_lt.mp hlt)).symm, .inl rfl⟩
  · rename_i hbuffer
    exact ⟨rfl, .inl (eq_nil_of_length_eq_zero (Nat.eq_zero_of_not_pos hbuffer))⟩

/-- **An update absorbs the buffer followed by the data.** -/
theorem update_absorb (ctx : Ctx) (hctx : ctx.buffer.length < 64) (data : List UInt8) :
    ((xaiosSha256Update ctx data).state, (xaiosSha256Update ctx data).buffer) =
      hash.absorb ctx.state (ctx.buffer ++ data) := by
  unfold xaiosSha256Update
  split
  · rename_i hdata
    rw [eq_nil_of_length_eq_zero hdata, append_nil, hash.absorb_of_lt hctx]
  · set counted : Ctx := { ctx with bitCount := ctx.bitCount + UInt64.ofNat data.length * 8 }
    obtain ⟨habsorb, hempty⟩ := fillBuffer_spec counted hctx data
    dsimp only
    generalize fillBuffer counted data = filled at habsorb hempty
    obtain ⟨c, rest⟩ := filled
    rw [processBlocks_eq]
    rw [← habsorb]
    rcases hempty with hempty | ⟨hempty, hlt⟩
    · -- what the loop over whole blocks leaves becomes the buffer
      rw [hempty, nil_append]
      refine Prod.ext rfl ?_
      split
      · rfl
      · rename_i hrest
        exact (eq_nil_of_length_eq_zero (by omega)).symm
    · -- the loop has nothing to do
      rw [hempty, append_nil, hash.absorb_nil, hash.absorb_of_lt hlt]
      rfl

/-- A context that has taken in a message. -/
structure Ctx.Holds (ctx : Ctx) (m : List UInt8) : Prop where
  absorbed : (ctx.state, ctx.buffer) = hash.absorb initial m
  counted : ctx.bitCount = 8 * UInt64.ofNat m.length

variable {m : List UInt8}

theorem Ctx.Holds.length_buffer {ctx : Ctx} (h : ctx.Holds m) :
    ctx.buffer.length = m.length % 64 :=
  (congrArg (fun a => a.2.length) h.absorbed).trans (hash.length_absorb initial m)

theorem holds_init : xaiosSha256Init.Holds [] :=
  ⟨rfl, rfl⟩

theorem bitCount_fillBuffer (ctx : Ctx) (bytes : List UInt8) :
    (fillBuffer ctx bytes).1.bitCount = ctx.bitCount := by
  unfold fillBuffer
  split
  · dsimp only
    generalize ctx.buffer ++ _ = buffer
    split <;> rfl
  · rfl

theorem bitCount_update (ctx : Ctx) (data : List UInt8) :
    (xaiosSha256Update ctx data).bitCount = ctx.bitCount + UInt64.ofNat data.length * 8 := by
  unfold xaiosSha256Update
  split
  · rename_i hdata
    rw [hdata]
    exact (UInt64.add_zero _).symm
  · exact bitCount_fillBuffer _ data

/-- **An update appends to the message.** -/
theorem Ctx.Holds.update {ctx : Ctx} (h : ctx.Holds m) (data : List UInt8) :
    (xaiosSha256Update ctx data).Holds (m ++ data) where
  absorbed := by
    have hlen : ctx.buffer.length < 64 := by
      rw [h.length_buffer]
      omega
    rw [update_absorb ctx hlen, hash.absorb_append _ m data, ← h.absorbed]
  counted := by
    rw [bitCount_update, h.counted, length_append, UInt64.ofNat_add, UInt64.mul_add,
      UInt64.mul_comm (UInt64.ofNat data.length)]

/-! ### The padding -/

/-- The loop of the padding stops when the last block has room for the length and nothing
more. -/
theorem Ctx.Holds.padLoop {ctx : Ctx} (h : ctx.Holds m) {z fuel : ℕ}
    (hz : (m.length + z) % 64 = 56) (hlt : z < 64) (hfuel : z ≤ fuel) :
    (padLoop fuel ctx).Holds (m ++ replicate z 0) := by
  induction z generalizing ctx m fuel with
  | zero =>
    have hstop : ctx.buffer.length = 56 := h.length_buffer.trans hz
    have hloop : Sha256.padLoop fuel ctx = ctx := by
      cases fuel with
      | zero => rfl
      | succ fuel => rw [Sha256.padLoop, if_neg (not_not.mpr hstop)]
    rw [hloop, replicate_zero, append_nil]
    exact h
  | succ z ih =>
    obtain ⟨fuel, rfl⟩ := Nat.exists_eq_add_of_le' (Nat.one_le_of_lt hfuel)
    have hgo : ctx.buffer.length ≠ 56 := by
      rw [h.length_buffer]
      omega
    rw [Sha256.padLoop, if_pos hgo, replicate_succ, append_cons]
    refine ih (h.update [0]) ?_ (by omega) (by omega)
    rw [length_append, length_singleton]
    omega

theorem countBytes_eq (n : UInt64) : countBytes n = lengthBytes n := by
  have hzero : n >>> 0 = n := by simp
  simp only [countBytes, lengthBytes, range_succ, range_zero, nil_append,
    map_cons, map_nil, reverse_cons, reverse_nil, cons_append]
  change [_, _, _, _, _, _, _, (n >>> 0).toUInt8] = _
  rw [hzero]
  rfl

theorem flatMap_storeBe32 (s : Words) :
    [s.a, s.b, s.c, s.d, s.e, s.f, s.g, s.h].flatMap storeBe32 = s.bytes := rfl

/-- How many bits the kernel says a message has: those of the padding are counted. -/
def countedBits (m : List UInt8) : UInt64 := 8 * UInt64.ofNat (padded m).length

/-- **What the kernel computes**: the digest of the standard with the number of bits that
were counted in the place of the length. -/
theorem final_eq {ctx : Ctx} (h : ctx.Holds m) :
    xaiosSha256Final ctx = digestWith (countedBits m) m := by
  have hpadded : (padLoop 64 (xaiosSha256Update ctx [0x80])).Holds (padded m) := by
    have hz : (m.length + 1 + zeros m.length) % 64 = 56 := mod_zeros m.length
    have hlt : zeros m.length < 64 := Nat.mod_lt _ (by decide)
    have hloop : (padLoop 64 (xaiosSha256Update ctx [0x80])).Holds
        (m ++ [0x80] ++ replicate (zeros m.length) 0) :=
      (h.update [0x80]).padLoop (by simpa using hz) hlt (Nat.le_of_lt hlt)
    rwa [append_assoc] at hloop
  have hlast := (hpadded.update (countBytes (countedBits m))).absorbed
  have hcount : (padLoop 64 (xaiosSha256Update ctx [0x80])).bitCount = countedBits m :=
    hpadded.counted
  rw [xaiosSha256Final, hcount]
  have hstate := congrArg Prod.fst hlast
  dsimp only at hstate
  rw [hstate, countBytes_eq]
  exact flatMap_storeBe32 _

/-- The padding is at least one byte and at most a block, so the count is not the length. -/
theorem countedBits_ne (m : List UInt8) : countedBits m ≠ 8 * UInt64.ofNat m.length := by
  have hlt : zeros m.length < 64 := Nat.mod_lt _ (by decide)
  intro h
  have hnat := congrArg UInt64.toNat h
  rw [countedBits, length_padded, UInt64.toNat_mul, UInt64.toNat_mul, UInt64.toNat_ofNat',
    UInt64.toNat_ofNat'] at hnat
  change 8 * _ % _ = 8 * _ % _ at hnat
  generalize zeros m.length = z at hlt hnat
  omega

/-- **When the kernel's digest is the SHA-256 digest.** For every way of cutting a message
into pieces, the number the kernel writes in the place of the length is not the length,
and the digest is right exactly if the last block is compressed to the same hash value
with either number. -/
theorem digest_eq_iff (pieces : List (List UInt8)) :
    countedBits pieces.flatten ≠ 8 * UInt64.ofNat pieces.flatten.length ∧
    (xaiosSha256Final (pieces.foldl xaiosSha256Update xaiosSha256Init) = digest pieces.flatten ↔
      compress (beforeLast pieces.flatten)
          (lastBlock pieces.flatten ++ lengthBytes (countedBits pieces.flatten)) =
        compress (beforeLast pieces.flatten)
          (lastBlock pieces.flatten ++ lengthBytes (8 * UInt64.ofNat pieces.flatten.length))) := by
  have hholds :=
    BlockHash.foldl_pieces Ctx.Holds (fun _ _ data h => h.update data) holds_init pieces
  rw [nil_append] at hholds
  rw [final_eq hholds]
  exact ⟨countedBits_ne _, digestWith_eq_iff _ _ _⟩

/-- **The empty message** has another digest: the kernel writes 448 as its length. -/
theorem empty_digest_wrong : xaiosSha256Final xaiosSha256Init ≠ digest [] := by
  rw [final_eq holds_init, digest, Ne, digestWith_eq_iff, ← sha256Compress_eq]
  decide +kernel

end Xaios.Sha256
