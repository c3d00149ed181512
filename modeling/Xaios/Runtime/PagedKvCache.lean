import Mathlib.Data.Fintype.Card
import Xaios.Foundation.Buffer
import Xaios.Foundation.Loop
import Xaios.Foundation.Table
import Xaios.Status

/-!
# The paged KV cache

The cache of `kernel/runtime/paged_kv_cache.c`: blocks of tokens, a stack of free block
numbers, and 64 sequences, each with a table of the blocks that hold its tokens.

The cache is meant to be a map from sequence ids to the tokens appended to them.
`KvCache.System.Refines` says so for one state: the ids handed out and not yet
destroyed are distinct, each is accepted by every operation, its table reads back the
tokens appended, and the free stack and the tables share the blocks out.

A slot counts as used when its sequence has a block (`find_sequence`), but
`create_sequence` gives the new sequence none. So no id is ever found, the slot stays
free, and every `create_sequence` answers id `0`: a run refines the map exactly if it
never creates a sequence (`KvCache.refines_map_iff`).
-/

namespace Xaios.KvCache

open Foundation Function List

/-- `XAIOS_KV_MAX_BLOCKS_PER_SEQ`. -/
def maxBlocksPerSeq : UInt32 := 8192

/-- `UINT32_MAX`, the answer of `allocate_block` when no block is free. -/
def noBlock : UInt32 := 0xffffffff

/-- `xaios_kv_block_t`. Its two caches are memory of their own. -/
structure Block where
  keyCache : Buffer
  valueCache : Buffer
  refCount : UInt32
  tokenCount : UInt32

/-- `xaios_kv_sequence_t`. -/
structure Sequence where
  seqId : UInt32
  numBlocks : UInt32
  blockIndices : ℕ → UInt32
  totalTokens : UInt32
  headDim : UInt32
  numHeads : UInt32
  kvBytesAllocated : UInt64

/-- `xaios_paged_kv_cache_t`. -/
structure Cache where
  numBlocksTotal : UInt32
  blockSize : UInt32
  headDim : UInt32
  numHeads : UInt32
  bytesPerBlock : UInt64
  blocks : UInt32 → Block
  freeBlockCount : UInt32
  freeBlockIndices : ℕ → UInt32
  sequences : Fin 64 → Sequence
  numSequences : UInt32
  allocationCount : UInt64
  evictionCount : UInt64

/-! ### Initialisation -/

/-- The answer of `kheap_alloc` to a page-aligned request: one for no bytes is refused. -/
def granted (heap : ℕ → Bool) (request : ℕ) (size : UInt64) : Bool := size != 0 && heap request

/-- `align_up`. -/
def alignUp (value align : UInt64) : UInt64 := (value + align - 1) &&& ~~~(align - 1)

/-- `bytes_per_block`, in 64 bits. -/
def blockBytes (headDim blockSize : UInt32) : UInt64 :=
  alignUp (2 * headDim.toUInt64 * blockSize.toUInt64 * 4) 4096

/-- `bytes_zero` on the first bytes of a buffer. -/
def bytesZero (buffer : Buffer) (size : UInt64) : Buffer :=
  fun i => if i < size.toNat then 0 else buffer i

/-- The cache after `paged_kv_cache_init`, in memory that held `memory`. -/
def initialised (memory : Cache) (numBlocks headDim numHeads blockSize : UInt32) : Cache where
  numBlocksTotal := numBlocks
  blockSize := blockSize
  headDim := headDim
  numHeads := numHeads
  bytesPerBlock := blockBytes headDim blockSize
  blocks i :=
    if i < numBlocks then
      { keyCache := bytesZero (memory.blocks i).keyCache (blockBytes headDim blockSize / 2)
        valueCache := bytesZero (memory.blocks i).valueCache (blockBytes headDim blockSize / 2)
        refCount := 0
        tokenCount := 0 }
    else memory.blocks i
  freeBlockCount := numBlocks
  freeBlockIndices i :=
    if i < numBlocks.toNat then UInt32.ofNat i else memory.freeBlockIndices i
  sequences i :=
    { memory.sequences i with
      seqId := UInt32.ofNat i
      numBlocks := 0
      totalTokens := 0
      headDim := headDim
      numHeads := numHeads
      kvBytesAllocated := 0 }
  numSequences := 0
  allocationCount := 0
  evictionCount := 0

/-- `paged_kv_cache_init`. The block array is allocated or not (`array`); then each block
asks for its key cache and its value cache, and the first block that does not get both ends
the call. `none` is the `kassert` at its head. -/
def init (heap : ℕ → Bool) (array : Bool) (memory : Cache)
    (numBlocks headDim numHeads blockSize : UInt32) : Option (Except Status Cache) :=
  if 0 < numBlocks ∧ 0 < headDim then
    if numBlocks.toUInt64 * 32 = 0 then some (.error .invalid)
    else if array = false then some (.error .noMemory)
    else if (range numBlocks.toNat).all fun i =>
        granted heap (2 * i) (blockBytes headDim blockSize / 2) &&
          granted heap (2 * i + 1) (blockBytes headDim blockSize / 2) then
      some (.ok (initialised memory numBlocks headDim numHeads blockSize))
    else some (.error .noMemory)
  else none

/-! ### The operations -/

namespace Cache

variable (cache : Cache)

/-- `find_sequence`. -/
def findSequence (seqId : UInt32) : Option (Fin 64) :=
  (finRange 64).find? fun i =>
    (cache.sequences i).seqId = seqId ∧ 0 < (cache.sequences i).numBlocks

/-- `allocate_block`. -/
def allocateBlock : UInt32 × Cache :=
  if cache.freeBlockCount = 0 then (noBlock, cache)
  else
    let blockIdx := cache.freeBlockIndices (cache.freeBlockCount - 1).toNat
    (blockIdx,
      { cache with
        freeBlockCount := cache.freeBlockCount - 1
        blocks := update cache.blocks blockIdx
          { cache.blocks blockIdx with refCount := 1 }
        allocationCount := cache.allocationCount + 1 })

/-- `free_block`; `none` is its `kassert`. -/
def freeBlock (blockIdx : UInt32) : Option Cache :=
  if blockIdx < cache.numBlocksTotal then
    some
      { cache with
        blocks := update cache.blocks blockIdx
          { cache.blocks blockIdx with refCount := 0, tokenCount := 0 }
        freeBlockIndices :=
          update cache.freeBlockIndices cache.freeBlockCount.toNat blockIdx
        freeBlockCount := cache.freeBlockCount + 1 }
  else none

/-- A slot is set up for a new sequence. -/
def openSlot (slot : Fin 64) : Cache :=
  { cache with
    sequences := update cache.sequences slot
      { cache.sequences slot with
        seqId := UInt32.ofNat slot
        numBlocks := 0
        totalTokens := 0
        kvBytesAllocated := 0 }
    numSequences := cache.numSequences + 1 }

/-- `paged_kv_cache_create_sequence`: the first slot without a block. -/
def createSequence : Except Status (UInt32 × Cache) :=
  match (finRange 64).find? fun i => (cache.sequences i).numBlocks = 0 with
  | none => .error .noMemory
  | some slot => .ok (UInt32.ofNat slot, cache.openSlot slot)

/-- The body of the loop of `paged_kv_cache_destroy_sequence`: one reference less, and the
block is freed with its last one. -/
def releaseBlock (blockIdx : UInt32) : Option Cache :=
  let blocks := update cache.blocks blockIdx
    { cache.blocks blockIdx with refCount := (cache.blocks blockIdx).refCount - 1 }
  if (blocks blockIdx).refCount = 0 then { cache with blocks := blocks }.freeBlock blockIdx
  else some { cache with blocks := blocks }

/-- The blocks in the table of a sequence. -/
def blockTable (slot : Fin 64) : List UInt32 :=
  (range (cache.sequences slot).numBlocks.toNat).map (cache.sequences slot).blockIndices

/-- `paged_kv_cache_destroy_sequence`. -/
def destroySequence (seqId : UInt32) : Option (Status × Cache) :=
  match cache.findSequence seqId with
  | none => some (.invalid, cache)
  | some slot => do
    let freed ← (cache.blockTable slot).foldlM releaseBlock cache
    return (.ok,
      { freed with
        sequences := update freed.sequences slot
          { freed.sequences slot with numBlocks := 0, totalTokens := 0, kvBytesAllocated := 0 }
        numSequences := freed.numSequences - 1
        evictionCount := freed.evictionCount + 1 })

/-- `bytes_per_token`. -/
def bytesPerToken : UInt64 := cache.headDim.toUInt64 * 4

/-- The last block of the table of a sequence. -/
def currentBlock (slot : Fin 64) : UInt32 :=
  if 0 < (cache.sequences slot).numBlocks then
    (cache.sequences slot).blockIndices ((cache.sequences slot).numBlocks - 1).toNat
  else noBlock

/-- The tokens in the current block; without one it counts as full. -/
def tokensInCurrentBlock (slot : Fin 64) : UInt32 :=
  if cache.currentBlock slot ≠ noBlock then (cache.blocks (cache.currentBlock slot)).tokenCount
  else cache.blockSize

/-- A new block at the end of the table of a sequence: the answer is `ok` with the block, or
the error the append returns. A block for which the table has no room is freed again. -/
def growSequence (slot : Fin 64) : Option (Status × UInt32 × Cache) :=
  match cache.allocateBlock with
  | (blockIdx, taken) =>
    if blockIdx = noBlock then some (.noMemory, blockIdx, taken)
    else if maxBlocksPerSeq ≤ (taken.sequences slot).numBlocks then
      (taken.freeBlock blockIdx).map fun freed => (.noMemory, blockIdx, freed)
    else
      some (.ok, blockIdx,
        { taken with
          sequences := update taken.sequences slot
            { taken.sequences slot with
              blockIndices := update (taken.sequences slot).blockIndices
                (taken.sequences slot).numBlocks.toNat blockIdx
              numBlocks := (taken.sequences slot).numBlocks + 1 }
          blocks := update taken.blocks blockIdx
            { taken.blocks blockIdx with tokenCount := 0 } })

/-- The block the next tokens go to. -/
def roomFor (slot : Fin 64) : Option (Status × UInt32 × Cache) :=
  if cache.blockSize ≤ cache.tokensInCurrentBlock slot then cache.growSequence slot
  else some (.ok, cache.currentBlock slot, cache)

/-- The tokens that fit into a block. -/
def tokensToCopy (blockIdx remaining : UInt32) : UInt32 :=
  let space := cache.blockSize - (cache.blocks blockIdx).tokenCount
  if remaining < space then remaining else space

/-- Tokens are copied behind those of a block. -/
def copyTokens (slot : Fin 64) (blockIdx count : UInt32) (keys values : Buffer)
    (keyOffset valueOffset : UInt64) : Cache :=
  let block := cache.blocks blockIdx
  let copyBytes := (count.toUInt64 * cache.bytesPerToken).toNat
  let dest := (block.tokenCount.toUInt64 * cache.bytesPerToken).toNat
  { cache with
    blocks := update cache.blocks blockIdx
      { block with
        keyCache := block.keyCache.store dest (keys.load keyOffset.toNat copyBytes)
        valueCache := block.valueCache.store dest (values.load valueOffset.toNat copyBytes)
        tokenCount := block.tokenCount + count }
    sequences := update cache.sequences slot
      { cache.sequences slot with totalTokens := (cache.sequences slot).totalTokens + count } }

/-- The loop of `paged_kv_cache_append_tokens`. -/
def appendLoop (slot : Fin 64) (keys values : Buffer) :
    ℕ → Cache → UInt32 → UInt64 → UInt64 → Option (Status × Cache)
  | 0, _, _, _, _ => none
  | fuel + 1, cache, remaining, keyOffset, valueOffset =>
    if remaining = 0 then some (.ok, cache)
    else
      match cache.roomFor slot with
      | none => none
      | some (.ok, blockIdx, room) =>
        let count := room.tokensToCopy blockIdx remaining
        let copyBytes := count.toUInt64 * room.bytesPerToken
        appendLoop slot keys values fuel
          (room.copyTokens slot blockIdx count keys values keyOffset valueOffset)
          (remaining - count) (keyOffset + copyBytes) (valueOffset + copyBytes)
      | some (status, _, room) => some (status, room)

/-- `paged_kv_cache_append_tokens`. Each pass of the loop takes a token or a free block. -/
def appendTokens (seqId : UInt32) (keys values : Buffer) (numTokens : UInt32) :
    Option (Status × Cache) :=
  match cache.findSequence seqId with
  | none => some (.invalid, cache)
  | some slot =>
    (appendLoop slot keys values (numTokens.toNat + cache.freeBlockCount.toNat + 1) cache
      numTokens 0 0).map fun
    | (.ok, last) =>
      (.ok,
        { last with
          sequences := update last.sequences slot
            { last.sequences slot with
              kvBytesAllocated :=
                (last.sequences slot).numBlocks.toUInt64 * last.bytesPerBlock } })
    | (status, last) => (status, last)

/-- `paged_kv_cache_get_block_table`; the pointer and the count are the blocks of the
table. -/
def getBlockTable (seqId : UInt32) : Except Status (List UInt32) :=
  match cache.findSequence seqId with
  | none => .error .invalid
  | some slot => .ok (cache.blockTable slot)

/-- `paged_kv_cache_get_token_count`. -/
def getTokenCount (seqId : UInt32) : UInt32 :=
  match cache.findSequence seqId with
  | none => 0
  | some slot => (cache.sequences slot).totalTokens

end Cache

/-! ### The map of sequences -/

/-- A token: its key and its value. -/
abbrev Token := List UInt8 × List UInt8

/-- The tokens in two buffers, one behind the other. -/
def tokensIn (keys values : Buffer) (size count : ℕ) : List Token :=
  (range count).map fun t => (keys.load (t * size) size, values.load (t * size) size)

/-- The tokens a block holds. -/
def Cache.blockTokens (cache : Cache) (blockIdx : UInt32) : List Token :=
  tokensIn (cache.blocks blockIdx).keyCache (cache.blocks blockIdx).valueCache
    cache.bytesPerToken.toNat (cache.blocks blockIdx).tokenCount.toNat

/-- The tokens a table of blocks describes. -/
def Cache.tokensOf (cache : Cache) (table : List UInt32) : List Token :=
  table.flatMap cache.blockTokens

/-- The block numbers on the free stack. -/
def Cache.freeList (cache : Cache) : List UInt32 :=
  (range cache.freeBlockCount.toNat).map cache.freeBlockIndices

/-- The calls of the interface. -/
inductive Call where
  | createSequence
  | destroySequence (seqId : UInt32)
  | appendTokens (seqId : UInt32) (keys values : Buffer) (numTokens : UInt32)
  | getBlockTable (seqId : UInt32)
  | getTokenCount (seqId : UInt32)

/-- What a call answers. -/
inductive Answer where
  | status (code : Status)
  | created (seqId : UInt32)
  | table (blocks : List UInt32)
  | count (tokens : UInt32)
  deriving DecidableEq

/-- The answer is an error. -/
def Answer.IsError : Answer → Prop
  | .status code => code ≠ .ok
  | _ => False

/-- A call on the cache. -/
def Call.apply (cache : Cache) : Call → Option (Answer × Cache)
  | .createSequence =>
    match cache.createSequence with
    | .error status => some (.status status, cache)
    | .ok (seqId, cache') => some (.created seqId, cache')
  | .destroySequence seqId =>
    (cache.destroySequence seqId).map fun r => (.status r.1, r.2)
  | .appendTokens seqId keys values numTokens =>
    (cache.appendTokens seqId keys values numTokens).map fun r => (.status r.1, r.2)
  | .getBlockTable seqId =>
    match cache.getBlockTable seqId with
    | .error status => some (.status status, cache)
    | .ok blocks => some (.table blocks, cache)
  | .getTokenCount seqId => some (.count (cache.getTokenCount seqId), cache)

/-- What a call makes of the map, by its answer: the ids that were created and not
destroyed, the newest first, with the tokens appended to each. -/
def Call.applyMap (size : ℕ) (live : List (UInt32 × List Token)) :
    Call → Answer → List (UInt32 × List Token)
  | .createSequence, .created seqId => (seqId, []) :: live
  | .destroySequence seqId, .status .ok => live.filter fun q => q.1 ≠ seqId
  | .appendTokens seqId keys values numTokens, .status .ok =>
    live.map fun q =>
      if q.1 = seqId then (q.1, q.2 ++ tokensIn keys values size numTokens.toNat) else q
  | _, _ => live

/-- The cache beside the map it is meant to be. A failed `kassert` halts it. -/
structure System where
  cache : Cache
  live : List (UInt32 × List Token)
  halted : Bool

/-- The system after a call. -/
def System.step (s : System) (call : Call) : System :=
  match call.apply s.cache with
  | none => { s with halted := true }
  | some (answer, cache) =>
    { s with
      cache := cache
      live := call.applyMap s.cache.bytesPerToken.toNat s.live answer }

/-- The operations accept the id. -/
structure Cache.Usable (cache : Cache) (seqId : UInt32) : Prop where
  append : ∀ keys values numTokens last,
    cache.appendTokens seqId keys values numTokens ≠ some (.invalid, last)
  destroy : ∀ last, cache.destroySequence seqId ≠ some (.invalid, last)
  lookup : cache.getBlockTable seqId ≠ .error .invalid

/-- **The cache is the map.** -/
structure System.Refines (s : System) : Prop where
  running : s.halted = false
  distinct : (s.live.map Prod.fst).Nodup
  usable : ∀ q ∈ s.live, s.cache.Usable q.1
  count : ∀ q ∈ s.live, (s.cache.getTokenCount q.1).toNat = q.2.length
  described : ∀ q ∈ s.live, (s.cache.getBlockTable q.1).map s.cache.tokensOf = .ok q.2
  shared : ((s.cache.freeList ++ s.live.flatMap fun q =>
    ((s.cache.getBlockTable q.1).toOption.getD [])).map UInt32.toNat).Perm
      (range s.cache.numBlocksTotal.toNat)

/-- No sequence differs, nor do the tokens in its blocks. -/
def Cache.SameSequences (cache cache' : Cache) : Prop :=
  ∀ slot, cache'.sequences slot = cache.sequences slot ∧
    cache'.tokensOf (cache'.blockTable slot) = cache.tokensOf (cache.blockTable slot)

/-- A call that answers an error changes no sequence, and after every call the cache is the
map. -/
def System.Sound (s : System) (call : Call) : Prop :=
  (∀ answer cache', call.apply s.cache = some (answer, cache') → answer.IsError →
    s.cache.SameSequences cache') ∧ (s.step call).Refines

/-- The system after `paged_kv_cache_init`. -/
def System.boot (cache : Cache) : System := ⟨cache, [], false⟩

/-! ### No sequence is ever found -/

/-- No sequence has a block, and all blocks are free. -/
structure Cache.Idle (cache : Cache) : Prop where
  empty : ∀ slot, (cache.sequences slot).numBlocks = 0
  free : cache.freeList.map UInt32.toNat = range cache.numBlocksTotal.toNat

section Init

variable {heap : ℕ → Bool} {array : Bool} {memory cache : Cache}
  {numBlocks headDim numHeads blockSize : UInt32}

section

variable (h : init heap array memory numBlocks headDim numHeads blockSize = some (.ok cache))

include h

/-- What a successful `paged_kv_cache_init` did. -/
theorem init_ok : cache = initialised memory numBlocks headDim numHeads blockSize := by
  unfold init at h
  split_ifs at h <;> cases h
  rfl

/-- After `paged_kv_cache_init` no sequence has a block. -/
theorem init_idle : cache.Idle := by
  obtain rfl := init_ok h
  refine ⟨fun slot => rfl, ?_⟩
  have hget : ∀ i ∈ range numBlocks.toNat,
      UInt32.toNat (if i < numBlocks.toNat then UInt32.ofNat i else memory.freeBlockIndices i) =
        i := by
    intro i hi
    rw [mem_range] at hi
    rw [if_pos hi, UInt32.toNat_ofNat_of_lt' (hi.trans numBlocks.toNat_lt)]
  calc (initialised memory numBlocks headDim numHeads blockSize).freeList.map UInt32.toNat
      = (range numBlocks.toNat).map id := by
        rw [Cache.freeList, map_map]
        exact map_congr_left hget
    _ = range numBlocks.toNat := map_id _

end

end Init

namespace Cache.Idle

variable {cache : Cache} (h : cache.Idle)

include h

/-- **`find_sequence` finds nothing.** -/
theorem findSequence_eq (seqId : UInt32) : cache.findSequence seqId = none := by
  refine find?_finRange_eq_none_iff.mpr fun slot => ?_
  rw [h.empty slot]
  exact decide_eq_false fun hpos => UInt32.lt_irrefl 0 hpos.2

/-- Apart from `create_sequence`, calls answer without a change. -/
theorem apply_eq {call : Call} (hcall : call ≠ .createSequence) :
    call.apply cache = some (.status .invalid, cache) ∨
      call.apply cache = some (.count 0, cache) := by
  cases call with
  | createSequence => exact absurd rfl hcall
  | destroySequence seqId =>
    left
    rw [Call.apply, Cache.destroySequence, h.findSequence_eq]
    rfl
  | appendTokens seqId keys values numTokens =>
    left
    rw [Call.apply, Cache.appendTokens, h.findSequence_eq]
    rfl
  | getBlockTable seqId =>
    left
    rw [Call.apply, Cache.getBlockTable, h.findSequence_eq]
  | getTokenCount seqId =>
    right
    rw [Call.apply, Cache.getTokenCount, h.findSequence_eq]

/-- A slot that is set up has no block either. -/
theorem openSlot (slot : Fin 64) : (cache.openSlot slot).Idle := by
  refine ⟨fun i => ?_, h.free⟩
  rcases eq_or_ne i slot with rfl | hne
  · simp only [Cache.openSlot, update_self]
  · simp only [Cache.openSlot, update_of_ne hne]
    exact h.empty i

/-- **`create_sequence` answers id `0`**, whatever it answered before. -/
theorem createSequence_eq :
    cache.createSequence = .ok (0, cache.openSlot ⟨0, Nat.zero_lt_succ 63⟩) := by
  have hfind : ((finRange 64).find? fun i => decide ((cache.sequences i).numBlocks = 0)) =
      some ⟨0, Nat.zero_lt_succ 63⟩ := by
    refine find?_finRange_eq_some_iff.mpr ⟨decide_eq_true (h.empty _), fun k hk => ?_⟩
    exact absurd hk (Nat.not_lt_zero k)
  rw [Cache.createSequence, hfind]
  rfl

end Cache.Idle

/-! ### Runs -/

/-- No sequence was created, and the cache is as `paged_kv_cache_init` leaves it. -/
structure System.Idle (s : System) : Prop where
  cache : s.cache.Idle
  live : s.live = []
  running : s.halted = false

namespace System.Idle

variable {s : System} (h : s.Idle)

include h

/-- Without sequences the cache is the empty map. -/
theorem refines : s.Refines where
  running := h.running
  distinct := by
    rw [h.live]
    exact nodup_nil
  usable := by
    rw [h.live]
    exact fun q hq => absurd hq not_mem_nil
  count := by
    rw [h.live]
    exact fun q hq => absurd hq not_mem_nil
  described := by
    rw [h.live]
    exact fun q hq => absurd hq not_mem_nil
  shared := by
    rw [h.live, flatMap_nil, append_nil, h.cache.free]

/-- Apart from `create_sequence`, calls change nothing. -/
theorem step_eq {call : Call} (hcall : call ≠ .createSequence) : s.step call = s := by
  have hmap : ∀ answer, call.applyMap s.cache.bytesPerToken.toNat s.live answer = s.live := by
    intro answer
    rw [h.live]
    unfold Call.applyMap
    split
    · exact absurd rfl hcall
    all_goals rfl
  unfold System.step
  rcases h.cache.apply_eq hcall with heq | heq <;> rw [heq] <;> simp only [hmap]

/-- After `create_sequence` there is a sequence no operation accepts. -/
theorem not_refines_create : ¬(s.step .createSequence).Refines := by
  have hstep : s.step .createSequence =
      { s with cache := s.cache.openSlot ⟨0, Nat.zero_lt_succ 63⟩, live := [(0, [])] } := by
    unfold System.step Call.apply
    rw [h.cache.createSequence_eq]
    simp only [Call.applyMap, h.live]
  rw [hstep]
  intro hrefines
  refine (hrefines.usable (0, []) mem_cons_self).lookup ?_
  rw [Cache.getBlockTable, (h.cache.openSlot _).findSequence_eq]

/-- **A call is sound exactly if it is not `create_sequence`.** -/
theorem sound_iff (call : Call) : s.Sound call ↔ call ≠ .createSequence := by
  constructor
  · rintro hsound rfl
    exact h.not_refines_create hsound.2
  · intro hcall
    refine ⟨fun answer cache' hans _ => ?_, ?_⟩
    · have hsame : cache' = s.cache := by
        rcases h.cache.apply_eq hcall with heq | heq <;> rw [heq] at hans <;> cases hans <;> rfl
      rw [hsame]
      exact fun slot => ⟨rfl, rfl⟩
    · rw [h.step_eq hcall]
      exact h.refines

end System.Idle

/-- **The cache refines a map of sequences** along a run exactly if the run never creates a
sequence. -/
theorem refines_map_iff {heap : ℕ → Bool} {array : Bool} {memory cache : Cache}
    {numBlocks headDim numHeads blockSize : UInt32}
    (h : init heap array memory numBlocks headDim numHeads blockSize = some (.ok cache))
    (calls : List Call) :
    Along System.step System.Sound (System.boot cache) calls ↔
      ∀ call ∈ calls, call ≠ .createSequence := by
  have hboot : (System.boot cache).Idle := ⟨init_idle h, rfl, rfl⟩
  rw [← along_const]
  refine Along.congr hboot (fun s call hs hcall => ?_) (fun s call hs => hs.sound_iff call) calls
  rw [hs.step_eq hcall]
  exact hs

/-- Memory of zeros. -/
def zeroMemory : Cache where
  numBlocksTotal := 0
  blockSize := 0
  headDim := 0
  numHeads := 0
  bytesPerBlock := 0
  blocks _ := ⟨fun _ => 0, fun _ => 0, 0, 0⟩
  freeBlockCount := 0
  freeBlockIndices _ := 0
  sequences _ := ⟨0, 0, fun _ => 0, 0, 0, 0, 0⟩
  numSequences := 0
  allocationCount := 0
  evictionCount := 0

/-- A cache of four blocks of 16 tokens. -/
def smallCache : Cache := initialised zeroMemory 4 1 1 16

theorem smallCache_init :
    init (fun _ => true) true zeroMemory 4 1 1 16 = some (.ok smallCache) := rfl

/-- The answers of a run of calls. -/
def answers : Cache → List Call → List Answer
  | _, [] => []
  | cache, call :: calls =>
    match call.apply cache with
    | none => []
    | some (answer, cache') => answer :: answers cache' calls

theorem lookups_refine :
    Along System.step System.Sound (System.boot smallCache) [.getTokenCount 0, .getBlockTable 3] :=
  (refines_map_iff smallCache_init _).mpr (by simp)

/-- Two sequences are created with four blocks free: both have id `0`, and neither takes a
token nor can be destroyed. -/
theorem created_sequence_unusable :
    init (fun _ => true) true zeroMemory 4 1 1 16 = some (.ok smallCache) ∧
      answers smallCache [.createSequence, .createSequence,
        .appendTokens 0 (fun _ => 7) (fun _ => 7) 1, .destroySequence 0] =
      [.created 0, .created 0, .status .invalid, .status .invalid] :=
  ⟨smallCache_init, by decide +kernel⟩

end Xaios.KvCache
