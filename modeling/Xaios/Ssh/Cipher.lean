import Xaios.Foundation.CounterMode
import Xaios.Ssh.Packet

/-!
# The encrypted writers of the SSH server

After the key exchange packets are encrypted with AES-128 in counter mode and carry a
MAC. There are two writers: `conn_packet_write_encrypted` of `userspace/sshd/sshd.c`, for
the connection, and `ssh_packet_write_encrypted` of `ssh_protocol.c`, for the channels.
Both use the same key and IV and count packets in `encrypt_seq`.

The first xors the sequence number into the front half of the IV, so each of its packets
starts from a counter of its own. The second starts every packet from the IV itself,
which is the counter of sequence number 0. So the blocks of two packets are different
exactly if the numbers are (`Ssh.counters_once_iff`), and when all packets go out,
that is to say that only the first packet may come from a channel
(`Ssh.numbers_nodup_iff`).

The block cipher and the MAC are arbitrary functions here.
-/

namespace Xaios.Ssh

open Foundation List

/-! ### Keys -/

/-- The functions of `ssh_crypto.c` the transport rests on. -/
structure Primitives (Key : Type) where
  /-- `aes128_encrypt_block`, with the round keys. -/
  encryptBlock : Key → List UInt8 → List UInt8
  length_encryptBlock : ∀ key block, (encryptBlock key block).length = 16
  /-- `hmac_sha256`. -/
  hmac : List UInt8 → List UInt8 → List UInt8
  length_hmac : ∀ key data, (hmac key data).length = 32

/-- `ssh_connection_crypto_t`. -/
structure Crypto (Key : Type) where
  enabled : Bool
  encryptKey : Key
  decryptKey : Key
  encryptIv : List UInt8
  decryptIv : List UInt8
  encryptMacKey : List UInt8
  decryptMacKey : List UInt8
  encryptSeq : UInt64
  decryptSeq : UInt64
  length_encryptIv : encryptIv.length = 16
  length_decryptIv : decryptIv.length = 16

variable {Key : Type} (P : Primitives Key)

/-- `aes128_ctr`. -/
def aes128Ctr (key : Key) (iv input : List UInt8) : List UInt8 :=
  ctrLoop (P.encryptBlock key) 16 input.length iv input

/-- The counters `aes128_ctr` hands to the block cipher. -/
def counterBlocks (iv input : List UInt8) : List (List UInt8) :=
  counters iv (blocksFor 16 input.length)

variable (key : Key) (iv input : List UInt8)

/-- `aes128_ctr` xors its input with the encryptions of `counterBlocks`. -/
theorem aes128Ctr_eq :
    aes128Ctr P key iv input =
      xorBytes input ((counterBlocks iv input).flatMap (P.encryptBlock key)) :=
  ctrLoop_eq (by decide) (P.length_encryptBlock key) le_rfl

theorem length_keystream_ge :
    input.length ≤ ((counterBlocks iv input).flatMap (P.encryptBlock key)).length := by
  have h := length_keystream (P.length_encryptBlock key) iv (blocksFor 16 input.length)
  exact (le_blocksFor (by decide) _).trans (Nat.le_of_eq h.symm)

@[simp] theorem length_aes128Ctr : (aes128Ctr P key iv input).length = input.length := by
  rw [aes128Ctr_eq, length_xorBytes (length_keystream_ge P key iv input)]

/-- **Decryption**: the mode is its own inverse. -/
theorem aes128Ctr_aes128Ctr : aes128Ctr P key iv (aes128Ctr P key iv input) = input := by
  have hblocks : counterBlocks iv (aes128Ctr P key iv input) = counterBlocks iv input := by
    rw [counterBlocks, length_aes128Ctr, counterBlocks]
  rw [aes128Ctr_eq P key iv (aes128Ctr P key iv input), hblocks, aes128Ctr_eq,
    xorBytes_xorBytes (length_keystream_ge P key iv input)]

/-! ### The writers -/

/-- The bytes of a number of 64 bits as the machine stores them, the least significant
first. -/
def leBytes64 (v : UInt64) : List UInt8 :=
  [v.toUInt8, (v >>> 8).toUInt8, (v >>> 16).toUInt8, (v >>> 24).toUInt8, (v >>> 32).toUInt8,
    (v >>> 40).toUInt8, (v >>> 48).toUInt8, (v >>> 56).toUInt8]

/-- `((uint64_t*)iv)[0] ^= seq`. -/
def xorSeq (iv : List UInt8) (seq : UInt64) : List UInt8 :=
  xorBytes (iv.take 8) (leBytes64 seq) ++ iv.drop 8

/-- The sequence number in front of the text for the MAC, as `conn_packet_write_encrypted`
writes it. -/
def connSeqBytes (seq : UInt64) : List UInt8 :=
  writeU32Be (seq >>> 32).toUInt32 ++ writeU32Be (seq &&& 0xFFFFFFFF).toUInt32

/-- The sequence number in front of the text for the MAC, as `ssh_packet_write_encrypted`
writes it. -/
def sshSeqBytes (seq : UInt64) : List UInt8 :=
  (range 8).map fun i => (seq >>> (56 - 8 * UInt64.ofNat i)).toUInt8

/-- The two pairs of a writer and a reader. -/
inductive Level
  | connection
  | channel
deriving DecidableEq

/-- A packet before it is encrypted. -/
structure Sealing where
  /-- What goes out in front, in the clear. -/
  clear : List UInt8
  /-- The counter `aes128_ctr` starts from. -/
  iv : List UInt8
  /-- What is encrypted. -/
  text : List UInt8
  /-- The sequence number for the MAC. -/
  seqBytes : List UInt8

/-- What is encrypted. -/
def Sealing.cipher (x : Sealing) (c : Crypto Key) : List UInt8 :=
  aes128Ctr P c.encryptKey x.iv x.text

/-- The text the MAC is computed of. -/
def Sealing.macInput (x : Sealing) (c : Crypto Key) : List UInt8 :=
  x.seqBytes ++ (x.clear ++ x.cipher P c)

/-- The packet `conn_packet_write_encrypted` makes, unless the payload is too long. -/
def connSealing (c : Crypto Key) (data : List UInt8) (random : ℕ → UInt8) : Option Sealing :=
  if data.length > maxPacketSize - 64 then none
  else
    some
      { clear := []
        iv := xorSeq c.encryptIv c.encryptSeq
        text := binaryPacket data ((range 8).map random)
        seqBytes := connSeqBytes c.encryptSeq }

/-- The packet `ssh_packet_write_encrypted` makes. The writer does not check the length:
there is none if the packet and its MAC do not fit into `encrypt_packet`. -/
def sshSealing (c : Crypto Key) (data : List UInt8) (random : ℕ → UInt8) : Option Sealing :=
  let padding := paddingFor 16 data.length
  let pktLen := data.length + padding + 1
  if 4 + pktLen + 32 > maxPacketSize then none
  else
    some
      { clear := writeU32Be (UInt32.ofNat pktLen)
        iv := c.encryptIv
        text := UInt8.ofNat padding :: (data ++ randomPadding 16 data.length random)
        seqBytes := sshSeqBytes c.encryptSeq }

/-- `conn_packet_write_encrypted`: whether it answers 0, the keys and the socket. How many
bytes the network took is ignored. -/
def connPacketWriteEncrypted (c : Crypto Key) (s : Socket) (data : List UInt8)
    (random : ℕ → UInt8) : Bool × Crypto Key × Socket :=
  if !c.enabled then
    let r := packetWrite s data random
    (r.1, c, r.2)
  else
    match connSealing c data random with
    | none => (false, c, s)
    | some x =>
      match netSend s (x.cipher P c) with
      | (none, s) => (false, c, s)
      | (some _, s) =>
        match netSend s (P.hmac c.encryptMacKey (x.macInput P c)) with
        | (none, s) => (false, c, s)
        | (some _, s) => (true, { c with encryptSeq := c.encryptSeq + 1 }, s)

/-- `ssh_packet_write_encrypted`; nothing, if it writes behind its buffer. -/
def sshPacketWriteEncrypted (c : Crypto Key) (s : Socket) (data : List UInt8)
    (random : ℕ → UInt8) : Option (Bool × Crypto Key × Socket) :=
  if !c.enabled then some (false, c, s)
  else do
    let x ← sshSealing c data random
    let r := sendAll s (x.clear ++ x.cipher P c ++ P.hmac c.encryptMacKey (x.macInput P c))
    return (r.1, { c with encryptSeq := c.encryptSeq + 1 }, r.2)

/-- The packet a writer encrypts, if it does. -/
def Level.sealing (level : Level) (c : Crypto Key) (data : List UInt8) (random : ℕ → UInt8) :
    Option Sealing :=
  if !c.enabled then none
  else
    match level with
    | .connection => connSealing c data random
    | .channel => sshSealing c data random

/-- A call of a writer. -/
def Level.write (level : Level) (c : Crypto Key) (s : Socket) (data : List UInt8)
    (random : ℕ → UInt8) : Option (Bool × Crypto Key × Socket) :=
  match level with
  | .connection => some (connPacketWriteEncrypted P c s data random)
  | .channel => sshPacketWriteEncrypted P c s data random

/-! ### Counters -/

/-- A packet to be sent. -/
structure Write where
  level : Level
  data : List UInt8
  random : ℕ → UInt8

/-- What is encrypted in a run of the writers, with the keys and the sequence number at
that time. The run ends where a writer goes behind its buffer. -/
def encrypted : List Write → Crypto Key → Socket → List (Level × Crypto Key × Sealing)
  | [], _, _ => []
  | w :: ws, c, s =>
    match w.level.write P c s w.data w.random with
    | none => []
    | some (_, c', s') =>
      match w.level.sealing c w.data w.random with
      | none => encrypted ws c' s'
      | some x => (w.level, c, x) :: encrypted ws c' s'

/-- The counter blocks of a run. -/
def usedCounters (ws : List Write) (c : Crypto Key) (s : Socket) : List (List UInt8) :=
  (encrypted P ws c s).flatMap fun e => counterBlocks e.2.2.iv e.2.2.text

/-- The number a packet's counters start from: its sequence number, or 0 for a channel. -/
def number (e : Level × Crypto Key × Sealing) : UInt64 :=
  match e.1 with
  | .connection => e.2.1.encryptSeq
  | .channel => 0

/-! #### Where a packet starts -/

theorem leBytes64_inj {a b : UInt64} (h : leBytes64 a = leBytes64 b) : a = b := by
  have ha := a.toNat_lt
  have hb := b.toNat_lt
  simp only [leBytes64, cons.injEq, and_true, ← UInt8.toNat_inj, UInt64.toNat_toUInt8,
    UInt64.toNat_shiftRight, UInt64.reduceToNat, Nat.reduceMod, Nat.shiftRight_eq_div_pow] at h
  apply UInt64.toNat_inj.mp
  omega

variable {iv : List UInt8}

section

variable (h : iv.length = 16)

include h

theorem length_take_iv : (iv.take 8).length = 8 := by
  rw [length_take, h]
  rfl

theorem xorSeq_zero : xorSeq iv 0 = iv := by
  have hzero : leBytes64 0 = replicate (iv.take 8).length 0 := by
    rw [length_take_iv h]
    rfl
  rw [xorSeq, hzero, xorBytes_zeros, take_append_drop]

theorem length_xorSeq_front (seq : UInt64) : (xorBytes (iv.take 8) (leBytes64 seq)).length = 8 := by
  have hlen := length_take_iv h
  rw [length_xorBytes (by rw [hlen]; rfl), hlen]

/-- Packets with different numbers have no counter in common. -/
theorem counters_xorSeq_disjoint {a b : UInt64} (hne : a ≠ b) {n m : ℕ} (hn : n ≤ 2 ^ 64)
    (hm : m ≤ 2 ^ 64) : List.Disjoint (counters (xorSeq iv a) n) (counters (xorSeq iv b) m) := by
  have hlow : (iv.drop 8).length = 8 := by rw [length_drop, h]
  have hpow : 256 ^ (iv.drop 8).length = 2 ^ 64 := by
    rw [hlow]
    norm_num
  have hhigh := length_take_iv h
  refine counters_disjoint ?_ (fun heq => hne (leBytes64_inj ?_)) (by rwa [hpow]) (by rwa [hpow])
  · rw [length_xorSeq_front h, length_xorSeq_front h]
  · exact xorBytes_left_cancel (by rw [hhigh]; rfl) (by rw [hhigh]; rfl) heq

end

/-! #### Calls of the writers -/

variable {P} {random : ℕ → UInt8}

variable {level : Level} {c c' : Crypto Key} {s s' : Socket} {data : List UInt8}

/-- A writer changes the sequence number and nothing else. -/
theorem Level.write_cases {ok : Bool} (h : level.write P c s data random = some (ok, c', s')) :
    (c' = c ∧ (c.enabled = true → ok = false)) ∨
      c' = { c with encryptSeq := c.encryptSeq + 1 } := by
  cases level with
  | connection =>
    simp only [Level.write, Option.some.injEq] at h
    unfold connPacketWriteEncrypted at h
    split at h
    · rename_i hoff
      cases h
      refine .inl ⟨rfl, fun hon => ?_⟩
      rw [hon] at hoff
      cases hoff
    · split at h
      · cases h
        exact .inl ⟨rfl, fun _ => rfl⟩
      · split at h
        · cases h
          exact .inl ⟨rfl, fun _ => rfl⟩
        · split at h
          · cases h
            exact .inl ⟨rfl, fun _ => rfl⟩
          · cases h
            exact .inr rfl
  | channel =>
    simp only [Level.write, sshPacketWriteEncrypted] at h
    split at h
    · cases h
      exact .inl ⟨rfl, fun _ => rfl⟩
    · obtain ⟨x, -, hx⟩ := Option.bind_eq_some_iff.mp h
      cases hx
      exact .inr rfl

theorem Level.write_encryptIv {ok : Bool} (h : level.write P c s data random = some (ok, c', s')) :
    c'.encryptIv = c.encryptIv := by
  rcases Level.write_cases h with ⟨rfl, -⟩ | rfl <;> rfl

variable {c : Crypto Key}

/-- Where a packet's counters start, and how long it is. -/
theorem Level.sealing_spec {x : Sealing} (h : level.sealing c data random = some x) :
    x.iv = xorSeq c.encryptIv (number (level, c, x)) ∧ 0 < x.text.length ∧
      x.text.length ≤ maxPacketSize := by
  unfold Level.sealing at h
  split at h
  · cases h
  cases level with
  | connection =>
    simp only [connSealing] at h
    split at h
    · cases h
    · rename_i hle
      cases h
      refine ⟨rfl, ?_, ?_⟩
      · rw [length_binaryPacket]
        omega
      · rw [length_binaryPacket, length_map, length_range]
        unfold maxPacketSize at hle ⊢
        omega
  | channel =>
    simp only [sshSealing] at h
    split at h
    · cases h
    · rename_i hle
      cases h
      refine ⟨(xorSeq_zero c.length_encryptIv).symm, Nat.succ_pos _, ?_⟩
      rw [length_cons, length_append, length_randomPadding]
      omega

variable {ws : List Write}

variable {e : Level × Crypto Key × Sealing}

section

variable (h : e ∈ encrypted P ws c s)

include h

/-- In a run all packets have the same IV. -/
theorem mem_encrypted :
    e.2.2.iv = xorSeq c.encryptIv (number e) ∧ 0 < e.2.2.text.length ∧
      e.2.2.text.length ≤ maxPacketSize := by
  induction ws generalizing c s with
  | nil => cases h
  | cons w ws ih =>
    rw [encrypted] at h
    split at h
    · cases h
    · rename_i ok c' s' hwrite
      rw [← Level.write_encryptIv hwrite]
      split at h
      · exact ih h
      · rename_i x hx
        rcases mem_cons.mp h with rfl | h
        · rw [Level.write_encryptIv hwrite]
          exact Level.sealing_spec hx
        · exact ih h

/-! #### Uniqueness -/

/-- Two packets of a run have a counter in common exactly if they have the same number. -/
theorem disjoint_iff_number_ne {e' : Level × Crypto Key × Sealing} (h' : e' ∈ encrypted P ws c s) :
    List.Disjoint (counterBlocks e.2.2.iv e.2.2.text) (counterBlocks e'.2.2.iv e'.2.2.text) ↔
      number e ≠ number e' := by
  obtain ⟨hiv, hpos, hmax⟩ := mem_encrypted h
  obtain ⟨hiv', hpos', hmax'⟩ := mem_encrypted h'
  have hfew : ∀ n, n ≤ maxPacketSize → blocksFor 16 n ≤ 2 ^ 64 := by
    intro n hn
    refine (blocksFor_le (by decide) n).trans (hn.trans ?_)
    decide
  rw [counterBlocks, counterBlocks, hiv, hiv']
  constructor
  · -- with the same number both start with the same counter
    intro hdisj heq
    rw [heq] at hdisj
    have hmem : ∀ n, 0 < n → xorSeq c.encryptIv (number e') ∈
        counters (xorSeq c.encryptIv (number e')) (blocksFor 16 n) := by
      intro n hn
      obtain ⟨k, hk⟩ := Nat.exists_eq_succ_of_ne_zero (blocksFor_pos (by decide : 0 < 16) hn).ne'
      rw [hk]
      exact mem_cons_self
    exact hdisj (hmem _ hpos) (hmem _ hpos')
  · intro hne
    exact counters_xorSeq_disjoint c.length_encryptIv hne (hfew _ hmax) (hfew _ hmax')

/-- The counters of one packet are different. -/
theorem nodup_counterBlocks : (counterBlocks e.2.2.iv e.2.2.text).Nodup := by
  obtain ⟨hiv, -, hmax⟩ := mem_encrypted h
  have hlen : e.2.2.iv.length = 16 := by
    rw [hiv, xorSeq, length_append, length_xorSeq_front c.length_encryptIv, length_drop,
      c.length_encryptIv]
  refine counters_nodup ?_
  rw [hlen]
  refine (blocksFor_le (by decide) _).trans (hmax.trans ?_)
  decide

end

/-- All packets of a run go out. -/
def AllSent : List Write → Crypto Key → Socket → Prop
  | [], _, _ => True
  | w :: ws, c, s =>
    ∃ c' s', w.level.write P c s w.data w.random = some (true, c', s') ∧ AllSent ws c' s'

theorem Level.exists_sealing (hon : c.enabled = true)
    (h : level.write P c s data random = some (true, c', s')) :
    c' = { c with encryptSeq := c.encryptSeq + 1 } ∧ ∃ x, level.sealing c data random = some x := by
  have hstep : c' = { c with encryptSeq := c.encryptSeq + 1 } := by
    rcases Level.write_cases h with ⟨-, hfail⟩ | hstep
    · cases hfail hon
    · exact hstep
  refine ⟨hstep, ?_⟩
  unfold Level.sealing
  rw [hon]
  cases level with
  | connection =>
    simp only [Level.write, connPacketWriteEncrypted, hon] at h
    cases hx : connSealing c data random with
    | none =>
      rw [hx] at h
      cases h
    | some x => exact ⟨x, rfl⟩
  | channel =>
    simp only [Level.write, sshPacketWriteEncrypted, hon] at h
    cases hx : sshSealing c data random with
    | none =>
      rw [hx] at h
      cases h
    | some x => exact ⟨x, rfl⟩

/-- The numbers of the packets of a run in which all packets go out. -/
theorem map_number_encrypted (hon : c.enabled = true) (h : AllSent (P := P) ws c s) :
    (encrypted P ws c s).map number = ws.mapIdx fun i w =>
      match w.level with
      | .connection => c.encryptSeq + UInt64.ofNat i
      | .channel => 0 := by
  induction ws generalizing c s with
  | nil => rfl
  | cons w ws ih =>
    obtain ⟨c', s', hwrite, hrest⟩ := h
    obtain ⟨rfl, x, hx⟩ := Level.exists_sealing hon hwrite
    rw [encrypted, hwrite]
    rw [hx]
    rw [map_cons, mapIdx_cons,
      ih (c := { c with encryptSeq := c.encryptSeq + 1 }) hon hrest]
    congr 1
    · cases hlevel : w.level with
      | connection => exact (UInt64.add_zero _).symm
      | channel => rfl
    · congr 1
      funext i v
      cases v.level with
      | connection =>
        rw [UInt64.add_assoc, UInt64.ofNat_add, UInt64.add_comm 1]
        rfl
      | channel => rfl

/-- When all packets go out, their numbers are different exactly if only the first may come
from a channel. -/
theorem numbers_nodup_iff (hon : c.enabled = true) (hseq : c.encryptSeq = 0)
    (hlen : ws.length ≤ 2 ^ 64) (h : AllSent (P := P) ws c s) :
    ((encrypted P ws c s).map number).Nodup ↔ ∀ w ∈ ws.tail, w.level = .connection := by
  rw [map_number_encrypted hon h, hseq]
  cases ws with
  | nil => exact ⟨fun _ w hw => absurd hw not_mem_nil, fun _ => nodup_nil⟩
  | cons w ws =>
    -- the first packet has number 0 in both cases
    have hfirst : (match w.level with
        | .connection => 0 + UInt64.ofNat 0
        | .channel => 0) = (0 : UInt64) := by cases w.level <;> rfl
    rw [mapIdx_cons, hfirst, nodup_cons, tail_cons]
    constructor
    · rintro ⟨hzero, -⟩ v hv
      cases hlevel : v.level with
      | connection => rfl
      | channel =>
        obtain ⟨i, hi, rfl⟩ := mem_iff_getElem.mp hv
        refine absurd (mem_iff_getElem.mpr ⟨i, by simpa using hi, ?_⟩) hzero
        rw [getElem_mapIdx, hlevel]
    · intro hconn
      have hmap : ws.mapIdx (fun i v => match v.level with
          | .connection => 0 + UInt64.ofNat (i + 1)
          | .channel => 0) = (range ws.length).map fun i => UInt64.ofNat (i + 1) := by
        apply ext_getElem
        · simp
        · intro i hi _
          have hi' : i < ws.length := by simpa using hi
          rw [getElem_mapIdx, hconn _ (getElem_mem hi'), getElem_map,
            getElem_range]
          exact UInt64.zero_add _
      rw [length_cons] at hlen
      have hnat : ∀ i < ws.length, (UInt64.ofNat (i + 1)).toNat = i + 1 := by
        intro i hi
        rw [UInt64.toNat_ofNat', Nat.mod_eq_of_lt (by omega)]
      rw [hmap]
      constructor
      · intro hmem
        obtain ⟨i, hi, hz⟩ := mem_map.mp hmem
        have hz' := hnat i (mem_range.mp hi)
        rw [hz] at hz'
        cases hz'
      · refine List.Nodup.map_on (fun i hi j hj heq => ?_) nodup_range
        have hi' := hnat i (mem_range.mp hi)
        rw [heq, hnat j (mem_range.mp hj)] at hi'
        omega

/-- **Counter blocks.** For every run of the two writers, with every answer of the network:
no counter block is used twice exactly if the numbers the packets start from are different,
which are the sequence numbers for the writer of the connection and 0 for the writer of the
channels. In a run after the key exchange in which all packets go out this is to say that
only the first packet may be a channel's. -/
theorem counters_once_iff (P : Primitives Key) (c : Crypto Key) (s : Socket) (ws : List Write) :
    ((usedCounters P ws c s).Nodup ↔ ((encrypted P ws c s).map number).Nodup) ∧
    (c.enabled = true → c.encryptSeq = 0 → ws.length ≤ 2 ^ 64 → AllSent (P := P) ws c s →
      ((usedCounters P ws c s).Nodup ↔ ∀ w ∈ ws.tail, w.level = .connection)) := by
  have hiff : (usedCounters P ws c s).Nodup ↔ ((encrypted P ws c s).map number).Nodup := by
    have hmap : ((encrypted P ws c s).map number).Nodup ↔
        (encrypted P ws c s).Pairwise fun e e' => number e ≠ number e' := pairwise_map
    rw [usedCounters, nodup_flatMap, hmap]
    constructor
    · rintro ⟨-, hpair⟩
      exact hpair.imp_of_mem fun he he' hdisj => (disjoint_iff_number_ne he he').mp hdisj
    · intro hpair
      exact ⟨fun e he => nodup_counterBlocks he,
        hpair.imp_of_mem fun he he' hne => (disjoint_iff_number_ne he he').mpr hne⟩
  exact ⟨hiff, fun hon hseq hlen h => hiff.trans (numbers_nodup_iff hon hseq hlen h)⟩

/-- Keys as the key exchange leaves them, with zeros in all places. -/
def zeroKeys : Crypto Unit where
  enabled := true
  encryptKey := ()
  decryptKey := ()
  encryptIv := replicate 16 0
  decryptIv := replicate 16 0
  encryptMacKey := replicate 32 0
  decryptMacKey := replicate 32 0
  encryptSeq := 0
  decryptSeq := 0
  length_encryptIv := rfl
  length_decryptIv := rfl

/-- Functions that answer zeros only. -/
def zeroPrimitives : Primitives Unit where
  encryptBlock _ _ := replicate 16 0
  length_encryptBlock _ _ := rfl
  hmac _ _ := replicate 32 0
  length_hmac _ _ := rfl

/-- Two packets of the connection use different counters. -/
theorem counters_once_connection :
    (usedCounters zeroPrimitives [⟨.connection, [1], fun _ => 0⟩, ⟨.connection, [2], fun _ => 0⟩]
      zeroKeys ⟨[], [], [some 100, some 100, some 100, some 100]⟩).Nodup :=
  have hsent : AllSent
      [⟨.connection, [1], fun _ => 0⟩, ⟨.connection, [2], fun _ => 0⟩] zeroKeys
      ⟨[], [], [some 100, some 100, some 100, some 100]⟩ := ⟨_, _, rfl, _, _, rfl, trivial⟩
  ((counters_once_iff zeroPrimitives zeroKeys _ _).2 rfl rfl (by decide) hsent).mpr (by simp)

/-- Two packets of channels start from the same counter. -/
theorem channel_packets_share_counter :
    usedCounters zeroPrimitives [⟨.channel, [1], fun _ => 0⟩, ⟨.channel, [2], fun _ => 0⟩] zeroKeys
      ⟨[], [], [some 100, some 100]⟩ = [replicate 16 0, replicate 16 0] :=
  rfl

end Xaios.Ssh
