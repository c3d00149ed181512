import Mathlib.Data.List.Basic
import Xaios.Foundation.BigEndian
import Xaios.Foundation.Buffer

/-!
# The binary packets of the SSH server

`userspace/sshd/ssh_protocol.c`: sending and receiving on a socket, and the packets of
the transport before keys are in use, `ssh_packet_write` and `ssh_packet_read`.

A socket has the bytes that have arrived and were not read yet, and the bytes that went
out. A receive takes what is there, up to the size asked for; so `recv_all` ends with
what had arrived if that is too little (`Ssh.recvAll_eq`), and those bytes are
gone. How many bytes the network takes at each call of send is given.

A packet is written as its length, the length of the padding, the payload and the
padding (`Ssh.IsBinaryPacket`). `ssh_packet_read` takes the payload from behind
a piece as long as the padding, where the writer puts the padding last; so what is
written is read back exactly when the payload followed by the padding repeats itself at
that distance (`Ssh.packet_read_iff`).
-/

namespace Xaios.Ssh

open Foundation List

/-! ### Sockets -/

/-- A socket of the server. -/
structure Socket where
  /-- What has arrived and was not read. -/
  inbox : List UInt8
  /-- What was sent. -/
  sent : List UInt8
  /-- What the next calls of send answer: an error, or how many bytes they take at most. -/
  room : List (Option ℕ)

/-- `xaios_net_send`: how many bytes were taken, if there is no error. -/
def netSend (s : Socket) (data : List UInt8) : Option ℕ × Socket :=
  match s.room.headD none with
  | none => (none, { s with room := s.room.tail })
  | some k =>
    (some (min k data.length),
      { s with sent := s.sent ++ data.take (min k data.length), room := s.room.tail })

/-- `XAIOS_USER_LIMIT - XAIOS_USER_BASE`: there is no larger buffer in user memory. -/
def maxUserBuffer : ℕ := 0x0F000000

/-- `xaios_net_recv`: the bytes that were read, none if there are none yet. A buffer that
does not fit into user memory is refused. -/
def netRecv (s : Socket) (size : ℕ) : Option (List UInt8) × Socket :=
  if size = 0 ∨ size > maxUserBuffer then (none, s)
  else (some (s.inbox.take size), { s with inbox := s.inbox.drop size })

/-- The loop of `send_all`. -/
def sendLoop : ℕ → Socket → List UInt8 → Bool × Socket
  | 0, s, data => (data.isEmpty, s)
  | fuel + 1, s, data =>
    if data = [] then (true, s)
    else
      match netSend s data with
      | (none, s) => (false, s)
      | (some n, s) => if n = 0 then (false, s) else sendLoop fuel s (data.drop n)

/-- `send_all`: whether everything was taken. Every round of the loop sends a byte. -/
def sendAll (s : Socket) (data : List UInt8) : Bool × Socket := sendLoop data.length s data

/-- The loop of `recv_all`, with the bytes so far. -/
def recvLoop : ℕ → Socket → ℕ → List UInt8 → List UInt8 × Socket
  | 0, s, _, got => (got, s)
  | fuel + 1, s, len, got =>
    if got.length < len then
      match netRecv s (len - got.length) with
      | (none, s) => (got, s)
      | (some bytes, s) => if bytes = [] then (got, s) else recvLoop fuel s len (got ++ bytes)
    else (got, s)

/-- `recv_all`: the bytes it got. It succeeds if these are as many as asked for. -/
def recvAll (s : Socket) (len : ℕ) : List UInt8 × Socket := recvLoop len s len []

variable {s : Socket} {data : List UInt8}

theorem netSend_of_some {s' : Socket} {n : ℕ} (h : netSend s data = (some n, s')) :
    s'.sent = s.sent ++ data.take n ∧ s'.inbox = s.inbox := by
  unfold netSend at h
  split at h
  · cases h
  · cases h
    exact ⟨rfl, rfl⟩

theorem netRecv_eq {size : ℕ} (hpos : 0 < size) (hmax : size ≤ maxUserBuffer) :
    netRecv s size = (some (s.inbox.take size), { s with inbox := s.inbox.drop size }) := by
  rw [netRecv, if_neg (by omega)]

/-- What was sent, when all of it was taken. -/
theorem sendLoop_of_ok {fuel : ℕ} (h : (sendLoop fuel s data).1 = true) :
    (sendLoop fuel s data).2.sent = s.sent ++ data ∧
      (sendLoop fuel s data).2.inbox = s.inbox := by
  induction fuel generalizing s data with
  | zero =>
    have hnil : data = [] := isEmpty_iff.mp h
    subst hnil
    exact ⟨(append_nil _).symm, rfl⟩
  | succ fuel ih =>
    rw [sendLoop] at h ⊢
    split at h
    · rename_i hnil
      subst hnil
      exact ⟨(append_nil _).symm, rfl⟩
    · rename_i hne
      rw [if_neg hne]
      split at h
      · cases h
      · rename_i n s' hsend
        split at h
        · cases h
        · rename_i hn
          rw [if_neg hn]
          obtain ⟨hsent, hinbox⟩ := ih h
          obtain ⟨hsent', hinbox'⟩ := netSend_of_some hsend
          rw [hsent, hinbox, hsent', append_assoc, take_append_drop]
          exact ⟨rfl, hinbox'⟩

theorem sendAll_of_ok (h : (sendAll s data).1 = true) :
    (sendAll s data).2.sent = s.sent ++ data ∧ (sendAll s data).2.inbox = s.inbox :=
  sendLoop_of_ok h

theorem recvLoop_eq {fuel len : ℕ} {got : List UInt8} (hmax : len ≤ maxUserBuffer)
    (hfuel : len - got.length ≤ fuel) :
    recvLoop fuel s len got = (got ++ s.inbox.take (len - got.length),
      { s with inbox := s.inbox.drop (len - got.length) }) := by
  induction fuel generalizing s got with
  | zero =>
    rw [Nat.le_zero.mp hfuel, take_zero, append_nil]
    rfl
  | succ fuel ih =>
    rw [recvLoop]
    split
    · rename_i hlt
      rw [netRecv_eq (by omega) (by omega)]
      dsimp only
      split
      · rename_i hnone
        rw [hnone, append_nil]
      · rename_i hsome
        have hpos : 0 < s.inbox.length := length_pos_of_ne_nil fun h => hsome (by simp [h])
        have hlen : len - (got ++ s.inbox.take (len - got.length)).length =
            len - got.length - s.inbox.length := by
          rw [length_append, length_take]
          omega
        rw [ih (by omega), hlen, append_assoc, drop_drop]
        -- the second round has something to read only if the first was short, and then nothing is
        -- there
        rcases Nat.le_total s.inbox.length (len - got.length) with hle | hle
        · rw [drop_eq_nil_of_le hle, take_nil, append_nil,
            drop_eq_nil_of_le (by omega)]
        · rw [Nat.sub_eq_zero_of_le hle, take_zero, append_nil, Nat.add_zero]
    · rename_i hge
      rw [Nat.sub_eq_zero_of_le (by omega), take_zero, append_nil]
      rfl

/-- **What `recv_all` gets** is what has arrived, up to the size asked for. -/
theorem recvAll_eq (s : Socket) {len : ℕ} (hmax : len ≤ maxUserBuffer) :
    recvAll s len = (s.inbox.take len, { s with inbox := s.inbox.drop len }) :=
  recvLoop_eq hmax (Nat.sub_le _ _)

/-! ### Packets -/

/-- `ssh_read_u32_be`. -/
def readU32Be (p : List UInt8) : UInt32 :=
  (p.getD 0 0).toUInt32 <<< 24 ||| (p.getD 1 0).toUInt32 <<< 16 ||| (p.getD 2 0).toUInt32 <<< 8 |||
    (p.getD 3 0).toUInt32

/-- `ssh_write_u32_be`. -/
def writeU32Be (v : UInt32) : List UInt8 :=
  [(v >>> 24).toUInt8, (v >>> 16).toUInt8, (v >>> 8).toUInt8, v.toUInt8]

theorem readU32Be_writeU32Be (v : UInt32) (bs : List UInt8) : readU32Be (writeU32Be v ++ bs) = v :=
  be32_bytes v

/-- `SSH_MAX_PACKET_SIZE`. -/
def maxPacketSize : ℕ := 35000

/-- `ssh_packet_t`. -/
structure Packet where
  data : Buffer
  len : ℕ

/-- The payload of a packet. -/
def Packet.payload (p : Packet) : List UInt8 := p.data.load 0 p.len

/-- The loop that shifts the payload to the start. A byte is read before its place is
written. -/
def Packet.shift (p : Packet) (offset : ℕ) : Packet :=
  { p with data := p.data.store 0 (p.data.load offset p.len) }

/-- The end of `ssh_packet_read`, when the packet is in the buffer. -/
def Packet.unpack (pkt : Packet) (pktLen : ℕ) : Bool × Packet :=
  let padding := (pkt.data 0).toNat
  if padding ≥ pktLen - 1 then (false, pkt)
  else
    let pkt := { pkt with len := pktLen - padding - 1 }
    if pkt.len > maxPacketSize - 5 then (false, pkt) else (true, pkt.shift (1 + padding))

/-- `ssh_packet_read`: whether a packet was read, the packet, and the socket. -/
def packetRead (s : Socket) (pkt : Packet) : Bool × Packet × Socket :=
  let header := recvAll s 4
  if header.1.length ≠ 4 then (false, pkt, header.2)
  else
    let pktLen := (readU32Be header.1).toNat
    if pktLen > maxPacketSize then (false, pkt, header.2)
    else if pktLen < 2 then (false, pkt, header.2)
    else
      let body := recvAll header.2 pktLen
      let pkt := { pkt with data := pkt.data.store 0 body.1 }
      if body.1.length ≠ pktLen then (false, pkt, body.2)
      else
        let unpacked := pkt.unpack pktLen
        (unpacked.1, unpacked.2, body.2)

/-- How much padding the writers put after a payload, for blocks of a size. -/
def paddingFor (blockSize len : ℕ) : ℕ :=
  let padding := blockSize - (len + 5) % blockSize
  if padding < 4 then padding + blockSize else padding

/-- `ssh_packet_write`, with the bytes `crypto_random_bytes` puts in the padding. -/
def packetWrite (s : Socket) (data : List UInt8) (random : ℕ → UInt8) : Bool × Socket :=
  let padding := paddingFor 8 data.length
  if padding < 4 then (false, s)
  else
    let pktLen := data.length + padding + 1
    let header := sendAll s (writeU32Be (UInt32.ofNat pktLen) ++ [UInt8.ofNat padding])
    if !header.1 then (false, header.2)
    else
      let body := sendAll header.2 data
      if !body.1 then (false, body.2) else sendAll body.2 ((range padding).map random)

/-! ### What is written -/

/-- A packet with a given padding. -/
def binaryPacket (payload padding : List UInt8) : List UInt8 :=
  writeU32Be (UInt32.ofNat (payload.length + padding.length + 1)) ++ [UInt8.ofNat padding.length] ++
    payload ++ padding

/-- **The binary packets of RFC 4253** for a payload, in blocks of a size. -/
structure IsBinaryPacket (blockSize : ℕ) (payload bytes : List UInt8) : Prop where
  padded : ∃ padding : List UInt8, bytes = binaryPacket payload padding ∧ 4 ≤ padding.length ∧
    padding.length ≤ 255
  aligned : bytes.length % blockSize = 0

theorem length_binaryPacket (payload padding : List UInt8) :
    (binaryPacket payload padding).length = payload.length + 5 + padding.length := by
  simp only [binaryPacket, writeU32Be, length_append, length_cons, length_nil]
  omega

/-- The padding fills the last block and has four bytes at least. -/
theorem paddingFor_spec {blockSize : ℕ} (h : 4 ≤ blockSize) (len : ℕ) :
    4 ≤ paddingFor blockSize len ∧ paddingFor blockSize len ≤ blockSize + 3 ∧
      (len + 5 + paddingFor blockSize len) % blockSize = 0 := by
  have hr : (len + 5) % blockSize < blockSize := Nat.mod_lt _ (by omega)
  have hq := Nat.div_add_mod (len + 5) blockSize
  have hone : (len + 5 + (blockSize - (len + 5) % blockSize)) % blockSize = 0 := by
    have hsum : len + 5 + (blockSize - (len + 5) % blockSize) =
        blockSize * ((len + 5) / blockSize) + blockSize := by omega
    rw [hsum, Nat.mul_add_mod, Nat.mod_self]
  unfold paddingFor
  dsimp only
  split
  · refine ⟨by omega, by omega, ?_⟩
    rw [← Nat.add_assoc, Nat.add_mod_right, hone]
  · exact ⟨by omega, by omega, hone⟩

/-- The padding of `ssh_packet_write`. -/
def randomPadding (blockSize len : ℕ) (random : ℕ → UInt8) : List UInt8 :=
  (range (paddingFor blockSize len)).map random

theorem length_randomPadding (blockSize len : ℕ) (random : ℕ → UInt8) :
    (randomPadding blockSize len random).length = paddingFor blockSize len := by
  rw [randomPadding, length_map, length_range]

/-- The padding of the writers makes a packet of the standard. -/
theorem isBinaryPacket {blockSize : ℕ} (h : 4 ≤ blockSize) (hmax : blockSize ≤ 252)
    (payload : List UInt8) (random : ℕ → UInt8) :
    IsBinaryPacket blockSize payload
      (binaryPacket payload (randomPadding blockSize payload.length random)) := by
  obtain ⟨hmin, hle, hmod⟩ := paddingFor_spec h payload.length
  refine ⟨⟨_, rfl, ?_, ?_⟩, ?_⟩
  · rwa [length_randomPadding]
  · rw [length_randomPadding]
    omega
  · rwa [length_binaryPacket, length_randomPadding]

/-- **What `ssh_packet_write` sends**, when it answers 0. -/
theorem packetWrite_of_ok {random : ℕ → UInt8} (h : (packetWrite s data random).1 = true) :
    (packetWrite s data random).2.sent =
      s.sent ++ binaryPacket data (randomPadding 8 data.length random) := by
  obtain ⟨hmin, -, -⟩ := paddingFor_spec (by decide : 4 ≤ 8) data.length
  unfold packetWrite at h ⊢
  dsimp only at h ⊢
  rw [if_neg (by omega)] at h ⊢
  split at h
  · cases h
  rename_i hheader
  rw [if_neg hheader]
  split at h
  · cases h
  rename_i hbody
  rw [if_neg hbody]
  simp only [Bool.not_eq_true, Bool.not_eq_false'] at hheader hbody
  rw [(sendAll_of_ok h).1, (sendAll_of_ok hbody).1, (sendAll_of_ok hheader).1, binaryPacket,
    length_randomPadding, randomPadding]
  simp only [append_assoc]

/-! ### What is read -/

/-- The payload is taken from behind as many bytes as there are in the padding. -/
theorem Packet.unpack_eq {pkt : Packet} {payload padding : List UInt8} {pktLen : ℕ}
    (hpos : 1 ≤ payload.length) (hpadding : padding.length ≤ 255)
    (hpayload : payload.length ≤ maxPacketSize - 5)
    (hpktLen : pktLen = payload.length + padding.length + 1) (buffer : Buffer)
    (hdata : pkt.data = buffer.store 0 (UInt8.ofNat padding.length :: (payload ++ padding))) :
    (pkt.unpack pktLen).1 = true ∧ (pkt.unpack pktLen).2.len = payload.length ∧
      (pkt.unpack pktLen).2.payload = (payload ++ padding).drop padding.length := by
  have hfirst : (pkt.data 0).toNat = padding.length := by
    rw [hdata, Buffer.store, if_pos (by simp)]
    change (UInt8.ofNat padding.length).toNat = _
    rw [UInt8.toNat_ofNat', Nat.mod_eq_of_lt (by omega)]
  have hcount : pktLen - padding.length - 1 = payload.length := by omega
  have hdrop : pkt.data.load (1 + padding.length) payload.length =
      (payload ++ padding).drop padding.length := by
    have hfits : 1 + padding.length + payload.length ≤
        (UInt8.ofNat padding.length :: (payload ++ padding)).length := by
      rw [length_cons, length_append]
      omega
    have h := buffer.load_store 0 hfits
    rw [Nat.zero_add, ← hdata] at h
    rw [h, Nat.add_comm 1, drop_succ_cons, take_of_length_le (by simp)]
  have hlength : ((payload ++ padding).drop padding.length).length = payload.length := by simp
  have hload := pkt.data.load_store_self 0 ((payload ++ padding).drop padding.length)
  rw [hlength] at hload
  have heq : pkt.unpack pktLen =
      (true, ({ pkt with len := payload.length }).shift (1 + padding.length)) := by
    unfold Packet.unpack
    dsimp only
    rw [hfirst, if_neg (by omega), hcount, if_neg (by omega)]
  rw [heq]
  refine ⟨rfl, rfl, ?_⟩
  rw [Packet.payload, Packet.shift]
  rw [hdrop, hload]

/-- **What `ssh_packet_read` makes of a packet**: as many bytes as the payload has, but from
behind the first ones, as many as there are in the padding. -/
theorem packetRead_binaryPacket {pkt : Packet} {payload padding : List UInt8}
    (hpos : 1 ≤ payload.length) (hpadding : padding.length ≤ 255)
    (hmax : payload.length + padding.length + 1 ≤ maxPacketSize)
    (hpayload : payload.length ≤ maxPacketSize - 5) (hs : s.inbox = binaryPacket payload padding) :
    (packetRead s pkt).1 = true ∧ (packetRead s pkt).2.1.len = payload.length ∧
      (packetRead s pkt).2.1.payload = (payload ++ padding).drop padding.length := by
  obtain ⟨pktLen, hpktLen⟩ : ∃ n, n = payload.length + padding.length + 1 := ⟨_, rfl⟩
  have hnat : (UInt32.ofNat pktLen).toNat = pktLen := by
    rw [UInt32.toNat_ofNat', Nat.mod_eq_of_lt (by unfold maxPacketSize at hmax; omega)]
  -- the header, and the rest of the packet
  obtain ⟨body, hbody⟩ : ∃ l, l = UInt8.ofNat padding.length :: (payload ++ padding) := ⟨_, rfl⟩
  have hlen : body.length = pktLen := by
    rw [hbody, length_cons, length_append, hpktLen]
  have hbytes : s.inbox = writeU32Be (UInt32.ofNat pktLen) ++ body := by
    rw [hs, binaryPacket, append_assoc, append_assoc, hpktLen, hbody]
    rfl
  have hheader : recvAll s 4 = (writeU32Be (UInt32.ofNat pktLen), { s with inbox := body }) := by
    rw [recvAll_eq s (by decide), hbytes]
    rfl
  have hrest : recvAll { s with inbox := body } pktLen = (body, { s with inbox := [] }) := by
    rw [recvAll_eq _ (by unfold maxUserBuffer; unfold maxPacketSize at hmax; omega)]
    dsimp only
    rw [take_of_length_le (by omega), drop_eq_nil_of_le (by omega)]
  have hword : (readU32Be (writeU32Be (UInt32.ofNat pktLen))).toNat = pktLen := by
    rw [← append_nil (writeU32Be _), readU32Be_writeU32Be, hnat]
  have heq : packetRead s pkt =
      ((({ pkt with data := pkt.data.store 0 body }).unpack pktLen).1,
        (({ pkt with data := pkt.data.store 0 body }).unpack pktLen).2,
          { s with inbox := [] }) := by
    have h4 : (writeU32Be (UInt32.ofNat pktLen)).length = 4 := rfl
    unfold packetRead
    rw [hheader]
    dsimp only
    rw [hword, hrest, if_neg (not_not.mpr h4), if_neg (by omega), if_neg (by omega)]
    rw [if_neg (not_not.mpr hlen)]
  rw [heq]
  exact Packet.unpack_eq hpos hpadding hpayload hpktLen pkt.data (by rw [hbody])

/-- **Plain packets.** For every payload of 1 to 34000 bytes and every content of the
padding: what `ssh_packet_write` sends when it answers 0 is a packet of the standard, and
`ssh_packet_read` answers 0 on it with the right length. The payload is the one written
exactly when the payload followed by the padding, without its first bytes, as many as
there are in the padding, is the payload. -/
theorem packet_read_iff (payload : List UInt8) (hpos : 1 ≤ payload.length)
    (hmax : payload.length ≤ 34000) (random : ℕ → UInt8) :
    (∀ s, (packetWrite s payload random).1 = true → (packetWrite s payload random).2.sent =
        s.sent ++ binaryPacket payload (randomPadding 8 payload.length random)) ∧
    IsBinaryPacket 8 payload (binaryPacket payload (randomPadding 8 payload.length random)) ∧
    ∀ s pkt, s.inbox = binaryPacket payload (randomPadding 8 payload.length random) →
      (packetRead s pkt).1 = true ∧ (packetRead s pkt).2.1.len = payload.length ∧
      ((packetRead s pkt).2.1.payload = payload ↔
        (payload ++ randomPadding 8 payload.length random).drop (paddingFor 8 payload.length) =
          payload) := by
  refine ⟨fun s h => packetWrite_of_ok h, isBinaryPacket (by decide) (by decide) payload random,
    fun s pkt hs => ?_⟩
  obtain ⟨-, hle, -⟩ := paddingFor_spec (by decide : 4 ≤ 8) payload.length
  have hlen := length_randomPadding 8 payload.length random
  obtain ⟨hok, hcount, hpayload⟩ := packetRead_binaryPacket hpos (by omega)
    (by unfold maxPacketSize; omega) (by unfold maxPacketSize; omega) hs
  refine ⟨hok, hcount, ?_⟩
  rw [hpayload, hlen]

/-- The condition is met by a payload of zeros with a padding of zeros. -/
theorem packet_read_zeros :
    (packetRead ⟨binaryPacket [0, 0] (randomPadding 8 2 fun _ => 0), [], []⟩
      ⟨fun _ => 0, 0⟩).2.1.payload =
      [0, 0] :=
  ((packet_read_iff [0, 0] (by decide) (by decide) fun _ => 0).2.2
    ⟨binaryPacket [0, 0] (randomPadding 8 2 fun _ => 0), [], []⟩ ⟨fun _ => 0, 0⟩ rfl).2.2.mpr
      (by decide)

/-- The message `SSH_MSG_NEWKEYS`, sent with zeros as the padding, is read as a message of
type 0. -/
theorem newkeys_misread :
    let sent := packetWrite ⟨[], [], [some 5, some 1, some 10]⟩ [21] fun _ => 0
    sent.1 = true ∧
      (packetRead ⟨sent.2.sent, [], []⟩ ⟨fun _ => 0, 0⟩).1 = true ∧
      (packetRead ⟨sent.2.sent, [], []⟩ ⟨fun _ => 0, 0⟩).2.1.payload = [0] := by
  decide

end Xaios.Ssh
