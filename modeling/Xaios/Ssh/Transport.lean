import Xaios.Ssh.Cipher

/-!
# The encrypted readers of the SSH server

`conn_packet_read_encrypted` of `userspace/sshd/sshd.c` and `ssh_packet_read_encrypted` of
`ssh_protocol.c`, against the writers of `Ssh.Cipher`.

The writers compute the MAC of what they have encrypted, the readers of what they have
decrypted: the second reader of the whole packet, the first of its first block (and what
follows it is decrypted in place, sixteen bytes further on, so that every block overwrites
the next one before it is read). The first reader also hands out the packet with its
padding, and four bytes more.

So nothing that is sent on a connection is ever read as it was sent, while a packet on a
channel is accepted exactly if the MAC does not tell the plain text from the encrypted one,
and is read correctly then (`Ssh.encrypted_round_trip_iff`).
-/

namespace Xaios.Ssh

open Foundation List Sealing Level

variable {Key : Type} (P : Primitives Key)

/-! ### The readers -/

/-- The part of `ssh_connection_t` the readers use. -/
structure Conn (Key : Type) where
  crypto : Crypto Key
  pkt : Packet
  decryptRest : Buffer

/-- What is in the arrays on the stack of `conn_packet_read_encrypted` before they are
filled. -/
structure Stack where
  header : Buffer
  receivedMac : Buffer

/-- What a reader has got when it compares the MAC. -/
structure Received where
  pktLen : ℕ
  /-- The packet as far as it is decrypted. -/
  plain : List UInt8
  /-- The text the MAC is computed of. -/
  macInput : List UInt8
  /-- The MAC that was received. -/
  tag : List UInt8

/-- The packet is accepted. -/
def Received.Valid (r : Received) (c : Crypto Key) : Prop :=
  P.hmac c.decryptMacKey r.macInput = r.tag

instance (r : Received) (c : Crypto Key) : Decidable (r.Valid P c) :=
  inferInstanceAs (Decidable (_ = _))

/-- The first part of `ssh_packet_read_encrypted`. -/
def sshReceive (c : Crypto Key) (s : Socket) : Option Received × Socket :=
  let header := recvAll s 4
  if header.1.length ≠ 4 then (none, header.2)
  else
    let pktLen := (readU32Be header.1).toNat
    if pktLen > maxPacketSize then (none, header.2)
    else if pktLen < 2 then (none, header.2)
    else
      let body := recvAll header.2 (pktLen + 32)
      if body.1.length ≠ pktLen + 32 then (none, body.2)
      else
        let plain := aes128Ctr P c.decryptKey c.decryptIv (body.1.take pktLen)
        (some
          { pktLen := pktLen
            plain := plain
            macInput := sshSeqBytes c.decryptSeq ++ (header.1 ++ plain)
            tag := body.1.drop pktLen }, body.2)

/-- `ssh_packet_read_encrypted`: whether it answers 0, the connection and the socket. -/
def sshPacketReadEncrypted (conn : Conn Key) (s : Socket) : Bool × Conn Key × Socket :=
  if !conn.crypto.enabled then (false, conn, s)
  else
    match sshReceive P conn.crypto s with
    | (none, s) => (false, conn, s)
    | (some r, s) =>
      if ¬ r.Valid P conn.crypto then (false, conn, s)
      else
        let crypto := { conn.crypto with decryptSeq := conn.crypto.decryptSeq + 1 }
        let padding := (r.plain.getD 0 0).toNat
        let payloadLen := (r.pktLen + 2 ^ 32 - padding - 1) % 2 ^ 32
        if payloadLen > maxPacketSize - 5 then (false, { conn with crypto := crypto }, s)
        else
          let data := conn.pkt.data.store 0 ((r.plain.drop 1).take payloadLen)
          (true, { conn with crypto := crypto, pkt := ⟨data, payloadLen⟩ }, s)

/-- `aes128_ctr` from a buffer to the same buffer sixteen bytes further on: a block is read
after the block before it was written over it. -/
def aes128CtrAhead (key : Key) : ℕ → List UInt8 → Buffer → ℕ → ℕ → Buffer
  | 0, _, buffer, _, _ => buffer
  | fuel + 1, counter, buffer, pos, len =>
    if pos < len then
      let block := buffer.load pos (min 16 (len - pos))
      aes128CtrAhead key fuel (increment counter)
        (buffer.store (16 + pos) (xorBytes block (P.encryptBlock key counter)))
        (pos + min 16 (len - pos)) len
    else buffer

/-- The counter `conn_packet_read_encrypted` starts the rest of a packet from: one more, in
the last four bytes. -/
def restIv (iv : List UInt8) (seq : UInt64) : List UInt8 :=
  xorSeq (iv.take 12 ++ increment (iv.drop 12)) seq

/-- The rest of a packet is received, if there is one. -/
def connReceiveRest (rest : Buffer) (s : Socket) (remaining : ℕ) : Option Buffer × Socket :=
  if remaining > 0 then
    match netRecv s remaining with
    | (none, s) => (none, s)
    | (some bytes, s) => (some (rest.store 0 bytes), s)
  else (some rest, s)

/-- How much of a packet follows its header, in 32 bits. -/
def restLen (packetLen : ℕ) : ℕ := (UInt32.ofNat packetLen + 4 - 16).toNat

/-- The rest of a packet and its MAC are received, and the rest is decrypted. How many bytes
a receive has got is ignored. -/
def connReceiveBody (stack : Stack) (conn : Conn Key) (s : Socket) (decrypted : List UInt8)
    (packetLen : ℕ) : Option Received × Buffer × Socket :=
  let c := conn.crypto
  let remaining := restLen packetLen
  match connReceiveRest conn.decryptRest s remaining with
  | (none, s) => (none, conn.decryptRest, s)
  | (some rest, s) =>
    match netRecv s 32 with
    | (none, s) => (none, rest, s)
    | (some bytes, s) =>
      let rest :=
        if remaining > 0 then
          aes128CtrAhead P c.decryptKey remaining (restIv c.decryptIv c.decryptSeq) rest 0 remaining
        else rest
      let plain := decrypted ++ rest.load 0 remaining
      (some
        { pktLen := packetLen
          plain := plain
          macInput := connSeqBytes c.decryptSeq ++ plain
          tag := (stack.receivedMac.store 0 bytes).load 0 32 }, rest, s)

/-- The first part of `conn_packet_read_encrypted`. -/
def connReceive (stack : Stack) (conn : Conn Key) (s : Socket) :
    Option Received × Buffer × Socket :=
  let c := conn.crypto
  match netRecv s 16 with
  | (none, s) => (none, conn.decryptRest, s)
  | (some bytes, s) =>
    let header := (stack.header.store 0 bytes).load 0 16
    let decrypted := aes128Ctr P c.decryptKey (xorSeq c.decryptIv c.decryptSeq) header
    let packetLen := (readU32Be decrypted).toNat
    let paddingLen := (decrypted.getD 4 0).toNat
    if packetLen > maxPacketSize ∨ paddingLen > packetLen then (none, conn.decryptRest, s)
    else connReceiveBody P stack conn s decrypted packetLen

/-- `conn_packet_read_encrypted`: whether it answers 0, the connection and the socket. -/
def connPacketReadEncrypted (stack : Stack) (conn : Conn Key) (s : Socket) :
    Bool × Conn Key × Socket :=
  if !conn.crypto.enabled then
    let r := packetRead s conn.pkt
    (r.1, { conn with pkt := r.2.1 }, r.2.2)
  else
    match connReceive P stack conn s with
    | (none, rest, s) => (false, { conn with decryptRest := rest }, s)
    | (some r, rest, s) =>
      if ¬ r.Valid P conn.crypto then (false, { conn with decryptRest := rest }, s)
      else
        let crypto := { conn.crypto with decryptSeq := conn.crypto.decryptSeq + 1 }
        let data := conn.pkt.data.store 0 ((r.plain.drop 4).take r.pktLen)
        (true, { crypto := crypto, pkt := ⟨data, r.pktLen + 4⟩, decryptRest := rest }, s)

/-- A call of a reader. -/
def Level.read (level : Level) (stack : Stack) (conn : Conn Key) (s : Socket) :
    Bool × Conn Key × Socket :=
  match level with
  | .connection => connPacketReadEncrypted P stack conn s
  | .channel => sshPacketReadEncrypted P conn s

/-- What a reader compares, if it gets so far. -/
def Level.receive (level : Level) (stack : Stack) (conn : Conn Key) (s : Socket) :
    Option Received :=
  match level with
  | .connection => (connReceive P stack conn s).1
  | .channel => (sshReceive P conn.crypto s).1

/-! ### Sending and receiving -/

/-- A payload, and what `crypto_random_bytes` puts in its padding. -/
structure Message where
  data : List UInt8
  random : ℕ → UInt8

/-- The bytes of a packet on the wire. -/
def Sealing.bytes (x : Sealing) (c : Crypto Key) : List UInt8 :=
  x.clear ++ x.cipher P c ++ P.hmac c.encryptMacKey (x.macInput P c)

/-- The keys of the sender for the next packet. -/
def Crypto.sentOne (c : Crypto Key) : Crypto Key := { c with encryptSeq := c.encryptSeq + 1 }

/-- The keys of the receiver for the next packet. -/
def Crypto.gotOne (c : Crypto Key) : Crypto Key := { c with decryptSeq := c.decryptSeq + 1 }

/-- The packets of messages that are sent one after the other, if the writer takes them. -/
def sealings (level : Level) : Crypto Key → List Message → Option (List (Crypto Key × Sealing))
  | _, [] => some []
  | w, m :: ms => do
    let x ← level.sealing w m.data m.random
    let xs ← sealings level w.sentOne ms
    return (w, x) :: xs

/-- The network takes a packet as a whole, when it takes it. -/
def Socket.Roomy (s : Socket) : Prop := ∀ k, some k ∈ s.room → maxPacketSize ≤ k

/-- A writer sends messages one after the other, and answers 0 each time. -/
def Sent (level : Level) : Crypto Key → Socket → List Message → Socket → Prop
  | _, s, [], s' => s' = s
  | w, s, m :: ms, s' => ∃ w₁ s₁, level.write P w s m.data m.random = some (true, w₁, s₁) ∧
      Sent level w₁ s₁ ms s'

/-- The payloads a reader hands out in a number of calls. -/
def payloads (level : Level) (stack : Stack) :
    ℕ → Conn Key → Socket → List (Option (List UInt8))
  | 0, _, _ => []
  | n + 1, conn, s =>
    let r := level.read P stack conn s
    (if r.1 then some r.2.1.pkt.payload else none) :: payloads level stack n r.2.1 r.2.2

/-- The receiver has the keys of the sender. -/
structure Matching (w r : Crypto Key) : Prop where
  writerOn : w.enabled = true
  readerOn : r.enabled = true
  key : r.decryptKey = w.encryptKey
  iv : r.decryptIv = w.encryptIv
  macKey : r.decryptMacKey = w.encryptMacKey
  seq : r.decryptSeq = w.encryptSeq

variable {w : Crypto Key}

theorem Matching.next {r : Crypto Key} (h : Matching w r) : Matching w.sentOne r.gotOne where
  writerOn := h.writerOn
  readerOn := h.readerOn
  key := h.key
  iv := h.iv
  macKey := h.macKey
  seq := by
    change r.decryptSeq + 1 = w.encryptSeq + 1
    rw [h.seq]

/-- The MAC tells the text a reader computes it of from the text that was sent: if it is the
one that is received, then the texts are the same. -/
def Distinguishes (level : Level) (stack : Stack) (conn : Conn Key) (s : Socket)
    (sent : List UInt8) : Prop :=
  ∀ r, level.receive P stack conn s = some r → r.Valid P conn.crypto → r.macInput = sent

/-- One byte of a packet is altered. -/
def Altered (packet altered : List UInt8) : Prop :=
  ∃ i b, i < packet.length ∧ packet.getD i 0 ≠ b ∧ altered = packet.set i b

/-- A reader rejects the packets of a run in which one byte is altered, whatever follows,
under a MAC that tells what it computes from what was sent. -/
def RejectsAltered (level : Level) (stack : Stack) : Conn Key → List (Crypto Key × Sealing) → Prop
  | _, [] => True
  | conn, (w, x) :: xs =>
    (∀ altered more, Altered (x.bytes P w) altered →
      Distinguishes P level stack conn ⟨x.bytes P w ++ more, [], []⟩ (x.macInput P w) →
      Distinguishes P level stack conn ⟨altered ++ more, [], []⟩ (x.macInput P w) →
      (level.read P stack conn ⟨altered ++ more, [], []⟩).1 = false) ∧
    RejectsAltered level stack { conn with crypto := conn.crypto.gotOne } xs

/-- The MAC of a packet is the same for the plain text as for the encrypted one. -/
def SameTag (w : Crypto Key) (x : Sealing) : Prop :=
  P.hmac w.encryptMacKey (x.seqBytes ++ (x.clear ++ x.text)) =
    P.hmac w.encryptMacKey (x.macInput P w)

/-- The runs that are read as they were sent. -/
def ReadsBack (level : Level) (ms : List Message) (xs : List (Crypto Key × Sealing)) : Prop :=
  match level with
  | .connection => ms = []
  | .channel => ∀ e ∈ xs, SameTag P e.1 e.2

/-! ### What goes out -/

variable {P} {data : List UInt8}

variable {s s' : Socket}

theorem Socket.Roomy.netSend {n : Option ℕ} (hroom : s.Roomy) (h : netSend s data = (n, s')) :
    s'.Roomy := by
  intro k hk
  unfold Ssh.netSend at h
  split at h <;>
  · cases h
    exact hroom k (mem_of_mem_tail hk)

theorem netSend_roomy {n : ℕ} (hroom : s.Roomy) (hlen : data.length ≤ maxPacketSize)
    (h : netSend s data = (some n, s')) : s'.sent = s.sent ++ data ∧ s'.Roomy := by
  refine ⟨?_, hroom.netSend h⟩
  unfold netSend at h
  split at h
  · cases h
  · rename_i k hk
    cases h
    have hmem : some k ∈ s.room := by
      cases hr : s.room with
      | nil => simp [hr] at hk
      | cons a rest => simp_all
    have hk' := hroom k hmem
    rw [take_of_length_le (by omega)]

variable {s : Socket}

variable {level : Level} {random : ℕ → UInt8}

/-- **What a writer sends**, when it answers 0. On a channel the network may take it in pieces. -/
theorem Level.write_sends {w' : Crypto Key} (hon : w.enabled = true)
    (hroom : level = .connection → s.Roomy)
    (h : level.write P w s data random = some (true, w', s')) :
    w' = w.sentOne ∧ ∃ x, level.sealing w data random = some x ∧
      s'.sent = s.sent ++ x.bytes P w ∧ (level = .connection → s'.Roomy) := by
  obtain ⟨hstep, x, hx⟩ := exists_sealing hon h
  obtain ⟨-, -, hlen⟩ := sealing_spec hx
  refine ⟨hstep, x, hx, ?_⟩
  unfold sealing at hx
  rw [hon, if_neg (by decide)] at hx
  have hcipher : (x.cipher P w).length ≤ maxPacketSize := by rwa [cipher, length_aes128Ctr]
  cases level with
  | connection =>
    have hclear : x.clear = [] := by
      simp only [connSealing] at hx
      split at hx
      · cases hx
      · cases hx
        rfl
    simp only [write, Option.some.injEq] at h
    unfold connPacketWriteEncrypted at h
    rw [hon, if_neg (by decide), show connSealing w data random = some x from hx] at h
    dsimp only at h
    split at h
    · cases h
    · rename_i hfirst
      split at h
      · cases h
      · rename_i hsecond
        cases h
        obtain ⟨hsent, hroom'⟩ := netSend_roomy (hroom rfl) hcipher hfirst
        have hmac : (P.hmac w.encryptMacKey (x.macInput P w)).length ≤ maxPacketSize := by
          rw [P.length_hmac]
          decide
        obtain ⟨hsent', hroom''⟩ := netSend_roomy hroom' hmac hsecond
        refine ⟨?_, fun _ => hroom''⟩
        rw [hsent', hsent, bytes, hclear, nil_append, append_assoc]
  | channel =>
    simp only [write, sshPacketWriteEncrypted] at h
    rw [hon, if_neg (by decide), show sshSealing w data random = some x from hx] at h
    obtain ⟨hok, hs'⟩ := Prod.mk.inj (Option.some.inj h)
    obtain ⟨-, rfl⟩ := Prod.mk.inj hs'
    exact ⟨(sendAll_of_ok hok).1, fun hlevel => by cases hlevel⟩

variable {w : Crypto Key}

variable {ms : List Message}

/-- What is on the wire after a run of a writer. -/
theorem Sent.sealings (hon : w.enabled = true) (hroom : level = .connection → s.Roomy)
    (h : Sent P level w s ms s') :
    ∃ xs, sealings level w ms = some xs ∧
      s'.sent = s.sent ++ xs.flatMap fun e => e.2.bytes P e.1 := by
  induction ms generalizing w s with
  | nil =>
    refine ⟨[], rfl, ?_⟩
    rw [show s' = s from h]
    exact (append_nil _).symm
  | cons m ms ih =>
    obtain ⟨w₁, s₁, hwrite, hrest⟩ := h
    obtain ⟨rfl, x, hx, hsent, hroom'⟩ := write_sends hon hroom hwrite
    obtain ⟨xs, hxs, hsent'⟩ := ih (w := w.sentOne) hon hroom' hrest
    refine ⟨(w, x) :: xs, ?_, ?_⟩
    · rw [Ssh.sealings, hx, hxs]
      rfl
    · rw [hsent', hsent, append_assoc]
      rfl

/-! ### Packets of a channel -/

variable {x : Sealing}

/-- What `ssh_packet_write_encrypted` encrypts. -/
theorem sshSealing_spec (h : sshSealing w data random = some x) :
    x.clear = writeU32Be (UInt32.ofNat x.text.length) ∧ x.iv = w.encryptIv ∧
      x.seqBytes = sshSeqBytes w.encryptSeq ∧
      x.text = UInt8.ofNat (paddingFor 16 data.length) ::
        (data ++ randomPadding 16 data.length random) ∧
      x.text.length = data.length + paddingFor 16 data.length + 1 ∧
      4 + x.text.length + 32 ≤ maxPacketSize := by
  unfold sshSealing at h
  dsimp only at h
  split at h
  · cases h
  · rename_i hle
    cases h
    have hlen : (UInt8.ofNat (paddingFor 16 data.length) ::
        (data ++ randomPadding 16 data.length random)).length =
        data.length + paddingFor 16 data.length + 1 := by
      rw [length_cons, length_append, length_randomPadding]
    refine ⟨?_, rfl, rfl, rfl, hlen, ?_⟩
    · rw [hlen]
    · rw [hlen]
      omega

theorem readU32Be_of_take {bytes : List UInt8} {v : UInt32} (h : bytes.take 4 = writeU32Be v) :
    readU32Be bytes = v := by
  rw [← take_append_drop 4 bytes, h, readU32Be_writeU32Be]

variable {r : Received}

/-- What `ssh_packet_read_encrypted` compares is from the bytes that have arrived. -/
theorem sshReceive_some {c : Crypto Key} (h : (sshReceive P c s).1 = some r) :
    r.pktLen = (readU32Be (s.inbox.take 4)).toNat ∧ r.pktLen ≤ maxPacketSize ∧
      r.plain = aes128Ctr P c.decryptKey c.decryptIv ((s.inbox.drop 4).take r.pktLen) ∧
      r.macInput = sshSeqBytes c.decryptSeq ++ (s.inbox.take 4 ++ r.plain) ∧
      r.tag = ((s.inbox.drop 4).drop r.pktLen).take 32 := by
  have hfirst := recvAll_eq s (by decide : 4 ≤ maxUserBuffer)
  unfold sshReceive at h
  rw [hfirst] at h
  dsimp only at h
  split at h
  · cases h
  split at h
  · cases h
  rename_i hmax
  split at h
  · cases h
  have hbody := recvAll_eq { s with inbox := s.inbox.drop 4 }
    (by unfold maxUserBuffer; unfold maxPacketSize at hmax; omega :
      (readU32Be (s.inbox.take 4)).toNat + 32 ≤ maxUserBuffer)
  rw [hbody] at h
  split at h
  · cases h
  cases h
  refine ⟨rfl, Nat.le_of_not_gt hmax, ?_, ?_, ?_⟩
  · rw [take_take, Nat.min_eq_left (Nat.le_add_right _ _)]
  · rw [take_take, Nat.min_eq_left (Nat.le_add_right _ _)]
  · rw [drop_take, Nat.add_sub_cancel_left]

section Channel

variable {w : Crypto Key} {conn : Conn Key} {data : List UInt8} {random : ℕ → UInt8} {x : Sealing}

/-- The reader decrypts what the writer has encrypted. -/
theorem Matching.plain (hmatch : Matching w conn.crypto) (hiv : x.iv = w.encryptIv) :
    aes128Ctr P conn.crypto.decryptKey conn.crypto.decryptIv (x.cipher P w) = x.text := by
  rw [hmatch.key, hmatch.iv, cipher, hiv, aes128Ctr_aes128Ctr]

/-- The length before a packet is read back. -/
theorem readU32Be_clear (h : sshSealing w data random = some x) :
    (readU32Be x.clear).toNat = x.text.length := by
  obtain ⟨hclear, -, -, -, -, hfits⟩ := sshSealing_spec h
  have hlimit : maxPacketSize = 35000 := rfl
  rw [hclear, ← append_nil (writeU32Be _), readU32Be_writeU32Be, UInt32.toNat_ofNat',
    Nat.mod_eq_of_lt (by omega)]

variable {more : List UInt8}

/-- What the reader compares for a packet of a channel: the MAC of the plain text with the
one of the encrypted text. -/
theorem sshReceive_bytes (hmatch : Matching w conn.crypto) (h : sshSealing w data random = some x)
    (s : Socket) (hs : s.inbox = x.bytes P w ++ more) :
    sshReceive P conn.crypto s =
      (some
        { pktLen := x.text.length
          plain := x.text
          macInput := x.seqBytes ++ (x.clear ++ x.text)
          tag := P.hmac w.encryptMacKey (x.macInput P w) }, { s with inbox := more }) := by
  obtain ⟨hclear, hiv, hseq, -, hlen, hfits⟩ := sshSealing_spec h
  obtain ⟨hmin, -, -⟩ := paddingFor_spec (by decide : 4 ≤ 16) data.length
  have hlimit : maxPacketSize = 35000 := rfl
  have hcipher : (x.cipher P w).length = x.text.length := length_aes128Ctr P _ _ _
  have h4 : x.clear.length = 4 := by
    rw [hclear]
    rfl
  have hbody : (x.cipher P w ++ P.hmac w.encryptMacKey (x.macInput P w)).length =
      x.text.length + 32 := by
    rw [length_append, hcipher, P.length_hmac]
  have hinbox : s.inbox =
      x.clear ++ (x.cipher P w ++ P.hmac w.encryptMacKey (x.macInput P w) ++ more) := by
    simp only [hs, bytes, append_assoc]
  unfold sshReceive
  rw [recvAll_eq s (by decide), hinbox, take_left' h4, drop_left' h4]
  dsimp only
  rw [readU32Be_clear h, recvAll_eq _ (by unfold maxUserBuffer; omega)]
  rw [take_left' hbody, drop_left' hbody, if_neg (not_not.mpr h4), if_neg (by omega),
    if_neg (by omega), if_neg (not_not.mpr hbody), take_left' hcipher, drop_left' hcipher,
    hmatch.plain hiv, hmatch.seq, ← hseq]

/-- **One packet of a channel** is accepted exactly if its plain text has the MAC of its
encrypted text, and then it is read as it was sent. -/
theorem sshPacketReadEncrypted_bytes (hmatch : Matching w conn.crypto)
    (h : sshSealing w data random = some x) (s : Socket) (hs : s.inbox = x.bytes P w ++ more) :
    ((sshPacketReadEncrypted P conn s).1 = true ↔ SameTag P w x) ∧
      (SameTag P w x → (sshPacketReadEncrypted P conn s).2.1.pkt.payload = data ∧
        (sshPacketReadEncrypted P conn s).2.1.crypto = conn.crypto.gotOne ∧
        (sshPacketReadEncrypted P conn s).2.2 = { s with inbox := more }) := by
  obtain ⟨-, -, -, htext, hlen, hfits⟩ := sshSealing_spec h
  obtain ⟨-, hpad, -⟩ := paddingFor_spec (by decide : 4 ≤ 16) data.length
  have hlimit : maxPacketSize = 35000 := rfl
  have hbyte : (x.text.getD 0 0).toNat = paddingFor 16 data.length := by
    rw [htext, getD_cons_zero, UInt8.toNat_ofNat', Nat.mod_eq_of_lt (by omega)]
  have hcount :
      (x.text.length + 2 ^ 32 - paddingFor 16 data.length - 1) % 2 ^ 32 = data.length := by
    have hsub : x.text.length + 2 ^ 32 - paddingFor 16 data.length - 1 = data.length + 2 ^ 32 := by
      omega
    rw [hsub, Nat.add_mod_right, Nat.mod_eq_of_lt (by omega)]
  have hdata : (x.text.drop 1).take data.length = data := by
    rw [htext, drop_one, tail_cons, take_left']
    rfl
  unfold sshPacketReadEncrypted
  rw [hmatch.readerOn, sshReceive_bytes hmatch h s hs]
  dsimp only
  have hvalid : Received.Valid P
      { pktLen := x.text.length, plain := x.text, macInput := x.seqBytes ++ (x.clear ++ x.text)
        tag := P.hmac w.encryptMacKey (x.macInput P w) } conn.crypto ↔ SameTag P w x := by
    rw [Received.Valid, SameTag, hmatch.macKey]
  rw [if_neg (by decide)]
  by_cases hsame : SameTag P w x
  · rw [if_neg (not_not.mpr (hvalid.mpr hsame)), hbyte, hcount, if_neg (by omega), hdata]
    refine ⟨iff_of_true rfl hsame, fun _ => ⟨?_, rfl, rfl⟩⟩
    exact conn.pkt.data.load_store_self 0 data
  · rw [if_pos (mt hvalid.mp hsame)]
    exact ⟨iff_of_false Bool.false_ne_true hsame, fun h => absurd h hsame⟩

/-- **An altered packet of a channel** is rejected, if the packet itself is accepted and the
MAC distinguishes. -/
theorem sshPacketReadEncrypted_altered {stack : Stack} (hmatch : Matching w conn.crypto)
    (h : sshSealing w data random = some x) (hsame : SameTag P w x) {altered : List UInt8}
    (halt : Altered (x.bytes P w) altered)
    (hown : Distinguishes P .channel stack conn ⟨x.bytes P w ++ more, [], []⟩ (x.macInput P w))
    (hother : Distinguishes P .channel stack conn ⟨altered ++ more, [], []⟩ (x.macInput P w)) :
    (sshPacketReadEncrypted P conn ⟨altered ++ more, [], []⟩).1 = false := by
  obtain ⟨hclear, hiv, hseq, -, -, hfits⟩ := sshSealing_spec h
  have h4 : x.clear.length = 4 := by
    rw [hclear]
    rfl
  have hcipher : (x.cipher P w).length = x.text.length := length_aes128Ctr P _ _ _
  -- the packet is its own encryption
  have hfixed : x.text = x.cipher P w := by
    have hreceive := sshReceive_bytes hmatch h ⟨x.bytes P w ++ more, [], []⟩ rfl
    have heq := hown _ (congrArg Prod.fst hreceive) (by
      rw [Received.Valid, hmatch.macKey]
      exact hsame)
    exact append_cancel_left (append_cancel_left heq)
  by_contra hok
  rw [Bool.not_eq_false] at hok
  unfold sshPacketReadEncrypted at hok
  rw [hmatch.readerOn, if_neg (by decide)] at hok
  split at hok
  · cases hok
  rename_i r s' hreceive
  split at hok
  · cases hok
  rename_i hvalid
  have hvalid' := not_not.mp hvalid
  have hsome := congrArg Prod.fst hreceive
  obtain ⟨hpktLen, -, hplain', hinput, htag⟩ := sshReceive_some hsome
  have hsent := hother r hsome hvalid'
  obtain ⟨i, b, hi, hne, rfl⟩ := halt
  have hlen : ((x.bytes P w).set i b).length = 4 + (x.text.length + 32) := by
    rw [length_set, bytes, length_append, length_append, h4, hcipher,
      P.length_hmac, Nat.add_assoc]
  have hfront : (((x.bytes P w).set i b ++ more).take 4) = ((x.bytes P w).set i b).take 4 :=
    take_append_of_le_length (by omega)
  have hback : (((x.bytes P w).set i b ++ more).drop 4) = ((x.bytes P w).set i b).drop 4 ++ more :=
    drop_append_of_le_length (by omega)
  rw [hfront] at hpktLen hinput
  rw [hback] at hplain' htag
  generalize hset : (x.bytes P w).set i b = altered at hlen hpktLen hplain' hinput htag
  have hdrop : (altered.drop 4).length = x.text.length + 32 := by
    rw [length_drop]
    omega
  -- the length, and the encrypted text
  rw [hinput, hmatch.seq, ← hseq, macInput] at hsent
  obtain ⟨hlength, hbody⟩ := append_inj (append_cancel_left hsent) (by
    rw [length_take, h4]
    omega)
  have hcount : r.pktLen = x.text.length := by
    rw [hpktLen, hlength, readU32Be_clear h]
  rw [hcount, take_append_of_le_length (by omega)] at hplain'
  rw [hcount, drop_append_of_le_length (by omega),
    take_append_of_le_length (by rw [length_drop]; omega),
    take_of_length_le (by rw [length_drop]; omega)] at htag
  have htext : (altered.drop 4).take x.text.length = x.cipher P w := by
    have htwice : aes128Ctr P conn.crypto.decryptKey conn.crypto.decryptIv
        ((altered.drop 4).take x.text.length) = x.cipher P w := hplain'.symm.trans hbody
    rw [← aes128Ctr_aes128Ctr P conn.crypto.decryptKey conn.crypto.decryptIv
      ((altered.drop 4).take x.text.length), htwice, hmatch.plain hiv, hfixed]
  have hmac : (altered.drop 4).drop x.text.length = P.hmac w.encryptMacKey (x.macInput P w) := by
    rw [← htag, ← hvalid', hmatch.macKey, hinput, hmatch.seq, ← hseq, hsent, macInput]
  -- so nothing is altered
  have hwhole : altered = x.bytes P w := by
    rw [← take_append_drop 4 altered, ← take_append_drop x.text.length (altered.drop 4),
      hlength, htext, hmac, bytes, append_assoc]
  rw [← hset] at hwhole
  have hget : ((x.bytes P w).set i b).getD i 0 = b := by
    rw [getD_eq_getElem?_getD, getElem?_set_self hi]
    rfl
  exact hne (by rw [← hget, hwhole])

end Channel

/-! ### Packets of the connection -/

/-- The first bytes of a text are xored with the encryption of the first counter. -/
theorem take_aes128Ctr (key : Key) (iv : List UInt8) {text : List UInt8} {k : ℕ} (hk : k ≤ 16)
    (hpos : 0 < text.length) :
    (aes128Ctr P key iv text).take k = xorBytes (text.take k) ((P.encryptBlock key iv).take k) := by
  obtain ⟨n, hn⟩ := Nat.exists_eq_succ_of_ne_zero (blocksFor_pos (by decide : 0 < 16) hpos).ne'
  have hstream : ((counterBlocks iv text).flatMap (P.encryptBlock key)).take k =
      (P.encryptBlock key iv).take k := by
    rw [counterBlocks, hn, counters, flatMap_cons,
      take_append_of_le_length (by rw [P.length_encryptBlock]; exact hk)]
  rw [aes128Ctr_eq, xorBytes, take_zipWith, hstream]
  rfl

variable {conn : Conn Key}

variable {stack : Stack}

theorem connReceiveBody_some {decrypted : List UInt8} {packetLen : ℕ}
    (h : (connReceiveBody P stack conn s decrypted packetLen).1 = some r) :
    r.pktLen = packetLen := by
  unfold connReceiveBody at h
  generalize restLen packetLen = remaining at h
  dsimp only at h
  split at h
  · cases h
  split at h
  · cases h
  cases h
  rfl

/-- What `conn_packet_read_encrypted` takes for the length of a packet. -/
theorem connReceive_some (h : (connReceive P stack conn s).1 = some r) :
    r.pktLen = (readU32Be (aes128Ctr P conn.crypto.decryptKey
      (xorSeq conn.crypto.decryptIv conn.crypto.decryptSeq)
      ((stack.header.store 0 (s.inbox.take 16)).load 0 16))).toNat := by
  have hrecv : netRecv s 16 = (some (s.inbox.take 16), { s with inbox := s.inbox.drop 16 }) :=
    netRecv_eq (by decide) (by unfold maxUserBuffer; omega)
  unfold connReceive at h
  rw [hrecv] at h
  dsimp only at h
  split at h
  · cases h
  · exact connReceiveBody_some h

variable {more : List UInt8}

/-- **A packet of the connection**, if it is accepted, is handed out with thirteen bytes too
many. -/
theorem connPacketReadEncrypted_bytes (hmatch : Matching w conn.crypto)
    (h : connSealing w data random = some x) (s : Socket) (hs : s.inbox = x.bytes P w ++ more)
    (hok : (connPacketReadEncrypted P stack conn s).1 = true) :
    (connPacketReadEncrypted P stack conn s).2.1.pkt.len = data.length + 13 := by
  unfold connSealing at h
  split at h
  · cases h
  rename_i hfits
  cases h
  have hlimit : maxPacketSize = 35000 := rfl
  obtain ⟨text, htext⟩ : ∃ t, t = binaryPacket data ((range 8).map random) := ⟨_, rfl⟩
  have hlen : text.length = data.length + 13 := by
    rw [htext, length_binaryPacket, length_map, length_range]
  have hword : text.take 4 = writeU32Be (UInt32.ofNat (data.length + 9)) := by
    rw [htext, binaryPacket, length_map, length_range, append_assoc,
      append_assoc]
    rfl
  -- the first bytes of the header are those of the packet
  have hinbox : ∃ tail, s.inbox =
      aes128Ctr P w.encryptKey (xorSeq w.encryptIv w.encryptSeq) text ++ tail ∧
        32 ≤ tail.length := by
    rw [hs, bytes, cipher, nil_append, ← htext, append_assoc]
    refine ⟨_, rfl, ?_⟩
    rw [length_append, P.length_hmac]
    exact Nat.le_add_right _ _
  obtain ⟨tail, hinbox, htail⟩ := hinbox
  obtain ⟨cipher, hcipher⟩ :
      ∃ l, l = aes128Ctr P w.encryptKey (xorSeq w.encryptIv w.encryptSeq) text := ⟨_, rfl⟩
  have hclen : cipher.length = text.length := by rw [hcipher, length_aes128Ctr]
  have hheader : (stack.header.store 0 (s.inbox.take 16)).load 0 16 = s.inbox.take 16 := by
    have hsixteen : (s.inbox.take 16).length = 16 := by
      rw [length_take, hinbox, length_append, ← hcipher]
      omega
    have hload := stack.header.load_store_self 0 (s.inbox.take 16)
    rwa [hsixteen] at hload
  have hlength : ∀ r, (connReceive P stack conn s).1 = some r → r.pktLen = data.length + 9 := by
    intro r hr
    have hfirst : (aes128Ctr P w.encryptKey (xorSeq w.encryptIv w.encryptSeq)
        (s.inbox.take 16)).take 4 = text.take 4 := by
      have hsame : (s.inbox.take 16).take 4 = cipher.take 4 := by
        rw [take_take, hinbox, ← hcipher]
        exact take_append_of_le_length (by omega)
      have hkey : (text.take 4).length ≤
          ((P.encryptBlock w.encryptKey (xorSeq w.encryptIv w.encryptSeq)).take 4).length := by
        rw [length_take, length_take, P.length_encryptBlock]
        omega
      rw [take_aes128Ctr _ _ (by decide) (by rw [length_take, hinbox]; simp; omega), hsame,
        hcipher, take_aes128Ctr _ _ (by decide) (by omega), xorBytes_xorBytes hkey]
    rw [connReceive_some hr, hheader, hmatch.key, hmatch.iv, hmatch.seq,
      readU32Be_of_take (hfirst.trans hword), UInt32.toNat_ofNat', Nat.mod_eq_of_lt (by omega)]
  unfold connPacketReadEncrypted at hok ⊢
  rw [hmatch.readerOn, if_neg (by decide)] at hok ⊢
  split at hok
  · cases hok
  rename_i r rest s' hreceive
  split at hok
  · cases hok
  rename_i hvalid
  rw [if_neg hvalid]
  rw [hlength r (congrArg Prod.fst hreceive)]

/-! ### Round trips -/

variable {xs : List (Crypto Key × Sealing)}

theorem sealings_cons {m : Message} (h : sealings level w (m :: ms) = some xs) :
    ∃ x xs', level.sealing w m.data m.random = some x ∧ sealings level w.sentOne ms = some xs' ∧
      xs = (w, x) :: xs' := by
  rw [sealings] at h
  obtain ⟨x, hx, h⟩ := Option.bind_eq_some_iff.mp h
  obtain ⟨xs', hxs', h⟩ := Option.bind_eq_some_iff.mp h
  cases h
  exact ⟨x, xs', hx, hxs', rfl⟩

theorem Matching.sealing {r : Crypto Key} (h : Matching w r) (level : Level) (data : List UInt8)
    (random : ℕ → UInt8) :
    level.sealing w data random = match level with
      | .connection => connSealing w data random
      | .channel => sshSealing w data random := by
  cases level with
  | connection | channel =>
    simp only [Level.sealing, h.writerOn, Bool.not_true, Bool.false_eq_true, if_false]

/-- **A run on a channel** is read as it was sent exactly if no plain text has another MAC
than its encryption. -/
theorem payloads_channel_iff (stack : Stack) (hmatch : Matching w conn.crypto)
    (h : sealings .channel w ms = some xs)
    (hs : s.inbox = xs.flatMap (fun e => e.2.bytes P e.1) ++ more) :
    payloads P .channel stack ms.length conn s = ms.map (fun m => some m.data) ↔
      ∀ e ∈ xs, SameTag P e.1 e.2 := by
  induction ms generalizing w conn s xs with
  | nil =>
    cases h
    exact iff_of_true rfl fun e he => absurd he not_mem_nil
  | cons m ms ih =>
    obtain ⟨x, xs', hx, hxs', rfl⟩ := sealings_cons h
    rw [hmatch.sealing] at hx
    have hs' : s.inbox = x.bytes P w ++ (xs'.flatMap (fun e => e.2.bytes P e.1) ++ more) := by
      rw [hs, flatMap_cons, append_assoc]
    obtain ⟨haccept, hread⟩ := sshPacketReadEncrypted_bytes hmatch hx s hs'
    rw [forall_mem_cons, length_cons, map_cons, payloads]
    change (if (sshPacketReadEncrypted P conn s).1 then
        some (sshPacketReadEncrypted P conn s).2.1.pkt.payload else none) ::
      payloads P .channel stack ms.length (sshPacketReadEncrypted P conn s).2.1
        (sshPacketReadEncrypted P conn s).2.2 = _ ↔ _
    by_cases hsame : SameTag P w x
    · obtain ⟨hpayload, hcrypto, hsocket⟩ := hread hsame
      rw [if_pos (haccept.mpr hsame), hpayload, cons_inj_right]
      rw [ih (by rw [hcrypto]; exact hmatch.next) hxs' (by rw [hsocket])]
      exact ⟨fun hrest => ⟨hsame, hrest⟩, fun hall => hall.2⟩
    · rw [if_neg (mt haccept.mp hsame)]
      refine iff_of_false (fun heq => ?_) (fun hall => hsame hall.1)
      cases (cons_eq_cons.mp heq).1

theorem rejectsAltered_channel (hmatch : Matching w conn.crypto)
    (h : sealings .channel w ms = some xs) (hsame : ∀ e ∈ xs, SameTag P e.1 e.2) :
    RejectsAltered P .channel stack conn xs := by
  induction ms generalizing w conn xs with
  | nil =>
    cases h
    trivial
  | cons m ms ih =>
    obtain ⟨x, xs', hx, hxs', rfl⟩ := sealings_cons h
    rw [hmatch.sealing] at hx
    obtain ⟨hfirst, hrest⟩ := forall_mem_cons.mp hsame
    refine ⟨fun altered more halt hown hother => ?_, ih hmatch.next hxs' hrest⟩
    exact sshPacketReadEncrypted_altered hmatch hx hfirst halt hown hother

/-- The first packet of the connection is not handed out as it was sent. -/
theorem payloads_connection_ne {m : Message} (hmatch : Matching w conn.crypto)
    (hx : connSealing w m.data m.random = some x) (hs : s.inbox = x.bytes P w ++ more) (n : ℕ)
    (others : List (Option (List UInt8))) :
    payloads P .connection stack (n + 1) conn s ≠ some m.data :: others := by
  intro hread
  rw [payloads] at hread
  obtain ⟨hfirst, -⟩ := cons_eq_cons.mp hread
  change (if (connPacketReadEncrypted P stack conn s).1 then
    some (connPacketReadEncrypted P stack conn s).2.1.pkt.payload else none) = _ at hfirst
  split at hfirst
  · rename_i hok
    have hlen := connPacketReadEncrypted_bytes hmatch hx s hs hok
    have hdata := congrArg length (Option.some.inj hfirst)
    rw [Packet.payload, Buffer.length_load, hlen] at hdata
    omega
  · cases hfirst

/-- What the readers make of the packets of messages. -/
theorem round_trip_of_sealings (P : Primitives Key) (level : Level) (stack : Stack)
    (w : Crypto Key) (conn : Conn Key) (hmatch : Matching w conn.crypto) (ms : List Message)
    (xs : List (Crypto Key × Sealing)) (h : sealings level w ms = some xs) :
    (payloads P level stack ms.length conn ⟨xs.flatMap fun e => e.2.bytes P e.1, [], []⟩ =
        ms.map (fun m => some m.data) ∧ RejectsAltered P level stack conn xs) ↔
      ReadsBack P level ms xs := by
  cases level with
  | connection =>
    constructor
    · rintro ⟨hread, -⟩
      cases ms with
      | nil => rfl
      | cons m ms =>
        obtain ⟨x, xs', hx, -, rfl⟩ := sealings_cons h
        rw [hmatch.sealing] at hx
        have hinbox : (⟨((w, x) :: xs').flatMap fun e => e.2.bytes P e.1, [], []⟩ : Socket).inbox =
            x.bytes P w ++ xs'.flatMap fun e => e.2.bytes P e.1 := by rw [flatMap_cons]
        exact absurd hread (payloads_connection_ne hmatch hx hinbox _ _)
    · intro hnil
      subst hnil
      cases h
      exact ⟨rfl, trivial⟩
  | channel =>
    have hinbox : (⟨xs.flatMap fun e => e.2.bytes P e.1, [], []⟩ : Socket).inbox =
        xs.flatMap (fun e => e.2.bytes P e.1) ++ [] := (append_nil _).symm
    have hread := payloads_channel_iff stack hmatch h hinbox
    exact ⟨fun hall => hread.mp hall.1,
      fun hsame => ⟨hread.mpr hsame, rejectsAltered_channel hmatch h hsame⟩⟩

/-- **Encrypted packets.** For all keys, IVs and messages a writer sends, also in pieces on a
channel: the reader of the
channels hands out what was sent, and rejects packets with an altered byte under a MAC that
distinguishes, exactly if every plain text has the MAC of its encryption. The reader of the
connection never hands out what was sent, unless nothing was. -/
theorem encrypted_round_trip_iff (P : Primitives Key) (level : Level) (stack : Stack)
    (w : Crypto Key) (conn : Conn Key) (hmatch : Matching w conn.crypto) (ms : List Message)
    (s s' : Socket) (hroom : level = .connection → s.Roomy) (hsent : Sent P level w s ms s') :
    ∃ xs, sealings level w ms = some xs ∧
      s'.sent = s.sent ++ (xs.flatMap fun e => e.2.bytes P e.1) ∧
      ((payloads P level stack ms.length conn ⟨xs.flatMap fun e => e.2.bytes P e.1, [], []⟩ =
          ms.map (fun m => some m.data) ∧ RejectsAltered P level stack conn xs) ↔
        ReadsBack P level ms xs) := by
  obtain ⟨xs, hxs, hwire⟩ := hsent.sealings hmatch.writerOn hroom
  exact ⟨xs, hxs, hwire, round_trip_of_sealings P level stack w conn hmatch ms xs hxs⟩

/-- A connection with zeros in all places. -/
def zeroConn : Conn Unit := ⟨zeroKeys, ⟨fun _ => 0, 0⟩, fun _ => 0⟩

/-- A stream of zeros, and the sum of the bytes for a MAC. -/
def sumPrimitives : Primitives Unit :=
  { zeroPrimitives with
    hmac _ text := text.foldr (· + ·) 0 :: replicate 31 0
    length_hmac _ _ := rfl }

/-- Two messages on a channel that takes ten bytes at a time are read back. -/
theorem round_trip_two_messages :
    ∃ xs, sealings .channel zeroKeys [⟨[5, 6], fun _ => 1⟩, ⟨[7], fun _ => 2⟩] = some xs ∧
      payloads sumPrimitives .channel ⟨fun _ => 0, fun _ => 0⟩ 2 zeroConn
        ⟨xs.flatMap fun e => e.2.bytes sumPrimitives e.1, [], []⟩ = [some [5, 6], some [7]] ∧
      RejectsAltered sumPrimitives .channel ⟨fun _ => 0, fun _ => 0⟩ zeroConn xs := by
  obtain ⟨s', hsent⟩ : ∃ s', Sent sumPrimitives .channel zeroKeys
      ⟨[], [], replicate 16 (some 10)⟩ [⟨[5, 6], fun _ => 1⟩, ⟨[7], fun _ => 2⟩] s' :=
    ⟨_, _, _, rfl, _, _, rfl, rfl⟩
  have hsame : ∀ xs ∈ sealings .channel zeroKeys [⟨[5, 6], fun _ => 1⟩, ⟨[7], fun _ => 2⟩],
      ∀ e ∈ xs, SameTag sumPrimitives e.1 e.2 := by
    unfold SameTag
    decide +kernel
  obtain ⟨xs, hxs, -, hiff⟩ := encrypted_round_trip_iff sumPrimitives .channel
    ⟨fun _ => 0, fun _ => 0⟩ zeroKeys zeroConn ⟨rfl, rfl, rfl, rfl, rfl, rfl⟩ _ _ s' nofun hsent
  exact ⟨xs, hxs, hiff.mpr (hsame xs hxs)⟩

/-- The message `SSH_MSG_SERVICE_REQUEST` on a connection is not read back. -/
theorem connection_message_lost :
    ∃ xs, sealings .connection zeroKeys [⟨[5], fun _ => 0⟩] = some xs ∧
      payloads zeroPrimitives .connection ⟨fun _ => 0, fun _ => 0⟩ 1 zeroConn
        ⟨xs.flatMap fun e => e.2.bytes zeroPrimitives e.1, [], []⟩ ≠ [some [5]] := by
  refine ⟨_, rfl, ?_⟩
  have hmatch : Matching zeroKeys zeroConn.crypto := ⟨rfl, rfl, rfl, rfl, rfl, rfl⟩
  exact payloads_connection_ne (m := ⟨[5], fun _ => 0⟩) hmatch rfl (by rw [flatMap_cons]) 0 []

end Xaios.Ssh
