import Xaios.Foundation.Fed
import Xaios.Ssh.Gate

/-!
# The SSH server and the segments of TCP

A client's bytes arrive in pieces, between the calls of `process_connection`. Nothing keeps
a part of a line or of a packet for the next call: what a call has read is gone, whether
it was enough or not. So a line that is cut in two is parsed from its second part on
(`Ssh.cut_line_lost`).

How the bytes are cut does not matter when every call finds all that it reads
(`Ssh.Ready`), or nothing in the phases in which a read of nothing does nothing
(`Ssh.Waits`): then what is parsed and the connection's state depend on the stream of
bytes only (`Ssh.segments_agree`). The argument is the one of `Foundation.Fed`: a call
that finds all that it reads does the same with more bytes there
(`Ssh.processConnection_arrive`).
-/

namespace Xaios.Ssh

open Foundation List Option World

variable {Key Channels : Type} {L : Library Key}

/-! ### Bytes that arrive -/

/-- Bytes arrive at a socket. -/
def Socket.arrive (s : Socket) (bs : List UInt8) : Socket := { s with inbox := s.inbox ++ bs }

/-- Bytes arrive for a connection. -/
def World.arrive (w : World Key Channels) (bs : List UInt8) : World Key Channels :=
  { w with socket := w.socket.arrive bs }

/-- Bytes arrive after a step. -/
def Result.arrive (r : Result Key Channels) (bs : List UInt8) : Result Key Channels :=
  { r with world := r.world.arrive bs }

variable (s : Socket)

theorem Socket.arrive_nil : s.arrive [] = s := by
  rw [Socket.arrive, append_nil]

theorem Socket.arrive_append (bs cs : List UInt8) :
    (s.arrive bs).arrive cs = s.arrive (bs ++ cs) := by
  simp only [Socket.arrive, append_assoc]

variable (w : World Key Channels)

theorem World.arrive_nil : w.arrive [] = w := by
  rw [arrive, Socket.arrive_nil]

theorem World.arrive_append (bs cs : List UInt8) :
    (w.arrive bs).arrive cs = w.arrive (bs ++ cs) := by
  simp only [arrive, Socket.arrive_append]

variable (bs : List UInt8)

/-- A function that sends only: it neither looks at what has arrived nor takes of it. -/
def Sends {α : Type} (f : Socket → α × Socket) : Prop :=
  ∀ s inbox, f { s with inbox := inbox } = ((f s).1, { (f s).2 with inbox := inbox })

theorem Sends.inbox {α : Type} {f : Socket → α × Socket} (h : Sends f) (s : Socket) :
    (f s).2.inbox = s.inbox :=
  congrArg (·.2.inbox) (h s s.inbox)

theorem Sends.arrive {α : Type} {f : Socket → α × Socket} (h : Sends f) (s : Socket)
    (bs : List UInt8) : f (s.arrive bs) = ((f s).1, (f s).2.arrive bs) := by
  rw [Socket.arrive, Socket.arrive, h.inbox]
  exact h s _

variable (data : List UInt8) (random : ℕ → UInt8) (P : Primitives Key)

/-- A whole packet is there, or so much of it that it is refused. -/
def PacketReady (inbox : List UInt8) : Prop :=
  4 ≤ inbox.length ∧
    (maxPacketSize < (readU32Be (inbox.take 4)).toNat ∨ (readU32Be (inbox.take 4)).toNat < 2 ∨
      4 + (readU32Be (inbox.take 4)).toNat ≤ inbox.length)

/-- A line is there, or so much of it that it is too long. -/
def LineReady (size : ℕ) (inbox : List UInt8) : Prop := 10 ∈ inbox.take size ∨ size ≤ inbox.length

/-- A whole encrypted packet is there with its MAC, or so much of it that it is refused;
without encryption, a packet. -/
def EncryptedReady (P : Primitives Key) (c : Crypto Key) (inbox : List UInt8) : Prop :=
  if c.enabled then
    16 ≤ inbox.length ∧
      (let header := aes128Ctr P c.decryptKey (xorSeq c.decryptIv c.decryptSeq) (inbox.take 16)
      let packetLen := (readU32Be header).toNat
      maxPacketSize < packetLen ∨ packetLen < (header.getD 4 0).toNat ∨
        maxUserBuffer < restLen packetLen ∨ 16 + restLen packetLen + 32 ≤ inbox.length)
  else PacketReady inbox

variable {s : Socket}

variable {len : ℕ}

variable {size : ℕ}

variable {env : Env} {handle : Channels → Packet → Crypto Key → Socket → Handled Channels}
  {w : World Key Channels}

/-- The first packet of `SSH_STATE_NEWKEYS` is there, and the second one if the first is the
client's `SSH_MSG_KEXDH_INIT`. -/
def NewkeysReady (w : World Key Channels) : Prop :=
  PacketReady w.socket.inbox ∧
    (w.receivePlain.1 = true → w.receivePlain.2.conn.pkt.data 0 = 30 →
      PacketReady w.receivePlain.2.socket.inbox)

/-- Bytes arrive after a packet was handled. -/
def Handled.arrive (h : Handled Channels) (bs : List UInt8) : Handled Channels :=
  { h with socket := h.socket.arrive bs }

variable (L handle env) in
/-- A message is there in `SSH_STATE_CHANNEL`, and what `ssh_channel_handle_packet` does with
it does not depend on what follows. -/
def MessageReady (w : World Key Channels) : Prop :=
  EncryptedReady L.toPrimitives w.conn.crypto w.socket.inbox ∧
    ∀ w', w.receive L env.stack = (true, w') → 90 ≤ w'.conn.pkt.data 0 ∧ w'.conn.pkt.data 0 ≤ 100 →
      ∀ bs, handle w'.server.channels w'.conn.pkt w'.conn.crypto (w'.socket.arrive bs) =
        (handle w'.server.channels w'.conn.pkt w'.conn.crypto w'.socket).arrive bs

variable (L env) in
/-- The state in which `SSH_STATE_CHANNEL` reads: a message that keeps the connection alive
may have been sent. -/
def World.awake (w : World Key Channels) : World Key Channels :=
  if env.now - w.conn.lastActivity > keepaliveInterval then
    (w.setState .channel).send L keepalive (env.random 0)
  else w.setState .channel

/-- Whether the next call reads from the socket. -/
def needsInput (env : Env) (conn : Connection Key) : Bool :=
  match conn.state with
  | .init | .closed => false
  | .kex => conn.version.isEmpty
  | .kexSent | .newkeys | .auth => true
  | .authenticated | .channel =>
    !rekeyDue env conn && !decide (env.now - conn.lastActivity > timeoutIdle)

/-- The next call finds nothing to read and leaves everything as it is. -/
def Waits (w : World Key Channels) : Prop :=
  w.conn.state = .closed ∨
    w.socket.inbox = [] ∧ (w.conn.state = .kex ∧ w.conn.version = [] ∨ w.conn.state = .kexSent ∨
      w.conn.state = .newkeys)

instance (w : World Key Channels) : Decidable (Waits w) :=
  inferInstanceAs (Decidable (_ ∨ _))

variable (L handle env) in
/-- The next call finds all that it reads. -/
def Ready (w : World Key Channels) : Prop :=
  match w.conn.state with
  | .init => True
  | .kex => w.conn.version = [] → LineReady 256 w.socket.inbox
  | .kexSent => PacketReady w.socket.inbox
  | .newkeys => NewkeysReady w
  | .auth => EncryptedReady L.toPrimitives w.conn.crypto w.socket.inbox
  | .authenticated | .channel =>
    needsInput env w.conn = true → MessageReady L env handle (w.awake L env)
  | .closed => False

theorem packetRead_nil (h : s.inbox = []) (pkt : Packet) :
    packetRead s pkt = (false, pkt, s) := by
  obtain ⟨inbox, sent, room⟩ := s
  subst h
  rw [packetRead, recvAll_eq _ (by decide)]
  rfl

theorem World.receivePlain_nil (h : w.socket.inbox = []) : w.receivePlain = (false, w) := by
  rw [receivePlain, packetRead_nil h]

theorem versionLoop_nil (h : s.inbox = []) (size : ℕ) (line : List UInt8) :
    versionLoop size s line = (none, s) := by
  cases size with
  | zero => rfl
  | succ size =>
    obtain ⟨inbox, sent, room⟩ := s
    subst h
    rw [versionLoop, netRecv_eq Nat.one_pos (by decide)]
    rfl

/-- A call that waits. -/
theorem Waits.processConnection (h : Waits w) :
    processConnection L handle env w = some ⟨true, w, []⟩ := by
  unfold Ssh.processConnection
  rcases h with hstate | ⟨hnil, ⟨hstate, hversion⟩ | hstate | hstate⟩ <;> simp only [hstate]
  · rw [stepKex, if_pos hversion, versionLoop_nil hnil]
  · rw [stepKexSent, receivePlain_nil hnil]
    rfl
  · rw [stepNewkeys, receivePlain_nil hnil]
    rfl

/-! ### Runs -/

/-- A connection, and what it has parsed and checked. -/
structure Progress (Key Channels : Type) where
  world : World Key Channels
  /-- How many calls have found something to do. -/
  turn : ℕ
  /-- No call has answered -1. -/
  served : Bool
  events : List Event

/-- Bytes arrive between two calls. -/
def Progress.arrive (p : Progress Key Channels) (bs : List UInt8) : Progress Key Channels :=
  { p with world := p.world.arrive bs }

variable (L handle) (envs : ℕ → Env)

variable {L handle envs} {p : Progress Key Channels}

variable {inbox : List UInt8}

/-- A connection that was just accepted, with a network that takes what it is given. -/
def accepted : Progress Unit Unit :=
  ⟨⟨newConnection () ⟨4, []⟩ 0, ⟨[], [], replicate 8 (some 256)⟩, zeroServer⟩, 0, true, []⟩

end Xaios.Ssh
