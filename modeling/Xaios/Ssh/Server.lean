import Xaios.Ssh.Auth
import Xaios.Ssh.Transport

/-!
# A connection of the SSH server

`process_connection` of `userspace/sshd/sshd.c`, one step of a connection: identification,
key exchange, authentication and channels, with everything it reads and sends. What a step
parses and checks is recorded beside the new state (`Ssh.Event`).

The cryptographic functions are arbitrary, and so is `ssh_channel_handle_packet`, which can
send and receive on the connection and so changes its sequence numbers, but no other field
of it. A copy that goes behind an array on the stack ends the run: there is no next state
then (`pk_ok`, for which the client chooses the length of the algorithm's name, and
`verify_buf`, which the request is copied to).
-/

namespace Xaios.Ssh

open Foundation

/-! ### The state -/

/-- `SSH_STATE_INIT` and so on. -/
inductive State
  | init
  | kex
  | kexSent
  | newkeys
  | auth
  | authenticated
  | channel
  | closed
deriving DecidableEq

/-- The functions of `ssh_crypto.c` and `ssh_host_key.c`. -/
structure Library (Key : Type) extends Primitives Key where
  sha256 : List UInt8 → List UInt8
  length_sha256 : ∀ data, (sha256 data).length = 32
  /-- `aes128_init`. -/
  aes128Init : List UInt8 → Key
  curve25519Base : List UInt8 → List UInt8
  curve25519ScalarMult : List UInt8 → List UInt8 → List UInt8
  /-- `ed25519_sign`, of a message with the two halves of the key. -/
  ed25519Sign : List UInt8 → List UInt8 → List UInt8 → List UInt8
  /-- `ed25519_verify`, of a signature, a message and a key: whether it answers 0. -/
  ed25519Verify : List UInt8 → List UInt8 → List UInt8 → Bool
  hostPublic : List UInt8
  hostPrivate : List UInt8

/-- `ssh_connection_t`. -/
structure Connection (Key : Type) extends Conn Key where
  state : State
  lastActivity : UInt64
  clientAddr : IpAddr
  authAttempts : UInt32
  /-- The first `version_len` bytes of `version_buf`. -/
  version : List UInt8
  clientKexinit : List UInt8
  serverKexinit : List UInt8
  sharedSecret : List UInt8
  exchangeHash : List UInt8
  kexStartTime : UInt64

/-- What all connections share. -/
structure Server (Channels : Type) where
  users : List User
  authorizedKeys : List (List UInt8)
  rateLimits : List RateLimitEntry
  channels : Channels

/-- What a step of a connection acts on. -/
structure World (Key Channels : Type) where
  conn : Connection Key
  socket : Socket
  server : Server Channels

/-- What a step meets. -/
structure Env where
  /-- `timer_now`. -/
  now : UInt64
  /-- The bytes of each call of `crypto_random_bytes`, in order. -/
  random : ℕ → ℕ → UInt8
  /-- What is on the stack. -/
  stack : Stack
  /-- The file `/etc/xaios_authorized_keys`. -/
  keyFile : Option (List UInt8)

/-- What `ssh_channel_handle_packet` does: whether it answers 0, the channels, the sequence
numbers of the connection and the socket. -/
structure Handled (Channels : Type) where
  ok : Bool
  channels : Channels
  encryptSeq : UInt64
  decryptSeq : UInt64
  socket : Socket

/-- What a step has parsed and checked. -/
inductive Event
  /-- An identification string. -/
  | version (line : List UInt8)
  /-- A packet of the key exchange. -/
  | packet (payload : List UInt8)
  /-- A packet in the phases of authentication and of channels, and whether it was read
  with encryption on. -/
  | message (encrypted : Bool) (payload : List UInt8)
  /-- What `authenticate_password` has answered. -/
  | password (ok : Bool)
  /-- What `ed25519_verify` has answered, and whether the key is an authorized one. -/
  | signature (authorized ok : Bool)
  /-- A call of `ssh_channel_handle_packet`. -/
  | channelPacket
deriving DecidableEq

/-- Whether a step has answered 0, the state it leaves, and what it has parsed and
checked. -/
structure Result (Key Channels : Type) where
  ok : Bool
  world : World Key Channels
  events : List Event

variable {Key Channels : Type} (L : Library Key)

/-- The state of a connection is set. -/
def World.setState (w : World Key Channels) (state : State) : World Key Channels :=
  { w with conn := { w.conn with state := state } }

/-- `conn_packet_write_encrypted`, whatever it answers. -/
def World.send (w : World Key Channels) (data : List UInt8) (random : ℕ → UInt8) :
    World Key Channels :=
  let r := connPacketWriteEncrypted L.toPrimitives w.conn.crypto w.socket data random
  { w with conn := { w.conn with crypto := r.2.1 }, socket := r.2.2 }

/-- `conn_packet_read_encrypted`. -/
def World.receive (w : World Key Channels) (stack : Stack) : Bool × World Key Channels :=
  let r := connPacketReadEncrypted L.toPrimitives stack w.conn.toConn w.socket
  (r.1, { w with conn := { w.conn with toConn := r.2.1 }, socket := r.2.2 })

/-- `ssh_packet_read`. -/
def World.receivePlain (w : World Key Channels) : Bool × World Key Channels :=
  let r := packetRead w.socket w.conn.pkt
  (r.1, { w with conn := { w.conn with pkt := r.2.1 }, socket := r.2.2 })

/-- `ssh_packet_write`. -/
def World.sendPlain (w : World Key Channels) (data : List UInt8) (random : ℕ → UInt8) :
    Bool × World Key Channels :=
  let r := packetWrite w.socket data random
  (r.1, { w with socket := r.2 })

/-! ### Identification and key exchange -/

/-- A string with its length. -/
def sshString (bytes : List UInt8) : List UInt8 :=
  writeU32Be (UInt32.ofNat bytes.length) ++ bytes

/-- `SSH_VERSION_SERVER`. -/
def versionServer : List UInt8 :=
  ascii ['S', 'S', 'H', '-', '2', '.', '0', '-', 'X', 'A', 'I', 'O', 'S', '_', '1', '.', '0']

/-- The name of the host key's algorithm. -/
def sshEd25519 : List UInt8 := ascii ['s', 's', 'h', '-', 'e', 'd', '2', '5', '5', '1', '9']

/-- `build_kexinit`. -/
def buildKexinit (random : ℕ → UInt8) : List UInt8 :=
  let kex := ascii ['c', 'u', 'r', 'v', 'e', '2', '5', '5', '1', '9', '-', 's', 'h', 'a', '2', '5',
    '6']
  let enc := ascii ['a', 'e', 's', '1', '2', '8', '-', 'c', 't', 'r']
  let mac := ascii ['h', 'm', 'a', 'c', '-', 's', 'h', 'a', '2', '-', '2', '5', '6']
  let comp := ascii ['n', 'o', 'n', 'e']
  [20] ++ (List.range 16).map random ++ sshString kex ++ sshString sshEd25519 ++ sshString enc ++
    sshString enc ++ sshString mac ++ sshString mac ++ sshString comp ++ sshString comp ++
    sshString [] ++ sshString [] ++ [0] ++ writeU32Be 0

/-- The loop that reads the client's identification string byte by byte. Without a line end
in what has arrived, or in 256 bytes, there is none, and the bytes are gone. -/
def versionLoop : ℕ → Socket → List UInt8 → Option (List UInt8) × Socket
  | 0, s, _ => (none, s)
  | fuel + 1, s, line =>
    match netRecv s 1 with
    | (some (b :: _), s) =>
      if b = 10 then (some (line ++ [b]), s) else versionLoop fuel s (line ++ [b])
    | (_, s) => (none, s)

/-- `SSH_STATE_INIT`: the server's identification string is sent. -/
def stepInit (env : Env) (w : World Key Channels) : Result Key Channels :=
  let r := sendAll w.socket (versionServer ++ [13, 10])
  let w := { w with socket := r.2 }
  if !r.1 then ⟨false, w, []⟩
  else ⟨true, { w with conn := { w.conn with state := .kex, kexStartTime := env.now } }, []⟩

/-- The server's `SSH_MSG_KEXINIT` is sent. -/
def sendKexinit (env : Env) (w : World Key Channels) (events : List Event) : Result Key Channels :=
  let kexinit := buildKexinit (env.random 0)
  let w := { w with conn := { w.conn with serverKexinit := kexinit } }
  let r := w.sendPlain kexinit (env.random 1)
  if !r.1 then ⟨false, r.2, events⟩ else ⟨true, r.2.setState .kexSent, events⟩

/-- `SSH_STATE_KEX`. -/
def stepKex (env : Env) (w : World Key Channels) : Result Key Channels :=
  if w.conn.version = [] then
    match versionLoop 256 w.socket [] with
    | (none, s) => ⟨true, { w with socket := s }, []⟩
    | (some line, s) =>
      sendKexinit env { w with conn := { w.conn with version := line }, socket := s }
        [.version line]
  else sendKexinit env w []

/-- `SSH_STATE_KEX_SENT`: the client's `SSH_MSG_KEXINIT`. -/
def stepKexSent (w : World Key Channels) : Result Key Channels :=
  let r := w.receivePlain
  if !r.1 then ⟨true, r.2, []⟩
  else
    let pkt := r.2.conn.pkt
    if pkt.len = 0 ∨ pkt.data 0 ≠ 20 then ⟨false, r.2, [.packet pkt.payload]⟩
    else
      let conn :=
        { r.2.conn with clientKexinit := pkt.data.load 0 (min pkt.len 512), state := .newkeys }
      ⟨true, { r.2 with conn := conn }, [.packet pkt.payload]⟩

/-- The client's identification string without the line end. -/
def trimVersion (version : List UInt8) : List UInt8 :=
  (version.reverse.dropWhile fun b => b == 13 || b == 10).reverse

/-- The bytes the exchange hash is computed of. -/
def exchangeBytes (conn : Connection Key) (clientPub serverPub secret : List UInt8) : List UInt8 :=
  trimVersion conn.version ++ versionServer ++ conn.clientKexinit ++ conn.serverKexinit ++
    (writeU32Be 47 ++ sshString sshEd25519 ++ L.hostPublic) ++ sshString clientPub ++
    sshString serverPub ++ sshString secret

/-- `SSH_MSG_KEXDH_REPLY`. -/
def kexdhReply (serverPub hash : List UInt8) : List UInt8 :=
  [31] ++ writeU32Be 51 ++ sshString sshEd25519 ++ sshString L.hostPublic ++ sshString serverPub ++
    writeU32Be 83 ++ sshString sshEd25519 ++
    sshString (L.ed25519Sign hash L.hostPublic L.hostPrivate)

/-- A key from the shared secret and the exchange hash. -/
def deriveKey (secret hash : List UInt8) (letter : Char) : List UInt8 :=
  L.sha256 (secret ++ hash ++ ascii [letter] ++ hash)

theorem length_deriveKey_iv (secret hash : List UInt8) (letter : Char) :
    ((deriveKey L secret hash letter).take 16).length = 16 := by
  rw [List.length_take, deriveKey, L.length_sha256]
  rfl

/-- `conn_init_encryption`. -/
def connInitEncryption (secret hash : List UInt8) : Crypto Key where
  enabled := true
  encryptKey := L.aes128Init (deriveKey L secret hash 'D')
  decryptKey := L.aes128Init (deriveKey L secret hash 'C')
  encryptIv := (deriveKey L secret hash 'B').take 16
  decryptIv := (deriveKey L secret hash 'A').take 16
  encryptMacKey := deriveKey L secret hash 'F'
  decryptMacKey := deriveKey L secret hash 'E'
  encryptSeq := 0
  decryptSeq := 0
  length_encryptIv := length_deriveKey_iv L secret hash 'B'
  length_decryptIv := length_deriveKey_iv L secret hash 'A'

/-- The client's `SSH_MSG_NEWKEYS`. If it is not there, the connection stays where it is and
waits for another `SSH_MSG_KEXDH_INIT`. -/
def receiveNewkeys (w : World Key Channels) (events : List Event) : Result Key Channels :=
  let r := w.receivePlain
  if !r.1 then ⟨true, r.2, events⟩
  else
    let pkt := r.2.conn.pkt
    let events := events ++ [.packet pkt.payload]
    if pkt.len = 0 ∨ pkt.data 0 ≠ 21 then ⟨false, r.2, events⟩
    else
      let crypto := connInitEncryption L r.2.conn.sharedSecret r.2.conn.exchangeHash
      let conn := { r.2.conn with crypto := crypto, state := .auth }
      ⟨true, { r.2 with conn := conn }, events⟩

/-- The keys are exchanged, with the client's public key. -/
def exchangeKeys (env : Env) (w : World Key Channels) (clientPub : List UInt8)
    (events : List Event) : Result Key Channels :=
  let serverPriv := (List.range 32).map (env.random 0)
  let serverPub := L.curve25519Base serverPriv
  let secret := L.curve25519ScalarMult serverPriv clientPub
  let hash := L.sha256 (exchangeBytes L w.conn clientPub serverPub secret)
  let w := { w with conn := { w.conn with sharedSecret := secret, exchangeHash := hash } }
  let reply := w.sendPlain (kexdhReply L serverPub hash) (env.random 1)
  if !reply.1 then ⟨false, reply.2, events⟩
  else
    let newkeys := reply.2.sendPlain [21] (env.random 2)
    if !newkeys.1 then ⟨false, newkeys.2, events⟩ else receiveNewkeys L newkeys.2 events

/-- `SSH_STATE_NEWKEYS`: the client's `SSH_MSG_KEXDH_INIT` and what follows. -/
def stepNewkeys (env : Env) (w : World Key Channels) : Result Key Channels :=
  let r := w.receivePlain
  if !r.1 then ⟨true, r.2, []⟩
  else
    let pkt := r.2.conn.pkt
    let events := [.packet pkt.payload]
    if pkt.len = 0 ∨ pkt.data 0 ≠ 30 then ⟨false, r.2, events⟩
    else if pkt.len < 5 then ⟨false, r.2, events⟩
    else if readU32Be (pkt.data.load 1 4) ≠ 32 ∨ pkt.len < 5 + 32 then ⟨false, r.2, events⟩
    else exchangeKeys L env r.2 (pkt.data.load 5 32) events

/-! ### Authentication -/

/-- `SSH_MSG_USERAUTH_FAILURE`. -/
def userauthFailure : List UInt8 :=
  [51] ++ sshString (ascii ['p', 'a', 's', 's', 'w', 'o', 'r', 'd', ',', 'p', 'u', 'b', 'l', 'i',
    'c', 'k', 'e', 'y']) ++ [0]

/-- `SSH_MSG_SERVICE_ACCEPT`. -/
def serviceAccept : List UInt8 :=
  [6] ++ sshString (ascii ['s', 's', 'h', '-', 'u', 's', 'e', 'r', 'a', 'u', 't', 'h'])

/-- `SSHD_MAX_AUTH_ATTEMPTS`. -/
def maxAuthAttempts : UInt32 := 5

/-- The failure of an attempt is recorded. -/
def World.recordFailure (w : World Key Channels) (now : UInt64) : World Key Channels :=
  { w with server :=
      { w.server with rateLimits := recordAuthFailure w.server.rateLimits now w.conn.clientAddr } }

/-- The client is refused. -/
def World.refuse (w : World Key Channels) (env : Env) : World Key Channels :=
  w.send L userauthFailure (env.random 0)

/-- The client is authenticated. -/
def World.accept (w : World Key Channels) (env : Env) : World Key Channels :=
  let w := w.send L [52] (env.random 0)
  { w with
    conn := { w.conn with authAttempts := 0, state := .authenticated }
    server :=
      { w.server with rateLimits := recordAuthSuccess w.server.rateLimits w.conn.clientAddr } }

/-- An attempt has failed. -/
def World.reject (w : World Key Channels) (env : Env) : World Key Channels :=
  let w := { w with conn := { w.conn with authAttempts := w.conn.authAttempts + 1 } }
  (w.recordFailure env.now).refuse L env

/-- The number at an offset of a packet. -/
def Packet.u32 (pkt : Packet) (offset : ℕ) : UInt32 := readU32Be (pkt.data.load offset 4)

/-- The method `password`, from its offset on. -/
def passwordMethod (env : Env) (w : World Key Channels) (username : List UInt8) (offset : UInt32)
    (events : List Event) : Result Key Channels :=
  let pkt := w.conn.pkt
  let len := UInt32.ofNat pkt.len
  if offset + 4 > len then ⟨true, w, events⟩
  else
    let passLen := pkt.u32 offset.toNat
    if passLen > 128 ∨ offset + 4 + passLen > len then ⟨true, w, events⟩
    else
      let password := cstring (pkt.data.load (offset + 4).toNat passLen.toNat)
      let ok := authenticatePassword L.sha256 w.server.users username password
      ⟨true, if ok then w.accept L env else w.reject L env, events ++ [.password ok]⟩

/-- The signature of the method `publickey`, from its offset on. -/
def checkSignature (env : Env) (w : World Key Channels) (pubkey : List UInt8) (offset : UInt32)
    (events : List Event) : Option (Result Key Channels) :=
  let pkt := w.conn.pkt
  let len := UInt32.ofNat pkt.len
  if offset + 4 > len then some ⟨true, w, events⟩
  else
    let sigLen := pkt.u32 offset.toNat
    let offset := offset + 4
    if offset + sigLen > len then some ⟨true, w, events⟩
    else
      -- the algorithm's name, and the signature itself
      let dataOff := 4 + pkt.u32 offset.toNat
      if dataOff + 4 > sigLen then some ⟨true, w, events⟩
      else
        let dataLen := pkt.u32 (offset.toNat + dataOff.toNat)
        if dataOff + 4 + dataLen > sigLen then some ⟨true, w, events⟩
        else if dataLen ≠ 64 then some ⟨true, w, events⟩
        -- `verify_buf` has 1024 bytes
        else if 32 + pkt.len > 1024 then none
        else
          let signature := pkt.data.load (offset.toNat + dataOff.toNat + 4) 64
          let ok := L.ed25519Verify signature (w.conn.exchangeHash ++ pkt.payload) pubkey
          let authorized := checkAuthorizedKey w.server.authorizedKeys pubkey
          some ⟨true, if ok then w.accept L env else w.reject L env,
            events ++ [.signature authorized ok]⟩

/-- `SSH_MSG_USERAUTH_PK_OK`, with the bytes the source copies for the algorithm's name. -/
def pkOk (algo pubkey : List UInt8) : List UInt8 := [60] ++ sshString algo ++ sshString pubkey

/-- The method `publickey`, from its offset on. -/
def publickeyMethod (env : Env) (w : World Key Channels) (offset : UInt32) (events : List Event) :
    Option (Result Key Channels) :=
  let pkt := w.conn.pkt
  let len := UInt32.ofNat pkt.len
  if offset + 1 > len then some ⟨true, w, events⟩
  else
    let hasSignature := pkt.data offset.toNat
    let offset := offset + 1
    if offset + 4 > len then some ⟨true, w, events⟩
    else
      let algoLen := pkt.u32 offset.toNat
      let offset := offset + 4
      if offset + algoLen > len then some ⟨true, w, events⟩
      else
        let offset := offset + algoLen
        if offset + 4 > len then some ⟨true, w, events⟩
        else
          let pubkeyLen := pkt.u32 offset.toNat
          let offset := offset + 4
          if pubkeyLen ≠ 32 ∨ offset + 32 > len then some ⟨true, w, events⟩
          else
            let pubkey := pkt.data.load offset.toNat 32
            let offset := offset + 32
            let keys := loadAuthorizedKeys w.server.authorizedKeys env.keyFile
            let w := { w with server := { w.server with authorizedKeys := keys } }
            if !checkAuthorizedKey keys pubkey then some ⟨true, w.refuse L env, events⟩
            else if hasSignature = 0 then
              -- `pk_ok` has 64 bytes
              if 1 + 4 + algoLen.toNat + 4 + 32 > 64 then none
              else
                let algo := pkt.data.load (offset - 32 - 4).toNat algoLen.toNat
                some ⟨true, w.send L (pkOk algo pubkey) (env.random 0), events⟩
            else checkSignature L env w pubkey offset events

/-- `SSH_MSG_USERAUTH_REQUEST`. -/
def userauthRequest (env : Env) (w : World Key Channels) (events : List Event) :
    Option (Result Key Channels) :=
  let pkt := w.conn.pkt
  let len := UInt32.ofNat pkt.len
  if len < 10 then some ⟨true, w, events⟩
  else
    let userLen := pkt.u32 1
    if userLen > 64 ∨ 10 + userLen > len then some ⟨true, w, events⟩
    else
      let username := cstring (pkt.data.load 5 userLen.toNat)
      let methodLen := pkt.u32 (5 + userLen).toNat
      if methodLen > 64 then some ⟨true, w, events⟩
      else
        let method := cstring (pkt.data.load (9 + userLen).toNat methodLen.toNat)
        let limit := checkRateLimit w.server.rateLimits env.now w.conn.clientAddr
        let w := { w with server := { w.server with rateLimits := limit.2 } }
        if !limit.1 then some ⟨true, w.refuse L env, events⟩
        else if w.conn.authAttempts ≥ maxAuthAttempts then
          some ⟨true, (w.recordFailure env.now).refuse L env, events⟩
        else if method = ascii ['p', 'a', 's', 's', 'w', 'o', 'r', 'd'] then
          some (passwordMethod L env w username (9 + userLen + methodLen) events)
        else if method = ascii ['p', 'u', 'b', 'l', 'i', 'c', 'k', 'e', 'y'] then
          publickeyMethod L env w (9 + userLen + methodLen) events
        else some ⟨true, w.refuse L env, events⟩

/-- `SSH_STATE_AUTH`. -/
def stepAuth (env : Env) (w : World Key Channels) : Option (Result Key Channels) :=
  let encrypted := w.conn.crypto.enabled
  let r := w.receive L env.stack
  if !r.1 then some ⟨true, r.2, []⟩
  else
    let pkt := r.2.conn.pkt
    if pkt.len = 0 then some ⟨true, r.2, []⟩
    else
      let events := [.message encrypted pkt.payload]
      let msg := pkt.data 0
      if msg = 5 then some ⟨true, r.2.send L serviceAccept (env.random 0), events⟩
      else if msg = 50 then userauthRequest L env r.2 events
      else some ⟨true, r.2, events⟩

/-! ### Channels -/

/-- The message that keeps a connection alive. -/
def keepalive : List UInt8 :=
  [80] ++ sshString (ascii ['k', 'e', 'e', 'p', 'a', 'l', 'i', 'v', 'e', '@', 'x', 'a', 'i', 'o',
    's', '.', 'o', 's']) ++ [1]

/-- `SSHD_KEEPALIVE_INTERVAL`. -/
def keepaliveInterval : UInt64 := 30

/-- `SSHD_TIMEOUT_IDLE`. -/
def timeoutIdle : UInt64 := 300

variable (handle : Channels → Packet → Crypto Key → Socket → Handled Channels)

/-- `ssh_channel_handle_packet` is called. -/
def handlePacket (w : World Key Channels) (events : List Event) : Result Key Channels :=
  let h := handle w.server.channels w.conn.pkt w.conn.crypto w.socket
  let crypto := { w.conn.crypto with encryptSeq := h.encryptSeq, decryptSeq := h.decryptSeq }
  ⟨h.ok,
    { conn := { w.conn with crypto := crypto }
      socket := h.socket
      server := { w.server with channels := h.channels } }, events ++ [.channelPacket]⟩

/-- A packet is read in `SSH_STATE_CHANNEL`. -/
def receiveMessage (env : Env) (w : World Key Channels) : Result Key Channels :=
  let encrypted := w.conn.crypto.enabled
  let r := w.receive L env.stack
  if !r.1 then ⟨true, r.2, []⟩
  else
    let pkt := r.2.conn.pkt
    if pkt.len = 0 then ⟨true, r.2, []⟩
    else
      let w := { r.2 with conn := { r.2.conn with lastActivity := env.now } }
      let events := [.message encrypted pkt.payload]
      let msg := pkt.data 0
      if msg = 80 then ⟨true, w, events⟩
      else if 90 ≤ msg ∧ msg ≤ 100 then handlePacket handle w events
      else if msg = 1 then ⟨false, w, events⟩
      else ⟨true, w, events⟩

/-- Whether the keys are exchanged again. -/
def rekeyDue (env : Env) (conn : Connection Key) : Bool :=
  conn.crypto.encryptSeq ≥ 1048576 || env.now - conn.kexStartTime ≥ 3600

/-- `SSH_STATE_AUTHENTICATED` and `SSH_STATE_CHANNEL`. -/
def stepChannel (env : Env) (w : World Key Channels) : Result Key Channels :=
  let w := w.setState .channel
  if rekeyDue env w.conn then
    let crypto := { w.conn.crypto with enabled := false }
    ⟨true, { w with conn :=
      { w.conn with crypto := crypto, state := .kex, kexStartTime := env.now } }, []⟩
  else if env.now - w.conn.lastActivity > keepaliveInterval then
    let w := w.send L keepalive (env.random 0)
    if env.now - w.conn.lastActivity > timeoutIdle then ⟨false, w, []⟩
    else receiveMessage L handle env w
  else receiveMessage L handle env w

/-- `process_connection`. -/
def processConnection (env : Env) (w : World Key Channels) : Option (Result Key Channels) :=
  match w.conn.state with
  | .init => some (stepInit env w)
  | .kex => some (stepKex env w)
  | .kexSent => some (stepKexSent w)
  | .newkeys => some (stepNewkeys L env w)
  | .auth => stepAuth L env w
  | .authenticated | .channel => some (stepChannel L handle env w)
  | .closed => some ⟨true, w, []⟩

end Xaios.Ssh
