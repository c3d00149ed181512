import Xaios.Ssh.Gate

/-!
# What the exchange hash covers

The exchange hash of RFC 4253 is computed of the identification strings, the `SSH_MSG_KEXINIT`
payloads and the host key, each with its length, and of the public keys and the secret. The
server puts no length before the first four, so its bytes are never those of the standard
(`Ssh.exchangeBytes_ne_encode`), and sessions with different strings get the same hash
(`Ssh.sessions_share_hash`).
-/

namespace Xaios.Ssh

open Foundation List

variable {Key : Type}

/-- A multiple precision integer, from its bytes with the highest first. -/
def mpint (bytes : List UInt8) : List UInt8 :=
  let digits := bytes.dropWhile (· == 0)
  sshString (if digits.headD 0 ≥ 128 then 0 :: digits else digits)

/-- What a key exchange is about. -/
structure Transcript where
  clientVersion : List UInt8
  serverVersion : List UInt8
  clientKexinit : List UInt8
  serverKexinit : List UInt8
  hostKey : List UInt8
  clientPub : List UInt8
  serverPub : List UInt8
  secret : List UInt8

/-- The bytes RFC 4253 hashes. -/
def Transcript.encode (t : Transcript) : List UInt8 :=
  [t.clientVersion, t.serverVersion, t.clientKexinit, t.serverKexinit, t.hostKey, t.clientPub,
    t.serverPub].flatMap sshString ++ mpint t.secret

theorem length_versionLoop {size : ℕ} {s s' : Socket} {line line' : List UInt8}
    (h : versionLoop size s line = (some line', s')) : line'.length ≤ line.length + size := by
  induction size generalizing s line with
  | zero => cases h
  | succ size ih =>
    rw [versionLoop] at h
    split at h
    · split at h
      · cases h
        rw [length_append, length_singleton]
        omega
      · have hle := ih h
        rw [length_append, length_singleton] at hle
        omega
    · cases h

/-- A word with a few letters before it and with as many behind it is the same word only if the
letters are the same. -/
theorem perm_of_shifted {α : Type} {u v z w : List α} (hlength : u.length = z.length)
    (hu : u ++ v <+: w) (hz : v ++ z <+: w) : u.Perm z := by
  have hshift : u ++ v = v ++ z := by
    refine (prefix_of_prefix_length_le hu hz ?_).eq_of_length ?_ <;>
      simp only [length_append] <;> omega
  exact (perm_append_left_iff v).mp (perm_append_comm.trans (.of_eq hshift))

/-- **The exchange hash is never the one of the standard.** Whatever line the server has
accepted, wherever its identification string ends, and whatever else was exchanged: the bytes
that are hashed do not start with the length of the string. -/
theorem exchangeBytes_ne_encode (L : Library Key) {s s' : Socket} {conn : Connection Key}
    (hline : versionLoop 256 s [] = (some conn.version, s')) (t : Transcript)
    (htrim : trimVersion conn.version <+: t.clientVersion)
    (hversion : t.clientVersion <+: conn.version) :
    exchangeBytes L conn t.clientPub t.serverPub t.secret ≠ t.encode := by
  intro h
  have hlength : t.clientVersion.length < 257 :=
    Nat.lt_succ_of_le (hversion.length_le.trans ((length_versionLoop hline).trans (by decide)))
  obtain ⟨ending, hending⟩ := htrim
  -- the letters of the server's string would be the bytes of the length
  have hperm : (writeU32Be (UInt32.ofNat t.clientVersion.length)).Perm (versionServer.take 4) := by
    refine perm_of_shifted rfl (v := trimVersion conn.version) ?_ ?_ (w := t.encode)
    · rw [Transcript.encode, flatMap_cons, sshString, ← hending]
      simp only [append_assoc, prefix_append_right_inj]
      exact prefix_append _ _
    · rw [← h]
      simp only [exchangeBytes, append_assoc, prefix_append_right_inj]
      exact IsPrefix.trans ( take_prefix 4 _) (prefix_append _ _)
  have hzero : ∀ n < 257, (0 : UInt8) ∈ writeU32Be (UInt32.ofNat n) := by decide +kernel
  exact absurd (hperm.subset (hzero _ hlength)) (by decide)

/-- The hash input of a new connection after the client's line and a packet that is read as a
payload, with keys of zeros. -/
def hashed (line payload : List UInt8) : State × List UInt8 :=
  let packet := writeU32Be (UInt32.ofNat (payload.length + 5)) ++ [4, 0, 0, 0, 0] ++ payload
  let start : World Unit Unit := ⟨{ newConnection () ⟨4, []⟩ 0 with state := .kex },
    ⟨line ++ packet, [], [some 300, some 300, some 300]⟩, zeroServer⟩
  let conn := (stepKexSent (stepKex zeroEnv start).world).world.conn
  (conn.state, exchangeBytes zeroLibrary conn (replicate 32 0) (replicate 32 0) (replicate 32 0))

/-- **Two sessions with the same hash**: an empty identification string and a payload with the
server's string in it, and an identification string with the server's in it and a short
payload. -/
theorem sessions_share_hash :
    hashed [10] ([20] ++ versionServer ++ [20]) = hashed (versionServer ++ [20, 10]) [20] ∧
      (hashed [10] ([20] ++ versionServer ++ [20])).1 = .newkeys := by
  decide +kernel

/-- A key exchange with a client that calls itself as the server does. -/
def plainExchange : Transcript where
  clientVersion := versionServer
  serverVersion := versionServer
  clientKexinit := [20]
  serverKexinit := [20]
  hostKey := sshString sshEd25519 ++ sshString zeroLibrary.hostPublic
  clientPub := replicate 32 1
  serverPub := replicate 32 2
  secret := replicate 32 3

/-- The line that `plainExchange` starts with was read, and the payloads are its own. -/
theorem exchangeBytes_ne_encode_plain :
    let conn := { newConnection () ⟨4, []⟩ 0 with
      version := versionServer ++ [13, 10], clientKexinit := [20], serverKexinit := [20] }
    versionLoop 256 ⟨versionServer ++ [13, 10], [], []⟩ [] =
        (some conn.version, ⟨[], [], []⟩) ∧
      exchangeBytes zeroLibrary conn (replicate 32 1) (replicate 32 2) (replicate 32 3) ≠
        plainExchange.encode := by
  intro conn
  have hline : versionLoop 256 ⟨versionServer ++ [13, 10], [], []⟩ [] =
      (some conn.version, ⟨[], [], []⟩) := rfl
  exact ⟨hline, exchangeBytes_ne_encode zeroLibrary hline plainExchange (by decide)
    (prefix_append _ _)⟩

end Xaios.Ssh
