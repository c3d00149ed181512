import Xaios.Ssh.Server

/-!
# The gate of authentication

A connection of the SSH server goes through its states from identification over key
exchange and authentication to channels, and back to the key exchange when new keys are
due. Whatever the client sends: packets get to the channels only after a password or a
signature with an authorized key was accepted on the same connection, and no message of
authentication or of a channel is read without encryption
(`Ssh.authentication_gate`).

This is so as long as no request overruns an array on the stack: a request with a key that
has no signature writes behind `pk_ok` if the name of its algorithm has more than 23 bytes,
and one with a signature behind `verify_buf` if it has more than 992 bytes. Nothing is known
of the server after that (`Ssh.publickey_overruns`).

The argument is one invariant of a connection and what it has parsed and checked so far
(`Ssh.Gate`). Encryption is switched on in the step that enters the phase of
authentication and off in the step that leaves the phase of channels; in between, no step
changes it (`Ssh.Attempt.enabled`).
-/

namespace Xaios.Ssh

open Foundation List World

variable {Key Channels : Type} {L : Library Key}
  {handle : Channels → Packet → Crypto Key → Socket → Handled Channels}

/-! ### Runs -/

/-- The client has shown who it is. -/
def Event.Authenticates : Event → Prop
  | .password ok => ok = true
  | .signature authorized ok => authorized = true ∧ ok = true
  | _ => False

/-- A connection as `ssh_conn_alloc` and the loop of `sshd_run` leave it. -/
def newConnection (zeroKey : Key) (addr : IpAddr) (now : UInt64) : Connection Key where
  crypto :=
    { enabled := false
      encryptKey := zeroKey
      decryptKey := zeroKey
      encryptIv := replicate 16 0
      decryptIv := replicate 16 0
      encryptMacKey := replicate 32 0
      decryptMacKey := replicate 32 0
      encryptSeq := 0
      decryptSeq := 0
      length_encryptIv := length_replicate
      length_decryptIv := length_replicate }
  pkt := ⟨fun _ => 0, 0⟩
  decryptRest := fun _ => 0
  state := .init
  lastActivity := now
  clientAddr := addr
  authAttempts := 0
  version := []
  clientKexinit := []
  serverKexinit := []
  sharedSecret := replicate 32 0
  exchangeHash := replicate 32 0
  kexStartTime := 0

variable (L handle) in
/-- The runs of a connection, with all that was parsed and checked in order. Between two
steps anything may arrive, and anything may happen to what other connections share. -/
inductive Run (zeroKey : Key) : Connection Key → List Event → Prop
  | accept (addr : IpAddr) (now : UInt64) : Run zeroKey (newConnection zeroKey addr now) []
  | step {conn : Connection Key} {events : List Event} (h : Run zeroKey conn events) (env : Env)
      (socket : Socket) (server : Server Channels) {r : Result Key Channels}
      (hstep : processConnection L handle env ⟨conn, socket, server⟩ = some r) :
      Run zeroKey r.world.conn (events ++ r.events)

/-! ### The readers and writers -/

variable (w : World Key Channels)

@[simp] theorem World.send_enabled (data : List UInt8)
    (random : ℕ → UInt8) :
    (w.send L data random).conn.crypto.enabled = w.conn.crypto.enabled := by
  obtain ⟨ok, c', s', hwrite⟩ : ∃ ok c' s',
      connPacketWriteEncrypted L.toPrimitives w.conn.crypto w.socket data random = (ok, c', s') :=
    ⟨_, _, _, rfl⟩
  have hcrypto : (w.send L data random).conn.crypto = c' := by
    rw [send, hwrite]
  have hcases :=
    Level.write_cases (show Level.connection.write _ _ _ _ _ = _ from congrArg some hwrite)
  rw [hcrypto]
  rcases hcases with ⟨rfl, -⟩ | rfl <;> rfl

@[simp] theorem World.reject_enabled (env : Env) :
    (w.reject L env).conn.crypto.enabled = w.conn.crypto.enabled := send_enabled _ _ _

@[simp] theorem World.accept_enabled (env : Env) :
    (w.accept L env).conn.crypto.enabled = w.conn.crypto.enabled := send_enabled _ _ _

/-! ### Attempts -/

/-- **What a request for authentication can do.** Encryption stays as it is, and the
connection stays in its state or is authenticated by a check that is recorded. -/
structure Attempt (w : World Key Channels) (events : List Event) (r : Result Key Channels) :
    Prop where
  enabled : r.world.conn.crypto.enabled = w.conn.crypto.enabled
  outcome : (r.events = events ∧ r.world.conn.state = w.conn.state) ∨
    ∃ e, r.events = events ++ [e] ∧ ((∃ ok, e = .password ok) ∨ ∃ a ok, e = .signature a ok) ∧
      (r.world.conn.state = w.conn.state ∨
        r.world.conn.state = .authenticated ∧ e.Authenticates)

variable {w : World Key Channels} {events : List Event} {env : Env} {w' : World Key Channels}

/-- A step with a check, whose answer decides. -/
theorem Attempt.checked {e : Event} {ok : Bool}
    (he : (∃ ok, e = .password ok) ∨ ∃ a ok, e = .signature a ok)
    (hok : ok = true → e.Authenticates) :
    Attempt w events ⟨true, if ok then w.accept L env else w.reject L env, events ++ [e]⟩ := by
  cases ok with
  | true => exact ⟨accept_enabled w env, .inr ⟨e, rfl, he, .inr ⟨rfl, hok rfl⟩⟩⟩
  | false => exact ⟨reject_enabled w env, .inr ⟨e, rfl, he, .inl rfl⟩⟩

variable {r : Result Key Channels}

/-- What the attempt does not see may be different. -/
theorem Attempt.of_eq
    (h : Attempt w' events r) (henabled : w'.conn.crypto.enabled = w.conn.crypto.enabled)
    (hstate : w'.conn.state = w.conn.state) : Attempt w events r where
  enabled := h.enabled.trans henabled
  outcome := by rw [← hstate]; exact h.outcome

/-- The phases after the key exchange. -/
def State.Secure (s : State) : Prop := s = .auth ∨ s = .authenticated ∨ s = .channel

/-- The phases after authentication. -/
def State.Open (s : State) : Prop := s = .authenticated ∨ s = .channel

instance : DecidablePred State.Secure := fun s =>
  inferInstanceAs (Decidable (s = .auth ∨ s = .authenticated ∨ s = .channel))

instance : DecidablePred State.Open := fun s =>
  inferInstanceAs (Decidable (s = .authenticated ∨ s = .channel))

/-- **What a step can do** to the phase of a connection. -/
structure StepSpec (w : World Key Channels) (r : Result Key Channels) : Prop where
  enabled : r.world.conn.state.Secure → r.world.conn.crypto.enabled = true
  authenticated : r.world.conn.state.Open →
    w.conn.state.Open ∨ ∃ e ∈ r.events, e.Authenticates
  channel : .channelPacket ∈ r.events → w.conn.state.Open
  message : ∀ encrypted payload, .message encrypted payload ∈ r.events → encrypted = true

/-- What is only read: a line, a packet of the key exchange, an encrypted message. -/
def Event.Parsed : Event → Prop
  | .version _ => True
  | .packet _ => True
  | .message encrypted _ => encrypted = true
  | _ => False

/-- A step that only reads, and does not get past authentication. -/
theorem StepSpec.reads (hread : ∀ e ∈ r.events, e.Parsed) (hstate : ¬r.world.conn.state.Open)
    (hon : r.world.conn.state.Secure → r.world.conn.crypto.enabled = true) : StepSpec w r where
  enabled := hon
  authenticated h := absurd h hstate
  channel h := (hread _ h).elim
  message _ _ h := hread _ h

/-- A step of the key exchange. -/
theorem StepSpec.plain {s : State} (hstate : r.world.conn.state = s) (hs : ¬s.Secure)
    (hread : ∀ e ∈ r.events, e.Parsed) : StepSpec w r := by
  rw [← hstate] at hs
  exact .reads hread (fun h => hs (.inr h)) fun h => absurd h hs

/-- Every call of `ssh_channel_handle_packet` comes after a check that was passed. -/
def Gated (events : List Event) : Prop :=
  ∀ before after, events = before ++ .channelPacket :: after → ∃ e ∈ before, e.Authenticates

theorem Gated.append {new : List Event} (h : Gated events)
    (hnew : .channelPacket ∈ new → ∃ e ∈ events, e.Authenticates) : Gated (events ++ new) := by
  intro before after heq
  rcases append_eq_append_iff.mp heq with ⟨between, rfl, hcall⟩ | ⟨between, rfl, hcall⟩
  · obtain ⟨e, he, hauth⟩ := hnew (by rw [hcall]; simp)
    exact ⟨e, mem_append_left _ he, hauth⟩
  · cases between with
    | nil =>
      rw [nil_append] at hcall
      obtain ⟨e, he, hauth⟩ := hnew (by rw [← hcall]; exact mem_cons_self)
      exact ⟨e, by rwa [append_nil] at he, hauth⟩
    | cons e between =>
      rw [cons_append] at hcall
      obtain ⟨rfl, -⟩ := cons_eq_cons.mp hcall
      exact h before between rfl

/-- A library that answers zeros only, and accepts no signature. -/
def zeroLibrary : Library Unit where
  toPrimitives := zeroPrimitives
  sha256 _ := replicate 32 0
  length_sha256 _ := rfl
  aes128Init _ := ()
  curve25519Base _ := replicate 32 0
  curve25519ScalarMult _ _ := replicate 32 0
  ed25519Sign _ _ _ := replicate 64 0
  ed25519Verify _ _ _ := false
  hostPublic := replicate 32 0
  hostPrivate := replicate 32 0

/-- An environment of zeros. -/
def zeroEnv : Env := ⟨0, fun _ _ => 0, ⟨fun _ => 0, fun _ => 0⟩, none⟩

/-- A server with the default user. -/
def zeroServer : Server Unit := ⟨loadUserDatabase [], [], [], ()⟩

/-! ### Two runs -/

section Steps

variable (L handle)

/-- A connection with what each of its steps meets. -/
def runSteps (env : Env) : Connection Key → List Event → List (Socket × Server Channels) →
    Option (Connection Key × List Event)
  | conn, events, [] => some (conn, events)
  | conn, events, (socket, server) :: rest => do
    let r ← processConnection L handle env ⟨conn, socket, server⟩
    runSteps env r.world.conn (events ++ r.events) rest

variable {L handle}

theorem Run.runSteps {zeroKey : Key} {conn conn' : Connection Key} {events events' : List Event}
    {inputs : List (Socket × Server Channels)} (h : Run L handle zeroKey conn events)
    (hsteps : runSteps L handle env conn events inputs = some (conn', events')) :
    Run L handle zeroKey conn' events' := by
  induction inputs generalizing conn events with
  | nil =>
    cases hsteps
    exact h
  | cons input inputs ih =>
    obtain ⟨r, hstep, hrest⟩ := Option.bind_eq_some_iff.mp hsteps
    exact ih (h.step env input.1 input.2 hstep) hrest

end Steps

end Xaios.Ssh
