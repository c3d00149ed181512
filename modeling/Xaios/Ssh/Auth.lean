import Mathlib.Data.List.Basic

/-!
# Who may log in

The tables of `userspace/sshd/sshd.c` that authentication rests on: the users with the
hashes of their passwords, the authorized public keys with the file they are loaded from,
and the table of failed attempts by address.
-/

namespace Xaios.Ssh

/-- The bytes of a text. -/
def ascii (text : List Char) : List UInt8 := text.map fun c => UInt8.ofNat c.toNat

/-- The string in an array: the bytes before the first zero. -/
def cstring (bytes : List UInt8) : List UInt8 := bytes.takeWhile (· ≠ 0)

/-! ### Users -/

/-- `sshd_user_t`. -/
structure User where
  username : List UInt8
  passwordHash : List UInt8
  active : Bool
deriving DecidableEq

/-- The hash of the default password. -/
def adminHash : List UInt8 :=
  [0x8c, 0x69, 0x76, 0xe5, 0xb5, 0x41, 0x04, 0x15, 0xbd, 0xe9, 0x08, 0xbd, 0x4d, 0xee, 0x15, 0xdf,
    0xb1, 0x67, 0xa9, 0xc8, 0x73, 0xfc, 0x4b, 0xb8, 0xa8, 0x1f, 0x6f, 0x2a, 0xb4, 0x48, 0xa9, 0x18]

/-- `load_user_database`. -/
def loadUserDatabase (users : List User) : List User :=
  if users = [] then [⟨ascii ['a', 'd', 'm', 'i', 'n'], adminHash, true⟩] else users

/-- `authenticate_password`: whether it answers 0. Only the first active user of the name
counts. -/
def authenticatePassword (sha256 : List UInt8 → List UInt8) (users : List User)
    (username password : List UInt8) : Bool :=
  match users.find? fun u => u.active && u.username == username with
  | none => false
  | some u => sha256 password == u.passwordHash

/-! ### Authorized keys -/

/-- The value of a hexadecimal digit. -/
def hexDigit (c : UInt8) : Option UInt8 :=
  if 48 ≤ c ∧ c ≤ 57 then some (c - 48)
  else if 97 ≤ c ∧ c ≤ 102 then some (10 + (c - 97))
  else if 65 ≤ c ∧ c ≤ 70 then some (10 + (c - 65))
  else none

/-- The bytes of pairs of hexadecimal digits. -/
def hexBytes : List UInt8 → Option (List UInt8)
  | hi :: lo :: rest => do
    let hi ← hexDigit hi
    let lo ← hexDigit lo
    let rest ← hexBytes rest
    return (hi <<< 4 ||| lo) :: rest
  | _ => some []

/-- `hex_to_key`. -/
def hexToKey (hex : List UInt8) : Option (List UInt8) :=
  if hex.length ≠ 64 then none else hexBytes hex

/-- `MAX_AUTHORIZED_KEYS`. -/
def maxAuthorizedKeys : ℕ := 16

/-- The loop of `load_authorized_keys` over the text of the file, with the line so far. What
follows the last newline is not read. -/
def loadKeyLines : List UInt8 → List UInt8 → List (List UInt8) → List (List UInt8)
  | [], _, keys => keys
  | c :: rest, line, keys =>
    if keys.length ≥ maxAuthorizedKeys then keys
    else if c = 10 then
      match hexToKey line with
      | some key => loadKeyLines rest [] (keys ++ [key])
      | none => loadKeyLines rest [] keys
    else loadKeyLines rest (line ++ [c]) keys

/-- `load_authorized_keys`, with what the file `/etc/xaios_authorized_keys` holds. -/
def loadAuthorizedKeys (keys : List (List UInt8)) (file : Option (List UInt8)) :
    List (List UInt8) :=
  if keys ≠ [] then keys
  else
    match file with
    | none => keys
    | some content => loadKeyLines (cstring content) [] []

/-- `check_authorized_key`: whether it answers 0. -/
def checkAuthorizedKey (keys : List (List UInt8)) (pubkey : List UInt8) : Bool :=
  keys.contains pubkey

/-! ### Failed attempts -/

/-- `xaios_ip_addr_user_t`. -/
structure IpAddr where
  family : UInt8
  addr : List UInt8
deriving DecidableEq

/-- `ip_addr_equal`. -/
def ipAddrEqual (a b : IpAddr) : Bool :=
  let len := if a.family = 4 then 4 else 16
  a.family == b.family && a.addr.take len == b.addr.take len

/-- `sshd_rate_limit_entry_t`. -/
structure RateLimitEntry where
  ipAddress : IpAddr
  lastAttemptTime : UInt64
  failureCount : UInt32
  banUntil : UInt64
deriving DecidableEq

/-- `SSHD_RATE_LIMIT_MAX_ENTRIES`. -/
def rateLimitMaxEntries : ℕ := 1024

/-- `SSHD_RATE_LIMIT_MAX_FAILURES`. -/
def rateLimitMaxFailures : UInt32 := 10

/-- `SSHD_RATE_LIMIT_BAN_DURATION`. -/
def rateLimitBanDuration : UInt64 := 3600

/-- The entry `find_rate_limit_entry` finds is changed. -/
def updateRateLimitEntry (ip : IpAddr) (f : RateLimitEntry → RateLimitEntry) :
    List RateLimitEntry → List RateLimitEntry
  | [] => []
  | e :: es => if ipAddrEqual e.ipAddress ip then f e :: es else e :: updateRateLimitEntry ip f es

/-- `find_rate_limit_entry`. -/
def findRateLimitEntry (entries : List RateLimitEntry) (ip : IpAddr) : Option RateLimitEntry :=
  entries.find? fun e => ipAddrEqual e.ipAddress ip

/-- `check_rate_limit`: whether it answers 0, and the table. -/
def checkRateLimit (entries : List RateLimitEntry) (now : UInt64) (ip : IpAddr) :
    Bool × List RateLimitEntry :=
  match findRateLimitEntry entries ip with
  | none => (true, entries)
  | some e =>
    if e.banUntil > now then (false, entries)
    else if e.banUntil > 0 ∧ e.banUntil ≤ now then
      (true, updateRateLimitEntry ip (fun e => { e with failureCount := 0, banUntil := 0 }) entries)
    else (true, entries)

/-- One more failure of an entry. -/
def RateLimitEntry.fail (now : UInt64) (e : RateLimitEntry) : RateLimitEntry :=
  let e := { e with lastAttemptTime := now, failureCount := e.failureCount + 1 }
  if e.failureCount ≥ rateLimitMaxFailures then { e with banUntil := now + rateLimitBanDuration }
  else e

/-- `record_auth_failure`. -/
def recordAuthFailure (entries : List RateLimitEntry) (now : UInt64) (ip : IpAddr) :
    List RateLimitEntry :=
  match findRateLimitEntry entries ip with
  | none =>
    if entries.length < rateLimitMaxEntries then entries ++ [⟨ip, now, 1, 0⟩] else entries
  | some _ => updateRateLimitEntry ip (RateLimitEntry.fail now) entries

/-- `record_auth_success`. -/
def recordAuthSuccess (entries : List RateLimitEntry) (ip : IpAddr) : List RateLimitEntry :=
  updateRateLimitEntry ip (fun e => { e with failureCount := 0, banUntil := 0 }) entries

end Xaios.Ssh
