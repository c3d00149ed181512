import Mathlib.Data.List.Infix
import Xaios.Foundation.CString
import Xaios.Status

/-!
# The security policy

The checks of `kernel/runtime/security.c` other components ask for: texts with credentials
in them, the trees a path may be read or written in, and the signature of an update, which
is a text with the generation and the hash of the update in it. Nothing is verified with a
key: a signature of the right form is good.

What a component gets to know of a signature is whether it was accepted, so the model also
returns what was in it (`Security.UpdateSignature`).
-/

namespace Xaios.Security

open Foundation

/-! ### Texts -/

/-- `starts_with`. -/
def startsWith (text pre : List UInt8) : Bool := pre.isPrefixOf text

/-- `contains`, and `contains_buffer` for the bytes of a buffer. -/
def contains (text needle : List UInt8) : Bool :=
  !needle.isEmpty && text.tails.any fun hay => startsWith hay needle

/-- The patterns of credentials, in the order they are looked for. -/
def credentialPatterns : List (List UInt8) :=
  [ascii "github_pat_", ascii "ghp_", ascii "BEGIN ", ascii "PRIVATE KEY", ascii "password=",
    ascii "token=", ascii "secret="]

/-- `security_reject_credential_material`, and `…_buffer` for the bytes of a buffer. -/
def rejectCredentialMaterial (text : List UInt8) : Status :=
  if credentialPatterns.any (contains text) then .invalid else .ok

/-- `security_authorize_rollback`. -/
def authorizeRollback (target : CString) (authorized : UInt32) : Status :=
  if rejectCredentialMaterial target.bytes ≠ .ok then .invalid
  else if authorized ≠ 0 then .ok
  else .invalid

/-! ### Signatures of updates -/

/-- What is in a signature. The generation is a number, the others are 64 hexadecimal digits
each. -/
structure UpdateSignature where
  generation : UInt64
  sha256 : List UInt8
  sig : List UInt8
deriving DecidableEq

/-- `is_hex_char`. -/
def isHexChar (c : UInt8) : Bool :=
  (48 ≤ c && c ≤ 57) || (97 ≤ c && c ≤ 102) || (65 ≤ c && c ≤ 70)

/-- `is_digit`. -/
def isDigit (c : UInt8) : Bool := 48 ≤ c && c ≤ 57

/-- The cursor behind a text it has to be at. -/
def skip (text cursor : List UInt8) : Option (List UInt8) :=
  if startsWith cursor text then some (cursor.drop text.length) else none

/-- The 64 hexadecimal digits the cursor has to be at, and the cursor behind them. -/
def hexField (cursor : List UInt8) : Option (List UInt8 × List UInt8) :=
  if (cursor.take 64).length = 64 ∧ (cursor.take 64).all isHexChar then
    some (cursor.take 64, cursor.drop 64)
  else none

/-- The loop of `parse_generation` with what follows it. -/
def generationLoop : List UInt8 → UInt64 → Option (UInt64 × List UInt8)
  | [], _ => none
  | c :: value, parsed =>
    if c = 58 then
      if parsed = 0 then none else some (parsed, value)
    else if !isDigit c || (0xffffffffffffffff - (c - 48).toUInt64) / 10 < parsed then none
    else generationLoop value (parsed * 10 + (c - 48).toUInt64)

/-- `parse_generation`. -/
def parseGeneration (cursor : List UInt8) : Option (UInt64 × List UInt8) := do
  let value ← skip (ascii "gen=") cursor
  if value.head?.any isDigit then generationLoop value 0 else none

/-- The fields behind the generation. -/
def parseFields (generation : UInt64) (cursor : List UInt8) : Option UpdateSignature := do
  let cursor ← skip (ascii "sha256=") cursor
  let (sha256, cursor) ← hexField cursor
  let cursor ← skip (ascii ":") cursor
  let cursor ← skip (ascii "key=XAIOS-QEMU-DEV-PUBKEY") cursor
  let cursor ← skip (ascii ":") cursor
  let cursor ← skip (ascii "sig=") cursor
  let (sig, cursor) ← hexField cursor
  if cursor = [] then some ⟨generation, sha256, sig⟩ else none

/-- `security_validate_update_signature`: the signature, if it is accepted. The generation
accepted last is `g_last_update_generation`. -/
def validateUpdateSignature (last : UInt64) (signature : CString) : Option UpdateSignature := do
  if rejectCredentialMaterial signature.bytes ≠ .ok then none
  else
    let cursor ← skip (ascii "xaios-update:v1:") signature.bytes
    let (generation, cursor) ← parseGeneration cursor
    if generation ≤ last then none else parseFields generation cursor

/-- The value of a hexadecimal digit, `hex_digit`. -/
def hexDigit (c : UInt8) : UInt8 :=
  if 48 ≤ c ∧ c ≤ 57 then c - 48
  else if 97 ≤ c ∧ c ≤ 102 then 10 + (c - 97)
  else 10 + (c - 65)

/-- The bytes two hexadecimal digits each spell. -/
def hexBytes : List UInt8 → List UInt8
  | hi :: lo :: rest => (hexDigit hi <<< 4 ||| hexDigit lo) :: hexBytes rest
  | _ => []

/-- The hash a signature names. -/
def UpdateSignature.hash (s : UpdateSignature) : List UInt8 := hexBytes s.sha256

end Xaios.Security
