import Mathlib.Tactic.Common

/-!
# Status codes

The answers of the kernel's interfaces, `xaios_status_t` of
`kernel/include/xaios/status.h`.
-/

namespace Xaios

/-- The status codes. -/
inductive Status where
  | ok
  | invalid
  | noMemory
  | notFound
  | io
  | busy
  deriving DecidableEq, Repr

/-- The integer an interface that also returns counts answers with. -/
def Status.code : Status → Int
  | .ok => 0
  | .invalid => -1
  | .noMemory => -2
  | .notFound => -3
  | .io => -4
  | .busy => -5

end Xaios
