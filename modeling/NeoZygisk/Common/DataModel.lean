import Mathlib.Init

/-!
# Data models

The sizes that differ between the 32 and the 64 bit builds.
-/

set_option autoImplicit false

namespace NeoZygisk.Common

/-- The two data models Android builds for. -/
inductive DataModel where
  | lp32
  | lp64
  deriving DecidableEq, Repr

namespace DataModel

/-- `sizeof(long)`, which is `sizeof(size_t)` and the size of a pointer too. -/
def wordSize : DataModel → Nat
  | .lp32 => 4
  | .lp64 => 8

/-- `uintptr_t`, `size_t` and `ElfW(Addr)`. -/
abbrev Word (m : DataModel) : Type := BitVec (8 * m.wordSize)

end DataModel

end NeoZygisk.Common
