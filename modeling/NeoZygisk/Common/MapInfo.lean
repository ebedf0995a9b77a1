import Mathlib.Logic.Basic

/-!
# Memory mappings

One line of `/proc/<pid>/maps`, as the tracer's `MapInfo::Scan` and lsplt's both report it.
-/

set_option autoImplicit false

namespace NeoZygisk.Common

/-- `PROT_READ`, `PROT_WRITE` and `PROT_EXEC` of a mapping. -/
structure Perms where
  read : Bool
  write : Bool
  exec : Bool
  deriving DecidableEq, Repr

structure MapInfo where
  start : Nat
  end_ : Nat
  perms : Perms
  isPrivate : Bool
  offset : Nat
  dev : Nat
  inode : Nat
  path : String
  deriving DecidableEq, Repr

end NeoZygisk.Common
