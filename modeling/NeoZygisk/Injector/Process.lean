import NeoZygisk.Common.MapInfo
import NeoZygisk.Common.ProcessFlags
import NeoZygisk.Unmount.Strategies

/-!
# An injected process

The state of one process that runs the injector: the two globals `g_hook` and `g_ctx`, the open
descriptors, and a log of what the injector has done so far. A null pointer dereference ends the
process; it is recorded as a `Fault`, and every later operation of a crashed process is the identity
(`Proc.next`).

What the injector receives from outside (the daemon's answers, the modules' code, the results of
system calls) is collected in `Env`. A module is the list of actions its entry performs and, in the
table it registers, the list of actions of each callback.
-/

set_option autoImplicit false

namespace NeoZygisk.Injector

open NeoZygisk.Common
open NeoZygisk.Unmount

/-! ## Module code -/

/-- The eight slots of the function table behind `registerModule`. The table is a union: slots 1 to 3
change their meaning from API version 4 on. -/
inductive ApiSlot where
  | hookJniNativeMethods
  | pltHookRegister
  | pltHookExcludeOrExemptFd
  | pltHookCommit
  | connectCompanion
  | setOption
  | getModuleDir
  | getFlags
  deriving DecidableEq, Repr

/-- The functions `RegisterModuleImpl` puts into the table. -/
inductive ApiFn where
  | hookJniNativeMethods
  | pltHookRegisterV1
  | pltHookExclude
  | pltHookCommitV1
  | connectCompanion
  | setOption
  | getModuleDir
  | getFlags
  | pltHookRegisterV4
  | exemptFd
  | pltHookCommitV4
  deriving DecidableEq, Repr

/-- The function table of a module; an empty slot is a null pointer. -/
abbrev ApiTable := ApiSlot → Option ApiFn

/-- `zygisk::Option`. -/
inductive ZygiskOption where
  | FORCE_DENYLIST_UNMOUNT
  | DLCLOSE_MODULE_LIBRARY
  deriving DecidableEq, Repr

/-- An entry of a `JNINativeMethod` array; `fn` says that the function pointer is not null. -/
structure NativeMethod where
  name : String
  signature : String
  fn : Bool
  deriving DecidableEq, Repr

/-- The arguments of a call through the table; a function reads those it declares. `none` is a null
`const char *`, `fn` says that the function pointer is not null. -/
structure ApiArg where
  className : String := ""
  methods : List NativeMethod := []
  regex : Option String := none
  symbol : Option String := none
  fn : Bool := false
  dev : Nat := 0
  inode : Nat := 0
  fd : Int := -1
  option : ZygiskOption := .DLCLOSE_MODULE_LIBRARY
  deriving DecidableEq, Repr

/-- What module code does: call through its table, open a descriptor, close one. -/
inductive Action where
  | api (slot : ApiSlot) (arg : ApiArg)
  | openFd (fd : Nat) (target : String)
  | closeFd (fd : Nat)
  deriving DecidableEq, Repr

/-- `module_abi_v1`: the version word, whether `impl` is set, and the four callbacks. A null callback
is `none`; otherwise the callback is the code it runs. -/
structure ModuleAbi where
  apiVersion : Int
  impl : Bool
  preAppSpecialize : Option (List Action)
  postAppSpecialize : Option (List Action)
  preServerSpecialize : Option (List Action)
  postServerSpecialize : Option (List Action)
  deriving DecidableEq, Repr

/-- What a module's entry does: register a table (or pass null), or run code. -/
inductive EntryAction where
  | registerModule (module : Option ModuleAbi)
  | act (a : Action)
  deriving DecidableEq, Repr

/-- A library that `DlopenMem` loads: the code behind `zygisk_module_entry`, if the symbol is there,
and whether a later `dlclose` succeeds. -/
structure Library where
  entry : Option (List EntryAction)
  dlclose : Bool
  deriving DecidableEq, Repr

/-- One entry of the daemon's module list; `library` is `none` when `DlopenMem` fails. -/
structure ServedModule where
  name : String
  library : Option Library
  deriving DecidableEq, Repr

/-! ## The process -/

/-- `ZygiskModule`. `mod` stays null until a registration is accepted. -/
structure ZygiskModule where
  id : Nat
  entry : List EntryAction
  dlclose : Bool
  unload : Bool
  api : ApiTable
  mod : Option ModuleAbi

/-- The arguments of a specialization. `fdsToIgnore` is a pointer that some variants leave null, to
an array that may itself be null. -/
structure AppSpecializeArgs where
  uid : Uid
  niceName : String
  appDataDir : Option String
  fdsToIgnore : Option (Option (List Int))
  deriving DecidableEq, Repr

inductive SpecializeArgs where
  | app (a : AppSpecializeArgs)
  | server
  deriving DecidableEq, Repr

structure RegisterInfo where
  regex : String
  symbol : String
  deriving DecidableEq, Repr

structure IgnoreInfo where
  regex : String
  symbol : String
  deriving DecidableEq, Repr

/-- `ZygiskContext`. `allowedFds` lists the numbers whose bit is set in a vector of `fdMax` bits. -/
structure ZygiskContext where
  args : SpecializeArgs
  process : Option String
  modules : List ZygiskModule
  pid : Int
  flags : Flags
  infoFlags : Flags
  fdMax : Nat
  allowedFds : List Nat
  exemptedFds : List Int
  registerInfo : List RegisterInfo
  ignoreInfo : List IgnoreInfo

/-- `HookContext`. -/
structure HookContext where
  cachedMapInfos : List MapInfo
  shouldSpoofMaps : Bool
  shouldUnmap : Bool
  zygoteUnmounted : Bool
  zygoteTraces : List MountInfo
  deriving DecidableEq, Repr

/-- An open descriptor and what its link in `/proc/self/fd` reads. -/
structure Fd where
  num : Nat
  target : String
  deriving DecidableEq, Repr

/-- The null pointer whose use ended the process. -/
inductive Fault where
  | nullMod
  | nullCallback
  | nullHook
  | nullCtx
  deriving DecidableEq, Repr

inductive Callback where
  | preAppSpecialize
  | postAppSpecialize
  | preServerSpecialize
  | postServerSpecialize
  deriving DecidableEq, Repr

inductive Event where
  | load (id : Nat)
  | call (id : Nat) (callback : Callback)
  | oldFork
  | close (fd : Nat)
  | restoreZygoteHook
  | systemServerStarted
  | cacheMountNamespace
  deriving DecidableEq, Repr

/-- A hook registered with lsplt. -/
structure PltHook where
  dev : Nat
  inode : Nat
  symbol : String
  deriving DecidableEq, Repr

structure Proc where
  gHook : Option HookContext
  gCtx : Option ZygiskContext
  fds : List Fd
  pltHooks : List PltHook
  fault : Option Fault
  log : List Event

/-! ## The environment -/

/-- The places where the injector connects to the daemon. -/
inductive DaemonCall where
  | forkFlags
  | isolatedProbe
  | specializeFlags
  | readModules
  deriving DecidableEq, Repr

structure Env where
  /-- Result of the `n`-th call of the real `fork` (from 0). -/
  oldFork : Nat → Int
  /-- `RLIMIT_NOFILE`'s hard limit. -/
  fdMax : Nat
  /-- Whether `Connect` succeeds at a place. -/
  reachable : DaemonCall → Bool
  processFlags : Uid → Flags
  modules : List ServedModule
  /-- Owner of a path, when `stat` succeeds on it. -/
  stat : String → Option Uid
  /-- `parse_mount_info("self")`. -/
  mountInfos : List MountInfo
  /-- Whether `umount2` of a trace succeeds. -/
  umount2 : MountInfo → Bool
  /-- Whether `sanitize_fds` can open `/proc/self/fd`. -/
  openDir : Bool
  /-- Whether `NewIntArray` succeeds. -/
  newIntArray : Bool
  regcomp : String → Bool
  regexec : String → String → Bool
  /-- `FindClass`, and whether the class has a method of a name and a signature. -/
  findClass : String → Option (String → String → Bool)
  /-- Whether `lsplt::CommitHook` reads the maps it is given a reference to, with these hooks
  registered. -/
  commitReads : List PltHook → Bool

/-- The `ZygiskContext` constructor. -/
def newContext (env : Env) (args : SpecializeArgs) : ZygiskContext where
  args := args
  process := none
  modules := []
  pid := -1
  flags := 0#32
  infoFlags := 0#32
  fdMax := env.fdMax
  allowedFds := []
  exemptedFds := []
  registerInfo := []
  ignoreInfo := []

/-! ## Operations -/

namespace Proc

/-- The process dies from a null pointer. -/
def crash (p : Proc) (f : Fault) : Proc := { p with fault := some f }

def emit (p : Proc) (e : Event) : Proc := { p with log := p.log ++ [e] }

/-- Run `f` unless the process has crashed. -/
def next (p : Proc) (f : Proc → Proc) : Proc := if p.fault.isSome then p else f p

/-- `g_ctx->…`. -/
def derefCtx (p : Proc) (f : ZygiskContext → Proc) : Proc :=
  match p.gCtx with
  | none => p.crash .nullCtx
  | some c => f c

/-- `g_hook->…`. -/
def derefHook (p : Proc) (f : HookContext → Proc) : Proc :=
  match p.gHook with
  | none => p.crash .nullHook
  | some h => f h

def setCtx (p : Proc) (c : ZygiskContext) : Proc := { p with gCtx := some c }

def setHook (p : Proc) (h : HookContext) : Proc := { p with gHook := some h }

/-- `close`; closing a number that is not open does nothing. -/
def close (p : Proc) (fd : Nat) : Proc :=
  if p.fds.any (·.num == fd) then
    { p with fds := p.fds.filter (·.num != fd), log := p.log ++ [.close fd] }
  else p

end Proc

end NeoZygisk.Injector
