import TyprCompanion.Core.Mutex
import TyprCompanion.Js.Base64
import TyprCompanion.Js.Json
import TyprCompanion.Workspace.Path

/-!
# The workspace store

`workspaceStore.ts`: one host directory exposed for listing, reading, conditional writing and
conditional deleting.  Every `await` of the source is one operation of a `Prog`, so programs
interleave exactly where the source can be suspended.

* `WorkspaceStore` — the configuration; `WorkspaceLimits` carries what `validateLimits` checks.
* `StoreOp`, `StoreProg` — the operations: the file system, the test hook between the stages of a
  write, and `randomUUID`.
* `read`, `list`, `resolveExistingFile`, `resolveForWrite`, `readIfExists` — the methods.
* `Mutation`, `Mutation.body` — a `write` or `delete` that reached the lock, and what it does while
  it holds it.
-/

namespace Typr

open Core

/-! ## Limits -/

/-- The limits as configured. -/
structure ConfiguredLimits where
  maxFileBytes : JSNumber
  maxEntries : JSNumber
  maxWorkspaceBytes : JSNumber

/-- Limits the store accepts. -/
structure WorkspaceLimits where
  maxFileBytes : Nat
  maxEntries : Nat
  maxWorkspaceBytes : Nat
  entries_pos : 0 < maxEntries
  fileBytes_pos : 0 < maxFileBytes
  fileBytes_le : maxFileBytes ≤ maxWorkspaceBytes

/-- `validateLimits` -/
def validateLimits (limits : ConfiguredLimits) : Except JSString WorkspaceLimits :=
  match hbytes : limits.maxFileBytes.positiveSafeInteger?,
      hentries : limits.maxEntries.positiveSafeInteger?,
      limits.maxWorkspaceBytes.positiveSafeInteger? with
  | some maxFileBytes, some maxEntries, some maxWorkspaceBytes =>
      if h : maxWorkspaceBytes < maxFileBytes then .error message
      else .ok ⟨maxFileBytes, maxEntries, maxWorkspaceBytes,
        JSNumber.positiveSafeInteger?_pos hentries, JSNumber.positiveSafeInteger?_pos hbytes,
        Nat.le_of_not_lt h⟩
  | _, _, _ => .error message
where
  message := js "Workspace limits must be positive safe integers and maxFileBytes cannot exceed maxWorkspaceBytes."

/-! ## Operations and programs -/

/-- The stages of a write the test hook is called before. -/
inductive WriteStep where
  | write
  | sync
  | rename
  deriving DecidableEq

/-- What `randomUUID` returns: hexadecimal digits and hyphens. -/
structure UUID where
  text : JSString
  wellFormed : text.all fun u => (js "0123456789abcdef-").contains u

/-- What a store waits for. -/
inductive StoreOp where
  | fs (op : FsOp FileName)
  | hook (step : WriteStep)
  | randomUUID

/-- What the store gets back; the hook replies whether it returned. -/
abbrev StoreOp.Reply : StoreOp → Type
  | fs op => op.Reply
  | hook _ => Bool
  | randomUUID => UUID

/-- What a store throws. -/
inductive StoreFailure where
  | workspace (e : WorkspaceError)
  | errno (e : Errno)
  | hook (step : WriteStep)
  /-- A directory deeper than any valid path; see `scan_ne_depth`. -/
  | depth
  deriving DecidableEq

/-- A program of the store. -/
abbrev StoreProg (α : Type) := Prog StoreOp StoreOp.Reply StoreFailure α

/-- The outcomes of an operation on a disk.  Only in a faulty environment does an operation fail
for a reason of its own, or the hook throw. -/
def StoreOp.Exec (faulty : Bool) : (op : StoreOp) → Disk FileName → op.Reply → Disk FileName → Prop
  | fs op, d, reply, d' => op.Exec faulty d reply d'
  | hook _, d, reply, d' => d' = d ∧ (reply = true ∨ faulty = true)
  | randomUUID, d, _, d' => d' = d

/-- An environment without faults, with a stopped clock and one identifier. -/
def StoreOp.plain (now : Nat) (uuid : UUID) : (op : StoreOp) → Disk FileName →
    op.Reply × Disk FileName
  | fs op, d => op.exec now d
  | hook _, d => (true, d)
  | randomUUID, d => (uuid, d)

theorem StoreOp.exec_plain (now : Nat) (uuid : UUID) (op : StoreOp) (d : Disk FileName) :
    op.Exec false d (op.plain now uuid d).1 (op.plain now uuid d).2 := by
  cases op with
  | fs op => exact .inl ⟨now, rfl⟩
  | hook step => exact ⟨rfl, .inl rfl⟩
  | randomUUID => rfl

/-- Await a file operation; its error is thrown. -/
def fs (op : FsOp FileName) : StoreProg op.Result :=
  .perform (.fs op) fun
    | .ok result => .pure result
    | .error e => .throw (.errno e)

/-- `await this.atomicWriteHook?.(step)` -/
def atomicWriteHook (step : WriteStep) : StoreProg Unit :=
  .perform (.hook step) fun returned => Prog.throwIf (returned = false) (.hook step)

/-- `randomUUID()` -/
def randomUUID : StoreProg UUID := .perform .randomUUID .pure

/-- Throw a `WorkspaceError`. -/
def refuseIf (c : Prop) [Decidable c] (status : Nat) (code message : JSString)
    (h : 400 ≤ status ∧ status < 500 := by decide) : StoreProg Unit :=
  Prog.throwIf c (.workspace ⟨status, code, message, h⟩)

/-! ## The store -/

/-- What `list` tells about a file. -/
structure WorkspaceFileMetadata where
  path : JSString
  size : Nat
  modifiedAt : Nat
  etag : JSString
  deriving DecidableEq

/-- What `read` returns. -/
structure WorkspaceFileResponse extends WorkspaceFileMetadata where
  encoding : JSString
  content : JSString
  deriving DecidableEq

inductive WorkspaceWritePrecondition where
  | create
  | update (etag : JSString)
  deriving DecidableEq

/-- A store.  The digest and the collation are the runtime's. -/
structure WorkspaceStore where
  platform : Platform
  root : Location
  workspaceId : JSString
  limits : WorkspaceLimits
  /-- `createHash("sha256").update(content).digest("base64url")` -/
  sha256 : Bytes → JSString
  /-- `left.localeCompare(right) <= 0` -/
  localeLe : JSString → JSString → Bool

/-- Files found so far by a scan. -/
structure ScanState where
  files : List WorkspaceFileMetadata
  totalBytes : Nat

namespace WorkspaceStore

variable (store : WorkspaceStore)

/-- `createEtag` -/
def createEtag (content : Bytes) : JSString := js "\"sha256-" ++ store.sha256 content ++ js "\""

/-- `metadataOnly` -/
def metadataOnly (file : WorkspaceFileResponse) : WorkspaceFileMetadata := file.toWorkspaceFileMetadata

/-- `assertRegularFile` -/
def assertRegularFile (info : Stat) (path : JSString) : StoreProg Unit :=
  refuseIf (info.kind ≠ .file) 409 (js "workspace-unsafe-entry")
    (js "Workspace path is not a regular file: " ++ path)

/-- `lstat` with a missing entry reported as 404. -/
def lstatExisting (location : Location) : StoreProg Stat :=
  (fs (.lstat location)).tryCatch fun error =>
    if error = .errno .noEntry then
      throw (.workspace ⟨404, js "workspace-file-not-found", js "Workspace file was not found.",
        by decide⟩)
    else throw error

/-- The loop of `resolveExistingFile` over the segments. -/
def resolveSegments : Location → List JSString → StoreProg Location
  | current, [] => pure current
  | current, segment :: rest => do
      let current := current ++ [fileName segment]
      let info ← lstatExisting current
      refuseIf (info.kind = .link) 409 (js "workspace-unsafe-entry")
        (js "Workspace path crosses a symbolic link.")
      refuseIf (rest ≠ [] ∧ info.kind ≠ .dir) 409 (js "workspace-path-conflict")
        (js "Workspace path crosses a non-directory entry.")
      refuseIf (rest = [] ∧ info.kind ≠ .file) 409 (js "workspace-path-conflict")
        (js "Workspace path does not name a regular file.")
      resolveSegments current rest

/-- `resolveExistingFile` -/
def resolveExistingFile (normalized : WorkspacePath store.platform) : StoreProg Location :=
  resolveSegments store.root (JSString.split (unit '/') normalized.text)

/-- The part of `read` after the path check. -/
def readValid (normalized : WorkspacePath store.platform) : StoreProg WorkspaceFileResponse := do
  let filePath ← store.resolveExistingFile normalized
  let handle ← fs (.openRead filePath)
  let body : StoreProg WorkspaceFileResponse := do
    let fileInfo ← fs (.fstat handle)
    assertRegularFile fileInfo normalized.text
    let content ← fs (.readFile handle)
    refuseIf (store.limits.maxFileBytes < content.length) 413 (js "workspace-file-too-large")
      (js "Workspace file exceeds the configured size limit.")
    pure {
      path := normalized.text
      size := content.length
      modifiedAt := fileInfo.mtimeMs
      etag := store.createEtag content
      encoding := js "base64"
      content := toBase64 content }
  body.ensuring (fs (.close handle))

/-- The path of a request; the refusal is thrown. -/
def parsePath (path : JSString) : Except StoreFailure (WorkspacePath store.platform) :=
  (WorkspacePath.parse store.platform path).mapError .workspace

/-- `read` -/
def read (path : JSString) : StoreProg WorkspaceFileResponse := do
  let normalized ← Prog.ofExcept (store.parsePath path)
  store.readValid normalized

/-- `readIfExists`: the file with its permissions, `none` when there is none. -/
def readIfExists (normalized : WorkspacePath store.platform) :
    StoreProg (Option (WorkspaceFileResponse × Nat)) :=
  let body : StoreProg (Option (WorkspaceFileResponse × Nat)) := do
    let response ← store.readValid normalized
    let fileInfo ← fs (.lstat (store.root ++ relativeLocation normalized.text))
    refuseIf (fileInfo.kind = .link ∨ fileInfo.kind ≠ .file) 409 (js "workspace-unsafe-entry")
      (js "Workspace path changed to an unsafe entry.")
    pure (some (response, fileInfo.mode % 0o1000))
  body.tryCatch fun
    | .workspace e => if e.status = 404 then pure none else throw (.workspace e)
    | error => throw error

/-! ## The scan -/

/-- What `scan` does with one entry; `visit` scans a directory below it. -/
def visitEntry (visit : Location → JSString → ScanState → StoreProg ScanState)
    (directory : Location) (parent : JSString) (state : ScanState) (name : FileName) :
    StoreProg ScanState :=
  if isHidden name then pure state
  else do
    let childPath := directory ++ [fileName name.text]
    let relativePath := childPathOf parent name.text
    let _ ← Prog.ofExcept (store.parsePath relativePath)
    let info ← fs (.lstat childPath)
    refuseIf (info.kind = .link ∨ (info.kind ≠ .dir ∧ info.kind ≠ .file)) 409
      (js "workspace-unsafe-entry") (js "Workspace contains a link or special file.")
    if info.kind = .dir then visit childPath relativePath state
    else do
      refuseIf (store.limits.maxEntries ≤ state.files.length) 413 (js "workspace-entry-limit")
        (js "Workspace contains too many files.")
      let handle ← fs (.openRead childPath)
      let body : StoreProg (Stat × Bytes) := do
        let openedInfo ← fs (.fstat handle)
        assertRegularFile openedInfo relativePath
        let content ← fs (.readFile handle)
        pure (openedInfo, content)
      let (openedInfo, content) ← body.ensuring (fs (.close handle))
      refuseIf (store.limits.maxFileBytes < content.length) 413 (js "workspace-file-too-large")
        (js "Workspace contains an oversized file.")
      let totalBytes := state.totalBytes + content.length
      refuseIf (store.limits.maxWorkspaceBytes < totalBytes) 413 (js "workspace-size-limit")
        (js "Workspace exceeds the configured total size limit.")
      pure {
        files := state.files ++ [{
          path := relativePath
          size := content.length
          modifiedAt := openedInfo.mtimeMs
          etag := store.createEtag content }]
        totalBytes := totalBytes }

/-- `visit`, for directories nested at most as deep as the first argument. -/
def visit : Nat → Location → JSString → ScanState → StoreProg ScanState
  | 0, _, _, _ => throw .depth
  | depth + 1, directory, parent, state => do
      let entries ← fs (.readdir directory)
      entries.foldlM (store.visitEntry (visit depth) directory parent) state

/-- `scan`; the validation of every path bounds the depth. -/
def scan : StoreProg (List WorkspaceFileMetadata) := do
  let state ← store.visit (MAX_PATH_DEPTH + 1) store.root [] ⟨[], 0⟩
  pure (state.files.mergeSort fun left right => store.localeLe left.path right.path)

/-- `list` -/
def list : StoreProg (JSString × List WorkspaceFileMetadata) := do
  let files ← store.scan
  pure (store.workspaceId, files)

/-! ## Writing -/

/-- The body of the loop of `resolveForWrite`: a missing directory is created. -/
def makeDirectory (parent : Location) : StoreProg Unit :=
  let body : StoreProg Unit := do
    let info ← fs (.lstat parent)
    refuseIf (info.kind = .link ∨ info.kind ≠ .dir) 409 (js "workspace-path-conflict")
      (js "Workspace path crosses an unsafe entry.")
  body.tryCatch fun error =>
    if error = .errno .noEntry then fs (.mkdir parent 0o700) else throw error

/-- The loop of `resolveForWrite` over the directories of a path. -/
def makeParents : Location → List JSString → StoreProg Location
  | parent, [] => pure parent
  | parent, segment :: rest => do
      let parent := parent ++ [fileName segment]
      makeDirectory parent
      makeParents parent rest

/-- `resolveForWrite`: the parent directory and the destination. -/
def resolveForWrite (normalized : WorkspacePath store.platform) :
    StoreProg (Location × Location) := do
  let segments := JSString.split (unit '/') normalized.text
  let parent ← makeParents store.root segments.dropLast
  pure (parent, parent ++ [fileName (segments.getLastD [])])

/-- `….catch(() => undefined)` -/
def quietly (p : StoreProg Unit) : StoreProg Unit := p.tryCatch fun _ => pure ()

/-- The `try … finally …` of `write`: fill a temporary file and move it onto the destination.  A
failure closes the file if it is open and removes it. -/
def replaceFile (temporary destination : Location) (content : Bytes) (mode : Nat) :
    StoreProg Unit :=
  let body : StoreProg Unit := do
    let handle ← fs (.openCreate temporary mode)
    let filling : StoreProg Unit := do
      atomicWriteHook .write
      fs (.writeFile handle content)
      atomicWriteHook .sync
      fs (.fsync handle)
      fs (.close handle)
    filling.onError (quietly (fs (.close handle)))
    atomicWriteHook .rename
    fs (.rename temporary destination)
  body.onError (quietly (fs (.rmForce temporary)))

/-- The two checks of the precondition of a write. -/
def checkPrecondition (precondition : WorkspaceWritePrecondition)
    (existing : Option (WorkspaceFileResponse × Nat)) : StoreProg Unit :=
  match precondition with
  | .create => refuseIf existing.isSome 412 (js "workspace-precondition-failed")
      (js "The workspace file already exists.")
  | .update etag => refuseIf (existing.map (·.1.etag) ≠ some etag) 412
      (js "workspace-precondition-failed") (js "The workspace file changed since it was read.")

/-- What `write` does once its checks passed. -/
def publish (normalized : WorkspacePath store.platform) (content : Bytes) (mode : Nat) :
    StoreProg WorkspaceFileMetadata := do
  let destination ← store.resolveForWrite normalized
  let uuid ← randomUUID
  let temporary := destination.1 ++ [fileName (INTERNAL_WRITE_PREFIX ++ uuid.text)]
  replaceFile temporary destination.2 content mode
  let result ← store.readValid normalized
  pure (metadataOnly result)

/-- What `write` does while it holds the lock. -/
def lockedWrite (normalized : WorkspacePath store.platform) (content : Bytes)
    (precondition : WorkspaceWritePrecondition) : StoreProg WorkspaceFileMetadata := do
  let existing ← store.readIfExists normalized
  checkPrecondition precondition existing
  let files ← store.scan
  let currentBytes : Nat := (files.map (·.size)).sum
  refuseIf (existing.isNone ∧ store.limits.maxEntries ≤ files.length) 413
    (js "workspace-entry-limit") (js "Workspace contains too many files.")
  let existingSize : Nat := (existing.map (·.1.size)).getD 0
  refuseIf ((store.limits.maxWorkspaceBytes : Int) < currentBytes - existingSize + content.length)
    413 (js "workspace-size-limit") (js "Workspace exceeds the configured total size limit.")
  store.publish normalized content ((existing.map (·.2)).getD 0o600)

/-- What `delete` does while it holds the lock. -/
def lockedDelete (normalized : WorkspacePath store.platform) (expectedEtag : JSString) :
    StoreProg Unit := do
  let existing ← store.readIfExists normalized
  refuseIf (existing.map (·.1.etag) ≠ some expectedEtag) 412 (js "workspace-precondition-failed")
    (js "The workspace file changed since it was read.")
  let filePath ← store.resolveExistingFile normalized
  fs (.unlink filePath)

end WorkspaceStore

/-! ## Mutations -/

/-- A call that reached `withMutationLock`. -/
inductive Mutation (store : WorkspaceStore) where
  | write (path : WorkspacePath store.platform)
      (content : {bytes : Bytes // bytes.length ≤ store.limits.maxFileBytes})
      (precondition : WorkspaceWritePrecondition)
  | delete (path : WorkspacePath store.platform) (expectedEtag : JSString)

namespace WorkspaceStore

variable (store : WorkspaceStore)

/-- `write` up to the lock: nothing is awaited before it. -/
def write (path : JSString) (content : Bytes) (precondition : WorkspaceWritePrecondition) :
    Except StoreFailure (Mutation store) := do
  let normalized ← store.parsePath path
  if h : store.limits.maxFileBytes < content.length then
    throw (.workspace ⟨413, js "workspace-file-too-large",
      js "Workspace file exceeds the configured size limit.", by decide⟩)
  else pure (.write normalized ⟨content, Nat.le_of_not_lt h⟩ precondition)

/-- `delete` up to the lock. -/
def delete (path : JSString) (expectedEtag : JSString) : Except StoreFailure (Mutation store) := do
  let normalized ← store.parsePath path
  pure (.delete normalized expectedEtag)

end WorkspaceStore

namespace Mutation

variable {store : WorkspaceStore}

/-- The path a mutation is about. -/
def path : Mutation store → WorkspacePath store.platform
  | write path _ _ => path
  | delete path _ => path

/-- What runs while the lock is held; a deletion returns nothing. -/
def body : Mutation store → StoreProg (Option WorkspaceFileMetadata)
  | write path content precondition => some <$> store.lockedWrite path content.val precondition
  | delete path expectedEtag => (fun _ => none) <$> store.lockedDelete path expectedEtag

end Mutation

/-- The store at work: the disk, the queue for the mutation lock and the settled calls. -/
abbrev StoreSystem (store : WorkspaceStore) :=
  Mutex (Mutation store) StoreOp StoreOp.Reply StoreFailure (Option WorkspaceFileMetadata)
    (Disk FileName)

end Typr
