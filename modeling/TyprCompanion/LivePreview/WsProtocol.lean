import TyprCompanion.Compile.ProjectFiles

/-!
# Client messages of the live preview

`validateTexpressoClientMessage` (`texpressoWsProtocol.ts`): what a client may send over its socket.

* `TexpressoClientMessage` — an accepted message.
* `validateTexpressoClientMessage` — the checks in the order of the source, with their codes,
  messages and revisions.
* `validateTexpressoClientMessage_initialize` — an accepted project has its main file among its
  text files.
-/

namespace Typr

def TEXPRESSO_WS_PROTOCOL_VERSION : Nat := 1

namespace TEXPRESSO_WS_LIMITS

def maxProjectBytes : Nat := 25 * 1024 * 1024

def maxProjectFiles : Nat := 512

def maxQueuedRevisions : Nat := 64

def maxPageBytes : Nat := 16 * 1024 * 1024

def maxDocumentImageBytes : Nat := 128 * 1024 * 1024

def maxPages : Nat := 64

def maxDiagnosticLogChars : Nat := 32 * 1024

def minDpi : Nat := 72

def maxDpi : Nat := 300

def defaultDpi : Nat := 240

end TEXPRESSO_WS_LIMITS

/-! ## Messages -/

/-- A zero-based position, in lines and UTF-16 units. -/
structure TexpressoPosition where
  line : Nat
  character : Nat
  deriving DecidableEq

structure TexpressoRange where
  start : TexpressoPosition
  stop : TexpressoPosition
  deriving DecidableEq

/-- RGB colours. -/
structure TexpressoRenderTheme where
  foreground : Nat
  background : Nat
  deriving DecidableEq

structure TexpressoRenderSettings where
  dpi : Nat
  theme : Option TexpressoRenderTheme
  deriving DecidableEq

structure TexpressoInitializeMessage where
  protocolVersion : Nat
  revision : Nat
  mainFilePath : JSString
  render : TexpressoRenderSettings
  files : List ProjectFile
  deriving DecidableEq

structure TexpressoChangeMessage where
  revision : Nat
  path : JSString
  range : TexpressoRange
  text : JSString
  deriving DecidableEq

inductive TexpressoClientMessage where
  | initializeSession (message : TexpressoInitializeMessage)
  | change (message : TexpressoChangeMessage)
  | shutdown
  deriving DecidableEq

/-- Why a message is refused. -/
structure ClientMessageRefusal where
  code : JSString
  message : JSString
  revision : Option Nat
  deriving DecidableEq

/-! ## Parts of a message -/

/-- `validRevision`, with the revision -/
def validRevision (value : Option Json) : Option Nat :=
  (value.bind Json.number?).bind JSNumber.positiveSafeInteger?

/-- A drive letter and a colon, as `/^[A-Za-z]:/` has it. -/
def hasDrivePrefix : JSString → Bool
  | u :: v :: _ => JSString.isWindowsDeviceRoot u && v == unit ':'
  | _ => false

/-- `validatePrivateProjectPath`, with the path when there is no error. -/
def validatePrivateProjectPath (platform : Platform) (value : Option Json) (label : JSString) :
    Except JSString JSString :=
  match value.bind Json.string? with
  | none => .error (label ++ js " must be a non-empty relative POSIX path.")
  | some value =>
      if value.length = 0 then .error (label ++ js " must be a non-empty relative POSIX path.")
      else if value = js "." ∨ JSString.endsWith value (js "/") = true ∨
          JSString.includes value 0 = true ∨ JSString.includes value 0x5C = true ∨
          JSString.startsWith value (js "/") = true ∨ hasDrivePrefix value = true then
        .error (label ++ js " must be a safe relative POSIX path.")
      else
        let segments := JSString.split (unit '/') value
        if segments.any (fun segment => segment == js ".." || segment == []) = true then
          .error (label ++ js " must not contain traversal or empty segments.")
        else if platform = .win32 ∧ segments.any isWindowsUnsafePathSegment = true then
          .error (label ++ js " contains a file name that Windows cannot store safely.")
        else .ok value

/-- `validRgbColor`, with the colour -/
def validRgbColor (value : Option Json) : Option Nat :=
  ((value.bind Json.number?).bind JSNumber.nonNegativeInteger?).filter (· ≤ 0xffffff)

/-- `isPosition`, with the position -/
def isPosition (value : Option Json) : Option TexpressoPosition := do
  let value ← value.bind Json.record?
  let line ← ((Json.field value (js "line")).bind Json.number?).bind JSNumber.nonNegativeInteger?
  let character ←
    ((Json.field value (js "character")).bind Json.number?).bind JSNumber.nonNegativeInteger?
  return ⟨line, character⟩

/-- `isRange`, with the range -/
def isRange (value : Option Json) : Option TexpressoRange := do
  let value ← value.bind Json.record?
  let start ← isPosition (Json.field value (js "start"))
  let stop ← isPosition (Json.field value (js "end"))
  return ⟨start, stop⟩

/-! ## Initialization -/

/-- The loop over the files: the files, the paths seen and the decoded bytes so far. -/
structure InitializeFiles where
  files : List ProjectFile
  seen : List JSString
  decodedBytes : Nat

/-- One round of the loop of `validateInitialize`. -/
def validateInitializeFile (platform : Platform) (revision index : Nat) (file : Json)
    (state : InitializeFiles) : Except ClientMessageRefusal InitializeFiles := do
  let label := js "files[" ++ jsNat index ++ js "]"
  let invalidProject (message : JSString) : ClientMessageRefusal :=
    ⟨js "invalid-project", message, some revision⟩
  let some file := file.record? | throw (invalidProject (label ++ js " must be an object."))
  let path ← (validatePrivateProjectPath platform (Json.field file (js "path"))
    (label ++ js ".path")).mapError invalidProject
  if state.seen.contains path then
    throw (invalidProject (label ++ js ".path duplicates another file."))
  let kind := (Json.field file (js "kind")).bind Json.string?
  let content := (Json.field file (js "content")).bind Json.string?
  let encoding := (Json.field file (js "encoding")).bind Json.string?
  let (file, size) ← match content with
    | some content =>
        if kind = some (js "text") then
          pure (ProjectFile.text path content, JSString.byteLength content)
        else if kind = some (js "binary") ∧ encoding = some (js "base64") ∧
            isBase64 content = true then
          pure (ProjectFile.binary path content, base64ByteLength content)
        else throw (invalidProject (label ++ js " must be a text file or valid base64 binary file."))
    | none => throw (invalidProject (label ++ js " must be a text file or valid base64 binary file."))
  let decodedBytes := state.decodedBytes + size
  if TEXPRESSO_WS_LIMITS.maxProjectBytes < decodedBytes then
    throw ⟨js "project-too-large", js "Decoded project exceeds "
      ++ jsNat TEXPRESSO_WS_LIMITS.maxProjectBytes ++ js " bytes.", some revision⟩
  return ⟨state.files ++ [file], path :: state.seen, decodedBytes⟩

/-- The loop of `validateInitialize`. -/
def validateInitializeFiles (platform : Platform) (revision : Nat) :
    Nat → List Json → InitializeFiles → Except ClientMessageRefusal InitializeFiles
  | _, [], state => .ok state
  | index, file :: rest, state => do
      let state ← validateInitializeFile platform revision index file state
      validateInitializeFiles platform revision (index + 1) rest state

/-- The render settings of an initialization. -/
def validateRender (revision : Nat) (value : Option Json) :
    Except ClientMessageRefusal TexpressoRenderSettings := do
  let invalidSettings (message : JSString) : ClientMessageRefusal :=
    ⟨js "invalid-render-settings", message, some revision⟩
  let (dpi, theme) ← match value with
    | none => pure ((TEXPRESSO_WS_LIMITS.defaultDpi : Int), none)
    | some render => do
        let some render := render.record?
          | throw (invalidSettings (js "render.dpi must be an integer."))
        let dpi ← match Json.field render (js "dpi") with
          | none => pure (TEXPRESSO_WS_LIMITS.defaultDpi : Int)
          | some (.number (.integer dpi) _) => pure dpi
          | some _ => throw (invalidSettings (js "render.dpi must be an integer."))
        let theme ← match Json.field render (js "theme") with
          | none => pure none
          | some theme =>
              let colors := do
                let theme ← theme.record?
                let foreground ← validRgbColor (Json.field theme (js "foreground"))
                let background ← validRgbColor (Json.field theme (js "background"))
                pure (TexpressoRenderTheme.mk foreground background)
              match colors with
              | some theme => pure (some theme)
              | none => throw (invalidSettings
                  (js "render.theme foreground and background must be RGB integers between 0x000000 and 0xffffff."))
        pure (dpi, theme)
  if dpi < TEXPRESSO_WS_LIMITS.minDpi ∨ (TEXPRESSO_WS_LIMITS.maxDpi : Int) < dpi then
    throw (invalidSettings (js "render.dpi must be between " ++ jsNat TEXPRESSO_WS_LIMITS.minDpi
      ++ js " and " ++ jsNat TEXPRESSO_WS_LIMITS.maxDpi ++ js "."))
  return ⟨dpi.toNat, theme⟩

/-- `files.find((file) => file.path === mainFilePath)`, when it is a text file -/
def mainTextFile (files : List ProjectFile) (mainFilePath : JSString) : Option ProjectFile :=
  match files.find? fun file => file.path == mainFilePath with
  | some (.text path content) => some (.text path content)
  | _ => none

/-- `validateInitialize` -/
def validateInitialize (platform : Platform) (value : List (JSString × Json)) :
    Except ClientMessageRefusal TexpressoInitializeMessage := do
  let version := Json.field value (js "protocolVersion")
  if version.bind Json.number? ≠ some (.integer TEXPRESSO_WS_PROTOCOL_VERSION) then
    throw ⟨js "unsupported-protocol-version", js "Unsupported private protocolVersion "
      ++ (version.map Json.text).getD (js "undefined") ++ js "; expected "
      ++ jsNat TEXPRESSO_WS_PROTOCOL_VERSION ++ js ".", none⟩
  let some revision := validRevision (Json.field value (js "revision"))
    | throw ⟨js "invalid-revision",
        js "Initialization revision must be a positive safe integer.", none⟩
  let invalidProject (message : JSString) : ClientMessageRefusal :=
    ⟨js "invalid-project", message, some revision⟩
  let mainFilePath ← (validatePrivateProjectPath platform (Json.field value (js "mainFilePath"))
    (js "mainFilePath")).mapError invalidProject
  let filesMessage := js "files must contain between 1 and "
    ++ jsNat TEXPRESSO_WS_LIMITS.maxProjectFiles ++ js " project files."
  let some files := (Json.field value (js "files")).bind Json.array?
    | throw (invalidProject filesMessage)
  if files.length = 0 ∨ TEXPRESSO_WS_LIMITS.maxProjectFiles < files.length then
    throw (invalidProject filesMessage)
  let state ← validateInitializeFiles platform revision 0 files ⟨[], [], 0⟩
  if (mainTextFile state.files mainFilePath).isNone then
    throw (invalidProject (js "mainFilePath must identify a supplied text file."))
  let render ← validateRender revision (Json.field value (js "render"))
  return ⟨TEXPRESSO_WS_PROTOCOL_VERSION, revision, mainFilePath, render, state.files⟩

/-! ## Changes -/

/-- `validateChange` -/
def validateChange (platform : Platform) (value : List (JSString × Json)) :
    Except ClientMessageRefusal TexpressoChangeMessage := do
  let some revision := validRevision (Json.field value (js "revision"))
    | throw ⟨js "invalid-revision", js "Change revision must be a positive safe integer.", none⟩
  let invalidChange (message : JSString) : ClientMessageRefusal :=
    ⟨js "invalid-change", message, some revision⟩
  let path ← (validatePrivateProjectPath platform (Json.field value (js "path"))
    (js "path")).mapError invalidChange
  let some text := (Json.field value (js "text")).bind Json.string?
    | throw (invalidChange (js "change.text must be a string."))
  let some range := isRange (Json.field value (js "range"))
    | throw (invalidChange
        (js "change.range must contain non-negative integer UTF-16 start/end positions."))
  return ⟨revision, path, range, text⟩

/-- `validateTexpressoClientMessage` -/
def validateTexpressoClientMessage (platform : Platform) (value : Json) :
    Except ClientMessageRefusal TexpressoClientMessage := do
  let malformed : ClientMessageRefusal :=
    ⟨js "malformed-message", js "WebSocket messages must be JSON objects with a string type.", none⟩
  let some value := value.record? | throw malformed
  let some type := (Json.field value (js "type")).bind Json.string? | throw malformed
  if type = js "shutdown" then return .shutdown
  if type = js "initialize" then .initializeSession <$> validateInitialize platform value
  else if type = js "change" then .change <$> validateChange platform value
  else throw ⟨js "unknown-message-type", js "Unknown TeXpresso message type: " ++ type ++ js ".", none⟩

/-! ## What an accepted project contains -/

theorem mainTextFile_mem {files : List ProjectFile} {mainFilePath : JSString}
    (h : (mainTextFile files mainFilePath).isNone ≠ true) :
    ∃ content, ProjectFile.text mainFilePath content ∈ files := by
  unfold mainTextFile at h
  split at h
  · next path content hfind =>
      have hpath : path = mainFilePath := by
        simpa [ProjectFile.path] using List.find?_some hfind
      exact ⟨content, hpath ▸ List.mem_of_find?_eq_some hfind⟩
  · exact absurd rfl h

theorem validateInitialize_main {platform : Platform} {value : List (JSString × Json)}
    {message : TexpressoInitializeMessage} (h : validateInitialize platform value = .ok message) :
    ∃ content, ProjectFile.text message.mainFilePath content ∈ message.files := by
  unfold validateInitialize at h
  simp only [bind, Except.bind, pure, Except.pure, throw, throwThe, MonadExceptOf.throw] at h
  -- every check but the last one passed, or there would be no message
  repeat' split at h
  all_goals first
    | contradiction
    | skip
  next hmain _ _ _ =>
    obtain rfl := Except.ok.inj h
    exact mainTextFile_mem hmain

/-- **The main file of an accepted project** is one of its text files. -/
theorem validateTexpressoClientMessage_initialize {platform : Platform} {value : Json}
    {message : TexpressoInitializeMessage}
    (h : validateTexpressoClientMessage platform value = .ok (.initializeSession message)) :
    ∃ content, ProjectFile.text message.mainFilePath content ∈ message.files := by
  unfold validateTexpressoClientMessage at h
  simp only [pure, Except.pure, throw, throwThe, MonadExceptOf.throw, Functor.map, Except.map] at h
  repeat' split at h
  all_goals first
    | contradiction
    | skip
  all_goals cases h
  next heq => exact validateInitialize_main heq

end Typr
