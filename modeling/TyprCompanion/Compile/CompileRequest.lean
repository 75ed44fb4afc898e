import TyprCompanion.Compile.ProjectFiles

/-!
# Compile requests

`validateCompileRequest` (`server.ts`): what the compile endpoint accepts.

* `CompileRequest` — an accepted request.
* `validateCompileRequest` — the checks in the order of the source, with their messages.
-/

namespace Typr

def MAX_PROJECT_FILES : Nat := 512

def MAX_PROJECT_BYTES : Nat := 25 * 1024 * 1024

/-- A request as the compiler gets it. -/
structure CompileRequest where
  protocolVersion : Int
  engine : JSString
  mainFilePath : JSString
  files : List ProjectFile
  deriving DecidableEq

/-- A unit `trim` removes. -/
def isJsWhitespace (u : CodeUnit) : Bool :=
  let n := u.toNat
  n == 0x20 || (0x09 ≤ n && n ≤ 0x0D) || n == 0xA0 || n == 0x1680 || (0x2000 ≤ n && n ≤ 0x200A) ||
    n == 0x2028 || n == 0x2029 || n == 0x202F || n == 0x205F || n == 0x3000 || n == 0xFEFF

/-- The loop over the files: the paths seen and the decoded bytes so far. -/
structure CompileFiles where
  files : List ProjectFile
  seenPaths : List JSString
  decodedProjectBytes : Nat

/-- `files[${index}]` -/
def fileLabel (index : Nat) : JSString := js "files[" ++ jsNat index ++ js "]"

/-- One round of the loop of `validateCompileRequest`. -/
def validateCompileFile (platform : Platform) (index : Nat) (file : Json) (state : CompileFiles) :
    Except JSString CompileFiles := do
  let some file := file.record? | throw (fileLabel index ++ js " must be an object.")
  let filePath ← validateProjectPath platform (Json.field file (js "path"))
    (fileLabel index ++ js ".path")
  if state.seenPaths.contains filePath then
    throw (fileLabel index ++ js ".path duplicates another project file.")
  let seenPaths := filePath :: state.seenPaths
  let kind := (Json.field file (js "kind")).bind Json.string?
  let content := (Json.field file (js "content")).bind Json.string?
  if kind = some (js "text") then
    let some content := content
      | throw (fileLabel index ++ js ".content must be a string for a text file.")
    return ⟨state.files ++ [.text filePath content], seenPaths,
      state.decodedProjectBytes + JSString.byteLength content⟩
  if kind = some (js "binary") then
    let invalidContent := fileLabel index ++ js " must contain valid base64 binary content."
    if (Json.field file (js "encoding")).bind Json.string? ≠ some (js "base64") then
      throw invalidContent
    let some content := content | throw invalidContent
    if isBase64 content = false then throw invalidContent
    return ⟨state.files ++ [.binary filePath content], seenPaths,
      state.decodedProjectBytes + (fromBase64 content).length⟩
  throw (fileLabel index ++ js ".kind must be \"text\" or \"binary\".")

/-- The loop of `validateCompileRequest`. -/
def validateCompileFiles (platform : Platform) :
    Nat → List Json → CompileFiles → Except JSString CompileFiles
  | _, [], state => .ok state
  | index, file :: rest, state => do
      let state ← validateCompileFile platform index file state
      validateCompileFiles platform (index + 1) rest state

/-- `validateCompileRequest` -/
def validateCompileRequest (platform : Platform) (value : Json) : Except JSString CompileRequest := do
  let some value := value.record? | throw (js "Request body must be a JSON object.")
  let some (.integer protocolVersion) := (Json.field value (js "protocolVersion")).bind Json.number?
    | throw (js "protocolVersion must be an integer.")
  let some engine := (Json.field value (js "engine")).bind Json.string?
    | throw (js "engine must be a non-empty string.")
  if engine.all isJsWhitespace then throw (js "engine must be a non-empty string.")
  let mainFilePath ← validateProjectPath platform (Json.field value (js "mainFilePath"))
    (js "mainFilePath")
  let some files := (Json.field value (js "files")).bind Json.array?
    | throw (js "files must be an array.")
  if MAX_PROJECT_FILES < files.length then
    throw (js "files must contain at most " ++ jsNat MAX_PROJECT_FILES ++ js " entries.")
  let state ← validateCompileFiles platform 0 files ⟨[], [], 0⟩
  if state.seenPaths.contains mainFilePath = false then
    throw (js "mainFilePath must identify one of the supplied files.")
  if MAX_PROJECT_BYTES < state.decodedProjectBytes then
    throw (js "Decoded project files exceed the 25 MiB compilation limit.")
  return ⟨protocolVersion, engine, mainFilePath, state.files⟩

end Typr
