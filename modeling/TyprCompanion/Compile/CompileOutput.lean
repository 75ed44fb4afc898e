import TyprCompanion.Compile.MissingFiles
import TyprCompanion.Compile.ProjectFidelity
import TyprCompanion.Compile.Synctex

/-!
# What a compilation returns

The end of `compileProject` of `server.ts`: the log, the PDF and the SyncTeX data that the compiler left
in the temporary directory, on a POSIX host.

* `OutputOp` — the calls of `node:fs` that read.
* `collectCompileLog`, `findOutputPdf`, `readPdf`, `findOutputSynctex`, `extractLatexError` — the
  functions.
* `collectOutput` — the result made of them.
* `OutputEntry`, `Deliverable` — what lies at the places of the output, and when it is returned.
* **`collectOutput_exact`** — a compilation succeeds exactly when the output can be returned, and then
  its bytes are those of the files.
-/

namespace Typr

open Core

/-! ## The calls -/

/-- What reading the output waits for. -/
inductive OutputOp where
  | lstat (path : JSString)
  /-- `open(path, "r")` -/
  | openFile (path : JSString)
  /-- `handle.read(buffer, 0, maxBytes, 0)` -/
  | read (handle : Handle) (maxBytes : Nat)
  /-- `handle.stat()` -/
  | stat (handle : Handle)
  | close (handle : Handle)
  | readFile (path : JSString)

/-- The fields of `Stats` that are read. -/
structure OutputStat where
  kind : Kind
  size : Nat

abbrev OutputOp.Result : OutputOp → Type
  | lstat _ => OutputStat
  | openFile _ => Handle
  | read .. => Bytes
  | stat _ => Nat
  | close _ => Unit
  | readFile _ => Bytes

abbrev OutputOp.Reply (op : OutputOp) : Type := Except Errno op.Result

namespace OutputOp

/-- The content a handle reads. -/
def content (d : Disk FileName) : Handle → Except Errno Bytes
  | .file i => .ok (d.inodes i).content
  | .other => .error .isDirectory

/-- The entry a path names when links are followed. -/
def handle (fits : Location → Bool) (d : Disk FileName) (path : JSString) : Except Errno Handle :=
  if fits (pathLocation path) = false then .error .fault
  else match d.locateOpen (pathLocation path) with
    | .error e => .error e
    | .ok location => match d.entryAt location with
        | none => .error .noEntry
        | some (.file i) => .ok (.file i)
        | some _ => .ok .other

/-- The reply of a call that meets no fault; `fits` tells which locations the file system can store. -/
def exec (fits : Location → Bool) (d : Disk FileName) : (op : OutputOp) → op.Reply
  | lstat path =>
      if fits (pathLocation path) = false then .error .fault
      else match d.locate false (pathLocation path) with
        | .error e => .error e
        | .ok location => match d.entryAt location with
            | none => .error .noEntry
            | some (.file i) => .ok ⟨.file, (d.inodes i).content.length⟩
            | some .dir => .ok ⟨.dir, 0⟩
            | some (.link _) => .ok ⟨.link, 0⟩
            | some .special => .ok ⟨.special, 0⟩
  | openFile path => handle fits d path
  | read (.file i) maxBytes => .ok ((d.inodes i).content.take maxBytes)
  | read .other _ => .error .isDirectory
  | stat (.file i) => .ok (d.inodes i).content.length
  | stat .other => .ok 0
  | close _ => .ok ()
  | readFile path => match handle fits d path with
      | .error e => .error e
      | .ok opened => content d opened

/-- The replies of a call and, when the environment is `faulty`, a failure of its own; nothing is
changed. -/
def Exec (fits : Location → Bool) (faulty : Bool) (op : OutputOp) (d : Disk FileName) (reply : op.Reply)
    (t : Disk FileName) : Prop :=
  t = d ∧ (reply = op.exec fits d ∨ faulty = true ∧ reply = .error .fault)

end OutputOp

/-! ## The programs -/

def MAX_PDF_BYTES : Nat := 32 * 1024 * 1024
def MAX_LOG_BYTES : Nat := 1024 * 1024

/-- What the programs throw: an error of a call, or another one. -/
inductive OutputFailure where
  | errno (op : OutputOp) (e : Errno)
  | fault (fault : CompileFault)

abbrev OutputProg (α : Type) := Prog OutputOp OutputOp.Reply OutputFailure α

/-- `basename(path, suffix)` of a path with another name than the suffix -/
def basenameWithout (path suffix : JSString) : JSString :=
  let component := basename .posix path
  if component.endsWith suffix = true ∧ component ≠ suffix then
    component.take (component.length - suffix.length)
  else component

/-- `replaceExtension` -/
def replaceExtension (filePath extension : JSString) : JSString :=
  joinPosix [dirnamePosix filePath, basenameWithout filePath (extname .posix filePath) ++ extension]

namespace CompileOutput

/-- Await a call; its error is thrown. -/
def await (op : OutputOp) : OutputProg op.Result :=
  .perform op fun reply => Prog.ofExcept (Except.mapError (OutputFailure.errno op) reply)

/-- `resolveProjectPath`; its error is thrown -/
def resolved (workspace mainFilePath : JSString) : OutputProg JSString :=
  Prog.ofExcept (Except.mapError (fun message => OutputFailure.fault (.other message))
    (resolveProjectPath workspace mainFilePath))

/-- `readTextCapped` -/
def readTextCapped (path : JSString) (maxBytes : Nat) : OutputProg JSString := do
  let handle ← await (.openFile path)
  let body : OutputProg JSString := do
    let buffer ← await (.read handle maxBytes)
    let size ← await (.stat handle)
    return JSString.decodeUtf8 buffer ++
      if maxBytes < size then js "\n[log truncated at 1 MiB]" else []
  body.ensuring (await (.close handle))

/-- What a compiler said and what it wrote to its log. -/
def wholeLog (nativeResult : NativeProcessResult) (compilerLog : JSString) : JSString :=
  JSString.join (unit '\n') ([nativeResult.stdout, nativeResult.stderr, compilerLog].filter (· ≠ []))

/-- `collectCompileLog` -/
def collectCompileLog (workspace mainFilePath : JSString) (nativeResult : NativeProcessResult) :
    OutputProg JSString := do
  let path ← resolved workspace mainFilePath
  let compilerLog ← (readTextCapped (replaceExtension path (js ".log")) MAX_LOG_BYTES).tryCatch
    fun _ => pure []
  return wholeLog nativeResult compilerLog

/-- A `CompileOutputError` -/
def outputError (code message : String) : OutputFailure := .fault (.compileOutput (js code) (js message))

/-- What `findOutputPdf` and `findOutputSynctex` do: a file that is missing is none. -/
def findOutput (extension : JSString) (maxBytes : Nat) (invalid tooLarge : String)
    (workspace mainFilePath : JSString) : OutputProg (Option JSString) := do
  let path ← resolved workspace mainFilePath
  let expected := replaceExtension path extension
  let body : OutputProg (Option JSString) := do
    let info ← await (.lstat expected)
    if info.kind ≠ .file then throw (outputError "compiler-output-invalid" invalid)
    else if maxBytes < info.size then throw (outputError "compiler-output-too-large" tooLarge)
    else return some expected
  body.tryCatch fun
    | .errno _ .noEntry => pure none
    | error => throw error

def findOutputPdf : JSString → JSString → OutputProg (Option JSString) :=
  findOutput (js ".pdf") MAX_PDF_BYTES "Compiler output is not a regular PDF file."
    "Compiler PDF exceeds 32 MiB."

def findOutputSynctex : JSString → JSString → OutputProg (Option JSString) :=
  findOutput (js ".synctex.gz") MAX_SYNCTEX_BYTES "Compiler SyncTeX output is not a regular file."
    "Compiler SyncTeX output exceeds 32 MiB."

/-- `readPdf` -/
def readPdf (path : JSString) : OutputProg Bytes := do
  let content ← await (.readFile path)
  if MAX_PDF_BYTES < content.length then
    throw (outputError "compiler-output-too-large" "Compiler PDF exceeds 32 MiB.")
  else return content

/-! ### The error in a log -/

/-- A group of a pattern captures if it is the one that is asked for. -/
def groupIf (capture : Bool) (r : Regex CodeUnit) : Regex CodeUnit := if capture then .capture r else r

/-- `[^:\n]+\.tex` -/
def texPath : Regex CodeUnit :=
  .seq (.many (fun u => u != unit ':' && u != unit '\n') 1 none false) (exactly ".tex")

/-- `\d+` -/
def digits : Regex CodeUnit := .many isDecimalDigit 1 none false

/-- `.+` -/
def restOfLine : Regex CodeUnit := .many (fun u => !JSString.isLineTerminator u) 1 none false

/-- `(?:\.\/)?([^:\n]+\.tex):(\d+):\s+(.+)`, with one of its groups -/
def fileLinePattern (group : Nat) : Regex CodeUnit :=
  .concat [.opt (exactly "./"), groupIf (group == 1) texPath, exactly ":", groupIf (group == 2) digits,
    exactly ":", blanks, groupIf (group == 3) restOfLine]

/-- The first match behind `(?:^|\n)`. -/
def firstAfterNewline (r : Regex CodeUnit) (text : JSString) : Option JSString :=
  match r.run text with
  | way :: _ => way.1
  | [] => (text.tails.findSome? fun rest => ((Regex.seq (exactly "\n") r).run rest).head?).bind Prod.fst

/-- The first match behind `^` with the flag `m`. -/
def firstAtLine (r : Regex CodeUnit) (text : JSString) : Option JSString :=
  match r.run text with
  | way :: _ => way.1
  | [] => (text.tails.findSome? fun rest =>
      ((Regex.seq (.one JSString.isLineTerminator) r).run rest).head?).bind Prod.fst

/-- `!\s*(.+)`, at the end of a line for what `.+` takes -/
def bangPattern : Regex CodeUnit :=
  .concat [exactly "!", .many JSString.isWhiteSpace 0 none false, .capture restOfLine]

/-- `l\.(\d+)` -/
def linePattern : Regex CodeUnit := .seq (exactly "l.") (.capture digits)

/-- `Number.parseInt(text, 10)` of decimal digits -/
def parseDigits (text : JSString) : Nat := text.foldl (fun n u => 10 * n + (u.toNat - 0x30)) 0

/-- `{ message, path, line }` -/
structure LatexError where
  message : JSString
  path : Option JSString
  line : Option Nat

/-- `extractLatexError` -/
def extractLatexError (log : JSString) : LatexError :=
  match firstAfterNewline (fileLinePattern 1) log, firstAfterNewline (fileLinePattern 2) log,
      firstAfterNewline (fileLinePattern 3) log with
  | some path, some line, some message => ⟨message.trim, some path, some (parseDigits line)⟩
  | _, _, _ =>
      let bang := ((firstAtLine bangPattern log).map JSString.trim).filter (· ≠ [])
      ⟨bang.getD (js "Native LaTeX compilation failed; see log for details."), none,
        (firstAtLine linePattern log).map parseDigits⟩

/-! ### The result -/

variable (zlib : Zlib)

/-- `relative(workspace, path).replaceAll("\\", "/")` -/
def clientPath (workspace path : JSString) : JSString := portable (relativePosix workspace path)

/-- `readSynctex` -/
def readSynctexFile (path workspace : JSString) : OutputProg Bytes := do
  let content ← await (.readFile path)
  Prog.ofExcept (Except.mapError OutputFailure.fault (readSynctex zlib content workspace))

/-- The `synctex` of a result. -/
def synctexOutput (workspace : JSString) : Option JSString → OutputProg (Option (JSString × JSString))
  | none => pure none
  | some path => do
      let content ← readSynctexFile zlib path workspace
      return some (clientPath workspace path, toBase64 content)

/-- The result with a PDF. -/
def deliverOutput (engine workspace mainFilePath log pdfPath : JSString) : OutputProg CompileResult := do
  let synctexPath ← findOutputSynctex workspace mainFilePath
  let pdf ← readPdf pdfPath
  let synctex ← synctexOutput zlib workspace synctexPath
  return .success engine (clientPath workspace pdfPath, toBase64 pdf) synctex log

/-- `compileProject` behind the compiler, up to its `catch` -/
def collectOutput (engine workspace mainFilePath : JSString) (nativeResult : NativeProcessResult) :
    OutputProg CompileResult := do
  let log ← collectCompileLog workspace mainFilePath nativeResult
  let pdfPath ← findOutputPdf workspace mainFilePath
  match nativeResult.exitCode, pdfPath with
  | some 0, some pdfPath => deliverOutput zlib engine workspace mainFilePath log pdfPath
  | _, _ =>
      let latexError := extractLatexError log
      return .failure engine (js "latex-compile-failed") latexError.message log
        (some (latexError.path.getD mainFilePath)) (latexError.line.filter (· ≠ 0))

end CompileOutput

/-! ## The places of the output -/

section Places

variable {front base : List JSString} {last name path extension : JSString}

/-- A path that ends with a plain segment. -/
theorem basename_slash (before : JSString) (h : PlainSegment last) :
    basename .posix (before ++ unit '/' :: last) = last := by
  have hne : last.reverse ≠ [] := by simpa using h.nonempty
  obtain ⟨u, rest, hreverse⟩ := List.exists_cons_of_ne_nil hne
  have hall : ∀ u ∈ last.reverse, (!(u == unit '/')) = true := by
    intro u hu
    have : u ≠ unit '/' := fun heq => h.unsplit (heq ▸ List.mem_reverse.mp hu)
    simpa using this
  have hu : (u == unit '/') = false := by
    simpa using hall u (by rw [hreverse]; exact List.mem_cons_self)
  have hpath : (before ++ unit '/' :: last).reverse = last.reverse ++ unit '/' :: before.reverse := by
    simp
  rw [basename, lastComponent, hpath]
  have hdrop : (last.reverse ++ unit '/' :: before.reverse).dropWhile (· == unit '/')
      = last.reverse ++ unit '/' :: before.reverse := by
    rw [hreverse, List.cons_append, List.dropWhile_cons_of_neg (by simp [hu])]
  rw [hdrop, List.takeWhile_append_of_pos hall, List.takeWhile_cons_of_neg (by simp), List.append_nil,
    List.reverse_reverse]

theorem absolutePath_concat (front : List JSString) (last : JSString) :
    ∃ before, absolutePath (front ++ [last]) = before ++ unit '/' :: last := by
  by_cases hfront : front = []
  · exact ⟨[], by rw [hfront]; rfl⟩
  · refine ⟨absolutePath front, ?_⟩
    rw [absolutePath, absolutePath, JSString.join_append hfront (List.cons_ne_nil _ _)]
    rfl

/-- A plain segment is its own last component. -/
theorem basename_plain (h : PlainSegment last) : basename .posix last = last := by
  have hseparator : ∀ u ∈ last, (u == unit '/') = (u == unit '/') := fun _ _ => rfl
  have hend : JSString.endsWith last [unit '/'] = false := by
    rw [Bool.eq_false_iff]
    intro hend
    obtain ⟨body, hbody⟩ := List.isSuffixOf_iff_suffix.mp hend
    exact h.unsplit (hbody ▸ List.mem_append_right _ (List.mem_singleton_self _))
  rw [basename, lastComponent_eq_lastSegment hseparator h.nonempty hend, lastSegment,
    JSString.split_of_not_mem h.unsplit]
  rfl

theorem joinPosix_absolutePath (hfront : ∀ segment ∈ front, PlainSegment segment)
    (hname : PlainSegment name) :
    joinPosix [absolutePath front, name] = absolutePath (front ++ [name]) := by
  have hfilter : [absolutePath front, name].filter (· ≠ []) = [absolutePath front, name] := by
    rw [List.filter_eq_self]
    intro part hpart
    rcases List.mem_cons.mp hpart with rfl | hpart
    · simp [absolutePath]
    · rw [List.mem_singleton.mp hpart]
      simpa using hname.nonempty
  have hjoin : JSString.join (unit '/') [absolutePath front, name]
      = absolutePath front ++ unit '/' :: name := rfl
  have hsegments : normalizeSegments true
      (JSString.split (unit '/') (absolutePath front ++ unit '/' :: name)) = front ++ [name] := by
    rw [JSString.split_append, JSString.split_of_not_mem hname.unsplit, normalizeSegments_append,
      normalizeSegments_absolutePath hfront, List.foldl_cons, List.foldl_nil,
      keepSegment_plain _ hname, List.reverse_cons, List.reverse_reverse]
  have hend : JSString.endsWith (absolutePath front ++ unit '/' :: name) [unit '/'] = false := by
    rw [Bool.eq_false_iff]
    intro hend
    obtain ⟨body, final, rfl⟩ : ∃ body final, name = body ++ [final] :=
      ⟨_, _, (List.dropLast_append_getLast hname.nonempty).symm⟩
    have hsuffix := List.isSuffixOf_iff_suffix.mp hend
    rw [← List.cons_append, ← List.append_assoc] at hsuffix
    obtain ⟨rest, hrest⟩ := hsuffix
    have hfinal := (List.append_inj' hrest rfl).2
    exact hname.unsplit (hfinal ▸ List.mem_append_right _ (List.mem_singleton_self _))
  have habsolute : (absolutePath front ++ unit '/' :: name).isAbsolutePosix = true := rfl
  simp only [joinPosix, hfilter, hjoin, normalizePosix, habsolute, hsegments, hend, if_true,
    Bool.false_eq_true, false_and, if_false]
  rw [if_neg (by simp [absolutePath])]
  rfl

/-- The name of a file with another extension. -/
def outputName (name extension : JSString) : JSString :=
  basenameWithout name (extname .posix name) ++ extension

theorem mem_outputName {u : CodeUnit} (h : PlainSegment name) (hu : u ∈ outputName name extension) :
    u ∈ name ∨ u ∈ extension := by
  rw [outputName, basenameWithout, basename_plain h] at hu
  rcases List.mem_append.mp hu with hstem | hextension
  · split at hstem
    · exact .inl (List.mem_of_mem_take hstem)
    · exact .inl hstem
  · exact .inr hextension

/-- An extension that makes a plain segment of every name. -/
structure IsExtension (extension : JSString) : Prop where
  long : 3 ≤ extension.length
  unsplit : unit '/' ∉ extension
  portable : (0x5C : CodeUnit) ∉ extension

theorem plain_outputName (h : PlainSegment name) (hextension : IsExtension extension) :
    PlainSegment (outputName name extension) := by
  have hlong : 3 ≤ (outputName name extension).length := by
    rw [outputName, List.length_append]
    exact Nat.le_trans hextension.long (Nat.le_add_left _ _)
  refine ⟨?_, ?_, ?_, fun hmem => ?_⟩
  · exact fun heq => absurd (heq ▸ hlong) (by decide)
  · exact fun heq => absurd (heq ▸ hlong) (by decide)
  · exact fun heq => absurd (heq ▸ hlong) (by decide)
  · rcases mem_outputName h hmem with hname | hmem
    · exact h.unsplit hname
    · exact hextension.unsplit hmem

/-- **Replacing the extension** of a resolved path changes its last segment. -/
theorem replaceExtension_eq (hfront : ∀ segment ∈ front, PlainSegment segment) (hlast : PlainSegment last)
    (hextension : IsExtension extension) :
    replaceExtension (absolutePath (front ++ [last])) extension
      = absolutePath (front ++ [outputName last extension]) := by
  have hall : ∀ segment ∈ front ++ [last], PlainSegment segment :=
    List.forall_mem_append.mpr ⟨hfront, List.forall_mem_singleton.mpr hlast⟩
  obtain ⟨before, hbefore⟩ := absolutePath_concat front last
  have hname : basenameWithout (absolutePath (front ++ [last]))
      (extname .posix (absolutePath (front ++ [last]))) ++ extension = outputName last extension := by
    rw [outputName, basenameWithout, basenameWithout, extname, extname, hbefore,
      basename_slash before hlast, basename_plain hlast]
  rw [replaceExtension, hname, dirnamePosix_absolutePath hall, List.dropLast_concat,
    joinPosix_absolutePath hfront (plain_outputName hlast hextension)]

theorem relativePosix_below {workspace : JSString} {segments : List JSString}
    (hbase : normalizeSegments true (JSString.split (unit '/') workspace) = base)
    (h : ∀ segment ∈ base ++ segments, PlainSegment segment) :
    relativePosix workspace (absolutePath (base ++ segments)) = JSString.join (unit '/') segments := by
  simp only [relativePosix, hbase, normalizeSegments_absolutePath h, commonLength_append, Nat.sub_self,
    List.replicate_zero, List.nil_append, List.drop_left]

/-- A path without backslashes is portable. -/
theorem portable_eq (h : (0x5C : CodeUnit) ∉ path) : portable path = path := by
  rw [portable, JSString.replaceAll]
  refine (List.map_congr_left fun u hu => ?_).trans (List.map_id path)
  rw [if_neg (by rintro rfl; exact h hu)]
  rfl

end Places

/-- The segments of what a compiler leaves beside a file of the project. -/
def ProjectFile.outputSegments (main : ProjectFile) (extension : JSString) : List JSString :=
  main.segments.dropLast ++ [outputName (main.segments.getLastD []) extension]

def ProjectFile.outputWay (main : ProjectFile) (extension : JSString) : Location :=
  (main.outputSegments extension).map fileName

/-- The path of an output in a temporary directory. -/
def outputPlace (workspace : JSString) (main : ProjectFile) (extension : JSString) : JSString :=
  absolutePath (normalizeSegments true (JSString.split (unit '/') workspace) ++
    main.outputSegments extension)

/-- A file that was written to a temporary directory, whose own directory is still there. -/
structure InWorkspace (workspace : JSString) (main : ProjectFile) (d : Disk FileName) : Prop where
  accepted : IsProjectPath .posix main.path
  inside : (main.segments.headD []).startsWith (js "..") = false
  named : main.segments ≠ []
  directory : d.entryAt (rootLocation workspace ++ main.way.dropLast) = some .dir

/-- The files of a project that was materialized. -/
theorem Placed.inWorkspace {fits : Location → Bool} {workspace : JSString} {files : List ProjectFile}
    {main : ProjectFile} {d : Disk FileName} (h : Placed (rootLocation workspace) files d)
    (hstorable : Storable fits (rootLocation workspace) files) (hmain : main ∈ files) :
    InWorkspace workspace main d := by
  have hnamed := hstorable.named main hmain
  refine ⟨hstorable.accepted main hmain, hstorable.inside main hmain, ?_, (h.dirs _).mpr (.inr ?_)⟩
  · exact fun hnil => hnamed (by rw [ProjectFile.way, hnil]; rfl)
  · refine ⟨main, hmain, List.dropLast_prefix _, fun heq => ?_⟩
    have hlength := congrArg List.length heq
    rw [List.length_dropLast] at hlength
    have := List.length_pos_iff.mpr hnamed
    omega

section Outputs

variable {workspace extension : JSString} {main : ProjectFile} {d : Disk FileName}

theorem plain_workspace (workspace : JSString) :
    ∀ segment ∈ normalizeSegments true (JSString.split (unit '/') workspace), PlainSegment segment :=
  fun segment hsegment => plain_keep (List.forall_mem_nil _)
    (fun _ hsegment => JSString.not_mem_of_mem_split hsegment) segment (List.mem_reverse.mp hsegment)

theorem resolvePosix_nil (workspace : JSString) : resolvePosix workspace []
    = absolutePath (normalizeSegments true (JSString.split (unit '/') workspace)) := by
  have hnormal : normalizeSegments true (JSString.split (unit '/') workspace ++ [[]])
      = normalizeSegments true (JSString.split (unit '/') workspace) := by
    rw [normalizeSegments_append, List.foldl_cons, keepSegment_dot _ (.inl rfl), List.foldl_nil,
      List.reverse_reverse]
  exact congrArg absolutePath hnormal

theorem InWorkspace.split_segments (h : InWorkspace workspace main d) :
    main.segments = main.segments.dropLast ++ [main.segments.getLastD []] ∧
      (∀ segment ∈ main.segments.dropLast, PlainSegment segment) ∧
      PlainSegment (main.segments.getLastD []) := by
  have hplain := ProjectFile.plain_segments h.accepted
  have hlast : main.segments.getLastD [] = main.segments.getLast h.named := by
    rw [List.getLastD_eq_getLast?, List.getLast?_eq_some_getLast h.named]
    rfl
  refine ⟨?_, fun segment hsegment => hplain segment (List.dropLast_subset _ hsegment), ?_⟩
  · rw [hlast, List.dropLast_append_getLast]
  · rw [hlast]
    exact hplain _ (List.getLast_mem h.named)

theorem InWorkspace.plain_outputSegments (h : InWorkspace workspace main d)
    (hextension : IsExtension extension) :
    ∀ segment ∈ main.outputSegments extension, PlainSegment segment := by
  obtain ⟨-, hfront, hlast⟩ := h.split_segments
  exact List.forall_mem_append.mpr
    ⟨hfront, List.forall_mem_singleton.mpr (plain_outputName hlast hextension)⟩

theorem InWorkspace.plain_place (h : InWorkspace workspace main d) (hextension : IsExtension extension) :
    ∀ segment ∈ normalizeSegments true (JSString.split (unit '/') workspace)
      ++ main.outputSegments extension, PlainSegment segment :=
  List.forall_mem_append.mpr ⟨plain_workspace workspace, h.plain_outputSegments hextension⟩

/-- **Where an output is looked for.** -/
theorem InWorkspace.resolved (h : InWorkspace workspace main d) (hextension : IsExtension extension) :
    ∃ path, resolveProjectPath workspace main.path = .ok path ∧
      replaceExtension path extension = outputPlace workspace main extension := by
  obtain ⟨hsplit, hfront, hlast⟩ := h.split_segments
  refine ⟨_, (resolveProjectPath_eq (plain_workspace workspace) (resolvePosix_nil workspace)
    h.accepted).trans (if_neg (by rw [h.inside]; exact Bool.false_ne_true)), ?_⟩
  rw [hsplit, ← List.append_assoc, replaceExtension_eq (List.forall_mem_append.mpr
    ⟨plain_workspace workspace, hfront⟩) hlast hextension, outputPlace, ProjectFile.outputSegments,
    List.append_assoc]

theorem InWorkspace.pathLocation_place (h : InWorkspace workspace main d)
    (hextension : IsExtension extension) :
    pathLocation (outputPlace workspace main extension)
      = rootLocation workspace ++ main.outputWay extension := by
  rw [outputPlace, pathLocation_absolutePath (h.plain_place hextension), List.map_append, rootLocation,
    resolvePosix_nil, pathLocation_absolutePath (plain_workspace workspace)]
  rfl

/-- The path of an output that the client is told. -/
theorem InWorkspace.clientPath_place (h : InWorkspace workspace main d)
    (hextension : IsExtension extension) :
    CompileOutput.clientPath workspace (outputPlace workspace main extension)
      = JSString.join (unit '/') (main.outputSegments extension) := by
  have hclean : ∀ segment ∈ main.segments, (0x5C : CodeUnit) ∉ segment := by
    intro segment hsegment hu
    have hpath : (0x5C : CodeUnit) ∈ main.path := by
      rw [← JSString.join_split (unit '/') main.path]
      exact mem_join (List.mem_of_mem_filter hsegment) hu
    have hbackslash := h.accepted.noBackslash
    rw [JSString.includes, Bool.eq_false_iff, ne_eq, List.contains_iff_mem] at hbackslash
    exact hbackslash hpath
  obtain ⟨hsplit, -, hlast⟩ := h.split_segments
  rw [CompileOutput.clientPath, outputPlace, relativePosix_below rfl (h.plain_place hextension)]
  refine portable_eq fun hmem => ?_
  obtain ⟨segment, hsegment, hmem⟩ := mem_of_mem_join (by decide) hmem
  rcases List.mem_append.mp hsegment with hfront | hname
  · exact hclean segment (List.dropLast_subset _ hfront) hmem
  · rw [List.mem_singleton.mp hname] at hmem
    have hthere : main.segments.getLastD [] ∈ main.segments := by
      have := List.mem_append_right main.segments.dropLast
        (List.mem_singleton_self (main.segments.getLastD []))
      rwa [← hsplit] at this
    rcases mem_outputName hlast hmem with hname | hmem
    · exact hclean _ hthere hname
    · exact hextension.portable hmem

theorem isExtension_log : IsExtension (js ".log") := ⟨by decide, by decide, by decide⟩
theorem isExtension_pdf : IsExtension (js ".pdf") := ⟨by decide, by decide, by decide⟩
theorem isExtension_synctex : IsExtension (js ".synctex.gz") := ⟨by decide, by decide, by decide⟩

end Outputs

/-! ## What lies there -/

/-- What `lstat` tells of a place, and the content of a file. -/
inductive OutputEntry where
  | nothing
  | regular (content : Bytes)
  | irregular
  /-- the file system cannot store the name -/
  | unnameable

def outputEntryAt (fits : Location → Bool) (d : Disk FileName) (p : Location) : OutputEntry :=
  if fits p = false then .unnameable
  else match d.entryAt p with
    | none => .nothing
    | some (.file i) => .regular (d.inodes i).content
    | some _ => .irregular

section Calls

variable {fits : Location → Bool} {faulty : Bool} {d : Disk FileName} {path : JSString} {p : Location}
  {content : Bytes} {allowed : Disk FileName → OutputOp → Prop}

theorem CompileOutput.wp_await {op : OutputOp}
    {post : Except OutputFailure op.Result → Disk FileName → Prop} :
    (CompileOutput.await op).wp (OutputOp.Exec fits faulty) allowed post d ↔
      allowed d op ∧ post (Except.mapError (.errno op) (op.exec fits d)) d ∧
        (faulty = true → post (.error (.errno op .fault)) d) := by
  rw [CompileOutput.await, Prog.wp_perform]
  refine and_congr_right fun _ => ⟨fun h => ⟨?_, fun hfaulty => ?_⟩, fun h reply t hexec => ?_⟩
  · exact (Prog.wp_ofExcept _ _ _).mp (h _ d ⟨rfl, .inl rfl⟩)
  · exact (Prog.wp_ofExcept _ _ _).mp (h _ d ⟨rfl, .inr ⟨hfaulty, rfl⟩⟩)
  · obtain ⟨rfl, rfl | ⟨hfaulty, rfl⟩⟩ := hexec
    · exact (Prog.wp_ofExcept _ _ _).mpr h.1
    · exact (Prog.wp_ofExcept _ _ _).mpr (h.2 hfaulty)

theorem CompileOutput.exec_lstat (hne : p ≠ []) (hdir : d.entryAt p.dropLast = some .dir)
    (hpath : pathLocation path = p) :
    OutputOp.exec fits d (.lstat path) = match outputEntryAt fits d p with
      | .nothing => .error .noEntry
      | .regular content => .ok ⟨.file, content.length⟩
      | .irregular => match d.entryAt p with
          | some (.link _) => .ok ⟨.link, 0⟩
          | some .special => .ok ⟨.special, 0⟩
          | _ => .ok ⟨.dir, 0⟩
      | .unnameable => .error .fault := by
  simp only [OutputOp.exec, hpath, outputEntryAt, Disk.locate_eq hne hdir]
  cases fits p with
  | false => rfl
  | true =>
      simp only [Bool.true_eq_false, if_false]
      cases d.entryAt p with
      | none => rfl
      | some e => cases e <;> rfl

theorem CompileOutput.exec_readFile (hne : p ≠ []) (hdir : d.entryAt p.dropLast = some .dir)
    (hpath : pathLocation path = p) (hfound : outputEntryAt fits d p = .regular content) :
    OutputOp.exec fits d (.readFile path) = .ok content := by
  obtain ⟨front, name, rfl⟩ : ∃ front name, p = front ++ [name] :=
    ⟨_, _, (List.dropLast_append_getLast hne).symm⟩
  rw [List.dropLast_concat] at hdir
  rw [outputEntryAt] at hfound
  cases hfits : fits (front ++ [name]) with
  | false =>
      rw [if_pos hfits] at hfound
      cases hfound
  | true =>
      rw [if_neg (by simp [hfits])] at hfound
      cases hentry : d.entryAt (front ++ [name]) with
      | none =>
          rw [hentry] at hfound
          cases hfound
      | some e =>
          rw [hentry] at hfound
          cases e with
          | file i =>
              have hlink : ∀ target, d.entryAt (front ++ [name]) ≠ some (.link target) := by
                rw [hentry]
                exact fun target h => by cases h
              have hopen : OutputOp.handle fits d path = .ok (.file i) := by
                simp only [OutputOp.handle, hpath, hfits, Disk.locateOpen_eq hdir hlink, hentry,
                  Bool.true_eq_false, if_false]
              obtain rfl := OutputEntry.regular.inj hfound
              simp only [OutputOp.exec, hopen, OutputOp.content]
          | dir => cases hfound
          | link target => cases hfound
          | special => cases hfound

end Calls

/-- What `findOutput` makes of a place. -/
def OutputEntry.outcome (maxBytes : Nat) (invalid tooLarge : String) (path : JSString) :
    OutputEntry → Except OutputFailure (Option JSString)
  | nothing => .ok none
  | regular content =>
      if maxBytes < content.length then
        .error (CompileOutput.outputError "compiler-output-too-large" tooLarge)
      else .ok (some path)
  | irregular => .error (CompileOutput.outputError "compiler-output-invalid" invalid)
  | unnameable => .error (.errno (.lstat path) .fault)

/-- The text of a log of this content. -/
def cappedText (content : Bytes) : JSString :=
  JSString.decodeUtf8 (content.take MAX_LOG_BYTES) ++
    if MAX_LOG_BYTES < content.length then js "\n[log truncated at 1 MiB]" else []

/-- The text of the file that a path leads to. -/
def compilerLog (fits : Location → Bool) (d : Disk FileName) (path : JSString) : JSString :=
  match OutputOp.handle fits d path with
  | .ok (.file i) => cappedText (d.inodes i).content
  | _ => []

section Programs

variable {fits : Location → Bool} {faulty : Bool} {d : Disk FileName} {workspace : JSString}
  {main : ProjectFile} {extension : JSString} {allowed : Disk FileName → OutputOp → Prop}

theorem InWorkspace.outputWay (h : InWorkspace workspace main d) (extension : JSString) :
    rootLocation workspace ++ main.outputWay extension ≠ [] ∧
      d.entryAt (rootLocation workspace ++ main.outputWay extension).dropLast = some .dir := by
  have hway : rootLocation workspace ++ main.outputWay extension
      = (rootLocation workspace ++ main.way.dropLast)
        ++ [fileName (outputName (main.segments.getLastD []) extension)] := by
    rw [ProjectFile.outputWay, ProjectFile.outputSegments, List.map_append, ProjectFile.way,
      List.map_dropLast, List.append_assoc]
    rfl
  rw [hway, List.dropLast_concat]
  exact ⟨by simp, h.directory⟩

theorem InWorkspace.wp_resolved {post : Except OutputFailure JSString → Disk FileName → Prop}
    (h : InWorkspace workspace main d) (hextension : IsExtension extension)
    (hpost : ∀ path, replaceExtension path extension = outputPlace workspace main extension →
      post (.ok path) d) :
    (CompileOutput.resolved workspace main.path).wp (OutputOp.Exec fits faulty) allowed post d := by
  obtain ⟨path, hpath, hplace⟩ := h.resolved hextension
  rw [CompileOutput.resolved, Prog.wp_ofExcept, hpath]
  exact hpost path hplace

attribute [irreducible] CompileOutput.resolved

/-- **Looking for an output.** -/
theorem InWorkspace.wp_findOutput {maxBytes : Nat} {invalid tooLarge : String}
    {post : Except OutputFailure (Option JSString) → Disk FileName → Prop}
    (h : InWorkspace workspace main d) (hextension : IsExtension extension)
    (hallowed : allowed d (.lstat (outputPlace workspace main extension)))
    (hpost : post ((outputEntryAt fits d (rootLocation workspace ++ main.outputWay extension)).outcome
      maxBytes invalid tooLarge (outputPlace workspace main extension)) d)
    (hfault : faulty = true →
      post (.error (.errno (.lstat (outputPlace workspace main extension)) .fault)) d) :
    (CompileOutput.findOutput extension maxBytes invalid tooLarge workspace main.path).wp
      (OutputOp.Exec fits faulty) allowed post d := by
  obtain ⟨hne, hdir⟩ := h.outputWay extension
  rw [CompileOutput.findOutput, Prog.wp_bind]
  refine h.wp_resolved hextension fun path hplace => ?_
  rw [Prog.afterBind_ok, hplace]
  dsimp only
  rw [Prog.wp_tryCatch, Prog.wp_bind, CompileOutput.wp_await,
    CompileOutput.exec_lstat hne hdir (h.pathLocation_place hextension)]
  refine ⟨hallowed, ?_, hfault⟩
  cases hfound : outputEntryAt fits d (rootLocation workspace ++ main.outputWay extension) with
  | nothing =>
      rw [hfound] at hpost
      exact hpost
  | regular content =>
      rw [hfound, OutputEntry.outcome] at hpost
      show Prog.wp _ _ _ _ d
      dsimp only
      rw [if_neg (not_not_intro rfl)]
      split at hpost
      next hlarge =>
        rw [if_pos hlarge]
        exact hpost
      next hsmall =>
        rw [if_neg hsmall]
        exact hpost
  | irregular =>
      rw [hfound] at hpost
      dsimp only
      split
      next => exact hpost
      next => exact hpost
      next => exact hpost
  | unnameable =>
      rw [hfound] at hpost
      exact hpost

attribute [irreducible] CompileOutput.findOutput

/-- **Reading the log**: the text of the file its name leads to; a failure leaves none. -/
theorem wp_readLog {path : JSString} {post : Except OutputFailure JSString → Disk FileName → Prop}
    (hopen : allowed d (.openFile path))
    (hhandle : ∀ handle, allowed d (.read handle MAX_LOG_BYTES) ∧ allowed d (.stat handle) ∧
      allowed d (.close handle))
    (hpost : ∀ text, text = compilerLog fits d path ∨ faulty = true ∧ text = [] → post (.ok text) d) :
    ((CompileOutput.readTextCapped path MAX_LOG_BYTES).tryCatch fun _ => pure []).wp
      (OutputOp.Exec fits faulty) allowed post d := by
  rw [Prog.wp_tryCatch]
  have hfault : ∀ e, faulty = true →
      Prog.afterTry (OutputOp.Exec fits faulty) allowed post (fun _ => pure []) (.error e) d :=
    fun e hfaulty => hpost [] (.inr ⟨hfaulty, rfl⟩)
  have hfailed : ∀ e, compilerLog fits d path = [] →
      Prog.afterTry (OutputOp.Exec fits faulty) allowed post (fun _ => pure []) (.error e) d :=
    fun e hnone => hpost [] (.inl hnone.symm)
  -- the handle is closed whatever the body does; the close may fail on its own
  have hclose : ∀ (handle : Handle) (r : Except OutputFailure JSString),
      Prog.afterTry (OutputOp.Exec fits faulty) allowed post (fun _ => pure []) r d →
      allowed d (.close handle) ∧
        Prog.afterTry (OutputOp.Exec fits faulty) allowed post (fun _ => pure []) r d ∧
        (faulty = true → Prog.afterTry (OutputOp.Exec fits faulty) allowed post (fun _ => pure [])
          (.error (.errno (.close handle) .fault)) d) :=
    fun handle r hr => ⟨(hhandle handle).2.2, hr, hfault (.errno (.close handle) .fault)⟩
  rw [CompileOutput.readTextCapped, Prog.wp_bind, CompileOutput.wp_await]
  refine ⟨hopen, ?_, hfault (.errno (.openFile path) .fault)⟩
  rw [compilerLog] at hpost hfailed
  cases hopened : OutputOp.handle fits d path with
  | error e =>
      rw [hopened] at hfailed
      rw [OutputOp.exec, hopened]
      exact hfailed (.errno (.openFile path) e) rfl
  | ok handle =>
      rw [hopened] at hpost hfailed
      rw [OutputOp.exec, hopened]
      show Prog.wp _ _ _ _ d
      dsimp only
      rw [Prog.wp_ensuring, Prog.wp_bind, CompileOutput.wp_await]
      refine ⟨(hhandle handle).1, ?_, fun hfaulty =>
        CompileOutput.wp_await.mpr (hclose handle (.error (.errno (.read handle MAX_LOG_BYTES) .fault))
          (hfault _ hfaulty))⟩
      cases handle with
      | other => 
          exact CompileOutput.wp_await.mpr (hclose .other
            (.error (.errno (.read .other MAX_LOG_BYTES) .isDirectory)) (hfailed _ rfl))
      | file i =>
          show Prog.wp _ _ _ _ d
          rw [Prog.wp_bind, CompileOutput.wp_await]
          refine ⟨(hhandle (.file i)).2.1, ?_, fun hfaulty =>
            CompileOutput.wp_await.mpr (hclose (.file i) (.error (.errno (.stat (.file i)) .fault))
              (hfault _ hfaulty))⟩
          exact CompileOutput.wp_await.mpr (hclose (.file i) (.ok (cappedText (d.inodes i).content))
            (hpost _ (.inl rfl)))

attribute [irreducible] CompileOutput.readTextCapped

end Programs

/-! ## The result of a compilation -/

section Results

variable (zlib : Zlib) (fits : Location → Bool) (faulty : Bool) (engine workspace : JSString)
  (main : ProjectFile) (nativeResult : NativeProcessResult) (d : Disk FileName)

/-- What lies where an output is looked for. -/
def outputFound (extension : JSString) : OutputEntry :=
  outputEntryAt fits d (rootLocation workspace ++ main.outputWay extension)

/-- The calls that reading the output makes: the places of the output are looked at, and a file is read
whole only if it is there itself and not too large. -/
def Guarded (_ : Disk FileName) : OutputOp → Prop
  | .lstat path => path = outputPlace workspace main (js ".pdf") ∨
      path = outputPlace workspace main (js ".synctex.gz")
  | .openFile path => path = outputPlace workspace main (js ".log")
  | .read _ maxBytes => maxBytes = MAX_LOG_BYTES
  | .readFile path => ∃ extension content, path = outputPlace workspace main extension ∧
      outputFound fits workspace main d extension = .regular content ∧ content.length ≤ MAX_PDF_BYTES
  | .stat _ | .close _ => True

/-- The SyncTeX data to return: none without a file, else what is made of the file's content. -/
def SynctexOf : Option Bytes → Prop
  | none => outputFound fits workspace main d (js ".synctex.gz") = .nothing
  | some packed => ∃ content, outputFound fits workspace main d (js ".synctex.gz") = .regular content ∧
      readSynctex zlib content workspace = .ok packed

/-- A compilation whose output can be returned. -/
structure Deliverable (pdf : Bytes) (synctex : Option Bytes) : Prop where
  exited : nativeResult.exitCode = some 0
  regular : outputFound fits workspace main d (js ".pdf") = .regular pdf
  small : pdf.length ≤ MAX_PDF_BYTES
  synctexOf : SynctexOf zlib fits workspace main d synctex

/-- A compilation without a PDF, or one that the compiler ended with an error. -/
def NotCompiled : Prop :=
  outputFound fits workspace main d (js ".pdf") = .nothing ∨
    nativeResult.exitCode ≠ some 0 ∧ ∃ pdf,
      outputFound fits workspace main d (js ".pdf") = .regular pdf ∧ pdf.length ≤ MAX_PDF_BYTES

/-- The result for a compilation that worked. -/
def delivered (log : JSString) (pdf : Bytes) (synctex : Option Bytes) : CompileResult :=
  .success engine (JSString.join (unit '/') (main.outputSegments (js ".pdf")), toBase64 pdf)
    (synctex.map fun packed =>
      (JSString.join (unit '/') (main.outputSegments (js ".synctex.gz")), toBase64 packed)) log

/-- The result for one that did not. -/
def notCompiled (log : JSString) : CompileResult :=
  .failure engine (js "latex-compile-failed") (CompileOutput.extractLatexError log).message log
    (some ((CompileOutput.extractLatexError log).path.getD main.path))
    ((CompileOutput.extractLatexError log).line.filter (· ≠ 0))

/-- The ends of a compilation whose log is known. -/
def Collected (log : JSString) (result : Except OutputFailure CompileResult) : Prop :=
  (∃ pdf synctex, Deliverable zlib fits workspace main nativeResult d pdf synctex ∧
    result = .ok (delivered engine main log pdf synctex)) ∨
  (NotCompiled fits workspace main nativeResult d ∧ result = .ok (notCompiled engine main log)) ∨
  (∃ error, result = .error error ∧
    ((∃ op, faulty = true ∧ error = .errno op .fault) ∨
      ¬ NotCompiled fits workspace main nativeResult d ∧
        ∀ pdf synctex, ¬ Deliverable zlib fits workspace main nativeResult d pdf synctex))

variable {zlib fits faulty engine workspace main nativeResult d}

theorem collected_fault (log : JSString) {op : OutputOp} (hfaulty : faulty = true) :
    Collected zlib fits faulty engine workspace main nativeResult d log (.error (.errno op .fault)) :=
  .inr (.inr ⟨_, rfl, .inl ⟨op, hfaulty, rfl⟩⟩)

/-- The regular files that are accepted, and what else there can be. -/
theorem outcome_cases {maxBytes : Nat} {invalid tooLarge : String} {path : JSString}
    (place : OutputEntry) :
    (place = .nothing ∧ place.outcome maxBytes invalid tooLarge path = .ok none) ∨
    (∃ content, place = .regular content ∧ content.length ≤ maxBytes ∧
      place.outcome maxBytes invalid tooLarge path = .ok (some path)) ∨
    (∃ error, place.outcome maxBytes invalid tooLarge path = .error error ∧ place ≠ .nothing ∧
      ∀ content, place = .regular content → maxBytes < content.length) := by
  cases place with
  | nothing => exact .inl ⟨rfl, rfl⟩
  | regular content =>
      by_cases hlarge : maxBytes < content.length
      · refine .inr (.inr ⟨_, if_pos hlarge, OutputEntry.noConfusion, fun other hother => ?_⟩)
        rwa [← OutputEntry.regular.inj hother]
      · exact .inr (.inl ⟨content, rfl, Nat.le_of_not_lt hlarge, if_neg hlarge⟩)
  | irregular => exact .inr (.inr ⟨_, rfl, OutputEntry.noConfusion, fun _ h => (by cases h)⟩)
  | unnameable => exact .inr (.inr ⟨_, rfl, OutputEntry.noConfusion, fun _ h => (by cases h)⟩)

theorem InWorkspace.wp_readFile {extension : JSString} {content : Bytes}
    {post : Except OutputFailure Bytes → Disk FileName → Prop}
    (h : InWorkspace workspace main d) (hextension : IsExtension extension)
    (hfound : outputFound fits workspace main d extension = .regular content)
    (hsmall : content.length ≤ MAX_PDF_BYTES) (hpost : post (.ok content) d)
    (hfault : faulty = true →
      post (.error (.errno (.readFile (outputPlace workspace main extension)) .fault)) d) :
    (CompileOutput.await (.readFile (outputPlace workspace main extension))).wp
      (OutputOp.Exec fits faulty) (Guarded fits workspace main d) post d := by
  obtain ⟨hne, hdir⟩ := h.outputWay extension
  refine CompileOutput.wp_await.mpr ⟨⟨extension, content, rfl, hfound, hsmall⟩, ?_, hfault⟩
  rw [CompileOutput.exec_readFile hne hdir (h.pathLocation_place hextension) hfound]
  exact hpost

/-- **Packing the SyncTeX data** that was found. -/
theorem InWorkspace.wp_synctexOutput {post : Except OutputFailure (Option (JSString × JSString)) →
      Disk FileName → Prop} {place : Option JSString}
    (h : InWorkspace workspace main d)
    (hplace : (place = none ∧ outputFound fits workspace main d (js ".synctex.gz") = .nothing) ∨
      ∃ content, place = some (outputPlace workspace main (js ".synctex.gz")) ∧
        outputFound fits workspace main d (js ".synctex.gz") = .regular content ∧
        content.length ≤ MAX_SYNCTEX_BYTES)
    (hpost : ∀ synctex, SynctexOf zlib fits workspace main d synctex →
      post (.ok (synctex.map fun packed =>
        (JSString.join (unit '/') (main.outputSegments (js ".synctex.gz")), toBase64 packed))) d)
    (hunpacked : ∀ fault, (∀ synctex, ¬ SynctexOf zlib fits workspace main d synctex) →
      post (.error (.fault fault)) d)
    (hfault : ∀ op, faulty = true → post (.error (.errno op .fault)) d) :
    (CompileOutput.synctexOutput zlib workspace place).wp (OutputOp.Exec fits faulty)
      (Guarded fits workspace main d) post d := by
  rcases hplace with ⟨rfl, hnothing⟩ | ⟨content, rfl, hregular, hsmall⟩
  · exact hpost none hnothing
  · rw [CompileOutput.synctexOutput, Prog.wp_bind, CompileOutput.readSynctexFile, Prog.wp_bind]
    refine h.wp_readFile isExtension_synctex hregular hsmall ?_ (hfault _)
    rw [Prog.afterBind_ok, Prog.wp_ofExcept]
    cases hread : readSynctex zlib content workspace with
    | error fault =>
        refine hunpacked fault fun synctex hof => ?_
        cases synctex with
        | none =>
            rw [SynctexOf, hregular] at hof
            cases hof
        | some packed =>
            obtain ⟨other, hother, hpacked⟩ := hof
            rw [hregular] at hother
            obtain rfl := OutputEntry.regular.inj hother
            rw [hread] at hpacked
            cases hpacked
    | ok packed =>
        show Prog.wp _ _ _ _ d
        rw [h.clientPath_place isExtension_synctex]
        exact hpost (some packed) ⟨content, hregular, hread⟩

theorem Deliverable.compiled {pdf : Bytes} {synctex : Option Bytes}
    (h : Deliverable zlib fits workspace main nativeResult d pdf synctex) :
    ¬ NotCompiled fits workspace main nativeResult d := by
  rintro (hnothing | ⟨hexit, -⟩)
  · rw [h.regular] at hnothing
    cases hnothing
  · exact hexit h.exited

theorem Collected.success_iff {log : JSString} {result : Except OutputFailure CompileResult}
    (h : Collected zlib fits false engine workspace main nativeResult d log result) :
    (∃ output synctex text, result = .ok (.success engine output synctex text)) ↔
      ∃ pdf synctex, Deliverable zlib fits workspace main nativeResult d pdf synctex := by
  rcases h with ⟨pdf, synctex, hdeliverable, rfl⟩ | ⟨hnot, rfl⟩ | ⟨error, rfl, herror⟩
  · exact iff_of_true ⟨_, _, _, rfl⟩ ⟨pdf, synctex, hdeliverable⟩
  · refine iff_of_false ?_ ?_
    · rintro ⟨output, synctex, text, hresult⟩
      cases hresult
    · rintro ⟨pdf, synctex, hdeliverable⟩
      exact hdeliverable.compiled hnot
  · refine iff_of_false ?_ ?_
    · rintro ⟨output, synctex, text, hresult⟩
      cases hresult
    · rintro ⟨pdf, synctex, hdeliverable⟩
      rcases herror with ⟨op, hfaulty, -⟩ | ⟨-, hnone⟩
      · cases hfaulty
      · exact hnone pdf synctex hdeliverable

theorem SynctexOf.place {synctex : Option Bytes} (h : SynctexOf zlib fits workspace main d synctex) :
    outputFound fits workspace main d (js ".synctex.gz") = .nothing ∨ ∃ content,
      outputFound fits workspace main d (js ".synctex.gz") = .regular content ∧
        content.length ≤ MAX_SYNCTEX_BYTES := by
  cases synctex with
  | none => exact .inl h
  | some packed =>
      obtain ⟨content, hregular, hread⟩ := h
      refine .inr ⟨content, hregular, Nat.le_of_not_lt fun hlarge => ?_⟩
      rw [readSynctex, if_pos hlarge] at hread
      cases hread

/-- **The PDF and the SyncTeX data** of a compilation that ended well. -/
theorem InWorkspace.wp_deliverOutput (h : InWorkspace workspace main d) {log : JSString} {pdf : Bytes}
    (hexit : nativeResult.exitCode = some 0)
    (hregular : outputFound fits workspace main d (js ".pdf") = .regular pdf)
    (hsmall : pdf.length ≤ MAX_PDF_BYTES) :
    (CompileOutput.deliverOutput zlib engine workspace main.path log
      (outputPlace workspace main (js ".pdf"))).wp (OutputOp.Exec fits faulty)
      (Guarded fits workspace main d)
      (fun result d' => d' = d ∧
        Collected zlib fits faulty engine workspace main nativeResult d log result) d := by
  have hcompiled : ¬ NotCompiled fits workspace main nativeResult d := by
    rintro (hnothing | ⟨hfailed, -⟩)
    · rw [hregular] at hnothing
      cases hnothing
    · exact hfailed hexit
  have hlost : ∀ error, (∀ synctex, ¬ SynctexOf zlib fits workspace main d synctex) →
      Collected zlib fits faulty engine workspace main nativeResult d log (.error error) :=
    fun error hnone => .inr (.inr ⟨error, rfl, .inr ⟨hcompiled, fun _ synctex hdeliverable =>
      hnone synctex hdeliverable.synctexOf⟩⟩)
  -- what follows when the place of the SyncTeX data was accepted
  have hrest : ∀ place : Option JSString,
      ((place = none ∧ outputFound fits workspace main d (js ".synctex.gz") = .nothing) ∨
        ∃ content, place = some (outputPlace workspace main (js ".synctex.gz")) ∧
          outputFound fits workspace main d (js ".synctex.gz") = .regular content ∧
          content.length ≤ MAX_SYNCTEX_BYTES) →
      (do
        let pdf ← CompileOutput.readPdf (outputPlace workspace main (js ".pdf"))
        let synctex ← CompileOutput.synctexOutput zlib workspace place
        return .success engine (CompileOutput.clientPath workspace
          (outputPlace workspace main (js ".pdf")), toBase64 pdf) synctex log : OutputProg _).wp
        (OutputOp.Exec fits faulty) (Guarded fits workspace main d)
        (fun result d' => d' = d ∧
          Collected zlib fits faulty engine workspace main nativeResult d log result) d := by
    intro place hplace
    rw [Prog.wp_bind, CompileOutput.readPdf, Prog.wp_bind]
    refine h.wp_readFile isExtension_pdf hregular hsmall ?_ fun hfaulty =>
      ⟨rfl, collected_fault log hfaulty⟩
    rw [Prog.afterBind_ok, if_neg (Nat.not_lt.mpr hsmall), Prog.wp_pure, Prog.afterBind_ok,
      Prog.wp_bind, h.clientPath_place isExtension_pdf]
    exact h.wp_synctexOutput hplace
      (fun synctex hof => ⟨rfl, .inl ⟨pdf, synctex, ⟨hexit, hregular, hsmall, hof⟩, rfl⟩⟩)
      (fun fault hnone => ⟨rfl, hlost _ hnone⟩) fun op hfaulty => ⟨rfl, collected_fault log hfaulty⟩
  rw [CompileOutput.deliverOutput, Prog.wp_bind, CompileOutput.findOutputSynctex]
  refine h.wp_findOutput isExtension_synctex (.inr rfl) ?_ fun hfaulty =>
    ⟨rfl, collected_fault log hfaulty⟩
  rcases outcome_cases (outputFound fits workspace main d (js ".synctex.gz")) with
    ⟨hplace, houtcome⟩ | ⟨content, hplace, hsmaller, houtcome⟩ | ⟨error, houtcome, hthere, hlarge⟩
  · refine (congrArg (fun outcome => Prog.afterBind _ _ _ _ outcome d) houtcome).mpr ?_
    exact hrest none (.inl ⟨rfl, hplace⟩)
  · refine (congrArg (fun outcome => Prog.afterBind _ _ _ _ outcome d) houtcome).mpr ?_
    exact hrest (some _) (.inr ⟨content, rfl, hplace, hsmaller⟩)
  · refine (congrArg (fun outcome => Prog.afterBind _ _ _ _ outcome d) houtcome).mpr ?_
    refine ⟨rfl, hlost error fun synctex hof => ?_⟩
    rcases hof.place with hnothing | ⟨content, hcontent, hsmaller⟩
    · exact hthere hnothing
    · exact absurd hsmaller (Nat.not_le.mpr (hlarge content hcontent))

attribute [irreducible] CompileOutput.deliverOutput

/-- **Reading the output** changes nothing, makes only guarded calls and ends as `Collected` says. -/
theorem InWorkspace.wp_collectOutput (h : InWorkspace workspace main d) :
    (CompileOutput.collectOutput zlib engine workspace main.path nativeResult).wp
      (OutputOp.Exec fits faulty) (Guarded fits workspace main d)
      (fun result d' => d' = d ∧ ∃ text,
        (text = compilerLog fits d (outputPlace workspace main (js ".log")) ∨
          faulty = true ∧ text = []) ∧
        Collected zlib fits faulty engine workspace main nativeResult d
          (CompileOutput.wholeLog nativeResult text) result) d := by
  rw [CompileOutput.collectOutput, Prog.wp_bind, CompileOutput.collectCompileLog, Prog.wp_bind]
  refine h.wp_resolved isExtension_log fun path hplace => ?_
  rw [Prog.afterBind_ok, hplace, Prog.wp_bind]
  refine wp_readLog rfl (fun handle => ⟨rfl, trivial, trivial⟩) fun text htext => ?_
  rw [Prog.afterBind_ok, Prog.wp_pure, Prog.afterBind_ok, Prog.wp_bind, CompileOutput.findOutputPdf]
  refine h.wp_findOutput isExtension_pdf (.inl rfl) ?_ fun hfaulty =>
    ⟨rfl, text, htext, collected_fault _ hfaulty⟩
  rcases outcome_cases (outputFound fits workspace main d (js ".pdf")) with
    ⟨hplace, houtcome⟩ | ⟨pdf, hregular, hsmall, houtcome⟩ | ⟨error, houtcome, hthere, hlarge⟩
  · refine (congrArg (fun outcome => Prog.afterBind _ _ _ _ outcome d) houtcome).mpr ?_
    rw [Prog.afterBind_ok]
    split
    next hplace => cases hplace
    next => exact ⟨rfl, text, htext, .inr (.inl ⟨.inl hplace, rfl⟩)⟩
  · refine (congrArg (fun outcome => Prog.afterBind _ _ _ _ outcome d) houtcome).mpr ?_
    rw [Prog.afterBind_ok]
    split
    next place hexit hplace =>
      obtain rfl := Option.some.inj hplace
      exact Prog.wp_post (fun result d' hend => ⟨hend.1, text, htext, hend.2⟩)
        (h.wp_deliverOutput hexit hregular hsmall)
    next hother =>
      have hfailed : nativeResult.exitCode ≠ some 0 := fun hexit => hother _ hexit rfl
      exact ⟨rfl, text, htext, .inr (.inl ⟨.inr ⟨hfailed, pdf, hregular, hsmall⟩, rfl⟩)⟩
  · refine (congrArg (fun outcome => Prog.afterBind _ _ _ _ outcome d) houtcome).mpr ?_
    have hunfit : ∀ pdf, outputFound fits workspace main d (js ".pdf") = .regular pdf →
        ¬ pdf.length ≤ MAX_PDF_BYTES := fun pdf hpdf => Nat.not_le.mpr (hlarge pdf hpdf)
    refine ⟨rfl, text, htext, .inr (.inr ⟨error, rfl, .inr ⟨?_, fun pdf synctex hdeliverable => ?_⟩⟩)⟩
    · rintro (hnothing | ⟨-, pdf, hpdf, hsmall⟩)
      · exact hthere hnothing
      · exact hunfit pdf hpdf hsmall
    · exact hunfit pdf hdeliverable.regular hdeliverable.small

end Results

/-- **The output of a compilation.**  In a temporary directory where the main file's own directory is
still there, reading the output changes nothing, makes only guarded calls and ends as `Collected` says;
when no call fails for a reason of its own, it succeeds exactly if the output can be returned. -/
theorem collectOutput_exact (zlib : Zlib) (fits : Location → Bool) (faulty : Bool)
    (engine workspace : JSString) (main : ProjectFile) (nativeResult : NativeProcessResult)
    (d : Disk FileName) (h : InWorkspace workspace main d) :
    (CompileOutput.collectOutput zlib engine workspace main.path nativeResult).wp
      (OutputOp.Exec fits faulty) (Guarded fits workspace main d)
      (fun result d' => d' = d ∧
        (∃ text, (text = compilerLog fits d (outputPlace workspace main (js ".log")) ∨
            faulty = true ∧ text = []) ∧
          Collected zlib fits faulty engine workspace main nativeResult d
            (CompileOutput.wholeLog nativeResult text) result) ∧
        (faulty = false →
          ((∃ output synctex log, result = .ok (.success engine output synctex log)) ↔
            ∃ pdf synctex, Deliverable zlib fits workspace main nativeResult d pdf synctex))) d := by
  refine Prog.wp_post (fun result d' hend => ?_) h.wp_collectOutput
  obtain ⟨hunchanged, text, htext, hcollected⟩ := hend
  refine ⟨hunchanged, ⟨text, htext, hcollected⟩, fun hfaultless => ?_⟩
  subst hfaultless
  exact hcollected.success_iff

/-- A main file in a directory of its own. -/
def bookFile : ProjectFile := .text (js "book/main.tex") (js "x")

/-- A temporary directory in which a PDF lies beside the main file. -/
def compiledDisk : Disk FileName :=
  ((materializeProjectFiles (js "/srv") [bookFile, .binary (js "book/main.pdf") (js "JVBERg==")]).run
    (fun op d => op.exec (fun _ => true) 0 d) diskWithRoot).2

/-- No SyncTeX data is there to be unpacked. -/
def unusedZlib : Zlib := ⟨fun _ _ => .error (js "incorrect header check"), id⟩

theorem collectOutput_exact_book :
    (CompileOutput.collectOutput unusedZlib (js "pdflatex") (js "/srv") bookFile.path ⟨some 0, [], []⟩).wp
      (OutputOp.Exec (fun _ => true) false) (Guarded (fun _ => true) (js "/srv") bookFile compiledDisk)
      (fun result d => d = compiledDisk ∧
        ∃ output synctex log, result = .ok (.success (js "pdflatex") output synctex log))
      compiledDisk := by
  have haccepted : validateProjectPath .posix (some (.string bookFile.path)) [] = .ok bookFile.path := by
    decide +kernel
  have hinside : InWorkspace (js "/srv") bookFile compiledDisk :=
    ⟨(validateProjectPath_ok haccepted).2, by decide +kernel, by decide +kernel, by decide +kernel⟩
  have hregular : outputFound (fun _ => true) (js "/srv") bookFile compiledDisk (js ".pdf")
      = .regular [0x25, 0x50, 0x44, 0x46] := by rfl
  have hnothing : outputFound (fun _ => true) (js "/srv") bookFile compiledDisk (js ".synctex.gz")
      = .nothing := by rfl
  refine Prog.wp_post (fun result d hend => ⟨hend.1, (hend.2.2 rfl).mpr ?_⟩)
    (collectOutput_exact unusedZlib (fun _ => true) false (js "pdflatex") (js "/srv") bookFile
      ⟨some 0, [], []⟩ compiledDisk hinside)
  exact ⟨_, none, rfl, hregular, by decide, hnothing⟩

end Typr
