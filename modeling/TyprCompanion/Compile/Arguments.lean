import TyprCompanion.LivePreview.FinalBuild

/-!
# Arguments of the native compilers

The argument vectors of `runLatexProjectOnce` (`latexProject.ts`) and `TexpressoSession.start`
(`texpressoSession.ts`).  A compiler reads every argument that begins with `-` as an option, and the
last argument names the main file of the project.

* `NativeCompiler`, `compilerArguments` — the compilers and what they are given.
* `OnlyFixedOptions` — the options of a vector are the ones the program wrote.
* **`onlyFixedOptions_iff`** — this holds of an accepted project when its main file does not begin
  with a dash, which no validator asks.
-/

namespace Typr

/-- The programs that compile a project. -/
inductive NativeCompiler where
  | latexmk (forceRebuild : Bool)
  | pdflatex
  | texpresso
  deriving DecidableEq

/-- Where the compilers of a final build run and what they are told of the main file. -/
structure LatexProjectExecutionLocation where
  mainFileArgument : JSString
  outputDirectoryArgument : JSString

/-- `latexProjectExecutionLocation` -/
def latexProjectExecutionLocation (platform : Platform) (mainFilePath : JSString) :
    LatexProjectExecutionLocation :=
  ⟨basename platform mainFilePath, js "-output-directory=."⟩

/-- The literals of a vector, in its order. -/
def fixedArguments : NativeCompiler → List JSString
  | .latexmk forceRebuild =>
      [js "-norc", js "-pdf"] ++ (if forceRebuild then [js "-g"] else []) ++
        [js "-synctex=1", js "-no-shell-escape", js "-interaction=nonstopmode",
          js "-halt-on-error", js "-file-line-error", js "-output-directory=."]
  | .pdflatex =>
      [js "-synctex=1", js "-no-shell-escape", js "-interaction=nonstopmode",
        js "-halt-on-error", js "-file-line-error", js "-output-directory=."]
  | .texpresso => [js "-json", js "-lines", js "-texlive", js "-stream"]

/-- The vector a compiler is spawned with. -/
def compilerArguments (platform : Platform) (mainFilePath : JSString) :
    NativeCompiler → List JSString
  | .latexmk forceRebuild =>
      let location := latexProjectExecutionLocation platform mainFilePath
      [js "-norc", js "-pdf"] ++ (if forceRebuild then [js "-g"] else []) ++
        [js "-synctex=1", js "-no-shell-escape", js "-interaction=nonstopmode",
          js "-halt-on-error", js "-file-line-error", location.outputDirectoryArgument,
          location.mainFileArgument]
  | .pdflatex =>
      let location := latexProjectExecutionLocation platform mainFilePath
      [js "-synctex=1", js "-no-shell-escape", js "-interaction=nonstopmode",
        js "-halt-on-error", js "-file-line-error", location.outputDirectoryArgument,
        location.mainFileArgument]
  | .texpresso => [js "-json", js "-lines", js "-texlive", js "-stream", mainFilePath]

/-- The compilers of a final build: every round of `runLatexProject`, with and without `latexmk`. -/
def finalBuildCompilers : List NativeCompiler := [.latexmk false, .latexmk true, .pdflatex]

/-- The compilers of a live preview: TeXpresso, where the host has it, or a full build. -/
def livePreviewCompilers : Platform → List NativeCompiler
  | .posix => .texpresso :: finalBuildCompilers
  | .win32 => finalBuildCompilers

/-- A compiler reads the argument as an option. -/
def IsOption (argument : JSString) : Prop := argument.startsWith (js "-") = true

instance (argument : JSString) : Decidable (IsOption argument) :=
  inferInstanceAs (Decidable (_ = true))

/-- The options of a vector are literals of the program, each where the program wrote it. -/
def OnlyFixedOptions (platform : Platform) (mainFilePath : JSString) (compiler : NativeCompiler) :
    Prop :=
  ∀ (i : Nat) (argument : JSString),
    (compilerArguments platform mainFilePath compiler)[i]? = some argument → IsOption argument →
      (fixedArguments compiler)[i]? = some argument

/-- The argument a vector has of the client. -/
def mainFileArgument (platform : Platform) (mainFilePath : JSString) : NativeCompiler → JSString
  | .texpresso => mainFilePath
  | _ => basename platform mainFilePath

/-- The main file is the last argument, and the only one that is not fixed. -/
theorem compilerArguments_eq (platform : Platform) (mainFilePath : JSString)
    (compiler : NativeCompiler) : compilerArguments platform mainFilePath compiler
      = fixedArguments compiler ++ [mainFileArgument platform mainFilePath compiler] := by
  cases compiler with
  | latexmk forceRebuild => cases forceRebuild <;> rfl
  | pdflatex => rfl
  | texpresso => rfl

/-- One vector has only fixed options when its last argument is none. -/
theorem onlyFixedOptions_iff_not_isOption (platform : Platform) (mainFilePath : JSString)
    (compiler : NativeCompiler) : OnlyFixedOptions platform mainFilePath compiler ↔
      ¬ IsOption (mainFileArgument platform mainFilePath compiler) := by
  unfold OnlyFixedOptions
  rw [compilerArguments_eq]
  generalize fixedArguments compiler = fixed
  generalize mainFileArgument platform mainFilePath compiler = last
  constructor
  · intro h hoption
    have hlast := h fixed.length last (by simp) hoption
    simp at hlast
  · intro h i argument hargument hoption
    rcases Nat.lt_trichotomy i fixed.length with hlt | rfl | hgt
    · rwa [List.getElem?_append_left hlt] at hargument
    · obtain rfl : last = argument := by simpa using hargument
      exact absurd hoption h
    · rw [List.getElem?_eq_none (by simp; omega)] at hargument
      cases hargument

theorem finalBuildCompilers_onlyFixedOptions_iff {platform : Platform} {mainFilePath : JSString}
    (h : IsProjectPath platform mainFilePath) :
    (∀ compiler ∈ finalBuildCompilers, OnlyFixedOptions platform mainFilePath compiler) ↔
      ¬ IsOption (lastSegment mainFilePath) := by
  simp only [finalBuildCompilers, List.forall_mem_cons, onlyFixedOptions_iff_not_isOption,
    mainFileArgument, h.basename_eq]
  simp

theorem livePreviewCompilers_onlyFixedOptions_iff {platform : Platform} {mainFilePath : JSString}
    (h : IsProjectPath platform mainFilePath) :
    (∀ compiler ∈ livePreviewCompilers platform, OnlyFixedOptions platform mainFilePath compiler) ↔
      ¬ IsOption (lastSegment mainFilePath) ∧
        (platform = .posix → ¬ IsOption mainFilePath) := by
  have hfinal := finalBuildCompilers_onlyFixedOptions_iff h
  cases platform with
  | posix =>
      rw [livePreviewCompilers, List.forall_mem_cons, hfinal, onlyFixedOptions_iff_not_isOption]
      simp [mainFileArgument, and_comm]
  | win32 =>
      rw [livePreviewCompilers, hfinal]
      simp

/-- The main file of an accepted request passed the check of paths. -/
theorem validateCompileRequest_mainFilePath {platform : Platform} {value : Json}
    {request : CompileRequest} (h : validateCompileRequest platform value = .ok request) :
    IsProjectPath platform request.mainFilePath := by
  unfold validateCompileRequest at h
  simp only [bind, Except.bind, pure, Except.pure, throw, throwThe, MonadExceptOf.throw] at h
  repeat' split at h
  all_goals first
    | contradiction
    | skip
  next mainFilePath hmain _ _ _ _ _ _ _ _ _ =>
    obtain rfl := Except.ok.inj h
    exact (validateProjectPath_ok hmain).2

/-- A path the preview accepts passes the check of the compile endpoint. -/
theorem IsPreviewPath.isProjectPath {platform : Platform} {path : JSString}
    (h : IsPreviewPath platform path) : IsProjectPath platform path := by
  have hvalue : (some (Json.string path)).bind Json.string? = some path := rfl
  have hvalid : validateProjectPath platform (some (.string path)) [] = .ok path :=
    validateProjectPath_of_preview hvalue h
  exact (validateProjectPath_ok hvalid).2

/-- The main file of an accepted preview passed the check of paths. -/
theorem validateTexpressoClientMessage_mainFilePath {platform : Platform} {value : Json}
    {message : TexpressoInitializeMessage}
    (h : validateTexpressoClientMessage platform value = .ok (.initializeSession message)) :
    IsProjectPath platform message.mainFilePath := by
  obtain ⟨_, _, hvalid⟩ := validateTexpressoClientMessage_fields h
  exact (validateInitialize_ok hvalid).2.1.isProjectPath

/-- **Arguments.**  The compilers of an accepted request get only the options the program wrote
exactly when the name of its main file does not begin with a dash; in a preview that TeXpresso
serves, the path of the main file must not begin with one either. -/
theorem onlyFixedOptions_iff (platform : Platform) (value : Json) :
    (∀ request, validateCompileRequest platform value = .ok request →
      ((∀ compiler ∈ finalBuildCompilers,
          OnlyFixedOptions platform request.mainFilePath compiler) ↔
        ¬ IsOption (lastSegment request.mainFilePath))) ∧
    (∀ message, validateTexpressoClientMessage platform value = .ok (.initializeSession message) →
      ((∀ compiler ∈ livePreviewCompilers platform,
          OnlyFixedOptions platform message.mainFilePath compiler) ↔
        ¬ IsOption (lastSegment message.mainFilePath) ∧
          (platform = .posix → ¬ IsOption message.mainFilePath))) := by
  constructor
  · intro request h
    exact finalBuildCompilers_onlyFixedOptions_iff (validateCompileRequest_mainFilePath h)
  · intro message h
    exact livePreviewCompilers_onlyFixedOptions_iff (validateTexpressoClientMessage_mainFilePath h)

/-- A project whose main file has the name of an option. -/
def shellEscapeFiles : List ProjectFile := [.text (js "-shell-escape") (js "x")]

def shellEscapeProject : Json :=
  .object [(js "type", .string (js "initialize")),
    (js "protocolVersion", .number (.integer 1) (js "1")),
    (js "revision", .number (.integer 1) (js "1")),
    (js "mainFilePath", .string (js "-shell-escape")),
    (js "files", .array (shellEscapeFiles.map ProjectFile.toJson))]

/-- Both validators take the project, and every compiler gets `-shell-escape` after the
`-no-shell-escape` that was to forbid it. -/
theorem shellEscape_argument :
    validateCompileRequest .posix
        (finalBuildRequest (js "-shell-escape") (shellEscapeFiles.map ProjectFile.toJson))
      = .ok ⟨1, js "pdflatex", js "-shell-escape", shellEscapeFiles⟩ ∧
    validateTexpressoClientMessage .posix shellEscapeProject
      = .ok (.initializeSession ⟨1, 1, js "-shell-escape", ⟨240, none⟩, shellEscapeFiles⟩) ∧
    (livePreviewCompilers .posix).all (fun compiler => decide
        ((compilerArguments .posix (js "-shell-escape") compiler).getLast?
          = some (js "-shell-escape"))) = true ∧
    ∀ compiler ∈ livePreviewCompilers .posix,
      ¬ OnlyFixedOptions .posix (js "-shell-escape") compiler := by
  refine ⟨by decide +kernel, by decide +kernel, by decide +kernel, ?_⟩
  intro compiler _ honly
  have hoption := (onlyFixedOptions_iff_not_isOption _ _ _).mp honly
  cases compiler with
  | latexmk forceRebuild =>
      cases forceRebuild with
      | false => exact hoption (by decide)
      | true => exact hoption (by decide)
  | pdflatex => exact hoption (by decide)
  | texpresso => exact hoption (by decide)

end Typr
