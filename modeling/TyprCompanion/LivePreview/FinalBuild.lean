import TyprCompanion.Compile.CompileRequest
import TyprCompanion.LivePreview.WsProtocol

/-!
# The final build accepts what the live preview accepts

A client opens a project with an `initialize` message and later asks the compile endpoint for the
final PDF.  The two validators were written apart: their path rules, their accounting of sizes and
the order of their checks differ.

* `Encodes`, `IsPreviewFile` — an item of a `files` array and the file it stands for; what the
  preview requires of one.
* `validateInitializeFiles_ok`, `validateCompileFiles_eq` — the two loops over the files.
* **`validateCompileRequest_of_initialize`** — the compile request for an accepted project is
  accepted, with the same files.
-/

namespace Typr

/-! ## Files on the wire -/

/-- A file as a client sends it. -/
def ProjectFile.toJson : ProjectFile → Json
  | .text path content =>
      .object [(js "path", .string path), (js "kind", .string (js "text")),
        (js "content", .string content)]
  | .binary path content =>
      .object [(js "path", .string path), (js "kind", .string (js "binary")),
        (js "encoding", .string (js "base64")), (js "content", .string content)]

/-- The item of a `files` array stands for the file; other fields are allowed. -/
def Encodes (item : Json) (file : ProjectFile) : Prop :=
  ∃ fields, item.record? = some fields ∧
    (Json.field fields (js "path")).bind Json.string? = some file.path ∧
    match file with
    | .text _ content =>
        (Json.field fields (js "kind")).bind Json.string? = some (js "text") ∧
          (Json.field fields (js "content")).bind Json.string? = some content
    | .binary _ content =>
        (Json.field fields (js "kind")).bind Json.string? = some (js "binary") ∧
          (Json.field fields (js "encoding")).bind Json.string? = some (js "base64") ∧
          (Json.field fields (js "content")).bind Json.string? = some content

theorem encodes_toJson (file : ProjectFile) : Encodes file.toJson file := by
  cases file with
  | text path content => exact ⟨_, rfl, rfl, rfl, rfl⟩
  | binary path content => exact ⟨_, rfl, rfl, rfl, rfl, rfl⟩

/-- What the preview requires of a path, whatever the label of its error. -/
def IsPreviewPath (platform : Platform) (path : JSString) : Prop :=
  ∀ label, validatePrivateProjectPath platform (some (.string path)) label = .ok path

/-- What the preview requires of a file. -/
def IsPreviewFile (platform : Platform) (file : ProjectFile) : Prop :=
  IsPreviewPath platform file.path ∧
    match file with
    | .text _ _ => True
    | .binary _ content => isBase64 content = true

/-- The bytes of a file, as the final build counts them. -/
def ProjectFile.decodedSize : ProjectFile → Nat
  | .text _ content => JSString.byteLength content
  | .binary _ content => (fromBase64 content).length

/-! ## Paths -/

/-- The path is the value itself, and the label only names it in the error. -/
theorem validatePrivateProjectPath_ok {platform : Platform} {value : Option Json}
    {label path : JSString} (h : validatePrivateProjectPath platform value label = .ok path) :
    value.bind Json.string? = some path ∧ IsPreviewPath platform path := by
  unfold validatePrivateProjectPath at h
  cases hvalue : value.bind Json.string? with
  | none => simp [hvalue] at h
  | some text =>
      simp only [hvalue] at h
      split_ifs at h with hempty hshape hsegments hwindows
      obtain rfl := Except.ok.inj h
      refine ⟨rfl, fun label => ?_⟩
      have hstring : (some (Json.string text)).bind Json.string? = some text := rfl
      simp only [validatePrivateProjectPath, hstring, if_neg hempty, if_neg hshape,
        if_neg hsegments, if_neg hwindows]

/-- Nothing the preview takes for a relative path is absolute, on any host. -/
theorem not_isAbsolute {value : JSString} (hslash : ¬ JSString.startsWith value (js "/") = true)
    (hback : ¬ JSString.includes value 0x5C = true) (hdrive : ¬ hasDrivePrefix value = true) :
    ∀ platform, isAbsolute platform value = false := by
  have hseparator : ∀ {u rest}, value = u :: rest → JSString.isPathSeparator u = false := by
    rintro u rest rfl
    rw [JSString.isPathSeparator, Bool.or_eq_false_iff, beq_eq_false_iff_ne, beq_eq_false_iff_ne]
    constructor
    · rintro rfl
      exact hslash rfl
    · rintro rfl
      exact hback (by simp [JSString.includes])
  intro platform
  cases platform with
  | posix => exact Bool.eq_false_iff.mpr hslash
  | win32 =>
      rcases value with - | ⟨u, - | ⟨v, - | ⟨w, rest⟩⟩⟩
      · rfl
      · exact hseparator rfl
      · exact hseparator rfl
      · have hroot : (JSString.isWindowsDeviceRoot u && v == unit ':') = false :=
          Bool.eq_false_iff.mpr hdrive
        simp only [isAbsolute, JSString.isAbsoluteWin32, hseparator rfl, hroot, Bool.false_and,
          Bool.or_false]

/-- **The path rules.**  What the preview accepts as a path, the final build accepts. -/
theorem validateProjectPath_of_preview {platform : Platform} {value : Option Json}
    {path label : JSString} (hvalue : value.bind Json.string? = some path)
    (h : IsPreviewPath platform path) : validateProjectPath platform value label = .ok path := by
  have hpreview := h label
  have hstring : (some (Json.string path)).bind Json.string? = some path := rfl
  simp only [validatePrivateProjectPath, hstring] at hpreview
  split_ifs at hpreview with hempty hshape hsegments hwindows
  simp only [not_or] at hshape
  obtain ⟨hdot, hend, hnul, hback, hslash, hdrive⟩ := hshape
  have habsolute := not_isAbsolute hslash hback hdrive
  have hparent : ¬ (JSString.split (unit '/') path).contains (js "..") = true := by
    intro hmem
    refine hsegments (List.any_eq_true.mpr ⟨js "..", List.contains_iff_mem.mp hmem, ?_⟩)
    rw [beq_self_eq_true, Bool.true_or]
  have hunsafe : ¬ (path = js "." ∨ JSString.endsWith path (js "/") = true ∨
      JSString.includes path 0 = true ∨ JSString.includes path 0x5C = true ∨
      isAbsolute platform path = true ∨ isAbsolute .win32 path = true) := by
    simp only [not_or, habsolute]
    exact ⟨hdot, hend, hnul, hback, Bool.false_ne_true, Bool.false_ne_true⟩
  simp only [validateProjectPath, hvalue, if_neg hempty, if_neg hunsafe, if_neg hparent,
    if_neg hwindows]

/-! ## The loops over the files -/

/-- One round of the preview's loop: the item stands for a file the preview accepts. -/
theorem validateInitializeFile_ok {platform : Platform} {revision index : Nat} {item : Json}
    {state state' : InitializeFiles}
    (h : validateInitializeFile platform revision index item state = .ok state') :
    ∃ file, Encodes item file ∧ IsPreviewFile platform file ∧ file.path ∉ state.seen ∧
      state' = ⟨state.files ++ [file], file.path :: state.seen,
        state.decodedBytes + file.decodedSize⟩ ∧
      state'.decodedBytes ≤ TEXPRESSO_WS_LIMITS.maxProjectBytes := by
  unfold validateInitializeFile at h
  cases hfields : item.record? with
  | none => simp [hfields, throw, throwThe, MonadExceptOf.throw] at h
  | some fields =>
      simp only [hfields, bind, Except.bind, pure, Except.pure, throw, throwThe,
        MonadExceptOf.throw, Except.mapError] at h
      cases hpath : validatePrivateProjectPath platform (Json.field fields (js "path"))
          (js "files[" ++ jsNat index ++ js "]" ++ js ".path") with
      | error message =>
          simp only [hpath] at h
          cases h
      | ok path =>
          obtain ⟨hvalue, hpreview⟩ := validatePrivateProjectPath_ok hpath
          simp only [hpath] at h
          cases hcontent : (Json.field fields (js "content")).bind Json.string? with
          | none =>
              simp only [hcontent] at h
              split_ifs at h
          | some content =>
              simp only [hcontent] at h
              split_ifs at h with hseen htext hlarge hbinary hlarge
              · obtain rfl := Except.ok.inj h
                refine ⟨.text path content, ⟨fields, hfields, hvalue, htext, hcontent⟩,
                  ⟨hpreview, trivial⟩, fun hmem => hseen (List.contains_iff_mem.mpr hmem), rfl,
                  Nat.le_of_not_lt hlarge⟩
              · obtain rfl := Except.ok.inj h
                obtain ⟨hkind, hencoding, hbase64⟩ := hbinary
                have hsize : (ProjectFile.binary path content).decodedSize
                    = base64ByteLength content := length_fromBase64 hbase64
                refine ⟨.binary path content,
                  ⟨fields, hfields, hvalue, hkind, hencoding, hcontent⟩, ⟨hpreview, hbase64⟩,
                  fun hmem => hseen (List.contains_iff_mem.mpr hmem), by rw [hsize]; rfl,
                  Nat.le_of_not_lt hlarge⟩

/-- One round of the final build's loop takes every such file. -/
theorem validateCompileFile_eq {platform : Platform} {item : Json} {file : ProjectFile}
    (hitem : Encodes item file) (hfile : IsPreviewFile platform file) (index : Nat)
    {state : CompileFiles} (hseen : file.path ∉ state.seenPaths) :
    validateCompileFile platform index item state = .ok ⟨state.files ++ [file],
      file.path :: state.seenPaths, state.decodedProjectBytes + file.decodedSize⟩ := by
  obtain ⟨fields, hfields, hvalue, hrest⟩ := hitem
  have hpath : validateProjectPath platform (Json.field fields (js "path"))
      (fileLabel index ++ js ".path") = .ok file.path :=
    validateProjectPath_of_preview hvalue hfile.1
  have hnew : ¬ state.seenPaths.contains file.path = true :=
    fun hmem => hseen (List.contains_iff_mem.mp hmem)
  unfold validateCompileFile
  simp only [hfields, hpath, bind, Except.bind, pure, Except.pure, throw, throwThe,
    MonadExceptOf.throw, if_neg hnew]
  cases file with
  | text path content =>
      obtain ⟨hkind, hcontent⟩ := hrest
      simp only [hkind, hcontent, if_true]
      rfl
  | binary path content =>
      obtain ⟨hkind, hencoding, hcontent⟩ := hrest
      have hnotText : ¬ some (js "binary") = some (js "text") := by decide
      have hbase64 : ¬ isBase64 content = false := by
        rw [hfile.2]
        exact Bool.noConfusion
      simp only [hkind, hencoding, hcontent, ne_eq, not_true_eq_false, if_false, if_true,
        if_neg hnotText, if_neg hbase64]
      rfl

/-- The files of a project the preview accepts, the paths `seen` already taken. -/
structure IsPreviewProject (platform : Platform) (seen : List JSString)
    (files : List ProjectFile) : Prop where
  accepted : ∀ file ∈ files, IsPreviewFile platform file
  unique : (files.map ProjectFile.path).Nodup
  unseen : ∀ file ∈ files, file.path ∉ seen

theorem IsPreviewProject.cons {platform : Platform} {seen : List JSString} {file : ProjectFile}
    {files : List ProjectFile} : IsPreviewProject platform seen (file :: files) ↔
      IsPreviewFile platform file ∧ file.path ∉ seen ∧
        IsPreviewProject platform (file.path :: seen) files := by
  constructor
  · intro h
    have hunique := List.nodup_cons.mp h.unique
    refine ⟨h.accepted file (List.mem_cons_self ..), h.unseen file (List.mem_cons_self ..), ?_, ?_, ?_⟩
    · exact fun other hother => h.accepted other (List.mem_cons_of_mem _ hother)
    · exact hunique.2
    · intro other hother hmem
      rcases List.mem_cons.mp hmem with heq | hmem
      · exact hunique.1 (heq ▸ List.mem_map_of_mem hother)
      · exact h.unseen other (List.mem_cons_of_mem _ hother) hmem
  · rintro ⟨hfile, hseen, h⟩
    refine ⟨?_, ?_, ?_⟩
    · exact List.forall_mem_cons.mpr ⟨hfile, h.accepted⟩
    · refine List.nodup_cons.mpr ⟨?_, h.unique⟩
      intro hmem
      obtain ⟨other, hother, heq⟩ := List.mem_map.mp hmem
      exact h.unseen other hother (heq ▸ List.mem_cons_self ..)
    · refine List.forall_mem_cons.mpr ⟨hseen, fun other hother hmem => ?_⟩
      exact h.unseen other hother (List.mem_cons_of_mem _ hmem)

/-- The bytes of a project, as the final build counts them. -/
def decodedProjectSize (files : List ProjectFile) : Nat :=
  (files.map ProjectFile.decodedSize).sum

/-- **The preview's loop.**  The items stand for the files of a project within the byte limit. -/
theorem validateInitializeFiles_ok {platform : Platform} {revision : Nat} {items : List Json} :
    ∀ {index : Nat} {state state' : InitializeFiles},
      state.decodedBytes ≤ TEXPRESSO_WS_LIMITS.maxProjectBytes →
      validateInitializeFiles platform revision index items state = .ok state' →
      ∃ files, List.Forall₂ Encodes items files ∧ IsPreviewProject platform state.seen files ∧
        state'.files = state.files ++ files ∧
        state.decodedBytes + decodedProjectSize files ≤ TEXPRESSO_WS_LIMITS.maxProjectBytes := by
  induction items with
  | nil =>
      intro index state state' hbytes h
      obtain rfl := Except.ok.inj h
      refine ⟨[], .nil, ⟨?_, List.nodup_nil, ?_⟩, (List.append_nil _).symm, hbytes⟩
      · exact List.forall_mem_nil _
      · exact List.forall_mem_nil _
  | cons item items ih =>
      intro index state state' hbytes h
      cases hround : validateInitializeFile platform revision index item state with
      | error e =>
          rw [validateInitializeFiles, hround] at h
          cases h
      | ok next =>
          rw [validateInitializeFiles, hround] at h
          obtain ⟨file, hitem, hfile, hseen, rfl, hnext⟩ := validateInitializeFile_ok hround
          obtain ⟨files, hitems, hfiles, hstate, hsum⟩ := ih hnext h
          refine ⟨file :: files, .cons hitem hitems,
            IsPreviewProject.cons.mpr ⟨hfile, hseen, hfiles⟩, ?_, ?_⟩
          · rw [hstate, List.append_assoc, List.singleton_append]
          · simpa only [decodedProjectSize, List.map_cons, List.sum_cons, Nat.add_assoc] using hsum

/-- **The final build's loop** takes a project the preview accepted. -/
theorem validateCompileFiles_eq {platform : Platform} {items : List Json}
    {files : List ProjectFile} (hitems : List.Forall₂ Encodes items files) :
    ∀ (index : Nat) {state : CompileFiles}, IsPreviewProject platform state.seenPaths files →
      validateCompileFiles platform index items state = .ok ⟨state.files ++ files,
        (files.map ProjectFile.path).reverse ++ state.seenPaths,
        state.decodedProjectBytes + decodedProjectSize files⟩ := by
  induction hitems with
  | nil =>
      intro index state _
      simp [validateCompileFiles, decodedProjectSize]
  | @cons item file items files hitem _ ih =>
      intro index state hfiles
      obtain ⟨hfile, hseen, hrest⟩ := IsPreviewProject.cons.mp hfiles
      rw [validateCompileFiles, validateCompileFile_eq hitem hfile index hseen]
      simp only [bind, Except.bind]
      rw [ih (index + 1) hrest]
      simp [decodedProjectSize, Nat.add_assoc]

/-! ## The two validators -/

/-- An accepted initialization: its main file and the project the items stand for. -/
theorem validateInitialize_ok {platform : Platform} {value : List (JSString × Json)}
    {message : TexpressoInitializeMessage} (h : validateInitialize platform value = .ok message) :
    (Json.field value (js "mainFilePath")).bind Json.string? = some message.mainFilePath ∧
      IsPreviewPath platform message.mainFilePath ∧
      ∃ items, (Json.field value (js "files")).bind Json.array? = some items ∧
        items.length ≤ TEXPRESSO_WS_LIMITS.maxProjectFiles ∧
        List.Forall₂ Encodes items message.files ∧ IsPreviewProject platform [] message.files ∧
        decodedProjectSize message.files ≤ TEXPRESSO_WS_LIMITS.maxProjectBytes := by
  unfold validateInitialize at h
  simp only [bind, Except.bind, pure, Except.pure, throw, throwThe, MonadExceptOf.throw] at h
  repeat' split at h
  all_goals first
    | contradiction
    | skip
  next revision _ _ mainFilePath hmain _ items hitems hlength _ state hloop _ _ _ _ =>
    obtain rfl := Except.ok.inj h
    have hpath : validatePrivateProjectPath platform (Json.field value (js "mainFilePath"))
        (js "mainFilePath") = .ok mainFilePath := by
      revert hmain
      cases validatePrivateProjectPath platform (Json.field value (js "mainFilePath"))
          (js "mainFilePath") with
      | error e => exact fun hmain => nomatch hmain
      | ok path => exact fun hmain => congrArg Except.ok (Except.ok.inj hmain)
    obtain ⟨hvalue, hpreview⟩ := validatePrivateProjectPath_ok hpath
    obtain ⟨files, hencodes, hproject, hfiles, hbytes⟩ :=
      validateInitializeFiles_ok (Nat.zero_le _) hloop
    obtain rfl : state.files = files := hfiles
    refine ⟨hvalue, hpreview, items, hitems, ?_, hencodes, hproject, ?_⟩
    · exact Nat.le_of_not_lt (not_or.mp hlength).2
    · rwa [Nat.zero_add] at hbytes

/-- A message that initializes is a record the checks of an initialization pass. -/
theorem validateTexpressoClientMessage_fields {platform : Platform} {value : Json}
    {message : TexpressoInitializeMessage}
    (h : validateTexpressoClientMessage platform value = .ok (.initializeSession message)) :
    ∃ fields, value.record? = some fields ∧ validateInitialize platform fields = .ok message := by
  unfold validateTexpressoClientMessage at h
  simp only [pure, Except.pure, throw, throwThe, MonadExceptOf.throw, Functor.map, Except.map] at h
  repeat' split at h
  all_goals first
    | contradiction
    | skip
  all_goals cases h
  next _ fields hfields _ _ _ _ _ _ hvalid => exact ⟨fields, hfields, hvalid⟩

/-- The fields of the request for the final PDF of a project. -/
def finalBuildFields (mainFilePath : JSString) (files : List Json) : List (JSString × Json) :=
  [(js "protocolVersion", .number (.integer 1) (js "1")), (js "engine", .string (js "pdflatex")),
    (js "mainFilePath", .string mainFilePath), (js "files", .array files)]

/-- The request for the final PDF of a project. -/
def finalBuildRequest (mainFilePath : JSString) (files : List Json) : Json :=
  .object (finalBuildFields mainFilePath files)

/-- The compile endpoint takes every project within the limits of the preview. -/
theorem validateCompileRequest_eq {platform : Platform} {mainFilePath : JSString}
    {items : List Json} {files : List ProjectFile} (hmain : IsPreviewPath platform mainFilePath)
    (hfile : mainFilePath ∈ files.map ProjectFile.path) (hitems : List.Forall₂ Encodes items files)
    (hlength : items.length ≤ TEXPRESSO_WS_LIMITS.maxProjectFiles)
    (hfiles : IsPreviewProject platform [] files)
    (hbytes : decodedProjectSize files ≤ TEXPRESSO_WS_LIMITS.maxProjectBytes) :
    validateCompileRequest platform (finalBuildRequest mainFilePath items)
      = .ok ⟨1, js "pdflatex", mainFilePath, files⟩ := by
  have hpath : validateProjectPath platform (some (.string mainFilePath)) (js "mainFilePath")
      = .ok mainFilePath := validateProjectPath_of_preview rfl hmain
  have hloop : validateCompileFiles platform 0 items ⟨[], [], 0⟩ = .ok ⟨[] ++ files,
      (files.map ProjectFile.path).reverse ++ [], 0 + decodedProjectSize files⟩ :=
    validateCompileFiles_eq hitems 0 hfiles
  have hengine : ¬ (js "pdflatex").all isJsWhitespace = true := by decide
  have hcount : ¬ MAX_PROJECT_FILES < items.length := Nat.not_lt.mpr hlength
  have hseen : ¬ ((files.map ProjectFile.path).reverse ++ ([] : List JSString)).contains mainFilePath
      = false := by
    rw [List.append_nil, Bool.not_eq_false, List.contains_iff_mem, List.mem_reverse]
    exact hfile
  have hsize : ¬ MAX_PROJECT_BYTES < 0 + decodedProjectSize files := by
    rw [Nat.zero_add]
    exact Nat.not_lt.mpr hbytes
  have hversion : Json.field (finalBuildFields mainFilePath items) (js "protocolVersion")
      = some (.number (.integer 1) (js "1")) := rfl
  have hname : Json.field (finalBuildFields mainFilePath items) (js "engine")
      = some (.string (js "pdflatex")) := rfl
  have hmainFile : Json.field (finalBuildFields mainFilePath items) (js "mainFilePath")
      = some (.string mainFilePath) := rfl
  have hlist : Json.field (finalBuildFields mainFilePath items) (js "files")
      = some (.array items) := rfl
  unfold validateCompileRequest finalBuildRequest
  simp only [Json.record?, hversion, hname, hmainFile, hlist, bind, Except.bind, pure, Except.pure,
    throw, throwThe, MonadExceptOf.throw, hpath]
  simp only [Option.bind, Json.number?, Json.string?, Json.array?, if_neg hengine, if_neg hcount,
    hloop, if_neg hseen, if_neg hsize, List.nil_append]

/-- **Inclusion.**  The compile request for a project the preview accepted is accepted with exactly
its files: as the preview keeps them, and as the client sent them. -/
theorem validateCompileRequest_of_initialize {platform : Platform} {value : Json}
    {message : TexpressoInitializeMessage}
    (h : validateTexpressoClientMessage platform value = .ok (.initializeSession message)) :
    validateCompileRequest platform
        (finalBuildRequest message.mainFilePath (message.files.map ProjectFile.toJson))
      = .ok ⟨1, js "pdflatex", message.mainFilePath, message.files⟩ ∧
    ∃ fields items, value.record? = some fields ∧
      (Json.field fields (js "files")).bind Json.array? = some items ∧
      validateCompileRequest platform (finalBuildRequest message.mainFilePath items)
        = .ok ⟨1, js "pdflatex", message.mainFilePath, message.files⟩ := by
  obtain ⟨content, hmain⟩ := validateTexpressoClientMessage_initialize h
  have hfile : message.mainFilePath ∈ message.files.map ProjectFile.path :=
    List.mem_map.mpr ⟨_, hmain, rfl⟩
  obtain ⟨fields, hfields, hvalid⟩ := validateTexpressoClientMessage_fields h
  obtain ⟨-, hpreview, items, hitems, hlength, hencodes, hproject, hbytes⟩ :=
    validateInitialize_ok hvalid
  have htyped : List.Forall₂ Encodes (message.files.map ProjectFile.toJson) message.files := by
    rw [List.forall₂_map_left_iff, List.forall₂_same]
    exact fun file _ => encodes_toJson file
  constructor
  · refine validateCompileRequest_eq hpreview hfile htyped ?_ hproject hbytes
    rwa [htyped.length_eq, ← hencodes.length_eq]
  · exact ⟨fields, items, hfields, hitems,
      validateCompileRequest_eq hpreview hfile hencodes hlength hproject hbytes⟩

/-- A project with one chapter in a folder and a picture. -/
def chapterProject : Json :=
  .object [(js "type", .string (js "initialize")),
    (js "protocolVersion", .number (.integer 1) (js "1")),
    (js "revision", .number (.integer 1) (js "1")), (js "mainFilePath", .string (js "main.tex")),
    (js "files", .array [(ProjectFile.text (js "main.tex") (js "x")).toJson,
      (ProjectFile.text (js "ch/a.tex") (js "a")).toJson,
      (ProjectFile.binary (js "p.png") (js "AA==")).toJson])]

/-- The message of the project. -/
def chapterMessage : TexpressoInitializeMessage :=
  ⟨1, 1, js "main.tex", ⟨240, none⟩, [.text (js "main.tex") (js "x"),
    .text (js "ch/a.tex") (js "a"), .binary (js "p.png") (js "AA==")]⟩

theorem chapterProject_opens : validateTexpressoClientMessage .posix chapterProject
    = .ok (.initializeSession chapterMessage) := by decide +kernel

theorem chapterProject_builds :
    validateTexpressoClientMessage .posix chapterProject = .ok (.initializeSession chapterMessage) ∧
      validateCompileRequest .posix
          (finalBuildRequest (js "main.tex") (chapterMessage.files.map ProjectFile.toJson))
        = .ok ⟨1, js "pdflatex", js "main.tex", chapterMessage.files⟩ :=
  ⟨chapterProject_opens, ( validateCompileRequest_of_initialize chapterProject_opens).1⟩

end Typr
