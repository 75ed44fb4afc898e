import TyprCompanion.Compile.CompileProject

/-!
# Paths in SyncTeX output

`readSynctex` of `server.ts`: the input records of the compiler are to name files by the paths the client
supplied.

* `rewriteLine`, `normalizeSynctex`, `readSynctex` — what is replaced in the text.
* `lines`, `lineTerminators` — a text as its lines and what ends them.
* `Spells`, `ProjectLine` — a path with dot segments in between, and what a line has to become.
* **`synctex_project_paths`** — the texts in which every record becomes the path of the client.
* `nested_record_kept` — a record of a document in a directory does not.
-/

namespace Typr

open Core

/-! ## The rewriting -/

def MAX_SYNCTEX_BYTES : Nat := 32 * 1024 * 1024

/-- `\d` under the flag `u` -/
def isDecimalDigit (u : CodeUnit) : Bool := 0x30 ≤ u.toNat && u.toNat ≤ 0x39

/-- An input record: a tag and a path. -/
def inputRecord (tag path : JSString) : JSString := js "Input:" ++ (tag ++ unit ':' :: path)

/-- The two groups of `/^Input:(\d+):(.+)$/` on a line. -/
def parseInput (line : JSString) : Option (JSString × JSString) :=
  if line.startsWith (js "Input:") = true then
    let rest := line.drop (js "Input:").length
    match rest.dropWhile isDecimalDigit with
    | [] => none
    | u :: path =>
        if u = unit ':' ∧ rest.takeWhile isDecimalDigit ≠ [] ∧ path ≠ [] then
          some (rest.takeWhile isDecimalDigit, path)
        else none
  else none

/-- `path.replaceAll("\\", "/")` -/
def portable (path : JSString) : JSString := path.replaceAll 0x5C (unit '/')

/-- `workspacePrefix` -/
def workspacePrefix (workspace : JSString) : JSString := portable workspace ++ [unit '/']

/-- `path.replace(/^\.\//u, "")` -/
def stripDotSlash (path : JSString) : JSString :=
  if path.startsWith (js "./") = true then path.drop 2 else path

/-- What a record is replaced by. -/
def rewriteInput (workspace tag inputPath : JSString) : JSString :=
  let portablePath := portable inputPath
  if portablePath.startsWith (workspacePrefix workspace) = false then inputRecord tag portablePath
  else inputRecord tag (stripDotSlash (portablePath.drop (workspacePrefix workspace).length))

/-- What becomes of a line. -/
def rewriteLine (workspace line : JSString) : JSString :=
  match parseInput line with
  | some (tag, path) => rewriteInput workspace tag path
  | none => line

/-- `normalized` of `readSynctex` -/
def normalizeSynctex (workspace text : JSString) : JSString :=
  JSString.replaceLines (rewriteLine workspace) [] text

/-- `node:zlib`: `gunzipSync` with a bound on its output throws, `gzipSync` does not. -/
structure Zlib where
  gunzip : Bytes → Nat → Except JSString Bytes
  gzip : Bytes → Bytes

/-- `readSynctex` behind `readFile` -/
def readSynctex (zlib : Zlib) (content : Bytes) (workspace : JSString) : Except CompileFault Bytes :=
  let tooLarge : CompileFault :=
    .compileOutput (js "compiler-output-too-large") (js "Compiler SyncTeX output exceeds 32 MiB.")
  if content.length > MAX_SYNCTEX_BYTES then .error tooLarge
  else match zlib.gunzip content MAX_SYNCTEX_BYTES with
    | .error message => .error (.other message)
    | .ok unzipped =>
        let text := JSString.decodeUtf8 unzipped
        let result := zlib.gzip (JSString.encodeUtf8 (normalizeSynctex workspace text))
        if result.length > MAX_SYNCTEX_BYTES then .error tooLarge else .ok result

/-! ## Lines -/

/-- The lines of a text, as `^` and `$` see them. -/
def lines (text : JSString) : List JSString := text.splitOnP JSString.isLineTerminator

/-- What ends the lines of a text, except the last. -/
def lineTerminators (text : JSString) : JSString := text.filter JSString.isLineTerminator

/-- A text with no end of a line in it. -/
def IsLine (text : JSString) : Prop := ∀ u ∈ text, JSString.isLineTerminator u = false

theorem IsLine.append {s t : JSString} (hs : IsLine s) (ht : IsLine t) : IsLine (s ++ t) := by
  intro u hu
  rcases List.mem_append.mp hu with hu | hu
  · exact hs u hu
  · exact ht u hu

theorem isLine_of_mem_lines {text line : JSString} (h : line ∈ lines text) : IsLine line := by
  induction text generalizing line with
  | nil =>
      obtain rfl : line = [] := by simpa [lines] using h
      exact nofun
  | cons u text ih =>
      rw [lines, List.splitOnP_cons_eq_if_modifyHead] at h
      split at h
      next =>
        rcases List.mem_cons.mp h with rfl | h
        · exact nofun
        · exact ih h
      next hu =>
        obtain ⟨first, rest, hlines⟩ := List.exists_cons_of_ne_nil
          (List.splitOnP_ne_nil JSString.isLineTerminator text)
        rw [hlines, List.modifyHead_cons] at h
        have hmem : ∀ l ∈ first :: rest, IsLine l := fun l hl => ih (by rw [lines, hlines]; exact hl)
        rcases List.mem_cons.mp h with rfl | h
        · intro v hv
          rcases List.mem_cons.mp hv with rfl | hv
          · simpa using hu
          · exact hmem first (List.mem_cons_self ..) v hv
        · exact hmem line (List.mem_cons_of_mem _ h)

theorem lines_append_terminator {line : JSString} (hline : IsLine line) {u : CodeUnit}
    (hu : JSString.isLineTerminator u = true) (rest : JSString) :
    lines (line ++ u :: rest) = line :: lines rest := by
  rw [lines, List.splitOnP_append_cons _ _ hu, List.splitOnP_eq_singleton hline]
  rfl

theorem lineTerminators_append {line : JSString} (hline : IsLine line) (rest : JSString) :
    lineTerminators (line ++ rest) = lineTerminators rest := by
  have hnone : line.filter JSString.isLineTerminator = [] :=
    List.filter_eq_nil_iff.mpr fun u hu => by simp [hline u hu]
  rw [lineTerminators, List.filter_append, hnone]
  rfl

/-- Replacing works line by line, if it makes a line of a line. -/
theorem lines_replaceLines {f : JSString → JSString} (hf : ∀ line, IsLine line → IsLine (f line))
    (text line : JSString) (hline : IsLine line) :
    lines (JSString.replaceLines f line text) = (lines (line ++ text)).map f ∧
      lineTerminators (JSString.replaceLines f line text) = lineTerminators (line ++ text) := by
  induction text generalizing line with
  | nil =>
      rw [JSString.replaceLines, List.append_nil]
      constructor
      · rw [lines, lines, List.splitOnP_eq_singleton hline, List.splitOnP_eq_singleton (hf line hline)]
        rfl
      · have hnone := lineTerminators_append hline []
        have hnone' := lineTerminators_append (hf line hline) []
        rw [List.append_nil] at hnone hnone'
        rw [hnone, hnone']
  | cons u text ih =>
      rw [JSString.replaceLines]
      split
      next hu =>
        obtain ⟨hlines, hterminators⟩ := ih [] nofun
        rw [List.nil_append] at hlines hterminators
        constructor
        · rw [lines_append_terminator (hf line hline) hu, lines_append_terminator hline hu, hlines]
          rfl
        · rw [lineTerminators_append (hf line hline), lineTerminators_append hline, lineTerminators,
            lineTerminators, List.filter_cons_of_pos hu, List.filter_cons_of_pos hu]
          exact congrArg (u :: ·) hterminators
      next hu =>
        have hnext : IsLine (line ++ [u]) := hline.append fun v hv => by
          rw [List.mem_singleton.mp hv]
          simpa using hu
        have htext : line ++ u :: text = line ++ [u] ++ text := by simp
        rw [htext]
        exact ih _ hnext

/-! ## Records -/

/-- The line is the record of this tag and this path. -/
structure IsInput (tag path line : JSString) : Prop where
  line_eq : line = inputRecord tag path
  tag_ne : tag ≠ []
  digits : ∀ u ∈ tag, isDecimalDigit u = true
  path_ne : path ≠ []

theorem isDecimalDigit_colon : isDecimalDigit (unit ':') = false := by decide

theorem parseInput_iff {tag path line : JSString} :
    parseInput line = some (tag, path) ↔ IsInput tag path line := by
  constructor
  · intro h
    rw [parseInput] at h
    split at h
    next hstart =>
      obtain ⟨rest, rfl⟩ := List.isPrefixOf_iff_prefix.mp hstart
      rw [List.drop_left] at h
      have hrest := List.takeWhile_append_dropWhile (p := isDecimalDigit) (l := rest)
      cases hdrop : rest.dropWhile isDecimalDigit with
      | nil => simp only [hdrop, reduceCtorEq] at h
      | cons u left =>
          simp only [hdrop, Option.ite_none_right_eq_some, Option.some.injEq, Prod.mk.injEq] at h
          obtain ⟨⟨rfl, htag, hpath⟩, rfl, rfl⟩ := h
          rw [hdrop] at hrest
          exact ⟨by rw [inputRecord, hrest], htag, fun u hu => List.mem_takeWhile_imp hu, hpath⟩
    next => cases h
  · rintro ⟨rfl, htag, hdigits, hpath⟩
    have htake : (tag ++ unit ':' :: path).takeWhile isDecimalDigit = tag := by
      rw [List.takeWhile_append_of_pos hdigits, List.takeWhile_cons_of_neg (by decide), List.append_nil]
    have hdrop : (tag ++ unit ':' :: path).dropWhile isDecimalDigit = unit ':' :: path := by
      rw [List.dropWhile_append_of_pos hdigits, List.dropWhile_cons_of_neg (by decide)]
    have hstart : (inputRecord tag path).startsWith (js "Input:") = true :=
      List.isPrefixOf_iff_prefix.mpr (List.prefix_append _ _)
    rw [parseInput, if_pos hstart]
    simp only [inputRecord, List.drop_left, hdrop, htake]
    exact if_pos ⟨trivial, htag, hpath⟩

/-- Neither slash ends a line. -/
theorem isLine_portable {path : JSString} (h : IsLine path) : IsLine (portable path) := by
  intro u hu
  obtain ⟨v, hv, rfl⟩ := List.mem_map.mp hu
  split
  · rfl
  · exact h v hv

theorem isLine_stripDotSlash {path : JSString} (h : IsLine path) : IsLine (stripDotSlash path) := by
  rw [stripDotSlash]
  split
  · exact fun u hu => h u (List.mem_of_mem_drop hu)
  · exact h

/-- A line is rewritten to a line. -/
theorem isLine_rewriteLine (workspace line : JSString) (h : IsLine line) :
    IsLine (rewriteLine workspace line) := by
  cases hparse : parseInput line with
  | none =>
      rw [rewriteLine, hparse]
      exact h
  | some record =>
      obtain ⟨tag, path⟩ := record
      obtain rfl := (parseInput_iff.mp hparse).line_eq
      have hrecord : ∀ path', IsLine path' → IsLine (inputRecord tag path') := by
        intro path' hpath' u hu
        rcases List.mem_append.mp hu with hu | hu
        · exact h u (List.mem_append_left _ hu)
        · rcases List.mem_append.mp hu with hu | hu
          · exact h u (List.mem_append_right _ (List.mem_append_left _ hu))
          · rcases List.mem_cons.mp hu with rfl | hu
            · rfl
            · exact hpath' u hu
      have hpath : IsLine path := fun u hu => h u
        (List.mem_append_right _ (List.mem_append_right _ (List.mem_cons_of_mem _ hu)))
      rw [rewriteLine, hparse]
      simp only [rewriteInput]
      split
      · exact hrecord _ (isLine_portable hpath)
      · refine hrecord _ (isLine_stripDotSlash fun u hu => ?_)
        exact isLine_portable hpath u (List.mem_of_mem_drop hu)

/-! ## Spellings -/

/-- Segments with dot segments put in between. -/
inductive Interspersed : List JSString → List JSString → Prop
  | nil : Interspersed [] []
  | keep {segments spelled : List JSString} (segment : JSString) :
      Interspersed segments spelled → Interspersed (segment :: segments) (segment :: spelled)
  | dot {segments spelled : List JSString} :
      Interspersed segments spelled → Interspersed segments (js "." :: spelled)

theorem Interspersed.refl : ∀ segments : List JSString, Interspersed segments segments
  | [] => .nil
  | segment :: segments => .keep segment (refl segments)

theorem Interspersed.length_le {segments spelled : List JSString}
    (h : Interspersed segments spelled) : segments.length ≤ spelled.length := by
  induction h with
  | nil => exact Nat.le_refl 0
  | keep segment _ ih => exact Nat.succ_le_succ ih
  | dot _ ih => exact Nat.le_succ_of_le ih

/-- The segments of a path; on Windows a backslash separates as well. -/
def pathSegments (path : JSString) : List JSString := JSString.split (unit '/') (portable path)

/-- The path names the file `p` of the workspace, with dot segments in between. -/
def Spells (workspace p path : JSString) : Prop :=
  Interspersed (pathSegments workspace ++ JSString.split (unit '/') p) (pathSegments path)

/-- The path names nothing below the workspace. -/
def Outside (workspace path : JSString) : Prop :=
  ∀ rest, ¬ Interspersed (pathSegments workspace ++ rest) (pathSegments path)

/-- A path the client can supply has no dot segment. -/
def DotFree (p : JSString) : Prop :=
  ∀ segment ∈ JSString.split (unit '/') p, segment ≠ js "." ∧ segment ≠ js ".."

/-- What becomes of a line when all records come to name files as the client does. -/
structure ProjectLine (workspace line line' : JSString) : Prop where
  inside : ∀ tag p path, IsInput tag path line → DotFree p → Spells workspace p path →
    line' = inputRecord tag p
  outside : ∀ tag path, IsInput tag path line → Outside workspace path →
    line' = inputRecord tag (portable path)
  tags : ∀ tag path, IsInput tag path line → ∃ path', line' = inputRecord tag path'
  other : (∀ tag path, ¬ IsInput tag path line) → line' = line

/-- The path begins as the workspace does, and a dot segment stands at most right behind that. -/
def DotAtRoot (workspace p path : JSString) : Prop :=
  portable path = workspacePrefix workspace ++ p ∨
    portable path = workspacePrefix workspace ++ (js "./" ++ p)

/-! ## The result -/

theorem rewriteLine_of_isInput {workspace tag path line : JSString} (h : IsInput tag path line) :
    rewriteLine workspace line = rewriteInput workspace tag path := by
  rw [rewriteLine, parseInput_iff.mpr h]

theorem IsInput.unique {tag path tag' path' line : JSString} (h : IsInput tag path line)
    (h' : IsInput tag' path' line) : tag' = tag ∧ path' = path := by
  have hboth := (parseInput_iff.mpr h').symm.trans (parseInput_iff.mpr h)
  exact Prod.mk.inj (Option.some.inj hboth)

theorem inputRecord_inj {tag path path' : JSString} :
    inputRecord tag path = inputRecord tag path' ↔ path = path' := by
  constructor
  · intro h
    exact (List.cons.inj (List.append_cancel_left (List.append_cancel_left h))).2
  · rintro rfl
    rfl

theorem split_dotSlash (rest : JSString) :
    JSString.split (unit '/') (js "./" ++ rest) = js "." :: JSString.split (unit '/') rest :=
  JSString.split_append (unit '/') (js ".") rest

theorem pathSegments_append (workspace rest : JSString) :
    JSString.split (unit '/') (workspacePrefix workspace ++ rest) =
      pathSegments workspace ++ JSString.split (unit '/') rest := by
  rw [workspacePrefix, List.append_assoc]
  exact JSString.split_append (unit '/') (portable workspace) rest

/-- What stripping makes a path without dot segments of. -/
theorem stripDotSlash_eq_iff {rest p : JSString} (hp : DotFree p) :
    stripDotSlash rest = p ↔ rest = p ∨ rest = js "./" ++ p := by
  have hkept : ∀ r, (js "./" ++ r).startsWith (js "./") = true := fun r =>
    List.isPrefixOf_iff_prefix.mpr (List.prefix_append _ _)
  have hstart : p.startsWith (js "./") ≠ true := by
    intro hstart
    obtain ⟨r, rfl⟩ := List.isPrefixOf_iff_prefix.mp hstart
    have hdot : js "." ∈ JSString.split (unit '/') (js "./" ++ r) := by
      rw [split_dotSlash]
      exact List.mem_cons_self ..
    exact (hp _ hdot).1 rfl
  constructor
  · intro h
    rw [stripDotSlash] at h
    split at h
    next hdot =>
      obtain ⟨r, rfl⟩ := List.isPrefixOf_iff_prefix.mp hdot
      exact .inr (congrArg (js "./" ++ ·) h)
    next => exact .inl h
  · rintro (rfl | rfl)
    · exact if_neg hstart
    · exact if_pos (hkept p)

/-- **A record that spells a path** is rewritten to it if the only dot segment is at the root. -/
theorem rewriteInput_eq_iff {workspace tag p path : JSString} (hp : DotFree p)
    (hspells : Spells workspace p path) :
    rewriteInput workspace tag path = inputRecord tag p ↔ DotAtRoot workspace p path := by
  rw [rewriteInput]
  by_cases hstart : (portable path).startsWith (workspacePrefix workspace) = false
  · rw [if_pos hstart, inputRecord_inj]
    have hroot : ∀ rest, portable path ≠ workspacePrefix workspace ++ rest := by
      rintro rest h
      rw [h] at hstart
      exact absurd (List.isPrefixOf_iff_prefix.mpr (List.prefix_append _ _)) (Bool.eq_false_iff.mp hstart)
    have hlonger : portable path ≠ p := by
      intro h
      have hlength := hspells.length_le
      have hne := List.length_pos_iff.mpr (JSString.split_ne_nil (unit '/') (portable workspace))
      rw [pathSegments, pathSegments, h, List.length_append] at hlength
      omega
    exact iff_of_false hlonger fun h => h.elim (hroot _) (hroot _)
  · rw [if_neg hstart, inputRecord_inj]
    obtain ⟨rest, hrest⟩ := List.isPrefixOf_iff_prefix.mp (Bool.of_not_eq_false hstart)
    rw [DotAtRoot, ← hrest, List.drop_left, List.append_cancel_left_eq, List.append_cancel_left_eq]
    exact stripDotSlash_eq_iff hp

/-- A record outside the workspace is only normalized. -/
theorem rewriteInput_of_outside {workspace tag path : JSString} (h : Outside workspace path) :
    rewriteInput workspace tag path = inputRecord tag (portable path) := by
  rw [rewriteInput]
  refine if_pos (Bool.eq_false_iff.mpr fun hstart => ?_)
  obtain ⟨rest, hrest⟩ := List.isPrefixOf_iff_prefix.mp hstart
  refine h (JSString.split (unit '/') rest) ?_
  rw [← pathSegments_append, hrest]
  exact .refl _

theorem rewriteInput_tag (workspace tag path : JSString) :
    ∃ path', rewriteInput workspace tag path = inputRecord tag path' := by
  rw [rewriteInput]
  split
  · exact ⟨_, rfl⟩
  · exact ⟨_, rfl⟩

/-- What becomes of a line is right if its record has no other dot segment. -/
theorem projectLine_iff {workspace line : JSString} :
    ProjectLine workspace line (rewriteLine workspace line) ↔
      ∀ tag p path, IsInput tag path line → DotFree p → Spells workspace p path →
        DotAtRoot workspace p path := by
  constructor
  · intro h tag p path hinput hp hspells
    have hline := h.inside tag p path hinput hp hspells
    rw [rewriteLine_of_isInput hinput] at hline
    exact (rewriteInput_eq_iff hp hspells).mp hline
  · intro h
    refine ⟨fun tag p path hinput hp hspells => ?_, fun tag path hinput houtside => ?_,
      fun tag path hinput => ?_, fun hnone => ?_⟩
    · rw [rewriteLine_of_isInput hinput]
      exact (rewriteInput_eq_iff hp hspells).mpr (h tag p path hinput hp hspells)
    · rw [rewriteLine_of_isInput hinput, rewriteInput_of_outside houtside]
    · rw [rewriteLine_of_isInput hinput]
      exact rewriteInput_tag workspace tag path
    · cases hparse : parseInput line with
      | none => rw [rewriteLine, hparse]
      | some record => exact absurd (parseInput_iff.mp hparse) (hnone record.1 record.2)

/-- **Project paths.**  The text keeps its lines and what ends them, and every line becomes what it has to,
if and only if a dot segment stands in no record of a project file but right behind the workspace. -/
theorem synctex_project_paths (workspace text : JSString) :
    (List.Forall₂ (ProjectLine workspace) (lines text) (lines (normalizeSynctex workspace text)) ∧
        lineTerminators (normalizeSynctex workspace text) = lineTerminators text) ↔
      ∀ line ∈ lines text, ∀ tag p path, IsInput tag path line → DotFree p →
        Spells workspace p path → DotAtRoot workspace p path := by
  obtain ⟨hlines, hterminators⟩ := lines_replaceLines (isLine_rewriteLine workspace) text [] nofun
  rw [List.nil_append] at hlines hterminators
  rw [normalizeSynctex, hlines, hterminators, List.forall₂_map_right_iff, List.forall₂_same]
  simp only [and_true]
  exact forall₂_congr fun line _ => projectLine_iff

/-- The compiler runs in the directory of a nested document and records its path with a dot segment
there. -/
theorem nested_record_kept :
    let workspace := js "/tmp/typr-companion-AbCdEf"
    let path := js "/tmp/typr-companion-AbCdEf/Booklet 1/./main.tex"
    let text := inputRecord (js "1") path
    DotFree (js "Booklet 1/main.tex") ∧ Spells workspace (js "Booklet 1/main.tex") path ∧
      normalizeSynctex workspace text = js "Input:1:Booklet 1/./main.tex" ∧
      ¬ List.Forall₂ (ProjectLine workspace) (lines text) (lines (normalizeSynctex workspace text)) := by
  intro workspace path text
  have hfree : DotFree (js "Booklet 1/main.tex") := by
    intro segment hsegment
    have hsegments : JSString.split (unit '/') (js "Booklet 1/main.tex") =
        [js "Booklet 1", js "main.tex"] := by decide
    rw [hsegments] at hsegment
    rcases List.mem_pair.mp hsegment with rfl | rfl
    · decide
    · decide
  have hspells : Spells workspace (js "Booklet 1/main.tex") path :=
    .keep _ (.keep _ (.keep _ (.keep _ (.dot (.keep _ .nil)))))
  have hinput : IsInput (js "1") path text := ⟨rfl, by decide, List.all_eq_true.mp rfl, by decide⟩
  have hlines : lines text = [text] := by decide
  have hrewritten : normalizeSynctex workspace text = js "Input:1:Booklet 1/./main.tex" := by decide
  refine ⟨hfree, hspells, hrewritten, fun h => ?_⟩
  rw [hrewritten, hlines] at h
  cases h with
  | cons hline _ =>
      have hsame := hline.inside _ _ _ hinput hfree hspells
      exact absurd hsame (by decide)

end Typr
