import TyprCompanion.Compile.ProjectFiles
import TyprCompanion.Core.FileSystem

/-!
# Workspace paths

What a client may name in a workspace, and the location on disk a path names.

* `validateWorkspacePath` — the check every operation makes first; `WorkspacePath` is what passes it.
* `FileName`, `relativeLocation` — names on disk are UTF-8, so a path names the location spelled by
  the encodings of its segments; paths that differ only in lone surrogates name the same one.
* `isHidden` — the names the workspace never shows: `.git` and the temporary files of writes.
* `validateWorkspacePath_toWellFormed` — the path as it is read back from the disk is valid too.
-/

namespace Typr

open Core

/-- A refusal with its HTTP status.  Every one of them is a client error. -/
structure WorkspaceError where
  status : Nat
  code : JSString
  message : JSString
  clientError : 400 ≤ status ∧ status < 500
  deriving DecidableEq

/-- Names of unfinished writes start with this. -/
def INTERNAL_WRITE_PREFIX : JSString := js ".typr-companion-write-"

def MAX_PATH_BYTES : Nat := 1024
def MAX_SEGMENT_BYTES : Nat := 255
def MAX_PATH_DEPTH : Nat := 64

/-! ## The check -/

/-- `/[\u0000-\u001f\u007f]/u` -/
def isControlUnit (u : CodeUnit) : Bool := u.toNat < 0x20 || u.toNat == 0x7F

/-- A segment no workspace path contains. -/
def isProhibitedSegment (platform : Platform) (segment : JSString) : Bool :=
  segment.length == 0 || segment == js "." || segment == js ".." || segment == js ".git" ||
    JSString.startsWith segment INTERNAL_WRITE_PREFIX ||
    MAX_SEGMENT_BYTES < JSString.byteLength segment || segment.any isControlUnit ||
    (platform == .win32 && isWindowsUnsafePathSegment segment)

/-- 400 is the status of a refusal. -/
theorem badRequest_client : 400 ≤ 400 ∧ 400 < 500 := by decide

/-- A path is refused with status 400. -/
def invalidWorkspacePath (message : JSString) : WorkspaceError :=
  ⟨400, js "invalid-workspace-path", message, badRequest_client⟩

/-- `validateWorkspacePath` -/
def validateWorkspacePath (platform : Platform) (value : JSString) :
    Except WorkspaceError JSString :=
  if value.length = 0 ∨ JSString.includes value 0x5C = true ∨ JSString.includes value 0 = true ∨
      isAbsolute platform value = true then
    .error (invalidWorkspacePath (js "Workspace path must be a non-empty relative POSIX path."))
  else if MAX_PATH_BYTES < JSString.byteLength value then
    .error (invalidWorkspacePath (js "Workspace path is too long."))
  else
    let segments := JSString.split (unit '/') value
    if MAX_PATH_DEPTH < segments.length ∨ segments.any (isProhibitedSegment platform) = true then
      .error (invalidWorkspacePath (js "Workspace path contains a prohibited segment."))
    else .ok (JSString.join (unit '/') segments)

/-- **A valid path.**  The operations receive it unchanged. -/
def IsWorkspacePath (platform : Platform) (path : JSString) : Prop :=
  validateWorkspacePath platform path = .ok path

instance (platform : Platform) (path : JSString) : Decidable (IsWorkspacePath platform path) :=
  match h : validateWorkspacePath platform path with
  | .ok value =>
      if heq : value = path then .isTrue (by rw [IsWorkspacePath, h, heq])
      else .isFalse (by rw [IsWorkspacePath, h]; simpa using heq)
  | .error _ => .isFalse (by rw [IsWorkspacePath, h]; simp)

/-- What the check looks at. -/
theorem isWorkspacePath_iff {platform : Platform} {path : JSString} :
    IsWorkspacePath platform path ↔
      ¬ (path.length = 0 ∨ JSString.includes path 0x5C = true ∨
          JSString.includes path 0 = true ∨ isAbsolute platform path = true) ∧
      JSString.byteLength path ≤ MAX_PATH_BYTES ∧
      (JSString.split (unit '/') path).length ≤ MAX_PATH_DEPTH ∧
      (JSString.split (unit '/') path).any (isProhibitedSegment platform) = false := by
  simp only [IsWorkspacePath, validateWorkspacePath, JSString.join_split]
  split_ifs with hshape hlong hsegs
  · exact iff_of_false (by simp) fun h => h.1 hshape
  · exact iff_of_false (by simp) fun h => absurd h.2.1 (by omega)
  · refine iff_of_false (by simp) fun h => ?_
    rcases hsegs with hdepth | hsegs
    · exact absurd h.2.2.1 (by omega)
    · exact absurd hsegs (by simp [h.2.2.2])
  · simp only [not_or, Nat.not_lt, Bool.not_eq_true] at hsegs
    exact iff_of_true rfl ⟨hshape, by omega, hsegs⟩

theorem validateWorkspacePath_cases (platform : Platform) (value : JSString) :
    IsWorkspacePath platform value ∨
      ∃ message, validateWorkspacePath platform value = .error (invalidWorkspacePath message) := by
  simp only [IsWorkspacePath, validateWorkspacePath, JSString.join_split]
  split_ifs
  · exact .inr ⟨_, rfl⟩
  · exact .inr ⟨_, rfl⟩
  · exact .inr ⟨_, rfl⟩
  · exact .inl rfl

theorem IsWorkspacePath.segments {platform : Platform} {path : JSString}
    (h : IsWorkspacePath platform path) :
    (JSString.split (unit '/') path).length ≤ MAX_PATH_DEPTH ∧
      ∀ segment ∈ JSString.split (unit '/') path, isProhibitedSegment platform segment = false := by
  obtain ⟨-, -, hdepth, hsegs⟩ := isWorkspacePath_iff.mp h
  exact ⟨hdepth, fun segment hsegment =>
    Bool.eq_false_iff.mpr (List.any_eq_false.mp hsegs segment hsegment)⟩

/-- A path that passed the check. -/
structure WorkspacePath (platform : Platform) where
  text : JSString
  valid : IsWorkspacePath platform text

/-- The path of a request, or the refusal. -/
def WorkspacePath.parse (platform : Platform) (value : JSString) :
    Except WorkspaceError (WorkspacePath platform) :=
  match h : validateWorkspacePath platform value with
  | .ok normalized => .ok ⟨normalized, by
      rcases validateWorkspacePath_cases platform value with hvalid | ⟨_, herror⟩
      · obtain rfl : normalized = value := by
          rw [IsWorkspacePath, h] at hvalid
          simpa using hvalid
        exact hvalid
      · rw [herror] at h
        exact absurd h (by simp)⟩
  | .error e => .error e

/-- The directories on the way of a valid path have valid paths. -/
theorem IsWorkspacePath.of_append {platform : Platform} {s t : JSString} (hs : s ≠ [])
    (h : IsWorkspacePath platform (s ++ unit '/' :: t)) : IsWorkspacePath platform s := by
  rw [isWorkspacePath_iff, JSString.split_append] at h
  obtain ⟨hshape, hbytes, hdepth, hsegs⟩ := h
  simp only [not_or] at hshape
  obtain ⟨-, hback, hnul, habs⟩ := hshape
  have hincludes : ∀ {u : CodeUnit}, ¬ JSString.includes (s ++ unit '/' :: t) u = true →
      ¬ JSString.includes s u = true := by
    intro u hu hmem
    refine hu ?_
    simp only [JSString.includes, List.contains_iff_mem] at hmem ⊢
    exact List.mem_append_left _ hmem
  refine isWorkspacePath_iff.mpr ⟨?_, ?_, ?_, ?_⟩
  · rintro (hnil | hmem | hmem | hmem)
    · exact hs (List.length_eq_zero_iff.mp hnil)
    · exact hincludes hback hmem
    · exact hincludes hnul hmem
    · exact habs (isAbsolute_append platform hmem _)
  · rw [JSString.byteLength, JSString.encodeUtf8_append (by decide), List.length_append] at hbytes
    rw [JSString.byteLength]
    omega
  · rw [List.length_append] at hdepth
    omega
  · rw [List.any_append, Bool.or_eq_false_iff] at hsegs
    exact hsegs.1

/-! ## Locations -/

/-- A name in a directory: the UTF-8 encoding of some string. -/
def FileName : Type := {bytes : Bytes // JSString.encodeUtf8 (JSString.decodeUtf8 bytes) = bytes}
  deriving DecidableEq

/-- The name a segment of a path stands for. -/
def fileName (segment : JSString) : FileName :=
  ⟨JSString.encodeUtf8 segment, by simp [JSString.decodeUtf8_encodeUtf8]⟩

/-- The name as the runtime reports it. -/
def FileName.text (name : FileName) : JSString := JSString.decodeUtf8 name.val

@[simp] theorem fileName_text (name : FileName) : fileName name.text = name :=
  Subtype.ext name.property

@[simp] theorem text_fileName (segment : JSString) :
    (fileName segment).text = JSString.toWellFormed segment :=
  JSString.decodeUtf8_encodeUtf8 segment

/-- A place on disk. -/
abbrev Location := List FileName

/-- Where a path leads, from the workspace root. -/
def relativeLocation (path : JSString) : Location :=
  (JSString.split (unit '/') path).map fileName

/-- The path of a location below the root. -/
def pathOf (relative : Location) : JSString :=
  JSString.join (unit '/') (relative.map FileName.text)

/-- `${prefix}/${name}`, or the name alone at the root. -/
def childPathOf (parent name : JSString) : JSString :=
  if parent = [] then name else parent ++ unit '/' :: name

theorem relativeLocation_ne_nil (path : JSString) : relativeLocation path ≠ [] := by
  simp [relativeLocation, JSString.split_ne_nil]

/-- The directory of git's own data. -/
def gitName : FileName := fileName (js ".git")

/-- `scan` skips these names. -/
def isHidden (name : FileName) : Bool :=
  name.text == js ".git" || JSString.startsWith name.text INTERNAL_WRITE_PREFIX

@[simp] theorem isHidden_gitName : isHidden gitName = true := by decide

theorem isHidden_fileName {platform : Platform} {segment : JSString}
    (h : isProhibitedSegment platform segment = false) : isHidden (fileName segment) = false := by
  have hsame := JSString.sameAscii_toWellFormed segment
  simp only [isProhibitedSegment, Bool.or_eq_false_iff] at h
  obtain ⟨⟨⟨⟨hrest, habove⟩, -⟩, -⟩, -⟩ := h
  rw [isHidden, text_fileName, Bool.or_eq_false_iff,
    ← JSString.startsWith_sameAscii (JSString.isAscii_of_all (by decide)) hsame]
  refine ⟨?_, habove⟩
  rw [beq_eq_false_iff_ne]
  exact mt (JSString.eq_sameAscii (JSString.isAscii_of_all (by decide)) hsame).mpr (beq_eq_false_iff_ne.mp hrest.2)

/-- A valid path leads past no hidden name. -/
theorem IsWorkspacePath.not_hidden {platform : Platform} {path : JSString}
    (h : IsWorkspacePath platform path) : ∀ name ∈ relativeLocation path, isHidden name = false := by
  intro name hname
  obtain ⟨segment, hsegment, rfl⟩ := List.mem_map.mp hname
  exact isHidden_fileName (h.segments.2 segment hsegment)

theorem not_mem_of_not_hidden {relative : Location}
    (h : ∀ name ∈ relative, isHidden name = false) : gitName ∉ relative :=
  fun hmem => absurd (h gitName hmem) (by simp)

/-! ## Paths as they come back from the disk -/

/-- The path `list` reports for what was written at `path`. -/
theorem pathOf_relativeLocation (path : JSString) :
    pathOf (relativeLocation path) = JSString.toWellFormed path := by
  have htext : FileName.text ∘ fileName = JSString.toWellFormed := funext text_fileName
  rw [pathOf, relativeLocation, List.map_map, htext, ← JSString.split_toWellFormed (by decide),
    JSString.join_split]

/-- The two paths lead to the same place. -/
theorem relativeLocation_toWellFormed (path : JSString) :
    relativeLocation (JSString.toWellFormed path) = relativeLocation path := by
  have hname : fileName ∘ JSString.toWellFormed = fileName :=
    funext fun segment => Subtype.ext (JSString.encodeUtf8_toWellFormed segment)
  rw [relativeLocation, JSString.split_toWellFormed (by decide), List.map_map, hname,
    relativeLocation]

theorem isProhibitedSegment_toWellFormed (platform : Platform) (segment : JSString) :
    isProhibitedSegment platform (JSString.toWellFormed segment)
      = isProhibitedSegment platform segment := by
  have hsame := JSString.sameAscii_toWellFormed segment
  have heq : ∀ {a : JSString}, (∀ u ∈ a, JSString.IsAscii u) →
      (JSString.toWellFormed segment == a) = (segment == a) := by
    intro a ha
    rw [Bool.eq_iff_iff, beq_iff_eq, beq_iff_eq]
    exact (JSString.eq_sameAscii ha hsame).symm
  have hcontrol : ∀ u, isControlUnit u = true → JSString.IsAscii u := by
    intro u hu
    simp only [isControlUnit, Bool.or_eq_true, decide_eq_true_eq, beq_iff_eq] at hu
    unfold JSString.IsAscii
    omega
  simp only [isProhibitedSegment, ← hsame.length_eq, heq (a := js ".") (JSString.isAscii_of_all (by decide)),
    heq (a := js "..") (JSString.isAscii_of_all (by decide)),
    heq (a := js ".git") (JSString.isAscii_of_all (by decide)), JSString.byteLength,
    JSString.encodeUtf8_toWellFormed, ← JSString.any_sameAscii hcontrol hsame,
    ← JSString.startsWith_sameAscii (a := INTERNAL_WRITE_PREFIX)
      (JSString.isAscii_of_all (by decide)) hsame,
    ← isWindowsUnsafePathSegment_sameAscii hsame]
  rfl

/-- **What was valid to write is valid to list.** -/
theorem validateWorkspacePath_toWellFormed {platform : Platform} {path : JSString}
    (h : IsWorkspacePath platform path) :
    IsWorkspacePath platform (JSString.toWellFormed path) := by
  have hsame := JSString.sameAscii_toWellFormed path
  have hincludes : ∀ {u : CodeUnit}, JSString.IsAscii u →
      JSString.includes (JSString.toWellFormed path) u = JSString.includes path u := by
    intro u hu
    have hany := JSString.any_sameAscii (p := (· == u))
      (fun v hv => by rw [beq_iff_eq.mp hv]; exact hu) hsame
    rw [Bool.eq_iff_iff] at hany ⊢
    simpa [JSString.includes] using hany.symm
  have hsplit := JSString.split_toWellFormed (u := unit '/') (by decide) path
  have hprohibited : (JSString.split (unit '/') (JSString.toWellFormed path)).any
      (isProhibitedSegment platform)
      = (JSString.split (unit '/') path).any (isProhibitedSegment platform) := by
    rw [hsplit, List.any_map]
    exact congrArg _ (funext fun segment => isProhibitedSegment_toWellFormed platform segment)
  rw [isWorkspacePath_iff] at h ⊢
  rwa [← hsame.length_eq, hincludes (by decide), hincludes (by decide),
    ← isAbsolute_sameAscii platform hsame, hprohibited, hsplit, List.length_map,
    JSString.byteLength, JSString.encodeUtf8_toWellFormed, ← JSString.byteLength]

/-- **The directories on the way** to a valid path: each is the location of a valid path. -/
theorem exists_path_above {platform : Platform} {path : JSString}
    (h : IsWorkspacePath platform path) {before : Location} (hne : before ≠ [])
    (habove : before <+: relativeLocation path) :
    ∃ path', IsWorkspacePath platform path' ∧ relativeLocation path' = before := by
  obtain ⟨after, hafter⟩ := habove
  by_cases hnil : after = []
  · exact ⟨path, h, by rw [← hafter, hnil, List.append_nil]⟩
  · obtain ⟨first, rest, hsplit, rfl, rfl⟩ := List.map_eq_append_iff.mp hafter.symm
    have hfirst : first ≠ [] := by simpa using hne
    have hrest : rest ≠ [] := by simpa using hnil
    have hpath : path = JSString.join (unit '/') first ++ unit '/' :: JSString.join (unit '/') rest := by
      rw [← JSString.join_append hfirst hrest, ← hsplit, JSString.join_split]
    have hslash : ∀ segment ∈ first, unit '/' ∉ segment := fun segment hsegment =>
      JSString.not_mem_of_mem_split (s := path) (by rw [hsplit]; exact List.mem_append_left _ hsegment)
    have hjoin := JSString.split_join hfirst hslash
    refine ⟨JSString.join (unit '/') first, ?_, by rw [relativeLocation, hjoin]⟩
    refine IsWorkspacePath.of_append ?_ (hpath ▸ h)
    -- an empty join would be an empty segment
    intro hempty
    have hsegment : ([] : JSString) ∈ JSString.split (unit '/') path := by
      rw [hpath, hempty]
      simp [JSString.split]
    have hprohibited := h.segments.2 [] hsegment
    simp [isProhibitedSegment] at hprohibited

end Typr
