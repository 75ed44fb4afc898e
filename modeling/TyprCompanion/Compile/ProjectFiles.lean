import TyprCompanion.Js.Base64
import TyprCompanion.Js.Json
import TyprCompanion.Js.Path

/-!
# Project files

The files of a project, and the checks on their paths (`projectFiles.ts`).

* `ProjectFile` — a file as a client sends it.
* `validateProjectPath`, `IsProjectPath` — the check of the compile endpoint, and what a path that
  passes it is like.
-/

namespace Typr

/-- The names Windows reserves for devices. -/
def windowsDeviceNames : List JSString :=
  [js "CON", js "PRN", js "AUX", js "NUL"] ++
    ((js "123456789").flatMap fun digit => [js "COM" ++ [digit], js "LPT" ++ [digit]])

/-- A unit no Windows file name contains: one of `<>:"|?*` or a control character. -/
def isWindowsUnsafeUnit (u : CodeUnit) : Bool := (js "<>:\"|?*").contains u || u.toNat < 0x20

/-- `isWindowsUnsafePathSegment` -/
def isWindowsUnsafePathSegment (segment : JSString) : Bool :=
  let stem := ((JSString.split (unit '.') segment).headD []).toUpperCase
  segment.any isWindowsUnsafeUnit ||
    (segment.endsWith (js " ") || segment.endsWith (js ".")) ||
    windowsDeviceNames.contains stem

theorem isWindowsUnsafePathSegment_sameAscii {s t : JSString}
    (h : List.Forall₂ JSString.SameAscii s t) :
    isWindowsUnsafePathSegment s = isWindowsUnsafePathSegment t := by
  have hunits : ∀ u, isWindowsUnsafeUnit u = true → JSString.IsAscii u := by
    intro u hu
    simp only [isWindowsUnsafeUnit, Bool.or_eq_true, List.contains_iff_mem,
      decide_eq_true_eq] at hu
    rcases hu with hu | hu
    · exact JSString.isAscii_of_all (s := js "<>:\"|?*") (by decide) u hu
    · unfold JSString.IsAscii
      omega
  have hstem : List.Forall₂ JSString.SameAscii ((JSString.split (unit '.') s).headD [])
      ((JSString.split (unit '.') t).headD []) := by
    have hsplit := JSString.split_sameAscii (u := unit '.') (by decide) h
    generalize JSString.split (unit '.') s = segs at hsplit ⊢
    generalize JSString.split (unit '.') t = segs' at hsplit ⊢
    cases hsplit with
    | nil => exact .nil
    | cons hseg _ => exact hseg
  have hdevice : ∀ {a b : JSString}, List.Forall₂ JSString.SameAscii a b →
      windowsDeviceNames.contains a = windowsDeviceNames.contains b := by
    intro a b hab
    have hall : (windowsDeviceNames.all fun name =>
        name.all fun u => decide (JSString.IsAscii u)) = true := by decide
    have hnames : ∀ name ∈ windowsDeviceNames, ∀ u ∈ name, JSString.IsAscii u :=
      fun name hname => JSString.isAscii_of_all (List.all_eq_true.mp hall name hname)
    rw [Bool.eq_iff_iff, List.contains_iff_mem, List.contains_iff_mem]
    constructor
    · intro ha
      rwa [(JSString.eq_sameAscii (hnames a ha) hab).mp rfl]
    · intro hb
      rwa [(JSString.eq_sameAscii (hnames b hb) hab).mpr rfl]
  simp only [isWindowsUnsafePathSegment, JSString.any_sameAscii hunits h,
    JSString.endsWith_sameAscii (a := js " ") (JSString.isAscii_of_all (by decide)) h,
    JSString.endsWith_sameAscii (a := js ".") (JSString.isAscii_of_all (by decide)) h,
    hdevice (JSString.toUpperCase_sameAscii hstem)]

/-! ## Files -/

/-- A file of a project. -/
inductive ProjectFile where
  | text (path content : JSString)
  /-- The content is base64. -/
  | binary (path content : JSString)
  deriving DecidableEq

/-- The path of a file. -/
def ProjectFile.path : ProjectFile → JSString
  | text path _ => path
  | binary path _ => path

/-- `validateProjectPath`, with the path when there is no error. -/
def validateProjectPath (platform : Platform) (value : Option Json) (label : JSString) :
    Except JSString JSString :=
  match value.bind Json.string? with
  | none => .error (label ++ js " must be a non-empty relative path.")
  | some value =>
      if value.length = 0 then .error (label ++ js " must be a non-empty relative path.")
      else if value = js "." ∨ JSString.endsWith value (js "/") = true ∨
          JSString.includes value 0 = true ∨ JSString.includes value 0x5C = true ∨
          isAbsolute platform value = true ∨ isAbsolute .win32 value = true then
        .error (label ++ js " must be a safe relative POSIX path.")
      else
        let segments := JSString.split (unit '/') value
        if segments.contains (js "..") = true then
          .error (label ++ js " must not contain parent-directory traversal.")
        else if platform = .win32 ∧ segments.any isWindowsUnsafePathSegment = true then
          .error (label ++ js " contains a file name that Windows cannot store safely.")
        else .ok value

/-- What the compile endpoint requires of a path. -/
structure IsProjectPath (platform : Platform) (path : JSString) : Prop where
  nonempty : path ≠ []
  notDot : path ≠ js "."
  noTrailingSlash : path.endsWith (js "/") = false
  noNul : path.includes 0 = false
  noBackslash : path.includes 0x5C = false
  relative : isAbsolute platform path = false
  relativeWin32 : isAbsolute .win32 path = false
  noTraversal : js ".." ∉ JSString.split (unit '/') path
  safeSegments : platform = .win32 →
    ∀ segment ∈ JSString.split (unit '/') path, isWindowsUnsafePathSegment segment = false

theorem validateProjectPath_ok {platform : Platform} {value : Option Json} {label path : JSString}
    (h : validateProjectPath platform value label = .ok path) :
    value.bind Json.string? = some path ∧ IsProjectPath platform path := by
  unfold validateProjectPath at h
  cases hvalue : value.bind Json.string? with
  | none => simp [hvalue] at h
  | some text =>
      simp only [hvalue] at h
      split_ifs at h with hempty hshape htraversal hwindows
      obtain rfl := Except.ok.inj h
      simp only [not_or, Bool.not_eq_true] at hshape
      obtain ⟨hdot, hend, hnul, hback, habsolute, hwin32⟩ := hshape
      refine ⟨rfl, ⟨fun hnil => hempty (by rw [hnil]; rfl), hdot, hend, hnul, hback, habsolute,
        hwin32, fun hmem => htraversal (List.contains_iff_mem.mpr hmem), fun hplatform => ?_⟩⟩
      intro segment hsegment
      refine Bool.eq_false_iff.mpr fun hunsafe => hwindows ⟨hplatform, ?_⟩
      exact List.any_eq_true.mpr ⟨segment, hsegment, hunsafe⟩

/-- The last component of an accepted path is its last segment, on every host. -/
theorem IsProjectPath.basename_eq {platform : Platform} {path : JSString}
    (h : IsProjectPath platform path) : basename platform path = lastSegment path := by
  cases platform with
  | posix => exact lastComponent_eq_lastSegment (fun u _ => rfl) h.nonempty h.noTrailingSlash
  | win32 =>
      have hcolon : unit ':' ∉ path := by
        intro hmem
        obtain ⟨segment, hsegment, hmem⟩ :=
          JSString.exists_mem_split (u := unit '/') (by decide) hmem
        have hunsafe : segment.any isWindowsUnsafeUnit = true :=
          List.any_eq_true.mpr ⟨_, hmem, by decide⟩
        have hsafe := h.safeSegments rfl segment hsegment
        simp [isWindowsUnsafePathSegment, hunsafe] at hsafe
      have hseparator : ∀ u ∈ path, JSString.isPathSeparator u = (u == unit '/') := by
        intro u hu
        have hback : (u == 0x5C) = false := by
          refine beq_false_of_ne ?_
          rintro rfl
          have := h.noBackslash
          simp [JSString.includes, hu] at this
        rw [JSString.isPathSeparator, hback, Bool.or_false]
      have hdrive : basename .win32 path = lastComponent JSString.isPathSeparator path := by
        cases path with
        | nil => rfl
        | cons u rest =>
            cases rest with
            | nil => rfl
            | cons v rest =>
                have hv : (v == unit ':') = false := by
                  refine beq_false_of_ne ?_
                  rintro rfl
                  exact hcolon (by simp)
                simp [basename, hv]
      rw [hdrive]
      exact lastComponent_eq_lastSegment hseparator h.nonempty h.noTrailingSlash

end Typr
