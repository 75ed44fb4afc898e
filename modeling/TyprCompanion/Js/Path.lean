import TyprCompanion.Js.Text

/-!
# Paths as the runtime sees them

* `Platform`, `isAbsolute` — the host, and what `node:path` calls an absolute path on it.
* `basename`, `lastSegment` — the last component of a path, and when it is its last segment.
* `extname` — the extension of the last component.
-/

namespace Typr

/-- The value of `process.platform`, as far as the program asks. -/
inductive Platform where
  | posix
  | win32
  deriving DecidableEq

namespace JSString

/-- `posix.isAbsolute(path)` -/
def isAbsolutePosix (path : JSString) : Bool := path.startsWith [unit '/']

/-- `/` or `\\` -/
def isPathSeparator (u : CodeUnit) : Bool := u == unit '/' || u == 0x5C

/-- A drive letter. -/
def isWindowsDeviceRoot (u : CodeUnit) : Bool :=
  (0x41 ≤ u.toNat && u.toNat ≤ 0x5A) || (0x61 ≤ u.toNat && u.toNat ≤ 0x7A)

/-- `win32.isAbsolute(path)` -/
def isAbsoluteWin32 (path : JSString) : Bool :=
  match path with
  | [] => false
  | u :: v :: w :: _ => isPathSeparator u || (isWindowsDeviceRoot u && v == unit ':' && isPathSeparator w)
  | u :: _ => isPathSeparator u

end JSString

/-- `isAbsolute(path)` -/
def isAbsolute : Platform → JSString → Bool
  | .posix, path => path.isAbsolutePosix
  | .win32, path => path.isAbsoluteWin32

/-- `sep` -/
def sep : Platform → CodeUnit
  | .posix => unit '/'
  | .win32 => 0x5C

/-- The last component of a path, separators at its end ignored. -/
def lastComponent (isSeparator : CodeUnit → Bool) (path : JSString) : JSString :=
  ((path.reverse.dropWhile isSeparator).takeWhile fun u => !isSeparator u).reverse

/-- `basename(path)`; on Windows a drive prefix does not belong to the component. -/
def basename : Platform → JSString → JSString
  | .posix, path => lastComponent (· == unit '/') path
  | .win32, path => lastComponent JSString.isPathSeparator (match path with
    | u :: v :: rest => if JSString.isWindowsDeviceRoot u && v == unit ':' then rest else path
    | _ => path)

/-- `extname(path)`: from the last dot of the last component on, unless it starts there or is `..` -/
def extname (platform : Platform) (path : JSString) : JSString :=
  let component := basename platform path
  let stem := component.rdropWhile (· != unit '.')
  if stem.length ≤ 1 ∨ component = js ".." then [] else component.drop (stem.length - 1)

/-- The last segment of a path. -/
def lastSegment (path : JSString) : JSString := (JSString.split (unit '/') path).getLastD []

/-- Where `/` is the only separator and does not end the path, the last component is the last
segment. -/
theorem lastComponent_eq_lastSegment {isSeparator : CodeUnit → Bool} {path : JSString}
    (hseparator : ∀ u ∈ path, isSeparator u = (u == unit '/')) (hne : path ≠ [])
    (hend : path.endsWith [unit '/'] = false) : lastComponent isSeparator path = lastSegment path := by
  obtain ⟨segs, last, hsegs⟩ : ∃ segs last, JSString.split (unit '/') path = segs ++ [last] :=
    ⟨_, _, (List.dropLast_append_getLast (JSString.split_ne_nil (unit '/') path)).symm⟩
  have hpath := JSString.join_split (unit '/') path
  have hlast : lastSegment path = last := by simp [lastSegment, hsegs]
  have hslash : ∀ u ∈ last, (u == unit '/') = false := by
    intro u hu
    have hmem : last ∈ JSString.split (unit '/') path := by simp [hsegs]
    exact beq_false_of_ne fun h => JSString.not_mem_of_mem_split hmem (h ▸ hu)
  obtain ⟨front, hfront, hpath⟩ : ∃ front : JSString,
      (front = [] ∨ ∃ rest, front = rest ++ [unit '/']) ∧ path = front ++ last := by
    rw [hsegs] at hpath
    by_cases hnil : segs = []
    · subst hnil
      exact ⟨[], .inl rfl, hpath.symm⟩
    · refine ⟨JSString.join (unit '/') segs ++ [unit '/'], .inr ⟨_, rfl⟩, ?_⟩
      rw [← hpath, JSString.join_append hnil (by simp)]
      simp [JSString.join]
  have hnonempty : last ≠ [] := by
    rintro rfl
    rcases hfront with rfl | ⟨rest, rfl⟩
    · exact hne hpath
    · have hsuffix : [unit '/'] <:+ path := by simp [hpath]
      rw [JSString.endsWith, List.isSuffixOf_iff_suffix.mpr hsuffix] at hend
      cases hend
  have hplain : ∀ u ∈ last, isSeparator u = false := by
    intro u hu
    rw [hseparator u (by simp [hpath, hu]), hslash u hu]
  have hdrop : path.reverse.dropWhile isSeparator = path.reverse := by
    rw [hpath, List.reverse_append]
    cases hreverse : last.reverse with
    | nil => exact absurd (List.reverse_eq_nil_iff.mp hreverse) hnonempty
    | cons u rest =>
        have hu : u ∈ last := List.mem_reverse.mp (hreverse ▸ List.mem_cons_self ..)
        rw [List.cons_append, List.dropWhile_cons_of_neg (by simp [hplain u hu])]
  have hall : ∀ u ∈ last.reverse, (!isSeparator u) = true := by
    intro u hu
    rw [hplain u (List.mem_reverse.mp hu), Bool.not_false]
  have hstop : front.reverse.takeWhile (fun u => !isSeparator u) = [] := by
    rcases hfront with rfl | ⟨rest, rfl⟩
    · rfl
    · have hunit : isSeparator (unit '/') = true := by
        rw [hseparator _ (by simp [hpath]), beq_self_eq_true]
      simp [hunit]
  rw [lastComponent, hdrop, hlast, hpath, List.reverse_append, List.takeWhile_append_of_pos hall,
    hstop, List.append_nil, List.reverse_reverse]

/-- A path that starts like an absolute one is absolute. -/
theorem isAbsolute_append (platform : Platform) {s : JSString} (h : isAbsolute platform s = true)
    (t : JSString) : isAbsolute platform (s ++ t) = true := by
  cases platform with
  | posix =>
      simp only [isAbsolute, JSString.isAbsolutePosix, JSString.startsWith,
        List.isPrefixOf_iff_prefix] at h ⊢
      exact h.trans (List.prefix_append s t)
  | win32 =>
      rcases s with - | ⟨u, - | ⟨v, - | ⟨w, rest⟩⟩⟩
      · simp [isAbsolute, JSString.isAbsoluteWin32] at h
      · have hu : JSString.isPathSeparator u = true := h
        rcases t with - | ⟨v, - | ⟨w, rest⟩⟩
        · exact h
        · exact h
        · simp [isAbsolute, JSString.isAbsoluteWin32, hu]
      · have hu : JSString.isPathSeparator u = true := h
        rcases t with - | ⟨w, rest⟩
        · exact h
        · simp [isAbsolute, JSString.isAbsoluteWin32, hu]
      · exact h

theorem isAbsolute_sameAscii (platform : Platform) {s t : JSString}
    (h : List.Forall₂ JSString.SameAscii s t) : isAbsolute platform s = isAbsolute platform t := by
  have hone : ∀ {p : CodeUnit → Bool}, (∀ u, p u = true → JSString.IsAscii u) →
      ∀ {u v : CodeUnit}, JSString.SameAscii u v → p u = p v := by
    intro p hp u v huv
    have := JSString.any_sameAscii hp (List.Forall₂.cons huv .nil)
    simpa using this
  have hsep : ∀ u, JSString.isPathSeparator u = true → JSString.IsAscii u := by
    intro u hu
    simp only [JSString.isPathSeparator, Bool.or_eq_true, beq_iff_eq] at hu
    rcases hu with rfl | rfl <;> decide
  have hroot : ∀ u, JSString.isWindowsDeviceRoot u = true → JSString.IsAscii u := by
    intro u hu
    simp only [JSString.isWindowsDeviceRoot, Bool.or_eq_true, Bool.and_eq_true,
      decide_eq_true_eq] at hu
    unfold JSString.IsAscii
    omega
  have hcolon : ∀ u, (u == unit ':') = true → JSString.IsAscii u := by
    intro u hu
    rw [beq_iff_eq.mp hu]
    decide
  cases platform with
  | posix => exact JSString.startsWith_sameAscii (JSString.isAscii_of_all (by decide)) h
  | win32 =>
      cases h with
      | nil => rfl
      | cons hu h =>
          cases h with
          | nil => exact hone hsep hu
          | cons hv h =>
              cases h with
              | nil => exact hone hsep hu
              | cons hw _ =>
                  simp only [isAbsolute, JSString.isAbsoluteWin32, hone hsep hu, hone hroot hu,
                    hone hcolon hv, hone hsep hw]

end Typr
