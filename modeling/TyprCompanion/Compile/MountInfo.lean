import TyprCompanion.Js.Json

/-!
# Mount tables

The text of `/proc/self/mountinfo`: how the kernel writes it, and how it is read.

* `mangle` — the octal escapes of the kernel.
* `Mount`, `Mount.render`, `renderTable` — the lines of a mount table.
* `decodeMountInfoPath` — the escapes as they are read.
* **`decodeMountInfoPath_mangle`** — a mount point is read as it is.
* **`Mount.split_render`**, **`Mount.separator`** — a line is split into its fields, and the first
  `-` among them is the separator behind the optional fields.
-/

namespace Typr

/-! ## The escapes -/

/-- A unit as a backslash and three octal digits. -/
def octalEscape (u : CodeUnit) : JSString := [0x5C, 0x30 + u / 64, 0x30 + u / 8 % 8, 0x30 + u % 8]

/-- Escape the special units, as the kernel does. -/
def mangle (special s : JSString) : JSString :=
  s.flatMap fun u => if special.contains u = true then octalEscape u else [u]

/-- What is escaped in a path: space, tab, line feed and backslash. -/
def PATH_SPECIALS : JSString := [0x20, 0x09, 0x0A, 0x5C]

/-- What is escaped in the name of a type or a device: `#`, too. -/
def NAME_SPECIALS : JSString := [0x20, 0x09, 0x0A, 0x5C, 0x23]

/-- The unit of an escape that is read: `/\\(040|011|012|134)/gu`. -/
def octalUnit (escape : JSString) : Option CodeUnit :=
  if escape = js "\\040" then some 0x20
  else if escape = js "\\011" then some 0x09
  else if escape = js "\\012" then some 0x0A
  else if escape = js "\\134" then some 0x5C
  else none

/-- `decodeMountInfoPath` -/
def decodeMountInfoPath : JSString → JSString
  | u :: a :: b :: c :: rest => match octalUnit [u, a, b, c] with
      | some decoded => decoded :: decodeMountInfoPath rest
      | none => u :: decodeMountInfoPath (a :: b :: c :: rest)
  | u :: rest => u :: decodeMountInfoPath rest
  | [] => []

section Mangle

variable {special s t : JSString} {u : CodeUnit}

@[simp] theorem mangle_nil : mangle special [] = [] := rfl

theorem mangle_cons (special : JSString) (u : CodeUnit) (rest : JSString) :
    mangle special (u :: rest)
      = (if special.contains u = true then octalEscape u else [u]) ++ mangle special rest := rfl

theorem octalUnit_of_ne (h : u ≠ 0x5C) (rest : JSString) : octalUnit (u :: rest) = none := by
  have hne : ∀ digits : JSString, u :: rest ≠ 0x5C :: digits := fun digits heq =>
    h (List.cons.inj heq).1
  rw [octalUnit, show js "\\040" = 0x5C :: js "040" from rfl,
    show js "\\011" = 0x5C :: js "011" from rfl, show js "\\012" = 0x5C :: js "012" from rfl,
    show js "\\134" = 0x5C :: js "134" from rfl,
    if_neg (hne _), if_neg (hne _), if_neg (hne _), if_neg (hne _)]

theorem decodeMountInfoPath_cons (h : u ≠ 0x5C) (rest : JSString) :
    decodeMountInfoPath (u :: rest) = u :: decodeMountInfoPath rest := by
  match rest with
  | [] => rfl
  | [a] => rfl
  | [a, b] => rfl
  | a :: b :: c :: rest => rw [decodeMountInfoPath, octalUnit_of_ne h]

theorem decodeMountInfoPath_octalEscape (h : u ∈ PATH_SPECIALS) (rest : JSString) :
    decodeMountInfoPath (octalEscape u ++ rest) = u :: decodeMountInfoPath rest := by
  simp only [PATH_SPECIALS, List.mem_cons, List.not_mem_nil, or_false] at h
  rcases h with rfl | rfl | rfl | rfl <;> rfl

/-- **Reading undoes the escapes** of a path, whatever characters it has. -/
theorem decodeMountInfoPath_mangle (s : JSString) :
    decodeMountInfoPath (mangle PATH_SPECIALS s) = s := by
  induction s with
  | nil => rfl
  | cons u rest ih =>
      rw [mangle_cons]
      split
      next hspecial =>
        rw [decodeMountInfoPath_octalEscape (List.contains_iff_mem.mp hspecial), ih]
      next hplain =>
        have hne : u ≠ 0x5C := by
          rintro rfl
          exact hplain (by decide)
        rw [List.singleton_append, decodeMountInfoPath_cons hne, ih]

/-- An escaped text has none of the special units that no escape is made of. -/
theorem not_mem_mangle {v : CodeUnit} (hv : v ∈ special)
    (hescape : (special.all fun u => !(octalEscape u).contains v) = true) (s : JSString) :
    v ∉ mangle special s := by
  intro hmem
  obtain ⟨u, -, hu⟩ := List.mem_flatMap.mp hmem
  split at hu
  next hspecial =>
    have hfree := List.all_eq_true.mp hescape u (List.contains_iff_mem.mp hspecial)
    rw [List.contains_iff_mem.mpr hu] at hfree
    cases hfree
  next hplain =>
    obtain rfl : v = u := List.mem_singleton.mp hu
    exact hplain (List.contains_iff_mem.mpr hv)

/-- What has no backslash after escaping was not escaped. -/
theorem eq_of_mangle_eq (ht : 0x5C ∉ t) (h : mangle special s = t) : s = t := by
  induction s generalizing t with
  | nil => exact h
  | cons u rest ih =>
      rw [mangle_cons] at h
      subst h
      split at ht
      next => exact absurd (List.mem_append_left _ List.mem_cons_self) ht
      next hplain =>
        rw [if_neg hplain, List.singleton_append]
        exact congrArg (u :: ·) (ih (fun hmem => ht (List.mem_append_right _ hmem)) rfl)

theorem mangle_of_plain (h : ∀ u ∈ s, u ∉ special) : mangle special s = s := by
  induction s with
  | nil => rfl
  | cons u rest ih =>
      have hplain : ¬ special.contains u = true := fun hmem =>
        h u List.mem_cons_self (List.contains_iff_mem.mp hmem)
      rw [mangle_cons, if_neg hplain, ih fun v hv => h v (List.mem_cons_of_mem _ hv),
        List.singleton_append]

/-- A name without special units is told apart from every other name after escaping. -/
theorem mangle_eq_iff (hplain : (t.all fun u => !special.contains u) = true)
    (hbackslash : 0x5C ∈ special) : mangle special s = t ↔ s = t := by
  have hfree : ∀ u ∈ t, u ∉ special := by
    intro u hu hspecial
    have hu := List.all_eq_true.mp hplain u hu
    rw [List.contains_iff_mem.mpr hspecial] at hu
    cases hu
  constructor
  · exact eq_of_mangle_eq fun hmem => hfree _ hmem hbackslash
  · rintro rfl
    exact mangle_of_plain hfree

end Mangle

/-! ## The lines -/

/-- A text that is one field of a line, and not the separator. -/
def IsField (s : JSString) : Prop := 0x20 ∉ s ∧ 0x0A ∉ s ∧ s ≠ js "-"

/-- A mount, with what the kernel writes of it. -/
structure Mount where
  id : Nat
  parent : Nat
  major : Nat
  minor : Nat
  root : JSString
  mountPoint : JSString
  options : JSString
  optionalFields : List JSString
  filesystemType : JSString
  source : JSString
  superOptions : JSString
  root_ne : root ≠ js "-"
  mountPoint_rooted : mountPoint.startsWith (js "/") = true
  options_field : IsField options
  optionalFields_field : ∀ field ∈ optionalFields, IsField field
  filesystemType_ne : filesystemType ≠ []
  superOptions_line : 0x0A ∉ superOptions

namespace Mount

/-- The fields before the separator. -/
def leading (mount : Mount) : List JSString :=
  [jsNat mount.id, jsNat mount.parent, jsNat mount.major ++ 0x3A :: jsNat mount.minor,
    mangle PATH_SPECIALS mount.root, mangle PATH_SPECIALS mount.mountPoint, mount.options] ++
  mount.optionalFields

/-- The fields of a line up to the options of the file system. -/
def fields (mount : Mount) : List JSString :=
  mount.leading ++
  [js "-", mangle NAME_SPECIALS mount.filesystemType, mangle NAME_SPECIALS mount.source]

/-- A line of the table. -/
def render (mount : Mount) : JSString :=
  JSString.join 0x20 mount.fields ++ 0x20 :: mount.superOptions

end Mount

/-- A mount table as the kernel writes it. -/
def renderTable (mounts : List Mount) : JSString :=
  mounts.flatMap fun mount => mount.render ++ [0x0A]

/-! ## What is read of a line -/

theorem mem_jsNat {n : Nat} {u : CodeUnit} (h : u ∈ jsNat n) : 0x30 ≤ u ∧ u ≤ 0x39 := by
  obtain ⟨c, hc, hu⟩ := List.mem_flatMap.mp h
  have hdigit : c.isDigit = true := by
    have hdigits : c ∈ Nat.toDigits 10 n := by simpa [toString, Nat.repr] using hc
    exact Nat.isDigit_of_mem_toDigits (by omega) (by omega) hdigits
  simp only [Char.isDigit, Bool.and_eq_true, decide_eq_true_eq] at hdigit
  have hlower : 0x30 ≤ c.toNat := hdigit.1
  have hupper : c.toNat ≤ 0x39 := hdigit.2
  rw [utf16, if_pos (by omega), List.mem_singleton] at hu
  subst hu
  constructor <;> rw [UInt16.le_iff_toNat_le, UInt16.toNat_ofNat'] <;>
    rw [Nat.mod_eq_of_lt (by omega)] <;> assumption

theorem isField_of_digits {s : JSString} (h : ∀ u ∈ s, 0x30 ≤ u ∧ u ≤ 0x3A) : IsField s := by
  refine ⟨fun hmem => ?_, fun hmem => ?_, ?_⟩
  · exact absurd (h _ hmem) (by decide)
  · exact absurd (h _ hmem) (by decide)
  · rintro rfl
    exact absurd (h 0x2D (by decide)) (by decide)

theorem isField_mangle {s : JSString} (hs : s ≠ js "-") : IsField (mangle PATH_SPECIALS s) :=
  ⟨not_mem_mangle (by decide) (by decide) s, not_mem_mangle (by decide) (by decide) s,
    fun heq => hs (eq_of_mangle_eq (by decide) heq)⟩

namespace Mount

variable (mount : Mount)

theorem mountPoint_ne : mount.mountPoint ≠ js "-" := fun h =>
  absurd (h ▸ mount.mountPoint_rooted) (by decide)

theorem isField_leading : ∀ field ∈ mount.leading, IsField field := by
  have hnat : ∀ n, IsField (jsNat n) := fun n =>
    isField_of_digits fun u hu => ⟨(mem_jsNat hu).1, UInt16.le_trans (mem_jsNat hu).2 (by decide)⟩
  have hdevice : IsField (jsNat mount.major ++ 0x3A :: jsNat mount.minor) := by
    refine isField_of_digits fun u hu => ?_
    rcases List.mem_append.mp hu with hu | hu
    · exact ⟨(mem_jsNat hu).1, UInt16.le_trans (mem_jsNat hu).2 (by decide)⟩
    · rcases List.mem_cons.mp hu with rfl | hu
      · decide
      · exact ⟨(mem_jsNat hu).1, UInt16.le_trans (mem_jsNat hu).2 (by decide)⟩
  intro field hfield
  rcases List.mem_append.mp hfield with hfield | hfield
  · simp only [List.mem_cons, List.not_mem_nil, or_false] at hfield
    rcases hfield with rfl | rfl | rfl | rfl | rfl | rfl
    · exact hnat _
    · exact hnat _
    · exact hdevice
    · exact isField_mangle mount.root_ne
    · exact isField_mangle mount.mountPoint_ne
    · exact mount.options_field
  · exact mount.optionalFields_field field hfield

/-- Every field is free of the separators of fields and lines. -/
theorem plain_fields : ∀ field ∈ mount.fields, 0x20 ∉ field ∧ 0x0A ∉ field := by
  have hname : ∀ s, 0x20 ∉ mangle NAME_SPECIALS s ∧ 0x0A ∉ mangle NAME_SPECIALS s := fun s =>
    ⟨not_mem_mangle (by decide) (by decide) s, not_mem_mangle (by decide) (by decide) s⟩
  intro field hfield
  rcases List.mem_append.mp hfield with hfield | hfield
  · exact ⟨(mount.isField_leading field hfield).1, (mount.isField_leading field hfield).2.1⟩
  · simp only [List.mem_cons, List.not_mem_nil, or_false] at hfield
    rcases hfield with rfl | rfl | rfl
    · decide
    · exact hname _
    · exact hname _

/-- **A line is split into its fields**, the options of the file system last. -/
theorem split_render :
    JSString.split 0x20 mount.render
      = mount.fields ++ JSString.split 0x20 mount.superOptions := by
  rw [render, JSString.split_append,
    JSString.split_join (by simp [fields]) fun field hfield => (mount.plain_fields field hfield).1]

/-- **The first `-` of a line is the separator**, whatever the optional fields are. -/
theorem separator (rest : List JSString) :
    (mount.fields ++ rest).findIdx? (· == js "-") = some mount.leading.length := by
  have hleading : mount.leading.findIdx? (· == js "-") = none := by
    rw [List.findIdx?_eq_none_iff]
    exact fun field hfield => beq_eq_false_iff_ne.mpr (mount.isField_leading field hfield).2.2
  rw [fields, List.append_assoc, List.findIdx?_append, hleading, List.cons_append,
    List.findIdx?_cons]
  simp

theorem filesystemType_at (rest : List JSString) :
    (mount.fields ++ rest)[mount.leading.length + 1]?
      = some (mangle NAME_SPECIALS mount.filesystemType) := by
  rw [fields, List.append_assoc, List.getElem?_append_right (by omega)]
  simp

theorem mountPoint_at (rest : List JSString) :
    (mount.fields ++ rest)[4]? = some (mangle PATH_SPECIALS mount.mountPoint) := rfl

theorem seven_le (rest : List JSString) : 7 ≤ (mount.fields ++ rest).length := by
  simp [fields, leading]
  omega

theorem not_mem_render : 0x0A ∉ mount.render := by
  have hjoin : ∀ segs : List JSString, (∀ seg ∈ segs, 0x0A ∉ seg) →
      0x0A ∉ JSString.join 0x20 segs := by
    intro segs h
    induction segs with
    | nil => exact List.not_mem_nil
    | cons seg segs ih =>
        cases segs with
        | nil => exact h seg List.mem_cons_self
        | cons second segs =>
            intro hmem
            rcases List.mem_append.mp hmem with hmem | hmem
            · exact h seg List.mem_cons_self hmem
            · rcases List.mem_cons.mp hmem with heq | hmem
              · exact absurd heq (by decide)
              · exact ih (fun s hs => h s (List.mem_cons_of_mem _ hs)) hmem
  intro hmem
  rcases List.mem_append.mp hmem with hmem | hmem
  · exact hjoin _ (fun field hfield => (mount.plain_fields field hfield).2) hmem
  · rcases List.mem_cons.mp hmem with heq | hmem
    · exact absurd heq (by decide)
    · exact mount.superOptions_line hmem

theorem render_ne_nil : mount.render ≠ [] := by
  simp [render]

end Mount

/-- A table is split into its lines. -/
theorem split_renderTable (mounts : List Mount) :
    JSString.split 0x0A (renderTable mounts) = mounts.map Mount.render ++ [[]] := by
  induction mounts with
  | nil => rfl
  | cons mount rest ih =>
      rw [renderTable, List.flatMap_cons, List.append_assoc, List.singleton_append,
        JSString.split_append, JSString.split_of_not_mem mount.not_mem_render]
      exact congrArg (mount.render :: ·) ih

end Typr
