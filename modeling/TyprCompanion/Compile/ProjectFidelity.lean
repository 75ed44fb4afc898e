import TyprCompanion.Compile.Materialize

/-!
# A project as it is written

What `materializeProjectFiles` leaves in an empty directory when no call fails for a reason of its own.

* `ProjectFile.segments`, `ProjectFile.way` — where a file belongs below the root.
* `Storable` — the projects that can be written: no path leaves the root by its looks, no location is
  too long, and no file lies where another one needs a directory.
* `Placed` — a directory that holds the files of a project and nothing else.
* **`materializeProjectFiles_faithful`** — exactly the projects that can be written are written, and
  exactly they and nothing else are there afterwards.
-/

namespace Typr

open Core

/-- The segments of a path that name something. -/
def ProjectFile.segments (file : ProjectFile) : List JSString :=
  (JSString.split (unit '/') file.path).filter fun segment => segment ≠ [] ∧ segment ≠ js "."

/-- The way from the root to a file. -/
def ProjectFile.way (file : ProjectFile) : Location := file.segments.map fileName

/-! ## The destination of a path -/

section Destination

variable {file : ProjectFile} {base : List JSString}

theorem ProjectFile.plain_segments (h : IsProjectPath .posix file.path) :
    ∀ segment ∈ file.segments, PlainSegment segment := by
  intro segment hsegment
  obtain ⟨hmem, hkept⟩ := List.mem_filter.mp hsegment
  obtain ⟨hnonempty, hdot⟩ := of_decide_eq_true hkept
  exact ⟨hnonempty, hdot, fun hdots => h.noTraversal (hdots ▸ hmem), JSString.not_mem_of_mem_split hmem⟩

theorem normalizePosix_path (h : IsProjectPath .posix file.path) :
    normalizePosix file.path
      = if file.segments = [] then js "." else JSString.join (unit '/') file.segments := by
  have hrelative : file.path.isAbsolutePosix = false := h.relative
  have htrailing : file.path.endsWith [unit '/'] = false := h.noTrailingSlash
  have hsegments : normalizeSegments false (JSString.split (unit '/') file.path) = file.segments := by
    rw [normalizeSegments, foldl_keep_without_dots _ h.noTraversal, List.append_nil,
      List.reverse_reverse]
    rfl
  rw [normalizePosix, if_neg h.nonempty]
  simp [hrelative, htrailing, hsegments]

/-- How a joined path begins. -/
theorem exists_join (first : JSString) (rest : List JSString) :
    ∃ tail, JSString.join (unit '/') (first :: rest) = first ++ tail ∧
      (tail = [] ∨ ∃ more, tail = unit '/' :: more) := by
  cases rest with
  | nil => exact ⟨[], (List.append_nil first).symm, .inl rfl⟩
  | cons second rest => exact ⟨_, rfl, .inr ⟨_, rfl⟩⟩

/-- A joined path is relative when its segments are plain. -/
theorem isAbsolutePosix_join {segments : List JSString}
    (h : ∀ segment ∈ segments, PlainSegment segment) :
    (JSString.join (unit '/') segments).isAbsolutePosix = false := by
  cases segments with
  | nil => rfl
  | cons first rest =>
      obtain ⟨tail, hjoin, -⟩ := exists_join first rest
      have hfirst := h first List.mem_cons_self
      obtain ⟨u, body, rfl⟩ := List.exists_cons_of_ne_nil hfirst.nonempty
      have hslash : unit '/' ≠ u := fun heq => hfirst.unsplit (heq ▸ List.mem_cons_self)
      simp [hjoin, JSString.isAbsolutePosix, JSString.startsWith, List.isPrefixOf, hslash]

/-- Whether a joined path begins with `..` is up to its first segment. -/
theorem startsWith_join {segments : List JSString}
    (h : ∀ segment ∈ segments, PlainSegment segment) :
    (JSString.join (unit '/') segments).startsWith (js "..")
      = (segments.headD []).startsWith (js "..") := by
  cases segments with
  | nil => rfl
  | cons first rest =>
      obtain ⟨tail, hjoin, htail⟩ := exists_join first rest
      have hfirst := h first List.mem_cons_self
      obtain ⟨u, body, rfl⟩ := List.exists_cons_of_ne_nil hfirst.nonempty
      rw [hjoin, List.headD_cons]
      cases body with
      | nil =>
          have hdot : unit '.' ≠ u := fun heq => hfirst.not_dot (by rw [← heq]; rfl)
          have hdots : js ".." = [unit '.', unit '.'] := rfl
          simp [hdots, JSString.startsWith, List.isPrefixOf, hdot]
      | cons v body => rfl

theorem normalizeSegments_below (hbase : ∀ segment ∈ base, PlainSegment segment)
    (h : IsProjectPath .posix file.path) :
    normalizeSegments true (JSString.split (unit '/') (absolutePath base) ++
      JSString.split (unit '/') (normalizePosix file.path)) = base ++ file.segments := by
  have hplain := ProjectFile.plain_segments h
  rw [normalizeSegments_append, normalizeSegments_absolutePath hbase, normalizePosix_path h]
  by_cases hnil : file.segments = []
  · rw [if_pos hnil, hnil, List.append_nil,
      show JSString.split (unit '/') (js ".") = [js "."] from rfl, List.foldl_cons,
      keepSegment_dot _ (.inr rfl), List.foldl_nil, List.reverse_reverse]
  · rw [if_neg hnil, JSString.split_join hnil fun segment hsegment => (hplain segment hsegment).unsplit,
      foldl_keep_plain _ hplain, List.reverse_append, List.reverse_reverse, List.reverse_reverse]

theorem resolvePosix_path (hbase : ∀ segment ∈ base, PlainSegment segment)
    (h : IsProjectPath .posix file.path) :
    resolvePosix (absolutePath base) (normalizePosix file.path) = absolutePath (base ++ file.segments) := by
  have hrelative : (normalizePosix file.path).isAbsolutePosix = false := by
    rw [normalizePosix_path h]
    split
    next => rfl
    next => exact isAbsolutePosix_join (ProjectFile.plain_segments h)
  simp only [resolvePosix, hrelative, Bool.false_eq_true, if_false, normalizeSegments_below hbase h]
  rfl

theorem commonLength_append (source target : List JSString) :
    commonLength source (source ++ target) = source.length := by
  induction source with
  | nil => rfl
  | cons segment source ih => rw [List.cons_append, commonLength, if_pos rfl, ih, List.length_cons]

/-- **The destination of an accepted path** is below the root, unless it looks as if it left it. -/
theorem resolveProjectPath_eq {root : JSString} (hbase : ∀ segment ∈ base, PlainSegment segment)
    (hroot : resolvePosix root [] = absolutePath base) (h : IsProjectPath .posix file.path) :
    resolveProjectPath root file.path
      = if (file.segments.headD []).startsWith (js "..") = true then
          .error (js "Project path resolves outside the temporary project directory.")
        else .ok (absolutePath (base ++ file.segments)) := by
  have hplain := ProjectFile.plain_segments h
  have hall : ∀ segment ∈ base ++ file.segments, PlainSegment segment :=
    List.forall_mem_append.mpr ⟨hbase, hplain⟩
  have hrelative : relativePosix (absolutePath base) (absolutePath (base ++ file.segments))
      = JSString.join (unit '/') file.segments := by
    simp only [relativePosix, normalizeSegments_absolutePath hbase, normalizeSegments_absolutePath hall,
      commonLength_append, Nat.sub_self, List.replicate_zero, List.nil_append, List.drop_left]
  have hinside : isAbsolute .posix (JSString.join (unit '/') file.segments) = false :=
    isAbsolutePosix_join hplain
  simp only [resolveProjectPath, hroot, resolvePosix_path hbase h, hrelative, hinside,
    startsWith_join hplain, Bool.false_eq_true, or_false]

/-- What a segment contains is in the joined path. -/
theorem mem_join {u : CodeUnit} {segment : JSString} {segments : List JSString}
    (hsegment : segment ∈ segments) (hu : u ∈ segment) : u ∈ JSString.join (unit '/') segments := by
  induction segments with
  | nil => cases hsegment
  | cons first rest ih =>
      cases rest with
      | nil => rwa [List.mem_singleton.mp hsegment] at hu
      | cons second rest =>
          rcases List.mem_cons.mp hsegment with rfl | hrest
          · exact List.mem_append_left _ hu
          · exact List.mem_append_right _ (List.mem_cons_of_mem _ (ih hrest))

theorem mem_of_mem_join {u : CodeUnit} (hne : u ≠ unit '/') {segments : List JSString}
    (h : u ∈ JSString.join (unit '/') segments) : ∃ segment ∈ segments, u ∈ segment := by
  induction segments with
  | nil => cases h
  | cons first rest ih =>
      cases rest with
      | nil => exact ⟨first, List.mem_cons_self, h⟩
      | cons second rest =>
          rcases List.mem_append.mp h with hfirst | hrest
          · exact ⟨first, List.mem_cons_self, hfirst⟩
          · obtain ⟨segment, hsegment, hu⟩ := ih ((List.mem_cons.mp hrest).resolve_left hne)
            exact ⟨segment, List.mem_cons_of_mem _ hsegment, hu⟩

/-- An absolute path contains a NUL exactly when one of its segments does. -/
theorem includes_absolutePath {segments : List JSString} :
    (absolutePath segments).includes 0 = false ↔ ∀ segment ∈ segments, (0 : CodeUnit) ∉ segment := by
  have hslash : (0 : CodeUnit) ≠ unit '/' := by decide
  rw [JSString.includes, Bool.eq_false_iff, ne_eq, List.contains_iff_mem]
  constructor
  · exact fun h segment hsegment hu => h (List.mem_cons_of_mem _ (mem_join hsegment hu))
  · intro h hu
    obtain ⟨segment, hsegment, hmem⟩ :=
      mem_of_mem_join hslash ((List.mem_cons.mp hu).resolve_left hslash)
    exact h segment hsegment hmem

theorem ProjectFile.nul_free_segments (h : IsProjectPath .posix file.path) :
    ∀ segment ∈ file.segments, (0 : CodeUnit) ∉ segment := by
  intro segment hsegment hu
  have hpath : (0 : CodeUnit) ∈ file.path := by
    rw [← JSString.join_split (unit '/') file.path]
    exact mem_join (List.mem_of_mem_filter hsegment) hu
  have hnul := h.noNul
  rw [JSString.includes, Bool.eq_false_iff, ne_eq, List.contains_iff_mem] at hnul
  exact hnul hpath

end Destination

/-! ## The files on disk -/

/-- The projects that can be written below a root: their paths are accepted, stay inside by their
looks, name something and are not too long, and no file lies where another one needs a directory. -/
structure Storable (fits : Location → Bool) (root : Location) (files : List ProjectFile) : Prop where
  accepted : ∀ file ∈ files, IsProjectPath .posix file.path
  inside : ∀ file ∈ files, (file.segments.headD []).startsWith (js "..") = false
  stored : ∀ file ∈ files, ∀ way, way <+: file.way → fits (root ++ way) = true
  named : ∀ file ∈ files, file.way ≠ []
  apart : ∀ file ∈ files, ∀ other ∈ files, file.way <+: other.way → file.way = other.way

/-- A directory that holds the files of a project and the directories on their ways, and nothing
else.  Of the files with one way the last is there. -/
structure Placed (root : Location) (files : List ProjectFile) (d : Disk FileName) : Prop where
  dirs : ∀ way, d.entryAt (root ++ way) = some .dir ↔
    way = [] ∨ ∃ file ∈ files, way <+: file.way ∧ way ≠ file.way
  regular : ∀ way, (∃ i, d.entryAt (root ++ way) = some (.file i)) ↔ ∃ file ∈ files, file.way = way
  nothing : ∀ way, d.entryAt (root ++ way) = none ∨ d.entryAt (root ++ way) = some .dir ∨
    ∃ i, d.entryAt (root ++ way) = some (.file i)
  single : ∀ way way' i, d.entryAt (root ++ way) = some (.file i) →
    d.entryAt (root ++ way') = some (.file i) → way = way'
  contents : ∀ way, d.contentAt (root ++ way)
    = (files.reverse.find? (·.way = way)).map ProjectFile.bytes

/-- Files with one way have the same content. -/
def Agreeing (files : List ProjectFile) : Prop :=
  ∀ file ∈ files, ∀ other ∈ files, file.way = other.way → file.bytes = other.bytes

section Placing

variable {fits : Location → Bool} {root way : Location} {files : List ProjectFile}
  {file : ProjectFile} {d d' d₁ : Disk FileName}

/-- An empty directory holds the files of the project without files. -/
theorem placed_nil (hdir : d.entryAt root = some .dir)
    (hempty : ∀ name, d.entryAt (root ++ [name]) = none) : Placed root [] d := by
  have hnone : ∀ way, way ≠ [] → d.entryAt (root ++ way) = none := by
    intro way hne
    obtain ⟨name, rest, rfl⟩ := List.exists_cons_of_ne_nil hne
    rw [List.append_cons]
    exact Disk.entryAt_append_none (hempty name) rest
  refine ⟨fun way => ?_, fun way => ?_, fun way => ?_, fun way way' i hway => ?_, fun way => ?_⟩
  all_goals by_cases hnil : way = []
  · simp [hnil, hdir]
  · simp [hnil, hnone way hnil]
  · simp [hnil, hdir]
  · simp [hnone way hnil]
  · simp [hnil, hdir]
  · simp [hnone way hnil]
  · simp [hnil, hdir] at hway
  · simp [hnone way hnil] at hway
  · simp [hnil, Disk.contentAt, hdir]
  · simp [Disk.contentAt, hnone way hnil]

theorem Placed.root_dir (h : Placed root files d) : d.entryAt root = some .dir := by
  have hdir := (h.dirs []).mpr (.inl rfl)
  rwa [List.append_nil] at hdir

/-- A location on the way to one below the root is on the way to the root, or below it. -/
theorem Placed.entry_on_way (h : Placed root files d) {w : Location} (hw : w <+: root ++ way) :
    (w <+: root ∧ d.entryAt w = some .dir) ∨ ∃ rest, rest <+: way ∧ w = root ++ rest := by
  rcases List.prefix_or_prefix_of_prefix hw (List.prefix_append root way) with hroot | ⟨rest, rfl⟩
  · obtain ⟨rest, hrest⟩ := id hroot
    refine .inl ⟨hroot, ?_⟩
    have hdir := h.root_dir
    by_cases hnil : rest = []
    · rwa [← hrest, hnil, List.append_nil] at hdir
    · rw [← hrest] at hdir
      exact Disk.entryAt_append hnil (by simp [hdir])
  · exact .inr ⟨rest, (List.prefix_append_right_inj root).mp hw, rfl⟩

/-- There is no link on a way through the root. -/
theorem Placed.plainWay (h : Placed root files d) (way : Location) :
    Disk.PlainWay d [] (root ++ way) := by
  intro w hw target
  rw [List.nil_append]
  rcases h.entry_on_way hw with ⟨-, hdir⟩ | ⟨rest, -, rfl⟩
  · simp [hdir]
  · rcases h.nothing rest with hnone | hdir | ⟨i, hfile⟩
    · simp [hnone]
    · simp [hdir]
    · simp [hfile]

/-- The directories on a way below the root can be made exactly when none is too long and no file
lies on the way. -/
theorem Placed.canMake_iff (h : Placed root files d) (hfits : ∀ way, way <+: root → fits way = true) :
    (∀ w, w <+: root ++ way → w ≠ [] → Disk.CanMake fits d ([] ++ w)) ↔
      (∀ w, w <+: way → fits (root ++ w) = true) ∧ ∀ file ∈ files, ¬ file.way <+: way := by
  constructor
  · intro hcan
    refine ⟨fun w hw => ?_, fun file hfile hway => ?_⟩
    · by_cases hnil : root ++ w = []
      · rw [hnil]
        exact hfits [] List.nil_prefix
      · exact (hcan _ ((List.prefix_append_right_inj root).mpr hw) hnil).1
    · obtain ⟨i, hentry⟩ := (h.regular file.way).mpr ⟨file, hfile, rfl⟩
      have hne : root ++ file.way ≠ [] := by
        intro hnil
        rw [hnil, Disk.entryAt_nil] at hentry
        cases hentry
      rcases (hcan _ ((List.prefix_append_right_inj root).mpr hway) hne).2 with hnone | hdir
      · rw [List.nil_append, hentry] at hnone
        cases hnone
      · rw [List.nil_append, hentry] at hdir
        cases hdir
  · rintro ⟨hstored, hoff⟩ w hw -
    rw [List.nil_append]
    rcases h.entry_on_way hw with ⟨hroot, hdir⟩ | ⟨rest, hrest, rfl⟩
    · exact ⟨hfits w hroot, .inr hdir⟩
    · refine ⟨hstored rest hrest, ?_⟩
      rcases h.nothing rest with hnone | hdir | hfile
      · exact .inl hnone
      · exact .inr hdir
      · obtain ⟨file, hmem, rfl⟩ := (h.regular rest).mp hfile
        exact absurd hrest (hoff file hmem)

/-- A file was written at a way below the root, after the directories on it were made. -/
structure Wrote (root way : Location) (content : Bytes) (d d' : Disk FileName) : Prop where
  above : ∀ w, w <+: way → w ≠ way → d'.entryAt (root ++ w) = some .dir
  kept : ∀ w, ¬ w <+: way → d'.entryAt (root ++ w) = d.entryAt (root ++ w)
  written : ∃ i, d'.entryAt (root ++ way) = some (.file i) ∧ (d'.inodes i).content = content ∧
    ∀ w j, w ≠ way → d.entryAt (root ++ w) = some (.file j) → j ≠ i ∧ d'.inodes j = d.inodes j

/-- No file of the project lies on the way of another one, and none needs a directory there. -/
def Fitting (files : List ProjectFile) (way : Location) : Prop :=
  ∀ file ∈ files, (file.way <+: way → file.way = way) ∧ (way <+: file.way → way = file.way)

/-- **One more file** that fits. -/
theorem Placed.wrote (h : Placed root files d) (hne : file.way ≠ []) (hfitting : Fitting files file.way)
    (hwrote : Wrote root file.way file.bytes d d') : Placed root (files ++ [file]) d' := by
  obtain ⟨i, hfile, hcontent, hapart⟩ := hwrote.written
  have hmem : file ∈ files ++ [file] := List.mem_append_right _ (List.mem_singleton_self _)
  have hold : ∀ other ∈ files, other ∈ files ++ [file] := fun other => List.mem_append_left _
  have hcases : ∀ way, way = file.way ∨ (way <+: file.way ∧ way ≠ file.way) ∨ ¬ way <+: file.way := by
    intro way
    by_cases hway : way <+: file.way
    · by_cases heq : way = file.way
      · exact .inl heq
      · exact .inr (.inl ⟨hway, heq⟩)
    · exact .inr (.inr hway)
  have hbefore : ∀ way j, way ≠ file.way → d'.entryAt (root ++ way) = some (.file j) →
      d.entryAt (root ++ way) = some (.file j) := by
    intro way j hway hentry
    rcases hcases way with heq | ⟨hbegins, hne⟩ | hoff
    · exact absurd heq hway
    · rw [hwrote.above way hbegins hne] at hentry
      cases hentry
    · rwa [hwrote.kept way hoff] at hentry
  refine ⟨fun way => ?_, fun way => ?_, fun way => ?_, fun way way' j hway hway' => ?_, fun way => ?_⟩
  · rcases hcases way with rfl | ⟨hbegins, hway⟩ | hoff
    · rw [hfile]
      refine iff_of_false (by simp) ?_
      rintro (hnil | ⟨other, hother, hbegins, hdiffer⟩)
      · exact hne hnil
      · rcases List.mem_append.mp hother with hother | hother
        · exact hdiffer ((hfitting other hother).2 hbegins)
        · exact hdiffer (by rw [List.mem_singleton.mp hother])
    · exact iff_of_true (hwrote.above way hbegins hway) (.inr ⟨file, hmem, hbegins, hway⟩)
    · rw [hwrote.kept way hoff, h.dirs]
      refine or_congr_right ⟨?_, ?_⟩
      · rintro ⟨other, hother, hbegins, hdiffer⟩
        exact ⟨other, hold other hother, hbegins, hdiffer⟩
      · rintro ⟨other, hother, hbegins, hdiffer⟩
        rcases List.mem_append.mp hother with hother | hother
        · exact ⟨other, hother, hbegins, hdiffer⟩
        · rw [List.mem_singleton.mp hother] at hbegins
          exact absurd hbegins hoff
  · rcases hcases way with rfl | ⟨hbegins, hway⟩ | hoff
    · exact iff_of_true ⟨i, hfile⟩ ⟨file, hmem, rfl⟩
    · rw [hwrote.above way hbegins hway]
      refine iff_of_false (by simp) ?_
      rintro ⟨other, hother, rfl⟩
      rcases List.mem_append.mp hother with hother | hother
      · exact hway ((hfitting other hother).1 hbegins)
      · exact hway (by rw [List.mem_singleton.mp hother])
    · rw [hwrote.kept way hoff, h.regular]
      constructor
      · rintro ⟨other, hother, rfl⟩
        exact ⟨other, hold other hother, rfl⟩
      · rintro ⟨other, hother, rfl⟩
        rcases List.mem_append.mp hother with hother | hother
        · exact ⟨other, hother, rfl⟩
        · rw [List.mem_singleton.mp hother] at hoff
          exact absurd (List.prefix_refl _) hoff
  · rcases hcases way with rfl | ⟨hbegins, hway⟩ | hoff
    · exact .inr (.inr ⟨i, hfile⟩)
    · exact .inr (.inl (hwrote.above way hbegins hway))
    · rw [hwrote.kept way hoff]
      exact h.nothing way
  · by_cases heq : way = file.way
    · by_cases heq' : way' = file.way
      · rw [heq, heq']
      · rw [heq, hfile] at hway
        have hother := hapart way' j heq' (hbefore way' j heq' hway')
        exact absurd (Entry.file.inj (Option.some.inj hway)).symm hother.1
    · by_cases heq' : way' = file.way
      · rw [heq', hfile] at hway'
        have hother := hapart way j heq (hbefore way j heq hway)
        exact absurd (Entry.file.inj (Option.some.inj hway')).symm hother.1
      · exact h.single way way' j (hbefore way j heq hway) (hbefore way' j heq' hway')
  · rw [List.reverse_append, List.reverse_singleton, List.singleton_append]
    rcases hcases way with rfl | ⟨hbegins, hway⟩ | hoff
    · rw [List.find?_cons_of_pos (by simp), Disk.contentAt_file hfile, hcontent]
      rfl
    · have hnone : files.reverse.find? (·.way = way) = none := by
        rw [List.find?_eq_none]
        intro other hother
        rw [decide_eq_true_eq]
        rintro rfl
        exact hway ((hfitting other (List.mem_reverse.mp hother)).1 hbegins)
      rw [List.find?_cons_of_neg (by simpa using Ne.symm hway), hnone, Disk.contentAt,
        hwrote.above way hbegins hway]
      rfl
    · have hway : file.way ≠ way := fun heq => hoff (heq ▸ List.prefix_refl _)
      rw [List.find?_cons_of_neg (by simpa using hway), ← h.contents]
      exact Disk.contentAt_congr (hwrote.kept way hoff) fun j hj => (hapart way j hway.symm hj).2

theorem prefix_dropLast_iff {w : Location} (hne : way ≠ []) :
    w <+: way.dropLast ↔ w <+: way ∧ w ≠ way := by
  obtain ⟨front, last, rfl⟩ := (List.eq_nil_or_concat' way).resolve_left hne
  rw [List.dropLast_concat, List.prefix_concat_iff]
  constructor
  · intro hfront
    refine ⟨.inr hfront, fun heq => ?_⟩
    have hlength := hfront.length_le
    rw [heq, List.length_append, List.length_singleton] at hlength
    omega
  · rintro ⟨heq | hfront, hdiffer⟩
    · exact absurd heq hdiffer
    · exact hfront

/-- What is below the root after the directories on a way were made. -/
theorem entryAt_opened (hopened : Disk.Opened [] (root ++ way.dropLast) d d₁) (hne : way ≠ []) :
    (∀ w, w <+: way → w ≠ way → d₁.entryAt (root ++ w) = some .dir) ∧
    ∀ w, ¬ (w <+: way ∧ w ≠ way) → d₁.entryAt (root ++ w) = d.entryAt (root ++ w) := by
  constructor
  · intro w hw hdiffer
    exact hopened.made _ ((List.prefix_append_right_inj root).mpr ((prefix_dropLast_iff hne).mpr ⟨hw, hdiffer⟩))
  · intro w hw
    refine hopened.kept _ fun other hother heq => hw ((prefix_dropLast_iff hne).mp ?_)
    rw [List.nil_append] at heq
    exact (List.prefix_append_right_inj root).mp (heq ▸ hother)

/-- **A file is written** where its directories were made, unless a directory is there. -/
theorem Placed.written (h : Placed root files d) (hne : way ≠ [])
    (hopened : Disk.Opened [] (root ++ way.dropLast) d d₁) (now : Nat) (content : Bytes) :
    ((d₁.writeWhole fits now 0o666 (root ++ way) content).1 = .ok () ↔
      fits (root ++ way) = true ∧ d.entryAt (root ++ way) ≠ some .dir) ∧
    ((d₁.writeWhole fits now 0o666 (root ++ way) content).1 = .ok () →
      Wrote root way content d (d₁.writeWhole fits now 0o666 (root ++ way) content).2) := by
  obtain ⟨habove, hsame⟩ := entryAt_opened hopened hne
  have hself : d₁.entryAt (root ++ way) = d.entryAt (root ++ way) := hsame way fun h => h.2 rfl
  have hdir : d₁.entryAt (root ++ way).dropLast = some .dir := by
    rw [List.dropLast_append_of_ne_nil hne]
    refine habove _ (List.dropLast_prefix way) fun heq => ?_
    have hlength := congrArg List.length heq
    rw [List.length_dropLast] at hlength
    have := List.length_pos_iff.mpr hne
    omega
  have hlink : ∀ target, d₁.entryAt (root ++ way) ≠ some (.link target) := by
    intro target
    rw [hself]
    rcases h.nothing way with hnone | hthere | ⟨i, hfile⟩
    · simp [hnone]
    · simp [hthere]
    · simp [hfile]
  obtain ⟨hok, hnew, hover⟩ := Disk.writeWhole_outcome fits now 0o666 content hdir hlink
  rw [hself] at hok hnew hover
  refine ⟨hok, fun hdone => ?_⟩
  obtain ⟨hfits, hfree⟩ := hok.mp hdone
  have hne_way : ∀ w, ¬ w <+: way → w ≠ way := fun w hw heq => hw (heq ▸ List.prefix_refl _)
  rcases h.nothing way with hnone | hthere | ⟨i, hfile⟩
  · have hput : (d₁.allocate ⟨content, 0o666, now⟩).CanPut (root ++ way) (.file d₁.nextInode) := by
      refine ⟨by simp [hne], hdir, ?_, Nat.lt_succ_self _⟩
      rw [Disk.entryAt_allocate, hself, hnone]
      simp
    have hentry := Disk.entryAt_put hput
    rw [hnew hfits hnone]
    refine ⟨fun w hw hdiffer => ?_, fun w hw => ?_, d₁.nextInode, ?_, ?_, fun w j hdiffer hj => ?_⟩
    · rw [hentry, if_neg (by simpa using hdiffer)]
      exact habove w hw hdiffer
    · rw [hentry, if_neg (by simpa using hne_way w hw)]
      exact hsame w fun h => hw h.1
    · rw [hentry, if_pos rfl]
    · rw [Disk.inodes_put, Disk.inodes_allocate, if_pos rfl]
    · have hlt := Disk.fresh_entryAt hj
      rw [← hopened.nextInode] at hlt
      rw [Disk.inodes_put, Disk.inodes_allocate, if_neg (Nat.ne_of_lt hlt), hopened.inodes]
      exact ⟨Nat.ne_of_lt hlt, rfl⟩
  · exact absurd hthere hfree
  · rw [hover hfits i hfile]
    refine ⟨habove, fun w hw => hsame w fun h => hw h.1, i, ?_, ?_, fun w j hdiffer hj => ?_⟩
    · rw [Disk.entryAt_setInode, hself]
      exact hfile
    · rw [Disk.inodes_setInode, if_pos rfl]
    · have hother : j ≠ i := fun heq => hdiffer (h.single w way i (heq ▸ hj) hfile)
      rw [Disk.inodes_setInode, if_neg hother, hopened.inodes]
      exact ⟨hother, rfl⟩

theorem fitting_iff (h : Placed root files d) (hne : way ≠ []) :
    Fitting files way ↔
      (∀ file ∈ files, ¬ file.way <+: way.dropLast) ∧ d.entryAt (root ++ way) ≠ some .dir := by
  rw [ne_eq, h.dirs]
  constructor
  · intro hfitting
    refine ⟨fun file hfile hbegins => ?_, ?_⟩
    · obtain ⟨hbegins, hdiffer⟩ := (prefix_dropLast_iff hne).mp hbegins
      exact hdiffer ((hfitting file hfile).1 hbegins)
    · rintro (hnil | ⟨file, hfile, hbegins, hdiffer⟩)
      · exact hne hnil
      · exact hdiffer ((hfitting file hfile).2 hbegins)
  · rintro ⟨hoff, hfree⟩ file hfile
    refine ⟨fun hbegins => ?_, fun hbegins => ?_⟩
    · by_contra hdiffer
      exact hoff file hfile ((prefix_dropLast_iff hne).mpr ⟨hbegins, hdiffer⟩)
    · by_contra hdiffer
      exact hfree (.inr ⟨file, hfile, hbegins, hdiffer⟩)

/-- **Making the directories of a file and writing it** succeeds exactly when it fits, and places it. -/
theorem Placed.step (h : Placed root files d) (hfits : ∀ way, way <+: root → fits way = true)
    (hne : file.way ≠ []) :
    ((d.makeDirectories fits [] (root ++ file.way).dropLast).1 = .ok () ↔
      (∀ w, w <+: file.way.dropLast → fits (root ++ w) = true) ∧
        ∀ other ∈ files, ¬ other.way <+: file.way.dropLast) ∧
    ∀ now, (d.makeDirectories fits [] (root ++ file.way).dropLast).1 = .ok () →
      (((d.makeDirectories fits [] (root ++ file.way).dropLast).2.writeWhole fits now 0o666
        (root ++ file.way) file.bytes).1 = .ok () ↔
        fits (root ++ file.way) = true ∧ d.entryAt (root ++ file.way) ≠ some .dir) ∧
      (((d.makeDirectories fits [] (root ++ file.way).dropLast).2.writeWhole fits now 0o666
        (root ++ file.way) file.bytes).1 = .ok () →
        Placed root (files ++ [file]) ((d.makeDirectories fits []
          (root ++ file.way).dropLast).2.writeWhole fits now 0o666 (root ++ file.way) file.bytes).2) := by
  rw [List.dropLast_append_of_ne_nil hne]
  obtain ⟨hmake, hopened⟩ :=
    Disk.makeDirectories_ok fits (Disk.entryAt_nil d) (h.plainWay file.way.dropLast)
  rw [h.canMake_iff hfits] at hmake
  refine ⟨hmake, fun now hmade => ?_⟩
  obtain ⟨hok, hwrote⟩ := h.written hne (hopened hmade) now file.bytes
  refine ⟨hok, fun hdone => h.wrote hne ?_ (hwrote hdone)⟩
  exact (fitting_iff h hne).mpr ⟨(hmake.mp hmade).2, (hok.mp hdone).2⟩

theorem opened_stays_dir {done rest q : Location} (h : Disk.Opened done rest d d')
    (hdir : d.entryAt q = some .dir) : d'.entryAt q = some .dir := by
  by_cases hmade : ∃ way, way <+: rest ∧ q = done ++ way
  · obtain ⟨way, hway, rfl⟩ := hmade
    exact h.made way hway
  · rw [h.kept q fun way hway heq => hmade ⟨way, hway, heq⟩]
    exact hdir

/-- The root itself is no file. -/
theorem Placed.root_unwritable (h : Placed root files d) {now : Nat} {content : Bytes}
    (hmade : (d.makeDirectories fits [] root.dropLast).1 = .ok ()) :
    ((d.makeDirectories fits [] root.dropLast).2.writeWhole fits now 0o666 root content).1 ≠ .ok () := by
  have hplain : Disk.PlainWay d [] root.dropLast := fun way hway =>
    h.plainWay [] way ((hway.trans (List.dropLast_prefix root)).trans (List.prefix_append root []))
  have hopened := (Disk.makeDirectories_ok fits (Disk.entryAt_nil d) hplain).2 hmade
  have hroot := opened_stays_dir hopened h.root_dir
  have hdir := opened_stays_dir hopened (Disk.entryAt_dropLast (by rw [h.root_dir]; simp))
  rw [ne_eq, (Disk.writeWhole_outcome fits now 0o666 content hdir (by rw [hroot]; simp)).1, hroot]
  simp

end Placing

/-! ## A run -/

section Run

variable {fits : Location → Bool} {root : Location} {files done rest : List ProjectFile}
  {file : ProjectFile} {d d' : Disk FileName}

theorem Storable.append_left (h : Storable fits root (files ++ rest)) : Storable fits root files where
  accepted file hfile := h.accepted file (List.mem_append_left _ hfile)
  inside file hfile := h.inside file (List.mem_append_left _ hfile)
  stored file hfile := h.stored file (List.mem_append_left _ hfile)
  named file hfile := h.named file (List.mem_append_left _ hfile)
  apart file hfile other hother :=
    h.apart file (List.mem_append_left _ hfile) other (List.mem_append_left _ hother)

theorem Storable.fitting (h : Storable fits root (done ++ [file])) : Fitting done file.way := by
  have hmem : file ∈ done ++ [file] := List.mem_append_right _ (List.mem_singleton_self _)
  intro other hother
  have hother : other ∈ done ++ [file] := List.mem_append_left _ hother
  exact ⟨h.apart other hother file hmem, h.apart file hmem other hother⟩

theorem Storable.concat (h : Storable fits root done) (haccepted : IsProjectPath .posix file.path)
    (hinside : (file.segments.headD []).startsWith (js "..") = false) (hnamed : file.way ≠ [])
    (hstored : ∀ way, way <+: file.way → fits (root ++ way) = true) (hfitting : Fitting done file.way) :
    Storable fits root (done ++ [file]) := by
  refine ⟨fun other hother => ?_, fun other hother => ?_, fun other hother => ?_,
    fun other hother => ?_, fun other hother another hanother hbegins => ?_⟩
  all_goals rcases List.mem_append.mp hother with hother | hother
  · exact h.accepted other hother
  · rwa [List.mem_singleton.mp hother]
  · exact h.inside other hother
  · rwa [List.mem_singleton.mp hother]
  · exact h.stored other hother
  · rwa [List.mem_singleton.mp hother]
  · exact h.named other hother
  · rwa [List.mem_singleton.mp hother]
  · rcases List.mem_append.mp hanother with hanother | hanother
    · exact h.apart other hother another hanother hbegins
    · rw [List.mem_singleton.mp hanother] at hbegins ⊢
      exact (hfitting other hother).1 hbegins
  · rw [List.mem_singleton.mp hother] at hbegins ⊢
    rcases List.mem_append.mp hanother with hanother | hanother
    · exact (hfitting another hanother).2 hbegins
    · rw [List.mem_singleton.mp hanother]

/-- **One file**, whose path is resolved: it is written exactly when the files with it can be. -/
theorem Placed.next (h : Placed root done d) (hfits : ∀ way, way <+: root → fits way = true)
    (hstorable : Storable fits root done) (haccepted : IsProjectPath .posix file.path)
    (hinside : (file.segments.headD []).startsWith (js "..") = false) :
    (Storable fits root (done ++ [file]) →
      (d.makeDirectories fits [] (root ++ file.way).dropLast).1 = .ok ()) ∧
    ((d.makeDirectories fits [] (root ++ file.way).dropLast).1 = .ok () → ∀ now,
      (Storable fits root (done ++ [file]) →
        ((d.makeDirectories fits [] (root ++ file.way).dropLast).2.writeWhole fits now 0o666
          (root ++ file.way) file.bytes).1 = .ok ()) ∧
      (((d.makeDirectories fits [] (root ++ file.way).dropLast).2.writeWhole fits now 0o666
          (root ++ file.way) file.bytes).1 = .ok () →
        Storable fits root (done ++ [file]) ∧
          Placed root (done ++ [file]) ((d.makeDirectories fits []
            (root ++ file.way).dropLast).2.writeWhole fits now 0o666 (root ++ file.way) file.bytes).2)) := by
  have hmem : file ∈ done ++ [file] := List.mem_append_right _ (List.mem_singleton_self _)
  by_cases hne : file.way = []
  · have hnot : ¬ Storable fits root (done ++ [file]) := fun hall => hall.named file hmem hne
    refine ⟨fun hall => absurd hall hnot, fun hmade now => ⟨fun hall => absurd hall hnot, fun hdone => ?_⟩⟩
    rw [hne, List.append_nil] at hmade hdone
    exact absurd hdone (h.root_unwritable hmade)
  · obtain ⟨hmake, hwrite⟩ := h.step hfits hne
    refine ⟨fun hall => hmake.mpr ⟨fun w hw => ?_, ((fitting_iff h hne).mp hall.fitting).1⟩,
      fun hmade now => ?_⟩
    · exact hall.stored file hmem w (hw.trans (List.dropLast_prefix _))
    · obtain ⟨hok, hplaced⟩ := hwrite now hmade
      refine ⟨fun hall => hok.mpr ⟨?_, ((fitting_iff h hne).mp hall.fitting).2⟩,
        fun hdone => ⟨?_, hplaced hdone⟩⟩
      · exact hall.stored file hmem _ (List.prefix_refl _)
      · obtain ⟨hstored, hoff⟩ := hmake.mp hmade
        obtain ⟨hself, hfree⟩ := hok.mp hdone
        refine hstorable.concat haccepted hinside hne (fun way hway => ?_)
          ((fitting_iff h hne).mpr ⟨hoff, hfree⟩)
        by_cases heq : way = file.way
        · rwa [heq]
        · exact hstored way ((prefix_dropLast_iff hne).mpr ⟨hway, heq⟩)

/-- The end of a run over a list of files. -/
def Materialized (fits : Location → Bool) (root : Location) (files : List ProjectFile)
    (result : Except ProjectFailure Unit) (d : Disk FileName) : Prop :=
  (result = .ok () ∧ Storable fits root files ∧ Placed root files d) ∨
    (result ≠ .ok () ∧ ¬ Storable fits root files)

/-- Without faults a directory is made. -/
theorem mkdir_of_faultless {path : JSString} {reply : (ProjectOp.mkdir path).Reply}
    (hnul : path.includes 0 = false) (h : (ProjectOp.mkdir path).Exec fits false d reply d') :
    d.makeDirectories fits [] (pathLocation path) = (reply, d') := by
  rcases h with ⟨now, hnow⟩ | ⟨hfaulty, -⟩
  · rw [← hnow, ProjectOp.exec, if_neg (by rw [ProjectOp.path, hnul]; exact Bool.false_ne_true)]
  · cases hfaulty

/-- Without faults a file is written. -/
theorem writeFile_of_faultless {path : JSString} {content : Bytes}
    {reply : (ProjectOp.writeFile path content).Reply} (hnul : path.includes 0 = false)
    (h : (ProjectOp.writeFile path content).Exec fits false d reply d') :
    ∃ now, d.writeWhole fits now 0o666 (pathLocation path) content = (reply, d') := by
  rcases h with ⟨now, hnow⟩ | ⟨hfaulty, -⟩
  · refine ⟨now, ?_⟩
    rw [← hnow, ProjectOp.exec, if_neg (by rw [ProjectOp.path, hnul]; exact Bool.false_ne_true)]
  · cases hfaulty

theorem validateProjectPath_of {path label : JSString} (h : IsProjectPath .posix path) :
    validateProjectPath .posix (some (.string path)) label = .ok path := by
  have hlength : path.length ≠ 0 := fun heq => h.nonempty (List.length_eq_zero_iff.mp heq)
  simp [validateProjectPath, Json.string?, hlength, h.notDot, h.noTrailingSlash, h.noNul,
    h.noBackslash, h.relative, h.relativeWin32, h.noTraversal]

theorem wp_materialize {rootPath : JSString} {base : List JSString}
    (hbase : ∀ segment ∈ base, PlainSegment segment) (hroot : resolvePosix rootPath [] = absolutePath base)
    (hnul : ∀ segment ∈ base, (0 : CodeUnit) ∉ segment)
    (hfits : ∀ way, way <+: base.map fileName → fits way = true)
    (hstorable : Storable fits (base.map fileName) done) (hplaced : Placed (base.map fileName) done d) :
    (materializeProjectFiles rootPath rest).wp (ProjectOp.Exec fits false) (fun _ _ => True)
      (Materialized fits (base.map fileName) (done ++ rest)) d := by
  induction rest generalizing done d with
  | nil => exact .inl ⟨rfl, by rwa [List.append_nil], by rwa [List.append_nil]⟩
  | cons file rest ih =>
      have hassoc : done ++ file :: rest = (done ++ [file]) ++ rest := by simp
      have hmem : file ∈ done ++ file :: rest := by simp
      rw [materializeProjectFiles, Prog.wp_bind, Prog.wp_ofExcept]
      cases hvalidate : validateProjectPath .posix (some (.string file.path)) (js "project file path") with
      | error message =>
          refine .inr ⟨by simp, fun h => ?_⟩
          rw [validateProjectPath_of (h.accepted file hmem)] at hvalidate
          cases hvalidate
      | ok value =>
          obtain ⟨hvalue, haccepted⟩ := validateProjectPath_ok hvalidate
          obtain rfl : file.path = value := Option.some.inj hvalue
          have hsegments := ProjectFile.plain_segments haccepted
          have hall : ∀ segment ∈ base ++ file.segments, PlainSegment segment :=
            List.forall_mem_append.mpr ⟨hbase, hsegments⟩
          have hclean : ∀ segment ∈ base ++ file.segments, (0 : CodeUnit) ∉ segment :=
            List.forall_mem_append.mpr ⟨hnul, ProjectFile.nul_free_segments haccepted⟩
          have hlocation : pathLocation (absolutePath (base ++ file.segments))
              = base.map fileName ++ file.way := by
            rw [pathLocation_absolutePath hall, List.map_append]
            rfl
          have hdirname := pathLocation_dirname hall
          rw [hlocation] at hdirname
          have hnulFile : (absolutePath (base ++ file.segments)).includes 0 = false :=
            includes_absolutePath.mpr hclean
          have hnulDir : (dirnamePosix (absolutePath (base ++ file.segments))).includes 0 = false := by
            rw [dirnamePosix_absolutePath hall, includes_absolutePath]
            exact fun segment hsegment => hclean segment (List.dropLast_subset _ hsegment)
          show Prog.wp _ _ _ _ d
          rw [Prog.wp_bind, Prog.wp_ofExcept, resolveProjectPath_eq hbase hroot haccepted]
          by_cases houtside : (file.segments.headD []).startsWith (js "..") = true
          · rw [if_pos houtside]
            refine .inr ⟨by simp, fun h => ?_⟩
            rw [h.inside file hmem] at houtside
            cases houtside
          · rw [if_neg houtside]
            show Prog.wp _ _ _ _ d
            rw [Prog.wp_bind, wp_projectCall]
            refine ⟨trivial, fun reply d₁ hexec => ?_⟩
            have hmade := mkdir_of_faultless hnulDir hexec
            rw [hdirname] at hmade
            obtain ⟨hmake, hwrite⟩ := hplaced.next hfits hstorable haccepted
              (Bool.eq_false_iff.mpr houtside)
            rw [hmade] at hmake hwrite
            rw [hassoc]
            cases reply with
            | error e =>
                refine .inr ⟨by simp, fun h => ?_⟩
                cases hmake h.append_left
            | ok made =>
                show Prog.wp _ _ _ _ d₁
                rw [Prog.wp_bind, wp_projectCall]
                refine ⟨trivial, fun reply d₂ hexec => ?_⟩
                obtain ⟨now, hwritten⟩ := writeFile_of_faultless hnulFile hexec
                rw [hlocation] at hwritten
                obtain ⟨hcan, hdone⟩ := hwrite rfl now
                rw [hwritten] at hcan hdone
                cases reply with
                | error e =>
                    refine .inr ⟨by simp, fun h => ?_⟩
                    cases hcan h.append_left
                | ok written =>
                    obtain ⟨hstorable', hplaced'⟩ := hdone rfl
                    exact ih hstorable' hplaced'

end Run

/-- The files of a project are on the disk below the root. -/
def Holds (root : Location) (files : List ProjectFile) (d : Disk FileName) : Prop :=
  ∀ file ∈ files, d.contentAt (root ++ file.way) = some file.bytes

/-- A directory that holds the files of a project has each file's content exactly when files with one
way agree. -/
theorem Placed.holds_iff {root : Location} {files : List ProjectFile} {d : Disk FileName}
    (h : Placed root files d) : Holds root files d ↔ Agreeing files := by
  constructor
  · intro hholds file hfile other hother hway
    have hcontent := hholds other hother
    rw [← hway, hholds file hfile] at hcontent
    exact Option.some.inj hcontent
  · intro hagreeing file hfile
    rw [h.contents]
    cases hfind : files.reverse.find? (·.way = file.way) with
    | none =>
        rw [List.find?_eq_none] at hfind
        exact absurd (decide_eq_true rfl) (hfind file (List.mem_reverse.mpr hfile))
    | some other =>
        have hother := List.mem_reverse.mp (List.mem_of_find?_eq_some hfind)
        have hway : other.way = file.way := by simpa using List.find?_some hfind
        rw [Option.map_some, hagreeing other hother file hfile hway]

/-- **A project is written as it is.**  Below an empty directory, when no call fails for a reason of its
own: writing succeeds exactly for the projects that can be written; then the directory holds them and
nothing else; and it succeeds with the content of every file there exactly when, besides, the files
whose paths name one place have one content. -/
theorem materializeProjectFiles_faithful (fits : Location → Bool) (root : JSString) (d : Disk FileName)
    (_habsolute : isAbsolute .posix root = true) (hnul : (resolvePosix root []).includes 0 = false)
    (hfits : ∀ way, way <+: rootLocation root → fits way = true)
    (hdir : d.entryAt (rootLocation root) = some .dir)
    (hempty : ∀ name, d.entryAt (rootLocation root ++ [name]) = none) (files : List ProjectFile) :
    (materializeProjectFiles root files).wp (ProjectOp.Exec fits false) (fun _ _ => True)
      (fun result d' =>
        (result = .ok () ↔ Storable fits (rootLocation root) files) ∧
        (result = .ok () → Placed (rootLocation root) files d') ∧
        (result = .ok () ∧ Holds (rootLocation root) files d' ↔
          Storable fits (rootLocation root) files ∧ Agreeing files)) d := by
  obtain ⟨base, hbase, hroot⟩ := resolvePosix_absolute root []
  have hlocation : rootLocation root = base.map fileName := by
    rw [rootLocation, hroot, pathLocation_absolutePath hbase]
  rw [hroot, includes_absolutePath] at hnul
  rw [hlocation] at hfits hdir hempty ⊢
  have hnothing : Storable fits (base.map fileName) [] := by
    constructor <;> exact List.forall_mem_nil _
  refine Prog.wp_post (fun result d' hend => ?_)
    (wp_materialize hbase hroot hnul hfits hnothing (placed_nil hdir hempty))
  rw [List.nil_append] at hend
  rcases hend with ⟨hok, hstorable, hplaced⟩ | ⟨herror, hnot⟩
  · exact ⟨iff_of_true hok hstorable, fun _ => hplaced,
      and_congr (iff_of_true hok hstorable) hplaced.holds_iff⟩
  · exact ⟨iff_of_false herror hnot, fun hok => absurd hok herror,
      iff_of_false (fun h => herror h.1) fun h => hnot h.1⟩

/-- A directory `/srv` and nothing else. -/
def diskWithRoot : Disk FileName := Disk.empty.put [fileName (js "srv")] .dir

theorem entryAt_diskWithRoot (location : Location) : diskWithRoot.entryAt location
    = if location = [fileName (js "srv")] then some .dir else Disk.empty.entryAt location :=
  Disk.entryAt_put ⟨by simp, by simp, by simp, trivial⟩ location

/-- Repeated slashes are one; a name that begins with two dots looks as if it left the root. -/
def dottedProject : List ProjectFile :=
  [.text (js "chapters//one.tex") (js "x"), .text (js "..notes.tex") (js "y")]

theorem materializeProjectFiles_faithful_srv :
    (materializeProjectFiles (js "/srv") dottedProject).wp (ProjectOp.Exec (fun _ => true) false)
      (fun _ _ => True)
      (fun result d' =>
        (result = .ok () ↔ Storable (fun _ => true) (rootLocation (js "/srv")) dottedProject) ∧
        (result = .ok () → Placed (rootLocation (js "/srv")) dottedProject d') ∧
        (result = .ok () ∧ Holds (rootLocation (js "/srv")) dottedProject d' ↔
          Storable (fun _ => true) (rootLocation (js "/srv")) dottedProject ∧
            Agreeing dottedProject)) diskWithRoot := by
  have hroot : rootLocation (js "/srv") = [fileName (js "srv")] := by decide +kernel
  refine materializeProjectFiles_faithful (fun _ => true) (js "/srv") diskWithRoot (by decide)
    (by decide +kernel) (fun _ _ => rfl) ?_ (fun name => ?_) dottedProject
  · rw [hroot, entryAt_diskWithRoot, if_pos rfl]
  · rw [hroot, entryAt_diskWithRoot, if_neg (by simp), Disk.entryAt_empty, if_neg (by simp)]

/-- The second file is accepted and left out, though it lies below the root. -/
example : ¬ Storable (fun _ => true) (rootLocation (js "/srv")) dottedProject := fun h =>
  Bool.noConfusion ((h.inside _ (List.mem_cons_of_mem _ List.mem_cons_self)).symm.trans
    (by decide +kernel : _ = true))

end Typr
