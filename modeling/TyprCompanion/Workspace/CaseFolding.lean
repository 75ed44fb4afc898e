import TyprCompanion.Core.CaseInsensitive
import TyprCompanion.Workspace.Confinement

/-!
# A workspace where case is ignored

`validateWorkspacePath` and `scan` compare names with `.git` and with the prefix of temporary files
unit by unit.  A Windows volume compares them after mapping every unit to upper case, so `.GIT` is
another spelling of the same entry.

* `foldName`, `isReserved`, `isRespelled` — names on such a volume, and the spellings of reserved
  names the store does not recognise.
* `IsPlainDisk` — no such spelling is on the disk below the root.
* `ConfinedFold` — an operation is confined at the locations its paths denote.
* `keeps_of_confined` — such an operation keeps the disk plain and leaves everything beyond the
  workspace alone.
-/

namespace Typr

open Core

variable {upcase : CodeUnit → CodeUnit} {faulty : Bool}
variable {d d' : Disk FileName} {root p q : Location} {name : FileName}

/-! ## Names -/

/-- A name as the volume compares it. -/
def foldName (upcase : CodeUnit → CodeUnit) (name : FileName) : JSString := name.text.map upcase

/-- The name denotes git's directory or a temporary file of a write. -/
def isReserved (upcase : CodeUnit → CodeUnit) (name : FileName) : Bool :=
  foldName upcase name == foldName upcase gitName ||
    JSString.startsWith (foldName upcase name) (INTERNAL_WRITE_PREFIX.map upcase)

/-- A reserved name in a spelling the store does not recognise. -/
def isRespelled (upcase : CodeUnit → CodeUnit) (name : FileName) : Bool :=
  isReserved upcase name && !isHidden name

/-- **A path without such spellings.** -/
def IsPlainPath (upcase : CodeUnit → CodeUnit) (path : JSString) : Prop :=
  ∀ name ∈ relativeLocation path, isRespelled upcase name = false

theorem isReserved_of_isHidden (h : isHidden name = true) : isReserved upcase name = true := by
  simp only [isHidden, Bool.or_eq_true, beq_iff_eq] at h
  simp only [isReserved, Bool.or_eq_true, beq_iff_eq]
  refine h.imp (fun hgit => ?_) fun habove => ?_
  · have hname : gitName.text = js ".git" := by decide
    rw [foldName, foldName, hgit, hname]
  · rw [JSString.startsWith, List.isPrefixOf_iff_prefix] at habove ⊢
    exact habove.map upcase

/-- An accepted segment is reserved only in a spelling the store does not recognise. -/
theorem isReserved_eq_isRespelled (h : isHidden name = false) :
    isReserved upcase name = isRespelled upcase name := by simp [isRespelled, h]

theorem isPlainPath_iff {platform : Platform} {path : JSString} (h : IsWorkspacePath platform path) :
    (∀ name ∈ relativeLocation path, isReserved upcase name = false) ↔ IsPlainPath upcase path :=
  forall₂_congr fun _ hname => by rw [isReserved_eq_isRespelled (h.not_hidden _ hname)]

/-- A name the store may put into a path: not git's, in a recognised spelling, in one piece. -/
structure IsOwnName (upcase : CodeUnit → CodeUnit) (name : FileName) : Prop where
  notGit : foldName upcase name ≠ foldName upcase gitName
  recognised : isRespelled upcase name = false
  whole : unit '/' ∉ name.text

/-- The temporary files have too long a name for git's directory. -/
theorem foldName_ne_of_startsWith (h : JSString.startsWith name.text INTERNAL_WRITE_PREFIX = true) :
    foldName upcase name ≠ foldName upcase gitName := by
  intro heq
  have hlength := congrArg List.length heq
  rw [foldName, foldName, List.length_map, List.length_map] at hlength
  rw [JSString.startsWith, List.isPrefixOf_iff_prefix] at h
  have hle := h.length_le
  have hlong : INTERNAL_WRITE_PREFIX.length = 22 := by decide
  have hgit : gitName.text.length = 4 := by decide
  omega

theorem foldName_ne_of_hidden (hhidden : isHidden name = true) (hne : name ≠ gitName) :
    foldName upcase name ≠ foldName upcase gitName := by
  simp only [isHidden, Bool.or_eq_true, beq_iff_eq] at hhidden
  rcases hhidden with htext | habove
  · refine absurd ?_ hne
    rw [← fileName_text name, htext, gitName]
  · exact foldName_ne_of_startsWith habove

/-- A segment without a separator is a name in one piece. -/
theorem slash_not_mem_fileName {segment : JSString} (h : unit '/' ∉ segment) :
    unit '/' ∉ (fileName segment).text := by
  have hany := JSString.any_sameAscii (p := (· == unit '/'))
    (fun v hv => by rw [beq_iff_eq.mp hv]; decide) (JSString.sameAscii_toWellFormed segment)
  rw [Bool.eq_iff_iff] at hany
  rw [text_fileName]
  exact fun hslash => h (by simpa using hany.mpr (by simpa using hslash))

theorem isOwnName_of_plain {platform : Platform} {path : JSString}
    (hpath : IsWorkspacePath platform path) (hplain : IsPlainPath upcase path) {segment : JSString}
    (hsegment : segment ∈ JSString.split (unit '/') path) :
    IsOwnName upcase (fileName segment) := by
  have hmem : fileName segment ∈ relativeLocation path := List.mem_map_of_mem hsegment
  have hrespelled := hplain _ hmem
  have hreserved : isReserved upcase (fileName segment) = isRespelled upcase (fileName segment) :=
    isReserved_eq_isRespelled (hpath.not_hidden _ hmem)
  rw [hrespelled, isReserved, Bool.or_eq_false_iff, beq_eq_false_iff_ne] at hreserved
  exact ⟨hreserved.1, hrespelled, slash_not_mem_fileName (JSString.not_mem_of_mem_split hsegment)⟩

theorem isOwnName_temporaryName (uuid : UUID) : IsOwnName upcase (temporaryName uuid) where
  notGit := by
    refine foldName_ne_of_hidden (isHidden_temporaryName uuid) ?_
    exact temporaryName_ne_gitName uuid
  recognised := by simp [isRespelled, isHidden_temporaryName]
  whole := by
    refine slash_not_mem_fileName fun hslash => ?_
    rcases List.mem_append.mp hslash with hmem | hmem
    · have hall : (INTERNAL_WRITE_PREFIX.all fun u => u != unit '/') = true := by decide
      simpa using List.all_eq_true.mp hall _ hmem
    · have hdigit := List.all_eq_true.mp uuid.wellFormed _ hmem
      exact absurd hdigit (by decide)

/-! ## The volume -/

/-- The outcomes of an operation of the store on the volume. -/
def StoreOp.ExecFold (upcase : CodeUnit → CodeUnit) (faulty : Bool) :
    (op : StoreOp) → Disk FileName → op.Reply → Disk FileName → Prop
  | fs op, d, reply, d' => op.ExecFold (foldName upcase) faulty d reply d'
  | hook _, d, reply, d' => d' = d ∧ (reply = true ∨ faulty = true)
  | randomUUID, d, _, d' => d' = d

/-- The location a path denotes on the volume. -/
abbrev denoted (upcase : CodeUnit → CodeUnit) (d : Disk FileName) (p : Location) : Location :=
  d.resolve (foldName upcase) p

/-- **No spelling below the root the store does not recognise**, and no name in two spellings. -/
structure IsPlainDisk (upcase : CodeUnit → CodeUnit) (root : Location) (d : Disk FileName) :
    Prop where
  distinct : d.Distinct (foldName upcase)
  rooted : d.entryAt root = some .dir
  recognised : ∀ relative, d.entryAt (root ++ relative) ≠ none →
    ∀ name ∈ relative, isRespelled upcase name = false ∧ unit '/' ∉ name.text

/-- A path the store uses: below the root, by names of its own. -/
def Spelled (upcase : CodeUnit → CodeUnit) (root p : Location) : Prop :=
  ∃ relative, p = root ++ relative ∧ ∀ name ∈ relative, IsOwnName upcase name

/-- The paths an operation names. -/
def StoreOp.paths : StoreOp → List Location
  | .fs (.lstat p) | .fs (.readdir p) | .fs (.openRead p) | .fs (.mkdir p _)
  | .fs (.openCreate p _) | .fs (.unlink p) | .fs (.rmForce p) => [p]
  | .fs (.rename p q) => [p, q]
  | _ => []

/-- The operation at other paths. -/
def StoreOp.mapPath (f : Location → Location) : StoreOp → StoreOp
  | fs op => fs (op.mapPath f)
  | hook step => hook step
  | randomUUID => randomUUID

/-- **Confinement on the volume.**  The operation is confined at the locations its paths denote, and
the paths are the store's. -/
def ConfinedFold (upcase : CodeUnit → CodeUnit) (root : Location) (d : Disk FileName)
    (op : StoreOp) : Prop :=
  Confined root d (op.mapPath (denoted upcase d)) ∧ ∀ p ∈ op.paths, Spelled upcase root p

/-! ## What a confined operation does to the entries -/

/-- The location a changing operation may add. -/
def StoreOp.added : StoreOp → List Location
  | .fs (.mkdir p _) | .fs (.openCreate p _) => [p]
  | .fs (.rename _ q) => [q]
  | _ => []

/-- What an operation leaves: the directories, and no entry it does not add. -/
def Leaves (d d' : Disk FileName) (added : List Location) : Prop :=
  d.KeepsDirs d' ∧ ∀ q, d'.entryAt q ≠ none → d.entryAt q ≠ none ∨ q ∈ added

theorem Leaves.refl (d : Disk FileName) (added : List Location) : Leaves d d added :=
  ⟨Disk.KeepsDirs.refl _, fun _ hq => .inl hq⟩

/-- One entry is put where no directory is. -/
theorem Leaves.put {e : Entry FileName} (hdir : d.entryAt p ≠ some .dir)
    (hput : ∀ q, d'.entryAt q = if q = p then some e else d.entryAt q) : Leaves d d' [p] := by
  refine ⟨fun q hq => ?_, fun q hq => ?_⟩
  · rwa [hput, if_neg (by rintro rfl; exact hdir hq)]
  · by_cases heq : q = p
    · exact .inr (by simp [heq])
    · rw [hput, if_neg heq] at hq
      exact .inl hq

/-- One entry that is no directory is removed. -/
theorem Leaves.remove (hdir : d.entryAt p ≠ some .dir) (added : List Location) :
    Leaves d (d.remove p) added := by
  refine ⟨fun q hq => ?_, fun q hq => .inl ?_⟩
  · rwa [Disk.entryAt_remove hdir, if_neg (by rintro rfl; exact hdir hq)]
  · rw [Disk.entryAt_remove hdir] at hq
    by_contra hnone
    simp [hnone] at hq

/-- A file is moved where no directory is. -/
theorem Leaves.move {i : Nat} (htarget : d.entryAt q ≠ some .dir) (hq : q ≠ [])
    (hparent : d.entryAt q.dropLast = some .dir) (hfile : d.entryAt p = some (.file i)) :
    Leaves d (FsOp.renamed d p q (.file i)) [q] := by
  have hentry := FsOp.entryAt_renamed hq hparent htarget hfile
  refine ⟨fun r hr => ?_, fun r hr => ?_⟩
  · have hne : r ≠ q := by rintro rfl; exact htarget hr
    have hne' : r ≠ p := by rintro rfl; simp [hfile] at hr
    rw [hentry, if_neg hne, if_neg hne', hr]
  · by_cases heq : r = q
    · exact .inr (by simp [heq])
    · rw [hentry, if_neg heq] at hr
      by_cases heq' : r = p
      · simp [heq'] at hr
      · rw [if_neg heq'] at hr
        exact .inl hr

/-- **A confined operation** keeps the directories and adds at most the entry it names. -/
theorem leaves_of_confined {op : StoreOp} {reply : op.Reply} (h : Confined root d op)
    (hexec : op.Exec faulty d reply d') : Leaves d d' op.added := by
  cases effect_of_confined h hexec with
  | same => exact Leaves.refl _ _
  | put hinside hfree =>
      exact Leaves.put (by simp [hfree])
        (Disk.entryAt_put ⟨hinside.ne_nil, hinside.parent, by simp [hfree], trivial⟩)
  | create hinside hfree =>
      exact Leaves.put (by simp [hfree]) (FsOp.entryAt_created hinside.ne_nil hinside.parent hfree)
  | write => exact ⟨fun _ hq => hq, fun _ hq => .inl hq⟩
  | move _ htarget hfile hdir => exact Leaves.move hdir htarget.ne_nil htarget.parent hfile
  | unlink _ hdir => exact Leaves.remove hdir _
  | rmForce _ hdir => exact Leaves.remove hdir _

/-! ## One step -/

theorem Inside.ne_root (h : Inside root d p) : p ≠ root := by
  rintro rfl
  obtain ⟨relative, heq, hne, -⟩ := h.below
  exact hne (by simpa using heq)

/-- The last name of a path of the store, and the path of its directory. -/
theorem Spelled.of_concat (h : Spelled upcase root (p ++ [name])) (hne : p ++ [name] ≠ root) :
    IsOwnName upcase name ∧ Spelled upcase root p := by
  obtain ⟨relative, heq, hown⟩ := h
  rcases List.eq_nil_or_concat' relative with rfl | ⟨above, last, rfl⟩
  · exact absurd (by simpa using heq) hne
  · rw [← List.append_assoc] at heq
    obtain ⟨rfl, hlast⟩ := List.append_inj' heq rfl
    obtain rfl : name = last := by simpa using hlast
    exact ⟨hown name (by simp), above, rfl, fun n hn => hown n (by simp [hn])⟩

theorem Spelled.concat (h : Spelled upcase root p) (hname : IsOwnName upcase name) :
    Spelled upcase root (p ++ [name]) := by
  obtain ⟨relative, rfl, hown⟩ := h
  refine ⟨relative ++ [name], by simp, fun n hn => ?_⟩
  rcases List.mem_append.mp hn with hn | hn
  · exact hown n hn
  · rwa [List.mem_singleton.mp hn]

theorem IsPlainDisk.mono (h : IsPlainDisk upcase root d) (hkeeps : d.KeepsDirs d')
    (hentry : ∀ q, d'.entryAt q ≠ none → d.entryAt q ≠ none) : IsPlainDisk upcase root d' where
  distinct := h.distinct.mono hentry
  rooted := hkeeps _ h.rooted
  recognised := fun relative hrelative => h.recognised relative (hentry _ hrelative)

/-- One entry more, in a directory of the workspace. -/
theorem IsPlainDisk.insert (h : IsPlainDisk upcase root d) (hname : IsOwnName upcase name)
    (hroot : p ++ [name] ≠ root) (hdir : d.entryAt p = some .dir)
    (hleaves : Leaves d d' [p ++ [name]])
    (hfree : ∀ n, foldName upcase n = foldName upcase name → n ≠ name →
      d'.entryAt (p ++ [n]) = none) : IsPlainDisk upcase root d' where
  distinct := by
    refine h.distinct.insert (p := p) (n := name) (fun q hq hentry => ?_) hfree
    exact (hleaves.2 q hentry).resolve_right (by simpa using hq)
  rooted := hleaves.1 _ h.rooted
  recognised := by
    intro relative hentry
    rcases hleaves.2 _ hentry with hold | hnew
    · exact h.recognised relative hold
    · have heq : root ++ relative = p ++ [name] := by simpa using hnew
      rcases List.eq_nil_or_concat' relative with rfl | ⟨above, last, rfl⟩
      · exact absurd (by simpa using heq.symm) hroot
      · rw [← List.append_assoc] at heq
        obtain ⟨rfl, hlast⟩ := List.append_inj' heq rfl
        obtain rfl : last = name := by simpa using hlast
        intro n hn
        rcases List.mem_append.mp hn with hn | hn
        · exact h.recognised above (by simp [hdir]) n hn
        · rw [List.mem_singleton.mp hn]
          exact ⟨hname.recognised, hname.whole⟩

/-- What a path of the store may denote is on the disk already, or gets a name of the store's. -/
theorem IsPlainDisk.add (h : IsPlainDisk upcase root d) (hspelled : Spelled upcase root p)
    (hinside : Inside root d (denoted upcase d p)) (hleaves : Leaves d d' [denoted upcase d p]) :
    IsPlainDisk upcase root d' := by
  rcases List.eq_nil_or_concat' p with rfl | ⟨directory, name, rfl⟩
  · exact absurd rfl hinside.ne_nil
  rw [denoted, Disk.resolve_concat] at hinside hleaves
  rcases Disk.sibling_cases (foldName upcase) d (d.resolve (foldName upcase) directory) name
    with ⟨hexists, -⟩ | ⟨hsame, hnone⟩
  · refine h.mono hleaves.1 fun q hq => (hleaves.2 q hq).elim id fun hmem => ?_
    rwa [List.mem_singleton.mp hmem]
  · rw [hsame] at hinside hleaves
    have hne : directory ++ [name] ≠ root := by
      intro heq
      have hself := h.distinct.resolve_eq_self (p := root) (by simp [h.rooted])
      rw [← heq, Disk.resolve_concat, hsame, heq] at hself
      exact hinside.ne_root hself
    have hdir : d.entryAt (d.resolve (foldName upcase) directory) = some .dir := by
      simpa using hinside.parent
    refine h.insert (hspelled.of_concat hne).1 hinside.ne_root hdir hleaves fun n hfold hnn => ?_
    by_contra hentry
    rcases hleaves.2 _ hentry with hold | hnew
    · exact hold (hnone n hfold)
    · exact hnn (by simpa using hnew)

/-- A rename that brings its own spelling. -/
theorem IsPlainDisk.respell {t : Disk FileName} {i : Nat} (h : IsPlainDisk upcase root t)
    (hname : IsOwnName upcase name) (hinside : Inside root t (q ++ [d.sibling (foldName upcase) q name]))
    (hne : q ++ [d.sibling (foldName upcase) q name] ≠ q ++ [name])
    (hfile : t.entryAt (q ++ [d.sibling (foldName upcase) q name]) = some (.file i)) :
    let respelled := FsOp.renamed t (q ++ [d.sibling (foldName upcase) q name]) (q ++ [name])
      (.file i)
    IsPlainDisk upcase root respelled ∧ t.KeepsDirs respelled ∧ Untouched root t respelled := by
  have hfold := Disk.fold_sibling (foldName upcase) d q name
  generalize d.sibling (foldName upcase) q name = old at *
  have hdir : t.entryAt q = some .dir := by simpa using hinside.parent
  have hfree : t.entryAt (q ++ [name]) = none := by
    by_contra hentry
    exact hne (by rw [h.distinct q old name (by simp [hfile]) hentry hfold])
  have htarget : Inside root t (q ++ [name]) := by
    refine ⟨?_, by simpa using hdir⟩
    obtain ⟨relative, heq, hrelative, hgit⟩ := hinside.below
    rcases List.eq_nil_or_concat' relative with rfl | ⟨above, last, rfl⟩
    · exact absurd rfl hrelative
    · rw [← List.append_assoc] at heq
      obtain ⟨rfl, -⟩ := List.append_inj' heq rfl
      refine ⟨above ++ [name], by simp, by simp, fun hmem => ?_⟩
      rcases List.mem_append.mp hmem with hmem | hmem
      · exact hgit (List.mem_append_left _ hmem)
      · exact hname.notGit (by rw [List.mem_singleton.mp hmem])
  have hleaves := Leaves.move (d := t) (p := q ++ [old]) (i := i) (by simp [hfree]) htarget.ne_nil
    htarget.parent hfile
  refine ⟨h.insert hname htarget.ne_root hdir hleaves fun n hn hnn => ?_, hleaves.1,
    untouched_renamed hinside htarget hfile (by simp [hfree])⟩
  have hentry := FsOp.entryAt_renamed htarget.ne_nil htarget.parent (by simp [hfree]) hfile
    (q ++ [n])
  rw [if_neg (by simpa using hnn)] at hentry
  rw [hentry]
  split
  · rfl
  · next hnold =>
      by_contra hsome
      exact hnold (by rw [h.distinct q n old hsome (by simp [hfile]) (hn.trans hfold.symm)])

theorem StoreOp.added_mapPath (f : Location → Location) (op : StoreOp) :
    (op.mapPath f).added = op.added.map f := by
  cases op with
  | fs op => cases op <;> rfl
  | hook step => rfl
  | randomUUID => rfl

theorem StoreOp.added_cases (op : StoreOp) : op.added = [] ∨ ∃ p ∈ op.paths, op.added = [p] := by
  cases op with
  | fs op => cases op <;> simp [added, paths]
  | hook step => exact .inl rfl
  | randomUUID => exact .inl rfl

theorem inside_of_added {op : StoreOp} (h : Confined root d op) (hp : p ∈ op.added) :
    Inside root d p := by
  cases op with
  | fs op =>
      cases op with
      | mkdir q mode => rw [List.mem_singleton.mp hp]; exact h
      | openCreate q mode => rw [List.mem_singleton.mp hp]; exact h
      | rename q r => rw [List.mem_singleton.mp hp]; exact h.2.1
      | _ => cases hp
  | hook step => cases hp
  | randomUUID => cases hp

/-- What stays as it was after a step: the disk is plain, its directories are there, and nothing
beyond the workspace changed. -/
structure Keeps (upcase : CodeUnit → CodeUnit) (root : Location) (d d' : Disk FileName) : Prop where
  plain : IsPlainDisk upcase root d'
  dirs : d.KeepsDirs d'
  untouched : Untouched root d d'

theorem Keeps.refl (h : IsPlainDisk upcase root d) : Keeps upcase root d d :=
  ⟨h, Disk.KeepsDirs.refl _, Untouched.refl _ _⟩

theorem Keeps.trans {d'' : Disk FileName} (h : Keeps upcase root d d')
    (h' : Keeps upcase root d' d'') : Keeps upcase root d d'' :=
  ⟨h'.plain, h.dirs.trans h'.dirs, h.untouched.trans h'.untouched⟩

/-- The plain part of a step. -/
theorem keeps_of_exec {op : StoreOp} {reply : (op.mapPath (denoted upcase d)).Reply}
    (h : IsPlainDisk upcase root d) (hop : ConfinedFold upcase root d op)
    (hexec : (op.mapPath (denoted upcase d)).Exec faulty d reply d') : Keeps upcase root d d' := by
  have hleaves := leaves_of_confined hop.1 hexec
  refine ⟨?_, hleaves.1, untouched_of_confined hop.1 hexec⟩
  rw [StoreOp.added_mapPath] at hleaves
  rcases op.added_cases with hnone | ⟨p, hp, hadded⟩
  · rw [hnone] at hleaves
    exact h.mono hleaves.1 fun q hq => (hleaves.2 q hq).resolve_right (by simp)
  · rw [hadded] at hleaves
    refine h.add (hop.2 p hp) (inside_of_added hop.1 ?_) hleaves
    rw [StoreOp.added_mapPath, hadded]
    exact List.mem_singleton_self _

/-- **One step.** -/
theorem keeps_of_confined {op : StoreOp} {reply : op.Reply} (h : IsPlainDisk upcase root d)
    (hop : ConfinedFold upcase root d op) (hexec : op.ExecFold upcase faulty d reply d') :
    Keeps upcase root d d' := by
  cases op with
  | hook step =>
      obtain ⟨rfl, -⟩ := hexec
      exact Keeps.refl h
  | randomUUID =>
      obtain rfl : d' = d := hexec
      exact Keeps.refl h
  | fs op =>
      obtain ⟨t, hexec, hrespells⟩ := hexec
      have hexec' : (StoreOp.fs op).mapPath (denoted upcase d) |>.Exec faulty d _ t := hexec
      have ht : Keeps upcase root d t := keeps_of_exec h hop hexec'
      rcases hrespells with rfl | hrespells
      · exact ht
      · cases op with
        | rename p q =>
            cases reply with
            | error e => exact hrespells.elim
            | ok =>
                obtain ⟨directory, name, i, rfl, hne, hfile, rfl⟩ := hrespells
                rw [Disk.resolve_concat] at hne hfile ⊢
                have hspelled : Spelled upcase root (directory ++ [name]) := hop.2 _ (by
                  simp [StoreOp.paths])
                have hinside : Inside root d (denoted upcase d (directory ++ [name])) := hop.1.2.1
                have hroot : directory ++ [name] ≠ root := by
                  rintro heq
                  have hself := h.distinct.resolve_eq_self (p := root) (by simp [h.rooted])
                  rw [denoted, heq, hself] at hinside
                  exact hinside.ne_root rfl
                rw [denoted, Disk.resolve_concat] at hinside
                have hinside' : Inside root t _ := ⟨hinside.below, ht.dirs _ hinside.parent⟩
                obtain ⟨hplain, hdirs, huntouched⟩ :=
                  ht.plain.respell (hspelled.of_concat hroot).1 hinside' hne hfile
                exact ht.trans ⟨hplain, hdirs, huntouched⟩
        | _ => exact hrespells.elim

end Typr
