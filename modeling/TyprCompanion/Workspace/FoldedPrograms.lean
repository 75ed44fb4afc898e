import TyprCompanion.Workspace.AtomicWrite
import TyprCompanion.Workspace.CaseFolding

/-!
# The programs of the store where case is ignored

`read`, `scan`, `write` and `delete` on a plain disk, at paths without respelled names: every
operation they perform is confined at the locations its paths denote.

* `FoldDir`, `FoldLookup` — a path that denotes a directory, and what a lookup ends with.
* `wp_fold_of_existing` — a program that only looks at what is there runs as on any volume; the scan
  is one.
* `wp_keeps` — a confined program keeps what a confined operation keeps.
* `wp_lockedWrite_fold`, `wp_lockedDelete_fold` — the two mutations.
-/

namespace Typr

open Core

variable {store : WorkspaceStore} {upcase : CodeUnit → CodeUnit} {faulty : Bool}
variable {d d' : Disk FileName} {root p q : Location} {name : FileName}

/-! ## The programs -/

/-- A path of the store that denotes a directory. -/
structure FoldDir (upcase : CodeUnit → CodeUnit) (root : Location) (d : Disk FileName)
    (p : Location) : Prop where
  spelled : Spelled upcase root p
  dir : d.entryAt (denoted upcase d p) = some .dir

theorem IsPlainDisk.denoted_eq (h : IsPlainDisk upcase root d) (hentry : d.entryAt p ≠ none) :
    denoted upcase d p = p := h.distinct.resolve_eq_self hentry

theorem IsPlainDisk.foldDir_root (h : IsPlainDisk upcase root d) : FoldDir upcase root d root where
  spelled := ⟨[], by simp, by simp⟩
  dir := by rw [h.denoted_eq (by simp [h.rooted]), h.rooted]

theorem FoldDir.keeps (h : FoldDir upcase root d p) (hkeeps : Keeps upcase root d d') :
    FoldDir upcase root d' p where
  spelled := h.spelled
  dir := by
    rw [denoted, hkeeps.plain.distinct.resolve_of_keepsDirs hkeeps.dirs h.dir]
    exact hkeeps.dirs _ h.dir

/-- What a path of the store denotes lies below the root, outside git's directories. -/
theorem Spelled.below (h : Spelled upcase root p) (hplain : IsPlainDisk upcase root d)
    (hne : p ≠ root) :
    ∃ relative, denoted upcase d p = root ++ relative ∧ relative ≠ [] ∧ gitName ∉ relative := by
  obtain ⟨relative, rfl, hown⟩ := h
  obtain ⟨found, hfound, hfold⟩ :=
    hplain.distinct.resolve_append (p := root) (by simp [hplain.rooted]) relative
  refine ⟨found, hfound, ?_, fun hgit => ?_⟩
  · rintro rfl
    exact hne (by simpa using hfold.symm)
  · have hmem : foldName upcase gitName ∈ relative.map (foldName upcase) := by
      rw [← hfold]
      exact List.mem_map_of_mem hgit
    obtain ⟨name, hname, heq⟩ := List.mem_map.mp hmem
    exact (hown name hname).notGit heq

theorem FoldDir.inside (h : FoldDir upcase root d p) (hplain : IsPlainDisk upcase root d)
    (hname : IsOwnName upcase name) : Inside root d (denoted upcase d (p ++ [name])) where
  below := by
    refine (h.spelled.concat hname).below hplain fun heq => ?_
    obtain ⟨relative, rfl, -⟩ := h.spelled
    simp at heq
  parent := by
    rw [denoted, Disk.dropLast_resolve, List.dropLast_concat]
    exact h.dir

/-- A directory below a directory of the workspace. -/
theorem FoldDir.child (h : FoldDir upcase root d p) (hname : IsOwnName upcase name)
    (hdir : d.entryAt (denoted upcase d (p ++ [name])) = some .dir) :
    FoldDir upcase root d (p ++ [name]) := ⟨h.spelled.concat hname, hdir⟩

section Programs

variable {α : Type}

/-- The looks of a program at a path of the store. -/
theorem wp_lstat_fold (hplain : IsPlainDisk upcase root d) (h : FoldDir upcase root d p)
    (hname : IsOwnName upcase name) :
    (fs (.lstat (p ++ [name]))).wp (StoreOp.ExecFold upcase faulty) (ConfinedFold upcase root)
      (Reads faulty d fun r => r = match d.entryAt (denoted upcase d (p ++ [name])) with
        | some e => .ok (FsOp.statOf d e)
        | none => .error (.errno .noEntry)) d := by
  have hinside := h.inside hplain hname
  refine wp_lstat_at ⟨hinside, ?_⟩ (fun _ _ hexec => hexec.exec (by simp)) hinside.locate
  simpa [StoreOp.paths] using h.spelled.concat hname

/-- What a lookup ends with on the volume: the file the path denotes, or an error. -/
def FoldLookup (upcase : CodeUnit → CodeUnit) (d : Disk FileName) (p : Location)
    (found : Nat → Except StoreFailure α → Prop) (r : Except StoreFailure α) : Prop :=
  (∃ i, d.entryAt (denoted upcase d p) = some (.file i) ∧ found i r) ∨
    ((∀ i, d.entryAt (denoted upcase d p) ≠ some (.file i)) ∧ ∃ e, r = .error e)

/-- A path that goes on past something else than a directory denotes no file. -/
theorem FoldLookup.not_dir {rest : Location} {found : Nat → Except StoreFailure α → Prop}
    (hrest : rest ≠ []) (hdir : d.entryAt (denoted upcase d p) ≠ some .dir) (e : StoreFailure) :
    FoldLookup upcase d (p ++ rest) found (.error e) := by
  refine .inr ⟨fun i hfile => hdir ?_, e, rfl⟩
  exact Disk.entryAt_resolve_append _ hrest (by rw [hfile]; simp)

theorem wp_lstatExisting_fold (hplain : IsPlainDisk upcase root d) (h : FoldDir upcase root d p)
    (hname : IsOwnName upcase name) :
    (WorkspaceStore.lstatExisting (p ++ [name])).wp (StoreOp.ExecFold upcase faulty)
      (ConfinedFold upcase root)
      (Reads faulty d fun r => match d.entryAt (denoted upcase d (p ++ [name])) with
        | some e => r = .ok (FsOp.statOf d e)
        | none => ∃ e, r = .error e) d := by
  refine Reads.tryCatch (wp_lstat_fold hplain h hname) (fun hfaulty => ⟨rfl, .inl ⟨hfaulty, rfl⟩⟩)
    ?_ ?_
  · intro stat hstat
    refine ⟨rfl, .inr ?_⟩
    cases hentry : d.entryAt (denoted upcase d (p ++ [name])) with
    | none => simp [hentry] at hstat
    | some e => simpa [hentry] using hstat
  · intro e he
    cases hentry : d.entryAt (denoted upcase d (p ++ [name])) with
    | none =>
        obtain rfl : e = .errno .noEntry := by simpa [hentry] using he
        exact ⟨rfl, .inr ⟨_, rfl⟩⟩
    | some e => simp [hentry] at he

/-- **The segment walk** on the volume. -/
theorem wp_resolveSegments_fold (hplain : IsPlainDisk upcase root d) {segments : List JSString}
    (hne : segments ≠ []) (hown : ∀ segment ∈ segments, IsOwnName upcase (fileName segment))
    (h : FoldDir upcase root d p) :
    (WorkspaceStore.resolveSegments p segments).wp (StoreOp.ExecFold upcase faulty)
      (ConfinedFold upcase root)
      (Reads faulty d (FoldLookup upcase d (p ++ segments.map fileName)
        fun _ r => r = .ok (p ++ segments.map fileName))) d := by
  induction segments generalizing p with
  | nil => exact absurd rfl hne
  | cons segment rest ih =>
      have hsegment := hown segment (List.mem_cons_self ..)
      have hsplit : p ++ (segment :: rest).map fileName
          = (p ++ [fileName segment]) ++ rest.map fileName := by simp
      rw [hsplit]
      refine Reads.seq (wp_lstatExisting_fold hplain h hsegment) ?_ ?_
      · intro info hinfo
        cases hentry : d.entryAt (denoted upcase d (p ++ [fileName segment])) with
        | none =>
            rw [hentry] at hinfo
            obtain ⟨_, herror⟩ := hinfo
            cases herror
        | some e =>
            rw [hentry] at hinfo
            obtain rfl : info = FsOp.statOf d e := by simpa using hinfo
            have hrefuse : ∀ w : WorkspaceError, ((FsOp.statOf d e).kind = .link ∨
                (rest ≠ [] ∧ (FsOp.statOf d e).kind ≠ .dir) ∨
                (rest = [] ∧ (FsOp.statOf d e).kind ≠ .file)) →
                FoldLookup upcase d (p ++ [fileName segment] ++ rest.map fileName)
                  (fun _ r => r = .ok (p ++ [fileName segment] ++ rest.map fileName))
                  (.error (.workspace w)) := by
              intro w hkind
              by_cases hrest : rest = []
              · refine .inr ⟨fun i hfile => ?_, _, rfl⟩
                obtain rfl : e = .file i := by simpa [hrest, hentry] using hfile
                simp [hrest, FsOp.statOf] at hkind
              · refine FoldLookup.not_dir (by simpa using hrest) (fun hdir => ?_) _
                obtain rfl : e = .dir := by simpa [hentry] using hdir
                simp [hrest, FsOp.statOf] at hkind
            refine wp_refuseIf_bind (fun hlink => ⟨rfl, .inr (hrefuse _ (.inl hlink))⟩) fun hlink => ?_
            refine wp_refuseIf_bind (fun hmiddle => ⟨rfl, .inr (hrefuse _ (.inr (.inl hmiddle)))⟩)
              fun hmiddle => ?_
            refine wp_refuseIf_bind (fun hlast => ⟨rfl, .inr (hrefuse _ (.inr (.inr hlast)))⟩)
              fun hlast => ?_
            have hkind := kind_cases (d := d) (rest.map fileName) (e := e) (by
              simpa only [ne_eq, List.map_eq_nil_iff, not_or] using ⟨hlink, hmiddle, hlast⟩)
            rcases hkind with ⟨hrest, rfl⟩ | ⟨hrest, i, rfl⟩
            · exact ih (by simpa using hrest) (fun s hs => hown s (List.mem_cons_of_mem _ hs))
                (h.child hsegment hentry)
            · obtain rfl : rest = [] := by simpa using hrest
              exact ⟨rfl, .inr (.inl ⟨i, by simpa using hentry, by simp⟩)⟩
      · intro e he
        have hnone : d.entryAt (denoted upcase d (p ++ [fileName segment])) = none := by
          cases hentry : d.entryAt (denoted upcase d (p ++ [fileName segment])) with
          | none => rfl
          | some e' =>
              rw [hentry] at he
              cases he
        by_cases hrest : rest = []
        · exact .inr ⟨by simp [hrest, hnone], e, rfl⟩
        · exact FoldLookup.not_dir (by simpa using hrest) (by simp [hnone]) e

theorem wp_resolveExistingFile_fold (hplain : IsPlainDisk upcase store.root d)
    (normalized : WorkspacePath store.platform) (hpath : IsPlainPath upcase normalized.text) :
    (store.resolveExistingFile normalized).wp (StoreOp.ExecFold upcase faulty)
      (ConfinedFold upcase store.root)
      (Reads faulty d (FoldLookup upcase d (store.root ++ relativeLocation normalized.text)
        fun _ r => r = .ok (store.root ++ relativeLocation normalized.text))) d :=
  wp_resolveSegments_fold hplain (JSString.split_ne_nil _ _)
    (fun _ hsegment => isOwnName_of_plain normalized.valid hpath hsegment) hplain.foldDir_root

/-- The path of a request, as the store spells it. -/
theorem spelled_of_plain {path : JSString} (hvalid : IsWorkspacePath store.platform path)
    (hpath : IsPlainPath upcase path) :
    Spelled upcase store.root (store.root ++ relativeLocation path) := by
  refine ⟨_, rfl, fun name hname => ?_⟩
  obtain ⟨segment, hsegment, rfl⟩ := List.mem_map.mp hname
  exact isOwnName_of_plain hvalid hpath hsegment

/-- The location of a request, when a file is there. -/
theorem inside_denoted_of_file (hplain : IsPlainDisk upcase store.root d) {path : JSString}
    {i : Nat} (hvalid : IsWorkspacePath store.platform path) (hpath : IsPlainPath upcase path)
    (hfile : d.entryAt (denoted upcase d (store.root ++ relativeLocation path)) = some (.file i)) :
    Inside store.root d (denoted upcase d (store.root ++ relativeLocation path)) where
  below := (spelled_of_plain hvalid hpath).below hplain (by simp [relativeLocation_ne_nil])
  parent := Disk.entryAt_dropLast (by simp [hfile])

/-- **`read`** on the volume returns the content of the file the path denotes. -/
theorem wp_readValid_fold (hplain : IsPlainDisk upcase store.root d)
    (normalized : WorkspacePath store.platform) (hpath : IsPlainPath upcase normalized.text) :
    (store.readValid normalized).wp (StoreOp.ExecFold upcase faulty)
      (ConfinedFold upcase store.root)
      (Reads faulty d (FoldLookup upcase d (store.root ++ relativeLocation normalized.text)
        fun i => FitsOr413 store (d.inodes i) fun r =>
          r = .ok (store.responseOf normalized.text (d.inodes i)))) d := by
  refine Reads.seq (wp_resolveExistingFile_fold hplain normalized hpath) ?_ ?_
  · rintro filePath (⟨i, hfile, hfilePath⟩ | ⟨-, _, herror⟩)
    · obtain rfl : filePath = store.root ++ relativeLocation normalized.text := by
        simpa using hfilePath
      have hinside := inside_denoted_of_file hplain normalized.valid hpath hfile
      have hopen : OpenInside store.root d (.file i) := ⟨i, _, rfl, hinside, hfile⟩
      have hnone : ∀ op : StoreOp, op.paths = [] → ∀ p ∈ op.paths, Spelled upcase store.root p :=
        fun op hop p hp => by simp [hop] at hp
      have hspelled : ∀ p ∈ (StoreOp.fs (.openRead
          (store.root ++ relativeLocation normalized.text))).paths, Spelled upcase store.root p := by
        simpa [StoreOp.paths] using spelled_of_plain normalized.valid hpath
      refine Reads.seq (wp_openRead_at ⟨⟨hinside, i, hfile⟩, hspelled⟩
        (fun _ _ hexec => hexec.exec (by simp)) hinside.locate hfile) ?_ (by simp)
      intro handle hhandle
      obtain rfl : handle = .file i := by simpa using hhandle
      refine Reads.ensuring ?_ (wp_close_at ⟨hopen, hnone _ rfl⟩
        fun _ _ hexec => hexec.exec (by simp))
      refine Reads.seq (wp_fstat_at ⟨hopen, hnone _ rfl⟩
        fun _ _ hexec => hexec.exec (by simp)) ?_ (by simp)
      intro info hinfo
      obtain rfl : info = FsOp.statOf d (.file i) := by simpa using hinfo
      refine wp_refuseIf_bind (fun h => absurd rfl h) fun _ => ?_
      refine Reads.seq (wp_readFile_at ⟨hopen, hnone _ rfl⟩
        fun _ _ hexec => hexec.exec (by simp)) ?_ (by simp)
      intro content hcontent
      obtain rfl : content = (d.inodes i).content := by simpa using hcontent
      refine wp_refuseIf_bind (fun hlarge => ?_) fun hlarge => ?_
      · exact ⟨rfl, .inr (.inl ⟨i, hfile, (fitsOr413_large hlarge).mpr ⟨_, rfl, rfl⟩⟩)⟩
      · exact Reads.pure (.inl ⟨i, hfile, (fitsOr413_small hlarge).mpr rfl⟩)
    · cases herror
  · rintro e (⟨_, -, herror⟩ | ⟨hnone, -⟩)
    · cases herror
    · exact .inr ⟨hnone, e, rfl⟩

/-- `readIfExists` on the volume only looks. -/
theorem wp_readIfExists_fold (hplain : IsPlainDisk upcase store.root d)
    (normalized : WorkspacePath store.platform) (hpath : IsPlainPath upcase normalized.text) :
    (store.readIfExists normalized).wp (StoreOp.ExecFold upcase faulty)
      (ConfinedFold upcase store.root) (Reads faulty d fun _ => True) d := by
  refine Reads.tryCatch (?_ : Prog.wp (StoreOp.ExecFold upcase faulty)
    (ConfinedFold upcase store.root) (Reads faulty d fun _ => True) _ d) (fun hfaulty => ⟨rfl, .inl ⟨hfaulty, rfl⟩⟩)
    (fun _ _ => ⟨rfl, .inr trivial⟩) ?_
  · refine Reads.seq (wp_readValid_fold hplain normalized hpath) ?_ fun _ _ => trivial
    rintro response (⟨i, hfile, -⟩ | ⟨-, _, herror⟩)
    · have hinside := inside_denoted_of_file hplain normalized.valid hpath hfile
      have hspelled : ∀ p ∈ (StoreOp.fs (.lstat
          (store.root ++ relativeLocation normalized.text))).paths, Spelled upcase store.root p := by
        simpa [StoreOp.paths] using spelled_of_plain normalized.valid hpath
      refine Reads.seq (wp_lstat_at ⟨hinside, hspelled⟩ (fun _ _ hexec => hexec.exec (by simp))
        hinside.locate) (fun info _ => ?_) fun _ _ => trivial
      exact wp_refuseIf_bind (fun _ => ⟨rfl, .inr trivial⟩) fun _ => Reads.pure trivial
    · cases herror
  · intro e _
    cases e with
    | workspace w =>
        dsimp only
        split
        · exact Reads.pure trivial
        · exact Reads.throw trivial
    | errno e => exact Reads.throw trivial
    | hook step => exact Reads.throw trivial
    | depth => exact Reads.throw trivial

/-! ## The scan -/

/-- Whatever the operation names is on the disk. -/
def StoreOp.Existing (d : Disk FileName) (op : StoreOp) : Prop :=
  ∀ p ∈ op.paths, d.entryAt p ≠ none

/-- What the scan has accepted: valid paths and files within the limit. -/
def Accepted (store : WorkspaceStore) (files : List WorkspaceFileMetadata) : Prop :=
  ∀ file ∈ files, IsWorkspacePath store.platform file.path ∧
    file.size ≤ store.limits.maxFileBytes

/-- A part of the scan accepts what it adds. -/
def KeepsAccepted (store : WorkspaceStore) (state : ScanState)
    (r : Except StoreFailure ScanState) : Prop :=
  ∀ state', r = .ok state' → Accepted store state.files → Accepted store state'.files

theorem KeepsAccepted.error (state : ScanState) (e : StoreFailure) :
    KeepsAccepted store state (.error e) := nofun

/-- One entry of a directory is looked at where it is. -/
theorem wp_visitEntry_existing {visit : Location → JSString → ScanState → StoreProg ScanState}
    {directory : Location} (parent : JSString) (state : ScanState)
    (hdir : d.entryAt directory = some .dir) (hname : name ∈ d.children directory)
    (hvisit : ∀ path, d.entryAt (directory ++ [name]) = some .dir →
      (visit (directory ++ [name]) path state).wp (StoreOp.Exec faulty) StoreOp.Existing
        (Reads faulty d (KeepsAccepted store state)) d) :
    (store.visitEntry visit directory parent state name).wp (StoreOp.Exec faulty)
      StoreOp.Existing (Reads faulty d (KeepsAccepted store state)) d := by
  have hexists := Disk.mem_children.mp hname
  have hlocate : d.locate false (directory ++ [name]) = .ok (directory ++ [name]) :=
    Disk.locate_eq (by simp) (by simpa using hdir)
  have hhere : ∀ op : StoreOp, op.paths = [directory ++ [name]] ∨ op.paths = [] →
      op.Existing d := by
    rintro op (hop | hop) p hp
    · rw [hop, List.mem_singleton] at hp
      rwa [hp]
    · simp [hop] at hp
  obtain ⟨e, hentry⟩ := Option.ne_none_iff_exists'.mp hexists
  unfold WorkspaceStore.visitEntry
  split
  · exact Reads.pure fun state' hstate h => Except.ok.inj hstate ▸ h
  dsimp only
  rw [fileName_text, Prog.wp_bind, Prog.wp_ofExcept]
  rcases parsePath_cases store (childPathOf parent name.text) with ⟨hvalid, _, -, hparse⟩ | ⟨-, _, -, hparse⟩
  swap
  · rw [hparse]
    exact ⟨rfl, .inr (.error _ _)⟩
  rw [hparse, Prog.afterBind_ok]
  refine Reads.seq (wp_lstat_at (hhere _ (.inl rfl)) (fun _ _ hexec => hexec) hlocate) ?_
    fun _ _ => .error _ _
  intro info hinfo
  obtain rfl : info = FsOp.statOf d e := by simpa [hentry] using hinfo
  refine wp_refuseIf_bind (fun _ => ⟨rfl, .inr (.error _ _)⟩) fun hkind => ?_
  cases e with
  | link target => exact absurd (.inl rfl) hkind
  | special => exact absurd (.inr (by simp [FsOp.statOf])) hkind
  | dir =>
      rw [if_pos (show (FsOp.statOf d (.dir : Entry FileName)).kind = .dir from rfl)]
      exact hvisit _ hentry
  | file i =>
      rw [if_neg (by simp [FsOp.statOf])]
      refine wp_refuseIf_bind (fun _ => ⟨rfl, .inr (.error _ _)⟩) fun _ => ?_
      refine Reads.seq (wp_openRead_at (hhere _ (.inl rfl)) (fun _ _ hexec => hexec) hlocate hentry)
        ?_ fun _ _ => .error _ _
      intro handle hhandle
      obtain rfl : handle = .file i := by simpa using hhandle
      refine Reads.seq (?_ : Prog.wp (StoreOp.Exec faulty) StoreOp.Existing
        (Reads faulty d fun _ => True) _ d) ?_ fun _ _ => .error _ _
      · refine Reads.ensuring ?_ (wp_close_at (hhere _ (.inr rfl)) fun _ _ hexec => hexec)
        refine Reads.seq (wp_fstat_at (hhere _ (.inr rfl)) fun _ _ hexec => hexec)
          (fun info _ => ?_) fun _ _ => trivial
        refine wp_refuseIf_bind (fun _ => ⟨rfl, .inr trivial⟩) fun _ => ?_
        refine Reads.seq (wp_readFile_at (hhere _ (.inr rfl)) fun _ _ hexec => hexec)
          (fun content _ => ?_) fun _ _ => trivial
        exact Reads.pure trivial
      · rintro ⟨openedInfo, content⟩ -
        refine wp_refuseIf_bind (fun _ => ⟨rfl, .inr (.error _ _)⟩) fun hlarge => ?_
        refine wp_refuseIf_bind (fun _ => ⟨rfl, .inr (.error _ _)⟩) fun _ => ?_
        refine Reads.pure fun state' hstate h file hfile => ?_
        obtain rfl := Except.ok.inj hstate
        rcases List.mem_append.mp hfile with hfile | hfile
        · exact h file hfile
        · rw [List.mem_singleton.mp hfile]
          exact ⟨hvalid, Nat.le_of_not_lt hlarge⟩

theorem wp_visit_existing (depth : Nat) {directory : Location} (parent : JSString)
    (state : ScanState) (hdir : d.entryAt directory = some .dir) :
    (store.visit depth directory parent state).wp (StoreOp.Exec faulty) StoreOp.Existing
      (Reads faulty d (KeepsAccepted store state)) d := by
  induction depth generalizing directory parent state with
  | zero => exact Reads.throw (.error _ _)
  | succ depth ih =>
      rw [WorkspaceStore.visit]
      have hhere : (StoreOp.fs (.readdir directory)).Existing d := by
        simp [StoreOp.Existing, StoreOp.paths, hdir]
      refine Reads.seq (wp_readdir_at hhere (fun _ _ hexec => hexec) hdir) ?_ fun _ _ => .error _ _
      intro entries hentries
      obtain rfl : entries = d.children directory := by simpa using hentries
      -- the entries, one after the other
      have hall : ∀ names : List FileName, (∀ name ∈ names, name ∈ d.children directory) →
          ∀ state, (names.foldlM (store.visitEntry (store.visit depth) directory parent) state).wp
            (StoreOp.Exec faulty) StoreOp.Existing
            (Reads faulty d (KeepsAccepted store state)) d := by
        intro names
        induction names with
        | nil => exact fun _ state => Reads.pure fun state' hstate h => Except.ok.inj hstate ▸ h
        | cons name names ihnames =>
            intro hnames state
            rw [List.foldlM_cons]
            refine Reads.seq (wp_visitEntry_existing parent state hdir
              (hnames name (List.mem_cons_self ..)) fun path hchild => ih path state hchild) ?_
              fun _ _ => .error _ _
            intro state' hstate'
            refine Reads.mono (ihnames (fun n hn => hnames n (List.mem_cons_of_mem _ hn)) state') ?_
            exact fun r hr state'' hr' h => hr state'' hr' (hstate' state' rfl h)
      exact hall _ (fun _ h => h) state

theorem mapPath_of_existing (hplain : IsPlainDisk upcase root d) {op : FsOp FileName}
    (hexists : (StoreOp.fs op).Existing d) : op.mapPath (denoted upcase d) = op := by
  have hsame : ∀ p ∈ (StoreOp.fs op).paths, denoted upcase d p = p :=
    fun p hp => hplain.denoted_eq (hexists p hp)
  cases op <;> simp_all [StoreOp.paths, FsOp.mapPath]

/-- What is on a plain disk is spelled as the store spells it. -/
theorem spelled_of_existing (hplain : IsPlainDisk upcase root d) {relative : Location}
    (hentry : d.entryAt (root ++ relative) ≠ none) (hgit : gitName ∉ relative) :
    Spelled upcase root (root ++ relative) := by
  refine ⟨relative, rfl, fun name hname => ?_⟩
  obtain ⟨hrecognised, hwhole⟩ := hplain.recognised relative hentry name hname
  refine ⟨fun heq => ?_, hrecognised, hwhole⟩
  have hhidden : isHidden name = true := by
    simpa [isRespelled, isReserved, heq] using hrecognised
  exact foldName_ne_of_hidden hhidden (fun h => hgit (h ▸ hname)) heq

/-- **A program that only looks at what is there** is the same on the volume. -/
theorem wp_fold_of_existing {prog : StoreProg α} {post : Except StoreFailure α → Disk FileName → Prop}
    (hplain : IsPlainDisk upcase root d) (hlooks : prog.Only StoreOp.Looks)
    (h : prog.wp (StoreOp.Exec faulty) (fun d op => Confined root d op ∧ op.Existing d) post d) :
    prog.wp (StoreOp.ExecFold upcase faulty) (ConfinedFold upcase root) post d := by
  induction prog generalizing d with
  | pure a => exact h
  | throw e => exact h
  | perform op next ih =>
      obtain ⟨⟨hconfined, hexists⟩, hnext⟩ := h
      cases op with
      | hook step => exact hlooks.1.elim
      | randomUUID => exact hlooks.1.elim
      | fs op =>
          have hread : op.isRead = true := hlooks.1
          have hmap := mapPath_of_existing hplain hexists
          have hop : ∀ p q, op ≠ .rename p q := by
            rintro p q rfl
            cases hread
          refine ⟨⟨?_, fun p hp => ?_⟩, fun reply d' hexec => ?_⟩
          · rwa [StoreOp.mapPath, hmap]
          · obtain ⟨relative, rfl, hgit⟩ : ∃ relative, p = root ++ relative ∧ gitName ∉ relative := by
              cases op with
              | lstat q =>
                  obtain ⟨relative, heq, -, hgit⟩ := (show Inside root d q from hconfined).below
                  exact ⟨relative, (List.mem_singleton.mp hp).trans heq, hgit⟩
              | readdir q =>
                  obtain ⟨relative, heq, hgit, -⟩ := hconfined
                  exact ⟨relative, (List.mem_singleton.mp hp).trans heq, hgit⟩
              | openRead q =>
                  obtain ⟨relative, heq, -, hgit⟩ := hconfined.1.below
                  exact ⟨relative, (List.mem_singleton.mp hp).trans heq, hgit⟩
              | fstat | readFile | close | fsync => cases hp
              | mkdir | openCreate | writeFile | rename | unlink | rmForce => cases hread
            exact spelled_of_existing hplain (hexists _ hp) hgit
          · have hexec' : op.Exec faulty d reply d' := hexec.of_resolve hop hmap
            obtain rfl : d' = d := FsOp.Exec.of_isRead hexec' hread
            exact ih reply hplain (hlooks.2 reply) (hnext reply d' hexec')

/-- **`scan`** on the volume lists the shown files, with accepted paths. -/
theorem wp_scan_fold (hplain : IsPlainDisk upcase store.root d) :
    store.scan.wp (StoreOp.ExecFold upcase faulty) (ConfinedFold upcase store.root)
      (Reads faulty d fun r => ∀ files, r = .ok files →
        IsListing store d files ∧ Accepted store files) d := by
  have hexisting : store.scan.wp (StoreOp.Exec faulty) StoreOp.Existing
      (Reads faulty d fun r => ∀ files, r = .ok files → Accepted store files) d := by
    refine Reads.seq (wp_visit_existing _ [] ⟨[], 0⟩ hplain.rooted) ?_ fun _ _ => nofun
    intro state hstate
    refine Reads.pure fun files hfiles file hfile => ?_
    obtain rfl := Except.ok.inj hfiles
    exact hstate state rfl (by simp [Accepted]) file ((List.mergeSort_perm _ _).mem_iff.mp hfile)
  refine wp_fold_of_existing hplain looks_scan ?_
  refine Prog.wp_mono (fun s op h => ⟨h.1.1, h.2⟩) (fun r t h => ?_)
    (Prog.wp_both (wp_scan hplain.rooted) hexisting)
  obtain ⟨⟨rfl, hlist⟩, -, haccepted⟩ := h
  refine ⟨rfl, ?_⟩
  rcases hlist with hfault | hlist
  · exact .inl hfault
  · rcases haccepted with hfault | haccepted
    · exact .inl hfault
    · refine .inr fun files hfiles => ⟨?_, haccepted files hfiles⟩
      subst hfiles
      exact hlist

/-! ## Mutations -/

/-- **Frames.**  A confined program keeps the disk plain, its directories, and whatever is beyond the
workspace. -/
theorem wp_keeps {prog : StoreProg α} {post : Except StoreFailure α → Disk FileName → Prop}
    (hplain : IsPlainDisk upcase root d)
    (h : prog.wp (StoreOp.ExecFold upcase faulty) (ConfinedFold upcase root) post d) :
    prog.wp (StoreOp.ExecFold upcase faulty) (ConfinedFold upcase root)
      (fun r t => post r t ∧ Keeps upcase root d t) d := by
  refine Prog.wp_post (fun r t ht => ⟨ht.1, ht.2 hplain⟩) (Prog.wp_frame
    (R := fun s t => IsPlainDisk upcase root s → Keeps upcase root s t) ?_ ?_ ?_ h)
  · exact fun _ hs => Keeps.refl hs
  · exact fun h h' hs => (h hs).trans (h' (h hs).plain)
  · exact fun _ _ _ _ hop hexec hs => keeps_of_confined hs hop hexec

/-- A path whose directory stays and that denotes an entry goes on to denote it. -/
theorem denoted_of_exists {t : Disk FileName} (h : FoldDir upcase root d p)
    (hkeeps : Keeps upcase root d t) (hentry : t.entryAt (denoted upcase d (p ++ [name])) ≠ none) :
    denoted upcase t (p ++ [name]) = denoted upcase d (p ++ [name]) := by
  have hparent := hkeeps.plain.distinct.resolve_of_keepsDirs hkeeps.dirs h.dir
  rw [denoted, Disk.resolve_concat] at hentry
  rw [denoted, denoted, Disk.resolve_concat, Disk.resolve_concat, hparent,
    hkeeps.plain.distinct.sibling_eq hentry (Disk.fold_sibling ..)]

/-- One directory of the way to a destination. -/
theorem wp_makeDirectory_fold (hplain : IsPlainDisk upcase root d) (h : FoldDir upcase root d p)
    (hname : IsOwnName upcase name) :
    (WorkspaceStore.makeDirectory (p ++ [name])).wp (StoreOp.ExecFold upcase faulty)
      (ConfinedFold upcase root)
      (fun r t => r = .ok () → FoldDir upcase root t (p ++ [name])) d := by
  refine Reads.tryCatch (?_ : Prog.wp (StoreOp.ExecFold upcase faulty) (ConfinedFold upcase root)
    (Reads faulty d fun r => r = .ok () →
      d.entryAt (denoted upcase d (p ++ [name])) = some .dir) _ d) (fun _ h => by cases h)
    (fun _ hdir _ => h.child hname (hdir rfl)) ?_
  · refine Reads.seq (wp_lstat_fold hplain h hname) ?_ fun _ _ h => by cases h
    intro info hinfo
    rw [refuseIf, Prog.wp_throwIf]
    refine ⟨fun _ => ⟨rfl, .inr fun h => by cases h⟩, fun hkind => ⟨rfl, .inr fun _ => ?_⟩⟩
    cases hentry : d.entryAt (denoted upcase d (p ++ [name])) with
    | none => simp [hentry] at hinfo
    | some e =>
        obtain rfl : info = FsOp.statOf d e := by simpa [hentry] using hinfo
        cases e <;> simp [FsOp.statOf] at hkind ⊢
  · intro e _
    split
    swap
    · exact fun h => by cases h
    have hinside := h.inside hplain hname
    have hspelled : ∀ q ∈ (StoreOp.fs (.mkdir (p ++ [name]) 0o700)).paths,
        Spelled upcase root q := by
      simpa [StoreOp.paths] using h.spelled.concat hname
    refine wp_await.mpr ⟨⟨hinside, hspelled⟩, fun reply t hexec => ?_⟩
    have hop : ConfinedFold upcase root d (.fs (.mkdir (p ++ [name]) 0o700)) := ⟨hinside, hspelled⟩
    have hkeeps := keeps_of_confined hplain hop hexec
    cases reply with
    | error e => exact fun h => by cases h
    | ok =>
        intro _
        have hmkdir : (FsOp.mkdir (denoted upcase d (p ++ [name])) 0o700).Exec faulty d (.ok ()) t :=
          hexec.exec (by simp)
        have hmade : t.entryAt (denoted upcase d (p ++ [name])) = some .dir := by
          cases hfree : d.entryAt (denoted upcase d (p ++ [name])) with
          | none =>
              rcases FsOp.Exec.mkdir hmkdir hinside.locate hfree with ⟨-, rfl⟩ | ⟨-, herror, -⟩
              · rw [Disk.entryAt_put ⟨hinside.ne_nil, hinside.parent, by simp [hfree], trivial⟩,
                  if_pos rfl]
              · cases herror
          | some e => exact absurd rfl (FsOp.Exec.mkdir_some hmkdir hinside.locate hfree).1
        refine ⟨h.spelled.concat hname, ?_⟩
        rw [denoted_of_exists h hkeeps (by simp [hmade]), hmade]

/-- The directories of the way to a destination. -/
theorem wp_makeParents_fold (hplain : IsPlainDisk upcase root d) (h : FoldDir upcase root d p)
    {segments : List JSString}
    (hown : ∀ segment ∈ segments, IsOwnName upcase (fileName segment)) :
    (WorkspaceStore.makeParents p segments).wp (StoreOp.ExecFold upcase faulty)
      (ConfinedFold upcase root)
      (fun r t => ∀ parent, r = .ok parent → FoldDir upcase root t parent) d := by
  induction segments generalizing p d with
  | nil => exact fun parent hparent => Except.ok.inj hparent ▸ h
  | cons segment rest ih =>
      have hsegment := hown segment (List.mem_cons_self ..)
      rw [WorkspaceStore.makeParents, Prog.wp_bind]
      refine Prog.wp_post ?_ (wp_keeps hplain (wp_makeDirectory_fold hplain h hsegment))
      rintro r t ⟨hr, hkeeps⟩
      cases r with
      | error e => exact fun _ h => by cases h
      | ok =>
          exact ih hkeeps.plain (hr rfl) fun s hs => hown s (List.mem_cons_of_mem _ hs)

theorem wp_hook_fold {step : WriteStep} {post : Except StoreFailure Unit → Disk FileName → Prop}
    (hok : post (.ok ()) d) (hthrow : post (.error (.hook step)) d) :
    (atomicWriteHook step).wp (StoreOp.ExecFold upcase faulty) (ConfinedFold upcase root) post d := by
  refine ⟨⟨trivial, by simp [StoreOp.paths]⟩, ?_⟩
  rintro reply t ⟨rfl, -⟩
  exact (Prog.wp_throwIf ..).mpr ⟨fun _ => hthrow, fun _ => hok⟩

/-- A temporary file while it is written: the only name of its inode. -/
structure FoldFilling (root : Location) (d : Disk FileName) (temporary : Location) (i : Nat) :
    Prop where
  inside : Inside root d temporary
  entry : d.entryAt temporary = some (.file i)
  only : ∀ q, d.entryAt q = some (.file i) → q = temporary

theorem FoldFilling.opened {i : Nat} (h : FoldFilling root d p i) :
    OpenInside root d (.file i) := ⟨i, p, rfl, h.inside, h.entry⟩

theorem FoldFilling.congr {t : Disk FileName} {i : Nat} (h : FoldFilling root d p i)
    (hentry : ∀ q, t.entryAt q = d.entryAt q) : FoldFilling root t p i where
  inside := ⟨h.inside.below, (hentry _).trans h.inside.parent⟩
  entry := (hentry _).trans h.entry
  only := fun q hq => h.only q ((hentry q).symm.trans hq)

/-- A look through a descriptor: the entries are as before. -/
theorem wp_handle_fold {i : Nat} {op : FsOp FileName} (h : FoldFilling root d p i)
    (hpaths : (StoreOp.fs op).paths = []) (hmap : ∀ f, op.mapPath f = op)
    (hconfined : Confined root d (.fs op))
    (hentry : ∀ reply t, op.Exec faulty d reply t → ∀ q, t.entryAt q = d.entryAt q) :
    (fs op).wp (StoreOp.ExecFold upcase faulty) (ConfinedFold upcase root)
      (fun _ t => FoldFilling root t p i) d := by
  refine wp_await.mpr ⟨⟨?_, by simp [hpaths]⟩, fun reply t hexec => ?_⟩
  · rwa [StoreOp.mapPath, hmap]
  · have hop : ∀ p q, op ≠ .rename p q := by
      rintro p q rfl
      simp [StoreOp.paths] at hpaths
    have ht := h.congr (hentry reply t (hexec.of_resolve hop (hmap _)))
    cases reply with
    | ok => exact ht
    | error e => exact ht

/-- Filling a temporary file. -/
theorem wp_filling_fold {i : Nat} {content : Bytes} (h : FoldFilling root d p i) :
    ((do
      atomicWriteHook .write
      fs (.writeFile (.file i) content)
      atomicWriteHook .sync
      fs (.fsync (.file i))
      fs (.close (.file i)) : StoreProg Unit).onError
        (WorkspaceStore.quietly (fs (.close (.file i))))).wp
      (StoreOp.ExecFold upcase faulty) (ConfinedFold upcase root)
      (fun _ t => FoldFilling root t p i) d := by
  have hread : ∀ {op : FsOp FileName} {t : Disk FileName}, op.isRead = true →
      ∀ reply u, op.Exec faulty t reply u → ∀ q, u.entryAt q = t.entryAt q := by
    intro op t hop reply u hexec q
    rw [FsOp.Exec.of_isRead hexec hop]
  have hclose : ∀ {t : Disk FileName}, FoldFilling root t p i →
      (fs (.close (.file i))).wp (StoreOp.ExecFold upcase faulty) (ConfinedFold upcase root)
        (fun _ u => FoldFilling root u p i) t :=
    fun ht => wp_handle_fold ht rfl (fun _ => rfl) ht.opened (hread rfl)
  -- a step after which the rest runs, whatever it replied
  have hnext : ∀ {β : Type} {prog : StoreProg Unit} {rest : Unit → StoreProg β} {t : Disk FileName},
      prog.wp (StoreOp.ExecFold upcase faulty) (ConfinedFold upcase root)
        (fun _ u => FoldFilling root u p i) t →
      (∀ u, FoldFilling root u p i → (rest ()).wp (StoreOp.ExecFold upcase faulty)
        (ConfinedFold upcase root) (fun _ v => FoldFilling root v p i) u) →
      (prog >>= rest).wp (StoreOp.ExecFold upcase faulty) (ConfinedFold upcase root)
        (fun _ v => FoldFilling root v p i) t := by
    intro β prog rest t hprog hrest
    rw [Prog.wp_bind]
    refine Prog.wp_post ?_ hprog
    rintro r u hu
    cases r with
    | ok => exact hrest u hu
    | error e => exact hu
  rw [Prog.wp_onError]
  refine Prog.wp_post ?_ (?_ : Prog.wp (StoreOp.ExecFold upcase faulty) (ConfinedFold upcase root)
    (fun _ t => FoldFilling root t p i) _ d)
  · rintro r t ht
    cases r with
    | ok => exact ht
    | error e =>
        show Prog.wp _ _ _ (WorkspaceStore.quietly _) t
        rw [WorkspaceStore.quietly, Prog.wp_tryCatch]
        refine Prog.wp_post ?_ (hclose ht)
        rintro r u hu
        cases r with
        | ok => exact hu
        | error e => exact hu
  refine hnext (wp_hook_fold h h) fun t ht => ?_
  refine hnext (wp_handle_fold ht rfl (fun _ => rfl) ⟨ht.opened, ?_⟩ ?_) fun u hu => ?_
  · rintro j q hj hq
    obtain rfl : i = j := by simpa using hj
    exact ht.only q hq ▸ ht.inside
  · intro reply u hexec q
    rcases FsOp.Exec.writeFile hexec with ⟨-, now, rfl⟩ | ⟨-, -, data, -, rfl⟩
    · rfl
    · rfl
  refine hnext (wp_hook_fold hu hu) fun v hv => ?_
  exact hnext (wp_handle_fold hv rfl (fun _ => rfl) hv.opened (hread rfl)) fun w hw => hclose hw

/-- Removing a temporary file, errors ignored. -/
theorem wp_quietlyRemove_fold (hplain : IsPlainDisk upcase root d) (h : FoldDir upcase root d p)
    (hname : IsOwnName upcase name) :
    (WorkspaceStore.quietly (fs (.rmForce (p ++ [name])))).wp (StoreOp.ExecFold upcase faulty)
      (ConfinedFold upcase root) (fun _ _ => True) d := by
  have hspelled : ∀ q ∈ (StoreOp.fs (.rmForce (p ++ [name]))).paths, Spelled upcase root q := by
    simpa [StoreOp.paths] using h.spelled.concat hname
  rw [WorkspaceStore.quietly, Prog.wp_tryCatch]
  refine wp_await.mpr ⟨⟨h.inside hplain hname, hspelled⟩, fun reply t _ => ?_⟩
  cases reply <;> exact trivial

/-- **The replacement of a file** on the volume. -/
theorem wp_replaceFile_fold (hplain : IsPlainDisk upcase root d) (h : FoldDir upcase root d p)
    {temporary destination : FileName} (htemporary : IsOwnName upcase temporary)
    (hdestination : IsOwnName upcase destination) (content : Bytes) (mode : Nat) :
    (WorkspaceStore.replaceFile (p ++ [temporary]) (p ++ [destination]) content mode).wp
      (StoreOp.ExecFold upcase faulty) (ConfinedFold upcase root) (fun _ _ => True) d := by
  rw [WorkspaceStore.replaceFile, Prog.wp_onError]
  refine Prog.wp_post ?_ (wp_keeps hplain (?_ : Prog.wp (StoreOp.ExecFold upcase faulty)
    (ConfinedFold upcase root) (fun _ _ => True) _ d))
  · rintro r t ⟨-, hkeeps⟩
    cases r with
    | ok => trivial
    | error e =>
        refine Prog.wp_post (fun r _ _ => ?_)
          (wp_quietlyRemove_fold hkeeps.plain (h.keeps hkeeps) htemporary)
        cases r <;> trivial
  have hinside := h.inside hplain htemporary
  have hspelled : ∀ q ∈ (StoreOp.fs (.openCreate (p ++ [temporary]) mode)).paths,
      Spelled upcase root q := by
    simpa [StoreOp.paths] using h.spelled.concat htemporary
  rw [Prog.wp_bind]
  refine wp_await.mpr ⟨⟨hinside, hspelled⟩, fun reply t hexec => ?_⟩
  have hop : ConfinedFold upcase root d (.fs (.openCreate (p ++ [temporary]) mode)) :=
    ⟨hinside, hspelled⟩
  have hkeeps := keeps_of_confined hplain hop hexec
  cases reply with
  | error e => trivial
  | ok handle =>
      have hcreate : (FsOp.openCreate (denoted upcase d (p ++ [temporary])) mode).Exec faulty d
          (.ok handle) t := hexec.exec (by simp)
      rcases FsOp.Exec.openCreate hcreate hinside.locate
        with ⟨hfree, hhandle, now, rfl⟩ | ⟨-, herror, -⟩ | ⟨-, herror, -⟩
      swap
      · cases herror
      swap
      · cases herror
      obtain rfl : handle = .file d.nextInode := by simpa using hhandle
      have hcreated := @FsOp.entryAt_created _ _ _ _ mode now hinside.ne_nil hinside.parent hfree
      have hfilling : FoldFilling root (FsOp.created d (denoted upcase d (p ++ [temporary])) mode now)
          (denoted upcase d (p ++ [temporary])) d.nextInode := by
        refine ⟨⟨hinside.below, hkeeps.dirs _ hinside.parent⟩, by rw [hcreated, if_pos rfl], ?_⟩
        intro q hq
        by_contra hne
        rw [hcreated, if_neg hne] at hq
        exact absurd (Disk.fresh_entryAt hq) (Nat.lt_irrefl _)
      show Prog.wp _ _ _ (Prog.onError _ _ >>= _) _
      rw [Prog.wp_bind]
      refine Prog.wp_post ?_ (wp_keeps hkeeps.plain (wp_filling_fold hfilling))
      rintro r u ⟨hu, hkeeps'⟩
      cases r with
      | error e => trivial
      | ok =>
          have hall := hkeeps.trans hkeeps'
          show Prog.wp _ _ _ (atomicWriteHook _ >>= _) _
          rw [Prog.wp_bind]
          refine wp_hook_fold ?_ trivial
          have hdenoted : denoted upcase u (p ++ [temporary])
              = denoted upcase d (p ++ [temporary]) := denoted_of_exists h hall (by simp [hu.entry])
          have htarget := (h.keeps hall).inside hall.plain hdestination
          refine wp_await.mpr ⟨⟨⟨?_, htarget, d.nextInode, ?_⟩, ?_⟩, fun reply v _ => ?_⟩
          · show Inside root u (denoted upcase u (p ++ [temporary]))
            rw [hdenoted]
            exact hu.inside
          · show u.entryAt (denoted upcase u (p ++ [temporary])) = _
            rw [hdenoted, hu.entry]
          · intro q hq
            simp only [StoreOp.paths, List.mem_cons, List.not_mem_nil, or_false] at hq
            rcases hq with rfl | rfl
            · exact h.spelled.concat htemporary
            · exact h.spelled.concat hdestination
          · cases reply <;> trivial

/-- What `write` does once its checks passed, on the volume. -/
theorem wp_publish_fold (hplain : IsPlainDisk upcase store.root d)
    (normalized : WorkspacePath store.platform) (hpath : IsPlainPath upcase normalized.text)
    (content : Bytes) (mode : Nat) :
    (store.publish normalized content mode).wp (StoreOp.ExecFold upcase faulty)
      (ConfinedFold upcase store.root) (fun _ _ => True) d := by
  have hown : ∀ segment ∈ JSString.split (unit '/') normalized.text,
      IsOwnName upcase (fileName segment) :=
    fun segment hsegment => isOwnName_of_plain normalized.valid hpath hsegment
  have hlast : (JSString.split (unit '/') normalized.text).getLastD []
      ∈ JSString.split (unit '/') normalized.text := by
    rw [List.getLastD_eq_getLast?, List.getLast?_eq_getLast_of_ne_nil
      (JSString.split_ne_nil (unit '/') normalized.text)]
    exact List.getLast_mem _
  rw [WorkspaceStore.publish, WorkspaceStore.resolveForWrite, Prog.wp_bind, Prog.wp_bind]
  refine Prog.wp_post ?_ (wp_keeps hplain (wp_makeParents_fold hplain hplain.foldDir_root
    fun segment hsegment => hown segment (List.mem_of_mem_dropLast hsegment)))
  rintro r t ⟨hr, hkeeps⟩
  cases r with
  | error e => trivial
  | ok parent =>
      have hparent := hr parent rfl
      rw [Prog.afterBind_ok, Prog.wp_pure, Prog.afterBind_ok, Prog.wp_bind]
      refine ⟨⟨trivial, by simp [StoreOp.paths]⟩, ?_⟩
      rintro uuid t' rfl
      show Prog.wp _ _ _ (WorkspaceStore.replaceFile _ _ _ _ >>= _) _
      rw [Prog.wp_bind]
      refine Prog.wp_post ?_ (wp_keeps hkeeps.plain (wp_replaceFile_fold hkeeps.plain hparent
        (isOwnName_temporaryName uuid) (hown _ hlast) content mode))
      rintro r u ⟨-, hkeeps'⟩
      cases r with
      | error e => trivial
      | ok =>
          rw [Prog.afterBind_ok, Prog.wp_bind]
          refine Prog.wp_post (fun r _ _ => ?_) (wp_readValid_fold hkeeps'.plain normalized hpath)
          cases r <;> trivial

/-- What `write` does while it holds the lock, on the volume. -/
theorem wp_lockedWrite_fold (hplain : IsPlainDisk upcase store.root d)
    (normalized : WorkspacePath store.platform) (hpath : IsPlainPath upcase normalized.text)
    (content : Bytes) (precondition : WorkspaceWritePrecondition) :
    (store.lockedWrite normalized content precondition).wp (StoreOp.ExecFold upcase faulty)
      (ConfinedFold upcase store.root) (fun _ _ => True) d := by
  refine Reads.bind (wp_readIfExists_fold hplain normalized hpath) (fun _ => trivial) ?_
    fun _ _ => trivial
  intro existing _
  have hrest : (do
      let files ← store.scan
      let currentBytes : Nat := (files.map (·.size)).sum
      refuseIf (existing.isNone ∧ store.limits.maxEntries ≤ files.length) 413
        (js "workspace-entry-limit") (js "Workspace contains too many files.")
      let existingSize : Nat := (existing.map (·.1.size)).getD 0
      refuseIf ((store.limits.maxWorkspaceBytes : Int) < currentBytes - existingSize + content.length)
        413 (js "workspace-size-limit") (js "Workspace exceeds the configured total size limit.")
      store.publish normalized content ((existing.map (·.2)).getD 0o600) :
        StoreProg WorkspaceFileMetadata).wp (StoreOp.ExecFold upcase faulty)
      (ConfinedFold upcase store.root) (fun _ _ => True) d := by
    refine Reads.bind (wp_scan_fold hplain) (fun _ => trivial) (fun files _ => ?_)
      fun _ _ => trivial
    refine wp_refuseIf_bind (fun _ => trivial) fun _ => ?_
    refine wp_refuseIf_bind (fun _ => trivial) fun _ => ?_
    exact wp_publish_fold hplain normalized hpath _ _
  cases precondition with
  | create => exact wp_refuseIf_bind (fun _ => trivial) fun _ => hrest
  | update etag => exact wp_refuseIf_bind (fun _ => trivial) fun _ => hrest

/-- What `delete` does while it holds the lock, on the volume. -/
theorem wp_lockedDelete_fold (hplain : IsPlainDisk upcase store.root d)
    (normalized : WorkspacePath store.platform) (hpath : IsPlainPath upcase normalized.text)
    (expectedEtag : JSString) :
    (store.lockedDelete normalized expectedEtag).wp (StoreOp.ExecFold upcase faulty)
      (ConfinedFold upcase store.root) (fun _ _ => True) d := by
  refine Reads.bind (wp_readIfExists_fold hplain normalized hpath) (fun _ => trivial)
    (fun existing _ => ?_) fun _ _ => trivial
  refine wp_refuseIf_bind (fun _ => trivial) fun _ => ?_
  refine Reads.bind (wp_resolveExistingFile_fold hplain normalized hpath) (fun _ => trivial) ?_
    fun _ _ => trivial
  rintro filePath (⟨i, hfile, hfilePath⟩ | ⟨-, _, herror⟩)
  · obtain rfl : filePath = store.root ++ relativeLocation normalized.text := by
      simpa using hfilePath
    have hinside := inside_denoted_of_file hplain normalized.valid hpath hfile
    have hspelled : ∀ p ∈ (StoreOp.fs (.unlink
        (store.root ++ relativeLocation normalized.text))).paths, Spelled upcase store.root p := by
      simpa [StoreOp.paths] using spelled_of_plain normalized.valid hpath
    refine wp_await.mpr ⟨⟨⟨hinside, i, hfile⟩, hspelled⟩, fun reply t _ => ?_⟩
    cases reply <;> trivial
  · cases herror

end Programs

end Typr
