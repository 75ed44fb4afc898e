import TyprCompanion.Workspace.Reading

/-!
# Listing the workspace

What `scan` finds on an arbitrary disk: every shown file once, with its size and etag.  It refuses
with 413 only when the shown files exceed a limit, and otherwise only when the tree is not clean.

* `Clean` — below the root there are only directories and regular files with valid names.
* `ScanOutcome` — what a part of the scan may end with, for the files it is responsible for.
* **`wp_scan`** — the whole scan; its recursion never gets past the deepest valid path.
-/

namespace Typr

open Core

variable {store : WorkspaceStore} {faulty : Bool} {d : Disk FileName}

namespace WorkspaceStore

/-- What `list` tells about a file. -/
def metadataOf (store : WorkspaceStore) (path : JSString) (file : FileData) :
    WorkspaceFileMetadata := metadataOnly (store.responseOf path file)

/-- The data of the file at a location below the root. -/
def fileData (store : WorkspaceStore) (d : Disk FileName) (relative : Location) : FileData :=
  match d.entryAt (store.root ++ relative) with
  | some (.file i) => d.inodes i
  | _ => ⟨[], 0, 0⟩

/-- The entry of the listing for a location. -/
def describe (store : WorkspaceStore) (d : Disk FileName) (relative : Location) :
    WorkspaceFileMetadata := store.metadataOf (pathOf relative) (store.fileData d relative)

/-- Whatever is shown is a directory or a regular file and has a valid path. -/
def Clean (store : WorkspaceStore) (d : Disk FileName) : Prop :=
  ∀ relative, isShown relative = true → ∀ e, d.entryAt (store.root ++ relative) = some e →
    IsWorkspacePath store.platform (pathOf relative) ∧ (e = .dir ∨ ∃ i, e = .file i)

end WorkspaceStore

theorem fileData_of_file {relative : Location} {i : Nat}
    (h : d.entryAt (store.root ++ relative) = some (.file i)) :
    store.fileData d relative = d.inodes i := by rw [WorkspaceStore.fileData, h]

/-- The shown files at or below a location. -/
def Under (store : WorkspaceStore) (d : Disk FileName) (relative q : Location) : Prop :=
  q ∈ shownLocations store.root d ∧ relative <+: q

/-- The files fit on top of what the scan has found. -/
def Fits (store : WorkspaceStore) (d : Disk FileName) (state : ScanState) (locs : List Location) :
    Prop :=
  state.files.length + locs.length ≤ store.limits.maxEntries ∧
    (∀ q ∈ locs, (store.describe d q).size ≤ store.limits.maxFileBytes) ∧
    state.totalBytes + (locs.map fun q => (store.describe d q).size).sum
      ≤ store.limits.maxWorkspaceBytes

/-- The state after the given files were found. -/
def Found (store : WorkspaceStore) (d : Disk FileName) (state : ScanState) (locs : List Location)
    (state' : ScanState) : Prop :=
  state'.files = state.files ++ locs.map (store.describe d) ∧
    state'.totalBytes = state.totalBytes + (locs.map fun q => (store.describe d q).size).sum

/-- What a part of the scan that is responsible for the locations in `S` ends with. -/
def ScanOutcome (store : WorkspaceStore) (d : Disk FileName) (S : Location → Prop)
    (state : ScanState) : Except StoreFailure ScanState → Prop
  | .ok state' => ∃ locs : List Location,
      locs.Nodup ∧ (∀ q, q ∈ locs ↔ S q) ∧ Found store d state locs state'
  | .error e =>
      (IsRefusal 413 (.error e : Except StoreFailure Unit) ∧
        ∃ locs : List Location, locs.Nodup ∧ (∀ q ∈ locs, S q) ∧ ¬ Fits store d state locs) ∨
      (¬ store.Clean d ∧ ∃ w : WorkspaceError, e = .workspace w ∧ w.status ≠ 413)

/-! ## One after the other -/

theorem Found.append {state state' state'' : ScanState} {locs locs' : List Location}
    (h : Found store d state locs state') (h' : Found store d state' locs' state'') :
    Found store d state (locs ++ locs') state'' := by
  obtain ⟨hfiles, htotal⟩ := h
  obtain ⟨hfiles', htotal'⟩ := h'
  refine ⟨by rw [hfiles', hfiles]; simp, ?_⟩
  rw [htotal', htotal, List.map_append, List.sum_append]
  omega

theorem Found.fits_append {state state' : ScanState} {locs locs' : List Location}
    (h : Found store d state locs state') (hfits : Fits store d state (locs ++ locs')) :
    Fits store d state' locs' := by
  obtain ⟨hcount, hvalue, htotal⟩ := hfits
  obtain ⟨hfiles, hbytes⟩ := h
  refine ⟨?_, fun q hq => hvalue q (List.mem_append_right _ hq), ?_⟩
  · rw [hfiles]
    simp only [List.length_append, List.length_map] at hcount ⊢
    omega
  · rw [hbytes]
    simp only [List.map_append, List.sum_append] at htotal
    omega

/-- The outcome of a part after another, for disjoint responsibilities. -/
theorem ScanOutcome.after {S T U : Location → Prop} {state state' : ScanState}
    {locs : List Location} (hnodup : locs.Nodup) (hmem : ∀ q, q ∈ locs ↔ S q)
    (hfound : Found store d state locs state') (hdisjoint : ∀ q, S q → ¬ T q)
    (hunion : ∀ q, U q ↔ S q ∨ T q) {r : Except StoreFailure ScanState}
    (h : ScanOutcome store d T state' r) : ScanOutcome store d U state r := by
  have happend : ∀ {locs' : List Location}, locs'.Nodup → (∀ q ∈ locs', T q) →
      (locs ++ locs').Nodup := by
    intro locs' hnodup' hmem'
    rw [List.nodup_append]
    refine ⟨hnodup, hnodup', fun q hq q' hq' heq => ?_⟩
    exact hdisjoint q ((hmem q).mp hq) (heq ▸ hmem' q' hq')
  cases r with
  | ok state'' =>
      obtain ⟨locs', hnodup', hmem', hfound'⟩ := h
      refine ⟨locs ++ locs', happend hnodup' fun q hq => (hmem' q).mp hq, fun q => ?_,
        hfound.append hfound'⟩
      rw [List.mem_append, hmem, hmem', hunion]
  | error e =>
      refine h.imp_left ?_
      rintro ⟨hrefusal, locs', hnodup', hmem', hfits⟩
      refine ⟨hrefusal, locs ++ locs', happend hnodup' hmem', fun q hq => ?_,
        fun h => hfits (hfound.fits_append h)⟩
      rcases List.mem_append.mp hq with hq | hq
      · exact (hunion q).mpr (.inl ((hmem q).mp hq))
      · exact (hunion q).mpr (.inr (hmem' q hq))

theorem ScanOutcome.error {S T : Location → Prop} {state : ScanState}
    (hsub : ∀ q, S q → T q) {e : StoreFailure} (h : ScanOutcome store d S state (.error e)) :
    ScanOutcome store d T state (.error e) := by
  refine h.imp_left ?_
  rintro ⟨hrefusal, locs, hnodup, hmem, hfits⟩
  exact ⟨hrefusal, locs, hnodup, fun q hq => hsub q (hmem q hq), hfits⟩

/-! ## Which files are where -/

theorem isShown_of_mem {q : Location} (h : q ∈ shownLocations store.root d) :
    isShown q = true ∧ ∃ i, d.entryAt (store.root ++ q) = some (.file i) := by
  obtain ⟨content, hcontent⟩ := Option.isSome_iff_exists.mp (mem_shownLocations.mp h)
  simp only [shownContent, Option.ite_none_right_eq_some] at hcontent
  obtain ⟨i, hfile, -⟩ := Disk.exists_file_of_contentAt hcontent.2
  exact ⟨hcontent.1, i, hfile⟩

theorem mem_shownLocations_of_file {q : Location} {i : Nat} (hshown : isShown q = true)
    (hfile : d.entryAt (store.root ++ q) = some (.file i)) : q ∈ shownLocations store.root d := by
  rw [mem_shownLocations, shownContent, if_pos hshown, Disk.contentAt_file hfile]
  rfl

/-- Nothing is shown below a hidden name. -/
theorem not_under_hidden {relative q : Location} {name : FileName} (h : isHidden name = true) :
    ¬ Under store d (relative ++ [name]) q := by
  rintro ⟨hq, rest, rfl⟩
  have hname := (isShown_iff.mp (isShown_of_mem hq).1).2 name (by simp)
  simp [h] at hname

/-- At a file there is that file only. -/
theorem under_file {relative q : Location} {i : Nat} (hshown : isShown relative = true)
    (hfile : d.entryAt (store.root ++ relative) = some (.file i)) :
    q ∈ [relative] ↔ Under store d relative q := by
  rw [List.mem_singleton]
  constructor
  · rintro rfl
    exact ⟨mem_shownLocations_of_file hshown hfile, List.prefix_rfl⟩
  · rintro ⟨hq, rest, rfl⟩
    by_contra hne
    have hrest : rest ≠ [] := by rintro rfl; simp at hne
    obtain ⟨j, hj⟩ := (isShown_of_mem hq).2
    have hdir : d.entryAt (store.root ++ relative) = some .dir :=
      Disk.entryAt_append hrest (by simp [hj])
    simp [hfile] at hdir

/-- The files below a directory are those below its entries. -/
theorem under_dir {relative q : Location} (hdir : d.entryAt (store.root ++ relative) = some .dir) :
    Under store d relative q ↔
      ∃ name ∈ d.children (store.root ++ relative), Under store d (relative ++ [name]) q := by
  constructor
  · rintro ⟨hq, rest, rfl⟩
    obtain ⟨i, hi⟩ := (isShown_of_mem hq).2
    cases rest with
    | nil => simp [hdir] at hi
    | cons name rest =>
        refine ⟨name, Disk.mem_children.mpr ?_, hq, rest, by simp⟩
        by_cases hrest : rest = []
        · subst hrest
          simp [hi]
        · rw [List.append_assoc, Disk.entryAt_append hrest (by simp [hi])]
          simp
  · rintro ⟨name, -, hq, habove⟩
    exact ⟨hq, (List.prefix_append _ _).trans habove⟩

theorem under_disjoint {relative q : Location} {name name' : FileName}
    (h : Under store d (relative ++ [name]) q) (h' : Under store d (relative ++ [name']) q) :
    name = name' := by
  obtain ⟨-, rest, rfl⟩ := h
  obtain ⟨-, rest', hrest'⟩ := h'
  simp only [List.append_assoc, List.append_cancel_left_eq, List.cons_append, List.nil_append,
    List.cons.injEq] at hrest'
  exact hrest'.1.symm

/-! ## Paths on the way -/

/-- A location whose path is valid is not too deep. -/
theorem length_le_of_valid {relative : Location}
    (h : IsWorkspacePath store.platform (pathOf relative)) : relative.length ≤ MAX_PATH_DEPTH := by
  have hdepth := h.segments.1
  have hlength := JSString.length_le_length_split_join (unit '/') (relative.map FileName.text)
  rw [List.length_map] at hlength
  exact hlength.trans hdepth

/-- The prefix a directory is visited with: empty at the root, and valid below it. -/
def IsVisitPath (store : WorkspaceStore) (relative : Location) : Prop :=
  relative = [] ∨ IsWorkspacePath store.platform (pathOf relative)

theorem childPathOf_pathOf {relative : Location} (h : IsVisitPath store relative)
    (name : FileName) : childPathOf (pathOf relative) name.text = pathOf (relative ++ [name]) := by
  rcases h with rfl | hvalid
  · rfl
  · have hne : pathOf relative ≠ [] := by
      intro heq
      have hshape := (isWorkspacePath_iff.mp hvalid).1
      simp [heq] at hshape
    have hnames : relative.map FileName.text ≠ [] := by
      intro heq
      rw [pathOf, heq] at hne
      exact hne rfl
    rw [childPathOf, if_neg hne, pathOf, pathOf, List.map_append, List.map_singleton,
      JSString.join_append hnames (by simp)]
    rfl

/-! ## The parts of the scan -/

theorem parsePath_cases (store : WorkspaceStore) (path : JSString) :
    (IsWorkspacePath store.platform path ∧
      ∃ normalized : WorkspacePath store.platform, normalized.text = path ∧
        store.parsePath path = .ok normalized) ∨
    (¬ IsWorkspacePath store.platform path ∧ ∃ w : WorkspaceError, w.status = 400 ∧
      store.parsePath path = .error (.workspace w)) := by
  unfold WorkspaceStore.parsePath WorkspacePath.parse
  rcases validateWorkspacePath_cases store.platform path with hvalid | ⟨message, herror⟩
  · refine .inl ⟨hvalid, ?_⟩
    split
    · next normalized h =>
        have hsame := h.symm.trans hvalid
        exact ⟨_, Except.ok.inj hsame, rfl⟩
    · next e h =>
        rw [hvalid] at h
        exact absurd h (by simp)
  · refine .inr ⟨by rw [IsWorkspacePath, herror]; simp, ?_⟩
    split
    · next normalized h =>
        rw [herror] at h
        exact absurd h (by simp)
    · next e h =>
        refine ⟨e, ?_, rfl⟩
        rw [herror, Except.error.injEq] at h
        rw [← h]
        rfl

/-- One more file does not fit when one of the three checks on it fails. -/
theorem not_fits_singleton {state : ScanState} {q : Location}
    (h : store.limits.maxEntries ≤ state.files.length ∨
      store.limits.maxFileBytes < (store.describe d q).size ∨
      store.limits.maxWorkspaceBytes < state.totalBytes + (store.describe d q).size) :
    ¬ Fits store d state [q] := by
  rintro ⟨hcount, hvalue, htotal⟩
  have hsize := hvalue q (by simp)
  simp only [List.length_singleton, List.map_singleton, List.sum_singleton] at hcount htotal
  omega

/-- Reading the content of an entry of the scan. -/
theorem wp_readEntry {p : Location} {i : Nat} (hinside : Inside store.root d p)
    (hfile : d.entryAt p = some (.file i)) (path : JSString) :
    (Prog.ensuring (do
        let openedInfo ← fs (.fstat (.file i))
        WorkspaceStore.assertRegularFile openedInfo path
        let content ← fs (.readFile (.file i))
        pure (openedInfo, content)) (fs (.close (.file i)))).wp (StoreOp.Exec faulty)
      (store.Allowed faulty)
      (Reads faulty d fun r => r = .ok (FsOp.statOf d (.file i), (d.inodes i).content)) d := by
  have hopen : OpenInside store.root d (.file i) := ⟨i, p, rfl, hinside, hfile⟩
  refine Reads.ensuring ?_ (wp_close hopen)
  refine Reads.seq (wp_fstat hopen) ?_ (by simp)
  intro info hinfo
  obtain rfl : info = FsOp.statOf d (.file i) := by simpa using hinfo
  refine wp_refuseIf_bind (fun h => absurd rfl h) fun _ => ?_
  refine Reads.seq (wp_readFile hopen) ?_ (by simp)
  intro content hcontent
  obtain rfl : content = (d.inodes i).content := by simpa using hcontent
  exact Reads.pure rfl

/-- One entry of a directory. -/
theorem wp_visitEntry {relative : Location} {name : FileName} {state : ScanState}
    {visit : Location → JSString → ScanState → StoreProg ScanState}
    (hpath : IsVisitPath store relative)
    (hshown : ∀ name ∈ relative, isHidden name = false)
    (hdir : d.entryAt (store.root ++ relative) = some .dir)
    (hname : name ∈ d.children (store.root ++ relative))
    (hvisit : IsWorkspacePath store.platform (pathOf (relative ++ [name])) →
      (∀ n ∈ relative ++ [name], isHidden n = false) →
      d.entryAt (store.root ++ (relative ++ [name])) = some .dir →
      (visit (store.root ++ (relative ++ [name])) (pathOf (relative ++ [name])) state).wp
        (StoreOp.Exec faulty) (store.Allowed faulty)
        (Reads faulty d (ScanOutcome store d (Under store d (relative ++ [name])) state)) d) :
    (store.visitEntry visit (store.root ++ relative) (pathOf relative) state name).wp
      (StoreOp.Exec faulty) (store.Allowed faulty)
      (Reads faulty d (ScanOutcome store d (Under store d (relative ++ [name])) state)) d := by
  unfold WorkspaceStore.visitEntry
  by_cases hhidden : isHidden name = true
  · rw [if_pos hhidden]
    exact Reads.pure ⟨[], List.nodup_nil, fun q => by simp [not_under_hidden hhidden],
      by simp [Found]⟩
  · rw [if_neg hhidden]
    have hnames : ∀ n ∈ relative ++ [name], isHidden n = false := by
      intro n hn
      rcases List.mem_append.mp hn with hn | hn
      · exact hshown n hn
      · rw [List.mem_singleton.mp hn]
        simpa using hhidden
    have hisShown : isShown (relative ++ [name]) = true := isShown_iff.mpr ⟨by simp, hnames⟩
    have hinside : Inside store.root d (store.root ++ relative ++ [name]) :=
      inside_child (not_mem_of_not_hidden hnames) hdir
    obtain ⟨e, hentry⟩ := Option.ne_none_iff_exists'.mp (Disk.mem_children.mp hname)
    have hentry' : d.entryAt (store.root ++ (relative ++ [name])) = some e := by
      rwa [← List.append_assoc]
    dsimp only
    rw [fileName_text, childPathOf_pathOf hpath]
    -- the validation of the path
    rw [Prog.wp_bind, Prog.wp_ofExcept]
    rcases parsePath_cases store (pathOf (relative ++ [name]))
      with ⟨hvalid, normalized, -, hparse⟩ | ⟨hinvalid, w, hstatus, hparse⟩
    swap
    · rw [hparse]
      exact ⟨rfl, .inr (.inr ⟨fun hclean => hinvalid (hclean _ hisShown e hentry').1,
        w, rfl, by omega⟩)⟩
    rw [hparse, Prog.afterBind_ok]
    -- what stands there
    refine Reads.seq (wp_lstat hinside) ?_ (by simp [hentry'])
    intro info hinfo
    obtain rfl : info = FsOp.statOf d e := by simpa [hentry'] using hinfo
    have hunclean : (¬ (e = .dir ∨ ∃ i, e = .file i)) → ¬ store.Clean d :=
      fun hkind hclean => hkind (hclean _ hisShown e hentry').2
    refine wp_refuseIf_bind (fun hkind => ?_) fun hkind => ?_
    · refine ⟨rfl, .inr (.inr ⟨hunclean ?_, _, rfl, by decide⟩)⟩
      rintro (rfl | ⟨i, rfl⟩) <;> simp [FsOp.statOf] at hkind
    cases e with
    | link target => exact absurd (.inl rfl) hkind
    | special => exact absurd (.inr (by simp [FsOp.statOf])) hkind
    | dir =>
        have hkind : (FsOp.statOf d (.dir : Entry FileName)).kind = .dir := rfl
        rw [if_pos hkind, List.append_assoc]
        exact hvisit hvalid hnames hentry'
    | file i =>
        rw [if_neg (by simp [FsOp.statOf])]
        have hdescribe : store.describe d (relative ++ [name])
            = store.metadataOf (pathOf (relative ++ [name])) (d.inodes i) := by
          rw [WorkspaceStore.describe, fileData_of_file hentry']
        have hsize : (store.describe d (relative ++ [name])).size = (d.inodes i).content.length := by
          rw [hdescribe]
          rfl
        have hunder : ∀ q, q ∈ [relative ++ [name]] ↔ Under store d (relative ++ [name]) q :=
          fun _ => under_file hisShown hentry'
        -- a failed check on this file
        have hrefuse : ∀ {w : WorkspaceError}, w.status = 413 →
            ¬ Fits store d state [relative ++ [name]] →
            ScanOutcome store d (Under store d (relative ++ [name])) state
              (.error (.workspace w)) := fun hw hfits =>
          .inl ⟨⟨_, rfl, hw⟩, [relative ++ [name]], by simp, fun q => (hunder q).mp, hfits⟩
        refine wp_refuseIf_bind (fun hcount => ?_) fun hcount => ?_
        · exact ⟨rfl, .inr (hrefuse rfl (not_fits_singleton (.inl hcount)))⟩
        refine Reads.seq (wp_openRead hinside hentry) ?_ (by simp)
        intro handle hhandle
        obtain rfl : handle = .file i := by simpa using hhandle
        refine Reads.seq (wp_readEntry hinside hentry _) ?_ (by simp)
        intro result hresult
        obtain rfl : result = (FsOp.statOf d (.file i), (d.inodes i).content) := by
          simpa using hresult
        refine wp_refuseIf_bind (fun hlarge => ?_) fun hlarge => ?_
        · exact ⟨rfl, .inr (hrefuse rfl (not_fits_singleton (.inr (.inl (hsize ▸ hlarge)))))⟩
        refine wp_refuseIf_bind (fun htotal => ?_) fun htotal => ?_
        · exact ⟨rfl, .inr (hrefuse rfl (not_fits_singleton (.inr (.inr (hsize ▸ htotal)))))⟩
        refine Reads.pure ⟨[relative ++ [name]], by simp, hunder, ?_, ?_⟩
        · simp only [List.map_singleton, hdescribe]
          rfl
        · simp only [List.map_singleton, List.sum_singleton, hsize]

/-- The entries of a directory, one after the other. -/
theorem wp_visitEntries (relative : Location) {names : List FileName} (hnodup : names.Nodup)
    (visit : FileName → ScanState → StoreProg ScanState)
    (hvisit : ∀ name ∈ names, ∀ state, (visit name state).wp (StoreOp.Exec faulty)
      (store.Allowed faulty)
      (Reads faulty d (ScanOutcome store d (Under store d (relative ++ [name])) state)) d)
    (state : ScanState) :
    (names.foldlM (fun state name => visit name state) state).wp (StoreOp.Exec faulty)
      (store.Allowed faulty)
      (Reads faulty d (ScanOutcome store d
        (fun q => ∃ name ∈ names, Under store d (relative ++ [name]) q) state)) d := by
  induction names generalizing state with
  | nil => exact Reads.pure ⟨[], List.nodup_nil, by simp, by simp [Found]⟩
  | cons name names ih =>
      obtain ⟨hfresh, hnodup⟩ := List.nodup_cons.mp hnodup
      rw [List.foldlM_cons]
      refine Reads.seq (hvisit name (by simp) state) ?_ ?_
      · rintro state' ⟨locs, hlocs, hmem, hfound⟩
        refine Reads.mono (ih hnodup (fun n hn => hvisit n (List.mem_cons_of_mem _ hn)) state')
          fun r hr => hr.after hlocs hmem hfound ?_ ?_
        · rintro q hq ⟨name', hname', hq'⟩
          exact hfresh (under_disjoint hq hq' ▸ hname')
        · intro q
          simp
      · exact fun e he => he.error fun q hq => ⟨name, by simp, hq⟩

/-- **A directory.**  The recursion never reaches its bound: the path of a directory below it has
more segments than a valid path may have. -/
theorem wp_visit (depth : Nat) {relative : Location} (hpath : IsVisitPath store relative)
    (hshown : ∀ name ∈ relative, isHidden name = false)
    (hdir : d.entryAt (store.root ++ relative) = some .dir)
    (hdepth : MAX_PATH_DEPTH < depth + relative.length) (state : ScanState) :
    (store.visit depth (store.root ++ relative) (pathOf relative) state).wp (StoreOp.Exec faulty)
      (store.Allowed faulty)
      (Reads faulty d (ScanOutcome store d (Under store d relative) state)) d := by
  induction depth generalizing relative state with
  | zero =>
      exfalso
      rcases hpath with rfl | hvalid
      · simp at hdepth
      · have := length_le_of_valid hvalid
        omega
  | succ depth ih =>
      rw [WorkspaceStore.visit]
      refine Reads.seq (wp_readdir (not_mem_of_not_hidden hshown) hdir) ?_ (by simp)
      intro entries hentries
      obtain rfl : entries = d.children (store.root ++ relative) := by simpa using hentries
      refine Reads.mono (wp_visitEntries relative (d.nodup_children _)
        (fun name state => store.visitEntry (store.visit depth) (store.root ++ relative)
          (pathOf relative) state name) ?_ state) ?_
      · intro name hname state
        refine wp_visitEntry hpath hshown hdir hname fun hvalid hnames hchild => ?_
        refine ih (.inr hvalid) hnames hchild ?_ state
        rw [List.length_append, List.length_singleton]
        omega
      · have hsame : (fun q => ∃ name ∈ d.children (store.root ++ relative),
            Under store d (relative ++ [name]) q) = Under store d relative :=
          funext fun q => propext (under_dir hdir).symm
        rw [hsame]
        exact fun r hr => hr

/-! ## The whole scan -/

/-- A complete listing: every shown file once, in some order. -/
def IsListing (store : WorkspaceStore) (d : Disk FileName) (files : List WorkspaceFileMetadata) :
    Prop :=
  files.Perm ((shownLocations store.root d).toList.map (store.describe d))

/-- What `scan` ends with. -/
def ListOutcome (store : WorkspaceStore) (d : Disk FileName) :
    Except StoreFailure (List WorkspaceFileMetadata) → Prop
  | .ok files => IsListing store d files
  | .error e =>
      (IsRefusal 413 (.error e : Except StoreFailure Unit) ∧ ¬ store.WithinLimits d) ∨
      (¬ store.Clean d ∧ ∃ w : WorkspaceError, e = .workspace w ∧ w.status ≠ 413)

/-- The size of a shown file. -/
theorem size_describe {q : Location} (h : q ∈ shownLocations store.root d) :
    (store.describe d q).size = SizedMap.sizeAt List.length (shownFiles store.root d) q := by
  obtain ⟨hshown, i, hfile⟩ := isShown_of_mem h
  rw [WorkspaceStore.describe, fileData_of_file hfile, SizedMap.sizeAt, lookup_shownFiles,
    shownContent, if_pos hshown, Disk.contentAt_file hfile]
  rfl

/-- The files of a workspace within its limits fit. -/
theorem fits_of_withinLimits (h : store.WithinLimits d) {locs : List Location}
    (hnodup : locs.Nodup) (hmem : ∀ q ∈ locs, q ∈ shownLocations store.root d) :
    Fits store d ⟨[], 0⟩ locs := by
  have hsub : locs.toFinset ⊆ (shownFiles store.root d).keys := by
    intro q hq
    simpa [shownFiles] using hmem q (List.mem_toFinset.mp hq)
  refine ⟨?_, fun q hq => ?_, ?_⟩
  · have hcard := (Finset.card_le_card hsub).trans h.count_le
    rw [List.toFinset_card_of_nodup hnodup] at hcard
    rw [List.length_nil, Nat.zero_add]
    exact hcard
  · obtain ⟨content, hcontent⟩ := Option.isSome_iff_exists.mp
      (mem_shownLocations.mp (hmem q hq))
    have hvalue := h.value_le q content (by rw [lookup_shownFiles, hcontent])
    rwa [size_describe (hmem q hq), SizedMap.sizeAt, lookup_shownFiles, hcontent, Option.elim]
  · have htotal := (Finset.sum_le_sum_of_subset
      (f := SizedMap.sizeAt List.length (shownFiles store.root d)) hsub).trans h.total_le
    rw [List.sum_toFinset _ hnodup] at htotal
    rw [Nat.zero_add, List.map_congr_left fun q hq => size_describe (hmem q hq)]
    exact htotal

/-- **The scan** of an arbitrary tree below a real directory. -/
theorem wp_scan (hroot : d.entryAt store.root = some .dir) :
    store.scan.wp (StoreOp.Exec faulty) (store.Allowed faulty)
      (Reads faulty d (ListOutcome store d)) d := by
  have hunder : ∀ q, Under store d [] q ↔ q ∈ shownLocations store.root d := by
    simp [Under]
  have hvisit : (store.visit (MAX_PATH_DEPTH + 1) (store.root ++ []) (pathOf []) ⟨[], 0⟩).wp
      (StoreOp.Exec faulty) (store.Allowed faulty)
      (Reads faulty d (ScanOutcome store d (Under store d []) ⟨[], 0⟩)) d :=
    wp_visit _ (.inl rfl) (by simp) (by simpa using hroot) (by simp) _
  rw [List.append_nil] at hvisit
  refine Reads.seq hvisit ?_ ?_
  · rintro state ⟨locs, hnodup, hmem, hfiles, -⟩
    refine Reads.pure ?_
    have hperm : locs.Perm (shownLocations store.root d).toList := by
      rw [List.perm_ext_iff_of_nodup hnodup (Finset.nodup_toList _)]
      intro q
      rw [hmem, hunder, Finset.mem_toList]
    refine (List.mergeSort_perm _ _).trans ?_
    rw [hfiles, List.nil_append]
    exact hperm.map _
  · intro e he
    refine he.imp_left ?_
    rintro ⟨hrefusal, locs, hnodup, hmem, hfits⟩
    exact ⟨hrefusal, fun h => hfits (fits_of_withinLimits h hnodup fun q hq =>
      (hunder q).mp (hmem q hq))⟩

/-- The number of listed files. -/
theorem IsListing.length {files : List WorkspaceFileMetadata} (h : IsListing store d files) :
    files.length = (shownFiles store.root d).keys.card := by
  rw [h.length_eq, List.length_map, Finset.length_toList]
  simp [shownFiles]

/-- The total size of the listed files. -/
theorem IsListing.total {files : List WorkspaceFileMetadata} (h : IsListing store d files) :
    (files.map (·.size)).sum = SizedMap.total List.length (shownFiles store.root d) := by
  have hkeys : (shownFiles store.root d).keys = shownLocations store.root d := by
    simp [shownFiles]
  rw [(h.map _).sum_eq, List.map_map, SizedMap.total, hkeys, ← Finset.sum_map_toList]
  refine congrArg List.sum (List.map_congr_left fun q hq => ?_)
  exact size_describe (Finset.mem_toList.mp hq)

end Typr
