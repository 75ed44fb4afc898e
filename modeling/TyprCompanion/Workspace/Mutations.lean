import TyprCompanion.Workspace.FileMap

/-!
# The critical sections

What `write` and `delete` do while they hold the lock: every operation is allowed on an arbitrary
disk, and on a workspace in good order the outcome and the effect are those of the map.

* `Existing` — what `readIfExists` tells about the map.
* `PublishedTo` — the disk after a successful write.
* **`Mutation.wp_body`** — both results, for both calls.
-/

namespace Typr

open Core

variable {store : WorkspaceStore} {faulty : Bool} {d : Disk FileName}

/-- The outcome and the effect of a call are those of its operation on the map. -/
def Refines (faulty : Bool) (d : Disk FileName) (call : Mutation store)
    (r : Except StoreFailure (Option WorkspaceFileMetadata)) (t : Disk FileName) : Prop :=
  faulty = false → store.Good d →
    store.Good t ∧ call.spec (store.fileMap d) = (Mutation.outcome r, store.fileMap t)

theorem Refines.of_faulty {call : Mutation store}
    {r : Except StoreFailure (Option WorkspaceFileMetadata)} {t : Disk FileName}
    (h : faulty = true) : Refines faulty d call r t :=
  fun hhealthy => absurd (h.symm.trans hhealthy) (by simp)

/-- A refused call leaves the map alone. -/
theorem Refines.of_refusal {call : Mutation store} {e : WorkspaceError}
    (h : store.Good d → call.spec (store.fileMap d) = (.refused e.status, store.fileMap d)) :
    Refines faulty d call (.error (.workspace e)) d :=
  fun _ hgood => ⟨hgood, h hgood⟩

/-! ## The file that is there -/

/-- What `readIfExists` returned, in terms of the map. -/
structure Existing (store : WorkspaceStore) (d : Disk FileName) (relative : Location)
    (existing : Option (WorkspaceFileResponse × Nat)) : Prop where
  etag : existing.map (·.1.etag)
    = ((store.fileMap d).files.lookup relative).map store.createEtag
  absent : existing.isNone = true ↔ relative ∉ (store.fileMap d).files
  size : (existing.map (·.1.size)).getD 0
    = SizedMap.sizeAt List.length (store.fileMap d).files relative
  notBlocked : ¬ Blocked d store.root relative
  entry : existing.isSome = true → ∃ i, d.entryAt (store.root ++ relative) = some (.file i)
  notDir : d.entryAt (store.root ++ relative) ≠ some .dir

theorem existing_of_outcome {path : WorkspacePath store.platform}
    {existing : Option (WorkspaceFileResponse × Nat)}
    (h : ReadIfExistsOutcome store d path.text (.ok existing)) :
    Existing store d (relativeLocation path.text) existing := by
  have hshown : isShown (relativeLocation path.text) = true :=
    isShown_iff.mpr ⟨relativeLocation_ne_nil _, path.valid.not_hidden⟩
  rcases h with ⟨i, hfile, hfits⟩ | ⟨⟨hnone, hblocked⟩, hr⟩ | ⟨-, _, h, -⟩
  · by_cases hlarge : store.limits.maxFileBytes < (d.inodes i).content.length
    · obtain ⟨_, h, -⟩ := (fitsOr413_large hlarge).mp hfits
      exact absurd h (by simp)
    · have hresponse := (fitsOr413_small hlarge).mp hfits
      obtain rfl := Except.ok.inj hresponse
      have hlookup : (store.fileMap d).files.lookup (relativeLocation path.text)
          = some (d.inodes i).content := lookup_of_file hshown hfile
      exact {
        etag := by rw [hlookup]; rfl
        absent := iff_of_false (by simp)
          fun hmem => hmem (Finmap.mem_of_lookup_eq_some hlookup)
        size := by rw [SizedMap.sizeAt, hlookup]; rfl
        notBlocked := not_blocked_of_file hfile
        entry := fun _ => ⟨i, hfile⟩
        notDir := by simp [hfile] }
  · obtain rfl := Except.ok.inj hr
    have hlookup : (store.fileMap d).files.lookup (relativeLocation path.text) = none :=
      lookup_of_not_file fun i hi => by simp [hnone] at hi
    exact {
      etag := by rw [hlookup]; rfl
      absent := iff_of_true rfl (Finmap.lookup_eq_none.mp hlookup)
      size := by rw [SizedMap.sizeAt, hlookup]; rfl
      notBlocked := hblocked
      entry := by simp
      notDir := by simp [hnone] }
  · exact absurd h (by simp)

/-- An error of `readIfExists` is a conflict. -/
theorem refines_of_readError {path : WorkspacePath store.platform} {call : Mutation store}
    (hcall : (store.fileMap d).Conflict (relativeLocation path.text) →
      call.spec (store.fileMap d) = (.refused 409, store.fileMap d))
    {e : StoreFailure} (h : ReadIfExistsOutcome store d path.text (.error e)) :
    Refines faulty d call (.error e) d := by
  rcases h with ⟨i, hfile, hfits⟩ | ⟨-, hr⟩ | ⟨hblocked, w, hw, hstatus⟩
  · by_cases hlarge : store.limits.maxFileBytes < (d.inodes i).content.length
    · intro _ hgood
      have hshown : isShown (relativeLocation path.text) = true :=
        isShown_iff.mpr ⟨relativeLocation_ne_nil _, path.valid.not_hidden⟩
      have hvalue := hgood.within.value_le _ _ (lookup_of_file hshown hfile)
      exact absurd hlarge (Nat.not_lt.mpr hvalue)
    · exact absurd ((fitsOr413_small hlarge).mp hfits) (by simp)
  · exact absurd hr (by simp)
  · obtain rfl : e = .workspace w := by simpa using hw
    refine .of_refusal fun hgood => ?_
    rw [hcall ((hgood.blocked_iff (relativeLocation_ne_nil _)).mp hblocked), hstatus]

theorem wp_checkPrecondition_bind {precondition : WorkspaceWritePrecondition} {relative : Location}
    {existing : Option (WorkspaceFileResponse × Nat)} (h : Existing store d relative existing)
    {β : Type} {f : Unit → StoreProg β} {post : Except StoreFailure β → Disk FileName → Prop}
    (hrefuse : ∀ w : WorkspaceError, w.status = 412 → ¬ precondition.Holds
      (((store.fileMap d).files.lookup relative).map store.createEtag) →
      post (.error (.workspace w)) d)
    (hok : precondition.Holds
      (((store.fileMap d).files.lookup relative).map store.createEtag) →
      (f ()).wp (StoreOp.Exec faulty) (store.Allowed faulty) post d) :
    (WorkspaceStore.checkPrecondition precondition existing >>= f).wp (StoreOp.Exec faulty)
      (store.Allowed faulty) post d := by
  rw [← h.etag] at hrefuse hok
  cases precondition with
  | create =>
      refine wp_refuseIf_bind (fun hsome => hrefuse _ rfl ?_) fun hnone => hok ?_
      · cases existing with
        | none => simp at hsome
        | some entry => simp [WorkspaceWritePrecondition.Holds]
      · cases existing with
        | none => rfl
        | some entry => simp at hnone
  | update etag =>
      exact wp_refuseIf_bind (fun hne => hrefuse _ rfl hne) fun heq => hok (not_not.mp heq)

/-! ## The temporary file -/

/-- The name of a temporary file. -/
def temporaryName (uuid : UUID) : FileName := fileName (INTERNAL_WRITE_PREFIX ++ uuid.text)

theorem isHidden_temporaryName (uuid : UUID) : isHidden (temporaryName uuid) = true := by
  have habove : JSString.startsWith (INTERNAL_WRITE_PREFIX ++ uuid.text) INTERNAL_WRITE_PREFIX
      = true := List.isPrefixOf_iff_prefix.mpr (List.prefix_append _ _)
  rw [isHidden, temporaryName, text_fileName,
    ← JSString.startsWith_sameAscii (JSString.isAscii_of_all (by decide))
      (JSString.sameAscii_toWellFormed _), habove, Bool.or_true]

theorem temporaryName_ne_gitName (uuid : UUID) : temporaryName uuid ≠ gitName := by
  intro heq
  have hname := JSString.eq_of_encodeUtf8_ascii (t := js ".git")
    (JSString.isAscii_of_all (by decide))
    (congrArg Subtype.val heq)
  have hlength := congrArg List.length hname
  rw [List.length_append] at hlength
  have habove : INTERNAL_WRITE_PREFIX.length = 22 := by decide
  have hgit : (js ".git").length = 4 := by decide
  omega

/-! ## A published write -/

/-- The disk `t` after a write: directories were made in `u`, and the file was replaced. -/
structure PublishedTo (d u t : Disk FileName) (root dirs : Location) (name : FileName)
    (uuid : UUID) (content : Bytes) (mode : Nat) : Prop where
  grown : Grown d u root dirs
  parent : u.entryAt (root ++ dirs) = some .dir
  replaced : Replaced u t (root ++ dirs ++ [temporaryName uuid]) (root ++ (dirs ++ [name]))
    content mode

section Published

variable {u t : Disk FileName} {dirs : Location} {name : FileName} {uuid : UUID} {content : Bytes}
  {mode : Nat}

theorem isHiddenBelow_temporary (root dirs : Location) (uuid : UUID) :
    IsHiddenBelow root (root ++ dirs ++ [temporaryName uuid]) :=
  ⟨dirs ++ [temporaryName uuid], by simp, temporaryName uuid, by simp, isHidden_temporaryName uuid⟩

/-- New directories are not shown. -/
theorem Grown.contentAt {current names : Location} (h : Grown d u current names) (q : Location) :
    u.contentAt q = d.contentAt q := by
  rcases h.entry q with heq | ⟨hnone, hdir, -⟩
  · exact Disk.contentAt_congr heq fun i _ => congrFun h.inodes i
  · simp [Disk.contentAt, hnone, hdir]

theorem Grown.shownFiles {root current names : Location} (h : Grown d u current names) :
    shownFiles root u = shownFiles root d := shownFiles_congr fun _ _ => h.contentAt _

variable (h : PublishedTo d u t store.root dirs name uuid content mode)
include h

theorem PublishedTo.entry_destination :
    t.entryAt (store.root ++ (dirs ++ [name])) = some (.file u.nextInode) := by
  rw [h.replaced.entry, if_pos rfl]

/-- A shown location other than the destination. -/
theorem PublishedTo.entry_of_ne {q : Location} (hne : q ≠ dirs ++ [name])
    (htemporary : store.root ++ q ≠ store.root ++ dirs ++ [temporaryName uuid]) :
    t.entryAt (store.root ++ q) = u.entryAt (store.root ++ q) := by
  rw [h.replaced.entry, if_neg (fun heq => hne (List.append_cancel_left heq)), if_neg htemporary]

/-- **The shown files after a write.** -/
theorem PublishedTo.shownFiles (hshown : isShown (dirs ++ [name]) = true) :
    shownFiles store.root t = (shownFiles store.root d).insert (dirs ++ [name]) content := by
  refine shownFiles_insert hshown ?_ fun other hother hne => ?_
  · rw [Disk.contentAt_file h.entry_destination, h.replaced.content_eq]
  · rw [← h.grown.contentAt]
    refine Disk.contentAt_congr (h.entry_of_ne hne ?_) fun i hi =>
      h.replaced.inodes i (Disk.fresh_entryAt hi)
    exact (isHiddenBelow_temporary store.root dirs uuid).ne_shown hother

/-- **The directories after a write.** -/
theorem PublishedTo.dirs_eq (hnotDir : d.entryAt (store.root ++ (dirs ++ [name])) ≠ some .dir) :
    (store.fileMap t).dirs = (store.fileMap d).dirs ∪ properPrefixes (dirs ++ [name]) := by
  -- a proper prefix of the path leads to one of the directories
  have hproper : ∀ q, q <+: dirs ++ [name] → q ≠ dirs ++ [name] → q <+: dirs := fun q hq hne =>
    (List.prefix_concat_iff.mp hq).resolve_left hne
  ext q
  simp only [WorkspaceStore.fileMap, properPrefixes, Set.mem_union, Set.mem_ofPred_eq]
  constructor
  · rintro ⟨hq, hdir⟩
    have hne : q ≠ dirs ++ [name] := by
      rintro rfl
      simp [h.entry_destination] at hdir
    have htemporary : store.root ++ q ≠ store.root ++ dirs ++ [temporaryName uuid] := by
      intro heq
      rw [h.replaced.entry, if_neg (fun heq => hne (List.append_cancel_left heq)), if_pos heq]
        at hdir
      exact absurd hdir (by simp)
    rw [h.entry_of_ne hne htemporary] at hdir
    rcases h.grown.entry (store.root ++ q) with heq | ⟨-, -, before, hbefore, habove, heq⟩
    · exact .inl ⟨hq, heq ▸ hdir⟩
    · obtain rfl := List.append_cancel_left heq
      exact .inr ⟨hq, habove.trans (List.prefix_append _ _), hne⟩
  · have hmade : ∀ {q}, q ≠ [] → u.entryAt (store.root ++ q) = some .dir →
        q ≠ dirs ++ [name] → q ≠ [] ∧ t.entryAt (store.root ++ q) = some .dir := by
      intro q hq hdir hne
      refine ⟨hq, ?_⟩
      rw [h.entry_of_ne hne, hdir]
      intro heq
      rw [heq, h.replaced.free] at hdir
      exact absurd hdir (by simp)
    rintro (⟨hq, hdir⟩ | ⟨hq, habove, hne⟩)
    · exact hmade hq (h.grown.entry_of_some hdir) (by rintro rfl; exact hnotDir hdir)
    · refine hmade hq ?_ hne
      obtain ⟨rest, rfl⟩ := hproper q habove hne
      by_cases hrest : rest = []
      · have hparent := h.parent
        rwa [hrest, List.append_nil] at hparent
      · exact Disk.entryAt_append hrest (by rw [List.append_assoc, h.parent]; simp)

theorem PublishedTo.root (hroot : d.entryAt store.root = some .dir) :
    t.entryAt store.root = some .dir := by
  have hentry := h.entry_of_ne (q := []) (by simp) (by simp)
  rw [List.append_nil] at hentry
  rw [hentry]
  exact h.grown.entry_of_some hroot

/-- **A write keeps the workspace in good order.** -/
theorem PublishedTo.good (hgood : store.Good d) {path : JSString}
    (hvalid : IsWorkspacePath store.platform path)
    (hpath : relativeLocation path = dirs ++ [name])
    (hwithin : store.WithinLimits t) : store.Good t where
  root := h.root hgood.root
  within := hwithin
  clean := by
    intro q hq e hentry
    by_cases hne : q = dirs ++ [name]
    · subst hne
      rw [h.entry_destination, Option.some.injEq] at hentry
      exact ⟨⟨path, hvalid, hpath⟩, .inr ⟨_, hentry.symm⟩⟩
    · have htemporary : store.root ++ q ≠ store.root ++ dirs ++ [temporaryName uuid] := by
        intro heq
        rw [h.replaced.entry, if_neg (fun heq => hne (List.append_cancel_left heq)), if_pos heq]
          at hentry
        exact absurd hentry (by simp)
      rw [h.entry_of_ne hne htemporary] at hentry
      rcases h.grown.entry (store.root ++ q) with heq | ⟨-, hdir, before, hbefore, habove, heq⟩
      · exact hgood.clean q hq e (heq ▸ hentry)
      · obtain rfl := List.append_cancel_left heq
        rw [hdir, Option.some.injEq] at hentry
        refine ⟨exists_path_above hvalid hbefore ?_, .inl hentry.symm⟩
        rw [hpath]
        exact habove.trans (List.prefix_append _ _)

end Published

/-! ## The write -/

section Checks

variable {relative : Location} {existing : Option (WorkspaceFileResponse × Nat)}
  {files : List WorkspaceFileMetadata}

/-- The check on the number of files, in terms of the map. -/
theorem noRoom_iff (hexisting : Existing store d relative existing)
    (hlisting : IsListing store d files) :
    (existing.isNone = true ∧ store.limits.maxEntries ≤ files.length) ↔
      (relative ∉ (store.fileMap d).files ∧
        store.limits.bounds.count ≤ (store.fileMap d).files.keys.card) := by
  rw [hexisting.absent, hlisting.length]
  exact Iff.rfl

/-- The check on the total size, in terms of the map. -/
theorem noSpace_iff (hexisting : Existing store d relative existing)
    (hlisting : IsListing store d files) (content : Bytes) :
    ((store.limits.maxWorkspaceBytes : Int) < ((files.map (·.size)).sum : Nat)
        - ((existing.map (·.1.size)).getD 0 : Nat) + content.length) ↔
      store.limits.bounds.total + SizedMap.sizeAt List.length (store.fileMap d).files relative
        < SizedMap.total List.length (store.fileMap d).files + content.length := by
  rw [hexisting.size, hlisting.total]
  have hmap : (store.fileMap d).files = shownFiles store.root d := rfl
  have hbound : store.limits.bounds.total = store.limits.maxWorkspaceBytes := rfl
  rw [hmap, hbound]
  omega

end Checks

/-- The checks before a write make room for it. -/
theorem holds_insert {m : FileMap} {limits : Bounds} {path : Location} {content : Bytes}
    (hfits : content.length ≤ limits.value)
    (hcount : ¬ (path ∉ m.files ∧ limits.count ≤ m.files.keys.card))
    (htotal : ¬ (limits.total + SizedMap.sizeAt List.length m.files path
      < SizedMap.total List.length m.files + content.length))
    (h : limits.Holds List.length m.files) :
    limits.Holds List.length (m.files.insert path content) := by
  refine Bounds.Holds.insert h hfits (fun habsent => ?_) (by omega)
  exact Nat.lt_of_not_le fun hle => hcount ⟨habsent, hle⟩

/-- What the write of the map does after its checks. -/
theorem write_spec_of_checks {m : FileMap} {limits : Bounds} {etag : Bytes → JSString}
    {path : Location} {content : Bytes} {precondition : WorkspaceWritePrecondition}
    (hconflict : ¬ m.Conflict path)
    (hholds : precondition.Holds ((m.files.lookup path).map etag))
    (hcount : ¬ (path ∉ m.files ∧ limits.count ≤ m.files.keys.card))
    (htotal : ¬ (limits.total + SizedMap.sizeAt List.length m.files path
      < SizedMap.total List.length m.files + content.length)) :
    m.write limits etag path content precondition
      = (.written (etag content), ⟨m.files.insert path content, m.dirs ∪ properPrefixes path⟩) := by
  rw [FileMap.write, if_neg hconflict, if_neg (not_not.mpr hholds), if_neg hcount, if_neg htotal]

/-- The directories on the way and the name of a path. -/
theorem relativeLocation_eq_concat (path : JSString) :
    relativeLocation path = (JSString.split (unit '/') path).dropLast.map fileName ++
      [fileName ((JSString.split (unit '/') path).getLastD [])] := by
  have hne := JSString.split_ne_nil (unit '/') path
  have hlast : (JSString.split (unit '/') path).getLastD []
      = (JSString.split (unit '/') path).getLast hne := by
    rw [List.getLastD_eq_getLast?, List.getLast?_eq_getLast_of_ne_nil hne, Option.getD_some]
  rw [hlast, ← List.map_singleton, ← List.map_append, List.dropLast_append_getLast, relativeLocation]

/-- A published write, or a failure for which the environment or a leftover temporary file is to
blame. -/
def PublishOutcome (store : WorkspaceStore) (faulty : Bool) (d : Disk FileName) (path : JSString)
    (content : Bytes) (r : Except StoreFailure WorkspaceFileMetadata) (t : Disk FileName) : Prop :=
  match r with
  | .ok metadata => metadata.etag = store.createEtag content ∧ ∃ u dirs name uuid mode,
      relativeLocation path = dirs ++ [name] ∧
        PublishedTo d u t store.root dirs name uuid content mode
  | .error _ => faulty = true ∨ ∃ q, IsHiddenBelow store.root q ∧ d.entryAt q ≠ none

theorem wp_publish {path : WorkspacePath store.platform}
    {existing : Option (WorkspaceFileResponse × Nat)} {content : Bytes} {mode : Nat}
    (hroot : d.entryAt store.root = some .dir)
    (hexisting : Existing store d (relativeLocation path.text) existing)
    (hfits : content.length ≤ store.limits.maxFileBytes)
    (hquota : store.WithinLimits d → store.limits.bounds.Holds List.length
      ((shownFiles store.root d).insert (relativeLocation path.text) content)) :
    (store.publish path content mode).wp (StoreOp.Exec faulty) (store.Allowed faulty)
      (PublishOutcome store faulty d path.text content) d := by
  have hnames := path.valid.not_hidden
  have hshown : isShown (relativeLocation path.text) = true :=
    isShown_iff.mpr ⟨relativeLocation_ne_nil _, hnames⟩
  have hgit := not_mem_of_not_hidden hnames
  have hpath := relativeLocation_eq_concat path.text
  rw [WorkspaceStore.publish, Prog.wp_bind, WorkspaceStore.resolveForWrite, Prog.wp_bind]
  generalize (JSString.split (unit '/') path.text).dropLast = dirSegments at hpath ⊢
  generalize fileName ((JSString.split (unit '/') path.text).getLastD []) = name at hpath ⊢
  have hgitDirs : gitName ∉ dirSegments.map fileName := fun hmem =>
    hgit (by rw [hpath]; exact List.mem_append_left _ hmem)
  have hparents := wp_makeParents store faulty [] dirSegments (by simpa using hgitDirs)
    (by simpa using hroot)
  rw [List.append_nil] at hparents
  generalize hdirs : dirSegments.map fileName = dirs at hpath hgitDirs hparents
  refine Prog.wp_post ?_ hparents
  rintro (e | parent) u hu
  · -- an entry on the way is a directory, or the path were blocked
    rcases hu with hfaulty | ⟨before, e', hbefore, ⟨rest, rfl⟩, hentry, hnotDir⟩
    · exact .inl hfaulty
    · exact absurd ⟨before, rest ++ [name], e', by rw [hpath, List.append_assoc], hbefore, hentry,
        fun _ => hnotDir, by simp⟩ hexisting.notBlocked
  obtain ⟨rfl, hparent, hgrown⟩ := hu
  show Prog.wp _ _ _ (randomUUID >>= _) u
  rw [Prog.wp_bind, wp_randomUUID]
  refine ⟨⟨trivial, fun _ _ hexec hlimits => hexec ▸ hlimits⟩, fun uuid => ?_⟩
  have hentry : u.entryAt (store.root ++ (dirs ++ [name]))
      = d.entryAt (store.root ++ (dirs ++ [name])) := by
    refine (hgrown.entry _).resolve_right ?_
    rintro ⟨-, -, before, -, habove, heq⟩
    obtain rfl := List.append_cancel_left heq
    have hlength := habove.length_le
    simp at hlength
  have hreplacement : Replacement store u (store.root ++ dirs ++ [temporaryName uuid])
      (dirs ++ [name]) content := {
    source := by
      refine inside_child (fun hmem => ?_) hparent
      rcases List.mem_append.mp hmem with hmem | hmem
      · exact hgitDirs hmem
      · exact temporaryName_ne_gitName uuid (List.mem_singleton.mp hmem).symm
    hidden := isHiddenBelow_temporary ..
    destination := by
      rw [← List.append_assoc]
      exact inside_child (hpath ▸ hgit) hparent
    shown := hpath ▸ hshown
    notDir := by
      rw [hentry, ← hpath]
      exact hexisting.notDir
    quota := by
      rw [hgrown.shownFiles, ← hpath]
      exact fun hlimits => hquota (hlimits.congr hgrown.shownFiles.symm) }
  rw [Prog.afterBind_ok, Prog.wp_bind]
  dsimp only
  rw [List.append_assoc store.root dirs [name]]
  refine Prog.wp_post ?_ (wp_replaceFile hreplacement)
  rintro (e | ⟨⟩) t ht
  · refine ht.imp_right fun htaken => ?_
    refine ⟨_, isHiddenBelow_temporary store.root dirs uuid, fun hnone => htaken ?_⟩
    rcases hgrown.entry (store.root ++ dirs ++ [temporaryName uuid])
      with heq | ⟨-, -, before, -, habove, heq⟩
    · exact heq.trans hnone
    · rw [List.append_assoc] at heq
      obtain rfl := List.append_cancel_left heq
      have hlength := habove.length_le
      simp at hlength
  · have hpublished : PublishedTo d u t store.root dirs name uuid content _ :=
      ⟨hgrown, hparent, ht⟩
    have hfile := hpublished.entry_destination
    rw [← hpath] at hfile
    have hcontent : (t.inodes u.nextInode).content = content := ht.content_eq
    have hsmall : ¬ store.limits.maxFileBytes < (t.inodes u.nextInode).content.length := by
      rw [hcontent]
      omega
    refine Reads.bind (wp_readValid path (hpublished.root hroot)) .inl ?_ ?_
    · rintro response (⟨i, hi, hresponse⟩ | ⟨-, _, h, -⟩ | ⟨-, _, h, -⟩)
      · obtain rfl : i = u.nextInode := by simpa [hfile] using hi.symm
        have hresponse := (fitsOr413_small hsmall).mp hresponse
        obtain rfl := Except.ok.inj hresponse
        refine ⟨?_, u, dirs, name, uuid, _, hpath, hpublished⟩
        rw [← hcontent]
        rfl
      · exact absurd h (by simp)
      · exact absurd h (by simp)
    · rintro e (⟨i, hi, hresponse⟩ | ⟨⟨hnone, -⟩, -⟩ | ⟨hblocked, -⟩)
      · obtain rfl : i = u.nextInode := by simpa [hfile] using hi.symm
        exact absurd ((fitsOr413_small hsmall).mp hresponse) (by simp)
      · simp [hfile] at hnone
      · exact absurd hblocked (not_blocked_of_file hfile)

/-- **`write` while it holds the lock.** -/
theorem wp_lockedWrite (path : WorkspacePath store.platform)
    (content : {bytes : Bytes // bytes.length ≤ store.limits.maxFileBytes})
    (precondition : WorkspaceWritePrecondition) (hroot : d.entryAt store.root = some .dir) :
    (store.lockedWrite path content.val precondition).wp (StoreOp.Exec faulty)
      (store.Allowed faulty)
      (fun r t => Refines faulty d (.write path content precondition) (r.map some) t) d := by
  have hne : relativeLocation path.text ≠ [] := relativeLocation_ne_nil _
  have hshown : isShown (relativeLocation path.text) = true :=
    isShown_iff.mpr ⟨hne, path.valid.not_hidden⟩
  refine Reads.bind (wp_readIfExists path hroot) Refines.of_faulty ?_ ?_
  swap
  · exact fun e he => refines_of_readError
      (fun hconflict => by rw [Mutation.spec, FileMap.write, if_pos hconflict]) he
  intro existing houtcome
  have hexisting := existing_of_outcome houtcome
  have hconflict := fun hgood : store.Good d =>
    (hgood.blocked_iff hne).not.mp hexisting.notBlocked
  refine wp_checkPrecondition_bind hexisting ?_ fun hholds => ?_
  · refine fun w hstatus hfails => .of_refusal fun hgood => ?_
    rw [Mutation.spec, FileMap.write, if_neg (hconflict hgood), if_pos hfails, hstatus]
  refine Reads.bind (wp_scan hroot) Refines.of_faulty ?_ ?_
  swap
  · rintro e (⟨-, hwithin⟩ | ⟨hclean, -⟩) _ hgood
    · exact absurd hgood.within hwithin
    · exact absurd hgood.toClean hclean
  intro files hlisting
  refine wp_refuseIf_bind (fun hcount => .of_refusal fun hgood => ?_) fun hcount => ?_
  · rw [noRoom_iff hexisting hlisting] at hcount
    rw [Mutation.spec, FileMap.write, if_neg (hconflict hgood), if_neg (not_not.mpr hholds),
      if_pos hcount]
  rw [noRoom_iff hexisting hlisting] at hcount
  refine wp_refuseIf_bind (fun htotal => .of_refusal fun hgood => ?_) fun htotal => ?_
  · rw [noSpace_iff hexisting hlisting] at htotal
    rw [Mutation.spec, FileMap.write, if_neg (hconflict hgood), if_neg (not_not.mpr hholds),
      if_neg hcount, if_pos htotal]
  rw [noSpace_iff hexisting hlisting] at htotal
  refine Prog.wp_post ?_ (wp_publish hroot hexisting content.property
    (holds_insert content.property hcount htotal))
  rintro (e | metadata) t ht hhealthy hgood
  · rcases ht with hfaulty | ⟨q, ⟨relative, rfl, name, hname, hhidden⟩, htaken⟩
    · exact absurd (hfaulty.symm.trans hhealthy) (by simp)
    · -- nothing hidden is there in a workspace in good order
      obtain ⟨e', he'⟩ := Option.ne_none_iff_exists'.mp htaken
      have hall := (isShown_iff.mp
        (hgood.shown (List.ne_nil_of_mem hname) he')).2 name hname
      simp [hhidden] at hall
  · obtain ⟨hetag, u, dirs, name, uuid, mode, hpath, hpublished⟩ := ht
    have hfiles := hpublished.shownFiles (hpath ▸ hshown)
    have hwithin : store.WithinLimits t := by
      unfold WorkspaceStore.WithinLimits
      rw [hfiles, ← hpath]
      exact holds_insert (m := store.fileMap d) content.property hcount htotal hgood.within
    refine ⟨hpublished.good hgood path.valid hpath hwithin, ?_⟩
    rw [Mutation.spec, write_spec_of_checks (hconflict hgood) hholds hcount htotal,
      show Mutation.outcome (Except.map some (Except.ok metadata))
        = .written metadata.etag from rfl, hetag]
    congr 1
    have hdirs := hpublished.dirs_eq (hpath ▸ hexisting.notDir)
    rw [← hpath] at hfiles hdirs
    exact FileMap.ext hfiles.symm hdirs.symm

/-! ## The deletion -/

/-- **A deletion** removes one file and keeps the workspace in good order. -/
theorem removed_good {relative : Location} {i : Nat} (hgood : store.Good d) (hne : relative ≠ [])
    (hfile : d.entryAt (store.root ++ relative) = some (.file i)) :
    store.Good (d.remove (store.root ++ relative)) ∧
      store.fileMap (d.remove (store.root ++ relative))
        = { store.fileMap d with files := (store.fileMap d).files.erase relative } := by
  have hnotDir : d.entryAt (store.root ++ relative) ≠ some .dir := by simp [hfile]
  have hentry := Disk.entryAt_remove hnotDir
  have hfiles : shownFiles store.root (d.remove (store.root ++ relative))
      = (shownFiles store.root d).erase relative := by
    have hcontent := Disk.contentAt_remove hnotDir
    refine shownFiles_erase (by rw [hcontent, if_pos rfl]) fun other _ hdiff => ?_
    rw [hcontent, if_neg fun heq => hdiff (List.append_cancel_left heq)]
  refine ⟨⟨?_, fun q hq e hq' => ?_, ?_⟩, FileMap.ext hfiles ?_⟩
  · rw [hentry, if_neg (by simpa using hne)]
    exact hgood.root
  · rw [hentry] at hq'
    split at hq'
    · exact absurd hq' (by simp)
    · exact hgood.clean q hq e hq'
  · unfold WorkspaceStore.WithinLimits
    rw [hfiles]
    exact Bounds.Holds.erase hgood.within relative
  · ext q
    simp only [WorkspaceStore.fileMap, Set.mem_ofPred_eq, hentry]
    by_cases hq : store.root ++ q = store.root ++ relative
    · rw [if_pos hq, hq]
      simp [hfile]
    · rw [if_neg hq]

/-- **`delete` while it holds the lock.** -/
theorem wp_lockedDelete (path : WorkspacePath store.platform) (expectedEtag : JSString)
    (hroot : d.entryAt store.root = some .dir) :
    (store.lockedDelete path expectedEtag).wp (StoreOp.Exec faulty) (store.Allowed faulty)
      (fun r t => Refines faulty d (.delete path expectedEtag) (r.map fun _ => none) t) d := by
  have hne : relativeLocation path.text ≠ [] := relativeLocation_ne_nil _
  refine Reads.bind (wp_readIfExists path hroot) Refines.of_faulty ?_ ?_
  swap
  · exact fun e he => refines_of_readError
      (fun hconflict => by rw [Mutation.spec, FileMap.delete, if_pos hconflict]) he
  intro existing houtcome
  have hexisting := existing_of_outcome houtcome
  have hconflict := fun hgood : store.Good d =>
    (hgood.blocked_iff hne).not.mp hexisting.notBlocked
  refine wp_refuseIf_bind (fun hdiffers => .of_refusal fun hgood => ?_) fun hsame => ?_
  · rw [hexisting.etag] at hdiffers
    rw [Mutation.spec, FileMap.delete, if_neg (hconflict hgood), if_pos hdiffers]
  rw [hexisting.etag] at hsame
  have hsome : existing.isSome = true := by
    cases existing with
    | none =>
        have hlookup := hexisting.etag
        rw [not_not.mp hsame] at hlookup
        simp at hlookup
    | some _ => rfl
  obtain ⟨i, hfile⟩ := hexisting.entry hsome
  refine Reads.bind (wp_resolveExistingFile path hroot) Refines.of_faulty ?_ ?_
  · rintro filePath (⟨_, -, hpath⟩ | ⟨-, _, h, -⟩ | ⟨-, _, h, -⟩)
    · obtain rfl : filePath = store.root ++ relativeLocation path.text := by simpa using hpath
      have hinside := inside_of_file path.valid hfile
      refine wp_fs.mpr ⟨allowed_unlink hinside hfile, fun reply t hexec => ?_⟩
      rcases hexec.unlink hinside.locate hfile with ⟨rfl, rfl⟩ | ⟨hfaulty, rfl, rfl⟩
      · intro _ hgood
        obtain ⟨hgood', hmap⟩ := removed_good hgood hne hfile
        refine ⟨hgood', ?_⟩
        rw [Mutation.spec, FileMap.delete, if_neg (hconflict hgood), if_neg hsame, hmap]
        rfl
      · exact Refines.of_faulty hfaulty
    · exact absurd h (by simp)
    · exact absurd h (by simp)
  · rintro e (⟨_, -, h⟩ | ⟨⟨hnone, -⟩, -⟩ | ⟨hblocked, -⟩)
    · exact absurd h (by simp)
    · simp [hfile] at hnone
    · exact absurd hblocked hexisting.notBlocked

/-- **A mutation while it holds the lock.** -/
theorem Mutation.wp_body (call : Mutation store) (hroot : d.entryAt store.root = some .dir) :
    call.body.wp (StoreOp.Exec faulty) (store.Allowed faulty)
      (fun r t => Refines faulty d call r t) d := by
  cases call with
  | write path content precondition =>
      rw [Mutation.body, Prog.wp_map]
      refine Prog.wp_post ?_ (wp_lockedWrite path content precondition hroot)
      rintro (e | metadata) t h
      · exact h
      · exact h
  | delete path expectedEtag =>
      rw [Mutation.body, Prog.wp_map]
      refine Prog.wp_post ?_ (wp_lockedDelete path expectedEtag hroot)
      rintro (e | ⟨⟩) t h
      · exact h
      · exact h

end Typr
