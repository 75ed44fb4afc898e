import TyprCompanion.Workspace.Writing

/-!
# The abstract workspace

What the store is for: a map from paths to contents with compare-and-swap updates and limits.  The
set of directories beside it only decides which paths conflict.

* `FileMap.write`, `FileMap.delete` — the operations of the map.
* `Mutation.spec`, `MutationOutcome` — the same, for the calls of the store.
* `lastContent`, **`sequential_lookup`** — after a sequence of calls a path holds what the last
  successful call about it left there.
* `Good`, `WorkspaceStore.fileMap` — the disks the map describes, and the map of a disk.
-/

namespace Typr

open Core

/-- The files with their contents, and the directories. -/
@[ext] structure FileMap where
  files : Finmap fun _ : Location => Bytes
  dirs : Set Location

/-- How a mutation ends. -/
inductive MutationOutcome where
  | written (etag : JSString)
  | deleted
  | refused (status : Nat)
  /-- An error that is no refusal. -/
  | failed
  deriving DecidableEq

/-- The directories on the way to a path. -/
def properPrefixes (path : Location) : Set Location :=
  {before | before ≠ [] ∧ before <+: path ∧ before ≠ path}

/-- When the current content, if any, meets a precondition: nothing to create, exactly the given
etag to update. -/
def WorkspaceWritePrecondition.Holds :
    WorkspaceWritePrecondition → (current : Option JSString) → Prop
  | create, current => current = none
  | update etag, current => current = some etag

namespace FileMap

/-- The path is a directory, or leads through a file. -/
def Conflict (m : FileMap) (path : Location) : Prop :=
  path ∈ m.dirs ∨ ∃ before ∈ m.files, before <+: path ∧ before ≠ path

open Classical in
/-- A conditional write. -/
noncomputable def write (limits : Bounds) (etag : Bytes → JSString) (path : Location)
    (content : Bytes) (precondition : WorkspaceWritePrecondition) (m : FileMap) :
    MutationOutcome × FileMap :=
  if m.Conflict path then (.refused 409, m)
  else if ¬ precondition.Holds ((m.files.lookup path).map etag) then (.refused 412, m)
  else if path ∉ m.files ∧ limits.count ≤ m.files.keys.card then (.refused 413, m)
  else if limits.total + SizedMap.sizeAt List.length m.files path
      < SizedMap.total List.length m.files + content.length then (.refused 413, m)
  else (.written (etag content), ⟨m.files.insert path content, m.dirs ∪ properPrefixes path⟩)

open Classical in
/-- A conditional deletion. -/
noncomputable def delete (etag : Bytes → JSString) (path : Location) (expected : JSString)
    (m : FileMap) : MutationOutcome × FileMap :=
  if m.Conflict path then (.refused 409, m)
  else if (m.files.lookup path).map etag ≠ some expected then (.refused 412, m)
  else (.deleted, { m with files := m.files.erase path })

end FileMap

namespace Mutation

variable {store : WorkspaceStore}

/-- The operation of the map a call of the store stands for. -/
noncomputable def spec : Mutation store → FileMap → MutationOutcome × FileMap
  | write path content precondition, m =>
      m.write store.limits.bounds store.createEtag (relativeLocation path.text) content.val
        precondition
  | delete path expectedEtag, m =>
      m.delete store.createEtag (relativeLocation path.text) expectedEtag

/-- The result of a call as an outcome. -/
def outcome : Except StoreFailure (Option WorkspaceFileMetadata) → MutationOutcome
  | .ok (some metadata) => .written metadata.etag
  | .ok none => .deleted
  | .error (.workspace e) => .refused e.status
  | .error _ => .failed

/-- What a call with this outcome leaves at `path`. -/
def contentAfter (path : Location) (current : Option Bytes) :
    Mutation store × MutationOutcome → Option Bytes
  | (write target content _, .written _) =>
      if relativeLocation target.text = path then some content.val else current
  | (delete target _, .deleted) =>
      if relativeLocation target.text = path then none else current
  | _ => current

end Mutation

/-- **The last successful call** about a path decides its content. -/
def lastContent {store : WorkspaceStore} (log : List (Mutation store × MutationOutcome))
    (path : Location) (initial : Option Bytes) : Option Bytes :=
  log.foldl (Mutation.contentAfter path) initial

/-- One call changes a path as its outcome tells. -/
theorem lookup_spec {store : WorkspaceStore} (call : Mutation store) (m : FileMap)
    (path : Location) :
    (call.spec m).2.files.lookup path
      = Mutation.contentAfter path (m.files.lookup path) (call, (call.spec m).1) := by
  cases call with
  | write target content precondition =>
      simp only [Mutation.spec, FileMap.write]
      split
      · rfl
      split
      · rfl
      split
      · rfl
      split
      · rfl
      · simp only [Mutation.contentAfter]
        by_cases h : relativeLocation target.text = path
        · subst h
          rw [if_pos rfl, Finmap.lookup_insert]
        · rw [if_neg h, Finmap.lookup_insert_of_ne _ (Ne.symm h)]
  | delete target expectedEtag =>
      simp only [Mutation.spec, FileMap.delete]
      split
      · rfl
      split
      · rfl
      · simp only [Mutation.contentAfter]
        by_cases h : relativeLocation target.text = path
        · subst h
          rw [if_pos rfl, Finmap.lookup_erase]
        · rw [if_neg h, Finmap.lookup_erase_ne (Ne.symm h)]

/-- **Executing calls one at a time** leaves at every path what the last successful call about it
put there. -/
theorem sequential_lookup {store : WorkspaceStore} (calls : List (Mutation store)) (m : FileMap)
    (path : Location) :
    (Mutex.sequential Mutation.spec m calls).2.files.lookup path
      = lastContent (calls.zip (Mutex.sequential Mutation.spec m calls).1) path
          (m.files.lookup path) := by
  induction calls generalizing m with
  | nil => rfl
  | cons call calls ih =>
      simp only [Mutex.sequential, List.zip_cons_cons, lastContent, List.foldl_cons]
      rw [ih, lookup_spec]
      rfl

/-! ## The disks the map describes -/

namespace WorkspaceStore

/-- **A workspace in good order**: below a real root only directories and regular files with valid
names, within the limits. -/
structure Good (store : WorkspaceStore) (d : Disk FileName) : Prop where
  root : d.entryAt store.root = some .dir
  clean : ∀ relative, relative ≠ [] → ∀ e, d.entryAt (store.root ++ relative) = some e →
    (∃ path, IsWorkspacePath store.platform path ∧ relativeLocation path = relative) ∧
      (e = .dir ∨ ∃ i, e = .file i)
  within : store.WithinLimits d

/-- The map of a disk. -/
def fileMap (store : WorkspaceStore) (d : Disk FileName) : FileMap where
  files := shownFiles store.root d
  dirs := {relative | relative ≠ [] ∧ d.entryAt (store.root ++ relative) = some .dir}

end WorkspaceStore

variable {store : WorkspaceStore} {d : Disk FileName} {relative : Location}

/-- Nothing is hidden in a workspace in good order. -/
theorem WorkspaceStore.Good.shown (h : store.Good d) (hne : relative ≠ [])
    {e : Entry FileName} (hentry : d.entryAt (store.root ++ relative) = some e) :
    isShown relative = true := by
  obtain ⟨⟨path, hvalid, rfl⟩, -⟩ := h.clean relative hne e hentry
  exact isShown_iff.mpr ⟨hne, hvalid.not_hidden⟩

theorem WorkspaceStore.Good.toClean (h : store.Good d) : store.Clean d := by
  intro relative hshown e hentry
  obtain ⟨⟨path, hvalid, rfl⟩, hkind⟩ :=
    h.clean relative (isShown_iff.mp hshown).1 e hentry
  refine ⟨?_, hkind⟩
  rw [pathOf_relativeLocation]
  exact validateWorkspacePath_toWellFormed hvalid

theorem lookup_of_file {i : Nat} (hshown : isShown relative = true)
    (hfile : d.entryAt (store.root ++ relative) = some (.file i)) :
    (store.fileMap d).files.lookup relative = some (d.inodes i).content := by
  rw [WorkspaceStore.fileMap, lookup_shownFiles, shownContent, if_pos hshown,
    Disk.contentAt_file hfile]

theorem lookup_of_not_file (h : ∀ i, d.entryAt (store.root ++ relative) ≠ some (.file i)) :
    (store.fileMap d).files.lookup relative = none := by
  rw [WorkspaceStore.fileMap, lookup_shownFiles, shownContent]
  split
  · cases hcontent : d.contentAt (store.root ++ relative) with
    | none => rfl
    | some content =>
        obtain ⟨i, hi, -⟩ := Disk.exists_file_of_contentAt hcontent
        exact absurd hi (h i)
  · rfl

theorem mem_files_iff : relative ∈ (store.fileMap d).files ↔
    isShown relative = true ∧ ∃ i, d.entryAt (store.root ++ relative) = some (.file i) := by
  constructor
  · intro h
    exact isShown_of_mem (by simpa [WorkspaceStore.fileMap, shownFiles] using Finmap.mem_keys.mpr h)
  · rintro ⟨hshown, i, hfile⟩
    exact Finmap.mem_of_lookup_eq_some (lookup_of_file hshown hfile)

/-- **A path is blocked on disk exactly when it conflicts in the map.** -/
theorem WorkspaceStore.Good.blocked_iff (h : store.Good d) (hne : relative ≠ []) :
    Blocked d store.root relative ↔ (store.fileMap d).Conflict relative := by
  constructor
  · rintro ⟨before, after, e, rfl, hbefore, hentry, hnotDir, hnotFile⟩
    have hkind := (h.clean before hbefore e hentry).2
    by_cases hafter : after = []
    · subst hafter
      refine .inl ⟨by simpa using hbefore, ?_⟩
      obtain rfl := hkind.resolve_right fun ⟨i, hi⟩ => hnotFile rfl i hi
      rwa [List.append_nil]
    · obtain ⟨i, rfl⟩ := hkind.resolve_left (hnotDir hafter)
      exact .inr ⟨before, mem_files_iff.mpr ⟨h.shown hbefore hentry, i, hentry⟩,
        List.prefix_append _ _, by simpa using hafter⟩
  · rintro (⟨-, hdir⟩ | ⟨before, hmem, ⟨after, rfl⟩, hproper⟩)
    · exact ⟨relative, [], .dir, by simp, hne, hdir, by simp, by simp⟩
    · obtain ⟨hshown, i, hfile⟩ := mem_files_iff.mp hmem
      exact ⟨before, after, .file i, rfl, (isShown_iff.mp hshown).1, hfile, by simp,
        fun hafter => absurd (by simp [hafter]) hproper⟩

/-- A file on disk is no conflict. -/
theorem not_blocked_of_file {i : Nat}
    (hfile : d.entryAt (store.root ++ relative) = some (.file i)) :
    ¬ Blocked d store.root relative := by
  rintro ⟨before, after, e, rfl, -, hentry, hnotDir, hnotFile⟩
  by_cases hafter : after = []
  · subst hafter
    rw [List.append_nil, hentry, Option.some.injEq] at hfile
    exact hnotFile rfl i hfile
  · rw [← List.append_assoc] at hfile
    rw [Disk.entryAt_append hafter (by rw [hfile]; simp), Option.some.injEq] at hentry
    exact hnotDir hafter hentry.symm

end Typr
