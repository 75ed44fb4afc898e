import TyprCompanion.Workspace.Mutations

/-!
# The store is a compare-and-swap map

Concurrent writes and deletions behave like those of the map, executed one at a time in the order
in which the calls queued for the lock; afterwards `read` and `list` show that map.

* `ReadsAs`, `ListsAs` — `read` and `list` in terms of the map.
* `write_cases`, `delete_cases` — a call that does not reach the lock is refused by its arguments.
* **`WorkspaceStore.linearizable`** — the main result.
-/

namespace Typr

open Core

variable {store : WorkspaceStore} {faulty : Bool} {d : Disk FileName}

/-! ## Reading and listing the map -/

/-- `read` returns exactly the content the map has at the path. -/
def ReadsAs (store : WorkspaceStore) (map : FileMap) (path : JSString)
    (r : Except StoreFailure WorkspaceFileResponse) : Prop :=
  (¬ IsWorkspacePath store.platform path → IsRefusal 400 r) ∧
    (IsWorkspacePath store.platform path → match map.files.lookup (relativeLocation path) with
      | some content => ∃ response, r = .ok response ∧ response.path = path ∧
          fromBase64 response.content = content ∧ response.size = content.length ∧
          response.etag = store.createEtag content
      | none => (map.Conflict (relativeLocation path) → IsRefusal 409 r) ∧
          (¬ map.Conflict (relativeLocation path) → IsRefusal 404 r))

/-- `list` returns exactly the paths of the map, with the sizes and etags of their contents. -/
def ListsAs (store : WorkspaceStore) (map : FileMap)
    (r : Except StoreFailure (JSString × List WorkspaceFileMetadata)) : Prop :=
  ∃ files, r = .ok (store.workspaceId, files) ∧
    (files.map fun file => (file.path, file.size, some file.etag)).Perm
      (map.files.keys.toList.map fun relative => (pathOf relative,
        SizedMap.sizeAt List.length map.files relative,
        (map.files.lookup relative).map store.createEtag))

theorem wp_read (path : JSString) (hroot : d.entryAt store.root = some .dir) :
    (store.read path).wp (StoreOp.Exec faulty) (store.Allowed faulty)
      (Reads faulty d fun r => (¬ IsWorkspacePath store.platform path → IsRefusal 400 r) ∧
        (IsWorkspacePath store.platform path →
          LookupOutcome d store.root (relativeLocation path) (fun i =>
            FitsOr413 store (d.inodes i) fun r =>
              r = .ok (store.responseOf path (d.inodes i))) r)) d := by
  rw [WorkspaceStore.read, Prog.wp_bind, Prog.wp_ofExcept]
  rcases parsePath_cases store path
    with ⟨hvalid, normalized, rfl, hparse⟩ | ⟨hinvalid, w, hstatus, hparse⟩
  · rw [hparse]
    exact Reads.mono (wp_readValid normalized hroot)
      fun r hr => ⟨fun h => absurd hvalid h, fun _ => hr⟩
  · rw [hparse]
    exact ⟨rfl, .inr ⟨fun _ => ⟨w, rfl, hstatus⟩, fun h => absurd h hinvalid⟩⟩

theorem WorkspaceStore.Good.read (hgood : store.Good d) (path : JSString) :
    (store.read path).wp (StoreOp.Exec false) (store.Allowed false)
      (fun r t => t = d ∧ ReadsAs store (store.fileMap d) path r) d := by
  refine Prog.wp_post ?_ (wp_read path hgood.root)
  rintro r t ⟨rfl, ⟨hfaulty, -⟩ | ⟨hinvalid, hlookup⟩⟩
  · exact absurd hfaulty (by simp)
  refine ⟨rfl, hinvalid, fun hvalid => ?_⟩
  have hne : relativeLocation path ≠ [] := relativeLocation_ne_nil path
  have hshown : isShown (relativeLocation path) = true := isShown_iff.mpr ⟨hne, hvalid.not_hidden⟩
  rcases hlookup hvalid with ⟨i, hfile, hfits⟩ | ⟨⟨hnone, hblocked⟩, hrefusal⟩ | ⟨hblocked, hrefusal⟩
  · have hcontent : (store.fileMap t).files.lookup (relativeLocation path)
        = some (t.inodes i).content := lookup_of_file hshown hfile
    have hsmall := Nat.not_lt.mpr (hgood.within.value_le _ _ hcontent)
    obtain rfl := (fitsOr413_small hsmall).mp hfits
    rw [hcontent]
    exact ⟨_, rfl, rfl, fromBase64_toBase64 _, rfl, rfl⟩
  · rw [lookup_of_not_file fun i hi => by simp [hnone] at hi]
    exact ⟨fun h => absurd ((hgood.blocked_iff hne).mpr h) hblocked, fun _ => hrefusal⟩
  · rw [lookup_of_not_file fun i hi => not_blocked_of_file hi hblocked]
    exact ⟨fun _ => hrefusal, fun h => absurd ((hgood.blocked_iff hne).mp hblocked) h⟩

theorem describe_of_mem {q : Location} (h : q ∈ shownLocations store.root d) :
    ((store.describe d q).path, (store.describe d q).size, some (store.describe d q).etag)
      = (pathOf q, SizedMap.sizeAt List.length (store.fileMap d).files q,
          ((store.fileMap d).files.lookup q).map store.createEtag) := by
  obtain ⟨hshown, i, hfile⟩ := isShown_of_mem h
  rw [size_describe h, lookup_of_file hshown hfile, WorkspaceStore.describe, fileData_of_file hfile]
  rfl

theorem WorkspaceStore.Good.list (hgood : store.Good d) :
    store.list.wp (StoreOp.Exec false) (store.Allowed false)
      (fun r t => t = d ∧ ListsAs store (store.fileMap d) r) d := by
  rw [WorkspaceStore.list]
  refine Reads.bind (wp_scan hgood.root) (by simp) ?_ ?_
  · intro files hlisting
    refine ⟨rfl, files, rfl, (hlisting.map _).trans ?_⟩
    have hkeys : (store.fileMap d).files.keys = shownLocations store.root d := by
      simp [WorkspaceStore.fileMap, shownFiles]
    rw [List.map_map, hkeys]
    refine List.Perm.of_eq (List.map_congr_left fun q hq => ?_)
    exact describe_of_mem (Finset.mem_toList.mp hq)
  · rintro e (⟨-, hwithin⟩ | ⟨hclean, -⟩)
    · exact absurd hgood.within hwithin
    · exact absurd hgood.toClean hclean

/-! ## Calls that do not reach the lock -/

/-- A write reaches the lock unless its path is invalid or its content too large. -/
theorem write_cases (path : JSString) (content : Bytes)
    (precondition : WorkspaceWritePrecondition) :
    (∃ normalized fits, normalized.text = path ∧
        store.write path content precondition = .ok (.write normalized ⟨content, fits⟩ precondition)) ∨
      (¬ IsWorkspacePath store.platform path ∧
        IsRefusal 400 (store.write path content precondition)) ∨
      (store.limits.maxFileBytes < content.length ∧
        IsRefusal 413 (store.write path content precondition)) := by
  unfold WorkspaceStore.write
  rcases parsePath_cases store path
    with ⟨hvalid, normalized, rfl, hparse⟩ | ⟨hinvalid, w, hstatus, hparse⟩
  · rw [hparse]
    by_cases hlarge : store.limits.maxFileBytes < content.length
    · refine .inr (.inr ⟨hlarge, ?_⟩)
      simp only [bind, Except.bind, dif_pos hlarge]
      exact ⟨_, rfl, rfl⟩
    · refine .inl ⟨normalized, Nat.le_of_not_lt hlarge, rfl, ?_⟩
      simp only [bind, Except.bind, dif_neg hlarge]
      rfl
  · rw [hparse]
    exact .inr (.inl ⟨hinvalid, w, rfl, hstatus⟩)

/-- A deletion reaches the lock unless its path is invalid. -/
theorem delete_cases (path expectedEtag : JSString) :
    (∃ normalized, normalized.text = path ∧
        store.delete path expectedEtag = .ok (.delete normalized expectedEtag)) ∨
      (¬ IsWorkspacePath store.platform path ∧ IsRefusal 400 (store.delete path expectedEtag)) := by
  unfold WorkspaceStore.delete
  rcases parsePath_cases store path
    with ⟨hvalid, normalized, rfl, hparse⟩ | ⟨hinvalid, w, hstatus, hparse⟩
  · rw [hparse]
    exact .inl ⟨normalized, rfl, rfl⟩
  · rw [hparse]
    exact .inr ⟨hinvalid, w, rfl, hstatus⟩

/-! ## Linearizability -/

/-- One call on a workspace in good order is one operation of the map. -/
theorem Mutation.refines (call : Mutation store) {r : Except StoreFailure _} {t : Disk FileName}
    (hgood : store.Good d) (heval : call.body.Eval (StoreOp.Exec false) d r t) :
    store.Good t ∧ call.spec (store.fileMap d) = (Mutation.outcome r, store.fileMap t) :=
  Prog.wp_sound (call.wp_body hgood.root) heval rfl hgood

/-- **The store is linearizable.**  Start from a workspace in good order and let writes and deletions
run concurrently, interleaved in any way.  The settled calls have the outcomes of executing them one
at a time on the map, in the order they queued for the lock; once all are settled the disk holds the
map this leaves.  Every path then holds the content of the last successful call about it, `read`
returns exactly this content, and `list` exactly the paths that have one. -/
theorem WorkspaceStore.linearizable (store : WorkspaceStore) {d : Disk FileName}
    (hgood : store.Good d) {system : StoreSystem store}
    (hreachable : Mutex.Reachable (StoreOp.Exec false) Mutation.body d system) :
    ∃ map : FileMap,
      Mutex.sequential Mutation.spec (store.fileMap d) (system.settled.map Prod.fst)
        = (system.settled.map fun entry => Mutation.outcome entry.2, map) ∧
      (system.queue = [] → store.fileMap system.store = map ∧
        (∀ relative, map.files.lookup relative
          = lastContent (system.settled.map fun entry => (entry.1, Mutation.outcome entry.2))
              relative ((store.fileMap d).files.lookup relative)) ∧
        (∀ path r t, (store.read path).Eval (StoreOp.Exec false) system.store r t →
          t = system.store ∧ ReadsAs store map path r) ∧
        (∀ r t, store.list.Eval (StoreOp.Exec false) system.store r t →
          t = system.store ∧ ListsAs store map r)) := by
  obtain ⟨t, hserial, hprogress⟩ := hreachable.serial
  obtain ⟨hgood', hsequential⟩ := Mutex.Serial.refines store.Good store.fileMap
    (fun _ r => Mutation.outcome r) Mutation.spec (fun call s r u hs heval => call.refines hs heval)
    hgood hserial
  refine ⟨store.fileMap t, hsequential, fun hidle => ?_⟩
  obtain rfl : system.store = t := by simpa [Mutex.InProgress, hidle] using hprogress
  refine ⟨rfl, fun relative => ?_, fun path r t heval => Prog.wp_sound (hgood'.read path) heval,
    fun r t heval => Prog.wp_sound hgood'.list heval⟩
  have hlookup := sequential_lookup (system.settled.map Prod.fst) (store.fileMap d) relative
  rw [hsequential] at hlookup
  rw [hlookup, List.zip_map']

/-! ## An empty workspace -/

namespace EmptyWorkspace

/-- A store whose digest is the content itself. -/
def papers : WorkspaceStore where
  platform := .posix
  root := [fileName (js "paper")]
  workspaceId := js "paper"
  limits := ⟨4, 2, 8, by decide, by decide, by decide⟩
  sha256 := toBase64
  localeLe := fun _ _ => true

/-- The disk with its root. -/
def disk : Disk FileName := Disk.empty.put papers.root .dir

theorem canPut_root : (Disk.empty : Disk FileName).CanPut papers.root .dir := by decide

theorem root : disk.entryAt papers.root = some .dir := by
  rw [disk, Disk.entryAt_put canPut_root, if_pos rfl]

theorem entryAt_below {relative : Location} (hne : relative ≠ []) :
    disk.entryAt (papers.root ++ relative) = none := by
  have hroot : papers.root ++ relative ≠ papers.root := by simpa using hne
  rw [disk, Disk.entryAt_put canPut_root, if_neg hroot, Disk.entryAt_empty, if_neg (by simp [papers])]

theorem withinLimits : papers.WithinLimits disk := by
  have hnone : shownFiles papers.root disk = ∅ := by
    refine Finmap.ext_lookup fun relative => ?_
    rw [Finmap.lookup_empty]
    show (papers.fileMap disk).files.lookup relative = none
    refine lookup_of_not_file fun i hi => ?_
    by_cases hne : relative = []
    · rw [hne, List.append_nil, root] at hi
      exact absurd hi (by simp)
    · rw [entryAt_below hne] at hi
      exact absurd hi (by simp)
  rw [WorkspaceStore.WithinLimits, hnone]
  exact Bounds.Holds.empty

theorem good : papers.Good disk where
  root := root
  clean := by
    intro relative hne e hentry
    rw [entryAt_below hne] at hentry
    exact absurd hentry (by simp)
  within := withinLimits

/-- An identifier of the runtime. -/
def uuid : UUID := ⟨js "00000000-0000-4000-8000-000000000000", by decide⟩

/-- The first call: create `a.tex`. -/
def create : Mutation papers := .write ⟨js "a.tex", by decide⟩ ⟨[104, 105], by decide⟩ .create

/-- Its result, and the disk after it. -/
def created : Except StoreFailure (Option WorkspaceFileMetadata) × Disk FileName :=
  create.body.run (StoreOp.plain 0 uuid) disk

/-- The second call: create the same file again. -/
def again : Except StoreFailure (Option WorkspaceFileMetadata) × Disk FileName :=
  create.body.run (StoreOp.plain 0 uuid) created.2

/-- Both calls have settled. -/
def system : StoreSystem papers := ⟨again.2, [], [(create, created.1), (create, again.1)]⟩

theorem reachable : Mutex.Reachable (StoreOp.Exec false) Mutation.body disk system := by
  refine Mutex.Serial.reachable ⟨created.2, ?_, again.2, ?_, rfl⟩
  · exact Prog.eval_run (StoreOp.exec_plain 0 uuid) _ _
  · exact Prog.eval_run (StoreOp.exec_plain 0 uuid) _ _

end EmptyWorkspace

/-- The first call writes, the second is refused, and the file holds what was written. -/
theorem WorkspaceStore.linearizable_create_twice :
    (EmptyWorkspace.system.settled.map fun entry => Mutation.outcome entry.2)
        = [.written (js "\"sha256-aGk=\""), .refused 412] ∧
      (EmptyWorkspace.papers.fileMap EmptyWorkspace.system.store).files.lookup
        [fileName (js "a.tex")] = some [104, 105] := by
  have houtcomes : (EmptyWorkspace.system.settled.map fun entry => Mutation.outcome entry.2)
      = [.written (js "\"sha256-aGk=\""), .refused 412] := by decide +kernel
  refine ⟨houtcomes, ?_⟩
  obtain ⟨map, -, hsettled⟩ :=
    EmptyWorkspace.papers.linearizable EmptyWorkspace.good EmptyWorkspace.reachable
  obtain ⟨rfl, hlookup, -⟩ := hsettled rfl
  simp only [EmptyWorkspace.system, List.map_cons, List.map_nil, List.cons.injEq, and_true]
    at houtcomes hlookup ⊢
  rw [hlookup, houtcomes.1, houtcomes.2]
  simp only [lastContent, List.foldl_cons, List.foldl_nil, EmptyWorkspace.create,
    Mutation.contentAfter]
  rw [if_pos (by decide)]

end Typr
