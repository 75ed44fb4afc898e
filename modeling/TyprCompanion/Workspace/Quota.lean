import TyprCompanion.Workspace.Confinement

/-!
# The quota

The limits hold in every state any interleaving of writes and deletions can reach, failures at any
step included, so a listing never meets a limit.

* `SatisfiesLimits` — the limits, for a listing.
* **`WorkspaceStore.quota_invariant`** — the main result.
-/

namespace Typr

open Core

variable {store : WorkspaceStore} {faulty : Bool} {d : Disk FileName}

/-- A listing within the limits: not too many files, none too large, and not too much in total. -/
def SatisfiesLimits (limits : WorkspaceLimits) (files : List WorkspaceFileMetadata) : Prop :=
  files.length ≤ limits.maxEntries ∧ (∀ file ∈ files, file.size ≤ limits.maxFileBytes) ∧
    (files.map (·.size)).sum ≤ limits.maxWorkspaceBytes

/-- A complete listing satisfies the limits exactly when the shown files do. -/
theorem IsListing.satisfiesLimits_iff {files : List WorkspaceFileMetadata}
    (h : IsListing store d files) :
    SatisfiesLimits store.limits files ↔ store.WithinLimits d := by
  have hvalue : (∀ file ∈ files, file.size ≤ store.limits.maxFileBytes) ↔
      ∀ q content, (shownFiles store.root d).lookup q = some content →
        content.length ≤ store.limits.maxFileBytes := by
    have hsize : ∀ {q content}, (shownFiles store.root d).lookup q = some content →
        q ∈ shownLocations store.root d ∧ (store.describe d q).size = content.length := by
      intro q content hcontent
      have hmem : q ∈ shownLocations store.root d := by
        rw [mem_shownLocations, ← lookup_shownFiles, hcontent]
        rfl
      refine ⟨hmem, ?_⟩
      rw [size_describe hmem, SizedMap.sizeAt, hcontent, Option.elim]
    constructor
    · intro hall q content hcontent
      obtain ⟨hmem, heq⟩ := hsize hcontent
      rw [← heq]
      exact hall _ (h.mem_iff.mpr (List.mem_map_of_mem (Finset.mem_toList.mpr hmem)))
    · intro hall file hfile
      obtain ⟨q, hq, rfl⟩ := List.mem_map.mp (h.mem_iff.mp hfile)
      obtain ⟨content, hcontent⟩ := Option.isSome_iff_exists.mp
        (mem_shownLocations.mp (Finset.mem_toList.mp hq))
      rw [← lookup_shownFiles] at hcontent
      rw [(hsize hcontent).2]
      exact hall q content hcontent
  rw [SatisfiesLimits, h.length, h.total, hvalue]
  constructor
  · rintro ⟨hcount, hvalue, htotal⟩
    exact ⟨hvalue, hcount, htotal⟩
  · intro hlimits
    exact ⟨hlimits.count_le, hlimits.value_le, hlimits.total_le⟩

/-- `list` never refuses a workspace within its limits with a limit error, and what it returns is
within them. -/
theorem WorkspaceStore.WithinLimits.list (hroot : d.entryAt store.root = some .dir)
    (hlimits : store.WithinLimits d) :
    store.list.wp (StoreOp.Exec faulty) (store.Allowed faulty)
      (fun r _ => ¬ IsRefusal 413 r ∧ ∀ result, r = .ok result →
        SatisfiesLimits store.limits result.2) d := by
  rw [WorkspaceStore.list]
  refine Reads.bind (wp_scan hroot) ?_ ?_ ?_
  · intro _
    refine ⟨?_, by simp⟩
    rintro ⟨_, h, -⟩
    simp at h
  · intro files hlisting
    constructor
    · rintro ⟨_, h, -⟩
      simp at h
    · intro result hresult
      obtain rfl := Except.ok.inj hresult
      exact hlisting.satisfiesLimits_iff.mpr hlimits
  · rintro e (⟨-, hover⟩ | ⟨-, w, rfl, hstatus⟩)
    · exact absurd hlimits hover
    · refine ⟨?_, by simp⟩
      rintro ⟨w', hw', hlimit⟩
      obtain rfl : w = w' := by simpa using hw'
      exact hstatus hlimit

/-- The root stays a directory. -/
theorem root_of_untouched {t : Disk FileName} (hroot : d.entryAt store.root = some .dir)
    (h : Untouched store.root d t) : t.entryAt store.root = some .dir := by
  have hbeyond : Beyond store.root store.root := by
    rintro ⟨relative, heq, hne, -⟩
    exact hne (by simpa using heq)
  rw [(h _ hbeyond).1, hroot]

/-- **The quota is an invariant.**  Take any limits `validateLimits` accepts and a workspace within
them, whatever its tree.  In every state that concurrent writes and deletions reach, interleaved in
any way and failing at any step, the shown files are within the limits; `list` never fails with a
limit error there, and every listing it returns is within them. -/
theorem WorkspaceStore.quota_invariant (store : WorkspaceStore) (configured : ConfiguredLimits)
    (_ : validateLimits configured = .ok store.limits) (faulty : Bool) {d : Disk FileName}
    (hroot : d.entryAt store.root = some .dir) (hlimits : store.WithinLimits d)
    {system : StoreSystem store}
    (hreachable : Mutex.Reachable (StoreOp.Exec faulty) Mutation.body d system) :
    store.WithinLimits system.store ∧
      ∀ r t, store.list.Eval (StoreOp.Exec faulty) system.store r t →
        ¬ IsRefusal 413 r ∧ ∀ result, r = .ok result → SatisfiesLimits store.limits result.2 := by
  have hinvariant : system.store.entryAt store.root = some .dir ∧
      store.WithinLimits system.store := by
    refine Mutex.Reachable.invariant
      (I := fun d => d.entryAt store.root = some .dir ∧ store.WithinLimits d) ?_
      ⟨hroot, hlimits⟩ hreachable
    rintro call s ⟨hroot, hlimits⟩
    refine Prog.wp_mono (fun _ _ h => h.2) (fun _ _ h => h.2)
      (Prog.wp_invariant ?_ (call.wp_body hroot) ⟨hroot, hlimits⟩)
    rintro s op ⟨hconfined, hkeeps⟩ reply t hexec ⟨hroot, hlimits⟩
    exact ⟨root_of_untouched hroot (untouched_of_confined hconfined hexec),
      hkeeps reply t hexec hlimits⟩
  refine ⟨hinvariant.2, fun r t heval => ?_⟩
  exact Prog.wp_sound (WorkspaceStore.WithinLimits.list hinvariant.1 hinvariant.2) heval

/-- Two writes later the empty workspace is still within its limits, and so is its listing. -/
theorem WorkspaceStore.quota_invariant_create_twice :
    EmptyWorkspace.papers.WithinLimits EmptyWorkspace.system.store ∧
      ∀ r t, EmptyWorkspace.papers.list.Eval (StoreOp.Exec false) EmptyWorkspace.system.store r t →
        ¬ IsRefusal 413 r ∧
          ∀ result, r = .ok result → SatisfiesLimits EmptyWorkspace.papers.limits result.2 :=
  EmptyWorkspace.papers.quota_invariant ⟨.integer 4, .integer 2, .integer 8⟩ rfl false
    EmptyWorkspace.root EmptyWorkspace.withinLimits EmptyWorkspace.reachable

end Typr
