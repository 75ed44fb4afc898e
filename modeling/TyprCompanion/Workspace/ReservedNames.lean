import TyprCompanion.Workspace.FoldedPrograms

/-!
# Reserved names where case is ignored

* `ListsWhatItReads` — `list` and `read` agree on a disk.
* `StoreCall`, `answerAll` — the calls of a client, one after the other.
* **`WorkspaceStore.reservedNames`** — calls whose paths have no respelled name stay confined, and
  `list` and `read` agree.  `reservedNames_respelled` shows what the other paths reach.
-/

namespace Typr

open Core

variable {store : WorkspaceStore} {upcase : CodeUnit → CodeUnit} {faulty : Bool}
variable {d d' : Disk FileName} {root p q : Location} {name : FileName}

/-! ## `list` and `read` -/

theorem wp_read_fold (hplain : IsPlainDisk upcase store.root d) {path : JSString}
    (hvalid : IsWorkspacePath store.platform path) (hpath : IsPlainPath upcase path) :
    (store.read path).wp (StoreOp.ExecFold upcase faulty) (ConfinedFold upcase store.root)
      (Reads faulty d (FoldLookup upcase d (store.root ++ relativeLocation path)
        fun i => FitsOr413 store (d.inodes i) fun r =>
          r = .ok (store.responseOf path (d.inodes i)))) d := by
  rw [WorkspaceStore.read, Prog.wp_bind, Prog.wp_ofExcept]
  rcases parsePath_cases store path with ⟨-, normalized, rfl, hparse⟩ | ⟨hinvalid, -⟩
  · rw [hparse]
    exact wp_readValid_fold hplain normalized hpath
  · exact absurd hvalid hinvalid

theorem wp_list_fold (hplain : IsPlainDisk upcase store.root d) :
    store.list.wp (StoreOp.ExecFold upcase faulty) (ConfinedFold upcase store.root)
      (Reads faulty d fun r => ∀ result, r = .ok result →
        IsListing store d result.2 ∧ Accepted store result.2) d := by
  refine Reads.seq (wp_scan_fold hplain) (fun files hfiles => ?_) fun _ _ => nofun
  refine Reads.pure fun result hresult => ?_
  obtain rfl := Except.ok.inj hresult
  exact hfiles files rfl

/-- The path of a location leads back to it when its names are in one piece. -/
theorem relativeLocation_pathOf {relative : Location} (hne : relative ≠ [])
    (hwhole : ∀ name ∈ relative, unit '/' ∉ name.text) :
    relativeLocation (pathOf relative) = relative := by
  have hsplit : JSString.split (unit '/') (pathOf relative) = relative.map FileName.text := by
    refine JSString.split_join (by simpa using hne) fun segment hsegment => ?_
    obtain ⟨name, hname, rfl⟩ := List.mem_map.mp hsegment
    exact hwhole name hname
  rw [relativeLocation, hsplit, List.map_map]
  exact List.map_id'' fileName_text relative

/-- **`list` and `read` agree** on the disk: what is listed can be read, with the same metadata, and
what can be read at a path without a respelled name is listed. -/
def WorkspaceStore.ListsWhatItReads (store : WorkspaceStore) (upcase : CodeUnit → CodeUnit)
    (faulty : Bool) (d : Disk FileName) : Prop :=
  ∀ result u, store.list.Eval (StoreOp.ExecFold upcase faulty) d (.ok result) u →
    (∀ file ∈ result.2, ∀ r v,
      (store.read file.path).Eval (StoreOp.ExecFold upcase faulty) d r v →
        (faulty = true ∧ r = .error (.errno .fault)) ∨
          ∃ response, r = .ok response ∧ WorkspaceStore.metadataOnly response = file) ∧
    ∀ path response v, IsPlainPath upcase path →
      (store.read path).Eval (StoreOp.ExecFold upcase faulty) d (.ok response) v →
        ∃ file ∈ result.2,
          denoted upcase d (store.root ++ relativeLocation file.path)
            = denoted upcase d (store.root ++ relativeLocation path) ∧
          file.size = response.size ∧ file.etag = response.etag

/-- What a file of the listing describes. -/
theorem exists_of_listed (hplain : IsPlainDisk upcase store.root d)
    {files : List WorkspaceFileMetadata} (hlisting : IsListing store d files)
    {file : WorkspaceFileMetadata} (hfile : file ∈ files) :
    ∃ relative i, d.entryAt (store.root ++ relative) = some (.file i) ∧
      relativeLocation file.path = relative ∧ IsPlainPath upcase file.path ∧
      file = store.metadataOf file.path (d.inodes i) := by
  obtain ⟨relative, hmem, rfl⟩ := List.mem_map.mp (hlisting.mem_iff.mp hfile)
  obtain ⟨hshown, i, hentry⟩ := isShown_of_mem (Finset.mem_toList.mp hmem)
  have hnames := hplain.recognised relative (by simp [hentry])
  have hback : relativeLocation (pathOf relative) = relative :=
    relativeLocation_pathOf (isShown_iff.mp hshown).1 fun name hname => (hnames name hname).2
  have hdescribe : store.describe d relative = store.metadataOf (pathOf relative) (d.inodes i) := by
    rw [WorkspaceStore.describe, fileData_of_file hentry]
  have hpath : (store.describe d relative).path = pathOf relative := rfl
  refine ⟨relative, i, hentry, by rw [hpath, hback], fun name hname => ?_, by rw [hpath, hdescribe]⟩
  rw [hpath, hback] at hname
  exact (hnames name hname).1

/-- A file the path denotes is a shown file. -/
theorem isShown_of_denoted (hplain : IsPlainDisk upcase store.root d) {path : JSString}
    (hvalid : IsWorkspacePath store.platform path) (hpath : IsPlainPath upcase path) {i : Nat}
    (hfile : d.entryAt (denoted upcase d (store.root ++ relativeLocation path)) = some (.file i)) :
    ∃ relative, denoted upcase d (store.root ++ relativeLocation path) = store.root ++ relative ∧
      relative ∈ shownLocations store.root d := by
  obtain ⟨found, hfound, hfold⟩ := hplain.distinct.resolve_append (p := store.root)
    (by simp [hplain.rooted]) (relativeLocation path)
  refine ⟨found, hfound, mem_shownLocations_of_file (i := i) ?_ (by rw [← hfound]; exact hfile)⟩
  rw [isShown_iff]
  constructor
  · rintro rfl
    exact relativeLocation_ne_nil path (by simpa using hfold.symm)
  · intro name hname
    rw [denoted, hfound] at hfile
    have hrecognised := (hplain.recognised found (by simp [hfile]) name hname).1
    have hmem : foldName upcase name ∈ (relativeLocation path).map (foldName upcase) := by
      rw [← hfold]
      exact List.mem_map_of_mem hname
    obtain ⟨given, hgiven, heq⟩ := List.mem_map.mp hmem
    have hreserved := (isPlainPath_iff hvalid).mpr hpath given hgiven
    rw [isReserved, heq] at hreserved
    by_contra hhidden
    have htrue : isReserved upcase name = true :=
      isReserved_of_isHidden (Bool.not_eq_false _ ▸ hhidden)
    rw [isReserved, hreserved] at htrue
    cases htrue

theorem IsPlainDisk.listsWhatItReads (hplain : IsPlainDisk upcase store.root d) :
    store.ListsWhatItReads upcase faulty d := by
  intro result u hlist
  obtain ⟨-, hfault | hlisting⟩ := Prog.wp_sound (wp_list_fold hplain) hlist
  · cases hfault.2
  obtain ⟨hlisting, haccepted⟩ := hlisting result rfl
  refine ⟨fun file hfile r v hread => ?_, fun path response v hpath hread => ?_⟩
  · obtain ⟨relative, i, hentry, hback, hpath, hdescribe⟩ :=
      exists_of_listed hplain hlisting hfile
    obtain ⟨hvalid, hsmall⟩ := haccepted file hfile
    obtain ⟨-, hfault | hfound⟩ := Prog.wp_sound (wp_read_fold hplain hvalid hpath) hread
    · exact .inl hfault
    have hself : denoted upcase d (store.root ++ relative) = store.root ++ relative :=
      hplain.denoted_eq (by simp [hentry])
    rw [hback] at hfound
    rcases hfound with ⟨j, hj, hfits⟩ | ⟨hnone, -⟩
    · rw [hself, hentry] at hj
      obtain rfl : i = j := by simpa using hj
      have hsize : ¬ store.limits.maxFileBytes < (d.inodes i).content.length := by
        rw [hdescribe] at hsmall
        exact Nat.not_lt.mpr hsmall
      have hresponse := (fitsOr413_small hsize).mp hfits
      exact .inr ⟨_, hresponse, hdescribe.symm⟩
    · rw [hself] at hnone
      exact absurd hentry (hnone i)
  · have hvalid : IsWorkspacePath store.platform path := by
      by_contra hinvalid
      rcases parsePath_cases store path with ⟨hvalid, -⟩ | ⟨-, w, -, hparse⟩
      · exact hinvalid hvalid
      · rw [WorkspaceStore.read, hparse] at hread
        cases hread.1
    obtain ⟨-, hfault | hfound⟩ := Prog.wp_sound (wp_read_fold hplain hvalid hpath) hread
    · cases hfault.2
    rcases hfound with ⟨i, hfile, hfits⟩ | ⟨-, _, herror⟩
    swap
    · cases herror
    obtain ⟨relative, hdenoted, hmem⟩ := isShown_of_denoted hplain hvalid hpath hfile
    rw [hdenoted] at hfile
    have hlisted : store.describe d relative ∈ result.2 :=
      hlisting.mem_iff.mpr (List.mem_map_of_mem (Finset.mem_toList.mpr hmem))
    have hsize : ¬ store.limits.maxFileBytes < (d.inodes i).content.length := by
      intro hlarge
      obtain ⟨_, herror, -⟩ := (fitsOr413_large hlarge).mp hfits
      cases herror
    have hresponse := (fitsOr413_small hsize).mp hfits
    obtain rfl := Except.ok.inj hresponse
    obtain ⟨relative', j, hentry, hback, -, hdescribe⟩ :=
      exists_of_listed hplain hlisting hlisted
    have hsame : relative' = relative := by
      rw [← hback]
      have hnames := hplain.recognised relative (by simp [hfile])
      exact relativeLocation_pathOf (isShown_iff.mp (isShown_of_mem hmem).1).1
        fun name hname => (hnames name hname).2
    subst hsame
    refine ⟨_, hlisted, ?_, ?_, ?_⟩
    · rw [hback, hdenoted, hplain.denoted_eq (by simp [hfile])]
    · rw [WorkspaceStore.describe, fileData_of_file hfile]
      rfl
    · rw [WorkspaceStore.describe, fileData_of_file hfile]
      rfl

/-! ## The calls of a client -/

/-- A call of the store. -/
inductive StoreCall where
  | list
  | read (path : JSString)
  | write (path : JSString) (content : Bytes) (precondition : WorkspaceWritePrecondition)
  | delete (path expectedEtag : JSString)

/-- The path of a call. -/
def StoreCall.path? : StoreCall → Option JSString
  | list => none
  | read path => some path
  | write path _ _ => some path
  | delete path _ => some path

namespace WorkspaceStore

/-- A call; what it returns or throws goes to the client. -/
def answer (store : WorkspaceStore) : StoreCall → StoreProg Unit
  | .list => quietly ((fun _ => ()) <$> store.list)
  | .read path => quietly ((fun _ => ()) <$> store.read path)
  | .write path content precondition => quietly ((fun _ => ()) <$>
      (Prog.ofExcept (store.write path content precondition) >>= Mutation.body))
  | .delete path expectedEtag => quietly ((fun _ => ()) <$>
      (Prog.ofExcept (store.delete path expectedEtag) >>= Mutation.body))

/-- Calls one after the other. -/
def answerAll (store : WorkspaceStore) : List StoreCall → StoreProg Unit
  | [] => pure ()
  | call :: rest => do
      store.answer call
      store.answerAll rest

end WorkspaceStore

theorem wp_quietly_fold {α : Type} {prog : StoreProg α}
    (h : prog.wp (StoreOp.ExecFold upcase faulty) (ConfinedFold upcase root) (fun _ _ => True) d) :
    (WorkspaceStore.quietly ((fun _ => ()) <$> prog)).wp (StoreOp.ExecFold upcase faulty)
      (ConfinedFold upcase root) (fun r _ => r = .ok ()) d := by
  rw [WorkspaceStore.quietly, Prog.wp_tryCatch, Prog.wp_map]
  refine Prog.wp_post (fun r t _ => ?_) h
  cases r with
  | ok a => exact rfl
  | error e => exact rfl

/-- A mutation on the volume. -/
theorem wp_body_fold (hplain : IsPlainDisk upcase store.root d) (call : Mutation store)
    (hpath : IsPlainPath upcase call.path.text) :
    call.body.wp (StoreOp.ExecFold upcase faulty) (ConfinedFold upcase store.root)
      (fun _ _ => True) d := by
  cases call with
  | write path content precondition =>
      refine (Prog.wp_map ..).mpr (Prog.wp_post (fun r _ _ => ?_)
        (wp_lockedWrite_fold hplain path hpath content.val precondition))
      cases r <;> trivial
  | delete path expectedEtag =>
      refine (Prog.wp_map ..).mpr (Prog.wp_post (fun r _ _ => ?_)
        (wp_lockedDelete_fold hplain path hpath expectedEtag))
      cases r <;> trivial

theorem wp_answer_fold (hplain : IsPlainDisk upcase store.root d) (call : StoreCall)
    (hcall : ∀ path ∈ call.path?, IsPlainPath upcase path) :
    (store.answer call).wp (StoreOp.ExecFold upcase faulty) (ConfinedFold upcase store.root)
      (fun r _ => r = .ok ()) d := by
  cases call with
  | list => exact wp_quietly_fold (Prog.wp_post (fun _ _ _ => trivial) (wp_list_fold hplain))
  | read path =>
      refine wp_quietly_fold ?_
      rw [WorkspaceStore.read, Prog.wp_bind, Prog.wp_ofExcept]
      rcases parsePath_cases store path with ⟨-, normalized, rfl, hparse⟩ | ⟨-, w, -, hparse⟩
      · rw [hparse]
        exact Prog.wp_post (fun _ _ _ => trivial)
          (wp_readValid_fold hplain normalized (hcall _ rfl))
      · rw [hparse]
        trivial
  | write path content precondition =>
      refine wp_quietly_fold ?_
      rw [WorkspaceStore.write, Prog.wp_bind, Prog.wp_ofExcept]
      rcases parsePath_cases store path with ⟨-, normalized, rfl, hparse⟩ | ⟨-, w, -, hparse⟩
      · rw [hparse]
        show Prog.afterBind _ _ _ _ (if h : _ then _ else _) d
        split
        · trivial
        · exact wp_body_fold hplain _ (hcall _ rfl)
      · rw [hparse]
        trivial
  | delete path expectedEtag =>
      refine wp_quietly_fold ?_
      rw [WorkspaceStore.delete, Prog.wp_bind, Prog.wp_ofExcept]
      rcases parsePath_cases store path with ⟨-, normalized, rfl, hparse⟩ | ⟨-, w, -, hparse⟩
      · rw [hparse]
        exact wp_body_fold hplain _ (hcall _ rfl)
      · rw [hparse]
        trivial

theorem wp_answerAll_fold {calls : List StoreCall} (hplain : IsPlainDisk upcase store.root d)
    (hcalls : ∀ call ∈ calls, ∀ path ∈ call.path?, IsPlainPath upcase path) :
    (store.answerAll calls).wp (StoreOp.ExecFold upcase faulty) (ConfinedFold upcase store.root)
      (fun _ _ => True) d := by
  induction calls generalizing d with
  | nil => trivial
  | cons call rest ih =>
      rw [WorkspaceStore.answerAll, Prog.wp_bind]
      refine Prog.wp_post ?_ (wp_keeps hplain
        (wp_answer_fold hplain call (hcalls call (List.mem_cons_self ..))))
      rintro r t ⟨rfl, hkeeps⟩
      exact ih hkeeps.plain fun c hc => hcalls c (List.mem_cons_of_mem _ hc)

/-- **Reserved names where case is ignored.**  The segments of an accepted path are no reserved
names, up to case, exactly when it has no respelled one; and calls with such paths on a disk without
respelled names never act in git's directories or beyond the root, whatever fails on the way, and
leave a disk on which `list` and `read` agree. -/
theorem WorkspaceStore.reservedNames (store : WorkspaceStore) (upcase : CodeUnit → CodeUnit)
    (faulty : Bool) :
    (∀ value path, validateWorkspacePath store.platform value = .ok path →
      ((∀ name ∈ relativeLocation path, isReserved upcase name = false) ↔
        IsPlainPath upcase path)) ∧
    ∀ d, IsPlainDisk upcase store.root d → ∀ calls : List StoreCall,
      (∀ call ∈ calls, ∀ path ∈ call.path?, IsPlainPath upcase path) →
      (store.answerAll calls).wp (StoreOp.ExecFold upcase faulty) (ConfinedFold upcase store.root)
        (fun _ t => Untouched store.root d t ∧ IsPlainDisk upcase store.root t ∧
          store.ListsWhatItReads upcase faulty t) d := by
  constructor
  · intro value path h
    suffices hvalid : IsWorkspacePath store.platform path from isPlainPath_iff hvalid
    rcases validateWorkspacePath_cases store.platform value with hvalid | ⟨_, herror⟩
    · obtain rfl : value = path := Except.ok.inj (hvalid.symm.trans h)
      exact hvalid
    · rw [herror] at h
      cases h
  · intro d hplain calls hcalls
    refine Prog.wp_post ?_ (wp_keeps hplain (wp_answerAll_fold hplain hcalls))
    rintro r t ⟨-, hkeeps⟩
    exact ⟨hkeeps.untouched, hkeeps.plain, hkeeps.plain.listsWhatItReads⟩

/-! ## A repository on Windows -/

/-- An environment without faults on the volume, with a stopped clock and one identifier. -/
def StoreOp.plainFold (upcase : CodeUnit → CodeUnit) (now : Nat) (uuid : UUID) :
    (op : StoreOp) → Disk FileName → op.Reply × Disk FileName
  | fs op, d =>
      let outcome := (op.mapPath (denoted upcase d)).exec now d
      (cast (FsOp.reply_mapPath _ op).symm outcome.1, outcome.2)
  | hook _, d => (true, d)
  | randomUUID, d => (uuid, d)

theorem StoreOp.execFold_plainFold (now : Nat) (uuid : UUID) (op : StoreOp) (d : Disk FileName) :
    op.ExecFold upcase false d (op.plainFold upcase now uuid d).1
      (op.plainFold upcase now uuid d).2 := by
  cases op with
  | fs op =>
      refine ⟨_, .inl ⟨now, ?_⟩, .inl rfl⟩
      simp [plainFold]
  | hook step => exact ⟨rfl, .inl rfl⟩
  | randomUUID => rfl

namespace WindowsWorkspace

/-- The case table as far as ASCII letters are concerned. -/
def asciiUpcase (u : CodeUnit) : CodeUnit := if 0x61 ≤ u.toNat ∧ u.toNat ≤ 0x7A then u - 0x20 else u

/-- A workspace of the portable build. -/
def papers : WorkspaceStore := { EmptyWorkspace.papers with platform := .win32 }

/-- The configuration of the repository in it. -/
def config : Location := papers.root ++ [gitName, fileName (js "config")]

/-- The disk with the repository. -/
def disk : Disk FileName :=
  ((((Disk.empty.put papers.root .dir).put (papers.root ++ [gitName]) .dir).allocate
    ⟨[1], 0o600, 0⟩).put config (.file 0))

/-- Replace the configuration through another spelling. -/
def replace : StoreProg (Option WorkspaceFileMetadata) :=
  Prog.ofExcept (papers.write (js ".GIT/config") [2] (.update (papers.createEtag [1])))
    >>= Mutation.body

end WindowsWorkspace

open WindowsWorkspace in
/-- `.GIT/config` is accepted; `read` returns and `write` replaces git's configuration, which `list`
does not report. -/
theorem WorkspaceStore.reservedNames_respelled :
    validateWorkspacePath .win32 (js ".GIT/config") = .ok (js ".GIT/config") ∧
    isReserved asciiUpcase (fileName (js ".GIT")) = true ∧
    (∃ t, (papers.read (js ".GIT/config")).Eval (StoreOp.ExecFold asciiUpcase false) disk
      (.ok (papers.responseOf (js ".GIT/config") ⟨[1], 0o600, 0⟩)) t) ∧
    (∃ t, papers.list.Eval (StoreOp.ExecFold asciiUpcase false) disk (.ok (js "paper", [])) t) ∧
    ∃ r t, replace.Eval (StoreOp.ExecFold asciiUpcase false) disk r t ∧ r.isOk = true ∧
      disk.contentAt config = some [1] ∧ t.contentAt config = some [2] := by
  have hrun : ∀ {α : Type} (prog : StoreProg α), prog.Eval (StoreOp.ExecFold asciiUpcase false) disk
      (prog.run (StoreOp.plainFold asciiUpcase 0 EmptyWorkspace.uuid) disk).1
      (prog.run (StoreOp.plainFold asciiUpcase 0 EmptyWorkspace.uuid) disk).2 :=
    fun prog => Prog.eval_run (StoreOp.execFold_plainFold 0 EmptyWorkspace.uuid) prog disk
  have hreturns : ∀ {α : Type} {prog : StoreProg α} {r : Except StoreFailure α},
      (prog.run (StoreOp.plainFold asciiUpcase 0 EmptyWorkspace.uuid) disk).1 = r →
        ∃ t, prog.Eval (StoreOp.ExecFold asciiUpcase false) disk r t :=
    fun h => ⟨_, h ▸ hrun _⟩
  refine ⟨by decide, by decide, hreturns (by decide +kernel), hreturns (by decide +kernel), ?_⟩
  exact ⟨_, _, hrun replace, by decide +kernel, by decide +kernel, by decide +kernel⟩

end Typr
