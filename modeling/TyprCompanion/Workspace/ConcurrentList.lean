import TyprCompanion.Workspace.ConcurrentReads

/-!
# Listing beside mutations

A `list` while other calls write and delete.  It is not atomic: it sees each file at a moment of its
own.

* `Sighted`, `Complete` — the files seen, each at its moment, and those that cannot be missed.
* `Exceeds`, `Displaced`, `Gone` — why a listing fails.
* `Tour` — what a part of the scan has done.
* `beside_visitEntry`, `beside_visit` — an entry and a directory amid drifts.
* **`WorkspaceStore.list_beside`** — a list in every run.
-/

namespace Typr

open Core

variable {store : WorkspaceStore}

/-! ## What is seen -/

/-- Locations, each with a disk on which it was seen. -/
abbrev Sightings := List (Location × Disk FileName)

namespace WorkspaceStore

/-- The metadata of the files seen. -/
def describeAll (store : WorkspaceStore) (seen : Sightings) : List WorkspaceFileMetadata :=
  seen.map fun sight => store.describe sight.2 sight.1

/-- The bytes of the files seen. -/
def bytesOf (store : WorkspaceStore) (seen : Sightings) : Nat :=
  (seen.map fun sight => (store.describe sight.2 sight.1).size).sum

end WorkspaceStore

/-- **Each file is seen once**, at a moment of the call at which it was there. -/
structure Sighted (store : WorkspaceStore) (S : Location → Prop) (looks : Moments) (seen : Sightings) :
    Prop where
  nodup : (seen.map Prod.fst).Nodup
  there : ∀ sight ∈ seen, S sight.1 ∧ sight.1 ∈ shownLocations store.root sight.2 ∧
    ∃ op, (sight.2, op) ∈ looks

/-- **No file is missed** that was there all the time. -/
def Complete (store : WorkspaceStore) (S : Location → Prop) (looks : Moments) (seen : Sightings) :
    Prop :=
  ∀ q, S q → isShown q = true → (∀ look ∈ looks, q ∈ shownLocations store.root look.1) →
    q ∈ seen.map Prod.fst

/-- What was seen does not fit, on top of what was found before. -/
def Exceeds (store : WorkspaceStore) (state : ScanState) (seen : Sightings) : Prop :=
  store.limits.maxEntries < state.files.length + seen.length ∨
    store.limits.maxWorkspaceBytes < state.totalBytes + store.bytesOf seen

/-- A directory was opened where a file had been. -/
def Displaced (looks : Moments) : Prop :=
  ∃ u p, (u, StoreOp.fs (.openRead p)) ∈ looks ∧ u.entryAt p = some .dir

/-- An entry was gone when it was looked at or opened. -/
def Gone (looks : Moments) : Prop :=
  ∃ before u op p, looks = before ++ [(u, op)] ∧ (op = .fs (.lstat p) ∨ op = .fs (.openRead p)) ∧
    u.entryAt p = none

/-- **Why a listing fails.** -/
def Fails {α : Type} (store : WorkspaceStore) (S : Location → Prop) (state : ScanState) (looks : Moments)
    (r : Except StoreFailure α) : Prop :=
  (IsRefusal 413 r ∧ ∃ seen, Sighted store S looks seen ∧ Exceeds store state seen) ∨
    (IsRefusal 409 r ∧ Displaced looks) ∨ (r = .error (.errno .noEntry) ∧ Gone looks)

/-- The state after these files were found. -/
def Gathered (store : WorkspaceStore) (state : ScanState) (seen : Sightings) (state' : ScanState) : Prop :=
  state'.files = state.files ++ store.describeAll seen ∧
    state'.totalBytes = state.totalBytes + store.bytesOf seen

/-- **What a part of the scan has done** when it ends. -/
def Tour (store : WorkspaceStore) (S : Location → Prop) (state : ScanState) (looks : Moments)
    (r : Except StoreFailure ScanState) : Prop :=
  match r with
  | .ok state' => ∃ seen, Sighted store S looks seen ∧ Complete store S looks seen ∧
      Gathered store state seen state'
  | .error e => Fails store S state looks (.error e : Except StoreFailure ScanState)

/-- The same, with the disk it began on. -/
def Toured (store : WorkspaceStore) (S : Location → Prop) (state : ScanState) (s : Disk FileName)
    (looks : Moments) (r : Except StoreFailure ScanState) (v : Disk FileName × Moments) : Prop :=
  Orderly store v.1 ∧ Stays store s v.1 ∧ ∃ more, v.2 = looks ++ more ∧ Tour store S state more r

section Composing

variable {S T U : Location → Prop} {state state' : ScanState} {looks more : Moments}
  {seen seen' : Sightings} {α : Type} {r : Except StoreFailure α}

theorem Sighted.mono (h : Sighted store S more seen) (hS : ∀ q, S q → T q)
    (hlooks : ∀ look ∈ more, look ∈ looks) : Sighted store T looks seen where
  nodup := h.nodup
  there sight hsight := by
    obtain ⟨hq, hthere, op, hop⟩ := h.there sight hsight
    exact ⟨hS _ hq, hthere, op, hlooks _ hop⟩

theorem Sighted.append (h : Sighted store S looks seen) (h' : Sighted store T more seen')
    (hdisjoint : ∀ q, S q → ¬ T q) :
    Sighted store (fun q => S q ∨ T q) (looks ++ more) (seen ++ seen') where
  nodup := by
    rw [List.map_append]
    refine h.nodup.append h'.nodup fun q hq hq' => ?_
    obtain ⟨sight, hsight, rfl⟩ := List.mem_map.mp hq
    obtain ⟨sight', hsight', heq⟩ := List.mem_map.mp hq'
    exact hdisjoint _ (h.there sight hsight).1 (heq ▸ (h'.there sight' hsight').1)
  there sight hsight := by
    rcases List.mem_append.mp hsight with hsight | hsight
    · obtain ⟨hq, hthere, op, hop⟩ := h.there sight hsight
      exact ⟨.inl hq, hthere, op, List.mem_append_left _ hop⟩
    · obtain ⟨hq, hthere, op, hop⟩ := h'.there sight hsight
      exact ⟨.inr hq, hthere, op, List.mem_append_right _ hop⟩

theorem Complete.append (h : Complete store S looks seen) (h' : Complete store T more seen') :
    Complete store (fun q => S q ∨ T q) (looks ++ more) (seen ++ seen') := by
  intro q hq hshown hsteady
  rw [List.map_append]
  rcases hq with hq | hq
  · exact List.mem_append_left _ (h q hq hshown fun look hlook =>
      hsteady look (List.mem_append_left _ hlook))
  · exact List.mem_append_right _ (h' q hq hshown fun look hlook =>
      hsteady look (List.mem_append_right _ hlook))

theorem bytesOf_append (seen seen' : Sightings) :
    store.bytesOf (seen ++ seen') = store.bytesOf seen + store.bytesOf seen' := by
  simp [WorkspaceStore.bytesOf]

theorem Gathered.append {state'' : ScanState} (h : Gathered store state seen state')
    (h' : Gathered store state' seen' state'') : Gathered store state (seen ++ seen') state'' := by
  refine ⟨?_, ?_⟩
  · rw [h'.1, h.1, List.append_assoc, WorkspaceStore.describeAll, WorkspaceStore.describeAll,
      WorkspaceStore.describeAll, List.map_append]
  · rw [h'.2, h.2, bytesOf_append, Nat.add_assoc]

theorem Exceeds.append (h : Gathered store state seen state') (h' : Exceeds store state' seen') :
    Exceeds store state (seen ++ seen') := by
  have hlength : state'.files.length = state.files.length + seen.length := by
    rw [h.1, List.length_append, WorkspaceStore.describeAll, List.length_map]
  refine h'.imp (fun hcount => ?_) fun hbytes => ?_
  · rw [List.length_append]
    omega
  · rw [bytesOf_append]
    have := h.2
    omega

theorem Gone.append (h : Gone more) (looks : Moments) : Gone (looks ++ more) := by
  obtain ⟨before, u, op, p, rfl, hop, hnone⟩ := h
  exact ⟨looks ++ before, u, op, p, (List.append_assoc ..).symm, hop, hnone⟩

/-- A failure of a part. -/
theorem Fails.mono (h : Fails store S state more r) (hS : ∀ q, S q → T q) (looks : Moments) :
    Fails store T state (looks ++ more) r := by
  rcases h with ⟨hrefusal, seen, hseen, hexceeds⟩ | ⟨hrefusal, u, p, hmem, hdir⟩ | ⟨hgone, hlast⟩
  · exact .inl ⟨hrefusal, seen, hseen.mono hS fun look hlook => List.mem_append_right _ hlook, hexceeds⟩
  · exact .inr (.inl ⟨hrefusal, u, p, List.mem_append_right _ hmem, hdir⟩)
  · exact .inr (.inr ⟨hgone, hlast.append looks⟩)

/-- A failure after other files were found. -/
theorem Fails.after (h : Fails store T state' more r) (hseen : Sighted store S looks seen)
    (hgathered : Gathered store state seen state') (hdisjoint : ∀ q, S q → ¬ T q) :
    Fails store (fun q => S q ∨ T q) state (looks ++ more) r := by
  rcases h with ⟨hrefusal, seen', hseen', hexceeds⟩ | ⟨hrefusal, u, p, hmem, hdir⟩ | ⟨hgone, hlast⟩
  · exact .inl ⟨hrefusal, seen ++ seen', hseen.append hseen' hdisjoint, hexceeds.append hgathered⟩
  · exact .inr (.inl ⟨hrefusal, u, p, List.mem_append_right _ hmem, hdir⟩)
  · exact .inr (.inr ⟨hgone, hlast.append looks⟩)

end Composing

/-! ## The parts of the scan -/

section Scanning

variable {s : Disk FileName} {looks : Moments} {relative : Location} {name : FileName}
  {state : ScanState}

/-- At or below an entry of a directory. -/
def AtEntry (relative : Location) (name : FileName) (q : Location) : Prop := relative ++ [name] <+: q

theorem isShown_child (hshown : ∀ n ∈ relative, isHidden n = false) (hname : isHidden name = false) :
    isShown (relative ++ [name]) = true := by
  refine isShown_iff.mpr ⟨by simp, fun n hn => ?_⟩
  rcases List.mem_append.mp hn with hn | hn
  · exact hshown n hn
  · rwa [List.mem_singleton.mp hn]

/-- A file below an entry makes it a directory. -/
theorem dir_of_below {u : Disk FileName} {q : Location} (hq : AtEntry relative name q)
    (hne : q ≠ relative ++ [name]) (hthere : q ∈ shownLocations store.root u) :
    u.entryAt (store.root ++ relative ++ [name]) = some .dir := by
  obtain ⟨rest, rfl⟩ := hq
  obtain ⟨i, hi⟩ := (isShown_of_mem hthere).2
  have hrest : rest ≠ [] := fun hnil => hne (by rw [hnil, List.append_nil])
  rw [← List.append_assoc store.root, ← List.append_assoc store.root] at hi
  exact Disk.entryAt_append hrest (by rw [hi]; simp)

/-- **The file of an entry**, read at one of the moments of the call. -/
theorem tour_file {u : Disk FileName} {i : Nat} {more : Moments} {op : StoreOp} {mtimeMs : Nat}
    (hshown : isShown (relative ++ [name]) = true)
    (hfile : u.entryAt (store.root ++ relative ++ [name]) = some (.file i)) (hmem : (u, op) ∈ more)
    (hmtime : mtimeMs = (u.inodes i).mtimeMs) :
    Tour store (AtEntry relative name) state more (.ok {
      files := state.files ++ [{
        path := pathOf (relative ++ [name])
        size := (u.inodes i).content.length
        modifiedAt := mtimeMs
        etag := store.createEtag (u.inodes i).content }]
      totalBytes := state.totalBytes + (u.inodes i).content.length }) := by
  rw [List.append_assoc] at hfile
  have hdescribe : store.describe u (relative ++ [name])
      = store.metadataOf (pathOf (relative ++ [name])) (u.inodes i) := by
    rw [WorkspaceStore.describe, fileData_of_file hfile]
  refine ⟨[(relative ++ [name], u)], ⟨by simp, ?_⟩, ?_, ?_, ?_⟩
  · rintro sight hsight
    obtain rfl := List.mem_singleton.mp hsight
    exact ⟨List.prefix_refl _, mem_shownLocations_of_file hshown hfile, op, hmem⟩
  · intro q hq _ hsteady
    by_contra hmissing
    have hne : q ≠ relative ++ [name] := by simpa using hmissing
    have hdir := dir_of_below hq hne (hsteady _ hmem)
    rw [List.append_assoc, hfile] at hdir
    cases hdir
  · simp only [WorkspaceStore.describeAll, List.map_singleton, hdescribe, hmtime]
    rfl
  · simp only [WorkspaceStore.bytesOf, List.map_singleton, List.sum_singleton, hdescribe]
    rfl

/-- An entry that was seen before a check of the limits failed. -/
theorem sighted_one {u : Disk FileName} {i : Nat} {more : Moments} {op : StoreOp}
    (hshown : isShown (relative ++ [name]) = true)
    (hfile : u.entryAt (store.root ++ relative ++ [name]) = some (.file i)) (hmem : (u, op) ∈ more) :
    Sighted store (AtEntry relative name) more [(relative ++ [name], u)] where
  nodup := by simp
  there sight hsight := by
    obtain rfl := List.mem_singleton.mp hsight
    rw [List.append_assoc] at hfile
    exact ⟨List.prefix_refl _, mem_shownLocations_of_file hshown hfile, op, hmem⟩

theorem bytesOf_one {u : Disk FileName} {i : Nat}
    (hfile : u.entryAt (store.root ++ relative ++ [name]) = some (.file i)) :
    store.bytesOf [(relative ++ [name], u)] = (u.inodes i).content.length := by
  rw [List.append_assoc] at hfile
  simp only [WorkspaceStore.bytesOf, List.map_singleton, List.sum_singleton, WorkspaceStore.describe,
    fileData_of_file hfile]
  rfl

/-- What the scan does with an open file. -/
theorem beside_readEntry {i : Nat} (hs : Orderly store s) (hi : Shown store s i) (path : JSString)
    {post : Except StoreFailure (Stat × Bytes) → Disk FileName × Moments → Prop}
    (h : ∀ t more, Orderly store t → Stays store s t →
      post (.ok (FsOp.statOf s (.file i), (s.inodes i).content)) (t, looks ++ more)) :
    (Prog.ensuring (do
        let openedInfo ← fs (.fstat (.file i))
        WorkspaceStore.assertRegularFile openedInfo path
        let content ← fs (.readFile (.file i))
        pure (openedInfo, content)) (fs (.close (.file i)))).wp (StoreOp.Beside store)
      (fun _ _ => True) post (s, looks) := by
  refine beside_ensuring_close ?_
  rw [Prog.wp_bind]
  refine wp_look_fstat hs hi fun t ht hstays => ?_
  refine beside_refuseIf_bind (fun hno => absurd rfl hno) fun _ => ?_
  obtain ⟨hi', hsame⟩ := hstays.inodes i hi
  rw [Prog.wp_bind]
  refine wp_look_readFile ht hi' fun u hu hstays' => ⟨hu, fun v hv hstays'' => ?_⟩
  rw [hsame, List.append_assoc, List.append_assoc]
  exact h v _ hv ((hstays.trans hstays').trans hstays'')

/-- What is open but no file is refused. -/
theorem beside_readOther (hs : Orderly store s) (path : JSString)
    {post : Except StoreFailure (Stat × Bytes) → Disk FileName × Moments → Prop}
    (h : ∀ t more e, Orderly store t → Stays store s t → e.status = 409 →
      post (.error (.workspace e)) (t, looks ++ more)) :
    (Prog.ensuring (do
        let openedInfo ← fs (.fstat .other)
        WorkspaceStore.assertRegularFile openedInfo path
        let content ← fs (.readFile .other)
        pure (openedInfo, content)) (fs (.close .other))).wp (StoreOp.Beside store)
      (fun _ _ => True) post (s, looks) := by
  refine beside_ensuring_close ?_
  rw [Prog.wp_bind]
  refine wp_look rfl hs fun t reply ht hstays hexec => ?_
  rw [FsOp.Exec.fstat_other hexec]
  refine beside_refuseIf_bind (fun _ => ⟨ht, fun u hu hstays' => ?_⟩)
    fun hno => absurd (by simp [FsOp.statOf]) hno
  rw [List.append_assoc]
  exact h u _ _ hu (hstays.trans hstays') rfl

/-- **One entry of a directory**, amid drifts. -/
theorem beside_visitEntry {visit : Location → JSString → ScanState → StoreProg ScanState}
    (hpath : IsVisitPath store relative) (hshown : ∀ n ∈ relative, isHidden n = false)
    (hvalid : isHidden name = false → IsWorkspacePath store.platform (pathOf (relative ++ [name])))
    (hs : Orderly store s) (hdir : s.entryAt (store.root ++ relative) = some .dir)
    (hvisit : isHidden name = false → ∀ s looks, Orderly store s →
      s.entryAt (store.root ++ (relative ++ [name])) = some .dir →
      (visit (store.root ++ (relative ++ [name])) (pathOf (relative ++ [name])) state).wp
        (StoreOp.Beside store) (fun _ _ => True)
        (Toured store (fun q => ∃ n, AtEntry (relative ++ [name]) n q) state s looks) (s, looks)) :
    (store.visitEntry visit (store.root ++ relative) (pathOf relative) state name).wp
      (StoreOp.Beside store) (fun _ _ => True)
      (Toured store (AtEntry relative name) state s looks) (s, looks) := by
  unfold WorkspaceStore.visitEntry
  by_cases hhidden : isHidden name = true
  · rw [if_pos hhidden]
    refine ⟨hs, .refl store s, [], by simp, [], ⟨List.nodup_nil, by simp⟩, ?_, by
      simp [WorkspaceStore.describeAll], rfl⟩
    rintro q ⟨rest, rfl⟩ hq -
    have hname := (isShown_iff.mp hq).2 name (by simp)
    rw [hhidden] at hname
    cases hname
  rw [Bool.not_eq_true] at hhidden
  have hisShown := isShown_child hshown hhidden
  have hlast : (store.root ++ relative ++ [name]).dropLast = store.root ++ relative :=
    List.dropLast_concat
  have hlocate {u : Disk FileName} (hu : u.entryAt (store.root ++ relative) = some .dir) :
      u.locate false (store.root ++ relative ++ [name]) = .ok (store.root ++ relative ++ [name]) :=
    Disk.locate_eq (by simp) (by rwa [hlast])
  rw [if_neg (by simp [hhidden])]
  dsimp only
  rw [fileName_text, childPathOf_pathOf hpath, Prog.wp_bind, Prog.wp_ofExcept]
  rcases parsePath_cases store (pathOf (relative ++ [name]))
    with ⟨-, normalized, -, hparse⟩ | ⟨hinvalid, -⟩
  swap
  · exact absurd (hvalid hhidden) hinvalid
  rw [hparse, Prog.afterBind_ok, Prog.wp_bind]
  -- what stands there now
  refine wp_look rfl hs fun u reply hu hstays hexec => ?_
  have hdir' := hstays.dirs _ hdir
  have hreply := (FsOp.Exec.lstat hexec (hlocate hdir')).2.resolve_left (by simp)
  cases hentry : u.entryAt (store.root ++ relative ++ [name]) with
  | none =>
      rw [hentry] at hreply
      rw [hreply]
      exact ⟨hu, hstays, _, rfl, .inr (.inr ⟨rfl, [], u, _, _, rfl, .inl rfl, hentry⟩)⟩
  | some e =>
  rw [hentry] at hreply
  rw [hreply]
  have hkind := (hu.clean _ hisShown e (by rwa [← List.append_assoc])).2
  refine beside_refuseIf_bind (fun hunsafe => absurd hunsafe ?_) fun _ => ?_
  · rcases hkind with rfl | ⟨i, rfl⟩ <;> simp [FsOp.statOf]
  rcases hkind with rfl | ⟨i, rfl⟩
  · have hkind : (FsOp.statOf u (.dir : Entry FileName)).kind = .dir := rfl
    rw [if_pos hkind, List.append_assoc]
    refine Prog.wp_post ?_ (hvisit hhidden u _ hu (by rwa [← List.append_assoc]))
    rintro r v ⟨hv, hstays', more, hmore, htour⟩
    refine ⟨hv, hstays.trans hstays', _, by rw [hmore, List.append_assoc], ?_⟩
    have hbelow (q : Location) (hq : ∃ n, AtEntry (relative ++ [name]) n q) :
        AtEntry relative name q := by
      obtain ⟨n, hq⟩ := hq
      exact (List.prefix_append _ _).trans hq
    cases r with
    | error e => exact Fails.mono htour hbelow _
    | ok state' =>
        obtain ⟨seen, hseen, hcomplete, hgathered⟩ := htour
        refine ⟨seen, hseen.mono hbelow fun look hlook => List.mem_append_right _ hlook, ?_, hgathered⟩
        intro q hq hqshown hsteady
        refine hcomplete q ?_ hqshown fun look hlook => hsteady look (List.mem_append_right _ hlook)
        obtain ⟨rest, rfl⟩ := hq
        cases rest with
        | nil =>
            -- it was a directory at the first look
            obtain ⟨-, i, hi⟩ := isShown_of_mem (hsteady _ (List.mem_append_left _
              (List.mem_singleton_self _)))
            rw [List.append_nil, ← List.append_assoc, hentry] at hi
            cases hi
        | cons n rest => exact ⟨n, rest, by simp⟩
  · rw [if_neg (by simp [FsOp.statOf])]
    refine beside_refuseIf_bind (fun hcount => ?_) fun hcount => ?_
    · refine ⟨hu, hstays, _, rfl, .inl ⟨⟨_, rfl, rfl⟩, _, sighted_one hisShown hentry
        (List.mem_singleton_self _), .inl ?_⟩⟩
      rw [List.length_singleton]
      omega
    rw [Prog.wp_bind]
    refine wp_look rfl hu fun t reply ht hstays' hexec => ?_
    have hreply := FsOp.Exec.openRead_entry hexec (hlocate (hstays'.dirs _ hdir'))
    cases hopened : t.entryAt (store.root ++ relative ++ [name]) with
    | none =>
        rw [hopened] at hreply
        rw [hreply]
        exact ⟨ht, hstays.trans hstays', _, List.append_assoc .., .inr (.inr ⟨rfl, _, t, _, _, rfl,
          .inr rfl, hopened⟩)⟩
    | some e =>
        rw [hopened] at hreply
        obtain ⟨-, rfl | ⟨j, rfl⟩⟩ := ht.clean _ hisShown e (by rwa [← List.append_assoc])
        · -- a directory took the place of the file
          obtain rfl : reply = .ok .other := hreply
          show Prog.afterBind _ _ _ _ (.ok _) _
          rw [Prog.afterBind_ok, Prog.wp_bind]
          refine beside_readOther ht _ fun v more e hv hstays'' hstatus => ?_
          refine ⟨hv, (hstays.trans hstays').trans hstays'', _, by rw [List.append_assoc, List.append_assoc],
            .inr (.inl ⟨⟨e, rfl, hstatus⟩, t, _, ?_, hopened⟩)⟩
          exact List.mem_append_right _ (List.mem_cons_self ..)
        · have hfile : t.entryAt (store.root ++ (relative ++ [name])) = some (.file j) := by
            rwa [← List.append_assoc]
          have hcontent : (store.fileMap t).files.lookup (relative ++ [name])
              = some (t.inodes j).content := lookup_of_file hisShown hfile
          have hsmall := Nat.not_lt.mpr (ht.within.value_le _ _ hcontent)
          have hmem {more : Moments} : (t, StoreOp.fs (.openRead (store.root ++ relative ++ [name]))) ∈
              [(u, StoreOp.fs (.lstat (store.root ++ relative ++ [name])))] ++
                ([(t, .fs (.openRead (store.root ++ relative ++ [name])))] ++ more) :=
            List.mem_append_right _ (List.mem_cons_self ..)
          obtain rfl : reply = .ok (.file j) := hreply
          show Prog.afterBind _ _ _ _ (.ok _) _
          rw [Prog.afterBind_ok, Prog.wp_bind]
          refine beside_readEntry ht (ht.shown hisShown hfile) _ fun v more hv hstays'' => ?_
          have hstays := (hstays.trans hstays').trans hstays''
          rw [List.append_assoc, List.append_assoc]
          refine beside_refuseIf_bind (fun hlarge => absurd hlarge hsmall) fun _ => ?_
          refine beside_refuseIf_bind (fun htotal => ?_) fun _ => ?_
          · refine ⟨hv, hstays, _, rfl, .inl ⟨⟨_, rfl, rfl⟩, _, sighted_one hisShown hopened hmem, .inr ?_⟩⟩
            rw [bytesOf_one hopened]
            exact htotal
          · exact ⟨hv, hstays, _, rfl, tour_file hisShown hopened hmem rfl⟩

theorem atEntry_unique {name' : FileName} {q : Location} (h : AtEntry relative name q)
    (h' : AtEntry relative name' q) : name = name' := by
  obtain ⟨rest, rfl⟩ := h
  obtain ⟨rest', heq⟩ := h'
  simp only [List.append_assoc, List.append_cancel_left_eq, List.cons_append, List.nil_append,
    List.cons.injEq] at heq
  exact heq.1.symm

/-- **The entries of a directory**, one after the other. -/
theorem beside_visitEntries {names : List FileName} (hnodup : names.Nodup)
    {visit : ScanState → FileName → StoreProg ScanState}
    (hvisit : ∀ name ∈ names, ∀ state s looks, Orderly store s →
      s.entryAt (store.root ++ relative) = some .dir →
      (visit state name).wp (StoreOp.Beside store) (fun _ _ => True)
        (Toured store (AtEntry relative name) state s looks) (s, looks))
    (hs : Orderly store s) (hdir : s.entryAt (store.root ++ relative) = some .dir) :
    (names.foldlM visit state).wp (StoreOp.Beside store) (fun _ _ => True)
      (Toured store (fun q => ∃ name ∈ names, AtEntry relative name q) state s looks) (s, looks) := by
  induction names generalizing state s looks with
  | nil =>
      refine ⟨hs, .refl store s, [], by simp, [], ⟨List.nodup_nil, by simp⟩, by simp [Complete], ?_, rfl⟩
      simp [WorkspaceStore.describeAll]
  | cons name names ih =>
      obtain ⟨hfresh, hnodup⟩ := List.nodup_cons.mp hnodup
      have hsplit : (fun q => ∃ n ∈ name :: names, AtEntry relative n q)
          = fun q => AtEntry relative name q ∨ ∃ n ∈ names, AtEntry relative n q :=
        funext fun q => propext (by simp)
      have hdisjoint (q : Location) (hq : AtEntry relative name q) :
          ¬ ∃ n ∈ names, AtEntry relative n q := by
        rintro ⟨n, hn, hq'⟩
        exact hfresh (atEntry_unique hq hq' ▸ hn)
      rw [List.foldlM_cons, Prog.wp_bind, hsplit]
      refine Prog.wp_post ?_ (hvisit name (List.mem_cons_self ..) state s looks hs hdir)
      rintro r ⟨t, looks'⟩ ⟨ht, hstays, more, rfl, htour⟩
      cases r with
      | error e =>
          exact ⟨ht, hstays, more, rfl, Fails.mono htour (fun q hq => .inl hq) []⟩
      | ok state' =>
          obtain ⟨seen, hseen, hcomplete, hgathered⟩ := htour
          have hrest : (names.foldlM visit state').wp (StoreOp.Beside store) (fun _ _ => True)
              (Toured store (fun q => ∃ n ∈ names, AtEntry relative n q) state' t (looks ++ more))
              (t, looks ++ more) :=
            ih hnodup (fun n hn => hvisit n (List.mem_cons_of_mem _ hn)) ht (hstays.dirs _ hdir)
          refine Prog.wp_post ?_ hrest
          rintro r v ⟨hv, hstays', more', hlooks, htour⟩
          refine ⟨hv, hstays.trans hstays', more ++ more', by rw [hlooks, List.append_assoc], ?_⟩
          cases r with
          | error e => exact Fails.after htour hseen hgathered hdisjoint
          | ok state'' =>
              obtain ⟨seen', hseen', hcomplete', hgathered'⟩ := htour
              exact ⟨seen ++ seen', hseen.append hseen' hdisjoint, hcomplete.append hcomplete',
                hgathered.append hgathered'⟩

/-- **A directory**, amid drifts. -/
theorem beside_visit (depth : Nat) (hpath : IsVisitPath store relative)
    (hshown : ∀ name ∈ relative, isHidden name = false) (hs : Orderly store s)
    (hdir : s.entryAt (store.root ++ relative) = some .dir)
    (hdepth : MAX_PATH_DEPTH < depth + relative.length) :
    (store.visit depth (store.root ++ relative) (pathOf relative) state).wp (StoreOp.Beside store)
      (fun _ _ => True) (Toured store (fun q => ∃ n, AtEntry relative n q) state s looks) (s, looks) := by
  induction depth generalizing relative state s looks with
  | zero =>
      exfalso
      rcases hpath with rfl | hvalid
      · simp at hdepth
      · have := length_le_of_valid hvalid
        omega
  | succ depth ih =>
      rw [WorkspaceStore.visit, Prog.wp_bind]
      refine wp_look rfl hs fun u reply hu hstays hexec => ?_
      have hdir' := hstays.dirs _ hdir
      have hreply := (FsOp.Exec.readdir hexec hdir').2.resolve_left (by simp)
      rw [hreply]
      have hvisit (name : FileName) (hname : name ∈ u.children (store.root ++ relative))
          (state : ScanState) (s : Disk FileName) (looks : Moments) (hs : Orderly store s)
          (hdir : s.entryAt (store.root ++ relative) = some .dir) :
          (store.visitEntry (store.visit depth) (store.root ++ relative) (pathOf relative) state name).wp
            (StoreOp.Beside store) (fun _ _ => True)
            (Toured store (AtEntry relative name) state s looks) (s, looks) := by
        obtain ⟨e, hentry⟩ := Option.ne_none_iff_exists'.mp (Disk.mem_children.mp hname)
        have hvalid (hvisible : isHidden name = false) :
            IsWorkspacePath store.platform (pathOf (relative ++ [name])) :=
          (hu.clean _ (isShown_child hshown hvisible) e (by rwa [← List.append_assoc])).1
        refine beside_visitEntry hpath hshown hvalid hs hdir fun hvisible s looks hs hchild => ?_
        refine ih (.inr (hvalid hvisible)) ?_ hs hchild ?_
        · exact (isShown_iff.mp (isShown_child hshown hvisible)).2
        · rw [List.length_append, List.length_singleton]
          omega
      refine Prog.wp_post ?_ (beside_visitEntries (u.nodup_children _) hvisit hu hdir')
      rintro r v ⟨hv, hstays', more, hlooks, htour⟩
      refine ⟨hv, hstays.trans hstays', _, by rw [hlooks, List.append_assoc], ?_⟩
      have hbelow (q : Location)
          (hq : ∃ name ∈ u.children (store.root ++ relative), AtEntry relative name q) :
          ∃ n, AtEntry relative n q := by
        obtain ⟨name, -, hq⟩ := hq
        exact ⟨name, hq⟩
      cases r with
      | error e => exact Fails.mono htour hbelow _
      | ok state' =>
          obtain ⟨seen, hseen, hcomplete, hgathered⟩ := htour
          refine ⟨seen, hseen.mono hbelow fun look hlook => List.mem_append_right _ hlook, ?_, hgathered⟩
          rintro q ⟨n, hq⟩ hqshown hsteady
          refine hcomplete q ?_ hqshown fun look hlook => hsteady look (List.mem_append_right _ hlook)
          -- it was there when the directory was read
          have hthere := hsteady _ (List.mem_append_left _ (List.mem_singleton_self _))
          obtain ⟨name, hname, -, hat⟩ :=
            (under_dir hdir').mp ⟨hthere, (List.prefix_append _ _).trans hq⟩
          exact ⟨name, hname, hat⟩

/-- **The whole scan**, amid drifts. -/
theorem beside_scan (hs : Orderly store s) :
    store.scan.wp (StoreOp.Beside store) (fun _ _ => True)
      (fun r v => (∃ files seen, r = .ok files ∧ files.Perm (store.describeAll seen) ∧
          Sighted store (fun _ => True) v.2 seen ∧ Complete store (fun _ => True) v.2 seen) ∨
        Fails store (fun _ => True) ⟨[], 0⟩ v.2 r) (s, []) := by
  have hvisit : (store.visit (MAX_PATH_DEPTH + 1) (store.root ++ []) (pathOf []) ⟨[], 0⟩).wp
      (StoreOp.Beside store) (fun _ _ => True)
      (Toured store (fun q => ∃ n, AtEntry [] n q) ⟨[], 0⟩ s []) (s, []) :=
    beside_visit (MAX_PATH_DEPTH + 1) (.inl rfl) (List.forall_mem_nil _) hs
      (by rw [List.append_nil]; exact hs.root) (by simp)
  rw [List.append_nil] at hvisit
  rw [WorkspaceStore.scan, Prog.wp_bind]
  refine Prog.wp_post ?_ hvisit
  rintro r v ⟨-, -, more, hlooks, htour⟩
  rw [List.nil_append] at hlooks
  cases r with
  | error e =>
      have hfails := Fails.mono htour (fun q _ => trivial) []
      rw [List.nil_append, ← hlooks] at hfails
      refine .inr ?_
      rcases hfails with ⟨hrefusal, hseen⟩ | ⟨hrefusal, hdisplaced⟩ | ⟨hgone, hlast⟩
      · exact .inl ⟨hrefusal.cast, hseen⟩
      · exact .inr (.inl ⟨hrefusal.cast, hdisplaced⟩)
      · exact .inr (.inr ⟨by rw [Except.error.inj hgone], hlast⟩)
  | ok state' =>
      obtain ⟨seen, hseen, hcomplete, hfiles, -⟩ := htour
      refine .inl ⟨_, seen, rfl, ?_, ?_, ?_⟩
      · rw [hfiles, List.nil_append]
        exact List.mergeSort_perm _ _
      · exact hseen.mono (fun _ _ => trivial) fun look hlook => hlooks ▸ hlook
      · intro q _ hq hsteady
        cases q with
        | nil => exact absurd rfl (isShown_iff.mp hq).1
        | cons n rest =>
            exact hcomplete _ ⟨n, rest, by simp⟩ hq fun look hlook => hsteady look (hlooks ▸ hlook)

end Scanning

/-! ## Runs -/

theorem looks_list : store.list.Only StoreOp.Looks :=
  Prog.only_bind looks_scan fun _ => Prog.only_pure _

/-- **Listing beside mutations.**  Let writes and deletions run concurrently on a workspace that was in
good order, and let a `list` begin at any time, its operations falling anywhere between theirs.  It can
always be finished.  When it succeeds, each entry tells what its path held at a moment of the call, no
path is listed twice, and every file that was there at all these moments is listed.  It fails only when
what it saw at different moments is beyond the limits, a directory took the place of a file, or an
entry was gone. -/
theorem WorkspaceStore.list_beside (store : WorkspaceStore) {d : Disk FileName}
    (hgood : store.Good d) {m : StoreSystem store}
    (hm : Mutex.Reachable (StoreOp.Exec false) Mutation.body d m)
    {o : Overlap (Mutation store) StoreOp StoreOp.Reply StoreFailure (Option WorkspaceFileMetadata)
      (JSString × List WorkspaceFileMetadata) (Disk FileName)}
    (hrun : Overlap.Run (StoreOp.Exec false) Mutation.body (fun _ _ _ => True) m store.list o) :
    Overlap.Fares (StoreOp.Exec false) (fun r looks =>
      (∃ files seen, r = .ok (store.workspaceId, files) ∧ files.Perm (store.describeAll seen) ∧
          Sighted store (fun _ => True) looks seen ∧ Complete store (fun _ => True) looks seen) ∨
        Fails store (fun _ => True) ⟨[], 0⟩ looks r) o := by
  refine fares_beside hgood.orderly hm looks_list (fun hs => ?_) hrun
  rw [WorkspaceStore.list, Prog.wp_bind]
  refine Prog.wp_post ?_ (beside_scan hs)
  rintro r v (⟨files, seen, rfl, hperm, hseen, hcomplete⟩ | hfails)
  · exact .inl ⟨files, seen, rfl, hperm, hseen, hcomplete⟩
  · cases r with
    | ok files =>
        rcases hfails with ⟨⟨e, he, -⟩, -⟩ | ⟨⟨e, he, -⟩, -⟩ | ⟨he, -⟩ <;> cases he
    | error e =>
        refine .inr ?_
        rcases hfails with ⟨hrefusal, hseen⟩ | ⟨hrefusal, hdisplaced⟩ | ⟨hgone, hlast⟩
        · exact .inl ⟨hrefusal.cast, hseen⟩
        · exact .inr (.inl ⟨hrefusal.cast, hdisplaced⟩)
        · exact .inr (.inr ⟨by rw [Except.error.inj hgone], hlast⟩)

namespace EmptyWorkspace

/-- A list of the workspace with one file. -/
abbrev Listing := Overlap (Mutation papers) StoreOp StoreOp.Reply StoreFailure
  (Option WorkspaceFileMetadata) (JSString × List WorkspaceFileMetadata) (Disk FileName)

def listing : Listing := ⟨oneFile, papers.list, []⟩

/-- It reads the root; another call runs to its end; it goes on. -/
def listingBeside (call : Mutation papers) : Listing :=
  ((listing.proceed (StoreOp.plain 0 uuid) 1).settling (StoreOp.plain 0 uuid) Mutation.body call).proceed
    (StoreOp.plain 0 uuid) 5

theorem run_listingBeside (call : Mutation papers) : Overlap.Run (StoreOp.Exec false) Mutation.body
    (fun _ _ _ => True) oneFile papers.list (listingBeside call) := by
  have hlooked : Overlap.Run (StoreOp.Exec false) Mutation.body (fun _ _ _ => True) oneFile papers.list
      (listing.proceed (StoreOp.plain 0 uuid) 1) :=
    Overlap.Run.start.proceed (StoreOp.exec_plain 0 uuid) (fun _ _ _ => trivial) 1
  have hidle : (listing.proceed (StoreOp.plain 0 uuid) 1).system.queue = [] :=
    Overlap.queue_proceed 1 listing
  exact (hlooked.settling (StoreOp.exec_plain 0 uuid) call hidle).proceed (StoreOp.exec_plain 0 uuid)
    (fun _ _ _ => trivial) 5

end EmptyWorkspace

open EmptyWorkspace in
/-- An update falls behind the look at the root: the list ends with the new version. -/
theorem WorkspaceStore.list_beside_update :
    (returned (listingBeside update).reader).map (fun result => result.2.map fun file => file.etag)
        = some [js "\"sha256-b2s=\""] ∧
      Overlap.Fares (StoreOp.Exec false) (fun r looks =>
        (∃ files seen, r = .ok (papers.workspaceId, files) ∧ files.Perm (papers.describeAll seen) ∧
            Sighted papers (fun _ => True) looks seen ∧ Complete papers (fun _ => True) looks seen) ∨
          Fails papers (fun _ => True) ⟨[], 0⟩ looks r) (listingBeside update) :=
  ⟨by decide +kernel, papers.list_beside good oneFile_reachable (run_listingBeside update)⟩

open EmptyWorkspace in
/-- A deletion falls there: the list fails with an error that is no refusal. -/
theorem WorkspaceStore.list_gone : thrown (listingBeside removal).reader = some (.errno .noEntry) := by
  decide +kernel

end Typr
