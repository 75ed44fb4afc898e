import TyprCompanion.Workspace.Scanning

/-!
# Changing the tree

What `resolveForWrite` and the replacement of a file do on an arbitrary disk, with the reasons why
every operation is confined and keeps the quota.

* `allowed_*` — the quota argument for each operation: directories and temporary files are not
  shown, and the final rename shows one new content.
* **`wp_makeParents`** — `resolveForWrite` adds directories on the way and nothing else.
* **`wp_replaceFile`** — the destination gets the new content as a whole, or the replacement fails.
-/

namespace Typr

open Core

variable {store : WorkspaceStore} {faulty : Bool} {d : Disk FileName}

/-- A location past a hidden name. -/
def IsHiddenBelow (root p : Location) : Prop :=
  ∃ relative, p = root ++ relative ∧ ∃ name ∈ relative, isHidden name = true

theorem IsHiddenBelow.ne_shown {root p relative : Location} (h : IsHiddenBelow root p)
    (hshown : isShown relative = true) : root ++ relative ≠ p := by
  rintro rfl
  obtain ⟨relative', heq, name, hname, hhidden⟩ := h
  obtain rfl : relative = relative' := List.append_cancel_left heq
  have := (isShown_iff.mp hshown).2 name hname
  simp [hhidden] at this

/-! ## Quota -/

/-- An operation none of whose outcomes is shown. -/
theorem allowed_of_notShown {op : FsOp FileName} (hconfined : Confined store.root d (.fs op))
    (h : ∀ reply d', op.Exec faulty d reply d' → ∀ relative, isShown relative = true →
      d'.contentAt (store.root ++ relative) = d.contentAt (store.root ++ relative)) :
    store.Allowed faulty d (.fs op) :=
  ⟨hconfined, fun reply d' hexec hlimits =>
    hlimits.congr (shownFiles_congr (h reply d' hexec))⟩

theorem allowed_mkdir {p : Location} {mode : Nat} (h : Inside store.root d p)
    (hfree : d.entryAt p = none) : store.Allowed faulty d (.fs (.mkdir p mode)) := by
  refine allowed_of_notShown h fun reply d' hexec relative _ => ?_
  rcases hexec.mkdir h.locate hfree with ⟨-, rfl⟩ | ⟨-, -, rfl⟩
  · exact Disk.contentAt_put_dir ⟨h.ne_nil, h.parent, by simp [hfree], trivial⟩ hfree _
  · rfl

theorem allowed_openCreate {p : Location} {mode : Nat} (h : Inside store.root d p)
    (hhidden : IsHiddenBelow store.root p) :
    store.Allowed faulty d (.fs (.openCreate p mode)) := by
  refine allowed_of_notShown h fun reply d' hexec relative hshown => ?_
  rcases hexec.openCreate h.locate with ⟨hfree, -, now, rfl⟩ | ⟨-, -, rfl⟩ | ⟨-, -, rfl⟩
  · refine Disk.contentAt_congr ?_ fun i hi => FsOp.inodes_created (Disk.fresh_entryAt hi)
    rw [FsOp.entryAt_created h.ne_nil h.parent hfree, if_neg (hhidden.ne_shown hshown)]
  · rfl
  · rfl

/-- The inode of a temporary file has no other name. -/
def OnlyAt (d : Disk FileName) (i : Nat) (p : Location) : Prop :=
  ∀ q, d.entryAt q = some (.file i) ↔ q = p

theorem allowed_writeFile {p : Location} {i : Nat} {content : Bytes} (h : Inside store.root d p)
    (honly : OnlyAt d i p) (hhidden : IsHiddenBelow store.root p) :
    store.Allowed faulty d (.fs (.writeFile (.file i) content)) := by
  have hfile : d.entryAt p = some (.file i) := (honly p).mpr rfl
  refine allowed_of_notShown ⟨⟨i, p, rfl, h, hfile⟩, ?_⟩ fun reply d' hexec relative hshown => ?_
  · rintro j q hj hq
    obtain rfl : i = j := by simpa using hj
    exact (honly q).mp hq ▸ h
  · have hne : d.entryAt (store.root ++ relative) ≠ some (.file i) := fun heq =>
      hhidden.ne_shown hshown ((honly _).mp heq)
    rcases hexec.writeFile with ⟨-, now, rfl⟩ | ⟨-, -, data, -, rfl⟩
    · exact Disk.contentAt_setInode hne
    · exact Disk.contentAt_setInode hne

theorem allowed_rmForce {p : Location} (h : Inside store.root d p)
    (hhidden : IsHiddenBelow store.root p) : store.Allowed faulty d (.fs (.rmForce p)) := by
  refine allowed_of_notShown h fun reply d' hexec relative hshown => ?_
  rcases hexec.rmForce h.locate with ⟨hdir, -, rfl⟩ | ⟨-, rfl, -⟩
  · split
    · rfl
    · rw [Disk.contentAt_remove hdir, if_neg (hhidden.ne_shown hshown)]
  · rfl

/-- The rename that publishes a write keeps the quota when the checks before it did. -/
theorem allowed_rename {p : Location} {relative : Location} {i : Nat}
    (h : Inside store.root d p) (hhidden : IsHiddenBelow store.root p)
    (hfile : d.entryAt p = some (.file i)) (hshown : isShown relative = true)
    (htarget : Inside store.root d (store.root ++ relative))
    (hquota : store.WithinLimits d → store.limits.bounds.Holds List.length
      ((shownFiles store.root d).insert relative (d.inodes i).content)) :
    store.Allowed faulty d (.fs (.rename p (store.root ++ relative))) := by
  refine ⟨⟨h, htarget, i, hfile⟩, fun reply d' hexec hlimits => ?_⟩
  have hne : p ≠ store.root ++ relative := fun heq => hhidden.ne_shown hshown heq.symm
  rcases hexec.rename h.locate htarget.locate hne hfile
    with ⟨hdir, -, rfl⟩ | ⟨-, -, rfl⟩ | ⟨-, -, rfl⟩
  · have hentry := FsOp.entryAt_renamed htarget.ne_nil htarget.parent hdir hfile
    have hfiles : shownFiles store.root (FsOp.renamed d p (store.root ++ relative) (.file i))
        = (shownFiles store.root d).insert relative (d.inodes i).content := by
      refine shownFiles_insert hshown ?_ fun other hother hdiff => ?_
      · rw [Disk.contentAt_file (i := i) (by rw [hentry, if_pos rfl]), FsOp.inodes_renamed]
      · refine Disk.contentAt_congr ?_ (by simp)
        rw [hentry, if_neg (fun heq => hdiff (List.append_cancel_left heq)),
          if_neg (hhidden.ne_shown hother)]
    unfold WorkspaceStore.WithinLimits
    rw [hfiles]
    exact hquota hlimits
  · exact hlimits
  · exact hlimits

theorem allowed_unlink {relative : Location} {i : Nat}
    (h : Inside store.root d (store.root ++ relative))
    (hfile : d.entryAt (store.root ++ relative) = some (.file i)) :
    store.Allowed faulty d (.fs (.unlink (store.root ++ relative))) := by
  refine ⟨⟨h, i, hfile⟩, fun reply d' hexec hlimits => ?_⟩
  rcases hexec.unlink h.locate hfile with ⟨-, rfl⟩ | ⟨-, -, rfl⟩
  · have hremove := Disk.contentAt_remove (d := d) (p := store.root ++ relative) (by simp [hfile])
    have hfiles : shownFiles store.root (d.remove (store.root ++ relative))
        = (shownFiles store.root d).erase relative := by
      refine shownFiles_erase (by rw [hremove, if_pos rfl]) fun other _ hdiff => ?_
      rw [hremove, if_neg (fun heq => hdiff (List.append_cancel_left heq))]
    unfold WorkspaceStore.WithinLimits
    rw [hfiles]
    exact Bounds.Holds.erase hlimits relative
  · exact hlimits

/-! ## Missing directories -/

/-- The disk grew by directories on the way from `current` along `names`. -/
structure Grown (d t : Disk FileName) (current names : Location) : Prop where
  entry : ∀ q, t.entryAt q = d.entryAt q ∨ (d.entryAt q = none ∧ t.entryAt q = some .dir ∧
    ∃ before, before ≠ [] ∧ before <+: names ∧ q = current ++ before)
  inodes : t.inodes = d.inodes
  nextInode : t.nextInode = d.nextInode

theorem Grown.refl (d : Disk FileName) (current names : Location) : Grown d d current names :=
  ⟨fun _ => .inl rfl, rfl, rfl⟩

/-- What was there stays there. -/
theorem Grown.entry_of_some {t : Disk FileName} {current names q : Location} {e : Entry FileName}
    (h : Grown d t current names) (hq : d.entryAt q = some e) : t.entryAt q = some e := by
  rcases h.entry q with heq | ⟨hnone, -, -⟩
  · rw [heq, hq]
  · simp [hnone] at hq

theorem Grown.step {t u : Disk FileName} {current rest : Location} {name : FileName}
    (h : Grown d t current [name]) (h' : Grown t u (current ++ [name]) rest) :
    Grown d u current (name :: rest) where
  entry := by
    intro q
    rcases h'.entry q with heq | ⟨hnone, hdir, before, hne, habove, rfl⟩
    · rw [heq]
      rcases h.entry q with heq | ⟨hnone, hdir, before, hne, habove, rfl⟩
      · exact .inl heq
      · exact .inr ⟨hnone, hdir, before, hne, habove.trans (by simp), rfl⟩
    · refine .inr ⟨?_, hdir, name :: before, by simp, ?_, by simp⟩
      · by_contra hsome
        obtain ⟨e, he⟩ := Option.ne_none_iff_exists'.mp hsome
        rw [h.entry_of_some he] at hnone
        exact absurd hnone (by simp)
      · exact List.cons_prefix_cons.mpr ⟨rfl, habove⟩
  inodes := h'.inodes.trans h.inodes
  nextInode := h'.nextInode.trans h.nextInode

/-- What making directories ends with: the last of them, a failure of the environment, or a 409
because something else stands on the way. -/
def ParentsOutcome (faulty : Bool) (d : Disk FileName) (current names : Location)
    (r : Except StoreFailure Location) (t : Disk FileName) : Prop :=
  match r with
  | .ok parent =>
      parent = current ++ names ∧ t.entryAt parent = some .dir ∧ Grown d t current names
  | .error _ => faulty = true ∨ ∃ before e, before ≠ [] ∧ before <+: names ∧
      d.entryAt (current ++ before) = some e ∧ e ≠ .dir

/-- One directory. -/
theorem wp_makeDirectory {p : Location} (h : Inside store.root d p) :
    (WorkspaceStore.makeDirectory p).wp (StoreOp.Exec faulty) (store.Allowed faulty)
      (fun r t => match r with
        | .ok () => (d.entryAt p = some .dir ∧ t = d) ∨ (d.entryAt p = none ∧ t = d.put p .dir)
        | .error _ => faulty = true ∨ ∃ e, d.entryAt p = some e ∧ e ≠ .dir) d := by
  -- the body: a directory passes, anything else is refused, a missing entry is reported
  have hbody : ((do
      let info ← fs (.lstat p)
      refuseIf (info.kind = .link ∨ info.kind ≠ .dir) 409 (js "workspace-path-conflict")
        (js "Workspace path crosses an unsafe entry.") : StoreProg Unit)).wp (StoreOp.Exec faulty)
      (store.Allowed faulty) (Reads faulty d fun r => match d.entryAt p with
        | none => r = .error (.errno .noEntry)
        | some e => if e = .dir then r = .ok () else IsRefusal 409 r) d := by
    refine Reads.seq (wp_lstat h) ?_ ?_
    · intro info hinfo
      cases hentry : d.entryAt p with
      | none => simp [hentry] at hinfo
      | some e =>
          obtain rfl : info = FsOp.statOf d e := by simpa [hentry] using hinfo
          rw [refuseIf, Prog.wp_throwIf]
          by_cases hdir : e = .dir
          · subst hdir
            exact ⟨fun h => absurd h (by simp [FsOp.statOf]), fun _ => ⟨rfl, .inr (by simp)⟩⟩
          · refine ⟨fun _ => ⟨rfl, .inr ?_⟩, fun hkind => absurd ?_ hkind⟩
            · simp only [if_neg hdir]
              exact ⟨_, rfl, rfl⟩
            · cases e <;> simp [FsOp.statOf] at hdir ⊢
    · intro e he
      cases hentry : d.entryAt p with
      | none => simpa [hentry] using he
      | some e' => simp [hentry] at he
  refine Reads.tryCatch hbody (fun hfaulty => .inl hfaulty) ?_ ?_
  · intro a ha
    cases hentry : d.entryAt p with
    | none => simp [hentry] at ha
    | some e =>
        simp only [hentry] at ha
        by_cases hdir : e = .dir
        · exact .inl ⟨by rw [hdir], rfl⟩
        · rw [if_neg hdir] at ha
          obtain ⟨_, h, -⟩ := ha
          exact absurd h (by simp)
  · intro e he
    cases hentry : d.entryAt p with
    | some e' =>
        simp only [hentry] at he
        by_cases hdir : e' = .dir
        · simp [hdir] at he
        · rw [if_neg hdir] at he
          obtain ⟨w, hw, -⟩ := he
          obtain rfl : e = .workspace w := by simpa using hw
          rw [if_neg (by simp)]
          exact .inr ⟨e', rfl, hdir⟩
    | none =>
        simp only [hentry] at he
        obtain rfl : e = .errno .noEntry := by simpa using he
        rw [if_pos rfl]
        refine wp_fs.mpr ⟨allowed_mkdir h hentry, fun reply t hexec => ?_⟩
        rcases hexec.mkdir h.locate hentry with ⟨rfl, rfl⟩ | ⟨hfaulty, rfl, -⟩
        · exact .inr ⟨rfl, rfl⟩
        · exact .inl hfaulty

/-- A directory that was there or was just made. -/
theorem grown_of_makeDirectory {relative : Location} {name : FileName} {t : Disk FileName}
    (hinside : Inside store.root d (store.root ++ relative ++ [name]))
    (h : (d.entryAt (store.root ++ relative ++ [name]) = some .dir ∧ t = d) ∨
      (d.entryAt (store.root ++ relative ++ [name]) = none ∧
        t = d.put (store.root ++ relative ++ [name]) .dir)) :
    t.entryAt (store.root ++ relative ++ [name]) = some .dir ∧
      Grown d t (store.root ++ relative) [name] := by
  rcases h with ⟨hdir, rfl⟩ | ⟨hnone, rfl⟩
  · exact ⟨hdir, Grown.refl ..⟩
  · have hput : ∀ q, (d.put (store.root ++ relative ++ [name]) .dir).entryAt q
          = if q = store.root ++ relative ++ [name] then some .dir else d.entryAt q :=
      Disk.entryAt_put ⟨hinside.ne_nil, hinside.parent, by rw [hnone]; simp, trivial⟩
    refine ⟨by rw [hput, if_pos rfl], ⟨fun q => ?_, by simp, by simp⟩⟩
    by_cases hq : q = store.root ++ relative ++ [name]
    · subst hq
      exact .inr ⟨hnone, by rw [hput, if_pos rfl], [name], by simp, List.prefix_rfl, rfl⟩
    · exact .inl (by rw [hput, if_neg hq])

/-- **`resolveForWrite`** makes the directories on the way to the destination. -/
theorem wp_makeParents (store : WorkspaceStore) (faulty : Bool) (relative : Location)
    (segments : List JSString)
    (hgit : gitName ∉ relative ++ segments.map fileName)
    (hdir : d.entryAt (store.root ++ relative) = some .dir) :
    (WorkspaceStore.makeParents (store.root ++ relative) segments).wp (StoreOp.Exec faulty)
      (store.Allowed faulty)
      (ParentsOutcome faulty d (store.root ++ relative) (segments.map fileName)) d := by
  induction segments generalizing relative d with
  | nil => exact ⟨by simp, hdir, Grown.refl ..⟩
  | cons segment rest ih =>
      have hsplit : relative ++ (segment :: rest).map fileName
          = (relative ++ [fileName segment]) ++ rest.map fileName := by simp
      have hchild : gitName ∉ relative ++ [fileName segment] :=
        fun hmem => hgit (by rw [hsplit]; exact List.mem_append_left _ hmem)
      have hinside := inside_child hchild hdir
      rw [WorkspaceStore.makeParents, Prog.wp_bind]
      refine Prog.wp_post ?_ (wp_makeDirectory hinside)
      rintro (e | ⟨⟩) t ht
      · refine ht.imp_right ?_
        rintro ⟨e, hentry, hne⟩
        exact ⟨[fileName segment], e, by simp, by simp, hentry, hne⟩
      · obtain ⟨hchildDir, hgrown⟩ := grown_of_makeDirectory hinside ht
        have hrec := ih (relative ++ [fileName segment]) (d := t)
          (by rwa [← hsplit]) (by rwa [← List.append_assoc])
        rw [← List.append_assoc] at hrec
        refine Prog.wp_post ?_ hrec
        rintro (e | parent) u hu
        · refine hu.imp_right ?_
          rintro ⟨before, e, hne, habove, hentry, hnotDir⟩
          refine ⟨fileName segment :: before, e, by simp,
            List.cons_prefix_cons.mpr ⟨rfl, habove⟩, ?_, hnotDir⟩
          -- an entry that is no directory was not made here
          rcases hgrown.entry (store.root ++ relative ++ [fileName segment] ++ before)
            with heq | ⟨-, hmade, -⟩
          · rw [heq] at hentry
            simpa using hentry
          · rw [hmade, Option.some.injEq] at hentry
            exact absurd hentry.symm hnotDir
        · obtain ⟨rfl, hparent, hgrown'⟩ := hu
          exact ⟨by simp, hparent, hgrown.step hgrown'⟩

/-! ## Replacing a file -/

/-- Closing a file, errors ignored. -/
theorem wp_quietlyClose {handle : Handle} (h : OpenInside store.root d handle)
    {post : Except StoreFailure Unit → Disk FileName → Prop} (hpost : post (.ok ()) d) :
    (WorkspaceStore.quietly (fs (.close handle))).wp (StoreOp.Exec faulty) (store.Allowed faulty)
      post d :=
  Reads.tryCatch (wp_close h) (fun _ => hpost) (fun _ _ => hpost) (fun _ _ => hpost)

/-- Removing a temporary file, errors ignored. -/
theorem wp_quietlyRemove {p : Location} (h : Inside store.root d p)
    (hhidden : IsHiddenBelow store.root p) {post : Except StoreFailure Unit → Disk FileName → Prop}
    (hpost : ∀ t, post (.ok ()) t) :
    (WorkspaceStore.quietly (fs (.rmForce p))).wp (StoreOp.Exec faulty) (store.Allowed faulty)
      post d := by
  rw [WorkspaceStore.quietly, Prog.wp_tryCatch]
  refine wp_fs.mpr ⟨allowed_rmForce h hhidden, fun reply t _ => ?_⟩
  cases reply with
  | ok => exact hpost t
  | error e => exact hpost t

/-- The destination of a replacement, and the temporary file next to it. -/
structure Replacement (store : WorkspaceStore) (d : Disk FileName) (temporary : Location)
    (relative : Location) (content : Bytes) : Prop where
  source : Inside store.root d temporary
  hidden : IsHiddenBelow store.root temporary
  destination : Inside store.root d (store.root ++ relative)
  shown : isShown relative = true
  notDir : d.entryAt (store.root ++ relative) ≠ some .dir
  quota : store.WithinLimits d → store.limits.bounds.Holds List.length
    ((shownFiles store.root d).insert relative content)

/-- The disk while the temporary file `i` is being filled: the rest is as it was. -/
structure Filling (d t : Disk FileName) (temporary : Location) (i : Nat) (mode : Nat) : Prop where
  entry : ∀ q, t.entryAt q = if q = temporary then some (.file i) else d.entryAt q
  free : d.entryAt temporary = none
  inode : i = d.nextInode
  mode_eq : (t.inodes i).mode = mode
  inodes : ∀ j, j < d.nextInode → t.inodes j = d.inodes j

theorem Filling.created {temporary : Location} (h : Inside store.root d temporary)
    (hfree : d.entryAt temporary = none) (mode now : Nat) :
    Filling d (FsOp.created d temporary mode now) temporary d.nextInode mode where
  entry := FsOp.entryAt_created h.ne_nil h.parent hfree
  free := hfree
  inode := rfl
  mode_eq := by simp [FsOp.created]
  inodes := fun _ => FsOp.inodes_created

theorem Filling.setInode {t : Disk FileName} {temporary : Location} {i mode : Nat}
    (h : Filling d t temporary i mode) (data : FileData) (hmode : data.mode = mode) :
    Filling d (t.setInode i data) temporary i mode where
  entry := h.entry
  free := h.free
  inode := h.inode
  mode_eq := by simpa using hmode
  inodes := by
    intro j hj
    have hne : j ≠ i := by
      rw [h.inode]
      exact Nat.ne_of_lt hj
    simp [hne, h.inodes j hj]

theorem Filling.onlyAt {t : Disk FileName} {temporary : Location} {i mode : Nat}
    (h : Filling d t temporary i mode) : OnlyAt t i temporary := by
  intro q
  rw [h.entry]
  by_cases hq : q = temporary
  · simp [hq]
  · rw [if_neg hq]
    refine iff_of_false (fun hfile => ?_) hq
    have hlt := Disk.fresh_entryAt hfile
    rw [h.inode] at hlt
    exact Nat.lt_irrefl _ hlt

theorem Filling.inside {t : Disk FileName} {temporary p : Location} {i mode : Nat}
    (h : Filling d t temporary i mode) (hp : Inside store.root d p) : Inside store.root t p where
  below := hp.below
  parent := by
    rw [h.entry, if_neg]
    · exact hp.parent
    · intro heq
      have hparent := hp.parent
      rw [heq, h.free] at hparent
      exact absurd hparent (by simp)

theorem Filling.shownFiles {t : Disk FileName} {temporary : Location} {i mode : Nat}
    (h : Filling d t temporary i mode) (hhidden : IsHiddenBelow store.root temporary) :
    shownFiles store.root t = shownFiles store.root d := by
  refine shownFiles_congr fun relative hshown => Disk.contentAt_congr ?_ ?_
  · rw [h.entry, if_neg (hhidden.ne_shown hshown)]
  · exact fun j hj => h.inodes j (Disk.fresh_entryAt hj)

/-- The disk after a replacement. -/
structure Replaced (d t : Disk FileName) (temporary destination : Location) (content : Bytes)
    (mode : Nat) : Prop where
  free : d.entryAt temporary = none
  entry : ∀ q, t.entryAt q = if q = destination then some (.file d.nextInode)
    else if q = temporary then none else d.entryAt q
  content_eq : (t.inodes d.nextInode).content = content
  mode_eq : (t.inodes d.nextInode).mode = mode
  inodes : ∀ j, j < d.nextInode → t.inodes j = d.inodes j

/-- Writing the content and closing the file. -/
theorem wp_filling {temporary relative : Location} {content : Bytes} {mode i : Nat}
    {t : Disk FileName} (h : Replacement store d temporary relative content)
    (hfilling : Filling d t temporary i mode) :
    (Prog.onError (do
        atomicWriteHook .write
        fs (.writeFile (.file i) content)
        atomicWriteHook .sync
        fs (.fsync (.file i))
        fs (.close (.file i))) (WorkspaceStore.quietly (fs (.close (.file i))))).wp
      (StoreOp.Exec faulty) (store.Allowed faulty)
      (fun r u => Filling d u temporary i mode ∧ match r with
        | .ok () => (u.inodes i).content = content
        | .error _ => faulty = true) t := by
  have hhook : ∀ (u : Disk FileName) (step : WriteStep), store.Allowed faulty u (.hook step) :=
    fun u step => ⟨trivial, fun _ _ hexec hlimits => hexec.1 ▸ hlimits⟩
  have hopen : ∀ {u}, Filling d u temporary i mode → OpenInside store.root u (.file i) :=
    fun hu => ⟨i, temporary, rfl, hu.inside h.source, (hu.onlyAt _).mpr rfl⟩
  rw [Prog.wp_onError]
  -- every failure leaves the file open, to be closed
  have hfail : ∀ {u : Disk FileName} (e : StoreFailure), Filling d u temporary i mode →
      faulty = true → Prog.afterCleanup (StoreOp.Exec faulty) (store.Allowed faulty)
        (fun r u => Filling d u temporary i mode ∧ match r with
          | .ok () => (u.inodes i).content = content
          | .error _ => faulty = true)
        (WorkspaceStore.quietly (fs (.close (.file i)))) (.error e : Except StoreFailure Unit) u :=
    fun _ hu hfaulty => wp_quietlyClose (hopen hu) ⟨hu, hfaulty⟩
  rw [Prog.wp_bind, wp_atomicWriteHook]
  refine ⟨hhook _ _, ?_, hfail (.hook .write) hfilling⟩
  rw [Prog.afterBind_ok, Prog.wp_bind]
  refine wp_fs.mpr ⟨allowed_writeFile (hfilling.inside h.source) hfilling.onlyAt h.hidden,
    fun reply u hexec => ?_⟩
  rcases hexec.writeFile with ⟨rfl, now, rfl⟩ | ⟨hfaulty, rfl, data, hmode, rfl⟩
  · have hwritten := hfilling.setInode { t.inodes i with content := content, mtimeMs := now }
      hfilling.mode_eq
    rw [afterFs, Prog.afterBind_ok, Prog.wp_bind, wp_atomicWriteHook]
    refine ⟨hhook _ _, ?_, hfail (.hook .sync) hwritten⟩
    rw [Prog.afterBind_ok]
    refine Reads.bind (wp_fsync (hopen hwritten)) (hfail (.errno .fault) hwritten)
      (fun _ _ => ?_) (by simp)
    refine Prog.wp_post ?_ (wp_close (hopen hwritten))
    rintro r u ⟨rfl, ⟨hfaulty, rfl⟩ | rfl⟩
    · exact hfail (.errno .fault) hwritten hfaulty
    · exact ⟨hwritten, by simp⟩
  · exact hfail (.errno .fault) (hfilling.setInode _ (hmode.trans hfilling.mode_eq)) hfaulty

/-- **The replacement** of a file.  In a healthy environment it fails only when the name of the
temporary file is taken. -/
theorem wp_replaceFile {temporary relative : Location} {content : Bytes} {mode : Nat}
    (h : Replacement store d temporary relative content) :
    (WorkspaceStore.replaceFile temporary (store.root ++ relative) content mode).wp
      (StoreOp.Exec faulty) (store.Allowed faulty)
      (fun r t => match r with
        | .ok () => Replaced d t temporary (store.root ++ relative) content mode
        | .error _ => faulty = true ∨ d.entryAt temporary ≠ none) d := by
  rw [WorkspaceStore.replaceFile, Prog.wp_onError, Prog.wp_bind]
  refine wp_fs.mpr ⟨allowed_openCreate h.source h.hidden, fun reply t hexec => ?_⟩
  rcases hexec.openCreate h.source.locate
    with ⟨hfree, rfl, now, rfl⟩ | ⟨htaken, rfl, rfl⟩ | ⟨hfaulty, rfl, rfl⟩
  · have hcreated := Filling.created h.source hfree mode now
    -- a later failure removes the temporary file
    have hfail : ∀ {u : Disk FileName} (e : StoreFailure),
        Filling d u temporary d.nextInode mode → faulty = true →
        Prog.afterCleanup (StoreOp.Exec faulty) (store.Allowed faulty)
          (fun r t => match r with
            | .ok () => Replaced d t temporary (store.root ++ relative) content mode
            | .error _ => faulty = true ∨ d.entryAt temporary ≠ none)
          (WorkspaceStore.quietly (fs (.rmForce temporary)))
          (.error e : Except StoreFailure Unit) u :=
      fun _ hu hfaulty => wp_quietlyRemove (hu.inside h.source) h.hidden fun _ => .inl hfaulty
    rw [afterFs, Prog.afterBind_ok, Prog.wp_bind]
    refine Prog.wp_post ?_ (wp_filling h hcreated)
    rintro (e | ⟨⟩) u ⟨hu, hr⟩
    · exact hfail e hu hr
    · rw [Prog.afterBind_ok, Prog.wp_bind, wp_atomicWriteHook]
      refine ⟨⟨trivial, fun _ _ hexec hlimits => hexec.1 ▸ hlimits⟩, ?_,
        hfail (.hook .rename) hu⟩
      rw [Prog.afterBind_ok]
      have hfile : u.entryAt temporary = some (.file d.nextInode) := (hu.onlyAt _).mpr rfl
      have hsource := hu.inside h.source
      have htarget := hu.inside h.destination
      have hne : temporary ≠ store.root ++ relative := fun heq =>
        h.hidden.ne_shown h.shown heq.symm
      have hnotDir : u.entryAt (store.root ++ relative) ≠ some .dir := by
        rw [hu.entry, if_neg (Ne.symm hne)]
        exact h.notDir
      refine wp_fs.mpr ⟨allowed_rename hsource h.hidden hfile h.shown htarget ?_,
        fun reply v hexec => ?_⟩
      · intro hlimits
        rw [hr, hu.shownFiles h.hidden]
        exact h.quota (hlimits.congr (hu.shownFiles h.hidden).symm)
      · rcases hexec.rename hsource.locate htarget.locate hne hfile
          with ⟨-, rfl, rfl⟩ | ⟨hdir, rfl, rfl⟩ | ⟨hfaulty, rfl, rfl⟩
        · refine ⟨hfree, fun q => ?_, by simpa using hr, by simpa using hu.mode_eq,
            fun j hj => by simpa using hu.inodes j hj⟩
          rw [FsOp.entryAt_renamed htarget.ne_nil htarget.parent hnotDir hfile, hu.entry]
          split_ifs <;> rfl
        · exact absurd hdir hnotDir
        · exact hfail (.errno .fault) hu hfaulty
  · exact wp_quietlyRemove h.source h.hidden fun _ => .inr htaken
  · exact wp_quietlyRemove h.source h.hidden fun _ => .inl hfaulty

end Typr
