import TyprCompanion.Workspace.CompareAndSwap

/-!
# Atomic writes

A `write` in an environment that may fail any of its steps: making a directory, opening, writing,
syncing or closing the temporary file, the rename, the hook, and the reads before and after.

* `StoreOp.Injected`, `StoreOp.Watch` — that environment.  The removal of the temporary file
  succeeds and an identifier is new; `Watched` records whether the rename went through.
* `WriteMoment` — what the disk may look like while the call runs.
* `reads_readIfExists` and the others — the footprints of the parts of a write that only look.
* `wp_replaceFile_watched` — the replacement, with its two cleanups.
* **`WorkspaceStore.write_atomic`** — the main result.
-/

namespace Typr

open Core

variable {store : WorkspaceStore} {d t u : Disk FileName}

/-! ## The environment -/

/-- A disk, and whether a rename has gone through. -/
structure Watched where
  disk : Disk FileName
  renamed : Bool

/-- A successful rename. -/
def StoreOp.renames : (op : StoreOp) → op.Reply → Bool
  | .fs (.rename _ _), .ok _ => true
  | _, _ => false

/-- The outcomes of an operation when any step may fail but the removal of the temporary file, and
no entry has the name made from a new identifier. -/
def StoreOp.Injected : (op : StoreOp) → Disk FileName → op.Reply → Disk FileName → Prop
  | fs (.rmForce p), d, reply, d' => (FsOp.rmForce p).Exec false d reply d'
  | randomUUID, d, uuid, d' =>
      d' = d ∧ ∀ directory, d.entryAt (directory ++ [temporaryName uuid]) = none
  | op, d, reply, d' => op.Exec true d reply d'

/-- The same, watched. -/
def StoreOp.Watch (op : StoreOp) (s : Watched) (reply : op.Reply) (t : Watched) : Prop :=
  op.Injected s.disk reply t.disk ∧ t.renamed = (s.renamed || op.renames reply)

/-- The environment is one of the faulty ones. -/
theorem StoreOp.Watch.exec {op : StoreOp} {s t : Watched} {reply : op.Reply}
    (h : op.Watch s reply t) : op.Exec true s.disk reply t.disk := by
  cases op with
  | randomUUID => exact h.1.1
  | hook step => exact h.1
  | fs op =>
      cases op with
      | rmForce p =>
          rcases h.1 with hplain | ⟨hfaulty, -⟩
          · exact .inl hplain
          · exact absurd hfaulty (by simp)
      | _ => exact h.1

/-! ## Moments -/

/-- **A moment of a write** that began on the disk `d`: the destination holds what it held or the
complete new content, and the other files are as they were, except for a new temporary file next to
the destination. -/
structure WriteMoment (d t : Disk FileName) (destination : Location) (content : Bytes) : Prop where
  written : t.contentAt destination = d.contentAt destination ∨
    t.contentAt destination = some content
  others : ∀ q, q ≠ destination → t.contentAt q = d.contentAt q ∨
    d.contentAt q = none ∧ ∃ uuid, q = destination.dropLast ++ [temporaryName uuid]

/-- The contents once a write is over. -/
def contentsAfter (d : Disk FileName) (destination : Location) (content : Bytes) (renamed : Bool) :
    Location → Option Bytes :=
  if renamed then Function.update d.contentAt destination (some content) else d.contentAt

/-- A moment at which the contents are those at the beginning. -/
theorem WriteMoment.of_same (h : t.contentAt = d.contentAt) (destination : Location)
    (content : Bytes) : WriteMoment d t destination content :=
  ⟨.inl (congrFun h _), fun q _ => .inl (congrFun h q)⟩

theorem WriteMoment.of_contents {destination : Location} {content : Bytes} {renamed : Bool}
    (h : t.contentAt = contentsAfter d destination content renamed) :
    WriteMoment d t destination content := by
  cases renamed with
  | false => exact .of_same h destination content
  | true =>
      refine ⟨.inr ((congrFun h _).trans (by simp [contentsAfter])), fun q hq => .inl ?_⟩
      exact (congrFun h q).trans (by simp [contentsAfter, hq])

/-- While the temporary file is being filled. -/
theorem Filling.contentAt {temporary : Location} {i mode : Nat} (h : Filling u t temporary i mode)
    {q : Location} (hq : q ≠ temporary) : t.contentAt q = u.contentAt q :=
  Disk.contentAt_congr (by rw [h.entry, if_neg hq]) fun j hj => h.inodes j (Disk.fresh_entryAt hj)

theorem Filling.moment {destination : Location} {uuid : UUID} {content : Bytes} {i mode : Nat}
    (h : Filling u t (destination.dropLast ++ [temporaryName uuid]) i mode)
    (hne : destination.dropLast ++ [temporaryName uuid] ≠ destination) :
    WriteMoment u t destination content where
  written := .inl (h.contentAt (Ne.symm hne))
  others := by
    intro q _
    by_cases hq : q = destination.dropLast ++ [temporaryName uuid]
    · exact .inr ⟨by rw [hq, Disk.contentAt, h.free], uuid, hq⟩
    · exact .inl (h.contentAt hq)

/-- Removing the temporary file leaves the contents as they were. -/
theorem Filling.remove {temporary : Location} {i mode : Nat} (h : Filling u t temporary i mode) :
    (t.remove temporary).contentAt = u.contentAt := by
  funext q
  have hfile : t.entryAt temporary ≠ some .dir := by simp [h.entry]
  rw [Disk.contentAt_remove hfile]
  by_cases hq : q = temporary
  · rw [if_pos hq, hq, Disk.contentAt, h.free]
  · rw [if_neg hq, h.contentAt hq]

/-- The rename shows the complete new content. -/
theorem Filling.renamed {temporary destination : Location} {i mode : Nat}
    (h : Filling u t temporary i mode) (hne : destination ≠ []) (hdir : t.entryAt destination ≠ some .dir)
    (hparent : t.entryAt destination.dropLast = some .dir) :
    (FsOp.renamed t temporary destination (.file i)).contentAt
      = contentsAfter u destination (t.inodes i).content true := by
  funext q
  have hfile : t.entryAt temporary = some (.file i) := (h.onlyAt _).mpr rfl
  have hentry := FsOp.entryAt_renamed hne hparent hdir hfile
  by_cases hq : q = destination
  · rw [hq, Disk.contentAt_file (i := i) (by rw [hentry, if_pos rfl]), FsOp.inodes_renamed]
    simp [contentsAfter]
  · simp only [contentsAfter, if_true, Function.update_of_ne hq]
    by_cases htemporary : q = temporary
    · simp only [Disk.contentAt, hentry, if_neg hq, if_pos htemporary]
      rw [htemporary, h.free]
    · rw [← h.contentAt htemporary]
      exact Disk.contentAt_congr (by rw [hentry, if_neg hq, if_neg htemporary]) (by simp)

/-! ## The replacement -/

section Replacing

variable {uuid : UUID} {destination : Location} {content : Bytes} {mode i : Nat}

/-- An operation that only looks, and the hook, keep a watched disk. -/
theorem StoreOp.Watch.of_isRead {op : FsOp FileName} {s t : Watched}
    {reply : (StoreOp.fs op).Reply} (h : (StoreOp.fs op).Watch s reply t)
    (hread : op.isRead = true) : t = s := by
  have hdisk : t.disk = s.disk := FsOp.Exec.of_isRead h.exec hread
  have hrenamed : (StoreOp.fs op).renames reply = false := by
    cases op <;> simp [FsOp.isRead] at hread <;> rfl
  obtain ⟨disk, renamed⟩ := t
  obtain rfl : disk = s.disk := hdisk
  obtain rfl : renamed = s.renamed := by simpa [hrenamed] using h.2
  rfl

theorem StoreOp.Watch.of_hook {step : WriteStep} {s t : Watched} {reply : Bool}
    (h : (StoreOp.hook step).Watch s reply t) : t = s := by
  obtain ⟨disk, renamed⟩ := t
  obtain rfl : disk = s.disk := h.1.1
  obtain rfl : renamed = s.renamed := by simpa [StoreOp.renames] using h.2
  rfl

/-- Filling the temporary file keeps everything else, and is complete when it succeeds. -/
theorem wp_filling_watched
    (hne : destination.dropLast ++ [temporaryName uuid] ≠ destination)
    (hfilling : Filling u t (destination.dropLast ++ [temporaryName uuid]) i mode) :
    (Prog.onError (do
        atomicWriteHook .write
        fs (.writeFile (.file i) content)
        atomicWriteHook .sync
        fs (.fsync (.file i))
        fs (.close (.file i))) (WorkspaceStore.quietly (fs (.close (.file i))))).wp
      StoreOp.Watch (fun s _ => WriteMoment u s.disk destination content)
      (fun r s => s.renamed = false ∧
        Filling u s.disk (destination.dropLast ++ [temporaryName uuid]) i mode ∧
        (r = .ok () → (s.disk.inodes i).content = content)) ⟨t, false⟩ := by
  rw [Prog.wp_onError]
  -- a failure closes the file and goes on
  have hfail : ∀ {v : Disk FileName} (e : StoreFailure),
      Filling u v (destination.dropLast ++ [temporaryName uuid]) i mode →
      Prog.afterCleanup StoreOp.Watch (fun s _ => WriteMoment u s.disk destination content)
        (fun r s => s.renamed = false ∧
          Filling u s.disk (destination.dropLast ++ [temporaryName uuid]) i mode ∧
          (r = .ok () → (s.disk.inodes i).content = content))
        (WorkspaceStore.quietly (fs (.close (.file i)))) (.error e : Except StoreFailure Unit)
        ⟨v, false⟩ := by
    intro v e hv
    refine ⟨hv.moment hne, fun reply s hexec => ?_⟩
    obtain rfl := hexec.of_isRead rfl
    cases reply with
    | ok => exact ⟨rfl, hv, by simp⟩
    | error e => exact ⟨rfl, hv, by simp⟩
  refine ⟨hfilling.moment hne, fun reply s hexec => ?_⟩
  obtain rfl := hexec.of_hook
  cases reply with
  | false => exact hfail _ hfilling
  | true =>
  refine ⟨hfilling.moment hne, ?_⟩
  rintro reply ⟨v, renamed⟩ ⟨hexec, rfl⟩
  rcases FsOp.Exec.writeFile hexec with ⟨rfl, now, rfl⟩ | ⟨-, rfl, data, hmode, rfl⟩
  · have hwritten := hfilling.setInode { t.inodes i with content := content, mtimeMs := now }
      hfilling.mode_eq
    refine ⟨hwritten.moment hne, fun reply s hexec => ?_⟩
    obtain rfl := hexec.of_hook
    cases reply with
    | false => exact hfail _ hwritten
    | true =>
    refine ⟨hwritten.moment hne, fun reply s hexec => ?_⟩
    obtain rfl := hexec.of_isRead rfl
    cases reply with
    | error e => exact hfail _ hwritten
    | ok =>
    refine ⟨hwritten.moment hne, fun reply s hexec => ?_⟩
    obtain rfl := hexec.of_isRead rfl
    cases reply with
    | error e => exact hfail _ hwritten
    | ok => exact ⟨rfl, hwritten, fun _ => by simp⟩
  · exact hfail _ (hfilling.setInode _ (hmode.trans hfilling.mode_eq))

/-- What a write has done once it is over: the new content is shown exactly when the rename went
through, and it did when the write succeeded. -/
def Settled {α : Type} (d : Disk FileName) (destination : Location) (content : Bytes)
    (r : Except StoreFailure α) (s : Watched) : Prop :=
  s.disk.contentAt = contentsAfter d destination content s.renamed ∧
    (∀ a, r = .ok a → s.renamed = true)

/-- **The replacement.**  Its cleanups leave no temporary file. -/
theorem wp_replaceFile_watched
    (hne : destination.dropLast ++ [temporaryName uuid] ≠ destination)
    (hsource : Inside store.root u (destination.dropLast ++ [temporaryName uuid]))
    (htarget : Inside store.root u destination)
    (hfree : u.entryAt (destination.dropLast ++ [temporaryName uuid]) = none) :
    (WorkspaceStore.replaceFile (destination.dropLast ++ [temporaryName uuid]) destination content
      mode).wp StoreOp.Watch (fun s _ => WriteMoment u s.disk destination content)
      (Settled u destination content) ⟨u, false⟩ := by
  have hold := WriteMoment.of_same (rfl : u.contentAt = u.contentAt) destination content
  rw [WorkspaceStore.replaceFile, Prog.wp_onError, Prog.wp_bind]
  refine ⟨hold, ?_⟩
  rintro reply ⟨v, renamed⟩ ⟨hexec, rfl⟩
  rcases FsOp.Exec.openCreate hexec hsource.locate
    with ⟨-, rfl, now, rfl⟩ | ⟨htaken, -, -⟩ | ⟨-, rfl, hsame⟩
  · have hcreated := Filling.created hsource hfree mode now
    -- a later failure removes the temporary file
    have hfail : ∀ {v : Disk FileName} (e : StoreFailure),
        Filling u v (destination.dropLast ++ [temporaryName uuid]) u.nextInode mode →
        Prog.afterCleanup StoreOp.Watch (fun s _ => WriteMoment u s.disk destination content)
          (Settled u destination content)
          (WorkspaceStore.quietly
            (fs (.rmForce (destination.dropLast ++ [temporaryName uuid]))))
          (.error e : Except StoreFailure Unit) ⟨v, false⟩ := by
      intro v e hv
      refine ⟨hv.moment hne, ?_⟩
      rintro reply ⟨w, renamed⟩ ⟨hexec, rfl⟩
      have hfile : v.entryAt (destination.dropLast ++ [temporaryName uuid])
          = some (.file u.nextInode) := (hv.onlyAt _).mpr rfl
      rcases FsOp.Exec.rmForce hexec (hv.inside hsource).locate
        with ⟨-, rfl, rfl⟩ | ⟨-, -, hfaulty | hdir⟩
      · refine ⟨?_, by simp⟩
        simp only [hfile, reduceCtorEq, if_false]
        exact hv.remove
      · exact absurd hfaulty (by simp)
      · simp [hfile] at hdir
    show Prog.afterBind _ _ _ _ (.ok _) _
    rw [Prog.afterBind_ok, Prog.wp_bind]
    refine Prog.wp_post ?_ (wp_filling_watched hne hcreated)
    rintro r ⟨v, renamed⟩ ⟨rfl, hv, hr⟩
    cases r with
    | error e => exact hfail e hv
    | ok =>
    refine ⟨hv.moment hne, fun reply s hexec => ?_⟩
    obtain rfl := hexec.of_hook
    cases reply with
    | false => exact hfail _ hv
    | true =>
    refine ⟨hv.moment hne, ?_⟩
    rintro reply ⟨w, renamed⟩ ⟨hexec, rfl⟩
    have hfile : v.entryAt (destination.dropLast ++ [temporaryName uuid])
        = some (.file u.nextInode) := (hv.onlyAt _).mpr rfl
    have htarget' := hv.inside htarget
    rcases FsOp.Exec.rename hexec (hv.inside hsource).locate htarget'.locate hne hfile
      with ⟨hdir, rfl, rfl⟩ | ⟨-, rfl, hsame⟩ | ⟨-, rfl, hsame⟩
    · refine ⟨?_, fun _ _ => rfl⟩
      rw [← hr rfl]
      exact hv.renamed htarget'.ne_nil hdir htarget'.parent
    · obtain rfl : w = v := hsame
      exact hfail _ hv
    · obtain rfl : w = v := hsame
      exact hfail _ hv
  · exact absurd hfree htaken
  · -- nothing was created: there is nothing to remove
    obtain rfl : v = u := hsame
    refine ⟨hold, ?_⟩
    rintro reply ⟨w, renamed⟩ ⟨hexec, rfl⟩
    rcases FsOp.Exec.rmForce hexec hsource.locate with ⟨-, rfl, rfl⟩ | ⟨-, -, hfaulty | hdir⟩
    · refine ⟨?_, by simp⟩
      simp only [hfree, if_true]
      rfl
    · exact absurd hfaulty (by simp)
    · simp [hfree] at hdir

end Replacing

/-! ## The parts that only look -/

/-- A file operation that only looks. -/
def StoreOp.Looks : StoreOp → Prop
  | .fs op => op.isRead = true
  | _ => False

section Footprints

variable {α β : Type} {p : StoreProg α}

theorem looks_fs {op : FsOp FileName} (h : op.isRead = true) : (fs op).Only StoreOp.Looks := by
  refine ⟨h, fun reply => ?_⟩
  cases reply <;> exact trivial

theorem looks_refuseIf {c : Prop} [Decidable c] {status : Nat} {code message : JSString}
    {h : 400 ≤ status ∧ status < 500} :
    (refuseIf c status code message h).Only StoreOp.Looks := by
  unfold refuseIf Prog.throwIf
  split <;> exact trivial

theorem looks_ensuring {cleanup : StoreProg Unit} (hp : p.Only StoreOp.Looks)
    (hcleanup : cleanup.Only StoreOp.Looks) : (p.ensuring cleanup).Only StoreOp.Looks := by
  refine Prog.only_bind (Prog.only_tryCatch hp fun e => ?_) fun a => ?_
  · exact Prog.only_bind hcleanup fun _ => Prog.only_throw e
  · exact Prog.only_bind hcleanup fun _ => Prog.only_pure a

theorem looks_lstatExisting (location : Location) :
    (WorkspaceStore.lstatExisting location).Only StoreOp.Looks := by
  refine Prog.only_tryCatch (looks_fs rfl) fun e => ?_
  split <;> exact trivial

theorem looks_resolveSegments (current : Location) (segments : List JSString) :
    (WorkspaceStore.resolveSegments current segments).Only StoreOp.Looks := by
  induction segments generalizing current with
  | nil => exact trivial
  | cons segment rest ih =>
      refine Prog.only_bind (looks_lstatExisting _) fun info => ?_
      refine Prog.only_bind looks_refuseIf fun _ => ?_
      refine Prog.only_bind looks_refuseIf fun _ => ?_
      exact Prog.only_bind looks_refuseIf fun _ => ih _

theorem looks_readValid (path : WorkspacePath store.platform) :
    (store.readValid path).Only StoreOp.Looks := by
  refine Prog.only_bind (looks_resolveSegments _ _) fun filePath => ?_
  refine Prog.only_bind (looks_fs rfl) fun handle => looks_ensuring ?_ (looks_fs rfl)
  refine Prog.only_bind (looks_fs rfl) fun info => ?_
  refine Prog.only_bind looks_refuseIf fun _ => ?_
  refine Prog.only_bind (looks_fs rfl) fun content => ?_
  exact Prog.only_bind looks_refuseIf fun _ => Prog.only_pure _

theorem looks_readIfExists (path : WorkspacePath store.platform) :
    (store.readIfExists path).Only StoreOp.Looks := by
  refine Prog.only_tryCatch ?_ fun e => ?_
  · refine Prog.only_bind (looks_readValid path) fun response => ?_
    refine Prog.only_bind (looks_fs rfl) fun info => ?_
    exact Prog.only_bind looks_refuseIf fun _ => Prog.only_pure _
  · cases e with
    | workspace e =>
        dsimp only
        split
        · exact Prog.only_pure _
        · exact Prog.only_throw _
    | _ => exact Prog.only_throw _

/-- One entry, when the scan of a directory below it only looks. -/
theorem looks_visitEntry {visit : Location → JSString → ScanState → StoreProg ScanState}
    (hvisit : ∀ directory parent state, (visit directory parent state).Only StoreOp.Looks)
    (directory : Location) (parent : JSString) (state : ScanState) (name : FileName) :
    (store.visitEntry visit directory parent state name).Only StoreOp.Looks := by
  unfold WorkspaceStore.visitEntry
  split
  · exact Prog.only_pure _
  · refine Prog.only_bind (Prog.only_ofExcept _) fun _ => ?_
    refine Prog.only_bind (looks_fs rfl) fun info => ?_
    refine Prog.only_bind looks_refuseIf fun _ => ?_
    split
    · exact hvisit _ _ _
    · refine Prog.only_bind looks_refuseIf fun _ => ?_
      refine Prog.only_bind (looks_fs rfl) fun handle => ?_
      refine Prog.only_bind (looks_ensuring ?_ (looks_fs rfl)) fun opened => ?_
      · refine Prog.only_bind (looks_fs rfl) fun info => ?_
        refine Prog.only_bind looks_refuseIf fun _ => ?_
        exact Prog.only_bind (looks_fs rfl) fun content => Prog.only_pure _
      · refine Prog.only_bind looks_refuseIf fun _ => ?_
        exact Prog.only_bind looks_refuseIf fun _ => Prog.only_pure _

theorem looks_visit (depth : Nat) (directory : Location) (parent : JSString) (state : ScanState) :
    (store.visit depth directory parent state).Only StoreOp.Looks := by
  induction depth generalizing directory parent state with
  | zero => exact trivial
  | succ depth ih =>
      refine Prog.only_bind (looks_fs rfl) fun names => ?_
      induction names generalizing state with
      | nil => exact Prog.only_pure _
      | cons name names ihNames =>
          rw [List.foldlM_cons]
          exact Prog.only_bind (looks_visitEntry ih directory parent state name) fun state =>
            ihNames state

theorem looks_scan : store.scan.Only StoreOp.Looks :=
  Prog.only_bind (looks_visit _ _ _ _) fun _ => Prog.only_pure _

/-- A part that only looks, before a write goes on. -/
theorem wp_looks_bind {f : α → StoreProg β} {allowed : Watched → StoreOp → Prop}
    {post : Except StoreFailure β → Watched → Prop} {s : Watched} (hp : p.Only StoreOp.Looks)
    (hallowed : ∀ op, allowed s op) (hthrow : ∀ e, post (.error e) s)
    (hf : ∀ a, (f a).wp StoreOp.Watch allowed post s) :
    (p >>= f).wp StoreOp.Watch allowed post s := by
  have hkeep : p.wp StoreOp.Watch (fun t _ => t = s) (fun _ t => t = s) s := by
    refine hp.wp_keeps (fun op hop t reply t' hexec ht => ?_) rfl
    cases op with
    | fs op => exact (hexec.of_isRead hop).trans ht
    | _ => exact absurd hop (by simp [StoreOp.Looks])
  rw [Prog.wp_bind]
  refine Prog.wp_mono (fun t op ht => ht ▸ hallowed op) ?_ hkeep
  rintro (e | a) t rfl
  · exact hthrow e
  · exact hf a

end Footprints

/-! ## The whole write -/

/-- `resolveForWrite` looks and makes directories. -/
def StoreOp.MakesDirectories : StoreOp → Prop
  | .fs (.lstat _) => True
  | .fs (.mkdir _ _) => True
  | _ => False

theorem makesDirectories_makeParents (current : Location) (segments : List JSString) :
    (WorkspaceStore.makeParents current segments).Only StoreOp.MakesDirectories := by
  induction segments generalizing current with
  | nil => exact trivial
  | cons segment rest ih =>
      have hfs : ∀ op : FsOp FileName, (StoreOp.fs op).MakesDirectories →
          (fs op).Only StoreOp.MakesDirectories := by
        refine fun op hop => ⟨hop, fun reply => ?_⟩
        cases reply <;> exact trivial
      refine Prog.only_bind (Prog.only_tryCatch ?_ fun e => ?_) fun _ => ih _
      · refine Prog.only_bind (hfs _ trivial) fun info => ?_
        unfold refuseIf Prog.throwIf
        split <;> exact trivial
      · split
        · exact hfs _ trivial
        · exact Prog.only_throw _

/-- Making a directory, wherever the path leads, leaves the contents as they were. -/
theorem contentAt_mkdir {faulty : Bool} {p : Location} {mode : Nat}
    {reply : (FsOp.mkdir p mode).Reply} (h : (FsOp.mkdir p mode).Exec faulty d reply t) :
    t.contentAt = d.contentAt := by
  have hput : ∀ q, d.entryAt q = none → (d.put q .dir).contentAt = d.contentAt := by
    intro q hfree
    by_cases hcan : d.CanPut q .dir
    · exact funext fun r => Disk.contentAt_put_dir hcan hfree r
    · rw [Disk.put, dif_neg hcan]
  rcases h with ⟨now, hexec⟩ | ⟨-, hfault⟩
  · have hdisk : t = ((FsOp.mkdir p mode).exec now d).2 := by rw [hexec]
    rw [hdisk]
    simp only [FsOp.exec, FsOp.withLocation]
    cases d.locate false p with
    | error e => rfl
    | ok q =>
        cases hfree : d.entryAt q with
        | some e => simp only [hfree]
        | none =>
            simp only [hfree]
            exact hput q hfree
  · rw [(hfault.eq (by simp)).2]

/-- The directories on the way, in a watched environment. -/
theorem wp_makeParents_watched (segments : List JSString) (destination : Location)
    (content : Bytes) (hgit : gitName ∉ segments.map fileName)
    (hroot : d.entryAt store.root = some .dir) :
    (WorkspaceStore.makeParents store.root segments).wp StoreOp.Watch
      (fun s _ => WriteMoment d s.disk destination content)
      (fun r s => s.renamed = false ∧ s.disk.contentAt = d.contentAt ∧ ∀ parent, r = .ok parent →
        parent = store.root ++ segments.map fileName ∧ s.disk.entryAt parent = some .dir)
      ⟨d, false⟩ := by
  have hkeep : (WorkspaceStore.makeParents store.root segments).wp StoreOp.Watch
      (fun s _ => s.renamed = false ∧ s.disk.contentAt = d.contentAt)
      (fun _ s => s.renamed = false ∧ s.disk.contentAt = d.contentAt) ⟨d, false⟩ :=
    (makesDirectories_makeParents store.root segments).wp_keeps (by
      rintro op hop s reply t hexec ⟨hrenamed, hcontents⟩
      match op, hop with
      | .fs (.lstat p), _ =>
          obtain rfl := hexec.of_isRead rfl
          exact ⟨hrenamed, hcontents⟩
      | .fs (.mkdir p mode), _ =>
          refine ⟨?_, (contentAt_mkdir hexec.exec).trans hcontents⟩
          simpa [StoreOp.renames, hrenamed] using hexec.2) ⟨rfl, rfl⟩
  have hparents := wp_makeParents store true [] segments (d := d) (by simpa using hgit)
    (by simpa using hroot)
  rw [List.append_nil] at hparents
  have hview : (WorkspaceStore.makeParents store.root segments).wp StoreOp.Watch
      (fun s op => store.Allowed true s.disk op)
      (fun r s => ParentsOutcome true d store.root (segments.map fileName) r s.disk) ⟨d, false⟩ :=
    Prog.wp_simulation Watched.disk (fun op s reply t hexec => hexec.exec) hparents
  refine Prog.wp_mono (fun s op h => .of_same h.1.2 destination content) ?_
    (Prog.wp_both hkeep hview)
  rintro r s ⟨⟨hrenamed, hcontents⟩, hr⟩
  refine ⟨hrenamed, hcontents, ?_⟩
  rintro parent rfl
  exact ⟨hr.1, hr.2.1⟩

/-- A name made from an identifier is not the name of a valid path. -/
theorem temporaryName_ne_getLast {platform : Platform} {path : JSString}
    (h : IsWorkspacePath platform path) {dirs : Location} {name : FileName}
    (hpath : relativeLocation path = dirs ++ [name]) (uuid : UUID) : temporaryName uuid ≠ name := by
  rintro rfl
  have hshown := h.not_hidden (temporaryName uuid) (by simp [hpath])
  rw [isHidden_temporaryName] at hshown
  exact absurd hshown (by simp)

/-- What `write` does once its checks passed. -/
theorem wp_publish_watched (path : WorkspacePath store.platform) (content : Bytes) (mode : Nat)
    (hroot : d.entryAt store.root = some .dir) :
    (store.publish path content mode).wp StoreOp.Watch
      (fun s _ => WriteMoment d s.disk (store.root ++ relativeLocation path.text) content)
      (Settled d (store.root ++ relativeLocation path.text) content) ⟨d, false⟩ := by
  have hpath := relativeLocation_eq_concat path.text
  have hgit := not_mem_of_not_hidden path.valid.not_hidden
  have hname := temporaryName_ne_getLast path.valid hpath
  rw [WorkspaceStore.publish, Prog.wp_bind, WorkspaceStore.resolveForWrite, Prog.wp_bind]
  generalize (JSString.split (unit '/') path.text).dropLast = segments at hpath ⊢
  generalize fileName ((JSString.split (unit '/') path.text).getLastD []) = name at hpath hname ⊢
  rw [hpath] at hgit ⊢
  have hgitDirs : gitName ∉ segments.map fileName := fun hmem =>
    hgit (List.mem_append_left _ hmem)
  refine Prog.wp_post ?_ (wp_makeParents_watched segments
    (store.root ++ (segments.map fileName ++ [name])) content hgitDirs hroot)
  rintro r ⟨u, renamed⟩ ⟨rfl, hcontents, hr⟩
  have hcontents : u.contentAt = d.contentAt := hcontents
  cases r with
  | error e => exact ⟨hcontents, by simp⟩
  | ok parent =>
  obtain ⟨rfl, hparent⟩ := hr parent rfl
  -- the moments and the end of the replacement, seen from the beginning of the call
  have hmoment : ∀ {t : Disk FileName},
      WriteMoment u t (store.root ++ (segments.map fileName ++ [name])) content →
      WriteMoment d t (store.root ++ (segments.map fileName ++ [name])) content := by
    intro t ht
    exact ⟨hcontents ▸ ht.written, hcontents ▸ ht.others⟩
  refine ⟨.of_same hcontents _ _, ?_⟩
  rintro uuid ⟨v, renamed⟩ ⟨⟨hsame, hfresh⟩, rfl⟩
  obtain rfl : v = u := hsame
  have hdrop : (store.root ++ (segments.map fileName ++ [name])).dropLast
      = store.root ++ segments.map fileName := by
    rw [← List.append_assoc, List.dropLast_concat]
  have hsource : Inside store.root v ((store.root ++ (segments.map fileName ++ [name])).dropLast ++
      [temporaryName uuid]) := by
    rw [hdrop]
    refine inside_child (fun hmem => ?_) hparent
    rcases List.mem_append.mp hmem with hmem | hmem
    · exact hgitDirs hmem
    · exact temporaryName_ne_gitName uuid (List.mem_singleton.mp hmem).symm
  have htarget : Inside store.root v (store.root ++ (segments.map fileName ++ [name])) := by
    rw [← List.append_assoc]
    exact inside_child hgit hparent
  have hreplace := @wp_replaceFile_watched store v uuid _ content mode (by
      rw [hdrop, ← List.append_assoc]
      intro heq
      exact hname uuid (by simpa using heq)) hsource htarget (hdrop ▸ hfresh _)
  rw [hdrop] at hreplace
  show Prog.wp _ _ _ (WorkspaceStore.replaceFile _ _ _ _ >>= _) _
  rw [Prog.wp_bind]
  dsimp only
  rw [List.append_assoc store.root (segments.map fileName) [name]]
  refine Prog.wp_mono (fun s op h => hmoment h) ?_ hreplace
  rintro r s ⟨hcontents', hrenamed⟩
  have hcontents'' : s.disk.contentAt = contentsAfter d
      (store.root ++ (segments.map fileName ++ [name])) content s.renamed := by
    rw [hcontents', contentsAfter, contentsAfter, hcontents]
  cases r with
  | error e => exact ⟨hcontents'', by simp⟩
  | ok =>
      have hdone : s.renamed = true := hrenamed () rfl
      exact wp_looks_bind (looks_readValid path) (fun _ => .of_contents hcontents'')
        (fun _ => ⟨hcontents'', by simp⟩) fun _ => ⟨hcontents'', fun _ _ => hdone⟩

/-- `write` while it holds the lock. -/
theorem wp_lockedWrite_watched (path : WorkspacePath store.platform) (content : Bytes)
    (precondition : WorkspaceWritePrecondition) (hroot : d.entryAt store.root = some .dir) :
    (store.lockedWrite path content precondition).wp StoreOp.Watch
      (fun s _ => WriteMoment d s.disk (store.root ++ relativeLocation path.text) content)
      (Settled d (store.root ++ relativeLocation path.text) content) ⟨d, false⟩ := by
  have hbefore : ∀ e : StoreFailure, Settled d (store.root ++ relativeLocation path.text) content
      (.error e : Except StoreFailure WorkspaceFileMetadata) ⟨d, false⟩ := fun _ => ⟨rfl, by simp⟩
  have hmoment : ∀ _ : StoreOp,
      WriteMoment d d (store.root ++ relativeLocation path.text) content :=
    fun _ => .of_same rfl _ _
  refine wp_looks_bind (looks_readIfExists path) hmoment hbefore fun existing => ?_
  refine wp_looks_bind ?_ hmoment hbefore fun _ => ?_
  · cases precondition <;> exact looks_refuseIf
  refine wp_looks_bind looks_scan hmoment hbefore fun files => ?_
  refine wp_looks_bind looks_refuseIf hmoment hbefore fun _ => ?_
  refine wp_looks_bind looks_refuseIf hmoment hbefore fun _ => ?_
  exact wp_publish_watched path content _ hroot

/-- **A write is atomic.**  Whatever the disk, the path, the content and the precondition, and
whichever steps fail: at every operation of the call the destination holds what it held before or
the complete new content, and no other file is touched but a new temporary file.  When the call is
over, the contents are those from before unless the rename went through, as it did if the call
succeeded; then they differ at the destination only. -/
theorem WorkspaceStore.write_atomic (store : WorkspaceStore) {d : Disk FileName}
    (hroot : d.entryAt store.root = some .dir) (path : JSString) (content : Bytes)
    (precondition : WorkspaceWritePrecondition) :
    (Prog.ofExcept (store.write path content precondition) >>= Mutation.body).wp StoreOp.Watch
      (fun s _ => WriteMoment d s.disk (store.root ++ relativeLocation path) content)
      (fun r s => WriteMoment d s.disk (store.root ++ relativeLocation path) content ∧
        Settled d (store.root ++ relativeLocation path) content r s) ⟨d, false⟩ := by
  have hsettled : (Prog.ofExcept (store.write path content precondition) >>= Mutation.body).wp
      StoreOp.Watch (fun s _ => WriteMoment d s.disk (store.root ++ relativeLocation path) content)
      (Settled d (store.root ++ relativeLocation path) content) ⟨d, false⟩ := by
    rw [Prog.wp_bind, Prog.wp_ofExcept, WorkspaceStore.write]
    rcases parsePath_cases store path with ⟨-, normalized, rfl, hparse⟩ | ⟨-, w, -, hparse⟩
    · rw [hparse]
      by_cases hlarge : store.limits.maxFileBytes < content.length
      · simp only [bind, Except.bind, dif_pos hlarge]
        exact ⟨rfl, by simp⟩
      · simp only [bind, Except.bind, dif_neg hlarge]
        refine (Prog.wp_map ..).mpr (Prog.wp_post ?_
          (wp_lockedWrite_watched normalized content precondition hroot))
        rintro r s ⟨hcontents, hdone⟩
        cases r with
        | error e => exact ⟨hcontents, by simp⟩
        | ok metadata => exact ⟨hcontents, fun _ _ => hdone metadata rfl⟩
    · rw [hparse]
      exact ⟨rfl, by simp⟩
  exact Prog.wp_post (fun r s h => ⟨.of_contents h.1, h⟩) hsettled

/-- A new file in a new directory of an empty workspace. -/
theorem WorkspaceStore.write_atomic_create :
    (Prog.ofExcept (EmptyWorkspace.papers.write (js "paper/a.tex") [104] .create)
        >>= Mutation.body).wp StoreOp.Watch
      (fun s _ => WriteMoment EmptyWorkspace.disk s.disk
        (EmptyWorkspace.papers.root ++ relativeLocation (js "paper/a.tex")) [104])
      (fun r s => WriteMoment EmptyWorkspace.disk s.disk
          (EmptyWorkspace.papers.root ++ relativeLocation (js "paper/a.tex")) [104] ∧
        Settled EmptyWorkspace.disk
          (EmptyWorkspace.papers.root ++ relativeLocation (js "paper/a.tex")) [104] r s)
      ⟨EmptyWorkspace.disk, false⟩ :=
  EmptyWorkspace.papers.write_atomic EmptyWorkspace.root _ _ _

end Typr
