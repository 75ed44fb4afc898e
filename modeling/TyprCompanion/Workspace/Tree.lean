import TyprCompanion.Core.SizedMap
import TyprCompanion.Workspace.Store

/-!
# The tree below a workspace root

What the store may touch, what it shows, and the rules for its programs.

* `Inside`, `Confined` — an operation acts on the location it names, below the root, outside `.git`
  and past real directories only.
* `WorkspaceStore.files` — the shown files with their contents, by location below the root.
* `WithinLimits`, `Allowed` — the limits on the shown files, and the operations that are confined
  and keep them.
* `Reads`, `wp_lstat` and the others — the rules: what is left to prove after each operation.
-/

namespace Typr

open Core

/-! ## Confinement -/

/-- A location below the root, not in a directory of git's, whose parent is a real directory; so
the path names the location itself, past no link. -/
structure Inside (root : Location) (d : Disk FileName) (p : Location) : Prop where
  below : ∃ relative, p = root ++ relative ∧ relative ≠ [] ∧ gitName ∉ relative
  parent : d.entryAt p.dropLast = some .dir

/-- The descriptor of a regular file below the root. -/
def OpenInside (root : Location) (d : Disk FileName) (handle : Handle) : Prop :=
  ∃ i p, handle = .file i ∧ Inside root d p ∧ d.entryAt p = some (.file i)

/-- **Confinement of one operation.**  What it reads is a regular file below the root or a directory
at or below it, what it changes is below the root, and nothing is reached through a link. -/
def Confined (root : Location) (d : Disk FileName) : StoreOp → Prop
  | .fs (.lstat p) => Inside root d p
  | .fs (.readdir p) =>
      ∃ relative, p = root ++ relative ∧ gitName ∉ relative ∧ d.entryAt p = some .dir
  | .fs (.openRead p) => Inside root d p ∧ ∃ i, d.entryAt p = some (.file i)
  | .fs (.fstat handle) => OpenInside root d handle
  | .fs (.readFile handle) => OpenInside root d handle
  | .fs (.close handle) => OpenInside root d handle
  | .fs (.mkdir p _) => Inside root d p
  | .fs (.openCreate p _) => Inside root d p
  | .fs (.writeFile handle _) => OpenInside root d handle ∧
      ∀ i p, handle = .file i → d.entryAt p = some (.file i) → Inside root d p
  | .fs (.fsync handle) => OpenInside root d handle
  | .fs (.rename p q) => Inside root d p ∧ Inside root d q ∧ ∃ i, d.entryAt p = some (.file i)
  | .fs (.unlink p) => Inside root d p ∧ ∃ i, d.entryAt p = some (.file i)
  | .fs (.rmForce p) => Inside root d p
  | .hook _ => True
  | .randomUUID => True

variable {root : Location} {d d' : Disk FileName} {p q : Location}

theorem Inside.ne_nil (h : Inside root d p) : p ≠ [] := by
  obtain ⟨relative, rfl, hne, -⟩ := h.below
  simp [hne]

/-- A path the store uses names itself. -/
theorem Inside.locate (h : Inside root d p) : d.locate false p = .ok p :=
  Disk.locate_eq h.ne_nil h.parent

/-- A child of a directory the store may visit. -/
theorem inside_child {relative : Location} {name : FileName} (hgit : gitName ∉ relative ++ [name])
    (hdir : d.entryAt (root ++ relative) = some .dir) :
    Inside root d (root ++ relative ++ [name]) where
  below := ⟨relative ++ [name], by simp, by simp, hgit⟩
  parent := by simpa using hdir

/-! ## The shown files -/

/-- A location below the root past no hidden name. -/
def isShown (relative : Location) : Bool :=
  relative != [] && relative.all fun name => !isHidden name

theorem isShown_iff {relative : Location} :
    isShown relative = true ↔ relative ≠ [] ∧ ∀ name ∈ relative, isHidden name = false := by
  simp [isShown]

/-- The content the workspace shows at a location below the root. -/
def shownContent (root : Location) (d : Disk FileName) (relative : Location) : Option Bytes :=
  if isShown relative then d.contentAt (root ++ relative) else none

/-- The locations of the shown files. -/
def shownLocations (root : Location) (d : Disk FileName) : Finset Location :=
  ((d.entries.keys.map fun p => p.drop root.length).filter fun relative =>
    (shownContent root d relative).isSome).toFinset

theorem mem_shownLocations {relative : Location} :
    relative ∈ shownLocations root d ↔ (shownContent root d relative).isSome = true := by
  simp only [shownLocations, List.mem_toFinset, List.mem_filter, List.mem_map,
    and_iff_right_iff_imp]
  intro h
  refine ⟨root ++ relative, ?_, by simp⟩
  obtain ⟨content, hcontent⟩ := Option.isSome_iff_exists.mp h
  simp only [shownContent, Option.ite_none_right_eq_some] at hcontent
  obtain ⟨i, hfile, -⟩ := Disk.exists_file_of_contentAt hcontent.2
  have hne : root ++ relative ≠ [] := by
    intro heq
    simp [heq] at hfile
  rw [Disk.entryAt_of_ne hne] at hfile
  rw [← AList.mem_keys, ← AList.lookup_isSome, hfile]
  rfl

/-- **The shown files** with their contents. -/
def shownFiles (root : Location) (d : Disk FileName) : Finmap fun _ : Location => Bytes :=
  Finmap.keysLookupEquiv.symm
    ⟨(shownLocations root d, shownContent root d), fun _ => mem_shownLocations.symm⟩

@[simp] theorem lookup_shownFiles (relative : Location) :
    (shownFiles root d).lookup relative = shownContent root d relative := by
  simp [shownFiles]

/-- A change that is not shown. -/
theorem shownFiles_congr (h : ∀ relative, isShown relative = true →
      d'.contentAt (root ++ relative) = d.contentAt (root ++ relative)) :
    shownFiles root d' = shownFiles root d := by
  refine Finmap.ext_lookup fun relative => ?_
  simp only [lookup_shownFiles, shownContent]
  split
  · next hshown => exact h relative hshown
  · rfl

/-- A change at one shown location that leaves a file there. -/
theorem shownFiles_insert {relative : Location} {content : Bytes} (hshown : isShown relative = true)
    (hnew : d'.contentAt (root ++ relative) = some content)
    (hrest : ∀ other, isShown other = true → other ≠ relative →
      d'.contentAt (root ++ other) = d.contentAt (root ++ other)) :
    shownFiles root d' = (shownFiles root d).insert relative content := by
  refine Finmap.ext_lookup fun other => ?_
  by_cases hother : other = relative
  · subst hother
    rw [Finmap.lookup_insert, lookup_shownFiles, shownContent, if_pos hshown, hnew]
  · rw [Finmap.lookup_insert_of_ne _ hother]
    simp only [lookup_shownFiles, shownContent]
    split
    · next h => exact hrest other h hother
    · rfl

/-- A change at one shown location that leaves none. -/
theorem shownFiles_erase {relative : Location} (hnew : d'.contentAt (root ++ relative) = none)
    (hrest : ∀ other, isShown other = true → other ≠ relative →
      d'.contentAt (root ++ other) = d.contentAt (root ++ other)) :
    shownFiles root d' = (shownFiles root d).erase relative := by
  refine Finmap.ext_lookup fun other => ?_
  by_cases hother : other = relative
  · subst hother
    rw [Finmap.lookup_erase, lookup_shownFiles, shownContent, hnew]
    simp
  · rw [Finmap.lookup_erase_ne hother]
    simp only [lookup_shownFiles, shownContent]
    split
    · next h => exact hrest other h hother
    · rfl

/-! ## Limits -/

namespace WorkspaceLimits

/-- The limits as bounds on the map of shown files. -/
def bounds (limits : WorkspaceLimits) : Bounds where
  value := limits.maxFileBytes
  count := limits.maxEntries
  total := limits.maxWorkspaceBytes

end WorkspaceLimits

namespace WorkspaceStore

variable (store : WorkspaceStore)

/-- **The quota.**  The shown files are within the limits. -/
def WithinLimits (d : Disk FileName) : Prop :=
  store.limits.bounds.Holds List.length (shownFiles store.root d)

/-- The operations of the store: confined, and whatever their outcome, the quota is kept. -/
def Allowed (faulty : Bool) (d : Disk FileName) (op : StoreOp) : Prop :=
  Confined store.root d op ∧
    ∀ reply d', op.Exec faulty d reply d' → store.WithinLimits d → store.WithinLimits d'

variable {store}

theorem WithinLimits.congr {d d' : Disk FileName} (h : store.WithinLimits d)
    (hsame : shownFiles store.root d' = shownFiles store.root d) : store.WithinLimits d' := by
  unfold WithinLimits
  rwa [hsame]

theorem allowed_of_isRead {faulty : Bool} {d : Disk FileName} {op : FsOp FileName}
    (hread : op.isRead = true) (h : Confined store.root d (.fs op)) :
    store.Allowed faulty d (.fs op) := by
  refine ⟨h, fun reply d' hexec hlimits => ?_⟩
  have hsame : d' = d := FsOp.Exec.of_isRead hexec hread
  exact hsame ▸ hlimits

end WorkspaceStore

/-! ## Rules for the operations -/

section Rules

variable {store : WorkspaceStore} {faulty : Bool} {α : Type}
variable {allowed : Disk FileName → StoreOp → Prop}
variable {exec : (op : StoreOp) → Disk FileName → op.Reply → Disk FileName → Prop}

/-- What is left to prove after a file operation: its result returned or its error thrown. -/
def afterFs (post : Except StoreFailure α → Disk FileName → Prop) :
    Except Errno α → Disk FileName → Prop
  | .ok result, d' => post (.ok result) d'
  | .error e, d' => post (.error (.errno e)) d'

theorem wp_await {op : FsOp FileName}
    {post : Except StoreFailure op.Result → Disk FileName → Prop} :
    (fs op).wp exec allowed post d ↔
      allowed d (.fs op) ∧ ∀ reply d', exec (.fs op) d reply d' → afterFs post reply d' := by
  refine and_congr_right fun _ => forall_congr' fun reply => forall_congr' fun d' =>
    imp_congr_right fun _ => ?_
  cases reply <;> exact Iff.rfl

theorem wp_fs {op : FsOp FileName} {post : Except StoreFailure op.Result → Disk FileName → Prop} :
    (fs op).wp (StoreOp.Exec faulty) allowed post d ↔
      allowed d (.fs op) ∧ ∀ reply d', op.Exec faulty d reply d' → afterFs post reply d' := wp_await

theorem wp_atomicWriteHook {step : WriteStep}
    {post : Except StoreFailure Unit → Disk FileName → Prop} :
    (atomicWriteHook step).wp (StoreOp.Exec faulty) allowed post d ↔
      allowed d (.hook step) ∧ post (.ok ()) d ∧ (faulty = true → post (.error (.hook step)) d) := by
  simp only [atomicWriteHook, Prog.wp_perform, Prog.wp_throwIf, StoreOp.Exec]
  refine and_congr_right fun _ => ⟨fun h => ⟨?_, ?_⟩, ?_⟩
  · exact (h true d ⟨rfl, .inl rfl⟩).2 (by simp)
  · exact fun hfaulty => (h false d ⟨rfl, .inr hfaulty⟩).1 rfl
  · rintro ⟨hok, hthrow⟩ reply d' ⟨rfl, hreply⟩
    refine ⟨?_, fun _ => hok⟩
    rintro rfl
    exact hthrow (hreply.resolve_left (by simp))

theorem wp_randomUUID {post : Except StoreFailure UUID → Disk FileName → Prop} :
    randomUUID.wp (StoreOp.Exec faulty) allowed post d ↔
      allowed d .randomUUID ∧ ∀ uuid, post (.ok uuid) d := by
  refine and_congr_right fun _ => ⟨fun h uuid => h uuid d rfl, ?_⟩
  rintro h uuid d' rfl
  exact h uuid

/-- **The outcome of a program that only looks.**  The disk is as it was, and the result is as
described unless an operation failed for a reason of its own. -/
def Reads (faulty : Bool) (d : Disk FileName) (outcome : Except StoreFailure α → Prop) :
    Except StoreFailure α → Disk FileName → Prop := fun r d' =>
  d' = d ∧ ((faulty = true ∧ r = .error (.errno .fault)) ∨ outcome r)

/-- Sequencing after a program that only looks. -/
theorem Reads.bind {β : Type} {p : StoreProg α} {f : α → StoreProg β}
    {outcome : Except StoreFailure α → Prop} {post : Except StoreFailure β → Disk FileName → Prop}
    (hp : p.wp exec allowed (Reads faulty d outcome) d)
    (hfault : faulty = true → post (.error (.errno .fault)) d)
    (hok : ∀ a, outcome (.ok a) → (f a).wp exec allowed post d)
    (herror : ∀ e, outcome (.error e) → post (.error e) d) :
    (p >>= f).wp exec allowed post d := by
  rw [Prog.wp_bind]
  refine Prog.wp_post (fun r d' h => ?_) hp
  obtain ⟨rfl, ⟨hfaulty, rfl⟩ | h⟩ := h
  · exact hfault hfaulty
  · cases r with
    | ok a => exact hok a h
    | error e => exact herror e h

/-- Sequencing of two programs that only look. -/
theorem Reads.seq {β : Type} {p : StoreProg α} {f : α → StoreProg β}
    {outcome : Except StoreFailure α → Prop} {outcome' : Except StoreFailure β → Prop}
    (hp : p.wp exec allowed (Reads faulty d outcome) d)
    (hok : ∀ a, outcome (.ok a) →
      (f a).wp exec allowed (Reads faulty d outcome') d)
    (herror : ∀ e, outcome (.error e) → outcome' (.error e)) :
    (p >>= f).wp exec allowed (Reads faulty d outcome') d :=
  Reads.bind hp (fun h => ⟨rfl, .inl ⟨h, rfl⟩⟩) hok fun e h => ⟨rfl, .inr (herror e h)⟩

theorem Reads.pure {a : α} {outcome : Except StoreFailure α → Prop} (h : outcome (.ok a)) :
    (Pure.pure a : StoreProg α).wp exec allowed (Reads faulty d outcome) d :=
  ⟨rfl, .inr h⟩

theorem Reads.throw {e : StoreFailure} {outcome : Except StoreFailure α → Prop}
    (h : outcome (.error e)) :
    (MonadExcept.throw e : StoreProg α).wp exec allowed
      (Reads faulty d outcome) d :=
  ⟨rfl, .inr h⟩

theorem Reads.mono {p : StoreProg α} {outcome outcome' : Except StoreFailure α → Prop}
    (hp : p.wp exec allowed (Reads faulty d outcome) d)
    (h : ∀ r, outcome r → outcome' r) :
    p.wp exec allowed (Reads faulty d outcome') d :=
  Prog.wp_post (fun _ _ hr => ⟨hr.1, hr.2.imp_right (h _)⟩) hp

/-- A check in front of a program. -/
theorem wp_refuseIf_bind {β : Type} {c : Prop} [Decidable c] {status : Nat}
    {code message : JSString} {hstatus : 400 ≤ status ∧ status < 500} {f : Unit → StoreProg β}
    {post : Except StoreFailure β → Disk FileName → Prop}
    (hrefuse : c → post (.error (.workspace ⟨status, code, message, hstatus⟩)) d)
    (hok : ¬ c → (f ()).wp exec allowed post d) :
    (refuseIf c status code message hstatus >>= f).wp exec allowed post d := by
  rw [Prog.wp_bind, refuseIf, Prog.wp_throwIf]
  exact ⟨hrefuse, hok⟩

/-- A handler after a program that only looks; it passes faults on. -/
theorem Reads.tryCatch {p : StoreProg α} {handler : StoreFailure → StoreProg α}
    {outcome : Except StoreFailure α → Prop} {post : Except StoreFailure α → Disk FileName → Prop}
    (hp : p.wp exec allowed (Reads faulty d outcome) d)
    (hfault : faulty = true →
      (handler (.errno .fault)).wp exec allowed post d)
    (hok : ∀ a, outcome (.ok a) → post (.ok a) d)
    (herror : ∀ e, outcome (.error e) →
      (handler e).wp exec allowed post d) :
    (p.tryCatch handler).wp exec allowed post d := by
  rw [Prog.wp_tryCatch]
  refine Prog.wp_post (fun r d' h => ?_) hp
  obtain ⟨rfl, ⟨hfaulty, rfl⟩ | h⟩ := h
  · exact hfault hfaulty
  · cases r with
    | ok a => exact hok a h
    | error e => exact herror e h

/-- A final step after a program that only looks. -/
theorem Reads.ensuring {p : StoreProg α} {cleanup : StoreProg Unit}
    {outcome : Except StoreFailure α → Prop}
    (hp : p.wp exec allowed (Reads faulty d outcome) d)
    (hcleanup : cleanup.wp exec allowed (Reads faulty d fun r => r = .ok ()) d) :
    (p.ensuring cleanup).wp exec allowed (Reads faulty d outcome) d := by
  rw [Prog.wp_ensuring]
  refine Prog.wp_post (fun r d' h => ?_) hp
  obtain ⟨rfl, hr⟩ := h
  refine Prog.wp_post (fun r' d'' h' => ?_) hcleanup
  obtain ⟨rfl, ⟨hfaulty, rfl⟩ | rfl⟩ := h'
  · exact ⟨rfl, .inl ⟨hfaulty, rfl⟩⟩
  · exact ⟨rfl, hr⟩

/-! The looks, on a volume where `p` denotes the plain location `q`. -/

theorem wp_lstat_at (hallowed : allowed d (.fs (.lstat p)))
    (hexec : ∀ reply d', exec (.fs (.lstat p)) d reply d' →
      (FsOp.lstat q).Exec faulty d reply d') (hq : d.locate false q = .ok q) :
    (fs (.lstat p)).wp exec allowed (Reads faulty d fun r => r = match d.entryAt q with
        | some e => .ok (FsOp.statOf d e)
        | none => .error (.errno .noEntry)) d := by
  refine wp_await.mpr ⟨hallowed, fun reply d' h => ?_⟩
  obtain ⟨rfl, ⟨hfaulty, rfl⟩ | rfl⟩ := (hexec reply d' h).lstat hq
  · exact ⟨rfl, .inl ⟨hfaulty, rfl⟩⟩
  · cases d'.entryAt q <;> exact ⟨rfl, .inr rfl⟩

theorem wp_readdir_at (hallowed : allowed d (.fs (.readdir p)))
    (hexec : ∀ reply d', exec (.fs (.readdir p)) d reply d' →
      (FsOp.readdir q).Exec faulty d reply d') (hdir : d.entryAt q = some .dir) :
    (fs (.readdir p)).wp exec allowed (Reads faulty d fun r => r = .ok (d.children q)) d := by
  refine wp_await.mpr ⟨hallowed, fun reply d' h => ?_⟩
  obtain ⟨rfl, ⟨hfaulty, rfl⟩ | rfl⟩ := (hexec reply d' h).readdir hdir
  · exact ⟨rfl, .inl ⟨hfaulty, rfl⟩⟩
  · exact ⟨rfl, .inr rfl⟩

theorem wp_openRead_at {i : Nat} (hallowed : allowed d (.fs (.openRead p)))
    (hexec : ∀ reply d', exec (.fs (.openRead p)) d reply d' →
      (FsOp.openRead q).Exec faulty d reply d') (hq : d.locate false q = .ok q)
    (hfile : d.entryAt q = some (.file i)) :
    (fs (.openRead p)).wp exec allowed (Reads faulty d fun r => r = .ok (.file i)) d := by
  refine wp_await.mpr ⟨hallowed, fun reply d' h => ?_⟩
  obtain ⟨rfl, ⟨hfaulty, rfl⟩ | rfl⟩ := (hexec reply d' h).openRead hq hfile
  · exact ⟨rfl, .inl ⟨hfaulty, rfl⟩⟩
  · exact ⟨rfl, .inr rfl⟩

theorem wp_fstat_at {i : Nat} (hallowed : allowed d (.fs (.fstat (.file i))))
    (hexec : ∀ reply d', exec (.fs (.fstat (.file i))) d reply d' →
      (FsOp.fstat (.file i)).Exec faulty d reply d') :
    (fs (.fstat (.file i))).wp exec allowed
      (Reads faulty d fun r => r = .ok (FsOp.statOf d (.file i))) d := by
  refine wp_await.mpr ⟨hallowed, fun reply d' h => ?_⟩
  obtain ⟨rfl, ⟨hfaulty, rfl⟩ | rfl⟩ := (hexec reply d' h).fstat
  · exact ⟨rfl, .inl ⟨hfaulty, rfl⟩⟩
  · exact ⟨rfl, .inr rfl⟩

theorem wp_readFile_at {i : Nat} (hallowed : allowed d (.fs (.readFile (.file i))))
    (hexec : ∀ reply d', exec (.fs (.readFile (.file i))) d reply d' →
      (FsOp.readFile (.file i)).Exec faulty d reply d') :
    (fs (.readFile (.file i))).wp exec allowed
      (Reads faulty d fun r => r = .ok (d.inodes i).content) d := by
  refine wp_await.mpr ⟨hallowed, fun reply d' h => ?_⟩
  obtain ⟨rfl, ⟨hfaulty, rfl⟩ | rfl⟩ := (hexec reply d' h).readFile
  · exact ⟨rfl, .inl ⟨hfaulty, rfl⟩⟩
  · exact ⟨rfl, .inr rfl⟩

theorem wp_close_at {handle : Handle} (hallowed : allowed d (.fs (.close handle)))
    (hexec : ∀ reply d', exec (.fs (.close handle)) d reply d' →
      (FsOp.close handle).Exec faulty d reply d') :
    (fs (.close handle)).wp exec allowed (Reads faulty d fun r => r = .ok ()) d := by
  refine wp_await.mpr ⟨hallowed, fun reply d' h => ?_⟩
  obtain ⟨rfl, ⟨hfaulty, rfl⟩ | rfl⟩ := (hexec reply d' h).close
  · exact ⟨rfl, .inl ⟨hfaulty, rfl⟩⟩
  · exact ⟨rfl, .inr rfl⟩

/-! The looks of the store at paths that denote themselves. -/

theorem wp_lstat (h : Inside store.root d p) :
    (fs (.lstat p)).wp (StoreOp.Exec faulty) (store.Allowed faulty)
      (Reads faulty d fun r => r = match d.entryAt p with
        | some e => .ok (FsOp.statOf d e)
        | none => .error (.errno .noEntry)) d :=
  wp_lstat_at (WorkspaceStore.allowed_of_isRead rfl h) (fun _ _ hexec => hexec) h.locate

theorem wp_readdir {relative : Location} (hgit : gitName ∉ relative)
    (hdir : d.entryAt (store.root ++ relative) = some .dir) :
    (fs (.readdir (store.root ++ relative))).wp (StoreOp.Exec faulty) (store.Allowed faulty)
      (Reads faulty d fun r => r = .ok (d.children (store.root ++ relative))) d :=
  wp_readdir_at (WorkspaceStore.allowed_of_isRead rfl ⟨relative, rfl, hgit, hdir⟩)
    (fun _ _ hexec => hexec) hdir

theorem wp_openRead {i : Nat} (h : Inside store.root d p) (hfile : d.entryAt p = some (.file i)) :
    (fs (.openRead p)).wp (StoreOp.Exec faulty) (store.Allowed faulty)
      (Reads faulty d fun r => r = .ok (.file i)) d :=
  wp_openRead_at (WorkspaceStore.allowed_of_isRead rfl ⟨h, i, hfile⟩) (fun _ _ hexec => hexec)
    h.locate hfile

theorem wp_fstat {i : Nat} (h : OpenInside store.root d (.file i)) :
    (fs (.fstat (.file i))).wp (StoreOp.Exec faulty) (store.Allowed faulty)
      (Reads faulty d fun r => r = .ok (FsOp.statOf d (.file i))) d :=
  wp_fstat_at (WorkspaceStore.allowed_of_isRead rfl h) fun _ _ hexec => hexec

theorem wp_readFile {i : Nat} (h : OpenInside store.root d (.file i)) :
    (fs (.readFile (.file i))).wp (StoreOp.Exec faulty) (store.Allowed faulty)
      (Reads faulty d fun r => r = .ok (d.inodes i).content) d :=
  wp_readFile_at (WorkspaceStore.allowed_of_isRead rfl h) fun _ _ hexec => hexec

theorem wp_close {handle : Handle} (h : OpenInside store.root d handle) :
    (fs (.close handle)).wp (StoreOp.Exec faulty) (store.Allowed faulty)
      (Reads faulty d fun r => r = .ok ()) d :=
  wp_close_at (WorkspaceStore.allowed_of_isRead rfl h) fun _ _ hexec => hexec

theorem wp_fsync {handle : Handle} (h : OpenInside store.root d handle) :
    (fs (.fsync handle)).wp (StoreOp.Exec faulty) (store.Allowed faulty)
      (Reads faulty d fun r => r = .ok ()) d := by
  refine wp_fs.mpr ⟨WorkspaceStore.allowed_of_isRead rfl h, fun reply d' hexec => ?_⟩
  obtain ⟨rfl, ⟨hfaulty, rfl⟩ | rfl⟩ := hexec.fsync
  · exact ⟨rfl, .inl ⟨hfaulty, rfl⟩⟩
  · exact ⟨rfl, .inr rfl⟩

end Rules

end Typr
