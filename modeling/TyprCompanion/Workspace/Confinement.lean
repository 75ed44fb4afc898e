import TyprCompanion.Workspace.CompareAndSwap

/-!
# Confinement

On an arbitrary disk, with links and special files in any position, no operation of the store acts
outside the root, inside a directory of git's, or through a link.

* `Beyond`, `Untouched` — the locations that are none of the store's business, and a disk on which
  they are as before.
* `effect_of_confined`, `untouched_of_confined` — what a confined operation does, and what it leaves
  alone.
* **`WorkspaceStore.confined`** — the main result, for `list`, `read`, `write` and `delete`.
-/

namespace Typr

open Core

variable {store : WorkspaceStore} {faulty : Bool} {d d' : Disk FileName} {root : Location}

/-- Outside the root, the root itself, or in a directory of git's. -/
def Beyond (root p : Location) : Prop :=
  ¬ ∃ relative, p = root ++ relative ∧ relative ≠ [] ∧ gitName ∉ relative

/-- Whatever is beyond the workspace is as before. -/
def Untouched (root : Location) (d d' : Disk FileName) : Prop :=
  ∀ q, Beyond root q → d'.entryAt q = d.entryAt q ∧
    ∀ i, d.entryAt q = some (.file i) → d'.inodes i = d.inodes i

theorem Untouched.refl (root : Location) (d : Disk FileName) : Untouched root d d :=
  fun _ _ => ⟨rfl, fun _ _ => rfl⟩

theorem Untouched.trans {d'' : Disk FileName} (h : Untouched root d d')
    (h' : Untouched root d' d'') : Untouched root d d'' := by
  intro q hq
  obtain ⟨hentry, hinode⟩ := h q hq
  obtain ⟨hentry', hinode'⟩ := h' q hq
  exact ⟨hentry'.trans hentry,
    fun i hi => (hinode' i (hentry.trans hi)).trans (hinode i hi)⟩

theorem Inside.ne_beyond {p q : Location} (h : Inside root d p) (hq : Beyond root q) : q ≠ p := by
  rintro rfl
  exact hq h.below

/-- A change of the entries at places inside. -/
theorem untouched_of_entries {d' : Disk FileName} (hinodes : d'.inodes = d.inodes)
    (hentry : ∀ q, Beyond root q → d'.entryAt q = d.entryAt q) : Untouched root d d' :=
  fun q hq => ⟨hentry q hq, fun i _ => congrFun hinodes i⟩

/-- What a confined operation can do to a disk. -/
inductive ConfinedEffect (root : Location) (d : Disk FileName) : StoreOp → Disk FileName → Prop where
  | same (op : StoreOp) : ConfinedEffect root d op d
  | put {p : Location} {mode : Nat} (hinside : Inside root d p) (hfree : d.entryAt p = none) :
      ConfinedEffect root d (.fs (.mkdir p mode)) (d.put p .dir)
  | create {p : Location} {mode now : Nat} (hinside : Inside root d p)
      (hfree : d.entryAt p = none) :
      ConfinedEffect root d (.fs (.openCreate p mode)) (FsOp.created d p mode now)
  | write {i : Nat} {content : Bytes} {data : FileData}
      (hinside : ∀ p, d.entryAt p = some (.file i) → Inside root d p) :
      ConfinedEffect root d (.fs (.writeFile (.file i) content)) (d.setInode i data)
  | move {p q : Location} {i : Nat} (hsource : Inside root d p) (htarget : Inside root d q)
      (hfile : d.entryAt p = some (.file i)) (hdir : d.entryAt q ≠ some .dir) :
      ConfinedEffect root d (.fs (.rename p q)) (FsOp.renamed d p q (.file i))
  | unlink {p : Location} (hinside : Inside root d p) (hdir : d.entryAt p ≠ some .dir) :
      ConfinedEffect root d (.fs (.unlink p)) (d.remove p)
  | rmForce {p : Location} (hinside : Inside root d p) (hdir : d.entryAt p ≠ some .dir) :
      ConfinedEffect root d (.fs (.rmForce p)) (d.remove p)

theorem ConfinedEffect.of_eq {op : StoreOp} (h : d' = d) : ConfinedEffect root d op d' := h ▸ .same op

/-- The effects of a confined operation are those. -/
theorem effect_of_confined {op : StoreOp} {reply : op.Reply} (h : Confined root d op)
    (hexec : op.Exec faulty d reply d') : ConfinedEffect root d op d' := by
  cases op with
  | hook step => exact .of_eq hexec.1
  | randomUUID => exact .of_eq hexec
  | fs op =>
      cases op with
      | lstat p => exact .of_eq (FsOp.Exec.of_isRead hexec rfl)
      | readdir p => exact .of_eq (FsOp.Exec.of_isRead hexec rfl)
      | openRead p => exact .of_eq (FsOp.Exec.of_isRead hexec rfl)
      | fstat handle => exact .of_eq (FsOp.Exec.of_isRead hexec rfl)
      | readFile handle => exact .of_eq (FsOp.Exec.of_isRead hexec rfl)
      | close handle => exact .of_eq (FsOp.Exec.of_isRead hexec rfl)
      | fsync handle => exact .of_eq (FsOp.Exec.of_isRead hexec rfl)
      | mkdir p mode =>
          have hinside : Inside root d p := h
          cases hfree : d.entryAt p with
          | none =>
              rcases FsOp.Exec.mkdir hexec hinside.locate hfree with ⟨-, rfl⟩ | ⟨-, -, hd⟩
              · exact .put hinside hfree
              · exact .of_eq hd
          | some e => exact .of_eq (FsOp.Exec.mkdir_some hexec hinside.locate hfree).2
      | openCreate p mode =>
          have hinside : Inside root d p := h
          rcases FsOp.Exec.openCreate hexec hinside.locate
            with ⟨hfree, -, now, rfl⟩ | ⟨-, -, hd⟩ | ⟨-, -, hd⟩
          · exact .create hinside hfree
          · exact .of_eq hd
          · exact .of_eq hd
      | writeFile handle content =>
          obtain ⟨⟨i, p, rfl, -⟩, honly⟩ := h
          rcases FsOp.Exec.writeFile hexec with ⟨-, now, rfl⟩ | ⟨-, -, data, -, rfl⟩
          · exact .write fun q hq => honly i q rfl hq
          · exact .write fun q hq => honly i q rfl hq
      | rename p q =>
          obtain ⟨hsource, htarget, i, hfile⟩ := h
          by_cases hpq : p = q
          · subst hpq
            rcases FsOp.Exec.plain hexec (t := fun _ => d) (r := .ok ()) (by
              intro now
              simp only [FsOp.exec, FsOp.withLocation, hsource.locate, hfile, if_true]) (by simp)
              with ⟨-, -, hd⟩ | ⟨-, -, hd⟩
            · exact .of_eq hd
            · exact .of_eq hd
          · rcases FsOp.Exec.rename hexec hsource.locate htarget.locate hpq hfile
              with ⟨hdir, -, rfl⟩ | ⟨-, -, hd⟩ | ⟨-, -, hd⟩
            · exact .move hsource htarget hfile hdir
            · exact .of_eq hd
            · exact .of_eq hd
      | unlink p =>
          obtain ⟨hinside, i, hfile⟩ := h
          rcases FsOp.Exec.unlink hexec hinside.locate hfile with ⟨-, rfl⟩ | ⟨-, -, hd⟩
          · exact .unlink hinside (by simp [hfile])
          · exact .of_eq hd
      | rmForce p =>
          have hinside : Inside root d p := h
          rcases FsOp.Exec.rmForce hexec hinside.locate with ⟨hdir, -, rfl⟩ | ⟨-, hd, -⟩
          · split
            · exact .same _
            · exact .rmForce hinside hdir
          · exact .of_eq hd

/-- Nothing beyond the workspace is removed. -/
theorem untouched_remove {p : Location} (h : Inside root d p) (hdir : d.entryAt p ≠ some .dir) :
    Untouched root d (d.remove p) := by
  refine untouched_of_entries (by simp) fun q hq => ?_
  rw [Disk.entryAt_remove hdir, if_neg (h.ne_beyond hq)]

/-- Nothing beyond the workspace is moved or replaced. -/
theorem untouched_renamed {p q : Location} {i : Nat} (hsource : Inside root d p)
    (htarget : Inside root d q) (hfile : d.entryAt p = some (.file i))
    (hdir : d.entryAt q ≠ some .dir) : Untouched root d (FsOp.renamed d p q (.file i)) := by
  refine untouched_of_entries (by simp) fun r hr => ?_
  rw [FsOp.entryAt_renamed htarget.ne_nil htarget.parent hdir hfile,
    if_neg (htarget.ne_beyond hr), if_neg (hsource.ne_beyond hr)]

/-- **A confined operation** leaves everything beyond the workspace alone. -/
theorem untouched_of_confined {op : StoreOp} {reply : op.Reply} (h : Confined root d op)
    (hexec : op.Exec faulty d reply d') : Untouched root d d' := by
  cases effect_of_confined h hexec with
  | same => exact Untouched.refl _ _
  | put hinside hfree =>
      refine untouched_of_entries (by simp) fun q hq => ?_
      rw [Disk.entryAt_put ⟨hinside.ne_nil, hinside.parent, by simp [hfree], trivial⟩,
        if_neg (hinside.ne_beyond hq)]
  | create hinside hfree =>
      refine fun q hq => ⟨?_, fun i hi => FsOp.inodes_created (Disk.fresh_entryAt hi)⟩
      rw [FsOp.entryAt_created hinside.ne_nil hinside.parent hfree,
        if_neg (hinside.ne_beyond hq)]
  | @write i _ _ hinside =>
      refine fun q hq => ⟨rfl, fun j hj => ?_⟩
      have hne : j ≠ i := by
        rintro rfl
        exact hq (hinside q hj).below
      simp [hne]
  | move hsource htarget hfile hdir => exact untouched_renamed hsource htarget hfile hdir
  | unlink hinside hdir => exact untouched_remove hinside hdir
  | rmForce hinside hdir => exact untouched_remove hinside hdir

/-- **A program is confined** when each operation it performs is, whatever the operations before it
replied, and the disk beyond the workspace is left alone. -/
def IsConfined {α : Type} (store : WorkspaceStore) (faulty : Bool) (d : Disk FileName)
    (p : StoreProg α) (returns : α → Prop) : Prop :=
  p.wp (StoreOp.Exec faulty) (Confined store.root)
    (fun r t => (∀ a, r = .ok a → returns a) ∧ Untouched store.root d t) d

/-- Allowed operations are confined ones. -/
theorem isConfined_of_allowed {α : Type} {p : StoreProg α} {returns : α → Prop}
    (post : Except StoreFailure α → Disk FileName → Prop)
    (h : p.wp (StoreOp.Exec faulty) (store.Allowed faulty) post d)
    (hreturns : ∀ a t, post (.ok a) t → returns a) : IsConfined store faulty d p returns := by
  have hconfined : p.wp (StoreOp.Exec faulty) (Confined store.root) post d :=
    Prog.wp_mono (fun _ _ hallowed => hallowed.1) (fun _ _ hpost => hpost) h
  refine Prog.wp_post ?_ (Prog.wp_frame (R := Untouched store.root) (Untouched.refl _)
    Untouched.trans (fun _ _ _ _ hop hexec => untouched_of_confined hop hexec) hconfined)
  rintro r t ⟨hpost, huntouched⟩
  exact ⟨fun a ha => hreturns a t (ha ▸ hpost), huntouched⟩

/-- The metadata of a regular file strictly below the root and outside git's directories. -/
def DescribesFile (store : WorkspaceStore) (d : Disk FileName) (file : WorkspaceFileMetadata) :
    Prop :=
  ∃ relative i, relative ≠ [] ∧ gitName ∉ relative ∧
    d.entryAt (store.root ++ relative) = some (.file i) ∧
    file.size = (d.inodes i).content.length ∧
    file.etag = store.createEtag (d.inodes i).content

/-- **The store is confined to its workspace.**  Whatever tree there is below and around the root,
whatever fails on the way, and whatever path is asked for: the operations of `list`, `read`, `write`
and `delete` are confined, nothing beyond the workspace changes, and what `list` describes and `read`
returns is a regular file strictly below the root. -/
theorem WorkspaceStore.confined (store : WorkspaceStore) (faulty : Bool) {d : Disk FileName}
    (hroot : d.entryAt store.root = some .dir) :
    IsConfined store faulty d store.list (fun result => ∀ file ∈ result.2,
      DescribesFile store d file) ∧
    (∀ path, IsConfined store faulty d (store.read path) fun response =>
      DescribesFile store d response.toWorkspaceFileMetadata ∧
        ∃ i, d.entryAt (store.root ++ relativeLocation path) = some (.file i) ∧
          fromBase64 response.content = (d.inodes i).content) ∧
    (∀ path content precondition, IsConfined store faulty d
      (Prog.ofExcept (store.write path content precondition) >>= Mutation.body) fun _ => True) ∧
    (∀ path expectedEtag, IsConfined store faulty d
      (Prog.ofExcept (store.delete path expectedEtag) >>= Mutation.body) fun _ => True) := by
  have hmutation : ∀ call : Except StoreFailure (Mutation store),
      IsConfined store faulty d (Prog.ofExcept call >>= Mutation.body) fun _ => True := by
    intro call
    refine isConfined_of_allowed (fun _ _ => True) ?_ fun _ _ _ => trivial
    rw [Prog.wp_bind, Prog.wp_ofExcept]
    cases call with
    | error e => trivial
    | ok call => exact Prog.wp_post (fun _ _ _ => trivial) (call.wp_body hroot)
  refine ⟨?_, fun path => ?_, fun _ _ _ => hmutation _, fun _ _ => hmutation _⟩
  · have hlist : store.list.wp (StoreOp.Exec faulty) (store.Allowed faulty)
        (Reads faulty d fun r => ∀ result, r = .ok result → IsListing store d result.2) d := by
      rw [WorkspaceStore.list]
      refine Reads.seq (wp_scan hroot) (fun files hlisting => ?_) (by simp)
      refine Reads.pure fun result hresult => ?_
      obtain rfl := Except.ok.inj hresult
      exact hlisting
    refine isConfined_of_allowed _ hlist fun result t hpost file hfile => ?_
    have hlisting := (hpost.2.resolve_left (by simp)) result rfl
    obtain ⟨q, hq, rfl⟩ := List.mem_map.mp (hlisting.mem_iff.mp hfile)
    obtain ⟨hshown, i, hentry⟩ := isShown_of_mem (Finset.mem_toList.mp hq)
    obtain ⟨hne, hnames⟩ := isShown_iff.mp hshown
    refine ⟨q, i, hne, not_mem_of_not_hidden hnames, hentry, ?_, ?_⟩ <;>
      (rw [WorkspaceStore.describe, fileData_of_file hentry]; rfl)
  · refine isConfined_of_allowed _ (wp_read path hroot) fun response t hpost => ?_
    obtain ⟨hinvalid, hlookup⟩ := hpost.2.resolve_left (by simp)
    by_cases hvalid : IsWorkspacePath store.platform path
    · rcases hlookup hvalid with ⟨i, hfile, hfits⟩ | ⟨-, _, h, -⟩ | ⟨-, _, h, -⟩
      · have hsmall : ¬ store.limits.maxFileBytes < (d.inodes i).content.length := by
          intro hlarge
          obtain ⟨_, h, -⟩ := (fitsOr413_large hlarge).mp hfits
          exact absurd h (by simp)
        have hresponse := (fitsOr413_small hsmall).mp hfits
        obtain rfl := Except.ok.inj hresponse
        exact ⟨⟨relativeLocation path, i, relativeLocation_ne_nil path,
          not_mem_of_not_hidden hvalid.not_hidden, hfile, rfl, rfl⟩, i, hfile,
          fromBase64_toBase64 _⟩
      · exact absurd h (by simp)
      · exact absurd h (by simp)
    · obtain ⟨_, h, -⟩ := hinvalid hvalid
      exact absurd h (by simp)

namespace EmptyWorkspace

/-- The workspace with a link to the top directory in it. -/
def linked : Disk FileName :=
  disk.put (papers.root ++ [fileName (js "outside")]) (.link ⟨true, []⟩)

theorem root_linked : linked.entryAt papers.root = some .dir := by decide

end EmptyWorkspace

/-- A write through the link leaves everything beyond the workspace alone, whatever fails. -/
theorem WorkspaceStore.confined_link :
    IsConfined EmptyWorkspace.papers true EmptyWorkspace.linked
      (Prog.ofExcept (EmptyWorkspace.papers.write (js "outside/paper/a.tex") [104] .create)
        >>= Mutation.body) fun _ => True :=
  (EmptyWorkspace.papers.confined true EmptyWorkspace.root_linked).2.2.1 _ _ _

end Typr
