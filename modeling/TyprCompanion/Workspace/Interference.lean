import TyprCompanion.Core.Overlap
import TyprCompanion.Workspace.AtomicWrite

/-!
# What a mutation does to others

`list` and `read` take no lock: while they run, a mutation may do so too.  What they may rely on.

* `Orderly` — the disks they may meet, also in the middle of a mutation.
* `Gentle` — what the operations of a mutation have in common: what they make has a valid name, what
  they fill is hidden and has no other name.
* `Drifts` — directories stay, and a file that is shown keeps its inode as it is.
* `drifts_of_gentle` — gentle operations are drifts.
* `Mutation.gentle_body` — mutations are gentle.
* **`drifts_of_step`** — so is every step of a store at work.
-/

namespace Typr

open Core

variable {store : WorkspaceStore} {d t u : Disk FileName}

/-! ## Drifting disks -/

/-- **A disk at any moment**: whatever is shown is in order, and a hidden file is not shown too. -/
structure Orderly (store : WorkspaceStore) (d : Disk FileName) : Prop where
  root : d.entryAt store.root = some .dir
  clean : store.Clean d
  within : store.WithinLimits d
  apart : ∀ i p q, d.entryAt p = some (.file i) → d.entryAt q = some (.file i) →
    IsHiddenBelow store.root p → IsHiddenBelow store.root q

/-- An inode that no hidden name has. -/
structure Shown (store : WorkspaceStore) (d : Disk FileName) (i : Nat) : Prop where
  old : i < d.nextInode
  names : ∀ p, d.entryAt p = some (.file i) → ¬ IsHiddenBelow store.root p

/-- Directories stay, and what is not hidden stays so with its data. -/
structure Stays (store : WorkspaceStore) (d t : Disk FileName) : Prop where
  dirs : ∀ p, d.entryAt p = some .dir → t.entryAt p = some .dir
  inodes : ∀ i, Shown store d i → Shown store t i ∧ t.inodes i = d.inodes i

/-- **A drift** keeps the disk orderly. -/
def Drifts (store : WorkspaceStore) (d t : Disk FileName) : Prop :=
  Orderly store d → Orderly store t ∧ Stays store d t

theorem Stays.refl (store : WorkspaceStore) (d : Disk FileName) : Stays store d d :=
  ⟨fun _ h => h, fun _ h => ⟨h, rfl⟩⟩

theorem Stays.trans (h : Stays store d t) (h' : Stays store t u) : Stays store d u where
  dirs p hp := h'.dirs p (h.dirs p hp)
  inodes i hi := by
    obtain ⟨hshown, hsame⟩ := h.inodes i hi
    obtain ⟨hshown', hsame'⟩ := h'.inodes i hshown
    exact ⟨hshown', hsame'.trans hsame⟩

theorem Drifts.refl (d : Disk FileName) : Drifts store d d := fun h => ⟨h, .refl store d⟩

theorem Drifts.trans (h : Drifts store d t) (h' : Drifts store t u) : Drifts store d u := by
  intro hd
  obtain ⟨ht, hstays⟩ := h hd
  obtain ⟨hu, hstays'⟩ := h' ht
  exact ⟨hu, hstays.trans hstays'⟩

/-- The file at a shown location. -/
theorem Orderly.shown (h : Orderly store d) {relative : Location} {i : Nat}
    (hshown : isShown relative = true) (hfile : d.entryAt (store.root ++ relative) = some (.file i)) :
    Shown store d i where
  old := Disk.fresh_entryAt hfile
  names p hp hhidden := (h.apart i p _ hp hfile hhidden).ne_shown hshown rfl

theorem WorkspaceStore.Good.orderly (h : store.Good d) : Orderly store d where
  root := h.root
  clean := h.toClean
  within := h.within
  apart := by
    rintro i p q hp - ⟨relative, rfl, name, hname, hhidden⟩
    have hne : relative ≠ [] := List.ne_nil_of_mem hname
    have hshown := (isShown_iff.mp (h.shown hne hp)).2 name hname
    exact absurd (hhidden.symm.trans hshown) (by decide)

/-! ## Gentle operations -/

/-- The location of a valid path. -/
def WorkspaceStore.Names (store : WorkspaceStore) (p : Location) : Prop :=
  ∃ path, IsWorkspacePath store.platform path ∧ p = store.root ++ relativeLocation path

/-- **What a mutation does** besides staying within the workspace. -/
def Gentle (store : WorkspaceStore) (d : Disk FileName) : StoreOp → Prop
  | .fs (.mkdir p _) => store.Names p
  | .fs (.openCreate p _) | .fs (.rmForce p) => IsHiddenBelow store.root p
  | .fs (.writeFile handle _) =>
      ∃ i p, handle = .file i ∧ OnlyAt d i p ∧ IsHiddenBelow store.root p
  | .fs (.rename p q) => (∃ i, OnlyAt d i p) ∧ IsHiddenBelow store.root p ∧ store.Names q
  | _ => True

/-- What is written below a valid name is shown. -/
theorem WorkspaceStore.Names.shown {p : Location} (h : store.Names p) :
    ∃ relative, p = store.root ++ relative ∧ isShown relative = true ∧
      IsWorkspacePath store.platform (pathOf relative) := by
  obtain ⟨path, hvalid, rfl⟩ := h
  refine ⟨relativeLocation path, rfl,
    isShown_iff.mpr ⟨relativeLocation_ne_nil path, hvalid.not_hidden⟩, ?_⟩
  rw [pathOf_relativeLocation]
  exact validateWorkspacePath_toWellFormed hvalid

theorem WorkspaceStore.Names.not_hidden {p : Location} (h : store.Names p) :
    ¬ IsHiddenBelow store.root p := by
  obtain ⟨relative, rfl, hshown, -⟩ := h.shown
  exact fun hhidden => hhidden.ne_shown hshown rfl

/-- **The effect of a gentle operation.**  New directories have valid names; a file at a new name was
hidden or is new, and has no other name. -/
structure Effect (store : WorkspaceStore) (d t : Disk FileName) : Prop where
  kept : ∀ q, d.entryAt q = some .dir → t.entryAt q = some .dir
  entries : ∀ q e, t.entryAt q = some e → d.entryAt q = some e ∨ (e = .dir ∧ store.Names q) ∨
    ∃ i, e = .file i ∧ ¬ Shown store d i ∧ (store.Names q ∨ IsHiddenBelow store.root q) ∧
      ∀ q', t.entryAt q' = some (.file i) → q' = q
  inodes : ∀ i, Shown store d i → t.inodes i = d.inodes i
  nextInode : d.nextInode ≤ t.nextInode

theorem Effect.refl (store : WorkspaceStore) (d : Disk FileName) : Effect store d d :=
  ⟨fun _ h => h, fun _ _ h => .inl h, fun _ _ => rfl, Nat.le_refl _⟩

theorem Effect.drift (h : Effect store d t) (hd : Orderly store d) (hwithin : store.WithinLimits t) :
    Orderly store t ∧ Stays store d t := by
  refine ⟨⟨h.kept _ hd.root, ?_, hwithin, ?_⟩, h.kept, fun i hi => ⟨⟨?_, ?_⟩, h.inodes i hi⟩⟩
  · intro relative hshown e hentry
    have hnames (hnames : store.Names (store.root ++ relative)) :
        IsWorkspacePath store.platform (pathOf relative) := by
      obtain ⟨relative', heq, -, hvalid⟩ := hnames.shown
      rwa [List.append_cancel_left heq]
    rcases h.entries _ e hentry with hold | ⟨rfl, hnamed⟩ | ⟨i, rfl, -, hnamed | hhidden, -⟩
    · exact hd.clean relative hshown e hold
    · exact ⟨hnames hnamed, .inl rfl⟩
    · exact ⟨hnames hnamed, .inr ⟨i, rfl⟩⟩
    · exact absurd rfl (hhidden.ne_shown hshown)
  · intro i p q hp hq hhidden
    rcases h.entries p _ hp with hold | ⟨hdir, -⟩ | ⟨j, heq, -, -, honly⟩
    · rcases h.entries q _ hq with hold' | ⟨hdir, -⟩ | ⟨j, heq, -, -, honly⟩
      · exact hd.apart i p q hold hold' hhidden
      · cases hdir
      · obtain rfl : i = j := by simpa using heq
        exact honly p hp ▸ hhidden
    · cases hdir
    · obtain rfl : i = j := by simpa using heq
      exact honly q hq ▸ hhidden
  · exact Nat.lt_of_lt_of_le hi.old h.nextInode
  · intro p hp
    rcases h.entries p _ hp with hold | ⟨hdir, -⟩ | ⟨j, heq, hnot, -⟩
    · exact hi.names p hold
    · cases hdir
    · obtain rfl : i = j := by simpa using heq
      exact absurd hi hnot

/-- An inode with a hidden name. -/
theorem not_shown_of_hidden {i : Nat} {p : Location} (hfile : d.entryAt p = some (.file i))
    (hhidden : IsHiddenBelow store.root p) : ¬ Shown store d i :=
  fun h => h.names p hfile hhidden

theorem effect_mkdir {p : Location} (h : Inside store.root d p) (hfree : d.entryAt p = none)
    (hnamed : store.Names p) : Effect store d (d.put p .dir) := by
  have hentry := Disk.entryAt_put (d := d) (e := .dir) ⟨h.ne_nil, h.parent, by simp [hfree], trivial⟩
  refine ⟨fun q hq => ?_, fun q e hq => ?_, fun i _ => by simp, by simp⟩
  · rw [hentry]
    split
    · rfl
    · exact hq
  · rw [hentry] at hq
    split at hq
    next heq => exact .inr (.inl ⟨(Option.some.inj hq).symm, heq ▸ hnamed⟩)
    next => exact .inl hq

theorem effect_created {p : Location} (h : Inside store.root d p) (hfree : d.entryAt p = none)
    (hhidden : IsHiddenBelow store.root p) (mode now : Nat) :
    Effect store d (FsOp.created d p mode now) := by
  have hentry (q : Location) : (FsOp.created d p mode now).entryAt q
      = if q = p then some (.file d.nextInode) else d.entryAt q :=
    FsOp.entryAt_created h.ne_nil h.parent hfree q
  refine ⟨fun q hq => ?_, fun q e hq => ?_, fun i hi => FsOp.inodes_created hi.old, ?_⟩
  · rw [hentry, if_neg (by rintro rfl; simp [hfree] at hq)]
    exact hq
  · rw [hentry] at hq
    split at hq
    next heq =>
      refine .inr (.inr ⟨d.nextInode, (Option.some.inj hq).symm, ?_, .inr (heq ▸ hhidden), ?_⟩)
      · exact fun hshown => absurd hshown.old (Nat.lt_irrefl _)
      · intro q' hq'
        rw [hentry] at hq'
        split at hq'
        next heq' => exact heq'.trans heq.symm
        next => exact absurd (Disk.fresh_entryAt hq') (Nat.lt_irrefl _)
    next => exact .inl hq
  · simp [FsOp.created]

theorem effect_setInode {i : Nat} {data : FileData} (hnot : ¬ Shown store d i) :
    Effect store d (d.setInode i data) := by
  refine ⟨fun q hq => by simpa using hq, fun q e hq => .inl (by simpa using hq), ?_, by simp⟩
  intro j hj
  rw [Disk.inodes_setInode, if_neg]
  rintro rfl
  exact hnot hj

theorem effect_remove {p : Location} (hfile : d.entryAt p ≠ some .dir) :
    Effect store d (d.remove p) := by
  have hentry := Disk.entryAt_remove hfile
  refine ⟨fun q hq => ?_, fun q e hq => ?_, fun i _ => by simp, by simp⟩
  · rw [hentry, if_neg (by rintro rfl; exact hfile hq)]
    exact hq
  · rw [hentry] at hq
    split at hq
    · cases hq
    · exact .inl hq

theorem effect_renamed {p q : Location} {i : Nat} (h : Inside store.root d q) (honly : OnlyAt d i p)
    (hhidden : IsHiddenBelow store.root p) (hnamed : store.Names q)
    (htarget : d.entryAt q ≠ some .dir) : Effect store d (FsOp.renamed d p q (.file i)) := by
  have hfile : d.entryAt p = some (.file i) := (honly p).mpr rfl
  have hentry := FsOp.entryAt_renamed h.ne_nil h.parent htarget hfile
  refine ⟨fun r hr => ?_, fun r e hr => ?_, fun j _ => by simp, by simp [FsOp.renamed]⟩
  · rw [hentry, if_neg (by rintro rfl; exact htarget hr), if_neg (by rintro rfl; simp [hfile] at hr)]
    exact hr
  · rw [hentry] at hr
    split at hr
    next heq =>
      refine .inr (.inr ⟨i, (Option.some.inj hr).symm, not_shown_of_hidden hfile hhidden,
        .inl (heq ▸ hnamed), fun r' hr' => ?_⟩)
      rw [hentry] at hr'
      split at hr'
      next heq' => exact heq'.trans heq.symm
      next =>
        split at hr'
        · cases hr'
        next hne => exact absurd ((honly r').mp hr') hne
    next =>
      split at hr
      · cases hr
      · exact .inl hr

/-- **Gentle operations are drifts.** -/
theorem drifts_of_gentle {op : StoreOp} {reply : op.Reply} (hallowed : store.Allowed false d op)
    (hgentle : Gentle store d op) (hexec : op.Exec false d reply t) : Drifts store d t := by
  intro hd
  refine Effect.drift ?_ hd (hallowed.2 reply t hexec hd.within)
  have hconfined := hallowed.1
  cases op with
  | hook step =>
      rw [hexec.1]
      exact .refl store d
  | randomUUID =>
      obtain rfl : t = d := hexec
      exact .refl store t
  | fs op =>
      cases op with
      | lstat p | readdir p | openRead p | fstat handle | readFile handle | close handle
      | fsync handle =>
          rw [FsOp.Exec.of_isRead hexec rfl]
          exact .refl store d
      | mkdir p mode =>
          have hinside : Inside store.root d p := hconfined
          cases hentry : d.entryAt p with
          | none =>
              rcases FsOp.Exec.mkdir hexec hinside.locate hentry with ⟨-, rfl⟩ | ⟨hfaulty, -⟩
              · exact effect_mkdir hinside hentry hgentle
              · cases hfaulty
          | some e =>
              rw [(FsOp.Exec.mkdir_some hexec hinside.locate hentry).2]
              exact .refl store d
      | openCreate p mode =>
          have hinside : Inside store.root d p := hconfined
          rcases FsOp.Exec.openCreate hexec hinside.locate
            with ⟨hfree, -, now, rfl⟩ | ⟨-, -, rfl⟩ | ⟨hfaulty, -⟩
          · exact effect_created hinside hfree hgentle mode now
          · exact .refl store t
          · cases hfaulty
      | writeFile handle content =>
          obtain ⟨i, p, rfl, honly, hhidden⟩ := hgentle
          rcases FsOp.Exec.writeFile hexec with ⟨-, now, rfl⟩ | ⟨hfaulty, -⟩
          · exact effect_setInode (not_shown_of_hidden ((honly p).mpr rfl) hhidden)
          · cases hfaulty
      | rename p q =>
          obtain ⟨⟨i, honly⟩, hhidden, hnamed⟩ := hgentle
          obtain ⟨hsource, htarget, -⟩ : Inside store.root d p ∧ Inside store.root d q ∧ _ := hconfined
          have hne : p ≠ q := by
            rintro rfl
            exact hnamed.not_hidden hhidden
          rcases FsOp.Exec.rename hexec hsource.locate htarget.locate hne ((honly p).mpr rfl)
            with ⟨hdir, -, rfl⟩ | ⟨-, -, rfl⟩ | ⟨hfaulty, -⟩
          · exact effect_renamed htarget honly hhidden hnamed hdir
          · exact .refl store t
          · cases hfaulty
      | unlink p =>
          obtain ⟨hinside, i, hfile⟩ : Inside store.root d p ∧ ∃ i, d.entryAt p = some (.file i) :=
            hconfined
          rcases FsOp.Exec.unlink hexec hinside.locate hfile with ⟨-, rfl⟩ | ⟨hfaulty, -⟩
          · exact effect_remove (by simp [hfile])
          · cases hfaulty
      | rmForce p =>
          have hinside : Inside store.root d p := hconfined
          rcases FsOp.Exec.rmForce hexec hinside.locate with ⟨hfile, -, rfl⟩ | ⟨-, rfl, -⟩
          · split
            · exact .refl store d
            · exact effect_remove hfile
          · exact .refl store t

/-! ## Mutations are gentle -/

/-- The outcomes of the operations a store performs. -/
def StoreOp.ExecAllowed (store : WorkspaceStore) (op : StoreOp) (d : Disk FileName) (reply : op.Reply)
    (t : Disk FileName) : Prop :=
  store.Allowed false d op ∧ op.Exec false d reply t

section Gentle

variable {α β : Type}

/-- Looking is gentle. -/
theorem gentle_of_looks {op : StoreOp} (h : op.Looks) : Gentle store d op := by
  cases op with
  | fs op =>
      have hread : op.isRead = true := h
      cases op with
      | mkdir | openCreate | writeFile | rename | rmForce => cases hread
      | _ => trivial
  | _ => exact h.elim

/-- A part that looks, and what follows. -/
theorem gentle_looks_bind {p : StoreProg α} {f : α → StoreProg β} (hp : p.Only StoreOp.Looks)
    (hf : ∀ a t, (f a).wp (StoreOp.ExecAllowed store) (Gentle store) (fun _ _ => True) t)
    (d : Disk FileName) :
    (p >>= f).wp (StoreOp.ExecAllowed store) (Gentle store) (fun _ _ => True) d := by
  have hgentle (t : Disk FileName) (op : StoreOp) (h : op.Looks) : Gentle store t op :=
    gentle_of_looks h
  exact hp.wp_bind hgentle (fun _ _ => trivial) hf d

/-- What the loop of `resolveForWrite` does: it looks, and makes directories on the way. -/
def StoreOp.MakesNamed (store : WorkspaceStore) : StoreOp → Prop
  | .fs (.lstat _) => True
  | .fs (.mkdir p _) => store.Names p
  | _ => False

theorem makesNamed_makeDirectory {p : Location} (h : store.Names p) :
    (WorkspaceStore.makeDirectory p).Only (StoreOp.MakesNamed store) := by
  have hfs (op : FsOp FileName) (hop : (StoreOp.fs op).MakesNamed store) :
      (fs op).Only (StoreOp.MakesNamed store) := by
    refine ⟨hop, fun reply => ?_⟩
    cases reply <;> exact trivial
  refine Prog.only_tryCatch (Prog.only_bind (hfs (.lstat p) trivial) fun info => ?_) fun e => ?_
  · unfold refuseIf Prog.throwIf
    split <;> exact trivial
  · split
    · exact hfs (.mkdir p 0o700) h
    · exact Prog.only_throw _

theorem gentle_makeParents {path : JSString} (hvalid : IsWorkspacePath store.platform path)
    (segments : List JSString) (before : Location)
    (hpath : before ++ segments.map fileName <+: relativeLocation path) (d : Disk FileName) :
    (WorkspaceStore.makeParents (store.root ++ before) segments).wp (StoreOp.ExecAllowed store)
      (Gentle store)
      (fun r _ => ∀ parent, r = .ok parent → parent = store.root ++ (before ++ segments.map fileName))
      d := by
  induction segments generalizing before d with
  | nil =>
      rintro parent hparent
      obtain rfl := Except.ok.inj hparent
      rw [List.map_nil, List.append_nil]
  | cons segment rest ih =>
      have hassoc : before ++ (segment :: rest).map fileName
          = (before ++ [fileName segment]) ++ rest.map fileName := by simp
      rw [hassoc] at hpath ⊢
      have hnamed : store.Names (store.root ++ (before ++ [fileName segment])) := by
        obtain ⟨path', hvalid', heq⟩ := exists_path_above hvalid (by simp)
          ((List.prefix_append _ _).trans hpath)
        exact ⟨path', hvalid', by rw [heq]⟩
      have hgentle (t : Disk FileName) (op : StoreOp) (hop : op.MakesNamed store) :
          Gentle store t op := by
        cases op with
        | fs op =>
            cases op with
            | lstat p => trivial
            | mkdir p mode => exact hop
            | _ => exact hop.elim
        | _ => exact hop.elim
      rw [WorkspaceStore.makeParents, List.append_assoc store.root before]
      refine (makesNamed_makeDirectory hnamed).wp_bind hgentle ?_ (fun _ t => ih _ hpath t) d
      rintro e t parent hparent
      cases hparent

/-- What is done with the temporary file while it is open. -/
def StoreOp.Fills (i : Nat) : StoreOp → Prop
  | .hook _ => True
  | .fs (.writeFile handle _) => handle = .file i
  | .fs (.fsync _) | .fs (.close _) => True
  | _ => False

/-- Filling the temporary file is gentle while no other name leads to it. -/
theorem gentle_filling {temporary : Location} {i : Nat} (content : Bytes)
    (hhidden : IsHiddenBelow store.root temporary) (honly : OnlyAt d i temporary) :
    (Prog.onError (do
        atomicWriteHook .write
        fs (.writeFile (.file i) content)
        atomicWriteHook .sync
        fs (.fsync (.file i))
        fs (.close (.file i))) (WorkspaceStore.quietly (fs (.close (.file i))))).wp
      (StoreOp.ExecAllowed store) (Gentle store) (fun _ t => OnlyAt t i temporary) d := by
  have hfs (op : FsOp FileName) (hop : (StoreOp.fs op).Fills i) : (fs op).Only (StoreOp.Fills i) := by
    refine ⟨hop, fun reply => ?_⟩
    cases reply <;> exact trivial
  have hhook (step : WriteStep) : (atomicWriteHook step).Only (StoreOp.Fills i) := by
    refine ⟨trivial, fun returned => ?_⟩
    cases returned <;> exact trivial
  have hclose : (WorkspaceStore.quietly (fs (.close (.file i)))).Only (StoreOp.Fills i) :=
    Prog.only_tryCatch (hfs (.close (.file i)) trivial) fun _ => trivial
  have hbody : (Prog.onError (do
        atomicWriteHook .write
        fs (.writeFile (.file i) content)
        atomicWriteHook .sync
        fs (.fsync (.file i))
        fs (.close (.file i))) (WorkspaceStore.quietly (fs (.close (.file i))))).Only
      (StoreOp.Fills i) := by
    refine Prog.only_tryCatch ?_ fun e => Prog.only_bind hclose fun _ => Prog.only_throw e
    refine Prog.only_bind (hhook .write) fun _ => ?_
    refine Prog.only_bind (hfs (.writeFile (.file i) content) rfl) fun _ => ?_
    refine Prog.only_bind (hhook .sync) fun _ => ?_
    exact Prog.only_bind (hfs (.fsync (.file i)) trivial) fun _ => hfs (.close (.file i)) trivial
  have hkeeps (op : StoreOp) (hop : op.Fills i) (s : Disk FileName) (reply : op.Reply)
      (t : Disk FileName) (hexec : op.ExecAllowed store s reply t) (hs : OnlyAt s i temporary) :
      OnlyAt t i temporary := by
    obtain ⟨-, hexec⟩ := hexec
    cases op with
    | hook step =>
        rw [hexec.1]
        exact hs
    | randomUUID => exact hop.elim
    | fs op =>
        cases op with
        | writeFile handle content =>
            obtain rfl : handle = .file i := hop
            rcases FsOp.Exec.writeFile hexec with ⟨-, now, rfl⟩ | ⟨hfaulty, -⟩
            · exact fun q => by rw [Disk.entryAt_setInode]; exact hs q
            · cases hfaulty
        | fsync handle | close handle =>
            rw [FsOp.Exec.of_isRead hexec rfl]
            exact hs
        | _ => exact hop.elim
  have hfills : ∀ (s : Disk FileName) (op : StoreOp), op.Fills i → op.Fills i := fun _ _ h => h
  refine Prog.wp_mono (fun s op h => ?_) (fun r t h => h.1)
    (Prog.wp_both (hbody.wp_keeps hkeeps honly) (hbody.wp hfills d))
  obtain ⟨hs, hop⟩ := h
  cases op with
  | fs op =>
      cases op with
      | writeFile handle content => exact ⟨i, temporary, hop, hs, hhidden⟩
      | fsync | close => trivial
      | _ => exact hop.elim
  | _ => trivial

/-- **The replacement** is gentle: the temporary file is new when it is filled. -/
theorem gentle_replaceFile {temporary destination : Location} {content : Bytes} {mode : Nat}
    (hhidden : IsHiddenBelow store.root temporary) (hnamed : store.Names destination)
    (d : Disk FileName) :
    (WorkspaceStore.replaceFile temporary destination content mode).wp (StoreOp.ExecAllowed store)
      (Gentle store) (fun _ _ => True) d := by
  have hcleanup (t : Disk FileName) : (WorkspaceStore.quietly (fs (.rmForce temporary))).wp
      (StoreOp.ExecAllowed store) (Gentle store) (fun _ _ => True) t := by
    refine ⟨hhidden, fun reply t _ => ?_⟩
    cases reply <;> trivial
  have hfail (e : StoreFailure) (t : Disk FileName) :
      Prog.afterCleanup (StoreOp.ExecAllowed store) (Gentle store) (fun _ _ => True)
        (WorkspaceStore.quietly (fs (.rmForce temporary))) (.error e : Except StoreFailure Unit) t := by
    refine Prog.wp_post (fun r _ _ => ?_) (hcleanup t)
    cases r <;> trivial
  rw [WorkspaceStore.replaceFile, Prog.wp_onError, Prog.wp_bind]
  refine ⟨hhidden, ?_⟩
  rintro reply t ⟨⟨hinside, -⟩, hexec⟩
  have hinside : Inside store.root d temporary := hinside
  rcases FsOp.Exec.openCreate hexec hinside.locate
    with ⟨hfree, rfl, now, rfl⟩ | ⟨-, rfl, -⟩ | ⟨hfaulty, -⟩
  · have honly : OnlyAt (FsOp.created d temporary mode now) d.nextInode temporary :=
      (Filling.created hinside hfree mode now).onlyAt
    show Prog.afterBind _ _ _ _ (.ok _) _
    rw [Prog.afterBind_ok, Prog.wp_bind]
    refine Prog.wp_post ?_ (gentle_filling content hhidden honly)
    rintro r t honly
    cases r with
    | error e => exact hfail e t
    | ok u =>
        refine ⟨trivial, fun reply t' hexec => ?_⟩
        obtain ⟨-, rfl, -⟩ := hexec
        cases reply with
        | false => exact hfail _ t'
        | true =>
            refine ⟨⟨⟨_, honly⟩, hhidden, hnamed⟩, fun reply t'' _ => ?_⟩
            cases reply with
            | ok u => trivial
            | error e => exact hfail _ t''
  · exact hfail (.errno .alreadyExists) t
  · cases hfaulty

theorem gentle_publish (path : WorkspacePath store.platform) (content : Bytes) (mode : Nat)
    (d : Disk FileName) :
    (store.publish path content mode).wp (StoreOp.ExecAllowed store) (Gentle store)
      (fun _ _ => True) d := by
  have hdirs : [] ++ (JSString.split (unit '/') path.text).dropLast.map fileName
      <+: relativeLocation path.text := by
    rw [List.nil_append, relativeLocation_eq_concat]
    exact List.prefix_append _ _
  have hparents := gentle_makeParents path.valid _ [] hdirs d
  rw [List.append_nil] at hparents
  rw [WorkspaceStore.publish, WorkspaceStore.resolveForWrite, Prog.wp_bind, Prog.wp_bind]
  refine Prog.wp_post ?_ hparents
  rintro r t hparent
  cases r with
  | error e => trivial
  | ok parent =>
      obtain rfl := hparent parent rfl
      refine ⟨trivial, fun uuid t' _ => ?_⟩
      have hnamed : store.Names (store.root ++ ([] ++
          (JSString.split (unit '/') path.text).dropLast.map fileName) ++
          [fileName ((JSString.split (unit '/') path.text).getLastD [])]) :=
        ⟨path.text, path.valid, by rw [relativeLocation_eq_concat]; simp⟩
      show Prog.wp _ _ _ (WorkspaceStore.replaceFile _ _ _ _ >>= _) t'
      rw [Prog.wp_bind]
      refine Prog.wp_post ?_ (gentle_replaceFile (isHiddenBelow_temporary store.root _ uuid) hnamed t')
      rintro (e | u) t'' -
      · trivial
      · show Prog.wp _ _ _ (store.readValid path >>= _) t''
        refine gentle_looks_bind (looks_readValid path) (fun result v => ?_) t''
        trivial

theorem gentle_lockedWrite (path : WorkspacePath store.platform) (content : Bytes)
    (precondition : WorkspaceWritePrecondition) (d : Disk FileName) :
    (store.lockedWrite path content precondition).wp (StoreOp.ExecAllowed store) (Gentle store)
      (fun _ _ => True) d := by
  refine gentle_looks_bind (looks_readIfExists path) (fun existing t => ?_) d
  refine gentle_looks_bind ?_ (fun _ t => ?_) t
  · cases precondition <;> exact looks_refuseIf
  refine gentle_looks_bind looks_scan (fun files t => ?_) t
  refine gentle_looks_bind looks_refuseIf (fun _ t => ?_) t
  exact gentle_looks_bind looks_refuseIf (fun _ t => gentle_publish path content _ t) t

theorem gentle_lockedDelete (path : WorkspacePath store.platform) (expectedEtag : JSString)
    (d : Disk FileName) :
    (store.lockedDelete path expectedEtag).wp (StoreOp.ExecAllowed store) (Gentle store)
      (fun _ _ => True) d := by
  refine gentle_looks_bind (looks_readIfExists path) (fun existing t => ?_) d
  refine gentle_looks_bind looks_refuseIf (fun _ t => ?_) t
  refine gentle_looks_bind (looks_resolveSegments _ _) (fun filePath t => ?_) t
  refine ⟨trivial, fun reply t' _ => ?_⟩
  cases reply <;> trivial

/-- **Mutations are gentle.** -/
theorem Mutation.gentle_body (call : Mutation store) (d : Disk FileName) :
    call.body.wp (StoreOp.ExecAllowed store) (Gentle store) (fun _ _ => True) d := by
  cases call with
  | write path content precondition =>
      refine (Prog.wp_map _ _ _ _).mpr (Prog.wp_post (fun r t _ => ?_) (gentle_lockedWrite ..))
      cases r <;> trivial
  | delete path expectedEtag =>
      refine (Prog.wp_map _ _ _ _).mpr (Prog.wp_post (fun r t _ => ?_) (gentle_lockedDelete ..))
      cases r <;> trivial

end Gentle

/-! ## A store at work -/

/-- What each operation of a mutation is, on the disk it meets. -/
def Careful (store : WorkspaceStore) (d : Disk FileName) (op : StoreOp) : Prop :=
  (store.Allowed false d op ∧ Gentle store d op) ∧ Orderly store d

/-- A mutation is careful from beginning to end. -/
theorem Mutation.careful_body (call : Mutation store) (hd : Orderly store d) :
    call.body.wp (StoreOp.Exec false) (Careful store) (fun _ t => Orderly store t) d := by
  have hguarded := Prog.wp_assuming (call.wp_body hd.root) (call.gentle_body d)
  refine Prog.wp_post (fun r t h => h.2) (Prog.wp_invariant ?_ hguarded hd)
  rintro s op ⟨hallowed, hgentle⟩ reply t hexec hs
  exact (drifts_of_gentle hallowed hgentle hexec hs).1

variable {m m' : StoreSystem store}

theorem orderly_of_reachable (hd : Orderly store d)
    (h : Mutex.Reachable (StoreOp.Exec false) Mutation.body d m) : Orderly store m.store :=
  (h.holder (fun _ _ hcareful => hcareful.2) (fun call _ hs => call.careful_body hs) hd).1

/-- **Every step of a store at work** is a drift. -/
theorem drifts_of_step (hd : Orderly store d)
    (h : Mutex.Reachable (StoreOp.Exec false) Mutation.body d m)
    (hstep : Mutex.Step (StoreOp.Exec false) Mutation.body m m') : Drifts store m.store m'.store := by
  rcases h.guarded (fun _ _ hcareful => hcareful.2) (fun call _ hs => call.careful_body hs) hd hstep
    with hsame | ⟨op, reply, ⟨⟨hallowed, hgentle⟩, -⟩, hexec⟩
  · rw [hsame]
    exact .refl m.store
  · exact drifts_of_gentle hallowed hgentle hexec

end Typr
