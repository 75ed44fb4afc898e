import TyprCompanion.Core.FileSystem

/-!
# A volume that ignores case

Names that a map `fold` does not tell apart denote the same entry.  A new entry gets the spelling it
is created with and keeps it; `readdir` reports the spellings on disk.

* `Disk.resolve` — the location on disk a path denotes.
* `FsOp.ExecFold` — the operations on such a volume: those of `FileSystem` at the resolved paths.
* `Distinct` — no directory has two spellings of one name.  An existing location then denotes
  itself (`resolve_eq_self`), and a path through directories keeps its meaning as long as
  directories stay (`resolve_of_keepsDirs`).
-/

namespace Core

variable {N F : Type} [DecidableEq N] [DecidableEq F] (fold : N → F)

namespace Disk

variable {d d' : Disk N} {p q : List N} {n m : N}

/-! ## Resolution -/

/-- The entry of a directory a name denotes, or the name itself when there is none. -/
def sibling (d : Disk N) (directory : List N) (n : N) : N :=
  ((d.children directory).find? fun m => fold m = fold n).getD n

/-- The location a path denotes.  Past a link, names are taken as they are spelled. -/
def resolve (d : Disk N) (p : List N) : List N :=
  p.foldl (fun directory n => directory ++ [d.sibling fold directory n]) []

@[simp] theorem resolve_nil (d : Disk N) : d.resolve fold [] = [] := rfl

theorem resolve_concat (d : Disk N) (p : List N) (n : N) :
    d.resolve fold (p ++ [n]) = d.resolve fold p ++ [d.sibling fold (d.resolve fold p) n] := by
  rw [resolve, List.foldl_append]
  rfl

/-- A name denotes an entry of the directory, or there is none it could denote. -/
theorem sibling_cases (d : Disk N) (p : List N) (n : N) :
    (d.entryAt (p ++ [d.sibling fold p n]) ≠ none ∧ fold (d.sibling fold p n) = fold n) ∨
      (d.sibling fold p n = n ∧ ∀ m, fold m = fold n → d.entryAt (p ++ [m]) = none) := by
  unfold sibling
  cases h : (d.children p).find? fun m => fold m = fold n with
  | none =>
      refine .inr ⟨rfl, fun m hm => ?_⟩
      by_contra hentry
      have hnot := List.find?_eq_none.mp h m (mem_children.mpr hentry)
      exact hnot (by simpa using hm)
  | some m =>
      have hfold := List.find?_some h
      exact .inl ⟨mem_children.mp (List.mem_of_find?_eq_some h), by simpa using hfold⟩

theorem fold_sibling (d : Disk N) (p : List N) (n : N) :
    fold (d.sibling fold p n) = fold n := by
  rcases sibling_cases fold d p n with ⟨-, h⟩ | ⟨h, -⟩
  · exact h
  · rw [h]

@[simp] theorem map_fold_resolve (d : Disk N) (p : List N) :
    (d.resolve fold p).map fold = p.map fold := by
  induction p using List.reverseRecOn with
  | nil => rfl
  | append_singleton p n ih => simp [resolve_concat, ih, fold_sibling]

@[simp] theorem resolve_eq_nil : d.resolve fold p = [] ↔ p = [] := by
  have h := congrArg List.length (map_fold_resolve fold d p)
  simp only [List.length_map] at h
  rw [← List.length_eq_zero_iff, h, List.length_eq_zero_iff]

theorem dropLast_resolve (d : Disk N) (p : List N) :
    (d.resolve fold p).dropLast = d.resolve fold p.dropLast := by
  rcases List.eq_nil_or_concat' p with rfl | ⟨p, n, rfl⟩
  · rfl
  · simp [resolve_concat]

/-- Whatever a path denotes lies in directories its beginnings denote. -/
theorem entryAt_resolve_append (hq : q ≠ []) (h : d.entryAt (d.resolve fold (p ++ q)) ≠ none) :
    d.entryAt (d.resolve fold p) = some .dir := by
  induction q using List.reverseRecOn with
  | nil => exact absurd rfl hq
  | append_singleton q n ih =>
      have hparent : d.entryAt (d.resolve fold (p ++ q)) = some .dir := by
        have hdrop := entryAt_dropLast h
        rwa [dropLast_resolve, ← List.append_assoc, List.dropLast_concat] at hdrop
      by_cases hnil : q = []
      · simpa [hnil] using hparent
      · exact ih hnil (by simp [hparent])

/-! ## Distinct names -/

/-- No directory has two spellings of one name. -/
def Distinct (d : Disk N) : Prop :=
  ∀ p n m, d.entryAt (p ++ [n]) ≠ none → d.entryAt (p ++ [m]) ≠ none → fold n = fold m → n = m

/-- Every directory is still one. -/
def KeepsDirs (d d' : Disk N) : Prop := ∀ p, d.entryAt p = some .dir → d'.entryAt p = some .dir

theorem KeepsDirs.refl (d : Disk N) : KeepsDirs d d := fun _ h => h

theorem KeepsDirs.trans {d'' : Disk N} (h : KeepsDirs d d') (h' : KeepsDirs d' d'') :
    KeepsDirs d d'' := fun p hp => h' p (h p hp)

variable {fold}

theorem Distinct.sibling_eq (h : Distinct fold d) (hentry : d.entryAt (p ++ [m]) ≠ none)
    (hfold : fold m = fold n) : d.sibling fold p n = m := by
  rcases sibling_cases fold d p n with ⟨hsibling, heq⟩ | ⟨-, hnone⟩
  · exact h p _ _ hsibling hentry (heq.trans hfold.symm)
  · exact absurd (hnone m hfold) hentry

/-- An existing location denotes itself. -/
theorem Distinct.resolve_eq_self (h : Distinct fold d) (hentry : d.entryAt p ≠ none) :
    d.resolve fold p = p := by
  induction p using List.reverseRecOn with
  | nil => rfl
  | append_singleton p n ih =>
      have hparent : d.entryAt p = some .dir := by simpa using entryAt_dropLast hentry
      rw [resolve_concat, ih (by simp [hparent]), h.sibling_eq hentry rfl]

/-- Below an existing location, only the rest of a path is resolved. -/
theorem Distinct.resolve_append (h : Distinct fold d) (hentry : d.entryAt p ≠ none) (q : List N) :
    ∃ relative, d.resolve fold (p ++ q) = p ++ relative ∧ relative.map fold = q.map fold := by
  induction q using List.reverseRecOn with
  | nil => exact ⟨[], by simpa using h.resolve_eq_self hentry, rfl⟩
  | append_singleton q n ih =>
      obtain ⟨relative, hrelative, hfold⟩ := ih
      refine ⟨relative ++ [d.sibling fold (p ++ relative) n], ?_, by simp [hfold, fold_sibling]⟩
      rw [← List.append_assoc, resolve_concat, hrelative, List.append_assoc]

/-- A path that denotes a directory goes on to denote it. -/
theorem Distinct.resolve_of_keepsDirs (h : Distinct fold d') (hkeeps : KeepsDirs d d')
    (hdir : d.entryAt (d.resolve fold p) = some .dir) :
    d'.resolve fold p = d.resolve fold p := by
  induction p using List.reverseRecOn with
  | nil => rfl
  | append_singleton p n ih =>
      have hparent : d.entryAt (d.resolve fold p) = some .dir := by
        have hdrop := entryAt_dropLast (d := d) (p := d.resolve fold (p ++ [n])) (by simp [hdir])
        rwa [dropLast_resolve, List.dropLast_concat] at hdrop
      have hstays := hkeeps _ hdir
      rw [resolve_concat] at hstays ⊢
      have hexists : d'.entryAt (d.resolve fold p ++ [d.sibling fold (d.resolve fold p) n]) ≠ none := by
        simp [hstays]
      rw [ih hparent, h.sibling_eq hexists (fold_sibling ..), resolve_concat]

omit [DecidableEq F] in
/-- Fewer entries are still distinct. -/
theorem Distinct.mono (h : Distinct fold d)
    (hentry : ∀ q, d'.entryAt q ≠ none → d.entryAt q ≠ none) : Distinct fold d' :=
  fun p n m hn hm hfold => h p n m (hentry _ hn) (hentry _ hm) hfold

omit [DecidableEq F] in
/-- One entry more whose name no other entry of its directory has. -/
theorem Distinct.insert (h : Distinct fold d)
    (hentry : ∀ q, q ≠ p ++ [n] → d'.entryAt q ≠ none → d.entryAt q ≠ none)
    (hfree : ∀ m, fold m = fold n → m ≠ n → d'.entryAt (p ++ [m]) = none) : Distinct fold d' := by
  intro q a b ha hb hfold
  by_cases hna : q ++ [a] = p ++ [n]
  · obtain ⟨rfl, rfl⟩ : q = p ∧ a = n := by simpa using hna
    by_contra hne
    exact hb (hfree b hfold.symm (Ne.symm hne))
  · by_cases hnb : q ++ [b] = p ++ [n]
    · obtain ⟨rfl, rfl⟩ : q = p ∧ b = n := by simpa using hnb
      by_contra hne
      exact ha (hfree a hfold hne)
    · exact h q a b (hentry _ hna ha) (hentry _ hnb hb) hfold

end Disk

/-! ## The operations -/

namespace FsOp

/-- The operation at other paths. -/
def mapPath {N : Type} (f : List N → List N) : FsOp N → FsOp N
  | lstat p => lstat (f p)
  | readdir p => readdir (f p)
  | openRead p => openRead (f p)
  | fstat handle => fstat handle
  | readFile handle => readFile handle
  | close handle => close handle
  | mkdir p mode => mkdir (f p) mode
  | openCreate p mode => openCreate (f p) mode
  | writeFile handle content => writeFile handle content
  | fsync handle => fsync handle
  | rename p q => rename (f p) (f q)
  | unlink p => unlink (f p)
  | rmForce p => rmForce (f p)

theorem reply_mapPath {N : Type} (f : List N → List N) (op : FsOp N) :
    op.Reply = (op.mapPath f).Reply := by cases op <;> rfl

/-- A file renamed onto an existing one may bring the spelling of its new name with it. -/
def Respells (d : Disk N) : (op : FsOp N) → op.Reply → Disk N → Disk N → Prop
  | rename _ q, .ok (), t, d' => ∃ directory n i, q = directory ++ [n] ∧
      d.resolve fold q ≠ d.resolve fold directory ++ [n] ∧
      t.entryAt (d.resolve fold q) = some (.file i) ∧
      d' = renamed t (d.resolve fold q) (d.resolve fold directory ++ [n]) (.file i)
  | _, _, _, _ => False

/-- The outcomes of an operation on a volume that ignores case. -/
def ExecFold (faulty : Bool) (op : FsOp N) (d : Disk N) (reply : op.Reply) (d' : Disk N) : Prop :=
  ∃ t, (op.mapPath (d.resolve fold)).Exec faulty d (cast (reply_mapPath _ op) reply) t ∧
    (d' = t ∨ Respells fold d op reply t d')

variable {fold} {faulty : Bool} {d d' : Disk N}

/-- Only a rename can respell a name. -/
theorem ExecFold.exec {op : FsOp N} {reply : op.Reply} (h : op.ExecFold fold faulty d reply d')
    (hop : ∀ p q, op ≠ rename p q) :
    (op.mapPath (d.resolve fold)).Exec faulty d (cast (reply_mapPath _ op) reply) d' := by
  obtain ⟨t, hexec, rfl | hrespells⟩ := h
  · exact hexec
  · cases op with
    | rename p q => exact absurd rfl (hop p q)
    | _ => exact hrespells.elim

theorem Exec.of_eq {op op' : FsOp N} (hop : op' = op) {hreply : op.Reply = op'.Reply}
    {reply : op.Reply} (h : op'.Exec faulty d (cast hreply reply) d') :
    op.Exec faulty d reply d' := by
  subst hop
  exact h

/-- An operation at paths that denote themselves has its plain outcomes. -/
theorem ExecFold.of_resolve {op : FsOp N} {reply : op.Reply}
    (h : op.ExecFold fold faulty d reply d') (hop : ∀ p q, op ≠ rename p q)
    (hresolve : op.mapPath (d.resolve fold) = op) : op.Exec faulty d reply d' :=
  (h.exec hop).of_eq hresolve

end FsOp

end Core
