import Mathlib.Data.List.AList
import Mathlib.Data.List.Induction
import TyprCompanion.Core.Program

/-!
# A file system with symbolic links

Directories, regular files, symbolic links and special files, addressed by absolute paths over an
arbitrary type of names.

* `Disk` — the entries by location, and the inodes the regular files refer to.  Two facts are part
  of the type: an entry's parent is a directory, and every file refers to an allocated inode.
* `Disk.locate` — path resolution: links met on the way are followed, the last component only on
  request.
* `FsOp`, `FsOp.exec` — the operations and what they do.  `FsOp.Exec` is the semantics for programs;
  a faulty environment adds the outcomes of an operation that fails for a reason of its own.
* `Disk.locate_eq` and the lemmas on `Exec` — below a real directory a path resolves to itself, and
  each operation has its plain effect.
-/

namespace Core

/-- File contents. -/
abbrev Bytes := List UInt8

/-- One component of a link's target. -/
inductive Hop (N : Type) where
  | name (n : N)
  | parent
  deriving DecidableEq

/-- Where a symbolic link points. -/
structure Link (N : Type) where
  absolute : Bool
  hops : List (Hop N)
  deriving DecidableEq

/-- What a location holds. -/
inductive Entry (N : Type) where
  | file (inode : Nat)
  | dir
  | link (target : Link N)
  | special
  deriving DecidableEq

/-- An inode of a regular file. -/
structure FileData where
  content : Bytes
  mode : Nat
  mtimeMs : Nat
  deriving DecidableEq

/-- A file system.  The top directory `[]` always exists and is not listed. -/
structure Disk (N : Type) [DecidableEq N] where
  entries : AList fun _ : List N => Entry N
  inodes : Nat → FileData
  nextInode : Nat
  rootless : entries.lookup [] = none
  rooted : ∀ p, (entries.lookup p).isSome → p.dropLast = [] ∨ entries.lookup p.dropLast = some .dir
  fresh : ∀ p i, entries.lookup p = some (.file i) → i < nextInode

namespace Disk

variable {N : Type} [DecidableEq N]

/-- The entry at a location. -/
def entryAt (d : Disk N) (p : List N) : Option (Entry N) :=
  if p = [] then some .dir else d.entries.lookup p

@[simp] theorem entryAt_nil (d : Disk N) : d.entryAt [] = some .dir := by simp [entryAt]

theorem entryAt_of_ne {d : Disk N} {p : List N} (h : p ≠ []) :
    d.entryAt p = d.entries.lookup p := by simp [entryAt, h]

/-- Whatever exists lies in a directory. -/
theorem entryAt_dropLast {d : Disk N} {p : List N} (h : d.entryAt p ≠ none) :
    d.entryAt p.dropLast = some .dir := by
  by_cases hp : p = []
  · simp [hp]
  · rw [entryAt_of_ne hp] at h
    rcases d.rooted p (Option.isSome_iff_ne_none.mpr h) with hroot | hdir
    · simp [hroot]
    · by_cases hparent : p.dropLast = []
      · simp [hparent]
      · rwa [entryAt_of_ne hparent]

/-- Every location on the way to an existing one is a directory. -/
theorem entryAt_append {d : Disk N} {p q : List N} (hq : q ≠ []) (h : d.entryAt (p ++ q) ≠ none) :
    d.entryAt p = some .dir := by
  induction q using List.reverseRecOn with
  | nil => exact absurd rfl hq
  | append_singleton q n ih =>
      have hparent : d.entryAt (p ++ q) = some .dir := by
        have hdrop := entryAt_dropLast h
        rwa [← List.append_assoc, List.dropLast_concat] at hdrop
      by_cases hq' : q = []
      · simpa [hq'] using hparent
      · exact ih hq' (by simp [hparent])

theorem dir_of_append {d : Disk N} {p q : List N} (h : d.entryAt (p ++ q) = some .dir) :
    d.entryAt p = some .dir := by
  by_cases hq : q = []
  · rwa [hq, List.append_nil] at h
  · exact entryAt_append hq (by rw [h]; simp)

/-- Below a location that holds nothing there is nothing. -/
theorem entryAt_append_none {d : Disk N} {p : List N} (h : d.entryAt p = none) (q : List N) :
    d.entryAt (p ++ q) = none := by
  by_cases hq : q = []
  · rwa [hq, List.append_nil]
  · by_contra hsome
    rw [entryAt_append hq hsome] at h
    cases h

/-- The disk that holds nothing. -/
def empty : Disk N where
  entries := ∅
  inodes := fun _ => ⟨[], 0, 0⟩
  nextInode := 0
  rootless := rfl
  rooted := fun p h => absurd h (by simp)
  fresh := fun p i h => absurd h (by simp)

@[simp] theorem entryAt_empty (p : List N) :
    (empty : Disk N).entryAt p = if p = [] then some .dir else none := by
  simp [entryAt, empty]

theorem fresh_entryAt {d : Disk N} {p : List N} {i : Nat} (h : d.entryAt p = some (.file i)) :
    i < d.nextInode := by
  by_cases hp : p = []
  · simp [hp] at h
  · exact d.fresh p i (by rwa [entryAt_of_ne hp] at h)

/-- The content of a regular file. -/
def contentAt (d : Disk N) (p : List N) : Option Bytes :=
  match d.entryAt p with
  | some (.file i) => some (d.inodes i).content
  | _ => none

theorem contentAt_file {d : Disk N} {p : List N} {i : Nat} (h : d.entryAt p = some (.file i)) :
    d.contentAt p = some (d.inodes i).content := by simp [contentAt, h]

theorem exists_file_of_contentAt {d : Disk N} {p : List N} {content : Bytes}
    (h : d.contentAt p = some content) :
    ∃ i, d.entryAt p = some (.file i) ∧ (d.inodes i).content = content := by
  unfold contentAt at h
  split at h
  · next i hi => exact ⟨i, hi, by simpa using h⟩
  · exact absurd h (by simp)

/-! ## Building blocks of the operations -/

/-- The names in a directory. -/
def children (d : Disk N) (p : List N) : List N :=
  d.entries.keys.filterMap fun k => if k.dropLast = p then k.getLast? else none

theorem mem_children {d : Disk N} {p : List N} {n : N} :
    n ∈ d.children p ↔ d.entryAt (p ++ [n]) ≠ none := by
  rw [entryAt_of_ne (by simp), ← Option.isSome_iff_ne_none, AList.lookup_isSome, AList.mem_keys]
  simp only [children, List.mem_filterMap, Option.ite_none_right_eq_some]
  constructor
  · rintro ⟨k, hk, rfl, hlast⟩
    have hne : k ≠ [] := by rintro rfl; simp at hlast
    rw [List.getLast?_eq_getLast_of_ne_nil hne, Option.some.injEq] at hlast
    rwa [← hlast, List.dropLast_append_getLast hne]
  · intro hk
    exact ⟨p ++ [n], hk, by simp⟩

theorem nodup_children (d : Disk N) (p : List N) : (d.children p).Nodup := by
  refine List.Nodup.filterMap ?_ d.entries.keys_nodup
  intro k k' n hk hk'
  simp only [Option.mem_def, Option.ite_none_right_eq_some] at hk hk'
  obtain ⟨hp, hn⟩ := hk
  obtain ⟨hp', hn'⟩ := hk'
  have hne : k ≠ [] := by rintro rfl; simp at hn
  have hne' : k' ≠ [] := by rintro rfl; simp at hn'
  rw [List.getLast?_eq_getLast_of_ne_nil hne, Option.some.injEq] at hn
  rw [List.getLast?_eq_getLast_of_ne_nil hne', Option.some.injEq] at hn'
  rw [← List.dropLast_append_getLast hne, ← List.dropLast_append_getLast hne', hp, hp', hn, hn']

/-- When a location may take an entry: its parent is a directory, and it does not hold one. -/
def CanPut (d : Disk N) (p : List N) (e : Entry N) : Prop :=
  p ≠ [] ∧ d.entryAt p.dropLast = some .dir ∧ d.entryAt p ≠ some .dir ∧
    match e with
    | .file i => i < d.nextInode
    | _ => True

instance (d : Disk N) (p : List N) (e : Entry N) : Decidable (d.CanPut p e) := by
  unfold CanPut; cases e <;> infer_instance

theorem lookup_dropLast_insert {d : Disk N} {p q : List N} {e : Entry N}
    (hp : p ≠ []) (hdir : d.entryAt p ≠ some .dir)
    (h : q = [] ∨ d.entries.lookup q = some .dir) :
    q = [] ∨ (d.entries.insert p e).lookup q = some .dir := by
  refine h.imp_right fun h => ?_
  have hne : q ≠ p := by
    rintro rfl
    exact hdir (by rwa [entryAt_of_ne hp])
  rwa [AList.lookup_insert_ne hne]

/-- Put an entry at a location, replacing what is there. -/
def put (d : Disk N) (p : List N) (e : Entry N) : Disk N :=
  if h : d.CanPut p e then
    { d with
      entries := d.entries.insert p e
      rootless := by rw [AList.lookup_insert_ne (Ne.symm h.1)]; exact d.rootless
      rooted := by
        intro q hq
        refine lookup_dropLast_insert h.1 h.2.2.1 ?_
        by_cases hqp : q = p
        · subst hqp
          by_cases hparent : q.dropLast = []
          · exact .inl hparent
          · exact .inr (by rw [← entryAt_of_ne hparent]; exact h.2.1)
        · rw [AList.lookup_insert_ne hqp] at hq
          exact d.rooted q hq
      fresh := by
        intro q i hq
        by_cases hqp : q = p
        · subst hqp
          rw [AList.lookup_insert, Option.some.injEq] at hq
          have hlast := h.2.2.2
          rw [hq] at hlast
          exact hlast
        · rw [AList.lookup_insert_ne hqp] at hq
          exact d.fresh q i hq }
  else d

/-- Remove the entry at a location that is not a directory. -/
def remove (d : Disk N) (p : List N) : Disk N :=
  if h : d.entryAt p ≠ some .dir then
    { d with
      entries := d.entries.erase p
      rootless := by
        rw [AList.lookup_erase_ne (by rintro rfl; simp at h)]
        exact d.rootless
      rooted := by
        intro q hq
        by_cases hqp : q = p
        · rw [hqp, AList.lookup_erase] at hq
          exact absurd hq (by simp)
        · rw [AList.lookup_erase_ne hqp] at hq
          refine (d.rooted q hq).imp_right fun hdir => ?_
          have hne : q.dropLast ≠ p := by
            intro heq
            by_cases hnil : p = []
            · exact h (by simp [hnil])
            · exact h (by rw [entryAt_of_ne hnil, ← heq]; exact hdir)
          rwa [AList.lookup_erase_ne hne]
      fresh := by
        intro q i hq
        by_cases hqp : q = p
        · rw [hqp, AList.lookup_erase] at hq
          exact absurd hq (by simp)
        · rw [AList.lookup_erase_ne hqp] at hq
          exact d.fresh q i hq }
  else d

/-- Give an inode new data. -/
def setInode (d : Disk N) (i : Nat) (data : FileData) : Disk N :=
  { d with inodes := fun j => if j = i then data else d.inodes j }

/-- Allocate an inode. -/
def allocate (d : Disk N) (data : FileData) : Disk N :=
  { d with
    inodes := fun j => if j = d.nextInode then data else d.inodes j
    nextInode := d.nextInode + 1
    fresh := fun p i h => Nat.lt_succ_of_lt (d.fresh p i h) }

theorem entryAt_put {d : Disk N} {p : List N} {e : Entry N} (h : d.CanPut p e) (q : List N) :
    (d.put p e).entryAt q = if q = p then some e else d.entryAt q := by
  rw [put, dif_pos h]
  unfold entryAt
  by_cases hq : q = []
  · simp [hq, Ne.symm h.1]
  · by_cases hqp : q = p
    · rw [if_neg hq, if_pos hqp, hqp, AList.lookup_insert]
    · rw [if_neg hq, if_neg hqp, if_neg hq, AList.lookup_insert_ne hqp]

theorem entryAt_remove {d : Disk N} {p : List N} (h : d.entryAt p ≠ some .dir) (q : List N) :
    (d.remove p).entryAt q = if q = p then none else d.entryAt q := by
  rw [remove, dif_pos h]
  unfold entryAt
  by_cases hq : q = []
  · have hp : ([] : List N) ≠ p := by rintro rfl; simp at h
    simp [hq, hp]
  · by_cases hqp : q = p
    · rw [if_neg hq, if_pos hqp, hqp, AList.lookup_erase]
    · rw [if_neg hq, if_neg hqp, if_neg hq, AList.lookup_erase_ne hqp]

@[simp] theorem entryAt_setInode (d : Disk N) (i : Nat) (data : FileData) (q : List N) :
    (d.setInode i data).entryAt q = d.entryAt q := rfl

@[simp] theorem entryAt_allocate (d : Disk N) (data : FileData) (q : List N) :
    (d.allocate data).entryAt q = d.entryAt q := rfl

@[simp] theorem nextInode_put (d : Disk N) (p : List N) (e : Entry N) :
    (d.put p e).nextInode = d.nextInode := by unfold put; split <;> rfl

@[simp] theorem nextInode_remove (d : Disk N) (p : List N) :
    (d.remove p).nextInode = d.nextInode := by unfold remove; split <;> rfl

@[simp] theorem nextInode_setInode (d : Disk N) (i : Nat) (data : FileData) :
    (d.setInode i data).nextInode = d.nextInode := rfl

@[simp] theorem nextInode_allocate (d : Disk N) (data : FileData) :
    (d.allocate data).nextInode = d.nextInode + 1 := rfl

@[simp] theorem inodes_put (d : Disk N) (p : List N) (e : Entry N) :
    (d.put p e).inodes = d.inodes := by unfold put; split <;> rfl

@[simp] theorem inodes_remove (d : Disk N) (p : List N) : (d.remove p).inodes = d.inodes := by
  unfold remove; split <;> rfl

@[simp] theorem inodes_setInode (d : Disk N) (i : Nat) (data : FileData) (j : Nat) :
    (d.setInode i data).inodes j = if j = i then data else d.inodes j := rfl

@[simp] theorem inodes_allocate (d : Disk N) (data : FileData) (j : Nat) :
    (d.allocate data).inodes j = if j = d.nextInode then data else d.inodes j := rfl

/-! ### What they do to the contents -/

theorem contentAt_congr {d d' : Disk N} {p : List N} (hentry : d'.entryAt p = d.entryAt p)
    (hinode : ∀ i, d.entryAt p = some (.file i) → d'.inodes i = d.inodes i) :
    d'.contentAt p = d.contentAt p := by
  unfold contentAt
  rw [hentry]
  cases h : d.entryAt p with
  | none => rfl
  | some e =>
      cases e with
      | file i => simp [hinode i h]
      | _ => rfl

theorem contentAt_put_dir {d : Disk N} {p : List N} (h : d.CanPut p .dir)
    (hfree : d.entryAt p = none) (q : List N) : (d.put p .dir).contentAt q = d.contentAt q := by
  by_cases hq : q = p
  · subst hq
    simp [contentAt, entryAt_put h, hfree]
  · exact contentAt_congr (by rw [entryAt_put h, if_neg hq]) (by simp)

theorem contentAt_remove {d : Disk N} {p : List N} (h : d.entryAt p ≠ some .dir) (q : List N) :
    (d.remove p).contentAt q = if q = p then none else d.contentAt q := by
  by_cases hq : q = p
  · simp [contentAt, entryAt_remove h, hq]
  · rw [if_neg hq]
    exact contentAt_congr (by rw [entryAt_remove h, if_neg hq]) (by simp)

theorem contentAt_setInode {d : Disk N} {i : Nat} {data : FileData} {q : List N}
    (h : d.entryAt q ≠ some (.file i)) : (d.setInode i data).contentAt q = d.contentAt q := by
  refine contentAt_congr rfl fun j hj => ?_
  have hne : j ≠ i := by rintro rfl; exact h hj
  simp [hne]

end Disk

/-! ## Path resolution -/

/-- The errors the operations report. -/
inductive Errno where
  | noEntry
  | notDirectory
  | alreadyExists
  | isDirectory
  | tooManyLinks
  /-- Any failure that is not about the tree: no space, an I/O error, no permission. -/
  | fault
  deriving DecidableEq

namespace Disk

variable {N : Type} [DecidableEq N]

/-- Resolve the rest of a path from the real directory `cur`.  A link on the way is handed to
`follow` with what remains; the last component is followed only when `followLast` is set. -/
def walk (d : Disk N) (followLast : Bool)
    (follow : List N → List (Hop N) → Except Errno (List N)) :
    List N → List (Hop N) → Except Errno (List N)
  | cur, [] => .ok cur
  | cur, .parent :: rest => walk d followLast follow cur.dropLast rest
  | cur, .name n :: rest =>
      if rest = [] ∧ followLast = false then .ok (cur ++ [n])
      else match d.entryAt (cur ++ [n]) with
        | some .dir => walk d followLast follow (cur ++ [n]) rest
        | some (.link target) =>
            follow (if target.absolute then [] else cur) (target.hops ++ rest)
        | some (.file _) => .error .notDirectory
        | some .special => .error .notDirectory
        | none => .error .noEntry

/-- Resolution with at most the given number of links. -/
def walkLinks (d : Disk N) (followLast : Bool) :
    Nat → List N → List (Hop N) → Except Errno (List N)
  | 0 => d.walk followLast fun _ _ => .error .tooManyLinks
  | links + 1 => d.walk followLast (d.walkLinks followLast links)

/-- The location a path names.  Forty links on one path are the limit. -/
def locate (d : Disk N) (followLast : Bool) (p : List N) : Except Errno (List N) :=
  d.walkLinks followLast 40 [] (p.map .name)

section Walk

variable {d : Disk N} {followLast : Bool} {follow : List N → List (Hop N) → Except Errno (List N)}
  {cur : List N} {n : N} {rest : List (Hop N)}

theorem walk_nil : d.walk followLast follow cur [] = .ok cur := rfl

theorem walk_single : d.walk false follow cur [.name n] = .ok (cur ++ [n]) :=
  if_pos ⟨rfl, rfl⟩

theorem walk_dir (hmore : ¬ (rest = [] ∧ followLast = false))
    (hdir : d.entryAt (cur ++ [n]) = some .dir) :
    d.walk followLast follow cur (.name n :: rest) = d.walk followLast follow (cur ++ [n]) rest :=
  (if_neg hmore).trans (by rw [hdir])

theorem walk_names {names : List N} (hne : names ≠ []) :
    ∀ cur, d.entryAt (cur ++ names.dropLast) = some .dir →
      d.walk false follow cur (names.map .name) = .ok (cur ++ names) := by
  induction names with
  | nil => exact absurd rfl hne
  | cons n rest ih =>
      intro cur h
      cases rest with
      | nil => exact walk_single
      | cons m rest =>
          rw [List.dropLast_cons_cons] at h
          have hsplit : cur ++ n :: (m :: rest).dropLast = (cur ++ [n]) ++ (m :: rest).dropLast := by
            simp
          rw [hsplit] at h
          have hrest := ih (by simp) (cur ++ [n]) h
          rw [List.map_cons, walk_dir (by simp) (dir_of_append h), hrest, List.append_assoc]
          rfl

theorem walk_names_follow (names : List N) :
    ∀ cur, d.entryAt (cur ++ names) = some .dir →
      d.walk true follow cur (names.map .name) = .ok (cur ++ names) := by
  induction names with
  | nil => intro cur _; rw [List.map_nil, walk_nil, List.append_nil]
  | cons n rest ih =>
      intro cur h
      have hsplit : cur ++ n :: rest = (cur ++ [n]) ++ rest := by simp
      rw [hsplit] at h
      have hrest := ih (cur ++ [n]) h
      rw [List.map_cons, walk_dir (by simp) (dir_of_append h), hrest, List.append_assoc]
      rfl

end Walk

theorem locate_eq_walk (d : Disk N) (followLast : Bool) (p : List N) :
    d.locate followLast p = d.walk followLast (d.walkLinks followLast 39) [] (p.map .name) := rfl

/-- **A path below a real directory names itself.** -/
theorem locate_eq {d : Disk N} {p : List N} (hne : p ≠ []) (h : d.entryAt p.dropLast = some .dir) :
    d.locate false p = .ok p := by
  rw [locate_eq_walk, walk_names hne [] (by rwa [List.nil_append]), List.nil_append]

/-- A real directory names itself, followed or not. -/
theorem locate_dir {d : Disk N} {p : List N} (h : d.entryAt p = some .dir) :
    d.locate true p = .ok p := by
  rw [locate_eq_walk, walk_names_follow p [] (by rwa [List.nil_append]), List.nil_append]

end Disk

/-! ## The operations -/

/-- The kind of an entry, as `lstat` reports it. -/
inductive Kind where
  | file
  | dir
  | link
  | special
  deriving DecidableEq

/-- What `lstat` and `fstat` report. -/
structure Stat where
  kind : Kind
  mode : Nat
  mtimeMs : Nat
  deriving DecidableEq

/-- An open descriptor: it keeps its inode when the name it was opened by changes. -/
inductive Handle where
  | file (inode : Nat)
  | other
  deriving DecidableEq

/-- The operations of the file system.  None follows a link in the last component, except
`readdir`; opening for reading refuses one and creating refuses any entry. -/
inductive FsOp (N : Type) where
  | lstat (path : List N)
  | readdir (path : List N)
  | openRead (path : List N)
  | fstat (handle : Handle)
  | readFile (handle : Handle)
  | close (handle : Handle)
  | mkdir (path : List N) (mode : Nat)
  | openCreate (path : List N) (mode : Nat)
  | writeFile (handle : Handle) (content : Bytes)
  | fsync (handle : Handle)
  | rename (source target : List N)
  | unlink (path : List N)
  | rmForce (path : List N)

namespace FsOp

variable {N : Type}

/-- What a successful operation returns. -/
abbrev Result : FsOp N → Type
  | lstat _ => Stat
  | readdir _ => List N
  | openRead _ => Handle
  | fstat _ => Stat
  | readFile _ => Bytes
  | openCreate _ _ => Handle
  | _ => Unit

/-- What an operation replies. -/
abbrev Reply (op : FsOp N) : Type := Except Errno op.Result

variable [DecidableEq N]

/-- The kind and attributes of an entry. -/
def statOf (d : Disk N) : Entry N → Stat
  | .file i => ⟨.file, (d.inodes i).mode, (d.inodes i).mtimeMs⟩
  | .dir => ⟨.dir, 0, 0⟩
  | .link _ => ⟨.link, 0, 0⟩
  | .special => ⟨.special, 0, 0⟩

/-- Continue at the location a path names, or report why it names none. -/
def withLocation {α : Type} (d : Disk N) (followLast : Bool) (p : List N)
    (f : List N → Except Errno α × Disk N) : Except Errno α × Disk N :=
  match d.locate followLast p with
  | .ok loc => f loc
  | .error e => (.error e, d)

theorem withLocation_eq {α : Type} {d : Disk N} {followLast : Bool} {p : List N}
    {f : List N → Except Errno α × Disk N} (hp : d.locate followLast p = .ok p) :
    withLocation d followLast p f = f p := by
  rw [withLocation, hp]

/-- The effect of an operation at the clock reading `now`. -/
def exec (now : Nat) : (op : FsOp N) → Disk N → op.Reply × Disk N
  | lstat p, d => withLocation d false p fun loc =>
      match d.entryAt loc with
      | some e => (.ok (statOf d e), d)
      | none => (.error .noEntry, d)
  | readdir p, d => withLocation d true p fun loc =>
      match d.entryAt loc with
      | some .dir => (.ok (d.children loc), d)
      | some _ => (.error .notDirectory, d)
      | none => (.error .noEntry, d)
  | openRead p, d => withLocation d false p fun loc =>
      match d.entryAt loc with
      | some (.file i) => (.ok (.file i), d)
      | some (.link _) => (.error .tooManyLinks, d)
      | some _ => (.ok .other, d)
      | none => (.error .noEntry, d)
  | fstat (.file i), d => (.ok (statOf d (.file i)), d)
  | fstat .other, d => (.ok (statOf d .special), d)
  | readFile (.file i), d => (.ok (d.inodes i).content, d)
  | readFile .other, d => (.error .isDirectory, d)
  | close _, d => (.ok (), d)
  | mkdir p _, d => withLocation d false p fun loc =>
      match d.entryAt loc with
      | some _ => (.error .alreadyExists, d)
      | none => (.ok (), d.put loc .dir)
  | openCreate p mode, d => withLocation d false p fun loc =>
      match d.entryAt loc with
      | some _ => (.error .alreadyExists, d)
      | none => (.ok (.file d.nextInode),
          (d.allocate ⟨[], mode, now⟩).put loc (.file d.nextInode))
  | writeFile (.file i) content, d =>
      (.ok (), d.setInode i { d.inodes i with content := content, mtimeMs := now })
  | writeFile .other _, d => (.error .isDirectory, d)
  | fsync _, d => (.ok (), d)
  | rename p q, d => withLocation d false p fun source => withLocation d false q fun target =>
      match d.entryAt source with
      | none => (.error .noEntry, d)
      | some .dir => (.error .isDirectory, d)
      | some e =>
          if source = target then (.ok (), d)
          else if d.entryAt target = some .dir then (.error .isDirectory, d)
          else (.ok (), (d.remove source).put target e)
  | unlink p, d => withLocation d false p fun loc =>
      match d.entryAt loc with
      | none => (.error .noEntry, d)
      | some .dir => (.error .isDirectory, d)
      | some _ => (.ok (), d.remove loc)
  | rmForce p, d => withLocation d false p fun loc =>
      match d.entryAt loc with
      | none => (.ok (), d)
      | some .dir => (.error .isDirectory, d)
      | some _ => (.ok (), d.remove loc)

/-- An operation that fails for a reason of its own.  It has no effect, except that a write may
have stored a part of the content. -/
def Fault (op : FsOp N) (d : Disk N) (reply : op.Reply) (d' : Disk N) : Prop :=
  reply = .error .fault ∧
    (d' = d ∨ ∃ i content count now, op = writeFile (.file i) content ∧
      d' = d.setInode i { d.inodes i with content := content.take count, mtimeMs := now })

/-- The outcomes of an operation: its effect at some clock reading and, when the environment is
`faulty`, a failure. -/
def Exec (faulty : Bool) (op : FsOp N) (d : Disk N) (reply : op.Reply) (d' : Disk N) : Prop :=
  (∃ now, op.exec now d = (reply, d')) ∨ (faulty = true ∧ op.Fault d reply d')

/-! ## The outcomes at a plain path

The path names the location it spells: nothing on the way is a link. -/

section Plain

variable {faulty : Bool} {d d' : Disk N} {p : List N}

/-- The operations that only look. -/
def isRead : FsOp N → Bool
  | lstat _ | readdir _ | openRead _ | fstat _ | readFile _ | close _ | fsync _ => true
  | _ => false

/-- A failed operation other than a write leaves the disk as it was. -/
theorem Fault.eq {op : FsOp N} {reply : op.Reply} (h : op.Fault d reply d')
    (hop : ∀ i content, op ≠ writeFile (.file i) content) : reply = .error .fault ∧ d' = d := by
  obtain ⟨hreply, hd | ⟨i, content, _, _, heq, _⟩⟩ := h
  · exact ⟨hreply, hd⟩
  · exact absurd heq (hop i content)

/-- The outcomes of an operation that a plain path reduces to one reply and one effect. -/
theorem Exec.plain {op : FsOp N} {reply : op.Reply} (h : op.Exec faulty d reply d')
    {r : op.Reply} {t : Nat → Disk N} (hexec : ∀ now, op.exec now d = (r, t now))
    (hop : ∀ i content, op ≠ writeFile (.file i) content) :
    (reply = r ∧ ∃ now, d' = t now) ∨ (faulty = true ∧ reply = .error .fault ∧ d' = d) := by
  rcases h with ⟨now, hnow⟩ | ⟨hfaulty, hfault⟩
  · rw [hexec now, Prod.mk.injEq] at hnow
    exact .inl ⟨hnow.1.symm, now, hnow.2.symm⟩
  · exact .inr ⟨hfaulty, hfault.eq hop⟩

/-- Looking changes nothing. -/
theorem Exec.of_isRead {op : FsOp N} {reply : op.Reply} (h : op.Exec faulty d reply d')
    (hread : op.isRead = true) : d' = d := by
  have hwithLocation : ∀ {α : Type} {followLast : Bool} {p : List N}
      {f : List N → Except Errno α × Disk N}, (∀ loc, (f loc).2 = d) →
        (withLocation d followLast p f).2 = d := by
    intro α followLast p f hf
    unfold withLocation
    split
    · exact hf _
    · rfl
  rcases h with ⟨now, hnow⟩ | ⟨-, hfault⟩
  · have hsame : (op.exec now d).2 = d := by
      cases op <;> simp only [isRead, Bool.false_eq_true] at hread
      case fstat handle => cases handle <;> rfl
      case readFile handle => cases handle <;> rfl
      case close => rfl
      case fsync => rfl
      all_goals
        refine hwithLocation fun loc => ?_
        split <;> rfl
    rw [hnow] at hsame
    exact hsame
  · exact (hfault.eq fun i content hop => by simp [hop, isRead] at hread).2

theorem Exec.lstat {reply : (lstat p).Reply} (h : (lstat p).Exec faulty d reply d')
    (hp : d.locate false p = .ok p) :
    d' = d ∧ ((faulty = true ∧ reply = .error .fault) ∨
      reply = match d.entryAt p with
        | some e => .ok (statOf d e)
        | none => .error .noEntry) := by
  rcases h.plain (t := fun _ => d) (r := match d.entryAt p with
      | some e => .ok (statOf d e)
      | none => .error .noEntry) (by
        intro now
        refine (withLocation_eq hp).trans ?_
        cases d.entryAt p <;> rfl) (by simp) with ⟨hr, -, hd⟩ | ⟨hf, hr, hd⟩
  · exact ⟨hd, .inr hr⟩
  · exact ⟨hd, .inl ⟨hf, hr⟩⟩

theorem Exec.readdir {reply : (readdir p).Reply} (h : (readdir p).Exec faulty d reply d')
    (hp : d.entryAt p = some .dir) :
    d' = d ∧ ((faulty = true ∧ reply = .error .fault) ∨ reply = .ok (d.children p)) := by
  rcases h.plain (t := fun _ => d) (r := .ok (d.children p)) (by
    intro now
    exact (withLocation_eq (d.locate_dir hp)).trans (by simp only [hp])) (by simp)
    with ⟨hr, -, hd⟩ | ⟨hf, hr, hd⟩
  · exact ⟨hd, .inr hr⟩
  · exact ⟨hd, .inl ⟨hf, hr⟩⟩

theorem Exec.openRead {reply : (openRead p).Reply} (h : (openRead p).Exec faulty d reply d')
    (hp : d.locate false p = .ok p) {i : Nat} (hfile : d.entryAt p = some (.file i)) :
    d' = d ∧ ((faulty = true ∧ reply = .error .fault) ∨ reply = .ok (.file i)) := by
  rcases h.plain (t := fun _ => d) (r := .ok (.file i)) (by
    intro now
    exact (withLocation_eq hp).trans (by simp only [hfile])) (by simp) with ⟨hr, -, hd⟩ | ⟨hf, hr, hd⟩
  · exact ⟨hd, .inr hr⟩
  · exact ⟨hd, .inl ⟨hf, hr⟩⟩

/-- What opening a file finds at a plain path, without a fault of its own. -/
theorem Exec.openRead_entry {reply : (FsOp.openRead p).Reply} (h : (FsOp.openRead p).Exec false d reply d')
    (hp : d.locate false p = .ok p) :
    reply = match d.entryAt p with
      | some (.file i) => .ok (.file i)
      | some (.link _) => .error .tooManyLinks
      | some _ => .ok .other
      | none => .error .noEntry := by
  rcases h with ⟨now, hnow⟩ | ⟨hfaulty, -⟩
  · refine (congrArg Prod.fst (hnow.symm.trans (withLocation_eq hp))).trans ?_
    cases d.entryAt p with
    | none => rfl
    | some e => cases e <;> rfl
  · cases hfaulty

/-- What is open but no regular file is no file. -/
theorem Exec.fstat_other {reply : (FsOp.fstat (N := N) .other).Reply}
    (h : (FsOp.fstat .other).Exec false d reply d') : reply = .ok (statOf d .special) := by
  rcases h with ⟨now, hnow⟩ | ⟨hfaulty, -⟩
  · exact (congrArg Prod.fst hnow).symm
  · cases hfaulty

theorem Exec.fstat {i : Nat} {reply : (FsOp.fstat (N := N) (.file i)).Reply}
    (h : (FsOp.fstat (.file i)).Exec faulty d reply d') :
    d' = d ∧ ((faulty = true ∧ reply = .error .fault) ∨ reply = .ok (statOf d (.file i))) := by
  rcases h.plain (t := fun _ => d) (r := .ok (statOf d (.file i))) (fun _ => rfl) (by simp)
    with ⟨hr, -, hd⟩ | ⟨hf, hr, hd⟩
  · exact ⟨hd, .inr hr⟩
  · exact ⟨hd, .inl ⟨hf, hr⟩⟩

theorem Exec.readFile {i : Nat} {reply : (FsOp.readFile (N := N) (.file i)).Reply}
    (h : (FsOp.readFile (.file i)).Exec faulty d reply d') :
    d' = d ∧ ((faulty = true ∧ reply = .error .fault) ∨ reply = .ok (d.inodes i).content) := by
  rcases h.plain (t := fun _ => d) (r := .ok (d.inodes i).content) (fun _ => rfl) (by simp)
    with ⟨hr, -, hd⟩ | ⟨hf, hr, hd⟩
  · exact ⟨hd, .inr hr⟩
  · exact ⟨hd, .inl ⟨hf, hr⟩⟩

theorem Exec.close {handle : Handle} {reply : (FsOp.close (N := N) handle).Reply}
    (h : (FsOp.close handle).Exec faulty d reply d') :
    d' = d ∧ ((faulty = true ∧ reply = .error .fault) ∨ reply = .ok ()) := by
  rcases h.plain (t := fun _ => d) (r := .ok ()) (fun _ => rfl) (by simp)
    with ⟨hr, -, hd⟩ | ⟨hf, hr, hd⟩
  · exact ⟨hd, .inr hr⟩
  · exact ⟨hd, .inl ⟨hf, hr⟩⟩

theorem Exec.fsync {handle : Handle} {reply : (FsOp.fsync (N := N) handle).Reply}
    (h : (FsOp.fsync handle).Exec faulty d reply d') :
    d' = d ∧ ((faulty = true ∧ reply = .error .fault) ∨ reply = .ok ()) := by
  rcases h.plain (t := fun _ => d) (r := .ok ()) (fun _ => rfl) (by simp)
    with ⟨hr, -, hd⟩ | ⟨hf, hr, hd⟩
  · exact ⟨hd, .inr hr⟩
  · exact ⟨hd, .inl ⟨hf, hr⟩⟩

theorem Exec.mkdir {mode : Nat} {reply : (FsOp.mkdir p mode).Reply}
    (h : (FsOp.mkdir p mode).Exec faulty d reply d')
    (hp : d.locate false p = .ok p) (hfree : d.entryAt p = none) :
    (reply = .ok () ∧ d' = d.put p .dir) ∨
      (faulty = true ∧ reply = .error .fault ∧ d' = d) := by
  rcases h.plain (t := fun _ => d.put p .dir) (r := .ok ()) (by
    intro now
    exact (withLocation_eq hp).trans (by simp only [hfree])) (by simp) with ⟨hr, -, hd⟩ | h
  · exact .inl ⟨hr, hd⟩
  · exact .inr h

/-- Where something stands, no directory is made. -/
theorem Exec.mkdir_some {mode : Nat} {reply : (FsOp.mkdir p mode).Reply}
    (h : (FsOp.mkdir p mode).Exec faulty d reply d') (hp : d.locate false p = .ok p)
    {e : Entry N} (hentry : d.entryAt p = some e) : reply ≠ .ok () ∧ d' = d := by
  rcases h.plain (t := fun _ => d) (r := .error .alreadyExists) (by
    intro now
    exact (withLocation_eq hp).trans (by simp only [hentry])) (by simp) with ⟨hr, -, hd⟩ | ⟨-, hr, hd⟩
  · exact ⟨by simp [hr], hd⟩
  · exact ⟨by simp [hr], hd⟩

/-- The disk after a file was created. -/
def created (d : Disk N) (p : List N) (mode now : Nat) : Disk N :=
  (d.allocate ⟨[], mode, now⟩).put p (.file d.nextInode)

theorem canPut_created {d : Disk N} {p : List N} {mode now : Nat} (hp : p ≠ [])
    (hdir : d.entryAt p.dropLast = some .dir) (hfree : d.entryAt p = none) :
    (d.allocate ⟨[], mode, now⟩).CanPut p (.file d.nextInode) :=
  ⟨hp, hdir, by simp [hfree], Nat.lt_succ_self _⟩

theorem entryAt_created {d : Disk N} {p : List N} {mode now : Nat} (hp : p ≠ [])
    (hdir : d.entryAt p.dropLast = some .dir) (hfree : d.entryAt p = none) (q : List N) :
    (created d p mode now).entryAt q = if q = p then some (.file d.nextInode) else d.entryAt q := by
  rw [created, Disk.entryAt_put (canPut_created hp hdir hfree), Disk.entryAt_allocate]

/-- A new file gets an inode no other file has. -/
theorem inodes_created {d : Disk N} {p : List N} {mode now i : Nat} (h : i < d.nextInode) :
    (created d p mode now).inodes i = d.inodes i := by
  simp [created, Nat.ne_of_lt h]

theorem Exec.openCreate {mode : Nat} {reply : (FsOp.openCreate p mode).Reply}
    (h : (FsOp.openCreate p mode).Exec faulty d reply d') (hp : d.locate false p = .ok p) :
    (d.entryAt p = none ∧ reply = .ok (.file d.nextInode) ∧
        ∃ now, d' = created d p mode now) ∨
      (d.entryAt p ≠ none ∧ reply = .error .alreadyExists ∧ d' = d) ∨
      (faulty = true ∧ reply = .error .fault ∧ d' = d) := by
  cases hfree : d.entryAt p with
  | none =>
      rcases h.plain (t := created d p mode) (r := .ok (.file d.nextInode)) (by
        intro now
        exact (withLocation_eq hp).trans (by simp only [hfree, created])) (by simp) with h | h
      · exact .inl ⟨rfl, h⟩
      · exact .inr (.inr h)
  | some e =>
      rcases h.plain (t := fun _ => d) (r := .error .alreadyExists) (by
        intro now
        exact (withLocation_eq hp).trans (by simp only [hfree])) (by simp) with ⟨hr, -, hd⟩ | h
      · exact .inr (.inl ⟨by simp, hr, hd⟩)
      · exact .inr (.inr h)

/-- Writing leaves some content in the inode, all of it on success. -/
theorem Exec.writeFile {i : Nat} {content : Bytes}
    {reply : (FsOp.writeFile (N := N) (.file i) content).Reply}
    (h : (FsOp.writeFile (.file i) content).Exec faulty d reply d') :
    (reply = .ok () ∧ ∃ now,
        d' = d.setInode i { d.inodes i with content := content, mtimeMs := now }) ∨
      (faulty = true ∧ reply = .error .fault ∧
        ∃ data, data.mode = (d.inodes i).mode ∧ d' = d.setInode i data) := by
  rcases h with ⟨now, hnow⟩ | ⟨hfaulty, hreply, hd | ⟨j, _, count, now, heq, hd⟩⟩
  · exact .inl ⟨(congrArg Prod.fst hnow).symm, now, (congrArg Prod.snd hnow).symm⟩
  · refine .inr ⟨hfaulty, hreply, d.inodes i, rfl, ?_⟩
    have hsame : (fun j => if j = i then d.inodes i else d.inodes j) = d.inodes := by
      funext j
      split <;> simp_all
    rw [hd]
    simp only [Disk.setInode, hsame]
  · simp only [FsOp.writeFile.injEq, Handle.file.injEq] at heq
    exact .inr ⟨hfaulty, hreply, _, by rw [heq.1], heq.1 ▸ hd⟩

/-- The disk after a file moved onto another name. -/
def renamed (d : Disk N) (p q : List N) (e : Entry N) : Disk N := (d.remove p).put q e

theorem canPut_renamed {d : Disk N} {p q : List N} {i : Nat} (hq : q ≠ [])
    (hdir : d.entryAt q.dropLast = some .dir) (htarget : d.entryAt q ≠ some .dir)
    (hfile : d.entryAt p = some (.file i)) : (d.remove p).CanPut q (.file i) := by
  have hp : d.entryAt p ≠ some .dir := by simp [hfile]
  refine ⟨hq, ?_, ?_, ?_⟩
  · rw [Disk.entryAt_remove hp, if_neg (by rintro heq; simp [heq, hfile] at hdir), hdir]
  · rw [Disk.entryAt_remove hp]
    split
    · simp
    · exact htarget
  · simpa using Disk.fresh_entryAt hfile

theorem entryAt_renamed {d : Disk N} {p q : List N} {i : Nat} (hq : q ≠ [])
    (hdir : d.entryAt q.dropLast = some .dir) (htarget : d.entryAt q ≠ some .dir)
    (hfile : d.entryAt p = some (.file i)) (r : List N) :
    (renamed d p q (.file i)).entryAt r
      = if r = q then some (.file i) else if r = p then none else d.entryAt r := by
  rw [renamed, Disk.entryAt_put (canPut_renamed hq hdir htarget hfile),
    Disk.entryAt_remove (by simp [hfile])]

@[simp] theorem inodes_renamed (d : Disk N) (p q : List N) (e : Entry N) :
    (renamed d p q e).inodes = d.inodes := by simp [renamed]

theorem Exec.rename {q : List N} {reply : (FsOp.rename p q).Reply}
    (h : (FsOp.rename p q).Exec faulty d reply d')
    (hp : d.locate false p = .ok p) (hq : d.locate false q = .ok q) (hpq : p ≠ q) {i : Nat}
    (hfile : d.entryAt p = some (.file i)) :
    (d.entryAt q ≠ some .dir ∧ reply = .ok () ∧ d' = renamed d p q (.file i)) ∨
      (d.entryAt q = some .dir ∧ reply = .error .isDirectory ∧ d' = d) ∨
      (faulty = true ∧ reply = .error .fault ∧ d' = d) := by
  by_cases hdir : d.entryAt q = some .dir
  · rcases h.plain (t := fun _ => d) (r := .error .isDirectory) (by
      intro now
      exact (withLocation_eq hp).trans ((withLocation_eq hq).trans
        (by simp only [hfile, if_neg hpq, if_pos hdir]))) (by simp)
      with ⟨hr, -, hd⟩ | h
    · exact .inr (.inl ⟨hdir, hr, hd⟩)
    · exact .inr (.inr h)
  · rcases h.plain (t := fun _ => renamed d p q (.file i)) (r := .ok ()) (by
      intro now
      exact (withLocation_eq hp).trans ((withLocation_eq hq).trans
        (by simp only [hfile, if_neg hpq, if_neg hdir, renamed]))) (by simp)
      with ⟨hr, -, hd⟩ | h
    · exact .inl ⟨hdir, hr, hd⟩
    · exact .inr (.inr h)

theorem Exec.unlink {reply : (FsOp.unlink p).Reply} (h : (FsOp.unlink p).Exec faulty d reply d')
    (hp : d.locate false p = .ok p) {i : Nat} (hfile : d.entryAt p = some (.file i)) :
    (reply = .ok () ∧ d' = d.remove p) ∨ (faulty = true ∧ reply = .error .fault ∧ d' = d) := by
  rcases h.plain (t := fun _ => d.remove p) (r := .ok ()) (by
    intro now
    exact (withLocation_eq hp).trans (by simp only [hfile])) (by simp) with ⟨hr, -, hd⟩ | h
  · exact .inl ⟨hr, hd⟩
  · exact .inr h

/-- Forced removal has removed the entry, or left everything as it was. -/
theorem Exec.rmForce {reply : (FsOp.rmForce p).Reply}
    (h : (FsOp.rmForce p).Exec faulty d reply d') (hp : d.locate false p = .ok p) :
    (d.entryAt p ≠ some .dir ∧ reply = .ok () ∧
        d' = if d.entryAt p = none then d else d.remove p) ∨
      (reply ≠ .ok () ∧ d' = d ∧ (faulty = true ∨ d.entryAt p = some .dir)) := by
  cases hentry : d.entryAt p with
  | none =>
      rcases h.plain (t := fun _ => d) (r := .ok ()) (by
        intro now
        exact (withLocation_eq hp).trans (by simp only [hentry])) (by simp)
        with ⟨hr, -, hd⟩ | ⟨hf, hr, hd⟩
      · exact .inl ⟨by simp, hr, by simpa using hd⟩
      · exact .inr ⟨by simp [hr], hd, .inl hf⟩
  | some e =>
      by_cases hdir : e = .dir
      · subst hdir
        rcases h.plain (t := fun _ => d) (r := .error .isDirectory) (by
          intro now
          exact (withLocation_eq hp).trans (by simp only [hentry])) (by simp)
          with ⟨hr, -, hd⟩ | ⟨hf, hr, hd⟩
        · exact .inr ⟨by simp [hr], hd, .inr rfl⟩
        · exact .inr ⟨by simp [hr], hd, .inl hf⟩
      · rcases h.plain (t := fun _ => d.remove p) (r := .ok ()) (by
          intro now
          cases e <;> first
            | exact absurd rfl hdir
            | exact (withLocation_eq hp).trans (by simp only [hentry])) (by simp)
            with ⟨hr, -, hd⟩ | ⟨hf, hr, hd⟩
        · exact .inl ⟨by simpa using hdir, hr, by simpa using hd⟩
        · exact .inr ⟨by simp [hr], hd, .inl hf⟩

end Plain

end FsOp

end Core
