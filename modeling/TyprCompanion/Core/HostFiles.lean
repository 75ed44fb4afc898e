import TyprCompanion.Core.FileSystem

/-!
# Directories with their parents, and whole files

Two operations a runtime offers on top of the system calls: making a directory together with the
missing ones above it, and writing a file as a whole.  Both follow links.  What a file system cannot
store at all is left to a predicate on locations.

* `Disk.makeDirectories`, `Disk.writeWhole` — the operations.
* `Disk.Unlinked`, `Disk.Confined` — no link lies on the way to a location or below it; two disks
  agree outside of it.
* `Disk.Added` — only directories appeared.
* **`Disk.Unlinked.makeDirectories`**, **`Disk.Unlinked.writeWhole`** — without links, what is made
  and written stays below the location, or on the way to it.
-/

namespace Core

namespace Disk

variable {N : Type} [DecidableEq N]

/-! ## The operations -/

/-- Resolution of a path to be opened for writing: links are followed, and the last component may be
missing. -/
def walkOpen (d : Disk N) (follow : List N → List (Hop N) → Except Errno (List N)) :
    List N → List (Hop N) → Except Errno (List N)
  | cur, [] => .ok cur
  | cur, .parent :: rest => walkOpen d follow cur.dropLast rest
  | cur, .name n :: rest =>
      match d.entryAt (cur ++ [n]) with
      | some (.link target) => follow (if target.absolute then [] else cur) (target.hops ++ rest)
      | some .dir => walkOpen d follow (cur ++ [n]) rest
      | some (.file _) => if rest = [] then .ok (cur ++ [n]) else .error .notDirectory
      | some .special => if rest = [] then .ok (cur ++ [n]) else .error .notDirectory
      | none => if rest = [] then .ok (cur ++ [n]) else .error .noEntry

/-- Resolution with at most the given number of links. -/
def walkOpenLinks (d : Disk N) : Nat → List N → List (Hop N) → Except Errno (List N)
  | 0 => d.walkOpen fun _ _ => .error .tooManyLinks
  | links + 1 => d.walkOpen (d.walkOpenLinks links)

/-- The location a path names when it is opened for writing. -/
def locateOpen (d : Disk N) (p : List N) : Except Errno (List N) :=
  d.walkOpenLinks 40 [] (p.map .name)

variable (fits : List N → Bool)

/-- Make a directory, unless it is there. -/
def makeDirectory (d : Disk N) (p : List N) : Except Errno (Disk N) :=
  if fits p = false then .error .fault
  else match d.locate true p with
    | .ok loc => if d.entryAt loc = some .dir then .ok d else .error .alreadyExists
    | .error .noEntry =>
        match d.locate false p with
        | .ok loc => if d.entryAt loc = none then .ok (d.put loc .dir) else .error .noEntry
        | .error e => .error e
    | .error e => .error e

/-- Make the directories on the way from one that is there: those made before a failure stay. -/
def makeDirectories (d : Disk N) (done : List N) : List N → Except Errno Unit × Disk N
  | [] => (.ok (), d)
  | n :: rest =>
      match d.makeDirectory fits (done ++ [n]) with
      | .ok d' => d'.makeDirectories (done ++ [n]) rest
      | .error e => (.error e, d)

/-- Write a file as a whole: it is made or truncated. -/
def writeWhole (now mode : Nat) (d : Disk N) (p : List N) (content : Bytes) :
    Except Errno Unit × Disk N :=
  if fits p = false then (.error .fault, d)
  else match d.locateOpen p with
    | .error e => (.error e, d)
    | .ok loc =>
        match d.entryAt loc with
        | none => (.ok (), (d.allocate ⟨content, mode, now⟩).put loc (.file d.nextInode))
        | some (.file i) =>
            (.ok (), d.setInode i { d.inodes i with content := content, mtimeMs := now })
        | some .dir => (.error .isDirectory, d)
        | some (.link _) => (.error .tooManyLinks, d)
        | some .special => (.ok (), d)

/-! ## Resolution without links -/

section Resolution

variable {fits} {d : Disk N} {p q : List N} {n : N}

theorem walkOpen_dir {follow : List N → List (Hop N) → Except Errno (List N)} {cur : List N}
    {rest : List (Hop N)} (hdir : d.entryAt (cur ++ [n]) = some .dir) :
    d.walkOpen follow cur (.name n :: rest) = d.walkOpen follow (cur ++ [n]) rest := by
  rw [walkOpen, hdir]

theorem walk_last {follow : List N → List (Hop N) → Except Errno (List N)} (init : List N) :
    ∀ cur, d.entryAt (cur ++ init) = some .dir →
      d.walk true follow cur ((init ++ [n]).map .name)
        = d.walk true follow (cur ++ init) [.name n] := by
  induction init with
  | nil => simp
  | cons m init ih =>
      intro cur h
      have hsplit : cur ++ m :: init = (cur ++ [m]) ++ init := by simp
      rw [hsplit] at h ⊢
      rw [← ih (cur ++ [m]) h, List.cons_append, List.map_cons,
        walk_dir (by simp) (dir_of_append h)]

theorem walkOpen_last {follow : List N → List (Hop N) → Except Errno (List N)} (init : List N) :
    ∀ cur, d.entryAt (cur ++ init) = some .dir →
      d.walkOpen follow cur ((init ++ [n]).map .name)
        = d.walkOpen follow (cur ++ init) [.name n] := by
  induction init with
  | nil => simp
  | cons m init ih =>
      intro cur h
      have hsplit : cur ++ m :: init = (cur ++ [m]) ++ init := by simp
      rw [hsplit] at h ⊢
      rw [← ih (cur ++ [m]) h, List.cons_append, List.map_cons, walkOpen_dir (dir_of_append h)]

theorem locate_missing (hdir : d.entryAt p = some .dir) (hnone : d.entryAt (p ++ [n]) = none) :
    d.locate true (p ++ [n]) = .error .noEntry := by
  have hdir : d.entryAt ([] ++ p) = some .dir := hdir
  rw [locate_eq_walk, walk_last p [] hdir, List.nil_append]
  exact (if_neg (by simp)).trans (by rw [hnone])

theorem locate_occupied (hdir : d.entryAt p = some .dir)
    (hfile : (∃ i, d.entryAt (p ++ [n]) = some (.file i)) ∨ d.entryAt (p ++ [n]) = some .special) :
    d.locate true (p ++ [n]) = .error .notDirectory := by
  have hdir : d.entryAt ([] ++ p) = some .dir := hdir
  rw [locate_eq_walk, walk_last p [] hdir, List.nil_append]
  rcases hfile with ⟨i, hfile⟩ | hfile
  · exact (if_neg (by simp)).trans (by rw [hfile])
  · exact (if_neg (by simp)).trans (by rw [hfile])

theorem locateOpen_eq (hdir : d.entryAt p = some .dir)
    (hlink : ∀ target, d.entryAt (p ++ [n]) ≠ some (.link target)) :
    d.locateOpen (p ++ [n]) = .ok (p ++ [n]) := by
  have hdir : d.entryAt ([] ++ p) = some .dir := hdir
  rw [locateOpen, walkOpenLinks, walkOpen_last p [] hdir, List.nil_append, walkOpen]
  cases hentry : d.entryAt (p ++ [n]) with
  | none => simp
  | some e =>
      cases e with
      | file i => simp
      | dir => simp [walkOpen]
      | link target => exact absurd hentry (hlink target)
      | special => simp

theorem locateOpen_nil : d.locateOpen [] = .ok [] := rfl

/-- **Making one directory**, in a directory and where no link is. -/
theorem makeDirectory_eq (hdir : d.entryAt p = some .dir)
    (hlink : ∀ target, d.entryAt (p ++ [n]) ≠ some (.link target)) {d' : Disk N} :
    d.makeDirectory fits (p ++ [n]) = .ok d' ↔ fits (p ++ [n]) = true ∧
      ((d.entryAt (p ++ [n]) = some .dir ∧ d' = d) ∨
        (d.entryAt (p ++ [n]) = none ∧ d' = d.put (p ++ [n]) .dir)) := by
  have hplain : d.locate false (p ++ [n]) = .ok (p ++ [n]) :=
    locate_eq (by simp) (by rw [List.dropLast_concat]; exact hdir)
  rw [makeDirectory]
  cases hfits : fits (p ++ [n]) with
  | false => simp
  | true =>
      rw [if_neg (by simp)]
      cases hentry : d.entryAt (p ++ [n]) with
      | none => simp [locate_missing hdir hentry, hplain, hentry, eq_comm]
      | some e =>
          cases e with
          | dir => simp [locate_dir hentry, hentry, eq_comm]
          | file i => simp [locate_occupied hdir (.inl ⟨i, hentry⟩)]
          | special => simp [locate_occupied hdir (.inr hentry)]
          | link target => exact absurd hentry (hlink target)

end Resolution

/-! ## Confinement -/

/-- One of the locations is on the way to the other. -/
def Comparable (root q : List N) : Prop := root <+: q ∨ q <+: root

/-- Outside of the location nothing changed, neither entries nor the files they refer to, except
that directories missing on the way to it were made. -/
structure Confined (root : List N) (d d' : Disk N) : Prop where
  entries : ∀ q, ¬ root <+: q → d'.entryAt q = d.entryAt q ∨
    (q <+: root ∧ d.entryAt q = none ∧ d'.entryAt q = some .dir)
  nextInode : d.nextInode ≤ d'.nextInode
  inodes : ∀ i, i < d.nextInode → (∀ q, root <+: q → d.entryAt q ≠ some (.file i)) →
    d'.inodes i = d.inodes i ∧ ∀ q, root <+: q → d'.entryAt q ≠ some (.file i)

/-- There is no link on the way to the location, at it or below. -/
def Unlinked (root : List N) (d : Disk N) : Prop :=
  ∀ q, Comparable root q → ∀ target, d.entryAt q ≠ some (.link target)

section Confinement

variable {fits} {root : List N} {d d' d'' : Disk N} {p q : List N} {n : N}

theorem Confined.refl (root : List N) (d : Disk N) : Confined root d d where
  entries _ _ := .inl rfl
  nextInode := Nat.le_refl _
  inodes _ _ hoff := ⟨rfl, hoff⟩

theorem Confined.trans (h : Confined root d d') (h' : Confined root d' d'') : Confined root d d'' where
  entries q hq := by
    rcases h.entries q hq with hsame | ⟨hway, hnone, hdir⟩
    · rw [← hsame]
      exact h'.entries q hq
    · rcases h'.entries q hq with hsame' | ⟨-, hnone', -⟩
      · exact .inr ⟨hway, hnone, hsame'.trans hdir⟩
      · rw [hdir] at hnone'
        cases hnone'
  nextInode := Nat.le_trans h.nextInode h'.nextInode
  inodes i hi hoff := by
    obtain ⟨hsame, hoff'⟩ := h.inodes i hi hoff
    obtain ⟨hsame', hoff''⟩ := h'.inodes i (Nat.lt_of_lt_of_le hi h.nextInode) hoff'
    exact ⟨hsame'.trans hsame, hoff''⟩

/-- **Where the location lies in a directory**, nothing outside of it changed. -/
theorem Confined.entryAt_eq (h : Confined root d d') (hdir : d.entryAt root.dropLast = some .dir)
    (hq : ¬ root <+: q) : d'.entryAt q = d.entryAt q := by
  rcases h.entries q hq with hsame | ⟨⟨rest, hrest⟩, hnone, -⟩
  · exact hsame
  · rcases List.eq_nil_or_concat' rest with rfl | ⟨init, n, rfl⟩
    · rw [List.append_nil] at hrest
      exact absurd (hrest ▸ List.prefix_refl root) hq
    · rw [← hrest, ← List.append_assoc, List.dropLast_concat] at hdir
      rw [dir_of_append hdir] at hnone
      cases hnone

/-- A new entry that is no link. -/
theorem Unlinked.put {e : Entry N} (h : Unlinked root d) (hput : d.CanPut p e)
    (hlink : ∀ target, e ≠ .link target) : Unlinked root (d.put p e) := by
  intro q hq target
  rw [entryAt_put hput]
  split
  next => exact fun heq => hlink target (Option.some.inj heq)
  next => exact h q hq target

theorem confined_put_dir (hput : d.CanPut p .dir) (hnone : d.entryAt p = none)
    (hside : Comparable root p) : Confined root d (d.put p .dir) where
  entries q hq := by
    rw [entryAt_put hput]
    split
    next heq =>
      subst heq
      exact .inr ⟨hside.resolve_left hq, hnone, rfl⟩
    next => exact .inl rfl
  nextInode := by rw [nextInode_put]
  inodes i hi hoff := by
    refine ⟨by rw [inodes_put], fun q hq => ?_⟩
    rw [entryAt_put hput]
    split
    next => simp
    next => exact hoff q hq

theorem canPut_dir (hdir : d.entryAt p = some .dir) (hnone : d.entryAt (p ++ [n]) = none) :
    d.CanPut (p ++ [n]) .dir :=
  ⟨by simp, by rw [List.dropLast_concat]; exact hdir, by simp [hnone], trivial⟩

/-- **Making one directory** on the way to the location, at it or below. -/
theorem Unlinked.makeDirectory (h : Unlinked root d) (hdir : d.entryAt p = some .dir)
    (hside : Comparable root (p ++ [n])) (hmake : d.makeDirectory fits (p ++ [n]) = .ok d') :
    Unlinked root d' ∧ Confined root d d' ∧ d'.entryAt (p ++ [n]) = some .dir := by
  obtain ⟨-, ⟨hthere, rfl⟩ | ⟨hnone, rfl⟩⟩ := (makeDirectory_eq hdir (h _ hside)).mp hmake
  · exact ⟨h, .refl root d', hthere⟩
  · have hput := canPut_dir hdir hnone
    refine ⟨h.put hput (by simp), confined_put_dir hput hnone hside, ?_⟩
    rw [entryAt_put hput, if_pos rfl]

/-- **Making directories** there. -/
theorem Unlinked.makeDirectories (h : Unlinked root d) {done rest : List N}
    (hdir : d.entryAt done = some .dir) (hside : ∀ way, way <+: rest → Comparable root (done ++ way)) :
    Unlinked root (d.makeDirectories fits done rest).2 ∧
      Confined root d (d.makeDirectories fits done rest).2 ∧
      ((d.makeDirectories fits done rest).1 = .ok () →
        (d.makeDirectories fits done rest).2.entryAt (done ++ rest) = some .dir) := by
  induction rest generalizing d done with
  | nil => exact ⟨h, .refl root d, fun _ => by rw [List.append_nil]; exact hdir⟩
  | cons n rest ih =>
      rw [Disk.makeDirectories]
      cases hmake : d.makeDirectory fits (done ++ [n]) with
      | error e => exact ⟨h, .refl root d, nofun⟩
      | ok d' =>
          obtain ⟨hunlinked, hconfined, hmade⟩ := h.makeDirectory hdir (hside [n] ⟨rest, rfl⟩) hmake
          have hrest : ∀ way, way <+: rest → Comparable root ((done ++ [n]) ++ way) := by
            intro way hway
            rw [List.append_assoc]
            exact hside (n :: way) (List.cons_prefix_cons.mpr ⟨rfl, hway⟩)
          obtain ⟨hunlinked', hconfined', hmade'⟩ := ih hunlinked hmade hrest
          refine ⟨hunlinked', hconfined.trans hconfined', fun hok => ?_⟩
          have hall := hmade' hok
          rwa [List.append_assoc] at hall

/-- Only directories appeared, where nothing was. -/
structure Added (new : List N → Prop) (d d' : Disk N) : Prop where
  entries : ∀ q, d'.entryAt q = d.entryAt q ∨
    (new q ∧ d.entryAt q = none ∧ d'.entryAt q = some .dir)
  inodes : d'.inodes = d.inodes

theorem Added.refl (new : List N → Prop) (d : Disk N) : Added new d d := ⟨fun _ => .inl rfl, rfl⟩

theorem Added.trans {new : List N → Prop} (h : Added new d d') (h' : Added new d' d'') :
    Added new d d'' where
  entries q := by
    rcases h'.entries q with hsame | ⟨hnew, hnone, hdir⟩
    · rw [hsame]
      exact h.entries q
    · rcases h.entries q with hsame | ⟨-, -, hthere⟩
      · exact .inr ⟨hnew, hsame.symm.trans hnone, hdir⟩
      · rw [hnone] at hthere
        cases hthere
  inodes := h'.inodes.trans h.inodes

theorem Added.mono {new other : List N → Prop} (h : Added new d d') (hle : ∀ q, new q → other q) :
    Added other d d' :=
  ⟨fun q => (h.entries q).imp_right fun ⟨hnew, hadded⟩ => ⟨hle q hnew, hadded⟩, h.inodes⟩

theorem added_makeDirectory (hdir : d.entryAt p = some .dir)
    (hlink : ∀ target, d.entryAt (p ++ [n]) ≠ some (.link target))
    (hmake : d.makeDirectory fits (p ++ [n]) = .ok d') : Added (· = p ++ [n]) d d' := by
  obtain ⟨-, ⟨-, rfl⟩ | ⟨hnone, rfl⟩⟩ := (makeDirectory_eq hdir hlink).mp hmake
  · exact .refl _ _
  · have hput := entryAt_put (canPut_dir hdir hnone)
    refine ⟨fun q => ?_, inodes_put ..⟩
    rw [hput]
    split
    next heq => exact .inr ⟨heq, heq ▸ hnone, rfl⟩
    next => exact .inl rfl

/-- **Making directories** adds directories on the way, whether it succeeds or not. -/
theorem Unlinked.added_makeDirectories (h : Unlinked root d) {done rest : List N}
    (hdir : d.entryAt done = some .dir) (hside : ∀ way, way <+: rest → Comparable root (done ++ way)) :
    Added (· <+: done ++ rest) d (d.makeDirectories fits done rest).2 := by
  induction rest generalizing d done with
  | nil => exact .refl _ d
  | cons n rest ih =>
      rw [Disk.makeDirectories]
      have hfirst := hside [n] ⟨rest, rfl⟩
      cases hmake : d.makeDirectory fits (done ++ [n]) with
      | error e => exact .refl _ d
      | ok d' =>
          obtain ⟨hunlinked, -, hmade⟩ := h.makeDirectory hdir hfirst hmake
          have hsplit : done ++ n :: rest = (done ++ [n]) ++ rest := by simp
          have hrest : ∀ way, way <+: rest → Comparable root ((done ++ [n]) ++ way) := by
            intro way hway
            rw [List.append_assoc]
            exact hside (n :: way) (List.cons_prefix_cons.mpr ⟨rfl, hway⟩)
          have hadded : Added (· <+: (done ++ [n]) ++ rest) d d' :=
            (added_makeDirectory hdir (h _ hfirst) hmake).mono fun q hq => hq ▸ List.prefix_append _ _
          rw [hsplit]
          exact hadded.trans (ih hunlinked hmade hrest)

/-- **Writing a file** at the location or below stays there. -/
theorem Unlinked.writeWhole {now mode : Nat} {content : Bytes} (h : Unlinked root d)
    (hdir : d.entryAt p.dropLast = some .dir) (hin : root <+: p) :
    Unlinked root (d.writeWhole fits now mode p content).2 ∧
      Confined root d (d.writeWhole fits now mode p content).2 := by
  have hlocate : d.locateOpen p = .ok p := by
    rcases List.eq_nil_or_concat' p with rfl | ⟨init, n, rfl⟩
    · exact locateOpen_nil
    · rw [List.dropLast_concat] at hdir
      exact locateOpen_eq hdir (h _ (.inl hin))
  rw [Disk.writeWhole]
  split
  next => exact ⟨h, .refl root d⟩
  next =>
    simp only [hlocate]
    split
    next hnone =>
      have hput : (d.allocate ⟨content, mode, now⟩).CanPut p (.file d.nextInode) := by
        refine ⟨?_, hdir, by simp [hnone], Nat.lt_succ_self _⟩
        rintro rfl
        simp at hnone
      have hunlinked : Unlinked root (d.allocate ⟨content, mode, now⟩) := h
      refine ⟨hunlinked.put hput (by simp), ?_, ?_, ?_⟩
      · intro q hq
        rw [entryAt_put hput, if_neg]
        · exact .inl rfl
        · rintro rfl
          exact hq hin
      · rw [nextInode_put]
        exact Nat.le_succ _
      · intro i hi hoff
        refine ⟨?_, fun q hq => ?_⟩
        · rw [inodes_put, inodes_allocate, if_neg (Nat.ne_of_lt hi)]
        · rw [entryAt_put hput]
          split
          next => simpa using (Nat.ne_of_lt hi).symm
          next => exact hoff q hq
    next i hfile =>
      refine ⟨h, fun q hq => .inl rfl, Nat.le_refl _, fun j hj hoff => ⟨?_, hoff⟩⟩
      rw [inodes_setInode, if_neg]
      rintro rfl
      exact hoff p hin hfile
    all_goals exact ⟨h, .refl root d⟩

end Confinement

/-! ## What is made and written -/

section Made

variable {fits} {d d' d'' : Disk N} {p done rest : List N} {n : N}

/-- No entry on a way is a link. -/
def PlainWay (d : Disk N) (done rest : List N) : Prop :=
  ∀ way, way <+: rest → ∀ target, d.entryAt (done ++ way) ≠ some (.link target)

/-- A directory can be made at the location, or is there. -/
def CanMake (fits : List N → Bool) (d : Disk N) (p : List N) : Prop :=
  fits p = true ∧ (d.entryAt p = none ∨ d.entryAt p = some .dir)

/-- The entries on a way are directories now; everything else is as it was. -/
structure Opened (done rest : List N) (d d' : Disk N) : Prop where
  made : ∀ way, way <+: rest → d'.entryAt (done ++ way) = some .dir
  kept : ∀ q, (∀ way, way <+: rest → q ≠ done ++ way) → d'.entryAt q = d.entryAt q
  inodes : d'.inodes = d.inodes
  nextInode : d'.nextInode = d.nextInode

theorem Opened.refl (hdir : d.entryAt p = some .dir) : Opened p [] d d where
  made way hway := by rw [List.prefix_nil.mp hway, List.append_nil]; exact hdir
  kept _ _ := rfl
  inodes := rfl
  nextInode := rfl

theorem Opened.cons (h : Opened done [n] d d') (h' : Opened (done ++ [n]) rest d' d'') :
    Opened done (n :: rest) d d'' where
  made way hway := by
    rcases List.prefix_cons_iff.mp hway with rfl | ⟨below, rfl, hbelow⟩
    · rw [h'.kept _ fun way _ => by simp]
      exact h.made [] List.nil_prefix
    · rw [← h'.made below hbelow, List.append_assoc]
      rfl
  kept q hq := by
    rw [h'.kept q fun way hway heq => ?_, h.kept q fun way hway => ?_]
    · exact hq way (hway.trans ⟨rest, rfl⟩)
    · refine hq (n :: way) (List.cons_prefix_cons.mpr ⟨rfl, hway⟩) ?_
      rw [heq, List.append_assoc]
      rfl
  inodes := h'.inodes.trans h.inodes
  nextInode := h'.nextInode.trans h.nextInode

/-- **Making one directory** succeeds exactly when it can be made. -/
theorem makeDirectory_ok (hdir : d.entryAt p = some .dir)
    (hlink : ∀ target, d.entryAt (p ++ [n]) ≠ some (.link target)) :
    (∃ d', d.makeDirectory fits (p ++ [n]) = .ok d') ↔ CanMake fits d (p ++ [n]) := by
  simp only [makeDirectory_eq hdir hlink, CanMake]
  constructor
  · rintro ⟨d', hfits, ⟨hthere, -⟩ | ⟨hnone, -⟩⟩
    · exact ⟨hfits, .inr hthere⟩
    · exact ⟨hfits, .inl hnone⟩
  · rintro ⟨hfits, hnone | hthere⟩
    · exact ⟨_, hfits, .inr ⟨hnone, rfl⟩⟩
    · exact ⟨_, hfits, .inl ⟨hthere, rfl⟩⟩

theorem makeDirectory_opened (hdir : d.entryAt p = some .dir)
    (hlink : ∀ target, d.entryAt (p ++ [n]) ≠ some (.link target))
    (h : d.makeDirectory fits (p ++ [n]) = .ok d') : Opened p [n] d d' := by
  have hways : ∀ way, way <+: [n] → way = [] ∨ way = [n] := by
    intro way hway
    rcases List.prefix_cons_iff.mp hway with rfl | ⟨below, rfl, hbelow⟩
    · exact .inl rfl
    · exact .inr (by rw [List.prefix_nil.mp hbelow])
  obtain ⟨-, ⟨hthere, rfl⟩ | ⟨hnone, rfl⟩⟩ := (makeDirectory_eq hdir hlink).mp h
  · refine ⟨fun way hway => ?_, fun _ _ => rfl, rfl, rfl⟩
    rcases hways way hway with rfl | rfl
    · rw [List.append_nil]; exact hdir
    · exact hthere
  · have hput := entryAt_put (canPut_dir hdir hnone)
    refine ⟨fun way hway => ?_, fun q hq => ?_, inodes_put .., nextInode_put ..⟩
    · rcases hways way hway with rfl | rfl
      · rw [hput, List.append_nil, if_neg (by simp)]
        exact hdir
      · rw [hput, if_pos rfl]
    · rw [hput, if_neg (hq [n] (List.prefix_refl _))]

/-- **Making directories** on a way without links succeeds exactly when each of them can be made. -/
theorem makeDirectories_ok (fits : List N → Bool) (hdir : d.entryAt done = some .dir)
    (hplain : PlainWay d done rest) :
    ((d.makeDirectories fits done rest).1 = .ok () ↔
      ∀ way, way <+: rest → way ≠ [] → CanMake fits d (done ++ way)) ∧
    ((d.makeDirectories fits done rest).1 = .ok () →
      Opened done rest d (d.makeDirectories fits done rest).2) := by
  induction rest generalizing d done with
  | nil =>
      refine ⟨iff_of_true rfl ?_, fun _ => .refl hdir⟩
      exact fun way hway hne => absurd (List.prefix_nil.mp hway) hne
  | cons n rest ih =>
      have hlink := hplain [n] ⟨rest, rfl⟩
      have hassoc : ∀ way, done ++ [n] ++ way = done ++ n :: way := fun way => by simp
      rw [makeDirectories]
      cases hmake : d.makeDirectory fits (done ++ [n]) with
      | error e =>
          refine ⟨⟨fun h => (by cases h), fun h => ?_⟩, fun h => (by cases h)⟩
          obtain ⟨d', hok⟩ := (makeDirectory_ok hdir hlink).mpr (h [n] ⟨rest, rfl⟩ (by simp))
          rw [hmake] at hok
          cases hok
      | ok d' =>
          have hcan := (makeDirectory_ok hdir hlink).mp ⟨d', hmake⟩
          have hopened := makeDirectory_opened hdir hlink hmake
          have hdir' : d'.entryAt (done ++ [n]) = some .dir := hopened.made [n] (List.prefix_refl _)
          have hbelow : ∀ way, way ≠ [] → d'.entryAt (done ++ [n] ++ way) = d.entryAt (done ++ n :: way) := by
            intro way hway
            rw [hassoc]
            refine hopened.kept _ fun other hother heq => ?_
            have := hother.length_le
            rw [← List.append_cancel_left heq] at this
            simp [hway] at this
          have hplain' : PlainWay d' (done ++ [n]) rest := by
            intro way hway target
            by_cases hnil : way = []
            · rw [hnil, List.append_nil, hdir']
              simp
            · rw [hbelow way hnil]
              exact hplain (n :: way) (List.cons_prefix_cons.mpr ⟨rfl, hway⟩) target
          obtain ⟨hok, hall⟩ := ih hdir' hplain'
          refine ⟨?_, fun h => hopened.cons (hall h)⟩
          show (d'.makeDirectories fits (done ++ [n]) rest).1 = .ok () ↔ _
          rw [hok]
          constructor
          · intro h way hway hne
            rcases List.prefix_cons_iff.mp hway with rfl | ⟨below, rfl, hunder⟩
            · exact absurd rfl hne
            · by_cases hnil : below = []
              · rw [hnil]
                exact hcan
              · have hrest := h below hunder hnil
                rw [CanMake, hbelow below hnil, hassoc] at hrest
                exact hrest
          · intro h way hway hne
            have hrest := h (n :: way) (List.cons_prefix_cons.mpr ⟨rfl, hway⟩) (List.cons_ne_nil _ _)
            rw [CanMake, hbelow way hne, hassoc]
            exact hrest

/-- The outcome of **writing a file** whose directory is there. -/
theorem writeWhole_outcome (fits : List N → Bool) (now mode : Nat) (content : Bytes)
    (hdir : d.entryAt p.dropLast = some .dir) (hlink : ∀ target, d.entryAt p ≠ some (.link target)) :
    ((d.writeWhole fits now mode p content).1 = .ok () ↔ fits p = true ∧ d.entryAt p ≠ some .dir) ∧
    (fits p = true → d.entryAt p = none → (d.writeWhole fits now mode p content).2
      = (d.allocate ⟨content, mode, now⟩).put p (.file d.nextInode)) ∧
    (fits p = true → ∀ i, d.entryAt p = some (.file i) → (d.writeWhole fits now mode p content).2
      = d.setInode i { d.inodes i with content := content, mtimeMs := now }) := by
  have hlocate : d.locateOpen p = .ok p := by
    rcases List.eq_nil_or_concat' p with rfl | ⟨init, n, rfl⟩
    · exact locateOpen_nil
    · rw [List.dropLast_concat] at hdir
      exact locateOpen_eq hdir hlink
  rw [writeWhole]
  cases hfits : fits p with
  | false => simp
  | true =>
      simp only [hlocate]
      cases hentry : d.entryAt p with
      | none => simp
      | some e =>
          cases e with
          | link target => exact absurd hentry (hlink target)
          | file i => simp
          | dir => simp
          | special => simp

end Made

end Disk

end Core
