import TyprCompanion.Workspace.Tree

/-!
# Reading a file

What `resolveExistingFile`, `read` and `readIfExists` do on an arbitrary disk.  A path leads to a
file, or to nothing, or it is blocked by an entry of the wrong kind.

* `Blocked` — a link, special file or misplaced file or directory stands on the way.
* **`wp_resolveSegments`** — the segment walk decides between the three.
* `wp_readValid`, `wp_readIfExists` — `read` and `readIfExists` after the path check.
-/

namespace Typr

open Core

variable {store : WorkspaceStore} {faulty : Bool} {d : Disk FileName}

/-! ## The three cases -/

/-- An entry of the wrong kind stands on the way from `current`, or at its end. -/
def Blocked (d : Disk FileName) (current names : Location) : Prop :=
  ∃ before after e, names = before ++ after ∧ before ≠ [] ∧
    d.entryAt (current ++ before) = some e ∧ (after ≠ [] → e ≠ .dir) ∧
    (after = [] → ∀ i, e ≠ .file i)

/-- The path ends at a missing entry. -/
def Absent (d : Disk FileName) (current names : Location) : Prop :=
  d.entryAt (current ++ names) = none ∧ ¬ Blocked d current names

/-- An entry that is no directory blocks whatever is below it. -/
theorem blocked_here {current after : Location} {name : FileName} {e : Entry FileName}
    (hentry : d.entryAt (current ++ [name]) = some e) (hdir : after ≠ [] → e ≠ .dir)
    (hfile : after = [] → ∀ i, e ≠ .file i) : Blocked d current (name :: after) :=
  ⟨[name], after, e, rfl, by simp, hentry, hdir, hfile⟩

/-- The three checks of the segment walk refuse an entry that blocks the path. -/
theorem blocked_of_kind {current : Location} (after : Location) {name : FileName} {e : Entry FileName}
    (hentry : d.entryAt (current ++ [name]) = some e)
    (h : (FsOp.statOf d e).kind = .link ∨ (after ≠ [] ∧ (FsOp.statOf d e).kind ≠ .dir) ∨
      (after = [] ∧ (FsOp.statOf d e).kind ≠ .file)) :
    Blocked d current (name :: after) := by
  refine blocked_here hentry ?_ ?_
  · rintro hafter rfl
    simp [FsOp.statOf, hafter] at h
  · rintro hafter i rfl
    simp [FsOp.statOf, hafter] at h

/-- The entry of the walk when all three checks pass. -/
theorem kind_cases (after : Location) {e : Entry FileName}
    (h : ¬ ((FsOp.statOf d e).kind = .link ∨ (after ≠ [] ∧ (FsOp.statOf d e).kind ≠ .dir) ∨
      (after = [] ∧ (FsOp.statOf d e).kind ≠ .file))) :
    (after ≠ [] ∧ e = .dir) ∨ (after = [] ∧ ∃ i, e = .file i) := by
  by_cases hafter : after = [] <;> cases e <;> simp_all [FsOp.statOf]

theorem blocked_cons {current rest : Location} {name : FileName}
    (hdir : d.entryAt (current ++ [name]) = some .dir) (hrest : rest ≠ []) :
    Blocked d current (name :: rest) ↔ Blocked d (current ++ [name]) rest := by
  constructor
  · rintro ⟨before, after, e, hnames, hbefore, hentry, hnotDir, hnotFile⟩
    cases before with
    | nil => exact absurd rfl hbefore
    | cons name' before =>
        simp only [List.cons_append, List.cons.injEq] at hnames
        obtain ⟨rfl, rfl⟩ := hnames
        have hmore : before ≠ [] := by
          rintro rfl
          have heq : e = .dir := by simpa [hdir] using hentry.symm
          exact hnotDir (by simpa using hrest) heq
        exact ⟨before, after, e, rfl, hmore, by simpa using hentry, hnotDir, hnotFile⟩
  · rintro ⟨before, after, e, rfl, hbefore, hentry, hnotDir, hnotFile⟩
    exact ⟨name :: before, after, e, by simp, by simp, by simpa using hentry, hnotDir, hnotFile⟩

theorem absent_cons_of_none {current rest : Location} {name : FileName}
    (hnone : d.entryAt (current ++ [name]) = none) : Absent d current (name :: rest) := by
  have hbelow : ∀ below, d.entryAt (current ++ name :: below) = none := by
    intro below
    by_contra hsome
    rw [List.append_cons] at hsome
    by_cases hnil : below = []
    · exact hsome (by simpa [hnil] using hnone)
    · have hdir := Disk.entryAt_append hnil hsome
      simp [hnone] at hdir
  refine ⟨hbelow rest, ?_⟩
  rintro ⟨before, after, e, hnames, hbefore, hentry, -, -⟩
  cases before with
  | nil => exact hbefore rfl
  | cons name' before =>
      simp only [List.cons_append, List.cons.injEq] at hnames
      obtain ⟨rfl, -⟩ := hnames
      simp [hbelow before] at hentry

/-- A refusal of some status. -/
def IsRefusal {α : Type} (status : Nat) (r : Except StoreFailure α) : Prop :=
  ∃ e : WorkspaceError, r = .error (.workspace e) ∧ e.status = status

theorem IsRefusal.cast {α β : Type} {status : Nat} {e : StoreFailure}
    (h : IsRefusal status (.error e : Except StoreFailure α)) :
    IsRefusal status (.error e : Except StoreFailure β) := by
  obtain ⟨w, hw, hstatus⟩ := h
  obtain rfl : e = .workspace w := by simpa using hw
  exact ⟨w, rfl, hstatus⟩

/-- What a lookup ends with: the file's own result, a 404 or a 409. -/
def LookupOutcome {α : Type} (d : Disk FileName) (current names : Location)
    (found : Nat → Except StoreFailure α → Prop) (r : Except StoreFailure α) : Prop :=
  (∃ i, d.entryAt (current ++ names) = some (.file i) ∧ found i r) ∨
    (Absent d current names ∧ IsRefusal 404 r) ∨ (Blocked d current names ∧ IsRefusal 409 r)

/-! ## The segment walk -/

theorem wp_lstatExisting {p : Location} (h : Inside store.root d p) :
    (WorkspaceStore.lstatExisting p).wp (StoreOp.Exec faulty) (store.Allowed faulty)
      (Reads faulty d fun r => match d.entryAt p with
        | some e => r = .ok (FsOp.statOf d e)
        | none => IsRefusal 404 r) d := by
  refine Reads.tryCatch (wp_lstat h) (fun hfaulty => ⟨rfl, .inl ⟨hfaulty, rfl⟩⟩) ?_ ?_
  · intro stat hstat
    refine ⟨rfl, .inr ?_⟩
    cases hentry : d.entryAt p with
    | none => simp [hentry] at hstat
    | some e => simpa [hentry] using hstat
  · intro e he
    cases hentry : d.entryAt p with
    | none =>
        obtain rfl : e = .errno .noEntry := by simpa [hentry] using he
        exact ⟨rfl, .inr ⟨_, rfl, rfl⟩⟩
    | some e => simp [hentry] at he

/-- **The segment walk** finds the file, or tells why there is none. -/
theorem wp_resolveSegments (store : WorkspaceStore) (faulty : Bool) (relative : Location)
    {segments : List JSString}
    (hne : segments ≠ []) (hgit : gitName ∉ relative ++ segments.map fileName)
    (hdir : d.entryAt (store.root ++ relative) = some .dir) :
    (WorkspaceStore.resolveSegments (store.root ++ relative) segments).wp (StoreOp.Exec faulty)
      (store.Allowed faulty)
      (Reads faulty d (LookupOutcome d (store.root ++ relative) (segments.map fileName)
        fun _ r => r = .ok (store.root ++ relative ++ segments.map fileName))) d := by
  induction segments generalizing relative with
  | nil => exact absurd rfl hne
  | cons segment rest ih =>
      have hsplit : relative ++ (segment :: rest).map fileName
          = (relative ++ [fileName segment]) ++ rest.map fileName := by simp
      have hchild : gitName ∉ relative ++ [fileName segment] :=
        fun hmem => hgit (by rw [hsplit]; exact List.mem_append_left _ hmem)
      refine Reads.seq (wp_lstatExisting (inside_child hchild hdir)) ?_ ?_
      · intro info hinfo
        cases hentry : d.entryAt (store.root ++ relative ++ [fileName segment]) with
        | none =>
            rw [hentry] at hinfo
            obtain ⟨_, h, _⟩ := hinfo
            exact absurd h (by simp)
        | some e =>
            rw [hentry] at hinfo
            obtain rfl : info = FsOp.statOf d e := by simpa using hinfo
            have hblocked := fun hkind => blocked_of_kind (rest.map fileName) hentry hkind
            simp only [ne_eq, List.map_eq_nil_iff] at hblocked
            refine wp_refuseIf_bind (fun hlink => ?_) fun hlink => ?_
            · exact ⟨rfl, .inr (.inr (.inr ⟨hblocked (.inl hlink), _, rfl, rfl⟩))⟩
            refine wp_refuseIf_bind (fun hmiddle => ?_) fun hmiddle => ?_
            · exact ⟨rfl, .inr (.inr (.inr ⟨hblocked (.inr (.inl hmiddle)), _, rfl, rfl⟩))⟩
            refine wp_refuseIf_bind (fun hlast => ?_) fun hlast => ?_
            · exact ⟨rfl, .inr (.inr (.inr ⟨hblocked (.inr (.inr hlast)), _, rfl, rfl⟩))⟩
            have hkind := kind_cases (d := d) (rest.map fileName) (e := e) (by
              simpa only [ne_eq, List.map_eq_nil_iff, not_or] using ⟨hlink, hmiddle, hlast⟩)
            rcases hkind with ⟨hrest, rfl⟩ | ⟨hrest, i, rfl⟩
            · have hdir' : d.entryAt (store.root ++ (relative ++ [fileName segment]))
                  = some .dir := by rwa [← List.append_assoc]
              have hrec := ih _ (by simpa using hrest) (by rwa [hsplit] at hgit) hdir'
              rw [← List.append_assoc] at hrec
              refine Reads.mono hrec fun r hr => ?_
              simp only [LookupOutcome, Absent, List.map_cons, blocked_cons hentry hrest] at hr ⊢
              simpa using hr
            · obtain rfl : rest = [] := by simpa using hrest
              exact ⟨rfl, .inr (.inl ⟨i, hentry, by simp⟩)⟩
      · intro e he
        cases hentry : d.entryAt (store.root ++ relative ++ [fileName segment]) with
        | none =>
            rw [hentry] at he
            exact .inr (.inl ⟨absent_cons_of_none hentry, IsRefusal.cast he⟩)
        | some e' =>
            rw [hentry] at he
            exact absurd he (by simp)

theorem wp_resolveExistingFile (normalized : WorkspacePath store.platform)
    (hroot : d.entryAt store.root = some .dir) :
    (store.resolveExistingFile normalized).wp (StoreOp.Exec faulty) (store.Allowed faulty)
      (Reads faulty d (LookupOutcome d store.root (relativeLocation normalized.text)
        fun _ r => r = .ok (store.root ++ relativeLocation normalized.text))) d := by
  have hgit := not_mem_of_not_hidden normalized.valid.not_hidden
  have h := wp_resolveSegments store faulty []
    (JSString.split_ne_nil (unit '/') normalized.text) hgit (by simpa using hroot)
  rw [List.append_nil] at h
  exact h

/-! ## Reading -/

namespace WorkspaceStore

/-- What `read` returns for a file. -/
def responseOf (store : WorkspaceStore) (path : JSString) (file : FileData) :
    WorkspaceFileResponse where
  path := path
  size := file.content.length
  modifiedAt := file.mtimeMs
  etag := store.createEtag file.content
  encoding := js "base64"
  content := toBase64 file.content

end WorkspaceStore

/-- The response, unless the file is larger than the limit. -/
def FitsOr413 {α : Type} (store : WorkspaceStore) (file : FileData)
    (found : Except StoreFailure α → Prop) (r : Except StoreFailure α) : Prop :=
  if store.limits.maxFileBytes < file.content.length then IsRefusal 413 r else found r

section FitsOr413

variable {α : Type} {file : FileData} {found : Except StoreFailure α → Prop}
  {r : Except StoreFailure α}

theorem fitsOr413_large (h : store.limits.maxFileBytes < file.content.length) :
    FitsOr413 store file found r ↔ IsRefusal 413 r := by rw [FitsOr413, if_pos h]

theorem fitsOr413_small (h : ¬ store.limits.maxFileBytes < file.content.length) :
    FitsOr413 store file found r ↔ found r := by rw [FitsOr413, if_neg h]

end FitsOr413

/-- The location of a valid path, when a file is there. -/
theorem inside_of_file {path : JSString} {i : Nat} (hvalid : IsWorkspacePath store.platform path)
    (hfile : d.entryAt (store.root ++ relativeLocation path) = some (.file i)) :
    Inside store.root d (store.root ++ relativeLocation path) where
  below := ⟨_, rfl, relativeLocation_ne_nil path, not_mem_of_not_hidden hvalid.not_hidden⟩
  parent := Disk.entryAt_dropLast (by simp [hfile])

/-- **`read`** returns the content of the file at the path. -/
theorem wp_readValid (normalized : WorkspacePath store.platform)
    (hroot : d.entryAt store.root = some .dir) :
    (store.readValid normalized).wp (StoreOp.Exec faulty) (store.Allowed faulty)
      (Reads faulty d (LookupOutcome d store.root (relativeLocation normalized.text)
        fun i => FitsOr413 store (d.inodes i) fun r =>
          r = .ok (store.responseOf normalized.text (d.inodes i)))) d := by
  refine Reads.seq (wp_resolveExistingFile normalized hroot) ?_ ?_
  · rintro filePath (⟨i, hfile, hpath⟩ | ⟨-, _, h, -⟩ | ⟨-, _, h, -⟩)
    · obtain rfl : filePath = store.root ++ relativeLocation normalized.text := by simpa using hpath
      have hinside := inside_of_file normalized.valid hfile
      have hopen : OpenInside store.root d (.file i) := ⟨i, _, rfl, hinside, hfile⟩
      refine Reads.seq (wp_openRead hinside hfile) ?_ (by simp)
      intro handle hhandle
      obtain rfl : handle = .file i := by simpa using hhandle
      refine Reads.ensuring ?_ (wp_close hopen)
      refine Reads.seq (wp_fstat hopen) ?_ (by simp)
      intro info hinfo
      obtain rfl : info = FsOp.statOf d (.file i) := by simpa using hinfo
      refine wp_refuseIf_bind (fun h => absurd rfl h) fun _ => ?_
      refine Reads.seq (wp_readFile hopen) ?_ (by simp)
      intro content hcontent
      obtain rfl : content = (d.inodes i).content := by simpa using hcontent
      refine wp_refuseIf_bind (fun hlarge => ?_) fun hlarge => ?_
      · exact ⟨rfl, .inr (.inl ⟨i, hfile, (fitsOr413_large hlarge).mpr ⟨_, rfl, rfl⟩⟩)⟩
      · exact Reads.pure (.inl ⟨i, hfile, (fitsOr413_small hlarge).mpr rfl⟩)
    · exact absurd h (by simp)
    · exact absurd h (by simp)
  · rintro e (⟨_, -, h⟩ | ⟨habsent, h⟩ | ⟨hblocked, h⟩)
    · exact absurd h (by simp)
    · exact .inr (.inl ⟨habsent, h.cast⟩)
    · exact .inr (.inr ⟨hblocked, h.cast⟩)

/-- What `readIfExists` ends with. -/
def ReadIfExistsOutcome (store : WorkspaceStore) (d : Disk FileName) (path : JSString)
    (r : Except StoreFailure (Option (WorkspaceFileResponse × Nat))) : Prop :=
  (∃ i, d.entryAt (store.root ++ relativeLocation path) = some (.file i) ∧
      FitsOr413 store (d.inodes i) (fun r =>
        r = .ok (some (store.responseOf path (d.inodes i), (d.inodes i).mode % 0o1000))) r) ∨
    (Absent d store.root (relativeLocation path) ∧ r = .ok none) ∨
    (Blocked d store.root (relativeLocation path) ∧ IsRefusal 409 r)

theorem wp_readIfExists (normalized : WorkspacePath store.platform)
    (hroot : d.entryAt store.root = some .dir) :
    (store.readIfExists normalized).wp (StoreOp.Exec faulty) (store.Allowed faulty)
      (Reads faulty d (ReadIfExistsOutcome store d normalized.text)) d := by
  -- the body: `read`, then the permissions of the file it found
  have hbody : ((do
      let response ← store.readValid normalized
      let fileInfo ← fs (.lstat (store.root ++ relativeLocation normalized.text))
      refuseIf (fileInfo.kind = .link ∨ fileInfo.kind ≠ .file) 409 (js "workspace-unsafe-entry")
        (js "Workspace path changed to an unsafe entry.")
      pure (some (response, fileInfo.mode % 0o1000)) :
        StoreProg (Option (WorkspaceFileResponse × Nat)))).wp (StoreOp.Exec faulty)
      (store.Allowed faulty)
      (Reads faulty d (LookupOutcome d store.root (relativeLocation normalized.text)
        fun i => FitsOr413 store (d.inodes i) fun r =>
          r = .ok (some (store.responseOf normalized.text (d.inodes i),
            (d.inodes i).mode % 0o1000)))) d := by
    refine Reads.seq (wp_readValid normalized hroot) ?_ ?_
    · rintro response (⟨i, hfile, hfits⟩ | ⟨-, _, h, -⟩ | ⟨-, _, h, -⟩)
      · by_cases hlarge : store.limits.maxFileBytes < (d.inodes i).content.length
        · obtain ⟨_, h, -⟩ := (fitsOr413_large hlarge).mp hfits
          exact absurd h (by simp)
        · have hresponse := (fitsOr413_small hlarge).mp hfits
          obtain rfl := Except.ok.inj hresponse
          refine Reads.seq (wp_lstat (inside_of_file normalized.valid hfile)) ?_ ?_
          · intro info hinfo
            obtain rfl : info = FsOp.statOf d (.file i) := by simpa [hfile] using hinfo
            refine wp_refuseIf_bind (fun h => absurd h (by simp [FsOp.statOf])) fun _ => ?_
            exact Reads.pure (.inl ⟨i, hfile, (fitsOr413_small hlarge).mpr rfl⟩)
          · intro e he
            simp [hfile] at he
      · exact absurd h (by simp)
      · exact absurd h (by simp)
    · rintro e (⟨i, hfile, hfits⟩ | ⟨habsent, h⟩ | ⟨hblocked, h⟩)
      · by_cases hlarge : store.limits.maxFileBytes < (d.inodes i).content.length
        · exact .inl ⟨i, hfile, (fitsOr413_large hlarge).mpr ((fitsOr413_large hlarge).mp hfits).cast⟩
        · exact absurd ((fitsOr413_small hlarge).mp hfits) (by simp)
      · exact .inr (.inl ⟨habsent, h.cast⟩)
      · exact .inr (.inr ⟨hblocked, h.cast⟩)
  -- the handler turns a 404 into `undefined`
  refine Reads.tryCatch hbody (fun hfaulty => ⟨rfl, .inl ⟨hfaulty, rfl⟩⟩) ?_ ?_
  · rintro a (h | ⟨-, _, h, -⟩ | ⟨-, _, h, -⟩)
    · exact ⟨rfl, .inr (.inl h)⟩
    · exact absurd h (by simp)
    · exact absurd h (by simp)
  · have hpass : ∀ {w : WorkspaceError}, w.status ≠ 404 →
        ReadIfExistsOutcome store d normalized.text (.error (.workspace w)) →
        (if w.status = 404 then pure none else throw (.workspace w) :
          StoreProg (Option (WorkspaceFileResponse × Nat))).wp (StoreOp.Exec faulty)
          (store.Allowed faulty) (Reads faulty d (ReadIfExistsOutcome store d normalized.text)) d := by
      intro w hne hpost
      rw [if_neg hne]
      exact Reads.throw hpost
    rintro e (⟨i, hfile, hfits⟩ | ⟨habsent, w, hw, hstatus⟩ | ⟨hblocked, h⟩)
    · by_cases hlarge : store.limits.maxFileBytes < (d.inodes i).content.length
      · obtain ⟨w, hw, hstatus⟩ := (fitsOr413_large hlarge).mp hfits
        obtain rfl : e = .workspace w := by simpa using hw
        exact hpass (by omega) (.inl ⟨i, hfile, hfits⟩)
      · exact absurd ((fitsOr413_small hlarge).mp hfits) (by simp)
    · obtain rfl : e = .workspace w := by simpa using hw
      simp only [if_pos hstatus]
      exact Reads.pure (.inr (.inl ⟨habsent, rfl⟩))
    · obtain ⟨w, hw, hstatus⟩ := id h
      obtain rfl : e = .workspace w := by simpa using hw
      exact hpass (by omega) (.inr (.inr ⟨hblocked, h⟩))

end Typr
