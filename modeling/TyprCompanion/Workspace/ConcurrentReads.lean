import TyprCompanion.Workspace.Interference
import TyprCompanion.Workspace.Updates

/-!
# Reading beside mutations

A `read` while other calls write and delete: nothing keeps them apart.

* `StoreOp.Beside`, `wp_look` — the operations of a call that takes no lock, amid drifts.
* `Sees` — the call ends as if it had run at once, at one of its own operations.
* `Vanished` — the file was there when it was looked up, and gone when it was opened.
* `beside_readValid` — a read amid drifts.
* **`WorkspaceStore.read_beside`** — in every run a read is atomic, or its file vanished.
* `WorkspaceStore.read_vanished` — and a file does vanish.
-/

namespace Typr

open Core

variable {store : WorkspaceStore}

/-- The operations of a call so far, each with the disk it met. -/
abbrev Moments := List (Disk FileName × StoreOp)

/-- The operations of a call that takes no lock. -/
def StoreOp.Beside (store : WorkspaceStore) (op : StoreOp) (v : Disk FileName × Moments)
    (reply : op.Reply) (w : Disk FileName × Moments) : Prop :=
  Amid (Drifts store) (fun _ _ _ => True) (StoreOp.Exec false) op v reply w

section Rules

variable {α β : Type} {s : Disk FileName} {looks : Moments}

/-- **A look** meets an orderly disk, and is recorded with it. -/
theorem wp_look {op : FsOp FileName} (hread : op.isRead = true) (hs : Orderly store s)
    {post : Except StoreFailure op.Result → Disk FileName × Moments → Prop}
    (h : ∀ u reply, Orderly store u → Stays store s u → op.Exec false u reply u →
      post (reply.mapError .errno) (u, looks ++ [(u, .fs op)])) :
    (fs op).wp (StoreOp.Beside store) (fun _ _ => True) post (s, looks) := by
  refine ⟨trivial, ?_⟩
  rintro reply ⟨t, looks'⟩ ⟨u, hdrift, -, hexec, rfl⟩
  obtain ⟨hu, hstays⟩ := hdrift hs
  have hexec' : op.Exec false u reply t := hexec
  obtain rfl : t = u := FsOp.Exec.of_isRead hexec' hread
  have hpost := h t reply hu hstays hexec'
  cases reply <;> exact hpost

theorem beside_refuseIf_bind {c : Prop} [Decidable c] {status : Nat} {code message : JSString}
    {hstatus : 400 ≤ status ∧ status < 500} {f : Unit → StoreProg α}
    {post : Except StoreFailure α → Disk FileName × Moments → Prop} {v : Disk FileName × Moments}
    (hrefused : c → post (.error (.workspace ⟨status, code, message, hstatus⟩)) v)
    (hpassed : ¬ c → (f ()).wp (StoreOp.Beside store) (fun _ _ => True) post v) :
    (refuseIf c status code message hstatus >>= f).wp (StoreOp.Beside store) (fun _ _ => True) post v := by
  rw [Prog.wp_bind, refuseIf, Prog.wp_throwIf]
  exact ⟨hrefused, hpassed⟩

end Rules

/-! ## What a read sees -/

/-- **A moment of the call** at which the path was as the result says. -/
def Sees {α : Type} (store : WorkspaceStore) (relative : Location)
    (found : Disk FileName → Nat → Except StoreFailure α → Prop) (r : Except StoreFailure α)
    (looks : Moments) : Prop :=
  ∃ u op, (u, op) ∈ looks ∧ Orderly store u ∧ LookupOutcome u store.root relative (found u) r

/-- **The file vanished** between the last look at its name and its opening. -/
def Vanished {α : Type} (store : WorkspaceStore) (relative : Location) (r : Except StoreFailure α)
    (looks : Moments) : Prop :=
  r = .error (.errno .noEntry) ∧ ∃ before u, looks = before ++ [(u, .fs (.openRead (store.root ++ relative)))] ∧
    Orderly store u ∧ u.entryAt (store.root ++ relative) = none

section Reading

variable {s u : Disk FileName} {looks : Moments} {relative before rest : Location} {name : FileName}

theorem blocked_append (hdir : u.entryAt (store.root ++ before) = some .dir) (hrest : rest ≠ []) :
    Blocked u store.root (before ++ rest) ↔ Blocked u (store.root ++ before) rest := by
  suffices h : ∀ (current before : Location), u.entryAt (current ++ before) = some .dir →
      (Blocked u current (before ++ rest) ↔ Blocked u (current ++ before) rest) from h _ _ hdir
  intro current before
  induction before generalizing current with
  | nil => intro _; rw [List.nil_append, List.append_nil]
  | cons first before ih =>
      intro hdir
      rw [List.append_cons] at hdir
      have hfirst : u.entryAt (current ++ [first]) = some .dir := by
        by_cases hnil : before = []
        · rwa [hnil, List.append_nil] at hdir
        · exact Disk.entryAt_append hnil (by rw [hdir]; simp)
      rw [List.cons_append, blocked_cons hfirst (by simp [hrest]), ih _ hdir, ← List.append_cons]

/-- The next name is missing: so is the path. -/
theorem absent_of_none (hdir : u.entryAt (store.root ++ before) = some .dir)
    (hnone : u.entryAt (store.root ++ before ++ [name]) = none) :
    Absent u store.root (before ++ name :: rest) := by
  obtain ⟨hmissing, hblocked⟩ : Absent u (store.root ++ before) (name :: rest) :=
    absent_cons_of_none hnone
  refine ⟨by rwa [← List.append_assoc], fun h => hblocked ?_⟩
  exact (blocked_append hdir (List.cons_ne_nil name rest)).mp h

/-- **The walk to a file** stays within directories; it ends at a file, or as it would have at once. -/
theorem beside_resolveSegments (segments : List JSString) (before : Location) (looks : Moments)
    (hs : Orderly store s) (hdir : s.entryAt (store.root ++ before) = some .dir) (hne : segments ≠ []) :
    (WorkspaceStore.resolveSegments (store.root ++ before) segments).wp (StoreOp.Beside store)
      (fun _ _ => True)
      (fun r v => Orderly store v.1 ∧
        ((r = .ok (store.root ++ (before ++ segments.map fileName)) ∧
            v.1.entryAt (store.root ++ (before ++ segments.map fileName)).dropLast = some .dir) ∨
          (∀ location, r ≠ .ok location) ∧
            Sees store (before ++ segments.map fileName) (fun _ _ _ => False) r v.2)) (s, looks) := by
  induction segments generalizing s looks before with
  | nil => exact absurd rfl hne
  | cons segment rest ih =>
      have hassoc : before ++ (segment :: rest).map fileName
          = before ++ [fileName segment] ++ rest.map fileName := by simp
      have hlast : (store.root ++ before ++ [fileName segment]).dropLast = store.root ++ before :=
        List.dropLast_concat
      rw [WorkspaceStore.resolveSegments, WorkspaceStore.lstatExisting, Prog.wp_bind, Prog.wp_tryCatch]
      refine wp_look rfl hs fun u reply hu hstays hexec => ?_
      have hdir' := hstays.dirs _ hdir
      have hreply := (FsOp.Exec.lstat hexec
        (Disk.locate_eq (by simp) (by rw [hlast]; exact hdir'))).2.resolve_left (by simp)
      have hmoment : (u, StoreOp.fs (.lstat (store.root ++ before ++ [fileName segment]))) ∈
          looks ++ [(u, StoreOp.fs (.lstat (store.root ++ before ++ [fileName segment])))] := by simp
      cases hentry : u.entryAt (store.root ++ before ++ [fileName segment]) with
      | none =>
          rw [hentry] at hreply
          subst hreply
          refine ⟨hu, .inr ⟨by simp, u, _, hmoment, hu, .inr (.inl ⟨absent_of_none hdir' hentry, ?_⟩)⟩⟩
          exact ⟨_, rfl, rfl⟩
      | some e =>
          rw [hentry] at hreply
          subst hreply
          have hblocked (h : (FsOp.statOf u e).kind = .link ∨
              (rest.map fileName ≠ [] ∧ (FsOp.statOf u e).kind ≠ .dir) ∨
              (rest.map fileName = [] ∧ (FsOp.statOf u e).kind ≠ .file)) :
              Blocked u store.root (before ++ (segment :: rest).map fileName) :=
            (blocked_append hdir' (by simp)).mpr (blocked_of_kind _ hentry h)
          have hrefused {c m : JSString} {hstatus : 400 ≤ 409 ∧ 409 < 500}
              (h : Blocked u store.root (before ++ (segment :: rest).map fileName)) :
              Sees store (before ++ (segment :: rest).map fileName) (fun _ _ _ => False)
                (.error (.workspace ⟨409, c, m, hstatus⟩) : Except StoreFailure Location)
                (looks ++ [(u, StoreOp.fs (.lstat (store.root ++ before ++ [fileName segment])))]) :=
            ⟨u, _, hmoment, hu, .inr (.inr ⟨h, _, rfl, rfl⟩)⟩
          show Prog.wp _ _ _ (refuseIf _ _ _ _ >>= _) _
          refine beside_refuseIf_bind (fun hlink => ⟨hu, .inr ⟨by simp, hrefused ?_⟩⟩) fun hlink => ?_
          · exact hblocked (.inl hlink)
          refine beside_refuseIf_bind (fun hway => ⟨hu, .inr ⟨by simp, hrefused ?_⟩⟩) fun hway => ?_
          · exact hblocked (.inr (.inl ⟨by simpa using hway.1, hway.2⟩))
          refine beside_refuseIf_bind (fun hend => ⟨hu, .inr ⟨by simp, hrefused ?_⟩⟩) fun hend => ?_
          · exact hblocked (.inr (.inr ⟨by simpa using hend.1, hend.2⟩))
          by_cases hrest : rest = []
          · subst hrest
            refine ⟨hu, .inl ⟨by simp, ?_⟩⟩
            rw [hassoc, List.map_nil, List.append_nil, ← List.append_assoc, hlast]
            exact hdir'
          · have hkind : u.entryAt (store.root ++ (before ++ [fileName segment])) = some .dir := by
              have hdirectory : (FsOp.statOf u e).kind = .dir := by
                by_contra hkind
                exact hway ⟨hrest, hkind⟩
              rw [← List.append_assoc, hentry]
              cases e <;> simp [FsOp.statOf] at hdirectory
              rfl
            rw [hassoc, List.append_assoc store.root before]
            exact ih _ _ hu hkind hrest

theorem mem_moments {u : Disk FileName} {op : StoreOp} (looks : Moments) :
    (u, op) ∈ looks ++ [(u, op)] := List.mem_append_right _ (List.mem_singleton_self _)

/-! ## An open file -/

section Open

variable {α : Type} {i : Nat}

/-- What is open keeps its data. -/
theorem wp_look_fstat (hs : Orderly store s) (hshown : Shown store s i)
    {post : Except StoreFailure Stat → Disk FileName × Moments → Prop}
    (h : ∀ u, Orderly store u → Stays store s u →
      post (.ok (FsOp.statOf s (.file i))) (u, looks ++ [(u, .fs (.fstat (.file i)))])) :
    (fs (.fstat (.file i))).wp (StoreOp.Beside store) (fun _ _ => True) post (s, looks) := by
  refine wp_look rfl hs fun u reply hu hstays hexec => ?_
  have hreply := (FsOp.Exec.fstat hexec).2.resolve_left (by simp)
  rw [hreply, FsOp.statOf, (hstays.inodes i hshown).2]
  exact h u hu hstays

theorem wp_look_readFile (hs : Orderly store s) (hshown : Shown store s i)
    {post : Except StoreFailure Bytes → Disk FileName × Moments → Prop}
    (h : ∀ u, Orderly store u → Stays store s u →
      post (.ok (s.inodes i).content) (u, looks ++ [(u, .fs (.readFile (.file i)))])) :
    (fs (.readFile (.file i))).wp (StoreOp.Beside store) (fun _ _ => True) post (s, looks) := by
  refine wp_look rfl hs fun u reply hu hstays hexec => ?_
  have hreply := (FsOp.Exec.readFile hexec).2.resolve_left (by simp)
  rw [hreply, (hstays.inodes i hshown).2]
  exact h u hu hstays

/-- Closing succeeds, whatever the body did. -/
theorem beside_ensuring_close {p : StoreProg α} {handle : Handle}
    {post : Except StoreFailure α → Disk FileName × Moments → Prop} {v : Disk FileName × Moments}
    (h : p.wp (StoreOp.Beside store) (fun _ _ => True) (fun r w => Orderly store w.1 ∧
      ∀ u, Orderly store u → Stays store w.1 u → post r (u, w.2 ++ [(u, .fs (.close handle))])) v) :
    (p.ensuring (fs (.close handle))).wp (StoreOp.Beside store) (fun _ _ => True) post v := by
  rw [Prog.wp_ensuring]
  refine Prog.wp_post ?_ h
  rintro r ⟨t, looks'⟩ ⟨ht, hpost⟩
  refine wp_look rfl ht fun u reply hu hstays hexec => ?_
  have hreply := (FsOp.Exec.close hexec).2.resolve_left (by simp)
  rw [hreply]
  exact hpost u hu hstays

end Open

/-- **A read amid drifts** ends as it would have at one of its own operations, or its file vanished. -/
theorem beside_readValid (path : WorkspacePath store.platform) (hs : Orderly store s) :
    (store.readValid path).wp (StoreOp.Beside store) (fun _ _ => True)
      (fun r v => Sees store (relativeLocation path.text)
          (fun u i r => r = .ok (store.responseOf path.text (u.inodes i))) r v.2 ∨
        Vanished store (relativeLocation path.text) r v.2) (s, looks) := by
  have hshown : isShown (relativeLocation path.text) = true :=
    isShown_iff.mpr ⟨relativeLocation_ne_nil path.text, path.valid.not_hidden⟩
  have hsegments : JSString.split (unit '/') path.text ≠ [] :=
    JSString.split_ne_nil (unit '/') path.text
  have hwalk := beside_resolveSegments (JSString.split (unit '/') path.text) [] looks hs
    (by rw [List.append_nil]; exact hs.root) hsegments
  have hlocation : (JSString.split (unit '/') path.text).map fileName = relativeLocation path.text := rfl
  rw [List.append_nil, List.nil_append, hlocation] at hwalk
  have hne : store.root ++ relativeLocation path.text ≠ [] := by simp [relativeLocation_ne_nil]
  rw [WorkspaceStore.readValid, WorkspaceStore.resolveExistingFile, Prog.wp_bind]
  refine Prog.wp_post ?_ hwalk
  rintro r ⟨t, looks'⟩ ⟨ht, ⟨rfl, hparent⟩ | ⟨hnot, u, op, hmem, hu, hlookup⟩⟩
  · rw [Prog.afterBind_ok, Prog.wp_bind]
    refine wp_look rfl ht fun u reply hu hstays hexec => ?_
    have hreply := FsOp.Exec.openRead_entry hexec (Disk.locate_eq hne (hstays.dirs _ hparent))
    cases hentry : u.entryAt (store.root ++ relativeLocation path.text) with
    | none =>
        rw [hentry] at hreply
        rw [hreply]
        exact .inr ⟨rfl, looks', u, rfl, hu, hentry⟩
    | some e =>
        rw [hentry] at hreply
        have hmoment : (u, StoreOp.fs (.openRead (store.root ++ relativeLocation path.text))) ∈
          looks' ++ [(u, .fs (.openRead (store.root ++ relativeLocation path.text)))] :=
          mem_moments looks'
        obtain ⟨-, rfl | ⟨i, rfl⟩⟩ := hu.clean _ hshown e hentry
        · -- a directory took the place of the file
          rw [hreply]
          refine beside_ensuring_close ?_
          rw [Prog.wp_bind]
          refine wp_look rfl hu fun t' reply ht' _ hexec => ?_
          rw [FsOp.Exec.fstat_other hexec]
          refine beside_refuseIf_bind (fun _ => ⟨ht', fun v _ _ => .inl ⟨u, _,
            List.mem_append_left _ (List.mem_append_left _ hmoment), hu, .inr (.inr ⟨?_, _, rfl, rfl⟩)⟩⟩)
            fun h => absurd (by simp [FsOp.statOf]) h
          exact ⟨relativeLocation path.text, [], .dir, by simp, relativeLocation_ne_nil path.text,
            hentry, by simp, by simp⟩
        · rw [hreply]
          have hi := hu.shown hshown hentry
          have hcontent : (store.fileMap u).files.lookup (relativeLocation path.text)
              = some (u.inodes i).content := lookup_of_file hshown hentry
          have hsmall := Nat.not_lt.mpr (hu.within.value_le _ _ hcontent)
          refine beside_ensuring_close ?_
          rw [Prog.wp_bind]
          refine wp_look_fstat hu hi fun t' ht' hstays' => ?_
          refine beside_refuseIf_bind (fun h => absurd rfl h) fun _ => ?_
          obtain ⟨hi', hsame⟩ := hstays'.inodes i hi
          rw [Prog.wp_bind]
          refine wp_look_readFile ht' hi' fun v hv _ => ?_
          rw [hsame]
          refine beside_refuseIf_bind (fun h => absurd h hsmall) fun _ => ⟨hv, fun w _ _ => ?_⟩
          exact .inl ⟨u, _, List.mem_append_left _ (List.mem_append_left _
            (List.mem_append_left _ hmoment)), hu, .inl ⟨i, hentry, rfl⟩⟩
  · cases r with
    | ok location => exact absurd rfl (hnot location)
    | error e =>
        refine .inl ⟨u, op, hmem, hu, ?_⟩
        rcases hlookup with ⟨i, -, hfound⟩ | ⟨habsent, hrefusal⟩ | ⟨hblocked, hrefusal⟩
        · exact hfound.elim
        · exact .inr (.inl ⟨habsent, hrefusal.cast⟩)
        · exact .inr (.inr ⟨hblocked, hrefusal.cast⟩)

end Reading

/-! ## The map of a moment -/

section Maps

variable {u : Disk FileName} {relative : Location}

/-- What is above a shown location is shown. -/
theorem isShown_above {before after : Location} (h : isShown (before ++ after) = true)
    (hne : before ≠ []) : isShown before = true :=
  isShown_iff.mpr ⟨hne, fun name hname => (isShown_iff.mp h).2 name (List.mem_append_left _ hname)⟩

theorem Orderly.blocked_iff (h : Orderly store u) (hshown : isShown relative = true) :
    Blocked u store.root relative ↔ (store.fileMap u).Conflict relative := by
  constructor
  · rintro ⟨before, after, e, rfl, hbefore, hentry, hnotDir, hnotFile⟩
    have habove := isShown_above hshown hbefore
    have hkind := (h.clean before habove e hentry).2
    by_cases hafter : after = []
    · subst hafter
      obtain rfl := hkind.resolve_right fun ⟨i, hi⟩ => hnotFile rfl i hi
      exact .inl ⟨by simpa using hbefore, by rwa [List.append_nil]⟩
    · obtain ⟨i, rfl⟩ := hkind.resolve_left (hnotDir hafter)
      exact .inr ⟨before, mem_files_iff.mpr ⟨habove, i, hentry⟩, List.prefix_append _ _,
        by simpa using hafter⟩
  · rintro (⟨-, hdir⟩ | ⟨before, hmem, ⟨after, rfl⟩, hproper⟩)
    · exact ⟨relative, [], .dir, by simp, (isShown_iff.mp hshown).1, hdir, by simp, by simp⟩
    · obtain ⟨habove, i, hfile⟩ := mem_files_iff.mp hmem
      exact ⟨before, after, .file i, rfl, (isShown_iff.mp habove).1, hfile, by simp,
        fun hafter => absurd (by simp [hafter]) hproper⟩

/-- What is looked up on an orderly disk is read from its map. -/
theorem Orderly.readsAs (h : Orderly store u) (path : WorkspacePath store.platform)
    {r : Except StoreFailure WorkspaceFileResponse}
    (hlookup : LookupOutcome u store.root (relativeLocation path.text)
      (fun i r => r = .ok (store.responseOf path.text (u.inodes i))) r) :
    ReadsAs store (store.fileMap u) path.text r := by
  refine ⟨fun hinvalid => absurd path.valid hinvalid, fun _ => ?_⟩
  have hshown : isShown (relativeLocation path.text) = true :=
    isShown_iff.mpr ⟨relativeLocation_ne_nil path.text, path.valid.not_hidden⟩
  rcases hlookup with ⟨i, hfile, rfl⟩ | ⟨⟨hnone, hblocked⟩, hrefusal⟩ | ⟨hblocked, hrefusal⟩
  · rw [lookup_of_file hshown hfile]
    exact ⟨_, rfl, rfl, fromBase64_toBase64 _, rfl, rfl⟩
  · rw [lookup_of_not_file fun i hi => by simp [hnone] at hi]
    exact ⟨fun hconflict => absurd ((h.blocked_iff hshown).mpr hconflict) hblocked,
      fun _ => hrefusal⟩
  · rw [lookup_of_not_file fun i hi => not_blocked_of_file hi hblocked]
    exact ⟨fun _ => hrefusal, fun hno => absurd ((h.blocked_iff hshown).mp hblocked) hno⟩

end Maps

/-! ## Runs -/

section Runs

variable {β : Type} {d : Disk FileName} {m : StoreSystem store} {p : StoreProg β}
  {o : Overlap (Mutation store) StoreOp StoreOp.Reply StoreFailure (Option WorkspaceFileMetadata) β
    (Disk FileName)}

/-- A look leaves the disk alone. -/
theorem looks_exec (op : StoreOp) (s : Disk FileName) (reply : op.Reply) (t : Disk FileName)
    (hop : op.Looks) (hexec : op.Exec false s reply t) : t = s := by
  cases op with
  | fs op => exact FsOp.Exec.of_isRead hexec hop
  | _ => exact hop.elim

/-- **A call that takes no lock**: it can be finished at any time, and then it ends as it does amid
drifts. -/
theorem fares_beside (hd : Orderly store d)
    (hm : Mutex.Reachable (StoreOp.Exec false) Mutation.body d m) (hp : p.Only StoreOp.Looks)
    {post : Except StoreFailure β → Moments → Prop}
    (hwp : Orderly store m.store → p.wp (StoreOp.Beside store) (fun _ _ => True)
      (fun r v => post r v.2) (m.store, []))
    (hrun : Overlap.Run (StoreOp.Exec false) Mutation.body (fun _ _ _ => True) m p o) :
    Overlap.Fares (StoreOp.Exec false) post o := by
  have hamid : p.wp (Amid (Drifts store) (fun _ _ _ => True) (StoreOp.Exec false)) (fun _ _ => True)
      (fun r v => post r v.2) (m.store, []) := hwp (orderly_of_reachable hd hm)
  obtain ⟨t, -, hrest⟩ := hrun.wp Drifts.refl Drifts.trans
    (fun m m' hreach hstep => drifts_of_step hd hreach hstep) looks_exec hm hp hamid
  refine ⟨⟨_, _, Prog.eval_run (StoreOp.exec_plain 0 EmptyWorkspace.uuid) o.reader o.system.store⟩, ?_⟩
  intro r hr
  rw [hr, Prog.wp_ofExcept] at hrest
  exact hrest

theorem looks_read (path : JSString) : (store.read path).Only StoreOp.Looks :=
  Prog.only_bind (Prog.only_ofExcept _) fun normalized => looks_readValid normalized

/-- **Reading beside mutations.**  Let writes and deletions run concurrently on a workspace that was in
good order, and let a `read` begin at any time, its operations falling anywhere between theirs.  It can
always be finished; its result is that of a `read` executed at once at one of these moments, or its
file was gone when it was opened. -/
theorem WorkspaceStore.read_beside (store : WorkspaceStore) {d : Disk FileName}
    (hgood : store.Good d) {m : StoreSystem store}
    (hm : Mutex.Reachable (StoreOp.Exec false) Mutation.body d m) (path : JSString)
    {o : Overlap (Mutation store) StoreOp StoreOp.Reply StoreFailure (Option WorkspaceFileMetadata)
      WorkspaceFileResponse (Disk FileName)}
    (hrun : Overlap.Run (StoreOp.Exec false) Mutation.body (fun _ _ _ => True) m (store.read path) o) :
    Overlap.Fares (StoreOp.Exec false) (fun r looks =>
      (∃ u ∈ m.store :: looks.map Prod.fst, ReadsAs store (store.fileMap u) path r) ∨
        Vanished store (relativeLocation path) r looks) o := by
  refine fares_beside hgood.orderly hm (looks_read path) (fun hs => ?_) hrun
  rw [WorkspaceStore.read, Prog.wp_bind, Prog.wp_ofExcept]
  rcases parsePath_cases store path
    with ⟨hvalid, normalized, rfl, hparse⟩ | ⟨hinvalid, w, hstatus, hparse⟩
  · rw [hparse]
    refine Prog.wp_post ?_ (beside_readValid normalized hs)
    rintro r v (⟨u, op, hmem, hu, hlookup⟩ | hvanished)
    · exact .inl ⟨u, List.mem_cons_of_mem _ (List.mem_map_of_mem hmem), hu.readsAs normalized hlookup⟩
    · exact .inr hvanished
  · rw [hparse]
    exact .inl ⟨m.store, List.mem_cons_self .., fun _ => ⟨w, rfl, hstatus⟩,
      fun hvalid => absurd hvalid hinvalid⟩

end Runs

namespace EmptyWorkspace

/-- A read of the file the first call created. -/
abbrev Reading := Overlap (Mutation papers) StoreOp StoreOp.Reply StoreFailure
  (Option WorkspaceFileMetadata) WorkspaceFileResponse (Disk FileName)

/-- The store once the first call has settled. -/
def oneFile : StoreSystem papers := ⟨created.2, [], [(create, created.1)]⟩

/-- A read of the file begins. -/
def reading : Reading := ⟨oneFile, papers.read (js "a.tex"), []⟩

/-- It looks the file up; another call runs to its end; it goes on. -/
def readingBeside (call : Mutation papers) : Reading :=
  ((reading.proceed (StoreOp.plain 0 uuid) 1).settling (StoreOp.plain 0 uuid) Mutation.body call).proceed
    (StoreOp.plain 0 uuid) 5

/-- The deletion of the file. -/
def removal : Mutation papers := .delete ⟨js "a.tex", isWorkspacePath⟩ (js "\"sha256-aGk=\"")

theorem oneFile_reachable : Mutex.Reachable (StoreOp.Exec false) Mutation.body disk oneFile := by
  refine Mutex.Serial.reachable ⟨created.2, ?_, rfl⟩
  exact Prog.eval_run (StoreOp.exec_plain 0 uuid) _ _

theorem run_readingBeside (call : Mutation papers) : Overlap.Run (StoreOp.Exec false) Mutation.body
    (fun _ _ _ => True) oneFile (papers.read (js "a.tex")) (readingBeside call) := by
  have hlooked : Overlap.Run (StoreOp.Exec false) Mutation.body (fun _ _ _ => True) oneFile
      (papers.read (js "a.tex")) (reading.proceed (StoreOp.plain 0 uuid) 1) :=
    Overlap.Run.start.proceed (StoreOp.exec_plain 0 uuid) (fun _ _ _ => trivial) 1
  have hidle : (reading.proceed (StoreOp.plain 0 uuid) 1).system.queue = [] :=
    Overlap.queue_proceed 1 reading
  exact (hlooked.settling (StoreOp.exec_plain 0 uuid) call hidle).proceed (StoreOp.exec_plain 0 uuid)
    (fun _ _ _ => trivial) 5

/-- What a call that has ended returned. -/
def returned {α : Type} : StoreProg α → Option α
  | .pure a => some a
  | _ => none

/-- What it threw. -/
def thrown {α : Type} : StoreProg α → Option StoreFailure
  | .throw e => some e
  | _ => none

end EmptyWorkspace

open EmptyWorkspace in
/-- An update falls between the look at a file and its opening: the read ends with the new content. -/
theorem WorkspaceStore.read_beside_update :
    (returned (readingBeside update).reader).map (fun response => response.etag)
        = some (js "\"sha256-b2s=\"") ∧
      Overlap.Fares (StoreOp.Exec false) (fun r looks =>
        (∃ u ∈ oneFile.store :: looks.map Prod.fst, ReadsAs papers (papers.fileMap u) (js "a.tex") r) ∨
          Vanished papers (relativeLocation (js "a.tex")) r looks) (readingBeside update) :=
  ⟨by decide +kernel,
    papers.read_beside good oneFile_reachable (js "a.tex") (run_readingBeside update)⟩

open EmptyWorkspace in
/-- A deletion falls there: the read fails with an error that is no refusal. -/
theorem WorkspaceStore.read_vanished : ∃ o : Reading, Overlap.Run (StoreOp.Exec false) Mutation.body
    (fun _ _ _ => True) oneFile (papers.read (js "a.tex")) o ∧
      o.reader = Prog.ofExcept (.error (.errno .noEntry)) := by
  refine ⟨readingBeside removal, run_readingBeside removal, ?_⟩
  have hfails : thrown (readingBeside removal).reader = some (.errno .noEntry) := by decide +kernel
  cases hreader : (readingBeside removal).reader with
  | throw e =>
      rw [hreader] at hfails
      exact congrArg Prog.throw (Option.some.inj hfails)
  | pure | perform =>
      rw [hreader] at hfails
      cases hfails

end Typr
