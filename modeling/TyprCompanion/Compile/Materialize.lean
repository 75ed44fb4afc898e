import TyprCompanion.Core.HostFiles
import TyprCompanion.Js.HostPath
import TyprCompanion.Workspace.Path

/-!
# Writing a project to disk

`materializeProjectFiles` and `resolveProjectPath` (`projectFiles.ts`), on a POSIX host.

* `ProjectOp`, `ProjectProg` — the calls of `node:fs` and what they do to a disk; `fits` says which
  locations the file system can store.
* `resolveProjectPath`, `materializeProjectFiles` — the programs.
* **`resolveProjectPath_inside`** — a path that is resolved lies in the root.
* **`materializeProjectFiles_confined`** — whatever the files are, everything written lies in the root,
  and every directory made lies there or was missing on the way to it.
-/

namespace Typr

open Core

/-! ## The calls -/

/-- What writing a project waits for. -/
inductive ProjectOp where
  /-- `mkdir(path, { recursive: true })` -/
  | mkdir (path : JSString)
  /-- `writeFile(path, content)` -/
  | writeFile (path : JSString) (content : Bytes)

abbrev ProjectOp.Reply (_ : ProjectOp) : Type := Except Errno Unit

/-- What writing a project throws. -/
inductive ProjectFailure where
  | error (message : JSString)
  | errno (e : Errno)
  deriving DecidableEq

abbrev ProjectProg (α : Type) := Prog ProjectOp ProjectOp.Reply ProjectFailure α

/-- The location an absolute path names. -/
def pathLocation (path : JSString) : Location :=
  ((JSString.split (unit '/') path).filter (· ≠ [])).map fileName

namespace ProjectOp

variable (fits : Location → Bool)

/-- The path of a call. -/
def path : ProjectOp → JSString
  | mkdir path => path
  | writeFile path _ => path

/-- The effect of a call at a clock reading; no path contains a NUL. -/
def exec (now : Nat) (op : ProjectOp) (d : Disk FileName) : op.Reply × Disk FileName :=
  if op.path.includes 0 = true then (.error .fault, d)
  else match op with
    | mkdir path => d.makeDirectories fits [] (pathLocation path)
    | writeFile path content => d.writeWhole fits now 0o666 (pathLocation path) content

/-- A call that fails for a reason of its own: some directories may have been made, and a part of a
file may have been written. -/
def Fault (op : ProjectOp) (d : Disk FileName) (reply : op.Reply) (d' : Disk FileName) : Prop :=
  reply = .error .fault ∧ match op with
    | mkdir path => ∃ made, made <+: pathLocation path ∧ d' = (d.makeDirectories fits [] made).2
    | writeFile path content => d' = d ∨ ∃ now count,
        d' = (d.writeWhole fits now 0o666 (pathLocation path) (content.take count)).2

/-- The outcomes of a call: its effect at some clock reading and, when the environment is `faulty`, a
failure. -/
def Exec (faulty : Bool) (op : ProjectOp) (d : Disk FileName) (reply : op.Reply)
    (d' : Disk FileName) : Prop :=
  (∃ now, op.exec fits now d = (reply, d')) ∨ (faulty = true ∧ op.Fault fits d reply d')

end ProjectOp

/-! ## The programs -/

/-- `resolveProjectPath`, for an absolute root -/
def resolveProjectPath (root projectPath : JSString) : Except JSString JSString :=
  let resolvedRoot := resolvePosix root []
  let destination := resolvePosix resolvedRoot (normalizePosix projectPath)
  let pathFromRoot := relativePosix resolvedRoot destination
  if pathFromRoot.startsWith (js "..") = true ∨ isAbsolute .posix pathFromRoot = true then
    .error (js "Project path resolves outside the temporary project directory.")
  else .ok destination

/-- What is written for a file. -/
def ProjectFile.bytes : ProjectFile → Bytes
  | text _ content => JSString.encodeUtf8 content
  | binary _ content => fromBase64 content

/-- Await a call; its error is thrown. -/
def projectCall (op : ProjectOp) : ProjectProg Unit :=
  .perform op fun reply => Prog.ofExcept (Except.mapError ProjectFailure.errno reply)

/-- `materializeProjectFiles` -/
def materializeProjectFiles (root : JSString) : List ProjectFile → ProjectProg Unit
  | [] => pure ()
  | file :: rest => do
      let _ ← Prog.ofExcept (Except.mapError ProjectFailure.error
        (validateProjectPath .posix (some (.string file.path)) (js "project file path")))
      let destination ← Prog.ofExcept (Except.mapError ProjectFailure.error
        (resolveProjectPath root file.path))
      projectCall (.mkdir (dirnamePosix destination))
      projectCall (.writeFile destination file.bytes)
      materializeProjectFiles root rest

/-- Where the root is. -/
def rootLocation (root : JSString) : Location := pathLocation (resolvePosix root [])

/-! ## Resolution -/

section Resolution

variable {segments : List JSString}

theorem pathLocation_absolutePath (h : ∀ segment ∈ segments, PlainSegment segment) :
    pathLocation (absolutePath segments) = segments.map fileName := by
  rw [pathLocation, filter_split_absolutePath h]

/-- The directory of a resolved path is the location above. -/
theorem pathLocation_dirname (h : ∀ segment ∈ segments, PlainSegment segment) :
    pathLocation (dirnamePosix (absolutePath segments)) = (pathLocation (absolutePath segments)).dropLast := by
  have hfront : ∀ segment ∈ segments.dropLast, PlainSegment segment :=
    fun segment hsegment => h segment (List.dropLast_subset _ hsegment)
  rw [dirnamePosix_absolutePath h, pathLocation_absolutePath h, pathLocation_absolutePath hfront,
    List.map_dropLast]

theorem commonLength_le (source target : List JSString) :
    commonLength source target ≤ source.length ∧
      source.take (commonLength source target) = target.take (commonLength source target) := by
  induction source generalizing target with
  | nil => exact ⟨Nat.le_refl 0, rfl⟩
  | cons segment source ih =>
      cases target with
      | nil => exact ⟨Nat.zero_le _, rfl⟩
      | cons other target =>
          rw [commonLength]
          split
          next heq =>
            obtain ⟨hle, htake⟩ := ih target
            exact ⟨Nat.succ_le_succ hle, by rw [List.take_succ_cons, List.take_succ_cons, htake, heq]⟩
          next => exact ⟨Nat.zero_le _, rfl⟩

/-- A relative path that leaves its start begins with `..`. -/
theorem startsWith_dots (count : Nat) (rest : List JSString) :
    (JSString.join (unit '/') (List.replicate (count + 1) (js "..") ++ rest)).startsWith (js "..")
      = true := by
  rw [List.replicate_succ, List.cons_append, JSString.startsWith, List.isPrefixOf_iff_prefix]
  cases List.replicate count (js "..") ++ rest with
  | nil => exact List.prefix_refl _
  | cons next more => exact ⟨unit '/' :: JSString.join (unit '/') (next :: more), rfl⟩

/-- **A path that is resolved lies in the root**, whatever it looks like. -/
theorem resolveProjectPath_inside {root path destination : JSString}
    (h : resolveProjectPath root path = .ok destination) :
    ∃ segments, (∀ segment ∈ segments, PlainSegment segment) ∧
      destination = absolutePath segments ∧ rootLocation root <+: pathLocation destination := by
  obtain ⟨base, hbase, hroot⟩ := resolvePosix_absolute root []
  rw [resolveProjectPath, hroot] at h
  obtain ⟨segments, hplain, hdestination⟩ :=
    resolvePosix_absolute (absolutePath base) (normalizePosix path)
  simp only [hdestination] at h
  split at h
  next => cases h
  next hinside =>
    obtain rfl := Except.ok.inj h
    refine ⟨segments, hplain, rfl, ?_⟩
    rw [rootLocation, hroot, pathLocation_absolutePath hbase, pathLocation_absolutePath hplain]
    obtain ⟨hle, htake⟩ := commonLength_le base segments
    have hall : base.length - commonLength base segments = 0 := by
      rcases Nat.eq_zero_or_pos (base.length - commonLength base segments) with hzero | hpos
      · exact hzero
      · refine absurd (.inl ?_) hinside
        rw [relativePosix, normalizeSegments_absolutePath hbase, normalizeSegments_absolutePath hplain,
          ← Nat.sub_add_cancel hpos]
        exact startsWith_dots _ _
    have hlength : commonLength base segments = base.length := by omega
    rw [hlength, List.take_length] at htake
    exact List.IsPrefix.map fileName (htake ▸ List.take_prefix _ segments)

end Resolution

/-! ## Confinement -/

section Confinement

variable {fits : Location → Bool} {faulty : Bool} {root : Location} {d d' : Disk FileName}

/-- A call on the way to the root or below it, whose directory is there when it writes. -/
structure ProjectOp.Near (root : Location) (d : Disk FileName) (op : ProjectOp) : Prop where
  comparable : ∀ way, way <+: pathLocation op.path → Disk.Comparable root way
  written : ∀ path content, op = .writeFile path content →
    root <+: pathLocation path ∧ d.entryAt (pathLocation path).dropLast = some .dir

/-- **A call near the root** stays there, also when it fails. -/
theorem ProjectOp.Near.exec {op : ProjectOp} {reply : op.Reply} (hnear : op.Near root d)
    (hunlinked : Disk.Unlinked root d) (h : op.Exec fits faulty d reply d') :
    Disk.Unlinked root d' ∧ Disk.Confined root d d' ∧
      (∀ path, op = .mkdir path → reply = .ok () → d'.entryAt (pathLocation path) = some .dir) := by
  cases op with
  | mkdir path =>
      have hmake : ∀ made, made <+: pathLocation path →
          Disk.Unlinked root (d.makeDirectories fits [] made).2 ∧
            Disk.Confined root d (d.makeDirectories fits [] made).2 ∧
            ((d.makeDirectories fits [] made).1 = .ok () →
              (d.makeDirectories fits [] made).2.entryAt ([] ++ made) = some .dir) :=
        fun made hmade => hunlinked.makeDirectories (Disk.entryAt_nil d) fun way hway =>
          hnear.comparable way (hway.trans hmade)
      rcases h with ⟨now, hnow⟩ | ⟨-, rfl, made, hmade, rfl⟩
      · rw [ProjectOp.exec] at hnow
        split at hnow
        next =>
          obtain ⟨rfl, rfl⟩ := Prod.mk.inj hnow
          exact ⟨hunlinked, .refl root _, fun _ _ hok => by cases hok⟩
        next =>
          obtain ⟨hunlinked', hconfined, hdir⟩ := hmake _ (List.prefix_refl _)
          rw [hnow] at hunlinked' hconfined hdir
          refine ⟨hunlinked', hconfined, fun path' hpath hok => ?_⟩
          cases hpath
          exact hdir hok
      · exact ⟨(hmake made hmade).1, (hmake made hmade).2.1, fun _ _ hok => by cases hok⟩
  | writeFile path content =>
      obtain ⟨hin, hdir⟩ := hnear.written path content rfl
      have hnothing : ∀ path' : JSString, ProjectOp.writeFile path content = .mkdir path' →
          reply = .ok () → d'.entryAt (pathLocation path') = some .dir := fun path' heq => by cases heq
      have hwrite : ∀ now content,
          Disk.Unlinked root (d.writeWhole fits now 0o666 (pathLocation path) content).2 ∧
            Disk.Confined root d (d.writeWhole fits now 0o666 (pathLocation path) content).2 :=
        fun now content => hunlinked.writeWhole hdir hin
      rcases h with ⟨now, hnow⟩ | ⟨-, -, rfl | ⟨now, count, rfl⟩⟩
      · rw [ProjectOp.exec] at hnow
        split at hnow
        next =>
          obtain ⟨rfl, rfl⟩ := Prod.mk.inj hnow
          exact ⟨hunlinked, .refl root _, hnothing⟩
        next =>
          obtain ⟨hunlinked', hconfined⟩ := hwrite now content
          rw [hnow] at hunlinked' hconfined
          exact ⟨hunlinked', hconfined, hnothing⟩
      · exact ⟨hunlinked, .refl root _, hnothing⟩
      · exact ⟨(hwrite now _).1, (hwrite now _).2, hnothing⟩

/-- A call of `mkdir` near the root adds directories on the way to its path. -/
theorem ProjectOp.Near.added {path : JSString} {reply : (mkdir path).Reply}
    (hnear : (mkdir path).Near root d) (hunlinked : Disk.Unlinked root d)
    (h : (mkdir path).Exec fits faulty d reply d') : Disk.Added (· <+: pathLocation path) d d' := by
  have hmake : ∀ made, made <+: pathLocation path →
      Disk.Added (· <+: pathLocation path) d (d.makeDirectories fits [] made).2 :=
    fun made hmade => (hunlinked.added_makeDirectories (Disk.entryAt_nil d) fun way hway =>
      hnear.comparable way (hway.trans hmade)).mono fun q hq => hq.trans hmade
  rcases h with ⟨now, hnow⟩ | ⟨-, -, made, hmade, rfl⟩
  · rw [ProjectOp.exec] at hnow
    split at hnow
    next =>
      obtain ⟨-, rfl⟩ := Prod.mk.inj hnow
      exact .refl _ _
    next =>
      have hadded := hmake _ (List.prefix_refl _)
      rwa [hnow] at hadded
  · exact hmake made hmade

theorem wp_projectCall {allowed : Disk FileName → ProjectOp → Prop}
    {post : Except ProjectFailure Unit → Disk FileName → Prop} {op : ProjectOp} :
    (projectCall op).wp (ProjectOp.Exec fits faulty) allowed post d ↔
      allowed d op ∧ ∀ reply d', op.Exec fits faulty d reply d' →
        post (Except.mapError ProjectFailure.errno reply) d' := by
  rw [projectCall, Prog.wp_perform]
  exact and_congr_right fun _ => forall_congr' fun reply => forall_congr' fun d' =>
    imp_congr_right fun _ => Prog.wp_ofExcept ..

/-- The calls that may be made: nothing outside of the root was changed before, and files are written
at the root or below it. -/
def MayCall (root : Location) (d d' : Disk FileName) (op : ProjectOp) : Prop :=
  Disk.Confined root d d' ∧ ∀ path content, op = .writeFile path content → root <+: pathLocation path

/-- **Writing a project** below the root. -/
theorem wp_materializeProjectFiles_unlinked {rootPath : JSString} {files : List ProjectFile}
    (hunlinked : Disk.Unlinked (rootLocation rootPath) d')
    (hconfined : Disk.Confined (rootLocation rootPath) d d') :
    (materializeProjectFiles rootPath files).wp (ProjectOp.Exec fits faulty)
      (MayCall (rootLocation rootPath) d) (fun _ t =>
        Disk.Unlinked (rootLocation rootPath) t ∧ Disk.Confined (rootLocation rootPath) d t) d' := by
  induction files generalizing d' with
  | nil => exact ⟨hunlinked, hconfined⟩
  | cons file rest ih =>
      rw [materializeProjectFiles, Prog.wp_bind, Prog.wp_ofExcept]
      cases validateProjectPath .posix (some (.string file.path)) (js "project file path") with
      | error message => exact ⟨hunlinked, hconfined⟩
      | ok value =>
          show Prog.wp _ _ _ _ d'
          rw [Prog.wp_bind, Prog.wp_ofExcept]
          cases hresolve : resolveProjectPath rootPath file.path with
          | error message => exact ⟨hunlinked, hconfined⟩
          | ok destination =>
              obtain ⟨segments, hplain, rfl, hin⟩ := resolveProjectPath_inside hresolve
              have hdirname := pathLocation_dirname hplain
              have hcomparable : ∀ way, way <+: pathLocation (absolutePath segments) →
                  Disk.Comparable (rootLocation rootPath) way :=
                fun way hway => List.prefix_or_prefix_of_prefix hin hway
              have hmkdir : ProjectOp.Near (rootLocation rootPath) d'
                  (.mkdir (dirnamePosix (absolutePath segments))) := by
                refine ⟨fun way hway => hcomparable way ?_, nofun⟩
                exact (hdirname ▸ hway : way <+: _).trans (List.dropLast_prefix _)
              show Prog.wp _ _ _ _ d'
              rw [Prog.wp_bind, wp_projectCall]
              refine ⟨⟨hconfined, nofun⟩, fun reply d₁ hexec => ?_⟩
              obtain ⟨hunlinked₁, hconfined₁, hdir⟩ := hmkdir.exec hunlinked hexec
              cases reply with
              | error e => exact ⟨hunlinked₁, hconfined.trans hconfined₁⟩
              | ok made =>
                  have hwrite : ProjectOp.Near (rootLocation rootPath) d₁
                      (.writeFile (absolutePath segments) file.bytes) := by
                    refine ⟨hcomparable, fun path content heq => ?_⟩
                    obtain ⟨rfl, -⟩ := ProjectOp.writeFile.inj heq
                    exact ⟨hin, hdirname ▸ hdir _ rfl rfl⟩
                  show Prog.wp _ _ _ _ d₁
                  rw [Prog.wp_bind, wp_projectCall]
                  refine ⟨⟨hconfined.trans hconfined₁, fun path content heq => ?_⟩,
                    fun reply d₂ hexec => ?_⟩
                  · exact (hwrite.written path content heq).1
                  · obtain ⟨hunlinked₂, hconfined₂, -⟩ := hwrite.exec hunlinked₁ hexec
                    cases reply with
                    | error e => exact ⟨hunlinked₂, (hconfined.trans hconfined₁).trans hconfined₂⟩
                    | ok written => exact ih hunlinked₂ ((hconfined.trans hconfined₁).trans hconfined₂)

theorem wp_materializeProjectFiles {rootPath : JSString} {files : List ProjectFile}
    (hunlinked : Disk.Unlinked (rootLocation rootPath) d')
    (hconfined : Disk.Confined (rootLocation rootPath) d d') :
    (materializeProjectFiles rootPath files).wp (ProjectOp.Exec fits faulty)
      (MayCall (rootLocation rootPath) d) (fun _ => Disk.Confined (rootLocation rootPath) d) d' :=
  Prog.wp_post (fun _ _ h => h.2) (wp_materializeProjectFiles_unlinked hunlinked hconfined)

end Confinement

/-- **Everything written lies in the root.**  Where no link lies on the way to the root or in it, for
every list of files and whatever fails: between any two calls and at the end nothing outside of the
root changed, except that directories missing on the way to it were made; where the root lies in a
directory, nothing changed at all.  Files are written at the root or below it, and so is every path
that `resolveProjectPath` returns. -/
theorem materializeProjectFiles_confined (fits : Location → Bool) (faulty : Bool) (root : JSString)
    (d : Disk FileName) (_habsolute : isAbsolute .posix root = true)
    (hunlinked : Disk.Unlinked (rootLocation root) d) :
    (∀ files, (materializeProjectFiles root files).wp (ProjectOp.Exec fits faulty)
      (MayCall (rootLocation root) d) (fun _ => Disk.Confined (rootLocation root) d) d) ∧
    (∀ d', Disk.Confined (rootLocation root) d d' →
      d.entryAt (rootLocation root).dropLast = some .dir →
      ∀ location, ¬ rootLocation root <+: location → d'.entryAt location = d.entryAt location) ∧
    ∀ path destination, resolveProjectPath root path = .ok destination →
      rootLocation root <+: pathLocation destination := by
  refine ⟨fun files => wp_materializeProjectFiles hunlinked (.refl _ d),
    fun d' hconfined hdir location => hconfined.entryAt_eq hdir, fun path destination hresolve => ?_⟩
  obtain ⟨-, -, -, hin⟩ := resolveProjectPath_inside hresolve
  exact hin

/-- A disk without entries has no links. -/
theorem unlinked_empty (root : Location) : Disk.Unlinked root Disk.empty := by
  intro location _ target
  rw [Disk.entryAt_empty]
  split
  next => simp
  next => simp

theorem materializeProjectFiles_confined_empty :
    (materializeProjectFiles (js "/srv") [.text (js "a.tex") (js "x")]).wp
        (ProjectOp.Exec (fun _ => true) true) (MayCall (rootLocation (js "/srv")) Disk.empty)
        (fun _ => Disk.Confined (rootLocation (js "/srv")) Disk.empty) Disk.empty ∧
      ∀ d', Disk.Confined (rootLocation (js "/srv")) Disk.empty d' →
        d'.entryAt [fileName (js "etc")] = none :=
  have hconfined := materializeProjectFiles_confined (fun _ => true) true (js "/srv") Disk.empty
    (by decide) (unlinked_empty _)
  ⟨hconfined.1 _, fun d' h => (hconfined.2.1 d' h (by decide +kernel) _ (by decide +kernel)).trans
    (by decide +kernel)⟩

/-- The directory above a root that does not exist is made too. -/
theorem missing_directory_made :
    isAbsolute .posix (js "/srv/project") = true ∧
      Disk.Unlinked (rootLocation (js "/srv/project")) Disk.empty ∧
      ¬ rootLocation (js "/srv/project") <+: [fileName (js "srv")] ∧
      Disk.empty.entryAt [fileName (js "srv")] = none ∧
      ((materializeProjectFiles (js "/srv/project") [.text (js "a.tex") (js "x")]).run
        (ProjectOp.exec (fun _ => true) 0) Disk.empty).2.entryAt [fileName (js "srv")] = some .dir :=
  ⟨by decide, unlinked_empty _, by decide +kernel, by decide +kernel, by decide +kernel⟩

end Typr
