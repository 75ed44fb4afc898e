import TyprCompanion.Compile.CompileOutput

/-!
# A compilation on its host

`compileProject` of `server.ts` together with the file system it works on, from the temporary directory
to its removal.  The native processes are not in the repository: they do what they like where they may
write, which is the temporary directory and their own data.

* `prepareCompilerEnvironment` — the directories a compiler is given beside the main file.
* `CompileHost`, `CompileHost.Exec` — the host, and what each operation of a compilation does to it.
* `Spared` — two disks that agree wherever nothing may be written.
* `Compilation.only_runLatexProject` — between writing the project and reading the output only tools run.
* **`compileProject_isolated`** — the compiler starts with the project, those directories and nothing
  else, a result is made of what lies in the temporary directory when the compiler is done, and nothing
  stays behind.
-/

namespace Typr

open Core

/-! ## Locations that are left alone -/

/-- Entries and contents are the same wherever nothing may be written. -/
def Spared (writable : Location → Prop) (d d' : Disk FileName) : Prop :=
  ∀ q, ¬ writable q → d'.entryAt q = d.entryAt q ∧ d'.contentAt q = d.contentAt q

section Sparing

variable {writable other : Location → Prop} {root : Location} {files : List ProjectFile}
  {d d' d'' : Disk FileName}

theorem Spared.refl (writable : Location → Prop) (d : Disk FileName) : Spared writable d d :=
  fun _ _ => ⟨rfl, rfl⟩

theorem Spared.trans (h : Spared writable d d') (h' : Spared writable d' d'') : Spared writable d d'' :=
  fun q hq => ⟨(h' q hq).1.trans (h q hq).1, (h' q hq).2.trans (h q hq).2⟩

theorem Spared.mono (h : Spared writable d d') (hle : ∀ q, writable q → other q) : Spared other d d' :=
  fun q hq => h q fun hwritable => hq (hle q hwritable)

/-- Below a location that holds nothing there is neither an entry nor a content. -/
theorem nothing_below (hnone : d.entryAt root = none) {q : Location} (hq : root <+: q) :
    d.entryAt q = none ∧ d.contentAt q = none := by
  obtain ⟨rest, rfl⟩ := hq
  have hentry := Disk.entryAt_append_none hnone rest
  exact ⟨hentry, by rw [Disk.contentAt, hentry]⟩

/-- What is confined to a location that held nothing spares all others. -/
theorem spared_of_confined (h : Disk.Confined root d d') (hdir : d.entryAt root.dropLast = some .dir)
    (hnone : d.entryAt root = none) : Spared (root <+: ·) d d' := by
  intro q hq
  have hentry := h.entryAt_eq hdir hq
  refine ⟨hentry, Disk.contentAt_congr hentry fun i hi => ?_⟩
  refine (h.inodes i (Disk.fresh_entryAt hi) fun p hp => ?_).1
  rw [(nothing_below hnone hp).1]
  exact (Option.some_ne_none _).symm

/-- The directory around a location stays where nothing but the location is written. -/
theorem directory_kept (hdir : d.entryAt root.dropLast = some .dir)
    (hkept : ¬ root <+: root.dropLast → d'.entryAt root.dropLast = d.entryAt root.dropLast) :
    d'.entryAt root.dropLast = some .dir := by
  by_cases hroot : root <+: root.dropLast
  · -- only the root of the file system lies in itself
    have hlength := hroot.length_le
    rw [List.length_dropLast] at hlength
    have hnil : root.dropLast = [] :=
      List.eq_nil_of_length_eq_zero (by rw [List.length_dropLast]; omega)
    rw [hnil]
    exact Disk.entryAt_nil d'
  · rw [hkept hroot]
    exact hdir

end Sparing

/-! ## The environment of a compiler -/

/-- Where a compiler runs: `resolve(workspace, dirname(mainFilePath))`. -/
def workingDirectory (workspace mainFilePath : JSString) : JSString :=
  resolvePosix workspace (dirnamePosix mainFilePath)

/-- The home, the TeX tree and the cache of a compiler. -/
def environmentDirectories (cwd : JSString) : List JSString :=
  [joinPosix [cwd, js ".typr-home"], joinPosix [cwd, js ".typr-texmf"],
    joinPosix [cwd, js ".typr-cache"]]

/-- `Promise.all` of the calls of `mkdir`: all of them are made, and an error of one is thrown. -/
def makeAll : List JSString → ProjectProg Unit
  | [] => pure ()
  | path :: rest => .perform (.mkdir path) fun reply => do
      makeAll rest
      Prog.ofExcept (Except.mapError ProjectFailure.errno reply)

/-- The calls of `prepareCompilerEnvironment`. -/
def prepareCompilerEnvironment (cwd : JSString) : ProjectProg Unit :=
  makeAll (environmentDirectories cwd)

section Environment

variable {path mainFilePath workspace : JSString}

/-- The directory of a path is `.`, or what stands before its last separator. -/
theorem dirnamePosix_cases (hnonempty : path ≠ []) (hrelative : path.isAbsolutePosix = false)
    (hend : path.endsWith (js "/") = false) :
    dirnamePosix path = js "." ∨ ∃ last, path = dirnamePosix path ++ unit '/' :: last := by
  obtain ⟨first, rest, rfl⟩ := List.exists_cons_of_ne_nil hnonempty
  have hfirst : first ≠ unit '/' := by
    rintro rfl
    cases hrelative
  have hstart : rest.reverse.dropWhile (· == unit '/') = rest.reverse := by
    rcases List.eq_nil_or_concat' rest with rfl | ⟨init, u, rfl⟩
    · rfl
    · rw [List.reverse_append, List.reverse_singleton, List.singleton_append,
        List.dropWhile_cons_of_neg]
      intro hu
      rw [eq_of_beq hu, Bool.eq_false_iff] at hend
      exact hend (List.isSuffixOf_iff_suffix.mpr ⟨first :: init, rfl⟩)
  rw [dirnamePosix, hstart]
  cases hdrop : rest.reverse.dropWhile (· != unit '/') with
  | nil => exact .inl (if_neg hfirst)
  | cons separator before =>
      have hseparator : separator = unit '/' := by
        have hhead := List.head?_dropWhile_not (p := (· != unit '/')) rest.reverse
        rw [hdrop] at hhead
        simpa using hhead
      have hsplit := List.takeWhile_append_dropWhile (p := (· != unit '/')) (l := rest.reverse)
      rw [hdrop, hseparator] at hsplit
      refine .inr ⟨(rest.reverse.takeWhile (· != unit '/')).reverse, ?_⟩
      dsimp only
      rw [if_neg fun h => hfirst h.1, List.cons_append, List.cons.injEq]
      have hrest := (congrArg List.reverse hsplit).symm
      rw [List.reverse_reverse, List.reverse_append, List.reverse_cons, List.append_assoc] at hrest
      exact ⟨rfl, hrest⟩

/-- **The working directory** of an accepted main file lies in the workspace. -/
theorem workingDirectory_inside (workspace : JSString)
    (haccepted : IsProjectPath .posix mainFilePath) :
    ∃ segments, (∀ segment ∈ segments, PlainSegment segment) ∧
      workingDirectory workspace mainFilePath = absolutePath segments ∧
      rootLocation workspace <+: segments.map fileName := by
  have hdots : js ".." ∉ JSString.split (unit '/') (dirnamePosix mainFilePath) ∧
      (dirnamePosix mainFilePath).isAbsolutePosix = false := by
    rcases dirnamePosix_cases haccepted.nonempty haccepted.relative haccepted.noTrailingSlash with
      hdot | ⟨last, hlast⟩
    · rw [hdot]
      exact ⟨by decide, rfl⟩
    · refine ⟨fun hmem => haccepted.noTraversal ?_, ?_⟩
      · rw [hlast, JSString.split_append]
        exact List.mem_append_left _ hmem
      · have hrelative : mainFilePath.isAbsolutePosix = false := haccepted.relative
        cases hdirname : dirnamePosix mainFilePath with
        | nil => rfl
        | cons first rest =>
            rw [hlast, hdirname] at hrelative
            exact hrelative
  have hresolve : workingDirectory workspace mainFilePath = absolutePath
      (normalizeSegments true (JSString.split (unit '/') workspace) ++
        (JSString.split (unit '/') (dirnamePosix mainFilePath)).filter fun segment =>
          segment ≠ [] ∧ segment ≠ js ".") := by
    rw [workingDirectory, resolvePosix, hdots.2, if_neg Bool.false_ne_true, normalizeSegments_append,
      foldl_keep_without_dots _ hdots.1, List.reverse_append, List.reverse_reverse,
      List.reverse_reverse]
    rfl
  refine ⟨_, fun segment hsegment => ?_, hresolve, ?_⟩
  · rcases List.mem_append.mp hsegment with hbase | hbelow
    · exact plain_workspace workspace segment hbase
    · obtain ⟨hmem, hkept⟩ := List.mem_filter.mp hbelow
      obtain ⟨hne, hdot⟩ := of_decide_eq_true hkept
      exact ⟨hne, hdot, fun heq => hdots.1 (heq ▸ hmem), JSString.not_mem_of_mem_split hmem⟩
  · rw [rootLocation, resolvePosix_nil, pathLocation_absolutePath (plain_workspace workspace),
      List.map_append]
    exact List.prefix_append _ _

/-- The directories that are made for a compiler lie in the workspace. -/
theorem environmentDirectories_inside (haccepted : IsProjectPath .posix mainFilePath) :
    ∀ path ∈ environmentDirectories (workingDirectory workspace mainFilePath),
      rootLocation workspace <+: pathLocation path := by
  obtain ⟨segments, hplain, hresolve, hinside⟩ := workingDirectory_inside workspace haccepted
  have hone : ∀ name, PlainSegment name →
      rootLocation workspace <+: pathLocation (joinPosix [absolutePath segments, name]) := by
    intro name hname
    have hall : ∀ segment ∈ segments ++ [name], PlainSegment segment :=
      List.forall_mem_append.mpr ⟨hplain, List.forall_mem_singleton.mpr hname⟩
    rw [joinPosix_absolutePath hplain hname, pathLocation_absolutePath hall, List.map_append]
    exact hinside.trans (List.prefix_append _ _)
  rw [hresolve]
  intro path hpath
  simp only [environmentDirectories, List.mem_cons, List.not_mem_nil, or_false] at hpath
  rcases hpath with rfl | rfl | rfl
  · exact hone _ ⟨by decide, by decide, by decide, by decide⟩
  · exact hone _ ⟨by decide, by decide, by decide, by decide⟩
  · exact hone _ ⟨by decide, by decide, by decide, by decide⟩

/-- **Making directories in the workspace** adds directories there, also when it fails. -/
theorem wp_makeAll {fits : Location → Bool} {faulty : Bool} {root : Location} {d : Disk FileName}
    {paths : List JSString} (hpaths : ∀ path ∈ paths, root <+: pathLocation path)
    (hunlinked : Disk.Unlinked root d) :
    (makeAll paths).wp (ProjectOp.Exec fits faulty) (fun _ _ => True) (fun _ d' =>
      Disk.Unlinked root d' ∧ Disk.Confined root d d' ∧
        Disk.Added (fun q => ∃ path ∈ paths, q <+: pathLocation path) d d') d := by
  induction paths generalizing d with
  | nil => exact ⟨hunlinked, .refl root d, .refl _ d⟩
  | cons path rest ih =>
      refine ⟨trivial, fun reply d₁ hexec => ?_⟩
      have hnear : (ProjectOp.mkdir path).Near root d := by
        refine ⟨fun way hway => ?_, fun _ _ heq => by cases heq⟩
        exact List.prefix_or_prefix_of_prefix (hpaths path (List.mem_cons_self ..)) hway
      obtain ⟨hunlinked₁, hconfined₁, -⟩ := hnear.exec hunlinked hexec
      have hadded₁ : Disk.Added (fun q => ∃ path' ∈ path :: rest, q <+: pathLocation path') d d₁ :=
        (hnear.added hunlinked hexec).mono fun q hq => ⟨path, List.mem_cons_self .., hq⟩
      have hrest := ih (fun path hpath => hpaths path (List.mem_cons_of_mem _ hpath)) hunlinked₁
      refine (Prog.wp_bind _ _ _ d₁).mpr (Prog.wp_post (fun result d₂ h => ?_) hrest)
      obtain ⟨hunlinked₂, hconfined₂, hadded₂⟩ := h
      have hend : Disk.Unlinked root d₂ ∧ Disk.Confined root d d₂ ∧
          Disk.Added (fun q => ∃ path' ∈ path :: rest, q <+: pathLocation path') d d₂ :=
        ⟨hunlinked₂, hconfined₁.trans hconfined₂, hadded₁.trans (hadded₂.mono
          fun q ⟨path', hmem, hq⟩ => ⟨path', List.mem_cons_of_mem _ hmem, hq⟩)⟩
      cases result with
      | error e => exact hend
      | ok u => exact (Prog.wp_ofExcept ..).mpr hend

end Environment

/-! ## The host -/

/-- The host of a compilation of a project. -/
structure CompileHost where
  /-- which locations the file system can store -/
  fits : Location → Bool
  /-- whether its calls may fail for reasons of their own -/
  faulty : Bool
  zlib : Zlib
  engine : JSString
  /-- the path `mkdtemp` makes -/
  workspace : JSString
  files : List ProjectFile
  main : ProjectFile
  /-- where the tools keep their own data: caches and the TeX distribution -/
  tools : Location → Prop

/-- The disk, whether a compiler ran in the temporary directory, and what the output was read from. -/
structure HostWorld where
  disk : Disk FileName
  worked : Bool
  collected : Option (Disk FileName × NativeProcessResult)

namespace CompileHost

variable (host : CompileHost)

def root : Location := rootLocation host.workspace

/-- Where a compilation may write. -/
def Writable (q : Location) : Prop := host.root <+: q ∨ host.tools q

/-- Where the compilers run. -/
def cwd : JSString := workingDirectory host.workspace host.main.path

/-- On the way to a directory that is made for a compiler. -/
def Furniture (q : Location) : Prop := ∃ path ∈ environmentDirectories host.cwd, q <+: pathLocation path

/-- What an operation does.  A process that compiles writes where it may, and makes no links; `tlmgr` and
its directories are the tools' own data; the probes of the tools write nothing. -/
def Exec : (op : CompileOp) → HostWorld → op.Reply → HostWorld → Prop
  | .mkdtemp, w, .ok _, w' => w.disk.entryAt host.root = none ∧
      w.disk.entryAt host.root.dropLast = some .dir ∧ w' = { w with disk := w.disk.put host.root .dir }
  | .materializeProjectFiles, w, reply, w' => w' = { w with disk := w'.disk } ∧ ∃ result,
      (materializeProjectFiles host.workspace host.files).Eval (ProjectOp.Exec host.fits host.faulty)
        w.disk result w'.disk ∧ (reply = .ok () ↔ result = .ok ())
  | .prepareCompilerEnvironment, w, reply, w' => w' = { w with disk := w'.disk } ∧ ∃ result,
      (prepareCompilerEnvironment host.cwd).Eval (ProjectOp.Exec host.fits host.faulty)
        w.disk result w'.disk ∧ (reply = .ok () ↔ result = .ok ())
  | .packageManagerEnvironment, w, _, w' | .runTlmgr .., w, _, w' =>
      w' = { w with disk := w'.disk } ∧ Spared host.tools w.disk w'.disk
  | .runNativeProcess .., w, _, w' =>
      w' = { w with disk := w'.disk, worked := true } ∧ Spared host.Writable w.disk w'.disk ∧
        ∀ q, host.root <+: q → ∀ target, w'.disk.entryAt q ≠ some (.link target)
  | .collectOutput nativeResult, w, reply, w' =>
      w' = { w with disk := w'.disk, collected := some (w.disk, nativeResult) } ∧ ∃ result,
        (CompileOutput.collectOutput host.zlib host.engine host.workspace host.main.path
          nativeResult).Eval (OutputOp.Exec host.fits host.faulty) w.disk result w'.disk ∧
        ∀ compiled, reply = .ok compiled ↔ result = .ok compiled
  | .rm, w, reply, w' => w' = { w with disk := w'.disk } ∧ Spared (host.root <+: ·) w.disk w'.disk ∧
      (reply = .ok () → ∀ q, host.root <+: q → w'.disk.entryAt q = none)
  | _, w, _, w' => w' = w

/-- The hosts that are meant: the main file has an accepted path, the way to the temporary directory has
no link, and the tools keep their data elsewhere. -/
structure Hosts (d : Disk FileName) : Prop where
  accepted : IsProjectPath .posix host.main.path
  absolute : isAbsolute .posix host.workspace = true
  clean : (resolvePosix host.workspace []).includes 0 = false
  storable : ∀ way, way <+: host.root → host.fits way = true
  unlinked : Disk.Unlinked host.root d
  apart : ∀ q, host.tools q → ¬ Disk.Comparable host.root q

end CompileHost

/-! ## The tools -/

/-- What is done between writing the project and reading the output. -/
def CompileOp.isTool : CompileOp → Bool
  | nativeToolAvailable _ | prepareCompilerEnvironment | runNativeProcess .. | previousInstall
  | deadlineAborted | packageManagerEnvironment | runTlmgr .. => true
  | _ => false

/-- A compiler is started in the temporary directory. -/
def CompileOp.compiles : CompileOp → Bool
  | runNativeProcess .. => true
  | _ => false

namespace Compilation

section Tools

variable (texts : TexTexts) (enabled : Bool)

theorem tools_ofTexProg {α : Type} (p : TexProg α) : (ofTexProg p).Only (CompileOp.isTool · = true) := by
  induction p with
  | pure a => exact trivial
  | throw message => exact trivial
  | perform op next ih =>
      cases op with
      | aborted signal => exact ⟨rfl, fun aborted => ih aborted⟩
      | runCommand args signal timeoutMs =>
          rw [ofTexProg]
          refine ⟨rfl, fun environment => ?_⟩
          cases environment with
          | error message => exact ih _
          | ok _ => exact ⟨rfl, fun result => ih result⟩

theorem tools_runNativeProcess (tool : NativeTool) (forceRebuild : Bool) :
    (runNativeProcess tool forceRebuild).Only (CompileOp.isTool · = true) :=
  Prog.only_bind ⟨rfl, Prog.only_ofExcept⟩ fun _ => ⟨rfl, Prog.only_ofExcept⟩

theorem tools_runPasses (passes : List Nat) (result : NativeProcessResult) :
    (runPasses passes result).Only (CompileOp.isTool · = true) := by
  induction passes generalizing result with
  | nil => exact trivial
  | cons pass rest ih =>
      refine Prog.only_bind (tools_runNativeProcess ..) fun result => ?_
      dsimp only
      split
      · exact trivial
      · exact ih _

theorem tools_runLatexProjectOnce (forceRebuild : Bool) :
    (runLatexProjectOnce forceRebuild).Only (CompileOp.isTool · = true) := by
  refine Prog.only_bind ⟨rfl, fun _ => trivial⟩ fun available => ?_
  cases available with
  | true => exact tools_runNativeProcess ..
  | false => exact tools_runPasses ..

theorem tools_resolutionRounds (rounds : Nat) (result : NativeProcessResult) (notes : List JSString) :
    (resolutionRounds texts enabled rounds result notes).Only (CompileOp.isTool · = true) := by
  induction rounds generalizing result notes with
  | zero => exact trivial
  | succ round ih =>
      rw [resolutionRounds]
      split
      · exact trivial
      refine Prog.only_bind ?_ fun resolution => ?_
      · rw [resolveCompilerFailure]
        split
        · exact trivial
        split
        · exact trivial
        · exact Prog.only_bind ⟨rfl, fun _ => trivial⟩ fun _ => tools_ofTexProg _
      · split
        · split <;> exact trivial
        · exact Prog.only_bind (tools_runLatexProjectOnce _) fun _ => ih _ _

/-- **The compiler and the package manager** neither write the project nor read the output. -/
theorem only_runLatexProject : (runLatexProject texts enabled).Only (CompileOp.isTool · = true) := by
  refine Prog.only_bind (tools_runLatexProjectOnce _) fun first => ?_
  refine Prog.only_bind (tools_resolutionRounds ..) fun rounds => ?_
  dsimp only
  split <;> exact trivial

end Tools

end Compilation

/-! ## A run -/

namespace CompileHost

variable {host : CompileHost} {d : Disk FileName} {w w' : HostWorld}

/-- The temporary directory holds the project as it was sent, and the directories for a compiler. -/
def Furnished (host : CompileHost) (d : Disk FileName) : Prop :=
  ∃ placed, Placed host.root host.files placed ∧ ∀ q, host.root <+: q →
    (d.entryAt q = placed.entryAt q ∧ d.contentAt q = placed.contentAt q) ∨
      (host.Furniture q ∧ placed.entryAt q = none ∧ d.entryAt q = some .dir)

theorem Furnished.of_placed (h : Placed host.root host.files d) : host.Furnished d :=
  ⟨d, h, fun _ _ => .inl ⟨rfl, rfl⟩⟩

theorem Furnished.spared {d' : Disk FileName} {writable : Location → Prop} (h : host.Furnished d)
    (hspared : Spared writable d d') (hwritable : ∀ q, writable q → ¬ host.root <+: q) :
    host.Furnished d' := by
  obtain ⟨placed, hplaced, hall⟩ := h
  refine ⟨placed, hplaced, fun q hq => ?_⟩
  obtain ⟨hentry, hcontent⟩ := hspared q fun hw => hwritable q hw hq
  rw [hentry, hcontent]
  exact hall q hq

theorem Furnished.added {d' : Disk FileName} (h : host.Furnished d)
    (hadded : Disk.Added host.Furniture d d') : host.Furnished d' := by
  obtain ⟨placed, hplaced, hall⟩ := h
  refine ⟨placed, hplaced, fun q hq => ?_⟩
  rcases hadded.entries q with hsame | ⟨hnew, hnone, hdir⟩
  · have hcontent : d'.contentAt q = d.contentAt q :=
      Disk.contentAt_congr hsame fun i _ => by rw [hadded.inodes]
    rw [hsame, hcontent]
    exact hall q hq
  · rcases hall q hq with ⟨hentry, -⟩ | ⟨-, -, hthere⟩
    · exact .inr ⟨hnew, hentry.symm.trans hnone, hdir⟩
    · rw [hnone] at hthere
      cases hthere

/-- A compilation underway: nothing changed but where it may write, no link lies there, and until a
compiler ran the project lies there as it was sent. -/
structure Working (host : CompileHost) (d : Disk FileName) (w : HostWorld) : Prop where
  spared : Spared host.Writable d w.disk
  unlinked : Disk.Unlinked host.root w.disk
  directory : w.disk.entryAt host.root.dropLast = some .dir
  pristine : w.worked = false → host.faulty = false → host.Furnished w.disk

/-- **The tools** keep to what they may write. -/
theorem Working.exec {op : CompileOp} {reply : op.Reply} (hhost : host.Hosts d)
    (hop : op.isTool = true) (h : host.Exec op w reply w') (hw : host.Working d w) :
    host.Working d w' := by
  have hdata : w' = { w with disk := w'.disk } → Spared host.tools w.disk w'.disk →
      host.Working d w' := by
    intro hsame hspared
    have hkept : ∀ q, Disk.Comparable host.root q → w'.disk.entryAt q = w.disk.entryAt q :=
      fun q hq => (hspared q fun htools => hhost.apart q htools hq).1
    rw [hsame]
    refine ⟨hw.spared.trans (hspared.mono fun q hq => .inr hq), fun q hq => ?_, ?_,
      fun hworked hfaultless => ?_⟩
    · rw [hkept q hq]
      exact hw.unlinked q hq
    · rw [hkept _ (.inr (List.dropLast_prefix _))]
      exact hw.directory
    · exact (hw.pristine hworked hfaultless).spared hspared fun q hq hroot =>
        hhost.apart q hq (.inl hroot)
  cases op with
  | runNativeProcess tool forceRebuild =>
      obtain ⟨hsame, hspared, hlinks⟩ := h
      have hkept : ∀ q, q <+: host.root → ¬ host.root <+: q → w'.disk.entryAt q = w.disk.entryAt q :=
        fun q hq hroot => (hspared q fun hwritable => hwritable.elim hroot fun htools =>
          hhost.apart q htools (.inr hq)).1
      rw [hsame]
      refine ⟨hw.spared.trans hspared, fun q hq => ?_, ?_, fun hworked => by cases hworked⟩
      · by_cases hroot : host.root <+: q
        · exact hlinks q hroot
        · rw [hkept q (hq.resolve_left hroot) hroot]
          exact hw.unlinked q hq
      · exact directory_kept hw.directory fun hroot => hkept _ (List.dropLast_prefix _) hroot
  | prepareCompilerEnvironment =>
      obtain ⟨hsame, result, heval, -⟩ := h
      obtain ⟨hunlinked, hconfined, hadded⟩ := Prog.wp_sound
        (wp_makeAll (environmentDirectories_inside hhost.accepted) hw.unlinked) heval
      have hkept : ∀ q, ¬ host.root <+: q → w'.disk.entryAt q = w.disk.entryAt q :=
        fun q hq => hconfined.entryAt_eq hw.directory hq
      have hspared : Spared (host.root <+: ·) w.disk w'.disk := fun q hq =>
        ⟨hkept q hq, Disk.contentAt_congr (hkept q hq) fun i _ => by rw [hadded.inodes]⟩
      rw [hsame]
      exact ⟨hw.spared.trans (hspared.mono fun q hq => .inl hq), hunlinked,
        directory_kept hw.directory (hkept _),
        fun hworked hfaultless => (hw.pristine hworked hfaultless).added hadded⟩
  | packageManagerEnvironment => exact hdata h.1 h.2
  | runTlmgr args timeoutMs => exact hdata h.1 h.2
  | nativeToolAvailable tool =>
      obtain rfl : w' = w := h
      exact hw
  | previousInstall =>
      obtain rfl : w' = w := h
      exact hw
  | deadlineAborted =>
      obtain rfl : w' = w := h
      exact hw
  | _ => cases hop

/-- Reading changes nothing. -/
theorem eval_output {α : Type} {fits : Location → Bool} {faulty : Bool} {p : OutputProg α}
    {d d' : Disk FileName} {result : Except OutputFailure α}
    (h : p.Eval (OutputOp.Exec fits faulty) d result d') : d' = d := by
  induction p generalizing d with
  | pure a => exact h.2
  | throw e => exact h.2
  | perform op next ih =>
      obtain ⟨reply, t, ⟨rfl, -⟩, hrest⟩ := h
      exact ih reply hrest

/-- The temporary directory can be made where nothing is. -/
theorem canPut_root (hnone : d.entryAt host.root = none)
    (hdir : d.entryAt host.root.dropLast = some .dir) :
    d.CanPut host.root .dir := by
  refine ⟨fun hnil => ?_, hdir, by rw [hnone]; simp, trivial⟩
  rw [hnil, Disk.entryAt_nil] at hnone
  cases hnone

theorem spared_made (hnone : d.entryAt host.root = none)
    (hdir : d.entryAt host.root.dropLast = some .dir) :
    Spared host.Writable d (d.put host.root .dir) :=
  (spared_of_confined (Disk.confined_put_dir (canPut_root hnone hdir) hnone
    (.inl (List.prefix_refl _))) hdir hnone).mono fun _ hq => .inl hq

/-- **The project is written** to a directory that was just made. -/
theorem Working.materialized (hhost : host.Hosts d) (hnone : d.entryAt host.root = none)
    (hdir : d.entryAt host.root.dropLast = some .dir) {d' : Disk FileName}
    {result : Except ProjectFailure Unit}
    (h : (materializeProjectFiles host.workspace host.files).Eval
      (ProjectOp.Exec host.fits host.faulty) (d.put host.root .dir) result d') :
    (Spared host.Writable d d' ∧ Disk.Unlinked host.root d' ∧
        d'.entryAt host.root.dropLast = some .dir) ∧
      (result = .ok () → host.faulty = false → Placed host.root host.files d') := by
  have hput := canPut_root hnone hdir
  have hmade : Disk.Confined host.root d (d.put host.root .dir) :=
    Disk.confined_put_dir hput hnone (.inl (List.prefix_refl _))
  obtain ⟨hunlinked, hconfined⟩ := Prog.wp_sound
    (wp_materializeProjectFiles_unlinked (hhost.unlinked.put hput (by simp)) hmade) h
  have hspared := (spared_of_confined hconfined hdir hnone).mono fun q hq => (.inl hq : host.Writable q)
  refine ⟨⟨hspared, hunlinked, directory_kept hdir fun hroot => hconfined.entryAt_eq hdir hroot⟩,
    fun hok hfaultless => ?_⟩
  have hbase := plain_workspace host.workspace
  have hroot := resolvePosix_nil host.workspace
  have hlocation : host.root
      = (normalizeSegments true (JSString.split (unit '/') host.workspace)).map fileName := by
    rw [root, rootLocation, hroot, pathLocation_absolutePath hbase]
  have hclean := hhost.clean
  have hstorable := hhost.storable
  rw [hroot, includes_absolutePath] at hclean
  rw [hlocation] at hstorable
  have hempty : Placed host.root [] (d.put host.root .dir) := by
    refine placed_nil ?_ fun name => ?_
    · rw [Disk.entryAt_put hput, if_pos rfl]
    · rw [Disk.entryAt_put hput, if_neg (by simp)]
      exact (nothing_below hnone (List.prefix_append _ _)).1
  have hnothing : Storable host.fits host.root [] := by
    constructor <;> exact List.forall_mem_nil _
  rw [hfaultless] at h
  rw [hlocation] at hempty hnothing ⊢
  have hend := Prog.wp_sound (wp_materialize hbase hroot hclean hstorable hnothing hempty) (hlocation ▸ h)
  rw [List.nil_append] at hend
  rcases hend with ⟨-, -, hplaced⟩ | ⟨hfailed, -⟩
  · exact hplaced
  · exact absurd hok hfailed

/-- What a compilation may do with the host at any time; the first compiler starts with the project and
the directories for it. -/
def Permits (host : CompileHost) (d : Disk FileName) (w : HostWorld) (op : CompileOp) : Prop :=
  Spared host.Writable d w.disk ∧ (op.compiles = true → w.worked = false → host.faulty = false →
    host.Furnished w.disk)

theorem Working.permits (hw : host.Working d w) (op : CompileOp) : host.Permits d w op :=
  ⟨hw.spared, fun _ => hw.pristine⟩

/-- A success is made of what lay in the temporary directory when the output was read. -/
def MadeOf (host : CompileHost) (w : HostWorld) (result : CompileResult) : Prop :=
  ∀ engine output synctex log, result = .success engine output synctex log →
    ∃ disk nativeResult, w.collected = some (disk, nativeResult) ∧
      (InWorkspace host.workspace host.main disk → ∃ pdf packed text,
        Deliverable host.zlib host.fits host.workspace host.main nativeResult disk pdf packed ∧
        result = delivered host.engine host.main (CompileOutput.wholeLog nativeResult text) pdf packed)

/-- What is known when the `try` is over. -/
def Tried (host : CompileHost) (d : Disk FileName) (result : Except CompileFault CompileResult)
    (w : HostWorld) : Prop :=
  Spared host.Writable d w.disk ∧ ∀ compiled, result = .ok compiled → host.MadeOf w compiled

/-- **Reading the output** of a compilation that is underway. -/
theorem Working.collected {nativeResult : NativeProcessResult} {reply : Except CompileFault CompileResult}
    (hw : host.Working d w) (h : host.Exec (.collectOutput nativeResult) w reply w') :
    host.Tried d reply w' := by
  obtain ⟨hsame, result, heval, hreply⟩ := h
  have hdisk := eval_output heval
  refine ⟨by rw [hdisk]; exact hw.spared, fun compiled hcompiled => ?_⟩
  rintro engine output synctex log rfl
  refine ⟨w.disk, nativeResult, by rw [hsame], fun hinside => ?_⟩
  obtain ⟨-, text, -, hcollected⟩ := Prog.wp_sound hinside.wp_collectOutput heval
  rw [(hreply _).mp hcompiled] at hcollected
  rcases hcollected with ⟨pdf, packed, hdeliverable, hresult⟩ | ⟨-, hresult⟩ | ⟨error, hresult, -⟩
  · exact ⟨pdf, packed, text, hdeliverable, Except.ok.inj hresult⟩
  · cases hresult
  · cases hresult

/-- **The `try` of a compilation.** -/
theorem wp_compileBody (texts : TexTexts) (enabled : Bool) (hhost : host.Hosts d)
    (hnone : d.entryAt host.root = none) (hdir : d.entryAt host.root.dropLast = some .dir) :
    (Compilation.compileBody texts enabled).wp host.Exec (host.Permits d) (host.Tried d)
      ⟨d.put host.root .dir, false, none⟩ := by
  refine ⟨⟨spared_made hnone hdir, fun h => by cases h⟩, fun reply w₁ hexec => ?_⟩
  obtain ⟨hsame, result, heval, hreply⟩ := hexec
  obtain ⟨hkept, hplaced⟩ := Working.materialized hhost hnone hdir heval
  cases reply with
  | error error => exact ⟨hkept.1, fun _ h => by cases h⟩
  | ok written =>
      have hworking : host.Working d w₁ := ⟨hkept.1, hkept.2.1, hkept.2.2,
        fun _ hfaultless => .of_placed (hplaced (hreply.mp rfl) hfaultless)⟩
      refine (Prog.wp_bind (host.Tried d) (Compilation.runLatexProject texts enabled)
        (fun nativeResult => .perform (.collectOutput nativeResult) Prog.ofExcept) w₁).mpr ?_
      refine Prog.wp_mono (fun w op hw => Working.permits hw op) (fun result w hw => ?_)
        ((Compilation.only_runLatexProject texts enabled).wp_keeps
          (fun op hop w reply w' h => Working.exec hhost hop h) hworking)
      cases result with
      | error error => exact ⟨hw.spared, fun _ h => by cases h⟩
      | ok nativeResult =>
          refine ⟨hw.permits _, fun reply w' h => ?_⟩
          rw [Prog.wp_ofExcept]
          exact hw.collected h

/-- The end of a compilation. -/
def Settled (host : CompileHost) (d : Disk FileName) (result : Except CompileFault CompileResult)
    (w : HostWorld) : Prop :=
  Spared host.Writable d w.disk ∧ ∀ compiled, result = .ok compiled →
    Spared host.tools d w.disk ∧ host.MadeOf w compiled

/-- **The `finally`**: when the directory is removed, only the tools' own data may have changed. -/
theorem Tried.cleaned (hnone : d.entryAt host.root = none)
    {result : Except CompileFault CompileResult} (h : host.Tried d result w) :
    Compilation.cleanup.wp host.Exec (host.Permits d) (fun cleaned w' => match cleaned with
      | .ok _ => host.Settled d result w'
      | .error error => host.Settled d (.error error) w') w := by
  refine ⟨⟨h.1, fun hop => by cases hop⟩, ?_⟩
  rintro - w₁ (rfl : w₁ = w)
  refine ⟨⟨h.1, fun hop => by cases hop⟩, ?_⟩
  rintro - w₂ (rfl : w₂ = w₁)
  refine ⟨⟨h.1, fun hop => by cases hop⟩, fun reply w₃ hexec => ?_⟩
  obtain ⟨hsame, hspared, hremoved⟩ := hexec
  have hwritable : Spared host.Writable d w₃.disk := h.1.trans (hspared.mono fun q hq => .inl hq)
  rw [Prog.wp_ofExcept]
  cases reply with
  | error error => exact ⟨hwritable, fun _ hok => by cases hok⟩
  | ok u =>
      refine ⟨hwritable, fun compiled hcompiled => ⟨fun q hq => ?_, ?_⟩⟩
      · by_cases hbelow : host.root <+: q
        · have hgone := hremoved rfl q hbelow
          obtain ⟨hentry, hcontent⟩ := nothing_below hnone hbelow
          exact ⟨hgone.trans hentry.symm, by rw [hcontent, Disk.contentAt, hgone]⟩
        · exact hwritable q (not_or.mpr ⟨hbelow, hq⟩)
      · intro engine output synctex log hsuccess
        rw [hsame]
        exact h.2 compiled hcompiled engine output synctex log hsuccess

end CompileHost

/-- **A compilation is isolated.**  On every host and whatever the native processes do where they may
write: at every moment only the temporary directory and the tools' own data may have changed; the first
compiler starts with exactly the files of the project in the directory, besides the directories that are
made for it, when no call failed for a reason of its own; when the compilation settles with a result the
directory is gone, and only the tools' own data may have changed; and a success carries the regular files
that lay beside the main file when the output was read, if the directory of the main file was still
there. -/
theorem compileProject_isolated (texts : TexTexts) (enabled : Bool) (host : CompileHost)
    (d : Disk FileName) (hhost : host.Hosts d) :
    (Compilation.compileProject texts enabled host.engine).wp host.Exec (host.Permits d)
      (host.Settled d) ⟨d, false, none⟩ := by
  have hstart : ∀ op : CompileOp, op.compiles = false → host.Permits d ⟨d, false, none⟩ op :=
    fun op hop => ⟨.refl _ d, fun h => by rw [hop] at h; cases h⟩
  have hfailed : ∀ error, host.Settled d (.error error) ⟨d, false, none⟩ :=
    fun error => ⟨.refl _ d, fun _ h => by cases h⟩
  refine ⟨hstart _ rfl, ?_⟩
  rintro available w (rfl : w = _)
  cases available with
  | error error => exact hfailed error
  | ok available =>
      cases available with
      | false =>
          refine ⟨.refl _ d, fun compiled hcompiled => ⟨.refl _ d, ?_⟩⟩
          rintro engine output synctex log rfl
          cases hcompiled
      | true =>
          refine ⟨hstart _ rfl, fun made w hmade => ?_⟩
          cases made with
          | error error =>
              obtain rfl : w = _ := hmade
              exact hfailed error
          | ok made =>
              obtain ⟨hnone, hdir, rfl⟩ := hmade
              have hmade : ∀ op : CompileOp, op.compiles = false →
                  host.Permits d ⟨d.put host.root .dir, false, none⟩ op :=
                fun op hop => ⟨CompileHost.spared_made hnone hdir, fun h => by rw [hop] at h; cases h⟩
              refine ⟨hmade _ rfl, ?_⟩
              rintro - w (rfl : w = _)
              refine ⟨hmade _ rfl, ?_⟩
              rintro - w (rfl : w = _)
              refine (Prog.wp_ensuring (host.Settled d) _ Compilation.cleanup _).mpr ?_
              rw [Prog.wp_tryCatch]
              refine Prog.wp_post (fun result w htried => ?_)
                (CompileHost.wp_compileBody texts enabled hhost hnone hdir)
              cases result with
              | ok compiled =>
                  show Prog.wp _ _ _ Compilation.cleanup w
                  refine Prog.wp_post (fun cleaned w' h => ?_) (CompileHost.Tried.cleaned hnone htried)
                  cases cleaned <;> exact h
              | error error =>
                  -- the `catch` makes a failure of it, which promises nothing
                  have hcaught : host.Tried d (.ok (Compilation.compileFailure host.engine error)) w := by
                    refine ⟨htried.1, fun compiled hcompiled => ?_⟩
                    obtain rfl := Except.ok.inj hcompiled
                    intro engine output synctex log hsuccess
                    cases error <;> cases hsuccess
                  show Prog.wp _ _ _ Compilation.cleanup w
                  refine Prog.wp_post (fun cleaned w' h => ?_) (CompileHost.Tried.cleaned hnone hcaught)
                  cases cleaned <;> exact h

/-- A host with nothing on its disk, whose tools keep their data in `/cache`. -/
def bareHost : CompileHost where
  fits _ := true
  faulty := false
  zlib := unusedZlib
  engine := js "pdflatex"
  workspace := js "/srv"
  files := [bookFile]
  main := bookFile
  tools q := [fileName (js "cache")] <+: q

theorem compileProject_isolated_bare :
    (Compilation.compileProject (texTexts .posix) true bareHost.engine).wp bareHost.Exec
      (bareHost.Permits Disk.empty)
      (fun result w => ∀ compiled, result = .ok compiled → w.disk.entryAt bareHost.root = none)
      ⟨Disk.empty, false, none⟩ := by
  have hroot : bareHost.root = [fileName (js "srv")] := by decide +kernel
  have hne : fileName (js "cache") ≠ fileName (js "srv") := by decide +kernel
  have hapart : ∀ q, bareHost.tools q → ¬ Disk.Comparable bareHost.root q := by
    rintro q ⟨rest, rfl⟩ hq
    rw [hroot] at hq
    rcases hq with hbelow | habove
    · exact hne (List.cons_prefix_cons.mp hbelow).1.symm
    · exact hne (List.cons_prefix_cons.mp habove).1
  have haccepted : validateProjectPath .posix (some (.string bookFile.path)) [] = .ok bookFile.path := by
    decide +kernel
  have hhost : bareHost.Hosts Disk.empty := ⟨(validateProjectPath_ok haccepted).2, by decide,
    by decide +kernel, fun _ _ => rfl, unlinked_empty _, hapart⟩
  refine Prog.wp_post (fun result w hsettled compiled hcompiled => ?_)
    (compileProject_isolated (texTexts .posix) true bareHost Disk.empty hhost)
  have hspared := (hsettled.2 compiled hcompiled).1 bareHost.root fun htools =>
    hapart _ htools (.inl (List.prefix_refl _))
  rw [hspared.1, hroot, Disk.entryAt_empty, if_neg (by simp)]

end Typr
