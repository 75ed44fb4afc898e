import TyprCompanion.Compile.MissingFiles

/-!
# What the resolution of a failure runs

* `resolveOutput` — `resolveCompilerFailure` from its first line on, without the wait for its turn.
* `Turn` — which command comes after which, and what it is told.
* `Permitted` — a command that may be run: the manager is enabled, the compiler named a file, the
  command has its turn, and no argument was made up by a stranger.
* **`resolution_exact`** — nothing else is run, whatever the commands answer, and the result says
  how the last installation ended.
-/

namespace Typr

open Core

/-- `resolveCompilerFailure`, but for its place in the queue -/
def resolveOutput (texts : TexTexts) (enabled : Bool) (output : JSString) (signal : Nat) :
    TexProg TexPackageResolution :=
  let files := (texts.extractMissingTexFiles output).take MAX_FILES_PER_ROUND
  if files = [] then pure ⟨[], [], false, none⟩
  else if enabled = false then
    pure ⟨files, [], false, some (js "automatic TeX package installation is disabled")⟩
  else resolveMissingFiles texts files signal

/-- What waits for its turn is the rest of the call; a call that does not wait has its answer. -/
theorem queuedBody_resolve (texts : TexTexts) (enabled : Bool) (output : JSString) (signal : Nat) :
    match TexPackages.queuedBody texts enabled (.resolve output signal) with
    | some body => body = .resolution <$> resolveOutput texts enabled output signal
    | none => ∃ resolution, resolveOutput texts enabled output signal = pure resolution := by
  simp only [TexPackages.queuedBody, resolveOutput, resolveCompilerFailure]
  by_cases hfiles : (texts.extractMissingTexFiles output).take MAX_FILES_PER_ROUND = []
  · simp only [hfiles, true_or, if_true]
    exact ⟨_, rfl⟩
  · by_cases henabled : enabled = false
    · simp only [henabled, or_true, if_true, if_neg hfiles]
      exact ⟨_, rfl⟩
    · rw [if_neg (not_or.mpr ⟨hfiles, henabled⟩)]
      simp only [if_neg hfiles, if_neg henabled]

/-- A command that was run, and how it ended. -/
structure TexRun where
  args : List JSString
  result : Except JSString CommandResult

def TexRun.Succeeded (run : TexRun) : Prop := ∃ result, run.result = .ok result ∧ result.exitCode = some 0

/-- The runner answers anything, and what it ran is recorded. -/
def Answers : (op : TexOp) → List TexRun → op.Reply → List TexRun → Prop
  | .aborted _, runs, _, runs' => runs' = runs
  | .runCommand args _ _, runs, result, runs' => runs' = runs ++ [⟨args, result⟩]

def searchArgs (file : JSString) : List JSString :=
  [js "search", js "--global", js "--file", js "/" ++ file]

def installArgs (packages : List JSString) : List JSString := js "install" :: packages

def selfUpdateArgs : List JSString := [js "update", js "--self"]

/-- The files were searched for, one after another, and every search exited with 0. -/
def Searched (files : List JSString) (runs : List TexRun) : Prop :=
  List.Forall₂ (fun file run => run.args = searchArgs file ∧ run.Succeeded) files runs

section Protocol

variable (platform : Platform) (files : List JSString)

/-- The search for a file told of the package. -/
def FoundBy (runs : List TexRun) (package : JSString) : Prop :=
  ∃ file ∈ files, ∃ run ∈ runs, run.args = searchArgs file ∧
    ∃ result, run.result = .ok result ∧ BestMatch platform result.stdout file package

/-- The packages the searches told of, each of them once. -/
def FoundPackages (runs : List TexRun) (packages : List JSString) : Prop :=
  packages.Nodup ∧ ∀ package, package ∈ packages ↔ FoundBy platform files runs package

/-- All files were searched for, and these are the packages to install. -/
structure Ready (runs : List TexRun) (packages : List JSString) : Prop where
  searched : Searched files runs
  found : FoundPackages platform files runs packages
  nonempty : packages ≠ []

/-- An installation failed because `tlmgr` asks to be updated first. -/
def Outdated (packages : List JSString) (run : TexRun) : Prop :=
  run.args = installArgs packages ∧ ∃ install, run.result = .ok install ∧
    install.exitCode ≠ some 0 ∧
    requiresTlmgrSelfUpdate (install.stdout ++ js "\n" ++ install.stderr) = true

/-- The command that comes after others. -/
inductive Turn : List TexRun → List JSString → Prop
  | search {before after : List JSString} {file : JSString} {runs : List TexRun} :
      files = before ++ file :: after → Searched before runs → Turn runs (searchArgs file)
  | install {runs : List TexRun} {packages : List JSString} :
      Ready platform files runs packages → Turn runs (installArgs packages)
  | selfUpdate {runs : List TexRun} {packages : List JSString} {install : TexRun} :
      Ready platform files runs packages → Outdated packages install →
      Turn (runs ++ [install]) selfUpdateArgs
  | retry {runs : List TexRun} {packages : List JSString} {install update : TexRun} :
      Ready platform files runs packages → Outdated packages install →
      update.args = selfUpdateArgs → update.Succeeded →
      Turn (runs ++ [install, update]) (installArgs packages)

/-- Where an argument comes from. -/
inductive Argument (runs : List TexRun) : JSString → Prop
  | fixed {arg : JSString} :
      arg ∈ [js "search", js "--global", js "--file", js "install", js "update", js "--self"] →
      Argument runs arg
  | file {file : JSString} : file ∈ files → SupportedFile platform file →
      Argument runs (unit '/' :: file)
  | package {package : JSString} : FoundBy platform files runs package →
      package.head? ≠ some (unit '-') → Argument runs package

end Protocol

section Guarantees

variable (platform : Platform) (enabled : Bool) (output : JSString)

/-- The files the call looks up. -/
def filesOfRound : List JSString :=
  (extractMissingTexFiles platform output).take MAX_FILES_PER_ROUND

/-- A command that the call may run. -/
structure Permitted (runs : List TexRun) (args : List JSString) : Prop where
  enabled : enabled = true
  named : ∃ file, Names platform output file
  turn : Turn platform (filesOfRound platform output) runs args
  arguments : ∀ arg ∈ args, Argument platform (filesOfRound platform output) runs arg

/-- Reading the signal is always allowed. -/
def Permits (runs : List TexRun) : TexOp → Prop
  | .aborted _ => True
  | .runCommand args _ _ => Permitted platform enabled output runs args

end Guarantees

def TexRun.isInstallation (run : TexRun) : Bool := run.args.head? = some (js "install")

/-- The last installation exited with 0. -/
def Installed (runs : List TexRun) : Prop :=
  ∃ run, (runs.filter TexRun.isInstallation).getLast? = some run ∧ run.Succeeded

/-! ## The protocol -/

section Turns

variable {platform : Platform} {files : List JSString} {runs : List TexRun}

theorem searchArgs_injective {file file' : JSString} (h : searchArgs file = searchArgs file') :
    file = file' := by
  simp only [searchArgs, List.cons.injEq, and_true, true_and] at h
  exact List.append_cancel_left h

theorem Searched.mem {run : TexRun} (h : Searched files runs) (hrun : run ∈ runs) :
    ∃ file ∈ files, run.args = searchArgs file ∧ run.Succeeded := by
  induction h with
  | nil => cases hrun
  | @cons file first files runs hfirst _ ih =>
      rcases List.mem_cons.mp hrun with rfl | hrun
      · exact ⟨file, List.mem_cons_self, hfirst⟩
      · obtain ⟨file', hfile', hargs⟩ := ih hrun
        exact ⟨file', List.mem_cons_of_mem _ hfile', hargs⟩

theorem Searched.concat {file : JSString} {run : TexRun} (h : Searched files runs)
    (hargs : run.args = searchArgs file) (hrun : run.Succeeded) :
    Searched (files ++ [file]) (runs ++ [run]) :=
  List.rel_append h (.cons ⟨hargs, hrun⟩ .nil)

/-- The last installation decides. -/
theorem installed_concat {run : TexRun} {packages : List JSString}
    (h : run.args = installArgs packages) : Installed (runs ++ [run]) ↔ run.Succeeded := by
  have hinstall : run.isInstallation = true := by
    rw [TexRun.isInstallation, h]
    rfl
  rw [Installed, List.filter_append, List.filter_cons_of_pos hinstall, List.filter_nil,
    List.getLast?_concat]
  simp

theorem installed_concat_of_ne {run : TexRun} (h : run.args.head? ≠ some (js "install")) :
    Installed (runs ++ [run]) ↔ Installed runs := by
  have hother : ¬ run.isInstallation = true := mt of_decide_eq_true h
  rw [Installed, List.filter_append, List.filter_cons_of_neg hother, List.filter_nil,
    List.append_nil, Installed]

theorem searchArgs_head (file : JSString) : (searchArgs file).head? ≠ some (js "install") := by
  simp only [searchArgs, List.head?_cons, ne_eq, Option.some.injEq]
  decide

/-- Searches install nothing. -/
theorem Searched.not_installed (h : Searched files runs) : ¬ Installed runs := by
  rintro ⟨run, hlast, -⟩
  obtain ⟨hrun, hinstall⟩ := List.mem_filter.mp (List.mem_of_getLast? hlast)
  obtain ⟨file, -, hargs, -⟩ := h.mem hrun
  exact searchArgs_head file (hargs ▸ of_decide_eq_true hinstall)

theorem FoundBy.append {runs' : List TexRun} {package : JSString}
    (h : FoundBy platform files runs package) : FoundBy platform files (runs ++ runs') package := by
  obtain ⟨file, hfile, run, hrun, hfound⟩ := h
  exact ⟨file, hfile, run, List.mem_append_left _ hrun, hfound⟩

theorem FoundBy.head_ne {package : JSString} (h : FoundBy platform files runs package) :
    package.head? ≠ some (unit '-') := by
  obtain ⟨_, _, _, _, _, _, _, hbest⟩ := h
  exact hbest.safe.head_ne

/-- **What a search adds** to the packages that were told of. -/
theorem foundBy_concat {file package : JSString} {search : CommandResult}
    (hsearched : Searched files runs) :
    FoundBy platform (files ++ [file]) (runs ++ [⟨searchArgs file, .ok search⟩]) package ↔
      FoundBy platform files runs package ∨
        packageForExactFile platform search.stdout file = some package := by
  rw [packageForExactFile_iff]
  constructor
  · rintro ⟨file', hfile', run, hrun, hargs, result, hresult, hbest⟩
    rcases List.mem_append.mp hrun with hrun | hrun
    · obtain ⟨file'', hfile'', hargs', -⟩ := hsearched.mem hrun
      obtain rfl := searchArgs_injective (hargs.symm.trans hargs')
      exact .inl ⟨file', hfile'', run, hrun, hargs, result, hresult, hbest⟩
    · obtain rfl := List.mem_singleton.mp hrun
      obtain rfl := searchArgs_injective hargs
      obtain rfl := Except.ok.inj hresult
      exact .inr hbest
  · rintro (⟨file', hfile', run, hrun, hrest⟩ | hbest)
    · exact ⟨file', List.mem_append_left _ hfile', run, List.mem_append_left _ hrun, hrest⟩
    · exact ⟨file, by simp, _, List.mem_append_right _ (List.mem_singleton_self _), rfl, search,
        rfl, hbest⟩

theorem FoundPackages.search_none {packages : List JSString} {file : JSString}
    {search : CommandResult} (h : FoundPackages platform files runs packages)
    (hsearched : Searched files runs)
    (hnone : packageForExactFile platform search.stdout file = none) :
    FoundPackages platform (files ++ [file]) (runs ++ [⟨searchArgs file, .ok search⟩]) packages := by
  refine ⟨h.1, fun package => ?_⟩
  rw [foundBy_concat hsearched, hnone, h.2]
  exact (or_iff_left nofun).symm

theorem FoundPackages.search_some {packages : List JSString} {file package : JSString}
    {search : CommandResult} (h : FoundPackages platform files runs packages)
    (hsearched : Searched files runs)
    (hsome : packageForExactFile platform search.stdout file = some package) :
    FoundPackages platform (files ++ [file]) (runs ++ [⟨searchArgs file, .ok search⟩])
      (if package ∈ packages then packages else packages ++ [package]) := by
  have hfound : ∀ other, FoundBy platform (files ++ [file])
      (runs ++ [⟨searchArgs file, .ok search⟩]) other ↔ other ∈ packages ∨ other = package := by
    intro other
    rw [foundBy_concat hsearched, hsome, h.2, Option.some.injEq, eq_comm]
  split
  next hmem =>
    refine ⟨h.1, fun other => ?_⟩
    rw [hfound]
    exact (or_iff_left_of_imp fun heq => heq ▸ hmem).symm
  next hmem =>
    refine ⟨List.nodup_append.mpr ⟨h.1, List.pairwise_singleton .., ?_⟩, fun other => ?_⟩
    · rintro first hfirst second hsecond rfl
      exact hmem (List.mem_singleton.mp hsecond ▸ hfirst)
    · rw [hfound, List.mem_append, List.mem_singleton]

/-- **No argument is a stranger's.** -/
theorem Turn.argument {args : List JSString} (hfiles : ∀ file ∈ files, SupportedFile platform file)
    (h : Turn platform files runs args) : ∀ arg ∈ args, Argument platform files runs arg := by
  have hinstall : ∀ {runs packages} (more : List TexRun), Ready platform files runs packages →
      ∀ arg ∈ installArgs packages, Argument platform files (runs ++ more) arg := by
    intro runs packages more hready arg harg
    rcases List.mem_cons.mp harg with rfl | harg
    · exact .fixed (by simp)
    · have hfound := (hready.found.2 arg).mp harg
      exact .package hfound.append hfound.head_ne
  cases h with
  | @search before after file _ hsplit hsearched =>
      have hmem : file ∈ files := by simp [hsplit]
      intro arg harg
      simp only [searchArgs, List.mem_cons, List.not_mem_nil, or_false] at harg
      rcases harg with rfl | rfl | rfl | rfl
      · exact .fixed (by simp)
      · exact .fixed (by simp)
      · exact .fixed (by simp)
      · exact .file hmem (hfiles file hmem)
  | install hready =>
      rw [← List.append_nil runs]
      exact hinstall [] hready
  | selfUpdate hready houtdated =>
      intro arg harg
      simp only [selfUpdateArgs, List.mem_cons, List.not_mem_nil, or_false] at harg
      rcases harg with rfl | rfl
      · exact .fixed (by simp)
      · exact .fixed (by simp)
  | retry hready houtdated hupdate hsuccess => exact hinstall _ hready

end Turns

/-! ## The programs -/

section Programs

variable {platform : Platform} {enabled : Bool} {output : JSString} {signal : Nat}
  {runs : List TexRun}

theorem wp_runCommand {allowed : List TexRun → TexOp → Prop}
    {post : Except JSString CommandResult → List TexRun → Prop} {args : List JSString}
    {timeoutMs : Nat} :
    (runCommand args signal timeoutMs).wp Answers allowed post runs ↔
      allowed runs (.runCommand args signal timeoutMs) ∧
        ∀ result, post result (runs ++ [⟨args, result⟩]) := by
  rw [runCommand, Prog.wp_perform]
  refine and_congr_right fun _ => forall_congr' fun result => ?_
  constructor
  · intro h
    exact (Prog.wp_ofExcept ..).mp (h _ rfl)
  · rintro h _ rfl
    exact (Prog.wp_ofExcept ..).mpr h

/-- What the caller is told about the installation: nothing was installed where the call throws. -/
def tellsInstalled : Except JSString TexPackageResolution → Bool
  | .ok resolution => resolution.installed
  | .error _ => false

/-- The caller is told how the last installation ended. -/
def Tells (r : Except JSString TexPackageResolution) (runs : List TexRun) : Prop :=
  tellsInstalled r = true ↔ Installed runs

theorem permits_of_turn {args : List JSString} {timeoutMs : Nat} (henabled : enabled = true)
    (hfiles : filesOfRound platform output ≠ [])
    (h : Turn platform (filesOfRound platform output) runs args) :
    Permits platform enabled output runs (.runCommand args signal timeoutMs) := by
  have hnames : ∀ file ∈ filesOfRound platform output, Names platform output file :=
    fun file hfile => names_of_mem_extract (List.mem_of_mem_take hfile)
  obtain ⟨file, hfile⟩ := List.exists_mem_of_ne_nil _ hfiles
  exact ⟨henabled, ⟨file, hnames file hfile⟩, h, h.argument fun file hfile => (hnames file hfile).supported⟩

theorem tells_ok {resolution : TexPackageResolution} :
    Tells (.ok resolution) runs ↔ (resolution.installed = true ↔ Installed runs) := Iff.rfl

theorem tells_of_not_installed {r : Except JSString TexPackageResolution}
    (hr : tellsInstalled r = false) (hruns : ¬ Installed runs) : Tells r runs :=
  iff_of_false (by rw [hr]; exact Bool.false_ne_true) hruns

/-- The answer behind the last installation. -/
theorem tells_afterInstall {files packages : List JSString} {install : CommandResult} :
    Tells (.ok (installPackages.afterInstall files packages install))
      (runs ++ [⟨installArgs packages, .ok install⟩]) := by
  rw [tells_ok, installed_concat rfl, installPackages.afterInstall]
  split
  next hfailed =>
    refine iff_of_false Bool.false_ne_true ?_
    rintro ⟨result, hresult, hzero⟩
    exact hfailed (Except.ok.inj hresult ▸ hzero)
  next hzero => exact iff_of_true rfl ⟨install, rfl, not_not.mp hzero⟩

/-- **The installation** behind the searches. -/
theorem wp_installPackages {packages : List JSString} (henabled : enabled = true)
    (hfiles : filesOfRound platform output ≠ [])
    (hsearched : Searched (filesOfRound platform output) runs)
    (hfound : FoundPackages platform (filesOfRound platform output) runs packages) :
    (installPackages (texTexts platform) (filesOfRound platform output) signal packages).wp Answers
      (Permits platform enabled output) Tells runs := by
  rw [installPackages]
  split
  next hempty =>
    rw [Prog.wp_pure]
    exact tells_of_not_installed rfl hsearched.not_installed
  next hempty =>
    have hready : Ready platform (filesOfRound platform output) runs packages :=
      ⟨hsearched, hfound, hempty⟩
    have hthrown : ∀ {message runs run}, run.args = installArgs packages →
        run.result = .error message → Tells (.error message) (runs ++ [run]) := by
      intro message runs run hargs hresult
      refine tells_of_not_installed rfl ?_
      rw [installed_concat hargs]
      rintro ⟨result, hok, -⟩
      cases hresult.symm.trans hok
    simp only [Prog.wp_bind, wp_runCommand]
    refine ⟨permits_of_turn henabled hfiles (.install hready), fun result => ?_⟩
    cases result with
    | error message => exact hthrown rfl rfl
    | ok install =>
        rw [Prog.afterBind_ok]
        split
        next hold =>
          have houtdated : Outdated packages ⟨installArgs packages, .ok install⟩ :=
            ⟨rfl, install, rfl, hold.1, hold.2⟩
          have hfailed : ∀ update : TexRun, update.args = selfUpdateArgs →
              ¬ Installed (runs ++ [⟨installArgs packages, .ok install⟩] ++ [update]) := by
            intro update hupdate
            rw [installed_concat_of_ne (by rw [hupdate]; decide), installed_concat rfl]
            rintro ⟨result, hresult, hzero⟩
            exact hold.1 (Except.ok.inj hresult ▸ hzero)
          simp only [Prog.wp_bind, wp_runCommand]
          refine ⟨permits_of_turn henabled hfiles (.selfUpdate hready houtdated), fun result => ?_⟩
          cases result with
          | error message => exact tells_of_not_installed rfl (hfailed _ rfl)
          | ok update =>
              rw [Prog.afterBind_ok]
              split
              next hupdate => exact tells_of_not_installed rfl (hfailed _ rfl)
              next hupdate =>
                have hsuccess : TexRun.Succeeded ⟨selfUpdateArgs, .ok update⟩ :=
                  ⟨update, rfl, not_not.mp hupdate⟩
                have hretry := Turn.retry hready houtdated rfl hsuccess
                simp only [Prog.wp_bind, wp_runCommand]
                refine ⟨?_, fun result => ?_⟩
                · rw [List.append_assoc]
                  exact permits_of_turn henabled hfiles hretry
                · cases result with
                  | error message => exact hthrown rfl rfl
                  | ok install => exact tells_afterInstall
        next hcurrent => exact tells_afterInstall

/-- **The loop over the files** and the installation behind it. -/
theorem wp_searchPackages {before rest packages : List JSString} (henabled : enabled = true)
    (hfiles : filesOfRound platform output ≠ [])
    (hsplit : filesOfRound platform output = before ++ rest) (hsearched : Searched before runs)
    (hfound : FoundPackages platform before runs packages) :
    (searchPackages (texTexts platform) (filesOfRound platform output) signal rest packages).wp
      Answers (Permits platform enabled output) Tells runs := by
  induction rest generalizing before runs packages with
  | nil =>
      obtain rfl := hsplit.trans (List.append_nil before)
      exact wp_installPackages henabled hfiles hsearched hfound
  | cons file rest ih =>
      have hfailed : ∀ result, ¬ Installed (runs ++ [⟨searchArgs file, result⟩]) := by
        intro result
        rw [installed_concat_of_ne (searchArgs_head file)]
        exact hsearched.not_installed
      rw [searchPackages, Prog.wp_bind, Prog.wp_call]
      refine ⟨trivial, ?_⟩
      rintro aborted _ rfl
      rw [Prog.afterBind_ok]
      split
      next => exact tells_of_not_installed rfl hsearched.not_installed
      next =>
        simp only [Prog.wp_bind, wp_runCommand]
        refine ⟨permits_of_turn henabled hfiles (.search hsplit hsearched), fun result => ?_⟩
        cases result with
        | error message => exact tells_of_not_installed rfl (hfailed _)
        | ok search =>
            rw [Prog.afterBind_ok]
            split
            next => exact tells_of_not_installed rfl (hfailed _)
            next hzero =>
              have hnext : filesOfRound platform output = (before ++ [file]) ++ rest := by
                rw [hsplit, List.append_assoc, List.singleton_append]
              have hsuccess : TexRun.Succeeded ⟨searchArgs file, .ok search⟩ :=
                ⟨search, rfl, not_not.mp hzero⟩
              have hmore := hsearched.concat rfl hsuccess
              split
              next hnone => exact ih hnext hmore (hfound.search_none hsearched hnone)
              next package hsome => exact ih hnext hmore (hfound.search_some hsearched hsome)

end Programs

/-- **Nothing is run that was not asked for.**  Whatever the compiler printed and the commands answer:
a command is run only when the manager is enabled and the output names a file that can be looked up,
in its turn, and with arguments that are literals, files of the output or packages of the searches.
The call never throws, and says that it installed something just when the last installation exited
with 0. -/
theorem resolution_exact (platform : Platform) (enabled : Bool) (output : JSString) (signal : Nat) :
    (resolveOutput (texTexts platform) enabled output signal).wp Answers
      (Permits platform enabled output)
      (fun r runs => ∃ resolution, r = .ok resolution ∧
        (resolution.installed = true ↔ Installed runs)) [] ∧
    (filesOfRound platform output).Nodup ∧ (filesOfRound platform output).length ≤ 4 := by
  refine ⟨?_, nodup_extract.sublist (List.take_sublist ..), List.length_take_le ..⟩
  have hnothing : ¬ Installed [] := by
    rintro ⟨run, hlast, -⟩
    cases hlast
  have hearly : ∀ resolution : TexPackageResolution, resolution.installed = false →
      ∃ resolution', (.ok resolution : Except JSString TexPackageResolution) = .ok resolution' ∧
        (resolution'.installed = true ↔ Installed []) :=
    fun resolution h => ⟨resolution, rfl, iff_of_false (by rw [h]; exact Bool.false_ne_true) hnothing⟩
  simp only [resolveOutput]
  split
  next => exact hearly _ rfl
  next hfiles =>
    split
    next => exact hearly _ rfl
    next henabled =>
      rw [resolveMissingFiles, Prog.wp_tryCatch]
      have hfound : FoundPackages platform [] [] [] := by
        refine ⟨List.nodup_nil, fun package => iff_of_false List.not_mem_nil ?_⟩
        rintro ⟨file, hfile, -⟩
        cases hfile
      refine Prog.wp_post (fun r runs hr => ?_) (wp_searchPackages (eq_true_of_ne_false henabled)
        hfiles (List.nil_append _).symm .nil hfound)
      cases r with
      | ok resolution => exact ⟨resolution, rfl, hr⟩
      | error message => exact ⟨_, rfl, hr⟩

end Typr
