import TyprCompanion.Management.ActiveDistribution

/-!
# Reopening the provider manager

What `open` retains of the installations when files of them are gone.

* `firstIsFile` — what `removeMissingInstallations` looks at: the first executable of a record.
* `Intact` — the promise: what is retained is complete, and no variable names a missing executable.
* `named_applyEnvironment` — where the values of the variables come from.
* **`reopened_intact_iff`** — the promise is kept exactly when no record lost another executable than
  its first one.
-/

namespace Typr

open Core ProviderOptions

/-! ## The code -/

namespace ProviderOptions

variable (options : ProviderOptions)

/-- What `removeMissingInstallations` checks of a record; `isFile` is `stat(path).isFile()`, and false
where `stat` throws. -/
def firstIsFile (isFile : JSString → Bool) (record : InstalledProviderRecord) : Bool :=
  match options.absoluteExecutables record with
  | .ok (entry :: _) => entry.2 != [] && isFile entry.2
  | _ => false

/-- The state `open` reads. -/
def readState (found : Option Json) : Except JSString ProviderState :=
  match found with
  | none => .ok ⟨none, []⟩
  | some value => validateProviderState options.host.platform options.catalog value

/-! ## The promise -/

/-- All executables of a record are regular files inside its install root. -/
def AllFiles (isFile : JSString → Bool) (record : InstalledProviderRecord) : Prop :=
  ∃ executables, options.absoluteExecutables record = .ok executables ∧
    ∀ entry ∈ executables, isFile entry.2 = true ∧
      (entry.2 = options.installRoot record.id record.version ∨
        JSString.startsWith entry.2
          (options.installRoot record.id record.version ++ [sep options.host.platform]) = true)

end ProviderOptions

/-- The variables that name executables. -/
def EXECUTABLE_VARIABLES : List JSString :=
  [PDFLATEX_VARIABLE, LATEXMK_VARIABLE, TLMGR_VARIABLE, TEXLAB_VARIABLE, TINYMIST_VARIABLE]

/-- What is retained is complete, the active distribution is retained, and every executable the
environment names is a file, if it is not named by the baseline. -/
structure Intact (options : ProviderOptions) (isFile : JSString → Bool) (baseline env : Environment)
    (state : ProviderState) : Prop where
  complete : ∀ record ∈ state.installed, options.AllFiles isFile record
  active : ∀ id, state.activeTexProvider = some id → ∃ record ∈ state.installed, record.id = id
  named : ∀ key ∈ EXECUTABLE_VARIABLES,
    (options.applyEnvironment baseline state env).1 key = baseline key ∨
      ∃ path, (options.applyEnvironment baseline state env).1 key = some path ∧ isFile path = true

/-! ## Where the variables come from -/

section Named

variable {options : ProviderOptions} {baseline env : Environment}
  {records : List InstalledProviderRecord}

/-- The variable is the one of the baseline, or names an executable of a record. -/
def NamedBy (options : ProviderOptions) (records : List InstalledProviderRecord)
    (baseline env : Environment) (key : JSString) : Prop :=
  env key = baseline key ∨ ∃ record ∈ records, ∃ executables,
    options.absoluteExecutables record = .ok executables ∧
      ∃ entry ∈ executables, env key = some entry.2

theorem NamedBy.set_of_ne {key other : JSString} (h : NamedBy options records baseline env key)
    (hne : key ≠ other) (value : Option JSString) :
    NamedBy options records baseline (env.set other value) key := by
  unfold NamedBy
  rwa [Environment.set_of_ne _ hne]

/-- An assignment names an executable of its record. -/
theorem NamedBy.assign {key : JSString} (h : NamedBy options records baseline env key)
    {record : InstalledProviderRecord} (hrecord : record ∈ records)
    {executables : List (JSString × JSString)}
    (hexecutables : options.absoluteExecutables record = .ok executables) (name other : JSString) :
    NamedBy options records baseline (ProviderOptions.assign executables name other env) key := by
  unfold ProviderOptions.assign
  cases hfound : executable? executables name with
  | none => exact h
  | some path =>
      by_cases hkey : key = other
      · obtain ⟨hmap, -⟩ := Option.filter_eq_some_iff.mp hfound
        obtain ⟨entry, hentry, rfl⟩ := Option.map_eq_some_iff.mp hmap
        refine .inr ⟨record, hrecord, executables, hexecutables, entry, List.mem_of_find?_eq_some hentry, ?_⟩
        rw [hkey]
        exact Environment.set_self _ _ _
      · exact h.set_of_ne hkey _

theorem NamedBy.overlayServers {key : JSString} {rest : List InstalledProviderRecord}
    (hrest : ∀ record ∈ rest, record ∈ records) (h : NamedBy options records baseline env key) :
    NamedBy options records baseline (options.overlayServers rest env).1 key := by
  induction rest generalizing env with
  | nil => exact h
  | cons record rest ih =>
      obtain ⟨hrecord, hrest⟩ := List.forall_mem_cons.mp hrest
      unfold ProviderOptions.overlayServers
      cases hexecutables : options.absoluteExecutables record with
      | error e => exact h
      | ok executables =>
          dsimp only
          refine ih hrest ?_
          have htexlab : NamedBy options records baseline
              (if record.id = js "texlab" then
                ProviderOptions.assign executables (js "texlab") TEXLAB_VARIABLE env else env) key := by
            split
            · exact h.assign hrecord hexecutables _ _
            · exact h
          split
          · exact htexlab.assign hrecord hexecutables _ _
          · exact htexlab

/-- **The values of the variables** are those of the baseline or executables of records. -/
theorem named_applyEnvironment {state : ProviderState} {key : JSString} (h : key ∈ EXECUTABLE_VARIABLES) :
    NamedBy options state.installed baseline (options.applyEnvironment baseline state env).1 key := by
  have hmanaged : key ∈ MANAGED_VARIABLES ∧ key ≠ TEX_ROOT_VARIABLE ∧ key ≠ NATIVE_PATH_VARIABLE := by
    have hall : ∀ key ∈ EXECUTABLE_VARIABLES, key ∈ MANAGED_VARIABLES ∧ key ≠ TEX_ROOT_VARIABLE ∧
        key ≠ NATIVE_PATH_VARIABLE := by decide
    exact hall key h
  have hbase : NamedBy options state.installed baseline (restoreBaseline baseline env) key :=
    .inl (restoreBaseline_of_managed hmanaged.1)
  unfold applyEnvironment
  dsimp only
  cases hactive : activeRecord state with
  | none => exact hbase.overlayServers fun _ hrecord => hrecord
  | some active =>
      have hmem : active ∈ state.installed := List.mem_of_find?_eq_some hactive
      dsimp only
      cases hexecutables : options.absoluteExecutables active with
      | error e => exact hbase
      | ok executables =>
          refine NamedBy.overlayServers (fun _ hrecord => hrecord) ?_
          exact ((((hbase.assign hmem hexecutables _ _).assign hmem hexecutables _ _).assign hmem
            hexecutables _ _).set_of_ne hmanaged.2.1 _).set_of_ne hmanaged.2.2 _

end Named

/-! ## What is retained -/

section Retained

variable {options : ProviderOptions} {isFile : JSString → Bool} {baseline env : Environment}
  {found : Option Json} {failure : WriteOp → Option Errno} {manager : ProviderManager}
  {state : ProviderState}

/-- What is removed, and what is left. -/
theorem removeMissing_installed (isFile : InstalledProviderRecord → Bool) (state : ProviderState) :
    ((removeMissingInstallations isFile state).getD state).installed
      = state.installed.filter fun record => !record.executables.isEmpty && isFile record := by
  unfold removeMissingInstallations
  dsimp only
  split
  next hlength => exact (List.filter_eq_self.mpr (List.length_filter_eq_length_iff.mp hlength)).symm
  next => rfl

/-- What `open` makes of the state it reads. -/
theorem openManager_eq (isFile : InstalledProviderRecord → Bool) (failure : WriteOp → Option Errno)
    (hread : options.readState found = .ok state) :
    ProviderManager.openManager options.host.platform options.catalog found isFile failure
      = .ok (match removeMissingInstallations isFile state with
        | none => ⟨state, PromiseChain.resolved (.found found)⟩
        | some state' => ProviderManager.persist state' failure
            ⟨state, PromiseChain.resolved (.found found)⟩) := by
  unfold ProviderManager.openManager
  unfold ProviderOptions.readState at hread
  cases found with
  | none =>
      obtain rfl := Except.ok.inj hread
      rfl
  | some value =>
      dsimp only at hread ⊢
      rw [hread]
      rfl

/-- The state of a manager that was opened. -/
theorem state_of_open {isFile : InstalledProviderRecord → Bool} (hread : options.readState found = .ok state)
    (hopen : ProviderManager.openManager options.host.platform options.catalog found isFile failure
      = .ok manager) : manager.state = (removeMissingInstallations isFile state).getD state := by
  rw [openManager_eq isFile failure hread] at hopen
  obtain rfl := Except.ok.inj hopen
  cases removeMissingInstallations isFile state <;> rfl

theorem absoluteExecutables_of_first {record : InstalledProviderRecord}
    (h : options.firstIsFile isFile record = true) :
    ∃ executables, options.absoluteExecutables record = .ok executables := by
  unfold firstIsFile at h
  cases hexecutables : options.absoluteExecutables record with
  | ok executables => exact ⟨executables, rfl⟩
  | error e =>
      rw [hexecutables] at h
      cases h

/-- What `resolveInside` returns is its root or below it. -/
theorem inside_of_absolute {record : InstalledProviderRecord} {executables : List (JSString × JSString)}
    (h : options.absoluteExecutables record = .ok executables) :
    ∀ entry ∈ executables, entry.2 = options.installRoot record.id record.version ∨
      JSString.startsWith entry.2
        (options.installRoot record.id record.version ++ [sep options.host.platform]) = true := by
  unfold absoluteExecutables at h
  generalize record.executables = entries at h
  induction entries generalizing executables with
  | nil =>
      obtain rfl : [] = executables := Except.ok.inj h
      exact List.forall_mem_nil _
  | cons first rest ih =>
      rw [List.mapM_cons] at h
      cases hpath : options.resolveInside (options.installRoot record.id record.version) first.2 with
      | error e =>
          rw [hpath] at h
          exact absurd h nofun
      | ok path =>
          rw [hpath] at h
          cases hrest : rest.mapM fun entry => do
              return (entry.1, ← options.resolveInside (options.installRoot record.id record.version)
                entry.2) with
          | error e =>
              rw [hrest] at h
              exact absurd h nofun
          | ok others =>
              rw [hrest] at h
              obtain rfl : (first.1, path) :: others = executables := Except.ok.inj h
              refine List.forall_mem_cons.mpr ⟨?_, ih hrest⟩
              unfold resolveInside at hpath
              dsimp only at hpath
              obtain ⟨hinside, hok⟩ := (ite_eq_iff.mp hpath).resolve_left fun h => nomatch h.2
              obtain rfl := Except.ok.inj hok
              rw [not_and_or, not_not, Bool.not_eq_false] at hinside
              exact hinside

/-- The records that are retained. -/
theorem mem_installed_of_open (hread : options.readState found = .ok state)
    (hopen : ProviderManager.openManager options.host.platform options.catalog found
      (options.firstIsFile isFile) failure = .ok manager) {record : InstalledProviderRecord} :
    record ∈ manager.state.installed ↔
      record ∈ state.installed ∧ options.firstIsFile isFile record = true := by
  rw [state_of_open hread hopen, removeMissing_installed, List.mem_filter, Bool.and_eq_true]
  refine and_congr_right fun _ => and_iff_right_of_imp fun hfirst => ?_
  rw [Bool.not_eq_true']
  cases hempty : record.executables with
  | cons entry rest => rfl
  | nil =>
      unfold firstIsFile absoluteExecutables at hfirst
      rw [hempty] at hfirst
      cases hfirst

/-- **The promise** takes that the retained records are complete. -/
theorem opened_intact_iff (hread : options.readState found = .ok state)
    (hopen : ProviderManager.openManager options.host.platform options.catalog found
      (options.firstIsFile isFile) failure = .ok manager) (hsound : manager.state.Sound options) :
    Intact options isFile baseline env manager.state ↔
      ∀ record ∈ state.installed, options.firstIsFile isFile record = true →
        options.AllFiles isFile record := by
  constructor
  · intro hintact record hrecord hfirst
    exact hintact.complete record ((mem_installed_of_open hread hopen).mpr ⟨hrecord, hfirst⟩)
  · intro hall
    have hcomplete : ∀ record ∈ manager.state.installed, options.AllFiles isFile record := by
      intro record hrecord
      obtain ⟨hmem, hfirst⟩ := (mem_installed_of_open hread hopen).mp hrecord
      exact hall record hmem hfirst
    refine ⟨hcomplete, fun id hid => (hsound.active id hid).2, fun key hkey => ?_⟩
    have hnamed : NamedBy options manager.state.installed baseline
        (options.applyEnvironment baseline manager.state env).1 key := named_applyEnvironment hkey
    rcases hnamed with hbase | ⟨record, hrecord, executables, hexecutables, entry, hentry, hvalue⟩
    · exact .inl hbase
    · obtain ⟨others, hothers, hfiles⟩ := hcomplete record hrecord
      obtain rfl := Except.ok.inj (hothers.symm.trans hexecutables)
      exact .inr ⟨entry.2, hvalue, (hfiles entry hentry).1⟩

end Retained

/-- **Reopening drops every partial installation** exactly when no record that still has its first
executable has lost another one. -/
theorem reopened_intact_iff {options : ProviderOptions} (hcatalog : WellNamed options.catalog)
    (hnames : NamesOnce options.catalog) {found : Option Json} (hpersisted : Persisted options found)
    {isFile : JSString → Bool} {failure : WriteOp → Option Errno} {manager : ProviderManager}
    {state : ProviderState} (hread : options.readState found = .ok state)
    (hopen : ProviderManager.openManager options.host.platform options.catalog found
      (options.firstIsFile isFile) failure = .ok manager) (baseline env : Environment) :
    Intact options isFile baseline env manager.state ↔
      ∀ record ∈ state.installed, options.firstIsFile isFile record = true →
        options.AllFiles isFile record :=
  opened_intact_iff hread hopen (((hpersisted.sound hcatalog hnames).opened hcatalog hopen).state)

/-! ## A partial installation -/

/-- The file a run that installed TinyTeX leaves. -/
def tinytexFile : Option Json := ProviderRun.tinytexRun.manager.queue.world.file

theorem tinytexFile_persisted : Persisted ProviderRun.linuxOptions tinytexFile := by
  have hopen : ProviderManager.openManager ProviderRun.linuxOptions.host.platform
      ProviderRun.linuxOptions.catalog none (fun _ => true) (fun _ => none) = .ok ProviderRun.newManager := rfl
  have hreach : (ProviderRun.system ProviderRun.linuxOptions ProviderRun.hostEnvironment
      ProviderRun.newManager).Reachable ProviderRun.PersistSucceeds ProviderRun.tinytexRun :=
    System.reachable_after ProviderRun.persistSucceeds_of_flawless _
  exact .run .none hopen (hreach.mono fun _ _ _ => trivial)

/-- The state in that file. -/
theorem tinytexFile_read : ProviderRun.linuxOptions.readState tinytexFile
    = .ok ProviderRun.tinytexRun.manager.state := by decide +kernel

/-- A reopened manager whose files are all there. -/
theorem reopened_intact_complete : ∃ manager, ProviderManager.openManager
      ProviderRun.linuxOptions.host.platform ProviderRun.linuxOptions.catalog tinytexFile
      (ProviderRun.linuxOptions.firstIsFile fun _ => true) (fun _ => none) = .ok manager ∧
    Intact ProviderRun.linuxOptions (fun _ => true) ProviderRun.hostEnvironment
      ProviderRun.hostEnvironment manager.state := by
  have hopen := openManager_eq (ProviderRun.linuxOptions.firstIsFile fun _ => true) (fun _ => none)
    tinytexFile_read
  refine ⟨_, hopen, (reopened_intact_iff curated_wellNamed curated_namesOnce tinytexFile_persisted
    tinytexFile_read hopen _ _).mpr fun record _ hfirst => ?_⟩
  obtain ⟨executables, hexecutables⟩ := absoluteExecutables_of_first hfirst
  exact ⟨executables, hexecutables, fun entry hentry => ⟨rfl, inside_of_absolute hexecutables entry hentry⟩⟩

/-- Only the first executable of the installation is left. -/
def onlyPdflatex (path : JSString) : Bool := path == js "/data/providers/tinytex/2026.08/bin/pdflatex"

/-- A partial installation is retained. -/
theorem reopened_keeps_partial : ¬ ∀ found : Option Json, Persisted ProviderRun.linuxOptions found →
    ∀ (isFile : JSString → Bool) (failure : WriteOp → Option Errno) (manager : ProviderManager),
      ProviderManager.openManager ProviderRun.linuxOptions.host.platform ProviderRun.linuxOptions.catalog
        found (ProviderRun.linuxOptions.firstIsFile isFile) failure = .ok manager →
      ∀ baseline env : Environment,
        Intact ProviderRun.linuxOptions isFile baseline env manager.state := by
  intro h
  have hintact := h tinytexFile tinytexFile_persisted onlyPdflatex (fun _ => none) _
    (openManager_eq _ _ tinytexFile_read) ProviderRun.hostEnvironment ProviderRun.hostEnvironment
  have hlost : ∃ record ∈ ProviderRun.tinytexRun.manager.state.installed,
      ProviderRun.linuxOptions.firstIsFile onlyPdflatex record = true ∧
      (match ProviderRun.linuxOptions.absoluteExecutables record with
        | .ok executables => executables.any fun entry => !onlyPdflatex entry.2
        | .error _ => false) = true := by
    decide +kernel
  obtain ⟨record, hrecord, hfirst, hmissing⟩ := hlost
  obtain ⟨executables, hexecutables, hfiles⟩ := hintact.complete record
    ((mem_installed_of_open tinytexFile_read (openManager_eq _ (fun _ => none) tinytexFile_read)).mpr
      ⟨hrecord, hfirst⟩)
  rw [hexecutables] at hmissing
  obtain ⟨entry, hentry, hgone⟩ := List.any_eq_true.mp hmissing
  rw [(hfiles entry hentry).1] at hgone
  cases hgone

end Typr
