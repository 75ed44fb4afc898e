import TyprCompanion.Management.ProviderRuns

/-!
# The active TeX distribution

Which distribution a manager of the curated catalog reports as active, and that the variables are its own.

* `absoluteExecutables_ok` — the executables of a sound record lie inside its install root.
* `activeDistributions`, `PointsTo` — what is reported, and what the variables point to.
* `reports_active` — the one distribution that is reported.
* **`ProviderRun.environment_settles`** — when every caller has gone on, the environment is the one the
  state gives, whatever happened before.
-/

namespace Typr

open Core ProviderOptions

/-! ## Install roots -/

/-- The names of the catalog are plain segments of a path. -/
theorem curated_plain {definition : ManagedProviderDefinition}
    (h : definition ∈ CURATED_PROVIDER_CATALOG) :
    PlainSegment definition.id ∧ PlainSegment definition.version := by
  have hall : ∀ definition ∈ CURATED_PROVIDER_CATALOG, ∀ name ∈ [definition.id, definition.version],
      name ≠ [] ∧ name ≠ js "." ∧ name ≠ js ".." ∧ unit '/' ∉ name := by decide
  obtain ⟨hid, hidDot, hidDots, hidSlash⟩ := hall definition h definition.id (by simp)
  obtain ⟨hversion, hversionDot, hversionDots, hversionSlash⟩ :=
    hall definition h definition.version (by simp)
  exact ⟨⟨hid, hidDot, hidDots, hidSlash⟩, hversion, hversionDot, hversionDots, hversionSlash⟩

section Curated

variable {platform arch dataRoot : JSString} {state : ProviderState}

/-- Where a provider of the catalog is installed. -/
theorem installRoot_resolved (hroot : resolvePosix dataRoot [] = dataRoot)
    {definition : ManagedProviderDefinition} (h : definition ∈ CURATED_PROVIDER_CATALOG) :
    ResolvedRoot ((curatedOptions platform arch dataRoot).installRoot definition.id definition.version) := by
  obtain ⟨hid, hversion⟩ := curated_plain h
  have hproviders : PlainSegment (js "providers") := ⟨by decide, by decide, by decide, by decide⟩
  refine joinPosix_resolved hroot (List.cons_ne_nil _ _) ?_
  exact List.forall_mem_cons.mpr
    ⟨hproviders, List.forall_mem_cons.mpr ⟨hid, List.forall_mem_singleton.mpr hversion⟩⟩

theorem ResolvedRoot.ne_nil {root : JSString} (h : ResolvedRoot root) : root ≠ [] := by
  rw [← h.resolved]
  exact List.cons_ne_nil _ _

/-- A relative path without `..` is inside its root. -/
theorem resolveInside_ok {root path : JSString} (hroot : ResolvedRoot root)
    (hrelative : isAbsolute .posix path = false)
    (hdots : (JSString.split (sep .posix) path).contains (js "..") = false) :
    ∃ resolved, (curatedOptions platform arch dataRoot).resolveInside root path = .ok resolved ∧
      resolved ≠ [] := by
  refine ⟨resolvePosix root path, if_neg ?_, List.cons_ne_nil _ _⟩
  rintro ⟨hne, houtside⟩
  rcases resolvePosix_below hroot hrelative hdots with heq | hbelow
  · exact hne heq
  · rw [show (sep (curatedOptions platform arch dataRoot).host.platform) = unit '/' from rfl] at houtside
    exact absurd hbelow (Bool.eq_false_iff.mp houtside)

theorem mapM_executables {options : ProviderOptions} {root : JSString}
    {entries : List (JSString × JSString)}
    (h : ∀ entry ∈ entries, ∃ path, options.resolveInside root entry.2 = .ok path ∧ path ≠ []) :
    ∃ executables : List (JSString × JSString),
      (entries.mapM fun entry => do return (entry.1, ← options.resolveInside root entry.2))
        = Except.ok executables ∧
      executables.map Prod.fst = entries.map Prod.fst ∧ ∀ entry ∈ executables, entry.2 ≠ [] := by
  induction entries with
  | nil => exact ⟨[], rfl, rfl, List.forall_mem_nil _⟩
  | cons entry rest ih =>
      obtain ⟨⟨path, hpath, hne⟩, hrest⟩ := List.forall_mem_cons.mp h
      obtain ⟨others, hothers, hfst, hall⟩ := ih hrest
      refine ⟨(entry.1, path) :: others, ?_, ?_, List.forall_mem_cons.mpr ⟨hne, hall⟩⟩
      · rw [List.mapM_cons, hothers, hpath]
        rfl
      · rw [List.map_cons, hfst, List.map_cons]

/-- **The executables of a sound record** lie inside its install root. -/
theorem absoluteExecutables_ok (hroot : resolvePosix dataRoot [] = dataRoot)
    (hsound : state.Sound (curatedOptions platform arch dataRoot)) {record : InstalledProviderRecord}
    (h : record ∈ state.installed) :
    ∃ executables, (curatedOptions platform arch dataRoot).absoluteExecutables record = .ok executables ∧
      executables.map Prod.fst = record.executables.map Prod.fst ∧
      ∀ entry ∈ executables, entry.2 ≠ [] := by
  obtain ⟨definition, hmem, hid, hversion, -, hentries⟩ := hsound.valid.installed record h
  refine mapM_executables fun entry hentry => ?_
  rw [← hid, ← hversion]
  exact resolveInside_ok (installRoot_resolved hroot hmem) (hentries entry hentry).2
    (hsound.below record h entry hentry)

end Curated

/-! ## What is reported -/

/-- The TeX distributions reported as active. -/
def activeDistributions (providers : List Snapshot) : List JSString :=
  (providers.filter fun provider => provider.kind = .texDistribution && provider.active).map Snapshot.id

/-- The TeX distributions of a catalog that the state marks as active. -/
def markedActive (catalog : List ManagedProviderDefinition) (active : Option JSString) : List JSString :=
  (catalog.filter fun definition => definition.kind = .texDistribution &&
    if definition.id == js "system-tex" then active.isNone else active == some definition.id).map
      ManagedProviderDefinition.id

section Reports

variable {options : ProviderOptions} {state : ProviderState}

/-- An entry of a snapshot. -/
theorem describe_ok
    (h : ∀ record ∈ state.installed, ∃ executables, options.absoluteExecutables record = .ok executables)
    (definition : ManagedProviderDefinition) :
    ∃ provider, options.describe state definition = .ok provider ∧ provider.id = definition.id ∧
      provider.kind = definition.kind ∧ (definition.kind = .texDistribution → provider.active =
        if definition.id == js "system-tex" then state.activeTexProvider.isNone
        else state.activeTexProvider == some definition.id) := by
  unfold describe
  cases hfind : state.installed.find? fun candidate =>
      candidate.id == definition.id && candidate.version == definition.version with
  | none => exact ⟨_, rfl, rfl, rfl, fun hkind => if_pos hkind⟩
  | some record =>
      obtain ⟨executables, hexecutables⟩ := h record (List.mem_of_find?_eq_some hfind)
      dsimp only
      rw [hexecutables]
      exact ⟨_, rfl, rfl, rfl, fun hkind => if_pos hkind⟩

/-- **What a snapshot reports as active** is what the state marks. -/
theorem snapshot_active
    (h : ∀ record ∈ state.installed, ∃ executables, options.absoluteExecutables record = .ok executables) :
    ∃ providers, options.snapshot state = .ok providers ∧
      activeDistributions providers = markedActive options.catalog state.activeTexProvider := by
  unfold snapshot
  induction options.catalog with
  | nil => exact ⟨[], rfl, rfl⟩
  | cons definition rest ih =>
      obtain ⟨provider, hprovider, hid, hkind, hactive⟩ := describe_ok h definition
      obtain ⟨others, hothers, hmarked⟩ := ih
      refine ⟨provider :: others, by rw [List.mapM_cons, hprovider, hothers]; rfl, ?_⟩
      unfold activeDistributions markedActive at hmarked ⊢
      rw [List.filter_cons, List.filter_cons, hkind]
      by_cases htex : definition.kind = .texDistribution
      · rw [hactive htex]
        by_cases hmark : (decide (definition.kind = .texDistribution) &&
            if definition.id == js "system-tex" then state.activeTexProvider.isNone
            else state.activeTexProvider == some definition.id) = true
        · rw [if_pos hmark, if_pos hmark, List.map_cons, List.map_cons, hid, hmarked]
        · rw [if_neg hmark, if_neg hmark]
          exact hmarked
      · rw [if_neg (by simp [htex]), if_neg (by simp [htex])]
        exact hmarked

end Reports

/-- What the variables of the TeX distribution point to: for the system distribution to what they were
before, and else to the executables of a record, below its install root. -/
def PointsTo (options : ProviderOptions) (baseline : Environment) (state : ProviderState)
    (env : Environment) (id : JSString) : Prop :=
  (id = js "system-tex" ∧ ∀ key ∈ TEX_VARIABLES, env key = baseline key) ∨
    ∃ record ∈ state.installed, record.id = id ∧ ∃ executables,
      options.absoluteExecutables record = .ok executables ∧
      env TEX_ROOT_VARIABLE = some (options.installRoot record.id record.version) ∧
      env NATIVE_PATH_VARIABLE = some (options.nativePath executables baseline) ∧
      ∀ pair ∈ [(PDFLATEX_VARIABLE, js "pdflatex"), (LATEXMK_VARIABLE, js "latexmk"),
          (TLMGR_VARIABLE, js "tlmgr")],
        ∃ path, (pair.2, path) ∈ executables ∧ env pair.1 = some path

section Overlay

variable {options : ProviderOptions} {record : InstalledProviderRecord}
  {executables : List (JSString × JSString)} {env : Environment}

/-- An executable that is there. -/
theorem executable_of_mem {name : JSString} (hmem : name ∈ executables.map Prod.fst)
    (hne : ∀ entry ∈ executables, entry.2 ≠ []) :
    ∃ path, (name, path) ∈ executables ∧ executable? executables name = some path := by
  obtain ⟨entry, hentry, rfl⟩ := List.mem_map.mp hmem
  cases hfind : executables.find? fun other => other.1 == entry.1 with
  | none =>
      have hnone := List.find?_eq_none.mp hfind entry hentry
      exact absurd (beq_self_eq_true entry.1) hnone
  | some found =>
      have hfound := List.mem_of_find?_eq_some hfind
      have hname : found.1 = entry.1 := by simpa using List.find?_some hfind
      refine ⟨found.2, hname ▸ hfound, ?_⟩
      unfold executable?
      rw [hfind]
      exact Option.filter_some_pos (by simpa using hne found hfound)

/-- The variables an active distribution writes. -/
theorem overlayTex_points (hnames : executables.map Prod.fst = [js "pdflatex", js "latexmk", js "tlmgr"])
    (hne : ∀ entry ∈ executables, entry.2 ≠ []) :
    options.overlayTex record executables env TEX_ROOT_VARIABLE
        = some (options.installRoot record.id record.version) ∧
      (∀ pair ∈ [(PDFLATEX_VARIABLE, js "pdflatex"), (LATEXMK_VARIABLE, js "latexmk"),
          (TLMGR_VARIABLE, js "tlmgr")],
        ∃ path, (pair.2, path) ∈ executables ∧
          options.overlayTex record executables env pair.1 = some path) ∧
      options.overlayTex record executables env NATIVE_PATH_VARIABLE
        = some (options.nativePath executables env) := by
  have hdistinct : TEX_VARIABLES.Nodup := by decide
  have hall : ∀ name ∈ [js "pdflatex", js "latexmk", js "tlmgr"], ∃ path, (name, path) ∈ executables ∧
      executable? executables name = some path :=
    fun name hname => executable_of_mem (hnames ▸ hname) hne
  obtain ⟨pdflatex, hpdflatexMem, hpdflatex⟩ := hall (js "pdflatex") (by simp)
  obtain ⟨latexmk, hlatexmkMem, hlatexmk⟩ := hall (js "latexmk") (by simp)
  obtain ⟨tlmgr, htlmgrMem, htlmgr⟩ := hall (js "tlmgr") (by simp)
  simp only [TEX_VARIABLES, List.nodup_cons, List.mem_cons, List.not_mem_nil, not_or, or_false] at hdistinct
  obtain ⟨⟨h01, h02, h03, h04⟩, ⟨h12, h13, h14⟩, ⟨h23, h24⟩, h34, -⟩ := hdistinct
  unfold overlayTex assign
  rw [hpdflatex, hlatexmk, htlmgr]
  dsimp only
  refine ⟨?_, ?_, ?_⟩
  · rw [Environment.set_of_ne _ h34, Environment.set_self]
  · refine List.forall_mem_cons.mpr ⟨⟨pdflatex, hpdflatexMem, ?_⟩,
      List.forall_mem_cons.mpr ⟨⟨latexmk, hlatexmkMem, ?_⟩,
        List.forall_mem_singleton.mpr ⟨tlmgr, htlmgrMem, ?_⟩⟩⟩
    · rw [Environment.set_of_ne _ h04, Environment.set_of_ne _ h03, Environment.set_of_ne _ h02,
        Environment.set_of_ne _ h01, Environment.set_self]
    · rw [Environment.set_of_ne _ h14, Environment.set_of_ne _ h13, Environment.set_of_ne _ h12,
        Environment.set_self]
    · rw [Environment.set_of_ne _ h24, Environment.set_of_ne _ h23, Environment.set_self]
  · rw [Environment.set_self]
    have hpath : js "PATH" ∉ TEX_VARIABLES := by decide
    simp only [TEX_VARIABLES, List.mem_cons, List.not_mem_nil, not_or, or_false] at hpath
    obtain ⟨hp0, hp1, hp2, hp3, -⟩ := hpath
    unfold nativePath
    rw [Environment.set_of_ne _ (Ne.symm h34), Environment.set_of_ne _ (Ne.symm h24),
      Environment.set_of_ne _ (Ne.symm h14), Environment.set_of_ne _ (Ne.symm h04),
      Environment.set_of_ne _ hp3, Environment.set_of_ne _ hp2, Environment.set_of_ne _ hp1,
      Environment.set_of_ne _ hp0]

end Overlay

/-! ## Settled runs -/

/-- Activating the system distribution leaves none active. -/
theorem activateTexProvider_system {catalog : List ManagedProviderDefinition} {state state' : ProviderState}
    (h : activateTexProvider catalog (js "system-tex") state = .ok state') :
    state'.activeTexProvider = none := by
  unfold activateTexProvider at h
  cases hdefinition : requireDefinition catalog (js "system-tex") with
  | error e =>
      rw [hdefinition] at h
      exact absurd h nofun
  | ok definition =>
      rw [hdefinition] at h
      change (if definition.kind ≠ .texDistribution then _ else _) = _ at h
      split at h
      next => exact absurd h nofun
      next =>
        rw [if_pos rfl] at h
        obtain rfl := Except.ok.inj h
        rfl

namespace ProviderRun

/-- The environment is the one `applyEnvironment` sets over any values of the managed variables, and the
other variables are as they were. -/
def Applied (options : ProviderOptions) (baseline : Environment) (s : ProviderRun) : Prop :=
  (∀ env : Environment, env (js "PATH") = baseline (js "PATH") →
    Agree MANAGED_VARIABLES s.environment
      (options.applyEnvironment baseline s.manager.state env).1) ∧
  ∀ key ∉ MANAGED_VARIABLES, s.environment key = baseline key

/-- One distribution is reported as active, and the variables point to it. -/
def ReportsOne (options : ProviderOptions) (baseline : Environment) (s : ProviderRun) : Prop :=
  ∃ id, (∃ providers, options.snapshot s.manager.state = .ok providers ∧
    activeDistributions providers = [id]) ∧ PointsTo options baseline s.manager.state s.environment id

section Settled

variable {options : ProviderOptions} {baseline : Environment} {s : ProviderRun}

theorem Kept.appliedWhenFinished (h : Kept options baseline s) (hfinished : s.Finished) :
    Applied options baseline s := by
  refine ⟨fun env hpath key hkey => ?_, h.others⟩
  rw [h.finished hfinished key hkey]
  exact applyEnvironment_fresh hpath.symm key hkey

/-- The variables of a state without an active distribution. -/
theorem Kept.restored (h : Kept options baseline s) (hfinished : s.Finished)
    (hactive : s.manager.state.activeTexProvider = none) :
    ∀ key ∈ TEX_VARIABLES, s.environment key = baseline key := by
  have hrecord : activeRecord s.manager.state = none := by
    refine List.find?_eq_none.mpr fun record _ => ?_
    rw [hactive]
    exact Bool.false_ne_true
  intro key hkey
  rw [h.finished hfinished key (List.mem_append_left _ hkey)]
  exact applyEnvironment_restores hrecord hkey

/-- **One distribution is reported**, and the variables are its own. -/
theorem Kept.reportsOne {platform arch dataRoot : JSString}
    (h : Kept (curatedOptions platform arch dataRoot) baseline s) (hfinished : s.Finished)
    (hroot : resolvePosix dataRoot [] = dataRoot)
    (hsound : s.manager.state.Sound (curatedOptions platform arch dataRoot)) :
    ReportsOne (curatedOptions platform arch dataRoot) baseline s := by
  have hexecutables : ∀ record ∈ s.manager.state.installed, ∃ executables,
      (curatedOptions platform arch dataRoot).absoluteExecutables record = .ok executables ∧
        executables.map Prod.fst = record.executables.map Prod.fst ∧
        ∀ entry ∈ executables, entry.2 ≠ [] :=
    fun record hrecord => absoluteExecutables_ok hroot hsound hrecord
  obtain ⟨providers, hproviders, hreported⟩ := snapshot_active fun record hrecord =>
    (hexecutables record hrecord).imp fun _ hok => hok.1
  cases hactive : s.manager.state.activeTexProvider with
  | none =>
      refine ⟨js "system-tex", ⟨providers, hproviders, ?_⟩, .inl ⟨rfl, h.restored hfinished hactive⟩⟩
      rw [hreported, hactive]
      show markedActive CURATED_PROVIDER_CATALOG none = [js "system-tex"]
      decide
  | some id =>
      obtain ⟨⟨definition, hmem, hid, hkind⟩, record, hrecord, hrecordId⟩ := hsound.active id hactive
      have hasset : (curatedOptions platform arch dataRoot).hasAsset id = true :=
        hrecordId ▸ hsound.hosted record hrecord
      -- the system distribution has no archive, so it is never installed
      have hsystem : (curatedOptions platform arch dataRoot).hasAsset (js "system-tex") = false := rfl
      have hdefinitions : ∀ definition ∈ CURATED_PROVIDER_CATALOG, definition.kind = .texDistribution →
          definition.id = js "system-tex" ∨ (definition.id = js "tinytex" ∧
            definition.executableNames = [js "pdflatex", js "latexmk", js "tlmgr"]) := by decide
      obtain ⟨htinytex, hnames⟩ : definition.id = js "tinytex" ∧
          definition.executableNames = [js "pdflatex", js "latexmk", js "tlmgr"] := by
        refine (hdefinitions definition hmem hkind).resolve_left fun heq => ?_
        rw [← hid, heq, hsystem] at hasset
        cases hasset
      refine ⟨id, ⟨providers, hproviders, ?_⟩, .inr ?_⟩
      · rw [hreported, hactive, ← hid, htinytex]
        show markedActive CURATED_PROVIDER_CATALOG (some (js "tinytex")) = [js "tinytex"]
        decide
      · obtain ⟨active, hfound⟩ : ∃ active, activeRecord s.manager.state = some active :=
          Option.isSome_iff_exists.mp (List.find?_isSome.mpr
            ⟨record, hrecord, by rw [hactive, hrecordId]; exact beq_self_eq_true _⟩)
        have hactiveMem := List.mem_of_find?_eq_some hfound
        have hactiveId : active.id = id := by
          have heq := List.find?_some hfound
          rw [hactive] at heq
          exact Option.some.inj (eq_of_beq heq)
        obtain ⟨executables, hok, hfst, hne⟩ := hexecutables active hactiveMem
        have hcomplete := hsound.complete active hactiveMem definition hmem (hid.trans hactiveId.symm)
        obtain ⟨hTexRoot, hpairs, hnative⟩ := @overlayTex_points (curatedOptions platform arch dataRoot)
          active executables (restoreBaseline baseline baseline)
          (hfst.trans (hcomplete.trans hnames)) hne
        have hkeys : ∀ key ∈ TEX_VARIABLES, s.environment key
            = (curatedOptions platform arch dataRoot).overlayTex active executables
              (restoreBaseline baseline baseline) key := by
          intro key hkey
          rw [h.finished hfinished key (List.mem_append_left _ hkey)]
          exact applyEnvironment_active hfound hok hkey
        refine ⟨active, hactiveMem, hactiveId, executables, hok, ?_, ?_, fun pair hpair => ?_⟩
        · rw [hkeys _ (by simp [TEX_VARIABLES]), hTexRoot]
        · rw [hkeys _ (by simp [TEX_VARIABLES]), hnative]
          unfold nativePath
          rw [restoreBaseline_of_managed (by decide), restoreBaseline_of_other path_unmanaged]
        · obtain ⟨path, hpath, hvalue⟩ := hpairs pair hpair
          have hkey : pair.1 ∈ TEX_VARIABLES := by
            have hall : ∀ pair ∈ [(PDFLATEX_VARIABLE, js "pdflatex"), (LATEXMK_VARIABLE, js "latexmk"),
                (TLMGR_VARIABLE, js "tlmgr")], pair.1 ∈ TEX_VARIABLES := by decide
            exact hall pair hpair
          exact ⟨path, hpath, (hkeys _ hkey).trans hvalue⟩

end Settled

/-- **The environment does not depend on its history**, where all writes succeed: when every caller has
gone on, the managed variables are those of the baseline and the state.  After the system distribution was
activated the variables of TeX are those of the baseline, and with the curated catalog one distribution
is reported as active, the one the variables point to. -/
theorem environment_settles {options : ProviderOptions} {baseline : Environment} {found : Option Json}
    {isFile : InstalledProviderRecord → Bool} {failure : WriteOp → Option Errno}
    {manager : ProviderManager}
    (hopen : ProviderManager.openManager options.host.platform options.catalog found isFile failure
      = .ok manager) (hfailure : ∀ op, failure op = none) {s : ProviderRun}
    (h : (system options baseline manager).Reachable PersistSucceeds s) :
    (s.Finished → Applied options baseline s) ∧
    (∀ (state : ProviderState) (failure : WriteOp → Option Errno) (t u : ProviderRun),
      activateTexProvider options.catalog (js "system-tex") s.manager.state = .ok state →
      (∀ op, failure op = none) →
      step options baseline s (.change (.activate (js "system-tex") failure)) = some t →
      Settles options baseline t u → u.Finished →
      ∀ key ∈ TEX_VARIABLES, u.environment key = baseline key) ∧
    (∀ platform arch dataRoot : JSString, options = curatedOptions platform arch dataRoot →
      resolvePosix dataRoot [] = dataRoot → Persisted options found → s.Finished →
      ReportsOne options baseline s) := by
  have hkept := kept_reachable hopen hfailure h
  refine ⟨hkept.appliedWhenFinished, ?_, ?_⟩
  · intro state failure t u hactivate hnone hstep hsettles hfinished
    have hpermitted : PersistSucceeds s (.change (.activate (js "system-tex") failure)) := hnone
    have hu := hsettles.kept (hkept.step hpermitted hstep)
    refine hu.restored hfinished ?_
    rw [hsettles.state]
    obtain ⟨m, hm, rfl⟩ := Option.map_eq_some_iff.mp hstep
    unfold ProviderManager.step at hm
    dsimp only at hm
    rw [hactivate] at hm
    obtain rfl := Option.some.inj hm
    show state.activeTexProvider = none
    exact activateTexProvider_system hactivate
  · rintro platform arch dataRoot rfl hroot hpersisted hfinished
    have hsound := (writesSound_reachable curated_wellNamed curated_namesOnce
      (hpersisted.sound curated_wellNamed curated_namesOnce) hopen h).state
    exact hkept.reportsOne hfinished hroot hsound

/-! ## A run -/

/-- A manager of the curated catalog on Linux. -/
def linuxOptions : ProviderOptions := curatedOptions (js "linux") (js "x64") (js "/data")

/-- A host with a compiler of its own. -/
def hostEnvironment : Environment := fun key =>
  if key = PDFLATEX_VARIABLE then some (js "/usr/bin/pdflatex")
  else if key = js "PATH" then some (js "/usr/bin") else none

/-- Events whose writes succeed. -/
def flawless : ProviderRunEvent → Bool
  | .change (.activate _ failure) | .change (.extracted _ _ _ failure) =>
      [WriteOp.mkdir, .writeFile, .rename].all fun op => (failure op).isNone
  | _ => true

theorem persistSucceeds_of_flawless (s : ProviderRun) (e : ProviderRunEvent) (h : flawless e = true) :
    PersistSucceeds s e := by
  have hall : ∀ failure : WriteOp → Option Errno,
      ([WriteOp.mkdir, .writeFile, .rename].all fun op => (failure op).isNone) = true →
      ∀ op, failure op = none := by
    intro failure hall op
    refine Option.isNone_iff_eq_none.mp (List.all_eq_true.mp hall op ?_)
    cases op <;> simp
  cases e with
  | change change =>
      cases change with
      | activate providerId failure => exact hall failure h
      | extracted providerId located now failure => exact hall failure h
      | advance => trivial
  | resume write => trivial

/-- A new manager. -/
def newManager : ProviderManager := ⟨⟨none, []⟩, .resolved (.found none)⟩

/-- TinyTeX is installed, and the job goes on after its write. -/
def tinytexRun : ProviderRun :=
  (system linuxOptions hostEnvironment newManager).after (fun _ => flawless)
    (.change (.extracted (js "tinytex") (fun name => some (js "bin/" ++ name)) 0 fun _ => none) ::
      List.replicate 4 (.change .advance) ++ [.resume 0])

theorem environment_settles_tinytex : tinytexRun.Finished ∧
    Applied linuxOptions hostEnvironment tinytexRun ∧
    ReportsOne linuxOptions hostEnvironment tinytexRun := by
  have hfinished : tinytexRun.Finished := by decide +kernel
  have hreach : (system linuxOptions hostEnvironment newManager).Reachable PersistSucceeds tinytexRun :=
    System.reachable_after persistSucceeds_of_flawless _
  have hopen : ProviderManager.openManager linuxOptions.host.platform linuxOptions.catalog none
      (fun _ => true) (fun _ => none) = .ok newManager := rfl
  have hsettles := environment_settles hopen (fun _ => rfl) hreach
  exact ⟨hfinished, hsettles.1 hfinished, hsettles.2.2 _ _ _ rfl rfl .none hfinished⟩

end ProviderRun

end Typr
