import TyprCompanion.Management.ProviderEnvironment

/-!
# Runs of the provider manager and its environment

Installs, activations and their writes overlap; each caller goes on when its own write has settled, and
applies the environment then.

* `ProviderRun`, `ProviderRun.step` — the manager, the environment, and which callers have gone on.
* `ProviderState.Sound`, `Persisted` — what the manager makes of its state, and the files it leaves.
* `ProviderRun.Kept` — the environment is up to date, or the last caller still waits.
* **`Persisted.sound`** — every file the manager leaves holds a sound state.
* `ProviderRun.kept_reachable` — every run keeps the environment in line with its callers.
-/

namespace Typr

open Core

/-! ## The options of the curated catalog -/

/-- The platforms of `asset` and `githubAsset` in `CURATED_PROVIDER_CATALOG`. -/
def CURATED_ASSETS : List (JSString × List (JSString × JSString)) :=
  let platforms := [(js "linux", js "x64"), (js "linux", js "arm64"), (js "win32", js "x64")]
  [(js "system-tex", []), (js "tinytex", platforms), (js "texlab", platforms), (js "tinymist", platforms)]

/-- A manager on POSIX without options of its own. -/
def curatedOptions (platform arch dataRoot : JSString) : ProviderOptions where
  host := .posix
  catalog := CURATED_PROVIDER_CATALOG
  hasAsset providerId := CURATED_ASSETS.any fun entry =>
    entry.1 == providerId && entry.2.contains (platform, arch)
  dataRoot

/-! ## Runs -/

/-- A manager and the environment of its process; `resumed` are the writes whose callers have gone on. -/
structure ProviderRun where
  manager : ProviderManager
  environment : Environment
  resumed : List Nat

inductive ProviderRunEvent where
  | change (e : ProviderEvent)
  /-- the caller of a write goes on -/
  | resume (write : Nat)

namespace ProviderRun

variable (options : ProviderOptions) (baseline : Environment)

/-- `startInstall` refuses what has no archive for the platform. -/
def admits : ProviderEvent → Bool
  | .extracted providerId _ _ _ => options.hasAsset providerId
  | _ => true

/-- What `open` leaves: it applies the environment, after its own write where it has one. -/
def opened (manager : ProviderManager) : ProviderRun where
  manager
  environment :=
    if manager.queue.tasks.isEmpty = true then
      (options.applyEnvironment baseline manager.state baseline).1
    else baseline
  resumed := []

/-- A caller whose write is rejected does not apply the environment. -/
def step (s : ProviderRun) : ProviderRunEvent → Option ProviderRun
  | .change e =>
      if admits options e = true then
        (ProviderManager.step options.host.platform options.catalog s.manager e).map fun manager =>
          { s with manager }
      else none
  | .resume write =>
      if write ∈ s.resumed then none
      else match s.manager.queue.settled[write]? with
        | none => none
        | some (_, .error _) => some { s with resumed := write :: s.resumed }
        | some (_, .ok ()) => some
            { s with
              environment := (options.applyEnvironment baseline s.manager.state s.environment).1
              resumed := write :: s.resumed }

/-- The runs of a manager that was opened; `baseline` is the environment it was constructed in. -/
def system (manager : ProviderManager) : System ProviderRun ProviderRunEvent :=
  ⟨opened options baseline manager, step options baseline⟩

/-- Every caller has gone on. -/
def Finished (s : ProviderRun) : Prop := ∀ write < s.manager.queue.tasks.length, write ∈ s.resumed

instance (s : ProviderRun) : Decidable s.Finished :=
  inferInstanceAs (Decidable (∀ write < s.manager.queue.tasks.length, write ∈ s.resumed))

/-- No operation of `persist` fails. -/
def PersistSucceeds (_ : ProviderRun) : ProviderRunEvent → Prop
  | .change (.activate _ failure) => ∀ op, failure op = none
  | .change (.extracted _ _ _ failure) => ∀ op, failure op = none
  | _ => True

/-- Writes and callers go on, and nothing new is called. -/
inductive Settles : ProviderRun → ProviderRun → Prop
  | refl (s : ProviderRun) : Settles s s
  | advance {s t u : ProviderRun} : Settles s t → step options baseline t (.change .advance) = some u →
      Settles s u
  | resume {s t u : ProviderRun} {write : Nat} : Settles s t →
      step options baseline t (.resume write) = some u → Settles s u

end ProviderRun

/-- The files the manager leaves, at any time of its runs. -/
inductive Persisted (options : ProviderOptions) : Option Json → Prop
  | none : Persisted options none
  | run {found : Option Json} {isFile : InstalledProviderRecord → Bool}
      {failure : WriteOp → Option Errno} {manager : ProviderManager} {baseline : Environment}
      {s : ProviderRun} : Persisted options found →
      ProviderManager.openManager options.host.platform options.catalog found isFile failure
        = .ok manager →
      (ProviderRun.system options baseline manager).Reachable (fun _ _ => True) s →
      Persisted options s.manager.queue.world.file

/-! ## What the manager makes of its state -/

/-- The state is valid, its records have all executables of their definitions below their roots and were
installed from archives, and the active distribution is one of them. -/
structure ProviderState.Sound (options : ProviderOptions) (state : ProviderState) : Prop where
  valid : state.Valid options.host.platform options.catalog
  complete : ∀ record ∈ state.installed, ∀ definition ∈ options.catalog, definition.id = record.id →
    record.executables.map Prod.fst = definition.executableNames
  below : ∀ record ∈ state.installed, ∀ entry ∈ record.executables,
    (JSString.split (sep options.host.platform) entry.2).contains (js "..") = false
  hosted : ∀ record ∈ state.installed, options.hasAsset record.id = true
  active : ∀ id, state.activeTexProvider = some id →
    (∃ definition ∈ options.catalog, definition.id = id ∧ definition.kind = .texDistribution) ∧
      ∃ record ∈ state.installed, record.id = id

/-- A catalog names the executables of a provider once. -/
def NamesOnce (catalog : List ManagedProviderDefinition) : Prop :=
  ∀ definition ∈ catalog, definition.executableNames.Nodup

theorem curated_namesOnce : NamesOnce CURATED_PROVIDER_CATALOG := by
  unfold NamesOnce
  decide

section Sound

variable {options : ProviderOptions} {state : ProviderState}

theorem sound_empty : (⟨none, []⟩ : ProviderState).Sound options where
  valid := ⟨nofun, List.forall_mem_nil _⟩
  complete := List.forall_mem_nil _
  below := List.forall_mem_nil _
  hosted := List.forall_mem_nil _
  active _ h := absurd h nofun

theorem safeRelative_below {platform : Platform} {value path : JSString}
    (h : safeRelative platform value = .ok path) :
    (JSString.split (sep platform) path).contains (js "..") = false := by
  unfold safeRelative at h
  split at h
  next => exact absurd h nofun
  next hsafe =>
    obtain rfl := Except.ok.inj h
    exact Bool.eq_false_iff.mpr fun hdots => hsafe (.inr (.inr hdots))

/-- The executables of a new record have the names of the definition, and paths below its root. -/
theorem relativeExecutables_names {platform : Platform} {definition : ManagedProviderDefinition}
    {located : JSString → Option JSString} {names : List JSString}
    {acc executables : List (JSString × JSString)} (hnodup : (acc.map Prod.fst ++ names).Nodup)
    (hacc : ∀ entry ∈ acc, (JSString.split (sep platform) entry.2).contains (js "..") = false)
    (h : relativeExecutables platform definition located names acc = .ok executables) :
    executables.map Prod.fst = acc.map Prod.fst ++ names ∧
      ∀ entry ∈ executables, (JSString.split (sep platform) entry.2).contains (js "..") = false := by
  induction names generalizing acc with
  | nil =>
      obtain rfl : acc = executables := Except.ok.inj h
      exact ⟨(List.append_nil _).symm, hacc⟩
  | cons name rest ih =>
      unfold relativeExecutables at h
      split at h
      next => cases h
      next value _ =>
        split at h
        next => cases h
        next path hpath =>
          have hnew : name ∉ acc.map Prod.fst := fun hmem =>
            (List.nodup_append.mp hnodup).2.2 _ hmem _ List.mem_cons_self rfl
          rw [setProperty_of_new hnew] at h
          have hkeys : (acc ++ [(name, path)]).map Prod.fst ++ rest
              = acc.map Prod.fst ++ name :: rest := by simp
          rw [← hkeys]
          refine ih (hkeys ▸ hnodup) ?_ h
          exact List.forall_mem_append.mpr ⟨hacc, List.forall_mem_singleton.mpr (safeRelative_below hpath)⟩

/-- **Activations** keep a state sound. -/
theorem ProviderState.Sound.activate (hcatalog : WellNamed options.catalog) (h : state.Sound options)
    {providerId : JSString} {state' : ProviderState}
    (hactivate : activateTexProvider options.catalog providerId state = .ok state') :
    state'.Sound options := by
  have hvalid := ProviderManager.activate_valid hcatalog h.valid hactivate
  unfold activateTexProvider at hactivate
  cases hdefinition : requireDefinition options.catalog providerId with
  | error e =>
      rw [hdefinition] at hactivate
      exact absurd hactivate nofun
  | ok definition =>
      rw [hdefinition] at hactivate
      obtain ⟨hmem, hid⟩ := ProviderManager.requireDefinition_ok hdefinition
      change (if definition.kind ≠ .texDistribution then _ else _) = _ at hactivate
      split at hactivate
      next => exact absurd hactivate nofun
      next hkind =>
        split at hactivate
        next =>
          obtain rfl := Except.ok.inj hactivate
          exact ⟨hvalid, h.complete, h.below, h.hosted, fun _ hactive => absurd hactive nofun⟩
        next =>
          split at hactivate
          next hany =>
            obtain rfl := Except.ok.inj hactivate
            refine ⟨hvalid, h.complete, h.below, h.hosted, fun id hactive => ?_⟩
            obtain rfl := Option.some.inj hactive
            obtain ⟨record, hrecord, heq⟩ := List.any_eq_true.mp hany
            rw [Bool.and_eq_true, beq_iff_eq, beq_iff_eq] at heq
            exact ⟨⟨definition, hmem, hid, not_not.mp hkind⟩, record, hrecord, heq.1⟩
          next => exact absurd hactivate nofun

/-- **Installs** keep a state sound. -/
theorem ProviderState.Sound.finishInstall (hcatalog : WellNamed options.catalog)
    (hnames : NamesOnce options.catalog) (h : state.Sound options)
    {definition : ManagedProviderDefinition} (hmem : definition ∈ options.catalog)
    (hasset : options.hasAsset definition.id = true) {located : JSString → Option JSString} {now : Nat}
    {state' : ProviderState}
    (hinstall : Typr.finishInstall options.host.platform definition located now state = .ok state') :
    state'.Sound options := by
  have hvalid := ProviderManager.finishInstall_valid hcatalog h.valid hmem hinstall
  unfold Typr.finishInstall at hinstall
  split at hinstall
  next => exact absurd hinstall nofun
  next executables hexecutables =>
    obtain rfl := Except.ok.inj hinstall
    obtain ⟨hfst, hbelow⟩ := relativeExecutables_names (by simpa using hnames definition hmem)
      (List.forall_mem_nil _) hexecutables
    have hold : ∀ record ∈ state.installed.filter fun record => record.id != definition.id,
        record ∈ state.installed := fun record hrecord => (List.mem_filter.mp hrecord).1
    refine ⟨hvalid, ?_, ?_, ?_, ?_⟩
    · refine List.forall_mem_append.mpr
        ⟨fun record hrecord => h.complete record (hold record hrecord),
          List.forall_mem_singleton.mpr fun other hother hid => ?_⟩
      have hsame := definitionOf_eq hcatalog hother
      rw [hid] at hsame
      obtain rfl := Option.some.inj (hsame.symm.trans (definitionOf_eq hcatalog hmem))
      exact hfst
    · exact List.forall_mem_append.mpr
        ⟨fun record hrecord => h.below record (hold record hrecord), List.forall_mem_singleton.mpr hbelow⟩
    · exact List.forall_mem_append.mpr
        ⟨fun record hrecord => h.hosted record (hold record hrecord),
          List.forall_mem_singleton.mpr hasset⟩
    · intro id hactive
      have hself : ∃ record ∈ (state.installed.filter fun record => record.id != definition.id) ++
          [⟨definition.id, definition.version, toISOString now, executables⟩],
          record.id = definition.id := ⟨_, List.mem_append_right _ (List.mem_singleton_self _), rfl⟩
      by_cases hkind : definition.kind = .texDistribution
      · obtain rfl : definition.id = id := by
          simpa only [if_pos hkind, Option.some.injEq] using hactive
        exact ⟨⟨definition, hmem, rfl, hkind⟩, hself⟩
      · have hbefore : state.activeTexProvider = some id := by simpa only [if_neg hkind] using hactive
        obtain ⟨hdefined, record, hrecord, hid⟩ := h.active id hbefore
        refine ⟨hdefined, ?_⟩
        by_cases hsame : id = definition.id
        · rw [hsame]
          exact hself
        · exact ⟨record, List.mem_append_left _ (List.mem_filter.mpr
            ⟨hrecord, by rw [hid]; simpa using hsame⟩), hid⟩

/-- **The removal of missing installations** keeps a state sound. -/
theorem ProviderState.Sound.removeMissing (h : state.Sound options)
    {isFile : InstalledProviderRecord → Bool} {state' : ProviderState}
    (hremove : removeMissingInstallations isFile state = some state') : state'.Sound options := by
  have hvalid := ProviderManager.removeMissing_valid h.valid hremove
  unfold removeMissingInstallations at hremove
  dsimp only at hremove
  obtain ⟨-, heq⟩ := Option.ite_none_left_eq_some.mp hremove
  obtain rfl := Option.some.inj heq
  have hold : ∀ record ∈ state.installed.filter fun record =>
      !record.executables.isEmpty && isFile record, record ∈ state.installed :=
    fun record hrecord => (List.mem_filter.mp hrecord).1
  refine ⟨hvalid, fun record hrecord => h.complete record (hold record hrecord),
    fun record hrecord => h.below record (hold record hrecord),
    fun record hrecord => h.hosted record (hold record hrecord), fun id hactive => ?_⟩
  obtain ⟨hretained, hid⟩ := Option.ite_none_right_eq_some.mp hactive
  obtain ⟨record, hrecord, heq⟩ := List.any_eq_true.mp hretained
  refine ⟨(h.active id hid).1, record, hrecord, ?_⟩
  rw [hid] at heq
  exact Option.some.inj (eq_of_beq heq)

/-- A sound state is read back or not at all. -/
theorem ProviderState.Sound.read (hcatalog : WellNamed options.catalog) (h : state.Sound options)
    {state' : ProviderState}
    (hread : validateProviderState options.host.platform options.catalog state.toJson = .ok state') :
    state' = state := by
  have hportable : state.Portable := by
    rw [validateProviderState_toJson] at hread
    cases hinstalled : (state.installed.map InstalledProviderRecord.toJson).mapM
        (validateRecord options.host.platform options.catalog) with
    | error e =>
        rw [hinstalled] at hread
        exact absurd hread nofun
    | ok records =>
        intro record hrecord
        have hok := (forall_of_mapM_records hinstalled).1 _ (List.mem_map_of_mem hrecord)
        obtain ⟨definition, hmem, hid, hversion, hnodup, hentries⟩ := h.valid.installed record hrecord
        exact (validateRecord_toJson_iff hcatalog hmem hid hversion hnodup hentries).1.mp hok
  exact Except.ok.inj (hread.symm.trans ((validateProviderState_toJson_iff hcatalog h.valid).mpr hportable))

end Sound

/-! ## What the files hold -/

namespace ProviderRun

variable {options : ProviderOptions} {baseline : Environment} {found : Option Json}
  {isFile : InstalledProviderRecord → Bool} {failure : WriteOp → Option Errno}
  {manager : ProviderManager} {s : ProviderRun}

/-- What one event does to the manager. -/
theorem step_manager {t : ProviderRun} {e : ProviderRunEvent} (h : step options baseline s e = some t) :
    t.manager = s.manager ∨ ∃ change, e = .change change ∧ admits options change = true ∧
      ProviderManager.step options.host.platform options.catalog s.manager change = some t.manager ∧
      t.environment = s.environment ∧ t.resumed = s.resumed := by
  cases e with
  | change change =>
      obtain ⟨hadmits, hmap⟩ := Option.ite_none_right_eq_some.mp h
      obtain ⟨manager, hstep, rfl⟩ := Option.map_eq_some_iff.mp hmap
      exact .inr ⟨change, rfl, hadmits, hstep, rfl, rfl⟩
  | resume write =>
      unfold step at h
      dsimp only at h
      obtain ⟨-, hsettled⟩ := Option.ite_none_left_eq_some.mp h
      split at hsettled
      next => exact absurd hsettled nofun
      next =>
        obtain rfl := Option.some.inj hsettled
        exact .inl rfl
      next =>
        obtain rfl := Option.some.inj hsettled
        exact .inl rfl

/-- The state is sound, and so is every state that is written. -/
structure WritesSound (options : ProviderOptions) (found : Option Json) (m : ProviderManager) :
    Prop where
  state : m.state.Sound options
  filed : WriteQueue.Filed found m.queue
  written : ∀ w ∈ m.queue.tasks, ∃ state : ProviderState, state.Sound options ∧
    w.serialized = state.toJson

theorem WritesSound.persist {m : ProviderManager} (h : WritesSound options found m)
    {state : ProviderState} (hstate : state.Sound options) (failure : WriteOp → Option Errno) :
    WritesSound options found (m.persist state failure) where
  state := hstate
  filed := h.filed.append _
  written w hw := by
    have htasks : (m.persist state failure).queue.tasks = m.queue.tasks ++ [⟨state.toJson, failure⟩] :=
      PromiseChain.tasks_append _ _
    rw [htasks] at hw
    rcases List.mem_append.mp hw with hw | hw
    · exact h.written w hw
    · obtain rfl := List.mem_singleton.mp hw
      exact ⟨state, hstate, rfl⟩

/-- **Changes keep the state and its writes sound.** -/
theorem WritesSound.step (hcatalog : WellNamed options.catalog) (hnames : NamesOnce options.catalog)
    {m m' : ProviderManager} (h : WritesSound options found m) {e : ProviderEvent}
    (hadmits : admits options e = true)
    (hstep : ProviderManager.step options.host.platform options.catalog m e = some m') :
    WritesSound options found m' := by
  obtain rfl | ⟨providerId, failure, state, rfl, hactivate, rfl⟩ |
    ⟨providerId, located, now, failure, definition, state, rfl, hdefinition, hinstall, rfl⟩ |
    ⟨queue, rfl, hqueue, rfl⟩ := ProviderManager.step_cases hstep
  · exact h
  · exact h.persist (h.state.activate hcatalog hactivate) failure
  · obtain ⟨hmem, hid⟩ := ProviderManager.requireDefinition_ok hdefinition
    exact h.persist (h.state.finishInstall hcatalog hnames hmem (hid ▸ hadmits) hinstall) failure
  · refine ⟨h.state, h.filed.advance hqueue, fun w hw => h.written w ?_⟩
    rwa [PromiseChain.tasks_advance _ hqueue] at hw

/-- A file of a sound state, or none. -/
def HoldsSound (options : ProviderOptions) (found : Option Json) : Prop :=
  ∀ text, found = some text → ∃ state : ProviderState, state.Sound options ∧ text = state.toJson

/-- What is opened from the file of a sound state. -/
theorem HoldsSound.opened (hcatalog : WellNamed options.catalog) (h : HoldsSound options found)
    (hopen : ProviderManager.openManager options.host.platform options.catalog found isFile failure
      = .ok manager) : WritesSound options found manager := by
  obtain ⟨state, hread, hopened⟩ := ProviderManager.openManager_cases hopen
  have hstate : state.Sound options := by
    rcases hread with ⟨-, rfl⟩ | ⟨value, hvalue, hvalidate⟩
    · exact sound_empty
    · obtain ⟨saved, hsaved, rfl⟩ := h value hvalue
      obtain rfl := hsaved.read hcatalog hvalidate
      exact hsaved
  have hresolved : WritesSound options found ⟨state, PromiseChain.resolved (.found found)⟩ :=
    ⟨hstate, .resolved found, fun w hw => absurd hw (by simp [PromiseChain.tasks, PromiseChain.resolved])⟩
  rcases hopened with ⟨-, rfl⟩ | ⟨state', hremoved, rfl⟩
  · exact hresolved
  · exact hresolved.persist (hstate.removeMissing hremoved) failure

theorem writesSound_reachable (hcatalog : WellNamed options.catalog) (hnames : NamesOnce options.catalog)
    (hfound : HoldsSound options found)
    (hopen : ProviderManager.openManager options.host.platform options.catalog found isFile failure
      = .ok manager) {permitted : ProviderRun → ProviderRunEvent → Prop}
    (h : (system options baseline manager).Reachable permitted s) :
    WritesSound options found s.manager := by
  refine h.invariant (I := fun s => WritesSound options found s.manager)
    (hfound.opened hcatalog hopen) ?_
  intro s e t _ _ hs hstep
  rcases step_manager hstep with heq | ⟨change, -, hadmits, hchange, -, -⟩
  · rw [heq]
    exact hs
  · exact hs.step hcatalog hnames hadmits hchange

end ProviderRun

/-- **Every file the manager leaves** holds a sound state. -/
theorem Persisted.sound {options : ProviderOptions} (hcatalog : WellNamed options.catalog)
    (hnames : NamesOnce options.catalog) {found : Option Json} (h : Persisted options found) :
    ProviderRun.HoldsSound options found := by
  induction h with
  | none => exact fun _ h => absurd h nofun
  | @run found isFile failure manager baseline s _ hopen hreach ih =>
      intro text htext
      have hwrites := ProviderRun.writesSound_reachable hcatalog hnames ih hopen hreach
      rw [hwrites.filed.file, Option.or_eq_some_iff] at htext
      rcases htext with hlast | ⟨-, hfound⟩
      · have hmem := hwrites.filed.contents_sublist.subset (List.mem_of_getLast? hlast)
        obtain ⟨w, hw, rfl⟩ := List.mem_map.mp hmem
        exact hwrites.written w hw
      · exact ih text hfound

/-! ## The environment of a run -/

namespace ProviderRun

section Environment

variable {options : ProviderOptions} {baseline : Environment} {found : Option Json}
  {isFile : InstalledProviderRecord → Bool} {failure : WriteOp → Option Errno}
  {manager : ProviderManager} {s t : ProviderRun}

/-- The managed variables are those a fresh `applyEnvironment` sets. -/
def Fresh (options : ProviderOptions) (baseline : Environment) (s : ProviderRun) : Prop :=
  Agree MANAGED_VARIABLES s.environment (options.applyEnvironment baseline s.manager.state baseline).1

/-- What a run keeps whose writes succeed. -/
structure Kept (options : ProviderOptions) (baseline : Environment) (s : ProviderRun) : Prop where
  lawful : PromiseChain.Lawful (persistTasks false) s.manager.queue
  succeed : ∀ w ∈ s.manager.queue.tasks, w.Succeeds false
  bounded : ∀ write ∈ s.resumed, write < s.manager.queue.tasks.length
  /-- the environment is up to date, or the caller of the last write still waits -/
  fresh : Fresh options baseline s ∨
    ∃ write, s.manager.queue.tasks.length = write + 1 ∧ write ∉ s.resumed
  others : ∀ key ∉ MANAGED_VARIABLES, s.environment key = baseline key

theorem path_unmanaged : js "PATH" ∉ MANAGED_VARIABLES := by decide

theorem succeeds_of_failure {α : Type} {text : α} {failure : WriteOp → Option Errno}
    (h : ∀ op, failure op = none) : (⟨text, failure⟩ : Write α).Succeeds false :=
  (Write.succeeds_iff false _).mpr fun op _ => h op

/-- A call of `persist`, and a caller that waits for it. -/
theorem Kept.persist (h : Kept options baseline s) (state : ProviderState)
    {failure : WriteOp → Option Errno} (hfailure : ∀ op, failure op = none) :
    Kept options baseline { s with manager := s.manager.persist state failure } := by
  have htasks : (s.manager.persist state failure).queue.tasks
      = s.manager.queue.tasks ++ [⟨state.toJson, failure⟩] := PromiseChain.tasks_append _ _
  have hlength : (s.manager.persist state failure).queue.tasks.length
      = s.manager.queue.tasks.length + 1 := by rw [htasks, List.length_append, List.length_singleton]
  refine ⟨h.lawful.append _ _, ?_, fun write hwrite => ?_, .inr ⟨_, hlength, fun hmem => ?_⟩, h.others⟩
  · show ∀ w ∈ (s.manager.persist state failure).queue.tasks, _
    rw [htasks]
    exact List.forall_mem_append.mpr
      ⟨h.succeed, List.forall_mem_singleton.mpr (succeeds_of_failure hfailure)⟩
  · exact (h.bounded write hwrite).trans (hlength ▸ Nat.lt_succ_self _)
  · exact absurd (h.bounded _ hmem) (Nat.lt_irrefl _)

/-- A caller applies the environment. -/
theorem Kept.applied (h : Kept options baseline s) (write : Nat)
    (hwrite : write < s.manager.queue.tasks.length) :
    Kept options baseline
      { s with
        environment := (options.applyEnvironment baseline s.manager.state s.environment).1
        resumed := write :: s.resumed } := by
  refine ⟨h.lawful, h.succeed, List.forall_mem_cons.mpr ⟨hwrite, h.bounded⟩,
    .inl (applyEnvironment_fresh (h.others _ path_unmanaged)), fun key hkey => ?_⟩
  exact (applyEnvironment_of_other hkey).trans (h.others key hkey)

/-- **Every event keeps the environment in line with the callers.** -/
theorem Kept.step (h : Kept options baseline s) {e : ProviderRunEvent} (hpermitted : PersistSucceeds s e)
    (hstep : ProviderRun.step options baseline s e = some t) : Kept options baseline t := by
  cases e with
  | change change =>
      obtain ⟨-, hmap⟩ := Option.ite_none_right_eq_some.mp hstep
      obtain ⟨m, hm, rfl⟩ := Option.map_eq_some_iff.mp hmap
      obtain rfl | ⟨providerId, failure, state, rfl, -, rfl⟩ |
        ⟨providerId, located, now, failure, definition, state, rfl, -, -, rfl⟩ |
        ⟨queue, rfl, hqueue, rfl⟩ := ProviderManager.step_cases hm
      · exact h
      · exact h.persist state hpermitted
      · exact h.persist state hpermitted
      · have htasks := PromiseChain.tasks_advance _ hqueue
        refine ⟨h.lawful.advance _ hqueue, ?_, ?_, ?_, h.others⟩
        · show ∀ w ∈ queue.tasks, _
          rw [htasks]
          exact h.succeed
        · show ∀ write ∈ s.resumed, write < queue.tasks.length
          rw [htasks]
          exact h.bounded
        · show Fresh options baseline s ∨ ∃ write, queue.tasks.length = write + 1 ∧ write ∉ s.resumed
          rw [htasks]
          exact h.fresh
  | resume write =>
      unfold ProviderRun.step at hstep
      dsimp only at hstep
      obtain ⟨-, hsettled⟩ := Option.ite_none_left_eq_some.mp hstep
      split at hsettled
      next => exact absurd hsettled nofun
      next w e hentry =>
        exact absurd (h.lawful.fulfilled _ h.succeed hentry) nofun
      next w hentry =>
        obtain rfl := Option.some.inj hsettled
        refine h.applied write ?_
        have hlength := (PromiseChain.settled_advance s.manager.queue).length_le
        rw [List.length_map] at hlength
        exact (List.getElem?_eq_some_iff.mp hentry).1.trans_le hlength

/-- A manager that was opened. -/
theorem kept_opened
    (hopen : ProviderManager.openManager options.host.platform options.catalog found isFile failure
      = .ok manager) (hfailure : ∀ op, failure op = none) :
    Kept options baseline (opened options baseline manager) := by
  obtain ⟨state, -, hopened⟩ := ProviderManager.openManager_cases hopen
  have hresolved : Kept options baseline
      ⟨⟨state, PromiseChain.resolved (.found found)⟩,
        (options.applyEnvironment baseline state baseline).1, []⟩ :=
    ⟨.resolved _ _, List.forall_mem_nil _, List.forall_mem_nil _, .inl fun _ _ => rfl,
      fun key hkey => applyEnvironment_of_other hkey⟩
  rcases hopened with ⟨-, rfl⟩ | ⟨state', -, rfl⟩
  · exact hresolved
  · have hpersisted := hresolved.persist state' hfailure
    refine ⟨hpersisted.lawful, hpersisted.succeed, hpersisted.bounded, ?_, fun _ _ => rfl⟩
    exact .inr ⟨0, rfl, List.not_mem_nil⟩

theorem kept_reachable
    (hopen : ProviderManager.openManager options.host.platform options.catalog found isFile failure
      = .ok manager) (hfailure : ∀ op, failure op = none)
    (h : (system options baseline manager).Reachable PersistSucceeds s) : Kept options baseline s :=
  h.invariant (kept_opened hopen hfailure) fun _ _ _ _ hpermitted hs hstep => hs.step hpermitted hstep

/-- Once every caller has gone on, the environment is up to date. -/
theorem Kept.finished (h : Kept options baseline s) (hfinished : s.Finished) :
    Fresh options baseline s := by
  refine h.fresh.resolve_right ?_
  rintro ⟨write, hlength, hwaiting⟩
  exact hwaiting (hfinished write (by omega))

/-- Callers that go on leave the state alone. -/
theorem Settles.state (h : Settles options baseline s t) : t.manager.state = s.manager.state := by
  induction h with
  | refl => rfl
  | @advance t u _ hstep ih =>
      rcases step_manager hstep with heq | ⟨change, hchange, -, hm, -⟩
      · rw [heq, ih]
      · obtain rfl := ProviderRunEvent.change.inj hchange
        obtain ⟨queue, -, heq⟩ := Option.map_eq_some_iff.mp hm
        rw [← heq, ← ih]
  | @resume t u write _ hstep ih =>
      rcases step_manager hstep with heq | ⟨change, hchange, -⟩
      · rw [heq, ih]
      · exact absurd hchange nofun

theorem Settles.kept (h : Settles options baseline s t) (hs : Kept options baseline s) :
    Kept options baseline t := by
  induction h with
  | refl => exact hs
  | @advance t u _ hstep ih =>
      have hpermitted : PersistSucceeds t (.change .advance) := trivial
      exact ih.step hpermitted hstep
  | @resume t u write _ hstep ih =>
      have hpermitted : PersistSucceeds t (.resume write) := trivial
      exact ih.step hpermitted hstep

end Environment

end ProviderRun

end Typr
