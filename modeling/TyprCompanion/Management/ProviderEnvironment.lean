import TyprCompanion.Js.HostPath
import TyprCompanion.Management.ProviderManager

/-!
# The environment of the compilers

How the provider manager turns its state into environment variables, and what it reports of it.

* `absoluteExecutables` — the executables of a record, resolved inside its install root.
* `applyEnvironment` — the managed variables are restored to the baseline and overlaid by the state.
* `snapshot` — which providers are reported as installed and active.
* **`applyEnvironment_fresh`** — the managed variables it leaves do not depend on those it finds.
* `applyEnvironment_restores`, `applyEnvironment_active` — the variables of the TeX distribution.
-/

namespace Typr

open Core

/-! ## Data -/

/-- `process.env` -/
abbrev Environment := JSString → Option JSString

/-- `process.env[key] = value`, and `delete process.env[key]` -/
def Environment.set (env : Environment) (key : JSString) (value : Option JSString) : Environment :=
  fun other => if other = key then value else env other

/-- The variables of the compilers, by the names of their executables. -/
def PDFLATEX_VARIABLE : JSString := js "TYPR_COMPANION_PDFLATEX_EXECUTABLE"
def LATEXMK_VARIABLE : JSString := js "TYPR_COMPANION_LATEXMK_EXECUTABLE"
def TLMGR_VARIABLE : JSString := js "TYPR_COMPANION_TLMGR_EXECUTABLE"
def TEX_ROOT_VARIABLE : JSString := js "TYPR_COMPANION_TEX_ROOT"
def TEXLAB_VARIABLE : JSString := js "TYPR_COMPANION_TEXLAB_EXECUTABLE"
def TINYMIST_VARIABLE : JSString := js "TYPR_COMPANION_TINYMIST_EXECUTABLE"
def NATIVE_PATH_VARIABLE : JSString := js "TYPR_COMPANION_NATIVE_PATH"

/-- The variables of the TeX distribution. -/
def TEX_VARIABLES : List JSString :=
  [PDFLATEX_VARIABLE, LATEXMK_VARIABLE, TLMGR_VARIABLE, TEX_ROOT_VARIABLE, NATIVE_PATH_VARIABLE]

/-- The keys of `baselineEnvironment`. -/
def MANAGED_VARIABLES : List JSString := TEX_VARIABLES ++ [TEXLAB_VARIABLE, TINYMIST_VARIABLE]

/-- The options of a manager: its host, its catalog, and `validateDataRoot(options.dataRoot)`.
`hasAsset` tells whether `assetFor` finds an archive for the platform. -/
structure ProviderOptions where
  host : HostPath
  catalog : List ManagedProviderDefinition
  hasAsset : JSString → Bool
  dataRoot : JSString

/-! ## The code -/

namespace ProviderOptions

variable (options : ProviderOptions)

/-- `installRoot` -/
def installRoot (providerId version : JSString) : JSString :=
  options.host.join [options.dataRoot, js "providers", providerId, version]

/-- `resolveInside` -/
def resolveInside (root path : JSString) : Except JSString JSString :=
  let resolved := options.host.resolve root path
  if resolved ≠ root ∧ JSString.startsWith resolved (root ++ [sep options.host.platform]) = false then
    .error (js "Provider executable escapes its install root.")
  else .ok resolved

/-- `absoluteExecutables` -/
def absoluteExecutables (record : InstalledProviderRecord) :
    Except JSString (List (JSString × JSString)) :=
  record.executables.mapM fun entry => do
    return (entry.1, ← options.resolveInside (options.installRoot record.id record.version) entry.2)

/-- `executables[name]`, where it is truthy -/
def executable? (executables : List (JSString × JSString)) (name : JSString) : Option JSString :=
  ((executables.find? fun entry => entry.1 == name).map Prod.snd).filter (· ≠ [])

/-- `if (executables[name]) process.env[key] = executables[name]` -/
def assign (executables : List (JSString × JSString)) (name key : JSString) (env : Environment) :
    Environment :=
  match executable? executables name with
  | some path => env.set key (some path)
  | none => env

/-- `bins` before the search path, without its empty parts -/
def nativePath (executables : List (JSString × JSString)) (env : Environment) : JSString :=
  let bins := (executables.map fun entry => options.host.dirname entry.2).eraseDups
  let tail := (env NATIVE_PATH_VARIABLE).getD ((env (js "PATH")).getD [])
  JSString.join (if sep options.host.platform = 0x5C then unit ';' else unit ':')
    ((bins ++ [tail]).filter (· ≠ []))

/-- The variables of an active distribution. -/
def overlayTex (record : InstalledProviderRecord) (executables : List (JSString × JSString))
    (env : Environment) : Environment :=
  let env := assign executables (js "pdflatex") PDFLATEX_VARIABLE env
  let env := assign executables (js "latexmk") LATEXMK_VARIABLE env
  let env := assign executables (js "tlmgr") TLMGR_VARIABLE env
  let env := env.set TEX_ROOT_VARIABLE (some (options.installRoot record.id record.version))
  env.set NATIVE_PATH_VARIABLE (some (options.nativePath executables env))

/-- The loop over the language servers; it ends where a path escapes. -/
def overlayServers : List InstalledProviderRecord → Environment → Environment × Except JSString Unit
  | [], env => (env, .ok ())
  | record :: rest, env => match options.absoluteExecutables record with
      | .error e => (env, .error e)
      | .ok executables =>
          let env := if record.id = js "texlab" then
            assign executables (js "texlab") TEXLAB_VARIABLE env else env
          let env := if record.id = js "tinymist" then
            assign executables (js "tinymist") TINYMIST_VARIABLE env else env
          overlayServers rest env

/-- The loop over `baselineEnvironment`. -/
def restoreBaseline (baseline : Environment) (env : Environment) : Environment :=
  MANAGED_VARIABLES.foldl (fun env key => env.set key (baseline key)) env

/-- `this.state.installed.find((candidate) => candidate.id === this.state.activeTexProvider)` -/
def activeRecord (state : ProviderState) : Option InstalledProviderRecord :=
  state.installed.find? fun record => some record.id == state.activeTexProvider

/-- `applyEnvironment`; a path that escapes its root makes it throw half way. -/
def applyEnvironment (baseline : Environment) (state : ProviderState) (env : Environment) :
    Environment × Except JSString Unit :=
  let env := restoreBaseline baseline env
  match activeRecord state with
  | none => options.overlayServers state.installed env
  | some active => match options.absoluteExecutables active with
      | .error e => (env, .error e)
      | .ok executables =>
          options.overlayServers state.installed (options.overlayTex active executables env)

/-! ## Reports -/

/-- `ManagedProviderSnapshot`, without what it tells of the archives -/
structure Snapshot where
  id : JSString
  name : JSString
  kind : ManagedProviderKind
  version : JSString
  installed : Bool
  active : Bool
  installedAt : Option JSString
  executables : List (JSString × JSString)

/-- An entry of `snapshot` -/
def describe (state : ProviderState) (definition : ManagedProviderDefinition) :
    Except JSString Snapshot := do
  let systemTex := definition.id == js "system-tex"
  let installed := state.installed.find? fun candidate =>
    candidate.id == definition.id && candidate.version == definition.version
  let executables ← match installed with
    | none => .ok []
    | some record => options.absoluteExecutables record
  return {
    id := definition.id
    name := definition.name
    kind := definition.kind
    version := definition.version
    installed := systemTex || installed.isSome
    active :=
      if definition.kind = .texDistribution then
        if systemTex then state.activeTexProvider.isNone
        else state.activeTexProvider == some definition.id
      else installed.isSome
    installedAt := installed.map InstalledProviderRecord.installedAt
    executables }

/-- `snapshot().providers` -/
def snapshot (state : ProviderState) : Except JSString (List Snapshot) :=
  options.catalog.mapM (options.describe state)

end ProviderOptions

/-! ## What is left of the environment -/

section Environments

open ProviderOptions

variable {options : ProviderOptions} {baseline env env' : Environment} {state : ProviderState}
  {key : JSString}

theorem Environment.set_self (env : Environment) (key : JSString) (value : Option JSString) :
    env.set key value key = value := if_pos rfl

theorem Environment.set_of_ne (env : Environment) {key other : JSString} (h : other ≠ key)
    (value : Option JSString) : env.set key value other = env other := if_neg h

theorem restoreBaseline_of_managed (h : key ∈ MANAGED_VARIABLES) :
    restoreBaseline baseline env key = baseline key := by
  have hfold : ∀ (keys : List JSString) (env : Environment), key ∈ keys ∨ env key = baseline key →
      keys.foldl (fun env key => env.set key (baseline key)) env key = baseline key := by
    intro keys
    induction keys with
    | nil => exact fun env h => h.resolve_left List.not_mem_nil
    | cons first rest ih =>
        intro env h
        refine ih _ ?_
        show key ∈ rest ∨ env.set first (baseline first) key = baseline key
        by_cases hkey : key = first
        · exact .inr (by rw [hkey, Environment.set_self])
        · rw [Environment.set_of_ne _ hkey]
          exact h.imp_left fun h => (List.mem_cons.mp h).resolve_left hkey
  exact hfold _ _ (.inl h)

theorem restoreBaseline_of_other (h : key ∉ MANAGED_VARIABLES) :
    restoreBaseline baseline env key = env key := by
  have hfold : ∀ (keys : List JSString) (env : Environment), key ∉ keys →
      keys.foldl (fun env key => env.set key (baseline key)) env key = env key := by
    intro keys
    induction keys with
    | nil => exact fun env _ => rfl
    | cons first rest ih =>
        intro env h
        obtain ⟨hfirst, hrest⟩ := not_or.mp (mt List.mem_cons.mpr h)
        rw [List.foldl_cons, ih _ hrest, Environment.set_of_ne _ hfirst]
  exact hfold _ _ h

/-! ### Only some variables matter -/

/-- Two environments that agree on some variables. -/
def Agree (keys : List JSString) (env env' : Environment) : Prop := ∀ key ∈ keys, env key = env' key

theorem Agree.set {keys : List JSString} (h : Agree keys env env') (key : JSString)
    {value value' : Option JSString} (hvalue : value = value') :
    Agree keys (env.set key value) (env'.set key value') := by
  intro other hother
  unfold Environment.set
  rw [hvalue, h other hother]

theorem Agree.assign {keys : List JSString} (h : Agree keys env env')
    (executables : List (JSString × JSString)) (name key : JSString) :
    Agree keys (ProviderOptions.assign executables name key env)
      (ProviderOptions.assign executables name key env') := by
  unfold ProviderOptions.assign
  cases executable? executables name with
  | none => exact h
  | some path => exact h.set key rfl

/-- What a distribution writes depends on the search paths only. -/
theorem Agree.overlayTex {keys : List JSString} (h : Agree keys env env')
    (hnative : NATIVE_PATH_VARIABLE ∈ keys) (hpath : js "PATH" ∈ keys)
    (record : InstalledProviderRecord) (executables : List (JSString × JSString)) :
    Agree keys (options.overlayTex record executables env)
      (options.overlayTex record executables env') := by
  have hroot := (((h.assign executables (js "pdflatex") PDFLATEX_VARIABLE).assign executables
    (js "latexmk") LATEXMK_VARIABLE).assign executables (js "tlmgr") TLMGR_VARIABLE).set
      TEX_ROOT_VARIABLE (rfl : some (options.installRoot record.id record.version) = _)
  refine hroot.set NATIVE_PATH_VARIABLE ?_
  unfold ProviderOptions.nativePath
  rw [hroot _ hnative, hroot _ hpath]

theorem Agree.overlayServers {keys : List JSString} (h : Agree keys env env')
    (records : List InstalledProviderRecord) :
    Agree keys (options.overlayServers records env).1 (options.overlayServers records env').1 := by
  induction records generalizing env env' with
  | nil => exact h
  | cons record rest ih =>
      unfold ProviderOptions.overlayServers
      cases options.absoluteExecutables record with
      | error e => exact h
      | ok executables =>
          dsimp only
          refine ih ?_
          have htexlab : Agree keys
              (if record.id = js "texlab" then
                ProviderOptions.assign executables (js "texlab") TEXLAB_VARIABLE env else env)
              (if record.id = js "texlab" then
                ProviderOptions.assign executables (js "texlab") TEXLAB_VARIABLE env' else env') := by
            split
            · exact h.assign executables _ _
            · exact h
          split
          · exact htexlab.assign executables _ _
          · exact htexlab

/-- **The managed variables do not depend on those that are found**, but on the baseline, the state and
the search path of the host. -/
theorem applyEnvironment_fresh (hpath : env (js "PATH") = env' (js "PATH")) :
    Agree MANAGED_VARIABLES (options.applyEnvironment baseline state env).1
      (options.applyEnvironment baseline state env').1 := by
  have hbase : Agree (MANAGED_VARIABLES ++ [js "PATH"]) (restoreBaseline baseline env)
      (restoreBaseline baseline env') := by
    intro key hkey
    by_cases hmanaged : key ∈ MANAGED_VARIABLES
    · rw [restoreBaseline_of_managed hmanaged, restoreBaseline_of_managed hmanaged]
    · rw [restoreBaseline_of_other hmanaged, restoreBaseline_of_other hmanaged]
      obtain rfl : key = js "PATH" :=
        List.mem_singleton.mp ((List.mem_append.mp hkey).resolve_left hmanaged)
      exact hpath
  have hall : Agree (MANAGED_VARIABLES ++ [js "PATH"])
      (options.applyEnvironment baseline state env).1
      (options.applyEnvironment baseline state env').1 := by
    unfold applyEnvironment
    dsimp only
    cases activeRecord state with
    | none => exact hbase.overlayServers state.installed
    | some active =>
        dsimp only
        cases options.absoluteExecutables active with
        | error e => exact hbase
        | ok executables =>
            exact (hbase.overlayTex (by decide) (by decide) active executables).overlayServers
              state.installed
  exact fun key hkey => hall key (List.mem_append_left _ hkey)

/-! ### Which variables are written -/

theorem assign_of_ne {executables : List (JSString × JSString)} {name other : JSString}
    (h : key ≠ other) : assign executables name other env key = env key := by
  unfold assign
  cases executable? executables name with
  | none => rfl
  | some path => exact Environment.set_of_ne _ h _

theorem overlayServers_of_ne {records : List InstalledProviderRecord} (htexlab : key ≠ TEXLAB_VARIABLE)
    (htinymist : key ≠ TINYMIST_VARIABLE) : (options.overlayServers records env).1 key = env key := by
  induction records generalizing env with
  | nil => rfl
  | cons record rest ih =>
      unfold overlayServers
      split
      · rfl
      · rw [ih]
        split <;> split <;> simp only [assign_of_ne htexlab, assign_of_ne htinymist]

theorem overlayTex_of_ne {record : InstalledProviderRecord} {executables : List (JSString × JSString)}
    (h : key ∉ TEX_VARIABLES) : options.overlayTex record executables env key = env key := by
  simp only [TEX_VARIABLES, List.mem_cons, List.not_mem_nil, not_or, or_false] at h
  obtain ⟨hpdflatex, hlatexmk, htlmgr, hroot, hnative⟩ := h
  unfold overlayTex
  rw [Environment.set_of_ne _ hnative, Environment.set_of_ne _ hroot, assign_of_ne htlmgr,
    assign_of_ne hlatexmk, assign_of_ne hpdflatex]

/-- The other variables are left alone. -/
theorem applyEnvironment_of_other (h : key ∉ MANAGED_VARIABLES) :
    (options.applyEnvironment baseline state env).1 key = env key := by
  have htex : key ∉ TEX_VARIABLES := fun hmem => h (List.mem_append_left _ hmem)
  have htexlab : key ≠ TEXLAB_VARIABLE := by
    rintro rfl
    exact h (by decide)
  have htinymist : key ≠ TINYMIST_VARIABLE := by
    rintro rfl
    exact h (by decide)
  have hbase : restoreBaseline baseline env key = env key := restoreBaseline_of_other h
  unfold applyEnvironment
  dsimp only
  split
  · rw [overlayServers_of_ne htexlab htinymist, hbase]
  · split
    · exact hbase
    · rw [overlayServers_of_ne htexlab htinymist, overlayTex_of_ne htex, hbase]

theorem tex_ne_servers (h : key ∈ TEX_VARIABLES) : key ≠ TEXLAB_VARIABLE ∧ key ≠ TINYMIST_VARIABLE := by
  have hdisjoint : ∀ server ∈ [TEXLAB_VARIABLE, TINYMIST_VARIABLE], server ∉ TEX_VARIABLES := by decide
  constructor
  · rintro rfl
    exact hdisjoint _ (by simp) h
  · rintro rfl
    exact hdisjoint _ (by simp) h

/-- **Without an active distribution** its variables are those of the baseline. -/
theorem applyEnvironment_restores (hactive : activeRecord state = none) (h : key ∈ TEX_VARIABLES) :
    (options.applyEnvironment baseline state env).1 key = baseline key := by
  obtain ⟨htexlab, htinymist⟩ := tex_ne_servers h
  unfold applyEnvironment
  rw [hactive]
  dsimp only
  rw [overlayServers_of_ne htexlab htinymist,
    restoreBaseline_of_managed (List.mem_append_left _ h)]

/-- **The variables of an active distribution** are those it writes over the baseline. -/
theorem applyEnvironment_active {active : InstalledProviderRecord}
    {executables : List (JSString × JSString)} (hactive : activeRecord state = some active)
    (hexecutables : options.absoluteExecutables active = .ok executables) (h : key ∈ TEX_VARIABLES) :
    (options.applyEnvironment baseline state env).1 key
      = options.overlayTex active executables (restoreBaseline baseline env) key := by
  obtain ⟨htexlab, htinymist⟩ := tex_ne_servers h
  unfold applyEnvironment
  rw [hactive]
  dsimp only
  rw [hexecutables]
  exact overlayServers_of_ne htexlab htinymist

end Environments

end Typr
