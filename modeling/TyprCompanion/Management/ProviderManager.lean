import TyprCompanion.Core.TransitionSystem
import TyprCompanion.Js.Date
import TyprCompanion.Js.Path
import TyprCompanion.Management.AccessStore
import TyprCompanion.Management.StateFile

/-!
# The provider manager

What `providerManager.ts` keeps in its state file: the installed providers and the active TeX
distribution.

* `CURATED_PROVIDER_CATALOG` — the providers, as far as the state refers to them.
* `ProviderState.toJson`, `validateProviderState` — how the state travels through the file.
* `activateTexProvider`, `finishInstall`, `removeMissingInstallations` — the changes of the state.
* `ProviderManager`, `ProviderManager.step` — overlapping changes and their writes.
* **`validateProviderState_toJson_iff`** — a file decodes to the state that was written exactly when
  the paths of the executables are portable.
* **`ProviderManager.keeps`** — the changes keep the state valid, and the writes keep the file.
-/

namespace Typr

open Core

/-! ## Data -/

inductive ManagedProviderKind where
  | texDistribution
  | lsp
  deriving DecidableEq

structure ManagedProviderDefinition where
  id : JSString
  name : JSString
  kind : ManagedProviderKind
  version : JSString
  executableNames : List JSString
  deriving DecidableEq

structure InstalledProviderRecord where
  id : JSString
  version : JSString
  installedAt : JSString
  executables : List (JSString × JSString)
  deriving DecidableEq

/-- The state, without its constant `version`. -/
structure ProviderState where
  activeTexProvider : Option JSString
  installed : List InstalledProviderRecord
  deriving DecidableEq

structure ProviderManagerError where
  status : Nat
  code : JSString
  message : JSString
  deriving DecidableEq

/-- `CURATED_PROVIDER_CATALOG` -/
def CURATED_PROVIDER_CATALOG : List ManagedProviderDefinition :=
  [⟨js "system-tex", js "Bundled/system TeX", .texDistribution, js "host", []⟩,
    ⟨js "tinytex", js "TinyTeX", .texDistribution, js "2026.08",
      [js "pdflatex", js "latexmk", js "tlmgr"]⟩,
    ⟨js "texlab", js "TexLab", .lsp, js "5.26.0", [js "texlab"]⟩,
    ⟨js "tinymist", js "Tinymist", .lsp, js "0.15.2", [js "tinymist"]⟩]

/-- A catalog names each of its providers once, and none by the empty text. -/
def WellNamed (catalog : List ManagedProviderDefinition) : Prop :=
  (catalog.map ManagedProviderDefinition.id).Nodup ∧ ∀ definition ∈ catalog, definition.id ≠ []

theorem curated_wellNamed : WellNamed CURATED_PROVIDER_CATALOG := by
  unfold WellNamed
  decide

/-! ## Records of JavaScript -/

/-- `object[name] = value` -/
def setProperty {α : Type} (name : JSString) (value : α) (object : List (JSString × α)) :
    List (JSString × α) :=
  if object.any (fun entry => entry.1 == name) = true then
    object.map fun entry => if entry.1 = name then (name, value) else entry
  else object ++ [(name, value)]

/-- `Object.entries` of a parsed object: of two fields with one name the last counts. -/
def Json.entries (fields : List (JSString × Json)) : List (JSString × Json) :=
  fields.foldl (fun object field => setProperty field.1 field.2 object) []

section SetProperty

variable {α : Type} {name : JSString} {value : α} {object : List (JSString × α)}

theorem setProperty_of_new (h : name ∉ object.map Prod.fst) :
    setProperty name value object = object ++ [(name, value)] := by
  refine if_neg fun hany => h ?_
  obtain ⟨entry, hentry, hname⟩ := List.any_eq_true.mp hany
  exact List.mem_map.mpr ⟨entry, hentry, eq_of_beq hname⟩

theorem mem_setProperty {entry : JSString × α} (h : entry ∈ setProperty name value object) :
    entry ∈ object ∨ entry = (name, value) := by
  unfold setProperty at h
  split at h
  · obtain ⟨old, hold, heq⟩ := List.mem_map.mp h
    split at heq
    · exact .inr heq.symm
    · exact .inl (heq ▸ hold)
  · exact (List.mem_append.mp h).imp_right List.mem_singleton.mp

theorem nodup_setProperty (h : (object.map Prod.fst).Nodup) :
    ((setProperty name value object).map Prod.fst).Nodup := by
  unfold setProperty
  split
  next =>
    have hkeys : (object.map fun entry => if entry.1 = name then (name, value) else entry).map Prod.fst
        = object.map Prod.fst := by
      rw [List.map_map]
      refine List.map_congr_left fun entry _ => ?_
      show (if entry.1 = name then (name, value) else entry).1 = entry.1
      split
      next heq => exact heq.symm
      next => rfl
    rwa [hkeys]
  next hany =>
    rw [List.map_append, List.nodup_append]
    refine ⟨h, List.nodup_singleton _, ?_⟩
    intro key hkey key' hkey' heq
    obtain rfl : key' = name := List.mem_singleton.mp hkey'
    obtain ⟨entry, hentry, hname⟩ := List.mem_map.mp hkey
    exact hany (List.any_eq_true.mpr ⟨entry, hentry, beq_iff_eq.mpr (hname.trans heq)⟩)

/-- An object whose fields have different names. -/
theorem entries_of_nodup {fields : List (JSString × Json)} (h : (fields.map Prod.fst).Nodup) :
    Json.entries fields = fields := by
  have hfold : ∀ (fields object : List (JSString × Json)), ((object ++ fields).map Prod.fst).Nodup →
      fields.foldl (fun object field => setProperty field.1 field.2 object) object
        = object ++ fields := by
    intro fields
    induction fields with
    | nil => simp
    | cons field rest ih =>
        intro object hnodup
        have hnew : field.1 ∉ object.map Prod.fst := by
          intro hmem
          rw [List.map_append, List.map_cons, List.nodup_append] at hnodup
          exact hnodup.2.2 _ hmem _ List.mem_cons_self rfl
        rw [List.foldl_cons, setProperty_of_new hnew, ih _ (by simpa using hnodup)]
        simp
  exact hfold fields [] h

theorem nodup_entries (fields : List (JSString × Json)) :
    ((Json.entries fields).map Prod.fst).Nodup := by
  have hfold : ∀ (fields object : List (JSString × Json)), (object.map Prod.fst).Nodup →
      ((fields.foldl (fun object field => setProperty field.1 field.2 object) object).map
        Prod.fst).Nodup := by
    intro fields
    induction fields with
    | nil => exact fun object h => h
    | cons field rest ih => exact fun object h => ih _ (nodup_setProperty h)
  exact hfold fields [] List.nodup_nil

end SetProperty

/-! ## The state in a file -/

/-- `path.split(/[\\/]/u)` -/
def splitSeparators (path : JSString) : List JSString :=
  JSString.split (unit '/') (path.map fun u => if u = 0x5C then unit '/' else u)

/-- What `validateProviderState` accepts as the path of an executable. -/
def isExecutablePath (platform : Platform) (path : JSString) : Bool :=
  !isAbsolute platform path && !(splitSeparators path).contains (js "..")

/-- The value `JSON.stringify` writes for a record. -/
def InstalledProviderRecord.toJson (record : InstalledProviderRecord) : Json :=
  .object [(js "id", .string record.id), (js "version", .string record.version),
    (js "installedAt", .string record.installedAt),
    (js "executables", .object (record.executables.map fun entry => (entry.1, .string entry.2)))]

/-- The value `JSON.stringify` writes. -/
def ProviderState.toJson (state : ProviderState) : Json :=
  .object ([(js "version", .number (.integer 1) (js "1")),
    (js "installed", .array (state.installed.map InstalledProviderRecord.toJson))] ++
    state.activeTexProvider.toList.map fun id => (js "activeTexProvider", .string id))

/-- `definitions.get(id)`: of two definitions with one id the last counts. -/
def definitionOf (catalog : List ManagedProviderDefinition) (id : JSString) :
    Option ManagedProviderDefinition :=
  catalog.reverse.find? fun definition => definition.id == id

/-- An executable of a record. -/
def validateExecutable (platform : Platform) (definition : ManagedProviderDefinition)
    (entry : JSString × Json) : Option (JSString × JSString) :=
  match entry.2 with
  | .string path =>
      if definition.executableNames.contains entry.1 = true ∧ isExecutablePath platform path = true then
        some (entry.1, path)
      else none
  | _ => none

/-- A record of `validateProviderState` -/
def validateRecord (platform : Platform) (catalog : List ManagedProviderDefinition) (value : Json) :
    Except JSString InstalledProviderRecord :=
  let header := do
    let fields ← value.record?
    let id ← (Json.field fields (js "id")).bind Json.string?
    let version ← (Json.field fields (js "version")).bind Json.string?
    let installedAt ← (Json.field fields (js "installedAt")).bind Json.string?
    let executables ← (Json.field fields (js "executables")).bind Json.record?
    some (id, version, installedAt, executables)
  match header with
  | none => .error (js "Companion installed-provider state is invalid.")
  | some (id, version, installedAt, executables) => match definitionOf catalog id with
      | none => .error (js "Companion provider state references an unknown provider version.")
      | some definition =>
          if definition.version ≠ version then
            .error (js "Companion provider state references an unknown provider version.")
          else match (Json.entries executables).mapM (validateExecutable platform definition) with
            | none => .error (js "Companion provider executable state is invalid.")
            | some executables => .ok ⟨id, version, installedAt, executables⟩

/-- `validateProviderState` -/
def validateProviderState (platform : Platform) (catalog : List ManagedProviderDefinition)
    (value : Json) : Except JSString ProviderState :=
  let header := do
    let fields ← value.record?
    let installed ← (Json.field fields (js "installed")).bind Json.array?
    let active ← match Json.field fields (js "activeTexProvider") with
      | none => some none
      | some active => active.string?.map some
    match Json.field fields (js "version") with
    | some (.number (.integer 1) _) => some (installed, active)
    | _ => none
  match header with
  | none => .error (js "Companion provider state is invalid.")
  | some (installed, active) => do
      let installed ← installed.mapM (validateRecord platform catalog)
      return ⟨active.filter (· ≠ []), installed⟩

/-- What every change keeps: the records are of the catalog, with executables that it names, each once
and on a relative path. -/
structure ProviderState.Valid (platform : Platform) (catalog : List ManagedProviderDefinition)
    (state : ProviderState) : Prop where
  active : state.activeTexProvider ≠ some []
  installed : ∀ record ∈ state.installed, ∃ definition ∈ catalog, definition.id = record.id ∧
    definition.version = record.version ∧ (record.executables.map Prod.fst).Nodup ∧
    ∀ entry ∈ record.executables, definition.executableNames.contains entry.1 = true ∧
      isAbsolute platform entry.2 = false

/-- No path of an executable has a component `..`, whatever separates the components. -/
def ProviderState.Portable (state : ProviderState) : Prop :=
  ∀ record ∈ state.installed, ∀ entry ∈ record.executables,
    (splitSeparators entry.2).contains (js "..") = false

section RoundTrip

variable {platform : Platform} {catalog : List ManagedProviderDefinition}

theorem definitionOf_eq (hcatalog : WellNamed catalog) {definition : ManagedProviderDefinition}
    (h : definition ∈ catalog) : definitionOf catalog definition.id = some definition :=
  find?_of_nodup ManagedProviderDefinition.id
    (by rw [List.map_reverse]; exact List.nodup_reverse.mpr hcatalog.1) (List.mem_reverse.mpr h)

theorem definitionOf_mem {id : JSString} {definition : ManagedProviderDefinition}
    (h : definitionOf catalog id = some definition) : definition ∈ catalog ∧ definition.id = id := by
  have hid := List.find?_some h
  exact ⟨List.mem_reverse.mp (List.mem_of_find?_eq_some h), eq_of_beq hid⟩

/-- The names of validated executables. -/
theorem validateExecutable_eq {definition : ManagedProviderDefinition} {entry : JSString × Json}
    {executable : JSString × JSString}
    (h : validateExecutable platform definition entry = some executable) :
    entry = (executable.1, .string executable.2) ∧
      definition.executableNames.contains executable.1 = true ∧
      isExecutablePath platform executable.2 = true := by
  obtain ⟨name, value⟩ := entry
  unfold validateExecutable at h
  split at h
  next path hpath =>
    obtain ⟨⟨hname, hportable⟩, heq⟩ := Option.ite_none_right_eq_some.mp h
    obtain rfl := Option.some.inj heq
    exact ⟨Prod.ext rfl hpath, hname, hportable⟩
  next => exact absurd h nofun

theorem validateExecutables_eq {definition : ManagedProviderDefinition}
    {entries : List (JSString × Json)} {executables : List (JSString × JSString)}
    (h : entries.mapM (validateExecutable platform definition) = some executables) :
    entries = executables.map (fun entry => (entry.1, .string entry.2)) ∧
      ∀ entry ∈ executables, definition.executableNames.contains entry.1 = true ∧
        isExecutablePath platform entry.2 = true := by
  induction entries generalizing executables with
  | nil =>
      obtain rfl : [] = executables := by simpa using h
      exact ⟨rfl, List.forall_mem_nil _⟩
  | cons entry rest ih =>
      simp only [List.mapM_cons, Option.bind_eq_bind, Option.bind_eq_some_iff, Option.pure_def,
        Option.some.injEq] at h
      obtain ⟨first, hfirst, others, hothers, rfl⟩ := h
      obtain ⟨hentry, hvalid⟩ := validateExecutable_eq hfirst
      obtain ⟨hrest, hall⟩ := ih hothers
      exact ⟨by rw [hentry, hrest, List.map_cons], List.forall_mem_cons.mpr ⟨hvalid, hall⟩⟩

/-- A record as its file is read. -/
theorem validateRecord_toJson {record : InstalledProviderRecord}
    {definition : ManagedProviderDefinition} (hdefinition : definitionOf catalog record.id
      = some definition) (hversion : definition.version = record.version)
    (hnodup : (record.executables.map Prod.fst).Nodup) :
    validateRecord platform catalog record.toJson
      = match (record.executables.map fun entry => (entry.1, Json.string entry.2)).mapM
          (validateExecutable platform definition) with
        | none => .error (js "Companion provider executable state is invalid.")
        | some executables => .ok { record with executables } := by
  have hentries : Json.entries (record.executables.map fun entry => (entry.1, Json.string entry.2))
      = record.executables.map fun entry => (entry.1, Json.string entry.2) := by
    refine entries_of_nodup ?_
    rwa [List.map_map]
  rw [← hentries]
  change (match definitionOf catalog record.id with
    | none => _
    | some definition => if definition.version ≠ record.version then _ else _) = _
  rw [hdefinition]
  exact if_neg (not_not_intro hversion)

/-- A record is read back exactly when its paths are portable. -/
theorem validateRecord_toJson_iff (hcatalog : WellNamed catalog) {record : InstalledProviderRecord}
    {definition : ManagedProviderDefinition} (hmem : definition ∈ catalog)
    (hid : definition.id = record.id) (hversion : definition.version = record.version)
    (hnodup : (record.executables.map Prod.fst).Nodup)
    (hentries : ∀ entry ∈ record.executables, definition.executableNames.contains entry.1 = true ∧
      isAbsolute platform entry.2 = false) :
    ((∃ read, validateRecord platform catalog record.toJson = .ok read) ↔
      ∀ entry ∈ record.executables, (splitSeparators entry.2).contains (js "..") = false) ∧
    ((∀ entry ∈ record.executables, (splitSeparators entry.2).contains (js "..") = false) →
      validateRecord platform catalog record.toJson = .ok record) := by
  rw [validateRecord_toJson (hid ▸ definitionOf_eq hcatalog hmem) hversion hnodup]
  have hread : (∀ entry ∈ record.executables,
      (splitSeparators entry.2).contains (js "..") = false) →
      (record.executables.map fun entry => (entry.1, Json.string entry.2)).mapM
        (validateExecutable platform definition) = some record.executables := by
    intro hportable
    refine mapM_toJson _ fun entry hentry => ?_
    obtain ⟨hname, hrelative⟩ := hentries entry hentry
    refine if_pos ⟨hname, ?_⟩
    rw [isExecutablePath, hrelative, hportable entry hentry]
    rfl
  refine ⟨⟨?_, fun hportable => ⟨record, ?_⟩⟩, fun hportable => ?_⟩
  · rintro ⟨read, hok⟩ entry hentry
    split at hok
    next => exact absurd hok nofun
    next executables hexecutables =>
      obtain ⟨heq, hvalid⟩ := validateExecutables_eq hexecutables
      have hinj : record.executables = executables := by
        refine List.map_injective_iff.mpr ?_ heq
        rintro ⟨name, path⟩ ⟨name', path'⟩ hpair
        obtain ⟨rfl, hpath⟩ := Prod.mk.inj hpair
        exact Prod.ext rfl (Json.string.inj hpath)
      have hpath := (hvalid entry (hinj ▸ hentry)).2
      rw [isExecutablePath, Bool.and_eq_true, Bool.not_eq_true', Bool.not_eq_true'] at hpath
      exact hpath.2
  · rw [hread hportable]
  · rw [hread hportable]

/-- Records that are all read back. -/
theorem mapM_records {records : List InstalledProviderRecord}
    (h : ∀ record ∈ records, validateRecord platform catalog record.toJson = .ok record) :
    (records.map InstalledProviderRecord.toJson).mapM (validateRecord platform catalog)
      = .ok records := by
  induction records with
  | nil => rfl
  | cons record rest ih =>
      obtain ⟨hrecord, hrest⟩ := List.forall_mem_cons.mp h
      rw [List.map_cons, List.mapM_cons, hrecord, ih hrest]
      rfl

/-- Every record of a file that is read is read. -/
theorem forall_of_mapM_records {values : List Json} {records : List InstalledProviderRecord}
    (h : values.mapM (validateRecord platform catalog) = .ok records) :
    (∀ value ∈ values, ∃ record, validateRecord platform catalog value = .ok record) ∧
      ∀ record ∈ records, ∃ value, validateRecord platform catalog value = .ok record := by
  induction values generalizing records with
  | nil =>
      obtain rfl : [] = records := Except.ok.inj h
      exact ⟨List.forall_mem_nil _, List.forall_mem_nil _⟩
  | cons value rest ih =>
      rw [List.mapM_cons] at h
      cases hvalue : validateRecord platform catalog value with
      | error e =>
          rw [hvalue] at h
          exact absurd h nofun
      | ok record =>
          rw [hvalue] at h
          cases hrest : rest.mapM (validateRecord platform catalog) with
          | error e =>
              rw [hrest] at h
              exact absurd h nofun
          | ok others =>
              rw [hrest] at h
              obtain rfl : record :: others = records := Except.ok.inj h
              obtain ⟨hvalues, hrecords⟩ := ih hrest
              exact ⟨List.forall_mem_cons.mpr ⟨⟨record, hvalue⟩, hvalues⟩,
                List.forall_mem_cons.mpr ⟨⟨value, hvalue⟩, hrecords⟩⟩

/-- A state as its file is read. -/
theorem validateProviderState_toJson (state : ProviderState) :
    validateProviderState platform catalog state.toJson
      = (do
        let installed ← (state.installed.map InstalledProviderRecord.toJson).mapM
          (validateRecord platform catalog)
        return ⟨state.activeTexProvider.filter (· ≠ []), installed⟩) := by
  obtain ⟨activeTexProvider, installed⟩ := state
  cases activeTexProvider <;> rfl

/-- **A file decodes to the state that was written exactly when its paths are portable.** -/
theorem validateProviderState_toJson_iff (hcatalog : WellNamed catalog) {state : ProviderState}
    (hvalid : state.Valid platform catalog) :
    validateProviderState platform catalog state.toJson = .ok state ↔ state.Portable := by
  rw [validateProviderState_toJson]
  constructor
  · intro hok record hrecord entry hentry
    cases hinstalled : (state.installed.map InstalledProviderRecord.toJson).mapM
        (validateRecord platform catalog) with
    | error e =>
        rw [hinstalled] at hok
        exact absurd hok nofun
    | ok records =>
        have hread := (forall_of_mapM_records hinstalled).1 _ (List.mem_map_of_mem hrecord)
        obtain ⟨definition, hmem, hid, hversion, hnodup, hentries⟩ := hvalid.installed record hrecord
        exact (validateRecord_toJson_iff hcatalog hmem hid hversion hnodup hentries).1.mp hread
          entry hentry
  · intro hportable
    have hinstalled := mapM_records fun record hrecord => by
      obtain ⟨definition, hmem, hid, hversion, hnodup, hentries⟩ := hvalid.installed record hrecord
      exact (validateRecord_toJson_iff hcatalog hmem hid hversion hnodup hentries).2
        (hportable record hrecord)
    have hactive : state.activeTexProvider.filter (· ≠ []) = state.activeTexProvider := by
      have hne := hvalid.active
      cases hid : state.activeTexProvider with
      | none => rfl
      | some id =>
          rw [hid] at hne
          exact Option.filter_some_pos (by simpa using hne)
    rw [hinstalled, hactive]
    rfl

/-- What is read from a file is valid. -/
theorem valid_of_validate {value : Json} {state : ProviderState}
    (h : validateProviderState platform catalog value = .ok state) :
    state.Valid platform catalog := by
  unfold validateProviderState at h
  dsimp only at h
  split at h
  next => exact absurd h nofun
  next installed active _ =>
    cases hinstalled : installed.mapM (validateRecord platform catalog) with
    | error e =>
        rw [hinstalled] at h
        exact absurd h nofun
    | ok records =>
        rw [hinstalled] at h
        obtain rfl : (⟨active.filter (· ≠ []), records⟩ : ProviderState) = state := Except.ok.inj h
        refine ⟨fun hnil => ?_, fun record hrecord => ?_⟩
        · exact of_decide_eq_true (Option.filter_eq_some_iff.mp hnil).2 rfl
        · obtain ⟨value, hvalue⟩ := (forall_of_mapM_records hinstalled).2 record hrecord
          unfold validateRecord at hvalue
          dsimp only at hvalue
          split at hvalue
          next => exact absurd hvalue nofun
          next id version installedAt executables _ =>
            split at hvalue
            next => exact absurd hvalue nofun
            next definition hdefinition =>
              split at hvalue
              next => exact absurd hvalue nofun
              next hversion =>
                split at hvalue
                next => exact absurd hvalue nofun
                next validated hvalidated =>
                  obtain rfl := Except.ok.inj hvalue
                  obtain ⟨hmem, hid⟩ := definitionOf_mem hdefinition
                  obtain ⟨heq, hall⟩ := validateExecutables_eq hvalidated
                  have hnodup := nodup_entries executables
                  rw [heq, List.map_map] at hnodup
                  refine ⟨definition, hmem, hid, not_not.mp hversion, hnodup, fun entry hentry => ?_⟩
                  obtain ⟨hname, hpath⟩ := hall entry hentry
                  rw [isExecutablePath, Bool.and_eq_true, Bool.not_eq_true'] at hpath
                  exact ⟨hname, hpath.1⟩

end RoundTrip

/-! ## Changes of the state -/

/-- `requireDefinition` -/
def requireDefinition (catalog : List ManagedProviderDefinition) (providerId : JSString) :
    Except ProviderManagerError ManagedProviderDefinition :=
  match catalog.find? fun definition => definition.id == providerId with
  | some definition => .ok definition
  | none => .error ⟨404, js "provider-not-found",
      js "Managed provider was not found in the curated catalog."⟩

/-- `activateTexProvider`, up to its wait for `persist` -/
def activateTexProvider (catalog : List ManagedProviderDefinition) (providerId : JSString)
    (state : ProviderState) : Except ProviderManagerError ProviderState := do
  let definition ← requireDefinition catalog providerId
  if definition.kind ≠ .texDistribution then
    throw ⟨400, js "provider-kind-invalid",
      js "Only a TeX distribution can be selected as the compiler provider."⟩
  else if providerId = js "system-tex" then
    return { state with activeTexProvider := none }
  else if state.installed.any (fun record =>
      record.id == providerId && record.version == definition.version) = true then
    return { state with activeTexProvider := some providerId }
  else
    throw ⟨409, js "provider-not-installed",
      js "Install " ++ definition.name ++ js " before activating it."⟩

/-- `safeRelative`, for the path `relative` returned -/
def safeRelative (platform : Platform) (value : JSString) : Except JSString JSString :=
  if value = [] ∨ isAbsolute platform value = true ∨
      (JSString.split (sep platform) value).contains (js "..") = true then
    .error (js "Provider executable path is invalid.")
  else .ok value

/-- The executables of an extracted archive; `located` is what `findExecutable` and `relative` return
for a name. -/
def relativeExecutables (platform : Platform) (definition : ManagedProviderDefinition)
    (located : JSString → Option JSString) :
    List JSString → List (JSString × JSString) → Except JSString (List (JSString × JSString))
  | [], executables => .ok executables
  | name :: rest, executables => match located name with
      | none => .error (definition.name ++ js " archive did not contain " ++ name ++ js ".")
      | some value => match safeRelative platform value with
          | .error e => .error e
          | .ok path => relativeExecutables platform definition located rest
              (setProperty name path executables)

/-- The end of `runInstall`, up to its wait for `persist`. -/
def finishInstall (platform : Platform) (definition : ManagedProviderDefinition)
    (located : JSString → Option JSString) (now : Nat) (state : ProviderState) :
    Except JSString ProviderState :=
  match relativeExecutables platform definition located definition.executableNames [] with
  | .error e => .error e
  | .ok executables => .ok
      { installed := (state.installed.filter fun record => record.id != definition.id) ++
          [⟨definition.id, definition.version, toISOString now, executables⟩]
        activeTexProvider :=
          if definition.kind = .texDistribution then some definition.id else state.activeTexProvider }

/-- `removeMissingInstallations`: the state without the records whose first executable is missing;
`none` when none is. -/
def removeMissingInstallations (isFile : InstalledProviderRecord → Bool) (state : ProviderState) :
    Option ProviderState :=
  let retained := state.installed.filter fun record => !record.executables.isEmpty && isFile record
  if retained.length = state.installed.length then none
  else some
    { installed := retained
      activeTexProvider :=
        if retained.any (fun record => some record.id == state.activeTexProvider) = true then
          state.activeTexProvider
        else none }

/-! ## Runs -/

/-- A manager, with its writes and its file. -/
structure ProviderManager where
  state : ProviderState
  queue : WriteQueue Json

inductive ProviderEvent where
  /-- `activateTexProvider` is called -/
  | activate (providerId : JSString) (failure : WriteOp → Option Errno)
  /-- the archive of an install job is extracted -/
  | extracted (providerId : JSString) (located : JSString → Option JSString) (now : Nat)
      (failure : WriteOp → Option Errno)
  /-- the writes go one operation on -/
  | advance

namespace ProviderManager

/-- A change of the state, and the call of `persist` after it. -/
def persist (state : ProviderState) (failure : WriteOp → Option Errno) (m : ProviderManager) :
    ProviderManager where
  state
  queue := m.queue.append ⟨state.toJson, failure⟩

/-- `open`: the state in the file, without the records whose executables are gone. -/
def openManager (platform : Platform) (catalog : List ManagedProviderDefinition) (found : Option Json)
    (isFile : InstalledProviderRecord → Bool) (failure : WriteOp → Option Errno) :
    Except JSString ProviderManager := do
  let state ← match found with
    | none => .ok ⟨none, []⟩
    | some value => validateProviderState platform catalog value
  let manager : ProviderManager := ⟨state, PromiseChain.resolved (.found found)⟩
  return match removeMissingInstallations isFile state with
    | none => manager
    | some state => manager.persist state failure

def step (platform : Platform) (catalog : List ManagedProviderDefinition) (m : ProviderManager) :
    ProviderEvent → Option ProviderManager
  | .activate providerId failure => match activateTexProvider catalog providerId m.state with
      | .error _ => some m
      | .ok state => some (m.persist state failure)
  | .extracted providerId located now failure => match requireDefinition catalog providerId with
      | .error _ => none
      | .ok definition => match finishInstall platform definition located now m.state with
          | .error _ => some m
          | .ok state => some (m.persist state failure)
  | .advance => (PromiseChain.advance (persistTasks false) m.queue).map fun queue => { m with queue }

/-- The runs of a manager that was opened. -/
def system (platform : Platform) (catalog : List ManagedProviderDefinition) (m : ProviderManager) :
    System ProviderManager ProviderEvent := ⟨m, step platform catalog⟩

/-! ## What the changes keep -/

section Valid

variable {platform : Platform} {catalog : List ManagedProviderDefinition} {state : ProviderState}

theorem requireDefinition_ok {providerId : JSString} {definition : ManagedProviderDefinition}
    (h : requireDefinition catalog providerId = .ok definition) :
    definition ∈ catalog ∧ definition.id = providerId := by
  unfold requireDefinition at h
  split at h
  next found hfound =>
    obtain rfl := Except.ok.inj h
    have hid := List.find?_some hfound
    exact ⟨List.mem_of_find?_eq_some hfound, eq_of_beq hid⟩
  next => exact absurd h nofun

theorem activate_valid (hcatalog : WellNamed catalog) (hvalid : state.Valid platform catalog)
    {providerId : JSString} {state' : ProviderState}
    (h : activateTexProvider catalog providerId state = .ok state') :
    state'.Valid platform catalog := by
  unfold activateTexProvider at h
  cases hdefinition : requireDefinition catalog providerId with
  | error e =>
      rw [hdefinition] at h
      exact absurd h nofun
  | ok definition =>
      rw [hdefinition] at h
      obtain ⟨hmem, hid⟩ := requireDefinition_ok hdefinition
      change (if definition.kind ≠ .texDistribution then _ else _) = _ at h
      split at h
      next => exact absurd h nofun
      next =>
        split at h
        next =>
          obtain rfl := Except.ok.inj h
          exact ⟨nofun, hvalid.installed⟩
        next =>
          split at h
          next =>
            obtain rfl := Except.ok.inj h
            refine ⟨fun hnil => hcatalog.2 definition hmem ?_, hvalid.installed⟩
            rw [hid]
            exact Option.some.inj hnil
          next => exact absurd h nofun

theorem safeRelative_ok {value path : JSString} (h : safeRelative platform value = .ok path) :
    path = value ∧ isAbsolute platform path = false := by
  unfold safeRelative at h
  split at h
  next => exact absurd h nofun
  next hsafe =>
    obtain rfl := Except.ok.inj h
    exact ⟨rfl, Bool.eq_false_iff.mpr fun habsolute => hsafe (.inr (.inl habsolute))⟩

/-- The executables of a new record. -/
theorem relativeExecutables_ok {definition : ManagedProviderDefinition}
    {located : JSString → Option JSString} {names : List JSString}
    {acc executables : List (JSString × JSString)}
    (hnames : ∀ name ∈ names, name ∈ definition.executableNames)
    (hnodup : (acc.map Prod.fst).Nodup)
    (hacc : ∀ entry ∈ acc, definition.executableNames.contains entry.1 = true ∧
      isAbsolute platform entry.2 = false)
    (h : relativeExecutables platform definition located names acc = .ok executables) :
    (executables.map Prod.fst).Nodup ∧
      ∀ entry ∈ executables, definition.executableNames.contains entry.1 = true ∧
        isAbsolute platform entry.2 = false := by
  induction names generalizing acc with
  | nil =>
      obtain rfl : acc = executables := Except.ok.inj h
      exact ⟨hnodup, hacc⟩
  | cons name rest ih =>
      obtain ⟨hname, hrest⟩ := List.forall_mem_cons.mp hnames
      unfold relativeExecutables at h
      split at h
      next => exact absurd h nofun
      next value _ =>
        split at h
        next => exact absurd h nofun
        next path hpath =>
          refine ih hrest (nodup_setProperty hnodup) (fun entry hentry => ?_) h
          rcases mem_setProperty hentry with hold | rfl
          · exact hacc entry hold
          · exact ⟨List.contains_iff_mem.mpr hname, (safeRelative_ok hpath).2⟩

theorem finishInstall_valid (hcatalog : WellNamed catalog) (hvalid : state.Valid platform catalog)
    {definition : ManagedProviderDefinition} (hmem : definition ∈ catalog)
    {located : JSString → Option JSString} {now : Nat} {state' : ProviderState}
    (h : finishInstall platform definition located now state = .ok state') :
    state'.Valid platform catalog := by
  unfold finishInstall at h
  split at h
  next => exact absurd h nofun
  next executables hexecutables =>
    obtain rfl := Except.ok.inj h
    obtain ⟨hnodup, hentries⟩ := relativeExecutables_ok (fun _ hname => hname)
      (by rw [List.map_nil]; exact List.nodup_nil) (List.forall_mem_nil _) hexecutables
    refine ⟨?_, ?_⟩
    · show (if definition.kind = .texDistribution then some definition.id else _) ≠ some []
      split
      next => exact fun hnil => hcatalog.2 definition hmem (Option.some.inj hnil)
      next => exact hvalid.active
    · refine List.forall_mem_append.mpr
        ⟨fun record hrecord => hvalid.installed record (List.mem_filter.mp hrecord).1, ?_⟩
      exact List.forall_mem_singleton.mpr ⟨definition, hmem, rfl, rfl, hnodup, hentries⟩

theorem removeMissing_valid (hvalid : state.Valid platform catalog)
    {isFile : InstalledProviderRecord → Bool} {state' : ProviderState}
    (h : removeMissingInstallations isFile state = some state') : state'.Valid platform catalog := by
  unfold removeMissingInstallations at h
  dsimp only at h
  obtain ⟨-, heq⟩ := Option.ite_none_left_eq_some.mp h
  obtain rfl := Option.some.inj heq
  refine ⟨?_, fun record hrecord => hvalid.installed record (List.mem_filter.mp hrecord).1⟩
  show (if _ then state.activeTexProvider else none) ≠ some []
  split
  next => exact hvalid.active
  next => exact nofun

end Valid

/-- What one event can do. -/
theorem step_cases {platform : Platform} {catalog : List ManagedProviderDefinition}
    {m m' : ProviderManager} {e : ProviderEvent} (h : step platform catalog m e = some m') :
    m' = m ∨
    (∃ providerId failure state, e = .activate providerId failure ∧
      activateTexProvider catalog providerId m.state = .ok state ∧ m' = m.persist state failure) ∨
    (∃ providerId located now failure definition state,
      e = .extracted providerId located now failure ∧
      requireDefinition catalog providerId = .ok definition ∧
      finishInstall platform definition located now m.state = .ok state ∧
      m' = m.persist state failure) ∨
    (∃ queue, e = .advance ∧ PromiseChain.advance (persistTasks false) m.queue = some queue ∧
      m' = { m with queue }) := by
  cases e with
  | activate providerId failure =>
      unfold step at h
      dsimp only at h
      split at h
      next => exact .inl (Option.some.inj h).symm
      next state hstate =>
        exact .inr (.inl ⟨providerId, failure, state, rfl, hstate, (Option.some.inj h).symm⟩)
  | extracted providerId located now failure =>
      unfold step at h
      dsimp only at h
      split at h
      next => exact absurd h nofun
      next definition hdefinition =>
        split at h
        next => exact .inl (Option.some.inj h).symm
        next state hstate =>
          exact .inr (.inr (.inl ⟨providerId, located, now, failure, definition, state, rfl,
            hdefinition, hstate, (Option.some.inj h).symm⟩))
  | advance =>
      obtain ⟨queue, hqueue, rfl⟩ := Option.map_eq_some_iff.mp h
      exact .inr (.inr (.inr ⟨queue, rfl, hqueue, rfl⟩))

/-- What `open` reads, and what it makes of it. -/
theorem openManager_cases {platform : Platform} {catalog : List ManagedProviderDefinition}
    {found : Option Json} {isFile : InstalledProviderRecord → Bool}
    {failure : WriteOp → Option Errno} {m : ProviderManager}
    (h : openManager platform catalog found isFile failure = .ok m) :
    ∃ state : ProviderState,
      (found = none ∧ state = ⟨none, []⟩ ∨
        ∃ value, found = some value ∧ validateProviderState platform catalog value = .ok state) ∧
      (removeMissingInstallations isFile state = none ∧
          m = ⟨state, PromiseChain.resolved (.found found)⟩ ∨
        ∃ state', removeMissingInstallations isFile state = some state' ∧
          m = persist state' failure ⟨state, PromiseChain.resolved (.found found)⟩) := by
  unfold openManager at h
  cases found with
  | none =>
      refine ⟨⟨none, []⟩, .inl ⟨rfl, rfl⟩, ?_⟩
      obtain rfl := Except.ok.inj h
      cases removeMissingInstallations isFile ⟨none, []⟩ with
      | none => exact .inl ⟨rfl, rfl⟩
      | some state' => exact .inr ⟨state', rfl, rfl⟩
  | some value =>
      dsimp only at h
      cases hstate : validateProviderState platform catalog value with
      | error e =>
          rw [hstate] at h
          cases h
      | ok state =>
          rw [hstate] at h
          refine ⟨state, .inr ⟨value, rfl, hstate⟩, ?_⟩
          obtain rfl := Except.ok.inj h
          cases hremoved : removeMissingInstallations isFile state with
          | none => exact .inl ⟨rfl, rfl⟩
          | some state' => exact .inr ⟨state', rfl, rfl⟩

/-- What a manager that was just opened keeps. -/
theorem keeps_open {platform : Platform} {catalog : List ManagedProviderDefinition}
    {found : Option Json} {isFile : InstalledProviderRecord → Bool}
    {failure : WriteOp → Option Errno} {m : ProviderManager}
    (h : openManager platform catalog found isFile failure = .ok m) :
    m.state.Valid platform catalog ∧ WriteQueue.Keeps false found m.state.toJson m.queue := by
  obtain ⟨state, hread, hopened⟩ := openManager_cases h
  have hvalid : state.Valid platform catalog := by
    rcases hread with ⟨-, rfl⟩ | ⟨value, -, hvalidate⟩
    · exact ⟨(Option.some_ne_none _).symm, List.forall_mem_nil _⟩
    · exact valid_of_validate hvalidate
  have hresolved : WriteQueue.Keeps false found state.toJson
      (PromiseChain.resolved (.found found)) := .resolved
  rcases hopened with ⟨-, rfl⟩ | ⟨state', hremoved, rfl⟩
  · exact ⟨hvalid, hresolved⟩
  · exact ⟨removeMissing_valid hvalid hremoved, hresolved.persist ⟨state'.toJson, failure⟩⟩

/-- **The writes of a manager keep its file**, in every state it reaches. -/
theorem keeps {platform : Platform} {catalog : List ManagedProviderDefinition}
    (hcatalog : WellNamed catalog) {found : Option Json} {isFile : InstalledProviderRecord → Bool}
    {failure : WriteOp → Option Errno} {m : ProviderManager}
    (hopen : openManager platform catalog found isFile failure = .ok m)
    {permitted : ProviderManager → ProviderEvent → Prop} {s : ProviderManager}
    (h : (system platform catalog m).Reachable permitted s) :
    s.state.Valid platform catalog ∧ WriteQueue.Keeps false found s.state.toJson s.queue := by
  let I (s : ProviderManager) : Prop :=
    s.state.Valid platform catalog ∧ WriteQueue.Keeps false found s.state.toJson s.queue
  refine h.invariant (I := I) (keeps_open hopen) ?_
  rintro s e t - - ⟨hvalid, hkeeps⟩ hstep
  obtain rfl | ⟨providerId, failure, state, rfl, hactivate, rfl⟩ |
    ⟨providerId, located, now, failure, definition, state, rfl, hdefinition, hinstall, rfl⟩ |
    ⟨queue, rfl, hqueue, rfl⟩ := step_cases hstep
  · exact ⟨hvalid, hkeeps⟩
  · exact ⟨activate_valid hcatalog hvalid hactivate, hkeeps.persist ⟨state.toJson, failure⟩⟩
  · exact ⟨finishInstall_valid hcatalog hvalid (requireDefinition_ok hdefinition).1 hinstall,
      hkeeps.persist ⟨state.toJson, failure⟩⟩
  · exact ⟨hvalid, hkeeps.advance hqueue⟩

end ProviderManager

end Typr
