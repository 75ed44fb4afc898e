import TyprCompanion.Management.Download
import TyprCompanion.Management.ProviderEnvironment

/-!
# Failed installs

What is left of a provider when a job that installs it fails at one of its steps.

* `JobOp`, `runInstall` — the program: it prepares the new tree and then replaces the old one.
* `JobFaults`, `InstallJob`, `JobFaults.step` — the steps that fail, and what the others change.
* `Unchanged` — the promise: a failed job leaves everything as it was.
* `Harmless` — the job fails before it removes anything, or what it does is no change.
* **`failed_install_iff`** — the promise is kept exactly when the job is harmless.
-/

namespace Typr

open Core

/-! ## The program -/

/-- What a job waits for, and its assignments.  `download` is the method `download`, whose file is in the
staging directory. -/
inductive JobOp where
  | mkdirStaging
  | download
  | mkdirExtracted
  | extract
  | findExecutable (name : JSString)
  | chmod (name : JSString)
  | mkdirParent
  | removePrevious
  | renameExtracted
  | update (executables : List (JSString × JSString))
  | writeState
  | renameState
  | applyEnvironment
  | onChanged
  | setStatus (status : ProviderJobStatus)
  | removeStaging

/-- What an operation returns; `findExecutable` returns the path `relative` gives. -/
abbrev JobOp.Result : JobOp → Type
  | findExecutable _ => Option JSString
  | _ => Unit

/-- An operation may throw, with a message. -/
abbrev JobOp.Reply (op : JobOp) : Type := Except JSString op.Result

/-- A program of a job. -/
abbrev JobProg (α : Type) := Prog JobOp JobOp.Reply JSString α

namespace ManagedProviderDefinition

/-- Perform an operation; its error is thrown. -/
def await (op : JobOp) : JobProg op.Result := .perform op Prog.ofExcept

variable (definition : ManagedProviderDefinition)

/-- The loop over `definition.executableNames`. -/
def discover (platform : Platform) : List JSString → List (JSString × JSString) →
    JobProg (List (JSString × JSString))
  | [], executables => pure executables
  | name :: rest, executables => do
      match ← await (.findExecutable name) with
      | none => throw (definition.name ++ js " archive did not contain " ++ name ++ js ".")
      | some path =>
          if platform ≠ .win32 then await (.chmod name)
          let value ← Prog.ofExcept (safeRelative platform path)
          discover platform rest (setProperty name value executables)

/-- The `try` of `runInstall` up to the removal of the previous installation. -/
def prepare (platform : Platform) : JobProg (List (JSString × JSString)) := do
  await .mkdirStaging
  await (.setStatus .downloading)
  await .download
  await (.setStatus .installing)
  await .mkdirExtracted
  await .extract
  let executables ← definition.discover platform definition.executableNames []
  await .mkdirParent
  pure executables

/-- The rest of that `try`. -/
def replace (executables : List (JSString × JSString)) : JobProg Unit := do
  await .removePrevious
  await .renameExtracted
  await (.update executables)
  await .writeState
  await .renameState
  await .applyEnvironment
  await .onChanged
  await (.setStatus .completed)

/-- `runInstall` -/
def runInstall (platform : Platform) : JobProg Unit :=
  ((definition.prepare platform >>= replace).tryCatch fun _ => await (.setStatus .failed)) >>= fun _ =>
    (await .removeStaging).tryCatch fun _ => pure ()

/-- The state with the record of a new installation. -/
def recorded (executables : List (JSString × JSString)) (now : Nat) (state : ProviderState) :
    ProviderState where
  installed := (state.installed.filter fun record => record.id != definition.id) ++
    [⟨definition.id, definition.version, toISOString now, executables⟩]
  activeTexProvider :=
    if definition.kind = .texDistribution then some definition.id else state.activeTexProvider

end ManagedProviderDefinition

/-- What `finishInstall` makes of the state. -/
theorem finishInstall_eq (platform : Platform) (definition : ManagedProviderDefinition)
    (located : JSString → Option JSString) (now : Nat) (state : ProviderState) :
    finishInstall platform definition located now state
      = (relativeExecutables platform definition located definition.executableNames []).map
        fun executables => definition.recorded executables now state := by
  unfold finishInstall
  cases relativeExecutables platform definition located definition.executableNames [] <;> rfl

/-! ## The environment -/

/-- What a provider has: the state, its file, the variables, and the tree at its destination. -/
structure Installation (Tree : Type) where
  state : ProviderState
  persisted : Option Json
  environment : Environment
  destination : Option Tree

/-- A job, with its staging directory. -/
structure InstallJob (Tree : Type) extends Installation Tree where
  staging : Bool
  status : ProviderJobStatus

/-- A job that was just queued. -/
def Installation.queued {Tree : Type} (s : Installation Tree) : InstallJob Tree :=
  { s with staging := false, status := .queued }

/-- The manager, the provider, what the archive holds, and which operations fail.  Where the removal of
the previous tree fails, `remains` is left of it. -/
structure JobFaults (Tree : Type) where
  options : ProviderOptions
  baseline : Environment
  definition : ManagedProviderDefinition
  now : Nat
  located : JSString → Option JSString
  extracted : Tree
  remains : Option Tree
  fault : JobOp → Option JSString

namespace JobFaults

variable {Tree : Type} (w : JobFaults Tree)

/-- An operation that throws, or has this effect. -/
def attempt (op : JobOp) (s t : InstallJob Tree) : Except JSString Unit × InstallJob Tree :=
  match w.fault op with
  | some message => (.error message, s)
  | none => (.ok (), t)

/-- What an operation replies and does. -/
def step : (op : JobOp) → InstallJob Tree → op.Reply × InstallJob Tree
  | .mkdirStaging, s => w.attempt .mkdirStaging s { s with staging := true }
  | .download, s => w.attempt .download s s
  | .mkdirExtracted, s => w.attempt .mkdirExtracted s s
  | .extract, s => w.attempt .extract s s
  | .findExecutable name, s => match w.fault (.findExecutable name) with
      | some message => (.error message, s)
      | none => (.ok (w.located name), s)
  | .chmod name, s => w.attempt (.chmod name) s s
  | .mkdirParent, s => w.attempt .mkdirParent s s
  | .removePrevious, s =>
      w.attempt .removePrevious { s with destination := w.remains } { s with destination := none }
  | .renameExtracted, s => w.attempt .renameExtracted s { s with destination := some w.extracted }
  | .update executables, s =>
      (.ok (), { s with state := w.definition.recorded executables w.now s.state })
  | .writeState, s => w.attempt .writeState s s
  | .renameState, s => w.attempt .renameState s { s with persisted := some s.state.toJson }
  | .applyEnvironment, s =>
      let applied := w.options.applyEnvironment w.baseline s.state s.environment
      (applied.2, { s with environment := applied.1 })
  | .onChanged, s => w.attempt .onChanged s s
  | .setStatus status, s => (.ok (), { s with status })
  | .removeStaging, s => w.attempt .removeStaging s { s with staging := false }

/-- The job after it has run. -/
def finished (s : Installation Tree) : InstallJob Tree :=
  ((w.definition.runInstall w.options.host.platform).run w.step s.queued).2

/-! ## The promise -/

/-- The job left nothing of itself: everything is as it was, and the staging directory is gone. -/
structure Unchanged (s : Installation Tree) (t : InstallJob Tree) : Prop where
  state : t.state = s.state
  persisted : t.persisted = s.persisted
  environment : Agree MANAGED_VARIABLES t.environment s.environment
  destination : t.destination = s.destination
  staging : t.staging = false

/-- **A failed install changes nothing.** -/
def FailsClosed (s : Installation Tree) : Prop :=
  (w.finished s).status = .failed → Unchanged s (w.finished s)

/-- The executables that are found, if nothing throws. -/
def discovered : List JSString → List (JSString × JSString) → Except JSString (List (JSString × JSString))
  | [], executables => .ok executables
  | name :: rest, executables => match w.fault (.findExecutable name) with
      | some message => .error message
      | none => match w.located name with
          | none => .error (w.definition.name ++ js " archive did not contain " ++ name ++ js ".")
          | some path =>
              match if w.options.host.platform ≠ .win32 then w.fault (.chmod name) else none with
              | some message => .error message
              | none => match safeRelative w.options.host.platform path with
                  | .error message => .error message
                  | .ok value => discovered rest (setProperty name value executables)

/-- The executables, where nothing fails before the removal of the previous installation. -/
def prepared : Option (List (JSString × JSString)) :=
  if w.fault .mkdirStaging = none ∧ w.fault .download = none ∧ w.fault .mkdirExtracted = none ∧
      w.fault .extract = none then
    match w.discovered w.definition.executableNames [] with
    | .error _ => none
    | .ok executables => if w.fault .mkdirParent = none then some executables else none
  else none

/-- The staging directory is removed, or was never made. -/
def Cleans : Prop := w.fault .mkdirStaging ≠ none ∨ w.fault .removeStaging = none

/-- The new tree and the new record are what the provider has already. -/
def Reinstalls (s : Installation Tree) (state : ProviderState) : Prop :=
  s.destination = some w.extracted ∧ state = s.state

/-- **What a job does is no change**, wherever it fails: it fails before the removal of the previous tree,
or nothing is removed and nothing is moved, or it installs what is installed already. -/
def Harmless (s : Installation Tree) : Prop :=
  match w.prepared with
  | none => w.Cleans
  | some executables =>
      let state := w.definition.recorded executables w.now s.state
      let applied := w.options.applyEnvironment w.baseline state s.environment
      if w.fault .removePrevious ≠ none then w.Cleans ∧ w.remains = s.destination
      else if w.fault .renameExtracted ≠ none then w.Cleans ∧ s.destination = none
      else if w.fault .writeState ≠ none ∨ w.fault .renameState ≠ none then
        w.Cleans ∧ w.Reinstalls s state
      else if applied.2 ≠ .ok () ∨ w.fault .onChanged ≠ none then
        w.Cleans ∧ w.Reinstalls s state ∧ s.persisted = some state.toJson ∧
          Agree MANAGED_VARIABLES applied.1 s.environment
      else True

/-! ## The steps -/

section Steps

variable {w} {s : InstallJob Tree}

theorem run_await (op : JobOp) (s : InstallJob Tree) :
    (ManagedProviderDefinition.await op).run w.step s = w.step op s := by
  show (Prog.ofExcept (w.step op s).1).run w.step (w.step op s).2 = _
  rw [Prog.run_ofExcept]

theorem run_await_bind {β : Type} (op : JobOp) (f : op.Result → JobProg β) (s : InstallJob Tree) :
    (ManagedProviderDefinition.await op >>= f).run w.step s = Prog.thenRun w.step f (w.step op s) := by
  rw [Prog.run_bind, run_await]

theorem run_setStatus_bind {β : Type} (status : ProviderJobStatus) (f : Unit → JobProg β)
    (s : InstallJob Tree) : (ManagedProviderDefinition.await (.setStatus status) >>= f).run w.step s
      = (f ()).run w.step { s with status } := rfl

/-- An operation that may fail, and what follows it. -/
theorem thenRun_attempt {β : Type} {op : JobOp} {f : Unit → JobProg β} {s t : InstallJob Tree}
    {Q : Except JSString β × InstallJob Tree → Prop}
    (herror : ∀ message, w.fault op = some message → Q (.error message, s))
    (hok : w.fault op = none → Q ((f ()).run w.step t)) :
    Q (Prog.thenRun w.step f (w.attempt op s t)) := by
  unfold attempt
  cases h : w.fault op with
  | some message => exact herror message h
  | none => exact hok h

/-- **The loop over the executables** changes nothing. -/
theorem run_discover (names : List JSString) (executables : List (JSString × JSString))
    (s : InstallJob Tree) :
    (w.definition.discover w.options.host.platform names executables).run w.step s
      = (w.discovered names executables, s) := by
  induction names generalizing executables s with
  | nil => rfl
  | cons name rest ih =>
      rw [ManagedProviderDefinition.discover, run_await_bind, step, discovered]
      cases w.fault (.findExecutable name) with
      | some message => rfl
      | none =>
          cases w.located name with
          | none => rfl
          | some path =>
              have hrest : ∀ t : InstallJob Tree, ((Prog.ofExcept (safeRelative w.options.host.platform path)
                  : JobProg JSString) >>= fun value =>
                  w.definition.discover w.options.host.platform rest (setProperty name value executables)).run
                    w.step t = (match safeRelative w.options.host.platform path with
                      | .error message => .error message
                      | .ok value => w.discovered rest (setProperty name value executables), t) := by
                intro t
                rw [Prog.run_bind, Prog.run_ofExcept]
                cases safeRelative w.options.host.platform path with
                | error message => rfl
                | ok value => exact ih _ t
              by_cases hwin : w.options.host.platform = .win32
              · rw [if_neg (not_not_intro hwin)]
                dsimp only [Prog.thenRun]
                rw [if_neg (not_not_intro hwin)]
                exact hrest s
              · rw [if_pos hwin]
                dsimp only [Prog.thenRun]
                rw [if_pos hwin, run_await_bind]
                show Prog.thenRun w.step _ (w.attempt (.chmod name) s s) = _
                unfold attempt
                cases w.fault (.chmod name) with
                | some message => rfl
                | none => exact hrest s

/-- How the preparation ends: it made the staging directory and changed nothing else. -/
def Prepares (w : JobFaults Tree) (s : Installation Tree)
    (outcome : Except JSString (List (JSString × JSString)) × InstallJob Tree) : Prop :=
  (∃ status, outcome.2 = { s with staging := (w.fault .mkdirStaging).isNone, status }) ∧
    w.prepared = outcome.1.toOption

theorem run_prepare (s : Installation Tree) :
    w.Prepares s ((w.definition.prepare w.options.host.platform).run w.step s.queued) := by
  unfold ManagedProviderDefinition.prepare
  rw [run_await_bind]
  refine thenRun_attempt (fun message hstaging => ?_) fun hstaging => ?_
  · exact ⟨⟨.queued, by rw [hstaging]; rfl⟩, if_neg (by simp [hstaging])⟩
  have hmade : (w.fault .mkdirStaging).isNone = true := by rw [hstaging]; rfl
  rw [run_setStatus_bind, run_await_bind]
  refine thenRun_attempt (fun message hdownload => ?_) fun hdownload => ?_
  · exact ⟨⟨.downloading, by rw [hmade]; rfl⟩, if_neg (by simp [hdownload])⟩
  rw [run_setStatus_bind, run_await_bind]
  refine thenRun_attempt (fun message hdirectory => ?_) fun hdirectory => ?_
  · exact ⟨⟨.installing, by rw [hmade]; rfl⟩, if_neg (by simp [hdirectory])⟩
  rw [run_await_bind]
  refine thenRun_attempt (fun message hextract => ?_) fun hextract => ?_
  · exact ⟨⟨.installing, by rw [hmade]; rfl⟩, if_neg (by simp [hextract])⟩
  have hprepared : w.prepared = match w.discovered w.definition.executableNames [] with
      | .error _ => none
      | .ok executables => if w.fault .mkdirParent = none then some executables else none :=
    if_pos ⟨hstaging, hdownload, hdirectory, hextract⟩
  rw [Prog.run_bind, run_discover]
  cases hdiscovered : w.discovered w.definition.executableNames [] with
  | error message =>
      rw [hdiscovered] at hprepared
      exact ⟨⟨.installing, by rw [hmade]; rfl⟩, hprepared⟩
  | ok executables =>
      rw [hdiscovered] at hprepared
      dsimp only [Prog.thenRun] at hprepared ⊢
      rw [run_await_bind]
      refine thenRun_attempt (fun message hparent => ?_) fun hparent => ?_
      · exact ⟨⟨.installing, by rw [hmade]; rfl⟩, hprepared.trans (if_neg (by simp [hparent]))⟩
      · exact ⟨⟨.installing, by rw [hmade]; rfl⟩, hprepared.trans (if_pos hparent)⟩

/-- What the files and variables of a provider are. -/
def Same (s : Installation Tree) (t : InstallJob Tree) : Prop :=
  t.state = s.state ∧ t.persisted = s.persisted ∧
    Agree MANAGED_VARIABLES t.environment s.environment ∧ t.destination = s.destination

/-- How the `try` of a job ends: it completes, or what it did is no change exactly when it is
harmless. -/
def Decided (w : JobFaults Tree) (s : Installation Tree)
    (outcome : Except JSString Unit × InstallJob Tree) : Prop :=
  outcome.2.staging = (w.fault .mkdirStaging).isNone ∧
    (outcome.1 = .ok () → outcome.2.status = .completed) ∧
    ((outcome.1 ≠ .ok () → w.Cleans ∧ Same s outcome.2) ↔ w.Harmless s)

/-- A `try` that throws. -/
theorem decided_error {s : Installation Tree} {t : InstallJob Tree} {message : JSString}
    (hstaging : t.staging = (w.fault .mkdirStaging).isNone)
    (h : w.Cleans ∧ Same s t ↔ w.Harmless s) : w.Decided s (.error message, t) :=
  ⟨hstaging, nofun, ⟨fun himp => h.mp (himp nofun), fun hharmless _ => h.mpr hharmless⟩⟩

/-- **The replacement** of the previous installation, step by step. -/
theorem run_replace (s : Installation Tree) {executables : List (JSString × JSString)}
    (hprepared : w.prepared = some executables) (status : ProviderJobStatus) :
    w.Decided s ((ManagedProviderDefinition.replace executables).run w.step
      { s with staging := (w.fault .mkdirStaging).isNone, status }) := by
  have hagree : Agree MANAGED_VARIABLES s.environment s.environment := fun _ _ => rfl
  unfold ManagedProviderDefinition.replace
  rw [run_await_bind]
  refine thenRun_attempt (fun message hremove => decided_error rfl ?_) fun hremove => ?_
  · unfold Harmless
    rw [hprepared]
    dsimp only
    rw [if_pos (by simp [hremove])]
    exact and_congr_right fun _ => ⟨fun h => h.2.2.2, fun h => ⟨rfl, rfl, hagree, h⟩⟩
  rw [run_await_bind]
  refine thenRun_attempt (fun message hrename => decided_error rfl ?_) fun hrename => ?_
  · unfold Harmless
    rw [hprepared]
    dsimp only
    rw [if_neg (by simp [hremove]), if_pos (by simp [hrename])]
    exact and_congr_right fun _ => ⟨fun h => h.2.2.2.symm, fun h => ⟨rfl, rfl, hagree, h.symm⟩⟩
  have hupdate : ∀ (f : Unit → JobProg Unit) (t : InstallJob Tree),
      (ManagedProviderDefinition.await (.update executables) >>= f).run w.step t
        = (f ()).run w.step { t with state := w.definition.recorded executables w.now t.state } :=
    fun _ _ => rfl
  rw [hupdate, run_await_bind]
  refine thenRun_attempt (fun message hwrite => decided_error rfl ?_) fun hwrite => ?_
  · unfold Harmless
    rw [hprepared]
    dsimp only
    rw [if_neg (by simp [hremove]), if_neg (by simp [hrename]), if_pos (.inl (by simp [hwrite]))]
    exact and_congr_right fun _ => ⟨fun h => ⟨h.2.2.2.symm, h.1⟩, fun h => ⟨h.2, rfl, hagree, h.1.symm⟩⟩
  rw [run_await_bind]
  refine thenRun_attempt (fun message hfile => decided_error rfl ?_) fun hfile => ?_
  · unfold Harmless
    rw [hprepared]
    dsimp only
    rw [if_neg (by simp [hremove]), if_neg (by simp [hrename]), if_pos (.inr (by simp [hfile]))]
    exact and_congr_right fun _ => ⟨fun h => ⟨h.2.2.2.symm, h.1⟩, fun h => ⟨h.2, rfl, hagree, h.1.symm⟩⟩
  -- from here on the new state is in the file
  have hpersisted : ¬ (w.fault .writeState ≠ none ∨ w.fault .renameState ≠ none) := by
    simp [hwrite, hfile]
  rw [run_await_bind]
  dsimp only [step]
  generalize happlied : w.options.applyEnvironment w.baseline
    (w.definition.recorded executables w.now s.state) s.environment = applied
  obtain ⟨environment, result⟩ := applied
  have hlate : (result ≠ .ok () ∨ w.fault .onChanged ≠ none) → (w.Harmless s ↔ w.Cleans ∧
      w.Reinstalls s (w.definition.recorded executables w.now s.state) ∧
      s.persisted = some (w.definition.recorded executables w.now s.state).toJson ∧
      Agree MANAGED_VARIABLES environment s.environment) := by
    intro hfails
    unfold Harmless
    rw [hprepared]
    dsimp only
    rw [happlied, if_neg (by simp [hremove]), if_neg (by simp [hrename]), if_neg hpersisted,
      if_pos hfails]
  cases result with
  | error message =>
      refine decided_error rfl ((and_congr_right fun _ => ?_).trans (hlate (.inl nofun)).symm)
      exact ⟨fun h => ⟨⟨h.2.2.2.symm, h.1⟩, h.2.1.symm, h.2.2.1⟩,
        fun h => ⟨h.1.2, h.2.1.symm, h.2.2, h.1.1.symm⟩⟩
  | ok =>
      dsimp only [Prog.thenRun]
      rw [run_await_bind]
      refine thenRun_attempt (fun message hcallback => decided_error rfl ?_) fun hcallback => ?_
      · refine (and_congr_right fun _ => ?_).trans (hlate (.inr (by simp [hcallback]))).symm
        exact ⟨fun h => ⟨⟨h.2.2.2.symm, h.1⟩, h.2.1.symm, h.2.2.1⟩,
          fun h => ⟨h.1.2, h.2.1.symm, h.2.2, h.1.1.symm⟩⟩
      · refine ⟨rfl, fun _ => rfl, iff_of_true (fun hne => absurd rfl hne) ?_⟩
        unfold Harmless
        rw [hprepared]
        dsimp only
        rw [happlied, if_neg (by simp [hremove]), if_neg (by simp [hrename]), if_neg hpersisted,
          if_neg (by simp [hcallback])]
        trivial

/-- **The `try` of a job**: it prepares the new tree and replaces the old one. -/
theorem run_try (s : Installation Tree) :
    w.Decided s ((w.definition.prepare w.options.host.platform
      >>= ManagedProviderDefinition.replace).run w.step s.queued) := by
  rw [Prog.run_bind]
  obtain ⟨⟨status, htree⟩, hprepared⟩ := run_prepare (w := w) s
  generalize (w.definition.prepare w.options.host.platform).run w.step s.queued = outcome at htree hprepared
  obtain ⟨r, t⟩ := outcome
  dsimp only at htree hprepared
  subst htree
  cases r with
  | error message =>
      refine decided_error rfl ?_
      unfold Harmless
      rw [hprepared]
      exact and_iff_left ⟨rfl, rfl, fun _ _ => rfl, rfl⟩
  | ok executables => exact run_replace s hprepared status

end Steps

/-! ## Failed jobs -/

/-- **A failed install changes nothing** exactly when the job is harmless: it fails before the previous
tree is removed, or had nothing to remove and to move, or installs what was installed; and its staging
directory can be removed. -/
theorem failed_install_iff (w : JobFaults Tree) (s : Installation Tree) :
    w.FailsClosed s ↔ w.Harmless s := by
  have htry := run_try (w := w) s
  have hfinished : w.finished s = (Prog.thenRun w.step
      (fun _ => (ManagedProviderDefinition.await .removeStaging).tryCatch fun _ => pure ())
      (Prog.catchRun w.step (fun _ => ManagedProviderDefinition.await (.setStatus .failed))
        ((w.definition.prepare w.options.host.platform
          >>= ManagedProviderDefinition.replace).run w.step s.queued))).2 := by
    unfold finished ManagedProviderDefinition.runInstall
    rw [Prog.run_bind, Prog.run_tryCatch]
  generalize (w.definition.prepare w.options.host.platform
    >>= ManagedProviderDefinition.replace).run w.step s.queued = outcome at htry hfinished
  obtain ⟨r, t⟩ := outcome
  obtain ⟨hstaging, hcompleted, hharmless⟩ := htry
  have hclose : ∀ u : InstallJob Tree,
      (((ManagedProviderDefinition.await .removeStaging).tryCatch fun _ => pure ()).run w.step u).2
        = { u with staging := if w.fault .removeStaging = none then false else u.staging } := by
    intro u
    rw [Prog.run_tryCatch, run_await]
    show (Prog.catchRun w.step _ (w.attempt .removeStaging u { u with staging := false })).2 = _
    unfold attempt
    cases w.fault .removeStaging <;> rfl
  have hcleans : (if w.fault .removeStaging = none then false else t.staging) = false ↔ w.Cleans := by
    unfold Cleans
    rw [hstaging]
    cases w.fault .removeStaging <;> cases w.fault .mkdirStaging <;> simp
  unfold FailsClosed
  cases r with
  | error message =>
      have hend : w.finished s = { t with
          status := .failed
          staging := if w.fault .removeStaging = none then false else t.staging } := by
        rw [hfinished]
        exact hclose { t with status := .failed }
      rw [hend, ← hharmless]
      constructor
      · intro h _
        have hunchanged := h rfl
        exact ⟨hcleans.mp hunchanged.staging, hunchanged.state, hunchanged.persisted,
          hunchanged.environment, hunchanged.destination⟩
      · intro h _
        obtain ⟨hclean, hstate, hpersisted, henvironment, hdestination⟩ := h nofun
        exact ⟨hstate, hpersisted, henvironment, hdestination, hcleans.mpr hclean⟩
  | ok =>
      have hend : (w.finished s).status = .completed := by
        rw [hfinished]
        exact (congrArg InstallJob.status (hclose t)).trans (hcompleted rfl)
      rw [hend, ← hharmless]
      exact iff_of_true nofun fun hne => absurd rfl hne

/-! ## A lost installation -/

/-- TinyTeX is installed again, and its new tree cannot be moved into place. -/
def refusedRename : JobFaults JSString where
  options := ⟨.posix, CURATED_PROVIDER_CATALOG, fun _ => true, js "/data"⟩
  baseline _ := none
  definition := ⟨js "tinytex", js "TinyTeX", .texDistribution, js "2026.08", [js "pdflatex"]⟩
  now := 0
  located name := some (js "bin/" ++ name)
  extracted := js "new tree"
  remains := none
  fault
    | .renameExtracted => some (js "EACCES")
    | _ => none

/-- The installation before that. -/
def installedTinytex : Installation JSString where
  state := ⟨some (js "tinytex"),
    [⟨js "tinytex", js "2026.08", js "2026-08-01T00:00:00.000Z", [(js "pdflatex", js "bin/pdflatex")]⟩]⟩
  persisted := none
  environment _ := none
  destination := some (js "old tree")

theorem failed_install_removes : ¬ ∀ (w : JobFaults JSString) (s : Installation JSString),
    w.FailsClosed s := by
  intro h
  have hfailed : (refusedRename.finished installedTinytex).status = .failed := by decide +kernel
  have hremoved : (refusedRename.finished installedTinytex).destination = none := by decide +kernel
  have hkept := (h refusedRename installedTinytex hfailed).destination
  rw [hremoved] at hkept
  cases hkept

end JobFaults

end Typr
