import TyprCompanion.Core.ReleaseQueue
import TyprCompanion.Core.TransitionSystem
import TyprCompanion.Js.Json

/-!
# The package manager of TeX

`texPackageManager.ts`: missing files of a compilation are looked up and installed with `tlmgr`, one
call after another, by a manager that is replaced when the executable changes.

* `resolveCompilerFailure`, `updateAll` — what a call does when its turn comes.
* `TexPackages`, `TexPackages.step` — the managers there ever were, each with its queue, among
  compilations, updates, activations of another provider and aborts.
* `Exclusive`, `ReleasedOnce` — one `tlmgr` for a tree, and calls that do not hold up the queue.
* **`TexPackages.serialized`** — calls are released once, in every run; one `tlmgr` for a tree runs
  at a time when no call is queued while an earlier manager of the tree has calls left.
* `TexPackages.overlapping` — an activation of another tree and back, and two run.
-/

namespace Typr

open Core

/-! ## The body of a call -/

/-- `TexPackageManagerCommandResult` -/
structure CommandResult where
  exitCode : Option Nat
  stdout : JSString
  stderr : JSString

/-- What a call asks of its surroundings. -/
inductive TexOp where
  /-- `signal.aborted` -/
  | aborted (signal : Nat)
  /-- `await this.runCommand(this.command, args, signal, timeoutMs)` -/
  | runCommand (args : List JSString) (signal timeoutMs : Nat)

/-- A command that could not be run throws a message. -/
abbrev TexOp.Reply : TexOp → Type
  | aborted _ => Bool
  | runCommand .. => Except JSString CommandResult

/-- A program of the package manager. -/
abbrev TexProg (α : Type) := Prog TexOp TexOp.Reply JSString α

def runCommand (args : List JSString) (signal timeoutMs : Nat) : TexProg CommandResult :=
  .perform (.runCommand args signal timeoutMs) Prog.ofExcept

/-- `TexPackageResolution` -/
structure TexPackageResolution where
  files : List JSString
  packages : List JSString
  installed : Bool
  diagnostic : Option JSString

/-- `TexPackageUpdateResult` -/
structure TexPackageUpdateResult where
  updated : Bool
  diagnostic : JSString

/-- What a call returns. -/
inductive TexResult where
  | resolution (result : TexPackageResolution)
  | update (result : TexPackageUpdateResult)

def MAX_FILES_PER_ROUND : Nat := 4
def SEARCH_TIMEOUT_MS : Nat := 30000
def INSTALL_TIMEOUT_MS : Nat := 5 * 60000

/-- The functions that look into the output of the compiler and of `tlmgr`. -/
structure TexTexts where
  extractMissingTexFiles : JSString → List JSString
  packageForExactFile : JSString → JSString → Option JSString
  requiresTlmgrSelfUpdate : JSString → Bool

/-- `text.trim().split(/\r?\n/u).filter(Boolean).slice(-count).join(" ")` -/
def lastLines (text : JSString) (count : Nat) : JSString :=
  let lines := (JSString.split 0x0A text.trim).map fun line =>
    if line.getLast? = some 0x0D then line.dropLast else line
  let lines := lines.filter (· ≠ [])
  JSString.join 0x20 (lines.drop (lines.length - count))

/-- `conciseCommandFailure` -/
def conciseCommandFailure (label : JSString) (result : CommandResult) : JSString :=
  let detail := lastLines (result.stderr ++ js "\n" ++ result.stdout) 3
  label ++ js " exited with code " ++ (result.exitCode.map jsNat).getD (js "unknown") ++
    if detail = [] then [] else js ": " ++ detail

section Bodies

variable (texts : TexTexts) (files : List JSString) (signal : Nat)

/-- The installation, with the update of `tlmgr` it may ask for. -/
def installPackages (packages : List JSString) : TexProg TexPackageResolution := do
  if packages = [] then
    return ⟨files, [], false,
      some (js "no exact package match was found in the TeX Live repository")⟩
  let install ← runCommand (js "install" :: packages) signal INSTALL_TIMEOUT_MS
  if install.exitCode ≠ some 0 ∧
      texts.requiresTlmgrSelfUpdate (install.stdout ++ js "\n" ++ install.stderr) = true then
    let selfUpdate ← runCommand [js "update", js "--self"] signal INSTALL_TIMEOUT_MS
    if selfUpdate.exitCode ≠ some 0 then
      return ⟨files, packages, false, some (conciseCommandFailure (js "tlmgr self-update") selfUpdate)⟩
    let install ← runCommand (js "install" :: packages) signal INSTALL_TIMEOUT_MS
    return afterInstall packages install
  return afterInstall packages install
where
  /-- What the last installation tells. -/
  afterInstall (packages : List JSString) (install : CommandResult) : TexPackageResolution :=
    if install.exitCode ≠ some 0 then
      ⟨files, packages, false, some (conciseCommandFailure (js "tlmgr install") install)⟩
    else ⟨files, packages, true, none⟩

/-- The loop over the missing files, and the installation behind it. -/
def searchPackages : List JSString → List JSString → TexProg TexPackageResolution
  | [], packages => installPackages texts files signal packages
  | file :: rest, packages => do
      let aborted ← Prog.call (.aborted signal)
      if aborted = true then
        return ⟨files, packages, false, some (js "compilation was cancelled")⟩
      let search ← runCommand [js "search", js "--global", js "--file", js "/" ++ file] signal
        SEARCH_TIMEOUT_MS
      if search.exitCode ≠ some 0 then
        return ⟨files, packages, false, some (conciseCommandFailure (js "tlmgr search") search)⟩
      match texts.packageForExactFile search.stdout file with
      | none => searchPackages rest packages
      | some package => searchPackages rest (if package ∈ packages then packages else packages ++ [package])

/-- The `try … catch …` of `resolveCompilerFailure`. -/
def resolveMissingFiles : TexProg TexPackageResolution :=
  (searchPackages texts files signal files []).tryCatch fun message =>
    pure ⟨files, [], false, some message⟩

/-- `resolveCompilerFailure` behind `await previous`. -/
def resolveCompilerFailure : TexProg TexResult :=
  .resolution <$> resolveMissingFiles texts files signal

/-- `updateAll` behind `await previous`. -/
def updateAll : TexProg TexResult :=
  let body : TexProg TexPackageUpdateResult := do
    let update ← runCommand [js "update", js "--self", js "--all"] signal (15 * 60000)
    if update.exitCode ≠ some 0 then
      return ⟨false, conciseCommandFailure (js "tlmgr update") update⟩
    let lines := lastLines (update.stdout ++ js "\n" ++ update.stderr) 5
    return ⟨true, if lines = [] then js "TeX Live is current." else lines⟩
  .update <$> body.tryCatch fun message => pure ⟨false, message⟩

end Bodies

/-! ## The managers -/

/-- A call as the queue has it. -/
abbrev TexCall := QueuedCall TexOp TexOp.Reply JSString TexResult

/-- A `tlmgr` of the call runs. -/
def runsTlmgr (c : TexCall) : Bool :=
  match c.awaiting, c.left with
  | false, .perform (.runCommand ..) _ => true
  | _, _ => false

/-- A manager: the command, which stands for the tree it changes, and the calls. -/
structure TexPackageManager where
  command : JSString
  installQueue : ReleaseQueue TexOp TexOp.Reply JSString TexResult

/-- The environment variable of `tlmgr`, the managers there ever were — the last is the shared one —
and the signals that were aborted. -/
structure TexPackages where
  executable : Option JSString
  managers : List TexPackageManager
  aborted : List Nat

inductive TexEvent where
  /-- `applyEnvironment` after an activation -/
  | applyEnvironment (executable : Option JSString)
  | abort (signal : Nat)
  /-- A compilation failed with an output. -/
  | resolve (output : JSString) (signal : Nat)
  | update (signal : Nat)
  /-- The call gets its turn. -/
  | turn (manager call : Nat)
  /-- The call reads its signal, or its command ends or cannot be run. -/
  | answer (manager call : Nat) (result : Except JSString CommandResult)

namespace TexPackages

/-- `nativeTool("tlmgr")` -/
def nativeTool (s : TexPackages) : JSString :=
  match s.executable.map JSString.trim with
  | none | some [] => js "tlmgr"
  | some command => command

/-- `activeTexPackageManager`: the last manager is the one that is returned. -/
def activeTexPackageManager (s : TexPackages) : TexPackages :=
  if s.managers.getLast?.map TexPackageManager.command = some s.nativeTool then s
  else { s with managers := s.managers ++ [⟨s.nativeTool, ReleaseQueue.empty⟩] }

/-- A call queues in the last manager. -/
def enqueue (body : TexProg TexResult) (s : TexPackages) : TexPackages :=
  match s.managers.getLast? with
  | none => s
  | some last => { s with
      managers := s.managers.dropLast ++ [{ last with installQueue := last.installQueue.append body }] }

/-- The queue of a manager changes. -/
def setQueue (s : TexPackages) (manager : Nat)
    (change : ReleaseQueue TexOp TexOp.Reply JSString TexResult →
      Option (ReleaseQueue TexOp TexOp.Reply JSString TexResult)) : Option TexPackages :=
  match s.managers[manager]? with
  | none => none
  | some m => (change m.installQueue).map fun queue =>
      { s with managers := s.managers.set manager { m with installQueue := queue } }

/-- What is answered: whether the signal was aborted, and the result of the command. -/
def reply (s : TexPackages) (result : Except JSString CommandResult) : (op : TexOp) → op.Reply
  | .aborted signal => s.aborted.contains signal
  | .runCommand .. => result

variable (texts : TexTexts) (enabled : Bool)

/-- The body a call queues, if it does: what it does before it takes its place. -/
def queuedBody : TexEvent → Option (TexProg TexResult)
  | .resolve output signal =>
      let files := (texts.extractMissingTexFiles output).take MAX_FILES_PER_ROUND
      if files = [] ∨ enabled = false then none
      else some (resolveCompilerFailure texts files signal)
  | .update signal => if enabled = false then none else some (updateAll signal)
  | _ => none

/-- One step. -/
def step (s : TexPackages) (event : TexEvent) : Option TexPackages :=
  match event with
  | .applyEnvironment executable => some { s with executable }
  | .abort signal => some { s with aborted := signal :: s.aborted }
  | .resolve .. | .update _ =>
      let s := s.activeTexPackageManager
      match queuedBody texts enabled event with
      | none => some s
      | some body => some (s.enqueue body)
  | .turn manager call => s.setQueue manager (·.start call)
  | .answer manager call result => s.setQueue manager (·.advance call (s.reply result))

/-- No manager exists when the program starts. -/
def new : TexPackages := ⟨none, [], []⟩

def system : System TexPackages TexEvent := ⟨new, step texts enabled⟩

/-! ## The properties -/

/-- No two `tlmgr` run for one tree. -/
def Exclusive (s : TexPackages) : Prop :=
  ∀ (m n : Nat) (M N : TexPackageManager) (j k : Nat) (c e : TexCall),
    s.managers[m]? = some M → s.managers[n]? = some N → M.command = N.command →
    M.installQueue.calls[j]? = some c → N.installQueue.calls[k]? = some e →
    runsTlmgr c = true → runsTlmgr e = true → m = n ∧ j = k

/-- A call was released once if its body ended, and is not held up otherwise. -/
def ReleasedOnce (s : TexPackages) : Prop :=
  ∀ M ∈ s.managers, ∀ c ∈ M.installQueue.calls,
    c.releases = (if c.finished = true then 1 else 0) ∧
    (c.finished = false → ∀ result, ∃ manager call,
      (step texts enabled s (.turn manager call)).isSome = true ∨
      (step texts enabled s (.answer manager call result)).isSome = true)

/-- When a call is queued, the other managers of its tree have no call left. -/
def Separated (s : TexPackages) (event : TexEvent) : Prop :=
  (queuedBody texts enabled event).isSome = true →
    let managers := s.activeTexPackageManager.managers
    ∀ (m : Nat) (M : TexPackageManager), managers[m]? = some M → m + 1 < managers.length →
      M.command = s.nativeTool → ∀ c ∈ M.installQueue.calls, c.finished = true

/-! ## The steps -/

section Steps

variable {texts enabled} {s t : TexPackages}

/-- The queue that a call changes when it gets its turn or an answer. -/
structure QueueStep (q q' : ReleaseQueue TexOp TexOp.Reply JSString TexResult) : Prop where
  lawful : q.Lawful → q'.Lawful
  length : q'.calls.length = q.calls.length
  unfinished : ¬ ∀ c ∈ q.calls, c.finished = true

theorem QueueStep.start {q q' : ReleaseQueue TexOp TexOp.Reply JSString TexResult} {i : Nat}
    (h : q.start i = some q') : QueueStep q q' where
  lawful hq := hq.start h
  length := ReleaseQueue.length_start h
  unfinished hall := by
    rw [ReleaseQueue.start_eq_none hall] at h
    cases h

theorem QueueStep.advance {q q' : ReleaseQueue TexOp TexOp.Reply JSString TexResult} {i : Nat}
    {answer : (op : TexOp) → op.Reply} (h : q.advance i answer = some q') : QueueStep q q' where
  lawful hq := hq.advance h
  length := ReleaseQueue.length_advance h
  unfinished hall := by
    rw [ReleaseQueue.advance_eq_none hall] at h
    cases h

theorem setQueue_cases {manager : Nat}
    {change : ReleaseQueue TexOp TexOp.Reply JSString TexResult →
      Option (ReleaseQueue TexOp TexOp.Reply JSString TexResult)}
    (hchange : ∀ q q', change q = some q' → QueueStep q q')
    (h : s.setQueue manager change = some t) :
    ∃ M queue, s.managers[manager]? = some M ∧ QueueStep M.installQueue queue ∧
      t.managers = s.managers.set manager { M with installQueue := queue } := by
  rw [setQueue] at h
  split at h
  next => cases h
  next M hM =>
    obtain ⟨queue, hqueue, rfl⟩ := Option.map_eq_some_iff.mp h
    exact ⟨M, queue, hM, hchange _ _ hqueue, rfl⟩

/-- The shared manager is the last one, and it is for the executable there is now. -/
theorem activeTexPackageManager_last (s : TexPackages) :
    ∃ before last, s.activeTexPackageManager.managers = before ++ [last] ∧
      last.command = s.nativeTool := by
  rw [activeTexPackageManager]
  split
  next hsame =>
    obtain ⟨last, hlast, hcommand⟩ := Option.map_eq_some_iff.mp hsame
    exact ⟨_, last, (List.dropLast_append_getLast? last hlast).symm, hcommand⟩
  next => exact ⟨s.managers, _, rfl, rfl⟩

/-- The managers stay, and one without calls may join them. -/
theorem activeTexPackageManager_managers (s : TexPackages) :
    s.activeTexPackageManager.managers = s.managers ∨
      s.activeTexPackageManager.managers = s.managers ++ [⟨s.nativeTool, ReleaseQueue.empty⟩] := by
  rw [activeTexPackageManager]
  split
  · exact .inl rfl
  · exact .inr rfl

theorem enqueue_managers {body : TexProg TexResult} {before : List TexPackageManager}
    {last : TexPackageManager} (h : s.managers = before ++ [last]) :
    (s.enqueue body).managers
      = before ++ [{ last with installQueue := last.installQueue.append body }] := by
  rw [enqueue, h, List.getLast?_concat]
  simp

/-- **What a step does to the managers**: nothing, a change in the queue of one, a manager without
calls, or a call in the last one. -/
theorem step_managers {event : TexEvent} (h : step texts enabled s event = some t) :
    t.managers = s.managers ∨
    (∃ manager M queue, s.managers[manager]? = some M ∧ QueueStep M.installQueue queue ∧
      t.managers = s.managers.set manager { M with installQueue := queue }) ∨
    t.managers = s.activeTexPackageManager.managers ∨
    (∃ body before last, queuedBody texts enabled event = some body ∧
      s.activeTexPackageManager.managers = before ++ [last] ∧ last.command = s.nativeTool ∧
      t.managers = before ++ [{ last with installQueue := last.installQueue.append body }]) := by
  have hcall : (match queuedBody texts enabled event with
      | none => some s.activeTexPackageManager
      | some body => some (s.activeTexPackageManager.enqueue body)) = some t →
      t.managers = s.activeTexPackageManager.managers ∨
      (∃ body before last, queuedBody texts enabled event = some body ∧
        s.activeTexPackageManager.managers = before ++ [last] ∧ last.command = s.nativeTool ∧
        t.managers = before ++ [{ last with installQueue := last.installQueue.append body }]) := by
    intro h
    split at h
    next =>
      obtain rfl := Option.some.inj h
      exact .inl rfl
    next body hbody =>
      obtain rfl := Option.some.inj h
      obtain ⟨before, last, hlast, hcommand⟩ := activeTexPackageManager_last s
      exact .inr ⟨body, before, last, hbody, hlast, hcommand, enqueue_managers hlast⟩
  cases event with
  | applyEnvironment executable =>
      obtain rfl := Option.some.inj h
      exact .inl rfl
  | abort signal =>
      obtain rfl := Option.some.inj h
      exact .inl rfl
  | turn manager call =>
      exact .inr (.inl ⟨manager, setQueue_cases (fun _ _ => QueueStep.start) h⟩)
  | answer manager call result =>
      exact .inr (.inl ⟨manager, setQueue_cases (fun _ _ => QueueStep.advance) h⟩)
  | resolve output signal => exact .inr (.inr (hcall h))
  | update signal => exact .inr (.inr (hcall h))

/-! ## Calls are released once -/

/-- Every queue is lawful. -/
def Orderly (s : TexPackages) : Prop := ∀ M ∈ s.managers, M.installQueue.Lawful

theorem orderly_active (h : Orderly s) : Orderly s.activeTexPackageManager := by
  intro M hM
  rcases activeTexPackageManager_managers s with heq | heq <;> rw [heq] at hM
  · exact h M hM
  · rcases List.mem_append.mp hM with hM | hM
    · exact h M hM
    · obtain rfl := List.mem_singleton.mp hM
      exact ReleaseQueue.Lawful.empty

/-- **Every step keeps the queues lawful.** -/
theorem Orderly.step {event : TexEvent} (hs : Orderly s)
    (h : TexPackages.step texts enabled s event = some t) : Orderly t := by
  intro N hN
  rcases step_managers h with heq | ⟨manager, M, queue, hM, hqueue, heq⟩ | heq |
    ⟨body, before, last, -, hlast, -, heq⟩ <;> rw [heq] at hN
  · exact hs N hN
  · rcases List.mem_or_eq_of_mem_set hN with hN | rfl
    · exact hs N hN
    · exact hqueue.lawful (hs M (List.mem_of_getElem? hM))
  · exact orderly_active hs N hN
  · have hactive := orderly_active hs
    rcases List.mem_append.mp hN with hN | hN
    · exact hactive N (hlast ▸ List.mem_append_left _ hN)
    · obtain rfl := List.mem_singleton.mp hN
      exact (hactive last (hlast ▸ List.mem_append_right _ List.mem_cons_self)).append body

/-- In lawful queues calls are released once and not held up. -/
theorem Orderly.releasedOnce (hs : Orderly s) : ReleasedOnce texts enabled s := by
  intro M hM c hc
  obtain ⟨i, hi⟩ := List.mem_iff_getElem?.mp hc
  refine ⟨(hs M hM).released i c hi, fun hopen result => ?_⟩
  obtain ⟨m, hm⟩ := List.mem_iff_getElem?.mp hM
  obtain ⟨j, hstart | hadvance⟩ := (hs M hM).exists_step hi hopen
  · refine ⟨m, j, .inl ?_⟩
    simp only [TexPackages.step, setQueue, hm, Option.isSome_map, hstart]
  · refine ⟨m, j, .inr ?_⟩
    simp only [TexPackages.step, setQueue, hm, Option.isSome_map, hadvance]

/-! ## One `tlmgr` for a tree -/

/-- Once a manager has calls, those of earlier managers of its tree have ended. -/
def Retired (s : TexPackages) : Prop :=
  ∀ (m n : Nat) (M N : TexPackageManager), m < n → s.managers[m]? = some M →
    s.managers[n]? = some N → M.command = N.command → N.installQueue.calls ≠ [] →
    ∀ c ∈ M.installQueue.calls, c.finished = true

theorem retired_active (h : Retired s) : Retired s.activeTexPackageManager := by
  intro m n M N hmn hM hN hcommand hcalls
  rcases activeTexPackageManager_managers s with heq | heq <;> rw [heq] at hM hN
  · exact h m n M N hmn hM hN hcommand hcalls
  · rw [List.getElem?_append] at hN
    split at hN
    next hlt =>
      rw [List.getElem?_append_left (by omega)] at hM
      exact h m n M N hmn hM hN hcommand hcalls
    next hge =>
      obtain rfl := List.mem_singleton.mp (List.mem_of_getElem? hN)
      exact absurd rfl hcalls

/-- A change in one queue keeps the earlier managers retired: they have no call that could go on. -/
theorem Retired.setQueue (hs : Retired s) {manager : Nat} {M : TexPackageManager}
    {queue : ReleaseQueue TexOp TexOp.Reply JSString TexResult} (hM : s.managers[manager]? = some M)
    (hqueue : QueueStep M.installQueue queue)
    (ht : t.managers = s.managers.set manager { M with installQueue := queue }) : Retired t := by
  have hlt := (List.getElem?_eq_some_iff.mp hM).1
  have hget : ∀ m L, t.managers[m]? = some L →
      (m = manager ∧ L = { M with installQueue := queue }) ∨
      (m ≠ manager ∧ s.managers[m]? = some L) := by
    intro m L hL
    rw [ht, List.getElem?_set] at hL
    by_cases heq : manager = m
    · rw [if_pos heq, if_pos (heq ▸ hlt)] at hL
      exact .inl ⟨heq.symm, (Option.some.inj hL).symm⟩
    · rw [if_neg heq] at hL
      exact .inr ⟨Ne.symm heq, hL⟩
  intro m n A B hmn hA hB hcommand hcalls
  rcases hget m A hA with ⟨rfl, rfl⟩ | ⟨-, hA⟩
  · rcases hget n B hB with ⟨rfl, -⟩ | ⟨-, hB⟩
    · omega
    · exact absurd (hs m n M B hmn hM hB hcommand hcalls) hqueue.unfinished
  · rcases hget n B hB with ⟨rfl, rfl⟩ | ⟨-, hB⟩
    · refine hs m n A M hmn hA hM hcommand fun hnil => hcalls ?_
      have hlength : queue.calls.length = 0 := by rw [hqueue.length, hnil, List.length_nil]
      exact List.length_eq_zero_iff.mp hlength
    · exact hs m n A B hmn hA hB hcommand hcalls

/-- A call that is queued as `Separated` asks keeps the earlier managers retired. -/
theorem Retired.enqueue (hs : Retired s) {event : TexEvent} (hsep : Separated texts enabled s event)
    {body : TexProg TexResult} {before : List TexPackageManager} {last : TexPackageManager}
    (hbody : queuedBody texts enabled event = some body)
    (hlast : s.activeTexPackageManager.managers = before ++ [last])
    (hcommand : last.command = s.nativeTool)
    (ht : t.managers = before ++ [{ last with installQueue := last.installQueue.append body }]) :
    Retired t := by
  have hactive := retired_active hs
  have hfree := hsep (hbody ▸ rfl)
  rw [Retired, hlast] at hactive
  rw [hlast] at hfree
  intro m n A B hmn hA hB hsame hcalls
  rw [ht] at hA hB
  have hn : n < before.length + 1 := by simpa using (List.getElem?_eq_some_iff.mp hB).1
  rw [List.getElem?_append_left (by omega)] at hA
  have hA' : (before ++ [last])[m]? = some A := by
    rwa [List.getElem?_append_left (by omega)]
  rw [List.getElem?_append] at hB
  split at hB
  next hlt =>
    exact hactive m n A B hmn hA' (by rwa [List.getElem?_append_left hlt]) hsame hcalls
  next hge =>
    obtain rfl := List.mem_singleton.mp (List.mem_of_getElem? hB)
    exact hfree m A hA' (by simp; omega) (hsame.trans hcommand)

/-- **Every step that meets the condition keeps the earlier managers retired.** -/
theorem Retired.step {event : TexEvent} (hs : Retired s) (hsep : Separated texts enabled s event)
    (h : TexPackages.step texts enabled s event = some t) : Retired t := by
  rcases step_managers h with heq | ⟨manager, M, queue, hM, hqueue, heq⟩ | heq |
    ⟨body, before, last, hbody, hlast, hcommand, heq⟩
  · rw [Retired, heq]
    exact hs
  · exact hs.setQueue hM hqueue heq
  · rw [Retired, heq]
    exact retired_active hs
  · exact hs.enqueue hsep hbody hlast hcommand heq

theorem inProgress_of_runsTlmgr {c : TexCall} (h : runsTlmgr c = true) :
    c.inProgress = true := by
  rw [runsTlmgr] at h
  split at h
  next hawaiting hleft => simp [QueuedCall.inProgress, hawaiting, hleft, Prog.isDone]
  next => cases h

theorem not_finished_of_runsTlmgr {c : TexCall} (h : runsTlmgr c = true) :
    c.finished = false := by
  rw [runsTlmgr] at h
  split at h
  next hawaiting hleft => simp [QueuedCall.finished, hleft, Prog.isDone]
  next => cases h

/-- Lawful queues of which only the last one of each tree has calls left exclude each other. -/
theorem Orderly.exclusive (hs : Orderly s) (hretired : Retired s) : Exclusive s := by
  intro m n M N j k c e hM hN hcommand hc he hcruns heruns
  have hlater : ∀ {m n : Nat} {M N : TexPackageManager} {c e : TexCall}, m < n →
      s.managers[m]? = some M → s.managers[n]? = some N → M.command = N.command →
      c ∈ M.installQueue.calls → e ∈ N.installQueue.calls → runsTlmgr c = true → False := by
    intro m n M N c e hmn hM hN hcommand hc he hruns
    have hfinished := hretired m n M N hmn hM hN hcommand (List.ne_nil_of_mem he) c hc
    rw [not_finished_of_runsTlmgr hruns] at hfinished
    cases hfinished
  rcases Nat.lt_trichotomy m n with hlt | rfl | hgt
  · exact (hlater hlt hM hN hcommand (List.mem_of_getElem? hc) (List.mem_of_getElem? he) hcruns).elim
  · obtain rfl : M = N := Option.some.inj (hM.symm.trans hN)
    exact ⟨rfl, (hs M (List.mem_of_getElem? hM)).exclusive hc he (inProgress_of_runsTlmgr hcruns)
      (inProgress_of_runsTlmgr heruns)⟩
  · exact (hlater hgt hN hM hcommand.symm (List.mem_of_getElem? he) (List.mem_of_getElem? hc)
      heruns).elim

theorem orderly_of_reachable {permitted : TexPackages → TexEvent → Prop}
    (h : (system texts enabled).Reachable permitted s) : Orderly s :=
  h.invariant (fun _ hM => nomatch hM) fun _ _ _ _ _ hs hstep => hs.step hstep

end Steps

/-- **Calls to the package manager.**  In every run each call is released exactly once, when its
body ended, and some call can go on as long as one has not ended, whatever the commands do.  In runs
that queue a call only while the other managers of its tree have none left, no two `tlmgr` run for
one tree. -/
theorem serialized (texts : TexTexts) (enabled : Bool) :
    (∀ s, (system texts enabled).Reachable (fun _ _ => True) s → ReleasedOnce texts enabled s) ∧
    (∀ s, (system texts enabled).Reachable (Separated texts enabled) s → Exclusive s) := by
  refine ⟨fun s hs => (orderly_of_reachable hs).releasedOnce, fun s hs => ?_⟩
  refine (orderly_of_reachable hs).exclusive (hs.invariant ?_ ?_)
  · intro m n M N _ hM
    cases hM
  · exact fun s event t _ hsep hretired hstep => hretired.step hsep hstep

/-- An update is running when another tree is activated, used, and left again: the next update is
queued in a manager of its own, and runs beside the first. -/
theorem overlapping : ∃ texts, ¬ ∀ s, (system texts true).Reachable (fun _ _ => True) s →
    Exclusive s := by
  refine ⟨⟨fun _ => [], fun _ _ => none, fun _ => false⟩, fun hexclusive => ?_⟩
  have hreach := @System.reachable_after _ _
    (system ⟨fun _ => [], fun _ _ => none, fun _ => false⟩ true) (fun _ _ => True)
    (fun _ _ => true) (fun _ _ _ => trivial)
    [.update 0, .turn 0 0, .applyEnvironment (some (js "/opt/tlmgr")), .update 1,
      .applyEnvironment none, .update 2, .turn 2 0]
  have hboth := hexclusive _ hreach 0 2 _ _ 0 0 _ _ rfl rfl rfl rfl rfl rfl rfl
  exact absurd hboth.1 (by decide)

end TexPackages

end Typr
