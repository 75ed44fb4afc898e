import TyprCompanion.Compile.TexPackageManager
import TyprCompanion.Server.CompanionServer

/-!
# Aborting a compilation

`compileProject` of `server.ts` from the request to the last process, and `shutdownTyprServer`
aborting the request in between.

* `CompileOp`, `compileProject` — the operations of a compilation, those without an `await` among
  them, and the program.
* `Compilation`, `Compilation.step` — a compilation with its two signals; it is aborted, its
  deadline passes, or what it waits for is answered.
* `AbortObserved` — every native process there is after the abort knows that it has to stop.
* `Covers` — where in the program the abort is relayed.
* **`Compilation.abort_observed`** — the abort is observed when it lands behind the creation of the
  directory, and no probe of a tool runs then or is started afterwards.
* `Compilation.abort_lost` — it is lost before that.
-/

namespace Typr

open Core

/-- The native tools of a compilation. -/
inductive NativeTool where
  | latexmk
  | pdflatex

/-- `NativeProcessResult` -/
structure NativeProcessResult where
  exitCode : Option Nat
  stdout : JSString
  stderr : JSString

/-- What a compilation throws: the errors with a code, and all others by their message. -/
inductive CompileFault where
  | nativeProcess (code message : JSString)
  | compileOutput (code message : JSString)
  | other (message : JSString)

/-- What a compilation does; the ones marked so without waiting. -/
inductive CompileOp where
  | isPdflatexAvailable
  | mkdtemp
  /-- `setTimeout(() => deadline.abort(), …)`; does not wait -/
  | setTimeout
  /-- `signal?.addEventListener("abort", relayAbort, …)`; does not wait -/
  | addEventListener
  | materializeProjectFiles
  /-- `nativeToolAvailable`: runs the tool with `--version` and without a signal -/
  | nativeToolAvailable (tool : NativeTool)
  | prepareCompilerEnvironment
  /-- `runNativeProcess` from the start of the process to its end -/
  | runNativeProcess (tool : NativeTool) (forceRebuild : Bool)
  /-- `await previous` in the package manager -/
  | previousInstall
  /-- `deadline.signal.aborted`; does not wait -/
  | deadlineAborted
  | packageManagerEnvironment
  /-- `runTexPackageManagerCommand` from the start of `tlmgr` to its end -/
  | runTlmgr (args : List JSString) (timeoutMs : Nat)
  /-- The files read after the last process, and the result made of them. -/
  | collectOutput (nativeResult : NativeProcessResult)
  /-- `clearTimeout(timeout)`; does not wait -/
  | clearTimeout
  /-- `signal?.removeEventListener("abort", relayAbort)`; does not wait -/
  | removeEventListener
  | rm

abbrev CompileOp.Reply : CompileOp → Type
  | isPdflatexAvailable => Except CompileFault Bool
  | nativeToolAvailable _ | deadlineAborted => Bool
  | runNativeProcess .. => Except CompileFault NativeProcessResult
  | runTlmgr .. => Except JSString CommandResult
  | packageManagerEnvironment => Except JSString Unit
  | collectOutput _ => Except CompileFault CompileResult
  | setTimeout | addEventListener | clearTimeout | removeEventListener | previousInstall => Unit
  | mkdtemp | materializeProjectFiles | prepareCompilerEnvironment | rm => Except CompileFault Unit

/-- A program of a compilation. -/
abbrev CompileProg (α : Type) := Prog CompileOp CompileOp.Reply CompileFault α

/-- The program is suspended for this. -/
def CompileOp.waits : CompileOp → Bool
  | setTimeout | addEventListener | deadlineAborted | clearTimeout | removeEventListener => false
  | _ => true

/-- A native process runs while the program waits for this. -/
def CompileOp.runsProcess : CompileOp → Bool
  | isPdflatexAvailable | nativeToolAvailable _ | runNativeProcess .. | runTlmgr .. => true
  | _ => false

/-- The process was given the deadline's signal. -/
def CompileOp.signalled : CompileOp → Bool
  | runNativeProcess .. | runTlmgr .. => true
  | _ => false

namespace Compilation

/-! ## The program -/

def MAX_PACKAGE_RESOLUTION_ROUNDS : Nat := 3

def nativeToolAvailable (tool : NativeTool) : CompileProg Bool :=
  .perform (.nativeToolAvailable tool) .pure

/-- `runNativeProcess` -/
def runNativeProcess (tool : NativeTool) (forceRebuild : Bool) :
    CompileProg NativeProcessResult := do
  .perform .prepareCompilerEnvironment Prog.ofExcept
  .perform (.runNativeProcess tool forceRebuild) Prog.ofExcept

/-- The passes of `pdflatex`, by number. -/
def runPasses : List Nat → NativeProcessResult → CompileProg NativeProcessResult
  | [], result => pure result
  | pass :: rest, _ => do
      let result ← runNativeProcess .pdflatex false
      let result := { result with
        stdout := js "--- pdflatex pass " ++ jsNat pass ++ js " ---\n" ++ result.stdout }
      if result.exitCode ≠ some 0 then return result
      runPasses rest result

/-- `runLatexProjectOnce` -/
def runLatexProjectOnce (forceRebuild : Bool) : CompileProg NativeProcessResult := do
  if ← nativeToolAvailable .latexmk then runNativeProcess .latexmk forceRebuild
  else runPasses [1, 2, 3] ⟨some 0, [], []⟩

/-- What a call of the package manager does, done for a compilation. -/
def ofTexProg {α : Type} : TexProg α → CompileProg α
  | .pure a => .pure a
  | .throw message => .throw (.other message)
  | .perform (.aborted _) next => .perform .deadlineAborted fun aborted => ofTexProg (next aborted)
  | .perform (.runCommand args _ timeoutMs) next => .perform .packageManagerEnvironment fun
      | .error message => ofTexProg (next (.error message))
      | .ok () => .perform (.runTlmgr args timeoutMs) fun result => ofTexProg (next result)

section Latex

variable (texts : TexTexts) (enabled : Bool)

/-- `resolveCompilerFailure`, with the place in the queue -/
def resolveCompilerFailure (output : JSString) : CompileProg TexPackageResolution := do
  let files := (texts.extractMissingTexFiles output).take MAX_FILES_PER_ROUND
  if files = [] then return ⟨[], [], false, none⟩
  if enabled = false then
    return ⟨files, [], false, some (js "automatic TeX package installation is disabled")⟩
  .perform .previousInstall .pure
  ofTexProg (resolveMissingFiles texts files 0)

/-- The loop of `runLatexProject`, with the notes so far. -/
def resolutionRounds : Nat → NativeProcessResult → List JSString →
    CompileProg (NativeProcessResult × List JSString)
  | 0, result, notes => pure (result, notes)
  | round + 1, result, notes => do
      if result.exitCode = some 0 then return (result, notes)
      let resolution ← resolveCompilerFailure texts enabled
        (result.stdout ++ js "\n" ++ result.stderr)
      if resolution.installed = false then
        match resolution.files, resolution.diagnostic.filter (· ≠ []) with
        | _ :: _, some diagnostic =>
            return (result, notes ++ [js "[typr] Could not install package for " ++
              joinComma resolution.files ++ js ": " ++ diagnostic])
        | _, _ => return (result, notes)
      let result ← runLatexProjectOnce true
      resolutionRounds round result (notes ++ [js "[typr] Installed " ++
        joinComma resolution.packages ++ js " for " ++ joinComma resolution.files ++
        js "; retrying compilation."])
where
  /-- `names.join(", ")` -/
  joinComma : List JSString → JSString
    | [] => []
    | [name] => name
    | name :: rest => name ++ js ", " ++ joinComma rest

/-- `runLatexProject` -/
def runLatexProject : CompileProg NativeProcessResult := do
  let first ← runLatexProjectOnce false
  let (result, notes) ← resolutionRounds texts enabled MAX_PACKAGE_RESOLUTION_ROUNDS first []
  if notes = [] then return result
  return { result with stderr := JSString.join 0x0A notes ++ js "\n" ++ result.stderr }

/-- What the `catch` of `compileProject` makes of an error. -/
def compileFailure (engine : JSString) : CompileFault → CompileResult
  | .nativeProcess code message | .compileOutput code message =>
      .failure engine code message [] none none
  | .other message => .failure engine (js "native-compiler-error") message [] none none

/-- The `finally` of `compileProject`. -/
def cleanup : CompileProg Unit := do
  .perform .clearTimeout .pure
  .perform .removeEventListener .pure
  .perform .rm Prog.ofExcept

/-- The `try` of `compileProject`. -/
def compileBody : CompileProg CompileResult := do
  .perform .materializeProjectFiles Prog.ofExcept
  let nativeResult ← runLatexProject texts enabled
  .perform (.collectOutput nativeResult) Prog.ofExcept

/-- `compileProject` -/
def compileProject (engine : JSString) : CompileProg CompileResult := do
  let available ← .perform .isPdflatexAvailable Prog.ofExcept
  if available = false then
    return .failure engine (js "native-compiler-unavailable")
      (js "pdflatex is not available on this host. Install a native TeX distribution and try again.")
      [] none none
  .perform .mkdtemp Prog.ofExcept
  .perform .setTimeout .pure
  .perform .addEventListener .pure
  ((compileBody texts enabled).tryCatch fun error => pure (compileFailure engine error)).ensuring
    cleanup

end Latex

end Compilation

/-! ## The system -/

/-- What became of the listener that relays the abort. -/
inductive Relay where
  | unregistered
  | registered
  | removed
  deriving DecidableEq

/-- A compilation: whether the request was aborted, the timer and the abort of the deadline, the
listener, whether the process that runs knows that it has to stop, and what is left to do. -/
structure Compilation where
  aborted : Bool
  timer : Bool
  deadlineAborted : Bool
  relay : Relay
  observed : Bool
  left : CompileProg CompileResult

inductive CompileEvent where
  /-- `compilation.abort()` of `shutdownTyprServer` -/
  | abort
  /-- The timer fires. -/
  | timeout
  /-- What the program waits for is answered. -/
  | answer (reply : (op : CompileOp) → op.Reply)

namespace Compilation

/-- The operation the program waits for. -/
def pending (s : Compilation) : Option CompileOp :=
  match s.left with
  | .perform op _ => some op
  | _ => none

/-- An operation that does not wait: what it does, and its reply. -/
def immediate (s : Compilation) : (op : CompileOp) → Option (Compilation × op.Reply)
  | .setTimeout => some ({ s with timer := true }, ())
  | .addEventListener => some ({ s with relay := .registered }, ())
  | .deadlineAborted => some (s, s.deadlineAborted)
  | .clearTimeout => some ({ s with timer := false }, ())
  | .removeEventListener => some ({ s with relay := .removed }, ())
  | _ => none

/-- The program waits.  A process with the signal is stopped at once if the deadline was aborted. -/
def wait (s : Compilation) (left : CompileProg CompileResult) : Compilation :=
  { s with
    left := left
    observed := match left with
      | .perform op _ => op.signalled && s.deadlineAborted
      | _ => false }

/-- The program runs up to its next `await`. -/
def resume (s : Compilation) : CompileProg CompileResult → Compilation
  | .perform op next => match s.immediate op with
      | some (t, reply) => t.resume (next reply)
      | none => s.wait (.perform op next)
  | .pure result => s.wait (.pure result)
  | .throw error => s.wait (.throw error)

/-- `deadline.abort()`: a process with the signal hears of it. -/
def abortDeadline (s : Compilation) : Compilation :=
  { s with
    deadlineAborted := true
    observed := s.observed || s.pending.any CompileOp.signalled }

/-- One step. -/
def step (s : Compilation) : CompileEvent → Option Compilation
  | .abort =>
      let t := { s with aborted := true }
      some (if s.aborted = false ∧ s.relay = .registered then t.abortDeadline else t)
  | .timeout => if s.timer = true then some { s with timer := false }.abortDeadline else none
  | .answer reply => match s.left with
      | .perform op next => some (s.resume (next (reply op)))
      | _ => none

/-- A request was admitted. -/
def admitted (program : CompileProg CompileResult) : Compilation :=
  resume ⟨false, false, false, .unregistered, false, program⟩ program

def system (texts : TexTexts) (enabled : Bool) (engine : JSString) :
    System Compilation CompileEvent :=
  ⟨admitted (compileProject texts enabled engine), step⟩

/-- After the abort every native process knows that it has to stop. -/
def AbortObserved (s : Compilation) : Prop :=
  s.aborted = true → s.pending.any CompileOp.runsProcess = true → s.observed = true

/-- A probe of a tool runs. -/
def probing (s : Compilation) : Bool :=
  match s.pending with
  | some (.nativeToolAvailable _) => true
  | _ => false

/-- The abort lands when the program is past `mkdtemp` and no probe runs, and no probe is started
after it. -/
def Timely (s : Compilation) : CompileEvent → Prop
  | .abort => match s.pending with
      | some .isPdflatexAvailable | some .mkdtemp | some (.nativeToolAvailable _) => False
      | _ => True
  | .answer reply => s.aborted = true →
      ∀ t, s.step (.answer reply) = some t → t.probing = false
  | .timeout => True

/-! ## Where the abort is relayed -/

end Compilation

/-- The operations of each phase: before the listener is registered, while it is, and behind it. -/
def CompileOp.inPhase : CompileOp → Relay → Bool
  | isPdflatexAvailable, relay | mkdtemp, relay | setTimeout, relay | addEventListener, relay =>
      relay = .unregistered
  | rm, relay => relay = .removed
  | _, relay => relay = .registered

/-- The phase behind an operation. -/
def CompileOp.relayAfter : CompileOp → Relay → Relay
  | addEventListener, _ => .registered
  | removeEventListener, _ => .removed
  | _, relay => relay

/-- The program is in a phase, and stays within the operations of each. -/
def Covers {α : Type} : Relay → CompileProg α → Prop
  | relay, .perform op next =>
      op.inPhase relay = true ∧ ∀ reply, Covers (op.relayAfter relay) (next reply)
  | _, _ => True

/-- An operation while the abort is relayed, after which it still is. -/
def CompileOp.Relayed (op : CompileOp) : Prop :=
  op.inPhase .registered = true ∧ op.relayAfter .registered = .registered

namespace Compilation

section Phases

theorem only_ofTexProg {α : Type} (p : TexProg α) : (ofTexProg p).Only CompileOp.Relayed := by
  induction p with
  | pure a => exact trivial
  | throw message => exact trivial
  | perform op next ih =>
      cases op with
      | aborted signal => exact ⟨⟨rfl, rfl⟩, fun aborted => ih aborted⟩
      | runCommand args signal timeoutMs =>
          rw [ofTexProg]
          refine ⟨⟨rfl, rfl⟩, fun environment => ?_⟩
          cases environment with
          | error message => exact ih _
          | ok _ => exact ⟨⟨rfl, rfl⟩, fun result => ih result⟩

theorem only_nativeToolAvailable (tool : NativeTool) :
    (nativeToolAvailable tool).Only CompileOp.Relayed := ⟨⟨rfl, rfl⟩, fun _ => trivial⟩

theorem only_runNativeProcess (tool : NativeTool) (forceRebuild : Bool) :
    (runNativeProcess tool forceRebuild).Only CompileOp.Relayed := by
  refine Prog.only_bind ⟨⟨rfl, rfl⟩, fun reply => Prog.only_ofExcept reply⟩ fun _ => ?_
  exact ⟨⟨rfl, rfl⟩, fun reply => Prog.only_ofExcept reply⟩

theorem only_runPasses (passes : List Nat) (result : NativeProcessResult) :
    (runPasses passes result).Only CompileOp.Relayed := by
  induction passes generalizing result with
  | nil => exact trivial
  | cons pass rest ih =>
      refine Prog.only_bind (only_runNativeProcess ..) fun result => ?_
      dsimp only
      split
      · exact trivial
      · exact ih _

theorem only_runLatexProjectOnce (forceRebuild : Bool) :
    (runLatexProjectOnce forceRebuild).Only CompileOp.Relayed := by
  refine Prog.only_bind (only_nativeToolAvailable _) fun available => ?_
  cases available with
  | true => exact only_runNativeProcess ..
  | false => exact only_runPasses ..

variable (texts : TexTexts) (enabled : Bool)

theorem only_resolveCompilerFailure (output : JSString) :
    (resolveCompilerFailure texts enabled output).Only CompileOp.Relayed := by
  rw [resolveCompilerFailure]
  split
  · exact trivial
  split
  · exact trivial
  · exact Prog.only_bind ⟨⟨rfl, rfl⟩, fun _ => trivial⟩ fun _ => only_ofTexProg _

theorem only_resolutionRounds (rounds : Nat) (result : NativeProcessResult) (notes : List JSString) :
    (resolutionRounds texts enabled rounds result notes).Only CompileOp.Relayed := by
  induction rounds generalizing result notes with
  | zero => exact trivial
  | succ round ih =>
      rw [resolutionRounds]
      split
      · exact trivial
      refine Prog.only_bind (only_resolveCompilerFailure ..) fun resolution => ?_
      split
      · split <;> exact trivial
      · exact Prog.only_bind (only_runLatexProjectOnce _) fun _ => ih _ _

theorem only_compileBody : (compileBody texts enabled).Only CompileOp.Relayed := by
  refine Prog.only_bind ⟨⟨rfl, rfl⟩, fun reply => Prog.only_ofExcept reply⟩ fun _ => ?_
  refine Prog.only_bind ?_ fun _ => ⟨⟨rfl, rfl⟩, fun reply => Prog.only_ofExcept reply⟩
  refine Prog.only_bind (only_runLatexProjectOnce _) fun first => ?_
  refine Prog.only_bind (only_resolutionRounds ..) fun rounds => ?_
  dsimp only
  split <;> exact trivial

/-- Behind the listener only the directory is removed. -/
theorem covers_cleanup {α : Type} (f : Unit → CompileProg α) (hf : ∀ u, (f u).isDone = true) :
    Covers .registered (cleanup.bind f) := by
  refine ⟨rfl, fun _ => ⟨rfl, fun _ => ⟨rfl, fun reply => ?_⟩⟩⟩
  cases reply with
  | error error => exact trivial
  | ok u =>
      show Covers .removed (f u)
      cases h : f u with
      | perform op next =>
          have hdone := hf u
          rw [h] at hdone
          cases hdone
      | pure a => exact trivial
      | throw e => exact trivial

/-- The `finally` takes the listener away, whatever the `try` does. -/
theorem covers_ensuring {α : Type} {p : CompileProg α} (h : p.Only CompileOp.Relayed) :
    Covers .registered (p.ensuring cleanup) := by
  induction p with
  | pure a => exact covers_cleanup _ fun _ => rfl
  | throw error =>
      show Covers .registered ((cleanup.bind fun _ => .throw error).bind _)
      refine ⟨rfl, fun _ => ⟨rfl, fun _ => ⟨rfl, fun reply => ?_⟩⟩⟩
      cases reply <;> exact trivial
  | perform op next ih =>
      refine ⟨h.1.1, fun reply => ?_⟩
      rw [h.1.2]
      exact ih reply (h.2 reply)

/-- **The phases of a compilation**: everything that runs a native process, but for the question
whether there is a compiler, stands between the registration of the listener and its removal. -/
theorem covers_compileProject (engine : JSString) :
    Covers .unregistered (compileProject texts enabled engine) := by
  refine ⟨rfl, fun available => ?_⟩
  cases available with
  | error error => exact trivial
  | ok available =>
      cases available with
      | false => exact trivial
      | true =>
          refine ⟨rfl, fun directory => ?_⟩
          cases directory with
          | error error => exact trivial
          | ok _ =>
              refine ⟨rfl, fun _ => ⟨rfl, fun _ => covers_ensuring ?_⟩⟩
              exact Prog.only_tryCatch (only_compileBody ..) fun _ => trivial

end Phases

/-! ## The steps -/

section Steps

variable {intact : Prop} {s t : Compilation}

/-- What holds when a program goes on: it is in the phase its listener says.  In an intact run the
deadline is aborted if the abort landed while it was relayed, and a request aborted before that has
nothing left to do. -/
structure Ready (intact : Prop) (s : Compilation) (p : CompileProg CompileResult) : Prop where
  covers : Covers s.relay p
  relayed : intact → s.aborted = true → s.relay = .registered → s.deadlineAborted = true
  ended : intact → s.aborted = true → s.relay = .unregistered → p.isDone = true

/-- **The invariant**: besides, the program is suspended, and a process with the signal was told when
the deadline was aborted. -/
structure Invariant (intact : Prop) (s : Compilation) : Prop extends Ready intact s s.left where
  waits : ∀ op, s.pending = some op → op.waits = true
  told : s.deadlineAborted = true → s.pending.any CompileOp.signalled = true → s.observed = true

theorem immediate_cases {op : CompileOp} {reply : op.Reply} (h : s.immediate op = some (t, reply)) :
    t.aborted = s.aborted ∧ t.deadlineAborted = s.deadlineAborted ∧
      t.relay = op.relayAfter s.relay := by
  cases op <;> cases h <;> exact ⟨rfl, rfl, rfl⟩

theorem waits_of_immediate {op : CompileOp} (h : s.immediate op = none) : op.waits = true := by
  cases op <;> first
    | rfl
    | cases h

theorem relayAfter_of_waits {op : CompileOp} (h : op.waits = true) (relay : Relay) :
    op.relayAfter relay = relay := by
  cases op <;> first
    | rfl
    | cases h

/-- A listener is registered once, and not for an aborted request that is over. -/
theorem Ready.immediate {op : CompileOp} {next : op.Reply → CompileProg CompileResult}
    {reply : op.Reply} (hs : Ready intact s (.perform op next)) (h : s.immediate op = some (t, reply)) :
    Ready intact t (next reply) := by
  obtain ⟨haborted, hdeadline, hrelay⟩ := immediate_cases h
  have hregistered : intact → s.aborted = true → s.relay ≠ .unregistered :=
    fun hintact habort hphase => nomatch hs.ended hintact habort hphase
  refine ⟨hrelay ▸ hs.covers.2 reply, fun hintact habort hphase => ?_,
    fun hintact habort hphase => ?_⟩
  · rw [haborted] at habort
    rw [hdeadline]
    refine hs.relayed hintact habort ?_
    have hin := hs.covers.1
    rw [hrelay] at hphase
    cases op <;> simp_all [CompileOp.relayAfter, CompileOp.inPhase]
  · rw [haborted] at habort
    rw [hrelay] at hphase
    refine absurd ?_ (hregistered hintact habort)
    cases op <;> simp_all [CompileOp.relayAfter]

theorem Ready.wait {p : CompileProg CompileResult} (hs : Ready intact s p)
    (hwaits : ∀ op next, p = .perform op next → op.waits = true) :
    Invariant intact (s.wait p) where
  covers := hs.covers
  relayed := hs.relayed
  ended := hs.ended
  waits op hop := by
    cases p with
    | perform op' next => exact Option.some.inj hop ▸ hwaits op' next rfl
    | pure result => cases hop
    | throw error => cases hop
  told hdeadline hsignalled := by
    cases p with
    | perform op next =>
        have hop : op.signalled = true := hsignalled
        have hs' : s.deadlineAborted = true := hdeadline
        simp [Compilation.wait, hop, hs']
    | pure result => cases hsignalled
    | throw error => cases hsignalled

/-- **Running up to the next `await`** establishes the invariant. -/
theorem Ready.resume {p : CompileProg CompileResult} (hs : Ready intact s p) :
    Invariant intact (s.resume p) := by
  induction p generalizing s with
  | pure result => exact hs.wait nofun
  | throw error => exact hs.wait nofun
  | perform op next ih =>
      rw [Compilation.resume]
      split
      next t reply himmediate => exact ih reply (hs.immediate himmediate)
      next himmediate =>
        refine hs.wait fun op' next' h => ?_
        obtain ⟨rfl, -⟩ := Prog.perform.inj h
        exact waits_of_immediate himmediate

@[simp] theorem aborted_resume (s : Compilation) (p : CompileProg CompileResult) :
    (s.resume p).aborted = s.aborted := by
  induction p generalizing s with
  | pure result => rfl
  | throw error => rfl
  | perform op next ih =>
      rw [Compilation.resume]
      split
      next himmediate => exact (ih _ _).trans (immediate_cases himmediate).1
      next => rfl

theorem Invariant.abortDeadline (hs : Invariant intact s) : Invariant intact s.abortDeadline where
  covers := hs.covers
  relayed _ _ _ := rfl
  ended := hs.ended
  waits := hs.waits
  told _ hsignalled := by
    have hpending : s.pending.any CompileOp.signalled = true := hsignalled
    simp [Compilation.abortDeadline, hpending]

/-- What is pending before the listener is registered. -/
theorem Invariant.pending_unregistered (hs : Invariant intact s) (hrelay : s.relay = .unregistered)
    (hopen : s.left.isDone = false) :
    s.pending = some .isPdflatexAvailable ∨ s.pending = some .mkdtemp := by
  have hcovers := hs.covers
  have hwaits := hs.waits
  rw [hrelay] at hcovers
  unfold pending at hwaits ⊢
  cases hleft : s.left with
  | pure result => rw [hleft] at hopen; cases hopen
  | throw error => rw [hleft] at hopen; cases hopen
  | perform op next =>
      rw [hleft] at hcovers hwaits
      have hphase := hcovers.1
      have hstays := hwaits op rfl
      cases op <;> simp_all [CompileOp.inPhase, CompileOp.waits]

theorem exists_pending {f : CompileOp → Bool} (h : s.pending.any f = true) :
    ∃ op next, s.left = .perform op next ∧ s.pending = some op ∧ f op = true := by
  unfold pending at h ⊢
  cases hleft : s.left with
  | pure result => rw [hleft] at h; cases h
  | throw error => rw [hleft] at h; cases h
  | perform op next =>
      rw [hleft] at h
      exact ⟨op, next, rfl, rfl, h⟩

/-- A process with the signal runs only while the abort is relayed. -/
theorem Invariant.registered_of_signalled (hs : Invariant intact s)
    (h : s.pending.any CompileOp.signalled = true) : s.relay = .registered := by
  obtain ⟨op, next, hleft, -, hsignalled⟩ := exists_pending h
  have hphase := (hleft ▸ hs.covers).1
  cases op <;> simp_all [CompileOp.inPhase, CompileOp.signalled]

/-- The processes of a phase: while the abort is relayed all but the probes have the signal, and
behind it there are none. -/
theorem Invariant.process_cases (hs : Invariant intact s)
    (h : s.pending.any CompileOp.runsProcess = true) :
    (s.relay = .unregistered ∧ s.left.isDone = false) ∨
    (s.relay = .registered ∧
      (s.probing = true ∨ s.pending.any CompileOp.signalled = true)) := by
  obtain ⟨op, next, hleft, hpending, hprocess⟩ := exists_pending h
  have hphase := (hleft ▸ hs.covers).1
  rw [probing, hpending, hleft]
  cases op <;> simp_all [CompileOp.inPhase, CompileOp.runsProcess, CompileOp.signalled, Prog.isDone]

/-- **Every step keeps the invariant**; an intact run is one whose steps are timely. -/
theorem Invariant.step {event : CompileEvent} (hs : Invariant intact s)
    (htimely : intact → Timely s event) (h : Compilation.step s event = some t) :
    Invariant intact t := by
  cases event with
  | abort =>
      obtain rfl := Option.some.inj h
      split
      next hrelay =>
        -- the listener aborts the deadline
        refine ⟨⟨hs.covers, fun _ _ _ => rfl, fun _ _ hphase => ?_⟩, hs.waits,
          hs.abortDeadline.told⟩
        have hregistered : s.relay = .registered := hrelay.2
        exact absurd (hregistered.symm.trans hphase) nofun
      next hrelay =>
        refine ⟨⟨hs.covers, fun hintact _ hphase => ?_, fun hintact _ hphase => ?_⟩, hs.waits,
          hs.told⟩
        · refine hs.relayed hintact ?_ hphase
          by_contra hfalse
          exact hrelay ⟨Bool.eq_false_iff.mpr hfalse, hphase⟩
        · -- a timely abort does not land before the listener is registered
          by_contra hopen
          have hnone := htimely hintact
          rcases hs.pending_unregistered hphase (Bool.eq_false_iff.mpr hopen) with hpending | hpending
          · simp [Timely, hpending] at hnone
          · simp [Timely, hpending] at hnone
  | timeout =>
      simp only [Compilation.step, Option.ite_none_right_eq_some, Option.some.injEq] at h
      obtain ⟨-, rfl⟩ := h
      have htimer : Invariant intact { s with timer := false } :=
        ⟨⟨hs.covers, hs.relayed, hs.ended⟩, hs.waits, hs.told⟩
      exact htimer.abortDeadline
  | answer reply =>
      rw [Compilation.step] at h
      split at h
      next op next hleft =>
        obtain rfl := Option.some.inj h
        have hwaits : op.waits = true := hs.waits op (by simp [pending, hleft])
        have hcovers := hs.covers
        have hover := hs.ended
        rw [hleft] at hcovers hover
        refine Ready.resume ⟨?_, hs.relayed, fun hintact habort hphase => ?_⟩
        · exact relayAfter_of_waits hwaits s.relay ▸ hcovers.2 (reply op)
        · exact nomatch hover hintact habort hphase
      next => cases h

/-- In a timely run no probe runs after the abort. -/
theorem not_probing_step {event : CompileEvent} (hs : s.aborted = true → s.probing = false)
    (htimely : Timely s event) (h : Compilation.step s event = some t) :
    t.aborted = true → t.probing = false := by
  intro habort
  cases event with
  | abort =>
      have hsame : t.pending = s.pending := by
        obtain rfl := Option.some.inj h
        split <;> rfl
      rw [probing, hsame]
      rw [Timely] at htimely
      split at htimely
      · exact htimely.elim
      · exact htimely.elim
      · exact htimely.elim
      next hprobe =>
        split
        next tool hpending => exact absurd hpending (hprobe tool)
        next => rfl
  | timeout =>
      simp only [Compilation.step, Option.ite_none_right_eq_some, Option.some.injEq] at h
      obtain ⟨-, rfl⟩ := h
      exact hs habort
  | answer reply =>
      refine htimely ?_ t h
      rw [Compilation.step] at h
      split at h
      next op next hleft =>
        obtain rfl := Option.some.inj h
        rwa [aborted_resume] at habort
      next => cases h

theorem invariant_admitted (intact : Prop) (texts : TexTexts) (enabled : Bool)
    (engine : JSString) : Invariant intact (admitted (compileProject texts enabled engine)) :=
  Ready.resume ⟨covers_compileProject texts enabled engine, fun _ => nofun, fun _ => nofun⟩

theorem invariant_of_reachable {texts : TexTexts} {enabled : Bool} {engine : JSString}
    {permitted : Compilation → CompileEvent → Prop}
    (hpermitted : ∀ s event, permitted s event → intact → Timely s event)
    (h : (system texts enabled engine).Reachable permitted s) : Invariant intact s :=
  h.invariant (invariant_admitted intact texts enabled engine)
    fun _ _ _ _ hp hs hstep => hs.step (hpermitted _ _ hp) hstep

end Steps

/-- **Aborting a compilation.**  Whenever the abort lands while a compiler or `tlmgr` runs, that
process is told at once.  In every run in which it lands behind the creation of the directory and
apart from the probes, each native process there is after it knows that it has to stop. -/
theorem abort_observed (texts : TexTexts) (enabled : Bool) (engine : JSString) :
    (∀ s, (system texts enabled engine).Reachable (fun _ _ => True) s →
      s.aborted = false → s.pending.any CompileOp.signalled = true →
      ∀ t, s.step .abort = some t → t.pending = s.pending ∧ t.observed = true) ∧
    (∀ s, (system texts enabled engine).Reachable Timely s → AbortObserved s) := by
  refine ⟨fun s hs habort hsignalled t hstep => ?_, fun s hs habort hprocess => ?_⟩
  · have hinv : Invariant False s := invariant_of_reachable (fun _ _ _ => False.elim) hs
    have hrelay := hinv.registered_of_signalled hsignalled
    rw [step, if_pos ⟨habort, hrelay⟩] at hstep
    obtain rfl := Option.some.inj hstep
    refine ⟨rfl, ?_⟩
    have hpending : ({ s with aborted := true } : Compilation).pending.any CompileOp.signalled
        = true := hsignalled
    rw [abortDeadline, hpending, Bool.or_true]
  · have hinv : Invariant True s := invariant_of_reachable (fun _ _ h _ => h) hs
    have hprobing : s.aborted = true → s.probing = false :=
      hs.invariant (I := fun s => s.aborted = true → s.probing = false) (by simp [system, admitted])
        fun _ _ _ _ htimely hs hstep => not_probing_step hs htimely hstep
    rcases hinv.process_cases hprocess with ⟨hrelay, hopen⟩ | ⟨hrelay, hprobe | hsignalled⟩
    · rw [hinv.ended trivial habort hrelay] at hopen
      cases hopen
    · rw [hprobing habort] at hprobe
      cases hprobe
    · exact hinv.told (hinv.relayed trivial habort hrelay) hsignalled

/-- Every operation succeeds. -/
def succeed : (op : CompileOp) → op.Reply
  | .isPdflatexAvailable => .ok true
  | .mkdtemp | .materializeProjectFiles | .prepareCompilerEnvironment | .rm => .ok ()
  | .setTimeout | .addEventListener | .clearTimeout | .removeEventListener | .previousInstall => ()
  | .nativeToolAvailable _ => true
  | .deadlineAborted => false
  | .runNativeProcess .. => .ok ⟨some 0, [], []⟩
  | .packageManagerEnvironment => .ok ()
  | .runTlmgr .. => .ok ⟨some 0, [], []⟩
  | .collectOutput _ => .error (.other [])

/-- The abort lands while the directory is created: `latexmk` is started, and nothing stops it before
the deadline. -/
theorem abort_lost : ¬ ∀ (texts : TexTexts) (enabled : Bool) (engine : JSString) (s : Compilation),
    (system texts enabled engine).Reachable (fun _ _ => True) s → AbortObserved s := by
  intro hobserved
  have hreach := @System.reachable_after _ _
    (system ⟨fun _ => [], fun _ _ => none, fun _ => false⟩ true (js "pdflatex")) (fun _ _ => True)
    (fun _ _ => true) (fun _ _ _ => trivial)
    [.answer succeed, .abort, .answer succeed, .answer succeed, .answer succeed, .answer succeed]
  exact absurd (hobserved _ _ _ _ hreach rfl rfl) (by decide)

end Compilation

end Typr
