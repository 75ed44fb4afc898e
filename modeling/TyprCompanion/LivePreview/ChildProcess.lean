import TyprCompanion.LivePreview.ProtocolLines

/-!
# The TeXpresso child and its pipes

`TexpressoSession` of `texpressoSession.ts` together with the process it owns: what is written to the
child waits for the pipe and is read in order, what the child writes is handled line by line, and its
death is noticed later.

* `TexpressoCommand`, `WrittenCommand`, `EmittedLine` — the two pipes.
* `TexpressoRun` — the fields of the class, the pipes, and what became of its calls.
* `start`, `applyRangeChange`, `getPageCount`, `renderPage`, `onUnexpectedExit`, `close`, `fail`,
  `handleLine` — the methods; a call is followed by what its promise waits for.
* `TexpressoEvent`, `step` — calls, timers, the child and the events of its process.
* `texpressoSystem` — the runs of a session.
-/

namespace Typr

/-! ## The pipes -/

/-- What `send` writes. -/
inductive TexpressoCommand where
  | register (path : JSString)
  | openFile (path content : JSString)
  | resume
  | changeRange (path : JSString) (range : TexpressoRange) (replacement : JSString)
  | pageCount
  | renderPage (page dpi : Nat) (theme : Option TexpressoRenderTheme)
  deriving DecidableEq

/-- A command on its way to the child, and the number of the call of `applyRangeChange` behind it. -/
structure WrittenCommand where
  command : TexpressoCommand
  call : Option Nat
  deriving DecidableEq

/-- A line the child has written; lines appended or truncated carry the number of the call whose
change the child was processing. -/
structure EmittedLine where
  line : ProtocolLine
  call : Option Nat

/-- A `flush` message. -/
def ProtocolLine.isFlush (line : ProtocolLine) : Bool :=
  line.message?.any fun (verb, _) => verb = js "flush"

/-! ## The state -/

structure TexpressoSessionOptions where
  files : List ProjectFile
  timeoutMs : Nat
  /-- `resolve(this.projectRoot, path)` -/
  resolve : JSString → JSString

/-- A waiter for a flush, with the number of its call and the number of lines handled before it. -/
structure FlushWaiter where
  after : Nat
  call : Nat
  since : Nat
  deriving DecidableEq

/-- A call a flush resolved, and the number of lines handled then. -/
structure ResolvedCall where
  waiter : FlushWaiter
  snapshot : TexpressoSnapshot
  handled : Nat
  deriving DecidableEq

/-- A call whose promise was rejected; the flush with the number 0 is the one `start` waits for. -/
inductive SessionCall where
  | flush (call : Nat)
  | pageCount
  | pageImage (page dpi : Nat)
  deriving DecidableEq

/-- What ends the server process. -/
inductive UncaughtError where
  /-- an `error` event of `child.stdin`, which has no listener -/
  | stdin
  /-- thrown while a line was handled -/
  | line (error : JSString)
  deriving DecidableEq

structure TexpressoRun where
  /-- the fields `handleProtocolLine` works on, without the waiters for a flush -/
  protocol : ProtocolState
  flushWaiters : List FlushWaiter
  buffers : Buffers
  closed : Bool
  exitError : Option JSString
  /-- the listeners, each with the error it was called with -/
  unexpectedExitListeners : List (Option JSString)
  /-- how often a flush was waited for -/
  calls : Nat
  resolved : List ResolvedCall
  rejected : List (SessionCall × JSString)
  /-- written to `child.stdin` and not yet in the pipe -/
  unwritten : List WrittenCommand
  inputEnded : Bool
  /-- in the pipe, and not read by the child -/
  stdin : List WrittenCommand
  /-- every line the child has written -/
  emitted : List EmittedLine
  /-- how many of them were handled -/
  handled : Nat
  /-- the call whose change the child is processing -/
  current : Option Nat
  alive : Bool
  /-- whether the `close` event of the child was emitted -/
  exited : Bool
  uncaught : Option UncaughtError

namespace TexpressoRun

/-! ## Methods -/

/-- `commandPath` -/
def commandPath (options : TexpressoSessionOptions) (path : JSString) : JSString :=
  options.resolve (normalizePath path)

/-- The commands of `start`. -/
def startCommands (options : TexpressoSessionOptions) : List TexpressoCommand :=
  (options.files.filterMap fun file => match file with
    | .text path _ => some (.register (commandPath options path))
    | .binary _ _ => none)
  ++ (options.files.filterMap fun file => match file with
    | .text path content => some (.openFile (commandPath options path) content)
    | .binary _ _ => none)
  ++ [.resume]

/-- `start` up to its wait for the initial flush -/
def start (options : TexpressoSessionOptions) : TexpressoRun where
  protocol := .new
  flushWaiters := [⟨0, 0, 0⟩]
  buffers := openBuffers options.files
  closed := false
  exitError := none
  unexpectedExitListeners := []
  calls := 1
  resolved := []
  rejected := []
  unwritten := (startCommands options).map (WrittenCommand.mk · none)
  inputEnded := false
  stdin := []
  emitted := []
  handled := 0
  current := none
  alive := true
  exited := false
  uncaught := none

/-- What `send` throws before it writes. -/
def sendable (s : TexpressoRun) : Except JSString Unit :=
  match s.exitError, s.closed with
  | some error, _ => .error error
  | none, true => .error (js "TeXpresso session is closed.")
  | none, false => .ok ()

/-- `child.stdin.write(command)` -/
def write (command : TexpressoCommand) (call : Option Nat) (s : TexpressoRun) : TexpressoRun :=
  { s with unwritten := s.unwritten ++ [⟨command, call⟩] }

/-- The promise of a call is rejected. -/
def reject (call : SessionCall) (error : JSString) (s : TexpressoRun) : TexpressoRun :=
  { s with rejected := s.rejected ++ [(call, error)] }

/-- `applyRangeChange` up to its wait for a flush -/
def applyRangeChange (options : TexpressoSessionOptions) (path : JSString) (range : TexpressoRange)
    (replacement : JSString) (s : TexpressoRun) : TexpressoRun :=
  match TexpressoSession.applyRangeChange s.buffers s.sendable path range replacement with
  | .error error => { s with calls := s.calls + 1 }.reject (.flush s.calls) error
  | .ok buffers =>
      let waiter : FlushWaiter := ⟨s.protocol.flushCount, s.calls, s.handled⟩
      { s with
        buffers := buffers
        calls := s.calls + 1
        flushWaiters := s.flushWaiters ++ [waiter] }.write
        (.changeRange (commandPath options path) range replacement) (some s.calls)

/-- `waitForPageCount` -/
def waitForPageCount (s : TexpressoRun) : TexpressoRun :=
  if s.exitError.isSome then s
  else { s with protocol.pageCountWaiters := s.protocol.pageCountWaiters + 1 }

/-- `getPageCount` -/
def getPageCount (s : TexpressoRun) : TexpressoRun :=
  match s.sendable with
  | .error error => s.waitForPageCount.reject .pageCount error
  | .ok _ => s.waitForPageCount.write .pageCount none

/-- `waitForPageImage` -/
def waitForPageImage (page dpi : Nat) (s : TexpressoRun) : TexpressoRun :=
  if s.exitError.isSome then s
  else { s with protocol.pageImageWaiters := s.protocol.pageImageWaiters ++ [⟨page, dpi⟩] }

/-- `renderPage` of a page that is not cached -/
def renderPage (page dpi : Nat) (theme : Option TexpressoRenderTheme) (s : TexpressoRun) :
    TexpressoRun :=
  if dpi < TEXPRESSO_WS_LIMITS.minDpi ∨ TEXPRESSO_WS_LIMITS.maxDpi < dpi then
    s.reject (.pageImage page dpi) (js "TeXpresso render DPI must be between "
      ++ jsNat TEXPRESSO_WS_LIMITS.minDpi ++ js " and " ++ jsNat TEXPRESSO_WS_LIMITS.maxDpi ++ js ".")
  else match s.sendable with
    | .error error => (s.waitForPageImage page dpi).reject (.pageImage page dpi) error
    | .ok _ => (s.waitForPageImage page dpi).write (.renderPage page dpi theme) none

/-- `onUnexpectedExit`; a listener that comes late is called at once. -/
def onUnexpectedExit (s : TexpressoRun) : TexpressoRun :=
  { s with unexpectedExitListeners := s.unexpectedExitListeners
      ++ [if s.closed then none else s.exitError] }

/-- `close`; `child.stdin.end()` writes nothing. -/
def close (s : TexpressoRun) : TexpressoRun :=
  if s.closed then s else { s with closed := true, inputEnded := true }

/-- The calls that wait. -/
def waiting (s : TexpressoRun) : List SessionCall :=
  s.flushWaiters.map (fun waiter => .flush waiter.call)
    ++ s.protocol.pageImageWaiters.map (fun waiter => .pageImage waiter.page waiter.dpi)
    ++ List.replicate s.protocol.pageCountWaiters .pageCount

/-- `fail` -/
def fail (error : JSString) (s : TexpressoRun) : TexpressoRun :=
  if s.exitError.isSome then s
  else { s with
    exitError := some error
    rejected := s.rejected ++ s.waiting.map fun call => (call, error)
    flushWaiters := []
    protocol := { s.protocol with pageImageWaiters := [], pageCountWaiters := 0 }
    unexpectedExitListeners :=
      if s.closed then s.unexpectedExitListeners
      else s.unexpectedExitListeners.map fun _ => some error }

/-- `stderrText` -/
def stderrText (s : TexpressoRun) : JSString :=
  let text := s.protocol.stderrChunks.flatten
  text.drop (text.length - MAX_BUFFER_CHARS)

/-- The error of a wait for something that did not come in time. -/
def timeoutError (options : TexpressoSessionOptions) (what : JSString) (s : TexpressoRun) : JSString :=
  js "Timed out waiting for TeXpresso " ++ what ++ js " after " ++ jsNat options.timeoutMs
    ++ js " ms. " ++ s.stderrText

/-- `handleProtocolLine`, with the calls a flush resolves. -/
def handleLine (line : ProtocolLine) (s : TexpressoRun) : TexpressoRun :=
  match s.protocol.handleProtocolLine line with
  | .error error => { s with uncaught := some (.line error) }
  | .ok (protocol, _) =>
      if line.isFlush then
        { s with
          protocol := protocol
          handled := s.handled + 1
          flushWaiters := s.flushWaiters.filter fun waiter => protocol.flushCount ≤ waiter.after
          resolved := s.resolved
            ++ (s.flushWaiters.filter fun waiter => waiter.after < protocol.flushCount).map
              fun waiter => ⟨waiter, protocol.snapshot, s.handled + 1⟩ }
      else { s with protocol := protocol, handled := s.handled + 1 }

end TexpressoRun

/-! ## Events -/

/-- What can happen to a session and its child. -/
inductive TexpressoEvent where
  -- the owner
  | applyRangeChange (path : JSString) (range : TexpressoRange) (replacement : JSString)
  | getPageCount
  | renderPage (page dpi : Nat) (theme : Option TexpressoRenderTheme)
  | onUnexpectedExit
  | removeListener (index : Nat)
  | close
  -- timers
  | flushTimeout (waiter : FlushWaiter)
  | pageCountTimeout
  | pageImageTimeout (waiter : PageImageWaiter)
  -- the pipe and the child
  | stdinWrites
  | childReads
  | childEmits (line : ProtocolLine)
  /-- the change is processed: a flush follows its lines -/
  | childFinishes (flush : ProtocolLine)
  | childDies
  -- what Node reports
  | line
  | stderr (chunk : JSString)
  /-- the `close` event of the child -/
  | exit (error : JSString)
  /-- the `error` event of the child -/
  | childError (message : JSString)

namespace TexpressoRun

/-- The owner and the timers. -/
def onCall (options : TexpressoSessionOptions) (event : TexpressoEvent) (s : TexpressoRun) :
    Option TexpressoRun :=
  match event with
  | .applyRangeChange path range replacement =>
      some (s.applyRangeChange options path range replacement)
  | .getPageCount => some s.getPageCount
  | .renderPage page dpi theme => some (s.renderPage page dpi theme)
  | .onUnexpectedExit => some s.onUnexpectedExit
  | .removeListener index =>
      some { s with unexpectedExitListeners := s.unexpectedExitListeners.eraseIdx index }
  | .close => some s.close
  | .flushTimeout waiter =>
      if waiter ∈ s.flushWaiters then
        some ({ s with flushWaiters := s.flushWaiters.erase waiter }.close.reject
          (.flush waiter.call) (s.timeoutError options (js "flush")))
      else none
  | .pageCountTimeout =>
      if 0 < s.protocol.pageCountWaiters then
        some ({ s with protocol.pageCountWaiters := s.protocol.pageCountWaiters - 1 }.close.reject
          .pageCount (s.timeoutError options (js "page count")))
      else none
  | .pageImageTimeout waiter =>
      if waiter ∈ s.protocol.pageImageWaiters then
        some ({ s with
          protocol.pageImageWaiters := s.protocol.pageImageWaiters.erase waiter }.close.reject
          (.pageImage waiter.page waiter.dpi)
          (s.timeoutError options (js "page " ++ jsNat waiter.page)))
      else none
  | _ => none

/-- The child and its pipes.  A write that reaches the pipe of a dead child becomes an `error` event of
`child.stdin`; the stream is gone once the `close` event was emitted. -/
def onPipe (event : TexpressoEvent) (s : TexpressoRun) : Option TexpressoRun :=
  match event with
  | .stdinWrites => match s.unwritten with
    | [] => none
    | written :: rest =>
        if s.exited then none
        else if s.alive then
          some { s with unwritten := rest, stdin := s.stdin ++ [written] }
        else some { s with uncaught := some .stdin }
  | .childReads => match s.stdin with
    | [] => none
    | written :: rest =>
        if s.alive ∧ s.current = none then
          some { s with stdin := rest, current := written.call }
        else none
  | .childEmits line =>
      if s.alive then
        some { s with emitted := s.emitted
          ++ [⟨line, if line.command?.isSome then s.current else none⟩] }
      else none
  | .childFinishes flush =>
      if s.alive ∧ s.current.isSome ∧ flush.isFlush then
        some { s with emitted := s.emitted ++ [⟨flush, none⟩], current := none }
      else none
  | .childDies => if s.alive then some { s with alive := false } else none
  | _ => none

/-- What Node reports of the child. -/
def onReport (event : TexpressoEvent) (s : TexpressoRun) : Option TexpressoRun :=
  match event with
  | .line => (s.emitted[s.handled]?).map fun next => s.handleLine next.line
  | .stderr chunk => some { s with protocol := s.protocol.appendStderr chunk }
  | .exit error =>
      if s.alive ∨ s.exited then none
      else if s.closed then some { s with exited := true }
      else some ({ s with exited := true }.fail error)
  | .childError message => some (s.fail (js "TeXpresso failed to start: " ++ message))
  | _ => none

/-- What a session does when an event occurs; nothing occurs after an uncaught error. -/
def step (options : TexpressoSessionOptions) (s : TexpressoRun) (event : TexpressoEvent) :
    Option TexpressoRun :=
  if s.uncaught.isSome then none
  else match event with
    | .stdinWrites | .childReads | .childEmits _ | .childFinishes _ | .childDies => s.onPipe event
    | .line | .stderr _ | .exit _ | .childError _ => s.onReport event
    | _ => s.onCall options event

end TexpressoRun

/-- The runs of a session. -/
def texpressoSystem (options : TexpressoSessionOptions) : Core.System TexpressoRun TexpressoEvent where
  init := .start options
  step := TexpressoRun.step options

/-! ## Flushes -/

namespace ProtocolState

theorem linesCommand_flush (args : List Json) : linesCommand? (js "flush") args = none := by
  unfold linesCommand?
  split
  · rfl
  · rw [if_neg (by decide), if_neg (by decide)]

theorem flushCount_setLines (destination : Destination) (lines : LineArray) (s : ProtocolState) :
    (s.setLines destination lines).flushCount = s.flushCount := by
  cases destination <;> rfl

theorem flushCount_applyCommand {s t : ProtocolState} {command : LinesCommand}
    (h : s.applyCommand command = .ok t) : t.flushCount = s.flushCount := by
  cases command with
  | append destination items =>
      cases hpush : pushLines (s.lines destination) items with
      | error error => simp [applyCommand, hpush, Except.map] at h
      | ok lines =>
          simp only [applyCommand, hpush, Except.map, Except.ok.injEq] at h
          rw [← h, flushCount_setLines]
  | truncate destination n =>
      cases hset : setLength (s.lines destination) (max 0 n).toNat with
      | error error => simp [applyCommand, hset, Except.map] at h
      | ok lines =>
          simp only [applyCommand, hset, Except.map, Except.ok.injEq] at h
          rw [← h, flushCount_setLines]

theorem flushCount_pageImage (args : List Json) (s : ProtocolState) :
    (s.pageImage args).1.flushCount = s.flushCount := by
  unfold pageImage
  split
  · split
    · rfl
    · split <;> rfl
  · rfl

theorem flushCount_otherMessage (verb : JSString) (args : List Json) (s : ProtocolState) :
    (s.otherMessage verb args).1.flushCount
      = if verb = js "flush" then s.flushCount + 1 else s.flushCount := by
  by_cases hverb : verb = js "flush"
  · subst hverb
    have hflush : s.otherMessage (js "flush") args = s.flush := by
      unfold otherMessage
      rw [if_neg fun h => absurd h.1 (by decide), if_neg (by decide), if_pos rfl]
    rw [hflush, if_pos rfl]
    rfl
  · rw [if_neg hverb]
    unfold otherMessage
    split_ifs
    · split <;> rfl
    · split <;> rfl
    · split <;> rfl
    · exact flushCount_pageImage args s
    · split
      · split <;> rfl
      · rfl
    · rfl

end ProtocolState

namespace ProtocolLine

variable {line : ProtocolLine}

theorem isFlush_of_message {verb : JSString} {args : List Json}
    (h : line.message? = some (verb, args)) : line.isFlush = decide (verb = js "flush") := by
  rw [isFlush, h, Option.any_some]

/-- A flush neither appends nor truncates lines. -/
theorem command_of_isFlush (h : line.isFlush = true) : line.command? = none := by
  cases hmessage : line.message? with
  | none => rw [command?, hmessage, Option.bind_none]
  | some message =>
      obtain ⟨verb, args⟩ := message
      rw [isFlush_of_message hmessage, decide_eq_true_eq] at h
      rw [command?, hmessage, Option.bind_some, h]
      exact ProtocolState.linesCommand_flush args

end ProtocolLine

/-- **A line is counted** exactly when it is a flush. -/
theorem ProtocolState.flushCount_handleProtocolLine {s t : ProtocolState} {line : ProtocolLine}
    {settled : List WaiterSettled} (h : s.handleProtocolLine line = .ok (t, settled)) :
    t.flushCount = if line.isFlush = true then s.flushCount + 1 else s.flushCount := by
  unfold handleProtocolLine at h
  split at h
  · next hparsed =>
      have hnone : line.parsed = none := by simpa using hparsed
      have hflush : line.isFlush = false := by
        simp [ProtocolLine.isFlush, ProtocolLine.message?, hnone]
      obtain ⟨rfl, -⟩ := Prod.mk.inj (Except.ok.inj h)
      rw [hflush]
      rfl
  · split at h
    · next hmessage =>
        obtain ⟨rfl, -⟩ := Prod.mk.inj (Except.ok.inj h)
        rw [ProtocolLine.isFlush, hmessage]
        rfl
    · next verb args hmessage =>
        rw [ProtocolLine.isFlush_of_message hmessage]
        split at h
        · next command hcommand =>
            have hverb : verb ≠ js "flush" := by
              rintro rfl
              rw [linesCommand_flush] at hcommand
              cases hcommand
            cases happly : s.applyCommand command with
            | error error => simp [happly, Except.map] at h
            | ok session =>
                simp only [happly, Except.map, Except.ok.injEq, Prod.mk.injEq] at h
                obtain ⟨rfl, -⟩ := h
                simp [hverb, flushCount_applyCommand happly]
        · have hother : t = (s.otherMessage verb args).1 := by rw [Except.ok.inj h]
          rw [hother, flushCount_otherMessage]
          simp

/-! ## A session over one file -/

namespace OneFileChild

def sessionOptions : TexpressoSessionOptions where
  files := [.text (js "main.tex") (js "a")]
  timeoutMs := 30000
  resolve := fun path => js "/tmp/" ++ path

/-- The line `["flush"]`. -/
def flushLine : ProtocolLine where
  text := js "[\"flush\"]"
  parsed := some (.array [.string (js "flush")])
  items_le := by
    intro items h
    obtain rfl := Option.some.inj h
    decide
  length_lt := by decide

/-- The child reads its first commands and flushes. -/
def starting : List TexpressoEvent :=
  [.stdinWrites, .stdinWrites, .stdinWrites, .childReads, .childReads, .childReads,
    .childEmits flushLine, .line]

/-- `b` is put before the letter. -/
def change : TexpressoEvent := .applyRangeChange (js "main.tex") ⟨⟨0, 0⟩, ⟨0, 0⟩⟩ (js "b")

/-- The session after these events. -/
def after (events : List TexpressoEvent) : TexpressoRun :=
  (texpressoSystem sessionOptions).after (fun _ _ => true) events

theorem reachable_after (events : List TexpressoEvent) :
    (texpressoSystem sessionOptions).Reachable (fun _ _ => True) (after events) :=
  Core.System.reachable_after (fun _ _ _ => trivial) events

end OneFileChild

end Typr
