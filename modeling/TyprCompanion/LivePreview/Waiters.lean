import TyprCompanion.Core.Waiters
import TyprCompanion.LivePreview.ChildProcess

/-!
# Waiters of a TeXpresso session

The three sets of waiters of `texpressoSession.ts`: who waits for a flush, for the image of a page and
for the page count, and what lines of the child, timers, an exit and `close` make of them.

* `PageAnswer`, `PageMessage` — the messages `page-image`, `page-image-error` and `page-count`.
* `WaiterRun` — the sets with the promises behind them, the requests written to the child, and the
  answers on their way back.
* `waitForFlush`, `waitForPageCount`, `waitForPageImage`, `getPageCount`, `renderPage`, `fail`,
  `handleProtocolLine` — the methods.
* `WaiterEvent`, `step`, `waiterSystem` — the runs of a session.
* **`WaiterRun.Bookkeeping`** — what every run keeps of the three sets.
* **`WaiterRun.Refuses`** — what every step after an exit does.
-/

namespace Typr

/-! ## Answers -/

/-- What the child answers to `render-page`. -/
inductive PageAnswer where
  | image (page width height : Nat) (encoded : JSString)
  /-- the page, as a number and as text -/
  | error (page : Int) (argument message : JSString)
  deriving DecidableEq

/-- The answer is for this page. -/
def PageAnswer.names (answer : PageAnswer) (page : Nat) : Bool :=
  match answer with
  | .image named _ _ _ => page = named
  | .error named _ _ => (page : Int) = named

/-- What a waiter gets from the answer. -/
def PageAnswer.result (answer : PageAnswer) (waiter : PageImageWaiter) :
    Except JSString TexpressoRenderedPage :=
  match answer with
  | .image page width height encoded => ProtocolState.decodePage waiter page width height encoded
  | .error _ argument message =>
      .error (js "TeXpresso could not render page " ++ argument ++ js ": " ++ message)

/-- A message that answers a request for a page or for the page count. -/
inductive PageMessage where
  | count (count : Nat)
  | page (answer : PageAnswer)
  deriving DecidableEq

/-- The arguments of a `page-image` message. -/
def imageAnswer? (args : List Json) : Option PageAnswer :=
  match ProtocolState.nonNegative? args[0]?, ProtocolState.nonNegative? args[1]?,
      ProtocolState.nonNegative? args[2]?, (args[3]?).bind Json.string?,
      (args[4]?).bind Json.string? with
  | some page, some width, some height, some mimeType, some encoded =>
      if width = 0 ∨ height = 0 ∨ mimeType ≠ js "image/png" then none
      else some (.image page width height encoded)
  | _, _, _, _, _ => none

/-- The arguments of a `page-image-error` message. -/
def errorAnswer? (args : List Json) : Option PageAnswer :=
  match args[0]?, ProtocolState.integer? args[0]?, (args[1]?).bind Json.string? with
  | some argument, some page, some message => some (.error page argument.text message)
  | _, _, _ => none

/-- The message, when it answers a request. -/
def pageMessage? (verb : JSString) (args : List Json) : Option PageMessage :=
  if verb = js "page-count" then (ProtocolState.nonNegative? args[0]?).map .count
  else if verb = js "page-image" then (imageAnswer? args).map .page
  else if verb = js "page-image-error" then (errorAnswer? args).map .page
  else none

/-- What a line answers. -/
def ProtocolLine.pageMessage? (line : ProtocolLine) : Option PageMessage :=
  line.message?.bind fun (verb, args) => Typr.pageMessage? verb args

/-! ## The state -/

/-- A request the child answers with a line: `page-count` or `render-page`. -/
structure PageRequest where
  command : TexpressoCommand
  /-- the waiter made for it -/
  waiter : Nat
  deriving DecidableEq

/-- The line answers the command. -/
def ProtocolLine.answers (line : ProtocolLine) : TexpressoCommand → Bool
  | .pageCount => match line.pageMessage? with
      | some (.count _) => true
      | _ => false
  | .renderPage page _ _ => match line.pageMessage? with
      | some (.page answer) => answer.names page
      | _ => false
  | _ => false

/-- A line the child has written, and the request it answers. -/
structure WrittenLine where
  line : ProtocolLine
  request : Option PageRequest

/-- What a call comes to at once. -/
inductive CallResult where
  /-- it waits, with the number of its waiter -/
  | waits (waiter : Nat)
  | resolved (snapshot : TexpressoSnapshot)
  /-- rejected or thrown -/
  | rejected (error : JSString)
  deriving DecidableEq

structure WaiterRun where
  /-- the fields `handleProtocolLine` works on, without the waiters -/
  protocol : ProtocolState
  /-- each with its `after` -/
  flushWaiters : Core.Waiters Nat (Except JSString TexpressoSnapshot)
  pageImageWaiters : Core.Waiters PageImageWaiter (Except JSString TexpressoRenderedPage)
  pageCountWaiters : Core.Waiters Unit (Except JSString Nat)
  buffers : Buffers
  closed : Bool
  exitError : Option JSString
  /-- what each call came to at once -/
  calls : List CallResult
  /-- the requests written to the child -/
  sent : List PageRequest
  /-- those the child has not answered, in the order they were written -/
  unanswered : List PageRequest
  /-- the answers the child has given -/
  answers : List (PageRequest × ProtocolLine)
  /-- the lines of the child that were not handled -/
  unread : List WrittenLine
  /-- whether the `close` event of the child was emitted -/
  exited : Bool
  /-- thrown while a line was handled; ends the server process -/
  uncaught : Option JSString

namespace WaiterRun

/-! ## Methods -/

/-- `waitForFlush` -/
def waitForFlush (after : Nat) (s : WaiterRun) : WaiterRun × CallResult :=
  match s.exitError with
  | some error => (s, .rejected error)
  | none =>
      if after < s.protocol.flushCount then (s, .resolved s.protocol.snapshot)
      else ({ s with flushWaiters := s.flushWaiters.add after },
        .waits s.flushWaiters.made.length)

/-- `start` up to its wait for the initial flush -/
def start (options : TexpressoSessionOptions) : WaiterRun :=
  let s : WaiterRun := {
    protocol := .new
    flushWaiters := .empty
    pageImageWaiters := .empty
    pageCountWaiters := .empty
    buffers := openBuffers options.files
    closed := false
    exitError := none
    calls := []
    sent := []
    unanswered := []
    answers := []
    unread := []
    exited := false
    uncaught := none }
  (s.waitForFlush s.protocol.flushCount).1

/-- What `send` throws before it writes. -/
def sendable (s : WaiterRun) : Except JSString Unit :=
  match s.exitError, s.closed with
  | some error, _ => .error error
  | none, true => .error (js "TeXpresso session is closed.")
  | none, false => .ok ()

/-- A request is written to the child. -/
def request (command : TexpressoCommand) (waiter : Nat) (s : WaiterRun) : WaiterRun :=
  { s with
    sent := s.sent ++ [⟨command, waiter⟩]
    unanswered := s.unanswered ++ [⟨command, waiter⟩] }

/-- `applyRangeChange` up to its wait for a flush -/
def applyRangeChange (path : JSString) (range : TexpressoRange) (replacement : JSString)
    (s : WaiterRun) : WaiterRun × CallResult :=
  match TexpressoSession.applyRangeChange s.buffers s.sendable path range replacement with
  | .error error => (s, .rejected error)
  | .ok buffers => { s with buffers := buffers }.waitForFlush s.protocol.flushCount

/-- `waitForPageCount` -/
def waitForPageCount (s : WaiterRun) : WaiterRun × CallResult :=
  match s.exitError with
  | some error => (s, .rejected error)
  | none => ({ s with pageCountWaiters := s.pageCountWaiters.add () },
      .waits s.pageCountWaiters.made.length)

/-- `waitForPageImage` -/
def waitForPageImage (page dpi : Nat) (s : WaiterRun) : WaiterRun × CallResult :=
  match s.exitError with
  | some error => (s, .rejected error)
  | none => ({ s with pageImageWaiters := s.pageImageWaiters.add ⟨page, dpi⟩ },
      .waits s.pageImageWaiters.made.length)

/-- The command of a response is sent; a response whose command cannot be sent is left alone. -/
def sendFor (command : TexpressoCommand) (response : WaiterRun × CallResult) :
    WaiterRun × CallResult :=
  match response.1.sendable, response.2 with
  | .error error, _ => (response.1, .rejected error)
  | .ok _, .waits waiter => (response.1.request command waiter, .waits waiter)
  | .ok _, result => (response.1, result)

/-- `getPageCount` -/
def getPageCount (s : WaiterRun) : WaiterRun × CallResult := sendFor .pageCount s.waitForPageCount

/-- The error of a resolution that is out of bounds. -/
def dpiError : JSString :=
  js "TeXpresso render DPI must be between " ++ jsNat TEXPRESSO_WS_LIMITS.minDpi ++ js " and "
    ++ jsNat TEXPRESSO_WS_LIMITS.maxDpi ++ js "."

/-- `renderPage` of a page that is not cached -/
def renderPage (page dpi : JSNumber) (theme : Option TexpressoRenderTheme) (s : WaiterRun) :
    WaiterRun × CallResult :=
  match page.nonNegativeInteger?, dpi.nonNegativeInteger? with
  | none, _ => (s, .rejected (js "TeXpresso page must be a non-negative integer."))
  | some _, none => (s, .rejected dpiError)
  | some page, some dpi =>
      if dpi < TEXPRESSO_WS_LIMITS.minDpi ∨ TEXPRESSO_WS_LIMITS.maxDpi < dpi then
        (s, .rejected dpiError)
      else sendFor (.renderPage page dpi theme) (s.waitForPageImage page dpi)

/-- `close`; `child.stdin.end()` writes nothing. -/
def close (s : WaiterRun) : WaiterRun := { s with closed := true }

/-- `fail` -/
def fail (error : JSString) (s : WaiterRun) : WaiterRun :=
  if s.exitError.isSome then s
  else { s with
    exitError := some error
    flushWaiters := s.flushWaiters.failAll (.error error)
    pageImageWaiters := s.pageImageWaiters.failAll (.error error)
    pageCountWaiters := s.pageCountWaiters.failAll (.error error) }

/-- `stderrText` -/
def stderrText (s : WaiterRun) : JSString :=
  let text := s.protocol.stderrChunks.flatten
  text.drop (text.length - MAX_BUFFER_CHARS)

/-- The error of a wait for something that did not come in time. -/
def timeoutError (options : TexpressoSessionOptions) (what : JSString) (s : WaiterRun) : JSString :=
  js "Timed out waiting for TeXpresso " ++ what ++ js " after " ++ jsNat options.timeoutMs
    ++ js " ms. " ++ s.stderrText

/-! ## Lines -/

/-- The waiters a `flush` message resolves. -/
def answerFlush (s : WaiterRun) : WaiterRun :=
  { s with
    flushWaiters :=
      s.flushWaiters.answerAll (fun after => after < s.protocol.flushCount) (.ok s.protocol.snapshot) }

/-- The waiter a message answers. -/
def answerPage (message : PageMessage) (s : WaiterRun) : WaiterRun :=
  match message with
  | .count count =>
      { s with pageCountWaiters :=
          s.pageCountWaiters.answerOldest (fun _ => true) fun _ => .ok count }
  | .page answer =>
      { s with pageImageWaiters :=
          s.pageImageWaiters.answerOldest (fun waiter => answer.names waiter.page) answer.result }

/-- `handleProtocolLine` -/
def handleProtocolLine (line : ProtocolLine) (s : WaiterRun) : WaiterRun :=
  match s.protocol.handleProtocolLine line with
  | .error error => { s with uncaught := some error }
  | .ok (protocol, _) =>
      let s := { s with protocol := protocol }
      if line.isFlush then s.answerFlush
      else match line.pageMessage? with
        | some message => s.answerPage message
        | none => s

end WaiterRun

/-! ## Events -/

/-- What can happen to a session and its child. -/
inductive WaiterEvent where
  -- the owner
  | applyRangeChange (path : JSString) (range : TexpressoRange) (replacement : JSString)
  | getPageCount
  | renderPage (page dpi : JSNumber) (theme : Option TexpressoRenderTheme)
  | close
  -- timers
  | flushTimeout (waiter : Nat)
  | pageCountTimeout (waiter : Nat)
  | pageImageTimeout (waiter : Nat)
  -- the child
  /-- the oldest request that is not answered gets its answer -/
  | childAnswers (line : ProtocolLine)
  /-- any other line -/
  | childEmits (line : ProtocolLine)
  -- what Node reports
  | line
  | stderr (chunk : JSString)
  /-- the `close` event of the child -/
  | exit (error : JSString)
  /-- the `error` event of the child -/
  | childError (message : JSString)

namespace WaiterRun

/-- The call is noted. -/
def note (call : WaiterRun × CallResult) : WaiterRun :=
  { call.1 with calls := call.1.calls ++ [call.2] }

/-- The owner. -/
def onCall (event : WaiterEvent) (s : WaiterRun) : Option WaiterRun :=
  match event with
  | .applyRangeChange path range replacement =>
      some (note (s.applyRangeChange path range replacement))
  | .getPageCount => some (note s.getPageCount)
  | .renderPage page dpi theme => some (note (s.renderPage page dpi theme))
  | .close => some s.close
  | _ => none

/-- The page a waiter was made for. -/
def waiterPage (s : WaiterRun) (waiter : Nat) : JSString :=
  match s.pageImageWaiters.made[waiter]? with
  | some waiter => jsNat waiter.page
  | none => []

/-- The timers. -/
def onTimeout (options : TexpressoSessionOptions) (event : WaiterEvent) (s : WaiterRun) :
    Option WaiterRun :=
  match event with
  | .flushTimeout waiter =>
      (s.flushWaiters.expire waiter (.error (s.timeoutError options (js "flush")))).map
        fun waiters => { s with flushWaiters := waiters }.close
  | .pageCountTimeout waiter =>
      (s.pageCountWaiters.expire waiter (.error (s.timeoutError options (js "page count")))).map
        fun waiters => { s with pageCountWaiters := waiters }.close
  | .pageImageTimeout waiter =>
      (s.pageImageWaiters.expire waiter
        (.error (s.timeoutError options (js "page " ++ s.waiterPage waiter)))).map
        fun waiters => { s with pageImageWaiters := waiters }.close
  | _ => none

/-- The child. -/
def onChild (event : WaiterEvent) (s : WaiterRun) : Option WaiterRun :=
  match event with
  | .childAnswers line => match s.unanswered with
    | [] => none
    | request :: rest =>
        if line.answers request.command = true ∧ s.exited = false then
          some { s with
            unanswered := rest
            answers := s.answers ++ [(request, line)]
            unread := s.unread ++ [⟨line, some request⟩] }
        else none
  | .childEmits line =>
      if s.exited then none else some { s with unread := s.unread ++ [⟨line, none⟩] }
  | _ => none

/-- What Node reports of the child. -/
def onReport (event : WaiterEvent) (s : WaiterRun) : Option WaiterRun :=
  match event with
  | .line => match s.unread with
    | [] => none
    | next :: rest => some ({ s with unread := rest }.handleProtocolLine next.line)
  | .stderr chunk => some { s with protocol := s.protocol.appendStderr chunk }
  | .exit error =>
      if s.exited then none
      else if s.closed then some { s with exited := true }
      else some ({ s with exited := true }.fail error)
  | .childError message => some (s.fail (js "TeXpresso failed to start: " ++ message))
  | _ => none

/-- What a session does when an event occurs; nothing occurs after an uncaught error. -/
def step (options : TexpressoSessionOptions) (s : WaiterRun) (event : WaiterEvent) :
    Option WaiterRun :=
  if s.uncaught.isSome then none
  else match event with
    | .applyRangeChange .. | .getPageCount | .renderPage .. | .close => s.onCall event
    | .flushTimeout _ | .pageCountTimeout _ | .pageImageTimeout _ => s.onTimeout options event
    | .childAnswers _ | .childEmits _ => s.onChild event
    | .line | .stderr _ | .exit _ | .childError _ => s.onReport event

end WaiterRun

/-- The runs of a session. -/
def waiterSystem (options : TexpressoSessionOptions) : Core.System WaiterRun WaiterEvent where
  init := .start options
  step := WaiterRun.step options

/-! ## Bookkeeping -/

variable {options : TexpressoSessionOptions} {event : WaiterEvent} {s t : WaiterRun}

namespace WaiterRun

/-- **Bookkeeping** of the three sets; they are empty once an exit is known. -/
structure Bookkeeping (s : WaiterRun) : Prop where
  flushes : s.flushWaiters.Kept
  images : s.pageImageWaiters.Kept
  counts : s.pageCountWaiters.Kept
  emptied : s.exitError.isSome = true → s.flushWaiters.waiting = [] ∧
    s.pageImageWaiters.waiting = [] ∧ s.pageCountWaiters.waiting = []

namespace Bookkeeping

/-- Nothing waits in a state whose exit is known, so a waiter is only made before. -/
theorem emptied_of_none {s : WaiterRun} {P : Prop} (hexit : s.exitError = none) :
    s.exitError.isSome = true → P := by
  rw [hexit]
  nofun

theorem waitForFlush (h : Bookkeeping s) (after : Nat) : Bookkeeping (s.waitForFlush after).1 := by
  unfold WaiterRun.waitForFlush
  split
  · exact h
  · next hexit =>
      split
      · exact h
      · exact { h with
          flushes := h.flushes.add after
          emptied := emptied_of_none hexit }

theorem waitForPageCount (h : Bookkeeping s) : Bookkeeping s.waitForPageCount.1 := by
  unfold WaiterRun.waitForPageCount
  split
  · exact h
  · next hexit => exact { h with
      counts := h.counts.add ()
      emptied := emptied_of_none hexit }

theorem waitForPageImage (h : Bookkeeping s) (page dpi : Nat) :
    Bookkeeping (s.waitForPageImage page dpi).1 := by
  unfold WaiterRun.waitForPageImage
  split
  · exact h
  · next hexit => exact { h with
      images := h.images.add ⟨page, dpi⟩
      emptied := emptied_of_none hexit }

theorem start (options : TexpressoSessionOptions) : Bookkeeping (WaiterRun.start options) := by
  refine Bookkeeping.waitForFlush ?_ _
  exact {
    flushes := .empty
    images := .empty
    counts := .empty
    emptied := nofun }

theorem sendFor {response : WaiterRun × CallResult} (h : Bookkeeping response.1)
    (command : TexpressoCommand) : Bookkeeping (WaiterRun.sendFor command response).1 := by
  unfold WaiterRun.sendFor
  split
  · exact h
  · exact { h with }
  · exact h

theorem applyRangeChange (h : Bookkeeping s) (path : JSString) (range : TexpressoRange)
    (replacement : JSString) : Bookkeeping (s.applyRangeChange path range replacement).1 := by
  unfold WaiterRun.applyRangeChange
  split
  · exact h
  · next buffers _ =>
      have hbuffers : Bookkeeping { s with buffers := buffers } := { h with }
      exact hbuffers.waitForFlush _

theorem renderPage (h : Bookkeeping s) (page dpi : JSNumber) (theme : Option TexpressoRenderTheme) :
    Bookkeeping (s.renderPage page dpi theme).1 := by
  unfold WaiterRun.renderPage
  split
  · exact h
  · exact h
  · split
    · exact h
    · exact (h.waitForPageImage _ _).sendFor _

theorem fail (h : Bookkeeping s) (error : JSString) : Bookkeeping (s.fail error) := by
  unfold WaiterRun.fail
  split
  · exact h
  · exact {
      flushes := h.flushes.failAll _
      images := h.images.failAll _
      counts := h.counts.failAll _
      emptied := fun _ => ⟨rfl, rfl, rfl⟩ }

theorem answerFlush (h : Bookkeeping s) : Bookkeeping s.answerFlush :=
  { h with
    flushes := h.flushes.answerAll (fun after => after < s.protocol.flushCount) (.ok s.protocol.snapshot)
    emptied := by
      intro hexit
      obtain ⟨hflushes, hpages⟩ := h.emptied hexit
      refine ⟨?_, hpages⟩
      rw [WaiterRun.answerFlush, Core.Waiters.answerAll, hflushes]
      exact hflushes }

theorem answerPage (h : Bookkeeping s) (message : PageMessage) : Bookkeeping (s.answerPage message) := by
  cases message with
  | count count => exact { h with
      counts := h.counts.answerOldest (fun _ => true) fun _ => .ok count
      emptied := by
        intro hexit
        obtain ⟨hflushes, himages, hcounts⟩ := h.emptied hexit
        refine ⟨hflushes, himages, ?_⟩
        rw [WaiterRun.answerPage, Core.Waiters.answerOldest_of_none (by simp [hcounts])]
        exact hcounts }
  | page answer => exact { h with
      images := h.images.answerOldest (fun waiter => answer.names waiter.page) answer.result
      emptied := by
        intro hexit
        obtain ⟨hflushes, himages, hcounts⟩ := h.emptied hexit
        refine ⟨hflushes, ?_, hcounts⟩
        rw [WaiterRun.answerPage, Core.Waiters.answerOldest_of_none (by simp [himages])]
        exact himages }

theorem handleProtocolLine (h : Bookkeeping s) (line : ProtocolLine) :
    Bookkeeping (s.handleProtocolLine line) := by
  unfold WaiterRun.handleProtocolLine
  split
  · exact { h with }
  · next protocol _ _ =>
      have hprotocol : Bookkeeping { s with protocol := protocol } := { h with }
      dsimp only
      split
      · exact hprotocol.answerFlush
      · split
        · exact hprotocol.answerPage _
        · exact hprotocol

theorem onCall (h : Bookkeeping s) (ht : s.onCall event = some t) : Bookkeeping t := by
  have note {call : WaiterRun × CallResult} (hcall : Bookkeeping call.1) : Bookkeeping (note call) :=
    { hcall with }
  unfold WaiterRun.onCall at ht
  split at ht <;> cases ht
  · exact note (h.applyRangeChange ..)
  · exact note (h.waitForPageCount.sendFor _)
  · exact note (h.renderPage ..)
  · exact { h with }

/-- The timer of a waiter can only fire before an exit is known. -/
theorem onTimeout (h : Bookkeeping s) (ht : s.onTimeout options event = some t) : Bookkeeping t := by
  unfold WaiterRun.onTimeout at ht
  split at ht
  · obtain ⟨waiters, hexpire, rfl⟩ := Option.map_eq_some_iff.mp ht
    exact { h with
      flushes := h.flushes.expire hexpire
      emptied := by
        intro hexit
        obtain ⟨-, rfl⟩ := Core.Waiters.expire_eq_some.mp hexpire
        obtain ⟨hflushes, hpages⟩ := h.emptied hexit
        exact ⟨Core.Waiters.waiting_answer_of_nil hflushes, hpages⟩ }
  · obtain ⟨waiters, hexpire, rfl⟩ := Option.map_eq_some_iff.mp ht
    exact { h with
      counts := h.counts.expire hexpire
      emptied := by
        intro hexit
        obtain ⟨-, rfl⟩ := Core.Waiters.expire_eq_some.mp hexpire
        obtain ⟨hflushes, himages, hcounts⟩ := h.emptied hexit
        exact ⟨hflushes, himages, Core.Waiters.waiting_answer_of_nil hcounts⟩ }
  · obtain ⟨waiters, hexpire, rfl⟩ := Option.map_eq_some_iff.mp ht
    exact { h with
      images := h.images.expire hexpire
      emptied := by
        intro hexit
        obtain ⟨-, rfl⟩ := Core.Waiters.expire_eq_some.mp hexpire
        obtain ⟨hflushes, himages, hcounts⟩ := h.emptied hexit
        exact ⟨hflushes, Core.Waiters.waiting_answer_of_nil himages, hcounts⟩ }
  · cases ht

theorem onChild (h : Bookkeeping s) (ht : s.onChild event = some t) : Bookkeeping t := by
  unfold WaiterRun.onChild at ht
  split at ht
  · split at ht
    · cases ht
    · split at ht <;> cases ht
      exact { h with }
  · split at ht <;> cases ht
    exact { h with }
  · cases ht

theorem onReport (h : Bookkeeping s) (ht : s.onReport event = some t) : Bookkeeping t := by
  have exits : Bookkeeping { s with exited := true } := { h with }
  unfold WaiterRun.onReport at ht
  split at ht
  · split at ht <;> cases ht
    next rest _ =>
      have hrest : Bookkeeping { s with unread := rest } := { h with }
      exact hrest.handleProtocolLine _
  · cases ht
    exact { h with }
  · split at ht
    · cases ht
    · split at ht <;> cases ht
      · exact exits
      · exact exits.fail _
  · cases ht
    exact h.fail _
  · cases ht

/-- **One step** keeps the three sets. -/
theorem step (h : Bookkeeping s) (ht : s.step options event = some t) : Bookkeeping t := by
  unfold WaiterRun.step at ht
  split at ht
  · cases ht
  · split at ht
    all_goals first
      | exact h.onCall ht
      | exact h.onTimeout ht
      | exact h.onChild ht
      | exact h.onReport ht

end Bookkeeping

/-- **Every run** keeps the three sets. -/
theorem bookkeeping_of_reachable {permitted : WaiterRun → WaiterEvent → Prop}
    (h : (waiterSystem options).Reachable permitted s) : s.Bookkeeping :=
  h.invariant (Bookkeeping.start options) fun _ _ _ _ _ hkept ht => hkept.step ht

/-! ## After an exit -/

/-- No waiter is made, and what is called is rejected. -/
structure Refuses (error : JSString) (s t : WaiterRun) : Prop where
  exitError : t.exitError = some error
  flushes : t.flushWaiters.made = s.flushWaiters.made
  images : t.pageImageWaiters.made = s.pageImageWaiters.made
  counts : t.pageCountWaiters.made = s.pageCountWaiters.made
  calls : t.calls = s.calls ∨ ∃ reason, t.calls = s.calls ++ [.rejected reason]

variable {error : JSString}

theorem sendable_of_exit (hexit : s.exitError = some error) : s.sendable = .error error := by
  rw [sendable, hexit]

theorem waitForPageCount_of_exit (hexit : s.exitError = some error) :
    s.waitForPageCount = (s, .rejected error) := by
  rw [waitForPageCount, hexit]

theorem waitForPageImage_of_exit (hexit : s.exitError = some error) (page dpi : Nat) :
    s.waitForPageImage page dpi = (s, .rejected error) := by
  rw [waitForPageImage, hexit]

theorem sendFor_of_exit (hexit : s.exitError = some error) (command : TexpressoCommand)
    (result : CallResult) : sendFor command (s, result) = (s, .rejected error) := by
  unfold sendFor
  rw [sendable_of_exit hexit]

theorem getPageCount_of_exit (hexit : s.exitError = some error) :
    s.getPageCount = (s, .rejected error) := by
  rw [getPageCount, waitForPageCount_of_exit hexit, sendFor_of_exit hexit]

theorem renderPage_of_exit (hexit : s.exitError = some error) (page dpi : JSNumber)
    (theme : Option TexpressoRenderTheme) :
    ∃ reason, s.renderPage page dpi theme = (s, .rejected reason) := by
  unfold renderPage
  split
  · exact ⟨_, rfl⟩
  · exact ⟨_, rfl⟩
  · split
    · exact ⟨_, rfl⟩
    · rw [waitForPageImage_of_exit hexit, sendFor_of_exit hexit]
      exact ⟨_, rfl⟩

/-- An edit that cannot be sent is not applied. -/
theorem applyRangeChange_of_exit (hexit : s.exitError = some error) (path : JSString)
    (range : TexpressoRange) (replacement : JSString) :
    ∃ reason, s.applyRangeChange path range replacement = (s, .rejected reason) := by
  rcases texpresso_refines s.buffers ⟨0, path, range, replacement⟩ s.sendable
    with ⟨_, hsend⟩ | ⟨⟨reason, hreason⟩, _⟩
  · rw [sendable_of_exit hexit] at hsend
    cases hsend
  · refine ⟨reason, ?_⟩
    unfold applyRangeChange
    rw [show TexpressoSession.applyRangeChange s.buffers s.sendable path range replacement
      = .error reason from hreason]

namespace Refuses

theorem refl (hexit : s.exitError = some error) : Refuses error s s :=
  ⟨hexit, rfl, rfl, rfl, .inl rfl⟩

theorem note (hexit : s.exitError = some error) (reason : JSString) :
    Refuses error s (note (s, .rejected reason)) :=
  { refl hexit with calls := .inr ⟨reason, rfl⟩ }

theorem fail (hexit : s.exitError = some error) (other : JSString) : Refuses error s (s.fail other) := by
  rw [WaiterRun.fail, if_pos (by rw [hexit]; rfl)]
  exact refl hexit

theorem handleProtocolLine (hexit : s.exitError = some error) (line : ProtocolLine) :
    Refuses error s (s.handleProtocolLine line) := by
  unfold WaiterRun.handleProtocolLine
  split
  · exact { refl hexit with }
  · dsimp only
    split
    · exact { refl hexit with flushes := Core.Waiters.made_answerAll }
    · split
      · next message _ =>
          cases message with
          | count count => exact { refl hexit with counts := Core.Waiters.made_answerOldest _ }
          | page answer => exact { refl hexit with images := Core.Waiters.made_answerOldest _ }
      · exact { refl hexit with }

theorem onCall (hexit : s.exitError = some error) (ht : s.onCall event = some t) :
    Refuses error s t := by
  unfold WaiterRun.onCall at ht
  split at ht <;> cases ht
  · next path range replacement =>
      obtain ⟨reason, hcall⟩ := applyRangeChange_of_exit hexit path range replacement
      rw [hcall]
      exact note hexit reason
  · rw [getPageCount_of_exit hexit]
    exact note hexit error
  · next page dpi theme =>
      obtain ⟨reason, hcall⟩ := renderPage_of_exit hexit page dpi theme
      rw [hcall]
      exact note hexit reason
  · exact { refl hexit with }

theorem onTimeout (hexit : s.exitError = some error) (ht : s.onTimeout options event = some t) :
    Refuses error s t := by
  unfold WaiterRun.onTimeout at ht
  split at ht
  · obtain ⟨waiters, hexpire, rfl⟩ := Option.map_eq_some_iff.mp ht
    obtain ⟨-, rfl⟩ := Core.Waiters.expire_eq_some.mp hexpire
    exact { refl hexit with }
  · obtain ⟨waiters, hexpire, rfl⟩ := Option.map_eq_some_iff.mp ht
    obtain ⟨-, rfl⟩ := Core.Waiters.expire_eq_some.mp hexpire
    exact { refl hexit with }
  · obtain ⟨waiters, hexpire, rfl⟩ := Option.map_eq_some_iff.mp ht
    obtain ⟨-, rfl⟩ := Core.Waiters.expire_eq_some.mp hexpire
    exact { refl hexit with }
  · cases ht

theorem onChild (hexit : s.exitError = some error) (ht : s.onChild event = some t) :
    Refuses error s t := by
  unfold WaiterRun.onChild at ht
  split at ht
  · split at ht
    · cases ht
    · split at ht <;> cases ht
      exact { refl hexit with }
  · split at ht <;> cases ht
    exact { refl hexit with }
  · cases ht

theorem onReport (hexit : s.exitError = some error) (ht : s.onReport event = some t) :
    Refuses error s t := by
  unfold WaiterRun.onReport at ht
  split at ht
  · split at ht <;> cases ht
    next next rest _ =>
      have hline := handleProtocolLine (s := { s with unread := rest }) hexit next.line
      exact { hline with }
  · cases ht
    exact { refl hexit with }
  · split at ht
    · cases ht
    · split at ht <;> cases ht
      · exact { refl hexit with }
      · next reason _ _ =>
          have hfail := fail (s := { s with exited := true }) hexit reason
          exact { hfail with }
  · cases ht
    exact fail hexit _
  · cases ht

/-- **Every step** after an exit refuses. -/
theorem step (hexit : s.exitError = some error) (ht : s.step options event = some t) :
    Refuses error s t := by
  unfold WaiterRun.step at ht
  split at ht
  · cases ht
  · split at ht
    all_goals first
      | exact onCall hexit ht
      | exact onTimeout hexit ht
      | exact onChild hexit ht
      | exact onReport hexit ht

end Refuses

end WaiterRun

end Typr
