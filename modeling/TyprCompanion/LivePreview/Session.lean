import TyprCompanion.Core.TransitionSystem
import TyprCompanion.LivePreview.RangeEdit

/-!
# A live-preview session

`texpressoLiveSession.ts`: one socket, at most one native session, and the asynchronous methods
between them.  A step of the model is what the source does between two waits.

* `LiveSession` — the fields of the class, where its methods are suspended (`Work`, `Closer`), the
  native session and the temporary directory, and what was accepted and handed over so far.
* `initialize`, `enqueueChange`, `drainChanges`, `renderRevision`, `close` and the others — the
  methods up to their first wait; the parts between two waits follow each of them.
* `LiveEvent`, `step` — what can happen to a session, and what it does then.
* `liveSystem` — the runs of a session.

`initialize` and `drainChanges` share the field `work`: `initializing` and `processing` keep them
from overlapping (`Flags` in `LivePreview.Steps`).
-/

namespace Typr

/-! ## The native session -/

/-- Which implementation `startLiveLatexSession` chose. -/
inductive Backend where
  | texpresso
  | fullCompile
  deriving DecidableEq

/-- A started native session. -/
structure NativeSession where
  backend : Backend
  pid : Nat
  deriving DecidableEq

/-- The life of the native session. -/
inductive NativeLife where
  | unstarted
  /-- `startLiveLatexSession` is running. -/
  | starting
  | running
  /-- `close` was called, by its owner or on a timeout. -/
  | closing
  | closed
  deriving DecidableEq

/-- Begun to start and not yet closed. -/
def NativeLife.live : NativeLife → Bool
  | starting | running | closing => true
  | unstarted | closed => false

/-- `session.close()` -/
def NativeLife.close : NativeLife → NativeLife
  | running => closing
  | life => life

inductive SnapshotResult where
  | success
  | latexError
  deriving DecidableEq

structure TexpressoSnapshot where
  output : JSString
  log : JSString
  result : SnapshotResult
  deriving DecidableEq

/-- The image of one page, as the native session returns it. -/
structure PageImage where
  width : Nat
  height : Nat
  data : Core.Bytes
  deriving DecidableEq

/-- A rendered page. -/
structure TexpressoRenderedPage extends PageImage where
  page : Nat
  dpi : Nat
  deriving DecidableEq

/-! ## Frames of the server -/

structure TexpressoPageDescriptor where
  page : Nat
  width : Nat
  height : Nat
  dpi : Nat
  byteLength : Nat
  deriving DecidableEq

/-- `pageDescriptor` -/
def pageDescriptor (page : TexpressoRenderedPage) : TexpressoPageDescriptor where
  page := page.page
  width := page.width
  height := page.height
  dpi := page.dpi
  byteLength := page.data.length

inductive LiveSessionCloseReason where
  | clientShutdown
  | clientDisconnect
  | serverShutdown
  | error
  deriving DecidableEq

inductive RevisionRender where
  | pending
  | coalesced
  | notRendered
  deriving DecidableEq

/-- The messages of the server. -/
inductive TexpressoServerMessage where
  | sessionReady (protocolVersion revision processId : Nat) (render : TexpressoRenderSettings)
  | revisionStarted (revision queueDepth : Nat)
  | revisionApplied (revision : Nat) (render : RevisionRender) (queueDepth : Nat)
  | document (revision lastGoodRevision pageCount : Nat) (pages : List TexpressoPageDescriptor)
  | page (revision : Nat) (descriptor : TexpressoPageDescriptor)
  | revisionComplete (revision lastGoodRevision pageCount renderedPages : Nat)
  | compileError (revision : Nat) (lastGoodRevision : Option Nat) (log : JSString)
  | protocolError (code message : JSString) (isFatal : Bool) (revision : Option Nat)
  | sessionError (code message : JSString) (revision : Option Nat)
  | sessionClosed (reason : LiveSessionCloseReason)
  deriving DecidableEq

/-- A frame on the socket. -/
inductive Frame where
  | json (message : TexpressoServerMessage)
  | binary (data : Core.Bytes)
  deriving DecidableEq

/-- An image. -/
def Frame.isBinary : Frame → Bool
  | json _ => false
  | binary _ => true

/-- A frame of the client; a text frame as far as `JSON.parse` accepts it. -/
inductive ClientFrame where
  | text (value : Option Json)
  | binary

/-! ## Suspended methods -/

/-- The method that does the work, with the revision it reports when it fails. -/
inductive Caller where
  | initializeSession (revision : Nat)
  | drainChanges
  deriving DecidableEq

/-- Who waits for a task of the outbound queue. -/
inductive Awaiter where
  /-- `initialize` or `drainChanges`, at the place `work` tells -/
  | work
  /-- `protocolFailure` or `sessionFailure`, awaited by `initialize` or `drainChanges` -/
  | failure
  /-- `protocolFailure`, called for a client frame -/
  | protocolFailure (isFatal : Bool)
  /-- `sessionFailure`, called when the native session exited -/
  | nativeExit
  /-- `close` -/
  | close
  deriving DecidableEq

/-- A task of the promise chain `outbound`: the frames left to send, and whether the one before them
is being sent.  Only the first frame of a task is a message. -/
structure OutboundTask where
  frames : List Frame
  inFlight : Bool
  awaiter : Awaiter
  binary_rest : ∀ frame ∈ (if inFlight then frames else frames.tail), frame.isBinary = true
  deriving DecidableEq

/-- How `initialize` or `drainChanges` goes on. -/
inductive Continuation where
  /-- at the head of the loop of `drainChanges` -/
  | loop
  /-- in the `finally` block -/
  | done (caller : Caller)
  deriving DecidableEq

/-- Where `initialize` or `drainChanges` is suspended. -/
inductive Work where
  | idle
  -- in `initialize`
  | mkdtemp (message : TexpressoInitializeMessage)
  /-- `mkdir` or, when `writing`, `writeFile` for the first file of the list -/
  | materialize (message : TexpressoInitializeMessage) (file : ProjectFile) (rest : List ProjectFile)
      (writing : Bool)
  | start (message : TexpressoInitializeMessage)
  /-- `await session.close()` of a session that came too late -/
  | discard (revision : Nat)
  | sessionReady (revision : Nat)
  /-- about to look at `session.snapshot()` -/
  | snapshot (revision : Nat)
  -- in `drainChanges`
  | revisionStarted (change : TexpressoChangeMessage)
  /-- with the outcome of the part of `applyRangeChange` before its first wait -/
  | applyRangeChange (change : TexpressoChangeMessage) (outcome : Except JSString Unit)
  | invalidRange
  | notRendered (change : TexpressoChangeMessage) (snapshot : TexpressoSnapshot)
  | coalesced
  | pending (change : TexpressoChangeMessage)
  -- in both
  | compileError (caller : Caller)
  | renderPage (caller : Caller) (revision : Nat) (pages : List TexpressoRenderedPage)
  | pageCount (caller : Caller) (revision : Nat) (pages : List TexpressoRenderedPage)
      (error : JSString)
  | document (caller : Caller) (revision : Nat) (pages : List TexpressoRenderedPage)
  | page (caller : Caller) (revision : Nat) (pages : List TexpressoRenderedPage) (index : Nat)
  | complete (caller : Caller)
  | sessionFailure (caller : Caller)
  /-- waits for `close` -/
  | closing (next : Continuation)
  /-- waits for its turn -/
  | resume (next : Continuation)

/-- Where `close` is suspended. -/
inductive Closer where
  | idle
  /-- sends `session-closed` -/
  | notifying
  /-- in `Promise.allSettled`; `removing` until `rm` settles -/
  | tearingDown (removing notifyClient : Bool)
  | done
  deriving DecidableEq

/-- `socket.readyState`; `closed` once the `close` event was emitted. -/
inductive ReadyState where
  | opened
  | closing
  | closed
  deriving DecidableEq

/-! ## The state -/

structure LiveSession where
  readyState : ReadyState
  queue : List TexpressoChangeMessage
  /-- whether `this.workspace` is set -/
  workspace : Bool
  session : Option NativeSession
  renderDpi : Nat
  renderTheme : Option TexpressoRenderTheme
  initialized : Bool
  initializing : Bool
  processing : Bool
  isClosing : Bool
  latestReceivedRevision : Nat
  appliedRevision : Nat
  lastGoodRevision : Option Nat
  outbound : List OutboundTask
  /-- whether the listener of `onUnexpectedExit` is registered -/
  exitListener : Bool
  idleTimer : Bool
  lifetimeTimer : Bool
  work : Work
  closer : Closer
  /-- the life of the native session, started or only starting -/
  native : NativeLife
  exitError : Option JSString
  buffers : Buffers
  /-- whether the temporary directory exists -/
  directory : Bool
  /-- every frame given to `socket.send` -/
  sent : List Frame
  /-- the message the native session was started with -/
  opened : Option TexpressoInitializeMessage
  /-- the changes `enqueueChange` accepted -/
  accepted : List TexpressoChangeMessage
  /-- the changes given to an open native session -/
  handed : List TexpressoChangeMessage

namespace LiveSession

/-- `constructor` -/
def new : LiveSession where
  readyState := .opened
  queue := []
  workspace := false
  session := none
  renderDpi := TEXPRESSO_WS_LIMITS.defaultDpi
  renderTheme := none
  initialized := false
  initializing := false
  processing := false
  isClosing := false
  latestReceivedRevision := 0
  appliedRevision := 0
  lastGoodRevision := none
  outbound := []
  exitListener := false
  idleTimer := true
  lifetimeTimer := true
  work := .idle
  closer := .idle
  native := .unstarted
  exitError := none
  buffers := fun _ => none
  directory := false
  sent := []
  opened := none
  accepted := []
  handed := []

/-! ## Sending -/

/-- `enqueueFrames` -/
def enqueueFrames (frames : List Frame) (awaiter : Awaiter) (s : LiveSession)
    (h : ∀ frame ∈ frames.tail, frame.isBinary = true) : LiveSession :=
  { s with outbound := s.outbound ++ [⟨frames, false, awaiter, h⟩] }

/-- `sendJson` -/
def sendJson (message : TexpressoServerMessage) (awaiter : Awaiter) (s : LiveSession) :
    LiveSession :=
  s.enqueueFrames [.json message] awaiter (by simp)

/-- `sendPage` -/
def sendPage (revision : Nat) (page : TexpressoRenderedPage) (s : LiveSession) : LiveSession :=
  s.enqueueFrames [.json (.page revision (pageDescriptor page)), .binary page.data] .work
    (by simp [Frame.isBinary])

/-- `protocolFailure` up to its `await` -/
def protocolFailure (code message : JSString) (isFatal : Bool) (revision : Option Nat)
    (s : LiveSession) : LiveSession :=
  s.sendJson (.protocolError code message isFatal revision) (.protocolFailure isFatal)

/-! ## `close` -/

/-- The part of `close` after the client was notified, up to the wait for the cleanup. -/
def tearDown (notifyClient : Bool) (s : LiveSession) : LiveSession :=
  { s with
    native := if s.session.isSome then s.native.close else s.native
    closer := .tearingDown s.workspace notifyClient }

/-- The part of `close` before anything is awaited. -/
def beginClosing (s : LiveSession) : LiveSession :=
  { s with
    isClosing := true
    idleTimer := false
    lifetimeTimer := false
    queue := []
    exitListener := false }

/-- `close` up to its first wait -/
def close (reason : LiveSessionCloseReason) (notifyClient : Bool) (s : LiveSession) : LiveSession :=
  if s.isClosing then s
  else if notifyClient ∧ s.readyState = .opened then
    { s.beginClosing with closer := .notifying }.sendJson (.sessionClosed reason) .close
  else s.beginClosing.tearDown notifyClient

/-- `socket.close(…)` -/
def closeSocket (s : LiveSession) : LiveSession :=
  { s with readyState := if s.readyState = .opened then .closing else s.readyState }

/-- The end of `close`. -/
def closeFinishes (notifyClient : Bool) (s : LiveSession) : LiveSession :=
  if notifyClient then { s with closer := .done } else { s.closeSocket with closer := .done }

/-- `this.appliedRevision || undefined` -/
def appliedRevision? (s : LiveSession) : Option Nat :=
  if s.appliedRevision = 0 then none else some s.appliedRevision

/-- What a `catch` block reports. -/
def failureMessage (caller : Caller) (error : JSString) (s : LiveSession) : TexpressoServerMessage :=
  match caller with
  | .initializeSession revision =>
      .sessionError (js "initialization-failed") error (some revision)
  | .drainChanges => .sessionError (js "session-operation-failed") error s.appliedRevision?

/-- `sessionFailure` of the method that does the work, which waits for it. -/
def workFailed (caller : Caller) (error : JSString) (s : LiveSession) : LiveSession :=
  if s.isClosing then { s with work := .resume (.done caller) }
  else { s with work := .sessionFailure caller }.sendJson (s.failureMessage caller error) .failure

/-- `nativeSessionFailed` -/
def nativeSessionFailed (error : JSString) (s : LiveSession) : LiveSession :=
  if s.isClosing then s
  else s.sendJson (.sessionError (js "texpresso-exited") error s.appliedRevision?) .nativeExit

/-! ## `drainChanges` -/

/-- The loop of `drainChanges` with a change in the queue, up to its first wait. -/
def takeChange (change : TexpressoChangeMessage) (rest : List TexpressoChangeMessage)
    (s : LiveSession) : LiveSession :=
  { s with queue := rest, work := .revisionStarted change }.sendJson
    (.revisionStarted change.revision rest.length) .work

/-- `drainChanges`; with an empty queue it ends where it began. -/
def drainChanges (s : LiveSession) : LiveSession :=
  if s.processing ∨ s.initializing ∨ s.isClosing ∨ s.session.isNone then s
  else match s.queue with
    | [] => s
    | change :: rest => { s with processing := true }.takeChange change rest

/-- The `finally` block of `drainChanges`. -/
def drainFinally (s : LiveSession) : LiveSession :=
  if s.isClosing = false ∧ s.queue ≠ [] then
    { s with processing := false, work := .idle }.drainChanges
  else { s with processing := false, work := .idle }

/-- The head of the loop of `drainChanges`. -/
def drainLoop (s : LiveSession) : LiveSession :=
  match s.isClosing, s.queue with
  | false, change :: rest => s.takeChange change rest
  | _, _ => s.drainFinally

/-- The `finally` block of `initialize`. -/
def initializeFinally (s : LiveSession) : LiveSession :=
  if s.isClosing then { s with initializing := false, work := .idle }
  else { s with initializing := false, work := .idle }.drainChanges

/-- Go on with the work. -/
def continueWith (next : Continuation) (s : LiveSession) : LiveSession :=
  match next with
  | .loop => s.drainLoop
  | .done (.initializeSession _) => s.initializeFinally
  | .done .drainChanges => s.drainFinally

/-- The work after an awaited method that returned. -/
def returned (caller : Caller) (s : LiveSession) : LiveSession :=
  match caller with
  | .initializeSession _ => { s with work := .resume (.done caller) }
  | .drainChanges => { s with work := .resume .loop }

/-! ## `renderRevision` -/

/-- The head of the loop of `renderRevision`; its page is always the number of pages so far. -/
def nextPage (caller : Caller) (revision : Nat) (pages : List TexpressoRenderedPage)
    (s : LiveSession) : LiveSession :=
  if revision ≠ s.latestReceivedRevision ∧ pages ≠ [] then s.returned caller
  else { s with work := .renderPage caller revision pages }

/-- `renderRevision` up to its first wait -/
def renderRevision (caller : Caller) (revision : Nat) (s : LiveSession) : LiveSession :=
  if s.session.isNone ∨ s.isClosing then s.returned caller else s.nextPage caller revision []

/-- What the `try` block of `renderRevision` adds to the pages, or throws. -/
def addPage (pages : List TexpressoRenderedPage) (image : PageImage) (dpi : Nat) :
    Except JSString (List TexpressoRenderedPage) :=
  if pages.length = TEXPRESSO_WS_LIMITS.maxPages then
    .error (js "Document exceeds the private transport limit of "
      ++ jsNat TEXPRESSO_WS_LIMITS.maxPages ++ js " pages.")
  else if TEXPRESSO_WS_LIMITS.maxPageBytes < image.data.length ∨
      TEXPRESSO_WS_LIMITS.maxDocumentImageBytes
        < (pages.map fun page => page.data.length).sum + image.data.length then
    .error (js "Rendered PNG payload exceeds the private transport image limits.")
  else .ok (pages ++ [⟨image, pages.length, dpi⟩])

/-- The `try` block of `renderRevision` after `renderPage` settled. -/
def pageRendered (caller : Caller) (revision : Nat) (pages : List TexpressoRenderedPage)
    (result : Except JSString PageImage) (s : LiveSession) : LiveSession :=
  match result.bind fun image => addPage pages image s.renderDpi with
  | .error error => { s with work := .pageCount caller revision pages error }
  | .ok pages => s.nextPage caller revision pages

/-- The part of `renderRevision` after its loop. -/
def publish (caller : Caller) (revision : Nat) (pages : List TexpressoRenderedPage)
    (s : LiveSession) : LiveSession :=
  if revision ≠ s.latestReceivedRevision then s.returned caller
  else
    { s with lastGoodRevision := some revision, work := .document caller revision pages }.sendJson
      (.document revision revision pages.length (pages.map pageDescriptor)) .work

/-- The `catch` block of `renderRevision` after `getPageCount` settled. -/
def pagesCounted (caller : Caller) (revision : Nat) (pages : List TexpressoRenderedPage)
    (error : JSString) (result : Except JSString Nat) (s : LiveSession) : LiveSession :=
  match result with
  | .error error => s.workFailed caller error
  | .ok pageCount =>
      if pages.length < TEXPRESSO_WS_LIMITS.maxPages ∧ pageCount = pages.length ∧ pages ≠ [] then
        s.publish caller revision pages
      else s.workFailed caller error

/-- The loop of `renderRevision` over the pages to send, and what follows it. -/
def sendFrom (caller : Caller) (revision : Nat) (pages : List TexpressoRenderedPage) (index : Nat)
    (s : LiveSession) : LiveSession :=
  match pages[index]? with
  | some page => { s with work := .page caller revision pages index }.sendPage revision page
  | none => { s with work := .complete caller }.sendJson
      (.revisionComplete revision revision pages.length pages.length) .work

/-- The end of the output and the log. -/
def diagnosticLog (snapshot : TexpressoSnapshot) : JSString :=
  let text := snapshot.output ++ js "\n" ++ snapshot.log
  text.drop (text.length - TEXPRESSO_WS_LIMITS.maxDiagnosticLogChars)

/-- `sendCompileError` -/
def sendCompileError (caller : Caller) (revision : Nat) (snapshot : TexpressoSnapshot)
    (s : LiveSession) : LiveSession :=
  { s with work := .compileError caller }.sendJson
    (.compileError revision s.lastGoodRevision (diagnosticLog snapshot)) .work

/-! ## Client frames -/

/-- `initialize` up to its first wait -/
def initializeSession (message : TexpressoInitializeMessage) (s : LiveSession) : LiveSession :=
  { s with initializing := true, work := .mkdtemp message }

/-- Put an accepted change into the queue. -/
def accept (message : TexpressoChangeMessage) (s : LiveSession) : LiveSession :=
  { s with
    latestReceivedRevision := message.revision
    queue := s.queue ++ [message]
    accepted := s.accepted ++ [message] }

/-- `enqueueChange` -/
def enqueueChange (message : TexpressoChangeMessage) (s : LiveSession) : LiveSession :=
  if s.initialized = false ∨ s.session.isNone then
    s.protocolFailure (js "not-initialized")
      (js "Send initialize and wait for session-ready before sending changes.") false message.revision
  else if message.revision ≤ s.latestReceivedRevision then
    s.protocolFailure (js "stale-revision")
      (js "Revision " ++ jsNat message.revision ++ js " is not greater than the latest accepted revision "
        ++ jsNat s.latestReceivedRevision ++ js ".") false message.revision
  else if TEXPRESSO_WS_LIMITS.maxQueuedRevisions ≤ s.queue.length then
    s.protocolFailure (js "revision-queue-full")
      (js "Revision queue exceeds " ++ jsNat TEXPRESSO_WS_LIMITS.maxQueuedRevisions
        ++ js "; reconnect with a complete current source state.") true message.revision
  else if (s.buffers (normalizePath message.path)).isNone then
    s.protocolFailure (js "unknown-file")
      (js "Change path is not an open text file: " ++ message.path ++ js ".") false message.revision
  else if s.initializing then s.accept message
  else (s.accept message).drainChanges

/-- `handleFrame` -/
def handleFrame (platform : Platform) (frame : ClientFrame) (s : LiveSession) : LiveSession :=
  if s.isClosing then s
  else match frame with
    | .binary => s.protocolFailure (js "unexpected-binary-frame")
        (js "Clients must send JSON text frames; binary frames are server-to-client PNG payloads only.")
        true none
    | .text none => s.protocolFailure (js "malformed-json")
        (js "WebSocket text frames must contain valid JSON.") false none
    | .text (some value) =>
        match validateTexpressoClientMessage platform value with
        | .error refusal => s.protocolFailure refusal.code refusal.message false refusal.revision
        | .ok .shutdown => s.close .clientShutdown true
        | .ok (.initializeSession message) =>
            if s.initialized ∨ s.initializing then
              s.protocolFailure (js "already-initialized")
                (js "A WebSocket connection can initialize only one TeXpresso session.") false
                message.revision
            else s.initializeSession message
        | .ok (.change message) => s.enqueueChange message

/-! ## Start-up -/

/-- The loop of `materializeProjectFiles`, and what follows it. -/
def materialize (platform : Platform) (message : TexpressoInitializeMessage)
    (files : List ProjectFile) (s : LiveSession) : LiveSession :=
  match files with
  | [] => { s with native := .starting, work := .start message }
  | file :: rest =>
      match validateProjectPath platform (some (.string file.path)) (js "project file path") with
      | .error pathError => s.workFailed (.initializeSession message.revision) pathError
      | .ok _ => { s with work := .materialize message file rest false }

/-- The session is set up, up to the send of `session-ready`. -/
def adopt (message : TexpressoInitializeMessage) (session : NativeSession) (s : LiveSession) :
    LiveSession :=
  { s with
    native := .running
    session := some session
    buffers := openBuffers message.files
    opened := some message
    renderDpi := message.render.dpi
    renderTheme := message.render.theme
    latestReceivedRevision := message.revision
    appliedRevision := message.revision
    initialized := true
    exitListener := true
    work := .sessionReady message.revision }

/-- `initialize` after `startLiveLatexSession` returned. -/
def started (message : TexpressoInitializeMessage) (session : NativeSession) (s : LiveSession) :
    LiveSession :=
  if s.isClosing then { s with native := .closing, work := .discard message.revision }
  else (s.adopt message session).sendJson
    (.sessionReady TEXPRESSO_WS_PROTOCOL_VERSION message.revision session.pid message.render) .work

/-! ## Applying a change -/

/-- Whether the native session takes commands, with the error it throws otherwise. -/
def nativeOpen (s : LiveSession) : Except JSString Unit :=
  match s.exitError, s.native with
  | none, .running => .ok ()
  | some error, _ => .error error
  | none, _ => match s.session.map NativeSession.backend with
    | some .fullCompile => .error (js "Live-preview session is closed.")
    | _ => .error (js "TeXpresso session is closed.")

/-- The outcome of `session.applyRangeChange` before its first wait: the new buffers. -/
def editOutcome (change : TexpressoChangeMessage) (s : LiveSession) : Except JSString Buffers :=
  match s.session.map NativeSession.backend with
  | some .fullCompile => FullCompileLiveSession.applyRangeChange s.buffers s.nativeOpen change.path
      change.range change.text
  | _ => TexpressoSession.applyRangeChange s.buffers s.nativeOpen change.path change.range change.text

/-- `session.applyRangeChange` up to its first wait. -/
def callApplyRangeChange (change : TexpressoChangeMessage) (s : LiveSession) : LiveSession :=
  { s with
    buffers := (s.editOutcome change).toOption.getD s.buffers
    handed := if s.nativeOpen.isOk then s.handed ++ [change] else s.handed
    work := .applyRangeChange change ((s.editOutcome change).map fun _ => ()) }

/-- Tell the client that a change was applied. -/
def tellApplied (revision : Nat) (render : RevisionRender) (work : Work) (s : LiveSession) :
    LiveSession :=
  { s with appliedRevision := revision, work := work }.sendJson
    (.revisionApplied revision render s.queue.length) .work

/-- `drainChanges` after `applyRangeChange` settled. -/
def applied (change : TexpressoChangeMessage) (result : Except JSString TexpressoSnapshot)
    (s : LiveSession) : LiveSession :=
  match result with
  | .error error => { s with work := .invalidRange }.sendJson
      (.protocolError (js "invalid-change-range") error true change.revision) .failure
  | .ok snapshot =>
      if snapshot.result = .latexError then
        s.tellApplied change.revision .notRendered (.notRendered change snapshot)
      else if s.queue ≠ [] then s.tellApplied change.revision .coalesced .coalesced
      else s.tellApplied change.revision .pending (.pending change)

/-! ## Settled sends -/

/-- The work after a send that succeeded. -/
def sendSucceeded (s : LiveSession) : LiveSession :=
  match s.work with
  | .sessionReady revision => { s with work := .snapshot revision }
  | .revisionStarted change => s.callApplyRangeChange change
  | .notRendered change snapshot => s.sendCompileError .drainChanges change.revision snapshot
  | .coalesced => { s with work := .resume .loop }
  | .pending change => s.renderRevision .drainChanges change.revision
  | .compileError caller => s.returned caller
  | .document caller revision pages => s.sendFrom caller revision pages 0
  | .page caller revision pages index => s.sendFrom caller revision pages (index + 1)
  | .complete caller => s.returned caller
  | _ => s

/-- The work after a send that failed. -/
def sendFailed (error : JSString) (s : LiveSession) : LiveSession :=
  match s.work with
  | .sessionReady revision => s.workFailed (.initializeSession revision) error
  | .revisionStarted _ | .notRendered _ _ | .coalesced | .pending _ =>
      s.workFailed .drainChanges error
  | .compileError caller | .document caller _ _ | .page caller _ _ _ | .complete caller =>
      s.workFailed caller error
  | _ => s

/-- The work after a failure was reported, or could not be: it waits for `close`. -/
def awaitClose (s : LiveSession) : LiveSession :=
  match s.work with
  | .invalidRange => { s with work := .closing .loop }
  | .sessionFailure caller => { s with work := .closing (.done caller) }
  | _ => s

/-- Resume whoever waits for a task that settled. -/
def settled (awaiter : Awaiter) (result : Except JSString Unit) (s : LiveSession) : LiveSession :=
  match awaiter with
  | .work => match result with
    | .ok _ => s.sendSucceeded
    | .error error => s.sendFailed error
  | .protocolFailure true => s.close .error true
  | .protocolFailure false => match result with
    | .ok _ => s
    | .error _ => s.close .error false
  | .failure => (s.close .error true).awaitClose
  | .nativeExit => s.close .error true
  | .close => s.closeSocket.tearDown true

end LiveSession

/-! ## Events -/

/-- What can happen to a session. -/
inductive LiveEvent where
  | frame (frame : ClientFrame)
  | idleTimeout
  | lifetimeTimeout
  /-- the peer closes or is lost: `readyState` changes before the `close` event -/
  | peerCloses
  | socketClosed
  | socketError
  | serverShutdown
  /-- the first task of the outbound queue looks at its next frame -/
  | sendFrame
  | sendSettled (result : Except JSString Unit)
  | mkdtempSettled (result : Except JSString Unit)
  | materializeSettled (result : Except JSString Unit)
  /-- a native run prepares its environment and makes its directories -/
  | prepareEnvironment
  | startSettled (result : Except JSString NativeSession)
  | snapshotTaken (snapshot : TexpressoSnapshot)
  | applySettled (result : Except JSString TexpressoSnapshot)
  | pageSettled (result : Except JSString PageImage)
  | pageCountSettled (result : Except JSString Nat)
  | nativeExits (error : JSString)
  /-- a request timed out: the native session closes itself -/
  | nativeTimeout
  | nativeClosed
  | resume
  | removeSettled (removed : Bool)
  | closeFinishes

namespace LiveSession

/-- The first task of the outbound queue sends its next frame, or ends when the socket is no longer
open. -/
def sendFrame (s : LiveSession) : Option LiveSession :=
  match s.outbound with
  | ⟨frame :: rest, false, awaiter, hrest⟩ :: tasks =>
      if s.readyState = .opened then
        some { s with
          outbound := ⟨rest, true, awaiter, hrest⟩ :: tasks
          sent := s.sent ++ [frame] }
      else some ({ s with outbound := tasks }.settled awaiter (.ok ()))
  | _ => none

/-- The callback of `socket.send`. -/
def sendSettled (result : Except JSString Unit) (s : LiveSession) : Option LiveSession :=
  match s.outbound with
  | ⟨frames, true, awaiter, hframes⟩ :: tasks =>
      if result.isOk ∧ frames ≠ [] then
        some { s with outbound := ⟨frames, false, awaiter, fun frame hframe =>
          hframes frame (List.mem_of_mem_tail hframe)⟩ :: tasks }
      else some ({ s with outbound := tasks }.settled awaiter result)
  | _ => none

/-- The timers, the socket and the server. -/
def onSocket (platform : Platform) (event : LiveEvent) (s : LiveSession) : Option LiveSession :=
  match event with
  | .frame frame =>
      if s.readyState = .closed then none
      else some ({ s with idleTimer := true }.handleFrame platform frame)
  | .idleTimeout =>
      if s.idleTimer then some ({ s with idleTimer := false }.close .error true) else none
  | .lifetimeTimeout =>
      if s.lifetimeTimer then some ({ s with lifetimeTimer := false }.close .error true) else none
  | .peerCloses => some s.closeSocket
  | .socketClosed =>
      if s.readyState = .closed then none
      else some ({ s with readyState := .closed }.close .clientDisconnect false)
  | .socketError => if s.readyState = .closed then none else some (s.close .error false)
  | .serverShutdown => some (s.close .serverShutdown true)
  | .sendFrame => s.sendFrame
  | .sendSettled result => s.sendSettled result
  | _ => none

/-- The steps of `initialize` up to the start of the native session. -/
def onStartUp (platform : Platform) (event : LiveEvent) (s : LiveSession) : Option LiveSession :=
  match event, s.work with
  | .mkdtempSettled result, .mkdtemp message => match result with
    | .ok _ => some ({ s with workspace := true, directory := true }.materialize platform message
        message.files)
    | .error error => some (s.workFailed (.initializeSession message.revision) error)
  | .materializeSettled result, .materialize message file rest writing => match result, writing with
    | .error error, _ => some (s.workFailed (.initializeSession message.revision) error)
    | .ok _, false => some { s with directory := true, work := .materialize message file rest true }
    | .ok _, true => some (s.materialize platform message rest)
  | .startSettled result, .start message => match result with
    | .ok session => some (s.started message session)
    | .error error => some ({ s with native := .closed }.workFailed (.initializeSession message.revision) error)
  | _, _ => none

/-- The native session. -/
def onNative (event : LiveEvent) (s : LiveSession) : Option LiveSession :=
  match event, s.work with
  | .prepareEnvironment, .start _ => some { s with directory := true }
  | .prepareEnvironment, .applyRangeChange _ (.ok _) =>
      if s.session.map NativeSession.backend = some .fullCompile then
        some { s with directory := true }
      else none
  | .snapshotTaken snapshot, .snapshot revision =>
      if snapshot.result = .latexError then
        some (s.sendCompileError (.initializeSession revision) revision snapshot)
      else some (s.renderRevision (.initializeSession revision) revision)
  | .applySettled result, .applyRangeChange change outcome => match outcome, result with
    | .ok _, result => some (s.applied change result)
    | .error error, _ => some (s.applied change (.error error))
  | .pageSettled result, .renderPage caller revision pages =>
      some (s.pageRendered caller revision pages result)
  | .pageCountSettled result, .pageCount caller revision pages error =>
      some (s.pagesCounted caller revision pages error result)
  | .nativeExits error, _ =>
      if s.native = .running ∧ s.exitError = none ∧
          s.session.map NativeSession.backend = some .texpresso then
        if s.exitListener then some ({ s with exitError := some error }.nativeSessionFailed error)
        else some { s with exitError := some error }
      else none
  | .nativeTimeout, _ =>
      if s.native = .running ∧ s.session.map NativeSession.backend = some .texpresso then
        some { s with native := .closing }
      else none
  | .nativeClosed, work =>
      if s.native = .closing then match work with
        | .discard revision => some { s with
            native := .closed
            work := .resume (.done (.initializeSession revision)) }
        | _ => some { s with native := .closed }
      else none
  | _, _ => none

/-- Suspended methods. -/
def onMethods (event : LiveEvent) (s : LiveSession) : Option LiveSession :=
  match event with
  | .resume => match s.work with
    | .resume next => some (s.continueWith next)
    | .closing next => if s.closer = .done then some (s.continueWith next) else none
    | _ => none
  | .removeSettled removed => match s.closer with
    | .tearingDown true notifyClient => some { s with
        directory := s.directory && !removed
        closer := .tearingDown false notifyClient }
    | _ => none
  | .closeFinishes => match s.closer with
    | .tearingDown false notifyClient =>
        if s.session.isSome ∧ s.native ≠ .closed then none else some (s.closeFinishes notifyClient)
    | _ => none
  | _ => none

/-- What a session does when an event occurs; `none` when it cannot occur. -/
def step (platform : Platform) (s : LiveSession) (event : LiveEvent) : Option LiveSession :=
  match event with
  | .mkdtempSettled _ | .materializeSettled _ | .startSettled _ => s.onStartUp platform event
  | .prepareEnvironment | .snapshotTaken _ | .applySettled _ | .pageSettled _ | .pageCountSettled _
  | .nativeExits _ | .nativeTimeout | .nativeClosed => s.onNative event
  | .resume | .removeSettled _ | .closeFinishes => s.onMethods event
  | _ => s.onSocket platform event

end LiveSession

/-- The runs of a session. -/
def liveSystem (platform : Platform) : Core.System LiveSession LiveEvent where
  init := .new
  step := LiveSession.step platform

end Typr
