import Mathlib.Data.List.Chain
import TyprCompanion.LivePreview.Images

/-!
# Interference and moves

What a step of a session can be, as far as `initialize` and `drainChanges` are concerned.

* `wire` — the frames sent and the frames queued.
* `Interferes` — what clients, timers, the socket, `close` and the native session do to the state
  the two methods work on.
* `Move` — what the two methods do from one wait to the next.
-/

namespace Typr

/-! ## Who works -/

/-- The method that goes on. -/
def Continuation.caller : Continuation → Caller
  | loop => .drainChanges
  | done caller => caller

/-- Where a method goes on after an awaited method returned. -/
def Caller.next : Caller → Continuation
  | initializeSession revision => .done (.initializeSession revision)
  | drainChanges => .loop

@[simp] theorem Caller.caller_next (caller : Caller) : caller.next.caller = caller := by
  cases caller <;> rfl

/-- The method that does the work. -/
def Work.caller : Work → Option Caller
  | idle => none
  | mkdtemp message | materialize message _ _ _ | start message =>
      some (.initializeSession message.revision)
  | discard revision | sessionReady revision | snapshot revision =>
      some (.initializeSession revision)
  | revisionStarted _ | applyRangeChange _ _ | invalidRange | notRendered _ _ | coalesced
  | pending _ => some .drainChanges
  | compileError caller | renderPage caller _ _ | pageCount caller _ _ _ | document caller _ _
  | page caller _ _ _ | complete caller | sessionFailure caller => some caller
  | closing next | resume next => some next.caller

/-- Before the session is set. -/
def Work.isStartUp : Work → Bool
  | mkdtemp _ | materialize _ _ _ _ | start _ | discard _ => true
  | _ => false

/-- A call of the native session that ends in `sessionFailure` when it throws. -/
def Work.mayThrow : Work → Bool
  | pageCount _ _ _ _ => true
  | work => work.isStartUp

theorem Work.mayThrow_of_isStartUp {work : Work} (h : work.isStartUp = true) :
    work.mayThrow = true := by
  cases work <;> first | rfl | exact h

/-- The revision about to be rendered. -/
def Work.unrendered? : Work → Option (Caller × Nat)
  | snapshot revision => some (.initializeSession revision, revision)
  | pending change => some (.drainChanges, change.revision)
  | _ => none

/-- The revision about to be reported as one that does not compile. -/
def Work.failed? : Work → Option (Caller × Nat)
  | snapshot revision => some (.initializeSession revision, revision)
  | notRendered change _ => some (.drainChanges, change.revision)
  | _ => none

/-- The pages being sent, and the index of the next one. -/
def Work.unsent? : Work → Option (Caller × Nat × List TexpressoRenderedPage × Nat)
  | document caller revision pages => some (caller, revision, pages, 0)
  | page caller revision pages index => some (caller, revision, pages, index + 1)
  | _ => none

/-- Increasing numbers and a greater one. -/
theorem pairwise_concat {numbers : List Nat} {n : Nat} (h : numbers.Pairwise (· < ·))
    (hlast : ∀ last, numbers.getLast? = some last → last < n) :
    (numbers ++ [n]).Pairwise (· < ·) := by
  rw [← List.isChain_iff_pairwise, List.isChain_append]
  refine ⟨List.isChain_iff_pairwise.mpr h, List.isChain_singleton n, ?_⟩
  intro last hmem first hfirst
  obtain rfl : n = first := by simpa using hfirst
  exact hlast last hmem

namespace LiveSession

/-- The frames sent and the frames queued. -/
def wire (s : LiveSession) : List Frame := s.sent ++ s.outbound.flatMap OutboundTask.frames

@[simp] theorem wire_enqueueFrames (frames : List Frame) (awaiter : Awaiter) (s : LiveSession)
    (h : ∀ frame ∈ frames.tail, frame.isBinary = true) :
    (s.enqueueFrames frames awaiter h).wire = s.wire ++ frames := by
  simp [wire, enqueueFrames]

@[simp] theorem wire_sendJson (message : TexpressoServerMessage) (awaiter : Awaiter)
    (s : LiveSession) : (s.sendJson message awaiter).wire = s.wire ++ [.json message] :=
  wire_enqueueFrames ..

/-- Nobody works. -/
def atRest (s : LiveSession) : LiveSession :=
  { s with initializing := false, processing := false, work := .idle }

/-- The queue of changes and what decides about it. -/
def SameQueue (s t : LiveSession) : Prop :=
  t.isClosing = s.isClosing ∧ t.queue = s.queue ∧ t.accepted = s.accepted ∧
    t.latestReceivedRevision = s.latestReceivedRevision

/-- A failed send is only seen when the socket is no longer open. -/
def SendsComplete (s : LiveSession) : LiveEvent → Prop
  | .sendSettled (.error _) => s.readyState ≠ .opened
  | _ => True

end LiveSession

/-- Once `session-closed` was given to the socket it is the last frame, and until the socket is
closed its task is the one being sent. -/
structure ClosedIsLast (readyState : ReadyState) (outbound : List OutboundTask) (sent : List Frame) :
    Prop where
  tasks : ∀ task ∈ outbound, task.inFlight = false → ∀ reason,
    .json (.sessionClosed reason) ∈ task.frames →
      task.frames = [.json (.sessionClosed reason)] ∧ task.awaiter = .close
  last : ∀ front reason back, sent = front ++ .json (.sessionClosed reason) :: back →
    back = [] ∧ (readyState = .opened → ∃ task tasks, outbound = task :: tasks ∧
      task.inFlight = true ∧ task.frames = [] ∧ task.awaiter = .close)

/-- Nothing is sent after `session-closed`. -/
abbrev LiveSession.Farewell (s : LiveSession) : Prop :=
  ClosedIsLast s.readyState s.outbound s.sent

/-- A message any method may send at any time. -/
def Frame.isNotice : Frame → Bool
  | json (.protocolError _ _ _ _) | json (.sessionError _ _ _) | json (.sessionClosed _) => true
  | _ => false

/-! ## Interference -/

/-- What a step does to the queue: nothing, a change is accepted, or `close` empties it. -/
def Received (s t : LiveSession) : Prop :=
  LiveSession.SameQueue s t ∨
    (∃ message, s.isClosing = false ∧ t.isClosing = false ∧ s.session.isSome = true ∧
      s.latestReceivedRevision < message.revision ∧
      t.queue = s.queue ++ [message] ∧ t.accepted = s.accepted ++ [message] ∧
      t.latestReceivedRevision = message.revision) ∨
    (t.isClosing = true ∧ t.queue = [] ∧ t.accepted = s.accepted ∧
      t.latestReceivedRevision = s.latestReceivedRevision)

/-- **Interference** with the work.  `intact` says that no send failed while the socket was open. -/
structure Interferes (intact : Prop) (s t : LiveSession) : Prop where
  work : t.work = s.work
  session : t.session = s.session
  initialized : t.initialized = s.initialized
  initializing : t.initializing = s.initializing
  processing : t.processing = s.processing
  appliedRevision : t.appliedRevision = s.appliedRevision
  lastGoodRevision : t.lastGoodRevision = s.lastGoodRevision
  buffers : t.buffers = s.buffers
  opened : t.opened = s.opened
  handed : t.handed = s.handed
  received : Received s t
  readyState : t.readyState = .opened → s.readyState = .opened
  sent : t.sent = s.sent ∨ t.readyState = .opened
  messages : t.readyState = .opened → ∀ message, .json message ∈ s.wire → .json message ∈ t.wire
  wire : t.readyState = .opened → intact →
    ∃ notices, (∀ frame ∈ notices, Frame.isNotice frame = true) ∧ t.wire = s.wire ++ notices
  farewell : s.Farewell → t.Farewell
  images : ∀ fresh, ImagesFollow fresh s.outbound s.sent → ImagesFollow fresh t.outbound t.sent

variable {intact : Prop} {s t u : LiveSession}

/-- A task that waits for its turn. -/
theorem ClosedIsLast.enqueueFrames {frames : List Frame} {awaiter : Awaiter} (h : s.Farewell)
    {hframes : ∀ frame ∈ frames.tail, frame.isBinary = true}
    (hawaiter : ∀ reason, .json (.sessionClosed reason) ∈ frames →
      frames = [.json (.sessionClosed reason)] ∧ awaiter = .close) :
    (s.enqueueFrames frames awaiter hframes).Farewell where
  tasks := by
    intro task hmem hflight reason hclosed
    rcases List.mem_append.mp hmem with hmem | hmem
    · exact h.tasks task hmem hflight reason hclosed
    · rw [List.mem_singleton] at hmem
      subst hmem
      exact hawaiter reason hclosed
  last := by
    intro front reason back hsent
    obtain ⟨hback, hfirst⟩ := h.last front reason back hsent
    refine ⟨hback, ?_⟩
    intro hopen
    obtain ⟨task, tasks, hout, hflight⟩ := hfirst hopen
    refine ⟨task, tasks ++ [⟨frames, false, awaiter, hframes⟩], ?_, hflight⟩
    show s.outbound ++ _ = _
    rw [hout, List.cons_append]

theorem ClosedIsLast.sendJson {message : TexpressoServerMessage} {awaiter : Awaiter} (h : s.Farewell)
    (hawaiter : ∀ reason, message = .sessionClosed reason → awaiter = .close) :
    (s.sendJson message awaiter).Farewell := by
  refine h.enqueueFrames ?_
  intro reason hmem
  have hmessage : message = .sessionClosed reason := by simpa [eq_comm] using hmem
  subst hmessage
  exact ⟨rfl, hawaiter reason rfl⟩

namespace ClosedIsLast

variable {readyState readyState' : ReadyState} {outbound tasks : List OutboundTask}
  {task : OutboundTask} {sent : List Frame}

/-- The socket is closed. -/
theorem socket (h : ClosedIsLast readyState outbound sent) (hclosed : readyState' ≠ .opened) :
    ClosedIsLast readyState' outbound sent where
  tasks := h.tasks
  last := fun front reason back hsent =>
    ⟨(h.last front reason back hsent).1, fun hopen => absurd hopen hclosed⟩

theorem closeSocket (h : s.Farewell) : s.closeSocket.Farewell := by
  unfold LiveSession.Farewell LiveSession.closeSocket
  dsimp only
  split
  · exact h.socket nofun
  · exact h

/-- The first task is over; the one of `session-closed` closes the socket. -/
theorem tail (h : ClosedIsLast readyState (task :: tasks) sent)
    (hopen : readyState' = .opened → readyState = .opened ∧ task.awaiter ≠ .close) :
    ClosedIsLast readyState' tasks sent where
  tasks := fun other hmem => h.tasks other (List.mem_cons_of_mem _ hmem)
  last := by
    intro front reason back hsent
    obtain ⟨hback, hfirst⟩ := h.last front reason back hsent
    refine ⟨hback, ?_⟩
    intro hopen'
    obtain ⟨hbefore, hawaiter⟩ := hopen hopen'
    obtain ⟨first, rest, hout, _, _, hclose⟩ := hfirst hbefore
    cases hout
    exact absurd hclose hawaiter

/-- The first task sends its next frame. -/
theorem sends {frame : Frame} {rest : List Frame} {awaiter : Awaiter}
    {hrest : ∀ frame ∈ rest, frame.isBinary = true}
    (h : ClosedIsLast readyState (⟨frame :: rest, false, awaiter, hrest⟩ :: tasks) sent)
    (hopen : readyState = .opened) :
    ClosedIsLast readyState (⟨rest, true, awaiter, hrest⟩ :: tasks) (sent ++ [frame]) where
  tasks := by
    intro other hmem hflight
    rcases List.mem_cons.mp hmem with rfl | hmem
    · cases hflight
    · exact h.tasks other (List.mem_cons_of_mem _ hmem) hflight
  last := by
    intro front reason back hsent
    -- `session-closed` was not sent before, or its task were the one in flight
    have hfresh (front' back' : List Frame) :
        sent ≠ front' ++ .json (.sessionClosed reason) :: back' := by
      intro hbefore
      obtain ⟨_, hfirst⟩ := h.last front' reason back' hbefore
      obtain ⟨first, rest', hout, hflight, _⟩ := hfirst hopen
      cases hout
      cases hflight
    cases back using List.reverseRecOn with
    | nil =>
        obtain ⟨_, hframe⟩ := List.append_inj' hsent rfl
        obtain rfl := (List.cons.inj hframe).1
        obtain ⟨hframes, hawaiter⟩ := h.tasks _ (List.mem_cons_self ..) rfl reason
          (List.mem_cons_self ..)
        exact ⟨rfl, fun _ => ⟨_, tasks, rfl, rfl, (List.cons.inj hframes).2, hawaiter⟩⟩
    | append_singleton back last =>
        rw [← List.cons_append, ← List.append_assoc] at hsent
        exact absurd (List.append_inj' hsent rfl).1 (hfresh front back)

/-- The first task goes on to its next frame. -/
theorem continues {frames : List Frame} {awaiter : Awaiter}
    {hframes : ∀ frame ∈ frames, frame.isBinary = true}
    {hframes' : ∀ frame ∈ frames.tail, frame.isBinary = true}
    (h : ClosedIsLast readyState (⟨frames, true, awaiter, hframes⟩ :: tasks) sent)
    (hne : frames ≠ []) :
    ClosedIsLast readyState (⟨frames, false, awaiter, hframes'⟩ :: tasks) sent where
  tasks := by
    intro other hmem hflight reason hclosed
    rcases List.mem_cons.mp hmem with rfl | hmem
    · cases hframes _ hclosed
    · exact h.tasks other (List.mem_cons_of_mem _ hmem) hflight reason hclosed
  last := by
    intro front reason back hsent
    obtain ⟨hback, hfirst⟩ := h.last front reason back hsent
    refine ⟨hback, ?_⟩
    intro hopen
    obtain ⟨first, rest, hout, _, hnil, _⟩ := hfirst hopen
    cases hout
    exact absurd hnil hne

end ClosedIsLast

namespace Interferes

theorem refl (intact : Prop) (s : LiveSession) : Interferes intact s s where
  work := rfl
  session := rfl
  initialized := rfl
  initializing := rfl
  processing := rfl
  appliedRevision := rfl
  lastGoodRevision := rfl
  buffers := rfl
  opened := rfl
  handed := rfl
  received := .inl ⟨rfl, rfl, rfl, rfl⟩
  readyState := id
  sent := .inl rfl
  messages := fun _ _ h => h
  wire := fun _ _ => ⟨[], by simp, by simp⟩
  farewell := id
  images := fun _ => id

/-- Sending a notice. -/
theorem sendJson {message : TexpressoServerMessage} {awaiter : Awaiter}
    (hnotice : Frame.isNotice (.json message) = true)
    (hawaiter : ∀ reason, message = .sessionClosed reason → awaiter = .close) :
    Interferes intact s (s.sendJson message awaiter) :=
  { Interferes.refl intact s with
    messages := by
      intro _ other hmem
      rw [LiveSession.wire_sendJson]
      exact List.mem_append_left _ hmem
    wire := by
      intro _ _
      exact ⟨[.json message], by simpa using hnotice, LiveSession.wire_sendJson ..⟩
    farewell := fun h => h.sendJson hawaiter
    images := fun _ h => h.concat ⟨rfl, .inl ⟨message, rfl⟩⟩ }

theorem close (reason : LiveSessionCloseReason) (notifyClient : Bool) :
    Interferes intact s (s.close reason notifyClient) := by
  have hclosed : Received s s.beginClosing := .inr (.inr ⟨rfl, rfl, rfl, rfl⟩)
  unfold LiveSession.close
  split
  · exact Interferes.refl intact s
  · split
    · have hnotice : Interferes intact s (s.sendJson (.sessionClosed reason) .close) :=
        Interferes.sendJson rfl fun _ _ => rfl
      exact { hnotice with received := hclosed }
    · exact { Interferes.refl intact s with received := hclosed }

theorem closeSocket : Interferes intact s s.closeSocket :=
  { Interferes.refl intact s with
    readyState := by
      unfold LiveSession.closeSocket
      dsimp only
      split
      · intro h
        cases h
      · exact id
    sent := .inl rfl
    messages := fun _ _ h => h
    wire := fun _ _ => ⟨[], by simp, by simp [LiveSession.wire, LiveSession.closeSocket]⟩
    farewell := ClosedIsLast.closeSocket }

/-- One interference after another, where the first neither sends nor concerns the queue. -/
theorem trans (h : Interferes intact s t) (h' : Interferes intact t u)
    (hqueue : LiveSession.SameQueue s t) (hsent : t.sent = s.sent) : Interferes intact s u where
  work := h'.work.trans h.work
  session := h'.session.trans h.session
  initialized := h'.initialized.trans h.initialized
  initializing := h'.initializing.trans h.initializing
  processing := h'.processing.trans h.processing
  appliedRevision := h'.appliedRevision.trans h.appliedRevision
  lastGoodRevision := h'.lastGoodRevision.trans h.lastGoodRevision
  buffers := h'.buffers.trans h.buffers
  opened := h'.opened.trans h.opened
  handed := h'.handed.trans h.handed
  received := by
    obtain ⟨hclosing, hqueue, haccepted, hlatest⟩ := hqueue
    have hreceived := h'.received
    simp only [Received, LiveSession.SameQueue, hclosing, hqueue, haccepted, hlatest, h.session]
      at hreceived
    exact hreceived
  readyState := fun hopen => h.readyState (h'.readyState hopen)
  sent := hsent ▸ h'.sent
  messages := fun hopen message hmem => h'.messages hopen message
    (h.messages (h'.readyState hopen) message hmem)
  wire := by
    intro hopen hintact
    obtain ⟨notices, hnotices, hwire⟩ := h.wire (h'.readyState hopen) hintact
    obtain ⟨notices', hnotices', hwire'⟩ := h'.wire hopen hintact
    refine ⟨notices ++ notices', ?_, by rw [hwire', hwire, List.append_assoc]⟩
    intro frame hframe
    rcases List.mem_append.mp hframe with hframe | hframe
    · exact hnotices frame hframe
    · exact hnotices' frame hframe
  farewell := fun hfarewell => h'.farewell (h.farewell hfarewell)
  images := fun fresh himages => h'.images fresh (h.images fresh himages)

end Interferes

/-! ## Moves -/

/-- The moves that only change where the work is. -/
inductive Advances (s : LiveSession) : Work → Work → Prop
  | prepared {caller : Caller} {work work' : Work} (hwork : work.isStartUp = true)
      (hwork' : work'.isStartUp = true) (hcaller : work.caller = some caller)
      (hcaller' : work'.caller = some caller)
      (hdiscard : ∀ revision, work' = .discard revision → s.isClosing = true) :
      Advances s work work'
  | discarded (revision : Nat) (hclosing : s.isClosing = true) :
      Advances s (.discard revision) (.resume (.done (.initializeSession revision)))
  | ready (revision : Nat) : Advances s (.sessionReady revision) (.snapshot revision)
  | coalesced : Advances s .coalesced (.resume .loop)
  | reported (caller : Caller) : Advances s (.compileError caller) (.resume caller.next)
  | completed (caller : Caller) : Advances s (.complete caller) (.resume caller.next)
  | renders {work : Work} {caller : Caller} {revision : Nat}
      (hwork : work.unrendered? = some (caller, revision)) :
      Advances s work (.renderPage caller revision [])
  | skips {work : Work} {caller : Caller} {revision : Nat}
      (hwork : work.unrendered? = some (caller, revision))
      (hskip : s.session.isNone = true ∨ s.isClosing = true) :
      Advances s work (.resume caller.next)
  | rendered (caller : Caller) (revision : Nat) {pages pages' : List TexpressoRenderedPage}
      {image : PageImage} {dpi : Nat} (hpages : LiveSession.addPage pages image dpi = .ok pages') :
      Advances s (.renderPage caller revision pages) (.renderPage caller revision pages')
  | notRendered (caller : Caller) (revision : Nat) (pages : List TexpressoRenderedPage)
      (error : JSString) :
      Advances s (.renderPage caller revision pages) (.pageCount caller revision pages error)
  | superseded {work : Work} {caller : Caller} {revision : Nat} {pages : List TexpressoRenderedPage}
      (hwork : work = .renderPage caller revision pages ∨
        ∃ error, work = .pageCount caller revision pages error)
      (hlatest : revision ≠ s.latestReceivedRevision) : Advances s work (.resume caller.next)
  | rejected (hclosing : s.isClosing = true) : Advances s .invalidRange (.closing .loop)
  | failed (caller : Caller) (hclosing : s.isClosing = true) :
      Advances s (.sessionFailure caller) (.closing (.done caller))

/-- The work is at the end of a wait, and goes on with `next`. -/
def Work.Resumes (work : Work) (next : Continuation) : Prop :=
  work = .resume next ∨ work = .closing next

/-- **A move of the work.** -/
inductive Move (intact : Prop) (s : LiveSession) : LiveSession → Prop
  | initializes (message : TexpressoInitializeMessage) (hclosing : s.isClosing = false)
      (hinitialized : s.initialized = false) (hinitializing : s.initializing = false) :
      Move intact s (s.initializeSession message)
  | advances (work : Work) (h : Advances s s.work work) : Move intact s { s with work := work }
  | fails {caller : Caller} (error : JSString) (hcaller : s.work.caller = some caller)
      (hwork : s.readyState = .opened → intact → s.work.mayThrow = true) :
      Move intact s (s.workFailed caller error)
  | adopts {message : TexpressoInitializeMessage} (session : NativeSession)
      (hwork : s.work = .start message) (hclosing : s.isClosing = false) :
      Move intact s ((s.adopt message session).sendJson
        (.sessionReady TEXPRESSO_WS_PROTOCOL_VERSION message.revision session.pid message.render)
        .work)
  | starts {change : TexpressoChangeMessage} {rest : List TexpressoChangeMessage}
      (hqueue : s.queue = change :: rest) (hclosing : s.isClosing = false)
      (hsession : s.session.isSome = true)
      (hwork : (s.initializing = false ∧ s.processing = false) ∨
        ∃ caller, s.work.Resumes (.done caller)) :
      Move intact s ({ s with initializing := false, processing := true }.takeChange change rest)
  | continues {change : TexpressoChangeMessage} {rest : List TexpressoChangeMessage}
      (hqueue : s.queue = change :: rest) (hclosing : s.isClosing = false)
      (hwork : s.work.Resumes .loop) : Move intact s (s.takeChange change rest)
  | rests (hqueue : s.isClosing = true ∨ s.queue = [] ∨ s.session = none)
      (hwork : ∃ next, s.work.Resumes next) :
      Move intact s s.atRest
  | applies {change : TexpressoChangeMessage} (hwork : s.work = .revisionStarted change) :
      Move intact s (s.callApplyRangeChange change)
  | rejects {change : TexpressoChangeMessage} {outcome : Except JSString Unit} (error : JSString)
      (hwork : s.work = .applyRangeChange change outcome) :
      Move intact s (s.applied change (.error error))
  | applied {change : TexpressoChangeMessage} (snapshot : TexpressoSnapshot)
      (hwork : s.work = .applyRangeChange change (.ok ())) :
      Move intact s (s.applied change (.ok snapshot))
  | reports {caller : Caller} {revision : Nat} (snapshot : TexpressoSnapshot)
      (hwork : s.work.failed? = some (caller, revision)) :
      Move intact s (s.sendCompileError caller revision snapshot)
  | publishes {caller : Caller} {pages : List TexpressoRenderedPage} {error : JSString}
      (hwork : s.work = .pageCount caller s.latestReceivedRevision pages error)
      (hpages : pages ≠ []) :
      Move intact s (s.publish caller s.latestReceivedRevision pages)
  | sends {caller : Caller} {revision index : Nat} {pages : List TexpressoRenderedPage}
      (hwork : s.work.unsent? = some (caller, revision, pages, index)) :
      Move intact s (s.sendFrom caller revision pages index)

end Typr
