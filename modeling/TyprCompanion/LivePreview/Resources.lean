import TyprCompanion.LivePreview.Revisions

/-!
# The resources of a session

The temporary directory, the native session and the timers: what start-up acquires, `close` releases
and frames renew.

* `Resources` — the fields that tell what is held, as `LiveSession.resources` reads them.
* `MayClose` — what most steps do to the resources: nothing, or they begin to close.
* `Bystands` — such a step, which leaves start-up where it is; `Proceeds` — a step of the work past
  start-up.
* `ResourceStep` — what an event does to the resources.
* **`resourceStep`** — every step is of this form.
-/

namespace Typr

/-- What start-up acquires and `close` releases. -/
structure Resources where
  workspace : Bool
  directory : Bool
  session : Option NativeSession
  native : NativeLife
  idleTimer : Bool
  lifetimeTimer : Bool
  isClosing : Bool
  closer : Closer
  /-- the tasks `close` waits for -/
  farewells : Nat

/-- A task `close` waits for. -/
def OutboundTask.isFarewell (task : OutboundTask) : Bool := task.awaiter == .close

/-- The resources of a session. -/
def LiveSession.resources (s : LiveSession) : Resources where
  workspace := s.workspace
  directory := s.directory
  session := s.session
  native := s.native
  idleTimer := s.idleTimer
  lifetimeTimer := s.lifetimeTimer
  isClosing := s.isClosing
  closer := s.closer
  farewells := s.outbound.countP OutboundTask.isFarewell

/-! ## Closing -/

namespace Resources

/-- What `close` does first. -/
def beginClosing (r : Resources) : Resources :=
  { r with isClosing := true, idleTimer := false, lifetimeTimer := false }

/-- The client is being notified. -/
def notify (r : Resources) : Resources :=
  { r.beginClosing with closer := .notifying, farewells := r.farewells + 1 }

/-- What `close` does once the client was notified. -/
def tearDown (notifyClient : Bool) (r : Resources) : Resources :=
  { r with
    native := if r.session.isSome then r.native.close else r.native
    closer := .tearingDown r.workspace notifyClient }

/-- What most steps do: nothing, or `close` begins. -/
inductive MayClose (r : Resources) : Resources → Prop
  | stays : MayClose r r
  | notifies (h : r.isClosing = false) : MayClose r r.notify
  | tearsDown (h : r.isClosing = false) (notifyClient : Bool) :
      MayClose r (r.beginClosing.tearDown notifyClient)

end Resources

/-- A step that acquires nothing, and releases what `close` releases at once. -/
structure Bystands (s t : LiveSession) : Prop where
  resources : Resources.MayClose s.resources t.resources
  work : t.work = s.work ∨ s.work.isStartUp = false ∧ t.work.isStartUp = false

/-- The work goes on, past start-up. -/
structure Proceeds (s t : LiveSession) : Prop where
  resources : t.resources = s.resources
  work : t.work.isStartUp = false

variable {s t u : LiveSession}

theorem Bystands.refl (s : LiveSession) : Bystands s s := ⟨.stays, .inl rfl⟩

theorem Proceeds.passes (h : Proceeds s t) (hs : s.work.isStartUp = false) : Bystands s t :=
  ⟨h.resources ▸ .stays, .inr ⟨hs, h.work⟩⟩

/-- Sending a frame acquires nothing. -/
theorem resources_enqueueFrames {frames : List Frame} {awaiter : Awaiter}
    {hframes : ∀ frame ∈ frames.tail, frame.isBinary = true} (h : awaiter ≠ .close) :
    (s.enqueueFrames frames awaiter hframes).resources = s.resources := by
  simp [LiveSession.enqueueFrames, LiveSession.resources, OutboundTask.isFarewell, h]

theorem resources_sendJson {message : TexpressoServerMessage} {awaiter : Awaiter}
    (h : awaiter ≠ .close) : (s.sendJson message awaiter).resources = s.resources :=
  resources_enqueueFrames h

theorem Bystands.sendJson {message : TexpressoServerMessage} {awaiter : Awaiter}
    (h : awaiter ≠ .close) : Bystands s (s.sendJson message awaiter) :=
  ⟨resources_sendJson h ▸ .stays, .inl rfl⟩

theorem Proceeds.sendJson {message : TexpressoServerMessage} {awaiter : Awaiter}
    (h : awaiter ≠ .close) (hs : Proceeds s t) : Proceeds s (t.sendJson message awaiter) :=
  ⟨(resources_sendJson h).trans hs.resources, hs.work⟩

/-- `close` keeps the work where it is. -/
theorem Bystands.close (reason : LiveSessionCloseReason) (notifyClient : Bool) :
    Bystands s (s.close reason notifyClient) := by
  unfold LiveSession.close
  split
  · exact .refl s
  · next hclosing =>
      have hopen : s.resources.isClosing = false := (Bool.not_eq_true _).mp hclosing
      split
      · refine ⟨?_, .inl rfl⟩
        have hnotify : s.resources.notify
            = ({ s.beginClosing with closer := .notifying }.sendJson (.sessionClosed reason)
                .close).resources := by
          simp [LiveSession.resources, Resources.notify, Resources.beginClosing,
            LiveSession.beginClosing, LiveSession.sendJson, LiveSession.enqueueFrames,
            OutboundTask.isFarewell, List.countP_append]
        exact hnotify ▸ .notifies hopen
      · exact ⟨.tearsDown hopen notifyClient, .inl rfl⟩

/-! ## The work -/

namespace Proceeds

/-- Only where the work is changes. -/
theorem work_eq {work : Work} (h : work.isStartUp = false) : Proceeds s { s with work := work } :=
  ⟨rfl, h⟩

theorem workFailed (caller : Caller) (error : JSString) : Proceeds s (s.workFailed caller error) := by
  unfold LiveSession.workFailed
  split
  · exact .work_eq rfl
  · exact .sendJson (by simp) (.work_eq rfl)

theorem takeChange {change : TexpressoChangeMessage} {rest : List TexpressoChangeMessage} :
    Proceeds s (s.takeChange change rest) :=
  .sendJson (by simp) ⟨rfl, rfl⟩

theorem drainChanges (hs : s.work.isStartUp = false) : Proceeds s s.drainChanges := by
  unfold LiveSession.drainChanges
  split
  · exact ⟨rfl, hs⟩
  · split
    · exact ⟨rfl, hs⟩
    · exact ⟨takeChange.resources, takeChange.work⟩

theorem drainFinally : Proceeds s s.drainFinally := by
  unfold LiveSession.drainFinally
  split
  · have hdrains : Proceeds _ (LiveSession.drainChanges { s with processing := false, work := .idle }) :=
      .drainChanges rfl
    exact ⟨hdrains.resources, hdrains.work⟩
  · exact ⟨rfl, rfl⟩

theorem drainLoop : Proceeds s s.drainLoop := by
  unfold LiveSession.drainLoop
  split
  · exact takeChange
  · exact drainFinally

theorem initializeFinally : Proceeds s s.initializeFinally := by
  unfold LiveSession.initializeFinally
  split
  · exact ⟨rfl, rfl⟩
  · have hdrains : Proceeds _ (LiveSession.drainChanges { s with initializing := false, work := .idle }) :=
      .drainChanges rfl
    exact ⟨hdrains.resources, hdrains.work⟩

theorem continueWith (next : Continuation) : Proceeds s (s.continueWith next) := by
  cases next with
  | loop => exact drainLoop
  | done caller =>
      cases caller with
      | initializeSession revision => exact initializeFinally
      | drainChanges => exact drainFinally

theorem returned (caller : Caller) : Proceeds s (s.returned caller) := by
  cases caller <;> exact ⟨rfl, rfl⟩

theorem nextPage (caller : Caller) (revision : Nat) (pages : List TexpressoRenderedPage) :
    Proceeds s (s.nextPage caller revision pages) := by
  unfold LiveSession.nextPage
  split
  · exact returned caller
  · exact ⟨rfl, rfl⟩

theorem renderRevision (caller : Caller) (revision : Nat) :
    Proceeds s (s.renderRevision caller revision) := by
  unfold LiveSession.renderRevision
  split
  · exact returned caller
  · exact nextPage caller revision []

theorem pageRendered (caller : Caller) (revision : Nat) (pages : List TexpressoRenderedPage)
    (result : Except JSString PageImage) :
    Proceeds s (s.pageRendered caller revision pages result) := by
  unfold LiveSession.pageRendered
  split
  · exact ⟨rfl, rfl⟩
  · exact nextPage caller revision _

theorem publish (caller : Caller) (revision : Nat) (pages : List TexpressoRenderedPage) :
    Proceeds s (s.publish caller revision pages) := by
  unfold LiveSession.publish
  split
  · exact returned caller
  · exact .sendJson (by simp) ⟨rfl, rfl⟩

theorem pagesCounted (caller : Caller) (revision : Nat) (pages : List TexpressoRenderedPage)
    (error : JSString) (result : Except JSString Nat) :
    Proceeds s (s.pagesCounted caller revision pages error result) := by
  unfold LiveSession.pagesCounted
  split
  · exact workFailed caller _
  · split
    · exact publish caller revision pages
    · exact workFailed caller error

theorem sendFrom (caller : Caller) (revision : Nat) (pages : List TexpressoRenderedPage)
    (index : Nat) : Proceeds s (s.sendFrom caller revision pages index) := by
  unfold LiveSession.sendFrom
  split
  · exact ⟨resources_enqueueFrames (by simp), rfl⟩
  · exact .sendJson (by simp) ⟨rfl, rfl⟩

theorem sendCompileError (caller : Caller) (revision : Nat) (snapshot : TexpressoSnapshot) :
    Proceeds s (s.sendCompileError caller revision snapshot) :=
  .sendJson (by simp) ⟨rfl, rfl⟩

theorem tellApplied (revision : Nat) (render : RevisionRender) {work : Work}
    (h : work.isStartUp = false) : Proceeds s (s.tellApplied revision render work) :=
  .sendJson (by simp) ⟨rfl, h⟩

theorem applied (change : TexpressoChangeMessage) (result : Except JSString TexpressoSnapshot) :
    Proceeds s (s.applied change result) := by
  unfold LiveSession.applied
  split
  · exact .sendJson (by simp) ⟨rfl, rfl⟩
  · split
    · exact tellApplied _ _ rfl
    · split
      · exact tellApplied _ _ rfl
      · exact tellApplied _ _ rfl

end Proceeds

/-! ## Settled sends -/

namespace Bystands

/-- A step of the work past start-up. -/
theorem of_work {work : Work} (hwork : s.work = work) (h : work.isStartUp = false)
    (hproceeds : Proceeds s t) : Bystands s t :=
  hproceeds.passes (hwork ▸ h)

theorem sendSucceeded : Bystands s s.sendSucceeded := by
  unfold LiveSession.sendSucceeded
  split
  case h_1 hwork => exact of_work hwork rfl ⟨rfl, rfl⟩
  case h_2 hwork => exact of_work hwork rfl ⟨rfl, rfl⟩
  case h_3 hwork => exact of_work hwork rfl (.sendCompileError _ _ _)
  case h_4 hwork => exact of_work hwork rfl ⟨rfl, rfl⟩
  case h_5 hwork => exact of_work hwork rfl (.renderRevision _ _)
  case h_6 hwork => exact of_work hwork rfl (.returned _)
  case h_7 hwork => exact of_work hwork rfl (.sendFrom _ _ _ _)
  case h_8 hwork => exact of_work hwork rfl (.sendFrom _ _ _ _)
  case h_9 hwork => exact of_work hwork rfl (.returned _)
  case h_10 => exact .refl s

theorem sendFailed (error : JSString) : Bystands s (s.sendFailed error) := by
  unfold LiveSession.sendFailed
  split
  all_goals
    first
    | exact .refl s
    | next hwork => exact of_work hwork rfl (.workFailed _ error)

theorem awaitClose (h : Bystands s t) : Bystands s t.awaitClose := by
  have hcloses {work work' : Work} (hwork : t.work = work) (hstart : work.isStartUp = false)
      (hstart' : work'.isStartUp = false) : Bystands s { t with work := work' } := by
    refine ⟨h.resources, .inr ⟨?_, hstart'⟩⟩
    rcases h.work with hsame | ⟨hpast, -⟩
    · rw [← hsame, hwork, hstart]
    · exact hpast
  unfold LiveSession.awaitClose
  split
  case h_1 hwork => exact hcloses hwork rfl rfl
  case h_2 caller hwork => exact hcloses hwork rfl rfl
  case h_3 => exact h

theorem nativeSessionFailed (error : JSString) : Bystands s (s.nativeSessionFailed error) := by
  unfold LiveSession.nativeSessionFailed
  split
  · exact .refl s
  · exact .sendJson (by simp)

/-- Whoever waits for a task goes on, unless it is `close`. -/
theorem settled {awaiter : Awaiter} (h : awaiter ≠ .close) (result : Except JSString Unit) :
    Bystands s (s.settled awaiter result) := by
  cases awaiter with
  | work =>
      cases result with
      | ok _ => exact sendSucceeded
      | error error => exact sendFailed error
  | failure => exact awaitClose (close .error true)
  | protocolFailure isFatal =>
      cases isFatal with
      | true => exact close .error true
      | false =>
          cases result with
          | ok _ => exact .refl s
          | error _ => exact close .error false
  | nativeExit => exact close .error true
  | close => exact absurd rfl h

end Bystands

/-! ## Client frames -/

theorem Work.caller_of_isStartUp {work : Work} (h : work.isStartUp = true) :
    ∃ revision, work.caller = some (.initializeSession revision) := by
  cases work with
  | mkdtemp | materialize | start | discard => exact ⟨_, rfl⟩
  | _ => cases h

theorem Bystands.enqueueChange {message : TexpressoChangeMessage} (hflags : Flags s) :
    Bystands s (s.enqueueChange message) := by
  unfold LiveSession.enqueueChange
  split
  · exact .sendJson (by simp)
  · split
    · exact .sendJson (by simp)
    · split
      · exact .sendJson (by simp)
      · split
        · exact .sendJson (by simp)
        · split
          · exact ⟨.stays, .inl rfl⟩
          · next hinitializing =>
              have hpast : s.work.isStartUp = false := by
                by_contra hstart
                rw [Bool.not_eq_false] at hstart
                exact hinitializing (hflags.initializing.mpr (Work.caller_of_isStartUp hstart))
              have hdrains : Proceeds _ (s.accept message).drainChanges := .drainChanges hpast
              exact Proceeds.passes ⟨hdrains.resources, hdrains.work⟩ hpast

/-- What a frame does before it is waited for: `initialize` begins, or a step passes. -/
theorem handleFrame_cases (platform : Platform) (frame : ClientFrame) (hflags : Flags s) :
    Bystands s (s.handleFrame platform frame) ∨
      s.isClosing = false ∧ s.initialized = false ∧ s.initializing = false ∧
        ∃ message, s.handleFrame platform frame = s.initializeSession message := by
  unfold LiveSession.handleFrame
  split
  · exact .inl (.refl s)
  · next hclosing =>
      split
      · exact .inl (.sendJson (by simp))
      · exact .inl (.sendJson (by simp))
      · split
        · exact .inl (.sendJson (by simp))
        · exact .inl (.close .clientShutdown true)
        · next message _ =>
            split
            · exact .inl (.sendJson (by simp))
            · next hfresh =>
                simp only [not_or, Bool.not_eq_true] at hclosing hfresh
                exact .inr ⟨hclosing, hfresh.1, hfresh.2, message, rfl⟩
        · exact .inl (.enqueueChange hflags)

/-! ## Steps -/

/-- An event that neither renews a timer nor lets it fire, and makes or removes no directory. -/
def LiveEvent.isPlain : LiveEvent → Bool
  | frame _ | idleTimeout | lifetimeTimeout | mkdtempSettled (.ok _) | materializeSettled (.ok _)
  | prepareEnvironment | removeSettled _ => false
  | _ => true

/-- What `materializeProjectFiles` goes on with when these files are left: the start of the native
session, an error, or the next file. -/
inductive Materializes (files : List ProjectFile) (r : Resources) (t : LiveSession) : Prop
  | starts (message : TexpressoInitializeMessage) (hfiles : files = []) (hwork : t.work = .start message)
      (hresources : t.resources = { r with native := .starting })
  | fails (hwork : t.work.isStartUp = false) (hresources : t.resources = r)
  | continues (message : TexpressoInitializeMessage) (file : ProjectFile) (rest : List ProjectFile)
      (hwork : t.work = .materialize message file rest false) (hresources : t.resources = r)

/-- **What an event does to the resources.** -/
inductive ResourceStep (s t : LiveSession) : LiveEvent → Prop
  | receives {frame : ClientFrame} (h : Bystands { s with idleTimer := true } t) :
      ResourceStep s t (.frame frame)
  | initializes {frame : ClientFrame} (message : TexpressoInitializeMessage)
      (hclosing : s.isClosing = false) (hpast : s.work.isStartUp = false)
      (hwork : t.work = .mkdtemp message)
      (hresources : t.resources = { s.resources with idleTimer := true }) :
      ResourceStep s t (.frame frame)
  | idles (h : Bystands { s with idleTimer := false } t) : ResourceStep s t .idleTimeout
  | expires (h : Bystands { s with lifetimeTimer := false } t) : ResourceStep s t .lifetimeTimeout
  | passes {event : LiveEvent} (hplain : event.isPlain = true) (h : Bystands s t) :
      ResourceStep s t event
  /-- the client was notified -/
  | tearsDown {event : LiveEvent} (hplain : event.isPlain = true) (hwork : t.work = s.work)
      (hfarewells : s.resources.farewells = t.resources.farewells + 1)
      (hresources : t.resources
        = { s.resources with farewells := t.resources.farewells }.tearDown true) :
      ResourceStep s t event
  /-- start-up fails before the native session -/
  | fails {event : LiveEvent} (hplain : event.isPlain = true)
      (hwork : ∀ message, s.work ≠ .start message) (hdiscard : ∀ revision, s.work ≠ .discard revision)
      (hpast : t.work.isStartUp = false) (hresources : t.resources = s.resources) :
      ResourceStep s t event
  | makes (message : TexpressoInitializeMessage) (hwork : s.work = .mkdtemp message)
      (h : Materializes message.files { s.resources with workspace := true, directory := true } t) :
      ResourceStep s t (.mkdtempSettled (.ok ()))
  | makesParent (message : TexpressoInitializeMessage) (file : ProjectFile) (rest : List ProjectFile)
      (hwork : s.work = .materialize message file rest false)
      (hwork' : t.work = .materialize message file rest true)
      (hresources : t.resources = { s.resources with directory := true }) :
      ResourceStep s t (.materializeSettled (.ok ()))
  | writes (message : TexpressoInitializeMessage) (file : ProjectFile) (rest : List ProjectFile)
      (hwork : s.work = .materialize message file rest true) (h : Materializes rest s.resources t) :
      ResourceStep s t (.materializeSettled (.ok ()))
  | prepares (hwork : t.work = s.work)
      (hstarted : (∃ message, s.work = .start message) ∨ s.session.isSome = true)
      (hresources : t.resources = { s.resources with directory := true }) :
      ResourceStep s t .prepareEnvironment
  | discards {result : Except JSString NativeSession} (message : TexpressoInitializeMessage)
      (hwork : s.work = .start message) (hclosing : s.isClosing = true) (revision : Nat)
      (hwork' : t.work = .discard revision)
      (hresources : t.resources = { s.resources with native := .closing }) :
      ResourceStep s t (.startSettled result)
  | adopts {result : Except JSString NativeSession} (message : TexpressoInitializeMessage)
      (hwork : s.work = .start message) (hclosing : s.isClosing = false)
      (hpast : t.work.isStartUp = false) (session : NativeSession)
      (hresources : t.resources = { s.resources with native := .running, session := some session }) :
      ResourceStep s t (.startSettled result)
  | startFails {result : Except JSString NativeSession} (message : TexpressoInitializeMessage)
      (hwork : s.work = .start message) (hpast : t.work.isStartUp = false)
      (hresources : t.resources = { s.resources with native := .closed }) :
      ResourceStep s t (.startSettled result)
  | timesOut (hrunning : s.native = .running) (hwork : t.work = s.work)
      (hresources : t.resources = { s.resources with native := .closing }) :
      ResourceStep s t .nativeTimeout
  | closed (hnative : s.native = .closing)
      (hwork : t.work = s.work ∧ (∀ revision, s.work ≠ .discard revision) ∨
        t.work.isStartUp = false ∧ ∃ revision, s.work = .discard revision)
      (hresources : t.resources = { s.resources with native := .closed }) :
      ResourceStep s t .nativeClosed
  | removes {removed notifyClient : Bool} (hcloser : s.closer = .tearingDown true notifyClient)
      (hwork : t.work = s.work)
      (hresources : t.resources = { s.resources with
        directory := s.directory && !removed
        closer := .tearingDown false notifyClient }) :
      ResourceStep s t (.removeSettled removed)
  | finishes {notifyClient : Bool} (hcloser : s.closer = .tearingDown false notifyClient)
      (hnative : s.session.isSome = true → s.native = .closed) (hwork : t.work = s.work)
      (hresources : t.resources = { s.resources with closer := .done }) :
      ResourceStep s t .closeFinishes

variable {platform : Platform} {event : LiveEvent}

/-- The first task of the outbound queue goes on. -/
theorem Bystands.goesOn {task task' : OutboundTask} {tasks : List OutboundTask} {sent : List Frame}
    (hout : s.outbound = task :: tasks) (h : task'.awaiter = task.awaiter) :
    Bystands s { s with outbound := task' :: tasks, sent := sent } := by
  have hfarewell : task'.isFarewell = task.isFarewell := congrArg (· == Awaiter.close) h
  have hsame : LiveSession.resources { s with outbound := task' :: tasks, sent := sent }
      = s.resources := by
    simp only [LiveSession.resources, hout, List.countP_cons, hfarewell]
  exact ⟨hsame ▸ .stays, .inl rfl⟩

/-- The first task of the outbound queue is over. -/
theorem resourceStep_settled {task : OutboundTask} {tasks : List OutboundTask}
    (hout : s.outbound = task :: tasks) (hplain : event.isPlain = true)
    (result : Except JSString Unit) :
    ResourceStep s ({ s with outbound := tasks }.settled task.awaiter result) event := by
  by_cases hfarewell : task.isFarewell = true
  · have hawaiter : task.awaiter = .close := eq_of_beq hfarewell
    rw [hawaiter]
    refine .tearsDown hplain rfl ?_ rfl
    show s.outbound.countP OutboundTask.isFarewell = tasks.countP OutboundTask.isFarewell + 1
    rw [hout, List.countP_cons_of_pos hfarewell]
  · have hsame : LiveSession.resources { s with outbound := tasks } = s.resources := by
      simp only [LiveSession.resources, hout, List.countP_cons_of_neg hfarewell]
    have hawaiter : task.awaiter ≠ .close := fun h => hfarewell (beq_iff_eq.mpr h)
    have hsettled : Bystands { s with outbound := tasks } _ := .settled hawaiter result
    exact .passes hplain ⟨hsame ▸ hsettled.resources, hsettled.work⟩

theorem resourceStep_onSocket (hflags : Flags s) (h : s.onSocket platform event = some t) :
    ResourceStep s t event := by
  unfold LiveSession.onSocket at h
  split at h
  case h_1 frame =>
      split at h
      · cases h
      · obtain rfl := Option.some.inj h
        have hflags' : Flags { s with idleTimer := true } := { hflags with }
        rcases handleFrame_cases platform frame hflags' with
          hpasses | ⟨hclosing, -, hinitializing, message, hframe⟩
        · exact .receives hpasses
        · rw [hframe]
          refine .initializes message hclosing ?_ rfl rfl
          by_contra hstart
          rw [Bool.not_eq_false] at hstart
          have hup := hflags.initializing.mpr (Work.caller_of_isStartUp hstart)
          exact Bool.noConfusion (hup.symm.trans hinitializing)
  case h_2 =>
      split at h
      · obtain rfl := Option.some.inj h
        exact .idles (.close .error true)
      · cases h
  case h_3 =>
      split at h
      · obtain rfl := Option.some.inj h
        exact .expires (.close .error true)
      · cases h
  case h_4 =>
      obtain rfl := Option.some.inj h
      exact .passes rfl ⟨.stays, .inl rfl⟩
  case h_5 =>
      split at h
      · cases h
      · obtain rfl := Option.some.inj h
        have hcloses : Bystands { s with readyState := .closed } _ := .close .clientDisconnect false
        exact .passes rfl ⟨hcloses.resources, hcloses.work⟩
  case h_6 =>
      split at h
      · cases h
      · obtain rfl := Option.some.inj h
        exact .passes rfl (.close .error false)
  case h_7 =>
      obtain rfl := Option.some.inj h
      exact .passes rfl (.close .serverShutdown true)
  case h_8 =>
      unfold LiveSession.sendFrame at h
      split at h
      · next hout =>
          split at h
          · obtain rfl := Option.some.inj h
            exact .passes rfl (.goesOn hout rfl)
          · obtain rfl := Option.some.inj h
            exact resourceStep_settled hout rfl _
      · cases h
  case h_9 result =>
      unfold LiveSession.sendSettled at h
      split at h
      · next hout =>
          split at h
          · obtain rfl := Option.some.inj h
            exact .passes rfl (.goesOn hout rfl)
          · obtain rfl := Option.some.inj h
            exact resourceStep_settled hout rfl result
      · cases h
  case h_10 => cases h

theorem materializes (platform : Platform) (message : TexpressoInitializeMessage)
    (files : List ProjectFile) : Materializes files s.resources (s.materialize platform message files) := by
  unfold LiveSession.materialize
  split
  · exact .starts message rfl rfl rfl
  · split
    · next pathError _ =>
        have hfails : Proceeds s _ := .workFailed (.initializeSession message.revision) pathError
        exact .fails hfails.work hfails.resources
    · exact .continues message _ _ rfl rfl

theorem resourceStep_onStartUp (h : s.onStartUp platform event = some t) :
    ResourceStep s t event := by
  have hfailed {caller : Caller} {error : JSString} : Proceeds s (s.workFailed caller error) :=
    .workFailed caller error
  unfold LiveSession.onStartUp at h
  split at h
  case h_1 result message hwork =>
      split at h
      · obtain rfl := Option.some.inj h
        have hmade : Materializes message.files
            (LiveSession.resources { s with workspace := true, directory := true }) _ :=
          materializes platform message message.files
        exact .makes message hwork hmade
      · obtain rfl := Option.some.inj h
        exact .fails rfl (by simp [hwork]) (by simp [hwork]) hfailed.work hfailed.resources
  case h_2 result message file rest writing hwork =>
      split at h
      · obtain rfl := Option.some.inj h
        exact .fails rfl (by simp [hwork]) (by simp [hwork]) hfailed.work hfailed.resources
      · obtain rfl := Option.some.inj h
        exact .makesParent message file rest hwork rfl rfl
      · obtain rfl := Option.some.inj h
        exact .writes message file rest hwork (materializes platform message rest)
  case h_3 result message hwork =>
      split at h
      · next session =>
          obtain rfl := Option.some.inj h
          unfold LiveSession.started
          split
          · next hclosing => exact .discards message hwork hclosing message.revision rfl rfl
          · next hclosing =>
              rw [Bool.not_eq_true] at hclosing
              have hready : (LiveSession.resources ((s.adopt message session).sendJson
                  (.sessionReady TEXPRESSO_WS_PROTOCOL_VERSION message.revision session.pid
                    message.render) .work)) = _ := resources_sendJson (by simp)
              exact .adopts message hwork hclosing rfl session hready
      · next error =>
          obtain rfl := Option.some.inj h
          have hfailed' : Proceeds { s with native := .closed } _ :=
            .workFailed (.initializeSession message.revision) error
          exact .startFails message hwork hfailed'.work hfailed'.resources
  case h_4 => cases h

theorem resourceStep_onNative (h : s.onNative event = some t) :
    ResourceStep s t event := by
  unfold LiveSession.onNative at h
  split at h
  case h_1 message hwork =>
      obtain rfl := Option.some.inj h
      exact .prepares rfl (.inl ⟨message, hwork⟩) rfl
  case h_2 hwork =>
      split at h
      · next hbackend =>
          obtain rfl := Option.some.inj h
          obtain ⟨session, hsession, -⟩ := Option.map_eq_some_iff.mp hbackend
          exact .prepares rfl (.inr (by rw [hsession]; rfl)) rfl
      · cases h
  case h_3 snapshot revision hwork =>
      split at h
      · obtain rfl := Option.some.inj h
        exact .passes rfl (.of_work hwork rfl (.sendCompileError _ _ _))
      · obtain rfl := Option.some.inj h
        exact .passes rfl (.of_work hwork rfl (.renderRevision _ _))
  case h_4 result change outcome hwork =>
      split at h
      · obtain rfl := Option.some.inj h
        exact .passes rfl (.of_work hwork rfl (.applied _ _))
      · obtain rfl := Option.some.inj h
        exact .passes rfl (.of_work hwork rfl (.applied _ _))
  case h_5 result caller revision pages hwork =>
      obtain rfl := Option.some.inj h
      exact .passes rfl (.of_work hwork rfl (.pageRendered _ _ _ _))
  case h_6 result caller revision pages error hwork =>
      obtain rfl := Option.some.inj h
      exact .passes rfl (.of_work hwork rfl (.pagesCounted _ _ _ _ _))
  case h_7 error =>
      split at h
      · split at h
        · obtain rfl := Option.some.inj h
          have hfailed : Bystands { s with exitError := some error } _ := .nativeSessionFailed error
          exact .passes rfl ⟨hfailed.resources, hfailed.work⟩
        · obtain rfl := Option.some.inj h
          exact .passes rfl ⟨.stays, .inl rfl⟩
      · cases h
  case h_8 =>
      split at h
      · next hrunning =>
          obtain rfl := Option.some.inj h
          exact .timesOut hrunning.1 rfl rfl
      · cases h
  case h_9 =>
      split at h
      · next hnative =>
          split at h
          · next revision hwork =>
              obtain rfl := Option.some.inj h
              exact .closed hnative (.inr ⟨rfl, revision, hwork⟩) rfl
          · next hwork =>
              obtain rfl := Option.some.inj h
              exact .closed hnative (.inl ⟨rfl, hwork⟩) rfl
      · cases h
  case h_10 => cases h

theorem resourceStep_onMethods (h : s.onMethods event = some t) : ResourceStep s t event := by
  unfold LiveSession.onMethods at h
  split at h
  case h_1 =>
      split at h
      · next next hwork =>
          obtain rfl := Option.some.inj h
          exact .passes rfl (.of_work hwork rfl (.continueWith next))
      · next next hwork =>
          split at h
          · obtain rfl := Option.some.inj h
            exact .passes rfl (.of_work hwork rfl (.continueWith next))
          · cases h
      · cases h
  case h_2 removed =>
      split at h
      · next notifyClient hcloser =>
          obtain rfl := Option.some.inj h
          exact .removes hcloser rfl rfl
      · cases h
  case h_3 =>
      split at h
      · next notifyClient hcloser =>
          split at h
          · cases h
          · next hnative =>
              obtain rfl := Option.some.inj h
              have hclosed (hsession : s.session.isSome = true) : s.native = .closed := by
                by_contra hopen
                exact hnative ⟨hsession, hopen⟩
              unfold LiveSession.closeFinishes
              split
              · exact .finishes hcloser hclosed rfl rfl
              · exact .finishes hcloser hclosed rfl rfl
      · cases h
  case h_4 => cases h

/-- **Every step** does one of these to the resources. -/
theorem resourceStep (hs : Coherent s) (h : s.step platform event = some t) :
    ResourceStep s t event := by
  unfold LiveSession.step at h
  split at h
  all_goals
    first
    | exact resourceStep_onStartUp h
    | exact resourceStep_onNative h
    | exact resourceStep_onMethods h
    | exact resourceStep_onSocket hs.toFlags h

end Typr
