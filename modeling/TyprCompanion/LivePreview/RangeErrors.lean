import TyprCompanion.LivePreview.Coalescing

/-!
# Range errors

What a session tells its client when an edit could not be applied.  `drainChanges` reports whatever
`applyRangeChange` throws as a fatal `invalid-change-range`: a bad range, and as well a native session
that is closed, exits, times out or cannot compile.

* `Buffers.HasRange`, `Dequeued` — valid ranges, and the buffers when a change is taken off the queue.
* `EditsClassified` — a fatal range error is about a bad range, and failures of the native session are
  reported as such.
* `Calm` — the steps that neither begin an edit nor report a range error; one lemma for each method.
* `step_kinds` — every other step calls `applyRangeChange` or reports what it threw.
* **`editsClassified`** — edits are classified when the native session does not fail them.
-/

namespace Typr

/-! ## Ranges -/

/-- The range of the change is a range of the buffer of its file. -/
def Buffers.HasRange (buffers : Buffers) (change : TexpressoChangeMessage) : Prop :=
  match buffers (normalizePath change.path) with
  | none => False
  | some text =>
      change.range.start.IsIn (JSString.split newline text) ∧
        change.range.stop.IsIn (JSString.split newline text) ∧
          change.range.start.Precedes change.range.stop

instance (buffers : Buffers) (change : TexpressoChangeMessage) : Decidable (buffers.HasRange change) := by
  unfold Buffers.HasRange
  cases buffers (normalizePath change.path) <;> infer_instance

/-- A range of a buffer has an edit. -/
theorem Buffers.HasRange.referenceEdit {buffers : Buffers} {change : TexpressoChangeMessage}
    (h : buffers.HasRange change) : ∃ text, buffers (normalizePath change.path) = some text ∧
      ∀ replacement, referenceEdit text change.range replacement ≠ none := by
  unfold Buffers.HasRange at h
  split at h
  · exact h.elim
  · next text htext =>
      refine ⟨text, htext, ?_⟩
      intro replacement
      rw [Typr.referenceEdit, if_pos h]
      nofun

/-- The offsets the code computes for a range of the buffer. -/
theorem Buffers.HasRange.offsets {buffers : Buffers} {change : TexpressoChangeMessage}
    (h : buffers.HasRange change) : ∃ text start stop,
      buffers (normalizePath change.path) = some text ∧
        positionToOffset text change.range.start = .ok start ∧
          positionToOffset text change.range.stop = .ok stop ∧ ¬ stop < start := by
  obtain ⟨text, htext, hedit⟩ := h.referenceEdit
  rcases referenceEdit_cases text change.range [] with ⟨start, stop, hstart, hstop, horder, _⟩ | ⟨hnone, _⟩
  · exact ⟨text, start, stop, htext, hstart, hstop, horder⟩
  · exact absurd hnone (hedit [])

variable {platform : Platform} {intact : Prop} {s t u : LiveSession}

/-- **An open native session takes every edit whose range is valid**, over either backend. -/
theorem LiveSession.editOutcome_of_hasRange {change : TexpressoChangeMessage}
    (hopen : s.nativeOpen = .ok ()) (hrange : s.buffers.HasRange change) :
    ∃ buffers, s.editOutcome change = .ok buffers := by
  obtain ⟨text, start, stop, htext, hstart, hstop, horder⟩ := hrange.offsets
  unfold LiveSession.editOutcome
  split
  · simp only [FullCompileLiveSession.applyRangeChange, hopen, htext, hstart, hstop, if_neg horder,
      bind, Except.bind, pure, Except.pure]
    exact ⟨_, rfl⟩
  · simp only [TexpressoSession.applyRangeChange, hopen, htext, hstart, hstop, if_neg horder,
      bind, Except.bind, pure, Except.pure]
    exact ⟨_, rfl⟩

/-! ## The classification -/

/-- The revision a fatal `invalid-change-range` is about. -/
def Frame.rangeError? : Frame → Option Nat
  | .json (.protocolError code _ true revision) =>
      if code = js "invalid-change-range" then revision else none
  | _ => none

/-- The change was taken off the queue when the buffers were these. -/
def Dequeued (platform : Platform) (steps : List (LiveSession × LiveEvent))
    (change : TexpressoChangeMessage) (buffers : Buffers) : Prop :=
  ∃ u event t, (u, event) ∈ steps ∧ u.step platform event = some t ∧
    u.work ≠ .revisionStarted change ∧ t.work = .revisionStarted change ∧ t.buffers = buffers

/-- The range of the revision was no range of the buffer of its file when it was taken off the queue. -/
def BadRange (platform : Platform) (steps : List (LiveSession × LiveEvent)) (revision : Nat) : Prop :=
  ∃ change buffers, change.revision = revision ∧ Dequeued platform steps change buffers ∧
    ¬ buffers.HasRange change

namespace LiveSession

/-- The native session fails while it applies an edit: it exits, or its answer does not come. -/
def FailsEdit (s : LiveSession) (event : LiveEvent) : Prop :=
  ∃ change error, s.work = .applyRangeChange change (.ok ()) ∧
    (event = .nativeExits error ∨ event = .applySettled (.error error))

/-- A session failure is reported, as far as there is a client to report it to. -/
def ReportsFailure (s t : LiveSession) : Prop :=
  s.readyState ≠ .opened ∨ s.isClosing = true ∨
    ∃ code error revision, t.wire = s.wire ++ [.json (.sessionError code error revision)]

end LiveSession

/-- **Failed edits are classified**: a fatal range error is sent only for a bad range, and a native
session that fails during an edit is reported as a session failure. -/
structure EditsClassified (platform : Platform) (steps : List (LiveSession × LiveEvent))
    (s : LiveSession) : Prop where
  rangeErrors : ∀ frame ∈ s.sent, ∀ revision, frame.rangeError? = some revision →
    BadRange platform steps revision
  failures : ∀ u event t, (u, event) ∈ steps → u.step platform event = some t → u.FailsEdit event →
    u.ReportsFailure t

/-- While the client is there, the native session does not fail an edit: it is open when an edit with a
valid range is handed to it, and its answer comes. -/
structure AnswersEdits (platform : Platform) (s : LiveSession) (event : LiveEvent) : Prop where
  calls : ∀ t change outcome, s.readyState = .opened → s.work = .revisionStarted change →
    s.step platform event = some t → t.work = .applyRangeChange change outcome →
      s.buffers.HasRange change → s.nativeOpen = .ok ()
  waits : ∀ change error, s.readyState = .opened → s.work = .applyRangeChange change (.ok ()) →
    event ≠ .applySettled (.error error)

/-! ## Calm steps -/

namespace LiveSession

/-- The listener of `onUnexpectedExit` stays until the session is being closed. -/
def Listens (s : LiveSession) : Prop :=
  s.session.isSome = true → s.isClosing = false → s.exitListener = true

end LiveSession

/-- Neither does an edit begin nor is a range error reported. -/
structure Calm (s t : LiveSession) : Prop where
  work : ∀ change outcome, t.work = .applyRangeChange change outcome →
    s.work = .applyRangeChange change outcome
  readyState : t.readyState = .opened → s.readyState = .opened
  wire : ∀ frame ∈ t.wire, ∀ revision, frame.rangeError? = some revision → frame ∈ s.wire
  sent : ∀ frame ∈ t.sent, ∀ revision, frame.rangeError? = some revision →
    frame ∈ s.sent ∨ s.readyState = .opened ∧ frame ∈ s.wire
  listens : s.Listens → t.Listens

namespace Calm

theorem refl (s : LiveSession) : Calm s s where
  work := fun _ _ h => h
  readyState := id
  wire := fun _ h _ _ => h
  sent := fun _ h _ _ => .inl h
  listens := id

theorem trans (h : Calm s t) (h' : Calm t u) : Calm s u where
  work := fun change outcome hwork => h.work change outcome (h'.work change outcome hwork)
  readyState := fun hopen => h.readyState (h'.readyState hopen)
  wire := fun frame hmem revision herror =>
    h.wire frame (h'.wire frame hmem revision herror) revision herror
  sent := by
    intro frame hmem revision herror
    rcases h'.sent frame hmem revision herror with hmem | ⟨hopen, hmem⟩
    · exact h.sent frame hmem revision herror
    · exact .inr ⟨h.readyState hopen, h.wire frame hmem revision herror⟩
  listens := fun hlistens => h'.listens (h.listens hlistens)

/-- The work goes on to a place where no edit is being applied. -/
theorem at_work (work : Work) (hwork : ∀ change outcome, work ≠ .applyRangeChange change outcome) :
    Calm s { s with work := work } :=
  { Calm.refl s with work := fun change outcome h => absurd h (hwork change outcome) }

theorem enqueueFrames {frames : List Frame} {awaiter : Awaiter}
    {hframes : ∀ frame ∈ frames.tail, frame.isBinary = true}
    (hmessage : ∀ frame ∈ frames, frame.rangeError? = none) :
    Calm s (s.enqueueFrames frames awaiter hframes) :=
  { Calm.refl s with
    wire := by
      intro frame hmem revision herror
      rw [LiveSession.wire_enqueueFrames, List.mem_append] at hmem
      rcases hmem with hmem | hmem
      · exact hmem
      · rw [hmessage frame hmem] at herror
        cases herror }

theorem sendJson {message : TexpressoServerMessage} {awaiter : Awaiter}
    (hmessage : Frame.rangeError? (.json message) = none) : Calm s (s.sendJson message awaiter) := by
  refine enqueueFrames ?_
  intro frame hmem
  obtain rfl := List.mem_singleton.mp hmem
  exact hmessage

/-- The work goes on, and a message is sent. -/
theorem tells {message : TexpressoServerMessage} {awaiter : Awaiter} (work : Work)
    (hwork : ∀ change outcome, work ≠ .applyRangeChange change outcome)
    (hmessage : Frame.rangeError? (.json message) = none) :
    Calm s ({ s with work := work }.sendJson message awaiter) :=
  (at_work work hwork).trans (sendJson hmessage)

theorem protocolFailure {code message : JSString} {isFatal : Bool} {revision : Option Nat}
    (hcode : isFatal = true → code ≠ js "invalid-change-range") :
    Calm s (s.protocolFailure code message isFatal revision) := by
  refine sendJson ?_
  cases isFatal with
  | true => exact if_neg (hcode rfl)
  | false => rfl

end Calm

/-! ### Methods -/

namespace Calm

theorem beginClosing : Calm s s.beginClosing :=
  { Calm.refl s with listens := fun _ _ hclosing => nomatch hclosing }

theorem tearDown (notifyClient : Bool) : Calm s (s.tearDown notifyClient) :=
  { Calm.refl s with }

theorem close (reason : LiveSessionCloseReason) (notifyClient : Bool) :
    Calm s (s.close reason notifyClient) := by
  unfold LiveSession.close
  split
  · exact refl s
  · split
    · have hnotifying : Calm s { s.beginClosing with closer := .notifying } :=
        { (beginClosing : Calm s s.beginClosing) with }
      exact hnotifying.trans (sendJson rfl)
    · exact beginClosing.trans (tearDown notifyClient)

theorem closeSocket : Calm s s.closeSocket :=
  { Calm.refl s with
    readyState := by
      unfold LiveSession.closeSocket
      dsimp only
      split
      · nofun
      · exact id }

theorem closeFinishes (notifyClient : Bool) : Calm s (s.closeFinishes notifyClient) := by
  unfold LiveSession.closeFinishes
  split
  · exact { Calm.refl s with }
  · exact { (closeSocket : Calm s s.closeSocket) with }

theorem workFailed (caller : Caller) (error : JSString) : Calm s (s.workFailed caller error) := by
  unfold LiveSession.workFailed
  split
  · exact at_work _ nofun
  · refine tells _ nofun ?_
    cases caller <;> rfl

theorem nativeSessionFailed (error : JSString) : Calm s (s.nativeSessionFailed error) := by
  unfold LiveSession.nativeSessionFailed
  split
  · exact refl s
  · exact sendJson rfl

theorem takeChange (change : TexpressoChangeMessage) (rest : List TexpressoChangeMessage) :
    Calm s (s.takeChange change rest) := by
  have htaken : Calm s { s with queue := rest, work := .revisionStarted change } :=
    { Calm.refl s with work := nofun }
  exact htaken.trans (sendJson rfl)

theorem drainChanges : Calm s s.drainChanges := by
  unfold LiveSession.drainChanges
  split
  · exact refl s
  · split
    · exact refl s
    · next change rest _ =>
        have hprocessing : Calm s { s with processing := true } := { Calm.refl s with }
        exact hprocessing.trans (takeChange change rest)

theorem drainFinally : Calm s s.drainFinally := by
  have hidle : Calm s { s with processing := false, work := .idle } :=
    { Calm.refl s with work := nofun }
  unfold LiveSession.drainFinally
  split
  · exact hidle.trans drainChanges
  · exact hidle

theorem continueWith (next : Continuation) : Calm s (s.continueWith next) := by
  unfold LiveSession.continueWith
  split
  · unfold LiveSession.drainLoop
    split
    · exact takeChange _ _
    · exact drainFinally
  · have hidle : Calm s { s with initializing := false, work := .idle } :=
      { Calm.refl s with work := nofun }
    unfold LiveSession.initializeFinally
    split
    · exact hidle
    · exact hidle.trans drainChanges
  · exact drainFinally

theorem returned (caller : Caller) : Calm s (s.returned caller) := by
  unfold LiveSession.returned
  split <;> exact at_work _ nofun

theorem nextPage (caller : Caller) (revision : Nat) (pages : List TexpressoRenderedPage) :
    Calm s (s.nextPage caller revision pages) := by
  unfold LiveSession.nextPage
  split
  · exact returned caller
  · exact at_work _ nofun

theorem renderRevision (caller : Caller) (revision : Nat) :
    Calm s (s.renderRevision caller revision) := by
  unfold LiveSession.renderRevision
  split
  · exact returned caller
  · exact nextPage ..

theorem pageRendered (caller : Caller) (revision : Nat) (pages : List TexpressoRenderedPage)
    (result : Except JSString PageImage) : Calm s (s.pageRendered caller revision pages result) := by
  unfold LiveSession.pageRendered
  split
  · exact at_work _ nofun
  · exact nextPage ..

theorem pagesCounted (caller : Caller) (revision : Nat) (pages : List TexpressoRenderedPage)
    (error : JSString) (result : Except JSString Nat) :
    Calm s (s.pagesCounted caller revision pages error result) := by
  unfold LiveSession.pagesCounted
  split
  · exact workFailed ..
  · split
    · unfold LiveSession.publish
      split
      · exact returned caller
      · have hgood : Calm s { s with lastGoodRevision := some revision } := { Calm.refl s with }
        exact hgood.trans (tells (.document caller revision pages) nofun rfl)
    · exact workFailed ..

theorem sendFrom (caller : Caller) (revision : Nat) (pages : List TexpressoRenderedPage)
    (index : Nat) : Calm s (s.sendFrom caller revision pages index) := by
  unfold LiveSession.sendFrom
  split
  · refine (at_work (.page caller revision pages index) nofun).trans (enqueueFrames ?_)
    intro frame hmem
    rcases List.mem_cons.mp hmem with rfl | hmem
    · rfl
    · obtain rfl := List.mem_singleton.mp hmem
      rfl
  · exact tells _ nofun rfl

theorem sendCompileError (caller : Caller) (revision : Nat) (snapshot : TexpressoSnapshot) :
    Calm s (s.sendCompileError caller revision snapshot) :=
  tells _ nofun rfl

theorem enqueueChange (message : TexpressoChangeMessage) : Calm s (s.enqueueChange message) := by
  have haccept : Calm s (s.accept message) := { Calm.refl s with }
  unfold LiveSession.enqueueChange
  split
  · exact protocolFailure nofun
  · split
    · exact protocolFailure nofun
    · split
      · exact protocolFailure fun _ => by decide
      · split
        · exact protocolFailure nofun
        · split
          · exact haccept
          · exact haccept.trans drainChanges

theorem handleFrame (frame : ClientFrame) : Calm s (s.handleFrame platform frame) := by
  unfold LiveSession.handleFrame
  split
  · exact refl s
  · split
    · exact protocolFailure fun _ => by decide
    · exact protocolFailure nofun
    · split
      · exact protocolFailure nofun
      · exact close .clientShutdown true
      · split
        · exact protocolFailure nofun
        · exact { Calm.refl s with work := nofun }
      · exact enqueueChange _

theorem materialize (message : TexpressoInitializeMessage) (files : List ProjectFile) :
    Calm s (s.materialize platform message files) := by
  unfold LiveSession.materialize
  split
  · exact { Calm.refl s with work := nofun }
  · split
    · exact workFailed ..
    · exact at_work _ nofun

theorem started (message : TexpressoInitializeMessage) (session : NativeSession) :
    Calm s (s.started message session) := by
  unfold LiveSession.started
  split
  · exact { Calm.refl s with work := nofun }
  · have hadopts : Calm s (s.adopt message session) :=
      { Calm.refl s with
        work := nofun
        listens := fun _ _ _ => rfl }
    exact hadopts.trans (sendJson rfl)

theorem applied (change : TexpressoChangeMessage) (snapshot : TexpressoSnapshot) :
    Calm s (s.applied change (.ok snapshot)) := by
  have htell (render : RevisionRender) (work : Work)
      (hwork : ∀ change outcome, work ≠ .applyRangeChange change outcome) :
      Calm s (s.tellApplied change.revision render work) := by
    have happlied : Calm s { s with appliedRevision := change.revision, work := work } :=
      { Calm.refl s with work := fun change outcome h => absurd h (hwork change outcome) }
    exact happlied.trans (sendJson rfl)
  unfold LiveSession.applied
  dsimp only
  split
  · exact htell _ _ nofun
  · split
    · exact htell _ _ nofun
    · exact htell _ _ nofun

theorem sendSucceeded (hwork : ∀ change, s.work ≠ .revisionStarted change) :
    Calm s s.sendSucceeded := by
  unfold LiveSession.sendSucceeded
  split
  case h_1 => exact at_work _ nofun
  case h_2 change hstarted => exact absurd hstarted (hwork change)
  case h_3 => exact sendCompileError ..
  case h_4 => exact at_work _ nofun
  case h_5 => exact renderRevision ..
  case h_6 => exact returned _
  case h_7 => exact sendFrom ..
  case h_8 => exact sendFrom ..
  case h_9 => exact returned _
  case h_10 => exact refl s

theorem sendFailed (error : JSString) : Calm s (s.sendFailed error) := by
  unfold LiveSession.sendFailed
  split <;> first | exact workFailed .. | exact refl s

theorem awaitClose : Calm s s.awaitClose := by
  unfold LiveSession.awaitClose
  split
  · exact at_work _ nofun
  · exact at_work _ nofun
  · exact refl s

end Calm

/-! ### Events -/

/-- A step is calm, calls `applyRangeChange`, or reports what that threw. -/
inductive StepKind (s : LiveSession) (event : LiveEvent) : LiveSession → Prop
  | calm {t : LiveSession} (h : Calm s t) : StepKind s event t
  | calls {change : TexpressoChangeMessage} (tasks : List OutboundTask)
      (hwork : s.work = .revisionStarted change) (hcalm : Calm s { s with outbound := tasks }) :
      StepKind s event ({ s with outbound := tasks }.callApplyRangeChange change)
  | refused {change : TexpressoChangeMessage} (error : JSString)
      (hwork : s.work = .applyRangeChange change (.error error)) :
      StepKind s event (s.applied change (.error error))
  | failed {change : TexpressoChangeMessage} (error : JSString)
      (hwork : s.work = .applyRangeChange change (.ok ()))
      (hevent : event = .applySettled (.error error)) :
      StepKind s event (s.applied change (.error error))

variable {event : LiveEvent}

namespace StepKind

/-- A task of the outbound queue is over. -/
theorem settled (tasks : List OutboundTask) (awaiter : Awaiter) (result : Except JSString Unit)
    (hcalm : Calm s { s with outbound := tasks }) :
    StepKind s event ({ s with outbound := tasks }.settled awaiter result) := by
  unfold LiveSession.settled
  split
  · split
    · by_cases hwork : ∃ change, s.work = .revisionStarted change
      · obtain ⟨change, hwork⟩ := hwork
        have hcall : LiveSession.sendSucceeded { s with outbound := tasks }
            = LiveSession.callApplyRangeChange change { s with outbound := tasks } := by
          simp only [LiveSession.sendSucceeded, hwork]
        rw [hcall]
        exact .calls tasks hwork hcalm
      · exact .calm (hcalm.trans (.sendSucceeded fun change h => hwork ⟨change, h⟩))
    · exact .calm (hcalm.trans (.sendFailed _))
  · exact .calm (hcalm.trans (.close ..))
  · split
    · exact .calm hcalm
    · exact .calm (hcalm.trans (.close ..))
  · exact .calm (hcalm.trans ((Calm.close ..).trans .awaitClose))
  · exact .calm (hcalm.trans (.close ..))
  · exact .calm (hcalm.trans (Calm.closeSocket.trans (.tearDown true)))

/-- The first task leaves the queue. -/
theorem calm_dropped {task : OutboundTask} {tasks : List OutboundTask}
    (hout : s.outbound = task :: tasks) : Calm s { s with outbound := tasks } :=
  { Calm.refl s with
    wire := by
      intro frame hmem _ _
      rw [LiveSession.wire, List.mem_append] at hmem ⊢
      rw [hout, List.flatMap_cons, List.mem_append]
      exact hmem.imp_right .inr }

theorem sendFrame (h : s.sendFrame = some t) : StepKind s event t := by
  unfold LiveSession.sendFrame at h
  split at h
  · next frame rest awaiter hrest tasks hout =>
      split at h
      · next hopen =>
          obtain rfl := Option.some.inj h
          have hwire : LiveSession.wire { s with
              outbound := ⟨rest, true, awaiter, hrest⟩ :: tasks
              sent := s.sent ++ [frame] } = s.wire := by
            simp [LiveSession.wire, hout]
          refine .calm { Calm.refl s with
            wire := ?_
            sent := ?_ }
          · intro frame hmem _ _
            rwa [hwire] at hmem
          · intro other hmem _ _
            refine .inr ⟨hopen, ?_⟩
            rw [← hwire]
            exact List.mem_append_left _ hmem
      · obtain rfl := Option.some.inj h
        exact settled tasks awaiter _ (calm_dropped hout)
  · cases h

theorem sendSettled {result : Except JSString Unit} (h : s.sendSettled result = some t) :
    StepKind s event t := by
  unfold LiveSession.sendSettled at h
  split at h
  · next frames awaiter hframes tasks hout =>
      split at h
      · obtain rfl := Option.some.inj h
        refine .calm { Calm.refl s with wire := ?_ }
        intro frame hmem _ _
        rw [LiveSession.wire, hout]
        exact hmem
      · obtain rfl := Option.some.inj h
        exact settled tasks awaiter _ (calm_dropped hout)
  · cases h

theorem onSocket (h : s.onSocket platform event = some t) : StepKind s event t := by
  unfold LiveSession.onSocket at h
  split at h
  case h_1 frame =>
      split at h
      · cases h
      · obtain rfl := Option.some.inj h
        have hidle : Calm s { s with idleTimer := true } := { Calm.refl s with }
        exact .calm (hidle.trans (.handleFrame frame))
  case h_2 =>
      split at h
      · obtain rfl := Option.some.inj h
        have hidle : Calm s { s with idleTimer := false } := { Calm.refl s with }
        exact .calm (hidle.trans (.close ..))
      · cases h
  case h_3 =>
      split at h
      · obtain rfl := Option.some.inj h
        have hlifetime : Calm s { s with lifetimeTimer := false } := { Calm.refl s with }
        exact .calm (hlifetime.trans (.close ..))
      · cases h
  case h_4 =>
      obtain rfl := Option.some.inj h
      exact .calm .closeSocket
  case h_5 =>
      split at h
      · cases h
      · obtain rfl := Option.some.inj h
        have hclosed : Calm s { s with readyState := .closed } :=
          { Calm.refl s with readyState := nofun }
        exact .calm (hclosed.trans (.close ..))
  case h_6 =>
      split at h
      · cases h
      · obtain rfl := Option.some.inj h
        exact .calm (.close ..)
  case h_7 =>
      obtain rfl := Option.some.inj h
      exact .calm (.close ..)
  case h_8 => exact sendFrame h
  case h_9 => exact sendSettled h
  case h_10 => cases h

theorem onStartUp (h : s.onStartUp platform event = some t) : StepKind s event t := by
  unfold LiveSession.onStartUp at h
  split at h
  case h_1 =>
      split at h
      · obtain rfl := Option.some.inj h
        have hmade : Calm s { s with workspace := true, directory := true } := { Calm.refl s with }
        exact .calm (hmade.trans (.materialize ..))
      · obtain rfl := Option.some.inj h
        exact .calm (.workFailed ..)
  case h_2 =>
      split at h
      · obtain rfl := Option.some.inj h
        exact .calm (.workFailed ..)
      · obtain rfl := Option.some.inj h
        exact .calm { Calm.refl s with work := nofun }
      · obtain rfl := Option.some.inj h
        exact .calm (.materialize ..)
  case h_3 =>
      split at h
      · obtain rfl := Option.some.inj h
        exact .calm (.started ..)
      · obtain rfl := Option.some.inj h
        have hclosed : Calm s { s with native := .closed } := { Calm.refl s with }
        exact .calm (hclosed.trans (.workFailed ..))
  case h_4 => cases h

theorem onNative (h : s.onNative event = some t) : StepKind s event t := by
  unfold LiveSession.onNative at h
  split at h
  case h_1 =>
      obtain rfl := Option.some.inj h
      exact .calm { Calm.refl s with }
  case h_2 =>
      split at h
      · obtain rfl := Option.some.inj h
        exact .calm { Calm.refl s with }
      · cases h
  case h_3 =>
      split at h
      · obtain rfl := Option.some.inj h
        exact .calm (.sendCompileError ..)
      · obtain rfl := Option.some.inj h
        exact .calm (.renderRevision ..)
  case h_4 result change outcome hwork =>
      split at h
      · obtain rfl := Option.some.inj h
        cases result with
        | ok snapshot => exact .calm (.applied change snapshot)
        | error error => exact .failed error hwork rfl
      · obtain rfl := Option.some.inj h
        exact .refused _ hwork
  case h_5 =>
      obtain rfl := Option.some.inj h
      exact .calm (.pageRendered ..)
  case h_6 =>
      obtain rfl := Option.some.inj h
      exact .calm (.pagesCounted ..)
  case h_7 error =>
      split at h
      · have hexits : Calm s { s with exitError := some error } := { Calm.refl s with }
        split at h
        · obtain rfl := Option.some.inj h
          exact .calm (hexits.trans (.nativeSessionFailed error))
        · obtain rfl := Option.some.inj h
          exact .calm hexits
      · cases h
  case h_8 =>
      split at h
      · obtain rfl := Option.some.inj h
        exact .calm { Calm.refl s with }
      · cases h
  case h_9 =>
      split at h
      · split at h
        · obtain rfl := Option.some.inj h
          exact .calm { Calm.refl s with work := nofun }
        · obtain rfl := Option.some.inj h
          exact .calm { Calm.refl s with }
      · cases h
  case h_10 => cases h

theorem onMethods (h : s.onMethods event = some t) : StepKind s event t := by
  unfold LiveSession.onMethods at h
  split at h
  case h_1 =>
      split at h
      · obtain rfl := Option.some.inj h
        exact .calm (.continueWith _)
      · split at h
        · obtain rfl := Option.some.inj h
          exact .calm (.continueWith _)
        · cases h
      · cases h
  case h_2 =>
      split at h
      · obtain rfl := Option.some.inj h
        exact .calm { Calm.refl s with }
      · cases h
  case h_3 =>
      split at h
      · split at h
        · cases h
        · obtain rfl := Option.some.inj h
          exact .calm (.closeFinishes _)
      · cases h
  case h_4 => cases h

end StepKind

/-- **Every step** is calm, calls `applyRangeChange`, or reports what that threw. -/
theorem step_kinds (h : s.step platform event = some t) : StepKind s event t := by
  unfold LiveSession.step at h
  split at h
  all_goals
    first
    | exact .onStartUp h
    | exact .onNative h
    | exact .onMethods h
    | exact .onSocket h

/-! ## Runs -/

variable {steps : List (LiveSession × LiveEvent)}

theorem Dequeued.cons {change : TexpressoChangeMessage} {buffers : Buffers}
    (h : Dequeued platform steps change buffers) (step : LiveSession × LiveEvent) :
    Dequeued platform (step :: steps) change buffers := by
  obtain ⟨u, event, t, hmem, htaken⟩ := h
  exact ⟨u, event, t, List.mem_cons_of_mem _ hmem, htaken⟩

theorem BadRange.cons {revision : Nat} (h : BadRange platform steps revision)
    (step : LiveSession × LiveEvent) : BadRange platform (step :: steps) revision := by
  obtain ⟨change, buffers, hrevision, hdequeued, hrange⟩ := h
  exact ⟨change, buffers, hrevision, hdequeued.cons step, hrange⟩

theorem Advances.not_started {change : TexpressoChangeMessage} {work work' : Work}
    (h : Advances s work work') : work' ≠ .revisionStarted change := by
  rintro rfl
  cases h with
  | prepared _ hstartUp => cases hstartUp

/-- Only changes taken off the queue are about to be applied. -/
theorem Move.not_started {change : TexpressoChangeMessage} (hflags : Flags s) (hm : Move intact s t)
    (hstarted : t.work = .revisionStarted change) : s.work ≠ .revisionStarted change := by
  intro hwork
  cases hm with
  | initializes | adopts | applies | rejects | reports => cases hstarted
  | advances work ha => exact ha.not_started hstarted
  | fails =>
      unfold LiveSession.workFailed at hstarted
      split at hstarted <;> cases hstarted
  | starts _ _ _ hrest =>
      rcases hrest with ⟨_, hprocessing⟩ | ⟨_, hrest | hrest⟩
      · rw [hflags.processing.mpr (by rw [hwork]; rfl)] at hprocessing
        cases hprocessing
      · rw [hwork] at hrest
        cases hrest
      · rw [hwork] at hrest
        cases hrest
  | continues _ _ hrest =>
      rcases hrest with hrest | hrest <;> rw [hwork] at hrest <;> cases hrest
  | rests => cases hstarted
  | applied =>
      unfold LiveSession.applied at hstarted
      dsimp only at hstarted
      split at hstarted
      · cases hstarted
      · split at hstarted <;> cases hstarted
  | publishes =>
      unfold LiveSession.publish at hstarted
      rw [if_neg (not_not.mpr rfl)] at hstarted
      cases hstarted
  | sends =>
      unfold LiveSession.sendFrom at hstarted
      split at hstarted <;> cases hstarted

/-- A change about to be applied was taken off the queue in this step, or the buffers are as before. -/
theorem Dequeued.of_step {change : TexpressoChangeMessage} (hs : Coherent s)
    (hbefore : s.work = .revisionStarted change → Dequeued platform steps change s.buffers)
    (hstep : s.step platform event = some t) (hstarted : t.work = .revisionStarted change) :
    Dequeued platform ((s, event) :: steps) change t.buffers := by
  by_cases hwork : s.work = .revisionStarted change
  · obtain ⟨s', hi, ⟨rfl, _⟩ | hm⟩ := hs.step_cases hstep
    · rw [hi.buffers]
      exact (hbefore hwork).cons _
    · exact absurd (hi.work.trans hwork) (hm.not_started (hs.interferes hi).toFlags hstarted)
  · exact ⟨s, event, t, List.mem_cons_self .., hstep, hwork, hstarted, rfl⟩

/-- **The classification along a run**: range errors sent, about to be sent, and about to be
reported are about bad ranges. -/
structure Classifies (platform : Platform) (steps : List (LiveSession × LiveEvent)) (s : LiveSession) :
    Prop where
  sent : ∀ frame ∈ s.sent, ∀ revision, frame.rangeError? = some revision →
    BadRange platform steps revision
  queued : s.readyState = .opened → ∀ frame ∈ s.wire, ∀ revision,
    frame.rangeError? = some revision → BadRange platform steps revision
  refused : s.readyState = .opened → ∀ change error,
    s.work = .applyRangeChange change (.error error) → BadRange platform steps change.revision
  dequeued : ∀ change, s.work = .revisionStarted change → Dequeued platform steps change s.buffers
  listens : s.Listens

theorem Classifies.calm (h : Classifies platform steps s) (hs : Coherent s) (hcalm : Calm s t)
    (hstep : s.step platform event = some t) : Classifies platform ((s, event) :: steps) t where
  sent := by
    intro frame hmem revision herror
    rcases hcalm.sent frame hmem revision herror with hmem | ⟨hopen, hmem⟩
    · exact (h.sent frame hmem revision herror).cons _
    · exact (h.queued hopen frame hmem revision herror).cons _
  queued := fun hopen frame hmem revision herror =>
    (h.queued (hcalm.readyState hopen) frame (hcalm.wire frame hmem revision herror) revision
      herror).cons _
  refused := fun hopen change error hwork =>
    (h.refused (hcalm.readyState hopen) change error (hcalm.work _ _ hwork)).cons _
  dequeued := fun change => Dequeued.of_step hs (h.dequeued change) hstep
  listens := hcalm.listens h.listens

/-- `applyRangeChange` is called: an open native session only refuses a bad range. -/
theorem Classifies.calls {change : TexpressoChangeMessage} {tasks : List OutboundTask}
    (h : Classifies platform steps s) (hwork : s.work = .revisionStarted change)
    (hcalm : Calm s { s with outbound := tasks })
    (hstep : s.step platform event
      = some ({ s with outbound := tasks }.callApplyRangeChange change))
    (hanswers : AnswersEdits platform s event) :
    Classifies platform ((s, event) :: steps)
      ({ s with outbound := tasks }.callApplyRangeChange change) where
  sent := fun frame hmem revision herror => (h.sent frame hmem revision herror).cons _
  queued := fun hopen frame hmem revision herror =>
    (h.queued hopen frame (hcalm.wire frame hmem revision herror) revision herror).cons _
  refused := by
    intro hopen change' error hrefused
    have hcall : Work.applyRangeChange change ((s.editOutcome change).map fun _ => ())
        = .applyRangeChange change' (.error error) := hrefused
    obtain ⟨rfl, hfailed⟩ := Work.applyRangeChange.inj hcall
    refine ⟨change, s.buffers, rfl, (h.dequeued change hwork).cons _, ?_⟩
    intro hrange
    have hnative := hanswers.calls _ _ _ hopen hwork hstep rfl hrange
    obtain ⟨buffers, houtcome⟩ := LiveSession.editOutcome_of_hasRange hnative hrange
    rw [houtcome] at hfailed
    cases hfailed
  dequeued := nofun
  listens := h.listens

/-- What `applyRangeChange` threw is reported. -/
theorem Classifies.reports {change : TexpressoChangeMessage} {error : JSString}
    (h : Classifies platform steps s)
    (hrange : s.readyState = .opened → BadRange platform steps change.revision) :
    Classifies platform ((s, event) :: steps) (s.applied change (.error error)) where
  sent := fun frame hmem revision herror => (h.sent frame hmem revision herror).cons _
  queued := by
    intro hopen frame hmem revision herror
    have hwire : (s.applied change (.error error)).wire
        = s.wire ++ [.json (.protocolError (js "invalid-change-range") error true change.revision)] :=
      LiveSession.wire_sendJson ..
    rw [hwire, List.mem_append, List.mem_singleton] at hmem
    rcases hmem with hmem | rfl
    · exact (h.queued hopen frame hmem revision herror).cons _
    · obtain rfl : change.revision = revision := by simpa [Frame.rangeError?] using herror
      exact (hrange hopen).cons _
  refused := nofun
  dequeued := nofun
  listens := h.listens

theorem Classifies.step (h : Classifies platform steps s) (hs : Coherent s)
    (hanswers : AnswersEdits platform s event) (hstep : s.step platform event = some t) :
    Classifies platform ((s, event) :: steps) t := by
  cases step_kinds hstep with
  | calm hcalm => exact h.calm hs hcalm hstep
  | calls tasks hwork hcalm => exact h.calls hwork hcalm hstep hanswers
  | refused error hwork => exact h.reports fun hopen => h.refused hopen _ _ hwork
  | failed error hwork hevent =>
      exact h.reports fun hopen => absurd hevent (hanswers.waits _ _ hopen hwork)

/-- An exit during an edit is reported as a session failure. -/
theorem Classifies.reportsFailure (h : Classifies platform steps s)
    (hanswers : AnswersEdits platform s event) (hstep : s.step platform event = some t)
    (hfails : s.FailsEdit event) : s.ReportsFailure t := by
  obtain ⟨change, error, hwork, rfl | rfl⟩ := hfails
  · by_cases hclosing : s.isClosing = true
    · exact .inr (.inl hclosing)
    · rw [Bool.not_eq_true] at hclosing
      have hexits : s.onNative (.nativeExits error) = some t := hstep
      simp only [LiveSession.onNative] at hexits
      split at hexits
      · next hnative =>
          have hsession : s.session.isSome = true := by
            cases hsession : s.session with
            | some _ => rfl
            | none =>
                rw [hsession] at hnative
                cases hnative.2.2
          rw [if_pos (h.listens hsession hclosing)] at hexits
          obtain rfl := Option.some.inj hexits
          refine .inr (.inr ⟨js "texpresso-exited", error, s.appliedRevision?, ?_⟩)
          rw [LiveSession.nativeSessionFailed, if_neg (by simp [hclosing])]
          exact LiveSession.wire_sendJson ..
      · cases hexits
  · exact .inl fun hopen => hanswers.waits _ _ hopen hwork rfl

theorem Classifies.init : Classifies platform [] LiveSession.new where
  sent := nofun
  queued := nofun
  refused := nofun
  dequeued := nofun
  listens := nofun

/-- Runs whose steps all answer edits classify what they report. -/
theorem trace_classifies (h : (liveSystem platform).Trace steps s)
    (hanswers : ∀ step ∈ steps, AnswersEdits platform step.1 step.2) :
    Classifies platform steps s := by
  induction h with
  | init => exact .init
  | step htrace hstep ih =>
      have hearlier := fun step hmem => hanswers step (List.mem_cons_of_mem _ hmem)
      have hreach : (liveSystem platform).Reachable (fun _ _ => True) _ :=
        htrace.reachable fun _ _ => trivial
      exact (ih hearlier).step (reachable_coherent hreach) (hanswers _ (List.mem_cons_self ..)) hstep

/-- **The errors of edits are classified** in every run in which the native session fails no edit. -/
theorem editsClassified (h : (liveSystem platform).Trace steps s)
    (hanswers : ∀ step ∈ steps, AnswersEdits platform step.1 step.2) :
    EditsClassified platform steps s where
  rangeErrors := (trace_classifies h hanswers).sent
  failures := by
    intro u event t hmem hstep hfails
    induction h with
    | init => cases hmem
    | step htrace _ ih =>
        have hearlier := fun step hmem => hanswers step (List.mem_cons_of_mem _ hmem)
        rcases List.mem_cons.mp hmem with heq | hmem
        · obtain ⟨rfl, rfl⟩ := Prod.mk.inj heq
          exact (trace_classifies htrace hearlier).reportsFailure
            (hanswers _ (List.mem_cons_self ..)) hstep hfails
        · exact ih hearlier hmem

/-- A wait that fails while an edit is applied is reported as a bad range, whatever its reason. -/
theorem rangeError_of_failed {change : TexpressoChangeMessage} {error : JSString}
    (hwork : s.work = .applyRangeChange change (.ok ()))
    (hstep : s.step platform (.applySettled (.error error)) = some t) :
    t.wire = s.wire
      ++ [.json (.protocolError (js "invalid-change-range") error true change.revision)] := by
  have hsettled : s.onNative (.applySettled (.error error)) = some t := hstep
  simp only [LiveSession.onNative, hwork] at hsettled
  obtain rfl := Option.some.inj hsettled
  exact LiveSession.wire_sendJson ..

/-! ## An edit the native session does not answer -/

namespace OneFileSession

/-- The steps of a session over one file. -/
def stepsOf (events : List LiveEvent) : List (LiveSession × LiveEvent) :=
  (liveSystem .posix).stepsFrom LiveSession.new events

/-- The published session gets a change with a valid range, and hands it over. -/
def handing : List LiveEvent := startUp ++ publishing ++ [.frame changeFrame] ++ sending

/-- The native session answers. -/
def answered : List LiveEvent := handing ++ [.applySettled (.ok ⟨[], [], .success⟩)] ++ sending

/-- The native session does not answer in time, closes itself, and the client is told. -/
def unanswered : List LiveEvent :=
  handing ++ [.nativeTimeout,
    .applySettled (.error (js "Timed out waiting for TeXpresso flush after 30000 ms. "))] ++ sending

/-- The native session is open where an edit begins, and the event is no failed wait. -/
def answersEdits (step : LiveSession × LiveEvent) : Bool :=
  (match step.1.work with
    | .revisionStarted _ => step.1.nativeOpen.isOk
    | _ => true) &&
  match step.2 with
  | .applySettled (.error _) => false
  | _ => true

theorem answersEdits_of_check {step : LiveSession × LiveEvent} (h : answersEdits step = true) :
    AnswersEdits .posix step.1 step.2 := by
  obtain ⟨hcalls, hwaits⟩ := Bool.and_eq_true_iff.mp h
  constructor
  · intro t change outcome _ hwork _ _ _
    rw [hwork] at hcalls
    cases hopen : step.1.nativeOpen with
    | ok _ => rfl
    | error _ =>
        rw [hopen] at hcalls
        cases hcalls
  · intro change error _ _ hevent
    rw [hevent] at hwaits
    cases hwaits

/-- The step leaves no change to apply whose range is bad. -/
def takesValid (step : LiveSession × LiveEvent) : Bool :=
  match step.1.step .posix step.2 with
  | none => true
  | some t => match t.work with
    | .revisionStarted change => decide (t.buffers.HasRange change)
    | _ => true

end OneFileSession

theorem editsClassified_answered : EditsClassified .posix (OneFileSession.stepsOf OneFileSession.answered)
    ((liveSystem .posix).stateFrom LiveSession.new OneFileSession.answered) := by
  refine editsClassified (Core.System.trace_after (liveSystem .posix) OneFileSession.answered) ?_
  intro step hmem
  have hall : (OneFileSession.stepsOf OneFileSession.answered).all OneFileSession.answersEdits = true := by rfl
  exact OneFileSession.answersEdits_of_check (List.all_eq_true.mp hall step hmem)

/-- **A timeout is reported as a bad range**, though the range is valid. -/
theorem unanswered_misreported : ¬ ∀ platform steps s, (liveSystem platform).Trace steps s →
    EditsClassified platform steps s := by
  intro h
  have hclassified := h .posix (OneFileSession.stepsOf OneFileSession.unanswered) _
    (Core.System.trace_after (liveSystem .posix) OneFileSession.unanswered)
  have hsent : .json (.protocolError (js "invalid-change-range")
      (js "Timed out waiting for TeXpresso flush after 30000 ms. ") true (some 2))
        ∈ ((liveSystem .posix).stateFrom LiveSession.new OneFileSession.unanswered).sent := by
    decide
  obtain ⟨change, buffers, -, ⟨u, event, t, hmem, hstep, -, hwork, rfl⟩, hrange⟩ :=
    hclassified.rangeErrors _ hsent 2 rfl
  have hall : (OneFileSession.stepsOf OneFileSession.unanswered).all OneFileSession.takesValid = true := by rfl
  have hvalid := List.all_eq_true.mp hall _ hmem
  simp only [OneFileSession.takesValid, hstep, hwork, decide_eq_true_eq] at hvalid
  exact hrange hvalid

end Typr
