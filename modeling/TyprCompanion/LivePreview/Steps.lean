import TyprCompanion.LivePreview.Moves

/-!
# The steps of a session

Every step is interference with the work, possibly followed by one move of the work.

* `Flags` — which method works is what the flags tell.
* `Stepped` — interference, possibly followed by a move; one lemma for each method and each group
  of events.
* **`step_cases`** — every step is of this form.
-/

namespace Typr

variable {intact : Prop} {s t u : LiveSession}

/-- Which method works is what the flags tell. -/
structure Flags (s : LiveSession) : Prop where
  initializing : s.initializing = true ↔ ∃ revision, s.work.caller = some (.initializeSession revision)
  processing : s.processing = true ↔ s.work.caller = some .drainChanges

/-- Interference, possibly followed by a move.  A change that arrives while nobody works starts the
work. -/
def Stepped (intact : Prop) (s t : LiveSession) : Prop :=
  ∃ s', Interferes intact s s' ∧
    ((t = s' ∧ (t.queue = s.queue ∨ t.queue = [] ∨ s.initializing = true ∨ s.processing = true)) ∨
      Move intact s' t)

namespace Stepped

theorem of_interferes (h : Interferes intact s t)
    (hqueue : t.queue = s.queue ∨ t.queue = [] ∨ s.initializing = true ∨ s.processing = true) :
    Stepped intact s t :=
  ⟨t, h, .inl ⟨rfl, hqueue⟩⟩

theorem of_move (h : Move intact s t) : Stepped intact s t :=
  ⟨s, .refl intact s, .inr h⟩

theorem advances (work : Work) (h : Advances s s.work work) :
    Stepped intact s { s with work := work } :=
  of_move (.advances work h)

/-- A step after interference that neither sends nor concerns the queue. -/
theorem after (h : Interferes intact s t) (hqueue : LiveSession.SameQueue s t)
    (hsent : t.sent = s.sent) (h' : Stepped intact t u) : Stepped intact s u := by
  obtain ⟨t', hinterferes, hmove⟩ := h'
  refine ⟨t', h.trans hinterferes hqueue hsent, ?_⟩
  rwa [hqueue.2.1, h.initializing, h.processing] at hmove

theorem refl (intact : Prop) (s : LiveSession) : Stepped intact s s :=
  of_interferes (.refl intact s) (.inl rfl)

theorem notice {message : TexpressoServerMessage} {awaiter : Awaiter}
    (hnotice : Frame.isNotice (.json message) = true)
    (hawaiter : ∀ reason, message = .sessionClosed reason → awaiter = .close) :
    Stepped intact s (s.sendJson message awaiter) :=
  of_interferes (.sendJson hnotice hawaiter) (.inl rfl)

theorem close (reason : LiveSessionCloseReason) (notifyClient : Bool) :
    Stepped intact s (s.close reason notifyClient) := by
  refine of_interferes (.close reason notifyClient) ?_
  unfold LiveSession.close
  split
  · exact .inl rfl
  · split
    · exact .inr (.inl rfl)
    · exact .inr (.inl rfl)

/-- `drainChanges`, called when a method is over. -/
theorem drains {caller : Caller} (hwork : s.work.Resumes (.done caller)) :
    Stepped intact s s.atRest.drainChanges := by
  have hrest (hqueue : s.isClosing = true ∨ s.queue = [] ∨ s.session = none) :
      Stepped intact s s.atRest :=
    of_move (.rests hqueue ⟨_, hwork⟩)
  unfold LiveSession.drainChanges
  split
  · next hguard =>
      have hguard : s.isClosing = true ∨ s.session = none := by
        simpa [LiveSession.atRest] using hguard
      rcases hguard with hclosing | hsession
      · exact hrest (.inl hclosing)
      · exact hrest (.inr (.inr hsession))
  · next hguard =>
      simp only [LiveSession.atRest, Bool.false_eq_true, false_or, not_or, Bool.not_eq_true,
        Option.isNone_eq_false_iff] at hguard
      obtain ⟨hclosing, hsession⟩ := hguard
      split
      · next hqueue => exact hrest (.inr (.inl hqueue))
      · next hqueue => exact of_move (.starts hqueue hclosing hsession (.inr ⟨caller, hwork⟩))

theorem continueWith {next : Continuation} (hflags : Flags s) (hwork : s.work.Resumes next) :
    Stepped intact s (s.continueWith next) := by
  have hcaller : s.work.caller = some next.caller := by
    rcases hwork with hwork | hwork <;> rw [hwork] <;> rfl
  have hrest (hqueue : s.isClosing = true ∨ s.queue = [] ∨ s.session = none) :
      Stepped intact s s.atRest :=
    of_move (.rests hqueue ⟨_, hwork⟩)
  -- the flag of the method that does not work is down
  have hinitializing (h : next.caller = .drainChanges) : s.initializing = false := by
    rw [← Bool.not_eq_true, hflags.initializing, hcaller, h]
    simp
  have hprocessing {revision : Nat} (h : next.caller = .initializeSession revision) :
      s.processing = false := by
    rw [← Bool.not_eq_true, hflags.processing, hcaller, h]
    simp
  have hdrain (hdone : next = .done .drainChanges ∨ s.isClosing = true ∨ s.queue = [])
      (h : next.caller = .drainChanges) : Stepped intact s s.drainFinally := by
    have hidle : { s with processing := false, work := .idle } = s.atRest := by
      rw [LiveSession.atRest, ← hinitializing h]
    unfold LiveSession.drainFinally
    rw [hidle]
    split
    · next hqueue =>
        rcases hdone with rfl | hdone | hdone
        · exact drains hwork
        · rw [hqueue.1] at hdone
          cases hdone
        · exact absurd hdone hqueue.2
    · next hqueue =>
        apply hrest
        by_cases hclosing : s.isClosing = true
        · exact .inl hclosing
        · exact .inr (.inl (by simpa [hclosing] using hqueue))
  cases next with
  | loop =>
      show Stepped intact s s.drainLoop
      unfold LiveSession.drainLoop
      split
      · next hclosing hqueue => exact of_move (.continues hqueue hclosing hwork)
      · next hnone =>
          apply hdrain _ rfl
          cases hclosing : s.isClosing with
          | true => exact .inr (.inl rfl)
          | false =>
              refine .inr (.inr ?_)
              cases hqueue : s.queue with
              | nil => rfl
              | cons change rest => exact (hnone change rest hclosing hqueue).elim
  | done caller =>
      cases caller with
      | drainChanges => exact hdrain (.inl rfl) rfl
      | initializeSession revision =>
          show Stepped intact s s.initializeFinally
          have hidle : { s with initializing := false, work := .idle } = s.atRest := by
            rw [LiveSession.atRest, ← hprocessing rfl]
          unfold LiveSession.initializeFinally
          rw [hidle]
          split
          · next hclosing => exact hrest (.inl hclosing)
          · exact drains hwork

theorem returned {caller : Caller} (h : Advances s s.work (.resume caller.next)) :
    Stepped intact s (s.returned caller) := by
  cases caller with
  | initializeSession revision => exact advances _ h
  | drainChanges => exact advances _ h

theorem renderRevision {caller : Caller} {revision : Nat}
    (hwork : s.work.unrendered? = some (caller, revision)) :
    Stepped intact s (s.renderRevision caller revision) := by
  unfold LiveSession.renderRevision
  split
  · next hskip => exact returned (.skips hwork hskip)
  · simp only [LiveSession.nextPage, ne_eq, not_true_eq_false, and_false, if_false]
    exact advances _ (.renders hwork)

theorem pageRendered {caller : Caller} {revision : Nat} {pages : List TexpressoRenderedPage}
    (result : Except JSString PageImage) (hwork : s.work = .renderPage caller revision pages) :
    Stepped intact s (s.pageRendered caller revision pages result) := by
  unfold LiveSession.pageRendered
  split
  · next error _ =>
      refine advances _ ?_
      rw [hwork]
      exact .notRendered caller revision pages error
  · next pages' hpages =>
      obtain ⟨image, hadded⟩ : ∃ image, LiveSession.addPage pages image s.renderDpi = .ok pages' := by
        cases result with
        | error _ => cases hpages
        | ok image => exact ⟨image, hpages⟩
      unfold LiveSession.nextPage
      split
      · next hsuperseded =>
          refine returned ?_
          rw [hwork]
          exact .superseded (.inl rfl) hsuperseded.1
      · refine advances _ ?_
        rw [hwork]
        exact .rendered caller revision hadded

theorem pagesCounted {caller : Caller} {revision : Nat} {pages : List TexpressoRenderedPage}
    {error : JSString} (result : Except JSString Nat)
    (hwork : s.work = .pageCount caller revision pages error) :
    Stepped intact s (s.pagesCounted caller revision pages error result) := by
  have hfails (error : JSString) : Stepped intact s (s.workFailed caller error) :=
    of_move (.fails error (by rw [hwork]; rfl) fun _ _ => by rw [hwork]; rfl)
  unfold LiveSession.pagesCounted
  split
  · exact hfails _
  · split
    · next hpages =>
        by_cases hlatest : revision = s.latestReceivedRevision
        · subst hlatest
          exact of_move (.publishes hwork hpages.2.2)
        · unfold LiveSession.publish
          rw [if_pos hlatest]
          refine returned ?_
          exact .superseded (.inr ⟨error, hwork⟩) hlatest
    · exact hfails _

theorem sendSucceeded : Stepped intact s s.sendSucceeded := by
  unfold LiveSession.sendSucceeded
  split
  case h_1 revision hwork => exact advances _ (hwork ▸ .ready revision)
  case h_2 change hwork => exact of_move (.applies hwork)
  case h_3 change snapshot hwork =>
      refine of_move (.reports snapshot ?_)
      rw [hwork]
      rfl
  case h_4 hwork => exact advances _ (hwork ▸ .coalesced)
  case h_5 change hwork =>
      refine renderRevision ?_
      rw [hwork]
      rfl
  case h_6 caller hwork => exact returned (hwork ▸ .reported caller)
  case h_7 caller revision pages hwork =>
      refine of_move (.sends ?_)
      rw [hwork]
      rfl
  case h_8 caller revision pages index hwork =>
      refine of_move (.sends ?_)
      rw [hwork]
      rfl
  case h_9 caller hwork => exact returned (hwork ▸ .completed caller)
  case h_10 => exact refl intact s

theorem sendFailed (error : JSString) (hintact : s.readyState = .opened → ¬ intact) :
    Stepped intact s (s.sendFailed error) := by
  have hfails {caller : Caller} (hcaller : s.work.caller = some caller) :
      Stepped intact s (s.workFailed caller error) :=
    of_move (.fails error hcaller fun hopen h => absurd h (hintact hopen))
  unfold LiveSession.sendFailed
  split
  all_goals
    first
    | exact refl intact s
    | next hwork =>
        apply hfails
        rw [hwork]
        rfl

/-- `close`, and then the wait for it. -/
theorem awaitClose (reason : LiveSessionCloseReason) :
    Stepped intact s (s.close reason true).awaitClose := by
  have hclosing : (s.close reason true).isClosing = true := by
    unfold LiveSession.close
    split
    · assumption
    · split <;> rfl
  have hadvances {work : Work} (h : Advances (s.close reason true) (s.close reason true).work work) :
      Stepped intact s { s.close reason true with work := work } :=
    ⟨s.close reason true, .close reason true, .inr (.advances work h)⟩
  unfold LiveSession.awaitClose
  split
  case h_1 hwork => exact hadvances (hwork ▸ .rejected hclosing)
  case h_2 caller hwork => exact hadvances (hwork ▸ .failed caller hclosing)
  case h_3 => exact close reason true

theorem settled (awaiter : Awaiter) (result : Except JSString Unit)
    (hintact : result.isOk = false → s.readyState = .opened → ¬ intact) :
    Stepped intact s (s.settled awaiter result) := by
  cases awaiter with
  | work =>
      cases result with
      | ok _ => exact sendSucceeded
      | error error => exact sendFailed error (hintact rfl)
  | failure => exact awaitClose .error
  | protocolFailure isFatal =>
      cases isFatal with
      | true => exact close .error true
      | false =>
          cases result with
          | ok _ => exact refl intact s
          | error _ => exact close .error false
  | nativeExit => exact close .error true
  | close =>
      refine of_interferes ?_ (.inl rfl)
      exact { (Interferes.closeSocket : Interferes intact s s.closeSocket) with }

/-! ### Events -/

theorem sendFrame (h : s.sendFrame = some t) : Stepped intact s t := by
  unfold LiveSession.sendFrame at h
  split at h
  · next frame rest awaiter hrest tasks hout =>
      split at h
      · next hopen =>
          obtain rfl := Option.some.inj h
          have hwire : LiveSession.wire { s with
              outbound := ⟨rest, true, awaiter, hrest⟩ :: tasks
              sent := s.sent ++ [frame] } = s.wire := by
            simp [LiveSession.wire, hout]
          refine of_interferes { Interferes.refl intact s with
            sent := .inr hopen
            messages := ?_
            wire := ?_
            farewell := ?_
            images := ?_ } (.inl rfl)
          · intro _ message hmem
            rw [hwire]
            exact hmem
          · intro _ _
            exact ⟨[], by simp, by rw [hwire, List.append_nil]⟩
          · intro hfarewell
            rw [LiveSession.Farewell, hout] at hfarewell
            exact hfarewell.sends hopen
          · intro fresh himages
            rw [hout] at himages
            exact himages.sends
      · next hopen =>
          obtain rfl := Option.some.inj h
          have hdropped : Interferes intact s { s with outbound := tasks } :=
            { Interferes.refl intact s with
              messages := fun h => absurd h hopen
              wire := fun h => absurd h hopen
              farewell := by
                intro hfarewell
                rw [LiveSession.Farewell, hout] at hfarewell
                exact hfarewell.tail fun h => absurd h hopen
              images := by
                intro fresh himages
                rw [hout] at himages
                exact himages.tail }
          exact after hdropped ⟨rfl, rfl, rfl, rfl⟩ rfl (settled awaiter (.ok ()) (by simp [Except.isOk, Except.toBool]))
  · cases h

/-- The task being sent is over. -/
theorem taskSettled {frames : List Frame} {awaiter : Awaiter} {tasks : List OutboundTask}
    {hframes : ∀ frame ∈ frames, frame.isBinary = true} {result : Except JSString Unit}
    (hout : s.outbound = ⟨frames, true, awaiter, hframes⟩ :: tasks)
    (hdone : result.isOk = true → frames = [])
    (hintact : result.isOk = false → s.readyState = .opened → ¬ intact) :
    Stepped intact s ({ s with outbound := tasks }.settled awaiter result) := by
  have hwire : s.wire = s.sent ++ (frames ++ tasks.flatMap OutboundTask.frames) := by
    rw [LiveSession.wire, hout, List.flatMap_cons]
  by_cases hawaiter : awaiter = .close
  · subst hawaiter
    have hclosed : (LiveSession.closeSocket { s with outbound := tasks }).readyState ≠ .opened := by
      unfold LiveSession.closeSocket
      dsimp only
      split
      · simp
      · assumption
    refine of_interferes { Interferes.refl intact s with
      readyState := fun hopen => absurd hopen hclosed
      sent := .inl rfl
      messages := fun hopen => absurd hopen hclosed
      wire := fun hopen => absurd hopen hclosed
      farewell := ?_
      images := ?_ } (.inl rfl)
    · intro hfarewell
      rw [LiveSession.Farewell, hout] at hfarewell
      exact hfarewell.tail fun hopen => absurd hopen hclosed
    · intro fresh himages
      rw [hout] at himages
      exact himages.tail
  · have hsettled : Interferes intact s { s with outbound := tasks } :=
      { Interferes.refl intact s with
        messages := by
          intro _ message hmem
          rw [hwire] at hmem
          -- the rest of a task holds no message
          have hrest : .json message ∉ frames := by
            intro h
            cases hframes _ h
          simpa [LiveSession.wire, hrest] using hmem
        wire := by
          intro hopen hok
          refine ⟨[], by simp, ?_⟩
          cases hresult : result.isOk with
          | false => exact absurd hok (hintact hresult hopen)
          | true =>
              rw [hwire, hdone hresult]
              simp [LiveSession.wire]
        farewell := by
          intro hfarewell
          rw [LiveSession.Farewell, hout] at hfarewell
          exact hfarewell.tail fun hopen => ⟨hopen, hawaiter⟩
        images := by
          intro fresh himages
          rw [hout] at himages
          exact himages.tail }
    exact after hsettled ⟨rfl, rfl, rfl, rfl⟩ rfl (settled awaiter result hintact)

theorem sendSettled {result : Except JSString Unit} (h : s.sendSettled result = some t)
    (hintact : intact → s.SendsComplete (.sendSettled result)) : Stepped intact s t := by
  unfold LiveSession.sendSettled at h
  split at h
  · next frames awaiter hframes tasks hout =>
      split at h
      · next hmore =>
          obtain rfl := Option.some.inj h
          have hwire : LiveSession.wire { s with
              outbound := ⟨frames, false, awaiter, fun frame hframe =>
                hframes frame (List.mem_of_mem_tail hframe)⟩ :: tasks } = s.wire := by
            simp [LiveSession.wire, hout]
          refine of_interferes { Interferes.refl intact s with
            messages := ?_
            wire := ?_
            farewell := ?_
            images := ?_ } (.inl rfl)
          · intro _ message hmem
            rw [hwire]
            exact hmem
          · intro _ _
            exact ⟨[], by simp, by rw [hwire, List.append_nil]⟩
          · intro hfarewell
            rw [LiveSession.Farewell, hout] at hfarewell
            exact hfarewell.continues hmore.2
          · intro fresh himages
            rw [hout] at himages
            exact himages.continues hmore.2
      · next hdone =>
          obtain rfl := Option.some.inj h
          refine taskSettled hout ?_ ?_
          · intro hok
            by_contra hne
            exact hdone ⟨hok, hne⟩
          · intro hresult hopen hok
            cases result with
            | ok _ => cases hresult
            | error _ => exact hintact hok hopen
  · cases h

theorem enqueueChange {message : TexpressoChangeMessage} (hclosing : s.isClosing = false) :
    Stepped intact s (s.enqueueChange message) := by
  unfold LiveSession.enqueueChange
  split
  · exact notice rfl (by simp)
  · next hready =>
      simp only [not_or, Bool.not_eq_false, Bool.not_eq_true, Option.isNone_eq_false_iff] at hready
      split
      · exact notice rfl (by simp)
      · next hlatest =>
          have haccept : Interferes intact s (s.accept message) :=
            { Interferes.refl intact s with
              received := .inr (.inl ⟨message, hclosing, hclosing, hready.2,
                Nat.lt_of_not_le hlatest, rfl, rfl, rfl⟩) }
          split
          · exact notice rfl (by simp)
          · split
            · exact notice rfl (by simp)
            · split
              · next hinitializing => exact of_interferes haccept (.inr (.inr (.inl hinitializing)))
              · next hinitializing =>
                  simp only [Bool.not_eq_true] at hinitializing
                  unfold LiveSession.drainChanges
                  split
                  · next hguard =>
                      have hprocessing : s.processing = true ∨ s.session = none := by
                        simpa [LiveSession.accept, hinitializing, hclosing] using hguard
                      rcases hprocessing with hprocessing | hsession
                      · exact of_interferes haccept (.inr (.inr (.inr hprocessing)))
                      · rw [hsession] at hready
                        cases hready.2
                  · next hguard =>
                      simp only [not_or, Bool.not_eq_true] at hguard
                      split
                      · next hqueue => simp [LiveSession.accept] at hqueue
                      · next change rest hqueue =>
                          have hstart : Move intact (s.accept message) _ :=
                            .starts hqueue hclosing hready.2 (.inl ⟨hinitializing, hguard.1⟩)
                          have hsame : { s.accept message with initializing := false, processing := true }
                              = { s.accept message with processing := true } := by
                            rw [← show (s.accept message).initializing = false from hinitializing]
                          rw [hsame] at hstart
                          exact ⟨_, haccept, .inr hstart⟩

theorem handleFrame (platform : Platform) (frame : ClientFrame) :
    Stepped intact s (s.handleFrame platform frame) := by
  unfold LiveSession.handleFrame
  split
  · exact refl intact s
  · next hclosing =>
      rw [Bool.not_eq_true] at hclosing
      split
      · exact notice rfl (by simp)
      · exact notice rfl (by simp)
      · split
        · exact notice rfl (by simp)
        · exact close .clientShutdown true
        · next message _ =>
            split
            · exact notice rfl (by simp)
            · next hfresh =>
                simp only [not_or, Bool.not_eq_true] at hfresh
                exact of_move (.initializes message hclosing hfresh.1 hfresh.2)
        · exact enqueueChange hclosing

theorem materialize {platform : Platform} {message : TexpressoInitializeMessage}
    {files : List ProjectFile} (hwork : s.work.isStartUp = true)
    (hcaller : s.work.caller = some (.initializeSession message.revision)) :
    Stepped intact s (s.materialize platform message files) := by
  unfold LiveSession.materialize
  split
  · have hstart : Interferes intact s { s with native := .starting } :=
      { Interferes.refl intact s with }
    exact after hstart ⟨rfl, rfl, rfl, rfl⟩ rfl
      (advances (.start message) (.prepared hwork rfl hcaller rfl (by simp)))
  · split
    · exact of_move (.fails _ hcaller fun _ _ => Work.mayThrow_of_isStartUp hwork)
    · next file rest _ _ _ =>
        exact advances (.materialize message file rest false)
          (.prepared hwork rfl hcaller rfl (by simp))

end Stepped

section Events

variable {platform : Platform} {event : LiveEvent}

theorem stepped_onSocket (h : s.onSocket platform event = some t)
    (hintact : intact → s.SendsComplete event) : Stepped intact s t := by
  unfold LiveSession.onSocket at h
  split at h
  case h_1 frame =>
      split at h
      · cases h
      · obtain rfl := Option.some.inj h
        have hidle : Interferes intact s { s with idleTimer := true } :=
          { Interferes.refl intact s with }
        exact .after hidle ⟨rfl, rfl, rfl, rfl⟩ rfl (.handleFrame platform frame)
  case h_2 =>
      split at h
      · obtain rfl := Option.some.inj h
        have hidle : Interferes intact s { s with idleTimer := false } :=
          { Interferes.refl intact s with }
        exact .after hidle ⟨rfl, rfl, rfl, rfl⟩ rfl (.close .error true)
      · cases h
  case h_3 =>
      split at h
      · obtain rfl := Option.some.inj h
        have hlifetime : Interferes intact s { s with lifetimeTimer := false } :=
          { Interferes.refl intact s with }
        exact .after hlifetime ⟨rfl, rfl, rfl, rfl⟩ rfl (.close .error true)
      · cases h
  case h_4 =>
      obtain rfl := Option.some.inj h
      exact .of_interferes .closeSocket (.inl rfl)
  case h_5 =>
      split at h
      · cases h
      · obtain rfl := Option.some.inj h
        have hclosed : Interferes intact s { s with readyState := .closed } :=
          { Interferes.refl intact s with
            readyState := by
              intro h
              cases h
            sent := .inl rfl
            messages := fun _ _ h => h
            wire := fun _ _ => ⟨[], by simp, by simp [LiveSession.wire]⟩
            farewell := fun h => h.socket nofun }
        exact .after hclosed ⟨rfl, rfl, rfl, rfl⟩ rfl (.close .clientDisconnect false)
  case h_6 =>
      split at h
      · cases h
      · obtain rfl := Option.some.inj h
        exact .close .error false
  case h_7 =>
      obtain rfl := Option.some.inj h
      exact .close .serverShutdown true
  case h_8 => exact .sendFrame h
  case h_9 result => exact .sendSettled h hintact
  case h_10 => cases h

theorem stepped_onStartUp (h : s.onStartUp platform event = some t) : Stepped intact s t := by
  have hfails {revision : Nat} (hwork : s.work.isStartUp = true)
      (hcaller : s.work.caller = some (.initializeSession revision)) (error : JSString) :
      Stepped intact s (s.workFailed (.initializeSession revision) error) :=
    .of_move (.fails error hcaller fun _ _ => Work.mayThrow_of_isStartUp hwork)
  unfold LiveSession.onStartUp at h
  split at h
  case h_1 result message hwork =>
      split at h
      · obtain rfl := Option.some.inj h
        have hmade : Interferes intact s { s with workspace := true, directory := true } :=
          { Interferes.refl intact s with }
        refine .after hmade ⟨rfl, rfl, rfl, rfl⟩ rfl (.materialize ?_ ?_)
        · show s.work.isStartUp = true
          rw [hwork]
          rfl
        · show s.work.caller = _
          rw [hwork]
          rfl
      · obtain rfl := Option.some.inj h
        exact hfails (by rw [hwork]; rfl) (by rw [hwork]; rfl) _
  case h_2 result message file rest writing hwork =>
      have hstart : s.work.isStartUp = true := by
        rw [hwork]
        rfl
      have hcaller : s.work.caller = some (.initializeSession message.revision) := by
        rw [hwork]
        rfl
      split at h
      · obtain rfl := Option.some.inj h
        exact hfails hstart hcaller _
      · obtain rfl := Option.some.inj h
        have hmade : Interferes intact s { s with directory := true } :=
          { Interferes.refl intact s with }
        exact .after hmade ⟨rfl, rfl, rfl, rfl⟩ rfl
          (.advances (.materialize message file rest true)
            (.prepared hstart rfl hcaller rfl (by simp)))
      · obtain rfl := Option.some.inj h
        exact .materialize hstart hcaller
  case h_3 result message hwork =>
      have hstart : s.work.isStartUp = true := by
        rw [hwork]
        rfl
      have hcaller : s.work.caller = some (.initializeSession message.revision) := by
        rw [hwork]
        rfl
      split at h
      · next session =>
          obtain rfl := Option.some.inj h
          unfold LiveSession.started
          split
          · next hclosing =>
              have hcloses : Interferes intact s { s with native := .closing } :=
                { Interferes.refl intact s with }
              exact .after hcloses ⟨rfl, rfl, rfl, rfl⟩ rfl
                (.advances (.discard message.revision)
                  (.prepared hstart rfl hcaller rfl fun _ _ => hclosing))
          · next hclosing =>
              rw [Bool.not_eq_true] at hclosing
              exact .of_move (.adopts session hwork hclosing)
      · next error =>
          obtain rfl := Option.some.inj h
          have hclosed : Interferes intact s { s with native := .closed } :=
            { Interferes.refl intact s with }
          exact .after hclosed ⟨rfl, rfl, rfl, rfl⟩ rfl
            (.of_move (.fails error hcaller fun _ _ => Work.mayThrow_of_isStartUp hstart))
  case h_4 => cases h

theorem stepped_onNative (hclosing : ∀ revision, s.work = .discard revision → s.isClosing = true)
    (h : s.onNative event = some t) : Stepped intact s t := by
  have hsame {u : LiveSession} (h : Interferes intact s u) (hqueue : u.queue = s.queue) :
      Stepped intact s u := .of_interferes h (.inl hqueue)
  unfold LiveSession.onNative at h
  split at h
  case h_1 =>
      obtain rfl := Option.some.inj h
      exact hsame { Interferes.refl intact s with } rfl
  case h_2 =>
      split at h
      · obtain rfl := Option.some.inj h
        exact hsame { Interferes.refl intact s with } rfl
      · cases h
  case h_3 snapshot revision hwork =>
      split at h
      · obtain rfl := Option.some.inj h
        refine .of_move (.reports snapshot ?_)
        rw [hwork]
        rfl
      · obtain rfl := Option.some.inj h
        refine .renderRevision ?_
        rw [hwork]
        rfl
  case h_4 result change outcome hwork =>
      split at h
      · obtain rfl := Option.some.inj h
        cases result with
        | error error => exact .of_move (.rejects error hwork)
        | ok snapshot => exact .of_move (.applied snapshot hwork)
      · obtain rfl := Option.some.inj h
        exact .of_move (.rejects _ hwork)
  case h_5 result caller revision pages hwork =>
      obtain rfl := Option.some.inj h
      exact .pageRendered result hwork
  case h_6 result caller revision pages error hwork =>
      obtain rfl := Option.some.inj h
      exact .pagesCounted result hwork
  case h_7 error =>
      split at h
      · have hexits : Interferes intact s { s with exitError := some error } :=
          { Interferes.refl intact s with }
        split at h
        · obtain rfl := Option.some.inj h
          refine .after hexits ⟨rfl, rfl, rfl, rfl⟩ rfl ?_
          unfold LiveSession.nativeSessionFailed
          split
          · exact .refl intact _
          · exact .notice rfl (by simp)
        · obtain rfl := Option.some.inj h
          exact hsame hexits rfl
      · cases h
  case h_8 =>
      split at h
      · obtain rfl := Option.some.inj h
        exact hsame { Interferes.refl intact s with } rfl
      · cases h
  case h_9 =>
      split at h
      · have hcloses : Interferes intact s { s with native := .closed } :=
          { Interferes.refl intact s with }
        split at h
        · next revision hwork =>
            obtain rfl := Option.some.inj h
            refine .after hcloses ⟨rfl, rfl, rfl, rfl⟩ rfl
              (.advances (.resume (.done (.initializeSession revision))) ?_)
            show Advances _ s.work _
            rw [hwork]
            exact .discarded revision (hclosing revision hwork)
        · obtain rfl := Option.some.inj h
          exact hsame hcloses rfl
      · cases h
  case h_10 => cases h

theorem stepped_onMethods (hflags : Flags s) (h : s.onMethods event = some t) :
    Stepped intact s t := by
  unfold LiveSession.onMethods at h
  split at h
  case h_1 =>
      split at h
      · next next hwork =>
          obtain rfl := Option.some.inj h
          exact .continueWith hflags (.inl hwork)
      · next next hwork =>
          split at h
          · obtain rfl := Option.some.inj h
            exact .continueWith hflags (.inr hwork)
          · cases h
      · cases h
  case h_2 =>
      split at h
      · obtain rfl := Option.some.inj h
        exact .of_interferes { Interferes.refl intact s with } (.inl rfl)
      · cases h
  case h_3 =>
      split at h
      · split at h
        · cases h
        · obtain rfl := Option.some.inj h
          unfold LiveSession.closeFinishes
          split
          · exact .of_interferes { Interferes.refl intact s with } (.inl rfl)
          · exact .of_interferes { (Interferes.closeSocket : Interferes intact s s.closeSocket) with }
              (.inl rfl)
      · cases h
  case h_4 => cases h

/-- **Every step** is interference, possibly followed by a move of the work. -/
theorem step_cases (hflags : Flags s)
    (hclosing : ∀ revision, s.work = .discard revision → s.isClosing = true)
    (h : s.step platform event = some t) : Stepped (s.SendsComplete event) s t := by
  unfold LiveSession.step at h
  split at h
  all_goals
    first
    | exact stepped_onStartUp h
    | exact stepped_onNative hclosing h
    | exact stepped_onMethods hflags h
    | exact stepped_onSocket h id

end Events

end Typr
