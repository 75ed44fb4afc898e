import TyprCompanion.LivePreview.Revisions

/-!
# Convergence

A session that has nothing left to do has applied the latest revision it accepted, and has reported
it to a client that still listens.

* `LiveSession.Quiescent` — nobody works, nothing is queued and nothing is being sent.
* `Convergent` — while nobody works the queue is empty, and wherever a revision is dealt with it was
  reported, or a newer one waits.
* **`converges`** — quiescent sessions are up to date, and no change is ever left without somebody
  who works on it.
-/

namespace Typr

/-- The message is the result of the revision. -/
def TexpressoServerMessage.Reports (revision : Nat) : TexpressoServerMessage → Prop
  | revisionComplete done _ _ _ => done = revision
  | compileError failed _ _ => failed = revision
  | _ => False

instance (revision : Nat) (message : TexpressoServerMessage) :
    Decidable (message.Reports revision) := by
  cases message <;> unfold TexpressoServerMessage.Reports <;> infer_instance

namespace LiveSession

/-- The result of the applied revision was sent or is queued, unless the socket is not open. -/
def Reported (s : LiveSession) : Prop :=
  s.readyState = .opened →
    ∃ message, .json message ∈ s.wire ∧ message.Reports s.appliedRevision

/-- Nothing more is to be said about the applied revision. -/
def DealtWith (s : LiveSession) : Prop :=
  s.isClosing = true ∨ s.queue ≠ [] ∨ s.Reported

/-- Nobody works, nothing is queued and nothing is being sent. -/
structure Quiescent (s : LiveSession) : Prop where
  initializing : s.initializing = false
  processing : s.processing = false
  queue : s.queue = []
  outbound : s.outbound = []

end LiveSession

/-- The applied revision is dealt with where the work is. -/
def Work.DealtWith (s : LiveSession) : Work → Prop
  | idle => s.session = none ∨ s.DealtWith
  | coalesced | compileError _ | complete _ | resume .loop | resume (.done (.initializeSession _)) =>
      s.DealtWith
  | _ => True

/-- Idle sessions have an empty queue, and each revision is dealt with in its turn. -/
structure Convergent (s : LiveSession) : Prop where
  idle : s.work = .idle → s.queue = []
  dealtWith : s.work.DealtWith s

variable {platform : Platform} {intact : Prop} {s t : LiveSession}

/-! ## Steps -/

theorem Interferes.dealtWith (hi : Interferes intact s t) (h : s.DealtWith) : t.DealtWith := by
  rcases hi.received with ⟨hclosing, hqueue, -, -⟩ | ⟨message, -, -, -, -, hqueue, -, -⟩ | ⟨hclosing, -⟩
  · rcases h with h | h | h
    · exact .inl (hclosing.trans h)
    · exact .inr (.inl (hqueue ▸ h))
    · refine .inr (.inr ?_)
      intro hopen
      obtain ⟨message, hmem, hreports⟩ := h (hi.readyState hopen)
      exact ⟨message, hi.messages hopen message hmem, hi.appliedRevision ▸ hreports⟩
  · refine .inr (.inl ?_)
    rw [hqueue]
    exact List.append_ne_nil_of_right_ne_nil _ (List.cons_ne_nil message [])
  · exact .inl hclosing

theorem Interferes.work_dealtWith (hi : Interferes intact s t) {work : Work}
    (h : work.DealtWith s) : work.DealtWith t := by
  cases work with
  | idle =>
      rcases h with h | h
      · exact .inl (hi.session.trans h)
      · exact .inr (hi.dealtWith h)
  | coalesced | compileError | complete => exact hi.dealtWith h
  | resume next =>
      cases next with
      | loop => exact hi.dealtWith h
      | done caller =>
          cases caller with
          | initializeSession => exact hi.dealtWith h
          | drainChanges => trivial
  | _ => trivial

/-- A method that returns has dealt with the revision. -/
theorem Work.dealtWith_returned {caller : Caller} (h : s.DealtWith) :
    (Work.resume caller.next).DealtWith s := by
  cases caller <;> exact h

/-- A revision that is not the latest one is followed by a queued one. -/
theorem Coherent.dealtWith_of_superseded (hs : Coherent s) (htaken : s.work.taken = [])
    (hfailing : s.work.isFailing = false)
    (hlatest : s.appliedRevision ≠ s.latestReceivedRevision) : s.DealtWith := by
  cases hclosing : s.isClosing with
  | true => exact .inl hclosing
  | false =>
      refine .inr (.inl ?_)
      intro hqueue
      have hmem := hs.latest hclosing hfailing
      rw [LiveSession.revisions, htaken, hqueue, List.append_nil, List.map_nil,
        List.mem_singleton] at hmem
      exact hlatest hmem.symm

theorem Advances.dealtWith {work work' : Work} (hs : Coherent s) (hwork : s.work = work)
    (ha : Advances s work work') (h : work.DealtWith s) : work'.DealtWith s := by
  have hpoint := hs.point
  rw [hwork] at hpoint
  cases ha with
  | prepared _ hwork' =>
      cases work' with
      | mkdtemp | materialize | start | discard => trivial
      | _ => cases hwork'
  | discarded _ hclosing => exact .inl hclosing
  | coalesced => exact h
  | reported | completed => exact Work.dealtWith_returned h
  | skips hunrendered hskip =>
      have hsession := (Work.unpublished_of_unrendered hpoint hunrendered).1
      rcases hskip with hnone | hclosing
      · rw [Option.isNone_iff_eq_none] at hnone
        rw [hnone] at hsession
        cases hsession
      · exact Work.dealtWith_returned (.inl hclosing)
  | superseded hrender hlatest =>
      have happlied : s.appliedRevision ≠ s.latestReceivedRevision := by
        rcases hrender with rfl | ⟨error, rfl⟩ <;> exact hpoint.2.1 ▸ hlatest
      refine Work.dealtWith_returned (hs.dealtWith_of_superseded ?_ ?_ happlied)
      · rw [hwork]
        rcases hrender with rfl | ⟨error, rfl⟩ <;> rfl
      · rw [hwork]
        rcases hrender with rfl | ⟨error, rfl⟩ <;> rfl
  | _ => trivial

/-- The result of the applied revision is sent. -/
theorem LiveSession.dealtWith_sendJson {message : TexpressoServerMessage} {awaiter : Awaiter}
    (h : message.Reports s.appliedRevision) : (s.sendJson message awaiter).DealtWith := by
  refine .inr (.inr ?_)
  intro _
  refine ⟨message, ?_, h⟩
  rw [LiveSession.wire_sendJson]
  exact List.mem_append_right _ (List.mem_singleton_self _)

/-- Where the work is says nothing about the revision. -/
theorem Work.DealtWith.work {work work' : Work} (h : work.DealtWith s) :
    work.DealtWith { s with work := work' } := by
  cases work with
  | idle | coalesced | compileError | complete => exact h
  | resume next =>
      cases next with
      | loop => exact h
      | done caller =>
          cases caller with
          | initializeSession => exact h
          | drainChanges => trivial
  | _ => trivial

theorem Advances.ne_idle {work work' : Work} (h : Advances s work work') : work' ≠ .idle := by
  rintro rfl
  cases h with
  | prepared _ hwork' => cases hwork'

/-- A method that is over has dealt with the revision, or the session is being closed. -/
theorem Coherent.dealtWith_of_resumes {next : Continuation} (hs : Coherent s)
    (h : s.work.DealtWith s) (hwork : s.work.Resumes next) : s.DealtWith := by
  have hpoint := hs.point
  rcases hwork with hwork | hwork
  · rw [hwork] at h hpoint
    cases next with
    | loop => exact h
    | done caller =>
        cases caller with
        | initializeSession => exact h
        | drainChanges => exact .inl hpoint
  · rw [hwork] at hpoint
    exact .inl hpoint

theorem Convergent.move (hs : Coherent s) (h : s.work.DealtWith s) (hm : Move intact s t) :
    Convergent t := by
  have hpoint := hs.point
  cases hm with
  | initializes | adopts | starts | continues | applies | rejects => exact ⟨nofun, trivial⟩
  | advances work ha => exact ⟨fun hidle => absurd hidle ha.ne_idle, (ha.dealtWith hs rfl h).work⟩
  | @fails caller error hcaller =>
      unfold LiveSession.workFailed
      split
      · next hclosing =>
          refine ⟨nofun, ?_⟩
          cases caller with
          | initializeSession => exact .inl hclosing
          | drainChanges => trivial
      · exact ⟨nofun, trivial⟩
  | rests hqueue hwork =>
      obtain ⟨next, hwork⟩ := hwork
      constructor
      · intro _
        rcases hqueue with hclosing | hqueue | hnone
        · exact hs.closed hclosing
        · exact hqueue
        · exact (hs.unset hnone).1
      · exact .inr (hs.dealtWith_of_resumes h hwork)
  | applied snapshot hwork =>
      unfold LiveSession.applied
      dsimp only
      split
      · exact ⟨nofun, trivial⟩
      · split
        · next hqueue => exact ⟨nofun, .inr (.inl hqueue)⟩
        · exact ⟨nofun, trivial⟩
  | @reports caller revision snapshot hwork =>
      refine ⟨nofun, LiveSession.dealtWith_sendJson ?_⟩
      show revision = s.appliedRevision
      cases hat : s.work with
      | snapshot =>
          rw [hat] at hwork hpoint
          cases hwork
          exact hpoint.2.1
      | notRendered =>
          rw [hat] at hwork hpoint
          cases hwork
          exact hpoint
      | _ => rw [hat] at hwork; cases hwork
  | publishes =>
      unfold LiveSession.publish
      rw [if_neg (by simp)]
      exact ⟨nofun, trivial⟩
  | sends hwork =>
      have hpublished := (Work.caller_of_unsent hwork).2.2.2 hpoint
      unfold LiveSession.sendFrom
      split
      · exact ⟨nofun, trivial⟩
      · exact ⟨nofun, LiveSession.dealtWith_sendJson hpublished.2.1⟩

theorem Convergent.stepped (h : Convergent s) (hs : Coherent s) (hstep : Stepped intact s t) :
    Convergent t := by
  obtain ⟨s', hi, ⟨rfl, hqueue⟩ | hm⟩ := hstep
  · refine ⟨?_, ?_⟩
    · intro hidle
      rw [hi.work] at hidle
      rcases hqueue with hqueue | hqueue | hinitializing | hprocessing
      · exact hqueue.trans (h.idle hidle)
      · exact hqueue
      · obtain ⟨revision, hcaller⟩ := hs.initializing.mp hinitializing
        rw [hidle] at hcaller
        cases hcaller
      · have hcaller := hs.processing.mp hprocessing
        rw [hidle] at hcaller
        cases hcaller
    · rw [hi.work]
      exact hi.work_dealtWith h.dealtWith
  · have hdealt : s'.work.DealtWith s' := by
      rw [hi.work]
      exact hi.work_dealtWith h.dealtWith
    exact .move (hs.interferes hi) hdealt hm

/-! ## Runs -/

theorem Convergent.init : Convergent LiveSession.new :=
  ⟨fun _ => rfl, .inl rfl⟩

theorem reachable_convergent {permitted : LiveSession → LiveEvent → Prop}
    (h : (liveSystem platform).Reachable permitted s) : Convergent s := by
  refine h.invariant Convergent.init ?_
  intro s event t hreach _ hs hstep
  have hcoherent := reachable_coherent hreach
  exact hs.stepped hcoherent (hcoherent.step_cases hstep)

/-- **Convergence.**  Whenever a session is initialized, not being closed and quiescent, the latest
revision it accepted is applied, and while the socket is open its result was sent.  A queued change
has somebody who works on it. -/
theorem LiveSession.converges {permitted : LiveSession → LiveEvent → Prop}
    (h : (liveSystem platform).Reachable permitted s) :
    (s.initialized = true → s.isClosing = false → s.Quiescent →
      s.appliedRevision = s.latestReceivedRevision ∧
        (s.readyState = .opened →
          ∃ message, .json message ∈ s.sent ∧ message.Reports s.latestReceivedRevision)) ∧
      (s.queue ≠ [] → s.processing = true ∨ s.initializing = true) := by
  have hs := reachable_coherent h
  have hconvergent := reachable_convergent h
  constructor
  · intro hinitialized hclosing hquiet
    have hidle := hs.idle hquiet.initializing hquiet.processing
    have happlied : s.latestReceivedRevision = s.appliedRevision := by
      have hmem := hs.latest hclosing (by rw [hidle]; rfl)
      rw [LiveSession.revisions, hidle, hquiet.queue] at hmem
      exact List.mem_singleton.mp hmem
    refine ⟨happlied.symm, ?_⟩
    intro hopen
    have hdealt := hconvergent.dealtWith
    rw [hidle] at hdealt
    rcases hdealt with hnone | hdealt
    · rw [hs.initialized, hnone] at hinitialized
      cases hinitialized
    · rcases hdealt with hclose | hqueue | hreported
      · rw [hclose] at hclosing
        cases hclosing
      · exact absurd hquiet.queue hqueue
      · obtain ⟨message, hmem, hreports⟩ := hreported hopen
        have hwire : s.wire = s.sent := by
          rw [LiveSession.wire, hquiet.outbound]
          exact List.append_nil _
        exact ⟨message, hwire ▸ hmem, happlied ▸ hreports⟩
  · intro hqueue
    cases hprocessing : s.processing with
    | true => exact .inl rfl
    | false =>
        cases hinitializing : s.initializing with
        | true => exact .inr rfl
        | false => exact absurd (hconvergent.idle (hs.idle hinitializing hprocessing)) hqueue

/-! ## A session over one file -/

namespace OneFileSession

/-- The peer goes away while the first revision is compiled: its frames are dropped. -/
def unheard : LiveSession :=
  after (startUp ++ [.peerCloses, .sendFrame, .snapshotTaken ⟨[], [], .success⟩] ++ rendering
    ++ [.sendFrame, .sendFrame, .sendFrame, .resume])

theorem quiescent_published : (after (startUp ++ publishing)).Quiescent :=
  ⟨rfl, rfl, rfl, rfl⟩

theorem quiescent_unheard : unheard.Quiescent :=
  ⟨rfl, rfl, rfl, rfl⟩

end OneFileSession

theorem LiveSession.converges_published :
    ∃ message, .json message ∈ (OneFileSession.after (OneFileSession.startUp
      ++ OneFileSession.publishing)).sent ∧ message.Reports 1 :=
  ((LiveSession.converges (OneFileSession.reachable_after _)).1 rfl rfl
    OneFileSession.quiescent_published).2 rfl

/-- The result is not sent to a peer that is gone. -/
theorem LiveSession.not_always_reported :
    ¬ ∀ s, (liveSystem .posix).Reachable (fun _ _ => True) s → s.initialized = true →
      s.isClosing = false → s.Quiescent →
        ∃ message, .json message ∈ s.sent ∧ message.Reports s.latestReceivedRevision := by
  intro h
  obtain ⟨message, hmem, _⟩ := h OneFileSession.unheard (OneFileSession.reachable_after _) rfl rfl
    OneFileSession.quiescent_unheard
  have hsent : OneFileSession.unheard.sent = [] := rfl
  rw [hsent] at hmem
  cases hmem

end Typr
