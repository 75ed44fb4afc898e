import TyprCompanion.LivePreview.Steps

/-!
# The revisions of a session

What the fields of a session say about each other, wherever its methods are suspended.

* `Work.AtPoint` — the assertion at each place where `initialize` or `drainChanges` waits.
* `Coherent` — the flags tell who works, the queue belongs to an open session, and the revisions
  applied, being applied and queued increase up to the latest received one.
* **`reachable_coherent`** — every run keeps a session coherent.
-/

namespace Typr

/-! ## Assertions -/

/-- The change taken off the queue and not applied yet. -/
def Work.taken : Work → List TexpressoChangeMessage
  | revisionStarted change | applyRangeChange change _ => [change]
  | _ => []

/-- The session is about to be closed. -/
def Work.isFailing : Work → Bool
  | invalidRange | sessionFailure _ | closing _ => true
  | _ => false

namespace LiveSession

/-- The revision applied last and those to be applied, in their order. -/
def revisions (s : LiveSession) : List Nat :=
  s.appliedRevision :: (s.work.taken ++ s.queue).map TexpressoChangeMessage.revision

/-- The revision was applied last, and only older ones were published. -/
def Unpublished (s : LiveSession) (revision : Nat) : Prop :=
  s.session.isSome = true ∧ revision = s.appliedRevision ∧
    ∀ good, s.lastGoodRevision = some good → good < revision

/-- The revision was applied last, and is the last one published. -/
def Published (s : LiveSession) (revision : Nat) : Prop :=
  s.session.isSome = true ∧ revision = s.appliedRevision ∧ s.lastGoodRevision = some revision

end LiveSession

/-- What holds where the work is. -/
def Work.AtPoint (s : LiveSession) : Work → Prop
  | mkdtemp _ | materialize _ _ _ _ | start _ => s.session = none
  | discard _ => s.session = none ∧ s.isClosing = true
  | sessionReady revision | snapshot revision => s.Unpublished revision
  | notRendered change _ => change.revision = s.appliedRevision
  | pending change => s.Unpublished change.revision
  | renderPage _ revision _ | pageCount _ revision _ _ => s.Unpublished revision
  | document _ revision _ | page _ revision _ _ => s.Published revision
  | closing _ | resume (.done .drainChanges) => s.isClosing = true
  | _ => True

/-- **The fields of a session fit together.** -/
structure Coherent (s : LiveSession) : Prop extends Flags s where
  initialized : s.initialized = s.session.isSome
  drains : s.processing = true → s.session.isSome = true
  unset : s.session = none → s.queue = [] ∧ s.lastGoodRevision = none
  closed : s.isClosing = true → s.queue = []
  increasing : s.revisions.Pairwise (· < ·)
  received : ∀ revision ∈ s.revisions, revision ≤ s.latestReceivedRevision
  latest : s.isClosing = false → s.work.isFailing = false →
    s.latestReceivedRevision ∈ s.revisions
  lastGood : ∀ good, s.lastGoodRevision = some good → good ≤ s.appliedRevision
  point : s.work.AtPoint s

variable {platform : Platform} {intact : Prop} {s t : LiveSession}

/-! ## Interference -/

/-- Assertions are stable under interference. -/
theorem Work.AtPoint.interferes {work : Work} (h : work.AtPoint s)
    (hsession : t.session = s.session) (happlied : t.appliedRevision = s.appliedRevision)
    (hgood : t.lastGoodRevision = s.lastGoodRevision)
    (hclosing : s.isClosing = true → t.isClosing = true) : work.AtPoint t := by
  have hunpublished {revision : Nat} (h : s.Unpublished revision) : t.Unpublished revision := by
    simpa only [LiveSession.Unpublished, hsession, happlied, hgood] using h
  have hpublished {revision : Nat} (h : s.Published revision) : t.Published revision := by
    simpa only [LiveSession.Published, hsession, happlied, hgood] using h
  cases work with
  | idle | revisionStarted | applyRangeChange | invalidRange | coalesced | compileError | complete
  | sessionFailure => trivial
  | mkdtemp | materialize | start => exact hsession.trans h
  | discard => exact ⟨hsession.trans h.1, hclosing h.2⟩
  | sessionReady | snapshot | pending | renderPage | pageCount => exact hunpublished h
  | document | page => exact hpublished h
  | notRendered => exact h.trans happlied.symm
  | closing => exact hclosing h
  | resume next =>
      cases next with
      | loop => trivial
      | done caller =>
          cases caller with
          | initializeSession => trivial
          | drainChanges => exact hclosing h

theorem Received.isClosing (h : Received s t) (hclosing : s.isClosing = true) :
    t.isClosing = true := by
  rcases h with h | ⟨_, hopen, _⟩ | h
  · exact h.1.trans hclosing
  · rw [hclosing] at hopen
    cases hopen
  · exact h.1

theorem Coherent.interferes (h : Coherent s) (hi : Interferes intact s t) : Coherent t := by
  have hclosing : s.isClosing = true → t.isClosing = true := hi.received.isClosing
  have hrevisions : t.revisions
      = t.appliedRevision :: (t.work.taken ++ t.queue).map TexpressoChangeMessage.revision := rfl
  rw [hi.work, hi.appliedRevision] at hrevisions
  -- what the queue may have become
  have hqueue : (t.session = none → t.queue = []) ∧
      (t.isClosing = true → t.queue = []) ∧ t.revisions.Pairwise (· < ·) ∧
      (∀ revision ∈ t.revisions, revision ≤ t.latestReceivedRevision) ∧
      (t.isClosing = false → t.work.isFailing = false →
        t.latestReceivedRevision ∈ t.revisions) := by
    rcases hi.received with ⟨hclose, hqueue, -, hlatest⟩ |
      ⟨message, hopen, hopen', hsome, hlt, hqueue, -, hlatest⟩ | ⟨hclose, hqueue, -, hlatest⟩
    · have hsame : t.revisions = s.revisions := by
        rw [hrevisions, hqueue]
        rfl
      rw [hsame, hclose, hqueue, hlatest, hi.session, hi.work]
      exact ⟨fun hnone => (h.unset hnone).1, h.closed, h.increasing, h.received, h.latest⟩
    · have hmore : t.revisions = s.revisions ++ [message.revision] := by
        rw [hrevisions, hqueue]
        simp [LiveSession.revisions]
      rw [hmore, hlatest]
      refine ⟨?_, ?_, ?_, ?_, ?_⟩
      · intro hnone
        rw [hi.session] at hnone
        rw [hnone] at hsome
        cases hsome
      · intro hclose
        rw [hopen'] at hclose
        cases hclose
      · rw [List.pairwise_append]
        refine ⟨h.increasing, List.pairwise_singleton .., ?_⟩
        intro revision hmem latest hlatest
        rw [List.mem_singleton] at hlatest
        rw [hlatest]
        exact Nat.lt_of_le_of_lt (h.received revision hmem) hlt
      · intro revision hmem
        rw [List.mem_append, List.mem_singleton] at hmem
        rcases hmem with hmem | rfl
        · exact Nat.le_of_lt (Nat.lt_of_le_of_lt (h.received revision hmem) hlt)
        · exact Nat.le_refl _
      · intro _ _
        exact List.mem_append_right _ (List.mem_singleton_self _)
    · have hfewer : t.revisions.Sublist s.revisions := by
        rw [hrevisions, hqueue, List.append_nil, LiveSession.revisions]
        exact (List.Sublist.map _ (List.sublist_append_left ..)).cons_cons _
      rw [hclose, hqueue, hlatest]
      refine ⟨fun _ => rfl, fun _ => rfl, h.increasing.sublist hfewer,
        fun revision hmem => h.received revision (hfewer.subset hmem), nofun⟩
  obtain ⟨hunset, hclosed, hincreasing, hreceived, hlatest⟩ := hqueue
  exact {
    initializing := by rw [hi.initializing, hi.work]; exact h.initializing
    processing := by rw [hi.processing, hi.work]; exact h.processing
    initialized := by rw [hi.initialized, hi.session]; exact h.initialized
    drains := by rw [hi.processing, hi.session]; exact h.drains
    unset := by
      intro hnone
      exact ⟨hunset hnone, hi.lastGoodRevision.trans (h.unset (hi.session ▸ hnone)).2⟩
    closed := hclosed
    increasing := hincreasing
    received := hreceived
    latest := hlatest
    lastGood := by rw [hi.lastGoodRevision, hi.appliedRevision]; exact h.lastGood
    point := by
      rw [hi.work]
      exact h.point.interferes hi.session hi.appliedRevision hi.lastGoodRevision hclosing }

/-! ## Moves -/

theorem Coherent.sendJson (h : Coherent s) (message : TexpressoServerMessage) (awaiter : Awaiter) :
    Coherent (s.sendJson message awaiter) :=
  { h with }

/-- The work goes on to another place. -/
theorem Coherent.work (h : Coherent s) (work : Work) (hcaller : work.caller = s.work.caller)
    (htaken : work.taken.Sublist s.work.taken)
    (hlatest : s.isClosing = false → work.isFailing = false →
      s.work.isFailing = false ∧ work.taken = s.work.taken)
    (hpoint : work.AtPoint s) : Coherent { s with work := work } := by
  have hfewer : LiveSession.revisions { s with work := work } |>.Sublist s.revisions :=
    (((htaken.append_right _).map _).cons_cons _)
  exact { h with
    initializing := by rw [hcaller]; exact h.initializing
    processing := by rw [hcaller]; exact h.processing
    increasing := h.increasing.sublist hfewer
    received := fun revision hmem => h.received revision (hfewer.subset hmem)
    latest := by
      intro hclosing hfailing
      obtain ⟨hbefore, hsame⟩ := hlatest hclosing hfailing
      have hmem := h.latest hclosing hbefore
      rw [LiveSession.revisions, ← hsame] at hmem
      exact hmem
    point := hpoint.interferes rfl rfl rfl id }

theorem Advances.caller {work work' : Work} (h : Advances s work work') :
    work'.caller = work.caller := by
  cases h with
  | prepared _ _ hcaller hcaller' => rw [hcaller, hcaller']
  | discarded | ready | coalesced | rendered | notRendered | rejected | failed => rfl
  | reported caller | completed caller => simp [Work.caller]
  | renders hwork =>
      cases work with
      | snapshot | pending => cases hwork; rfl
      | _ => cases hwork
  | skips hwork =>
      cases work with
      | snapshot | pending => cases hwork; rfl
      | _ => cases hwork
  | superseded hwork => rcases hwork with rfl | ⟨_, rfl⟩ <;> simp [Work.caller]

theorem Work.unpublished_of_unrendered {work : Work} {caller : Caller} {revision : Nat}
    (h : work.AtPoint s) (hwork : work.unrendered? = some (caller, revision)) :
    s.Unpublished revision := by
  cases work with
  | snapshot | pending => cases hwork; exact h
  | _ => cases hwork

theorem Work.atPoint_returned (caller : Caller) : (Work.resume caller.next).AtPoint s := by
  cases caller <;> trivial

theorem Advances.point {work work' : Work} (h : Advances s work work') (hpoint : work.AtPoint s) :
    work'.AtPoint s := by
  cases h with
  | prepared hwork hwork' _ _ hdiscard =>
      have hnone : s.session = none := by
        cases work with
        | mkdtemp | materialize | start => exact hpoint
        | discard => exact hpoint.1
        | _ => cases hwork
      cases work' with
      | mkdtemp | materialize | start => exact hnone
      | discard revision => exact ⟨hnone, hdiscard revision rfl⟩
      | _ => cases hwork'
  | discarded | coalesced => trivial
  | ready | rendered | notRendered => exact hpoint
  | reported | completed | skips | superseded => exact Work.atPoint_returned _
  | renders hwork => exact Work.unpublished_of_unrendered hpoint hwork
  | rejected hclosing | failed _ hclosing => exact hclosing

theorem Advances.taken {work work' : Work} (h : Advances s work work') :
    work.taken = [] ∧ work'.taken = [] := by
  cases h with
  | prepared hwork hwork' =>
      constructor
      · cases work <;> first | rfl | cases hwork
      · cases work' <;> first | rfl | cases hwork'
  | renders hwork | skips hwork =>
      refine ⟨?_, rfl⟩
      cases work <;> first | rfl | cases hwork
  | superseded hwork => rcases hwork with rfl | ⟨_, rfl⟩ <;> exact ⟨rfl, rfl⟩
  | _ => exact ⟨rfl, rfl⟩

theorem Advances.isFailing {work work' : Work} (h : Advances s work work')
    (hfailing : work'.isFailing = false) : work.isFailing = false := by
  cases h with
  | prepared hwork =>
      cases work <;> first | rfl | cases hwork
  | renders hwork | skips hwork =>
      cases work <;> first | rfl | cases hwork
  | superseded hwork => rcases hwork with rfl | ⟨_, rfl⟩ <;> rfl
  | rejected | failed => cases hfailing
  | _ => rfl

theorem Coherent.advances {work : Work} (h : Coherent s) (ha : Advances s s.work work) :
    Coherent { s with work := work } := by
  obtain ⟨htaken, htaken'⟩ := ha.taken
  refine h.work work ha.caller ?_ ?_ (ha.point h.point)
  · rw [htaken']
    exact List.nil_sublist _
  · intro _ hfailing
    exact ⟨ha.isFailing hfailing, by rw [htaken, htaken']⟩

theorem Coherent.workFailed {caller : Caller} (h : Coherent s) (error : JSString)
    (hcaller : s.work.caller = some caller) : Coherent (s.workFailed caller error) := by
  unfold LiveSession.workFailed
  split
  · next hclosing =>
      refine h.work _ hcaller.symm (List.nil_sublist _) ?_ ?_
      · intro hopen
        rw [hclosing] at hopen
        cases hopen
      · cases caller with
        | initializeSession => trivial
        | drainChanges => exact hclosing
  · exact Coherent.sendJson
      (h.work (.sessionFailure caller) hcaller.symm (List.nil_sublist _) (fun _ h => nomatch h) trivial) _ _

/-- `drainChanges` takes a change off the queue. -/
theorem Coherent.takeChange {change : TexpressoChangeMessage} {rest : List TexpressoChangeMessage}
    (h : Coherent s) (hqueue : s.queue = change :: rest) (hclosing : s.isClosing = false)
    (hsession : s.session.isSome = true) (htaken : s.work.taken = [])
    (hfailing : s.work.isFailing = false) :
    Coherent ({ s with initializing := false, processing := true }.takeChange change rest) := by
  have hsame : LiveSession.revisions
      ({ s with initializing := false, processing := true }.takeChange change rest)
        = s.revisions := by
    rw [LiveSession.revisions, LiveSession.revisions, htaken, hqueue]
    rfl
  exact { h with
    initializing := by
      refine ⟨nofun, ?_⟩
      rintro ⟨_, hcaller⟩
      cases hcaller
    processing := ⟨fun _ => rfl, fun _ => rfl⟩
    drains := fun _ => hsession
    unset := by
      intro hnone
      rw [show s.session = none from hnone] at hsession
      cases hsession
    closed := by
      intro hclose
      rw [show s.isClosing = true from hclose] at hclosing
      cases hclosing
    increasing := by
      rw [hsame]
      exact h.increasing
    received := by
      rw [hsame]
      exact h.received
    latest := by
      rw [hsame]
      exact fun _ _ => h.latest hclosing hfailing
    point := trivial }

theorem Work.Resumes.taken {next : Continuation} {work : Work} (h : work.Resumes next) :
    work.taken = [] := by
  rcases h with rfl | rfl <;> rfl

/-- Methods only go on working when the session is not being closed. -/
theorem Coherent.isFailing_of_resumes {next : Continuation} (h : Coherent s)
    (hwork : s.work.Resumes next) (hclosing : s.isClosing = false) :
    s.work.isFailing = false := by
  rcases hwork with hwork | hwork
  · rw [hwork]
    rfl
  · have hpoint := h.point
    rw [hwork] at hpoint
    rw [show s.isClosing = true from hpoint] at hclosing
    cases hclosing

/-- Nobody works while both flags are down. -/
theorem Coherent.idle (h : Coherent s) (hinitializing : s.initializing = false)
    (hprocessing : s.processing = false) : s.work = .idle := by
  cases hcaller : s.work.caller with
  | none => cases hwork : s.work <;> first | rfl | (rw [hwork] at hcaller; cases hcaller)
  | some caller =>
      cases caller with
      | initializeSession revision =>
          rw [h.initializing.mpr ⟨revision, hcaller⟩] at hinitializing
          cases hinitializing
      | drainChanges =>
          rw [h.processing.mpr hcaller] at hprocessing
          cases hprocessing

theorem Coherent.unset_of_fresh (h : Coherent s) (hinitialized : s.initialized = false) :
    s.session = none := by
  have hsession := h.initialized
  rw [hinitialized] at hsession
  simpa using hsession.symm

/-- Nobody works before a session is initialized. -/
theorem Coherent.idle_of_fresh (h : Coherent s) (hinitialized : s.initialized = false)
    (hinitializing : s.initializing = false) : s.work = .idle := by
  refine h.idle hinitializing ?_
  cases hprocessing : s.processing with
  | false => rfl
  | true =>
      have hsession := h.drains hprocessing
      rw [h.unset_of_fresh hinitialized] at hsession
      cases hsession

theorem Coherent.adopts {message : TexpressoInitializeMessage} (h : Coherent s)
    (session : NativeSession) (hwork : s.work = .start message) :
    Coherent (s.adopt message session) := by
  have hnone : s.session = none := by
    have hpoint := h.point
    rw [hwork] at hpoint
    exact hpoint
  obtain ⟨hqueue, hgood⟩ := h.unset hnone
  have hrevisions : (s.adopt message session).revisions = [message.revision] := by
    rw [LiveSession.revisions, show (s.adopt message session).queue = [] from hqueue]
    rfl
  have hinitializing : s.initializing = true :=
    h.initializing.mpr ⟨message.revision, by rw [hwork]; rfl⟩
  have hnoGood {P : Prop} {good : Nat} (hsome : s.lastGoodRevision = some good) : P := by
    rw [hgood] at hsome
    cases hsome
  exact { h with
    initializing := ⟨fun _ => ⟨_, rfl⟩, fun _ => hinitializing⟩
    processing := by
      constructor
      · intro hprocessing
        have hcaller := h.processing.mp hprocessing
        rw [hwork] at hcaller
        cases hcaller
      · intro hcaller
        cases hcaller
    initialized := rfl
    drains := fun _ => rfl
    unset := fun hnone => nomatch hnone
    increasing := by
      rw [hrevisions]
      exact List.pairwise_singleton ..
    received := by
      rw [hrevisions]
      intro revision hmem
      exact Nat.le_of_eq (List.mem_singleton.mp hmem)
    latest := by
      rw [hrevisions]
      intro _ _
      exact List.mem_singleton_self _
    lastGood := fun _ => hnoGood
    point := ⟨rfl, rfl, fun _ => hnoGood⟩ }

/-- The change being applied is the next revision. -/
theorem Coherent.lt_of_taken {change : TexpressoChangeMessage} (h : Coherent s)
    (htaken : s.work.taken = [change]) : s.appliedRevision < change.revision := by
  have hincreasing := h.increasing
  rw [LiveSession.revisions, htaken] at hincreasing
  exact List.rel_of_pairwise_cons hincreasing (List.mem_cons_self ..)

theorem Coherent.applied {change : TexpressoChangeMessage} (h : Coherent s)
    (snapshot : TexpressoSnapshot) (hwork : s.work = .applyRangeChange change (.ok ())) :
    Coherent (s.applied change (.ok snapshot)) := by
  have htaken : s.work.taken = [change] := by
    rw [hwork]
    rfl
  have hlt := h.lt_of_taken htaken
  have hcaller : s.work.caller = some .drainChanges := by
    rw [hwork]
    rfl
  have hsession : s.session.isSome = true := h.drains (h.processing.mpr hcaller)
  have hrevisions : s.revisions = s.appliedRevision
      :: change.revision :: s.queue.map TexpressoChangeMessage.revision := by
    rw [LiveSession.revisions, htaken]
    rfl
  have hincreasing := h.increasing
  have hreceived := h.received
  have hlatest := h.latest
  rw [hrevisions] at hincreasing hreceived hlatest
  -- the applied revision moves on to the change
  have htell {work : Work} (render : RevisionRender) (hdrain : work.caller = some .drainChanges)
      (hnone : work.taken = []) (hpoint : work.AtPoint (s.tellApplied change.revision render work)) :
      Coherent (s.tellApplied change.revision render work) := by
    have hnew : (s.tellApplied change.revision render work).revisions
        = change.revision :: s.queue.map TexpressoChangeMessage.revision := by
      rw [LiveSession.revisions, show (s.tellApplied change.revision render work).work.taken = []
        from hnone]
      rfl
    exact { h with
      initializing := by
        show s.initializing = true ↔ ∃ revision, work.caller = _
        rw [h.initializing, hcaller, hdrain]
      processing := by
        show s.processing = true ↔ work.caller = _
        rw [h.processing, hcaller, hdrain]
      increasing := by
        rw [hnew]
        exact hincreasing.of_cons
      received := by
        rw [hnew]
        exact fun revision hmem => hreceived revision (List.mem_cons_of_mem _ hmem)
      latest := by
        rw [hnew]
        intro hclosing _
        have hmem := hlatest hclosing (by rw [hwork]; rfl)
        rcases List.mem_cons.mp hmem with hfirst | hmem
        · -- the latest revision is not older than the change
          have hle := hreceived change.revision (by simp)
          omega
        · exact hmem
      lastGood := fun good hgood => Nat.le_of_lt (Nat.lt_of_le_of_lt (h.lastGood good hgood) hlt)
      point := hpoint }
  unfold LiveSession.applied
  dsimp only
  split
  · exact htell _ rfl rfl rfl
  · split
    · exact htell _ rfl rfl trivial
    · exact htell _ rfl rfl ⟨hsession, rfl, fun good hgood =>
        Nat.lt_of_le_of_lt (h.lastGood good hgood) hlt⟩

theorem Work.caller_of_unsent {work : Work} {caller : Caller} {revision index : Nat}
    {pages : List TexpressoRenderedPage}
    (hwork : work.unsent? = some (caller, revision, pages, index)) :
    work.caller = some caller ∧ work.taken = [] ∧ work.isFailing = false ∧
      (work.AtPoint s → s.Published revision) := by
  cases work with
  | document | page => cases hwork; exact ⟨rfl, rfl, rfl, id⟩
  | _ => cases hwork

theorem Work.caller_of_failed {work : Work} {caller : Caller} {revision : Nat}
    (hwork : work.failed? = some (caller, revision)) :
    work.caller = some caller ∧ work.taken = [] ∧ work.isFailing = false := by
  cases work with
  | snapshot | notRendered => cases hwork; exact ⟨rfl, rfl, rfl⟩
  | _ => cases hwork

theorem Coherent.move (h : Coherent s) (hm : Move intact s t) : Coherent t := by
  cases hm with
  | initializes message hclosing hinitialized hinitializing =>
      have hnone := h.unset_of_fresh hinitialized
      have hidle := h.idle_of_fresh hinitialized hinitializing
      exact { h with
        initializing := ⟨fun _ => ⟨_, rfl⟩, fun _ => rfl⟩
        processing := by
          show s.processing = true ↔ _
          rw [h.processing, hidle]
          exact ⟨nofun, nofun⟩
        increasing := by
          have hincreasing := h.increasing
          rw [LiveSession.revisions, hidle] at hincreasing
          exact hincreasing
        received := by
          have hreceived := h.received
          rw [LiveSession.revisions, hidle] at hreceived
          exact hreceived
        latest := by
          have hlatest := h.latest hclosing (by rw [hidle]; rfl)
          rw [LiveSession.revisions, hidle] at hlatest
          exact fun _ _ => hlatest
        point := hnone }
  | advances work ha => exact h.advances ha
  | fails error hcaller => exact h.workFailed error hcaller
  | adopts session hwork => exact (h.adopts session hwork).sendJson _ _
  | starts hqueue hclosing hsession hwork =>
      rcases hwork with ⟨hinitializing, hprocessing⟩ | ⟨caller, hwork⟩
      · have hidle := h.idle hinitializing hprocessing
        exact h.takeChange hqueue hclosing hsession (by rw [hidle]; rfl) (by rw [hidle]; rfl)
      · exact h.takeChange hqueue hclosing hsession hwork.taken
          (h.isFailing_of_resumes hwork hclosing)
  | continues hqueue hclosing hwork =>
      have hcaller : s.work.caller = some .drainChanges := by
        rcases hwork with hwork | hwork <;> rw [hwork] <;> rfl
      have hprocessing := h.processing.mpr hcaller
      have hinitializing : s.initializing = false := by
        rw [← Bool.not_eq_true, h.initializing, hcaller]
        simp
      have htake := h.takeChange hqueue hclosing (h.drains hprocessing) hwork.taken
        (h.isFailing_of_resumes hwork hclosing)
      rw [← hprocessing, ← hinitializing] at htake
      exact htake
  | rests hqueue hwork =>
      obtain ⟨next, hwork⟩ := hwork
      have hsame : s.atRest.revisions = s.revisions := by
        rw [LiveSession.revisions, LiveSession.revisions, hwork.taken]
        rfl
      exact { h with
        initializing := by
          refine ⟨nofun, ?_⟩
          rintro ⟨_, hcaller⟩
          cases hcaller
        processing := ⟨nofun, nofun⟩
        drains := nofun
        increasing := by
          rw [hsame]
          exact h.increasing
        received := by
          rw [hsame]
          exact h.received
        latest := by
          rw [hsame]
          exact fun hclosing _ => h.latest hclosing (h.isFailing_of_resumes hwork hclosing)
        point := trivial }
  | @applies change hwork =>
      have hcalled := h.work (.applyRangeChange change ((s.editOutcome change).map fun _ => ()))
        (by rw [hwork]; rfl) (by rw [hwork]; exact List.Sublist.refl _)
        (fun _ _ => by rw [hwork]; exact ⟨rfl, rfl⟩) trivial
      exact { hcalled with }
  | rejects error hwork =>
      refine Coherent.sendJson (h.work .invalidRange ?_ (List.nil_sublist _) nofun trivial) _ _
      rw [hwork]
      rfl
  | applied snapshot hwork => exact h.applied snapshot hwork
  | @reports caller revision snapshot hwork =>
      obtain ⟨hcaller, htaken, hfailing⟩ := Work.caller_of_failed hwork
      refine Coherent.sendJson (h.work (.compileError caller) hcaller.symm (List.nil_sublist _) ?_
        trivial) _ _
      exact fun _ _ => ⟨hfailing, htaken.symm⟩
  | @publishes caller pages error hwork hpages =>
      have hpoint := h.point
      rw [hwork] at hpoint
      obtain ⟨hsession, happlied, hfresh⟩ := hpoint
      have hdocument := h.work (.pageCount caller s.latestReceivedRevision pages error)
        (by rw [hwork]) (by rw [hwork])
        (fun _ _ => by rw [hwork]; exact ⟨rfl, rfl⟩) (hwork ▸ h.point)
      unfold LiveSession.publish
      rw [if_neg (by simp)]
      exact { hdocument with
        unset := by
          intro hnone
          rw [show s.session = none from hnone] at hsession
          cases hsession
        lastGood := by
          intro good hgood
          rw [← Option.some.inj hgood]
          exact Nat.le_of_eq happlied
        point := ⟨hsession, happlied, rfl⟩ }
  | @sends caller revision index pages hwork =>
      obtain ⟨hcaller, htaken, hfailing, hpublished⟩ := Work.caller_of_unsent (s := s) hwork
      unfold LiveSession.sendFrom
      split
      · have hpage := h.work (.page caller revision pages index) hcaller.symm (List.nil_sublist _)
          (fun _ _ => ⟨hfailing, htaken.symm⟩) (hpublished h.point)
        exact { hpage with }
      · exact Coherent.sendJson (h.work (.complete caller) hcaller.symm (List.nil_sublist _)
          (fun _ _ => ⟨hfailing, htaken.symm⟩) trivial) _ _

/-! ## Runs -/

theorem Coherent.init : Coherent LiveSession.new where
  initializing := ⟨nofun, nofun⟩
  processing := ⟨nofun, nofun⟩
  initialized := rfl
  drains := nofun
  unset := fun _ => ⟨rfl, rfl⟩
  closed := nofun
  increasing := List.pairwise_singleton ..
  received := by
    intro revision hmem
    exact Nat.le_of_eq (List.mem_singleton.mp hmem)
  latest := fun _ _ => List.mem_singleton_self _
  lastGood := nofun
  point := trivial

theorem Coherent.stepped (h : Coherent s) (hs : Stepped intact s t) : Coherent t := by
  obtain ⟨s', hi, ⟨rfl, _⟩ | hm⟩ := hs
  · exact h.interferes hi
  · exact (h.interferes hi).move hm

/-- A step of a coherent session. -/
theorem Coherent.step_cases {event : LiveEvent} (h : Coherent s)
    (hs : s.step platform event = some t) : Stepped (s.SendsComplete event) s t := by
  refine Typr.step_cases h.toFlags ?_ hs
  intro revision hwork
  have hpoint := h.point
  rw [hwork] at hpoint
  exact hpoint.2

/-- **Every session a run leads to is coherent.** -/
theorem reachable_coherent {permitted : LiveSession → LiveEvent → Prop}
    (h : (liveSystem platform).Reachable permitted s) : Coherent s := by
  refine h.invariant Coherent.init ?_
  intro s event t _ _ hs hstep
  exact hs.stepped (hs.step_cases hstep)

/-! ## A session over one file -/

namespace OneFileSession

/-- `main.tex` with the letter `a`, at revision 1 -/
def initializeFrame : ClientFrame :=
  .text (some (.object [
    (js "type", .string (js "initialize")),
    (js "protocolVersion", .number (.integer 1) (js "1")),
    (js "revision", .number (.integer 1) (js "1")),
    (js "mainFilePath", .string (js "main.tex")),
    (js "files", .array [.object [
      (js "path", .string (js "main.tex")),
      (js "kind", .string (js "text")),
      (js "content", .string (js "a"))]])]))

/-- Up to the native session. -/
def startUp : List LiveEvent :=
  [.frame initializeFrame, .mkdtempSettled (.ok ()), .materializeSettled (.ok ()),
    .materializeSettled (.ok ()), .startSettled (.ok ⟨.texpresso, 1⟩)]

/-- One page is rendered. -/
def rendering : List LiveEvent :=
  [.pageSettled (.ok ⟨1, 1, [0]⟩), .pageSettled (.error (js "no such page")),
    .pageCountSettled (.ok 1)]

/-- A frame is sent. -/
def sending : List LiveEvent := [.sendFrame, .sendSettled (.ok ())]

/-- The document is rendered and sent. -/
def publishing : List LiveEvent :=
  sending ++ [.snapshotTaken ⟨[], [], .success⟩] ++ rendering
    ++ (sending ++ sending ++ sending ++ sending) ++ [.resume]

/-- The session after these events. -/
def after (events : List LiveEvent) : LiveSession :=
  (liveSystem .posix).after (fun _ _ => true) events

theorem reachable_after (events : List LiveEvent) :
    (liveSystem .posix).Reachable (fun _ _ => True) (after events) :=
  Core.System.reachable_after (fun _ _ _ => trivial) events

end OneFileSession

end Typr
