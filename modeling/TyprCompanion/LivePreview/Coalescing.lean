import TyprCompanion.LivePreview.Revisions

/-!
# Coalescing

No accepted change is lost, repeated or reordered on its way to the native session.

* `Work.started`, `Work.willFail` — where the change taken last is.
* `Coalesces` — the changes handed over, the one being taken and the queue are the accepted changes,
  and the buffers are the reference edits of those handed over.
* `Faithful`, `Handles` — what this says about a session, and about one step.
* **`coalescing`** — both hold in every run, over both backends.
-/

namespace Typr

/-! ## The changes of a session -/

/-- The change taken off the queue and not handed over yet. -/
def Work.started : Work → List TexpressoChangeMessage
  | revisionStarted change => [change]
  | _ => []

/-- The change being applied is refused already. -/
def Work.isRefused : Work → Bool
  | applyRangeChange _ (.error _) => true
  | work => work.isFailing

namespace LiveSession

/-- The changes accepted up to a revision. -/
def acceptedUpTo (s : LiveSession) (revision : Nat) : List TexpressoChangeMessage :=
  s.accepted.filter fun change => change.revision ≤ revision

end LiveSession

/-- **The accepted changes are on their way**, in their order. -/
structure Coalesces (s : LiveSession) : Prop where
  unset : s.session = none → s.accepted = [] ∧ s.handed = []
  opens : s.opened.isSome = s.session.isSome
  increasing : (s.accepted.map TexpressoChangeMessage.revision).Pairwise (· < ·)
  opened : ∀ message, s.opened = some message →
    (∀ change ∈ s.accepted, message.revision < change.revision) ∧
      s.latestReceivedRevision
        = ((s.accepted.map TexpressoChangeMessage.revision).getLast?).getD message.revision ∧
      s.buffers = s.handed.foldl referenceChange (openBuffers message.files)
  inOrder : (s.handed ++ s.work.started) <+: s.accepted
  queued : s.isClosing = false → s.work.isRefused = false →
    s.accepted = s.handed ++ s.work.started ++ s.queue
  last : ∀ change, s.work = .applyRangeChange change (.ok ()) → s.handed.getLast? = some change

variable {platform : Platform} {intact : Prop} {s t : LiveSession}

/-! ## Applying a change -/

/-- Both backends perform the reference edit of a valid change, and refuse an invalid one. -/
theorem LiveSession.editOutcome_cases (change : TexpressoChangeMessage) (s : LiveSession) :
    (s.editOutcome change = .ok (referenceChange s.buffers change) ∧ s.nativeOpen = .ok ()) ∨
      ((∃ error, s.editOutcome change = .error error) ∧
        (s.nativeOpen = .ok () → referenceChange s.buffers change = s.buffers)) := by
  unfold LiveSession.editOutcome
  split
  · exact fullCompile_refines s.buffers change s.nativeOpen
  · exact texpresso_refines s.buffers change s.nativeOpen

/-- **The buffers after a change was handed over**: an open native session performs the reference
edit, a closed one nothing. -/
theorem LiveSession.callApplyRangeChange_cases (change : TexpressoChangeMessage) (s : LiveSession) :
    ((s.callApplyRangeChange change).handed = s.handed ++ [change] ∧
        (s.callApplyRangeChange change).buffers = referenceChange s.buffers change) ∨
      ((s.callApplyRangeChange change).handed = s.handed ∧
        (s.callApplyRangeChange change).buffers = s.buffers ∧
          ∃ error, (s.callApplyRangeChange change).work = .applyRangeChange change (.error error)) := by
  have hbuffers : (s.callApplyRangeChange change).buffers
      = (s.editOutcome change).toOption.getD s.buffers := rfl
  have hhanded : (s.callApplyRangeChange change).handed
      = if s.nativeOpen.isOk then s.handed ++ [change] else s.handed := rfl
  have hwork : (s.callApplyRangeChange change).work
      = .applyRangeChange change ((s.editOutcome change).map fun _ => ()) := rfl
  rw [hbuffers, hhanded, hwork]
  rcases s.editOutcome_cases change with ⟨hedit, hopen⟩ | ⟨⟨error, hedit⟩, hsame⟩
  · rw [hedit, hopen]
    exact .inl ⟨rfl, rfl⟩
  · rw [hedit]
    cases hopen : s.nativeOpen with
    | ok _ => exact .inl ⟨rfl, (hsame hopen).symm⟩
    | error _ => exact .inr ⟨rfl, rfl, error, rfl⟩

/-! ## Steps -/

theorem Coalesces.base_le (h : Coalesces s) {message : TexpressoInitializeMessage}
    (hopened : s.opened = some message) : message.revision ≤ s.latestReceivedRevision := by
  obtain ⟨hbase, hreceived, -⟩ := h.opened message hopened
  rw [hreceived]
  cases hlast : (s.accepted.map TexpressoChangeMessage.revision).getLast? with
  | none => exact Nat.le_refl _
  | some last =>
      obtain ⟨change, hmem, rfl⟩ := List.mem_map.mp (List.mem_of_getLast? hlast)
      exact Nat.le_of_lt (hbase change hmem)

theorem Coalesces.interferes (h : Coalesces s) (hi : Interferes intact s t) : Coalesces t := by
  have hstarted : t.work.started = s.work.started := by rw [hi.work]
  rcases hi.received with ⟨hclosing, hqueue, haccepted, hlatest⟩ |
    ⟨message, hopen, hopen', hsome, hlt, hqueue, haccepted, hlatest⟩ |
    ⟨hclosing, hqueue, haccepted, hlatest⟩
  · exact {
      unset := by
        rw [hi.session, haccepted, hi.handed]
        exact h.unset
      opens := by
        rw [hi.session, hi.opened]
        exact h.opens
      increasing := by
        rw [haccepted]
        exact h.increasing
      opened := by
        rw [hi.opened, haccepted, hlatest, hi.buffers, hi.handed]
        exact h.opened
      inOrder := by
        rw [hi.handed, hstarted, haccepted]
        exact h.inOrder
      queued := by
        rw [hclosing, hi.work, haccepted, hi.handed, hqueue]
        exact h.queued
      last := by
        rw [hi.work, hi.handed]
        exact h.last }
  · obtain ⟨first, hfirst⟩ := Option.isSome_iff_exists.mp (h.opens.trans hsome)
    obtain ⟨-, hreceived, -⟩ := h.opened first hfirst
    have hrevisions : t.accepted.map TexpressoChangeMessage.revision
        = s.accepted.map TexpressoChangeMessage.revision ++ [message.revision] := by
      rw [haccepted, List.map_append]
      rfl
    exact {
      unset := by
        intro hnone
        rw [← hi.session, hnone] at hsome
        cases hsome
      opens := by
        rw [hi.session, hi.opened]
        exact h.opens
      increasing := by
        rw [hrevisions]
        refine pairwise_concat h.increasing ?_
        intro last hlast
        rw [hlast] at hreceived
        rwa [hreceived] at hlt
      opened := by
        intro message' hmessage'
        rw [hi.opened] at hmessage'
        obtain ⟨hbase, hreceived', hbuffers⟩ := h.opened message' hmessage'
        refine ⟨?_, ?_, ?_⟩
        · intro change hmem
          rw [haccepted] at hmem
          rcases List.mem_append.mp hmem with hmem | hmem
          · exact hbase change hmem
          · rw [List.mem_singleton.mp hmem]
            exact Nat.lt_of_le_of_lt (h.base_le hmessage') hlt
        · rw [hlatest, hrevisions]
          simp
        · rw [hi.buffers, hi.handed]
          exact hbuffers
      inOrder := by
        rw [hi.handed, hstarted, haccepted]
        exact h.inOrder.trans (List.prefix_append ..)
      queued := by
        intro _ hrefused
        rw [hi.work] at hrefused
        rw [haccepted, h.queued hopen hrefused, hi.handed, hstarted, hqueue, List.append_assoc]
      last := by
        rw [hi.work, hi.handed]
        exact h.last }
  · exact {
      unset := by
        rw [hi.session, haccepted, hi.handed]
        exact h.unset
      opens := by
        rw [hi.session, hi.opened]
        exact h.opens
      increasing := by
        rw [haccepted]
        exact h.increasing
      opened := by
        rw [hi.opened, haccepted, hlatest, hi.buffers, hi.handed]
        exact h.opened
      inOrder := by
        rw [hi.handed, hstarted, haccepted]
        exact h.inOrder
      queued := by
        intro hopen
        rw [hclosing] at hopen
        cases hopen
      last := by
        rw [hi.work, hi.handed]
        exact h.last }

/-- The work goes on to another place. -/
theorem Coalesces.work (h : Coalesces s) (work : Work) (hstarted : work.started <+: s.work.started)
    (hqueued : s.isClosing = false → work.isRefused = false →
      s.work.isRefused = false ∧ work.started = s.work.started)
    (hlast : ∀ change, work ≠ .applyRangeChange change (.ok ())) :
    Coalesces { s with work := work } where
  unset := h.unset
  opens := h.opens
  increasing := h.increasing
  opened := h.opened
  inOrder := ((List.prefix_append_right_inj s.handed).mpr hstarted).trans h.inOrder
  queued := by
    intro hopen hrefused
    obtain ⟨hbefore, hsame⟩ := hqueued hopen hrefused
    show s.accepted = s.handed ++ work.started ++ s.queue
    rw [hsame]
    exact h.queued hopen hbefore
  last := fun change hwork => absurd hwork (hlast change)

/-- The work goes on to a place where no change is on its way. -/
theorem Coalesces.goesOn (h : Coalesces s) (work : Work) (hnone : s.work.started = [])
    (hnone' : work.started = [])
    (hrefused : s.isClosing = false → work.isRefused = false → s.work.isRefused = false)
    (hlast : ∀ change, work ≠ .applyRangeChange change (.ok ())) :
    Coalesces { s with work := work } := by
  refine h.work work ?_ ?_ hlast
  · rw [hnone']
    exact List.nil_prefix
  · intro hopen hwork
    exact ⟨hrefused hopen hwork, by rw [hnone, hnone']⟩

theorem Coalesces.sendJson (h : Coalesces s) (message : TexpressoServerMessage) (awaiter : Awaiter) :
    Coalesces (s.sendJson message awaiter) :=
  { h with }

theorem Advances.started {work work' : Work} (h : Advances s work work') :
    work.started = [] ∧ work'.started = [] ∧
      (work'.isRefused = false → work.isRefused = false) ∧
        ∀ change, work' ≠ .applyRangeChange change (.ok ()) := by
  cases h with
  | prepared hwork hwork' =>
      refine ⟨?_, ?_, ?_, ?_⟩
      · cases work <;> first | rfl | cases hwork
      · cases work' <;> first | rfl | cases hwork'
      · cases work <;> first | exact fun _ => rfl | cases hwork
      · rintro change rfl
        cases hwork'
  | renders hwork | skips hwork =>
      refine ⟨?_, rfl, ?_, nofun⟩
      · cases work <;> first | rfl | cases hwork
      · cases work <;> first | exact fun _ => rfl | cases hwork
  | superseded hwork =>
      rcases hwork with rfl | ⟨_, rfl⟩ <;> exact ⟨rfl, rfl, fun _ => rfl, nofun⟩
  | rejected | failed => exact ⟨rfl, rfl, nofun, nofun⟩
  | _ => exact ⟨rfl, rfl, fun _ => rfl, nofun⟩

/-- Where no change is on its way and the session is not about to be closed. -/
theorem Coherent.started_of_resumes {next : Continuation} (hs : Coherent s)
    (hwork : s.work.Resumes next) :
    s.work.started = [] ∧ (s.isClosing = false → s.work.isRefused = false) := by
  constructor
  · rcases hwork with hwork | hwork <;> rw [hwork] <;> rfl
  · intro hclosing
    have hfailing := hs.isFailing_of_resumes hwork hclosing
    rcases hwork with hwork | hwork
    · rw [hwork]
      rfl
    · rw [hwork] at hfailing
      cases hfailing

/-- `drainChanges` takes a change off the queue. -/
theorem Coalesces.takeChange {change : TexpressoChangeMessage} {rest : List TexpressoChangeMessage}
    {initializing processing : Bool} (h : Coalesces s) (hqueue : s.queue = change :: rest)
    (hclosing : s.isClosing = false) (hnone : s.work.started = [])
    (hrefused : s.work.isRefused = false) :
    Coalesces ({ s with initializing := initializing, processing := processing }.takeChange change
      rest) := by
  have haccepted : s.accepted = s.handed ++ [change] ++ rest := by
    rw [h.queued hclosing hrefused, hnone, hqueue]
    simp
  exact {
    unset := h.unset
    opens := h.opens
    increasing := h.increasing
    opened := h.opened
    inOrder := ⟨rest, haccepted.symm⟩
    queued := fun _ _ => haccepted
    last := nofun }

theorem Coalesces.adopts {message : TexpressoInitializeMessage} (hs : Coherent s) (h : Coalesces s)
    (session : NativeSession) (hwork : s.work = .start message) :
    Coalesces (s.adopt message session) := by
  have hnone : s.session = none := by
    have hpoint := hs.point
    rw [hwork] at hpoint
    exact hpoint
  obtain ⟨haccepted, hhanded⟩ := h.unset hnone
  have hqueue := (hs.unset hnone).1
  exact {
    unset := fun hnone => nomatch hnone
    opens := rfl
    increasing := h.increasing
    opened := by
      intro first hfirst
      cases hfirst
      show (∀ change ∈ s.accepted, message.revision < change.revision) ∧
        message.revision
          = ((s.accepted.map TexpressoChangeMessage.revision).getLast?).getD message.revision ∧
        openBuffers message.files = s.handed.foldl referenceChange (openBuffers message.files)
      rw [haccepted, hhanded]
      exact ⟨nofun, rfl, rfl⟩
    inOrder := by
      show (s.handed ++ []) <+: s.accepted
      rw [haccepted, hhanded]
      exact List.nil_prefix
    queued := by
      intro _ _
      show s.accepted = s.handed ++ [] ++ s.queue
      rw [haccepted, hhanded, hqueue]
      rfl
    last := nofun }

theorem Coalesces.applies {change : TexpressoChangeMessage} (h : Coalesces s)
    (hwork : s.work = .revisionStarted change) : Coalesces (s.callApplyRangeChange change) := by
  have hinOrder := h.inOrder
  have hqueued := h.queued
  rw [hwork] at hinOrder hqueued
  rcases s.callApplyRangeChange_cases change with ⟨hhanded, hbuffers⟩ | ⟨hhanded, hbuffers, error, hrefused⟩
  · exact {
      unset := by
        intro hnone
        -- a change is only taken with a session
        have haccepted := (h.unset hnone).1
        rw [haccepted] at hinOrder
        simpa [Work.started] using hinOrder.length_le
      opens := h.opens
      increasing := h.increasing
      opened := by
        intro message hmessage
        obtain ⟨hbase, hlatest, hbefore⟩ := h.opened message hmessage
        refine ⟨hbase, hlatest, ?_⟩
        rw [hbuffers, hhanded, List.foldl_append, ← hbefore]
        rfl
      inOrder := by
        rw [hhanded]
        show (s.handed ++ [change] ++ []) <+: s.accepted
        rw [List.append_nil]
        exact hinOrder
      queued := by
        intro hopen _
        rw [hhanded]
        show s.accepted = s.handed ++ [change] ++ [] ++ s.queue
        rw [List.append_nil]
        exact hqueued hopen rfl
      last := by
        intro change' hwork'
        obtain ⟨rfl, -⟩ : change = change' ∧ _ := by simpa [LiveSession.callApplyRangeChange] using hwork'
        rw [hhanded]
        simp }
  · exact {
      unset := by
        rw [hhanded]
        exact h.unset
      opens := h.opens
      increasing := h.increasing
      opened := by
        rw [hhanded, hbuffers]
        exact h.opened
      inOrder := by
        rw [hhanded, hrefused]
        exact ((List.prefix_append_right_inj s.handed).mpr List.nil_prefix).trans hinOrder
      queued := by
        intro _ hnot
        rw [hrefused] at hnot
        cases hnot
      last := by
        intro change' hwork'
        rw [hrefused] at hwork'
        cases hwork' }

theorem Coalesces.move (hs : Coherent s) (h : Coalesces s) (hm : Move intact s t) : Coalesces t := by
  cases hm with
  | initializes message hclosing hinitialized hinitializing =>
      have hidle := hs.idle_of_fresh hinitialized hinitializing
      exact { h.goesOn (.mkdtemp message) (by rw [hidle]; rfl) rfl (fun _ _ => by rw [hidle]; rfl)
        nofun with }
  | advances work ha =>
      obtain ⟨hnone, hnone', hrefused, hlast⟩ := ha.started
      exact h.goesOn work hnone hnone' (fun _ => hrefused) hlast
  | @fails caller error hcaller =>
      unfold LiveSession.workFailed
      split
      · next hclosing =>
          refine h.work _ List.nil_prefix ?_ nofun
          intro hopen
          rw [hclosing] at hopen
          cases hopen
      · exact Coalesces.sendJson
          (h.work (.sessionFailure caller) List.nil_prefix (fun _ h => nomatch h) nofun) _ _
  | adopts session hwork => exact (Coalesces.adopts hs h session hwork).sendJson _ _
  | starts hqueue hclosing hsession hwork =>
      rcases hwork with ⟨hinitializing, hprocessing⟩ | ⟨caller, hwork⟩
      · have hidle := hs.idle hinitializing hprocessing
        exact h.takeChange hqueue hclosing (by rw [hidle]; rfl) (by rw [hidle]; rfl)
      · obtain ⟨hnone, hrefused⟩ := hs.started_of_resumes hwork
        exact h.takeChange hqueue hclosing hnone (hrefused hclosing)
  | continues hqueue hclosing hwork =>
      obtain ⟨hnone, hrefused⟩ := hs.started_of_resumes hwork
      exact h.takeChange hqueue hclosing hnone (hrefused hclosing)
  | rests hqueue hwork =>
      obtain ⟨next, hwork⟩ := hwork
      obtain ⟨hnone, hrefused⟩ := hs.started_of_resumes hwork
      exact { h.goesOn .idle hnone rfl (fun hopen _ => hrefused hopen) nofun with }
  | applies hwork => exact h.applies hwork
  | rejects error hwork =>
      refine Coalesces.sendJson (h.work .invalidRange List.nil_prefix ?_ nofun) _ _
      intro _ hrefused
      cases hrefused
  | @applied change snapshot hwork =>
      have hgoesOn (work : Work) (hnone : work.started = [])
          (hlast : ∀ change, work ≠ .applyRangeChange change (.ok ())) :
          Coalesces { s with work := work } :=
        h.goesOn work (by rw [hwork]; rfl) hnone (fun _ _ => by rw [hwork]; rfl) hlast
      unfold LiveSession.applied
      dsimp only
      split
      · exact { hgoesOn (.notRendered change snapshot) rfl nofun with }
      · split
        · exact { hgoesOn .coalesced rfl nofun with }
        · exact { hgoesOn (.pending change) rfl nofun with }
  | @reports caller revision snapshot hwork =>
      refine Coalesces.sendJson (h.goesOn (.compileError caller) ?_ rfl ?_ nofun) _ _
      · cases hat : s.work <;> first | rfl | (rw [hat] at hwork; cases hwork)
      · intro _ _
        cases hat : s.work <;> first | rfl | (rw [hat] at hwork; cases hwork)
  | @publishes caller pages error hwork hpages =>
      unfold LiveSession.publish
      rw [if_neg (by simp)]
      exact { h.goesOn (.document caller s.latestReceivedRevision pages) (by rw [hwork]; rfl) rfl
        (fun _ _ => by rw [hwork]; rfl) nofun with }
  | @sends caller revision index pages hwork =>
      have hnone : s.work.started = [] := by
        cases hat : s.work <;> first | rfl | (rw [hat] at hwork; cases hwork)
      have hrefused : s.work.isRefused = false := by
        cases hat : s.work <;> first | rfl | (rw [hat] at hwork; cases hwork)
      unfold LiveSession.sendFrom
      split
      · exact { h.goesOn (.page caller revision pages index) hnone rfl (fun _ _ => hrefused) nofun with }
      · exact { h.goesOn (.complete caller) hnone rfl (fun _ _ => hrefused) nofun with }

/-! ## Runs -/

theorem Coalesces.init : Coalesces LiveSession.new where
  unset := fun _ => ⟨rfl, rfl⟩
  opens := rfl
  increasing := List.Pairwise.nil
  opened := nofun
  inOrder := List.nil_prefix
  queued := fun _ _ => rfl
  last := nofun

theorem Coalesces.stepped (h : Coalesces s) (hs : Coherent s) (hstep : Stepped intact s t) :
    Coalesces t := by
  obtain ⟨s', hi, ⟨rfl, _⟩ | hm⟩ := hstep
  · exact h.interferes hi
  · exact .move (hs.interferes hi) (h.interferes hi) hm

theorem reachable_coalesces {permitted : LiveSession → LiveEvent → Prop}
    (h : (liveSystem platform).Reachable permitted s) : Coalesces s := by
  refine h.invariant Coalesces.init ?_
  intro s event t hreach _ hs hstep
  have hcoherent := reachable_coherent hreach
  exact hs.stepped hcoherent (hcoherent.step_cases hstep)

/-- What holds of a session that was opened with a message: the accepted revisions increase, the
changes handed to the native session are a first part of the accepted ones, and the buffers are their
reference edits. -/
structure Faithful (message : TexpressoInitializeMessage) (s : LiveSession) : Prop where
  increasing : (message.revision :: s.accepted.map TexpressoChangeMessage.revision).Pairwise (· < ·)
  latest : s.latestReceivedRevision
    = ((s.accepted.map TexpressoChangeMessage.revision).getLast?).getD message.revision
  inOrder : s.handed <+: s.accepted
  buffers : s.buffers = s.handed.foldl referenceChange (openBuffers message.files)

/-- What a step does to the changes: when a revision was applied, exactly the changes up to it are in
the buffers; an invalid range changes no buffer; a frame changes no buffer, and is accepted only as a
newer change of an open file of an initialized session. -/
structure Handles (platform : Platform) (s : LiveSession) (event : LiveEvent) (t : LiveSession) :
    Prop where
  applied : t.appliedRevision ≠ s.appliedRevision → ∃ message, t.opened = some message ∧
    t.handed = t.acceptedUpTo t.appliedRevision ∧
    t.buffers = (t.acceptedUpTo t.appliedRevision).foldl referenceChange (openBuffers message.files)
  edits : (∃ message, s.work = .start message) ∨ t.buffers = s.buffers ∨
    ∃ change, s.work = .revisionStarted change ∧ t.buffers = referenceChange s.buffers change
  invalid : ∀ change text, s.work = .revisionStarted change →
    s.buffers (normalizePath change.path) = some text →
      referenceEdit text change.range change.text = none → t.buffers = s.buffers
  frames : ∀ frame, event = .frame frame → t.buffers = s.buffers ∧
    ((t.accepted = s.accepted ∧ t.latestReceivedRevision = s.latestReceivedRevision) ∨
      ∃ value change, frame = .text (some value) ∧
        validateTexpressoClientMessage platform value = .ok (.change change) ∧
        s.initialized = true ∧ s.latestReceivedRevision < change.revision ∧
        (s.buffers (normalizePath change.path)).isSome = true ∧
        t.accepted = s.accepted ++ [change] ∧ t.latestReceivedRevision = change.revision)

/-- An invalid range changes nothing. -/
theorem referenceChange_of_invalid {buffers : Buffers} {change : TexpressoChangeMessage}
    {text : JSString} (htext : buffers (normalizePath change.path) = some text)
    (hinvalid : referenceEdit text change.range change.text = none) :
    referenceChange buffers change = buffers := by
  rw [referenceChange, htext]
  simp only [hinvalid]

/-- The accepted changes up to the one handed over last. -/
theorem Coalesces.acceptedUpTo (h : Coalesces s) {change : TexpressoChangeMessage}
    (hlast : s.handed.getLast? = some change) : s.acceptedUpTo change.revision = s.handed := by
  obtain ⟨rest, hrest⟩ := h.inOrder
  obtain ⟨before, hbefore⟩ := List.getLast?_eq_some_iff.mp hlast
  have hincreasing : (s.accepted.map TexpressoChangeMessage.revision).Pairwise (· < ·) := h.increasing
  rw [← hrest, List.append_assoc, hbefore, List.append_assoc, List.pairwise_map,
    List.pairwise_append] at hincreasing
  obtain ⟨-, hafter, hacross⟩ := hincreasing
  rw [LiveSession.acceptedUpTo, ← hrest, List.append_assoc, List.filter_append, hbefore]
  have hkept : (before ++ [change]).filter (fun other => other.revision ≤ change.revision)
      = before ++ [change] := by
    rw [List.filter_eq_self]
    intro other hmem
    rcases List.mem_append.mp hmem with hmem | hmem
    · have hlt := hacross other hmem change (List.mem_append_left _ (List.mem_singleton_self _))
      simpa using Nat.le_of_lt hlt
    · rw [List.mem_singleton.mp hmem]
      simp
  have hdropped : (s.work.started ++ rest).filter
      (fun other => other.revision ≤ change.revision) = [] := by
    rw [List.filter_eq_nil_iff]
    intro other hmem
    have hlt := List.rel_of_pairwise_cons hafter hmem
    simpa using hlt
  rw [hkept, hdropped, List.append_nil]

/-- **A revision that was applied** is in the buffers, with every accepted change before it. -/
theorem Coalesces.applied_move (hs : Coherent s) (h : Coalesces s) (hm : Move intact s t)
    (happlied : t.appliedRevision ≠ s.appliedRevision) :
    t.session.isSome = true ∧ t.handed = t.acceptedUpTo t.appliedRevision := by
  cases hm with
  | initializes | starts | continues | rests | applies | rejects | reports | advances =>
      exact absurd rfl happlied
  | fails =>
      refine absurd ?_ happlied
      unfold LiveSession.workFailed
      split <;> rfl
  | @adopts message session hwork =>
      have hnone : s.session = none := by
        have hpoint := hs.point
        rw [hwork] at hpoint
        exact hpoint
      obtain ⟨haccepted, hhanded⟩ := h.unset hnone
      refine ⟨rfl, ?_⟩
      show s.handed = s.accepted.filter _
      rw [haccepted, hhanded]
      rfl
  | @applied change snapshot hwork =>
      have hupTo := h.acceptedUpTo (h.last change hwork)
      have hsession := hs.drains (hs.processing.mpr (by rw [hwork]; rfl))
      unfold LiveSession.applied
      dsimp only
      split
      · exact ⟨hsession, hupTo.symm⟩
      · split
        · exact ⟨hsession, hupTo.symm⟩
        · exact ⟨hsession, hupTo.symm⟩
  | publishes =>
      refine absurd ?_ happlied
      unfold LiveSession.publish
      rw [if_neg (by simp)]
      rfl
  | sends =>
      refine absurd ?_ happlied
      unfold LiveSession.sendFrom
      split <;> rfl

/-- The buffers change by the reference edit of the change being applied only. -/
theorem Move.edits (hm : Move intact s t) : (∃ message, s.work = .start message) ∨
    t.buffers = s.buffers ∨
      ∃ change, s.work = .revisionStarted change ∧ t.buffers = referenceChange s.buffers change := by
  cases hm with
  | @adopts message session hwork => exact .inl ⟨message, hwork⟩
  | initializes | starts | continues | rests | rejects | reports | advances => exact .inr (.inl rfl)
  | fails =>
      refine .inr (.inl ?_)
      unfold LiveSession.workFailed
      split <;> rfl
  | @applies change hwork =>
      refine .inr ?_
      rcases s.callApplyRangeChange_cases change with ⟨_, hbuffers⟩ | ⟨_, hbuffers, _⟩
      · exact .inr ⟨change, hwork, hbuffers⟩
      · exact .inl hbuffers
  | applied =>
      refine .inr (.inl ?_)
      unfold LiveSession.applied
      dsimp only
      split
      · rfl
      · split <;> rfl
  | publishes =>
      refine .inr (.inl ?_)
      unfold LiveSession.publish
      rw [if_neg (by simp)]
      rfl
  | sends =>
      refine .inr (.inl ?_)
      unfold LiveSession.sendFrom
      split <;> rfl

/-! ## Frames -/

/-- The changes received are as they were. -/
def LiveSession.SameChanges (s t : LiveSession) : Prop :=
  t.buffers = s.buffers ∧ t.accepted = s.accepted ∧
    t.latestReceivedRevision = s.latestReceivedRevision

theorem LiveSession.sameChanges_close (reason : LiveSessionCloseReason) (notifyClient : Bool)
    (s : LiveSession) : s.SameChanges (s.close reason notifyClient) := by
  unfold LiveSession.close
  split
  · exact ⟨rfl, rfl, rfl⟩
  · split
    · exact ⟨rfl, rfl, rfl⟩
    · exact ⟨rfl, rfl, rfl⟩

theorem LiveSession.sameChanges_drainChanges (s : LiveSession) :
    s.SameChanges s.drainChanges := by
  unfold LiveSession.drainChanges
  split
  · exact ⟨rfl, rfl, rfl⟩
  · split
    · exact ⟨rfl, rfl, rfl⟩
    · exact ⟨rfl, rfl, rfl⟩

/-- `enqueueChange` accepts newer changes of open files of an initialized session. -/
theorem LiveSession.enqueueChange_cases (message : TexpressoChangeMessage) (s : LiveSession) :
    s.SameChanges (s.enqueueChange message) ∨
      (s.initialized = true ∧ s.latestReceivedRevision < message.revision ∧
        (s.buffers (normalizePath message.path)).isSome = true ∧
        (s.accept message).SameChanges (s.enqueueChange message)) := by
  unfold LiveSession.enqueueChange
  split
  · exact .inl ⟨rfl, rfl, rfl⟩
  · next hready =>
      split
      · exact .inl ⟨rfl, rfl, rfl⟩
      · next hlatest =>
          split
          · exact .inl ⟨rfl, rfl, rfl⟩
          · split
            · exact .inl ⟨rfl, rfl, rfl⟩
            · next hfile =>
                have hinitialized : s.initialized = true := by
                  simp only [not_or, Bool.not_eq_false] at hready
                  exact hready.1
                refine .inr ⟨hinitialized, Nat.lt_of_not_le hlatest, by simpa [Option.isSome_iff_ne_none] using hfile, ?_⟩
                split
                · exact ⟨rfl, rfl, rfl⟩
                · exact LiveSession.sameChanges_drainChanges _

theorem LiveSession.handleFrame_changes (frame : ClientFrame) (s : LiveSession) :
    (s.handleFrame platform frame).buffers = s.buffers ∧
      (((s.handleFrame platform frame).accepted = s.accepted ∧
          (s.handleFrame platform frame).latestReceivedRevision = s.latestReceivedRevision) ∨
        ∃ value change, frame = .text (some value) ∧
          validateTexpressoClientMessage platform value = .ok (.change change) ∧
          s.initialized = true ∧ s.latestReceivedRevision < change.revision ∧
          (s.buffers (normalizePath change.path)).isSome = true ∧
          (s.handleFrame platform frame).accepted = s.accepted ++ [change] ∧
          (s.handleFrame platform frame).latestReceivedRevision = change.revision) := by
  unfold LiveSession.handleFrame
  split
  · exact ⟨rfl, .inl ⟨rfl, rfl⟩⟩
  · split
    · exact ⟨rfl, .inl ⟨rfl, rfl⟩⟩
    · exact ⟨rfl, .inl ⟨rfl, rfl⟩⟩
    · next value =>
        split
        · exact ⟨rfl, .inl ⟨rfl, rfl⟩⟩
        · obtain ⟨hbuffers, hsame⟩ := s.sameChanges_close .clientShutdown true
          exact ⟨hbuffers, .inl hsame⟩
        · split
          · exact ⟨rfl, .inl ⟨rfl, rfl⟩⟩
          · exact ⟨rfl, .inl ⟨rfl, rfl⟩⟩
        · next change hvalid =>
            rcases s.enqueueChange_cases change with
              ⟨hbuffers, hsame⟩ | ⟨hinitialized, hlt, hfile, hbuffers, haccepted, hlatest⟩
            · exact ⟨hbuffers, .inl hsame⟩
            · exact ⟨hbuffers, .inr ⟨value, change, rfl, hvalid, hinitialized, hlt, hfile, haccepted,
                hlatest⟩⟩

/-! ## Coalescing -/

theorem Coalesces.faithful (h : Coalesces s) {message : TexpressoInitializeMessage}
    (hopened : s.opened = some message) : Faithful message s := by
  obtain ⟨hbase, hlatest, hbuffers⟩ := h.opened message hopened
  exact {
    increasing := by
      refine List.Pairwise.cons ?_ h.increasing
      intro revision hmem
      obtain ⟨change, hchange, rfl⟩ := List.mem_map.mp hmem
      exact hbase change hchange
    latest := hlatest
    inOrder := (List.prefix_append ..).trans h.inOrder
    buffers := hbuffers }

theorem Coalesces.handles {event : LiveEvent} (hs : Coherent s) (h : Coalesces s)
    (hstep : s.step platform event = some t) : Handles platform s event t := by
  have hstepped := hs.step_cases hstep
  have ht := h.stepped hs hstepped
  obtain ⟨s', hi, hcases⟩ := hstepped
  have hedits : (∃ message, s.work = .start message) ∨ t.buffers = s.buffers ∨
      ∃ change, s.work = .revisionStarted change ∧ t.buffers = referenceChange s.buffers change := by
    rcases hcases with ⟨rfl, _⟩ | hm
    · exact .inr (.inl hi.buffers)
    · rw [← hi.buffers, ← hi.work]
      exact hm.edits
  exact {
    applied := by
      intro happlied
      obtain ⟨hsession, hhanded⟩ :
          t.session.isSome = true ∧ t.handed = t.acceptedUpTo t.appliedRevision := by
        rcases hcases with ⟨rfl, _⟩ | hm
        · exact absurd hi.appliedRevision happlied
        · rw [← hi.appliedRevision] at happlied
          exact Coalesces.applied_move (hs.interferes hi) (h.interferes hi) hm happlied
      obtain ⟨message, hopened⟩ := Option.isSome_iff_exists.mp (ht.opens.trans hsession)
      refine ⟨message, hopened, hhanded, ?_⟩
      rw [← hhanded]
      exact (ht.faithful hopened).buffers
    edits := hedits
    invalid := by
      intro change text hwork htext hinvalid
      rcases hedits with ⟨message, hstart⟩ | hsame | ⟨change', hwork', hbuffers⟩
      · rw [hwork] at hstart
        cases hstart
      · exact hsame
      · rw [hwork] at hwork'
        cases hwork'
        rw [hbuffers, referenceChange_of_invalid htext hinvalid]
    frames := by
      rintro frame rfl
      have hframe : (if s.readyState = .closed then none
          else some ({ s with idleTimer := true }.handleFrame platform frame)) = some t := hstep
      split at hframe
      · cases hframe
      · obtain rfl := Option.some.inj hframe
        exact LiveSession.handleFrame_changes frame { s with idleTimer := true } }

/-- **Coalescing never loses, repeats or reorders an edit**, whatever the order in which changes
arrive and over either backend. -/
theorem LiveSession.coalescing {permitted : LiveSession → LiveEvent → Prop}
    (h : (liveSystem platform).Reachable permitted s) :
    (∀ message, s.opened = some message → Faithful message s) ∧
      ∀ event t, s.step platform event = some t → Handles platform s event t := by
  have hs := reachable_coherent h
  have hcoalesces := reachable_coalesces h
  exact ⟨fun _ hopened => hcoalesces.faithful hopened, fun _ _ hstep => hcoalesces.handles hs hstep⟩

/-! ## An edit of one file -/

namespace OneFileSession

/-- `b` is put before the letter, at revision 2 -/
def changeFrame : ClientFrame :=
  .text (some (.object [
    (js "type", .string (js "change")),
    (js "revision", .number (.integer 2) (js "2")),
    (js "path", .string (js "main.tex")),
    (js "text", .string (js "b")),
    (js "range", .object [
      (js "start", .object [(js "line", .number (.integer 0) (js "0")),
        (js "character", .number (.integer 0) (js "0"))]),
      (js "end", .object [(js "line", .number (.integer 0) (js "0")),
        (js "character", .number (.integer 0) (js "0"))])])]))

/-- The change arrives while the first revision is published, and is handed over. -/
def editing : List LiveEvent :=
  sending ++ [.frame changeFrame, .snapshotTaken ⟨[], [], .success⟩] ++ rendering.take 1
    ++ [.resume] ++ sending

end OneFileSession

theorem LiveSession.coalescing_edit : ∃ message,
    (OneFileSession.after (OneFileSession.startUp ++ OneFileSession.editing)).opened = some message ∧
      Faithful message (OneFileSession.after (OneFileSession.startUp ++ OneFileSession.editing)) :=
  ⟨_, rfl, (LiveSession.coalescing (OneFileSession.reachable_after
    (OneFileSession.startUp ++ OneFileSession.editing))).1 _ rfl⟩

example : (OneFileSession.after (OneFileSession.startUp ++ OneFileSession.editing)).buffers
    (js "main.tex") = some (js "ba") := by
  rfl

end Typr
