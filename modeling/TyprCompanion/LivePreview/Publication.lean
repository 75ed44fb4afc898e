import TyprCompanion.LivePreview.PublicationProtocol
import TyprCompanion.LivePreview.Revisions

/-!
# Publication

A session follows the publication protocol.

* `Work.phase` — how much of a document is on the wire where the work is.
* `Publishes` — the automaton accepts the frames sent and, while the socket is open, the frames
  queued after them.
* **`publication_protocol`** — the frames of a session follow the protocol.
-/

namespace Typr

/-! ## What is on the wire -/

/-- How much of a document is on the wire. -/
def Work.phase : Work → PublicationPhase
  | document _ revision pages => .pages revision pages.length 0
  | page _ revision pages index => .pages revision pages.length (index + 1)
  | _ => .between

/-- The pages rendered so far. -/
def Work.pages : Work → List TexpressoRenderedPage
  | renderPage _ _ pages | pageCount _ _ pages _ | document _ _ pages | page _ _ pages _ => pages
  | _ => []

/-- Pages are numbered in their order. -/
def Numbered (pages : List TexpressoRenderedPage) : Prop :=
  ∀ (index : Nat) (page : TexpressoRenderedPage), pages[index]? = some page → page.page = index

/-- The revision completed last, as the session knows it; it is behind while a document is sent. -/
def LiveSession.LastCompleted (s : LiveSession) (last : Option Nat) : Prop :=
  match s.work.unsent? with
  | none => last = s.lastGoodRevision
  | some (_, revision, pages, index) => index ≤ pages.length ∧ ∀ before ∈ last, before < revision

/-- **The frames of a session are accepted.** -/
structure Publishes (s : LiveSession) : Prop where
  sent : ∃ p, Publication.start.read s.sent = some p
  wire : s.readyState = .opened → ∃ last,
    Publication.start.read s.wire = some ⟨s.session.isSome, last, s.work.phase⟩ ∧
      s.LastCompleted last
  numbered : Numbered s.work.pages
  farewell : s.Farewell

variable {platform : Platform} {intact : Prop} {s t : LiveSession}

theorem Work.phase_ne_image (work : Work) (revision pageCount sent : Nat)
    (descriptor : TexpressoPageDescriptor) :
    work.phase ≠ .image revision pageCount sent descriptor := by
  cases work <;> nofun

theorem Work.phase_of_unsent {work : Work} (h : work.unsent? = none) : work.phase = .between := by
  cases work <;> first | rfl | cases h

theorem LiveSession.lastCompleted_of_unsent {last : Option Nat} (h : s.work.unsent? = none) :
    s.LastCompleted last ↔ last = s.lastGoodRevision := by
  rw [LiveSession.LastCompleted, h]

/-- What was sent is accepted when the whole wire is. -/
theorem LiveSession.sent_accepted {p : Publication} (h : Publication.start.read s.wire = some p) :
    ∃ q, Publication.start.read s.sent = some q := by
  rw [LiveSession.wire, Publication.read_append] at h
  obtain ⟨q, hq, _⟩ := Option.bind_eq_some_iff.mp h
  exact ⟨q, hq⟩

/-! ## Steps -/

theorem Publishes.interferes (h : Publishes s) (hi : Interferes intact s t) (hintact : intact) :
    Publishes t := by
  have hwire : t.readyState = .opened → ∃ last,
      Publication.start.read t.wire = some ⟨t.session.isSome, last, t.work.phase⟩ ∧
        t.LastCompleted last := by
    intro hopen
    obtain ⟨last, hread, hlast⟩ := h.wire (hi.readyState hopen)
    obtain ⟨notices, hnotices, hwire⟩ := hi.wire hopen hintact
    refine ⟨last, ?_, ?_⟩
    · rw [hwire, Publication.read_append, hread, hi.session, hi.work]
      exact Publication.read_notices hnotices (Work.phase_ne_image _)
    · rw [LiveSession.LastCompleted, hi.work, hi.lastGoodRevision]
      exact hlast
  exact {
    sent := by
      rcases hi.sent with hsent | hopen
      · rw [hsent]
        exact h.sent
      · obtain ⟨last, hread, _⟩ := hwire hopen
        exact LiveSession.sent_accepted hread
    wire := hwire
    numbered := by
      rw [hi.work]
      exact h.numbered
    farewell := hi.farewell h.farewell }

/-- A move that puts messages on the wire. -/
theorem Publishes.sends (h : Publishes s) (frames : List Frame) (hsent : t.sent = s.sent)
    (hready : t.readyState = s.readyState) (hwire : t.wire = s.wire ++ frames)
    (hread : s.readyState = .opened → ∀ last, s.LastCompleted last →
      ∃ last', (Publication.mk s.session.isSome last s.work.phase).read frames
          = some ⟨t.session.isSome, last', t.work.phase⟩ ∧ t.LastCompleted last')
    (hnumbered : Numbered t.work.pages) (hfarewell : t.Farewell) : Publishes t where
  sent := by
    rw [hsent]
    exact h.sent
  wire := by
    intro hopen
    rw [hready] at hopen
    obtain ⟨last, hbefore, hlast⟩ := h.wire hopen
    obtain ⟨last', hframes, hlast'⟩ := hread hopen last hlast
    exact ⟨last', by rw [hwire, Publication.read_append, hbefore]; exact hframes, hlast'⟩
  numbered := hnumbered
  farewell := hfarewell

/-- A move that sends one message, and no document is being sent before or after it. -/
theorem Publishes.sendsMessage (h : Publishes s) {message : TexpressoServerMessage}
    (hsent : t.sent = s.sent) (hready : t.readyState = s.readyState)
    (hwire : t.wire = s.wire ++ [.json message]) (hgood : t.lastGoodRevision = s.lastGoodRevision)
    (hunsent : s.readyState = .opened → s.work.unsent? = none) (hunsent' : t.work.unsent? = none)
    (hpages : t.work.pages = []) (hfarewell : t.Farewell)
    (hnext : (Publication.mk s.session.isSome s.lastGoodRevision .between).nextMessage message
      = some ⟨t.session.isSome, s.lastGoodRevision, .between⟩) : Publishes t := by
  refine h.sends [.json message] hsent hready hwire ?_ ?_ hfarewell
  · intro hopen last hlast
    have hnone := hunsent hopen
    rw [LiveSession.lastCompleted_of_unsent hnone] at hlast
    refine ⟨s.lastGoodRevision, ?_, ?_⟩
    · rw [hlast, Work.phase_of_unsent hnone, Work.phase_of_unsent hunsent',
        Publication.read_singleton]
      exact hnext
    · rw [LiveSession.lastCompleted_of_unsent hunsent']
      exact hgood.symm
  · rw [hpages]
    intro index page hpage
    simp at hpage

theorem Advances.unsent {work work' : Work} (h : Advances s work work') :
    work.unsent? = none ∧ work'.unsent? = none := by
  cases h with
  | prepared hwork hwork' =>
      constructor
      · cases work <;> first | rfl | cases hwork
      · cases work' <;> first | rfl | cases hwork'
  | renders hwork | skips hwork =>
      refine ⟨?_, rfl⟩
      cases work <;> first | rfl | cases hwork
  | superseded hwork => rcases hwork with rfl | ⟨_, rfl⟩ <;> exact ⟨rfl, rfl⟩
  | _ => exact ⟨rfl, rfl⟩

theorem Numbered.nil : Numbered [] := by
  intro index page hpage
  simp at hpage

theorem Numbered.addPage {pages pages' : List TexpressoRenderedPage} {image : PageImage} {dpi : Nat}
    (h : Numbered pages) (hpages : LiveSession.addPage pages image dpi = .ok pages') :
    Numbered pages' := by
  unfold LiveSession.addPage at hpages
  split at hpages
  · cases hpages
  · split at hpages
    · cases hpages
    · obtain rfl := Except.ok.inj hpages
      intro index page hpage
      rcases Nat.lt_or_ge index pages.length with hlt | hge
      · rw [List.getElem?_append_left hlt] at hpage
        exact h index page hpage
      · rw [List.getElem?_append_right hge] at hpage
        have hlast : index - pages.length = 0 := by
          by_contra hne
          obtain ⟨k, hk⟩ := Nat.exists_eq_succ_of_ne_zero hne
          rw [hk] at hpage
          simp at hpage
        rw [hlast] at hpage
        obtain rfl := Option.some.inj hpage
        show pages.length = index
        omega

theorem Advances.numbered {work work' : Work} (h : Advances s work work')
    (hnumbered : Numbered work.pages) : Numbered work'.pages := by
  cases h with
  | prepared _ hwork' => cases work' <;> first | exact Numbered.nil | cases hwork'
  | rendered _ _ hpages => exact hnumbered.addPage hpages
  | notRendered => exact hnumbered
  | renders => exact Numbered.nil
  | _ => exact Numbered.nil

/-- Work that may throw is not sending a document. -/
theorem Work.unsent_of_mayThrow {work : Work} (h : work.mayThrow = true) : work.unsent? = none := by
  cases work <;> first | rfl | cases h

theorem Work.unsent_of_resumes {work : Work} {next : Continuation} (h : work.Resumes next) :
    work.unsent? = none := by
  rcases h with rfl | rfl <;> rfl

theorem Work.unsent_of_failed {work : Work} {caller : Caller} {revision : Nat}
    (h : work.failed? = some (caller, revision)) : work.unsent? = none := by
  cases work <;> first | rfl | cases h

/-- Nothing is put on the wire. -/
theorem Publishes.silent (h : Publishes s) (work : Work) (hunsent : s.work.unsent? = none)
    (hunsent' : work.unsent? = none) (hnumbered : Numbered work.pages) :
    Publishes { s with work := work } := by
  refine h.sends [] rfl rfl (by simp [LiveSession.wire]) ?_ hnumbered h.farewell
  intro _ last hlast
  rw [LiveSession.lastCompleted_of_unsent hunsent] at hlast
  refine ⟨last, ?_, ?_⟩
  · show some _ = some (Publication.mk s.session.isSome last work.phase)
    rw [Work.phase_of_unsent hunsent, Work.phase_of_unsent hunsent']
  · rw [LiveSession.lastCompleted_of_unsent hunsent']
    exact hlast

/-- `drainChanges` takes a change off the queue. -/
theorem Publishes.takeChange {change : TexpressoChangeMessage} {rest : List TexpressoChangeMessage}
    {processing : Bool} {initializing : Bool} (h : Publishes s) (hsession : s.session.isSome = true)
    (hunsent : s.work.unsent? = none) :
    Publishes ({ s with initializing := initializing, processing := processing }.takeChange change
      rest) := by
  refine h.sendsMessage rfl rfl (LiveSession.wire_sendJson ..) rfl (fun _ => hunsent) rfl rfl
    (h.farewell.sendJson (by simp)) ?_
  show (Publication.mk s.session.isSome _ _).nextMessage _ = some ⟨s.session.isSome, _, _⟩
  rw [hsession]
  rfl

theorem Publishes.workFailed {caller : Caller} (h : Publishes s) (error : JSString)
    (hunsent : s.readyState = .opened → s.work.unsent? = none) :
    Publishes (s.workFailed caller error) := by
  have hclosed (work : Work) (hopen : s.readyState ≠ .opened) (hpages : work.pages = []) :
      Publishes { s with work := work } :=
    { sent := h.sent
      wire := fun h => absurd h hopen
      numbered := by
        show Numbered work.pages
        rw [hpages]
        exact .nil
      farewell := h.farewell }
  unfold LiveSession.workFailed
  split
  · by_cases hopen : s.readyState = .opened
    · exact h.silent _ (hunsent hopen) rfl .nil
    · exact hclosed _ hopen rfl
  · refine h.sendsMessage rfl rfl (LiveSession.wire_sendJson ..) rfl hunsent rfl rfl
      (h.farewell.sendJson ?_) ?_
    · intro reason hmessage
      cases caller <;> cases hmessage
    · cases caller <;> rfl

theorem Publishes.tellApplied {revision : Nat} {render : RevisionRender} {work : Work}
    (h : Publishes s) (hsession : s.session.isSome = true) (hunsent : s.work.unsent? = none)
    (hunsent' : work.unsent? = none) (hpages : work.pages = []) :
    Publishes (s.tellApplied revision render work) := by
  refine h.sendsMessage rfl rfl (LiveSession.wire_sendJson ..) rfl (fun _ => hunsent) hunsent' hpages
    (h.farewell.sendJson (by simp)) ?_
  show (Publication.mk s.session.isSome _ _).nextMessage _ = some ⟨s.session.isSome, _, _⟩
  rw [hsession]
  rfl

/-- The pages on the wire, and those to come. -/
theorem Work.phase_of_some {work : Work} {caller : Caller} {revision index : Nat}
    {pages : List TexpressoRenderedPage}
    (h : work.unsent? = some (caller, revision, pages, index)) :
    work.phase = .pages revision pages.length index ∧ work.pages = pages := by
  cases work with
  | document | page => cases h; exact ⟨rfl, rfl⟩
  | _ => cases h

theorem Publishes.sendFrom (hs : Coherent s) (h : Publishes s) {caller : Caller}
    {revision index : Nat} {pages : List TexpressoRenderedPage}
    (hwork : s.work.unsent? = some (caller, revision, pages, index)) :
    Publishes (s.sendFrom caller revision pages index) := by
  obtain ⟨hphase, hpages⟩ := Work.phase_of_some hwork
  obtain ⟨hsession, -, hgood⟩ := (Work.caller_of_unsent hwork).2.2.2 hs.point
  have hnumbered := h.numbered
  rw [hpages] at hnumbered
  unfold LiveSession.sendFrom
  split
  · next page hpage =>
      obtain ⟨hlt, -⟩ := List.getElem?_eq_some_iff.mp hpage
      refine h.sends _ rfl rfl (LiveSession.wire_enqueueFrames ..) ?_ hnumbered
        (h.farewell.enqueueFrames ?_)
      · intro _ last hlast
        rw [LiveSession.LastCompleted, hwork] at hlast
        refine ⟨last, ?_, hlt, hlast.2⟩
        rw [hphase, hsession]
        show _ = some (Publication.mk s.session.isSome last
          (.pages revision pages.length (index + 1)))
        rw [hsession, ← hnumbered index page hpage]
        simp [Publication.read, Publication.next, Publication.nextMessage, pageDescriptor]
      · intro reason hmem
        simp at hmem
  · next hnone =>
      refine h.sends _ rfl rfl (LiveSession.wire_sendJson ..) ?_ .nil (h.farewell.sendJson (by simp))
      intro _ last hlast
      rw [LiveSession.LastCompleted, hwork] at hlast
      have hindex : index = pages.length :=
        Nat.le_antisymm hlast.1 (List.getElem?_eq_none_iff.mp hnone)
      have hnext : Publication.nextMessage ⟨true, last, .pages revision pages.length pages.length⟩
          (.revisionComplete revision revision pages.length pages.length)
            = some ⟨true, some revision, .between⟩ := by
        rw [Publication.nextMessage, if_pos ⟨rfl, rfl, hlast.2⟩]
      refine ⟨some revision, ?_, hgood.symm⟩
      rw [Publication.read_singleton, hphase, hsession, hindex]
      show _ = some (Publication.mk s.session.isSome (some revision) .between)
      rw [hsession]
      exact hnext

theorem Publishes.move (hs : Coherent s) (h : Publishes s) (hm : Move intact s t)
    (hintact : intact) : Publishes t := by
  have hpoint := hs.point
  cases hm with
  | initializes message hclosing hinitialized hinitializing =>
      have hidle := hs.idle_of_fresh hinitialized hinitializing
      exact { h.silent (.mkdtemp message) (by rw [hidle]; rfl) rfl .nil with }
  | advances work ha => exact h.silent work ha.unsent.1 ha.unsent.2 (ha.numbered h.numbered)
  | fails error hcaller hwork =>
      exact h.workFailed error fun hopen => Work.unsent_of_mayThrow (hwork hopen hintact)
  | @adopts message session hwork hclosing =>
      rw [hwork] at hpoint
      have hgood := (hs.unset hpoint).2
      have hunsent : s.work.unsent? = none := by
        rw [hwork]
        rfl
      refine h.sendsMessage rfl rfl (LiveSession.wire_sendJson ..) rfl (fun _ => hunsent) rfl rfl
        (h.farewell.sendJson (by simp)) rfl
  | starts hqueue hclosing hsession hwork =>
      refine h.takeChange hsession ?_
      rcases hwork with ⟨hinitializing, hprocessing⟩ | ⟨caller, hwork⟩
      · rw [hs.idle hinitializing hprocessing]
        rfl
      · exact Work.unsent_of_resumes hwork
  | continues hqueue hclosing hwork =>
      have hcaller : s.work.caller = some .drainChanges := by
        rcases hwork with hwork | hwork <;> rw [hwork] <;> rfl
      exact h.takeChange (hs.drains (hs.processing.mpr hcaller)) (Work.unsent_of_resumes hwork)
  | rests hqueue hwork =>
      obtain ⟨next, hwork⟩ := hwork
      exact { h.silent .idle (Work.unsent_of_resumes hwork) rfl .nil with }
  | @applies change hwork =>
      have hunsent : s.work.unsent? = none := by
        rw [hwork]
        rfl
      exact { h.silent (.applyRangeChange change ((s.editOutcome change).map fun _ => ()))
        hunsent rfl .nil with }
  | rejects error hwork =>
      have hunsent : s.work.unsent? = none := by
        rw [hwork]
        rfl
      exact h.sendsMessage rfl rfl (LiveSession.wire_sendJson ..) rfl (fun _ => hunsent) rfl rfl
        (h.farewell.sendJson (by simp)) rfl
  | applied snapshot hwork =>
      have hunsent : s.work.unsent? = none := by
        rw [hwork]
        rfl
      have hsession : s.session.isSome = true :=
        hs.drains (hs.processing.mpr (by rw [hwork]; rfl))
      unfold LiveSession.applied
      dsimp only
      split
      · exact h.tellApplied hsession hunsent rfl rfl
      · split
        · exact h.tellApplied hsession hunsent rfl rfl
        · exact h.tellApplied hsession hunsent rfl rfl
  | @reports caller revision snapshot hwork =>
      have hsession : s.session.isSome = true := by
        cases hat : s.work with
        | snapshot => rw [hat] at hpoint; exact hpoint.1
        | notRendered => exact hs.drains (hs.processing.mpr (by rw [hat]; rfl))
        | _ => rw [hat] at hwork; cases hwork
      refine h.sendsMessage rfl rfl (LiveSession.wire_sendJson ..) rfl
        (fun _ => Work.unsent_of_failed hwork) rfl rfl (h.farewell.sendJson (by simp)) ?_
      show (Publication.mk s.session.isSome _ _).nextMessage _ = some ⟨s.session.isSome, _, _⟩
      rw [hsession]
      simp [Publication.nextMessage]
  | @publishes caller pages error hwork hpages =>
      rw [hwork] at hpoint
      obtain ⟨hsession, happlied, hfresh⟩ := hpoint
      have hunsent : s.work.unsent? = none := by
        rw [hwork]
        rfl
      unfold LiveSession.publish
      rw [if_neg (by simp)]
      refine h.sends _ rfl rfl (LiveSession.wire_sendJson ..) ?_ ?_ (h.farewell.sendJson (by simp))
      · intro _ last hlast
        rw [LiveSession.lastCompleted_of_unsent hunsent] at hlast
        refine ⟨last, ?_, Nat.zero_le _, ?_⟩
        · rw [Publication.read_singleton, Work.phase_of_unsent hunsent, hsession]
          show _ = some (Publication.mk s.session.isSome _ _)
          rw [hsession]
          rfl
        · rw [hlast]
          exact hfresh
      · have hnumbered := h.numbered
        rw [hwork] at hnumbered
        exact hnumbered
  | @sends caller revision index pages hwork => exact h.sendFrom hs hwork

/-! ## Runs -/

theorem Publishes.init : Publishes LiveSession.new where
  sent := ⟨.start, rfl⟩
  wire := fun _ => ⟨none, rfl, rfl⟩
  numbered := .nil
  farewell := ⟨nofun, by simp [LiveSession.new]⟩

theorem Publishes.stepped (h : Publishes s) (hs : Coherent s) (hintact : intact)
    (hstep : Stepped intact s t) : Publishes t := by
  obtain ⟨s', hi, ⟨rfl, _⟩ | hm⟩ := hstep
  · exact h.interferes hi hintact
  · exact .move (hs.interferes hi) (h.interferes hi hintact) hm hintact

theorem reachable_publishes (h : (liveSystem platform).Reachable LiveSession.SendsComplete s) :
    Publishes s := by
  refine h.invariant Publishes.init ?_
  intro s event t hreach hpermitted hs hstep
  have hcoherent := reachable_coherent hreach
  exact hs.stepped hcoherent hpermitted (hcoherent.step_cases hstep)

/-- **The publication protocol.**  In every run in which sends complete while the socket is open,
the frames given to the socket follow the protocol, with errors only between two pages. -/
theorem LiveSession.publication_protocol
    (h : (liveSystem platform).Reachable LiveSession.SendsComplete s) :
    PublicationProtocol Frame.isError s.sent := by
  have hs := reachable_publishes h
  obtain ⟨p, hread⟩ := hs.sent
  have hprotocol := Publication.protocol hread
  refine { hprotocol with complete := ?_ }
  intro front revision good pageCount rendered back hsent
  obtain ⟨front', good', descriptors, pairs, rfl, hpairs⟩ := hprotocol.complete front revision good
    pageCount rendered back hsent
  refine ⟨front', good', descriptors, pairs, rfl, hpairs.strict ?_⟩
  intro frame hmem hnotice
  cases frame with
  | binary => cases hnotice
  | json message =>
      cases message with
      | protocolError | sessionError => rfl
      | sessionClosed reason =>
          -- nothing comes after `session-closed`
          obtain ⟨before, after, rfl⟩ := List.append_of_mem hmem
          have hsplit : s.sent
              = (front' ++ .json (.document revision good' pageCount descriptors) :: before)
                ++ .json (.sessionClosed reason) :: (after
                  ++ .json (.revisionComplete revision good pageCount rendered) :: back) := by
            rw [hsent]
            simp
          have hnil := (hs.farewell.last _ _ _ hsplit).1
          simp at hnil
      | _ => cases hnotice

/-- Sends complete while the socket is open. -/
instance (s : LiveSession) (event : LiveEvent) : Decidable (s.SendsComplete event) := by
  cases event with
  | sendSettled result => cases result <;> unfold LiveSession.SendsComplete <;> infer_instance
  | _ => exact isTrue trivial

/-- The document of one page is published. -/
theorem LiveSession.publication_protocol_published :
    PublicationProtocol Frame.isError ((liveSystem .posix).after
      (fun s event => decide (s.SendsComplete event))
      (OneFileSession.startUp ++ OneFileSession.publishing)).sent :=
  LiveSession.publication_protocol
    (Core.System.reachable_after (fun _ _ h => of_decide_eq_true h) _)

example : ((liveSystem .posix).after (fun s event => decide (s.SendsComplete event))
    (OneFileSession.startUp ++ OneFileSession.publishing)).sent.length = 5 := by
  rfl

end Typr
