import TyprCompanion.LivePreview.RenderCache

/-!
# No stale page

What a session publishes under a revision is what its native session rendered of it.

* `work_of_call` — only its own result ends a call of the native session.
* `Rendered` — where a session is rendering, its cache and its pages are of the current revision.
* `Current` — the invariant of a session with its calls.
* **`no_stale_page`** — one call at a time, and no image of another revision is published.
-/

namespace Typr

variable {platform : Platform} {intact : Prop} {s t : LiveSession}
  {produced produced' renderedPages : List Production}

/-! ## Calls end with their results -/

/-- The events a call ends with. -/
def LiveEvent.isResult : LiveEvent → Bool
  | applySettled _ | pageSettled _ | pageCountSettled _ => true
  | _ => false

theorem Work.call_cases {work : Work} (h : work.call?.isSome = true) :
    (∃ change outcome, work = .applyRangeChange change outcome) ∨
      (∃ caller revision pages, work = .renderPage caller revision pages) ∨
      ∃ caller revision pages error, work = .pageCount caller revision pages error := by
  cases work with
  | applyRangeChange change outcome => exact .inl ⟨change, outcome, rfl⟩
  | renderPage caller revision pages => exact .inr (.inl ⟨caller, revision, pages, rfl⟩)
  | pageCount caller revision pages error =>
      exact .inr (.inr ⟨caller, revision, pages, error, rfl⟩)
  | _ => cases h

namespace LiveSession

/-- A method that waits for a call does not wait for a send. -/
theorem settled_work (hcall : s.work.call?.isSome = true) (awaiter : Awaiter)
    (result : Except JSString Unit) : (s.settled awaiter result).work = s.work := by
  have hclose (reason : LiveSessionCloseReason) (notifyClient : Bool) :
      (s.close reason notifyClient).work = s.work :=
    (Interferes.close reason notifyClient : Interferes True s _).work
  cases awaiter with
  | work =>
      unfold settled
      rcases Work.call_cases hcall with ⟨_, _, hwork⟩ | ⟨_, _, _, hwork⟩ | ⟨_, _, _, _, hwork⟩ <;>
        cases result <;> simp [sendSucceeded, sendFailed, hwork]
  | failure =>
      have hsame : (s.close .error true).awaitClose = s.close .error true := by
        unfold awaitClose
        rcases Work.call_cases hcall with ⟨_, _, hwork⟩ | ⟨_, _, _, hwork⟩ | ⟨_, _, _, _, hwork⟩ <;>
          simp [hclose, hwork]
      exact (congrArg LiveSession.work hsame).trans (hclose ..)
  | protocolFailure isFatal =>
      cases isFatal with
      | true => exact hclose ..
      | false => cases result <;> first | rfl | exact hclose ..
  | nativeExit => exact hclose ..
  | close => rfl

/-- A frame does not concern a method that waits for a call. -/
theorem handleFrame_work (hs : Coherent s) (hcall : s.work.call?.isSome = true)
    (frame : ClientFrame) : (s.handleFrame platform frame).work = s.work := by
  have hbusy : s.initializing = true ∨ s.processing = true := by
    rw [hs.initializing, hs.processing]
    have hcaller (caller : Caller) (h : s.work.caller = some caller) :
        (∃ revision, s.work.caller = some (.initializeSession revision)) ∨
          s.work.caller = some .drainChanges := by
      cases caller with
      | initializeSession revision => exact .inl ⟨revision, h⟩
      | drainChanges => exact .inr h
    rcases Work.call_cases hcall with ⟨_, _, hwork⟩ | ⟨caller, _, _, hwork⟩ |
      ⟨caller, _, _, _, hwork⟩
    · exact .inr (by rw [hwork]; rfl)
    · exact hcaller caller (by rw [hwork]; rfl)
    · exact hcaller caller (by rw [hwork]; rfl)
  have hdrain (u : LiveSession) (hinitializing : u.initializing = s.initializing)
      (hprocessing : u.processing = s.processing) : u.drainChanges = u := by
    unfold drainChanges
    rw [hinitializing, hprocessing]
    rcases hbusy with hbusy | hbusy <;> simp [hbusy]
  unfold handleFrame
  split
  · rfl
  · split
    · rfl
    · rfl
    · split
      · rfl
      · exact (Interferes.close .clientShutdown true : Interferes True s _).work
      · split
        · rfl
        · next hfree =>
            -- `initialize` runs, or `drainChanges` of a session that is initialized
            rw [not_or, hs.initialized] at hfree
            rcases hbusy with hbusy | hbusy
            · exact absurd hbusy hfree.2
            · exact absurd (hs.drains hbusy) hfree.1
      · unfold enqueueChange
        split_ifs
        all_goals
          first
          | rfl
          | (rw [hdrain (s.accept _) rfl rfl]; rfl)

theorem sendFrame_work (hcall : s.work.call?.isSome = true) (h : s.sendFrame = some t) :
    t.work = s.work := by
  unfold sendFrame at h
  split at h
  · next tasks _ =>
      split at h
      · obtain rfl := Option.some.inj h
        rfl
      · obtain rfl := Option.some.inj h
        exact settled_work (s := { s with outbound := tasks }) hcall _ _
  · cases h

theorem sendSettled_work {result : Except JSString Unit} (hcall : s.work.call?.isSome = true)
    (h : s.sendSettled result = some t) : t.work = s.work := by
  unfold sendSettled at h
  split at h
  · next tasks _ =>
      split at h
      · obtain rfl := Option.some.inj h
        rfl
      · obtain rfl := Option.some.inj h
        exact settled_work (s := { s with outbound := tasks }) hcall _ _
  · cases h

/-- **Only its own result ends a call** of the native session. -/
theorem work_of_call {event : LiveEvent} (hs : Coherent s) (hcall : s.work.call?.isSome = true)
    (hevent : event.isResult = false) (hstep : s.step platform event = some t) :
    t.work = s.work := by
  have hclose (u : LiveSession) (hu : u.work = s.work) (reason : LiveSessionCloseReason)
      (notifyClient : Bool) : (u.close reason notifyClient).work = s.work :=
    (Interferes.close reason notifyClient : Interferes True u _).work.trans hu
  cases event with
  | applySettled | pageSettled | pageCountSettled => cases hevent
  | frame frame =>
      have h : (if s.readyState = .closed then none
          else some ({ s with idleTimer := true }.handleFrame platform frame)) = some t := hstep
      split at h
      · cases h
      · obtain rfl := Option.some.inj h
        exact handleFrame_work (s := { s with idleTimer := true }) { hs with } hcall frame
  | idleTimeout =>
      simp only [step, onSocket, Option.ite_none_right_eq_some, Option.some.injEq] at hstep
      exact hstep.2 ▸ hclose { s with idleTimer := false } rfl .error true
  | lifetimeTimeout =>
      simp only [step, onSocket, Option.ite_none_right_eq_some, Option.some.injEq] at hstep
      exact hstep.2 ▸ hclose { s with lifetimeTimer := false } rfl .error true
  | peerCloses => exact Option.some.inj hstep ▸ rfl
  | socketClosed =>
      simp only [step, onSocket, Option.ite_none_left_eq_some, Option.some.injEq] at hstep
      exact hstep.2 ▸ hclose { s with readyState := .closed } rfl .clientDisconnect false
  | socketError =>
      simp only [step, onSocket, Option.ite_none_left_eq_some, Option.some.injEq] at hstep
      exact hstep.2 ▸ hclose s rfl .error false
  | serverShutdown => exact Option.some.inj hstep ▸ hclose s rfl .serverShutdown true
  | sendFrame => exact sendFrame_work hcall hstep
  | sendSettled => exact sendSettled_work hcall hstep
  | mkdtempSettled | materializeSettled | startSettled | snapshotTaken =>
      rcases Work.call_cases hcall with ⟨_, _, hwork⟩ | ⟨_, _, _, hwork⟩ | ⟨_, _, _, _, hwork⟩ <;>
        simp [step, onStartUp, onNative, hwork] at hstep
  | prepareEnvironment =>
      rcases Work.call_cases hcall with ⟨_, outcome, hwork⟩ | ⟨_, _, _, hwork⟩ |
        ⟨_, _, _, _, hwork⟩
      · cases outcome with
        | error => simp [step, onNative, hwork] at hstep
        | ok =>
            simp only [step, onNative, hwork, Option.ite_none_right_eq_some, Option.some.injEq]
              at hstep
            rw [← hstep.2]
            exact hwork.symm
      · simp [step, onNative, hwork] at hstep
      · simp [step, onNative, hwork] at hstep
  | nativeExits error =>
      simp only [step, onNative, Option.ite_none_right_eq_some] at hstep
      obtain ⟨_, hstep⟩ := hstep
      split at hstep
      · obtain rfl := Option.some.inj hstep
        unfold nativeSessionFailed
        split <;> rfl
      · exact Option.some.inj hstep ▸ rfl
  | nativeTimeout =>
      simp only [step, onNative, Option.ite_none_right_eq_some, Option.some.injEq] at hstep
      exact hstep.2 ▸ rfl
  | nativeClosed =>
      simp only [step, onNative, Option.ite_none_right_eq_some] at hstep
      obtain ⟨_, hstep⟩ := hstep
      split at hstep
      · next hwork =>
          rw [hwork] at hcall
          cases hcall
      · exact Option.some.inj hstep ▸ rfl
  | resume =>
      rcases Work.call_cases hcall with ⟨_, _, hwork⟩ | ⟨_, _, _, hwork⟩ | ⟨_, _, _, _, hwork⟩ <;>
        simp [step, onMethods, hwork] at hstep
  | removeSettled =>
      simp only [step, onMethods] at hstep
      split at hstep
      · exact Option.some.inj hstep ▸ rfl
      · cases hstep
  | closeFinishes =>
      simp only [step, onMethods] at hstep
      split at hstep
      · simp only [Option.ite_none_left_eq_some, Option.some.injEq] at hstep
        rw [← hstep.2, closeFinishes]
        split <;> rfl
      · cases hstep

end LiveSession

theorem LiveSession.addPage_length {pages pages' : List TexpressoRenderedPage} {image : PageImage}
    {dpi : Nat} (h : addPage pages image dpi = .ok pages') :
    pages' = pages ++ [⟨image, pages.length, dpi⟩] := by
  unfold addPage at h
  split at h
  · cases h
  · split at h
    · cases h
    · exact (Except.ok.inj h).symm

theorem Advances.work_ne {work work' : Work} (ha : Advances s work work')
    (hcall : work.call?.isSome = true) : work' ≠ work := by
  cases ha with
  | prepared hwork | renders hwork | skips hwork =>
      have hnone : work.call? = none := by cases work <;> first | rfl | cases hwork
      rw [hnone] at hcall
      cases hcall
  | rendered caller revision hpages =>
      intro hsame
      have hpages := LiveSession.addPage_length hpages
      injection hsame with _ _ hsame
      rw [hsame] at hpages
      simp at hpages
  | superseded hwork => rcases hwork with rfl | ⟨_, rfl⟩ <;> nofun
  | notRendered => nofun
  | _ => cases hcall

/-- A move out of a call leads to another place. -/
theorem Move.work_ne (hcall : s.work.call?.isSome = true) (hm : Move intact s t) :
    t.work ≠ s.work := by
  have hresumes (next : Continuation) : ¬ s.work.Resumes next := by
    rintro (hwork | hwork) <;> rw [hwork] at hcall <;> cases hcall
  have hnone {work : Work} (hwork : s.work = work) (h : work.call? = none) : False := by
    rw [hwork, h] at hcall
    cases hcall
  have hchanges (h : t.work.call? = none) : t.work ≠ s.work := by
    intro hsame
    rw [← hsame, h] at hcall
    cases hcall
  cases hm with
  | advances work ha => exact ha.work_ne hcall
  | fails error hcaller =>
      refine hchanges ?_
      unfold LiveSession.workFailed
      split <;> rfl
  | adopts session hwork => exact (hnone hwork rfl).elim
  | applies hwork => exact (hnone hwork rfl).elim
  | continues hqueue hclosing hwork => exact absurd hwork (hresumes _)
  | applied snapshot hwork =>
      refine hchanges ?_
      unfold LiveSession.applied
      dsimp only
      split_ifs <;> rfl
  | publishes hwork hpages =>
      refine hchanges ?_
      unfold LiveSession.publish
      rw [if_neg (by simp)]
      rfl
  | @sends caller revision index pages hwork =>
      refine hchanges ?_
      unfold LiveSession.sendFrom
      split <;> rfl
  | _ => exact hchanges rfl

/-! ## Rendering -/

/-- The revision the session has where its methods wait. -/
def Work.rendered? : Work → Option Nat
  | sessionReady revision | snapshot revision | renderPage _ revision _ | pageCount _ revision _ _
  | document _ revision _ | page _ revision _ _ => some revision
  | pending change => some change.revision
  | _ => none

/-- Pages may be asked for before the next edit. -/
def Work.renders : Work → Bool
  | sessionReady _ | snapshot _ | pending _ | renderPage _ _ _ | pageCount _ _ _ _ => true
  | _ => false

/-- A page as it was produced. -/
def Production.Shows (production : Production) (page : TexpressoRenderedPage) : Prop :=
  production.page = page.page ∧ production.image = page.toPageImage

/-- **The images a session may publish** are of the revision it is rendering. -/
structure Rendered (produced renderedPages : List Production) (s : LiveSession) : Prop where
  unset : s.session = none → renderedPages = []
  entries : ∀ entry ∈ renderedPages,
    entry ∈ produced ∧ (s.work.renders = true → s.Now entry)
  pages : ∀ page ∈ s.work.pages, ∃ production ∈ produced, s.Now production ∧ production.Shows page
  revision : ∀ revision, s.work.rendered? = some revision →
    s.revisionAt s.handed.length = some revision
  images : ImagesFollow (Fresh produced s) s.outbound s.sent

/-- An image of a revision stays one. -/
theorem Fresh.later {revision : Nat} {descriptor : TexpressoPageDescriptor} {data : Core.Bytes}
    (hproduced : produced ⊆ produced') (hopened : s.opened = none ∨ t.opened = s.opened)
    (hhanded : s.handed <+: t.handed) (h : Fresh produced s revision descriptor data) :
    Fresh produced' t revision descriptor data := by
  obtain ⟨production, hmem, hpage, hdata, hanswered, hrevision⟩ := h
  refine ⟨production, hproduced hmem, hpage, hdata, hanswered, ?_⟩
  cases hasked : production.asked with
  | zero =>
      rw [hasked] at hrevision
      rcases hopened with hnone | hsame
      · simp [LiveSession.revisionAt, hnone] at hrevision
      · simpa only [LiveSession.revisionAt, hsame] using hrevision
  | succ n =>
      rw [hasked] at hrevision
      obtain ⟨change, hchange, hrevision⟩ := Option.map_eq_some_iff.mp hrevision
      refine Option.map_eq_some_iff.mpr ⟨change, ?_, hrevision⟩
      obtain ⟨rest, hhanded⟩ := hhanded
      rw [← hhanded, List.getElem?_append_left (List.getElem?_eq_some_iff.mp hchange).1]
      exact hchange

/-- A message in the outbound queue. -/
theorem ImagesFollow.sendJson {fresh : Nat → TexpressoPageDescriptor → Core.Bytes → Prop}
    (h : ImagesFollow fresh s.outbound s.sent) (message : TexpressoServerMessage)
    (awaiter : Awaiter) :
    ImagesFollow fresh (s.sendJson message awaiter).outbound (s.sendJson message awaiter).sent :=
  h.concat ⟨rfl, .inl ⟨message, rfl⟩⟩

/-- The work goes on to another place, where no more is rendered than before. -/
theorem Rendered.place (h : Rendered produced renderedPages s) (hsession : t.session = s.session)
    (hopened : t.opened = s.opened) (hhanded : t.handed = s.handed)
    (hrenders : t.work.renders = true → s.work.renders = true)
    (hpages : t.work.pages ⊆ s.work.pages)
    (hrevision : ∀ revision, t.work.rendered? = some revision → s.work.rendered? = some revision)
    (himages : ImagesFollow (Fresh produced s) t.outbound t.sent) :
    Rendered produced renderedPages t where
  unset := fun hnone => h.unset (hsession ▸ hnone)
  entries := by
    intro entry hmem
    obtain ⟨hproduced, hnow⟩ := h.entries entry hmem
    refine ⟨hproduced, fun hwork => ?_⟩
    rw [LiveSession.Now, hhanded]
    exact hnow (hrenders hwork)
  pages := by
    intro page hmem
    rw [show t.Now = s.Now from funext fun _ => by rw [LiveSession.Now, LiveSession.Now, hhanded]]
    exact h.pages page (hpages hmem)
  revision := by
    intro revision hwork
    have hsame := h.revision revision (hrevision revision hwork)
    rw [hhanded]
    cases hlength : s.handed.length <;>
      simpa only [hlength, LiveSession.revisionAt, hopened, hhanded] using hsame
  images := by
    refine himages.mono ?_
    intro revision descriptor data hfresh
    exact hfresh.later (List.Subset.refl _) (.inr hopened) (hhanded ▸ List.prefix_refl _)

theorem Rendered.interferes (h : Rendered produced renderedPages s) (hi : Interferes intact s t) :
    Rendered produced renderedPages t := by
  refine h.place hi.session hi.opened hi.handed ?_ ?_ ?_ (hi.images _ h.images)
  · rw [hi.work]
    exact id
  · rw [hi.work]
    exact List.Subset.refl _
  · rw [hi.work]
    exact fun _ => id

theorem Advances.places {work work' : Work} (ha : Advances s work work')
    (hcall : work.call? = none) :
    (work'.renders = true → work.renders = true) ∧ work'.pages ⊆ work.pages ∧
      ∀ revision, work'.rendered? = some revision → work.rendered? = some revision := by
  cases ha with
  | prepared _ hwork' =>
      cases work' <;>
        first
        | (cases hwork'; done)
        | exact ⟨nofun, List.nil_subset _, nofun⟩
  | ready => exact ⟨fun _ => rfl, List.nil_subset _, fun _ => id⟩
  | renders hwork =>
      cases work <;>
        first
        | (cases hwork; exact ⟨fun _ => rfl, List.nil_subset _, fun _ => id⟩)
        | cases hwork
  | rendered | notRendered => cases hcall
  | _ => exact ⟨nofun, List.nil_subset _, nofun⟩

/-- The next page, or the end of the document. -/
theorem Rendered.sendFrom (h : Rendered produced renderedPages s) {caller : Caller}
    {revision index : Nat} {pages : List TexpressoRenderedPage}
    (hwork : s.work.unsent? = some (caller, revision, pages, index)) :
    Rendered produced renderedPages (s.sendFrom caller revision pages index) := by
  obtain ⟨-, hpages⟩ := Work.phase_of_some hwork
  have hrevision : s.work.rendered? = some revision := by
    cases hat : s.work <;> rw [hat] at hwork <;> first | (cases hwork; rfl) | cases hwork
  unfold LiveSession.sendFrom
  split
  next page hpage =>
    refine h.place rfl rfl rfl nofun ?_ ?_ ?_
    · rw [hpages]
      exact List.Subset.refl _
    · intro other hother
      exact hrevision.trans hother
    · refine h.images.concat ⟨rfl, .inr ⟨revision, pageDescriptor page, page.data, rfl, ?_⟩⟩
      have hmem : page ∈ s.work.pages := by
        rw [hpages]
        exact List.mem_of_getElem? hpage
      obtain ⟨production, hproduced, ⟨hasked, hanswered⟩, hnumber, himage⟩ := h.pages page hmem
      refine ⟨production, hproduced, hnumber, by rw [himage], hasked.trans hanswered.symm, ?_⟩
      rw [hasked]
      exact h.revision revision hrevision
  next =>
    exact h.place rfl rfl rfl nofun (List.nil_subset _) nofun (h.images.sendJson ..)

/-- A move that is not the end of a call. -/
theorem Rendered.move (hcoalesces : Coalesces s) (hs : Coherent s)
    (h : Rendered produced renderedPages s) (hcall : s.work.call? = none) (hm : Move intact s t) :
    Rendered produced renderedPages t := by
  have hnone {work : Work} (hwork : s.work = work) (hsome : work.call?.isSome = true) : False := by
    rw [← hwork, hcall] at hsome
    cases hsome
  cases hm with
  | initializes message => exact h.place rfl rfl rfl nofun (List.nil_subset _) nofun h.images
  | advances work ha =>
      obtain ⟨hrenders, hpages, hrevision⟩ := ha.places hcall
      exact h.place rfl rfl rfl hrenders hpages hrevision h.images
  | fails error hcaller =>
      unfold LiveSession.workFailed
      split
      · exact h.place rfl rfl rfl nofun (List.nil_subset _) nofun h.images
      · exact h.place rfl rfl rfl nofun (List.nil_subset _) nofun (h.images.sendJson ..)
  | adopts session hwork hclosing =>
      have hpoint := hs.point
      rw [hwork] at hpoint
      have hunset : s.session = none := hpoint
      have hhanded := (hcoalesces.unset hunset).2
      have hopened : s.opened = none := by
        have hopens := hcoalesces.opens
        rw [hunset] at hopens
        simpa using hopens
      exact {
        unset := nofun
        entries := by
          rw [h.unset hunset]
          exact fun _ hmem => absurd hmem List.not_mem_nil
        pages := fun _ hmem => absurd hmem List.not_mem_nil
        revision := by
          intro revision hrevision
          obtain rfl := Option.some.inj hrevision
          show LiveSession.revisionAt _ s.handed.length = _
          rw [hhanded]
          rfl
        images := by
          refine ImagesFollow.mono ?_ (h.images.sendJson ..)
          intro revision descriptor data hfresh
          exact hfresh.later (List.Subset.refl _) (.inl hopened) (List.prefix_refl _) }
  | starts | continues =>
      exact h.place rfl rfl rfl nofun (List.nil_subset _) nofun (h.images.sendJson ..)
  | rests => exact h.place rfl rfl rfl nofun (List.nil_subset _) nofun h.images
  | @applies change hwork =>
      have hhanded : s.handed <+: (s.callApplyRangeChange change).handed := by
        show s.handed <+: if _ then _ else _
        split
        · exact List.prefix_append ..
        · exact List.prefix_refl _
      exact {
        unset := h.unset
        entries := fun entry hmem => ⟨(h.entries entry hmem).1, nofun⟩
        pages := fun _ hmem => absurd hmem List.not_mem_nil
        revision := nofun
        images := by
          refine ImagesFollow.mono ?_ h.images
          intro revision descriptor data hfresh
          exact Fresh.later (s := s) (List.Subset.refl _) (.inr rfl) hhanded hfresh }
  | rejects error hwork => exact (hnone hwork rfl).elim
  | applied snapshot hwork => exact (hnone hwork rfl).elim
  | reports => exact h.place rfl rfl rfl nofun (List.nil_subset _) nofun (h.images.sendJson ..)
  | publishes hwork hpages => exact (hnone hwork rfl).elim
  | sends hwork => exact h.sendFrom hwork

/-! ## Results -/

namespace LiveSession

theorem step_applySettled {result : Except JSString TexpressoSnapshot}
    (h : s.step platform (.applySettled result) = some t) :
    ∃ change outcome, s.work = .applyRangeChange change outcome ∧
      t = s.applied change (outcome.bind fun _ => result) := by
  cases hwork : s.work with
  | applyRangeChange change outcome =>
      refine ⟨change, outcome, rfl, ?_⟩
      cases outcome <;> simp only [step, onNative, hwork, Option.some.injEq] at h <;> exact h.symm
  | _ => simp [step, onNative, hwork] at h

theorem step_pageSettled {result : Except JSString PageImage}
    (h : s.step platform (.pageSettled result) = some t) :
    ∃ caller revision pages, s.work = .renderPage caller revision pages ∧
      t = s.pageRendered caller revision pages result := by
  cases hwork : s.work with
  | renderPage caller revision pages =>
      simp only [step, onNative, hwork, Option.some.injEq] at h
      exact ⟨caller, revision, pages, rfl, h.symm⟩
  | _ => simp [step, onNative, hwork] at h

theorem step_pageCountSettled {result : Except JSString Nat}
    (h : s.step platform (.pageCountSettled result) = some t) :
    ∃ caller revision pages error, s.work = .pageCount caller revision pages error ∧
      t = s.pagesCounted caller revision pages error result := by
  cases hwork : s.work with
  | pageCount caller revision pages error =>
      simp only [step, onNative, hwork, Option.some.injEq] at h
      exact ⟨caller, revision, pages, error, rfl, h.symm⟩
  | _ => simp [step, onNative, hwork] at h

end LiveSession

/-- Fewer pages are cached. -/
theorem Rendered.fewer {fewer : List Production} (h : Rendered produced renderedPages s)
    (hfewer : fewer ⊆ renderedPages) : Rendered produced fewer s :=
  { h with
    unset := fun hnone => List.subset_nil.mp (h.unset hnone ▸ hfewer)
    entries := fun entry hmem => h.entries entry (hfewer hmem) }

/-- A page is produced and cached. -/
theorem Rendered.produces (h : Rendered produced renderedPages s) {production : Production}
    (hnow : s.Now production) (hsession : s.session.isSome = true) (kept : Production → Bool) :
    Rendered (production :: produced) (production :: renderedPages.filter kept) s where
  unset := by
    intro hnone
    rw [hnone] at hsession
    cases hsession
  entries := by
    intro entry hmem
    rcases List.mem_cons.mp hmem with rfl | hmem
    · exact ⟨List.mem_cons_self .., fun _ => hnow⟩
    · obtain ⟨hproduced, hentry⟩ := h.entries entry (List.mem_of_mem_filter hmem)
      exact ⟨List.mem_cons_of_mem _ hproduced, hentry⟩
  pages := by
    intro page hmem
    obtain ⟨before, hproduced, hpage⟩ := h.pages page hmem
    exact ⟨before, List.mem_cons_of_mem _ hproduced, hpage⟩
  revision := h.revision
  images := by
    refine h.images.mono ?_
    intro revision descriptor data hfresh
    exact hfresh.later (List.subset_cons_self ..) (.inr rfl) (List.prefix_refl _)

/-- **An edit has settled.**  Pages are asked for only when it cleared the cache. -/
theorem Rendered.applied (hcoalesces : Coalesces s) (h : Rendered produced renderedPages s)
    {change : TexpressoChangeMessage} {outcome : Except JSString Unit}
    {result : Except JSString TexpressoSnapshot} {kept : List Production}
    (hwork : s.work = .applyRangeChange change outcome) (hfewer : kept ⊆ renderedPages)
    (hcleared : s.clearsCache result = true → kept = []) :
    Rendered produced kept (s.applied change (outcome.bind fun _ => result)) := by
  cases outcome with
  | error error =>
      refine Rendered.fewer ?_ hfewer
      exact h.place rfl rfl rfl nofun (List.nil_subset _) nofun (h.images.sendJson ..)
  | ok _ =>
      cases result with
      | error error =>
          refine Rendered.fewer ?_ hfewer
          exact h.place rfl rfl rfl nofun (List.nil_subset _) nofun (h.images.sendJson ..)
      | ok snapshot =>
          show Rendered _ _ (s.applied change (.ok snapshot))
          unfold LiveSession.applied
          dsimp only
          split_ifs with herror hqueue
          · refine Rendered.fewer ?_ hfewer
            exact h.place rfl rfl rfl nofun (List.nil_subset _) nofun (h.images.sendJson ..)
          · refine Rendered.fewer ?_ hfewer
            exact h.place rfl rfl rfl nofun (List.nil_subset _) nofun (h.images.sendJson ..)
          · have hsuccess : snapshot.result = .success := by
              cases hresult : snapshot.result with
              | success => rfl
              | latexError => exact absurd hresult herror
            have hclears : s.clearsCache (.ok snapshot) = true := by
              simp [LiveSession.clearsCache, hwork, hsuccess]
            rw [hcleared hclears]
            have hlast := hcoalesces.last change hwork
            exact {
              unset := fun _ => rfl
              entries := fun _ hmem => absurd hmem List.not_mem_nil
              pages := fun _ hmem => absurd hmem List.not_mem_nil
              revision := by
                intro revision hrevision
                obtain rfl := Option.some.inj hrevision
                show LiveSession.revisionAt _ s.handed.length = _
                rw [List.getLast?_eq_getElem?] at hlast
                obtain ⟨n, hlength⟩ := Nat.exists_eq_succ_of_ne_zero
                  (Nat.ne_of_gt (Nat.zero_lt_of_lt (List.getElem?_eq_some_iff.mp hlast).1))
                rw [hlength] at hlast ⊢
                show (s.handed[n]?).map _ = _
                rw [show s.handed[n]? = some change from hlast]
                rfl
              images := by
                refine ImagesFollow.mono ?_ (h.images.sendJson ..)
                intro revision descriptor data hfresh
                exact Fresh.later (s := s) (List.Subset.refl _) (.inr rfl) (List.prefix_refl _)
                  hfresh }

/-- A page was answered, with an image produced now. -/
theorem Rendered.pageRendered (h : Rendered produced renderedPages s) {caller : Caller}
    {revision : Nat} {pages : List TexpressoRenderedPage} {result : Except JSString PageImage}
    (hwork : s.work = .renderPage caller revision pages)
    (hresult : ∀ image, result = .ok image → ∃ production ∈ produced, s.Now production ∧
      production.page = pages.length ∧ production.image = image) :
    Rendered produced renderedPages (s.pageRendered caller revision pages result) := by
  have hpages := h.pages
  have hrevision := h.revision
  rw [hwork] at hpages hrevision
  unfold LiveSession.pageRendered
  split
  next error _ =>
    refine h.place rfl rfl rfl ?_ ?_ ?_ h.images
    · rw [hwork]
      exact fun _ => rfl
    · rw [hwork]
      exact List.Subset.refl _
    · rw [hwork]
      exact fun _ => id
  next pages' hadded =>
    have hreturned : Rendered produced renderedPages (s.returned caller) := by
      cases caller with
      | initializeSession => exact h.place rfl rfl rfl nofun (List.nil_subset _) nofun h.images
      | drainChanges => exact h.place rfl rfl rfl nofun (List.nil_subset _) nofun h.images
    cases result with
    | error error => cases hadded
    | ok image =>
        obtain rfl := LiveSession.addPage_length hadded
        unfold LiveSession.nextPage
        split
        · exact hreturned
        · exact { h with
            entries := by
              intro entry hmem
              obtain ⟨hproduced, hnow⟩ := h.entries entry hmem
              rw [hwork] at hnow
              exact ⟨hproduced, hnow⟩
            pages := by
              intro page hmem
              rcases List.mem_append.mp hmem with hmem | hmem
              · exact hpages page hmem
              · obtain ⟨production, hproduced, hnow, hnumber, himage⟩ := hresult image rfl
                rw [List.mem_singleton] at hmem
                exact ⟨production, hproduced, hnow, by rw [hmem]; exact hnumber,
                  by rw [hmem]; exact himage⟩
            revision := hrevision
            images := h.images }

/-- The pages were counted. -/
theorem Rendered.pagesCounted (h : Rendered produced renderedPages s) {caller : Caller}
    {revision : Nat} {pages : List TexpressoRenderedPage} {error : JSString}
    {result : Except JSString Nat} (hwork : s.work = .pageCount caller revision pages error) :
    Rendered produced renderedPages (s.pagesCounted caller revision pages error result) := by
  have hfailed (error : JSString) : Rendered produced renderedPages (s.workFailed caller error) := by
    unfold LiveSession.workFailed
    split
    · exact h.place rfl rfl rfl nofun (List.nil_subset _) nofun h.images
    · exact h.place rfl rfl rfl nofun (List.nil_subset _) nofun (h.images.sendJson ..)
  unfold LiveSession.pagesCounted
  split
  · exact hfailed _
  · split
    · unfold LiveSession.publish
      split
      · cases caller with
        | initializeSession => exact h.place rfl rfl rfl nofun (List.nil_subset _) nofun h.images
        | drainChanges => exact h.place rfl rfl rfl nofun (List.nil_subset _) nofun h.images
      · refine h.place rfl rfl rfl nofun ?_ ?_ (h.images.sendJson ..)
        · rw [hwork]
          exact List.Subset.refl _
        · rw [hwork]
          exact fun _ => id
    · exact hfailed _

/-! ## Runs -/

/-- A call was made after the last change, and a cached page it found was produced after it. -/
def PreviewSession.Timely (p : PreviewSession) (call : PendingCall) : Prop :=
  call.asked = p.session.handed.length ∧ ∀ entry ∈ call.cached,
    entry ∈ p.produced ∧ p.session.Now entry ∧ call.call = .renderPage entry.page

/-- **A session with its calls**: the one its method waits for. -/
structure Current (p : PreviewSession) : Prop
    extends Rendered p.produced p.renderedPages p.session where
  calls : p.calls.map PendingCall.call = p.session.work.call?.toList
  pending : ∀ call ∈ p.calls, p.Timely call

variable {p q : PreviewSession} {event : LiveEvent}

theorem Work.renders_of_call {work : Work} {page : Nat} (h : work.call? = some (.renderPage page)) :
    work.renders = true := by
  cases work <;> first | rfl | cases h

theorem Rendered.closes (h : Rendered produced renderedPages t) :
    Rendered produced (if PreviewSession.closesCache t = true then [] else renderedPages) t := by
  refine h.fewer ?_
  split
  · exact List.nil_subset _
  · exact List.Subset.refl _

/-- No call is open, and the session may make one. -/
theorem Rendered.current (h : Rendered q.produced q.renderedPages t) (hcalls : q.calls = [])
    (hnew : ∀ call, t.work.call? = some call → q.session.work.call? ≠ some call) :
    Current (q.advance t) := by
  have hnext : q.nextCall t = (t.work.call?.map fun call => q.pendingCall call t).toList := by
    unfold PreviewSession.nextCall
    split
    next call hcall => rw [if_neg (hnew call hcall), hcall]; rfl
    next hcall => rw [hcall]; rfl
  have hadvanced : (q.advance t).calls
      = (t.work.call?.map fun call => q.pendingCall call t).toList := by
    show q.calls ++ q.nextCall t = _
    rw [hcalls, hnext, List.nil_append]
  exact { h.closes with
    calls := by
      rw [hadvanced]
      show _ = t.work.call?.toList
      cases t.work.call? <;> rfl
    pending := by
      intro pending hmem
      rw [hadvanced, Option.mem_toList, Option.map_eq_some_iff] at hmem
      obtain ⟨call, hcall, rfl⟩ := hmem
      refine ⟨rfl, ?_⟩
      intro entry hentry
      cases call with
      | renderPage page =>
          have hfound : q.renderedPages.find? (t.hasKey page) = some entry := hentry
          have hkey := List.find?_some hfound
          obtain ⟨hproduced, hnow⟩ := h.entries entry (List.mem_of_find?_eq_some hfound)
          have hpage : entry.page = page := by
            simp only [LiveSession.hasKey, Bool.and_eq_true, decide_eq_true_eq] at hkey
            exact hkey.1.1
          exact ⟨hproduced, hnow (Work.renders_of_call hcall), by rw [hpage]; rfl⟩
      | applyRangeChange | getPageCount => cases hentry }

/-- The session goes on while its call is open. -/
theorem Current.continues (h : Current p) (ht : Rendered p.produced p.renderedPages t)
    (hwork : t.work = p.session.work) (hhanded : t.handed = p.session.handed) :
    Current (p.advance t) := by
  have hnext : p.nextCall t = [] := by
    unfold PreviewSession.nextCall
    rw [hwork]
    split
    next call hcall => rw [if_pos hcall]
    next => rfl
  have hadvanced : (p.advance t).calls = p.calls := by
    show p.calls ++ p.nextCall t = _
    rw [hnext, List.append_nil]
  exact { ht.closes with
    calls := by
      rw [hadvanced, h.calls, ← hwork]
      rfl
    pending := by
      intro call hmem
      rw [hadvanced] at hmem
      obtain ⟨hasked, hcached⟩ := h.pending call hmem
      refine ⟨hasked.trans (by rw [← hhanded]; rfl), ?_⟩
      intro entry hentry
      obtain ⟨hproduced, hnow, hcall⟩ := hcached entry hentry
      refine ⟨hproduced, ?_, hcall⟩
      show entry.asked = t.handed.length ∧ entry.answered = t.handed.length
      rw [hhanded]
      exact hnow }

/-- The one call that is open. -/
theorem Current.call (h : Current p) {kind : NativeCall} (hcall : p.session.work.call? = some kind) :
    ∃ call, p.calls = [call] ∧ call.call = kind ∧ p.Timely call := by
  have hcalls := h.calls
  rw [hcall] at hcalls
  obtain ⟨call, hsingle, hkind⟩ := List.map_eq_singleton_iff.mp hcalls
  exact ⟨call, hsingle, hkind, h.pending call (by rw [hsingle]; exact List.mem_singleton_self _)⟩

/-- A step that is no result. -/
theorem Current.goesOn (hs : Coherent p.session) (hcoalesces : Coalesces p.session) (h : Current p)
    (hevent : event.isResult = false) (hstep : p.session.step platform event = some t) :
    Current (p.advance t) := by
  obtain ⟨s', hi, hmove⟩ := hs.step_cases hstep
  have hbefore := h.toRendered.interferes hi
  by_cases hcall : p.session.work.call?.isSome = true
  · -- the open call is still open
    have hwork := LiveSession.work_of_call hs hcall hevent hstep
    rcases hmove with ⟨rfl, _⟩ | hm
    · exact h.continues hbefore hwork hi.handed
    · refine absurd (hwork.trans hi.work.symm) (hm.work_ne ?_)
      rw [hi.work]
      exact hcall
  · have hnone : p.session.work.call? = none := by simpa using hcall
    have hcalls : p.calls = [] := by
      have hcalls := h.calls
      rw [hnone] at hcalls
      simpa using hcalls
    have ht : Rendered p.produced p.renderedPages t := by
      rcases hmove with ⟨rfl, _⟩ | hm
      · exact hbefore
      · refine hbefore.move (hcoalesces.interferes hi) (hs.interferes hi) ?_ hm
        rw [hi.work]
        exact hnone
    refine ht.current hcalls ?_
    intro call _
    rw [hnone]
    nofun

theorem Current.applySettled {result : Except JSString TexpressoSnapshot}
    (hcoalesces : Coalesces p.session) (h : Current p)
    (hstep : p.session.step platform (.applySettled result) = some t) :
    Current ((p.settle (.applySettled result)).advance t) := by
  obtain ⟨change, outcome, hwork, rfl⟩ := LiveSession.step_applySettled hstep
  obtain ⟨call, hcalls, hkind, _⟩ := h.call (by rw [hwork]; rfl)
  refine Rendered.current (h.toRendered.applied hcoalesces hwork ?_ ?_) ?_ ?_
  · show (if _ then _ else _ : List Production) ⊆ _
    split
    · exact List.nil_subset _
    · exact List.Subset.refl _
  · intro hclears
    exact if_pos hclears
  · show p.calls.eraseP _ = []
    rw [hcalls, List.eraseP_cons_of_pos (by simpa using hkind)]
  · intro call hcall
    have hnone : (p.session.applied change (outcome.bind fun _ => result)).work.call? = none := by
      unfold LiveSession.applied
      split
      · rfl
      · split_ifs <;> rfl
    rw [hnone] at hcall
    cases hcall

theorem Current.pageCountSettled {result : Except JSString Nat} (h : Current p)
    (hstep : p.session.step platform (.pageCountSettled result) = some t) :
    Current ((p.settle (.pageCountSettled result)).advance t) := by
  obtain ⟨caller, revision, pages, error, hwork, rfl⟩ := LiveSession.step_pageCountSettled hstep
  obtain ⟨call, hcalls, hkind, _⟩ := h.call (by rw [hwork]; rfl)
  refine Rendered.current (h.toRendered.pagesCounted hwork) ?_ ?_
  · show p.calls.eraseP _ = []
    rw [hcalls, List.eraseP_cons_of_pos (by simpa using hkind)]
  · intro call hcall
    have hnone : (p.session.pagesCounted caller revision pages error result).work.call? = none := by
      unfold LiveSession.pagesCounted LiveSession.workFailed LiveSession.publish LiveSession.returned
      split
      · split <;> rfl
      · split_ifs <;> first | rfl | (cases caller <;> rfl)
    rw [hnone] at hcall
    cases hcall

theorem Current.pageSettled {result : Except JSString PageImage} (hs : Coherent p.session)
    (h : Current p) (hanswers : p.Answers (.pageSettled result))
    (hstep : p.session.step platform (.pageSettled result) = some t) :
    Current ((p.settle (.pageSettled result)).advance t) := by
  obtain ⟨caller, revision, pages, hwork, rfl⟩ := LiveSession.step_pageSettled hstep
  obtain ⟨call, hcalls, hkind, hasked, hcached⟩ := h.call (by rw [hwork]; rfl)
  have hrendering : p.rendering? = some (call, pages.length) := by
    simp [PreviewSession.rendering?, hcalls, hkind]
  have hsession : p.session.session.isSome = true := by
    have hpoint := hs.point
    rw [hwork] at hpoint
    exact hpoint.1
  -- what the cache has, and what the native session produced of the page
  have hsettled : Rendered (p.settle (.pageSettled result)).produced
        (p.settle (.pageSettled result)).renderedPages p.session ∧
      (p.settle (.pageSettled result)).calls = [] ∧
      (p.settle (.pageSettled result)).session = p.session ∧
      ∀ image, result = .ok image → ∃ production ∈ (p.settle (.pageSettled result)).produced,
        p.session.Now production ∧ production.page = pages.length ∧ production.image = image := by
    have herase : p.calls.erase call = [] := by rw [hcalls, List.erase_cons_head]
    cases hentry : call.cached with
    | some entry =>
        obtain rfl := hanswers (call, pages.length) hrendering entry hentry
        obtain ⟨hproduced, hnow, hpage⟩ := hcached entry hentry
        have hsame : p.settle (.pageSettled (.ok entry.image))
            = { p with calls := p.calls.erase call } := by
          simp only [PreviewSession.settle, hrendering, hentry]
        rw [hsame]
        refine ⟨h.toRendered, herase, rfl, ?_⟩
        intro image himage
        refine ⟨entry, hproduced, hnow, ?_, Except.ok.inj himage⟩
        exact (NativeCall.renderPage.inj (hkind.symm.trans hpage)).symm
    | none =>
        cases result with
        | error error =>
            have hsame : p.settle (.pageSettled (.error error))
                = { p with calls := p.calls.erase call } := by
              simp only [PreviewSession.settle, hrendering, hentry]
            rw [hsame]
            exact ⟨h.toRendered, herase, rfl, nofun⟩
        | ok image =>
            have hsame : p.settle (.pageSettled (.ok image))
                = { p with calls := p.calls.erase call }.setPage
                  (p.session.production call pages.length image) := by
              simp only [PreviewSession.settle, hrendering, hentry]
            have hnow : p.session.Now (p.session.production call pages.length image) := ⟨hasked, rfl⟩
            rw [hsame]
            refine ⟨h.toRendered.produces hnow hsession _, herase, rfl, ?_⟩
            intro image' himage
            exact ⟨_, List.mem_cons_self .., hnow, rfl, Except.ok.inj himage⟩
  obtain ⟨hrendered, hnil, hsame, hresult⟩ := hsettled
  refine Rendered.current (hrendered.pageRendered hwork hresult) hnil ?_
  rw [hsame, hwork]
  intro next hnext hbefore
  obtain rfl := Option.some.inj hbefore
  -- the page is not asked for twice
  unfold LiveSession.pageRendered LiveSession.nextPage LiveSession.returned at hnext
  split at hnext
  · cases hnext
  next pages' hadded =>
    cases result with
    | error error => cases hadded
    | ok image =>
        obtain rfl := LiveSession.addPage_length hadded
        split at hnext
        · cases caller <;> cases hnext
        · simp [Work.call?] at hnext

theorem Current.init : Current .new where
  unset := fun _ => rfl
  entries := nofun
  pages := nofun
  revision := nofun
  images := .nil
  calls := rfl
  pending := nofun

/-- **One step** of a session and its render cache. -/
theorem Current.step (hs : Coherent p.session) (hcoalesces : Coalesces p.session) (h : Current p)
    (hstep : p.step platform event = some q) : Current q := by
  unfold PreviewSession.step at hstep
  split at hstep
  next hanswers =>
    obtain ⟨t, ht, rfl⟩ := Option.map_eq_some_iff.mp hstep
    cases event with
    | applySettled result => exact h.applySettled hcoalesces ht
    | pageSettled result => exact h.pageSettled hs hanswers ht
    | pageCountSettled result => exact h.pageCountSettled ht
    | _ => exact h.goesOn hs hcoalesces rfl ht
  next => cases hstep

/-- The session of a run with a render cache is one of a run of the session. -/
theorem reachable_session {permitted : PreviewSession → LiveEvent → Prop}
    (h : (previewSystem platform).Reachable permitted p) :
    (liveSystem platform).Reachable (fun _ _ => True) p.session := by
  induction h with
  | init => exact .init
  | @step p q event hreach hpermitted hstep ih =>
      have hstep : p.step platform event = some q := hstep
      unfold PreviewSession.step at hstep
      split at hstep
      next =>
        obtain ⟨t, ht, rfl⟩ := Option.map_eq_some_iff.mp hstep
        exact .step ih trivial ht
      next => cases hstep

/-- **No stale page is published.**  At most one call of the native session is open; what a call
finds in the cache was produced after the last change handed over; and every image given to the
socket follows the metadata of a revision, and was produced after the change of that revision and
before the next one. -/
theorem PreviewSession.no_stale_page {permitted : PreviewSession → LiveEvent → Prop}
    (h : (previewSystem platform).Reachable permitted p) :
    p.calls.length ≤ 1 ∧
      (∀ call ∈ p.calls, ∀ entry ∈ call.cached, entry ∈ p.produced ∧ p.session.Now entry) ∧
      Imaged (Fresh p.produced p.session) p.session.sent := by
  have hcurrent : Current p := by
    refine h.invariant Current.init ?_
    intro p event q hreach _ hp hstep
    have hsession := reachable_session hreach
    exact hp.step (reachable_coherent hsession) (reachable_coalesces hsession) hstep
  refine ⟨?_, ?_, hcurrent.images.images⟩
  · rw [← List.length_map (f := PendingCall.call), hcurrent.calls]
    exact Option.length_toList_le
  · intro call hmem entry hentry
    obtain ⟨hproduced, hnow, _⟩ := (hcurrent.pending call hmem).2 entry hentry
    exact ⟨hproduced, hnow⟩

/-- The document of one page is published. -/
theorem PreviewSession.no_stale_page_published :
    let p := (previewSystem .posix).after (fun _ _ => true)
      (OneFileSession.startUp ++ OneFileSession.publishing)
    Frame.binary [0] ∈ p.session.sent ∧ Imaged (Fresh p.produced p.session) p.session.sent :=
  ⟨by decide, (no_stale_page (Core.System.reachable_after (fun _ _ _ => trivial) _ :
    (previewSystem .posix).Reachable (fun _ _ => True) _)).2.2⟩

end Typr
