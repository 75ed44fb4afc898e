import TyprCompanion.LivePreview.Resources

/-!
# Teardown

What is left of a session once `initialize` and `close` are over.

* `CleanedUp` — the directory is gone, the native session is closed and no timer is armed.
* `leaks`, `rearmed` — the steps that leave a directory behind, and the frames that arm the idle timer
  after `close` cleared it.
* `Balanced` — what is held in every state of a run.
* **`cleanedUp_iff`** — a finished session is cleaned up exactly when no step leaked and no frame
  armed the timer again.
-/

namespace Typr

/-- `close` has not removed the directory yet, nor found that there is none. -/
def Closer.mayRemove : Closer → Bool
  | idle | notifying | tearingDown true _ => true
  | tearingDown false _ | done => false

/-- The temporary directory is in use. -/
def Work.inWorkspace : Work → Bool
  | materialize _ _ _ _ | start _ => true
  | _ => false

/-- `rm` fails. -/
def LiveEvent.isFailedRemoval : LiveEvent → Bool
  | removeSettled removed => !removed
  | _ => false

namespace LiveSession

/-- The event makes the temporary directory, or directories in it. -/
def makesDirectory (s : LiveSession) : LiveEvent → Bool
  | .mkdtempSettled (.ok _) => true
  | .materializeSettled (.ok _) => match s.work with
    | .materialize _ _ _ writing => !writing
    | _ => false
  | .prepareEnvironment => true
  | _ => false

/-- The event leaves a directory that `close` does not remove any more. -/
def leaks (s : LiveSession) (event : LiveEvent) : Bool :=
  (s.makesDirectory event && !s.closer.mayRemove) || event.isFailedRemoval

/-- Whether the idle timer was armed again: by a frame after `close` began, unless it fired since. -/
def rearms (s : LiveSession) (event : LiveEvent) (before : Bool) : Bool :=
  match event with
  | .frame _ => s.isClosing || before
  | .idleTimeout => false
  | _ => before

/-- `initialize`, if it was called, and `close` are over. -/
def Finished (s : LiveSession) : Prop := s.initializing = false ∧ s.closer = .done

/-- **Nothing is left**: no directory, no open native session and no timer. -/
structure CleanedUp (s : LiveSession) : Prop where
  directory : s.directory = false
  native : s.native.live = false
  idleTimer : s.idleTimer = false
  lifetimeTimer : s.lifetimeTimer = false

end LiveSession

/-- Whether one of the steps leaked. -/
def leaked (steps : List (LiveSession × LiveEvent)) : Bool := steps.any fun step => step.1.leaks step.2

/-- Whether the idle timer was armed again after these steps, the last one first. -/
def rearmed (steps : List (LiveSession × LiveEvent)) : Bool :=
  steps.foldr (fun step before => step.1.rearms step.2 before) false

/-- **What is held** in a state of a run. -/
structure Balanced (leaked rearmed : Bool) (r : Resources) (work : Work) : Prop where
  workspace : work.inWorkspace = true → r.workspace = true
  session : r.session.isSome = true → r.workspace = true
  starting : r.native = .starting → ∃ message, work = .start message
  started : ∀ message, work = .start message → r.native = .starting
  running : r.native = .running → r.session.isSome = true
  closing : r.native = .closing → r.session.isSome = true ∨ ∃ revision, work = .discard revision
  opened : r.isClosing = false ↔ r.closer = .idle
  notifying : r.closer = .notifying → r.farewells = 1
  notified : r.closer ≠ .notifying → r.farewells = 0
  lifetimeTimer : r.isClosing = true → r.lifetimeTimer = false
  idleTimer : r.isClosing = true → r.idleTimer = rearmed
  unarmed : r.isClosing = false → rearmed = false
  done : r.closer = .done → r.session.isSome = true → r.native = .closed
  kept : r.closer.mayRemove = true → leaked = false ∧ r.directory = r.workspace
  removed : r.closer.mayRemove = false → r.directory = leaked
  removing : ∀ notifyClient, r.closer = .tearingDown true notifyClient → r.workspace = true

variable {platform : Platform} {s t : LiveSession} {event : LiveEvent} {l k : Bool} {r r' : Resources}
  {work work' : Work}

namespace Balanced

/-- Where the work is decides only about the native session and the directory. -/
theorem at_work (h : Balanced l k r work) (hworkspace : work'.inWorkspace = true → r.workspace = true)
    (hstart : ∀ message, work' ≠ .start message) (hstarting : r.native ≠ .starting) (hclosing : r.native = .closing → r.session.isSome = true) :
    Balanced l k r work' :=
  { h with
    workspace := hworkspace
    starting := fun h => absurd h hstarting
    started := fun message hwork => absurd hwork (hstart message)
    closing := fun hnative => .inl (hclosing hnative) }

theorem not_inWorkspace (h : work.isStartUp = false) : work.inWorkspace = false := by
  cases work <;> first | rfl | cases h

theorem not_start (h : work.isStartUp = false) (message : TexpressoInitializeMessage) :
    work ≠ .start message := by
  rintro rfl
  cases h

theorem not_starting (h : Balanced l k r work) (hstart : ∀ message, work ≠ .start message) :
    r.native ≠ .starting := by
  intro hnative
  obtain ⟨message, hwork⟩ := h.starting hnative
  exact hstart message hwork

theorem session_of_closing (h : Balanced l k r work)
    (hdiscard : ∀ revision, work ≠ .discard revision) (hnative : r.native = .closing) :
    r.session.isSome = true := by
  rcases h.closing hnative with hsession | ⟨revision, hwork⟩
  · exact hsession
  · exact absurd hwork (hdiscard revision)

/-- Past start-up. -/
theorem past (h : Balanced l k r work) (hpast : work'.isStartUp = false)
    (hstart : ∀ message, work ≠ .start message) (hdiscard : ∀ revision, work ≠ .discard revision) :
    Balanced l k r work' := by
  refine h.at_work ?_ ?_ (h.not_starting hstart) (h.session_of_closing hdiscard)
  · rw [not_inWorkspace hpast]
    exact fun h => Bool.noConfusion h
  · exact not_start hpast

/-- `close` is about to remove the directory, if there is one. -/
theorem tearsDown (h : Balanced l k r work) (hbefore : r.closer.mayRemove = true)
    {idleTimer lifetimeTimer isClosing : Bool} (hidle : idleTimer = k)
    (hlifetime : lifetimeTimer = false) (hclosing : isClosing = true) {farewells : Nat}
    (hfarewells : farewells = 0) (notifyClient : Bool) :
    Balanced l k (Resources.tearDown notifyClient { r with
      idleTimer := idleTimer
      lifetimeTimer := lifetimeTimer
      isClosing := isClosing
      farewells := farewells }) work := by
  obtain ⟨hleaked, hdirectory⟩ := h.kept hbefore
  have hnative : (if r.session.isSome = true then r.native.close else r.native) = r.native ∨
      r.session.isSome = true ∧ r.native = .running ∧
        (if r.session.isSome = true then r.native.close else r.native) = .closing := by
    by_cases hsession : r.session.isSome = true
    · cases hrunning : r.native with
      | running => exact .inr ⟨hsession, rfl, by rw [if_pos hsession]; rfl⟩
      | _ => exact .inl (by rw [if_pos hsession]; rfl)
    · exact .inl (if_neg hsession)
  refine
    { workspace := h.workspace
      session := h.session
      starting := ?_
      started := ?_
      running := ?_
      closing := ?_
      opened := ⟨fun hopen => Bool.noConfusion (hclosing.symm.trans hopen), fun h => Closer.noConfusion h⟩
      notifying := fun h => Closer.noConfusion h
      notified := fun _ => hfarewells
      lifetimeTimer := fun _ => hlifetime
      idleTimer := fun _ => hidle
      unarmed := fun hopen => Bool.noConfusion (hclosing.symm.trans hopen)
      done := fun h => Closer.noConfusion h
      kept := fun _ => ⟨hleaked, hdirectory⟩
      removed := ?_
      removing := ?_ }
  · intro hstarting
    rcases hnative with hsame | ⟨-, -, hclosing⟩
    · exact h.starting (hsame.symm.trans hstarting)
    · exact NativeLife.noConfusion (hclosing.symm.trans hstarting)
  · intro message hwork
    rcases hnative with hsame | ⟨-, hrunning, -⟩
    · exact hsame.trans (h.started message hwork)
    · exact NativeLife.noConfusion (hrunning.symm.trans (h.started message hwork))
  · intro hrunning
    rcases hnative with hsame | ⟨hsession, -, -⟩
    · exact h.running (hsame.symm.trans hrunning)
    · exact hsession
  · intro hclosing
    rcases hnative with hsame | ⟨hsession, -, -⟩
    · exact h.closing (hsame.symm.trans hclosing)
    · exact .inl hsession
  · intro hremoved
    have hnone : r.workspace = false := by
      cases hworkspace : r.workspace with
      | false => rfl
      | true =>
          simp [Resources.tearDown, hworkspace, Closer.mayRemove] at hremoved
    show r.directory = l
    rw [hdirectory, hnone, hleaked]
  · intro notifyClient' hcloser
    exact (Closer.tearingDown.inj hcloser).1

theorem mayRemove_of_open (h : Balanced l k r work) (hopen : r.isClosing = false) :
    r.closer.mayRemove = true := by
  rw [h.opened.mp hopen]
  rfl

/-- `close` begins, or nothing happens. -/
theorem mayClose (h : Balanced l k r work) (hcloses : Resources.MayClose r r') :
    Balanced l k r' work := by
  cases hcloses with
  | stays => exact h
  | notifies hopen =>
      have hidle := h.opened.mp hopen
      have hnone : r.farewells = 0 := h.notified (by rw [hidle]; simp)
      exact { h with
        opened := ⟨fun h => Bool.noConfusion h, fun h => Closer.noConfusion h⟩
        notifying := fun _ => congrArg (· + 1) hnone
        notified := fun hne => absurd rfl hne
        lifetimeTimer := fun _ => rfl
        idleTimer := fun _ => (h.unarmed hopen).symm
        unarmed := fun h => Bool.noConfusion h
        done := fun h => Closer.noConfusion h
        kept := fun _ => h.kept (h.mayRemove_of_open hopen)
        removed := fun h => Bool.noConfusion h
        removing := fun _ h => Closer.noConfusion h }
  | tearsDown hopen notifyClient =>
      have hidle := h.opened.mp hopen
      exact h.tearsDown (h.mayRemove_of_open hopen) (h.unarmed hopen).symm rfl rfl
        (h.notified (by rw [hidle]; simp)) notifyClient

theorem passes (h : Balanced l k s.resources s.work) (hpasses : Bystands s t) :
    Balanced l k t.resources t.work := by
  have hcloses := h.mayClose hpasses.resources
  rcases hpasses.work with hsame | ⟨hpast, hpast'⟩
  · rw [hsame]
    exact hcloses
  · refine hcloses.past hpast' ?_ ?_
    · intro message hwork
      rw [hwork] at hpast
      cases hpast
    · intro revision hwork
      rw [hwork] at hpast
      cases hpast

/-- What is held is what the resources and the work tell. -/
theorem of_eq (h : Balanced l k r work) (hresources : t.resources = r) (hwork : t.work = work) :
    Balanced l k t.resources t.work := by
  rw [hresources, hwork]
  exact h

theorem rearm (h : Balanced l k r work) :
    Balanced l (r.isClosing || k) { r with idleTimer := true } work where
  __ := h
  idleTimer := fun hclosing => (Bool.or_eq_true_iff.mpr (.inl hclosing)).symm
  unarmed := fun hopen => Bool.or_eq_false_iff.mpr ⟨hopen, h.unarmed hopen⟩

theorem fire (h : Balanced l k r work) : Balanced l false { r with idleTimer := false } work where
  __ := h
  idleTimer := fun _ => rfl
  unarmed := fun _ => rfl

/-- The start-up goes on from the directory it made. -/
theorem materializes {files : List ProjectFile} (h : Balanced l k r work) (hworkspace : r.workspace = true)
    (hsession : r.session = none) (hstart : ∀ message, work ≠ .start message)
    (hdiscard : ∀ revision, work ≠ .discard revision) (hm : Materializes files r t) :
    Balanced l k t.resources t.work := by
  cases hm with
  | starts message hfiles hwork hresources =>
      refine of_eq ?_ hresources hwork
      exact { h with
        workspace := fun _ => hworkspace
        starting := fun _ => ⟨message, rfl⟩
        started := fun _ _ => rfl
        running := fun h => NativeLife.noConfusion h
        closing := fun h => NativeLife.noConfusion h
        done := fun _ hsome => absurd (hsession ▸ hsome) (by simp) }
  | fails hpast hresources => exact (h.past hpast hstart hdiscard).of_eq hresources rfl
  | continues message file rest hwork hresources =>
      exact of_eq (h.at_work (fun _ => hworkspace) (by simp) (h.not_starting hstart)
        (h.session_of_closing hdiscard)) hresources hwork

/-- The directory is made, or made again. -/
theorem made (h : Balanced l k r work) :
    Balanced (!r.closer.mayRemove || l) k { r with workspace := true, directory := true } work where
  __ := h
  workspace := fun _ => rfl
  session := fun _ => rfl
  kept := fun hmay => ⟨by rw [hmay, (h.kept hmay).1]; rfl, rfl⟩
  removed := fun hmay => by rw [hmay]; rfl
  removing := fun _ _ => rfl

theorem madeAgain (h : Balanced l k r work) (hworkspace : r.workspace = true) :
    Balanced (!r.closer.mayRemove || l) k { r with directory := true } work := by
  cases r
  obtain rfl := hworkspace
  exact h.made

/-- `rm` settles. -/
theorem removes (h : Balanced l k r work) {notifyClient : Bool}
    (hcloser : r.closer = .tearingDown true notifyClient) (removed : Bool) :
    Balanced (!removed || l) k { r with
      directory := r.directory && !removed
      closer := .tearingDown false notifyClient } work := by
  have hmay : r.closer.mayRemove = true := by
    rw [hcloser]
    rfl
  obtain ⟨hleaked, hdirectory⟩ := h.kept hmay
  have hclosing : r.isClosing ≠ false := fun hopen =>
    Closer.noConfusion ((h.opened.mp hopen).symm.trans hcloser)
  exact { h with
    opened := ⟨fun hopen => absurd hopen hclosing, fun h => Closer.noConfusion h⟩
    notifying := fun h => Closer.noConfusion h
    notified := fun _ => h.notified (by rw [hcloser]; simp)
    done := fun h => Closer.noConfusion h
    kept := fun h => Bool.noConfusion h
    removed := fun _ => by
      rw [hdirectory, h.removing notifyClient hcloser, hleaked, Bool.true_and, Bool.or_false]
    removing := fun _ h => Bool.noConfusion (Closer.tearingDown.inj h).1 }

/-- `close` is over. -/
theorem finishes (h : Balanced l k r work) {notifyClient : Bool}
    (hcloser : r.closer = .tearingDown false notifyClient)
    (hnative : r.session.isSome = true → r.native = .closed) :
    Balanced l k { r with closer := .done } work := by
  have hclosing : r.isClosing ≠ false := fun hopen =>
    Closer.noConfusion ((h.opened.mp hopen).symm.trans hcloser)
  have hremoved : r.closer.mayRemove = false := by
    rw [hcloser]
    rfl
  exact { h with
    opened := ⟨fun hopen => absurd hopen hclosing, fun h => Closer.noConfusion h⟩
    notifying := fun h => Closer.noConfusion h
    notified := fun _ => h.notified (by rw [hcloser]; simp)
    done := fun _ => hnative
    kept := fun h => Bool.noConfusion h
    removed := fun _ => h.removed hremoved
    removing := fun _ h => Closer.noConfusion h }

end Balanced

theorem leaks_of_plain (h : event.isPlain = true) : s.leaks event = false := by
  cases event with
  | mkdtempSettled result | materializeSettled result =>
      cases result with
      | ok => cases h
      | error => rfl
  | _ => first | rfl | cases h

theorem rearms_of_plain (h : event.isPlain = true) : s.rearms event k = k := by
  cases event <;> first | rfl | cases h

/-- **Every step** keeps account of what is held. -/
theorem Balanced.step (h : Balanced l k s.resources s.work) (hs : Coherent s)
    (hstep : ResourceStep s t event) :
    Balanced (s.leaks event || l) (s.rearms event k) t.resources t.work := by
  have hpoint := hs.point
  have hdone (hsession : s.session = none) (hsome : s.resources.session.isSome = true) {p : Prop} : p :=
    absurd hsome (by rw [show s.resources.session = none from hsession]; simp)
  cases hstep with
  | receives hpasses => exact passes (s := { s with idleTimer := true }) h.rearm hpasses
  | initializes message hclosing hpast hwork hresources =>
      refine of_eq (h.rearm.at_work (fun h => Bool.noConfusion h) (by simp) ?_ ?_) hresources hwork
      · exact h.not_starting fun message hstart => by rw [hstart] at hpast; cases hpast
      · exact h.session_of_closing fun revision hdiscard => by rw [hdiscard] at hpast; cases hpast
  | idles hpasses => exact passes (s := { s with idleTimer := false }) h.fire hpasses
  | expires hpasses =>
      have hexpired : Balanced l k { s.resources with lifetimeTimer := false } s.work :=
        { h with lifetimeTimer := fun _ => rfl }
      exact passes (s := { s with lifetimeTimer := false }) hexpired hpasses
  | passes hplain hpasses =>
      rw [leaks_of_plain hplain, rearms_of_plain hplain]
      exact h.passes hpasses
  | tearsDown hplain hwork hfarewells hresources =>
      rw [leaks_of_plain hplain, rearms_of_plain hplain]
      have hcloser : s.resources.closer = .notifying := by
        by_contra hne
        have hnone := h.notified hne
        omega
      have hone := h.notifying hcloser
      have hclosing : s.resources.isClosing = true := by
        rw [← Bool.not_eq_false]
        intro hopen
        exact Closer.noConfusion ((h.opened.mp hopen).symm.trans hcloser)
      have hmay : s.resources.closer.mayRemove = true := by
        rw [hcloser]
        rfl
      have htorn := h.tearsDown hmay (h.idleTimer hclosing) (h.lifetimeTimer hclosing) hclosing
        (show t.resources.farewells = 0 by omega) true
      exact of_eq htorn hresources hwork
  | fails hplain hwork hdiscard hpast hresources =>
      rw [leaks_of_plain hplain, rearms_of_plain hplain]
      exact (h.past hpast hwork hdiscard).of_eq hresources rfl
  | makes message hwork hm =>
      rw [hwork] at hpoint
      have hleaks : s.leaks (.mkdtempSettled (.ok ())) = !s.resources.closer.mayRemove := by
        simp [LiveSession.leaks, LiveSession.makesDirectory, LiveEvent.isFailedRemoval,
          LiveSession.resources]
      rw [hleaks]
      exact h.made.materializes rfl hpoint (by rw [hwork]; simp) (by rw [hwork]; simp) hm
  | makesParent message file rest hwork hwork' hresources =>
      have hworkspace := h.workspace (by rw [hwork]; rfl)
      have hleaks : s.leaks (.materializeSettled (.ok ())) = !s.resources.closer.mayRemove := by
        simp [LiveSession.leaks, LiveSession.makesDirectory, LiveEvent.isFailedRemoval,
          LiveSession.resources, hwork]
      rw [hleaks]
      refine of_eq ((h.madeAgain hworkspace).at_work (fun _ => hworkspace) (by simp) ?_ ?_)
        hresources hwork'
      · exact h.not_starting (by rw [hwork]; simp)
      · exact h.session_of_closing (by rw [hwork]; simp)
  | writes message file rest hwork hm =>
      rw [hwork] at hpoint
      have hleaks : s.leaks (.materializeSettled (.ok ())) = false := by
        simp [LiveSession.leaks, LiveSession.makesDirectory, LiveEvent.isFailedRemoval, hwork]
      rw [hleaks]
      exact h.materializes (h.workspace (by rw [hwork]; rfl)) hpoint (by rw [hwork]; simp)
        (by rw [hwork]; simp) hm
  | prepares hwork hstarted hresources =>
      have hworkspace : s.resources.workspace = true := by
        rcases hstarted with ⟨message, hstart⟩ | hsession
        · exact h.workspace (by rw [hstart]; rfl)
        · exact h.session hsession
      have hleaks : s.leaks .prepareEnvironment = !s.resources.closer.mayRemove := by
        simp [LiveSession.leaks, LiveSession.makesDirectory, LiveEvent.isFailedRemoval,
          LiveSession.resources]
      rw [hleaks]
      exact (h.madeAgain hworkspace).of_eq hresources hwork
  | discards message hwork hclosing revision hwork' hresources =>
      rw [hwork] at hpoint
      refine of_eq ?_ hresources hwork'
      exact { h with
        workspace := fun h => Bool.noConfusion h
        starting := fun h => NativeLife.noConfusion h
        started := fun _ h => Work.noConfusion h
        running := fun h => NativeLife.noConfusion h
        closing := fun _ => .inr ⟨revision, rfl⟩
        done := fun _ hsome => hdone hpoint hsome }
  | adopts message hwork hclosing hpast session hresources =>
      refine of_eq ?_ hresources rfl
      have hidle := h.opened.mp hclosing
      exact { h with
        workspace := fun _ => h.workspace (by rw [hwork]; rfl)
        session := fun _ => h.workspace (by rw [hwork]; rfl)
        starting := fun h => NativeLife.noConfusion h
        started := fun message h => absurd h (not_start hpast message)
        running := fun _ => rfl
        closing := fun h => NativeLife.noConfusion h
        done := fun hcloser => Closer.noConfusion (hidle.symm.trans hcloser) }
  | startFails message hwork hpast hresources =>
      refine of_eq ?_ hresources rfl
      exact { h with
        workspace := fun _ => h.workspace (by rw [hwork]; rfl)
        starting := fun h => NativeLife.noConfusion h
        started := fun message h => absurd h (not_start hpast message)
        running := fun h => NativeLife.noConfusion h
        closing := fun h => NativeLife.noConfusion h
        done := fun _ _ => rfl }
  | timesOut hrunning hwork hresources =>
      refine of_eq ?_ hresources hwork
      have hsession := h.running hrunning
      exact { h with
        starting := fun h => NativeLife.noConfusion h
        started := fun message hstart =>
          NativeLife.noConfusion (hrunning.symm.trans (h.started message hstart))
        running := fun h => NativeLife.noConfusion h
        closing := fun _ => .inl hsession
        done := fun hcloser hsome =>
          NativeLife.noConfusion (hrunning.symm.trans (h.done hcloser hsome)) }
  | closed hnative hwork hresources =>
      refine of_eq ?_ hresources rfl
      have hworkspace : t.work.inWorkspace = true → s.resources.workspace = true := by
        rcases hwork with ⟨hsame, -⟩ | ⟨hpast, -⟩
        · rw [hsame]
          exact h.workspace
        · rw [not_inWorkspace hpast]
          exact fun h => Bool.noConfusion h
      have hstarted (message : TexpressoInitializeMessage) : t.work = .start message →
          NativeLife.closed = .starting := by
        intro hstart
        rcases hwork with ⟨hsame, -⟩ | ⟨hpast, -⟩
        · exact NativeLife.noConfusion
            (hnative.symm.trans (h.started message (hsame.symm.trans hstart)))
        · exact absurd hstart (not_start hpast message)
      exact { h with
        workspace := hworkspace
        starting := fun h => NativeLife.noConfusion h
        started := hstarted
        running := fun h => NativeLife.noConfusion h
        closing := fun h => NativeLife.noConfusion h
        done := fun _ _ => rfl }
  | @removes removed notifyClient hcloser hwork hresources =>
      have hleaks : s.leaks (.removeSettled removed) = !removed := rfl
      rw [hleaks]
      exact (h.removes hcloser removed).of_eq hresources hwork
  | finishes hcloser hnative hwork hresources => exact (h.finishes hcloser hnative).of_eq hresources hwork

/-! ## Runs -/

theorem balanced_new : Balanced false false LiveSession.new.resources LiveSession.new.work where
  workspace := fun h => Bool.noConfusion h
  session := fun h => Bool.noConfusion h
  starting := fun h => NativeLife.noConfusion h
  started := fun _ h => Work.noConfusion h
  running := fun h => NativeLife.noConfusion h
  closing := fun h => NativeLife.noConfusion h
  opened := ⟨fun _ => rfl, fun _ => rfl⟩
  notifying := fun h => Closer.noConfusion h
  notified := fun _ => rfl
  lifetimeTimer := fun h => Bool.noConfusion h
  idleTimer := fun h => Bool.noConfusion h
  unarmed := fun _ => rfl
  done := fun h => Closer.noConfusion h
  kept := fun _ => ⟨rfl, rfl⟩
  removed := fun h => Bool.noConfusion h
  removing := fun _ h => Closer.noConfusion h

/-- **Every run** keeps account of what is held. -/
theorem balanced_of_trace {steps : List (LiveSession × LiveEvent)}
    (h : (liveSystem platform).Trace steps s) :
    Coherent s ∧ Balanced (leaked steps) (rearmed steps) s.resources s.work := by
  induction h with
  | init => exact ⟨.init, balanced_new⟩
  | @step steps s t event _ hstep ih =>
      obtain ⟨hs, hheld⟩ := ih
      exact ⟨hs.stepped (hs.step_cases hstep), hheld.step hs (resourceStep hs hstep)⟩

/-- Start-up is over once `initialize` is. -/
theorem Coherent.isStartUp_of_finished (hs : Coherent s) (hfinished : s.Finished) :
    s.work.isStartUp = false := by
  by_contra hstart
  rw [Bool.not_eq_false] at hstart
  have hup := hs.initializing.mpr (Work.caller_of_isStartUp hstart)
  exact Bool.noConfusion (hup.symm.trans hfinished.1)

/-- No native session is open once both methods are over, whatever happened before. -/
theorem Balanced.native_closed (h : Balanced l k s.resources s.work) (hs : Coherent s)
    (hfinished : s.Finished) : s.native.live = false := by
  have hpast := hs.isStartUp_of_finished hfinished
  have hclosed (hsession : s.session.isSome = true) : s.native.live = false := by
    rw [show s.native = .closed from h.done hfinished.2 hsession]
    rfl
  cases hnative : s.native with
  | unstarted | closed => rfl
  | starting =>
      obtain ⟨message, hwork⟩ := h.starting hnative
      rw [hwork] at hpast
      cases hpast
  | running =>
      rw [← hnative]
      exact hclosed (h.running hnative)
  | closing =>
      rcases h.closing hnative with hsession | ⟨revision, hwork⟩
      · rw [← hnative]
        exact hclosed hsession
      · rw [hwork] at hpast
        cases hpast

/-- **Teardown.**  Once `initialize` and `close` are over nothing is left, exactly when no step left a
directory behind and no frame armed the idle timer again for good. -/
theorem cleanedUp_iff (platform : Platform) {steps : List (LiveSession × LiveEvent)} {s : LiveSession}
    (h : (liveSystem platform).Trace steps s) (hfinished : s.Finished) :
    s.CleanedUp ↔ leaked steps = false ∧ rearmed steps = false := by
  obtain ⟨hs, hheld⟩ := balanced_of_trace h
  have hremoved : s.closer.mayRemove = false := by
    rw [hfinished.2]
    rfl
  have hclosing : s.isClosing = true := by
    rw [← Bool.not_eq_false]
    intro hopen
    exact Closer.noConfusion ((hheld.opened.mp hopen).symm.trans hfinished.2)
  have hdirectory : s.directory = leaked steps := hheld.removed hremoved
  have hidle : s.idleTimer = rearmed steps := hheld.idleTimer hclosing
  rw [← hdirectory, ← hidle]
  constructor
  · intro hclean
    exact ⟨hclean.directory, hclean.idleTimer⟩
  · rintro ⟨hgone, hquiet⟩
    exact
      { directory := hgone
        native := hheld.native_closed hs hfinished
        idleTimer := hquiet
        lifetimeTimer := hheld.lifetimeTimer hclosing }

namespace OneFileSession

/-- The socket is closed after start-up. -/
def closed : List LiveEvent :=
  startUp ++ [.socketClosed, .sendFrame, .snapshotTaken ⟨[], [], .success⟩, .resume,
    .removeSettled true, .nativeClosed, .closeFinishes]

/-- The socket is closed while the directory is being made. -/
def closedEarly : List LiveEvent :=
  [.frame initializeFrame, .socketClosed, .closeFinishes, .mkdtempSettled (.ok ()),
    .materializeSettled (.ok ()), .materializeSettled (.ok ()),
    .startSettled (.ok ⟨.texpresso, 1⟩), .nativeClosed, .resume]

/-- A frame arrives while `session-closed` is being sent. -/
def lateFrame : List LiveEvent :=
  [.serverShutdown, .frame (.text none), .sendFrame, .sendSettled (.ok ()), .closeFinishes]

end OneFileSession

/-- A session whose socket is closed is cleaned up. -/
theorem cleanedUp_closed :
    LiveSession.CleanedUp ((liveSystem .posix).stateFrom .new OneFileSession.closed) :=
  (cleanedUp_iff .posix (Core.System.trace_after (liveSystem .posix) OneFileSession.closed)
    ⟨by decide +kernel, by decide +kernel⟩).mpr ⟨by decide +kernel, by decide +kernel⟩

/-- The directory made after `close` looked for one stays, and so does the timer a late frame armed. -/
theorem left_behind :
    (∃ s, (liveSystem .posix).Reachable (fun _ _ => True) s ∧ s.Finished ∧ s.directory = true) ∧
    (∃ s, (liveSystem .posix).Reachable (fun _ _ => True) s ∧ s.Finished ∧ s.idleTimer = true) :=
  ⟨⟨_, OneFileSession.reachable_after OneFileSession.closedEarly,
      ⟨by decide +kernel, by decide +kernel⟩, by decide +kernel⟩,
    ⟨_, OneFileSession.reachable_after OneFileSession.lateFrame,
      ⟨by decide +kernel, by decide +kernel⟩, by decide +kernel⟩⟩

end Typr
