import TyprCompanion.Core.Pool
import TyprCompanion.LivePreview.Teardown
import TyprCompanion.Server.CompanionServer

/-!
# The live previews of a server

`server.ts`: a WebSocket upgrade is admitted while fewer than `MAX_ACTIVE_LIVE_SESSIONS` sessions are
active; a session is active until its `close` is over.

* `liveServer` — the sessions of a server as a pool, each with a slot until it is closed.
* **`admitUpgrade_opens`** — `handleUpgrade` opens a session only into a free slot.
* `keepsSlot` — the steps of a session that leave no native session without a slot.
* **`activeSessions_le`**, **`natives_le`** — the active sessions are bounded in every run, the native
  sessions where every step keeps its slot.
-/

namespace Typr

open Core

/-! ## Admission -/

/-- `handleUpgrade`, once authorized, opens a session only into a free slot, and at most one. -/
theorem admitUpgrade_opens {p : AccessPlatform} {context : RequestContext} {request : HttpRequest}
    {s t : ServerState} {result : Except ServerFailure Unit}
    (h : (admitUpgrade context request).Eval (ServerOp.Exec p) s result t) :
    t.activeLiveSessions = s.activeLiveSessions ∨
      s.activeLiveSessions < MAX_ACTIVE_LIVE_SESSIONS ∧
        t.activeLiveSessions = s.activeLiveSessions + 1 := by
  let post (t : ServerState) : Prop := t.activeLiveSessions = s.activeLiveSessions ∨
    s.activeLiveSessions < MAX_ACTIVE_LIVE_SESSIONS ∧
      t.activeLiveSessions = s.activeLiveSessions + 1
  have hwp : (admitUpgrade context request).wp (ServerOp.Exec p) (fun _ _ => True)
      (fun _ t => post t) s := by
    unfold admitUpgrade
    split
    · refine ⟨trivial, ?_⟩
      rintro - t rfl
      exact .inl rfl
    · refine ⟨trivial, ?_⟩
      rintro active t ⟨rfl, rfl⟩
      show Prog.wp _ _ _ (if _ then _ else _) _
      split
      · refine ⟨trivial, ?_⟩
        rintro - t rfl
        exact .inl rfl
      · next hfree =>
          refine ⟨trivial, ?_⟩
          rintro accepted t (rfl | ⟨rfl, rfl⟩)
          · show Prog.wp _ _ _ (if _ then _ else _) _
            split
            · refine ⟨trivial, ?_⟩
              rintro - t rfl
              exact .inr ⟨Nat.lt_of_not_le hfree, rfl⟩
            · exact .inl rfl
          · exact .inl rfl
  exact Prog.wp_sound hwp h

/-! ## Slots -/

/-- `close` is over. -/
def Closer.isDone : Closer → Bool
  | done => true
  | _ => false

/-- The end of `close`. -/
def LiveEvent.endsClose : LiveEvent → Bool
  | closeFinishes => true
  | _ => false

namespace LiveSession

/-- The event begins the start of the native session: no file is left to write. -/
def beginsNative (s : LiveSession) (event : LiveEvent) : Bool :=
  match event, s.work with
  | .mkdtempSettled (.ok _), .mkdtemp message => message.files.isEmpty
  | .materializeSettled (.ok _), .materialize _ _ rest true => rest.isEmpty
  | _, _ => false

/-- `close` does not end while the native session is open, and none is begun after it ended. -/
def keepsSlot (s : LiveSession) (event : LiveEvent) : Bool :=
  !(event.endsClose && s.native.live) && !(s.closer.isDone && s.beginsNative event)

end LiveSession

/-- The sessions of a server; `context.activeLiveSessions` are those that hold a slot. -/
def liveServer (platform : Platform) : Pool LiveSession LiveEvent where
  component := liveSystem platform
  holds s := !s.closer.isDone
  bound := MAX_ACTIVE_LIVE_SESSIONS

/-- `context.activeLiveSessions.size` -/
def activeLiveSessions (sessions : List LiveSession) : Nat :=
  sessions.countP fun s => !s.closer.isDone

/-- The native sessions that were begun and are not closed. -/
def nativeSessions (sessions : List LiveSession) : Nat := sessions.countP fun s => s.native.live

section Slots

variable {platform : Platform} {s t : LiveSession} {event : LiveEvent} {l k : Bool} {r r' : Resources}

theorem closer_of_isDone {closer : Closer} (h : closer.isDone = true) : closer = .done := by
  cases closer <;> first | rfl | cases h

theorem Resources.MayClose.eq_of_closing (h : MayClose r r') (hclosing : r.isClosing = true) :
    r' = r := by
  cases h with
  | stays => rfl
  | notifies hopen | tearsDown hopen => exact Bool.noConfusion (hopen.symm.trans hclosing)

/-- A session that closes does not end `close` at once. -/
theorem Resources.MayClose.closer (h : MayClose r r') (hdone : r'.closer = .done) :
    r.closer = .done := by
  cases h with
  | stays => exact hdone
  | notifies | tearsDown => cases hdone

theorem Balanced.closing_of_done {work : Work} (h : Balanced l k r work) (hdone : r.closer = .done) :
    r.isClosing = true := by
  rw [← Bool.not_eq_false]
  intro hopen
  exact Closer.noConfusion ((h.opened.mp hopen).symm.trans hdone)

/-- **After `close`** nothing is acquired but what start-up still begins. -/
theorem Balanced.after_done (h : Balanced l k s.resources s.work) (hstep : ResourceStep s t event)
    (hdone : s.closer = .done) :
    t.closer = .done ∧ (t.native.live = true → s.native.live = true ∨ s.beginsNative event = true) := by
  have hclosing := h.closing_of_done hdone
  have hsame {r : Resources} (hr : t.resources = r) (hcloser : r.closer = s.closer)
      (hnative : r.native.live = true → s.native.live = true ∨ s.beginsNative event = true) :
      t.closer = .done ∧
        (t.native.live = true → s.native.live = true ∨ s.beginsNative event = true) := by
    rw [show t.closer = r.closer from congrArg Resources.closer hr,
      show t.native = r.native from congrArg Resources.native hr]
    exact ⟨hcloser.trans hdone, hnative⟩
  cases hstep with
  | receives hpasses | idles hpasses | expires hpasses =>
      exact hsame (hpasses.resources.eq_of_closing hclosing) rfl .inl
  | passes hplain hpasses => exact hsame (hpasses.resources.eq_of_closing hclosing) rfl .inl
  | initializes message hopen => exact Bool.noConfusion (hopen.symm.trans hclosing)
  | tearsDown hplain hwork hfarewells hresources =>
      have hnone : s.resources.farewells = 0 := h.notified fun hcloser =>
        Closer.noConfusion (hdone.symm.trans hcloser)
      omega
  | fails hplain hwork hdiscard hpast hresources => exact hsame hresources rfl .inl
  | makes message hwork hm =>
      cases hm with
      | starts other hfiles hwork' hresources =>
          refine hsame hresources rfl fun _ => .inr ?_
          simp [LiveSession.beginsNative, hwork, hfiles]
      | fails hpast hresources => exact hsame hresources rfl .inl
      | continues other file rest hwork' hresources => exact hsame hresources rfl .inl
  | makesParent message file rest hwork hwork' hresources => exact hsame hresources rfl .inl
  | writes message file rest hwork hm =>
      cases hm with
      | starts other hfiles hwork' hresources =>
          refine hsame hresources rfl fun _ => .inr ?_
          simp [LiveSession.beginsNative, hwork, hfiles]
      | fails hpast hresources => exact hsame hresources rfl .inl
      | continues other file' rest' hwork' hresources => exact hsame hresources rfl .inl
  | prepares hwork hstarted hresources => exact hsame hresources rfl .inl
  | discards message hwork hclosing' revision hwork' hresources =>
      refine hsame hresources rfl fun _ => .inl ?_
      rw [show s.native = .starting from h.started message hwork]
      rfl
  | adopts message hwork hopen => exact Bool.noConfusion (hopen.symm.trans hclosing)
  | startFails message hwork hpast hresources =>
      exact hsame hresources rfl fun hlive => Bool.noConfusion hlive
  | timesOut hrunning hwork hresources =>
      refine hsame hresources rfl fun _ => .inl ?_
      rw [hrunning]
      rfl
  | closed hnative hwork hresources =>
      exact hsame hresources rfl fun hlive => Bool.noConfusion hlive
  | removes hcloser => exact Closer.noConfusion (hdone.symm.trans hcloser)
  | finishes hcloser => exact Closer.noConfusion (hdone.symm.trans hcloser)

/-- What ends `close` leaves the native session as it is. -/
theorem ResourceStep.native_of_done (hstep : ResourceStep s t event) (hopen : s.closer ≠ .done)
    (hdone : t.closer = .done) : event.endsClose = true ∧ t.native = s.native := by
  have hclosed : t.resources.closer = .done := hdone
  have hnot {r : Resources} (hr : t.resources = r) (hcloser : r.closer ≠ .done) {p : Prop} : p :=
    absurd (congrArg Resources.closer hr ▸ hclosed) hcloser
  cases hstep with
  | receives hpasses | idles hpasses | expires hpasses =>
      exact absurd (hpasses.resources.closer hclosed) hopen
  | passes hplain hpasses => exact absurd (hpasses.resources.closer hclosed) hopen
  | initializes message _ hpast hwork hresources => exact hnot hresources hopen
  | tearsDown hplain hwork hfarewells hresources =>
      exact hnot hresources fun h => Closer.noConfusion h
  | fails hplain hwork hdiscard hpast hresources => exact hnot hresources hopen
  | makes message hwork hm | writes message file rest hwork hm =>
      cases hm with
      | starts _ _ _ hresources | fails _ hresources | continues _ _ _ _ hresources =>
          exact hnot hresources hopen
  | makesParent message file rest hwork hwork' hresources => exact hnot hresources hopen
  | prepares hwork hstarted hresources => exact hnot hresources hopen
  | discards message hwork hclosing revision hwork' hresources => exact hnot hresources hopen
  | adopts message hwork hclosing hpast session hresources => exact hnot hresources hopen
  | startFails message hwork hpast hresources => exact hnot hresources hopen
  | timesOut hrunning hwork hresources => exact hnot hresources hopen
  | closed hnative hwork hresources => exact hnot hresources hopen
  | removes hcloser hwork hresources => exact hnot hresources fun h => Closer.noConfusion h
  | finishes hcloser hnative hwork hresources =>
      exact ⟨rfl, congrArg Resources.native hresources⟩

/-- What the steps of a session keep. -/
structure Slotted (s : LiveSession) : Prop where
  coherent : Coherent s
  held : ∃ leaked rearmed, Balanced leaked rearmed s.resources s.work

theorem Slotted.step (h : Slotted s) (hstep : s.step platform event = some t) : Slotted t := by
  obtain ⟨leaked, rearmed, hheld⟩ := h.held
  have hresources := resourceStep h.coherent hstep
  exact
    { coherent := h.coherent.stepped (h.coherent.step_cases hstep)
      held := ⟨_, _, hheld.step h.coherent hresources⟩ }

theorem Slotted.new : Slotted .new := ⟨.init, false, false, balanced_new⟩

/-- A slot let go is not taken again. -/
theorem Slotted.releases (h : Slotted s) (hstep : s.step platform event = some t)
    (hholds : (liveServer platform).holds t = true) : (liveServer platform).holds s = true := by
  obtain ⟨leaked, rearmed, hheld⟩ := h.held
  by_contra hreleased
  have hdone : s.closer = .done := closer_of_isDone (by simpa [liveServer] using hreleased)
  have hgone := (hheld.after_done (resourceStep h.coherent hstep) hdone).1
  simp [liveServer, hgone, Closer.isDone] at hholds

/-- An open native session has a slot. -/
theorem Slotted.native_step (h : Slotted s) (hnative : s.native.live = true → s.closer ≠ .done)
    (hkeeps : s.keepsSlot event = true) (hstep : s.step platform event = some t)
    (hlive : t.native.live = true) : t.closer ≠ .done := by
  obtain ⟨leaked, rearmed, hheld⟩ := h.held
  have hresources := resourceStep h.coherent hstep
  simp only [LiveSession.keepsSlot, Bool.and_eq_true, Bool.not_eq_true', Bool.and_eq_false_iff]
    at hkeeps
  intro hdone
  by_cases hbefore : s.closer = .done
  · rcases (hheld.after_done hresources hbefore).2 hlive with hopen | hbegins
    · exact hnative hopen hbefore
    · rw [hbefore, hbegins] at hkeeps
      simp [Closer.isDone] at hkeeps
  · obtain ⟨hends, hsame⟩ := hresources.native_of_done hbefore hdone
    rw [hsame] at hlive
    rw [hends, hlive] at hkeeps
    simp at hkeeps

end Slots

/-! ## Runs -/

/-- **Admission.**  In every run of a server, whatever its clients do, at most
`MAX_ACTIVE_LIVE_SESSIONS` sessions are active; and where each step of each session keeps its slot, no
more native sessions are open. -/
theorem liveServer_bounded (platform : Platform) (sessions : List LiveSession) :
    ((liveServer platform).system.Reachable (Pool.Permitted fun _ _ => True) sessions →
      activeLiveSessions sessions ≤ MAX_ACTIVE_LIVE_SESSIONS) ∧
    ((liveServer platform).system.Reachable
        (Pool.Permitted fun s event => s.keepsSlot event = true) sessions →
      nativeSessions sessions ≤ MAX_ACTIVE_LIVE_SESSIONS) := by
  constructor
  · intro h
    exact Pool.reachable_holds_le (I := Slotted) .new (fun _ _ _ _ hs hstep => hs.step hstep)
      (fun _ _ _ hs hstep => hs.releases hstep) h
  · intro h
    let I (s : LiveSession) : Prop := Slotted s ∧ (s.native.live = true → s.closer ≠ .done)
    refine Pool.reachable_uses_le (I := I) ⟨.new, fun h => Bool.noConfusion h⟩ ?_ ?_ ?_ h
    · rintro s event t hkeeps ⟨hs, hnative⟩ hstep
      exact ⟨hs.step hstep, hs.native_step hnative hkeeps hstep⟩
    · rintro s event t ⟨hs, -⟩ hstep hholds
      exact hs.releases hstep hholds
    · rintro s ⟨-, hnative⟩ hlive
      show (!s.closer.isDone) = true
      rw [Bool.not_eq_true', ← Bool.not_eq_true]
      exact fun hdone => hnative hlive (closer_of_isDone hdone)

namespace OneFileSession

/-- The events of one session. -/
def ofSession (index : Nat) (events : List LiveEvent) : List (PoolEvent LiveEvent) :=
  events.map (.act index)

/-- Two sessions, one of them with a native session. -/
def twoSessions : List (PoolEvent LiveEvent) := [.arrive, .arrive] ++ ofSession 0 startUp

/-- The first session loses its client while its native session starts; a third one takes its slot. -/
def thirdNative : List (PoolEvent LiveEvent) :=
  [.arrive, .arrive] ++ ofSession 0 (startUp.take 4 ++ [.socketClosed, .removeSettled true, .closeFinishes])
    ++ [.arrive] ++ ofSession 1 (startUp.take 4) ++ ofSession 2 (startUp.take 4)

/-- The sessions after these events, where they meet a condition. -/
def sessionsAfter (check : LiveSession → LiveEvent → Bool) (events : List (PoolEvent LiveEvent)) :
    List LiveSession :=
  (liveServer .posix).system.after (Pool.check check) events

end OneFileSession

open OneFileSession in
/-- Two sessions within their slots. -/
theorem liveServer_bounded_two :
    (activeLiveSessions (sessionsAfter LiveSession.keepsSlot twoSessions) = 2 ∧
      nativeSessions (sessionsAfter LiveSession.keepsSlot twoSessions) = 1) ∧
    activeLiveSessions (sessionsAfter LiveSession.keepsSlot twoSessions) ≤ MAX_ACTIVE_LIVE_SESSIONS ∧
    nativeSessions (sessionsAfter LiveSession.keepsSlot twoSessions) ≤ MAX_ACTIVE_LIVE_SESSIONS := by
  have hkeeps : (liveServer .posix).system.Reachable
      (Pool.Permitted fun s event => s.keepsSlot event = true)
      (sessionsAfter LiveSession.keepsSlot twoSessions) :=
    System.reachable_after Pool.permitted_of_check _
  have hbounded := liveServer_bounded .posix (sessionsAfter LiveSession.keepsSlot twoSessions)
  exact ⟨⟨by decide +kernel, by decide +kernel⟩,
    hbounded.1 (hkeeps.mono fun members event _ => Pool.permitted_true members event),
    hbounded.2 hkeeps⟩

open OneFileSession in
/-- Without the condition a third native session starts. -/
theorem third_native : ∃ sessions, (liveServer .posix).system.Reachable
    (Pool.Permitted fun _ _ => True) sessions ∧ MAX_ACTIVE_LIVE_SESSIONS < nativeSessions sessions := by
  have hreach : (liveServer .posix).system.Reachable (Pool.Permitted fun _ _ => True)
      (sessionsAfter (fun _ _ => true) thirdNative) :=
    System.reachable_after (fun members event _ => Pool.permitted_true members event) _
  exact ⟨_, hreach, by decide +kernel⟩

end Typr
