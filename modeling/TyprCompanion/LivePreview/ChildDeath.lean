import TyprCompanion.LivePreview.ChildProcess

/-!
# Death of the child

What a session reports when its TeXpresso child dies.  `fail` rejects what waits and calls the listeners
of `onUnexpectedExit`, but only once the `close` event of the child is emitted; a write that reaches the
pipe before that is an `error` event of `child.stdin`, which nobody listens to.

* `Contained` — no such event is uncaught, and the death is reported to the calls and the listeners.
* `WritesToClosedPipe` — a write reaches the pipe of a dead child.
* `Reports` — what every run reports, one lemma for each group of events.
* **`contained_iff`** — a death is contained exactly when no write reaches the pipe of a dead child.
-/

namespace Typr

namespace TexpressoRun

/-- A call for a flush waits, or was resolved or rejected. -/
def Accounted (s : TexpressoRun) (call : Nat) : Prop :=
  (∃ waiter ∈ s.flushWaiters, waiter.call = call) ∨ (∃ r ∈ s.resolved, r.waiter.call = call) ∨
    ∃ error, (.flush call, error) ∈ s.rejected

/-- **What a session reports**: every call is accounted for, and once an exit is known nothing waits and
every listener of a session that is not closed was called with it. -/
structure Reports (s : TexpressoRun) : Prop where
  accounted : ∀ call < s.calls, s.Accounted call
  noticed : s.exited = true → s.closed = false → s.exitError.isSome = true
  waiting : s.exitError.isSome = true → s.waiting = []
  heard : ∀ error, s.exitError = some error → s.closed = false →
    ∀ listener ∈ s.unexpectedExitListeners, listener = some error

/-- **The death of the child is contained**: it is reported to calls and listeners, and no `error` event
of `child.stdin` ends the server process. -/
structure Contained (s : TexpressoRun) : Prop extends Reports s where
  caught : s.uncaught ≠ some .stdin

/-- A write reaches the pipe of a dead child. -/
def WritesToClosedPipe (s : TexpressoRun) (event : TexpressoEvent) : Prop :=
  event = .stdinWrites ∧ s.alive = false

theorem waiting_eq_nil {s : TexpressoRun} : s.waiting = [] ↔
    s.flushWaiters = [] ∧ s.protocol.pageImageWaiters = [] ∧ s.protocol.pageCountWaiters = 0 := by
  simp [waiting, List.replicate_eq_nil_iff]

end TexpressoRun

open TexpressoRun

variable {options : TexpressoSessionOptions} {event : TexpressoEvent} {s t : TexpressoRun}

/-! ## Waiters for pages -/

namespace ProtocolState

/-- Nobody waits for a page. -/
def NoPages (s : ProtocolState) : Prop := s.pageImageWaiters = [] ∧ s.pageCountWaiters = 0

theorem NoPages.applyCommand {p q : ProtocolState} {command : LinesCommand} (h : p.NoPages)
    (hq : p.applyCommand command = .ok q) : q.NoPages := by
  have hset (destination : Destination) (lines : LineArray) :
      (p.setLines destination lines).NoPages := by
    cases destination <;> exact h
  cases command with
  | append destination items =>
      cases hpush : pushLines (p.lines destination) items with
      | error error => simp [ProtocolState.applyCommand, hpush, Except.map] at hq
      | ok lines =>
          simp only [ProtocolState.applyCommand, hpush, Except.map, Except.ok.injEq] at hq
          rw [← hq]
          exact hset ..
  | truncate destination n =>
      cases htruncate : setLength (p.lines destination) (max 0 n).toNat with
      | error error => simp [ProtocolState.applyCommand, htruncate, Except.map] at hq
      | ok lines =>
          simp only [ProtocolState.applyCommand, htruncate, Except.map, Except.ok.injEq] at hq
          rw [← hq]
          exact hset ..

theorem NoPages.pageImage {p : ProtocolState} (args : List Json) (h : p.NoPages) :
    (p.pageImage args).1.NoPages := by
  unfold ProtocolState.pageImage
  split
  · split
    · exact h
    · rw [h.1, List.find?_nil]
      exact h
  · exact h

theorem NoPages.otherMessage {p : ProtocolState} (verb : JSString) (args : List Json)
    (h : p.NoPages) : (p.otherMessage verb args).1.NoPages := by
  unfold ProtocolState.otherMessage
  split_ifs
  · split <;> exact h
  · split <;> exact h
  · exact h
  · rw [h.2]
    cases nonNegative? args[0]? <;> exact h
  · exact h.pageImage args
  · split
    · rw [h.1, List.find?_nil]
      exact h
    · exact h
  · exact h

theorem NoPages.handleProtocolLine {p q : ProtocolState} {line : ProtocolLine}
    {settled : List WaiterSettled} (h : p.NoPages) (hq : p.handleProtocolLine line = .ok (q, settled)) :
    q.NoPages := by
  unfold ProtocolState.handleProtocolLine at hq
  split at hq
  · obtain ⟨rfl, -⟩ := Prod.mk.inj (Except.ok.inj hq)
    exact h
  · split at hq
    · obtain ⟨rfl, -⟩ := Prod.mk.inj (Except.ok.inj hq)
      exact h
    · next verb args _ =>
        split at hq
        · next command _ =>
            cases happly : p.applyCommand command with
            | error error => simp [happly, Except.map] at hq
            | ok session =>
                simp only [happly, Except.map, Except.ok.injEq, Prod.mk.injEq] at hq
                obtain ⟨rfl, -⟩ := hq
                exact h.applyCommand happly
        · have hother : q = (p.otherMessage verb args).1 := by rw [Except.ok.inj hq]
          rw [hother]
          exact h.otherMessage verb args

end ProtocolState

/-! ## Methods -/

theorem TexpressoRun.Accounted.mono {call : Nat} (h : s.Accounted call)
    (hwaiters : ∀ waiter ∈ s.flushWaiters, t.Accounted waiter.call)
    (hresolved : s.resolved ⊆ t.resolved) (hrejected : s.rejected ⊆ t.rejected) :
    t.Accounted call := by
  rcases h with ⟨waiter, hmem, rfl⟩ | ⟨r, hmem, hcall⟩ | ⟨error, hmem⟩
  · exact hwaiters waiter hmem
  · exact .inr (.inl ⟨r, hresolved hmem, hcall⟩)
  · exact .inr (.inr ⟨error, hrejected hmem⟩)

namespace TexpressoRun.Reports

theorem start (options : TexpressoSessionOptions) : Reports (TexpressoRun.start options) where
  accounted := by
    intro call hlt
    exact .inl ⟨⟨0, 0, 0⟩, List.mem_singleton_self _, (Nat.lt_one_iff.mp hlt).symm⟩
  noticed := nofun
  waiting := nofun
  heard := nofun

theorem reject (h : Reports s) (call : SessionCall) (error : JSString) :
    Reports (s.reject call error) :=
  { h with
    accounted := fun other hlt => (h.accounted other hlt).mono
      (fun waiter hmem => .inl ⟨waiter, hmem, rfl⟩) (List.Subset.refl _)
      (List.subset_append_left _ _) }

theorem write (h : Reports s) (command : TexpressoCommand) (call : Option Nat) :
    Reports (s.write command call) :=
  { h with }

theorem close (h : Reports s) : Reports s.close := by
  unfold TexpressoRun.close
  split
  · exact h
  · exact { h with
      noticed := nofun
      heard := nofun }

/-- A call waits for something else than a flush. -/
theorem pages (h : Reports s) (hexit : s.exitError = none) (protocol : ProtocolState) :
    Reports { s with protocol := protocol } :=
  { h with
    waiting := by
      intro hknown
      have hsome : s.exitError.isSome = true := hknown
      rw [hexit] at hsome
      cases hsome }

theorem waitForPageCount (h : Reports s) : Reports s.waitForPageCount := by
  unfold TexpressoRun.waitForPageCount
  split
  · exact h
  · next hexit => exact h.pages (by simpa using hexit) _

theorem waitForPageImage (h : Reports s) (page dpi : Nat) : Reports (s.waitForPageImage page dpi) := by
  unfold TexpressoRun.waitForPageImage
  split
  · exact h
  · next hexit => exact h.pages (by simpa using hexit) _

theorem getPageCount (h : Reports s) : Reports s.getPageCount := by
  unfold TexpressoRun.getPageCount
  split
  · exact h.waitForPageCount.reject ..
  · exact h.waitForPageCount.write ..

theorem renderPage (h : Reports s) (page dpi : Nat) (theme : Option TexpressoRenderTheme) :
    Reports (s.renderPage page dpi theme) := by
  unfold TexpressoRun.renderPage
  split
  · exact h.reject ..
  · split
    · exact (h.waitForPageImage page dpi).reject ..
    · exact (h.waitForPageImage page dpi).write ..

/-- Nothing waits once the exit is known. -/
theorem exitError_of_waiting (h : Reports s) (hwaiting : s.waiting ≠ []) : s.exitError = none := by
  cases hexit : s.exitError with
  | none => rfl
  | some error => exact absurd (h.waiting (by rw [hexit]; rfl)) hwaiting

theorem flushTimeout {waiter : FlushWaiter} (h : Reports s) (hmem : waiter ∈ s.flushWaiters)
    (error : JSString) :
    Reports ({ s with flushWaiters := s.flushWaiters.erase waiter }.close.reject
      (.flush waiter.call) error) := by
  have hexit : s.exitError = none := by
    refine h.exitError_of_waiting fun hnone => ?_
    rw [(waiting_eq_nil.mp hnone).1] at hmem
    cases hmem
  have hrejected : Reports { s with
      flushWaiters := s.flushWaiters.erase waiter
      rejected := s.rejected ++ [(.flush waiter.call, error)] } :=
    { h.pages hexit s.protocol with
      accounted := by
        intro call hlt
        refine (h.accounted call hlt).mono ?_ (List.Subset.refl _) (List.subset_append_left _ _)
        intro other hother
        by_cases heq : other = waiter
        · subst heq
          exact .inr (.inr ⟨error, List.mem_append_right _ (List.mem_singleton_self _)⟩)
        · exact .inl ⟨other, (List.mem_erase_of_ne heq).mpr hother, rfl⟩
      waiting := by
        intro hknown
        have hsome : s.exitError.isSome = true := hknown
        rw [hexit] at hsome
        cases hsome }
  have hclose := hrejected.close
  unfold TexpressoRun.close at hclose ⊢
  split <;> rename_i hclosed
  · rwa [if_pos hclosed] at hclose
  · rwa [if_neg hclosed] at hclose

/-- A session that knows of the exit takes no edit. -/
theorem exitError_of_applied {path : JSString} {range : TexpressoRange} {replacement : JSString}
    {buffers : Buffers}
    (h : TexpressoSession.applyRangeChange s.buffers s.sendable path range replacement = .ok buffers) :
    s.exitError = none := by
  have hsendable : s.sendable = .ok () := by
    rcases texpresso_refines s.buffers ⟨0, path, range, replacement⟩ s.sendable
      with ⟨_, hsend⟩ | ⟨⟨error, herror⟩, _⟩
    · exact hsend
    · exact nomatch h.symm.trans herror
  unfold TexpressoRun.sendable at hsendable
  split at hsendable
  · cases hsendable
  · cases hsendable
  · assumption

theorem applyRangeChange (h : Reports s) (path : JSString) (range : TexpressoRange)
    (replacement : JSString) : Reports (s.applyRangeChange options path range replacement) := by
  unfold TexpressoRun.applyRangeChange
  split
  · next error _ =>
      exact { h with
        accounted := by
          intro call hlt
          rcases Nat.lt_succ_iff_lt_or_eq.mp hlt with hlt | rfl
          · exact (h.accounted call hlt).mono (fun waiter hmem => .inl ⟨waiter, hmem, rfl⟩)
              (List.Subset.refl _) (List.subset_append_left _ _)
          · exact .inr (.inr ⟨error, List.mem_append_right _ (List.mem_singleton_self _)⟩) }
  · next buffers happlied =>
      exact { h with
        accounted := by
          intro call hlt
          rcases Nat.lt_succ_iff_lt_or_eq.mp hlt with hlt | rfl
          · exact (h.accounted call hlt).mono
              (fun waiter hmem => .inl ⟨waiter, List.mem_append_left _ hmem, rfl⟩)
              (List.Subset.refl _) (List.Subset.refl _)
          · exact .inl ⟨_, List.mem_append_right _ (List.mem_singleton_self _), rfl⟩
        waiting := by
          intro hexit
          have hsome : s.exitError.isSome = true := hexit
          rw [exitError_of_applied happlied] at hsome
          cases hsome }

theorem onUnexpectedExit (h : Reports s) : Reports s.onUnexpectedExit :=
  { h with
    heard := by
      intro error hexit hclosed listener hmem
      rcases List.mem_append.mp hmem with hmem | hmem
      · exact h.heard error hexit hclosed listener hmem
      · rw [List.mem_singleton.mp hmem, if_neg (by rw [show s.closed = false from hclosed]; nofun)]
        exact hexit }

theorem fail (h : Reports s) (error : JSString) : Reports (s.fail error) := by
  unfold TexpressoRun.fail
  split
  · exact h
  · exact {
      accounted := by
        intro call hlt
        refine (h.accounted call hlt).mono ?_ (List.Subset.refl _) (List.subset_append_left _ _)
        intro waiter hmem
        refine .inr (.inr ⟨error, List.mem_append_right _ (List.mem_map.mpr ⟨_, ?_, rfl⟩)⟩)
        exact List.mem_append_left _ (List.mem_append_left _ (List.mem_map.mpr ⟨waiter, hmem, rfl⟩))
      noticed := fun _ _ => rfl
      waiting := fun _ => waiting_eq_nil.mpr ⟨rfl, rfl, rfl⟩
      heard := by
        intro exitError hexit hclosed listener hmem
        obtain rfl := Option.some.inj hexit
        rw [if_neg (by rw [show s.closed = false from hclosed]; nofun)] at hmem
        obtain ⟨_, _, rfl⟩ := List.mem_map.mp hmem
        rfl }

/-- The `close` event of the child: `fail` knows of the exit. -/
theorem exits (h : Reports s) (error : JSString) : Reports ({ s with exited := true }.fail error) := by
  have hfail := h.fail error
  unfold TexpressoRun.fail at hfail ⊢
  split <;> rename_i hexit
  · rw [if_pos hexit] at hfail
    exact { hfail with noticed := fun _ _ => hexit }
  · rw [if_neg hexit] at hfail
    exact { hfail with noticed := fun _ _ => rfl }

/-- Only what waits can be settled by a line. -/
theorem handleLine (h : Reports s) (line : ProtocolLine) : Reports (s.handleLine line) := by
  unfold TexpressoRun.handleLine
  split
  · exact { h with }
  · next protocol settled hline =>
      have hwaiting : s.exitError.isSome = true → s.flushWaiters = [] ∧ protocol.NoPages := by
        intro hexit
        obtain ⟨hflush, hpages⟩ := waiting_eq_nil.mp (h.waiting hexit)
        exact ⟨hflush, ProtocolState.NoPages.handleProtocolLine hpages hline⟩
      split
      · exact { h with
          accounted := by
            intro call hlt
            refine (h.accounted call hlt).mono ?_ (List.subset_append_left _ _) (List.Subset.refl _)
            intro waiter hmem
            by_cases hafter : protocol.flushCount ≤ waiter.after
            · exact .inl ⟨waiter, List.mem_filter.mpr ⟨hmem, decide_eq_true hafter⟩, rfl⟩
            · refine .inr (.inl ⟨_, List.mem_append_right _ (List.mem_map.mpr ⟨waiter, ?_, rfl⟩), rfl⟩)
              exact List.mem_filter.mpr ⟨hmem, decide_eq_true (Nat.lt_of_not_le hafter)⟩
          waiting := by
            intro hexit
            obtain ⟨hflush, hpages⟩ := hwaiting hexit
            refine waiting_eq_nil.mpr ⟨?_, hpages⟩
            show s.flushWaiters.filter _ = []
            rw [hflush, List.filter_nil] }
      · exact { h with
          waiting := fun hexit => waiting_eq_nil.mpr (hwaiting hexit) }

/-! ### Events -/

theorem onCall (h : Reports s) (hstep : s.onCall options event = some t) : Reports t := by
  unfold TexpressoRun.onCall at hstep
  split at hstep
  case h_1 =>
      obtain rfl := Option.some.inj hstep
      exact h.applyRangeChange ..
  case h_2 =>
      obtain rfl := Option.some.inj hstep
      exact h.getPageCount
  case h_3 =>
      obtain rfl := Option.some.inj hstep
      exact h.renderPage ..
  case h_4 =>
      obtain rfl := Option.some.inj hstep
      exact h.onUnexpectedExit
  case h_5 index =>
      obtain rfl := Option.some.inj hstep
      exact { h with
        heard := fun error hexit hclosed listener hmem =>
          h.heard error hexit hclosed listener (List.mem_of_mem_eraseIdx hmem) }
  case h_6 =>
      obtain rfl := Option.some.inj hstep
      exact h.close
  case h_7 waiter =>
      split at hstep
      · next hmem =>
          obtain rfl := Option.some.inj hstep
          exact h.flushTimeout hmem _
      · cases hstep
  case h_8 =>
      split at hstep
      · next hcount =>
          obtain rfl := Option.some.inj hstep
          have hexit : s.exitError = none := by
            refine h.exitError_of_waiting fun hnone => ?_
            have hzero := (waiting_eq_nil.mp hnone).2.2
            omega
          exact (h.pages hexit _).close.reject ..
      · cases hstep
  case h_9 waiter =>
      split at hstep
      · next hmem =>
          obtain rfl := Option.some.inj hstep
          have hexit : s.exitError = none := by
            refine h.exitError_of_waiting fun hnone => ?_
            rw [(waiting_eq_nil.mp hnone).2.1] at hmem
            cases hmem
          exact (h.pages hexit _).close.reject ..
      · cases hstep
  case h_10 => cases hstep

theorem onPipe (h : Reports s) (hstep : s.onPipe event = some t) : Reports t := by
  unfold TexpressoRun.onPipe at hstep
  split at hstep
  case h_1 =>
      split at hstep
      · cases hstep
      · split at hstep
        · cases hstep
        · split at hstep <;> obtain rfl := Option.some.inj hstep <;> exact { h with }
  case h_2 =>
      split at hstep
      · cases hstep
      · split at hstep
        · obtain rfl := Option.some.inj hstep
          exact { h with }
        · cases hstep
  case h_6 => cases hstep
  all_goals
    split at hstep
    · obtain rfl := Option.some.inj hstep
      exact { h with }
    · cases hstep

theorem onReport (h : Reports s) (hstep : s.onReport event = some t) : Reports t := by
  unfold TexpressoRun.onReport at hstep
  split at hstep
  case h_1 =>
      obtain ⟨next, -, rfl⟩ := Option.map_eq_some_iff.mp hstep
      exact h.handleLine next.line
  case h_2 chunk =>
      obtain rfl := Option.some.inj hstep
      exact { h with }
  case h_3 error =>
      split at hstep
      · cases hstep
      · split at hstep <;> rename_i hclosed <;> obtain rfl := Option.some.inj hstep
        · exact { h with
            noticed := fun _ hopen => by rw [show s.closed = false from hopen] at hclosed; cases hclosed }
        · exact h.exits error
  case h_4 =>
      obtain rfl := Option.some.inj hstep
      exact h.fail _
  case h_5 => cases hstep

/-- One step of a session. -/
theorem step (h : Reports s) (hstep : s.step options event = some t) : Reports t := by
  unfold TexpressoRun.step at hstep
  split at hstep
  · cases hstep
  · split at hstep
    all_goals
      first
      | exact h.onPipe hstep
      | exact h.onReport hstep
      | exact h.onCall hstep

end TexpressoRun.Reports

/-! ## The error event -/

namespace TexpressoRun

/-- Calls throw nothing that is uncaught. -/
theorem uncaught_onCall (hstep : s.onCall options event = some t) : t.uncaught = s.uncaught := by
  have hclose (u : TexpressoRun) : u.close.uncaught = u.uncaught := by
    unfold close
    split <;> rfl
  have hcount (u : TexpressoRun) : u.waitForPageCount.uncaught = u.uncaught := by
    unfold waitForPageCount
    split <;> rfl
  have himage (u : TexpressoRun) (page dpi : Nat) :
      (u.waitForPageImage page dpi).uncaught = u.uncaught := by
    unfold waitForPageImage
    split <;> rfl
  unfold onCall at hstep
  split at hstep
  case h_1 =>
      obtain rfl := Option.some.inj hstep
      unfold applyRangeChange
      split <;> rfl
  case h_2 =>
      obtain rfl := Option.some.inj hstep
      unfold getPageCount
      split <;> exact hcount s
  case h_3 =>
      obtain rfl := Option.some.inj hstep
      unfold renderPage
      split
      · rfl
      · split <;> exact himage s _ _
  case h_4 =>
      obtain rfl := Option.some.inj hstep
      rfl
  case h_5 =>
      obtain rfl := Option.some.inj hstep
      rfl
  case h_6 =>
      obtain rfl := Option.some.inj hstep
      exact hclose s
  case h_10 => cases hstep
  all_goals
    split at hstep
    · obtain rfl := Option.some.inj hstep
      exact hclose _
    · cases hstep

theorem uncaught_onPipe (hcaught : s.uncaught = none) (hstep : s.onPipe event = some t) :
    t.uncaught = some .stdin ↔ s.WritesToClosedPipe event := by
  have hquiet (hevent : event ≠ .stdinWrites) (hsame : t.uncaught = s.uncaught) :
      t.uncaught = some .stdin ↔ s.WritesToClosedPipe event := by
    rw [hsame, hcaught]
    exact ⟨nofun, fun hwrites => absurd hwrites.1 hevent⟩
  unfold onPipe at hstep
  split at hstep
  case h_1 =>
      split at hstep
      · cases hstep
      · split at hstep
        · cases hstep
        · split at hstep
          · next halive =>
              obtain rfl := Option.some.inj hstep
              rw [show _ = s.uncaught from rfl, hcaught, WritesToClosedPipe, halive]
              exact ⟨nofun, fun hwrites => nomatch hwrites.2⟩
          · next hdead =>
              obtain rfl := Option.some.inj hstep
              exact ⟨fun _ => ⟨rfl, by simpa using hdead⟩, fun _ => rfl⟩
  case h_2 =>
      split at hstep
      · cases hstep
      · split at hstep
        · obtain rfl := Option.some.inj hstep
          exact hquiet nofun rfl
        · cases hstep
  case h_6 => cases hstep
  all_goals
    split at hstep
    · obtain rfl := Option.some.inj hstep
      exact hquiet nofun rfl
    · cases hstep

theorem uncaught_onReport (hcaught : s.uncaught = none) (hstep : s.onReport event = some t) :
    t.uncaught ≠ some .stdin := by
  have hfail (u : TexpressoRun) (error : JSString) (hu : u.uncaught = none) :
      (u.fail error).uncaught ≠ some .stdin := by
    unfold fail
    split
    · rw [hu]
      nofun
    · rw [show _ = u.uncaught from rfl, hu]
      nofun
  unfold onReport at hstep
  split at hstep
  case h_1 =>
      obtain ⟨next, -, rfl⟩ := Option.map_eq_some_iff.mp hstep
      unfold handleLine
      split
      · nofun
      · split <;> (rw [show _ = s.uncaught from rfl, hcaught]; nofun)
  case h_2 =>
      obtain rfl := Option.some.inj hstep
      rw [show _ = s.uncaught from rfl, hcaught]
      nofun
  case h_3 =>
      split at hstep
      · cases hstep
      · split at hstep <;> obtain rfl := Option.some.inj hstep
        · rw [show _ = s.uncaught from rfl, hcaught]
          nofun
        · exact hfail _ _ hcaught
  case h_4 =>
      obtain rfl := Option.some.inj hstep
      exact hfail _ _ hcaught
  case h_5 => cases hstep

/-- **The `error` event of the pipe** is uncaught exactly after a write to the pipe of a dead child. -/
theorem uncaught_step (hstep : s.step options event = some t) :
    s.uncaught = none ∧ (t.uncaught = some .stdin ↔ s.WritesToClosedPipe event) := by
  have hevent (hevent : event ≠ .stdinWrites) (hcaught : t.uncaught ≠ some .stdin) :
      t.uncaught = some .stdin ↔ s.WritesToClosedPipe event :=
    ⟨fun h => absurd h hcaught, fun hwrites => absurd hwrites.1 hevent⟩
  unfold step at hstep
  split at hstep
  · cases hstep
  · next huncaught =>
      have hcaught : s.uncaught = none := by simpa using huncaught
      refine ⟨hcaught, ?_⟩
      split at hstep
      all_goals
        first
        | exact uncaught_onPipe hcaught hstep
        | exact hevent nofun (uncaught_onReport hcaught hstep)
        | exact hevent (by rintro rfl; contradiction)
            (by rw [uncaught_onCall hstep, hcaught]; nofun)

end TexpressoRun

/-! ## Runs -/

variable {steps : List (TexpressoRun × TexpressoEvent)}

theorem trace_reports (h : (texpressoSystem options).Trace steps s) : s.Reports := by
  induction h with
  | init => exact .start options
  | step _ hstep ih => exact ih.step hstep

theorem trace_uncaught (h : (texpressoSystem options).Trace steps s) :
    s.uncaught = some .stdin ↔ ∃ step ∈ steps, step.1.WritesToClosedPipe step.2 := by
  induction h with
  | init =>
      constructor
      · intro hstdin
        cases hstdin
      · rintro ⟨step, hmem, _⟩
        exact absurd hmem List.not_mem_nil
  | step _ hstep ih =>
      obtain ⟨hcaught, hwrites⟩ := uncaught_step hstep
      -- an earlier write had ended the process
      have hearlier := ih.not.mp (by rw [hcaught]; nofun)
      rw [hwrites]
      constructor
      · exact fun h => ⟨_, List.mem_cons_self .., h⟩
      · rintro ⟨step, hmem, h⟩
        rcases List.mem_cons.mp hmem with rfl | hmem
        · exact h
        · exact absurd ⟨step, hmem, h⟩ hearlier

/-- **The death of the child is contained exactly when no write reaches its pipe after it died.** -/
theorem TexpressoRun.contained_iff (h : (texpressoSystem options).Trace steps s) :
    s.Contained ↔ ∀ step ∈ steps, ¬ step.1.WritesToClosedPipe step.2 := by
  have huncaught := trace_uncaught h
  constructor
  · intro hcontained step hmem hwrites
    exact hcontained.caught (huncaught.mpr ⟨step, hmem, hwrites⟩)
  · intro hnone
    refine { trace_reports h with caught := ?_ }
    intro hstdin
    obtain ⟨step, hmem, hwrites⟩ := huncaught.mp hstdin
    exact hnone step hmem hwrites

/-! ## Death during an edit -/

namespace OneFileChild

/-- The child dies with a change it has read. -/
def killed : List TexpressoEvent :=
  starting ++ [.onUnexpectedExit, change, .stdinWrites, .childReads, .childDies,
    .exit (js "TeXpresso exited unexpectedly (code none, signal SIGKILL). ")]

/-- The child is dead when it gets a change. -/
def written : List TexpressoEvent := starting ++ [.childDies, change, .stdinWrites]

/-- The event is no write, or the child is alive. -/
def writesToOpenPipe (step : TexpressoRun × TexpressoEvent) : Bool :=
  match step.2 with
  | .stdinWrites => step.1.alive
  | _ => true

end OneFileChild

theorem TexpressoRun.contained_killed :
    ((texpressoSystem OneFileChild.sessionOptions).stateFrom (.start OneFileChild.sessionOptions)
      OneFileChild.killed).Contained := by
  refine (contained_iff (Core.System.trace_after (texpressoSystem OneFileChild.sessionOptions)
    OneFileChild.killed)).mpr ?_
  rintro ⟨s, event⟩ hmem ⟨hevent, hdead⟩
  have hall : ((texpressoSystem OneFileChild.sessionOptions).stepsFrom
      (.start OneFileChild.sessionOptions) OneFileChild.killed).all OneFileChild.writesToOpenPipe
        = true := by rfl
  have halive := List.all_eq_true.mp hall _ hmem
  simp only at hevent hdead
  simp only [OneFileChild.writesToOpenPipe, hevent, hdead, Bool.false_eq_true] at halive

/-- **A change for a dead child ends the server process.** -/
theorem TexpressoRun.written_uncaught : ¬ ∀ options steps s,
    (texpressoSystem options).Trace steps s → s.Contained := by
  intro h
  have hcontained := h OneFileChild.sessionOptions _ _
    (Core.System.trace_after (texpressoSystem OneFileChild.sessionOptions) OneFileChild.written)
  exact hcontained.caught (by decide)

end Typr
