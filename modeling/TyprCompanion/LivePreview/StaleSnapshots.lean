import TyprCompanion.LivePreview.ChildProcess

/-!
# Stale snapshots

Which snapshots of a TeXpresso session include the lines of the change they were taken for.  A flush
carries no correlation to a command: a call is resolved by the first one handled after its command was
written, whatever the child was doing when it wrote that flush.

* `handledLines` — a session that handled these lines.
* `Includes`, `FlushedLast` — the snapshot includes the lines of its change; every flush handled since the
  command was written comes after them.
* `Timely` — which flush resolves a call; one lemma for each group of events.
* **`includes_iff`** — the one holds exactly when the other does, in every run.
-/

namespace Typr

/-! ## Lines -/

namespace ProtocolState

variable {p q p' : ProtocolState}

/-- Two sessions have the same output and the same log. -/
def SameLines (p q : ProtocolState) : Prop :=
  ∀ destination, p.lines destination = q.lines destination

theorem SameLines.snapshot (h : SameLines p q) : p.snapshot = q.snapshot := by
  have hout : p.outputLines = q.outputLines := h .out
  have hlog : p.logLines = q.logLines := h .log
  rw [ProtocolState.snapshot, ProtocolState.snapshot, hout, hlog]

theorem SameLines.setLines (h : SameLines p q) (destination : Destination) (lines : LineArray) :
    SameLines (p.setLines destination lines) (q.setLines destination lines) := by
  intro other
  by_cases hother : other = destination
  · rw [hother, lines_setLines_self, lines_setLines_self]
  · rw [lines_setLines_of_ne hother, lines_setLines_of_ne hother]
    exact h other

theorem SameLines.applyCommand {command : LinesCommand} (h : SameLines p q)
    (hp : p.applyCommand command = .ok p') :
    ∃ q', q.applyCommand command = .ok q' ∧ SameLines p' q' := by
  cases command with
  | append destination items =>
      rw [ProtocolState.applyCommand, h destination] at hp
      rw [ProtocolState.applyCommand]
      cases hpush : pushLines (q.lines destination) items with
      | error error =>
          rw [hpush] at hp
          cases hp
      | ok lines =>
          rw [hpush] at hp
          cases hp
          exact ⟨_, rfl, h.setLines destination _⟩
  | truncate destination n =>
      rw [ProtocolState.applyCommand, h destination] at hp
      rw [ProtocolState.applyCommand]
      cases hset : setLength (q.lines destination) (max 0 n).toNat with
      | error error =>
          rw [hset] at hp
          cases hp
      | ok lines =>
          rw [hset] at hp
          cases hp
          exact ⟨_, rfl, h.setLines destination _⟩

/-- **What a line does to the lines** depends on nothing but the lines. -/
theorem SameLines.handleProtocolLine {line : ProtocolLine} {settled : List WaiterSettled}
    (h : SameLines p q) (hp : p.handleProtocolLine line = .ok (p', settled)) :
    ∃ q', (q.handleProtocolLine line).map Prod.fst = .ok q' ∧ SameLines p' q' := by
  unfold ProtocolState.handleProtocolLine at hp ⊢
  split at hp
  · next hparsed =>
      obtain ⟨rfl, -⟩ := Prod.mk.inj (Except.ok.inj hp)
      rw [if_pos hparsed]
      refine ⟨_, rfl, ?_⟩
      intro destination
      rw [lines_appendStderr, lines_appendStderr]
      exact h destination
  · next hparsed =>
      rw [if_neg hparsed]
      split at hp
      · obtain ⟨rfl, -⟩ := Prod.mk.inj (Except.ok.inj hp)
        exact ⟨_, rfl, h⟩
      · next verb args hmessage =>
          split at hp
          · next command hcommand =>
              cases happly : p.applyCommand command with
              | error error =>
                  rw [happly] at hp
                  cases hp
              | ok session =>
                  rw [happly] at hp
                  obtain ⟨rfl, -⟩ := Prod.mk.inj (Except.ok.inj hp)
                  obtain ⟨q', hq, hsame⟩ := h.applyCommand happly
                  refine ⟨q', ?_, hsame⟩
                  simp [hq, Except.map]
          · next hcommand =>
              have hpair : p.otherMessage verb args = (p', settled) := Except.ok.inj hp
              refine ⟨(q.otherMessage verb args).1, by simp [Except.map], ?_⟩
              intro destination
              have hother := (p.otherMessage_spec verb args).1 destination
              rw [hpair] at hother
              rw [hother, (q.otherMessage_spec verb args).1 destination]
              exact h destination

end ProtocolState

/-- A session that handled these lines. -/
def handledLines (lines : List EmittedLine) : Except JSString ProtocolState :=
  lines.foldlM (fun session next => (session.handleProtocolLine next.line).map Prod.fst) .new

theorem handledLines_concat (lines : List EmittedLine) (next : EmittedLine) :
    handledLines (lines ++ [next]) = (handledLines lines).bind fun session =>
      (session.handleProtocolLine next.line).map Prod.fst := by
  simp only [handledLines, List.foldlM_append, List.foldlM_cons, List.foldlM_nil, bind_pure]
  rfl

/-! ## What a snapshot includes -/

namespace TexpressoRun

/-- **The snapshot includes the lines of its change**: it was taken when all of them had been handled. -/
structure Includes (s : TexpressoRun) (r : ResolvedCall) : Prop where
  lines : ∀ (i : Nat) next, s.emitted[i]? = some next → next.call = some r.waiter.call → i < r.handled
  snapshot : ∃ session, handledLines (s.emitted.take r.handled) = .ok session ∧
    r.snapshot = session.snapshot

/-- Every flush the session handles after the command was written comes after the lines of the change. -/
def FlushedLast (s : TexpressoRun) (waiter : FlushWaiter) : Prop :=
  ∀ (i j : Nat) flush next, s.emitted[i]? = some flush → flush.line.isFlush = true → waiter.since ≤ i →
    s.emitted[j]? = some next → next.call = some waiter.call → j < i

/-- There is no flush among these lines. -/
def FlushFree (s : TexpressoRun) (first last : Nat) : Prop :=
  ∀ (i : Nat) next, first ≤ i → i < last → s.emitted[i]? = some next → next.line.isFlush = false

/-- A call was resolved by the first flush handled since it was made. -/
structure ResolvedInTime (s : TexpressoRun) (r : ResolvedCall) (last : Nat) : Prop where
  handled : r.handled = last + 1
  since : r.waiter.since ≤ last
  flush : ∃ flush, s.emitted[last]? = some flush ∧ flush.line.isFlush = true
  first : s.FlushFree r.waiter.since last
  snapshot : ∃ session, handledLines (s.emitted.take r.handled) = .ok session ∧
    r.snapshot = session.snapshot

end TexpressoRun

/-- **Calls are resolved by the first flush handled since they were made.** -/
structure Timely (s : TexpressoRun) : Prop where
  handled_le : s.handled ≤ s.emitted.length
  uncalled : ∀ next ∈ s.emitted, next.line.isFlush = true → next.call = none
  session : ∃ session, handledLines (s.emitted.take s.handled) = .ok session ∧
    session.SameLines s.protocol
  waiting : ∀ waiter ∈ s.flushWaiters, waiter.after = s.protocol.flushCount ∧
    waiter.since ≤ s.handled ∧ s.FlushFree waiter.since s.handled
  resolved : ∀ r ∈ s.resolved, ∃ last, s.ResolvedInTime r last

variable {options : TexpressoSessionOptions} {event : TexpressoEvent} {s t : TexpressoRun}

/-! ## Steps -/

/-- Neither a line is written or handled nor is a flush waited for. -/
structure Idle (s t : TexpressoRun) : Prop where
  emitted : t.emitted = s.emitted
  handled : t.handled = s.handled
  flushCount : t.protocol.flushCount = s.protocol.flushCount
  lines : s.protocol.SameLines t.protocol
  flushWaiters : t.flushWaiters ⊆ s.flushWaiters
  resolved : t.resolved = s.resolved

theorem Idle.refl (s : TexpressoRun) : Idle s s :=
  ⟨rfl, rfl, rfl, fun _ => rfl, List.Subset.refl _, rfl⟩

theorem TexpressoRun.FlushFree.congr {first last : Nat} (h : s.FlushFree first last)
    (hemitted : t.emitted = s.emitted) : t.FlushFree first last := by
  intro i next hfirst hlast hnext
  rw [hemitted] at hnext
  exact h i next hfirst hlast hnext

theorem TexpressoRun.ResolvedInTime.congr {r : ResolvedCall} {last : Nat}
    (h : s.ResolvedInTime r last) (hemitted : t.emitted = s.emitted) : t.ResolvedInTime r last :=
  { h with
    flush := by
      rw [hemitted]
      exact h.flush
    first := h.first.congr hemitted
    snapshot := by
      rw [hemitted]
      exact h.snapshot }

theorem Timely.idle (h : Timely s) (hidle : Idle s t) : Timely t where
  handled_le := by
    rw [hidle.handled, hidle.emitted]
    exact h.handled_le
  uncalled := by
    rw [hidle.emitted]
    exact h.uncalled
  session := by
    obtain ⟨session, hsession, hsame⟩ := h.session
    rw [hidle.handled, hidle.emitted]
    exact ⟨session, hsession, fun destination => (hsame destination).trans (hidle.lines destination)⟩
  waiting := by
    intro waiter hmem
    obtain ⟨hafter, hsince, hfree⟩ := h.waiting waiter (hidle.flushWaiters hmem)
    rw [hidle.handled, hidle.flushCount]
    exact ⟨hafter, hsince, hfree.congr hidle.emitted⟩
  resolved := by
    rw [hidle.resolved]
    intro r hmem
    obtain ⟨last, hresolved⟩ := h.resolved r hmem
    exact ⟨last, hresolved.congr hidle.emitted⟩

/-- A call begins to wait for a flush. -/
theorem Timely.waits (h : Timely s) (call : Nat) :
    Timely { s with flushWaiters := s.flushWaiters
      ++ [⟨s.protocol.flushCount, call, s.handled⟩] } :=
  { h with
    waiting := by
      intro waiter hmem
      rcases List.mem_append.mp hmem with hmem | hmem
      · exact h.waiting waiter hmem
      · obtain rfl := List.mem_singleton.mp hmem
        refine ⟨rfl, Nat.le_refl _, ?_⟩
        intro i next hfirst hlast
        exact absurd hlast (Nat.not_lt_of_le hfirst)
    resolved := by
      intro r hmem
      obtain ⟨last, hresolved⟩ := h.resolved r hmem
      exact ⟨last, hresolved.congr rfl⟩ }

/-- The child writes a line. -/
theorem Timely.emits (h : Timely s) (next : EmittedLine) (current : Option Nat)
    (hcall : next.line.isFlush = true → next.call = none) :
    Timely { s with emitted := s.emitted ++ [next], current := current } := by
  have hkept {i : Nat} (hi : i < s.emitted.length) : (s.emitted ++ [next])[i]? = s.emitted[i]? :=
    List.getElem?_append_left hi
  have htake {n : Nat} (hn : n ≤ s.emitted.length) :
      (s.emitted ++ [next]).take n = s.emitted.take n := List.take_append_of_le_length hn
  have hfree {first last : Nat} (hlast : last ≤ s.emitted.length) (hfree : s.FlushFree first last) :
      TexpressoRun.FlushFree { s with emitted := s.emitted ++ [next], current := current } first
        last := by
    intro i other hi hi' hother
    rw [hkept (Nat.lt_of_lt_of_le hi' hlast)] at hother
    exact hfree i other hi hi' hother
  exact {
    handled_le := by
      show s.handled ≤ (s.emitted ++ [next]).length
      rw [List.length_append]
      exact Nat.le_trans h.handled_le (Nat.le_add_right _ _)
    uncalled := by
      intro other hmem
      rcases List.mem_append.mp hmem with hmem | hmem
      · exact h.uncalled other hmem
      · rw [List.mem_singleton.mp hmem]
        exact hcall
    session := by
      show ∃ session, handledLines ((s.emitted ++ [next]).take s.handled) = .ok session ∧ _
      rw [htake h.handled_le]
      exact h.session
    waiting := by
      intro waiter hmem
      obtain ⟨hafter, hsince, hwaiting⟩ := h.waiting waiter hmem
      exact ⟨hafter, hsince, hfree h.handled_le hwaiting⟩
    resolved := by
      intro r hmem
      obtain ⟨last, hresolved⟩ := h.resolved r hmem
      obtain ⟨flush, hflush, hisFlush⟩ := hresolved.flush
      have hlast : last < s.emitted.length := (List.getElem?_eq_some_iff.mp hflush).1
      refine ⟨last, ?_⟩
      exact {
        handled := hresolved.handled
        since := hresolved.since
        flush := ⟨flush, (hkept hlast).trans hflush, hisFlush⟩
        first := hfree (Nat.le_of_lt hlast) hresolved.first
        snapshot := by
          show ∃ session, handledLines ((s.emitted ++ [next]).take r.handled) = .ok session ∧ _
          rw [htake (by rw [hresolved.handled]; exact hlast)]
          exact hresolved.snapshot } }

/-- The next line is handled. -/
theorem Timely.handles {next : EmittedLine} (h : Timely s) (hnext : s.emitted[s.handled]? = some next) :
    Timely (s.handleLine next.line) := by
  unfold TexpressoRun.handleLine
  split
  · exact h.idle ⟨rfl, rfl, rfl, fun _ => rfl, List.Subset.refl _, rfl⟩
  · next protocol settled hline =>
      have hlt : s.handled < s.emitted.length := (List.getElem?_eq_some_iff.mp hnext).1
      have hcount := ProtocolState.flushCount_handleProtocolLine hline
      -- the lines of a session that handled one line more
      have hsession : ∃ session, handledLines (s.emitted.take (s.handled + 1)) = .ok session ∧
          session.SameLines protocol := by
        obtain ⟨session, hsession, hsame⟩ := h.session
        have hback : s.protocol.SameLines session := fun destination => (hsame destination).symm
        obtain ⟨session', hsession', hsame'⟩ := hback.handleProtocolLine hline
        refine ⟨session', ?_, fun destination => (hsame' destination).symm⟩
        rw [List.take_add_one, hnext, Option.toList_some, handledLines_concat, hsession]
        exact hsession'
      split
      · next hflush =>
          rw [hflush, if_pos rfl] at hcount
          exact {
            handled_le := hlt
            uncalled := h.uncalled
            session := hsession
            waiting := by
              intro waiter hmem
              obtain ⟨hmem, hafter⟩ := List.mem_filter.mp hmem
              have hsame := (h.waiting waiter hmem).1
              rw [decide_eq_true_eq] at hafter
              omega
            resolved := by
              intro r hmem
              rcases List.mem_append.mp hmem with hmem | hmem
              · obtain ⟨last, hresolved⟩ := h.resolved r hmem
                exact ⟨last, hresolved.congr rfl⟩
              · obtain ⟨waiter, hwaiter, rfl⟩ := List.mem_map.mp hmem
                obtain ⟨-, hsince, hfree⟩ := h.waiting waiter (List.mem_filter.mp hwaiter).1
                obtain ⟨session, hhandled, hsame⟩ := hsession
                exact ⟨s.handled, rfl, hsince, ⟨next, hnext, hflush⟩, hfree.congr rfl,
                  session, hhandled, hsame.snapshot.symm⟩ }
      · next hflush =>
          rw [if_neg hflush] at hcount
          rw [Bool.not_eq_true] at hflush
          exact {
            handled_le := hlt
            uncalled := h.uncalled
            session := hsession
            waiting := by
              intro waiter hmem
              obtain ⟨hafter, hsince, hfree⟩ := h.waiting waiter hmem
              refine ⟨hafter.trans hcount.symm, Nat.le_succ_of_le hsince, ?_⟩
              intro i other hfirst hlast hother
              rcases Nat.lt_succ_iff_lt_or_eq.mp hlast with hlast | rfl
              · exact hfree i other hfirst hlast hother
              · obtain rfl : next = other := Option.some.inj (hnext.symm.trans hother)
                exact hflush
            resolved := by
              intro r hmem
              obtain ⟨last, hresolved⟩ := h.resolved r hmem
              exact ⟨last, hresolved.congr rfl⟩ }

/-! ### Events -/

namespace Idle

theorem trans {u : TexpressoRun} (h : Idle s t) (h' : Idle t u) : Idle s u where
  emitted := h'.emitted.trans h.emitted
  handled := h'.handled.trans h.handled
  flushCount := h'.flushCount.trans h.flushCount
  lines := fun destination => (h.lines destination).trans (h'.lines destination)
  flushWaiters := fun _ hmem => h.flushWaiters (h'.flushWaiters hmem)
  resolved := h'.resolved.trans h.resolved

/-- The waiters for pages are no concern of the lines. -/
theorem pageWaiters (pageImageWaiters : List PageImageWaiter) (pageCountWaiters : Nat) :
    Idle s { s with
      protocol.pageImageWaiters := pageImageWaiters
      protocol.pageCountWaiters := pageCountWaiters } :=
  { Idle.refl s with lines := fun destination => by cases destination <;> rfl }

theorem reject (call : SessionCall) (error : JSString) : Idle s (s.reject call error) :=
  { Idle.refl s with }

theorem write (command : TexpressoCommand) (call : Option Nat) : Idle s (s.write command call) :=
  { Idle.refl s with }

theorem close : Idle s s.close := by
  unfold TexpressoRun.close
  split
  · exact refl s
  · exact { Idle.refl s with }

theorem waitForPageCount : Idle s s.waitForPageCount := by
  unfold TexpressoRun.waitForPageCount
  split
  · exact refl s
  · exact pageWaiters ..

theorem waitForPageImage (page dpi : Nat) : Idle s (s.waitForPageImage page dpi) := by
  unfold TexpressoRun.waitForPageImage
  split
  · exact refl s
  · exact pageWaiters ..

theorem getPageCount : Idle s s.getPageCount := by
  unfold TexpressoRun.getPageCount
  split
  · exact waitForPageCount.trans (reject ..)
  · exact waitForPageCount.trans (write ..)

theorem renderPage (page dpi : Nat) (theme : Option TexpressoRenderTheme) :
    Idle s (s.renderPage page dpi theme) := by
  unfold TexpressoRun.renderPage
  split
  · exact reject ..
  · split
    · exact (waitForPageImage page dpi).trans (reject ..)
    · exact (waitForPageImage page dpi).trans (write ..)

theorem fail (error : JSString) : Idle s (s.fail error) := by
  unfold TexpressoRun.fail
  split
  · exact refl s
  · exact { (pageWaiters [] 0 : Idle s _) with flushWaiters := List.nil_subset _ }

end Idle

theorem Timely.onCall (h : Timely s) (hstep : s.onCall options event = some t) : Timely t := by
  unfold TexpressoRun.onCall at hstep
  split at hstep
  case h_1 path range replacement =>
      obtain rfl := Option.some.inj hstep
      unfold TexpressoRun.applyRangeChange
      split
      · exact h.idle { Idle.refl s with }
      · exact (h.waits s.calls).idle { Idle.refl _ with }
  case h_2 =>
      obtain rfl := Option.some.inj hstep
      exact h.idle .getPageCount
  case h_3 =>
      obtain rfl := Option.some.inj hstep
      exact h.idle (.renderPage ..)
  case h_4 =>
      obtain rfl := Option.some.inj hstep
      exact h.idle { Idle.refl s with }
  case h_5 =>
      obtain rfl := Option.some.inj hstep
      exact h.idle { Idle.refl s with }
  case h_6 =>
      obtain rfl := Option.some.inj hstep
      exact h.idle .close
  case h_7 waiter =>
      split at hstep
      · obtain rfl := Option.some.inj hstep
        have hsettled : Idle s { s with flushWaiters := s.flushWaiters.erase waiter } :=
          { Idle.refl s with flushWaiters := List.erase_subset }
        exact h.idle (hsettled.trans (Idle.close.trans (.reject ..)))
      · cases hstep
  case h_8 =>
      split at hstep
      · obtain rfl := Option.some.inj hstep
        exact h.idle ((Idle.pageWaiters ..).trans (Idle.close.trans (.reject ..)))
      · cases hstep
  case h_9 =>
      split at hstep
      · obtain rfl := Option.some.inj hstep
        exact h.idle ((Idle.pageWaiters ..).trans (Idle.close.trans (.reject ..)))
      · cases hstep
  case h_10 => cases hstep

theorem Timely.onPipe (h : Timely s) (hstep : s.onPipe event = some t) : Timely t := by
  unfold TexpressoRun.onPipe at hstep
  split at hstep
  case h_1 =>
      split at hstep
      · cases hstep
      · split at hstep
        · cases hstep
        · split at hstep <;> obtain rfl := Option.some.inj hstep
          · exact h.idle { Idle.refl s with }
          · exact h.idle { Idle.refl s with }
  case h_2 =>
      split at hstep
      · cases hstep
      · split at hstep
        · obtain rfl := Option.some.inj hstep
          exact h.idle { Idle.refl s with }
        · cases hstep
  case h_3 line =>
      split at hstep
      · obtain rfl := Option.some.inj hstep
        refine h.emits _ s.current ?_
        intro hflush
        simp [ProtocolLine.command_of_isFlush hflush]
      · cases hstep
  case h_4 =>
      split at hstep
      · obtain rfl := Option.some.inj hstep
        exact h.emits _ none fun _ => rfl
      · cases hstep
  case h_5 =>
      split at hstep
      · obtain rfl := Option.some.inj hstep
        exact h.idle { Idle.refl s with }
      · cases hstep
  case h_6 => cases hstep

theorem Timely.onReport (h : Timely s) (hstep : s.onReport event = some t) : Timely t := by
  unfold TexpressoRun.onReport at hstep
  split at hstep
  case h_1 =>
      cases hnext : s.emitted[s.handled]? with
      | none =>
          rw [hnext] at hstep
          cases hstep
      | some next =>
          rw [hnext] at hstep
          obtain rfl := Option.some.inj hstep
          exact h.handles hnext
  case h_2 chunk =>
      obtain rfl := Option.some.inj hstep
      exact h.idle { Idle.refl s with
        lines := fun destination => (ProtocolState.lines_appendStderr destination chunk _).symm }
  case h_3 error =>
      split at hstep
      · cases hstep
      · have hexits : Idle s { s with exited := true } := { Idle.refl s with }
        split at hstep <;> obtain rfl := Option.some.inj hstep
        · exact h.idle hexits
        · exact h.idle (hexits.trans (.fail error))
  case h_4 =>
      obtain rfl := Option.some.inj hstep
      exact h.idle (.fail _)
  case h_5 => cases hstep

/-- One step of a session. -/
theorem Timely.step (h : Timely s) (hstep : s.step options event = some t) : Timely t := by
  unfold TexpressoRun.step at hstep
  split at hstep
  · cases hstep
  · split at hstep
    all_goals
      first
      | exact h.onPipe hstep
      | exact h.onReport hstep
      | exact h.onCall hstep

/-! ## Runs -/

theorem Timely.start (options : TexpressoSessionOptions) : Timely (TexpressoRun.start options) where
  handled_le := Nat.le_refl _
  uncalled := nofun
  session := ⟨.new, rfl, fun _ => rfl⟩
  waiting := by
    intro waiter hmem
    obtain rfl := List.mem_singleton.mp hmem
    refine ⟨rfl, Nat.le_refl _, ?_⟩
    intro i next _ hlast
    cases hlast
  resolved := nofun

variable {permitted : TexpressoRun → TexpressoEvent → Prop}

theorem reachable_timely (h : (texpressoSystem options).Reachable permitted s) : Timely s :=
  h.invariant (.start options) fun _ _ _ _ _ htimely hstep => htimely.step hstep

/-- **A snapshot includes the lines of its change exactly when every flush handled since its command
was written comes after them.** -/
theorem TexpressoRun.includes_iff (h : (texpressoSystem options).Reachable permitted s)
    {r : ResolvedCall} (hr : r ∈ s.resolved) : s.Includes r ↔ s.FlushedLast r.waiter := by
  have htimely := reachable_timely h
  obtain ⟨last, hresolved⟩ := htimely.resolved r hr
  obtain ⟨flush, hflush, hisFlush⟩ := hresolved.flush
  constructor
  · intro hincludes i j other next hother hisOther hsince hnext hcall
    -- the call was resolved by no later flush than this one
    have hfirst : last ≤ i := by
      by_contra hlt
      rw [hresolved.first i other hsince (Nat.lt_of_not_le hlt) hother] at hisOther
      cases hisOther
    have hj := hincludes.lines j next hnext hcall
    rw [hresolved.handled] at hj
    have hne : j ≠ last := by
      rintro rfl
      obtain rfl : flush = next := Option.some.inj (hflush.symm.trans hnext)
      rw [htimely.uncalled flush (List.mem_of_getElem? hflush) hisFlush] at hcall
      cases hcall
    omega
  · intro hflushed
    refine ⟨?_, hresolved.snapshot⟩
    intro i next hnext hcall
    have hlt := hflushed last i flush next hflush hisFlush hresolved.since hnext hcall
    rw [hresolved.handled]
    omega

/-! ## One change -/

namespace OneFileChild

/-- The child reads the change, appends a line and flushes. -/
def inOrder : List TexpressoEvent :=
  starting ++ [change, .stdinWrites, .childReads, .childEmits LogMirror.appendLine,
    .childFinishes flushLine, .line, .line]

/-- The child flushes once more before it reads the change. -/
def hurried : List TexpressoEvent :=
  starting ++ [change, .childEmits flushLine, .line, .stdinWrites, .childReads,
    .childEmits LogMirror.appendLine]

end OneFileChild

theorem TexpressoRun.includes_inOrder : ∃ r ∈ (OneFileChild.after OneFileChild.inOrder).resolved,
    r.waiter.call = 1 ∧ (OneFileChild.after OneFileChild.inOrder).Includes r := by
  refine ⟨⟨⟨1, 1, 1⟩, ⟨js "a", [], .success⟩, 3⟩, by decide, rfl, ?_⟩
  refine (includes_iff (OneFileChild.reachable_after OneFileChild.inOrder) (by decide)).mpr ?_
  have hemitted : (OneFileChild.after OneFileChild.inOrder).emitted
      = [⟨OneFileChild.flushLine, none⟩, ⟨LogMirror.appendLine, some 1⟩,
        ⟨OneFileChild.flushLine, none⟩] := rfl
  intro i j flush next hflush hisFlush hsince hnext hcall
  rw [hemitted] at hflush hnext
  match i, j with
  | 0, _ => exact absurd hsince (by decide)
  | 1, _ =>
      obtain rfl := Option.some.inj hflush
      exact absurd hisFlush (by decide)
  | 2, 0 | 2, 1 => decide
  | 2, 2 =>
      obtain rfl := Option.some.inj hnext
      cases hcall
  | 2, _ + 3 => cases hnext
  | _ + 3, _ => cases hflush

/-- **A flush on its own resolves a call** before the child has seen its change. -/
theorem TexpressoRun.hurried_stale : ¬ ∀ options s,
    (texpressoSystem options).Reachable (fun _ _ => True) s → ∀ r ∈ s.resolved, s.Includes r := by
  intro h
  have hincludes := h OneFileChild.sessionOptions _ (OneFileChild.reachable_after OneFileChild.hurried)
    ⟨⟨1, 1, 1⟩, ⟨[], [], .success⟩, 2⟩ (by decide)
  have hlate := hincludes.lines 2 ⟨LogMirror.appendLine, some 1⟩ rfl rfl
  exact absurd hlate (by decide)

end Typr
