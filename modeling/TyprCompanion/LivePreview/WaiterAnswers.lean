import TyprCompanion.LivePreview.Waiters

/-!
# Answers for waiters

Which waiter of a session gets what the child answers.

* **`WaiterRun.AnswersOldest`** — an answer goes to the oldest waiter for it, and to nobody else.
* `WaiterRun.erase` — the session without the identities of its waiters.
* **`erase_handleProtocolLine`** — without them it does what `ProtocolState` does.
-/

namespace Typr

variable {options : TexpressoSessionOptions} {event : WaiterEvent} {s t : WaiterRun}

/-! ## Answers -/

namespace ProtocolLine

variable {line : ProtocolLine}

/-- A line that answers a request is a message with one of three verbs. -/
theorem message_of_pageMessage {message : PageMessage} (h : line.pageMessage? = some message) :
    ∃ verb args, line.message? = some (verb, args) ∧ Typr.pageMessage? verb args = some message ∧
      (verb = js "page-count" ∨ verb = js "page-image" ∨ verb = js "page-image-error") := by
  obtain ⟨⟨verb, args⟩, hmessage, hpage⟩ := Option.bind_eq_some_iff.mp h
  refine ⟨verb, args, hmessage, hpage, ?_⟩
  have hcases : Typr.pageMessage? verb args = some message := hpage
  unfold Typr.pageMessage? at hcases
  split_ifs at hcases with hcount himage herror
  · exact .inl hcount
  · exact .inr (.inl himage)
  · exact .inr (.inr herror)

theorem parsed_of_message {message : JSString × List Json} (h : line.message? = some message) :
    line.parsed.isNone = false := by
  unfold message? at h
  cases hparsed : line.parsed with
  | none => simp [hparsed] at h
  | some value => rfl

end ProtocolLine

/-- These verbs neither append nor truncate lines. -/
theorem ProtocolState.linesCommand_of_page {verb : JSString} (args : List Json)
    (h : verb = js "page-count" ∨ verb = js "page-image" ∨ verb = js "page-image-error") :
    linesCommand? verb args = none := by
  unfold linesCommand?
  split
  · rfl
  · rcases h with rfl | rfl | rfl
    all_goals rw [if_neg (by decide), if_neg (by decide)]

namespace WaiterRun

/-- A line that answers a request answers the waiter, and changes nothing else but the state of the
protocol. -/
theorem handleProtocolLine_of_pageMessage {line : ProtocolLine} {message : PageMessage}
    (h : line.pageMessage? = some message) (s : WaiterRun) :
    ∃ protocol, s.handleProtocolLine line = { s with protocol := protocol }.answerPage message := by
  obtain ⟨verb, args, hmessage, -, hverb⟩ := ProtocolLine.message_of_pageMessage h
  have hflush : line.isFlush = false := by
    rw [ProtocolLine.isFlush_of_message hmessage, decide_eq_false_iff_not]
    rcases hverb with rfl | rfl | rfl <;> decide
  have hprotocol : s.protocol.handleProtocolLine line = .ok (s.protocol.otherMessage verb args) := by
    unfold ProtocolState.handleProtocolLine
    rw [if_neg (by simp [ProtocolLine.parsed_of_message hmessage]), hmessage]
    dsimp only
    rw [ProtocolState.linesCommand_of_page args hverb]
  refine ⟨(s.protocol.otherMessage verb args).1, ?_⟩
  unfold WaiterRun.handleProtocolLine
  rw [hprotocol]
  dsimp only
  rw [hflush, if_neg Bool.false_ne_true, h]

/-- Another line answers no request. -/
theorem handleProtocolLine_of_none {line : ProtocolLine} (h : line.pageMessage? = none)
    (s : WaiterRun) :
    (s.handleProtocolLine line).pageImageWaiters = s.pageImageWaiters ∧
      (s.handleProtocolLine line).pageCountWaiters = s.pageCountWaiters := by
  unfold WaiterRun.handleProtocolLine
  split
  · exact ⟨rfl, rfl⟩
  · dsimp only
    split
    · exact ⟨rfl, rfl⟩
    · rw [h]
      exact ⟨rfl, rfl⟩

theorem pageCountWaiters_answerPage (s : WaiterRun) (count : Nat) :
    (s.answerPage (.count count)).pageCountWaiters
      = s.pageCountWaiters.answerOldest (fun _ => true) fun _ => .ok count := rfl

theorem pageImageWaiters_answerPage (s : WaiterRun) (answer : PageAnswer) :
    (s.answerPage (.page answer)).pageImageWaiters
      = s.pageImageWaiters.answerOldest (fun waiter => answer.names waiter.page) answer.result := rfl

/-- **Answers go to the oldest**: a page count to the oldest waiter for it, an image or an error to the
oldest waiter for its page, and nobody else gets anything. -/
structure AnswersOldest (s : WaiterRun) (line : ProtocolLine) : Prop where
  count : ∀ count, line.pageMessage? = some (.count count) →
    (∀ waiter, s.pageCountWaiters.Oldest (fun _ => true) waiter →
      (s.handleProtocolLine line).pageCountWaiters
        = s.pageCountWaiters.answer waiter.1 (.ok count)) ∧
    (s.pageCountWaiters.waiting = [] →
      (s.handleProtocolLine line).pageCountWaiters = s.pageCountWaiters) ∧
    (s.handleProtocolLine line).pageImageWaiters = s.pageImageWaiters
  page : ∀ answer, line.pageMessage? = some (.page answer) →
    (∀ waiter, s.pageImageWaiters.Oldest (fun waiter => answer.names waiter.page) waiter →
      (s.handleProtocolLine line).pageImageWaiters
        = s.pageImageWaiters.answer waiter.1 (answer.result waiter.2)) ∧
    ((∀ waiter ∈ s.pageImageWaiters.waiting, answer.names waiter.2.page = false) →
      (s.handleProtocolLine line).pageImageWaiters = s.pageImageWaiters) ∧
    (s.handleProtocolLine line).pageCountWaiters = s.pageCountWaiters
  other : line.pageMessage? = none →
    (s.handleProtocolLine line).pageImageWaiters = s.pageImageWaiters ∧
      (s.handleProtocolLine line).pageCountWaiters = s.pageCountWaiters

theorem Bookkeeping.answersOldest (h : Bookkeeping s) (line : ProtocolLine) :
    s.AnswersOldest line where
  count := by
    intro count hcount
    obtain ⟨protocol, hline⟩ := handleProtocolLine_of_pageMessage hcount s
    rw [hline, pageCountWaiters_answerPage]
    refine ⟨fun waiter hold => h.counts.answerOldest_of_oldest hold _, fun hnone => ?_, rfl⟩
    refine Core.Waiters.answerOldest_of_none ?_ _
    rw [hnone]
    nofun
  page := by
    intro answer hpage
    obtain ⟨protocol, hline⟩ := handleProtocolLine_of_pageMessage hpage s
    rw [hline, pageImageWaiters_answerPage]
    refine ⟨fun waiter hold => h.images.answerOldest_of_oldest hold _, fun hnone => ?_, rfl⟩
    exact Core.Waiters.answerOldest_of_none hnone _
  other := fun hnone => handleProtocolLine_of_none hnone s

end WaiterRun

/-! ## Without the identities -/

/-- The state with these waiters. -/
def ProtocolState.withWaiters (flushes : List Nat) (images : List PageImageWaiter) (counts : Nat)
    (p : ProtocolState) : ProtocolState :=
  { p with flushWaiters := flushes, pageImageWaiters := images, pageCountWaiters := counts }

namespace ProtocolState

variable {p : ProtocolState} {flushes : List Nat} {images : List PageImageWaiter} {counts : Nat}

theorem applyCommand_withWaiters (command : LinesCommand) :
    (p.withWaiters flushes images counts).applyCommand command
      = (p.applyCommand command).map (withWaiters flushes images counts) := by
  have hset (destination : Destination) (lines : LineArray) :
      (p.withWaiters flushes images counts).setLines destination lines
        = (p.setLines destination lines).withWaiters flushes images counts := by
    cases destination <;> rfl
  have hlines (destination : Destination) :
      (p.withWaiters flushes images counts).lines destination = p.lines destination := by
    cases destination <;> rfl
  cases command with
  | append destination items =>
      rw [applyCommand, applyCommand, hlines]
      cases pushLines (p.lines destination) items with
      | error error => rfl
      | ok lines => simp only [Except.map, hset]
  | truncate destination n =>
      rw [applyCommand, applyCommand, hlines]
      cases setLength (p.lines destination) (max 0 n).toNat with
      | error error => rfl
      | ok lines => simp only [Except.map, hset]

theorem imageAnswer_of_none {args : List Json} (h : pageMessage? (js "page-image") args = none) :
    imageAnswer? args = none := by
  rw [pageMessage?, if_neg (by decide), if_pos rfl] at h
  exact Option.map_eq_none_iff.mp h

theorem errorAnswer_of_none {args : List Json}
    (h : pageMessage? (js "page-image-error") args = none) : errorAnswer? args = none := by
  rw [pageMessage?, if_neg (by decide), if_neg (by decide), if_pos rfl] at h
  exact Option.map_eq_none_iff.mp h

/-- The arguments of a message that is not an image. -/
theorem pageImage_of_none {args : List Json} (h : imageAnswer? args = none) (p : ProtocolState) :
    p.pageImage args = (p.appendStderr (js "Invalid TeXpresso page-image message.\n"), []) := by
  unfold imageAnswer? at h
  unfold pageImage
  split
  · next hpage hwidth hheight hmime hencoded =>
      rw [hpage, hwidth, hheight, hmime, hencoded] at h
      split
      · rfl
      · next hvalid =>
          dsimp only at h
          rw [if_neg hvalid] at h
          cases h
  · rfl

theorem otherMessage_pageCount {args : List Json} {count : Nat}
    (h : nonNegative? args[0]? = some count) (p : ProtocolState) :
    (p.otherMessage (js "page-count") args).1 = { p with pageCountWaiters := p.pageCountWaiters - 1 } := by
  unfold otherMessage
  rw [if_neg fun h => absurd h.1 (by decide), if_neg (by decide), if_neg (by decide), if_pos rfl, h]
  obtain ⟨_, _, _, _, _, _, _, _, waiters⟩ := p
  cases waiters <;> rfl

theorem erase_of_find? {α : Type} [DecidableEq α] {l : List α} {q : α → Bool} {a : α}
    (h : l.find? q = some a) : l.erase a = l.eraseP q := by
  induction l with
  | nil => rfl
  | cons b rest ih =>
      by_cases hb : q b = true
      · rw [List.find?_cons_of_pos hb, Option.some.injEq] at h
        rw [h, List.erase_cons_head, List.eraseP_cons_of_pos (h ▸ hb)]
      · rw [List.find?_cons_of_neg hb] at h
        have hne : b ≠ a := by
          rintro rfl
          exact hb (List.find?_some h)
        rw [List.erase_cons_tail (by simpa using hne), List.eraseP_cons_of_neg hb, ih h]

/-- The waiter that is found leaves the set. -/
theorem images_of_find? {p q : ProtocolState} {kind : PageImageWaiter → Bool}
    (hfind : p.pageImageWaiters.find? kind = none → q = p)
    (hsome : ∀ waiter, p.pageImageWaiters.find? kind = some waiter →
      q = { p with pageImageWaiters := p.pageImageWaiters.erase waiter }) :
    q = { p with pageImageWaiters := p.pageImageWaiters.eraseP kind } := by
  cases h : p.pageImageWaiters.find? kind with
  | none => rw [hfind h, List.eraseP_of_forall_not (List.find?_eq_none.mp h)]
  | some waiter => rw [hsome waiter h, erase_of_find? h]

theorem otherMessage_flush (args : List Json) (p : ProtocolState) :
    p.otherMessage (js "flush") args = p.flush := by
  unfold otherMessage
  rw [if_neg fun h => absurd h.1 (by decide), if_neg (by decide), if_pos rfl]

theorem otherMessage_pageImage (args : List Json) (p : ProtocolState) :
    p.otherMessage (js "page-image") args = p.pageImage args := by
  unfold otherMessage
  rw [if_neg fun h => absurd h.1 (by decide), if_neg (by decide), if_neg (by decide),
    if_neg (by decide), if_pos rfl]

theorem pageImage_of_some {args : List Json} {answer : PageAnswer} (h : imageAnswer? args = some answer)
    (p : ProtocolState) : (p.pageImage args).1 = { p with
      pageImageWaiters := p.pageImageWaiters.eraseP fun waiter => answer.names waiter.page } := by
  unfold imageAnswer? at h
  split at h
  · next page width height mimeType encoded hpage hwidth hheight hmime hencoded =>
      split at h
      · cases h
      · next hvalid =>
          obtain rfl := Option.some.inj h
          unfold pageImage
          rw [hpage, hwidth, hheight, hmime, hencoded]
          dsimp only
          rw [if_neg hvalid]
          refine images_of_find? ?_ ?_
          · intro hnone
            unfold PageAnswer.names at hnone
            rw [hnone]
          · intro waiter hsome
            unfold PageAnswer.names at hsome
            rw [hsome]
  · cases h

theorem error_of_some {args : List Json} {answer : PageAnswer} (h : errorAnswer? args = some answer)
    (p : ProtocolState) : (p.otherMessage (js "page-image-error") args).1 = { p with
      pageImageWaiters := p.pageImageWaiters.eraseP fun waiter => answer.names waiter.page } := by
  unfold errorAnswer? at h
  split at h
  · next argument page message hargument hpage hmessage =>
      obtain rfl := Option.some.inj h
      unfold otherMessage
      rw [if_neg fun h => absurd h.1 (by decide), if_neg (by decide), if_neg (by decide),
        if_neg (by decide), if_neg (by decide), if_pos rfl, hargument, hmessage]
      rw [hargument] at hpage
      rw [hpage]
      dsimp only
      refine images_of_find? ?_ ?_
      · intro hnone
        unfold PageAnswer.names at hnone
        rw [hnone]
      · intro waiter hsome
        unfold PageAnswer.names at hsome
        rw [hsome]
  · cases h

/-- A message that answers no request leaves the waiters alone, and does not look at them. -/
theorem otherMessage_withWaiters {verb : JSString} {args : List Json} (hflush : verb ≠ js "flush")
    (hpage : pageMessage? verb args = none) :
    ((p.withWaiters flushes images counts).otherMessage verb args).1
      = (p.otherMessage verb args).1.withWaiters flushes images counts := by
  unfold otherMessage
  split_ifs with hinput hlookup hcount himage herror
  · split <;> rfl
  · split <;> rfl
  · subst hcount
    have hnone : nonNegative? args[0]? = none := by
      rw [pageMessage?, if_pos rfl] at hpage
      exact Option.map_eq_none_iff.mp hpage
    rw [hnone]
  · subst himage
    rw [pageImage_of_none (imageAnswer_of_none hpage), pageImage_of_none (imageAnswer_of_none hpage)]
    rfl
  · subst herror
    have hnone := errorAnswer_of_none hpage
    split
    · next hargument hpage hmessage =>
        unfold errorAnswer? at hnone
        rw [hpage, hmessage, hargument] at hnone
        cases hnone
    · rfl
  · rfl

end ProtocolState

namespace WaiterRun

/-- The session without the identities of its waiters. -/
def erase (s : WaiterRun) : ProtocolState :=
  s.protocol.withWaiters (s.flushWaiters.waiting.map Prod.snd)
    (s.pageImageWaiters.waiting.map Prod.snd) s.pageCountWaiters.waiting.length

theorem erase_answerPage (h : Bookkeeping s) {verb : JSString} {args : List Json} {message : PageMessage}
    (hmessage : pageMessage? verb args = some message) :
    (s.erase.otherMessage verb args).1
      = ({ s with protocol := (s.protocol.otherMessage verb args).1 }.answerPage message).erase := by
  have himages (answer : PageAnswer) := h.images.waiting_answerOldest
    (fun waiter => answer.names waiter.page) answer.result
  unfold pageMessage? at hmessage
  split_ifs at hmessage with hcount himage herror
  · subst hcount
    obtain ⟨count, hargs, rfl⟩ := Option.map_eq_some_iff.mp hmessage
    have hcounts : (s.pageCountWaiters.answerOldest (fun _ => true) fun _ => .ok count).waiting
        = s.pageCountWaiters.waiting.eraseP fun _ => true := h.counts.waiting_answerOldest _ _
    rw [ProtocolState.otherMessage_pageCount hargs, ProtocolState.otherMessage_pageCount hargs]
    simp only [erase, answerPage, hcounts, ProtocolState.withWaiters]
    cases s.pageCountWaiters.waiting <;> rfl
  · subst himage
    obtain ⟨answer, hargs, rfl⟩ := Option.map_eq_some_iff.mp hmessage
    rw [ProtocolState.otherMessage_pageImage, ProtocolState.otherMessage_pageImage,
      ProtocolState.pageImage_of_some hargs, ProtocolState.pageImage_of_some hargs]
    simp only [erase, answerPage, himages, ProtocolState.withWaiters, List.eraseP_map]
    rfl
  · subst herror
    obtain ⟨answer, hargs, rfl⟩ := Option.map_eq_some_iff.mp hmessage
    rw [ProtocolState.error_of_some hargs, ProtocolState.error_of_some hargs]
    simp only [erase, answerPage, himages, ProtocolState.withWaiters, List.eraseP_map]
    rfl

theorem erase_answerFlush (h : Bookkeeping s) :
    s.erase.flush.1 = ({ s with protocol := s.protocol.flush.1 }.answerFlush).erase := by
  have hflushes : (s.flushWaiters.answerAll (fun after => after < s.protocol.flushCount + 1)
      (.ok s.protocol.flush.1.snapshot)).waiting
        = s.flushWaiters.waiting.filter fun waiter => !decide (waiter.2 < s.protocol.flushCount + 1) :=
    h.flushes.waiting_answerAll _ _
  have hfilter : (s.flushWaiters.waiting.map Prod.snd).filter
        (fun after => s.protocol.flushCount + 1 ≤ after)
      = (s.flushWaiters.waiting.filter fun waiter =>
          !decide (waiter.2 < s.protocol.flushCount + 1)).map Prod.snd := by
    rw [List.filter_map]
    congr 1
    refine List.filter_congr fun waiter _ => ?_
    rw [← decide_not]
    exact decide_eq_decide.mpr Nat.not_lt.symm
  show s.protocol.flush.1.withWaiters
      ((s.flushWaiters.waiting.map Prod.snd).filter fun after => s.protocol.flushCount + 1 ≤ after)
      (s.pageImageWaiters.waiting.map Prod.snd) s.pageCountWaiters.waiting.length
    = s.protocol.flush.1.withWaiters
      ((s.flushWaiters.answerAll (fun after => after < s.protocol.flushCount + 1)
        (.ok s.protocol.flush.1.snapshot)).waiting.map Prod.snd)
      (s.pageImageWaiters.waiting.map Prod.snd) s.pageCountWaiters.waiting.length
  rw [hfilter, hflushes]

/-- A message that is neither about lines nor for a waiter. -/
theorem erase_otherMessage (h : Bookkeeping s) {line : ProtocolLine} {verb : JSString}
    {args : List Json} (hmessage : line.message? = some (verb, args)) :
    (s.erase.otherMessage verb args).1
      = (let t := { s with protocol := (s.protocol.otherMessage verb args).1 }
         if line.isFlush then t.answerFlush
         else match line.pageMessage? with
           | some message => t.answerPage message
           | none => t).erase := by
  have hpageMessage : line.pageMessage? = pageMessage? verb args := by
    rw [ProtocolLine.pageMessage?, hmessage, Option.bind_some]
  rw [ProtocolLine.isFlush_of_message hmessage, hpageMessage]
  by_cases hflush : verb = js "flush"
  · subst hflush
    rw [ProtocolState.otherMessage_flush, ProtocolState.otherMessage_flush]
    exact erase_answerFlush h
  · rw [if_neg (by simpa using hflush)]
    cases hpage : pageMessage? verb args with
    | none => exact ProtocolState.otherMessage_withWaiters hflush hpage
    | some message => exact erase_answerPage h hpage

/-- **Without the identities** of the waiters a session does what `ProtocolState` does. -/
theorem erase_handleProtocolLine (h : Bookkeeping s) (line : ProtocolLine) :
    (s.erase.handleProtocolLine line).map Prod.fst
      = (s.protocol.handleProtocolLine line).map fun _ => (s.handleProtocolLine line).erase := by
  cases hmessage : line.message? with
  | none =>
      have hnothing : line.pageMessage? = none ∧ line.isFlush = false := by
        simp [ProtocolLine.pageMessage?, ProtocolLine.isFlush, hmessage]
      unfold WaiterRun.handleProtocolLine ProtocolState.handleProtocolLine
      rw [hmessage, hnothing.1, hnothing.2]
      split <;> rfl
  | some message =>
      obtain ⟨verb, args⟩ := message
      have hparsed := ProtocolLine.parsed_of_message hmessage
      cases hcommand : ProtocolState.linesCommand? verb args with
      | none =>
          have hline (p : ProtocolState) :
              p.handleProtocolLine line = .ok (p.otherMessage verb args) := by
            unfold ProtocolState.handleProtocolLine
            rw [hparsed, if_neg Bool.false_ne_true, hmessage]
            dsimp only
            rw [hcommand]
          unfold WaiterRun.handleProtocolLine
          rw [hline, hline]
          exact congrArg Except.ok (erase_otherMessage h hmessage)
      | some command =>
          have hline (p : ProtocolState) :
              p.handleProtocolLine line = (p.applyCommand command).map fun t => (t, []) := by
            unfold ProtocolState.handleProtocolLine
            rw [hparsed, if_neg Bool.false_ne_true, hmessage]
            dsimp only
            rw [hcommand]
          have hverb : line.isFlush = false ∧ line.pageMessage? = none := by
            constructor
            · rw [ProtocolLine.isFlush_of_message hmessage, decide_eq_false_iff_not]
              rintro rfl
              rw [ProtocolState.linesCommand_flush] at hcommand
              cases hcommand
            · rw [Option.eq_none_iff_forall_ne_some]
              intro other hpage
              obtain ⟨_, _, hother, -, hpages⟩ := ProtocolLine.message_of_pageMessage hpage
              obtain ⟨rfl, rfl⟩ := Prod.mk.inj (Option.some.inj (hmessage.symm.trans hother))
              rw [ProtocolState.linesCommand_of_page _ hpages] at hcommand
              cases hcommand
          unfold WaiterRun.handleProtocolLine
          rw [hline, hline, erase, ProtocolState.applyCommand_withWaiters, hverb.1, hverb.2]
          cases s.protocol.applyCommand command <;> rfl

end WaiterRun

end Typr
