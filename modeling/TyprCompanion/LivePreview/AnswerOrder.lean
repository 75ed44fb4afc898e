import TyprCompanion.LivePreview.WaiterAnswers

/-!
# Answers in the order of the requests

A child that answers every request once, and in order: the waiters for a page are those of the requests
for it that are pending, in their order, so every answer reaches the waiter of its request.

* `WaiterRun.InStep` — the waiters for a page and the pending requests for it.
* `AnswersOnly`, `InTime` — the child answers requests only; no wait for the page times out.
* `WaiterRun.SettlesWithAnswers` — what becomes of every request for a page.
* **`waiter_bookkeeping`** — what every run keeps of the waiters.
* **`late_answer_taken`** — after a timeout an answer can reach the waiter of a later request.
-/

namespace Typr

variable {options : TexpressoSessionOptions} {event : WaiterEvent} {s t : WaiterRun}

/-! ## Requests for a page -/

/-- The request is for the page. -/
def PageRequest.isFor (page : Nat) (request : PageRequest) : Bool :=
  match request.command with
  | .renderPage requested _ _ => requested = page
  | _ => false

/-- The waiters of the requests for a page. -/
def waitersOf (page : Nat) (requests : List PageRequest) : List Nat :=
  (requests.filter (PageRequest.isFor page)).map PageRequest.waiter

@[simp] theorem waitersOf_append (page : Nat) (l m : List PageRequest) :
    waitersOf page (l ++ m) = waitersOf page l ++ waitersOf page m := by
  simp [waitersOf]

theorem waitersOf_cons_of_pos {page : Nat} {request : PageRequest} (l : List PageRequest)
    (h : request.isFor page = true) :
    waitersOf page (request :: l) = request.waiter :: waitersOf page l := by
  simp [waitersOf, h]

theorem waitersOf_cons_of_neg {page : Nat} {request : PageRequest} (l : List PageRequest)
    (h : request.isFor page = false) : waitersOf page (request :: l) = waitersOf page l := by
  simp [waitersOf, h]

theorem mem_waitersOf {page : Nat} {l : List PageRequest} {request : PageRequest} (hmem : request ∈ l)
    (h : request.isFor page = true) : request.waiter ∈ waitersOf page l :=
  List.mem_map_of_mem (List.mem_filter.mpr ⟨hmem, h⟩)

/-- An answer is for one page. -/
theorem PageAnswer.names_iff {answer : PageAnswer} {page : Nat} (h : answer.names page = true)
    (other : Nat) : answer.names other = decide (other = page) := by
  cases answer with
  | image named _ _ _ =>
      rw [names, decide_eq_true_eq] at h
      rw [names, h]
  | error named _ _ =>
      rw [names, decide_eq_true_eq] at h
      rw [names, ← h]
      exact decide_eq_decide.mpr Int.ofNat_inj

namespace ProtocolLine

variable {line : ProtocolLine}

theorem pageMessage_of_answers_pageCount (h : line.answers .pageCount = true) :
    ∃ count, line.pageMessage? = some (.count count) := by
  simp only [answers] at h
  split at h
  · next count hmessage => exact ⟨count, hmessage⟩
  · cases h

theorem pageMessage_of_answers_renderPage {page dpi : Nat} {theme : Option TexpressoRenderTheme}
    (h : line.answers (.renderPage page dpi theme) = true) :
    ∃ answer, line.pageMessage? = some (.page answer) ∧ answer.names page = true := by
  simp only [answers] at h
  split at h
  · next answer hmessage => exact ⟨answer, hmessage, h⟩
  · cases h

end ProtocolLine

namespace WaiterRun

/-- Who waits for a page, the oldest first. -/
def pageQueue (page : Nat) (s : WaiterRun) : List Nat :=
  s.pageImageWaiters.queue fun waiter => waiter.page = page

/-- The requests whose answers were not handled. -/
def unreadRequests (s : WaiterRun) : List PageRequest := s.unread.filterMap WrittenLine.request

/-- The request was not answered, or its answer was not handled. -/
def Pending (s : WaiterRun) (request : PageRequest) : Prop :=
  request ∈ s.unanswered ∨ request ∈ s.unreadRequests

/-- The waiter of the request got the answer the child gave to it. -/
def AnsweredAs (s : WaiterRun) (request : PageRequest) (waiter : PageImageWaiter) : Prop :=
  ∃ line answer, (request, line) ∈ s.answers ∧ line.pageMessage? = some (.page answer) ∧
    (request.waiter, answer.result waiter) ∈ s.pageImageWaiters.settled

/-- The waiter of the request was rejected because of the exit. -/
def CutOff (s : WaiterRun) (request : PageRequest) : Prop :=
  ∃ error, s.exitError = some error ∧ (request.waiter, .error error) ∈ s.pageImageWaiters.settled

/-- What became of a request. -/
def Fate (s : WaiterRun) (request : PageRequest) : Prop :=
  (s.exitError = none ∧ s.Pending request) ∨
    (∃ waiter, s.pageImageWaiters.made[request.waiter]? = some waiter ∧ s.AnsweredAs request waiter) ∨
    s.CutOff request

/-- A line on its way answers its request, and answers nothing when it has none. -/
def Fits (s : WaiterRun) (written : WrittenLine) : Prop :=
  match written.request with
  | some request => written.line.answers request.command = true ∧
      (request, written.line) ∈ s.answers ∧ request ∈ s.sent
  | none => written.line.pageMessage? = none

/-- **In step**: the waiters for a page are those of the requests that are pending, in the order of the
requests, and then those whose request could not be sent. -/
structure InStep (page : Nat) (s : WaiterRun) : Prop where
  queue : s.exitError = none → ∃ orphans, s.pageQueue page
      = waitersOf page s.unreadRequests ++ waitersOf page s.unanswered ++ orphans ∧
    (s.closed = false → orphans = [])
  made : ∀ request ∈ s.sent, ∀ requested dpi theme,
    request.command = .renderPage requested dpi theme →
      s.pageImageWaiters.made[request.waiter]? = some ⟨requested, dpi⟩
  unanswered : s.unanswered ⊆ s.sent
  unread : ∀ written ∈ s.unread, s.Fits written
  fate : ∀ request ∈ s.sent, request.isFor page = true → s.Fate request

/-- The child answers requests only, one after the other. -/
def AnswersOnly (event : WaiterEvent) : Prop :=
  ∀ line, event = .childEmits line → line.pageMessage? = none

/-- No wait for the page times out. -/
def InTime (page : Nat) (s : WaiterRun) (event : WaiterEvent) : Prop :=
  ∀ waiter dpi, event = .pageImageTimeout waiter →
    s.pageImageWaiters.made[waiter]? ≠ some ⟨page, dpi⟩

/-! ### What a step leaves alone -/

/-- The pipes and the flags are as before. -/
structure SamePipes (s t : WaiterRun) : Prop where
  /-- it may have been closed -/
  closed : t.closed = false → s.closed = false
  exitError : t.exitError = s.exitError
  sent : t.sent = s.sent
  unanswered : t.unanswered = s.unanswered
  answers : t.answers = s.answers
  unread : t.unread = s.unread

theorem SamePipes.refl (s : WaiterRun) : SamePipes s s := ⟨id, rfl, rfl, rfl, rfl, rfl⟩

theorem samePipes_handleProtocolLine (s : WaiterRun) (line : ProtocolLine) :
    SamePipes s (s.handleProtocolLine line) := by
  unfold handleProtocolLine
  split
  · exact { SamePipes.refl s with }
  · dsimp only
    split
    · exact { SamePipes.refl s with }
    · split
      · next message _ => cases message <;> exact { SamePipes.refl s with }
      · exact { SamePipes.refl s with }

/-- What a fate depends on. -/
theorem Fate.mono {request : PageRequest} (h : s.Fate request) (hexit : t.exitError = s.exitError)
    (hpending : s.exitError = none → s.Pending request → t.Fate request)
    (hanswers : s.answers ⊆ t.answers)
    (hmade : ∀ waiter, s.pageImageWaiters.made[request.waiter]? = some waiter →
      t.pageImageWaiters.made[request.waiter]? = some waiter)
    (hsettled : s.pageImageWaiters.settled ⊆ t.pageImageWaiters.settled) : t.Fate request := by
  rcases h with ⟨hnone, h⟩ | ⟨waiter, hwaiter, line, answer, hmem, hmessage, h⟩ | ⟨error, herror, h⟩
  · exact hpending hnone h
  · exact .inr (.inl ⟨waiter, hmade _ hwaiter, line, answer, hanswers hmem, hmessage, hsettled h⟩)
  · exact .inr (.inr ⟨error, hexit.trans herror, hsettled h⟩)

theorem Fits.mono {written : WrittenLine} (h : s.Fits written) (hanswers : s.answers ⊆ t.answers)
    (hsent : s.sent ⊆ t.sent) : t.Fits written := by
  unfold Fits at h ⊢
  split
  · next hrequest =>
      rw [hrequest] at h
      exact ⟨h.1, hanswers h.2.1, hsent h.2.2⟩
  · next hrequest =>
      rw [hrequest] at h
      exact h

namespace InStep

variable {page : Nat}

/-- Steps that do not concern the page keep it in step. -/
theorem same (h : InStep page s) (hpipes : SamePipes s t) (hqueue : t.pageQueue page = s.pageQueue page)
    (hmade : ∀ (i : Nat) (waiter : PageImageWaiter), s.pageImageWaiters.made[i]? = some waiter →
      t.pageImageWaiters.made[i]? = some waiter)
    (hsettled : s.pageImageWaiters.settled ⊆ t.pageImageWaiters.settled) : InStep page t where
  queue := by
    intro hexit
    rw [hpipes.exitError] at hexit
    obtain ⟨orphans, heq, horphans⟩ := h.queue hexit
    refine ⟨orphans, ?_, fun hclosed => horphans (hpipes.closed hclosed)⟩
    rw [hqueue, heq, hpipes.unanswered, unreadRequests, unreadRequests, hpipes.unread]
  made := by
    intro request hmem requested dpi theme hcommand
    rw [hpipes.sent] at hmem
    exact hmade _ _ (h.made request hmem requested dpi theme hcommand)
  unanswered := by
    rw [hpipes.unanswered, hpipes.sent]
    exact h.unanswered
  unread := by
    intro written hmem
    rw [hpipes.unread] at hmem
    exact (h.unread written hmem).mono (by rw [hpipes.answers]; exact List.Subset.refl _)
      (by rw [hpipes.sent]; exact List.Subset.refl _)
  fate := by
    intro request hmem hfor
    rw [hpipes.sent] at hmem
    refine (h.fate request hmem hfor).mono hpipes.exitError ?_
      (by rw [hpipes.answers]; exact List.Subset.refl _) (hmade _) hsettled
    intro hnone hpending
    refine .inl ⟨hpipes.exitError.trans hnone, ?_⟩
    rwa [Pending, unreadRequests, hpipes.unanswered, hpipes.unread]

/-- Steps that leave the waiters for pages alone. -/
theorem sameImages (h : InStep page s) (hpipes : SamePipes s t)
    (himages : t.pageImageWaiters = s.pageImageWaiters) : InStep page t :=
  h.same hpipes (by rw [pageQueue, pageQueue, himages])
    (fun i waiter hmade => by rwa [himages]) (by rw [himages]; exact List.Subset.refl _)

/-- A call is noted. -/
theorem note {call : WaiterRun × CallResult} (h : InStep page call.1) : InStep page (note call) :=
  h.sameImages { SamePipes.refl call.1 with } rfl

theorem start (options : TexpressoSessionOptions) : InStep page (WaiterRun.start options) where
  queue := fun _ => ⟨[], rfl, fun _ => rfl⟩
  made := nofun
  unanswered := List.Subset.refl _
  unread := nofun
  fate := nofun

theorem waitForFlush (h : InStep page s) (after : Nat) : InStep page (s.waitForFlush after).1 := by
  unfold WaiterRun.waitForFlush
  split
  · exact h
  · split
    · exact h
    · exact h.sameImages { SamePipes.refl s with } rfl

theorem applyRangeChange (h : InStep page s) (path : JSString) (range : TexpressoRange)
    (replacement : JSString) : InStep page (s.applyRangeChange path range replacement).1 := by
  unfold WaiterRun.applyRangeChange
  split
  · exact h
  · next buffers _ =>
      have hbuffers : InStep page { s with buffers := buffers } :=
        h.sameImages { SamePipes.refl s with } rfl
      exact hbuffers.waitForFlush _

theorem waitForPageCount (h : InStep page s) : InStep page s.waitForPageCount.1 := by
  unfold WaiterRun.waitForPageCount
  split
  · exact h
  · exact h.sameImages { SamePipes.refl s with } rfl

/-- A request that is written is pending. -/
theorem fate_request (h : InStep page s) (hexit : s.exitError = none) (command : TexpressoCommand)
    (waiter : Nat) : ∀ request ∈ (s.request command waiter).sent, request.isFor page = true →
      (s.request command waiter).Fate request := by
  intro request hmem hfor
  rcases List.mem_append.mp hmem with hmem | hmem
  · refine (h.fate request hmem hfor).mono rfl ?_ (List.Subset.refl _) (fun _ hmade => hmade)
      (List.Subset.refl _)
    intro hnone hpending
    exact .inl ⟨hnone, hpending.imp_left (List.mem_append_left _)⟩
  · exact .inl ⟨hexit, .inl (List.mem_append_right _ hmem)⟩

/-- A request for the page count concerns no page. -/
theorem requestCount (h : InStep page s) (hexit : s.exitError = none) (waiter : Nat) :
    InStep page (s.request .pageCount waiter) where
  queue := by
    intro hnone
    obtain ⟨orphans, heq, horphans⟩ := h.queue hnone
    refine ⟨orphans, ?_, horphans⟩
    rw [WaiterRun.request, waitersOf_append, waitersOf_cons_of_neg [] rfl]
    exact heq.trans (by simp [waitersOf, unreadRequests])
  made := by
    intro request hmem requested dpi theme hcommand
    rcases List.mem_append.mp hmem with hmem | hmem
    · exact h.made request hmem requested dpi theme hcommand
    · rw [List.mem_singleton.mp hmem] at hcommand
      cases hcommand
  unanswered := List.append_subset.mpr
    ⟨List.subset_append_of_subset_left _ h.unanswered, List.subset_append_right _ _⟩
  unread := fun written hmem =>
    (h.unread written hmem).mono (List.Subset.refl _) (List.subset_append_left _ _)
  fate := h.fate_request hexit .pageCount waiter

/-- What `send` did not throw. -/
theorem open_of_sendable (h : s.sendable = .ok ()) : s.exitError = none ∧ s.closed = false := by
  unfold sendable at h
  split at h <;> cases h
  next hexit hclosed => exact ⟨hexit, hclosed⟩

theorem waitForPageImage_of_open {u : WaiterRun} (hexit : u.exitError = none) (requested dpi : Nat) :
    u.waitForPageImage requested dpi
      = ({ u with pageImageWaiters := u.pageImageWaiters.add ⟨requested, dpi⟩ },
          .waits u.pageImageWaiters.made.length) := by
  unfold WaiterRun.waitForPageImage
  split
  · next error hknown =>
      rw [hexit] at hknown
      cases hknown
  · rfl

theorem sendFor_of_closed {response : WaiterRun × CallResult} (hclosed : response.1.closed = true)
    (hexit : response.1.exitError = none) (command : TexpressoCommand) :
    (sendFor command response).1 = response.1 := by
  have hsend : response.1.sendable = .error (js "TeXpresso session is closed.") := by
    rw [sendable, hexit, hclosed]
  unfold sendFor
  rw [hsend]

theorem sendFor_of_open {response : WaiterRun × CallResult} (hclosed : response.1.closed = false)
    (hexit : response.1.exitError = none) {waiter : Nat} (hwaits : response.2 = .waits waiter)
    (command : TexpressoCommand) :
    sendFor command response = (response.1.request command waiter, .waits waiter) := by
  have hsend : response.1.sendable = .ok () := by rw [sendable, hexit, hclosed]
  unfold sendFor
  rw [hsend, hwaits]

theorem getPageCount (h : InStep page s) : InStep page s.getPageCount.1 := by
  have hwait := h.waitForPageCount
  unfold WaiterRun.getPageCount sendFor
  split
  · exact hwait
  · next hsend _ => exact hwait.requestCount (open_of_sendable hsend).1 _
  · exact hwait

/-- The waiter of a request that could not be sent. -/
theorem orphan (h : InStep page s) (hclosed : s.closed = true) (waiter : PageImageWaiter) :
    InStep page { s with pageImageWaiters := s.pageImageWaiters.add waiter } where
  queue := by
    intro hnone
    obtain ⟨orphans, heq, -⟩ := h.queue hnone
    refine ⟨orphans ++ if waiter.page = page then [s.pageImageWaiters.made.length] else [], ?_, ?_⟩
    · rw [pageQueue, Core.Waiters.queue_add, ← List.append_assoc]
      rw [pageQueue] at heq
      rw [heq]
      simp [unreadRequests]
    · intro hopen
      rw [show s.closed = false from hopen] at hclosed
      cases hclosed
  made := fun request hmem requested dpi theme hcommand =>
    Core.Waiters.made_add_of_eq_some (h.made request hmem requested dpi theme hcommand)
  unanswered := h.unanswered
  unread := h.unread
  fate := fun request hmem hfor =>
    (h.fate request hmem hfor).mono rfl (fun hnone hpending => .inl ⟨hnone, hpending⟩)
      (List.Subset.refl _) (fun _ => Core.Waiters.made_add_of_eq_some) (List.Subset.refl _)

/-- A request for a page is written, and its waiter is the youngest. -/
theorem requestPage (h : InStep page s) (hexit : s.exitError = none) (hclosed : s.closed = false)
    (requested dpi : Nat) (theme : Option TexpressoRenderTheme) :
    InStep page ({ s with pageImageWaiters := s.pageImageWaiters.add ⟨requested, dpi⟩ }.request
      (.renderPage requested dpi theme) s.pageImageWaiters.made.length) where
  queue := by
    intro _
    obtain ⟨orphans, heq, horphans⟩ := h.queue hexit
    rw [horphans hclosed, List.append_nil, pageQueue] at heq
    refine ⟨[], ?_, fun _ => rfl⟩
    rw [List.append_nil, pageQueue, WaiterRun.request, Core.Waiters.queue_add, heq, waitersOf_append]
    by_cases hpage : requested = page
    · simp [waitersOf, PageRequest.isFor, hpage, unreadRequests]
    · simp [waitersOf, PageRequest.isFor, hpage, unreadRequests]
  made := by
    intro request hmem other otherDpi otherTheme hcommand
    rcases List.mem_append.mp hmem with hmem | hmem
    · exact Core.Waiters.made_add_of_eq_some (h.made request hmem other otherDpi otherTheme hcommand)
    · rw [List.mem_singleton.mp hmem] at hcommand ⊢
      cases hcommand
      exact Core.Waiters.made_add _ _
  unanswered := List.append_subset.mpr
    ⟨List.subset_append_of_subset_left _ h.unanswered, List.subset_append_right _ _⟩
  unread := fun written hmem =>
    (h.unread written hmem).mono (List.Subset.refl _) (List.subset_append_left _ _)
  fate := by
    intro request hmem hfor
    rcases List.mem_append.mp hmem with hmem | hmem
    · refine (h.fate request hmem hfor).mono rfl ?_ (List.Subset.refl _)
        (fun _ => Core.Waiters.made_add_of_eq_some) (List.Subset.refl _)
      intro hnone hpending
      exact .inl ⟨hnone, hpending.imp_left (List.mem_append_left _)⟩
    · exact .inl ⟨hexit, .inl (List.mem_append_right _ hmem)⟩

theorem renderPage (h : InStep page s) (requested dpi : JSNumber)
    (theme : Option TexpressoRenderTheme) : InStep page (s.renderPage requested dpi theme).1 := by
  unfold WaiterRun.renderPage
  split
  · exact h
  · exact h
  · next requested dpi _ _ =>
      split
      · exact h
      · cases hexit : s.exitError with
        | some error =>
            rw [waitForPageImage_of_exit hexit, sendFor_of_exit hexit]
            exact h
        | none =>
            rw [waitForPageImage_of_open hexit]
            rcases Bool.eq_false_or_eq_true s.closed with hclosed | hclosed
            · rw [sendFor_of_closed hclosed hexit]
              exact h.orphan hclosed _
            · rw [sendFor_of_open hclosed hexit rfl]
              exact h.requestPage hexit hclosed requested dpi theme

theorem close (h : InStep page s) : InStep page s.close :=
  h.sameImages { SamePipes.refl s with closed := nofun } rfl

/-- A pending request for the page has its waiter in the set. -/
theorem waits_of_pending (h : InStep page s) (hexit : s.exitError = none) {request : PageRequest}
    (hfor : request.isFor page = true) (hpending : s.Pending request) :
    s.pageImageWaiters.Waits request.waiter := by
  obtain ⟨orphans, heq, -⟩ := h.queue hexit
  have hmem : request.waiter ∈ s.pageQueue page := by
    rw [heq]
    rcases hpending with hpending | hpending
    · exact List.mem_append_left _ (List.mem_append_right _ (mem_waitersOf hpending hfor))
    · exact List.mem_append_left _ (List.mem_append_left _ (mem_waitersOf hpending hfor))
  obtain ⟨w, hw, -⟩ := Core.Waiters.mem_queue.mp hmem
  exact List.mem_map_of_mem hw

/-- A failure cuts off what is pending. -/
theorem fail (h : InStep page s) (error : JSString) : InStep page (s.fail error) := by
  unfold WaiterRun.fail
  split
  · exact h
  · next hknown =>
      have hexit : s.exitError = none := by simpa using hknown
      exact {
        queue := nofun
        made := by
          intro request hmem requested dpi theme hcommand
          rw [Core.Waiters.made_failAll]
          exact h.made request hmem requested dpi theme hcommand
        unanswered := h.unanswered
        unread := h.unread
        fate := by
          intro request hmem hfor
          rcases h.fate request hmem hfor with ⟨-, hpending⟩ | ⟨waiter, hwaiter, hanswered⟩ | hcut
          · obtain ⟨⟨_, w⟩, hw, rfl⟩ := List.mem_map.mp (h.waits_of_pending hexit hfor hpending)
            exact .inr (.inr ⟨error, rfl, Core.Waiters.mem_settled_failAll hw⟩)
          · obtain ⟨line, answer, hanswer, hmessage, hsettled⟩ := hanswered
            refine .inr (.inl ⟨waiter, ?_, line, answer, hanswer, hmessage, ?_⟩)
            · rwa [Core.Waiters.made_failAll]
            · exact Core.Waiters.settled_subset_failAll hsettled
          · obtain ⟨known, hsome, -⟩ := hcut
            rw [hexit] at hsome
            cases hsome }

/-- The child answers the oldest request that is not answered. -/
theorem childAnswers (h : InStep page s) {line : ProtocolLine} {request : PageRequest}
    {rest : List PageRequest} (hunanswered : s.unanswered = request :: rest)
    (hanswers : line.answers request.command = true) :
    InStep page { s with
      unanswered := rest
      answers := s.answers ++ [(request, line)]
      unread := s.unread ++ [⟨line, some request⟩] } where
  queue := by
    intro hexit
    obtain ⟨orphans, heq, horphans⟩ := h.queue hexit
    refine ⟨orphans, heq.trans ?_, horphans⟩
    have happend : waitersOf page (request :: rest) = waitersOf page [request] ++ waitersOf page rest :=
      waitersOf_append page [request] rest
    rw [hunanswered, happend]
    simp [unreadRequests]
  made := h.made
  unanswered := by
    intro other hmem
    refine h.unanswered ?_
    rw [hunanswered]
    exact List.mem_cons_of_mem _ hmem
  unread := by
    intro written hmem
    rcases List.mem_append.mp hmem with hmem | hmem
    · exact (h.unread written hmem).mono (List.subset_append_left _ _) (List.Subset.refl _)
    · rw [List.mem_singleton.mp hmem]
      refine ⟨hanswers, List.mem_append_right _ (List.mem_singleton_self _), h.unanswered ?_⟩
      rw [hunanswered]
      exact List.mem_cons_self ..
  fate := by
    intro other hmem hfor
    refine (h.fate other hmem hfor).mono rfl ?_ (List.subset_append_left _ _) (fun _ hmade => hmade)
      (List.Subset.refl _)
    intro hnone hpending
    refine .inl ⟨hnone, ?_⟩
    simp only [Pending, unreadRequests, List.filterMap_append, List.mem_append] at hpending ⊢
    rcases hpending with hpending | hpending
    · rw [hunanswered] at hpending
      rcases List.mem_cons.mp hpending with rfl | hpending
      · exact .inr (.inr (by simp))
      · exact .inl hpending
    · exact .inr (.inl hpending)

/-- The child writes something that answers no request. -/
theorem childEmits (h : InStep page s) {line : ProtocolLine} (hline : line.pageMessage? = none) :
    InStep page { s with unread := s.unread ++ [⟨line, none⟩] } where
  queue := by
    intro hexit
    obtain ⟨orphans, heq, horphans⟩ := h.queue hexit
    exact ⟨orphans, heq.trans (by simp [unreadRequests]), horphans⟩
  made := h.made
  unanswered := h.unanswered
  unread := by
    intro written hmem
    rcases List.mem_append.mp hmem with hmem | hmem
    · exact h.unread written hmem
    · rw [List.mem_singleton.mp hmem]
      exact hline
  fate := by
    intro request hmem hfor
    refine (h.fate request hmem hfor).mono rfl ?_ (List.Subset.refl _) (fun _ hmade => hmade)
      (List.Subset.refl _)
    intro hnone hpending
    refine .inl ⟨hnone, hpending.imp_right fun hpending => ?_⟩
    simp only [unreadRequests, List.filterMap_append, List.mem_append]
    exact .inl hpending

/-- A line that answers nothing for the page is read. -/
theorem reads (h : InStep page s) {next : WrittenLine} {rest : List WrittenLine}
    (hunread : s.unread = next :: rest)
    (hother : ∀ request, next.request = some request → request.isFor page = false) :
    InStep page { s with unread := rest } where
  queue := by
    intro hexit
    obtain ⟨orphans, heq, horphans⟩ := h.queue hexit
    refine ⟨orphans, heq.trans ?_, horphans⟩
    simp only [unreadRequests, hunread]
    cases hrequest : next.request with
    | none => rw [List.filterMap_cons_none hrequest]
    | some request =>
        rw [List.filterMap_cons_some hrequest, waitersOf_cons_of_neg _ (hother request hrequest)]
  made := h.made
  unanswered := h.unanswered
  unread := by
    intro written hmem
    refine h.unread written ?_
    rw [hunread]
    exact List.mem_cons_of_mem _ hmem
  fate := by
    intro request hmem hfor
    refine (h.fate request hmem hfor).mono rfl ?_ (List.Subset.refl _) (fun _ hmade => hmade)
      (List.Subset.refl _)
    intro hnone hpending
    refine .inl ⟨hnone, hpending.imp_right fun hpending => ?_⟩
    simp only [unreadRequests, hunread] at hpending ⊢
    cases hrequest : next.request with
    | none => rwa [List.filterMap_cons_none hrequest] at hpending
    | some answered =>
        rw [List.filterMap_cons_some hrequest] at hpending
        rcases List.mem_cons.mp hpending with rfl | hpending
        · rw [hother _ hrequest] at hfor
          cases hfor
        · exact hpending

/-- A line answers what it was written for; when that is not a request for the page, nobody who waits
for the page gets it. -/
theorem otherLine (h : InStep page s) (hkept : s.Bookkeeping) {line : ProtocolLine}
    {request : PageRequest} (hanswers : line.answers request.command = true)
    (hother : request.isFor page = false) : InStep page (s.handleProtocolLine line) := by
  have hpipes := samePipes_handleProtocolLine s line
  obtain ⟨command, waiter⟩ := request
  cases command with
  | pageCount =>
      obtain ⟨count, hmessage⟩ := ProtocolLine.pageMessage_of_answers_pageCount hanswers
      exact h.sameImages hpipes ((hkept.answersOldest line).count count hmessage).2.2
  | renderPage requested dpi theme =>
      obtain ⟨answer, hmessage, hnames⟩ := ProtocolLine.pageMessage_of_answers_renderPage hanswers
      obtain ⟨protocol, hline⟩ := handleProtocolLine_of_pageMessage hmessage s
      have himages : (s.handleProtocolLine line).pageImageWaiters = s.pageImageWaiters.answerOldest
          (fun waiter => answer.names waiter.page) answer.result := by
        rw [hline]
        rfl
      have hne : ¬requested = page := by simpa [PageRequest.isFor] using hother
      refine h.same hpipes ?_ ?_ ?_
      · rw [pageQueue, pageQueue, himages]
        refine hkept.images.answerOldest_queue_of_disjoint ?_ _
        intro waiter hwaiter
        rw [PageAnswer.names_iff hnames, decide_eq_true_eq] at hwaiter
        rwa [hwaiter, decide_eq_false_iff_not]
      · intro i waiter hmade
        rwa [himages, Core.Waiters.made_answerOldest]
      · rw [himages]
        exact Core.Waiters.settled_subset_answerOldest _
  | register _ => cases hanswers
  | openFile _ _ => cases hanswers
  | resume => cases hanswers
  | changeRange _ _ _ => cases hanswers

/-- After an exit nobody waits for the answer any more. -/
theorem lateLine (h : InStep page s) (hkept : s.Bookkeeping) {error : JSString}
    (hexit : s.exitError = some error) {next : WrittenLine} {rest : List WrittenLine}
    (hunread : s.unread = next :: rest) :
    InStep page ({ s with unread := rest }.handleProtocolLine next.line) := by
  have hread : InStep page { s with unread := rest } := {
    queue := by
      intro hnone
      rw [show s.exitError = none from hnone] at hexit
      cases hexit
    made := h.made
    unanswered := h.unanswered
    unread := by
      intro written hmem
      refine h.unread written ?_
      rw [hunread]
      exact List.mem_cons_of_mem _ hmem
    fate := by
      intro request hmem hfor
      refine (h.fate request hmem hfor).mono rfl ?_ (List.Subset.refl _) (fun _ hmade => hmade)
        (List.Subset.refl _)
      intro hnone
      rw [hnone] at hexit
      cases hexit }
  have hkept' : Bookkeeping { s with unread := rest } := { hkept with }
  refine hread.sameImages (samePipes_handleProtocolLine _ _) ?_
  have hanswers := hkept'.answersOldest next.line
  have hnobody : s.pageImageWaiters.waiting = [] := (hkept.emptied (by rw [hexit]; rfl)).2.1
  cases hmessage : next.line.pageMessage? with
  | none => exact (hanswers.other hmessage).1
  | some message =>
      cases message with
      | count count => exact (hanswers.count count hmessage).2.2
      | page answer =>
          refine (hanswers.page answer hmessage).2.1 ?_
          intro waiter hmem
          rw [show waiter ∈ s.pageImageWaiters.waiting ↔ waiter ∈ [] by rw [hnobody]] at hmem
          cases hmem

/-- **The answer to a request for the page** goes to the waiter of the request. -/
theorem pageLine (h : InStep page s) (hkept : s.Bookkeeping) (hexit : s.exitError = none)
    {line : ProtocolLine} {waiter dpi : Nat} {theme : Option TexpressoRenderTheme}
    {rest : List WrittenLine}
    (hunread : s.unread = ⟨line, some ⟨.renderPage page dpi theme, waiter⟩⟩ :: rest) :
    InStep page ({ s with unread := rest }.handleProtocolLine line) := by
  obtain ⟨hanswers, hanswer, hsent⟩ := h.unread _ (by rw [hunread]; exact List.mem_cons_self ..)
  obtain ⟨answer, hmessage, hnames⟩ := ProtocolLine.pageMessage_of_answers_renderPage hanswers
  obtain ⟨orphans, heq, horphans⟩ := h.queue hexit
  have hhead : waitersOf page s.unreadRequests
      = waiter :: waitersOf page (rest.filterMap WrittenLine.request) := by
    rw [unreadRequests, hunread, List.filterMap_cons_some (f := WrittenLine.request) rfl]
    exact waitersOf_cons_of_pos _ (by simp [PageRequest.isFor])
  rw [hhead, List.cons_append, List.cons_append] at heq
  obtain ⟨w, hw, hwaiters, hqueue⟩ := hkept.images.answerOldest_queue heq answer.result
  have hpipes := samePipes_handleProtocolLine { s with unread := rest } line
  have himages : ({ s with unread := rest }.handleProtocolLine line).pageImageWaiters
      = s.pageImageWaiters.answerOldest (fun waiter => waiter.page = page) answer.result := by
    obtain ⟨protocol, hline⟩ := handleProtocolLine_of_pageMessage hmessage { s with unread := rest }
    rw [hline, pageImageWaiters_answerPage]
    congr 1
    funext candidate
    exact PageAnswer.names_iff hnames _
  have hsettled : s.pageImageWaiters.settled
      ⊆ ({ s with unread := rest }.handleProtocolLine line).pageImageWaiters.settled := by
    rw [himages]
    exact Core.Waiters.settled_subset_answerOldest _
  have hmade (i : Nat) (candidate : PageImageWaiter)
      (hi : s.pageImageWaiters.made[i]? = some candidate) :
      ({ s with unread := rest }.handleProtocolLine line).pageImageWaiters.made[i]?
        = some candidate := by
    rwa [himages, Core.Waiters.made_answerOldest]
  have hunreadRequests : ({ s with unread := rest }.handleProtocolLine line).unreadRequests
      = rest.filterMap WrittenLine.request := by
    rw [unreadRequests, hpipes.unread]
  exact {
    queue := by
      intro _
      refine ⟨orphans, ?_, fun hclosed => horphans (hpipes.closed hclosed)⟩
      rw [hunreadRequests, hpipes.unanswered, pageQueue, himages]
      exact hqueue
    made := by
      intro request hmem requested dpi theme hcommand
      rw [hpipes.sent] at hmem
      exact hmade _ _ (h.made request hmem requested dpi theme hcommand)
    unanswered := by
      rw [hpipes.unanswered, hpipes.sent]
      exact h.unanswered
    unread := by
      intro written hmem
      rw [hpipes.unread] at hmem
      refine (h.unread written (by rw [hunread]; exact List.mem_cons_of_mem _ hmem)).mono ?_ ?_
      · rw [hpipes.answers]
        exact List.Subset.refl _
      · rw [hpipes.sent]
        exact List.Subset.refl _
    fate := by
      intro request hmem hfor
      rw [hpipes.sent] at hmem
      refine (h.fate request hmem hfor).mono hpipes.exitError ?_
        (by rw [hpipes.answers]; exact List.Subset.refl _) (hmade _) hsettled
      intro hnone hpending
      rcases hpending with hpending | hpending
      · exact .inl ⟨hpipes.exitError.trans hnone, .inl (by rwa [hpipes.unanswered])⟩
      · rw [unreadRequests, hunread, List.filterMap_cons_some (f := WrittenLine.request) rfl] at hpending
        rcases List.mem_cons.mp hpending with rfl | hpending
        · refine .inr (.inl ⟨w, hmade _ _ hw, line, answer, ?_, hmessage, ?_⟩)
          · rw [hpipes.answers]
            exact hanswer
          · rw [himages, hwaiters]
            exact List.mem_append_right _ (List.mem_singleton_self _)
        · exact .inl ⟨hpipes.exitError.trans hnone, .inr (by rwa [hunreadRequests])⟩ }

theorem line (h : InStep page s) (hkept : s.Bookkeeping) {next : WrittenLine}
    {rest : List WrittenLine} (hunread : s.unread = next :: rest) :
    InStep page ({ s with unread := rest }.handleProtocolLine next.line) := by
  rcases Option.eq_none_or_eq_some s.exitError with hexit | ⟨error, hexit⟩
  · have hfits := h.unread next (by rw [hunread]; exact List.mem_cons_self ..)
    obtain ⟨line, request?⟩ := next
    cases request? with
    | none =>
        refine (h.reads hunread nofun).sameImages (samePipes_handleProtocolLine _ _) ?_
        exact (handleProtocolLine_of_none hfits _).1
    | some request =>
        rcases Bool.eq_false_or_eq_true (request.isFor page) with hfor | hother
        · obtain ⟨command, waiter⟩ := request
          unfold PageRequest.isFor at hfor
          split at hfor
          · next requested dpi theme hcommand =>
              obtain rfl : requested = page := by simpa using hfor
              obtain rfl : command = .renderPage requested dpi theme := hcommand
              exact h.pageLine hkept hexit hunread
          · cases hfor
        · have hread : InStep page { s with unread := rest } := by
            refine h.reads hunread fun other heq => ?_
            rw [← Option.some.inj heq]
            exact hother
          have hkept' : Bookkeeping { s with unread := rest } := { hkept with }
          exact hread.otherLine hkept' hfits.1 hother
  · exact h.lateLine hkept hexit hunread

theorem onCall (h : InStep page s) (ht : s.onCall event = some t) : InStep page t := by
  unfold WaiterRun.onCall at ht
  split at ht <;> cases ht
  · exact note (h.applyRangeChange ..)
  · exact note h.getPageCount
  · exact note (h.renderPage ..)
  · exact h.close

theorem onTimeout (h : InStep page s) (hkept : s.Bookkeeping) (hintime : InTime page s event)
    (ht : s.onTimeout options event = some t) : InStep page t := by
  unfold WaiterRun.onTimeout at ht
  split at ht
  · obtain ⟨waiters, -, rfl⟩ := Option.map_eq_some_iff.mp ht
    exact h.sameImages { SamePipes.refl s with closed := nofun } rfl
  · obtain ⟨waiters, -, rfl⟩ := Option.map_eq_some_iff.mp ht
    exact h.sameImages { SamePipes.refl s with closed := nofun } rfl
  · next waiter =>
      obtain ⟨waiters, hexpire, rfl⟩ := Option.map_eq_some_iff.mp ht
      obtain ⟨-, rfl⟩ := Core.Waiters.expire_eq_some.mp hexpire
      refine h.same { SamePipes.refl s with closed := nofun } ?_ (fun _ _ hmade => hmade)
        (List.subset_append_left _ _)
      refine Core.Waiters.queue_answer_of_not_mem fun hmem => ?_
      obtain ⟨⟨waited, dpi⟩, hmade, hkind⟩ := hkept.images.made_of_mem_queue hmem
      obtain rfl : waited = page := by simpa using hkind
      exact hintime waiter dpi rfl hmade
  · cases ht

theorem onChild (h : InStep page s) (honly : AnswersOnly event) (ht : s.onChild event = some t) :
    InStep page t := by
  unfold WaiterRun.onChild at ht
  split at ht
  · split at ht
    · cases ht
    · next hunanswered =>
        split at ht <;> cases ht
        next hanswers => exact h.childAnswers hunanswered hanswers.1
  · split at ht <;> cases ht
    exact h.childEmits (honly _ rfl)
  · cases ht

theorem onReport (h : InStep page s) (hkept : s.Bookkeeping) (ht : s.onReport event = some t) :
    InStep page t := by
  have exits : InStep page { s with exited := true } := h.sameImages { SamePipes.refl s with } rfl
  unfold WaiterRun.onReport at ht
  split at ht
  · split at ht <;> cases ht
    next hunread => exact h.line hkept hunread
  · cases ht
    exact h.sameImages { SamePipes.refl s with } rfl
  · split at ht
    · cases ht
    · split at ht <;> cases ht
      · exact exits
      · exact exits.fail _
  · cases ht
    exact h.fail _
  · cases ht

/-- **One step** of an orderly child, without a timeout for the page, keeps it in step. -/
theorem step (h : InStep page s) (hkept : s.Bookkeeping) (honly : AnswersOnly event)
    (hintime : InTime page s event) (ht : s.step options event = some t) : InStep page t := by
  unfold WaiterRun.step at ht
  split at ht
  · cases ht
  · split at ht
    all_goals first
      | exact h.onCall ht
      | exact h.onTimeout hkept hintime ht
      | exact h.onChild honly ht
      | exact h.onReport hkept ht

end InStep

/-- Every run of an orderly child without a timeout for the page. -/
theorem inStep_of_reachable {page : Nat}
    (h : (waiterSystem options).Reachable (fun s event => AnswersOnly event ∧ InTime page s event) s) :
    InStep page s :=
  h.invariant (InStep.start options) fun _ _ _ hreach hpermitted hstep ht =>
    hstep.step (bookkeeping_of_reachable hreach) hpermitted.1 hpermitted.2 ht

/-! ## What every run keeps -/

/-- **Every request for the page** is pending with its waiter in the set, or its waiter got the answer the
child gave to this request, or it was cut off by an exit. -/
def SettlesWithAnswers (page : Nat) (s : WaiterRun) : Prop :=
  ∀ request ∈ s.sent, ∀ dpi theme, request.command = .renderPage page dpi theme →
    (s.pageImageWaiters.Waits request.waiter ∧ s.Pending request) ∨
      s.AnsweredAs request ⟨page, dpi⟩ ∨ s.CutOff request

theorem InStep.settlesWithAnswers {page : Nat} (h : InStep page s) : s.SettlesWithAnswers page := by
  intro request hmem dpi theme hcommand
  have hfor : request.isFor page = true := by simp [PageRequest.isFor, hcommand]
  rcases h.fate request hmem hfor with ⟨hexit, hpending⟩ | ⟨waiter, hwaiter, hanswered⟩ | hcut
  · exact .inl ⟨h.waits_of_pending hexit hfor hpending, hpending⟩
  · have hmade := h.made request hmem page dpi theme hcommand
    obtain rfl := Option.some.inj (hmade.symm.trans hwaiter)
    exact .inr (.inl hanswered)
  · exact .inr (.inr hcut)

/-- A call of `renderPage` that waits has written its request. -/
theorem renderPage_waits {page dpi : JSNumber} {theme : Option TexpressoRenderTheme} {waiter : Nat}
    (h : (s.renderPage page dpi theme).2 = .waits waiter) :
    ∃ p d, page.nonNegativeInteger? = some p ∧ dpi.nonNegativeInteger? = some d ∧
      ⟨.renderPage p d theme, waiter⟩ ∈ (s.renderPage page dpi theme).1.sent := by
  unfold renderPage at h ⊢
  split at h
  · cases h
  · cases h
  · next p d hpage hdpi =>
      refine ⟨p, d, hpage, hdpi, ?_⟩
      split at h
      · cases h
      · next hrange =>
          rw [if_neg hrange]
          unfold sendFor at h ⊢
          split at h
          · cases h
          · obtain rfl := CallResult.waits.inj h
            exact List.mem_append_right _ (List.mem_singleton_self _)
          · next hnot => exact absurd h (hnot waiter)

/-- The `close` event of the child makes the exit known, unless the session was closed. -/
theorem exitError_of_exit {error : JSString} (hclosed : s.closed = false)
    (ht : s.step options (.exit error) = some t) : t.exitError.isSome = true := by
  unfold step at ht
  split at ht
  · cases ht
  · simp only [onReport, hclosed] at ht
    split at ht
    · cases ht
    · rw [if_neg Bool.false_ne_true] at ht
      cases ht
      unfold fail
      split
      · assumption
      · rfl

end WaiterRun

open WaiterRun (AnswersOnly InTime Refuses)

/-- **The waiters of a session.**  Whatever the calls, the lines, the timers, an exit and `close` do in
whatever order: a waiter is in its set exactly while it is unsettled and its timer armed, and none is
settled twice; an answer goes to the oldest waiter for it; an exit that was not asked for empties the sets
for good.  With a child that answers every request in order, and no timeout for a page, every request for
that page gets the answer given to it. -/
theorem waiter_bookkeeping (options : TexpressoSessionOptions) :
    (∀ s, (waiterSystem options).Reachable (fun _ _ => True) s →
      (s.flushWaiters.Kept ∧ s.pageImageWaiters.Kept ∧ s.pageCountWaiters.Kept) ∧
      (∀ line, s.AnswersOldest line) ∧
      (∀ error t, s.closed = false → s.step options (.exit error) = some t →
        t.exitError.isSome = true) ∧
      (∀ error, s.exitError = some error →
        (s.flushWaiters.waiting = [] ∧ s.pageImageWaiters.waiting = [] ∧
          s.pageCountWaiters.waiting = []) ∧
        ∀ event t, s.step options event = some t → Refuses error s t) ∧
      ∀ page dpi theme waiter, (s.renderPage page dpi theme).2 = .waits waiter →
        ∃ p d, page.nonNegativeInteger? = some p ∧ dpi.nonNegativeInteger? = some d ∧
          ⟨.renderPage p d theme, waiter⟩ ∈ (s.renderPage page dpi theme).1.sent) ∧
    ∀ page s, (waiterSystem options).Reachable
        (fun s event => AnswersOnly event ∧ InTime page s event) s →
      s.SettlesWithAnswers page := by
  refine ⟨?_, fun page s hreach => (WaiterRun.inStep_of_reachable hreach).settlesWithAnswers⟩
  intro s hreach
  have hkept := WaiterRun.bookkeeping_of_reachable hreach
  refine ⟨⟨hkept.flushes, hkept.images, hkept.counts⟩, hkept.answersOldest, ?_, ?_, ?_⟩
  · intro error t hclosed ht
    exact WaiterRun.exitError_of_exit hclosed ht
  · intro error hexit
    exact ⟨hkept.emptied (by rw [hexit]; rfl), fun event t ht => Refuses.step hexit ht⟩
  · intro page dpi theme waiter hwaits
    exact WaiterRun.renderPage_waits hwaits

/-! ## Two requests for one page -/

namespace TwoRequests

open OneFileChild (sessionOptions)

/-- The line `["page-image",0,1,1,"image/png",…]` with an image of one pixel. -/
def imageLine : ProtocolLine where
  text := js "[\"page-image\",0,1,1,\"image/png\",\"iVBORw0KGgoAAAANSUhEUgAAAAEAAAAB\"]"
  parsed := some (.array [.string (js "page-image"), .number (.integer 0) (js "0"),
    .number (.integer 1) (js "1"), .number (.integer 1) (js "1"), .string (js "image/png"),
    .string (js "iVBORw0KGgoAAAANSUhEUgAAAAEAAAAB")])
  items_le := by
    intro items h
    obtain rfl := Option.some.inj h
    decide
  length_lt := by decide

/-- The line `["page-image-error",0,"no"]`. -/
def errorLine : ProtocolLine where
  text := js "[\"page-image-error\",0,\"no\"]"
  parsed := some (.array [.string (js "page-image-error"), .number (.integer 0) (js "0"),
    .string (js "no")])
  items_le := by
    intro items h
    obtain rfl := Option.some.inj h
    decide
  length_lt := by decide

/-- The first page at two resolutions. -/
def requests : List WaiterEvent :=
  [.renderPage (.integer 0) (.integer 72) none, .renderPage (.integer 0) (.integer 96) none]

/-- Both requests are answered, the first with an image and the second with an error. -/
def answers : List WaiterEvent :=
  [.childAnswers imageLine, .line, .childAnswers errorLine, .line]

def first : PageRequest := ⟨.renderPage 0 72 none, 0⟩

def second : PageRequest := ⟨.renderPage 0 96 none, 1⟩

/-- The child does nothing but answer. -/
def onlyAnswers : WaiterEvent → Bool
  | .childEmits _ => false
  | _ => true

theorem answersOnly_of_onlyAnswers {event : WaiterEvent} (h : onlyAnswers event = true) :
    AnswersOnly event := by
  rintro line rfl
  cases h

/-- And no wait for a page times out. -/
def isOrderly : WaiterEvent → Bool
  | .pageImageTimeout _ => false
  | event => onlyAnswers event

theorem orderly_of_isOrderly {event : WaiterEvent} (h : isOrderly event = true) (page : Nat)
    (s : WaiterRun) : AnswersOnly event ∧ InTime page s event := by
  constructor
  · rintro line rfl
    cases h
  · rintro waiter dpi rfl
    cases h

/-- Both requests are answered in time. -/
def inTime : WaiterRun :=
  (waiterSystem sessionOptions).after (fun _ event => isOrderly event) (requests ++ answers)

/-- The first wait times out before its answer comes. -/
def late : WaiterRun :=
  (waiterSystem sessionOptions).after (fun _ event => onlyAnswers event)
    (requests ++ [.pageImageTimeout 0] ++ answers)

theorem not_pending {s : WaiterRun} (hunanswered : s.unanswered = []) (hunread : s.unreadRequests = [])
    (request : PageRequest) : ¬s.Pending request := by
  rintro (hmem | hmem)
  · rw [hunanswered] at hmem
    cases hmem
  · rw [hunread] at hmem
    cases hmem

theorem not_cutOff {s : WaiterRun} (hexit : s.exitError = none) (request : PageRequest) :
    ¬s.CutOff request := by
  rintro ⟨error, hknown, -⟩
  rw [hexit] at hknown
  cases hknown

end TwoRequests

open TwoRequests OneFileChild

theorem waiter_bookkeeping_inTime :
    inTime.AnsweredAs first ⟨0, 72⟩ ∧ inTime.AnsweredAs second ⟨0, 96⟩ := by
  have hreach : (waiterSystem sessionOptions).Reachable
      (fun s event => AnswersOnly event ∧ InTime 0 s event) inTime :=
    Core.System.reachable_after (fun s event h => orderly_of_isOrderly h 0 s) _
  have hsettles := (waiter_bookkeeping sessionOptions).2 0 _ hreach
  constructor
  · rcases hsettles first (by decide) 72 none rfl with ⟨-, h⟩ | h | h
    · exact absurd h (not_pending rfl rfl _)
    · exact h
    · exact absurd h (not_cutOff rfl _)
  · rcases hsettles second (by decide) 96 none rfl with ⟨-, h⟩ | h | h
    · exact absurd h (not_pending rfl rfl _)
    · exact h
    · exact absurd h (not_cutOff rfl _)

/-- Two requests for one page are written, the wait for the first times out, and then the child answers
both: the waiter of the second gets the image of the first, under its own resolution, although the answer
to the second is an error. -/
theorem late_answer_taken :
    ¬∀ options s, (waiterSystem options).Reachable (fun _ event => AnswersOnly event) s →
      ∀ page, s.SettlesWithAnswers page := by
  intro h
  have hreach : (waiterSystem sessionOptions).Reachable (fun _ event => AnswersOnly event) late :=
    Core.System.reachable_after (fun _ _ h => answersOnly_of_onlyAnswers h) _
  rcases h sessionOptions late hreach 0 second (by decide) 96 none rfl with ⟨-, h⟩ | h | h
  · exact absurd h (not_pending rfl rfl _)
  · obtain ⟨line, answer, hanswer, hmessage, hsettled⟩ := h
    have hanswers : late.answers = [(first, imageLine), (second, errorLine)] := rfl
    rw [hanswers] at hanswer
    have hline : line = errorLine := by
      simpa [first, second] using hanswer
    have hsecond : (late.pageImageWaiters.settled.all fun entry =>
        entry.1 = 0 ∨ entry.2.toBool = true) = true := by rfl
    have hok := List.all_eq_true.mp hsecond _ hsettled
    have herror : errorLine.pageMessage? = some (.page (.error 0 (js "0") (js "no"))) := by rfl
    rw [hline, herror] at hmessage
    obtain rfl := PageMessage.page.inj (Option.some.inj hmessage)
    simp [second, PageAnswer.result, Except.toBool] at hok
  · exact absurd h (not_cutOff rfl _)

end Typr
