import TyprCompanion.LivePreview.Freshness

/-!
# Page enumeration

`renderRevision` finds the end of a document with a probe: it asks for one page after the other
until `renderPage` throws, and takes the pages for the document when `getPageCount` agrees.

* `NativeDocument` — what the native session answers about one document; `Answers` says that a step
  does so.
* `RenderRun` — the runs of `renderRevision` among everything else a session does.
* `Phase` — the assertion at each wait of `renderRevision`.
* **`enumeratesPages_iff`** — the documents for which all pages up to the limit are published and
  longer documents are refused: all but those of exactly the maximal number of pages.
-/

namespace Typr

variable {platform : Platform} {intact : Prop} {s t : LiveSession}

/-! ## Documents -/

/-- A document as the native session has it: what `renderPage` settles with for each page. -/
structure NativeDocument where
  pageCount : Nat
  render : Nat → Except JSString PageImage
  beyond : ∀ page, pageCount ≤ page → (render page).isOk = false

namespace NativeDocument

variable (doc : NativeDocument)

/-- The native session answers for the document. -/
def Answers (s : LiveSession) : LiveEvent → Prop
  | .pageSettled result => ∀ caller revision pages, s.work = .renderPage caller revision pages →
      result = doc.render pages.length
  | .pageCountSettled result => result = .ok doc.pageCount
  | _ => True

/-- The size of an image. -/
def byteLength (page : Nat) : Nat :=
  match doc.render page with
  | .ok image => image.data.length
  | .error _ => 0

/-- Every page renders, and the images respect the byte limits. -/
structure WithinLimits : Prop where
  renders : ∀ page < doc.pageCount, (doc.render page).isOk = true
  pageBytes : ∀ page < doc.pageCount, doc.byteLength page ≤ TEXPRESSO_WS_LIMITS.maxPageBytes
  documentBytes : ((List.range doc.pageCount).map doc.byteLength).sum
    ≤ TEXPRESSO_WS_LIMITS.maxDocumentImageBytes

/-- The pages are the first ones of the document. -/
def Shows (pages : List TexpressoRenderedPage) : Prop :=
  ∀ index page, pages[index]? = some page → page.page = index ∧
    doc.render index = .ok page.toPageImage

/-- The pages are all pages of the document. -/
structure Enumerated (pages : List TexpressoRenderedPage) : Prop where
  shown : doc.Shows pages
  length : pages.length = doc.pageCount
  nonempty : pages ≠ []

end NativeDocument

namespace NativeDocument

variable {doc : NativeDocument} {pages : List TexpressoRenderedPage}

theorem Shows.nil : doc.Shows [] := by
  intro index page hpage
  cases hpage

theorem Shows.concat {image : PageImage} {dpi : Nat} (h : doc.Shows pages)
    (himage : doc.render pages.length = .ok image) :
    doc.Shows (pages ++ [⟨image, pages.length, dpi⟩]) := by
  intro index page hpage
  rcases Nat.lt_trichotomy index pages.length with hlt | rfl | hgt
  · rw [List.getElem?_append_left hlt] at hpage
    exact h index page hpage
  · rw [List.getElem?_concat_length] at hpage
    obtain rfl := Option.some.inj hpage
    exact ⟨rfl, himage⟩
  · rw [List.getElem?_eq_none (by simp; omega)] at hpage
    cases hpage

/-- No more pages than the document has. -/
theorem Shows.length_le (h : doc.Shows pages) : pages.length ≤ doc.pageCount := by
  by_contra hgt
  have hlt : doc.pageCount < pages.length := Nat.lt_of_not_le hgt
  obtain ⟨-, hrender⟩ := h _ _ (List.getElem?_eq_getElem hlt)
  have hbeyond := doc.beyond doc.pageCount (Nat.le_refl _)
  rw [hrender] at hbeyond
  cases hbeyond

/-- The sizes of the pages are those of the document. -/
theorem Shows.sizes (h : doc.Shows pages) :
    pages.map (fun page => page.data.length) = (List.range pages.length).map doc.byteLength := by
  refine List.ext_getElem (by simp) ?_
  intro index hindex _
  have hlt : index < pages.length := by simpa using hindex
  obtain ⟨-, hrender⟩ := h _ _ (List.getElem?_eq_getElem hlt)
  simp [byteLength, hrender]

/-- The sizes of the first pages are at most those of the document. -/
theorem sum_byteLength_le {m n : Nat} (h : m ≤ n) :
    ((List.range m).map doc.byteLength).sum ≤ ((List.range n).map doc.byteLength).sum := by
  obtain ⟨k, rfl⟩ := Nat.exists_eq_add_of_le h
  rw [List.range_add, List.map_append, List.sum_append]
  exact Nat.le_add_right ..

/-- Within the limits the next page is added, up to the maximal number. -/
theorem WithinLimits.addPage (hdoc : doc.WithinLimits) (hpages : doc.Shows pages)
    (hlength : pages.length < doc.pageCount) (hmax : pages.length ≠ TEXPRESSO_WS_LIMITS.maxPages)
    (dpi : Nat) : ∃ image, doc.render pages.length = .ok image ∧
      LiveSession.addPage pages image dpi = .ok (pages ++ [⟨image, pages.length, dpi⟩]) := by
  have hok := hdoc.renders pages.length hlength
  have hpage := hdoc.pageBytes pages.length hlength
  cases himage : doc.render pages.length with
  | error e =>
      rw [himage] at hok
      cases hok
  | ok image =>
      have hsize : doc.byteLength pages.length = image.data.length := by
        rw [byteLength, himage]
      have htotal : (pages.map fun page => page.data.length).sum + image.data.length
          ≤ TEXPRESSO_WS_LIMITS.maxDocumentImageBytes := by
        calc (pages.map fun page => page.data.length).sum + image.data.length
            = ((List.range (pages.length + 1)).map doc.byteLength).sum := by
              rw [hpages.sizes, List.range_succ, List.map_append, List.sum_append, List.map_singleton,
                List.sum_singleton, hsize]
          _ ≤ ((List.range doc.pageCount).map doc.byteLength).sum := sum_byteLength_le hlength
          _ ≤ TEXPRESSO_WS_LIMITS.maxDocumentImageBytes := hdoc.documentBytes
      refine ⟨image, rfl, ?_⟩
      rw [hsize] at hpage
      rw [LiveSession.addPage, if_neg hmax, if_neg (by omega)]

end NativeDocument

/-! ## Runs of `renderRevision` -/

/-- In `renderRevision`. -/
def Work.isRendering : Work → Bool
  | renderPage _ _ _ | pageCount _ _ _ _ | document _ _ _ | page _ _ _ _ | complete _ => true
  | _ => false

/-- **A run** from the call of `renderRevision` on, with whatever else the session does meanwhile. -/
inductive RenderRun (platform : Platform) (doc : NativeDocument) (base : LiveSession) :
    LiveSession → Prop
  | start : RenderRun platform doc base base
  | step {s t : LiveSession} {event : LiveEvent} : RenderRun platform doc base s →
      s.work.isRendering = true → doc.Answers s event → s.SendsComplete event →
      s.step platform event = some t → RenderRun platform doc base t

/-- No newer revision arrived and the connection is open. -/
structure LiveSession.Undisturbed (revision : Nat) (s : LiveSession) : Prop where
  latest : s.latestReceivedRevision = revision
  isClosing : s.isClosing = false
  readyState : s.readyState = .opened

/-- The frames put on the wire since `base`, the notices of other methods left out. -/
def LiveSession.Puts (base s : LiveSession) (frames : List Frame) : Prop :=
  ∃ added, s.wire = base.wire ++ added ∧ added.filter (fun frame => !frame.isNotice) = frames

/-- Nothing was published, and the session failed. -/
def LiveSession.RenderFailed (caller : Caller) (base s : LiveSession) : Prop :=
  s.work = .sessionFailure caller ∧ base.Puts s [] ∧
    ∃ error, .json (s.failureMessage caller error) ∈ s.wire

/-- The frames of one page. -/
def pageFrames (revision : Nat) (page : TexpressoRenderedPage) : List Frame :=
  [.json (.page revision (pageDescriptor page)), .binary page.data]

/-- The document and the first `count` of its pages. -/
def documentFrames (revision : Nat) (pages : List TexpressoRenderedPage) (count : Nat) :
    List Frame :=
  .json (.document revision revision pages.length (pages.map pageDescriptor)) ::
    (pages.take count).flatMap (pageFrames revision)

/-- A document published as complete. -/
def completeFrames (revision : Nat) (pages : List TexpressoRenderedPage) : List Frame :=
  documentFrames revision pages pages.length
    ++ [.json (.revisionComplete revision revision pages.length pages.length)]

namespace NativeDocument

variable (doc : NativeDocument)

/-- The loop ended at these pages: the next one did not render, or broke a limit. -/
def Stops (pages : List TexpressoRenderedPage) : Prop :=
  ∀ image, doc.render pages.length = .ok image → ∀ dpi,
    (LiveSession.addPage pages image dpi).isOk = false

/-- The pages are no complete document the preview publishes. -/
def Refused (pages : List TexpressoRenderedPage) : Prop :=
  doc.Shows pages ∧ doc.Stops pages ∧
    ¬ (pages.length < TEXPRESSO_WS_LIMITS.maxPages ∧ doc.pageCount = pages.length ∧ pages ≠ [])

/-- All pages were published. -/
def Published (caller : Caller) (revision : Nat) (base s : LiveSession) : Prop :=
  s.work = .resume caller.next ∧ ∃ pages, doc.Enumerated pages ∧
    pages.length < TEXPRESSO_WS_LIMITS.maxPages ∧ base.Puts s (completeFrames revision pages)

/-- **The assertion at each wait.** -/
def Phase (caller : Caller) (revision : Nat) (base s : LiveSession) : Prop :=
  match s.work with
  | .renderPage caller' revision' pages => caller' = caller ∧ revision' = revision ∧
      doc.Shows pages ∧ base.Puts s []
  | .pageCount caller' revision' pages _ => caller' = caller ∧ revision' = revision ∧
      doc.Shows pages ∧ doc.Stops pages ∧ base.Puts s []
  | .document caller' revision' pages => caller' = caller ∧ revision' = revision ∧
      doc.Enumerated pages ∧ pages.length < TEXPRESSO_WS_LIMITS.maxPages ∧
      base.Puts s (documentFrames revision pages 0)
  | .page caller' revision' pages index => caller' = caller ∧ revision' = revision ∧
      doc.Enumerated pages ∧ pages.length < TEXPRESSO_WS_LIMITS.maxPages ∧ index < pages.length ∧
      base.Puts s (documentFrames revision pages (index + 1))
  | .complete caller' => caller' = caller ∧ ∃ pages, doc.Enumerated pages ∧
      pages.length < TEXPRESSO_WS_LIMITS.maxPages ∧ base.Puts s (completeFrames revision pages)
  | .resume _ => doc.Published caller revision base s
  | _ => base.RenderFailed caller s ∧ ∃ pages, doc.Refused pages

end NativeDocument

variable {base : LiveSession} {doc : NativeDocument} {caller : Caller} {revision : Nat}
  {pages : List TexpressoRenderedPage}

/-! ### Frames -/

theorem documentFrames_succ {index : Nat} {page : TexpressoRenderedPage}
    (hpage : pages[index]? = some page) :
    documentFrames revision pages (index + 1)
      = documentFrames revision pages index ++ pageFrames revision page := by
  simp [documentFrames, List.take_add_one, hpage]

namespace LiveSession.Puts

variable {frames added : List Frame}

theorem start : base.Puts base [] :=
  ⟨[], by simp, rfl⟩

theorem append (h : base.Puts s frames) (hwire : t.wire = s.wire ++ added)
    (hadded : added.all fun frame => !frame.isNotice) : base.Puts t (frames ++ added) := by
  obtain ⟨before, hbefore, rfl⟩ := h
  refine ⟨before ++ added, by rw [hwire, hbefore, List.append_assoc], ?_⟩
  rw [List.filter_append, List.filter_eq_self.mpr (List.all_eq_true.mp hadded)]

theorem notices (h : base.Puts s frames) (hwire : t.wire = s.wire ++ added)
    (hadded : ∀ frame ∈ added, Frame.isNotice frame = true) : base.Puts t frames := by
  obtain ⟨before, hbefore, rfl⟩ := h
  refine ⟨before ++ added, by rw [hwire, hbefore, List.append_assoc], ?_⟩
  have hnone : added.filter (fun frame => !frame.isNotice) = [] :=
    List.filter_eq_nil_iff.mpr fun frame hframe => by simp [hadded frame hframe]
  rw [List.filter_append, hnone, List.append_nil]

theorem interferes (h : base.Puts s frames) (hi : Interferes intact s t) (hintact : intact)
    (hopen : t.readyState = .opened) : base.Puts t frames := by
  obtain ⟨added, hadded, hwire⟩ := hi.wire hopen hintact
  exact h.notices hwire hadded

theorem same (h : base.Puts s frames) (hwire : t.wire = s.wire) : base.Puts t frames := by
  obtain ⟨before, hbefore, hframes⟩ := h
  exact ⟨before, hwire.trans hbefore, hframes⟩

end LiveSession.Puts

/-! ### Steps -/

theorem LiveSession.addPage_isOk (pages : List TexpressoRenderedPage) (image : PageImage)
    (dpi dpi' : Nat) : (addPage pages image dpi).isOk = (addPage pages image dpi').isOk := by
  unfold addPage
  split_ifs <;> rfl

@[simp] theorem LiveSession.latestReceivedRevision_returned (caller : Caller) (s : LiveSession) :
    (s.returned caller).latestReceivedRevision = s.latestReceivedRevision := by
  cases caller <;> rfl

/-- Rendering goes on while its revision is the latest one. -/
theorem LiveSession.nextPage_of_latest
    (h : (s.nextPage caller revision pages).latestReceivedRevision = revision) :
    s.nextPage caller revision pages = { s with work := .renderPage caller revision pages } := by
  unfold nextPage at h ⊢
  split
  · next hsuperseded =>
      rw [if_pos hsuperseded, latestReceivedRevision_returned] at h
      exact absurd h.symm hsuperseded.1
  · rfl

/-- What a session at `renderRevision` does not change on its own. -/
theorem Move.same_connection (hs : Coherent s) (hwork : s.work.isRendering = true)
    (hm : Move intact s t) : t.latestReceivedRevision = s.latestReceivedRevision ∧
      t.isClosing = s.isClosing ∧ t.readyState = s.readyState := by
  have hnot {work : Work} (h : s.work = work) (hrendering : work.isRendering = false) : False := by
    rw [h, hrendering] at hwork
    cases hwork
  have hresumes {next : Continuation} (h : s.work.Resumes next) : False := by
    rcases h with h | h
    · exact hnot h rfl
    · exact hnot h rfl
  cases hm with
  | initializes message hclosing hinitialized hinitializing =>
      exact (hnot (hs.idle_of_fresh hinitialized hinitializing) rfl).elim
  | advances => exact ⟨rfl, rfl, rfl⟩
  | fails =>
      unfold LiveSession.workFailed
      split <;> exact ⟨rfl, rfl, rfl⟩
  | adopts session h => exact (hnot h rfl).elim
  | starts _ _ _ h =>
      rcases h with ⟨hinitializing, hprocessing⟩ | ⟨caller, h⟩
      · exact (hnot (hs.idle hinitializing hprocessing) rfl).elim
      · exact (hresumes h).elim
  | continues _ _ h => exact (hresumes h).elim
  | rests => exact ⟨rfl, rfl, rfl⟩
  | applies h => exact (hnot h rfl).elim
  | rejects error h => exact (hnot h rfl).elim
  | applied snapshot h => exact (hnot h rfl).elim
  | reports => exact ⟨rfl, rfl, rfl⟩
  | publishes =>
      unfold LiveSession.publish LiveSession.returned
      split
      · split <;> exact ⟨rfl, rfl, rfl⟩
      · exact ⟨rfl, rfl, rfl⟩
  | sends =>
      unfold LiveSession.sendFrom
      split <;> exact ⟨rfl, rfl, rfl⟩

/-- What can happen while a document is sent. -/
theorem Move.of_publication (hs : Coherent s) (hwork : s.work.isRendering = true)
    (hcall : s.work.call? = none) (hm : Move intact s t) :
    (∃ caller, s.work = .complete caller ∧ t = { s with work := .resume caller.next }) ∨
      (∃ caller error, t = s.workFailed caller error ∧ (s.readyState = .opened → ¬ intact)) ∨
      ∃ caller revision pages index, s.work.unsent? = some (caller, revision, pages, index) ∧
        t = s.sendFrom caller revision pages index := by
  have hnot {work : Work} (hat : s.work = work) (hrendering : work.isRendering = false) : False := by
    rw [hat, hrendering] at hwork
    cases hwork
  have hresumes {next : Continuation} (hat : s.work.Resumes next) : False := by
    rcases hat with hat | hat
    · exact hnot hat rfl
    · exact hnot hat rfl
  cases hm with
  | initializes message hclosing hinitialized hinitializing =>
      exact (hnot (hs.idle_of_fresh hinitialized hinitializing) rfl).elim
  | advances work ha =>
      have hunsent := ha.unsent.1
      cases hat : s.work with
      | complete caller =>
          rw [hat] at ha
          cases ha with
          | prepared hstart => cases hstart
          | completed => exact .inl ⟨caller, rfl, rfl⟩
          | renders hat => cases hat
          | skips hat => cases hat
          | superseded hat => rcases hat with hat | ⟨_, hat⟩ <;> cases hat
      | document | page =>
          rw [hat] at hunsent
          cases hunsent
      | renderPage | pageCount =>
          rw [hat] at hcall
          cases hcall
      | _ => exact (hnot hat rfl).elim
  | fails error hcaller hthrow =>
      refine .inr (.inl ⟨_, error, rfl, fun hopen hintact => ?_⟩)
      have hthrow := hthrow hopen hintact
      cases hat : s.work with
      | renderPage | pageCount =>
          rw [hat] at hcall
          cases hcall
      | document | page | complete =>
          rw [hat] at hthrow
          cases hthrow
      | _ => exact hnot hat rfl
  | adopts session hat => exact (hnot hat rfl).elim
  | starts _ _ _ hat =>
      rcases hat with ⟨hinitializing, hprocessing⟩ | ⟨caller, hat⟩
      · exact (hnot (hs.idle hinitializing hprocessing) rfl).elim
      · exact (hresumes hat).elim
  | continues _ _ hat => exact (hresumes hat).elim
  | rests _ hat =>
      obtain ⟨next, hat⟩ := hat
      exact (hresumes hat).elim
  | applies hat => exact (hnot hat rfl).elim
  | rejects error hat => exact (hnot hat rfl).elim
  | applied snapshot hat => exact (hnot hat rfl).elim
  | reports snapshot hat =>
      cases hwork' : s.work with
      | snapshot | notRendered => exact (hnot hwork' rfl).elim
      | _ =>
          rw [hwork'] at hat
          cases hat
  | publishes hat =>
      rw [hat] at hcall
      cases hcall
  | sends hat => exact .inr (.inr ⟨_, _, _, _, hat, rfl⟩)

/-- The latest revision only grows, and what was undisturbed before is told by what is now. -/
theorem Interferes.undisturbed (hi : Interferes intact s t)
    (hlatest : revision ≤ s.latestReceivedRevision) :
    revision ≤ t.latestReceivedRevision ∧ (t.Undisturbed revision → s.Undisturbed revision) := by
  rcases hi.received with ⟨hclosing, -, -, hsame⟩ | ⟨message, hclosing, -, -, hnewer, -, -, hlast⟩ |
    ⟨hclosing, -, -, hsame⟩
  · exact ⟨hsame ▸ hlatest, fun h =>
      ⟨hsame ▸ h.latest, hclosing ▸ h.isClosing, hi.readyState h.readyState⟩⟩
  · refine ⟨by omega, fun h => ?_⟩
    have := h.latest
    omega
  · refine ⟨hsame ▸ hlatest, fun h => ?_⟩
    rw [h.isClosing] at hclosing
    cases hclosing

theorem LiveSession.undisturbed_of_step {event : LiveEvent} (hs : Coherent s)
    (hwork : s.work.isRendering = true) (hstep : s.step platform event = some t)
    (hlatest : revision ≤ s.latestReceivedRevision) :
    revision ≤ t.latestReceivedRevision ∧ (t.Undisturbed revision → s.Undisturbed revision) := by
  obtain ⟨s', hi, ⟨rfl, -⟩ | hm⟩ := hs.step_cases hstep
  · exact hi.undisturbed hlatest
  · have hrendering : s'.work.isRendering = true := hi.work ▸ hwork
    obtain ⟨hsame, hclosing, hready⟩ := hm.same_connection (hs.interferes hi) hrendering
    obtain ⟨hle, hback⟩ := hi.undisturbed hlatest
    exact ⟨hsame ▸ hle, fun h =>
      hback ⟨hsame ▸ h.latest, hclosing ▸ h.isClosing, hready ▸ h.readyState⟩⟩

namespace NativeDocument

/-- Whatever else happens, the assertion stays. -/
theorem Phase.interferes (h : doc.Phase caller revision base s) (hwork : s.work.isRendering = true)
    (hi : Interferes intact s t) (hintact : intact) (hopen : t.readyState = .opened) :
    doc.Phase caller revision base t := by
  unfold Phase at h ⊢
  rw [hi.work]
  cases hat : s.work with
  | renderPage =>
      rw [hat] at h
      obtain ⟨hcaller, hrevision, hshows, hputs⟩ := h
      exact ⟨hcaller, hrevision, hshows, hputs.interferes hi hintact hopen⟩
  | pageCount =>
      rw [hat] at h
      obtain ⟨hcaller, hrevision, hshows, hstops, hputs⟩ := h
      exact ⟨hcaller, hrevision, hshows, hstops, hputs.interferes hi hintact hopen⟩
  | document =>
      rw [hat] at h
      obtain ⟨hcaller, hrevision, hpages, hmax, hputs⟩ := h
      exact ⟨hcaller, hrevision, hpages, hmax, hputs.interferes hi hintact hopen⟩
  | page =>
      rw [hat] at h
      obtain ⟨hcaller, hrevision, hpages, hmax, hindex, hputs⟩ := h
      exact ⟨hcaller, hrevision, hpages, hmax, hindex, hputs.interferes hi hintact hopen⟩
  | complete =>
      rw [hat] at h
      obtain ⟨hcaller, pages, hpages, hmax, hputs⟩ := h
      exact ⟨hcaller, pages, hpages, hmax, hputs.interferes hi hintact hopen⟩
  | _ =>
      rw [hat] at hwork
      cases hwork

/-- `renderPage` settled. -/
theorem Phase.pageRendered {result : Except JSString PageImage}
    (h : doc.Phase caller revision base s) {caller' : Caller} {revision' : Nat}
    (hwork : s.work = .renderPage caller' revision' pages) (hanswer : result = doc.render pages.length)
    (ht : (s.pageRendered caller' revision' pages result).Undisturbed revision) :
    doc.Phase caller revision base (s.pageRendered caller' revision' pages result) := by
  simp only [Phase, hwork] at h
  obtain ⟨rfl, rfl, hshows, hputs⟩ := h
  have hlatest := ht.latest
  unfold LiveSession.pageRendered at hlatest ⊢
  split at hlatest
  · next error herror =>
      refine ⟨rfl, rfl, hshows, ?_, hputs.same rfl⟩
      intro image himage dpi
      rw [hanswer, himage] at herror
      rw [LiveSession.addPage_isOk pages image dpi s.renderDpi]
      show (LiveSession.addPage pages image s.renderDpi).isOk = false
      have herror : LiveSession.addPage pages image s.renderDpi = .error error := herror
      rw [herror]
      rfl
  · next pages' hpages =>
      obtain ⟨image, himage⟩ : ∃ image, result = .ok image := by
        cases result with
        | error e => cases hpages
        | ok image => exact ⟨image, rfl⟩
      have hadded : LiveSession.addPage pages image s.renderDpi = .ok pages' := by
        rw [himage] at hpages
        exact hpages
      obtain rfl := LiveSession.addPage_length hadded
      have hnext := LiveSession.nextPage_of_latest hlatest
      rw [hnext]
      exact ⟨rfl, rfl, hshows.concat (hanswer ▸ himage), hputs.same rfl⟩

/-- `getPageCount` settled. -/
theorem Phase.pagesCounted {error : JSString} (h : doc.Phase caller revision base s)
    {caller' : Caller} {revision' : Nat}
    (hwork : s.work = .pageCount caller' revision' pages error)
    (ht : (s.pagesCounted caller' revision' pages error (.ok doc.pageCount)).Undisturbed revision) :
    doc.Phase caller revision base
      (s.pagesCounted caller' revision' pages error (.ok doc.pageCount)) := by
  simp only [Phase, hwork] at h
  obtain ⟨rfl, rfl, hshows, hstops, hputs⟩ := h
  unfold LiveSession.pagesCounted at ht ⊢
  dsimp only at ht ⊢
  split at ht
  · next hcomplete =>
      rw [if_pos hcomplete]
      obtain ⟨hmax, hcount, hne⟩ := hcomplete
      have hlatest : revision' = s.latestReceivedRevision := by
        by_contra hsuperseded
        have h := ht.latest
        unfold LiveSession.publish at h
        rw [if_pos hsuperseded, LiveSession.latestReceivedRevision_returned] at h
        exact hsuperseded h.symm
      unfold LiveSession.publish
      rw [if_neg (not_not.mpr hlatest)]
      refine ⟨rfl, rfl, ⟨hshows, hcount.symm, hne⟩, hmax, ?_⟩
      exact hputs.append (LiveSession.wire_sendJson ..) rfl
  · next hrefused =>
      rw [if_neg hrefused]
      unfold LiveSession.workFailed at ht ⊢
      split at ht
      · next hclosing =>
          have hopen := ht.isClosing
          rw [show s.isClosing = false from hopen] at hclosing
          cases hclosing
      · next hclosing =>
          rw [if_neg hclosing]
          refine ⟨⟨rfl, ?_, error, ?_⟩, pages, hshows, hstops, hrefused⟩
          · refine hputs.notices (LiveSession.wire_sendJson ..) ?_
            intro frame hframe
            rw [List.mem_singleton.mp hframe]
            cases caller' <;> rfl
          · rw [LiveSession.wire_sendJson]
            exact List.mem_append_right _ (List.mem_singleton.mpr rfl)

/-- The document goes out page by page. -/
theorem Phase.sendFrom (h : doc.Phase caller revision base s) {caller' : Caller}
    {revision' index : Nat} (hwork : s.work.unsent? = some (caller', revision', pages, index)) :
    doc.Phase caller revision base (s.sendFrom caller' revision' pages index) := by
  have hunsent : caller' = caller ∧ revision' = revision ∧ doc.Enumerated pages ∧
      pages.length < TEXPRESSO_WS_LIMITS.maxPages ∧ index ≤ pages.length ∧
      base.Puts s (documentFrames revision pages index) := by
    unfold Phase at h
    cases hat : s.work with
    | document =>
        rw [hat] at h hwork
        cases hwork
        obtain ⟨hcaller, hrevision, hpages, hmax, hputs⟩ := h
        exact ⟨hcaller, hrevision, hpages, hmax, Nat.zero_le _, hputs⟩
    | page =>
        rw [hat] at h hwork
        cases hwork
        obtain ⟨hcaller, hrevision, hpages, hmax, hindex, hputs⟩ := h
        exact ⟨hcaller, hrevision, hpages, hmax, hindex, hputs⟩
    | _ =>
        rw [hat] at hwork
        cases hwork
  obtain ⟨rfl, rfl, hpages, hmax, hindex, hputs⟩ := hunsent
  unfold LiveSession.sendFrom
  split
  · next page hpage =>
      have hlt : index < pages.length := (List.getElem?_eq_some_iff.mp hpage).1
      refine ⟨rfl, rfl, hpages, hmax, hlt, ?_⟩
      rw [documentFrames_succ hpage]
      exact hputs.append (LiveSession.wire_enqueueFrames ..) rfl
  · next hnone =>
      obtain rfl : index = pages.length :=
        Nat.le_antisymm hindex (List.getElem?_eq_none_iff.mp hnone)
      exact ⟨rfl, pages, hpages, hmax, hputs.append (LiveSession.wire_sendJson ..) rfl⟩

/-- A move out of the publication. -/
theorem Phase.move (hs : Coherent s) (h : doc.Phase caller revision base s)
    (hm : Move intact s t) (hintact : intact) (hwork : s.work.isRendering = true)
    (hcall : s.work.call? = none) (ht : t.Undisturbed revision) :
    doc.Phase caller revision base t := by
  have hready : s.readyState = .opened := (hm.same_connection hs hwork).2.2 ▸ ht.readyState
  rcases hm.of_publication hs hwork hcall with ⟨caller', hat, rfl⟩ | ⟨caller', error, rfl, hfails⟩ |
    ⟨caller', revision', pages, index, hat, rfl⟩
  · simp only [Phase, hat] at h
    obtain ⟨rfl, pages, hpages, hmax, hputs⟩ := h
    exact ⟨rfl, pages, hpages, hmax, hputs.same rfl⟩
  · exact (hfails hready hintact).elim
  · exact h.sendFrom hat

/-- **One step** of a run. -/
theorem Phase.step {event : LiveEvent} (hs : Coherent s) (h : doc.Phase caller revision base s)
    (hwork : s.work.isRendering = true) (hanswers : doc.Answers s event)
    (hintact : s.SendsComplete event) (hstep : s.step platform event = some t)
    (ht : t.Undisturbed revision) : doc.Phase caller revision base t := by
  have hother (hevent : event.isResult = false) : doc.Phase caller revision base t := by
    obtain ⟨s', hi, ⟨rfl, -⟩ | hm⟩ := hs.step_cases hstep
    · exact h.interferes hwork hi hintact ht.readyState
    · have hrendering : s'.work.isRendering = true := hi.work ▸ hwork
      have hs' : Coherent s' := hs.interferes hi
      have hready : s'.readyState = .opened :=
        (hm.same_connection hs' hrendering).2.2 ▸ ht.readyState
      cases hcall : s.work.call? with
      | none =>
          exact (h.interferes hwork hi hintact hready).move hs' hm hintact hrendering
            (hi.work ▸ hcall) ht
      | some call =>
          -- a call goes on, so there was no move
          have hcall' : s'.work.call?.isSome = true := by
            rw [hi.work, hcall]
            rfl
          have hsame := LiveSession.work_of_call hs (by rw [hcall]; rfl) hevent hstep
          exact absurd (hsame.trans hi.work.symm) (hm.work_ne hcall')
  cases event with
  | pageSettled result =>
      obtain ⟨caller', revision', pages, hat, rfl⟩ := LiveSession.step_pageSettled hstep
      exact h.pageRendered hat (hanswers caller' revision' pages hat) ht
  | pageCountSettled result =>
      obtain ⟨caller', revision', pages, error, hat, rfl⟩ :=
        LiveSession.step_pageCountSettled hstep
      obtain rfl : result = .ok doc.pageCount := hanswers
      exact h.pagesCounted hat ht
  | applySettled result =>
      obtain ⟨change, outcome, hat, -⟩ := LiveSession.step_applySettled hstep
      rw [hat] at hwork
      cases hwork
  | _ => exact hother rfl

end NativeDocument

/-! ### Runs -/

theorem RenderRun.reachable {permitted : LiveSession → LiveEvent → Prop}
    (h : RenderRun platform doc base s) (hbase : (liveSystem platform).Reachable permitted base) :
    (liveSystem platform).Reachable (fun _ _ => True) s := by
  induction h with
  | start => exact hbase.mono fun _ _ _ => trivial
  | step _ _ _ _ hstep ih => exact .step ih trivial hstep

/-- **Every run** of `renderRevision`, as long as it is not disturbed. -/
theorem RenderRun.phase {permitted : LiveSession → LiveEvent → Prop}
    (h : RenderRun platform doc base s) (hbase : (liveSystem platform).Reachable permitted base)
    (hwork : base.work = .renderPage caller revision [])
    (hlatest : base.latestReceivedRevision = revision) :
    revision ≤ s.latestReceivedRevision ∧
      (s.Undisturbed revision → doc.Phase caller revision base s) := by
  induction h with
  | start =>
      refine ⟨Nat.le_of_eq hlatest.symm, fun _ => ?_⟩
      simp only [NativeDocument.Phase, hwork]
      exact ⟨trivial, trivial, .nil, .start⟩
  | step hrun hrendering hanswers hintact hstep ih =>
      have hs := reachable_coherent (hrun.reachable hbase)
      obtain ⟨hle, hphase⟩ := ih
      obtain ⟨hle', hback⟩ := LiveSession.undisturbed_of_step hs hrendering hstep hle
      exact ⟨hle', fun ht => (hphase (hback ht)).step hs hrendering hanswers hintact hstep ht⟩

/-! ### Whole documents -/

/-- What is rendered are the first pages; what is sent are all of them. -/
def Work.OfDocument (doc : NativeDocument) : Work → Prop
  | renderPage _ _ pages | pageCount _ _ pages _ => doc.Shows pages
  | document _ _ pages | page _ _ pages _ => doc.Enumerated pages
  | _ => True

theorem Work.ofDocument_returned (caller : Caller) :
    (s.returned caller).work.OfDocument doc := by
  cases caller <;> trivial

theorem Work.ofDocument_workFailed (caller : Caller) (error : JSString) :
    (s.workFailed caller error).work.OfDocument doc := by
  unfold LiveSession.workFailed
  split <;> trivial

theorem Work.OfDocument.pageRendered {result : Except JSString PageImage} (h : doc.Shows pages)
    (hanswer : result = doc.render pages.length) (caller : Caller) (revision : Nat) :
    (s.pageRendered caller revision pages result).work.OfDocument doc := by
  unfold LiveSession.pageRendered
  split
  · exact h
  · next pages' hpages =>
      unfold LiveSession.nextPage
      split
      · exact ofDocument_returned caller
      · cases result with
        | error e => cases hpages
        | ok image =>
            obtain rfl := LiveSession.addPage_length hpages
            exact h.concat hanswer.symm

theorem Work.OfDocument.pagesCounted (h : doc.Shows pages) (caller : Caller) (revision : Nat)
    (error : JSString) :
    (s.pagesCounted caller revision pages error (.ok doc.pageCount)).work.OfDocument doc := by
  unfold LiveSession.pagesCounted
  dsimp only
  split
  · next hcomplete =>
      unfold LiveSession.publish
      split
      · exact ofDocument_returned caller
      · exact ⟨h, hcomplete.2.1.symm, hcomplete.2.2⟩
  · exact ofDocument_workFailed caller error

theorem Work.OfDocument.sendFrom {index : Nat} (h : s.work.OfDocument doc)
    (hat : s.work.unsent? = some (caller, revision, pages, index)) :
    (s.sendFrom caller revision pages index).work.OfDocument doc := by
  have hpages : doc.Enumerated pages := by
    cases hwork : s.work with
    | document | page =>
        rw [hwork] at h hat
        cases hat
        exact h
    | _ =>
        rw [hwork] at hat
        cases hat
  unfold LiveSession.sendFrom
  split
  · exact hpages
  · trivial

/-- One step, disturbed or not. -/
theorem Work.OfDocument.step {event : LiveEvent} (hs : Coherent s) (h : s.work.OfDocument doc)
    (hwork : s.work.isRendering = true) (hanswers : doc.Answers s event)
    (hstep : s.step platform event = some t) : t.work.OfDocument doc := by
  have hother (hevent : event.isResult = false) : t.work.OfDocument doc := by
    cases hcall : s.work.call? with
    | some call =>
        rw [LiveSession.work_of_call hs (by rw [hcall]; rfl) hevent hstep]
        exact h
    | none =>
        obtain ⟨s', hi, ⟨rfl, -⟩ | hm⟩ := hs.step_cases hstep
        · rw [hi.work]
          exact h
        · rw [← hi.work] at h hwork hcall
          rcases hm.of_publication (hs.interferes hi) hwork hcall with ⟨caller, -, rfl⟩ |
            ⟨caller, error, rfl, -⟩ | ⟨caller, revision, pages, index, hat, rfl⟩
          · trivial
          · exact ofDocument_workFailed caller error
          · exact h.sendFrom hat
  cases event with
  | pageSettled result =>
      obtain ⟨caller, revision, pages, hat, rfl⟩ := LiveSession.step_pageSettled hstep
      rw [hat] at h
      exact pageRendered h (hanswers caller revision pages hat) caller revision
  | pageCountSettled result =>
      obtain ⟨caller, revision, pages, error, hat, rfl⟩ :=
        LiveSession.step_pageCountSettled hstep
      obtain rfl : result = .ok doc.pageCount := hanswers
      rw [hat] at h
      exact pagesCounted h caller revision error
  | applySettled result =>
      obtain ⟨change, outcome, hat, -⟩ := LiveSession.step_applySettled hstep
      rw [hat] at hwork
      cases hwork
  | _ => exact hother rfl

theorem RenderRun.ofDocument {permitted : LiveSession → LiveEvent → Prop}
    (h : RenderRun platform doc base s) (hbase : (liveSystem platform).Reachable permitted base)
    (hwork : base.work = .renderPage caller revision []) : s.work.OfDocument doc := by
  induction h with
  | start =>
      rw [hwork]
      exact NativeDocument.Shows.nil
  | step hrun hrendering hanswers _ hstep ih =>
      exact ih.step (reachable_coherent (hrun.reachable hbase)) hrendering hanswers hstep

/-! ### The end of the loop -/

/-- One round of the loop. -/
theorem LiveSession.step_addsPage {image : PageImage} {pages' : List TexpressoRenderedPage}
    (hwork : s.work = .renderPage caller revision pages) (hs : s.Undisturbed revision)
    (hadded : addPage pages image s.renderDpi = .ok pages') :
    ∃ t, s.step platform (.pageSettled (.ok image)) = some t ∧
      t.work = .renderPage caller revision pages' ∧ t.Undisturbed revision := by
  have hnext : s.nextPage caller revision pages'
      = { s with work := .renderPage caller revision pages' } := by
    unfold nextPage
    rw [if_neg fun hsuperseded => hsuperseded.1 hs.latest.symm]
  have hundisturbed : (s.nextPage caller revision pages').Undisturbed revision := by
    rw [hnext]
    exact ⟨hs.latest, hs.isClosing, hs.readyState⟩
  refine ⟨s.nextPage caller revision pages', ?_, by rw [hnext], hundisturbed⟩
  have hsettled : s.pageRendered caller revision pages (.ok image)
      = s.nextPage caller revision pages' := by
    unfold pageRendered
    rw [show (Except.ok image).bind (fun image => addPage pages image s.renderDpi)
      = .ok pages' from hadded]
  simp only [step, onNative, hwork, hsettled]

/-- Within the limits page after page is added. -/
theorem RenderRun.probes (hdoc : doc.WithinLimits)
    (hwork : base.work = .renderPage caller revision []) (hbase : base.Undisturbed revision) :
    ∀ count ≤ doc.pageCount, count ≤ TEXPRESSO_WS_LIMITS.maxPages →
      ∃ s pages, RenderRun platform doc base s ∧ s.work = .renderPage caller revision pages ∧
        pages.length = count ∧ doc.Shows pages ∧ s.Undisturbed revision := by
  intro count
  induction count with
  | zero =>
      intro _ _
      exact ⟨base, [], .start, hwork, rfl, .nil, hbase⟩
  | succ count ih =>
      intro hcount hmax
      obtain ⟨s, pages, hrun, hat, hlength, hshows, hs⟩ := ih (by omega) (by omega)
      obtain ⟨image, himage, hadded⟩ := hdoc.addPage hshows (by omega) (by omega) s.renderDpi
      obtain ⟨t, hstep, hat', ht⟩ := LiveSession.step_addsPage hat hs hadded
      have hanswers : doc.Answers s (.pageSettled (.ok image)) := by
        intro caller' revision' pages' hat'
        rw [hat] at hat'
        cases hat'
        exact himage.symm
      have hrendering : s.work.isRendering = true := by
        rw [hat]
        rfl
      have hsends : s.SendsComplete (.pageSettled (.ok image)) := trivial
      exact ⟨t, _, hrun.step hrendering hanswers hsends hstep, hat', by simp [hlength],
        hshows.concat himage, ht⟩

/-- A document of exactly the maximal number of pages is refused: the probe behind its last page
throws like any other page that does not render. -/
theorem RenderRun.refuses (hdoc : doc.WithinLimits)
    (hcount : doc.pageCount = TEXPRESSO_WS_LIMITS.maxPages)
    (hwork : base.work = .renderPage caller revision []) (hbase : base.Undisturbed revision) :
    ∃ t, RenderRun platform doc base t ∧ t.Undisturbed revision ∧ t.work = .sessionFailure caller := by
  obtain ⟨s, pages, hrun, hat, hlength, hshows, hs⟩ :=
    @RenderRun.probes platform base doc caller revision hdoc hwork hbase doc.pageCount
      (Nat.le_refl _) (Nat.le_of_eq hcount)
  obtain ⟨error, herror⟩ : ∃ error, doc.render pages.length = .error error := by
    have hbeyond := doc.beyond pages.length (Nat.le_of_eq hlength.symm)
    cases hrender : doc.render pages.length with
    | error error => exact ⟨error, rfl⟩
    | ok image =>
        rw [hrender] at hbeyond
        cases hbeyond
  -- the probe throws, and the pages are counted
  have hprobed : s.step platform (.pageSettled (.error error))
      = some { s with work := .pageCount caller revision pages error } := by
    simp only [LiveSession.step, LiveSession.onNative, hat]
    rfl
  have hanswers : doc.Answers s (.pageSettled (.error error)) := by
    intro caller' revision' pages' hat'
    rw [hat] at hat'
    cases hat'
    exact herror.symm
  have hrendering : s.work.isRendering = true := by
    rw [hat]
    rfl
  have hsends : s.SendsComplete (.pageSettled (.error error)) := trivial
  have hrun := hrun.step hrendering hanswers hsends hprobed
  -- the pages are as many as counted, but not fewer than the limit
  have hfull : ¬ pages.length < TEXPRESSO_WS_LIMITS.maxPages := by omega
  have hclosing : ¬ s.isClosing = true := by
    rw [hs.isClosing]
    exact Bool.false_ne_true
  have hcounted : LiveSession.step platform { s with work := .pageCount caller revision pages error }
      (.pageCountSettled (.ok doc.pageCount)) = some (LiveSession.workFailed caller error
        { s with work := .pageCount caller revision pages error }) := by
    simp only [LiveSession.step, LiveSession.onNative, LiveSession.pagesCounted,
      if_neg fun h => hfull (And.left h)]
  have hfailed : LiveSession.workFailed caller error
      { s with work := .pageCount caller revision pages error }
        = LiveSession.sendJson (s.failureMessage caller error) .failure
          { s with work := .sessionFailure caller } := by
    unfold LiveSession.workFailed
    rw [if_neg hclosing]
    cases caller <;> rfl
  rw [hfailed] at hcounted
  have hanswers : doc.Answers { s with work := .pageCount caller revision pages error }
      (.pageCountSettled (.ok doc.pageCount)) := rfl
  have hsends : LiveSession.SendsComplete
      { s with work := .pageCount caller revision pages error }
      (.pageCountSettled (.ok doc.pageCount)) := trivial
  exact ⟨_, hrun.step rfl hanswers hsends hcounted, ⟨hs.latest, hs.isClosing, hs.readyState⟩, rfl⟩

/-! ## The rule -/

namespace NativeDocument

variable (doc)

/-- The calls of `renderRevision` that end undisturbed. -/
structure Ends (platform : Platform) (caller : Caller) (revision : Nat) (base s : LiveSession) :
    Prop where
  reachable : (liveSystem platform).Reachable (fun _ _ => True) base
  work : base.work = .renderPage caller revision []
  latest : base.latestReceivedRevision = revision
  run : RenderRun platform doc base s
  ends : s.work.isRendering = false
  undisturbed : s.Undisturbed revision

/-- **Enumeration.**  Exactly the pages of the document are published when there are at least one
and at most as many as the limit; otherwise nothing is, and the session fails. -/
def EnumeratesPages : Prop :=
  ∀ platform caller revision base s, doc.Ends platform caller revision base s →
    (1 ≤ doc.pageCount ∧ doc.pageCount ≤ TEXPRESSO_WS_LIMITS.maxPages →
      doc.Published caller revision base s) ∧
    (doc.pageCount = 0 ∨ TEXPRESSO_WS_LIMITS.maxPages < doc.pageCount →
      base.RenderFailed caller s)

/-- **No truncation.**  Whatever fails, what is sent as a document are all its pages, and a call that
ends undisturbed published all pages or nothing. -/
def NeverTruncated : Prop :=
  ∀ platform caller revision base s, (liveSystem platform).Reachable (fun _ _ => True) base →
    base.work = .renderPage caller revision [] → base.latestReceivedRevision = revision →
    RenderRun platform doc base s →
    (∀ caller' revision' pages index, s.work.unsent? = some (caller', revision', pages, index) →
      doc.Enumerated pages) ∧
    (s.Undisturbed revision → s.work.isRendering = false →
      doc.Published caller revision base s ∨ base.RenderFailed caller s)

end NativeDocument

namespace NativeDocument

/-- What an undisturbed call ends with. -/
theorem Ends.cases {platform : Platform} (h : doc.Ends platform caller revision base s) :
    doc.Published caller revision base s ∨
      (base.RenderFailed caller s ∧ ∃ pages, doc.Refused pages) := by
  obtain ⟨-, hphase⟩ := h.run.phase h.reachable h.work h.latest
  have hphase := hphase h.undisturbed
  have hends := h.ends
  unfold Phase at hphase
  cases hat : s.work with
  | renderPage | pageCount | document | page | complete =>
      rw [hat] at hends
      cases hends
  | resume =>
      rw [hat] at hphase
      exact .inl hphase
  | _ =>
      rw [hat] at hphase
      exact .inr hphase

theorem neverTruncated (doc : NativeDocument) : doc.NeverTruncated := by
  intro platform caller revision base s hreach hwork hlatest hrun
  constructor
  · intro caller' revision' pages index hat
    have hpages := hrun.ofDocument hreach hwork
    cases hwork' : s.work with
    | document | page =>
        rw [hwork'] at hpages hat
        cases hat
        exact hpages
    | _ =>
        rw [hwork'] at hat
        cases hat
  · intro hs hends
    have hend : doc.Ends platform caller revision base s :=
      ⟨hreach, hwork, hlatest, hrun, hends, hs⟩
    exact hend.cases.imp_right And.left

/-- Within the limits only an empty document or one at the limit is refused. -/
theorem WithinLimits.refused (hdoc : doc.WithinLimits) {pages : List TexpressoRenderedPage}
    (h : doc.Refused pages) :
    doc.pageCount = 0 ∨ TEXPRESSO_WS_LIMITS.maxPages ≤ doc.pageCount := by
  obtain ⟨hshows, hstops, hrefused⟩ := h
  have hle := hshows.length_le
  by_contra hbetween
  simp only [not_or, Nat.not_le] at hbetween
  obtain ⟨hpositive, hmax⟩ := hbetween
  by_cases hcount : doc.pageCount = pages.length
  · refine hrefused ⟨by omega, hcount, ?_⟩
    rintro rfl
    exact hpositive hcount
  · obtain ⟨image, himage, hadded⟩ := hdoc.addPage hshows (by omega) (by omega) 0
    have hstopped := hstops image himage 0
    rw [hadded] at hstopped
    cases hstopped

theorem WithinLimits.enumeratesPages (hdoc : doc.WithinLimits)
    (hcount : doc.pageCount ≠ TEXPRESSO_WS_LIMITS.maxPages) : doc.EnumeratesPages := by
  intro platform caller revision base s h
  constructor
  · rintro ⟨hpositive, hmax⟩
    rcases h.cases with hpublished | ⟨-, pages, hrefused⟩
    · exact hpublished
    · rcases hdoc.refused hrefused with hzero | hlarge
      · omega
      · omega
  · intro houtside
    rcases h.cases with ⟨-, pages, hpages, hmax, -⟩ | ⟨hfailed, -⟩
    · have hlength := hpages.length
      have hne : pages.length ≠ 0 := fun hzero =>
        hpages.nonempty (List.length_eq_zero_iff.mp hzero)
      omega
    · exact hfailed

/-- The session of one file, asked for its first page. -/
theorem exists_renderPage : ∃ base, (liveSystem .posix).Reachable (fun _ _ => True) base ∧
    base.work = .renderPage (.initializeSession 1) 1 [] ∧ base.Undisturbed 1 :=
  ⟨OneFileSession.after (OneFileSession.startUp ++ OneFileSession.sending
      ++ [.snapshotTaken ⟨[], [], .success⟩]),
    OneFileSession.reachable_after _, rfl, rfl, rfl, rfl⟩

theorem WithinLimits.not_enumeratesPages (hdoc : doc.WithinLimits)
    (hcount : doc.pageCount = TEXPRESSO_WS_LIMITS.maxPages) : ¬ doc.EnumeratesPages := by
  intro h
  obtain ⟨base, hreach, hwork, hbase⟩ := exists_renderPage
  obtain ⟨t, hrun, ht, hat⟩ := RenderRun.refuses hdoc hcount hwork hbase
  have hends : doc.Ends .posix (.initializeSession 1) 1 base t :=
    ⟨hreach, hwork, hbase.latest, hrun, by rw [hat]; rfl, ht⟩
  have hpublished := (h _ _ _ _ _ hends).1 ⟨by rw [hcount]; decide, Nat.le_of_eq hcount⟩
  have hresumes := hpublished.1
  rw [hat] at hresumes
  cases hresumes

/-- **The rule holds** for every document but those within the byte limits that have exactly the
maximal number of pages. -/
theorem enumeratesPages_iff (doc : NativeDocument) :
    ((doc.WithinLimits → doc.EnumeratesPages) ∧ doc.NeverTruncated) ↔
      ¬ (doc.WithinLimits ∧ doc.pageCount = TEXPRESSO_WS_LIMITS.maxPages) := by
  constructor
  · rintro ⟨henumerates, -⟩ ⟨hdoc, hcount⟩
    exact hdoc.not_enumeratesPages hcount (henumerates hdoc)
  · intro h
    exact ⟨fun hdoc => hdoc.enumeratesPages fun hcount => h ⟨hdoc, hcount⟩, neverTruncated doc⟩

/-- Pages of one byte each. -/
def plain (pageCount : Nat) : NativeDocument where
  pageCount := pageCount
  render := fun page => if page < pageCount then .ok ⟨1, 1, [0]⟩ else .error (js "no such page")
  beyond := by
    intro page hpage
    rw [if_neg (Nat.not_lt.mpr hpage)]
    rfl

theorem plain_withinLimits {pageCount : Nat} (h : pageCount ≤ 1024) :
    (plain pageCount).WithinLimits := by
  have hsize : ∀ page, (plain pageCount).byteLength page ≤ 1 := by
    intro page
    unfold byteLength plain
    dsimp only
    split_ifs <;> simp
  refine ⟨?_, ?_, ?_⟩
  · intro page hpage
    have hlt : page < pageCount := hpage
    simp only [plain, if_pos hlt]
    rfl
  · intro page _
    exact (hsize page).trans (by decide)
  · have hsum : ∀ count, ((List.range count).map (plain pageCount).byteLength).sum ≤ count := by
      intro count
      induction count with
      | zero => exact Nat.le_refl 0
      | succ count ih =>
          rw [List.range_succ, List.map_append, List.sum_append, List.map_singleton,
            List.sum_singleton]
          exact Nat.add_le_add ih (hsize count)
    exact ((hsum pageCount).trans h).trans (by decide)

/-- A document of 64 pages is refused. -/
theorem sixtyFour_refused : ¬ (((plain 64).WithinLimits → (plain 64).EnumeratesPages) ∧
    (plain 64).NeverTruncated) := by
  rintro ⟨h, -⟩
  have hdoc := plain_withinLimits (show 64 ≤ 1024 by decide)
  exact hdoc.not_enumeratesPages rfl (h hdoc)

end NativeDocument

end Typr
