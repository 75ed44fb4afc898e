import TyprCompanion.LivePreview.Coalescing
import TyprCompanion.LivePreview.Publication

/-!
# Render caches

A live session together with the pages its native session has rendered.

* `NativeCall`, `Production` — calls that have not settled, and the images that were produced, with
  the number of changes handed over when they were asked for and when they came.
* `PreviewSession` — a session, its calls, and the cache of its native session.
* `PreviewSession.step` — a step of the session; a page in the cache is answered from it.
-/

namespace Typr

/-! ## Calls -/

/-- A call of the native session. -/
inductive NativeCall where
  | applyRangeChange
  | renderPage (page : Nat)
  | getPageCount
  deriving DecidableEq

/-- The call a method waits for. -/
def Work.call? : Work → Option NativeCall
  | applyRangeChange _ _ => some .applyRangeChange
  | renderPage _ _ pages => some (.renderPage pages.length)
  | pageCount _ _ _ _ => some .getPageCount
  | _ => none

/-- An image the native session produced, and how many changes it had been given. -/
structure Production where
  page : Nat
  dpi : Nat
  theme : Option TexpressoRenderTheme
  image : PageImage
  asked : Nat
  answered : Nat
  deriving DecidableEq

/-- A call that has not settled; `cached` is the page the cache had when it was made. -/
structure PendingCall where
  call : NativeCall
  asked : Nat
  cached : Option Production
  deriving DecidableEq

/-- A session, the calls of its native session that have not settled, the `renderedPages` of the
native session, and all it ever produced. -/
structure PreviewSession where
  session : LiveSession
  calls : List PendingCall
  renderedPages : List Production
  produced : List Production

/-! ## The cache -/

namespace LiveSession

/-- The backend of the native session. -/
def backend? (s : LiveSession) : Option Backend := s.session.map NativeSession.backend

/-- The theme in the key of a page; the full-compile session renders without one. -/
def keyTheme (s : LiveSession) : Option TexpressoRenderTheme :=
  if s.backend? = some .fullCompile then none else s.renderTheme

/-- Whether an image is cached under the key of this page. -/
def hasKey (page : Nat) (s : LiveSession) (production : Production) : Bool :=
  production.page = page && production.dpi = s.renderDpi && production.theme = s.keyTheme

/-- An image the native session produces now. -/
def production (call : PendingCall) (page : Nat) (image : PageImage) (s : LiveSession) : Production :=
  ⟨page, s.renderDpi, s.keyTheme, image, call.asked, s.handed.length⟩

/-- Whether an edit that settled with `result` clears the cache: TeXpresso's when it succeeded
without an error of LaTeX, the one of the full-compile session after every compilation. -/
def clearsCache (result : Except JSString TexpressoSnapshot) (s : LiveSession) : Bool :=
  match s.work, result with
  | .applyRangeChange _ (.ok _), .ok snapshot =>
      s.backend? = some .fullCompile || snapshot.result = .success
  | _, _ => false

end LiveSession

namespace PreviewSession

/-- A session nobody has initialized. -/
def new : PreviewSession := ⟨.new, [], [], []⟩

/-- The call of `renderPage` that settles next. -/
def rendering? (p : PreviewSession) : Option (PendingCall × Nat) :=
  p.calls.findSome? fun call => match call.call with
    | .renderPage page => some (call, page)
    | _ => none

/-- A page in the cache is answered from it. -/
def Answers (p : PreviewSession) : LiveEvent → Prop
  | .pageSettled result => ∀ call ∈ p.rendering?, ∀ entry ∈ call.1.cached, result = .ok entry.image
  | _ => True

/-- `renderedPages.set` -/
def setPage (production : Production) (p : PreviewSession) : PreviewSession :=
  { p with
    renderedPages := production :: p.renderedPages.filter fun entry =>
      !p.session.hasKey production.page entry
    produced := production :: p.produced }

/-- The native session when one of its calls settles. -/
def settle (event : LiveEvent) (p : PreviewSession) : PreviewSession :=
  match event with
  | .applySettled result => { p with
      calls := p.calls.eraseP fun call => call.call = .applyRangeChange
      renderedPages := if p.session.clearsCache result = true then [] else p.renderedPages }
  | .pageSettled result => match p.rendering? with
      | none => p
      | some (call, page) => match call.cached, result with
          | none, .ok image => { p with calls := p.calls.erase call }.setPage
              (p.session.production call page image)
          | _, _ => { p with calls := p.calls.erase call }
  | .pageCountSettled _ => { p with
      calls := p.calls.eraseP fun call => call.call = .getPageCount }
  | _ => p

/-- A call as it is made. -/
def pendingCall (call : NativeCall) (t : LiveSession) (p : PreviewSession) : PendingCall where
  call := call
  asked := t.handed.length
  cached := match call with
    | .renderPage page => p.renderedPages.find? (t.hasKey page)
    | _ => none

/-- The call made when the session goes on. -/
def nextCall (t : LiveSession) (p : PreviewSession) : List PendingCall :=
  match t.work.call? with
  | some call => if p.session.work.call? = some call then [] else [p.pendingCall call t]
  | none => []

/-- `close` of the full-compile session clears its cache. -/
def closesCache (t : LiveSession) : Bool :=
  t.backend? = some .fullCompile && t.native ≠ .running

/-- The session has gone on. -/
def advance (t : LiveSession) (p : PreviewSession) : PreviewSession where
  session := t
  calls := p.calls ++ p.nextCall t
  renderedPages := if closesCache t = true then [] else p.renderedPages
  produced := p.produced

instance (p : PreviewSession) (event : LiveEvent) : Decidable (p.Answers event) :=
  match event with
  | .pageSettled result =>
      inferInstanceAs (Decidable (∀ call ∈ p.rendering?, ∀ entry ∈ call.1.cached,
        result = .ok entry.image))
  | .frame _ | .idleTimeout | .lifetimeTimeout | .peerCloses | .socketClosed | .socketError
  | .serverShutdown | .sendFrame | .sendSettled _ | .mkdtempSettled _ | .materializeSettled _
  | .prepareEnvironment | .startSettled _ | .snapshotTaken _ | .applySettled _
  | .pageCountSettled _ | .nativeExits _ | .nativeTimeout | .nativeClosed | .resume
  | .removeSettled _ | .closeFinishes => inferInstanceAs (Decidable True)

/-- A step of the session and of the pages its native session holds. -/
def step (platform : Platform) (p : PreviewSession) (event : LiveEvent) : Option PreviewSession :=
  if p.Answers event then
    (p.session.step platform event).map fun t => (p.settle event).advance t
  else none

end PreviewSession

/-- The runs of a session with its render cache. -/
def previewSystem (platform : Platform) : Core.System PreviewSession LiveEvent where
  init := .new
  step := PreviewSession.step platform

/-! ## Freshness -/

namespace LiveSession

/-- The revision the native session has when it was given so many changes. -/
def revisionAt (s : LiveSession) : Nat → Option Nat
  | 0 => s.opened.map TexpressoInitializeMessage.revision
  | n + 1 => (s.handed[n]?).map TexpressoChangeMessage.revision

/-- The image was produced after the last change that was handed over. -/
def Now (s : LiveSession) (production : Production) : Prop :=
  production.asked = s.handed.length ∧ production.answered = s.handed.length

end LiveSession

/-- **An image of a revision**: one of the images produced between the change of this revision and
the next one, of the page the metadata describe. -/
def Fresh (produced : List Production) (s : LiveSession) (revision : Nat)
    (descriptor : TexpressoPageDescriptor) (data : Core.Bytes) : Prop :=
  ∃ production ∈ produced, production.page = descriptor.page ∧ production.image.data = data ∧
    production.asked = production.answered ∧ s.revisionAt production.asked = some revision

end Typr
