import TyprCompanion.Server.ServiceGate

/-!
# Every request is answered

What the request listener does with the one response it may send.

* `Responds` — a program sends one response, or none, as its result tells.
* **`completes_iff`** — the listener ends without an exception, whatever `handleRequest` throws,
  exactly when the target of the request can be parsed.
-/

namespace Typr

open Core Core.Prog

/-- Started without a response, a program ends with one exactly when its value is `answered`; an
exception leaves none. -/
def Responds {α : Type} (p : AccessPlatform) (answered : α → Bool) (prog : ServerProg α) : Prop :=
  ∀ s : ServerState, s.response = none → prog.wp (ServerOp.Exec p) (fun _ _ => True)
    (fun r t => t.response.isSome = match r with
      | .ok a => answered a
      | .error _ => false) s

section Rules

variable {p : AccessPlatform} {α β : Type} {answered : α → Bool}

theorem responds_pure {a : α} (h : answered a = false) :
    Responds p answered (Pure.pure a) := by
  intro s hs
  show s.response.isSome = answered a
  rw [hs, h]
  rfl

theorem responds_throw {e : ServerFailure} :
    Responds p answered (MonadExcept.throw e : ServerProg α) := by
  intro s hs
  show s.response.isSome = false
  rw [hs]
  rfl

theorem responds_ofExcept {r : Except ServerFailure α} :
    Responds p (fun _ => false) (Prog.ofExcept r) := by
  cases r with
  | ok a =>
      intro s hs
      show s.response.isSome = false
      rw [hs]
      rfl
  | error e => exact responds_throw

/-- A program that goes on after an operation without a response. -/
theorem responds_perform {op : ServerOp} {next : op.Reply → ServerProg α}
    (hop : ∀ s reply t, s.response = none → op.Exec p s reply t → t.response = none)
    (hnext : ∀ reply, Responds p answered (next reply)) :
    Responds p answered (.perform op next) :=
  fun s hs => ⟨trivial, fun reply t ht => hnext reply t (hop s reply t hs ht)⟩

theorem responds_bind {quiet : ServerProg α} {f : α → ServerProg β} {answered : β → Bool}
    (hquiet : Responds p (fun _ => false) quiet) (hf : ∀ a, Responds p answered (f a)) :
    Responds p answered (quiet >>= f) := by
  intro s hs
  refine (wp_bind _ quiet f s).mpr (wp_post ?_ (hquiet s hs))
  intro r t ht
  cases r with
  | ok a => exact hf a t (Option.isSome_eq_false_iff.mp ht |> Option.isNone_iff_eq_none.mp)
  | error e => exact ht

/-- While a request waits it gets no response. -/
theorem responds_wait {op : ServerOp} {next : op.Reply → ServerProg α}
    (hop : ∀ s reply t, op.Exec p s reply t → s.Meanwhile t)
    (hnext : ∀ reply, Responds p answered (next reply)) : Responds p answered (.perform op next) :=
  responds_perform (fun s reply t hs ht => (hop s reply t ht).trans hs) hnext

theorem responds_setHeader {name value : JSString} :
    Responds p (fun _ => false) (setHeader name value) := by
  refine responds_perform ?_ fun _ => responds_ofExcept
  rintro s reply t hs ⟨-, rfl⟩
  exact hs

theorem responds_sendJson {status : Nat} {body : ResponseBody} :
    Responds p (fun _ => true) (sendJson status body) := by
  intro s hs
  refine ⟨trivial, ?_⟩
  intro reply t ht
  change (if s.response.isSome = true then _ else _) at ht
  rw [hs] at ht
  obtain ⟨rfl, rfl⟩ := ht
  rfl

end Rules

section Routes

variable {p : AccessPlatform} {runtime : Runtime} {context : RequestContext} {request : HttpRequest}
  {url : Url}

theorem responds_requestUrl : Responds p (fun _ => false) (requestUrl runtime request) := by
  unfold requestUrl
  split
  · exact responds_throw
  · exact responds_pure rfl

theorem responds_setHeaders {headers : List (JSString × JSString)} :
    Responds p (fun _ => false) (setHeaders headers) := by
  induction headers with
  | nil => exact responds_pure rfl
  | cons header rest ih => exact responds_bind responds_setHeader fun _ => ih

theorem responds_readJsonBody {maxBytes : Nat} :
    Responds p (fun _ => false) (readJsonBody runtime request maxBytes) :=
  responds_wait (fun _ _ _ h => h) fun _ => responds_ofExcept

theorem responds_throwWorkspace {status : Nat} {code message : String}
    {h : 400 ≤ status ∧ status < 500} :
    Responds p (fun _ => true) (throwWorkspace status code message h : ServerProg Unit) :=
  responds_throw

theorem responds_requireWorkspaceMutationHeader :
    Responds p (fun _ => false) (requireWorkspaceMutationHeader request) := by
  unfold requireWorkspaceMutationHeader
  split
  · exact responds_pure rfl
  · exact responds_throw

/-! ## The routes -/

theorem responds_putFile {store : WorkspaceStore} {path : JSString} :
    Responds p (fun _ => true) (putFile runtime request store path) := by
  refine responds_bind responds_requireWorkspaceMutationHeader fun _ => ?_
  dsimp only
  split
  · split
    · exact responds_throw
    · split
      · exact responds_throw
      · split
        · exact responds_throw
        · refine responds_bind responds_readJsonBody fun body => ?_
          split
          · exact responds_throw
          · exact responds_throw
          · split
            · exact responds_throw
            · exact responds_bind (responds_wait (fun _ _ _ h => h) fun _ => responds_ofExcept) fun _ =>
                responds_bind responds_setHeader fun _ => responds_sendJson
  · exact responds_throw

theorem responds_deleteFile {path : JSString} :
    Responds p (fun _ => true) (deleteFile request path) := by
  refine responds_bind responds_requireWorkspaceMutationHeader fun _ => ?_
  split
  · exact responds_throw
  · split
    · exact responds_bind (responds_wait (fun _ _ _ h => h) fun _ => responds_ofExcept) fun _ =>
        responds_sendJson
    · exact responds_throw

theorem responds_fileRoute {store : WorkspaceStore} :
    Responds p (fun _ => true) (fileRoute runtime request store url) := by
  unfold fileRoute
  split
  · split
    · exact responds_bind (responds_wait (fun _ _ _ h => h) fun _ => responds_ofExcept) fun _ =>
        responds_bind responds_setHeader fun _ => responds_sendJson
    · split
      · exact responds_putFile
      · split
        · exact responds_deleteFile
        · exact responds_bind responds_setHeader fun _ => responds_sendJson
  · exact responds_throw

theorem responds_handleWorkspaceRequest {workspace : Option WorkspaceStore} :
    Responds p (fun _ => true) (handleWorkspaceRequest runtime request url workspace) := by
  unfold handleWorkspaceRequest
  split
  · exact responds_sendJson
  · split
    · unfold filesRoute
      split
      · exact responds_bind (responds_wait (fun _ _ _ h => h) fun _ => responds_ofExcept) fun _ =>
          responds_sendJson
      · exact responds_bind responds_setHeader fun _ => responds_sendJson
    · exact responds_fileRoute

theorem responds_compileProject {compileRequest : CompileRequest} :
    Responds p (fun _ => false) (compileProject compileRequest) := by
  refine responds_bind (responds_wait (fun _ _ _ h => h) fun _ => responds_ofExcept) fun available => ?_
  split
  · exact responds_wait (fun _ _ _ h => h) fun _ => responds_ofExcept
  · exact responds_pure rfl

theorem responds_compileBody {value : Json} :
    Responds p (fun _ => true) (compileBody context value) := by
  unfold compileBody
  split
  · exact responds_sendJson
  · split
    · exact responds_sendJson
    · split
      · exact responds_sendJson
      · refine responds_bind (responds_perform ?_ fun _ => responds_pure rfl) fun active => ?_
        · rintro s reply t hs ⟨-, rfl⟩
          exact hs
        · split
          · exact responds_sendJson
          · exact responds_bind responds_compileProject fun _ => responds_sendJson

theorem responds_dispatch : Responds p (fun _ => true) (dispatch runtime context request url) := by
  unfold dispatch
  split
  · exact responds_bind (responds_wait (fun _ _ _ h => h) fun _ => responds_ofExcept) fun _ =>
      responds_sendJson
  · split
    · exact responds_handleWorkspaceRequest
    · split
      · refine responds_bind responds_readJsonBody fun body => ?_
        split
        · exact responds_sendJson
        · exact responds_sendJson
        · exact responds_compileBody
      · exact responds_sendJson

theorem responds_preflight : Responds p (fun _ => true) (preflight context request url) := by
  unfold preflight
  split
  · exact responds_sendJson
  · split <;> exact responds_sendJson

/-! ## The listener -/

/-- A refusal is the response. -/
theorem responds_checkAccess {authorization : Option JSString} {refuse : JSString → ServerProg Unit}
    (hrefuse : ∀ message, Responds p (fun _ => true) (refuse message)) :
    Responds p (fun passed => !passed) (checkAccess context authorization refuse) := by
  unfold checkAccess
  split
  · refine responds_bind (responds_wait (fun _ _ _ h => h.1) fun _ => responds_ofExcept) fun result => ?_
    split
    · exact responds_pure rfl
    next message =>
      intro s hs
      refine (wp_bind _ (refuse message) _ s).mpr (wp_post ?_ (hrefuse message s hs))
      intro r t ht
      cases r with
      | ok _ => exact ht
      | error e => exact ht
  · exact responds_pure rfl

/-- What comes after a check responds where the check has not. -/
theorem responds_checked {check : ServerProg Bool} {next : ServerProg Unit}
    (hcheck : Responds p (fun passed => !passed) check) (hnext : Responds p (fun _ => true) next) :
    Responds p (fun _ => true) (check >>= fun passed => if passed = true then next else .pure ()) := by
  intro s hs
  refine (wp_bind _ check _ s).mpr (wp_post ?_ (hcheck s hs))
  intro r t ht
  match r with
  | .error e => exact ht
  | .ok false => exact ht
  | .ok true => exact hnext t (Option.isNone_iff_eq_none.mp (Option.isSome_eq_false_iff.mp ht))

/-- `handleRequest` sends one response, or throws before it has sent one. -/
theorem responds_handleRequest :
    Responds p (fun _ => true) (handleRequest runtime context request) := by
  refine responds_bind responds_requestUrl fun url => responds_bind responds_setHeaders fun _ => ?_
  split
  · exact responds_sendJson
  · split
    · exact responds_preflight
    · refine responds_checked (responds_checkAccess fun message => ?_) responds_dispatch
      exact responds_bind responds_setHeader fun _ => responds_sendJson

end Routes

/-- The response to an exception. -/
def failureResponse : ServerFailure → Nat × ResponseBody
  | .workspace e => (e.status, .error e.code e.message)
  | .error message => (500, .error (js "internal-server-error") message)
  | .other => (500, .error (js "internal-server-error") (js "Unexpected server error."))

/-- An exception is answered with its error. -/
theorem wp_answerFailure {p : AccessPlatform} {s : ServerState} (hresponse : s.response = none)
    (e : ServerFailure) : (answerFailure e).wp (ServerOp.Exec p) (fun _ _ => True)
      (fun r t => r = .ok () ∧ t.response = some (failureResponse e)) s := by
  have hsend : ∀ status body, (sendJson status body).wp (ServerOp.Exec p) (fun _ _ => True)
      (fun r t => r = .ok () ∧ t.response = some (status, body)) s := by
    intro status body
    refine ⟨trivial, fun reply t ht => ?_⟩
    change (if s.response.isSome = true then _ else _) at ht
    rw [hresponse] at ht
    obtain ⟨rfl, rfl⟩ := ht
    exact ⟨rfl, rfl⟩
  cases e <;> exact hsend _ _

/-- The listener comes to its end: every run ends without an exception, with a response sent, and
what `handleRequest` throws is answered with its error. -/
structure Completes (runtime : Runtime) (p : AccessPlatform) (context : RequestContext)
    (request : HttpRequest) (s : ServerState) : Prop where
  settles : (listener runtime context request).wp (ServerOp.Exec p) (fun _ _ => True)
    (fun r t => r = .ok () ∧ t.response.isSome = true) s
  answers : (handleRequest runtime context request).wp (ServerOp.Exec p) (fun _ _ => True)
    (fun r t => ∀ e, r = .error e → (answerFailure e).wp (ServerOp.Exec p) (fun _ _ => True)
      (fun r u => r = .ok () ∧ u.response = some (failureResponse e)) t) s

/-- **The listener completes exactly when it can parse the target.**  Nothing else it does, in any
run, escapes its handler. -/
theorem completes_iff (runtime : Runtime) (p : AccessPlatform) (context : RequestContext)
    (request : HttpRequest) (s : ServerState) (hresponse : s.response = none) :
    Completes runtime p context request s ↔ (request.target? runtime).isSome = true := by
  have hhandled : Responds p (fun _ => true) (handleRequest runtime context request) :=
    responds_handleRequest
  constructor
  · rintro ⟨hsettles, -⟩
    unfold listener requestUrl at hsettles
    cases htarget : request.target? runtime with
    | some url => rfl
    | none =>
        rw [htarget] at hsettles
        exact absurd hsettles.1 nofun
  · intro hsome
    obtain ⟨url, htarget⟩ := Option.isSome_iff_exists.mp hsome
    refine ⟨?_, wp_post ?_ (hhandled s hresponse)⟩
    · unfold listener requestUrl
      rw [htarget]
      refine (wp_tryCatch _ (handleRequest runtime context request) _ s).mpr (wp_post ?_ (hhandled s hresponse))
      intro r t ht
      cases r with
      | ok _ => exact ⟨rfl, ht⟩
      | error e =>
          refine wp_post (fun r u hu => ⟨hu.1, by rw [hu.2]; rfl⟩) (wp_answerFailure ?_ e)
          exact Option.isNone_iff_eq_none.mp (Option.isSome_eq_false_iff.mp ht)
    · rintro r t ht e rfl
      exact wp_answerFailure (Option.isNone_iff_eq_none.mp (Option.isSome_eq_false_iff.mp ht)) e

/-- A request on a file completes. -/
theorem completes_iff_file : Completes deleteRuntime AccessStore.onePlatform (oneContext false)
    (bareRequest "DELETE" "/api/v1/workspace/file?path=a" []) (idleServer false) :=
  (completes_iff deleteRuntime AccessStore.onePlatform (oneContext false)
    (bareRequest "DELETE" "/api/v1/workspace/file?path=a" []) (idleServer false) rfl).mpr (by decide)

/-- The target `//` has no host, and `new URL` throws where nothing catches it. -/
theorem slashes_escape : ¬ ∀ (runtime : Runtime) (p : AccessPlatform) (context : RequestContext)
    (request : HttpRequest) (s : ServerState), s.response = none →
    Completes runtime p context request s := by
  intro h
  have hcompletes := h (tableRuntime [] []) AccessStore.onePlatform (oneContext false)
    (bareRequest "GET" "//" []) (idleServer false) rfl
  exact absurd hcompletes.settles.1 nofun

end Typr
