import TyprCompanion.Server.ServiceGate

/-!
# Requests from other origins

What a page on a site that is not allowed can make the server do.

* `HttpRequest.Compiles` — a request that the compile route accepts.
* **`crossOrigin_iff`** — a request from a foreign origin leaves the host alone exactly when the
  compile route does not accept it.
-/

namespace Typr

open Core Core.Prog

/-- The request names an origin that is not allowed. -/
def HttpRequest.IsForeign (request : HttpRequest) (allowedOrigins : List JSString) : Prop :=
  ∃ origin, request.header "origin" = some (.one origin) ∧ origin ≠ [] ∧ origin ∉ allowedOrigins

/-- The server lets a request with these headers pass. -/
def Passes (p : AccessPlatform) (context : RequestContext) (state : AccessState)
    (authorization : Option JSString) : Prop :=
  context.access = true →
    ∃ now principal, (p.authorize authorization now state).answer = some (.ok principal)

/-- The compile route accepts the request: it is authorized where keys are needed, and its body is a
request for `pdflatex`. -/
def HttpRequest.Compiles (runtime : Runtime) (p : AccessPlatform) (context : RequestContext)
    (state : AccessState) (request : HttpRequest) : Prop :=
  ∃ url value compileRequest, request.target? runtime = some url ∧
    url.pathname = TYPR_COMPANION_ROUTES.compile ∧ request.method = some (js "POST") ∧
    Passes p context state (requestAuthorization request) ∧
    request.jsonBody runtime MAX_REQUEST_BYTES = .ok (.value value) ∧
    validateCompileRequest context.platform value = .ok compileRequest ∧
    compileRequest.protocolVersion = TYPR_COMPANION_PROTOCOL_VERSION ∧
    compileRequest.engine = js "pdflatex"

/-- The compile route accepts what a client sends; upgrades never reach it. -/
def Incoming.Compiles (runtime : Runtime) (p : AccessPlatform) (context : RequestContext)
    (state : AccessState) : Incoming → Prop
  | .request message => message.Compiles runtime p context state
  | .upgrade _ => False

theorem isForeignOrigin_of_isForeign {request : HttpRequest} {allowedOrigins : List JSString}
    (h : request.IsForeign allowedOrigins) :
    isForeignOrigin allowedOrigins (request.header "origin") = true := by
  obtain ⟨origin, horigin, hne, hnot⟩ := h
  rw [horigin]
  simp [isForeignOrigin, hne, hnot]

section Steps

variable {runtime : Runtime} {p : AccessPlatform} {context : RequestContext} {request : HttpRequest}
  {url : Url} {s : ServerState} {allowed : ServerState → ServerOp → Prop}

/-! ## What is refused -/

/-- A body read by a program within a footprint. -/
theorem only_readJsonBody_bind {A : ServerOp → Prop} {maxBytes : Nat} {α : Type}
    {f : BodyResult → ServerProg α} (h : A .receive)
    (hf : ∀ body, request.jsonBody runtime maxBytes = .ok body → (f body).Only A) :
    (readJsonBody runtime request maxBytes >>= f).Only A := by
  refine only_perform h fun _ => ?_
  cases hbody : request.jsonBody runtime maxBytes with
  | error e => exact trivial
  | ok body => exact hf body hbody

theorem sparesHost_compileBody {value : Json}
    (h : ∀ compileRequest, validateCompileRequest context.platform value = .ok compileRequest →
      compileRequest.protocolVersion = TYPR_COMPANION_PROTOCOL_VERSION →
      compileRequest.engine ≠ js "pdflatex") :
    (compileBody context value).Only ServerOp.SparesHost := by
  unfold compileBody
  split
  · exact only_sendJson trivial
  next compileRequest hvalid =>
    split
    · exact only_sendJson trivial
    next hversion =>
      split
      · exact only_sendJson trivial
      next hengine => exact absurd (not_not.mp hengine) (h _ hvalid (not_not.mp hversion))

/-- A request that the compile route does not accept leaves the host alone. -/
theorem sparesHost_dispatch (htarget : request.target? runtime = some url)
    (hroute : isWorkspaceRoute url.pathname = false)
    (hpasses : Passes p context s.access (requestAuthorization request))
    (hnot : ¬ request.Compiles runtime p context s.access) :
    (dispatch runtime context request url).Only ServerOp.SparesHost := by
  unfold dispatch
  split
  · exact sparesHost_statusRoute
  · split
    next hworkspace => exact absurd hworkspace (by rw [hroute]; exact Bool.false_ne_true)
    · split
      next hcompile =>
        refine only_readJsonBody_bind trivial fun body hbody => ?_
        cases body with
        | tooLarge => exact only_sendJson trivial
        | invalidJson => exact only_sendJson trivial
        | value value =>
            refine sparesHost_compileBody fun compileRequest hvalid hversion hengine => hnot ?_
            exact ⟨url, value, compileRequest, htarget, hcompile.2, hcompile.1, hpasses, hbody, hvalid,
              hversion, hengine⟩
      · exact (plain_sendError _ _ _).mono IsPlain.sparesHost

theorem sparesHost_handleRequest (hforeign : request.IsForeign context.allowedOrigins)
    (hnot : ¬ request.Compiles runtime p context s.access) :
    (handleRequest runtime context request).wp (ServerOp.Exec p) (fun _ op => op.SparesHost)
      (fun _ _ => True) s := by
  have hplain : ∀ (_ : ServerState) (op : ServerOp), op.IsPlain → op.SparesHost :=
    fun _ => IsPlain.sparesHost
  unfold handleRequest requestUrl
  cases htarget : request.target? runtime with
  | none => exact trivial
  | some url =>
      refine (wp_bind _ (setHeaders _) _ s).mpr (wp_post ?_ (wp_setHeaders hplain _ s))
      rintro r t rfl
      cases r with
      | error e => exact trivial
      | ok _ =>
          rw [afterBind_ok]
          split
          · exact (plain_sendError _ _ _).wp hplain t
          next hallowed =>
            split
            · exact (plain_preflight _ _ _).wp hplain t
            · by_cases hpasses : Passes p context t.access (requestAuthorization request)
              · have hroute := Bool.eq_false_iff.mpr fun hroute =>
                  hallowed ⟨hroute, isForeignOrigin_of_isForeign hforeign⟩
                refine Only.wp (A := ServerOp.SparesHost) (fun _ _ h => h) (only_bind
                  ((plain_checkAccess _ _ plain_refuse).mono IsPlain.sparesHost) fun passed => ?_) t
                split
                · exact sparesHost_dispatch htarget hroute hpasses hnot
                · exact trivial
              · obtain ⟨haccess, hrefused⟩ := Classical.not_imp.mp hpasses
                refine wp_checked (wp_checkAccess haccess hplain plain_refuse ?_)
                exact fun now principal hsettles =>
                  hrefused ⟨now, principal, authorize_accepts.mp hsettles⟩

/-- What a client from a foreign origin sends leaves the host alone, unless it compiles. -/
theorem sparesHost_serve {incoming : Incoming}
    (hforeign : incoming.httpRequest.IsForeign context.allowedOrigins)
    (hnot : ¬ incoming.Compiles runtime p context s.access) :
    (serve runtime context incoming).wp (ServerOp.Exec p) (fun _ op => op.SparesHost)
      (fun _ _ => True) s := by
  cases incoming with
  | upgrade request =>
      refine Only.wp (fun _ _ h => h) (only_onUpgrade IsPlain.sparesHost ?_) s
      unfold admitUpgrade
      have hforeign : request.IsForeign context.allowedOrigins := hforeign
      rw [if_pos (isForeignOrigin_of_isForeign hforeign)]
      exact (plain_rejectUpgrade _ _).mono IsPlain.sparesHost
  | request request =>
      show (listener runtime context request).wp _ _ _ s
      unfold listener requestUrl
      cases htarget : request.target? runtime with
      | none => exact trivial
      | some url =>
          refine (wp_tryCatch _ _ _ s).mpr (wp_post ?_ (sparesHost_handleRequest hforeign hnot))
          intro r t _
          cases r with
          | ok _ => exact trivial
          | error e => exact (plain_answerFailure e).wp (fun _ => IsPlain.sparesHost) t

/-! ## What is accepted -/

variable {post : Except ServerFailure Unit → ServerState → Prop}

/-- Headers that can be set are set. -/
theorem wp_setHeaders_elim (hresponse : s.response = none) {headers : List (JSString × JSString)}
    (h : (setHeaders headers).wp (ServerOp.Exec p) allowed post s) : post (.ok ()) s := by
  induction headers with
  | nil => exact h
  | cons header rest ih =>
      refine ih (((wp_bind post (setHeader header.1 header.2) _ s).mp h).2 (.ok ()) s ⟨?_, rfl⟩)
      rw [hresponse]
      exact rfl

/-- A request that passes goes on in the same state, in some run. -/
theorem wp_checkAccess_elim {authorization : Option JSString} {refuse : JSString → ServerProg Unit}
    {post : Except ServerFailure Bool → ServerState → Prop}
    (hpasses : Passes p context s.access authorization)
    (h : (checkAccess context authorization refuse).wp (ServerOp.Exec p) allowed post s) :
    post (.ok true) s := by
  unfold checkAccess at h
  split at h
  next haccess =>
    obtain ⟨now, principal, hanswer⟩ := hpasses haccess
    exact ((wp_bind post _ _ s).mp h).2 (.ok (.ok principal)) s
      ⟨rfl, now, authorize_accepts.mpr hanswer⟩
  · exact h

/-- A run of an accepted compilation, once other compilations have ended. -/
theorem compiles_of_compileBody {value : Json} {compileRequest : CompileRequest}
    (hvalid : validateCompileRequest context.platform value = .ok compileRequest)
    (hversion : compileRequest.protocolVersion = TYPR_COMPANION_PROTOCOL_VERSION)
    (hengine : compileRequest.engine = js "pdflatex") (hidle : s.activeCompilations = 0)
    (h : (compileBody context value).wp (ServerOp.Exec p) allowed post s) :
    ∃ t, allowed t (.compile compileRequest) := by
  unfold compileBody at h
  rw [hvalid] at h
  dsimp only at h
  rw [if_neg (not_not.mpr hversion), if_neg (not_not.mpr hengine)] at h
  have hfree := ((wp_bind post _ _ s).mp h).2 s.activeCompilations s ⟨rfl, rfl⟩
  have hlimit : ¬ MAX_ACTIVE_COMPILATIONS ≤ s.activeCompilations := by
    rw [hidle]
    decide
  change (ite _ _ _ : ServerProg Unit).wp _ _ _ s at hfree
  rw [if_neg hlimit] at hfree
  have hproject := (wp_bind post (compileProject compileRequest) _ s).mp hfree
  have havailable := ((wp_bind _ _ _ s).mp hproject).2 (.ok true) s rfl
  exact ⟨s, havailable.1⟩

/-- Some run of an accepted request compiles. -/
theorem compiles_of_compiles (hresponse : s.response = none)
    (hcompiles : request.Compiles runtime p context s.access)
    (h : (listener runtime context request).wp (ServerOp.Exec p) allowed post s) :
    ∃ t compileRequest, allowed t (.compile compileRequest) := by
  obtain ⟨url, value, compileRequest, htarget, hpath, hmethod, hpasses, hbody, hvalid, hversion,
    hengine⟩ := hcompiles
  have hroute : isWorkspaceRoute url.pathname = false := by
    rw [hpath]
    decide
  have hstatus : ¬ (request.method = some (js "GET") ∧
      url.pathname = TYPR_COMPANION_ROUTES.status) := by
    rw [hmethod]
    exact fun hget => absurd hget.1 (by decide)
  unfold listener requestUrl at h
  rw [htarget] at h
  have hhandle := (wp_tryCatch post _ _ s).mp h
  unfold handleRequest requestUrl at hhandle
  rw [htarget] at hhandle
  have hcors := wp_setHeaders_elim hresponse ((wp_bind _ (setHeaders _) _ s).mp hhandle)
  rw [afterBind_ok, if_neg (by rw [hroute]; exact fun hw => absurd hw.1 Bool.false_ne_true),
    if_neg (by rw [hmethod]; decide)] at hcors
  have hdispatch := wp_checkAccess_elim hpasses ((wp_bind _ (authenticate _ _) _ s).mp hcors)
  change (dispatch runtime context request url).wp _ _ _ s at hdispatch
  unfold dispatch at hdispatch
  rw [if_neg hstatus, if_neg (by rw [hroute]; exact Bool.false_ne_true),
    if_pos ⟨hmethod, hpath⟩] at hdispatch
  -- while the body is read, the other compilations end
  have hread := ((wp_bind _ (readJsonBody _ _ _) _ s).mp hdispatch).2 ()
    { s with activeCompilations := 0 } rfl
  rw [hbody] at hread
  obtain ⟨t, ht⟩ := compiles_of_compileBody hvalid hversion hengine rfl hread
  exact ⟨t, compileRequest, ht⟩

end Steps

/-- **Requests from other origins.**  Every run of a request or an upgrade from a foreign origin
leaves the workspace alone, opens no live session and compiles nothing, if and only if the compile
route does not accept the request. -/
theorem crossOrigin_iff (runtime : Runtime) (p : AccessPlatform) (context : RequestContext)
    (incoming : Incoming) (s : ServerState) (hresponse : s.response = none)
    (hforeign : incoming.httpRequest.IsForeign context.allowedOrigins) :
    (serve runtime context incoming).wp (ServerOp.Exec p) (fun _ op => op.SparesHost)
        (fun _ _ => True) s ↔
      ¬ incoming.Compiles runtime p context s.access := by
  constructor
  · intro h hcompiles
    cases incoming with
    | upgrade request => exact hcompiles
    | request request =>
        obtain ⟨t, compileRequest, hallowed⟩ := compiles_of_compiles hresponse hcompiles h
        exact hallowed
  · exact fun hnot => sparesHost_serve hforeign hnot

/-- A workspace request from a foreign origin is refused. -/
theorem crossOrigin_iff_delete : (serve deleteRuntime (oneContext false)
    (deleteA [("origin", js "https://attacker.example")])).wp (ServerOp.Exec AccessStore.onePlatform)
      (fun _ op => op.SparesHost) (fun _ _ => True) (idleServer false) := by
  refine (crossOrigin_iff deleteRuntime AccessStore.onePlatform (oneContext false)
    (deleteA [("origin", js "https://attacker.example")]) (idleServer false) rfl
    ⟨js "https://attacker.example", by decide, by decide, by decide⟩).mpr ?_
  rintro ⟨url, value, compileRequest, -, -, hmethod, -⟩
  exact absurd hmethod (by decide)

/-! ## A simple request -/

/-- The text of a project with one file. -/
def projectText : JSString :=
  js "\x7b\"protocolVersion\":1,\"engine\":\"pdflatex\",\"mainFilePath\":\"a\",\"files\":[\x7b\"path\":\"a\",\"kind\":\"text\",\"content\":\"\"\x7d]\x7d"

/-- What `JSON.parse` makes of it. -/
def projectJson : Json :=
  .object [(js "protocolVersion", .number (.integer 1) (js "1")),
    (js "engine", .string (js "pdflatex")), (js "mainFilePath", .string (js "a")),
    (js "files", .array [.object [(js "path", .string (js "a")), (js "kind", .string (js "text")),
      (js "content", .string [])]])]

/-- A request that a form on any page can send: no preflight comes before it. -/
def simplePost : Incoming :=
  .request { bareRequest "POST" "/api/v1/compile" [("origin", js "https://attacker.example"),
    ("content-type", js "text/plain")] with chunks := [JSString.encodeUtf8 projectText] }

def compileRuntime : Runtime :=
  tableRuntime [(js "/api/v1/compile", localUrl TYPR_COMPANION_ROUTES.compile [] [])]
    [(projectText, projectJson)]

def isCompile : ServerOp → Bool
  | .compile _ => true
  | _ => false

/-- A page on a foreign site starts a compilation. -/
theorem simplePost_compiles : ¬ ∀ (runtime : Runtime) (p : AccessPlatform) (context : RequestContext)
    (incoming : Incoming) (s : ServerState), s.response = none →
    incoming.httpRequest.IsForeign context.allowedOrigins →
    (serve runtime context incoming).wp (ServerOp.Exec p) (fun _ op => op.SparesHost)
      (fun _ _ => True) s := by
  intro h
  have hspares := wp_trace (ServerOp.exec_plain AccessStore.onePlatform)
    (h compileRuntime AccessStore.onePlatform (oneContext false) simplePost (idleServer false) rfl
      ⟨js "https://attacker.example", by decide, by decide, by decide⟩)
  have hperforms : ((serve compileRuntime (oneContext false) simplePost).trace
      (ServerOp.plain AccessStore.onePlatform) (idleServer false)).any
        (fun e => isCompile e.2) = true := by
    decide +kernel
  obtain ⟨⟨t, op⟩, he, hcompile⟩ := List.any_eq_true.mp hperforms
  cases op with
  | compile compileRequest => exact hspares _ he
  | _ => exact absurd hcompile Bool.false_ne_true

end Typr
