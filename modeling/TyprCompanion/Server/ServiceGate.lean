import TyprCompanion.Server.CompanionServer

/-!
# What a request can reach

Footprints of the routes, and from them the gate of the service.

* `ServerOp.IsPlain` — the operations open to everybody: headers, refusals, reading the body.
* `ServerOp.Conditional` — a mutation of the workspace with the intent and the precondition of its
  request.
* **`gate`** — with keys required everything else needs a credential that `authorize` accepts.
* **`conditional`** — the workspace is only changed conditionally, for an origin that is not foreign.
-/

namespace Typr

open Core Core.Prog

/-! ## Operations for everybody -/

/-- Neither refusals nor empty responses disclose anything. -/
def ResponseBody.IsRefusal : ResponseBody → Prop
  | .error _ _ => True
  | .empty => True
  | .text _ => True
  | _ => False

/-- Neither a use of the host nor a disclosure. -/
def ServerOp.IsPlain : ServerOp → Prop
  | .authorize _ => True
  | .receive => True
  | .activeCompilations => True
  | .activeLiveSessions => True
  | .acceptWebSocket => True
  | .setHeader _ _ => True
  | .send _ body => body.IsRefusal
  | .rejectUpgrade _ _ => True
  | _ => False

section Routes

variable {A : ServerOp → Prop}

theorem only_setHeader {name value : JSString} (h : A (.setHeader name value)) :
    (setHeader name value).Only A :=
  only_perform h fun _ => only_ofExcept _

theorem only_sendJson {status : Nat} {body : ResponseBody} (h : A (.send status body)) :
    (sendJson status body).Only A :=
  only_perform h fun _ => only_ofExcept _

theorem only_throwWorkspace {status : Nat} {code message : String}
    {h : 400 ≤ status ∧ status < 500} {α : Type} :
    (throwWorkspace status code message h : ServerProg α).Only A := trivial

theorem only_requestUrl {runtime : Runtime} {request : HttpRequest} :
    (requestUrl runtime request).Only A := by
  unfold requestUrl
  split <;> exact trivial

theorem only_readJsonBody {runtime : Runtime} {request : HttpRequest} {maxBytes : Nat}
    (h : A .receive) : (readJsonBody runtime request maxBytes).Only A :=
  only_perform h fun _ => only_ofExcept _

theorem only_requireWorkspaceMutationHeader {request : HttpRequest} :
    (requireWorkspaceMutationHeader request).Only A := by
  unfold requireWorkspaceMutationHeader
  split <;> exact trivial

end Routes

theorem plain_sendError (status : Nat) (code message : JSString) :
    (sendError status code message).Only ServerOp.IsPlain :=
  only_sendJson trivial

theorem plain_rejectUpgrade (status : Nat) (message : JSString) :
    (rejectUpgrade status message).Only ServerOp.IsPlain :=
  only_perform trivial fun _ => trivial

theorem plain_setHeaders (headers : List (JSString × JSString)) :
    (setHeaders headers).Only ServerOp.IsPlain := by
  induction headers with
  | nil => exact trivial
  | cons header rest ih => exact only_bind (only_setHeader trivial) fun _ => ih

theorem plain_preflight (context : RequestContext) (request : HttpRequest) (url : Url) :
    (preflight context request url).Only ServerOp.IsPlain := by
  unfold preflight
  split
  · exact plain_sendError _ _ _
  · split
    · exact plain_sendError _ _ _
    · exact only_sendJson trivial

theorem plain_checkAccess (context : RequestContext) (authorization : Option JSString)
    {refuse : JSString → ServerProg Unit} (hrefuse : ∀ message, (refuse message).Only ServerOp.IsPlain) :
    (checkAccess context authorization refuse).Only ServerOp.IsPlain := by
  unfold checkAccess
  split
  · refine only_bind (only_perform trivial only_ofExcept) fun result => ?_
    split
    · exact trivial
    · exact only_bind (hrefuse _) fun _ => trivial
  · exact trivial

/-- The refusal of a request. -/
theorem plain_refuse (message : JSString) : (do
    setHeader (js "WWW-Authenticate") (js "Bearer realm=\"Typr Companion\"")
    sendError 401 (js "api-key-required") message).Only ServerOp.IsPlain :=
  only_bind (only_setHeader trivial) fun _ => plain_sendError _ _ _

theorem plain_answerFailure (e : ServerFailure) : (answerFailure e).Only ServerOp.IsPlain := by
  cases e <;> exact plain_sendError _ _ _

/-! ## Credentials -/

/-- `authorize` accepts a credential in a state. -/
def AccessPlatform.Accepts (p : AccessPlatform) (state : AccessState) (credential : JSString) : Prop :=
  ∃ now principal, (p.authorize (some credential) now state).answer = some (.ok principal)

/-- A credential of a request: its `Authorization` header or, on an upgrade without one, the key in
an offered subprotocol. -/
inductive Incoming.Carries : Incoming → JSString → Prop where
  | requestHeader {request : HttpRequest} {credential : JSString}
      (h : request.header "authorization" = some (.one credential)) :
      Carries (.request request) credential
  | upgradeHeader {request : HttpRequest} {credential : JSString}
      (h : request.header "authorization" = some (.one credential)) :
      Carries (.upgrade request) credential
  | protocol {request : HttpRequest} {protocols key : JSString}
      (h : request.header "sec-websocket-protocol" = some (.one protocols))
      (hkey : js "typr-api-key." ++ key ∈ (JSString.split (unit ',') protocols).map JSString.trim) :
      Carries (.upgrade request) (js "Bearer " ++ JSString.decodeUtf8 (fromBase64 key))

/-- The request has a credential that `authorize` accepts. -/
def Incoming.Authorized (p : AccessPlatform) (state : AccessState) (incoming : Incoming) : Prop :=
  ∃ credential, incoming.Carries credential ∧ p.Accepts state credential

theorem AccessOutcome.settles_iff {outcome : AccessOutcome} {result : AuthorizationResult}
    (h : outcome.Settles outcome.settle) :
    outcome.Settles (.ok result) ↔ outcome.answer = some result := by
  match outcome, h with
  | .returns (.authorization answer), _ =>
      exact ⟨fun h => congrArg some (Except.ok.inj h).symm, fun h => congrArg _ (Option.some.inj h).symm⟩
  | .persists _ (.authorize principal), _ =>
      constructor
      · rintro (h | ⟨e, h⟩)
        · exact congrArg some (Except.ok.inj h).symm
        · exact absurd h nofun
      · exact fun h => .inl (congrArg _ (Option.some.inj h).symm)

/-- `authorize` accepts at once, or when its `persist` succeeds. -/
theorem authorize_accepts {p : AccessPlatform} {authorization : Option JSString} {now : Nat}
    {state : AccessState} {result : AuthorizationResult} :
    (p.authorize authorization now state).Settles (.ok result) ↔
      (p.authorize authorization now state).answer = some result :=
  AccessOutcome.settles_iff (authorize_settles p authorization now state)

section Required

variable {p : AccessPlatform} {s : ServerState}

/-- With keys required, a call that is accepted was given a credential. -/
theorem accepts_of_settles (hrequired : s.access.requireApiKeys = true) {now : Nat}
    {authorization : Option JSString} {principal : Option ApiPrincipal}
    (h : (p.authorize authorization now s.access).Settles (.ok (.ok principal))) :
    ∃ credential, authorization = some credential ∧ p.Accepts s.access credential := by
  have hanswer := authorize_accepts.mp h
  match authorization with
  | none =>
      rw [AccessPlatform.authorize, if_pos hrequired] at hanswer
      exact absurd hanswer answer_failed
  | some credential => exact ⟨credential, rfl, now, principal, hanswer⟩

/-- A header that is no string is refused. -/
theorem not_accepts_invalid : ¬ p.Accepts s.access (js "invalid-authorization-header") := by
  rintro ⟨now, principal, h⟩
  exact answer_failed h

theorem authorized_of_requestAuthorization {request : HttpRequest} {credential : JSString}
    (h : requestAuthorization request = some credential) (haccepts : p.Accepts s.access credential) :
    (Incoming.request request).Authorized p s.access := by
  unfold requestAuthorization at h
  split at h
  · exact absurd h nofun
  next value hvalue =>
    obtain rfl := Option.some.inj h
    exact ⟨_, .requestHeader hvalue, haccepts⟩
  · obtain rfl := Option.some.inj h
    exact absurd haccepts not_accepts_invalid

theorem authorized_of_webSocketAuthorization {request : HttpRequest} {credential : JSString}
    (h : webSocketAuthorization request = some credential)
    (haccepts : p.Accepts s.access credential) :
    (Incoming.upgrade request).Authorized p s.access := by
  refine ⟨credential, ?_, haccepts⟩
  unfold webSocketAuthorization at h
  split at h
  next authorization hauthorization =>
    obtain rfl := Option.some.inj h
    exact .upgradeHeader (stringHeader_eq_some.mp hauthorization)
  · split at h
    · exact absurd h nofun
    next protocols hprotocols =>
      dsimp only at h
      split at h
      · exact absurd h nofun
      · exact absurd h nofun
      next encoded _ hencoded =>
        obtain rfl := Option.some.inj h
        obtain ⟨protocol, hfind, rfl⟩ := Option.map_eq_some_iff.mp hencoded
        have hmem := List.mem_of_find?_eq_some hfind
        have hprefix := List.isPrefixOf_iff_prefix.mp (List.find?_some hfind)
        refine .protocol (stringHeader_eq_some.mp hprotocols) ?_
        rw [List.prefix_iff_eq_append.mp hprefix]
        exact hmem

/-! ## The gate -/

variable {allowed : ServerState → ServerOp → Prop}

theorem wp_setHeaders (hplain : ∀ s op, op.IsPlain → allowed s op)
    (headers : List (JSString × JSString)) (s : ServerState) :
    (setHeaders headers).wp (ServerOp.Exec p) allowed (fun _ t => t = s) s := by
  induction headers with
  | nil => exact rfl
  | cons header rest ih =>
      refine (wp_bind _ _ _ s).mpr ⟨hplain _ _ trivial, ?_⟩
      rintro reply t ⟨-, rfl⟩
      cases reply with
      | error e => exact rfl
      | ok _ => exact ih

/-- Without a credential that is accepted, a request does not go on. -/
theorem wp_checkAccess {context : RequestContext} {authorization : Option JSString}
    {refuse : JSString → ServerProg Unit} (haccess : context.access = true)
    (hplain : ∀ s op, op.IsPlain → allowed s op)
    (hrefuse : ∀ message, (refuse message).Only ServerOp.IsPlain)
    (hnot : ∀ now principal,
      ¬ (p.authorize authorization now s.access).Settles (.ok (.ok principal))) :
    (checkAccess context authorization refuse).wp (ServerOp.Exec p) allowed
      (fun r _ => r ≠ .ok true) s := by
  unfold checkAccess
  rw [if_pos haccess]
  refine (wp_bind _ _ _ s).mpr ⟨hplain _ _ trivial, ?_⟩
  rintro reply t ⟨-, now, hsettles⟩
  match reply with
  | .error e => exact nofun
  | .ok (.ok principal) => exact absurd hsettles (hnot now principal)
  | .ok (.failed message) =>
      refine (hrefuse message).wp_bind hplain (fun _ _ => nofun) ?_ t
      exact fun _ _ => nofun

/-- What comes after a check that does not succeed is not reached. -/
theorem wp_checked {check : ServerProg Bool} {next : ServerProg Unit}
    (h : check.wp (ServerOp.Exec p) allowed (fun r _ => r ≠ .ok true) s) :
    (check >>= fun passed => if passed = true then next else .pure ()).wp (ServerOp.Exec p) allowed
      (fun _ _ => True) s := by
  refine (wp_bind _ _ _ s).mpr (wp_post ?_ h)
  intro r t hr
  match r with
  | .error e => exact trivial
  | .ok false => exact trivial
  | .ok true => exact absurd rfl hr

/-- A request without a credential stays within what is open to everybody. -/
theorem wp_handleRequest {runtime : Runtime} {context : RequestContext} {request : HttpRequest}
    (haccess : context.access = true) (hplain : ∀ s op, op.IsPlain → allowed s op)
    (hrequired : s.access.requireApiKeys = true)
    (hnot : ¬ (Incoming.request request).Authorized p s.access) :
    (handleRequest runtime context request).wp (ServerOp.Exec p) allowed (fun _ _ => True) s := by
  unfold handleRequest requestUrl
  cases htarget : request.target? runtime with
  | none => exact trivial
  | some url =>
      refine (wp_bind _ (setHeaders _) _ s).mpr (wp_post ?_ (wp_setHeaders hplain _ s))
      rintro r t rfl
      cases r with
      | error e => exact trivial
      | ok _ =>
          rw [afterBind_ok]
          split
          · exact (plain_sendError _ _ _).wp hplain t
          · split
            · exact (plain_preflight _ _ _).wp hplain t
            · refine wp_checked (wp_checkAccess haccess hplain plain_refuse ?_)
              intro now principal hsettles
              obtain ⟨credential, hcredential, haccepts⟩ := accepts_of_settles hrequired hsettles
              exact hnot (authorized_of_requestAuthorization hcredential haccepts)

/-- An upgrade without a credential stays within what is open to everybody. -/
theorem wp_handleUpgrade {runtime : Runtime} {context : RequestContext} {request : HttpRequest}
    (haccess : context.access = true) (hplain : ∀ s op, op.IsPlain → allowed s op)
    (hrequired : s.access.requireApiKeys = true)
    (hnot : ¬ (Incoming.upgrade request).Authorized p s.access) :
    (handleUpgrade runtime context request).wp (ServerOp.Exec p) allowed (fun _ _ => True) s := by
  unfold handleUpgrade requestUrl
  cases htarget : request.target? runtime with
  | none => exact trivial
  | some url =>
      refine (wp_bind _ (.pure url) _ s).mpr ?_
      show ((if url.pathname ≠ TEXPRESSO_WS_ROUTE then _ else _) : ServerProg Unit).wp _ _ _ s
      split
      · exact (plain_rejectUpgrade _ _).wp hplain s
      · refine wp_checked (wp_checkAccess haccess hplain (plain_rejectUpgrade 401) ?_)
        intro now principal hsettles
        obtain ⟨credential, hcredential, haccepts⟩ := accepts_of_settles hrequired hsettles
        exact hnot (authorized_of_webSocketAuthorization hcredential haccepts)

end Required

/-- **The gate.**  With keys required, everything but refusals needs a credential that `authorize`
accepts, whatever the other requests do. -/
theorem gate (runtime : Runtime) (p : AccessPlatform) {context : RequestContext}
    (haccess : context.access = true) (incoming : Incoming) {s : ServerState}
    (hrequired : s.access.requireApiKeys = true) :
    (serve runtime context incoming).wp (ServerOp.Exec p)
      (fun _ op => op.IsPlain ∨ incoming.Authorized p s.access) (fun _ _ => True) s := by
  by_cases hauthorized : incoming.Authorized p s.access
  · exact wp_of_allowed fun _ _ => .inr hauthorized
  have hplain : ∀ (_ : ServerState) (op : ServerOp), op.IsPlain →
      op.IsPlain ∨ incoming.Authorized p s.access := fun _ _ h => .inl h
  cases incoming with
  | request request =>
      show (listener runtime context request).wp _ _ _ s
      unfold listener requestUrl
      cases htarget : request.target? runtime with
      | none => exact trivial
      | some url =>
          refine (wp_tryCatch _ _ _ s).mpr (wp_post ?_
            (wp_handleRequest haccess hplain hrequired hauthorized))
          intro r t _
          cases r with
          | ok _ => exact trivial
          | error e => exact (plain_answerFailure e).wp hplain t
  | upgrade request =>
      refine (wp_tryCatch _ _ _ s).mpr (wp_post ?_
        (wp_handleUpgrade haccess hplain hrequired hauthorized))
      intro r t _
      cases r with
      | ok _ => exact trivial
      | error e => exact (plain_rejectUpgrade _ _).wp hplain t

/-! ## Mutations -/

/-- A header has one value that reads `text`, up to white space around it. -/
def HttpRequest.HeaderReads (request : HttpRequest) (name : String) (text : JSString) : Prop :=
  ∃ raw, request.header name = some (.one raw) ∧ unit ',' ∉ raw ∧ JSString.trim raw = text

/-- There is no origin, or an empty one, or one of the list. -/
def HttpRequest.OriginAllowed (request : HttpRequest) (allowedOrigins : List JSString) : Prop :=
  match request.header "origin" with
  | none => True
  | some (.one origin) => origin = [] ∨ origin ∈ allowedOrigins
  | some (.many _) => False

/-- The precondition is the one in the headers. -/
def WorkspaceWritePrecondition.TakenFrom (request : HttpRequest) : WorkspaceWritePrecondition → Prop
  | .create => request.HeaderReads "if-none-match" (js "*")
  | .update etag => request.HeaderReads "if-match" etag ∧ StrongEtag etag

/-- The request asks for a mutation on this precondition. -/
def HttpRequest.MayMutate (request : HttpRequest) (allowedOrigins : List JSString)
    (precondition : WorkspaceWritePrecondition) : Prop :=
  request.OriginAllowed allowedOrigins ∧
    request.HeaderReads "x-typr-workspace-mutation" (js "1") ∧ precondition.TakenFrom request

/-- A mutation of the workspace is one that the request asks for. -/
def ServerOp.Conditional (allowedOrigins : List JSString) (request : HttpRequest) : ServerOp → Prop
  | .write _ _ precondition => request.MayMutate allowedOrigins precondition
  | .delete _ etag => request.MayMutate allowedOrigins (.update etag)
  | _ => True

theorem headerReads_of_singleHeader {request : HttpRequest} {name : String} {text : JSString}
    (h : singleHeader (request.header name) = some text) : request.HeaderReads name text := by
  obtain ⟨raw, hraw, hcomma, htrim, -⟩ := singleHeader_eq_some.mp h
  exact ⟨raw, hraw, hcomma, htrim⟩

theorem originAllowed_iff {request : HttpRequest} {allowedOrigins : List JSString} :
    isForeignOrigin allowedOrigins (request.header "origin") = false ↔
      request.OriginAllowed allowedOrigins := by
  unfold isForeignOrigin HttpRequest.OriginAllowed
  cases request.header "origin" with
  | none => exact iff_of_true rfl trivial
  | some value =>
      cases value with
      | many values => exact iff_of_false nofun nofun
      | one origin => simp [Decidable.or_iff_not_imp_left]

section Mutations

variable {runtime : Runtime} {context : RequestContext} {request : HttpRequest} {url : Url}
  {store : WorkspaceStore} {path : JSString}

theorem IsPlain.conditional {allowedOrigins : List JSString} (op : ServerOp) (h : op.IsPlain) :
    op.Conditional allowedOrigins request := by
  cases op with
  | write => exact absurd h nofun
  | delete => exact absurd h nofun
  | _ => exact trivial

/-- What follows the check of the mutation header has seen it. -/
theorem only_mutation {A : ServerOp → Prop} {rest : ServerProg Unit}
    (h : request.HeaderReads "x-typr-workspace-mutation" (js "1") → rest.Only A) :
    (requireWorkspaceMutationHeader request >>= fun _ => rest).Only A := by
  unfold requireWorkspaceMutationHeader
  split
  next hheader => exact h (headerReads_of_singleHeader hheader)
  · exact trivial

/-- The precondition that passes the checks of `PUT` is the one in the headers. -/
theorem takenFrom_headers {ifNoneMatch ifMatch : Option JSString}
    (hnone : singleHeader (request.header "if-none-match") = ifNoneMatch)
    (hmatch : singleHeader (request.header "if-match") = ifMatch)
    (hone : ¬ ifNoneMatch.isSome = ifMatch.isSome)
    (hcreate : ¬ (ifNoneMatch.isSome = true ∧ ifNoneMatch ≠ some (js "*")))
    (hetag : ¬ ifMatch.any (fun etag => !isStrongEtag etag) = true) :
    WorkspaceWritePrecondition.TakenFrom request (ifMatch.elim .create .update) := by
  cases ifMatch with
  | some etag =>
      refine ⟨headerReads_of_singleHeader hmatch, isStrongEtag_iff.mp ?_⟩
      simpa using hetag
  | none =>
      cases ifNoneMatch with
      | none => exact absurd rfl hone
      | some text =>
          obtain rfl : text = js "*" := by simpa using hcreate
          exact headerReads_of_singleHeader hnone

variable {allowedOrigins : List JSString} (horigin : request.OriginAllowed allowedOrigins)

include horigin

theorem conditional_putFile :
    (putFile runtime request store path).Only (ServerOp.Conditional allowedOrigins request) := by
  unfold putFile
  refine only_mutation fun hmutation => ?_
  dsimp only
  split
  · split
    · exact trivial
    next hsome =>
      split
      · exact trivial
      next hcreate =>
        split
        · exact trivial
        next hetag =>
          refine only_bind (only_readJsonBody trivial) fun result => ?_
          split
          · exact trivial
          · exact trivial
          · split
            · exact trivial
            next content _ =>
              refine only_bind (only_perform ?_ only_ofExcept) fun metadata =>
                only_bind (only_setHeader trivial) fun _ => only_sendJson trivial
              refine ⟨horigin, hmutation, ?_⟩
              exact takenFrom_headers rfl rfl hsome hcreate hetag
  · exact trivial

theorem conditional_deleteFile :
    (deleteFile request path).Only (ServerOp.Conditional allowedOrigins request) := by
  unfold deleteFile
  refine only_mutation fun hmutation => ?_
  split
  · exact trivial
  next etag hetag =>
    split
    next hstrong =>
      refine only_bind (only_perform ⟨horigin, hmutation, headerReads_of_singleHeader hetag,
        isStrongEtag_iff.mp hstrong⟩ only_ofExcept) fun _ => ?_
      exact only_sendJson trivial
    · exact trivial

theorem conditional_fileRoute :
    (fileRoute runtime request store url).Only (ServerOp.Conditional allowedOrigins request) := by
  unfold fileRoute
  split
  · split
    · exact only_bind (only_perform trivial only_ofExcept) fun file =>
        only_bind (only_setHeader trivial) fun _ => only_sendJson trivial
    · split
      · exact conditional_putFile horigin
      · split
        · exact conditional_deleteFile horigin
        · exact only_bind (only_setHeader trivial) fun _ => only_sendJson trivial
  · exact trivial

theorem conditional_handleWorkspaceRequest {workspace : Option WorkspaceStore} :
    (handleWorkspaceRequest runtime request url workspace).Only
      (ServerOp.Conditional allowedOrigins request) := by
  unfold handleWorkspaceRequest
  split
  · exact only_sendJson trivial
  · split
    · unfold filesRoute
      split
      · exact only_bind (only_perform trivial only_ofExcept) fun _ => only_sendJson trivial
      · exact only_bind (only_setHeader trivial) fun _ => only_sendJson trivial
    · exact conditional_fileRoute horigin

end Mutations

/-! ## The other routes -/

/-- No use of the workspace, and no live session. -/
def ServerOp.OnlyCompiles : ServerOp → Prop
  | .list => False
  | .read _ => False
  | .write _ _ _ => False
  | .delete _ _ => False
  | .openLiveSession => False
  | _ => True

/-- No use of the host: neither the workspace nor a live session nor a compilation. -/
def ServerOp.SparesHost : ServerOp → Prop
  | .compile _ => False
  | op => op.OnlyCompiles

theorem IsPlain.sparesHost (op : ServerOp) (h : op.IsPlain) : op.SparesHost := by
  cases op <;> first | exact trivial | exact absurd h nofun

theorem SparesHost.onlyCompiles (op : ServerOp) (h : op.SparesHost) : op.OnlyCompiles := by
  cases op <;> first | exact trivial | exact absurd h nofun

theorem OnlyCompiles.conditional {allowedOrigins : List JSString} {request : HttpRequest}
    (op : ServerOp) (h : op.OnlyCompiles) : op.Conditional allowedOrigins request := by
  cases op <;> first | exact trivial | exact absurd h nofun

section OtherRoutes

variable {runtime : Runtime} {context : RequestContext} {request : HttpRequest} {url : Url}

theorem sparesHost_statusRoute : (statusRoute context).Only ServerOp.SparesHost :=
  only_bind (only_perform trivial only_ofExcept) fun _ => only_sendJson trivial

theorem onlyCompiles_compileProject (compileRequest : CompileRequest) :
    (compileProject compileRequest).Only ServerOp.OnlyCompiles := by
  refine only_bind (only_perform trivial only_ofExcept) fun available => ?_
  split
  · exact only_perform trivial only_ofExcept
  · exact trivial

theorem onlyCompiles_compileBody (value : Json) :
    (compileBody context value).Only ServerOp.OnlyCompiles := by
  unfold compileBody
  split
  · exact only_sendJson trivial
  · split
    · exact only_sendJson trivial
    · split
      · exact only_sendJson trivial
      · refine only_bind (only_perform trivial fun _ => trivial) fun active => ?_
        split
        · exact only_sendJson trivial
        · exact only_bind (onlyCompiles_compileProject _) fun _ => only_sendJson trivial

theorem onlyCompiles_compileRoute :
    (compileRoute runtime context request).Only ServerOp.OnlyCompiles := by
  refine only_bind (only_readJsonBody trivial) fun result => ?_
  split
  · exact only_sendJson trivial
  · exact only_sendJson trivial
  · exact onlyCompiles_compileBody _

theorem only_handleRequest {A : ServerOp → Prop} (hplain : ∀ op, op.IsPlain → A op)
    (hdispatch : ∀ url, ¬ (isWorkspaceRoute url.pathname = true ∧
        isForeignOrigin context.allowedOrigins (request.header "origin") = true) →
      (dispatch runtime context request url).Only A) :
    (handleRequest runtime context request).Only A := by
  refine only_bind only_requestUrl fun url => ?_
  refine only_bind ((plain_setHeaders _).mono hplain) fun _ => ?_
  split
  · exact (plain_sendError _ _ _).mono hplain
  next hallowed =>
    split
    · exact (plain_preflight _ _ _).mono hplain
    · refine only_bind ((plain_checkAccess _ _ plain_refuse).mono hplain) fun passed => ?_
      split
      · exact hdispatch url hallowed
      · exact trivial

theorem only_listener {A : ServerOp → Prop} (hplain : ∀ op, op.IsPlain → A op)
    (hhandle : (handleRequest runtime context request).Only A) :
    (listener runtime context request).Only A :=
  only_bind only_requestUrl fun _ =>
    only_tryCatch hhandle fun e => (plain_answerFailure e).mono hplain

theorem only_onUpgrade {A : ServerOp → Prop} (hplain : ∀ op, op.IsPlain → A op)
    (hadmission : (admitUpgrade context request).Only A) : (onUpgrade runtime context request).Only A := by
  refine only_tryCatch (only_bind only_requestUrl fun url => ?_) fun e =>
    (plain_rejectUpgrade _ _).mono hplain
  split
  · exact (plain_rejectUpgrade _ _).mono hplain
  · refine only_bind ((plain_checkAccess _ _ (plain_rejectUpgrade 401)).mono hplain) fun passed => ?_
    split
    · exact hadmission
    · exact trivial

theorem conditional_admitUpgrade {allowedOrigins : List JSString} :
    (admitUpgrade context request).Only (ServerOp.Conditional allowedOrigins request) := by
  unfold admitUpgrade
  split
  · exact only_perform trivial fun _ => trivial
  · refine only_bind (only_perform trivial fun _ => trivial) fun active => ?_
    split
    · exact only_perform trivial fun _ => trivial
    · refine only_bind (only_perform trivial fun _ => trivial) fun accepted => ?_
      split
      · exact only_perform trivial fun _ => trivial
      · exact trivial

end OtherRoutes

/-- Whatever a client sends, a mutation of the workspace is one its headers ask for. -/
theorem conditional (runtime : Runtime) (context : RequestContext) (incoming : Incoming) :
    (serve runtime context incoming).Only
      (ServerOp.Conditional context.allowedOrigins incoming.httpRequest) := by
  cases incoming with
  | upgrade request => exact only_onUpgrade IsPlain.conditional conditional_admitUpgrade
  | request request =>
      refine only_listener IsPlain.conditional (only_handleRequest IsPlain.conditional ?_)
      intro url hallowed
      unfold dispatch
      split
      · exact sparesHost_statusRoute.mono fun op h =>
          OnlyCompiles.conditional op (SparesHost.onlyCompiles op h)
      · split
        next hroute =>
          refine conditional_handleWorkspaceRequest (originAllowed_iff.mp ?_)
          exact Bool.eq_false_iff.mpr fun hforeign => hallowed ⟨hroute, hforeign⟩
        · split
          · exact onlyCompiles_compileRoute.mono OnlyCompiles.conditional
          · exact (plain_sendError _ _ _).mono IsPlain.conditional

/-- **The service gate.**  When an access store requires keys, every run of a request or an upgrade
performs only what is open to everybody unless the request has a credential that `authorize` accepts
in that state; and in every configuration a mutation of the workspace is one its headers ask for. -/
theorem service_gate (runtime : Runtime) (p : AccessPlatform) (context : RequestContext)
    (incoming : Incoming) (s : ServerState) :
    (context.access = true → s.access.requireApiKeys = true →
      (serve runtime context incoming).wp (ServerOp.Exec p)
        (fun _ op => op.IsPlain ∨ incoming.Authorized p s.access) (fun _ _ => True) s) ∧
    (serve runtime context incoming).wp (ServerOp.Exec p)
      (fun _ op => op.Conditional context.allowedOrigins incoming.httpRequest) (fun _ _ => True) s :=
  ⟨fun haccess hrequired => gate runtime p haccess incoming hrequired,
    (conditional runtime context incoming).wp (fun _ _ h => h) s⟩

/-! ## Requests on a file -/

/-- A workspace. -/
def oneStore : WorkspaceStore where
  platform := .posix
  root := []
  workspaceId := js "workspace"
  limits := ⟨1, 1, 1, Nat.one_pos, Nat.one_pos, le_rfl⟩
  sha256 _ := []
  localeLe _ _ := true

/-- A server with that workspace. -/
def oneContext (access : Bool) : RequestContext :=
  ⟨.posix, [js "https://typr.ca"], js "0.1.3-dev", some oneStore, access⟩

/-- A server nobody uses, which requires keys or does not. -/
def idleServer (requireApiKeys : Bool) : ServerState :=
  ⟨{ emptyState with requireApiKeys }, 0, 0, none⟩

/-- A request without a body. -/
def bareRequest (method url : String) (headers : List (String × JSString)) : HttpRequest where
  method := some (js method)
  url := some (js url)
  headers name := (headers.find? fun entry => js entry.1 == name).map fun entry => .one entry.2
  remoteAddress := none
  chunks := []
  streamError := none

/-- `DELETE` of the file `a` -/
def deleteA (headers : List (String × JSString)) : Incoming :=
  .request (bareRequest "DELETE" "/api/v1/workspace/file?path=a"
    (("if-match", js "\"x\"") :: headers))

def deleteRuntime : Runtime :=
  tableRuntime [(js "/api/v1/workspace/file?path=a",
    localUrl TYPR_COMPANION_ROUTES.workspaceFile (js "?path=a") [(js "path", js "a")])] []

/-- Without a key the file stays, when keys are required. -/
theorem service_gate_noKey : (serve deleteRuntime (oneContext true)
    (deleteA [("x-typr-workspace-mutation", js "1")])).wp (ServerOp.Exec AccessStore.onePlatform)
      (fun _ op => op.IsPlain) (fun _ _ => True) (idleServer true) := by
  refine wp_mono ?_ (fun _ _ h => h)
    ((service_gate deleteRuntime AccessStore.onePlatform (oneContext true)
      (deleteA [("x-typr-workspace-mutation", js "1")]) (idleServer true)).1 rfl rfl)
  rintro s op (hplain | ⟨credential, hcarries, -⟩)
  · exact hplain
  · cases hcarries with
    | requestHeader h => exact absurd h nofun

def isDelete : ServerOp → Bool
  | .delete _ _ => true
  | _ => false

/-- A request on the file that reaches `delete`. -/
theorem performs_delete {headers : List (String × JSString)} {allowed : Prop}
    (hperforms : (((serve deleteRuntime (oneContext false) (deleteA headers)).trace
      (ServerOp.plain AccessStore.onePlatform) (idleServer false)).any fun e => isDelete e.2) = true)
    (h : (serve deleteRuntime (oneContext false) (deleteA headers)).wp (ServerOp.Exec AccessStore.onePlatform)
      (fun _ op => isDelete op = true → allowed) (fun _ _ => True) (idleServer false)) : allowed := by
  obtain ⟨e, he, hdelete⟩ := List.any_eq_true.mp hperforms
  exact wp_trace (ServerOp.exec_plain AccessStore.onePlatform) h e he hdelete

/-- An empty origin is as good as none, and the intent may be followed by a blank that is no white
space of HTTP. -/
theorem blank_headers_accepted :
    (¬ ∀ (runtime : Runtime) (p : AccessPlatform) (context : RequestContext) (incoming : Incoming)
      (s : ServerState), (serve runtime context incoming).wp (ServerOp.Exec p)
        (fun _ op => isDelete op = true → incoming.httpRequest.header "origin" = none ∨
          ∃ origin ∈ context.allowedOrigins,
            incoming.httpRequest.header "origin" = some (.one origin)) (fun _ _ => True) s) ∧
    ¬ ∀ (runtime : Runtime) (p : AccessPlatform) (context : RequestContext) (incoming : Incoming)
      (s : ServerState), (serve runtime context incoming).wp (ServerOp.Exec p)
        (fun _ op => isDelete op = true →
          incoming.httpRequest.header "x-typr-workspace-mutation" = some (.one (js "1")))
        (fun _ _ => True) s := by
  constructor
  · intro h
    have horigin := performs_delete (by decide +kernel) (h deleteRuntime AccessStore.onePlatform (oneContext false)
      (deleteA [("x-typr-workspace-mutation", js "1"), ("origin", [])]) (idleServer false))
    rcases horigin with hnone | ⟨origin, hmem, hsome⟩
    · exact absurd hnone (by decide)
    · have : origin = js "https://typr.ca" := List.mem_singleton.mp hmem
      exact absurd (this ▸ hsome) (by decide)
  · intro h
    have hheader := performs_delete (by decide +kernel) (h deleteRuntime AccessStore.onePlatform (oneContext false)
      (deleteA [("x-typr-workspace-mutation", js "1\u00a0")]) (idleServer false))
    exact absurd hheader (by decide)

end Typr
