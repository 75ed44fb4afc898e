import TyprCompanion.Compile.CompileRequest
import TyprCompanion.Management.ApiKeys
import TyprCompanion.Server.Http
import TyprCompanion.Workspace.Store

/-!
# The service server

The request listener and the upgrade handler of `createTyprServer` (`server.ts`).

* `ServerOp` — what a request can make the server do; `ServerOp.Exec` — what it does, while other
  requests go on.
* `handleRequest`, `handleWorkspaceRequest`, `handleUpgrade` — the dispatch over method, route,
  origin and headers.
* `listener`, `onUpgrade` — the two entry points, with their handlers of exceptions.
-/

namespace Typr

open Core

/-! ## Data -/

def MAX_REQUEST_BYTES : Nat := 25 * 1024 * 1024

def WORKSPACE_WRITE_BODY_OVERHEAD_BYTES : Nat := 64 * 1024

def MAX_ACTIVE_COMPILATIONS : Nat := 2

def MAX_ACTIVE_LIVE_SESSIONS : Nat := 2

/-- `IMPLEMENTED_ENGINES` -/
def IMPLEMENTED_ENGINES : List JSString := [js "pdflatex"]

def TYPR_COMPANION_PROTOCOL_VERSION : Int := 1

def TYPR_WORKSPACE_MUTATION_HEADER : JSString := js "X-Typr-Workspace-Mutation"

/-- `TEXPRESSO_WS_ROUTE` -/
def TEXPRESSO_WS_ROUTE : JSString := js "/ws/texpresso"

namespace TYPR_COMPANION_ROUTES

def status : JSString := js "/api/v1/status"

def compile : JSString := js "/api/v1/compile"

def workspaceFiles : JSString := js "/api/v1/workspace/files"

def workspaceFile : JSString := js "/api/v1/workspace/file"

end TYPR_COMPANION_ROUTES

/-- What an exception carries. -/
inductive ServerFailure where
  | workspace (e : WorkspaceError)
  /-- another `Error` -/
  | error (message : JSString)
  /-- a value that is no `Error` -/
  | other
  deriving DecidableEq

structure CompanionStatusResponse where
  protocolVersion : Int
  serverVersion : JSString
  engines : List JSString
  /-- the identifier and the limits of the workspace, when there is one -/
  workspace : Option (JSString × WorkspaceLimits)

/-- The outcome of a compilation; files by path and content. -/
inductive CompileResult where
  | success (engine : JSString) (output : JSString × JSString) (synctex : Option (JSString × JSString))
      (log : JSString)
  | failure (engine code message log : JSString) (path : Option JSString) (line : Option Nat)

/-- What a response carries. -/
inductive ResponseBody where
  | error (code message : JSString)
  | empty
  /-- the line of a refused upgrade -/
  | text (message : JSString)
  | status (status : CompanionStatusResponse)
  | files (workspaceId : JSString) (files : List WorkspaceFileMetadata)
  | file (file : WorkspaceFileResponse)
  | metadata (metadata : WorkspaceFileMetadata)
  | compileResult (result : CompileResult)

/-- The configuration of a server. -/
structure RequestContext where
  platform : Platform
  allowedOrigins : List JSString
  serverVersion : JSString
  workspace : Option WorkspaceStore
  /-- whether there is an access store -/
  access : Bool

/-! ## Operations -/

/-- What a request makes the server do. -/
inductive ServerOp where
  | authorize (authorization : Option JSString)
  | isPdflatexAvailable
  /-- wait for the body -/
  | receive
  | list
  | read (path : JSString)
  | write (path : JSString) (content : Bytes) (precondition : WorkspaceWritePrecondition)
  | delete (path expectedEtag : JSString)
  /-- `context.activeCompilations.size` -/
  | activeCompilations
  /-- run the native compiler, counted among the active compilations -/
  | compile (request : CompileRequest)
  /-- `context.activeLiveSessions.size` -/
  | activeLiveSessions
  /-- `webSocketServer.handleUpgrade`, which refuses a malformed handshake by itself -/
  | acceptWebSocket
  | openLiveSession
  | setHeader (name value : JSString)
  | send (status : Nat) (body : ResponseBody)
  | rejectUpgrade (status : Nat) (message : JSString)

abbrev ServerOp.Reply : ServerOp → Type
  | .authorize _ => Except ServerFailure AuthorizationResult
  | .isPdflatexAvailable => Except ServerFailure Bool
  | .receive => Unit
  | .list => Except ServerFailure (JSString × List WorkspaceFileMetadata)
  | .read _ => Except ServerFailure WorkspaceFileResponse
  | .write _ _ _ => Except ServerFailure WorkspaceFileMetadata
  | .delete _ _ => Except ServerFailure Unit
  | .activeCompilations => Nat
  | .compile _ => Except ServerFailure CompileResult
  | .activeLiveSessions => Nat
  | .acceptWebSocket => Bool
  | .openLiveSession => Unit
  | .setHeader _ _ => Except ServerFailure Unit
  | .send _ _ => Except ServerFailure Unit
  | .rejectUpgrade _ _ => Unit

abbrev ServerProg (α : Type) := Prog ServerOp ServerOp.Reply ServerFailure α

/-- What the operations of a request see: the access store, the work of all requests, and the own
response. -/
structure ServerState where
  access : AccessState
  activeCompilations : Nat
  activeLiveSessions : Nat
  response : Option (Nat × ResponseBody)

/-- While a request waits, others may change everything but its response. -/
def ServerState.Meanwhile (s t : ServerState) : Prop := t.response = s.response

/-- How a call of `authorize` settles: when it has to `persist`, that may fail. -/
def AccessOutcome.Settles (reply : Except ServerFailure AuthorizationResult) : AccessOutcome → Prop
  | .returns (.authorization result) => reply = .ok result
  | .persists _ (.authorize principal) =>
      reply = .ok (.ok (some principal)) ∨ ∃ e, reply = .error e
  | _ => False

/-- The outcomes of an operation.  Headers cannot be set, nor a response sent, after a response. -/
def ServerOp.Exec (p : AccessPlatform) :
    (op : ServerOp) → ServerState → op.Reply → ServerState → Prop
  | .authorize authorization, s, reply, t =>
      s.Meanwhile t ∧ ∃ now, (p.authorize authorization now s.access).Settles reply
  | .isPdflatexAvailable, s, _, t => s.Meanwhile t
  | .receive, s, _, t => s.Meanwhile t
  | .list, s, _, t => s.Meanwhile t
  | .read _, s, _, t => s.Meanwhile t
  | .write _ _ _, s, _, t => s.Meanwhile t
  | .delete _ _, s, _, t => s.Meanwhile t
  | .activeCompilations, s, reply, t => reply = s.activeCompilations ∧ t = s
  | .compile _, s, _, t => s.Meanwhile t
  | .activeLiveSessions, s, reply, t => reply = s.activeLiveSessions ∧ t = s
  | .acceptWebSocket, s, reply, t =>
      t = s ∨ reply = false ∧ t = { s with response := some (400, .empty) }
  | .openLiveSession, s, _, t =>
      t = { s with activeLiveSessions := s.activeLiveSessions + 1 }
  | .setHeader _ _, s, reply, t =>
      (if s.response.isSome = true then ∃ e, reply = .error e else reply = .ok ()) ∧ t = s
  | .send status body, s, reply, t =>
      if s.response.isSome = true then (∃ e, reply = .error e) ∧ t = s
      else reply = .ok () ∧ t = { s with response := some (status, body) }
  | .rejectUpgrade status message, s, _, t =>
      t = { s with response := some (status, .text message) }

/-- The outcome of `authorize` when its `persist` succeeds. -/
def AccessOutcome.settle : AccessOutcome → Except ServerFailure AuthorizationResult
  | .returns (.authorization result) => .ok result
  | .persists _ (.authorize principal) => .ok (.ok (some principal))
  | _ => .error .other

/-- One outcome of each operation, on a host with a compiler where nothing else happens. -/
def ServerOp.plain (p : AccessPlatform) : (op : ServerOp) → ServerState → op.Reply × ServerState
  | .authorize authorization, s => ((p.authorize authorization 0 s.access).settle, s)
  | .isPdflatexAvailable, s => (.ok true, s)
  | .receive, s => ((), s)
  | .list, s => (.ok ([], []), s)
  | .read _, s => (.error .other, s)
  | .write _ _ _, s => (.error .other, s)
  | .delete _ _, s => (.ok (), s)
  | .activeCompilations, s => (s.activeCompilations, s)
  | .compile request, s => (.ok (.failure request.engine [] [] [] none none), s)
  | .activeLiveSessions, s => (s.activeLiveSessions, s)
  | .acceptWebSocket, s => (true, s)
  | .openLiveSession, s => ((), { s with activeLiveSessions := s.activeLiveSessions + 1 })
  | .setHeader _ _, s => (if s.response.isSome = true then .error .other else .ok (), s)
  | .send status body, s =>
      if s.response.isSome = true then (.error .other, s)
      else (.ok (), { s with response := some (status, body) })
  | .rejectUpgrade status message, s => ((), { s with response := some (status, .text message) })

/-- `authorize` answers at once or waits for `persist`. -/
theorem authorize_settles (p : AccessPlatform) (authorization : Option JSString) (now : Nat)
    (state : AccessState) : (p.authorize authorization now state).Settles
      (p.authorize authorization now state).settle := by
  unfold AccessPlatform.authorize
  split
  · split <;> exact rfl
  · split <;> exact rfl
  · split
    · exact rfl
    · unfold AccessPlatform.authorizeKey
      split
      · exact rfl
      · dsimp only
        split
        · exact rfl
        · split
          · exact rfl
          · split
            · exact .inl rfl
            · exact rfl

theorem ServerOp.exec_plain (p : AccessPlatform) (op : ServerOp) (s : ServerState) :
    op.Exec p s (op.plain p s).1 (op.plain p s).2 := by
  cases op with
  | authorize authorization => exact ⟨rfl, 0, authorize_settles p authorization 0 s.access⟩
  | activeCompilations => exact ⟨rfl, rfl⟩
  | activeLiveSessions => exact ⟨rfl, rfl⟩
  | acceptWebSocket => exact .inl rfl
  | setHeader name value =>
      refine ⟨?_, rfl⟩
      split
      next h => exact ⟨.other, if_pos h⟩
      next h => exact if_neg h
  | send status body =>
      cases hresponse : s.response.isSome <;> simp [ServerOp.plain, ServerOp.Exec, hresponse]
  | _ => exact rfl

/-- Perform an operation that may throw. -/
def setHeader (name value : JSString) : ServerProg Unit := .perform (.setHeader name value) .ofExcept

/-- `sendJson` -/
def sendJson (status : Nat) (body : ResponseBody) : ServerProg Unit :=
  .perform (.send status body) .ofExcept

def sendError (status : Nat) (code message : JSString) : ServerProg Unit :=
  sendJson status (.error code message)

/-- `sendClientError` -/
def sendClientError (status : Nat) (message : JSString) : ServerProg Unit :=
  sendError status (js "invalid-request") message

def rejectUpgrade (status : Nat) (message : JSString) : ServerProg Unit :=
  .perform (.rejectUpgrade status message) .pure

/-- Throw a `WorkspaceError`. -/
def throwWorkspace (status : Nat) (code message : String)
    (h : 400 ≤ status ∧ status < 500 := by decide) {α : Type} : ServerProg α :=
  throw (.workspace ⟨status, js code, js message, h⟩)

/-- 413 is the status of a refusal. -/
theorem tooLarge_client : 400 ≤ 413 ∧ 413 < 500 := by decide

/-! ## Origins -/

structure CorsRoutePolicy where
  methods : List JSString
  headersByMethod : List (JSString × List JSString)

/-- `getCorsRoutePolicy` -/
def getCorsRoutePolicy (pathname : JSString) : Option CorsRoutePolicy :=
  if pathname = TYPR_COMPANION_ROUTES.status then
    some ⟨[js "GET"], [(js "GET", [js "Authorization"])]⟩
  else if pathname = TYPR_COMPANION_ROUTES.compile then
    some ⟨[js "POST"], [(js "POST", [js "Content-Type", js "Authorization"])]⟩
  else if pathname = TYPR_COMPANION_ROUTES.workspaceFiles then
    some ⟨[js "GET"], [(js "GET", [js "Authorization"])]⟩
  else if pathname = TYPR_COMPANION_ROUTES.workspaceFile then
    some ⟨[js "GET", js "PUT", js "DELETE"],
      [(js "GET", [js "Authorization"]),
        (js "PUT", [js "Content-Type", js "Authorization", js "If-Match", js "If-None-Match",
          TYPR_WORKSPACE_MUTATION_HEADER]),
        (js "DELETE", [js "Authorization", js "If-Match", TYPR_WORKSPACE_MUTATION_HEADER])]⟩
  else none

/-- `isWorkspaceRoute` -/
def isWorkspaceRoute (pathname : JSString) : Bool :=
  pathname == TYPR_COMPANION_ROUTES.workspaceFiles || pathname == TYPR_COMPANION_ROUTES.workspaceFile

/-- `origin && !allowedOrigins.has(origin)`: an empty header counts as none. -/
def isForeignOrigin (allowedOrigins : List JSString) : Option HeaderValue → Bool
  | none => false
  | some (.one origin) => !origin.isEmpty && !allowedOrigins.contains origin
  | some (.many _) => true

/-- `values.join(", ")` -/
def joinWithBlank (values : List JSString) : JSString := (values.intersperse (js ", ")).flatten

/-- The headers `applyCorsHeaders` sets. -/
def corsHeaders (request : HttpRequest) (allowedOrigins : List JSString) (pathname : JSString) :
    List (JSString × JSString) :=
  match request.header "origin", getCorsRoutePolicy pathname with
  | some (.one origin), some policy =>
      if origin.isEmpty = false ∧ allowedOrigins.contains origin = true then
        let allowedHeaders := (policy.headersByMethod.flatMap Prod.snd).eraseDups
        let privateNetwork := request.header "access-control-request-private-network"
        [(js "Access-Control-Allow-Origin", origin),
          (js "Access-Control-Allow-Methods", joinWithBlank policy.methods ++ js ", OPTIONS")] ++
        (if allowedHeaders = [] then []
          else [(js "Access-Control-Allow-Headers", joinWithBlank allowedHeaders)]) ++
        [(js "Access-Control-Expose-Headers", js "ETag")] ++
        (if privateNetwork = some (.one (js "true")) then
          [(js "Access-Control-Allow-Private-Network", js "true")] else []) ++
        [(js "Vary", js "Origin, Access-Control-Request-Private-Network")]
      else []
  | _, _ => []

def setHeaders : List (JSString × JSString) → ServerProg Unit
  | [] => pure ()
  | (name, value) :: rest => do
      setHeader name value
      setHeaders rest

/-- `applyCorsHeaders` -/
def applyCorsHeaders (request : HttpRequest) (allowedOrigins : List JSString) (pathname : JSString) :
    ServerProg Unit :=
  setHeaders (corsHeaders request allowedOrigins pathname)

/-- The refusal of a preflight. -/
structure PreflightRefusal where
  status : Nat
  code : JSString
  message : JSString

/-- `validateCorsPreflight` -/
def validateCorsPreflight (request : HttpRequest) (pathname : JSString)
    (allowedOrigins : List JSString) : Except PreflightRefusal Unit := do
  if (singleHeader (request.header "origin")).any allowedOrigins.contains = false then
    throw ⟨403, js "cors-origin-forbidden", js "This browser origin is not allowed."⟩
  let some policy := getCorsRoutePolicy pathname
    | throw ⟨404, js "route-not-found", js "No Companion API route exists at this path."⟩
  let methodForbidden : PreflightRefusal := ⟨405, js "cors-method-forbidden",
    js "The requested CORS method is not supported by this route."⟩
  let some requested := singleHeader (request.header "access-control-request-method")
    | throw methodForbidden
  let requestedMethod := requested.toUpperCase
  if policy.methods.contains requestedMethod = false then throw methodForbidden
  let allowedHeaders := ((policy.headersByMethod.find? fun entry => entry.1 == requestedMethod).elim []
    Prod.snd).map JSString.toLowerCase
  match request.header "access-control-request-headers" with
  | some (.many _) =>
      throw ⟨400, js "cors-header-forbidden", js "The requested CORS headers are malformed."⟩
  | some (.one (u :: rest)) =>
      let requestedHeaders := (JSString.split (unit ',') (u :: rest)).map fun header =>
        (JSString.trim header).toLowerCase
      if requestedHeaders.any (fun header => header.isEmpty || !allowedHeaders.contains header) then
        throw ⟨400, js "cors-header-forbidden",
          js "The requested CORS headers are not supported by this route."⟩
  | _ => pure ()

/-! ## Bodies -/

/-- The outcome of `readJsonBody`. -/
inductive BodyResult where
  | value (value : Json)
  | tooLarge
  | invalidJson

/-- `readJsonBody`, once the body has arrived -/
def HttpRequest.jsonBody (runtime : Runtime) (request : HttpRequest) (maxBytes : Nat) :
    Except ServerFailure BodyResult :=
  let declaredLength := decimal? (headerText (request.header "content-length"))
  if declaredLength.any (fun length => decide (maxBytes < length)) = true then .ok .tooLarge
  else match request.collect maxBytes with
    | .error message => .error (.error message)
    | .ok none => .ok .tooLarge
    | .ok (some body) => match runtime.parseJson (JSString.decodeUtf8 body) with
      | none => .ok .invalidJson
      | some value => .ok (.value value)

/-- `readJsonBody` -/
def readJsonBody (runtime : Runtime) (request : HttpRequest) (maxBytes : Nat) :
    ServerProg BodyResult :=
  .perform .receive fun _ => .ofExcept (request.jsonBody runtime maxBytes)

/-- The content of a body `isWorkspaceWriteRequest` accepts. -/
def workspaceWriteContent (value : Json) : Option JSString := do
  let fields ← value.record?
  let content ← (Json.field fields (js "content")).bind Json.string?
  if (Json.field fields (js "encoding")).bind Json.string? = some (js "base64") ∧
      isBase64 content = true then some content
  else none

/-! ## The workspace routes -/

/-- `requireWorkspaceMutationHeader` -/
def requireWorkspaceMutationHeader (request : HttpRequest) : ServerProg Unit :=
  if singleHeader (request.headers TYPR_WORKSPACE_MUTATION_HEADER.toLowerCase) = some (js "1") then
    pure ()
  else throwWorkspace 400 "workspace-mutation-header-required"
    "X-Typr-Workspace-Mutation: 1 is required for workspace mutations."

/-- `PUT` on the file route -/
def putFile (runtime : Runtime) (request : HttpRequest) (store : WorkspaceStore) (path : JSString) :
    ServerProg Unit := do
  requireWorkspaceMutationHeader request
  let contentType := (headerText (request.header "content-type")).toLowerCase
  if contentType.startsWith (js "application/json") = true then
    let ifNoneMatch := singleHeader (request.header "if-none-match")
    let ifMatch := singleHeader (request.header "if-match")
    if ifNoneMatch.isSome = ifMatch.isSome then
      throwWorkspace 428 "workspace-precondition-required"
        "Use If-None-Match: * to create or If-Match with the current ETag to update."
    else if ifNoneMatch.isSome = true ∧ ifNoneMatch ≠ some (js "*") then
      throwWorkspace 400 "invalid-workspace-precondition"
        "Workspace create requires If-None-Match: *."
    else if ifMatch.any (fun etag => !isStrongEtag etag) = true then
      throwWorkspace 400 "invalid-workspace-precondition"
        "Workspace update requires one quoted strong ETag."
    else do
      let maxBytes := (store.limits.maxFileBytes + 2) / 3 * 4 + WORKSPACE_WRITE_BODY_OVERHEAD_BYTES
      match ← readJsonBody runtime request maxBytes with
      | .tooLarge =>
          throwWorkspace 413 "invalid-workspace-request" "Request body is too large." tooLarge_client
      | .invalidJson =>
          throwWorkspace 400 "invalid-workspace-request" "Request body must contain valid JSON."
      | .value value => match workspaceWriteContent value with
        | none =>
            throwWorkspace 400 "invalid-workspace-request"
              "Workspace write body must contain valid base64 content."
        | some content => do
            let precondition := ifMatch.elim .create .update
            let metadata ← .perform (.write path (fromBase64 content) precondition) .ofExcept
            setHeader (js "ETag") metadata.etag
            sendJson (if ifNoneMatch.isSome = true then 201 else 200) (.metadata metadata)
  else throwWorkspace 415 "workspace-content-type" "Workspace writes require application/json."

/-- `DELETE` on the file route -/
def deleteFile (request : HttpRequest) (path : JSString) : ServerProg Unit := do
  requireWorkspaceMutationHeader request
  match singleHeader (request.header "if-match") with
  | none =>
      throwWorkspace 428 "workspace-precondition-required"
        "Workspace deletion requires If-Match with the current ETag."
  | some ifMatch =>
      if isStrongEtag ifMatch = true then do
        let _ ← Prog.perform (.delete path ifMatch) .ofExcept
        sendJson 204 .empty
      else
        throwWorkspace 400 "invalid-workspace-precondition"
          "Workspace deletion requires one quoted strong ETag."

/-- `GET` on the file route -/
def getFile (path : JSString) : ServerProg Unit := do
  let file ← .perform (.read path) .ofExcept
  setHeader (js "ETag") file.etag
  sendJson 200 (.file file)

/-- The file route. -/
def fileRoute (runtime : Runtime) (request : HttpRequest) (store : WorkspaceStore) (url : Url) :
    ServerProg Unit :=
  match url.getAll (js "path") with
  | [path] =>
      if request.method = some (js "GET") then getFile path
      else if request.method = some (js "PUT") then putFile runtime request store path
      else if request.method = some (js "DELETE") then deleteFile request path
      else do
        setHeader (js "Allow") (js "GET, PUT, DELETE, OPTIONS")
        sendError 405 (js "method-not-allowed") (js "Unsupported workspace file method.")
  | _ => throwWorkspace 400 "invalid-workspace-path"
      "Exactly one workspace path query parameter is required."

/-- The listing route. -/
def filesRoute (request : HttpRequest) : ServerProg Unit :=
  if request.method = some (js "GET") then do
    let (workspaceId, files) ← .perform .list .ofExcept
    sendJson 200 (.files workspaceId files)
  else do
    setHeader (js "Allow") (js "GET, OPTIONS")
    sendError 405 (js "method-not-allowed") (js "Workspace listing only supports GET.")

/-- `handleWorkspaceRequest` -/
def handleWorkspaceRequest (runtime : Runtime) (request : HttpRequest) (url : Url)
    (workspace : Option WorkspaceStore) : ServerProg Unit :=
  match workspace with
  | none => sendError 404 (js "workspace-disabled") (js "No mapped workspace is configured.")
  | some store =>
      if url.pathname = TYPR_COMPANION_ROUTES.workspaceFiles then filesRoute request
      else fileRoute runtime request store url

/-! ## The other routes -/

/-- `compileProject`: without a native compiler the result says so. -/
def compileProject (request : CompileRequest) : ServerProg CompileResult := do
  if ← .perform .isPdflatexAvailable .ofExcept then .perform (.compile request) .ofExcept
  else
    return .failure request.engine (js "native-compiler-unavailable")
      (js "pdflatex is not available on this host. Install a native TeX distribution and try again.")
      [] none none

/-- The text of `protocolVersion` in a message. -/
def protocolVersionText (value : Json) : JSString :=
  (value.record?.bind fun fields => Json.field fields (js "protocolVersion")).elim [] Json.text

/-- `POST` on the compile route, for a body that is JSON -/
def compileBody (context : RequestContext) (value : Json) : ServerProg Unit :=
  match validateCompileRequest context.platform value with
  | .error message => sendClientError 400 message
  | .ok request =>
      if request.protocolVersion ≠ TYPR_COMPANION_PROTOCOL_VERSION then
        sendError 400 (js "unsupported-protocol-version") (js "Unsupported protocolVersion " ++
          protocolVersionText value ++ js "; expected 1.")
      else if request.engine ≠ js "pdflatex" then
        sendError 422 (js "unsupported-engine")
          (js "Unsupported compile engine: " ++ request.engine ++ js ".")
      else do
        let active ← .perform .activeCompilations .pure
        if MAX_ACTIVE_COMPILATIONS ≤ active then
          sendError 429 (js "server-busy")
            (js "Companion is already running its maximum number of native compilations.")
        else do
          let result ← compileProject request
          sendJson 200 (.compileResult result)

/-- `POST` on the compile route -/
def compileRoute (runtime : Runtime) (context : RequestContext) (request : HttpRequest) :
    ServerProg Unit := do
  match ← readJsonBody runtime request MAX_REQUEST_BYTES with
  | .tooLarge => sendClientError 413 (js "Request body is too large.")
  | .invalidJson => sendClientError 400 (js "Request body must contain valid JSON.")
  | .value value => compileBody context value

/-- `GET` on the status route -/
def statusRoute (context : RequestContext) : ServerProg Unit := do
  let available ← .perform .isPdflatexAvailable .ofExcept
  sendJson 200 (.status ⟨TYPR_COMPANION_PROTOCOL_VERSION, context.serverVersion,
    if available = true then IMPLEMENTED_ENGINES else [],
    context.workspace.map fun store => (store.workspaceId, store.limits)⟩)

/-- `OPTIONS` -/
def preflight (context : RequestContext) (request : HttpRequest) (url : Url) : ServerProg Unit :=
  if isWorkspaceRoute url.pathname = true ∧ context.workspace.isNone = true then
    sendError 404 (js "workspace-disabled") (js "No mapped workspace is configured.")
  else match validateCorsPreflight request url.pathname context.allowedOrigins with
    | .error refusal => sendError refusal.status refusal.code refusal.message
    | .ok _ => sendJson 204 .empty

/-! ## The listeners -/

/-- The text handed to `authorize`. -/
def requestAuthorization (request : HttpRequest) : Option JSString :=
  match request.header "authorization" with
  | none => none
  | some (.one value) => some value
  | some (.many _) => some (js "invalid-authorization-header")

/-- Whether a request with this authorization may go on; if not, it is refused. -/
def checkAccess (context : RequestContext) (authorization : Option JSString)
    (refuse : JSString → ServerProg Unit) : ServerProg Bool :=
  if context.access = true then do
    match ← .perform (.authorize authorization) .ofExcept with
    | .ok _ => return true
    | .failed message => do
        refuse message
        return false
  else return true

/-- The authorization of a request. -/
def authenticate (context : RequestContext) (request : HttpRequest) : ServerProg Bool :=
  checkAccess context (requestAuthorization request) fun message => do
    setHeader (js "WWW-Authenticate") (js "Bearer realm=\"Typr Companion\"")
    sendError 401 (js "api-key-required") message

/-- The routes, for a request that is no preflight. -/
def dispatch (runtime : Runtime) (context : RequestContext) (request : HttpRequest) (url : Url) :
    ServerProg Unit :=
  if request.method = some (js "GET") ∧ url.pathname = TYPR_COMPANION_ROUTES.status then
    statusRoute context
  else if isWorkspaceRoute url.pathname = true then
    handleWorkspaceRequest runtime request url context.workspace
  else if request.method = some (js "POST") ∧ url.pathname = TYPR_COMPANION_ROUTES.compile then
    compileRoute runtime context request
  else sendError 404 (js "not-found") (js "No Companion route matches this request.")

/-- `new URL(request.url ?? "/", "http://127.0.0.1")`, which may throw -/
def requestUrl (runtime : Runtime) (request : HttpRequest) : ServerProg Url :=
  match request.target? runtime with
  | none => throw (.error (js "Invalid URL"))
  | some url => pure url

/-- `handleRequest` -/
def handleRequest (runtime : Runtime) (context : RequestContext) (request : HttpRequest) :
    ServerProg Unit := do
  let url ← requestUrl runtime request
  applyCorsHeaders request context.allowedOrigins url.pathname
  if isWorkspaceRoute url.pathname = true ∧
      isForeignOrigin context.allowedOrigins (request.header "origin") = true then
    sendError 403 (js "workspace-origin-forbidden")
      (js "This browser origin may not access the mapped workspace.")
  else if request.method = some (js "OPTIONS") then preflight context request url
  else if ← authenticate context request then dispatch runtime context request url
  else pure ()

/-- The response to an exception. -/
def answerFailure : ServerFailure → ServerProg Unit
  | .workspace e => sendError e.status e.code e.message
  | .error message => sendError 500 (js "internal-server-error") message
  | .other => sendError 500 (js "internal-server-error") (js "Unexpected server error.")

/-- The request listener.  The trace of the request parses its target before the `try`. -/
def listener (runtime : Runtime) (context : RequestContext) (request : HttpRequest) :
    ServerProg Unit := do
  let _ ← requestUrl runtime request
  (handleRequest runtime context request).tryCatch answerFailure

/-- `webSocketAuthorization` -/
def webSocketAuthorization (request : HttpRequest) : Option JSString :=
  match stringHeader (request.header "authorization") with
  | some authorization => some authorization
  | none => match stringHeader (request.header "sec-websocket-protocol") with
    | none => none
    | some protocols =>
        let protocol := ((JSString.split (unit ',') protocols).map JSString.trim).find?
          fun protocol => protocol.startsWith (js "typr-api-key.")
        match protocol.map fun protocol => protocol.drop (js "typr-api-key.").length with
        | none | some [] => none
        | some encoded => some (js "Bearer " ++ JSString.decodeUtf8 (fromBase64 encoded))

/-- The authorization of an upgrade. -/
def authenticateUpgrade (context : RequestContext) (request : HttpRequest) : ServerProg Bool :=
  checkAccess context (webSocketAuthorization request) (rejectUpgrade 401)

/-- `handleUpgrade`, once the upgrade is authorized -/
def admitUpgrade (context : RequestContext) (request : HttpRequest) : ServerProg Unit :=
  if isForeignOrigin context.allowedOrigins (request.header "origin") = true then
    rejectUpgrade 403 (js "WebSocket origin is not allowed.")
  else do
    let active ← .perform .activeLiveSessions .pure
    if MAX_ACTIVE_LIVE_SESSIONS ≤ active then
      rejectUpgrade 429
        (js "Companion is already running its maximum number of live compiler sessions.")
    else if ← .perform .acceptWebSocket .pure then .perform .openLiveSession .pure
    else pure ()

/-- `handleUpgrade` -/
def handleUpgrade (runtime : Runtime) (context : RequestContext) (request : HttpRequest) :
    ServerProg Unit := do
  let url ← requestUrl runtime request
  if url.pathname ≠ TEXPRESSO_WS_ROUTE then
    rejectUpgrade 404 (js "No experimental WebSocket route matches this request.")
  else if ← authenticateUpgrade context request then admitUpgrade context request
  else pure ()

/-- The listener of upgrades. -/
def onUpgrade (runtime : Runtime) (context : RequestContext) (request : HttpRequest) :
    ServerProg Unit :=
  (handleUpgrade runtime context request).tryCatch fun e => rejectUpgrade 500 (match e with
    | .workspace e => e.message
    | .error message => message
    | .other => js "WebSocket setup failed.")

/-- What a client sends to the server. -/
inductive Incoming where
  | request (request : HttpRequest)
  | upgrade (request : HttpRequest)

def Incoming.httpRequest : Incoming → HttpRequest
  | .request message => message
  | .upgrade message => message

/-- What the server does about it. -/
def serve (runtime : Runtime) (context : RequestContext) : Incoming → ServerProg Unit
  | .request request => listener runtime context request
  | .upgrade request => onUpgrade runtime context request

end Typr
