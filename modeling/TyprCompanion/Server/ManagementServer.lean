import TyprCompanion.Management.AccessStore
import TyprCompanion.Management.Authenticator
import TyprCompanion.Management.ProviderManager
import TyprCompanion.Server.Http

/-!
# The management server

`createManagementServer` and its request listener (`managementServer.ts`).

* `ManagementServerOptions`, `createManagementServer` — the configurations, and those it refuses.
* `ManagementOp` — what a request can make the server do; `ManagementOp.Effect` — what that does to
  the authenticator.
* `handleManagementRequest`, `listener` — the dispatch over method and route.
-/

namespace Typr

open Core

/-- `MAX_MANAGEMENT_BODY_BYTES` -/
def MAX_MANAGEMENT_BODY_BYTES : Nat := 64 * 1024

/-- `MANAGEMENT_HEADER` -/
def MANAGEMENT_HEADER : String := "x-typr-management"

/-- `CSRF_HEADER` -/
def CSRF_HEADER : String := "x-typr-csrf"

structure ManagementServerOptions where
  /-- whether there is a provider manager -/
  providers : Bool
  servicePort : Nat
  /-- the port `server.address()` tells -/
  managementPort : Option Nat
  allowRemote : Bool
  authenticator : Option ManagementAuthenticator
  publicOrigin : Option JSString

/-- A server, with its normalized public origin. -/
structure ManagementServer extends ManagementServerOptions where
  origin : Option JSString

namespace Management

/-- `normalizePublicOrigin` -/
def normalizePublicOrigin (runtime : Runtime) (value : JSString) : Except JSString JSString :=
  let notExact := js "TYPR_COMPANION_MANAGEMENT_PUBLIC_ORIGIN must be an exact HTTPS origin."
  match runtime.parseUrl value none with
  | none => .error notExact
  | some url =>
      if url.protocol = js "https:" ∧ url.username = [] ∧ url.password = [] ∧
          url.pathname = js "/" ∧ url.search = [] ∧ url.hash = [] then .ok url.origin
      else .error notExact

/-- `options.publicOrigin ? normalizePublicOrigin(options.publicOrigin) : undefined` -/
def publicOriginOf (runtime : Runtime) : Option JSString → Except JSString (Option JSString)
  | none | some [] => .ok none
  | some value => (normalizePublicOrigin runtime value).map some

/-- `createManagementServer` -/
def createManagementServer (runtime : Runtime) (options : ManagementServerOptions) :
    Except JSString ManagementServer :=
  if options.allowRemote = true ∧ options.authenticator.isNone = true then
    .error (js "Remote management requires configured administrator authentication.")
  else match publicOriginOf runtime options.publicOrigin with
    | .error e => .error e
    | .ok origin =>
        if origin.any (fun text => !text.isEmpty) = true ∧
            options.authenticator.any (fun a => a.secureCookies) = false then
          .error (js "Public management requires secure session cookies.")
        else .ok { options with origin }

/-! ## Operations -/

/-- What an exception carries. -/
inductive Failure where
  | access (e : AccessStoreError)
  | provider (e : ProviderManagerError)
  /-- another `Error` -/
  | error (message : JSString)
  /-- a value that is no `Error` -/
  | other

inductive Page where
  | login
  | console

/-- The snapshot of the console.  Services, providers and activity are as their owners report them. -/
structure ManagementSnapshot where
  servicePort : Nat
  managementPort : Option Nat
  session : Option ManagementSession
  publicOrigin : Option JSString
  providerManagement : Json
  services : Json
  access : AccessSnapshot
  activity : Json

/-- What a response carries. -/
inductive Body where
  | error (code message : JSString)
  | empty
  | ok
  | page (page : Page)
  | snapshot (snapshot : ManagementSnapshot)
  | update (result : Json)
  | job (job : Json)
  | providers (providerManagement : Json)
  | user (user : ManagedUser)
  | created (key : ManagedApiKey) (secret : JSString)
  | key (key : ManagedApiKey)
  | settings (requireApiKeys : Bool)

/-- What a request makes the server do. -/
inductive Op where
  | setHeader (name value : JSString)
  | send (status : Nat) (body : Body)
  | redirect (location : JSString)
  | openActivityStream
  /-- wait for the body -/
  | receive
  | session (cookie : Option JSString)
  | login (username password clientKey : JSString)
  | logout (cookie : Option JSString)
  | accessSnapshot
  | providersSnapshot
  | activitySnapshot
  | getServices (forceRefresh : Bool)
  /-- `activeTexPackageManager().updateAll` -/
  | updateAll
  | startInstall (providerId : JSString)
  | activateTexProvider (providerId : JSString)
  | createUser (name : JSString)
  | setUserDisabled (userId : JSString) (disabled : Bool)
  | createApiKey (userId label : JSString)
  | revokeApiKey (keyId : JSString)
  | setRequireApiKeys (requireApiKeys : Bool)

abbrev Op.Reply : Op → Type
  | .setHeader _ _ => Unit
  | .send _ _ => Unit
  | .redirect _ => Unit
  | .openActivityStream => Unit
  | .receive => Unit
  | .session _ => Option ManagementSession
  | .login _ _ _ => Except Failure ManagementLoginResult
  | .logout _ => JSString
  | .accessSnapshot => AccessSnapshot
  | .providersSnapshot => Json
  | .activitySnapshot => Json
  | .getServices _ => Except Failure Json
  | .updateAll => Except Failure (Bool × JSString × Json)
  | .startInstall _ => Except Failure Json
  | .activateTexProvider _ => Except Failure Unit
  | .createUser _ => Except Failure ManagedUser
  | .setUserDisabled _ _ => Except Failure ManagedUser
  | .createApiKey _ _ => Except Failure (ManagedApiKey × JSString)
  | .revokeApiKey _ => Except Failure ManagedApiKey
  | .setRequireApiKeys _ => Except Failure Unit

abbrev ServerProg (α : Type) := Prog Op Op.Reply Failure α

/-- What an operation itself does to the authenticator.  A login that waits for its derivation
finds it as others have left it. -/
def Op.Effect (a : ManagementAuthenticator) (auth auth' : AuthState) : Op → Prop
  | .session cookie => ∃ now, auth' = (a.session cookie now auth).2
  | .login _ _ _ =>
      auth' = auth ∨ ∃ call token csrfToken, auth' = (a.completeLogin call token csrfToken auth).2
  | .logout cookie => auth' = (a.logout cookie auth).2
  | _ => auth' = auth

/-- Operations that return in the step in which they are called. -/
def Op.isSync : Op → Bool
  | .setHeader _ _ | .send _ _ | .redirect _ | .openActivityStream | .session _ | .logout _
  | .accessSnapshot | .providersSnapshot | .activitySnapshot | .startInstall _ => true
  | _ => false

/-- The sessions and the clock. -/
structure State where
  auth : AuthState
  now : Nat

/-- The outcomes of an operation.  While a request waits, time goes on and others may change the
sessions. -/
def Op.Exec (authenticator : Option ManagementAuthenticator) (op : Op) (s : State)
    (reply : op.Reply) (t : State) : Prop :=
  s.now ≤ t.now ∧ match authenticator, op, reply with
    | some a, .session cookie, reply => (reply, t.auth) = a.session cookie s.now s.auth
    | some a, .logout cookie, reply => (reply, t.auth) = a.logout cookie s.auth
    | _, op, _ => op.isSync = true → t.auth = s.auth

/-! ## Requests -/

def setHeader (name value : JSString) : ServerProg Unit := .perform (.setHeader name value) .pure

/-- `sendJson` and `sendHtml` -/
def send (status : Nat) (body : Body) : ServerProg Unit := .perform (.send status body) .pure

def sendError (status : Nat) (code message : String) : ServerProg Unit :=
  send status (.error (js code) (js message))

/-- `redirect` -/
def redirect (location : JSString) : ServerProg Unit := .perform (.redirect location) .pure

/-- Throw an `AccessStoreError`. -/
def throwAccess {α : Type} (status : Nat) (code message : String) : ServerProg α :=
  throw (.access ⟨status, js code, js message⟩)

/-- `invalidBody` -/
def invalidBody {α : Type} (message : String) : ServerProg α :=
  throwAccess 400 "invalid-management-request" message

/-- `decodeURIComponent`, which may throw -/
def decodeComponent (runtime : Runtime) (text : JSString) : ServerProg JSString :=
  match runtime.decodeURIComponent text with
  | none => throw (.error (js "URI malformed"))
  | some text => pure text

/-- The group of a pattern `^…([^/]+)…$` -/
def matchSegment (before after : String) (pathname : JSString) : Option JSString :=
  let segment : JSString := (pathname.drop (js before).length).take
    (pathname.length - (js before).length - (js after).length)
  if js before ++ segment ++ js after = pathname ∧ segment ≠ [] ∧ JSString.includes segment (unit '/') = false
  then some segment else none

/-- `hasLoopbackHost` -/
def hasLoopbackHost (runtime : Runtime) (request : HttpRequest) : Bool :=
  match stringHeader (request.header "host") with
  | none | some [] => false
  | some host => (runtime.parseUrl (js "http://" ++ host) none).any fun url =>
      [js "127.0.0.1", js "localhost", js "[::1]"].contains url.hostname.toLowerCase

/-- `hasExpectedPublicHost` -/
def hasExpectedPublicHost (runtime : Runtime) (request : HttpRequest) (origin : JSString) :
    ServerProg Bool :=
  match runtime.parseUrl origin none with
  | none => throw (.error (js "Invalid URL"))
  | some url => pure ((stringHeader (request.header "host")).map JSString.toLowerCase
      == some url.host.toLowerCase)

/-- `requireSameOrigin` -/
def requireSameOrigin (runtime : Runtime) (request : HttpRequest) (publicOrigin : Option JSString) :
    ServerProg Unit :=
  let origin := stringHeader (request.header "origin")
  match publicOrigin with
  | some (u :: rest) =>
      if origin = some (u :: rest) then pure ()
      else throwAccess 403 "management-origin-forbidden"
        "Management login requires its configured public origin."
  | _ => match origin with
    | none | some [] => pure ()
    | some origin =>
        let hosts := ((runtime.parseUrl origin none).map fun url => url.host.toLowerCase,
          (stringHeader (request.header "host")).map JSString.toLowerCase)
        match hosts with
        | (some left, some (v :: right)) =>
            if left = v :: right then pure ()
            else throwAccess 403 "management-origin-forbidden"
              "Management login requires a same-origin request."
        | _ => throwAccess 403 "management-origin-forbidden"
            "Management login requires a same-origin request."

/-- `requireManagementIntent` -/
def requireManagementIntent (request : HttpRequest) (authenticator : Option ManagementAuthenticator)
    (session : Option ManagementSession) : ServerProg Unit :=
  if request.header MANAGEMENT_HEADER ≠ some (.one (js "1")) then
    throwAccess 400 "management-header-required"
      "X-Typr-Management: 1 is required for management mutations."
  else match authenticator with
    | none => pure ()
    | some a =>
        if session.any (fun session =>
            a.validCsrf session (stringHeader (request.header CSRF_HEADER))) = true then pure ()
        else throwAccess 403 "management-csrf-required" "A valid management CSRF token is required."

/-- `readManagementBody` -/
def readManagementBody (runtime : Runtime) (request : HttpRequest) : ServerProg Json :=
  let contentType := (headerText (request.header "content-type")).toLowerCase
  if contentType.startsWith (js "application/json") = true then
    .perform .receive fun _ => match request.collect MAX_MANAGEMENT_BODY_BYTES with
      | .error message => throw (.error message)
      | .ok none => throwAccess 413 "body-too-large" "Management request body is too large."
      | .ok (some body) => match runtime.parseJson (JSString.decodeUtf8 body) with
        | none => invalidBody "Management request body must contain valid JSON."
        | some value => pure value
  else throwAccess 415 "content-type-required" "Management mutations require application/json."

/-- A field of a body that is a record. -/
def bodyField (body : Json) (name : String) : Option Json :=
  body.record?.bind fun fields => Json.field fields (js name)

/-! ## The routes -/

/-- What the routes of a provider need. -/
def requireProviders (server : ManagementServer) : ServerProg Unit :=
  if server.providers = true then pure ()
  else throw (.provider ⟨409, js "provider-management-disabled", js "Provider management is disabled."⟩)

/-- `POST /api/services/refresh` -/
def refreshServices : ServerProg Unit := do
  let _ ← Prog.perform (.getServices true) .ofExcept
  send 200 .ok

/-- `POST /api/texlive/update` -/
def updateTexLive : ServerProg Unit := do
  let (updated, diagnostic, result) ← .perform .updateAll .ofExcept
  if updated = true then send 200 (.update result)
  else throw (.provider ⟨502, js "texlive-update-failed", diagnostic⟩)

/-- `POST /api/providers/:id/install` -/
def installProvider (runtime : Runtime) (server : ManagementServer) (segment : JSString) :
    ServerProg Unit := do
  requireProviders server
  let providerId ← decodeComponent runtime segment
  let job ← .perform (.startInstall providerId) .ofExcept
  send 202 (.job job)

/-- `PATCH /api/providers/:id` -/
def patchProvider (runtime : Runtime) (server : ManagementServer) (request : HttpRequest)
    (segment : JSString) : ServerProg Unit := do
  requireProviders server
  let body ← readManagementBody runtime request
  match (bodyField body "active").bind Json.bool? with
  | some true => do
      let providerId ← decodeComponent runtime segment
      let _ ← Prog.perform (.activateTexProvider providerId) .ofExcept
      let providers ← .perform .providersSnapshot .pure
      send 200 (.providers providers)
  | _ => invalidBody "Provider update must set active to true."

/-- `POST /api/users` -/
def postUser (runtime : Runtime) (request : HttpRequest) : ServerProg Unit := do
  let body ← readManagementBody runtime request
  match (bodyField body "name").bind Json.string? with
  | none => invalidBody "User body must contain a name."
  | some name => do
      let user ← .perform (.createUser name) .ofExcept
      send 201 (.user user)

/-- `PATCH /api/users/:id` -/
def patchUser (runtime : Runtime) (request : HttpRequest) (segment : JSString) :
    ServerProg Unit := do
  let body ← readManagementBody runtime request
  match (bodyField body "disabled").bind Json.bool? with
  | none => invalidBody "User update must contain disabled."
  | some disabled => do
      let userId ← decodeComponent runtime segment
      let user ← .perform (.setUserDisabled userId disabled) .ofExcept
      send 200 (.user user)

/-- `POST /api/users/:id/keys` -/
def postKey (runtime : Runtime) (request : HttpRequest) (segment : JSString) :
    ServerProg Unit := do
  let body ← readManagementBody runtime request
  match (bodyField body "label").bind Json.string? with
  | none => invalidBody "API key body must contain a label."
  | some label => do
      let userId ← decodeComponent runtime segment
      let (key, secret) ← .perform (.createApiKey userId label) .ofExcept
      send 201 (.created key secret)

/-- `DELETE /api/keys/:id` -/
def deleteKey (runtime : Runtime) (segment : JSString) : ServerProg Unit := do
  let keyId ← decodeComponent runtime segment
  let key ← .perform (.revokeApiKey keyId) .ofExcept
  send 200 (.key key)

/-- `PATCH /api/settings` -/
def patchSettings (runtime : Runtime) (request : HttpRequest) : ServerProg Unit := do
  let body ← readManagementBody runtime request
  match (bodyField body "requireApiKeys").bind Json.bool? with
  | none => invalidBody "Settings body must contain requireApiKeys."
  | some requireApiKeys => do
      let _ ← Prog.perform (.setRequireApiKeys requireApiKeys) .ofExcept
      send 200 (.settings requireApiKeys)

/-- `GET /api/snapshot` -/
def getSnapshot (server : ManagementServer) (session : Option ManagementSession) :
    ServerProg Unit := do
  let providerManagement ← .perform .providersSnapshot .pure
  let services ← .perform (.getServices false) .ofExcept
  let access ← .perform .accessSnapshot .pure
  let activity ← .perform .activitySnapshot .pure
  send 200 (.snapshot ⟨server.servicePort, server.managementPort, session, server.publicOrigin,
    providerManagement, services, access, activity⟩)

/-- `handleManagementRequest` after `requireManagementIntent`: the patterns of the routes overlap, and
the first that matches wins. -/
def handleMutation (runtime : Runtime) (server : ManagementServer) (request : HttpRequest)
    (pathname : JSString) : ServerProg Unit :=
  let isMethod := fun method : String => request.method == some (js method)
  let install := matchSegment "/api/providers/" "/install" pathname
  let provider := matchSegment "/api/providers/" "" pathname
  let user := matchSegment "/api/users/" "" pathname
  let keyCreate := matchSegment "/api/users/" "/keys" pathname
  let key := matchSegment "/api/keys/" "" pathname
  if (isMethod "POST" && pathname == js "/api/services/refresh") = true then refreshServices
  else if (isMethod "POST" && pathname == js "/api/texlive/update") = true then updateTexLive
  else if (isMethod "POST" && install.isSome) = true then
    installProvider runtime server (install.getD [])
  else if (isMethod "PATCH" && provider.isSome) = true then
    patchProvider runtime server request (provider.getD [])
  else if (isMethod "POST" && pathname == js "/api/users") = true then postUser runtime request
  else if (isMethod "PATCH" && user.isSome) = true then patchUser runtime request (user.getD [])
  else if (isMethod "POST" && keyCreate.isSome) = true then
    postKey runtime request (keyCreate.getD [])
  else if (isMethod "DELETE" && key.isSome) = true then deleteKey runtime (key.getD [])
  else if (isMethod "PATCH" && pathname == js "/api/settings") = true then
    patchSettings runtime request
  else sendError 404 "not-found" "No management route matches this request."

/-- `handleManagementRequest` -/
def handleManagementRequest (runtime : Runtime) (server : ManagementServer) (request : HttpRequest)
    (pathname : JSString) (session : Option ManagementSession) : ServerProg Unit :=
  let isGet := request.method == some (js "GET")
  if (isGet && pathname == js "/") = true then send 200 (.page .console)
  else if (isGet && pathname == js "/favicon.ico") = true then send 204 .empty
  else if (isGet && pathname == js "/api/snapshot") = true then getSnapshot server session
  else if (isGet && pathname == js "/api/events") = true then .perform .openActivityStream .pure
  else if request.method = some (js "OPTIONS") then do
    setHeader (js "Allow") (js "GET, POST, PATCH, DELETE")
    send 204 .empty
  else do
    requireManagementIntent request server.authenticator session
    handleMutation runtime server request pathname

/-- `POST /api/auth/login` -/
def postLogin (runtime : Runtime) (server : ManagementServer) (request : HttpRequest) :
    ServerProg Unit :=
  if server.authenticator.isNone = true then
    sendError 404 "authentication-disabled" "Management login is disabled in local mode."
  else do
    requireSameOrigin runtime request server.origin
    let body ← readManagementBody runtime request
    match (bodyField body "username").bind Json.string?,
        (bodyField body "password").bind Json.string? with
    | some username, some password => do
        let login ← .perform
          (.login username password (request.remoteAddress.getD (js "unknown"))) .ofExcept
        if login.ok = true then
          setHeader (js "Set-Cookie") (login.setCookie.getD [])
          send 200 .ok
        else
          match login.retryAfterSeconds with
          | some (seconds + 1) => do
              setHeader (js "Retry-After") (jsNat (seconds + 1))
              sendError 429 "management-login-failed" "The username or password was not accepted."
          | _ => sendError 401 "management-login-failed" "The username or password was not accepted."
    | _, _ => invalidBody "Login body must contain username and password."

/-- `POST /api/auth/logout` -/
def postLogout (server : ManagementServer) (request : HttpRequest)
    (session : Option ManagementSession) : ServerProg Unit := do
  requireManagementIntent request server.authenticator session
  if server.authenticator.isNone = true then
    throw (.error (js "Cannot read properties of undefined (reading 'logout')"))
  else
    let cookie ← .perform (.logout (stringHeader (request.header "cookie"))) .pure
    setHeader (js "Set-Cookie") cookie
    send 200 .ok

/-- The listener once it knows the session of the request. -/
def route (runtime : Runtime) (server : ManagementServer) (request : HttpRequest)
    (pathname : JSString) (session : Option ManagementSession) : ServerProg Unit :=
  let isGet := request.method == some (js "GET")
  let isPost := request.method == some (js "POST")
  if (isGet && pathname == js "/login") = true then
    if session.isSome = true then redirect (js "/") else send 200 (.page .login)
  else if (isPost && pathname == js "/api/auth/login") = true then postLogin runtime server request
  else if (server.authenticator.isSome && session.isNone) = true then
    if (isGet && pathname == js "/") = true then redirect (js "/login")
    else sendError 401 "management-authentication-required"
      "Management administrator authentication is required."
  else if (isPost && pathname == js "/api/auth/logout") = true then postLogout server request session
  else handleManagementRequest runtime server request pathname session

/-- The listener once the host is accepted. -/
def serveHost (runtime : Runtime) (server : ManagementServer) (request : HttpRequest) :
    ServerProg Unit :=
  match request.target? runtime with
  | none => throw (.error (js "Invalid URL"))
  | some url => match server.authenticator with
    | none => route runtime server request url.pathname none
    | some _ => do
        let session ← .perform (.session (stringHeader (request.header "cookie"))) .pure
        route runtime server request url.pathname session

/-- Whether the host is the one of the public origin, if there is one. -/
def checkPublicHost (runtime : Runtime) (server : ManagementServer) (request : HttpRequest) :
    ServerProg Bool :=
  match server.origin with
  | some (u :: rest) => hasExpectedPublicHost runtime request (u :: rest)
  | _ => pure true

/-- The body of the listener's `try`. -/
def handle (runtime : Runtime) (server : ManagementServer) (request : HttpRequest) :
    ServerProg Unit :=
  if server.allowRemote = false ∧ hasLoopbackHost runtime request = false then
    sendError 421 "loopback-host-required" "Management accepts loopback Host headers only."
  else do
    if ← checkPublicHost runtime server request then serveHost runtime server request
    else
      sendError 421 "management-host-mismatch"
        "Management Host does not match its configured public origin."

/-- The response to an exception. -/
def answerFailure : Failure → ServerProg Unit
  | .access e => send e.status (.error e.code e.message)
  | .provider e => send e.status (.error e.code e.message)
  | .error message => send 500 (.error (js "management-error") message)
  | .other => sendError 500 "management-error" "Management request failed."

/-- The request listener. -/
def listener (runtime : Runtime) (server : ManagementServer) (request : HttpRequest) :
    ServerProg Unit :=
  (handle runtime server request).tryCatch answerFailure

end Management

end Typr
