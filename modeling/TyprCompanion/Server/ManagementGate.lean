import TyprCompanion.Server.ManagementServer

/-!
# The management gate

What a request to the management server needs before it reaches anything.

* `HostAccepted`, `Designates`, `Intended`, `SameOrigin` — the host, the session, the intent and the
  origin of a request, in terms of its headers and the sessions there are.
* `Op.Gated` — an operation has what it needs.
* **`gate`** — in every run of the listener every operation is gated.
-/

namespace Typr

open Core Core.Prog

namespace Management

/-! ## What a request shows -/

/-- The host of the request is accepted: it is a loopback name unless the server is remote, and the
host of the public origin if there is one. -/
structure HostAccepted (runtime : Runtime) (server : ManagementServer) (request : HttpRequest) :
    Prop where
  loopback : server.allowRemote = false → ∃ host url, request.header "host" = some (.one host) ∧
    host ≠ [] ∧ runtime.parseUrl (js "http://" ++ host) none = some url ∧
    url.hostname.toLowerCase ∈ [js "127.0.0.1", js "localhost", js "[::1]"]
  publicHost : ∀ origin, server.origin = some origin → origin ≠ [] →
    ∃ host url, request.header "host" = some (.one host) ∧
      runtime.parseUrl origin none = some url ∧
      JSString.toLowerCase host = url.host.toLowerCase

/-- The cookie of the request designates a live session. -/
def Designates (a : ManagementAuthenticator) (s : State) (request : HttpRequest)
    (session : ManagementSession) : Prop :=
  ∃ token stored, readCookie (stringHeader (request.header "cookie")) a.cookieName = some token ∧
    ManagementAuthenticator.storedSession (a.hashValue token) s.auth = some stored ∧
    a.isExpired s.now stored = false ∧
    session = a.publicSession { stored with lastSeenAt := s.now }

/-- The CSRF header is the token of the session, or a text with the same digest. -/
def CarriesToken (a : ManagementAuthenticator) (request : HttpRequest)
    (session : ManagementSession) : Prop :=
  ∃ supplied, request.header CSRF_HEADER = some (.one supplied) ∧
    (supplied = session.csrfToken ∨
      supplied ≠ session.csrfToken ∧ a.hashValue supplied = a.hashValue session.csrfToken)

/-- Where there is an authenticator, the request has a session. -/
def Authenticated (server : ManagementServer) (s : State) (request : HttpRequest) : Prop :=
  ∀ a, server.authenticator = some a → ∃ session, Designates a s request session

/-- The request says that it means a mutation, and has the token of its session. -/
structure Intended (server : ManagementServer) (s : State) (request : HttpRequest) : Prop where
  header : request.header MANAGEMENT_HEADER = some (.one (js "1"))
  token : ∀ a, server.authenticator = some a →
    ∃ session, Designates a s request session ∧ CarriesToken a request session

/-- The origin of a login: the public origin if there is one; else none, or one with the host of the
request. -/
def SameOrigin (runtime : Runtime) (server : ManagementServer) (request : HttpRequest) : Prop :=
  match server.origin with
  | some (u :: rest) => request.header "origin" = some (.one (u :: rest))
  | _ => match stringHeader (request.header "origin") with
    | none | some [] => True
    | some origin => ∃ host url, request.header "host" = some (.one host) ∧ host ≠ [] ∧
        runtime.parseUrl origin none = some url ∧
        url.host.toLowerCase = JSString.toLowerCase host

/-! ## What an operation needs -/

/-- A change of the access store, the providers or the TeX packages; a refresh of the services and a
logout are treated as one. -/
def Op.Mutates : Op → Prop
  | .logout _ => True
  | .getServices forceRefresh => forceRefresh = true
  | .updateAll => True
  | .startInstall _ => True
  | .activateTexProvider _ => True
  | .createUser _ => True
  | .setUserDisabled _ _ => True
  | .createApiKey _ _ => True
  | .revokeApiKey _ => True
  | .setRequireApiKeys _ => True
  | _ => False

/-- Everything but the login page, refusals and confirmations. -/
def Body.IsPublic : Body → Prop
  | .error _ _ => True
  | .empty => True
  | .ok => True
  | .page .login => True
  | _ => False

/-- The console page, the snapshot, the event stream, or the outcome of a mutation. -/
def Op.Discloses : Op → Prop
  | .send _ body => ¬ body.IsPublic
  | .openActivityStream => True
  | _ => False

def Op.isLogin : Op → Bool
  | .login _ _ _ => true
  | _ => false

/-- Some call of the operation adds a session. -/
def Op.CreatesSession (a : ManagementAuthenticator) (op : Op) : Prop :=
  ∃ auth auth' key, op.Effect a auth auth' ∧ key ∈ auth'.sessions.map Prod.fst ∧
    key ∉ auth.sessions.map Prod.fst

/-- An operation has what it needs. -/
structure Op.Gated (runtime : Runtime) (server : ManagementServer) (s : State)
    (request : HttpRequest) (op : Op) : Prop where
  reached : op.Mutates ∨ op.Discloses →
    HostAccepted runtime server request ∧ Authenticated server s request
  intended : op.Mutates → Intended server s request
  sameOrigin : ∀ a, server.authenticator = some a → op.CreatesSession a →
    SameOrigin runtime server request

/-! ## Sessions -/

/-- Looking a session up leaves the keys of the sessions. -/
theorem keys_session (a : ManagementAuthenticator) (cookie : Option JSString) (now : Nat)
    (auth : AuthState) :
    (a.session cookie now auth).2.sessions.map Prod.fst ⊆ auth.sessions.map Prod.fst := by
  unfold ManagementAuthenticator.session
  split
  · exact List.Subset.refl _
  next token _ =>
    dsimp only
    split
    · exact List.Subset.refl _
    next stored hstored =>
      split
      · exact (List.filter_sublist.map Prod.fst).subset
      · intro key hkey
        dsimp only at hkey
        unfold ManagementAuthenticator.setSession at hkey
        split at hkey
        · rw [List.map_map] at hkey
          obtain ⟨entry, hentry, rfl⟩ := List.mem_map.mp hkey
          refine List.mem_map.mpr ⟨entry, hentry, ?_⟩
          dsimp only [Function.comp]
          split
          next hkey => exact hkey
          · rfl
        next hnew =>
          obtain ⟨entry, hfind, -⟩ := Option.map_eq_some_iff.mp hstored
          have hkey : (entry.1 == a.hashValue token) = true :=
            List.find?_some
              (p := fun entry : JSString × StoredSession => entry.1 == a.hashValue token) hfind
          exact absurd (List.any_eq_true.mpr ⟨entry, List.mem_of_find?_eq_some hfind, hkey⟩) hnew

/-- A logout leaves the keys of the other sessions. -/
theorem keys_logout (a : ManagementAuthenticator) (cookie : Option JSString) (auth : AuthState) :
    (a.logout cookie auth).2.sessions.map Prod.fst ⊆ auth.sessions.map Prod.fst := by
  unfold ManagementAuthenticator.logout
  dsimp only
  split
  · exact List.Subset.refl _
  · exact (List.filter_sublist.map Prod.fst).subset

/-- Only a login adds a session. -/
theorem isLogin_of_createsSession {a : ManagementAuthenticator} {op : Op}
    (h : op.CreatesSession a) : op.isLogin = true := by
  obtain ⟨auth, auth', key, heffect, hnew, hold⟩ := h
  cases op with
  | login username password clientKey => exact rfl
  | session cookie =>
      obtain ⟨now, rfl⟩ := heffect
      exact absurd (keys_session a cookie now auth hnew) hold
  | logout cookie =>
      obtain rfl : auth' = (a.logout cookie auth).2 := heffect
      exact absurd (keys_logout a cookie auth hnew) hold
  | _ =>
      obtain rfl : auth' = auth := heffect
      exact absurd hnew hold

/-- A session that `session` returns is designated by the cookie. -/
theorem designates_of_session {a : ManagementAuthenticator} {s : State} {auth : AuthState}
    {request : HttpRequest} {session : ManagementSession}
    (h : (some session, auth) = a.session (stringHeader (request.header "cookie")) s.now s.auth) :
    Designates a s request session := by
  unfold ManagementAuthenticator.session at h
  split at h
  · exact absurd (congrArg Prod.fst h) nofun
  next token htoken =>
    dsimp only at h
    split at h
    · exact absurd (congrArg Prod.fst h) nofun
    next stored hstored =>
      split at h
      · exact absurd (congrArg Prod.fst h) nofun
      next hlive =>
        exact ⟨token, stored, htoken, hstored, Bool.eq_false_iff.mpr hlive,
          Option.some.inj (congrArg Prod.fst h)⟩

theorem carriesToken_of_validCsrf {a : ManagementAuthenticator} {request : HttpRequest}
    {session : ManagementSession}
    (h : a.validCsrf session (stringHeader (request.header CSRF_HEADER)) = true) :
    CarriesToken a request session := by
  unfold ManagementAuthenticator.validCsrf at h
  split at h
  · exact absurd h Bool.false_ne_true
  next supplied hsupplied =>
    refine ⟨supplied, stringHeader_eq_some.mp hsupplied, ?_⟩
    rcases eq_or_ne supplied session.csrfToken with heq | hne
    · exact .inl heq
    · exact .inr ⟨hne, eq_of_beq h⟩

/-! ## Operations by what they need -/

/-- Nothing that needs a session, an intent or an origin. -/
def Op.IsPlain (op : Op) : Prop := ¬ op.Mutates ∧ ¬ op.Discloses ∧ op.isLogin = false

/-- Nothing that needs an intent or an origin. -/
def Op.IsQuiet (op : Op) : Prop := ¬ op.Mutates ∧ op.isLogin = false

section Gated

variable {runtime : Runtime} {server : ManagementServer} {request : HttpRequest} {s : State} {op : Op}

theorem not_createsSession (h : op.isLogin = false) (a : ManagementAuthenticator) :
    ¬ op.CreatesSession a := by
  intro hcreates
  rw [isLogin_of_createsSession hcreates] at h
  exact Bool.noConfusion h

theorem gated_of_plain (h : op.IsPlain) : op.Gated runtime server s request where
  reached hreached := absurd hreached (not_or.mpr ⟨h.1, h.2.1⟩)
  intended hmutates := absurd hmutates h.1
  sameOrigin a _ hcreates := absurd hcreates (not_createsSession h.2.2 a)

theorem gated_of_quiet (hhost : HostAccepted runtime server request)
    (hauth : Authenticated server s request) (h : op.IsQuiet) : op.Gated runtime server s request where
  reached _ := ⟨hhost, hauth⟩
  intended hmutates := absurd hmutates h.1
  sameOrigin a _ hcreates := absurd hcreates (not_createsSession h.2 a)

theorem gated_of_intended (hhost : HostAccepted runtime server request)
    (hauth : Authenticated server s request) (hintended : Intended server s request)
    (h : op.isLogin = false) : op.Gated runtime server s request where
  reached _ := ⟨hhost, hauth⟩
  intended _ := hintended
  sameOrigin a _ hcreates := absurd hcreates (not_createsSession h a)

theorem gated_login (horigin : SameOrigin runtime server request)
    {username password clientKey : JSString} :
    (Op.login username password clientKey).Gated runtime server s request where
  reached hreached := absurd hreached (not_or.mpr ⟨nofun, nofun⟩)
  intended hmutates := absurd hmutates nofun
  sameOrigin _ _ _ := horigin

end Gated

/-! ## Footprints -/

section Routes

variable {runtime : Runtime} {server : ManagementServer} {request : HttpRequest} {s : State}
  {pathname : JSString} {A : Op → Prop}

theorem only_send {status : Nat} {body : Body} (h : A (.send status body)) :
    (send status body).Only A :=
  only_perform h fun _ => trivial

theorem plain_sendError (status : Nat) (code message : String) :
    (sendError status code message).Only Op.IsPlain :=
  only_send ⟨not_false, not_not.mpr trivial, rfl⟩

theorem plain_setHeader (name value : JSString) : (setHeader name value).Only Op.IsPlain :=
  only_perform ⟨not_false, not_false, rfl⟩ fun _ => trivial

theorem only_decodeComponent {text : JSString} : (decodeComponent runtime text).Only A := by
  unfold decodeComponent
  split <;> exact trivial

theorem plain_readManagementBody : (readManagementBody runtime request).Only Op.IsPlain := by
  unfold readManagementBody
  dsimp only
  split
  · refine only_perform ⟨not_false, not_false, rfl⟩ fun _ => ?_
    split
    · exact trivial
    · exact trivial
    · split <;> exact trivial
  · exact trivial

theorem only_requireProviders : (requireProviders server).Only A := by
  unfold requireProviders
  split <;> exact trivial

theorem plain_answerFailure (e : Failure) : (answerFailure e).Only Op.IsPlain := by
  cases e <;> exact only_send ⟨not_false, not_not.mpr trivial, rfl⟩

theorem sameOrigin_of_absent (hlocal : ∀ u tail, server.origin ≠ some (u :: tail))
    (h : stringHeader (request.header "origin") = none ∨ stringHeader (request.header "origin") = some []) :
    SameOrigin runtime server request := by
  unfold SameOrigin
  split
  next u tail horigin => exact absurd horigin (hlocal u tail)
  next => rcases h with h | h <;> simp only [h]

theorem sameOrigin_of_host (hlocal : ∀ u tail, server.origin ≠ some (u :: tail))
    {origin host : JSString} {url : Url} (h : stringHeader (request.header "origin") = some origin)
    (hhost : request.header "host" = some (.one host)) (hne : host ≠ [])
    (hurl : runtime.parseUrl origin none = some url)
    (hsame : url.host.toLowerCase = JSString.toLowerCase host) :
    SameOrigin runtime server request := by
  unfold SameOrigin
  split
  next u tail horigin => exact absurd horigin (hlocal u tail)
  next =>
    cases origin with
    | nil => simp only [h]
    | cons c tail =>
        simp only [h]
        exact ⟨host, url, hhost, hne, hurl, hsame⟩

/-- What follows the check of the origin has seen it. -/
theorem only_sameOrigin {rest : ServerProg Unit} (h : SameOrigin runtime server request → rest.Only A) :
    (requireSameOrigin runtime request server.origin >>= fun _ => rest).Only A := by
  unfold requireSameOrigin
  dsimp only
  split
  next u tail horigin =>
    split
    next hheader =>
      refine h ?_
      unfold SameOrigin
      rw [horigin]
      exact stringHeader_eq_some.mp hheader
    · exact trivial
  next hlocal =>
    split
    next heq => exact h (sameOrigin_of_absent hlocal (.inl heq))
    next heq => exact h (sameOrigin_of_absent hlocal (.inr heq))
    next origin hne heq =>
      split
      next left v right hhosts =>
        split
        next hsame =>
          obtain ⟨hleft, hright⟩ := Prod.mk.inj hhosts
          obtain ⟨url, hurl, rfl⟩ := Option.map_eq_some_iff.mp hleft
          obtain ⟨host, hhost, hlower⟩ := Option.map_eq_some_iff.mp hright
          refine h (sameOrigin_of_host hlocal heq (stringHeader_eq_some.mp hhost) ?_ hurl
            (hsame.trans hlower.symm))
          rintro rfl
          cases hlower
        · exact trivial
      · exact trivial

/-- What follows the check of the intent has seen it, in the session of the request. -/
theorem only_intended {session : Option ManagementSession}
    (hsession : ∀ a, server.authenticator = some a → ∀ found, session = some found →
      Designates a s request found) {rest : ServerProg Unit}
    (h : Intended server s request → rest.Only A) :
    (requireManagementIntent request server.authenticator session >>= fun _ => rest).Only A := by
  unfold requireManagementIntent
  split
  · exact trivial
  next hheader =>
    have hheader := not_not.mp hheader
    split
    next hnone => exact h ⟨hheader, fun a ha => absurd (hnone.symm.trans ha) nofun⟩
    next a ha =>
      split
      next hcsrf =>
        obtain ⟨found, rfl, hvalid⟩ := (Option.any_eq_true _ _).mp hcsrf
        refine h ⟨hheader, ?_⟩
        intro b hb
        obtain rfl := Option.some.inj (ha.symm.trans hb)
        exact ⟨found, hsession a ha found rfl, carriesToken_of_validCsrf hvalid⟩
      · exact trivial

/-! ## The routes -/

/-- Everything but a login. -/
def Op.NoLogin (op : Op) : Prop := op.isLogin = false

theorem noLogin_readManagementBody : (readManagementBody runtime request).Only Op.NoLogin :=
  plain_readManagementBody.mono fun _ h => h.2.2

theorem noLogin_send (status : Nat) (body : Body) : (send status body).Only Op.NoLogin :=
  only_send rfl

theorem noLogin_updateTexLive : updateTexLive.Only Op.NoLogin := by
  refine only_bind (only_perform rfl only_ofExcept) fun result => ?_
  obtain ⟨updated, diagnostic, result⟩ := result
  dsimp only
  split
  · exact noLogin_send _ _
  · exact trivial

theorem noLogin_installProvider {segment : JSString} :
    (installProvider runtime server segment).Only Op.NoLogin :=
  only_bind only_requireProviders fun _ => only_bind only_decodeComponent fun _ =>
    only_bind (only_perform rfl only_ofExcept) fun _ => noLogin_send _ _

theorem noLogin_patchProvider {segment : JSString} :
    (patchProvider runtime server request segment).Only Op.NoLogin := by
  refine only_bind only_requireProviders fun _ => only_bind noLogin_readManagementBody fun body => ?_
  split
  · exact only_bind only_decodeComponent fun _ => only_bind (only_perform rfl only_ofExcept) fun _ =>
      only_bind (only_perform rfl fun _ => trivial) fun _ => noLogin_send _ _
  · exact trivial

theorem noLogin_postUser : (postUser runtime request).Only Op.NoLogin := by
  refine only_bind noLogin_readManagementBody fun body => ?_
  split
  · exact trivial
  · exact only_bind (only_perform rfl only_ofExcept) fun _ => noLogin_send _ _

theorem noLogin_patchUser {segment : JSString} :
    (patchUser runtime request segment).Only Op.NoLogin := by
  refine only_bind noLogin_readManagementBody fun body => ?_
  split
  · exact trivial
  · exact only_bind only_decodeComponent fun _ =>
      only_bind (only_perform rfl only_ofExcept) fun _ => noLogin_send _ _

theorem noLogin_postKey {segment : JSString} :
    (postKey runtime request segment).Only Op.NoLogin := by
  refine only_bind noLogin_readManagementBody fun body => ?_
  split
  · exact trivial
  · exact only_bind only_decodeComponent fun _ =>
      only_bind (only_perform rfl only_ofExcept) fun _ => noLogin_send _ _

theorem noLogin_deleteKey {segment : JSString} : (deleteKey runtime segment).Only Op.NoLogin :=
  only_bind only_decodeComponent fun _ =>
    only_bind (only_perform rfl only_ofExcept) fun _ => noLogin_send _ _

theorem noLogin_patchSettings : (patchSettings runtime request).Only Op.NoLogin := by
  refine only_bind noLogin_readManagementBody fun body => ?_
  split
  · exact trivial
  · exact only_bind (only_perform rfl only_ofExcept) fun _ => noLogin_send _ _

theorem noLogin_handleMutation :
    (handleMutation runtime server request pathname).Only Op.NoLogin := by
  unfold handleMutation
  dsimp only
  split
  · exact only_bind (only_perform rfl only_ofExcept) fun _ => noLogin_send _ _
  · split
    · exact noLogin_updateTexLive
    · split
      · exact noLogin_installProvider
      · split
        · exact noLogin_patchProvider
        · split
          · exact noLogin_postUser
          · split
            · exact noLogin_patchUser
            · split
              · exact noLogin_postKey
              · split
                · exact noLogin_deleteKey
                · split
                  · exact noLogin_patchSettings
                  · exact noLogin_send _ _

/-- What a request with an accepted host and a session reaches before its intent is checked. -/
theorem quiet_getSnapshot {session : Option ManagementSession} :
    (getSnapshot server session).Only Op.IsQuiet :=
  only_bind (only_perform ⟨not_false, rfl⟩ fun _ => trivial) fun _ =>
    only_bind (only_perform ⟨Bool.false_ne_true, rfl⟩ only_ofExcept) fun _ =>
      only_bind (only_perform ⟨not_false, rfl⟩ fun _ => trivial) fun _ =>
        only_bind (only_perform ⟨not_false, rfl⟩ fun _ => trivial) fun _ =>
          only_send ⟨not_false, rfl⟩

section Session

variable {session : Option ManagementSession} (hhost : HostAccepted runtime server request)
  (hauth : Authenticated server s request)
  (hsession : ∀ a, server.authenticator = some a → ∀ found, session = some found →
    Designates a s request found)

include hhost hauth hsession

theorem gated_handleManagementRequest :
    (handleManagementRequest runtime server request pathname session).Only
      (Op.Gated runtime server s request) := by
  have hquiet : ∀ op : Op, op.IsQuiet → op.Gated runtime server s request :=
    fun op => gated_of_quiet hhost hauth
  unfold handleManagementRequest
  dsimp only
  split
  · exact only_send (hquiet _ ⟨not_false, rfl⟩)
  · split
    · exact only_send (hquiet _ ⟨not_false, rfl⟩)
    · split
      · exact quiet_getSnapshot.mono hquiet
      · split
        · exact only_perform (hquiet _ ⟨not_false, rfl⟩) fun _ => trivial
        · split
          · exact only_bind ((plain_setHeader _ _).mono fun _ h => gated_of_plain h) fun _ =>
              only_send (hquiet _ ⟨not_false, rfl⟩)
          · refine only_intended hsession fun hintended => ?_
            exact noLogin_handleMutation.mono fun op h => gated_of_intended hhost hauth hintended h

theorem gated_postLogout :
    (postLogout server request session).Only (Op.Gated runtime server s request) := by
  refine only_intended hsession fun hintended => ?_
  split
  · exact trivial
  · exact only_bind (only_perform (gated_of_intended hhost hauth hintended rfl) fun _ => trivial)
      fun _ => only_bind ((plain_setHeader _ _).mono fun _ h => gated_of_plain h) fun _ =>
        only_send (gated_of_intended hhost hauth hintended rfl)

end Session

theorem gated_postLogin :
    (postLogin runtime server request).Only (Op.Gated runtime server s request) := by
  have hplain : ∀ op : Op, op.IsPlain → op.Gated runtime server s request := fun op => gated_of_plain
  unfold postLogin
  split
  · exact (plain_sendError _ _ _).mono hplain
  · refine only_sameOrigin fun horigin => ?_
    refine only_bind (plain_readManagementBody.mono hplain) fun body => ?_
    split
    · refine only_bind (only_perform (gated_login horigin) only_ofExcept) fun login => ?_
      split
      · exact only_bind ((plain_setHeader _ _).mono hplain) fun _ =>
          only_send (hplain _ ⟨not_false, not_not.mpr trivial, rfl⟩)
      · split
        · exact only_bind ((plain_setHeader _ _).mono hplain) fun _ =>
            (plain_sendError _ _ _).mono hplain
        · exact (plain_sendError _ _ _).mono hplain
    · exact trivial

/-- The listener, in the session of the request. -/
theorem gated_route {session : Option ManagementSession}
    (hhost : HostAccepted runtime server request)
    (hsession : ∀ a, server.authenticator = some a → ∀ found, session = some found →
      Designates a s request found) :
    (route runtime server request pathname session).Only (Op.Gated runtime server s request) := by
  have hplain : ∀ op : Op, op.IsPlain → op.Gated runtime server s request := fun op => gated_of_plain
  have hredirect : ∀ location, (redirect location).Only (Op.Gated runtime server s request) :=
    fun location => only_perform (hplain _ ⟨not_false, not_false, rfl⟩) fun _ => trivial
  unfold route
  dsimp only
  split
  · split
    · exact hredirect _
    · exact only_send (hplain _ ⟨not_false, not_not.mpr trivial, rfl⟩)
  · split
    · exact gated_postLogin
    · split
      · split
        · exact hredirect _
        · exact (plain_sendError _ _ _).mono hplain
      next hnot =>
        have hauth : Authenticated server s request := by
          intro a ha
          rw [ha] at hnot
          cases session with
          | none => exact absurd rfl hnot
          | some found => exact ⟨found, hsession a ha found rfl⟩
        split
        · exact gated_postLogout hhost hauth hsession
        · exact gated_handleManagementRequest hhost hauth hsession

/-! ## The listener -/

theorem loopback_of_hasLoopbackHost (h : hasLoopbackHost runtime request = true) :
    ∃ host url, request.header "host" = some (.one host) ∧ host ≠ [] ∧
      runtime.parseUrl (js "http://" ++ host) none = some url ∧
      url.hostname.toLowerCase ∈ [js "127.0.0.1", js "localhost", js "[::1]"] := by
  unfold hasLoopbackHost at h
  split at h
  · exact absurd h Bool.false_ne_true
  · exact absurd h Bool.false_ne_true
  next host hne hhost =>
    obtain ⟨url, hurl, hname⟩ := (Option.any_eq_true _ _).mp h
    exact ⟨host, url, stringHeader_eq_some.mp hhost, hne, hurl, List.contains_iff_mem.mp hname⟩

/-- The check of the public host does nothing, and passes when the host is the public one. -/
theorem wp_checkPublicHost {exec : (op : Op) → State → op.Reply → State → Prop}
    {allowed : State → Op → Prop} :
    (checkPublicHost runtime server request).wp exec allowed (fun r t => t = s ∧ (r = .ok true →
      ∀ origin, server.origin = some origin → origin ≠ [] →
        ∃ host url, request.header "host" = some (.one host) ∧
          runtime.parseUrl origin none = some url ∧
          JSString.toLowerCase host = url.host.toLowerCase)) s := by
  unfold checkPublicHost
  split
  next u rest horigin =>
    unfold hasExpectedPublicHost
    split
    · exact ⟨rfl, nofun⟩
    next url hurl =>
      refine ⟨rfl, fun htrue origin hsome _ => ?_⟩
      obtain rfl := Option.some.inj (horigin.symm.trans hsome)
      obtain ⟨host, hhost, hlower⟩ := Option.map_eq_some_iff.mp (eq_of_beq (Except.ok.inj htrue))
      exact ⟨host, url, stringHeader_eq_some.mp hhost, hurl, hlower⟩
  next hnone =>
    refine ⟨rfl, fun _ origin hsome hne => ?_⟩
    cases origin with
    | nil => exact absurd rfl hne
    | cons u rest => exact absurd hsome (hnone u rest)

theorem wp_serveHost (hhost : HostAccepted runtime server request) :
    (serveHost runtime server request).wp (Op.Exec server.authenticator)
      (fun _ op => op.Gated runtime server s request) (fun _ _ => True) s := by
  have hallowed : ∀ (_ : State) (op : Op), op.Gated runtime server s request →
      op.Gated runtime server s request := fun _ _ h => h
  unfold serveHost
  split
  · exact trivial
  · split
    next hnone =>
      exact (gated_route hhost fun a ha => absurd (hnone.symm.trans ha) nofun).wp hallowed s
    next a ha =>
      refine (wp_bind _ _ _ s).mpr ⟨gated_of_plain ⟨not_false, not_false, rfl⟩, ?_⟩
      intro session t hexec
      refine (gated_route hhost fun b hb found hfound => ?_).wp hallowed t
      obtain rfl := Option.some.inj (ha.symm.trans hb)
      rw [ha] at hexec
      subst hfound
      exact designates_of_session hexec.2

theorem wp_handle : (handle runtime server request).wp (Op.Exec server.authenticator)
    (fun _ op => op.Gated runtime server s request) (fun _ _ => True) s := by
  have hplain : ∀ (_ : State) (op : Op), op.IsPlain → op.Gated runtime server s request :=
    fun _ _ => gated_of_plain
  unfold handle
  split
  · exact (plain_sendError _ _ _).wp hplain s
  next hloopback =>
    refine (wp_bind _ (checkPublicHost _ _ _) _ s).mpr (wp_post ?_ wp_checkPublicHost)
    rintro r t ⟨rfl, hpublic⟩
    match r, hpublic with
    | .error e, _ => exact trivial
    | .ok false, _ => exact (plain_sendError _ _ _).wp hplain t
    | .ok true, hpublic =>
        refine wp_serveHost ⟨fun hremote => ?_, hpublic rfl⟩
        refine loopback_of_hasLoopbackHost ((Bool.not_eq_false _).mp fun hfalse => ?_)
        exact hloopback ⟨hremote, hfalse⟩

end Routes

theorem parsed_of_publicOriginOf {runtime : Runtime} {value : JSString} {origin : Option JSString}
    (hne : value ≠ []) (h : publicOriginOf runtime (some value) = .ok origin) :
    ∃ url, runtime.parseUrl value none = some url ∧ origin = some url.origin := by
  cases value with
  | nil => exact absurd rfl hne
  | cons u rest =>
      unfold publicOriginOf normalizePublicOrigin at h
      dsimp only at h
      split at h
      · exact absurd h nofun
      next url hurl =>
        split at h
        · exact ⟨url, hurl, (Except.ok.inj h).symm⟩
        · exact absurd h nofun

/-- What `createManagementServer` makes of its options. -/
theorem createManagementServer_ok {runtime : Runtime} {options : ManagementServerOptions}
    {server : ManagementServer} (h : createManagementServer runtime options = .ok server) :
    server.toManagementServerOptions = options ∧
      (options.allowRemote = true → options.authenticator.isSome = true) ∧
      ∀ value, options.publicOrigin = some value → value ≠ [] →
        ∃ url, runtime.parseUrl value none = some url ∧ server.origin = some url.origin := by
  unfold createManagementServer at h
  split at h
  · exact absurd h nofun
  next hremote =>
    split at h
    · exact absurd h nofun
    next origin horigin =>
      split at h
      · exact absurd h nofun
      · obtain rfl := Except.ok.inj h
        refine ⟨rfl, fun hallow => ?_, fun value hvalue hne => ?_⟩
        · refine Option.isSome_iff_ne_none.mpr fun hnone => hremote ⟨hallow, ?_⟩
          exact Option.isNone_iff_eq_none.mpr hnone
        · rw [hvalue] at horigin
          exact parsed_of_publicOriginOf hne horigin

/-- **The management gate.**  For every configuration the server accepts and every request, in every
run: what discloses or changes something is only reached with the host the mode accepts and, with an
authenticator, by a cookie that designates a live session; a change also needs the header of the
console and the CSRF token of that session; and a session is only created by a login from the same
origin. -/
theorem management_gate {runtime : Runtime} {options : ManagementServerOptions}
    {server : ManagementServer} (hserver : createManagementServer runtime options = .ok server)
    (request : HttpRequest) (s : State) :
    (server.toManagementServerOptions = options ∧
      (options.allowRemote = true → options.authenticator.isSome = true) ∧
      ∀ value, options.publicOrigin = some value → value ≠ [] →
        ∃ url, runtime.parseUrl value none = some url ∧ server.origin = some url.origin) ∧
    (listener runtime server request).wp (Op.Exec server.authenticator)
      (fun _ op => op.Gated runtime server s request) (fun _ _ => True) s := by
  refine ⟨createManagementServer_ok hserver, ?_⟩
  refine (wp_tryCatch _ _ _ s).mpr (wp_post ?_ wp_handle)
  intro r t _
  cases r with
  | ok _ => exact trivial
  | error e => exact (plain_answerFailure e).wp (fun _ _ => gated_of_plain) t

/-! ## A remote server -/

/-- An administrator. -/
def oneAdministrator : ManagementAuthenticator where
  username := js "typr"
  secureCookies := true
  salt := []
  hash := [1]
  idleTimeoutMs := DEFAULT_IDLE_TIMEOUT_MS
  absoluteTimeoutMs := DEFAULT_ABSOLUTE_TIMEOUT_MS
  hashValue := id
  derivePassword password _ := JSString.encodeUtf8 password
  toLocaleLowerCase := id

/-- A server that anybody can reach. -/
def remoteOptions : ManagementServerOptions := ⟨false, 0, none, true, some oneAdministrator, none⟩

/-- Without a session the console page is not sent. -/
theorem management_gate_noSession :
    (listener (tableRuntime [(js "/", localUrl (js "/") [] [])] []) ⟨remoteOptions, none⟩
      ⟨some (js "GET"), some (js "/"), fun _ => none, none, [], none⟩).wp
      (Op.Exec (some oneAdministrator)) (fun _ op => ¬ op.Discloses) (fun _ _ => True)
      ⟨AuthState.new, 0⟩ := by
  refine wp_mono ?_ (fun _ _ h => h)
    (@management_gate _ remoteOptions ⟨remoteOptions, none⟩ rfl
      ⟨some (js "GET"), some (js "/"), fun _ => none, none, [], none⟩ ⟨AuthState.new, 0⟩).2
  intro s op hgated hdiscloses
  obtain ⟨session, token, stored, hcookie, -⟩ :=
    (hgated.reached (.inr hdiscloses)).2 oneAdministrator rfl
  exact absurd hcookie nofun

end Management

end Typr
