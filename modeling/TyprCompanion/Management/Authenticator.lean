import Mathlib.Logic.Function.Basic
import TyprCompanion.Core.FileSystem
import TyprCompanion.Js.Text

/-!
# The management authenticator

Password login and server-side sessions (`managementAuth.ts`).

* `AuthState` — the maps `sessions` and `failures` of a `ManagementAuthenticator`; the failure
  records are objects, and calls of `login` share them.
* `beginLogin`, `completeLogin` — `login` before and after it waits for the password derivation.
* `session`, `logout`, `validCsrf` — what the management server asks of a request.
-/

namespace Typr

/-! ## Data -/

/-- `DEFAULT_IDLE_TIMEOUT_MS` -/
def DEFAULT_IDLE_TIMEOUT_MS : Nat := 30 * 60000

/-- `DEFAULT_ABSOLUTE_TIMEOUT_MS` -/
def DEFAULT_ABSOLUTE_TIMEOUT_MS : Nat := 12 * 60 * 60000

/-- `MAX_SESSIONS` -/
def MAX_SESSIONS : Nat := 32

/-- `FAILURE_WINDOW_MS` -/
def FAILURE_WINDOW_MS : Nat := 15 * 60000

/-- `FAILURE_LIMIT` -/
def FAILURE_LIMIT : Nat := 5

/-- `BASE_LOCKOUT_MS` -/
def BASE_LOCKOUT_MS : Nat := 30000

/-- `MAX_LOCKOUT_MS` -/
def MAX_LOCKOUT_MS : Nat := 15 * 60000

structure StoredSession where
  username : JSString
  csrfToken : JSString
  createdAt : Nat
  lastSeenAt : Nat
  deriving DecidableEq

structure LoginFailureState where
  count : Nat
  firstAt : Nat
  blockedUntil : Nat
  deriving DecidableEq

structure ManagementSession where
  username : JSString
  csrfToken : JSString
  createdAt : Nat
  expiresAt : Nat
  deriving DecidableEq

structure ManagementLoginResult where
  ok : Bool
  retryAfterSeconds : Option Nat
  session : Option ManagementSession
  setCookie : Option JSString
  deriving DecidableEq

/-- What an authenticator is created with, and the functions of the platform it uses: SHA-256 in
hexadecimal, scrypt with its salt, and case mapping. -/
structure ManagementAuthenticator where
  username : JSString
  secureCookies : Bool
  salt : Core.Bytes
  hash : Core.Bytes
  idleTimeoutMs : Nat
  absoluteTimeoutMs : Nat
  hashValue : JSString → JSString
  derivePassword : JSString → Core.Bytes → Core.Bytes
  toLocaleLowerCase : JSString → JSString

/-- The maps of an authenticator.  `failureStates` are the failure records created for a key; a
reference to one is its index. -/
structure AuthState where
  sessions : List (JSString × StoredSession)
  failureStates : JSString → List LoginFailureState
  failures : JSString → Option Nat

/-- A call of `login` that waits for the password derivation. -/
structure LoginCall where
  username : JSString
  password : JSString
  failureKey : JSString
  now : Nat
  /-- the record `this.failures.get` returned -/
  currentFailure : Option Nat
  deriving DecidableEq

/-! ## Failures -/

/-- The lockout after so many failures that began at `now`. -/
def lockedUntil (count now : Nat) : Nat :=
  if FAILURE_LIMIT ≤ count then
    now + min MAX_LOCKOUT_MS (BASE_LOCKOUT_MS * 2 ^ min 5 (count - FAILURE_LIMIT))
  else 0

namespace LoginFailureState

/-- `now - state.firstAt <= FAILURE_WINDOW_MS` -/
def isCurrent (now : Nat) (state : LoginFailureState) : Bool :=
  decide (now ≤ state.firstAt + FAILURE_WINDOW_MS)

/-- A record without failures. -/
def fresh (now : Nat) : LoginFailureState := ⟨0, now, 0⟩

/-- One failure more. -/
def failed (now : Nat) (state : LoginFailureState) : LoginFailureState :=
  { state with count := state.count + 1, blockedUntil := lockedUntil (state.count + 1) now }

/-- The seconds of `Retry-After`. -/
def retryAfterSeconds (now : Nat) (state : LoginFailureState) : Nat :=
  max 1 ((state.blockedUntil - now + 999) / 1000)

end LoginFailureState

namespace AuthState

/-- A new authenticator. -/
def new : AuthState := ⟨[], fun _ => [], fun _ => none⟩

/-- The record a reference of a key leads to. -/
def failureState (key : JSString) (ref : Option Nat) (s : AuthState) : Option LoginFailureState :=
  ref.bind fun index => (s.failureStates key)[index]?

/-- `this.failures.get(key)` -/
def currentFailure (key : JSString) (s : AuthState) : Option LoginFailureState :=
  s.failureState key (s.failures key)

/-- A failed comparison of a call: the record it holds is counted up, when it is current, else a new
one is created. -/
def recordFailure (call : LoginCall) (s : AuthState) : LoginFailureState × AuthState :=
  let key := call.failureKey
  let states := s.failureStates key
  match call.currentFailure, s.failureState key call.currentFailure with
  | some index, some state =>
      if state.isCurrent call.now = true then
        (state.failed call.now, { s with
          failureStates := Function.update s.failureStates key
            (states.set index (state.failed call.now))
          failures := Function.update s.failures key (some index) })
      else
        ((LoginFailureState.fresh call.now).failed call.now, { s with
          failureStates := Function.update s.failureStates key
            (states ++ [(LoginFailureState.fresh call.now).failed call.now])
          failures := Function.update s.failures key (some states.length) })
  | _, _ =>
      ((LoginFailureState.fresh call.now).failed call.now, { s with
        failureStates := Function.update s.failureStates key
          (states ++ [(LoginFailureState.fresh call.now).failed call.now])
        failures := Function.update s.failures key (some states.length) })

end AuthState

/-! ## Cookies -/

/-- `readCookie` -/
def readCookie (header : Option JSString) (name : JSString) : Option JSString :=
  match header with
  | none => none
  | some header =>
      if header = [] ∨ 8192 < header.length then none
      else
        let field := (header.split (unit ';')).find? fun field =>
          match field.indexOf (unit '=') 0 with
          | none => false
          | some separator => JSString.trim (field.take separator) == name
        match field with
        | none => none
        | some field =>
            let value := JSString.trim (field.drop ((field.indexOf (unit '=') 0).getD 0 + 1))
            let isToken := value.length == 43 && value.all fun u =>
              (0x41 ≤ u && u ≤ 0x5A) || (0x61 ≤ u && u ≤ 0x7A) || (0x30 ≤ u && u ≤ 0x39) ||
                u == unit '_' || u == unit '-'
            if isToken = true then some value else none

namespace ManagementAuthenticator

variable (a : ManagementAuthenticator)

/-- `cookieName` -/
def cookieName : JSString :=
  if a.secureCookies then js "__Host-typr_management" else js "typr_management"

/-- `serializeCookie` -/
def serializeCookie (token : JSString) : JSString :=
  a.cookieName ++ js "=" ++ token ++ js "; Path=/; Max-Age=" ++ js (toString (a.idleTimeoutMs / 1000))
    ++ js "; HttpOnly; SameSite=Strict" ++ (if a.secureCookies then js "; Secure" else [])

/-- `publicSession` -/
def publicSession (stored : StoredSession) : ManagementSession where
  username := stored.username
  csrfToken := stored.csrfToken
  createdAt := stored.createdAt
  expiresAt := min (stored.createdAt + a.absoluteTimeoutMs) (stored.lastSeenAt + a.idleTimeoutMs)

/-- A session that timed out. -/
def isExpired (now : Nat) (stored : StoredSession) : Bool :=
  a.idleTimeoutMs < now - stored.lastSeenAt || a.absoluteTimeoutMs < now - stored.createdAt

/-! ## Login -/

/-- The key of the failures of a client and a username. -/
def failureKey (clientKey username : JSString) : JSString :=
  a.hashValue (clientKey ++ 0 :: a.toLocaleLowerCase username)

/-- `login` up to its wait for the derivation: it is refused, or it waits. -/
def beginLogin (username password clientKey : JSString) (now : Nat) (s : AuthState) :
    Except ManagementLoginResult LoginCall :=
  let key := a.failureKey clientKey username
  let call : LoginCall := ⟨username, password, key, now, s.failures key⟩
  match s.currentFailure key with
  | some state =>
      if now < state.blockedUntil then .error ⟨false, some (state.retryAfterSeconds now), none, none⟩
      else .ok call
  | none => .ok call

/-- Whether the credentials of a call match. -/
def matchesCredential (call : LoginCall) : Bool :=
  a.hashValue call.username == a.hashValue a.username &&
    a.derivePassword call.password a.salt == a.hash

/-- `prune` -/
def prune (now : Nat) (s : AuthState) : AuthState :=
  { s with
    sessions := s.sessions.filter fun entry => !a.isExpired now entry.2
    failures := fun key => match s.currentFailure key with
      | some state =>
          if state.blockedUntil ≤ now ∧ state.isCurrent now = false then none else s.failures key
      | none => s.failures key }

/-- The oldest sessions make room for one more. -/
def makeRoom (sessions : List (JSString × StoredSession)) : List (JSString × StoredSession) :=
  sessions.drop (sessions.length - (MAX_SESSIONS - 1))

/-- `this.sessions.set` -/
def setSession (key : JSString) (stored : StoredSession)
    (sessions : List (JSString × StoredSession)) : List (JSString × StoredSession) :=
  if sessions.any (fun entry => entry.1 == key) then
    sessions.map fun entry => if entry.1 = key then (key, stored) else entry
  else sessions ++ [(key, stored)]

/-- A new session, with the random `token` and `csrfToken`. -/
def openSession (call : LoginCall) (token csrfToken : JSString) (s : AuthState) :
    ManagementLoginResult × AuthState :=
  let stored : StoredSession := ⟨a.username, csrfToken, call.now, call.now⟩
  let s := { s with failures := Function.update s.failures call.failureKey none }
  let s := a.prune call.now s
  (⟨true, none, some (a.publicSession stored), some (a.serializeCookie token)⟩,
    { s with sessions := setSession (a.hashValue token) stored (makeRoom s.sessions) })

/-- `login` after the derivation. -/
def completeLogin (call : LoginCall) (token csrfToken : JSString) (s : AuthState) :
    ManagementLoginResult × AuthState :=
  if a.matchesCredential call = true then a.openSession call token csrfToken s
  else
    let (state, s) := s.recordFailure call
    (⟨false, if call.now < state.blockedUntil then some (state.retryAfterSeconds call.now) else none,
      none, none⟩, s)

/-! ## Sessions -/

/-- The session stored under a key. -/
def storedSession (key : JSString) (s : AuthState) : Option StoredSession :=
  (s.sessions.find? fun entry => entry.1 == key).map Prod.snd

/-- `session` -/
def session (cookieHeader : Option JSString) (now : Nat) (s : AuthState) :
    Option ManagementSession × AuthState :=
  match readCookie cookieHeader a.cookieName with
  | none => (none, s)
  | some token =>
      let key := a.hashValue token
      match storedSession key s with
      | none => (none, s)
      | some stored =>
          if a.isExpired now stored = true then
            (none, { s with sessions := s.sessions.filter fun entry => entry.1 != key })
          else
            let stored := { stored with lastSeenAt := now }
            (some (a.publicSession stored), { s with sessions := setSession key stored s.sessions })

/-- `logout` -/
def logout (cookieHeader : Option JSString) (s : AuthState) : JSString × AuthState :=
  let s := match readCookie cookieHeader a.cookieName with
    | none => s
    | some token => { s with
        sessions := s.sessions.filter fun entry => entry.1 != a.hashValue token }
  (a.cookieName ++ js "=; Path=/; Max-Age=0; HttpOnly; SameSite=Strict"
    ++ (if a.secureCookies then js "; Secure" else []), s)

/-- `validCsrf` -/
def validCsrf (session : ManagementSession) (supplied : Option JSString) : Bool :=
  match supplied with
  | none => false
  | some supplied => a.hashValue supplied == a.hashValue session.csrfToken

end ManagementAuthenticator

end Typr
