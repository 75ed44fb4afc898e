import TyprCompanion.Core.TransitionSystem
import TyprCompanion.Management.Authenticator

/-!
# Lifetime of management sessions

What becomes of the sessions of the management console over a run of `login`, `session` and `logout`, for
any readings of the clock.

* `IssuedSession`, `Ledger` — every session a login opened, when it was used last, and how it ended.
* `SessionRun`, `SessionRun.step` — the calls of an authenticator, with the ledger of its sessions.
* `Refines` — the map `sessions` holds the live sessions of the ledger.
* `Reports`, `Between` — a call that reports when a session expires, and what may happen until the next.
* **`session_lifetime`** — which sessions are accepted, and until when.
-/

namespace Typr

open Core

/-! ## The ledger -/

/-- Why a session ended. -/
inductive SessionEnd where
  | loggedOut
  | evicted
  | expired
  deriving DecidableEq

/-- A session a login opened; `loginAt` is the reading of the clock of that login, `usedAt` the one of the
last use. -/
structure IssuedSession where
  token : JSString
  csrfToken : JSString
  loginAt : Nat
  usedAt : Nat
  ended : Option SessionEnd
  deriving DecidableEq

/-- The sessions in the order of their logins. -/
abbrev Ledger := List IssuedSession

namespace Ledger

/-- The sessions that have not ended. -/
def live (ledger : Ledger) : List IssuedSession := ledger.filter fun issued => issued.ended.isNone

/-- Some live sessions end. -/
def endWhere (reason : SessionEnd) (p : IssuedSession → Bool) (ledger : Ledger) : Ledger :=
  ledger.map fun issued =>
    if (issued.ended.isNone && p issued) = true then { issued with ended := some reason } else issued

/-- So many of the oldest live sessions end. -/
def evict : Nat → Ledger → Ledger
  | 0, ledger => ledger
  | _, [] => []
  | count + 1, issued :: rest =>
      if issued.ended.isNone = true then { issued with ended := some .evicted } :: evict count rest
      else issued :: evict (count + 1) rest

/-- A live session is used. -/
def use (token : JSString) (now : Nat) (ledger : Ledger) : Ledger :=
  ledger.map fun issued =>
    if (issued.ended.isNone && issued.token == token) = true then { issued with usedAt := now }
    else issued

section Lists

variable {ledger : Ledger} {issued : IssuedSession} {token : JSString}

theorem live_endWhere (reason : SessionEnd) (p : IssuedSession → Bool) (ledger : Ledger) :
    (ledger.endWhere reason p).live = ledger.live.filter fun issued => !p issued := by
  induction ledger with
  | nil => rfl
  | cons issued rest ih =>
      unfold endWhere live at ih ⊢
      rw [List.map_cons, List.filter_cons, List.filter_cons, ih]
      cases hlive : issued.ended.isNone with
      | false => simp [hlive]
      | true => cases hp : p issued <;> simp [hlive, hp]

theorem live_evict (count : Nat) (ledger : Ledger) :
    (ledger.evict count).live = ledger.live.drop count := by
  induction ledger generalizing count with
  | nil => cases count <;> simp [evict, live]
  | cons issued rest ih =>
      cases count with
      | zero => rw [evict, List.drop_zero]
      | succ count =>
          rw [evict]
          unfold live at ih ⊢
          split
          next hlive =>
            rw [List.filter_cons_of_neg (by simp), @List.filter_cons_of_pos _ _ issued rest hlive,
              List.drop_succ_cons]
            exact ih count
          next hlive =>
            rw [@List.filter_cons_of_neg _ _ issued _ hlive, @List.filter_cons_of_neg _ _ issued rest hlive]
            exact ih (count + 1)

theorem live_use (token : JSString) (now : Nat) (ledger : Ledger) :
    (ledger.use token now).live = ledger.live.map fun issued =>
      if issued.token = token then { issued with usedAt := now } else issued := by
  induction ledger with
  | nil => rfl
  | cons issued rest ih =>
      unfold use live at ih ⊢
      rw [List.map_cons, List.filter_cons, List.filter_cons, ih]
      cases hlive : issued.ended.isNone with
      | false => simp [hlive]
      | true => by_cases htoken : issued.token = token <;> simp [hlive, htoken]

theorem map_token_endWhere (reason : SessionEnd) (p : IssuedSession → Bool) (ledger : Ledger) :
    (ledger.endWhere reason p).map IssuedSession.token = ledger.map IssuedSession.token := by
  rw [endWhere, List.map_map]
  refine List.map_congr_left fun issued _ => ?_
  show (if _ then _ else issued).token = issued.token
  split <;> rfl

theorem map_token_use (token : JSString) (now : Nat) (ledger : Ledger) :
    (ledger.use token now).map IssuedSession.token = ledger.map IssuedSession.token := by
  rw [use, List.map_map]
  refine List.map_congr_left fun issued _ => ?_
  show (if _ then _ else issued).token = issued.token
  split <;> rfl

theorem map_token_evict (count : Nat) (ledger : Ledger) :
    (ledger.evict count).map IssuedSession.token = ledger.map IssuedSession.token := by
  induction ledger generalizing count with
  | nil => cases count <;> rfl
  | cons issued rest ih =>
      cases count with
      | zero => rfl
      | succ count =>
          rw [evict]
          split
          · rw [List.map_cons, ih, List.map_cons]
          · rw [List.map_cons, ih, List.map_cons]

/-- A session to which the end does not apply. -/
theorem mem_endWhere {reason : SessionEnd} {p : IssuedSession → Bool} (h : issued ∈ ledger)
    (hp : p issued = false) : issued ∈ ledger.endWhere reason p := by
  refine List.mem_map.mpr ⟨issued, h, if_neg ?_⟩
  rw [hp, Bool.and_false]
  exact Bool.false_ne_true

theorem mem_use {now : Nat} (h : issued ∈ ledger) (hne : issued.token ≠ token) :
    issued ∈ ledger.use token now := by
  refine List.mem_map.mpr ⟨issued, h, if_neg ?_⟩
  rw [beq_false_of_ne hne, Bool.and_false]
  exact Bool.false_ne_true

/-- A live session stays, or is evicted. -/
theorem mem_evict (count : Nat) (h : issued ∈ ledger) (hlive : issued.ended = none) :
    issued ∈ ledger.evict count ∨ { issued with ended := some .evicted } ∈ ledger.evict count := by
  induction ledger generalizing count with
  | nil => cases h
  | cons first rest ih =>
      cases count with
      | zero => exact .inl h
      | succ count =>
          rw [evict]
          rcases List.mem_cons.mp h with rfl | h
          · rw [if_pos (by rw [hlive]; rfl)]
            exact .inr List.mem_cons_self
          · split
            · exact (ih count h).imp (List.mem_cons_of_mem _) (List.mem_cons_of_mem _)
            · exact (ih (count + 1) h).imp (List.mem_cons_of_mem _) (List.mem_cons_of_mem _)

theorem token_of_find (h : (ledger.find? fun issued => issued.token == token) = some issued) :
    issued.token = token := by
  have hfound := List.find?_some h
  exact eq_of_beq hfound

/-- The tokens tell the sessions apart. -/
theorem eq_of_token (hnodup : (ledger.map IssuedSession.token).Nodup) {other : IssuedSession}
    (h : issued ∈ ledger) (hother : other ∈ ledger) (htoken : issued.token = other.token) :
    issued = other := List.inj_on_of_nodup_map hnodup h hother htoken

end Lists

end Ledger

/-! ## Runs -/

namespace ManagementAuthenticator

variable (a : ManagementAuthenticator)

/-- The time until which a session may be used. -/
def expiresAt (issued : IssuedSession) : Nat :=
  min (issued.loginAt + a.absoluteTimeoutMs) (issued.usedAt + a.idleTimeoutMs)

/-- A session that is too old. -/
def timedOut (now : Nat) (issued : IssuedSession) : Bool := a.expiresAt issued < now

/-- What a login does to the ledger. -/
def recordLogin (now : Nat) (token csrfToken : JSString) (ledger : Ledger) : Ledger :=
  let ledger := ledger.endWhere .expired (a.timedOut now)
  ledger.evict (ledger.live.length - (MAX_SESSIONS - 1)) ++ [⟨token, csrfToken, now, now, none⟩]

/-- What a request with a token does to the ledger. -/
def recordUse (token : JSString) (now : Nat) (ledger : Ledger) : Ledger :=
  match ledger.live.find? fun issued => issued.token == token with
  | none => ledger
  | some issued =>
      if a.timedOut now issued = true then
        ledger.endWhere .expired fun issued => issued.token == token
      else ledger.use token now

/-- What the map `sessions` holds of a session. -/
def storedEntry (issued : IssuedSession) : JSString × StoredSession :=
  (a.hashValue issued.token, ⟨a.username, issued.csrfToken, issued.loginAt, issued.usedAt⟩)

end ManagementAuthenticator

/-- An authenticator, the logins that wait for their derivation, and the ledger. -/
structure SessionRun where
  auth : AuthState
  waiting : List LoginCall
  ledger : Ledger

/-- The calls; `now` is what the clock reads. -/
inductive SessionEvent where
  | login (username password clientKey : JSString) (now : Nat)
  | derived (index : Nat) (token csrfToken : JSString)
  | derivationFails (index : Nat)
  | session (cookieHeader : Option JSString) (now : Nat)
  | logout (cookieHeader : Option JSString)

namespace SessionRun

variable (a : ManagementAuthenticator)

def new : SessionRun := ⟨.new, [], []⟩

def step (s : SessionRun) : SessionEvent → Option SessionRun
  | .login username password clientKey now =>
      match a.beginLogin username password clientKey now s.auth with
      | .error _ => some s
      | .ok call => some { s with waiting := s.waiting ++ [call] }
  | .derived index token csrfToken => s.waiting[index]?.map fun call =>
      { auth := (a.completeLogin call token csrfToken s.auth).2
        waiting := s.waiting.eraseIdx index
        ledger :=
          if a.matchesCredential call = true then a.recordLogin call.now token csrfToken s.ledger
          else s.ledger }
  | .derivationFails index => s.waiting[index]?.map fun _ =>
      { s with waiting := s.waiting.eraseIdx index }
  | .session cookieHeader now => some
      { s with
        auth := (a.session cookieHeader now s.auth).2
        ledger := match readCookie cookieHeader a.cookieName with
          | none => s.ledger
          | some token => a.recordUse token now s.ledger }
  | .logout cookieHeader => some
      { s with
        auth := (a.logout cookieHeader s.auth).2
        ledger := match readCookie cookieHeader a.cookieName with
          | none => s.ledger
          | some token => s.ledger.endWhere .loggedOut fun issued => issued.token == token }

/-- The runs of a new authenticator. -/
def system : System SessionRun SessionEvent := ⟨new, step a⟩

/-- The random tokens are all different. -/
def FreshTokens (s : SessionRun) : SessionEvent → Prop
  | .derived _ token _ => ∀ issued ∈ s.ledger, issued.token ≠ token
  | _ => True

/-! ## The map of the sessions -/

/-- The map holds the live sessions of the ledger, in their order. -/
structure Refines (s : SessionRun) : Prop where
  sessions : s.auth.sessions = s.ledger.live.map a.storedEntry
  bounded : s.ledger.live.length ≤ MAX_SESSIONS
  tokens : (s.ledger.map IssuedSession.token).Nodup

section Refinement

variable {a} {s t : SessionRun} {token : JSString} {now : Nat} {issued : IssuedSession}

theorem isExpired_storedEntry (a : ManagementAuthenticator) (now : Nat) (issued : IssuedSession) :
    a.isExpired now (a.storedEntry issued).2 = a.timedOut now issued := by
  unfold ManagementAuthenticator.isExpired ManagementAuthenticator.timedOut
    ManagementAuthenticator.expiresAt ManagementAuthenticator.storedEntry
  rw [Bool.eq_iff_iff, Bool.or_eq_true, decide_eq_true_iff, decide_eq_true_iff, decide_eq_true_iff]
  dsimp only
  omega

/-- The keys are as different as the tokens. -/
theorem storedEntry_fst_beq (hhash : Function.Injective a.hashValue) (token : JSString)
    (issued : IssuedSession) :
    ((a.storedEntry issued).1 == a.hashValue token) = (issued.token == token) := by
  rw [Bool.eq_iff_iff, beq_iff_eq, beq_iff_eq]
  exact hhash.eq_iff

/-- What the map holds for a token. -/
theorem Refines.storedSession (h : Refines a s) (hhash : Function.Injective a.hashValue)
    (token : JSString) : ManagementAuthenticator.storedSession (a.hashValue token) s.auth
      = (s.ledger.live.find? fun issued => issued.token == token).map
        fun issued => (a.storedEntry issued).2 := by
  unfold ManagementAuthenticator.storedSession
  rw [h.sessions, List.find?_map, Option.map_map]
  congr 2
  funext issued
  exact storedEntry_fst_beq hhash token issued

theorem filter_storedEntry {p : JSString × StoredSession → Bool} {q : IssuedSession → Bool}
    (h : ∀ issued, p (a.storedEntry issued) = q issued) (sessions : List IssuedSession) :
    (sessions.map a.storedEntry).filter p = (sessions.filter q).map a.storedEntry := by
  rw [List.filter_map]
  congr 2
  funext issued
  exact h issued

/-- **A login** keeps the map in line with the ledger. -/
theorem Refines.login (h : Refines a s) (hhash : Function.Injective a.hashValue) (call : LoginCall)
    (csrfToken : JSString) (hfresh : ∀ issued ∈ s.ledger, issued.token ≠ token)
    (waiting : List LoginCall) :
    Refines a ⟨(a.openSession call token csrfToken s.auth).2, waiting,
      a.recordLogin call.now token csrfToken s.ledger⟩ := by
  have htokens : ∀ count, ((s.ledger.endWhere .expired (a.timedOut call.now)).evict count).map
      IssuedSession.token = s.ledger.map IssuedSession.token := by
    intro count
    rw [Ledger.map_token_evict, Ledger.map_token_endWhere]
  have hpruned : s.auth.sessions.filter (fun entry => !a.isExpired call.now entry.2)
      = (s.ledger.endWhere .expired (a.timedOut call.now)).live.map a.storedEntry := by
    rw [h.sessions, Ledger.live_endWhere]
    exact filter_storedEntry (fun issued => by rw [isExpired_storedEntry]) _
  have hlive : (a.recordLogin call.now token csrfToken s.ledger).live
      = (s.ledger.endWhere .expired (a.timedOut call.now)).live.drop
          ((s.ledger.endWhere .expired (a.timedOut call.now)).live.length - (MAX_SESSIONS - 1))
        ++ [⟨token, csrfToken, call.now, call.now, none⟩] := by
    unfold ManagementAuthenticator.recordLogin
    dsimp only
    rw [← Ledger.live_evict]
    unfold Ledger.live
    rw [List.filter_append]
    rfl
  refine ⟨?_, ?_, ?_⟩
  · have hnew : ((s.ledger.endWhere .expired (a.timedOut call.now)).live.drop
        ((s.ledger.endWhere .expired (a.timedOut call.now)).live.length - (MAX_SESSIONS - 1))).any
          (fun issued => issued.token == token) = false := by
      rw [List.any_eq_false]
      intro issued hissued
      have hmem : issued.token ∈ s.ledger.map IssuedSession.token := by
        rw [← htokens 0, Ledger.evict]
        exact List.mem_map_of_mem (List.mem_filter.mp (List.mem_of_mem_drop hissued)).1
      obtain ⟨other, hother, heq⟩ := List.mem_map.mp hmem
      exact fun hsame => hfresh other hother (heq.trans (eq_of_beq hsame))
    have hmap : ∀ sessions : List IssuedSession,
        (sessions.map a.storedEntry).any (fun entry => entry.1 == a.hashValue token)
          = sessions.any fun issued => issued.token == token := by
      intro sessions
      rw [List.any_map]
      congr 1
      funext issued
      exact storedEntry_fst_beq hhash token issued
    show ManagementAuthenticator.setSession (a.hashValue token) _
      (ManagementAuthenticator.makeRoom
        (s.auth.sessions.filter fun entry => !a.isExpired call.now entry.2)) = _
    rw [hpruned, hlive]
    unfold ManagementAuthenticator.makeRoom ManagementAuthenticator.setSession
    rw [List.length_map, ← List.map_drop, hmap, hnew, if_neg Bool.false_ne_true, List.map_append]
    rfl
  · show (a.recordLogin call.now token csrfToken s.ledger).live.length ≤ MAX_SESSIONS
    rw [hlive, List.length_append, List.length_drop, List.length_singleton]
    unfold MAX_SESSIONS
    omega
  · show ((a.recordLogin call.now token csrfToken s.ledger).map IssuedSession.token).Nodup
    unfold ManagementAuthenticator.recordLogin
    dsimp only
    rw [List.map_append, htokens, List.nodup_append]
    refine ⟨h.tokens, List.nodup_singleton _, fun old hold new hnew heq => ?_⟩
    obtain ⟨issued, hissued, rfl⟩ := List.mem_map.mp hold
    exact hfresh issued hissued (heq.trans (List.mem_singleton.mp hnew))

/-- Some live sessions end. -/
theorem Refines.endWhere (h : Refines a s) (reason : SessionEnd) {p : IssuedSession → Bool}
    {q : JSString × StoredSession → Bool} (hq : ∀ issued, q (a.storedEntry issued) = !p issued)
    (auth : AuthState) (hauth : auth.sessions = s.auth.sessions.filter q) :
    Refines a ⟨auth, s.waiting, s.ledger.endWhere reason p⟩ where
  sessions := by
    show auth.sessions = (s.ledger.endWhere reason p).live.map a.storedEntry
    rw [hauth, h.sessions, Ledger.live_endWhere]
    exact filter_storedEntry hq _
  bounded := by
    show (s.ledger.endWhere reason p).live.length ≤ MAX_SESSIONS
    rw [Ledger.live_endWhere]
    exact (List.length_filter_le _ _).trans h.bounded
  tokens := by
    show ((s.ledger.endWhere reason p).map IssuedSession.token).Nodup
    rw [Ledger.map_token_endWhere]
    exact h.tokens

/-- The live session with a token. -/
theorem find?_live (h : Refines a s) (htoken : issued.token = token) :
    (s.ledger.live.find? fun other => other.token == token) = some issued ↔
      issued ∈ s.ledger ∧ issued.ended = none := by
  constructor
  · intro hfind
    obtain ⟨hmem, hlive⟩ := List.mem_filter.mp (List.mem_of_find?_eq_some hfind)
    exact ⟨hmem, Option.isNone_iff_eq_none.mp hlive⟩
  · rintro ⟨hmem, hlive⟩
    have hlist : issued ∈ s.ledger.live := List.mem_filter.mpr ⟨hmem, by rw [hlive]; rfl⟩
    obtain ⟨other, hother⟩ : ∃ other, (s.ledger.live.find? fun other => other.token == token)
        = some other :=
      Option.isSome_iff_exists.mp (List.find?_isSome.mpr ⟨issued, hlist, beq_iff_eq.mpr htoken⟩)
    have hsame : other.token = token := Ledger.token_of_find hother
    have hmemOther := (List.mem_filter.mp (List.mem_of_find?_eq_some hother)).1
    rw [hother, Ledger.eq_of_token h.tokens hmemOther hmem (hsame.trans htoken.symm)]

/-- **A request with a token** keeps the map in line with the ledger, and is accepted while the session of
the token may be used. -/
theorem Refines.request (h : Refines a s) (hhash : Function.Injective a.hashValue)
    {cookieHeader : Option JSString} (hcookie : readCookie cookieHeader a.cookieName = some token)
    (now : Nat) :
    Refines a ⟨(a.session cookieHeader now s.auth).2, s.waiting, a.recordUse token now s.ledger⟩ ∧
      (a.session cookieHeader now s.auth).1
        = ((s.ledger.live.find? fun issued => issued.token == token).filter
            fun issued => !a.timedOut now issued).map
              fun issued => a.publicSession { (a.storedEntry issued).2 with lastSeenAt := now } := by
  unfold ManagementAuthenticator.session ManagementAuthenticator.recordUse
  rw [hcookie]
  dsimp only
  rw [h.storedSession hhash]
  cases hfind : s.ledger.live.find? fun issued => issued.token == token with
  | none => exact ⟨⟨h.sessions, h.bounded, h.tokens⟩, rfl⟩
  | some issued =>
      have htoken : issued.token = token := Ledger.token_of_find hfind
      dsimp only [Option.map_some]
      rw [isExpired_storedEntry]
      by_cases htime : a.timedOut now issued = true
      · rw [if_pos htime, if_pos htime]
        refine ⟨h.endWhere .expired (fun other => ?_) _ rfl, ?_⟩
        · show (!((a.storedEntry other).1 == a.hashValue token)) = _
          rw [storedEntry_fst_beq hhash]
        · rw [Option.filter_some_neg (by simp [htime])]
          rfl
      · rw [if_neg htime, if_neg htime]
        refine ⟨⟨?_, ?_, ?_⟩, ?_⟩
        · have hany : (s.ledger.live.map a.storedEntry).any
              (fun entry => entry.1 == a.hashValue token) = true :=
            List.any_eq_true.mpr ⟨a.storedEntry issued,
              List.mem_map_of_mem (List.mem_of_find?_eq_some hfind), by
                rw [storedEntry_fst_beq hhash, htoken, beq_self_eq_true]⟩
          show ManagementAuthenticator.setSession (a.hashValue token) _ s.auth.sessions
            = (s.ledger.use token now).live.map a.storedEntry
          unfold ManagementAuthenticator.setSession
          rw [h.sessions, if_pos hany, Ledger.live_use, List.map_map, List.map_map]
          refine List.map_congr_left fun other hother => ?_
          show (if (a.storedEntry other).1 = a.hashValue token then _ else _)
            = a.storedEntry (if other.token = token then _ else other)
          by_cases hsame : other.token = token
          · have hkey : (a.storedEntry other).1 = a.hashValue token := congrArg a.hashValue hsame
            have hmem := (List.mem_filter.mp hother).1
            have hissued := (List.mem_filter.mp (List.mem_of_find?_eq_some hfind)).1
            obtain rfl := Ledger.eq_of_token h.tokens hmem hissued (hsame.trans htoken.symm)
            rw [if_pos hkey, if_pos hsame, ← hkey]
            rfl
          · have hkey : (a.storedEntry other).1 ≠ a.hashValue token := fun heq => hsame (hhash heq)
            rw [if_neg hkey, if_neg hsame]
        · show (s.ledger.use token now).live.length ≤ MAX_SESSIONS
          rw [Ledger.live_use, List.length_map]
          exact h.bounded
        · show ((s.ledger.use token now).map IssuedSession.token).Nodup
          rw [Ledger.map_token_use]
          exact h.tokens
        · rw [Option.filter_some_pos (by simpa using htime)]
          rfl

/-- **Every call keeps the map in line with the ledger.** -/
theorem Refines.step (h : Refines a s) (hhash : Function.Injective a.hashValue) {e : SessionEvent}
    (hfresh : FreshTokens s e) (hstep : SessionRun.step a s e = some t) : Refines a t := by
  cases e with
  | login username password clientKey now =>
      unfold SessionRun.step at hstep
      dsimp only at hstep
      split at hstep
      next =>
        obtain rfl := Option.some.inj hstep
        exact h
      next =>
        obtain rfl := Option.some.inj hstep
        exact ⟨h.sessions, h.bounded, h.tokens⟩
  | derived index token csrfToken =>
      obtain ⟨call, -, rfl⟩ := Option.map_eq_some_iff.mp hstep
      by_cases hmatch : a.matchesCredential call = true
      · have hlogin := h.login hhash call csrfToken hfresh (s.waiting.eraseIdx index)
        unfold ManagementAuthenticator.completeLogin
        rw [if_pos hmatch, if_pos hmatch]
        exact hlogin
      · have hsessions : (a.completeLogin call token csrfToken s.auth).2.sessions = s.auth.sessions := by
          unfold ManagementAuthenticator.completeLogin
          rw [if_neg hmatch]
          show (s.auth.recordFailure call).2.sessions = _
          unfold AuthState.recordFailure
          dsimp only
          split
          · split <;> rfl
          · rfl
        rw [if_neg hmatch]
        exact ⟨hsessions.trans h.sessions, h.bounded, h.tokens⟩
  | derivationFails index =>
      obtain ⟨call, -, rfl⟩ := Option.map_eq_some_iff.mp hstep
      exact ⟨h.sessions, h.bounded, h.tokens⟩
  | session cookieHeader now =>
      obtain rfl := Option.some.inj hstep
      cases hcookie : readCookie cookieHeader a.cookieName with
      | none =>
          refine ⟨?_, h.bounded, h.tokens⟩
          show (a.session cookieHeader now s.auth).2.sessions = _
          unfold ManagementAuthenticator.session
          rw [hcookie]
          exact h.sessions
      | some token => exact (h.request hhash hcookie now).1
  | logout cookieHeader =>
      obtain rfl := Option.some.inj hstep
      cases hcookie : readCookie cookieHeader a.cookieName with
      | none =>
          refine ⟨?_, h.bounded, h.tokens⟩
          show (a.logout cookieHeader s.auth).2.sessions = _
          unfold ManagementAuthenticator.logout
          rw [hcookie]
          exact h.sessions
      | some token =>
          refine h.endWhere (q := fun entry => entry.1 != a.hashValue token) .loggedOut
            (fun other => ?_) (a.logout cookieHeader s.auth).2 ?_
          · show (!((a.storedEntry other).1 == a.hashValue token)) = _
            rw [storedEntry_fst_beq hhash]
          · unfold ManagementAuthenticator.logout
            rw [hcookie]

theorem refines_reachable (hhash : Function.Injective a.hashValue)
    (h : (system a).Reachable FreshTokens s) : Refines a s :=
  h.invariant ⟨rfl, Nat.zero_le _, List.nodup_nil⟩
    fun _ _ _ _ hfresh hs hstep => hs.step hhash hfresh hstep

end Refinement

/-! ## What is accepted -/

/-- The session a token may be used for. -/
def Accepts (s : SessionRun) (token : JSString) (now : Nat) (issued : IssuedSession) : Prop :=
  issued ∈ s.ledger ∧ issued.token = token ∧ issued.ended = none ∧ now ≤ a.expiresAt issued

/-- A call that succeeds for a token, and reports until when its session may be used. -/
inductive Reports : SessionRun → JSString → Nat → SessionRun → Prop
  | login {s t : SessionRun} {index : Nat} {call : LoginCall} {token csrfToken : JSString}
      {result : ManagementSession} : s.waiting[index]? = some call →
      (a.completeLogin call token csrfToken s.auth).1.session = some result →
      FreshTokens s (.derived index token csrfToken) →
      step a s (.derived index token csrfToken) = some t → Reports s token result.expiresAt t
  | session {s t : SessionRun} {cookieHeader : Option JSString} {now : Nat} {token : JSString}
      {result : ManagementSession} : readCookie cookieHeader a.cookieName = some token →
      (a.session cookieHeader now s.auth).1 = some result →
      step a s (.session cookieHeader now) = some t → Reports s token result.expiresAt t

/-- A session that was evicted. -/
def Evicted (s : SessionRun) (token : JSString) : Prop :=
  ∃ issued ∈ s.ledger, issued.token = token ∧ issued.ended = some .evicted

/-- No request and no logout with the token; the logins that succeed read a clock that `bound` allows. -/
def Quiet (token : JSString) (bound : Nat → Prop) (s : SessionRun) : SessionEvent → Prop
  | .session cookieHeader _ | .logout cookieHeader => readCookie cookieHeader a.cookieName ≠ some token
  | .derived index _ _ => ∀ call, s.waiting[index]? = some call → a.matchesCredential call = true →
      bound call.now
  | _ => True

/-- What may happen between two requests with a token: its session is neither used, nor logged out, nor
evicted. -/
inductive Between (token : JSString) (bound : Nat → Prop) : SessionRun → SessionRun → Prop
  | refl (s : SessionRun) : Between token bound s s
  | step {s t u : SessionRun} {e : SessionEvent} : Between token bound s t → FreshTokens t e →
      Quiet a token bound t e → step a t e = some u → ¬ Evicted u token → Between token bound s u

section Accepted

variable {a} {s t u : SessionRun} {token : JSString} {now limit : Nat} {issued : IssuedSession}

theorem timedOut_eq_false_iff : a.timedOut now issued = false ↔ now ≤ a.expiresAt issued := by
  unfold ManagementAuthenticator.timedOut
  rw [decide_eq_false_iff_not, Nat.not_lt]

/-- **Which requests are accepted**: those whose token is of a live session that may still be used. -/
theorem Refines.accepts_iff (h : Refines a s) (hhash : Function.Injective a.hashValue)
    {cookieHeader : Option JSString} (hcookie : readCookie cookieHeader a.cookieName = some token)
    (now : Nat) : (a.session cookieHeader now s.auth).1.isSome = true ↔
      ∃ issued, Accepts a s token now issued := by
  rw [(h.request hhash hcookie now).2, Option.isSome_map, Option.isSome_iff_exists]
  constructor
  · rintro ⟨issued, hfound⟩
    obtain ⟨hfind, htime⟩ := Option.filter_eq_some_iff.mp hfound
    have htoken : issued.token = token := Ledger.token_of_find hfind
    obtain ⟨hmem, hlive⟩ := (find?_live h htoken).mp hfind
    exact ⟨issued, hmem, htoken, hlive, timedOut_eq_false_iff.mp (by simpa using htime)⟩
  · rintro ⟨issued, hmem, htoken, hlive, htime⟩
    refine ⟨issued, Option.filter_eq_some_iff.mpr ⟨(find?_live h htoken).mpr ⟨hmem, hlive⟩, ?_⟩⟩
    rw [timedOut_eq_false_iff.mpr htime]
    rfl

/-- A live session of the ledger that may be used until `limit`. -/
def Lives (a : ManagementAuthenticator) (s : SessionRun) (token : JSString) (limit : Nat) : Prop :=
  ∃ issued ∈ s.ledger, issued.token = token ∧ issued.ended = none ∧ limit = a.expiresAt issued

/-- What a call reports is what the ledger says. -/
theorem Reports.lives (h : Reports a s token limit t) (hs : Refines a s)
    (hhash : Function.Injective a.hashValue) : Lives a t token limit := by
  cases h with
  | @login _ index call _ csrfToken result hcall hresult hfresh hstep =>
      obtain ⟨other, hother, rfl⟩ := Option.map_eq_some_iff.mp hstep
      obtain rfl := Option.some.inj (hother.symm.trans hcall)
      have hmatch : a.matchesCredential other = true := by
        by_contra hne
        unfold ManagementAuthenticator.completeLogin at hresult
        rw [if_neg hne] at hresult
        cases hresult
      unfold ManagementAuthenticator.completeLogin at hresult
      rw [if_pos hmatch] at hresult
      obtain rfl := Option.some.inj hresult
      refine ⟨⟨token, csrfToken, other.now, other.now, none⟩, ?_, rfl, rfl, rfl⟩
      show _ ∈ if a.matchesCredential other = true then _ else _
      rw [if_pos hmatch]
      exact List.mem_append_right _ (List.mem_singleton_self _)
  | @session _ cookieHeader now _ result hcookie hresult hstep =>
      obtain rfl := Option.some.inj hstep
      rw [(hs.request hhash hcookie now).2, Option.map_eq_some_iff] at hresult
      obtain ⟨issued, hfound, rfl⟩ := hresult
      obtain ⟨hfind, htime⟩ := Option.filter_eq_some_iff.mp hfound
      have htoken : issued.token = token := Ledger.token_of_find hfind
      obtain ⟨hmem, hlive⟩ := (find?_live hs htoken).mp hfind
      refine ⟨{ issued with usedAt := now }, ?_, htoken, hlive, rfl⟩
      show _ ∈ match readCookie cookieHeader a.cookieName with
        | none => s.ledger
        | some token => a.recordUse token now s.ledger
      rw [hcookie]
      dsimp only
      unfold ManagementAuthenticator.recordUse
      rw [hfind]
      dsimp only
      rw [if_neg (by simpa using htime)]
      refine List.mem_map.mpr ⟨issued, hmem, if_pos ?_⟩
      rw [hlive, htoken, beq_self_eq_true]
      rfl

/-- **Nothing in between ends a session.** -/
theorem Lives.step (h : Lives a s token limit) {e : SessionEvent}
    (hquiet : Quiet a token (· ≤ limit) s e) (hstep : SessionRun.step a s e = some t)
    (hevicted : ¬ Evicted t token) : Lives a t token limit := by
  obtain ⟨issued, hmem, htoken, hlive, hlimit⟩ := h
  have hother : ∀ {other : JSString}, other ≠ token →
      (fun issued : IssuedSession => issued.token == other) issued = false := by
    intro other hne
    exact beq_false_of_ne fun heq => hne (heq.symm.trans htoken)
  refine ⟨issued, ?_, htoken, hlive, hlimit⟩
  cases e with
  | login username password clientKey now =>
      unfold SessionRun.step at hstep
      dsimp only at hstep
      split at hstep <;> (obtain rfl := Option.some.inj hstep; exact hmem)
  | derived index token' csrfToken =>
      obtain ⟨call, hcall, rfl⟩ := Option.map_eq_some_iff.mp hstep
      show issued ∈ if a.matchesCredential call = true then _ else _
      split
      next hmatch =>
        have hbound : call.now ≤ limit := hquiet call hcall hmatch
        have hkept : issued ∈ s.ledger.endWhere .expired (a.timedOut call.now) :=
          Ledger.mem_endWhere hmem (timedOut_eq_false_iff.mpr (hlimit ▸ hbound))
        rcases Ledger.mem_evict ((s.ledger.endWhere .expired (a.timedOut call.now)).live.length
          - (MAX_SESSIONS - 1)) hkept hlive with hstays | hgone
        · exact List.mem_append_left _ hstays
        · refine absurd ⟨{ issued with ended := some .evicted }, ?_, htoken, rfl⟩ hevicted
          show _ ∈ if a.matchesCredential call = true then _ else _
          rw [if_pos hmatch]
          exact List.mem_append_left _ hgone
      next => exact hmem
  | derivationFails index =>
      obtain ⟨call, -, rfl⟩ := Option.map_eq_some_iff.mp hstep
      exact hmem
  | session cookieHeader now =>
      obtain rfl := Option.some.inj hstep
      show issued ∈ match readCookie cookieHeader a.cookieName with
        | none => s.ledger
        | some token => a.recordUse token now s.ledger
      cases hcookie : readCookie cookieHeader a.cookieName with
      | none => exact hmem
      | some other =>
          have hne : other ≠ token := fun heq => hquiet (heq ▸ hcookie)
          dsimp only
          unfold ManagementAuthenticator.recordUse
          split
          · exact hmem
          · split
            · exact Ledger.mem_endWhere hmem (hother hne)
            · exact Ledger.mem_use hmem fun heq => hne (heq.symm.trans htoken)
  | logout cookieHeader =>
      obtain rfl := Option.some.inj hstep
      show issued ∈ match readCookie cookieHeader a.cookieName with
        | none => s.ledger
        | some token => s.ledger.endWhere .loggedOut fun issued => issued.token == token
      cases hcookie : readCookie cookieHeader a.cookieName with
      | none => exact hmem
      | some other =>
          exact Ledger.mem_endWhere hmem (hother fun heq => hquiet (heq ▸ hcookie))

theorem Between.lives (h : Between a token (· ≤ limit) s t) (hs : Lives a s token limit) :
    Lives a t token limit := by
  induction h with
  | refl => exact hs
  | step _ _ hquiet hstep hevicted ih => exact ih.step hquiet hstep hevicted

theorem Between.refines {bound : Nat → Prop} (h : Between a token bound s t)
    (hhash : Function.Injective a.hashValue) (hs : Refines a s) : Refines a t := by
  induction h with
  | refl => exact hs
  | step _ hfresh _ hstep _ ih => exact ih.step hhash hfresh hstep

theorem Reports.refines (h : Reports a s token limit t) (hhash : Function.Injective a.hashValue)
    (hs : Refines a s) : Refines a t := by
  cases h with
  | login _ _ hfresh hstep => exact hs.step hhash hfresh hstep
  | @session _ cookieHeader now _ _ _ _ hstep =>
      have hfresh : FreshTokens s (.session cookieHeader now) := trivial
      exact hs.step hhash hfresh hstep

end Accepted

/-- **The lifetime of a session**, for any readings of the clock: there are never more than
`MAX_SESSIONS`; a request is accepted exactly when its token is of a session that a login opened, that has
not ended, and that is within both its times; and until the next request with its token, a session that is
neither logged out nor evicted is accepted exactly up to the time that was reported, if no login in between
read a later clock. -/
theorem session_lifetime (a : ManagementAuthenticator) (hhash : Function.Injective a.hashValue)
    {s : SessionRun} (h : (system a).Reachable FreshTokens s) :
    s.auth.sessions.length ≤ MAX_SESSIONS ∧
    (∀ cookieHeader now, (a.session cookieHeader now s.auth).1.isSome = true ↔
      ∃ token, readCookie cookieHeader a.cookieName = some token ∧ ∃ issued ∈ s.ledger,
        issued.token = token ∧ issued.ended = none ∧ now ≤ issued.loginAt + a.absoluteTimeoutMs ∧
          now ≤ issued.usedAt + a.idleTimeoutMs) ∧
    (∀ token limit t u, Reports a s token limit t → Between a token (· ≤ limit) t u →
      ∀ cookieHeader now, readCookie cookieHeader a.cookieName = some token →
        ((a.session cookieHeader now u.auth).1.isSome = true ↔ now ≤ limit)) := by
  have hs := refines_reachable hhash h
  refine ⟨?_, ?_, ?_⟩
  · rw [hs.sessions, List.length_map]
    exact hs.bounded
  · intro cookieHeader now
    cases hcookie : readCookie cookieHeader a.cookieName with
    | none =>
        unfold ManagementAuthenticator.session
        rw [hcookie]
        exact iff_of_false Bool.false_ne_true fun ⟨_, hnone, _⟩ => nomatch hnone
    | some token =>
        rw [hs.accepts_iff hhash hcookie]
        constructor
        · rintro ⟨issued, hmem, htoken, hlive, htime⟩
          obtain ⟨habsolute, hidle⟩ := Nat.le_min.mp htime
          exact ⟨token, rfl, issued, hmem, htoken, hlive, habsolute, hidle⟩
        · rintro ⟨token', htoken', issued, hmem, htoken, hlive, habsolute, hidle⟩
          obtain rfl := Option.some.inj htoken'
          exact ⟨issued, hmem, htoken, hlive, Nat.le_min.mpr ⟨habsolute, hidle⟩⟩
  · intro token limit t u hreports hbetween cookieHeader now hcookie
    have ht := hreports.refines hhash hs
    have hu := hbetween.refines hhash ht
    obtain ⟨issued, hmem, htoken, hlive, hlimit⟩ := hbetween.lives (hreports.lives hs hhash)
    rw [hu.accepts_iff hhash hcookie]
    constructor
    · rintro ⟨other, hother, hotherToken, -, htime⟩
      obtain rfl := Ledger.eq_of_token hu.tokens hother hmem (hotherToken.trans htoken.symm)
      exact hlimit ▸ htime
    · exact fun htime => ⟨issued, hmem, htoken, hlive, hlimit ▸ htime⟩

/-! ## A clock that goes back -/

/-- An authenticator with short timeouts, whose hashes are the texts themselves. -/
def shortAuthenticator : ManagementAuthenticator where
  username := js "typr"
  secureCookies := false
  salt := []
  hash := [1]
  idleTimeoutMs := 10
  absoluteTimeoutMs := 100
  hashValue := id
  derivePassword := fun _ _ => [1]
  toLocaleLowerCase := id

/-- A token, and a cookie with it. -/
def tokenOf (c : Char) : JSString := List.replicate 43 (unit c)

def cookieOf (c : Char) : Option JSString := some (js "typr_management=" ++ tokenOf c)

/-- A login at a reading of the clock. -/
def loginAt (now : Nat) : SessionEvent := .login (js "typr") (js "password") (js "client") now

/-- The state after an event that can occur. -/
def next (s : SessionRun) (e : SessionEvent) : SessionRun := (step shortAuthenticator s e).getD s

theorem step_next {s : SessionRun} {e : SessionEvent}
    (h : (step shortAuthenticator s e).isSome = true) : step shortAuthenticator s e = some (s.next e) := by
  obtain ⟨t, ht⟩ := Option.isSome_iff_exists.mp h
  rw [next, ht, Option.getD_some]

/-- A login at 0. -/
def loggedIn : SessionRun := (new.next (loginAt 0)).next (.derived 0 (tokenOf 'a') (js "csrf"))

/-- Its first request. -/
def requested : SessionRun := loggedIn.next (.session (cookieOf 'a') 0)

theorem reachable_loggedIn : (system shortAuthenticator).Reachable FreshTokens loggedIn := by
  have hfresh : FreshTokens (new.next (loginAt 0)) (.derived 0 (tokenOf 'a') (js "csrf")) :=
    List.forall_mem_nil _
  have hlogin : FreshTokens new (loginAt 0) := trivial
  have hfirst : step shortAuthenticator new (loginAt 0) = some (new.next (loginAt 0)) :=
    step_next (by decide +kernel)
  have hsecond : step shortAuthenticator (new.next (loginAt 0)) (.derived 0 (tokenOf 'a') (js "csrf"))
      = some loggedIn := step_next (by decide +kernel)
  exact .step (.step .init hlogin hfirst) hfresh hsecond

/-- The request reports that the session may be used until 10. -/
theorem reports_requested : Reports shortAuthenticator loggedIn (tokenOf 'a') 10 requested := by
  have hresult : (shortAuthenticator.session (cookieOf 'a') 0 loggedIn.auth).1
      = some ⟨js "typr", js "csrf", 0, 10⟩ := by decide +kernel
  exact .session (by decide +kernel) hresult (step_next (by decide +kernel))

/-- Requests at 0 and 10. -/
theorem session_lifetime_used : loggedIn.auth.sessions.length ≤ MAX_SESSIONS ∧
    ((shortAuthenticator.session (cookieOf 'a') 10 requested.auth).1.isSome = true ↔ 10 ≤ 10) ∧
    ((shortAuthenticator.session (cookieOf 'a') 11 requested.auth).1.isSome = true ↔ 11 ≤ 10) := by
  have hlifetime := session_lifetime shortAuthenticator Function.injective_id reachable_loggedIn
  have hcookie : readCookie (cookieOf 'a') shortAuthenticator.cookieName = some (tokenOf 'a') := by
    decide +kernel
  exact ⟨hlifetime.1, hlifetime.2.2 _ _ _ _ reports_requested (.refl _) _ 10 hcookie,
    hlifetime.2.2 _ _ _ _ reports_requested (.refl _) _ 11 hcookie⟩

/-- Another login reads 100, and ends the session. -/
def prunedSession : SessionRun :=
  (requested.next (loginAt 100)).next (.derived 0 (tokenOf 'b') (js "csrf"))

/-- A session that may be used until 10 is refused at 5, though it was neither evicted nor logged out. -/
theorem session_pruned : ¬ ∀ a : ManagementAuthenticator, Function.Injective a.hashValue →
    ∀ s, (system a).Reachable FreshTokens s → ∀ token limit t u, Reports a s token limit t →
      Between a token (fun _ => True) t u → ∀ cookieHeader now,
        readCookie cookieHeader a.cookieName = some token →
        ((a.session cookieHeader now u.auth).1.isSome = true ↔ now ≤ limit) := by
  intro h
  have hevicted : ∀ s : SessionRun, (s.ledger.any fun issued =>
      issued.token == tokenOf 'a' && issued.ended == some .evicted) = false → ¬ Evicted s (tokenOf 'a') := by
    rintro s hnone ⟨issued, hmem, htoken, hended⟩
    have hissued := List.any_eq_false.mp hnone issued hmem
    rw [htoken, hended] at hissued
    exact hissued rfl
  have hfirst : FreshTokens requested (loginAt 100) := trivial
  have hsecond : FreshTokens (requested.next (loginAt 100)) (.derived 0 (tokenOf 'b') (js "csrf")) := by
    have hall : ((requested.next (loginAt 100)).ledger.all fun issued =>
        issued.token != tokenOf 'b') = true := by decide +kernel
    intro issued hissued
    have hne := List.all_eq_true.mp hall issued hissued
    exact fun heq => by simp [heq] at hne
  have hquiet : Quiet shortAuthenticator (tokenOf 'a') (fun _ => True) requested (loginAt 100) := trivial
  have hquiet' : Quiet shortAuthenticator (tokenOf 'a') (fun _ => True) (requested.next (loginAt 100))
      (.derived 0 (tokenOf 'b') (js "csrf")) := fun _ _ _ => trivial
  have hbetween : Between shortAuthenticator (tokenOf 'a') (fun _ => True) requested prunedSession :=
    .step (.step (.refl _) hfirst hquiet (step_next (by decide +kernel))
      (hevicted _ (by decide +kernel))) hsecond hquiet' (step_next (by decide +kernel))
      (hevicted _ (by decide +kernel))
  have hrefused : (shortAuthenticator.session (cookieOf 'a') 5 prunedSession.auth).1.isSome = false := by
    decide +kernel
  have haccepted := (h shortAuthenticator Function.injective_id loggedIn reachable_loggedIn (tokenOf 'a') 10
    requested prunedSession reports_requested hbetween (cookieOf 'a') 5 (by decide +kernel)).mpr (by decide)
  rw [hrefused] at haccepted
  cases haccepted

end SessionRun

end Typr
