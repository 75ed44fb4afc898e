import TyprCompanion.Core.TransitionSystem
import TyprCompanion.Management.Authenticator

/-!
# The lockout of the management login

What `login` counts when its calls overlap: each reads the failure record before it waits for the
password derivation, and writes it after.

* `Comparison`, `attempted` — the comparisons that were made, and the record that counts each.
* `Logins`, `Logins.step` — overlapping calls of `login`.
* `Accounted` — the record stored for a key, the records its calls hold, and the one that counts.
* **`Logins.locks_out`** — no failure is lost, and no more than `FAILURE_LIMIT` guesses are made before
  the first block, in every run whose calls only overlap where a record is shared and has room.
-/

namespace Typr

/-! ## The failures that count -/

/-- A comparison: when its call began, and whether it succeeded. -/
structure Comparison where
  now : Nat
  succeeded : Bool
  deriving DecidableEq

/-- The record with one failure more. -/
def countFailure (now : Nat) (state : Option LoginFailureState) : LoginFailureState :=
  match state with
  | none => (LoginFailureState.fresh now).failed now
  | some state =>
      if state.isCurrent now = true then state.failed now
      else (LoginFailureState.fresh now).failed now

/-- The record after one comparison more. -/
def countComparison (state : Option LoginFailureState) (comparison : Comparison) :
    Option LoginFailureState :=
  if comparison.succeeded = true then none else some (countFailure comparison.now state)

/-- The record that counts every failed comparison; a success clears it. -/
def attempted (comparisons : List Comparison) : Option LoginFailureState :=
  comparisons.foldl countComparison none

@[simp] theorem attempted_concat (comparisons : List Comparison) (comparison : Comparison) :
    attempted (comparisons ++ [comparison])
      = countComparison (attempted comparisons) comparison := by
  rw [attempted, List.foldl_append]
  rfl

/-! ## Overlapping calls -/

/-- An authenticator, the clock, the calls that wait for a derivation, and the comparisons made, by
the key of their failures. -/
structure Logins where
  auth : AuthState
  clock : Nat
  calls : JSString → List LoginCall
  comparisons : JSString → List Comparison

inductive LoginEvent where
  | tick (ms : Nat)
  | login (username password clientKey : JSString)
  /-- the derivation of a call succeeds, and the call goes on -/
  | derived (key : JSString) (index : Nat) (token csrfToken : JSString)
  /-- the derivation of a call fails, and so does the call -/
  | derivationFails (key : JSString) (index : Nat)
  | session (cookieHeader : Option JSString)
  | logout (cookieHeader : Option JSString)

namespace Logins

/-- A new authenticator. -/
def new : Logins := ⟨.new, 0, fun _ => [], fun _ => []⟩

/-- A call waits for its derivation. -/
def addCall (call : LoginCall) (s : Logins) : Logins :=
  { s with calls := Function.update s.calls call.failureKey (s.calls call.failureKey ++ [call]) }

/-- A call has settled. -/
def removeCall (key : JSString) (index : Nat) (s : Logins) : Logins :=
  { s with calls := Function.update s.calls key ((s.calls key).eraseIdx index) }

/-- A call makes its comparison. -/
def compare (a : ManagementAuthenticator) (key : JSString) (call : LoginCall)
    (token csrfToken : JSString) (s : Logins) : Logins :=
  { s with
    auth := (a.completeLogin call token csrfToken s.auth).2
    comparisons := Function.update s.comparisons key
      (s.comparisons key ++ [⟨call.now, a.matchesCredential call⟩]) }

def step (a : ManagementAuthenticator) (s : Logins) : LoginEvent → Option Logins
  | .tick ms => some { s with clock := s.clock + ms }
  | .login username password clientKey =>
      match a.beginLogin username password clientKey s.clock s.auth with
      | .error _ => some s
      | .ok call => some (s.addCall call)
  | .derived key index token csrfToken => (s.calls key)[index]?.map fun call =>
      (s.removeCall key index).compare a key call token csrfToken
  | .derivationFails key index => (s.calls key)[index]?.map fun _ => s.removeCall key index
  | .session cookieHeader => some { s with auth := (a.session cookieHeader s.clock s.auth).2 }
  | .logout cookieHeader => some { s with auth := (a.logout cookieHeader s.auth).2 }

/-- The runs of an authenticator. -/
def system (a : ManagementAuthenticator) : Core.System Logins LoginEvent := ⟨new, step a⟩

/-- **The lockout** of a key: no failure is lost, a block refuses every call that begins before its
end, and until the first one no more than `FAILURE_LIMIT` guesses are made or on their way. -/
structure LocksOut (a : ManagementAuthenticator) (s : Logins) (key : JSString) : Prop where
  counted : ∀ state, attempted (s.comparisons key) = some state →
    state.isCurrent s.clock = true ∨ s.clock < state.blockedUntil →
      s.auth.currentFailure key = some state
  blocks : ∀ state, attempted (s.comparisons key) = some state → FAILURE_LIMIT ≤ state.count →
    ∃ last, (s.comparisons key).getLast? = some last ∧
      last.now + BASE_LOCKOUT_MS ≤ state.blockedUntil
  refused : ∀ state, attempted (s.comparisons key) = some state → s.clock < state.blockedUntil →
    ∀ username password clientKey, a.failureKey clientKey username = key →
      a.beginLogin username password clientKey s.clock s.auth
        = .error ⟨false, some (state.retryAfterSeconds s.clock), none, none⟩
  bounded : (∀ state, attempted (s.comparisons key) = some state → state.count < FAILURE_LIMIT) →
    ((attempted (s.comparisons key)).elim 0 LoginFailureState.count) + (s.calls key).length
      ≤ FAILURE_LIMIT

/-- A record is stored that a further call will share, and it has room for the call. -/
def HasRoom (key : JSString) (s : Logins) : Prop :=
  ∃ state ∈ s.auth.currentFailure key, state.isCurrent s.clock = true ∧
    state.count + (s.calls key).length < FAILURE_LIMIT

/-- A call begins while another one of its key waits only where a current record has room for it, or
it is refused; and a guess succeeds only while no other one of its key waits. -/
def Overlaps (a : ManagementAuthenticator) (s : Logins) : LoginEvent → Prop
  | .login username password clientKey =>
      (a.beginLogin username password clientKey s.clock s.auth).isOk = false ∨
        s.calls (a.failureKey clientKey username) = [] ∨ s.HasRoom (a.failureKey clientKey username)
  | .derived key index _ _ => ∀ call ∈ (s.calls key)[index]?, a.matchesCredential call = true →
      (s.calls key).length = 1
  | _ => True

end Logins

/-! ## Records -/

/-- What a call holds: the record that counts, alone or shared and with room for all who wait, or
none. -/
def LoginCall.Holds (states : List LoginFailureState) (stored : Option Nat) (waiting : Nat)
    (counted : Option LoginFailureState) (call : LoginCall) : Prop :=
  match call.currentFailure with
  | some index => (stored = some index ∨ stored = none) ∧ ∃ state, states[index]? = some state ∧
      counted = some state ∧
        (waiting = 1 ∨ (state.isCurrent call.now = true ∧ state.count + waiting ≤ FAILURE_LIMIT))
  | none => stored = none ∧ waiting = 1 ∧
      ∀ state, counted = some state → state.isCurrent call.now = false

/-- **The records of a key**: the one stored is the one that counts, unless that one is over, and so
are the ones its calls hold. -/
structure Accounted (states : List LoginFailureState) (stored : Option Nat) (calls : List LoginCall)
    (counted : Option LoginFailureState) (clock : Nat) : Prop where
  counts : ∀ index, stored = some index → ∃ state, states[index]? = some state ∧
    counted = some state
  missing : stored = none → ∀ state, counted = some state →
    state.blockedUntil ≤ clock ∧ state.isCurrent clock = false
  before : ∀ call ∈ calls, call.now ≤ clock
  same : ∀ call ∈ calls, ∀ other ∈ calls, call.currentFailure = other.currentFailure
  holds : ∀ call ∈ calls, call.Holds states stored calls.length counted

/-- The records of a key in a state. -/
abbrev Logins.Accounts (s : Logins) (key : JSString) : Prop :=
  Accounted (s.auth.failureStates key) (s.auth.failures key) (s.calls key)
    (attempted (s.comparisons key)) s.clock

variable {a : ManagementAuthenticator} {s t : Logins} {key : JSString}
  {states : List LoginFailureState} {stored : Option Nat} {calls : List LoginCall}
  {counted : Option LoginFailureState} {clock : Nat} {call : LoginCall} {index : Nat}

theorem LoginFailureState.not_isCurrent_later {state : LoginFailureState} {now later : Nat}
    (h : state.isCurrent now = false) (hlater : now ≤ later) : state.isCurrent later = false := by
  simp only [isCurrent, decide_eq_false_iff_not] at h ⊢
  omega

theorem LoginFailureState.isCurrent_earlier {state : LoginFailureState} {now later : Nat}
    (h : state.isCurrent later = true) (hlater : now ≤ later) : state.isCurrent now = true := by
  simp only [isCurrent, decide_eq_true_eq] at h ⊢
  omega

namespace Accounted

theorem tick (h : Accounted states stored calls counted clock) (ms : Nat) :
    Accounted states stored calls counted (clock + ms) where
  counts := h.counts
  missing := by
    intro hnone state hstate
    obtain ⟨hblocked, hcurrent⟩ := h.missing hnone state hstate
    exact ⟨by omega, LoginFailureState.not_isCurrent_later hcurrent (Nat.le_add_right ..)⟩
  before := fun call hmem => Nat.le_add_right_of_le (h.before call hmem)
  same := h.same
  holds := h.holds

/-- A call begins; others wait only where it shares a record with room. -/
theorem begins (h : Accounted states stored calls counted clock) (hnow : call.now = clock)
    (hcall : call.currentFailure = stored)
    (hroom : calls = [] ∨ ∃ state ∈ stored.bind fun index => states[index]?,
      state.isCurrent clock = true ∧ state.count + calls.length < FAILURE_LIMIT) :
    Accounted states stored (calls ++ [call]) counted clock where
  counts := h.counts
  missing := h.missing
  before := by
    intro other hmem
    rcases List.mem_append.mp hmem with hmem | hmem
    · exact h.before other hmem
    · rw [List.mem_singleton.mp hmem, hnow]
  same := by
    -- a call that waits holds the record stored, or there is none
    have hheld : ∀ other ∈ calls ++ [call], other.currentFailure = stored := by
      intro other hmem
      rcases List.mem_append.mp hmem with hmem | hmem
      · rcases hroom with rfl | ⟨state, hstate, _⟩
        · exact absurd hmem List.not_mem_nil
        · obtain ⟨index, rfl, _⟩ := Option.bind_eq_some_iff.mp hstate
          have hholds := h.holds other hmem
          unfold LoginCall.Holds at hholds
          split at hholds
          next index' hother =>
            obtain ⟨hsame | hnone, _⟩ := hholds
            · exact hother.trans hsame.symm
            · cases hnone
          next => exact nomatch hholds.1
      · rw [List.mem_singleton.mp hmem, hcall]
    intro call hcall other hother
    rw [hheld call hcall, hheld other hother]
  holds := by
    intro other hmem
    rw [List.length_append, List.length_singleton]
    rcases hroom with rfl | ⟨state, hstate, hcurrent, hroom⟩
    · -- the only call
      obtain rfl : other = call := by simpa using hmem
      unfold LoginCall.Holds
      rw [hcall]
      cases stored with
      | none =>
          refine ⟨rfl, rfl, ?_⟩
          intro state hstate
          rw [hnow]
          exact (h.missing rfl state hstate).2
      | some index =>
          obtain ⟨state, hindex, hcounted⟩ := h.counts index rfl
          exact ⟨.inl rfl, state, hindex, hcounted, .inl rfl⟩
    · obtain ⟨index, rfl, hindex⟩ := Option.bind_eq_some_iff.mp hstate
      obtain ⟨state', hindex', hcounted⟩ := h.counts index rfl
      obtain rfl : state = state' := Option.some.inj (hindex.symm.trans hindex')
      rcases List.mem_append.mp hmem with hmem | hmem
      · have hholds := h.holds other hmem
        unfold LoginCall.Holds at hholds ⊢
        split at hholds
        next other' hother =>
          -- all of them hold the record stored
          obtain ⟨hsame | hnone, _⟩ := hholds
          · obtain rfl := Option.some.inj hsame
            exact ⟨.inl rfl, state, hindex, hcounted, .inr
              ⟨LoginFailureState.isCurrent_earlier hcurrent (h.before other hmem), hroom⟩⟩
          · cases hnone
        next => exact nomatch hholds.1
      · obtain rfl := List.mem_singleton.mp hmem
        unfold LoginCall.Holds
        rw [hcall]
        exact ⟨.inl rfl, state, hindex, hcounted, .inr ⟨by rw [hnow]; exact hcurrent, hroom⟩⟩

/-- A call that waits beside another one shares a current record, with room for both. -/
theorem shares (h : Accounted states stored calls counted clock) (hcall : calls[index]? = some call)
    {other : LoginCall} (hother : other ∈ calls.eraseIdx index) :
    ∃ ref state, other.currentFailure = some ref ∧ (stored = some ref ∨ stored = none) ∧
      states[ref]? = some state ∧ counted = some state ∧ state.isCurrent other.now = true ∧
        state.count + calls.length ≤ FAILURE_LIMIT := by
  obtain ⟨hlt, -⟩ := List.getElem?_eq_some_iff.mp hcall
  have hmore : calls.length ≠ 1 := by
    intro hone
    have hlength := List.length_pos_of_mem hother
    rw [List.length_eraseIdx_of_lt hlt] at hlength
    omega
  have hholds := h.holds other (List.mem_of_mem_eraseIdx hother)
  unfold LoginCall.Holds at hholds
  split at hholds
  next ref href =>
    obtain ⟨hstored, state, hstate, hcounted, hone | ⟨hcurrent, hroom⟩⟩ := hholds
    · exact absurd hone hmore
    · exact ⟨ref, state, href, hstored, hstate, hcounted, hcurrent, hroom⟩
  next => exact absurd hholds.2.1 hmore

/-- A call fails without a comparison. -/
theorem drops (h : Accounted states stored calls counted clock) (hcall : calls[index]? = some call) :
    Accounted states stored (calls.eraseIdx index) counted clock where
  counts := h.counts
  missing := h.missing
  before := fun other hmem => h.before other (List.mem_of_mem_eraseIdx hmem)
  same := fun other hmem other' hmem' =>
    h.same other (List.mem_of_mem_eraseIdx hmem) other' (List.mem_of_mem_eraseIdx hmem')
  holds := by
    intro other hmem
    obtain ⟨ref, state, href, hstored, hstate, hcounted, hcurrent, hroom⟩ := h.shares hcall hmem
    unfold LoginCall.Holds
    rw [href]
    have hlength := List.length_eraseIdx_le calls index
    exact ⟨hstored, state, hstate, hcounted, .inr ⟨hcurrent, by omega⟩⟩

/-- A failure of a call that holds a current record counts it up. -/
theorem failsShared (h : Accounted states stored calls counted clock)
    (hcall : calls[index]? = some call) {ref : Nat} {state : LoginFailureState}
    (href : call.currentFailure = some ref) (hstate : states[ref]? = some state)
    (hcurrent : state.isCurrent call.now = true) :
    Accounted (states.set ref (state.failed call.now)) (some ref) (calls.eraseIdx index)
      (countComparison counted ⟨call.now, false⟩) clock := by
  have hmem : call ∈ calls := List.mem_of_getElem? hcall
  have hcounted : counted = some state := by
    have hholds := h.holds call hmem
    unfold LoginCall.Holds at hholds
    rw [href] at hholds
    obtain ⟨_, state', hstate', hcounted, _⟩ := hholds
    rw [hcounted, ← hstate', hstate]
  have hcount : countComparison counted ⟨call.now, false⟩ = some (state.failed call.now) := by
    rw [hcounted]
    simp [countComparison, countFailure, hcurrent]
  have hset : (states.set ref (state.failed call.now))[ref]? = some (state.failed call.now) :=
    List.getElem?_set_self (List.getElem?_eq_some_iff.mp hstate).1
  rw [hcount]
  exact {
    counts := by
      intro index hindex
      obtain rfl := Option.some.inj hindex
      exact ⟨_, hset, rfl⟩
    missing := nofun
    before := fun other hother => h.before other (List.mem_of_mem_eraseIdx hother)
    same := fun other hother other' hother' =>
      h.same other (List.mem_of_mem_eraseIdx hother) other' (List.mem_of_mem_eraseIdx hother')
    holds := by
      intro other hother
      obtain ⟨ref', state', href', _, hstate', _, hcurrent', hroom⟩ := h.shares hcall hother
      have hsame := h.same call hmem other (List.mem_of_mem_eraseIdx hother)
      obtain rfl : ref = ref' := Option.some.inj (href.symm.trans (hsame.trans href'))
      obtain rfl : state = state' := Option.some.inj (hstate.symm.trans hstate')
      unfold LoginCall.Holds
      rw [href']
      refine ⟨.inl rfl, _, hset, rfl, .inr ⟨hcurrent', ?_⟩⟩
      rw [List.length_eraseIdx_of_lt (List.getElem?_eq_some_iff.mp hcall).1]
      show state.count + 1 + _ ≤ _
      have hlength := List.length_pos_of_mem hmem
      omega }

/-- A failure of a call without a current record begins a new one. -/
theorem failsAlone (h : Accounted states stored calls counted clock)
    (hcall : calls[index]? = some call)
    (hstale : ∀ ref state, call.currentFailure = some ref → states[ref]? = some state →
      state.isCurrent call.now = false) :
    Accounted (states ++ [(LoginFailureState.fresh call.now).failed call.now]) (some states.length)
      (calls.eraseIdx index) (countComparison counted ⟨call.now, false⟩) clock := by
  have hmem : call ∈ calls := List.mem_of_getElem? hcall
  -- no other call waits, and what counted is over
  have halone : calls.length = 1 ∧ ∀ state, counted = some state →
      state.isCurrent call.now = false := by
    have hholds := h.holds call hmem
    unfold LoginCall.Holds at hholds
    split at hholds
    next ref href =>
      obtain ⟨_, state, hstate, hcounted, hone | ⟨hcurrent, _⟩⟩ := hholds
      · refine ⟨hone, ?_⟩
        intro state' hstate'
        obtain rfl : state = state' := Option.some.inj (hcounted.symm.trans hstate')
        exact hstale ref state href hstate
      · rw [hstale ref state href hstate] at hcurrent
        cases hcurrent
    next => exact hholds.2
  have hnil : calls.eraseIdx index = [] := by
    rw [← List.length_eq_zero_iff,
      List.length_eraseIdx_of_lt (List.getElem?_eq_some_iff.mp hcall).1, halone.1]
  have hcount : countComparison counted ⟨call.now, false⟩
      = some ((LoginFailureState.fresh call.now).failed call.now) := by
    cases counted with
    | none => rfl
    | some state => simp [countComparison, countFailure, halone.2 state rfl]
  rw [hnil, hcount]
  exact {
    counts := by
      intro index hindex
      obtain rfl := Option.some.inj hindex
      exact ⟨_, List.getElem?_concat_length, rfl⟩
    missing := nofun
    before := nofun
    same := nofun
    holds := nofun }

/-- A guess succeeds while no other call waits. -/
theorem succeeds (hone : calls.length = 1) (hcall : calls[index]? = some call) :
    Accounted states none (calls.eraseIdx index) (countComparison counted ⟨call.now, true⟩)
      clock := by
  have hnil : calls.eraseIdx index = [] := by
    rw [← List.length_eq_zero_iff,
      List.length_eraseIdx_of_lt (List.getElem?_eq_some_iff.mp hcall).1, hone]
  rw [hnil]
  exact {
    counts := nofun
    missing := fun _ _ => nofun
    before := nofun
    same := nofun
    holds := nofun }

/-- A record that is over is removed. -/
theorem prunes (h : Accounted states stored calls counted clock) {now : Nat} (hnow : now ≤ clock)
    (hover : ∀ state, stored.bind (fun index => states[index]?) = some state →
      state.blockedUntil ≤ now ∧ state.isCurrent now = false) :
    Accounted states none calls counted clock where
  counts := nofun
  missing := by
    intro _ state hstate
    cases stored with
    | none => exact h.missing rfl state hstate
    | some index =>
        obtain ⟨state', hindex, hcounted⟩ := h.counts index rfl
        obtain rfl : state' = state := Option.some.inj (hcounted.symm.trans hstate)
        obtain ⟨hblocked, hcurrent⟩ := hover state' hindex
        exact ⟨hblocked.trans hnow, LoginFailureState.not_isCurrent_later hcurrent hnow⟩
  before := h.before
  same := h.same
  holds := by
    intro call hmem
    have hholds := h.holds call hmem
    unfold LoginCall.Holds at hholds ⊢
    split at hholds
    · exact ⟨.inr rfl, hholds.2⟩
    · exact ⟨rfl, hholds.2⟩

end Accounted

/-! ## Steps -/

namespace AuthState

variable {auth : AuthState}

/-- A failure only concerns the key of its call. -/
theorem recordFailure_of_ne (auth : AuthState) (h : key ≠ call.failureKey) :
    (auth.recordFailure call).2.failureStates key = auth.failureStates key ∧
      (auth.recordFailure call).2.failures key = auth.failures key := by
  unfold recordFailure
  dsimp only
  split
  · split
    · exact ⟨Function.update_of_ne h .., Function.update_of_ne h ..⟩
    · exact ⟨Function.update_of_ne h .., Function.update_of_ne h ..⟩
  · exact ⟨Function.update_of_ne h .., Function.update_of_ne h ..⟩

/-- A failure of one of the calls that wait is counted. -/
theorem recordFailure_accounts
    (h : Accounted (auth.failureStates call.failureKey) (auth.failures call.failureKey) calls counted
      clock) (hcall : calls[index]? = some call) :
    Accounted ((auth.recordFailure call).2.failureStates call.failureKey)
      ((auth.recordFailure call).2.failures call.failureKey) (calls.eraseIdx index)
      (countComparison counted ⟨call.now, false⟩) clock := by
  unfold recordFailure
  dsimp only
  split
  next ref state href hstate =>
    rw [failureState, href, Option.bind_some] at hstate
    split
    next hcurrent =>
      simp only [Function.update_self]
      exact h.failsShared hcall href hstate hcurrent
    next hcurrent =>
      simp only [Function.update_self]
      refine h.failsAlone hcall ?_
      intro ref' state' href' hstate'
      obtain rfl : ref = ref' := Option.some.inj (href.symm.trans href')
      obtain rfl : state = state' := Option.some.inj (hstate.symm.trans hstate')
      simpa using hcurrent
  next hnone =>
    simp only [Function.update_self]
    refine h.failsAlone hcall ?_
    intro ref state href hstate
    exact absurd (by rw [failureState, href, Option.bind_some, hstate]) (hnone ref state href)

end AuthState

namespace ManagementAuthenticator

/-- `prune` keeps a record, or it is over. -/
theorem prune_failures (now : Nat) (auth : AuthState) (key : JSString) :
    (a.prune now auth).failures key = auth.failures key ∨
      ((a.prune now auth).failures key = none ∧ ∀ state, auth.currentFailure key = some state →
        state.blockedUntil ≤ now ∧ state.isCurrent now = false) := by
  unfold prune
  dsimp only
  split
  next state hstate =>
    split
    next hover =>
      refine .inr ⟨rfl, ?_⟩
      intro state' hstate'
      obtain rfl : state = state' := Option.some.inj (hstate.symm.trans hstate')
      exact hover
    next => exact .inl rfl
  next => exact .inl rfl

/-- What a successful login does to the failures. -/
theorem openSession_failures (call : LoginCall) (token csrfToken : JSString) (auth : AuthState) :
    (a.openSession call token csrfToken auth).2.failureStates = auth.failureStates ∧
      (a.openSession call token csrfToken auth).2.failures call.failureKey = none ∧
      ∀ key, key ≠ call.failureKey →
        (a.openSession call token csrfToken auth).2.failures key = auth.failures key ∨
          ((a.openSession call token csrfToken auth).2.failures key = none ∧
            ∀ state, auth.currentFailure key = some state →
              state.blockedUntil ≤ call.now ∧ state.isCurrent call.now = false) := by
  refine ⟨rfl, ?_, ?_⟩
  · rcases a.prune_failures call.now
      { auth with failures := Function.update auth.failures call.failureKey none }
      call.failureKey with hkept | ⟨hnone, -⟩
    · exact hkept.trans (Function.update_self ..)
    · exact hnone
  · intro key hne
    have hkept : Function.update auth.failures call.failureKey none key = auth.failures key :=
      Function.update_of_ne hne ..
    rcases a.prune_failures call.now
      { auth with failures := Function.update auth.failures call.failureKey none } key with
      hsame | ⟨hnone, hover⟩
    · exact .inl (hsame.trans hkept)
    · refine .inr ⟨hnone, ?_⟩
      intro state hstate
      refine hover state ?_
      have hstate : auth.failureState key (auth.failures key) = some state := hstate
      rw [← hkept] at hstate
      exact hstate

end ManagementAuthenticator

namespace Logins

theorem addCall_self (call : LoginCall) (s : Logins) :
    (s.addCall call).calls call.failureKey = s.calls call.failureKey ++ [call] :=
  Function.update_self ..

theorem addCall_of_ne (h : key ≠ call.failureKey) : (s.addCall call).calls key = s.calls key :=
  Function.update_of_ne h ..

theorem removeCall_self (key : JSString) (index : Nat) (s : Logins) :
    (s.removeCall key index).calls key = (s.calls key).eraseIdx index :=
  Function.update_self ..

theorem removeCall_of_ne {other : JSString} (h : other ≠ key) :
    (s.removeCall key index).calls other = s.calls other :=
  Function.update_of_ne h ..

/-- The invariant of a run: each call waits under its key, and the records are accounted for. -/
structure Fair (s : Logins) : Prop where
  keyed : ∀ key, ∀ call ∈ s.calls key, call.failureKey = key
  accounts : ∀ key, s.Accounts key

theorem Fair.begins (h : s.Fair) {username password clientKey : JSString}
    (hcall : a.beginLogin username password clientKey s.clock s.auth = .ok call)
    (hoverlaps : s.Overlaps a (.login username password clientKey)) : (s.addCall call).Fair := by
  -- the call has read the record stored for its key
  have hread : call.failureKey = a.failureKey clientKey username ∧ call.now = s.clock ∧
      call.currentFailure = s.auth.failures call.failureKey := by
    unfold ManagementAuthenticator.beginLogin at hcall
    dsimp only at hcall
    split at hcall
    · split at hcall
      · cases hcall
      · obtain rfl := Except.ok.inj hcall
        exact ⟨rfl, rfl, rfl⟩
    · obtain rfl := Except.ok.inj hcall
      exact ⟨rfl, rfl, rfl⟩
  obtain ⟨hkey, hnow, hfailure⟩ := hread
  have hroom : s.calls call.failureKey = [] ∨ s.HasRoom call.failureKey := by
    rw [hkey]
    rcases hoverlaps with hrefused | hroom
    · rw [hcall] at hrefused
      cases hrefused
    · exact hroom
  constructor
  · intro key other hmem
    by_cases hother : key = call.failureKey
    · subst hother
      rw [addCall_self, List.mem_append, List.mem_singleton] at hmem
      rcases hmem with hmem | rfl
      · exact h.keyed _ other hmem
      · rfl
    · rw [addCall_of_ne hother] at hmem
      exact h.keyed key other hmem
  · intro key
    by_cases hother : key = call.failureKey
    · subst hother
      rw [Accounts, addCall_self]
      exact (h.accounts _).begins hnow hfailure hroom
    · rw [Accounts, addCall_of_ne hother]
      exact h.accounts key

/-- A call settles, and what it does to the records of its key and of the others. -/
theorem Fair.settles (h : s.Fair) {auth : AuthState} {comparisons : List Comparison}
    (hkey : Accounted (auth.failureStates key) (auth.failures key) ((s.calls key).eraseIdx index)
      (attempted comparisons) s.clock)
    (hothers : ∀ other, other ≠ key → Accounted (auth.failureStates other) (auth.failures other)
      (s.calls other) (attempted (s.comparisons other)) s.clock) :
    Fair { s.removeCall key index with
      auth := auth
      comparisons := Function.update s.comparisons key comparisons } := by
  constructor
  · intro other call hmem
    by_cases hother : other = key
    · subst hother
      have hmem : call ∈ (s.removeCall other index).calls other := hmem
      rw [removeCall_self] at hmem
      exact h.keyed _ call (List.mem_of_mem_eraseIdx hmem)
    · have hmem : call ∈ (s.removeCall key index).calls other := hmem
      rw [removeCall_of_ne hother] at hmem
      exact h.keyed other call hmem
  · intro other
    by_cases hother : other = key
    · subst hother
      show Accounted _ _ ((s.removeCall other index).calls other)
        (attempted (Function.update s.comparisons other comparisons other)) _
      rw [removeCall_self, Function.update_self]
      exact hkey
    · show Accounted _ _ ((s.removeCall key index).calls other)
        (attempted (Function.update s.comparisons key comparisons other)) _
      rw [removeCall_of_ne hother, Function.update_of_ne hother]
      exact hothers other hother

theorem Fair.compares (h : s.Fair) {token csrfToken : JSString}
    (hcall : (s.calls key)[index]? = some call)
    (hoverlaps : s.Overlaps a (.derived key index token csrfToken)) :
    ((s.removeCall key index).compare a key call token csrfToken).Fair := by
  obtain rfl := h.keyed key call (List.mem_of_getElem? hcall)
  have hclock : call.now ≤ s.clock := (h.accounts _).before call (List.mem_of_getElem? hcall)
  cases hmatches : a.matchesCredential call with
  | true =>
      have hone := hoverlaps call hcall hmatches
      have hcomplete : a.completeLogin call token csrfToken s.auth
          = a.openSession call token csrfToken s.auth := if_pos hmatches
      obtain ⟨hstates, hdeleted, hpruned⟩ := a.openSession_failures call token csrfToken s.auth
      refine h.settles ?_ ?_
      · rw [attempted_concat, hmatches]
        show Accounted _ ((a.completeLogin call token csrfToken s.auth).2.failures _) _ _ _
        rw [hcomplete, hdeleted]
        exact Accounted.succeeds hone hcall
      · intro other hother
        show Accounted ((a.completeLogin call token csrfToken s.auth).2.failureStates other)
          ((a.completeLogin call token csrfToken s.auth).2.failures other) _ _ _
        rw [hcomplete, hstates]
        rcases hpruned other hother with hkept | ⟨hnone, hover⟩
        · rw [hkept]
          exact h.accounts other
        · rw [hnone]
          exact (h.accounts other).prunes hclock hover
  | false =>
      have hcomplete : (a.completeLogin call token csrfToken s.auth).2
          = (s.auth.recordFailure call).2 := by
        rw [ManagementAuthenticator.completeLogin, if_neg (by rw [hmatches]; nofun)]
      refine h.settles ?_ ?_
      · rw [attempted_concat, hmatches]
        show Accounted ((a.completeLogin call token csrfToken s.auth).2.failureStates _)
          ((a.completeLogin call token csrfToken s.auth).2.failures _) _ _ _
        rw [hcomplete]
        exact AuthState.recordFailure_accounts (h.accounts _) hcall
      · intro other hother
        obtain ⟨hstates, hfailures⟩ := AuthState.recordFailure_of_ne s.auth hother
        show Accounted ((a.completeLogin call token csrfToken s.auth).2.failureStates other)
          ((a.completeLogin call token csrfToken s.auth).2.failures other) _ _ _
        rw [hcomplete, hstates, hfailures]
        exact h.accounts other

theorem Fair.step {event : LoginEvent} (h : s.Fair) (hoverlaps : s.Overlaps a event)
    (hstep : s.step a event = some t) : t.Fair := by
  cases event with
  | tick ms =>
      obtain rfl := Option.some.inj hstep
      exact ⟨h.keyed, fun key => (h.accounts key).tick ms⟩
  | login username password clientKey =>
      unfold Logins.step at hstep
      dsimp only at hstep
      split at hstep
      · exact Option.some.inj hstep ▸ h
      next call hcall => exact Option.some.inj hstep ▸ h.begins hcall hoverlaps
  | derived key index token csrfToken =>
      obtain ⟨call, hcall, rfl⟩ := Option.map_eq_some_iff.mp hstep
      exact h.compares hcall hoverlaps
  | derivationFails key index =>
      obtain ⟨call, hcall, rfl⟩ := Option.map_eq_some_iff.mp hstep
      have hsettled := h.settles ((h.accounts key).drops hcall) fun other _ => h.accounts other
      rwa [Function.update_eq_self] at hsettled
  | session cookieHeader =>
      obtain rfl := Option.some.inj hstep
      have hsame : (a.session cookieHeader s.clock s.auth).2.failureStates = s.auth.failureStates ∧
          (a.session cookieHeader s.clock s.auth).2.failures = s.auth.failures := by
        unfold ManagementAuthenticator.session
        split
        · exact ⟨rfl, rfl⟩
        · dsimp only
          split
          · exact ⟨rfl, rfl⟩
          · split <;> exact ⟨rfl, rfl⟩
      refine ⟨h.keyed, fun key => ?_⟩
      show Accounted ((a.session cookieHeader s.clock s.auth).2.failureStates key)
        ((a.session cookieHeader s.clock s.auth).2.failures key) _ _ _
      rw [hsame.1, hsame.2]
      exact h.accounts key
  | logout cookieHeader =>
      obtain rfl := Option.some.inj hstep
      have hsame : (a.logout cookieHeader s.auth).2.failureStates = s.auth.failureStates ∧
          (a.logout cookieHeader s.auth).2.failures = s.auth.failures := by
        unfold ManagementAuthenticator.logout
        split <;> exact ⟨rfl, rfl⟩
      refine ⟨h.keyed, fun key => ?_⟩
      show Accounted ((a.logout cookieHeader s.auth).2.failureStates key)
        ((a.logout cookieHeader s.auth).2.failures key) _ _ _
      rw [hsame.1, hsame.2]
      exact h.accounts key

theorem reachable_fair (h : (system a).Reachable (Overlaps a) s) : s.Fair := by
  refine h.invariant ?_ fun _ _ _ _ hoverlaps hs hstep => hs.step hoverlaps hstep
  exact ⟨fun _ _ => nofun, fun _ => ⟨nofun, fun _ _ => nofun, nofun, nofun, nofun⟩⟩

/-- A block lasts from the comparison that led to it. -/
theorem blocked_from_last {comparisons : List Comparison} {state : LoginFailureState}
    (h : attempted comparisons = some state) (hlimit : FAILURE_LIMIT ≤ state.count) :
    ∃ last, comparisons.getLast? = some last ∧ last.now + BASE_LOCKOUT_MS ≤ state.blockedUntil := by
  cases comparisons using List.reverseRecOn with
  | nil => cases h
  | append_singleton front last =>
      refine ⟨last, by simp, ?_⟩
      rw [attempted_concat, countComparison] at h
      split at h
      · cases h
      · obtain rfl := Option.some.inj h
        have hblocked (before : LoginFailureState) (hcount : FAILURE_LIMIT ≤ before.count + 1) :
            last.now + BASE_LOCKOUT_MS ≤ (before.failed last.now).blockedUntil := by
          have hshort : BASE_LOCKOUT_MS ≤ MAX_LOCKOUT_MS := by decide
          show _ ≤ lockedUntil (before.count + 1) last.now
          rw [lockedUntil, if_pos hcount]
          refine Nat.add_le_add_left (Nat.le_min.mpr ⟨hshort, ?_⟩) _
          exact Nat.le_mul_of_pos_right _ (Nat.two_pow_pos _)
        unfold countFailure at hlimit ⊢
        split at hlimit
        · exact hblocked _ hlimit
        · split at hlimit
          next hcurrent =>
            rw [if_pos hcurrent]
            exact hblocked _ hlimit
          next hcurrent =>
            rw [if_neg hcurrent]
            exact hblocked _ hlimit

/-- **The login locks out** in every run in which calls only overlap where a current record is
shared that has room for them. -/
theorem locks_out (h : (system a).Reachable (Overlaps a) s) (key : JSString) : s.LocksOut a key := by
  have haccounts := (reachable_fair h).accounts key
  have hcounted : ∀ state, attempted (s.comparisons key) = some state →
      state.isCurrent s.clock = true ∨ s.clock < state.blockedUntil →
        s.auth.currentFailure key = some state := by
    intro state hstate halive
    unfold AuthState.currentFailure AuthState.failureState
    cases hstored : s.auth.failures key with
    | none =>
        obtain ⟨hblocked, hcurrent⟩ := haccounts.missing hstored state hstate
        rw [hcurrent] at halive
        rcases halive with halive | halive
        · cases halive
        · exact absurd hblocked (Nat.not_le.mpr halive)
    | some index =>
        obtain ⟨state', hindex, hcounted⟩ := haccounts.counts index hstored
        rw [Option.bind_some, hindex, ← hstate, hcounted]
  exact {
    counted := hcounted
    blocks := fun state hstate hlimit => blocked_from_last hstate hlimit
    refused := by
      rintro state hstate hblocked username password clientKey rfl
      unfold ManagementAuthenticator.beginLogin
      dsimp only
      rw [hcounted state hstate (.inr hblocked)]
      exact if_pos hblocked
    bounded := by
      intro hfew
      by_cases hone : (s.calls key).length ≤ 1
      · cases hstate : attempted (s.comparisons key) with
        | none =>
            have hlimit : 1 ≤ FAILURE_LIMIT := by decide
            show 0 + _ ≤ _
            omega
        | some state =>
            have hlt := hfew state hstate
            show state.count + _ ≤ _
            omega
      · obtain ⟨call, hmem⟩ := List.exists_mem_of_length_pos (by omega : 0 < (s.calls key).length)
        have hholds := haccounts.holds call hmem
        unfold LoginCall.Holds at hholds
        split at hholds
        next =>
          obtain ⟨_, state, _, hcounted, hlength | ⟨_, hroom⟩⟩ := hholds
          · omega
          · rw [hcounted]
            exact hroom
        next => omega }

/-! ## Overlapping guesses -/

/-- An authenticator whose hashes are the texts themselves. -/
def plainAuthenticator : ManagementAuthenticator where
  username := js "typr"
  secureCookies := false
  salt := []
  hash := [1]
  idleTimeoutMs := DEFAULT_IDLE_TIMEOUT_MS
  absoluteTimeoutMs := DEFAULT_ABSOLUTE_TIMEOUT_MS
  hashValue := id
  derivePassword := fun password _ => password.map UInt16.toUInt8
  toLocaleLowerCase := id

/-- A guess of the password. -/
def guess : LoginEvent := .login (js "typr") (js "guess") (js "client")

/-- The key of the guesses. -/
def guessKey : JSString := plainAuthenticator.failureKey (js "client") (js "typr")

/-- Two guesses overlap. -/
def twoGuesses : List LoginEvent :=
  [guess, guess, .derived guessKey 0 [] [], .derived guessKey 0 [] []]

/-- Of two overlapping first failures one is lost. -/
theorem failure_lost : ¬ ∀ s, (system plainAuthenticator).Reachable (fun _ _ => True) s →
    ∀ key, s.LocksOut plainAuthenticator key := by
  intro hlocks
  have hreach : (system plainAuthenticator).Reachable (fun _ _ => True)
      ((system plainAuthenticator).after (fun _ _ => true) twoGuesses) :=
    Core.System.reachable_after (fun _ _ _ => trivial) _
  have hcounted := (hlocks _ hreach guessKey).counted ⟨2, 0, 0⟩ (by decide) (.inl (by decide))
  exact absurd hcounted (by decide)

instance (s : Logins) (key : JSString) : Decidable (s.HasRoom key) :=
  inferInstanceAs (Decidable (∃ state ∈ s.auth.currentFailure key, _ ∧ _))

instance (a : ManagementAuthenticator) (s : Logins) (event : LoginEvent) :
    Decidable (s.Overlaps a event) :=
  match event with
  | .login .. => inferInstanceAs (Decidable (_ ∨ _ ∨ _))
  | .derived key index _ _ => inferInstanceAs (Decidable (∀ call ∈ (s.calls key)[index]?, _ → _))
  | .tick _ | .derivationFails _ _ | .session _ | .logout _ => inferInstanceAs (Decidable True)

/-- A first guess fails, and the four after it overlap. -/
def fiveGuesses : List LoginEvent :=
  [guess, .derived guessKey 0 [] [], guess, guess, guess, guess, .derived guessKey 3 [] [],
    .derived guessKey 0 [] [], .derived guessKey 1 [] [], .derived guessKey 0 [] []]

/-- The fifth failure blocks the client. -/
theorem locks_out_fiveGuesses :
    let s := (system plainAuthenticator).after
      (fun s event => decide (s.Overlaps plainAuthenticator event)) fiveGuesses
    attempted (s.comparisons guessKey) = some ⟨5, 0, BASE_LOCKOUT_MS⟩ ∧
      s.LocksOut plainAuthenticator guessKey :=
  ⟨by decide, locks_out (Core.System.reachable_after (fun _ _ h => of_decide_eq_true h) _) _⟩

end Logins

end Typr
